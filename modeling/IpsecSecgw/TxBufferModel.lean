import IpsecSecgw.PollModel
import IpsecSecgw.Lib.Fill

/-! # Transmit buffers in memory

    `ipsec-secgw.c`, from `send_burst` to `send_single_packet`, and
    `drain_tx_buffers`, on the array of a `struct buffer` and its length.
    `PollModel` keeps the packets in use as a list; here a store names its slot,
    and one outside the array ends the run.

    The length a function carries in a local variable is not the one in the
    buffer until it is written back. -/

namespace TxBuffer

open MbufModel IpsecModel SecgwModel Slots

/-! ## Data -/

/-- `struct buffer`. -/
structure Buffer where
  len : Nat
  mTable : Nat → PktId

/-- What a fragmenter answers: the packets it has put into the table, its return
    value, and the mbufs afterwards. -/
structure FragResult where
  written : List PktId
  rc : Int
  mbufs : PktId → Mbuf

/-- What transmission is given from outside. -/
structure TxLib where
  conf : TxConf
  /-- `rte_ipv4_fragment_packet`, with room for so many fragments -/
  ipv4Fragment : World → PktId → Nat → FragResult
  /-- `rte_ipv6_fragment_packet` -/
  ipv6Fragment : World → PktId → Nat → FragResult

/-- A call of `rte_eth_tx_burst`: the packets offered, and how many of them the
    NIC has taken. -/
structure TxBurst where
  port : Nat
  offered : List PktId
  taken : Nat

/-- The packets the NIC has taken. -/
def TxBurst.accepted (b : TxBurst) : List PktId := b.offered.take b.taken

/-- The packets it has left. -/
def TxBurst.refused (b : TxBurst) : List PktId := b.offered.drop b.taken

/-- A call of `send_single_packet`: the packet with its size, the packets stored
    for it, and those it has freed. -/
structure Sending where
  pkt : PktId
  port : Nat
  size : Nat
  parts : List PktId
  freed : List PktId

/-- What transmission changes in a `struct lcore_conf`, the counters of
    `core_statistics`, and two logs. -/
structure TxState where
  world : World
  txMbufs : Nat → Buffer
  tx : Nat := 0
  txCall : Nat := 0
  txBytes : Nat := 0
  bursts : List TxBurst := []
  sends : List Sending := []

/-- `qconf->tx_mbufs[port].len = len`. -/
def TxState.setLen (s : TxState) (port len : Nat) : TxState :=
  { s with txMbufs := Function.update s.txMbufs port { s.txMbufs port with len := len } }

/-- The array of a buffer is replaced. -/
def TxState.setTable (s : TxState) (port : Nat) (a : Nat → PktId) : TxState :=
  { s with txMbufs := Function.update s.txMbufs port { s.txMbufs port with mTable := a } }

/-- `qconf->tx_mbufs[port].m_table[k] = m`. -/
def TxState.store (s : TxState) (port k : Nat) (m : PktId) : Except Fault TxState :=
  if maxPktBurst ≤ k then .error .bufIndex
  else .ok (s.setTable port (Function.update (s.txMbufs port).mTable k m))

/-- Packets stored one behind the other. -/
def TxState.storeAll (s : TxState) (port k : Nat) : List PktId → Except Fault TxState
  | [] => .ok s
  | m :: l => do
      let s ← s.store port k m
      s.storeAll port (k + 1) l

/-- The mbufs are others. -/
def TxState.setMbufs (s : TxState) (mbufs : PktId → Mbuf) : TxState :=
  { s with world := { s.world with mbuf := mbufs } }

/-- A packet sent is logged. -/
def TxState.logSend (s : TxState) (x : Sending) : TxState :=
  { s with sends := s.sends ++ [x] }

/-- `free_pkts(&m, 1)`. -/
def TxState.freePkt (s : TxState) (m : PktId) : TxState :=
  { s with world := s.world.freePkts [m] }

/-! ## A burst -/

/-- `core_stats_update_tx`. -/
def coreStatsUpdateTx (n : Nat) (pkts : Nat → PktId) (s : TxState) : TxState :=
  { s with
    tx := s.tx + n
    txCall := s.txCall + 1
    txBytes := (List.range n).foldl
      (fun bytes i => bytes + (s.world.mbuf (pkts i)).dataLen) s.txBytes }

/-- `do { free_pkts(&m_table[ret], 1); } while (++ret < n)`. -/
def freeFrom (mTable : Nat → PktId) (ret n : Nat) (s : TxState) : TxState :=
  (List.range (n - ret)).foldl (fun s i => s.freePkt (mTable (ret + i))) s

/-- `send_burst`.  The loops over the table read its first `n` slots. -/
def sendBurst (lib : TxLib) (n port : Nat) (s : TxState) : Except Fault TxState :=
  if maxPktBurst < n then .error .bufIndex
  else do
    let mTable := (s.txMbufs port).mTable
    let w ← (List.range n).foldlM
      (fun w i => prepareTxOne lib.conf port w (mTable i)) s.world
    let ret := min (lib.conf.txTake w.tick) n
    let s := { s with
      world := w.next
      bursts := s.bursts ++ [⟨port, cells mTable n, ret⟩] }
    let s := coreStatsUpdateTx ret mTable s
    return if ret < n then freeFrom mTable ret n s else s

/-! ## A packet -/

/-- `IPPROTO_IP`. -/
def ipprotoIp : Nat := 0

/-- The fragmenter of a family. -/
def TxLib.fragment (lib : TxLib) (proto : Nat) : World → PktId → Nat → FragResult :=
  if proto = ipprotoIp then lib.ipv4Fragment else lib.ipv6Fragment

/-- How many fragments there are; an error counts none. -/
def FragResult.count (r : FragResult) : Nat := if 0 ≤ r.rc then r.rc.toNat else 0

/-- The first lines of `send_fragment_packet`: a buffer that might be too full
    for the fragments is sent. -/
def freeSpace (lib : TxLib) (port : Nat) (s : TxState) : Except Fault (Nat × TxState) :=
  let len := (s.txMbufs port).len
  if maxPktBurst ≤ len + ipFragMaxFrag then do
    let s ← sendBurst lib len port s
    return (0, s)
  else .ok (len, s)

/-- `send_fragment_packet`: the length it returns is not yet that of the
    buffer. -/
def sendFragmentPacket (lib : TxLib) (m : PktId) (port proto : Nat) (s : TxState) :
    Except Fault (Nat × TxState) := do
  let size := (s.world.mbuf m).dataLen
  let (len, s) ← freeSpace lib port s
  let r := lib.fragment proto s.world m (maxPktBurst - len)
  let s ← (s.setMbufs r.mbufs).storeAll port len r.written
  let s := s.logSend ⟨m, port, size, r.written.take r.count, [m]⟩
  return (len + r.count, s.freePkt m)

/-- The packet or its fragments join the table; what comes back is the new
    length. -/
def putPacket (lib : TxLib) (m : PktId) (port proto : Nat) (s : TxState) :
    Except Fault (Nat × TxState) :=
  let len := (s.txMbufs port).len
  let size := (s.world.mbuf m).dataLen
  if size ≤ lib.conf.mtuSize then do
    let s ← s.store port len m
    return (len + 1, s.logSend ⟨m, port, size, [m], []⟩)
  else if 0 < lib.conf.fragTblSz then sendFragmentPacket lib m port proto s
  else .ok (len, (s.logSend ⟨m, port, size, [], [m]⟩).freePkt m)

/-- `send_single_packet`: a full table is sent. -/
def sendSinglePacket (lib : TxLib) (m : PktId) (port proto : Nat) (s : TxState) :
    Except Fault TxState :=
  if maxEthports ≤ port then .error .bufIndex
  else do
    let (len, s) ← putPacket lib m port proto s
    if len = maxPktBurst then
      let s ← sendBurst lib maxPktBurst port s
      return s.setLen port 0
    else return s.setLen port len

/-- One round of `drain_tx_buffers`. -/
def drainOne (lib : TxLib) (s : TxState) (port : Nat) : Except Fault TxState :=
  if (s.txMbufs port).len = 0 then .ok s
  else do
    let s ← sendBurst lib (s.txMbufs port).len port s
    return s.setLen port 0

/-- `drain_tx_buffers`. -/
def drainTxBuffers (lib : TxLib) (s : TxState) : Except Fault TxState :=
  (List.range maxEthports).foldlM (drainOne lib) s

/-! ## Runs -/

/-- What reaches the transmit buffers of a lcore: packets to send, drains, and
    between them the rest of the program, which writes mbufs. -/
inductive TxCall
  | send (m : PktId) (port proto : Nat)
  | drain
  | others (mbufs : PktId → Mbuf)

/-- One call. -/
def call (lib : TxLib) (s : TxState) : TxCall → Except Fault TxState
  | .send m port proto => sendSinglePacket lib m port proto s
  | .drain => drainTxBuffers lib s
  | .others mbufs => .ok (s.setMbufs mbufs)

/-- A sequence of calls. -/
def run (lib : TxLib) (calls : List TxCall) (s : TxState) : Except Fault TxState :=
  calls.foldlM (call lib) s

/-- Buffers without packets, whatever their slots hold. -/
def start (w : World) (slots : Nat → Nat → PktId) : TxState where
  world := w
  txMbufs port := ⟨0, slots port⟩

end TxBuffer
