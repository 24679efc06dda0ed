import IpsecSecgw.CdevModel
import IpsecSecgw.PollModel

/-! # Reassembly

    With a fragment table, every receive queue of a lcore has callbacks that hand
    fragments to `librte_ip_frag` before the lcore sees a burst: `rx_callback`, which
    closes the gaps in the array of the burst as it goes, and `reassemble_init`, which
    goes over `lcore_params`, so over a lcore as often as the lcore is named there.

    The library is asked from outside.  A table is replaced by a later one of its lcore
    while all are empty, so there is one for each lcore here.  `none` is a null pointer
    followed by the code, or `rte_exit`. -/

namespace Reassembly

open ByteStore MbufModel IpsecModel CdevModel SecgwModel
open WorkerModel (rteEtherHdrLen)

/-! ## Fragments -/

/-- The two families of `librte_ip_frag`. -/
inductive Fam
  | ipv4
  | ipv6
  deriving DecidableEq

def Fam.etherType : Fam → Nat
  | .ipv4 => etherTypeIpv4
  | .ipv6 => etherTypeIpv6

/-- The `l3_len` of a fragment: the IPv6 header has its fragment header behind it. -/
def Fam.l3Len : Fam → Nat
  | .ipv4 => 20
  | .ipv6 => 48

def ipprotoFragment : UInt8 := 44

/-- `rte_ipv4_frag_pkt_is_fragmented` for the header at `a`. -/
def ipv4Fragmented (b : Nat → UInt8) (a : Nat) : Bool :=
  let flagOffset := ofBe (load b (a + 6) 2)
  flagOffset &&& 0x2000 != 0 || flagOffset &&& 0x1fff != 0

/-- What `rx_callback` takes a packet for. -/
def fragmentOf (m : Mbuf) : Option Fam :=
  let iph := m.dataOff + rteEtherHdrLen
  if etherType m = etherTypeIpv4 then if ipv4Fragmented m.buf iph then some .ipv4 else none
  else if etherType m = etherTypeIpv6 then
    if m.buf (iph + 6) = ipprotoFragment then some .ipv6 else none
  else none

/-! ## The library -/

/-- `librte_ip_frag` with a table and its death row, and the TSC. -/
structure RteIpFrag (τ : Type) where
  /-- `rte_ipv4_frag_reassemble_packet`, `rte_ipv6_frag_reassemble_packet`: the packet
      that has been put together, if one has -/
  reassemble : Fam → τ → (PktId → Mbuf) → PktId → UInt64 → Option PktId × τ × (PktId → Mbuf)
  /-- `rte_ip_frag_free_death_row` -/
  freeDeathRow : τ → (PktId → Mbuf) → τ × (PktId → Mbuf)
  /-- `rte_ipv4_cksum` -/
  ipv4Cksum : (Nat → UInt8) → Nat → List UInt8
  /-- `rte_rdtsc`, one reading behind the other -/
  rdtsc : Nat → UInt64

/-- The table of each lcore, the mbufs, and how often the TSC has been read. -/
structure FragState (τ : Type) where
  tbl : UInt8 → τ
  mem : PktId → Mbuf
  readings : Nat := 0

variable {τ : Type}

def FragState.modify (st : FragState τ) (x : PktId) (f : Mbuf → Mbuf) : FragState τ :=
  { st with mem := Function.update st.mem x (f (st.mem x)) }

@[simp] theorem FragState.modify_tbl (st : FragState τ) (x : PktId) (f : Mbuf → Mbuf) :
    (st.modify x f).tbl = st.tbl := rfl

@[simp] theorem FragState.modify_self (st : FragState τ) (x : PktId) (f : Mbuf → Mbuf) :
    (st.modify x f).mem x = f (st.mem x) := Function.update_self ..

theorem FragState.modify_of_ne (st : FragState τ) {x y : PktId} (h : y ≠ x) (f : Mbuf → Mbuf) :
    (st.modify x f).mem y = st.mem y := Function.update_of_ne h ..

variable (lib : RteIpFrag τ) (lc : UInt8)

/-! ## `rx_callback` -/

/-- The time is read for the first fragment. -/
def readTsc (tm : UInt64) (st : FragState τ) : UInt64 × FragState τ :=
  if tm ≠ 0 then (tm, st)
  else (lib.rdtsc st.readings, { st with readings := st.readings + 1 })

/-- What is put right in a packet put together: the checksum, or the length of the
    headers. -/
def mend : Fam → Mbuf → Mbuf
  | .ipv4, m =>
      let iph := m.dataOff + m.l2Len
      let m := m.write (iph + 10) [0, 0]
      m.write (iph + 10) (lib.ipv4Cksum m.buf iph)
  | .ipv6, m => { m with l3Len := l3LenField (m.l3Len + 0x200 - 8) }

/-- A fragment is handed to the library. -/
def takeFragment (f : Fam) (x : PktId) (tm : UInt64) (st : FragState τ) :
    Option PktId × UInt64 × FragState τ :=
  let st := st.modify x fun m => { m with l2Len := rteEtherHdrLen, l3Len := f.l3Len }
  let t := readTsc lib tm st
  let r := lib.reassemble f (t.2.tbl lc) t.2.mem x t.1
  let st := { t.2 with tbl := Function.update t.2.tbl lc r.2.1, mem := r.2.2 }
  match r.1 with
  | none => (none, t.1, st)
  | some y => (some y, t.1, st.modify y (mend lib f))

/-- One packet: what `mb` points to behind it. -/
def rxPacket (x : PktId) (tm : UInt64) (st : FragState τ) :
    Option PktId × UInt64 × FragState τ :=
  match fragmentOf (st.mem x) with
  | none => (some x, tm, st)
  | some f => takeFragment lib lc f x tm st

/-- `pkt`, `k`, `tm` and all around. -/
structure RxLoop (τ : Type) where
  pkt : Nat → Option PktId
  k : Nat
  tm : UInt64
  st : FragState τ

/-- One round: the packet goes to the first place that is free in the array. -/
def rxOne (s : RxLoop τ) (i : Nat) : Option (RxLoop τ) :=
  match s.pkt i with
  | none => none
  | some x =>
      let r := rxPacket lib lc x s.tm s.st
      some ⟨Function.update s.pkt s.k r.1, if r.1.isSome then s.k + 1 else s.k, r.2.1, r.2.2⟩

/-- The fragments that will not be put together are freed. -/
def drainDeathRow (st : FragState τ) : FragState τ :=
  let r := lib.freeDeathRow (st.tbl lc) st.mem
  { st with tbl := Function.update st.tbl lc r.1, mem := r.2 }

/-- A burst: its array and its length. -/
abbrev RxBurst := (Nat → Option PktId) × Nat

/-- `rx_callback` of a lcore. -/
def rxCallback (burst : RxBurst) (st : FragState τ) : Option (RxBurst × FragState τ) := do
  let s ← (List.range burst.2).foldlM (rxOne lib lc) ⟨burst.1, 0, 0, st⟩
  return ((s.pkt, s.k), if s.tm ≠ 0 then drainDeathRow lib lc s.st else s.st)

/-- `rte_eth_rx_burst` behind the driver: the callbacks of the queue in their order. -/
def rteEthRxBurst (callbacks : List UInt8) (burst : RxBurst) (st : FragState τ) :
    Option (RxBurst × FragState τ) :=
  callbacks.foldlM (fun r lc => rxCallback lib lc r.1 r.2) (burst, st)

/-! ## `reassemble_init` -/

/-- The callbacks of each queue, by the lcore in `user_param`. -/
abbrev Callbacks := UInt16 × UInt8 → List UInt8

/-- What DPDK answers: whether there is a table, and whether a callback is added. -/
structure InstallEnv where
  tableCreate : Callbacks → UInt8 → Bool
  addRxCallback : Callbacks → UInt16 × UInt8 → Bool

variable (env : InstallEnv) (rxq : RxQueues)

/-- `rte_eth_add_rx_callback`. -/
def rteEthAddRxCallback (cbs : Callbacks) (q : UInt16 × UInt8) : Option Callbacks :=
  if env.addRxCallback cbs q then some (Function.update cbs q (cbs q ++ [lc])) else none

/-- `reassemble_lcore_init`. -/
def reassembleLcoreInit (cbs : Callbacks) : Option Callbacks :=
  if !env.tableCreate cbs lc then none
  else (rxq lc).foldlM (rteEthAddRxCallback lc env) cbs

/-- `reassemble_init`. -/
def reassembleInit (params : List LcoreParams) : Option Callbacks :=
  params.foldlM (fun cbs p => reassembleLcoreInit p.lcoreId env rxq cbs) fun _ => []

end Reassembly
