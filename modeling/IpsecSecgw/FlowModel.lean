import IpsecSecgw.Lib.SlotHash
import IpsecSecgw.SecgwModel

/-! # Flow statistics

    What every received packet passes in front of the IPsec code: `dpi` looks
    the 5-tuple of an IPv4 packet up in the hash `NETSTAT` and keeps a slot of
    `netstatData` for it; `flushHashTable` takes idle flows out again; the
    position of a new flow is pushed to a list, from which the log thread writes
    one database record each.

    The hash is a table of positions whose choice of a free position is asked
    from outside; times are those of the TSC in whole seconds. -/

namespace Flow

open ByteStore MbufModel SecgwModel Slots Hashing

/-! ## Data -/

/-- `NETSTAT_ENTRIES`. -/
def netstatEntries : Nat := 65535

/-- `struct netstatHashKeyStruct`; addresses and ports as they lie in memory. -/
structure NetstatHashKeyStruct where
  srcIP : UInt32 := 0
  dstIP : UInt32 := 0
  proto : UInt8 := 0
  srcPort : UInt16 := 0
  dstPort : UInt16 := 0
  deriving DecidableEq, Repr

/-- `struct netstatStruct`. -/
structure NetstatStruct where
  key : NetstatHashKeyStruct := {}
  status : UInt8 := 0
  srcIP : UInt32 := 0
  dstIP : UInt32 := 0
  proto : UInt8 := 0
  srcPort : UInt16 := 0
  dstPort : UInt16 := 0
  inPort : UInt8 := 0
  outPort : UInt8 := 0
  lastPktTime : UInt64 := 0
  deriving DecidableEq, Repr

/-- `NETSTAT`, `netstatData`, `netstatStats` and the list `head`. -/
structure Netstat where
  hash : SlotHash NetstatHashKeyStruct netstatEntries := .empty
  data : Nat → NetstatStruct := fun _ => {}
  counts : UInt64 := 0
  hits : UInt64 := 0
  head : List Nat := []

/-- `push`. -/
def Netstat.push (s : Netstat) (newData : Nat) : Netstat :=
  { s with head := s.head ++ [newData] }

/-- `pop`; `none` is -1. -/
def Netstat.pop (s : Netstat) : Option Nat × Netstat :=
  (s.head.head?, { s with head := s.head.tail })

/-! ## Packets -/

def ipprotoIcmp : UInt8 := 1
def ipprotoIgmp : UInt8 := 2
def ipprotoGre : UInt8 := 47

/-- The protocol number `dpi` counts as OSPF. -/
def ipprotoOspf : UInt8 := 0x89

/-- `buf->l2_len`: where `dpi` expects the L4 header. -/
def dpiL2Len (m : Mbuf) : Nat := ipHl m.buf (m.dataOff + 14) * 4 + 14

/-- `netstatHashKeyData`: ports for TCP and UDP only, and no protocol for one it
    does not know. -/
def netstatHashKeyData (m : Mbuf) : NetstatHashKeyStruct :=
  let ip := m.dataOff + 14
  let l4 := m.dataOff + dpiL2Len m
  let proto := m.buf (ip + 9)
  let key : NetstatHashKeyStruct :=
    { srcIP := UInt32.ofNat (ofLe (load m.buf (ip + 12) 4))
      dstIP := UInt32.ofNat (ofLe (load m.buf (ip + 16) 4)) }
  if proto = ipprotoTcp ∨ proto = ipprotoUdp then
    { key with
      proto := proto
      srcPort := UInt16.ofNat (ofLe (load m.buf l4 2))
      dstPort := UInt16.ofNat (ofLe (load m.buf (l4 + 2) 2)) }
  else if proto = ipprotoIcmp ∨ proto = ipprotoEsp ∨ proto = ipprotoIgmp
      ∨ proto = ipprotoGre ∨ proto = ipprotoOspf then
    { key with proto := proto }
  else key

/-- The slot of a new flow. -/
def newSlot (key : NetstatHashKeyStruct) (portid : UInt16) (lastPktTime : UInt64) :
    NetstatStruct where
  key := key
  status := 1
  srcIP := key.srcIP
  dstIP := key.dstIP
  proto := key.proto
  srcPort := key.srcPort
  dstPort := key.dstPort
  inPort := portid.toUInt8
  outPort := if portid = 0 then 1 else 0
  lastPktTime := lastPktTime

/-- The `NETSTAT` part of `dpi` up to the push: the position to be pushed. -/
def dpiInsert (answer : Option Nat) (key : NetstatHashKeyStruct) (portid : UInt16)
    (lastPktTime : UInt64) (s : Netstat) : Option Nat × Netstat :=
  match s.hash.lookup key with
  | none =>
      match s.hash.addKey key answer with
      | none => (none, s)
      | some (ret, hash) =>
          (some ret,
            { s with
              hash := hash
              counts := s.counts + 1
              data := Function.update s.data ret
                (newSlot key portid lastPktTime) })
  | some ret =>
      (none,
        { s with
          hits := s.hits + 1
          data := Function.update s.data ret
            { s.data ret with lastPktTime := lastPktTime } })

/-- `dpi`. -/
def dpi (answer : Option Nat) (m : Mbuf) (portid : UInt16) (lastPktTime : UInt64)
    (s : Netstat) : Mbuf × Netstat :=
  if etherType m = etherTypeIpv4 then
    let r := dpiInsert answer (netstatHashKeyData m) portid lastPktTime s
    ({ m with l2Len := dpiL2Len m },
      match r.1 with
      | none => r.2
      | some ret => r.2.push ret)
  else (m, s)

/-! ## The sweep -/

/-- `curr_time - lastPktTime > 15` on 64-bit numbers. -/
def expired (currTime lastPktTime : UInt64) : Bool := 15 < currTime - lastPktTime

/-- The first half of a round of `flushHashTable`: an idle flow leaves the hash.
    The result is the slot to be cleared, and whether it counts. -/
def evict (currTime : UInt64) (n : Nat) (s : Netstat) :
    Option (Nat × Bool) × Netstat :=
  if (s.data n).status = 1 ∧ expired currTime (s.data n).lastPktTime then
    match s.hash.lookup (s.data n).key with
    | some ret =>
        match s.hash.delKey (s.data ret).key with
        | some (ret, hash) => (some (ret, true), { s with hash := hash })
        | none => (none, s)
    | none => (some (n, false), s)
  else (none, s)

/-- The second half: the slot is zeroed. -/
def clearSlot (ret : Nat) (counted : Bool) (s : Netstat) : Netstat :=
  { s with
    data := Function.update s.data ret {}
    counts := if counted ∧ 0 < s.counts then s.counts - 1 else s.counts }

/-- One round of `flushHashTable`. -/
def flushSlot (currTime : UInt64) (n : Nat) (s : Netstat) : Netstat :=
  match evict currTime n s with
  | (none, s) => s
  | (some (ret, counted), s) => clearSlot ret counted s

/-- `flushHashTable`, with the time it reads at its start. -/
def flushHashTable (currTime : UInt64) (s : Netstat) : Netstat :=
  forLoop (flushSlot currTime) netstatEntries s

/-! ## The database -/

/-- A document of the collection `netstats`, but for its time; the addresses
    are written out by `dec2IP`. -/
structure NetstatRecord where
  srcIP : UInt32
  dstIP : UInt32
  srcPort : UInt16
  dstPort : UInt16
  proto : UInt8
  inPort : UInt8
  outPort : UInt8
  deriving DecidableEq, Repr

/-- `rte_cpu_to_be_16` on a little-endian host. -/
def rteCpuToBe16 (x : UInt16) : UInt16 := (x <<< 8) ||| (x >>> 8)

/-- `insertNetstatToDB`. -/
def insertNetstatToDB (e : NetstatStruct) : NetstatRecord where
  srcIP := e.srcIP
  dstIP := e.dstIP
  srcPort := rteCpuToBe16 e.srcPort
  dstPort := rteCpuToBe16 e.dstPort
  proto := e.proto
  inPort := e.inPort
  outPort := e.outPort

end Flow
