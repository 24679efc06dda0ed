import IpsecSecgw.Lib.Compact
import IpsecSecgw.PollModel

/-! # Routing, pass by pass

    `route4_pkts` and `route6_pkts` with their two passes over a burst: the
    first one collects the destinations of the packets without
    `RTE_MBUF_F_TX_SEC_OFFLOAD` in `dst_ip`, all are looked up at once into
    `hop`, and the second pass sends packet by packet, and reads flags and SAs
    in the memory the packets before have left.  The two functions are one with
    the parameters of a `Family`.

    `int32_t pkt_hop` is its 32 bits. -/

namespace RouteModel

open ByteStore MbufModel IpsecModel Compact
open SecgwModel hiding getHopForOffloadPkt route4Pkts route6Pkts

/-- `RTE_LPM_LOOKUP_SUCCESS`. -/
def rteLpmLookupSuccess : UInt32 := 0x01000000

/-- The bits of `-1`. -/
def minusOne : UInt32 := 0xffffffff

/-- The length of `hop` and `dst_ip`. -/
def hopDim : Nat := maxPktBurst * 2

/-- `get_hop_for_offload_pkt`. -/
def getHopForOffloadPkt (w : World) (pkt : PktId) (isIpv6 : Bool) : UInt32 :=
  match (w.mbuf pkt).priv.sa with
  | some p =>
      if isIpv6 then (w.sa p).portid.toUInt32
      else (w.sa p).portid.toUInt32 ||| rteLpmLookupSuccess
  | none => if isIpv6 then minusOne else 0

/-- What one of the two functions has of its own. -/
structure Family (α : Type) where
  isIpv6 : Bool
  /-- the destination address -/
  dst : Mbuf → α
  /-- the test on `pkt_hop` -/
  missed : UInt32 → Bool
  /-- its counter of misses -/
  miss : Lcore → Lcore

/-- `route4_pkts`. -/
def ipv4 : Family UInt32 where
  isIpv6 := false
  dst := fun m => UInt32.ofNat (ofBe (load m.buf (m.dataOff + 16) 4))
  missed := fun pktHop => pktHop &&& rteLpmLookupSuccess == 0
  miss := fun s => { s with lpm4Miss := s.lpm4Miss + 1 }

/-- `route6_pkts`. -/
def ipv6 : Family (List UInt8) where
  isIpv6 := true
  dst := fun m => load m.buf (m.dataOff + 24) 16
  missed := fun pktHop => pktHop == minusOne
  miss := fun s => { s with lpm6Miss := s.lpm6Miss + 1 }

variable {α : Type}

/-- `RTE_MBUF_F_TX_SEC_OFFLOAD` is not set. -/
def needsLookup (m : Mbuf) : Bool := m.olFlags &&& txSecOffload == 0

/-- A packet without a hop is counted and freed. -/
def Family.drop (fam : Family α) (pkt : PktId) (s : Lcore) : Lcore :=
  let s := fam.miss s
  { s with world := s.world.freePkts [pkt] }

/-- One round of the second pass; `hop` is the next result of the lookup for a
    packet that needs one. -/
def Family.sendOne (fam : Family α) (tx : TxConf) (hop : Option UInt32)
    (pkt : PktId) (s : Lcore) : Except Fault Lcore :=
  let pktHop := hop.getD (getHopForOffloadPkt s.world pkt fam.isIpv6)
  if fam.missed pktHop then .ok (fam.drop pkt s)
  else sendSinglePacket tx pkt (pktHop &&& 0xff).toNat s

/-- The two functions; `nb_pkts` is an `uint8_t`. -/
def Family.routePkts (fam : Family α) (tx : TxConf)
    (lookupBulk : List α → List UInt32) (pkts : List PktId) (s : Lcore) :
    Except Fault Lcore :=
  let pkts := pkts.take (pkts.length % 0x100)
  if pkts = [] then .ok s
  else do
    let dstIp ← gather hopDim .bufIndex (fun p => needsLookup (s.world.mbuf p))
      (fun p => fam.dst (s.world.mbuf p)) pkts
    let r ← pkts.foldlM
      (drawOne (fun s p => needsLookup (s.world.mbuf p)) (lookupBulk dstIp) .bufIndex
        (fam.sendOne tx)) (0, s)
    return r.2

/-- `route4_pkts`. -/
def route4Pkts := ipv4.routePkts

/-- `route6_pkts`. -/
def route6Pkts := ipv6.routePkts

end RouteModel
