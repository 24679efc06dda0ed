import IpsecSecgw.StatsModel
import IpsecSecgw.WorkerModel

/-! # Packets from the kernel

    `kni_filter_ike_packets` of `ngtl/kni/kni.c`: of what the kernel sends, IKE goes
    out on the port of its route and all else is freed.  Whether the driver takes a
    packet is asked from outside. -/

namespace Kni

open ByteStore MbufModel IpsecModel WorkerModel SecgwModel Stats

/-- `struct kni_interface_stats`, as far as it is counted here. -/
structure KniInterfaceStats where
  txPackets : UInt64 := 0
  txDropped : UInt64 := 0

/-- The statistics, and what has happened to the packets: those offered to a port by
    `rte_eth_tx_burst`, those it has taken and those freed. -/
structure KniState where
  appStatsData : AppStats
  kniStats : UInt16 → KniInterfaceStats
  offered : List (UInt16 × PktId) := []
  sent : List (UInt16 × PktId) := []
  freed : List PktId := []

/-- The tests of `kni_filter_ike_packets`: does the packet go out? -/
def goesOut (m : Mbuf) : Bool :=
  let ip := m.dataOff + rteEtherHdrLen
  if etherType m ≠ etherTypeIpv4 then false
  else if ipV m.buf ip ≠ 4 ∨ m.buf (ip + 9) ≠ ipprotoUdp then false
  else
    let udp := ip + ipHl m.buf ip * 4
    let sport := ofBe (load m.buf udp 2)
    let dport := ofBe (load m.buf (udp + 2) 2)
    decide (sport = 500 ∨ dport = 500 ∨ sport = 4500 ∨ dport = 4500)

variable (takes : List (UInt16 × PktId) → UInt16 → PktId → Bool) (mbuf : PktId → Mbuf)
  (portId : UInt16) (rt : RouteTable)

/-- One round of the loop.  `takes` is whether `rte_eth_tx_burst` takes a packet for a
    port, after those offered before. -/
def kniFilterIkeOne (s : KniState) (m : PktId) : Except StatFault KniState :=
  if goesOut (mbuf m) then do
    let tunnelPort := getRoute (mbuf m) rt .plainIpv4
    let appStatsData ← count tunnelPort s.appStatsData .udpTypeIKEv2
    let k := s.kniStats portId
    if takes s.offered tunnelPort m then
      return { s with
        appStatsData
        offered := s.offered ++ [(tunnelPort, m)]
        sent := s.sent ++ [(tunnelPort, m)]
        kniStats := Function.update s.kniStats portId { k with txPackets := k.txPackets + 1 } }
    else
      return { s with
        appStatsData
        offered := s.offered ++ [(tunnelPort, m)]
        freed := s.freed ++ [m]
        kniStats := Function.update s.kniStats portId { k with txDropped := k.txDropped + 1 } }
  else .ok { s with freed := s.freed ++ [m] }

/-- `kni_filter_ike_packets`. -/
def kniFilterIkePackets (pkts : List PktId) (appStatsData : AppStats)
    (kniStats : UInt16 → KniInterfaceStats) : Except StatFault KniState :=
  pkts.foldlM (kniFilterIkeOne takes mbuf portId rt) { appStatsData, kniStats }

end Kni
