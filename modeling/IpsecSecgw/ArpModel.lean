import IpsecSecgw.StatsModel

/-! # ARP

    `handle_packet_arp` makes the reply out of the request in its own buffer and sends
    a clone of it; the request goes on with the other packets of its burst, past the
    filter for IKE and into `prepare_traffic`.  The answers of the memory pool and of
    the driver are asked from outside. -/

namespace Arp

open ByteStore MbufModel IpsecModel SecgwModel Stats

/-- `MY_MAC0` to `MY_MAC5`. -/
def myMac : List UInt8 := [0x00, 0x90, 0x0B, 0xD7, 0xFC, 0x27]

/-- `MY_IPS_DECIMAL`. -/
def myIpsDecimal : List UInt32 :=
  [3232236801, 3232237057, 3232237313, 3232262401, 3232262657, 3232262913]

/-- The address asked for, `myIPAddrDec`. -/
def myIpAddrDec (m : Mbuf) : UInt32 := UInt32.ofNat (ofBe (load m.buf (m.dataOff + 38) 4))

/-- The tests of `handle_packet_arp`. -/
def asks (m : Mbuf) : Bool :=
  m.buf (m.dataOff + 20) == 0x00 && m.buf (m.dataOff + 21) == 0x01
    && myIpsDecimal.contains (myIpAddrDec m)

/-- The request is turned into the reply, one field after the other. -/
def makeReply (m : Mbuf) : Mbuf :=
  let pkt := m.dataOff
  let m := m.write pkt (load m.buf (pkt + 6) 6)
  let m := m.write (pkt + 6) myMac
  let m := m.write (pkt + 20) [0x00, 0x02]
  let m := m.write (pkt + 22) myMac
  let targetIp := load m.buf (pkt + 28) 4
  let m := m.write (pkt + 28) (load m.buf (pkt + 38) 4)
  let m := m.write (pkt + 32) (load m.buf pkt 6)
  m.write (pkt + 38) targetIp

/-- The bytes of a frame. -/
def frame (m : Mbuf) : List UInt8 := load m.buf m.dataOff m.dataLen

/-- A frame sent, with its port. -/
abbrev Sent := UInt16 × List UInt8

/-- What the pool and the driver answer for a packet. -/
structure ArpEnv where
  /-- `rte_pktmbuf_clone` finds an mbuf -/
  clone : PktId → Bool
  /-- `rte_eth_tx_burst` takes the clone -/
  takes : PktId → Bool

/-- `send_packets_eth` of a clone; one the driver does not take is freed.  A clone
    that has not been made is a null pointer in `rte_eth_tx_burst`. -/
def sendPacketsEth (env : ArpEnv) (p : PktId) (m : Mbuf) (port : UInt16) :
    Except Fault (List Sent) :=
  if env.clone p then .ok (if env.takes p then [(port, frame m)] else [])
  else .error .null

/-- `handle_packet_arp`. -/
def handlePacketArp (env : ArpEnv) (p : PktId) (m : Mbuf) : Except Fault (Mbuf × List Sent) :=
  if asks m then do
    let m := makeReply m
    let sent ← sendPacketsEth env p m 0
    return (m, sent)
  else .ok (m, [])

/-- What `dpi` does to a packet here; `StatsModel` and `FlowModel` have the rest. -/
def dpiArp (env : ArpEnv) (p : PktId) (m : Mbuf) : Except Fault (Mbuf × List Sent) :=
  if etherType m = etherTypeArp then handlePacketArp env p m else .ok (m, [])

/-- The packets, and the frames sent for each of them. -/
structure ArpState where
  world : World
  sent : PktId → List Sent := fun _ => []

/-- One round of `handle_packets`. -/
def handlePacketsOne (env : ArpEnv) (s : ArpState) (p : PktId) : Except Fault ArpState := do
  let (m, sent) ← dpiArp env p (s.world.mbuf p)
  return ⟨s.world.modify p fun _ => m, Function.update s.sent p (s.sent p ++ sent)⟩

/-- `handle_packets`. -/
def handlePackets (env : ArpEnv) (pkts : List PktId) (s : ArpState) : Except Fault ArpState :=
  pkts.foldlM (handlePacketsOne env) s

/-- Not from the client port IKE is taken out of the burst. -/
def takeOutIke (kni : List PktId → PktId → Bool) (client : Bool) (pkts : List PktId) (w : World) :
    List PktId × World :=
  if client then (pkts, w)
  else
    let f := filterIkePackets kni pkts w
    (f.1.pktsNew, f.2)

/-- The poll mode worker on a burst, up to `prepare_traffic`. -/
def receive (env : ArpEnv) (conf : PollConf) (kni : List PktId → PktId → Bool) (client : Bool)
    (pkts : List PktId) (w : World) : Except Fault (Burst × ArpState) := do
  let s ← handlePackets env pkts ⟨w, fun _ => []⟩
  let r := takeOutIke kni client pkts s.world
  let (t, w) ← prepareTraffic conf r.1 r.2
  return (t, { s with world := w })

end Arp
