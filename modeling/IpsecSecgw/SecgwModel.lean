import IpsecSecgw.Lib.Sweep
import IpsecSecgw.IpsecModel
import IpsecSecgw.WorkerModel

/-! # Poll mode

    `ipsec-secgw.c`: how a burst is classified, sent through the crypto of its
    direction and checked against the policies, and what comes out of the
    crypto queues later.  A packet is known by the number of its mbuf, as in
    `IpsecModel`, whose contexts, traffic and crypto calls are used here; policy
    contexts and the SA table are those of `WorkerModel`.

    `ip4.data` and `ip6.data` lead to the same byte of every packet of a family,
    the next protocol (`protoPlace`), so they are not kept beside the packets. -/

namespace SecgwModel

open ByteStore SaModel MbufModel SadModel Esp IpsecModel WorkerModel Sweep

/-! ## Data -/

/-- The settings the poll functions read, and what they ask the libraries. -/
structure PollConf where
  /-- `app_sa_prm.enable` -/
  enable : Bool
  /-- `app_sa_prm.udp_encap == 1` -/
  udpEncap : Bool
  /-- `rte_security_dynfield_is_registered` -/
  dynfieldRegistered : Bool
  /-- `rte_security_get_userdata` for a port and the security field -/
  getUserdata : UInt16 → Option SaPtr → Option SaPtr
  /-- `rte_ipv6_get_next_ext`: the next protocol and the length of the extension
      header at a place, `none` for another protocol -/
  getNextExt : (Nat → UInt8) → Nat → UInt8 → Option (UInt8 × Nat)
  /-- an extension header has at least eight bytes -/
  getNextExt_len : ∀ b a proto r, getNextExt b a proto = some r → 8 ≤ r.2

/-- `struct ipsec_spd_stats`. -/
structure SpdStats where
  protect : Nat := 0
  bypass : Nat := 0
  discard : Nat := 0
  deriving DecidableEq, Repr

/-- The counters of one direction in `core_statistics`. -/
structure DirStats where
  spd4 : SpdStats := {}
  spd6 : SpdStats := {}
  deriving DecidableEq, Repr

/-! ## Classification -/

/-- The array a packet joins in `prepare_one_packet`. -/
inductive PktClass
  | ipsec
  | ip4
  | ip6
  | freed
  deriving DecidableEq, Repr

/-- `RTE_ETHER_TYPE_IPV4`, `RTE_ETHER_TYPE_IPV6`. -/
def etherTypeIpv4 : Nat := 0x0800
def etherTypeIpv6 : Nat := 0x86dd

/-- `IPSEC_NAT_T_PORT`. -/
def ipsecNatTPort : Nat := 4500

/-- `sizeof(struct rte_ipv4_hdr)`, `sizeof(struct ip6_hdr)`. -/
def ipv4HdrLen : Nat := 20
def ipv6HdrLen : Nat := 40

/-- `eth->ether_type`. -/
def etherType (m : Mbuf) : Nat := ofBe (load m.buf (m.dataOff + 12) 2)

/-- Bytes behind the length the IP header gives are taken off. -/
def trimTo (m : Mbuf) (plen : Nat) : Mbuf :=
  if plen < m.dataLen then (rtePktmbufTrim m (m.dataLen - plen)).getD m else m

/-- `adjust_ipv4_pktlen` with `l2_len` 0; the header is at `iph`. -/
def adjustIpv4Pktlen (m : Mbuf) (iph : Nat) : Mbuf :=
  trimTo m (ofBe (load m.buf (iph + 2) 2))

/-- `adjust_ipv6_pktlen` with `l2_len` 0. -/
def adjustIpv6Pktlen (m : Mbuf) (iph : Nat) : Mbuf :=
  trimTo m (ofBe (load m.buf (iph + 4) 2) + ipv6HdrLen)

/-- The source or destination port of the UDP header at `udp` is that of NAT
    traversal. -/
def isNatT (m : Mbuf) (udp : Nat) : Bool :=
  ofBe (load m.buf udp 2) == ipsecNatTPort
    || ofBe (load m.buf (udp + 2) 2) == ipsecNatTPort

/-- `MBUF_PTYPE_TUNNEL_ESP_IN_UDP`. -/
def ptypeTunnelEspInUdp : UInt32 := ptypeTunnelEsp ||| ptypeL4Udp

/-- The `switch` over the protocol behind the IP header; `udp` is where a UDP
    header would be, `plain` the array of the family. -/
def classify (conf : PollConf) (m : Mbuf) (proto : Option UInt8) (udp : Nat)
    (plain : PktClass) : PktClass × Mbuf :=
  if proto = some ipprotoEsp then (.ipsec, m)
  else if proto = some ipprotoUdp ∧ conf.udpEncap ∧ isNatT m udp then
    (.ipsec, { m with packetType := m.packetType ||| ptypeTunnelEspInUdp })
  else (plain, m)

/-- The loop over extension headers with at most so many rounds: the protocol
    it ends at, `none` for an error of `rte_ipv6_get_next_ext`, and `l3len`. -/
def extLoop (conf : PollConf) (m : Mbuf) :
    Nat → UInt8 → Nat → Option UInt8 × Nat
  | 0, proto, l3len => (some proto, l3len)
  | fuel + 1, proto, l3len =>
      if proto ≠ ipprotoEsp ∧ l3len < m.dataLen then
        match conf.getNextExt m.buf (m.dataOff + l3len) proto with
        | none => (none, l3len)
        | some (next, extLen) => extLoop conf m fuel next (l3len + extLen)
      else (some proto, l3len)

/-- `next_proto` and `l3len` for an IPv6 packet; every round takes at least one
    byte, so the length of the packet is enough. -/
def ipv6L3 (conf : PollConf) (m : Mbuf) : Option UInt8 × Nat :=
  extLoop conf m m.dataLen (m.buf (m.dataOff + 6)) ipv6HdrLen

/-- `pkt->l3_len`, a field of nine bits. -/
def l3LenField (l3len : Nat) : Nat := l3len % 0x200

/-- The lengths of the headers and the L3 type. -/
def setL3 (m : Mbuf) (l3len : Nat) (ptype : UInt32) : Mbuf :=
  { m with
    l2Len := 0
    l3Len := l3LenField l3len
    packetType := m.packetType ||| ptype }

/-- The IPv4 part of `prepare_one_packet`, behind the Ethernet header. -/
def prepareIpv4 (conf : PollConf) (m : Mbuf) : PktClass × Mbuf :=
  let iph := m.dataOff
  let m := adjustIpv4Pktlen m iph
  let r := classify conf m (some (m.buf (iph + 9))) (iph + ipHl m.buf iph * 4) .ip4
  (r.1, setL3 r.2 ipv4HdrLen ptypeL3Ipv4)

/-- The IPv6 part. -/
def prepareIpv6 (conf : PollConf) (m : Mbuf) : PktClass × Mbuf :=
  let iph := m.dataOff
  let m := adjustIpv6Pktlen m iph
  let (proto, l3len) := ipv6L3 conf m
  if m.dataLen < l3len then (.freed, m)
  else
    let r := classify conf m proto (iph + l3len) .ip6
    (r.1, setL3 r.2 l3len ptypeL3Ipv6)

/-- The end of `prepare_one_packet`: the SA registered with the session that
    processed the packet inline. -/
def saveUserdata (conf : PollConf) (m : Mbuf) : Mbuf :=
  if m.olFlags &&& rxSecOffload ≠ 0 ∧ conf.dynfieldRegistered then
    match conf.getUserdata m.port m.dynSa with
    | none => m
    | some p => setPrivSa p m
  else m

/-- `prepare_one_packet`; `none` where a packet without an Ethernet header makes
    the code follow a null pointer. -/
def prepareOnePacket (conf : PollConf) (m : Mbuf) : Option (PktClass × Mbuf) :=
  let prepared :=
    if etherType m = etherTypeIpv4 then
      (rtePktmbufAdj m rteEtherHdrLen).map fun r => prepareIpv4 conf r.2
    else if etherType m = etherTypeIpv6 then
      (rtePktmbufAdj m rteEtherHdrLen).map fun r => prepareIpv6 conf r.2
    else some (.freed, m)
  prepared.map fun r =>
    if r.1 = .freed then r else (r.1, saveUserdata conf r.2)

/-- `offsetof(struct ip, ip_p)`, `offsetof(struct ip6_hdr, ip6_nxt)`. -/
def ip4Proto : Nat := 9
def ip6Proto : Nat := 6

/-- What goes into `ip4.data` or `ip6.data` beside a packet of these arrays: the
    place of its protocol. -/
def protoPlace (r : PktClass × Mbuf) : Option Nat :=
  match r.1 with
  | .ip4 => some (r.2.dataOff + ip4Proto)
  | .ip6 => some (r.2.dataOff + ip6Proto)
  | _ => none

/-- `struct ipsec_traffic`: `ipsec.pkts` and the cleartext packets. -/
structure Burst where
  ipsec : List PktId := []
  trf : Traffic := {}

/-- A packet joins its array. -/
def Burst.add (t : Burst) (p : PktId) : PktClass → Burst
  | .ipsec => { t with ipsec := t.ipsec ++ [p] }
  | .ip4 => { t with trf := { t.trf with ip4 := t.trf.ip4 ++ [p] } }
  | .ip6 => { t with trf := { t.trf with ip6 := t.trf.ip6 ++ [p] } }
  | .freed => t

/-- One round of the loops of `prepare_traffic`. -/
def prepareTrafficOne (conf : PollConf) (s : Burst × World) (p : PktId) :
    Except Fault (Burst × World) :=
  match prepareOnePacket conf (s.2.mbuf p) with
  | none => .error .null
  | some (cls, m) =>
      let w := s.2.modify p fun _ => m
      .ok (s.1.add p cls, if cls = .freed then w.freePkts [p] else w)

/-- `prepare_traffic`. -/
def prepareTraffic (conf : PollConf) (pkts : List PktId) (w : World) :
    Except Fault (Burst × World) :=
  pkts.foldlM (prepareTrafficOne conf) ({}, w)

/-! ## Inbound -/

/-- `rte_acl_classify` on one packet of a family. -/
def aclResult (acl : SpCtx) (w : World) (off : Nat) (p : PktId) : UInt32 :=
  acl (w.mbuf p).buf ((w.mbuf p).dataOff + off)

/-- `inbound_sa_check`. -/
def inboundSaCheck (saCtx : SaCtx) (w : World) (p : PktId) (saIdx : UInt32) :
    Bool :=
  match (w.mbuf p).priv.sa with
  | none => false
  | some q => (w.sa (saCtx.entry saIdx)).spi == (w.sa q).spi

/-- What the loop of `inbound_sp_sa` counts and frees. -/
abbrev SpdState := SpdStats × List PktId

/-- The packet is freed and counted. -/
def SpdState.drop (s : SpdState) (p : PktId) : SpdState :=
  ({ s.1 with discard := s.1.discard + 1 }, s.2 ++ [p])

/-- The body of the loop of `inbound_sp_sa`: is the packet kept? -/
def inboundSpSaOne (acl : SpCtx) (saCtx : SaCtx) (off lim : Nat) (w : World)
    (i : Nat) (m : PktId) (s : SpdState) : Bool × SpdState :=
  let res := aclResult acl w off m
  if res = bypass then (true, { s.1 with bypass := s.1.bypass + 1 }, s.2)
  else if res = discard then (false, s.drop m)
  else if i < lim ∧ (w.mbuf m).olFlags &&& rxSecOffload = 0 then (false, s.drop m)
  else if !inboundSaCheck saCtx w m (res - 1) then (false, s.drop m)
  else (true, { s.1 with protect := s.1.protect + 1 }, s.2)

/-- `inbound_sp_sa` on the packets of one family. -/
def inboundSpSa (sp : Option SpCtx) (saCtx : SaCtx) (off lim : Nat)
    (pkts : List PktId) (stats : SpdStats) (w : World) :
    List PktId × SpdStats × World :=
  match sp with
  | none => (pkts, stats, w)
  | some acl =>
      let r := sweep (inboundSpSaOne acl saCtx off lim w) pkts (stats, [])
      (r.1, r.2.1, w.freePkts r.2.2)

/-- One round of `split46_traffic`. -/
def split46One (w : World) (s : Traffic × List PktId) (m : PktId) :
    Traffic × List PktId :=
  let ipV := ipV (w.mbuf m).buf (w.mbuf m).dataOff
  if ipV = 4 then ({ s.1 with ip4 := s.1.ip4 ++ [m] }, s.2)
  else if ipV = 6 then ({ s.1 with ip6 := s.1.ip6 ++ [m] }, s.2)
  else (s.1, s.2 ++ [m])

/-- `split46_traffic`. -/
def split46Traffic (trf : Traffic) (mb : List PktId) (w : World) :
    Traffic × World :=
  let r := mb.foldl (split46One w) (trf, [])
  (r.1, w.freePkts r.2)

/-- `inbound_sa_lookup`, with the SAs `sad_lookup` finds. -/
def inboundSaLookup (sad : PktId → Option SaPtr) (w : World) (pkts : List PktId) :
    List (PktId × Option SaRef) :=
  pkts.map fun p => (p, markFallback w.sa (w.mbuf p) (sad p))

/-- The ESP packets of a burst go through the crypto, up to the policy check of
    `process_pkts_inbound`. -/
def inboundCrypto (env : Env) (conf : PollConf) (sad : PktId → Option SaPtr)
    (t : Burst) (s : State) : Except Fault (Traffic × State) := do
  let burst := inboundSaLookup sad s.2 t.ipsec
  if conf.enable then ipsecProcess env burst t.trf s
  else
    let (pkts, s) ← ipsecBurst env espInboundFn espInboundPostFn burst maxPktBurst s
    let r := split46Traffic t.trf pkts s.2
    return (r.1, s.1, r.2)

/-- The two policy checks of an inbound path, with their limits. -/
def inboundPolicies (ctx : EvCtx) (n4 n6 : Nat) (trf : Traffic) (stats : DirStats)
    (w : World) : Traffic × DirStats × World :=
  let r4 := inboundSpSa ctx.sp4Ctx ctx.saCtx ip4Proto n4 trf.ip4 stats.spd4 w
  let r6 := inboundSpSa ctx.sp6Ctx ctx.saCtx ip6Proto n6 trf.ip6 stats.spd6 r4.2.2
  (⟨r4.1, r6.1⟩, ⟨r4.2.1, r6.2.1⟩, r6.2.2)

/-- `process_pkts_inbound`: what is left in `ip4` and `ip6`. -/
def processPktsInbound (env : Env) (conf : PollConf) (ctx : EvCtx)
    (sad : PktId → Option SaPtr) (t : Burst) (stats : DirStats) (s : State) :
    Except Fault (Traffic × DirStats × State) := do
  let n4 := t.trf.ip4.length
  let n6 := t.trf.ip6.length
  let (trf, s) ← inboundCrypto env conf sad t s
  let r := inboundPolicies ctx n4 n6 trf stats s.2
  return (r.1, r.2.1, s.1, r.2.2)

/-! ## Outbound -/

/-- What `outbound_spd_lookup` counts, frees and puts into `ipsec.pkts` and
    `ipsec.res`. -/
structure SpdLookup where
  stats : SpdStats
  freed : List PktId := []
  ipsec : List (PktId × UInt32)

/-- The body of its loop. -/
def outboundSpdOne (acl : SpCtx) (off : Nat) (w : World) (_ : Nat) (m : PktId)
    (s : SpdLookup) : Bool × SpdLookup :=
  let res := aclResult acl w off m
  let saIdx := res - 1
  if res = discard then
    (false,
      { s with
        stats := { s.stats with discard := s.stats.discard + 1 }
        freed := s.freed ++ [m] })
  else if res = bypass then
    (true, { s with stats := { s.stats with bypass := s.stats.bypass + 1 } })
  else
    (false,
      { s with
        stats := { s.stats with protect := s.stats.protect + 1 }
        ipsec := s.ipsec ++ [(m, saIdx)] })

/-- `outbound_spd_lookup`: the packets left, those for an SA, the counters. -/
def outboundSpdLookup (sp : Option SpCtx) (off : Nat) (pkts : List PktId)
    (ipsec : List (PktId × UInt32)) (stats : SpdStats) (w : World) :
    List PktId × List (PktId × UInt32) × SpdStats × World :=
  match sp with
  | none => (pkts, ipsec, stats, w)
  | some acl =>
      let r := sweep (outboundSpdOne acl off w) pkts { stats, ipsec }
      (r.1, r.2.ipsec, r.2.stats, w.freePkts r.2.freed)

/-- `outbound_sa_lookup`. -/
def outboundSaLookup (saCtx : SaCtx) (ipsec : List (PktId × UInt32)) :
    List (PktId × Option SaRef) :=
  ipsec.map fun x => (x.1, some (saCtx.entry x.2, false))

/-- One round of the loop of `process_pkts_outbound` over processed packets. -/
def appendOne (w : World) (trf : Traffic) (m : PktId) : Traffic :=
  if ipV (w.mbuf m).buf (w.mbuf m).dataOff = 4 then
    { trf with ip4 := trf.ip4 ++ [m] }
  else { trf with ip6 := trf.ip6 ++ [m] }

/-- What the two policy lookups of an outbound burst leave: the cleartext
    packets, and those for an SA. -/
def outboundPolicies (ctx : EvCtx) (trf : Traffic) (stats : DirStats) (w : World) :
    Traffic × List (PktId × UInt32) × DirStats × World :=
  let r4 := outboundSpdLookup ctx.sp4Ctx ip4Proto trf.ip4 [] stats.spd4 w
  let r6 := outboundSpdLookup ctx.sp6Ctx ip6Proto trf.ip6 r4.2.1 stats.spd6 r4.2.2.2
  (⟨r4.1, r6.1⟩, r6.2.1, ⟨r4.2.2.1, r6.2.2.1⟩, r6.2.2.2)

/-- The packets for an SA go through the crypto, and join the traffic. -/
def outboundCrypto (env : Env) (conf : PollConf) (burst : List (PktId × Option SaRef))
    (trf : Traffic) (s : State) : Except Fault (Traffic × State) := do
  if conf.enable then ipsecProcess env burst trf s
  else
    let (pkts, s) ← ipsecBurst env espOutbound espOutboundPostFn burst maxPktBurst s
    return (pkts.foldl (appendOne s.2) trf, s)

/-- `process_pkts_outbound`. -/
def processPktsOutbound (env : Env) (conf : PollConf) (ctx : EvCtx) (t : Burst)
    (stats : DirStats) (s : State) :
    Except Fault (Traffic × DirStats × State) := do
  let r := outboundPolicies ctx t.trf stats (s.2.freePkts t.ipsec)
  let (trf, s) ← outboundCrypto env conf (outboundSaLookup ctx.saCtx r.2.1) r.1
    (s.1, r.2.2.2)
  return (trf, r.2.2.1, s)

/-! ## Draining the crypto queues -/

/-- `rte_ipsec_pkt_crypto_group`: completed operations by the session they
    carry. -/
structure CryptoGroup where
  /-- the session of an operation -/
  opSession : Mbuf → SaRef
  group : World → List PktId → List (SaRef × List PktId)
  group_perm : ∀ w ops, ((group w ops).flatMap Prod.snd).Perm ops
  group_session : ∀ w ops, ∀ g ∈ group w ops, ∀ p ∈ g.2,
    opSession (w.mbuf p) = g.1

/-- One round of the loop of `ipsec_cqp_process`. -/
def cqpGroup (env : Env) (s : Traffic × World) (g : SaRef × List PktId) :
    Traffic × World :=
  let r := rteIpsecPktProcess env g.1 g.2 s.2
  (copyToTrf s.1 (env.saType g.1.1 g.1.2) (r.1.1.take r.1.2),
    r.2.freePkts (r.1.1.drop r.1.2))

/-- `RTE_DIM(trf->ipsec.pkts)`. -/
def trafficDim : Nat := maxPktBurst * 2

/-- `ipsec_cqp_process`. -/
def ipsecCqpProcess (env : Env) (lib : CryptoGroup) (s : State) : Traffic × State :=
  let (ops, s) := ctxDequeue env trafficDim s
  if ops = [] then ({}, s)
  else
    let r := (lib.group s.2 ops).foldl (cqpGroup env) ({}, s.2)
    (r.1, s.1, r.2)

/-- The packets that have come out of the crypto queues of a direction. -/
def drainCrypto (env : Env) (lib : CryptoGroup) (conf : PollConf) (post : XformFn)
    (s : State) : Except Fault (Traffic × State) := do
  if conf.enable then return ipsecCqpProcess env lib s
  else
    let (pkts, s) ← ipsecDequeue env post trafficDim s.1.nbQps [] s
    let r := split46Traffic {} pkts s.2
    return (r.1, s.1, r.2)

/-- `drain_inbound_crypto_queues`: what goes on to routing. -/
def drainInboundCryptoQueues (env : Env) (lib : CryptoGroup) (conf : PollConf)
    (ctx : EvCtx) (stats : DirStats) (s : State) :
    Except Fault (Traffic × DirStats × State) := do
  let (trf, s) ← drainCrypto env lib conf espInboundPostFn s
  let r := inboundPolicies ctx 0 0 trf stats s.2
  return (r.1, r.2.1, s.1, r.2.2)

/-- `drain_outbound_crypto_queues`. -/
def drainOutboundCryptoQueues (env : Env) (lib : CryptoGroup) (conf : PollConf)
    (s : State) : Except Fault (Traffic × State) :=
  drainCrypto env lib conf espOutboundPostFn s

/-! ## IKE packets -/

/-- What `filter_ike_packets` leaves: `pkts_new`, the packets that
    `rte_kni_tx_burst` took and those that were freed, and the counters of
    `kni_stats[0]`. -/
structure IkeFilter where
  pktsNew : List PktId := []
  handed : List PktId := []
  freed : List PktId := []
  rxPackets : Nat := 0
  rxDropped : Nat := 0

/-- The ports the filter looks for. -/
def isIkePort (port : Nat) : Bool := port == 500 || port == 4500

/-- The tests of `filter_ike_packets` on a packet: does it leave for the KNI, and
    the parts of the packet that are read to decide, by offset and length. -/
def ikeTest (m : Mbuf) : Bool × List (Nat × Nat) :=
  let ip := m.dataOff + rteEtherHdrLen
  if etherType m ≠ etherTypeIpv4 then (false, [(12, 2)])
  else if ipV m.buf ip ≠ 4 then (false, [(12, 2), (14, 1)])
  else if m.buf (ip + 9) ≠ ipprotoUdp then (false, [(12, 2), (14, 1), (23, 1)])
  else
    let ipHdrLen := ipHl m.buf ip * 4
    let udp := ip + ipHdrLen
    let sport := ofBe (load m.buf udp 2)
    let dport := ofBe (load m.buf (udp + 2) 2)
    (isIkePort sport || isIkePort dport,
      [(12, 2), (14, 1), (23, 1), (14 + ipHdrLen, 2), (14 + ipHdrLen + 2, 2)])

/-- One round of the loop; `kni` is what `rte_kni_tx_burst` answers for a packet
    after those it has taken. -/
def filterIkeOne (kni : List PktId → PktId → Bool) (w : World) (s : IkeFilter)
    (m : PktId) : IkeFilter :=
  if (ikeTest (w.mbuf m)).1 then
    if kni s.handed m then
      { s with handed := s.handed ++ [m], rxPackets := s.rxPackets + 1 }
    else { s with freed := s.freed ++ [m], rxDropped := s.rxDropped + 1 }
  else { s with pktsNew := s.pktsNew ++ [m] }

/-- `filter_ike_packets`. -/
def filterIkePackets (kni : List PktId → PktId → Bool) (pkts : List PktId)
    (w : World) : IkeFilter × World :=
  let s := pkts.foldl (filterIkeOne kni w) {}
  (s, w.freeMbufs s.freed)

end SecgwModel
