import IpsecSecgw.MbufModel

/-! # Event mode

    `ipsec_worker.c`: the handling of a single event and of an event vector in
    application mode.  An event, or an element of a vector, is its packet; the
    packets of a vector are different mbufs, so each is a value of its own.

    A policy context answers from the bytes a pointer leads to, a route table
    from the address; `Globals` are the memory of SAs, the table of link
    addresses and what the security library writes into a packet.  The entries
    of `sa_ctx->sa` lie in the memory of SAs, and what lies behind the last one
    can be read like in C. -/

namespace WorkerModel

open SaModel MbufModel ByteStore

/-! ## Data -/

/-- `struct sp_ctx`, as `rte_acl_classify` sees it: the result for the data at
    an address. -/
abbrev SpCtx := (Nat → UInt8) → Nat → UInt32

/-- `struct sa_ctx`: where the entries lie, and how many there are. -/
structure SaCtx where
  base : SaPtr
  nbSa : UInt32

/-- `&sa_ctx->sa[idx]`. -/
def SaCtx.entry (ctx : SaCtx) (idx : UInt32) : SaPtr := ctx.base + idx.toNat

/-- `struct route_table`: `rte_lpm_lookup` and `rte_lpm6_lookup`, `none` on a
    miss. -/
structure RouteTable where
  rt4 : UInt32 → Option UInt32
  rt6 : List UInt8 → Option UInt32

/-- What a worker reads of `struct ipsec_ctx`. -/
structure EvCtx where
  sp4Ctx : Option SpCtx
  sp6Ctx : Option SpCtx
  saCtx : SaCtx

/-- The state all workers share. -/
structure Globals where
  mem : SaPtr → IpsecSa
  /-- `ethaddr_tbl`: source and destination of a port -/
  ethaddrTbl : UInt16 → List UInt8 × List UInt8
  /-- `rte_security_set_pkt_metadata`, which writes into the packet it is given -/
  setPktMetadata : RteIpsecSession → Mbuf → Mbuf
  setPktMetadata_addr : ∀ ses m, (setPktMetadata ses m).addr = m.addr

/-- `RTE_MAX_ETHPORTS`. -/
def rteMaxEthports : UInt16 := 32

/-- `RTE_ETHER_HDR_LEN`. -/
def rteEtherHdrLen : Nat := 14

/-- `enum pkt_type`. -/
inductive PktType
  | plainIpv4
  | ipsecIpv4
  | plainIpv6
  | ipsecIpv6
  | invalid
  deriving DecidableEq, Repr

/-! ## Packets -/

/-- `process_ipsec_get_pkt_type`: the type, and the address of the byte the
    policy lookup starts at. -/
def processIpsecGetPktType (pkt : Mbuf) : PktType × Nat :=
  let ptype := pkt.packetType
  let esp := ptype &&& ptypeTunnelMask = ptypeTunnelEsp
  if ptype &&& ptypeL3Ipv4 ≠ 0 then
    (if esp then .ipsecIpv4 else .plainIpv4, pkt.dataOff + rteEtherHdrLen + 9)
  else if ptype &&& ptypeL3Ipv6 ≠ 0 then
    (if esp then .ipsecIpv6 else .plainIpv6, pkt.dataOff + rteEtherHdrLen + 6)
  else (.invalid, 0)

/-- `update_mac_addrs`. -/
def updateMacAddrs (g : Globals) (pkt : Mbuf) (portid : UInt16) : Mbuf :=
  let e := g.ethaddrTbl portid
  (pkt.write (pkt.dataOff + 6) e.1).write pkt.dataOff e.2

/-- `ipsec_event_pre_forward`. -/
def ipsecEventPreForward (pkt : Mbuf) (portId : UInt16) : Mbuf :=
  { pkt with port := portId }

/-- Both are set on hardware-processed packets that failed. -/
def offloadFailed (pkt : Mbuf) : Bool :=
  pkt.olFlags &&& rxSecOffload != 0 && pkt.olFlags &&& rxSecOffloadFailed != 0

/-- `route4_pkt`. -/
def route4Pkt (pkt : Mbuf) (rt : RouteTable) : UInt16 :=
  let dst := load pkt.buf (pkt.dataOff + rteEtherHdrLen + 16) 4
  match rt.rt4 (UInt32.ofNat (ofBe dst)) with
  | some hop => hop.toUInt16
  | none => rteMaxEthports

/-- `route6_pkt`. -/
def route6Pkt (pkt : Mbuf) (rt : RouteTable) : UInt16 :=
  match rt.rt6 (load pkt.buf (pkt.dataOff + rteEtherHdrLen + 24) 16) with
  | some hop => hop.toUInt16
  | none => rteMaxEthports

/-- `get_route`. -/
def getRoute (pkt : Mbuf) (rt : RouteTable) (type : PktType) : UInt16 :=
  match type with
  | .plainIpv4 | .ipsecIpv4 => route4Pkt pkt rt
  | .plainIpv6 | .ipsecIpv6 => route6Pkt pkt rt
  | .invalid => rteMaxEthports

/-! ## Single events -/

/-- `check_sp`: `none` is no match, else the index, with `BYPASS` for itself. -/
def checkSp (sp : Option SpCtx) (pkt : Mbuf) (nlp : Nat) : Option UInt32 :=
  match sp with
  | none => none
  | some acl =>
      let res := acl pkt.buf nlp
      if res = discard then none
      else if res = bypass then some (-1)
      else some (res - 1)

/-- The SP context for a packet in the clear. -/
def EvCtx.spFor (ctx : EvCtx) : PktType → Option (Option SpCtx)
  | .plainIpv4 => some ctx.sp4Ctx
  | .plainIpv6 => some ctx.sp6Ctx
  | _ => none

/-- Route a packet and send it on, at `route_and_send_pkt`. -/
def routeAndSendPkt (g : Globals) (rt : RouteTable) (type : PktType)
    (pkt : Mbuf) : Option Mbuf :=
  let portId := getRoute pkt rt type
  if portId = rteMaxEthports then none
  else some (ipsecEventPreForward (updateMacAddrs g pkt portId) portId)

/-- `process_ipsec_ev_inbound`: the packet to forward, or `none` when it is
    dropped.  Unsupported types are dropped. -/
def processIpsecEvInbound (g : Globals) (ctx : EvCtx) (rt : RouteTable)
    (pkt : Mbuf) : Option Mbuf :=
  let (type, nlp) := processIpsecGetPktType pkt
  match ctx.spFor type with
  | none => none
  | some sp =>
      if offloadFailed pkt then none
      else
        let sa := if pkt.olFlags &&& rxSecOffload ≠ 0 then pkt.dynSa else none
        match checkSp sp pkt nlp with
        | none => none
        | some saIdx =>
            if saIdx = bypass then routeAndSendPkt g rt type pkt
            else if ctx.saCtx.nbSa ≤ saIdx then none
            else
              match sa with
              | none => none
              | some p =>
                  if (g.mem p).spi ≠ (g.mem (ctx.saCtx.entry saIdx)).spi then none
                  else routeAndSendPkt g rt type pkt

/-- Give a packet to the inline session of an SA; other sessions are not
    supported. -/
def sendWithSa (g : Globals) (p : SaPtr) (pkt : Mbuf) : Option (Mbuf × UInt16) :=
  let sa := g.mem p
  if sa.primary.type ≠ .inlineProtocol then none
  else
    let pkt := g.setPktMetadata sa.primary pkt
    some ({ pkt with olFlags := pkt.olFlags ||| txSecOffload }, sa.portid)

/-- `process_ipsec_ev_outbound`. -/
def processIpsecEvOutbound (g : Globals) (ctx : EvCtx) (rt : RouteTable)
    (pkt : Mbuf) : Option Mbuf :=
  let (type, nlp) := processIpsecGetPktType pkt
  -- at `send_pkt`
  let send := fun (pkt : Mbuf) portId =>
    ipsecEventPreForward
      (updateMacAddrs g { pkt with l2Len := rteEtherHdrLen } portId) portId
  match ctx.spFor type with
  | none => none
  | some sp =>
      match checkSp sp pkt nlp with
      | none => none
      | some saIdx =>
          if saIdx = bypass then
            let portId := getRoute pkt rt type
            if portId = rteMaxEthports then none else some (send pkt portId)
          else if ctx.saCtx.nbSa ≤ saIdx then none
          else
            (sendWithSa g (ctx.saCtx.entry saIdx) pkt).map fun r => send r.1 r.2

/-! ## Vectors -/

/-- `struct ipsec_traffic` on the stack of the vector functions: packets with
    the pointer for classification, or with the index of an SA; and what has
    been freed. -/
structure VecTraffic where
  ip4 : List (Mbuf × Nat) := []
  ip6 : List (Mbuf × Nat) := []
  ipsec : List (Mbuf × UInt32) := []
  freed : List Mbuf := []

/-- `classify_pkt`. -/
def classifyPkt (t : VecTraffic) (pkt : Mbuf) : VecTraffic :=
  let (type, nlp) := processIpsecGetPktType pkt
  match type with
  | .plainIpv4 => { t with ip4 := t.ip4 ++ [(pkt, nlp)] }
  | .plainIpv6 => { t with ip6 := t.ip6 ++ [(pkt, nlp)] }
  | _ => { t with freed := t.freed ++ [pkt] }

/-- What the loops of the bulk checks collect: packets kept in the array,
    packets for an SA, freed packets. -/
structure Checked where
  kept : List (Mbuf × Nat) := []
  ipsec : List (Mbuf × UInt32) := []
  freed : List Mbuf := []

/-- The loop of `check_sp_bulk`. -/
def checkSpBulkOne (acl : SpCtx) (s : Checked) (x : Mbuf × Nat) : Checked :=
  let res := acl x.1.buf x.2
  if res = discard then { s with freed := s.freed ++ [x.1] }
  else if res = bypass then { s with kept := s.kept ++ [x] }
  else { s with ipsec := s.ipsec ++ [(x.1, res - 1)] }

/-- `check_sp_bulk` on the packets of one family. -/
def checkSpBulk (sp : Option SpCtx) (ip : List (Mbuf × Nat)) : Checked :=
  match sp with
  | none => { kept := ip }
  | some acl => ip.foldl (checkSpBulkOne acl) {}

/-- The loop of `check_sp_sa_bulk`. -/
def checkSpSaBulkOne (g : Globals) (acl : SpCtx) (saCtx : SaCtx) (s : Checked)
    (x : Mbuf × Nat) : Checked :=
  let res := acl x.1.buf x.2
  if res = discard then { s with freed := s.freed ++ [x.1] }
  else if res = bypass then { s with kept := s.kept ++ [x] }
  else
    match x.1.dynSa with
    | none => { s with freed := s.freed ++ [x.1] }
    | some p =>
        if (g.mem p).spi ≠ (g.mem (saCtx.entry (res - 1))).spi then
          { s with freed := s.freed ++ [x.1] }
        else { s with kept := s.kept ++ [x] }

/-- `check_sp_sa_bulk`. -/
def checkSpSaBulk (g : Globals) (sp : Option SpCtx) (saCtx : SaCtx)
    (ip : List (Mbuf × Nat)) : Checked :=
  match sp with
  | none => { kept := ip }
  | some acl => ip.foldl (checkSpSaBulkOne g acl saCtx) {}

/-- `struct rte_event_vector`: its attributes, the packets it will be sent with,
    and those freed. -/
structure EvVector where
  attrValid : Bool := true
  port : UInt16 := 0xffff
  mbufs : List Mbuf := []
  freed : List Mbuf := []

/-- `ev_vector_attr_update`. -/
def evVectorAttrUpdate (v : EvVector) (pkt : Mbuf) : EvVector :=
  if v.port = 0xffff then { v with port := pkt.port }
  else if v.attrValid ∧ v.port ≠ pkt.port then { v with attrValid := false }
  else v

/-- A packet joins the vector for a port. -/
def EvVector.forward (g : Globals) (v : EvVector) (pkt : Mbuf)
    (portId : UInt16) : EvVector :=
  let pkt := ipsecEventPreForward (updateMacAddrs g pkt portId) portId
  let v := evVectorAttrUpdate v pkt
  { v with mbufs := v.mbufs ++ [pkt] }

/-- The loops over cleartext packets of `ipsec_ev_route_pkts`. -/
def routeOne (g : Globals) (route : Mbuf → UInt16) (v : EvVector) (x : Mbuf × Nat) :
    EvVector :=
  let portId := route x.1
  if portId ≠ rteMaxEthports then v.forward g x.1 portId
  else { v with freed := v.freed ++ [x.1] }

/-- Its loop over packets for an SA. -/
def protectOne (g : Globals) (saCtx : SaCtx) (v : EvVector) (x : Mbuf × UInt32) :
    EvVector :=
  if saCtx.nbSa ≤ x.2 then { v with freed := v.freed ++ [x.1] }
  else
    match sendWithSa g (saCtx.entry x.2) x.1 with
    | none => { v with freed := v.freed ++ [x.1] }
    | some r => v.forward g r.1 r.2

/-- `ipsec_ev_route_pkts`. -/
def ipsecEvRoutePkts (g : Globals) (rt : RouteTable) (t : VecTraffic)
    (saCtx : SaCtx) : EvVector :=
  let v : EvVector := { freed := t.freed }
  let v := t.ip4.foldl (routeOne g fun m => route4Pkt m rt) v
  let v := t.ip6.foldl (routeOne g fun m => route6Pkt m rt) v
  t.ipsec.foldl (protectOne g saCtx) v

/-- The loop of `process_ipsec_ev_inbound_vector`. -/
def inboundOne (t : VecTraffic) (pkt : Mbuf) : VecTraffic :=
  if offloadFailed pkt then { t with freed := t.freed ++ [pkt] }
  else classifyPkt t pkt

/-- `process_ipsec_ev_inbound_vector`. -/
def processIpsecEvInboundVector (g : Globals) (ctx : EvCtx) (rt : RouteTable)
    (vec : List Mbuf) : EvVector :=
  let t := vec.foldl inboundOne {}
  let c4 := checkSpSaBulk g ctx.sp4Ctx ctx.saCtx t.ip4
  let c6 := checkSpSaBulk g ctx.sp6Ctx ctx.saCtx t.ip6
  ipsecEvRoutePkts g rt
    { t with
      ip4 := c4.kept
      ip6 := c6.kept
      freed := t.freed ++ c4.freed ++ c6.freed } ctx.saCtx

/-- The loop of `process_ipsec_ev_outbound_vector`: the length of the link
    header is written behind the classification. -/
def outboundOne (t : VecTraffic) (pkt : Mbuf) : VecTraffic :=
  classifyPkt t { pkt with l2Len := rteEtherHdrLen }

/-- `process_ipsec_ev_outbound_vector`. -/
def processIpsecEvOutboundVector (g : Globals) (ctx : EvCtx) (rt : RouteTable)
    (vec : List Mbuf) : EvVector :=
  let t := vec.foldl outboundOne {}
  let c4 := checkSpBulk ctx.sp4Ctx t.ip4
  let c6 := checkSpBulk ctx.sp6Ctx t.ip6
  ipsecEvRoutePkts g rt
    { t with
      ip4 := c4.kept
      ip6 := c6.kept
      ipsec := t.ipsec ++ c4.ipsec ++ c6.ipsec
      freed := t.freed ++ c4.freed ++ c6.freed } ctx.saCtx

end WorkerModel
