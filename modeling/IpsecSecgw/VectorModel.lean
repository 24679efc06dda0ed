import IpsecSecgw.WorkerModel

/-! # Event vectors in memory

    `ipsec_worker.c`: the vector functions on their arrays.  `WorkerModel` keeps
    what their loops append as lists; here the packets lie in the arrays of
    `struct ipsec_traffic` on the stack, with whatever was left there behind
    them, and the packets to send are written into the vector they come from.

    A store that goes wrong ends the run.  How many packets of the vector have
    been collected is kept beside it, since a store into any other element would
    lose a packet. -/

namespace VectorModel

open SaModel MbufModel WorkerModel

/-! ## Data -/

/-- A store that goes wrong. -/
inductive VecFault
  /-- behind the arrays of a `traffic_type` -/
  | traffic
  /-- into an element of the vector whose packet has not been collected -/
  | vector
  deriving DecidableEq, Repr

/-- Entries of the arrays of a `traffic_type`: `MAX_PKT_BURST * 2`. -/
def trafficSize : Nat := 64

/-- `struct rte_event_vector`. -/
structure RteEventVector where
  nbElem : Nat
  attrValid : Bool
  port : UInt16
  queue : UInt16
  mbufs : Nat → Mbuf

/-- `struct traffic_type`. -/
structure TrafficType where
  data : Nat → Nat
  pkts : Nat → Mbuf
  res : Nat → UInt32
  num : Nat

/-- `struct ipsec_traffic`. -/
structure IpsecTraffic where
  ipsec : TrafficType
  ip4 : TrafficType
  ip6 : TrafficType

/-- `ip->pkts[k] = pkt`. -/
def TrafficType.setPkt (t : TrafficType) (k : Nat) (pkt : Mbuf) :
    Except VecFault TrafficType :=
  if trafficSize ≤ k then .error .traffic
  else .ok { t with pkts := Function.update t.pkts k pkt }

/-- `t->data[t->num] = nlp; t->pkts[t->num++] = pkt`. -/
def TrafficType.putData (t : TrafficType) (pkt : Mbuf) (nlp : Nat) :
    Except VecFault TrafficType := do
  let t' ← { t with data := Function.update t.data t.num nlp }.setPkt t.num pkt
  return { t' with num := t.num + 1 }

/-- `t->res[t->num] = idx; t->pkts[t->num++] = pkt`. -/
def TrafficType.putRes (t : TrafficType) (pkt : Mbuf) (idx : UInt32) :
    Except VecFault TrafficType := do
  let t' ← { t with res := Function.update t.res t.num idx }.setPkt t.num pkt
  return { t' with num := t.num + 1 }

/-- `t.ip4.num = 0; t.ip6.num = 0; t.ipsec.num = 0`. -/
def IpsecTraffic.reset (t : IpsecTraffic) : IpsecTraffic where
  ipsec := { t.ipsec with num := 0 }
  ip4 := { t.ip4 with num := 0 }
  ip6 := { t.ip6 with num := 0 }

/-! ## Collecting -/

/-- What the loops over the vector change: the arrays, how many packets they
    have taken, what they have freed. -/
structure Collecting where
  t : IpsecTraffic
  collected : Nat
  freed : List Mbuf

/-- `free_pkts`. -/
def Collecting.freePkts (s : Collecting) (pkt : Mbuf) : Collecting :=
  { s with freed := s.freed ++ [pkt] }

/-- `classify_pkt`. -/
def classifyPkt (s : Collecting) (pkt : Mbuf) : Except VecFault Collecting :=
  let (type, nlp) := processIpsecGetPktType pkt
  match type with
  | .plainIpv4 => do
      let ip4 ← s.t.ip4.putData pkt nlp
      return { s with t := { s.t with ip4 := ip4 } }
  | .plainIpv6 => do
      let ip6 ← s.t.ip6.putData pkt nlp
      return { s with t := { s.t with ip6 := ip6 } }
  | _ => .ok (s.freePkts pkt)

/-- The loop of `process_ipsec_ev_inbound_vector`. -/
def inboundOne (vec : RteEventVector) (s : Collecting) (i : Nat) :
    Except VecFault Collecting :=
  let pkt := vec.mbufs i
  let s := { s with collected := i + 1 }
  if offloadFailed pkt then .ok (s.freePkts pkt) else classifyPkt s pkt

/-- The loop of `process_ipsec_ev_outbound_vector`.  The length of the link
    header is written through the pointer, also where the packet was freed. -/
def outboundOne (vec : RteEventVector) (s : Collecting) (i : Nat) :
    Except VecFault Collecting :=
  let pkt := vec.mbufs i
  classifyPkt { s with collected := i + 1 } { pkt with l2Len := rteEtherHdrLen }

/-! ## Policies -/

/-- An array that is compacted: the write position, and what was freed. -/
structure Compacting where
  ip : TrafficType
  j : Nat
  freed : List Mbuf

/-- `ip->pkts[j++] = m`. -/
def Compacting.keep (s : Compacting) (m : Mbuf) : Except VecFault Compacting := do
  let ip ← s.ip.setPkt s.j m
  return { s with ip := ip, j := s.j + 1 }

/-- `free_pkts`. -/
def Compacting.freePkts (s : Compacting) (m : Mbuf) : Compacting :=
  { s with freed := s.freed ++ [m] }

/-- `rte_acl_classify(sp, ip->data, ip->res, ip->num, …)`. -/
def rteAclClassify (acl : SpCtx) (ip : TrafficType) : TrafficType :=
  { ip with
    res := fun i => if i < ip.num then acl (ip.pkts i).buf (ip.data i) else ip.res i }

/-- The loop of `check_sp_bulk`. -/
def checkSpBulkOne (s : Compacting × TrafficType) (i : Nat) :
    Except VecFault (Compacting × TrafficType) :=
  let m := s.1.ip.pkts i
  let res := s.1.ip.res i
  if res = discard then .ok (s.1.freePkts m, s.2)
  else if res = bypass then do
    let c ← s.1.keep m
    return (c, s.2)
  else do
    let ipsec ← s.2.putRes m (res - 1)
    return (s.1, ipsec)

/-- `check_sp_bulk`: the packets kept, those for an SA, and what has been
    freed. -/
def checkSpBulk (sp : Option SpCtx) (ip ipsec : TrafficType) (freed : List Mbuf) :
    Except VecFault (TrafficType × TrafficType × List Mbuf) :=
  match sp with
  | none => .ok (ip, ipsec, freed)
  | some acl =>
      if ip.num = 0 then .ok (ip, ipsec, freed)
      else do
        let s ← (List.range ip.num).foldlM checkSpBulkOne
          (⟨rteAclClassify acl ip, 0, freed⟩, ipsec)
        return ({ s.1.ip with num := s.1.j }, s.2, s.1.freed)

/-- The loop of `check_sp_sa_bulk`. -/
def checkSpSaBulkOne (g : Globals) (saCtx : SaCtx) (s : Compacting) (i : Nat) :
    Except VecFault Compacting :=
  let m := s.ip.pkts i
  let res := s.ip.res i
  if res = discard then .ok (s.freePkts m)
  else if res = bypass then s.keep m
  else
    match m.dynSa with
    | none => .ok (s.freePkts m)
    | some sa =>
        -- the SPI on the packet should match with the one in the SA
        if (g.mem sa).spi ≠ (g.mem (saCtx.entry (res - 1))).spi then
          .ok (s.freePkts m)
        else s.keep m

/-- `check_sp_sa_bulk`. -/
def checkSpSaBulk (g : Globals) (sp : Option SpCtx) (saCtx : SaCtx)
    (ip : TrafficType) (freed : List Mbuf) :
    Except VecFault (TrafficType × List Mbuf) :=
  match sp with
  | none => .ok (ip, freed)
  | some acl =>
      if ip.num = 0 then .ok (ip, freed)
      else do
        let s ← (List.range ip.num).foldlM (checkSpSaBulkOne g saCtx)
          ⟨rteAclClassify acl ip, 0, freed⟩
        return ({ s.ip with num := s.j }, s.freed)

/-! ## Routing -/

/-- `ev_vector_attr_init`. -/
def evVectorAttrInit (vec : RteEventVector) : RteEventVector :=
  { vec with attrValid := true, port := 0xffff, queue := 0 }

/-- `ev_vector_attr_update`. -/
def evVectorAttrUpdate (vec : RteEventVector) (pkt : Mbuf) : RteEventVector :=
  if vec.port = 0xffff then { vec with port := pkt.port }
  else if vec.attrValid ∧ vec.port ≠ pkt.port then { vec with attrValid := false }
  else vec

/-- What `ipsec_ev_route_pkts` changes: the vector, its running index, and what
    has been freed. -/
structure Routing where
  vec : RteEventVector
  j : Nat
  freed : List Mbuf

/-- `free_pkts`. -/
def Routing.freePkts (s : Routing) (pkt : Mbuf) : Routing :=
  { s with freed := s.freed ++ [pkt] }

/-- A packet is written back for a port, into one of the elements collected. -/
def Routing.forward (g : Globals) (collected : Nat) (s : Routing) (pkt : Mbuf)
    (portId : UInt16) : Except VecFault Routing :=
  let pkt := ipsecEventPreForward (updateMacAddrs g pkt portId) portId
  let vec := evVectorAttrUpdate s.vec pkt
  if collected ≤ s.j then .error .vector
  else
    .ok
      { s with
        vec := { vec with mbufs := Function.update vec.mbufs s.j pkt }
        j := s.j + 1 }

/-- The loops over cleartext packets. -/
def routeOne (g : Globals) (collected : Nat) (route : Mbuf → UInt16)
    (ip : TrafficType) (s : Routing) (i : Nat) : Except VecFault Routing :=
  let pkt := ip.pkts i
  let portId := route pkt
  if portId ≠ rteMaxEthports then s.forward g collected pkt portId
  else .ok (s.freePkts pkt)

/-- The loop over packets for an SA. -/
def protectOne (g : Globals) (collected : Nat) (saCtx : SaCtx) (ipsec : TrafficType)
    (s : Routing) (i : Nat) : Except VecFault Routing :=
  let saIdx := ipsec.res i
  let pkt := ipsec.pkts i
  if saCtx.nbSa ≤ saIdx then .ok (s.freePkts pkt)
  else
    match sendWithSa g (saCtx.entry saIdx) pkt with
    | none => .ok (s.freePkts pkt)
    | some r => s.forward g collected r.1 r.2

/-- `ipsec_ev_route_pkts`; what it returns is the running index at the end. -/
def ipsecEvRoutePkts (g : Globals) (rt : RouteTable) (saCtx : SaCtx)
    (vec : RteEventVector) (c : Collecting) : Except VecFault Routing := do
  let s : Routing := ⟨vec, 0, c.freed⟩
  let s ← (List.range c.t.ip4.num).foldlM
    (routeOne g c.collected (fun m => route4Pkt m rt) c.t.ip4) s
  let s ← (List.range c.t.ip6.num).foldlM
    (routeOne g c.collected (fun m => route6Pkt m rt) c.t.ip6) s
  (List.range c.t.ipsec.num).foldlM (protectOne g c.collected saCtx c.t.ipsec) s

/-! ## The two functions -/

/-- `process_ipsec_ev_inbound_vector`; `stack` is what the arrays hold when it
    is called. -/
def processIpsecEvInboundVector (g : Globals) (ctx : EvCtx) (rt : RouteTable)
    (stack : IpsecTraffic) (vec : RteEventVector) : Except VecFault Routing := do
  let c ← (List.range vec.nbElem).foldlM (inboundOne vec) ⟨stack.reset, 0, []⟩
  let r4 ← checkSpSaBulk g ctx.sp4Ctx ctx.saCtx c.t.ip4 c.freed
  let r6 ← checkSpSaBulk g ctx.sp6Ctx ctx.saCtx c.t.ip6 r4.2
  ipsecEvRoutePkts g rt ctx.saCtx vec
    { c with t := { c.t with ip4 := r4.1, ip6 := r6.1 }, freed := r6.2 }

/-- `process_ipsec_ev_outbound_vector`. -/
def processIpsecEvOutboundVector (g : Globals) (ctx : EvCtx) (rt : RouteTable)
    (stack : IpsecTraffic) (vec : RteEventVector) : Except VecFault Routing := do
  let c ← (List.range vec.nbElem).foldlM (outboundOne vec) ⟨stack.reset, 0, []⟩
  let r4 ← checkSpBulk ctx.sp4Ctx c.t.ip4 c.t.ipsec c.freed
  let r6 ← checkSpBulk ctx.sp6Ctx c.t.ip6 r4.2.1 r4.2.2
  ipsecEvRoutePkts g rt ctx.saCtx vec
    { c with
      t := { ipsec := r6.2.1, ip4 := r4.1, ip6 := r6.1 }
      freed := r6.2.2 }

end VectorModel
