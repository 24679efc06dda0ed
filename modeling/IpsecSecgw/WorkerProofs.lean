import IpsecSecgw.Lib.Collect
import IpsecSecgw.WorkerModel

/-! # An event vector and its packets

    The vector functions are sums over the packets: every loop appends to
    arrays what a packet contributes, so a vector sends and frees, in another
    order, what its packets send and free in vectors of their own
    (`inbound_sum`, `outbound_sum`).  A vector of one packet can be compared
    with the single event by cases on the type of the packet.  The two agree
    but for packets the vector lets through: those of a family without a policy
    context, and inbound those whose SA has the SPI of the rule although the
    index is out of range, or although the NIC did not process the packet. -/

namespace WorkerModel

open SaModel MbufModel ByteStore Collect

variable (g : Globals) (ctx : EvCtx) (rt : RouteTable)

/-! ## The loops -/

theorem evVectorAttrUpdate_mbufs (v : EvVector) (pkt : Mbuf) :
    (evVectorAttrUpdate v pkt).mbufs = v.mbufs := by
  rw [evVectorAttrUpdate]
  split
  · rfl
  · split <;> rfl

theorem evVectorAttrUpdate_freed (v : EvVector) (pkt : Mbuf) :
    (evVectorAttrUpdate v pkt).freed = v.freed := by
  rw [evVectorAttrUpdate]
  split
  · rfl
  · split <;> rfl

@[simp] theorem forward_mbufs (v : EvVector) (pkt : Mbuf) (portId : UInt16) :
    (v.forward g pkt portId).mbufs
      = v.mbufs ++ [ipsecEventPreForward (updateMacAddrs g pkt portId) portId] := by
  rw [EvVector.forward, evVectorAttrUpdate_mbufs]

@[simp] theorem forward_freed (v : EvVector) (pkt : Mbuf) (portId : UInt16) :
    (v.forward g pkt portId).freed = v.freed := by
  rw [EvVector.forward]
  exact evVectorAttrUpdate_freed v _

theorem routeOne_mbufs (route : Mbuf → UInt16) (v : EvVector) (x : Mbuf × Nat) :
    (routeOne g route v x).mbufs = v.mbufs ++ (routeOne g route {} x).mbufs := by
  rw [routeOne, routeOne]
  split <;> simp

theorem routeOne_freed (route : Mbuf → UInt16) (v : EvVector) (x : Mbuf × Nat) :
    (routeOne g route v x).freed = v.freed ++ (routeOne g route {} x).freed := by
  rw [routeOne, routeOne]
  split <;> simp

theorem protectOne_mbufs (saCtx : SaCtx) (v : EvVector) (x : Mbuf × UInt32) :
    (protectOne g saCtx v x).mbufs = v.mbufs ++ (protectOne g saCtx {} x).mbufs := by
  rw [protectOne, protectOne]
  split
  · simp
  · cases sendWithSa g (saCtx.entry x.2) x.1 <;> simp

theorem protectOne_freed (saCtx : SaCtx) (v : EvVector) (x : Mbuf × UInt32) :
    (protectOne g saCtx v x).freed = v.freed ++ (protectOne g saCtx {} x).freed := by
  rw [protectOne, protectOne]
  split
  · simp
  · cases sendWithSa g (saCtx.entry x.2) x.1 <;> simp

theorem checkSpBulkOne_kept (acl : SpCtx) (s : Checked) (x : Mbuf × Nat) :
    (checkSpBulkOne acl s x).kept = s.kept ++ (checkSpBulkOne acl {} x).kept := by
  rw [checkSpBulkOne, checkSpBulkOne]
  dsimp only
  split
  · simp
  · split <;> simp

theorem checkSpBulkOne_ipsec (acl : SpCtx) (s : Checked) (x : Mbuf × Nat) :
    (checkSpBulkOne acl s x).ipsec
      = s.ipsec ++ (checkSpBulkOne acl {} x).ipsec := by
  rw [checkSpBulkOne, checkSpBulkOne]
  dsimp only
  split
  · simp
  · split <;> simp

theorem checkSpBulkOne_freed (acl : SpCtx) (s : Checked) (x : Mbuf × Nat) :
    (checkSpBulkOne acl s x).freed
      = s.freed ++ (checkSpBulkOne acl {} x).freed := by
  rw [checkSpBulkOne, checkSpBulkOne]
  dsimp only
  split
  · simp
  · split <;> simp

theorem checkSpSaBulkOne_kept (acl : SpCtx) (saCtx : SaCtx) (s : Checked)
    (x : Mbuf × Nat) :
    (checkSpSaBulkOne g acl saCtx s x).kept
      = s.kept ++ (checkSpSaBulkOne g acl saCtx {} x).kept := by
  rw [checkSpSaBulkOne, checkSpSaBulkOne]
  dsimp only
  split
  · simp
  · split
    · simp
    · cases x.1.dynSa with
      | none => simp
      | some p =>
          dsimp only
          split <;> simp

theorem checkSpSaBulkOne_freed (acl : SpCtx) (saCtx : SaCtx) (s : Checked)
    (x : Mbuf × Nat) :
    (checkSpSaBulkOne g acl saCtx s x).freed
      = s.freed ++ (checkSpSaBulkOne g acl saCtx {} x).freed := by
  rw [checkSpSaBulkOne, checkSpSaBulkOne]
  dsimp only
  split
  · simp
  · split
    · simp
    · cases x.1.dynSa with
      | none => simp
      | some p =>
          dsimp only
          split <;> simp

/-! ## The stages -/

theorem checkSpBulk_kept_sums (sp : Option SpCtx) :
    Sums fun ip => (checkSpBulk sp ip).kept := by
  cases sp with
  | none => exact sums_id
  | some acl => exact sums_foldl rfl (checkSpBulkOne_kept acl)

theorem checkSpBulk_ipsec_sums (sp : Option SpCtx) :
    Sums fun ip => (checkSpBulk sp ip).ipsec := by
  cases sp with
  | none => exact sums_nil
  | some acl => exact sums_foldl rfl (checkSpBulkOne_ipsec acl)

theorem checkSpBulk_freed_sums (sp : Option SpCtx) :
    Sums fun ip => (checkSpBulk sp ip).freed := by
  cases sp with
  | none => exact sums_nil
  | some acl => exact sums_foldl rfl (checkSpBulkOne_freed acl)

theorem checkSpSaBulk_kept_sums (sp : Option SpCtx) (saCtx : SaCtx) :
    Sums fun ip => (checkSpSaBulk g sp saCtx ip).kept := by
  cases sp with
  | none => exact sums_id
  | some acl => exact sums_foldl rfl (checkSpSaBulkOne_kept g acl saCtx)

theorem checkSpSaBulk_freed_sums (sp : Option SpCtx) (saCtx : SaCtx) :
    Sums fun ip => (checkSpSaBulk g sp saCtx ip).freed := by
  cases sp with
  | none => exact sums_nil
  | some acl => exact sums_foldl rfl (checkSpSaBulkOne_freed g acl saCtx)

/-- What a packet contributes to the arrays, in whatever order the two loops
    of a vector function look at it. -/
structure Classified (step : VecTraffic → Mbuf → VecTraffic) : Prop where
  ip4 : Sums fun vec => (vec.foldl step {}).ip4
  ip6 : Sums fun vec => (vec.foldl step {}).ip6
  ipsec : Sums fun vec => (vec.foldl step {}).ipsec
  freed : Sums fun vec => (vec.foldl step {}).freed

theorem classifyPkt_ip4 (t : VecTraffic) (pkt : Mbuf) :
    (classifyPkt t pkt).ip4 = t.ip4 ++ (classifyPkt {} pkt).ip4 := by
  rw [classifyPkt, classifyPkt]
  generalize processIpsecGetPktType pkt = r
  obtain ⟨type, nlp⟩ := r
  cases type <;> simp

theorem classifyPkt_ip6 (t : VecTraffic) (pkt : Mbuf) :
    (classifyPkt t pkt).ip6 = t.ip6 ++ (classifyPkt {} pkt).ip6 := by
  rw [classifyPkt, classifyPkt]
  generalize processIpsecGetPktType pkt = r
  obtain ⟨type, nlp⟩ := r
  cases type <;> simp

theorem classifyPkt_ipsec (t : VecTraffic) (pkt : Mbuf) :
    (classifyPkt t pkt).ipsec = t.ipsec ++ (classifyPkt {} pkt).ipsec := by
  rw [classifyPkt, classifyPkt]
  generalize processIpsecGetPktType pkt = r
  obtain ⟨type, nlp⟩ := r
  cases type <;> simp

theorem classifyPkt_freed (t : VecTraffic) (pkt : Mbuf) :
    (classifyPkt t pkt).freed = t.freed ++ (classifyPkt {} pkt).freed := by
  rw [classifyPkt, classifyPkt]
  generalize processIpsecGetPktType pkt = r
  obtain ⟨type, nlp⟩ := r
  cases type <;> simp

theorem inboundOne_classified : Classified inboundOne where
  ip4 := by
    refine sums_foldl rfl ?_
    intro t pkt
    rw [inboundOne, inboundOne]
    split
    · simp
    · exact classifyPkt_ip4 t pkt
  ip6 := by
    refine sums_foldl rfl ?_
    intro t pkt
    rw [inboundOne, inboundOne]
    split
    · simp
    · exact classifyPkt_ip6 t pkt
  ipsec := by
    refine sums_foldl rfl ?_
    intro t pkt
    rw [inboundOne, inboundOne]
    split
    · simp
    · exact classifyPkt_ipsec t pkt
  freed := by
    refine sums_foldl rfl ?_
    intro t pkt
    rw [inboundOne, inboundOne]
    split
    · simp
    · exact classifyPkt_freed t pkt

theorem outboundOne_classified : Classified outboundOne where
  ip4 := sums_foldl rfl fun t _ => classifyPkt_ip4 t _
  ip6 := sums_foldl rfl fun t _ => classifyPkt_ip6 t _
  ipsec := sums_foldl rfl fun t _ => classifyPkt_ipsec t _
  freed := sums_foldl rfl fun t _ => classifyPkt_freed t _

/-- A loop over cleartext packets of one family, for its packets alone. -/
def routed (route : Mbuf → UInt16) (l : List (Mbuf × Nat)) : EvVector :=
  l.foldl (routeOne g route) {}

/-- The loop over packets for an SA, for its packets alone. -/
def protectedBy (saCtx : SaCtx) (l : List (Mbuf × UInt32)) : EvVector :=
  l.foldl (protectOne g saCtx) {}

theorem ipsecEvRoutePkts_mbufs (t : VecTraffic) (saCtx : SaCtx) :
    (ipsecEvRoutePkts g rt t saCtx).mbufs
      = (routed g (fun m => route4Pkt m rt) t.ip4).mbufs
        ++ (routed g (fun m => route6Pkt m rt) t.ip6).mbufs
        ++ (protectedBy g saCtx t.ipsec).mbufs := by
  rw [ipsecEvRoutePkts, routed, routed, protectedBy]
  rw [foldl_collect (protectOne_mbufs g saCtx), foldl_collect (routeOne_mbufs g _),
    foldl_collect (routeOne_mbufs g _), foldl_collect (protectOne_mbufs g saCtx),
    foldl_collect (routeOne_mbufs g _), foldl_collect (routeOne_mbufs g _)]
  simp

theorem ipsecEvRoutePkts_freed (t : VecTraffic) (saCtx : SaCtx) :
    (ipsecEvRoutePkts g rt t saCtx).freed
      = t.freed ++ (routed g (fun m => route4Pkt m rt) t.ip4).freed
        ++ (routed g (fun m => route6Pkt m rt) t.ip6).freed
        ++ (protectedBy g saCtx t.ipsec).freed := by
  rw [ipsecEvRoutePkts, routed, routed, protectedBy]
  rw [foldl_collect (protectOne_freed g saCtx), foldl_collect (routeOne_freed g _),
    foldl_collect (routeOne_freed g _), foldl_collect (protectOne_freed g saCtx),
    foldl_collect (routeOne_freed g _), foldl_collect (routeOne_freed g _)]
  simp

theorem routed_mbufs_sums (route : Mbuf → UInt16) :
    Sums fun l => (routed g route l).mbufs :=
  sums_foldl rfl (routeOne_mbufs g route)

theorem routed_freed_sums (route : Mbuf → UInt16) :
    Sums fun l => (routed g route l).freed :=
  sums_foldl rfl (routeOne_freed g route)

theorem protectedBy_mbufs_sums (saCtx : SaCtx) :
    Sums fun l => (protectedBy g saCtx l).mbufs :=
  sums_foldl rfl (protectOne_mbufs g saCtx)

theorem protectedBy_freed_sums (saCtx : SaCtx) :
    Sums fun l => (protectedBy g saCtx l).freed :=
  sums_foldl rfl (protectOne_freed g saCtx)

/-! ## A vector is the sum of its packets -/

theorem inbound_mbufs_sum :
    SumsPerm fun vec => (processIpsecEvInboundVector g ctx rt vec).mbufs := by
  have hc := inboundOne_classified
  simp only [processIpsecEvInboundVector, ipsecEvRoutePkts_mbufs]
  refine SumsPerm.append (SumsPerm.append ?_ ?_) ?_
  · exact ((routed_mbufs_sums g _).comp
      ((checkSpSaBulk_kept_sums g _ _).comp hc.ip4)).perm
  · exact ((routed_mbufs_sums g _).comp
      ((checkSpSaBulk_kept_sums g _ _).comp hc.ip6)).perm
  · exact ((protectedBy_mbufs_sums g _).comp hc.ipsec).perm

theorem inbound_freed_sum :
    SumsPerm fun vec => (processIpsecEvInboundVector g ctx rt vec).freed := by
  have hc := inboundOne_classified
  simp only [processIpsecEvInboundVector, ipsecEvRoutePkts_freed]
  refine SumsPerm.append (SumsPerm.append (SumsPerm.append (SumsPerm.append
    (SumsPerm.append ?_ ?_) ?_) ?_) ?_) ?_
  · exact hc.freed.perm
  · exact ((checkSpSaBulk_freed_sums g _ _).comp hc.ip4).perm
  · exact ((checkSpSaBulk_freed_sums g _ _).comp hc.ip6).perm
  · exact ((routed_freed_sums g _).comp
      ((checkSpSaBulk_kept_sums g _ _).comp hc.ip4)).perm
  · exact ((routed_freed_sums g _).comp
      ((checkSpSaBulk_kept_sums g _ _).comp hc.ip6)).perm
  · exact ((protectedBy_freed_sums g _).comp hc.ipsec).perm

theorem outbound_mbufs_sum :
    SumsPerm fun vec => (processIpsecEvOutboundVector g ctx rt vec).mbufs := by
  have hc := outboundOne_classified
  simp only [processIpsecEvOutboundVector, ipsecEvRoutePkts_mbufs,
    (protectedBy_mbufs_sums g ctx.saCtx).append]
  refine SumsPerm.append (SumsPerm.append ?_ ?_)
    (SumsPerm.append (SumsPerm.append ?_ ?_) ?_)
  · exact ((routed_mbufs_sums g _).comp
      ((checkSpBulk_kept_sums _).comp hc.ip4)).perm
  · exact ((routed_mbufs_sums g _).comp
      ((checkSpBulk_kept_sums _).comp hc.ip6)).perm
  · exact ((protectedBy_mbufs_sums g _).comp hc.ipsec).perm
  · exact ((protectedBy_mbufs_sums g _).comp
      ((checkSpBulk_ipsec_sums _).comp hc.ip4)).perm
  · exact ((protectedBy_mbufs_sums g _).comp
      ((checkSpBulk_ipsec_sums _).comp hc.ip6)).perm

theorem outbound_freed_sum :
    SumsPerm fun vec => (processIpsecEvOutboundVector g ctx rt vec).freed := by
  have hc := outboundOne_classified
  simp only [processIpsecEvOutboundVector, ipsecEvRoutePkts_freed,
    (protectedBy_freed_sums g ctx.saCtx).append]
  refine SumsPerm.append (SumsPerm.append (SumsPerm.append (SumsPerm.append
    (SumsPerm.append ?_ ?_) ?_) ?_) ?_)
    (SumsPerm.append (SumsPerm.append ?_ ?_) ?_)
  · exact hc.freed.perm
  · exact ((checkSpBulk_freed_sums _).comp hc.ip4).perm
  · exact ((checkSpBulk_freed_sums _).comp hc.ip6).perm
  · exact ((routed_freed_sums g _).comp
      ((checkSpBulk_kept_sums _).comp hc.ip4)).perm
  · exact ((routed_freed_sums g _).comp
      ((checkSpBulk_kept_sums _).comp hc.ip6)).perm
  · exact ((protectedBy_freed_sums g _).comp hc.ipsec).perm
  · exact ((protectedBy_freed_sums g _).comp
      ((checkSpBulk_ipsec_sums _).comp hc.ip4)).perm
  · exact ((protectedBy_freed_sums g _).comp
      ((checkSpBulk_ipsec_sums _).comp hc.ip6)).perm

/-! ## Refinement -/

/-- A packet on its way, seen from outside: which one, and where it goes. -/
def sentTo (m : Mbuf) : Nat × UInt16 := (m.addr, m.port)

/-- **REFINEMENT**: the vector sends the packets a single event would send, to
    the same ports, and frees the others; the order is free. -/
structure Refines (r : EvVector) (single : Mbuf → Option Mbuf)
    (vec : List Mbuf) : Prop where
  forwards : (r.mbufs.map sentTo).Perm ((vec.filterMap single).map sentTo)
  drops : (r.freed.map Mbuf.addr).Perm
    ((vec.filter fun m => (single m).isNone).map Mbuf.addr)

/-- A vector of one packet does what the single event does. -/
structure Alike (r : EvVector) (o : Option Mbuf) (m : Mbuf) : Prop where
  forwards : r.mbufs.map sentTo = o.toList.map sentTo
  drops : r.freed.map Mbuf.addr = if o.isNone then [m.addr] else []

/-- The vector sends a packet the single event drops. -/
structure LetsOut (r : EvVector) (o : Option Mbuf) : Prop where
  forwards : r.mbufs.length = 1
  drops : o = none

/-- The dropped packets, one by one. -/
theorem filter_isNone_eq_flatMap (single : Mbuf → Option Mbuf) (vec : List Mbuf) :
    (vec.filter fun m => (single m).isNone).map Mbuf.addr
      = vec.flatMap fun m => if (single m).isNone then [m.addr] else [] := by
  induction vec with
  | nil => rfl
  | cons m vec ih =>
      rw [List.flatMap_cons, List.filter_cons, ← ih]
      by_cases h : (single m).isNone = true <;> simp [h]

/-- A vector function that sums over packets refines the single event exactly
    on the vectors of packets on which the two are alike. -/
theorem refines_iff_forall {V : List Mbuf → EvVector} {single : Mbuf → Option Mbuf}
    {Agrees : Mbuf → Prop} (hmbufs : SumsPerm fun vec => (V vec).mbufs)
    (hfreed : SumsPerm fun vec => (V vec).freed)
    (halike : ∀ m, Agrees m → Alike (V [m]) (single m) m)
    (hout : ∀ m, ¬ Agrees m → LetsOut (V [m]) (single m)) (vec : List Mbuf) :
    Refines (V vec) single vec ↔ ∀ m ∈ vec, Agrees m := by
  constructor
  · intro h
    have hle : ∀ m, (single m).toList.length ≤ (V [m]).mbufs.length := by
      intro m
      by_cases hm : Agrees m
      · have := congrArg List.length (halike m hm).forwards
        rw [List.length_map, List.length_map] at this
        exact Nat.le_of_eq this.symm
      · rw [(hout m hm).drops]
        exact Nat.zero_le _
    have hlen : (vec.flatMap fun m => (single m).toList).length
        = (vec.flatMap fun m => (V [m]).mbufs).length := by
      have hp := h.forwards.length_eq
      rw [List.length_map, List.length_map, (hmbufs vec).length_eq,
        List.filterMap_eq_flatMap_toList] at hp
      exact hp.symm
    intro m hm
    by_contra hnot
    have heq := length_eq_of_flatMap_length hle hlen m hm
    rw [(hout m hnot).forwards, (hout m hnot).drops] at heq
    cases heq
  · intro h
    constructor
    · refine ((hmbufs vec).map sentTo).trans ?_
      rw [List.filterMap_eq_flatMap_toList, List.map_flatMap, List.map_flatMap]
      exact .of_eq (List.flatMap_congr fun m hm => (halike m (h m hm)).forwards)
    · refine ((hfreed vec).map Mbuf.addr).trans ?_
      rw [filter_isNone_eq_flatMap, List.map_flatMap]
      exact .of_eq (List.flatMap_congr fun m hm => (halike m (h m hm)).drops)

/-! ## Inbound -/

/-- A packet that matches a `PROTECT` rule and carries an SA with the SPI of
    the rule. -/
def CarriesSpi (saCtx : SaCtx) (acl : SpCtx) (m : Mbuf) (nlp : Nat) : Prop :=
  acl m.buf nlp ≠ discard ∧ acl m.buf nlp ≠ bypass ∧
    ∃ p, m.dynSa = some p ∧
      (g.mem p).spi = (g.mem (saCtx.entry (acl m.buf nlp - 1))).spi

/-- What only the single event looks at: the index, and whether the NIC
    processed the packet at all. -/
def Unverified (saCtx : SaCtx) (acl : SpCtx) (m : Mbuf) (nlp : Nat) : Prop :=
  saCtx.nbSa ≤ acl m.buf nlp - 1 ∨ m.olFlags &&& rxSecOffload = 0

/-- A packet in the clear that did not fail and has a route belongs to a family
    with a policy context, and does not owe its way to an SA only the vector
    accepts. -/
def InboundAgrees (m : Mbuf) : Prop :=
  ∀ sp, ctx.spFor (processIpsecGetPktType m).1 = some sp →
    offloadFailed m = false →
    getRoute m rt (processIpsecGetPktType m).1 ≠ rteMaxEthports →
    ∃ acl, sp = some acl ∧
      ¬ (CarriesSpi g ctx.saCtx acl m (processIpsecGetPktType m).2 ∧
        Unverified ctx.saCtx acl m (processIpsecGetPktType m).2)

@[simp] theorem checkSpSaBulk_nil (sp : Option SpCtx) (saCtx : SaCtx) :
    checkSpSaBulk g sp saCtx [] = {} := by
  cases sp <;> rfl

/-- The vector of one cleartext packet: the check, and the route. -/
theorem inboundVector_plain {m : Mbuf} {type : PktType} {nlp : Nat}
    {sp : Option SpCtx} (htype : processIpsecGetPktType m = (type, nlp))
    (hsp : ctx.spFor type = some sp) (hfailed : offloadFailed m = false) :
    let c := checkSpSaBulk g sp ctx.saCtx [(m, nlp)]
    let v := routed g (fun m => getRoute m rt type) c.kept
    (processIpsecEvInboundVector g ctx rt [m]).mbufs = v.mbufs ∧
      (processIpsecEvInboundVector g ctx rt [m]).freed = c.freed ++ v.freed := by
  intro c v
  rw [processIpsecEvInboundVector, ipsecEvRoutePkts_mbufs, ipsecEvRoutePkts_freed]
  cases type with
  | plainIpv4 =>
      cases hsp
      simp [inboundOne, hfailed, classifyPkt, htype, routed, protectedBy, getRoute, v, c]
  | plainIpv6 =>
      cases hsp
      simp [inboundOne, hfailed, classifyPkt, htype, routed, protectedBy, getRoute, v, c]
  | ipsecIpv4 => cases hsp
  | ipsecIpv6 => cases hsp
  | invalid => cases hsp

/-- Packets that failed in the NIC, or are of another type, are freed. -/
theorem inboundVector_other {m : Mbuf}
    (h : offloadFailed m = true ∨ ctx.spFor (processIpsecGetPktType m).1 = none) :
    (processIpsecEvInboundVector g ctx rt [m]).mbufs = [] ∧
      (processIpsecEvInboundVector g ctx rt [m]).freed = [m] := by
  have hone : inboundOne {} m = { freed := [m] } := by
    rw [inboundOne]
    split
    · rfl
    · rename_i hfailed
      have hsp := h.resolve_left hfailed
      rw [classifyPkt]
      generalize processIpsecGetPktType m = r at hsp ⊢
      obtain ⟨type, nlp⟩ := r
      cases type with
      | plainIpv4 => cases hsp
      | plainIpv6 => cases hsp
      | ipsecIpv4 => rfl
      | ipsecIpv6 => rfl
      | invalid => rfl
  rw [processIpsecEvInboundVector, ipsecEvRoutePkts_mbufs, ipsecEvRoutePkts_freed]
  simp [hone, routed, protectedBy]

/-- A packet that is routed: sent like a single event, or freed. -/
theorem routed_one (type : PktType) (m : Mbuf) (nlp : Nat) :
    (routed g (fun m => getRoute m rt type) [(m, nlp)]).mbufs
        = (routeAndSendPkt g rt type m).toList ∧
      (routed g (fun m => getRoute m rt type) [(m, nlp)]).freed
        = if (routeAndSendPkt g rt type m).isNone then [m] else [] := by
  rw [routed, routeAndSendPkt, List.foldl_cons, List.foldl_nil, routeOne]
  dsimp only
  by_cases hr : getRoute m rt type = rteMaxEthports
  · rw [if_neg (not_not.mpr hr), if_pos hr]
    exact ⟨rfl, rfl⟩
  · rw [if_pos hr, if_neg hr, forward_mbufs, forward_freed]
    exact ⟨rfl, rfl⟩

/-- How the check of a vector and the single event judge a cleartext packet
    that did not fail. -/
inductive Verdict (sp : Option SpCtx) (m : Mbuf) (type : PktType) (nlp : Nat)
    (c : Checked) (o : Option Mbuf) : Prop
  | both (acl : SpCtx) (hsp : sp = some acl)
      (hagree : ¬ (CarriesSpi g ctx.saCtx acl m nlp ∧ Unverified ctx.saCtx acl m nlp))
      (hc : c = { kept := [(m, nlp)] }) (ho : o = routeAndSendPkt g rt type m)
  | neither (acl : SpCtx) (hsp : sp = some acl)
      (hagree : ¬ (CarriesSpi g ctx.saCtx acl m nlp ∧ Unverified ctx.saCtx acl m nlp))
      (hc : c = { freed := [m] }) (ho : o = none)
  | vector (hdiffer : ∀ acl, sp = some acl →
        CarriesSpi g ctx.saCtx acl m nlp ∧ Unverified ctx.saCtx acl m nlp)
      (hc : c = { kept := [(m, nlp)] }) (ho : o = none)

theorem inbound_verdict {m : Mbuf} {type : PktType} {nlp : Nat}
    {sp : Option SpCtx} (htype : processIpsecGetPktType m = (type, nlp))
    (hsp : ctx.spFor type = some sp) (hfailed : offloadFailed m = false) :
    Verdict g ctx rt sp m type nlp (checkSpSaBulk g sp ctx.saCtx [(m, nlp)])
      (processIpsecEvInbound g ctx rt m) := by
  rw [processIpsecEvInbound, htype]
  dsimp only
  rw [hsp]
  dsimp only
  rw [hfailed, if_neg Bool.false_ne_true]
  -- without policies the vector keeps what a single event drops
  cases sp with
  | none => exact .vector (fun acl h => by cases h) rfl rfl
  | some acl =>
      rw [checkSpSaBulk, List.foldl_cons, List.foldl_nil, checkSpSaBulkOne, checkSp]
      dsimp only
      by_cases hdiscard : acl m.buf nlp = discard
      · rw [if_pos hdiscard, if_pos hdiscard]
        exact .neither acl rfl (fun h => h.1.1 hdiscard) rfl rfl
      rw [if_neg hdiscard, if_neg hdiscard]
      by_cases hbypass : acl m.buf nlp = bypass
      · rw [if_pos hbypass, if_pos hbypass]
        exact .both acl rfl (fun h => h.1.2.1 hbypass) rfl (if_pos rfl)
      rw [if_neg hbypass, if_neg hbypass]
      -- only a discard would give the number of a bypass
      have hidx : acl m.buf nlp - 1 ≠ bypass := by
        intro h
        exact hdiscard (by
          rw [← UInt32.sub_add_cancel (acl m.buf nlp) 1, h]
          rfl)
      dsimp only
      rw [if_neg hidx]
      cases hsa : m.dynSa with
      | none =>
          refine .neither acl rfl ?_ rfl ?_
          · rintro ⟨⟨-, -, p, hp, -⟩, -⟩
            rw [hsa] at hp
            cases hp
          · split
            · rfl
            · rw [ite_self]
      | some p =>
          dsimp only
          by_cases hspi : (g.mem p).spi = (g.mem (ctx.saCtx.entry (acl m.buf nlp - 1))).spi
          · rw [if_neg (not_not.mpr hspi)]
            -- the SPIs agree: the single event still asks two questions
            have hcarries : CarriesSpi g ctx.saCtx acl m nlp :=
              ⟨hdiscard, hbypass, p, hsa, hspi⟩
            by_cases hnb : ctx.saCtx.nbSa ≤ acl m.buf nlp - 1
            · rw [if_pos hnb]
              refine .vector ?_ rfl rfl
              rintro _ ⟨⟩
              exact ⟨hcarries, .inl hnb⟩
            rw [if_neg hnb]
            by_cases hoff : m.olFlags &&& rxSecOffload = 0
            · rw [if_neg (not_not.mpr hoff)]
              refine .vector ?_ rfl rfl
              rintro _ ⟨⟩
              exact ⟨hcarries, .inr hoff⟩
            · rw [if_pos hoff]
              refine .both acl rfl ?_ rfl (if_neg (not_not.mpr hspi))
              rintro ⟨-, hun⟩
              exact hun.elim hnb hoff
          · rw [if_pos hspi]
            refine .neither acl rfl ?_ rfl ?_
            · rintro ⟨⟨-, -, q, hq, heq⟩, -⟩
              rw [hsa] at hq
              cases hq
              exact hspi heq
            · split
              · rfl
              · split
                · rfl
                · rename_i heq
                  split at heq
                  · cases heq
                    exact if_pos hspi
                  · cases heq

/-- Without a route the packet is dropped either way. -/
theorem alike_of_dropped {r : EvVector} {m : Mbuf} (hmbufs : r.mbufs = [])
    (hfreed : r.freed = [m]) : Alike r none m where
  forwards := by rw [hmbufs]; rfl
  drops := by rw [hfreed]; rfl

theorem inbound_other {m : Mbuf}
    (h : offloadFailed m = true ∨ ctx.spFor (processIpsecGetPktType m).1 = none) :
    processIpsecEvInbound g ctx rt m = none := by
  rw [processIpsecEvInbound]
  dsimp only
  split
  · rfl
  · rename_i sp hsp
    rw [if_pos (h.resolve_right fun hnone => by rw [hsp] at hnone; cases hnone)]

theorem alike_of_routed {r : EvVector} {type : PktType} {m : Mbuf} {nlp : Nat}
    (hmbufs : r.mbufs = (routed g (fun m => getRoute m rt type) [(m, nlp)]).mbufs)
    (hfreed : r.freed = (routed g (fun m => getRoute m rt type) [(m, nlp)]).freed) :
    Alike r (routeAndSendPkt g rt type m) m := by
  obtain ⟨hsent, hdropped⟩ := routed_one g rt type m nlp
  constructor
  · rw [hmbufs, hsent]
  · rw [hfreed, hdropped]
    split <;> rfl

theorem routeAndSendPkt_isSome {type : PktType} {m : Mbuf}
    (hroute : getRoute m rt type ≠ rteMaxEthports) :
    (routeAndSendPkt g rt type m).toList.length = 1 := by
  rw [routeAndSendPkt]
  rw [if_neg hroute]
  rfl

theorem routeAndSendPkt_miss {type : PktType} {m : Mbuf}
    (hroute : getRoute m rt type = rteMaxEthports) :
    routeAndSendPkt g rt type m = none := by
  rw [routeAndSendPkt]
  exact if_pos hroute

theorem inbound_alike {m : Mbuf} (h : InboundAgrees g ctx rt m) :
    Alike (processIpsecEvInboundVector g ctx rt [m])
      (processIpsecEvInbound g ctx rt m) m := by
  by_cases hother : offloadFailed m = true ∨
      ctx.spFor (processIpsecGetPktType m).1 = none
  · obtain ⟨hmbufs, hfreed⟩ := inboundVector_other g ctx rt hother
    rw [inbound_other g ctx rt hother]
    exact alike_of_dropped hmbufs hfreed
  · obtain ⟨hfailed, hplain⟩ := not_or.mp hother
    obtain ⟨sp, hsp⟩ := Option.ne_none_iff_exists'.mp hplain
    have hfailed := Bool.eq_false_iff.mpr hfailed
    have hagrees := h sp hsp hfailed
    obtain ⟨hmbufs, hfreed⟩ := inboundVector_plain g ctx rt rfl hsp hfailed
    cases inbound_verdict g ctx rt rfl hsp hfailed with
    | both acl _ _ hc ho =>
        rw [hc] at hmbufs hfreed
        rw [ho]
        exact alike_of_routed g rt hmbufs hfreed
    | neither acl _ _ hc ho =>
        rw [hc] at hmbufs hfreed
        rw [ho]
        exact alike_of_dropped hmbufs hfreed
    | vector hdiffer hc ho =>
        rw [hc] at hmbufs hfreed
        -- the two differ here unless there is no route
        by_cases hroute : getRoute m rt (processIpsecGetPktType m).1 = rteMaxEthports
        · rw [ho, ← routeAndSendPkt_miss g rt hroute]
          exact alike_of_routed g rt hmbufs hfreed
        · obtain ⟨acl, hacl, hnot⟩ := hagrees hroute
          exact absurd (hdiffer acl hacl) hnot

theorem inbound_letsOut {m : Mbuf} (h : ¬ InboundAgrees g ctx rt m) :
    LetsOut (processIpsecEvInboundVector g ctx rt [m])
      (processIpsecEvInbound g ctx rt m) := by
  rw [InboundAgrees] at h
  push Not at h
  obtain ⟨sp, hsp, hfailed, hroute, hdiffer⟩ := h
  obtain ⟨hmbufs, -⟩ := inboundVector_plain g ctx rt rfl hsp hfailed
  cases inbound_verdict g ctx rt rfl hsp hfailed with
  | both acl hacl hnot => exact absurd (hdiffer acl hacl) hnot
  | neither acl hacl hnot => exact absurd (hdiffer acl hacl) hnot
  | vector _ hc ho =>
      refine ⟨?_, ho⟩
      rw [hmbufs, hc, (routed_one g rt _ m _).1]
      exact routeAndSendPkt_isSome g rt hroute

/-! ## Outbound -/

/-- A packet in the clear with a route belongs to a family with a policy
    context. -/
def OutboundAgrees (m : Mbuf) : Prop :=
  ctx.spFor (processIpsecGetPktType m).1 = some none →
    getRoute m rt (processIpsecGetPktType m).1 = rteMaxEthports

/-- A packet as it lies in the arrays of the outbound vector function. -/
def withL2Len (m : Mbuf) : Mbuf := { m with l2Len := rteEtherHdrLen }

@[simp] theorem checkSpBulk_nil (sp : Option SpCtx) : checkSpBulk sp [] = {} := by
  cases sp <;> rfl

theorem outboundVector_plain {m : Mbuf} {type : PktType} {nlp : Nat}
    {sp : Option SpCtx} (htype : processIpsecGetPktType m = (type, nlp))
    (hsp : ctx.spFor type = some sp) :
    let c := checkSpBulk sp [(withL2Len m, nlp)]
    let v := routed g (fun m => getRoute m rt type) c.kept
    let w := protectedBy g ctx.saCtx c.ipsec
    (processIpsecEvOutboundVector g ctx rt [m]).mbufs = v.mbufs ++ w.mbufs ∧
      (processIpsecEvOutboundVector g ctx rt [m]).freed
        = c.freed ++ v.freed ++ w.freed := by
  intro c v w
  have htype' : processIpsecGetPktType (withL2Len m) = (type, nlp) := htype
  rw [withL2Len] at htype'
  rw [processIpsecEvOutboundVector, ipsecEvRoutePkts_mbufs, ipsecEvRoutePkts_freed]
  cases type with
  | plainIpv4 =>
      cases hsp
      simp [outboundOne, classifyPkt, htype', routed, protectedBy, getRoute, v, c, w,
        withL2Len]
  | plainIpv6 =>
      cases hsp
      simp [outboundOne, classifyPkt, htype', routed, protectedBy, getRoute, v, c, w,
        withL2Len]
  | ipsecIpv4 => cases hsp
  | ipsecIpv6 => cases hsp
  | invalid => cases hsp

theorem outboundVector_other {m : Mbuf}
    (hsp : ctx.spFor (processIpsecGetPktType m).1 = none) :
    (processIpsecEvOutboundVector g ctx rt [m]).mbufs = [] ∧
      (processIpsecEvOutboundVector g ctx rt [m]).freed = [withL2Len m] := by
  have hone : outboundOne {} m = { freed := [withL2Len m] } := by
    rw [outboundOne, classifyPkt]
    have heq : processIpsecGetPktType (withL2Len m) = processIpsecGetPktType m := rfl
    rw [withL2Len] at heq
    rw [heq]
    generalize processIpsecGetPktType m = r at hsp ⊢
    obtain ⟨type, nlp⟩ := r
    cases type with
    | plainIpv4 => cases hsp
    | plainIpv6 => cases hsp
    | ipsecIpv4 => rfl
    | ipsecIpv6 => rfl
    | invalid => rfl
  rw [processIpsecEvOutboundVector, ipsecEvRoutePkts_mbufs, ipsecEvRoutePkts_freed]
  simp [hone, routed, protectedBy]

@[simp] theorem write_addr (m : Mbuf) (off : Nat) (bs : List UInt8) :
    (m.write off bs).addr = m.addr := rfl

@[simp] theorem updateMacAddrs_addr (m : Mbuf) (portId : UInt16) :
    (updateMacAddrs g m portId).addr = m.addr := rfl

@[simp] theorem sentTo_preForward (m : Mbuf) (portId : UInt16) :
    sentTo (ipsecEventPreForward m portId) = (m.addr, portId) := rfl

/-- The length of the link header has no part in the choice of a session. -/
theorem sendWithSa_withL2Len (p : SaPtr) (m : Mbuf) :
    (sendWithSa g p (withL2Len m)).map (fun r => (r.1.addr, r.2))
      = (sendWithSa g p m).map fun r => (r.1.addr, r.2) := by
  rw [sendWithSa, sendWithSa]
  dsimp only
  split
  · rfl
  · simp only [Option.map_some, g.setPktMetadata_addr]
    rfl

/-- A packet that matches a `BYPASS` rule. -/
theorem outbound_bypass_alike {r : EvVector} {type : PktType} {m : Mbuf} {nlp : Nat}
    (hmbufs : r.mbufs
      = (routed g (fun m => getRoute m rt type) [(withL2Len m, nlp)]).mbufs)
    (hfreed : r.freed
      = (routed g (fun m => getRoute m rt type) [(withL2Len m, nlp)]).freed) :
    Alike r
      (if getRoute m rt type = rteMaxEthports then none
        else some (ipsecEventPreForward
          (updateMacAddrs g (withL2Len m) (getRoute m rt type)) (getRoute m rt type)))
      m := by
  obtain ⟨hsent, hdropped⟩ := routed_one g rt type (withL2Len m) nlp
  have hroute : getRoute (withL2Len m) rt type = getRoute m rt type := by
    cases type <;> rfl
  rw [routeAndSendPkt] at hsent hdropped
  rw [hroute] at hsent hdropped
  constructor
  · rw [hmbufs, hsent]
  · rw [hfreed, hdropped]
    split <;> rfl

/-- A packet for an SA. -/
theorem outbound_protect_alike {r : EvVector} {m : Mbuf} {idx : UInt32}
    (hmbufs : r.mbufs = (protectedBy g ctx.saCtx [(withL2Len m, idx)]).mbufs)
    (hfreed : r.freed = (protectedBy g ctx.saCtx [(withL2Len m, idx)]).freed) :
    Alike r
      (if ctx.saCtx.nbSa ≤ idx then none
        else (sendWithSa g (ctx.saCtx.entry idx) m).map fun r =>
          ipsecEventPreForward (updateMacAddrs g (withL2Len r.1) r.2) r.2)
      m := by
  rw [protectedBy, List.foldl_cons, List.foldl_nil, protectOne] at hmbufs hfreed
  dsimp only at hmbufs hfreed
  by_cases hnb : ctx.saCtx.nbSa ≤ idx
  · rw [if_pos hnb] at hmbufs hfreed ⊢
    exact ⟨by rw [hmbufs]; rfl, by rw [hfreed]; rfl⟩
  · rw [if_neg hnb] at hmbufs hfreed ⊢
    have hsend := sendWithSa_withL2Len g (ctx.saCtx.entry idx) m
    generalize sendWithSa g (ctx.saCtx.entry idx) (withL2Len m) = a at hmbufs hfreed hsend
    have haddr : ∀ x ∈ sendWithSa g (ctx.saCtx.entry idx) m, x.1.addr = m.addr := by
      intro x hx
      rw [sendWithSa] at hx
      dsimp only at hx
      split at hx
      · cases hx
      · cases hx
        exact g.setPktMetadata_addr _ _
    generalize sendWithSa g (ctx.saCtx.entry idx) m = b at hsend haddr ⊢
    cases b with
    | none =>
        cases a with
        | none => exact ⟨by rw [hmbufs]; rfl, by rw [hfreed]; rfl⟩
        | some x => cases hsend
    | some y =>
        cases a with
        | none => cases hsend
        | some x =>
            dsimp only at hmbufs hfreed
            rw [forward_mbufs] at hmbufs
            rw [forward_freed] at hfreed
            have hxy := Option.some.inj hsend
            constructor
            · rw [hmbufs]
              exact congrArg (fun a => [a]) hxy
            · rw [hfreed]
              rfl

/-- The single event, for a packet in the clear. -/
theorem outbound_some {m : Mbuf} {type : PktType} {nlp : Nat} {sp : Option SpCtx}
    (htype : processIpsecGetPktType m = (type, nlp)) (hsp : ctx.spFor type = some sp) :
    processIpsecEvOutbound g ctx rt m
      = match checkSp sp m nlp with
        | none => none
        | some saIdx =>
            if saIdx = bypass then
              if getRoute m rt type = rteMaxEthports then none
              else some (ipsecEventPreForward
                (updateMacAddrs g (withL2Len m) (getRoute m rt type))
                (getRoute m rt type))
            else if ctx.saCtx.nbSa ≤ saIdx then none
            else (sendWithSa g (ctx.saCtx.entry saIdx) m).map fun r =>
              ipsecEventPreForward (updateMacAddrs g (withL2Len r.1) r.2) r.2 := by
  rw [processIpsecEvOutbound, htype]
  dsimp only
  rw [hsp]
  rfl

theorem outbound_acl_alike {m : Mbuf} {acl : SpCtx}
    (hsp : ctx.spFor (processIpsecGetPktType m).1 = some (some acl)) :
    Alike (processIpsecEvOutboundVector g ctx rt [m])
      (processIpsecEvOutbound g ctx rt m) m := by
  obtain ⟨type, nlp, htype⟩ : ∃ type nlp, processIpsecGetPktType m = (type, nlp) :=
    ⟨_, _, rfl⟩
  rw [htype] at hsp
  obtain ⟨hmbufs, hfreed⟩ := outboundVector_plain g ctx rt htype hsp
  rw [outbound_some g ctx rt htype hsp]
  rw [checkSpBulk, List.foldl_cons, List.foldl_nil, checkSpBulkOne] at hmbufs hfreed
  rw [checkSp]
  dsimp only at hmbufs hfreed ⊢
  have hbuf : acl (withL2Len m).buf nlp = acl m.buf nlp := rfl
  rw [hbuf] at hmbufs hfreed
  by_cases hdiscard : acl m.buf nlp = discard
  · rw [if_pos hdiscard] at hmbufs hfreed ⊢
    exact ⟨by rw [hmbufs]; rfl, by rw [hfreed]; rfl⟩
  rw [if_neg hdiscard] at hmbufs hfreed ⊢
  by_cases hbypass : acl m.buf nlp = bypass
  · rw [if_pos hbypass] at hmbufs hfreed ⊢
    exact outbound_bypass_alike g rt (hmbufs.trans (List.append_nil _))
      (hfreed.trans (List.append_nil _))
  · rw [if_neg hbypass] at hmbufs hfreed ⊢
    have hidx : acl m.buf nlp - 1 ≠ bypass := by
      intro h
      exact hdiscard (by
        rw [← UInt32.sub_add_cancel (acl m.buf nlp) 1, h]
        rfl)
    dsimp only
    rw [if_neg hidx]
    exact outbound_protect_alike g ctx hmbufs hfreed

theorem outbound_alike {m : Mbuf} (h : OutboundAgrees ctx rt m) :
    Alike (processIpsecEvOutboundVector g ctx rt [m])
      (processIpsecEvOutbound g ctx rt m) m := by
  obtain ⟨type, nlp, htype⟩ : ∃ type nlp, processIpsecGetPktType m = (type, nlp) :=
    ⟨_, _, rfl⟩
  rw [OutboundAgrees, htype] at h
  cases hsp : ctx.spFor type with
  | none =>
      obtain ⟨hmbufs, hfreed⟩ := outboundVector_other g ctx rt (m := m) (by rw [htype]; exact hsp)
      have hnone : processIpsecEvOutbound g ctx rt m = none := by
        rw [processIpsecEvOutbound, htype]
        dsimp only
        rw [hsp]
      rw [hnone]
      exact ⟨by rw [hmbufs]; rfl, by rw [hfreed]; rfl⟩
  | some sp =>
      cases sp with
      | some acl => exact outbound_acl_alike g ctx rt (by rw [htype]; exact hsp)
      | none =>
          -- no context: routed by the vector, dropped by the single event
          have hroute := h hsp
          obtain ⟨hmbufs, hfreed⟩ := outboundVector_plain g ctx rt htype hsp
          have halike := outbound_bypass_alike g rt (hmbufs.trans (List.append_nil _))
            (hfreed.trans (List.append_nil _))
          rw [if_pos hroute] at halike
          rw [outbound_some g ctx rt htype hsp]
          exact halike

theorem outbound_letsOut {m : Mbuf} (h : ¬ OutboundAgrees ctx rt m) :
    LetsOut (processIpsecEvOutboundVector g ctx rt [m])
      (processIpsecEvOutbound g ctx rt m) := by
  obtain ⟨type, nlp, htype⟩ : ∃ type nlp, processIpsecGetPktType m = (type, nlp) :=
    ⟨_, _, rfl⟩
  rw [OutboundAgrees, htype] at h
  push Not at h
  obtain ⟨hsp, hroute⟩ := h
  obtain ⟨hmbufs, -⟩ := outboundVector_plain g ctx rt htype hsp
  have hgetRoute : getRoute (withL2Len m) rt type = getRoute m rt type := by
    cases type <;> rfl
  constructor
  · rw [hmbufs]
    show (_ ++ []).length = 1
    rw [List.append_nil]
    refine (congrArg List.length (routed_one g rt type (withL2Len m) nlp).1).trans ?_
    exact routeAndSendPkt_isSome g rt (hgetRoute ▸ hroute)
  · rw [outbound_some g ctx rt htype hsp]
    rfl

/-! ## The two modes -/

/-- **AGREEMENT**: exactly on the vectors of packets on which they agree the
    vector functions refine the functions for single events. -/
theorem vector_refines_iff (vec : List Mbuf) :
    (Refines (processIpsecEvInboundVector g ctx rt vec)
        (processIpsecEvInbound g ctx rt) vec
      ↔ ∀ m ∈ vec, InboundAgrees g ctx rt m) ∧
    (Refines (processIpsecEvOutboundVector g ctx rt vec)
        (processIpsecEvOutbound g ctx rt) vec
      ↔ ∀ m ∈ vec, OutboundAgrees ctx rt m) :=
  ⟨refines_iff_forall (inbound_mbufs_sum g ctx rt) (inbound_freed_sum g ctx rt)
      (fun _ => inbound_alike g ctx rt) (fun _ => inbound_letsOut g ctx rt) vec,
    refines_iff_forall (outbound_mbufs_sum g ctx rt) (outbound_freed_sum g ctx rt)
      (fun _ => outbound_alike g ctx rt) (fun _ => outbound_letsOut g ctx rt) vec⟩

/-- A cleartext IPv4 packet with `SA[0]` in its security field. -/
def staleField : Mbuf :=
  { Mbuf.mid (fun _ => 0) 64 with packetType := ptypeL3Ipv4, dynSa := some 0 }

/-- Blank SAs, and nothing to write. -/
def blankGlobals : Globals where
  mem := fun _ => {}
  ethaddrTbl := fun _ => ([], [])
  setPktMetadata := fun _ m => m
  setPktMetadata_addr := fun _ _ => rfl

/-- Every IPv4 packet goes to port 1. -/
def toPortOne : RouteTable := ⟨fun _ => some 1, fun _ => none⟩

/-- A worker of one SA and the given policy for IPv4. -/
def workerWith (sp : Option SpCtx) : EvCtx := ⟨sp, none, 0, 1⟩

/-- One packet passes in a vector and not on its own: without a policy context
    in both directions, and behind a rule for the SA in its field, inbound. -/
theorem vector_lets_out :
    ¬ Refines
        (processIpsecEvInboundVector blankGlobals (workerWith none) toPortOne
          [staleField])
        (processIpsecEvInbound blankGlobals (workerWith none) toPortOne)
        [staleField] ∧
    ¬ Refines
        (processIpsecEvOutboundVector blankGlobals (workerWith none) toPortOne
          [staleField])
        (processIpsecEvOutbound blankGlobals (workerWith none) toPortOne)
        [staleField] ∧
    ¬ Refines
        (processIpsecEvInboundVector blankGlobals (workerWith (some fun _ _ => 1))
          toPortOne [staleField])
        (processIpsecEvInbound blankGlobals (workerWith (some fun _ _ => 1)) toPortOne)
        [staleField] := by
  refine ⟨?_, ?_, ?_⟩
  · intro h
    have hlen : 1 = 0 := h.forwards.length_eq
    cases hlen
  · intro h
    have hlen : 1 = 0 := h.forwards.length_eq
    cases hlen
  · intro h
    have hlen : 1 = 0 := h.forwards.length_eq
    cases hlen

end WorkerModel
