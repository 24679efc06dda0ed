import Mathlib.Data.List.Induction
import IpsecSecgw.DrvModeProofs
import IpsecSecgw.EventWorkerModel
import IpsecSecgw.VectorProofs

/-! # Runs of the event workers

    A worker keeps nothing from one event to the next, so what one event comes
    to (`appModeOne_right`) is, by induction, what a run comes to.

    * `appMode_right`: every packet of every event is handed to the Tx adapter,
      freed or passed over, and once; what is handed over has passed the
      policies of its direction.
    * `drvMode_right`: the same in driver mode, where a packet of a protected
      port goes out under the session of its port. -/

namespace EventWorker

open SaModel MbufModel WorkerModel VectorModel DrvMode Collect Outcome Slots Fill

/-! ## What policies let through -/

section policies

variable (g : Globals) (ctx : EvCtx)

/-- Both policy databases of a direction are there. -/
def Policed : Prop := ctx.sp4Ctx ≠ none ∧ ctx.sp6Ctx ≠ none

/-- An inbound packet in the clear that did not fail in the NIC, for which the
    policies of its family say `BYPASS`, or `PROTECT` with the SPI of the SA it
    carries. -/
def LetIn (m : Mbuf) : Prop :=
  offloadFailed m = false ∧ ∃ type nlp acl,
    processIpsecGetPktType m = (type, nlp) ∧ ctx.spFor type = some (some acl) ∧
      (acl m.buf nlp = bypass ∨ CarriesSpi g ctx.saCtx acl m nlp)

/-- `x` is the packet `m` on its way through the inline session of the SA with
    that index. -/
def UnderSa (idx : UInt32) (m x : Mbuf) : Prop :=
  idx < ctx.saCtx.nbSa ∧
    (g.mem (ctx.saCtx.entry idx)).primary.type = .inlineProtocol ∧
    x.port = (g.mem (ctx.saCtx.entry idx)).portid ∧
    ∃ m', (m' = m ∨ m' = withL2Len m) ∧
      x.olFlags = (g.setPktMetadata (g.mem (ctx.saCtx.entry idx)).primary m').olFlags
        ||| txSecOffload

/-- An outbound packet in the clear for which the policies of its family say
    `BYPASS`, or `PROTECT` with the SA it goes out under. -/
def LetOut (m x : Mbuf) : Prop :=
  ∃ type nlp acl,
    processIpsecGetPktType m = (type, nlp) ∧ ctx.spFor type = some (some acl) ∧
      (acl m.buf nlp = bypass ∨
        acl m.buf nlp ≠ discard ∧ acl m.buf nlp ≠ bypass ∧
          UnderSa g ctx (acl m.buf nlp - 1) m x)

variable {g ctx}

/-- The family of a packet in the clear has a database. -/
theorem Policed.spFor (h : Policed ctx) {type : PktType} {sp : Option SpCtx}
    (hsp : ctx.spFor type = some sp) : ∃ acl, sp = some acl := by
  cases type with
  | plainIpv4 =>
      cases hsp
      exact Option.ne_none_iff_exists'.mp h.1
  | plainIpv6 =>
      cases hsp
      exact Option.ne_none_iff_exists'.mp h.2
  | ipsecIpv4 => cases hsp
  | ipsecIpv6 => cases hsp
  | invalid => cases hsp

/-- A `DISCARD` alone would give the index of a bypass. -/
theorem sub_one_ne_bypass {res : UInt32} (h : res ≠ discard) : res - 1 ≠ bypass := by
  intro heq
  refine h ?_
  rw [← UInt32.sub_add_cancel res 1, heq]
  rfl

theorem routeAndSendPkt_some {rt : RouteTable} {type : PktType} {m x : Mbuf}
    (h : routeAndSendPkt g rt type m = some x) : x.addr = m.addr := by
  rw [routeAndSendPkt] at h
  split at h
  · cases h
  · cases h
    rfl

/-- **A SINGLE EVENT, INBOUND**. -/
theorem inbound_letIn {rt : RouteTable} (hpol : Policed ctx) {m x : Mbuf}
    (h : processIpsecEvInbound g ctx rt m = some x) : x.addr = m.addr ∧ LetIn g ctx m := by
  obtain ⟨type, nlp, htype⟩ : ∃ type nlp, processIpsecGetPktType m = (type, nlp) :=
    ⟨_, _, rfl⟩
  rw [processIpsecEvInbound, htype] at h
  dsimp only at h
  cases hsp : ctx.spFor type with
  | none =>
      rw [hsp] at h
      cases h
  | some sp =>
      obtain ⟨acl, rfl⟩ := hpol.spFor hsp
      rw [hsp] at h
      dsimp only at h
      by_cases hfailed : offloadFailed m = true
      · rw [if_pos hfailed] at h
        cases h
      rw [if_neg hfailed, checkSp] at h
      have hfine : offloadFailed m = false := Bool.eq_false_iff.mpr hfailed
      by_cases hdiscard : acl m.buf nlp = discard
      · rw [if_pos hdiscard] at h
        cases h
      rw [if_neg hdiscard] at h
      by_cases hbypass : acl m.buf nlp = bypass
      · rw [if_pos hbypass] at h
        exact ⟨routeAndSendPkt_some h, hfine, type, nlp, acl, htype, hsp, .inl hbypass⟩
      rw [if_neg hbypass] at h
      dsimp only at h
      rw [if_neg (sub_one_ne_bypass hdiscard)] at h
      -- a PROTECT rule: the packet brings the SA the NIC has used
      split at h
      · cases h
      split at h
      · cases h
      rename_i p hp
      split at hp
      · split at h
        · cases h
        · rename_i hspi
          exact ⟨routeAndSendPkt_some h, hfine, type, nlp, acl, htype, hsp,
            .inr ⟨hdiscard, hbypass, p, hp, not_not.mp hspi⟩⟩
      · cases hp

/-- What `sendWithSa` makes of a packet. -/
theorem sendWithSa_some {p : SaPtr} {m : Mbuf} {r : Mbuf × UInt16}
    (h : sendWithSa g p m = some r) :
    (g.mem p).primary.type = .inlineProtocol ∧ r.2 = (g.mem p).portid ∧
      r.1.addr = m.addr ∧
      r.1.olFlags = (g.setPktMetadata (g.mem p).primary m).olFlags ||| txSecOffload := by
  rw [sendWithSa] at h
  dsimp only at h
  split at h
  · cases h
  · rename_i htype
    cases h
    exact ⟨not_not.mp htype, rfl, g.setPktMetadata_addr _ _, rfl⟩

/-- **A SINGLE EVENT, OUTBOUND**. -/
theorem outbound_letOut {rt : RouteTable} (hpol : Policed ctx) {m x : Mbuf}
    (h : processIpsecEvOutbound g ctx rt m = some x) :
    x.addr = m.addr ∧ LetOut g ctx m x := by
  obtain ⟨type, nlp, htype⟩ : ∃ type nlp, processIpsecGetPktType m = (type, nlp) :=
    ⟨_, _, rfl⟩
  cases hsp : ctx.spFor type with
  | none =>
      rw [processIpsecEvOutbound, htype] at h
      dsimp only at h
      rw [hsp] at h
      cases h
  | some sp =>
      obtain ⟨acl, rfl⟩ := hpol.spFor hsp
      rw [outbound_some g ctx rt htype hsp, checkSp] at h
      by_cases hdiscard : acl m.buf nlp = discard
      · rw [if_pos hdiscard] at h
        cases h
      rw [if_neg hdiscard] at h
      by_cases hbypass : acl m.buf nlp = bypass
      · rw [if_pos hbypass] at h
        dsimp only at h
        rw [if_pos (show (-1 : UInt32) = bypass from rfl)] at h
        split at h
        · cases h
        · cases h
          exact ⟨rfl, type, nlp, acl, htype, hsp, .inl hbypass⟩
      rw [if_neg hbypass] at h
      dsimp only at h
      rw [if_neg (sub_one_ne_bypass hdiscard)] at h
      split at h
      · cases h
      rename_i hnb
      obtain ⟨r, hr, rfl⟩ := Option.map_eq_some_iff.mp h
      obtain ⟨hinline, hport, haddr, hflags⟩ := sendWithSa_some hr
      exact ⟨haddr, type, nlp, acl, htype, hsp, .inr ⟨hdiscard, hbypass,
        UInt32.not_le.mp hnb, hinline, hport, m, .inl rfl, hflags⟩⟩

/-- **A VECTOR, INBOUND**: what the vector of one packet forwards. -/
theorem inboundVector_letIn {rt : RouteTable} (hpol : Policed ctx) {m x : Mbuf}
    (h : x ∈ (WorkerModel.processIpsecEvInboundVector g ctx rt [m]).mbufs) :
    LetIn g ctx m := by
  obtain ⟨type, nlp, htype⟩ : ∃ type nlp, processIpsecGetPktType m = (type, nlp) :=
    ⟨_, _, rfl⟩
  by_cases hfailed : offloadFailed m = true
  · rw [(inboundVector_other g ctx rt (.inl hfailed)).1] at h
    cases h
  have hfine : offloadFailed m = false := Bool.eq_false_iff.mpr hfailed
  cases hsp : ctx.spFor type with
  | none =>
      rw [(inboundVector_other g ctx rt (.inr (by rw [htype]; exact hsp))).1] at h
      cases h
  | some sp =>
      obtain ⟨acl, rfl⟩ := hpol.spFor hsp
      rw [(inboundVector_plain g ctx rt htype hsp hfine).1, WorkerModel.checkSpSaBulk,
        List.foldl_cons, List.foldl_nil, WorkerModel.checkSpSaBulkOne] at h
      refine ⟨hfine, type, nlp, acl, htype, hsp, ?_⟩
      dsimp only at h
      by_cases hdiscard : acl m.buf nlp = discard
      · rw [if_pos hdiscard] at h
        cases h
      rw [if_neg hdiscard] at h
      by_cases hbypass : acl m.buf nlp = bypass
      · exact .inl hbypass
      rw [if_neg hbypass] at h
      split at h
      · cases h
      rename_i p hp
      split at h
      · cases h
      · rename_i hspi
        exact .inr ⟨hdiscard, hbypass, p, hp, not_not.mp hspi⟩

/-- **A VECTOR, OUTBOUND**. -/
theorem outboundVector_letOut {rt : RouteTable} (hpol : Policed ctx) {m x : Mbuf}
    (h : x ∈ (WorkerModel.processIpsecEvOutboundVector g ctx rt [m]).mbufs) :
    LetOut g ctx m x := by
  obtain ⟨type, nlp, htype⟩ : ∃ type nlp, processIpsecGetPktType m = (type, nlp) :=
    ⟨_, _, rfl⟩
  cases hsp : ctx.spFor type with
  | none =>
      rw [(outboundVector_other g ctx rt (by rw [htype]; exact hsp)).1] at h
      cases h
  | some sp =>
      obtain ⟨acl, rfl⟩ := hpol.spFor hsp
      rw [(outboundVector_plain g ctx rt htype hsp).1, WorkerModel.checkSpBulk,
        List.foldl_cons, List.foldl_nil, WorkerModel.checkSpBulkOne] at h
      refine ⟨type, nlp, acl, htype, hsp, ?_⟩
      have hbuf : acl (withL2Len m).buf nlp = acl m.buf nlp := rfl
      dsimp only at h
      rw [hbuf] at h
      by_cases hdiscard : acl m.buf nlp = discard
      · rw [if_pos hdiscard] at h
        cases h
      rw [if_neg hdiscard] at h
      by_cases hbypass : acl m.buf nlp = bypass
      · exact .inl hbypass
      rw [if_neg hbypass] at h
      -- the packet is alone in the array for packets with an SA
      have hone : x ∈ (WorkerModel.protectOne g ctx.saCtx {}
          (withL2Len m, acl m.buf nlp - 1)).mbufs := h
      rw [WorkerModel.protectOne] at hone
      split at hone
      · cases hone
      rename_i hnb
      cases hsend : sendWithSa g (ctx.saCtx.entry (acl m.buf nlp - 1)) (withL2Len m) with
      | none =>
          rw [hsend] at hone
          cases hone
      | some r =>
          rw [hsend, forward_mbufs] at hone
          obtain ⟨hinline, hport, -, hflags⟩ := sendWithSa_some hsend
          have hx := List.mem_singleton.mp hone
          refine .inr ⟨hdiscard, hbypass, UInt32.not_le.mp hnb, hinline, ?_,
            withL2Len m, .inr rfl, ?_⟩
          · rw [hx]
            exact hport
          · rw [hx]
            exact hflags

end policies

/-! ## Runs in application mode -/

/-- The addresses of the packets of events. -/
def addrs (evs : List RteEvent) : List Nat :=
  evs.flatMap fun ev => ev.packets.map Mbuf.addr

/-- Does an event bring a vector? -/
def RteEvent.isVector (ev : RteEvent) : Bool := ev.vec.isSome

/-- Is the type of an event one the loops know? -/
def RteEvent.isKnown (ev : RteEvent) : Bool := ev.first.isSome

/-- The events handed to the Tx adapter, taken or not. -/
def Worker.handed (w : Worker) : List RteEvent := w.sent ++ w.refused

/-- What a packet `x` handed over owes to the packet `m` of an event. -/
def Cleared (env : WorkerEnv) (ev : RteEvent) (m x : Mbuf) : Prop :=
  x.addr = m.addr ∧ ∃ f, ev.first = some f ∧
    if env.unprotected f.port then LetIn env.globals env.inbound m
    else LetOut env.globals env.outbound m x

/-- Attributes of a vector that is not empty. -/
def Attributed (vec : RteEventVector) : Prop :=
  0 < vec.nbElem ∧
    (vec.attrValid = true ↔ ∀ m ∈ vecPackets vec, m.port = vec.port)

/-- **WHAT BECOMES OF EVENTS**. -/
structure Right (env : WorkerEnv) (evs : List RteEvent) (w : Worker) : Prop where
  /-- every packet is handed over, freed or passed over, and once -/
  packets : (addrs w.handed ++ w.freed.map Mbuf.addr ++ addrs w.passedOver).Perm
    (addrs evs)
  /-- every vector is handed over, given back or passed over, and once -/
  vectors : w.handed.countP RteEvent.isVector + w.returned.length
    = evs.countP RteEvent.isVector
  passedOver : w.passedOver = evs.filter fun ev => !ev.isKnown
  /-- what is handed over has passed the policies of its direction -/
  cleared : ∀ out ∈ w.handed, ∀ x ∈ out.packets,
    ∃ ev ∈ evs, ∃ m ∈ ev.packets, Cleared env ev m x
  attributed : ∀ out ∈ w.handed, ∀ vec, out.vec = some vec → Attributed vec

variable {env : WorkerEnv}

theorem right_start : Right env [] {} where
  packets := List.Perm.refl _
  vectors := rfl
  passedOver := rfl
  cleared out hout := by cases hout
  attributed out hout := by cases hout

theorem addrs_append (l l' : List RteEvent) : addrs (l ++ l') = addrs l ++ addrs l' :=
  List.flatMap_append

theorem addrs_singleton (ev : RteEvent) : addrs [ev] = ev.packets.map Mbuf.addr :=
  List.append_nil _

/-- What one more event adds to the logs of a worker. -/
structure Adds (w w' : Worker) (handed passedOver : List RteEvent) (freed : List Mbuf)
    (returned : List RteEventVector) : Prop where
  handed : w'.handed.Perm (w.handed ++ handed)
  freed : w'.freed = w.freed ++ freed
  passedOver : w'.passedOver = w.passedOver ++ passedOver
  returned : w'.returned = w.returned ++ returned

/-- One event, for itself: the logs it adds are those of a run of this event. -/
def Handles (env : WorkerEnv) (ev : RteEvent) (w w' : Worker) : Prop :=
  ∃ one : Worker, Right env [ev] one ∧
    Adds w w' one.handed one.passedOver one.freed one.returned

/-- Three logs that account for what came in still do when each grows by what
    accounts for the rest; the first may be in another order. -/
theorem accounted_append {out out' freed passed came out1 freed1 passed1 came1 : List Nat}
    (hout : out'.Perm (out ++ out1)) (h : (out ++ freed ++ passed).Perm came)
    (h1 : (out1 ++ freed1 ++ passed1).Perm came1) :
    (out' ++ (freed ++ freed1) ++ (passed ++ passed1)).Perm (came ++ came1) := by
  have hall := List.perm_iff_count.mp (h.append h1)
  rw [List.perm_iff_count] at hout ⊢
  intro a
  have hall := hall a
  have hout := hout a
  simp only [List.count_append] at hall hout ⊢
  omega

/-- **ONE MORE EVENT**. -/
theorem Right.concat {evs : List RteEvent} {w w' : Worker} {ev : RteEvent}
    (h : Right env evs w) (hev : Handles env ev w w') : Right env (evs ++ [ev]) w' := by
  obtain ⟨one, hone, hadds⟩ := hev
  have hmem : ∀ {out}, out ∈ w'.handed → out ∈ w.handed ∨ out ∈ one.handed :=
    fun hout => List.mem_append.mp (hadds.handed.mem_iff.mp hout)
  constructor
  · have hhanded : (addrs w'.handed).Perm (addrs w.handed ++ addrs one.handed) := by
      rw [← addrs_append]
      exact hadds.handed.flatMap_right _
    rw [hadds.freed, hadds.passedOver, addrs_append, addrs_append, List.map_append]
    exact accounted_append hhanded h.packets hone.packets
  · rw [hadds.handed.countP_eq, hadds.returned, List.countP_append, List.length_append,
      List.countP_append, ← h.vectors, ← hone.vectors]
    omega
  · rw [hadds.passedOver, h.passedOver, hone.passedOver, List.filter_append]
  · intro out hout x hx
    rcases hmem hout with hout | hout
    · obtain ⟨e, he, m, hm, hclear⟩ := h.cleared out hout x hx
      exact ⟨e, List.mem_append_left _ he, m, hm, hclear⟩
    · obtain ⟨e, he, m, hm, hclear⟩ := hone.cleared out hout x hx
      exact ⟨e, List.mem_append_right _ he, m, hm, hclear⟩
  · intro out hout
    rcases hmem hout with hout | hout
    · exact h.attributed out hout
    · exact hone.attributed out hout

/-- Handing an event over, whatever the adapter answers. -/
theorem txEnqueue_adds (w : Worker) (ev : RteEvent) :
    Adds w (w.txEnqueue env ev) [ev] [] [] [] := by
  rw [Worker.txEnqueue]
  split
  · refine ⟨?_, (List.append_nil _).symm, (List.append_nil _).symm,
      (List.append_nil _).symm⟩
    show (w.sent ++ [ev] ++ w.refused).Perm (w.sent ++ w.refused ++ [ev])
    rw [List.append_assoc, List.append_assoc]
    exact List.perm_append_comm.append_left w.sent
  · refine ⟨?_, (List.append_nil _).symm, (List.append_nil _).symm,
      (List.append_nil _).symm⟩
    show (w.sent ++ (w.refused ++ [ev])).Perm (w.sent ++ w.refused ++ [ev])
    rw [List.append_assoc]

/-- An event that brings a vector, whichever type it has. -/
structure Wraps (wrap : RteEventVector → RteEvent) : Prop where
  vec : ∀ v, (wrap v).vec = some v
  packets : ∀ v, (wrap v).packets = vecPackets v
  first : ∀ v, (wrap v).first = some (v.mbufs 0)

theorem wraps_ethdevVector : Wraps .ethdevVector :=
  ⟨fun _ => rfl, fun _ => rfl, fun _ => rfl⟩

theorem wraps_ethRxAdapterVector : Wraps .ethRxAdapterVector :=
  ⟨fun _ => rfl, fun _ => rfl, fun _ => rfl⟩

/-- The ports of the two directions. -/
structure PortsSound (env : WorkerEnv) : Prop where
  inbound : PortsBelow env.globals env.rt env.inbound.saCtx
  outbound : PortsBelow env.globals env.rt env.outbound.saCtx

/-- What a vector function has made of a vector, in memory and as the list of
    packets it forwards. -/
structure Forwarded (env : WorkerEnv) (vec : RteEventVector) (r : Routing) : Prop where
  packets : ((cells r.vec.mbufs r.j).map Mbuf.addr ++ r.freed.map Mbuf.addr).Perm
    ((vecPackets vec).map Mbuf.addr)
  cleared : ∀ x ∈ cells r.vec.mbufs r.j, ∃ m ∈ vecPackets vec, x.addr = m.addr ∧
    if env.unprotected (vec.mbufs 0).port then LetIn env.globals env.inbound m
    else LetOut env.globals env.outbound m x
  attr : 0 < r.j → (r.vec.attrValid = true ↔
    ∀ m ∈ cells r.vec.mbufs r.j, m.port = r.vec.port)

/-- Elements by their index. -/
theorem forall_cells {P : Mbuf → Prop} {mbufs : Nat → Mbuf} {n : Nat} :
    (∀ m ∈ cells mbufs n, P m) ↔ ∀ i, i < n → P (mbufs i) := by
  simp [cells]

/-- **A VECTOR FUNCTION** that keeps packets apart forwards those its policies
    let pass. -/
theorem forwarded_of_routed {V : List Mbuf → EvVector} {dest : Mbuf → UInt16}
    {ctx : EvCtx} {vec : RteEventVector} {n : Nat} {r : Routing}
    (hV : Fates env.globals ctx env.rt V dest)
    (hports : PortsBelow env.globals env.rt ctx.saCtx)
    (hsum : Summary (V (vecPackets vec)))
    (hpass : ∀ m, ∀ x ∈ (V [m]).mbufs,
      if env.unprotected (vec.mbufs 0).port then LetIn env.globals env.inbound m
      else LetOut env.globals env.outbound m x)
    (h : Routed (evVectorAttrInit vec) (V (vecPackets vec)) n r) :
    Forwarded env vec r := by
  have hcells : cells r.vec.mbufs r.j = (V (vecPackets vec)).mbufs := by
    rw [h.j]
    exact h.mbufs.cells
  have hsum : Summary (V (evVectorAttrInit vec).packets) := hsum
  obtain ⟨hpackets, -, -, hattr⟩ := Routed.conserves hV hports hsum h
  refine ⟨hpackets, ?_, ?_⟩
  · intro x hx
    rw [hcells] at hx
    obtain ⟨m, hm, hxm⟩ := List.mem_flatMap.mp ((hV.mbufs _).mem_iff.mp hx)
    have hxm : x ∈ (V [m]).mbufs := hxm
    refine ⟨m, hm, ?_, hpass m x hxm⟩
    -- the vector of one packet forwards this packet
    cases hV.one m with
    | freed hnone _ =>
        rw [List.map_eq_nil_iff.mp hnone] at hxm
        cases hxm
    | sent hone _ _ =>
        have hsent := List.mem_map_of_mem (f := sentTo) hxm
        rw [hone] at hsent
        exact congrArg Prod.fst (List.mem_singleton.mp hsent)
  · intro hj
    rw [forall_cells]
    exact hattr hj ⟨vec, rfl⟩

/-- **A VECTOR**: both functions of the worker, on a vector that fits the arrays
    on the stack. -/
theorem vector_forwarded (hin : Policed env.inbound) (hout : Policed env.outbound)
    (hports : PortsSound env) (tick : Nat) {vec : RteEventVector}
    (hroom : vec.nbElem ≤ trafficSize) :
    Ends (vectorFunction env tick vec) never (Forwarded env vec) := by
  have hroom' : (evVectorAttrInit vec).nbElem ≤ trafficSize := hroom
  rw [vectorFunction]
  by_cases hdir : env.unprotected (vec.mbufs 0).port = true
  · rw [if_pos hdir]
    refine (inbound_ends env.globals env.inbound env.rt (env.stack tick) hroom').mono
      (fun _ h => h) ?_
    intro r hr
    refine forwarded_of_routed (inbound_fates env.globals env.inbound env.rt)
      hports.inbound (ipsecEvRoutePkts_summary _ _) ?_ hr
    intro m x hx
    rw [if_pos hdir]
    exact inboundVector_letIn hin hx
  · rw [if_neg hdir]
    refine (outbound_ends env.globals env.outbound env.rt (env.stack tick) hroom').mono
      (fun _ h => h) ?_
    intro r hr
    refine forwarded_of_routed (outbound_fates env.globals env.outbound env.rt)
      hports.outbound (ipsecEvRoutePkts_summary _ _) ?_ hr
    intro m x hx
    rw [if_neg hdir]
    exact outboundVector_letOut hout hx

/-- **A VECTOR EVENT**: handed over with the packets that are left, or given
    back. -/
theorem vectorProcess_handles (hin : Policed env.inbound) (hout : Policed env.outbound)
    (hports : PortsSound env) {wrap : RteEventVector → RteEvent} (hwrap : Wraps wrap)
    {vec : RteEventVector} (hroom : vec.nbElem ≤ trafficSize) (w : Worker) :
    Ends (ipsecEvVectorProcess env wrap vec w) never (Handles env (wrap vec) w) := by
  rw [ipsecEvVectorProcess]
  refine (vector_forwarded hin hout hports w.tick hroom).bind ?_
  intro r hr
  have hknown : (wrap vec).isKnown = true := by
    rw [RteEvent.isKnown, hwrap.first]
    rfl
  have hvector : ∀ v, (wrap v).isVector = true := by
    intro v
    rw [RteEvent.isVector, hwrap.vec]
    rfl
  have hcount : [wrap vec].countP RteEvent.isVector = 1 := by
    rw [List.countP_singleton, if_pos (hvector vec)]
  dsimp only
  by_cases hj : 0 < r.j
  · rw [if_pos hj]
    refine ends_ok ⟨{ sent := [wrap { r.vec with nbElem := r.j }], freed := r.freed }, ?_, ?_⟩
    · constructor
      · show (addrs [wrap { r.vec with nbElem := r.j }] ++ r.freed.map Mbuf.addr ++ []).Perm _
        rw [List.append_nil, addrs_singleton, addrs_singleton, hwrap.packets, hwrap.packets]
        exact hr.packets
      · show [wrap { r.vec with nbElem := r.j }].countP RteEvent.isVector + 0 = _
        rw [hcount, List.countP_singleton, if_pos (hvector _)]
      · simp [hknown]
      · intro out hmem x hx
        obtain rfl := List.mem_singleton.mp hmem
        rw [hwrap.packets] at hx
        obtain ⟨m, hm, haddr, hpass⟩ := hr.cleared x hx
        refine ⟨_, List.mem_singleton_self _, m, ?_, haddr, _, hwrap.first vec, hpass⟩
        rw [hwrap.packets]
        exact hm
      · intro out hmem v hv
        obtain rfl := List.mem_singleton.mp hmem
        rw [hwrap.vec] at hv
        cases hv
        exact ⟨hj, hr.attr hj⟩
    · obtain ⟨h1, h2, h3, h4⟩ : Adds _ (Worker.txEnqueue env _ _) _ _ _ _ :=
        txEnqueue_adds { w with freed := w.freed ++ r.freed } (wrap { r.vec with nbElem := r.j })
      refine ⟨h1, ?_, h3, h4⟩
      rw [h2]
      exact List.append_nil _
  · rw [if_neg hj]
    have hzero : r.j = 0 := by omega
    refine ends_ok ⟨{ freed := r.freed, returned := [r.vec] }, ?_, ?_⟩
    · constructor
      · have hall := hr.packets
        rw [hzero] at hall
        show (r.freed.map Mbuf.addr ++ []).Perm _
        rw [List.append_nil, addrs_singleton, hwrap.packets]
        exact hall
      · exact hcount.symm
      · simp [hknown]
      · intro out hmem
        cases hmem
      · intro out hmem
        cases hmem
    · exact ⟨.of_eq (List.append_nil _).symm, rfl, (List.append_nil _).symm, rfl⟩

/-- **ONE EVENT** in application mode. -/
theorem appModeOne_handles (hin : Policed env.inbound) (hout : Policed env.outbound)
    (hports : PortsSound env) (ev : RteEvent)
    (hroom : ∀ v, ev.vec = some v → v.nbElem ≤ trafficSize) (w : Worker) :
    Ends (appModeOne env w ev) never (Handles env ev w) := by
  cases ev with
  | ethdevVector vec =>
      exact vectorProcess_handles hin hout hports wraps_ethdevVector (hroom vec rfl) w
  | ethRxAdapterVector vec =>
      exact vectorProcess_handles hin hout hports wraps_ethRxAdapterVector (hroom vec rfl) w
  | other eventType mbufs =>
      refine ends_ok ⟨{ passedOver := [.other eventType mbufs] }, ?_, ?_⟩
      · refine ⟨List.Perm.refl _, rfl, rfl, ?_, ?_⟩
        · intro out hmem
          cases hmem
        · intro out hmem
          cases hmem
      · exact ⟨.of_eq (List.append_nil _).symm, (List.append_nil _).symm, rfl,
          (List.append_nil _).symm⟩
  | ethdev pkt =>
      rw [appModeOne]
      -- what one packet may owe to the policies of its direction
      have hclear : ∀ x, (if env.unprotected pkt.port then
            WorkerModel.processIpsecEvInbound env.globals env.inbound env.rt pkt
          else WorkerModel.processIpsecEvOutbound env.globals env.outbound env.rt pkt) = some x →
          Cleared env (.ethdev pkt) pkt x := by
        intro x hx
        split at hx
        · rename_i hdir
          obtain ⟨haddr, hpass⟩ := inbound_letIn hin hx
          exact ⟨haddr, pkt, rfl, by rw [if_pos hdir]; exact hpass⟩
        · rename_i hdir
          obtain ⟨haddr, hpass⟩ := outbound_letOut hout hx
          exact ⟨haddr, pkt, rfl, by rw [if_neg hdir]; exact hpass⟩
      generalize (if env.unprotected pkt.port then
            WorkerModel.processIpsecEvInbound env.globals env.inbound env.rt pkt
          else WorkerModel.processIpsecEvOutbound env.globals env.outbound env.rt pkt) = ret
        at hclear ⊢
      cases ret with
      | none =>
          refine ends_ok ⟨{ freed := [pkt] }, ?_, ?_⟩
          · refine ⟨List.Perm.refl _, rfl, rfl, ?_, ?_⟩
            · intro out hmem
              cases hmem
            · intro out hmem
              cases hmem
          · exact ⟨.of_eq (List.append_nil _).symm, rfl, (List.append_nil _).symm,
              (List.append_nil _).symm⟩
      | some x =>
          have hpass := hclear x rfl
          refine ends_ok ⟨{ sent := [.ethdev x] }, ?_, txEnqueue_adds w _⟩
          constructor
          · show ([x.addr] ++ [] ++ []).Perm [pkt.addr]
            rw [hpass.1]
            exact List.Perm.refl _
          · rfl
          · rfl
          · intro out hmem y hy
            obtain rfl := List.mem_singleton.mp hmem
            obtain rfl := List.mem_singleton.mp hy
            exact ⟨_, List.mem_singleton_self _, pkt, List.mem_singleton_self _, hpass⟩
          · intro out hmem v hv
            obtain rfl := List.mem_singleton.mp hmem
            cases hv

/-- **RUNS IN APPLICATION MODE**: with policies for both families and
    directions, whatever events a worker takes and however the Tx adapter
    answers, no store goes wrong; every packet is handed over, freed or, in an
    event of an invalid type, passed over, and once; a vector that is not
    handed over goes back to its pool; and no packet is handed over that the
    policies of its direction have not let pass. -/
theorem appMode_right (env : WorkerEnv) (hin : Policed env.inbound)
    (hout : Policed env.outbound) (hports : PortsSound env) {nbLinks : UInt8}
    (hlinks : nbLinks ≠ 0) (evs : List RteEvent)
    (hroom : ∀ ev ∈ evs, ∀ v, ev.vec = some v → v.nbElem ≤ trafficSize) :
    ∃ w, ipsecWrkrNonBurstIntPortAppMode env nbLinks evs = .ok w ∧ Right env evs w := by
  rw [ipsecWrkrNonBurstIntPortAppMode, if_neg hlinks]
  refine exists_of_never ?_
  -- the events taken so far, from the front
  refine (ends_foldlM (P := fun todo w => ∃ done, evs = done ++ todo ∧ Right env done w)
    ⟨[], rfl, right_start⟩ ?_).mono (fun _ h => h) ?_
  · rintro ev todo w ⟨done, hsplit, hw⟩
    have hev : ev ∈ evs := by
      rw [hsplit]
      exact List.mem_append_right _ (List.mem_cons_self ..)
    refine (appModeOne_handles hin hout hports ev (hroom ev hev) w).mono
      (fun _ h => h) ?_
    intro w' hw'
    refine ⟨done ++ [ev], ?_, hw.concat hw'⟩
    rw [List.append_assoc]
    exact hsplit
  · rintro w ⟨done, hsplit, hw⟩
    rw [List.append_nil] at hsplit
    rw [hsplit]
    exact hw

/-- Policies that let everything pass. -/
def openCtx : EvCtx := ⟨some fun _ _ => bypass, some fun _ _ => bypass, 0, 1⟩

/-- Port 1 is unprotected; the Tx adapter takes every other event. -/
def openEnv : WorkerEnv where
  globals := blankGlobals
  unprotected port := port == 1
  inbound := openCtx
  outbound := openCtx
  rt := toPortOne
  stack _ := blankTraffic
  accepts n := n % 2 == 0

theorem openCtx_policed : Policed openCtx := ⟨Option.some_ne_none _, Option.some_ne_none _⟩

theorem appMode_right_two :
    ∃ w, ipsecWrkrNonBurstIntPortAppMode openEnv 1
        [.ethdev staleField, .ethdevVector pairOfPackets] = .ok w ∧
      Right openEnv [.ethdev staleField, .ethdevVector pairOfPackets] w := by
  refine appMode_right openEnv openCtx_policed openCtx_policed
    ⟨toPortOne_below, toPortOne_below⟩ (by decide) _ ?_
  intro ev hev v hv
  rcases List.mem_cons.mp hev with rfl | hev
  · cases hv
  · obtain rfl := List.mem_singleton.mp hev
    cases hv
    decide

/-! ## Runs in driver mode -/

variable {drv : DrvEnv} {data : DrvData}

/-- The addresses of packets handed over. -/
def sentAddrs (l : List (List DrvSent)) : List Nat :=
  l.flatMap fun pkts => pkts.map fun x => x.pkt.addr

/-- The events handed to the Tx adapter, taken or not. -/
def DrvWorker.handed (w : DrvWorker) : List (List DrvSent) := w.sent ++ w.refused

/-- The packet `m` of an event is to be sent: the event comes from an unprotected
    port, or the port of `m` has an outbound SA with a session. -/
def Served (drv : DrvEnv) (ev : RteEvent) (m : Mbuf) : Prop :=
  ∃ f, ev.first = some f ∧
    (drv.unprotected f.port = false → firstSession drv.saOut m.port.toNat ≠ none)

/-- The packet `m` of an event has no session to go out under. -/
def Sessionless (drv : DrvEnv) (ev : RteEvent) (m : Mbuf) : Prop :=
  ∃ f, ev.first = some f ∧ drv.unprotected f.port = false ∧
    firstSession drv.saOut m.port.toNat = none

/-- What a packet handed over owes to the packet `m` of an event: from a protected
    port the session of the outbound SA of the port of `m`, else none. -/
def Secured (drv : DrvEnv) (ev : RteEvent) (m : Mbuf) (x : DrvSent) : Prop :=
  x.pkt.addr = m.addr ∧ ∃ f, ev.first = some f ∧
    if drv.unprotected f.port then x.under = none
    else ∃ y, firstSession drv.saOut m.port.toNat = some y ∧ x.under = some y.entry ∧
      x.pkt.olFlags &&& txSecOffload ≠ 0

/-- **WHAT BECOMES OF EVENTS** in driver mode. -/
structure DrvAccounted (drv : DrvEnv) (evs : List RteEvent) (w : DrvWorker) : Prop where
  packets : (sentAddrs w.handed ++ w.freed.map Mbuf.addr ++ addrs w.passedOver).Perm
    (addrs evs)
  /-- every event is handed over with a packet, comes to nothing, or is passed
      over -/
  nonempty : ∀ out ∈ w.handed, out ≠ []
  passedOver : w.passedOver = evs.filter fun ev => !ev.isKnown
  /-- what is handed over goes out under the session that it should -/
  secured : ∀ out ∈ w.handed, ∀ x ∈ out, ∃ ev ∈ evs, ∃ m ∈ ev.packets, Secured drv ev m x
  /-- what has a session, or needs none, is handed over -/
  served : ∀ ev ∈ evs, ∀ m ∈ ev.packets, Served drv ev m →
    ∃ out ∈ w.handed, ∃ x ∈ out, Secured drv ev m x
  /-- what has none is freed, and nothing else -/
  dropped : ∀ ev ∈ evs, ∀ m ∈ ev.packets, Sessionless drv ev m →
    ∃ y ∈ w.freed, y.addr = m.addr
  freed : ∀ y ∈ w.freed, ∃ ev ∈ evs, ∃ m ∈ ev.packets,
    y.addr = m.addr ∧ Sessionless drv ev m

theorem drvAccounted_start : DrvAccounted drv [] {} where
  packets := List.Perm.refl _
  nonempty out hout := by cases hout
  passedOver := rfl
  secured out hout := by cases hout
  served ev hev := by cases hev
  dropped ev hev := by cases hev
  freed y hy := by cases hy

theorem sentAddrs_append (l l' : List (List DrvSent)) :
    sentAddrs (l ++ l') = sentAddrs l ++ sentAddrs l' :=
  List.flatMap_append

/-- What one more event adds to the logs. -/
structure DrvAdds (w w' one : DrvWorker) : Prop where
  handed : w'.handed.Perm (w.handed ++ one.handed)
  freed : w'.freed = w.freed ++ one.freed
  passedOver : w'.passedOver = w.passedOver ++ one.passedOver

/-- **ONE MORE EVENT**. -/
theorem DrvAccounted.concat {evs : List RteEvent} {w w' one : DrvWorker} {ev : RteEvent}
    (h : DrvAccounted drv evs w) (hone : DrvAccounted drv [ev] one)
    (hadds : DrvAdds w w' one) : DrvAccounted drv (evs ++ [ev]) w' := by
  have hmem : ∀ {out}, out ∈ w'.handed ↔ out ∈ w.handed ∨ out ∈ one.handed :=
    fun {out} => hadds.handed.mem_iff.trans List.mem_append
  have hfreed : ∀ {y}, y ∈ w'.freed ↔ y ∈ w.freed ∨ y ∈ one.freed := by
    intro y
    rw [hadds.freed]
    exact List.mem_append
  constructor
  · have hhanded : (sentAddrs w'.handed).Perm
        (sentAddrs w.handed ++ sentAddrs one.handed) := by
      rw [← sentAddrs_append]
      exact hadds.handed.flatMap_right _
    rw [hadds.freed, hadds.passedOver, addrs_append, addrs_append, List.map_append]
    exact accounted_append hhanded h.packets hone.packets
  · intro out hout
    rcases hmem.mp hout with hout | hout
    · exact h.nonempty out hout
    · exact hone.nonempty out hout
  · rw [hadds.passedOver, h.passedOver, hone.passedOver, List.filter_append]
  · intro out hout x hx
    rcases hmem.mp hout with hout | hout
    · obtain ⟨e, he, m, hm, hsec⟩ := h.secured out hout x hx
      exact ⟨e, List.mem_append_left _ he, m, hm, hsec⟩
    · obtain ⟨e, he, m, hm, hsec⟩ := hone.secured out hout x hx
      exact ⟨e, List.mem_append_right _ he, m, hm, hsec⟩
  · intro e he m hm hserved
    rcases List.mem_append.mp he with he | he
    · obtain ⟨out, hout, x, hx⟩ := h.served e he m hm hserved
      exact ⟨out, hmem.mpr (.inl hout), x, hx⟩
    · obtain ⟨out, hout, x, hx⟩ := hone.served e he m hm hserved
      exact ⟨out, hmem.mpr (.inr hout), x, hx⟩
  · intro e he m hm hnone
    rcases List.mem_append.mp he with he | he
    · obtain ⟨y, hy, haddr⟩ := h.dropped e he m hm hnone
      exact ⟨y, hfreed.mpr (.inl hy), haddr⟩
    · obtain ⟨y, hy, haddr⟩ := hone.dropped e he m hm hnone
      exact ⟨y, hfreed.mpr (.inr hy), haddr⟩
  · intro y hy
    rcases hfreed.mp hy with hy | hy
    · obtain ⟨e, he, hsource⟩ := h.freed y hy
      exact ⟨e, List.mem_append_left _ he, hsource⟩
    · obtain ⟨e, he, hsource⟩ := hone.freed y hy
      exact ⟨e, List.mem_append_right _ he, hsource⟩

theorem drvTxEnqueue_adds (w : DrvWorker) (freed : List Mbuf) (pkts : List DrvSent) :
    DrvAdds w ({ w with freed := w.freed ++ freed }.txEnqueue drv pkts)
      { sent := [pkts], freed := freed } := by
  rw [DrvWorker.txEnqueue]
  split
  · refine ⟨?_, rfl, (List.append_nil _).symm⟩
    show (w.sent ++ [pkts] ++ w.refused).Perm (w.sent ++ w.refused ++ [pkts])
    rw [List.append_assoc, List.append_assoc]
    exact List.perm_append_comm.append_left w.sent
  · refine ⟨?_, rfl, (List.append_nil _).symm⟩
    show (w.sent ++ (w.refused ++ [pkts])).Perm (w.sent ++ w.refused ++ [pkts])
    rw [List.append_assoc]

theorem drvTxEnqueue_single (w : DrvWorker) (x : DrvSent) :
    DrvAdds w (w.txEnqueue drv [x]) { sent := [[x]] } := by
  have h : DrvAdds w (DrvWorker.txEnqueue drv _ _) _ := drvTxEnqueue_adds w [] [x]
  rw [List.append_nil] at h
  exact h

/-- What one event of a known type comes to: packets sent, packets freed. -/
structure Dealt (drv : DrvEnv) (ev : RteEvent) (pkts : List DrvSent) (freed : List Mbuf) :
    Prop where
  known : ev.isKnown = true
  packets : (pkts.map (fun x => x.pkt.addr) ++ freed.map Mbuf.addr).Perm
    (ev.packets.map Mbuf.addr)
  secured : ∀ x ∈ pkts, ∃ m ∈ ev.packets, Secured drv ev m x
  served : ∀ m ∈ ev.packets, Served drv ev m → ∃ x ∈ pkts, Secured drv ev m x
  dropped : ∀ m ∈ ev.packets, Sessionless drv ev m → ∃ y ∈ freed, y.addr = m.addr
  freed : ∀ y ∈ freed, ∃ m ∈ ev.packets, y.addr = m.addr ∧ Sessionless drv ev m

/-- The logs of such an event, when something of it is sent. -/
theorem Dealt.sent {ev : RteEvent} {pkts : List DrvSent} {freed : List Mbuf}
    (h : Dealt drv ev pkts freed) (hpkts : pkts ≠ []) :
    DrvAccounted drv [ev] { sent := [pkts], freed := freed } := by
  constructor
  · show (pkts.map (fun x : DrvSent => x.pkt.addr) ++ [] ++ freed.map Mbuf.addr ++ []).Perm _
    rw [List.append_nil, List.append_nil, addrs_singleton]
    exact h.packets
  · intro out hmem
    rw [List.mem_singleton.mp hmem]
    exact hpkts
  · simp [h.known]
  · intro out hmem x hx
    obtain rfl := List.mem_singleton.mp hmem
    exact ⟨ev, List.mem_singleton_self _, h.secured x hx⟩
  · intro e he m hm hserved
    obtain rfl := List.mem_singleton.mp he
    exact ⟨pkts, List.mem_singleton_self _, h.served m hm hserved⟩
  · intro e he m hm hnone
    obtain rfl := List.mem_singleton.mp he
    exact h.dropped m hm hnone
  · intro y hy
    exact ⟨ev, List.mem_singleton_self _, h.freed y hy⟩

/-- The logs of such an event, when nothing is left to send. -/
theorem Dealt.nothing {ev : RteEvent} {freed : List Mbuf} (h : Dealt drv ev [] freed) :
    DrvAccounted drv [ev] { freed := freed } := by
  constructor
  · show (freed.map Mbuf.addr ++ []).Perm _
    rw [List.append_nil, addrs_singleton]
    exact h.packets
  · intro out hmem
    cases hmem
  · simp [h.known]
  · intro out hmem
    cases hmem
  · intro e he m hm hserved
    obtain rfl := List.mem_singleton.mp he
    obtain ⟨x, hx, -⟩ := h.served m hm hserved
    cases hx
  · intro e he m hm hnone
    obtain rfl := List.mem_singleton.mp he
    exact h.dropped m hm hnone
  · intro y hy
    exact ⟨ev, List.mem_singleton_self _, h.freed y hy⟩

/-- The flag a packet is marked with is set. -/
theorem or_txSecOffload (flags : UInt64) : (flags ||| txSecOffload) &&& txSecOffload ≠ 0 := by
  intro h
  have hbit := congrArg (fun x : UInt64 => x.toBitVec.getLsbD 43) h
  simp [txSecOffload] at hbit

/-- **A PACKET WITH A SESSION** is marked for that of the SA of its port. -/
theorem drvProtect_served {pkt : Mbuf} {y : OutSa}
    (h : EntryRight drv.saOut pkt.port.toNat (data pkt.port.toNat))
    (hy : firstSession drv.saOut pkt.port.toNat = some y) :
    ∃ x, drvProtect drv.setMetadata data pkt = some x ∧ x.pkt.addr = pkt.addr ∧
      x.under = some y.entry ∧ x.pkt.olFlags &&& txSecOffload ≠ 0 := by
  have hdata : data pkt.port.toNat = y.entry := by
    rw [EntryRight, hy] at h
    exact h
  have hses : (data pkt.port.toNat).sess ≠ none := by
    rw [hdata]
    exact (hasSession_iff.mp (List.find?_some hy)).2.2
  rw [drvProtect]
  dsimp only
  rw [if_neg hses]
  exact ⟨_, rfl, drv.setMetadata_addr _ _, congrArg some hdata, or_txSecOffload _⟩

/-- **A PACKET WITHOUT ONE** is freed. -/
theorem drvProtect_sessionless {pkt : Mbuf}
    (h : EntryRight drv.saOut pkt.port.toNat (data pkt.port.toNat))
    (hnone : firstSession drv.saOut pkt.port.toNat = none) :
    drvProtect drv.setMetadata data pkt = none :=
  (drvProtect_right drv.setMetadata_addr h).2 hnone

/-- **A VECTOR OF AN UNPROTECTED PORT** goes on as it is. -/
theorem dealt_clear {ev : RteEvent} {f : Mbuf} (hfirst : ev.first = some f)
    (hdir : drv.unprotected f.port = true) {pkts : List DrvSent}
    (haddrs : pkts.map (fun x => x.pkt.addr) = ev.packets.map Mbuf.addr)
    (hunder : ∀ x ∈ pkts, x.under = none) : Dealt drv ev pkts [] := by
  have hsecured : ∀ {m x}, x ∈ pkts → x.pkt.addr = m.addr → Secured drv ev m x := by
    intro m x hx haddr
    refine ⟨haddr, f, hfirst, ?_⟩
    rw [if_pos hdir]
    exact hunder x hx
  constructor
  · rw [RteEvent.isKnown, hfirst]
    rfl
  · rw [List.map_nil, List.append_nil, haddrs]
  · intro x hx
    have hmem : x.pkt.addr ∈ ev.packets.map Mbuf.addr := by
      rw [← haddrs]
      exact List.mem_map_of_mem hx
    obtain ⟨m, hm, haddr⟩ := List.mem_map.mp hmem
    exact ⟨m, hm, hsecured hx haddr.symm⟩
  · intro m hm _
    have hmem : m.addr ∈ pkts.map fun x => x.pkt.addr := by
      rw [haddrs]
      exact List.mem_map_of_mem hm
    obtain ⟨x, hx, haddr⟩ := List.mem_map.mp hmem
    exact ⟨x, hx, hsecured hx haddr⟩
  · rintro m - ⟨f', hf', hprot, -⟩
    rw [hfirst] at hf'
    obtain rfl := Option.some.inj hf'
    exact absurd (hdir.symm.trans hprot) (by decide)
  · intro y hy
    cases hy

/-- What the loop over a vector sends and frees. -/
theorem drvVector_packets (vec : List Mbuf) :
    ((vec.filterMap (drvProtect drv.setMetadata data)).map (fun x => x.pkt.addr) ++
      (vec.filter fun pkt => (drvProtect drv.setMetadata data pkt).isNone).map
        Mbuf.addr).Perm (vec.map Mbuf.addr) := by
  induction vec with
  | nil => exact List.Perm.refl _
  | cons m vec ih =>
      cases hm : drvProtect drv.setMetadata data m with
      | none =>
          rw [List.filterMap_cons_none hm, List.filter_cons_of_pos (by rw [hm]; rfl)]
          exact List.perm_middle.trans (ih.cons m.addr)
      | some x =>
          have haddr : x.pkt.addr = m.addr := by
            rw [drvProtect] at hm
            dsimp only at hm
            split at hm
            · cases hm
            · cases hm
              exact drv.setMetadata_addr _ _
          rw [List.filterMap_cons_some hm,
            List.filter_cons_of_neg (by rw [hm]; exact Bool.false_ne_true),
            List.map_cons, haddr]
          exact ih.cons m.addr

/-- **PACKETS OF A PROTECTED PORT** go to the sessions of their ports. -/
theorem dealt_protected
    (htable : ∀ p, p < rteMaxEthports.toNat → EntryRight drv.saOut p (data p))
    {ev : RteEvent} {f : Mbuf} (hfirst : ev.first = some f)
    (hdir : ¬ drv.unprotected f.port = true)
    (hports : ∀ m ∈ ev.packets, m.port < rteMaxEthports) :
    Dealt drv ev (ev.packets.filterMap (drvProtect drv.setMetadata data))
      (ev.packets.filter fun pkt => (drvProtect drv.setMetadata data pkt).isNone) := by
  have hentry : ∀ m ∈ ev.packets,
      EntryRight drv.saOut m.port.toNat (data m.port.toNat) :=
    fun m hm => htable _ (UInt16.lt_iff_toNat_lt.mp (hports m hm))
  have hserved : ∀ m ∈ ev.packets, ∀ y, firstSession drv.saOut m.port.toNat = some y →
      ∃ x, drvProtect drv.setMetadata data m = some x ∧ Secured drv ev m x := by
    intro m hm y hy
    obtain ⟨x, hx, haddr, hunder, hflag⟩ := drvProtect_served (hentry m hm) hy
    refine ⟨x, hx, haddr, f, hfirst, ?_⟩
    rw [if_neg hdir]
    exact ⟨y, hy, hunder, hflag⟩
  constructor
  · rw [RteEvent.isKnown, hfirst]
    rfl
  · exact drvVector_packets _
  · intro x hx
    obtain ⟨m, hm, hmx⟩ := List.mem_filterMap.mp hx
    cases hy : firstSession drv.saOut m.port.toNat with
    | none =>
        rw [drvProtect_sessionless (hentry m hm) hy] at hmx
        cases hmx
    | some y =>
        obtain ⟨x', hx', hsec⟩ := hserved m hm y hy
        rw [hx'] at hmx
        obtain rfl := Option.some.inj hmx
        exact ⟨m, hm, hsec⟩
  · rintro m hm ⟨f', hf', hses⟩
    rw [hfirst] at hf'
    obtain rfl := Option.some.inj hf'
    obtain ⟨y, hy⟩ := Option.ne_none_iff_exists'.mp (hses (Bool.not_eq_true _ ▸ hdir))
    obtain ⟨x, hx, hsec⟩ := hserved m hm y hy
    exact ⟨x, List.mem_filterMap.mpr ⟨m, hm, hx⟩, hsec⟩
  · rintro m hm ⟨-, -, -, hnone⟩
    refine ⟨m, List.mem_filter.mpr ⟨hm, ?_⟩, rfl⟩
    rw [drvProtect_sessionless (hentry m hm) hnone]
    rfl
  · intro m hmem
    obtain ⟨hm, hfreed⟩ := List.mem_filter.mp hmem
    refine ⟨m, hm, rfl, f, hfirst, Bool.not_eq_true _ ▸ hdir, ?_⟩
    by_contra hses
    obtain ⟨y, hy⟩ := Option.ne_none_iff_exists'.mp hses
    obtain ⟨x, hx, -⟩ := hserved m hm y hy
    rw [hx] at hfreed
    cases hfreed

theorem ipsecEventPreForward_self (pkt : Mbuf) : ipsecEventPreForward pkt pkt.port = pkt :=
  rfl

section table

variable (htable : ∀ p, p < rteMaxEthports.toNat → EntryRight drv.saOut p (data p))
include htable

/-- **A VECTOR EVENT** in driver mode. -/
theorem drvVectorProcess_accounted {wrap : RteEventVector → RteEvent} (hwrap : Wraps wrap)
    (vec : RteEventVector) (hports : ∀ m ∈ vecPackets vec, m.port < rteMaxEthports)
    (w : DrvWorker) :
    ∃ one, DrvAccounted drv [wrap vec] one ∧
      DrvAdds w (ipsecEvVectorDrvModeProcess drv data vec w) one := by
  obtain ⟨pkts, freed, hfn, hdealt⟩ : ∃ pkts freed,
      (if drv.unprotected (vec.mbufs 0).port then
        ((vecPackets vec).map fun m => (⟨m, none⟩ : DrvSent), [])
      else processIpsecEvDrvModeOutboundVector drv.setMetadata (vecPackets vec) data)
        = (pkts, freed) ∧ Dealt drv (wrap vec) pkts freed := by
    by_cases hdir : drv.unprotected (vec.mbufs 0).port = true
    · rw [if_pos hdir]
      refine ⟨_, _, rfl, dealt_clear (hwrap.first vec) hdir ?_ ?_⟩
      · rw [List.map_map, hwrap.packets]
        rfl
      · intro x hx
        obtain ⟨m, -, rfl⟩ := List.mem_map.mp hx
        rfl
    · rw [if_neg hdir, processIpsecEvDrvModeOutboundVector, drvVector_eq]
      rw [← hwrap.packets vec] at hports ⊢
      exact ⟨_, _, rfl, dealt_protected htable (hwrap.first vec) hdir hports⟩
  rw [ipsecEvVectorDrvModeProcess, hfn]
  dsimp only
  by_cases hlen : 0 < pkts.length
  · rw [if_pos hlen]
    exact ⟨_, hdealt.sent (List.ne_nil_of_length_pos hlen), drvTxEnqueue_adds w freed pkts⟩
  · rw [if_neg hlen]
    obtain rfl := List.eq_nil_of_length_eq_zero (Nat.eq_zero_of_not_pos hlen)
    exact ⟨_, hdealt.nothing, .of_eq (List.append_nil _).symm, rfl,
      (List.append_nil _).symm⟩

/-- **ONE EVENT** in driver mode. -/
theorem drvModeOne_accounted (ev : RteEvent)
    (hports : ∀ m ∈ ev.packets, m.port < rteMaxEthports) (w : DrvWorker) :
    ∃ one, DrvAccounted drv [ev] one ∧ DrvAdds w (drvModeOne drv data w ev) one := by
  cases ev with
  | ethdevVector vec => exact drvVectorProcess_accounted htable wraps_ethdevVector vec hports w
  | ethRxAdapterVector vec =>
      exact drvVectorProcess_accounted htable wraps_ethRxAdapterVector vec hports w
  | other eventType mbufs =>
      refine ⟨{ passedOver := [.other eventType mbufs] },
        ⟨List.Perm.refl _, ?_, rfl, ?_, ?_, ?_, ?_⟩, .of_eq (List.append_nil _).symm,
        (List.append_nil _).symm, rfl⟩
      · intro out hmem
        cases hmem
      · intro out hmem
        cases hmem
      · intro e he m hm hserved
        obtain rfl := List.mem_singleton.mp he
        obtain ⟨f, hf, -⟩ := hserved
        cases hf
      · intro e he m hm hnone
        obtain rfl := List.mem_singleton.mp he
        obtain ⟨f, hf, -⟩ := hnone
        cases hf
      · intro y hy
        cases hy
  | ethdev pkt =>
      rw [drvModeOne, drvModeEvent]
      by_cases hdir : drv.unprotected (ipsecEventPreForward pkt pkt.port).port = true
      · rw [if_pos hdir]
        have hdealt : Dealt drv (.ethdev pkt) [⟨ipsecEventPreForward pkt pkt.port, none⟩] [] :=
          dealt_clear rfl hdir rfl fun x hx => by rw [List.mem_singleton.mp hx]
        exact ⟨_, hdealt.sent (List.cons_ne_nil _ _), drvTxEnqueue_single w _⟩
      · rw [if_neg hdir]
        rw [ipsecEventPreForward_self] at hdir ⊢
        have hdealt : Dealt drv (.ethdev pkt) _ _ := dealt_protected htable rfl hdir hports
        rw [RteEvent.packets] at hdealt
        cases hx : drvProtect drv.setMetadata data pkt with
        | none =>
            rw [List.filterMap_cons_none hx, List.filterMap_nil,
              List.filter_cons_of_pos (by rw [hx]; rfl), List.filter_nil] at hdealt
            exact ⟨_, hdealt.nothing, .of_eq (List.append_nil _).symm, rfl,
              (List.append_nil _).symm⟩
        | some x =>
            rw [List.filterMap_cons_some hx, List.filterMap_nil,
              List.filter_cons_of_neg (by rw [hx]; exact Bool.false_ne_true),
              List.filter_nil] at hdealt
            exact ⟨_, hdealt.sent (List.cons_ne_nil _ _), drvTxEnqueue_single w _⟩

end table

/-- **RUNS IN DRIVER MODE**, when what is left on the stack of the worker holds no
    session: every packet is handed over, freed or, in an event of an invalid
    type, passed over, and once; no event is handed over without a packet; a
    packet of a protected port goes out under the session of the outbound SA of
    its port, and is freed exactly when there is none. -/
theorem drvMode_accounted (drv : DrvEnv) (hleft : LeftoverHarmless drv.saOut drv.stack)
    {nbLinks : UInt8} (hlinks : nbLinks ≠ 0) (evs : List RteEvent)
    (hports : ∀ ev ∈ evs, ∀ m ∈ ev.packets, m.port < rteMaxEthports) :
    DrvAccounted drv evs (ipsecWrkrNonBurstIntPortDrvMode drv nbLinks evs) := by
  rw [ipsecWrkrNonBurstIntPortDrvMode, if_neg hlinks]
  induction evs using List.reverseRecOn with
  | nil => exact drvAccounted_start
  | append_singleton evs ev ih =>
      rw [List.foldl_append, List.foldl_cons, List.foldl_nil]
      have hbefore := ih fun e he => hports e (List.mem_append_left _ he)
      obtain ⟨one, hone, hadds⟩ := drvModeOne_accounted (fun p hp => hleft.entry hp) ev
        (hports ev (List.mem_append_right _ (List.mem_singleton_self _))) _
      exact hbefore.concat hone hadds

/-- Port 0 is unprotected; port 1 has an SA, and the stack a context for it but no
    session. -/
def portOneDrv : DrvEnv where
  unprotected port := port == 0
  setMetadata d m := { m with dynSa := d.sess }
  setMetadata_addr _ _ := rfl
  saOut := some [portOneSa]
  stack p := if p = 1 then ⟨none, some 9⟩ else {}
  accepts _ := true

/-- A packet of port 1 and one of port 2. -/
def portsOneTwo : RteEventVector :=
  { pairOfPackets with
    mbufs i := { staleField with addr := i, port := if i = 0 then 1 else 2 } }

/-- The packet of port 1 goes out under the session of its SA, that of port 2 is
    freed, and one of port 0 goes on as it is. -/
theorem drvMode_accounted_ports :
    let evs := [.ethdevVector portsOneTwo, .ethdev { staleField with addr := 2, port := 0 }]
    let w := ipsecWrkrNonBurstIntPortDrvMode portOneDrv 1 evs
    DrvAccounted portOneDrv evs w ∧
      w.handed.map (List.map DrvSent.under) = [[some portOneSa.entry], [none]] ∧
      w.freed.map Mbuf.addr = [1] := by
  refine ⟨drvMode_accounted portOneDrv ?_ (by decide) _ ?_, rfl, rfl⟩
  · intro p _ _
    left
    show (if p = 1 then (⟨none, some 9⟩ : PortDrvModeData) else {}).sess = none
    split
    · rfl
    · rfl
  · have hports : ∀ i, (portsOneTwo.mbufs i).port < rteMaxEthports := by
      intro i
      show (if i = 0 then (1 : UInt16) else 2) < rteMaxEthports
      split
      · decide
      · decide
    intro ev hev m hm
    rcases List.mem_cons.mp hev with rfl | hev
    · obtain ⟨i, -, rfl⟩ := List.mem_map.mp hm
      exact hports i
    · obtain rfl := List.mem_singleton.mp hev
      obtain rfl := List.mem_singleton.mp hm
      decide

end EventWorker
