import IpsecSecgw.EspHeaderProofs
import IpsecSecgw.GroupHandlingProofs

/-! # Outbound policies are enforced

    `process_pkts_outbound` with policies of both families: the two passes sort
    the cleartext packets of a burst by their rules, packets for an SA go through
    the crypto together with the SA their rule names, and only those that a
    session of this SA has processed come back beside the BYPASS packets. -/

namespace OutboundPolicy

open SaModel IpsecModel WorkerModel SecgwModel Outcome Sweep Handling
open Esp (espOutbound)
open CryptoQueue (CallFault CtxOk Resting)
open PacketMoves (Moves Once content)
open Transfer (Transfers)

/-! ## What the rules of a family say -/

variable (acl : SpCtx) (off : Nat) (w : World)

/-- The packets with a BYPASS rule. -/
def passed (pkts : List PktId) : List PktId :=
  pkts.filter fun p => aclResult acl w off p = bypass

/-- The packets with a DISCARD rule. -/
def dropped (pkts : List PktId) : List PktId :=
  pkts.filter fun p => aclResult acl w off p = SaModel.discard

/-- The packets with a PROTECT rule, each with the index of its SA: the number
    the rule carries, less one. -/
def secured (pkts : List PktId) : List (PktId × UInt32) :=
  (pkts.filter fun p => aclResult acl w off p ≠ SaModel.discard
    ∧ aclResult acl w off p ≠ bypass).map fun p => (p, aclResult acl w off p - 1)

/-- The counters, with the packets of a family counted. -/
def counted (pkts : List PktId) (stats : SpdStats) : SpdStats where
  protect := stats.protect + (secured acl off w pkts).length
  bypass := stats.bypass + (passed acl off w pkts).length
  discard := stats.discard + (dropped acl off w pkts).length

variable {acl off w}

theorem mem_secured {pkts : List PktId} {x : PktId} {idx : UInt32}
    (h : (x, idx) ∈ secured acl off w pkts) :
    x ∈ pkts ∧ aclResult acl w off x ≠ SaModel.discard ∧ aclResult acl w off x ≠ bypass
      ∧ idx = aclResult acl w off x - 1 := by
  obtain ⟨p, hp, heq⟩ := List.mem_map.mp h
  obtain ⟨rfl, rfl⟩ := Prod.mk.inj heq
  obtain ⟨hin, hrule⟩ := List.mem_filter.mp hp
  obtain ⟨hd, hb⟩ := of_decide_eq_true hrule
  exact ⟨hin, hd, hb, rfl⟩

variable (acl off w) in
/-- **EACH PACKET** has one rule. -/
theorem sorted_perm (pkts : List PktId) :
    (passed acl off w pkts ++ dropped acl off w pkts
      ++ (secured acl off w pkts).map Prod.fst).Perm pkts := by
  have hfst : (secured acl off w pkts).map Prod.fst
      = (pkts.filter fun p => !decide (aclResult acl w off p = bypass)).filter
        fun p => !decide (aclResult acl w off p = SaModel.discard) := by
    rw [secured, List.map_map, List.filter_filter]
    refine (List.map_id _).trans (List.filter_congr ?_)
    intro p _
    simp
  have hdropped : dropped acl off w pkts
      = (pkts.filter fun p => !decide (aclResult acl w off p = bypass)).filter
        fun p => decide (aclResult acl w off p = SaModel.discard) := by
    rw [dropped, List.filter_filter]
    refine List.filter_congr ?_
    intro p _
    by_cases h : aclResult acl w off p = SaModel.discard
    · simp [h, SaModel.discard, bypass]
    · simp [h]
  rw [hfst, hdropped, List.append_assoc]
  exact ((List.filter_append_perm _ _).append_left _).trans (List.filter_append_perm _ _)

/-- **ONE PASS** sorts the packets of a family. -/
theorem keptFrom_outbound (i : Nat) (pkts : List PktId) (s : SpdLookup) :
    keptFrom (outboundSpdOne acl off w) i pkts s
      = (passed acl off w pkts,
        { stats := counted acl off w pkts s.stats
          freed := s.freed ++ dropped acl off w pkts
          ipsec := s.ipsec ++ secured acl off w pkts }) := by
  induction pkts generalizing i s with
  | nil => simp [keptFrom, passed, dropped, secured, counted]
  | cons p pkts ih =>
      rw [keptFrom, ih, outboundSpdOne]
      have hne : SaModel.discard ≠ bypass := by decide
      by_cases hd : aclResult acl w off p = SaModel.discard
      · simp [hd, hne, passed, dropped, secured, counted, Nat.add_assoc,
          Nat.add_comm 1]
      · by_cases hb : aclResult acl w off p = bypass
        · simp [hb, hne.symm, passed, dropped, secured, counted, Nat.add_assoc,
            Nat.add_comm 1]
        · simp [hd, hb, passed, dropped, secured, counted, Nat.add_assoc, Nat.add_comm 1]

/-! ## Both families -/

variable (acl4 acl6 : SpCtx)

/-- What the rules leave in the clear. -/
def clear (w : World) (trf : Traffic) : Traffic :=
  ⟨passed acl4 ip4Proto w trf.ip4, passed acl6 ip6Proto w trf.ip6⟩

/-- The packets for an SA, in the order of the shared array. -/
def toSecure (w : World) (trf : Traffic) : List (PktId × UInt32) :=
  secured acl4 ip4Proto w trf.ip4 ++ secured acl6 ip6Proto w trf.ip6

/-- What the rules discard. -/
def discarded (w : World) (trf : Traffic) : List PktId :=
  dropped acl4 ip4Proto w trf.ip4 ++ dropped acl6 ip6Proto w trf.ip6

/-- The counters of both families. -/
def allCounted (w : World) (trf : Traffic) (stats : DirStats) : DirStats :=
  ⟨counted acl4 ip4Proto w trf.ip4 stats.spd4, counted acl6 ip6Proto w trf.ip6 stats.spd6⟩

variable {acl4 acl6}

variable (acl4 acl6) in
/-- **NO PACKET IS LOST OR DOUBLED** between the passes and the shared array. -/
theorem both_perm (w : World) (trf : Traffic) :
    ((clear acl4 acl6 w trf).ip4 ++ (clear acl4 acl6 w trf).ip6
      ++ discarded acl4 acl6 w trf ++ (toSecure acl4 acl6 w trf).map Prod.fst).Perm
      (trf.ip4 ++ trf.ip6) := by
  have h4 := sorted_perm acl4 ip4Proto w trf.ip4
  have h6 := sorted_perm acl6 ip6Proto w trf.ip6
  refine List.Perm.trans ?_ (h4.append h6)
  rw [toSecure, List.map_append]
  refine List.perm_iff_count.mpr ?_
  intro x
  simp only [clear, discarded, List.count_append]
  omega

/-- **BOTH PASSES**. -/
theorem outboundPolicies_eq {ctx : EvCtx} (h4 : ctx.sp4Ctx = some acl4)
    (h6 : ctx.sp6Ctx = some acl6) (trf : Traffic) (stats : DirStats) (w : World) :
    outboundPolicies ctx trf stats w
      = (clear acl4 acl6 w trf, toSecure acl4 acl6 w trf, allCounted acl4 acl6 w trf stats,
        (w.freePkts (dropped acl4 ip4Proto w trf.ip4)).freePkts
          (dropped acl6 ip6Proto w trf.ip6)) := by
  have hpass : ∀ acl off w' pkts ipsec stats,
      outboundSpdLookup (some acl) off pkts ipsec stats w'
        = (passed acl off w' pkts, ipsec ++ secured acl off w' pkts,
          counted acl off w' pkts stats, w'.freePkts (dropped acl off w' pkts)) := by
    intro acl off w' pkts ipsec stats
    rw [outboundSpdLookup, sweep_eq, keptFrom_outbound, List.nil_append]
  rw [outboundPolicies, h4, h6, hpass, hpass, List.nil_append]
  rfl

/-- The packets that come out of the crypto on the legacy path join the
    traffic. -/
theorem appendOne_grown (w : World) (pkts : List PktId) (trf : Traffic) :
    Grown trf pkts (pkts.foldl (appendOne w) trf) := by
  induction pkts generalizing trf with
  | nil => exact Grown.refl trf
  | cons p pkts ih =>
      have hone : Grown trf [p] (appendOne w trf p) := by
        rw [appendOne]
        split
        · exact ⟨[p], [], rfl, (List.append_nil _).symm, List.Perm.refl _⟩
        · exact ⟨[], [p], (List.append_nil _).symm, rfl, List.Perm.refl _⟩
      exact hone.trans (ih _)

/-- A single group is of its own session. -/
theorem group_singleton {ref : SaRef} {ops : List PktId} :
    ∀ g ∈ [(ref, ops)], ∀ p ∈ g.2, ref = g.1 := by
  intro g hg p _
  rw [List.mem_singleton.mp hg]

theorem flatMap_group {ref : SaRef} {ops : List PktId} :
    ([(ref, ops)].flatMap Prod.snd).Perm ops :=
  List.Perm.of_eq (List.append_nil ops)

/-- Operations that are all of one session. -/
def oneGroup : CryptoGroup where
  opSession := fun _ => (0, false)
  group := fun _ ops => [((0, false), ops)]
  group_perm := fun _ _ => flatMap_group
  group_session := fun _ _ => group_singleton

/-- What comes back from the crypto, and what has been freed there. -/
structure CameBack (burst : List (PktId × Option SaRef)) (s : State)
    (out : List PktId) (s' : State) : Prop where
  credited : Credited False .egress burst s out s'
  nodup : out.Nodup
  rest : s'.1.olPkts = []
  freed : ∃ l, Moves s (burst.map Prod.fst) out l s'
    ∧ ∀ x ∈ l, Waits s x ∨ x ∈ burst.map Prod.fst ∧ x ∉ out

/-- The packets a call frees are those its balance says. -/
theorem cameBack {burst : List (PktId × Option SaRef)} {s s' : State} {out l : List PktId}
    {R : World → PktId → Prop} (hhandled : Handled False R s burst out s')
    (hcredited : Credited False .egress burst s out s') (hrest : s'.1.olPkts = [])
    (hmoves : Moves s (burst.map Prod.fst) out l s') : CameBack burst s out s' := by
  obtain ⟨l', hl', hwhy⟩ := hhandled.freed
  obtain rfl := hmoves.freed_eq hl'
  exact ⟨hcredited, hhandled.nodup, hrest, l, hmoves, hwhy⟩

/-- **OUTBOUND CRYPTO**: what joins the traffic are packets of the burst, each
    processed by a session of the SA it was handed over with.  A null pointer,
    such as `esp_outbound` meets in a packet without room for its headers, is the
    only fault. -/
theorem outboundCrypto_handled (env : Env) (conf : PollConf)
    {burst : List (PktId × Option SaRef)} (hnodup : (burst.map Prod.fst).Nodup)
    (hlen : burst.length ≤ maxPktBurst) (trf : Traffic) {s : State}
    (hrest : Resting env.lcoreId True s)
    (hshort : ∀ i, (s.1.tbl i).buf.length < maxPktBurst) :
    Ends (outboundCrypto env conf burst trf s) (· = .null)
      (fun r => ∃ out, Grown trf out r.1 ∧ CameBack burst s out r.2) := by
  obtain ⟨hctx, hol⟩ := hrest
  have hlegacy : Ends (ipsecBurst env espOutbound espOutboundPostFn burst maxPktBurst s
      >>= fun r => pure (r.1.foldl (appendOne r.2.2) trf, r.2) : Except Fault (Traffic × State))
      (· = .null) (fun r => ∃ out, Grown trf out r.1 ∧ CameBack burst s out r.2) := by
    have hok := CryptoQueue.ipsecBurst_ok env (CryptoQueue.enqueueXform_keeps .egress)
      (CryptoQueue.dequeueXform_keeps .egress) hctx fun h => ⟨hol h, hlen⟩
    have hnull : ∀ e, CallFault True e → e = .null := by
      rintro e (he | ⟨-, he⟩)
      · exact he
      · exact absurd trivial he
    refine (((hok.mono hnull fun _ h => h).and
      (ipsecBurst_handled (K := False) env .egress hnodup maxPktBurst (hol trivial))).and
      (PacketMoves.ipsecBurst_moves env .egress burst maxPktBurst s)).bind ?_
    rintro ⟨out, s'⟩ ⟨⟨⟨-, hol'⟩, hhandled, hcredit⟩, l, hmoves⟩
    exact ends_pure ⟨out, appendOne_grown s'.2 out trf,
      cameBack hhandled hcredit (hol' trivial) hmoves⟩
  rw [outboundCrypto]
  split
  · have hlaws : False → Lawful env oneGroup := False.elim
    refine ((IpsecProcess.ipsecProcess_placed env burst trf hshort).and
      (ipsecProcess_handled hlaws .egress hnodup trf s)).mono (fun _ h => h) ?_
    rintro r ⟨⟨places, hplaced⟩, out, h⟩
    obtain ⟨l, hmoves⟩ := h.moves
    exact ⟨out, h.grown,
      cameBack h.handled h.credited (hplaced.ctx.olPkts.trans (hol trivial)) hmoves⟩
  · exact hlegacy

/-! ## A burst -/

/-- What is left of an outbound burst: BYPASS packets in their order, and behind
    them PROTECT packets that a session of the SA their rule names has
    processed. -/
structure Enforced (acl4 acl6 : SpCtx) (ctx : EvCtx) (t : Burst) (stats : DirStats)
    (s : State) (o4 o6 : List PktId) (r : Traffic × DirStats × State) : Prop where
  ip4 : r.1.ip4 = (clear acl4 acl6 s.2 t.trf).ip4 ++ o4
  ip6 : r.1.ip6 = (clear acl4 acl6 s.2 t.trf).ip6 ++ o6
  once : (o4 ++ o6).Nodup
  through : ∃ l, r.2.2.2.processed = s.2.processed ++ l
    ∧ ∀ x ∈ o4 ++ o6, ∃ idx fb type, (x, idx) ∈ toSecure acl4 acl6 s.2 t.trf
      ∧ (x, (ctx.saCtx.entry idx, fb), type) ∈ l
  stats : r.2.1 = allCounted acl4 acl6 s.2 t.trf stats
  /-- apart from the discarded packets, only packets the crypto does not give
      back are freed, so that each PROTECT packet comes back, is freed or waits in
      a queue -/
  freed : ∃ l, r.2.2.2.freed
      = s.2.freed ++ t.ipsec ++ discarded acl4 acl6 s.2 t.trf ++ l
    ∧ (∀ x ∈ l, Waits s x
      ∨ x ∈ (toSecure acl4 acl6 s.2 t.trf).map Prod.fst ∧ x ∉ o4 ++ o6)
    ∧ Transfers (content s) ((toSecure acl4 acl6 s.2 t.trf).map Prod.fst : List PktId)
      (o4 ++ o6 ++ l : List PktId) (content r.2.2)
    ∧ ∀ x ∈ (toSecure acl4 acl6 s.2 t.trf).map Prod.fst, (∀ k, x ∉ content s k) →
      Once r.2.2 (o4 ++ o6 ++ l) x
  /-- the array of inline packets holds none of them -/
  rest : r.2.2.1.olPkts = []

/-- `stats` has grown by the packets of a family. -/
def Adds (n : Nat) (stats stats' : SpdStats) : Prop :=
  stats'.protect + stats'.bypass + stats'.discard
    = stats.protect + stats.bypass + stats.discard + n

theorem counted_adds (acl : SpCtx) (off : Nat) (w : World) (pkts : List PktId)
    (stats : SpdStats) : Adds pkts.length stats (counted acl off w pkts stats) := by
  have h := (sorted_perm acl off w pkts).length_eq
  simp only [List.length_append, List.length_map] at h
  show stats.protect + (secured acl off w pkts).length
    + (stats.bypass + (passed acl off w pkts).length)
    + (stats.discard + (dropped acl off w pkts).length) = _
  omega

/-- The world behind the two lookups: the packets classified as IPsec are freed,
    and those with a DISCARD rule. -/
def lookedUp (acl4 acl6 : SpCtx) (t : Burst) (w : World) : World :=
  ((w.freePkts t.ipsec).freePkts (dropped acl4 ip4Proto w t.trf.ip4)).freePkts
    (dropped acl6 ip6Proto w t.trf.ip6)

/-- **HANDING OVER**: the PROTECT packets go to the crypto, each once and with
    the SA its rule names. -/
theorem processPktsOutbound_hands (env : Env) (conf : PollConf) {ctx : EvCtx}
    {acl4 acl6 : SpCtx} (h4 : ctx.sp4Ctx = some acl4) (h6 : ctx.sp6Ctx = some acl6)
    (t : Burst) (stats : DirStats) (s : State) :
    processPktsOutbound env conf ctx t stats s
      = outboundCrypto env conf
          (outboundSaLookup ctx.saCtx (toSecure acl4 acl6 s.2 t.trf))
          (clear acl4 acl6 s.2 t.trf) (s.1, lookedUp acl4 acl6 t s.2)
        >>= fun r => pure (r.1, allCounted acl4 acl6 s.2 t.trf stats, r.2) := by
  rw [processPktsOutbound, outboundPolicies_eq h4 h6]
  rfl

/-- What the crypto of either path is called with, and what joins the traffic. -/
theorem outboundCrypto_eq (env : Env) (conf : PollConf)
    (burst : List (PktId × Option SaRef)) (trf : Traffic) (s : State) :
    outboundCrypto env conf burst trf s
      = if conf.enable then ipsecProcess env burst trf s
        else ipsecBurst env espOutbound espOutboundPostFn burst maxPktBurst s
          >>= fun r => pure (r.1.foldl (appendOne r.2.2) trf, r.2) := rfl

/-- **OUTBOUND POLICIES ARE ENFORCED**: every packet of a burst has one rule,
    the PROTECT packets are handed to `ipsec_process` or `ipsec_outbound` with
    their SAs, the counters grow by the packets of their family, and of the
    packets behind the crypto `Enforced` says the rest. -/
theorem outbound_policies_enforced (env : Env) (conf : PollConf) {ctx : EvCtx}
    {acl4 acl6 : SpCtx} (h4 : ctx.sp4Ctx = some acl4) (h6 : ctx.sp6Ctx = some acl6)
    (t : Burst) (hnodup : (t.trf.ip4 ++ t.trf.ip6).Nodup)
    (hlen : (t.trf.ip4 ++ t.trf.ip6).length ≤ maxPktBurst) (stats : DirStats)
    {s : State} (hrest : Resting env.lcoreId True s)
    (hshort : ∀ i, (s.1.tbl i).buf.length < maxPktBurst) :
    ((clear acl4 acl6 s.2 t.trf).ip4 ++ (clear acl4 acl6 s.2 t.trf).ip6
        ++ discarded acl4 acl6 s.2 t.trf
        ++ (toSecure acl4 acl6 s.2 t.trf).map Prod.fst).Perm (t.trf.ip4 ++ t.trf.ip6)
      ∧ processPktsOutbound env conf ctx t stats s
        = ((if conf.enable then
            ipsecProcess env (outboundSaLookup ctx.saCtx (toSecure acl4 acl6 s.2 t.trf))
              (clear acl4 acl6 s.2 t.trf) (s.1, lookedUp acl4 acl6 t s.2)
          else
            ipsecBurst env espOutbound espOutboundPostFn
              (outboundSaLookup ctx.saCtx (toSecure acl4 acl6 s.2 t.trf)) maxPktBurst
              (s.1, lookedUp acl4 acl6 t s.2)
            >>= fun r =>
              pure (r.1.foldl (appendOne r.2.2) (clear acl4 acl6 s.2 t.trf), r.2))
          >>= fun r => pure (r.1, allCounted acl4 acl6 s.2 t.trf stats, r.2))
      ∧ Adds t.trf.ip4.length stats.spd4 (allCounted acl4 acl6 s.2 t.trf stats).spd4
      ∧ Adds t.trf.ip6.length stats.spd6 (allCounted acl4 acl6 s.2 t.trf stats).spd6
      ∧ Ends (processPktsOutbound env conf ctx t stats s) (· = .null)
        (fun r => ∃ o4 o6, Enforced acl4 acl6 ctx t stats s o4 o6 r) := by
  have hperm := both_perm acl4 acl6 s.2 t.trf
  refine ⟨hperm, (processPktsOutbound_hands env conf h4 h6 t stats s).trans
      (by rw [outboundCrypto_eq]), counted_adds _ _ _ _ _, counted_adds _ _ _ _ _, ?_⟩
  generalize hburst : outboundSaLookup ctx.saCtx (toSecure acl4 acl6 s.2 t.trf) = burst
  have hfst : burst.map Prod.fst = (toSecure acl4 acl6 s.2 t.trf).map Prod.fst := by
    rw [← hburst, outboundSaLookup, List.map_map]
    rfl
  have hsub : (burst.map Prod.fst).Sublist
      ((clear acl4 acl6 s.2 t.trf).ip4 ++ (clear acl4 acl6 s.2 t.trf).ip6
        ++ discarded acl4 acl6 s.2 t.trf ++ burst.map Prod.fst) :=
    List.sublist_append_right _ _
  rw [← hfst] at hperm
  have honce : (burst.map Prod.fst).Nodup := (hperm.nodup_iff.mpr hnodup).sublist hsub
  have hle : burst.length ≤ maxPktBurst := by
    have h := hsub.length_le
    rw [hperm.length_eq, List.length_map] at h
    exact Nat.le_trans h hlen
  rw [processPktsOutbound_hands env conf h4 h6, hburst]
  -- freeing packets is beside the queues
  have hrest' : Resting env.lcoreId True (s.1, lookedUp acl4 acl6 t s.2) :=
    ⟨hrest.1.beside ⟨rfl, fun p hp => List.mem_append_left _ (List.mem_append_left _
      (List.mem_append_left _ hp))⟩ hrest.1.sessions, hrest.2⟩
  refine (outboundCrypto_handled env conf honce hle (clear acl4 acl6 s.2 t.trf) hrest'
    hshort).bind ?_
  rintro ⟨trf, s'⟩ ⟨out, ⟨o4, o6, hip4, hip6, hout⟩, hback⟩
  obtain ⟨log, hlog, -, hthrough⟩ := hback.credited
  obtain ⟨l, hmoves, hfreed⟩ := hback.freed
  rw [hfst] at hmoves honce
  replace hmoves := hmoves.cast (List.Perm.refl _) hout.symm
  refine ends_pure ⟨o4, o6, hip4, hip6, hout.nodup_iff.mpr hback.nodup,
    ⟨log, hlog, ?_⟩, rfl, ⟨l, ?_, ?_, hmoves.balance, ?_⟩, hback.rest⟩
  · intro x hx
    obtain ⟨q, fb, fb', type, hin, hdone, -⟩ := hthrough x (hout.mem_iff.mp hx)
    rw [← hburst] at hin
    obtain ⟨⟨y, idx⟩, hmem, heq⟩ := List.mem_map.mp hin
    obtain ⟨rfl, hq⟩ := Prod.mk.inj heq
    obtain ⟨rfl, -⟩ := Prod.mk.inj (Option.some.inj hq)
    exact ⟨idx, fb', type, hmem, hdone⟩
  · refine hmoves.freed.trans ?_
    show s.2.freed ++ t.ipsec ++ dropped acl4 ip4Proto s.2 t.trf.ip4
      ++ dropped acl6 ip6Proto s.2 t.trf.ip6 ++ l = _
    rw [discarded, ← List.append_assoc]
  · intro x hx
    rcases hfreed x hx with hwaits | ⟨hin, hnot⟩
    · exact .inl hwaits
    · rw [hfst] at hin
      exact .inr ⟨hin, fun h => hnot (hout.mem_iff.mp h)⟩
  · exact fun x hx hfresh => hmoves.once honce hx hfresh

/-- IPv4 passes, IPv6 is for the first SA. -/
def mixedCtx : EvCtx where
  sp4Ctx := some fun _ _ => bypass
  sp6Ctx := some fun _ _ => 1
  saCtx := ⟨0, 1⟩

/-- An ESP packet, two IPv4 packets and an IPv6 packet. -/
def mixedBurst : Burst := { ipsec := [0], trf := ⟨[1, 2], [3]⟩ }

/-- A lcore with SAs of a crypto device. -/
def mixedStart : State :=
  (CryptoQueue.twoStart.1,
    { mbuf := fun _ => MbufModel.Mbuf.mid (fun _ => 0) 60
      sa := fun _ =>
        { (default : IpsecSa) with
          aeadAlgo := .aesGcm, primary := { type := .lookasideProtocol } } })

theorem mixedStart_untouched : CryptoQueue.Untouched mixedStart.2 :=
  ⟨fun _ => rfl, fun _ _ => rfl⟩

/-- The IPv6 packet waits in a queue behind the call. -/
theorem outbound_policies_enforced_mixed :
    toSecure (fun _ _ => bypass) (fun _ _ => 1) mixedStart.2 mixedBurst.trf = [(3, 0)]
      ∧ (processPktsOutbound (CryptoQueue.laxEnv 1) EspHeader.optionConf mixedCtx mixedBurst {}
          mixedStart).toOption.map (fun r =>
            (r.1.ip4, r.1.ip6, r.2.2.2.freed, (r.2.2.1.tbl 1).buf)) = some ([1, 2], [], [0], [3])
      ∧ Ends (processPktsOutbound (CryptoQueue.laxEnv 1) EspHeader.optionConf mixedCtx
          mixedBurst {} mixedStart) (· = .null)
        (fun r => ∃ o4 o6, Enforced (fun _ _ => bypass) (fun _ _ => 1) mixedCtx mixedBurst
          {} mixedStart o4 o6 r) := by
  refine ⟨by decide +kernel, by decide +kernel, ?_⟩
  exact (outbound_policies_enforced (CryptoQueue.laxEnv 1) EspHeader.optionConf
    (show mixedCtx.sp4Ctx = some fun _ _ => bypass from rfl)
    (show mixedCtx.sp6Ctx = some fun _ _ => 1 from rfl) mixedBurst (by decide) (by decide) {}
    (CryptoQueue.ofTables_resting Cdev.cryptodevsInit_twoTables 1 .egress
      mixedStart_untouched True)
    fun _ => show 0 < maxPktBurst by decide).2.2.2.2

end OutboundPolicy
