import IpsecSecgw.HandOverProofs
import IpsecSecgw.InboundRunProofs

/-! # Crypto calls and policies

    A crypto call on either path, and a drain of the crypto queues: what it does to the
    packets in the queues, and that each packet it gives back has been processed by a
    session of the SA the packet carries (`Call`).  The policies before or behind it:
    which packets stay in the clear (`clearOf`), which are handed over with which SA
    (`securedOf`), and which are let in (`LetIn`). -/

namespace PolicyCall

open SaModel MbufModel CdevModel Esp IpsecModel WorkerModel SecgwModel Outcome Sweep
open Handling HandOver InboundPolicy
open OutboundPolicy (passed dropped secured counted mem_secured keptFrom_outbound
  appendOne_grown)
open PacketOrder (saOf KeepsSa)

variable {env : Env} {lib : CryptoGroup} {conf : PollConf} {dir : Direction}

/-! ## A crypto call -/

/-- Packets, SAs, queue pairs and the log of successes are as before. -/
structure Still (w w' : World) : Prop where
  mbuf : w'.mbuf = w.mbuf
  sa : w'.sa = w.sa
  pair : w'.pair = w.pair
  processed : w'.processed = w.processed

theorem Still.refl (w : World) : Still w w := ⟨rfl, rfl, rfl, rfl⟩

theorem Still.trans {w w' w'' : World} (h : Still w w') (h' : Still w' w'') : Still w w'' :=
  ⟨h'.mbuf.trans h.mbuf, h'.sa.trans h.sa, h'.pair.trans h.pair,
    h'.processed.trans h.processed⟩

theorem still_freePkts (w : World) (ps : List PktId) : Still w (w.freePkts ps) :=
  ⟨rfl, rfl, rfl, rfl⟩

theorem Still.waits {ctx : IpsecCtx} {w w' : World} (h : Still w w') (x : PktId) :
    Waits (ctx, w') x ↔ Waits (ctx, w) x := by
  simp only [Waits, h.pair]

theorem Still.saOf {w w' : World} (h : Still w w') (x : PktId) : saOf w' x = saOf w x := by
  simp only [PacketOrder.saOf, h.mbuf]

theorem Still.atQueue {w w' : World} (h : Still w w') (x : PktId)
    (hx : AtQueue conf lib w x) : AtQueue conf lib w' x := by
  refine atQueue_stable w w' x (congrFun h.mbuf x) ?_ hx
  rw [h.sa]
  exact SasKept.refl _

/-- Which session has processed which packet. -/
abbrev Log := List (PktId × SaRef × ActionType)

/-- **A CRYPTO CALL** that takes a burst in and gives `out` back: packets in the queues
    carry their SAs, and each packet that comes back has been processed by a session of
    the SA it carries. -/
structure Call (conf : PollConf) (lib : CryptoGroup) (burst : List (PktId × Option SaRef))
    (s : State) (log : Log) (out : List PktId) (s' : State) : Prop where
  tag : ∀ x, x ∉ burst.map Prod.fst → saOf s'.2 x = saOf s.2 x
  keeps : ∀ x, x ∉ burst.map Prod.fst → AtQueue conf lib s.2 x → AtQueue conf lib s'.2 x
  own : OwnPairs s s'
  waits : ∀ x, Waits s' x → Waits s x ∨ AtQueue conf lib s'.2 x ∧ Due burst s'.2 x
  logged : s'.2.processed = s.2.processed ++ log
  through : ∀ x ∈ out, ∃ q fb type, (x, (q, fb), type) ∈ log ∧ saOf s'.2 x = some q
    ∧ (Waits s x ∧ x ∉ burst.map Prod.fst ∨ Due burst s'.2 x)

/-- Fewer packets are looked at. -/
theorem Call.subset {burst : List (PktId × Option SaRef)} {s s' : State} {log : Log}
    {out kept : List PktId} (h : Call conf lib burst s log out s') (hsub : kept ⊆ out) :
    Call conf lib burst s log kept s' :=
  { h with through := fun x hx => h.through x (hsub hx) }

/-- Work before a call that touches nothing. -/
theorem Call.after {burst : List (PktId × Option SaRef)} {ctx : IpsecCtx} {w w' : World}
    {s' : State} {log : Log} {out : List PktId} (hw : Still w w')
    (h : Call conf lib burst (ctx, w') log out s') : Call conf lib burst (ctx, w) log out s' where
  tag x hx := (h.tag x hx).trans (hw.saOf x)
  keeps x hx hat := h.keeps x hx (hw.atQueue x hat)
  own := (OwnPairs.aside rfl hw.pair : OwnPairs (ctx, w) (ctx, w')).trans h.own
  waits x hx := (h.waits x hx).imp_left (hw.waits x).mp
  logged := h.logged.trans (congrArg (· ++ log) hw.processed)
  through x hx := by
    obtain ⟨q, fb, type, hin, hq, hwhy⟩ := h.through x hx
    exact ⟨q, fb, type, hin, hq, hwhy.imp_left fun h => ⟨(hw.waits x).mp h.1, h.2⟩⟩

/-- And behind it. -/
theorem Call.before {burst : List (PktId × Option SaRef)} {s s' : State} {w : World}
    {log : Log} {out : List PktId} (h : Call conf lib burst s log out s')
    (hw : Still s'.2 w) : Call conf lib burst s log out (s'.1, w) where
  tag x hx := (hw.saOf x).trans (h.tag x hx)
  keeps x hx hat := hw.atQueue x (h.keeps x hx hat)
  own := h.own.trans (.aside rfl hw.pair)
  waits x hx := by
    refine (h.waits x ((hw.waits x).mp hx)).imp_right ?_
    rintro ⟨hat, q, fb, hin, hq⟩
    exact ⟨hw.atQueue x hat, q, fb, hin, (hw.saOf x).trans hq⟩
  logged := hw.processed.trans h.logged
  through x hx := by
    obtain ⟨q, fb, type, hin, hq, hwhy⟩ := h.through x hx
    refine ⟨q, fb, type, hin, (hw.saOf x).trans hq, hwhy.imp_right ?_⟩
    rintro ⟨q, fb, hin, hq⟩
    exact ⟨q, fb, hin, (hw.saOf x).trans hq⟩

/-- What a burst call does, from its parts. -/
theorem call_of_handled {burst : List (PktId × Option SaRef)} {s s' : State}
    {out : List PktId} (h : Handled True (AtQueue conf lib) s burst out s')
    (hcredit : Credited True dir burst s out s') (hhands : Hands burst s s') :
    ∃ log, Call conf lib burst s log out s' := by
  obtain ⟨log, hlog, -, hall⟩ := hcredit
  refine ⟨log, ⟨?_, ?_, hhands.own, ?_, hlog, ?_⟩⟩
  · intro x hx
    rw [PacketOrder.saOf, h.mbuf x hx]
    rfl
  · exact fun x hx => atQueue_stable _ _ x (h.mbuf x hx) h.sas
  · intro x hx
    rcases h.waits x hx with hwait | ⟨-, -, hat⟩
    · exact .inl hwait
    · exact (hhands.waits x hx).imp_right fun hdue => ⟨hat, hdue⟩
  · intro x hx
    obtain ⟨q, fb, fb', type, hin, hdone, htag⟩ := hall x hx
    have hq := (htag trivial).1
    exact ⟨q, fb', type, hdone, hq, .inr ⟨q, fb, hin, hq⟩⟩

/-- **A BURST** on the legacy path. -/
theorem ipsecBurst_called (env : Env) (lib : CryptoGroup) (dir : Direction)
    (hoff : conf.enable = false) {burst : List (PktId × Option SaRef)}
    (hnodup : (burst.map Prod.fst).Nodup) {s : State} (hol : s.1.olPkts = []) :
    Ends (ipsecBurst env (enqueueXform dir) (dequeueXform dir) burst maxPktBurst s)
      (fun _ => True) (fun r => ∃ log, Call conf lib burst s log r.1 r.2) := by
  refine ((ipsecBurst_handled (K := True) env dir hnodup maxPktBurst hol).and
    (ipsecBurst_hands env dir hnodup maxPktBurst hol)).mono (fun _ _ => trivial) ?_
  rintro r ⟨⟨hhandled, hcredit⟩, hhands⟩
  refine call_of_handled (handled_mono hhandled fun x hx => ?_) hcredit hhands
  rw [AtQueue, hoff]
  exact hx

/-- **A BURST** on the path of `librte_ipsec`. -/
theorem ipsecProcess_called (hlaws : Lawful env lib) (dir : Direction)
    (hon : conf.enable = true) {burst : List (PktId × Option SaRef)}
    (hnodup : (burst.map Prod.fst).Nodup) (trf : Traffic) (s : State) :
    Ends (ipsecProcess env burst trf s) (fun _ => True)
      (fun r => ∃ log out, Grown trf out r.1 ∧ Call conf lib burst s log out r.2) := by
  refine ((ipsecProcess_handled (K := True) (fun _ => hlaws) dir hnodup trf s).and
    (ipsecProcess_hands hlaws hnodup trf s)).mono (fun _ _ => trivial) ?_
  rintro r ⟨⟨out, hgrown, hhandled, hcredit⟩, hhands⟩
  have hqueued : ∀ x, Queued True lib r.2.2 x → AtQueue conf lib r.2.2 x := by
    intro x hx
    rw [AtQueue, if_pos hon]
    exact hx trivial
  obtain ⟨log, hcall⟩ := call_of_handled (handled_mono hhandled hqueued) hcredit hhands
  exact ⟨log, out, hgrown, hcall⟩

/-- `split46_traffic` behind a call. -/
theorem grown_split (trf : Traffic) (out : List PktId) (w : World) :
    ∃ kept, Grown trf kept (split46Traffic trf out w).1 ∧ kept ⊆ out
      ∧ Still w (split46Traffic trf out w).2 := by
  obtain ⟨o4, o6, left, heq, hperm⟩ := split46Traffic_parts trf out w
  rw [heq]
  exact ⟨o4 ++ o6, ⟨o4, o6, rfl, rfl, List.Perm.refl _⟩,
    fun x hx => hperm.mem_iff.mp (List.mem_append_left _ hx), still_freePkts w left⟩

theorem inboundSaLookup_fst (sad : PktId → Option SaPtr) (w : World) (pkts : List PktId) :
    (inboundSaLookup sad w pkts).map Prod.fst = pkts := by
  rw [inboundSaLookup, List.map_map]
  exact List.map_id pkts

theorem outboundSaLookup_fst (saCtx : SaCtx) (ipsec : List (PktId × UInt32)) :
    (outboundSaLookup saCtx ipsec).map Prod.fst = ipsec.map Prod.fst := by
  rw [outboundSaLookup, List.map_map]
  rfl

/-- `process_pkts_inbound` up to the policies. -/
theorem inboundCrypto_called (hlaws : conf.enable = true → Lawful env lib)
    (sad : PktId → Option SaPtr) {t : Burst} (hnodup : t.ipsec.Nodup) {s : State}
    (hol : s.1.olPkts = []) :
    Ends (inboundCrypto env conf sad t s) (fun _ => True) (fun r => ∃ log out,
      Grown t.trf out r.1 ∧ Call conf lib (inboundSaLookup sad s.2 t.ipsec) s log out r.2) := by
  have hnodup : ((inboundSaLookup sad s.2 t.ipsec).map Prod.fst).Nodup := by
    rw [inboundSaLookup_fst]
    exact hnodup
  rw [inboundCrypto]
  dsimp only
  split
  · rename_i hon
    exact ipsecProcess_called (hlaws hon) .ingress hon hnodup t.trf s
  · rename_i hoff
    refine (ipsecBurst_called env lib .ingress (Bool.eq_false_iff.mpr hoff) hnodup hol).bind ?_
    rintro ⟨out, s1⟩ ⟨log, hcall⟩
    obtain ⟨kept, hgrown, hsub, hstill⟩ := grown_split t.trf out s1.2
    exact ends_pure ⟨log, kept, hgrown, (hcall.subset hsub).before hstill⟩

/-- `process_pkts_outbound` behind the policies. -/
theorem outboundCrypto_called (hlaws : conf.enable = true → Lawful env lib)
    {burst : List (PktId × Option SaRef)} (hnodup : (burst.map Prod.fst).Nodup)
    (trf : Traffic) {s : State} (hol : s.1.olPkts = []) :
    Ends (SecgwModel.outboundCrypto env conf burst trf s) (fun _ => True) (fun r =>
      ∃ log out, Grown trf out r.1 ∧ Call conf lib burst s log out r.2) := by
  rw [SecgwModel.outboundCrypto]
  split
  · rename_i hon
    exact ipsecProcess_called (hlaws hon) .egress hon hnodup trf s
  · rename_i hoff
    refine (ipsecBurst_called env lib .egress (Bool.eq_false_iff.mpr hoff) hnodup hol).bind ?_
    rintro ⟨out, s1⟩ ⟨log, hcall⟩
    exact ends_pure ⟨log, out, appendOne_grown s1.2 out trf, hcall⟩

/-- What a drain does, from its parts. -/
theorem call_of_drained {s s' : State} {ops out : List PktId}
    (h : Drained (AtQueue conf lib) s ops out s') (hown : OwnPairs s s')
    (hfrom : ∀ x ∈ out, Waits s x) : ∃ log, Call conf lib [] s log out s' := by
  obtain ⟨log, hlog, hall⟩ := h.through
  refine ⟨log, ⟨fun x _ => h.tag x, fun x _ => h.keeps x, hown,
    fun x hx => .inl (h.waits x hx), hlog, fun x hx => ?_⟩⟩
  obtain ⟨q, fb, type, hq, hin, -⟩ := hall x hx
  exact ⟨q, fb, type, hin, hq, .inl ⟨hfrom x hx, List.not_mem_nil⟩⟩

/-- **A DRAIN** of the queues of a direction. -/
theorem drainCrypto_called (hkeep : KeepsSa env)
    (hlaws : conf.enable = true → Lawful env lib) (dir : Direction) {s : State}
    (hwait : ∀ x, Waits s x → AtQueue conf lib s.2 x) :
    Ends (drainCrypto env lib conf (dequeueXform dir) s) (fun _ => True)
      (fun r => ∃ log out, Grown {} out r.1 ∧ Call conf lib [] s log out r.2) := by
  rw [drainCrypto]
  split
  · rename_i hon
    have hon' : AtQueue conf lib = Grouped lib := by
      funext w x
      rw [AtQueue, if_pos hon]
    obtain ⟨out, hgrown, hdrained⟩ :=
      ipsecCqpProcess_drained (hlaws hon) fun x hx => hon' ▸ hwait x hx
    rw [← hon'] at hdrained
    obtain ⟨-, hops⟩ := ctxDequeue_drained (hlaws hon) trafficDim s
    obtain ⟨log, hcall⟩ := call_of_drained hdrained (ipsecCqpProcess_own env lib s)
      fun x hx => hops x (hdrained.mem_ops hx)
    exact ends_pure ⟨log, out, hgrown, hcall⟩
  · rename_i hoff
    have hoff' : AtQueue conf lib = Awaited := by
      funext w x
      rw [AtQueue, if_neg hoff]
    refine ((@ipsecDequeue_drained env dir hkeep trafficDim s.1.nbQps [] s
      fun x hx => hoff' ▸ hwait x hx).and
      (ipsecDequeue_own env (dequeueXform dir) trafficDim s.1.nbQps [] s)).bind ?_
    rintro ⟨pkts, s1⟩ ⟨⟨out, hout, hdrained, hops⟩, hown⟩
    obtain rfl : pkts = out := hout
    rw [← hoff'] at hdrained
    obtain ⟨log, hcall⟩ := call_of_drained hdrained hown
      fun x hx => hops x (hdrained.mem_ops hx)
    obtain ⟨kept, hgrown, hsub, hstill⟩ := grown_split {} pkts s1.2
    exact ends_pure ⟨log, kept, hgrown, (hcall.subset hsub).before hstill⟩

/-! ## What the policies let go -/

/-- The packets of a family that stay in the clear: those with a BYPASS rule, and all
    where the family has no policies. -/
def clearBy (sp : Option SpCtx) (off : Nat) (w : World) (pkts : List PktId) : List PktId :=
  match sp with
  | none => pkts
  | some acl => passed acl off w pkts

/-- The packets of a family with a PROTECT rule, and the indices of their SAs. -/
def securedBy (sp : Option SpCtx) (off : Nat) (w : World) (pkts : List PktId) :
    List (PktId × UInt32) :=
  match sp with
  | none => []
  | some acl => secured acl off w pkts

/-- Both families. -/
def clearOf (ctx : EvCtx) (w : World) (trf : Traffic) : Traffic :=
  ⟨clearBy ctx.sp4Ctx ip4Proto w trf.ip4, clearBy ctx.sp6Ctx ip6Proto w trf.ip6⟩

def securedOf (ctx : EvCtx) (w : World) (trf : Traffic) : List (PktId × UInt32) :=
  securedBy ctx.sp4Ctx ip4Proto w trf.ip4 ++ securedBy ctx.sp6Ctx ip6Proto w trf.ip6

theorem Still.clearBy {w w' : World} (h : Still w w') (sp : Option SpCtx) (off : Nat)
    (pkts : List PktId) :
    clearBy sp off w' pkts = PolicyCall.clearBy sp off w pkts
      ∧ securedBy sp off w' pkts = securedBy sp off w pkts := by
  cases sp with
  | none => exact ⟨rfl, rfl⟩
  | some acl =>
      have hrule : aclResult acl w' off = aclResult acl w off := by
        funext x
        simp only [aclResult, h.mbuf]
      simp only [PolicyCall.clearBy, securedBy, passed, secured]
      rw [hrule]
      exact ⟨rfl, rfl⟩

theorem securedBy_sublist (sp : Option SpCtx) (off : Nat) (w : World) (pkts : List PktId) :
    ((securedBy sp off w pkts).map Prod.fst).Sublist pkts := by
  cases sp with
  | none => exact List.nil_sublist pkts
  | some acl =>
      rw [securedBy, secured, List.map_map]
      exact (List.map_id _).symm ▸ List.filter_sublist

theorem securedOf_sublist (ctx : EvCtx) (w : World) (trf : Traffic) :
    ((securedOf ctx w trf).map Prod.fst).Sublist (both trf) := by
  rw [securedOf, List.map_append]
  exact (securedBy_sublist _ _ _ _).append (securedBy_sublist _ _ _ _)

/-- One family. -/
theorem outboundSpdLookup_sorted (sp : Option SpCtx) (off : Nat) (pkts : List PktId)
    (ipsec : List (PktId × UInt32)) (stats : SpdStats) (w : World) :
    ∃ stats' w', outboundSpdLookup sp off pkts ipsec stats w
        = (clearBy sp off w pkts, ipsec ++ securedBy sp off w pkts, stats', w')
      ∧ Still w w' := by
  cases sp with
  | none => exact ⟨stats, w, by rw [securedBy, List.append_nil]; rfl, Still.refl w⟩
  | some acl =>
      refine ⟨counted acl off w pkts stats, w.freePkts (dropped acl off w pkts), ?_,
        still_freePkts w _⟩
      rw [outboundSpdLookup, sweep_eq, keptFrom_outbound, List.nil_append]
      rfl

/-- **BOTH OUTBOUND LOOKUPS**. -/
theorem outboundPolicies_sorted (ctx : EvCtx) (trf : Traffic) (stats : DirStats)
    (w : World) :
    ∃ stats' w', outboundPolicies ctx trf stats w
        = (clearOf ctx w trf, securedOf ctx w trf, stats', w') ∧ Still w w' := by
  obtain ⟨st4, w4, h4, hw4⟩ :=
    outboundSpdLookup_sorted ctx.sp4Ctx ip4Proto trf.ip4 [] stats.spd4 w
  obtain ⟨st6, w6, h6, hw6⟩ := outboundSpdLookup_sorted ctx.sp6Ctx ip6Proto trf.ip6
    (securedBy ctx.sp4Ctx ip4Proto w trf.ip4) stats.spd6 w4
  obtain ⟨hclear, hsecured⟩ := hw4.clearBy ctx.sp6Ctx ip6Proto trf.ip6
  rw [List.nil_append] at h4
  rw [hclear, hsecured] at h6
  refine ⟨⟨st4, st6⟩, w6, ?_, hw4.trans hw6⟩
  rw [outboundPolicies, h4]
  dsimp only
  rw [h6]
  rfl

/-- **AN OUTBOUND BURST** leaves what its rules leave in the clear, and packets that have
    been processed. -/
theorem processPktsOutbound_called (hlaws : conf.enable = true → Lawful env lib)
    (ctx : EvCtx) {t : Burst} (hnodup : (both t.trf).Nodup) (stats : DirStats) {s : State}
    (hol : s.1.olPkts = []) :
    Ends (processPktsOutbound env conf ctx t stats s) (fun _ => True) (fun r =>
      ∃ log out, Grown (clearOf ctx s.2 t.trf) out r.1
        ∧ Call conf lib (outboundSaLookup ctx.saCtx (securedOf ctx s.2 t.trf)) s log out
          r.2.2) := by
  obtain ⟨stats', w, heq, hw⟩ := outboundPolicies_sorted ctx t.trf stats (s.2.freePkts t.ipsec)
  have hclear : clearOf ctx (s.2.freePkts t.ipsec) t.trf = clearOf ctx s.2 t.trf := rfl
  have hsecured : securedOf ctx (s.2.freePkts t.ipsec) t.trf = securedOf ctx s.2 t.trf := rfl
  have hnodup : ((outboundSaLookup ctx.saCtx (securedOf ctx s.2 t.trf)).map Prod.fst).Nodup := by
    rw [outboundSaLookup_fst]
    exact hnodup.sublist (securedOf_sublist ctx s.2 t.trf)
  rw [hclear, hsecured] at heq
  rw [processPktsOutbound, heq]
  dsimp only
  refine (outboundCrypto_called (s := (s.1, w)) hlaws hnodup (clearOf ctx s.2 t.trf) hol).bind ?_
  rintro ⟨trf, s1⟩ ⟨log, out, hgrown, hcall⟩
  exact ends_pure ⟨log, out, hgrown, hcall.after ((still_freePkts s.2 t.ipsec).trans hw)⟩

/-- Why the policies of a family let a packet in: a BYPASS rule, or one whose SA has the
    SPI of the packet's own; and it has been decrypted, or has come in the clear and the
    rule says BYPASS or the NIC has processed it. -/
def Admitted (sp : Option SpCtx) (saCtx : SaCtx) (off : Nat) (clear : List PktId)
    (through : PktId → Prop) (w : World) (x : PktId) : Prop :=
  (∀ acl, sp = some acl → aclResult acl w off x = bypass
    ∨ aclResult acl w off x ≠ SaModel.discard
      ∧ inboundSaCheck saCtx w x (aclResult acl w off x - 1) = true)
  ∧ (through x ∨ x ∈ clear ∧ ∀ acl, sp = some acl → aclResult acl w off x = bypass
    ∨ (w.mbuf x).olFlags &&& rxSecOffload ≠ 0)

/-- A packet of `trf` is let in by the policies of the family it stands with; `clear` are
    those that have come in the clear. -/
def LetIn (ctx : EvCtx) (clear trf : Traffic) (through : PktId → Prop) (w : World)
    (x : PktId) : Prop :=
  x ∈ trf.ip4 ∧ Admitted ctx.sp4Ctx ctx.saCtx ip4Proto clear.ip4 through w x
    ∨ x ∈ trf.ip6 ∧ Admitted ctx.sp6Ctx ctx.saCtx ip6Proto clear.ip6 through w x

/-- One family. -/
theorem inboundSpSa_admitted (sp : Option SpCtx) (saCtx : SaCtx) (off : Nat)
    (clear : List PktId) {out : List PktId} {through : PktId → Prop}
    (hout : ∀ x ∈ out, through x) (stats : SpdStats) (w : World) :
    (∀ x ∈ (inboundSpSa sp saCtx off clear.length (clear ++ out) stats w).1,
        x ∈ clear ++ out ∧ Admitted sp saCtx off clear through w x)
      ∧ Still w (inboundSpSa sp saCtx off clear.length (clear ++ out) stats w).2.2 := by
  cases sp with
  | none =>
      refine ⟨fun x hx => ⟨hx, nofun, ?_⟩, Still.refl w⟩
      exact (List.mem_append.mp hx).elim (fun hx => .inr ⟨hx, nofun⟩) fun hx => .inl (hout x hx)
  | some acl =>
      obtain ⟨kept, dropped, stats', heq, hswept⟩ :=
        keptFrom_inbound acl saCtx off clear.length w 0 (clear ++ out) (stats, [])
      rw [inboundSpSa, sweep_eq, heq]
      refine ⟨fun x hx => ?_, still_freePkts w _⟩
      obtain ⟨j, hj, hpass⟩ := hswept.kept x hx
      rw [Nat.zero_add] at hpass
      refine ⟨List.mem_of_getElem? hj, ?_⟩
      constructor
      · rintro acl' ⟨⟩
        exact hpass.imp_right fun h => ⟨h.1, h.2.2⟩
      · -- the limit parts the packets that have come in the clear from the others
        by_cases hlim : j < clear.length
        · rw [List.getElem?_append_left hlim] at hj
          refine .inr ⟨List.mem_of_getElem? hj, ?_⟩
          rintro acl' ⟨⟩
          exact hpass.imp_right fun h hflag => h.2.1 ⟨hlim, hflag⟩
        · rw [List.getElem?_append_right (Nat.not_lt.mp hlim)] at hj
          exact .inl (hout x (List.mem_of_getElem? hj))

/-- **BOTH INBOUND CHECKS**. -/
theorem inboundPolicies_letIn (ctx : EvCtx) (clear : Traffic) {trf : Traffic}
    {out : List PktId} (hgrown : Grown clear out trf) {through : PktId → Prop}
    (hout : ∀ x ∈ out, through x) (stats : DirStats) (w : World) :
    let r := inboundPolicies ctx clear.ip4.length clear.ip6.length trf stats w
    (∀ x ∈ both r.1, LetIn ctx clear trf through w x) ∧ Still w r.2.2 := by
  obtain ⟨o4, o6, h4, h6, hperm⟩ := hgrown
  obtain ⟨hin4, hw4⟩ := inboundSpSa_admitted ctx.sp4Ctx ctx.saCtx ip4Proto clear.ip4
    (fun x hx => hout x (hperm.mem_iff.mp (List.mem_append_left _ hx))) stats.spd4 w
  rw [← h4] at hin4 hw4
  obtain ⟨hin6, hw6⟩ := inboundSpSa_admitted ctx.sp6Ctx ctx.saCtx ip6Proto clear.ip6
    (fun x hx => hout x (hperm.mem_iff.mp (List.mem_append_right _ hx))) stats.spd6
    (inboundSpSa ctx.sp4Ctx ctx.saCtx ip4Proto clear.ip4.length trf.ip4 stats.spd4 w).2.2
  rw [← h6] at hin6 hw6
  refine ⟨fun x hx => ?_, hw4.trans hw6⟩
  rcases List.mem_append.mp hx with hx | hx
  · exact .inl (hin4 x hx)
  · refine .inr ?_
    have hx := hin6 x hx
    simp only [Admitted, aclResult, inboundSaCheck, hw4.mbuf, hw4.sa] at hx ⊢
    exact hx

end PolicyCall
