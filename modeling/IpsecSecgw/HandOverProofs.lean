import IpsecSecgw.DrainHandlingProofs
import IpsecSecgw.LcoreCountProofs

/-! # What a crypto call does to the queues

    A call on a context works on the queue pairs of this context and leaves all other
    pairs alone (`OwnPairs`).  A packet it puts into a queue carries the SA it was
    handed over with (`Hands`), on the legacy path as on that of `librte_ipsec`: it
    keeps this SA until the queue gives it back. -/

namespace HandOver

open SaModel MbufModel CdevModel IpsecModel Outcome Ipsec SecgwModel Slots Handling
open PacketOrder (saOf)
open PacketCount (QueueMoves enqueueCop_count enqueueCopBulk_count enqueueCopBurst_count
  cqpDequeue_count)

variable {env : Env} {lib : CryptoGroup} {dir : Direction}

/-! ## Queue pairs -/

/-- The queues keep their pairs, and the other pairs of the devices are left alone. -/
structure OwnPairs (s s' : State) : Prop where
  key : ∀ i, (s'.1.tbl i).toCdevQp = (s.1.tbl i).toCdevQp
  others : ∀ k, (∀ i, k ≠ (s.1.tbl i).toCdevQp) → s'.2.pair k = s.2.pair k

theorem OwnPairs.refl (s : State) : OwnPairs s s := ⟨fun _ => rfl, fun _ _ => rfl⟩

theorem OwnPairs.trans {s s' s'' : State} (h : OwnPairs s s') (h' : OwnPairs s' s'') :
    OwnPairs s s'' := by
  refine ⟨fun i => (h'.key i).trans (h.key i), fun k hk => ?_⟩
  refine (h'.others k fun i => ?_).trans (h.others k hk)
  rw [h.key]
  exact hk i

/-- Work beside the queues. -/
theorem OwnPairs.aside {s s' : State} (htbl : s'.1.tbl = s.1.tbl)
    (hpair : s'.2.pair = s.2.pair) : OwnPairs s s' :=
  ⟨fun _ => by rw [htbl], fun _ _ => by rw [hpair]⟩

/-- Work on one queue. -/
theorem OwnPairs.queue {s : State} {i n m : Nat} {r : CdevQueue × World}
    (h : QueueMoves (s.1.tbl i) s.2 n r m) : OwnPairs s (s.1.setQueue i r.1, r.2) := by
  refine ⟨fun j => ?_, fun k hk => h.others k (hk i)⟩
  show (Function.update s.1.tbl i r.1 j).toCdevQp = _
  by_cases hj : j = i
  · rw [hj, Function.update_self]
    exact h.key
  · rw [Function.update_of_ne hj]

/-- A packet that waits behind a call waits in a queue of the context, or has waited in
    the queues of the other one before. -/
theorem OwnPairs.waits {s s' : State} (h : OwnPairs s s') (other : IpsecCtx) {x : PktId}
    (hx : Waits (other, s'.2) x) : Waits s' x ∨ Waits (other, s.2) x := by
  obtain ⟨i, hx | hx⟩ := hx
  · exact .inr ⟨i, .inl hx⟩
  · by_cases hown : ∃ j, (other.tbl i).toCdevQp = (s.1.tbl j).toCdevQp
    · obtain ⟨j, hj⟩ := hown
      refine .inl ⟨j, .inr ?_⟩
      rw [h.key, ← hj]
      exact hx
    · refine .inr ⟨i, .inr ?_⟩
      rw [← h.others _ fun j hj => hown ⟨j, hj⟩]
      exact hx

/-! ## Handing over -/

/-- The packet carries an SA the burst has for it. -/
def Due (burst : List (PktId × Option SaRef)) (w : World) (x : PktId) : Prop :=
  ∃ q fb, (x, some (q, fb)) ∈ burst ∧ saOf w x = some q

/-- **HANDING OVER** a burst: what waits afterwards has waited before, or carries its
    SA. -/
structure Hands (burst : List (PktId × Option SaRef)) (s s' : State) : Prop where
  own : OwnPairs s s'
  waits : ∀ x, Waits s' x → Waits s x ∨ Due burst s'.2 x

theorem Hands.refl (s : State) : Hands [] s s := ⟨OwnPairs.refl s, fun _ hx => .inl hx⟩

/-- Two parts of a burst, with different packets. -/
theorem Hands.trans {s s' s'' : State} {burst burst' : List (PktId × Option SaRef)}
    (hd : ∀ x, x ∈ burst.map Prod.fst → x ∉ burst'.map Prod.fst)
    (hsame : ∀ x, x ∉ burst'.map Prod.fst → s''.2.mbuf x = s'.2.mbuf x)
    (h : Hands burst s s') (h' : Hands burst' s' s'') : Hands (burst ++ burst') s s'' := by
  refine ⟨h.own.trans h'.own, fun x hx => ?_⟩
  rcases h'.waits x hx with hx | ⟨q, fb, hin, hq⟩
  · rcases h.waits x hx with hx | ⟨q, fb, hin, hq⟩
    · exact .inl hx
    · refine .inr ⟨q, fb, List.mem_append_left _ hin, ?_⟩
      rw [saOf, hsame x (hd x (List.mem_map_of_mem hin))]
      exact hq
  · exact .inr ⟨q, fb, List.mem_append_right _ hin, hq⟩

/-- Nothing is queued. -/
theorem Hands.aside {s s' : State} {burst : List (PktId × Option SaRef)}
    (htbl : s'.1.tbl = s.1.tbl) (hpair : s'.2.pair = s.2.pair) : Hands burst s s' := by
  refine ⟨.aside htbl hpair, fun x hx => .inl ?_⟩
  obtain ⟨i, hx⟩ := hx
  rw [htbl, hpair] at hx
  exact ⟨i, hx⟩

/-- Work behind a call that keeps the tags and queues nothing. -/
theorem Hands.then {s s' s'' : State} {burst : List (PktId × Option SaRef)}
    (h : Hands burst s s') (htbl : s''.1.tbl = s'.1.tbl) (hpair : s''.2.pair = s'.2.pair)
    (htag : ∀ x, saOf s''.2 x = saOf s'.2 x) : Hands burst s s'' := by
  refine ⟨h.own.trans (.aside htbl hpair), fun x hx => ?_⟩
  obtain ⟨i, hx⟩ := hx
  rw [htbl, hpair] at hx
  rcases h.waits x ⟨i, hx⟩ with hx | ⟨q, fb, hin, hq⟩
  · exact .inl hx
  · exact .inr ⟨q, fb, hin, (htag x).trans hq⟩

/-! ## The legacy path -/

/-- One packet. -/
theorem ipsecEnqueueOne_hands (env : Env) (dir : Direction) (s : State)
    (x : PktId × Option SaRef) :
    Ends (ipsecEnqueueOne env (enqueueXform dir) s x) (fun _ => True) (Hands [x] s) := by
  rw [ipsecEnqueueOne]
  split
  · exact ends_ok (.aside rfl rfl)
  rename_i p fb hx
  refine (prepareOp_touches env (enqueueXform_gentle dir) s.1 x.1 p s.2).bind ?_
  rintro ⟨dest, w⟩ ⟨hw, -⟩
  dsimp only at hw ⊢
  -- the packet carries its SA from here on
  have htag : saOf w x.1 = some p := by
    have hview := hw.view
    rw [show (s.2.modify x.1 (setPrivSa p)).mbuf x.1
      = setPrivSa p (s.2.mbuf x.1) from Function.update_self ..] at hview
    exact congrArg Prod.fst hview
  split
  · exact ends_pure (.aside rfl hw.pair)
  · rw [IpsecCtx.pushOl]
    split
    · exact ends_error trivial
    · exact ends_ok (.aside rfl hw.pair)
  · refine ((enqueueCop_count env x.1 _ _).and (enqueueCop_frame env x.1 _ _)).bind ?_
    rintro r ⟨hmoves, hframe⟩
    have hlogged : OwnPairs s (s.1, w.useQueue s.1 [x.1] p false) := .aside rfl hw.pair
    refine ends_pure ⟨hlogged.trans (.queue hmoves), fun y hy => ?_⟩
    rcases QueueFrame.waits (s := (s.1, w.useQueue s.1 [x.1] p false)) hframe hy with hy | hy
    · obtain ⟨i, hy⟩ := hy
      refine .inl ⟨i, ?_⟩
      rw [← show w.pair = s.2.pair from hw.pair]
      exact hy
    · obtain rfl := List.mem_singleton.mp hy
      refine .inr ⟨p, fb, ?_, ?_⟩
      · rw [← hx]
        exact List.mem_singleton_self x
      · show (r.2.mbuf x.1).priv.sa = some p
        rw [hframe.mbuf]
        exact htag

/-- All packets of a burst. -/
theorem ipsecEnqueue_hands (env : Env) (dir : Direction)
    {burst : List (PktId × Option SaRef)} (hnodup : (burst.map Prod.fst).Nodup)
    (s : State) :
    Ends (ipsecEnqueue env (enqueueXform dir) burst s) (fun _ => True) (Hands burst s) := by
  rw [ipsecEnqueue]
  refine (ends_foldlM (P := fun todo s' => ∃ done, burst = done ++ todo ∧ Hands done s s')
    ⟨[], rfl, Hands.refl s⟩ ?_).mono (fun _ h => h) ?_
  · rintro x todo s1 ⟨done, hburst, h⟩
    refine ((ipsecEnqueueOne_handled (K := True) env dir s1 x).and
      (ipsecEnqueueOne_hands env dir s1 x)).mono (fun _ _ => trivial) ?_
    rintro s2 ⟨⟨o, -, hhandled, -⟩, h'⟩
    refine ⟨done ++ [x], ?_, h.trans ?_ hhandled.mbuf h'⟩
    · rw [hburst, List.append_assoc]
      rfl
    · intro y hy hyx
      rw [hburst, List.map_append, List.map_cons] at hnodup
      exact (List.nodup_append.mp hnodup).2.2 y hy x.1 List.mem_cons_self
        (List.mem_singleton.mp hyx)
  · rintro s' ⟨done, hburst, h⟩
    rw [List.append_nil] at hburst
    exact hburst ▸ h

/-- **A BURST** on the legacy path. -/
theorem ipsecBurst_hands (env : Env) (dir : Direction)
    {burst : List (PktId × Option SaRef)} (hnodup : (burst.map Prod.fst).Nodup)
    (len : Nat) {s : State} (hol : s.1.olPkts = []) :
    Ends (ipsecBurst env (enqueueXform dir) (dequeueXform dir) burst len s)
      (fun _ => True) (fun r => Hands burst s r.2) := by
  rw [ipsecBurst]
  refine ((ipsecEnqueue_handled (K := True) env dir hnodup s).and
    (ipsecEnqueue_hands env dir hnodup s)).bind ?_
  rintro s1 ⟨⟨o, hol1, hhandled, -⟩, h⟩
  rw [hol, List.nil_append] at hol1
  subst hol1
  refine (PacketOrder.ipsecInlineDequeue_popped dir len _ [] hhandled.nodup).mono
    (fun _ h => h) ?_
  rintro ⟨out, s2⟩ ⟨new, -, hpop⟩
  obtain ⟨ol, hctx, -⟩ := hpop.ctx
  refine h.then ?_ hpop.pair hpop.tag
  rw [hctx]

/-! ## The path of librte_ipsec -/

/-- **LOOKASIDE**: the packets of a group carry the SA of the group. -/
theorem ipsecPrepareCryptoGroup_hands (hlaws : Lawful env lib) {g : IpsecGroup} {p : SaPtr}
    {fb : Bool} (hid : g.id = some (p, fb)) {s : State} {w : World} (hw : Ready s.2 w) :
    Ends (ipsecPrepareCryptoGroup env p fb g.pkts (s.1, w)) (fun _ => True)
      (fun r => Hands g.members s r.2) := by
  have hwritten := hw.worked (K := True) g.pkts (f := setPrivSa p) fun _ => rfl
  rw [ipsecPrepareCryptoGroup]
  dsimp only
  generalize w.modifyAll g.pkts (fun _ => setPrivSa p) = w1 at hwritten
  have hgiven := hwritten.handle (fun _ => hlaws) fb (List.Subset.refl g.pkts)
  obtain ⟨hperm, -⟩ := rteIpsecHandle_sorted env (p, fb) g.pkts w1
  generalize rteIpsecHandle env (p, fb) g.pkts w1 = r at hgiven hperm
  split
  · exact ends_pure (.aside rfl hgiven.pair)
  · rw [State.onQueue, bind_assoc]
    refine ((enqueueCopBulk_count env _ _ _).and (enqueueCopBulk_frame env _ _ _)).bind ?_
    rintro q ⟨hmoves, hframe⟩
    have hlogged : OwnPairs s (s.1, r.2.useQueue s.1 (r.1.1.take r.1.2) p fb) :=
      .aside rfl hgiven.pair
    refine ends_pure ⟨hlogged.trans (.queue hmoves), fun x hx => ?_⟩
    rcases QueueFrame.waits
      (s := (s.1, r.2.useQueue s.1 (r.1.1.take r.1.2) p fb)) hframe hx with hx | hx
    · obtain ⟨i, hx⟩ := hx
      refine .inl ⟨i, ?_⟩
      rw [← show r.2.pair = s.2.pair from hgiven.pair]
      exact hx
    · have hin : x ∈ g.pkts := hperm.mem_iff.mp (List.mem_of_mem_take hx)
      refine .inr ⟨p, fb, ?_, ?_⟩
      · rw [← hid]
        exact List.mem_map_of_mem (f := fun p => (p, g.id)) hin
      · show (q.2.mbuf x).priv.sa = some p
        rw [hframe.mbuf]
        exact hgiven.tag trivial x hin

/-- The other types queue nothing. -/
theorem ipsecProcessInlineGroup_pair (env : Env) (p : SaPtr) (fb : Bool)
    (pkts : List PktId) (trf : Traffic) (w : World) :
    (ipsecProcessInlineGroup env p fb pkts trf w).2.2.pair = w.pair :=
  (PacketCount.ipsecProcessInlineGroup_settles env p fb pkts trf w).1.pair

theorem ipsecProcessCpuGroup_pair (env : Env) (p : SaPtr) (fb : Bool)
    (pkts : List PktId) (trf : Traffic) (w : World) :
    (ipsecProcessCpuGroup env p fb pkts trf w).2.2.pair = w.pair :=
  (PacketCount.ipsecProcessCpuGroup_settles env p fb pkts trf w).1.pair

/-- One group. -/
theorem processOne_hands (hlaws : Lawful env lib) (g : IpsecGroup) (t : Traffic × State) :
    Ends (processOne env t g) (fun _ => True) (fun t' => Hands g.members t.2 t'.2) := by
  obtain ⟨trf, s⟩ := t
  rw [processOne, processGroup]
  cases hid : g.id with
  | none => exact ends_ok (.aside rfl rfl)
  | some ref =>
      obtain ⟨p, fb⟩ := ref
      dsimp only
      -- opening the session touches no packet
      have hready : Ready s.2 (if (session (s.2.sa p) fb).ses = none then
          fillIpsecSession env s.1 p fb s.2 else (0, s.2)).2 := by
        split
        · exact fillIpsecSession_ready env s.1 p fb s.2
        · exact Ready.refl s.2
      generalize (if (session (s.2.sa p) fb).ses = none then
        fillIpsecSession env s.1 p fb s.2 else (0, s.2)) = r at hready
      split
      · exact ends_ok (.aside rfl hready.pair)
      have hlookaside : Ends ((ipsecPrepareCryptoGroup env p fb g.pkts (s.1, r.2) >>= fun x =>
          (pure (x.1, trf, x.2) : Except Fault (GroupResult × Traffic × State)))
            >>= fun x => pure (x.2.1, x.2.2.1, x.2.2.2.freePkts (x.1.1.drop x.1.2)))
          (fun _ => True) (fun t' => Hands g.members s t'.2) := by
        rw [bind_assoc]
        refine (ipsecPrepareCryptoGroup_hands hlaws hid hready).bind ?_
        intro x hx
        exact ends_pure (hx.then rfl rfl fun _ => rfl)
      have hinline := (ipsecProcessInlineGroup_pair env p fb g.pkts trf r.2).trans hready.pair
      have hcpu := (ipsecProcessCpuGroup_pair env p fb g.pkts trf r.2).trans hready.pair
      cases (session (r.2.sa p) fb).type with
      | none => exact hlookaside
      | lookasideProtocol => exact hlookaside
      | inlineCrypto => exact ends_ok (.aside rfl hinline)
      | inlineProtocol => exact ends_ok (.aside rfl hinline)
      | cpuCrypto => exact ends_ok (.aside rfl hcpu)

/-- **A BURST** on the path of `librte_ipsec`. -/
theorem ipsecProcess_hands (hlaws : Lawful env lib)
    {burst : List (PktId × Option SaRef)} (hnodup : (burst.map Prod.fst).Nodup)
    (trf : Traffic) (s : State) :
    Ends (ipsecProcess env burst trf s) (fun _ => True) (fun t' => Hands burst s t'.2) := by
  rw [ipsecProcess]
  refine (ends_foldlM (P := fun todo t' => ∃ done,
    done ++ todo.flatMap IpsecGroup.members = burst ∧ Hands done s t'.2)
    ⟨[], saGroup_members burst, Hands.refl s⟩ ?_).mono (fun _ h => h) ?_
  · rintro g todo t' ⟨done, hburst, h⟩
    rw [List.flatMap_cons, ← List.append_assoc] at hburst
    have hparts := hnodup
    rw [← hburst, List.map_append, List.map_append] at hparts
    obtain ⟨-, hgroup, hapart⟩ := List.nodup_append.mp (List.nodup_append.mp hparts).1
    rw [members_fst] at hgroup
    refine ((processOne_handled (fun _ : True => hlaws) .egress hgroup t').and
      (processOne_hands hlaws g t')).mono (fun _ _ => trivial) ?_
    rintro t'' ⟨⟨out, hround⟩, h'⟩
    refine ⟨done ++ g.members, hburst, h.trans ?_ hround.handled.mbuf h'⟩
    exact fun x hx hin => hapart x hx x hin rfl
  · rintro t' ⟨done, hburst, h⟩
    obtain rfl : done = burst := by
      rw [← hburst]
      exact (List.append_nil done).symm
    exact h

/-! ## The drains -/

theorem cqpDequeue_own (env : Env) (s : State) (i num : Nat) :
    OwnPairs s (s.1.setQueue i (cqpDequeue env (s.1.tbl i) num s.2).2.1,
      (cqpDequeue env (s.1.tbl i) num s.2).2.2) :=
  .queue (cqpDequeue_count env (s.1.tbl i) num s.2)

/-- `ipsec_dequeue`. -/
theorem ipsecDequeue_own (env : Env) (f : XformFn) (maxPkts n : Nat) (pkts : List PktId)
    (s : State) :
    Ends (ipsecDequeue env f maxPkts n pkts s) (fun _ => True)
      (fun r => OwnPairs s r.2) := by
  induction n generalizing pkts s with
  | zero => exact ends_ok (OwnPairs.refl s)
  | succ n ih =>
      rw [ipsecDequeue]
      split
      · exact ends_ok (OwnPairs.refl s)
      have hown := cqpDequeue_own env s s.1.lastQp (maxPkts - pkts.length)
      dsimp only
      generalize cqpDequeue env (s.1.tbl s.1.lastQp) (maxPkts - pkts.length) s.2 = r
        at hown
      refine (PacketCount.finishOps_settles f r.1 pkts r.2.2).bind ?_
      rintro ⟨pkts', w⟩ ⟨k, hk, -⟩
      -- the place of the next dequeue is beside the queues
      have hround : OwnPairs s ({ s.1.setQueue s.1.lastQp r.2.1 with
          lastQp := if s.1.lastQp + 1 = s.1.nbQps then 0 else s.1.lastQp + 1 }, w) :=
        hown.trans (.aside rfl hk.pair)
      exact (ih pkts' _).mono (fun _ h => h) fun r' h' => hround.trans h'

theorem ctxDequeueLoop_own (env : Env) (num n i : Nat) (cops : List PktId) (s : State) :
    OwnPairs s (ctxDequeueLoop env num n i cops s).2.2 := by
  induction n generalizing i cops s with
  | zero => exact OwnPairs.refl s
  | succ n ih =>
      rw [ctxDequeueLoop]
      split
      · exact OwnPairs.refl s
      · exact (cqpDequeue_own env s i (num - cops.length)).trans (ih _ _ _)

/-- `ipsec_cqp_process`. -/
theorem ipsecCqpProcess_own (env : Env) (lib : CryptoGroup) (s : State) :
    OwnPairs s (ipsecCqpProcess env lib s).2 := by
  have hdequeue : OwnPairs s (ctxDequeue env trafficDim s).2 := by
    rw [ctxDequeue]
    exact ((ctxDequeueLoop_own env _ _ _ _ _).trans (ctxDequeueLoop_own env _ _ _ _ _)).trans
      (.aside rfl rfl)
  rw [ipsecCqpProcess]
  generalize ctxDequeue env trafficDim s = d at hdequeue
  obtain ⟨ops, s1⟩ := d
  dsimp only at hdequeue ⊢
  split
  · exact hdequeue
  · obtain ⟨k, hk, -⟩ := PacketCount.cqpGroups_settles env (lib.group s1.2 ops) ({}, s1.2)
    exact hdequeue.trans (.aside rfl hk.pair)

/-- The packets of both families. -/
def both (trf : Traffic) : List PktId := trf.ip4 ++ trf.ip6

theorem mem_both {trf trf' : Traffic} {out : List PktId} (h : Grown trf out trf')
    (x : PktId) : x ∈ both trf' ↔ x ∈ both trf ∨ x ∈ out := by
  obtain ⟨o4, o6, h4, h6, hperm⟩ := h
  rw [← hperm.mem_iff, both, both, h4, h6]
  simp only [List.mem_append]
  tauto

/-- `drain_crypto_buffers`. -/
theorem drainCryptoBuffers_own (env : Env) (s : State) :
    OwnPairs s (drainCryptoBuffers env s) := by
  refine forLoop_inv (fun _ t => OwnPairs s t) (OwnPairs.refl s) ?_
  intro i t _ ht
  rw [drainQueue]
  split
  · exact ht.trans (.queue (enqueueCopBurst_count env (t.1.tbl i) t.2))
  · exact ht

end HandOver
