import IpsecSecgw.CryptoQueueProofs
import IpsecSecgw.Lib.RoundRobin
import IpsecSecgw.SecgwModel

/-! # The turns of the crypto queues

    A lcore takes operations back from its queues in turn: `last_qp` is where
    the next dequeue starts.  Here the two dequeue loops keep a note of the
    queues they look at (and do nothing else, `ipsecDequeueVisits_erase` and
    `ctxDequeueVisits_erase`), and the note is a tour of `RoundRobin`.

    `ipsec_dequeue` moves `last_qp` with every queue, so its calls are one long
    tour.  `ctx_dequeue` stores where its second loop stops.  When the first
    loop has used up the budget that is 0, whatever the first loop has left out:
    its calls are a tour as long as the queues in front of the last one have
    less to give back than there is room for (`Room`). -/

namespace QueueTurn

open SaModel MbufModel SadModel CdevModel IpsecModel CryptoQueue Outcome Slots
  RoundRobin
open SecgwModel (trafficDim)

/-! ## The loops with a note of the queues -/

/-- `ipsec_dequeue`; in front, the queues it looks at. -/
def ipsecDequeueVisits (env : Env) (f : XformFn) (maxPkts : Nat) :
    Nat → List PktId → State → Except Fault (List Nat × List PktId × State)
  | 0, pkts, s => .ok ([], pkts, s)
  | n + 1, pkts, s =>
      if maxPkts ≤ pkts.length then .ok ([], pkts, s)
      else do
        let i := s.1.lastQp
        let next := if i + 1 = s.1.nbQps then 0 else i + 1
        let r := cqpDequeue env (s.1.tbl i) (maxPkts - pkts.length) s.2
        let (pkts, w) ← r.1.foldlM (finishOp f) (pkts, r.2.2)
        let t ← ipsecDequeueVisits env f maxPkts n pkts
          ({ s.1.setQueue i r.2.1 with lastQp := next }, w)
        return (i :: t.1, t.2)

/-- One of the loops of `ctx_dequeue`; in front, the queues it looks at. -/
def ctxDequeueLoopVisits (env : Env) (num : Nat) :
    Nat → Nat → List PktId → State → List Nat × Nat × List PktId × State
  | 0, i, cops, s => ([], i, cops, s)
  | n + 1, i, cops, s =>
      if cops.length = num then ([], i, cops, s)
      else
        let r := cqpDequeue env (s.1.tbl i) (num - cops.length) s.2
        let t := ctxDequeueLoopVisits env num n (i + 1) (cops ++ r.1)
          (s.1.setQueue i r.2.1, r.2.2)
        (i :: t.1, t.2)

/-- `ctx_dequeue`; in front, the queues it looks at. -/
def ctxDequeueVisits (env : Env) (num : Nat) (s : State) :
    List Nat × List PktId × State :=
  let last := s.1.lastQp
  let r := ctxDequeueLoopVisits env num (s.1.nbQps - last) last [] s
  let r' := ctxDequeueLoopVisits env num last 0 r.2.2.1 r.2.2.2
  (r.1 ++ r'.1, r'.2.2.1, { r'.2.2.2.1 with lastQp := r'.2.1 }, r'.2.2.2.2)

/-- **THE NOTE** changes nothing. -/
theorem ipsecDequeueVisits_erase (env : Env) (f : XformFn) (maxPkts n : Nat)
    (pkts : List PktId) (s : State) :
    (ipsecDequeueVisits env f maxPkts n pkts s).map Prod.snd
      = ipsecDequeue env f maxPkts n pkts s := by
  induction n generalizing pkts s with
  | zero => rfl
  | succ n ih =>
      rw [ipsecDequeueVisits, ipsecDequeue]
      split
      · rfl
      · dsimp only
        generalize cqpDequeue env (s.1.tbl s.1.lastQp) (maxPkts - pkts.length) s.2 = r
        cases r.1.foldlM (finishOp f) (pkts, r.2.2) with
        | error e => rfl
        | ok b =>
            have hrest := ih b.1 ({ s.1.setQueue s.1.lastQp r.2.1 with
              lastQp := if s.1.lastQp + 1 = s.1.nbQps then 0 else s.1.lastQp + 1 },
              b.2)
            simp only [bind, Except.bind]
            rw [← hrest]
            cases ipsecDequeueVisits env f maxPkts n b.1 _ <;> rfl

theorem ctxDequeueLoopVisits_erase (env : Env) (num n i : Nat)
    (cops : List PktId) (s : State) :
    (ctxDequeueLoopVisits env num n i cops s).2
      = ctxDequeueLoop env num n i cops s := by
  induction n generalizing i cops s with
  | zero => rfl
  | succ n ih =>
      rw [ctxDequeueLoopVisits, ctxDequeueLoop]
      split
      · rfl
      · exact ih _ _ _

theorem ctxDequeueVisits_erase (env : Env) (num : Nat) (s : State) :
    (ctxDequeueVisits env num s).2 = ctxDequeue env num s := by
  simp only [ctxDequeueVisits, ctxDequeue, ← ctxDequeueLoopVisits_erase]

/-! ## Tours -/

/-- The queues of a context have been looked at in turn. -/
structure Tour (ctx : IpsecCtx) (vs : List Nat) (ctx' : IpsecCtx) : Prop where
  nbQps : ctx'.nbQps = ctx.nbQps
  rotates : Rotates ctx.nbQps ctx.lastQp vs ctx'.lastQp

theorem Tour.trans {ctx ctx' ctx'' : IpsecCtx} {vs vs' : List Nat}
    (h : Tour ctx vs ctx') (h' : Tour ctx' vs' ctx'') :
    Tour ctx (vs ++ vs') ctx'' := by
  have hrot := h'.rotates
  rw [h.nbQps] at hrot
  exact ⟨h'.nbQps.trans h.nbQps, h.rotates.trans hrot⟩

/-- The next queue in turn. -/
theorem tour_next (ctx : IpsecCtx) (q : CdevQueue) (hlast : ctx.lastQp < ctx.nbQps) :
    Tour ctx [ctx.lastQp] { ctx.setQueue ctx.lastQp q with
      lastQp := if ctx.lastQp + 1 = ctx.nbQps then 0 else ctx.lastQp + 1 } := by
  refine ⟨rfl, (rotates_straight (k := 1) hlast).visits, ?_⟩
  dsimp only [List.length_singleton]
  split
  · rename_i hend
    rw [hend, Nat.mod_self, Nat.zero_mod]
  · rfl

/-- What a call of `ipsec_dequeue` has looked at; it looks at something when
    there is room for a packet. -/
structure Toured (s : State) (n : Nat) (room : Prop)
    (r : List Nat × List PktId × State) : Prop where
  tour : Tour s.1 r.1 r.2.2.1
  last : r.2.2.1.lastQp < r.2.2.1.nbQps
  some : 0 < n → room → r.1 ≠ []

/-- **THE LEGACY LOOP** goes on where it stopped, within a call and from call to
    call. -/
theorem ipsecDequeueVisits_tour (env : Env) (f : XformFn) (maxPkts n : Nat)
    (pkts : List PktId) {s : State} (hlast : s.1.lastQp < s.1.nbQps) :
    Ends (ipsecDequeueVisits env f maxPkts n pkts s) (fun _ => True)
      (Toured s n (pkts.length < maxPkts)) := by
  have hstop : Tour s.1 [] s.1 := ⟨rfl, Rotates.refl _ _⟩
  induction n generalizing pkts s with
  | zero =>
      refine ends_ok ⟨hstop, hlast, ?_⟩
      intro hn
      exact absurd hn (Nat.lt_irrefl 0)
  | succ n ih =>
      rw [ipsecDequeueVisits]
      split
      · rename_i hfull
        refine ends_ok ⟨hstop, hlast, ?_⟩
        intro _ hroom
        exact absurd hroom (Nat.not_lt.mpr hfull)
      dsimp only
      generalize cqpDequeue env (s.1.tbl s.1.lastQp) (maxPkts - pkts.length) s.2 = r
      have hnext := tour_next s.1 r.2.1 hlast
      -- the packets of the operations do not matter here
      refine Ends.bind (P := fun _ => True) ?_ ?_
      · cases r.1.foldlM (finishOp f) (pkts, r.2.2) <;> trivial
      rintro ⟨pkts', w⟩ -
      have hlast' : (if s.1.lastQp + 1 = s.1.nbQps then 0 else s.1.lastQp + 1)
          < s.1.nbQps := by
        split <;> omega
      refine (ih (s := ({ s.1.setQueue s.1.lastQp r.2.1 with
        lastQp := if s.1.lastQp + 1 = s.1.nbQps then 0 else s.1.lastQp + 1 }, w))
        pkts' hlast' ⟨rfl, Rotates.refl _ _⟩).bind ?_
      intro t ht
      refine ends_pure ⟨hnext.trans ht.tour, ht.last, ?_⟩
      intro _ _
      exact List.cons_ne_nil _ _

/-! ## What the devices give back -/

theorem modifyAll_tick (ps : List PktId) (f : PktId → Mbuf → Mbuf) (w : World) :
    (w.modifyAll ps f).tick = w.tick := by
  induction ps generalizing w with
  | nil => rfl
  | cons p ps ih => exact ih (w.modify p (f p))

/-- What a queue can give back at its turn: nothing when it has no operation in
    flight, since then the device is not asked. -/
def offer (env : Env) (t : Nat) (q : CdevQueue) (w : World) : Nat :=
  if q.inFlight = 0 then 0 else min (env.ready t) (w.pair q.toCdevQp).held.length

/-- The number of the question behind the turn of a queue. -/
def tickAfter (t : Nat) (q : CdevQueue) : Nat :=
  if q.inFlight = 0 then t else t + 1

/-- What `m` queues from the `i`-th on can give back one after the other. -/
def offers (env : Env) (s : State) : Nat → Nat → Nat → Nat
  | _, _, 0 => 0
  | t, i, m + 1 =>
      offer env t (s.1.tbl i) s.2
        + offers env s (tickAfter t (s.1.tbl i)) (i + 1) m

/-- `cqp_dequeue` takes what is offered as far as there is room, and leaves the
    other queue pairs alone. -/
structure Asked (env : Env) (q : CdevQueue) (num : Nat) (w : World)
    (r : List PktId × CdevQueue × World) : Prop where
  gives : r.1.length = min num (offer env w.tick q w)
  tick : r.2.2.tick = tickAfter w.tick q
  shrinks : ∀ key, (r.2.2.pair key).held.length ≤ (w.pair key).held.length
  others : ∀ key, key ≠ q.toCdevQp → r.2.2.pair key = w.pair key

theorem cqpDequeue_asked (env : Env) (q : CdevQueue) (num : Nat) (w : World) :
    Asked env q num w (cqpDequeue env q num w) := by
  rw [cqpDequeue]
  by_cases hidle : q.inFlight = 0
  · rw [if_pos hidle]
    refine ⟨?_, ?_, fun _ => Nat.le_refl _, fun _ _ => rfl⟩
    · rw [offer, if_pos hidle, Nat.min_zero]
      rfl
    · rw [tickAfter, if_pos hidle]
  · rw [if_neg hidle]
    simp only [rteCryptodevDequeueBurst]
    refine ⟨?_, ?_, ?_, ?_⟩
    · rw [offer, if_neg hidle, List.length_take]
      omega
    · rw [modifyAll_tick, tickAfter, if_neg hidle]
      rfl
    · intro key
      rw [(modifyAll_frame _ _ _).1]
      by_cases hkey : key = q.toCdevQp
      · subst hkey
        simp
      · simp [hkey]
    · intro key hkey
      rw [(modifyAll_frame _ _ _).1]
      simp [hkey]

/-- Less is offered when the devices hold less. -/
theorem offers_le (env : Env) (s s' : State) {i m : Nat} (t : Nat)
    (htbl : ∀ j, i ≤ j → s'.1.tbl j = s.1.tbl j)
    (hheld : ∀ j, i ≤ j → j < i + m →
      (s'.2.pair (s.1.tbl j).toCdevQp).held.length
        ≤ (s.2.pair (s.1.tbl j).toCdevQp).held.length) :
    offers env s' t i m ≤ offers env s t i m := by
  induction m generalizing i t with
  | zero => exact Nat.le_refl 0
  | succ m ih =>
      rw [offers, offers, htbl i (Nat.le_refl i)]
      refine Nat.add_le_add ?_ (ih _ ?_ ?_)
      · have hhead := hheld i (Nat.le_refl i) (by omega)
        rw [offer, offer]
        split
        · exact Nat.le_refl 0
        · omega
      · intro j hj
        exact htbl j (Nat.le_of_succ_le hj)
      · intro j hj hlt
        exact hheld j (Nat.le_of_succ_le hj) (by omega)

/-! ## `ctx_dequeue` -/

/-- Where one of the two loops stops, it has looked at all queues in front. -/
structure Straight (s : State) (n i : Nat)
    (r : List Nat × Nat × List PktId × State) : Prop where
  visits : r.1 = List.range' i r.1.length
  stop : r.2.1 = i + r.1.length
  short : r.1.length ≤ n
  nbQps : r.2.2.2.1.nbQps = s.1.nbQps

theorem ctxDequeueLoopVisits_straight (env : Env) (num n i : Nat)
    (cops : List PktId) (s : State) :
    Straight s n i (ctxDequeueLoopVisits env num n i cops s) := by
  induction n generalizing i cops s with
  | zero => exact ⟨rfl, rfl, Nat.le_refl 0, rfl⟩
  | succ n ih =>
      rw [ctxDequeueLoopVisits]
      split
      · exact ⟨rfl, rfl, Nat.zero_le _, rfl⟩
      dsimp only
      have hrest := ih (i + 1)
        (cops ++ (cqpDequeue env (s.1.tbl i) (num - cops.length) s.2).1)
        (s.1.setQueue i (cqpDequeue env (s.1.tbl i) (num - cops.length) s.2).2.1,
          (cqpDequeue env (s.1.tbl i) (num - cops.length) s.2).2.2)
      generalize ctxDequeueLoopVisits env num n (i + 1) _ _ = t at hrest
      refine ⟨?_, ?_, Nat.succ_le_succ hrest.short, hrest.nbQps⟩
      · rw [List.length_cons, List.range'_succ, ← hrest.visits]
      · rw [hrest.stop, List.length_cons, Nat.add_assoc, Nat.add_comm 1]

/-- With room for an operation a loop looks at a queue. -/
theorem ctxDequeueLoopVisits_some (env : Env) {num n : Nat} (i : Nat)
    {cops : List PktId} (s : State) (hn : 0 < n) (hroom : cops.length ≠ num) :
    (ctxDequeueLoopVisits env num n i cops s).1 ≠ [] := by
  obtain ⟨n, rfl⟩ : ∃ k, n = k + 1 := ⟨n - 1, by omega⟩
  rw [ctxDequeueLoopVisits, if_neg hroom]
  exact List.cons_ne_nil _ _

/-- The state behind the turn of a queue, as the queues that follow see it. -/
theorem turn_frame (s : State) {i : Nat} (q : CdevQueue) (w : World) :
    ∀ j, i + 1 ≤ j → ((s.1.setQueue i q, w) : State).1.tbl j = s.1.tbl j := by
  intro j hj
  exact Function.update_of_ne (Nat.ne_of_gt hj) _ _

/-- **ROOM TO THE END**: when the queues in front of the last one offer less than
    there is room for, a loop comes to the last one. -/
theorem ctxDequeueLoopVisits_runs (env : Env) {num m i : Nat}
    (cops : List PktId) {s : State}
    (hroom : cops.length + offers env s s.2.tick i m < num) :
    (ctxDequeueLoopVisits env num (m + 1) i cops s).1.length = m + 1 := by
  induction m generalizing i cops s with
  | zero =>
      rw [ctxDequeueLoopVisits, if_neg (by omega)]
      rfl
  | succ m ih =>
      rw [ctxDequeueLoopVisits, if_neg (by omega)]
      dsimp only
      rw [List.length_cons, Nat.succ_inj]
      have hasked := cqpDequeue_asked env (s.1.tbl i) (num - cops.length) s.2
      generalize cqpDequeue env (s.1.tbl i) (num - cops.length) s.2 = r at hasked
      apply ih
      rw [offers] at hroom
      have hgives := hasked.gives
      have hrest := offers_le env s (s.1.setQueue i r.2.1, r.2.2) (i := i + 1)
        (m := m) (tickAfter s.2.tick (s.1.tbl i))
        (turn_frame s r.2.1 r.2.2) fun _ _ _ => hasked.shrinks _
      rw [hasked.tick, List.length_append]
      omega

/-- **NO ROOM**: when they offer as much as there is room for, it does not. -/
theorem ctxDequeueLoopVisits_stops (env : Env) {num n m i : Nat}
    (cops : List PktId) {s : State}
    (hkeys : ∀ j k, i ≤ j → j < k → k < i + m →
      (s.1.tbl k).toCdevQp ≠ (s.1.tbl j).toCdevQp)
    (hfit : cops.length ≤ num)
    (hfull : num ≤ cops.length + offers env s s.2.tick i m) :
    (ctxDequeueLoopVisits env num n i cops s).1.length ≤ m := by
  induction n generalizing i m cops s with
  | zero => exact Nat.zero_le m
  | succ n ih =>
      rw [ctxDequeueLoopVisits]
      split
      · exact Nat.zero_le m
      rename_i hroom
      dsimp only
      cases m with
      | zero =>
          rw [offers] at hfull
          omega
      | succ m =>
          rw [List.length_cons]
          refine Nat.succ_le_succ (ih _ ?_ ?_ ?_)
          · intro j k hj hk hkm
            rw [turn_frame s _ _ k (by omega), turn_frame s _ _ j hj]
            exact hkeys j k (by omega) hk (by omega)
          · have hasked := cqpDequeue_asked env (s.1.tbl i) (num - cops.length) s.2
            rw [List.length_append, hasked.gives]
            omega
          · have hasked := cqpDequeue_asked env (s.1.tbl i) (num - cops.length) s.2
            generalize cqpDequeue env (s.1.tbl i) (num - cops.length) s.2 = r
              at hasked
            have hgives := hasked.gives
            rw [offers] at hfull
            -- the queues that follow hold what they held
            have hrest := offers_le env (s.1.setQueue i r.2.1, r.2.2) s (i := i + 1)
              (m := m) (tickAfter s.2.tick (s.1.tbl i))
              (fun j hj => (turn_frame s r.2.1 r.2.2 j hj).symm) (by
                intro j hj hjm
                rw [turn_frame s _ _ j hj, hasked.others _
                  (hkeys i j (Nat.le_refl i) hj (by omega))])
            rw [hasked.tick, List.length_append]
            omega

/-- A loop that stops early has used up the budget. -/
theorem ctxDequeueLoopVisits_full (env : Env) (num : Nat) {n i : Nat}
    (cops : List PktId) {s : State}
    (hshort : (ctxDequeueLoopVisits env num n i cops s).1.length < n) :
    (ctxDequeueLoopVisits env num n i cops s).2.2.1.length = num := by
  induction n generalizing i cops s with
  | zero => exact absurd hshort (Nat.not_lt_zero _)
  | succ n ih =>
      rw [ctxDequeueLoopVisits] at hshort ⊢
      split
      · rename_i hfull
        exact hfull
      · rename_i hroom
        rw [if_neg hroom] at hshort
        exact ih _ (Nat.lt_of_succ_lt_succ hshort)

/-- With the budget used up a loop does nothing. -/
theorem ctxDequeueLoopVisits_idle (env : Env) {num : Nat} (n i : Nat)
    {cops : List PktId} (s : State) (hfull : cops.length = num) :
    ctxDequeueLoopVisits env num n i cops s = ([], i, cops, s) := by
  cases n with
  | zero => rfl
  | succ n => rw [ctxDequeueLoopVisits, if_pos hfull]

/-- The queues from `last_qp` to the last but one have less to give back than
    there is room for. -/
def Room (env : Env) (num : Nat) (s : State) : Prop :=
  offers env s s.2.tick s.1.lastQp (s.1.nbQps - 1 - s.1.lastQp) < num

/-- **THE POSITION NEVER RISES**: the second loop stops at `last_qp` at the
    latest. -/
theorem ctxDequeueVisits_bound (env : Env) (num : Nat) (s : State) :
    (ctxDequeueVisits env num s).2.2.1.lastQp ≤ s.1.lastQp
      ∧ (ctxDequeueVisits env num s).2.2.1.nbQps = s.1.nbQps := by
  rw [ctxDequeueVisits]
  dsimp only
  have hfirst := ctxDequeueLoopVisits_straight env num (s.1.nbQps - s.1.lastQp)
    s.1.lastQp [] s
  generalize ctxDequeueLoopVisits env num (s.1.nbQps - s.1.lastQp) s.1.lastQp [] s
    = r at hfirst
  have hsecond := ctxDequeueLoopVisits_straight env num s.1.lastQp 0 r.2.2.1 r.2.2.2
  generalize ctxDequeueLoopVisits env num s.1.lastQp 0 r.2.2.1 r.2.2.2 = r' at hsecond
  constructor
  · rw [hsecond.stop, Nat.zero_add]
    exact hsecond.short
  · exact hsecond.nbQps.trans hfirst.nbQps

/-- **A CALL WITH ROOM** is a tour: the first loop comes to the end of the
    table, and the second one goes on in front. -/
theorem ctxDequeueVisits_tour (env : Env) {num : Nat} {s : State}
    (hqps : 1 ≤ s.1.nbQps) (hlast : s.1.lastQp ≤ s.1.nbQps) (hroom : Room env num s) :
    Tour s.1 (ctxDequeueVisits env num s).1 (ctxDequeueVisits env num s).2.2.1
      ∧ (ctxDequeueVisits env num s).1 ≠ [] := by
  have hnum : 0 < num := Nat.lt_of_le_of_lt (Nat.zero_le _) hroom
  refine ⟨⟨(ctxDequeueVisits_bound env num s).2, ?_⟩, ?_⟩
  · rw [ctxDequeueVisits]
    dsimp only
    have hfirst := ctxDequeueLoopVisits_straight env num (s.1.nbQps - s.1.lastQp)
      s.1.lastQp [] s
    -- with room for one more the first loop reaches the last queue
    have hall : (ctxDequeueLoopVisits env num (s.1.nbQps - s.1.lastQp)
        s.1.lastQp [] s).1.length = s.1.nbQps - s.1.lastQp := by
      rcases Nat.lt_or_eq_of_le hlast with hlt | heq
      · have hruns := ctxDequeueLoopVisits_runs env [] (s := s)
          (i := s.1.lastQp) (m := s.1.nbQps - 1 - s.1.lastQp)
          (by rw [List.length_nil, Nat.zero_add]; exact hroom)
        rw [show s.1.nbQps - 1 - s.1.lastQp + 1 = s.1.nbQps - s.1.lastQp by omega]
          at hruns
        exact hruns
      · rw [heq, Nat.sub_self]
        rfl
    generalize ctxDequeueLoopVisits env num (s.1.nbQps - s.1.lastQp) s.1.lastQp [] s
      = r at hfirst hall
    have hsecond := ctxDequeueLoopVisits_straight env num s.1.lastQp 0 r.2.2.1
      r.2.2.2
    generalize ctxDequeueLoopVisits env num s.1.lastQp 0 r.2.2.1 r.2.2.2 = r'
      at hsecond
    rw [hfirst.visits, hsecond.visits, hsecond.stop, hall]
    have hshort := hsecond.short
    -- from the first queue visited up to the last, then from zero on
    have htail : Rotates s.1.nbQps s.1.lastQp
        (List.range' s.1.lastQp (s.1.nbQps - s.1.lastQp)) s.1.nbQps := by
      have h := rotates_straight (n := s.1.nbQps) (p := s.1.lastQp)
        (k := s.1.nbQps - s.1.lastQp) (by omega)
      rw [Nat.add_sub_cancel' hlast] at h
      exact h
    have hfront : Rotates s.1.nbQps 0 (List.range' 0 r'.1.length) (0 + r'.1.length) :=
      rotates_straight (by omega)
    refine htail.trans (hfront.start ?_)
    rw [Nat.zero_mod, Nat.mod_self]
  · rw [ctxDequeueVisits]
    dsimp only
    intro hnone
    obtain ⟨hnone, hnone'⟩ := List.append_eq_nil_iff.mp hnone
    rcases Nat.lt_or_eq_of_le hlast with hlt | heq
    · exact ctxDequeueLoopVisits_some env s.1.lastQp s (by omega)
        (Nat.ne_of_lt hnum) hnone
    · -- behind the last queue only the second loop runs
      rw [heq, Nat.sub_self, ctxDequeueLoopVisits] at hnone'
      exact ctxDequeueLoopVisits_some env 0 s hqps (Nat.ne_of_lt hnum) hnone'

/-- **A CALL WITHOUT ROOM** leaves out the last queue, and the next one starts at
    0. -/
theorem ctxDequeueVisits_falls_back (env : Env) {num : Nat} {s : State}
    (hlast : s.1.lastQp < s.1.nbQps)
    (hkeys : ∀ i j, i < s.1.nbQps → j < s.1.nbQps →
      (s.1.tbl i).toCdevQp = (s.1.tbl j).toCdevQp → i = j)
    (hroom : ¬ Room env num s) :
    (ctxDequeueVisits env num s).2.2.1.lastQp = 0
      ∧ s.1.nbQps - 1 ∉ (ctxDequeueVisits env num s).1 := by
  rw [Room, Nat.not_lt] at hroom
  rw [ctxDequeueVisits]
  dsimp only
  have hfirst := ctxDequeueLoopVisits_straight env num (s.1.nbQps - s.1.lastQp)
    s.1.lastQp [] s
  have hstops := ctxDequeueLoopVisits_stops env (n := s.1.nbQps - s.1.lastQp)
    [] (s := s) (i := s.1.lastQp) (m := s.1.nbQps - 1 - s.1.lastQp) (by
      intro j k hj hk hkm heq
      have hjk := hkeys k j (by omega) (by omega) heq
      omega) (Nat.zero_le num) (by
      rw [List.length_nil, Nat.zero_add]
      exact hroom)
  have hfull := ctxDequeueLoopVisits_full env num (n := s.1.nbQps - s.1.lastQp)
    (i := s.1.lastQp) [] (s := s) (by omega)
  generalize ctxDequeueLoopVisits env num (s.1.nbQps - s.1.lastQp) s.1.lastQp [] s
    = r at hfirst hstops hfull
  rw [ctxDequeueLoopVisits_idle env s.1.lastQp 0 r.2.2.2 hfull]
  refine ⟨rfl, ?_⟩
  rw [List.append_nil, hfirst.visits, List.mem_range'_1]
  omega

/-! ## Between two dequeues -/

/-- The context has the same queues, and the next dequeue starts at the same
    one. -/
structure SamePlace (ctx ctx' : IpsecCtx) : Prop where
  nbQps : ctx'.nbQps = ctx.nbQps
  lastQp : ctx'.lastQp = ctx.lastQp

theorem SamePlace.refl (ctx : IpsecCtx) : SamePlace ctx ctx := ⟨rfl, rfl⟩

theorem SamePlace.trans {ctx ctx' ctx'' : IpsecCtx} (h : SamePlace ctx ctx')
    (h' : SamePlace ctx' ctx'') : SamePlace ctx ctx'' :=
  ⟨h'.nbQps.trans h.nbQps, h'.lastQp.trans h.lastQp⟩

/-- A call that may fail keeps the place. -/
def KeepsPlace (s : State) (x : Except Fault State) : Prop :=
  Ends x (fun _ => True) (fun t => SamePlace s.1 t.1)

theorem onQueue_place (s : State) (i : Nat)
    (f : CdevQueue → World → Except Fault (CdevQueue × World)) :
    KeepsPlace s (State.onQueue s i f) := by
  rw [State.onQueue]
  cases f (s.1.tbl i) s.2 with
  | error e => trivial
  | ok r => exact ends_pure ⟨rfl, rfl⟩

theorem ipsecEnqueueOne_place (env : Env) (f : XformFn) (s : State)
    (x : PktId × Option SaRef) : KeepsPlace s (ipsecEnqueueOne env f s x) := by
  obtain ⟨pkt, ref⟩ := x
  cases ref with
  | none => exact ends_ok (SamePlace.refl s.1)
  | some ref =>
      rw [ipsecEnqueueOne]
      dsimp only
      cases prepareOp env f s.1 pkt ref.1 s.2 with
      | error e => trivial
      | ok r =>
          obtain ⟨dest, w⟩ := r
          cases dest with
          | freed => exact ends_pure (SamePlace.refl s.1)
          | offload =>
              show Ends (s.1.pushOl pkt >>= _) _ _
              rw [IpsecCtx.pushOl]
              split
              · trivial
              · exact ends_pure ⟨rfl, rfl⟩
          | queue => exact onQueue_place (s.1, _) _ _

theorem ipsecEnqueue_place (env : Env) (f : XformFn)
    (burst : List (PktId × Option SaRef)) (s : State) :
    KeepsPlace s (ipsecEnqueue env f burst s) := by
  refine ends_foldlM (P := fun _ (t : State) => SamePlace s.1 t.1)
    (SamePlace.refl s.1) ?_
  intro x _ t ht
  exact (ipsecEnqueueOne_place env f t x).mono (fun _ h => h) fun _ h => ht.trans h

theorem ipsecInlineDequeue_place (f : XformFn) (maxPkts fuel : Nat)
    (pkts : List PktId) (s : State) :
    Ends (ipsecInlineDequeue f maxPkts fuel pkts s) (fun _ => True)
      (fun r => SamePlace s.1 r.2.1) := by
  induction fuel generalizing pkts s with
  | zero => exact ends_ok (SamePlace.refl s.1)
  | succ fuel ih =>
      rw [ipsecInlineDequeue]
      cases s.1.olPkts.getLast? with
      | none => exact ends_ok (SamePlace.refl s.1)
      | some pkt =>
          dsimp only
          split
          · exact ends_ok (SamePlace.refl s.1)
          cases s.2.privSa pkt with
          | error e => trivial
          | ok p =>
              show Ends (s.2.xform f pkt p >>= _) _ _
              cases s.2.xform f pkt p with
              | error e => trivial
              | ok r =>
                  have hol : SamePlace s.1
                      { s.1 with olPkts := s.1.olPkts.dropLast } := ⟨rfl, rfl⟩
                  show Ends (if r.1 ≠ 0 then _ else _) _ _
                  split
                  · exact (ih _ _).mono (fun _ h => h) fun _ h => hol.trans h
                  · exact (ih _ _).mono (fun _ h => h) fun _ h => hol.trans h

theorem drainCryptoBuffers_place (env : Env) (s : State) :
    SamePlace s.1 (drainCryptoBuffers env s).1 := by
  refine forLoop_inv (fun _ (t : State) => SamePlace s.1 t.1)
    (SamePlace.refl s.1) ?_
  intro i t _ ht
  rw [drainQueue]
  split
  · exact ht.trans ⟨rfl, rfl⟩
  · exact ht

theorem prepareGroup_place (env : Env) (p : SaPtr) (fallback : Bool)
    (pkts : List PktId) (trf : Traffic) (s : State) :
    Ends (do
      let (res, s) ← ipsecPrepareCryptoGroup env p fallback pkts s
      return (res, trf, s)) (fun _ => True)
      (fun r : GroupResult × Traffic × State => SamePlace s.1 r.2.2.1) := by
  refine Ends.bind (P := fun r : GroupResult × State => SamePlace s.1 r.2.1) ?_ ?_
  · rw [ipsecPrepareCryptoGroup]
    dsimp only
    split
    · exact ends_pure (SamePlace.refl _)
    · refine (onQueue_place _ _ _).bind ?_
      intro t ht
      exact ends_pure ⟨ht.nbQps, ht.lastQp⟩
  · rintro ⟨res, t⟩ h
    exact ends_pure h

theorem processOne_place (env : Env) (t : Traffic × State) (g : IpsecGroup) :
    Ends (processOne env t g) (fun _ => True) (fun r => SamePlace t.2.1 r.2.1) := by
  refine Ends.bind (P := fun r => SamePlace t.2.1 r.2.2.1) ?_ ?_
  · rw [processGroup]
    cases g.id with
    | none => exact ends_ok (SamePlace.refl _)
    | some ref =>
        obtain ⟨p, fallback⟩ := ref
        dsimp only
        generalize (if (session (t.2.2.sa p) fallback).ses = none then
          fillIpsecSession env t.2.1 p fallback t.2.2 else (0, t.2.2)) = r
        split
        · exact ends_ok (SamePlace.refl _)
        cases (session (r.2.sa p) fallback).type with
        | inlineCrypto => exact ends_ok (SamePlace.refl _)
        | inlineProtocol => exact ends_ok (SamePlace.refl _)
        | cpuCrypto => exact ends_ok (SamePlace.refl _)
        | none => exact prepareGroup_place env p fallback g.pkts t.1 _
        | lookasideProtocol => exact prepareGroup_place env p fallback g.pkts t.1 _
  · rintro ⟨res, trf, s⟩ h
    exact ends_pure h

theorem ipsecProcess_place (env : Env) (burst : List (PktId × Option SaRef))
    (trf : Traffic) (s : State) :
    Ends (ipsecProcess env burst trf s) (fun _ => True)
      (fun r => SamePlace s.1 r.2.1) := by
  refine ends_foldlM (P := fun _ (r : Traffic × State) => SamePlace s.1 r.2.1)
    (SamePlace.refl s.1) ?_
  intro g _ t ht
  exact (processOne_place env t g).mono (fun _ h => h) fun _ h => ht.trans h

/-! ## Runs -/

/-- The path a lcore takes, and with it the dequeue loop it uses. -/
inductive Mode
  | legacy
  | librte
  deriving DecidableEq, Repr

/-- The dequeue of a mode. -/
def Mode.action : Mode → Nat → Action
  | .legacy, num => .dequeue num
  | .librte, num => .ctxDequeue num

/-- Where `last_qp` may stand. -/
def Mode.Placed : Mode → IpsecCtx → Prop
  | .legacy, ctx => ctx.lastQp < ctx.nbQps
  | .librte, ctx => ctx.lastQp ≤ ctx.nbQps

/-- What a dequeue of a mode needs to go on in turn. -/
def Mode.Turns (env : Env) : Mode → Nat → State → Prop
  | .legacy, _, _ => True
  | .librte, num, s => Room env num s

/-- A dequeue; in front, the queues it looks at. -/
def dequeueCall (env : Env) (dir : Direction) (mode : Mode) (num : Nat)
    (s : State) : Except Fault (List Nat × State) :=
  match mode with
  | .legacy => do
      let r ← ipsecDequeueVisits env (dequeueXform dir) num s.1.nbQps [] s
      return (r.1, r.2.2)
  | .librte =>
      let r := ctxDequeueVisits env num s
      .ok (r.1, r.2.2)

theorem dequeueCall_erase (env : Env) (dir : Direction) (mode : Mode)
    (num : Nat) (s : State) :
    (dequeueCall env dir mode num s).map Prod.snd
      = exec env dir s (mode.action num) := by
  cases mode with
  | legacy =>
      show _ = (ipsecDequeue env (dequeueXform dir) num s.1.nbQps [] s >>= _)
      rw [← ipsecDequeueVisits_erase, dequeueCall]
      cases ipsecDequeueVisits env (dequeueXform dir) num s.1.nbQps [] s <;> rfl
  | librte =>
      show _ = Except.ok (ctxDequeue env num s).2
      rw [← ctxDequeueVisits_erase]
      rfl

/-- The other calls of a lcore keep the place. -/
theorem exec_place (env : Env) (dir : Direction) (s : State) (a : Action)
    (ha : ∀ (mode : Mode) (num : Nat), a ≠ mode.action num) :
    KeepsPlace s (exec env dir s a) := by
  cases a with
  | burst pkts =>
      refine Ends.bind (P := fun r : List PktId × State => SamePlace s.1 r.2.1) ?_
        fun r h => ends_pure h
      refine (ipsecEnqueue_place env (enqueueXform dir) pkts s).bind ?_
      intro t ht
      exact (ipsecInlineDequeue_place _ _ _ _ t).mono (fun _ h => h)
        fun _ h => ht.trans h
  | bulk i cops => exact onQueue_place s i _
  | drain => exact ends_ok (drainCryptoBuffers_place env s)
  | dequeue maxPkts => exact absurd rfl (ha .legacy maxPkts)
  | ctxDequeue num => exact absurd rfl (ha .librte num)
  | elsewhere w => exact ends_ok (SamePlace.refl s.1)

/-- A run with so many dequeues with a budget, the queues they look at, and its
    last state.  Before each of them `C` holds; between them anything may
    happen that keeps the place. -/
inductive Run (env : Env) (dir : Direction) (mode : Mode) (C : Nat → State → Prop)
    (s : State) : Nat → List Nat → State → Prop
  | start : Run env dir mode C s 0 [] s
  | call (num : Nat) {k : Nat} {vs v : List Nat} {t u : State} :
      Run env dir mode C s k vs t → 0 < num → C num t →
      dequeueCall env dir mode num t = .ok (v, u) →
      Run env dir mode C s (k + 1) (vs ++ v) u
  | between {k : Nat} {vs : List Nat} {t u : State} :
      Run env dir mode C s k vs t → SamePlace t.1 u.1 →
      Run env dir mode C s k vs u

/-- **ONE DEQUEUE** keeps the position in its bounds, and goes on in turn when it
    has what it needs for that. -/
theorem dequeueCall_turn (env : Env) (dir : Direction) {mode : Mode} {num : Nat}
    {s t : State} {v : List Nat} (hqps : 1 ≤ s.1.nbQps) (hplaced : mode.Placed s.1)
    (hnum : 0 < num) (hcall : dequeueCall env dir mode num s = .ok (v, t)) :
    t.1.nbQps = s.1.nbQps ∧ mode.Placed t.1
      ∧ (mode.Turns env num s → Tour s.1 v t.1 ∧ v ≠ []) := by
  cases mode with
  | legacy =>
      have htoured := ipsecDequeueVisits_tour env (dequeueXform dir) num s.1.nbQps
        [] hplaced
      have hends : Ends (dequeueCall env dir .legacy num s) (fun _ => True)
          (fun r => Tour s.1 r.1 r.2.1 ∧ r.2.1.lastQp < r.2.1.nbQps ∧ r.1 ≠ []) := by
        refine htoured.bind ?_
        intro r hr
        exact ends_pure ⟨hr.tour, hr.last, hr.some hqps hnum⟩
      obtain ⟨htour, hlast, hsome⟩ := hends.of_ok hcall
      exact ⟨htour.nbQps, hlast, fun _ => ⟨htour, hsome⟩⟩
  | librte =>
      have hcall : ((ctxDequeueVisits env num s).1, (ctxDequeueVisits env num s).2.2)
          = (v, t) := Except.ok.inj hcall
      obtain ⟨rfl, rfl⟩ := Prod.mk.inj hcall
      obtain ⟨hlast, hnb⟩ := ctxDequeueVisits_bound env num s
      refine ⟨hnb, ?_, ?_⟩
      · exact Nat.le_trans hlast (hnb ▸ hplaced)
      · intro hroom
        exact ctxDequeueVisits_tour env hqps hplaced hroom

/-- What a run has done so far. -/
structure Sofar (mode : Mode) (s : State) (turns : Prop) (k : Nat)
    (vs : List Nat) (t : State) : Prop where
  nbQps : t.1.nbQps = s.1.nbQps
  placed : mode.Placed t.1
  tour : turns → Tour s.1 vs t.1
  enough : turns → k ≤ vs.length

theorem Mode.Placed.same {mode : Mode} {ctx ctx' : IpsecCtx} (h : mode.Placed ctx)
    (hsame : SamePlace ctx ctx') : mode.Placed ctx' := by
  cases mode with
  | legacy =>
      rw [Mode.Placed, hsame.nbQps, hsame.lastQp]
      exact h
  | librte =>
      rw [Mode.Placed, hsame.nbQps, hsame.lastQp]
      exact h

theorem Tour.same {ctx ctx' ctx'' : IpsecCtx} {vs : List Nat}
    (h : Tour ctx vs ctx') (hsame : SamePlace ctx' ctx'') : Tour ctx vs ctx'' := by
  refine ⟨hsame.nbQps.trans h.nbQps, ?_⟩
  rw [hsame.lastQp]
  exact h.rotates

theorem Run.sofar {env : Env} {dir : Direction} {mode : Mode}
    {C : Nat → State → Prop} {s t : State} {k : Nat} {vs : List Nat}
    (hqps : 1 ≤ s.1.nbQps) (hplaced : mode.Placed s.1)
    (h : Run env dir mode C s k vs t) :
    Sofar mode s (∀ num t, C num t → mode.Turns env num t) k vs t := by
  induction h with
  | start =>
      exact ⟨rfl, hplaced, fun _ => ⟨rfl, Rotates.refl _ _⟩, fun _ => Nat.le_refl 0⟩
  | call num _ hnum hC hcall ih =>
      rw [← ih.nbQps] at hqps
      obtain ⟨hnb, hplaced', hturn⟩ := dequeueCall_turn env dir hqps ih.placed hnum hcall
      refine ⟨hnb.trans ih.nbQps, hplaced', ?_, ?_⟩
      · intro hturns
        exact (ih.tour hturns).trans (hturn (hturns _ _ hC)).1
      · intro hturns
        have hsome := List.length_pos_iff.mpr (hturn (hturns _ _ hC)).2
        have henough := ih.enough hturns
        rw [List.length_append]
        omega
  | between _ hsame ih =>
      exact ⟨hsame.nbQps.trans ih.nbQps, ih.placed.same hsame,
        fun hturns => (ih.tour hturns).same hsame, ih.enough⟩

/-- **EVERY QUEUE HAS ITS TURN** within as many dequeues as there are queues: in
    legacy mode always, and on the other path as long as the queues in front of
    the last one have less to give back than there is room for.  The position
    keeps its bounds in any case. -/
theorem every_queue_has_its_turn (env : Env) (dir : Direction) (mode : Mode)
    (C : Nat → State → Prop) {s t : State} {k : Nat} {vs : List Nat}
    (hqps : 1 ≤ s.1.nbQps) (hplaced : mode.Placed s.1)
    (hrun : Run env dir mode C s k vs t) :
    mode.Placed t.1
      ∧ ((∀ num u, C num u → mode.Turns env num u) → s.1.nbQps ≤ k →
        ∀ i, i < s.1.nbQps → i ∈ vs) := by
  have hsofar := hrun.sofar hqps hplaced
  refine ⟨hsofar.placed, ?_⟩
  intro hturns hk i hi
  exact (hsofar.tour hturns).rotates.covers
    (Nat.le_trans hk (hsofar.enough hturns)) hi

/-- A lcore with two queues, each with 128 operations in its device. -/
def busy : State :=
  ({ cdevMap := fun _ => none
     nbQps := 2
     tbl := fun i => { id := 0, qp := i, inFlight := 128 } },
    { blankWorld with
      pair := fun key => { held := (List.range 128).map (128 * key.qp + ·) } })

/-- Devices that have five operations done at a time. -/
def slowEnv : Env := { laxEnv 1 with ready := fun _ => 5 }

/-- The state behind the `ctx_dequeue` of `ipsec_cqp_process`. -/
def dequeued (env : Env) (s : State) : State := (ctxDequeueVisits env trafficDim s).2.2

theorem every_queue_has_its_turn_busy :
    let t := dequeued slowEnv (dequeued slowEnv busy)
    Mode.Placed .librte t.1
      ∧ ((∀ num u, Room slowEnv num u → Mode.Turns slowEnv .librte num u) → 2 ≤ 2 →
        ∀ i, i < 2 → i ∈ (ctxDequeueVisits slowEnv trafficDim busy).1
          ++ (ctxDequeueVisits slowEnv trafficDim (dequeued slowEnv busy)).1) := by
  refine every_queue_has_its_turn slowEnv .egress .librte (Room slowEnv) (s := busy)
    (k := 2) (by decide) (Nat.zero_le 2) ?_
  have hfirst : Run slowEnv .egress .librte (Room slowEnv) busy 1
      ([] ++ (ctxDequeueVisits slowEnv trafficDim busy).1)
      (dequeued slowEnv busy) := by
    refine Run.call trafficDim Run.start ?_ ?_ rfl
    · decide
    · show offers slowEnv busy 0 0 1 < 64
      decide +kernel
  refine Run.call trafficDim hfirst ?_ ?_ rfl
  · decide
  · show offers slowEnv (dequeued slowEnv busy) _ _ _ < 64
    decide +kernel

/-- **STARVED**: when the first queue can fill the array of operations each time,
    `ctx_dequeue` never comes to the second one. -/
theorem ctxDequeue_starves :
    ∃ vs t, Run (laxEnv 1) .egress .librte (fun _ _ => True) busy 2 vs t
      ∧ busy.1.nbQps = 2 ∧ Mode.Placed .librte busy.1 ∧ 1 ∉ vs
      ∧ (t.2.pair ⟨0, 1⟩).held.length = 128 := by
  refine ⟨_, _, Run.call trafficDim (Run.call trafficDim
    Run.start (by decide) trivial rfl) (by decide) trivial rfl, rfl,
    Nat.zero_le 2, ?_, ?_⟩
  · decide +kernel
  · decide +kernel

end QueueTurn
