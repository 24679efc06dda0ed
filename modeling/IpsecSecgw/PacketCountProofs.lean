import Mathlib.Algebra.BigOperators.Group.Finset.Basic
import IpsecSecgw.CryptoQueueProofs
import IpsecSecgw.IpsecProofs

/-! # Counting the packets of a context

    Every call on a crypto context accounts for its packets: `Moves s n s' m`
    says that it takes `n` packets in and gives `m` back, and that the others
    are in the context or have been freed.  `Settles` is the same for the world
    alone, `QueueMoves` for one queue. -/

namespace PacketCount

open SaModel MbufModel SadModel CdevModel Esp IpsecModel Outcome Slots

/-! ## What is counted -/

/-- The packets freed behind the receive counter, by `free_pkts` and by
    `free_cops`. -/
def settled (w : World) : Nat := w.dropped + w.copsFreed.length

/-- The packets of one queue: those the device holds and those in the buffer. -/
def queueLoad (ctx : IpsecCtx) (w : World) (i : Nat) : Nat :=
  (w.pair (ctx.tbl i).toCdevQp).held.length + (ctx.tbl i).buf.length

/-- The packets in the queues of a context. -/
def load (s : State) : Nat :=
  ∑ i ∈ Finset.range s.1.nbQps, queueLoad s.1 s.2 i

/-- The assertion of `ipsec_enqueue`: operations go to queues the context has. -/
def UsesFit (w : World) : Prop := ∀ u ∈ w.queued, u.index < u.nbQps

/-! ## Worlds -/

/-- So many packets are freed; no queue pair and no log of uses changes. -/
structure Settles (w : World) (k : Nat) (w' : World) : Prop where
  pair : w'.pair = w.pair
  queued : w'.queued = w.queued
  count : settled w' = settled w + k

theorem Settles.refl (w : World) : Settles w 0 w := ⟨rfl, rfl, rfl⟩

theorem Settles.trans {w w' w'' : World} {k k' : Nat} (h : Settles w k w')
    (h' : Settles w' k' w'') : Settles w (k + k') w'' := by
  refine ⟨h'.pair.trans h.pair, h'.queued.trans h.queued, ?_⟩
  rw [h'.count, h.count, Nat.add_assoc]

/-- Nothing more is freed. -/
theorem Settles.then {w w' w'' : World} {k : Nat} (h : Settles w k w')
    (h' : Settles w' 0 w'') : Settles w k w'' := h.trans h'

theorem settles_freePkts (w : World) (ps : List PktId) :
    Settles w ps.length (w.freePkts ps) := by
  refine ⟨rfl, rfl, ?_⟩
  show w.dropped + ps.length + w.copsFreed.length
    = w.dropped + w.copsFreed.length + ps.length
  omega

theorem settles_freeCops (w : World) (ps : List PktId) :
    Settles w ps.length (w.freeCops ps) := by
  refine ⟨rfl, rfl, ?_⟩
  show w.dropped + (w.copsFreed ++ ps).length = _
  rw [List.length_append, ← Nat.add_assoc]
  rfl

theorem settles_modifyAll (ps : List PktId) (f : PktId → Mbuf → Mbuf)
    (w : World) : Settles w 0 (w.modifyAll ps f) := by
  induction ps generalizing w with
  | nil => exact Settles.refl w
  | cons p ps ih =>
      have hmodify : Settles w 0 (w.modify p (f p)) := ⟨rfl, rfl, rfl⟩
      exact hmodify.then (ih _)

/-- A transformation of a packet. -/
theorem settles_xform (f : XformFn) (w : World) (pkt : PktId) (p : SaPtr) :
    Ends (w.xform f pkt p) (fun _ => True) (fun r => Settles w 0 r.2) := by
  rw [World.xform]
  split
  · exact ends_error trivial
  · exact ends_ok ⟨rfl, rfl, rfl⟩

/-! ## Contexts -/

/-- The queues of a context keep their pairs. -/
structure SameKeys (ctx ctx' : IpsecCtx) : Prop where
  nbQps : ctx'.nbQps = ctx.nbQps
  key : ∀ i, (ctx'.tbl i).toCdevQp = (ctx.tbl i).toCdevQp

theorem SameKeys.refl (ctx : IpsecCtx) : SameKeys ctx ctx :=
  ⟨rfl, fun _ => rfl⟩

theorem SameKeys.trans {ctx ctx' ctx'' : IpsecCtx} (h : SameKeys ctx ctx')
    (h' : SameKeys ctx' ctx'') : SameKeys ctx ctx'' :=
  ⟨h'.nbQps.trans h.nbQps, fun i => (h'.key i).trans (h.key i)⟩

/-- Different queues have different pairs. -/
def Distinct (ctx : IpsecCtx) : Prop :=
  ∀ i j, i < ctx.nbQps → j < ctx.nbQps →
    (ctx.tbl i).toCdevQp = (ctx.tbl j).toCdevQp → i = j

theorem SameKeys.distinct {ctx ctx' : IpsecCtx} (h : SameKeys ctx ctx')
    (hd : Distinct ctx) : Distinct ctx' := by
  intro i j hi hj he
  rw [h.nbQps] at hi hj
  rw [h.key, h.key] at he
  exact hd i j hi hj he

/-- All packets of a context. -/
def content (s : State) : Nat := load s + s.1.olPkts.length

/-- **A CALL** on a context takes `n` packets in and gives `m` back; the others
    are in the context or have been freed. -/
structure Moves (s : State) (n : Nat) (s' : State) (m : Nat) : Prop where
  keys : SameKeys s.1 s'.1
  log : s.2.queued ⊆ s'.2.queued
  others : UsesFit s'.2 → ∀ k, (∀ i, i < s.1.nbQps → k ≠ (s.1.tbl i).toCdevQp) →
    s'.2.pair k = s.2.pair k
  count : UsesFit s'.2 → Distinct s.1 →
    content s' + settled s'.2 + m = content s + settled s.2 + n

theorem UsesFit.mono {w w' : World} (h : UsesFit w') (hsub : w.queued ⊆ w'.queued) :
    UsesFit w := fun u hu => h u (hsub hu)

theorem Moves.trans {s s' s'' : State} {n m l : Nat} (h : Moves s n s' m)
    (h' : Moves s' m s'' l) : Moves s n s'' l := by
  refine ⟨h.keys.trans h'.keys, fun _ hu => h'.log (h.log hu), ?_, ?_⟩
  · intro hfit k hk
    refine (h'.others hfit k ?_).trans (h.others (hfit.mono h'.log) k hk)
    intro i hi
    rw [h.keys.key]
    rw [h.keys.nbQps] at hi
    exact hk i hi
  · intro hfit hd
    rw [h'.count hfit (h.keys.distinct hd), h.count (hfit.mono h'.log) hd]

/-- Other packets pass by. -/
theorem Moves.frame {s s' : State} {n m : Nat} (h : Moves s n s' m) (k : Nat) :
    Moves s (n + k) s' (m + k) := by
  refine ⟨h.keys, h.log, h.others, ?_⟩
  intro hfit hd
  have := h.count hfit hd
  omega

/-- The numbers may be written in another way. -/
theorem Moves.cast {s s' : State} {n m n' m' : Nat} (h : Moves s n s' m)
    (hn : n = n') (hm : m = m') : Moves s n' s' m' := by
  rw [← hn, ← hm]
  exact h

/-- Packets of the call are freed, or nothing happens to packets. -/
theorem Settles.moves {ctx : IpsecCtx} {w w' : World} {k : Nat}
    (h : Settles w k w') (m : Nat) : Moves (ctx, w) (k + m) (ctx, w') m := by
  have hload : load (ctx, w') = load (ctx, w) := by
    rw [load, load]
    refine Finset.sum_congr rfl ?_
    intro i _
    rw [queueLoad, queueLoad, h.pair]
  refine ⟨SameKeys.refl ctx, ?_, ?_, ?_⟩
  · show w.queued ⊆ w'.queued
    rw [h.queued]
    exact List.Subset.refl _
  · intro _ k _
    show w'.pair k = w.pair k
    rw [h.pair]
  · intro _ _
    show load (ctx, w') + ctx.olPkts.length + settled w' + m = _
    rw [hload, h.count]
    show _ = load (ctx, w) + ctx.olPkts.length + settled w + (k + m)
    omega

theorem Moves.refl (s : State) (n : Nat) : Moves s n s n :=
  ((Settles.refl s.2).moves n).cast (Nat.zero_add n) rfl

/-! ## Queues -/

/-- A call on one queue that takes `n` operations in and gives `m` back. -/
structure QueueMoves (q : CdevQueue) (w : World) (n : Nat)
    (r : CdevQueue × World) (m : Nat) : Prop where
  key : r.1.toCdevQp = q.toCdevQp
  others : ∀ k, k ≠ q.toCdevQp → r.2.pair k = w.pair k
  queued : r.2.queued = w.queued
  count : (r.2.pair q.toCdevQp).held.length + r.1.buf.length + settled r.2 + m
    = (w.pair q.toCdevQp).held.length + q.buf.length + settled w + n

theorem QueueMoves.trans {q : CdevQueue} {w : World} {n m l : Nat}
    {r r' : CdevQueue × World} (h : QueueMoves q w n r m)
    (h' : QueueMoves r.1 r.2 m r' l) : QueueMoves q w n r' l := by
  have hcount := h'.count
  rw [h.key] at hcount
  refine ⟨h'.key.trans h.key, ?_, h'.queued.trans h.queued, hcount.trans h.count⟩
  intro k hk
  refine (h'.others k ?_).trans (h.others k hk)
  rw [h.key]
  exact hk

/-- **ONE QUEUE** of a context. -/
theorem QueueMoves.moves {s : State} {i n m : Nat} {r : CdevQueue × World}
    (h : QueueMoves (s.1.tbl i) s.2 n r m)
    (hi : UsesFit r.2 → i < s.1.nbQps) :
    Moves s n (s.1.setQueue i r.1, r.2) m := by
  have hself : (s.1.setQueue i r.1).tbl i = r.1 := Function.update_self ..
  have hother : ∀ j, j ≠ i → (s.1.setQueue i r.1).tbl j = s.1.tbl j :=
    fun j hj => Function.update_of_ne hj _ _
  refine ⟨⟨rfl, ?_⟩, ?_, ?_, ?_⟩
  · intro j
    by_cases hj : j = i
    · rw [hj]
      show ((s.1.setQueue i r.1).tbl i).toCdevQp = _
      rw [hself]
      exact h.key
    · show ((s.1.setQueue i r.1).tbl j).toCdevQp = _
      rw [hother j hj]
  · show s.2.queued ⊆ r.2.queued
    rw [h.queued]
    exact List.Subset.refl _
  · intro hfit k hk
    exact h.others k (hk i (hi hfit))
  · intro hfit hd
    have hi := hi hfit
    have hmem : i ∈ Finset.range s.1.nbQps := Finset.mem_range.mpr hi
    -- the other queues are as they were
    have hrest : ∑ j ∈ (Finset.range s.1.nbQps).erase i,
        queueLoad (s.1.setQueue i r.1) r.2 j
        = ∑ j ∈ (Finset.range s.1.nbQps).erase i, queueLoad s.1 s.2 j := by
      refine Finset.sum_congr rfl ?_
      intro j hj
      obtain ⟨hne, hj⟩ := Finset.mem_erase.mp hj
      have hkey : (s.1.tbl j).toCdevQp ≠ (s.1.tbl i).toCdevQp := fun he =>
        hne (hd j i (Finset.mem_range.mp hj) hi he)
      rw [queueLoad, queueLoad, hother j hne, h.others _ hkey]
    have hnew : load (s.1.setQueue i r.1, r.2)
        = queueLoad (s.1.setQueue i r.1) r.2 i
          + ∑ j ∈ (Finset.range s.1.nbQps).erase i, queueLoad s.1 s.2 j := by
      rw [← hrest]
      exact (Finset.add_sum_erase _ _ hmem).symm
    have hold : load s = queueLoad s.1 s.2 i
        + ∑ j ∈ (Finset.range s.1.nbQps).erase i, queueLoad s.1 s.2 j :=
      (Finset.add_sum_erase _ _ hmem).symm
    have hcount := h.count
    rw [← h.key] at hcount
    show load (s.1.setQueue i r.1, r.2) + s.1.olPkts.length + settled r.2 + m
      = load s + s.1.olPkts.length + settled s.2 + n
    rw [hnew, hold, queueLoad, queueLoad, hself]
    rw [h.key] at hcount ⊢
    omega

/-- A device takes what it has room for; the rest is to be freed. -/
theorem burst_count (env : Env) (key : CdevQp) (ops : List PktId) (w : World) :
    let r := rteCryptodevEnqueueBurst env key ops w
    (∀ k, k ≠ key → r.2.pair k = w.pair k) ∧ r.2.queued = w.queued
      ∧ settled r.2 = settled w
      ∧ (r.2.pair key).held.length + (ops.drop r.1).length
        = (w.pair key).held.length + ops.length := by
  intro r
  refine ⟨fun k hk => Function.update_of_ne hk _ _, rfl, rfl, ?_⟩
  have hself : (r.2.pair key).held = (w.pair key).held ++ ops.take r.1 := by
    show (Function.update w.pair key _ key).held = _
    rw [Function.update_self]
    rfl
  rw [hself, List.length_append, Nat.add_assoc, ← List.length_append,
    List.take_append_drop]

theorem enqueueCopBurst_count (env : Env) (q : CdevQueue) (w : World) :
    QueueMoves q w 0 (enqueueCopBurst env q w) 0 := by
  obtain ⟨hothers, hqueued, hsettled, hcount⟩ :=
    burst_count env q.toCdevQp q.buf w
  generalize hr : rteCryptodevEnqueueBurst env q.toCdevQp q.buf w = r
    at hothers hqueued hsettled hcount
  have hfree := settles_freePkts r.2 (q.buf.drop r.1)
  rw [enqueueCopBurst, hr]
  refine ⟨rfl, hothers, hqueued, ?_⟩
  show (r.2.pair q.toCdevQp).held.length + 0 + settled (r.2.freePkts _) + 0 = _
  rw [hfree.count, hsettled]
  omega

theorem enqueueCopFull_count (env : Env) (q : CdevQueue) (w : World) :
    QueueMoves q w 0 (enqueueCopFull env q w) 0 := by
  obtain ⟨hothers, hqueued, hsettled, hcount⟩ :=
    burst_count env q.toCdevQp q.buf w
  generalize hr : rteCryptodevEnqueueBurst env q.toCdevQp q.buf w = r
    at hothers hqueued hsettled hcount
  have hfree := settles_freeCops r.2 (q.buf.drop r.1)
  rw [enqueueCopFull, hr]
  refine ⟨rfl, hothers, hqueued, ?_⟩
  show (r.2.pair q.toCdevQp).held.length + 0 + settled (r.2.freeCops _) + 0 = _
  rw [hfree.count, hsettled]
  omega

/-- Handing operations to a queue is logged. -/
theorem submit_count (q : CdevQueue) (w : World) (ops : List PktId) :
    QueueMoves q w 0 (q, w.submit q.toCdevQp ops) 0 := by
  refine ⟨rfl, fun k hk => Function.update_of_ne hk _ _, rfl, ?_⟩
  show ((Function.update w.pair q.toCdevQp _ q.toCdevQp).held.length)
    + q.buf.length + settled w + 0 = _
  rw [Function.update_self]

/-- Operations enter the buffer. -/
theorem fill_count (q : CdevQueue) (w : World) (ops : List PktId) (k : Nat) :
    QueueMoves q w (ops.length + k) ({ q with buf := q.buf ++ ops }, w) k := by
  refine ⟨rfl, fun _ _ => rfl, rfl, ?_⟩
  show (w.pair q.toCdevQp).held.length + (q.buf ++ ops).length + settled w + k
    = (w.pair q.toCdevQp).held.length + q.buf.length + settled w + (ops.length + k)
  rw [List.length_append]
  omega

theorem QueueMoves.frame {q : CdevQueue} {w : World} {n m : Nat}
    {r : CdevQueue × World} (h : QueueMoves q w n r m) (k : Nat) :
    QueueMoves q w (n + k) r (m + k) := by
  refine ⟨h.key, h.others, h.queued, ?_⟩
  have := h.count
  omega

theorem QueueMoves.refl (q : CdevQueue) (w : World) (n : Nat) :
    QueueMoves q w n (q, w) n := ⟨rfl, fun _ _ => rfl, rfl, rfl⟩

/-- **ONE OPERATION**. -/
theorem enqueueCop_count (env : Env) (cop : PktId) (q : CdevQueue) (w : World) :
    Ends (enqueueCop env cop q w) (fun _ => True)
      (fun r => QueueMoves q w 1 r 0) := by
  have hin := ((submit_count q w [cop]).frame 1).trans
    (fill_count q (w.submit q.toCdevQp [cop]) [cop] 0)
  rw [enqueueCop]
  split
  · exact ends_error trivial
  · dsimp only
    split
    · exact ends_ok (hin.trans (enqueueCopBurst_count env _ _))
    · exact ends_ok hin

/-- The refill loop of `enqueue_cop_bulk`. -/
theorem copBulkLoop_count (env : Env) (fuel : Nat) (cops : List PktId)
    (q : CdevQueue) (w : World) :
    Ends (copBulkLoop env fuel cops q w) (fun _ => True)
      (fun r => QueueMoves q w cops.length r 0) := by
  induction fuel generalizing cops q w with
  | zero => exact ends_error trivial
  | succ fuel ih =>
      rw [copBulkLoop]
      split
      · exact ends_error trivial
      dsimp only
      generalize min cops.length (maxPktBurst - q.buf.length) = n
      have hsplit : (cops.take n).length + (cops.drop n).length = cops.length := by
        rw [← List.length_append, List.take_append_drop]
      have hfill := fill_count q w (cops.take n) (cops.drop n).length
      rw [hsplit] at hfill
      generalize hr : (if (q.buf ++ cops.take n).length = maxPktBurst then
        enqueueCopFull env { q with buf := q.buf ++ cops.take n } w
        else ({ q with buf := q.buf ++ cops.take n }, w)) = r
      have hround : QueueMoves q w cops.length r (cops.drop n).length := by
        rw [← hr]
        split
        · refine hfill.trans ?_
          have hfull := (enqueueCopFull_count env
            { q with buf := q.buf ++ cops.take n } w).frame (cops.drop n).length
          rw [Nat.zero_add] at hfull
          exact hfull
        · exact hfill
      split
      · rename_i hdone
        rw [hdone] at hround
        exact ends_ok hround
      · refine (ih (cops.drop n) r.1 r.2).mono (fun _ h => h) ?_
        intro r' hr'
        exact hround.trans hr'

/-- **IN BULK**. -/
theorem enqueueCopBulk_count (env : Env) (cops : List PktId) (q : CdevQueue)
    (w : World) :
    Ends (enqueueCopBulk env cops q w) (fun _ => True)
      (fun r => QueueMoves q w cops.length r 0) := by
  have hsub := (submit_count q w cops).frame cops.length
  rw [Nat.zero_add] at hsub
  rw [enqueueCopBulk]
  dsimp only
  split
  · obtain ⟨hothers, hqueued, hsettled, hcount⟩ :=
      burst_count env q.toCdevQp cops (w.submit q.toCdevQp cops)
    generalize rteCryptodevEnqueueBurst env q.toCdevQp cops
      (w.submit q.toCdevQp cops) = r at hothers hqueued hsettled hcount
    have hfree := settles_freeCops r.2 (cops.drop r.1)
    refine ends_ok (hsub.trans ⟨rfl, hothers, hqueued, ?_⟩)
    show (r.2.pair q.toCdevQp).held.length + q.buf.length
      + settled (r.2.freeCops _) + 0 = _
    rw [hfree.count, hsettled]
    show _ = ((w.submit q.toCdevQp cops).pair q.toCdevQp).held.length
      + q.buf.length + settled (w.submit q.toCdevQp cops) + cops.length
    omega
  · refine (copBulkLoop_count env _ cops q _).mono (fun _ h => h) ?_
    intro r hr
    exact hsub.trans hr

/-! ## Sessions -/

theorem attachObject_settles (env : Env) (p : SaPtr) (fb : Bool) (dev : Nat)
    (w : World) : Settles w 0 (attachObject env p fb dev w) := by
  rw [attachObject]
  dsimp only
  split
  · exact ⟨rfl, rfl, rfl⟩
  · exact ⟨rfl, rfl, rfl⟩

theorem createLookasideSession_settles (env : Env) (ctx : IpsecCtx) (p : SaPtr)
    (fb : Bool) (w : World) :
    Settles w 0 (createLookasideSession env ctx p fb w).2 := by
  rw [createLookasideSession]
  split
  · exact Settles.refl w
  rename_i i _
  have hattach := attachObject_settles env p fb (ctx.tbl i).id w
  dsimp only
  generalize attachObject env p fb (ctx.tbl i).id w = w1 at hattach
  split
  · split
    · exact hattach
    · exact hattach.then ⟨rfl, rfl, rfl⟩
  · exact Settles.refl w
  · exact Settles.refl w
  · split
    · exact Settles.refl w
    · exact hattach.then ⟨rfl, rfl, rfl⟩
  · exact hattach.then ⟨rfl, rfl, rfl⟩

theorem openSession_settles (env : Env) (ctx : IpsecCtx) (p : SaPtr) (fb : Bool)
    (w : World) : Settles w 0 (openSession env ctx p fb w).2 := by
  rw [openSession]
  split
  · exact createLookasideSession_settles env ctx p fb w
  · exact Settles.refl w

theorem fillIpsecSession_settles (env : Env) (ctx : IpsecCtx) (p : SaPtr)
    (fb : Bool) (w : World) :
    Settles w 0 (fillIpsecSession env ctx p fb w).2 := by
  have hprepare : ∀ r : Int × World, Settles w 0 r.2 →
      Settles w 0 (if r.1 ≠ 0 then r
        else
          let rc := env.sessionPrepare r.2.tick
          if rc ≠ 0 then
            (rc, r.2.next.modifySa p fun sa => setSession sa fb {})
          else (0, r.2.next)).2 := by
    intro r hr
    dsimp only
    split
    · exact hr
    · split
      · exact hr.then ⟨rfl, rfl, rfl⟩
      · exact hr.then ⟨rfl, rfl, rfl⟩
  rw [fillIpsecSession]
  refine hprepare _ ?_
  split
  · exact createLookasideSession_settles env ctx p fb w
  · exact createLookasideSession_settles env ctx p fb w
  · exact createLookasideSession_settles env ctx p fb w
  · exact Settles.refl w
  · exact Settles.refl w

/-! ## The legacy path -/

theorem prepareOp_settles (env : Env) (f : XformFn) (ctx : IpsecCtx)
    (pkt : PktId) (p : SaPtr) (w : World) :
    Ends (prepareOp env f ctx pkt p w) (fun _ => True)
      (fun r => Settles w 0 r.2) := by
  have hmodify : ∀ (w : World) (g : Mbuf → Mbuf), Settles w 0 (w.modify pkt g) :=
    fun _ _ => ⟨rfl, rfl, rfl⟩
  have hxform : ∀ (w1 : World) (d d' : Dest), Settles w 0 w1 →
      Ends (w1.xform f pkt p >>= fun r =>
        pure (if r.1 = 0 then d else d', r.2) : Except Fault (Dest × World))
        (fun _ => True) (fun r => Settles w 0 r.2) := by
    intro w1 d d' h1
    refine (settles_xform f w1 pkt p).bind ?_
    intro r hr
    exact ends_pure (h1.then hr)
  rw [prepareOp]
  dsimp only
  have hsa := hmodify w (setPrivSa p)
  generalize w.modify pkt (setPrivSa p) = w0 at hsa
  have hfresh := hsa.then (hmodify w0 fun m => m.setStatus .notProcessed)
  generalize w0.modify pkt (fun m => m.setStatus .notProcessed) = fresh at hfresh
  have hopen := hfresh.then (openSession_settles env ctx p false fresh)
  generalize openSession env ctx p false fresh = r at hopen
  split
  · split
    · exact ends_ok hopen
    · split
      · exact ends_ok hopen
      · exact ends_ok (hopen.then (hmodify _ _))
  · exact ends_ok hsa
  · split
    · exact ends_ok hopen
    · exact hxform _ _ _ (hopen.then (hmodify _ _))
  · exact ends_ok hsa
  · exact hxform _ _ _ (hfresh.then (hmodify _ _))

/-- Operations of an SA go into the queue it names. -/
theorem useQueue_moves {s : State} {pkts : List PktId} {p : SaPtr} {fb : Bool}
    {n m : Nat} {r : CdevQueue × World}
    (h : QueueMoves (s.1.tbl (s.2.sa p).cdevIdQp.toNat)
      (s.2.useQueue s.1 pkts p fb) n r m) :
    Moves s n (s.1.setQueue (s.2.sa p).cdevIdQp.toNat r.1, r.2) m := by
  have hlog : s.2.queued ⊆ (s.2.useQueue s.1 pkts p fb).queued :=
    List.subset_append_left _ _
  have huse : Moves s n (s.1, s.2.useQueue s.1 pkts p fb) n :=
    ⟨SameKeys.refl _, hlog, fun _ _ _ => rfl, fun _ _ => rfl⟩
  refine huse.trans (QueueMoves.moves (s := (s.1, s.2.useQueue s.1 pkts p fb)) h ?_)
  -- the use that has been logged is one of those that fit
  intro hfit
  refine hfit ⟨pkts, p, (session (s.2.sa p) fb).ses,
    (s.2.sa p).cdevIdQp.toNat, s.1.nbQps,
    (s.1.tbl (s.2.sa p).cdevIdQp.toNat).id⟩ ?_
  rw [h.queued]
  exact List.mem_append_right _ (List.mem_singleton_self _)

/-- The offload array does not overflow. -/
structure Keeps (ctx ctx' : IpsecCtx) : Prop where
  lastQp : ctx'.lastQp = ctx.lastQp
  room : ctx.olPkts.length ≤ maxPktBurst → ctx'.olPkts.length ≤ maxPktBurst

theorem Keeps.refl (ctx : IpsecCtx) : Keeps ctx ctx := ⟨rfl, fun h => h⟩

theorem Keeps.trans {ctx ctx' ctx'' : IpsecCtx} (h : Keeps ctx ctx')
    (h' : Keeps ctx' ctx'') : Keeps ctx ctx'' :=
  ⟨h'.lastQp.trans h.lastQp, fun hle => h'.room (h.room hle)⟩

/-- **ONE PACKET** of a burst. -/
theorem ipsecEnqueueOne_moves (env : Env) (f : XformFn) (s : State)
    (x : PktId × Option SaRef) :
    Ends (ipsecEnqueueOne env f s x) (fun _ => True)
      (fun s' => Moves s 1 s' 0 ∧ Keeps s.1 s'.1) := by
  have hfree : ∀ w, Settles s.2 0 w → Moves s 1 (s.1, w.freePkts [x.1]) 0 :=
    fun w hw => ((hw.trans (settles_freePkts w [x.1])).moves 0).cast rfl rfl
  rw [ipsecEnqueueOne]
  split
  · exact ends_ok ⟨hfree s.2 (Settles.refl _), Keeps.refl _⟩
  rename_i p _ _
  refine (prepareOp_settles env f s.1 x.1 p s.2).bind ?_
  rintro ⟨dest, w⟩ hw
  dsimp only at hw ⊢
  split
  · exact ends_pure ⟨hfree w hw, Keeps.refl _⟩
  · -- the packet joins the offload array
    rw [IpsecCtx.pushOl]
    split
    · exact ends_error trivial
    · rename_i hroom
      have hmoves : Moves (s.1, s.2) (0 + 1) (s.1, w) 1 := hw.moves 1
      refine ends_ok ⟨⟨⟨rfl, fun _ => rfl⟩, hmoves.log, hmoves.others, ?_⟩, rfl, ?_⟩
      · intro hfit hd
        have hcount := hmoves.count hfit hd
        show load (s.1, w) + (s.1.olPkts ++ [x.1]).length + settled w + 0
          = content (s.1, s.2) + settled s.2 + 1
        rw [List.length_append]
        rw [content] at hcount
        dsimp only at hcount
        rw [List.length_singleton]
        omega
      · intro _
        show (s.1.olPkts ++ [x.1]).length ≤ maxPktBurst
        rw [List.length_append]
        exact Nat.not_le.mp hroom
  · refine (enqueueCop_count env x.1 _ _).bind ?_
    intro r hr
    have hmoves := useQueue_moves (s := (s.1, w)) hr
    exact ends_pure ⟨((hw.moves 1).cast (Nat.zero_add 1) rfl).trans hmoves, rfl,
      fun h => h⟩

/-- **ENQUEUEING** a burst. -/
theorem ipsecEnqueue_moves (env : Env) (f : XformFn)
    (burst : List (PktId × Option SaRef)) (s : State) :
    Ends (ipsecEnqueue env f burst s) (fun _ => True)
      (fun s' => Moves s burst.length s' 0 ∧ Keeps s.1 s'.1) := by
  refine ends_foldlM
    (P := fun todo s' => Moves s burst.length s' todo.length ∧ Keeps s.1 s'.1)
    ⟨Moves.refl s _, Keeps.refl _⟩ ?_
  rintro x todo s' ⟨h, hkeeps⟩
  refine (ipsecEnqueueOne_moves env f s' x).mono (fun _ h => h) ?_
  rintro s'' ⟨h', hkeeps'⟩
  refine ⟨h.trans ((h'.frame todo.length).cast ?_ (Nat.zero_add _)),
    hkeeps.trans hkeeps'⟩
  rw [List.length_cons, Nat.add_comm]

/-- **THE OFFLOAD ARRAY** is emptied from its end. -/
theorem ipsecInlineDequeue_moves (f : XformFn) (maxPkts fuel : Nat)
    (pkts : List PktId) (s : State) (hfuel : s.1.olPkts.length = fuel) :
    Ends (ipsecInlineDequeue f maxPkts fuel pkts s) (fun _ => True)
      (fun r => Moves s pkts.length r.2 r.1.length
        ∧ r.2.1.lastQp = s.1.lastQp
        ∧ (s.1.olPkts.length + pkts.length ≤ maxPkts → r.2.1.olPkts = [])) := by
  induction fuel generalizing pkts s with
  | zero =>
      exact ends_ok ⟨Moves.refl s _, rfl, fun _ => List.eq_nil_of_length_eq_zero hfuel⟩
  | succ fuel ih =>
      rw [ipsecInlineDequeue]
      split
      · rename_i hlast
        exact ends_ok ⟨Moves.refl s _, rfl,
          fun _ => List.getLast?_eq_none_iff.mp hlast⟩
      rename_i pkt hlast
      have hdrop : s.1.olPkts.dropLast.length = fuel := by
        rw [List.length_dropLast, hfuel, Nat.add_sub_cancel]
      split
      · rename_i hfull
        refine ends_ok ⟨Moves.refl s _, rfl, ?_⟩
        intro hle
        omega
      refine Ends.bind (P := fun _ => True) ?_ ?_
      · rw [World.privSa]
        split
        · exact ends_error trivial
        · exact ends_ok trivial
      intro p _
      refine (settles_xform f s.2 pkt p).bind ?_
      rintro ⟨ret, w⟩ hw
      dsimp only at hw ⊢
      -- the packet leaves the array, and is freed or returned
      have hpop : ∀ w', Settles s.2 0 w' → Moves s pkts.length
          ({ s.1 with olPkts := s.1.olPkts.dropLast }, w') (pkts.length + 1) := by
        intro w' hw'
        have hmoves : Moves (s.1, s.2) (0 + pkts.length) (s.1, w') pkts.length :=
          hw'.moves pkts.length
        refine ⟨⟨rfl, fun _ => rfl⟩, hmoves.log, hmoves.others, ?_⟩
        intro hfit hd
        have hcount := hmoves.count hfit hd
        rw [content] at hcount
        dsimp only at hcount
        show load (s.1, w') + s.1.olPkts.dropLast.length + settled w'
          + (pkts.length + 1) = content (s.1, s.2) + settled s.2 + pkts.length
        omega
      split
      · have hfree : Moves s pkts.length ({ s.1 with olPkts := s.1.olPkts.dropLast },
            w.freePkts [pkt]) pkts.length := by
          refine (hpop w hw).trans (((settles_freePkts w [pkt]).moves _).cast ?_ rfl)
          exact Nat.add_comm _ _
        refine (ih pkts ({ s.1 with olPkts := s.1.olPkts.dropLast },
          w.freePkts [pkt]) hdrop).mono (fun _ h => h) ?_
        rintro r ⟨hr, hlastQp, hol⟩
        refine ⟨hfree.trans hr, hlastQp, ?_⟩
        intro hle
        refine hol ?_
        show s.1.olPkts.dropLast.length + pkts.length ≤ maxPkts
        omega
      · refine (ih (pkts ++ [pkt]) ({ s.1 with olPkts := s.1.olPkts.dropLast },
          w.logProcessed (p, false) [pkt]) hdrop).mono (fun _ h => h) ?_
        rintro r ⟨hr, hlastQp, hol⟩
        have hlogged : Settles s.2 0 (w.logProcessed (p, false) [pkt]) :=
          hw.then ⟨rfl, rfl, rfl⟩
        rw [List.length_append] at hr
        refine ⟨(hpop _ hlogged).trans hr, hlastQp, ?_⟩
        intro hle
        refine hol ?_
        show s.1.olPkts.dropLast.length + (pkts ++ [pkt]).length ≤ maxPkts
        rw [List.length_append, List.length_singleton]
        omega

/-! ## Calls on a context at rest -/

/-- The offload array is empty, and the next dequeue starts at a queue. -/
structure Resting (ctx : IpsecCtx) : Prop where
  ol : ctx.olPkts = []
  last : ctx.lastQp = 0 ∨ ctx.lastQp < ctx.nbQps

/-- A call that leaves the context at rest. -/
structure Serves (s : State) (n : Nat) (s' : State) (m : Nat) : Prop extends
    Moves s n s' m where
  rests : Resting s'.1

theorem Serves.trans {s s' s'' : State} {n m l : Nat} (h : Serves s n s' m)
    (h' : Serves s' m s'' l) : Serves s n s'' l :=
  ⟨h.toMoves.trans h'.toMoves, h'.rests⟩

theorem Serves.frame {s s' : State} {n m : Nat} (h : Serves s n s' m) (k : Nat) :
    Serves s (n + k) s' (m + k) := ⟨h.toMoves.frame k, h.rests⟩

theorem Serves.cast {s s' : State} {n m n' m' : Nat} (h : Serves s n s' m)
    (hn : n = n') (hm : m = m') : Serves s n' s' m' :=
  ⟨h.toMoves.cast hn hm, h.rests⟩

/-- Work on the world. -/
theorem Settles.serves {s : State} {w : World} {k : Nat} (h : Settles s.2 k w)
    (hs : Resting s.1) (m : Nat) : Serves s (k + m) (s.1, w) m :=
  ⟨h.moves m, hs⟩

/-- Work on a queue. -/
theorem QueueMoves.serves {s : State} {i n m : Nat} {r : CdevQueue × World}
    (h : QueueMoves (s.1.tbl i) s.2 n r m) (hs : Resting s.1)
    (hi : i < s.1.nbQps) : Serves s n (s.1.setQueue i r.1, r.2) m :=
  ⟨h.moves fun _ => hi, hs.ol, hs.last⟩

/-- **A BURST** on the legacy path. -/
theorem ipsecBurst_serves (env : Env) (f post : XformFn)
    (burst : List (PktId × Option SaRef)) {s : State} (hs : Resting s.1) :
    Ends (ipsecBurst env f post burst maxPktBurst s) (fun _ => True)
      (fun r => Serves s burst.length r.2 r.1.length) := by
  rw [ipsecBurst]
  refine (ipsecEnqueue_moves env f burst s).bind ?_
  rintro s' ⟨h, hkeeps⟩
  refine (ipsecInlineDequeue_moves post maxPktBurst _ [] s' rfl).mono
    (fun _ h => h) ?_
  rintro r ⟨h', hlast, hol⟩
  refine ⟨h.trans h', hol ?_, ?_⟩
  · refine hkeeps.room ?_
    rw [hs.ol]
    exact Nat.zero_le _
  · rw [hlast, hkeeps.lastQp, h'.keys.nbQps, h.keys.nbQps]
    exact hs.last

/-! ## What comes out of the devices -/

/-- One packet is freed or returned. -/
theorem finishOp_settles (f : XformFn) (t : List PktId × World) (pkt : PktId) :
    Ends (finishOp f t pkt) (fun _ => True)
      (fun r => ∃ k, Settles t.2 k r.2 ∧ k + r.1.length = t.1.length + 1) := by
  have hback : ∀ w, Settles t.2 0 w →
      ∃ k, Settles t.2 k w ∧ k + (t.1 ++ [pkt]).length = t.1.length + 1 := by
    intro w hw
    refine ⟨0, hw, ?_⟩
    rw [Nat.zero_add, List.length_append, List.length_singleton]
  have hfree : ∀ w, Settles t.2 0 w →
      ∃ k, Settles t.2 k (w.freePkts [pkt]) ∧ k + t.1.length = t.1.length + 1 := by
    intro w hw
    exact ⟨_, hw.trans (settles_freePkts w [pkt]), Nat.add_comm 1 _⟩
  rw [finishOp]
  refine Ends.bind (P := fun _ => True) ?_ ?_
  · rw [World.privSa]
    split
    · exact ends_error trivial
    · exact ends_ok trivial
  intro p _
  dsimp only
  split
  · refine (settles_xform f t.2 pkt p).bind ?_
    rintro ⟨ret, w⟩ hw
    dsimp only at hw ⊢
    split
    · exact ends_pure (hfree w hw)
    · exact ends_pure (hback _ (hw.then ⟨rfl, rfl, rfl⟩))
  · split
    · exact ends_pure (hfree t.2 (Settles.refl _))
    · exact ends_pure (hback _ ⟨rfl, rfl, rfl⟩)
  · exact ends_pure (hback t.2 (Settles.refl _))

theorem finishOps_settles (f : XformFn) (l pkts : List PktId) (w : World) :
    Ends (l.foldlM (finishOp f) (pkts, w)) (fun _ => True)
      (fun r => ∃ k, Settles w k r.2
        ∧ k + r.1.length = pkts.length + l.length) := by
  refine (ends_foldlM (P := fun todo r => ∃ k, Settles w k r.2
    ∧ k + r.1.length + todo.length = pkts.length + l.length)
    ⟨0, Settles.refl w, by rw [Nat.zero_add]⟩ ?_).mono (fun _ h => h) ?_
  · rintro pkt todo r ⟨k, hk, hcount⟩
    refine (finishOp_settles f r pkt).mono (fun _ h => h) ?_
    rintro r' ⟨k', hk', hcount'⟩
    refine ⟨k + k', hk.trans hk', ?_⟩
    rw [List.length_cons] at hcount
    omega
  · rintro r ⟨k, hk, hcount⟩
    exact ⟨k, hk, hcount⟩

/-- **ONE QUEUE** is dequeued. -/
theorem cqpDequeue_count (env : Env) (q : CdevQueue) (num : Nat) (w : World) :
    QueueMoves q w 0 (cqpDequeue env q num w).2 (cqpDequeue env q num w).1.length := by
  rcases CryptoQueue.cqpDequeue_cases env q num w with ⟨-, heq⟩ | ⟨left, -, heq⟩
  · rw [heq]
    exact QueueMoves.refl q w 0
  rw [heq, rteCryptodevDequeueBurst]
  dsimp only
  generalize min (env.ready w.tick) (min num (w.pair q.toCdevQp).held.length) = n
  have hdone := settles_modifyAll ((w.pair q.toCdevQp).held.take n)
    (env.complete w.tick)
    { w.next with
      pair := Function.update w.pair q.toCdevQp
        { w.pair q.toCdevQp with
          held := (w.pair q.toCdevQp).held.drop n
          returned := (w.pair q.toCdevQp).returned
            ++ (w.pair q.toCdevQp).held.take n } }
  generalize World.modifyAll _ _ (env.complete w.tick) = w' at hdone
  refine ⟨rfl, ?_, hdone.queued, ?_⟩
  · intro k hk
    show w'.pair k = w.pair k
    rw [hdone.pair]
    exact Function.update_of_ne hk _ _
  · show (w'.pair q.toCdevQp).held.length + q.buf.length + settled w'
      + ((w.pair q.toCdevQp).held.take n).length = _
    rw [hdone.pair, hdone.count]
    dsimp only
    rw [Function.update_self, List.length_drop, List.length_take]
    show _ + settled w + 0 + _ = _
    omega

/-- **ALL QUEUES**, one after the other. -/
theorem ipsecDequeue_serves (env : Env) (f : XformFn) (maxPkts n : Nat)
    (pkts : List PktId) {s : State} (hs : Resting s.1) (hn : n ≤ s.1.nbQps) :
    Ends (ipsecDequeue env f maxPkts n pkts s) (fun _ => True)
      (fun r => Serves s pkts.length r.2 r.1.length) := by
  induction n generalizing pkts s with
  | zero => exact ends_ok ⟨Moves.refl s _, hs⟩
  | succ n ih =>
      rw [ipsecDequeue]
      split
      · exact ends_ok ⟨Moves.refl s _, hs⟩
      dsimp only
      have hi : s.1.lastQp < s.1.nbQps := by
        rcases hs.last with h | h
        · rw [h]
          exact Nat.lt_of_lt_of_le (Nat.succ_pos n) hn
        · exact h
      have hpull := (cqpDequeue_count env (s.1.tbl s.1.lastQp)
        (maxPkts - pkts.length) s.2).serves hs hi
      generalize cqpDequeue env (s.1.tbl s.1.lastQp) (maxPkts - pkts.length) s.2
        = r at hpull
      refine (finishOps_settles f r.1 pkts r.2.2).bind ?_
      rintro ⟨pkts', w⟩ ⟨k, hk, hcount⟩
      dsimp only at hk hcount ⊢
      generalize hnext : (if s.1.lastQp + 1 = s.1.nbQps then 0 else s.1.lastQp + 1)
        = next
      have hround : Serves s pkts.length
          ({ s.1.setQueue s.1.lastQp r.2.1 with lastQp := next }, w)
          pkts'.length := by
        have hmoves := ((hpull.frame pkts.length).trans
          ((Settles.serves hk hpull.rests pkts'.length).cast
            (hcount.trans (Nat.add_comm _ _)) rfl)).cast (Nat.zero_add _) rfl
        refine ⟨⟨⟨hmoves.keys.nbQps, hmoves.keys.key⟩, hmoves.log, hmoves.others,
          hmoves.count⟩, hs.ol, ?_⟩
        show next = 0 ∨ next < s.1.nbQps
        rw [← hnext]
        split
        · exact .inl rfl
        · exact .inr (by omega)
      refine (ih pkts' hround.rests ?_).mono (fun _ h => h) fun _ h => hround.trans h
      exact Nat.le_of_succ_le hn

/-- **DRAINING** the buffers. -/
theorem drainCryptoBuffers_serves (env : Env) {s : State} (hs : Resting s.1) :
    Serves s 0 (drainCryptoBuffers env s) 0 := by
  refine forLoop_inv (fun _ t => Serves s 0 t 0) ⟨Moves.refl s 0, hs⟩ ?_
  intro i t hi ht
  rw [drainQueue]
  split
  · refine ht.trans ((enqueueCopBurst_count env _ _).serves ht.rests ?_)
    rw [ht.keys.nbQps]
    exact hi
  · exact ht

/-- One of the two loops of `ctx_dequeue`. -/
theorem ctxDequeueLoop_moves (env : Env) (num n i : Nat) (cops : List PktId)
    (s : State) (hle : i + n ≤ s.1.nbQps) :
    Moves s cops.length (ctxDequeueLoop env num n i cops s).2.2
        (ctxDequeueLoop env num n i cops s).2.1.length
      ∧ (ctxDequeueLoop env num n i cops s).2.2.1.olPkts = s.1.olPkts
      ∧ (ctxDequeueLoop env num n i cops s).1 ≤ i + n := by
  induction n generalizing i cops s with
  | zero => exact ⟨Moves.refl s _, rfl, Nat.le_refl _⟩
  | succ n ih =>
      rw [ctxDequeueLoop]
      split
      · exact ⟨Moves.refl s _, rfl, Nat.le_add_right _ _⟩
      dsimp only
      have hpull := (cqpDequeue_count env (s.1.tbl i) (num - cops.length)
        s.2).moves fun _ => (by omega : i < s.1.nbQps)
      generalize cqpDequeue env (s.1.tbl i) (num - cops.length) s.2 = r at hpull
      obtain ⟨h, hol, hend⟩ := ih (i + 1) (cops ++ r.1)
        (s.1.setQueue i r.2.1, r.2.2) (by
          show i + 1 + n ≤ s.1.nbQps
          omega)
      refine ⟨?_, hol, by omega⟩
      refine ((hpull.frame cops.length).cast (Nat.zero_add _) ?_).trans h
      rw [List.length_append, Nat.add_comm]

/-- **ALL QUEUES** on the other path. -/
theorem ctxDequeue_serves (env : Env) (num : Nat) {s : State} (hs : Resting s.1) :
    Serves s 0 (ctxDequeue env num s).2 (ctxDequeue env num s).1.length := by
  have hlast : s.1.lastQp ≤ s.1.nbQps := by
    rcases hs.last with h | h
    · rw [h]
      exact Nat.zero_le _
    · exact Nat.le_of_lt h
  rw [ctxDequeue]
  dsimp only
  obtain ⟨h, hol, -⟩ := ctxDequeueLoop_moves env num (s.1.nbQps - s.1.lastQp)
    s.1.lastQp [] s (by omega)
  generalize ctxDequeueLoop env num (s.1.nbQps - s.1.lastQp) s.1.lastQp [] s = r
    at h hol
  have hroom : 0 + s.1.lastQp ≤ r.2.2.1.nbQps := by
    rw [h.keys.nbQps, Nat.zero_add]
    exact hlast
  obtain ⟨h', hol', hend⟩ := ctxDequeueLoop_moves env num s.1.lastQp 0 r.2.1
    r.2.2 hroom
  generalize ctxDequeueLoop env num s.1.lastQp 0 r.2.1 r.2.2 = r' at h' hol' hend
  have hmoves := h.trans h'
  refine ⟨⟨⟨hmoves.keys.nbQps, hmoves.keys.key⟩, hmoves.log, hmoves.others,
    hmoves.count⟩, hol'.trans (hol.trans hs.ol), ?_⟩
  -- the second loop stops in front of the queue the first one started at
  show r'.1 = 0 ∨ r'.1 < r'.2.2.1.nbQps
  rw [hmoves.keys.nbQps]
  rw [Nat.zero_add] at hend
  rcases hs.last with hzero | hlt
  · exact .inl (Nat.le_zero.mp (hzero ▸ hend))
  · exact .inr (Nat.lt_of_le_of_lt hend hlt)

/-! ## The librte_ipsec path -/

/-- The packets of both families. -/
def trfLen (trf : Traffic) : Nat := trf.ip4.length + trf.ip6.length

theorem trfLen_copyToTrf (trf : Traffic) (satp : Satp) (pkts : List PktId) :
    trfLen (copyToTrf trf satp pkts) = pkts.length + trfLen trf := by
  have h4 : trfLen { trf with ip4 := trf.ip4 ++ pkts } = pkts.length + trfLen trf := by
    show (trf.ip4 ++ pkts).length + trf.ip6.length = _
    rw [List.length_append, trfLen]
    omega
  have h6 : trfLen { trf with ip6 := trf.ip6 ++ pkts } = pkts.length + trfLen trf := by
    show trf.ip4.length + (trf.ip6 ++ pkts).length = _
    rw [List.length_append, trfLen]
    omega
  rw [copyToTrf]
  split
  · split
    · exact h4
    · exact h6
  · split
    · exact h4
    · exact h6

theorem settles_handle (env : Env) (ref : SaRef) (pkts : List PktId) (w : World) :
    Settles w 0 (rteIpsecHandle env ref pkts w).2 := by
  have hlog : Settles w 0
      { w.next with handled := w.handled ++ [(pkts, ref)] } := ⟨rfl, rfl, rfl⟩
  exact hlog.then (settles_modifyAll pkts _ _)

theorem settles_process (env : Env) (ref : SaRef) (pkts : List PktId) (w : World) :
    Settles w 0 (rteIpsecPktProcess env ref pkts w).2 :=
  (settles_handle env ref pkts w).then ⟨rfl, rfl, rfl⟩

theorem take_drop_length (l : List PktId) (n : Nat) :
    (l.take n).length + (l.drop n).length = l.length := by
  rw [← List.length_append, List.take_append_drop]

/-- **LOOKASIDE**. -/
theorem ipsecPrepareCryptoGroup_moves (env : Env) (p : SaPtr) (fb : Bool)
    (pkts : List PktId) (s : State) :
    Ends (ipsecPrepareCryptoGroup env p fb pkts s) (fun _ => True)
      (fun r => Moves s pkts.length r.2 (r.1.1.drop r.1.2).length
        ∧ r.2.1.olPkts = s.1.olPkts ∧ r.2.1.lastQp = s.1.lastQp) := by
  rw [ipsecPrepareCryptoGroup]
  dsimp only
  have hhanded := (settles_modifyAll pkts (fun _ => setPrivSa p) s.2).then
    (settles_handle env (p, fb) pkts (s.2.modifyAll pkts fun _ => setPrivSa p))
  have hperm := env.handle_perm (s.2.modifyAll pkts fun _ => setPrivSa p) (p, fb) pkts
  have hlen : (rteIpsecHandle env (p, fb) pkts
      (s.2.modifyAll pkts fun _ => setPrivSa p)).1.1.length = pkts.length :=
    hperm.length_eq
  have hsa : (rteIpsecHandle env (p, fb) pkts
      (s.2.modifyAll pkts fun _ => setPrivSa p)).2.sa = s.2.sa :=
    (Ipsec.rteIpsecHandle_handed env (p, fb) pkts _ s.2).sa
  generalize rteIpsecHandle env (p, fb) pkts
    (s.2.modifyAll pkts fun _ => setPrivSa p) = r at hhanded hlen hsa
  have hin : Moves s pkts.length (s.1, r.2) pkts.length :=
    (hhanded.moves pkts.length).cast (Nat.zero_add _) rfl
  split
  · rename_i hnone
    refine ends_pure ⟨?_, rfl, rfl⟩
    rw [hnone, List.drop_zero, hlen]
    exact hin
  · rw [← hsa]
    refine Ends.bind (P := fun s' => Moves (s.1, r.2) (r.1.1.take r.1.2).length s' 0
      ∧ s'.1.olPkts = s.1.olPkts ∧ s'.1.lastQp = s.1.lastQp) ?_ ?_
    · refine (enqueueCopBulk_count env _ _ _).bind ?_
      intro q hq
      exact ends_pure ⟨useQueue_moves (s := (s.1, r.2)) hq, rfl, rfl⟩
    · rintro s' ⟨hmoves, hol, hlast⟩
      refine ends_pure ⟨hin.trans ((hmoves.frame (r.1.1.drop r.1.2).length).cast
        ?_ (Nat.zero_add _)), hol, hlast⟩
      rw [take_drop_length, hlen]

/-- **INLINE**. -/
theorem ipsecProcessInlineGroup_settles (env : Env) (p : SaPtr) (fb : Bool)
    (pkts : List PktId) (trf : Traffic) (w : World) :
    let r := ipsecProcessInlineGroup env p fb pkts trf w
    Settles w 0 r.2.2
      ∧ (r.1.1.drop r.1.2).length + trfLen r.2.1 = pkts.length + trfLen trf := by
  rw [ipsecProcessInlineGroup]
  dsimp only
  refine ⟨(settles_modifyAll pkts _ w).then (settles_process env _ _ _), ?_⟩
  rw [trfLen_copyToTrf]
  have hlen := (env.handle_perm (w.modifyAll pkts fun _ => prepProcess p (w.sa p))
    (p, fb) pkts).length_eq
  generalize hr : rteIpsecPktProcess env (p, fb) pkts
    (w.modifyAll pkts fun _ => prepProcess p (w.sa p)) = r
  have hr1 : r.1.1.length = pkts.length := by
    rw [← hr]
    exact hlen
  have := take_drop_length r.1.1 r.1.2
  omega

/-- **SYNCHRONOUS**. -/
theorem ipsecProcessCpuGroup_settles (env : Env) (p : SaPtr) (fb : Bool)
    (pkts : List PktId) (trf : Traffic) (w : World) :
    let r := ipsecProcessCpuGroup env p fb pkts trf w
    Settles w 0 r.2.2
      ∧ (r.1.1.drop r.1.2).length + trfLen r.2.1 = pkts.length + trfLen trf := by
  rw [ipsecProcessCpuGroup]
  dsimp only
  have hfirst := (settles_modifyAll pkts (fun _ => prepProcess p (w.sa p)) w).then
    (settles_handle env (p, fb) pkts _)
  have hlen : (rteIpsecHandle env (p, fb) pkts
      (w.modifyAll pkts fun _ => prepProcess p (w.sa p))).1.1.length = pkts.length :=
    (env.handle_perm _ _ _).length_eq
  generalize rteIpsecHandle env (p, fb) pkts
    (w.modifyAll pkts fun _ => prepProcess p (w.sa p)) = r at hfirst hlen
  have hsecond := settles_process env (p, fb) (r.1.1.take r.1.2) r.2
  have hlen' : (rteIpsecPktProcess env (p, fb) (r.1.1.take r.1.2) r.2).1.1.length
      = (r.1.1.take r.1.2).length := (env.handle_perm _ _ _).length_eq
  have hle : (rteIpsecPktProcess env (p, fb) (r.1.1.take r.1.2) r.2).1.2
      ≤ (r.1.1.take r.1.2).length := env.handle_le _ _ _
  generalize rteIpsecPktProcess env (p, fb) (r.1.1.take r.1.2) r.2 = r'
    at hsecond hlen' hle
  refine ⟨hfirst.then hsecond, ?_⟩
  rw [trfLen_copyToTrf, List.drop_append_of_le_length (hlen' ▸ hle),
    List.length_append]
  have h1 := take_drop_length r.1.1 r.1.2
  have h2 := take_drop_length r'.1.1 r'.1.2
  omega

/-- **ONE GROUP**: its packets are to be freed, in a queue, or in the
    traffic. -/
theorem processGroup_moves (env : Env) (g : IpsecGroup) (trf : Traffic)
    (s : State) :
    Ends (processGroup env g trf s) (fun _ => True)
      (fun r => Moves s (g.pkts.length + trfLen trf) r.2.2
          ((r.1.1.drop r.1.2).length + trfLen r.2.1)
        ∧ r.2.2.1.olPkts = s.1.olPkts ∧ r.2.2.1.lastQp = s.1.lastQp) := by
  have hworld : ∀ w n, Settles s.2 0 w → n = g.pkts.length + trfLen trf →
      Moves s (g.pkts.length + trfLen trf) (s.1, w) n := by
    rintro w n hw rfl
    exact (hw.moves _).cast (Nat.zero_add _) rfl
  rw [processGroup]
  split
  · exact ends_ok ⟨hworld s.2 _ (Settles.refl _) rfl, rfl, rfl⟩
  rename_i p fb _
  have hfill : Settles s.2 0 (if (session (s.2.sa p) fb).ses = none then
      fillIpsecSession env s.1 p fb s.2 else ((0 : Int), s.2)).2 := by
    split
    · exact fillIpsecSession_settles env s.1 p fb s.2
    · exact Settles.refl _
  dsimp only
  generalize (if (session (s.2.sa p) fb).ses = none then
    fillIpsecSession env s.1 p fb s.2 else ((0 : Int), s.2)) = r at hfill
  split
  · exact ends_ok ⟨hworld r.2 _ hfill rfl, rfl, rfl⟩
  have hqueue : Ends (ipsecPrepareCryptoGroup env p fb g.pkts (s.1, r.2) >>=
      fun x => (pure (x.1, trf, x.2) : Except Fault (GroupResult × Traffic × State)))
      (fun _ => True)
      (fun x => Moves s (g.pkts.length + trfLen trf) x.2.2
          ((x.1.1.drop x.1.2).length + trfLen x.2.1)
        ∧ x.2.2.1.olPkts = s.1.olPkts ∧ x.2.2.1.lastQp = s.1.lastQp) := by
    refine (ipsecPrepareCryptoGroup_moves env p fb g.pkts (s.1, r.2)).bind ?_
    rintro x ⟨hmoves, hol, hlast⟩
    exact ends_pure ⟨(hworld r.2 _ hfill rfl).trans (hmoves.frame _), hol, hlast⟩
  have hinline := ipsecProcessInlineGroup_settles env p fb g.pkts trf r.2
  have hcpu := ipsecProcessCpuGroup_settles env p fb g.pkts trf r.2
  split
  · exact hqueue
  · exact hqueue
  · exact ends_ok ⟨hworld _ _ (hfill.then hinline.1) hinline.2, rfl, rfl⟩
  · exact ends_ok ⟨hworld _ _ (hfill.then hinline.1) hinline.2, rfl, rfl⟩
  · exact ends_ok ⟨hworld _ _ (hfill.then hcpu.1) hcpu.2, rfl, rfl⟩

/-- What a group leaves behind is freed. -/
theorem processOne_serves (env : Env) (t : Traffic × State) (g : IpsecGroup)
    (hs : Resting t.2.1) :
    Ends (processOne env t g) (fun _ => True)
      (fun t' => Serves t.2 (g.pkts.length + trfLen t.1) t'.2 (trfLen t'.1)) := by
  rw [processOne]
  refine (processGroup_moves env g t.1 t.2).bind ?_
  rintro ⟨res, trf, s⟩ ⟨hmoves, hol, hlast⟩
  dsimp only at hmoves hol hlast ⊢
  refine ends_pure ⟨hmoves.trans ((settles_freePkts s.2 _).moves _), ?_, ?_⟩
  · exact hol.trans hs.ol
  · show s.1.lastQp = 0 ∨ s.1.lastQp < s.1.nbQps
    rw [hlast, hmoves.keys.nbQps]
    exact hs.last

/-- The packets of groups. -/
def groupsLen (gs : List IpsecGroup) : Nat :=
  (gs.flatMap IpsecGroup.members).length

theorem groupsLen_cons (g : IpsecGroup) (gs : List IpsecGroup) :
    groupsLen (g :: gs) = groupsLen gs + g.pkts.length := by
  rw [groupsLen, List.flatMap_cons, List.length_append, IpsecGroup.members,
    List.length_map, Nat.add_comm]
  rfl

/-- **A BURST** on the `librte_ipsec` path. -/
theorem ipsecProcess_serves (env : Env) (burst : List (PktId × Option SaRef))
    (trf : Traffic) {s : State} (hs : Resting s.1) :
    Ends (ipsecProcess env burst trf s) (fun _ => True)
      (fun r => Serves s (burst.length + trfLen trf) r.2 (trfLen r.1)) := by
  have hlen : groupsLen (saGroup burst) = burst.length := by
    rw [groupsLen, Ipsec.saGroup_members]
  rw [ipsecProcess]
  refine (ends_foldlM (P := fun todo t => Serves s (burst.length + trfLen trf) t.2
    (groupsLen todo + trfLen t.1)) ⟨?_, hs⟩ ?_).mono (fun _ h => h) ?_
  · rw [hlen]
    exact Moves.refl s _
  · intro g todo t ht
    refine (processOne_serves env t g ht.rests).mono (fun _ h => h) ?_
    intro t' ht'
    refine ht.trans ((ht'.frame (groupsLen todo)).cast ?_ (Nat.add_comm _ _))
    rw [groupsLen_cons]
    omega
  · intro t ht
    exact ht.cast rfl (Nat.zero_add _)

end PacketCount
