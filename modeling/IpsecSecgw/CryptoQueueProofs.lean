import Mathlib.Logic.Relation
import IpsecSecgw.CdevProofs
import IpsecSecgw.EspProofs
import IpsecSecgw.IpsecModel
import IpsecSecgw.Lib.Outcome

/-! # Crypto queues lose nothing

    Three routines fill the buffer of a queue pair and flush it to the device,
    two take operations back, and the device refuses as much of a burst as it
    likes.  `Ledger` is the account of one queue pair that all of them keep:
    what was ever submitted is what the device was offered, in that order,
    followed by what still waits; and what the device took is what it gave
    back followed by what it holds.

    `reachable_conserves` carries it over any interleaving of the calls. -/

namespace CryptoQueue

open SaModel MbufModel CdevModel IpsecModel Esp Outcome Slots

/-! ## The account of a queue pair -/

/-- The account, with `pending` waiting for the device. -/
structure Ledger (p : QueuePair) (pending freed : List PktId) : Prop where
  submitted : p.submitted = p.offered.map Prod.fst ++ pending
  taken : (p.offered.filter Prod.snd).map Prod.fst = p.returned ++ p.held
  refused : ∀ x ∈ p.offered, x.2 = false → x.1 ∈ freed
  depth : p.held.length ≤ cdevQueueDesc

/-- Freeing more changes no account. -/
theorem Ledger.mono {p : QueuePair} {pending freed freed' : List PktId}
    (h : Ledger p pending freed) (hsub : ∀ x ∈ freed, x ∈ freed') :
    Ledger p pending freed' :=
  ⟨h.submitted, h.taken, fun x hx hr => hsub _ (h.refused x hx hr), h.depth⟩

/-- What a call on one queue pair leaves alone. -/
structure QueueStep (key : CdevQp) (w w' : World) : Prop where
  others : ∀ k, k ≠ key → w'.pair k = w.pair k
  freed : ∀ p ∈ w.freed, p ∈ w'.freed
  sa : w'.sa = w.sa

theorem QueueStep.refl (key : CdevQp) (w : World) : QueueStep key w w :=
  ⟨fun _ _ => rfl, fun _ h => h, rfl⟩

theorem QueueStep.trans {key : CdevQp} {w w' w'' : World}
    (h : QueueStep key w w') (h' : QueueStep key w' w'') :
    QueueStep key w w'' where
  others := by
    intro k hk
    rw [h'.others k hk, h.others k hk]
  freed := fun p hp => h'.freed p (h.freed p hp)
  sa := h'.sa.trans h.sa

theorem marked_taken (l : List PktId) :
    ((l.map fun p => (p, true)).filter Prod.snd).map Prod.fst = l := by
  induction l with
  | nil => rfl
  | cons p l ih =>
      rw [List.map_cons, List.filter_cons, if_pos rfl, List.map_cons, ih]

theorem marked_refused (l : List PktId) :
    (l.map fun p => (p, false)).filter Prod.snd = [] := by
  induction l with
  | nil => rfl
  | cons p l ih =>
      rw [List.map_cons, List.filter_cons, if_neg Bool.false_ne_true, ih]

/-- **THE BURST**: what is offered leaves the pending operations, is held or
    refused, and the refused ones are freed. -/
theorem burst_ledger (env : Env) {key : CdevQp} {ops rest : List PktId}
    {w : World} (h : Ledger (w.pair key) (ops ++ rest) w.freed) :
    let r := rteCryptodevEnqueueBurst env key ops w
    Ledger ((r.2.freePkts (ops.drop r.1)).pair key) rest
        (r.2.freePkts (ops.drop r.1)).freed
      ∧ (r.2.pair key).held.length = (w.pair key).held.length + r.1
      ∧ (r.2.pair key).submitted = (w.pair key).submitted
      ∧ QueueStep key w (r.2.freePkts (ops.drop r.1)) := by
  intro r
  have hle : r.1 ≤ ops.length := Nat.le_trans (Nat.min_le_right _ _)
    (Nat.min_le_left _ _)
  have hroom : r.1 ≤ cdevQueueDesc - (w.pair key).held.length :=
    Nat.le_trans (Nat.min_le_right _ _) (Nat.min_le_right _ _)
  -- what is taken is held, all of it is in the log
  have hpair : r.2.pair key =
      { w.pair key with
        held := (w.pair key).held ++ ops.take r.1
        offered := (w.pair key).offered ++ (ops.take r.1).map (·, true)
          ++ (ops.drop r.1).map (·, false) } := Function.update_self ..
  have hheld : (r.2.pair key).held.length
      = (w.pair key).held.length + r.1 := by
    rw [hpair, List.length_append, List.length_take, Nat.min_eq_left hle]
  have hdepth := h.depth
  refine ⟨⟨?_, ?_, ?_, ?_⟩, hheld, by rw [hpair], ?_, ?_, rfl⟩
  · show (r.2.pair key).submitted = (r.2.pair key).offered.map Prod.fst ++ rest
    rw [hpair, h.submitted]
    simp only [List.map_append, List.map_map, Function.comp_def, List.map_id',
      List.append_assoc, List.take_append_drop]
  · show ((r.2.pair key).offered.filter Prod.snd).map Prod.fst
      = (r.2.pair key).returned ++ (r.2.pair key).held
    rw [hpair]
    dsimp only
    rw [List.filter_append, List.filter_append, List.map_append,
      List.map_append, h.taken, marked_taken, marked_refused, List.map_nil,
      List.append_nil, List.append_assoc]
  · -- what is refused here is freed here
    intro x hx hr
    have hx : x ∈ (r.2.pair key).offered := hx
    rw [hpair] at hx
    show x.1 ∈ w.freed ++ ops.drop r.1
    rcases List.mem_append.mp hx with hx | hx
    · rcases List.mem_append.mp hx with hx | hx
      · exact List.mem_append_left _ (h.refused x hx hr)
      · obtain ⟨p, -, rfl⟩ := List.mem_map.mp hx
        cases hr
    · obtain ⟨p, hp, rfl⟩ := List.mem_map.mp hx
      exact List.mem_append_right _ hp
  · show (r.2.pair key).held.length ≤ cdevQueueDesc
    rw [hheld]
    omega
  · intro k hk
    exact Function.update_of_ne hk _ _
  · intro p hp
    exact List.mem_append_left _ hp

/-! ## One queue -/

/-- A queue agrees with the account of its pair; `pending` operations are on
    the way to its buffer. -/
structure QueueOk (q : CdevQueue) (pending : List PktId) (w : World) : Prop where
  ledger : Ledger (w.pair q.toCdevQp) (q.buf ++ pending) w.freed
  inFlight : q.inFlight = (w.pair q.toCdevQp).held.length

/-- What a call leaves behind on the queue it works on: the operations `ops`
    are submitted, the buffer is short again. -/
structure Served (q : CdevQueue) (w : World) (ops : List PktId)
    (r : CdevQueue × World) : Prop where
  ok : QueueOk r.1 [] r.2
  short : r.1.buf.length < maxPktBurst
  key : r.1.toCdevQp = q.toCdevQp
  submitted : (r.2.pair q.toCdevQp).submitted
    = (w.pair q.toCdevQp).submitted ++ ops
  step : QueueStep q.toCdevQp w r.2

/-- The 16-bit counter does not wrap below the depth of a queue pair. -/
theorem inFlight_add {a b : Nat} (h : a + b ≤ cdevQueueDesc) :
    (a + b) % 0x10000 = a + b := by
  have : cdevQueueDesc = 2048 := rfl
  exact Nat.mod_eq_of_lt (by omega)

/-- **A FLUSH** empties the buffer. -/
theorem enqueueCopBurst_ok (env : Env) {q : CdevQueue} {w : World}
    {rest : List PktId} (h : QueueOk q rest w) :
    QueueOk (enqueueCopBurst env q w).1 rest (enqueueCopBurst env q w).2
      ∧ (enqueueCopBurst env q w).1.buf = []
      ∧ (enqueueCopBurst env q w).1.toCdevQp = q.toCdevQp
      ∧ ((enqueueCopBurst env q w).2.pair q.toCdevQp).submitted
        = (w.pair q.toCdevQp).submitted
      ∧ QueueStep q.toCdevQp w (enqueueCopBurst env q w).2 := by
  obtain ⟨hledger, hheld, hsub, hstep⟩ := burst_ledger env h.ledger
  refine ⟨⟨hledger, ?_⟩, rfl, rfl, hsub, hstep⟩
  have hdepth := hledger.depth
  have hdepth : ((rteCryptodevEnqueueBurst env q.toCdevQp q.buf w).2.pair
    q.toCdevQp).held.length ≤ cdevQueueDesc := hdepth
  rw [hheld] at hdepth
  show (q.inFlight + (rteCryptodevEnqueueBurst env q.toCdevQp q.buf w).1)
    % 0x10000 = _
  rw [h.inFlight, inFlight_add hdepth, ← hheld]
  rfl

/-- A flush hands nothing to the queue. -/
theorem enqueueCopBurst_served (env : Env) {q : CdevQueue} {w : World}
    (h : QueueOk q [] w) : Served q w [] (enqueueCopBurst env q w) := by
  obtain ⟨hok, hbuf, hkey, hsub, hstep⟩ := enqueueCopBurst_ok env h
  refine ⟨hok, ?_, hkey, ?_, hstep⟩
  · rw [hbuf]
    decide
  · rw [List.append_nil]
    exact hsub

/-- Handing operations to a queue puts them behind its buffer. -/
theorem submit_ok {q : CdevQueue} {w : World} (h : QueueOk q [] w)
    (ops : List PktId) :
    QueueOk q ops (w.submit q.toCdevQp ops)
      ∧ ((w.submit q.toCdevQp ops).pair q.toCdevQp).submitted
        = (w.pair q.toCdevQp).submitted ++ ops
      ∧ QueueStep q.toCdevQp w (w.submit q.toCdevQp ops) := by
  have hpair : (w.submit q.toCdevQp ops).pair q.toCdevQp =
      { w.pair q.toCdevQp with
        submitted := (w.pair q.toCdevQp).submitted ++ ops } :=
    Function.update_self ..
  have hledger := h.ledger
  rw [List.append_nil] at hledger
  refine ⟨⟨⟨?_, ?_, ?_, ?_⟩, ?_⟩, by rw [hpair], ?_, fun _ hp => hp, rfl⟩
  · rw [hpair, hledger.submitted, List.append_assoc]
  · rw [hpair]
    exact hledger.taken
  · rw [hpair]
    exact hledger.refused
  · rw [hpair]
    exact hledger.depth
  · rw [hpair]
    exact h.inFlight
  · intro k hk
    exact Function.update_of_ne hk _ _

/-- Operations on the way enter the buffer. -/
theorem QueueOk.fill {q : CdevQueue} {w : World} {ops rest : List PktId}
    (h : QueueOk q (ops ++ rest) w) :
    QueueOk { q with buf := q.buf ++ ops } rest w := by
  refine ⟨?_, h.inFlight⟩
  have hledger := h.ledger
  rw [← List.append_assoc] at hledger
  exact hledger

/-- `enqueue_cop_bulk` flushes in the same way, but for the counter of dropped
    packets. -/
theorem enqueueCopFull_ok (env : Env) {q : CdevQueue} {w : World}
    {rest : List PktId} (h : QueueOk q rest w) :
    QueueOk (enqueueCopFull env q w).1 rest (enqueueCopFull env q w).2
      ∧ (enqueueCopFull env q w).1.buf = []
      ∧ (enqueueCopFull env q w).1.toCdevQp = q.toCdevQp
      ∧ ((enqueueCopFull env q w).2.pair q.toCdevQp).submitted
        = (w.pair q.toCdevQp).submitted
      ∧ QueueStep q.toCdevQp w (enqueueCopFull env q w).2 := by
  obtain ⟨hok, hbuf, hkey, hsub, hstep⟩ := enqueueCopBurst_ok env h
  exact ⟨⟨hok.ledger, hok.inFlight⟩, hbuf, hkey, hsub, hstep.others, hstep.freed,
    hstep.sa⟩

/-- A full buffer is flushed, any other stays. -/
theorem flushFull_ok {q : CdevQueue} {w : World} {rest : List PktId}
    (h : QueueOk q rest w) (hle : q.buf.length ≤ maxPktBurst)
    {flushed : CdevQueue × World}
    (hflush : QueueOk flushed.1 rest flushed.2 ∧ flushed.1.buf = []
      ∧ flushed.1.toCdevQp = q.toCdevQp
      ∧ (flushed.2.pair q.toCdevQp).submitted = (w.pair q.toCdevQp).submitted
      ∧ QueueStep q.toCdevQp w flushed.2) :
    let r := if q.buf.length = maxPktBurst then flushed else (q, w)
    QueueOk r.1 rest r.2 ∧ r.1.buf.length < maxPktBurst
      ∧ r.1.toCdevQp = q.toCdevQp
      ∧ (r.2.pair q.toCdevQp).submitted = (w.pair q.toCdevQp).submitted
      ∧ QueueStep q.toCdevQp w r.2 := by
  intro r
  by_cases hfull : q.buf.length = maxPktBurst
  · have hr : r = flushed := if_pos hfull
    obtain ⟨hok, hbuf, hkey, hsub, hstep⟩ := hflush
    rw [hr]
    refine ⟨hok, ?_, hkey, hsub, hstep⟩
    rw [hbuf]
    decide
  · have hr : r = (q, w) := if_neg hfull
    rw [hr]
    exact ⟨h, Nat.lt_of_le_of_ne hle hfull, rfl, rfl, QueueStep.refl _ _⟩

/-- **ONE AT A TIME**: `enqueue_cop`. -/
theorem enqueueCop_served (env : Env) (cop : PktId) {q : CdevQueue} {w : World}
    {E : Fault → Prop} (h : QueueOk q [] w)
    (hshort : q.buf.length < maxPktBurst) :
    Ends (enqueueCop env cop q w) E (Served q w [cop]) := by
  obtain ⟨hok, hsub, hstep⟩ := submit_ok h [cop]
  rw [← List.append_nil [cop]] at hok
  have hfit : (q.buf ++ [cop]).length ≤ maxPktBurst := by
    rw [List.length_append]
    exact hshort
  obtain ⟨hok', hlt, hkey, hsub', hstep'⟩ := flushFull_ok hok.fill hfit
    (enqueueCopBurst_ok env hok.fill)
  rw [enqueueCop, if_neg (Nat.not_le_of_lt hshort)]
  dsimp only
  split
  · rename_i hfull
    rw [if_pos hfull] at hok' hlt hkey hsub' hstep'
    exact ends_ok ⟨hok', hlt, hkey, hsub'.trans hsub, hstep.trans hstep'⟩
  · rename_i hfull
    rw [if_neg hfull] at hok' hlt hkey hsub' hstep'
    exact ends_ok ⟨hok', hlt, hkey, hsub'.trans hsub, hstep.trans hstep'⟩

/-- The refill loop of `enqueue_cop_bulk` ends with everything in the buffer or
    offered. -/
theorem copBulkLoop_ok (env : Env) {E : Fault → Prop} {fuel : Nat}
    {cops : List PktId} {q : CdevQueue} {w : World} (hok : QueueOk q cops w)
    (hshort : q.buf.length < maxPktBurst) (hfuel : cops.length < fuel) :
    Ends (copBulkLoop env fuel cops q w) E (Served q w []) := by
  induction fuel generalizing cops q w with
  | zero => exact absurd hfuel (Nat.not_lt_zero _)
  | succ fuel ih =>
      rw [copBulkLoop, if_neg (Nat.not_lt_of_lt hshort)]
      dsimp only
      generalize hn : min cops.length (maxPktBurst - q.buf.length) = n
      have hsplit : QueueOk q (cops.take n ++ cops.drop n) w := by
        rw [List.take_append_drop]
        exact hok
      have hfit : ({ q with buf := q.buf ++ cops.take n } : CdevQueue).buf.length
          ≤ maxPktBurst := by
        show (q.buf ++ cops.take n).length ≤ maxPktBurst
        rw [List.length_append, List.length_take]
        omega
      obtain ⟨hok', hlt, hkey, hsub, hstep⟩ :=
        flushFull_ok hsplit.fill hfit (enqueueCopFull_ok env hsplit.fill)
      generalize hr : (if ({ q with buf := q.buf ++ cops.take n }
        : CdevQueue).buf.length = maxPktBurst then
          enqueueCopFull env { q with buf := q.buf ++ cops.take n } w
        else ({ q with buf := q.buf ++ cops.take n }, w)) = r at hok' hlt hkey hsub hstep
      show Ends (if cops.drop n = [] then .ok r
        else copBulkLoop env fuel (cops.drop n) r.1 r.2) E _
      split
      · rename_i hdone
        rw [hdone] at hok'
        exact ends_ok ⟨hok', hlt, hkey, by rw [List.append_nil]; exact hsub,
          hstep⟩
      · rename_i hmore
        -- at least one operation found room
        have hpos : 0 < cops.length := by
          refine List.length_pos_iff.mpr ?_
          rintro rfl
          exact hmore List.drop_nil
        have hlen : (cops.drop n).length < fuel := by
          rw [List.length_drop]
          omega
        refine (ih hok' hlt hlen).mono (fun _ he => he) ?_
        intro r' hr'
        have hkey' : r.1.toCdevQp = q.toCdevQp := hkey
        refine ⟨hr'.ok, hr'.short, hr'.key.trans hkey', ?_, ?_⟩
        · have := hr'.submitted
          rw [hkey'] at this
          rw [this, hsub]
        · have := hr'.step
          rw [hkey'] at this
          exact hstep.trans this

/-- **IN BULK**: `enqueue_cop_bulk`, with or without the buffer. -/
theorem enqueueCopBulk_served (env : Env) (cops : List PktId) {q : CdevQueue}
    {w : World} {E : Fault → Prop} (h : QueueOk q [] w)
    (hshort : q.buf.length < maxPktBurst) :
    Ends (enqueueCopBulk env cops q w) E (Served q w cops) := by
  obtain ⟨hok, hsub, hstep⟩ := submit_ok h cops
  rw [enqueueCopBulk]
  dsimp only
  split
  · rename_i hdirect
    have hempty : q.buf = [] := List.eq_nil_of_length_eq_zero hdirect.2
    have hledger := hok.ledger
    rw [hempty, List.nil_append, ← List.append_nil cops] at hledger
    obtain ⟨hledger', hheld, hsub', hstep'⟩ := burst_ledger env hledger
    rw [List.append_nil] at hledger' hheld hsub' hstep'
    -- the account does not look at the count of dropped packets
    refine ends_ok ⟨⟨?_, ?_⟩, ?_, rfl, hsub'.trans hsub,
      hstep.trans ⟨hstep'.others, hstep'.freed, hstep'.sa⟩⟩
    · show Ledger _ (q.buf ++ []) _
      rw [hempty]
      exact hledger'
    · have hdepth : ((rteCryptodevEnqueueBurst env q.toCdevQp cops
          (w.submit q.toCdevQp cops)).2.pair q.toCdevQp).held.length
          ≤ cdevQueueDesc := hledger'.depth
      rw [hheld] at hdepth
      show (q.inFlight + (rteCryptodevEnqueueBurst env q.toCdevQp cops
        (w.submit q.toCdevQp cops)).1) % 0x10000 = _
      rw [hok.inFlight, inFlight_add hdepth, ← hheld]
      rfl
    · show q.buf.length < maxPktBurst
      exact hshort
  · refine (copBulkLoop_ok env hok hshort (Nat.lt_succ_self _)).mono
      (fun _ he => he) ?_
    intro r hr
    refine ⟨hr.ok, hr.short, hr.key, ?_, hstep.trans hr.step⟩
    rw [hr.submitted, List.append_nil, hsub]

/-! ## Taking operations back -/

theorem modifyAll_frame (ps : List PktId) (f : PktId → Mbuf → Mbuf)
    (w : World) : (w.modifyAll ps f).pair = w.pair
      ∧ (w.modifyAll ps f).freed = w.freed ∧ (w.modifyAll ps f).sa = w.sa := by
  induction ps generalizing w with
  | nil => exact ⟨rfl, rfl, rfl⟩
  | cons p ps ih => exact ih (w.modify p (f p))

/-- A queue with nothing in flight is not asked; else 16 bits count what is left. -/
theorem cqpDequeue_cases (env : Env) (q : CdevQueue) (num : Nat) (w : World) :
    (q.inFlight = 0 ∧ cqpDequeue env q num w = ([], q, w))
      ∨ ∃ left,
        left = (q.inFlight + 0x10000 - (rteCryptodevDequeueBurst env q.toCdevQp num w).1.length)
            % 0x10000
          ∧ cqpDequeue env q num w = ((rteCryptodevDequeueBurst env q.toCdevQp num w).1,
            { q with inFlight := left }, (rteCryptodevDequeueBurst env q.toCdevQp num w).2) := by
  by_cases hnone : q.inFlight = 0
  · exact .inl ⟨hnone, if_pos hnone⟩
  · exact .inr ⟨_, rfl, if_neg hnone⟩

/-- **A DEQUEUE** moves operations from what the device holds to what it gave
    back. -/
theorem cqpDequeue_served (env : Env) (num : Nat) {q : CdevQueue} {w : World}
    (h : QueueOk q [] w) (hshort : q.buf.length < maxPktBurst) :
    Served q w [] (cqpDequeue env q num w).2 := by
  rcases cqpDequeue_cases env q num w with ⟨-, heq⟩ | ⟨left, hleft, heq⟩
  · rw [heq]
    exact ⟨h, hshort, rfl, (List.append_nil _).symm, QueueStep.refl _ _⟩
  rw [heq]
  generalize hr : rteCryptodevDequeueBurst env q.toCdevQp num w = r at hleft
  -- `n` operations leave from the front
  obtain ⟨n, hn, hout, hpair, hothers, hfreed, hsa⟩ : ∃ n,
      n ≤ (w.pair q.toCdevQp).held.length
      ∧ r.1 = (w.pair q.toCdevQp).held.take n
      ∧ r.2.pair q.toCdevQp = { w.pair q.toCdevQp with
          held := (w.pair q.toCdevQp).held.drop n
          returned := (w.pair q.toCdevQp).returned
            ++ (w.pair q.toCdevQp).held.take n }
      ∧ (∀ k, k ≠ q.toCdevQp → r.2.pair k = w.pair k)
      ∧ r.2.freed = w.freed ∧ r.2.sa = w.sa := by
    subst hr
    refine ⟨min (env.ready w.tick) (min num (w.pair q.toCdevQp).held.length),
      Nat.le_trans (Nat.min_le_right _ _) (Nat.min_le_right _ _), rfl, ?_, ?_,
      ?_, ?_⟩
    · rw [rteCryptodevDequeueBurst]
      dsimp only
      rw [(modifyAll_frame _ _ _).1]
      exact Function.update_self ..
    · intro k hk
      rw [rteCryptodevDequeueBurst]
      dsimp only
      rw [(modifyAll_frame _ _ _).1]
      exact Function.update_of_ne hk _ _
    · exact (modifyAll_frame _ _ _).2.1
    · exact (modifyAll_frame _ _ _).2.2
  have hdepth := h.ledger.depth
  have hcount : r.1.length = n := by
    rw [hout, List.length_take, Nat.min_eq_left hn]
  refine ⟨⟨⟨?_, ?_, ?_, ?_⟩, ?_⟩, hshort, rfl, ?_, hothers, ?_, hsa⟩
  · show (r.2.pair q.toCdevQp).submitted = _
    rw [hpair]
    exact h.ledger.submitted
  · show ((r.2.pair q.toCdevQp).offered.filter Prod.snd).map Prod.fst
      = (r.2.pair q.toCdevQp).returned ++ (r.2.pair q.toCdevQp).held
    rw [hpair]
    dsimp only
    rw [List.append_assoc, List.take_append_drop, h.ledger.taken]
  · show ∀ x ∈ (r.2.pair q.toCdevQp).offered, x.2 = false → x.1 ∈ r.2.freed
    rw [hpair, hfreed]
    exact h.ledger.refused
  · show (r.2.pair q.toCdevQp).held.length ≤ cdevQueueDesc
    rw [hpair, List.length_drop]
    exact Nat.le_trans (Nat.sub_le _ _) hdepth
  · -- the 16 bits count what the device holds: less than 2048
    show left = (r.2.pair q.toCdevQp).held.length
    have hdesc : cdevQueueDesc = 2048 := rfl
    rw [hleft, hpair, List.length_drop, hcount, h.inFlight]
    omega
  · rw [hpair, List.append_nil]
  · intro p hp
    rw [hfreed]
    exact hp

/-! ## A context -/

/-- Sessions of the two lookaside types that exist name a queue of the
    context.  This is the `RTE_ASSERT` of `ipsec_enqueue`. -/
def SessionsFit (nbQps : Nat) (sa : SaPtr → IpsecSa) : Prop :=
  ∀ p, (sa p).primary.type = .none ∨ (sa p).primary.type = .lookasideProtocol →
    (sa p).primary.ses ≠ none → (sa p).cdevIdQp.toNat < nbQps

/-- A context of a lcore between two calls. -/
structure CtxOk (lcore : UInt8) (s : State) : Prop where
  queues : ∀ i, i < s.1.nbQps →
    QueueOk (s.1.tbl i) [] s.2 ∧ (s.1.tbl i).buf.length < maxPktBurst
  distinct : ∀ i j, i < s.1.nbQps → j < s.1.nbQps →
    (s.1.tbl i).toCdevQp = (s.1.tbl j).toCdevQp → i = j
  last : s.1.lastQp < s.1.nbQps ∨ s.1.nbQps = 0 ∧ s.1.lastQp = 0
  mapped : ∀ key i, key.lcoreId = lcore → s.1.cdevMap key = some i →
    i < s.1.nbQps
  size : s.1.nbQps ≤ maxQpPerLcore
  sessions : SessionsFit s.1.nbQps s.2.sa

variable {lcore : UInt8}

/-- A call that leaves the queue pairs alone. -/
structure Beside (w w' : World) : Prop where
  pair : w'.pair = w.pair
  freed : ∀ p ∈ w.freed, p ∈ w'.freed

theorem Beside.refl (w : World) : Beside w w := ⟨rfl, fun _ h => h⟩

theorem Beside.trans {w w' w'' : World} (h : Beside w w')
    (h' : Beside w' w'') : Beside w w'' :=
  ⟨h'.pair.trans h.pair, fun p hp => h'.freed p (h.freed p hp)⟩

/-- Work beside the queues keeps the context, when the sessions still fit. -/
theorem CtxOk.beside {ctx : IpsecCtx} {w w' : World} (h : CtxOk lcore (ctx, w))
    (hw : Beside w w') (hfit : SessionsFit ctx.nbQps w'.sa) :
    CtxOk lcore (ctx, w') where
  queues := by
    intro i hi
    obtain ⟨hok, hshort⟩ := h.queues i hi
    have hledger := hok.ledger.mono hw.freed
    have hin := hok.inFlight
    refine ⟨⟨?_, ?_⟩, hshort⟩
    · show Ledger (w'.pair _) _ _
      rw [hw.pair]
      exact hledger
    · show _ = (w'.pair _).held.length
      rw [hw.pair]
      exact hin
  distinct := h.distinct
  last := h.last
  mapped := h.mapped
  size := h.size
  sessions := hfit

/-- **A CALL ON ONE QUEUE** keeps the context: the other queues have other
    pairs. -/
theorem CtxOk.served {s : State} (h : CtxOk lcore s) {i : Nat} (hi : i < s.1.nbQps)
    {ops : List PktId} {r : CdevQueue × World}
    (hr : Served (s.1.tbl i) s.2 ops r) : CtxOk lcore (s.1.setQueue i r.1, r.2) := by
  have hkey : ∀ j, ((s.1.setQueue i r.1).tbl j).toCdevQp
      = (s.1.tbl j).toCdevQp := by
    intro j
    by_cases hj : j = i
    · subst hj
      show (Function.update s.1.tbl j r.1 j).toCdevQp = _
      rw [Function.update_self]
      exact hr.key
    · show (Function.update s.1.tbl i r.1 j).toCdevQp = _
      rw [Function.update_of_ne hj]
  refine ⟨?_, ?_, h.last, h.mapped, h.size, ?_⟩
  · intro j hj
    show QueueOk (Function.update s.1.tbl i r.1 j) [] r.2
      ∧ (Function.update s.1.tbl i r.1 j).buf.length < maxPktBurst
    by_cases hji : j = i
    · subst hji
      rw [Function.update_self]
      exact ⟨hr.ok, hr.short⟩
    · rw [Function.update_of_ne hji]
      obtain ⟨hok, hshort⟩ := h.queues j hj
      have hne : (s.1.tbl j).toCdevQp ≠ (s.1.tbl i).toCdevQp :=
        fun he => hji (h.distinct j i hj hi he)
      refine ⟨⟨?_, ?_⟩, hshort⟩
      · rw [hr.step.others _ hne]
        exact hok.ledger.mono hr.step.freed
      · rw [hr.step.others _ hne]
        exact hok.inFlight
  · intro j k hj hk he
    rw [hkey, hkey] at he
    exact h.distinct j k hj hk he
  · show SessionsFit s.1.nbQps r.2.sa
    rw [hr.step.sa]
    exact h.sessions

/-- `onQueue` with a call that serves its queue. -/
theorem onQueue_ok {s : State} (h : CtxOk lcore s) {i : Nat} (hi : i < s.1.nbQps)
    {ops : List PktId} {E : Fault → Prop}
    {f : CdevQueue → World → Except Fault (CdevQueue × World)}
    (hf : Ends (f (s.1.tbl i) s.2) E (Served (s.1.tbl i) s.2 ops)) :
    Ends (State.onQueue s i f) E
      (fun s' => CtxOk lcore s' ∧ s'.1.olPkts = s.1.olPkts) := by
  refine hf.bind ?_
  intro r hr
  exact ends_ok ⟨h.served hi hr, rfl⟩

/-! ## Sessions -/

theorem modify_beside (w : World) (p : PktId) (f : Mbuf → Mbuf) :
    Beside w (w.modify p f) := ⟨rfl, fun _ h => h⟩

theorem freePkts_beside (w : World) (ps : List PktId) :
    Beside w (w.freePkts ps) :=
  ⟨rfl, fun _ h => List.mem_append_left _ h⟩

theorem logProcessed_beside (w : World) (ref : SaRef) (ps : List PktId) :
    Beside w (w.logProcessed ref ps) := ⟨rfl, fun _ h => h⟩

/-- Changing one SA keeps the sessions fitting when the new one does. -/
theorem SessionsFit.update {n : Nat} {sa : SaPtr → IpsecSa}
    (h : SessionsFit n sa) {p : SaPtr} {x : IpsecSa}
    (hx : x.cdevIdQp.toNat < n
      ∨ x.cdevIdQp = (sa p).cdevIdQp
        ∧ (x.primary = (sa p).primary ∨ x.primary.ses = none)) :
    SessionsFit n (Function.update sa p x) := by
  intro q htype hses
  by_cases hq : q = p
  · subst hq
    rw [Function.update_self] at htype hses ⊢
    rcases hx with hlt | ⟨hid, hsame | hnone⟩
    · exact hlt
    · rw [hid]
      rw [hsame] at htype hses
      exact h q htype hses
    · exact absurd hnone hses
  · rw [Function.update_of_ne hq] at htype hses ⊢
    exact h q htype hses

/-- Attaching an object writes one session of one SA. -/
theorem attachObject_sa (env : Env) (p : SaPtr) (fallback : Bool) (dev : Nat)
    (w : World) : Beside w (attachObject env p fallback dev w)
      ∧ ∃ ses, (attachObject env p fallback dev w).sa
        = Function.update w.sa p (setSession (w.sa p) fallback
          { session (w.sa p) fallback with ses := ses }) := by
  rw [attachObject]
  dsimp only
  split
  · exact ⟨⟨rfl, fun _ h => h⟩, _, rfl⟩
  · exact ⟨⟨rfl, fun _ h => h⟩, none, rfl⟩

/-- What opening a session leaves: the queues are untouched, the sessions fit,
    and on success (`rc` is 0) the SA names a queue the context has. -/
def Opened (n : Nat) (p : SaPtr) (w : World) (r : Int × World) : Prop :=
  Beside w r.2 ∧ SessionsFit n r.2.sa
    ∧ (r.1 = 0 → (r.2.sa p).cdevIdQp.toNat < n)

theorem opened_failed {n : Nat} {p : SaPtr} {w w' : World} {rc : Int}
    (hrc : rc ≠ 0) (hw : Beside w w') (hfit : SessionsFit n w'.sa) :
    Opened n p w (rc, w') :=
  ⟨hw, hfit, fun h => absurd h hrc⟩

/-- Writing the index of a queue into an SA. -/
theorem opened_index {n i : Nat} {p : SaPtr} {w w' : World} {x : IpsecSa}
    (hi : i < n) (hn : n ≤ maxQpPerLcore) (hw : Beside w w')
    (hsa : w'.sa = Function.update w.sa p x) (hfit : SessionsFit n w.sa) :
    Opened n p w (0, w'.modifySa p fun sa =>
      { sa with cdevIdQp := UInt32.ofNat i }) := by
  have hmax : maxQpPerLcore = 256 := rfl
  have hnum : (UInt32.ofNat i).toNat = i := by
    rw [UInt32.toNat_ofNat', Nat.mod_eq_of_lt (by omega)]
  have hsa' : (w'.modifySa p fun sa =>
      { sa with cdevIdQp := UInt32.ofNat i }).sa
      = Function.update w.sa p { x with cdevIdQp := UInt32.ofNat i } := by
    show Function.update w'.sa p { w'.sa p with cdevIdQp := UInt32.ofNat i } = _
    rw [hsa, Function.update_self, Function.update_idem]
  refine ⟨⟨hw.pair, hw.freed⟩, ?_, fun _ => ?_⟩
  · show SessionsFit n (w'.modifySa p fun sa =>
      { sa with cdevIdQp := UInt32.ofNat i }).sa
    rw [hsa']
    refine hfit.update (.inl ?_)
    show (UInt32.ofNat i).toNat < n
    rw [hnum]
    exact hi
  · show ((w'.modifySa p fun sa =>
      { sa with cdevIdQp := UInt32.ofNat i }).sa p).cdevIdQp.toNat < n
    rw [hsa', Function.update_self]
    show (UInt32.ofNat i).toNat < n
    rw [hnum]
    exact hi

/-- **A NEW SESSION** names a queue the context has. -/
theorem createLookasideSession_opened (env : Env) {ctx : IpsecCtx} (p : SaPtr)
    (fallback : Bool) {w : World} (h : CtxOk env.lcoreId (ctx, w)) :
    Opened ctx.nbQps p w (createLookasideSession env ctx p fallback w) := by
  have hfit : SessionsFit ctx.nbQps w.sa := h.sessions
  have hneg : (-1 : Int) ≠ 0 := by decide
  rw [createLookasideSession]
  cases hmap : ctx.cdevMap (sessionKey env (w.sa p)) with
  | none => exact opened_failed hneg (Beside.refl w) hfit
  | some i =>
      dsimp only
      obtain ⟨hbeside, ses, hsa⟩ :=
        attachObject_sa env p fallback (ctx.tbl i).id w
      generalize attachObject env p fallback (ctx.tbl i).id w = w1 at hbeside hsa
      have hdone := opened_index (h.mapped _ i rfl hmap) h.size hbeside hsa hfit
      cases htype : (session (w.sa p) fallback).type with
      | none => exact hdone
      | inlineCrypto => exact opened_failed hneg (Beside.refl w) hfit
      | inlineProtocol => exact opened_failed hneg (Beside.refl w) hfit
      | cpuCrypto =>
          dsimp only
          split
          · exact opened_failed (show enotsup ≠ 0 by decide) (Beside.refl w) hfit
          · exact hdone
      | lookasideProtocol =>
          dsimp only
          split
          · rename_i hnone
            refine opened_failed hneg hbeside ?_
            rw [hsa]
            refine hfit.update ?_
            rw [hsa, Function.update_self] at hnone
            cases fallback with
            | true => exact .inr ⟨rfl, .inl rfl⟩
            | false => exact .inr ⟨rfl, .inr hnone⟩
          · exact hdone

/-- Opening the primary session of a lookaside SA names a queue. -/
theorem openSession_fit (env : Env) {ctx : IpsecCtx} {p : SaPtr} {w : World}
    (h : CtxOk env.lcoreId (ctx, w)) (htype : (w.sa p).primary.type = .none
      ∨ (w.sa p).primary.type = .lookasideProtocol) :
    Beside w (openSession env ctx p false w).2
      ∧ SessionsFit ctx.nbQps (openSession env ctx p false w).2.sa
      ∧ ((openSession env ctx p false w).1 = true →
        ((openSession env ctx p false w).2.sa p).cdevIdQp.toNat < ctx.nbQps) := by
  rw [openSession]
  split
  · obtain ⟨hbeside, hfit, hid⟩ := createLookasideSession_opened env p false h
    exact ⟨hbeside, hfit, fun hz => hid (eq_of_beq hz)⟩
  · rename_i hses
    exact ⟨Beside.refl w, h.sessions, fun _ => h.sessions p htype hses⟩

/-! ## The legacy path -/

/-- A transformation leaves the SA alone, but for the sequence number. -/
def KeepsSessions (f : XformFn) : Prop :=
  ∀ m sa r, f m sa = some r → ∃ n, r.2.2 = { sa with seq := n }

theorem xform_ok {f : XformFn} (hf : KeepsSessions f) {n : Nat} {w : World}
    {pkt : PktId} {p : SaPtr} (hfit : SessionsFit n w.sa) :
    Ends (w.xform f pkt p) (· = .null) (fun r => Beside w r.2
      ∧ SessionsFit n r.2.sa
      ∧ (r.2.sa p).cdevIdQp = (w.sa p).cdevIdQp) := by
  rw [World.xform]
  cases hr : f (w.mbuf pkt) (w.sa p) with
  | none => exact ends_error rfl
  | some r =>
      obtain ⟨n, hsame⟩ := hf _ _ _ hr
      dsimp only
      rw [hsame]
      refine ends_ok ⟨⟨rfl, fun _ h => h⟩, ?_, ?_⟩
      · exact hfit.update (.inr ⟨rfl, .inl rfl⟩)
      · show (Function.update w.sa p _ p).cdevIdQp = _
        rw [Function.update_self]

/-- What the preparation of a packet leaves: when it goes to a queue, the SA
    names one the context has. -/
def Prepared (n : Nat) (p : SaPtr) (w : World) (r : Dest × World) : Prop :=
  Beside w r.2 ∧ SessionsFit n r.2.sa
    ∧ (r.1 = .queue → (r.2.sa p).cdevIdQp.toNat < n)

theorem prepared_beside {n : Nat} {p : SaPtr} {w w' : World} {d : Dest}
    (hd : d ≠ .queue) (hw : Beside w w') (hfit : SessionsFit n w'.sa) :
    Prepared n p w (d, w') :=
  ⟨hw, hfit, fun h => absurd h hd⟩

/-- **ONE PACKET** on its way to a queue: when it gets there the queue exists. -/
theorem prepareOp_ok (env : Env) {f : XformFn} (hf : KeepsSessions f)
    {ctx : IpsecCtx} (pkt : PktId) (p : SaPtr) {w : World}
    (h : CtxOk env.lcoreId (ctx, w)) :
    Ends (prepareOp env f ctx pkt p w) (· = .null)
      (Prepared ctx.nbQps p w) := by
  have hfit : SessionsFit ctx.nbQps w.sa := h.sessions
  have hfreed : Dest.freed ≠ .queue := by decide
  have hoffload : Dest.offload ≠ .queue := by decide
  -- the packet's own fields are written first
  have hfield : ∀ {w : World} {g : Mbuf → Mbuf}, Beside w (w.modify pkt g) :=
    fun {w g} => modify_beside w pkt g
  have hfresh : CtxOk env.lcoreId (ctx, (w.modify pkt (setPrivSa p)).modify pkt
      fun m => m.setStatus .notProcessed) :=
    h.beside (hfield.trans hfield) hfit
  rw [prepareOp]
  dsimp only
  rw [show (w.modify pkt (setPrivSa p)).sa = w.sa from rfl]
  cases htype : (w.sa p).primary.type with
  | cpuCrypto => exact ends_ok (prepared_beside hfreed hfield hfit)
  | inlineProtocol => exact ends_ok (prepared_beside hoffload hfield hfit)
  | inlineCrypto =>
      refine (xform_ok hf (w := (((w.modify pkt (setPrivSa p)).modify pkt
        fun m => m.setStatus .notProcessed)).modify pkt
          (attachSession (w.sa p).primary.ses)) hfit).bind ?_
      rintro ⟨ret, w'⟩ ⟨hbeside, hfit', -⟩
      refine ends_pure (prepared_beside ?_
        (((hfield.trans hfield).trans hfield).trans hbeside) hfit')
      split
      · exact hoffload
      · exact hfreed
  | none =>
      obtain ⟨hbeside, hfit', hid⟩ := openSession_fit env hfresh (p := p)
        (.inl htype)
      dsimp only
      generalize openSession env ctx p false _ = r at hbeside hfit' hid
      have hw := (hfield.trans hfield).trans hbeside
      split
      · exact ends_ok (prepared_beside hfreed hw hfit')
      · rename_i hopen
        refine (xform_ok hf (w := r.2.modify pkt
          (attachSession (r.2.sa p).primary.ses)) hfit').bind ?_
        rintro ⟨ret, w'⟩ ⟨hbeside', hfit'', hsame⟩
        refine ends_pure ⟨(hw.trans hfield).trans hbeside', hfit'', fun _ => ?_⟩
        show (w'.sa p).cdevIdQp.toNat < _
        rw [hsame]
        exact hid (by simpa using hopen)
  | lookasideProtocol =>
      obtain ⟨hbeside, hfit', hid⟩ := openSession_fit env hfresh (p := p)
        (.inr htype)
      dsimp only
      generalize openSession env ctx p false _ = r at hbeside hfit' hid
      have hw := (hfield.trans hfield).trans hbeside
      split
      · exact ends_ok (prepared_beside hfreed hw hfit')
      · rename_i hopen
        split
        · exact ends_ok (prepared_beside hfreed hw hfit')
        · exact ends_ok ⟨hw.trans hfield, hfit',
            fun _ => hid (by simpa using hopen)⟩

/-- The errors of a call: a null pointer of a transformation, and the end of
    the offload array where bursts are not `short`. -/
def CallFault (short : Prop) (e : Fault) : Prop :=
  e = .null ∨ e = .olIndex ∧ ¬ short

/-- The invariant of `ipsec_enqueue` with so many packets to come. -/
def Enqueuing (lcore : UInt8) (short : Prop) (todo : List (PktId × Option SaRef)) (s : State) :
    Prop :=
  CtxOk lcore s ∧ (short → s.1.olPkts.length + todo.length ≤ maxPktBurst)

/-- **ONE PACKET** of `ipsec_enqueue`. -/
theorem ipsecEnqueueOne_ok (env : Env) {f : XformFn} (hf : KeepsSessions f)
    {short : Prop} {x : PktId × Option SaRef}
    {todo : List (PktId × Option SaRef)} {s : State}
    (h : Enqueuing env.lcoreId short (x :: todo) s) :
    Ends (ipsecEnqueueOne env f s x) (CallFault short)
      (Enqueuing env.lcoreId short todo) := by
  obtain ⟨hctx, hol⟩ := h
  -- a packet that joins nothing leaves one more place
  have hless : short → s.1.olPkts.length + todo.length ≤ maxPktBurst := by
    intro hs
    exact Nat.le_trans (Nat.le_succ _) (hol hs)
  obtain ⟨pkt, ref⟩ := x
  rw [ipsecEnqueueOne]
  dsimp only
  cases ref with
  | none =>
      exact ends_ok ⟨hctx.beside (freePkts_beside s.2 _) hctx.sessions, hless⟩
  | some ref =>
      obtain ⟨p, tag⟩ := ref
      dsimp only
      refine ((prepareOp_ok env hf pkt p hctx).mono (fun _ he => Or.inl he)
        (fun _ ha => ha)).bind ?_
      rintro ⟨dest, w⟩ ⟨hbeside, hfit, hid⟩
      have hctx' : CtxOk env.lcoreId (s.1, w) := hctx.beside hbeside hfit
      cases dest with
      | freed =>
          exact ends_ok ⟨hctx'.beside (freePkts_beside w _) hfit, hless⟩
      | offload =>
          dsimp only
          rw [IpsecCtx.pushOl]
          split
          · -- a burst is shorter than the array
            rename_i hfull
            refine ends_error (.inr ⟨rfl, fun hs => ?_⟩)
            have := hol hs
            rw [List.length_cons] at this
            omega
          · refine ends_ok ⟨⟨hctx'.queues, hctx'.distinct, hctx'.last,
              hctx'.mapped, hctx'.size, hctx'.sessions⟩, fun hs => ?_⟩
            have := hol hs
            show (s.1.olPkts ++ [pkt]).length + todo.length ≤ maxPktBurst
            rw [List.length_append, List.length_singleton]
            rw [List.length_cons] at this
            omega
      | queue =>
          -- the session has chosen a queue the context has
          have hi := hid rfl
          have hused : CtxOk env.lcoreId (s.1, w.useQueue s.1 [pkt] p false) :=
            hctx'.beside ⟨rfl, fun _ hp => hp⟩ hfit
          obtain ⟨hok, hshort⟩ := hused.queues _ hi
          refine (onQueue_ok hused hi
            (enqueueCop_served env pkt hok hshort)).mono (fun _ he => he) ?_
          rintro s' ⟨hs', hsame⟩
          refine ⟨hs', ?_⟩
          rw [hsame]
          exact hless

/-- **THE BURST**: `ipsec_enqueue`. -/
theorem ipsecEnqueue_ok (env : Env) {f : XformFn} (hf : KeepsSessions f)
    {short : Prop} {burst : List (PktId × Option SaRef)} {s : State}
    (h : Enqueuing env.lcoreId short burst s) :
    Ends (ipsecEnqueue env f burst s) (CallFault short)
      (Enqueuing env.lcoreId short []) :=
  ends_foldlM h fun _ _ _ hs => ipsecEnqueueOne_ok env hf hs

/-- `priv->sa` is followed or faults. -/
theorem privSa_ok (w : World) (pkt : PktId) :
    Ends (w.privSa pkt) (· = .null) (fun _ => True) := by
  rw [World.privSa]
  split
  · exact ends_error rfl
  · exact ends_ok trivial

/-- **THE OFFLOAD ARRAY** is emptied when the burst array has room. -/
theorem ipsecInlineDequeue_ok {f : XformFn} (hf : KeepsSessions f)
    {maxPkts fuel : Nat} {pkts : List PktId} {s : State} (h : CtxOk lcore s)
    (hfuel : s.1.olPkts.length = fuel) :
    Ends (ipsecInlineDequeue f maxPkts fuel pkts s) (· = .null)
      (fun r => CtxOk lcore r.2 ∧ (s.1.olPkts.length + pkts.length ≤ maxPkts →
        r.2.1.olPkts = [])) := by
  induction fuel generalizing pkts s with
  | zero => exact ends_ok ⟨h, fun _ => List.eq_nil_of_length_eq_zero hfuel⟩
  | succ fuel ih =>
      rw [ipsecInlineDequeue]
      cases hlast : s.1.olPkts.getLast? with
      | none =>
          have hnil := List.getLast?_eq_none_iff.mp hlast
          exact ends_ok ⟨h, fun _ => hnil⟩
      | some pkt =>
          dsimp only
          split
          · rename_i hfull
            exact ends_ok ⟨h, fun hroom => by omega⟩
          have hdrop : s.1.olPkts.dropLast.length = fuel := by
            rw [List.length_dropLast, hfuel]
            rfl
          -- the array is shorter, the world may change beside the queues
          have hnext : ∀ {w : World}, Beside s.2 w →
              SessionsFit s.1.nbQps w.sa →
              CtxOk lcore ({ s.1 with olPkts := s.1.olPkts.dropLast }, w) := by
            intro w hw hfit
            have hctx := CtxOk.beside h hw hfit
            exact ⟨hctx.queues, hctx.distinct, hctx.last, hctx.mapped,
              hctx.size, hctx.sessions⟩
          refine (privSa_ok s.2 pkt).bind ?_
          intro p _
          refine (xform_ok hf h.sessions).bind ?_
          rintro ⟨ret, w⟩ ⟨hbeside, hfit, -⟩
          dsimp only
          split
          · refine (ih (hnext (hbeside.trans (freePkts_beside w [pkt])) hfit)
              hdrop).mono (fun _ he => he) ?_
            rintro r ⟨hr, hempty⟩
            refine ⟨hr, fun hroom => hempty ?_⟩
            show s.1.olPkts.dropLast.length + pkts.length ≤ maxPkts
            omega
          · refine (ih (hnext (hbeside.trans (logProcessed_beside w _ _)) hfit)
              hdrop).mono (fun _ he => he) ?_
            rintro r ⟨hr, hempty⟩
            refine ⟨hr, fun hroom => hempty ?_⟩
            show s.1.olPkts.dropLast.length + (pkts ++ [pkt]).length ≤ maxPkts
            rw [List.length_append, List.length_singleton]
            omega

/-- **A CALL** of `ipsec_inbound` or `ipsec_outbound` with the burst length the
    packet loop passes: short bursts leave the offload array empty. -/
theorem ipsecBurst_ok (env : Env) {f post : XformFn} (hf : KeepsSessions f)
    (hpost : KeepsSessions post) {short : Prop}
    {burst : List (PktId × Option SaRef)} {s : State} (h : CtxOk env.lcoreId s)
    (hol : short → s.1.olPkts = [] ∧ burst.length ≤ maxPktBurst) :
    Ends (ipsecBurst env f post burst maxPktBurst s) (CallFault short)
      (fun r => CtxOk env.lcoreId r.2 ∧ (short → r.2.1.olPkts = [])) := by
  have hstart : Enqueuing env.lcoreId short burst s := by
    refine ⟨h, fun hs => ?_⟩
    obtain ⟨hnil, hle⟩ := hol hs
    rw [hnil, List.length_nil, Nat.zero_add]
    exact hle
  refine (ipsecEnqueue_ok env hf hstart).bind ?_
  rintro s' ⟨hctx, hroom⟩
  refine (ipsecInlineDequeue_ok hpost hctx rfl).mono
    (fun _ he => Or.inl he) ?_
  rintro r ⟨hr, hempty⟩
  exact ⟨hr, fun hs => hempty (hroom hs)⟩

/-! ## Dequeues -/

/-- Post-processing stays beside the queues. -/
theorem finishOp_ok {f : XformFn} (hf : KeepsSessions f) {ctx : IpsecCtx}
    {pkt : PktId} {t : List PktId × World} (h : CtxOk lcore (ctx, t.2)) :
    Ends (finishOp f t pkt) (· = .null) (fun t' => CtxOk lcore (ctx, t'.2)) := by
  refine (privSa_ok t.2 pkt).bind ?_
  intro p _
  have hfree : CtxOk lcore (ctx, t.2.freePkts [pkt]) :=
    h.beside (freePkts_beside _ _) h.sessions
  cases (t.2.sa p).primary.type with
  | none =>
      refine (xform_ok hf h.sessions).bind ?_
      rintro ⟨ret, w⟩ ⟨hbeside, hfit, -⟩
      have hw := h.beside hbeside hfit
      dsimp only
      split
      · exact ends_ok (hw.beside (freePkts_beside w [pkt]) hfit)
      · exact ends_ok (hw.beside (logProcessed_beside w _ _) hfit)
  | lookasideProtocol =>
      dsimp only
      split
      · exact ends_ok hfree
      · exact ends_ok (h.beside (logProcessed_beside t.2 _ _) h.sessions)
  | inlineCrypto => exact ends_ok h
  | inlineProtocol => exact ends_ok h
  | cpuCrypto => exact ends_ok h

/-- The next queue to be looked at is one of the context. -/
theorem CtxOk.next {ctx : IpsecCtx} {w : World} (h : CtxOk lcore (ctx, w))
    (hi : ctx.lastQp < ctx.nbQps) :
    CtxOk lcore ({ ctx with
      lastQp := if ctx.lastQp + 1 = ctx.nbQps then 0 else ctx.lastQp + 1 },
      w) := by
  refine ⟨h.queues, h.distinct, .inl ?_, h.mapped, h.size, h.sessions⟩
  show (if ctx.lastQp + 1 = ctx.nbQps then 0 else ctx.lastQp + 1) < ctx.nbQps
  split
  · omega
  · omega

/-- **THE LEGACY DEQUEUE** visits queues of the context only. -/
theorem ipsecDequeue_ok (env : Env) {f : XformFn} (hf : KeepsSessions f)
    {maxPkts n : Nat} {pkts : List PktId} {s : State} (h : CtxOk lcore s)
    (hn : n ≤ s.1.nbQps) :
    Ends (ipsecDequeue env f maxPkts n pkts s) (· = .null)
      (fun r => CtxOk lcore r.2 ∧ r.2.1.olPkts = s.1.olPkts) := by
  induction n generalizing pkts s with
  | zero => exact ends_ok ⟨h, rfl⟩
  | succ n ih =>
      rw [ipsecDequeue]
      split
      · exact ends_ok ⟨h, rfl⟩
      dsimp only
      have hi : s.1.lastQp < s.1.nbQps := by
        rcases h.last with hlt | ⟨hzero, -⟩
        · exact hlt
        · omega
      obtain ⟨hok, hshort⟩ := h.queues _ hi
      have hserved := cqpDequeue_served env (maxPkts - pkts.length) hok hshort
      generalize cqpDequeue env (s.1.tbl s.1.lastQp) (maxPkts - pkts.length) s.2
        = r at hserved
      have hctx := h.served hi hserved
      refine (ends_foldlM (P := fun _ t =>
        CtxOk lcore (s.1.setQueue s.1.lastQp r.2.1, t.2)) hctx
        (fun pkt _ t ht => finishOp_ok hf ht)).bind ?_
      rintro ⟨pkts', w⟩ hctx'
      exact ih (hctx'.next hi) (Nat.le_of_succ_le hn)

/-- One loop of `ctx_dequeue` over queues of the context. -/
theorem ctxDequeueLoop_ok (env : Env) (num n i : Nat) (cops : List PktId)
    {s : State} (h : CtxOk lcore s) (hn : i + n ≤ s.1.nbQps) :
    CtxOk lcore (ctxDequeueLoop env num n i cops s).2.2
      ∧ (ctxDequeueLoop env num n i cops s).2.2.1.olPkts = s.1.olPkts
      ∧ (ctxDequeueLoop env num n i cops s).2.2.1.nbQps = s.1.nbQps
      ∧ (ctxDequeueLoop env num n i cops s).1 ≤ i + n := by
  induction n generalizing i cops s with
  | zero => exact ⟨h, rfl, rfl, Nat.le_refl _⟩
  | succ n ih =>
      rw [ctxDequeueLoop]
      split
      · exact ⟨h, rfl, rfl, Nat.le_add_right _ _⟩
      dsimp only
      have hi : i < s.1.nbQps := by omega
      obtain ⟨hok, hshort⟩ := h.queues _ hi
      have hserved := cqpDequeue_served env (num - cops.length) hok hshort
      generalize cqpDequeue env (s.1.tbl i) (num - cops.length) s.2 = r at hserved
      have hctx := h.served hi hserved
      obtain ⟨h1, h2, h3, h4⟩ := ih (i + 1) (cops ++ r.1) hctx
        (show i + 1 + n ≤ s.1.nbQps by omega)
      exact ⟨h1, h2, h3, by omega⟩

/-- **THE OTHER DEQUEUE**: `ctx_dequeue` wraps around once. -/
theorem ctxDequeue_ok (env : Env) (num : Nat) {s : State} (h : CtxOk lcore s) :
    CtxOk lcore (ctxDequeue env num s).2
      ∧ (ctxDequeue env num s).2.1.olPkts = s.1.olPkts := by
  have hle : s.1.lastQp ≤ s.1.nbQps := by
    rcases h.last with hlt | ⟨hzero, hlast⟩
    · exact Nat.le_of_lt hlt
    · omega
  rw [ctxDequeue]
  dsimp only
  obtain ⟨h1, hol1, hnb1, -⟩ := ctxDequeueLoop_ok env num
    (s.1.nbQps - s.1.lastQp) s.1.lastQp [] h (by omega)
  generalize ctxDequeueLoop env num (s.1.nbQps - s.1.lastQp) s.1.lastQp [] s
    = r at h1 hol1 hnb1
  obtain ⟨h2, hol2, hnb2, hstop⟩ := ctxDequeueLoop_ok env num
    s.1.lastQp 0 r.2.1 h1 (by rw [hnb1]; omega)
  generalize ctxDequeueLoop env num s.1.lastQp 0 r.2.1 r.2.2 = r' at h2 hol2 hnb2 hstop
  refine ⟨⟨h2.queues, h2.distinct, ?_, h2.mapped, h2.size, h2.sessions⟩,
    hol2.trans hol1⟩
  show r'.1 < r'.2.2.1.nbQps ∨ r'.2.2.1.nbQps = 0 ∧ r'.1 = 0
  rw [hnb2, hnb1]
  have hlast := h.last
  omega

/-- **THE DRAIN TIMER** flushes queues of the context. -/
theorem drainCryptoBuffers_ok (env : Env) {s : State} (h : CtxOk lcore s) :
    CtxOk lcore (drainCryptoBuffers env s)
      ∧ (drainCryptoBuffers env s).1.olPkts = s.1.olPkts := by
  have hloop : CtxOk lcore (drainCryptoBuffers env s)
      ∧ (drainCryptoBuffers env s).1.olPkts = s.1.olPkts
      ∧ (drainCryptoBuffers env s).1.nbQps = s.1.nbQps := by
    refine forLoop_inv (fun _ t => CtxOk lcore t ∧ t.1.olPkts = s.1.olPkts
      ∧ t.1.nbQps = s.1.nbQps) ⟨h, rfl, rfl⟩ ?_
    rintro i t hi ⟨ht, hol, hnb⟩
    rw [drainQueue]
    split
    · have hi' : i < t.1.nbQps := by rw [hnb]; exact hi
      obtain ⟨hok, -⟩ := ht.queues i hi'
      exact ⟨ht.served hi' (enqueueCopBurst_served env hok), hol, hnb⟩
    · exact ⟨ht, hol, hnb⟩
  exact ⟨hloop.1, hloop.2.1⟩

/-! ## The transformations of ESP -/

/-- **NO TRANSFORMATION TOUCHES A SESSION**: enqueueing. -/
theorem enqueueXform_keeps (dir : Direction) :
    KeepsSessions (enqueueXform dir) := by
  intro m sa r hr
  cases dir with
  | ingress =>
      obtain rfl := Option.some.inj hr
      exact ⟨sa.seq, rfl⟩
  | egress =>
      obtain ⟨rc, m', sa'⟩ := r
      rcases espOutbound_sa hr with ⟨rfl, -⟩ | rfl
      · exact ⟨sa'.seq, rfl⟩
      · exact ⟨sa.seq + 1, rfl⟩

/-- And dequeueing. -/
theorem dequeueXform_keeps (dir : Direction) :
    KeepsSessions (dequeueXform dir) := by
  intro m sa r hr
  cases dir with
  | ingress =>
      have hr : (espInboundPost m sa).map (fun r => (r.1, r.2, sa)) = some r := hr
      obtain ⟨r', -, rfl⟩ := Option.map_eq_some_iff.mp hr
      exact ⟨sa.seq, rfl⟩
  | egress =>
      obtain rfl := Option.some.inj hr
      exact ⟨sa.seq, rfl⟩

/-! ## Any interleaving -/

/-- What other lcores and other code may do between two calls: they leave the
    queue pairs of this context alone, do not take back what was freed, and
    give lookaside sessions only queue numbers the context has. -/
structure Elsewhere (s : State) (w : World) : Prop where
  pair : ∀ i, i < s.1.nbQps →
    w.pair (s.1.tbl i).toCdevQp = s.2.pair (s.1.tbl i).toCdevQp
  freed : ∀ p ∈ s.2.freed, p ∈ w.freed
  sessions : SessionsFit s.1.nbQps w.sa

/-- The calls the program makes; `short` is whether all its bursts have at most
    `MAX_PKT_BURST` packets. -/
def Allowed (short : Prop) (s : State) : Action → Prop
  | .burst pkts => short → pkts.length ≤ maxPktBurst
  | .bulk i _ => i < s.1.nbQps
  | .drain => True
  | .dequeue _ => True
  | .ctxDequeue _ => True
  | .elsewhere w => Elsewhere s w

/-- A call is made and ends. -/
def Step (env : Env) (dir : Direction) (short : Prop) (s s' : State) : Prop :=
  ∃ a, Allowed short s a ∧ exec env dir s a = .ok s'

/-- A state some interleaving leads to. -/
abbrev Reaches (env : Env) (dir : Direction) (short : Prop) :
    State → State → Prop :=
  Relation.ReflTransGen (Step env dir short)

/-- The invariant between two calls. -/
def Resting (lcore : UInt8) (short : Prop) (s : State) : Prop :=
  CtxOk lcore s ∧ (short → s.1.olPkts = [])

/-- Elsewhere nothing happens to the context. -/
theorem CtxOk.elsewhere {s : State} {w : World} (h : CtxOk lcore s)
    (hw : Elsewhere s w) : CtxOk lcore (s.1, w) where
  queues := by
    intro i hi
    obtain ⟨hok, hshort⟩ := h.queues i hi
    refine ⟨⟨?_, ?_⟩, hshort⟩
    · rw [hw.pair i hi]
      exact hok.ledger.mono hw.freed
    · rw [hw.pair i hi]
      exact hok.inFlight
  distinct := h.distinct
  last := h.last
  mapped := h.mapped
  size := h.size
  sessions := hw.sessions

/-- **ONE CALL** keeps the invariant. -/
theorem exec_ok (env : Env) (dir : Direction) {short : Prop} {s : State}
    (h : Resting env.lcoreId short s) {a : Action} (ha : Allowed short s a) :
    Ends (exec env dir s a) (CallFault short) (Resting env.lcoreId short) := by
  obtain ⟨hctx, hol⟩ := h
  cases a with
  | burst pkts =>
      refine (ipsecBurst_ok env (enqueueXform_keeps dir)
        (dequeueXform_keeps dir) hctx fun hs => ⟨hol hs, ha hs⟩).bind ?_
      intro r hr
      exact ends_pure hr
  | bulk i cops =>
      obtain ⟨hok, hshort⟩ := hctx.queues i ha
      refine (onQueue_ok hctx ha
        (enqueueCopBulk_served env cops hok hshort)).mono (fun _ he => he) ?_
      rintro s' ⟨hs', hsame⟩
      exact ⟨hs', fun hs => hsame.trans (hol hs)⟩
  | drain =>
      obtain ⟨hs', hsame⟩ := drainCryptoBuffers_ok env hctx
      exact ends_ok ⟨hs', fun hs => hsame.trans (hol hs)⟩
  | dequeue maxPkts =>
      refine ((ipsecDequeue_ok env (dequeueXform_keeps dir) hctx
        (Nat.le_refl _)).mono (fun _ he => Or.inl he) (fun _ ha => ha)).bind ?_
      rintro r ⟨hr, hsame⟩
      exact ends_pure ⟨hr, fun hs => hsame.trans (hol hs)⟩
  | ctxDequeue num =>
      obtain ⟨hs', hsame⟩ := ctxDequeue_ok env num hctx
      exact ends_ok ⟨hs', fun hs => hsame.trans (hol hs)⟩
  | elsewhere w => exact ends_ok ⟨hctx.elsewhere ha, hol⟩

/-- **ALL CALLS** keep it. -/
theorem reaches_resting {env : Env} {dir : Direction} {short : Prop}
    {s s' : State} (h : Resting env.lcoreId short s)
    (hreach : Reaches env dir short s s') : Resting env.lcoreId short s' := by
  induction hreach with
  | refl => exact h
  | tail _ hstep ih =>
      obtain ⟨a, ha, hexec⟩ := hstep
      exact (exec_ok env dir ih ha).of_ok hexec

/-- A world no lcore has worked on: the queue pairs are empty, sessions of the
    lookaside types have no object yet. -/
structure Untouched (w : World) : Prop where
  pair : ∀ k, w.pair k = {}
  sessions : ∀ p, (w.sa p).primary.type = .none
    ∨ (w.sa p).primary.type = .lookasideProtocol → (w.sa p).primary.ses = none

/-- The queues of a context `cryptodevs_init` builds are on different pairs. -/
theorem ofTables_distinct {conf : CdevConf} {req : Nat} {ps : List LcoreParams}
    {devs : List CryptodevInfo} {init : InitState}
    (hinit : cryptodevsInit conf req ps devs = some init) (lcore : UInt8)
    (dir : Direction) {i j : Nat}
    (hi : i < (IpsecCtx.ofTables init.tables lcore dir).nbQps)
    (hj : j < (IpsecCtx.ofTables init.tables lcore dir).nbQps)
    (he : ((IpsecCtx.ofTables init.tables lcore dir).tbl i).toCdevQp
      = ((IpsecCtx.ofTables init.tables lcore dir).tbl j).toCdevQp) : i = j := by
  obtain ⟨c, hinv⟩ := Cdev.cryptodevsInit_inv hinit
  have hi : i < (init.tables.tbl lcore dir).length := hi
  have hj : j < (init.tables.tbl lcore dir).length := hj
  have he : (init.tables.tbl lcore dir).getD i ⟨0, 0⟩
      = (init.tables.tbl lcore dir).getD j ⟨0, 0⟩ := he
  rw [List.getD_eq_getElem _ _ hi, List.getD_eq_getElem _ _ hj] at he
  exact (List.Nodup.of_map _ (hinv.queues.devices lcore dir)).getElem_inj_iff.mp he

/-- The contexts `cryptodevs_init` builds satisfy the invariant. -/
theorem ofTables_resting {conf : CdevConf} {req : Nat} {ps : List LcoreParams}
    {devs : List CryptodevInfo} {init : InitState}
    (hinit : cryptodevsInit conf req ps devs = some init) (lcore : UInt8)
    (dir : Direction) {w : World} (hw : Untouched w) (short : Prop) :
    Resting lcore short (IpsecCtx.ofTables init.tables lcore dir, w) := by
  obtain ⟨c, hinv⟩ := Cdev.cryptodevsInit_inv hinit
  refine ⟨⟨?_, ?_, ?_, ?_, hinv.queues.size lcore dir, ?_⟩, fun _ => rfl⟩
  · intro i _
    have hempty : 0 < maxPktBurst := by decide
    refine ⟨⟨⟨?_, ?_, ?_, ?_⟩, ?_⟩, hempty⟩
    · rw [hw.pair]
      rfl
    · rw [hw.pair]
      rfl
    · rw [hw.pair]
      intro x hx
      cases hx
    · rw [hw.pair]
      exact Nat.zero_le _
    · rw [hw.pair]
      rfl
  · intro i j hi hj he
    exact ofTables_distinct hinit lcore dir hi hj he
  · show 0 < (init.tables.tbl lcore dir).length
      ∨ (init.tables.tbl lcore dir).length = 0 ∧ 0 = 0
    omega
  · rintro key i rfl hmap
    exact hinv.queues.mapped dir key i hmap
  · intro p htype hses
    exact absurd (hw.sessions p htype) hses

/-! ## What the invariant says -/

/-- The operations the device refused. -/
def refused (p : QueuePair) : List PktId :=
  (p.offered.filter fun x => !x.2).map Prod.fst

/-- The operations delivered to a queue, in order: those offered to the device
    and those that wait. -/
def delivered (q : CdevQueue) (w : World) : List PktId :=
  (w.pair q.toCdevQp).offered.map Prod.fst ++ q.buf

/-- Nothing is lost on a queue, nothing is there twice, and nothing overtakes
    anything. -/
structure Conserved (q : CdevQueue) (w : World) : Prop where
  short : q.buf.length < maxPktBurst
  inFlight : q.inFlight = (w.pair q.toCdevQp).held.length
  account : (w.pair q.toCdevQp).submitted.Perm
    (refused (w.pair q.toCdevQp) ++ q.buf ++ (w.pair q.toCdevQp).held
      ++ (w.pair q.toCdevQp).returned)
  freed : ∀ p ∈ refused (w.pair q.toCdevQp), p ∈ w.freed
  order : ((w.pair q.toCdevQp).returned ++ (w.pair q.toCdevQp).held
    ++ q.buf).Sublist (w.pair q.toCdevQp).submitted

theorem QueueOk.delivered_eq {q : CdevQueue} {w : World} (h : QueueOk q [] w) :
    delivered q w = (w.pair q.toCdevQp).submitted := by
  rw [delivered, h.ledger.submitted, List.append_nil]

/-- **CONSERVATION** is the account of the queue pair. -/
theorem QueueOk.conserved {q : CdevQueue} {w : World} (h : QueueOk q [] w)
    (hshort : q.buf.length < maxPktBurst) : Conserved q w := by
  have hledger := h.ledger
  have hbuf := List.append_nil q.buf
  rw [hbuf] at hledger
  refine ⟨hshort, h.inFlight, ?_, ?_, ?_⟩
  · -- the offered operations fall into taken and refused ones
    have hsplit : ((w.pair q.toCdevQp).offered.map Prod.fst).Perm
        ((w.pair q.toCdevQp).returned ++ (w.pair q.toCdevQp).held
          ++ refused (w.pair q.toCdevQp)) := by
      rw [← hledger.taken, refused, ← List.map_append]
      exact (List.filter_append_perm Prod.snd _).symm.map Prod.fst
    rw [hledger.submitted]
    refine (hsplit.append_right q.buf).trans ?_
    generalize refused (w.pair q.toCdevQp) = a
    generalize (w.pair q.toCdevQp).returned = b
    generalize (w.pair q.toCdevQp).held = c
    rw [List.append_assoc]
    refine List.perm_append_comm.trans ?_
    rw [List.append_assoc (a ++ q.buf)]
    exact List.perm_append_comm.append_left _
  · intro p hp
    obtain ⟨x, hx, rfl⟩ := List.mem_map.mp hp
    obtain ⟨hx, hr⟩ := List.mem_filter.mp hx
    exact hledger.refused x hx (by simpa using hr)
  · rw [hledger.submitted, ← hledger.taken]
    exact (List.filter_sublist.map Prod.fst).append_right _

/-- One after the other is handed to a queue. -/
def oneAtATime (env : Env) (cops : List PktId) (q : CdevQueue) (w : World) :
    Except Fault (CdevQueue × World) :=
  cops.foldlM (fun r cop => enqueueCop env cop r.1 r.2) (q, w)

theorem Served.trans {q : CdevQueue} {w : World} {ops ops' : List PktId}
    {r r' : CdevQueue × World} (h : Served q w ops r)
    (h' : Served r.1 r.2 ops' r') : Served q w (ops ++ ops') r' := by
  obtain ⟨hok, hshort, hkey, hsub, hstep⟩ := h'
  rw [h.key] at hkey hsub hstep
  refine ⟨hok, hshort, hkey, ?_, h.step.trans hstep⟩
  rw [hsub, h.submitted, List.append_assoc]

/-- One at a time ends with everything delivered. -/
theorem oneAtATime_served (env : Env) (cops : List PktId) {q : CdevQueue}
    {w : World} {E : Fault → Prop} (h : QueueOk q [] w)
    (hshort : q.buf.length < maxPktBurst) :
    Ends (oneAtATime env cops q w) E (Served q w cops) := by
  have hstart : ∃ done, done ++ cops = cops ∧ Served q w done (q, w) :=
    ⟨[], rfl, h, hshort, rfl, (List.append_nil _).symm, QueueStep.refl _ _⟩
  refine (ends_foldlM (P := fun todo r =>
    ∃ done, done ++ todo = cops ∧ Served q w done r) hstart ?_).mono
      (fun _ he => he) ?_
  · rintro cop todo r ⟨done, hdone, hr⟩
    refine (enqueueCop_served env cop hr.ok hr.short).mono (fun _ he => he) ?_
    intro r' hr'
    exact ⟨done ++ [cop], by rw [List.append_assoc]; exact hdone, hr.trans hr'⟩
  · rintro r ⟨done, hdone, hr⟩
    rw [List.append_nil] at hdone
    rw [← hdone]
    exact hr

/-- A served queue has everything delivered. -/
theorem Served.delivered_eq {q : CdevQueue} {w : World} {ops : List PktId}
    {r : CdevQueue × World} (h : Served q w ops r) (hq : QueueOk q [] w) :
    delivered r.1 r.2 = delivered q w ++ ops := by
  rw [h.ok.delivered_eq, hq.delivered_eq, h.key, h.submitted]

/-- What cannot fail gives a value. -/
theorem exists_ok {α : Type} {x : Except Fault α} {P : α → Prop}
    (h : Ends x (fun _ => False) P) : ∃ a, x = .ok a ∧ P a := by
  cases x with
  | ok a => exact ⟨a, rfl, h⟩
  | error e => exact h.elim

/-- A lcore whose devices take three operations of a burst and give back all
    they have. -/
def laxEnv (lcore : UInt8) : Env where
  lcoreId := lcore
  cipherCode := fun a => if a = .unset then 0 else 5
  authCode := fun a => if a = .unset then 0 else 4
  aeadCode := fun a => if a = .unset then 0 else 2
  accept := fun _ => 3
  ready := fun _ => cdevQueueDesc
  complete := fun _ _ m => m
  newSession := fun _ => true
  cpuCrypto := fun _ => false
  sessionPrepare := fun _ => 0
  handle := fun _ _ pkts => (pkts, pkts.length)
  touch := fun _ _ _ m => m
  saType := fun _ _ => ⟨false, true, false, true⟩
  handle_perm := fun _ _ pkts => List.Perm.refl pkts
  handle_le := fun _ _ _ => Nat.le_refl _

/-- A world with blank SAs. -/
def blankWorld : World where
  mbuf := fun _ => Mbuf.mid (fun _ => 0) 60
  sa := fun _ => default

theorem blankWorld_untouched : Untouched blankWorld :=
  ⟨fun _ => rfl, fun _ _ => rfl⟩

/-- The context of a lcore of `Cdev.twoTables`. -/
def twoStart : State :=
  (IpsecCtx.ofTables Cdev.twoTables.tables 1 .egress, blankWorld)

/-- Five operations are buffered and drained. -/
def twoBuffered : State :=
  (twoStart.1.setQueue 1 { twoStart.1.tbl 1 with buf := [0, 1, 2, 3, 4] },
    twoStart.2.submit (twoStart.1.tbl 1).toCdevQp [0, 1, 2, 3, 4])

theorem twoStart_reaches :
    Reaches (laxEnv 1) .egress True twoStart
      (drainCryptoBuffers (laxEnv 1) twoBuffered) := by
  have hlen : twoStart.1.nbQps = 2 := by
    show (Cdev.twoTables.tables.tbl 1 .egress).length = 2
    rw [Cdev.twoTables_tbl.1]
    rfl
  have hbulk : Step (laxEnv 1) .egress True twoStart twoBuffered := by
    refine ⟨.bulk 1 [0, 1, 2, 3, 4], ?_, rfl⟩
    show 1 < twoStart.1.nbQps
    rw [hlen]
    decide
  have hdrain : Step (laxEnv 1) .egress True twoBuffered
      (drainCryptoBuffers (laxEnv 1) twoBuffered) := ⟨.drain, trivial, rfl⟩
  exact (Relation.ReflTransGen.single hbulk).tail hdrain

/-- **CRYPTO QUEUES LOSE NOTHING**: in every state any interleaving of calls
    leads to, each queue of the context conserves its operations, the offload
    array is empty when bursts are short, bulk and single enqueueing deliver the
    same sequence, and no further call runs behind an array. -/
theorem reachable_conserves {conf : CdevConf} {req : Nat}
    {ps : List LcoreParams} {devs : List CryptodevInfo} {init : InitState}
    (hinit : cryptodevsInit conf req ps devs = some init) (env : Env)
    (dir : Direction) {w : World} (hw : Untouched w) {short : Prop} {s : State}
    (hreach : Reaches env dir short
      (IpsecCtx.ofTables init.tables env.lcoreId dir, w) s) :
    (∀ i, i < s.1.nbQps → Conserved (s.1.tbl i) s.2)
      ∧ (short → s.1.olPkts = [])
      ∧ (∀ i, i < s.1.nbQps → ∀ cops, ∃ r r',
        enqueueCopBulk env cops (s.1.tbl i) s.2 = .ok r
          ∧ oneAtATime env cops (s.1.tbl i) s.2 = .ok r'
          ∧ delivered r.1 r.2 = delivered (s.1.tbl i) s.2 ++ cops
          ∧ delivered r'.1 r'.2 = delivered r.1 r.2)
      ∧ ∀ a, Allowed short s a →
        Ends (exec env dir s a) (CallFault short) (fun _ => True) := by
  have hrest := reaches_resting (ofTables_resting hinit env.lcoreId dir hw short)
    hreach
  refine ⟨?_, hrest.2, ?_, ?_⟩
  · intro i hi
    obtain ⟨hok, hshort⟩ := hrest.1.queues i hi
    exact hok.conserved hshort
  · intro i hi cops
    obtain ⟨hok, hshort⟩ := hrest.1.queues i hi
    obtain ⟨r, hr, hserved⟩ := exists_ok
      (enqueueCopBulk_served env cops hok hshort)
    obtain ⟨r', hr', hserved'⟩ := exists_ok
      (oneAtATime_served env cops hok hshort)
    refine ⟨r, r', hr, hr', hserved.delivered_eq hok, ?_⟩
    rw [hserved'.delivered_eq hok, hserved.delivered_eq hok]
  · intro a ha
    exact (exec_ok env dir hrest ha).mono (fun _ he => he) (fun _ _ => trivial)

theorem reachable_conserves_two :
    let s := drainCryptoBuffers (laxEnv 1) twoBuffered
    (∀ i, i < s.1.nbQps → Conserved (s.1.tbl i) s.2)
      ∧ (True → s.1.olPkts = [])
      ∧ (∀ i, i < s.1.nbQps → ∀ cops, ∃ r r',
        enqueueCopBulk (laxEnv 1) cops (s.1.tbl i) s.2 = .ok r
          ∧ oneAtATime (laxEnv 1) cops (s.1.tbl i) s.2 = .ok r'
          ∧ delivered r.1 r.2 = delivered (s.1.tbl i) s.2 ++ cops
          ∧ delivered r'.1 r'.2 = delivered r.1 r.2)
      ∧ ∀ a, Allowed True s a →
        Ends (exec (laxEnv 1) .egress s a) (CallFault True) (fun _ => True) :=
  reachable_conserves Cdev.cryptodevsInit_twoTables (laxEnv 1) .egress
    blankWorld_untouched twoStart_reaches

end CryptoQueue
