import IpsecSecgw.IpsecModel
import IpsecSecgw.Lib.Outcome

/-! # What calls on queues and sessions change

    One statement for each kind of call: `QueueCall` for the routines that put
    operations into a queue, `Created` for those that create a session.  They
    assume nothing of the context but that buffers are short, and are enough to
    follow the packets of a burst, or the session of an SA from lcore to lcore,
    without looking into the calls again. -/

namespace Ipsec

open SaModel MbufModel CdevModel IpsecModel Outcome

/-! ## Beside the sessions -/

/-- Work on packets and queue pairs: the SAs, the sessions and the logs are as
    before. -/
structure Aside (w w' : World) : Prop where
  sa : w'.sa = w.sa
  sesDev : w'.sesDev = w.sesDev
  nextSes : w'.nextSes = w.nextSes
  handled : w'.handled = w.handled
  queued : w'.queued = w.queued

theorem Aside.refl (w : World) : Aside w w := ⟨rfl, rfl, rfl, rfl, rfl⟩

theorem Aside.trans {w w' w'' : World} (h : Aside w w') (h' : Aside w' w'') :
    Aside w w'' :=
  ⟨h'.sa.trans h.sa, h'.sesDev.trans h.sesDev, h'.nextSes.trans h.nextSes,
    h'.handled.trans h.handled, h'.queued.trans h.queued⟩

/-- Writing packets. -/
theorem modifyAll_aside (ps : List PktId) (f : PktId → Mbuf → Mbuf)
    (w : World) : Aside w (w.modifyAll ps f)
      ∧ (w.modifyAll ps f).pair = w.pair
      ∧ (w.modifyAll ps f).freed = w.freed := by
  induction ps generalizing w with
  | nil => exact ⟨Aside.refl w, rfl, rfl⟩
  | cons p ps ih =>
      obtain ⟨h, hpair, hfreed⟩ := ih (w.modify p (f p))
      exact ⟨⟨h.sa, h.sesDev, h.nextSes, h.handled, h.queued⟩, hpair, hfreed⟩

/-! ## Putting operations into a queue -/

/-- What a call that puts `ops` into the queue `q` leaves behind, besides the
    queue itself: the operations are logged as submitted, what it frees the
    device has refused, and buffers stay short. -/
structure QueueCall (q : CdevQueue) (w : World) (ops : List PktId)
    (r : CdevQueue × World) : Prop where
  key : r.1.toCdevQp = q.toCdevQp
  short : q.buf.length < maxPktBurst → r.1.buf.length < maxPktBurst
  submitted : ∀ k, (r.2.pair k).submitted
    = (w.pair k).submitted ++ if k = q.toCdevQp then ops else []
  offered : ∀ k, (w.pair k).offered ⊆ (r.2.pair k).offered
  freed : ∃ l, r.2.freed = w.freed ++ l
    ∧ ∀ p ∈ l, ∃ k, (p, false) ∈ (r.2.pair k).offered
  aside : Aside w r.2

/-- A burst offers its operations and frees those refused. -/
theorem burst_call (env : Env) (q q' : CdevQueue) (hkey : q'.toCdevQp = q.toCdevQp)
    (hshort : q.buf.length < maxPktBurst → q'.buf.length < maxPktBurst)
    (ops : List PktId) (w : World) :
    let r := rteCryptodevEnqueueBurst env q.toCdevQp ops w
    QueueCall q w [] (q', r.2.freePkts (ops.drop r.1)) := by
  intro r
  have hself : r.2.pair q.toCdevQp =
      { w.pair q.toCdevQp with
        held := (w.pair q.toCdevQp).held ++ ops.take r.1
        offered := (w.pair q.toCdevQp).offered ++ (ops.take r.1).map (·, true)
          ++ (ops.drop r.1).map (·, false) } := Function.update_self ..
  have hother : ∀ k, k ≠ q.toCdevQp → r.2.pair k = w.pair k :=
    fun k hk => Function.update_of_ne hk _ _
  refine ⟨hkey, hshort, ?_, ?_, ⟨ops.drop r.1, rfl, ?_⟩, rfl, rfl, rfl, rfl, rfl⟩
  · intro k
    rw [ite_self, List.append_nil]
    show (r.2.pair k).submitted = _
    by_cases hk : k = q.toCdevQp
    · rw [hk, hself]
    · rw [hother k hk]
  · intro k
    show _ ⊆ (r.2.pair k).offered
    by_cases hk : k = q.toCdevQp
    · rw [hk, hself]
      intro x hx
      exact List.mem_append_left _ (List.mem_append_left _ hx)
    · rw [hother k hk]
      exact fun _ hx => hx
  · intro p hp
    refine ⟨q.toCdevQp, ?_⟩
    show _ ∈ (r.2.pair q.toCdevQp).offered
    rw [hself]
    exact List.mem_append_right _ (List.mem_map_of_mem hp)

/-- Whether the freed packets are counted does not matter here. -/
theorem QueueCall.uncounted {q q' : CdevQueue} {w v : World}
    {ops l : List PktId} (h : QueueCall q w ops (q', v.freePkts l)) :
    QueueCall q w ops (q', v.freeCops l) :=
  ⟨h.key, h.short, h.submitted, h.offered, h.freed, h.aside.sa, h.aside.sesDev,
    h.aside.nextSes, h.aside.handled, h.aside.queued⟩

theorem QueueCall.refl {q q' : CdevQueue} (hkey : q'.toCdevQp = q.toCdevQp)
    (hshort : q.buf.length < maxPktBurst → q'.buf.length < maxPktBurst)
    (w : World) : QueueCall q w [] (q', w) := by
  refine ⟨hkey, hshort, ?_, fun _ _ hx => hx, ⟨[], (List.append_nil _).symm, ?_⟩,
    Aside.refl w⟩
  · intro k
    rw [ite_self, List.append_nil]
  · intro p hp
    cases hp

theorem QueueCall.trans {q : CdevQueue} {w : World} {ops ops' : List PktId}
    {r r' : CdevQueue × World} (h : QueueCall q w ops r)
    (h' : QueueCall r.1 r.2 ops' r') : QueueCall q w (ops ++ ops') r' := by
  refine ⟨h'.key.trans h.key, fun hs => h'.short (h.short hs), ?_, ?_, ?_,
    h.aside.trans h'.aside⟩
  · intro k
    rw [h'.submitted, h.submitted, h.key, List.append_assoc]
    split
    · rfl
    · rfl
  · intro k x hx
    exact h'.offered k (h.offered k hx)
  · obtain ⟨l, hl, hmem⟩ := h.freed
    obtain ⟨l', hl', hmem'⟩ := h'.freed
    refine ⟨l ++ l', by rw [hl', hl, List.append_assoc], ?_⟩
    intro p hp
    rcases List.mem_append.mp hp with hp | hp
    · obtain ⟨k, hk⟩ := hmem p hp
      exact ⟨k, h'.offered k hk⟩
    · exact hmem' p hp

/-- Handing operations over is logged. -/
theorem submit_call (q q' : CdevQueue) (hkey : q'.toCdevQp = q.toCdevQp)
    (hshort : q.buf.length < maxPktBurst → q'.buf.length < maxPktBurst)
    (w : World) (ops : List PktId) :
    QueueCall q w ops (q', w.submit q.toCdevQp ops) := by
  have hself : (w.submit q.toCdevQp ops).pair q.toCdevQp =
      { w.pair q.toCdevQp with
        submitted := (w.pair q.toCdevQp).submitted ++ ops } :=
    Function.update_self ..
  have hother : ∀ k, k ≠ q.toCdevQp →
      (w.submit q.toCdevQp ops).pair k = w.pair k :=
    fun k hk => Function.update_of_ne hk _ _
  refine ⟨hkey, hshort, ?_, ?_, ⟨[], (List.append_nil _).symm, ?_⟩,
    rfl, rfl, rfl, rfl, rfl⟩
  · intro k
    show ((w.submit q.toCdevQp ops).pair k).submitted = _
    by_cases hk : k = q.toCdevQp
    · rw [if_pos hk, hk, hself]
    · rw [if_neg hk, hother k hk, List.append_nil]
  · intro k
    show _ ⊆ ((w.submit q.toCdevQp ops).pair k).offered
    by_cases hk : k = q.toCdevQp
    · rw [hk, hself]
      exact fun _ hx => hx
    · rw [hother k hk]
      exact fun _ hx => hx
  · intro p hp
    cases hp

/-- Both ways of flushing a buffer. -/
theorem enqueueCopBurst_call (env : Env) (q : CdevQueue) (w : World) :
    QueueCall q w [] (enqueueCopBurst env q w) :=
  burst_call env q (enqueueCopBurst env q w).1 rfl
    (fun _ => show 0 < maxPktBurst by decide) q.buf w

theorem enqueueCopFull_call (env : Env) (q : CdevQueue) (w : World) :
    QueueCall q w [] (enqueueCopFull env q w) :=
  (burst_call env q (enqueueCopFull env q w).1 rfl
    (fun _ => show 0 < maxPktBurst by decide) q.buf w).uncounted

/-- A full buffer is flushed. -/
theorem flushFull_call (q q' : CdevQueue) (hkey : q'.toCdevQp = q.toCdevQp)
    (hle : q'.buf.length ≤ maxPktBurst) (w : World) {flushed : CdevQueue × World}
    (hflush : QueueCall q' w [] flushed) (hempty : flushed.1.buf = []) :
    QueueCall q w []
      (if q'.buf.length = maxPktBurst then flushed else (q', w)) := by
  split
  · refine ⟨hflush.key.trans hkey, ?_, ?_, hflush.offered, hflush.freed,
      hflush.aside⟩
    · intro _
      rw [hempty]
      decide
    · intro k
      have hsub := hflush.submitted k
      rw [ite_self] at hsub ⊢
      exact hsub
  · rename_i hfull
    exact QueueCall.refl hkey (fun _ => Nat.lt_of_le_of_ne hle hfull) w

/-- **ONE OPERATION**: `enqueue_cop` faults on long buffers only. -/
theorem enqueueCop_call (env : Env) (cop : PktId) (q : CdevQueue) (w : World) :
    Ends (enqueueCop env cop q w) (fun _ => ¬ q.buf.length < maxPktBurst)
      (QueueCall q w [cop]) := by
  rw [enqueueCop]
  split
  · rename_i hlong
    exact ends_error (Nat.not_lt_of_le hlong)
  · rename_i hshort
    have hshort : q.buf.length < maxPktBurst := Nat.lt_of_not_le hshort
    have hsub := submit_call q q rfl (fun h => h) w [cop]
    have hfit : (q.buf ++ [cop]).length ≤ maxPktBurst := by
      rw [List.length_append]
      exact hshort
    have hflush := flushFull_call q { q with buf := q.buf ++ [cop] } rfl hfit
      (w.submit q.toCdevQp [cop]) (enqueueCopBurst_call env _ _) rfl
    have hall := hsub.trans hflush
    rw [List.append_nil] at hall
    dsimp only
    split
    · rename_i hfull
      rw [if_pos hfull] at hall
      exact ends_ok hall
    · rename_i hfull
      rw [if_neg hfull] at hall
      exact ends_ok hall

/-- The refill loop. -/
theorem copBulkLoop_call (env : Env) {E : Fault → Prop} {fuel : Nat}
    {cops : List PktId} {q : CdevQueue} (w : World)
    (hshort : q.buf.length < maxPktBurst) (hfuel : cops.length < fuel) :
    Ends (copBulkLoop env fuel cops q w) E (QueueCall q w []) := by
  induction fuel generalizing cops q w with
  | zero => exact absurd hfuel (Nat.not_lt_zero _)
  | succ fuel ih =>
      rw [copBulkLoop, if_neg (Nat.not_lt_of_lt hshort)]
      dsimp only
      generalize hn : min cops.length (maxPktBurst - q.buf.length) = n
      have hfit : (q.buf ++ cops.take n).length ≤ maxPktBurst := by
        rw [List.length_append, List.length_take]
        omega
      have hflush := flushFull_call q { q with buf := q.buf ++ cops.take n }
        rfl hfit w (enqueueCopFull_call env _ _) rfl
      generalize hr : (if ({ q with buf := q.buf ++ cops.take n }
        : CdevQueue).buf.length = maxPktBurst then
          enqueueCopFull env { q with buf := q.buf ++ cops.take n } w
        else ({ q with buf := q.buf ++ cops.take n }, w)) = r at hflush
      show Ends (if cops.drop n = [] then .ok r
        else copBulkLoop env fuel (cops.drop n) r.1 r.2) E _
      split
      · exact ends_ok hflush
      · rename_i hmore
        -- at least one operation found room
        have hpos : 0 < cops.length := by
          refine List.length_pos_iff.mpr ?_
          rintro rfl
          exact hmore List.drop_nil
        have hlen : (cops.drop n).length < fuel := by
          rw [List.length_drop]
          omega
        exact (ih r.2 (hflush.short hshort) hlen).mono (fun _ he => he)
          (fun r' hr' => hflush.trans hr')

/-- **IN BULK**: `enqueue_cop_bulk` on a short buffer does not fault. -/
theorem enqueueCopBulk_call (env : Env) (cops : List PktId) {q : CdevQueue}
    (w : World) {E : Fault → Prop} (hshort : q.buf.length < maxPktBurst) :
    Ends (enqueueCopBulk env cops q w) E (QueueCall q w cops) := by
  have hsub := submit_call q q rfl (fun h => h) w cops
  rw [enqueueCopBulk]
  dsimp only
  split
  · have hall := hsub.trans (burst_call env q
      { q with inFlight := (q.inFlight
        + (rteCryptodevEnqueueBurst env q.toCdevQp cops
          (w.submit q.toCdevQp cops)).1) % 0x10000 } rfl (fun h => h) cops
      (w.submit q.toCdevQp cops))
    rw [List.append_nil] at hall
    exact ends_ok hall.uncounted
  · refine (copBulkLoop_call env _ hshort (Nat.lt_succ_self _)).mono
      (fun _ he => he) ?_
    intro r hr
    have hall := hsub.trans hr
    rw [List.append_nil] at hall
    exact hall

/-- A call on a queue of a context leaves the others and the hash. -/
structure CtxCall (ctx ctx' : IpsecCtx) : Prop where
  cdevMap : ctx'.cdevMap = ctx.cdevMap
  nbQps : ctx'.nbQps = ctx.nbQps
  olPkts : ctx'.olPkts = ctx.olPkts
  keys : ∀ i, (ctx'.tbl i).toCdevQp = (ctx.tbl i).toCdevQp
  short : (∀ i, (ctx.tbl i).buf.length < maxPktBurst) →
    ∀ i, (ctx'.tbl i).buf.length < maxPktBurst

theorem CtxCall.refl (ctx : IpsecCtx) : CtxCall ctx ctx :=
  ⟨rfl, rfl, rfl, fun _ => rfl, fun h => h⟩

theorem CtxCall.trans {ctx ctx' ctx'' : IpsecCtx} (h : CtxCall ctx ctx')
    (h' : CtxCall ctx' ctx'') : CtxCall ctx ctx'' :=
  ⟨h'.cdevMap.trans h.cdevMap, h'.nbQps.trans h.nbQps, h'.olPkts.trans h.olPkts,
    fun i => (h'.keys i).trans (h.keys i), fun hs => h'.short (h.short hs)⟩

theorem QueueCall.ctxCall {ctx : IpsecCtx} {i : Nat} {w : World}
    {ops : List PktId} {r : CdevQueue × World}
    (h : QueueCall (ctx.tbl i) w ops r) : CtxCall ctx (ctx.setQueue i r.1) := by
  refine ⟨rfl, rfl, rfl, ?_, ?_⟩
  · intro j
    show (Function.update ctx.tbl i r.1 j).toCdevQp = _
    by_cases hj : j = i
    · subst hj
      rw [Function.update_self]
      exact h.key
    · rw [Function.update_of_ne hj]
  · intro hs j
    show (Function.update ctx.tbl i r.1 j).buf.length < maxPktBurst
    by_cases hj : j = i
    · subst hj
      rw [Function.update_self]
      exact h.short (hs j)
    · rw [Function.update_of_ne hj]
      exact hs j

/-! ## Creating sessions -/

@[simp] theorem session_setSession (sa : IpsecSa) (fb : Bool)
    (ss : RteIpsecSession) : session (setSession sa fb ss) fb = ss := by
  cases fb with
  | false => rfl
  | true => rfl

@[simp] theorem session_setSession_not (sa : IpsecSa) (fb : Bool)
    (ss : RteIpsecSession) :
    session (setSession sa fb ss) (!fb) = session sa (!fb) := by
  cases fb with
  | false => rfl
  | true => rfl

/-- The session types that need a queue of a crypto device, or its number. -/
def IsLookaside (t : ActionType) : Prop := t ≠ .inlineCrypto ∧ t ≠ .inlineProtocol

/-- The SA names the queue the context's hash has for it. -/
def Indexed (env : Env) (ctx : IpsecCtx) (sa sa' : IpsecSa) (i : Nat) : Prop :=
  ctx.cdevMap (sessionKey env sa) = some i ∧ sa'.cdevIdQp = UInt32.ofNat i

/-- What creating a session of the SA `p`, one that has no object, leaves
    behind: nothing but this session, the SA's queue and the new object has
    changed; an object is on the device of the queue the hash has for the SA;
    and success on a lookaside session names that queue. -/
structure Created (env : Env) (ctx : IpsecCtx) (p : SaPtr) (fb : Bool)
    (w : World) (r : Int × World) : Prop where
  pair : r.2.pair = w.pair
  freed : r.2.freed = w.freed
  handled : r.2.handled = w.handled
  queued : r.2.queued = w.queued
  mbuf : r.2.mbuf = w.mbuf
  others : ∀ q, q ≠ p → r.2.sa q = w.sa q
  key : sessionKey env (r.2.sa p) = sessionKey env (w.sa p)
  other : session (r.2.sa p) (!fb) = session (w.sa p) (!fb)
  sessions : (r.2.sa p).fallbackSessions = (w.sa p).fallbackSessions
  type : r.1 = 0 → (session (r.2.sa p) fb).type = (session (w.sa p) fb).type
  index : (r.2.sa p).cdevIdQp = (w.sa p).cdevIdQp
    ∨ ∃ i, Indexed env ctx (w.sa p) (r.2.sa p) i
  grow : w.nextSes ≤ r.2.nextSes
    ∧ ∀ ses, ses < w.nextSes → r.2.sesDev ses = w.sesDev ses
  object : ∀ ses, (session (r.2.sa p) fb).ses = some ses → ses < r.2.nextSes
    ∧ ∃ i, Indexed env ctx (w.sa p) (r.2.sa p) i
      ∧ r.2.sesDev ses = (ctx.tbl i).id
  ready : r.1 = 0 → IsLookaside (session (w.sa p) fb).type →
    ∃ i, Indexed env ctx (w.sa p) (r.2.sa p) i

/-- Nothing was created. -/
theorem created_none {env : Env} {ctx : IpsecCtx} {p : SaPtr} {fb : Bool}
    {w : World} (hses : (session (w.sa p) fb).ses = none) {rc : Int}
    (hrc : rc = 0 → ¬ IsLookaside (session (w.sa p) fb).type) :
    Created env ctx p fb w (rc, w) where
  pair := rfl
  freed := rfl
  handled := rfl
  queued := rfl
  mbuf := rfl
  others := fun _ _ => rfl
  key := rfl
  other := rfl
  sessions := rfl
  type := fun _ => rfl
  index := .inl rfl
  grow := ⟨Nat.le_refl _, fun _ _ => rfl⟩
  object := by
    intro ses h
    rw [hses] at h
    cases h
  ready := fun h hl => absurd hl (hrc h)

theorem sessionKey_setSession (env : Env) (sa : IpsecSa) (fb : Bool)
    (ss : RteIpsecSession) (i : UInt32) :
    sessionKey env { setSession sa fb ss with cdevIdQp := i }
      = sessionKey env sa := by
  cases fb with
  | false => rfl
  | true => rfl

/-- The world with an object attached, or without one. -/
theorem attachObject_cases (env : Env) (p : SaPtr) (fb : Bool) (dev : Nat)
    (w : World) :
    ∃ ses, (attachObject env p fb dev w).sa = Function.update w.sa p
        (setSession (w.sa p) fb { session (w.sa p) fb with ses := ses })
      ∧ (ses = none ∧ (attachObject env p fb dev w).nextSes = w.nextSes
          ∧ (attachObject env p fb dev w).sesDev = w.sesDev
        ∨ ses = some w.nextSes
          ∧ (attachObject env p fb dev w).nextSes = w.nextSes + 1
          ∧ (attachObject env p fb dev w).sesDev
            = Function.update w.sesDev w.nextSes dev)
      ∧ (attachObject env p fb dev w).pair = w.pair
      ∧ (attachObject env p fb dev w).freed = w.freed
      ∧ (attachObject env p fb dev w).handled = w.handled
      ∧ (attachObject env p fb dev w).queued = w.queued
      ∧ (attachObject env p fb dev w).mbuf = w.mbuf := by
  rw [attachObject]
  dsimp only
  split
  · exact ⟨some w.nextSes, rfl, .inr ⟨rfl, rfl, rfl⟩, rfl, rfl, rfl, rfl, rfl⟩
  · exact ⟨none, rfl, .inl ⟨rfl, rfl, rfl⟩, rfl, rfl, rfl, rfl, rfl⟩

/-- An object attached and the queue written. -/
theorem created_done {env : Env} {ctx : IpsecCtx} {p : SaPtr} (fb : Bool)
    {w : World} {i : Nat}
    (hmap : ctx.cdevMap (sessionKey env (w.sa p)) = some i) :
    Created env ctx p fb w (0,
      (attachObject env p fb (ctx.tbl i).id w).modifySa p fun sa =>
        { sa with cdevIdQp := UInt32.ofNat i }) := by
  obtain ⟨ses, hsa, hses, hpair, hfreed, hhandled, hqueued, hmbuf⟩ :=
    attachObject_cases env p fb (ctx.tbl i).id w
  generalize attachObject env p fb (ctx.tbl i).id w = w'
    at hsa hses hpair hfreed hhandled hqueued hmbuf
  -- the session object and the index are all that is written
  have hself : (w'.modifySa p fun sa =>
      { sa with cdevIdQp := UInt32.ofNat i }).sa p
      = { setSession (w.sa p) fb { session (w.sa p) fb with ses := ses } with
        cdevIdQp := UInt32.ofNat i } := by
    show Function.update w'.sa p _ p = _
    rw [Function.update_self, hsa, Function.update_self]
  have hindexed : Indexed env ctx (w.sa p) ((w'.modifySa p fun sa =>
      { sa with cdevIdQp := UInt32.ofNat i }).sa p) i := by
    refine ⟨hmap, ?_⟩
    rw [hself]
  have hsession : ∀ b, session ((w'.modifySa p fun sa =>
      { sa with cdevIdQp := UInt32.ofNat i }).sa p) b
      = session (setSession (w.sa p) fb
        { session (w.sa p) fb with ses := ses }) b := by
    intro b
    rw [hself]
    rfl
  refine ⟨hpair, hfreed, hhandled, hqueued, hmbuf, ?_, ?_, ?_, ?_, fun _ => ?_,
    .inr ⟨i, hindexed⟩, ?_, ?_, fun _ _ => ⟨i, hindexed⟩⟩
  · intro q hq
    show Function.update w'.sa p _ q = _
    rw [Function.update_of_ne hq, hsa, Function.update_of_ne hq]
  · rw [hself]
    exact sessionKey_setSession env (w.sa p) fb _ _
  · rw [hsession, session_setSession_not]
  · rw [hself]
    cases fb with
    | false => rfl
    | true => rfl
  · rw [hsession, session_setSession]
  · show w.nextSes ≤ w'.nextSes ∧ ∀ ses, ses < w.nextSes →
      w'.sesDev ses = w.sesDev ses
    -- earlier session objects keep their devices
    rcases hses with ⟨-, hnext, hdev⟩ | ⟨-, hnext, hdev⟩
    · rw [hnext, hdev]
      exact ⟨Nat.le_refl _, fun _ _ => rfl⟩
    · rw [hnext, hdev]
      refine ⟨Nat.le_succ _, ?_⟩
      intro ses hlt
      exact Function.update_of_ne (Nat.ne_of_lt hlt) _ _
  · intro ses' h
    rw [hsession, session_setSession] at h
    have h : ses = some ses' := h
    -- a new one belongs to the device of the queue
    rcases hses with ⟨hnone, -, -⟩ | ⟨hsome, hnext, hdev⟩
    · rw [hnone] at h
      cases h
    · obtain rfl : w.nextSes = ses' := Option.some.inj (hsome.symm.trans h)
      refine ⟨?_, i, hindexed, ?_⟩
      · show w.nextSes < w'.nextSes
        rw [hnext]
        exact Nat.lt_succ_self _
      · show w'.sesDev w.nextSes = _
        rw [hdev, Function.update_self]

/-- **A SESSION IS CREATED**. -/
theorem createLookasideSession_created (env : Env) (ctx : IpsecCtx) (p : SaPtr)
    (fb : Bool) {w : World} (hses : (session (w.sa p) fb).ses = none) :
    Created env ctx p fb w (createLookasideSession env ctx p fb w) := by
  have hneg : (-1 : Int) ≠ 0 := by decide
  rw [createLookasideSession]
  cases hmap : ctx.cdevMap (sessionKey env (w.sa p)) with
  -- no queue for these algorithms
  | none => exact created_none hses fun h => absurd h hneg
  | some i =>
      have hdone := created_done fb hmap
      dsimp only
      cases htype : (session (w.sa p) fb).type with
      | none => exact hdone
      | inlineCrypto => exact created_none hses fun h => absurd h hneg
      | inlineProtocol => exact created_none hses fun h => absurd h hneg
      | cpuCrypto =>
          dsimp only
          split
          · exact created_none hses
              fun h => absurd h (show enotsup ≠ 0 by decide)
          · exact hdone
      | lookasideProtocol =>
          dsimp only
          obtain ⟨ses, hsa, hcase, hpair, hfreed, hhandled, hqueued, hmbuf⟩ :=
            attachObject_cases env p fb (ctx.tbl i).id w
          split
          · rename_i hnone
            rw [hsa, Function.update_self, session_setSession] at hnone
            obtain rfl : ses = none := hnone
            -- no object left: the null pointer was there before
            have hsame : (attachObject env p fb (ctx.tbl i).id w).sa = w.sa := by
              rw [hsa]
              refine Function.update_eq_self_iff.mpr ?_
              cases fb with
              | false =>
                  have hses : (w.sa p).primary.ses = none := hses
                  show { w.sa p with primary := { (w.sa p).primary with
                    ses := none } } = w.sa p
                  rw [← hses]
              | true =>
                  have hses : (w.sa p).fallback.ses = none := hses
                  show { w.sa p with fallback := { (w.sa p).fallback with
                    ses := none } } = w.sa p
                  rw [← hses]
            obtain ⟨-, hnext, hdev⟩ | ⟨hsome, -, -⟩ := hcase
            · refine ⟨hpair, hfreed, hhandled, hqueued, hmbuf, ?_, ?_, ?_, ?_,
                fun h => absurd h hneg, .inl ?_, ?_, ?_, fun h => absurd h hneg⟩
              · intro q _
                rw [hsame]
              · rw [hsame]
              · rw [hsame]
              · rw [hsame]
              · rw [hsame]
              · rw [hnext, hdev]
                exact ⟨Nat.le_refl _, fun _ _ => rfl⟩
              · intro ses h
                rw [hsame, hses] at h
                cases h
            · cases hsome
          · exact hdone

/-- Preparing a session for `librte_ipsec`; one that cannot be prepared has no
    object afterwards. -/
theorem Created.prepare {env : Env} {ctx : IpsecCtx} {p : SaPtr} {fb : Bool}
    {w : World} {r : Int × World} (h : Created env ctx p fb w r) (rc : Int) :
    Created env ctx p fb w
      (if r.1 ≠ 0 then r
      else if rc ≠ 0 then
        (rc, r.2.next.modifySa p fun sa => setSession sa fb {})
      else (0, r.2.next)) := by
  obtain ⟨hpair, hfreed, hhandled, hqueued, hmbuf, hothers, hkey, hother,
    hsessions, htype, hindex, hgrow, hobject, hready⟩ := h
  split
  · rename_i hrc
    exact ⟨hpair, hfreed, hhandled, hqueued, hmbuf, hothers, hkey, hother,
      hsessions, htype, hindex, hgrow, hobject, hready⟩
  · rename_i hrc
    have hrc : r.1 = 0 := not_not.mp hrc
    split
    · rename_i hprep
      -- the session is zeroed
      have hself : (r.2.next.modifySa p fun sa => setSession sa fb {}).sa p
          = setSession (r.2.sa p) fb {} := Function.update_self ..
      have hidx : (setSession (r.2.sa p) fb {}).cdevIdQp
          = (r.2.sa p).cdevIdQp := by
        cases fb with
        | false => rfl
        | true => rfl
      refine ⟨hpair, hfreed, hhandled, hqueued, hmbuf, ?_, ?_, ?_, ?_,
        fun h => absurd h hprep, ?_, hgrow, ?_, fun h => absurd h hprep⟩
      · intro q hq
        exact (Function.update_of_ne hq _ _).trans (hothers q hq)
      · show sessionKey env ((r.2.next.modifySa p fun sa =>
          setSession sa fb {}).sa p) = _
        rw [hself, ← hkey]
        cases fb with
        | false => rfl
        | true => rfl
      · show session ((r.2.next.modifySa p fun sa =>
          setSession sa fb {}).sa p) (!fb) = _
        rw [hself, session_setSession_not, hother]
      · show ((r.2.next.modifySa p fun sa =>
          setSession sa fb {}).sa p).fallbackSessions = _
        rw [hself, ← hsessions]
        cases fb with
        | false => rfl
        | true => rfl
      · show ((r.2.next.modifySa p fun sa => setSession sa fb {}).sa p).cdevIdQp
            = _ ∨ ∃ i, _ ∧ ((r.2.next.modifySa p fun sa =>
              setSession sa fb {}).sa p).cdevIdQp = _
        rw [hself, hidx]
        exact hindex
      · intro ses h
        have h : (session ((r.2.next.modifySa p fun sa =>
          setSession sa fb {}).sa p) fb).ses = some ses := h
        rw [hself, session_setSession] at h
        cases h
    · exact ⟨hpair, hfreed, hhandled, hqueued, hmbuf, hothers, hkey, hother,
        hsessions, fun _ => htype hrc, hindex, hgrow, hobject,
        fun _ hl => hready hrc hl⟩

/-- **A SESSION IS FILLED** for `librte_ipsec`. -/
theorem fillIpsecSession_created (env : Env) (ctx : IpsecCtx) (p : SaPtr)
    (fb : Bool) {w : World} (hses : (session (w.sa p) fb).ses = none) :
    Created env ctx p fb w (fillIpsecSession env ctx p fb w) := by
  have hlook := createLookasideSession_created env ctx p fb hses
  rw [fillIpsecSession]
  refine Created.prepare ?_ _
  cases htype : (session (w.sa p) fb).type with
  | none => exact hlook
  | cpuCrypto => exact hlook
  | lookasideProtocol => exact hlook
  | inlineCrypto => exact created_none hses fun _ h => h.1 htype
  | inlineProtocol => exact created_none hses fun _ h => h.2 htype

/-! ## Groups -/

/-- What the loop of `sa_group` has collected. -/
def collected (s : List IpsecGroup × Option IpsecGroup) : List (PktId × Option SaRef) :=
  (s.1 ++ s.2.toList).flatMap IpsecGroup.members

theorem collected_step (s : List IpsecGroup × Option IpsecGroup)
    (x : PktId × Option SaRef) :
    collected (saGroupStep s x) = collected s ++ [x] := by
  obtain ⟨gs, g⟩ := s
  rw [saGroupStep]
  cases g with
  | none =>
      show (gs ++ [IpsecGroup.mk x.2 [x.1]]).flatMap IpsecGroup.members = _
      rw [List.flatMap_append]
      show _ = (gs ++ []).flatMap IpsecGroup.members ++ [x]
      rw [List.append_nil]
      rfl
  | some g =>
      dsimp only
      show _ = (gs ++ [g]).flatMap IpsecGroup.members ++ [x]
      split
      · rename_i hid
        show (gs ++ [IpsecGroup.mk g.id (g.pkts ++ [x.1])]).flatMap IpsecGroup.members = _
        rw [List.flatMap_append, List.flatMap_append, List.append_assoc,
          List.flatMap_singleton, List.flatMap_singleton, IpsecGroup.members,
          IpsecGroup.members, List.map_append]
        dsimp only
        rw [hid]
        rfl
      · show (gs ++ [g] ++ [IpsecGroup.mk x.2 [x.1]]).flatMap IpsecGroup.members = _
        rw [List.flatMap_append]
        rfl

/-- **GROUPING KEEPS THE BURST**: the groups, one after the other, are the
    packets of the burst in their order, each with its SA pointer. -/
theorem saGroup_members (burst : List (PktId × Option SaRef)) :
    (saGroup burst).flatMap IpsecGroup.members = burst := by
  have hloop : ∀ s, collected (burst.foldl saGroupStep s)
      = collected s ++ burst := by
    induction burst with
    | nil =>
        intro s
        exact (List.append_nil _).symm
    | cons x burst ih =>
        intro s
        rw [List.foldl_cons, ih, collected_step, List.append_assoc]
        rfl
  exact hloop ([], none)

/-- No group is empty. -/
theorem saGroup_nonempty {burst : List (PktId × Option SaRef)} {g : IpsecGroup}
    (hg : g ∈ saGroup burst) : g.pkts ≠ [] := by
  have hloop : ∀ (burst : List (PktId × Option SaRef)) s,
      (∀ g ∈ s.1 ++ s.2.toList, g.pkts ≠ []) →
      ∀ g ∈ (burst.foldl saGroupStep s).1 ++ (burst.foldl saGroupStep s).2.toList,
        g.pkts ≠ [] := by
    intro burst
    induction burst with
    | nil => exact fun _ h => h
    | cons x burst ih =>
        intro s h
        refine ih _ ?_
        obtain ⟨gs, g⟩ := s
        rw [saGroupStep]
        have hone : [x.1] ≠ [] := List.cons_ne_nil _ _
        cases g with
        | none =>
            intro g' hg'
            rcases List.mem_append.mp hg' with hg' | hg'
            · exact h g' (List.mem_append_left _ hg')
            · obtain rfl := List.mem_singleton.mp hg'
              exact hone
        | some g =>
            dsimp only
            split
            · intro g' hg'
              rcases List.mem_append.mp hg' with hg' | hg'
              · exact h g' (List.mem_append_left _ hg')
              · obtain rfl := List.mem_singleton.mp hg'
                exact List.append_ne_nil_of_right_ne_nil _ hone
            · intro g' hg'
              rcases List.mem_append.mp hg' with hg' | hg'
              · exact h g' hg'
              · obtain rfl := List.mem_singleton.mp hg'
                exact hone
  refine hloop burst ([], none) ?_ g hg
  intro g' hg'
  cases hg'

/-- The SA pointer of a group is that of a packet. -/
theorem saGroup_id {burst : List (PktId × Option SaRef)} {g : IpsecGroup}
    (hg : g ∈ saGroup burst) : ∃ x ∈ burst, x.2 = g.id := by
  obtain ⟨p, hp⟩ := List.exists_mem_of_ne_nil _ (saGroup_nonempty hg)
  refine ⟨(p, g.id), ?_, rfl⟩
  rw [← saGroup_members burst]
  exact List.mem_flatMap.mpr ⟨g, hg, List.mem_map_of_mem hp⟩

/-! ## One group -/

/-- A packet that a call of `librte_ipsec` does not accept. -/
def Refused (env : Env) (c : List PktId × SaRef) (x : PktId) : Prop :=
  ∃ w, x ∈ (env.handle w c.2 c.1).1.drop (env.handle w c.2 c.1).2

/-- Packets given to a session of `librte_ipsec`, once or twice: the calls are
    logged, packets are written, and nothing else changes; `left` have not been
    accepted. -/
structure Handed (env : Env) (ref : SaRef) (pkts left : List PktId) (w w' : World) :
    Prop where
  sa : w'.sa = w.sa
  sesDev : w'.sesDev = w.sesDev
  nextSes : w'.nextSes = w.nextSes
  queued : w'.queued = w.queued
  pair : w'.pair = w.pair
  freed : w'.freed = w.freed
  handled : ∃ calls, w'.handled = w.handled ++ calls ∧ (pkts, ref) ∈ calls
    ∧ (∀ c ∈ calls, c.2 = ref ∧ c.1 ⊆ pkts) ∧ ∀ x ∈ left, ∃ c ∈ calls, Refused env c x

/-- One call. -/
theorem rteIpsecHandle_handed (env : Env) (ref : SaRef) (pkts : List PktId)
    (f : PktId → Mbuf → Mbuf) (w : World) :
    let r := rteIpsecHandle env ref pkts (w.modifyAll pkts f)
    Handed env ref pkts (r.1.1.drop r.1.2) w r.2 := by
  obtain ⟨h, hpair, hfreed⟩ := modifyAll_aside pkts f w
  generalize w.modifyAll pkts f = w1 at h hpair hfreed
  rw [rteIpsecHandle]
  dsimp only
  obtain ⟨h', hpair', hfreed'⟩ := modifyAll_aside pkts (env.touch w1 ref)
    { w1.next with handled := w1.handled ++ [(pkts, ref)] }
  generalize World.modifyAll _ pkts (env.touch w1 ref) = w2 at h' hpair' hfreed'
  refine ⟨h'.sa.trans h.sa, h'.sesDev.trans h.sesDev, h'.nextSes.trans h.nextSes,
    h'.queued.trans h.queued, hpair'.trans hpair, hfreed'.trans hfreed,
    [(pkts, ref)], ?_, List.mem_singleton_self _, ?_, ?_⟩
  · rw [h'.handled, ← h.handled]
  · intro c hc
    obtain rfl := List.mem_singleton.mp hc
    exact ⟨rfl, fun _ hx => hx⟩
  · exact fun x hx => ⟨_, List.mem_singleton_self _, w1, hx⟩

/-- The log of processed packets is beside all this. -/
theorem Handed.logProcessed {env : Env} {ref ref' : SaRef} {pkts left ps : List PktId}
    {w w' : World} (h : Handed env ref pkts left w w') :
    Handed env ref pkts left w (w'.logProcessed ref' ps) :=
  ⟨h.sa, h.sesDev, h.nextSes, h.queued, h.pair, h.freed, h.handled⟩

/-- A second call on a part of the packets. -/
theorem Handed.again {env : Env} {ref : SaRef} {pkts left : List PktId} {w w' : World}
    (h : Handed env ref pkts left w w') {part : List PktId} (hpart : part ⊆ pkts) :
    let r := rteIpsecPktProcess env ref part w'
    Handed env ref pkts (r.1.1.drop r.1.2 ++ left) w r.2 := by
  obtain ⟨h', hpair, hfreed⟩ := modifyAll_aside part (env.touch w' ref)
    { w'.next with handled := w'.handled ++ [(part, ref)] }
  rw [rteIpsecPktProcess, rteIpsecHandle]
  dsimp only
  generalize World.modifyAll _ part (env.touch w' ref) = w2 at h' hpair hfreed
  obtain ⟨calls, hcalls, hmem, hall, hleft⟩ := h.handled
  refine ⟨h'.sa.trans h.sa, h'.sesDev.trans h.sesDev, h'.nextSes.trans h.nextSes,
    h'.queued.trans h.queued, hpair.trans h.pair, hfreed.trans h.freed,
    calls ++ [(part, ref)], ?_, List.mem_append_left _ hmem, ?_, ?_⟩
  · show w2.handled = _
    rw [h'.handled, ← List.append_assoc, ← hcalls]
  · intro c hc
    rcases List.mem_append.mp hc with hc | hc
    · exact hall c hc
    · obtain rfl := List.mem_singleton.mp hc
      exact ⟨rfl, hpart⟩
  · intro x hx
    rcases List.mem_append.mp hx with hx | hx
    · exact ⟨(part, ref), List.mem_append_right _ (List.mem_singleton_self _), w', hx⟩
    · obtain ⟨c, hc, hx⟩ := hleft x hx
      exact ⟨c, List.mem_append_left _ hc, hx⟩

/-- A session of the SA has an object, or has just been filled. -/
def SessionOpen (env : Env) (ctx : IpsecCtx) (p : SaPtr) (fb : Bool)
    (w w' : World) : Prop :=
  (session (w.sa p) fb).ses ≠ none ∧ w' = w
    ∨ (session (w.sa p) fb).ses = none ∧ Created env ctx p fb w (0, w')

/-- `librte_ipsec` moves the accepted packets of a group to the front. -/
def Sorted (pkts : List PktId) (res : GroupResult) : Prop :=
  res.1.Perm pkts ∧ res.2 ≤ pkts.length

/-- What `ipsec_process` can do with a group: there is no SA, or it has no session
    and filling it fails; accepted packets are put into the queue of the SA; or they are through
    with the crypto and join the traffic. -/
inductive GroupStep (env : Env) (g : IpsecGroup) (trf : Traffic) (s : State) :
    GroupResult × Traffic × State → Prop
  | noSa (hid : g.id = none) : GroupStep env g trf s ((g.pkts, 0), trf, s)
  | noSession {p : SaPtr} {fb : Bool} {rc : Int} {w : World}
      (hid : g.id = some (p, fb)) (hses : (session (s.2.sa p) fb).ses = none)
      (hcreated : Created env s.1 p fb s.2 (rc, w))
      (hfill : (fillIpsecSession env s.1 p fb s.2).1 ≠ 0) :
      GroupStep env g trf s ((g.pkts, 0), trf, s.1, w)
  | queue {p : SaPtr} {fb : Bool} {w w' : World} {res : GroupResult}
      {r : CdevQueue × World} (hid : g.id = some (p, fb))
      (hopen : SessionOpen env s.1 p fb s.2 w)
      (htype : IsLookaside (session (w.sa p) fb).type)
      (hhanded : Handed env (p, fb) g.pkts (res.1.drop res.2) w w')
      (hres : Sorted g.pkts res)
      (hcall : QueueCall (s.1.tbl (w.sa p).cdevIdQp.toNat)
        (w'.useQueue s.1 (res.1.take res.2) p fb) (res.1.take res.2) r) :
      GroupStep env g trf s
        (res, trf, s.1.setQueue (w.sa p).cdevIdQp.toNat r.1, r.2)
  | through {p : SaPtr} {fb : Bool} {w w' : World} {res : GroupResult}
      {trf' : Traffic} (hid : g.id = some (p, fb))
      (hopen : SessionOpen env s.1 p fb s.2 w)
      (hhanded : Handed env (p, fb) g.pkts (res.1.drop res.2) w w')
      (hres : Sorted g.pkts res)
      (htrf : trf' = copyToTrf trf (env.saType p fb) (res.1.take res.2)
        ∨ trf' = trf ∧ res.2 = 0) :
      GroupStep env g trf s (res, trf', s.1, w')

/-- The answer of `librte_ipsec` to one call. -/
theorem rteIpsecHandle_sorted (env : Env) (ref : SaRef) (pkts : List PktId)
    (w : World) : Sorted pkts (rteIpsecHandle env ref pkts w).1 :=
  ⟨env.handle_perm w ref pkts, env.handle_le w ref pkts⟩

/-- **LOOKASIDE**: the accepted packets go to the queue of the SA. -/
theorem ipsecPrepareCryptoGroup_step {env : Env} {g : IpsecGroup}
    (trf : Traffic) {s : State} {p : SaPtr} {fb : Bool} {w : World}
    {E : Fault → Prop} (hshort : ∀ i, (s.1.tbl i).buf.length < maxPktBurst)
    (hid : g.id = some (p, fb)) (hopen : SessionOpen env s.1 p fb s.2 w)
    (htype : IsLookaside (session (w.sa p) fb).type) :
    Ends (ipsecPrepareCryptoGroup env p fb g.pkts (s.1, w)) E
      (fun r => GroupStep env g trf s (r.1, trf, r.2)) := by
  have hhanded := rteIpsecHandle_handed env (p, fb) g.pkts
    (fun _ => setPrivSa p) w
  have hsorted := rteIpsecHandle_sorted env (p, fb) g.pkts
    (w.modifyAll g.pkts fun _ => setPrivSa p)
  rw [ipsecPrepareCryptoGroup]
  dsimp only
  generalize rteIpsecHandle env (p, fb) g.pkts
    (w.modifyAll g.pkts fun _ => setPrivSa p) = r at hhanded hsorted
  split
  · rename_i hnone
    exact ends_pure (.through hid hopen hhanded hsorted (.inr ⟨rfl, hnone⟩))
  · refine Ends.bind (P := fun s' => ∃ q : CdevQueue × World,
      s' = (s.1.setQueue (w.sa p).cdevIdQp.toNat q.1, q.2)
        ∧ QueueCall (s.1.tbl (w.sa p).cdevIdQp.toNat)
          (r.2.useQueue s.1 (r.1.1.take r.1.2) p fb) (r.1.1.take r.1.2) q) ?_ ?_
    · refine (enqueueCopBulk_call env _ _ (hshort _)).bind ?_
      intro q hq
      exact ends_pure ⟨q, rfl, hq⟩
    · rintro s' ⟨q, rfl, hq⟩
      exact ends_pure (.queue hid hopen htype hhanded hsorted hq)

/-- **INLINE**. -/
theorem ipsecProcessInlineGroup_step {env : Env} {g : IpsecGroup}
    {trf : Traffic} {s : State} {p : SaPtr} {fb : Bool} {w : World}
    (hid : g.id = some (p, fb)) (hopen : SessionOpen env s.1 p fb s.2 w) :
    let r := ipsecProcessInlineGroup env p fb g.pkts trf w
    GroupStep env g trf s (r.1, r.2.1, s.1, r.2.2) :=
  .through hid hopen
    (rteIpsecHandle_handed env (p, fb) g.pkts
      (fun _ => prepProcess p (w.sa p)) w).logProcessed
    (rteIpsecHandle_sorted env (p, fb) g.pkts _) (.inl rfl)

/-- **SYNCHRONOUS**: the two calls drop a suffix each. -/
theorem ipsecProcessCpuGroup_step {env : Env} {g : IpsecGroup}
    {trf : Traffic} {s : State} {p : SaPtr} {fb : Bool} {w : World}
    (hid : g.id = some (p, fb)) (hopen : SessionOpen env s.1 p fb s.2 w) :
    let r := ipsecProcessCpuGroup env p fb g.pkts trf w
    GroupStep env g trf s (r.1, r.2.1, s.1, r.2.2) := by
  intro r
  have hhanded := rteIpsecHandle_handed env (p, fb) g.pkts
    (fun _ => prepProcess p (w.sa p)) w
  have hsorted := rteIpsecHandle_sorted env (p, fb) g.pkts
    (w.modifyAll g.pkts fun _ => prepProcess p (w.sa p))
  generalize hr1 : rteIpsecHandle env (p, fb) g.pkts
    (w.modifyAll g.pkts fun _ => prepProcess p (w.sa p)) = r1 at hhanded hsorted
  obtain ⟨hperm, hle⟩ := hsorted
  have hpart : r1.1.1.take r1.1.2 ⊆ g.pkts := by
    intro x hx
    exact hperm.mem_iff.mp (List.mem_of_mem_take hx)
  have hagain := hhanded.again hpart
  have hsorted' : Sorted (r1.1.1.take r1.1.2)
      (rteIpsecPktProcess env (p, fb) (r1.1.1.take r1.1.2) r1.2).1 :=
    rteIpsecHandle_sorted env (p, fb) (r1.1.1.take r1.1.2) r1.2
  obtain ⟨hperm', hle'⟩ := hsorted'
  generalize hr2 : rteIpsecPktProcess env (p, fb) (r1.1.1.take r1.1.2) r1.2
    = r2 at hagain hperm' hle'
  have hr : r = ((r2.1.1 ++ r1.1.1.drop r1.1.2, r2.1.2),
      copyToTrf trf (env.saType p fb) (r2.1.1.take r2.1.2), r2.2) := by
    show ipsecProcessCpuGroup env p fb g.pkts trf w = _
    rw [ipsecProcessCpuGroup, hr1, hr2]
  have hlen : r2.1.2 ≤ r2.1.1.length := by
    rw [hperm'.length_eq]
    exact hle'
  have htake : (r2.1.1 ++ r1.1.1.drop r1.1.2).take r2.1.2
      = r2.1.1.take r2.1.2 := List.take_append_of_le_length hlen
  have hdrop : (r2.1.1 ++ r1.1.1.drop r1.1.2).drop r2.1.2
      = r2.1.1.drop r2.1.2 ++ r1.1.1.drop r1.1.2 := List.drop_append_of_le_length hlen
  rw [hr]
  refine .through hid hopen ?_ ⟨?_, ?_⟩ (.inl ?_)
  · rw [hdrop]
    exact hagain
  · refine (hperm'.append_right _).trans ?_
    rw [List.take_append_drop]
    exact hperm
  · rw [List.length_take] at hle'
    exact Nat.le_trans hle' (Nat.le_trans (Nat.min_le_left _ _) hle)
  · rw [htake]

/-- **ONE GROUP**: `ipsec_process` does nothing else, and does not fault when
    the buffers are short. -/
theorem processGroup_step (env : Env) (g : IpsecGroup) (trf : Traffic)
    {s : State} {E : Fault → Prop}
    (hshort : ∀ i, (s.1.tbl i).buf.length < maxPktBurst) :
    Ends (processGroup env g trf s) E (GroupStep env g trf s) := by
  rw [processGroup]
  cases hid : g.id with
  | none => exact ends_ok (.noSa hid)
  | some ref =>
      obtain ⟨p, fb⟩ := ref
      dsimp only
      -- the session is opened when there is none
      have hopened : ∃ rc w, (if (session (s.2.sa p) fb).ses = none then
            fillIpsecSession env s.1 p fb s.2 else (0, s.2)) = (rc, w)
          ∧ (rc = 0 → SessionOpen env s.1 p fb s.2 w)
          ∧ (rc ≠ 0 → (session (s.2.sa p) fb).ses = none
            ∧ Created env s.1 p fb s.2 (rc, w)
            ∧ (fillIpsecSession env s.1 p fb s.2).1 ≠ 0) := by
        split
        · rename_i hses
          have hcreated := fillIpsecSession_created env s.1 p fb hses
          generalize fillIpsecSession env s.1 p fb s.2 = r at hcreated
          obtain ⟨rc, w⟩ := r
          refine ⟨rc, w, rfl, ?_, fun hrc => ⟨hses, hcreated, hrc⟩⟩
          rintro rfl
          exact .inr ⟨hses, hcreated⟩
        · rename_i hses
          exact ⟨0, s.2, rfl, fun _ => .inl ⟨hses, rfl⟩, fun h => absurd rfl h⟩
      obtain ⟨rc, w, heq, hopen, hfail⟩ := hopened
      rw [heq]
      dsimp only
      split
      · rename_i hrc
        obtain ⟨hses, hcreated, hfill⟩ := hfail hrc
        exact ends_ok (.noSession hid hses hcreated hfill)
      · rename_i hrc
        have hopen := hopen (not_not.mp hrc)
        -- the two lookaside types are handled alike
        have hqueue := fun htype : IsLookaside (session (w.sa p) fb).type =>
          (ipsecPrepareCryptoGroup_step trf (E := E) hshort hid hopen htype).bind
            (f := fun r => pure (r.1, trf, r.2)) (Q := GroupStep env g trf s)
            (fun _ hr => ends_pure hr)
        cases htype : (session (w.sa p) fb).type with
        | none =>
            refine hqueue ⟨?_, ?_⟩
            · rw [htype]
              decide
            · rw [htype]
              decide
        | lookasideProtocol =>
            refine hqueue ⟨?_, ?_⟩
            · rw [htype]
              decide
            · rw [htype]
              decide
        | inlineCrypto => exact ends_ok (ipsecProcessInlineGroup_step hid hopen)
        | inlineProtocol => exact ends_ok (ipsecProcessInlineGroup_step hid hopen)
        | cpuCrypto => exact ends_ok (ipsecProcessCpuGroup_step hid hopen)

end Ipsec
