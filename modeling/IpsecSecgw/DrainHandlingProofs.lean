import IpsecSecgw.GroupHandlingProofs

/-! # What comes out of the crypto queues

    A drain takes operations out of the queues of the context, and gives back or
    frees the packets of each (`Drained`).  One comes back only when a session of
    the SA in its private data has processed it.  The devices are asked to keep
    what `R` says of the packets in their queues. -/

namespace Handling

open SaModel MbufModel CdevModel Esp IpsecModel Outcome Ipsec SecgwModel Slots
open PacketOrder (saOf Posted)

variable {env : Env} {lib : CryptoGroup} {dir : Direction}

/-- **A DRAIN** that has `ops` in hand, and gives back `out`. -/
structure Drained (R : World → PktId → Prop) (s : State) (ops out : List PktId)
    (s' : State) : Prop where
  sa : s'.2.sa = s.2.sa
  tag : ∀ x, saOf s'.2 x = saOf s.2 x
  keeps : ∀ x, R s.2 x → R s'.2 x
  waits : ∀ x, Waits s' x → Waits s x
  bufs : ∀ i, (s'.1.tbl i).buf.length ≤ (s.1.tbl i).buf.length
  freed : ∃ l, s'.2.freed = s.2.freed ++ l ∧ (out ++ l).Perm ops
  through : ∃ l, s'.2.processed = s.2.processed ++ l
    ∧ ∀ x ∈ out, ∃ q fb type, saOf s'.2 x = some q ∧ (x, (q, fb), type) ∈ l
      ∧ IsLookaside type

variable {R : World → PktId → Prop}

/-- Nothing is given back, and nothing processed. -/
theorem Drained.quiet {s s' : State} {l : List PktId} (hsa : s'.2.sa = s.2.sa)
    (htag : ∀ x, saOf s'.2 x = saOf s.2 x) (hkeeps : ∀ x, R s.2 x → R s'.2 x)
    (hwaits : ∀ x, Waits s' x → Waits s x)
    (hbufs : ∀ i, (s'.1.tbl i).buf.length ≤ (s.1.tbl i).buf.length)
    (hfreed : s'.2.freed = s.2.freed ++ l)
    (hlog : s'.2.processed = s.2.processed) : Drained R s l [] s' :=
  ⟨hsa, htag, hkeeps, hwaits, hbufs, ⟨l, hfreed, List.Perm.refl l⟩, [],
    hlog.trans (List.append_nil _).symm, fun _ hx => absurd hx List.not_mem_nil⟩

theorem Drained.refl (s : State) : Drained R s [] [] s :=
  .quiet rfl (fun _ => rfl) (fun _ h => h) (fun _ h => h) (fun _ => Nat.le_refl _)
    (List.append_nil _).symm rfl

/-- One drain after the other. -/
theorem Drained.trans {s s' s'' : State} {ops out ops' out' : List PktId}
    (h : Drained R s ops out s') (h' : Drained R s' ops' out' s'') :
    Drained R s (ops ++ ops') (out ++ out') s'' := by
  obtain ⟨l, hl, hall⟩ := h.through
  obtain ⟨l', hl', hall'⟩ := h'.through
  obtain ⟨f, hf, hperm⟩ := h.freed
  obtain ⟨f', hf', hperm'⟩ := h'.freed
  refine ⟨h'.sa.trans h.sa, fun x => (h'.tag x).trans (h.tag x),
    fun x hx => h'.keeps x (h.keeps x hx), fun x hx => h.waits x (h'.waits x hx),
    fun i => Nat.le_trans (h'.bufs i) (h.bufs i),
    ⟨f ++ f', by rw [hf', hf, List.append_assoc], ?_⟩, l ++ l', ?_, ?_⟩
  · refine List.perm_iff_count.mpr fun x => ?_
    have hcount := hperm.count_eq x
    have hcount' := hperm'.count_eq x
    simp only [List.count_append] at hcount hcount' ⊢
    omega
  · rw [hl', hl, List.append_assoc]
  · intro x hx
    rcases List.mem_append.mp hx with hx | hx
    · obtain ⟨q, fb, type, hq, hin, htype⟩ := hall x hx
      exact ⟨q, fb, type, (h'.tag x).trans hq, List.mem_append_left _ hin, htype⟩
    · obtain ⟨q, fb, type, hq, hin, htype⟩ := hall' x hx
      exact ⟨q, fb, type, hq, List.mem_append_right _ hin, htype⟩

/-- What is in hand may be written in another order. -/
theorem Drained.perm {s s' : State} {ops ops' out : List PktId}
    (h : Drained R s ops out s') (hops : ops.Perm ops') : Drained R s ops' out s' := by
  obtain ⟨l, hl, hperm⟩ := h.freed
  exact ⟨h.sa, h.tag, h.keeps, h.waits, h.bufs, ⟨l, hl, hperm.trans hops⟩, h.through⟩

/-- What is given back has been in hand. -/
theorem Drained.mem_ops {s s' : State} {ops out : List PktId} (h : Drained R s ops out s')
    {x : PktId} (hx : x ∈ out) : x ∈ ops := by
  obtain ⟨l, -, hperm⟩ := h.freed
  exact hperm.mem_iff.mp (List.mem_append_left l hx)

/-! ## One queue -/

/-- Queues that have not grown. -/
theorem waits_mono {s s' : State}
    (hkey : ∀ j, (s'.1.tbl j).toCdevQp = (s.1.tbl j).toCdevQp)
    (hbuf : ∀ j, (s'.1.tbl j).buf ⊆ (s.1.tbl j).buf)
    (hheld : ∀ k, (s'.2.pair k).held ⊆ (s.2.pair k).held) (x : PktId)
    (hx : Waits s' x) : Waits s x := by
  obtain ⟨j, hx | hx⟩ := hx
  · exact ⟨j, .inl (hbuf j hx)⟩
  · rw [hkey] at hx
    exact ⟨j, .inr (hheld _ hx)⟩

/-- A queue that has not grown. -/
theorem setQueue_waits {s : State} {i : Nat} {q : CdevQueue} {w : World}
    (hkey : q.toCdevQp = (s.1.tbl i).toCdevQp) (hbuf : q.buf ⊆ (s.1.tbl i).buf)
    (hheld : ∀ k, (w.pair k).held ⊆ (s.2.pair k).held) (x : PktId)
    (hx : Waits (s.1.setQueue i q, w) x) : Waits s x := by
  refine waits_mono ?_ ?_ hheld x hx
  · intro j
    show (Function.update s.1.tbl i q j).toCdevQp = _
    by_cases hj : j = i
    · rw [hj, Function.update_self]
      exact hkey
    · rw [Function.update_of_ne hj]
  · intro j
    show (Function.update s.1.tbl i q j).buf ⊆ _
    by_cases hj : j = i
    · rw [hj, Function.update_self]
      exact hbuf
    · rw [Function.update_of_ne hj]
      exact List.Subset.refl _

/-- Its buffer is no longer, and the others are as they were. -/
theorem setQueue_bufs {ctx : IpsecCtx} {i : Nat} {q : CdevQueue}
    (hbuf : q.buf.length ≤ (ctx.tbl i).buf.length) (j : Nat) :
    ((ctx.setQueue i q).tbl j).buf.length ≤ (ctx.tbl j).buf.length := by
  show (Function.update ctx.tbl i q j).buf.length ≤ _
  by_cases hj : j = i
  · rw [hj, Function.update_self]
    exact hbuf
  · rw [Function.update_of_ne hj]

/-- Operations that a device gives back were in its queue. -/
theorem cqpDequeue_waits (env : Env) (s : State) (i num : Nat) :
    let r := cqpDequeue env (s.1.tbl i) num s.2
    (∀ x ∈ r.1, Waits s x) ∧ (∀ x, Waits (s.1.setQueue i r.2.1, r.2.2) x → Waits s x)
      ∧ r.2.2.sa = s.2.sa ∧ r.2.2.processed = s.2.processed
      ∧ r.2.2.freed = s.2.freed ∧ r.2.1.buf = (s.1.tbl i).buf := by
  intro r
  rcases CryptoQueue.cqpDequeue_cases env (s.1.tbl i) num s.2 with ⟨-, hr⟩ | ⟨left, -, hr⟩
  · rw [show r = _ from hr]
    exact ⟨fun _ hx => absurd hx List.not_mem_nil,
      setQueue_waits rfl (List.Subset.refl _) fun _ => List.Subset.refl _, rfl, rfl, rfl, rfl⟩
  · rw [show r = _ from hr, rteCryptodevDequeueBurst]
    dsimp only
    refine ⟨fun x hx => ⟨i, .inr (List.mem_of_mem_take hx)⟩,
      setQueue_waits rfl (List.Subset.refl _) ?_, (modifyAll_aside _ _ _).1.sa,
      modifyAll_processed _ _ _, (modifyAll_aside _ _ _).2.2, rfl⟩
    intro k
    rw [(modifyAll_aside _ _ _).2.1]
    show (Function.update s.2.pair _ _ k).held ⊆ _
    by_cases hk : k = (s.1.tbl i).toCdevQp
    · rw [hk, Function.update_self]
      exact List.drop_subset _ _
    · rw [Function.update_of_ne hk]
      exact List.Subset.refl _

/-- What the devices keep of a packet. -/
theorem cqpDequeue_view {V : Type} (view : Mbuf → V)
    (hview : ∀ n p m, view (env.complete n p m) = view m) (q : CdevQueue) (num : Nat)
    (w : World) (x : PktId) :
    view ((cqpDequeue env q num w).2.2.mbuf x) = view (w.mbuf x) := by
  rw [cqpDequeue]
  split
  · rfl
  · exact modifyAll_view view _ _ (fun p m => hview _ p m) x

/-! ## The legacy path -/

/-- An operation that comes back joins the packets only behind a check. -/
theorem finishOp_drained (ctx : IpsecCtx) (t : List PktId × World) {pkt : PktId}
    (hpkt : Awaited t.2 pkt) :
    Ends (finishOp (dequeueXform dir) t pkt) (fun _ => True) (fun t' =>
      ∃ out, t'.1 = t.1 ++ out ∧ Drained Awaited (ctx, t.2) [pkt] out (ctx, t'.2)) := by
  obtain ⟨p, hp, htype⟩ := hpkt
  have hlookaside : IsLookaside (t.2.sa p).primary.type := htype.isLookaside
  have hpriv : t.2.privSa pkt = .ok p := by
    rw [World.privSa]
    rw [saOf] at hp
    rw [hp]
  -- what is done to the world besides the logs
  have hdone : ∀ w l, Posted t.2 pkt w → w.processed = t.2.processed →
      w.freed = t.2.freed ++ l → Drained Awaited (ctx, t.2) l [] (ctx, w) := by
    intro w l hw hlog hfreed
    refine .quiet hw.sa hw.tag ?_ ?_ (fun _ => Nat.le_refl _) hfreed hlog
    · rintro x ⟨q, hq, hchecked⟩
      exact ⟨q, (hw.tag x).trans hq, hw.sa.symm ▸ hchecked⟩
    · rintro x ⟨i, hx | hx⟩
      · exact ⟨i, .inl hx⟩
      · refine ⟨i, .inr ?_⟩
        rw [← hw.pair]
        exact hx
  have hback : ∀ w, Posted t.2 pkt w → w.processed = t.2.processed →
      w.freed = t.2.freed →
      Drained Awaited (ctx, t.2) [pkt] [pkt] (ctx, w.logProcessed (p, false) [pkt]) := by
    intro w hw hlog hfreed
    have hnone := hfreed.trans (List.append_nil _).symm
    obtain ⟨hsa, htag, hkeeps, hwaits, hbufs, -, -⟩ := hdone w [] hw hlog hnone
    refine ⟨hsa, htag, hkeeps, hwaits, hbufs, ⟨[], hnone, List.Perm.refl _⟩,
      [(pkt, (p, false), (w.sa p).primary.type)], ?_, ?_⟩
    · exact congrArg (· ++ [(pkt, (p, false), (w.sa p).primary.type)]) hlog
    · intro x hx
      obtain rfl := List.mem_singleton.mp hx
      refine ⟨p, false, _, (hw.tag x).trans hp, List.mem_singleton_self _, ?_⟩
      rw [hw.sa]
      exact hlookaside
  have hsame : Posted t.2 pkt t.2 := ⟨fun _ => rfl, rfl, rfl, fun _ _ => rfl⟩
  rw [finishOp, hpriv]
  refine ends_ok (P := fun a => a = p) rfl |>.bind ?_
  rintro _ rfl
  rcases htype with htype | htype
  · rw [htype]
    refine (PacketOrder.xform_posted t.2 pkt _).bind ?_
    rintro ⟨ret, w⟩ ⟨hw, -, hfreed, hlog⟩
    dsimp only at hfreed hlog ⊢
    split
    · exact ends_pure ⟨[], (List.append_nil _).symm,
        hdone _ [pkt] (hw.freePkts [pkt]) hlog (congrArg (· ++ [pkt]) hfreed)⟩
    · exact ends_pure ⟨[pkt], rfl, hback w hw hlog hfreed⟩
  · rw [htype]
    dsimp only
    split
    · exact ends_pure ⟨[], (List.append_nil _).symm,
        hdone _ [pkt] (hsame.freePkts [pkt]) rfl rfl⟩
    · exact ends_pure ⟨[pkt], rfl, hback t.2 hsame rfl rfl⟩

/-- **THE OPERATIONS** of one dequeue. -/
theorem finishOps_drained (ctx : IpsecCtx) (pkts ops : List PktId) {w : World}
    (hops : ∀ x ∈ ops, Awaited w x) :
    Ends (ops.foldlM (finishOp (dequeueXform dir)) (pkts, w)) (fun _ => True)
      (fun t => ∃ out, t.1 = pkts ++ out
        ∧ Drained Awaited (ctx, w) ops out (ctx, t.2)) := by
  refine (ends_foldlM (P := fun todo t => (∀ x ∈ todo, Awaited t.2 x)
    ∧ ∃ done out, done ++ todo = ops ∧ t.1 = pkts ++ out
      ∧ Drained Awaited (ctx, w) done out (ctx, t.2))
    ⟨hops, [], [], rfl, (List.append_nil _).symm, Drained.refl _⟩ ?_).mono
    (fun _ h => h) ?_
  · rintro x todo t ⟨htodo, done, out, hdone, hout, h⟩
    refine (finishOp_drained ctx t (htodo x List.mem_cons_self)).mono
      (fun _ h => h) ?_
    rintro t' ⟨out', hout', h'⟩
    refine ⟨fun y hy => h'.keeps y (htodo y (List.mem_cons_of_mem x hy)), done ++ [x],
      out ++ out', ?_, ?_, h.trans h'⟩
    · rw [List.append_assoc]
      exact hdone
    · rw [hout', hout, List.append_assoc]
  · rintro t ⟨-, done, out, hdone, hout, h⟩
    rw [List.append_nil] at hdone
    subst hdone
    exact ⟨out, hout, h⟩

/-- Devices keep what is known of packets in queues of the legacy path. -/
theorem cqpDequeue_awaited (hkeep : PacketOrder.KeepsSa env) (s : State) (i num : Nat)
    (x : PktId) (hx : Awaited s.2 x) :
    Awaited (cqpDequeue env (s.1.tbl i) num s.2).2.2 x := by
  obtain ⟨q, hq, htype⟩ := hx
  refine ⟨q, (cqpDequeue_view (fun m => m.priv.sa) hkeep _ num s.2 x).trans hq, ?_⟩
  rw [(cqpDequeue_waits env s i num).2.2.1]
  exact htype

/-- The operations `cqp_dequeue` hands out in the rounds of `ipsec_dequeue`. -/
def handedOut (env : Env) (f : XformFn) (maxPkts : Nat) :
    Nat → List PktId → State → List PktId
  | 0, _, _ => []
  | n + 1, pkts, s =>
      if maxPkts ≤ pkts.length then []
      else
        let i := s.1.lastQp
        let next := if i + 1 = s.1.nbQps then 0 else i + 1
        let r := cqpDequeue env (s.1.tbl i) (maxPkts - pkts.length) s.2
        match r.1.foldlM (finishOp f) (pkts, r.2.2) with
        | .error _ => r.1
        | .ok (pkts, w) =>
            r.1 ++ handedOut env f maxPkts n pkts
              ({ s.1.setQueue i r.2.1 with lastQp := next }, w)

/-- **ALL QUEUES**: `ipsec_dequeue`. -/
theorem ipsecDequeue_drained (hkeep : PacketOrder.KeepsSa env) (maxPkts n : Nat)
    (pkts : List PktId) {s : State} (hwait : ∀ x, Waits s x → Awaited s.2 x) :
    Ends (ipsecDequeue env (dequeueXform dir) maxPkts n pkts s) (fun _ => True)
      (fun r => ∃ out, r.1 = pkts ++ out
        ∧ Drained Awaited s (handedOut env (dequeueXform dir) maxPkts n pkts s) out r.2
        ∧ ∀ x ∈ handedOut env (dequeueXform dir) maxPkts n pkts s, Waits s x) := by
  induction n generalizing pkts s with
  | zero =>
      exact ends_ok ⟨[], (List.append_nil _).symm, Drained.refl s,
        fun _ hx => absurd hx List.not_mem_nil⟩
  | succ n ih =>
      rw [ipsecDequeue, handedOut]
      split
      · exact ends_ok ⟨[], (List.append_nil _).symm, Drained.refl s,
          fun _ hx => absurd hx List.not_mem_nil⟩
      obtain ⟨hops, hwaits, hsa, hlog, hfreed, hbuf⟩ :=
        cqpDequeue_waits env s s.1.lastQp (maxPkts - pkts.length)
      have hawait := cqpDequeue_awaited hkeep s s.1.lastQp (maxPkts - pkts.length)
      have htag := cqpDequeue_view (fun m => m.priv.sa) hkeep (s.1.tbl s.1.lastQp)
        (maxPkts - pkts.length) s.2
      dsimp only
      generalize cqpDequeue env (s.1.tbl s.1.lastQp) (maxPkts - pkts.length) s.2 = r
        at hops hwaits hsa hlog hfreed hbuf hawait htag
      -- the place of the next dequeue is beside the queues
      have hstart : Drained Awaited s [] []
          ({ s.1.setQueue s.1.lastQp r.2.1 with
            lastQp := if s.1.lastQp + 1 = s.1.nbQps then 0 else s.1.lastQp + 1 }, r.2.2) :=
        .quiet hsa htag hawait hwaits (setQueue_bufs (Nat.le_of_eq (congrArg _ hbuf)))
          (hfreed.trans (List.append_nil _).symm) hlog
      have hfinish : Ends (r.1.foldlM (finishOp (dequeueXform dir)) (pkts, r.2.2)) _ _ :=
        finishOps_drained { s.1.setQueue s.1.lastQp r.2.1 with
            lastQp := if s.1.lastQp + 1 = s.1.nbQps then 0 else s.1.lastQp + 1 } pkts r.1
          fun x hx => hawait x (hwait x (hops x hx))
      cases hfold : r.1.foldlM (finishOp (dequeueXform dir)) (pkts, r.2.2) with
      | error e => exact ends_error trivial
      | ok t =>
          obtain ⟨pkts', w⟩ := t
          rw [hfold] at hfinish
          obtain ⟨out, hout, hdone⟩ := hfinish
          have hround := hstart.trans hdone
          refine (ih pkts' ?_).mono (fun _ h => h) ?_
          · exact fun x hx => hround.keeps x (hwait x (hround.waits x hx))
          · rintro r' ⟨out', hout', hrest, hfrom⟩
            refine ⟨out ++ out', ?_, hround.trans hrest, ?_⟩
            · have hout : pkts' = pkts ++ out := hout
              rw [hout', hout, List.append_assoc]
            · intro x hx
              rcases List.mem_append.mp hx with hx | hx
              · exact hops x hx
              · exact hround.waits x (hfrom x hx)

/-- **FLUSHING**: `drain_crypto_buffers` frees what a device refuses. -/
theorem drainCryptoBuffers_drained (hR : Stable R) (env : Env) (s : State) :
    ∃ l, Drained R s l [] (drainCryptoBuffers env s) := by
  rw [drainCryptoBuffers]
  refine forLoop_inv (fun _ t => ∃ l, Drained R s l [] t) ⟨[], Drained.refl s⟩ ?_
  rintro i t _ ⟨l, ht⟩
  rw [drainQueue]
  split
  · have hframe := enqueueCopBurst_frame env (t.1.tbl i) t.2
    have hbuf : (enqueueCopBurst env (t.1.tbl i) t.2).1.buf = [] := rfl
    generalize enqueueCopBurst env (t.1.tbl i) t.2 = r at hframe hbuf
    obtain ⟨l', hl', -⟩ := hframe.freed
    have hone : Drained R t l' [] (t.1.setQueue i r.1, r.2) := by
      refine .quiet hframe.sa ?_ ?_ ?_ (setQueue_bufs ?_) hl' hframe.processed
      · intro x
        rw [saOf, saOf]
        exact congrArg (fun m => (m x).priv.sa) hframe.mbuf
      · intro x hx
        refine hR t.2 r.2 x (congrFun hframe.mbuf x) ?_ hx
        rw [hframe.sa]
        exact SasKept.refl _
      · intro x hx
        rcases QueueFrame.waits hframe hx with hx | hx
        · exact hx
        · cases hx
      · rw [hbuf]
        exact Nat.zero_le _
    exact ⟨l ++ l', ht.trans hone⟩
  · exact ⟨l, ht⟩

/-! ## The librte_ipsec path -/

/-- Devices keep what is known of packets in queues. -/
theorem cqpDequeue_grouped (hlaws : Lawful env lib) (s : State) (i num : Nat)
    (x : PktId) (hx : Grouped lib s.2 x) :
    Grouped lib (cqpDequeue env (s.1.tbl i) num s.2).2.2 x := by
  obtain ⟨q, fb, hq, hop, htype⟩ := hx
  refine ⟨q, fb, ?_, ?_, ?_⟩
  · exact (cqpDequeue_view (fun m => m.priv.sa) hlaws.completeSa _ num s.2 x).trans hq
  · exact (cqpDequeue_view lib.opSession hlaws.carried _ num s.2 x).trans hop
  · rw [(cqpDequeue_waits env s i num).2.2.1]
    exact htype

/-- Queues are asked one after the other. -/
theorem ctxDequeueLoop_drained (hlaws : Lawful env lib) (num n i : Nat)
    (cops : List PktId) (s : State) :
    let r := ctxDequeueLoop env num n i cops s
    Drained (Grouped lib) s [] [] r.2.2 ∧ ∀ x ∈ r.2.1, x ∈ cops ∨ Waits s x := by
  induction n generalizing i cops s with
  | zero => exact ⟨Drained.refl s, fun _ hx => .inl hx⟩
  | succ n ih =>
      intro r
      by_cases hfull : cops.length = num
      · have hr : r = (i, cops, s) := if_pos hfull
        rw [hr]
        exact ⟨Drained.refl s, fun _ hx => .inl hx⟩
      · have hr : r = ctxDequeueLoop env num n (i + 1)
            (cops ++ (cqpDequeue env (s.1.tbl i) (num - cops.length) s.2).1)
            (s.1.setQueue i (cqpDequeue env (s.1.tbl i) (num - cops.length) s.2).2.1,
              (cqpDequeue env (s.1.tbl i) (num - cops.length) s.2).2.2) := if_neg hfull
        obtain ⟨hops, hwaits, hsa, hlog, hfreed, hbuf⟩ :=
          cqpDequeue_waits env s i (num - cops.length)
        have hkeeps := cqpDequeue_grouped hlaws s i (num - cops.length)
        have htag := cqpDequeue_view (fun m => m.priv.sa) hlaws.completeSa (s.1.tbl i)
          (num - cops.length) s.2
        rw [hr]
        generalize cqpDequeue env (s.1.tbl i) (num - cops.length) s.2 = d
          at hops hwaits hsa hlog hfreed hbuf hkeeps htag
        have hone : Drained (Grouped lib) s [] [] (s.1.setQueue i d.2.1, d.2.2) :=
          .quiet hsa htag hkeeps hwaits (setQueue_bufs (Nat.le_of_eq (congrArg _ hbuf)))
            (hfreed.trans (List.append_nil _).symm) hlog
        obtain ⟨hrest, hmem⟩ := ih (i + 1) (cops ++ d.1) (s.1.setQueue i d.2.1, d.2.2)
        refine ⟨hone.trans hrest, ?_⟩
        intro x hx
        rcases hmem x hx with hx | hx
        · exact (List.mem_append.mp hx).imp_right (hops x)
        · exact .inr (hwaits x hx)

/-- `ctx_dequeue`. -/
theorem ctxDequeue_drained (hlaws : Lawful env lib) (num : Nat) (s : State) :
    Drained (Grouped lib) s [] [] (ctxDequeue env num s).2
      ∧ ∀ x ∈ (ctxDequeue env num s).1, Waits s x := by
  rw [ctxDequeue]
  obtain ⟨hfirst, hmem⟩ :=
    ctxDequeueLoop_drained hlaws num (s.1.nbQps - s.1.lastQp) s.1.lastQp [] s
  generalize ctxDequeueLoop env num (s.1.nbQps - s.1.lastQp) s.1.lastQp [] s = r
    at hfirst hmem
  obtain ⟨hsecond, hmem'⟩ := ctxDequeueLoop_drained hlaws num s.1.lastQp 0 r.2.1 r.2.2
  dsimp only
  generalize ctxDequeueLoop env num s.1.lastQp 0 r.2.1 r.2.2 = r' at hsecond hmem'
  have hboth := hfirst.trans hsecond
  refine ⟨⟨hboth.sa, hboth.tag, hboth.keeps, hboth.waits, hboth.bufs, hboth.freed,
    hboth.through⟩, ?_⟩
  intro x hx
  rcases hmem' x hx with hx | hx
  · exact (hmem x hx).resolve_left List.not_mem_nil
  · exact hfirst.waits x hx

/-- What is known of a group of completed operations. -/
def OfGroup (lib : CryptoGroup) (w : World) (g : SaRef × List PktId) : Prop :=
  ∀ x ∈ g.2, Grouped lib w x ∧ lib.opSession (w.mbuf x) = g.1

/-- **ONE GROUP** of completed operations: those the session accepts join the
    traffic. -/
theorem cqpGroup_drained (hlaws : Lawful env lib) (ctx : IpsecCtx) (t : Traffic × World)
    {g : SaRef × List PktId} (hg : OfGroup lib t.2 g) :
    (∃ out, Grown t.1 out (cqpGroup env t g).1
        ∧ Drained (Grouped lib) (ctx, t.2) g.2 out (ctx, (cqpGroup env t g).2))
      ∧ ∀ x, lib.opSession ((cqpGroup env t g).2.mbuf x) = lib.opSession (t.2.mbuf x) := by
  obtain ⟨trf, w⟩ := t
  -- the library leaves its own SAs with their sessions
  have hop : ∀ x, lib.opSession ((rteIpsecHandle env g.1 g.2 w).2.mbuf x)
      = lib.opSession (w.mbuf x) := by
    intro x
    by_cases hx : x ∈ g.2
    · obtain ⟨⟨q, fb, -, hop, htype⟩, hses⟩ := hg x hx
      rw [hses]
      refine modifyAll_all (P := fun m => lib.opSession m = g.1) _ ?_ hx
      intro y m
      refine hlaws.attached w g.1 y m ?_
      rw [← hses, hop]
      exact htype
    · exact congrArg lib.opSession (modifyAll_other hx)
  have htag : ∀ x, saOf (rteIpsecHandle env g.1 g.2 w).2 x = saOf w x :=
    modifyAll_view (fun m => m.priv.sa) g.2 _ fun y m => hlaws.touchSa w g.1 y m
  have hsa : (rteIpsecHandle env g.1 g.2 w).2.sa = w.sa := (modifyAll_aside _ _ _).1.sa
  have hpair : (rteIpsecHandle env g.1 g.2 w).2.pair = w.pair :=
    (modifyAll_aside _ _ _).2.1
  have hfreed : (rteIpsecHandle env g.1 g.2 w).2.freed = w.freed :=
    (modifyAll_aside _ _ _).2.2
  have hlog := handle_processed env g.1 g.2 w
  have hperm : (rteIpsecHandle env g.1 g.2 w).1.1.Perm g.2 := env.handle_perm w g.1 g.2
  rw [cqpGroup, rteIpsecPktProcess]
  dsimp only at hg ⊢
  generalize rteIpsecHandle env g.1 g.2 w = r at hop htag hsa hpair hfreed hlog hperm
  have hsplit : (r.1.1.take r.1.2 ++ r.1.1.drop r.1.2).Perm g.2 := by
    rw [List.take_append_drop]
    exact hperm
  refine ⟨⟨r.1.1.take r.1.2, copyToTrf_grown _ _ _, hsa, htag, ?_, ?_, fun _ => Nat.le_refl _,
    ⟨_, congrArg (· ++ r.1.1.drop r.1.2) hfreed, hsplit⟩,
    (r.1.1.take r.1.2).map (·, g.1, (session (r.2.sa g.1.1) g.1.2).type), ?_, ?_⟩, hop⟩
  · rintro x ⟨q, fb, hq, hses, htype⟩
    exact ⟨q, fb, (htag x).trans hq, (hop x).trans hses, hsa.symm ▸ htype⟩
  · rintro x ⟨i, hx | hx⟩
    · exact ⟨i, .inl hx⟩
    · refine ⟨i, .inr ?_⟩
      rw [← hpair]
      exact hx
  · exact congrArg (· ++ _) hlog
  · intro x hx
    -- what comes out is of the group, with its SA
    obtain ⟨⟨q, fb, hq, hses', htype⟩, hses⟩ := hg x (hperm.mem_iff.mp (List.mem_of_mem_take hx))
    have href : g.1 = (q, fb) := hses.symm.trans hses'
    refine ⟨q, fb, (session (r.2.sa g.1.1) g.1.2).type, (htag x).trans hq, ?_, ?_⟩
    · rw [← href]
      exact List.mem_map_of_mem hx
    · rw [href, hsa]
      exact htype.isLookaside

/-- **A DRAIN** of the `librte_ipsec` path. -/
theorem ipsecCqpProcess_drained (hlaws : Lawful env lib) {s : State}
    (hwait : ∀ x, Waits s x → Grouped lib s.2 x) :
    ∃ out, Grown {} out (ipsecCqpProcess env lib s).1
      ∧ Drained (Grouped lib) s (ctxDequeue env trafficDim s).1 out
        (ipsecCqpProcess env lib s).2 := by
  obtain ⟨hdeq, hmem⟩ := ctxDequeue_drained hlaws trafficDim s
  rw [ipsecCqpProcess]
  generalize ctxDequeue env trafficDim s = d at hdeq hmem
  obtain ⟨ops, s1⟩ := d
  dsimp only at hdeq hmem ⊢
  split
  · rename_i hnone
    rw [hnone]
    exact ⟨[], Grown.refl _, hdeq⟩
  · have hgroups : ∀ g ∈ lib.group s1.2 ops, OfGroup lib s1.2 g := by
      intro g hg x hx
      have hin : x ∈ ops := by
        rw [← (lib.group_perm s1.2 ops).mem_iff]
        exact List.mem_flatMap.mpr ⟨g, hg, hx⟩
      exact ⟨hdeq.keeps x (hwait x (hmem x hin)), lib.group_session s1.2 ops g hg x hx⟩
    have hloop : ∀ (gs : List (SaRef × List PktId)) (t : Traffic × World),
        (∀ g ∈ gs, OfGroup lib t.2 g) → ∃ out, Grown t.1 out (gs.foldl (cqpGroup env) t).1
          ∧ Drained (Grouped lib) (s1.1, t.2) (gs.flatMap Prod.snd) out
            (s1.1, (gs.foldl (cqpGroup env) t).2) := by
      intro gs
      induction gs with
      | nil => exact fun t _ => ⟨[], Grown.refl _, Drained.refl _⟩
      | cons g gs ih =>
          intro t ht
          obtain ⟨⟨out, hgrown, hone⟩, hop⟩ :=
            cqpGroup_drained hlaws s1.1 t (ht g List.mem_cons_self)
          have hnext : ∀ g' ∈ gs, OfGroup lib (cqpGroup env t g).2 g' := by
            intro g' hg' x hx
            obtain ⟨hgrp, hses⟩ := ht g' (List.mem_cons_of_mem g hg') x hx
            exact ⟨hone.keeps x hgrp, (hop x).trans hses⟩
          obtain ⟨out', hgrown', hrest⟩ := ih (cqpGroup env t g) hnext
          exact ⟨out ++ out', hgrown.trans hgrown', hone.trans hrest⟩
    obtain ⟨out, hgrown, hdone⟩ := hloop (lib.group s1.2 ops) ({}, s1.2) hgroups
    exact ⟨out, hgrown, hdeq.trans (hdone.perm (lib.group_perm s1.2 ops))⟩

end Handling
