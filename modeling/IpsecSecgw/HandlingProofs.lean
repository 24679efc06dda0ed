import IpsecSecgw.IpsecProofs
import IpsecSecgw.PacketOrderProofs
import IpsecSecgw.SecgwModel

/-! # What a crypto call does to packets

    The calls of a context work on the packets they are given, and leave the
    others alone.  A packet comes back from a call with the SA it was given
    with in its private data, and only when a session of that SA has processed
    it; else it waits in a queue of the context, or has been freed (`Handled`).
    So what the policy checks of a direction look at is what the crypto has
    left there. -/

namespace Handling

open SaModel MbufModel CdevModel Esp IpsecModel Outcome Slots Ipsec
open PacketOrder (saOf)

variable {env : Env} {dir : Direction} {V : Type} {view : Mbuf → V}

/-! ## Worlds -/

/-- A session keeps its type, or has been zeroed. -/
def TypeKept (t t' : ActionType) : Prop := t' = t ∨ t' = .none

theorem TypeKept.trans {t t' t'' : ActionType} (h : TypeKept t t')
    (h' : TypeKept t' t'') : TypeKept t t'' := by
  rcases h' with rfl | h'
  · exact h
  · exact .inr h'

/-- The types of sessions whose operations go through a queue. -/
def Checked (t : ActionType) : Prop := t = .none ∨ t = .lookasideProtocol

theorem Checked.isLookaside {t : ActionType} (h : Checked t) : IsLookaside t := by
  rcases h with rfl | rfl
  · exact ⟨by decide, by decide⟩
  · exact ⟨by decide, by decide⟩

theorem TypeKept.checked {t t' : ActionType} (h : TypeKept t t')
    (ht : Checked t) : Checked t' := by
  rcases h with rfl | rfl
  · exact ht
  · exact .inl rfl

/-- Sessions and SPIs of all SAs are kept. -/
structure SasKept (sa sa' : SaPtr → IpsecSa) : Prop where
  spi : ∀ q, (sa' q).spi = (sa q).spi
  type : ∀ q fb, TypeKept (session (sa q) fb).type (session (sa' q) fb).type

theorem SasKept.refl (sa : SaPtr → IpsecSa) : SasKept sa sa :=
  ⟨fun _ => rfl, fun _ _ => .inl rfl⟩

theorem SasKept.trans {sa sa' sa'' : SaPtr → IpsecSa} (h : SasKept sa sa')
    (h' : SasKept sa' sa'') : SasKept sa sa'' :=
  ⟨fun q => (h'.spi q).trans (h.spi q), fun q fb => (h.type q fb).trans (h'.type q fb)⟩

/-- One SA is written. -/
theorem SasKept.update {sa : SaPtr → IpsecSa} {p : SaPtr} {x : IpsecSa}
    (hspi : x.spi = (sa p).spi)
    (htype : ∀ fb, TypeKept (session (sa p) fb).type (session x fb).type) :
    SasKept sa (Function.update sa p x) := by
  constructor
  · intro q
    by_cases hq : q = p
    · rw [hq, Function.update_self]
      exact hspi
    · rw [Function.update_of_ne hq]
  · intro q fb
    by_cases hq : q = p
    · rw [hq, Function.update_self]
      exact htype fb
    · rw [Function.update_of_ne hq]
      exact .inl rfl

/-- Work on one packet: what `view` shows of it, the other packets, the queues
    and the logs are as before. -/
structure Touches (view : Mbuf → V) (pkt : PktId) (w w' : World) : Prop where
  others : ∀ x, x ≠ pkt → w'.mbuf x = w.mbuf x
  view : view (w'.mbuf pkt) = view (w.mbuf pkt)
  sas : SasKept w.sa w'.sa
  pair : w'.pair = w.pair
  freed : w'.freed = w.freed
  processed : w'.processed = w.processed

theorem Touches.refl (pkt : PktId) (w : World) : Touches view pkt w w :=
  ⟨fun _ _ => rfl, rfl, SasKept.refl _, rfl, rfl, rfl⟩

theorem Touches.trans {pkt : PktId} {w w' w'' : World} (h : Touches view pkt w w')
    (h' : Touches view pkt w' w'') : Touches view pkt w w'' :=
  ⟨fun x hx => (h'.others x hx).trans (h.others x hx), h'.view.trans h.view,
    h.sas.trans h'.sas, h'.pair.trans h.pair, h'.freed.trans h.freed,
    h'.processed.trans h.processed⟩

/-- The packet is written in a way the view does not show. -/
theorem touches_modify {pkt : PktId} {w : World} {f : Mbuf → Mbuf}
    (hf : view (f (w.mbuf pkt)) = view (w.mbuf pkt)) :
    Touches view pkt w (w.modify pkt f) := by
  refine ⟨fun x hx => Function.update_of_ne hx _ _, ?_, SasKept.refl _, rfl, rfl,
    rfl⟩
  show view (Function.update w.mbuf pkt _ pkt) = _
  rw [Function.update_self]
  exact hf

/-- An SA is written in a way that keeps its sessions. -/
theorem touches_modifySa (pkt : PktId) {w : World} {p : SaPtr}
    {f : IpsecSa → IpsecSa} (hspi : (f (w.sa p)).spi = (w.sa p).spi)
    (htype : ∀ fb, TypeKept (session (w.sa p) fb).type
      (session (f (w.sa p)) fb).type) :
    Touches view pkt w (w.modifySa p f) :=
  ⟨fun _ _ => rfl, rfl, SasKept.update hspi htype, rfl, rfl, rfl⟩

/-! ## Sessions -/

/-- One session of an SA is written. -/
theorem setSession_kept (sa : IpsecSa) (fb : Bool) {ss : RteIpsecSession}
    (h : TypeKept (session sa fb).type ss.type) :
    (setSession sa fb ss).spi = sa.spi
      ∧ ∀ fb', TypeKept (session sa fb').type
        (session (setSession sa fb ss) fb').type := by
  cases fb with
  | false =>
      refine ⟨rfl, ?_⟩
      intro fb'
      cases fb' with
      | false => exact h
      | true => exact .inl rfl
  | true =>
      refine ⟨rfl, ?_⟩
      intro fb'
      cases fb' with
      | false => exact .inl rfl
      | true => exact h

theorem attachObject_touches (env : Env) (p : SaPtr) (fb : Bool) (dev : Nat)
    (pkt : PktId) (w : World) : Touches view pkt w (attachObject env p fb dev w) := by
  rw [attachObject]
  dsimp only
  have hset : ∀ ses, Touches view pkt w (w.next.modifySa p fun sa =>
      setSession sa fb { session (w.sa p) fb with ses := ses }) := by
    intro ses
    have hkept : TypeKept (session (w.sa p) fb).type
        { session (w.sa p) fb with ses := ses }.type := .inl rfl
    obtain ⟨hspi, htype⟩ := setSession_kept (w.sa p) fb hkept
    exact ⟨fun _ _ => rfl, rfl, SasKept.update hspi htype, rfl, rfl, rfl⟩
  split
  · have h := hset (some w.nextSes)
    exact ⟨h.others, h.view, h.sas, h.pair, h.freed, h.processed⟩
  · exact hset none

theorem createLookasideSession_touches (env : Env) (ctx : IpsecCtx) (p : SaPtr)
    (fb : Bool) (pkt : PktId) (w : World) :
    Touches view pkt w (createLookasideSession env ctx p fb w).2 := by
  rw [createLookasideSession]
  split
  · exact Touches.refl pkt w
  rename_i i _
  have hattach : Touches view pkt w (attachObject env p fb (ctx.tbl i).id w) :=
    attachObject_touches env p fb (ctx.tbl i).id pkt w
  dsimp only
  generalize attachObject env p fb (ctx.tbl i).id w = w1 at hattach
  have hdone : Touches view pkt w (w1.modifySa p fun sa =>
      { sa with cdevIdQp := UInt32.ofNat i }) :=
    hattach.trans (touches_modifySa pkt rfl fun fb' => by
      cases fb' with
      | false => exact .inl rfl
      | true => exact .inl rfl)
  split
  · split
    · exact hattach
    · exact hdone
  · exact Touches.refl pkt w
  · exact Touches.refl pkt w
  · split
    · exact Touches.refl pkt w
    · exact hdone
  · exact hdone

theorem openSession_touches (env : Env) (ctx : IpsecCtx) (p : SaPtr) (fb : Bool)
    (pkt : PktId) (w : World) :
    Touches view pkt w (openSession env ctx p fb w).2 := by
  rw [openSession]
  split
  · exact createLookasideSession_touches env ctx p fb pkt w
  · exact Touches.refl pkt w

/-- A session that cannot be prepared is zeroed. -/
theorem fillIpsecSession_touches (env : Env) (ctx : IpsecCtx) (p : SaPtr)
    (fb : Bool) (pkt : PktId) (w : World) :
    Touches view pkt w (fillIpsecSession env ctx p fb w).2 := by
  have hprepare : ∀ r : Int × World, Touches view pkt w r.2 →
      Touches view pkt w (if r.1 ≠ 0 then r
        else
          let rc := env.sessionPrepare r.2.tick
          if rc ≠ 0 then
            (rc, r.2.next.modifySa p fun sa => setSession sa fb {})
          else (0, r.2.next)).2 := by
    intro r hr
    dsimp only
    split
    · exact hr
    · split
      · have hkept : TypeKept (session (r.2.sa p) fb).type
            ({} : RteIpsecSession).type := .inr rfl
        obtain ⟨hspi, htype⟩ := setSession_kept (r.2.sa p) fb hkept
        exact hr.trans ⟨fun _ _ => rfl, rfl, SasKept.update hspi htype, rfl, rfl, rfl⟩
      · exact hr.trans ⟨fun _ _ => rfl, rfl, SasKept.refl _, rfl, rfl, rfl⟩
  rw [fillIpsecSession]
  refine hprepare _ ?_
  split
  · exact createLookasideSession_touches env ctx p fb pkt w
  · exact createLookasideSession_touches env ctx p fb pkt w
  · exact createLookasideSession_touches env ctx p fb pkt w
  · exact Touches.refl pkt w
  · exact Touches.refl pkt w

/-! ## Preparation -/

/-- The legacy path does not change what `view` shows of a packet, and a
    transformation may count the packet for its SA. -/
structure Gentle (view : Mbuf → V) (f : XformFn) : Prop where
  status : ∀ m st, view (m.setStatus st) = view m
  attach : ∀ ses m, view (attachSession ses m) = view m
  xform : ∀ m sa r, f m sa = some r →
    view r.2.1 = view m ∧ ∃ n, r.2.2 = { sa with seq := n }

theorem xform_touches {f : XformFn} (hf : Gentle view f) (w : World) (pkt : PktId)
    (p : SaPtr) :
    Ends (w.xform f pkt p) (fun _ => True)
      (fun r => Touches view pkt w r.2) := by
  rw [World.xform]
  split
  · exact ends_error trivial
  rename_i r hr
  obtain ⟨hview, n, hsa⟩ := hf.xform _ _ _ hr
  refine ends_ok ?_
  dsimp only
  refine (touches_modify (f := fun _ => r.2.1) hview).trans
    (touches_modifySa pkt ?_ ?_)
  · rw [hsa]
    rfl
  · intro fb
    rw [hsa]
    cases fb with
    | false => exact .inl rfl
    | true => exact .inl rfl

/-- **PREPARATION** works on the packet alone, and sends to a queue only what
    will be checked when it comes back. -/
theorem prepareOp_touches (env : Env) {f : XformFn} (hf : Gentle view f)
    (ctx : IpsecCtx) (pkt : PktId) (p : SaPtr) (w : World) :
    Ends (prepareOp env f ctx pkt p w) (fun _ => True) (fun r =>
      Touches view pkt (w.modify pkt (setPrivSa p)) r.2
        ∧ (r.1 = .queue → Checked (w.sa p).primary.type)) := by
  rw [prepareOp]
  dsimp only
  have hsa : (w.modify pkt (setPrivSa p)).sa = w.sa := rfl
  generalize w.modify pkt (setPrivSa p) = w0 at hsa
  have hfresh : Touches view pkt w0 (w0.modify pkt fun m =>
      m.setStatus .notProcessed) := touches_modify (hf.status _ _)
  generalize w0.modify pkt (fun m => m.setStatus .notProcessed) = fresh at hfresh
  have hopen := hfresh.trans (openSession_touches env ctx p false pkt fresh)
  generalize openSession env ctx p false fresh = r at hopen
  -- the session is attached to the packet itself
  have hattach : ∀ w1 ses, Touches view pkt w0 w1 →
      Touches view pkt w0 (w1.modify pkt (attachSession ses)) :=
    fun w1 ses h => h.trans (touches_modify (hf.attach _ _))
  -- a transformation that fails frees the packet
  have hxform : ∀ w1 d, Touches view pkt w0 w1 →
      (d = .queue → Checked (w.sa p).primary.type) →
      Ends (w1.xform f pkt p >>= fun r =>
        pure (if r.1 = 0 then d else .freed, r.2) : Except Fault (Dest × World))
        (fun _ => True) (fun r => Touches view pkt w0 r.2
          ∧ (r.1 = .queue → Checked (w.sa p).primary.type)) := by
    intro w1 d h1 hd
    refine (xform_touches hf w1 pkt p).bind ?_
    intro r hr
    refine ends_pure ⟨h1.trans hr, ?_⟩
    dsimp only
    split
    · exact hd
    · intro hfreed
      cases hfreed
  have hfreed : Dest.freed = .queue → Checked (w.sa p).primary.type :=
    fun h => by cases h
  rw [hsa]
  split
  · rename_i htype
    split
    · exact ends_ok ⟨hopen, hfreed⟩
    · split
      · exact ends_ok ⟨hopen, hfreed⟩
      · exact ends_ok ⟨hattach _ _ hopen, fun _ => .inr htype⟩
  · exact ends_ok ⟨Touches.refl pkt w0, hfreed⟩
  · rename_i htype
    split
    · exact ends_ok ⟨hopen, hfreed⟩
    · exact hxform _ .queue (hattach _ _ hopen) fun _ => .inl htype
  · refine ends_ok ⟨Touches.refl pkt w0, ?_⟩
    intro h
    cases h
  · refine hxform _ .offload (hattach _ _ hfresh) ?_
    intro h
    cases h

/-! ## Queues -/

/-- A call on one queue with operations `ops`: packets and SAs are as before;
    what the queue had and what it is given is there, or freed. -/
structure QueueFrame (q : CdevQueue) (ops : List PktId) (w : World)
    (r : CdevQueue × World) : Prop where
  mbuf : r.2.mbuf = w.mbuf
  sa : r.2.sa = w.sa
  processed : r.2.processed = w.processed
  key : r.1.toCdevQp = q.toCdevQp
  others : ∀ k, k ≠ q.toCdevQp → r.2.pair k = w.pair k
  buf : r.1.buf ⊆ q.buf ++ ops
  held : (r.2.pair q.toCdevQp).held
    ⊆ (w.pair q.toCdevQp).held ++ (q.buf ++ ops)
  freed : ∃ l, r.2.freed = w.freed ++ l ∧ l ⊆ q.buf ++ ops
    ∧ ((r.2.pair q.toCdevQp).held ++ r.1.buf ++ l).Perm
      ((w.pair q.toCdevQp).held ++ (q.buf ++ ops))

theorem QueueFrame.trans {q : CdevQueue} {ops ops' : List PktId} {w : World}
    {r r' : CdevQueue × World} (h : QueueFrame q ops w r)
    (h' : QueueFrame r.1 ops' r.2 r') : QueueFrame q (ops ++ ops') w r' := by
  have hbuf : r.1.buf ++ ops' ⊆ q.buf ++ (ops ++ ops') := by
    rw [← List.append_assoc]
    refine List.append_subset.mpr ⟨?_, List.subset_append_right _ _⟩
    exact fun x hx => List.mem_append_left _ (h.buf hx)
  have hkey := h.key
  refine ⟨h'.mbuf.trans h.mbuf, h'.sa.trans h.sa, h'.processed.trans h.processed,
    h'.key.trans hkey, ?_, fun x hx => hbuf (h'.buf hx), ?_, ?_⟩
  · intro k hk
    refine (h'.others k ?_).trans (h.others k hk)
    rw [hkey]
    exact hk
  · have hheld := h'.held
    rw [hkey] at hheld
    intro x hx
    rcases List.mem_append.mp (hheld hx) with hx | hx
    · rcases List.mem_append.mp (h.held hx) with hx | hx
      · exact List.mem_append_left _ hx
      · refine List.mem_append_right _ ?_
        rw [← List.append_assoc]
        exact List.mem_append_left _ hx
    · exact List.mem_append_right _ (hbuf hx)
  · obtain ⟨l, hl, hsub, hperm⟩ := h.freed
    obtain ⟨l', hl', hsub', hperm'⟩ := h'.freed
    rw [hkey] at hperm'
    refine ⟨l ++ l', ?_, List.append_subset.mpr ⟨?_, fun x hx => hbuf (hsub' hx)⟩, ?_⟩
    · rw [hl', hl, List.append_assoc]
    · intro x hx
      rw [← List.append_assoc]
      exact List.mem_append_left _ (hsub hx)
    · refine List.perm_iff_count.mpr fun x => ?_
      have hfirst := hperm.count_eq x
      have hsecond := hperm'.count_eq x
      simp only [List.count_append] at hfirst hsecond ⊢
      omega

/-- Operations are offered to the device; what it refuses is freed. -/
theorem burst_frame (env : Env) (q : CdevQueue) {ops : List PktId} {w : World}
    {t : CdevQueue × World} (hkey : t.1.toCdevQp = q.toCdevQp)
    (hbuf : t.1.buf = [])
    (ht : let r := rteCryptodevEnqueueBurst env q.toCdevQp (q.buf ++ ops) w
      t.2.mbuf = r.2.mbuf ∧ t.2.sa = r.2.sa ∧ t.2.processed = r.2.processed
        ∧ t.2.pair = r.2.pair
        ∧ t.2.freed = r.2.freed ++ (q.buf ++ ops).drop r.1) :
    QueueFrame q ops w t := by
  obtain ⟨hmbuf, hsa, hprocessed, hpair, hfreed⟩ := ht
  have hheld : (t.2.pair q.toCdevQp).held = (w.pair q.toCdevQp).held
      ++ (q.buf ++ ops).take (rteCryptodevEnqueueBurst env q.toCdevQp (q.buf ++ ops) w).1 := by
    rw [hpair]
    show (Function.update w.pair q.toCdevQp _ q.toCdevQp).held = _
    rw [Function.update_self]
    rfl
  refine ⟨hmbuf, hsa, hprocessed, hkey, ?_, ?_, ?_, _, hfreed,
    List.drop_subset _ _, ?_⟩
  · intro k hk
    rw [hpair]
    exact Function.update_of_ne hk _ _
  · rw [hbuf]
    exact List.nil_subset _
  · rw [hheld]
    exact List.append_subset.mpr ⟨List.subset_append_left _ _,
      fun x hx => List.mem_append_right _ (List.mem_of_mem_take hx)⟩
  · rw [hheld, hbuf, List.append_nil, List.append_assoc, List.take_append_drop]

/-- Operations enter the buffer. -/
theorem fill_frame (q : CdevQueue) (ops : List PktId) (w : World) :
    QueueFrame q ops w ({ q with buf := q.buf ++ ops }, w) :=
  ⟨rfl, rfl, rfl, rfl, fun _ _ => rfl, fun _ h => h,
    List.subset_append_left _ _, [], (List.append_nil _).symm, List.nil_subset _,
    List.Perm.of_eq (List.append_nil _)⟩

/-- A call on the queue behind the log. -/
theorem QueueFrame.submit {q : CdevQueue} {ops sub : List PktId} {w : World}
    {r : CdevQueue × World} (h : QueueFrame q ops (w.submit q.toCdevQp sub) r) :
    QueueFrame q ops w r := by
  have hheld : ((w.submit q.toCdevQp sub).pair q.toCdevQp).held
      = (w.pair q.toCdevQp).held := by
    show (Function.update w.pair q.toCdevQp _ q.toCdevQp).held = _
    rw [Function.update_self]
  refine ⟨h.mbuf, h.sa, h.processed, h.key, ?_, h.buf, ?_, ?_⟩
  · intro k hk
    exact (h.others k hk).trans (Function.update_of_ne hk _ _)
  · rw [← hheld]
    exact h.held
  · rw [← hheld]
    exact h.freed

/-- The buffer is offered. -/
theorem enqueueCopBurst_frame (env : Env) (q : CdevQueue) (w : World) :
    QueueFrame q [] w (enqueueCopBurst env q w) := by
  refine burst_frame env q rfl rfl ?_
  rw [List.append_nil]
  exact ⟨rfl, rfl, rfl, rfl, rfl⟩

theorem enqueueCopFull_frame (env : Env) (q : CdevQueue) (w : World) :
    QueueFrame q [] w (enqueueCopFull env q w) := by
  refine burst_frame env q rfl rfl ?_
  rw [List.append_nil]
  exact ⟨rfl, rfl, rfl, rfl, rfl⟩

theorem enqueueCop_frame (env : Env) (cop : PktId) (q : CdevQueue) (w : World) :
    Ends (enqueueCop env cop q w) (fun _ => True) (QueueFrame q [cop] w) := by
  have hfill := fill_frame q [cop] (w.submit q.toCdevQp [cop])
  rw [enqueueCop]
  split
  · exact ends_error trivial
  · dsimp only
    split
    · exact ends_ok (hfill.trans (enqueueCopBurst_frame env _ _)).submit
    · exact ends_ok hfill.submit

theorem copBulkLoop_frame (env : Env) (fuel : Nat) (cops : List PktId)
    (q : CdevQueue) (w : World) :
    Ends (copBulkLoop env fuel cops q w) (fun _ => True) (QueueFrame q cops w) := by
  induction fuel generalizing cops q w with
  | zero => exact ends_error trivial
  | succ fuel ih =>
      rw [copBulkLoop]
      split
      · exact ends_error trivial
      dsimp only
      generalize min cops.length (maxPktBurst - q.buf.length) = n
      have hfill := fill_frame q (cops.take n) w
      generalize hr : (if (q.buf ++ cops.take n).length = maxPktBurst then
        enqueueCopFull env { q with buf := q.buf ++ cops.take n } w
        else ({ q with buf := q.buf ++ cops.take n }, w)) = r
      have hround : QueueFrame q (cops.take n) w r := by
        rw [← hr]
        split
        · have hfull := hfill.trans (enqueueCopFull_frame env _ w)
          rw [List.append_nil] at hfull
          exact hfull
        · exact hfill
      have hsplit := List.take_append_drop n cops
      split
      · rename_i hdone
        rw [hdone, List.append_nil] at hsplit
        rw [hsplit] at hround
        exact ends_ok hround
      · refine (ih (cops.drop n) r.1 r.2).mono (fun _ h => h) ?_
        intro r' hr'
        have hall := hround.trans hr'
        rw [hsplit] at hall
        exact hall

theorem enqueueCopBulk_frame (env : Env) (cops : List PktId) (q : CdevQueue)
    (w : World) :
    Ends (enqueueCopBulk env cops q w) (fun _ => True) (QueueFrame q cops w) := by
  rw [enqueueCopBulk]
  dsimp only
  split
  · rename_i hdirect
    have hempty : q.buf = [] := List.eq_nil_of_length_eq_zero hdirect.2
    refine ends_ok (@QueueFrame.submit q cops cops w _
      (burst_frame env q rfl hempty ?_))
    rw [hempty]
    exact ⟨rfl, rfl, rfl, rfl, rfl⟩
  · exact (copBulkLoop_frame env _ cops q _).mono (fun _ h => h)
      fun _ h => h.submit

/-! ## One call after the other -/

/-- The packets that wait in the queues of a context. -/
def Waits (s : State) (x : PktId) : Prop :=
  ∃ i, x ∈ (s.1.tbl i).buf ∨ x ∈ (s.2.pair (s.1.tbl i).toCdevQp).held

/-- A call on one queue. -/
theorem QueueFrame.waits {s : State} {i : Nat} {ops : List PktId}
    {r : CdevQueue × World} (h : QueueFrame (s.1.tbl i) ops s.2 r) {x : PktId}
    (hx : Waits (s.1.setQueue i r.1, r.2) x) : Waits s x ∨ x ∈ ops := by
  have hown : x ∈ (s.1.tbl i).buf ++ ops → Waits s x ∨ x ∈ ops := by
    intro hx
    rcases List.mem_append.mp hx with hx | hx
    · exact .inl ⟨i, .inl hx⟩
    · exact .inr hx
  have hpair : ∀ k, x ∈ (r.2.pair k).held →
      x ∈ (s.2.pair k).held ∨ x ∈ (s.1.tbl i).buf ++ ops := by
    intro k hk
    by_cases hkey : k = (s.1.tbl i).toCdevQp
    · rw [hkey] at hk ⊢
      exact List.mem_append.mp (h.held hk)
    · rw [h.others k hkey] at hk
      exact .inl hk
  have hkeys : ∀ j, ((s.1.setQueue i r.1).tbl j).toCdevQp
      = (s.1.tbl j).toCdevQp := by
    intro j
    show (Function.update s.1.tbl i r.1 j).toCdevQp = _
    by_cases hj : j = i
    · rw [hj, Function.update_self]
      exact h.key
    · rw [Function.update_of_ne hj]
  obtain ⟨j, hx | hx⟩ := hx
  · have hx : x ∈ (Function.update s.1.tbl i r.1 j).buf := hx
    by_cases hj : j = i
    · rw [hj, Function.update_self] at hx
      exact hown (h.buf hx)
    · rw [Function.update_of_ne hj] at hx
      exact .inl ⟨j, .inl hx⟩
  · dsimp only at hx
    rw [hkeys] at hx
    rcases hpair _ hx with hx | hx
    · exact .inl ⟨j, .inr hx⟩
    · exact hown hx

/-- **A CALL** on a burst: it writes the packets of the burst only; `out` are
    those it gives back, each, if tags are kept (`K`), with the SA it came with;
    the others wait in a queue, as `R` wants it, or have been freed.  What was
    in the queues before may still be there, or have been freed. -/
structure Handled (K : Prop) (R : World → PktId → Prop) (s : State)
    (burst : List (PktId × Option SaRef)) (out : List PktId) (s' : State) :
    Prop where
  mbuf : ∀ x, x ∉ burst.map Prod.fst → s'.2.mbuf x = s.2.mbuf x
  sas : SasKept s.2.sa s'.2.sa
  back : ∀ x ∈ out, ∃ q fb, (x, some (q, fb)) ∈ burst
    ∧ (K → saOf s'.2 x = some q)
  nodup : out.Nodup
  waits : ∀ x, Waits s' x →
    Waits s x ∨ x ∈ burst.map Prod.fst ∧ x ∉ out ∧ R s'.2 x
  freed : ∃ l, s'.2.freed = s.2.freed ++ l
    ∧ ∀ x ∈ l, Waits s x ∨ x ∈ burst.map Prod.fst ∧ x ∉ out

/-- What a packet in a queue has does not depend on other packets, or on what
    happens to sessions. -/
def Stable (R : World → PktId → Prop) : Prop :=
  ∀ w w' x, w'.mbuf x = w.mbuf x → SasKept w.sa w'.sa → R w x → R w' x

variable {K : Prop} {R : World → PktId → Prop}

theorem Handled.refl (s : State) : Handled K R s [] [] s :=
  ⟨fun _ _ => rfl, SasKept.refl _, fun _ hx => absurd hx List.not_mem_nil,
    List.nodup_nil, fun _ hx => .inl hx,
    [], (List.append_nil _).symm, fun _ hx => absurd hx List.not_mem_nil⟩

/-- Packets given back are packets of the burst. -/
theorem Handled.mem_out {s s' : State} {burst : List (PktId × Option SaRef)}
    {out : List PktId} (h : Handled K R s burst out s') {x : PktId}
    (hx : x ∈ out) : x ∈ burst.map Prod.fst := by
  obtain ⟨q, fb, hin, -⟩ := h.back x hx
  exact List.mem_map_of_mem hin

/-- **TWO PARTS** of a burst, with different packets. -/
theorem Handled.trans (hR : Stable R) {s s' s'' : State}
    {burst burst' : List (PktId × Option SaRef)} {out out' : List PktId}
    (hd : ∀ x, x ∈ burst.map Prod.fst → x ∉ burst'.map Prod.fst)
    (h : Handled K R s burst out s') (h' : Handled K R s' burst' out' s'') :
    Handled K R s (burst ++ burst') (out ++ out') s'' := by
  have hin : ∀ x, x ∈ (burst ++ burst').map Prod.fst
      ↔ x ∈ burst.map Prod.fst ∨ x ∈ burst'.map Prod.fst := by
    intro x
    rw [List.map_append, List.mem_append]
  -- the packets of the first part are not touched by the second call
  have hkeep : ∀ x, x ∈ burst.map Prod.fst → s''.2.mbuf x = s'.2.mbuf x :=
    fun x hx => h'.mbuf x (hd x hx)
  have hfirst : ∀ x, x ∈ burst.map Prod.fst ∧ x ∉ out →
      x ∈ (burst ++ burst').map Prod.fst ∧ x ∉ out ++ out' := by
    rintro x ⟨hx, hout⟩
    refine ⟨(hin x).mpr (.inl hx), ?_⟩
    intro hmem
    rcases List.mem_append.mp hmem with hmem | hmem
    · exact hout hmem
    · exact hd x hx (h'.mem_out hmem)
  have hsecond : ∀ x, x ∈ burst'.map Prod.fst ∧ x ∉ out' →
      x ∈ (burst ++ burst').map Prod.fst ∧ x ∉ out ++ out' := by
    rintro x ⟨hx, hout⟩
    refine ⟨(hin x).mpr (.inr hx), ?_⟩
    intro hmem
    rcases List.mem_append.mp hmem with hmem | hmem
    · exact hd x (h.mem_out hmem) hx
    · exact hout hmem
  refine ⟨?_, h.sas.trans h'.sas, ?_, ?_, ?_, ?_⟩
  · intro x hx
    rw [hin, not_or] at hx
    exact (h'.mbuf x hx.2).trans (h.mbuf x hx.1)
  · intro x hx
    rcases List.mem_append.mp hx with hx | hx
    · obtain ⟨q, fb, hmem, htag⟩ := h.back x hx
      refine ⟨q, fb, List.mem_append_left _ hmem, ?_⟩
      intro hK
      rw [saOf, hkeep x (h.mem_out hx)]
      exact htag hK
    · obtain ⟨q, fb, hmem, htag⟩ := h'.back x hx
      exact ⟨q, fb, List.mem_append_right _ hmem, htag⟩
  · refine List.nodup_append.mpr ⟨h.nodup, h'.nodup, ?_⟩
    rintro x hx y hy rfl
    exact hd x (h.mem_out hx) (h'.mem_out hy)
  · intro x hx
    rcases h'.waits x hx with hx | ⟨hx, hout, hready⟩
    · rcases h.waits x hx with hx | ⟨hx, hout, hready⟩
      · exact .inl hx
      · obtain ⟨hmem, hnot⟩ := hfirst x ⟨hx, hout⟩
        exact .inr ⟨hmem, hnot, hR _ _ x (hkeep x hx) h'.sas hready⟩
    · obtain ⟨hmem, hnot⟩ := hsecond x ⟨hx, hout⟩
      exact .inr ⟨hmem, hnot, hready⟩
  · obtain ⟨l, hl, hall⟩ := h.freed
    obtain ⟨l', hl', hall'⟩ := h'.freed
    refine ⟨l ++ l', ?_, ?_⟩
    · rw [hl', hl, List.append_assoc]
    · intro x hx
      rcases List.mem_append.mp hx with hx | hx
      · exact (hall x hx).imp_right (hfirst x)
      · rcases hall' x hx with hx | hx
        · rcases h.waits x hx with hx | ⟨hx, hout, -⟩
          · exact .inl hx
          · exact .inr (hfirst x ⟨hx, hout⟩)
        · exact .inr (hsecond x hx)

/-! ## The legacy path -/

/-- A packet in a queue of the legacy path has an SA whose operations are
    checked. -/
def Awaited (w : World) (x : PktId) : Prop :=
  ∃ q, saOf w x = some q ∧ Checked (w.sa q).primary.type

theorem awaited_stable : Stable Awaited := by
  rintro w w' x hmbuf hsas ⟨q, hq, htype⟩
  refine ⟨q, ?_, (hsas.type q false).checked htype⟩
  rw [saOf, hmbuf]
  exact hq

/-- What preparation does not change of a packet: its SA and, inbound, the flags
    of the NIC. -/
def shown (dir : Direction) (m : Mbuf) : Option SaPtr × Option UInt64 :=
  (m.priv.sa, if dir = .ingress then some m.olFlags else none)

theorem espInbound_olFlags (m : Mbuf) (sa : IpsecSa) :
    (espInbound m sa).2.olFlags = m.olFlags := by
  rw [espInbound]
  split
  · rfl
  split
  · rfl
  dsimp only
  split
  · rfl
  split
  · rfl
  · rw [inboundCipher]
    dsimp only
    split
    · rfl
    · split
      · rfl
      · rfl
      · rfl
      · rfl

theorem enqueueXform_gentle (dir : Direction) :
    Gentle (shown dir) (enqueueXform dir) := by
  refine ⟨fun _ _ => rfl, fun _ _ => rfl, ?_⟩
  intro m sa r h
  obtain ⟨n, hn, -⟩ := PacketOrder.enqueueXform_seq h
  refine ⟨Prod.ext (PacketOrder.enqueueXform_tag h) ?_, n, hn⟩
  cases dir with
  | ingress =>
      obtain rfl := Option.some.inj h
      exact congrArg some (espInbound_olFlags m sa)
  | egress => rfl

/-- **ONE PACKET** of a burst. -/
theorem ipsecEnqueueOne_handled (env : Env) (dir : Direction) (s : State)
    (x : PktId × Option SaRef) :
    Ends (ipsecEnqueueOne env (enqueueXform dir) s x) (fun _ => True) (fun s' =>
      ∃ o, s'.1.olPkts = s.1.olPkts ++ o ∧ Handled K Awaited s [x] o s'
        ∧ s'.2.processed = s.2.processed
        ∧ ∀ y ∈ o, dir = .ingress →
          (s'.2.mbuf y).olFlags = (s.2.mbuf y).olFlags) := by
  have hsingle : ∀ {y}, y ∉ [x].map Prod.fst → y ≠ x.1 := by
    rintro y hy rfl
    exact hy (List.mem_singleton_self _)
  rw [ipsecEnqueueOne]
  split
  · refine ends_ok ⟨[], (List.append_nil _).symm, ⟨fun _ _ => rfl, SasKept.refl _,
      fun _ hy => absurd hy List.not_mem_nil, List.nodup_nil, fun _ hy => .inl hy,
      [x.1], rfl, ?_⟩, rfl, fun _ hy => absurd hy List.not_mem_nil⟩
    intro y hy
    exact .inr ⟨hy, List.not_mem_nil⟩
  rename_i p fb hx
  refine (prepareOp_touches env (enqueueXform_gentle dir) s.1 x.1 p s.2).bind ?_
  rintro ⟨dest, w⟩ ⟨hw, hqueue⟩
  dsimp only at hw hqueue ⊢
  have hothers : ∀ y, y ≠ x.1 → w.mbuf y = s.2.mbuf y :=
    fun y hy => (hw.others y hy).trans (Function.update_of_ne hy _ _)
  have hview := hw.view
  rw [show (s.2.modify x.1 (setPrivSa p)).mbuf x.1
    = setPrivSa p (s.2.mbuf x.1) from Function.update_self ..] at hview
  -- the packet carries its SA from here on
  have htag : saOf w x.1 = some p := congrArg Prod.fst hview
  have hflags : dir = .ingress → (w.mbuf x.1).olFlags = (s.2.mbuf x.1).olFlags := by
    rintro rfl
    exact Option.some.inj (congrArg Prod.snd hview)
  -- preparing a packet queues nothing
  have hwaits : ∀ {y}, Waits (s.1, w) y → Waits s y := by
    rintro y ⟨i, hy | hy⟩
    · exact ⟨i, .inl hy⟩
    · dsimp only at hy
      rw [hw.pair] at hy
      exact ⟨i, .inr hy⟩
  split
  · refine ends_pure ⟨[], (List.append_nil _).symm,
      ⟨fun y hy => hothers y (hsingle hy), hw.sas,
        fun _ hy => absurd hy List.not_mem_nil, List.nodup_nil,
        fun _ hy => .inl (hwaits hy), [x.1], congrArg (· ++ [x.1]) hw.freed, ?_⟩,
      hw.processed, fun _ hy => absurd hy List.not_mem_nil⟩
    intro y hy
    exact .inr ⟨hy, List.not_mem_nil⟩
  · rw [IpsecCtx.pushOl]
    split
    · exact ends_error trivial
    · refine ends_ok ⟨[x.1], rfl, ⟨fun y hy => hothers y (hsingle hy), hw.sas, ?_,
        List.nodup_singleton _, fun _ hy => .inl (hwaits hy), [],
        hw.freed.trans (List.append_nil _).symm,
        fun _ hy => absurd hy List.not_mem_nil⟩, hw.processed, ?_⟩
      · intro y hy
        rw [List.mem_singleton.mp hy]
        refine ⟨p, fb, ?_, fun _ => htag⟩
        rw [← hx]
        exact List.mem_singleton_self _
      · intro y hy
        rw [List.mem_singleton.mp hy]
        exact hflags
  · refine (enqueueCop_frame env x.1 _ _).bind ?_
    intro r hr
    have hframe : QueueFrame (s.1.tbl (w.sa p).cdevIdQp.toNat) [x.1] w r :=
      ⟨hr.mbuf, hr.sa, hr.processed, hr.key, hr.others, hr.buf, hr.held, hr.freed⟩
    have hready : Awaited r.2 x.1 := by
      refine ⟨p, ?_, ?_⟩
      · rw [saOf, hframe.mbuf]
        exact htag
      · rw [hframe.sa]
        exact (hw.sas.type p false).checked (hqueue rfl)
    refine ends_pure ⟨[], (List.append_nil _).symm, ⟨?_, ?_,
      fun _ hy => absurd hy List.not_mem_nil, List.nodup_nil, ?_, ?_⟩,
      hframe.processed.trans hw.processed, fun _ hy => absurd hy List.not_mem_nil⟩
    · intro y hy
      show r.2.mbuf y = _
      rw [hframe.mbuf]
      exact hothers y (hsingle hy)
    · show SasKept s.2.sa r.2.sa
      rw [hframe.sa]
      exact hw.sas
    · intro y hy
      rcases QueueFrame.waits (s := (s.1, w)) hframe hy with hy | hy
      · exact .inl (hwaits hy)
      · rw [List.mem_singleton.mp hy]
        exact .inr ⟨List.mem_singleton_self _, List.not_mem_nil, hready⟩
    · obtain ⟨l, hl, hsub, -⟩ := hframe.freed
      refine ⟨l, hl.trans (congrArg (· ++ l) hw.freed), ?_⟩
      intro y hy
      rcases List.mem_append.mp (hsub hy) with hy | hy
      · exact .inl ⟨_, .inl hy⟩
      · rw [List.mem_singleton.mp hy]
        exact .inr ⟨List.mem_singleton_self _, List.not_mem_nil⟩

/-- **ENQUEUEING**: the packets of inline devices are in the offload array. -/
theorem ipsecEnqueue_handled (env : Env) (dir : Direction)
    {burst : List (PktId × Option SaRef)} (hnodup : (burst.map Prod.fst).Nodup)
    (s : State) :
    Ends (ipsecEnqueue env (enqueueXform dir) burst s) (fun _ => True) (fun s' =>
      ∃ o, s'.1.olPkts = s.1.olPkts ++ o ∧ Handled K Awaited s burst o s'
        ∧ s'.2.processed = s.2.processed
        ∧ ∀ y ∈ o, dir = .ingress →
          (s'.2.mbuf y).olFlags = (s.2.mbuf y).olFlags) := by
  rw [ipsecEnqueue]
  refine (ends_foldlM (P := fun todo s' => ∃ done o, burst = done ++ todo
    ∧ s'.1.olPkts = s.1.olPkts ++ o ∧ Handled K Awaited s done o s'
    ∧ s'.2.processed = s.2.processed ∧ ∀ y ∈ o, dir = .ingress →
      (s'.2.mbuf y).olFlags = (s.2.mbuf y).olFlags)
    ⟨[], [], rfl, (List.append_nil _).symm, Handled.refl s, rfl,
      fun _ hy => absurd hy List.not_mem_nil⟩ ?_).mono (fun _ h => h) ?_
  · rintro x todo s1 ⟨done, o, hburst, hol, h, hlog, hflags⟩
    refine (ipsecEnqueueOne_handled (K := K) env dir s1 x).mono (fun _ h => h) ?_
    rintro s2 ⟨o', hol', h', hlog', hflags'⟩
    -- the packet is none of those before it
    have hfresh : ∀ y, y ∈ done.map Prod.fst → y ∉ [x].map Prod.fst := by
      intro y hy hyx
      rw [hburst, List.map_append, List.map_cons] at hnodup
      have hyx : y = x.1 := List.mem_singleton.mp hyx
      exact (List.nodup_append.mp hnodup).2.2 y hy x.1 List.mem_cons_self hyx
    refine ⟨done ++ [x], o ++ o', ?_, ?_, h.trans awaited_stable hfresh h',
      hlog'.trans hlog, ?_⟩
    · rw [hburst, List.append_assoc]
      rfl
    · rw [hol', hol, List.append_assoc]
    · intro y hy hdir
      rcases List.mem_append.mp hy with hy | hy
      · rw [h'.mbuf y (hfresh y (h.mem_out hy))]
        exact hflags y hy hdir
      · have hnew : y ∉ done.map Prod.fst := fun hin => hfresh y hin (h'.mem_out hy)
        rw [hflags' y hy hdir, h.mbuf y hnew]
  · rintro s' ⟨done, o, hburst, hrest⟩
    rw [List.append_nil] at hburst
    subst hburst
    exact ⟨o, hrest⟩

/-- **CREDIT**: only packets of the burst are processed; of those given back,
    each by a session of the SA it came with, and not by an inline one when the
    device had reported a failure. -/
def Credited (K : Prop) (dir : Direction) (burst : List (PktId × Option SaRef))
    (s : State) (out : List PktId) (s' : State) : Prop :=
  ∃ l, s'.2.processed = s.2.processed ++ l
    ∧ (∀ e ∈ l, e.1 ∈ burst.map Prod.fst) ∧ ∀ x ∈ out, ∃ q fb fb' type,
    (x, some (q, fb)) ∈ burst ∧ (x, (q, fb'), type) ∈ l
      ∧ (K → saOf s'.2 x = some q
        ∧ (dir = .ingress → WorkerModel.offloadFailed (s.2.mbuf x) = true →
          IsLookaside type))

/-- Two parts of a burst. -/
theorem Credited.trans {s s' s'' : State} {burst burst' : List (PktId × Option SaRef)}
    {out out' : List PktId}
    (hd : ∀ x, x ∈ burst.map Prod.fst → x ∉ burst'.map Prod.fst)
    (hb : Handled K R s burst out s') (hb' : Handled K R s' burst' out' s'')
    (h : Credited K dir burst s out s') (h' : Credited K dir burst' s' out' s'') :
    Credited K dir (burst ++ burst') s (out ++ out') s'' := by
  obtain ⟨l, hl, honly, hall⟩ := h
  obtain ⟨l', hl', honly', hall'⟩ := h'
  refine ⟨l ++ l', ?_, ?_, ?_⟩
  · rw [hl', hl, List.append_assoc]
  · intro e he
    rw [List.map_append]
    rcases List.mem_append.mp he with he | he
    · exact List.mem_append_left _ (honly e he)
    · exact List.mem_append_right _ (honly' e he)
  · intro x hx
    rcases List.mem_append.mp hx with hx | hx
    · obtain ⟨q, fb, fb', type, hin, hlog, htag⟩ := hall x hx
      refine ⟨q, fb, fb', type, List.mem_append_left _ hin,
        List.mem_append_left _ hlog, ?_⟩
      rw [saOf, hb'.mbuf x (hd x (hb.mem_out hx))]
      exact htag
    · obtain ⟨q, fb, fb', type, hin, hlog, htag⟩ := hall' x hx
      refine ⟨q, fb, fb', type, List.mem_append_right _ hin,
        List.mem_append_right _ hlog, ?_⟩
      rw [← hb.mbuf x fun hin => hd x hin (hb'.mem_out hx)]
      exact htag

/-- Inline post-processing does not accept a packet that the device has
    failed. -/
theorem espInboundPost_failed {m m' : Mbuf} {sa : IpsecSa}
    (htype : ¬ IsLookaside sa.primary.type)
    (hfail : WorkerModel.offloadFailed m = true) :
    espInboundPost m sa ≠ some (0, m') := by
  intro h
  have htype : sa.primary.type = .inlineProtocol ∨ sa.primary.type = .inlineCrypto := by
    by_contra hnot
    obtain ⟨h1, h2⟩ := not_or.mp hnot
    exact htype ⟨h2, h1⟩
  obtain ⟨hoff, hbad⟩ := Bool.and_eq_true_iff.mp hfail
  have hstatus : inboundStatus m sa = .error := by
    rw [inboundStatus, if_pos htype, if_pos (bne_iff_ne.mp hoff),
      if_pos (bne_iff_ne.mp hbad)]
  rw [espInboundPost, hstatus] at h
  have hneg : some ((-1 : Int), m.setStatus .error) = some (0, m') := h
  cases hneg

/-- **A BURST**: what comes back are packets of inline devices. -/
theorem ipsecBurst_handled (env : Env) (dir : Direction)
    {burst : List (PktId × Option SaRef)} (hnodup : (burst.map Prod.fst).Nodup)
    (len : Nat) {s : State} (hol : s.1.olPkts = []) :
    Ends (ipsecBurst env (enqueueXform dir) (dequeueXform dir) burst len s)
      (fun _ => True) (fun r => Handled K Awaited s burst r.1 r.2
        ∧ Credited K dir burst s r.1 r.2) := by
  rw [ipsecBurst]
  -- the tags are there whatever `librte_ipsec` does
  refine (ipsecEnqueue_handled (K := True) env dir hnodup s).bind ?_
  rintro s1 ⟨o, hol1, h, hlog, hflags⟩
  rw [hol, List.nil_append] at hol1
  subst hol1
  refine (PacketOrder.ipsecInlineDequeue_popped dir len _ [] h.nodup).mono
    (fun _ h => h) ?_
  rintro ⟨out, s2⟩ ⟨new, hout, hpop⟩
  obtain rfl : out = new := hout
  dsimp only at hpop ⊢
  have hmem : ∀ x ∈ out, x ∈ s1.1.olPkts := fun x hx => (hpop.accepted x hx).1
  obtain ⟨ol, hctx, -⟩ := hpop.ctx
  have hwaits : ∀ {x}, Waits s2 x → Waits s1 x := by
    rintro x ⟨i, hx | hx⟩
    · rw [hctx] at hx
      exact ⟨i, .inl hx⟩
    · rw [hctx, hpop.pair] at hx
      exact ⟨i, .inr hx⟩
  refine ⟨⟨?_, ?_, ?_, hpop.nodup, ?_, ?_⟩, ?_⟩
  · intro x hx
    refine (hpop.others x fun hin => hx (h.mem_out hin)).trans (h.mbuf x hx)
  · rw [hpop.sa]
    exact h.sas
  · intro x hx
    obtain ⟨q, fb, hin, htag⟩ := h.back x (hmem x hx)
    exact ⟨q, fb, hin, fun _ => (hpop.tag x).trans (htag trivial)⟩
  · intro x hx
    rcases h.waits x (hwaits hx) with hx | ⟨hin, hnot, hready⟩
    · exact .inl hx
    · refine .inr ⟨hin, fun hx => hnot (hmem x hx), ?_⟩
      refine awaited_stable _ _ x (hpop.others x hnot) ?_ hready
      rw [hpop.sa]
      exact SasKept.refl _
  · obtain ⟨l, hl, hall⟩ := h.freed
    obtain ⟨l', hl', hall'⟩ := hpop.freed
    refine ⟨l ++ l', ?_, ?_⟩
    · rw [hl', hl, List.append_assoc]
    · intro x hx
      rcases List.mem_append.mp hx with hx | hx
      · rcases hall x hx with hx | ⟨hin, hnot⟩
        · exact .inl hx
        · exact .inr ⟨hin, fun hx => hnot (hmem x hx)⟩
      · obtain ⟨hin, hnot⟩ := hall' x hx
        exact .inr ⟨h.mem_out hin, hnot⟩
  · obtain ⟨l, hl, honly, hall⟩ := hpop.processed
    refine ⟨l, by rw [hl, hlog], fun e he => h.mem_out (honly e he), ?_⟩
    intro x hx
    obtain ⟨q, hq, hin⟩ := hall x hx
    obtain ⟨q', fb, hburst, htag⟩ := h.back x (hmem x hx)
    obtain rfl := Option.some.inj ((htag trivial).symm.trans hq)
    refine ⟨_, fb, false, _, hburst, hin, fun _ => ⟨(hpop.tag x).trans hq, ?_⟩⟩
    rintro rfl hfail
    by_contra htype
    -- the flags are those the packet came with
    obtain ⟨hol1, p, m, sa, hp, hpost⟩ := hpop.accepted x hx
    obtain rfl := Option.some.inj (hp.symm.trans hq)
    have hfail1 : WorkerModel.offloadFailed (s1.2.mbuf x) = true := by
      rw [WorkerModel.offloadFailed, hflags x hol1 rfl]
      exact hfail
    have hpost : (espInboundPost (s1.2.mbuf x) (s1.2.sa p)).map
        (fun r => (r.1, r.2, s1.2.sa p)) = some (0, m, sa) := hpost
    obtain ⟨⟨rc, m'⟩, hrc, heq⟩ := Option.map_eq_some_iff.mp hpost
    obtain ⟨rfl, -⟩ := Prod.mk.inj heq
    exact espInboundPost_failed htype hfail1 hrc

end Handling
