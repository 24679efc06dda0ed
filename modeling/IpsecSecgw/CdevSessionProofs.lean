import Mathlib.Logic.Relation
import IpsecSecgw.CryptoQueueProofs
import IpsecSecgw.IpsecProofs

/-! # A session stays on its device

    `create_lookaside_session` stores in the SA the number a queue has in the
    table of the lcore that asks first; every other lcore of the socket then
    takes this number for its own table.  The two tables agree on it, whatever
    the lcores do, exactly when they are `Aligned`: then `WorldOk` is kept by
    every call, and otherwise two packets of one SA are enough to use a session
    on a device it was not made for. -/

namespace CdevSession

open SaModel MbufModel CdevModel IpsecModel Outcome Ipsec CryptoQueue

/-! ## Runs of the lcores -/

/-- The SAs and sessions are as before, but for sequence numbers. -/
structure SameSessions (w w' : World) : Prop where
  sa : ∀ p, ∃ n, w'.sa p = { w.sa p with seq := n }
  sesDev : w'.sesDev = w.sesDev
  nextSes : w'.nextSes = w.nextSes
  queued : w'.queued = w.queued

/-- A step of the socket: a lcore handles a burst, whose packets are marked for
    fallback only where the SA has a fallback session; or something else
    happens, to packets, queue pairs and buffers. -/
inductive SocketStep (env : Env) (dir : Direction) (ls : UInt8 → Prop) :
    Socket → Socket → Prop
  | call {s s' : Socket} (l : UInt8) (c : LcoreCall) (hl : ls l)
      (htags : ∀ x ∈ c.burst, ∀ p, x.2 = some (p, true) →
        (s.world.sa p).fallbackSessions ≠ 0)
      (h : lcoreExec env dir s l c = .ok s') : SocketStep env dir ls s s'
  | other {s s' : Socket} (hctx : ∀ l, CtxCall (s.ctx l) (s'.ctx l))
      (hworld : SameSessions s.world s'.world) : SocketStep env dir ls s s'

/-- The SAs before the first packet: a fallback session comes with an inline
    primary one, which has its object; lookaside sessions have none yet. -/
structure FreshSas (w : World) : Prop where
  inline : ∀ p, (w.sa p).fallbackSessions ≠ 0 →
    (w.sa p).primary.type = .inlineCrypto ∧ (w.sa p).primary.ses ≠ none
  fresh : ∀ p fb, IsLookaside (session (w.sa p) fb).type →
    (session (w.sa p) fb).ses = none
  queued : w.queued = []

/-- Every operation so far went to a queue of the context, on the device its
    session was initialised on. -/
def UsedRight (s : Socket) : Prop :=
  ∀ u ∈ s.world.queued, u.index < u.nbQps
    ∧ ∀ ses, u.ses = some ses → s.world.sesDev ses = u.dev

/-- The environment names algorithms alike. -/
def SameCodes (env env' : Env) : Prop :=
  ∀ l sa, sessionKey (env'.onLcore l) sa = sessionKey (env.onLcore l) sa

/-- The device at a place of a table; the entries behind the end are zero. -/
def devAt (t : QueueTables) (dir : Direction) (l : UInt8) (i : Nat) : Nat :=
  ((t.tbl l dir).getD i ⟨0, 0⟩).id

/-- The tables agree: the number one lcore's hash has for an SA means the same
    device on every other lcore. -/
def Aligned (env : Env) (t : QueueTables) (dir : Direction) (ls : UInt8 → Prop) :
    Prop :=
  ∀ l l', ls l → ls l' → ∀ sa i,
    t.map dir (sessionKey (env.onLcore l) sa) = some i →
    i < (t.tbl l' dir).length ∧ devAt t dir l' i = devAt t dir l i

/-! ## The invariant -/

variable {env : Env} {t : QueueTables} {dir : Direction} {ls : UInt8 → Prop}
variable {fs : SaPtr → Bool}

/-- What `cryptodevs_init` guarantees of its tables. -/
structure TablesOk (t : QueueTables) (dir : Direction) : Prop where
  mapped : ∀ key i, t.map dir key = some i → i < (t.tbl key.lcoreId dir).length
  size : ∀ l, (t.tbl l dir).length ≤ maxQpPerLcore

/-- A context of a lcore has the table and the hash it was given. -/
structure CtxFits (t : QueueTables) (dir : Direction) (l : UInt8)
    (ctx : IpsecCtx) : Prop where
  cdevMap : ctx.cdevMap = t.map dir
  nbQps : ctx.nbQps = (t.tbl l dir).length
  keys : ∀ i, (ctx.tbl i).toCdevQp = (t.tbl l dir).getD i ⟨0, 0⟩
  short : ∀ i, (ctx.tbl i).buf.length < maxPktBurst

theorem CtxFits.call {l : UInt8} {ctx ctx' : IpsecCtx}
    (h : CtxFits t dir l ctx) (hcall : CtxCall ctx ctx') :
    CtxFits t dir l ctx' :=
  ⟨hcall.cdevMap.trans h.cdevMap, hcall.nbQps.trans h.nbQps,
    fun i => (hcall.keys i).trans (h.keys i), hcall.short h.short⟩

/-- The SA names the number some lcore's hash has for it, and its session, if it
    has an object, is on the device there. -/
def Named (env : Env) (t : QueueTables) (dir : Direction) (ls : UInt8 → Prop)
    (w : World) (p : SaPtr) (fb : Bool) : Prop :=
  ∃ l i, ls l ∧ t.map dir (sessionKey (env.onLcore l) (w.sa p)) = some i
    ∧ (w.sa p).cdevIdQp = UInt32.ofNat i
    ∧ ∀ ses, (session (w.sa p) fb).ses = some ses →
      ses < w.nextSes ∧ w.sesDev ses = devAt t dir l i

/-- The invariant of the shared memory; `fs` tells the SAs with a fallback
    session, which is then the only lookaside session they have. -/
structure WorldOk (env : Env) (t : QueueTables) (dir : Direction)
    (ls : UInt8 → Prop) (fs : SaPtr → Bool) (w : World) : Prop where
  sessions : ∀ p, fs p = true ↔ (w.sa p).fallbackSessions ≠ 0
  inline : ∀ p, fs p = true →
    (w.sa p).primary.type = .inlineCrypto ∧ (w.sa p).primary.ses ≠ none
  named : ∀ p, IsLookaside (session (w.sa p) (fs p)).type →
    (session (w.sa p) (fs p)).ses ≠ none → Named env t dir ls w p (fs p)
  used : ∀ u ∈ w.queued, u.index < u.nbQps
    ∧ ∀ ses, u.ses = some ses → ses < w.nextSes ∧ w.sesDev ses = u.dev

theorem Aside.same {w w' : World} (h : Aside w w') : SameSessions w w' where
  sa := by
    intro p
    exact ⟨(w.sa p).seq, by rw [h.sa]⟩
  sesDev := h.sesDev
  nextSes := h.nextSes
  queued := h.queued

theorem Handed.same {env : Env} {ref : SaRef} {pkts left : List PktId} {w w' : World}
    (h : Handed env ref pkts left w w') : SameSessions w w' where
  sa := by
    intro p
    exact ⟨(w.sa p).seq, by rw [h.sa]⟩
  sesDev := h.sesDev
  nextSes := h.nextSes
  queued := h.queued

theorem SameSessions.named {w w' : World} (h : SameSessions w w') {p : SaPtr}
    {fb : Bool} (hn : Named env t dir ls w p fb) : Named env t dir ls w' p fb := by
  obtain ⟨l, i, hl, hmap, hidx, hobj⟩ := hn
  obtain ⟨n, hsa⟩ := h.sa p
  refine ⟨l, i, hl, ?_, ?_, ?_⟩
  · rw [hsa]
    exact hmap
  · rw [hsa]
    exact hidx
  · rw [hsa, h.nextSes, h.sesDev]
    intro ses hses
    refine hobj ses ?_
    cases fb with
    | false => exact hses
    | true => exact hses

/-- **FRAME**: what does not touch sessions keeps the invariant. -/
theorem SameSessions.worldOk {w w' : World} (h : SameSessions w w')
    (hw : WorldOk env t dir ls fs w) : WorldOk env t dir ls fs w' where
  sessions := by
    intro p
    obtain ⟨n, hsa⟩ := h.sa p
    rw [hsa]
    exact hw.sessions p
  inline := by
    intro p hfs
    obtain ⟨n, hsa⟩ := h.sa p
    rw [hsa]
    exact hw.inline p hfs
  named := by
    intro p htype hses
    obtain ⟨n, hsa⟩ := h.sa p
    have hsame : session (w'.sa p) (fs p) = session (w.sa p) (fs p) := by
      rw [hsa]
      cases fs p with
      | false => rfl
      | true => rfl
    rw [hsame] at htype hses
    exact h.named (hw.named p htype hses)
  used := by
    rw [h.queued, h.nextSes, h.sesDev]
    exact hw.used

/-- The session a packet is given to is the SA's only lookaside session, when
    it is one or has no object. -/
theorem WorldOk.only {w : World} (hw : WorldOk env t dir ls fs w) {p : SaPtr}
    {fb : Bool} (htag : fb = true → fs p = true)
    (h : (session (w.sa p) fb).ses = none
      ∨ IsLookaside (session (w.sa p) fb).type) : fb = fs p := by
  cases fb with
  | true => exact (htag rfl).symm
  | false =>
      cases hfs : fs p with
      | false => rfl
      | true =>
          obtain ⟨htype, hses⟩ := hw.inline p hfs
          rcases h with h | h
          · exact absurd h hses
          · exact absurd htype h.1

/-- **CREATION** keeps the invariant, and a session that was created is named
    after the lcore that did it. -/
theorem WorldOk.created {w : World} (hw : WorldOk env t dir ls fs w)
    {l : UInt8} (hl : ls l) {ctx : IpsecCtx} (hctx : CtxFits t dir l ctx)
    {p : SaPtr} {r : Int × World}
    (hc : Created (env.onLcore l) ctx p (fs p) w r) :
    WorldOk env t dir ls fs r.2
      ∧ (r.1 = 0 → IsLookaside (session (w.sa p) (fs p)).type →
        Named env t dir ls r.2 p (fs p)) := by
  -- a number the hash has for the SA, and the object that goes with it
  have hindexed : ∀ i, Indexed (env.onLcore l) ctx (w.sa p) (r.2.sa p) i →
      t.map dir (sessionKey (env.onLcore l) (r.2.sa p)) = some i
        ∧ (r.2.sa p).cdevIdQp = UInt32.ofNat i
        ∧ (ctx.tbl i).id = devAt t dir l i := by
    rintro i ⟨hmap, hidx⟩
    rw [hctx.cdevMap] at hmap
    rw [hc.key]
    exact ⟨hmap, hidx, congrArg CdevQp.id (hctx.keys i)⟩
  have hobject : ∀ i, Indexed (env.onLcore l) ctx (w.sa p) (r.2.sa p) i →
      ∀ ses, (session (r.2.sa p) (fs p)).ses = some ses →
      ses < r.2.nextSes ∧ r.2.sesDev ses = devAt t dir l i := by
    rintro i ⟨hmap, -⟩ ses hses
    obtain ⟨hlt, j, ⟨hmap', hidx'⟩, hdev⟩ := hc.object ses hses
    obtain rfl : i = j := Option.some.inj (hmap.symm.trans hmap')
    exact ⟨hlt, hdev.trans (hindexed i ⟨hmap, hidx'⟩).2.2⟩
  have hnamed : ∀ i, Indexed (env.onLcore l) ctx (w.sa p) (r.2.sa p) i →
      Named env t dir ls r.2 p (fs p) := by
    intro i hi
    obtain ⟨hmap, hidx, -⟩ := hindexed i hi
    exact ⟨l, i, hl, hmap, hidx, hobject i hi⟩
  refine ⟨⟨?_, ?_, ?_, ?_⟩, ?_⟩
  · intro q
    by_cases hq : q = p
    · rw [hq, hc.sessions]
      exact hw.sessions p
    · rw [hc.others q hq]
      exact hw.sessions q
  · intro q hfs
    by_cases hq : q = p
    · subst hq
      have hother := hc.other
      rw [hfs] at hother
      have hprim : (r.2.sa q).primary = (w.sa q).primary := hother
      rw [hprim]
      exact hw.inline q hfs
    · rw [hc.others q hq]
      exact hw.inline q hfs
  · intro q htype hses
    by_cases hq : q = p
    · subst hq
      obtain ⟨ses, hsome⟩ := Option.ne_none_iff_exists'.mp hses
      obtain ⟨-, i, hi, -⟩ := hc.object ses hsome
      exact hnamed i hi
    · have hsame := hc.others q hq
      rw [hsame] at htype hses
      obtain ⟨k, i, hk, hmap, hidx, hobj⟩ := hw.named q htype hses
      refine ⟨k, i, hk, ?_, ?_, ?_⟩
      · rw [hsame]
        exact hmap
      · rw [hsame]
        exact hidx
      · rw [hsame]
        intro ses h
        obtain ⟨hlt, hdev⟩ := hobj ses h
        exact ⟨Nat.lt_of_lt_of_le hlt hc.grow.1, (hc.grow.2 ses hlt).trans hdev⟩
  · rw [hc.queued]
    intro u hu
    obtain ⟨hidx, hobj⟩ := hw.used u hu
    refine ⟨hidx, ?_⟩
    intro ses h
    obtain ⟨hlt, hdev⟩ := hobj ses h
    exact ⟨Nat.lt_of_lt_of_le hlt hc.grow.1, (hc.grow.2 ses hlt).trans hdev⟩
  · intro hrc htype
    obtain ⟨i, hi⟩ := hc.ready hrc htype
    exact hnamed i hi

/-- **USE**: on aligned tables an operation gets where its session is. -/
theorem WorldOk.use {w : World} (hw : WorldOk env t dir ls fs w)
    (ht : TablesOk t dir) (hal : Aligned env t dir ls) {l : UInt8} (hl : ls l)
    {ctx : IpsecCtx} (hctx : CtxFits t dir l ctx) {p : SaPtr} {fb : Bool}
    (hn : Named env t dir ls w p fb) (pkts : List PktId) :
    WorldOk env t dir ls fs (w.useQueue ctx pkts p fb) := by
  refine ⟨hw.sessions, hw.inline, hw.named, ?_⟩
  intro u hu
  rcases List.mem_append.mp hu with hu | hu
  · exact hw.used u hu
  · obtain rfl := List.mem_singleton.mp hu
    obtain ⟨k, i, hk, hmap, hidx, hobj⟩ := hn
    obtain ⟨hlt, hdev⟩ := hal k l hk hl (w.sa p) i hmap
    have hnum : (w.sa p).cdevIdQp.toNat = i := by
      have hmax : maxQpPerLcore = 256 := rfl
      have hsize := ht.size l
      rw [hidx, UInt32.toNat_ofNat', Nat.mod_eq_of_lt (by omega)]
    dsimp only
    rw [hnum, hctx.nbQps]
    refine ⟨hlt, ?_⟩
    intro ses hses
    obtain ⟨hold, hon⟩ := hobj ses hses
    refine ⟨hold, hon.trans ?_⟩
    rw [← hdev]
    exact (congrArg CdevQp.id (hctx.keys i)).symm

/-! ## The legacy path -/

/-- The invariant while lcore `l` works: its context, the memory, and which
    packets of the burst may be marked for fallback. -/
def Working (env : Env) (t : QueueTables) (dir : Direction) (ls : UInt8 → Prop)
    (fs : SaPtr → Bool) (l : UInt8) (s : State) : Prop :=
  CtxFits t dir l s.1 ∧ WorldOk env t dir ls fs s.2

theorem modify_same (w : World) (p : PktId) (f : Mbuf → Mbuf) :
    SameSessions w (w.modify p f) :=
  ⟨fun p => ⟨(w.sa p).seq, rfl⟩, rfl, rfl, rfl⟩

theorem freePkts_same (w : World) (ps : List PktId) :
    SameSessions w (w.freePkts ps) :=
  ⟨fun p => ⟨(w.sa p).seq, rfl⟩, rfl, rfl, rfl⟩

theorem SameSessions.trans {w w' w'' : World} (h : SameSessions w w')
    (h' : SameSessions w' w'') : SameSessions w w'' where
  sa := by
    intro p
    obtain ⟨n, hn⟩ := h.sa p
    obtain ⟨n', hn'⟩ := h'.sa p
    exact ⟨n', by rw [hn', hn]⟩
  sesDev := h'.sesDev.trans h.sesDev
  nextSes := h'.nextSes.trans h.nextSes
  queued := h'.queued.trans h.queued

/-- A transformation touches sequence numbers only. -/
theorem xform_same {f : XformFn} (hf : KeepsSessions f) (w : World)
    (pkt : PktId) (p : SaPtr) :
    Ends (w.xform f pkt p) (fun _ => True) (fun r => SameSessions w r.2) := by
  rw [World.xform]
  cases hr : f (w.mbuf pkt) (w.sa p) with
  | none => exact ends_error trivial
  | some r =>
      obtain ⟨n, hsame⟩ := hf _ _ _ hr
      refine ends_ok ⟨?_, rfl, rfl, rfl⟩
      intro q
      show ∃ m, Function.update w.sa p r.2.2 q = _
      by_cases hq : q = p
      · subst hq
        exact ⟨n, by rw [Function.update_self, hsame]⟩
      · exact ⟨(w.sa q).seq, by rw [Function.update_of_ne hq]⟩

/-- Opening the session of a lookaside SA names it. -/
theorem openSession_named {l : UInt8} (hl : ls l) {ctx : IpsecCtx}
    (hctx : CtxFits t dir l ctx) {w : World} (hw : WorldOk env t dir ls fs w)
    {p : SaPtr} (htype : IsLookaside (w.sa p).primary.type) :
    let r := openSession (env.onLcore l) ctx p false w
    WorldOk env t dir ls fs r.2
      ∧ (r.1 = true → Named env t dir ls r.2 p false) := by
  have hfs : false = fs p := hw.only (fun h => by cases h) (.inr htype)
  intro r
  have hr : r = openSession (env.onLcore l) ctx p false w := rfl
  rw [openSession] at hr
  split at hr
  · rename_i hses
    have hc := createLookasideSession_created (env.onLcore l) ctx p false hses
    rw [hfs] at hc
    obtain ⟨hok, hnamed⟩ := hw.created hl hctx hc
    rw [← hfs] at hok hnamed
    rw [hr]
    exact ⟨hok, fun hz => hnamed (eq_of_beq hz) htype⟩
  · rename_i hses
    rw [hr]
    refine ⟨hw, fun _ => ?_⟩
    have hnamed := hw.named p
    rw [← hfs] at hnamed
    exact hnamed htype hses

/-- **ONE PACKET** on its way to a queue: its SA is named. -/
theorem prepareOp_named {f : XformFn} (hf : KeepsSessions f) {l : UInt8}
    (hl : ls l) {ctx : IpsecCtx} (hctx : CtxFits t dir l ctx) (pkt : PktId)
    (p : SaPtr) {w : World} (hw : WorldOk env t dir ls fs w) :
    Ends (prepareOp (env.onLcore l) f ctx pkt p w) (fun _ => True)
      (fun r => WorldOk env t dir ls fs r.2
        ∧ (r.1 = .queue → Named env t dir ls r.2 p false)) := by
  -- what is written to the packet concerns no session
  have hmark := modify_same w pkt (setPrivSa p)
  have hfresh := hmark.trans (modify_same (w.modify pkt (setPrivSa p)) pkt
    fun m => m.setStatus .notProcessed)
  have hfreed : Dest.freed ≠ .queue := by decide
  have hoffload : Dest.offload ≠ .queue := by decide
  rw [prepareOp]
  dsimp only
  rw [show (w.modify pkt (setPrivSa p)).sa = w.sa from rfl]
  cases htype : (w.sa p).primary.type with
  -- only the last two types get to a queue
  | cpuCrypto =>
      exact ends_ok ⟨hmark.worldOk hw, fun h => absurd h hfreed⟩
  | inlineProtocol =>
      exact ends_ok ⟨hmark.worldOk hw, fun h => absurd h hoffload⟩
  | inlineCrypto =>
      refine (xform_same hf _ pkt p).bind ?_
      rintro ⟨ret, w'⟩ hsame
      refine ends_pure ⟨((hfresh.trans (modify_same _ pkt _)).trans hsame).worldOk
        hw, fun h => ?_⟩
      dsimp only at h
      split at h
      · exact absurd h hoffload
      · exact absurd h hfreed
  | none =>
      have hlook : IsLookaside (w.sa p).primary.type := by
        rw [htype]
        exact ⟨by decide, by decide⟩
      obtain ⟨hok, hnamed⟩ := openSession_named hl hctx (hfresh.worldOk hw)
        (p := p) hlook
      dsimp only
      generalize openSession (env.onLcore l) ctx p false _ = r at hok hnamed
      split
      · exact ends_ok ⟨hok, fun h => absurd h hfreed⟩
      · rename_i hopen
        refine (xform_same hf _ pkt p).bind ?_
        rintro ⟨ret, w'⟩ hsame
        have hall := (modify_same r.2 pkt (attachSession
          (r.2.sa p).primary.ses)).trans hsame
        exact ends_pure ⟨hall.worldOk hok,
          fun _ => hall.named (hnamed (by simpa using hopen))⟩
  | lookasideProtocol =>
      have hlook : IsLookaside (w.sa p).primary.type := by
        rw [htype]
        exact ⟨by decide, by decide⟩
      obtain ⟨hok, hnamed⟩ := openSession_named hl hctx (hfresh.worldOk hw)
        (p := p) hlook
      dsimp only
      generalize openSession (env.onLcore l) ctx p false _ = r at hok hnamed
      split
      · exact ends_ok ⟨hok, fun h => absurd h hfreed⟩
      · rename_i hopen
        split
        · exact ends_ok ⟨hok, fun h => absurd h hfreed⟩
        · have hall := modify_same r.2 pkt (attachSession
            (r.2.sa p).primary.ses)
          exact ends_ok ⟨hall.worldOk hok,
            fun _ => hall.named (hnamed (by simpa using hopen))⟩

/-- A call on a queue of the lcore. -/
theorem Working.queueCall {l : UInt8} {s : State}
    (h : Working env t dir ls fs l s) {i : Nat} {ops : List PktId}
    {r : CdevQueue × World} (hr : QueueCall (s.1.tbl i) s.2 ops r) :
    Working env t dir ls fs l (s.1.setQueue i r.1, r.2) :=
  ⟨h.1.call hr.ctxCall, (Aside.same hr.aside).worldOk h.2⟩

/-- **THE LEGACY BURST** keeps the invariant. -/
theorem ipsecEnqueue_working (ht : TablesOk t dir) (hal : Aligned env t dir ls)
    {f : XformFn} (hf : KeepsSessions f) {l : UInt8} (hl : ls l)
    (burst : List (PktId × Option SaRef)) {s : State}
    (h : Working env t dir ls fs l s) :
    Ends (ipsecEnqueue (env.onLcore l) f burst s) (fun _ => True)
      (Working env t dir ls fs l) := by
  refine ends_foldlM (P := fun _ => Working env t dir ls fs l) h ?_
  rintro ⟨pkt, ref⟩ _ s ⟨hctx, hw⟩
  rw [ipsecEnqueueOne]
  dsimp only
  cases ref with
  | none => exact ends_ok ⟨hctx, (freePkts_same _ _).worldOk hw⟩
  | some ref =>
      obtain ⟨p, tag⟩ := ref
      refine (prepareOp_named hf hl hctx pkt p hw).bind ?_
      rintro ⟨dest, w⟩ ⟨hok, hnamed⟩
      cases dest with
      | freed => exact ends_ok ⟨hctx, (freePkts_same _ _).worldOk hok⟩
      | offload =>
          dsimp only
          rw [IpsecCtx.pushOl]
          split
          · exact ends_error trivial
          · exact ends_ok ⟨⟨hctx.cdevMap, hctx.nbQps, hctx.keys, hctx.short⟩, hok⟩
      | queue =>
          have hused := hok.use ht hal hl hctx (hnamed rfl) [pkt]
          refine ((enqueueCop_call (env.onLcore l) pkt _ _).mono
            (fun _ _ => trivial) (fun _ ha => ha)).bind ?_
          intro r hr
          have hwork : Working env t dir ls fs l
            (s.1, w.useQueue s.1 [pkt] p false) := ⟨hctx, hused⟩
          exact ends_ok (hwork.queueCall hr)

/-! ## The librte_ipsec path -/

/-- A session that is open is named, when it is a lookaside one. -/
theorem sessionOpen_named {l : UInt8} (hl : ls l) {ctx : IpsecCtx}
    (hctx : CtxFits t dir l ctx) {w w' : World}
    (hw : WorldOk env t dir ls fs w) {p : SaPtr} {fb : Bool}
    (htag : fb = true → fs p = true)
    (h : SessionOpen (env.onLcore l) ctx p fb w w') :
    WorldOk env t dir ls fs w'
      ∧ (IsLookaside (session (w'.sa p) fb).type →
        Named env t dir ls w' p fb) := by
  rcases h with ⟨hses, rfl⟩ | ⟨hses, hc⟩
  · refine ⟨hw, fun htype => ?_⟩
    obtain rfl := hw.only htag (.inr htype)
    exact hw.named p htype hses
  · obtain rfl := hw.only htag (.inl hses)
    obtain ⟨hok, hnamed⟩ := hw.created hl hctx hc
    refine ⟨hok, fun htype => hnamed rfl ?_⟩
    rw [← hc.type rfl]
    exact htype

/-- **ONE GROUP** keeps the invariant. -/
theorem groupStep_working (ht : TablesOk t dir) (hal : Aligned env t dir ls)
    {l : UInt8} (hl : ls l) {g : IpsecGroup} {trf : Traffic} {s : State}
    {r : GroupResult × Traffic × State} (h : Working env t dir ls fs l s)
    (htag : ∀ p, g.id = some (p, true) → fs p = true)
    (hr : GroupStep (env.onLcore l) g trf s r) :
    Working env t dir ls fs l r.2.2 := by
  obtain ⟨hctx, hw⟩ := h
  cases hr with
  | noSa hid => exact ⟨hctx, hw⟩
  | noSession hid hses hc hfill =>
      rename_i p fb rc w
      obtain rfl := hw.only (fun hfb : fb = true => htag p (by rw [hid, hfb]))
        (.inl hses)
      exact ⟨hctx, (hw.created hl hctx hc).1⟩
  | queue hid hopen htype hhanded hres hcall =>
      rename_i p fb w w' res r
      obtain ⟨hok, hnamed⟩ := sessionOpen_named hl hctx hw
        (fun hfb => htag p (by rw [hid, hfb])) hopen
      have hsame := Handed.same hhanded
      have hused := (hsame.worldOk hok).use ht hal hl hctx
        (hsame.named (hnamed htype)) (res.1.take res.2)
      have hwork : Working env t dir ls fs l
        (s.1, w'.useQueue s.1 (res.1.take res.2) p fb) := ⟨hctx, hused⟩
      exact hwork.queueCall hcall
  | through hid hopen hhanded hres htrf =>
      rename_i p fb w w' res trf'
      obtain ⟨hok, -⟩ := sessionOpen_named hl hctx hw
        (fun hfb => htag p (by rw [hid, hfb])) hopen
      exact ⟨hctx, (Handed.same hhanded).worldOk hok⟩

/-- The invariant of the loop of `ipsec_process`, with the groups still to
    come. -/
def Processing (env : Env) (t : QueueTables) (dir : Direction)
    (ls : UInt8 → Prop) (fs : SaPtr → Bool) (l : UInt8)
    (todo : List IpsecGroup) (r : Traffic × State) : Prop :=
  Working env t dir ls fs l r.2
    ∧ ∀ g ∈ todo, ∀ p, g.id = some (p, true) → fs p = true

/-- **THE LIBRTE_IPSEC BURST** keeps the invariant. -/
theorem ipsecProcess_working (ht : TablesOk t dir) (hal : Aligned env t dir ls)
    {l : UInt8} (hl : ls l) {burst : List (PktId × Option SaRef)}
    {trf : Traffic} {s : State} (h : Working env t dir ls fs l s)
    (htags : ∀ x ∈ burst, ∀ p, x.2 = some (p, true) → fs p = true) :
    Ends (ipsecProcess (env.onLcore l) burst trf s) (fun _ => True)
      (fun r => Working env t dir ls fs l r.2) := by
  have hstart : Processing env t dir ls fs l (saGroup burst) (trf, s) := by
    refine ⟨h, ?_⟩
    intro g hg p hid
    obtain ⟨x, hx, hxid⟩ := saGroup_id hg
    exact htags x hx p (hxid.trans hid)
  refine (ends_foldlM (P := Processing env t dir ls fs l) hstart ?_).mono
    (fun _ he => he) (fun _ hr => hr.1)
  rintro g gs ⟨trf, s⟩ ⟨hwork, htodo⟩
  refine (processGroup_step (env.onLcore l) g trf hwork.1.short).bind ?_
  rintro ⟨res, trf', s'⟩ hr
  obtain ⟨hctx, hw⟩ := groupStep_working ht hal hl hwork
    (htodo g List.mem_cons_self) hr
  exact ends_pure ⟨⟨hctx, (freePkts_same _ _).worldOk hw⟩,
    fun g' hg' => htodo g' (List.mem_cons_of_mem _ hg')⟩

/-! ## Runs -/

/-- The invariant of the socket. -/
def SocketOk (env : Env) (t : QueueTables) (dir : Direction) (ls : UInt8 → Prop)
    (fs : SaPtr → Bool) (s : Socket) : Prop :=
  (∀ l, CtxFits t dir l (s.ctx l)) ∧ WorldOk env t dir ls fs s.world

theorem SocketOk.put {s : Socket} (h : SocketOk env t dir ls fs s) {l : UInt8}
    {r : State} (hr : Working env t dir ls fs l r) :
    SocketOk env t dir ls fs (s.put l r) := by
  refine ⟨?_, hr.2⟩
  intro k
  show CtxFits t dir k (Function.update s.ctx l r.1 k)
  by_cases hk : k = l
  · subst hk
    rw [Function.update_self]
    exact hr.1
  · rw [Function.update_of_ne hk]
    exact h.1 k

/-- **ONE STEP**. -/
theorem socketStep_ok (ht : TablesOk t dir) (hal : Aligned env t dir ls)
    {s s' : Socket} (h : SocketOk env t dir ls fs s)
    (hstep : SocketStep env dir ls s s') : SocketOk env t dir ls fs s' := by
  cases hstep with
  | other hctx hworld =>
      exact ⟨fun l => (h.1 l).call (hctx l), hworld.worldOk h.2⟩
  | call l c hl htags hexec =>
      have hwork : Working env t dir ls fs l (s.ctx l, s.world) := ⟨h.1 l, h.2⟩
      have htags : ∀ x ∈ c.burst, ∀ p, x.2 = some (p, true) → fs p = true :=
        fun x hx p hp => (h.2.sessions p).mpr (htags x hx p hp)
      cases c with
      | enqueue burst =>
          have hends : Ends (lcoreExec env dir s l (.enqueue burst))
              (fun _ => True) (SocketOk env t dir ls fs) := by
            refine (ipsecEnqueue_working ht hal (enqueueXform_keeps dir) hl burst
              hwork).bind ?_
            intro r hr
            exact ends_pure (h.put hr)
          exact hends.of_ok hexec
      | process burst trf =>
          have hends : Ends (lcoreExec env dir s l (.process burst trf))
              (fun _ => True) (SocketOk env t dir ls fs) := by
            refine (ipsecProcess_working ht hal hl hwork htags).bind ?_
            intro r hr
            exact ends_pure (h.put hr)
          exact hends.of_ok hexec

/-- **ALL STEPS**. -/
theorem run_ok (ht : TablesOk t dir) (hal : Aligned env t dir ls)
    {s s' : Socket} (h : SocketOk env t dir ls fs s)
    (hrun : Relation.ReflTransGen (SocketStep env dir ls) s s') :
    SocketOk env t dir ls fs s' := by
  induction hrun with
  | refl => exact h
  | tail _ hstep ih => exact socketStep_ok ht hal ih hstep

/-- Fresh SAs on the contexts `cryptodevs_init` builds. -/
theorem start_ok {w : World} (hw : FreshSas w) :
    SocketOk env t dir ls (fun p => (w.sa p).fallbackSessions != 0)
      (Socket.start t dir w) := by
  refine ⟨fun l => ⟨rfl, rfl, fun _ => rfl, ?_⟩, ?_, ?_, ?_, ?_⟩
  · intro i
    show 0 < maxPktBurst
    decide
  · intro p
    exact bne_iff_ne
  · intro p hp
    exact hw.inline p (bne_iff_ne.mp hp)
  · intro p htype hses
    exact absurd (hw.fresh p _ htype) hses
  · intro u hu
    have hu : u ∈ w.queued := hu
    rw [hw.queued] at hu
    cases hu

theorem tablesOk_init {conf : CdevConf} {req : Nat} {ps : List LcoreParams}
    {devs : List CryptodevInfo} {init : InitState}
    (hinit : cryptodevsInit conf req ps devs = some init) (dir : Direction) :
    TablesOk init.tables dir := by
  obtain ⟨c, hinv⟩ := Cdev.cryptodevsInit_inv hinit
  exact ⟨hinv.queues.mapped dir, fun l => hinv.queues.size l dir⟩

/-! ## Two packets of one SA -/

/-- Devices that take everything, under the given names of algorithms. -/
def eagerEnv (env : Env) : Env :=
  { laxEnv 0 with
    cipherCode := env.cipherCode
    authCode := env.authCode
    aeadCode := env.aeadCode }

/-- An SA of a kind, without sessions. -/
def plainSa (sa : IpsecSa) : IpsecSa where
  cipherAlgo := sa.cipherAlgo
  authAlgo := sa.authAlgo
  aeadAlgo := sa.aeadAlgo

/-- A world where every SA is of that kind. -/
def plainWorld (sa : IpsecSa) : World :=
  { blankWorld with sa := fun _ => plainSa sa }

theorem plainWorld_fresh (sa : IpsecSa) : FreshSas (plainWorld sa) where
  inline := by
    intro p h
    exact absurd rfl h
  fresh := by
    intro p fb _
    cases fb with
    | false => rfl
    | true => rfl
  queued := rfl

/-- The first packet of a plain SA creates its session. -/
theorem fillIpsecSession_plain (env : Env) (l : UInt8) (ctx : IpsecCtx)
    {sa : IpsecSa} {w : World} {p : SaPtr} (hsa : w.sa p = plainSa sa) {i : Nat}
    (hmap : ctx.cdevMap (sessionKey (env.onLcore l) sa) = some i) :
    ∃ w', fillIpsecSession ((eagerEnv env).onLcore l) ctx p false w = (0, w')
      ∧ (w'.sa p).primary = { ses := some w.nextSes }
      ∧ (w'.sa p).cdevIdQp = UInt32.ofNat i
      ∧ w'.sesDev w.nextSes = (ctx.tbl i).id
      ∧ w'.queued = w.queued := by
  have hmap : ctx.cdevMap (sessionKey ((eagerEnv env).onLcore l) (w.sa p))
      = some i := by
    rw [hsa]
    exact hmap
  have htype : (session (w.sa p) false).type = .none := by
    rw [hsa]
    rfl
  have hsession : session (w.sa p) false = {} := by
    rw [hsa]
    rfl
  have hself : (((attachObject ((eagerEnv env).onLcore l) p false
      (ctx.tbl i).id w).modifySa p fun sa =>
        { sa with cdevIdQp := UInt32.ofNat i }).next).sa p
      = { plainSa sa with
        primary := { ses := some w.nextSes }
        cdevIdQp := UInt32.ofNat i } := by
    have hnew : ((eagerEnv env).onLcore l).newSession w.tick = true := rfl
    rw [attachObject, hsession, if_pos hnew]
    refine (Function.update_self ..).trans ?_
    dsimp only [World.modifySa]
    rw [Function.update_self, show w.next.sa p = plainSa sa from hsa]
    rfl
  refine ⟨((attachObject ((eagerEnv env).onLcore l) p false (ctx.tbl i).id
    w).modifySa p fun sa => { sa with cdevIdQp := UInt32.ofNat i }).next, ?_, ?_,
    ?_, ?_, rfl⟩
  · rw [fillIpsecSession]
    dsimp only
    rw [htype]
    dsimp only
    rw [createLookasideSession, hmap]
    dsimp only
    rw [htype]
    rfl
  · rw [hself]
  · rw [hself]
  · exact Function.update_self ..

/-- A packet whose session is a plain one goes to a queue. -/
theorem ipsecProcess_plain (env : Env) {l : UInt8} {ctx : IpsecCtx}
    (hshort : ∀ i, (ctx.tbl i).buf.length < maxPktBurst) {w w' : World}
    {p : SaPtr} (pkt : PktId)
    (hopen : (if (session (w.sa p) false).ses = none then
        fillIpsecSession ((eagerEnv env).onLcore l) ctx p false w
      else (0, w)) = (0, w'))
    (htype : (w'.sa p).primary.type = .none) :
    ∃ r, ipsecProcess ((eagerEnv env).onLcore l) [(pkt, some (p, false))] {}
        (ctx, w) = .ok r
      ∧ CtxCall ctx r.2.1 ∧ r.2.2.sa = w'.sa ∧ r.2.2.sesDev = w'.sesDev
      ∧ ∃ u ∈ r.2.2.queued, u.ses = (w'.sa p).primary.ses
        ∧ u.index = (w'.sa p).cdevIdQp.toNat ∧ u.nbQps = ctx.nbQps
        ∧ u.dev = (ctx.tbl (w'.sa p).cdevIdQp.toNat).id := by
  have htype : (session (w'.sa p) false).type = .none := htype
  generalize he : (eagerEnv env).onLcore l = e at hopen
  have hhandle : e.handle = fun _ _ pkts => (pkts, pkts.length) := by
    rw [← he]
    rfl
  have hhanded := rteIpsecHandle_handed e (p, false) [pkt]
    (fun _ => setPrivSa p) w'
  -- the library accepts the whole group
  have hres : (rteIpsecHandle e (p, false) [pkt]
      (w'.modifyAll [pkt] fun _ => setPrivSa p)).1 = ([pkt], 1) := by
    rw [rteIpsecHandle, hhandle]
    rfl
  generalize hr : rteIpsecHandle e (p, false) [pkt]
    (w'.modifyAll [pkt] fun _ => setPrivSa p) = r at hhanded hres
  -- and its operation fits into the buffer of the queue
  obtain ⟨q, hq, hcall⟩ := exists_ok (enqueueCopBulk_call e [pkt]
    (r.2.useQueue ctx [pkt] p false) (E := fun _ => False)
    (hshort (w'.sa p).cdevIdQp.toNat))
  refine ⟨({}, ctx.setQueue (w'.sa p).cdevIdQp.toNat q.1, q.2.freePkts []), ?_,
    hcall.ctxCall, ?_, ?_, ?_⟩
  · have hprep : ipsecPrepareCryptoGroup e p false [pkt] (ctx, w')
        = .ok (([pkt], 1), ctx.setQueue (w'.sa p).cdevIdQp.toNat q.1, q.2) := by
      rw [ipsecPrepareCryptoGroup]
      dsimp only
      rw [hr, hres]
      show (do
        let s ← State.onQueue (ctx, r.2.useQueue ctx [pkt] p false)
          (w'.sa p).cdevIdQp.toNat (enqueueCopBulk e [pkt])
        return (([pkt], 1), s)) = _
      rw [State.onQueue, hq]
      rfl
    have hgroup : processGroup e ⟨some (p, false), [pkt]⟩ {} (ctx, w)
        = .ok (([pkt], 1), {}, ctx.setQueue (w'.sa p).cdevIdQp.toNat q.1, q.2) := by
      rw [processGroup]
      dsimp only
      rw [hopen]
      dsimp only
      rw [htype]
      dsimp only
      rw [if_neg (not_not.mpr rfl), hprep]
      rfl
    show [IpsecGroup.mk (some (p, false)) [pkt]].foldlM (processOne e)
      ({}, ctx, w) = _
    rw [List.foldlM_cons, processOne, hgroup]
    rfl
  · exact hcall.aside.sa.trans hhanded.sa
  · exact hcall.aside.sesDev.trans hhanded.sesDev
  · -- what was logged speaks of the SA as it was
    have hmem : _ ∈ (r.2.useQueue ctx [pkt] p false).queued :=
      List.mem_append_right _ (List.mem_singleton_self _)
    rw [← hcall.aside.queued] at hmem
    refine ⟨_, hmem, ?_, ?_, rfl, ?_⟩
    · rw [hhanded.sa]
      rfl
    · rw [hhanded.sa]
    · rw [hhanded.sa]

/-- **TWO PACKETS**: the lcore `l` creates the session of an SA, and `l'` uses
    it. -/
theorem two_packets (ht : TablesOk t dir) (ls : UInt8 → Prop) {l l' : UInt8}
    (hl : ls l) (hl' : ls l') {sa : IpsecSa} {i : Nat}
    (hmap : t.map dir (sessionKey (env.onLcore l) sa) = some i) :
    ∃ s, Relation.ReflTransGen (SocketStep (eagerEnv env) dir ls)
        (Socket.start t dir (plainWorld sa)) s
      ∧ s.world.sesDev 0 = devAt t dir l i
      ∧ ∃ u ∈ s.world.queued, u.ses = some 0 ∧ u.index = i
        ∧ u.nbQps = (t.tbl l' dir).length ∧ u.dev = devAt t dir l' i := by
  have hnum : (UInt32.ofNat i).toNat = i := by
    have hmax : maxQpPerLcore = 256 := rfl
    have hlt := ht.mapped _ i hmap
    have hsize := ht.size (sessionKey (env.onLcore l) sa).lcoreId
    rw [UInt32.toNat_ofNat', Nat.mod_eq_of_lt (by omega)]
  have hempty : ∀ k i, ((IpsecCtx.ofTables t k dir).tbl i).buf.length
      < maxPktBurst := by
    intro k i
    show 0 < maxPktBurst
    decide
  have htags : ∀ p, some ((0 : SaPtr), false) ≠ some (p, true) := by
    intro p h
    cases h
  -- the first packet
  obtain ⟨w1, hfill, hprim, hidx, hdev, hqueued⟩ :=
    fillIpsecSession_plain env l (IpsecCtx.ofTables t l dir)
      (w := plainWorld sa) (p := 0) rfl hmap
  obtain ⟨r, hr, hcall, hsa, hsesDev, -⟩ := ipsecProcess_plain env
    (w := plainWorld sa) (hempty l) 0 hfill (by rw [hprim])
  have hstep : SocketStep (eagerEnv env) dir ls
      (Socket.start t dir (plainWorld sa))
      ((Socket.start t dir (plainWorld sa)).put l r.2) := by
    refine .call l (.process [(0, some (0, false))] {}) hl ?_ ?_
    · intro x hx p hp
      obtain rfl := List.mem_singleton.mp hx
      exact absurd hp (htags p)
    · show (do
        let r ← ipsecProcess ((eagerEnv env).onLcore l) _ {}
          (IpsecCtx.ofTables t l dir, plainWorld sa)
        return (Socket.start t dir (plainWorld sa)).put l r.2) = _
      rw [hr]
      rfl
  generalize hs1 : (Socket.start t dir (plainWorld sa)).put l r.2 = s1 at hstep
  have hworld : s1.world = r.2.2 := by
    rw [← hs1]
    rfl
  have hctx : CtxFits t dir l' (s1.ctx l') := by
    have hstart : ∀ k, CtxFits t dir k (IpsecCtx.ofTables t k dir) :=
      fun k => ⟨rfl, rfl, fun _ => rfl, hempty k⟩
    rw [← hs1]
    show CtxFits t dir l'
      (Function.update (Socket.start t dir (plainWorld sa)).ctx l r.2.1 l')
    by_cases hk : l' = l
    · subst hk
      rw [Function.update_self]
      exact (hstart l').call hcall
    · rw [Function.update_of_ne hk]
      exact hstart l'
  -- the second one finds the session
  have hses : (session (s1.world.sa 0) false).ses = some 0 := by
    rw [hworld, hsa]
    exact congrArg RteIpsecSession.ses hprim
  have hopen : (if (session (s1.world.sa 0) false).ses = none then
      fillIpsecSession ((eagerEnv env).onLcore l') (s1.ctx l') 0 false s1.world
      else (0, s1.world)) = (0, s1.world) := by
    rw [hses]
    exact if_neg (by intro h; cases h)
  obtain ⟨r', hr', -, -, hsesDev', u, hu, huses, hidx', hnb, hudev⟩ :=
    ipsecProcess_plain env hctx.short 1 hopen
      (by rw [hworld, hsa, hprim])
  have hstep' : SocketStep (eagerEnv env) dir ls s1 (s1.put l' r'.2) := by
    refine .call l' (.process [(1, some (0, false))] {}) hl' ?_ ?_
    · intro x hx p hp
      obtain rfl := List.mem_singleton.mp hx
      exact absurd hp (htags p)
    · show (do
        let r ← ipsecProcess ((eagerEnv env).onLcore l') _ {}
          (s1.ctx l', s1.world)
        return s1.put l' r.2) = _
      rw [hr']
      rfl
  have hfirst : (s1.world.sa 0).cdevIdQp.toNat = i := by
    rw [hworld, hsa, hidx, hnum]
  refine ⟨s1.put l' r'.2, (Relation.ReflTransGen.single hstep).tail hstep', ?_, ?_⟩
  · show r'.2.2.sesDev 0 = _
    rw [hsesDev', hworld, hsesDev]
    exact hdev
  · refine ⟨u, hu, huses.trans hses, hidx'.trans hfirst, hnb.trans hctx.nbQps, ?_⟩
    rw [hudev, hfirst]
    exact congrArg CdevQp.id (hctx.keys i)

/-- **SESSIONS STAY ON THEIR DEVICE**, whatever the lcores `ls` of a socket do,
    exactly when their tables are aligned. -/
theorem usedRight_iff_aligned {conf : CdevConf} {req : Nat}
    {ps : List LcoreParams} {devs : List CryptodevInfo} {init : InitState}
    (hinit : cryptodevsInit conf req ps devs = some init) (env : Env)
    (dir : Direction) (ls : UInt8 → Prop) :
    (∀ env', SameCodes env env' → ∀ w, FreshSas w → ∀ s,
        Relation.ReflTransGen (SocketStep env' dir ls)
          (Socket.start init.tables dir w) s → UsedRight s)
      ↔ Aligned env init.tables dir ls := by
  have ht := tablesOk_init hinit dir
  constructor
  · intro h l l' hl hl' sa i hmap
    obtain ⟨s, hrun, hdev, u, hu, hses, hidx, hnb, hudev⟩ :=
      two_packets ht ls hl hl' hmap
    obtain ⟨hlt, hon⟩ := h (eagerEnv env) (fun _ _ => rfl) _
      (plainWorld_fresh sa) s hrun u hu
    rw [hidx, hnb] at hlt
    have hsame := hon 0 hses
    rw [hdev, hudev] at hsame
    exact ⟨hlt, hsame.symm⟩
  · intro hal env' hcodes w hw s hrun u hu
    have hal' : Aligned env' init.tables dir ls := by
      intro l l' hl hl' sa i hmap
      rw [hcodes] at hmap
      exact hal l l' hl hl' sa i hmap
    obtain ⟨hidx, hobj⟩ := (run_ok ht hal' (start_ok hw) hrun).2.used u hu
    exact ⟨hidx, fun ses hses => (hobj ses hses).2⟩

theorem usedRight_iff_aligned_two :
    (∀ env', SameCodes (laxEnv 1) env' → ∀ w, FreshSas w → ∀ s,
        Relation.ReflTransGen
          (SocketStep env' .egress fun l => l = 1 ∨ l = 2)
          (Socket.start Cdev.twoTables.tables .egress w) s → UsedRight s)
      ↔ Aligned (laxEnv 1) Cdev.twoTables.tables .egress
        fun l => l = 1 ∨ l = 2 :=
  usedRight_iff_aligned Cdev.cryptodevsInit_twoTables (laxEnv 1) .egress _

/-- With two devices the second lcore of a port has fewer queues than the number
    the first one stores for an AEAD algorithm. -/
theorem session_misused :
    ∃ init, cryptodevsInit ⟨0, 0xff, false, 1⟩ 0 Cdev.twoLcores Cdev.twoDevs
        = some init
      ∧ ∃ w, FreshSas w ∧ ∃ s, Relation.ReflTransGen
          (SocketStep (eagerEnv (laxEnv 1)) .egress fun l => l = 1 ∨ l = 2)
          (Socket.start init.tables .egress w) s
        ∧ ¬ UsedRight s := by
  have ht := tablesOk_init Cdev.cryptodevsInit_twoTables .egress
  have hmap : Cdev.twoTables.tables.map .egress
      (sessionKey ((laxEnv 1).onLcore 1) { aeadAlgo := .aesGcm }) = some 1 := by
    decide
  obtain ⟨s, hrun, -, u, hu, -, hidx, hnb, -⟩ := two_packets ht
    (fun l => l = 1 ∨ l = 2) (show (1 : UInt8) = 1 ∨ (1 : UInt8) = 2 from .inl rfl)
    (show (2 : UInt8) = 1 ∨ (2 : UInt8) = 2 from .inr rfl) hmap
  refine ⟨Cdev.twoTables, Cdev.cryptodevsInit_twoTables, _, plainWorld_fresh _, s,
    hrun, ?_⟩
  intro h
  have hlt := (h u hu).1
  rw [hidx, hnb, Cdev.twoTables_tbl.2] at hlt
  exact absurd hlt (Nat.lt_irrefl 1)

end CdevSession
