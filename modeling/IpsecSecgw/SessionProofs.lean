import IpsecSecgw.IpsecProofs
import IpsecSecgw.SessionModel

/-! # What a failed session creation leaves

    `Clean` is what a caller relies on when a call fails: the record says what
    it said before, so that the next packet of the SA tries again, and no object
    is in use that nobody points to.  `createLookasideSession` fails cleanly
    always; but it also succeeds without an object, and with one no device
    knows (`createsSound_iff`).  `fillIpsecSession` zeroes the record when it
    cannot be prepared, and forgets its type, its SA and the object
    (`fillsClean_iff`).

    `createLookasideSession_refines` and `fillIpsecSession_refines` relate the
    calls to those of `IpsecModel`, which the bursts run through. -/

namespace Session

open SaModel CdevModel SessionModel Ipsec
open IpsecModel hiding createLookasideSession fillIpsecSession

/-! ## What a caller relies on -/

/-- Every object the call has taken is the one the record points to. -/
def NoLeak (s t : SessionState) : Prop :=
  ∀ id ∈ t.pool.used, id ∈ s.pool.used ∨ t.ss.ses = some id

/-- The record is as it was, without an object, and none is leaked. -/
structure Clean (s t : SessionState) : Prop where
  type : t.ss.type = s.ss.type
  sa : t.ss.sa = s.ss.sa
  ses : t.ss.ses = none
  noLeak : NoLeak s t

/-- The record points to an object that is initialised on the device of the
    queue the SA names. -/
def Usable (ctx : IpsecCtx) (t : SessionState) : Prop :=
  ∃ id, t.ss.ses = some id
    ∧ t.pool.dev id = some (ctx.tbl t.cdevIdQp.toNat).id

/-- `create_lookaside_session` has given what its return code says. -/
def CreatesSound (ans : Answers) (ctx : IpsecCtx) (key : CdevKey)
    (s : SessionState) : Prop :=
  let r := createLookasideSession ans ctx key s
  (r.1 = 0 → Usable ctx r.2) ∧ (r.1 ≠ 0 → Clean s r.2)

/-- `fill_ipsec_session` has, when it fails. -/
def FillsClean (ans : Answers) (ctx : IpsecCtx) (key : CdevKey)
    (s : SessionState) : Prop :=
  let r := fillIpsecSession ans ctx key s
  r.1 ≠ 0 → Clean s r.2

theorem Clean.same {s : SessionState} (hses : s.ss.ses = none) : Clean s s :=
  ⟨rfl, rfl, hses, fun _ hid => .inl hid⟩

/-! ## The calls of the libraries -/

/-- The device a symmetric session would be created for: the map has a queue for
    the key, and a record of type `CPU_CRYPTO` needs a device that supports
    it. -/
def SymmetricOn (ans : Answers) (ctx : IpsecCtx) (key : CdevKey) (ss : FullSession)
    (dev : Nat) : Prop :=
  ∃ i, ctx.cdevMap key = some i ∧ dev = (ctx.tbl i).id
    ∧ (ss.type = .none ∨ ss.type = .cpuCrypto ∧ ans.cpuCrypto dev = true)

/-- A new object that is initialised. -/
theorem symInit_created {ans : Answers} {dev : Nat} {p : Pool}
    (hinit : ans.symInit dev p.next = 0) :
    (rteCryptodevSymSessionInit ans dev (some p.next) p.take).2.dev p.next
      = some dev := by
  rw [rteCryptodevSymSessionInit, dif_pos ⟨hinit, Nat.lt_succ_self _⟩]
  exact Function.update_self ..

/-- A new object the device has refused stays blank. -/
theorem symInit_refused {ans : Answers} {dev : Nat} {p : Pool}
    (hinit : ans.symInit dev p.next ≠ 0) :
    (rteCryptodevSymSessionInit ans dev (some p.next) p.take).2.dev p.next
      = none := by
  rw [rteCryptodevSymSessionInit, dif_neg fun h => hinit h.1]
  exact p.blank _ (Nat.le_refl _)

/-- Initialising takes no object. -/
theorem symInit_used (ans : Answers) (dev : Nat) (ses : Option SesId) (p : Pool) :
    (rteCryptodevSymSessionInit ans dev ses p).2.used = p.used := by
  cases ses with
  | none => rfl
  | some id =>
      rw [rteCryptodevSymSessionInit]
      split <;> rfl

/-! ## `create_lookaside_session` -/

/-- What the branch for symmetric sessions leaves: success, whatever the two
    calls have answered. -/
structure Symmetric (ans : Answers) (i dev : Nat) (s : SessionState)
    (r : Int × SessionState) : Prop where
  rc : r.1 = 0
  type : r.2.ss.type = s.ss.type
  sa : r.2.ss.sa = s.ss.sa
  ses : r.2.ss.ses = (rteCryptodevSymSessionCreate ans s.pool).1
  cdevIdQp : r.2.cdevIdQp = UInt32.ofNat i
  pool : r.2.pool = (rteCryptodevSymSessionInit ans dev
    (rteCryptodevSymSessionCreate ans s.pool).1
    (rteCryptodevSymSessionCreate ans s.pool).2).2

theorem createLookasideSession_symmetric {ans : Answers} {ctx : IpsecCtx}
    {key : CdevKey} {s : SessionState} {dev : Nat}
    (hsym : SymmetricOn ans ctx key s.ss dev) :
    ∃ i, ctx.cdevMap key = some i ∧ dev = (ctx.tbl i).id
      ∧ Symmetric ans i dev s (createLookasideSession ans ctx key s) := by
  obtain ⟨i, hmap, rfl, htype⟩ := hsym
  refine ⟨i, hmap, rfl, ?_⟩
  rw [createLookasideSession, hmap]
  rcases htype with htype | ⟨htype, hcpu⟩
  · simp only [htype]
    exact ⟨rfl, htype.symm, rfl, rfl, rfl, rfl⟩
  · simp only [htype, hcpu, Bool.not_true, Bool.false_eq_true, if_false]
    exact ⟨rfl, htype.symm, rfl, rfl, rfl, rfl⟩

/-- What the other branches leave: the record is clean, or a security session
    has been created for the queue. -/
inductive Otherwise (ans : Answers) (ctx : IpsecCtx) (key : CdevKey)
    (s : SessionState) (r : Int × SessionState) : Prop
  | failed (hrc : r.1 ≠ 0) (hclean : Clean s r.2)
    (hsec : s.ss.type = .lookasideProtocol →
      ctx.cdevMap key = none ∨ ans.secCreate = false)
  | secured {i : Nat} (hmap : ctx.cdevMap key = some i) (hrc : r.1 = 0)
    (htype : s.ss.type = .lookasideProtocol) (hsec : ans.secCreate = true)
    (hqp : r.2.cdevIdQp = UInt32.ofNat i)
    (husable : ∃ id, r.2.ss.ses = some id ∧ r.2.pool.dev id = some (ctx.tbl i).id)

theorem createLookasideSession_otherwise {ans : Answers} {ctx : IpsecCtx}
    {key : CdevKey} {s : SessionState} (hses : s.ss.ses = none)
    (hsym : ∀ dev, ¬ SymmetricOn ans ctx key s.ss dev) :
    Otherwise ans ctx key s (createLookasideSession ans ctx key s) := by
  have hneg : (-1 : Int) ≠ 0 := by decide
  rw [createLookasideSession]
  cases hmap : ctx.cdevMap key with
  | none => exact .failed hneg (Clean.same hses) fun _ => .inl hmap
  | some i =>
      dsimp only
      cases htype : s.ss.type with
      | none => exact absurd ⟨i, hmap, rfl, .inl htype⟩ (hsym _)
      | inlineCrypto =>
          refine .failed hneg (Clean.same hses) fun h => ?_
          rw [htype] at h
          cases h
      | inlineProtocol =>
          refine .failed hneg (Clean.same hses) fun h => ?_
          rw [htype] at h
          cases h
      | cpuCrypto =>
          dsimp only
          split
          · refine .failed (show enotsup ≠ 0 by decide) (Clean.same hses) fun h => ?_
            rw [htype] at h
            cases h
          · rename_i hcpu
            exact absurd ⟨i, hmap, rfl, .inr ⟨htype, by simpa using hcpu⟩⟩ (hsym _)
      | lookasideProtocol =>
          dsimp only
          rw [rteSecuritySessionCreate]
          by_cases hsec : ans.secCreate = true
          · rw [if_pos hsec, if_neg (Option.some_ne_none _)]
            exact .secured hmap rfl htype hsec rfl
              ⟨s.pool.next, rfl, Function.update_self ..⟩
          · rw [if_neg hsec, if_pos rfl]
            exact .failed hneg ⟨htype.symm, rfl, rfl, fun _ hid => .inl hid⟩
              fun _ => .inr (by simpa using hsec)

/-- The number of a queue fits into `cdev_id_qp`. -/
theorem toNat_queue {i : Nat} (hi : i < maxQpPerLcore) :
    (UInt32.ofNat i).toNat = i := by
  have hmax : maxQpPerLcore = 256 := rfl
  rw [UInt32.toNat_ofNat', Nat.mod_eq_of_lt (by omega)]

/-- **SOUND RETURN CODES**: exactly when a symmetric session that is tried gets
    an object and the device takes it. -/
theorem createsSound_iff (ans : Answers) {ctx : IpsecCtx} {key : CdevKey}
    {s : SessionState} (hses : s.ss.ses = none)
    (hmap : ∀ i, ctx.cdevMap key = some i → i < maxQpPerLcore) :
    CreatesSound ans ctx key s ↔
      ∀ dev, SymmetricOn ans ctx key s.ss dev →
        ans.symCreate = true ∧ ans.symInit dev s.pool.next = 0 := by
  by_cases hsym : ∃ dev, SymmetricOn ans ctx key s.ss dev
  · obtain ⟨dev, hdev⟩ := hsym
    obtain ⟨i, hi, hid, hleft⟩ := createLookasideSession_symmetric hdev
    have hqp : (ctx.tbl (createLookasideSession ans ctx key s).2.cdevIdQp.toNat).id
        = dev := by
      rw [hleft.cdevIdQp, toNat_queue (hmap i hi), hid]
    constructor
    · rintro ⟨hsound, -⟩ dev' hdev'
      obtain rfl : dev' = dev := by
        obtain ⟨j, hj, hjd, -⟩ := hdev'
        rw [hjd, hid, Option.some.inj (hj.symm.trans hi)]
      obtain ⟨id, hses', hon⟩ := hsound hleft.rc
      rw [hqp, hleft.pool] at hon
      rw [hleft.ses] at hses'
      by_cases hcreate : ans.symCreate = true
      · refine ⟨hcreate, ?_⟩
        by_contra hinit
        rw [rteCryptodevSymSessionCreate, if_pos hcreate] at hses' hon
        rw [← Option.some.inj hses', symInit_refused hinit] at hon
        cases hon
      · rw [rteCryptodevSymSessionCreate, if_neg hcreate] at hses'
        cases hses'
    · intro h
      obtain ⟨hcreate, hinit⟩ := h dev hdev
      refine ⟨fun _ => ⟨s.pool.next, ?_, ?_⟩, fun hrc => absurd hleft.rc hrc⟩
      · rw [hleft.ses, rteCryptodevSymSessionCreate, if_pos hcreate]
      · rw [hqp, hleft.pool, rteCryptodevSymSessionCreate, if_pos hcreate]
        exact symInit_created hinit
  · have hother := createLookasideSession_otherwise hses (not_exists.mp hsym)
    refine ⟨fun _ dev hdev => absurd ⟨dev, hdev⟩ hsym, fun _ => ?_⟩
    cases hother with
    | failed hrc hclean _ => exact ⟨fun h => absurd h hrc, fun _ => hclean⟩
    | @secured i hi hrc _ _ hqp husable =>
        refine ⟨fun _ => ?_, fun h => absurd hrc h⟩
        rw [Usable, hqp, toNat_queue (hmap i hi)]
        exact husable

/-! ## `fill_ipsec_session` -/

/-- The call comes to `rte_ipsec_session_prepare`: for an inline record at once,
    for the others when `create_lookaside_session` returns 0. -/
def Prepares (ans : Answers) (ctx : IpsecCtx) (key : CdevKey) (ss : FullSession) :
    Prop :=
  (ss.type = .inlineCrypto ∨ ss.type = .inlineProtocol)
    ∨ (∃ dev, SymmetricOn ans ctx key ss dev)
    ∨ ss.type = .lookasideProtocol ∧ ctx.cdevMap key ≠ none ∧ ans.secCreate = true

/-- A record that is not inline. -/
theorem fillIpsecSession_lookaside (ans : Answers) (ctx : IpsecCtx) (key : CdevKey)
    {s : SessionState} (hcrypto : s.ss.type ≠ .inlineCrypto)
    (hprotocol : s.ss.type ≠ .inlineProtocol) :
    fillIpsecSession ans ctx key s
      = if (createLookasideSession ans ctx key s).1 ≠ 0
        then createLookasideSession ans ctx key s
        else prepareSession ans (createLookasideSession ans ctx key s).2 := by
  rw [fillIpsecSession]
  cases htype : s.ss.type with
  | none => rfl
  | cpuCrypto => rfl
  | lookasideProtocol => rfl
  | inlineCrypto => exact absurd htype hcrypto
  | inlineProtocol => exact absurd htype hprotocol

theorem fillIpsecSession_inline (ans : Answers) (ctx : IpsecCtx) (key : CdevKey)
    {s : SessionState}
    (htype : s.ss.type = .inlineCrypto ∨ s.ss.type = .inlineProtocol) :
    fillIpsecSession ans ctx key s = prepareSession ans s := by
  rw [fillIpsecSession]
  rcases htype with htype | htype
  · simp only [htype]
  · simp only [htype]

/-- A symmetric session is not of an inline type. -/
theorem SymmetricOn.not_inline {ans : Answers} {ctx : IpsecCtx} {key : CdevKey}
    {ss : FullSession} {dev : Nat} (h : SymmetricOn ans ctx key ss dev) :
    ss.type ≠ .inlineCrypto ∧ ss.type ≠ .inlineProtocol := by
  obtain ⟨i, -, -, htype⟩ := h
  rcases htype with htype | ⟨htype, -⟩
  · simp [htype]
  · simp [htype]

/-- The objects in use behind the creation of a symmetric session. -/
theorem Symmetric.used {ans : Answers} {i dev : Nat} {s : SessionState}
    {r : Int × SessionState} (h : Symmetric ans i dev s r) :
    r.2.pool.used
      = s.pool.used ++ if ans.symCreate then [s.pool.next] else [] := by
  rw [h.pool, symInit_used, rteCryptodevSymSessionCreate]
  split
  · rfl
  · exact (List.append_nil _).symm

/-- Where the call comes to the preparation: with the objects in use that the
    record has been given. -/
theorem fillIpsecSession_prepares {ans : Answers} {ctx : IpsecCtx} {key : CdevKey}
    {s : SessionState} (hses : s.ss.ses = none)
    (h : Prepares ans ctx key s.ss) :
    ∃ t, fillIpsecSession ans ctx key s = prepareSession ans t
      ∧ (s.ss.type = .none → t.pool.used
        = s.pool.used ++ if ans.symCreate then [s.pool.next] else []) := by
  rcases h with hinline | ⟨dev, hsym⟩ | ⟨htype, hmap, hsec⟩
  · refine ⟨s, fillIpsecSession_inline ans ctx key hinline, ?_⟩
    intro htype
    rw [htype] at hinline
    rcases hinline with h | h <;> cases h
  · obtain ⟨i, -, -, hleft⟩ := createLookasideSession_symmetric hsym
    obtain ⟨hcrypto, hprotocol⟩ := hsym.not_inline
    refine ⟨_, ?_, fun _ => hleft.used⟩
    rw [fillIpsecSession_lookaside ans ctx key hcrypto hprotocol, if_neg]
    exact not_not.mpr hleft.rc
  · have hsym : ∀ dev, ¬ SymmetricOn ans ctx key s.ss dev := by
      rintro dev ⟨i, -, -, h⟩
      rw [htype] at h
      rcases h with h | ⟨h, -⟩ <;> cases h
    have hrc : (createLookasideSession ans ctx key s).1 = 0 := by
      cases createLookasideSession_otherwise hses hsym with
      | failed _ _ hno =>
          rcases hno htype with h | h
          · exact absurd h hmap
          · rw [hsec] at h
            cases h
      | secured _ hrc _ _ _ _ => exact hrc
    refine ⟨(createLookasideSession ans ctx key s).2, ?_, ?_⟩
    · rw [fillIpsecSession_lookaside ans ctx key (by simp [htype]) (by simp [htype]),
        if_neg (not_not.mpr hrc)]
    · intro h
      rw [htype] at h
      cases h

/-- Where it does not, it has failed cleanly. -/
theorem fillIpsecSession_stops {ans : Answers} {ctx : IpsecCtx} {key : CdevKey}
    {s : SessionState} (hses : s.ss.ses = none)
    (h : ¬ Prepares ans ctx key s.ss) :
    Clean s (fillIpsecSession ans ctx key s).2 := by
  have hinline := not_or.mp (not_or.mp h).1
  obtain ⟨hsym, hsecured⟩ := not_or.mp (not_or.mp h).2
  rw [fillIpsecSession_lookaside ans ctx key hinline.1 hinline.2]
  cases createLookasideSession_otherwise hses (not_exists.mp hsym) with
  | failed hrc hclean _ =>
      rw [if_pos hrc]
      exact hclean
  | secured hmap _ htype hsec _ _ =>
      refine absurd ⟨htype, ?_, hsec⟩ hsecured
      rw [hmap]
      exact Option.some_ne_none _

/-- **CLEAN FAILURES**: exactly when a record that is prepared can be prepared,
    or has nothing that could be forgotten. -/
theorem fillsClean_iff (ans : Answers) (ctx : IpsecCtx) (key : CdevKey)
    {s : SessionState} (hses : s.ss.ses = none) :
    FillsClean ans ctx key s ↔
      (Prepares ans ctx key s.ss → ans.prepare = 0
        ∨ s.ss.type = .none ∧ s.ss.sa = none ∧ ans.symCreate = false) := by
  by_cases hprep : Prepares ans ctx key s.ss
  · obtain ⟨t, hfill, hused⟩ := fillIpsecSession_prepares hses hprep
    rw [FillsClean, hfill, prepareSession]
    by_cases hrc : ans.prepare = 0
    · rw [if_neg (not_not.mpr hrc)]
      exact ⟨fun _ _ => .inl hrc, fun _ h => absurd rfl h⟩
    · rw [if_pos hrc]
      constructor
      · intro hclean _
        have hclean := hclean hrc
        have htype : s.ss.type = .none := hclean.type.symm
        refine .inr ⟨htype, hclean.sa.symm, ?_⟩
        -- an object that was taken is in use, and the record is zero
        by_contra hcreate
        have hmem : s.pool.next ∈ t.pool.used := by
          rw [hused htype, if_pos (by simpa using hcreate)]
          exact List.mem_append_right _ (List.mem_singleton_self _)
        rcases hclean.noLeak _ hmem with h | h
        · exact Nat.lt_irrefl _ (s.pool.numbered _ h)
        · cases h
      · intro h _
        rcases h hprep with h | ⟨htype, hsa, hcreate⟩
        · exact absurd h hrc
        · refine ⟨htype.symm, hsa.symm, rfl, ?_⟩
          intro id hid
          have hid : id ∈ t.pool.used := hid
          rw [hused htype, if_neg (by simp [hcreate]), List.append_nil] at hid
          exact .inl hid
  · exact ⟨fun _ h => absurd h hprep,
      fun _ _ => fillIpsecSession_stops hses hprep⟩

/-! ## The same calls in `IpsecModel` -/

/-- The world holds what the calls work on. -/
structure Shows (w : World) (p : MbufModel.SaPtr) (fallback : Bool)
    (s : SessionState) : Prop where
  record : session (w.sa p) fallback = s.ss.toRteIpsecSession
  cdevIdQp : (w.sa p).cdevIdQp = s.cdevIdQp
  next : w.nextSes = s.pool.next
  dev : ∀ id d, s.pool.dev id = some d → w.sesDev id = d

/-- An object has been asked for; a device may know it now. -/
structure Taken (new : Bool) (dev : Nat) (p p' : Pool) : Prop where
  next : p'.next = if new then p.next + 1 else p.next
  dev : ∀ id d, p'.dev id = some d →
    p.dev id = some d ∨ new = true ∧ id = p.next ∧ d = dev

theorem initOn_dev {p : Pool} {dev : Nat} {id : SesId} {d : Nat}
    (h : (p.take.initOn p.next dev (Nat.lt_succ_self _)).dev id = some d) :
    p.dev id = some d ∨ true = true ∧ id = p.next ∧ d = dev := by
  have h : Function.update p.dev p.next (some dev) id = some d := h
  by_cases hid : id = p.next
  · rw [hid, Function.update_self] at h
    exact .inr ⟨rfl, hid, (Option.some.inj h).symm⟩
  · rw [Function.update_of_ne hid] at h
    exact .inl h

@[simp] theorem setSession_cdevIdQp (sa : IpsecSa) (fallback : Bool)
    (ss : RteIpsecSession) : (setSession sa fallback ss).cdevIdQp = sa.cdevIdQp := by
  cases fallback <;> rfl

theorem symmetric_taken (ans : Answers) (dev : Nat) (p : Pool) :
    Taken ans.symCreate dev p (rteCryptodevSymSessionInit ans dev
      (rteCryptodevSymSessionCreate ans p).1 (rteCryptodevSymSessionCreate ans p).2).2 := by
  rw [rteCryptodevSymSessionCreate]
  cases ans.symCreate with
  | false => exact ⟨rfl, fun _ _ h => .inl h⟩
  | true =>
      rw [if_pos rfl, rteCryptodevSymSessionInit]
      split
      · exact ⟨rfl, fun _ _ h => initOn_dev h⟩
      · exact ⟨rfl, fun _ _ h => .inl h⟩

theorem security_taken (ans : Answers) (dev : Nat) (p : Pool) :
    Taken ans.secCreate dev p (rteSecuritySessionCreate ans dev p).2 := by
  rw [rteSecuritySessionCreate]
  cases ans.secCreate with
  | false => exact ⟨rfl, fun _ _ h => .inl h⟩
  | true => exact ⟨rfl, fun _ _ h => initOn_dev h⟩

/-- The record with the object that was asked for. -/
theorem attachObject_shows {env : Env} {w : World} {p : MbufModel.SaPtr}
    {fallback : Bool} {s : SessionState} {dev : Nat} (ss : FullSession) {pool : Pool}
    (h : Shows w p fallback s)
    (htaken : Taken (env.newSession w.tick) dev s.pool pool)
    (hss : ss.toRteIpsecSession = { s.ss.toRteIpsecSession with
      ses := if env.newSession w.tick then some s.pool.next else none }) :
    Shows (attachObject env p fallback dev w) p fallback
      { s with ss := ss, pool := pool } := by
  obtain ⟨hnext, hdev⟩ := htaken
  rw [attachObject]
  -- the object is there or the pointer is null
  cases hnew : env.newSession w.tick with
  | false =>
      rw [hnew] at hnext hss
      refine ⟨?_, ?_, h.next.trans hnext.symm, ?_⟩
      · show session (Function.update w.sa p _ p) fallback = _
        rw [Function.update_self, session_setSession, h.record, hss]
        rfl
      · show (Function.update w.sa p _ p).cdevIdQp = _
        rw [Function.update_self, setSession_cdevIdQp]
        exact h.cdevIdQp
      · intro id d hid
        rcases hdev id d hid with hold | ⟨htrue, -, -⟩
        · exact h.dev id d hold
        · rw [hnew] at htrue
          cases htrue
  | true =>
      rw [hnew] at hnext hss
      refine ⟨?_, ?_, ?_, ?_⟩
      · show session (Function.update w.sa p _ p) fallback = _
        rw [Function.update_self, session_setSession, h.record, hss, h.next]
        rfl
      · show (Function.update w.sa p _ p).cdevIdQp = _
        rw [Function.update_self, setSession_cdevIdQp]
        exact h.cdevIdQp
      · exact (congrArg (· + 1) h.next).trans hnext.symm
      · intro id d hid
        show Function.update w.sesDev w.nextSes dev id = d
        rw [h.next]
        rcases hdev id d hid with hold | ⟨-, rfl, rfl⟩
        · -- an object that was known before is not the new one
          rw [Function.update_of_ne]
          · exact h.dev id d hold
          · rintro rfl
            rw [s.pool.blank _ (Nat.le_refl _)] at hold
            cases hold
        · rw [Function.update_self]

theorem Shows.index {w : World} {p : MbufModel.SaPtr} {fallback : Bool}
    {s : SessionState} (h : Shows w p fallback s) (num : UInt32) :
    Shows (w.modifySa p fun sa => { sa with cdevIdQp := num }) p fallback
      { s with cdevIdQp := num } := by
  refine ⟨?_, ?_, h.next, h.dev⟩
  · show session (Function.update w.sa p _ p) fallback = _
    rw [Function.update_self, ← h.record]
    cases fallback <;> rfl
  · show (Function.update w.sa p _ p).cdevIdQp = _
    rw [Function.update_self]

/-- The two models get the same answers at the tick of the world. -/
structure Agree (env : Env) (t : Nat) (ans : Answers) : Prop where
  cpuCrypto : ans.cpuCrypto = env.cpuCrypto
  symCreate : ans.symCreate = env.newSession t
  secCreate : ans.secCreate = env.newSession t

/-- **THE SAME CREATION**: what `IpsecModel` does, whatever the device says to
    the initialisation. -/
theorem createLookasideSession_refines {env : Env} {ans : Answers} (ctx : IpsecCtx)
    {w : World} {p : MbufModel.SaPtr} {fallback : Bool} {s : SessionState}
    (h : Shows w p fallback s) (hagree : Agree env w.tick ans) :
    let r := createLookasideSession ans ctx (sessionKey env (w.sa p)) s
    let r' := IpsecModel.createLookasideSession env ctx p fallback w
    r'.1 = r.1 ∧ Shows r'.2 p fallback r.2 := by
  obtain ⟨hcpu, hsym, hsec⟩ := hagree
  have htype : (session (w.sa p) fallback).type = s.ss.type := by rw [h.record]
  rw [createLookasideSession, IpsecModel.createLookasideSession, htype]
  cases ctx.cdevMap (sessionKey env (w.sa p)) with
  | none => exact ⟨rfl, h⟩
  | some i =>
      have htaken := symmetric_taken ans (ctx.tbl i).id s.pool
      rw [hsym] at htaken
      -- the symmetric session of the code is the object of the model
      have hses : (rteCryptodevSymSessionCreate ans s.pool).1
          = if env.newSession w.tick then some s.pool.next else none := by
        rw [rteCryptodevSymSessionCreate, hsym]
        split <;> rfl
      dsimp only
      cases htype : s.ss.type with
      | none =>
          refine ⟨rfl, Shows.index (attachObject_shows _ h htaken ?_) _⟩
          rw [← hses, ← htype]
      | inlineCrypto => exact ⟨rfl, h⟩
      | inlineProtocol => exact ⟨rfl, h⟩
      | cpuCrypto =>
          dsimp only
          rw [hcpu]
          split
          · exact ⟨rfl, h⟩
          · refine ⟨rfl, Shows.index (attachObject_shows _ h htaken ?_) _⟩
            rw [← hses, ← htype]
      | lookasideProtocol =>
          -- here the security library hands it out
          have htaken := security_taken ans (ctx.tbl i).id s.pool
          rw [hsec] at htaken
          have hses : (rteSecuritySessionCreate ans (ctx.tbl i).id s.pool).1
              = if env.newSession w.tick then some s.pool.next else none := by
            rw [rteSecuritySessionCreate, hsec]
            split <;> rfl
          have hshows := attachObject_shows { s.ss with
            ses := (rteSecuritySessionCreate ans (ctx.tbl i).id s.pool).1 }
            h htaken (by rw [← hses])
          dsimp only at hshows ⊢
          rw [htype] at hshows
          rw [hshows.record]
          split
          · exact ⟨rfl, hshows⟩
          · exact ⟨rfl, hshows.index _⟩

/-- Writing the record. -/
theorem Shows.record_set {w : World} {p : MbufModel.SaPtr} {fallback : Bool}
    {s : SessionState} (h : Shows w p fallback s) (ss : FullSession) :
    Shows (w.modifySa p fun sa => setSession sa fallback ss.toRteIpsecSession) p
      fallback { s with ss := ss } := by
  refine ⟨?_, ?_, h.next, h.dev⟩
  · show session (Function.update w.sa p _ p) fallback = _
    rw [Function.update_self, session_setSession]
  · show (Function.update w.sa p _ p).cdevIdQp = _
    rw [Function.update_self, setSession_cdevIdQp]
    exact h.cdevIdQp

theorem Shows.prepare {env : Env} {ans : Answers} {w : World}
    {p : MbufModel.SaPtr} {fallback : Bool} {s : SessionState}
    (h : Shows w p fallback s) (hans : ans.prepare = env.sessionPrepare w.tick) :
    let r := prepareSession ans s
    let r' : Int × World :=
      if env.sessionPrepare w.tick ≠ 0 then
        (env.sessionPrepare w.tick,
          w.next.modifySa p fun sa => setSession sa fallback {})
      else (0, w.next)
    r'.1 = r.1 ∧ Shows r'.2 p fallback r.2 := by
  have hnext : Shows w.next p fallback s := ⟨h.record, h.cdevIdQp, h.next, h.dev⟩
  rw [prepareSession, hans]
  split
  · exact ⟨rfl, hnext.record_set {}⟩
  · exact ⟨rfl, hnext⟩

/-- **THE SAME FILLING**: every call of `IpsecModel` is one of those above, whatever
    the device says to the initialisation. -/
theorem fillIpsecSession_refines (env : Env) (ctx : IpsecCtx) {w : World}
    {p : MbufModel.SaPtr} {fallback : Bool} {s : SessionState}
    (h : Shows w p fallback s) (init : Nat → SesId → Int) :
    ∃ ans : Answers, Agree env w.tick ans ∧ ans.symInit = init
      ∧ (IpsecModel.fillIpsecSession env ctx p fallback w).1
        = (fillIpsecSession ans ctx (sessionKey env (w.sa p)) s).1
      ∧ Shows (IpsecModel.fillIpsecSession env ctx p fallback w).2 p fallback
        (fillIpsecSession ans ctx (sessionKey env (w.sa p)) s).2 := by
  have htype : (session (w.sa p) fallback).type = s.ss.type := by rw [h.record]
  -- the preparation is asked for at the tick the creation leaves
  let asked : Int × World :=
    if s.ss.type = .inlineCrypto ∨ s.ss.type = .inlineProtocol then (0, w)
    else IpsecModel.createLookasideSession env ctx p fallback w
  let ans : Answers := {
    cpuCrypto := env.cpuCrypto
    symCreate := env.newSession w.tick
    symInit := init
    secCreate := env.newSession w.tick
    prepare := env.sessionPrepare asked.2.tick }
  have hagree : Agree env w.tick ans := ⟨rfl, rfl, rfl⟩
  refine ⟨ans, hagree, rfl, ?_⟩
  have hfill : IpsecModel.fillIpsecSession env ctx p fallback w
      = if asked.1 ≠ 0 then asked
        else if env.sessionPrepare asked.2.tick ≠ 0 then
          (env.sessionPrepare asked.2.tick,
            asked.2.next.modifySa p fun sa => setSession sa fallback {})
        else (0, asked.2.next) := by
    rw [IpsecModel.fillIpsecSession, htype]
    cases hty : s.ss.type <;> simp [asked, hty]
  rw [hfill]
  by_cases hinline : s.ss.type = .inlineCrypto ∨ s.ss.type = .inlineProtocol
  · have hasked : asked = (0, w) := if_pos hinline
    rw [fillIpsecSession_inline ans ctx _ hinline, if_neg (by rw [hasked]; simp)]
    rw [hasked]
    exact h.prepare (by rw [← congrArg (fun x : Int × World => x.2.tick) hasked])
  · have hasked : asked = IpsecModel.createLookasideSession env ctx p fallback w :=
      if_neg hinline
    obtain ⟨hcrypto, hprotocol⟩ := not_or.mp hinline
    obtain ⟨hrc, hshows⟩ := createLookasideSession_refines ctx h hagree
    rw [← hasked] at hrc hshows
    rw [fillIpsecSession_lookaside ans ctx _ hcrypto hprotocol, ← hrc]
    split
    · exact ⟨hrc, hshows⟩
    · exact hshows.prepare rfl

/-! ## Both calls -/

/-- **SESSION CREATION**: when the return codes can be relied on.  On a record
    without an object, `create_lookaside_session` is sound exactly when a
    symmetric session that is tried gets an object the device initialises, and
    `fill_ipsec_session` fails cleanly exactly when a record that comes to the
    preparation is prepared, or had neither type, SA nor object. -/
theorem session_creation (ans : Answers) {ctx : IpsecCtx} {key : CdevKey}
    {s : SessionState} (hses : s.ss.ses = none)
    (hmap : ∀ i, ctx.cdevMap key = some i → i < maxQpPerLcore) :
    (CreatesSound ans ctx key s ↔
      ∀ dev, SymmetricOn ans ctx key s.ss dev →
        ans.symCreate = true ∧ ans.symInit dev s.pool.next = 0)
    ∧ (FillsClean ans ctx key s ↔
      (Prepares ans ctx key s.ss → ans.prepare = 0
        ∨ s.ss.type = .none ∧ s.ss.sa = none ∧ ans.symCreate = false)) :=
  ⟨createsSound_iff ans hses hmap, fillsClean_iff ans ctx key hses⟩

/-- Devices that support `CPU_CRYPTO`, with session objects or without; a
    record without an object or without an SA cannot be prepared. -/
def refusing (objects : Bool) : Answers where
  cpuCrypto := fun _ => true
  symCreate := objects
  symInit := fun _ _ => 0
  secCreate := objects
  prepare := einval

/-- A context with one queue, on device 3, and the key of every SA. -/
def oneQueue : IpsecCtx where
  cdevMap := fun _ => some 0
  nbQps := 1
  tbl := fun _ => { id := 3, qp := 0 }

def anyKey : CdevKey := ⟨1, 0, 0, 0⟩

/-- A `CPU_CRYPTO` record of an SA before its first packet. -/
def freshRecord : SessionState where
  ss := { type := .cpuCrypto, sa := some 0 }
  pool := Pool.full

theorem session_creation_fresh :
    (CreatesSound (refusing true) oneQueue anyKey freshRecord ↔
      ∀ dev, SymmetricOn (refusing true) oneQueue anyKey freshRecord.ss dev →
        true = true ∧ (0 : Int) = 0)
    ∧ (FillsClean (refusing true) oneQueue anyKey freshRecord ↔
      (Prepares (refusing true) oneQueue anyKey freshRecord.ss → einval = 0
        ∨ freshRecord.ss.type = .none ∧ freshRecord.ss.sa = none
          ∧ true = false)) := by
  refine session_creation (refusing true) rfl ?_
  intro i hi
  obtain rfl : 0 = i := Option.some.inj hi
  decide

/-- **FORGOTTEN**: with the mempool empty, `create_lookaside_session` returns 0
    without an object; the record cannot be prepared and is zeroed.  The next
    packet tries again with the wrong type and without the SA, and this time an
    object is taken, and forgotten. -/
theorem session_creation_forgets :
    ¬ CreatesSound (refusing false) oneQueue anyKey freshRecord
      ∧ ¬ FillsClean (refusing false) oneQueue anyKey freshRecord
      ∧ let t := (fillIpsecSession (refusing false) oneQueue anyKey freshRecord).2
        t.ss.type = .none ∧ t.ss.sa = none
          ∧ ¬ FillsClean (refusing true) oneQueue anyKey t
          ∧ ¬ NoLeak t (fillIpsecSession (refusing true) oneQueue anyKey t).2 := by
  have hleak : ¬ NoLeak
      (fillIpsecSession (refusing false) oneQueue anyKey freshRecord).2
      (fillIpsecSession (refusing true) oneQueue anyKey
        (fillIpsecSession (refusing false) oneQueue anyKey freshRecord).2).2 := by
    intro h
    rcases h 0 (by decide) with h | h
    · exact absurd h (by decide)
    · exact absurd h (by decide)
  refine ⟨?_, ?_, rfl, rfl, ?_, hleak⟩
  · rintro ⟨h, -⟩
    obtain ⟨id, hid, -⟩ := h rfl
    cases hid
  · intro h
    exact absurd (h (by decide)).type (by decide)
  · intro h
    exact hleak (h (by decide)).noLeak

end Session
