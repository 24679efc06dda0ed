import Mathlib.Data.List.Induction
import IpsecSecgw.SadCacheProofs

/-! # Histories of `ipsec_sad_add`

    A SA of a tunnel goes into one family, one of transport mode into the
    families whose rules name its SPI, first IPv4, then IPv6.  Both tables keep
    one SA a SPI in every history; but a call that enters a SA for IPv4 and is
    then refused for IPv6 (`Torn`) returns an error and does not take the first
    entry back, and a rule that the binary search does not find (`Missed`)
    selects no family. -/

namespace SadAdding

open ByteStore SaModel MbufModel SpiSearch Slots SadModel Sad SadCaching

variable {lib : SadLib} {t : Tables} {mem : SaPtr → IpsecSa}

/-! ## One call -/

/-- The answers of both tables are the same for every key. -/
def SameTables (sad sad' : IpsecSad lib) : Prop :=
  ∀ isV4 k, answer lib (sad'.table isV4) k = answer lib (sad.table isV4) k

/-- A family table holds the SA. -/
def Holds (sad : IpsecSad lib) (isV4 : Bool) (p : SaPtr) : Prop :=
  ∃ k, answer lib (sad.table isV4) k = some p

/-- The inbound rules of a family. -/
def rules (t : Tables) (isV4 : Bool) : List AclRules :=
  if isV4 then t.acl4RulesIn else t.acl6RulesIn

/-- The mode of a SA selects a family, or a rule that names its SPI does. -/
def Selected (t : Tables) (sa : IpsecSa) (isV4 : Bool) : Prop :=
  withoutTransportVersion sa.flags = (if isV4 then ip4Tunnel else ip6Tunnel)
    ∨ withoutTransportVersion sa.flags = transport
      ∧ ∃ r ∈ rules t isV4, r.userdata = sa.spi

/-- A rule that is found is there. -/
theorem arrPresent_sound {acr : List AclRules} {spi : UInt32}
    (h : 0 ≤ arrPresent spCmp { userdata := spi } (fun i => acr.getD i default)
      acr.length) : ∃ r ∈ acr, r.userdata = spi := by
  rw [arrPresent] at h
  split at h
  · rename_i i hi
    obtain ⟨hlt, hzero⟩ := HalvingSearch.bsearch_sound hi
    rw [List.getD_eq_getElem _ _ hlt] at hzero
    exact ⟨_, List.getElem_mem hlt, ((spiDiff_eq_zero _ _).mp hzero).symm⟩
  · exact absurd h (by decide)

/-- The code enters a SA into selected families only. -/
theorem selected_of_selects {sa : IpsecSa} {isV4 : Bool} (h : selects t sa isV4 = true) :
    Selected t sa isV4 := by
  rw [selects] at h
  cases isV4 with
  | true =>
      rw [if_pos rfl, Bool.or_eq_true, Bool.and_eq_true, beq_iff_eq, beq_iff_eq,
        decide_eq_true_iff] at h
      exact h.imp_right fun hrule => ⟨hrule.1, arrPresent_sound hrule.2⟩
  | false =>
      rw [if_neg Bool.false_ne_true, Bool.or_eq_true, Bool.and_eq_true, beq_iff_eq,
        beq_iff_eq, decide_eq_true_iff] at h
      exact h.imp_right fun hrule => ⟨hrule.1, arrPresent_sound hrule.2⟩

/-- The SA is entered for IPv4 and refused for IPv6. -/
def Torn (t : Tables) (mem : SaPtr → IpsecSa) (sad : IpsecSad lib) (p : SaPtr) : Prop :=
  selects t (mem p) true = true ∧ selects t (mem p) false = true
    ∧ Accepts lib sad.sadV4 (keyOf (mem p) true) p
    ∧ ¬ Accepts lib sad.sadV6 (keyOf (mem p) false) p

/-- A family takes the SA if it is selected. -/
def Takes (t : Tables) (mem : SaPtr → IpsecSa) (sad : IpsecSad lib) (p : SaPtr)
    (isV4 : Bool) : Prop :=
  selects t (mem p) isV4 = true →
    Accepts lib (sad.table isV4) (keyOf (mem p) isV4) p

/-- The SA is not refused, and not found for a family it selects. -/
def Missed (t : Tables) (mem : SaPtr → IpsecSa) (sad : IpsecSad lib) (p : SaPtr) :
    Prop :=
  (∀ isV4, Takes t mem sad p isV4)
    ∧ ∃ isV4, Selected t (mem p) isV4 ∧ selects t (mem p) isV4 = false

/-- What a family answers behind an accepted entry. -/
def Entered (t : Tables) (mem : SaPtr → IpsecSa) (sad sad' : IpsecSad lib) (p : SaPtr)
    (isV4 : Bool) : Prop :=
  ∀ k, answer lib (sad'.table isV4) k
    = if selects t (mem p) isV4 = true ∧ k.spi = toBe 4 (mem p).spi.toNat then some p
      else answer lib (sad.table isV4) k

theorem addWhere_taken {c : Bool} {table : Option lib.Table} {key : SadKey} {p : SaPtr}
    (h : c = true → Accepts lib table key p) :
    (addWhere lib c table key p).1 = 0 ∧
      ∀ k, answer lib (addWhere lib c table key p).2 k
        = if c = true ∧ k.spi = key.spi then some p else answer lib table k := by
  cases c with
  | true =>
      obtain ⟨hrc, -, hnew⟩ := addFamily_accepted (h rfl)
      refine ⟨hrc, fun k => (hnew k).trans ?_⟩
      simp
  | false =>
      refine ⟨rfl, fun k => ?_⟩
      simp [addWhere]

theorem addWhere_refused {c : Bool} {table : Option lib.Table} {key : SadKey}
    {p : SaPtr} (h : ¬ (c = true → Accepts lib table key p)) :
    (addWhere lib c table key p).1 ≠ 0 ∧
      ∀ k, answer lib (addWhere lib c table key p).2 k = answer lib table k := by
  rw [Classical.not_imp] at h
  obtain ⟨rfl, hnot⟩ := h
  exact addFamily_refused hnot

/-- **A CALL THAT SUCCEEDS** has entered the SA into every family it selects. -/
theorem ipsecSadAdd_taken {sad : IpsecSad lib} {p : SaPtr}
    (h : ∀ isV4, Takes t mem sad p isV4) :
    (ipsecSadAdd lib t mem sad p).1 = 0
      ∧ ∀ isV4, Entered t mem sad (ipsecSadAdd lib t mem sad p).2 p isV4 := by
  obtain ⟨hrc4, hnew4⟩ := addWhere_taken (h true)
  obtain ⟨hrc6, hnew6⟩ := addWhere_taken (h false)
  change (addWhere lib _ sad.sadV4 _ _).1 = 0 at hrc4
  rw [ipsecSadAdd_eq]
  dsimp only
  rw [if_neg (not_not.mpr hrc4)]
  refine ⟨hrc6, fun isV4 => ?_⟩
  cases isV4 with
  | true => exact hnew4
  | false => exact hnew6

/-- **A CALL THAT FAILS** leaves both tables, unless it is torn. -/
theorem ipsecSadAdd_failed {sad : IpsecSad lib} {p : SaPtr}
    (h : ¬ ∀ isV4, Takes t mem sad p isV4) :
    (ipsecSadAdd lib t mem sad p).1 ≠ 0
      ∧ (¬ Torn t mem sad p → SameTables sad (ipsecSadAdd lib t mem sad p).2) := by
  rw [ipsecSadAdd_eq]
  dsimp only
  by_cases h4 : Takes t mem sad p true
  · have h6 : ¬ Takes t mem sad p false := by
      intro h6
      refine h fun isV4 => ?_
      cases isV4 with
      | true => exact h4
      | false => exact h6
    obtain ⟨hrc4, hnew4⟩ := addWhere_taken h4
    obtain ⟨hrc6, hsame6⟩ := addWhere_refused h6
    change (addWhere lib _ sad.sadV4 _ _).1 = 0 at hrc4
    rw [if_neg (not_not.mpr hrc4)]
    refine ⟨hrc6, fun hwhole isV4 k => ?_⟩
    cases isV4 with
    | false => exact hsame6 k
    | true =>
        have hnot : selects t (mem p) true ≠ true := by
          intro hsel
          rw [Takes, Classical.not_imp] at h6
          exact hwhole ⟨hsel, h6.1, h4 hsel, h6.2⟩
        refine (hnew4 k).trans (if_neg fun hk => hnot hk.1)
  · obtain ⟨hrc4, hsame4⟩ := addWhere_refused h4
    change (addWhere lib _ sad.sadV4 _ _).1 ≠ 0 at hrc4
    rw [if_pos hrc4]
    refine ⟨hrc4, fun _ isV4 k => ?_⟩
    cases isV4 with
    | true => exact hsame4 k
    | false => rfl

/-- A torn call returns an error and leaves the IPv4 table changed. -/
theorem ipsecSadAdd_torn {sad : IpsecSad lib} {p : SaPtr} (h : Torn t mem sad p) :
    (ipsecSadAdd lib t mem sad p).1 ≠ 0
      ∧ ¬ SameTables sad (ipsecSadAdd lib t mem sad p).2 := by
  obtain ⟨hsel4, hsel6, hacc, hnot⟩ := h
  have hfail : ¬ ∀ isV4, Takes t mem sad p isV4 := fun hall => hnot (hall false hsel6)
  refine ⟨(ipsecSadAdd_failed hfail).1, fun hsame => ?_⟩
  obtain ⟨hrc, hfree, hnew⟩ := addFamily_accepted hacc
  have hnow := hsame true (keyOf (mem p) true)
  rw [ipsecSadAdd_eq, hsel4] at hnow
  dsimp only at hnow
  change (addFamily lib sad.sadV4 (keyOf (mem p) true) p).1 = 0 at hrc
  rw [addWhere, if_pos rfl, if_neg (not_not.mpr hrc)] at hnow
  change answer lib (addFamily lib sad.sadV4 _ p).2 _ = answer lib sad.sadV4 _ at hnow
  rw [hnew, if_pos rfl, hfree] at hnow
  cases hnow

/-! ## Histories -/

/-- The tables as `ipsec_sad_create` leaves them. -/
def created (lib : SadLib) (v4 v6 : Bool) : IpsecSad lib :=
  ⟨if v4 then some lib.empty else none, if v6 then some lib.empty else none⟩

/-- One call, with what it returns written down. -/
def addStep (lib : SadLib) (t : Tables) (mem : SaPtr → IpsecSa)
    (s : IpsecSad lib × List (SaPtr × Int)) (p : SaPtr) :
    IpsecSad lib × List (SaPtr × Int) :=
  let r := ipsecSadAdd lib t mem s.1 p
  (r.2, s.2 ++ [(p, r.1)])

/-- A history of calls. -/
def runAdds (lib : SadLib) (t : Tables) (mem : SaPtr → IpsecSa) (v4 v6 : Bool)
    (ps : List SaPtr) : IpsecSad lib × List (SaPtr × Int) :=
  ps.foldl (addStep lib t mem) (created lib v4 v6, [])

/-- What a history of calls should be: one SA a SPI in each family, a SA in a
    family when a call for it has succeeded and selects the family, and both
    tables as they were where a call fails. -/
structure AddsRight (lib : SadLib) (t : Tables) (mem : SaPtr → IpsecSa)
    (v4 v6 : Bool) (ps : List SaPtr) : Prop where
  unique : ∀ isV4 p q, Holds (runAdds lib t mem v4 v6 ps).1 isV4 p →
    Holds (runAdds lib t mem v4 v6 ps).1 isV4 q → (mem p).spi = (mem q).spi → p = q
  member : ∀ isV4 p, Holds (runAdds lib t mem v4 v6 ps).1 isV4 p
    ↔ (p, 0) ∈ (runAdds lib t mem v4 v6 ps).2 ∧ Selected t (mem p) isV4
  failed : ∀ qs p, qs ++ [p] <+: ps →
    (ipsecSadAdd lib t mem (runAdds lib t mem v4 v6 qs).1 p).1 ≠ 0 →
    SameTables (runAdds lib t mem v4 v6 qs).1
      (ipsecSadAdd lib t mem (runAdds lib t mem v4 v6 qs).1 p).2

section histories

variable {v4 v6 : Bool}

theorem runAdds_concat (ps : List SaPtr) (p : SaPtr) :
    runAdds lib t mem v4 v6 (ps ++ [p])
      = addStep lib t mem (runAdds lib t mem v4 v6 ps) p := by
  rw [runAdds, List.foldl_append]
  rfl

/-- Histories build an SAD. -/
theorem runAdds_built (lib : SadLib) (t : Tables) (mem : SaPtr → IpsecSa)
    (v4 v6 : Bool) (ps : List SaPtr) :
    Built lib mem t (runAdds lib t mem v4 v6 ps).1 := by
  induction ps using List.reverseRecOn with
  | nil => exact Built.create v4 v6
  | append_singleton ps p ih =>
      rw [runAdds_concat]
      exact ih.add p

/-- The tables of a history answer by SPI, with the SA that has it. -/
theorem answer_spi (lib : SadLib) (t : Tables) (mem : SaPtr → IpsecSa) (v4 v6 : Bool)
    (ps : List SaPtr) (isV4 : Bool) :
    (∀ k p, answer lib ((runAdds lib t mem v4 v6 ps).1.table isV4) k = some p →
        k.spi = toBe 4 (mem p).spi.toNat)
      ∧ ∀ k k', k.spi = k'.spi →
        answer lib ((runAdds lib t mem v4 v6 ps).1.table isV4) k
          = answer lib ((runAdds lib t mem v4 v6 ps).1.table isV4) k' := by
  obtain ⟨hok4, hok6⟩ := (runAdds_built lib t mem v4 v6 ps).tableOk
  have hok : ∀ tbl, (runAdds lib t mem v4 v6 ps).1.table isV4 = some tbl →
      TableOk lib mem tbl := by
    cases isV4 with
    | true => exact hok4
    | false => exact hok6
  cases htable : (runAdds lib t mem v4 v6 ps).1.table isV4 with
  | none =>
      refine ⟨fun k p h => ?_, fun _ _ _ => rfl⟩
      cases h
  | some tbl => exact ⟨(hok tbl htable).own, (hok tbl htable).spiOnly⟩

/-- **ONE SA A SPI**, in every history. -/
theorem holds_unique (ps : List SaPtr) {isV4 : Bool} {p q : SaPtr}
    (hp : Holds (runAdds lib t mem v4 v6 ps).1 isV4 p)
    (hq : Holds (runAdds lib t mem v4 v6 ps).1 isV4 q)
    (hspi : (mem p).spi = (mem q).spi) : p = q := by
  obtain ⟨hown, hspiOnly⟩ := answer_spi lib t mem v4 v6 ps isV4
  obtain ⟨k, hk⟩ := hp
  obtain ⟨k', hk'⟩ := hq
  have hsame : k.spi = k'.spi := by rw [hown k p hk, hown k' q hk', hspi]
  rw [hspiOnly k k' hsame, hk'] at hk
  exact (Option.some.inj hk).symm

/-- A SA that is held answers for its own key. -/
theorem holds_iff (ps : List SaPtr) (isV4 : Bool) (p : SaPtr) :
    Holds (runAdds lib t mem v4 v6 ps).1 isV4 p
      ↔ answer lib ((runAdds lib t mem v4 v6 ps).1.table isV4) (keyOf (mem p) isV4)
        = some p := by
  obtain ⟨hown, hspiOnly⟩ := answer_spi lib t mem v4 v6 ps isV4
  constructor
  · rintro ⟨k, hk⟩
    rw [← hk]
    exact hspiOnly _ _ (hown k p hk).symm
  · intro h
    exact ⟨_, h⟩

/-- No call of the history is torn. -/
def NoneTorn (lib : SadLib) (t : Tables) (mem : SaPtr → IpsecSa) (v4 v6 : Bool)
    (ps : List SaPtr) : Prop :=
  ∀ qs p, qs ++ [p] <+: ps → ¬ Torn t mem (runAdds lib t mem v4 v6 qs).1 p

theorem NoneTorn.initial {qs ps : List SaPtr} (h : NoneTorn lib t mem v4 v6 ps)
    (hpre : qs <+: ps) : NoneTorn lib t mem v4 v6 qs :=
  fun rs p hrs => h rs p (hrs.trans hpre)

/-- **ONE STEP** keeps the tables to what the calls have returned. -/
theorem holds_step {ps : List SaPtr} {p : SaPtr}
    (hwhole : ¬ Torn t mem (runAdds lib t mem v4 v6 ps).1 p)
    (h : ∀ isV4 q, Holds (runAdds lib t mem v4 v6 ps).1 isV4 q
      ↔ (q, 0) ∈ (runAdds lib t mem v4 v6 ps).2 ∧ selects t (mem q) isV4 = true)
    (isV4 : Bool) (q : SaPtr) :
    Holds (runAdds lib t mem v4 v6 (ps ++ [p])).1 isV4 q
      ↔ (q, 0) ∈ (runAdds lib t mem v4 v6 (ps ++ [p])).2
        ∧ selects t (mem q) isV4 = true := by
  rw [runAdds_concat, addStep]
  dsimp only
  rw [List.mem_append, List.mem_singleton]
  by_cases hall : ∀ fam, Takes t mem (runAdds lib t mem v4 v6 ps).1 p fam
  · obtain ⟨hrc, hnew⟩ := ipsecSadAdd_taken hall
    rw [hrc]
    constructor
    · rintro ⟨k, hk⟩
      rw [hnew isV4 k] at hk
      split at hk
      · rename_i hsel
        obtain rfl := Option.some.inj hk
        exact ⟨.inr rfl, hsel.1⟩
      · obtain ⟨hlog, hsel⟩ := (h isV4 q).mp ⟨k, hk⟩
        exact ⟨.inl hlog, hsel⟩
    · rintro ⟨hlog | hlast, hsel⟩
      · have hold := (h isV4 q).mpr ⟨hlog, hsel⟩
        have hkey := (holds_iff ps isV4 q).mp hold
        -- the SPI of the new SA was free
        refine ⟨keyOf (mem q) isV4, (hnew isV4 _).trans ?_⟩
        rw [if_neg, hkey]
        rintro ⟨hselp, hspi⟩
        obtain ⟨tbl, htbl, hfree, -⟩ := hall isV4 hselp
        have hspiOnly := (answer_spi lib t mem v4 v6 ps isV4).2
        rw [hspiOnly (keyOf (mem q) isV4) (keyOf (mem p) isV4) hspi, htbl] at hkey
        exact absurd (hfree.symm.trans hkey) (by simp)
      · obtain ⟨rfl, -⟩ := Prod.mk.inj hlast
        exact ⟨keyOf (mem q) isV4, (hnew isV4 _).trans (if_pos ⟨hsel, rfl⟩)⟩
  · obtain ⟨hrc, hsame⟩ := ipsecSadAdd_failed hall
    have hsame := hsame hwhole
    have hlast : ¬ (q, (0 : Int)) = (p, (ipsecSadAdd lib t mem
        (runAdds lib t mem v4 v6 ps).1 p).1) := by
      intro heq
      exact hrc (Prod.mk.inj heq).2.symm
    have hholds : Holds (ipsecSadAdd lib t mem (runAdds lib t mem v4 v6 ps).1 p).2 isV4 q
        ↔ Holds (runAdds lib t mem v4 v6 ps).1 isV4 q :=
      exists_congr fun k => by rw [hsame isV4 k]
    rw [hholds, h isV4 q]
    simp [hlast]

/-- The tables hold what the calls have entered. -/
theorem holds_of_noneTorn {ps : List SaPtr} (h : NoneTorn lib t mem v4 v6 ps) :
    ∀ isV4 p, Holds (runAdds lib t mem v4 v6 ps).1 isV4 p
      ↔ (p, 0) ∈ (runAdds lib t mem v4 v6 ps).2 ∧ selects t (mem p) isV4 = true := by
  induction ps using List.reverseRecOn with
  | nil =>
      intro isV4 p
      have hnothing : ∀ k, answer lib ((created lib v4 v6).table isV4) k = none := by
        intro k
        cases isV4 <;> cases v4 <;> cases v6
        all_goals first | rfl | exact lib.lookup_empty k
      constructor
      · rintro ⟨k, hk⟩
        exact absurd ((hnothing k).symm.trans hk) (by simp)
      · rintro ⟨hlog, -⟩
        cases hlog
  | append_singleton ps p ih =>
      exact holds_step (h ps p List.prefix_rfl) (ih (h.initial (List.prefix_append ps [p])))

/-- What is written down is what the calls have returned. -/
theorem mem_log {ps : List SaPtr} {p : SaPtr} {rc : Int} :
    (p, rc) ∈ (runAdds lib t mem v4 v6 ps).2 ↔ ∃ qs, qs ++ [p] <+: ps
      ∧ (ipsecSadAdd lib t mem (runAdds lib t mem v4 v6 qs).1 p).1 = rc := by
  induction ps using List.reverseRecOn with
  | nil =>
      constructor
      · intro h
        cases h
      · rintro ⟨qs, hpre, -⟩
        exact absurd (List.prefix_nil.mp hpre) (by simp)
  | append_singleton ps q ih =>
      rw [runAdds_concat, addStep]
      dsimp only
      rw [List.mem_append, List.mem_singleton, ih]
      constructor
      · rintro (⟨qs, hpre, hrc⟩ | heq)
        · exact ⟨qs, hpre.trans (List.prefix_append ps [q]), hrc⟩
        · obtain ⟨rfl, rfl⟩ := Prod.mk.inj heq
          exact ⟨ps, List.prefix_rfl, rfl⟩
      · rintro ⟨qs, hpre, hrc⟩
        rcases List.prefix_concat_iff.mp hpre with heq | hpre
        · obtain ⟨rfl, hq⟩ := List.append_inj' heq rfl
          obtain rfl := List.singleton_injective hq
          right
          rw [hrc]
        · exact .inl ⟨qs, hpre, hrc⟩

/-- No call of the history misses a rule. -/
def NoneMissed (lib : SadLib) (t : Tables) (mem : SaPtr → IpsecSa) (v4 v6 : Bool)
    (ps : List SaPtr) : Prop :=
  ∀ qs p, qs ++ [p] <+: ps → ¬ Missed t mem (runAdds lib t mem v4 v6 qs).1 p

/-- **HISTORIES** are as they should be exactly when no call is torn and none
    misses a rule. -/
theorem adds_right_iff (lib : SadLib) (t : Tables) (mem : SaPtr → IpsecSa)
    (v4 v6 : Bool) (ps : List SaPtr) :
    AddsRight lib t mem v4 v6 ps
      ↔ NoneTorn lib t mem v4 v6 ps ∧ NoneMissed lib t mem v4 v6 ps := by
  constructor
  · intro h
    have hwhole : NoneTorn lib t mem v4 v6 ps := by
      intro qs p hpre htorn
      obtain ⟨hrc, hchanged⟩ := ipsecSadAdd_torn htorn
      exact hchanged (h.failed qs p hpre hrc)
    refine ⟨hwhole, fun qs p hpre hmiss => ?_⟩
    obtain ⟨hall, isV4, hsel, hnot⟩ := hmiss
    -- the call succeeds, and the SA is in no table of that family
    have hlog : (p, 0) ∈ (runAdds lib t mem v4 v6 ps).2 :=
      mem_log.mpr ⟨qs, hpre, (ipsecSadAdd_taken hall).1⟩
    have hholds := (h.member isV4 p).mpr ⟨hlog, hsel⟩
    have hfound := ((holds_of_noneTorn hwhole isV4 p).mp hholds).2
    rw [hnot] at hfound
    cases hfound
  · rintro ⟨hwhole, hfound⟩
    have hmember := holds_of_noneTorn hwhole
    refine ⟨fun isV4 p q => holds_unique ps, fun isV4 p => ?_, ?_⟩
    · rw [hmember]
      refine and_congr_right fun hlog => ⟨selected_of_selects, fun hsel => ?_⟩
      obtain ⟨qs, hpre, hrc⟩ := mem_log.mp hlog
      by_contra hnot
      refine hfound qs p hpre ⟨?_, isV4, hsel, Bool.eq_false_of_not_eq_true hnot⟩
      by_contra hrefused
      exact (ipsecSadAdd_failed hrefused).1 hrc
    · intro qs p hpre hrc
      have hfail : ¬ ∀ isV4, Takes t mem (runAdds lib t mem v4 v6 qs).1 p isV4 :=
        fun hall => hrc (ipsecSadAdd_taken hall).1
      exact (ipsecSadAdd_failed hfail).2 (hwhole qs p hpre)

end histories

/-! ## A torn call -/

/-- A rule of each family names SPI 5. -/
def bothRules : Tables :=
  { acl4RulesIn := [{ userdata := 5 }], acl6RulesIn := [{ userdata := 5 }] }

/-- An IPv6 tunnel and a transport SA, both with SPI 5. -/
def sameSpi : SaPtr → IpsecSa := fun p =>
  if p = 0 then { spi := 5, flags := ip6Tunnel } else { spi := 5, flags := transport }

/-- **TORN**: the transport SA is refused with -EEXIST for the SPI of the tunnel,
    and answers for IPv4 from then on. -/
theorem refused_and_entered :
    (runAdds spiLib bothRules sameSpi true true [0, 1]).2 = [(0, 0), (1, eexist)]
      ∧ Holds (runAdds spiLib bothRules sameSpi true true [0, 1]).1 true 1
      ∧ ¬ AddsRight spiLib bothRules sameSpi true true [0, 1] := by
  have hlog : (runAdds spiLib bothRules sameSpi true true [0, 1]).2
      = [(0, 0), (1, eexist)] := by decide
  have hholds : Holds (runAdds spiLib bothRules sameSpi true true [0, 1]).1 true 1 :=
    ⟨keyOf (sameSpi 1) true, by decide⟩
  refine ⟨hlog, hholds, fun h => ?_⟩
  have hreturned := ((h.member true 1).mp hholds).1
  rw [hlog] at hreturned
  exact absurd hreturned (by decide)

end SadAdding
