import IpsecSecgw.SaInitProofs

/-! # Transforms of one SA and the SAs before it

    `auth_iv_length` of `sa_add_rules` is set by a SA with AES-GMAC and never
    reset, so what is set up for a position depends on whether such a SA stands
    before it.  Nothing else of the SAs before it is seen
    (`setUp_same_iff`). -/

namespace SaXform

open SaModel MbufModel SadModel SpiSearch Sad SaInit

variable {lib : SadLib} {plat : Platform} {t t' : Tables} {inbound : Bool}

/-! ## What is set up -/

/-- What `sa_add_rules` sets up for a position: both transforms, which of them
    the SA begins with, and the addresses with the flags that tell their
    family. -/
structure SetUp where
  xf : IpsecXf
  xforms : Option XfRef
  src : IpAddr
  dst : IpAddr
  flags : UInt16

def setUp (tbl : SaTable lib) (i : Nat) : SetUp :=
  ⟨tbl.xf i, (tbl.sa i).xforms, (tbl.sa i).sa.src, (tbl.sa i).sa.dst,
    (tbl.sa i).sa.flags⟩

/-- Position `i` has got its transforms. -/
def Processed (tbl : SaTable lib) (i : Nat) : Prop := (tbl.sa i).xforms ≠ none

/-- A SA that writes `auth_iv_length`. -/
def UsesGmac (e : IpsecSa) : Prop := ¬ isAead e = true ∧ e.authAlgo = .aesGmac

instance (e : IpsecSa) : Decidable (UsesGmac e) := inferInstanceAs (Decidable (_ ∧ _))

/-- `auth_iv_length` behind a SA, and behind many. -/
def ivBehind (iv : UInt16) (e : IpsecSa) : UInt16 := if UsesGmac e then 12 else iv

/-- What is set up for a SA when the variable has the value `iv`. -/
def setUpFor (plat : Platform) (t : Tables) (inbound : Bool) (iv : UInt16)
    (e : IpsecSa) : SetUp :=
  let sa := (setAddresses t { e with seq := 0 }).2
  let r :=
    if isAead e then aeadXforms plat inbound {} sa
    else cipherXforms inbound (ivBehind iv e) sa
  ⟨r.1, some r.2, sa.src, sa.dst, sa.flags⟩

/-! ## One round -/

/-- A session does not change what is set up. -/
theorem createInlineSession_slot {i : Nat} {s s' : SaSlot} {rc : Int}
    (h : createInlineSession plat inbound i s = .ok (rc, s')) :
    s' = s ∨ ∃ ses fl, s' = s.setSession ses fl := by
  have hsnd : ∀ {x : SaSlot} {rc' : Int},
      (.ok (rc', x) : Except Stop (Int × SaSlot)) = .ok (rc, s') → s' = x :=
    fun h => (Prod.mk.inj (Except.ok.inj h)).2.symm
  rw [createInlineSession] at h
  split at h
  · rw [createInlineCrypto] at h
    split at h
    · exact .inl (hsnd h)
    · split at h
      · exact .inl (hsnd h)
      · rename_i ses _
        split at h
        · cases h
        · split at h
          · exact .inr ⟨ses, _, hsnd h⟩
          · rename_i cap _
            dsimp only at h
            split at h
            · exact .inr ⟨ses, cap.olFlags, hsnd h⟩
            · exact .inr ⟨ses, cap.olFlags, hsnd h⟩
  · rw [createInlineProtocol] at h
    split at h
    · exact .inl (hsnd h)
    · split at h
      · exact .inl (hsnd h)
      · rename_i ses _
        split at h
        · exact .inr ⟨ses, _, hsnd h⟩
        · exact .inr ⟨ses, _, hsnd h⟩
  · exact .inl (hsnd h)

theorem addSession_setUp {i : Nat} {slot : SaSlot} {s s' : RuleState lib} {rc : Int}
    (h : addSession plat inbound i slot s = .ok (rc, s')) :
    setUp s'.tbl i = ⟨s.tbl.xf i, slot.xforms, slot.sa.src, slot.sa.dst, slot.sa.flags⟩
      ∧ s'.authIvLength = s.authIvLength := by
  have hwritten : ∀ slot', slot' = slot ∨ (∃ ses fl, slot' = slot.setSession ses fl) →
      setUp (s.setSa i slot').tbl i
        = ⟨s.tbl.xf i, slot.xforms, slot.sa.src, slot.sa.dst, slot.sa.flags⟩ := by
    intro slot' hslot
    have hsa : (s.setSa i slot').tbl.sa i = slot' := by
      show Function.update s.tbl.sa i slot' i = slot'
      rw [Function.update_self]
    rw [setUp, hsa]
    rcases hslot with rfl | ⟨ses, fl, rfl⟩
    · rfl
    · rfl
  rw [addSession] at h
  split at h
  · cases hc : createInlineSession plat inbound i slot with
    | error x =>
        rw [hc] at h
        cases h
    | ok r =>
        obtain ⟨rc', slot'⟩ := r
        rw [hc] at h
        obtain ⟨-, rfl⟩ := Prod.mk.inj (Except.ok.inj h)
        exact ⟨hwritten slot' (createInlineSession_slot hc), rfl⟩
  · obtain ⟨-, rfl⟩ := Prod.mk.inj (Except.ok.inj h)
    exact ⟨hwritten slot (.inl rfl), rfl⟩

/-- A slot nothing has been written to. -/
def Blank (tbl : SaTable lib) (i : Nat) : Prop :=
  tbl.sa i = {} ∧ tbl.xf i = {}

/-- The loop takes it for a free one. -/
theorem Blank.spi {tbl : SaTable lib} {i : Nat} (h : Blank tbl i) : (tbl.sa i).sa.spi = 0 := by
  rw [h.1]

/-- The addresses do not change what the algorithms are. -/
theorem setAddresses_algorithms (e : IpsecSa) :
    isAead (setAddresses t { e with seq := 0 }).2 = isAead e
      ∧ (setAddresses t { e with seq := 0 }).2.authAlgo = e.authAlgo := by
  rw [setAddresses_fields]
  exact ⟨rfl, rfl⟩

/-- **A ROUND**: a position that gets its transforms gets those of its SA and of
    the variable. -/
theorem addBody_setUp {i : Nat} {e : IpsecSa} {s s' : RuleState lib} {rc : Int}
    (hxf : s.tbl.xf i = {}) (h : addBody plat t inbound i e s = .ok (rc, s'))
    (hset : Processed s'.tbl i) :
    setUp s'.tbl i = setUpFor plat t inbound s.authIvLength e
      ∧ s'.authIvLength = ivBehind s.authIvLength e := by
  obtain ⟨haead, hauth⟩ := setAddresses_algorithms (t := t) e
  -- rounds that end early leave the slot without transforms
  have hearly : ∀ {rc' : Int} {slot : SaSlot}, slot.xforms = none →
      (.ok (rc', s.setSa i slot) : Except Stop (Int × RuleState lib)) ≠ .ok (rc, s') := by
    intro rc' slot hnone heq
    obtain ⟨-, rfl⟩ := Prod.mk.inj (Except.ok.inj heq)
    refine hset ?_
    show (Function.update s.tbl.sa i slot i).xforms = none
    rw [Function.update_self]
    exact hnone
  rw [addBody] at h
  dsimp only at h
  split at h
  · exact absurd h (hearly rfl)
  split at h
  · exact absurd h (hearly rfl)
  rw [setUpFor]
  generalize (setAddresses t { e with seq := 0 }).2 = sa at h haead hauth hearly
  rw [addXforms] at h
  by_cases ha : isAead e = true
  · have hgmac : ¬ UsesGmac e := fun hg => hg.1 ha
    have hxf' : (s.setSa i ⟨sa, none⟩).tbl.xf i = {} := hxf
    rw [if_pos (haead.trans ha), hxf'] at h
    dsimp only at h
    obtain ⟨hsetup, hiv⟩ := addSession_setUp h
    rw [if_pos ha, ivBehind, if_neg hgmac, hsetup, hiv]
    refine ⟨?_, rfl⟩
    show SetUp.mk (Function.update s.tbl.xf i _ i) _ _ _ _ = _
    rw [Function.update_self]
  · rw [if_neg (haead ▸ ha)] at h
    split at h
    · exact absurd h (hearly rfl)
    rw [if_neg ha]
    have hvar : (if sa.authAlgo = .aesGmac then
          { s.setSa i ⟨sa, none⟩ with authIvLength := 12 }
        else s.setSa i ⟨sa, none⟩).authIvLength = ivBehind s.authIvLength e := by
      rw [hauth, ivBehind]
      by_cases hg : e.authAlgo = .aesGmac
      · have hgmac : UsesGmac e := ⟨ha, hg⟩
        rw [if_pos hg, if_pos hgmac]
      · have hgmac : ¬ UsesGmac e := fun h => hg h.2
        rw [if_neg hg, if_neg hgmac]
        rfl
    generalize (if sa.authAlgo = .aesGmac then
        { s.setSa i ⟨sa, none⟩ with authIvLength := 12 }
      else s.setSa i ⟨sa, none⟩) = s1 at h hvar
    obtain ⟨hsetup, hiv⟩ := addSession_setUp h
    have hiv' : s'.authIvLength = s1.authIvLength := hiv
    rw [hsetup, hiv', hvar]
    refine ⟨?_, rfl⟩
    show SetUp.mk (Function.update s1.tbl.xf i _ i) _ _ _ _ = _
    rw [Function.update_self]

theorem saAddRule_setUp {i : Nat} {e : IpsecSa} {s s' : RuleState lib} {rc : Int}
    (hblank : Blank s.tbl i) (h : saAddRule plat t inbound i e s = .ok (rc, s'))
    (hset : Processed s'.tbl i) :
    setUp s'.tbl i = setUpFor plat t inbound s.authIvLength e
      ∧ s'.authIvLength = ivBehind s.authIvLength e := by
  rw [saAddRule, if_neg (not_not.mpr hblank.spi)] at h
  dsimp only at h
  split at h
  · split at h
    · obtain ⟨-, rfl⟩ := Prod.mk.inj (Except.ok.inj h)
      refine absurd ?_ hset
      show (Function.update s.tbl.sa i ⟨e, none⟩ i).xforms = none
      rw [Function.update_self]
    · exact addBody_setUp (s := (s.setSa i ⟨e, none⟩).setSad _) hblank.2 h hset
  · exact addBody_setUp (s := s.setSa i ⟨e, none⟩) hblank.2 h hset

/-- Two states that differ at position `i` alone. -/
def Off (i : Nat) (s s' : RuleState lib) : Prop :=
  ∀ j, j ≠ i → s'.tbl.sa j = s.tbl.sa j ∧ s'.tbl.xf j = s.tbl.xf j

theorem Off.trans {i : Nat} {s s' s'' : RuleState lib} (h : Off i s s')
    (h' : Off i s' s'') : Off i s s'' :=
  fun j hj => ⟨((h' j hj).1).trans (h j hj).1, ((h' j hj).2).trans (h j hj).2⟩

theorem off_setSa (i : Nat) (s : RuleState lib) (slot : SaSlot) :
    Off i s (s.setSa i slot) :=
  fun _ hj => ⟨Function.update_of_ne hj _ _, rfl⟩

theorem off_setXf (i : Nat) (s : RuleState lib) (xf : IpsecXf) :
    Off i s (s.setXf i xf) :=
  fun _ hj => ⟨rfl, Function.update_of_ne hj _ _⟩

theorem addSession_off {i : Nat} {slot : SaSlot} {s s' : RuleState lib} {rc : Int}
    (h : addSession plat inbound i slot s = .ok (rc, s')) : Off i s s' := by
  rw [addSession] at h
  split at h
  · cases hc : createInlineSession plat inbound i slot with
    | error x =>
        rw [hc] at h
        cases h
    | ok r =>
        rw [hc] at h
        obtain ⟨-, rfl⟩ := Prod.mk.inj (Except.ok.inj h)
        exact off_setSa i s _
  · obtain ⟨-, rfl⟩ := Prod.mk.inj (Except.ok.inj h)
    exact off_setSa i s slot

/-- **A ROUND** writes its position alone, also when it fails. -/
theorem addBody_off {i : Nat} {e : IpsecSa} {s s' : RuleState lib} {rc : Int}
    (h : addBody plat t inbound i e s = .ok (rc, s')) : Off i s s' := by
  have hend : ∀ {rc' : Int} {slot : SaSlot},
      (.ok (rc', s.setSa i slot) : Except Stop (Int × RuleState lib)) = .ok (rc, s') →
      Off i s s' := by
    intro rc' slot heq
    obtain ⟨-, rfl⟩ := Prod.mk.inj (Except.ok.inj heq)
    exact off_setSa i s slot
  rw [addBody] at h
  dsimp only at h
  split at h
  · exact hend h
  split at h
  · exact hend h
  rw [addXforms] at h
  split at h
  · exact (off_setSa i s _).trans ((off_setXf i _ _).trans (addSession_off h))
  · split at h
    · exact hend h
    · refine (off_setSa i s ⟨(setAddresses t { e with seq := 0 }).2, none⟩).trans
        (Off.trans ?_ ((off_setXf i _ _).trans (addSession_off h)))
      intro j _
      split
      · exact ⟨rfl, rfl⟩
      · exact ⟨rfl, rfl⟩

theorem saAddRule_off {i : Nat} {e : IpsecSa} {s s' : RuleState lib} {rc : Int}
    (h : saAddRule plat t inbound i e s = .ok (rc, s')) : Off i s s' := by
  rw [saAddRule] at h
  split at h
  · obtain ⟨-, rfl⟩ := Prod.mk.inj (Except.ok.inj h)
    exact fun _ _ => ⟨rfl, rfl⟩
  dsimp only at h
  split at h
  · split at h
    · obtain ⟨-, rfl⟩ := Prod.mk.inj (Except.ok.inj h)
      exact off_setSa i s ⟨e, none⟩
    · exact (off_setSa i s ⟨e, none⟩).trans fun j hj => addBody_off h j hj
  · exact (off_setSa i s ⟨e, none⟩).trans (addBody_off h)

/-! ## All rounds -/

/-- The slots from `i` on are blank. -/
def BlankFrom (i : Nat) (tbl : SaTable lib) : Prop := ∀ j, i ≤ j → Blank tbl j

/-- A round leaves the later slots blank. -/
theorem Off.blankFrom {i : Nat} {s s' : RuleState lib} (h : Off i s s')
    (hblank : BlankFrom i s.tbl) : BlankFrom (i + 1) s'.tbl := by
  intro j hj
  obtain ⟨hsa, hxf⟩ := h j (Nat.ne_of_gt hj)
  obtain ⟨hb, hb'⟩ := hblank j (Nat.le_of_succ_le hj)
  exact ⟨hsa.trans hb, hxf.trans hb'⟩

/-- A round that succeeds has set its position up, and no other one. -/
theorem saAddRule_done {i : Nat} {e : IpsecSa} {s s' : RuleState lib}
    (hblank : BlankFrom i s.tbl) (h : saAddRule plat t inbound i e s = .ok (0, s')) :
    Processed s'.tbl i ∧ BlankFrom (i + 1) s'.tbl := by
  obtain ⟨-, -, hdone⟩ := saAddRule_ok (hblank i (Nat.le_refl i)).spi h
  have hoff := saAddRule_off h
  constructor
  · intro hnone
    have hchain := hdone.chain
    rw [hnone, ChainRight] at hchain
    split at hchain
    · obtain ⟨x, hx, -⟩ := hchain
      cases hx
    · obtain ⟨c, a, -, -, hx⟩ := hchain
      split at hx
      · cases hx
      · split at hx
        · cases hx
        · cases hx
  · exact hoff.blankFrom hblank

/-- A loop goes on with a second list where it got through the first. -/
theorem saAddRules_append (i : Nat) (pre post : List IpsecSa) (s : RuleState lib) :
    saAddRules plat t inbound i (pre ++ post) s
      = (saAddRules plat t inbound i pre s).bind fun r =>
          if r.1 ≠ 0 then pure r
          else saAddRules plat t inbound (i + pre.length) post r.2 := by
  induction pre generalizing i s with
  | nil => rfl
  | cons e pre ih =>
      rw [List.cons_append, saAddRules, saAddRules]
      cases hr : saAddRule plat t inbound i e s with
      | error x => rfl
      | ok r =>
          obtain ⟨rc, s1⟩ := r
          by_cases hrc : rc = 0
          · subst hrc
            have hlen : i + (e :: pre).length = i + 1 + pre.length := by
              rw [List.length_cons]
              omega
            rw [hlen]
            exact ih (i + 1) s1
          · show (if rc ≠ 0 then _ else _) = Except.bind (if rc ≠ 0 then _ else _) _
            rw [if_pos hrc, if_pos hrc]
            exact (if_pos hrc).symm

/-- The rounds from a position on leave those before it. -/
theorem saAddRules_off {i : Nat} {entries : List IpsecSa} {s s' : RuleState lib} {rc : Int}
    (h : saAddRules plat t inbound i entries s = .ok (rc, s')) {j : Nat} (hj : j < i) :
    s'.tbl.sa j = s.tbl.sa j ∧ s'.tbl.xf j = s.tbl.xf j := by
  induction entries generalizing i s with
  | nil =>
      obtain ⟨-, rfl⟩ := Prod.mk.inj (Except.ok.inj h)
      exact ⟨rfl, rfl⟩
  | cons e entries ih =>
      rcases saAddRules_cases h with ⟨-, hr⟩ | ⟨s1, hr, h⟩
      · exact saAddRule_off hr j (Nat.ne_of_lt hj)
      · obtain ⟨hsa, hxf⟩ := saAddRule_off hr j (Nat.ne_of_lt hj)
        rw [← hsa, ← hxf]
        exact ih h (Nat.lt_succ_of_lt hj)

/-- `auth_iv_length` behind the SAs `pre`. -/
def ivAfter (iv : UInt16) (pre : List IpsecSa) : UInt16 := pre.foldl ivBehind iv

/-- It is that of AES-GMAC when one of them uses it. -/
theorem ivAfter_eq (iv : UInt16) (pre : List IpsecSa) :
    ivAfter iv pre = if ∃ g ∈ pre, UsesGmac g then 12 else iv := by
  induction pre generalizing iv with
  | nil =>
      rw [if_neg]
      · rfl
      · rintro ⟨g, hg, -⟩
        cases hg
  | cons e pre ih =>
      have hstep : ivAfter iv (e :: pre) = ivAfter (ivBehind iv e) pre := rfl
      rw [hstep, ih, ivBehind]
      by_cases he : UsesGmac e
      · have hany : ∃ g ∈ e :: pre, UsesGmac g := ⟨e, List.mem_cons_self, he⟩
        rw [if_pos he, if_pos hany]
        split
        · rfl
        · rfl
      · rw [if_neg he]
        refine if_congr ?_ rfl rfl
        constructor
        · rintro ⟨g, hg, hu⟩
          exact ⟨g, List.mem_cons_of_mem e hg, hu⟩
        · rintro ⟨g, hg, hu⟩
          rcases List.mem_cons.mp hg with rfl | hg
          · exact absurd hu he
          · exact ⟨g, hg, hu⟩

/-- **THE LOOP** up to a position: what is set up there depends on the SAs before
    it through `auth_iv_length` alone. -/
theorem saAddRules_setUp {i : Nat} {pre : List IpsecSa} {e : IpsecSa}
    {s s' : RuleState lib} {rc : Int} (hblank : BlankFrom i s.tbl)
    (h : saAddRules plat t inbound i (pre ++ [e]) s = .ok (rc, s'))
    (hset : Processed s'.tbl (i + pre.length)) :
    setUp s'.tbl (i + pre.length)
      = setUpFor plat t inbound (ivAfter s.authIvLength pre) e := by
  induction pre generalizing i s with
  | nil =>
      have hfirst := hblank i (Nat.le_refl i)
      rcases saAddRules_cases h with ⟨-, hr⟩ | ⟨s1, hr, h⟩
      · exact (saAddRule_setUp hfirst hr hset).1
      · obtain ⟨-, rfl⟩ := Prod.mk.inj (Except.ok.inj h)
        exact (saAddRule_setUp hfirst hr hset).1
  | cons d pre ih =>
      have hlen : i + (d :: pre).length = i + 1 + pre.length := by
        rw [List.length_cons]
        omega
      rw [hlen] at hset ⊢
      rcases saAddRules_cases h with ⟨-, hr⟩ | ⟨s1, hr, h⟩
      · -- the loop has ended before the position
        obtain ⟨hsa, -⟩ := saAddRule_off hr (i + 1 + pre.length) (by omega)
        refine absurd ?_ hset
        rw [hsa, (hblank (i + 1 + pre.length) (by omega)).1]
      · obtain ⟨hdone, hblank1⟩ := saAddRule_done hblank hr
        obtain ⟨-, hiv⟩ := saAddRule_setUp (hblank i (Nat.le_refl i)) hr hdone
        rw [ih hblank1 h hset, hiv]
        rfl

/-! ## Two lists -/

/-- The SP rules of two configurations are the same. -/
structure SameRules (t t' : Tables) : Prop where
  in4 : t'.acl4RulesIn = t.acl4RulesIn
  out4 : t'.acl4RulesOut = t.acl4RulesOut
  in6 : t'.acl6RulesIn = t.acl6RulesIn
  out6 : t'.acl6RulesOut = t.acl6RulesOut

/-- The SAs of a configuration are not asked for addresses. -/
theorem SameRules.setUpFor (h : SameRules t t') (plat : Platform) (inbound : Bool)
    (iv : UInt16) (e : IpsecSa) :
    SaXform.setUpFor plat t' inbound iv e = SaXform.setUpFor plat t inbound iv e := by
  have ht : t' = { t with saIn := t'.saIn, saOut := t'.saOut } := by
    obtain ⟨h1, h2, h3, h4⟩ := h
    cases t'
    dsimp only at h1 h2 h3 h4 ⊢
    rw [h1, h2, h3, h4]
  rw [ht]
  rfl

theorem freshTable_blank {tbl : SaTable lib}
    (h : freshTable lib plat t inbound = some tbl) : BlankFrom 0 tbl := by
  rw [freshTable] at h
  dsimp only at h
  split at h
  · cases h
  split at h
  · obtain ⟨sad, -, rfl⟩ := Option.map_eq_some_iff.mp h
    exact fun _ _ => ⟨rfl, rfl⟩
  · obtain rfl := Option.some.inj h
    exact fun _ _ => ⟨rfl, rfl⟩

/-- **A POSITION** is set up from its SA and the SAs with AES-GMAC before it. -/
theorem position_setUp {tbl : SaTable lib}
    (hfresh : freshTable lib plat t inbound = some tbl) {i : Nat} {e : IpsecSa}
    (he : (saEntries t inbound)[i]? = some e) {rc : Int} {s : RuleState lib}
    (h : saAddRules plat t inbound 0 ((saEntries t inbound).take (i + 1)) { tbl }
      = .ok (rc, s)) (hset : Processed s.tbl i) :
    setUp s.tbl i = setUpFor plat t inbound
      (if ∃ g ∈ (saEntries t inbound).take i, UsesGmac g then 12 else 0) e := by
  have hlen : ((saEntries t inbound).take i).length = i := by
    obtain ⟨hlt, -⟩ := List.getElem?_eq_some_iff.mp he
    rw [List.length_take]
    omega
  rw [List.take_add_one, he] at h
  have hpos : 0 + ((saEntries t inbound).take i).length = i := by
    rw [hlen, Nat.zero_add]
  have hset' : Processed s.tbl (0 + ((saEntries t inbound).take i).length) := by
    rw [hpos]
    exact hset
  have hsetup := saAddRules_setUp (freshTable_blank hfresh) h hset'
  rw [hpos, ivAfter_eq] at hsetup
  exact hsetup

/-- **THE WHOLE LOOP** leaves at a position what the rounds up to it have set up. -/
theorem setUp_take {i : Nat} {entries : List IpsecSa} {s s' : RuleState lib} {rc : Int}
    (hi : i < entries.length)
    (h : saAddRules plat t inbound 0 entries s = .ok (rc, s')) :
    ∃ rc1 s1, saAddRules plat t inbound 0 (entries.take (i + 1)) s = .ok (rc1, s1)
      ∧ setUp s'.tbl i = setUp s1.tbl i := by
  have hlen : (entries.take (i + 1)).length = i + 1 := by
    rw [List.length_take]
    omega
  rw [← List.take_append_drop (i + 1) entries, saAddRules_append, hlen] at h
  cases hr : saAddRules plat t inbound 0 (entries.take (i + 1)) s with
  | error x =>
      rw [hr] at h
      cases h
  | ok r =>
      rw [hr] at h
      have h : (if r.1 ≠ 0 then pure r
        else saAddRules plat t inbound (0 + (i + 1)) (entries.drop (i + 1)) r.2)
          = .ok (rc, s') := h
      refine ⟨r.1, r.2, rfl, ?_⟩
      split at h
      · rw [Except.ok.inj h]
      · obtain ⟨hsa, hxf⟩ := saAddRules_off h (show i < 0 + (i + 1) by omega)
        rw [setUp, setUp, hsa, hxf]

/-- What a position has behind the whole loop. -/
theorem position_setUp_whole {tbl : SaTable lib}
    (hfresh : freshTable lib plat t inbound = some tbl) {i : Nat} {e : IpsecSa}
    (he : (saEntries t inbound)[i]? = some e) {rc : Int} {s : RuleState lib}
    (h : saAddRules plat t inbound 0 (saEntries t inbound) { tbl } = .ok (rc, s))
    (hset : Processed s.tbl i) :
    setUp s.tbl i = setUpFor plat t inbound
      (if ∃ g ∈ (saEntries t inbound).take i, UsesGmac g then 12 else 0) e := by
  obtain ⟨hi, -⟩ := List.getElem?_eq_some_iff.mp he
  obtain ⟨rc1, s1, htake, hsame⟩ := setUp_take hi h
  have hxforms : (s.tbl.sa i).xforms = (s1.tbl.sa i).xforms := congrArg SetUp.xforms hsame
  have hset1 : Processed s1.tbl i := by
    rw [Processed, ← hxforms]
    exact hset
  rw [hsame]
  exact position_setUp hfresh he htake hset1

/-- What is set up for a SA shows the variable, unless the algorithms of the SA
    do not read it. -/
theorem setUpFor_iv {iv iv' : UInt16} {e : IpsecSa} :
    setUpFor plat t inbound iv e = setUpFor plat t inbound iv' e
      ↔ isAead e = true ∨ e.authAlgo = .aesGmac ∨ iv = iv' := by
  obtain ⟨-, hauth⟩ := setAddresses_algorithms (t := t) e
  rw [setUpFor, setUpFor]
  generalize (setAddresses t { e with seq := 0 }).2 = sa at hauth
  by_cases ha : isAead e = true
  · rw [if_pos ha, if_pos ha]
    exact ⟨fun _ => .inl ha, fun _ => rfl⟩
  rw [if_neg ha, if_neg ha, ivBehind, ivBehind]
  by_cases hg : e.authAlgo = .aesGmac
  · have hgmac : UsesGmac e := ⟨ha, hg⟩
    rw [if_pos hgmac, if_pos hgmac]
    exact ⟨fun _ => .inr (.inl hg), fun _ => rfl⟩
  have hgmac : ¬ UsesGmac e := fun h => hg h.2
  rw [if_neg hgmac, if_neg hgmac]
  constructor
  · intro h
    have hxf := (SetUp.mk.inj h).1
    rw [← hauth] at hg
    rw [cipherXforms, cipherXforms, if_neg hg, if_neg hg] at hxf
    cases inbound with
    | true =>
        have hx := (SymXform.mk.inj (IpsecXf.mk.inj hxf).1).1
        exact .inr (.inr (AuthXform.mk.inj (Xform.auth.inj hx)).2.2.2.2)
    | false =>
        have hx := (SymXform.mk.inj (IpsecXf.mk.inj hxf).2).1
        exact .inr (.inr (AuthXform.mk.inj (Xform.auth.inj hx)).2.2.2.2)
  · rintro (h | h | rfl)
    · exact absurd h ha
    · exact absurd h hg
    · rfl

/-- **THE SAs BEFORE A POSITION** are seen there exactly when its SA has a
    cipher and another authentication algorithm than AES-GMAC, and a SA with
    AES-GMAC stands before it in one list and not in the other. -/
theorem setUp_same_iff (hrules : SameRules t t') {tbl tbl' : SaTable lib}
    (hfresh : freshTable lib plat t inbound = some tbl)
    (hfresh' : freshTable lib plat t' inbound = some tbl') {i : Nat} {e : IpsecSa}
    (he : (saEntries t inbound)[i]? = some e) (he' : (saEntries t' inbound)[i]? = some e)
    {rc rc' : Int} {s s' : RuleState lib}
    (h : saAddRules plat t inbound 0 ((saEntries t inbound).take (i + 1)) { tbl }
      = .ok (rc, s))
    (h' : saAddRules plat t' inbound 0 ((saEntries t' inbound).take (i + 1)) { tbl := tbl' }
      = .ok (rc', s'))
    (hset : Processed s.tbl i) (hset' : Processed s'.tbl i) :
    setUp s.tbl i = setUp s'.tbl i
      ↔ isAead e = true ∨ e.authAlgo = .aesGmac
        ∨ ((∃ g ∈ (saEntries t inbound).take i, UsesGmac g)
          ↔ ∃ g ∈ (saEntries t' inbound).take i, UsesGmac g) := by
  rw [position_setUp hfresh he h hset, position_setUp hfresh' he' h' hset',
    hrules.setUpFor, setUpFor_iv]
  refine or_congr_right (or_congr_right ?_)
  have hne : (12 : UInt16) ≠ 0 := by decide
  split
  · rename_i hl
    split
    · rename_i hr
      exact ⟨fun _ => ⟨fun _ => hr, fun _ => hl⟩, fun _ => rfl⟩
    · rename_i hr
      exact ⟨fun h => absurd h hne, fun h => absurd (h.mp hl) hr⟩
  · rename_i hl
    split
    · rename_i hr
      exact ⟨fun h => absurd h.symm hne, fun h => absurd (h.mpr hr) hl⟩
    · rename_i hr
      exact ⟨fun _ => ⟨fun h => absurd h hl, fun h => absurd h hr⟩, fun _ => rfl⟩

/-- A transport SA with the null cipher and AES-GMAC, and one with HMAC-SHA1. -/
def gmacSa : IpsecSa :=
  { spi := 5
    flags := transport
    cipherAlgo := .null
    authAlgo := .aesGmac
    digestLen := 16
    ivLen := 8
    blockSize := 4
    authKey := List.replicate 16 1 }

def sha1Sa (spi : UInt32) : IpsecSa :=
  { spi
    flags := transport
    cipherAlgo := .null
    authAlgo := .sha1Hmac
    digestLen := 12
    blockSize := 4
    authKey := List.replicate 20 1 }

/-- The SA with SPI 6 stands behind one with AES-GMAC, and behind another one. -/
def behindGmac : Tables := { saOut := [gmacSa, sha1Sa 6] }
def behindSha1 : Tables := { saOut := [sha1Sa 5, sha1Sa 6] }

/-- What the loop has behind the second SA. -/
def secondDone (t : Tables) : Except Stop (Int × RuleState spiLib) :=
  saAddRules plainPlatform t false 0 (saEntries t false) { tbl := { nbSa := 2 } }

/-- **THE VARIABLE LEAKS**: behind AES-GMAC an IV of twelve bytes is asked for. -/
theorem behindGmac_differs : ∃ s s' : RuleState spiLib,
    (saEntries behindGmac false)[1]? = (saEntries behindSha1 false)[1]?
    ∧ secondDone behindGmac = .ok (0, s) ∧ secondDone behindSha1 = .ok (0, s')
    ∧ Processed s.tbl 1 ∧ Processed s'.tbl 1
    ∧ setUp s.tbl 1 ≠ setUp s'.tbl 1 := by
  refine ⟨_, _, rfl, rfl, rfl, fun h => ?_, fun h => ?_, fun h => ?_⟩
  · cases h
  · cases h
  · have hxf := (SetUp.mk.inj h).1
    have hx := (SymXform.mk.inj (IpsecXf.mk.inj hxf).2).1
    have hiv : (12 : UInt16) = 0 := (AuthXform.mk.inj (Xform.auth.inj hx)).2.2.2.2
    exact absurd hiv (by decide)

theorem setUp_same_iff_gmac : ∃ s s' : RuleState spiLib, secondDone behindGmac = .ok (0, s)
    ∧ secondDone behindSha1 = .ok (0, s')
    ∧ (setUp s.tbl 1 = setUp s'.tbl 1
      ↔ isAead (sha1Sa 6) = true ∨ (sha1Sa 6).authAlgo = .aesGmac
        ∨ ((∃ g ∈ (saEntries behindGmac false).take 1, UsesGmac g)
          ↔ ∃ g ∈ (saEntries behindSha1 false).take 1, UsesGmac g)) := by
  refine ⟨_, _, rfl, rfl, ?_⟩
  refine @setUp_same_iff spiLib plainPlatform behindGmac behindSha1 false
    ⟨rfl, rfl, rfl, rfl⟩ { nbSa := 2 } { nbSa := 2 } rfl rfl 1 (sha1Sa 6) rfl rfl _ _ _ _ rfl
    rfl ?_ ?_
  · intro h
    cases h
  · intro h
    cases h

end SaXform
