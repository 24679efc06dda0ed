import IpsecSecgw.OutboundPolicyProofs
import IpsecSecgw.SadAddProofs
import IpsecSecgw.SaInitProofs
import IpsecSecgw.SpInitModel

/-! # SP databases over several sockets

    A rule of a socket's context carries the index of a SA of this socket, less one;
    for the first socket it is the SA whose SPI the file gave to the rule.  The arrays
    are rewritten in place, so the next socket searches an index among the SPIs. -/

namespace SpInit

open SaModel MbufModel SadModel SpiSearch SaInit WorkerModel IpsecModel SecgwModel
open ParserModel (bind_ok)

variable {lib : SadLib} {plat : Platform} {t t' : Tables}

/-! ## The number of SAs -/

theorem addSession_nbSa {inbound : Bool} {i : Nat} {slot : SaSlot} {s : RuleState lib}
    {r : Int × RuleState lib} (h : addSession plat inbound i slot s = .ok r) :
    r.2.tbl.nbSa = s.tbl.nbSa := by
  unfold addSession at h
  split at h
  · obtain ⟨a, -, ha⟩ := bind_ok h
    cases ha
    rfl
  · cases h
    rfl

theorem addXforms_nbSa {inbound : Bool} {i : Nat} {sa : IpsecSa} {s : RuleState lib}
    {r : Int × RuleState lib} (h : addXforms plat inbound i sa s = .ok r) :
    r.2.tbl.nbSa = s.tbl.nbSa := by
  unfold addXforms at h
  dsimp only at h
  split at h
  · exact (addSession_nbSa h).trans rfl
  · split at h
    · cases h
      rfl
    · refine (addSession_nbSa h).trans ?_
      show (if sa.authAlgo = .aesGmac then { s with authIvLength := 12 } else s).tbl.nbSa = _
      split
      · rfl
      · rfl

theorem addBody_nbSa {inbound : Bool} {i : Nat} {e : IpsecSa} {s : RuleState lib}
    {r : Int × RuleState lib} (h : addBody plat t inbound i e s = .ok r) :
    r.2.tbl.nbSa = s.tbl.nbSa := by
  unfold addBody at h
  dsimp only at h
  split at h
  · cases h
    rfl
  · split at h
    · cases h
      rfl
    · exact (addXforms_nbSa h).trans rfl

theorem saAddRule_nbSa {inbound : Bool} {i : Nat} {e : IpsecSa} {s : RuleState lib}
    {r : Int × RuleState lib} (h : saAddRule plat t inbound i e s = .ok r) :
    r.2.tbl.nbSa = s.tbl.nbSa := by
  unfold saAddRule at h
  dsimp only at h
  split at h
  · cases h
    rfl
  · split at h
    · split at h
      · cases h
        rfl
      · exact (addBody_nbSa h).trans rfl
    · exact (addBody_nbSa h).trans rfl

theorem saAddRules_nbSa {inbound : Bool} {i : Nat} {entries : List IpsecSa}
    {s : RuleState lib} {r : Int × RuleState lib}
    (h : saAddRules plat t inbound i entries s = .ok r) : r.2.tbl.nbSa = s.tbl.nbSa := by
  induction entries generalizing i s with
  | nil =>
      cases h
      rfl
  | cons e entries ih =>
      rw [saAddRules] at h
      obtain ⟨a, hrule, hrest⟩ := bind_ok h
      have hstep := saAddRule_nbSa hrule
      dsimp only at hrest
      split at hrest
      · cases hrest
        exact hstep
      · exact (ih hrest).trans hstep

theorem freshTable_nbSa {inbound : Bool} {tbl : SaTable lib}
    (h : freshTable lib plat t inbound = some tbl) :
    tbl.nbSa = (saEntries t inbound).length := by
  rw [freshTable] at h
  dsimp only at h
  split at h
  · cases h
  · split at h
    · obtain ⟨sad, -, rfl⟩ := Option.map_eq_some_iff.mp h
      rfl
    · cases h
      rfl

/-- **A DIRECTION** has a table exactly when it has SAs; the table is what
    `sa_add_rules` has left. -/
theorem saInitDirection_ok {inbound : Bool} {r : Option (SaTable lib)}
    (h : saInitDirection lib plat t inbound = .ok r) :
    (saEntries t inbound = [] ∧ r = none)
      ∨ ∃ (tbl : SaTable lib) (rc : Int) (s : RuleState lib),
        freshTable lib plat t inbound = some tbl
          ∧ saAddRules plat t inbound 0 (saEntries t inbound) { tbl } = .ok (rc, s)
          ∧ r = some s.tbl := by
  by_cases hne : saEntries t inbound = []
  · refine .inl ⟨hne, ?_⟩
    rw [saInitDirection] at h
    dsimp only at h
    rw [if_pos hne] at h
    exact (Except.ok.inj h).symm
  · refine .inr ?_
    have hgoes : ¬ DirectionEnds lib plat t inbound := by
      intro hends
      obtain ⟨x, hx⟩ := saInitDirection_ends hends
      cases hx.symm.trans h
    obtain ⟨tbl, rc, s, htbl, hs, hr⟩ := saInitDirection_goes_on hne hgoes
    exact ⟨tbl, rc, s, htbl, hs, Except.ok.inj (h.symm.trans hr)⟩

/-- `sa_init` on a fresh socket. -/
theorem saInit_ok {sas : SocketCtx lib} (h : saInit lib plat t (some {}) = .ok sas)
    (inbound : Bool) : saInitDirection lib plat t inbound = .ok (sas.sas inbound) := by
  have h' : (do
      let saIn ← saInitDirection lib plat t true
      let saOut ← saInitDirection lib plat t false
      return ({ saIn, saOut } : SocketCtx lib)) = .ok sas := h
  obtain ⟨saIn, hin, h'⟩ := bind_ok h'
  obtain ⟨saOut, hout, h'⟩ := bind_ok h'
  cases h'
  cases inbound with
  | true => exact hin
  | false => exact hout

/-- There are as many SAs in the table as in the file. -/
theorem nbSa_eq {sas : SocketCtx lib} (h : saInit lib plat t (some {}) = .ok sas)
    (inbound : Bool) :
    ((sas.sas inbound).map SaTable.nbSa).getD 0 = (saEntries t inbound).length := by
  rcases saInitDirection_ok (saInit_ok h inbound) with
    ⟨hnil, hr⟩ | ⟨tbl, rc, s, htbl, hs, hr⟩
  · rw [hr, hnil]
    rfl
  · rw [hr]
    exact (saAddRules_nbSa hs).trans (freshTable_nbSa htbl)

/-! ## Rules and their SAs -/

/-- A rule in a context: the actions stay, and where there was an SPI there is the index
    of one of `n` SAs that has it. -/
inductive Indexed (n : Nat) (sas : Option (SaTable lib)) (r : AclRules) : AclRules → Prop
  | action (h : r.userdata = SaModel.discard ∨ r.userdata = bypass) : Indexed n sas r r
  | sa (k : Nat) (hk : k < n) (hspi : (sar sas k).spi = r.userdata)
      (hprotect : r.userdata ≠ SaModel.discard ∧ r.userdata ≠ bypass) :
      Indexed n sas r { r with userdata := UInt32.ofNat (k + 1) }

/-- What the search finds has the SPI. -/
theorem saSpiPresent_sound {arr : Nat → IpsecSa} {spi : UInt32} {inbound : Bool}
    (h : ¬ saSpiPresent t arr spi inbound < 0) :
    ∃ k : Nat, saSpiPresent t arr spi inbound = k ∧ k < (saEntries t inbound).length
      ∧ (arr k).spi = spi := by
  have hnum : (saEntries t inbound).length
      = if inbound then t.saIn.length else t.saOut.length := by
    cases inbound with
    | true => rfl
    | false => rfl
  rw [saSpiPresent] at h ⊢
  rw [hnum]
  rw [arrPresent] at h ⊢
  split at h
  · rename_i i hi
    obtain ⟨hlt, hzero⟩ := HalvingSearch.bsearch_sound hi
    exact ⟨i, rfl, hlt, ((spiDiff_eq_zero _ _).mp hzero).symm⟩
  · exact absurd (by decide) h

theorem ofInt_succ (k : Nat) : UInt32.ofInt ((k : Int) + 1) = UInt32.ofNat (k + 1) := by
  rw [UInt32.ofInt, ← UInt32.toNat_inj, UInt32.toNat_ofNat', UInt32.toNat_ofNat']
  omega

theorem checkSpiOne_indexed {sas : Option (SaTable lib)} {inbound : Bool}
    {r r' : AclRules} (h : checkSpiOne t sas inbound r = some r') :
    Indexed (saEntries t inbound).length sas r r' := by
  unfold checkSpiOne at h
  dsimp only at h
  split at h
  · rename_i hprotect
    split at h
    · cases h
    · rename_i hfound
      cases h
      obtain ⟨k, hk, hlt, hspi⟩ := saSpiPresent_sound hfound
      rw [hk, show UInt32.ofInt ((k : Int) + 1) = UInt32.ofNat (k + 1) from ofInt_succ k]
      exact .sa k hlt hspi hprotect
  · rename_i hprotect
    cases h
    refine .action ?_
    by_cases hd : r.userdata = SaModel.discard
    · exact .inl hd
    · exact .inr (not_not.mp fun hb => hprotect ⟨hd, hb⟩)

/-- All rules of an array. -/
theorem mapM_forall₂ {α β : Type} {f : α → Option β} {R : α → β → Prop}
    (hf : ∀ a b, f a = some b → R a b) {l : List α} {l' : List β}
    (h : l.mapM f = some l') : List.Forall₂ R l l' := by
  induction l generalizing l' with
  | nil =>
      cases h
      exact .nil
  | cons a l ih =>
      rw [List.mapM_cons] at h
      obtain ⟨b, hb, h⟩ := Option.bind_eq_some_iff.mp h
      obtain ⟨bs, hbs, h⟩ := Option.bind_eq_some_iff.mp h
      cases h
      exact .cons (hf a b hb) (ih hbs)

@[simp] theorem aclRules_setAclRules (t : Tables) (isV4 inbound : Bool)
    (rules : List AclRules) :
    aclRules (setAclRules t isV4 inbound rules) isV4 inbound = rules := by
  cases isV4 <;> cases inbound <;> rfl

theorem aclRules_setAclRules_of_ne {isV4 inbound isV4' inbound' : Bool}
    (h : (isV4', inbound') ≠ (isV4, inbound)) (t : Tables) (rules : List AclRules) :
    aclRules (setAclRules t isV4 inbound rules) isV4' inbound'
      = aclRules t isV4' inbound' := by
  revert h
  cases isV4 <;> cases inbound <;> cases isV4' <;> cases inbound' <;>
    first | exact fun h => absurd rfl h | exact fun _ => rfl

@[simp] theorem saEntries_setAclRules (t : Tables) (isV4 inbound : Bool)
    (rules : List AclRules) (b : Bool) :
    saEntries (setAclRules t isV4 inbound rules) b = saEntries t b := by
  cases isV4 <;> cases inbound <;> cases b <;> rfl

theorem checkSpiValue_ok {sas : Option (SaTable lib)} {isV4 inbound : Bool}
    (h : checkSpiValue t sas isV4 inbound = .ok t') :
    ∃ rules, List.Forall₂ (Indexed (saEntries t inbound).length sas)
        (aclRules t isV4 inbound) rules
      ∧ t' = setAclRules t isV4 inbound rules := by
  unfold checkSpiValue at h
  split at h
  · cases h
  · rename_i rules hrules
    exact ⟨rules, mapM_forall₂ (fun _ _ => checkSpiOne_indexed) hrules,
      (Except.ok.inj h).symm⟩

/-! ## Contexts -/

/-- A packet gets the `userdata` of one of the rules, or zero. -/
def AnswersFrom (rules : List AclRules) (acl : SpCtx) : Prop :=
  ∀ b a, acl b a = 0 ∨ ∃ r ∈ rules, r.userdata = acl b a

/-- A context has been made of rules. -/
inductive MadeOf (rules : List AclRules) : Option SpDb → Prop
  | none (h : rules = []) : MadeOf rules none
  | some {acl} (h : AnswersFrom rules acl) : MadeOf rules (some ⟨rules, acl⟩)

theorem aclInit_ok {env : SocketEnv} {isV4 inbound : Bool} {rules : List AclRules}
    {sp : Option SpDb} (h : aclInit env isV4 inbound rules = .ok sp) : MadeOf rules sp := by
  unfold aclInit at h
  split at h
  · rename_i hnil
    cases h
    exact .none hnil
  · split at h
    · cases h
    · rename_i acl hacl
      cases h
      exact .some (env.aclInit_result isV4 inbound rules acl hacl)

/-- The context of a family and direction is made of the rules of the array, which have
    been given the indices of the socket's SAs. -/
def Loaded (t t' : Tables) (s : Socket lib) (isV4 inbound : Bool) : Prop :=
  List.Forall₂ (Indexed (saEntries t inbound).length (s.sas.sas inbound))
      (aclRules t isV4 inbound) (aclRules t' isV4 inbound)
    ∧ MadeOf (aclRules t' isV4 inbound) (s.sp isV4 inbound)

variable {env : SocketEnv}

theorem sp_setSp (s : Socket lib) (isV4 inbound : Bool) (spIn spOut : Option SpDb) :
    (s.setSp isV4 spIn spOut).sp isV4 inbound = if inbound then spIn else spOut := by
  cases isV4 <;> cases inbound <;> rfl

theorem sp_setSp_not (s : Socket lib) (isV4 inbound : Bool) (spIn spOut : Option SpDb) :
    (s.setSp isV4 spIn spOut).sp (!isV4) inbound = s.sp (!isV4) inbound := by
  cases isV4 <;> cases inbound <;> rfl

theorem sas_setSp (s : Socket lib) (isV4 : Bool) (spIn spOut : Option SpDb) :
    (s.setSp isV4 spIn spOut).sas = s.sas := by
  cases isV4 <;> rfl

/-- What `sp4_init` and `sp6_init` do. -/
structure FamilyDone (isV4 : Bool) (t t' : Tables) (s s' : Socket lib) : Prop where
  sas : s'.sas = s.sas
  entries : ∀ b, saEntries t' b = saEntries t b
  otherRules : ∀ b, aclRules t' (!isV4) b = aclRules t (!isV4) b
  otherSp : ∀ b, s'.sp (!isV4) b = s.sp (!isV4) b
  loaded : ∀ b, Loaded t t' s' isV4 b

/-- **A FAMILY**. -/
theorem spInit_ok {isV4 : Bool} {s : Socket lib} {r : Tables × Socket lib}
    (h : spInit env isV4 t s = .ok r) : FamilyDone isV4 t r.1 s r.2 := by
  unfold spInit at h
  split at h
  · cases h
  split at h
  · cases h
  obtain ⟨t1, hin, h⟩ := bind_ok h
  obtain ⟨t2, hout, h⟩ := bind_ok h
  obtain ⟨spIn, hspIn, h⟩ := bind_ok h
  obtain ⟨spOut, hspOut, h⟩ := bind_ok h
  cases h
  obtain ⟨rulesIn, hrulesIn, rfl⟩ := checkSpiValue_ok hin
  obtain ⟨rulesOut, hrulesOut, rfl⟩ := checkSpiValue_ok hout
  have hne : (isV4, false) ≠ (isV4, true) := by simp
  have hother : ∀ b b' : Bool, (!isV4, b) ≠ (isV4, b') := by
    intro b b' heq
    cases isV4 <;> cases heq
  rw [aclRules_setAclRules_of_ne hne, saEntries_setAclRules] at hrulesOut
  refine ⟨sas_setSp _ _ _ _, fun b => ?_, fun b => ?_, fun b => sp_setSp_not _ _ _ _ _,
    fun b => ?_⟩
  · dsimp only
    rw [saEntries_setAclRules, saEntries_setAclRules]
  · dsimp only
    rw [aclRules_setAclRules_of_ne (hother b false), aclRules_setAclRules_of_ne (hother b true)]
  · rw [Loaded, sas_setSp, sp_setSp]
    cases b with
    | true =>
        have hrules : aclRules (setAclRules (setAclRules t isV4 true rulesIn) isV4 false rulesOut)
            isV4 true = rulesIn := by
          rw [aclRules_setAclRules_of_ne hne.symm, aclRules_setAclRules]
        rw [hrules]
        rw [hrules] at hspIn
        exact ⟨hrulesIn, aclInit_ok hspIn⟩
    | false =>
        rw [aclRules_setAclRules]
        rw [aclRules_setAclRules] at hspOut
        exact ⟨hrulesOut, aclInit_ok hspOut⟩

/-- What the initialisation of a socket does. -/
structure SocketDone (lib : SadLib) (env : SocketEnv) (t t' : Tables) (s : Socket lib) :
    Prop where
  sas : saInit lib env.plat t (some {}) = .ok s.sas
  entries : ∀ b, saEntries t' b = saEntries t b
  loaded : ∀ isV4 b, Loaded t t' s isV4 b

/-- **A SOCKET**. -/
theorem initSocket_ok {r : Tables × Socket lib} (h : initSocket lib env t = .ok r) :
    SocketDone lib env t r.1 r.2 := by
  unfold initSocket at h
  obtain ⟨sas, hsas, h⟩ := bind_ok h
  obtain ⟨r4, h4, h⟩ := bind_ok h
  obtain ⟨r6, h6, h⟩ := bind_ok h
  have d4 := spInit_ok h4
  have d6 := spInit_ok h6
  dsimp only at h
  split at h
  · cases h
    refine ⟨?_, fun b => (d6.entries b).trans (d4.entries b), fun isV4 b => ?_⟩
    · rw [d6.sas, d4.sas]
      exact hsas
    · cases isV4 with
      | true =>
          have hrules : aclRules r6.1 true b = aclRules r4.1 true b := d6.otherRules b
          have hsp : r6.2.sp true b = r4.2.sp true b := d6.otherSp b
          show Loaded t r6.1 r6.2 true b
          rw [Loaded, d6.sas, hrules, hsp]
          exact d4.loaded b
      | false =>
          have hrules : aclRules r4.1 false b = aclRules t false b := d4.otherRules b
          obtain ⟨hall, hmade⟩ := d6.loaded b
          rw [d4.entries b, hrules] at hall
          exact ⟨hall, hmade⟩
  · cases h

end SpInit
