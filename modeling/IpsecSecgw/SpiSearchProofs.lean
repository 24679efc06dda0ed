import Mathlib.Data.List.GetD
import IpsecSecgw.Lib.HalvingSearch
import IpsecSecgw.SaModel

/-! # Searching SAs and SP rules by SPI

    `sa_sort_arr`, `sp4_sort_arr` and `sp6_sort_arr` sort the configured
    tables, `sa_spi_present`, `sp4_spi_present` and `sp6_spi_present` search
    them.  All six run on comparators that return the 32-bit difference of two
    SPIs as a signed number.  That difference wraps, so the comparators order
    the SPIs of half the range only, and equal SPIs leave it to the shape of
    the array which entry a search hits.

    * A hit always carries the searched SPI, whatever the table.
    * The search returns the first entry exactly when every probe on the way
      to it steers towards it (`first_entry_iff_steers`).
    * Distinct SPIs that fit into half the range are always found
      (`first_entry_of_half_range`). -/

namespace SpiSearch

open HalvingSearch SaModel

variable {α : Type}

/-! ## The code -/

/-- `(int)(spi1 - spi2)`. -/
def spiDiff (spi1 spi2 : UInt32) : Int :=
  (spi1 - spi2).toInt32.toInt

/-- `sa_cmp`. -/
def saCmp (p q : IpsecSa) : Int := spiDiff p.spi q.spi

/-- `sp_cmp`, the same text in the IPv4 and the IPv6 file. -/
def spCmp (p q : AclRules) : Int := spiDiff p.userdata q.userdata

/-- `sa_sort_arr`. -/
def saSortArr (t : Tables) : Tables :=
  { t with saIn := msort saCmp t.saIn, saOut := msort saCmp t.saOut }

/-- `sp4_sort_arr`. -/
def sp4SortArr (t : Tables) : Tables :=
  { t with
    acl4RulesIn := msort spCmp t.acl4RulesIn
    acl4RulesOut := msort spCmp t.acl4RulesOut }

/-- `sp6_sort_arr`. -/
def sp6SortArr (t : Tables) : Tables :=
  { t with
    acl6RulesIn := msort spCmp t.acl6RulesIn
    acl6RulesOut := msort spCmp t.acl6RulesOut }

/-- The search all three functions make: the index of the entry `bsearch`
    hits, or `-ENOENT`. -/
def arrPresent (cmp : α → α → Int) (tmpl : α) (arr : Nat → α) (num : Nat) :
    Int :=
  match bsearch (fun i => cmp tmpl (arr i)) num with
  | some i => (i : Int)
  | none => enoent

/-- `sa_spi_present`: the entries are those of the SA context, their number
    is the global one. -/
def saSpiPresent (t : Tables) (sar : Nat → IpsecSa) (spi : UInt32)
    (inbound : Bool) : Int :=
  let num := if inbound then t.saIn.length else t.saOut.length
  arrPresent saCmp { spi := spi } sar num

/-- `sp4_spi_present` with null address arguments. -/
def sp4SpiPresent (t : Tables) (spi : UInt32) (inbound : Bool) : Int :=
  let acr := if inbound then t.acl4RulesIn else t.acl4RulesOut
  arrPresent spCmp { userdata := spi } (fun i => acr.getD i default) acr.length

/-- `sp6_spi_present` with null address arguments. -/
def sp6SpiPresent (t : Tables) (spi : UInt32) (inbound : Bool) : Int :=
  let acr := if inbound then t.acl6RulesIn else t.acl6RulesOut
  arrPresent spCmp { userdata := spi } (fun i => acr.getD i default) acr.length

/-! ## The wrapped comparator -/

@[simp] theorem spiDiff_eq_zero (a b : UInt32) : spiDiff a b = 0 ↔ a = b := by
  constructor
  · intro h
    have hz : (a - b).toInt32 = 0 := Int32.toInt.inj h
    have hsub : a - b = 0 := by
      have := congrArg Int32.toUInt32 hz
      rw [UInt32.toUInt32_toInt32] at this
      exact this
    have := UInt32.sub_add_cancel a b
    rw [hsub] at this
    rw [← this, UInt32.zero_add]
  · intro h
    rw [h, spiDiff, UInt32.sub_self]
    rfl

/-- The difference is read back from the distance between the two SPIs: up to
    half the range it is that distance, beyond it wraps. -/
theorem spiDiff_eq (a b : UInt32) :
    spiDiff a b = if (a - b).toNat < 2 ^ 31 then ((a - b).toNat : Int)
      else ((a - b).toNat : Int) - 2 ^ 32 := by
  have hlt := (a - b).toNat_lt
  rw [spiDiff, Int32.toInt, UInt32.toBitVec_toInt32, BitVec.toInt_eq_toNat_cond]
  rw [UInt32.toNat_toBitVec]
  by_cases h : (a - b).toNat < 2 ^ 31
  · rw [if_pos h, if_pos (by omega)]
  · rw [if_neg h, if_neg (by omega)]
    rfl

/-- Within half the range behind a base, the comparator is the order of the
    distances from that base. -/
theorem spiDiff_le_zero_iff {base a b : UInt32}
    (ha : (a - base).toNat < 2 ^ 31) (hb : (b - base).toNat < 2 ^ 31) :
    spiDiff a b ≤ 0 ↔ (a - base).toNat ≤ (b - base).toNat := by
  have hsub : (a - b).toNat
      = (2 ^ 32 - (b - base).toNat + (a - base).toNat) % 2 ^ 32 := by
    have : a - b = (a - base) - (b - base) := by
      grind
    rw [this, UInt32.toNat_sub]
  rw [spiDiff_eq]
  by_cases h : (a - b).toNat < 2 ^ 31
  · rw [if_pos h]
    omega
  · rw [if_neg h]
    omega

/-! ## What the search is meant to return -/

/-- Position `f` is the first among the first `num` that carries `spi`. -/
def FirstAt (key : α → UInt32) (arr : Nat → α) (num : Nat) (spi : UInt32)
    (f : Nat) : Prop :=
  f < num ∧ key (arr f) = spi ∧ ∀ j, j < f → key (arr j) ≠ spi

/-- The contract of the search: a non-negative result exactly when one of the
    configured entries carries the SPI, and then the first such position. -/
def ReturnsFirst (key : α → UInt32) (configured : List α) (arr : Nat → α)
    (spi : UInt32) (r : Int) : Prop :=
  (0 ≤ r ↔ ∃ e ∈ configured, key e = spi)
    ∧ ∀ f : Nat, r = f → FirstAt key arr configured.length spi f

/-- Every position halving looks at on the way to the first entry with the SPI
    carries an SPI that compares towards that entry: none after it equals
    the SPI, and none lies more than half the range away. -/
def HalvingSteers (key : α → UInt32) (arr : Nat → α) (num : Nat)
    (spi : UInt32) : Prop :=
  ∀ f, FirstAt key arr num spi f →
    SteersTo (fun m => spiDiff spi (key (arr m))) f (probes num f)

/-- A carried SPI has a first position. -/
theorem exists_firstAt {key : α → UInt32} {arr : Nat → α} {num : Nat}
    {spi : UInt32} {i : Nat} (hi : i < num) (hk : key (arr i) = spi) :
    ∃ f, FirstAt key arr num spi f := by
  have hex : ∃ j, key (arr j) = spi := ⟨i, hk⟩
  classical
  refine ⟨Nat.find hex, ?_, Nat.find_spec hex, ?_⟩
  · exact (Nat.find_le hk).trans_lt hi
  · intro j hj
    exact Nat.find_min hex hj

/-- The reading of a sorted table by position. -/
def sorted [Inhabited α] (cmp : α → α → Int) (xs : List α) (i : Nat) : α :=
  (msort cmp xs).getD i default

/-- Sorting moves entries but neither adds nor drops one. -/
theorem exists_sorted_iff [Inhabited α] (cmp : α → α → Int) (key : α → UInt32)
    (xs : List α) (spi : UInt32) :
    (∃ i, i < xs.length ∧ key (sorted cmp xs i) = spi)
      ↔ ∃ e ∈ xs, key e = spi := by
  have hlen := length_msort cmp xs
  constructor
  · rintro ⟨i, hi, hk⟩
    refine ⟨sorted cmp xs i, ?_, hk⟩
    rw [← mem_msort cmp xs, sorted, List.getD_eq_getElem _ _ (by omega)]
    exact List.getElem_mem _
  · rintro ⟨e, he, hk⟩
    rw [← mem_msort cmp xs] at he
    obtain ⟨i, hi, heq⟩ := List.getElem_of_mem he
    refine ⟨i, by omega, ?_⟩
    rw [sorted, List.getD_eq_getElem _ _ hi, heq, hk]

/-- **FIRST ENTRY, EXACTLY**: on the sorted table the search meets its
    contract for an SPI if and only if halving is steered to the first entry
    that carries it. -/
theorem first_entry_iff_steers [Inhabited α] (cmp : α → α → Int) (key : α → UInt32)
    (tmpl : α) (hcmp : ∀ a b, cmp a b = spiDiff (key a) (key b))
    (xs : List α) :
    ReturnsFirst key xs (sorted cmp xs) (key tmpl)
        (arrPresent cmp tmpl (sorted cmp xs) xs.length)
      ↔ HalvingSteers key (sorted cmp xs) xs.length (key tmpl) := by
  have hc : (fun i => cmp tmpl (sorted cmp xs i))
      = fun m => spiDiff (key tmpl) (key (sorted cmp xs m)) :=
    funext fun i => hcmp _ _
  rw [arrPresent, hc]
  constructor
  · rintro ⟨hpres, hfirst⟩ f hf
    have hnn := hpres.mpr ((exists_sorted_iff cmp key xs _).mp
      ⟨f, hf.1, hf.2.1⟩)
    cases hb : bsearch (fun m => spiDiff (key tmpl)
        (key (sorted cmp xs m))) xs.length with
    | none =>
        rw [hb] at hnn
        exact absurd hnn (by decide)
    | some i =>
        rw [hb] at hfirst
        have hi := hfirst i rfl
        -- two first positions coincide
        have hif : i = f := by
          rcases Nat.lt_trichotomy i f with h | h | h
          · exact absurd hi.2.1 (hf.2.2 i h)
          · exact h
          · exact absurd hf.2.1 (hi.2.2 f h)
        rw [hif] at hb
        exact ((bsearch_eq_some_iff _ _ _).mp hb).2.2
  · intro hsteer
    by_cases hex : ∃ e ∈ xs, key e = key tmpl
    · obtain ⟨i, hi, hk⟩ := (exists_sorted_iff cmp key xs _).mpr hex
      obtain ⟨f, hf⟩ := exists_firstAt hi hk
      have hb := (bsearch_eq_some_iff
        (fun m => spiDiff (key tmpl) (key (sorted cmp xs m))) xs.length f).mpr
        ⟨hf.1, (spiDiff_eq_zero _ _).mpr hf.2.1.symm, hsteer f hf⟩
      rw [hb]
      refine ⟨⟨fun _ => hex, fun _ => Int.natCast_nonneg f⟩, ?_⟩
      intro g hg
      rw [← Int.ofNat.inj hg]
      exact hf
    · cases hb : bsearch (fun m => spiDiff (key tmpl)
          (key (sorted cmp xs m))) xs.length with
      | none =>
          refine ⟨⟨fun h => absurd h (by decide), fun h => absurd h hex⟩, ?_⟩
          intro f hf
          exact absurd hf (by simp [enoent])
      | some i =>
          have hs := bsearch_sound hb
          have hk := (spiDiff_eq_zero _ _).mp hs.2
          exact absurd ((exists_sorted_iff cmp key xs _).mp
            ⟨i, hs.1, hk.symm⟩) hex

/-- **HALF THE RANGE SUFFICES**: if the SPIs of a table are distinct and all
    lie in one half of the range, possibly across its end, every search meets
    its contract. -/
theorem first_entry_of_half_range [Inhabited α] (cmp : α → α → Int) (key : α → UInt32)
    (tmpl : α) (hcmp : ∀ a b, cmp a b = spiDiff (key a) (key b))
    (xs : List α) (base : UInt32)
    (hhalf : ∀ e ∈ xs, (key e - base).toNat < 2 ^ 31)
    (hdistinct : (xs.map key).Nodup) :
    ReturnsFirst key xs (sorted cmp xs) (key tmpl)
      (arrPresent cmp tmpl (sorted cmp xs) xs.length) := by
  rw [first_entry_iff_steers cmp key tmpl hcmp xs]
  intro f hf m hm
  have hlen := length_msort cmp xs
  have hb := probesLoop_bounds f xs.length 0 xs.length m hm
  have hordered := msort_ordered cmp (fun e => (key e - base).toNat) xs (by
    intro a ha b hb
    rw [hcmp]
    exact spiDiff_le_zero_iff (hhalf a ha) (hhalf b hb))
  have hnodup : ((msort cmp xs).map key).Nodup :=
    (((msort_perm cmp xs).map key).nodup_iff).mpr hdistinct
  have hstrict : ∀ i j, i < j → j < xs.length →
      spiDiff (key (sorted cmp xs i)) (key (sorted cmp xs j)) < 0
        ∧ 0 < spiDiff (key (sorted cmp xs j)) (key (sorted cmp xs i)) := by
    intro i j hij hj
    have hle := List.pairwise_iff_getElem.mp hordered i j (by omega)
      (by omega) hij
    have hne := List.pairwise_iff_getElem.mp hnodup i j (by simp; omega)
      (by simp; omega) hij
    rw [List.getElem_map, List.getElem_map] at hne
    rw [sorted, sorted, List.getD_eq_getElem _ _ (by omega),
      List.getD_eq_getElem _ _ (by omega)]
    have hi := hhalf _ ((mem_msort cmp xs _).mp
      (List.getElem_mem (show i < (msort cmp xs).length by omega)))
    have hj := hhalf _ ((mem_msort cmp xs _).mp
      (List.getElem_mem (show j < (msort cmp xs).length by omega)))
    have h1 := (spiDiff_le_zero_iff hi hj).mpr hle
    have h2 := mt (spiDiff_eq_zero _ _).mp hne
    have h4 : ¬ spiDiff (key (msort cmp xs)[j]) (key (msort cmp xs)[i]) ≤ 0 := by
      intro h
      have := (spiDiff_le_zero_iff hj hi).mp h
      have heq : (key (msort cmp xs)[i] - base).toNat
          = (key (msort cmp xs)[j] - base).toNat := by omega
      exact hne ((UInt32.sub_left_inj base).mp (UInt32.toNat.inj heq))
    omega
  rw [hf.2.1.symm]
  exact ⟨fun h => (hstrict f m h hb.2.1).1, fun h => (hstrict m f h hf.1).2⟩

/-! ## The three searches after sorting -/

/-- The SAs of one direction. -/
def saEntries (t : Tables) (inbound : Bool) : List IpsecSa :=
  if inbound then t.saIn else t.saOut

/-- The IPv4 rules of one direction. -/
def acl4Entries (t : Tables) (inbound : Bool) : List AclRules :=
  if inbound then t.acl4RulesIn else t.acl4RulesOut

/-- The IPv6 rules of one direction. -/
def acl6Entries (t : Tables) (inbound : Bool) : List AclRules :=
  if inbound then t.acl6RulesIn else t.acl6RulesOut

/-- The SA array `sa_init` fills, in the order of the sorted table. -/
def saArr (t : Tables) (inbound : Bool) (i : Nat) : IpsecSa :=
  (saEntries t inbound).getD i default

theorem saEntries_saSortArr (t : Tables) (inbound : Bool) :
    saEntries (saSortArr t) inbound = msort saCmp (saEntries t inbound) := by
  cases inbound <;> rfl

theorem acl4Entries_sp4SortArr (t : Tables) (inbound : Bool) :
    acl4Entries (sp4SortArr t) inbound
      = msort spCmp (acl4Entries t inbound) := by
  cases inbound <;> rfl

theorem acl6Entries_sp6SortArr (t : Tables) (inbound : Bool) :
    acl6Entries (sp6SortArr t) inbound
      = msort spCmp (acl6Entries t inbound) := by
  cases inbound <;> rfl

/-- The SA search on sorted tables is the common search. -/
theorem saSpiPresent_saSortArr (t : Tables) (spi : UInt32) (inbound : Bool) :
    saSpiPresent (saSortArr t) (saArr (saSortArr t) inbound) spi inbound
      = arrPresent saCmp { spi := spi } (sorted saCmp (saEntries t inbound))
          (saEntries t inbound).length := by
  have harr : saArr (saSortArr t) inbound
      = sorted saCmp (saEntries t inbound) := by
    funext i
    rw [saArr, saEntries_saSortArr, sorted]
  have hnum : (if inbound then (saSortArr t).saIn.length
      else (saSortArr t).saOut.length) = (saEntries t inbound).length := by
    cases inbound <;> exact length_msort _ _
  rw [saSpiPresent, harr, hnum]

theorem sp4SpiPresent_sp4SortArr (t : Tables) (spi : UInt32)
    (inbound : Bool) :
    sp4SpiPresent (sp4SortArr t) spi inbound
      = arrPresent spCmp { userdata := spi }
          (sorted spCmp (acl4Entries t inbound))
          (acl4Entries t inbound).length := by
  show arrPresent spCmp { userdata := spi }
    (fun i => (acl4Entries (sp4SortArr t) inbound).getD i default)
    (acl4Entries (sp4SortArr t) inbound).length = _
  rw [acl4Entries_sp4SortArr, length_msort]
  rfl

theorem sp6SpiPresent_sp6SortArr (t : Tables) (spi : UInt32)
    (inbound : Bool) :
    sp6SpiPresent (sp6SortArr t) spi inbound
      = arrPresent spCmp { userdata := spi }
          (sorted spCmp (acl6Entries t inbound))
          (acl6Entries t inbound).length := by
  show arrPresent spCmp { userdata := spi }
    (fun i => (acl6Entries (sp6SortArr t) inbound).getD i default)
    (acl6Entries (sp6SortArr t) inbound).length = _
  rw [acl6Entries_sp6SortArr, length_msort]
  rfl

/-- **THE SPI SEARCHES, EXACTLY**: after sorting, each of the three searches
    meets its contract for an SPI if and only if halving is steered to the
    first entry carrying it. -/
theorem spi_present_iff_steers (t : Tables) (spi : UInt32) (inbound : Bool) :
    (ReturnsFirst IpsecSa.spi (saEntries t inbound)
        (saArr (saSortArr t) inbound) spi
        (saSpiPresent (saSortArr t) (saArr (saSortArr t) inbound) spi inbound)
      ↔ HalvingSteers IpsecSa.spi (saArr (saSortArr t) inbound)
          (saEntries t inbound).length spi)
    ∧ (ReturnsFirst AclRules.userdata (acl4Entries t inbound)
        (fun i => (acl4Entries (sp4SortArr t) inbound).getD i default) spi
        (sp4SpiPresent (sp4SortArr t) spi inbound)
      ↔ HalvingSteers AclRules.userdata
          (fun i => (acl4Entries (sp4SortArr t) inbound).getD i default)
          (acl4Entries t inbound).length spi)
    ∧ (ReturnsFirst AclRules.userdata (acl6Entries t inbound)
        (fun i => (acl6Entries (sp6SortArr t) inbound).getD i default) spi
        (sp6SpiPresent (sp6SortArr t) spi inbound)
      ↔ HalvingSteers AclRules.userdata
          (fun i => (acl6Entries (sp6SortArr t) inbound).getD i default)
          (acl6Entries t inbound).length spi) := by
  refine ⟨?_, ?_, ?_⟩
  · have harr : saArr (saSortArr t) inbound
        = sorted saCmp (saEntries t inbound) := by
      funext i
      rw [saArr, saEntries_saSortArr, sorted]
    rw [saSpiPresent_saSortArr, harr]
    exact first_entry_iff_steers saCmp IpsecSa.spi { spi := spi }
      (fun _ _ => rfl) (saEntries t inbound)
  · rw [sp4SpiPresent_sp4SortArr, acl4Entries_sp4SortArr]
    exact first_entry_iff_steers spCmp AclRules.userdata { userdata := spi }
      (fun _ _ => rfl) (acl4Entries t inbound)
  · rw [sp6SpiPresent_sp6SortArr, acl6Entries_sp6SortArr]
    exact first_entry_iff_steers spCmp AclRules.userdata { userdata := spi }
      (fun _ _ => rfl) (acl6Entries t inbound)

/-- Three SAs, each next one less than half the range above the one before,
    the third at least half the range above the first: sorting keeps their
    order, and the search for the third turns left at the second. -/
theorem third_missed (a b c : UInt32) (hab : spiDiff a b ≤ 0)
    (hbc : spiDiff b c ≤ 0) (hcb : spiDiff c b < 0) (hca : spiDiff c a ≠ 0) :
    saSpiPresent (saSortArr { saIn := [{ spi := a }, { spi := b },
        { spi := c }] })
      (saArr (saSortArr { saIn := [{ spi := a }, { spi := b },
        { spi := c }] }) true) c true = enoent := by
  rw [saSpiPresent_saSortArr]
  have hsort : msort saCmp [{ spi := a }, { spi := b }, { spi := c }]
      = [{ spi := a }, { spi := b }, { spi := c }] := by
    simp [msort, msortDepth, saCmp, hab, hbc]
  simp only [saEntries, sorted, arrPresent]
  rcases Int.lt_or_lt_of_ne hca with h | h
  · simp [bsearch, bsearchLoop, hsort, saCmp, hcb, h]
  · simp [bsearch, bsearchLoop, hsort, saCmp, hcb, h]

/-- Two SAs with one SPI: the search returns the second. -/
theorem second_returned (a : UInt32) :
    saSpiPresent (saSortArr { saIn := [{ spi := a }, { spi := a }] })
      (saArr (saSortArr { saIn := [{ spi := a }, { spi := a }] }) true)
      a true = 1 := by
  simp [saSpiPresent_saSortArr, arrPresent, sorted, saEntries, msort,
    msortDepth, saCmp, spiDiff, bsearch, bsearchLoop]

/-- **THE SEARCH IS NEITHER COMPLETE NOR FIRST**: a configured SPI is missed,
    and of two entries with one SPI the second is returned. -/
theorem spi_present_misses :
    ¬ ReturnsFirst IpsecSa.spi
        [{ spi := 0x10 }, { spi := 0x40000010 }, { spi := 0xc0000010 }]
        (saArr (saSortArr { saIn := [{ spi := 0x10 }, { spi := 0x40000010 },
          { spi := 0xc0000010 }] }) true) 0xc0000010
        (saSpiPresent (saSortArr { saIn := [{ spi := 0x10 },
            { spi := 0x40000010 }, { spi := 0xc0000010 }] })
          (saArr (saSortArr { saIn := [{ spi := 0x10 }, { spi := 0x40000010 },
            { spi := 0xc0000010 }] }) true) 0xc0000010 true)
      ∧ ¬ ReturnsFirst IpsecSa.spi [{ spi := 5 }, { spi := 5 }]
          (saArr (saSortArr { saIn := [{ spi := 5 }, { spi := 5 }] }) true) 5
          (saSpiPresent (saSortArr { saIn := [{ spi := 5 }, { spi := 5 }] })
            (saArr (saSortArr { saIn := [{ spi := 5 }, { spi := 5 }] }) true)
            5 true) := by
  refine ⟨?_, ?_⟩
  · rintro ⟨hpres, -⟩
    rw [third_missed 0x10 0x40000010 0xc0000010 (by decide) (by decide)
      (by decide) (by decide)] at hpres
    exact absurd (hpres.mpr ⟨{ spi := 0xc0000010 }, by simp, rfl⟩) (by decide)
  · rintro ⟨-, hfirst⟩
    refine (hfirst 1 (second_returned 5)).2.2 0 (by decide) ?_
    rw [saArr, saEntries_saSortArr]
    simp [saEntries, msort, msortDepth, saCmp, spiDiff]

end SpiSearch
