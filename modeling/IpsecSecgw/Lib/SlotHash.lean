import Mathlib.Data.Finset.Card
import Mathlib.Data.List.AList

/-! # Hash tables with positions

    A hash table that gives every key it holds a position below a bound, stable
    until the key is deleted and shared with no other key, so that callers can
    keep the data of the keys in an array of their own.  Which free position a
    new key gets is the table's affair: it is asked for as an answer, and an
    answer that is no free position means that there is no room. -/

namespace Hashing

/-- A table of keys and positions. -/
structure SlotHash (κ : Type) [DecidableEq κ] (bound : Nat) where
  table : AList fun _ : κ => Nat
  apart : ∀ k k' p, table.lookup k = some p → table.lookup k' = some p → k = k'
  inside : ∀ k p, table.lookup k = some p → p < bound

variable {κ : Type} [DecidableEq κ] {bound : Nat}

/-- The table without keys. -/
def SlotHash.empty : SlotHash κ bound where
  table := ∅
  apart := fun k k' p h => by cases h
  inside := fun k p h => by cases h

instance : Inhabited (SlotHash κ bound) := ⟨SlotHash.empty⟩

/-- The position of a key. -/
def SlotHash.lookup (h : SlotHash κ bound) (k : κ) : Option Nat := h.table.lookup k

/-- The number of keys. -/
def SlotHash.size (h : SlotHash κ bound) : Nat := h.table.entries.length

/-- The positions in use. -/
def SlotHash.positions (h : SlotHash κ bound) : List Nat :=
  h.table.entries.map fun e => e.2

theorem SlotHash.mem_positions {h : SlotHash κ bound} {p : Nat} :
    p ∈ h.positions ↔ ∃ k, h.lookup k = some p := by
  rw [SlotHash.positions, List.mem_map]
  constructor
  · rintro ⟨⟨k, q⟩, he, rfl⟩
    exact ⟨k, AList.mem_lookup_iff.mpr he⟩
  · rintro ⟨k, hk⟩
    exact ⟨⟨k, p⟩, AList.mem_lookup_iff.mp hk, rfl⟩

/-- A position a new key can get. -/
def SlotHash.Free (h : SlotHash κ bound) (p : Nat) : Prop :=
  p < bound ∧ p ∉ h.positions

instance (h : SlotHash κ bound) (p : Nat) : Decidable (h.Free p) :=
  inferInstanceAs (Decidable (_ ∧ _))

/-- A free position is that of no key. -/
theorem SlotHash.Free.ne {h : SlotHash κ bound} {p : Nat} (hp : h.Free p) (k : κ) :
    h.lookup k ≠ some p := by
  intro hk
  exact hp.2 (SlotHash.mem_positions.mpr ⟨k, hk⟩)

/-! ## Adding and deleting -/

/-- The key gets the position. -/
def SlotHash.add (h : SlotHash κ bound) (k : κ) (p : Nat) (hp : h.Free p) :
    SlotHash κ bound where
  table := h.table.insert k p
  apart := by
    intro k₁ k₂ q h₁ h₂
    by_cases e₁ : k₁ = k
    · by_cases e₂ : k₂ = k
      · rw [e₁, e₂]
      · subst e₁
        rw [AList.lookup_insert] at h₁
        rw [AList.lookup_insert_ne e₂] at h₂
        cases h₁
        exact absurd h₂ (hp.ne k₂)
    · rw [AList.lookup_insert_ne e₁] at h₁
      by_cases e₂ : k₂ = k
      · subst e₂
        rw [AList.lookup_insert] at h₂
        cases h₂
        exact absurd h₁ (hp.ne k₁)
      · rw [AList.lookup_insert_ne e₂] at h₂
        exact h.apart k₁ k₂ q h₁ h₂
  inside := by
    intro k' q h'
    by_cases e : k' = k
    · subst e
      rw [AList.lookup_insert] at h'
      cases h'
      exact hp.1
    · rw [AList.lookup_insert_ne e] at h'
      exact h.inside k' q h'

/-- The key goes. -/
def SlotHash.erase (h : SlotHash κ bound) (k : κ) : SlotHash κ bound where
  table := h.table.erase k
  apart := by
    intro k₁ k₂ q h₁ h₂
    have keep : ∀ k' q, (h.table.erase k).lookup k' = some q →
        h.table.lookup k' = some q := by
      intro k' q h'
      by_cases e : k' = k
      · subst e
        rw [AList.lookup_erase] at h'
        cases h'
      · rwa [AList.lookup_erase_ne e] at h'
    exact h.apart k₁ k₂ q (keep k₁ q h₁) (keep k₂ q h₂)
  inside := by
    intro k' q h'
    by_cases e : k' = k
    · subst e
      rw [AList.lookup_erase] at h'
      cases h'
    · rw [AList.lookup_erase_ne e] at h'
      exact h.inside k' q h'

/-- A new key is added at the position the table answers with; `none` when
    there is no room. -/
def SlotHash.addKey (h : SlotHash κ bound) (k : κ) (answer : Option Nat) :
    Option (Nat × SlotHash κ bound) :=
  match answer with
  | none => none
  | some p => if hp : h.Free p then some (p, h.add k p hp) else none

/-- A key is deleted; the result is the position it had. -/
def SlotHash.delKey (h : SlotHash κ bound) (k : κ) :
    Option (Nat × SlotHash κ bound) :=
  (h.lookup k).map fun p => (p, h.erase k)

/-! ## Lookups behind them -/

theorem SlotHash.lookup_inj {h : SlotHash κ bound} {k k' : κ} {p : Nat}
    (hk : h.lookup k = some p) (hk' : h.lookup k' = some p) : k = k' :=
  h.apart k k' p hk hk'

theorem SlotHash.lookup_lt {h : SlotHash κ bound} {k : κ} {p : Nat}
    (hk : h.lookup k = some p) : p < bound :=
  h.inside k p hk

@[simp] theorem SlotHash.lookup_empty (k : κ) :
    (SlotHash.empty : SlotHash κ bound).lookup k = none := rfl

theorem SlotHash.lookup_add (h : SlotHash κ bound) (k : κ) {p : Nat}
    (hp : h.Free p) (k' : κ) :
    (h.add k p hp).lookup k' = if k' = k then some p else h.lookup k' := by
  by_cases e : k' = k
  · subst e
    rw [if_pos rfl]
    exact AList.lookup_insert _
  · rw [if_neg e]
    exact AList.lookup_insert_ne e

theorem SlotHash.lookup_erase (h : SlotHash κ bound) (k k' : κ) :
    (h.erase k).lookup k' = if k' = k then none else h.lookup k' := by
  by_cases e : k' = k
  · subst e
    rw [if_pos rfl]
    exact AList.lookup_erase _ _
  · rw [if_neg e]
    exact AList.lookup_erase_ne e

theorem SlotHash.addKey_some {h h' : SlotHash κ bound} {k : κ} {answer : Option Nat}
    {p : Nat} (hadd : h.addKey k answer = some (p, h')) :
    ∃ hp : h.Free p, h' = h.add k p hp := by
  cases answer with
  | none => cases hadd
  | some q =>
      rw [SlotHash.addKey] at hadd
      split at hadd
      · rename_i hp
        cases hadd
        exact ⟨hp, rfl⟩
      · cases hadd

/-! ## Size -/

theorem SlotHash.size_add {h : SlotHash κ bound} {k : κ} {p : Nat}
    (hp : h.Free p) (hk : h.lookup k = none) :
    (h.add k p hp).size = h.size + 1 := by
  show (h.table.insert k p).entries.length = h.table.entries.length + 1
  rw [AList.entries_insert_of_notMem (AList.lookup_eq_none.mp hk), List.length_cons]

theorem SlotHash.size_erase {h : SlotHash κ bound} {k : κ} {p : Nat}
    (hk : h.lookup k = some p) : (h.erase k).size + 1 = h.size := by
  have hmem : k ∈ h.table.keys := by
    rw [← AList.mem_keys, ← AList.lookup_isSome]
    exact Option.isSome_iff_exists.mpr ⟨p, hk⟩
  have hlen : ∀ t : AList fun _ : κ => Nat, t.keys.length = t.entries.length :=
    fun t => List.length_map _
  show (h.table.erase k).entries.length + 1 = h.table.entries.length
  rw [← hlen, ← hlen, AList.keys_erase, List.length_erase_of_mem hmem]
  exact Nat.sub_add_cancel (List.length_pos_of_mem hmem)

/-- No position is listed twice. -/
theorem SlotHash.nodup_positions (h : SlotHash κ bound) : h.positions.Nodup := by
  refine List.Nodup.map_on ?_ (List.NodupKeys.nodup h.table.nodupKeys)
  rintro ⟨k, p⟩ he ⟨k', p'⟩ he' hpp
  have hp : p = p' := hpp
  subst hp
  have hk : k = k' := h.apart k k' p (AList.mem_lookup_iff.mpr he)
    (AList.mem_lookup_iff.mpr he')
  rw [hk]

/-- **COUNTING**: what holds of the positions in use and of no other holds as
    often as there are keys. -/
theorem SlotHash.card_positions (h : SlotHash κ bound) (P : Nat → Prop)
    [DecidablePred P] (hP : ∀ p, p < bound → (P p ↔ ∃ k, h.lookup k = some p)) :
    ((Finset.range bound).filter P).card = h.size := by
  have hsame : (Finset.range bound).filter P = h.positions.toFinset := by
    ext p
    rw [Finset.mem_filter, Finset.mem_range, List.mem_toFinset,
      SlotHash.mem_positions]
    constructor
    · rintro ⟨hp, h'⟩
      exact (hP p hp).mp h'
    · rintro ⟨k, hk⟩
      exact ⟨h.lookup_lt hk, (hP p (h.lookup_lt hk)).mpr ⟨k, hk⟩⟩
  rw [hsame, List.toFinset_card_of_nodup h.nodup_positions, SlotHash.positions,
    List.length_map, SlotHash.size]

theorem SlotHash.size_le (h : SlotHash κ bound) : h.size ≤ bound := by
  have hcard := h.card_positions (fun p => p ∈ h.positions)
    fun p _ => SlotHash.mem_positions
  rw [← hcard]
  exact (Finset.card_filter_le _ _).trans (Nat.le_of_eq (Finset.card_range bound))

end Hashing
