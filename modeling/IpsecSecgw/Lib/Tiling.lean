import Mathlib.Data.List.Basic

/-! # Tilings of an interval

    A list of parts, each with a start and a size, tiles an interval when every
    part begins where the one before it ends and the last one ends with the
    interval.  Parts of a tiling lie inside the interval and do not overlap. -/

namespace Tiling

variable {α : Type} {start size : α → Nat}

/-- The parts lie one behind the other from `a` to `b`. -/
def Tiles (start size : α → Nat) : Nat → List α → Nat → Prop
  | a, [], b => a = b
  | a, r :: l, b => start r = a ∧ Tiles start size (a + size r) l b

theorem Tiles.le {a b : Nat} {l : List α} (h : Tiles start size a l b) :
    a ≤ b := by
  induction l generalizing a with
  | nil => exact Nat.le_of_eq h
  | cons r l ih => exact Nat.le_trans (Nat.le_add_right a (size r)) (ih h.2)

/-- **INSIDE**: no part sticks out. -/
theorem Tiles.inside {a b : Nat} {l : List α} (h : Tiles start size a l b) :
    ∀ r ∈ l, a ≤ start r ∧ start r + size r ≤ b := by
  induction l generalizing a with
  | nil =>
      intro r hr
      cases hr
  | cons s l ih =>
      obtain ⟨hs, hl⟩ := h
      intro r hr
      rcases List.mem_cons.mp hr with rfl | hr
      · rw [hs]
        exact ⟨Nat.le_refl _, hl.le⟩
      · obtain ⟨hlo, hhi⟩ := ih hl r hr
        exact ⟨Nat.le_trans (Nat.le_add_right _ _) hlo, hhi⟩

/-- **APART**: a part ends before every later one begins. -/
theorem Tiles.apart {a b : Nat} {l : List α} (h : Tiles start size a l b) :
    l.Pairwise fun r s => start r + size r ≤ start s := by
  induction l generalizing a with
  | nil => exact List.Pairwise.nil
  | cons r l ih =>
      obtain ⟨hr, hl⟩ := h
      refine List.pairwise_cons.mpr ⟨?_, ih hl⟩
      intro s hs
      rw [hr]
      exact (hl.inside s hs).1

/-- A part at the end begins where those before it end. -/
theorem tiles_concat {a b : Nat} {l : List α} {r : α} :
    Tiles start size a (l ++ [r]) b
      ↔ Tiles start size a l (start r) ∧ start r + size r = b := by
  induction l generalizing a with
  | nil =>
      show (start r = a ∧ a + size r = b) ↔ (a = start r ∧ start r + size r = b)
      constructor
      · rintro ⟨rfl, hb⟩
        exact ⟨rfl, hb⟩
      · rintro ⟨rfl, hb⟩
        exact ⟨rfl, hb⟩
  | cons s l ih =>
      show (_ ∧ Tiles start size _ (l ++ [r]) b) ↔ (_ ∧ Tiles start size _ l _) ∧ _
      rw [ih, and_assoc]

end Tiling
