import Mathlib.Data.Option.Basic

/-! # Loops with fuel

    A loop that may run for ever is a function of a number of rounds, `none` where
    they are used up.  `Returns f r` says that it comes to an end with `r`: any
    number of rounds from some number on is enough. -/

namespace Fuel

variable {α β : Type}

/-- The loop ends, with `r`. -/
def Returns (f : Nat → Option α) (r : α) : Prop := ∃ n, ∀ fuel, n ≤ fuel → f fuel = some r

theorem Returns.unique {f : Nat → Option α} {r r' : α} (h : Returns f r) (h' : Returns f r') :
    r = r' := by
  obtain ⟨n, hn⟩ := h
  obtain ⟨n', hn'⟩ := h'
  have heq := (hn (max n n') (Nat.le_max_left _ _)).symm.trans (hn' _ (Nat.le_max_right _ _))
  exact Option.some.inj heq

/-- No loop. -/
theorem returns_const (r : α) : Returns (fun _ => some r) r := ⟨0, fun _ _ => rfl⟩

/-- **ROUND**: what is left behind a round ends, and so does the whole. -/
theorem Returns.succ {f g : Nat → Option α} {r : α} (h : Returns g r)
    (hround : ∀ fuel, f (fuel + 1) = g fuel) : Returns f r := by
  obtain ⟨n, hn⟩ := h
  refine ⟨n + 1, ?_⟩
  intro fuel hfuel
  obtain ⟨k, rfl⟩ := Nat.exists_eq_add_of_le hfuel
  rw [show n + 1 + k = n + k + 1 by omega, hround]
  exact hn _ (Nat.le_add_right _ _)

/-- **SEQUENCE**: one loop behind the other. -/
theorem Returns.bind {f : Nat → Option α} {g : α → Nat → Option β} {a : α} {b : β}
    (h : Returns f a) (h' : Returns (g a) b) :
    Returns (fun fuel => (f fuel).bind fun x => g x fuel) b := by
  obtain ⟨n, hn⟩ := h
  obtain ⟨n', hn'⟩ := h'
  refine ⟨max n n', ?_⟩
  intro fuel hfuel
  show (f fuel).bind (fun x => g x fuel) = some b
  rw [hn fuel (Nat.le_trans (Nat.le_max_left _ _) hfuel)]
  exact hn' fuel (Nat.le_trans (Nat.le_max_right _ _) hfuel)

theorem Returns.congr {f g : Nat → Option α} {r : α} (h : Returns f r)
    (hfg : ∀ fuel, g fuel = f fuel) : Returns g r := by
  obtain ⟨n, hn⟩ := h
  exact ⟨n, fun fuel hfuel => (hfg fuel).trans (hn fuel hfuel)⟩

end Fuel
