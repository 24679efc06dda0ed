import IpsecSecgw.Lib.Outcome
import IpsecSecgw.Lib.Slots

/-! # Arrays filled from the front

    An array is a function from indices; it holds a list when its first cells
    are the elements of the list (`Filled`).  Writing the next cell appends, and
    a write behind the list leaves it.  A counted loop that can fail and that
    goes through such an array goes through the list (`ends_elements`). -/

namespace Fill

open Outcome Slots

variable {ε α σ : Type}

/-- The first cells of the array are the elements of the list. -/
def Filled (a : Nat → α) (l : List α) : Prop :=
  ∀ i x, l[i]? = some x → a i = x

theorem filled_nil (a : Nat → α) : Filled a [] := by
  intro i x h
  cases h

/-- The cell an element lies in. -/
theorem Filled.get {a : Nat → α} {l done rest : List α} {x : α} (h : Filled a l)
    (hl : l = done ++ x :: rest) : a done.length = x := by
  refine h _ _ ?_
  rw [hl, List.getElem?_append_right (Nat.le_refl _), Nat.sub_self]
  rfl

/-- The same of an array that holds something of every element. -/
theorem Filled.get_map {β : Type} {a : Nat → β} {f : α → β} {l done rest : List α}
    {x : α} (h : Filled a (l.map f)) (hl : l = done ++ x :: rest) :
    a done.length = f x := by
  have hmap : l.map f = done.map f ++ f x :: rest.map f := by
    rw [hl, List.map_append, List.map_cons]
  have hget := h.get hmap
  rw [List.length_map] at hget
  exact hget

/-- What lies behind the first elements does not matter. -/
theorem Filled.of_append {a : Nat → α} {l l' : List α} (h : Filled a (l ++ l')) :
    Filled a l := by
  intro i x hx
  refine h i x ?_
  rwa [List.getElem?_append_left (List.getElem?_eq_some_iff.mp hx).1]

/-- **APPENDING** is writing the next cell. -/
theorem Filled.concat {a : Nat → α} {l : List α} (h : Filled a l) (x : α) :
    Filled (Function.update a l.length x) (l ++ [x]) := by
  intro i y hy
  by_cases hi : i = l.length
  · subst hi
    rw [List.getElem?_append_right (Nat.le_refl _), Nat.sub_self] at hy
    rw [Function.update_self]
    exact Option.some.inj hy
  · rw [Function.update_of_ne hi]
    have hlt : i < l.length := by
      have := (List.getElem?_eq_some_iff.mp hy).1
      rw [List.length_append, List.length_singleton] at this
      omega
    rw [List.getElem?_append_left hlt] at hy
    exact h i y hy

theorem Filled.cells {a : Nat → α} {l : List α} (h : Filled a l) :
    cells a l.length = l := by
  refine List.ext_getElem? ?_
  intro i
  rw [Slots.cells, List.getElem?_map]
  by_cases hi : i < l.length
  · rw [List.getElem?_range hi, List.getElem?_eq_getElem hi]
    exact congrArg some (h i _ (List.getElem?_eq_getElem hi))
  · have hi := Nat.le_of_not_lt hi
    rw [List.getElem?_eq_none (by rw [List.length_range]; exact hi),
      List.getElem?_eq_none hi]
    rfl

/-- The cells in use are the list they are. -/
theorem filled_cells (a : Nat → α) (n : Nat) : Filled a (Slots.cells a n) := by
  intro i x h
  rw [Slots.cells, List.getElem?_map] at h
  obtain ⟨k, hk, rfl⟩ := Option.map_eq_some_iff.mp h
  have hi := (List.getElem?_eq_some_iff.mp hk).1
  rw [List.getElem?_range (by rwa [List.length_range] at hi)] at hk
  rw [Option.some.inj hk]

@[simp] theorem length_cells (a : Nat → α) (n : Nat) :
    (Slots.cells a n).length = n := by
  rw [Slots.cells, List.length_map, List.length_range]

/-! ## Loops -/

/-- A loop every round of which counts one. -/
theorem foldl_count {step : σ → α → σ} {count : σ → Nat}
    (h : ∀ s a, count (step s a) = count s + 1) (l : List α) (s : σ) :
    count (l.foldl step s) = count s + l.length := by
  induction l generalizing s with
  | nil => rfl
  | cons a l ih =>
      rw [List.foldl_cons, ih, h, List.length_cons, Nat.add_assoc, Nat.add_comm 1]

/-- **LOOP**: what the iterations done so far guarantee. -/
theorem ends_range {E : ε → Prop} {f : σ → Nat → Except ε σ} {P : Nat → σ → Prop}
    {n : Nat} {s : σ} (h : P 0 s)
    (hf : ∀ i s, i < n → P i s → Ends (f s i) E (P (i + 1))) :
    Ends ((List.range n).foldlM f s) E (P n) := by
  induction n with
  | zero => exact ends_ok h
  | succ n ih =>
      rw [List.range_succ, List.foldlM_append]
      refine (ih fun i s hi => hf i s (Nat.lt_succ_of_lt hi)).bind ?_
      intro s hs
      rw [List.foldlM_cons]
      refine (hf n s (Nat.lt_succ_self n) hs).bind ?_
      intro s hs
      exact ends_ok hs

/-- **LOOP OVER A LIST**: the counter of a loop stands for the elements it has
    gone through. -/
theorem ends_elements {E : ε → Prop} {f : σ → Nat → Except ε σ}
    {P : List α → σ → Prop} {l : List α} {s : σ} (h : P [] s)
    (hf : ∀ done x rest s, l = done ++ x :: rest → P done s →
      Ends (f s done.length) E (P (done ++ [x]))) :
    Ends ((List.range l.length).foldlM f s) E (P l) := by
  have hloop : Ends ((List.range l.length).foldlM f s) E
      (fun s => P (l.take l.length) s) := by
    refine @ends_range ε σ E f (fun n s => P (l.take n) s) _ s h ?_
    intro i s hi hs
    have hsplit : l = l.take i ++ l[i] :: l.drop (i + 1) := by
      rw [← List.drop_eq_getElem_cons hi, List.take_append_drop]
    have hlen : (l.take i).length = i := List.length_take_of_le (Nat.le_of_lt hi)
    have hround := hf _ _ _ s hsplit hs
    rw [hlen, List.take_append_getElem hi] at hround
    exact hround
  rw [List.take_length] at hloop
  exact hloop

end Fill
