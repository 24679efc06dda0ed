import Mathlib.Data.List.Perm.Basic

/-! # Loops that collect

    A loop over a list that appends to lists it keeps in its state: each of
    these lists ends as what it was, followed by what the elements contribute,
    in their order.  As a function of the list looped over such an output is a
    sum over the elements (`Sums`); stages whose outputs are sums make a
    pipeline whose output is a sum again, and where outputs are put one behind
    the other, it is one up to the order (`SumsPerm`). -/

namespace Collect

variable {α β γ σ : Type}

/-- **COLLECTING**: an output that every round extends by `f a` is extended by
    all of them. -/
theorem foldl_collect {step : σ → α → σ} {out : σ → List β} {f : α → List β}
    (h : ∀ s a, out (step s a) = out s ++ f a) (l : List α) (s : σ) :
    out (l.foldl step s) = out s ++ l.flatMap f := by
  induction l generalizing s with
  | nil => exact (List.append_nil _).symm
  | cons a l ih =>
      rw [List.foldl_cons, ih, h, List.flatMap_cons, List.append_assoc]

/-- **KEEPING**: something no round touches stays. -/
theorem foldl_keep {step : σ → α → σ} {out : σ → β}
    (h : ∀ s a, out (step s a) = out s) (l : List α) (s : σ) :
    out (l.foldl step s) = out s := by
  induction l generalizing s with
  | nil => rfl
  | cons a l ih => rw [List.foldl_cons, ih, h]

/-! ## Sums over elements -/

/-- The output for a list is what its elements contribute, in order. -/
def Sums (F : List α → List β) : Prop :=
  ∀ l, F l = l.flatMap fun a => F [a]

/-- The same up to the order. -/
def SumsPerm (F : List α → List β) : Prop :=
  ∀ l, (F l).Perm (l.flatMap fun a => F [a])

theorem sums_id : Sums (fun l : List α => l) := by
  intro l
  induction l with
  | nil => rfl
  | cons a l ih => rw [List.flatMap_cons, ← ih, List.singleton_append]

theorem sums_nil : Sums (fun _ : List α => ([] : List β)) := by
  intro l
  induction l with
  | nil => rfl
  | cons a l ih => rw [List.flatMap_cons, ← ih, List.append_nil]

/-- An output of a loop that starts empty is a sum. -/
theorem sums_foldl {step : σ → α → σ} {out : σ → List β} {s₀ : σ}
    (h₀ : out s₀ = []) (h : ∀ s a, out (step s a) = out s ++ out (step s₀ a)) :
    Sums fun l => out (l.foldl step s₀) := by
  intro l
  dsimp only [List.foldl_cons, List.foldl_nil]
  rw [foldl_collect h, h₀, List.nil_append]

theorem Sums.append {F : List α → List β} (hF : Sums F) (l l' : List α) :
    F (l ++ l') = F l ++ F l' := by
  rw [hF, List.flatMap_append, ← hF, ← hF]

theorem Sums.flatMap {F : List β → List γ} (hF : Sums F) (l : List α)
    (f : α → List β) : F (l.flatMap f) = l.flatMap fun a => F (f a) := by
  induction l with
  | nil => exact hF []
  | cons a l ih => rw [List.flatMap_cons, List.flatMap_cons, hF.append, ih]

/-- **PIPELINES**: a sum over a sum is one. -/
theorem Sums.comp {F : List β → List γ} {G : List α → List β} (hF : Sums F)
    (hG : Sums G) : Sums fun l => F (G l) := by
  intro l
  dsimp only
  rw [hG l]
  exact hF.flatMap l _

theorem Sums.perm {F : List α → List β} (hF : Sums F) : SumsPerm F := by
  intro l
  rw [← hF]

/-- **OUTPUTS TOGETHER**: two sums one behind the other are a sum but for the
    order. -/
theorem SumsPerm.append {F G : List α → List β} (hF : SumsPerm F)
    (hG : SumsPerm G) : SumsPerm fun l => F l ++ G l := by
  intro l
  exact ((hF l).append (hG l)).trans (List.flatMap_append_perm l _ _)

/-- Contributions of which none is shorter than another's, in lists of one
    length, have the same lengths. -/
theorem length_eq_of_flatMap_length {f g : α → List β}
    (hle : ∀ a, (f a).length ≤ (g a).length) {l : List α}
    (h : (l.flatMap f).length = (l.flatMap g).length) :
    ∀ a ∈ l, (f a).length = (g a).length := by
  have mono : ∀ l : List α, (l.flatMap f).length ≤ (l.flatMap g).length := by
    intro l
    induction l with
    | nil => exact Nat.le_refl _
    | cons a l ih =>
        rw [List.flatMap_cons, List.flatMap_cons, List.length_append,
          List.length_append]
        exact Nat.add_le_add (hle a) ih
  induction l with
  | nil =>
      intro a ha
      cases ha
  | cons b l ih =>
      rw [List.flatMap_cons, List.flatMap_cons, List.length_append,
        List.length_append] at h
      have hb := hle b
      have hl := mono l
      intro a ha
      rcases List.mem_cons.mp ha with rfl | ha
      · omega
      · exact ih (by omega) a ha

end Collect
