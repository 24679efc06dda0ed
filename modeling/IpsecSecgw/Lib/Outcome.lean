import Mathlib.Data.List.Basic

/-! # Outcomes of computations that can fail

    Pre- and postconditions for `Except`: `Ends x E P` says that `x` ends with
    a value satisfying `P` or with an error satisfying `E`.  The rules follow
    the structure of a program: a value, an error, one computation after the
    other, a loop over a list. -/

namespace Outcome

variable {ε α β : Type} {E : ε → Prop}

/-- `x` ends with a value in `P` or with an error in `E`. -/
def Ends (x : Except ε α) (E : ε → Prop) (P : α → Prop) : Prop :=
  match x with
  | .ok a => P a
  | .error e => E e

theorem ends_ok {P : α → Prop} {a : α} (h : P a) :
    Ends (.ok a : Except ε α) E P := h

theorem ends_pure {P : α → Prop} {a : α} (h : P a) :
    Ends (pure a : Except ε α) E P := h

theorem ends_error {P : α → Prop} {e : ε} (h : E e) :
    Ends (.error e : Except ε α) E P := h

/-- The value of a computation that ended well. -/
theorem Ends.of_ok {x : Except ε α} {P : α → Prop} {a : α} (h : Ends x E P)
    (hx : x = .ok a) : P a := by
  rw [hx] at h
  exact h

/-- The error of a computation that failed. -/
theorem Ends.of_error {x : Except ε α} {P : α → Prop} {e : ε}
    (h : Ends x E P) (hx : x = .error e) : E e := by
  rw [hx] at h
  exact h

/-- **SEQUENCE**: what the first computation guarantees is what the second one
    may assume. -/
theorem Ends.bind {x : Except ε α} {f : α → Except ε β} {P : α → Prop}
    {Q : β → Prop} (h : Ends x E P) (hf : ∀ a, P a → Ends (f a) E Q) :
    Ends (x >>= f) E Q := by
  cases x with
  | ok a => exact hf a h
  | error e => exact h

/-- **CONSEQUENCE**. -/
theorem Ends.mono {x : Except ε α} {E' : ε → Prop} {P Q : α → Prop}
    (h : Ends x E P) (hE : ∀ e, E e → E' e) (hP : ∀ a, P a → Q a) :
    Ends x E' Q := by
  cases x with
  | ok a => exact hP a h
  | error e => exact hE e h

/-- **CONJUNCTION**: two guarantees about the values are one. -/
theorem Ends.and {x : Except ε α} {E' : ε → Prop} {P Q : α → Prop}
    (h : Ends x E P) (h' : Ends x E' Q) : Ends x E (fun a => P a ∧ Q a) := by
  cases x with
  | ok a => exact ⟨h, h'⟩
  | error e => exact h

/-- The run itself may be kept. -/
theorem Ends.with_run {x : Except ε α} {P : α → Prop} (h : Ends x E P) :
    Ends x E (fun a => x = .ok a ∧ P a) := by
  cases x with
  | ok a => exact ⟨rfl, h⟩
  | error e => exact h

/-- **LOOP**: every round preserves the invariant, which may speak of the
    elements still to come. -/
theorem ends_foldlM {P : List α → β → Prop} {f : β → α → Except ε β}
    {l : List α} {b : β} (h : P l b)
    (hf : ∀ a l b, P (a :: l) b → Ends (f b a) E (P l)) :
    Ends (l.foldlM f b) E (P []) := by
  induction l generalizing b with
  | nil => exact h
  | cons a l ih =>
      rw [List.foldlM_cons]
      refine (hf a l b h).bind ?_
      intro b' hb'
      exact ih hb'

/-- A loop whose rounds fail by their element alone ends well where no element fails. -/
theorem foldlM_ok_iff {Q : α → Prop} {f : β → α → Except ε β}
    (hf : ∀ b a, (∃ b', f b a = .ok b') ↔ Q a) (l : List α) (b : β) :
    (∃ b', l.foldlM f b = .ok b') ↔ ∀ a ∈ l, Q a := by
  induction l generalizing b with
  | nil => exact iff_of_true ⟨b, rfl⟩ (fun _ h => absurd h List.not_mem_nil)
  | cons a l ih =>
      rw [List.forall_mem_cons, List.foldlM_cons, ← hf b a]
      cases hround : f b a with
      | ok b' =>
          have hQ : ∃ b'', (Except.ok b' : Except ε β) = .ok b'' := ⟨b', rfl⟩
          rw [and_iff_right hQ]
          exact ih b'
      | error e =>
          constructor
          · rintro ⟨_, h⟩
            cases h
          · rintro ⟨⟨_, h⟩, -⟩
            cases h

end Outcome
