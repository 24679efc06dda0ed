import Mathlib.Logic.Relation

/-! # What raises a number

    A system takes labelled steps, and a number is read off its states.  If every step
    that raises the number has a reason, as long as an invariant holds, then whatever the
    number has got to in a run it has passed for such reasons. -/

namespace Rises

variable {σ α : Type*} {step : α → σ → σ → Prop} {inv : σ → Prop}

/-- Steps, one behind the other. -/
def Reach (step : α → σ → σ → Prop) : σ → σ → Prop :=
  Relation.ReflTransGen fun s s' => ∃ a, step a s s'

theorem Reach.refl (s : σ) : Reach step s s := Relation.ReflTransGen.refl

theorem Reach.tail {s s' s'' : σ} {a : α} (h : Reach step s s') (hstep : step a s' s'') :
    Reach step s s'' :=
  Relation.ReflTransGen.tail h ⟨a, hstep⟩

theorem Reach.single {s s' : σ} {a : α} (h : step a s s') : Reach step s s' :=
  (Reach.refl s).tail h

/-- What every step keeps holds at the end of a run. -/
theorem Reach.keeps (hkeep : ∀ a s s', inv s → step a s s' → inv s') {s s' : σ}
    (h : Reach step s s') (hinv : inv s) : inv s' := by
  induction h with
  | refl => exact hinv
  | tail _ hstep ih =>
      obtain ⟨a, hstep⟩ := hstep
      exact hkeep a _ _ ih hstep

/-- **EACH NUMBER IS PASSED FOR A REASON**. -/
theorem Reach.passed (inv : σ → Prop) (f : σ → Nat) {why : α → σ → σ → Prop}
    (hkeep : ∀ a s s', inv s → step a s s' → inv s')
    (hrise : ∀ a s s', inv s → step a s s' → f s < f s' → why a s s') {s s' : σ}
    (h : Reach step s s') (hinv : inv s) {n : Nat} (hlow : f s ≤ n) (hn : n < f s') :
    ∃ a s₁ s₂, Reach step s s₁ ∧ step a s₁ s₂ ∧ Reach step s₂ s' ∧ f s₁ ≤ n ∧ n < f s₂
      ∧ why a s₁ s₂ := by
  induction h with
  | refl => omega
  | @tail s₁ s₂ hrun hstep ih =>
      obtain ⟨b, hstep⟩ := hstep
      by_cases hbefore : n < f s₁
      · -- the number has been passed in an earlier step
        obtain ⟨a, t₁, t₂, hto, hone, hfrom, hle, hlt, hwhy⟩ := ih hbefore
        exact ⟨a, t₁, t₂, hto, hone, hfrom.tail hstep, hle, hlt, hwhy⟩
      · have hle := Nat.not_lt.mp hbefore
        have hheld : inv s₁ := Reach.keeps hkeep hrun hinv
        exact ⟨b, s₁, s₂, hrun, hstep, Reach.refl s₂, hle, hn,
          hrise b s₁ s₂ hheld hstep (Nat.lt_of_le_of_lt hle hn)⟩

end Rises
