import IpsecSecgw.Lib.Outcome

/-! # Loops over tokens

    A parser that goes through a list: while something is left, a round takes one
    element and as many behind it as it wants.

    `Judged Good F R x` says exactly when a computation that may fail ends well in
    the sense of `Good`: under `F`.  The rules make the condition of a program out
    of the conditions of its parts, and the condition of a loop is that of a round
    at every state the loop gets to. -/

namespace ScanLoop

open Outcome

variable {σ ε α β T : Type} {Good : ε → Prop}

/-! ## Exact conditions -/

/-- Where `x` fails the error is good exactly under `F`; else `F` holds, and the value
    satisfies `R`. -/
def Judged (Good : ε → Prop) (F : Prop) (R : α → Prop) (x : Except ε α) : Prop :=
  Ends x (fun e => Good e ↔ F) fun a => F ∧ R a

theorem judged_ok {F : Prop} {R : α → Prop} {a : α} (hF : F) (h : R a) :
    Judged Good F R (.ok a : Except ε α) := ⟨hF, h⟩

theorem judged_error {F : Prop} {R : α → Prop} {e : ε} (h : Good e ↔ F) :
    Judged Good F R (.error e : Except ε α) := h

/-- **CONSEQUENCE**: the condition may be put in other words. -/
theorem Judged.congr {F G : Prop} {R : α → Prop} {x : Except ε α} (h : Judged Good F R x)
    (hFG : F ↔ G) : Judged Good G R x :=
  Ends.mono h (fun _ he => he.trans hFG) fun _ ha => ⟨hFG.mp ha.1, ha.2⟩

/-- The error of a computation that failed. -/
theorem Judged.error_iff {F : Prop} {R : α → Prop} {x : Except ε α} {e : ε}
    (h : Judged Good F R x) (hx : x = .error e) : Good e ↔ F :=
  Ends.of_error (E := fun e => Good e ↔ F) h hx

/-- What is known of the value besides. -/
theorem Judged.and {F : Prop} {R Q : α → Prop} {x : Except ε α} (h : Judged Good F R x)
    (hQ : ∀ a, x = .ok a → Q a) : Judged Good F (fun a => R a ∧ Q a) x := by
  cases x with
  | ok a =>
      have ha : F ∧ R a := h
      exact ⟨ha.1, ha.2, hQ a rfl⟩
  | error e => exact h

/-- **SEQUENCE**: the condition of the second computation is asked for where the first
    one has gone well. -/
theorem Judged.bind {F : Prop} {G : α → Prop} {R : α → Prop} {Q : β → Prop}
    {x : Except ε α} {f : α → Except ε β} (h : Judged Good F R x)
    (hf : ∀ a, x = .ok a → R a → Judged Good (G a) Q (f a)) :
    Judged Good (F ∧ ∀ a, x = .ok a → G a) Q (x >>= f) := by
  cases x with
  | ok a =>
      have ha : F ∧ R a := h
      refine (hf a rfl ha.2).congr ⟨fun hG => ⟨ha.1, ?_⟩, fun hFG => hFG.2 a rfl⟩
      intro b hb
      rw [← Except.ok.inj hb]
      exact hG
  | error e =>
      have he : Good e ↔ F := h
      refine judged_error (he.trans ⟨fun hF => ⟨hF, ?_⟩, fun hFG => hFG.1⟩)
      intro a ha
      cases ha

/-- A computation that fails with a good error only, before another one. -/
theorem Judged.next {R : α → Prop} {Q : β → Prop} {x : Except ε α}
    {f : α → Except ε β} (h : Judged Good True R x)
    (hf : ∀ a, R a → Judged Good True Q (f a)) : Judged Good True Q (x >>= f) :=
  (h.bind fun a _ ha => hf a ha).congr (iff_of_true ⟨trivial, fun _ _ => trivial⟩ trivial)

/-- A choice. -/
theorem judged_ite {p : Prop} [Decidable p] {F G : Prop} {R : α → Prop} {x y : Except ε α}
    (hx : p → Judged Good F R x) (hy : ¬p → Judged Good G R y) :
    Judged Good (if p then F else G) R (if p then x else y) := by
  by_cases hp : p
  · rw [if_pos hp, if_pos hp]
    exact hx hp
  · rw [if_neg hp, if_neg hp]
    exact hy hp

/-! ## The loop -/

/-- What is left of the list in a state, how an element is taken, and a round. -/
structure Scanner (σ ε T : Type) where
  rest : σ → List T
  enter : σ → T → List T → σ
  round : σ → Except ε σ

/-- The loop, for a number of rounds. -/
def Scanner.loop (p : Scanner σ ε T) : Nat → σ → Except ε σ
  | 0, s => .ok s
  | fuel + 1, s =>
      match p.rest s with
      | [] => .ok s
      | t :: rest => p.round (p.enter s t rest) >>= fun s => loop p fuel s

/-- The states the loop gets to, one round after the other. -/
inductive Scanner.Reaches (p : Scanner σ ε T) : σ → σ → Prop
  | here {s} : Reaches p s s
  | round {s s1 s2 t rest} (hrest : p.rest s = t :: rest)
      (hround : p.round (p.enter s t rest) = .ok s1) (hreach : Reaches p s1 s2) :
      Reaches p s s2

/-- The condition of a round holds wherever the loop enters one. -/
def Scanner.Throughout (p : Scanner σ ε T) (F : σ → Prop) (s : σ) : Prop :=
  ∀ s', p.Reaches s s' → ∀ t rest, p.rest s' = t :: rest → F (p.enter s' t rest)

variable {p : Scanner σ ε T}

theorem Scanner.loop_nil {s : σ} (hrest : p.rest s = []) (fuel : Nat) :
    p.loop (fuel + 1) s = .ok s := by
  rw [loop, hrest]

theorem Scanner.loop_cons {s : σ} {t : T} {rest : List T} (hrest : p.rest s = t :: rest)
    (fuel : Nat) : p.loop (fuel + 1) s = p.round (p.enter s t rest) >>= p.loop fuel := by
  rw [loop, hrest]

/-- It holds in the first round, and throughout what is left behind that. -/
theorem Scanner.throughout_iff {F : σ → Prop} {s : σ} {t : T} {rest : List T}
    (hrest : p.rest s = t :: rest) :
    p.Throughout F s ↔ F (p.enter s t rest)
      ∧ ∀ s', p.round (p.enter s t rest) = .ok s' → p.Throughout F s' := by
  constructor
  · intro h
    refine ⟨h s .here t rest hrest, ?_⟩
    intro s' hround s2 hreach
    exact h s2 (.round hrest hround hreach)
  · rintro ⟨hfirst, hrounds⟩ s' hreach t' rest' hrest'
    cases hreach with
    | here =>
        obtain ⟨rfl, rfl⟩ := List.cons.inj (hrest.symm.trans hrest')
        exact hfirst
    | round hrest1 hround hreach =>
        obtain ⟨rfl, rfl⟩ := List.cons.inj (hrest.symm.trans hrest1)
        exact hrounds _ hround _ hreach _ _ hrest'

/-- Where nothing is left it says nothing. -/
theorem Scanner.throughout_nil {F : σ → Prop} {s : σ} (hrest : p.rest s = []) :
    p.Throughout F s := by
  intro s' hreach t rest hrest'
  cases hreach with
  | here => cases hrest.symm.trans hrest'
  | round hrest1 => cases hrest.symm.trans hrest1

/-- **LOOP**: the loop ends well exactly where the condition of a round holds
    throughout.  Every round takes at least one element, so that the number of rounds
    is enough. -/
theorem Scanner.loop_judged {F : σ → Prop} {R : σ → Prop}
    (hround : ∀ s t rest, R s → p.rest s = t :: rest →
      Judged Good (F (p.enter s t rest)) (fun s' => R s' ∧ (p.rest s').length ≤ rest.length)
        (p.round (p.enter s t rest)))
    (fuel : Nat) (s : σ) (hs : R s) (hfuel : (p.rest s).length ≤ fuel) :
    Judged Good (p.Throughout F s) R (p.loop fuel s) := by
  induction fuel generalizing s with
  | zero =>
      have hrest : p.rest s = [] := List.eq_nil_of_length_eq_zero (Nat.le_zero.mp hfuel)
      exact judged_ok (throughout_nil hrest) hs
  | succ fuel ih =>
      rw [loop]
      cases hrest : p.rest s with
      | nil => exact judged_ok (throughout_nil hrest) hs
      | cons t rest =>
          rw [hrest, List.length_cons, Nat.add_le_add_iff_right] at hfuel
          refine ((hround s t rest hs hrest).bind ?_).congr (throughout_iff hrest).symm
          intro s' _ hR
          exact ih s' hR.1 (Nat.le_trans hR.2 hfuel)

end ScanLoop
