import IpsecSecgw.Lib.Outcome

/-! # Calls to a driver

    A program makes calls to a driver, and each of them has a number as its result: what
    it will be may depend on all calls made before.  The program notes nothing down, but
    the log of its calls is all that is seen from outside.

    A part of a program is described by the calls it adds to the log (`Made`), and what
    holds of a device behind a run by the last call that has had an effect on it
    (`final`). -/

namespace Calls

open Outcome

variable {C V α ε : Type}

/-- Calls with their results, the last one at the end. -/
abbrev Log (C : Type) := List (C × Int)

/-- The result of a call behind others. -/
abbrev Driver (C : Type) := Log C → C → Int

variable {drv : Driver C} {fail : Int → ε} {P : C × Int → Prop}

/-- A call whose result is looked at. -/
def ask (drv : Driver C) (c : C) (t : Log C) : Int × Log C := (drv t c, t ++ [(c, drv t c)])

/-- A call that ends the program when its result is negative. -/
def must (fail : Int → ε) (drv : Driver C) (c : C) (t : Log C) : Except ε (Log C) :=
  let r := ask drv c t
  if r.1 < 0 then .error (fail r.1) else .ok r.2

/-! ## Calls of a part -/

/-- **A PART** of a program adds these calls to the log, with entries that satisfy
    `P`. -/
def Made (P : C × Int → Prop) (t : Log C) (calls : List C) (t' : Log C) : Prop :=
  ∃ new, t' = t ++ new ∧ new.map Prod.fst = calls ∧ ∀ e ∈ new, P e

theorem Made.refl (t : Log C) : Made P t [] t :=
  ⟨[], (List.append_nil t).symm, rfl, fun _ he => absurd he List.not_mem_nil⟩

theorem Made.trans {t t' t'' : Log C} {calls calls' : List C} (h : Made P t calls t')
    (h' : Made P t' calls' t'') : Made P t (calls ++ calls') t'' := by
  obtain ⟨new, rfl, rfl, hP⟩ := h
  obtain ⟨new', rfl, rfl, hP'⟩ := h'
  refine ⟨new ++ new', List.append_assoc .., List.map_append, fun e he => ?_⟩
  exact (List.mem_append.mp he).elim (hP e) (hP' e)

/-- A call whatever its result. -/
theorem ask_made (c : C) (t : Log C) (h : P (c, drv t c)) : Made P t [c] (ask drv c t).2 :=
  ⟨[(c, drv t c)], rfl, rfl, fun _ he => List.mem_singleton.mp he ▸ h⟩

/-- A call that has gone well. -/
theorem must_made (c : C) (t : Log C) (h : 0 ≤ drv t c → P (c, drv t c)) :
    Ends (must fail drv c t) (fun _ => True) (Made P t [c]) := by
  by_cases hneg : drv t c < 0
  · rw [show must fail drv c t = .error (fail (drv t c)) from if_pos hneg]
    exact ends_error trivial
  · rw [show must fail drv c t = .ok (ask drv c t).2 from if_neg hneg]
    exact ends_ok (ask_made c t (h (Int.not_lt.mp hneg)))

/-- **A LOOP** of parts. -/
theorem foldlM_made {f : Log C → α → Except ε (Log C)} {callsOf : α → List C}
    (hf : ∀ t a, Ends (f t a) (fun _ => True) (Made P t (callsOf a))) (l : List α) (t : Log C) :
    Ends (l.foldlM f t) (fun _ => True) (Made P t (l.flatMap callsOf)) := by
  induction l generalizing t with
  | nil => exact ends_ok (Made.refl t)
  | cons a l ih =>
      rw [List.foldlM_cons, List.flatMap_cons]
      refine (hf t a).bind fun t₁ h => ?_
      exact (ih t₁).mono (fun _ h => h) fun t₂ h' => h.trans h'

/-! ## Effects -/

/-- What the last call with an effect has left. -/
def final (effect : C × Int → Option V) (v : V) (t : Log C) : V :=
  t.foldl (fun v e => (effect e).getD v) v

variable {effect : C × Int → Option V} {v v' : V} {t t' : Log C}

theorem final_append : final effect v (t ++ t') = final effect (final effect v t) t' :=
  List.foldl_append

/-- Effects that leave what there is. -/
theorem final_keeps (h : ∀ e ∈ t, effect e = none ∨ effect e = some v) :
    final effect v t = v := by
  induction t with
  | nil => rfl
  | cons e t ih =>
      have hone : (effect e).getD v = v := by
        rcases h e List.mem_cons_self with heq | heq <;> rw [heq] <;> rfl
      show final effect ((effect e).getD v) t = v
      rw [hone]
      exact ih fun e he => h e (List.mem_cons_of_mem _ he)

/-- **ALL EFFECTS ARE THE SAME**, and there is one. -/
theorem final_same (h : ∀ e ∈ t, effect e = none ∨ effect e = some v')
    (hone : ∃ e ∈ t, effect e = some v') : final effect v t = v' := by
  induction t generalizing v with
  | nil =>
      obtain ⟨e, he, -⟩ := hone
      cases he
  | cons e t ih =>
      have hrest : ∀ e ∈ t, effect e = none ∨ effect e = some v' :=
        fun e he => h e (List.mem_cons_of_mem _ he)
      show final effect ((effect e).getD v) t = v'
      by_cases hlater : ∃ e ∈ t, effect e = some v'
      · exact ih hrest hlater
      · -- the effect is that of the first call
        obtain ⟨e', he', heq⟩ := hone
        rcases List.mem_cons.mp he' with rfl | he'
        · rw [heq, Option.getD_some]
          exact final_keeps hrest
        · exact absurd ⟨e', he', heq⟩ hlater

end Calls
