import IpsecSecgw.Lib.Outcome

/-! # A compacted array between two passes

    The first pass gathers something of the elements that take part, one behind
    the other; all of it is answered at once; and in the second pass every
    element that takes part draws the next answer.  Whether an element takes
    part is asked twice, and the second time in a state the elements before have
    changed.

    When the two passes agree on who takes part, every element gets the answer
    to what was gathered of it (`foldlM_drawOne`). -/

namespace Compact

open Outcome

variable {α β σ ε : Type}

/-- One round of the first pass, with room for so many elements. -/
def gatherOne (room : Nat) (full : ε) (test : α → Bool) (f : α → β) (b : List β)
    (a : α) : Except ε (List β) :=
  if test a then
    if room ≤ b.length then .error full else .ok (b ++ [f a])
  else .ok b

/-- The first pass. -/
def gather (room : Nat) (full : ε) (test : α → Bool) (f : α → β) (l : List α) :
    Except ε (List β) :=
  l.foldlM (gatherOne room full test f) []

/-- One round of the second pass: the running index, and what is done with an
    element and its answer. -/
def drawOne (test : σ → α → Bool) (answers : List β) (stuck : ε)
    (use : Option β → α → σ → Except ε σ) (r : Nat × σ) (a : α) :
    Except ε (Nat × σ) :=
  if test r.2 a then
    match answers[r.1]? with
    | none => .error stuck
    | some b => do
        let s ← use (some b) a r.2
        return (r.1 + 1, s)
  else do
    let s ← use none a r.2
    return (r.1, s)

theorem foldlM_gatherOne {room : Nat} (full : ε) (test : α → Bool) (f : α → β)
    {l : List α} {b : List β} (h : b.length + l.length ≤ room) :
    l.foldlM (gatherOne room full test f) b
      = .ok (b ++ (l.filter test).map f) := by
  induction l generalizing b with
  | nil =>
      rw [List.filter_nil, List.map_nil, List.append_nil]
      rfl
  | cons a l ih =>
      rw [List.length_cons] at h
      rw [List.foldlM_cons, gatherOne]
      by_cases ha : test a = true
      · rw [if_pos ha, if_neg (by omega), List.filter_cons_of_pos ha, List.map_cons]
        refine (ih ?_).trans ?_
        · rw [List.length_append, List.length_singleton]
          omega
        · rw [List.append_assoc]
          rfl
      · rw [if_neg ha, List.filter_cons_of_neg ha]
        exact ih (by omega)

/-- **GATHERING** what fits is a filter and a map. -/
theorem gather_eq {room : Nat} (full : ε) (test : α → Bool) (f : α → β)
    {l : List α} (h : l.length ≤ room) :
    gather room full test f l = .ok ((l.filter test).map f) :=
  foldlM_gatherOne full test f (by rw [List.length_nil, Nat.zero_add]; exact h)

/-- **DRAWING**: the running index is that of the element's own answer.  `P` says
    what is left alone of the elements to come: they take part as in the first
    pass, and what is done with one of them is what `own` does. -/
theorem foldlM_drawOne {P : List α → σ → Prop} (test : σ → α → Bool)
    (first : α → Bool) (answer : α → β) (stuck : ε)
    {use : Option β → α → σ → Except ε σ} {own : σ → α → Except ε σ}
    (htest : ∀ a l s, P (a :: l) s → test s a = first a)
    (hown : ∀ a l s, P (a :: l) s →
      use (if first a then some (answer a) else none) a s = own s a)
    (hkeep : ∀ a l s, P (a :: l) s → Ends (own s a) (fun _ => True) (P l))
    (drawn : List β) {l : List α} {s : σ} (h : P l s) :
    (l.foldlM (drawOne test (drawn ++ (l.filter first).map answer) stuck use)
        (drawn.length, s)).map Prod.snd
      = l.foldlM own s := by
  induction l generalizing drawn s with
  | nil => rfl
  | cons a l ih =>
      have huse := hown a l s h
      have hkeeps := hkeep a l s h
      rw [List.foldlM_cons, List.foldlM_cons, drawOne]
      dsimp only
      rw [htest a l s h, ← huse]
      rw [← huse] at hkeeps
      by_cases ha : first a = true
      · -- this one draws the answer that is its own
        have hget : (drawn ++ ((a :: l).filter first).map answer)[drawn.length]?
            = some (answer a) := by
          rw [List.filter_cons_of_pos ha, List.map_cons, List.getElem?_append_right
            (Nat.le_refl _), Nat.sub_self]
          rfl
        rw [if_pos ha, if_pos ha, hget]
        rw [if_pos ha] at hkeeps
        dsimp only
        cases hr : use (some (answer a)) a s with
        | error e => rfl
        | ok s' =>
            rw [hr] at hkeeps
            -- and the others draw behind it
            have hrest := ih (drawn ++ [answer a]) hkeeps
            rw [List.length_append, List.length_singleton, List.append_assoc] at hrest
            rw [List.filter_cons_of_pos ha]
            exact hrest
      · rw [if_neg ha, if_neg ha]
        rw [if_neg ha] at hkeeps
        cases hr : use none a s with
        | error e => rfl
        | ok s' =>
            rw [hr] at hkeeps
            rw [List.filter_cons_of_neg ha]
            exact ih drawn hkeeps

end Compact
