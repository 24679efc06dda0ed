import Mathlib.Data.List.Forall2

/-! # Rules with ranks

    A rule takes some queries, and has a rank and a verdict.  A verdict on a query is
    right when it is that of a rule of highest rank among those that take the query, or
    the default one where no rule does.

    Which verdicts are right depends neither on the order of the rules (`Right.perm`)
    nor on how they are written down (`Right.carry`). -/

namespace Ranked

variable {ρ ρ' κ κ' V V' : Type}

/-- Rules of a kind: what they take, their ranks and their verdicts, and the default
    verdict. -/
structure Kind (ρ κ V : Type) where
  takes : ρ → κ → Prop
  rank : ρ → Int
  verdict : ρ → V
  other : V

variable {K : Kind ρ κ V} {K' : Kind ρ' κ' V'} {rules rules' : List ρ} {q : κ} {v : V}

/-- A rule of highest rank among those that take the query. -/
structure Best (K : Kind ρ κ V) (rules : List ρ) (q : κ) (r : ρ) : Prop where
  mem : r ∈ rules
  takes : K.takes r q
  most : ∀ r' ∈ rules, K.takes r' q → K.rank r' ≤ K.rank r

/-- The verdicts that are right. -/
inductive Right (K : Kind ρ κ V) (rules : List ρ) (q : κ) : V → Prop
  | other (h : ∀ r ∈ rules, ¬ K.takes r q) : Right K rules q K.other
  | best {r} (h : Best K rules q r) : Right K rules q (K.verdict r)

theorem Best.perm {r : ρ} (h : Best K rules q r) (hp : rules.Perm rules') :
    Best K rules' q r :=
  ⟨hp.mem_iff.mp h.mem, h.takes, fun r' hr' => h.most r' (hp.mem_iff.mpr hr')⟩

/-- **ORDER** does not count. -/
theorem Right.perm (h : Right K rules q v) (hp : rules.Perm rules') : Right K rules' q v := by
  cases h with
  | other hnone => exact .other fun r hr => hnone r (hp.mem_iff.mpr hr)
  | best hbest => exact .best (hbest.perm hp)

/-- A rule stands for another one: it takes the same, at the same rank, with a verdict
    that says the same. -/
structure Stands (K : Kind ρ κ V) (K' : Kind ρ' κ' V') (q : κ) (q' : κ') (T : V → V' → Prop)
    (r : ρ) (r' : ρ') : Prop where
  takes : K.takes r q ↔ K'.takes r' q'
  rank : K.rank r = K'.rank r'
  verdict : T (K.verdict r) (K'.verdict r')

theorem exists_left {R : ρ → ρ' → Prop} {l : List ρ} {l' : List ρ'} (h : List.Forall₂ R l l')
    {r' : ρ'} (hr : r' ∈ l') : ∃ r ∈ l, R r r' := by
  induction h with
  | nil => cases hr
  | cons hR _ ih =>
      rcases List.mem_cons.mp hr with rfl | hr
      · exact ⟨_, List.mem_cons_self, hR⟩
      · obtain ⟨r, hmem, hR'⟩ := ih hr
        exact ⟨r, List.mem_cons_of_mem _ hmem, hR'⟩

/-- **WRITTEN DIFFERENTLY**: rules that stand for others, one for one, have verdicts
    that say the same. -/
theorem Right.carry {T : V → V' → Prop} {q' : κ'} {l' : List ρ'}
    (h : Right K rules q v) (hall : List.Forall₂ (Stands K K' q q' T) rules l')
    (hother : T K.other K'.other) : ∃ v', T v v' ∧ Right K' l' q' v' := by
  cases h with
  | other hnone =>
      refine ⟨_, hother, .other fun r' hr' htakes => ?_⟩
      obtain ⟨r, hr, hstands⟩ := exists_left hall hr'
      exact hnone r hr (hstands.takes.mpr htakes)
  | @best r hbest =>
      obtain ⟨r', hr', hstands⟩ := exists_left hall.flip hbest.mem
      refine ⟨_, hstands.verdict, .best ⟨hr', hstands.takes.mp hbest.takes, ?_⟩⟩
      intro s' hs' htakes
      obtain ⟨s, hs, hstands'⟩ := exists_left hall hs'
      rw [← hstands.rank, ← hstands'.rank]
      exact hbest.most s hs (hstands'.takes.mpr htakes)

/-! ## A search -/

/-- The first rule of highest rank. -/
def pick (K : Kind ρ κ V) [∀ r q, Decidable (K.takes r q)] (rules : List ρ) (q : κ) :
    Option ρ :=
  (rules.filter fun r => K.takes r q).maxOn? K.rank

/-- Its verdict. -/
def judge (K : Kind ρ κ V) [∀ r q, Decidable (K.takes r q)] (rules : List ρ) (q : κ) : V :=
  ((pick K rules q).map K.verdict).getD K.other

/-- **THE SEARCH** is right. -/
theorem judge_right [∀ r q, Decidable (K.takes r q)] (rules : List ρ) (q : κ) :
    Right K rules q (judge K rules q) := by
  rw [judge]
  cases hpick : pick K rules q with
  | none =>
      refine .other fun r hr htakes => ?_
      have hsome : (pick K rules q).isSome :=
        List.isSome_maxOn?_of_mem (List.mem_filter.mpr ⟨hr, decide_eq_true htakes⟩)
      rw [hpick] at hsome
      cases hsome
  | some r =>
      have hmem := List.maxOn?_mem hpick
      obtain ⟨hr, htakes⟩ := List.mem_filter.mp hmem
      refine .best ⟨hr, of_decide_eq_true htakes, fun s hs hstakes => ?_⟩
      have hs' : s ∈ rules.filter fun r => K.takes r q :=
        List.mem_filter.mpr ⟨hs, decide_eq_true hstakes⟩
      have hle := List.le_apply_get_maxOn?_of_mem (f := K.rank) hs'
      simp only [show (rules.filter _).maxOn? K.rank = some r from hpick, Option.get_some] at hle
      exact hle

end Ranked
