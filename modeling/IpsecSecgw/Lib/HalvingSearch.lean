import Mathlib.Algebra.Group.Nat.Defs
import Mathlib.Data.List.Sort

/-! # Merge sort and halving search under an arbitrary comparator

    The C library's `qsort` (merge sort, splitting at `n / 2`) and `bsearch`
    (halving of a half-open interval) are driven by a comparator that returns
    a signed number, and nothing forces that comparator to be an order.  This
    file keeps the comparator arbitrary and separates what always holds from
    what needs an order:

    * sorting is a permutation, and a hit of the search compares equal;
    * a position `f` is hit exactly when every PROBE on the way to `f` steers
      towards it (`bsearch_eq_some_iff`);
    * where the comparator agrees with a linear key on the elements at hand,
      sorting orders them. -/

namespace HalvingSearch

variable {α : Type}

/-! ## Merge sort -/

/-- Merge sort with an explicit recursion depth: runs of length at most one
    are left alone, longer ones are split at half their length. -/
def msortDepth (cmp : α → α → Int) : Nat → List α → List α
  | 0, xs => xs
  | k + 1, xs =>
      if xs.length ≤ 1 then xs
      else
        List.merge (msortDepth cmp k (xs.take (xs.length / 2)))
          (msortDepth cmp k (xs.drop (xs.length / 2)))
          (fun a b => decide (cmp a b ≤ 0))

/-- Merge sort; the length bounds the depth. -/
def msort (cmp : α → α → Int) (xs : List α) : List α :=
  msortDepth cmp xs.length xs

/-- Whatever the comparator does, sorting only rearranges. -/
theorem msortDepth_perm (cmp : α → α → Int) (k : Nat) (xs : List α) :
    (msortDepth cmp k xs).Perm xs := by
  induction k generalizing xs with
  | zero => exact List.Perm.refl xs
  | succ k ih =>
      rw [msortDepth]
      by_cases hlen : xs.length ≤ 1
      · rw [if_pos hlen]
      · rw [if_neg hlen]
        refine (List.merge_perm_append _).trans ?_
        have hparts := (ih (xs.take (xs.length / 2))).append
          (ih (xs.drop (xs.length / 2)))
        rw [List.take_append_drop] at hparts
        exact hparts

theorem msort_perm (cmp : α → α → Int) (xs : List α) :
    (msort cmp xs).Perm xs :=
  msortDepth_perm cmp xs.length xs

@[simp] theorem mem_msort (cmp : α → α → Int) (xs : List α) (a : α) :
    a ∈ msort cmp xs ↔ a ∈ xs :=
  (msort_perm cmp xs).mem_iff

@[simp] theorem length_msort (cmp : α → α → Int) (xs : List α) :
    (msort cmp xs).length = xs.length :=
  (msort_perm cmp xs).length_eq

/-- Merging two runs ordered by `key` gives a run ordered by `key`, as long as
    the comparator agrees with `key` between the two runs. -/
theorem merge_ordered (cmp : α → α → Int) (key : α → Nat) (xs ys : List α)
    (hagree : ∀ a ∈ xs, ∀ b ∈ ys, cmp a b ≤ 0 ↔ key a ≤ key b)
    (hx : xs.Pairwise (fun a b => key a ≤ key b))
    (hy : ys.Pairwise (fun a b => key a ≤ key b)) :
    (List.merge xs ys (fun a b => decide (cmp a b ≤ 0))).Pairwise
      (fun a b => key a ≤ key b) := by
  induction xs generalizing ys with
  | nil =>
      rw [List.nil_merge]
      exact hy
  | cons x xs ihx =>
      induction ys with
      | nil =>
          rw [List.merge_right]
          exact hx
      | cons y ys ihy =>
          have hxy := hagree x (by simp) y (by simp)
          -- what is merged comes from one of the lists
          have hmem : ∀ {l r : List α} {c : α},
              c ∈ List.merge l r (fun a b => decide (cmp a b ≤ 0)) →
              c ∈ l ∨ c ∈ r := by
            intro l r c hc
            exact List.mem_append.mp ((List.merge_perm_append _).mem_iff.mp hc)
          rw [List.merge]
          by_cases hle : cmp x y ≤ 0
          · rw [if_pos (by simpa using hle)]
            refine List.pairwise_cons.mpr ⟨?_, ?_⟩
            · intro c hc
              rcases hmem hc with hl | hr
              · exact (List.pairwise_cons.mp hx).1 c hl
              · have hxle : key x ≤ key y := hxy.mp hle
                rcases List.mem_cons.mp hr with heq | hr
                · rw [heq]
                  exact hxle
                · exact hxle.trans ((List.pairwise_cons.mp hy).1 c hr)
            · refine ihx (y :: ys) ?_ (List.pairwise_cons.mp hx).2 hy
              intro a ha b hb
              exact hagree a (List.mem_cons_of_mem x ha) b hb
          · rw [if_neg (by simpa using hle)]
            -- comparisons and keys agree, so `y` is the smaller one
            have hylt : key y ≤ key x := by
              have := mt hxy.mpr hle
              omega
            refine List.pairwise_cons.mpr ⟨?_, ?_⟩
            · intro c hc
              rcases hmem hc with hl | hr
              · rcases List.mem_cons.mp hl with heq | hl
                · rw [heq]
                  exact hylt
                · exact hylt.trans ((List.pairwise_cons.mp hx).1 c hl)
              · exact (List.pairwise_cons.mp hy).1 c hr
            · refine ihy ?_ (List.pairwise_cons.mp hy).2
              intro a ha b hb
              exact hagree a ha b (List.mem_cons_of_mem y hb)

/-- Sorting orders the elements by `key` when the comparator agrees with `key`
    on them and the depth suffices. -/
theorem msortDepth_ordered (cmp : α → α → Int) (key : α → Nat) (k : Nat)
    (xs : List α) (hk : xs.length ≤ k)
    (hagree : ∀ a ∈ xs, ∀ b ∈ xs, cmp a b ≤ 0 ↔ key a ≤ key b) :
    (msortDepth cmp k xs).Pairwise (fun a b => key a ≤ key b) := by
  induction k generalizing xs with
  | zero =>
      have hnil : xs = [] := List.length_eq_zero_iff.mp (by omega)
      rw [hnil]
      exact List.Pairwise.nil
  | succ k ih =>
      rw [msortDepth]
      by_cases hlen : xs.length ≤ 1
      · rw [if_pos hlen]
        match xs, hlen with
        | [], _ => exact List.Pairwise.nil
        | [a], _ => exact List.pairwise_singleton _ a
      · rw [if_neg hlen]
        have hin : ∀ {l : List α} {a : α}, a ∈ msortDepth cmp k l →
            (∀ b ∈ l, b ∈ xs) → a ∈ xs := by
          intro l a ha hsub
          exact hsub a ((msortDepth_perm cmp k l).mem_iff.mp ha)
        have htake : ∀ b ∈ xs.take (xs.length / 2), b ∈ xs :=
          fun b hb => List.mem_of_mem_take hb
        have hdrop : ∀ b ∈ xs.drop (xs.length / 2), b ∈ xs :=
          fun b hb => List.mem_of_mem_drop hb
        refine merge_ordered cmp key _ _ ?_ ?_ ?_
        · intro a ha b hb
          exact hagree a (hin ha htake) b (hin hb hdrop)
        · refine ih _ ?_ (fun a ha b hb => hagree a (htake a ha) b (htake b hb))
          rw [List.length_take]
          omega
        · refine ih _ ?_ (fun a ha b hb => hagree a (hdrop a ha) b (hdrop b hb))
          rw [List.length_drop]
          omega

theorem msort_ordered (cmp : α → α → Int) (key : α → Nat) (xs : List α)
    (hagree : ∀ a ∈ xs, ∀ b ∈ xs, cmp a b ≤ 0 ↔ key a ≤ key b) :
    (msort cmp xs).Pairwise (fun a b => key a ≤ key b) :=
  msortDepth_ordered cmp key xs.length xs (Nat.le_refl _) hagree

/-! ## Halving search

    `c i` is the comparator applied to the searched key and the element at
    position `i`. -/

/-- The search loop on the half-open interval `[l, u)`; the first argument
    bounds the number of rounds. -/
def bsearchLoop (c : Nat → Int) : Nat → Nat → Nat → Option Nat
  | 0, _, _ => none
  | k + 1, l, u =>
      if l < u then
        if c ((l + u) / 2) < 0 then bsearchLoop c k l ((l + u) / 2)
        else if 0 < c ((l + u) / 2) then bsearchLoop c k ((l + u) / 2 + 1) u
        else some ((l + u) / 2)
      else none

/-- Halving search over positions `0 .. n - 1`. -/
def bsearch (c : Nat → Int) (n : Nat) : Option Nat :=
  bsearchLoop c n 0 n

/-- The positions a halving of `[l, u)` looks at before it arrives at `f`;
    they depend on the interval and on `f` only. -/
def probesLoop (f : Nat) : Nat → Nat → Nat → List Nat
  | 0, _, _ => []
  | k + 1, l, u =>
      if l < u then
        if f < (l + u) / 2 then
          (l + u) / 2 :: probesLoop f k l ((l + u) / 2)
        else if (l + u) / 2 < f then
          (l + u) / 2 :: probesLoop f k ((l + u) / 2 + 1) u
        else []
      else []

/-- The positions looked at on the way to `f` among `n` elements. -/
def probes (n f : Nat) : List Nat :=
  probesLoop f n 0 n

/-- Every probe on the way to `f` sends the search towards `f`. -/
def SteersTo (c : Nat → Int) (f : Nat) (ms : List Nat) : Prop :=
  ∀ m ∈ ms, (f < m → c m < 0) ∧ (m < f → 0 < c m)

/-- Probes lie inside the interval and differ from the target. -/
theorem probesLoop_bounds (f : Nat) (k l u m : Nat)
    (hm : m ∈ probesLoop f k l u) : l ≤ m ∧ m < u ∧ m ≠ f := by
  induction k generalizing l u with
  | zero => exact nomatch hm
  | succ k ih =>
      rw [probesLoop] at hm
      by_cases hlu : l < u
      · rw [if_pos hlu] at hm
        by_cases hlt : f < (l + u) / 2
        · rw [if_pos hlt] at hm
          rcases List.mem_cons.mp hm with heq | hmem
          · omega
          · have := ih l ((l + u) / 2) hmem
            omega
        · rw [if_neg hlt] at hm
          by_cases hgt : (l + u) / 2 < f
          · rw [if_pos hgt] at hm
            rcases List.mem_cons.mp hm with heq | hmem
            · omega
            · have := ih ((l + u) / 2 + 1) u hmem
              omega
          · rw [if_neg hgt] at hm
            exact nomatch hm
      · rw [if_neg hlu] at hm
        exact nomatch hm

/-- A hit lies inside the interval and compares equal. -/
theorem bsearchLoop_sound (c : Nat → Int) (k l u f : Nat)
    (h : bsearchLoop c k l u = some f) : l ≤ f ∧ f < u ∧ c f = 0 := by
  induction k generalizing l u with
  | zero => exact nomatch h
  | succ k ih =>
      rw [bsearchLoop] at h
      by_cases hlu : l < u
      · rw [if_pos hlu] at h
        by_cases hneg : c ((l + u) / 2) < 0
        · rw [if_pos hneg] at h
          have := ih l ((l + u) / 2) h
          omega
        · rw [if_neg hneg] at h
          by_cases hpos : 0 < c ((l + u) / 2)
          · rw [if_pos hpos] at h
            have := ih ((l + u) / 2 + 1) u h
            omega
          · rw [if_neg hpos] at h
            have hf := Option.some.inj h
            subst hf
            omega
      · rw [if_neg hlu] at h
        exact nomatch h

theorem bsearch_sound {c : Nat → Int} {n f : Nat} (h : bsearch c n = some f) :
    f < n ∧ c f = 0 := by
  have := bsearchLoop_sound c n 0 n f h
  omega

theorem steersTo_cons_iff {c : Nat → Int} {f p : Nat} {ps : List Nat} :
    SteersTo c f (p :: ps) ↔
      ((f < p → c p < 0) ∧ (p < f → 0 < c p)) ∧ SteersTo c f ps :=
  List.forall_mem_cons

/-- The search has steered towards its hit. -/
theorem bsearchLoop_steers (c : Nat → Int) (k l u f : Nat)
    (h : bsearchLoop c k l u = some f) : SteersTo c f (probesLoop f k l u) := by
  induction k generalizing l u with
  | zero => exact nomatch h
  | succ k ih =>
      rw [bsearchLoop] at h
      rw [probesLoop]
      by_cases hlu : l < u
      · rw [if_pos hlu] at h ⊢
        by_cases hneg : c ((l + u) / 2) < 0
        · -- the hit lies in the left half
          rw [if_pos hneg] at h
          have hlt := (bsearchLoop_sound c k l _ f h).2.1
          rw [if_pos hlt, steersTo_cons_iff]
          exact ⟨⟨fun _ => hneg, fun hgt => by omega⟩, ih l _ h⟩
        · rw [if_neg hneg] at h
          by_cases hpos : 0 < c ((l + u) / 2)
          · -- the hit lies in the right half
            rw [if_pos hpos] at h
            have hgt := (bsearchLoop_sound c k _ u f h).1
            rw [if_neg (by omega), if_pos (by omega), steersTo_cons_iff]
            exact ⟨⟨fun hlt => by omega, fun _ => hpos⟩, ih _ u h⟩
          · rw [if_neg hpos] at h
            have hf := Option.some.inj h
            rw [if_neg (by omega), if_neg (by omega)]
            exact fun m hm => nomatch hm
      · rw [if_neg hlu] at h
        exact nomatch h

/-- A search that steers towards an equal element finds it. -/
theorem bsearchLoop_of_steers (c : Nat → Int) (k l u f : Nat)
    (hk : u - l ≤ k) (hl : l ≤ f) (hu : f < u) (hc : c f = 0)
    (hs : SteersTo c f (probesLoop f k l u)) :
    bsearchLoop c k l u = some f := by
  induction k generalizing l u with
  | zero => omega
  | succ k ih =>
      rw [probesLoop, if_pos (by omega)] at hs
      rw [bsearchLoop, if_pos (by omega)]
      rcases Nat.lt_trichotomy f ((l + u) / 2) with hlt | heq | hgt
      · rw [if_pos hlt, steersTo_cons_iff] at hs
        rw [if_pos (hs.1.1 hlt)]
        exact ih l _ (by omega) hl hlt hs.2
      · rw [← heq, if_neg (by omega), if_neg (by omega)]
      · rw [if_neg (by omega), if_pos hgt, steersTo_cons_iff] at hs
        have hpos := hs.1.2 hgt
        rw [if_neg (by omega), if_pos hpos]
        exact ih _ u (by omega) (by omega) hu hs.2

/-- **EXACT HITS**: a position that compares equal is returned exactly when
    every probe on the way to it steers towards it. -/
theorem bsearchLoop_eq_some_iff (c : Nat → Int) (k l u f : Nat)
    (hk : u - l ≤ k) :
    bsearchLoop c k l u = some f ↔
      l ≤ f ∧ f < u ∧ c f = 0 ∧ SteersTo c f (probesLoop f k l u) := by
  constructor
  · intro h
    obtain ⟨hl, hu, hc⟩ := bsearchLoop_sound c k l u f h
    exact ⟨hl, hu, hc, bsearchLoop_steers c k l u f h⟩
  · rintro ⟨hl, hu, hc, hs⟩
    exact bsearchLoop_of_steers c k l u f hk hl hu hc hs

theorem bsearch_eq_some_iff (c : Nat → Int) (n f : Nat) :
    bsearch c n = some f ↔
      f < n ∧ c f = 0 ∧ SteersTo c f (probes n f) := by
  rw [bsearch, bsearchLoop_eq_some_iff c n 0 n f (by omega), probes]
  constructor
  · rintro ⟨_, h2, h3, h4⟩
    exact ⟨h2, h3, h4⟩
  · rintro ⟨h2, h3, h4⟩
    exact ⟨Nat.zero_le f, h2, h3, h4⟩

end HalvingSearch
