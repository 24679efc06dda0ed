import Mathlib.Data.List.Chain
import IpsecSecgw.Lib.Tiling

/-! # Runs of equal elements

    A list is cut into its runs: parts that lie one behind the other, none of them
    empty, each of one element only and no two neighbours of the same.  A list that
    grows at its end lets the last run grow, or gets another one. -/

namespace Runs

open Tiling

variable {α β : Type} {id : β → α} {start size : β → Nat}

/-- `gs` are the runs of `l`. -/
structure RunsOf (id : β → α) (start size : β → Nat) (l : List α) (gs : List β) : Prop where
  filled : ∀ g ∈ gs, 0 < size g
  tiles : Tiles start size 0 gs l.length
  same : ∀ g ∈ gs, ∀ i, start g ≤ i → i < start g + size g → l[i]? = some (id g)
  differ : gs.IsChain fun g g' => id g ≠ id g'

theorem runsOf_nil : RunsOf id start size [] [] where
  filled := nofun
  tiles := rfl
  same := nofun
  differ := .nil

/-- The list of one element. -/
theorem runsOf_singleton {x : α} {g : β} (hid : id g = x) (hstart : start g = 0)
    (hsize : size g = 1) : RunsOf id start size [x] [g] where
  filled := by
    intro g' hg'
    rw [List.mem_singleton.mp hg', hsize]
    exact Nat.one_pos
  tiles := by
    show start g = 0 ∧ 0 + size g = 1
    rw [hstart, hsize]
    exact ⟨rfl, rfl⟩
  same := by
    intro g' hg' i hlo hhi
    rw [List.mem_singleton.mp hg', hstart, hsize] at hhi
    rw [Nat.lt_one_iff.mp hhi, List.mem_singleton.mp hg', hid]
    rfl
  differ := .singleton g

/-- What is inside the list is inside the one that has grown. -/
theorem getElem?_concat_inside {l : List α} {x y : α} {i : Nat} (h : l[i]? = some y) :
    (l ++ [x])[i]? = some y := by
  rw [List.getElem?_append_left (List.getElem?_eq_some_iff.mp h).1]
  exact h

/-- **THE LAST RUN GROWS**. -/
theorem RunsOf.extend {l : List α} {gs : List β} {g g' : β} {x : α}
    (h : RunsOf id start size l (gs ++ [g])) (hx : id g = x) (hid : id g' = id g)
    (hstart : start g' = start g) (hsize : size g' = size g + 1) :
    RunsOf id start size (l ++ [x]) (gs ++ [g']) := by
  obtain ⟨htiles, hend⟩ := tiles_concat.mp h.tiles
  have hold : ∀ r ∈ gs, r ∈ gs ++ [g] := fun r hr => List.mem_append_left _ hr
  have hlast : g ∈ gs ++ [g] := List.mem_append_right _ (List.mem_singleton.mpr rfl)
  refine ⟨?_, ?_, ?_, ?_⟩
  · intro r hr
    rcases List.mem_append.mp hr with hr | hr
    · exact h.filled r (hold r hr)
    · rw [List.mem_singleton.mp hr, hsize]
      exact Nat.succ_pos _
  · refine tiles_concat.mpr ⟨?_, ?_⟩
    · rw [hstart]
      exact htiles
    · rw [hstart, hsize, List.length_append, List.length_singleton]
      omega
  · intro r hr i hlo hhi
    rcases List.mem_append.mp hr with hr | hr
    · exact getElem?_concat_inside (h.same r (hold r hr) i hlo hhi)
    · rw [List.mem_singleton.mp hr] at hlo hhi ⊢
      rw [hstart] at hlo
      rw [hstart, hsize] at hhi
      rw [hid]
      -- the element that has come is the last of the run
      by_cases hi : i < start g + size g
      · exact getElem?_concat_inside (h.same g hlast i hlo hi)
      · have hi : i = l.length := by omega
        rw [hi, List.getElem?_concat_length, hx]
  · have hchain := h.differ
    rw [List.isChain_append] at hchain ⊢
    refine ⟨hchain.1, .singleton g', ?_⟩
    intro r hr r' hr'
    rw [List.head?_singleton, Option.mem_some_iff] at hr'
    rw [← hr', hid]
    exact hchain.2.2 r hr g (by simp)

/-- **ANOTHER RUN**. -/
theorem RunsOf.push {l : List α} {gs : List β} {g g' : β} {x : α}
    (h : RunsOf id start size l (gs ++ [g])) (hx : id g ≠ x) (hid : id g' = x)
    (hstart : start g' = l.length) (hsize : size g' = 1) :
    RunsOf id start size (l ++ [x]) (gs ++ [g] ++ [g']) := by
  refine ⟨?_, ?_, ?_, ?_⟩
  · intro r hr
    rcases List.mem_append.mp hr with hr | hr
    · exact h.filled r hr
    · rw [List.mem_singleton.mp hr, hsize]
      exact Nat.one_pos
  · refine tiles_concat.mpr ⟨?_, ?_⟩
    · rw [hstart]
      exact h.tiles
    · rw [hstart, hsize, List.length_append, List.length_singleton]
  · intro r hr i hlo hhi
    rcases List.mem_append.mp hr with hr | hr
    · exact getElem?_concat_inside (h.same r hr i hlo hhi)
    · rw [List.mem_singleton.mp hr] at hlo hhi ⊢
      rw [hstart] at hlo
      rw [hstart, hsize] at hhi
      have hi : i = l.length := by omega
      rw [hi, List.getElem?_concat_length, hid]
  · rw [List.isChain_append]
    refine ⟨h.differ, .singleton g', ?_⟩
    intro r hr r' hr'
    rw [List.getLast?_concat, Option.mem_some_iff] at hr
    rw [List.head?_singleton, Option.mem_some_iff] at hr'
    rw [← hr, ← hr', hid]
    exact hx

/-- There are no more runs than elements. -/
theorem RunsOf.length_le {l : List α} {gs : List β} (h : RunsOf id start size l gs) :
    gs.length ≤ l.length := by
  have hloop : ∀ (gs : List β) (a : Nat), (∀ g ∈ gs, 0 < size g) →
      Tiles start size a gs l.length → a + gs.length ≤ l.length := by
    intro gs
    induction gs with
    | nil =>
        intro a _ ht
        exact Nat.le_of_eq ht
    | cons g gs ih =>
        rintro a hfilled ⟨-, ht⟩
        have hpos := hfilled g List.mem_cons_self
        have hrest := ih (a + size g) (fun r hr => hfilled r (List.mem_cons_of_mem _ hr)) ht
        rw [List.length_cons]
        omega
  have hle := hloop gs 0 h.filled h.tiles
  rwa [Nat.zero_add] at hle

end Runs
