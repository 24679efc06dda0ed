import Mathlib.Data.List.Basic

/-! # Turns on a circle

    `n` stations are visited one after the other, and a tour goes on where the
    last one stopped.  `Rotates n p vs q` says that a tour from station `p` has
    visited `vs` and goes on at `q`.  Tours compose, and one that is long enough
    has visited every station, wherever it was interrupted. -/

namespace RoundRobin

/-- `k` stations in turn from `p` on. -/
def arc (n p k : Nat) : List Nat := (List.range k).map fun j => (p + j) % n

@[simp] theorem length_arc (n p k : Nat) : (arc n p k).length = k := by
  simp [arc]

@[simp] theorem arc_zero (n p : Nat) : arc n p 0 = [] := rfl

/-- Only the place on the circle counts. -/
theorem arc_congr {n p p' : Nat} (h : p % n = p' % n) (k : Nat) :
    arc n p k = arc n p' k := by
  refine List.map_congr_left ?_
  intro j _
  rw [Nat.add_mod, h, ← Nat.add_mod]

theorem arc_add (n p k l : Nat) : arc n p (k + l) = arc n p k ++ arc n (p + k) l := by
  simp [arc, List.range_add, Nat.add_assoc]

/-- Short of the last station nothing is wrapped. -/
theorem arc_straight {n p k : Nat} (h : p + k ≤ n) : arc n p k = List.range' p k := by
  rw [List.range'_eq_map_range]
  refine List.map_congr_left ?_
  intro j hj
  have hj := List.mem_range.mp hj
  exact Nat.mod_eq_of_lt (by omega)

/-- **A FULL TURN** visits every station. -/
theorem mem_arc {n k i : Nat} (p : Nat) (hk : n ≤ k) (hi : i < n) :
    i ∈ arc n p k := by
  have hn : 0 < n := Nat.lt_of_le_of_lt (Nat.zero_le i) hi
  have hp := Nat.mod_lt p hn
  refine List.mem_map.mpr ⟨(n + i - p % n) % n, ?_, ?_⟩
  · exact List.mem_range.mpr (Nat.lt_of_lt_of_le (Nat.mod_lt _ hn) hk)
  · have hsum : p % n + (n + i - p % n) = n + i := by omega
    calc (p + (n + i - p % n) % n) % n
        = (p % n + (n + i - p % n)) % n := by
          rw [Nat.add_mod_mod, Nat.mod_add_mod]
      _ = i := by rw [hsum, Nat.add_mod_left, Nat.mod_eq_of_lt hi]

/-- A tour from `p` has visited `vs` and goes on at `q`. -/
structure Rotates (n p : Nat) (vs : List Nat) (q : Nat) : Prop where
  visits : vs = arc n p vs.length
  stop : q % n = (p + vs.length) % n

theorem Rotates.refl (n p : Nat) : Rotates n p [] p := ⟨rfl, rfl⟩

/-- One tour after the other. -/
theorem Rotates.trans {n p q r : Nat} {vs vs' : List Nat} (h : Rotates n p vs q)
    (h' : Rotates n q vs' r) : Rotates n p (vs ++ vs') r := by
  constructor
  · rw [List.length_append, arc_add, ← h.visits, ← arc_congr h.stop, ← h'.visits]
  · rw [h'.stop, ← Nat.mod_add_mod, h.stop, Nat.mod_add_mod, List.length_append,
      Nat.add_assoc]

/-- The circle has no first station. -/
theorem Rotates.start {n p p' q : Nat} {vs : List Nat} (h : Rotates n p vs q)
    (hp : p % n = p' % n) : Rotates n p' vs q := by
  constructor
  · rw [← arc_congr hp]
    exact h.visits
  · rw [h.stop, ← Nat.mod_add_mod, hp, Nat.mod_add_mod]

/-- A tour that does not pass the last station. -/
theorem rotates_straight {n p k : Nat} (h : p + k ≤ n) :
    Rotates n p (List.range' p k) (p + k) := by
  constructor
  · rw [List.length_range', arc_straight h]
  · rw [List.length_range']

/-- **NO STATION IS LEFT OUT** by a tour of at least `n` visits. -/
theorem Rotates.covers {n p q i : Nat} {vs : List Nat} (h : Rotates n p vs q)
    (hlen : n ≤ vs.length) (hi : i < n) : i ∈ vs := by
  rw [h.visits]
  exact mem_arc p hlen hi

end RoundRobin
