import IpsecSecgw.CoreSelectModel
import IpsecSecgw.Lib.Fuel
import IpsecSecgw.Lib.RoundRobin
import IpsecSecgw.Lib.SortedWalk

/-! # Cores are found, and in turn

    The loops come to an end, with the core that a look through the list finds.
    Behind one core the next call finds the one that follows it among the cores of
    the mask, and behind the last the first. -/

namespace CoreSelect

open EventHelper Fuel RoundRobin SortedWalk

variable {env : LcoreEnv} {ethCoreMask : UInt32 → Bool}

/-! ## The next lcore -/

/-- The lcores from one on. -/
def LcoreEnv.from (env : LcoreEnv) (a : UInt32) : List UInt32 := env.lcores.filter (a ≤ ·)

theorem succ_le_iff {x y : UInt32} (hx : x < rteMaxLcore) : x + 1 ≤ y ↔ x < y := by
  rw [UInt32.le_iff_toNat_le, UInt32.lt_iff_toNat_lt]
  have hlt : x.toNat < 128 := UInt32.lt_iff_toNat_lt.mp hx
  have hone : (1 : UInt32).toNat = 1 := rfl
  rw [UInt32.toNat_add, hone, Nat.mod_eq_of_lt (by omega)]
  exact Iff.rfl

/-- What is left behind a lcore. -/
theorem from_succ {a x : UInt32} {xs : List UInt32} (h : env.from a = x :: xs) :
    env.from (x + 1) = xs := by
  have hx : x ∈ env.lcores := by
    have hmem : x ∈ env.from a := by
      rw [h]
      exact List.mem_cons_self
    exact (List.mem_filter.mp hmem).1
  refine Eq.trans ?_ (filter_after env.sorted h)
  refine List.filter_congr ?_
  intro y _
  exact decide_eq_decide.mpr (succ_le_iff (env.bound x hx))

theorem next_straight {i : UInt32} (hi : i + 1 ≤ rteMaxLcore) :
    env.getNextLcore i false = (env.from (i + 1)).head?.getD rteMaxLcore := by
  rw [env.getNextLcore_straight i hi, LcoreEnv.from, List.head?_filter]

/-- The lcores once around. -/
def LcoreEnv.around (env : LcoreEnv) (i : UInt32) : List UInt32 :=
  env.from ((i + 1) % rteMaxLcore) ++ env.lcores

theorem next_wrap (hne : env.lcores ≠ []) (i : UInt32) :
    env.getNextLcore i true = (env.around i).head?.getD rteMaxLcore := by
  rw [env.getNextLcore_wrap hne, LcoreEnv.around, List.head?_append, LcoreEnv.from,
    List.head?_filter]

theorem ne_max {x : UInt32} (hx : x ∈ env.lcores) : x ≠ rteMaxLcore := by
  intro h
  have hlt := env.bound x hx
  rw [h] at hlt
  exact absurd hlt (by decide)

theorem succ_le_max {x : UInt32} (hx : x ∈ env.lcores) : x + 1 ≤ rteMaxLcore :=
  (succ_le_iff (env.bound x hx)).mpr (env.bound x hx)

/-! ## Counting -/

/-- The loop goes through the lcores from one on. -/
theorem enabledLoop_returns (l : List UInt32) {a : UInt32} (h : env.from a = l) (count : Nat) :
    Returns (fun fuel => enabledLoop env ethCoreMask fuel (l.head?.getD rteMaxLcore) count)
      (count + l.countP ethCoreMask) := by
  induction l generalizing a count with
  | nil =>
      refine (returns_const _).succ ?_
      intro fuel
      rfl
  | cons x xs ih =>
      have hx : x ∈ env.lcores := by
        have hmem : x ∈ env.from a := by
          rw [h]
          exact List.mem_cons_self
        exact (List.mem_filter.mp hmem).1
      have hxs := from_succ h
      have hrest := ih hxs (if ethCoreMask x then count + 1 else count)
      refine Returns.succ (g := fun fuel => enabledLoop env ethCoreMask fuel
        (xs.head?.getD rteMaxLcore) (if ethCoreMask x then count + 1 else count)) ?_ ?_
      · convert hrest using 1
        rw [List.countP_cons]
        split <;> omega
      · intro fuel
        show (if x < rteMaxLcore then enabledLoop env ethCoreMask fuel
          (env.getNextLcore x false) _ else _) = _
        rw [if_pos (env.bound x hx), next_straight (succ_le_max hx), hxs]
        rfl

theorem ehGetEnabledCores_returns :
    Returns (ehGetEnabledCores env ethCoreMask) (env.lcores.countP ethCoreMask) := by
  have hall : env.from (noCore + 1) = env.lcores := by
    refine List.filter_eq_self.mpr ?_
    intro x _
    exact decide_eq_true (UInt32.le_iff_toNat_le.mpr (Nat.zero_le _))
  have h : Returns (fun fuel => enabledLoop env ethCoreMask fuel _ 0) _ :=
    enabledLoop_returns env.lcores hall 0
  rw [Nat.zero_add] at h
  refine h.congr ?_
  intro fuel
  rw [ehGetEnabledCores, next_straight (by decide), hall]

/-! ## Eth cores -/

theorem mem_of_from {a x : UInt32} {xs : List UInt32} (h : env.from a = x :: xs) :
    x ∈ env.lcores := by
  have hmem : x ∈ env.from a := by
    rw [h]
    exact List.mem_cons_self
  exact (List.mem_filter.mp hmem).1

theorem from_zero : env.from 0 = env.lcores := by
  refine List.filter_eq_self.mpr ?_
  intro x _
  exact decide_eq_true (UInt32.le_iff_toNat_le.mpr (Nat.zero_le _))

theorem from_max : env.from rteMaxLcore = [] := by
  refine List.filter_eq_nil_iff.mpr ?_
  intro x hx hle
  exact absurd (env.bound x hx) (Std.not_lt.mpr (of_decide_eq_true hle))

/-- Behind a lcore that is not the last of all nothing is wrapped. -/
theorem mod_of_ne_max {x : UInt32} (hx : x ∈ env.lcores) (hlast : x + 1 ≠ rteMaxLcore) :
    (x + 1) % rteMaxLcore = x + 1 := by
  have hlt : x + 1 < rteMaxLcore := Std.lt_of_le_of_ne (succ_le_max hx) hlast
  rw [← UInt32.toNat_inj, UInt32.toNat_mod]
  exact Nat.mod_eq_of_lt (UInt32.lt_iff_toNat_lt.mp hlt)

/-- Behind a lcore the search goes on with those that follow it, and then with all. -/
theorem around_from {x : UInt32} (hx : x ∈ env.lcores) :
    env.from (x + 1) ++ env.lcores <+: env.around x := by
  by_cases hlast : x + 1 = rteMaxLcore
  · rw [LcoreEnv.around, hlast, from_max, show rteMaxLcore % rteMaxLcore = 0 from rfl, from_zero]
    exact List.prefix_append _ _
  · have heq : env.around x = env.from (x + 1) ++ env.lcores := by
      rw [LcoreEnv.around, mod_of_ne_max hx hlast]
    exact heq ▸ List.prefix_refl _

/-- What is behind the first lcore of the search is there in the next search. -/
theorem around_tail {i x : UInt32} {xs : List UInt32} (h : env.around i = x :: xs) :
    x ∈ env.lcores ∧ xs <+: env.around x := by
  cases hfrom : env.from ((i + 1) % rteMaxLcore) with
  | nil =>
      rw [LcoreEnv.around, hfrom, List.nil_append, ← from_zero] at h
      have hx := mem_of_from h
      refine ⟨hx, List.IsPrefix.trans ?_ (around_from hx)⟩
      rw [from_succ h]
      exact List.prefix_append _ _
  | cons y ys =>
      rw [LcoreEnv.around, hfrom] at h
      obtain ⟨rfl, rfl⟩ := List.cons.inj h
      have hx := mem_of_from hfrom
      refine ⟨hx, List.IsPrefix.trans ?_ (around_from hx)⟩
      rw [from_succ hfrom]
      exact List.prefix_refl _

/-- The loop ends where the search finds a core. -/
theorem ethCoreLoop_returns {core : UInt32} (l : List UInt32) {i : UInt32}
    (hl : l <+: env.around i) (hfind : l.find? ethCoreMask = some core) :
    Returns (fun fuel => ethCoreLoop env ethCoreMask fuel i) (core, core) := by
  induction l generalizing i with
  | nil => cases hfind
  | cons x xs ih =>
      obtain ⟨zs, hzs⟩ := hl
      have haround : env.around i = x :: (xs ++ zs) := hzs.symm
      obtain ⟨hx, htail⟩ := around_tail haround
      have hne : env.lcores ≠ [] := List.ne_nil_of_mem hx
      have hnext : env.getNextLcore i true = x := by
        rw [next_wrap hne, haround]
        rfl
      by_cases hmask : ethCoreMask x = true
      · rw [List.find?_cons_of_pos hmask] at hfind
        obtain rfl := Option.some.inj hfind
        refine (returns_const (x, x)).succ ?_
        intro fuel
        rw [ethCoreLoop, hnext, if_neg (ne_max hx), if_pos hmask]
      · rw [List.find?_cons_of_neg hmask] at hfind
        refine (ih ((List.prefix_append _ _).trans htail) hfind).succ ?_
        intro fuel
        rw [ethCoreLoop, hnext, if_neg (ne_max hx), if_neg hmask]

/-- The core the search finds, and `prev_core` behind it. -/
def LcoreEnv.found (env : LcoreEnv) (ethCoreMask : UInt32 → Bool) (prevCore : UInt32) :
    UInt32 × UInt32 :=
  match (env.around prevCore).find? ethCoreMask with
  | some core => (core, core)
  | none => (rteMaxLcore, prevCore)

/-- Nothing is found where the mask is empty. -/
theorem find_none_iff (i : UInt32) :
    (env.around i).find? ethCoreMask = none ↔ env.lcores.countP ethCoreMask = 0 := by
  rw [List.find?_eq_none, List.countP_eq_zero]
  constructor
  · intro h x hx
    exact h x (List.mem_append_right _ hx)
  · intro h x hx
    rcases List.mem_append.mp hx with hx | hx
    · exact h x (List.mem_filter.mp hx).1
    · exact h x hx

/-- **TERMINATION**: every call comes to an end, with what the search finds. -/
theorem ehGetNextEthCore_returns (prevCore : UInt32) :
    Returns (ehGetNextEthCore env ethCoreMask prevCore) (env.found ethCoreMask prevCore) := by
  refine ehGetEnabledCores_returns.bind ?_
  cases hfind : (env.around prevCore).find? ethCoreMask with
  | none =>
      rw [LcoreEnv.found, hfind]
      simp only [(find_none_iff prevCore).mp hfind, if_true]
      exact returns_const _
  | some core =>
      have hcount : env.lcores.countP ethCoreMask ≠ 0 := by
        intro h
        rw [(find_none_iff prevCore).mpr h] at hfind
        cases hfind
      rw [LcoreEnv.found, hfind]
      simp only [if_neg hcount]
      exact ethCoreLoop_returns _ (List.prefix_refl _) hfind

/-! ## In turn -/

/-- The enabled cores of the mask, in increasing order. -/
def LcoreEnv.ethCores (env : LcoreEnv) (ethCoreMask : UInt32 → Bool) : List UInt32 :=
  env.lcores.filter ethCoreMask

theorem ethCores_sorted : (env.ethCores ethCoreMask).Pairwise (· < ·) :=
  env.sorted.sublist List.filter_sublist

theorem mem_ethCores {x : UInt32} :
    x ∈ env.ethCores ethCoreMask ↔ x ∈ env.lcores ∧ ethCoreMask x = true := List.mem_filter

/-- The cores of the mask among the lcores once around. -/
theorem around_filter (i : UInt32) :
    (env.around i).filter ethCoreMask
      = (env.ethCores ethCoreMask).filter ((i + 1) % rteMaxLcore ≤ ·)
        ++ env.ethCores ethCoreMask := by
  rw [LcoreEnv.around, List.filter_append, LcoreEnv.from, List.filter_comm]
  rfl

theorem found_of_find {i core : UInt32}
    (h : ((env.around i).filter ethCoreMask).head? = some core) :
    env.found ethCoreMask i = (core, core) := by
  rw [List.head?_filter] at h
  rw [LcoreEnv.found, h]

/-- A core of the mask is found where there is one. -/
theorem found_mem (hne : env.ethCores ethCoreMask ≠ []) (i : UInt32) :
    ∃ j, ∃ hj : j < (env.ethCores ethCoreMask).length,
      env.found ethCoreMask i
        = ((env.ethCores ethCoreMask)[j], (env.ethCores ethCoreMask)[j]) := by
  obtain ⟨core, hcore⟩ : ∃ core, ((env.around i).filter ethCoreMask).head? = some core := by
    have hne' : (env.around i).filter ethCoreMask ≠ [] := by
      rw [around_filter]
      exact List.append_ne_nil_of_right_ne_nil _ hne
    obtain ⟨core, rest, hcore⟩ := List.exists_cons_of_ne_nil hne'
    exact ⟨core, by rw [hcore, List.head?_cons]⟩
  have hmem : core ∈ env.ethCores ethCoreMask := by
    have hmem := List.mem_of_mem_head? hcore
    rw [around_filter] at hmem
    rcases List.mem_append.mp hmem with hmem | hmem
    · exact (List.mem_filter.mp hmem).1
    · exact hmem
  obtain ⟨j, hj, rfl⟩ := List.mem_iff_getElem.mp hmem
  exact ⟨j, hj, found_of_find hcore⟩

/-- What is behind a core among the cores of the mask. -/
theorem ethCores_behind {j : Nat} {core : UInt32}
    (h : (env.ethCores ethCoreMask)[j]? = some core) :
    (env.ethCores ethCoreMask).filter (core + 1 ≤ ·) = (env.ethCores ethCoreMask).drop (j + 1) := by
  obtain ⟨hj, hget⟩ := List.getElem?_eq_some_iff.mp h
  have hafter := filter_after_getElem ethCores_sorted hj
  rw [hget] at hafter
  have hcore : core ∈ env.lcores := (mem_ethCores.mp (List.mem_of_getElem hget)).1
  refine Eq.trans ?_ hafter
  refine List.filter_congr ?_
  intro y _
  exact decide_eq_decide.mpr (succ_le_iff (env.bound core hcore))

/-- Where the list ends at `n` the place behind the last is the first. -/
theorem head?_wrap {l : List UInt32} {n : Nat} (hn : n = l.length) :
    l.head? = l[n % l.length]? := by
  rw [hn, Nat.mod_self, List.head?_eq_getElem?]

/-- **NEXT**: behind a core of the mask the one that follows it, behind the last the first. -/
theorem found_next {j : Nat} {core : UInt32} (h : (env.ethCores ethCoreMask)[j]? = some core) :
    ∃ core', (env.ethCores ethCoreMask)[(j + 1) % (env.ethCores ethCoreMask).length]? = some core'
      ∧ env.found ethCoreMask core = (core', core') := by
  have hj := (List.getElem?_eq_some_iff.mp h).1
  have hcore : core ∈ env.lcores := (mem_ethCores.mp (List.mem_of_getElem? h)).1
  have hbehind := ethCores_behind h
  have hlt : (j + 1) % (env.ethCores ethCoreMask).length < (env.ethCores ethCoreMask).length :=
    Nat.mod_lt _ (Nat.zero_lt_of_lt hj)
  refine ⟨_, List.getElem?_eq_getElem hlt, found_of_find ?_⟩
  rw [← List.getElem?_eq_getElem hlt, around_filter]
  by_cases hlast : core + 1 = rteMaxLcore
  · -- the last lcore of all: the search begins with the first core again
    have hend : (env.ethCores ethCoreMask).drop (j + 1) = [] := by
      rw [← hbehind, hlast, LcoreEnv.ethCores, List.filter_comm]
      show List.filter _ (env.from rteMaxLcore) = []
      rw [from_max]
      rfl
    have hall : (env.ethCores ethCoreMask).filter (0 ≤ ·) = env.ethCores ethCoreMask := by
      rw [LcoreEnv.ethCores, List.filter_comm]
      show List.filter _ (env.from 0) = _
      rw [from_zero]
    rw [hlast, show rteMaxLcore % rteMaxLcore = 0 from rfl, hall, List.head?_append, Option.or_self]
    rw [List.drop_eq_nil_iff] at hend
    exact head?_wrap (by omega)
  · rw [mod_of_ne_max hcore hlast, hbehind, List.head?_append, List.head?_drop]
    by_cases hmore : j + 1 < (env.ethCores ethCoreMask).length
    · rw [Nat.mod_eq_of_lt hmore, List.getElem?_eq_getElem hmore]
      rfl
    · rw [List.getElem?_eq_none (by omega)]
      exact head?_wrap (by omega)

/-- Calls one after the other, each with the `prev_core` the one before has left. -/
inductive Calls (env : LcoreEnv) (ethCoreMask : UInt32 → Bool) :
    UInt32 → List UInt32 → UInt32 → Prop
  | nil {prevCore} : Calls env ethCoreMask prevCore [] prevCore
  | cons {prevCore core prevCore' cores prevCore''}
      (hcall : Returns (ehGetNextEthCore env ethCoreMask prevCore) (core, prevCore'))
      (hcalls : Calls env ethCoreMask prevCore' cores prevCore'') :
      Calls env ethCoreMask prevCore (core :: cores) prevCore''

/-- A call gives what the search finds. -/
theorem call_found {prevCore : UInt32} {r : UInt32 × UInt32}
    (h : Returns (ehGetNextEthCore env ethCoreMask prevCore) r) :
    r = env.found ethCoreMask prevCore := h.unique (ehGetNextEthCore_returns prevCore)

/-- The cores `l` are visited on a circle. -/
def VisitsInTurn (l cores : List UInt32) : Prop :=
  ∃ j, cores.map some = (arc l.length j cores.length).map fun i => l[i]?

theorem arc_succ (n p k : Nat) : arc n p (k + 1) = p % n :: arc n (p + 1) k := by
  rw [Nat.add_comm k 1, arc_add]
  rfl

/-- Behind a core of the mask the calls go on with the one that follows it. -/
theorem calls_after {cores : List UInt32} {j : Nat} {core prevCore' : UInt32}
    (h : (env.ethCores ethCoreMask)[j]? = some core)
    (hcalls : Calls env ethCoreMask core cores prevCore') :
    cores.map some = (arc (env.ethCores ethCoreMask).length (j + 1) cores.length).map
      fun i => (env.ethCores ethCoreMask)[i]? := by
  induction cores generalizing core j with
  | nil => rfl
  | cons c cores ih =>
      cases hcalls with
      | cons hcall hcalls =>
          obtain ⟨core', hcore', hfound⟩ := found_next h
          have hr := call_found hcall
          rw [hfound] at hr
          obtain ⟨rfl, rfl⟩ := Prod.mk.inj hr
          rw [List.length_cons, arc_succ, List.map_cons, List.map_cons, hcore', ih hcore' hcalls]
          rw [arc_congr (Nat.mod_add_mod _ _ 1)]

/-- **IN TURN**, whatever the state before the first call. -/
theorem calls_in_turn {cores : List UInt32} {prevCore prevCore' : UInt32}
    (hne : env.ethCores ethCoreMask ≠ [])
    (hcalls : Calls env ethCoreMask prevCore cores prevCore') :
    VisitsInTurn (env.ethCores ethCoreMask) cores := by
  cases hcalls with
  | nil => exact ⟨0, rfl⟩
  | cons hcall hcalls =>
      obtain ⟨j, hj, hfound⟩ := found_mem hne prevCore
      have hr := call_found hcall
      rw [hfound] at hr
      obtain ⟨rfl, rfl⟩ := Prod.mk.inj hr
      have hget := List.getElem?_eq_getElem hj
      refine ⟨j, ?_⟩
      rw [List.length_cons, arc_succ, List.map_cons, List.map_cons, calls_after hget hcalls,
        Nat.mod_eq_of_lt hj, hget]

/-- The value that is no core comes back exactly where the mask has none. -/
theorem found_max_iff (prevCore : UInt32) :
    (env.found ethCoreMask prevCore).1 = rteMaxLcore ↔ env.ethCores ethCoreMask = [] := by
  constructor
  · intro h
    by_contra hne
    obtain ⟨j, hj, hfound⟩ := found_mem hne prevCore
    rw [hfound] at h
    exact ne_max (mem_ethCores.mp (List.getElem_mem hj)).1 h
  · intro h
    have hfind : (env.around prevCore).find? ethCoreMask = none := by
      rw [find_none_iff, List.countP_eq_length_filter]
      show (env.ethCores ethCoreMask).length = 0
      rw [h]
      rfl
    rw [LcoreEnv.found, hfind]

end CoreSelect
