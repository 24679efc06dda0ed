import IpsecSecgw.CoreSelectProofs

/-! # Links to cores

    `eh_set_default_conf_link` takes the cores outside the mask one after the other,
    an event port for each, until there is no port or no core left.  The searches of
    this model and those of the configuration's agree. -/

namespace CoreSelect

open EventHelper Fuel SortedWalk

variable {env : LcoreEnv} {ethCoreMask : UInt32 → Bool}

/-- The enabled cores outside the mask, in increasing order. -/
def LcoreEnv.activeCores (env : LcoreEnv) (ethCoreMask : UInt32 → Bool) : List UInt32 :=
  env.lcores.filter (!ethCoreMask ·)

/-- The first core outside the mask from one on. -/
theorem ehGetNextActiveCore_returns (l : List UInt32) {i : UInt32} (hi : i + 1 ≤ rteMaxLcore)
    (hl : env.from (i + 1) = l) :
    Returns (fun fuel => ehGetNextActiveCore env ethCoreMask fuel i)
      ((l.find? (!ethCoreMask ·)).getD rteMaxLcore) := by
  induction l generalizing i with
  | nil =>
      refine (returns_const rteMaxLcore).succ ?_
      intro fuel
      have hnext : env.getNextLcore i false = rteMaxLcore := by
        rw [next_straight hi, hl]
        rfl
      rw [ehGetNextActiveCore, hnext, if_pos rfl]
  | cons x xs ih =>
      have hx := mem_of_from hl
      have hnext : env.getNextLcore i false = x := by
        rw [next_straight hi, hl]
        rfl
      by_cases hmask : ethCoreMask x = true
      · rw [List.find?_cons_of_neg (by simp [hmask])]
        refine (ih (succ_le_max hx) (from_succ hl)).succ ?_
        intro fuel
        rw [ehGetNextActiveCore, hnext, if_neg (ne_max hx), if_pos hmask]
      · rw [List.find?_cons_of_pos (by simp [hmask])]
        refine (returns_const x).succ ?_
        intro fuel
        rw [ehGetNextActiveCore, hnext, if_neg (ne_max hx), if_neg hmask]

theorem activeCores_sorted : (env.activeCores ethCoreMask).Pairwise (· < ·) :=
  env.sorted.sublist List.filter_sublist

theorem mem_activeCores {x : UInt32} :
    x ∈ env.activeCores ethCoreMask ↔ x ∈ env.lcores ∧ ethCoreMask x = false := by
  rw [LcoreEnv.activeCores, List.mem_filter, Bool.not_eq_true']

/-- One link saved. -/
def saveLink (eventdevId : UInt8) (i : Nat) (core : UInt32) (c : EventmodeConf) : EventmodeConf :=
  { c with
    link := Function.update c.link c.nbLink.toNat
      { c.link c.nbLink.toNat with
        eventdevId, eventPortId := UInt8.ofNat i, lcoreId := core.toUInt8 }
    nbLink := c.nbLink + 1 }

/-- A link for each of the cores, the event ports from `i` on. -/
def links (eventdevId : UInt8) : Nat → List UInt32 → EventmodeConf → EventmodeConf
  | _, [], c => c
  | i, core :: cores, c => links eventdevId (i + 1) cores (saveLink eventdevId i core c)

/-- What is left of the cores outside the mask is found and the rest of it left. -/
theorem active_step {p x : UInt32} {xs : List UInt32}
    (h : (env.activeCores ethCoreMask).filter (p + 1 ≤ ·) = x :: xs) :
    x ∈ env.lcores ∧ (env.activeCores ethCoreMask).filter (x + 1 ≤ ·) = xs := by
  have hmem : x ∈ (env.activeCores ethCoreMask).filter (p + 1 ≤ ·) := by
    rw [h]
    exact List.mem_cons_self
  have hx : x ∈ env.lcores := (mem_activeCores.mp (List.mem_filter.mp hmem).1).1
  refine ⟨hx, Eq.trans ?_ (filter_after activeCores_sorted h)⟩
  refine List.filter_congr ?_
  intro y _
  exact decide_eq_decide.mpr (succ_le_iff (env.bound x hx))

theorem active_find (p : UInt32) :
    (env.from (p + 1)).find? (!ethCoreMask ·)
      = ((env.activeCores ethCoreMask).filter (p + 1 ≤ ·)).head? := by
  rw [LcoreEnv.activeCores, List.filter_comm, List.head?_filter]
  rfl

/-- **PORTS AND CORES**: the loop comes to an end when the first of them are used up. -/
theorem linkLoop_returns (eventdevId : UInt8) (n : Nat) {i : Nat} {p : UInt32}
    {cores : List UInt32} (c : EventmodeConf) (hp : p + 1 ≤ rteMaxLcore)
    (hcores : (env.activeCores c.ethCoreMask).filter (p + 1 ≤ ·) = cores) :
    Returns (fun fuel => linkLoop env eventdevId fuel (List.range' i n) p c)
      (links eventdevId i (cores.take n) c) := by
  induction n generalizing i p cores c with
  | zero => exact returns_const c
  | succ n ih =>
      have hcore : Returns (fun fuel => ehGetNextActiveCore env c.ethCoreMask fuel p) _ :=
        ehGetNextActiveCore_returns _ hp rfl
      rw [active_find, hcores] at hcore
      cases cores with
      | nil =>
          -- no core is left
          refine hcore.bind ?_
          exact returns_const c
      | cons x xs =>
          obtain ⟨hx, hxs⟩ := active_step hcores
          refine hcore.bind ?_
          refine (ih (saveLink eventdevId i x c) (succ_le_max hx) hxs).congr ?_
          intro fuel
          exact if_neg (ne_max hx)

/-! ## What is linked -/

theorem links_frame (eventdevId : UInt8) (i : Nat) (cores : List UInt32) (c : EventmodeConf) :
    ∃ link, links eventdevId i cores c
      = { c with link, nbLink := c.nbLink + UInt8.ofNat cores.length } := by
  induction cores generalizing i c with
  | nil =>
      have hnb : c.nbLink + UInt8.ofNat 0 = c.nbLink := UInt8.add_zero _
      refine ⟨c.link, ?_⟩
      rw [links, List.length_nil, hnb]
  | cons core cores ih =>
      obtain ⟨link, hlink⟩ := ih (i + 1) (saveLink eventdevId i core c)
      refine ⟨link, ?_⟩
      have hnb : c.nbLink + 1 + UInt8.ofNat cores.length
          = c.nbLink + UInt8.ofNat (cores.length + 1) := by
        rw [Nat.add_comm, UInt8.ofNat_add, UInt8.add_assoc]
        rfl
      rw [links, hlink, List.length_cons, ← hnb]
      rfl

/-- The place of the `k`th link. -/
def place (c : EventmodeConf) (k : Nat) : Nat := (c.nbLink + UInt8.ofNat k).toNat

theorem place_zero (c : EventmodeConf) : place c 0 = c.nbLink.toNat := by
  have hnb : c.nbLink + UInt8.ofNat 0 = c.nbLink := UInt8.add_zero _
  rw [place, hnb]

theorem place_save (eventdevId : UInt8) (i : Nat) (core : UInt32) (c : EventmodeConf) (k : Nat) :
    place (saveLink eventdevId i core c) k = place c (k + 1) := by
  rw [place, place, Nat.add_comm k 1, UInt8.ofNat_add, ← UInt8.add_assoc]
  rfl

theorem place_inj {c : EventmodeConf} {k l : Nat} (hk : k < 256) (hl : l < 256)
    (h : place c k = place c l) : k = l := by
  rw [place, place, UInt8.toNat_add, UInt8.toNat_add, UInt8.toNat_ofNat', UInt8.toNat_ofNat',
    Nat.mod_eq_of_lt hk, Nat.mod_eq_of_lt hl] at h
  have hnb := c.nbLink.toNat_lt
  omega

theorem save_kept {eventdevId : UInt8} {i j : Nat} {core : UInt32} {c : EventmodeConf}
    (hj : j ≠ place c 0) : (saveLink eventdevId i core c).link j = c.link j := by
  rw [place_zero] at hj
  exact Function.update_of_ne hj _ _

/-- **KEPT**: no other entry is written. -/
theorem links_kept {eventdevId : UInt8} {i j : Nat} {cores : List UInt32} {c : EventmodeConf}
    (hj : ∀ k < cores.length, j ≠ place c k) : (links eventdevId i cores c).link j = c.link j := by
  induction cores generalizing i c with
  | nil => rfl
  | cons core cores ih =>
      have hrest : ∀ k < cores.length, j ≠ place (saveLink eventdevId i core c) k := by
        intro k hk
        rw [place_save]
        exact hj (k + 1) (Nat.succ_lt_succ hk)
      rw [links, ih hrest]
      exact save_kept (hj 0 (Nat.zero_lt_succ _))

/-- **SAVED**: the cores in their order, the event ports counting up. -/
theorem links_saved {eventdevId : UInt8} {i k : Nat} {core : UInt32} {cores : List UInt32}
    {c : EventmodeConf} (hlen : cores.length ≤ 256) (hk : cores[k]? = some core) :
    (links eventdevId i cores c).link (place c k)
      = { c.link (place c k) with
          eventdevId, eventPortId := UInt8.ofNat (i + k), lcoreId := core.toUInt8 } := by
  induction cores generalizing i k c with
  | nil => cases hk
  | cons x xs ih =>
      have hlen' : xs.length < 256 := hlen
      cases k with
      | zero =>
          -- the other links are saved elsewhere
          obtain rfl := Option.some.inj hk
          have hother : ∀ k < xs.length, place c 0 ≠ place (saveLink eventdevId i x c) k := by
            intro k hk heq
            rw [place_save] at heq
            exact absurd (place_inj (by omega) (by omega) heq) (Nat.succ_ne_zero k).symm
          rw [links, links_kept hother, place_zero]
          exact Function.update_self _ _ _
      | succ k =>
          have hk' : xs[k]? = some core := hk
          have hlt := (List.getElem?_eq_some_iff.mp hk').1
          have hplace : place c (k + 1) ≠ place c 0 := by
            intro heq
            exact absurd (place_inj (by omega) (by omega) heq) (Nat.succ_ne_zero k)
          rw [links, ← place_save eventdevId i x c k, ih (Nat.le_of_lt hlen') hk',
            place_save, save_kept hplace, Nat.add_assoc, Nat.add_comm 1 k]

/-! ## The configuration -/

/-- The ports and the cores there are for links, the fewer of the two. -/
def linkCount (env : LcoreEnv) (c : EventmodeConf) : Nat :=
  min (c.eventdevConfig 0).nbEventport.toNat (env.activeCores c.ethCoreMask).length

/-- `eh_set_default_conf_link` has made `c'` of `c`. -/
structure Linked (env : LcoreEnv) (c c' : EventmodeConf) : Prop where
  count : c'.nbLink = c.nbLink + UInt8.ofNat (linkCount env c)
  /-- event port `k` goes to the core of that number outside the mask -/
  saved : ∀ k < linkCount env c, ∃ core, (env.activeCores c.ethCoreMask)[k]? = some core
    ∧ c'.link (place c k)
      = { c.link (place c k) with
          eventdevId := (c.eventdevConfig 0).eventdevId
          eventPortId := UInt8.ofNat k
          lcoreId := core.toUInt8 }
  kept : ∀ j, (∀ k < linkCount env c, j ≠ place c k) → c'.link j = c.link j

theorem links_linked (c : EventmodeConf) :
    Linked env c (links (c.eventdevConfig 0).eventdevId 0
      ((env.activeCores c.ethCoreMask).take (c.eventdevConfig 0).nbEventport.toNat)
      { c with allEvQueueToEvPort := true }) := by
  have hlen : ((env.activeCores c.ethCoreMask).take
      (c.eventdevConfig 0).nbEventport.toNat).length = linkCount env c := List.length_take
  have hbound : linkCount env c ≤ 256 :=
    Nat.le_trans (Nat.min_le_left _ _) (Nat.le_of_lt (UInt8.toNat_lt _))
  refine ⟨?_, ?_, ?_⟩
  · obtain ⟨link, hlink⟩ := links_frame (c.eventdevConfig 0).eventdevId 0
      ((env.activeCores c.ethCoreMask).take (c.eventdevConfig 0).nbEventport.toNat)
      { c with allEvQueueToEvPort := true }
    rw [hlink, hlen]
  · intro k hk
    have hcore : k < (env.activeCores c.ethCoreMask).length :=
      Nat.lt_of_lt_of_le hk (Nat.min_le_right _ _)
    have hport : k < (c.eventdevConfig 0).nbEventport.toNat :=
      Nat.lt_of_lt_of_le hk (Nat.min_le_left _ _)
    refine ⟨_, List.getElem?_eq_getElem hcore, ?_⟩
    have hsaved : (links (c.eventdevConfig 0).eventdevId 0 _
        { c with allEvQueueToEvPort := true }).link (place c k) = _ :=
      links_saved (Nat.le_trans (Nat.le_of_eq hlen) hbound)
        ((List.getElem?_take_of_lt hport).trans (List.getElem?_eq_getElem hcore))
    rw [Nat.zero_add] at hsaved
    exact hsaved
  · intro j hj
    rw [← hlen] at hj
    exact links_kept (c := { c with allEvQueueToEvPort := true }) hj

/-- The loop starts with the first core of all. -/
theorem activeCores_all :
    (env.activeCores ethCoreMask).filter (noCore + 1 ≤ ·) = env.activeCores ethCoreMask := by
  refine List.filter_eq_self.mpr ?_
  intro x _
  exact decide_eq_true (UInt32.le_iff_toNat_le.mpr (Nat.zero_le _))

theorem ehSetDefaultConfLink_returns (c : EventmodeConf) :
    Returns (ehSetDefaultConfLink env c) (links (c.eventdevConfig 0).eventdevId 0
      ((env.activeCores c.ethCoreMask).take (c.eventdevConfig 0).nbEventport.toNat)
      { c with allEvQueueToEvPort := true }) := by
  have h : Returns (fun fuel => linkLoop env (c.eventdevConfig 0).eventdevId fuel
      (List.range' 0 (c.eventdevConfig 0).nbEventport.toNat) noCore
      { c with allEvQueueToEvPort := true }) _ :=
    linkLoop_returns _ _ _ (by decide) activeCores_all
  rw [← List.range_eq_range'] at h
  exact h

/-! ## The search of the configuration -/

section Configuration

variable {ev : EventEnv}

/-- **AGREEMENT**: the eth core the configuration takes. -/
theorem ehGetNextEthCore_agrees (hev : ev.lcores = env.lcores) (c : EventmodeConf) :
    Returns (ehGetNextEthCore env c.ethCoreMask c.prevCore)
      (EventHelper.ehGetNextEthCore ev c) := by
  have heq : EventHelper.ehGetNextEthCore ev c = env.found c.ethCoreMask c.prevCore := by
    rw [EventHelper.ehGetNextEthCore, EventHelper.ehGetEnabledCores, lcoresAround, hev]
    by_cases hcount : env.lcores.countP c.ethCoreMask = 0
    · rw [if_pos hcount, LcoreEnv.found, (find_none_iff c.prevCore).mpr hcount]
    · rw [if_neg hcount]
      rfl
  rw [heq]
  exact ehGetNextEthCore_returns c.prevCore

theorem linkLoop_agrees (hev : ev.lcores = env.lcores) (eventdevId : UInt8) (n : Nat) {i : Nat}
    {p : UInt32} {cores : List UInt32} (c : EventmodeConf)
    (hcores : (env.activeCores c.ethCoreMask).filter (p + 1 ≤ ·) = cores) :
    EventHelper.linkLoop ev eventdevId (List.range' i n) p c
      = links eventdevId i (cores.take n) c := by
  induction n generalizing i p cores c with
  | zero => rfl
  | succ n ih =>
      have hcore : EventHelper.ehGetNextActiveCore ev c p = cores.head?.getD rteMaxLcore := by
        have hfind : (lcoresAfter ev p).find? (!c.ethCoreMask ·) = cores.head? := by
          rw [lcoresAfter, hev, ← hcores]
          exact active_find p
        rw [EventHelper.ehGetNextActiveCore, hfind]
        cases cores.head? <;> rfl
      rw [List.range'_succ, EventHelper.linkLoop, hcore]
      cases cores with
      | nil => rfl
      | cons x xs =>
          obtain ⟨hx, hxs⟩ := active_step hcores
          refine (if_neg (ne_max hx)).trans ?_
          exact ih (saveLink eventdevId i x c) hxs

/-- **AGREEMENT**: the links the configuration takes. -/
theorem ehSetDefaultConfLink_agrees (hev : ev.lcores = env.lcores) (c : EventmodeConf) :
    Returns (ehSetDefaultConfLink env c) (EventHelper.ehSetDefaultConfLink ev c) := by
  have heq := linkLoop_agrees (i := 0) hev (c.eventdevConfig 0).eventdevId
    (c.eventdevConfig 0).nbEventport.toNat (p := noCore)
    { c with allEvQueueToEvPort := true } activeCores_all
  rw [← List.range_eq_range'] at heq
  refine Eq.mp (congrArg _ heq.symm) (ehSetDefaultConfLink_returns c)

end Configuration

/-! ## Every core in its turn -/

/-- **FAIRNESS**: the search for an eth core ends, with no core exactly where there is
    none, and calls one after the other go round the cores of the mask.  The links go
    to the cores outside it, in order and to each at most once. -/
theorem cores_in_turn (env : LcoreEnv) (c : EventmodeConf) :
    (∀ prevCore, ∃ r, Returns (ehGetNextEthCore env c.ethCoreMask prevCore) r
      ∧ (r.1 = rteMaxLcore ↔ ∀ x ∈ env.lcores, c.ethCoreMask x = false))
    ∧ (∀ prevCore cores prevCore', Calls env c.ethCoreMask prevCore cores prevCore' →
        (∃ x ∈ env.lcores, c.ethCoreMask x = true) →
        VisitsInTurn (env.ethCores c.ethCoreMask) cores)
    ∧ (env.ethCores c.ethCoreMask).Pairwise (· < ·)
    ∧ (∀ x, x ∈ env.ethCores c.ethCoreMask ↔ x ∈ env.lcores ∧ c.ethCoreMask x = true)
    ∧ (∃ c', Returns (ehSetDefaultConfLink env c) c' ∧ Linked env c c')
    ∧ (env.activeCores c.ethCoreMask).Pairwise (· < ·)
    ∧ ∀ x, x ∈ env.activeCores c.ethCoreMask ↔ x ∈ env.lcores ∧ c.ethCoreMask x = false := by
  refine ⟨?_, ?_, ethCores_sorted, fun x => mem_ethCores,
    ⟨_, ehSetDefaultConfLink_returns c, links_linked c⟩, activeCores_sorted,
    fun x => mem_activeCores⟩
  · intro prevCore
    refine ⟨_, ehGetNextEthCore_returns prevCore, (found_max_iff prevCore).trans ?_⟩
    rw [LcoreEnv.ethCores, List.filter_eq_nil_iff]
    exact forall₂_congr fun x _ => Bool.not_eq_true _ ▸ Iff.rfl
  · rintro prevCore cores prevCore' hcalls ⟨x, hx, hmask⟩
    refine calls_in_turn ?_ hcalls
    exact List.ne_nil_of_mem (mem_ethCores.mpr ⟨hx, hmask⟩)

/-- `rte_get_next_lcore` for the lcores given. -/
def LcoreEnv.ofLcores (lcores : List UInt32) (sorted : lcores.Pairwise (· < ·))
    (bound : ∀ i ∈ lcores, i < rteMaxLcore) : LcoreEnv where
  lcores := lcores
  sorted := sorted
  bound := bound
  getNextLcore i wrap :=
    if wrap then ((lcores.find? ((i + 1) % rteMaxLcore ≤ ·)).or lcores.head?).getD rteMaxLcore
    else if i + 1 ≤ rteMaxLcore then (lcores.find? (i + 1 ≤ ·)).getD rteMaxLcore
    else i + 1
  getNextLcore_straight := fun _ hi => if_pos hi
  getNextLcore_wrap := fun _ _ => rfl

theorem lcores_four_bound : ∀ i ∈ ([0, 1, 2, 3] : List UInt32), i < rteMaxLcore := by
  intro i hi
  simp only [List.mem_cons, List.not_mem_nil, or_false] at hi
  rcases hi with rfl | rfl | rfl | rfl <;> decide

/-- Lcores 0 to 3, 1 and 3 for Ethernet. -/
theorem cores_in_turn_four :
    VisitsInTurn [1, 3] [3, 1, 3] := by
  have hcalls :
      Calls (.ofLcores [0, 1, 2, 3] (by decide) lcores_four_bound) (· % 2 = 1) 2 [3, 1, 3] 3 :=
    .cons (ehGetNextEthCore_returns 2) (.cons (ehGetNextEthCore_returns 3)
      (.cons (ehGetNextEthCore_returns 1) .nil))
  exact (cores_in_turn _ { ethCoreMask := (· % 2 = 1), ethPortmask := 0 }).2.1 2 _ _ hcalls
    ⟨1, by decide, by decide⟩

end CoreSelect
