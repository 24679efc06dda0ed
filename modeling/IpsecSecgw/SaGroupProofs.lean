import IpsecSecgw.IpsecModel
import IpsecSecgw.Lib.Runs
import IpsecSecgw.SaGroupModel

/-! # The groups are the runs of the burst

    Behind the first packet the entry at `n` is always the group that is open; with
    the count it would get now, the groups are the runs of the pointers seen so far
    (`Grouping.closed`). -/

namespace SaGroup

open Runs

section Entries

variable {α : Type}

/-- The groups if the open one were closed. -/
def Grouping.closed (s : Grouping α) : List (RteIpsecGroup α) :=
  (List.range s.n).map s.grp ++ [⟨(s.grp s.n).id, (s.grp s.n).m, s.i - (s.grp s.n).m⟩]

/-- An entry that is written is not among those before it. -/
theorem map_update (grp : Nat → RteIpsecGroup α) (n : Nat) (g : RteIpsecGroup α) :
    (List.range n).map (Function.update grp n g) = (List.range n).map grp := by
  refine List.map_congr_left ?_
  intro k hk
  exact Function.update_of_ne (Nat.ne_of_lt (List.mem_range.mp hk)) _ _

/-- The open group is closed and counted. -/
theorem groups_closed (s : Grouping α) :
    groups (s.setCnt.n + 1, s.setCnt.grp) = s.closed := by
  show (List.range (s.n + 1)).map (Function.update s.grp s.n _) = _
  rw [List.range_succ, List.map_append, map_update, List.map_singleton, Function.update_self]
  rfl

/-- A round that opens a group at `n` behind the groups `gs`. -/
structure Opens (s : Grouping α) (p : α) (gs : List (RteIpsecGroup α)) (s' : Grouping α) :
    Prop where
  sa : s'.sa = p
  index : s'.i = s.i + 1
  before : (List.range s'.n).map s'.grp = gs
  id : (s'.grp s'.n).id = p
  m : (s'.grp s'.n).m = s.i

/-- The entry at `n` with the count it would get. -/
theorem Opens.closed {s s' : Grouping α} {p : α} {gs : List (RteIpsecGroup α)}
    (h : Opens s p gs s') : s'.closed = gs ++ [⟨p, s.i, 1⟩] := by
  rw [Grouping.closed, h.before, h.id, h.m, h.index, Nat.add_sub_cancel_left]

/-- `gs` are the runs of the pointers in `l`. -/
abbrev GroupsOf (l : List α) (gs : List (RteIpsecGroup α)) : Prop :=
  RunsOf RteIpsecGroup.id RteIpsecGroup.m RteIpsecGroup.cnt l gs

/-- Behind the pointers in `l`: their groups with the last one open. -/
structure Grouped (nosa : α) (l : List α) (s : Grouping α) : Prop where
  sa : s.sa ≠ nosa
  index : s.i = l.length
  id : (s.grp s.n).id = s.sa
  m : (s.grp s.n).m < s.i
  runs : GroupsOf l s.closed

theorem Opens.grouped {nosa : α} {s s' : Grouping α} {p : α}
    {gs : List (RteIpsecGroup α)} {l : List α}
    (h : Opens s p gs s') (hp : p ≠ nosa) (hi : s.i = l.length)
    (hruns : GroupsOf (l ++ [p]) (gs ++ [⟨p, s.i, 1⟩])) : Grouped nosa (l ++ [p]) s' where
  sa := by
    rw [h.sa]
    exact hp
  index := by rw [h.index, hi, List.length_append, List.length_singleton]
  id := h.id.trans h.sa.symm
  m := by
    rw [h.m, h.index]
    exact Nat.lt_succ_self _
  runs := by
    rw [h.closed]
    exact hruns

end Entries

variable {α : Type} [DecidableEq α] {nosa : α}

/-! ## A round -/

/-- The pointer is the one of the open group. -/
theorem step_same {s : Grouping α} {p : α} (h : s.sa = p) :
    saGroupStep nosa s p = { s with i := s.i + 1 } := by
  unfold saGroupStep
  rw [if_neg (not_not_intro h)]

/-- The first pointer: what is closed is no group, and it is not counted. -/
theorem step_first {s : Grouping α} {p : α} (hsa : s.sa = nosa) (hp : p ≠ nosa) :
    Opens s p ((List.range s.n).map s.grp) (saGroupStep nosa s p) := by
  have hcount : (s.setCnt.count nosa) = s.setCnt := by
    have hzero : (if s.setCnt.sa ≠ nosa then 1 else 0) = 0 := if_neg (not_not_intro hsa)
    rw [Grouping.count, hzero]
    rfl
  unfold saGroupStep
  rw [if_pos (by rw [hsa]; exact hp.symm), hcount]
  refine ⟨rfl, rfl, ?_, ?_, ?_⟩
  · show (List.range s.n).map (Function.update (Function.update s.grp s.n _) s.n _) = _
    rw [map_update, map_update]
  · show (Function.update s.setCnt.grp s.n _ s.n).id = p
    rw [Function.update_self]
  · show (Function.update s.setCnt.grp s.n _ s.n).m = s.i
    rw [Function.update_self]
    rfl

/-- Any other one: the open group is closed. -/
theorem step_other {s : Grouping α} {p : α} (hsa : s.sa ≠ nosa) (hp : s.sa ≠ p) :
    Opens s p s.closed (saGroupStep nosa s p) := by
  have hcount : (s.setCnt.count nosa) = { s.setCnt with n := s.n + 1 } := by
    have hone : (if s.setCnt.sa ≠ nosa then 1 else 0) = 1 := if_pos hsa
    rw [Grouping.count, hone]
    rfl
  unfold saGroupStep
  rw [if_pos hp, hcount]
  refine ⟨rfl, rfl, ?_, ?_, ?_⟩
  · show (List.range (s.n + 1)).map (Function.update s.setCnt.grp (s.n + 1) _) = _
    rw [map_update]
    exact groups_closed s
  · show (Function.update s.setCnt.grp (s.n + 1) _ (s.n + 1)).id = p
    rw [Function.update_self]
  · show (Function.update s.setCnt.grp (s.n + 1) _ (s.n + 1)).m = s.i
    rw [Function.update_self]
    rfl

/-! ## The loop -/

/-- **STEP**: another pointer. -/
theorem Grouped.step {l : List α} {s : Grouping α} (h : Grouped nosa l s) {p : α}
    (hp : p ≠ nosa) : Grouped nosa (l ++ [p]) (saGroupStep nosa s p) := by
  by_cases hsame : s.sa = p
  · rw [step_same hsame]
    refine ⟨h.sa, ?_, h.id, Nat.lt_succ_of_lt h.m, ?_⟩
    · rw [List.length_append, List.length_singleton, ← h.index]
    · refine h.runs.extend (h.id.trans hsame) rfl rfl ?_
      show s.i + 1 - (s.grp s.n).m = s.i - (s.grp s.n).m + 1
      have hm := h.m
      omega
  · refine (step_other h.sa hsame).grouped hp h.index ?_
    refine h.runs.push ?_ rfl h.index rfl
    show (s.grp s.n).id ≠ p
    rw [h.id]
    exact hsame

/-- **RUN**: the pointers up to any place. -/
theorem grouped_foldl {l : List α} (hne : l ≠ []) (hno : nosa ∉ l)
    (grp : Nat → RteIpsecGroup α) :
    Grouped nosa l (l.foldl (saGroupStep nosa) (saGroupStart nosa grp)) := by
  induction l using List.reverseRecOn with
  | nil => exact absurd rfl hne
  | append_singleton l p ih =>
      have hp : p ≠ nosa := by
        rintro rfl
        exact hno (List.mem_append_right _ (List.mem_singleton.mpr rfl))
      rw [List.foldl_append, List.foldl_cons, List.foldl_nil]
      by_cases hl : l = []
      · rw [hl]
        exact (step_first rfl hp).grouped (l := []) hp rfl (runsOf_singleton rfl rfl rfl)
      · exact (ih hl fun h => hno (List.mem_append_left _ h)).step hp

/-- **THE GROUPS PARTITION THE BURST**. -/
theorem saGroup_runs (saPtr : List α) (hno : nosa ∉ saPtr) (grp : Nat → RteIpsecGroup α) :
    (saGroup nosa saPtr grp).1 ≤ saPtr.length
      ∧ GroupsOf saPtr (groups (saGroup nosa saPtr grp)) := by
  have hruns : GroupsOf saPtr (groups (saGroup nosa saPtr grp)) := by
    by_cases hne : saPtr = []
    · rw [hne]
      show GroupsOf [] (groups (if nosa ≠ nosa then _ else _))
      rw [if_neg (not_not_intro rfl)]
      exact runsOf_nil
    · have h := grouped_foldl hne hno grp
      rw [saGroup, if_pos h.sa]
      show GroupsOf saPtr (groups (_ + 1, (Grouping.setCnt _).grp))
      rw [groups_closed]
      exact h.runs
  refine ⟨?_, hruns⟩
  have hle := hruns.length_le
  rwa [groups, List.length_map, List.length_range] at hle

/-- Three packets of the address 7 and one of NULL, with 1 the address of the local. -/
theorem saGroup_runs_null :
    GroupsOf [7, 7, 0, 7] (groups (saGroup 1 [7, 7, 0, 7] fun _ => ⟨9, 9, 9⟩))
      ∧ groups (saGroup 1 [7, 7, 0, 7] fun _ => ⟨9, 9, 9⟩) = [⟨7, 0, 2⟩, ⟨0, 2, 1⟩, ⟨7, 3, 1⟩] :=
  ⟨(saGroup_runs [7, 7, 0, 7] (by decide) _).2, rfl⟩

/-! ## The groups of `ipsec_process` -/

section Refinement

open IpsecModel SaModel MbufModel

/-- A group as `ipsec_process` sees it: its SA pointer and its packets. -/
def view (pkts : List PktId) (g : RteIpsecGroup (Option SaRef)) : IpsecGroup :=
  ⟨g.id, (pkts.drop g.m).take g.cnt⟩

/-- A group inside the burst does not see the packets behind it. -/
theorem view_concat {pkts : List PktId} {g : RteIpsecGroup (Option SaRef)}
    (h : g.m + g.cnt ≤ pkts.length) (p : PktId) : view (pkts ++ [p]) g = view pkts g := by
  have hdrop : g.cnt ≤ (pkts.drop g.m).length := by
    rw [List.length_drop]
    omega
  rw [view, List.drop_append_of_le_length (by omega), List.take_append_of_le_length hdrop]
  rfl

/-- The last group takes the packet that has come. -/
theorem view_extend {pkts : List PktId} {id : Option SaRef} {m : Nat} (h : m ≤ pkts.length)
    (p : PktId) :
    view (pkts ++ [p]) ⟨id, m, pkts.length + 1 - m⟩
      = ⟨id, (view pkts ⟨id, m, pkts.length - m⟩).pkts ++ [p]⟩ := by
  rw [view, view]
  dsimp only
  rw [List.drop_append_of_le_length h]
  have hall : ((pkts.drop m) ++ [p]).length ≤ pkts.length + 1 - m := by
    rw [List.length_append, List.length_drop, List.length_singleton]
    omega
  have hold : (pkts.drop m).length ≤ pkts.length - m := by
    rw [List.length_drop]
  rw [List.take_of_length_le hall, List.take_of_length_le hold]

/-- **SIMULATION**: the groups closed and the one that is open are those of the model
    with lists. -/
theorem refines_foldl {nosa : Option SaRef} {l : List (PktId × Option SaRef)} (hne : l ≠ [])
    (hno : nosa ∉ l.map Prod.snd) (grp : Nat → RteIpsecGroup (Option SaRef)) :
    ∃ gs g, l.foldl IpsecModel.saGroupStep ([], none) = (gs, some g)
      ∧ ((l.map Prod.snd).foldl (saGroupStep nosa) (saGroupStart nosa grp)).closed.map
          (view (l.map Prod.fst)) = gs ++ [g] := by
  induction l using List.reverseRecOn with
  | nil => exact absurd rfl hne
  | append_singleton l x ih =>
      have hno' : nosa ∉ l.map Prod.snd := by
        intro h
        rw [List.map_append] at hno
        exact hno (List.mem_append_left _ h)
      have hx : x.2 ≠ nosa := by
        rintro rfl
        rw [List.map_append] at hno
        exact hno (List.mem_append_right _ (List.mem_singleton.mpr rfl))
      rw [List.map_append, List.map_append, List.map_singleton, List.map_singleton,
        List.foldl_append, List.foldl_cons, List.foldl_nil, List.foldl_append,
        List.foldl_cons, List.foldl_nil]
      by_cases hl : l = []
      · rw [hl]
        refine ⟨[], ⟨x.2, [x.1]⟩, rfl, ?_⟩
        have hstart : (saGroupStart nosa grp).sa = nosa := rfl
        show List.map _ (saGroupStep nosa (saGroupStart nosa grp) x.2).closed = _
        rw [(step_first hstart hx).closed]
        rfl
      · obtain ⟨gs, g, hmodel, hview⟩ := ih hl hno'
        have hl' : l.map Prod.snd ≠ [] := fun h => hl (List.map_eq_nil_iff.mp h)
        have h := grouped_foldl hl' hno' grp
        generalize (l.map Prod.snd).foldl (saGroupStep nosa) (saGroupStart nosa grp) = s
          at h hview ⊢
        have hlen : (l.map Prod.snd).length = (l.map Prod.fst).length := by
          rw [List.length_map, List.length_map]
        -- the groups lie inside the packets seen so far
        have hinside : ∀ r ∈ s.closed, r.m + r.cnt ≤ (l.map Prod.fst).length := by
          intro r hr
          rw [← hlen]
          exact (h.runs.tiles.inside r hr).2
        have hsee : s.closed.map (view (l.map Prod.fst ++ [x.1])) = gs ++ [g] := by
          rw [← hview]
          exact List.map_congr_left fun r hr => view_concat (hinside r hr) x.1
        have hi : s.i = (l.map Prod.fst).length := h.index.trans hlen
        obtain ⟨hgs, hg⟩ :
            (List.map s.grp (List.range s.n)).map (view (l.map Prod.fst ++ [x.1])) = gs
            ∧ view (l.map Prod.fst) ⟨(s.grp s.n).id, (s.grp s.n).m, s.i - (s.grp s.n).m⟩ = g := by
          rw [Grouping.closed, List.map_append] at hsee hview
          exact ⟨(List.append_inj' hsee rfl).1,
            (List.cons.inj (List.append_inj' hview rfl).2).1⟩
        rw [hmodel, IpsecModel.saGroupStep]
        dsimp only
        have hid : g.id = s.sa := by
          rw [← hg, ← h.id]
          rfl
        by_cases hsame : s.sa = x.2
        · rw [if_pos (hid.trans hsame), step_same hsame]
          refine ⟨gs, _, rfl, ?_⟩
          rw [Grouping.closed, List.map_append, hgs, List.map_singleton]
          dsimp only
          rw [hi, view_extend (by have hm := h.m; omega), ← hg, hi]
          rfl
        · rw [if_neg fun heq => hsame (hid.symm.trans heq)]
          refine ⟨gs ++ [g], ⟨x.2, [x.1]⟩, rfl, ?_⟩
          rw [(step_other h.sa hsame).closed, List.map_append, hsee, hi]
          simp [view]

/-- **REFINEMENT**. -/
theorem saGroup_refines {nosa : Option SaRef} {burst : List (PktId × Option SaRef)}
    (hno : nosa ∉ burst.map Prod.snd) (grp : Nat → RteIpsecGroup (Option SaRef)) :
    (groups (saGroup nosa (burst.map Prod.snd) grp)).map (view (burst.map Prod.fst))
      = IpsecModel.saGroup burst := by
  by_cases hne : burst = []
  · rw [hne]
    show (groups (if nosa ≠ nosa then _ else _)).map _ = _
    rw [if_neg (not_not_intro rfl)]
    rfl
  · obtain ⟨gs, g, hmodel, hview⟩ := refines_foldl hne hno grp
    have hne' : burst.map Prod.snd ≠ [] := fun h => hne (List.map_eq_nil_iff.mp h)
    have h := grouped_foldl hne' hno grp
    rw [saGroup, if_pos h.sa]
    show (groups ((Grouping.setCnt _).n + 1, (Grouping.setCnt _).grp)).map _ = _
    rw [groups_closed, hview, IpsecModel.saGroup, hmodel]
    rfl

end Refinement

end SaGroup
