import Mathlib.Data.List.Induction

/-! # Logs of writes

    Writes to the fields of a record, in their order, each with the text it was
    asked with.  A record follows a log when each field holds what one of the
    writes to it has stored (`Follows`): the last one, or an earlier one which a
    later write was only compared with. -/

namespace WriteLog

variable {F T V : Type} [DecidableEq F]

/-- The last write to a field. -/
def last (f : F) (log : List (F × T)) : Option T :=
  log.foldl (fun r x => if x.1 = f then some x.2 else r) none

theorem last_append (f : F) (log : List (F × T)) (x : F × T) :
    last f (log ++ [x]) = if x.1 = f then some x.2 else last f log := by
  rw [last, List.foldl_append]
  rfl

theorem last_mem {f : F} {log : List (F × T)} {t : T} (h : last f log = some t) :
    (f, t) ∈ log := by
  induction log using List.reverseRecOn with
  | nil => cases h
  | append_singleton log x ih =>
      rw [last_append] at h
      by_cases hx : x.1 = f
      · rw [if_pos hx] at h
        refine List.mem_append_right _ (List.mem_singleton.mpr ?_)
        rw [← hx, ← Option.some.inj h]
      · rw [if_neg hx] at h
        exact List.mem_append_left _ (ih h)

/-- A field that is written is written last by some write. -/
theorem last_of_mem {f : F} {log : List (F × T)} {t : T} (h : (f, t) ∈ log) :
    ∃ t', last f log = some t' := by
  induction log using List.reverseRecOn with
  | nil => cases h
  | append_singleton log x ih =>
      rw [last_append]
      by_cases hx : x.1 = f
      · exact ⟨x.2, if_pos hx⟩
      · rw [if_neg hx]
        rcases List.mem_append.mp h with h | h
        · exact ih h
        · rw [← List.mem_singleton.mp h] at hx
          exact absurd rfl hx

/-- Each field holds what a write to it stores, of the same kind as the last. -/
def Follows (kind : T → Bool) (stored : F → T → V) (held : F → V) (log : List (F × T)) :
    Prop :=
  ∀ f t, last f log = some t →
    ∃ t', (f, t') ∈ log ∧ kind t' = kind t ∧ held f = stored f t'

variable {kind : T → Bool} {stored : F → T → V} {held held' : F → V} {log : List (F × T)}

theorem follows_nil : Follows kind stored held [] := by
  intro f t h
  cases h

/-- What each write has stored is held. -/
theorem follows_all (h : ∀ f t, (f, t) ∈ log → held f = stored f t) :
    Follows kind stored held log :=
  fun f t hlast => ⟨t, last_mem hlast, rfl, h f t (last_mem hlast)⟩

/-- **WRITE**: one field is written, the others are kept. -/
theorem Follows.put {f : F} {t : T} (h : Follows kind stored held log)
    (hput : held' f = stored f t) (hkeep : ∀ g, g ≠ f → held' g = held g) :
    Follows kind stored held' (log ++ [(f, t)]) := by
  intro g u hlast
  rw [last_append] at hlast
  by_cases hg : f = g
  · rw [if_pos hg] at hlast
    cases hlast
    cases hg
    exact ⟨t, by simp, rfl, hput⟩
  · rw [if_neg hg] at hlast
    obtain ⟨t', hmem, hkind, hheld⟩ := h g u hlast
    exact ⟨t', by simp [hmem], hkind, (hkeep g (Ne.symm hg)).trans hheld⟩

/-- **COMPARE**: a write that leaves the field as an earlier one has made it. -/
theorem Follows.same {f : F} {t u : T} (h : Follows kind stored held log)
    (hlast : last f log = some u) (hkind : kind u = kind t) :
    Follows kind stored held (log ++ [(f, t)]) := by
  intro g v hv
  rw [last_append] at hv
  by_cases hg : f = g
  · rw [if_pos hg] at hv
    cases hv
    cases hg
    obtain ⟨t', hmem, hkind', hheld⟩ := h f u hlast
    exact ⟨t', by simp [hmem], hkind'.trans hkind, hheld⟩
  · rw [if_neg hg] at hv
    obtain ⟨t', hmem, hkind', hheld⟩ := h g v hv
    exact ⟨t', by simp [hmem], hkind', hheld⟩

/-- Nothing is written. -/
theorem Follows.congr (h : Follows kind stored held log) (hkeep : ∀ g, held' g = held g) :
    Follows kind stored held' log := by
  intro g u hlast
  obtain ⟨t', hmem, hkind, hheld⟩ := h g u hlast
  exact ⟨t', hmem, hkind, (hkeep g).trans hheld⟩

/-! ## Memories

    A memory with the writes of a log laid over it.  Two logs can be laid over it in
    either order exactly when they agree where both write. -/

/-- The second log is the later one. -/
theorem last_append_log (f : F) (log log' : List (F × T)) :
    last f (log ++ log') = (last f log').or (last f log) := by
  induction log' using List.reverseRecOn with
  | nil => rw [List.append_nil]; rfl
  | append_singleton log' x ih =>
      rw [← List.append_assoc, last_append, last_append, ih]
      by_cases hx : x.1 = f
      · rw [if_pos hx, if_pos hx]
        rfl
      · rw [if_neg hx, if_neg hx]

/-- The memory after the writes. -/
def overlay (log : List (F × T)) (m : F → T) : F → T := fun f => (last f log).getD (m f)

theorem overlay_append (log log' : List (F × T)) (m : F → T) :
    overlay (log ++ log') m = overlay log' (overlay log m) := by
  ext f
  rw [overlay, last_append_log, overlay, overlay]
  cases last f log' with
  | none => rfl
  | some x => rfl

/-- A field that is written does not depend on the memory. -/
theorem overlay_of_last {f : F} {log : List (F × T)} {t : T} (h : last f log = some t)
    (m : F → T) : overlay log m f = t := by
  rw [overlay, h, Option.getD_some]

/-- Where both write, they write the same. -/
def Agree (log log' : List (F × T)) : Prop :=
  ∀ f x y, last f log = some x → last f log' = some y → x = y

/-- **ORDER**: it makes no difference for logs that agree, and for others it does. -/
theorem overlay_comm_iff {log log' : List (F × T)} {m : F → T} :
    overlay log' (overlay log m) = overlay log (overlay log' m) ↔ Agree log log' := by
  constructor
  · intro h f x y hx hy
    have hf := congrFun h f
    rw [overlay_of_last hy, overlay_of_last hx] at hf
    exact hf.symm
  · intro h
    ext f
    cases hx : last f log with
    | none => simp only [overlay, hx, Option.getD_none]
    | some x =>
        cases hy : last f log' with
        | none => simp only [overlay, hx, hy, Option.getD_none]
        | some y =>
            rw [overlay_of_last hy, overlay_of_last hx]
            exact (h f x y hx hy).symm

/-- The writes of a block of cells. -/
def block : Nat → List T → List (Nat × T)
  | _, [] => []
  | a, x :: l => (a, x) :: block (a + 1) l

theorem last_block (i a : Nat) (l : List T) :
    last i (block a l) = if a ≤ i then l[i - a]? else none := by
  induction l generalizing a with
  | nil =>
      rw [block, last, List.foldl_nil]
      split <;> simp
  | cons x l ih =>
      rw [block, ← List.singleton_append, last_append_log, ih]
      rcases Nat.lt_trichotomy a i with hlt | rfl | hgt
      · obtain ⟨k, rfl⟩ : ∃ k, i = a + 1 + k := ⟨i - (a + 1), by omega⟩
        have hne : a ≠ a + 1 + k := by omega
        simp [last, hne, show a + 1 + k - a = k + 1 by omega, show a ≤ a + 1 + k by omega]
      · rw [if_neg (Nat.not_succ_le_self a)]
        simp [last]
      · have hne : a ≠ i := by omega
        simp [last, hne, show ¬ a + 1 ≤ i by omega, show ¬ a ≤ i by omega]

end WriteLog
