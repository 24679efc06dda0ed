import Mathlib.Algebra.Group.Nat.Defs
import Mathlib.Data.List.Basic
import Mathlib.Data.Nat.Prime.Basic

/-! # Tables that grow

    A table of slots with a count of those in use, which doubles its memory when
    it is full and clears the new half.  Count and size are 32-bit words.

    `Keeps` says what such a table holds: the list of what was put into it, and
    behind it slots that are still blank.  A table that is extended has a blank
    slot, which may be filled and counted, or nothing can be written to it
    (`Keeps.extend`). -/

namespace Growing

/-- The memory (`none` before any was asked for), the slots counted and the size. -/
structure GrowArr (α : Type) where
  mem : Option (List α) := none
  count : UInt32 := 0
  size : UInt32 := 0

variable {α : Type}

/-- Room for one more, when there is memory for it: twice the size, with the second
    half cleared. -/
def GrowArr.extend (zero : α) (init : UInt32) (memory : Bool) (a : GrowArr α) :
    Bool × GrowArr α :=
  match a.mem with
  | none =>
      if memory then
        (true, { a with mem := some (List.replicate init.toNat zero), size := init })
      else (false, a)
  | some mem =>
      if a.size ≤ a.count then
        if memory then
          (true,
            { a with
              mem := some (mem.take a.size.toNat ++ List.replicate a.size.toNat zero)
              size := a.size * 2 })
        else (false, { a with mem := none })
      else (true, a)

/-- The first slot that is not counted. -/
def GrowArr.slot (a : GrowArr α) : Option α := a.mem.bind fun mem => mem[a.count.toNat]?

/-- It is written. -/
def GrowArr.write (a : GrowArr α) (x : α) : GrowArr α :=
  { a with mem := a.mem.map fun mem => mem.set a.count.toNat x }

/-- It is counted. -/
def GrowArr.bump (a : GrowArr α) : GrowArr α := { a with count := a.count + 1 }

/-- The slots in use. -/
def GrowArr.used (a : GrowArr α) : List α := (a.mem.getD []).take a.count.toNat

variable {Blank : α → Prop} {l : List α} {a : GrowArr α} {zero : α} {init : UInt32}

theorem extend_none (h : a.mem = none) :
    a.extend zero init true
      = (true, { a with mem := some (List.replicate init.toNat zero), size := init }) := by
  simp [GrowArr.extend, h]

theorem extend_full {mem : List α} (h : a.mem = some mem) (hfull : a.size ≤ a.count) :
    a.extend zero init true
      = (true, { a with
          mem := some (mem.take a.size.toNat ++ List.replicate a.size.toNat zero)
          size := a.size * 2 }) := by
  simp [GrowArr.extend, h, hfull]

theorem extend_room {mem : List α} (h : a.mem = some mem) (hroom : ¬ a.size ≤ a.count) :
    a.extend zero init true = (true, a) := by
  simp only [GrowArr.extend, h, if_neg hroom]

/-- What is written lies in the slot. -/
theorem slot_of_mem {x : α} {free : List α} (hmem : a.mem = some (l ++ x :: free))
    (hcount : a.count.toNat = l.length) : a.slot = some x := by
  rw [GrowArr.slot, hmem, hcount]
  simp

/-! ## Without a bound

    Sizes are powers of two, so the first size that cannot be doubled is half of
    what a word holds, and twice that is zero.  There the memory still grows once
    more; the next time there is nothing left. -/

/-- The table holds a list, whatever its length. -/
structure Keeps (Blank : α → Prop) (l : List α) (a : GrowArr α) : Prop where
  count : a.count.toNat = l.length
  mem : a.mem = none ∧ l = []
    ∨ ∃ free, a.mem = some (l ++ free) ∧ (∀ x ∈ free, Blank x)
      ∧ ((l ++ free).length = a.size.toNat ∧ a.size.toNat ∣ 2 ^ 31 ∨ a.size = 0)

/-- A table that no memory was asked for. -/
theorem keeps_nil : Keeps Blank [] ({} : GrowArr α) := ⟨rfl, .inl ⟨rfl, rfl⟩⟩

/-- The slots in use are the list. -/
theorem Keeps.used (h : Keeps Blank l a) : a.used = l := by
  rw [GrowArr.used, h.count]
  rcases h.mem with ⟨hmem, hl⟩ | ⟨free, hmem, -, -⟩
  · rw [hmem, hl]
    rfl
  · rw [hmem, Option.getD_some, List.take_left]

/-- The slots behind those in use are blank. -/
theorem Keeps.blank (h : Keeps Blank l a) :
    ∀ mem, a.mem = some mem → ∀ x ∈ mem.drop a.count.toNat, Blank x := by
  intro mem hmem
  rw [h.count]
  rcases h.mem with ⟨hnone, -⟩ | ⟨free, hsome, hfree, -⟩
  · rw [hmem] at hnone
    cases hnone
  · rw [hmem] at hsome
    rw [Option.some.inj hsome, List.drop_left]
    exact hfree

/-- Twice a power of two is one, or it is zero. -/
theorem size_double {n : UInt32} (h : n.toNat ∣ 2 ^ 31) :
    (n * 2).toNat = n.toNat + n.toNat ∧ (n * 2).toNat ∣ 2 ^ 31 ∨ n * 2 = 0 := by
  obtain ⟨k, hk, hn⟩ := (Nat.dvd_prime_pow Nat.prime_two).mp h
  rcases Nat.lt_or_ge k 31 with hlt | hge
  · have hle : 2 ^ (k + 1) ≤ 2 ^ 31 := Nat.pow_le_pow_right (by omega) hlt
    have htwo : (n * 2).toNat = 2 ^ (k + 1) := by
      rw [UInt32.toNat_mul, hn, show (2 : UInt32).toNat = 2 from rfl, ← Nat.pow_succ]
      exact Nat.mod_eq_of_lt (by omega)
    refine .inl ⟨?_, ?_⟩
    · rw [htwo, hn, Nat.pow_succ]
      omega
    · rw [htwo]
      exact Nat.pow_dvd_pow 2 hlt
  · have hk : k = 31 := by omega
    refine .inr (UInt32.toNat_inj.mp ?_)
    rw [UInt32.toNat_mul, hn, hk]
    rfl

/-- The slot behind the list, of a table that has one. -/
theorem keeps_slot {x : α} {free : List α} (hmem : a.mem = some (l ++ x :: free))
    (hcount : a.count.toNat = l.length) (hx : Blank x) (hfree : ∀ z ∈ free, Blank z)
    (hlen : (l ++ x :: free).length = a.size.toNat ∧ a.size.toNat ∣ 2 ^ 31 ∨ a.size = 0)
    (hle : l.length ≤ 2 ^ 31) :
    a.slot = some x ∧ Blank x ∧ (∀ y, Keeps Blank (l ++ [y]) (a.write y).bump)
      ∧ ∀ y, Blank y → Keeps Blank l (a.write y) := by
  have hset : ∀ y, (a.write y).mem = some (l ++ y :: free) := by
    intro y
    show a.mem.map _ = _
    rw [hmem, Option.map_some, hcount, List.set_append_right _ _ (Nat.le_refl _),
      Nat.sub_self, List.set_cons_zero]
  have hsize : ∀ y, (l ++ y :: free).length = (l ++ x :: free).length := by
    intro y
    simp
  refine ⟨slot_of_mem hmem hcount, hx, fun y => ⟨?_, .inr ⟨free, ?_, hfree, ?_⟩⟩,
    fun y hy => ⟨hcount, .inr ⟨y :: free, hset y, ?_, ?_⟩⟩⟩
  · show (a.count + 1).toNat = _
    rw [UInt32.toNat_add, show (1 : UInt32).toNat = 1 from rfl, hcount, List.length_append,
      List.length_singleton]
    omega
  · show (a.write y).mem = _
    rw [hset y, List.append_assoc]
    rfl
  · rw [List.append_assoc, List.singleton_append, hsize y]
    exact hlen
  · intro z hz
    rcases List.mem_cons.mp hz with rfl | hz
    · exact hy
    · exact hfree z hz
  · rw [hsize y]
    exact hlen

/-- **EXTENSION**: either there is a blank slot behind the list that can be written, or
    there is nothing to write to. -/
theorem Keeps.extend (h : Keeps Blank l a) (zero : α) (init : UInt32) (hzero : Blank zero)
    (hinit : init.toNat ∣ 2 ^ 31) :
    (a.extend zero init true).1 = true
      ∧ ((a.extend zero init true).2.slot = none
        ∨ ∃ x, (a.extend zero init true).2.slot = some x ∧ Blank x
          ∧ (∀ y, Keeps Blank (l ++ [y]) ((a.extend zero init true).2.write y).bump)
          ∧ ∀ y, Blank y → Keeps Blank l ((a.extend zero init true).2.write y)) := by
  have hblank : ∀ n, ∀ y ∈ List.replicate n zero, Blank y := by
    intro n y hy
    rw [List.eq_of_mem_replicate hy]
    exact hzero
  have hpred : ∀ n, n ∣ 2 ^ 31 → ∃ m, n = m + 1 := fun n hn =>
    ⟨n - 1, (Nat.sub_add_cancel (Nat.pos_of_dvd_of_pos hn (by decide))).symm⟩
  rcases h.mem with ⟨hmem, rfl⟩ | ⟨free, hmem, hfree, hlen⟩
  · obtain ⟨n, hn⟩ := hpred _ hinit
    rw [extend_none hmem]
    have hmem' : some (List.replicate init.toNat zero)
        = some ([] ++ zero :: List.replicate n zero) := by
      rw [hn]
      rfl
    refine ⟨rfl, .inr ⟨zero, keeps_slot hmem' h.count hzero (hblank n)
      (.inl ⟨?_, hinit⟩) (Nat.zero_le _)⟩⟩
    show _ = init.toNat
    simp [hn]
  · rcases hlen with ⟨hlen, hdvd⟩ | hnone
    · have hle := Nat.le_of_dvd (by decide) hdvd
      rw [← hlen, List.length_append] at hle
      have hfull : a.size ≤ a.count ↔ free = [] := by
        rw [UInt32.le_iff_toNat_le, h.count, ← hlen, List.length_append]
        constructor
        · intro hle
          exact List.length_eq_zero_iff.mp (by omega)
        · rintro rfl
          exact Nat.le_refl _
      cases free with
      | nil =>
          -- the old half is the list, the new one is clear
          rw [List.append_nil] at hmem hlen
          obtain ⟨n, hn⟩ := hpred _ hdvd
          rw [extend_full hmem (hfull.mpr rfl)]
          have hmem' : some (l.take a.size.toNat ++ List.replicate a.size.toNat zero)
              = some (l ++ zero :: List.replicate n zero) := by
            rw [List.take_of_length_le (Nat.le_of_eq hlen), hn]
            rfl
          refine ⟨rfl, .inr ⟨zero, keeps_slot hmem' h.count hzero (hblank n) ?_ (by omega)⟩⟩
          refine (size_double hdvd).imp_left fun ⟨hsum, hdvd'⟩ => ⟨?_, hdvd'⟩
          show _ = (a.size * 2).toNat
          rw [hsum, List.length_append, List.length_cons, List.length_replicate, hlen, ← hn]
      | cons x free =>
          rw [extend_room hmem fun hle => List.cons_ne_nil _ _ (hfull.mp hle)]
          exact ⟨rfl, .inr ⟨x, keeps_slot hmem h.count (hfree x List.mem_cons_self)
            (fun y hy => hfree y (List.mem_cons_of_mem _ hy)) (.inl ⟨hlen, hdvd⟩)
            (by omega)⟩⟩
    · -- a size that came out as zero
      rw [extend_full hmem (by rw [hnone]; exact Nat.zero_le _)]
      refine ⟨rfl, .inl ?_⟩
      show (some ((l ++ free).take a.size.toNat ++ List.replicate a.size.toNat zero)).bind _ = _
      rw [hnone]
      rfl

end Growing
