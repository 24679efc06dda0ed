import IpsecSecgw.Lib.ByteStore

/-! # Ones'-complement sums

    The checksum of internet headers: big-endian words are added, and what
    overflows a word is added at its low end.  Folding forgets nothing but the
    multiples of the all-ones word (`fold_mod`), so a checksum may be patched in
    any way that is right modulo this word, as long as the sum does not vanish
    (`fold_eq_ones_iff`). -/

namespace OnesSum

/-! ## Folding -/

/-- Add what overflows the word with largest value `ones` at its low end. -/
def fold (ones x : Nat) : Nat :=
  if _h : ones = 0 ∨ x ≤ ones then x
  else fold ones (x % (ones + 1) + x / (ones + 1))
termination_by x
decreasing_by
  have hdiv := Nat.mod_add_div x (ones + 1)
  have hq : 0 < x / (ones + 1) := Nat.div_pos (by omega) (Nat.succ_pos _)
  have hmul : 1 * (x / (ones + 1)) < (ones + 1) * (x / (ones + 1)) :=
    Nat.mul_lt_mul_of_pos_right (by omega) hq
  omega

variable {ones : Nat}

theorem fold_small {x : Nat} (h : x ≤ ones) : fold ones x = x := by
  rw [fold, dif_pos (.inr h)]

theorem fold_big {x : Nat} (hpos : 0 < ones) (h : ones < x) :
    fold ones x = fold ones (x % (ones + 1) + x / (ones + 1)) := by
  rw [fold, dif_neg]
  omega

/-- One carry: the sum stays the same modulo the all-ones word, and positive. -/
theorem carry_mod (ones x : Nat) :
    (x % (ones + 1) + x / (ones + 1)) % ones = x % ones := by
  have hdiv : x = x % (ones + 1) + x / (ones + 1) + ones * (x / (ones + 1)) := by
    have h := Nat.mod_add_div x (ones + 1)
    rw [Nat.add_mul, Nat.one_mul] at h
    omega
  conv_rhs => rw [hdiv]
  rw [Nat.add_mul_mod_self_left]

theorem carry_pos {x : Nat} (h : ones < x) :
    0 < x % (ones + 1) + x / (ones + 1) := by
  have hq : 0 < x / (ones + 1) := Nat.div_pos h (Nat.succ_pos _)
  omega

/-- **FOLDING** ends in a word, keeps the sum modulo the all-ones word, and
    vanishes only where the sum does. -/
theorem fold_spec (hpos : 0 < ones) (x : Nat) :
    fold ones x ≤ ones ∧ fold ones x % ones = x % ones
      ∧ (fold ones x = 0 ↔ x = 0) := by
  induction x using fold.induct ones with
  | case1 x h =>
      have hle : x ≤ ones := h.resolve_left (Nat.pos_iff_ne_zero.mp hpos)
      rw [fold_small hle]
      exact ⟨hle, rfl, Iff.rfl⟩
  | case2 x h ih =>
      have hbig : ones < x := Nat.not_le.mp (not_or.mp h).2
      obtain ⟨hle, hmod, hzero⟩ := ih
      rw [fold_big hpos hbig]
      refine ⟨hle, hmod.trans (carry_mod ones x), ?_⟩
      rw [hzero]
      have := carry_pos hbig
      omega

/-- **THE ALL-ONES WORD** is what the positive multiples of it fold to. -/
theorem fold_eq_ones_iff (hpos : 0 < ones) (x : Nat) :
    fold ones x = ones ↔ 0 < x ∧ x % ones = 0 := by
  obtain ⟨hle, hmod, hzero⟩ := fold_spec hpos x
  constructor
  · intro h
    rw [h, Nat.mod_self] at hmod
    refine ⟨Nat.pos_of_ne_zero fun hx => ?_, hmod.symm⟩
    rw [hzero.mpr hx] at h
    omega
  · rintro ⟨hx, hx0⟩
    rw [hx0] at hmod
    have hne : fold ones x ≠ 0 := fun h => Nat.pos_iff_ne_zero.mp hx (hzero.mp h)
    -- a positive number up to `ones` that `ones` divides
    refine Nat.le_antisymm hle ?_
    exact Nat.le_of_dvd (Nat.pos_of_ne_zero hne) (Nat.dvd_of_mod_eq_zero hmod)

/-! ## Words of a memory -/

/-- The big-endian word at `a`. -/
def word (b : Nat → UInt8) (a : Nat) : Nat :=
  (b a).toNat * 0x100 + (b (a + 1)).toNat

/-- The sum of `n` words from `a` on. -/
def wordSum (b : Nat → UInt8) : Nat → Nat → Nat
  | _, 0 => 0
  | a, n + 1 => word b a + wordSum b (a + 2) n

theorem word_congr {b c : Nat → UInt8} {a : Nat} (h : c a = b a)
    (h' : c (a + 1) = b (a + 1)) : word c a = word b a := by
  rw [word, word, h, h']

theorem wordSum_succ (b : Nat → UInt8) (a n : Nat) :
    wordSum b a (n + 1) = word b a + wordSum b (a + 2) n := rfl

/-- A sum splits between any two words. -/
theorem wordSum_add (b : Nat → UInt8) (a m n : Nat) :
    wordSum b a (m + n) = wordSum b a m + wordSum b (a + 2 * m) n := by
  induction m generalizing a with
  | zero => rw [Nat.zero_add, wordSum, Nat.zero_add, Nat.mul_zero, Nat.add_zero]
  | succ m ih =>
      have hstart : a + 2 + 2 * m = a + 2 * (m + 1) := by omega
      rw [Nat.succ_add, wordSum_succ, wordSum_succ, ih, hstart, Nat.add_assoc]

/-- The sum depends on the bytes it adds. -/
theorem wordSum_congr {b c : Nat → UInt8} {a n : Nat}
    (h : ∀ i, a ≤ i → i < a + 2 * n → c i = b i) : wordSum c a n = wordSum b a n := by
  induction n generalizing a with
  | zero => rfl
  | succ n ih =>
      rw [wordSum_succ, wordSum_succ]
      have hword : word c a = word b a :=
        word_congr (h a (by omega) (by omega)) (h (a + 1) (by omega) (by omega))
      rw [hword, ih fun i hi hlt => h i (by omega) (by omega)]

end OnesSum
