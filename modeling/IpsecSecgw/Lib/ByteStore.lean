import Mathlib.Algebra.Group.Nat.Defs
import Mathlib.Data.List.Basic

/-! # Flat memory and byte order

    A flat memory is a total map from addresses to cells.  Blocks are read and
    written as lists; the lemmas say when a read sees a write, when it does not,
    and how a read splits at an inner address.  The second half is the byte
    order of numbers: fixed-width big-endian and little-endian digit lists. -/

namespace ByteStore

variable {α : Type}

/-! ## Blocks of a flat memory -/

/-- Read `n` cells from address `a`. -/
def load (b : Nat → α) (a n : Nat) : List α :=
  (List.range n).map (fun i => b (a + i))

/-- Write the cells `l` from address `a`. -/
def store (b : Nat → α) (a : Nat) (l : List α) : Nat → α :=
  fun i => if h : a ≤ i ∧ i < a + l.length then l.get ⟨i - a, by omega⟩
    else b i

@[simp] theorem length_load (b : Nat → α) (a n : Nat) :
    (load b a n).length = n := by
  simp [load]

theorem getElem_load (b : Nat → α) (a n i : Nat)
    (h : i < (load b a n).length) : (load b a n)[i] = b (a + i) := by
  simp [load]

theorem getElem?_load (b : Nat → α) (a n i : Nat) :
    (load b a n)[i]? = if i < n then some (b (a + i)) else none := by
  by_cases h : i < n
  · rw [if_pos h, List.getElem?_eq_getElem (by simpa using h), getElem_load]
  · rw [if_neg h, List.getElem?_eq_none (by simpa using h)]

@[simp] theorem load_zero (b : Nat → α) (a : Nat) : load b a 0 = [] := rfl

/-- A block starts with its first cell. -/
theorem load_succ (b : Nat → α) (a n : Nat) :
    load b a (n + 1) = b a :: load b (a + 1) n := by
  rw [load, List.range_succ_eq_map, List.map_cons, List.map_map, load]
  refine congrArg (b a :: ·) (List.map_congr_left ?_)
  intro i _
  show b (a + (i + 1)) = b (a + 1 + i)
  congr 1
  omega

/-- A block splits at every inner address. -/
theorem load_add (b : Nat → α) (a m n : Nat) :
    load b a (m + n) = load b a m ++ load b (a + m) n := by
  induction m generalizing a with
  | zero => simp
  | succ m ih =>
      rw [show m + 1 + n = (m + n) + 1 by omega, load_succ, load_succ, ih,
        show a + 1 + m = a + (m + 1) by omega]
      rfl

/-- Two blocks are equal when their cells are. -/
theorem load_congr {b c : Nat → α} {a d n : Nat}
    (h : ∀ i, i < n → b (a + i) = c (d + i)) : load b a n = load c d n := by
  refine List.map_congr_left ?_
  intro i hi
  exact h i (List.mem_range.mp hi)

/-- Equal blocks agree cell by cell. -/
theorem eq_of_load_eq {b c : Nat → α} {a d n : Nat}
    (h : load b a n = load c d n) (i : Nat) (hi : i < n) :
    b (a + i) = c (d + i) := by
  have hg := getElem_load b a n i (by simpa using hi)
  rw [← hg, ← getElem_load c d n i (by simpa using hi)]
  exact List.getElem_of_eq h _

/-- Equal blocks agree on every part. -/
theorem load_part_eq {b c : Nat → α} {a d n : Nat}
    (h : load b a n = load c d n) {i k : Nat} (hik : i + k ≤ n) :
    load b (a + i) k = load c (d + i) k := by
  refine load_congr fun j hj => ?_
  rw [Nat.add_assoc, Nat.add_assoc]
  exact eq_of_load_eq h (i + j) (by omega)

theorem store_outside (b : Nat → α) {a i : Nat} {l : List α}
    (h : i < a ∨ a + l.length ≤ i) : store b a l i = b i := by
  rw [store, dif_neg (by omega)]

theorem store_inside (b : Nat → α) (a : Nat) (l : List α) {i : Nat}
    (h : i < l.length) : store b a l (a + i) = l[i] := by
  rw [store, dif_pos (by omega)]
  simp

/-- A read sees the block just written. -/
@[simp] theorem load_store_same (b : Nat → α) (a : Nat) (l : List α) :
    load (store b a l) a l.length = l := by
  refine List.ext_getElem (by simp) ?_
  intro i h1 h2
  rw [getElem_load, store_inside b a l h2]

/-- A read of the written length sees the block just written. -/
theorem load_store_eq (b : Nat → α) {a n : Nat} {l : List α}
    (h : l.length = n) : load (store b a l) a n = l := by
  rw [← h, load_store_same]

/-- A read beside a written block does not see it. -/
theorem load_store_of_disjoint (b : Nat → α) {a c n : Nat} {l : List α}
    (h : c + n ≤ a ∨ a + l.length ≤ c) :
    load (store b a l) c n = load b c n := by
  refine load_congr ?_
  intro i hi
  exact store_outside b (by omega)

@[simp] theorem store_nil (b : Nat → α) (a : Nat) : store b a [] = b := by
  funext i
  exact store_outside b (by simp; omega)

/-- Writing two adjoining blocks is writing their concatenation. -/
theorem store_append (b : Nat → α) (a : Nat) (l r : List α) :
    store (store b a l) (a + l.length) r = store b a (l ++ r) := by
  funext i
  by_cases h1 : i < a
  · rw [store_outside _ (by omega), store_outside _ (by omega),
      store_outside _ (by omega)]
  · obtain ⟨j, rfl⟩ : ∃ j, i = a + j := ⟨i - a, by omega⟩
    by_cases h2 : j < l.length
    · rw [store_outside _ (by omega), store_inside _ _ _ h2,
        store_inside _ _ _ (by simp; omega), List.getElem_append_left h2]
    · obtain ⟨k, rfl⟩ : ∃ k, j = l.length + k := ⟨j - l.length, by omega⟩
      by_cases h3 : k < r.length
      · rw [← Nat.add_assoc, store_inside _ _ _ h3, Nat.add_assoc,
          store_inside _ _ _ (by simp; omega)]
        simp
      · rw [store_outside _ (by omega), store_outside _ (by omega),
          store_outside _ (by simp; omega)]

/-- Writing back what a block holds changes nothing. -/
@[simp] theorem store_load (b : Nat → α) (a n : Nat) :
    store b a (load b a n) = b := by
  funext i
  by_cases h : a ≤ i ∧ i < a + n
  · obtain ⟨j, rfl⟩ : ∃ j, i = a + j := ⟨i - a, by omega⟩
    rw [store_inside _ _ _ (by simp; omega), getElem_load]
  · exact store_outside b (by simp; omega)

/-! ## Byte order -/

/-- The low `k` bytes of `n`, most significant first. -/
def toBe : Nat → Nat → List UInt8
  | 0, _ => []
  | k + 1, n => UInt8.ofNat (n / 256 ^ k) :: toBe k n

/-- The number a byte list spells, most significant byte first. -/
def ofBe : List UInt8 → Nat
  | [] => 0
  | x :: l => x.toNat * 256 ^ l.length + ofBe l

/-- The low `k` bytes of `n`, least significant first. -/
def toLe (k n : Nat) : List UInt8 := (toBe k n).reverse

/-- The number a byte list spells, least significant byte first. -/
def ofLe (l : List UInt8) : Nat := ofBe l.reverse

@[simp] theorem length_toBe (k n : Nat) : (toBe k n).length = k := by
  induction k with
  | zero => rfl
  | succ k ih => rw [toBe, List.length_cons, ih]

@[simp] theorem length_toLe (k n : Nat) : (toLe k n).length = k := by
  rw [toLe, List.length_reverse, length_toBe]

/-- A byte list spells a number below the power of its length. -/
theorem ofBe_lt (l : List UInt8) : ofBe l < 256 ^ l.length := by
  induction l with
  | nil => decide
  | cons x l ih =>
      have hx : x.toNat + 1 ≤ 256 := x.toNat_lt
      calc ofBe (x :: l)
          = x.toNat * 256 ^ l.length + ofBe l := rfl
        _ < x.toNat * 256 ^ l.length + 256 ^ l.length := by omega
        _ = (x.toNat + 1) * 256 ^ l.length := by
            rw [Nat.add_mul, Nat.one_mul]
        _ ≤ 256 * 256 ^ l.length := Nat.mul_le_mul_right _ hx
        _ = 256 ^ (x :: l).length := by
            rw [List.length_cons, Nat.pow_succ, Nat.mul_comm]

/-- Reading back the written bytes gives the number modulo the width. -/
@[simp] theorem ofBe_toBe (k n : Nat) : ofBe (toBe k n) = n % 256 ^ k := by
  induction k with
  | zero => rw [toBe, ofBe, Nat.pow_zero, Nat.mod_one]
  | succ k ih =>
      rw [toBe, ofBe, ih, length_toBe, Nat.pow_succ, Nat.mod_mul,
        UInt8.toNat_ofNat']
      show n / 256 ^ k % 2 ^ 8 * 256 ^ k + n % 256 ^ k = _
      rw [Nat.mul_comm, Nat.add_comm]

/-- A byte list is the spelling of the number it spells. -/
@[simp] theorem toBe_ofBe (l : List UInt8) : toBe l.length (ofBe l) = l := by
  have key : ∀ (l : List UInt8) (m : Nat),
      toBe l.length (m * 256 ^ l.length + ofBe l) = l := by
    intro l
    induction l with
    | nil => intro m; rfl
    | cons x l ih =>
        intro m
        have hpow : m * 256 ^ (l.length + 1) + (x.toNat * 256 ^ l.length
            + ofBe l) = (m * 256 + x.toNat) * 256 ^ l.length + ofBe l := by
          rw [Nat.pow_succ, Nat.add_mul, Nat.mul_assoc,
            Nat.mul_comm (256 ^ l.length) 256, Nat.add_assoc]
        rw [ofBe, List.length_cons, toBe, hpow, ih]
        have hdiv : ((m * 256 + x.toNat) * 256 ^ l.length + ofBe l)
            / 256 ^ l.length = m * 256 + x.toNat := by
          rw [Nat.add_comm, Nat.add_mul_div_right _ _ (Nat.pow_pos (by omega)),
            Nat.div_eq_of_lt (ofBe_lt l), Nat.zero_add]
        rw [hdiv]
        refine congrArg (· :: l) (UInt8.toNat.inj ?_)
        have := x.toNat_lt
        simp
  simpa using key l 0

/-- A 32-bit number is spelled by four bytes. -/
theorem ofBe_toBe_four (n : Nat) : ofBe (toBe 4 n) = n % 2 ^ 32 := by
  rw [ofBe_toBe, show 256 ^ 4 = 2 ^ 32 from rfl]

/-- Two spellings of one width are equal exactly when the numbers agree modulo
    that width. -/
theorem toBe_inj (k m n : Nat) :
    toBe k m = toBe k n ↔ m % 256 ^ k = n % 256 ^ k := by
  constructor
  · intro h
    rw [← ofBe_toBe, h, ofBe_toBe]
  · intro h
    have hm := toBe_ofBe (toBe k m)
    have hn := toBe_ofBe (toBe k n)
    rw [length_toBe, ofBe_toBe] at hm hn
    rw [← hm, ← hn, h]

end ByteStore
