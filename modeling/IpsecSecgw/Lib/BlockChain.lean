import Mathlib.Data.List.Basic

/-! # Cipher block chaining

    Chaining a block cipher over a list of cells: every plain block is mixed
    with the cipher block before it, the first one with an initial vector.
    The cipher, the mixing operation and the block length are parameters; what
    the results need is that the cipher is undone block by block and that
    mixing twice cancels.

    The point of `cbcEnc_append_first` is that a receiver needs no initial
    vector of its own: enciphering one extra leading block and handing over
    its cipher block as vector gives the same chain. -/

namespace BlockChain

variable {α : Type}

/-- Mix two blocks cell by cell. -/
def mixBlock (mix : α → α → α) (x y : List α) : List α :=
  List.zipWith mix x y

/-- Encipher `k` blocks of `n` cells. -/
def cbcEnc (mix : α → α → α) (E : List α → List α) (n : Nat) :
    Nat → List α → List α → List α
  | 0, _, _ => []
  | k + 1, iv, l =>
      E (mixBlock mix iv (l.take n)) ++
        cbcEnc mix E n k (E (mixBlock mix iv (l.take n))) (l.drop n)

/-- Decipher `k` blocks of `n` cells. -/
def cbcDec (mix : α → α → α) (D : List α → List α) (n : Nat) :
    Nat → List α → List α → List α
  | 0, _, _ => []
  | k + 1, iv, l =>
      mixBlock mix iv (D (l.take n)) ++
        cbcDec mix D n k (l.take n) (l.drop n)

@[simp] theorem length_mixBlock (mix : α → α → α) (x y : List α) :
    (mixBlock mix x y).length = min x.length y.length :=
  List.length_zipWith

/-- Mixing twice with one block cancels. -/
theorem mixBlock_cancel {mix : α → α → α}
    (hmix : ∀ a b, mix a (mix a b) = b) {x y : List α}
    (hlen : x.length = y.length) : mixBlock mix x (mixBlock mix x y) = y := by
  refine List.ext_getElem (by simp; omega) ?_
  intro i h1 h2
  simp [mixBlock, hmix]

/-- A cipher on blocks of `n` cells and its inverse. -/
structure BlockCipher (α : Type) (n : Nat) where
  E : List α → List α
  D : List α → List α
  length_E : ∀ x, x.length = n → (E x).length = n
  D_E : ∀ x, x.length = n → D (E x) = x

variable {n : Nat}

theorem length_cbcEnc (mix : α → α → α) (B : BlockCipher α n) (k : Nat)
    (iv l : List α) (hiv : iv.length = n) (hl : l.length = k * n) :
    (cbcEnc mix B.E n k iv l).length = k * n := by
  induction k generalizing iv l with
  | zero => simp [cbcEnc]
  | succ k ih =>
      rw [Nat.add_mul, Nat.one_mul] at hl ⊢
      have hfirst : (B.E (mixBlock mix iv (l.take n))).length = n := by
        refine B.length_E _ ?_
        simp
        omega
      rw [cbcEnc, List.length_append, hfirst,
        ih _ _ hfirst (by simp; omega), Nat.add_comm]

/-- **CHAINING IS UNDONE**: deciphering with the same vector gives the plain
    blocks back. -/
theorem cbcDec_cbcEnc {mix : α → α → α} (hmix : ∀ a b, mix a (mix a b) = b)
    (B : BlockCipher α n) (k : Nat) (iv l : List α) (hiv : iv.length = n)
    (hl : l.length = k * n) :
    cbcDec mix B.D n k iv (cbcEnc mix B.E n k iv l) = l := by
  induction k generalizing iv l with
  | zero =>
      rw [Nat.zero_mul] at hl
      rw [List.length_eq_zero_iff.mp hl]
      rfl
  | succ k ih =>
      rw [Nat.add_mul, Nat.one_mul] at hl
      have hmixed : (mixBlock mix iv (l.take n)).length = n := by
        simp
        omega
      have hfirst := B.length_E _ hmixed
      have htake : ∀ r, (B.E (mixBlock mix iv (l.take n)) ++ r).take n
          = B.E (mixBlock mix iv (l.take n)) := by
        intro r
        exact List.take_left' hfirst
      have hdrop : ∀ r, (B.E (mixBlock mix iv (l.take n)) ++ r).drop n = r := by
        intro r
        exact List.drop_left' hfirst
      rw [cbcEnc, cbcDec, htake, hdrop, B.D_E _ hmixed,
        mixBlock_cancel hmix (by simp; omega),
        ih _ _ hfirst (by simp; omega), List.take_append_drop]

/-- **THE VECTOR ON THE WIRE**: chaining over a leading block is that block's
    cipher block, followed by the chain it starts. -/
theorem cbcEnc_append_first (mix : α → α → α) (B : BlockCipher α n) (k : Nat)
    (iv z l : List α) (hz : z.length = n) :
    cbcEnc mix B.E n (k + 1) iv (z ++ l)
      = B.E (mixBlock mix iv z)
        ++ cbcEnc mix B.E n k (B.E (mixBlock mix iv z)) l := by
  rw [cbcEnc, List.take_left' hz, List.drop_left' hz]

end BlockChain
