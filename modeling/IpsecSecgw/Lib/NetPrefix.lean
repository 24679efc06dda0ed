import Mathlib.Algebra.Group.Nat.Defs
import Mathlib.Data.List.Basic
import Mathlib.Data.Nat.Bitwise

/-! # Prefixes of addresses

    An address is a list of bytes in network order; bit 0 is the highest bit of
    the first byte.  A specification and a mask match the addresses that agree
    with the specification where the mask has ones.  They match exactly the
    addresses of a prefix when the ones of the mask are the bits of the prefix
    (`matches_prefix_iff`). -/

namespace NetPrefix

/-- Bit `i` of an address. -/
def netBit (bs : List UInt8) (i : Nat) : Bool :=
  (bs.getD (i / 8) 0).toNat.testBit (7 - i % 8)

/-- `x & m`, byte by byte. -/
def band (x m : List UInt8) : List UInt8 := List.zipWith (· &&& ·) x m

/-- `(x & mask) == (spec & mask)`. -/
def Matches (spec mask x : List UInt8) : Prop := band x mask = band spec mask

/-- The first `d` bits are the same. -/
def SharesPrefix (d : Nat) (a x : List UInt8) : Prop :=
  ∀ i, i < d → netBit x i = netBit a i

/-- The ones of a mask are its first `d` bits. -/
def IsPrefixMask (d : Nat) (mask : List UInt8) : Prop :=
  ∀ i, i < 8 * mask.length → netBit mask i = decide (i < d)

theorem SharesPrefix.symm {d : Nat} {a x : List UInt8} (h : SharesPrefix d a x) :
    SharesPrefix d x a := by
  intro i hi
  exact (h i hi).symm

theorem SharesPrefix.trans {d : Nat} {a b x : List UInt8} (h : SharesPrefix d a b)
    (h' : SharesPrefix d b x) : SharesPrefix d a x := by
  intro i hi
  exact (h' i hi).trans (h i hi)

/-! ## Bits -/

theorem netBit_eq {bs : List UInt8} {k : Nat} (h : k < bs.length) (j : Nat)
    (hj : j < 8) : netBit bs (8 * k + j) = bs[k].toNat.testBit (7 - j) := by
  have hdiv : (8 * k + j) / 8 = k := by omega
  have hmod : (8 * k + j) % 8 = j := by omega
  rw [netBit, hdiv, hmod, List.getD_eq_getElem?_getD, List.getElem?_eq_getElem h]
  rfl

/-- Addresses of one length with the same bits are the same. -/
theorem ext_netBit {a b : List UInt8} (hlen : a.length = b.length)
    (h : ∀ i, i < 8 * a.length → netBit a i = netBit b i) : a = b := by
  refine List.ext_getElem hlen ?_
  intro k ha hb
  refine UInt8.toNat.inj (Nat.eq_of_testBit_eq ?_)
  intro j
  by_cases hj : j < 8
  · have hbit := h (8 * k + (7 - j)) (by omega)
    rw [netBit_eq ha _ (by omega), netBit_eq hb _ (by omega)] at hbit
    rw [show 7 - (7 - j) = j by omega] at hbit
    exact hbit
  · have hlarge : ∀ x : UInt8, x.toNat.testBit j = false := by
      intro x
      refine Nat.testBit_lt_two_pow (Nat.lt_of_lt_of_le x.toNat_lt ?_)
      exact Nat.pow_le_pow_right (by omega) (by omega)
    rw [hlarge, hlarge]

@[simp] theorem length_band (x m : List UInt8) :
    (band x m).length = min x.length m.length := List.length_zipWith

theorem netBit_band {x m : List UInt8} (hlen : x.length = m.length) (i : Nat) :
    netBit (band x m) i = (netBit x i && netBit m i) := by
  by_cases hi : i / 8 < x.length
  · have hget : (band x m)[i / 8]? = some (x[i / 8] &&& m[i / 8]) := by
      rw [band, List.getElem?_zipWith, List.getElem?_eq_getElem hi,
        List.getElem?_eq_getElem (hlen ▸ hi)]
    rw [netBit, netBit, netBit, List.getD_eq_getElem?_getD, hget,
      List.getD_eq_getElem?_getD, List.getElem?_eq_getElem hi,
      List.getD_eq_getElem?_getD, List.getElem?_eq_getElem (hlen ▸ hi)]
    show (x[i / 8] &&& m[i / 8]).toNat.testBit _ = _
    rw [UInt8.toNat_and, Nat.testBit_land]
    rfl
  · have hx := List.getElem?_eq_none (Nat.le_of_not_lt hi)
    have hb : (band x m)[i / 8]? = none := by
      refine List.getElem?_eq_none ?_
      rw [length_band, ← hlen, Nat.min_self]
      exact Nat.le_of_not_lt hi
    rw [netBit, netBit, List.getD_eq_getElem?_getD, hb, List.getD_eq_getElem?_getD, hx]
    show Nat.testBit 0 _ = (Nat.testBit 0 _ && _)
    rw [Nat.zero_testBit, Bool.false_and]

/-- **MATCHING** is agreement where the mask has ones. -/
theorem matches_iff {spec mask x : List UInt8} (hspec : spec.length = mask.length)
    (hx : x.length = mask.length) :
    Matches spec mask x
      ↔ ∀ i, i < 8 * mask.length → netBit mask i = true → netBit x i = netBit spec i := by
  have hlen : (band x mask).length = mask.length := by
    rw [length_band, hx, Nat.min_self]
  constructor
  · intro h i _ hone
    have hbits : netBit (band x mask) i = netBit (band spec mask) i := by rw [h]
    rw [netBit_band hx, netBit_band hspec, hone, Bool.and_true, Bool.and_true] at hbits
    exact hbits
  · intro h
    refine ext_netBit ?_ ?_
    · rw [hlen, length_band, hspec, Nat.min_self]
    · intro i hi
      rw [hlen] at hi
      rw [netBit_band hx, netBit_band hspec]
      cases hone : netBit mask i with
      | false => rw [Bool.and_false, Bool.and_false]
      | true => rw [h i hi hone]

/-! ## One bit changed -/

/-- The address with bit `i` changed. -/
def flipBit (bs : List UInt8) (i : Nat) : List UInt8 :=
  bs.modify (i / 8) fun b => b ^^^ UInt8.ofNat (2 ^ (7 - i % 8))

@[simp] theorem length_flipBit (bs : List UInt8) (i : Nat) :
    (flipBit bs i).length = bs.length := List.length_modify ..

theorem testBit_flip (b : UInt8) {j k : Nat} (hj : j < 8) :
    (b ^^^ UInt8.ofNat (2 ^ j)).toNat.testBit k = (b.toNat.testBit k ^^ decide (j = k)) := by
  have hlt : 2 ^ j < 2 ^ 8 := Nat.pow_lt_pow_right (by omega) hj
  rw [UInt8.toNat_xor, UInt8.toNat_ofNat', Nat.mod_eq_of_lt hlt, Nat.testBit_xor,
    Nat.testBit_two_pow]

theorem testBit_clear (b : UInt8) {j k : Nat} (hj : j < 8) (hk : k < 8) :
    (b &&& ~~~UInt8.ofNat (2 ^ j)).toNat.testBit k = (b.toNat.testBit k && !decide (j = k)) := by
  have hlt : 2 ^ j < 2 ^ 8 := Nat.pow_lt_pow_right (by omega) hj
  have hnot : (~~~UInt8.ofNat (2 ^ j)).toNat = 2 ^ 8 - (2 ^ j + 1) := by
    rw [UInt8.toNat_not, UInt8.toNat_ofNat', Nat.mod_eq_of_lt hlt]
    show 2 ^ 8 - 1 - 2 ^ j = _
    omega
  rw [UInt8.toNat_and, Nat.testBit_land, hnot, Nat.testBit_two_pow_sub_succ hlt,
    Nat.testBit_two_pow, decide_eq_true hk, Bool.true_and]

theorem netBit_flipBit {bs : List UInt8} {i : Nat} (hi : i < 8 * bs.length) (k : Nat) :
    netBit (flipBit bs i) k = (netBit bs k ^^ decide (i = k)) := by
  rw [netBit, netBit, flipBit, List.getD_eq_getElem?_getD, List.getElem?_modify,
    List.getD_eq_getElem?_getD]
  by_cases hbyte : i / 8 = k / 8
  · have hk : k / 8 < bs.length := by omega
    rw [List.getElem?_eq_getElem hk, Option.map_eq_map, Option.map_some, if_pos hbyte,
      Option.getD_some, testBit_flip _ (by omega)]
    have hsame : (7 - i % 8 = 7 - k % 8) ↔ i = k := by omega
    rw [decide_eq_decide.mpr hsame]
    rfl
  · have hne : i ≠ k := fun h => hbyte (by rw [h])
    rw [decide_eq_false hne, Bool.xor_false]
    cases bs[k / 8]? with
    | none => rfl
    | some b => rw [Option.map_eq_map, Option.map_some, if_neg hbyte]

/-- **EXACT PREFIXES**: what is matched is the prefix of the specification when
    the mask is the mask of the prefix, and only then. -/
theorem matches_prefix_iff {spec mask : List UInt8} {d : Nat}
    (hspec : spec.length = mask.length) (hd : d ≤ 8 * mask.length) :
    (∀ x, x.length = spec.length → (Matches spec mask x ↔ SharesPrefix d spec x))
      ↔ IsPrefixMask d mask := by
  constructor
  · intro h i hi
    -- the specification itself, but for bit `i`
    have hflip := h (flipBit spec i) (length_flipBit spec i)
    rw [matches_iff hspec ((length_flipBit spec i).trans hspec)] at hflip
    have hbit : ∀ k, netBit (flipBit spec i) k = (netBit spec k ^^ decide (i = k)) :=
      netBit_flipBit (hspec ▸ hi)
    have hself : netBit (flipBit spec i) i ≠ netBit spec i := by
      rw [hbit, decide_eq_true rfl]
      cases netBit spec i <;> decide
    have hother : ∀ k, k ≠ i → netBit (flipBit spec i) k = netBit spec k := by
      intro k hk
      rw [hbit, decide_eq_false (Ne.symm hk), Bool.xor_false]
    by_cases hid : i < d
    · rw [decide_eq_true hid]
      by_contra hone
      refine hself (hflip.mp ?_ i hid)
      intro k _ hk
      refine hother k ?_
      rintro rfl
      exact hone hk
    · rw [decide_eq_false hid]
      by_contra hone
      refine hself (hflip.mpr ?_ i hi (by simpa using hone))
      intro k hk
      refine hother k ?_
      rintro rfl
      exact hid hk
  · intro h x hx
    rw [matches_iff hspec (hx.trans hspec)]
    constructor
    · intro hall i hi
      exact hall i (Nat.lt_of_lt_of_le hi hd) (by
        rw [h i (Nat.lt_of_lt_of_le hi hd)]
        exact decide_eq_true hi)
    · intro hpre i hi hone
      rw [h i hi] at hone
      exact hpre i (of_decide_eq_true hone)

/-- The length of a prefix can be told from its addresses. -/
theorem le_of_samePrefix {a b : List UInt8} {d e : Nat} (he : e ≤ 8 * a.length)
    (h : ∀ x, x.length = a.length → (SharesPrefix d a x ↔ SharesPrefix e b x)) :
    e ≤ d := by
  by_contra hlt
  have hd : d < 8 * a.length := by omega
  -- the address itself, but for the first bit behind its prefix
  have hflip : SharesPrefix d a (flipBit a d) := by
    intro i hi
    rw [netBit_flipBit hd, decide_eq_false (by omega), Bool.xor_false]
  have hself := (h a rfl).mp fun _ _ => rfl
  have hother := (h _ (length_flipBit a d)).mp hflip
  have hbit := (hself d (by omega)).trans (hother d (by omega)).symm
  rw [netBit_flipBit hd, decide_eq_true rfl] at hbit
  cases hval : netBit a d with
  | true =>
      rw [hval] at hbit
      cases hbit
  | false =>
      rw [hval] at hbit
      cases hbit

end NetPrefix
