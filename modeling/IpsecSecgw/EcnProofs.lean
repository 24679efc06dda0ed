import IpsecSecgw.ChecksumProofs

/-! # Decapsulation and congestion

    `ipip_inbound` copies a congestion mark of the outer header to an inner
    header that can carry it, and lowers the TTL.  The bytes come out as they
    should for all four pairs of families; the checksum of a marked IPv4 header
    does not (`ip4EcnSetup_sum`), and the outer header is taken off as if it had
    no options. -/

namespace Ecn

open ByteStore SaModel MbufModel Ipip OnesSum Checksum

/-! ## Traffic classes -/

/-- The TOS byte or the traffic class of the header at `a`. -/
def tclass (b : Nat → UInt8) (a : Nat) : Nat :=
  if ipV b a = 4 then (b (a + 1)).toNat
  else (b a).toNat % 16 * 16 + (b (a + 1)).toNat / 16

/-- The code point of differentiated services. -/
def dscp (b : Nat → UInt8) (a : Nat) : Nat := tclass b a / 4

/-- The congestion field: 0 is Not-ECT, 3 is CE. -/
def ecn (b : Nat → UInt8) (a : Nat) : Nat := tclass b a % 4

theorem and_three_toNat (x : UInt8) : (x &&& 3).toNat = x.toNat % 4 := by
  rw [UInt8.toNat_and]
  exact and_three x.toNat

/-- `ntohl(ip6_flow)` by its bytes. -/
theorem flow_eq (b : Nat → UInt8) (a : Nat) :
    ofBe (load b a 4) = ((b a).toNat * 2 ^ 8 + (b (a + 1)).toNat) * 2 ^ 16
      + ((b (a + 2)).toNat * 2 ^ 8 + (b (a + 3)).toNat) := by
  have h2 : a + 1 + 1 = a + 2 := rfl
  have h3 : a + 2 + 1 = a + 3 := rfl
  rw [load_succ, load_succ, load_succ, load_succ, load_zero, h2, h3]
  simp [ofBe]
  omega

theorem flowClass_mod (b : Nat → UInt8) (a : Nat) :
    flowClass b a &&& 3 = (b (a + 1)).toNat / 16 % 4 := by
  have h1 := (b (a + 1)).toNat_lt
  have h2 := (b (a + 2)).toNat_lt
  have h3 := (b (a + 3)).toNat_lt
  rw [and_three, flowClass, flow_eq, Nat.shiftRight_eq_div_pow]
  omega

/-- The code tests the congestion field. -/
theorem outerCe_iff (b : Nat → UInt8) (a : Nat) :
    outerCe b a = true ↔ ecn b a = 3 := by
  rw [outerCe, ecn, tclass]
  by_cases hv : ipV b a = 4
  · rw [if_pos hv, if_pos hv, beq_iff_eq, ← and_three_toNat]
    exact ⟨fun h => congrArg UInt8.toNat h, fun h => UInt8.toNat.inj h⟩
  · rw [if_neg hv, if_neg hv, beq_iff_eq, flowClass_mod]
    omega

/-! ## Marking -/

/-- Marking an IPv4 header writes the TOS byte and the checksum. -/
theorem ip4EcnSetup_other (b : Nat → UInt8) {a i : Nat}
    (h : i ≠ a + 1 ∧ i ≠ a + 10 ∧ i ≠ a + 11) : ip4EcnSetup b a i = b i := by
  rw [ip4EcnSetup]
  split
  · rw [store_outside _ (by simp; omega), store_outside _ (by simp; omega)]
  · rfl

theorem ip4EcnSetup_tos {b : Nat → UInt8} {a : Nat} (h : b (a + 1) &&& 3 ≠ 0) :
    ip4EcnSetup b a (a + 1) = b (a + 1) ||| 3 := by
  rw [ip4EcnSetup, if_pos h, store_outside _ (by simp)]
  exact store_inside b (a + 1) [b (a + 1) ||| 3] (i := 0) (by simp)

/-- Two carries are enough for a sum of a word and two bytes. -/
theorem carry_twice {s t : Nat} (hs : s < 0x1fffe)
    (ht : t = s % 0x10000 + s / 0x10000) :
    (t + t / 0x10000) % 0x10000 % ones16 = s % ones16 := by
  rw [ones16]
  by_cases hbig : s < 0x10000
  · have hsame : t = s := by omega
    omega
  · have hless : t = s - 0xffff := by omega
    omega

/-- The complement of a byte is taken in eight bits. -/
theorem ip4EcnSetup_checksum {b : Nat → UInt8} {a : Nat}
    (h : b (a + 1) &&& 3 ≠ 0) :
    (word (ip4EcnSetup b a) (a + 10) + (b (a + 1) ||| 3).toNat) % ones16
      = (word b (a + 10) + (b (a + 1)).toNat + 0xff) % ones16 := by
  have hnot : (~~~(b (a + 1) ||| 3)).toNat = 0xff - (b (a + 1) ||| 3).toNat := by
    rw [UInt8.toNat_not]
    rfl
  have hnew := (b (a + 1) ||| 3).toNat_lt
  have hold := (b (a + 1)).toNat_lt
  have hhi := (b (a + 10)).toNat_lt
  have hlo := (b (a + 11)).toNat_lt
  have hsum : word b (a + 10) = (b (a + 10)).toNat * 0x100 + (b (a + 11)).toNat := rfl
  have hsame : store b (a + 1) [b (a + 1) ||| 3] (a + 1) = b (a + 1) ||| 3 :=
    store_inside b (a + 1) [b (a + 1) ||| 3] (i := 0) (by simp)
  rw [ip4EcnSetup, if_pos h]
  dsimp only
  rw [word_storeBe, hsame, hnot, load_store_of_disjoint _ (by simp), word_ofBe]
  generalize (b (a + 1) ||| 3).toNat = new at hnew
  generalize (b (a + 1)).toNat = old at hold
  generalize word b (a + 10) = c at hsum
  have hcarry := carry_twice (s := old + (0xff - new) + c) (by omega) rfl
  rw [Nat.add_mod, hcarry, ← Nat.add_mod]
  congr 1
  omega

/-- **MARKING** an IPv4 header makes its sum `0xff` too large. -/
theorem ip4EcnSetup_sum {b : Nat → UInt8} {a : Nat} (h : Ipv4Header b a)
    (hecn : b (a + 1) &&& 3 ≠ 0) :
    wordSum (ip4EcnSetup b a) a (2 * ipHl (ip4EcnSetup b a) a) % ones16
      = (wordSum b a (2 * ipHl b a) + 0xff) % ones16 := by
  have hfirst : ip4EcnSetup b a a = b a := ip4EcnSetup_other b (by omega)
  have hsame : ∀ c n, (∀ i, c ≤ i → i < c + 2 * n → i ≠ a + 1 ∧ i ≠ a + 10
      ∧ i ≠ a + 11) → wordSum (ip4EcnSetup b a) c n = wordSum b c n :=
    fun c n hc => wordSum_congr fun i hlo hhi => ip4EcnSetup_other b (hc i hlo hhi)
  have httl : word (ip4EcnSetup b a) (a + 8) = word b (a + 8) :=
    word_congr (ip4EcnSetup_other b (by omega)) (ip4EcnSetup_other b (by omega))
  have hlen : ipHl (ip4EcnSetup b a) a = ipHl b a := by rw [ipHl, ipHl, hfirst]
  have hsum := ip4EcnSetup_checksum hecn
  have hword : word (ip4EcnSetup b a) a + (b (a + 1)).toNat
      = word b a + (b (a + 1) ||| 3).toNat := by
    rw [word, word, hfirst, ip4EcnSetup_tos hecn]
    omega
  rw [headerSum_split _ (h.congr hfirst).ihl, headerSum_split b h.ihl, hlen, httl,
    hsame (a + 2) 3 (by omega), hsame (a + 12) _ (by omega)]
  rw [ones16] at hsum ⊢
  generalize wordSum b (a + 2) 3 = front
  generalize wordSum b (a + 12) (2 * ipHl b a - 6) = rest
  omega

/-- Bits are set in the low part of a number. -/
theorem or_low {x y k : Nat} (hy : y < 2 ^ k) :
    x ||| y = x / 2 ^ k * 2 ^ k + (x % 2 ^ k ||| y) := by
  have h := Nat.div_add_mod (x ||| y) (2 ^ k)
  rw [Nat.or_div_two_pow, Nat.or_mod_two_pow, Nat.div_eq_of_lt hy,
    Nat.mod_eq_of_lt hy, Nat.or_zero, Nat.mul_comm] at h
  exact h.symm

/-- Bits are set in the high part of a number. -/
theorem or_high (x y k : Nat) :
    x ||| y * 2 ^ k = (x / 2 ^ k ||| y) * 2 ^ k + x % 2 ^ k := by
  have h := Nat.div_add_mod (x ||| y * 2 ^ k) (2 ^ k)
  rw [Nat.or_div_two_pow, Nat.or_mod_two_pow,
    Nat.mul_div_cancel _ (Nat.two_pow_pos k), Nat.mul_mod_left, Nat.or_zero,
    Nat.mul_comm] at h
  exact h.symm

/-- High and low part of a number. -/
theorem parts {x y k : Nat} (h : y < k) : (x * k + y) / k = x ∧ (x * k + y) % k = y := by
  constructor
  · rw [Nat.add_comm, Nat.add_mul_div_right _ _ (Nat.zero_lt_of_lt h),
      Nat.div_eq_of_lt h, Nat.zero_add]
  · rw [Nat.mul_add_mod', Nat.mod_eq_of_lt h]

/-- The two bits in a number of four bytes. -/
theorem or_mark {x0 x1 low : Nat} (h1 : x1 < 2 ^ 8) (hlow : low < 2 ^ 16) :
    (x0 * 2 ^ 8 + x1) * 2 ^ 16 + low ||| 3 <<< 20
      = (x0 * 2 ^ 8 + (x1 ||| 0x30)) * 2 ^ 16 + low := by
  have hmask : 3 <<< 20 = 0x30 * 2 ^ 16 := by decide
  obtain ⟨hdiv, hmod⟩ := parts (x := x0 * 2 ^ 8 + x1) hlow
  obtain ⟨hhigh, hrest⟩ := parts (x := x0) h1
  rw [hmask, or_high, hdiv, hmod, or_low (show 0x30 < 2 ^ 8 by decide), hhigh, hrest]

/-- Marking an IPv6 header sets two bits of its second byte. -/
theorem ip6EcnSetup_eq {b : Nat → UInt8} {a : Nat} (h : flowClass b a &&& 3 ≠ 0) :
    ip6EcnSetup b a = store b (a + 1) [b (a + 1) ||| 0x30] := by
  have h1 := (b (a + 1)).toNat_lt
  have h2 := (b (a + 2)).toNat_lt
  have h3 := (b (a + 3)).toNat_lt
  have hor : (b (a + 1) ||| 0x30).toNat = (b (a + 1)).toNat ||| 0x30 :=
    UInt8.toNat_or _ _
  -- the four bytes as one number, with the two bits set
  have hflow : ofBe (load b a 4) ||| 3 <<< 20
      = ofBe [b a, b (a + 1) ||| 0x30, b (a + 2), b (a + 3)] := by
    have hlow : (b (a + 2)).toNat * 2 ^ 8 + (b (a + 3)).toNat < 2 ^ 16 := by omega
    rw [flow_eq, or_mark h1 hlow, ← hor]
    simp [ofBe]
    omega
  have hbytes := toBe_ofBe [b a, b (a + 1) ||| 0x30, b (a + 2), b (a + 3)]
  have hbytes : toBe 4 (ofBe [b a, b (a + 1) ||| 0x30, b (a + 2), b (a + 3)]) = _ :=
    hbytes
  rw [ip6EcnSetup, if_pos h, hflow, hbytes]
  -- three of the four bytes are what they were
  have hload : [b a, b (a + 1) ||| 0x30, b (a + 2), b (a + 3)]
      = load (store b (a + 1) [b (a + 1) ||| 0x30]) a 4 := by
    have hin : store b (a + 1) [b (a + 1) ||| 0x30] (a + 1) = b (a + 1) ||| 0x30 :=
      store_inside b (a + 1) [b (a + 1) ||| 0x30] (i := 0) (by simp)
    rw [load_succ, load_succ, load_succ, load_succ, load_zero, hin,
      store_outside _ (by simp), store_outside _ (by simp), store_outside _ (by simp)]
  rw [hload]
  funext i
  by_cases hi : a ≤ i ∧ i < a + 4
  · obtain ⟨j, rfl⟩ : ∃ j, i = a + j := ⟨i - a, by omega⟩
    rw [store_inside _ _ _ (by simp; omega), getElem_load]
  · rw [store_outside _ (by simp; omega), store_outside _ (by simp; omega)]

/-- The buffer with the mark of the outer header copied, if there is one. -/
def mark (b : Nat → UInt8) (a : Nat) (ce : Bool) : Nat → UInt8 :=
  if ce then if ipV b a = 4 then ip4EcnSetup b a else ip6EcnSetup b a else b

/-- The congestion field a marked header has. -/
def markedEcn (b : Nat → UInt8) (a : Nat) (ce : Bool) : Nat :=
  if ce = true ∧ ecn b a ≠ 0 then 3 else ecn b a

/-- What marking does to a header: the congestion field is set, at the cost of
    the checksum for IPv4. -/
structure Marked (b b' : Nat → UInt8) (a : Nat) (ce : Bool) : Prop where
  first : b' a = b a
  dscp : dscp b' a = dscp b a
  ecn : ecn b' a = markedEcn b a ce
  label : ipV b a ≠ 4 → (b' (a + 1)).toNat % 16 = (b (a + 1)).toNat % 16
  others : ∀ i, i ≠ a + 1 → (ipV b a = 4 → i ≠ a + 10 ∧ i ≠ a + 11) → b' i = b i

/-- Nothing is marked. -/
theorem Marked.refl {b : Nat → UInt8} {a : Nat} {ce : Bool}
    (h : ¬ (ce = true ∧ Ecn.ecn b a ≠ 0)) : Marked b b a ce := by
  refine ⟨rfl, rfl, ?_, fun _ => rfl, fun _ _ _ => rfl⟩
  rw [markedEcn, if_neg h]

/-- Two low bits of a byte. -/
theorem or_three (x : UInt8) : (x ||| 3).toNat / 4 = x.toNat / 4
    ∧ (x ||| 3).toNat % 4 = 3 := by
  have hall : ∀ n, n < 256 → (n ||| 3) / 4 = n / 4 ∧ (n ||| 3) % 4 = 3 := by
    decide +kernel
  rw [UInt8.toNat_or]
  exact hall x.toNat x.toNat_lt

/-- Two bits in the middle of a byte. -/
theorem or_thirty (x : UInt8) : (x ||| 0x30).toNat / 16 / 4 = x.toNat / 16 / 4
    ∧ (x ||| 0x30).toNat / 16 % 4 = 3
    ∧ (x ||| 0x30).toNat % 16 = x.toNat % 16 := by
  have hall : ∀ n, n < 256 → (n ||| 0x30) / 16 / 4 = n / 16 / 4
      ∧ (n ||| 0x30) / 16 % 4 = 3 ∧ (n ||| 0x30) % 16 = n % 16 := by decide +kernel
  rw [UInt8.toNat_or]
  exact hall x.toNat x.toNat_lt

/-- The congestion field of a traffic class is in its low half. -/
theorem class_parts (x y : Nat) :
    (x * 16 + y) / 4 = x * 4 + y / 4 ∧ (x * 16 + y) % 4 = y % 4 := by
  omega

/-- The test of `ip4_ecn_setup`. -/
theorem ecn_ip4_eq_zero_iff {b : Nat → UInt8} {a : Nat} (hv : ipV b a = 4) :
    ecn b a = 0 ↔ b (a + 1) &&& 3 = 0 := by
  rw [ecn, tclass, if_pos hv, ← and_three_toNat]
  exact ⟨fun h => UInt8.toNat.inj h, fun h => by rw [h]; rfl⟩

/-- The test of `ip6_ecn_setup`. -/
theorem ecn_ip6_eq_zero_iff {b : Nat → UInt8} {a : Nat} (hv : ipV b a ≠ 4) :
    ecn b a = 0 ↔ flowClass b a &&& 3 = 0 := by
  rw [flowClass_mod, ecn, tclass, if_neg hv]
  omega

/-- **IPv4 MARKING**: the last two bits of the type of service. -/
theorem ip4EcnSetup_marked {b : Nat → UInt8} {a : Nat} (hv : ipV b a = 4) :
    Marked b (ip4EcnSetup b a) a true := by
  by_cases hecn : b (a + 1) &&& 3 = 0
  · rw [ip4EcnSetup, if_neg (not_not.mpr hecn)]
    exact Marked.refl fun h => h.2 ((ecn_ip4_eq_zero_iff hv).mpr hecn)
  · have hsome : ecn b a ≠ 0 := (ecn_ip4_eq_zero_iff hv).not.mpr hecn
    have hfirst : ip4EcnSetup b a a = b a := ip4EcnSetup_other b (by omega)
    have hv' : ipV (ip4EcnSetup b a) a = 4 := by
      rw [ipV, hfirst]
      exact hv
    obtain ⟨hhigh, hlow⟩ := or_three (b (a + 1))
    refine ⟨hfirst, ?_, ?_, fun hne => absurd hv hne, ?_⟩
    · rw [dscp, dscp, tclass, tclass, if_pos hv, if_pos hv', ip4EcnSetup_tos hecn]
      exact hhigh
    · rw [markedEcn, if_pos ⟨rfl, hsome⟩, ecn, tclass, if_pos hv',
        ip4EcnSetup_tos hecn]
      exact hlow
    · intro i hi hsum
      exact ip4EcnSetup_other b ⟨hi, hsum hv⟩

/-- **IPv6 MARKING**: two bits in the middle of the second byte. -/
theorem ip6EcnSetup_marked {b : Nat → UInt8} {a : Nat} (hv : ipV b a ≠ 4) :
    Marked b (ip6EcnSetup b a) a true := by
  by_cases hecn : flowClass b a &&& 3 = 0
  · rw [ip6EcnSetup, if_neg (not_not.mpr hecn)]
    exact Marked.refl fun h => h.2 ((ecn_ip6_eq_zero_iff hv).mpr hecn)
  · have hsome : ecn b a ≠ 0 := (ecn_ip6_eq_zero_iff hv).not.mpr hecn
    have hsecond : store b (a + 1) [b (a + 1) ||| 0x30] (a + 1)
        = b (a + 1) ||| 0x30 :=
      store_inside b (a + 1) [b (a + 1) ||| 0x30] (i := 0) (by simp)
    have hother : ∀ i, i ≠ a + 1 →
        store b (a + 1) [b (a + 1) ||| 0x30] i = b i :=
      fun i hi => store_outside _ (by simp; omega)
    have hfirst := hother a (by omega)
    obtain ⟨hhigh, hlow, hlabel⟩ := or_thirty (b (a + 1))
    rw [ip6EcnSetup_eq hecn]
    generalize store b (a + 1) [b (a + 1) ||| 0x30] = b' at hsecond hother hfirst
    have hv' : ipV b' a ≠ 4 := by
      rw [ipV, hfirst]
      exact hv
    refine ⟨hfirst, ?_, ?_, ?_, fun i hi _ => hother i hi⟩
    · rw [dscp, dscp, tclass, tclass, if_neg hv, if_neg hv', hfirst, hsecond,
        (class_parts _ _).1, (class_parts _ _).1, hhigh]
    · rw [markedEcn, if_pos ⟨rfl, hsome⟩, ecn, tclass, if_neg hv', hsecond,
        (class_parts _ _).2, hlow]
    · intro _
      rw [hsecond]
      exact hlabel

/-- **MARKING** sets the congestion field as it should be. -/
theorem mark_marked (b : Nat → UInt8) (a : Nat) (ce : Bool) :
    Marked b (mark b a ce) a ce := by
  rw [mark]
  cases ce with
  | false => exact Marked.refl fun h => Bool.false_ne_true h.1
  | true =>
      rw [if_pos rfl]
      by_cases hv : ipV b a = 4
      · rw [if_pos hv]
        exact ip4EcnSetup_marked hv
      · rw [if_neg hv]
        exact ip6EcnSetup_marked hv

/-! ## Decapsulation -/

/-- The inner packet of `n` bytes at `a` as it should come out: marked when the
    outer header (`ce`) and the inner one say so, and one hop further. -/
structure InnerRight (b b' : Nat → UInt8) (a n : Nat) (ce : Bool) : Prop where
  dscp : dscp b' a = dscp b a
  ecn : ecn b' a = markedEcn b a ce
  hops : hops b' a + 1 = hops b a
  correct : ipV b a = 4 → HeaderOk b' a
  label : ipV b a ≠ 4 → (b' (a + 1)).toNat % 16 = (b (a + 1)).toNat % 16
  others : ∀ i, a ≤ i → i < a + n → i ≠ a + 1 → ¬ HopField b a i → b' i = b i

/-- The inner packet as the code leaves it. -/
def innerBuf (b : Nat → UInt8) (a : Nat) (ce : Bool) : Nat → UInt8 :=
  (ageInner (mark b a ce) a).1

/-- Ageing leaves what is not its own. -/
theorem ageInner_other {b : Nat → UInt8} {a i : Nat} (h : ¬ HopField b a i) :
    (ageInner b a).1 i = b i := by
  rw [HopField] at h
  rw [ageInner]
  by_cases hv : ipV b a = 4
  · rw [if_pos hv, not_or, not_or] at h
    rw [if_pos hv]
    dsimp only
    exact decTtl_other b h
  · rw [if_neg hv] at h
    rw [if_neg hv]
    dsimp only
    exact decHops_other b h

/-- Ageing lowers the hops. -/
theorem ageInner_hops {b : Nat → UInt8} {a : Nat} (h : 0 < hops b a) :
    hops (ageInner b a).1 a + 1 = hops b a := by
  have hfirst : (ageInner b a).1 a = b a := by
    refine ageInner_other ?_
    rw [HopField]
    split <;> omega
  have hv' : ipV (ageInner b a).1 a = ipV b a := by rw [ipV, ipV, hfirst]
  rw [hops] at h ⊢
  rw [hops, hv']
  by_cases hv : ipV b a = 4
  · rw [if_pos hv] at h
    rw [if_pos hv, if_pos hv, ageInner, if_pos hv]
    dsimp only
    rw [decTtl_ttl]
    exact (pred_iff _).mpr h
  · rw [if_neg hv] at h
    rw [if_neg hv, if_neg hv, ageInner, if_neg hv]
    dsimp only
    rw [decHops_hops]
    exact (pred_iff _).mpr h

/-- **THE INNER PACKET** comes out right unless an IPv4 header is marked. -/
theorem innerBuf_right_iff {b : Nat → UInt8} {a n : Nat} (ce : Bool)
    (h : IpPacket b a n) (hpos : 0 < hops b a) :
    InnerRight b (innerBuf b a ce) a n ce
      ↔ ¬ (ce = true ∧ ipV b a = 4 ∧ ecn b a ≠ 0) := by
  have hm := mark_marked b a ce
  have hv : ipV (mark b a ce) a = ipV b a := by rw [ipV, ipV, hm.first]
  have hfield : ∀ i, HopField (mark b a ce) a i ↔ HopField b a i := by
    intro i
    rw [HopField, HopField, hv]
  have hhead : ∀ i, i = a ∨ i = a + 1 → innerBuf b a ce i = mark b a ce i := by
    intro i hi
    refine ageInner_other ?_
    rw [HopField]
    split <;> omega
  have hclass : tclass (innerBuf b a ce) a = tclass (mark b a ce) a := by
    rw [tclass, tclass, ipV, ipV, hhead a (.inl rfl), hhead (a + 1) (.inr rfl)]
  have hhops : hops (mark b a ce) a = hops b a := by
    rw [hops, hops, hv, hm.others (a + 8) (by omega) (fun _ => by omega)]
    split
    · rfl
    · rename_i hne
      rw [hm.others (a + 7) (by omega) fun hv4 => absurd hv4 hne]
  constructor
  · rintro hr ⟨hce, hv4, hecn⟩
    obtain ⟨hihl, -, hok⟩ := h.v4 hv4
    have hhdr : Ipv4Header b a := ⟨hv4, hihl⟩
    have hset : b (a + 1) &&& 3 ≠ 0 := (ecn_ip4_eq_zero_iff hv4).not.mp hecn
    have hmark : mark b a ce = ip4EcnSetup b a := by rw [mark, if_pos hce, if_pos hv4]
    have hout : innerBuf b a ce = decTtl (ip4EcnSetup b a) a := by
      rw [innerBuf, ageInner, if_pos (hv.trans hv4), hmark]
    have hfirst := hm.first
    rw [hmark] at hfirst hhops hv
    have hhdr' := hhdr.congr hfirst
    have hhdr'' : Ipv4Header (decTtl (ip4EcnSetup b a) a) a :=
      hhdr'.congr (decTtl_other _ (by omega))
    have hbad := hr.correct hv4
    have hgood := (headerOk_iff hhdr).mp hok
    -- the sum is 0xff too large, and stays so
    rw [hops, if_pos (hv.trans hv4)] at hhops
    rw [hout, headerOk_iff hhdr'', decTtl_sum hhdr', if_neg] at hbad
    · rw [Nat.add_zero, ip4EcnSetup_sum hhdr hset, Nat.add_mod, hgood] at hbad
      exact absurd hbad (by decide)
    · omega
  · intro hnot
    refine ⟨?_, ?_, ?_, ?_, ?_, ?_⟩
    · rw [dscp, hclass]
      exact hm.dscp
    · rw [ecn, hclass]
      exact hm.ecn
    · rw [← hhops]
      refine ageInner_hops ?_
      rw [hhops]
      exact hpos
    · intro hv4
      have hsame : mark b a ce = b := by
        rw [mark, if_pos hv4]
        split
        · rename_i hce
          have hzero : ecn b a = 0 := by
            by_contra hne
            exact hnot ⟨hce, hv4, hne⟩
          rw [ip4EcnSetup, if_neg]
          exact not_not.mpr ((ecn_ip4_eq_zero_iff hv4).mp hzero)
        · rfl
      rw [innerBuf, hsame]
      exact ((ageInner_oneHop_iff h).mpr hpos).correct hv4
    · intro hne
      rw [hhead (a + 1) (.inr rfl)]
      exact hm.label hne
    · intro i _ _ hi hhop
      rw [innerBuf, ageInner_other ((hfield i).not.mpr hhop)]
      refine hm.others i hi ?_
      intro hv4
      rw [HopField, if_pos hv4, not_or, not_or] at hhop
      exact hhop.2

/-! ## The whole packet -/

/-- The outer headers of the packet at `a` take `hdr` bytes: with the options of
    an IPv4 header, with the extension headers after an IPv6 one. -/
def OuterLen (b : Nat → UInt8) (a hdr : Nat) : Prop :=
  if ipV b a = 4 then 5 ≤ ipHl b a ∧ hdr = ipHl b a * 4 else 40 ≤ hdr

/-- A packet from a tunnel: outer headers of `hdr` bytes, `offset` bytes of ESP
    header and IV, and an inner packet of `n` bytes with hops left. -/
structure TunnelPacket (m : Mbuf) (hdr offset n : Nat) : Prop where
  outer : OuterLen m.buf m.dataOff hdr
  len : m.dataLen = hdr + offset + n
  inner : IpPacket m.buf (m.dataOff + (hdr + offset)) n
  hops : 0 < hops m.buf (m.dataOff + (hdr + offset))

/-- The inner packet is the data of the packet, as it should come out. -/
structure Decapsulated (m m' : Mbuf) (hdr offset n : Nat) : Prop where
  off : m'.dataOff = m.dataOff + (hdr + offset)
  len : m'.dataLen = n
  right : InnerRight m.buf m'.buf (m.dataOff + (hdr + offset)) n
    (decide (ecn m.buf m.dataOff = 3))

/-- The code takes off an outer header of fixed length. -/
def ipLen (m : Mbuf) : Nat := if ipV m.buf m.dataOff = 4 then 20 else 40

theorem ipLen_le {m : Mbuf} {hdr : Nat} (h : OuterLen m.buf m.dataOff hdr) :
    ipLen m ≤ hdr := by
  rw [OuterLen] at h
  rw [ipLen]
  by_cases hv : ipV m.buf m.dataOff = 4
  · rw [if_pos hv] at h ⊢
    omega
  · rw [if_neg hv] at h ⊢
    exact h

theorem outerCe_eq (b : Nat → UInt8) (a : Nat) : outerCe b a = decide (ecn b a = 3) := by
  rw [Bool.eq_iff_iff, outerCe_iff, decide_eq_true_iff]

/-- `ipip_inbound` on a packet from a tunnel. -/
theorem ipipInbound_eq {m : Mbuf} {hdr offset n : Nat} (h : TunnelPacket m hdr offset n) :
    ∃ m', ipipInbound m offset = some m'
      ∧ m'.dataOff = m.dataOff + (offset + ipLen m)
      ∧ m'.dataLen = m.dataLen - (offset + ipLen m)
      ∧ m'.buf = innerBuf m.buf (m.dataOff + (offset + ipLen m))
          (decide (ecn m.buf m.dataOff = 3)) := by
  have hle := ipLen_le h.outer
  have hlen := h.len
  have hroom := m.window
  have hbuf := m.bufLen_le
  obtain ⟨w, hadj⟩ := rtePktmbufAdj_eq (show offset + ipLen m < 0x10000 by omega)
    (show offset + ipLen m ≤ m.dataLen by omega)
  have hmark : ∀ inip ce, ipV (mark m.buf inip ce) inip = ipV m.buf inip := by
    intro inip ce
    rw [ipV, ipV, (mark_marked m.buf inip ce).first]
  dsimp only [ipLen] at hadj ⊢
  rw [← outerCe_eq, ipipInbound, hadj]
  dsimp only
  by_cases hv : ipV m.buf
      (m.dataOff + (offset + if ipV m.buf m.dataOff = 4 then 20 else 40)) = 4
  · rw [if_pos hv]
    refine ⟨_, rfl, rfl, rfl, ?_⟩
    rw [innerBuf, ageInner, hmark, if_pos hv, mark, if_pos hv]
  · rw [if_neg hv]
    refine ⟨_, rfl, rfl, rfl, ?_⟩
    rw [innerBuf, ageInner, hmark, if_neg hv, mark, if_neg hv]

/-- **DECAPSULATION** is right exactly when the outer header has no options and
    no extension headers, and no IPv4 header is marked. -/
theorem ipipInbound_right_iff {m : Mbuf} {hdr offset n : Nat}
    (h : TunnelPacket m hdr offset n) :
    (∃ m', ipipInbound m offset = some m' ∧ Decapsulated m m' hdr offset n)
      ↔ hdr = (if ipV m.buf m.dataOff = 4 then 20 else 40)
        ∧ ¬ (ecn m.buf m.dataOff = 3 ∧ ipV m.buf (m.dataOff + (hdr + offset)) = 4
          ∧ ecn m.buf (m.dataOff + (hdr + offset)) ≠ 0) := by
  obtain ⟨m', hcall, hoff, hlen, hbuf⟩ := ipipInbound_eq h
  have hright := innerBuf_right_iff (decide (ecn m.buf m.dataOff = 3)) h.inner h.hops
  rw [decide_eq_true_iff] at hright
  change _ ↔ hdr = ipLen m ∧ _
  constructor
  · rintro ⟨m'', hcall', hdec⟩
    obtain rfl := Option.some.inj (hcall.symm.trans hcall')
    have hhdr : hdr = ipLen m := by
      have := hdec.off
      omega
    refine ⟨hhdr, hright.mp ?_⟩
    have hin := hdec.right
    rw [hbuf, Nat.add_comm offset, ← hhdr] at hin
    exact hin
  · rintro ⟨hhdr, hnot⟩
    rw [Nat.add_comm offset, ← hhdr] at hoff hlen hbuf
    refine ⟨m', hcall, hoff, ?_, ?_⟩
    · have := h.len
      omega
    · rw [hbuf]
      exact hright.mpr hnot

/-- An IPv4 packet of the protocol ESP with this TOS, eight bytes, and an IPv4
    header with this TOS and checksum. -/
def tunnelled (outer inner c0 c1 : UInt8) : Mbuf :=
  Mbuf.mid (store (fun _ => 0) 128
    [0x45, outer, 0, 48, 0, 0, 0, 0, 64, 50, 0, 0, 192, 168, 0, 1, 192, 168, 0, 2,
      0, 0, 0, 5, 0, 0, 0, 1,
      0x45, inner, 0, 20, 0, 0, 0, 0, 64, 6, c0, c1, 10, 0, 0, 1, 10, 0, 0, 2]) 48

theorem tunnelled_packet {m : Mbuf} (hoff : m.dataOff = 128) (hlen : m.dataLen = 48)
    (houter : ipV m.buf 128 = 4 ∧ ipHl m.buf 128 = 5)
    (hinner : ipV m.buf 156 = 4 ∧ ipHl m.buf 156 = 5)
    (hpos : 0 < hops m.buf 156) (hsum : wordSum m.buf 156 10 % ones16 = 0) :
    TunnelPacket m 20 8 20 := by
  obtain ⟨hv, hihl⟩ := hinner
  refine ⟨?_, hlen, ⟨?_, ?_⟩, ?_⟩
  · rw [OuterLen, hoff, if_pos houter.1, houter.2]
    exact ⟨Nat.le_refl 5, rfl⟩
  · intro _
    rw [hoff, hihl, headerOk_iff ⟨hv, Nat.le_of_eq hihl.symm⟩, hihl]
    exact ⟨Nat.le_refl 5, Nat.le_refl 20, hsum⟩
  · rw [hoff]
    exact fun hne => absurd hv hne
  · rw [hoff]
    exact hpos

theorem ipipInbound_right_noMark :
    TunnelPacket (tunnelled 0 1 0x66 0xe1) 20 8 20
      ∧ ((∃ m', ipipInbound (tunnelled 0 1 0x66 0xe1) 8 = some m'
          ∧ Decapsulated (tunnelled 0 1 0x66 0xe1) m' 20 8 20)
        ↔ 20 = (if ipV (tunnelled 0 1 0x66 0xe1).buf 128 = 4 then 20 else 40)
          ∧ ¬ (ecn (tunnelled 0 1 0x66 0xe1).buf 128 = 3
            ∧ ipV (tunnelled 0 1 0x66 0xe1).buf 156 = 4
            ∧ ecn (tunnelled 0 1 0x66 0xe1).buf 156 ≠ 0)) := by
  have h : TunnelPacket (tunnelled 0 1 0x66 0xe1) 20 8 20 :=
    tunnelled_packet rfl rfl (by decide) (by decide) (by decide) (by decide)
  exact ⟨h, ipipInbound_right_iff h⟩

/-- **THE CHECKSUM BREAKS** when the mark of the outer header is copied to an
    inner header of class ECT(1). -/
theorem mark_breaks_checksum :
    TunnelPacket (tunnelled 3 1 0x66 0xe1) 20 8 20
      ∧ ecn (tunnelled 3 1 0x66 0xe1).buf 128 = 3
      ∧ ∃ m', ipipInbound (tunnelled 3 1 0x66 0xe1) 8 = some m'
        ∧ m'.dataOff = 156 ∧ ecn m'.buf 156 = 3 ∧ ¬ HeaderOk m'.buf 156 := by
  refine ⟨tunnelled_packet rfl rfl (by decide) (by decide) (by decide) (by decide),
    by decide, ?_⟩
  have hrun : ((ipipInbound (tunnelled 3 1 0x66 0xe1) 8).map fun m' =>
      (m'.dataOff, ipV m'.buf 156, ipHl m'.buf 156, ecn m'.buf 156,
        wordSum m'.buf 156 10 % ones16)) = some (156, 4, 5, 3, 0xff) := by
    decide +kernel
  obtain ⟨m', hcall, hout⟩ := Option.map_eq_some_iff.mp hrun
  simp only [Prod.mk.injEq] at hout
  obtain ⟨hoff, hv, hihl, hecn, hsum⟩ := hout
  refine ⟨m', hcall, hoff, hecn, ?_⟩
  rw [headerOk_iff ⟨hv, Nat.le_of_eq hihl.symm⟩, hihl, hsum]
  decide

end Ecn
