import IpsecSecgw.Lib.OnesSum
import IpsecSecgw.EspModel

/-! # Inner headers and their checksums

    `ipip_outbound` and `ipip_inbound` patch the checksum of the inner IPv4
    header instead of computing it.  Lowering the TTL is patched right for every
    checksum there is, but only a TTL that can be lowered: zero wraps.  Setting
    the congestion mark is patched wrong whenever there is a mark to set. -/

namespace Checksum

open ByteStore SaModel MbufModel Ipip Esp OnesSum

/-! ## Headers -/

/-- `0xffff`. -/
def ones16 : Nat := 0xffff

/-- The checksum of the IPv4 header at `a` is correct: the words of the header
    add up to ones. -/
def HeaderOk (b : Nat → UInt8) (a : Nat) : Prop :=
  fold ones16 (wordSum b a (2 * ipHl b a)) = ones16

/-- An IPv4 header has at least twenty bytes. -/
structure Ipv4Header (b : Nat → UInt8) (a : Nat) : Prop where
  version : ipV b a = 4
  ihl : 5 ≤ ipHl b a

/-- The sum of a header is that of its first two words, TTL, checksum and the
    rest. -/
theorem headerSum_split (b : Nat → UInt8) {a : Nat} (h : 5 ≤ ipHl b a) :
    wordSum b a (2 * ipHl b a) = word b a + wordSum b (a + 2) 3 + word b (a + 8)
      + word b (a + 10) + wordSum b (a + 12) (2 * ipHl b a - 6) := by
  obtain ⟨n, hn⟩ : ∃ n, 2 * ipHl b a = 1 + (3 + (1 + (1 + n))) :=
    ⟨2 * ipHl b a - 6, by omega⟩
  have hrest : 2 * ipHl b a - 6 = n := by omega
  rw [hrest, hn, wordSum_add, wordSum_add, wordSum_add, wordSum_add]
  show word b a + 0 + (wordSum b (a + 2) 3 + (word b (a + 8) + 0
    + (word b (a + 10) + 0 + wordSum b (a + 12) n))) = _
  omega

/-- The version makes the sum positive. -/
theorem headerSum_pos {b : Nat → UInt8} {a : Nat} (h : Ipv4Header b a) :
    0 < wordSum b a (2 * ipHl b a) := by
  have hversion := h.version
  rw [headerSum_split b h.ihl, word]
  rw [ipV] at hversion
  omega

/-- **CORRECT** means that the all-ones word divides the sum. -/
theorem headerOk_iff {b : Nat → UInt8} {a : Nat} (h : Ipv4Header b a) :
    HeaderOk b a ↔ wordSum b a (2 * ipHl b a) % ones16 = 0 := by
  rw [HeaderOk, fold_eq_ones_iff (by decide)]
  exact and_iff_right (headerSum_pos h)

/-- The first byte makes a header one. -/
theorem Ipv4Header.congr {b c : Nat → UInt8} {a : Nat} (h : Ipv4Header b a)
    (hc : c a = b a) : Ipv4Header c a := by
  refine ⟨?_, ?_⟩
  · rw [ipV, hc]
    exact h.version
  · rw [ipHl, hc]
    exact h.ihl

/-! ## Lowering the TTL -/

theorem word_ofLe (b : Nat → UInt8) (a : Nat) :
    ofLe (load b a 2) = (b (a + 1)).toNat * 0x100 + (b a).toNat := by
  rw [load_succ, load_succ, load_zero]
  show ofBe [b (a + 1), b a] = _
  simp [ofBe]

theorem word_ofBe (b : Nat → UInt8) (a : Nat) : ofBe (load b a 2) = word b a := by
  rw [load_succ, load_succ, load_zero, word]
  simp [ofBe]

/-- The word a little-endian number leaves. -/
theorem word_storeLe (b : Nat → UInt8) (a n : Nat) :
    word (store b a (toLe 2 n)) a = n % 0x100 * 0x100 + n / 0x100 % 0x100 := by
  have hlow : store b a (toLe 2 n) a = UInt8.ofNat n := by
    refine (store_inside b a (toLe 2 n) (i := 0) (by simp)).trans ?_
    show UInt8.ofNat (n / 256 ^ 0) = _
    rw [Nat.pow_zero, Nat.div_one]
  have hhigh : store b a (toLe 2 n) (a + 1) = UInt8.ofNat (n / 0x100) :=
    store_inside b a (toLe 2 n) (i := 1) (by simp)
  rw [word, hlow, hhigh, UInt8.toNat_ofNat', UInt8.toNat_ofNat']

theorem word_storeBe (b : Nat → UInt8) (a n : Nat) :
    word (store b a (toBe 2 n)) a = n % 0x10000 := by
  have h := word_ofBe (store b a (toBe 2 n)) a
  rw [load_store_eq b (length_toBe 2 n), ofBe_toBe] at h
  exact h.symm

/-- Adding one to a word in the order of the host, short of its end. -/
theorem swapped_next {hi lo raw : Nat} (hhi : hi < 256) (hlo : lo < 256)
    (h : ¬ 0xfffe ≤ lo * 0x100 + hi) (hraw : raw = lo * 0x100 + hi + 1) :
    (raw % 0x100 * 0x100 + raw / 0x100 % 0x100) % 0xffff
      = (hi * 0x100 + lo + 0x100) % 0xffff := by
  by_cases htop : hi = 255
  · -- the carry goes from one byte to the other
    have hlow : raw % 0x100 = 0 := by omega
    have hhigh : raw / 0x100 % 0x100 = lo + 1 := by omega
    rw [hlow, hhigh]
    omega
  · have hlow : raw % 0x100 = hi + 1 := by omega
    have hhigh : raw / 0x100 % 0x100 = lo := by omega
    rw [hlow, hhigh]
    omega

/-- The patched checksum is the old one and `0x100`, up to the carry. -/
theorem decTtl_checksum (b : Nat → UInt8) (a : Nat) :
    word (decTtl b a) (a + 10) % ones16 = (word b (a + 10) + 0x100) % ones16 := by
  have hhi := (b (a + 10)).toNat_lt
  have hlo := (b (a + 11)).toNat_lt
  have hlimit : cpuToBe16 (0xffff - 0x100) = 0xfffe := by decide
  have hstep : cpuToBe16 0x100 = 1 := by decide
  rw [decTtl, word_ofLe, store_outside _ (by simp), store_outside _ (by simp), hlimit,
    hstep, ones16]
  have hword : word b (a + 10) = (b (a + 10)).toNat * 0x100 + (b (a + 11)).toNat :=
    rfl
  have hraw : a + 10 + 1 = a + 11 := rfl
  rw [hword, hraw]
  -- the field as the host reads it
  generalize (b (a + 10)).toNat = hi at hhi
  generalize (b (a + 11)).toNat = lo at hlo
  split
  · rename_i hcarry
    rw [word_storeLe]
    obtain rfl : lo = 255 := by omega
    obtain rfl | rfl : hi = 254 ∨ hi = 255 := by omega
    · rfl
    · rfl
  · rename_i hcarry
    rw [word_storeLe]
    exact swapped_next hhi hlo hcarry rfl

/-- A byte that is not zero can be lowered. -/
theorem pred_toNat {x : UInt8} (h : 0 < x.toNat) : (x - 1).toNat = x.toNat - 1 := by
  have hle : (1 : UInt8) ≤ x := UInt8.le_iff_toNat_le.mpr h
  exact UInt8.toNat_sub_of_le x 1 hle

theorem pred_iff (x : UInt8) : (x - 1).toNat + 1 = x.toNat ↔ 0 < x.toNat := by
  by_cases hzero : x.toNat = 0
  · rw [show x = 0 from UInt8.toNat.inj hzero]
    decide
  · rw [pred_toNat (Nat.pos_of_ne_zero hzero)]
    omega

/-- The word of TTL and protocol. -/
theorem decTtl_ttlWord (b : Nat → UInt8) (a : Nat) :
    word (decTtl b a) (a + 8) + (b (a + 8)).toNat * 0x100
      = word b (a + 8) + (b (a + 8) - 1).toNat * 0x100 := by
  rw [word, word, decTtl_ttl, decTtl_other b (by omega)]
  omega

/-- **AGEING** an IPv4 header keeps its sum, unless the TTL wraps: then the sum
    is one too large. -/
theorem decTtl_sum {b : Nat → UInt8} {a : Nat} (h : Ipv4Header b a) :
    wordSum (decTtl b a) a (2 * ipHl (decTtl b a) a) % ones16
      = (wordSum b a (2 * ipHl b a)
        + if (b (a + 8)).toNat = 0 then 1 else 0) % ones16 := by
  have hfirst : decTtl b a a = b a := decTtl_other b (by omega)
  have hsame : ∀ c n, (∀ i, c ≤ i → i < c + 2 * n → i ≠ a + 8 ∧ i ≠ a + 10
      ∧ i ≠ a + 11) → wordSum (decTtl b a) c n = wordSum b c n :=
    fun c n hc => wordSum_congr fun i hlo hhi => decTtl_other b (hc i hlo hhi)
  have hword : word (decTtl b a) a = word b a :=
    word_congr hfirst (decTtl_other b (by omega))
  have hsum := decTtl_checksum b a
  have hage := decTtl_ttlWord b a
  have hlen : ipHl (decTtl b a) a = ipHl b a := by rw [ipHl, ipHl, hfirst]
  rw [headerSum_split _ (h.congr hfirst).ihl, headerSum_split b h.ihl, hlen,
    hword, hsame (a + 2) 3 (by omega), hsame (a + 12) _ (by omega)]
  rw [ones16] at hsum ⊢
  generalize word b a + wordSum b (a + 2) 3 = front
  generalize wordSum b (a + 12) (2 * ipHl b a - 6) = rest
  by_cases hzero : (b (a + 8)).toNat = 0
  · have hwrap : (b (a + 8) - 1).toNat = 255 := by
      rw [show b (a + 8) = 0 from UInt8.toNat.inj hzero]
      rfl
    rw [if_pos hzero]
    rw [hwrap, hzero] at hage
    omega
  · have hdown := pred_toNat (Nat.pos_of_ne_zero hzero)
    rw [if_neg hzero]
    rw [hdown] at hage
    omega

/-- A correct checksum stays correct exactly when the TTL can be lowered. -/
theorem decTtl_headerOk_iff {b : Nat → UInt8} {a : Nat} (h : Ipv4Header b a)
    (hok : HeaderOk b a) : HeaderOk (decTtl b a) a ↔ 0 < (b (a + 8)).toNat := by
  have hfirst : decTtl b a a = b a := decTtl_other b (by omega)
  have hold := (headerOk_iff h).mp hok
  rw [headerOk_iff (h.congr hfirst), decTtl_sum h, Nat.add_mod, hold]
  split
  · rename_i hzero
    rw [hzero]
    decide
  · rename_i hzero
    exact iff_of_true rfl (Nat.pos_of_ne_zero hzero)

/-! ## Encapsulation -/

/-- `ipip_outbound`. -/
def ipipOutbound (m : Mbuf) (offset : Nat) (isIpv6 : Bool) (src dst : IpAddr) :
    Option (Nat × Mbuf) :=
  if isIpv6 then ip6ipOutbound m offset src dst else ip4ipOutbound m offset src dst

/-- The length of the header it puts in front. -/
def outerLen (isIpv6 : Bool) : Nat := if isIpv6 then 40 else 20

/-- TTL or hop limit. -/
def hops (b : Nat → UInt8) (a : Nat) : Nat :=
  if ipV b a = 4 then (b (a + 8)).toNat else (b (a + 7)).toNat

/-- An IP packet of `n` bytes at `a`: its header is complete, and correct. -/
structure IpPacket (b : Nat → UInt8) (a n : Nat) : Prop where
  v4 : ipV b a = 4 → 5 ≤ ipHl b a ∧ ipHl b a * 4 ≤ n ∧ HeaderOk b a
  v6 : ipV b a ≠ 4 → ipV b a = 6 ∧ 40 ≤ n

/-- The bytes of a packet at `a` that one hop changes: TTL and checksum, or the
    hop limit. -/
def HopField (b : Nat → UInt8) (a i : Nat) : Prop :=
  if ipV b a = 4 then i = a + 8 ∨ i = a + 10 ∨ i = a + 11 else i = a + 7

/-- The packet of `n` bytes at `a` has come one hop further: it has one hop
    less, an IPv4 header is correct again, and no other byte has changed. -/
structure OneHop (b b' : Nat → UInt8) (a n : Nat) : Prop where
  hops : hops b' a + 1 = hops b a
  correct : ipV b a = 4 → HeaderOk b' a
  others : ∀ i, a ≤ i → i < a + n → ¬ HopField b a i → b' i = b i

/-- What of a memory matters to `OneHop`. -/
theorem OneHop.congr {b c c' : Nat → UInt8} {a n : Nat} (hn : IpPacket b a n)
    (hc : ∀ i, a ≤ i → i < a + n → c' i = c i) (h : OneHop b c a n) :
    OneHop b c' a n := by
  have hothers : ∀ i, a ≤ i → i < a + n → ¬ HopField b a i → c' i = b i :=
    fun i hlo hhi hi => (hc i hlo hhi).trans (h.others i hlo hhi hi)
  have h20 : 20 ≤ n := by
    by_cases hv : ipV b a = 4
    · have hv4 := hn.v4 hv
      omega
    · have hv6 := hn.v6 hv
      omega
  have hfirst : c a = b a := by
    refine h.others a (Nat.le_refl _) (by omega) ?_
    rw [HopField]
    split <;> omega
  have hfirst' : c' a = c a := hc a (Nat.le_refl _) (by omega)
  have hhops := h.hops
  have hcorrect := h.correct
  refine ⟨?_, ?_, hothers⟩
  · rw [← hhops, Checksum.hops, Checksum.hops, ipV, ipV, hfirst',
      hc (a + 8) (by omega) (by omega), hc (a + 7) (by omega) (by omega)]
  · intro hv
    have hv4 := hn.v4 hv
    have hlen : ipHl c a = ipHl b a := by rw [ipHl, ipHl, hfirst]
    have hlen' : ipHl c' a = ipHl c a := by rw [ipHl, ipHl, hfirst']
    have hok := hcorrect hv
    rw [HeaderOk] at hok ⊢
    rw [hlen', wordSum_congr (b := c) fun i hlo hhi => hc i hlo (by omega)]
    exact hok

/-- **AGEING** the inner header is one hop exactly when there is one left. -/
theorem ageInner_oneHop_iff {b : Nat → UInt8} {a n : Nat} (h : IpPacket b a n) :
    OneHop b (ageInner b a).1 a n ↔ 0 < hops b a := by
  rw [ageInner]
  by_cases hv : ipV b a = 4
  · obtain ⟨hihl, -, hok⟩ := h.v4 hv
    have hfirst : ipV (decTtl b a) a = 4 := by
      rw [ipV, decTtl_other b (by omega)]
      exact hv
    rw [if_pos hv, hops, if_pos hv]
    dsimp only
    constructor
    · intro hhop
      have hhops := hhop.hops
      rw [hops, hops, if_pos hv, if_pos hfirst, decTtl_ttl] at hhops
      exact (pred_iff _).mp hhops
    · intro hpos
      refine ⟨?_, fun _ => (decTtl_headerOk_iff ⟨hv, hihl⟩ hok).mpr hpos, ?_⟩
      · rw [hops, hops, if_pos hv, if_pos hfirst, decTtl_ttl]
        exact (pred_iff _).mpr hpos
      · intro i _ _ hi
        rw [HopField, if_pos hv, not_or, not_or] at hi
        exact decTtl_other b hi
  · have hfirst : ipV (decHops b a) a ≠ 4 := by
      rw [ipV, decHops_other b (by omega)]
      exact hv
    rw [if_neg hv, hops, if_neg hv]
    dsimp only
    constructor
    · intro hhop
      have hhops := hhop.hops
      rw [hops, hops, if_neg hv, if_neg hfirst, decHops_hops] at hhops
      exact (pred_iff _).mp hhops
    · intro hpos
      refine ⟨?_, fun hv4 => absurd hv4 hv, ?_⟩
      · rw [hops, hops, if_neg hv, if_neg hfirst, decHops_hops]
        exact (pred_iff _).mpr hpos
      · intro i _ _ hi
        rw [HopField, if_neg hv] at hi
        exact decHops_other b hi

/-- The inner packet of an encapsulated one is the aged one; without headroom
    there is none. -/
theorem ipipOutbound_inner (m : Mbuf) {offset : Nat} (isIpv6 : Bool)
    (src dst : IpAddr) (h16 : offset + 40 < 0x10000) :
    (m.dataOff < offset + outerLen isIpv6
        → ipipOutbound m offset isIpv6 src dst = none)
      ∧ (offset + outerLen isIpv6 ≤ m.dataOff → ∃ a m',
        ipipOutbound m offset isIpv6 src dst = some (a, m')
          ∧ ∀ i, m.dataOff ≤ i → m'.buf i = (ageInner m.buf m.dataOff).1 i) := by
  rw [ipipOutbound, outerLen]
  cases isIpv6 with
  | true =>
      rw [if_pos rfl, if_pos rfl]
      constructor
      · -- no room: nothing is prepended
        intro hshort
        rw [ip6ipOutbound, rtePktmbufPrepend, dif_neg]
        rw [len16_eq h16]
        exact Nat.not_le.mpr hshort
      · -- room: the inner packet has only aged
        intro hroom
        cases h : ip6ipOutbound m offset src dst with
        | none =>
            rw [ip6ipOutbound, rtePktmbufPrepend, dif_pos] at h
            · cases h
            · rw [len16_eq h16]
              exact hroom
        | some r =>
            obtain ⟨a, m'⟩ := r
            obtain ⟨hle, ha, -, -, -, hinner, -⟩ := ip6ipOutbound_some h16 h
            refine ⟨a, m', rfl, fun i hi => hinner i ?_⟩
            omega
  | false =>
      have h16 : offset + 20 < 0x10000 := by omega
      rw [if_neg Bool.false_ne_true, if_neg Bool.false_ne_true]
      constructor
      · intro hshort
        rw [ip4ipOutbound, rtePktmbufPrepend, dif_neg]
        rw [len16_eq h16]
        exact Nat.not_le.mpr hshort
      · intro hroom
        cases h : ip4ipOutbound m offset src dst with
        | none =>
            rw [ip4ipOutbound, rtePktmbufPrepend, dif_pos] at h
            · cases h
            · rw [len16_eq h16]
              exact hroom
        | some r =>
            obtain ⟨a, m'⟩ := r
            obtain ⟨hle, ha, -, -, -, hinner, -⟩ := ip4ipOutbound_some h16 h
            refine ⟨a, m', rfl, fun i hi => hinner i ?_⟩
            omega

/-- **ENCAPSULATION** makes one hop of the inner packet exactly when it has one
    left, and the mbuf room for the outer header. -/
theorem ipipOutbound_oneHop_iff {m : Mbuf} {offset : Nat} {isIpv6 : Bool}
    {src dst : IpAddr} (h16 : offset + 40 < 0x10000)
    (hin : IpPacket m.buf m.dataOff m.dataLen) :
    (∃ a m', ipipOutbound m offset isIpv6 src dst = some (a, m')
        ∧ OneHop m.buf m'.buf m.dataOff m.dataLen)
      ↔ offset + outerLen isIpv6 ≤ m.dataOff ∧ 0 < hops m.buf m.dataOff := by
  obtain ⟨hshort, hroom⟩ := ipipOutbound_inner m isIpv6 src dst h16
  constructor
  · rintro ⟨a, m', h, hhop⟩
    have hle : offset + outerLen isIpv6 ≤ m.dataOff := by
      by_contra hlt
      rw [hshort (Nat.not_le.mp hlt)] at h
      cases h
    obtain ⟨a', m'', h', hinner⟩ := hroom hle
    obtain ⟨-, rfl⟩ := Prod.mk.inj (Option.some.inj (h'.symm.trans h))
    refine ⟨hle, (ageInner_oneHop_iff hin).mp ?_⟩
    exact hhop.congr hin fun i hi _ => (hinner i hi).symm
  · rintro ⟨hle, hpos⟩
    obtain ⟨a, m', h, hinner⟩ := hroom hle
    refine ⟨a, m', h, ((ageInner_oneHop_iff hin).mpr hpos).congr hin ?_⟩
    exact fun i hi _ => hinner i hi

/-- A bare IPv4 header with this TTL and checksum. -/
def barePacket (ttl c0 c1 : UInt8) : Mbuf :=
  Mbuf.mid (store (fun _ => 0) 128
    [0x45, 0, 0, 20, 0, 0, 0, 0, ttl, 6, c0, c1, 10, 0, 0, 1, 10, 0, 0, 2]) 20

/-- An IPv4 tunnel SA with the NULL algorithms. -/
def tunnelSa : IpsecSa :=
  { spi := 5, cipherAlgo := .null, authAlgo := .null, blockSize := 4
    flags := ip4Tunnel }

theorem ipipOutbound_oneHop_64 :
    IpPacket (barePacket 64 0x66 0xe2).buf 128 20
      ∧ ((∃ a m', ipipOutbound (barePacket 64 0x66 0xe2) 8 false IpAddr.zero
          IpAddr.zero = some (a, m')
          ∧ OneHop (barePacket 64 0x66 0xe2).buf m'.buf 128 20)
        ↔ 8 + outerLen false ≤ 128 ∧ 0 < hops (barePacket 64 0x66 0xe2).buf 128) := by
  have hv : ipV (barePacket 64 0x66 0xe2).buf 128 = 4 := by decide
  have hin : IpPacket (barePacket 64 0x66 0xe2).buf 128 20 := by
    refine ⟨fun _ => ⟨by decide, by decide, ?_⟩, fun hne => absurd hv hne⟩
    exact (headerOk_iff ⟨hv, by decide⟩).mpr (by decide)
  exact ⟨hin, ipipOutbound_oneHop_iff (by decide) hin⟩

/-- **THE TTL WRAPS**: `esp_outbound` encapsulates a packet with TTL 0 and a
    correct checksum, and leaves TTL 255 and a wrong one. -/
theorem ttl_wraps :
    IpPacket (barePacket 0 0xa6 0xe2).buf 128 20
      ∧ ∃ m' sa', espOutbound (barePacket 0 0xa6 0xe2) tunnelSa = some (0, m', sa')
        ∧ m'.buf (128 + 8) = 255 ∧ ¬ HeaderOk m'.buf 128 := by
  have hv : ipV (barePacket 0 0xa6 0xe2).buf 128 = 4 := by decide
  have hin : IpPacket (barePacket 0 0xa6 0xe2).buf 128 20 := by
    refine ⟨fun _ => ⟨by decide, by decide, ?_⟩, fun hne => absurd hv hne⟩
    exact (headerOk_iff ⟨hv, by decide⟩).mpr (by decide)
  have hrun : ((espOutbound (barePacket 0 0xa6 0xe2) tunnelSa).map fun r =>
      (r.1, load r.2.1.buf 128 20)) = some (0, [0x45, 0, 0, 20, 0, 0, 0, 0, 255, 6,
        0xa7, 0xe2, 10, 0, 0, 1, 10, 0, 0, 2]) := by decide +kernel
  refine ⟨hin, ?_⟩
  obtain ⟨⟨rc, m', sa'⟩, hcall, hout⟩ := Option.map_eq_some_iff.mp hrun
  obtain ⟨rfl, hbytes⟩ := Prod.mk.inj hout
  have hbuf : ∀ i, i < 20 → m'.buf (128 + i) = (barePacket 255 0xa7 0xe2).buf (128 + i) := by
    refine fun i hi => eq_of_load_eq (hbytes.trans ?_) i hi
    decide
  have hhdr : Ipv4Header (barePacket 255 0xa7 0xe2).buf 128 := ⟨by decide, by decide⟩
  have hfirst : m'.buf 128 = (barePacket 255 0xa7 0xe2).buf 128 := hbuf 0 (by decide)
  refine ⟨m', sa', hcall, (hbuf 8 (by decide)).trans (by decide), ?_⟩
  rw [headerOk_iff (hhdr.congr hfirst), ipHl, hfirst,
    wordSum_congr (b := (barePacket 255 0xa7 0xe2).buf)]
  · decide
  · intro i hlo hhi
    obtain ⟨j, rfl⟩ : ∃ j, i = 128 + j := ⟨i - 128, by omega⟩
    have hlen : 2 * (2 * (((barePacket 255 0xa7 0xe2).buf 128).toNat % 16)) = 20 := by
      decide
    exact hbuf j (by omega)

end Checksum
