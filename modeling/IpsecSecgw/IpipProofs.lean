import IpsecSecgw.MbufModel

/-! # IP-in-IP encapsulation

    `ipip_outbound` puts an outer header in front of a packet, `ipip_inbound`
    takes it off again.  Both also lower the inner TTL (or hop limit) by one
    and patch the IPv4 checksum; the receiving side may set the inner
    congestion mark from the outer one.

    What the ESP results need from this file is how little of the inner packet
    the two functions touch: for IPv4 the TTL and the checksum, for IPv6 the
    hop limit, and nothing else when the outer mark was copied from the inner
    header. -/

namespace Ipip

open ByteStore SaModel MbufModel

/-! ## The code -/

/-- `rte_cpu_to_be_16` on a little-endian host. -/
def cpuToBe16 (x : Nat) : Nat := ofLe (toBe 2 x)

/-- Lower the TTL of the IPv4 header at `a` and patch its checksum, which is
    compared and advanced in memory order. -/
def decTtl (b : Nat → UInt8) (a : Nat) : Nat → UInt8 :=
  let b := store b (a + 8) [b (a + 8) - 1]
  let ipSum := ofLe (load b (a + 10) 2)
  if cpuToBe16 (0xffff - 0x100) ≤ ipSum then
    store b (a + 10) (toLe 2 (ipSum + cpuToBe16 0x100 + 1))
  else
    store b (a + 10) (toLe 2 (ipSum + cpuToBe16 0x100))

/-- Lower the hop limit of the IPv6 header at `a`. -/
def decHops (b : Nat → UInt8) (a : Nat) : Nat → UInt8 :=
  store b (a + 7) [b (a + 7) - 1]

/-- `ntohl(ip6_flow) >> 20`. -/
def flowClass (b : Nat → UInt8) (a : Nat) : Nat :=
  ofBe (load b a 4) >>> 20

/-- The first word of an outer IPv6 header. -/
def outerFlow (dsEcn : UInt8) : Nat := 6 <<< 28 ||| dsEcn.toNat <<< 20

/-- The first half of `ipip_outbound`: the inner header is aged; the second
    component is `ds_ecn`. -/
def ageInner (b : Nat → UInt8) (a : Nat) : (Nat → UInt8) × UInt8 :=
  if ipV b a = 4 then (decTtl b a, decTtl b a (a + 1))
  else (decHops b a, UInt8.ofNat (flowClass (decHops b a) a))

/-- `ip6ip_outbound`: an outer IPv6 header and `offset` bytes are put in
    front.  Without headroom the null pointer is written to: `none`. -/
def ip6ipOutbound (m : Mbuf) (offset : Nat) (src dst : IpAddr) :
    Option (Nat × Mbuf) :=
  let inner := ageInner m.buf m.dataOff
  match rtePktmbufPrepend { m with buf := inner.1 } (offset + 40) with
  | none => none
  | some (outip6, m) =>
      let m := m.write outip6 (toBe 4 (outerFlow inner.2)
        ++ toBe 2 (m.dataLen - 40) ++ [ipprotoEsp, ipDefTtl])
      some (outip6, m.write (outip6 + 8) (src.bytes ++ dst.bytes))

/-- `ip4ip_outbound`: an outer IPv4 header and `offset` bytes are put in
    front.  Identification and fragment fields are zeroed, the checksum field
    keeps what the headroom held. -/
def ip4ipOutbound (m : Mbuf) (offset : Nat) (src dst : IpAddr) :
    Option (Nat × Mbuf) :=
  let inner := ageInner m.buf m.dataOff
  match rtePktmbufPrepend { m with buf := inner.1 } (offset + 20) with
  | none => none
  | some (outip4, m) =>
      let m := m.write outip4 ([0x45, inner.2] ++ toBe 2 m.dataLen
        ++ [0, 0, 0, 0, ipDefTtl, ipprotoEsp])
      let m := m.write (outip4 + 12) (src.ip4 ++ dst.ip4)
      some (outip4, { m with packetType := m.packetType &&& ~~~ptypeL4Mask })

/-- `ip4_ecn_setup`. -/
def ip4EcnSetup (b : Nat → UInt8) (a : Nat) : Nat → UInt8 :=
  if b (a + 1) &&& 3 ≠ 0 then
    let old := b (a + 1)
    let b := store b (a + 1) [old ||| 3]
    let sum := old.toNat + (~~~(b (a + 1))).toNat + ofBe (load b (a + 10) 2)
    let sum := sum % 0x10000 + sum / 0x10000
    store b (a + 10) (toBe 2 (sum + sum / 0x10000))
  else b

/-- `ip6_ecn_setup`. -/
def ip6EcnSetup (b : Nat → UInt8) (a : Nat) : Nat → UInt8 :=
  if flowClass b a &&& 3 ≠ 0 then
    store b a (toBe 4 (ofBe (load b a 4) ||| 3 <<< 20))
  else b

/-- Does the outer header at `a` report congestion? -/
def outerCe (b : Nat → UInt8) (a : Nat) : Bool :=
  if ipV b a = 4 then b (a + 1) &&& 3 == 3 else flowClass b a &&& 3 == 3

/-- The L4 bits `ipip_inbound` sets from the inner protocol. -/
def innerL4 (p : UInt8) : UInt32 :=
  if p = ipprotoUdp then ptypeL4Udp
  else if p = ipprotoTcp then ptypeL4Tcp
  else 0

/-- `ipip_inbound`: outer header and `offset` bytes are taken off.  A packet
    shorter than that makes the code follow a null pointer: `none`. -/
def ipipInbound (m : Mbuf) (offset : Nat) : Option Mbuf :=
  let ipLen := if ipV m.buf m.dataOff = 4 then 20 else 40
  let setEcn := outerCe m.buf m.dataOff
  match rtePktmbufAdj m (offset + ipLen) with
  | none => none
  | some (inip, m) =>
      if ipV m.buf inip = 4 then
        let b := if setEcn then ip4EcnSetup m.buf inip else m.buf
        let b := decTtl b inip
        some { m with
          buf := b
          packetType :=
            (m.packetType &&& ~~~ptypeL4Mask) ||| innerL4 (b (inip + 9)) }
      else
        let b := if setEcn then ip6EcnSetup m.buf inip else m.buf
        some { m with buf := decHops b inip }

/-! ## What ageing touches -/

/-- Ageing an IPv4 header touches the TTL and the checksum only. -/
theorem decTtl_other (b : Nat → UInt8) {a i : Nat}
    (h : i ≠ a + 8 ∧ i ≠ a + 10 ∧ i ≠ a + 11) : decTtl b a i = b i := by
  rw [decTtl]
  split <;>
    rw [store_outside _ (by simp; omega), store_outside _ (by simp; omega)]

theorem decTtl_ttl (b : Nat → UInt8) (a : Nat) :
    decTtl b a (a + 8) = b (a + 8) - 1 := by
  have hsame : store b (a + 8) [b (a + 8) - 1] (a + 8) = b (a + 8) - 1 :=
    store_inside b (a + 8) [b (a + 8) - 1] (i := 0) (by simp)
  rw [decTtl]
  split <;> rw [store_outside _ (by simp), hsame]

/-- Ageing an IPv6 header touches the hop limit only. -/
theorem decHops_other (b : Nat → UInt8) {a i : Nat} (h : i ≠ a + 7) :
    decHops b a i = b i :=
  store_outside _ (by simp; omega)

theorem decHops_hops (b : Nat → UInt8) (a : Nat) :
    decHops b a (a + 7) = b (a + 7) - 1 :=
  store_inside b (a + 7) [b (a + 7) - 1] (i := 0) (by simp)

/-- Setting bits that are set changes nothing. -/
theorem or_of_and {x m : UInt8} (h : x &&& m = m) : x ||| m = x := by
  have habs : x ||| (x &&& m) = x := by
    refine UInt8.toBitVec_inj.mp (BitVec.eq_of_getLsbD_eq fun i _ => ?_)
    simp only [UInt8.toBitVec_or, UInt8.toBitVec_and, BitVec.getLsbD_or,
      BitVec.getLsbD_and]
    cases x.toBitVec.getLsbD i <;> simp
  rw [h] at habs
  exact habs

/-- Marking an already marked IPv4 header touches the checksum only. -/
theorem ip4EcnSetup_other (b : Nat → UInt8) {a i : Nat}
    (hce : b (a + 1) &&& 3 = 3) (h : i ≠ a + 10 ∧ i ≠ a + 11) :
    ip4EcnSetup b a i = b i := by
  have hce := or_of_and hce
  rw [ip4EcnSetup]
  split
  · dsimp only
    rw [hce, store_outside _ (by simp; omega)]
    by_cases hi : i = a + 1
    · subst hi
      exact store_inside b (a + 1) [b (a + 1)] (i := 0) (by simp)
    · exact store_outside _ (by simp; omega)
  · rfl

/-- Setting two shifted bits that are set changes nothing. -/
theorem or_shift_of_and_shift {x : Nat} (h : x >>> 20 &&& 3 = 3) :
    x ||| 3 <<< 20 = x := by
  refine Nat.eq_of_testBit_eq ?_
  intro i
  rw [Nat.testBit_or, Nat.testBit_shiftLeft]
  by_cases hi : 20 ≤ i
  · have hbit := congrArg (Nat.testBit · (i - 20)) h
    simp only [Nat.testBit_and, Nat.testBit_shiftRight] at hbit
    rw [show 20 + (i - 20) = i by omega] at hbit
    rw [← hbit]
    cases x.testBit i <;> simp
  · simp [hi]

/-- Marking an already marked IPv6 header changes nothing. -/
theorem ip6EcnSetup_marked (b : Nat → UInt8) {a : Nat}
    (hce : flowClass b a &&& 3 = 3) : ip6EcnSetup b a = b := by
  have hlen : (load b a 4).length = 4 := length_load b a 4
  have hsame := toBe_ofBe (load b a 4)
  rw [hlen] at hsame
  rw [ip6EcnSetup, hce, if_pos (by decide),
    or_shift_of_and_shift (show ofBe (load b a 4) >>> 20 &&& 3 = 3 from hce),
    hsame, store_load]

/-! ## Packets that differ in age only -/

/-- The version nibble of a packet. -/
def version (p : List UInt8) : Nat :=
  match p with
  | [] => 0
  | x :: _ => x.toNat / 16

/-- `q` is `p` with the TTL, or the hop limit, lowered by `k`; the checksum of
    an IPv4 header is left open. -/
def AgedBy (k : UInt8) (p q : List UInt8) : Prop :=
  if version p = 4 then
    (∀ i, i ≠ 8 → i ≠ 10 → i ≠ 11 → q[i]? = p[i]?)
      ∧ q[8]? = p[8]?.map (· - k)
  else
    (∀ i, i ≠ 7 → q[i]? = p[i]?) ∧ q[7]? = p[7]?.map (· - k)

theorem version_eq_of_head {p q : List UInt8} (h : q[0]? = p[0]?) :
    version q = version p := by
  match p, q, h with
  | [], [], _ => rfl
  | _ :: _, _ :: _, h =>
      rw [List.getElem?_cons_zero, List.getElem?_cons_zero] at h
      rw [version, version, Option.some.inj h]

/-- Ageing keeps the version. -/
theorem AgedBy.version_eq {k : UInt8} {p q : List UInt8} (h : AgedBy k p q) :
    version q = version p := by
  rw [AgedBy] at h
  split at h
  · exact version_eq_of_head (h.1 0 (by omega) (by omega) (by omega))
  · exact version_eq_of_head (h.1 0 (by omega))

/-- Ages add up. -/
theorem AgedBy.trans {j k : UInt8} {p q r : List UInt8} (h1 : AgedBy j p q)
    (h2 : AgedBy k q r) : AgedBy (j + k) p r := by
  have hv := h1.version_eq
  have hsub : ∀ o : Option UInt8,
      (o.map (· - j)).map (· - k) = o.map (· - (j + k)) := by
    intro o
    cases o with
    | none => rfl
    | some x =>
        simp only [Option.map_some, Option.some.injEq]
        grind
  rw [AgedBy] at h1 h2 ⊢
  rw [hv] at h2
  by_cases h4 : version p = 4
  · rw [if_pos h4] at h1 h2 ⊢
    refine ⟨fun i a b c => (h2.1 i a b c).trans (h1.1 i a b c), ?_⟩
    rw [h2.2, h1.2, hsub]
  · rw [if_neg h4] at h1 h2 ⊢
    refine ⟨fun i a => (h2.1 i a).trans (h1.1 i a), ?_⟩
    rw [h2.2, h1.2, hsub]

theorem version_load (b : Nat → UInt8) (a : Nat) {n : Nat} (hn : 0 < n) :
    version (load b a n) = ipV b a := by
  obtain ⟨k, rfl⟩ : ∃ k, n = k + 1 := ⟨n - 1, by omega⟩
  rw [load_succ, version, ipV]

/-- A memory that differs from another in the TTL and the checksum of an IPv4
    header holds the same packet, aged. -/
theorem agedBy_of_v4 {b c : Nat → UInt8} {a n : Nat} {k : UInt8} (hn : 0 < n)
    (h4 : ipV b a = 4)
    (hother : ∀ i, i ≠ a + 8 ∧ i ≠ a + 10 ∧ i ≠ a + 11 → c i = b i)
    (httl : c (a + 8) = b (a + 8) - k) :
    AgedBy k (load b a n) (load c a n) := by
  rw [AgedBy, version_load b a hn, if_pos h4]
  refine ⟨?_, ?_⟩
  · intro i h8 h10 h11
    rw [getElem?_load, getElem?_load, hother (a + i) (by omega)]
  · rw [getElem?_load, getElem?_load, httl]
    by_cases h : 8 < n
    · rw [if_pos h, if_pos h]
      rfl
    · rw [if_neg h, if_neg h]
      rfl

/-- A memory that differs from another in the hop limit of an IPv6 header
    holds the same packet, aged. -/
theorem agedBy_of_v6 {b c : Nat → UInt8} {a n : Nat} {k : UInt8} (hn : 0 < n)
    (h4 : ipV b a ≠ 4) (hother : ∀ i, i ≠ a + 7 → c i = b i)
    (hhops : c (a + 7) = b (a + 7) - k) :
    AgedBy k (load b a n) (load c a n) := by
  rw [AgedBy, version_load b a hn, if_neg h4]
  refine ⟨?_, ?_⟩
  · intro i h7
    rw [getElem?_load, getElem?_load, hother (a + i) (by omega)]
  · rw [getElem?_load, getElem?_load, hhops]
    by_cases h : 7 < n
    · rw [if_pos h, if_pos h]
      rfl
    · rw [if_neg h, if_neg h]
      rfl

/-! ## The two directions -/

theorem and_three (x : Nat) : x &&& 3 = x % 4 :=
  Nat.and_two_pow_sub_one_eq_mod x 2

/-- Cutting a number down to a byte keeps its two low bits. -/
theorem ecn_ofNat (x : Nat) :
    (UInt8.ofNat x &&& 3 == 3) = (x &&& 3 == 3) := by
  have hlow : (UInt8.ofNat x &&& 3).toNat = x &&& 3 := by
    rw [UInt8.toNat_and, UInt8.toNat_ofNat']
    show x % 256 &&& 3 = x &&& 3
    rw [and_three, and_three]
    omega
  rw [Bool.eq_iff_iff, beq_iff_eq, beq_iff_eq, ← hlow]
  exact ⟨fun h => congrArg UInt8.toNat h, fun h => UInt8.toNat.inj h⟩

/-- **OUTBOUND AGEING**: the inner packet loses one hop, nothing outside its
    header changes, and `ds_ecn` carries the inner congestion mark. -/
theorem ageInner_spec (b : Nat → UInt8) (a n : Nat) (hn : 0 < n) :
    AgedBy 1 (load b a n) (load (ageInner b a).1 a n)
      ∧ (∀ i, i < a ∨ a + 12 ≤ i → (ageInner b a).1 i = b i)
      ∧ ((ageInner b a).2 &&& 3 == 3) = outerCe (ageInner b a).1 a := by
  rw [ageInner]
  by_cases h4 : ipV b a = 4
  · have hv : ipV (decTtl b a) a = 4 := by
      rw [ipV, decTtl_other b (by omega)]
      exact h4
    rw [if_pos h4]
    dsimp only
    refine ⟨?_, ?_, ?_⟩
    · exact agedBy_of_v4 hn h4 (fun i hi => decTtl_other b hi) (decTtl_ttl b a)
    · intro i hi
      exact decTtl_other b (by omega)
    · rw [outerCe, if_pos hv]
  · have hv : ipV (decHops b a) a ≠ 4 := by
      rw [ipV, decHops_other b (by omega)]
      exact h4
    rw [if_neg h4]
    dsimp only
    refine ⟨?_, ?_, ?_⟩
    · exact agedBy_of_v6 hn h4 (fun i hi => decHops_other b hi)
        (decHops_hops b a)
    · intro i hi
      exact decHops_other b (by omega)
    · rw [outerCe, if_neg hv]
      exact ecn_ofNat _

/-- Marking from a copied mark leaves an IPv4 packet the same up to its
    checksum. -/
theorem ip4EcnSetup_of_outerCe (b : Nat → UInt8) {a i : Nat}
    (h4 : ipV b a = 4) (hce : outerCe b a = true)
    (h : i ≠ a + 10 ∧ i ≠ a + 11) : ip4EcnSetup b a i = b i := by
  rw [outerCe, if_pos h4, beq_iff_eq] at hce
  exact ip4EcnSetup_other b hce h

/-- **INBOUND AGEING**: with the outer mark copied from the inner header, the
    delivered packet is the inner one less one hop. -/
theorem ipipInbound_spec {m : Mbuf} {offset ipLen n : Nat} (hn : 0 < n)
    (h16 : offset + ipLen < 0x10000)
    (hip : ipLen = if ipV m.buf m.dataOff = 4 then 20 else 40)
    (hlen : m.dataLen = offset + ipLen + n)
    (hce : outerCe m.buf m.dataOff = true →
      outerCe m.buf (m.dataOff + (offset + ipLen)) = true) :
    ∃ m', ipipInbound m offset = some m' ∧
      AgedBy 1 (load m.buf (m.dataOff + (offset + ipLen)) n) m'.bytes := by
  obtain ⟨w, hadj⟩ := rtePktmbufAdj_eq (m := m) h16 (by omega)
  have hn' : m.dataLen - (offset + ipLen) = n := by omega
  rw [ipipInbound, ← hip, hadj]
  dsimp only
  by_cases h4 : ipV m.buf (m.dataOff + (offset + ipLen)) = 4
  · rw [if_pos h4]
    refine ⟨_, rfl, ?_⟩
    rw [Mbuf.bytes]
    dsimp only
    rw [hn']
    -- the buffer before ageing differs from the received one at most in
    -- the checksum
    have hecn : ∀ i, i ≠ m.dataOff + (offset + ipLen) + 10
        ∧ i ≠ m.dataOff + (offset + ipLen) + 11 →
        (if outerCe m.buf m.dataOff = true then
          ip4EcnSetup m.buf (m.dataOff + (offset + ipLen))
          else m.buf) i = m.buf i := by
      intro i hi
      by_cases hset : outerCe m.buf m.dataOff = true
      · rw [if_pos hset]
        exact ip4EcnSetup_of_outerCe m.buf h4 (hce hset) hi
      · rw [if_neg hset]
    refine agedBy_of_v4 hn h4 ?_ ?_
    · intro i hi
      rw [decTtl_other _ hi, hecn i hi.2]
    · rw [decTtl_ttl, hecn _ (by omega)]
  · rw [if_neg h4]
    refine ⟨_, rfl, ?_⟩
    rw [Mbuf.bytes]
    dsimp only
    rw [hn']
    have hecn : (if outerCe m.buf m.dataOff = true then
        ip6EcnSetup m.buf (m.dataOff + (offset + ipLen))
        else m.buf) = m.buf := by
      by_cases hset : outerCe m.buf m.dataOff = true
      · have hin := hce hset
        rw [outerCe, if_neg h4, beq_iff_eq] at hin
        rw [if_pos hset, ip6EcnSetup_marked m.buf hin]
      · rw [if_neg hset]
    rw [hecn]
    exact agedBy_of_v6 hn h4 (fun i hi => decHops_other _ hi)
      (decHops_hops _ _)

/-- **IPV4 ENCAPSULATION**: the outer header is a plain IPv4 header carrying
    ESP, marked like the inner one; from its end on the memory is the aged
    one. -/
theorem ip4ipOutbound_some {m m' : Mbuf} {offset a : Nat} {src dst : IpAddr}
    (h16 : offset + 20 < 0x10000)
    (h : ip4ipOutbound m offset src dst = some (a, m')) :
    offset + 20 ≤ m.dataOff ∧ a = m.dataOff - (offset + 20)
      ∧ m'.dataOff = a ∧ m'.dataLen = m.dataLen + (offset + 20)
      ∧ m'.priv = m.priv
      ∧ (∀ i, a + 20 ≤ i → m'.buf i = (ageInner m.buf m.dataOff).1 i)
      ∧ m'.buf a = 0x45 ∧ m'.buf (a + 1) = (ageInner m.buf m.dataOff).2 := by
  rw [ip4ipOutbound] at h
  dsimp only at h
  cases hpre : rtePktmbufPrepend
      { m with buf := (ageInner m.buf m.dataOff).1 } (offset + 20) with
  | none =>
      rw [hpre] at h
      exact nomatch h
  | some r =>
      obtain ⟨outip, m1⟩ := r
      obtain ⟨hle, rfl, w, rfl⟩ := rtePktmbufPrepend_some h16 hpre
      rw [hpre] at h
      have hp := Prod.mk.inj (Option.some.inj h)
      rw [← hp.1, ← hp.2]
      dsimp only at hle ⊢
      refine ⟨hle, rfl, rfl, rfl, rfl, ?_, ?_, ?_⟩
      · intro i hi
        rw [Mbuf.write_buf, store_outside _ (by simp; omega), Mbuf.write_buf,
          store_outside _ (by simp; omega)]
      · rw [Mbuf.write_buf, store_outside _ (by simp), Mbuf.write_buf]
        exact store_inside _ _ _ (i := 0) (by simp)
      · rw [Mbuf.write_buf, store_outside _ (by simp), Mbuf.write_buf]
        exact store_inside _ _ _ (i := 1) (by simp)

/-- **IPV6 ENCAPSULATION**: likewise with an IPv6 header. -/
theorem ip6ipOutbound_some {m m' : Mbuf} {offset a : Nat} {src dst : IpAddr}
    (h16 : offset + 40 < 0x10000)
    (h : ip6ipOutbound m offset src dst = some (a, m')) :
    offset + 40 ≤ m.dataOff ∧ a = m.dataOff - (offset + 40)
      ∧ m'.dataOff = a ∧ m'.dataLen = m.dataLen + (offset + 40)
      ∧ m'.priv = m.priv
      ∧ (∀ i, a + 40 ≤ i → m'.buf i = (ageInner m.buf m.dataOff).1 i)
      ∧ load m'.buf a 4 = toBe 4 (outerFlow (ageInner m.buf m.dataOff).2) := by
  rw [ip6ipOutbound] at h
  dsimp only at h
  cases hpre : rtePktmbufPrepend
      { m with buf := (ageInner m.buf m.dataOff).1 } (offset + 40) with
  | none =>
      rw [hpre] at h
      exact nomatch h
  | some r =>
      obtain ⟨outip, m1⟩ := r
      obtain ⟨hle, rfl, w, rfl⟩ := rtePktmbufPrepend_some h16 hpre
      rw [hpre] at h
      have hp := Prod.mk.inj (Option.some.inj h)
      have hs := src.size
      have hd := dst.size
      rw [← hp.1, ← hp.2]
      dsimp only at hle ⊢
      refine ⟨hle, rfl, rfl, rfl, rfl, ?_, ?_⟩
      · intro i hi
        rw [Mbuf.write_buf, store_outside _ (by simp; omega), Mbuf.write_buf,
          store_outside _ (by simp; omega)]
      · rw [Mbuf.write_buf, load_store_of_disjoint _ (by simp), Mbuf.write_buf,
          List.append_assoc, ← store_append,
          load_store_of_disjoint _ (by simp), load_store_eq _ (by simp)]

/-- The outer IPv6 word carries the version and the copied mark. -/
theorem outerFlow_spec (d : UInt8) :
    outerFlow d < 2 ^ 32 ∧ outerFlow d / 2 ^ 28 = 6
      ∧ (outerFlow d >>> 20 &&& 3 == 3) = (d &&& 3 == 3) := by
  have hall : ∀ n, n < 256 → (6 <<< 28 ||| n <<< 20) < 2 ^ 32
      ∧ (6 <<< 28 ||| n <<< 20) / 2 ^ 28 = 6
      ∧ (6 <<< 28 ||| n <<< 20) >>> 20 &&& 3 = n &&& 3 := by decide +kernel
  have hd := hall d.toNat d.toNat_lt
  refine ⟨hd.1, hd.2.1, ?_⟩
  rw [outerFlow, hd.2.2, ← ecn_ofNat, UInt8.ofNat_toNat]

/-- The version of a header, from its first word. -/
theorem ipV_of_load {b : Nat → UInt8} {a x : Nat} (h : load b a 4 = toBe 4 x)
    (hx : x < 2 ^ 32) : ipV b a = x / 2 ^ 28 := by
  have hval := congrArg ofBe h
  rw [ofBe_toBe_four, Nat.mod_eq_of_lt hx, load_succ] at hval
  have hcons : ofBe (b a :: load b (a + 1) 3)
      = (b a).toNat * 2 ^ 24 + ofBe (load b (a + 1) 3) := by
    rw [ofBe, length_load, show 256 ^ 3 = 2 ^ 24 from rfl]
  have hlow := ofBe_lt (load b (a + 1) 3)
  rw [length_load] at hlow
  rw [ipV]
  omega

end Ipip
