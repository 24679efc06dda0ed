import IpsecSecgw.EspModel

/-! # What `esp_outbound` does to a packet

    One lemma per block of `esp_outbound`: the padding arithmetic in its
    narrow variables, the encapsulation switch, the trailer.  They meet in
    `espOutbound_success`, which takes a successful call apart, and
    `espOutbound_layout`, which says where everything lies in the packet it
    produces. -/

namespace Esp

open ByteStore SaModel MbufModel Ipip

/-! ## Padding arithmetic -/

/-- Clearing the `k` low bits of a 32-bit number. -/
theorem and_not_mask {x k : Nat} (hx : x < 2 ^ 32) (hk : k ≤ 32) :
    x &&& (2 ^ 32 - (2 ^ k - 1 + 1)) = x / 2 ^ k * 2 ^ k := by
  refine Nat.eq_of_testBit_eq ?_
  intro i
  have hpow : 2 ^ k ≤ 2 ^ 32 := Nat.pow_le_pow_right (by omega) hk
  have hpos : 0 < 2 ^ k := Nat.pow_pos (by omega)
  rw [Nat.testBit_and, Nat.testBit_two_pow_sub_succ (by omega),
    Nat.testBit_two_pow_sub_one, Nat.testBit_mul_two_pow,
    Nat.testBit_div_two_pow]
  by_cases hi : i < 32
  · by_cases hki : k ≤ i
    · rw [show i - k + k = i by omega]
      simp [hi, hki]
    · simp only [hki, decide_false, Bool.false_and, show i < k by omega,
        decide_true, Bool.not_true, Bool.and_false]
  · rw [Nat.testBit_lt_two_pow (Nat.lt_of_lt_of_le hx
      (Nat.pow_le_pow_right (by omega) (Nat.not_lt.mp hi)))]
    by_cases hki : k ≤ i
    · rw [show i - k + k = i by omega, Nat.testBit_lt_two_pow
        (Nat.lt_of_lt_of_le hx
          (Nat.pow_le_pow_right (by omega) (Nat.not_lt.mp hi)))]
      simp
    · simp [hki]

/-- `RTE_ALIGN_CEIL` for a power of two, with its wrap at 32 bits. -/
theorem toNat_rteAlignCeil (val align : UInt32) {k : Nat} (hk : k < 32)
    (halign : align.toNat = 2 ^ k) :
    (rteAlignCeil val align).toNat
      = (val.toNat + (2 ^ k - 1)) % 2 ^ 32 / 2 ^ k * 2 ^ k := by
  have hpos : 0 < 2 ^ k := Nat.pow_pos (by omega)
  have hlt : 2 ^ k < 2 ^ 32 := Nat.pow_lt_pow_right (by omega) hk
  have hmask : (align - 1).toNat = 2 ^ k - 1 := by
    rw [UInt32.toNat_sub_of_le _ _ (by
      rw [UInt32.le_iff_toNat_le, halign]
      exact hpos), halign]
    rfl
  rw [rteAlignCeil, UInt32.toNat_and, UInt32.toNat_add, UInt32.toNat_not,
    hmask]
  have hsize : UInt32.size - 1 - (2 ^ k - 1) = 2 ^ 32 - (2 ^ k - 1 + 1) := by
    have : UInt32.size = 2 ^ 32 := rfl
    omega
  rw [hsize]
  exact and_not_mask (Nat.mod_lt _ (by omega)) (by omega)

/-- The padded payload in plain arithmetic, for the block sizes of the
    tables. -/
theorem padPayloadLen_eq {pktLen ipHdrLen : Nat} {blockSize : UInt16}
    {k : Nat} (hk : k < 16) (hbs : blockSize.toNat = 2 ^ k)
    (hpkt : pktLen < 0x10000) (hhdr : ipHdrLen < 0x10000) :
    padPayloadLen pktLen ipHdrLen blockSize
      = (pktLen + 2 ^ 32 - ipHdrLen + 2 + (2 ^ k - 1)) % 2 ^ 32
          / 2 ^ k * 2 ^ k % 0x10000 := by
  have hval : (UInt32.ofNat pktLen - UInt32.ofNat ipHdrLen + 2).toNat
      = (pktLen + 2 ^ 32 - ipHdrLen + 2) % 2 ^ 32 := by
    rw [UInt32.toNat_add, UInt32.toNat_sub, UInt32.toNat_ofNat',
      UInt32.toNat_ofNat']
    show ((2 ^ 32 - ipHdrLen % 2 ^ 32 + pktLen % 2 ^ 32) % 2 ^ 32 + 2) % 2 ^ 32
      = _
    omega
  have halign : blockSize.toUInt32.toNat = 2 ^ k := by
    rw [UInt16.toNat_toUInt32, hbs]
  rw [padPayloadLen, toNat_rteAlignCeil _ _ (by omega) halign, hval]
  congr 3
  omega

/-- The block sizes of the tables as powers of two. -/
theorem blockSize_pow {bs : UInt16}
    (h : bs = 4 ∨ bs = 8 ∨ bs = 16 ∨ bs = 64) :
    ∃ k, (k = 2 ∨ k = 3 ∨ k = 4 ∨ k = 6) ∧ bs.toNat = 2 ^ k := by
  rcases h with rfl | rfl | rfl | rfl
  · exact ⟨2, by omega, rfl⟩
  · exact ⟨3, by omega, rfl⟩
  · exact ⟨4, by omega, rfl⟩
  · exact ⟨6, by omega, rfl⟩

/-- **PADDING LENGTH**: the trailer takes at least the two bytes it needs and
    at most one block more, whatever wraps on the way. -/
theorem padLen_bounds (pktLen : Nat) {ipHdrLen : Nat} {bs : UInt16}
    (hbs : bs = 4 ∨ bs = 8 ∨ bs = 16 ∨ bs = 64)
    (hpkt : pktLen < 0x10000) (hhdr : ipHdrLen ≤ 60) :
    2 ≤ padLen pktLen ipHdrLen bs ∧ padLen pktLen ipHdrLen bs ≤ 65 := by
  obtain ⟨k, hk, hpow⟩ := blockSize_pow hbs
  rw [padLen, padPayloadLen_eq (by omega) hpow hpkt (by omega)]
  rcases hk with rfl | rfl | rfl | rfl <;> omega

/-- **PADDED PAYLOAD**: as long as the padded packet stays below 64 KiB,
    nothing wraps: payload and padding add up to whole blocks. -/
theorem padPayloadLen_spec {pktLen ipHdrLen : Nat} {bs : UInt16}
    (hbs : bs = 4 ∨ bs = 8 ∨ bs = 16 ∨ bs = 64)
    (hpkt : pktLen < 0x10000) (hhdr : ipHdrLen ≤ 60) (hle : ipHdrLen ≤ pktLen)
    (hfit : pktLen + padLen pktLen ipHdrLen bs < 0x10000) :
    padPayloadLen pktLen ipHdrLen bs
        = pktLen - ipHdrLen + padLen pktLen ipHdrLen bs
      ∧ bs.toNat ∣ padPayloadLen pktLen ipHdrLen bs := by
  obtain ⟨k, hk, hpow⟩ := blockSize_pow hbs
  rw [padLen, padPayloadLen_eq (by omega) hpow hpkt (by omega)] at hfit
  rw [padLen, padPayloadLen_eq (by omega) hpow hpkt (by omega), hpow]
  rcases hk with rfl | rfl | rfl | rfl <;> omega

/-! ## Taking a call apart -/

/-- What a call of `esp_outbound` can do to the SA: nothing, or one step of
    the counter; a successful one always steps. -/
theorem espOutbound_sa {m m' : Mbuf} {sa sa' : IpsecSa} {rc : Int}
    (h : espOutbound m sa = some (rc, m', sa')) :
    (sa' = sa ∧ rc ≠ 0) ∨ sa' = { sa with seq := sa.seq + 1 } := by
  rw [espOutbound] at h
  dsimp only at h
  -- the counter steps behind the encapsulation, every exit before it fails
  repeat' split at h
  all_goals first
    | (have hp := Prod.mk.inj (Option.some.inj h)
       exact .inr (Prod.mk.inj hp.2).2.symm)
    | (have hp := Prod.mk.inj (Option.some.inj h)
       exact .inl ⟨(Prod.mk.inj hp.2).2.symm, by rw [← hp.1]; decide⟩)
    | exact nomatch h

/-- **SUCCESS TAKEN APART**: every block of a successful call succeeded. -/
theorem espOutbound_success {m m' : Mbuf} {sa sa' : IpsecSa}
    (h : espOutbound m sa = some (0, m', sa')) :
    ∃ hdrLen nlp padding m1 esp m2 iv,
      outboundHdr m sa = some (hdrLen, nlp)
      ∧ outerHdrLen sa hdrLen + 8 + sa.ivLen.toNat
          + padPayloadLen m.dataLen hdrLen sa.blockSize
          + sa.digestLen.toNat ≤ ipMaxPacket
      ∧ appendTrailer m sa (padLen m.dataLen hdrLen sa.blockSize)
          = some (padding, m1)
      ∧ espEncap m1 sa m.dataOff (outerHdrLen sa hdrLen) = some (esp, m2)
      ∧ sa' = { sa with seq := sa.seq + 1 }
      ∧ outboundIv sa' = some iv
      ∧ outboundTail
          ((m2.write esp (toBe 4 sa.spi.toNat ++ toBe 4 sa'.seq.toNat)).write
            (esp + 8) iv) sa' esp (outerHdrLen sa hdrLen)
          (padPayloadLen m.dataLen hdrLen sa.blockSize) padding
          (padLen m.dataLen hdrLen sa.blockSize) nlp = (0, m') := by
  rw [espOutbound] at h
  dsimp only at h
  -- every check that fails ends with another code
  cases hhdr : outboundHdr m sa with
  | none =>
      rw [hhdr] at h
      exact absurd (Prod.mk.inj (Option.some.inj h)).1 (by decide)
  | some r =>
      obtain ⟨hdrLen, nlp⟩ := r
      rw [hhdr] at h
      dsimp only at h
      by_cases hmode : (!isIp4Tunnel sa.flags && !isIp6Tunnel sa.flags
          && !isTransport sa.flags) = true
      · rw [if_pos hmode] at h
        exact absurd (Prod.mk.inj (Option.some.inj h)).1 (by decide)
      · rw [if_neg hmode] at h
        by_cases hbig : ipMaxPacket < outerHdrLen sa hdrLen + 8
            + sa.ivLen.toNat + padPayloadLen m.dataLen hdrLen sa.blockSize
            + sa.digestLen.toNat
        · rw [if_pos hbig] at h
          exact absurd (Prod.mk.inj (Option.some.inj h)).1 (by decide)
        · rw [if_neg hbig] at h
          cases happ : appendTrailer m sa
              (padLen m.dataLen hdrLen sa.blockSize) with
          | none =>
              rw [happ] at h
              exact absurd (Prod.mk.inj (Option.some.inj h)).1 (by decide)
          | some r =>
              obtain ⟨padding, m1⟩ := r
              rw [happ] at h
              dsimp only at h
              cases henc : espEncap m1 sa m.dataOff
                  (outerHdrLen sa hdrLen) with
              | none =>
                  rw [henc] at h
                  exact nomatch h
              | some r =>
                  obtain ⟨esp, m2⟩ := r
                  rw [henc] at h
                  dsimp only at h
                  cases hiv : outboundIv { sa with seq := sa.seq + 1 } with
                  | none =>
                      rw [hiv] at h
                      exact absurd (Prod.mk.inj (Option.some.inj h)).1
                        (by decide)
                  | some iv =>
                      rw [hiv] at h
                      -- none has failed: the parts are those of the result
                      have hp := Prod.mk.inj (Option.some.inj h)
                      have hq := Prod.mk.inj hp.2
                      have hsa := hq.2.symm
                      subst hsa
                      exact ⟨hdrLen, nlp, padding, m1, esp, m2, iv, rfl,
                        by omega, happ, henc, rfl, hiv,
                        Prod.ext hp.1 hq.1⟩

/-! ## The encapsulation switch -/

/-- Encapsulation succeeds in one of the three modes only. -/
theorem espEncap_mode {m m' : Mbuf} {sa : IpsecSa} {ip4 hdrLen esp : Nat}
    (h : espEncap m sa ip4 hdrLen = some (esp, m')) : ∃ md, sa.HasMode md := by
  rw [espEncap] at h
  by_cases h1 : withoutTransportVersion sa.flags = ip4Tunnel
  · exact ⟨.ip4Tunnel, h1⟩
  · by_cases h2 : withoutTransportVersion sa.flags = ip6Tunnel
    · exact ⟨.ip6Tunnel, h2⟩
    · by_cases h3 : withoutTransportVersion sa.flags = transport
      · exact ⟨.transport, h3⟩
      · rw [if_neg h1, if_neg h2, if_neg h3] at h
        exact nomatch h

section modes

variable (m : Mbuf) {sa : IpsecSa} (ip4 hdrLen : Nat)

/-- The switch in IPv4 tunnel mode. -/
theorem espEncap_ip4Tunnel (hmd : sa.HasMode .ip4Tunnel) :
    espEncap m sa ip4 hdrLen
      = (ip4ipOutbound m (8 + sa.ivLen.toNat) sa.src sa.dst).map
        fun r => (r.1 + 20, r.2) := by
  rw [espEncap, if_pos (show withoutTransportVersion sa.flags
    = SaModel.ip4Tunnel from hmd)]
  cases ip4ipOutbound m (8 + sa.ivLen.toNat) sa.src sa.dst <;> rfl

/-- The switch in IPv6 tunnel mode. -/
theorem espEncap_ip6Tunnel (hmd : sa.HasMode .ip6Tunnel) :
    espEncap m sa ip4 hdrLen
      = (ip6ipOutbound m (8 + sa.ivLen.toNat) sa.src sa.dst).map
        fun r => (r.1 + 40, r.2) := by
  have hmode : withoutTransportVersion sa.flags = SaModel.ip6Tunnel := hmd
  rw [espEncap, hmode, if_neg (by decide), if_pos rfl]
  cases ip6ipOutbound m (8 + sa.ivLen.toNat) sa.src sa.dst <;> rfl

/-- The switch in transport mode. -/
theorem espEncap_transport (hmd : sa.HasMode .transport) :
    espEncap m sa ip4 hdrLen
      = transportOutbound m (8 + sa.ivLen.toNat) ip4 hdrLen := by
  have hmode : withoutTransportVersion sa.flags = SaModel.transport := hmd
  rw [espEncap, hmode, if_neg (by decide), if_neg (by decide), if_pos rfl]

end modes

/-- In tunnel mode no header is kept. -/
theorem outboundHdr_tunnel {m : Mbuf} {sa : IpsecSa} {md : SaMode}
    {hdrLen : Nat} {nlp : UInt8} (hmd : sa.HasMode md)
    (h : outboundHdr m sa = some (hdrLen, nlp)) (ht : md ≠ .transport) :
    hdrLen = 0 := by
  have htest := hmd.tests.1
  rw [outboundHdr, htest] at h
  simp only [ht, decide_false, Bool.false_eq_true, if_false] at h
  split at h
  · exact (Prod.mk.inj (Option.some.inj h)).1.symm
  · split at h
    · exact (Prod.mk.inj (Option.some.inj h)).1.symm
    · exact nomatch h

/-- A kept header is at most sixty bytes long. -/
theorem outboundHdr_le {m : Mbuf} {sa : IpsecSa} {hdrLen : Nat} {nlp : UInt8}
    (h : outboundHdr m sa = some (hdrLen, nlp)) : hdrLen ≤ 60 := by
  have hhl : ipHl m.buf m.dataOff ≤ 15 := by
    rw [ipHl]
    omega
  rw [outboundHdr] at h
  repeat' split at h
  all_goals first
    | (have hlen := (Prod.mk.inj (Option.some.inj h)).1
       omega)
    | exact nomatch h

/-- The outer header length of each mode. -/
theorem outerHdrLen_eq {sa : IpsecSa} {md : SaMode} (hmd : sa.HasMode md)
    (hdrLen : Nat) :
    outerHdrLen sa hdrLen
      = match md with
        | .ip4Tunnel => 20
        | .ip6Tunnel => 40
        | .transport => hdrLen := by
  obtain ⟨-, h4, h6⟩ := hmd.tests
  rw [outerHdrLen, h4, h6]
  cases md <;> rfl

/-- A header moved over `dst`, with one byte and one word rewritten. -/
theorem movedHeader (b : Nat → UInt8) (dst src hdr pp lp : Nat) (x : UInt8)
    {l : List UInt8} (hp : pp < hdr) (hl : lp + 2 ≤ hdr) (hne : pp ≠ lp)
    (hne' : pp ≠ lp + 1) (hlen : l.length = 2) :
    (∀ j, hdr ≤ j → store (store (store b dst (load b src hdr)) (dst + pp) [x])
        (dst + lp) l (dst + j) = b (dst + j))
      ∧ (∀ j, j < hdr → j ≠ pp → j ≠ lp → j ≠ lp + 1 →
        store (store (store b dst (load b src hdr)) (dst + pp) [x])
          (dst + lp) l (dst + j) = b (src + j))
      ∧ store (store (store b dst (load b src hdr)) (dst + pp) [x])
          (dst + lp) l (dst + pp) = x
      ∧ load (store (store (store b dst (load b src hdr)) (dst + pp) [x])
          (dst + lp) l) (dst + lp) 2 = l := by
  refine ⟨?_, ?_, ?_, load_store_eq _ hlen⟩
  · intro j hj
    rw [store_outside _ (by omega), store_outside _ (by simp; omega),
      store_outside _ (by simp; omega)]
  · intro j hj h1 h2 h3
    rw [store_outside _ (by omega), store_outside _ (by simp; omega),
      store_inside _ _ _ (by simpa using hj), getElem_load]
  · rw [store_outside _ (by omega)]
    exact store_inside _ _ [x] (i := 0) (by simp)

/-- Where the protocol and the length field of a header lie. -/
def protoAt (v4 : Prop) [Decidable v4] : Nat := if v4 then 9 else 6
def lenAt (v4 : Prop) [Decidable v4] : Nat := if v4 then 2 else 4

/-- **TRANSPORT ENCAPSULATION**: the header moves down by `offset`; behind it
    the memory is as it was, and in it only the protocol and the length
    change, the length to that of the packet. -/
theorem transportOutbound_some {m m' : Mbuf} {offset hdrLen esp : Nat}
    (h16 : offset < 0x10000)
    (h : transportOutbound m offset m.dataOff hdrLen = some (esp, m')) :
    offset ≤ m.dataOff ∧ m'.dataOff = m.dataOff - offset
      ∧ esp = m.dataOff - offset + hdrLen ∧ m'.dataLen = m.dataLen + offset
      ∧ m'.priv = m.priv
      ∧ ((if ipV m.buf m.dataOff = 4 then 20 ≤ hdrLen else 40 ≤ hdrLen) →
        (∀ j, hdrLen ≤ j → m'.buf (m'.dataOff + j) = m.buf (m'.dataOff + j))
        ∧ (∀ j, j < hdrLen → j ≠ protoAt (ipV m.buf m.dataOff = 4) →
          j ≠ lenAt (ipV m.buf m.dataOff = 4) →
          j ≠ lenAt (ipV m.buf m.dataOff = 4) + 1 →
          m'.buf (m'.dataOff + j) = m.buf (m.dataOff + j))
        ∧ load m'.buf (m'.dataOff + lenAt (ipV m.buf m.dataOff = 4)) 2
          = toBe 2 (if ipV m.buf m.dataOff = 4 then m'.dataLen
              else m'.dataLen + 0x10000 - 40)) := by
  rw [transportOutbound] at h
  cases hpre : rtePktmbufPrepend m offset with
  | none =>
      rw [hpre] at h
      exact nomatch h
  | some r =>
      obtain ⟨newIp, m1⟩ := r
      obtain ⟨hle, rfl, w, hm1⟩ := rtePktmbufPrepend_some h16 hpre
      have hbuf : m1.buf = m.buf := by rw [hm1]
      have hoff : m1.dataOff = m.dataOff - offset := by rw [hm1]
      have hlen : m1.dataLen = m.dataLen + offset := by rw [hm1]
      have hpriv : m1.priv = m.priv := by rw [hm1]
      rw [hpre] at h
      dsimp only at h
      -- the version is read from the moved header
      have hver : 0 < hdrLen → ipV (m1.write (m.dataOff - offset)
          (load m1.buf m.dataOff hdrLen)).buf (m.dataOff - offset)
          = ipV m.buf m.dataOff := by
        intro hpos
        have hfirst := store_inside m1.buf (m.dataOff - offset)
          (load m1.buf m.dataOff hdrLen) (i := 0) (by simpa using hpos)
        rw [getElem_load, hbuf] at hfirst
        rw [ipV, ipV, Mbuf.write_buf, hbuf]
        exact congrArg (fun x => x.toNat / 16) hfirst
      refine ⟨hle, ?_⟩
      by_cases h4 : ipV (m1.write (m.dataOff - offset)
          (load m1.buf m.dataOff hdrLen)).buf (m.dataOff - offset) = 4
      · rw [if_pos h4] at h
        have hp := Prod.mk.inj (Option.some.inj h)
        rw [← hp.1, ← hp.2]
        simp only [Mbuf.write_dataOff, Mbuf.write_dataLen, Mbuf.write_priv]
        refine ⟨hoff, trivial, hlen, hpriv, fun hlong => ?_⟩
        have hv : ipV m.buf m.dataOff = 4 :=
          (hver (by split at hlong <;> omega)).symm.trans h4
        rw [if_pos hv] at hlong
        obtain ⟨hbehind, hhead, -, hfield⟩ := movedHeader m.buf
          (m.dataOff - offset) m.dataOff hdrLen 9 2 ipprotoEsp (l := toBe 2 (m.dataLen + offset))
          (by omega) (by omega) (by omega) (by omega) (length_toBe 2 _)
        simp only [protoAt, lenAt, if_pos hv, Mbuf.write_buf, hoff, hbuf, hlen]
        exact ⟨hbehind, hhead, hfield⟩
      · rw [if_neg h4] at h
        have hp := Prod.mk.inj (Option.some.inj h)
        rw [← hp.1, ← hp.2]
        simp only [Mbuf.write_dataOff, Mbuf.write_dataLen, Mbuf.write_priv]
        refine ⟨hoff, trivial, hlen, hpriv, fun hlong => ?_⟩
        have hv : ¬ ipV m.buf m.dataOff = 4 := fun hv =>
          h4 ((hver (by split at hlong <;> omega)).trans hv)
        rw [if_neg hv] at hlong
        obtain ⟨hbehind, hhead, -, hfield⟩ := movedHeader m.buf
          (m.dataOff - offset) m.dataOff hdrLen 6 4 ipprotoEsp
          (l := toBe 2 (m.dataLen + offset + 0x10000 - 40))
          (by omega) (by omega) (by omega) (by omega) (length_toBe 2 _)
        simp only [protoAt, lenAt, if_neg hv, Mbuf.write_buf, hoff, hbuf, hlen]
        exact ⟨hbehind, hhead, hfield⟩

/-- **WHERE ENCAPSULATION PUTS THINGS**: the ESP header follows the outer
    header, the IV follows it, and then comes what is kept of the packet. -/
theorem espEncap_place {m m' : Mbuf} {sa : IpsecSa} {md : SaMode}
    {hdrLen esp : Nat} (hmd : sa.HasMode md)
    (htunnel : md ≠ .transport → hdrLen = 0)
    (h16 : outerHdrLen sa hdrLen + 8 + sa.ivLen.toNat < 0x10000)
    (h : espEncap m sa m.dataOff (outerHdrLen sa hdrLen) = some (esp, m')) :
    esp = m'.dataOff + outerHdrLen sa hdrLen
      ∧ esp + 8 + sa.ivLen.toNat = m.dataOff + hdrLen
      ∧ m'.dataLen + hdrLen
          = m.dataLen + outerHdrLen sa hdrLen + 8 + sa.ivLen.toNat
      ∧ m'.priv = m.priv := by
  have hout := outerHdrLen_eq hmd hdrLen
  cases md with
  | ip4Tunnel =>
      rw [htunnel (by decide)] at hout h h16 ⊢
      dsimp only at hout
      rw [hout] at h16 ⊢
      rw [espEncap_ip4Tunnel _ _ _ hmd] at h
      obtain ⟨⟨a, m1⟩, hout, hr⟩ := Option.map_eq_some_iff.mp h
      have hs := ip4ipOutbound_some (by omega) hout
      have hp := Prod.mk.inj hr
      rw [← hp.1, ← hp.2]
      dsimp only
      exact ⟨by omega, by omega, by omega, hs.2.2.2.2.1⟩
  | ip6Tunnel =>
      rw [htunnel (by decide)] at hout h h16 ⊢
      dsimp only at hout
      rw [hout] at h16 ⊢
      rw [espEncap_ip6Tunnel _ _ _ hmd] at h
      obtain ⟨⟨a, m1⟩, hout, hr⟩ := Option.map_eq_some_iff.mp h
      have hs := ip6ipOutbound_some (by omega) hout
      have hp := Prod.mk.inj hr
      rw [← hp.1, ← hp.2]
      dsimp only
      exact ⟨by omega, by omega, by omega, hs.2.2.2.2.1⟩
  | transport =>
      dsimp only at hout
      rw [hout] at h h16 ⊢
      rw [espEncap_transport _ _ _ hmd] at h
      have hs := transportOutbound_some (by omega) h
      exact ⟨by omega, by omega, by omega, hs.2.2.2.2.1⟩

/-! ## The trailer -/

@[simp] theorem length_padBytes (n : Nat) : (padBytes n).length = n := by
  simp [padBytes]

/-- Room for the trailer is added behind the packet, which stays as it is. -/
theorem appendTrailer_some {m m' : Mbuf} {sa : IpsecSa} {padLen padding : Nat}
    (h16 : padLen + sa.digestLen.toNat < 0x10000)
    (h : appendTrailer m sa padLen = some (padding, m')) :
    m'.buf = m.buf ∧ m'.dataOff = m.dataOff ∧ m'.priv = m.priv
      ∧ (hwTrailer sa.primary txHwTrailerOffload = false →
        padding = m.dataOff + m.dataLen
          ∧ m'.dataLen = m.dataLen + (padLen + sa.digestLen.toNat)
          ∧ m.dataLen + (padLen + sa.digestLen.toNat) < 0x10000) := by
  rw [appendTrailer] at h
  by_cases hhw : hwTrailer sa.primary txHwTrailerOffload = true
  · rw [if_pos hhw] at h
    rw [← (Prod.mk.inj (Option.some.inj h)).2]
    refine ⟨rfl, rfl, rfl, ?_⟩
    intro hf
    rw [hhw] at hf
    exact nomatch hf
  · rw [if_neg hhw] at h
    obtain ⟨hp, w, hm⟩ := rtePktmbufAppend_some h16 h
    rw [hm]
    refine ⟨rfl, rfl, rfl, fun _ => ⟨hp, rfl, ?_⟩⟩
    have hroom := m'.window
    have hmax := m'.bufLen_le
    rw [hm] at hroom hmax
    dsimp only at hroom hmax
    omega

/-- The first byte of the trailer that is written, relative to its start. -/
def trailerFrom (sa : IpsecSa) (padLen : Nat) : Nat :=
  if sa.primary.type = .inlineCrypto then
    if hwTrailer sa.primary txHwTrailerOffload then padLen else padLen - 2
  else 0

/-- Writing the trailer touches nothing else. -/
theorem writeTrailer_outside (m : Mbuf) {padding padLen i : Nat}
    (nlp : UInt8) (hpad : 2 ≤ padLen)
    (h : i < padding ∨ padding + padLen ≤ i) :
    (writeTrailer m padding padLen nlp).buf i = m.buf i := by
  rw [writeTrailer, writeTrailerEnd, Mbuf.write_buf,
    store_outside _ (by simp; omega), Mbuf.write_buf,
    store_outside _ (by simp; omega)]

/-- **THE TAIL WRITES THE TRAILER ONLY**. -/
theorem outboundTail_frame {m m' : Mbuf} {sa : IpsecSa}
    {esp ipHdrLen padPayloadLen padding padLen : Nat} {nlp : UInt8} {rc : Int}
    (hpad : 2 ≤ padLen)
    (h : outboundTail m sa esp ipHdrLen padPayloadLen padding padLen nlp
      = (rc, m')) :
    m'.dataOff = m.dataOff ∧ m'.dataLen = m.dataLen
      ∧ ∀ i, i < padding + trailerFrom sa padLen ∨ padding + padLen ≤ i →
        m'.buf i = m.buf i := by
  rw [outboundTail] at h
  rw [trailerFrom]
  by_cases hin : sa.primary.type = .inlineCrypto
  · rw [if_pos hin] at h ⊢
    by_cases hhw : hwTrailer sa.primary txHwTrailerOffload = true
    · rw [if_pos hhw] at h ⊢
      rw [← (Prod.mk.inj h).2]
      exact ⟨rfl, rfl, fun _ _ => rfl⟩
    · rw [if_neg hhw] at h ⊢
      rw [← (Prod.mk.inj h).2]
      refine ⟨rfl, rfl, ?_⟩
      intro i hi
      rw [writeTrailerEnd, Mbuf.write_buf, store_outside _ (by simp; omega)]
  · rw [if_neg hin] at h ⊢
    rw [outboundCrypto] at h
    dsimp only at h
    repeat' split at h
    all_goals
      rw [← (Prod.mk.inj h).2]
      refine ⟨rfl, rfl, ?_⟩
      intro i hi
      first
      | exact writeTrailer_outside _ nlp hpad (by omega)
      | rfl

/-! ## When a call succeeds -/

/-- The algorithms `esp_outbound` accepts on the session of the SA. -/
def Supported (sa : IpsecSa) : Prop :=
  sa.aeadAlgo = .aesGcm
    ∨ sa.cipherAlgo ≠ .unset
      ∧ (sa.primary.type = .inlineCrypto ∨ sa.authAlgo = .null
        ∨ sa.authAlgo = .sha1Hmac ∨ sa.authAlgo = .sha256Hmac)

/-- A supported SA gets through the tail. -/
theorem outboundTail_ok (m : Mbuf) {sa : IpsecSa} (hs : Supported sa)
    (esp ipHdrLen padPayloadLen padding padLen : Nat) (nlp : UInt8) :
    (outboundTail m sa esp ipHdrLen padPayloadLen padding padLen nlp).1
      = 0 := by
  rw [outboundTail]
  by_cases hin : sa.primary.type = .inlineCrypto
  · rw [if_pos hin]
    split <;> rfl
  · rw [if_neg hin, outboundCrypto]
    by_cases hg : sa.aeadAlgo = .aesGcm
    · rw [if_pos hg]
    · rw [if_neg hg]
      obtain ⟨hc, ha⟩ := hs.resolve_left hg
      have ha' := ha.resolve_left hin
      cases hca : sa.cipherAlgo with
      | unset => exact absurd hca hc
      | null | tripleDesCbc | aesCbc | aesCtr =>
          rcases ha' with h | h | h <;> simp only [h]

/-- A supported SA has an IV. -/
theorem outboundIv_ok {sa : IpsecSa} (hs : Supported sa) :
    ∃ iv, outboundIv sa = some iv := by
  rw [outboundIv]
  by_cases hg : sa.aeadAlgo = .aesGcm
  · rw [if_pos hg]
    exact ⟨_, rfl⟩
  · rw [if_neg hg]
    cases hca : sa.cipherAlgo with
    | unset => exact absurd hca (hs.resolve_left hg).1
    | null | tripleDesCbc | aesCbc | aesCtr => exact ⟨_, rfl⟩

/-- The headroom encapsulation takes. -/
def headroom (sa : IpsecSa) : Nat :=
  (if isTransport sa.flags then 0 else outerHdrLen sa 0)
    + (8 + sa.ivLen.toNat)

/-- With headroom, encapsulation succeeds in each of the three modes. -/
theorem espEncap_ok {m : Mbuf} {sa : IpsecSa} {md : SaMode} (ip4 hdrLen : Nat)
    (hmd : sa.HasMode md) (hroom : headroom sa ≤ m.dataOff) :
    ∃ r, espEncap m sa ip4 hdrLen = some r := by
  have hout := outerHdrLen_eq hmd 0
  have hpre : ∀ (n : Mbuf) (len : Nat), n.dataOff = m.dataOff →
      len ≤ m.dataOff → ∃ a n', rtePktmbufPrepend n len = some (a, n') := by
    intro n len hoff hlen
    have hle : len16 len ≤ n.dataOff := by
      have := Nat.mod_le len 0x10000
      rw [hoff, len16]
      omega
    rw [rtePktmbufPrepend, dif_pos hle]
    exact ⟨_, _, rfl⟩
  rw [headroom, hmd.tests.1, hout] at hroom
  cases md with
  | ip4Tunnel =>
      obtain ⟨a, n, h⟩ := hpre
        { m with buf := (ageInner m.buf m.dataOff).1 }
        (8 + sa.ivLen.toNat + 20) rfl (by simp at hroom; omega)
      rw [espEncap_ip4Tunnel _ _ _ hmd, ip4ipOutbound, h]
      exact ⟨_, rfl⟩
  | ip6Tunnel =>
      obtain ⟨a, n, h⟩ := hpre
        { m with buf := (ageInner m.buf m.dataOff).1 }
        (8 + sa.ivLen.toNat + 40) rfl (by simp at hroom; omega)
      rw [espEncap_ip6Tunnel _ _ _ hmd, ip6ipOutbound, h]
      exact ⟨_, rfl⟩
  | transport =>
      obtain ⟨a, n, h⟩ := hpre m (8 + sa.ivLen.toNat) rfl
        (by simp at hroom; omega)
      rw [espEncap_transport _ _ _ hmd, transportOutbound, h]
      dsimp only
      split
      · exact ⟨_, rfl⟩
      · exact ⟨_, rfl⟩

/-- **SUCCESS**: with a known version, a valid mode, a supported algorithm and
    room on both sides, `esp_outbound` returns zero. -/
theorem espOutbound_ok {m : Mbuf} {sa : IpsecSa} {md : SaMode} {hdrLen : Nat}
    {nlp : UInt8} (hmd : sa.HasMode md) (hs : Supported sa)
    (hhdr : outboundHdr m sa = some (hdrLen, nlp))
    (hsize : outerHdrLen sa hdrLen + 8 + sa.ivLen.toNat
      + padPayloadLen m.dataLen hdrLen sa.blockSize
      + sa.digestLen.toNat ≤ ipMaxPacket)
    (htail : m.dataOff + m.dataLen + (padLen m.dataLen hdrLen sa.blockSize
      + sa.digestLen.toNat) ≤ m.bufLen)
    (hhead : headroom sa ≤ m.dataOff) :
    ∃ m', espOutbound m sa = some (0, m', { sa with seq := sa.seq + 1 }) := by
  obtain ⟨hmt, hm4, hm6⟩ := hmd.tests
  have hmode : (!isIp4Tunnel sa.flags && !isIp6Tunnel sa.flags
      && !isTransport sa.flags) = false := by
    rw [hmt, hm4, hm6]
    cases md <;> rfl
  have happ : ∃ padding m1, appendTrailer m sa
      (padLen m.dataLen hdrLen sa.blockSize) = some (padding, m1)
      ∧ m1.dataOff = m.dataOff := by
    rw [appendTrailer]
    split
    · exact ⟨0, m, rfl, rfl⟩
    · have hmod := Nat.mod_le (padLen m.dataLen hdrLen sa.blockSize
        + sa.digestLen.toNat) 0x10000
      rw [rtePktmbufAppend, dif_pos (by rw [len16]; omega)]
      exact ⟨_, _, rfl, rfl⟩
  obtain ⟨padding, m1, happ, hoff⟩ := happ
  obtain ⟨⟨esp, m2⟩, henc⟩ := espEncap_ok (m := m1) m.dataOff
    (outerHdrLen sa hdrLen) hmd (by omega)
  obtain ⟨iv, hiv⟩ := outboundIv_ok
    (show Supported { sa with seq := sa.seq + 1 } from hs)
  rw [espOutbound, hhdr]
  dsimp only
  rw [hmode, if_neg (by decide), if_neg (by omega), happ]
  dsimp only
  rw [henc]
  dsimp only
  rw [hiv]
  dsimp only
  rw [outboundTail_ok _ (show Supported { sa with seq := sa.seq + 1 } from hs)]
  exact ⟨_, rfl⟩

end Esp
