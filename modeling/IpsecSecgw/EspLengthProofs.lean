import IpsecSecgw.EspRoundTripProofs

/-! # The lengths `esp_outbound` writes

    The padded length and the padding live in 16-bit variables, and for packets
    close to 64 KiB the first of them wraps.  The size test then passes; what
    stops such a packet is that no buffer has the room for its trailer.

    * `espOutbound_built`: what a successful call leaves when the trailer is
      built in software, on whatever session.
    * `espOutbound_exact`: its length fields, trailer and traffic class; and a
      call refused before the encapsulation has changed nothing. -/

namespace EspLength

open ByteStore SaModel MbufModel Ipip Esp EspFrame EspRoundTrip

/-! ## Padding -/

/-- **NO MORE THAN ONE BLOCK**: the trailer is shorter than a block and its two
    fixed bytes. -/
theorem padLen_lt {pktLen ipHdrLen : Nat} {bs : UInt16}
    (hbs : bs = 4 ∨ bs = 8 ∨ bs = 16 ∨ bs = 64) (hpkt : pktLen < 0x10000)
    (hhdr : ipHdrLen ≤ 60) : padLen pktLen ipHdrLen bs < bs.toNat + 2 := by
  obtain ⟨k, hk, hpow⟩ := blockSize_pow hbs
  rw [padLen, padPayloadLen_eq (by omega) hpow hpkt (by omega), hpow]
  rcases hk with rfl | rfl | rfl | rfl <;> omega

/-- A multiple of the block size less than a block above a length is the
    smallest one that reaches it. -/
theorem least_multiple {bs n len : Nat} (hdvd : bs ∣ n) (hlt : n < len + bs) :
    ∀ k, bs ∣ k → len ≤ k → n ≤ k := by
  intro k hk hlen
  by_contra hgt
  have hstep : bs ≤ n - k :=
    Nat.le_of_dvd (by omega) (Nat.dvd_sub hdvd hk)
  omega

/-- The IV bytes written stay inside the IV field. -/
theorem outboundIv_le {sa : IpsecSa} {iv : List UInt8} (ht : sa.FromTables)
    (h : outboundIv sa = some iv) : iv.length ≤ sa.ivLen.toNat := by
  rw [outboundIv] at h
  by_cases hg : sa.aeadAlgo = .aesGcm
  · rw [if_pos hg] at h
    rw [← Option.some.inj h, length_toBe]
    exact ht.counter_ivLen (.inl hg)
  · rw [if_neg hg] at h
    cases hc : sa.cipherAlgo with
    | unset =>
        rw [hc] at h
        cases h
    | null | tripleDesCbc | aesCbc =>
        rw [hc] at h
        rw [← Option.some.inj h]
        exact Nat.le_of_eq (List.length_replicate ..)
    | aesCtr =>
        rw [hc] at h
        rw [← Option.some.inj h, length_toBe]
        exact ht.counter_ivLen (.inr hc)

/-! ## What a successful call leaves -/

/-- The two bytes at the end of a trailer built in software, whoever writes the
    rest. -/
theorem outboundTail_end {m m' : Mbuf} {sa : IpsecSa}
    {esp ipHdrLen padPayloadLen padding padLen : Nat} {nlp : UInt8}
    (hsoft : hwTrailer sa.primary txHwTrailerOffload = false)
    (h : outboundTail m sa esp ipHdrLen padPayloadLen padding padLen nlp
      = (0, m')) (hesp : esp = m.dataOff + ipHdrLen) :
    load m'.buf (padding + padLen - 2) 2 = [UInt8.ofNat padLen - 2, nlp]
      ∧ (sa.primary.type ≠ .inlineCrypto →
        m'.buf = (writeTrailer m padding padLen nlp).buf) := by
  rw [outboundTail] at h
  by_cases hin : sa.primary.type = .inlineCrypto
  · rw [if_pos hin, hsoft, if_neg (by decide)] at h
    rw [← (Prod.mk.inj h).2, writeTrailerEnd, Mbuf.write_buf]
    exact ⟨load_store_eq _ rfl, fun hne => absurd hin hne⟩
  · rw [if_neg hin] at h
    obtain ⟨hbuf, -⟩ := outboundCrypto_op h hesp
    rw [hbuf, writeTrailer, writeTrailerEnd, Mbuf.write_buf]
    exact ⟨load_store_eq _ rfl, fun _ => rfl⟩

/-- What a successful call leaves when the trailer is built in software: `m1`
    is the packet with room for the trailer, `m2` the encapsulated one. -/
structure Built (m m' : Mbuf) (sa sa' : IpsecSa) (hdrLen : Nat) (nlp : UInt8)
    (m1 m2 : Mbuf) : Prop where
  counter : sa' = { sa with seq := sa.seq + 1 }
  length : m'.dataLen = outerHdrLen sa hdrLen + 8 + sa.ivLen.toNat
    + (m.dataLen - hdrLen + padLen m.dataLen hdrLen sa.blockSize)
    + sa.digestLen.toNat
  payload : padPayloadLen m.dataLen hdrLen sa.blockSize
    = m.dataLen - hdrLen + padLen m.dataLen hdrLen sa.blockSize
  blocks : sa.blockSize.toNat ∣ padPayloadLen m.dataLen hdrLen sa.blockSize
  pad : 2 ≤ padLen m.dataLen hdrLen sa.blockSize
    ∧ padLen m.dataLen hdrLen sa.blockSize ≤ 65
  body : m'.dataOff + outerHdrLen sa hdrLen + 8 + sa.ivLen.toNat
    = m.dataOff + hdrLen
  room : m1.buf = m.buf ∧ m1.dataOff = m.dataOff
    ∧ m1.dataLen = m.dataLen + (padLen m.dataLen hdrLen sa.blockSize
      + sa.digestLen.toNat)
  encap : espEncap m1 sa m.dataOff (outerHdrLen sa hdrLen)
    = some (m'.dataOff + outerHdrLen sa hdrLen, m2)
  window : m2.dataOff = m'.dataOff ∧ m2.dataLen = m'.dataLen
  rest : ∀ i, i < m'.dataOff + outerHdrLen sa hdrLen
    ∨ m.dataOff + hdrLen ≤ i ∧ i < m.dataOff + m.dataLen
      + trailerFrom sa (padLen m.dataLen hdrLen sa.blockSize) →
    m'.buf i = m2.buf i
  last : load m'.buf (m.dataOff + m.dataLen
      + padLen m.dataLen hdrLen sa.blockSize - 2) 2
    = [UInt8.ofNat (padLen m.dataLen hdrLen sa.blockSize) - 2, nlp]
  trailer : sa.primary.type ≠ .inlineCrypto →
    load m'.buf (m.dataOff + m.dataLen) (padLen m.dataLen hdrLen sa.blockSize)
      = trailerBytes (padLen m.dataLen hdrLen sa.blockSize) nlp

/-- **BUILT IN SOFTWARE**. -/
theorem espOutbound_built {m m' : Mbuf} {sa sa' : IpsecSa} {md : SaMode}
    {hdrLen : Nat} {nlp : UInt8} (hmd : sa.HasMode md) (ht : sa.FromTables)
    (hsoft : hwTrailer sa.primary txHwTrailerOffload = false)
    (hhdr : outboundHdr m sa = some (hdrLen, nlp)) (hle : hdrLen ≤ m.dataLen)
    (h : espOutbound m sa = some (0, m', sa')) :
    ∃ m1 m2, Built m m' sa sa' hdrLen nlp m1 m2 := by
  obtain ⟨hbs, hiv16, hdig⟩ := ht.sizes
  obtain ⟨hdrLen', nlp', padding, m1, esp, m2, iv, hhdr', hsize, happ, henc,
    hsa, hiv, htail⟩ := espOutbound_success h
  rw [hhdr] at hhdr'
  obtain ⟨rfl, rfl⟩ := Prod.mk.inj (Option.some.inj hhdr')
  have hmax := m.bufLen_le
  have hwin := m.window
  have hhdr60 := outboundHdr_le hhdr
  have hbig : ipMaxPacket = 65535 := rfl
  have hpad := padLen_bounds m.dataLen hbs (by omega) hhdr60
  obtain ⟨hbuf1, hoff1, -, hplace⟩ := appendTrailer_some (by omega) happ
  obtain ⟨hpadding, hlen1, hfit⟩ := hplace hsoft
  -- the room found for the trailer is what rules a wrapped length out
  obtain ⟨hpay, hblocks⟩ := padPayloadLen_spec hbs (by omega) hhdr60 hle
    (by omega)
  have hivlen : iv.length ≤ sa.ivLen.toNat := by
    have ht' : sa'.FromTables := by rw [hsa]; exact ht
    have hfits := outboundIv_le ht' hiv
    rw [hsa] at hfits
    exact hfits
  rw [← hoff1] at henc
  obtain ⟨hesp, hend, hlen2, -⟩ := espEncap_place hmd
    (fun hne => outboundHdr_tunnel hmd hhdr hne) (by omega) henc
  rw [hoff1] at henc hend
  have hsoft' : hwTrailer sa'.primary txHwTrailerOffload = false := by
    rw [hsa]
    exact hsoft
  obtain ⟨hlast, htrail⟩ := outboundTail_end hsoft' htail hesp
  obtain ⟨hoff, hlen, hout⟩ := outboundTail_frame hpad.1 htail
  rw [Mbuf.write_dataOff, Mbuf.write_dataOff] at hoff
  rw [Mbuf.write_dataLen, Mbuf.write_dataLen] at hlen
  rw [← hoff] at hesp
  have hfrom : trailerFrom sa' (padLen m.dataLen hdrLen sa.blockSize)
      = trailerFrom sa (padLen m.dataLen hdrLen sa.blockSize) := by
    rw [hsa, trailerFrom, trailerFrom]
  rw [hfrom, hpadding] at hout
  rw [hpadding] at hlast htrail
  refine ⟨m1, m2, hsa, by omega, hpay, hblocks, hpad, by omega,
    ⟨hbuf1, hoff1, hlen1⟩, by rw [← hesp]; exact henc, ⟨hoff.symm, hlen.symm⟩,
    ?_, hlast, ?_⟩
  · intro i hi
    rw [hout i (by omega), Mbuf.write_buf, store_outside _ (by omega),
      Mbuf.write_buf, store_outside _ (by simp; omega)]
  · intro htype
    rw [htrail (by rw [hsa]; exact htype)]
    exact load_writeTrailer _ _ _ hpad.1

/-! ## Length fields and traffic class -/

/-- The outer IPv4 header carries the length of the packet. -/
theorem ip4ipOutbound_total {m m' : Mbuf} {offset a : Nat} {src dst : IpAddr}
    (h : ip4ipOutbound m offset src dst = some (a, m')) :
    load m'.buf (a + 2) 2 = toBe 2 m'.dataLen := by
  rw [ip4ipOutbound] at h
  dsimp only at h
  cases hpre : rtePktmbufPrepend
      { m with buf := (ageInner m.buf m.dataOff).1 } (offset + 20) with
  | none =>
      rw [hpre] at h
      cases h
  | some r =>
      obtain ⟨outip, m1⟩ := r
      rw [hpre] at h
      have hp := Prod.mk.inj (Option.some.inj h)
      rw [← hp.1, ← hp.2]
      dsimp only
      rw [Mbuf.write_buf, load_store_of_disjoint _ (by simp), Mbuf.write_buf,
        List.append_assoc, ← store_append, ← store_append]
      rw [load_store_of_disjoint _ (by simp), Mbuf.write_dataLen,
        Mbuf.write_dataLen]
      exact load_store_eq _ (length_toBe 2 _)

/-- The outer IPv6 header carries the length behind it. -/
theorem ip6ipOutbound_total {m m' : Mbuf} {offset a : Nat} {src dst : IpAddr}
    (h : ip6ipOutbound m offset src dst = some (a, m')) :
    load m'.buf (a + 4) 2 = toBe 2 (m'.dataLen - 40) := by
  rw [ip6ipOutbound] at h
  dsimp only at h
  cases hpre : rtePktmbufPrepend
      { m with buf := (ageInner m.buf m.dataOff).1 } (offset + 40) with
  | none =>
      rw [hpre] at h
      cases h
  | some r =>
      obtain ⟨outip, m1⟩ := r
      rw [hpre] at h
      have hp := Prod.mk.inj (Option.some.inj h)
      rw [← hp.1, ← hp.2]
      rw [Mbuf.write_buf, load_store_of_disjoint _ (by simp), Mbuf.write_buf,
        List.append_assoc, ← store_append, ← store_append, length_toBe,
        load_store_of_disjoint _ (by simp), Mbuf.write_dataLen,
        Mbuf.write_dataLen]
      exact load_store_eq _ (length_toBe 2 _)

/-- `ip_tos`, or the traffic class of an IPv6 header. -/
def trafficClass (b : Nat → UInt8) (a : Nat) : UInt8 :=
  if ipV b a = 4 then b (a + 1) else UInt8.ofNat (flowClass b a)

/-- Ageing keeps the traffic class, and `ds_ecn` is it. -/
theorem ageInner_class (b : Nat → UInt8) (a : Nat) :
    (ageInner b a).2 = trafficClass b a := by
  rw [ageInner, trafficClass]
  by_cases h4 : ipV b a = 4
  · rw [if_pos h4, if_pos h4]
    dsimp only
    exact decTtl_other b (by omega)
  · rw [if_neg h4, if_neg h4]
    have hword : load (decHops b a) a 4 = load b a 4 :=
      load_congr fun i hi => decHops_other _ (by omega)
    dsimp only
    rw [flowClass, flowClass, hword]

/-- The traffic class of an outer IPv6 header. -/
theorem outerFlow_class (d : UInt8) : UInt8.ofNat (outerFlow d >>> 20) = d := by
  have hall : ∀ n, n < 256 → (6 <<< 28 ||| n <<< 20) >>> 20 % 256 = n := by
    decide +kernel
  refine UInt8.toNat.inj ?_
  rw [UInt8.toNat_ofNat', outerFlow]
  exact hall d.toNat d.toNat_lt

/-- The length field of a header gives the length of the packet. -/
def TotalLen (m : Mbuf) : Prop :=
  if ipV m.buf m.dataOff = 4 then
    ofBe (load m.buf (m.dataOff + 2) 2) = m.dataLen
  else
    40 ≤ m.dataLen ∧ ofBe (load m.buf (m.dataOff + 4) 2) = m.dataLen - 40

/-- The length field depends on the bytes of the header alone. -/
theorem TotalLen.congr {m m' : Mbuf} (hoff : m'.dataOff = m.dataOff)
    (hlen : m'.dataLen = m.dataLen)
    (hbuf : ∀ i, i < 6 → m'.buf (m.dataOff + i) = m.buf (m.dataOff + i))
    (h : TotalLen m) : TotalLen m' := by
  have hfirst := hbuf 0 (by omega)
  have htwo : load m'.buf (m.dataOff + 2) 2 = load m.buf (m.dataOff + 2) 2 :=
    load_congr fun i hi => by
      rw [Nat.add_assoc]
      exact hbuf _ (by omega)
  have hfour : load m'.buf (m.dataOff + 4) 2 = load m.buf (m.dataOff + 4) 2 :=
    load_congr fun i hi => by
      rw [Nat.add_assoc]
      exact hbuf _ (by omega)
  rw [Nat.add_zero] at hfirst
  rw [TotalLen, ipV, hoff, hlen, hfirst, htwo, hfour]
  exact h

/-- A length below 64 KiB is read back from its two bytes. -/
theorem ofBe_two {b : Nat → UInt8} {a n : Nat} (h : load b a 2 = toBe 2 n)
    (hn : n < 0x10000) : ofBe (load b a 2) = n := by
  rw [h, ofBe_toBe]
  exact Nat.mod_eq_of_lt hn

/-- A complete IPv4 header, or the fixed IPv6 header, inside the packet. -/
def CompleteHeader (m : Mbuf) : Prop :=
  if ipV m.buf m.dataOff = 4 then
    20 ≤ ipHl m.buf m.dataOff * 4 ∧ ipHl m.buf m.dataOff * 4 ≤ m.dataLen
  else 40 ≤ m.dataLen

/-- A complete header is kept whole in transport mode. -/
theorem CompleteHeader.kept {m : Mbuf} {sa : IpsecSa} {hdrLen : Nat}
    {nlp : UInt8} (hip : CompleteHeader m) (hmd : sa.HasMode .transport)
    (hhdr : outboundHdr m sa = some (hdrLen, nlp)) :
    (if ipV m.buf m.dataOff = 4 then 20 ≤ hdrLen else 40 ≤ hdrLen)
      ∧ hdrLen ≤ m.dataLen := by
  rw [outboundHdr, hmd.tests.1] at hhdr
  rw [CompleteHeader] at hip
  by_cases h4 : ipV m.buf m.dataOff = 4
  · rw [if_pos h4] at hip hhdr ⊢
    have hp := (Prod.mk.inj (Option.some.inj hhdr)).1
    omega
  · rw [if_neg h4] at hip hhdr ⊢
    split at hhdr
    · have hp := (Prod.mk.inj (Option.some.inj hhdr)).1
      omega
    · cases hhdr

/-- What the encapsulation wrote into the outer header, by mode. -/
theorem Built.outer {m m' m1 m2 : Mbuf} {sa sa' : IpsecSa} {md : SaMode}
    {hdrLen : Nat} {nlp : UInt8} (hb : Built m m' sa sa' hdrLen nlp m1 m2)
    (hmd : sa.HasMode md) (ht : sa.FromTables) (hip : CompleteHeader m)
    (hhdr : outboundHdr m sa = some (hdrLen, nlp)) :
    TotalLen m' ∧ (md ≠ .transport →
      trafficClass m'.buf m'.dataOff = trafficClass m.buf m.dataOff) := by
  obtain ⟨-, hiv16, -⟩ := ht.sizes
  have hmax := m'.bufLen_le
  have hwin := m'.window
  obtain ⟨hbuf, hoff, -⟩ := hb.room
  obtain ⟨hstart, hlen⟩ := hb.window
  have henc := hb.encap
  have hrest := hb.rest
  have hlength := hb.length
  -- the outer header reads the same in the packet and behind the switch
  have hcopy : 20 ≤ outerHdrLen sa hdrLen → ∀ i, i < 6 →
      m'.buf (m2.dataOff + i) = m2.buf (m2.dataOff + i) := by
    intro h20 i hi
    rw [hstart]
    exact hrest _ (.inl (by omega))
  rw [outerHdrLen_eq hmd] at henc hrest hlength hcopy
  cases md with
  | ip4Tunnel =>
      dsimp only at henc hrest hlength hcopy
      rw [espEncap_ip4Tunnel _ _ _ hmd] at henc
      obtain ⟨⟨outip, m3⟩, hout, hp⟩ := Option.map_eq_some_iff.mp henc
      obtain rfl : m3 = m2 := (Prod.mk.inj hp).2
      have htotal := ip4ipOutbound_total hout
      obtain ⟨-, -, hoff3, -, -, -, hfirst, hsecond⟩ :=
        ip4ipOutbound_some (by omega) hout
      rw [← hoff3] at htotal hfirst hsecond
      rw [hbuf, hoff, ageInner_class] at hsecond
      have h4 : ipV m3.buf m3.dataOff = 4 := by
        rw [ipV, hfirst]
        rfl
      have hcopy := hcopy (Nat.le_refl _)
      refine ⟨TotalLen.congr hstart.symm hlen.symm hcopy ?_, fun _ => ?_⟩
      · rw [TotalLen, if_pos h4]
        exact ofBe_two htotal (by omega)
      · have h4' : ipV m'.buf m'.dataOff = 4 := by
          rw [← hstart, ipV]
          have hzero := hcopy 0 (by omega)
          rw [Nat.add_zero] at hzero
          rw [hzero]
          exact h4
        rw [← hsecond, ← hcopy 1 (by omega), trafficClass, if_pos h4', hstart]
  | ip6Tunnel =>
      dsimp only at henc hrest hlength hcopy
      rw [espEncap_ip6Tunnel _ _ _ hmd] at henc
      obtain ⟨⟨outip, m3⟩, hout, hp⟩ := Option.map_eq_some_iff.mp henc
      obtain rfl : m3 = m2 := (Prod.mk.inj hp).2
      have htotal := ip6ipOutbound_total hout
      obtain ⟨-, -, hoff3, -, -, -, hword⟩ := ip6ipOutbound_some (by omega) hout
      rw [← hoff3] at htotal hword
      rw [hbuf, hoff, ageInner_class] at hword
      obtain ⟨hlt, hsix, -⟩ := outerFlow_spec (trafficClass m.buf m.dataOff)
      have h6 := ipV_of_load hword hlt
      rw [hsix] at h6
      have hcopy := hcopy (by decide)
      refine ⟨TotalLen.congr hstart.symm hlen.symm hcopy ?_, fun _ => ?_⟩
      · rw [TotalLen, h6, if_neg (by decide)]
        exact ⟨by omega, ofBe_two htotal (by omega)⟩
      · have hword' : load m'.buf m'.dataOff 4
            = toBe 4 (outerFlow (trafficClass m.buf m.dataOff)) := by
          rw [← hword, ← hstart]
          exact load_congr fun i hi => hcopy i (by omega)
        have h6' := ipV_of_load hword' hlt
        rw [hsix] at h6'
        rw [trafficClass, h6', if_neg (by decide), flowClass, hword',
          ofBe_toBe_four, Nat.mod_eq_of_lt hlt, outerFlow_class]
  | transport =>
      dsimp only at henc hrest hlength hcopy
      rw [espEncap_transport _ _ _ hmd, ← hoff] at henc
      obtain ⟨-, -, -, -, -, hkept⟩ := transportOutbound_some (by omega) henc
      rw [hbuf, hoff] at hkept
      have hlong := (hip.kept hmd hhdr).1
      obtain ⟨-, hhead, hfield⟩ := hkept hlong
      have h20 : 20 ≤ hdrLen := by split at hlong <;> omega
      have hfirst := hhead 0 (by omega) (by rw [protoAt]; split <;> decide)
        (by rw [lenAt]; split <;> decide) (by rw [lenAt]; split <;> decide)
      rw [Nat.add_zero, Nat.add_zero] at hfirst
      have hver : ipV m2.buf m2.dataOff = ipV m.buf m.dataOff := by
        rw [ipV, ipV, hfirst]
      refine ⟨TotalLen.congr hstart.symm hlen.symm (hcopy h20) ?_,
        fun hne => absurd rfl hne⟩
      rw [TotalLen, hver]
      by_cases h4 : ipV m.buf m.dataOff = 4
      · rw [if_pos h4]
        rw [lenAt, if_pos h4, if_pos h4] at hfield
        exact ofBe_two hfield (by omega)
      · rw [if_neg h4] at hlong ⊢
        rw [lenAt, if_neg h4, if_neg h4, show m2.dataLen + 0x10000 - 40
          = m2.dataLen - 40 + 0x10000 by omega] at hfield
        refine ⟨by omega, ?_⟩
        rw [hfield, ofBe_toBe]
        omega

/-! ## Exact lengths -/

/-- The length of the IP header that stays in front: none in tunnel mode. -/
def keptHdr (m : Mbuf) (sa : IpsecSa) : Nat :=
  if isTransport sa.flags then
    if ipV m.buf m.dataOff = 4 then ipHl m.buf m.dataOff * 4 else 40
  else 0

theorem CompleteHeader.keptHdr_le {m : Mbuf} {sa : IpsecSa}
    (hip : CompleteHeader m) : keptHdr m sa ≤ m.dataLen := by
  rw [CompleteHeader] at hip
  rw [keptHdr]
  split
  · by_cases h4 : ipV m.buf m.dataOff = 4
    · rw [if_pos h4] at hip ⊢
      exact hip.2
    · rw [if_neg h4] at hip ⊢
      exact hip
  · exact Nat.zero_le _

/-- The protocol of what is enciphered. -/
def innerProto (m : Mbuf) (sa : IpsecSa) : UInt8 :=
  if ipV m.buf m.dataOff = 4 then
    if isTransport sa.flags then m.buf (m.dataOff + 9) else ipprotoIpip
  else if isTransport sa.flags then m.buf (m.dataOff + 6) else ipprotoIpv6

/-- The packet produced says the truth about its lengths. -/
structure ExactLengths (m m' : Mbuf) (sa : IpsecSa) : Prop where
  small : m'.dataLen ≤ 65535
  total : TotalLen m'
  /-- `pad` padding bytes: the last byte of the trailer lies in front of the
      digest -/
  trailer : ∃ pad,
    m'.dataLen = outerHdrLen sa (keptHdr m sa) + 8 + sa.ivLen.toNat
        + (m.dataLen - keptHdr m sa + pad + 2) + sa.digestLen.toNat
      ∧ sa.blockSize.toNat ∣ m.dataLen - keptHdr m sa + pad + 2
      ∧ (∀ k, sa.blockSize.toNat ∣ k → m.dataLen - keptHdr m sa + 2 ≤ k →
        m.dataLen - keptHdr m sa + pad + 2 ≤ k)
      ∧ (m'.buf (m'.dataOff + m'.dataLen - sa.digestLen.toNat - 2)).toNat = pad
      ∧ m'.buf (m'.dataOff + m'.dataLen - sa.digestLen.toNat - 1)
        = innerProto m sa
  tos : isTransport sa.flags = false →
    trafficClass m'.buf m'.dataOff = trafficClass m.buf m.dataOff

/-- The header that is kept and the next protocol. -/
theorem outboundHdr_eq {m : Mbuf} {sa : IpsecSa} {hdrLen : Nat} {nlp : UInt8}
    (h : outboundHdr m sa = some (hdrLen, nlp)) :
    hdrLen = keptHdr m sa ∧ nlp = innerProto m sa := by
  rw [outboundHdr] at h
  rw [keptHdr, innerProto]
  by_cases h4 : ipV m.buf m.dataOff = 4
  · rw [if_pos h4] at h
    rw [if_pos h4, if_pos h4]
    split at h <;>
    · obtain ⟨hlen, hnlp⟩ := Prod.mk.inj (Option.some.inj h)
      exact ⟨by simp [*], by simp [*]⟩
  · rw [if_neg h4] at h
    rw [if_neg h4, if_neg h4]
    split at h
    · split at h <;>
      · obtain ⟨hlen, hnlp⟩ := Prod.mk.inj (Option.some.inj h)
        exact ⟨by simp [*], by simp [*]⟩
    · cases h

/-- Why `esp_outbound` refuses a packet before it touches it: an unknown
    version, too big, or no room behind it. -/
def Refused (m : Mbuf) (sa : IpsecSa) : Prop :=
  match outboundHdr m sa with
  | none => True
  | some (hdrLen, _) =>
      ipMaxPacket < outerHdrLen sa hdrLen + 8 + sa.ivLen.toNat
          + padPayloadLen m.dataLen hdrLen sa.blockSize + sa.digestLen.toNat
        ∨ appendTrailer m sa (padLen m.dataLen hdrLen sa.blockSize) = none

/-- A refused packet and its SA are as they were. -/
theorem espOutbound_refused {m : Mbuf} {sa : IpsecSa} {md : SaMode}
    (hmd : sa.HasMode md) (h : Refused m sa) :
    ∃ rc, rc ≠ 0 ∧ espOutbound m sa = some (rc, m, sa) := by
  have hmode : (!isIp4Tunnel sa.flags && !isIp6Tunnel sa.flags
      && !isTransport sa.flags) = false := by
    obtain ⟨hmt, hm4, hm6⟩ := hmd.tests
    rw [hmt, hm4, hm6]
    cases md <;> rfl
  rw [Refused] at h
  rw [espOutbound]
  cases hhdr : outboundHdr m sa with
  | none => exact ⟨einval, by decide, rfl⟩
  | some r =>
      rw [hhdr] at h
      dsimp only at h ⊢
      rw [hmode, if_neg (by decide)]
      by_cases hbig : ipMaxPacket < outerHdrLen sa r.1 + 8 + sa.ivLen.toNat
          + padPayloadLen m.dataLen r.1 sa.blockSize + sa.digestLen.toNat
      · rw [if_pos hbig]
        exact ⟨einval, by decide, rfl⟩
      · rw [if_neg hbig, h.resolve_left hbig]
        exact ⟨enospc, by decide, rfl⟩

/-- A packet that is not refused is encapsulated: the counter steps, and only
    an unsupported algorithm fails it. -/
theorem espOutbound_not_refused {m : Mbuf} {sa : IpsecSa} {md : SaMode}
    (hmd : sa.HasMode md) (hhead : headroom sa ≤ m.dataOff)
    (h : ¬ Refused m sa) :
    ∃ rc m', espOutbound m sa = some (rc, m', { sa with seq := sa.seq + 1 })
      ∧ (Supported sa → rc = 0) := by
  have hmode : (!isIp4Tunnel sa.flags && !isIp6Tunnel sa.flags
      && !isTransport sa.flags) = false := by
    obtain ⟨hmt, hm4, hm6⟩ := hmd.tests
    rw [hmt, hm4, hm6]
    cases md <;> rfl
  rw [Refused] at h
  rw [espOutbound]
  cases hhdr : outboundHdr m sa with
  | none =>
      rw [hhdr] at h
      exact absurd trivial h
  | some r =>
      rw [hhdr] at h
      dsimp only at h ⊢
      obtain ⟨hbig, happ⟩ := not_or.mp h
      rw [hmode, if_neg (by decide), if_neg hbig]
      cases happ' : appendTrailer m sa
          (padLen m.dataLen r.1 sa.blockSize) with
      | none => exact absurd happ' happ
      | some q =>
          obtain ⟨padding, m1⟩ := q
          -- appending moves no start
          have hoff : m1.dataOff = m.dataOff := by
            rw [appendTrailer] at happ'
            split at happ'
            · rw [← (Prod.mk.inj (Option.some.inj happ')).2]
            · rw [rtePktmbufAppend] at happ'
              split at happ'
              · rw [← (Prod.mk.inj (Option.some.inj happ')).2]
              · cases happ'
          obtain ⟨⟨esp, m2⟩, henc⟩ := espEncap_ok (m := m1) m.dataOff
            (outerHdrLen sa r.1) hmd (by omega)
          dsimp only
          rw [henc]
          dsimp only
          -- the number is used up before the cipher is looked at
          cases hiv : outboundIv { sa with seq := sa.seq + 1 } with
          | none =>
              refine ⟨einval, _, rfl, fun hs => ?_⟩
              obtain ⟨iv, hiv'⟩ := outboundIv_ok
                (show Supported { sa with seq := sa.seq + 1 } from hs)
              rw [hiv] at hiv'
              cases hiv'
          | some iv =>
              refine ⟨_, _, rfl, fun hs => ?_⟩
              exact outboundTail_ok _
                (show Supported { sa with seq := sa.seq + 1 } from hs) ..

/-- **EXACT LENGTHS**: for every SA from the tables with a trailer built in
    software, a successful call produces a packet that says the truth about
    its lengths; a call that fails before the encapsulation has changed
    nothing, and behind it only an unsupported algorithm fails. -/
theorem espOutbound_exact {m : Mbuf} {sa : IpsecSa} {md : SaMode}
    (hmd : sa.HasMode md) (ht : sa.FromTables)
    (hsoft : hwTrailer sa.primary txHwTrailerOffload = false)
    (hip : CompleteHeader m) (hhead : headroom sa ≤ m.dataOff) :
    (∀ m' sa', espOutbound m sa = some (0, m', sa') → ExactLengths m m' sa)
      ∧ (Refused m sa → ∃ rc, rc ≠ 0 ∧ espOutbound m sa = some (rc, m, sa))
      ∧ (¬ Refused m sa → ∃ rc m', (Supported sa → rc = 0)
        ∧ espOutbound m sa = some (rc, m', { sa with seq := sa.seq + 1 })) := by
  refine ⟨?_, espOutbound_refused hmd, ?_⟩
  · intro m' sa' h
    obtain ⟨hdrLen, nlp, -, -, -, -, -, hhdr, -⟩ := espOutbound_success h
    obtain ⟨hbs, hiv16, hdig⟩ := ht.sizes
    obtain ⟨rfl, rfl⟩ := outboundHdr_eq hhdr
    have hle : keptHdr m sa ≤ m.dataLen := hip.keptHdr_le
    obtain ⟨m1, m2, hb⟩ := espOutbound_built hmd ht hsoft hhdr hle h
    have hmax := m.bufLen_le
    have hwin := m.window
    have hmax' := m'.bufLen_le
    have hwin' := m'.window
    have hlt : padLen m.dataLen (keptHdr m sa) sa.blockSize < sa.blockSize.toNat + 2 :=
      padLen_lt hbs (by omega) (outboundHdr_le hhdr)
    obtain ⟨htwo, h65⟩ := hb.pad
    have hpay := hb.payload
    have hblocks := hb.blocks
    have hlength := hb.length
    have hbody := hb.body
    have hlast := hb.last
    obtain ⟨htotal, htos⟩ := hb.outer hmd ht hip hhdr
    -- the padding is what is left of the trailer without its two bytes
    obtain ⟨pad, hpad⟩ : ∃ pad,
        padLen m.dataLen (keptHdr m sa) sa.blockSize = pad + 2 :=
      ⟨_, (Nat.sub_add_cancel htwo).symm⟩
    rw [hpad] at hpay hlength hlast hlt h65
    rw [hpay, ← Nat.add_assoc] at hblocks
    rw [show m.dataOff + m.dataLen + (pad + 2) - 2
      = m'.dataOff + m'.dataLen - sa.digestLen.toNat - 2 by omega] at hlast
    -- these two end the payload
    have hend : [m'.buf (m'.dataOff + m'.dataLen - sa.digestLen.toNat - 2),
        m'.buf (m'.dataOff + m'.dataLen - sa.digestLen.toNat - 2 + 1)]
        = [UInt8.ofNat (pad + 2) - 2, innerProto m sa] := hlast
    obtain ⟨hlen, hnext⟩ := List.cons.inj hend
    have hnlp := (List.cons.inj hnext).1
    refine ⟨by omega, htotal, ⟨pad, by omega, hblocks, ?_, ?_, ?_⟩, ?_⟩
    · exact least_multiple hblocks (by omega)
    · have hge : (2 : UInt8) ≤ UInt8.ofNat (pad + 2) := by
        rw [UInt8.le_iff_toNat_le, UInt8.toNat_ofNat']
        show 2 ≤ (pad + 2) % 256
        omega
      rw [hlen, UInt8.toNat_sub_of_le _ _ hge, UInt8.toNat_ofNat']
      show (pad + 2) % 256 - 2 = pad
      omega
    · rw [← hnlp]
      congr 1
      omega
    · intro htunnel
      refine htos ?_
      rintro rfl
      rw [hmd.tests.1] at htunnel
      exact absurd htunnel (by decide)
  · intro h
    obtain ⟨rc, m', heq, hs⟩ := espOutbound_not_refused hmd hhead h
    exact ⟨rc, m', hs, heq⟩

/-- A datagram of 33 bytes in a tunnel. -/
theorem espOutbound_exact_cbc : ∃ m' sa',
    espOutbound fiveBytes cbcTunnel = some (0, m', sa') ∧ m'.dataLen = 104
      ∧ ExactLengths fiveBytes m' cbcTunnel := by
  have hmd : cbcTunnel.HasMode .ip4Tunnel := by decide
  obtain ⟨hexact, -, hsent⟩ := espOutbound_exact (m := fiveBytes) hmd
    cbcTunnel_legacy.fromTables rfl (by rw [CompleteHeader]; decide) (by decide)
  obtain ⟨rc, m', hrc, h⟩ := hsent (by
    rw [Refused, show outboundHdr fiveBytes cbcTunnel = some (0, 4) by decide]
    dsimp only
    rw [not_or]
    exact ⟨by decide, by simp [appendTrailer, rtePktmbufAppend]; decide⟩)
  rw [hrc (.inr ⟨by decide, .inr (.inr (.inl rfl))⟩)] at h
  have hlen : (espOutbound fiveBytes cbcTunnel).map (fun r => r.2.1.dataLen) = some 104 := by
    decide +kernel
  rw [h] at hlen
  exact ⟨m', _, h, Option.some.inj hlen, hexact _ _ h⟩

end EspLength
