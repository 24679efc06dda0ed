import IpsecSecgw.EspDeviceProofs

/-! # The ESP round trip

    One packet through `esp_outbound`, a crypto device, the wire, a second
    mbuf, `esp_inbound`, the device again and `esp_inbound_post`.

    * `stripTrailer_ok`, `transportInbound_ok`: what post-processing takes off.
    * `esp_round_trip`: with a device whose deciphering undoes its enciphering
      the original packet comes back. -/

namespace EspRoundTrip

open ByteStore SaModel MbufModel Ipip Esp EspFrame EspDevice

/-! ## Behind the device -/

/-- **THE TRAILER COMES OFF**: what remains ends with the payload, and the
    next header byte stays readable behind it. -/
theorem stripTrailer_ok {m : Mbuf} {sa : IpsecSa} {hdr iv n padLen : Nat}
    {nlp : UInt8} (hhw : hwTrailer sa.primary rxHwTrailerOffload = false)
    (hdig : sa.digestLen.toNat ≤ 32)
    (h : Frame m hdr iv n padLen sa.digestLen.toNat nlp) :
    ∃ a m', stripTrailer m sa = some (.ok (some a, m'))
      ∧ m'.buf = m.buf ∧ m'.dataOff = m.dataOff
      ∧ m'.dataLen = hdr + 8 + iv + n
      ∧ m.dataOff + (hdr + 8 + iv + n) ≤ a ∧ m.buf a = nlp := by
  obtain ⟨hpad, hlen, hnext⟩ := h.read
  have h2 := h.two_le
  have h65 := h.le
  have hl := h.len
  have hat : m.dataOff + m.dataLen - sa.digestLen.toNat - 1
      = m.dataOff + (hdr + 8 + iv + n) + (padLen - 2) + 1 := by omega
  rw [stripTrailer, hhw, if_neg (by decide), if_neg (by omega)]
  dsimp only
  rw [hat, Nat.add_sub_cancel, hlen, if_neg (by omega),
    show m.dataOff + (hdr + 8 + iv + n) + (padLen - 2) - (padLen - 2)
      = m.dataOff + (hdr + 8 + iv + n) by omega, paddingOk, hpad, beq_self_eq_true,
    Bool.not_true, if_neg (by decide)]
  obtain ⟨w, htrim⟩ := rtePktmbufTrim_eq (m := m)
    (show padLen - 2 + 2 + sa.digestLen.toNat < 0x10000 by omega) (by omega)
  rw [htrim]
  exact ⟨_, _, rfl, rfl, rfl, by dsimp only; omega, by omega, hnext⟩

/-- **TRANSPORT COMES OFF**: the header is back in front of the payload, with
    the protocol from the trailer and the length of the packet. -/
theorem transportInbound_ok {m : Mbuf} {hdr offset n a : Nat}
    (h16 : offset < 0x10000) (hlen : m.dataLen = hdr + offset + n)
    (hhdr : inboundHdrLen m = some hdr)
    (hlong : if ipV m.buf m.dataOff = 4 then 20 ≤ hdr else hdr = 40)
    (ha : m.dataOff + offset + hdr ≤ a) :
    ∃ m', transportInbound m offset (some a) = some m'
      ∧ m'.dataOff = m.dataOff + offset ∧ m'.dataLen = hdr + n
      ∧ (∀ j, hdr ≤ j → m'.buf (m'.dataOff + j) = m.buf (m'.dataOff + j))
      ∧ (∀ j, j < hdr → j ≠ protoAt (ipV m.buf m.dataOff = 4) →
          j ≠ lenAt (ipV m.buf m.dataOff = 4) →
          j ≠ lenAt (ipV m.buf m.dataOff = 4) + 1 →
          m'.buf (m'.dataOff + j) = m.buf (m.dataOff + j))
      ∧ m'.buf (m'.dataOff + protoAt (ipV m.buf m.dataOff = 4)) = m.buf a
      ∧ load m'.buf (m'.dataOff + lenAt (ipV m.buf m.dataOff = 4)) 2
        = toBe 2 (if ipV m.buf m.dataOff = 4 then hdr + n
            else hdr + n + 0x10000 - 40) := by
  obtain ⟨w, hadj⟩ := rtePktmbufAdj_eq (m := m) h16 (by omega)
  have hrest : m.dataLen - offset = hdr + n := by omega
  rw [transportInbound, hadj]
  dsimp only
  rw [inboundHdrLen] at hhdr
  by_cases h4 : ipV m.buf m.dataOff = 4
  · rw [if_pos h4] at hhdr hlong
    have hl := Option.some.inj hhdr
    have hnext : store m.buf (m.dataOff + offset) (load m.buf m.dataOff hdr) a
        = m.buf a := store_outside _ (by simp; omega)
    obtain ⟨h1, h2, h3, h5⟩ := movedHeader m.buf (m.dataOff + offset)
      m.dataOff hdr 9 2 (m.buf a)
      (l := toBe 2 (hdr + n)) (by omega) (by omega) (by omega) (by omega)
      (by simp)
    rw [if_pos h4, hl]
    simp only [protoAt, lenAt, if_pos h4, Mbuf.write_buf, Mbuf.write_dataLen,
      hrest, hnext]
    exact ⟨_, rfl, rfl, rfl, h1, h2, h3, h5⟩
  · rw [if_neg h4] at hhdr hlong
    have hnext : store m.buf (m.dataOff + offset) (load m.buf m.dataOff 40) a
        = m.buf a := store_outside _ (by simp; omega)
    obtain ⟨h1, h2, h3, h5⟩ := movedHeader m.buf (m.dataOff + offset)
      m.dataOff 40 6 4 (m.buf a)
      (l := toBe 2 (40 + n + 0x10000 - 40)) (by omega) (by omega) (by omega)
      (by omega) (by simp)
    subst hlong
    rw [if_neg h4]
    simp only [protoAt, lenAt, if_neg h4, Mbuf.write_buf, Mbuf.write_dataLen,
      hrest, hnext]
    exact ⟨_, rfl, rfl, rfl, h1, h2, h3, h5⟩

/-! ## The original packet -/

/-- A complete IP header inside the packet, whose length field gives the length
    of the packet. -/
def WellFormed (m : Mbuf) : Prop :=
  if ipV m.buf m.dataOff = 4 then
    20 ≤ ipHl m.buf m.dataOff * 4 ∧ ipHl m.buf m.dataOff * 4 ≤ m.dataLen
      ∧ ofBe (load m.buf (m.dataOff + 2) 2) = m.dataLen
  else 40 ≤ m.dataLen ∧ ofBe (load m.buf (m.dataOff + 4) 2) + 40 = m.dataLen

/-- The kept header is the one the receiver would measure. -/
theorem outboundHdr_transport {m : Mbuf} {sa : IpsecSa} {hdrLen : Nat}
    {nlp : UInt8} (hmd : sa.HasMode .transport)
    (h : outboundHdr m sa = some (hdrLen, nlp)) :
    inboundHdrLen m = some hdrLen
      ∧ nlp = m.buf (m.dataOff + protoAt (ipV m.buf m.dataOff = 4)) := by
  rw [outboundHdr, hmd.tests.1] at h
  rw [inboundHdrLen, protoAt]
  by_cases h4 : ipV m.buf m.dataOff = 4
  · rw [if_pos h4] at h ⊢
    have hp := Prod.mk.inj (Option.some.inj h)
    rw [if_pos h4]
    exact ⟨congrArg some hp.1, hp.2.symm⟩
  · rw [if_neg h4] at h ⊢
    by_cases h6 : ipV m.buf m.dataOff = 6
    · rw [if_pos h6] at h ⊢
      have hp := Prod.mk.inj (Option.some.inj h)
      rw [if_neg h4]
      exact ⟨congrArg some hp.1, hp.2.symm⟩
    · rw [if_neg h6] at h
      cases h

/-- The header of a well-formed packet is complete. -/
theorem WellFormed.hdrLen {m : Mbuf} {hdrLen : Nat} (h : WellFormed m)
    (hhdr : inboundHdrLen m = some hdrLen) :
    (if ipV m.buf m.dataOff = 4 then 20 ≤ hdrLen else hdrLen = 40)
      ∧ hdrLen ≤ m.dataLen := by
  rw [WellFormed] at h
  rw [inboundHdrLen] at hhdr
  by_cases h4 : ipV m.buf m.dataOff = 4
  · rw [if_pos h4] at h hhdr ⊢
    have := Option.some.inj hhdr
    omega
  · rw [if_neg h4] at h hhdr ⊢
    split at hhdr
    · have := Option.some.inj hhdr
      omega
    · exact nomatch hhdr

/-- Two bytes hold a length below 64 KiB. -/
theorem toBe_two_add (n : Nat) : toBe 2 (n + 0x10000) = toBe 2 n :=
  (toBe_inj 2 _ _).mpr (by omega)

/-- The length field of a well-formed packet. -/
theorem WellFormed.lenField {m : Mbuf} (h : WellFormed m) :
    load m.buf (m.dataOff + lenAt (ipV m.buf m.dataOff = 4)) 2
      = toBe 2 (if ipV m.buf m.dataOff = 4 then m.dataLen
          else m.dataLen + 0x10000 - 40) := by
  have hback : ∀ a, toBe 2 (ofBe (load m.buf a 2)) = load m.buf a 2 :=
    fun a => toBe_ofBe (load m.buf a 2)
  rw [WellFormed] at h
  rw [lenAt]
  by_cases h4 : ipV m.buf m.dataOff = 4
  · rw [if_pos h4] at h ⊢
    rw [if_pos h4, ← h.2.2, hback]
  · rw [if_neg h4] at h ⊢
    rw [if_neg h4, show m.dataLen + 0x10000 - 40
      = ofBe (load m.buf (m.dataOff + 4) 2) + 0x10000 by omega, toBe_two_add,
      hback]

/-! ## What was sent, by mode -/

/-- In transport mode the frame starts with the header of the original, up to
    its protocol and length, and carries the rest as payload. -/
theorem sent_transport {m m' m1 m2 : Mbuf} {sa sa' : IpsecSa} {hdrLen : Nat}
    {nlp : UInt8} (hs : Sent m m' sa sa' hdrLen nlp m1 m2)
    (hmd : sa.HasMode .transport) (h16 : sa.ivLen.toNat ≤ 16)
    (hlong : if ipV m.buf m.dataOff = 4 then 20 ≤ hdrLen else hdrLen = 40) :
    (∀ j, j < hdrLen → j ≠ protoAt (ipV m.buf m.dataOff = 4) →
        j ≠ lenAt (ipV m.buf m.dataOff = 4) →
        j ≠ lenAt (ipV m.buf m.dataOff = 4) + 1 →
        m'.buf (m'.dataOff + j) = m.buf (m.dataOff + j))
      ∧ ∀ i, m.dataOff + hdrLen ≤ i → i < m.dataOff + m.dataLen →
        m'.buf i = m.buf i := by
  obtain ⟨hbuf, hoff, -⟩ := hs.room
  have henc := hs.encap
  have hrest := hs.rest
  have hbody := hs.body
  have hstart := hs.start
  rw [outerHdrLen_eq hmd] at henc hrest hbody
  dsimp only at henc hrest hbody
  rw [espEncap_transport _ _ _ hmd, ← hoff] at henc
  obtain ⟨-, -, -, -, -, hkept⟩ := transportOutbound_some (by omega) henc
  rw [hbuf, hoff, hstart] at hkept
  obtain ⟨hbehind, hhead, -⟩ := hkept (by split at hlong <;> simp [*])
  refine ⟨?_, ?_⟩
  · intro j hj h1 h2 h3
    rw [hrest _ (by omega), hhead j hj h1 h2 h3]
  · intro i hlo hhi
    have hi := hbehind (i - m'.dataOff) (by omega)
    rw [show m'.dataOff + (i - m'.dataOff) = i by omega] at hi
    rw [hrest i (.inr ⟨hlo, hhi⟩), hi]

/-- In tunnel mode the frame starts with a fixed-size header that carries the
    congestion mark of the aged original, which is the payload. -/
theorem sent_tunnel {m m' m1 m2 : Mbuf} {sa sa' : IpsecSa} {md : SaMode}
    {nlp : UInt8} (hs : Sent m m' sa sa' 0 nlp m1 m2) (hmd : sa.HasMode md)
    (ht : md ≠ .transport) (h16 : sa.ivLen.toNat ≤ 16) :
    inboundHdrLen m' = some (outerHdrLen sa 0)
      ∧ (if ipV m'.buf m'.dataOff = 4 then 20 else 40) = outerHdrLen sa 0
      ∧ outerCe m'.buf m'.dataOff
        = outerCe (ageInner m.buf m.dataOff).1 m.dataOff
      ∧ ∀ i, m.dataOff ≤ i → i < m.dataOff + m.dataLen →
        m'.buf i = (ageInner m.buf m.dataOff).1 i := by
  obtain ⟨hbuf, hoff, -⟩ := hs.room
  have hlen := hs.frame.len
  have henc := hs.encap
  have hrest := hs.rest
  have hbody := hs.body
  have hstart := hs.start
  -- the outer class is that of the inner packet
  have hmark : ((ageInner m.buf m.dataOff).2 &&& 3 == 3)
      = outerCe (ageInner m.buf m.dataOff).1 m.dataOff :=
    (ageInner_spec m.buf m.dataOff 1 (by omega)).2.2
  rw [outerHdrLen_eq hmd] at henc hrest hbody ⊢
  cases md with
  | transport => exact absurd rfl ht
  | ip4Tunnel =>
      dsimp only at henc hrest hbody ⊢
      rw [espEncap_ip4Tunnel _ _ _ hmd] at henc
      obtain ⟨⟨outip, m3⟩, hout, hp⟩ := Option.map_eq_some_iff.mp henc
      obtain ⟨-, rfl, hoff3, -, -, hbehind, hfirst, hsecond⟩ :=
        ip4ipOutbound_some (by omega) hout
      have hm : m3 = m2 := (Prod.mk.inj hp).2
      subst hm
      rw [← hoff3, hstart] at hfirst hsecond hbehind
      rw [hbuf, hoff] at hbehind hsecond
      rw [← hrest _ (.inl (by omega))] at hfirst hsecond
      have h4 : ipV m'.buf m'.dataOff = 4 := by
        rw [ipV, hfirst]
        rfl
      -- a first byte of 0x45: four, and five words
      rw [inboundHdrLen, if_pos h4, if_pos h4, ipHl, hfirst, outerCe,
        if_pos h4, hsecond]
      refine ⟨rfl, rfl, hmark, ?_⟩
      intro i hlo hhi
      rw [hrest i (.inr ⟨by omega, hhi⟩), hbehind i (by omega)]
  | ip6Tunnel =>
      dsimp only at henc hrest hbody ⊢
      rw [espEncap_ip6Tunnel _ _ _ hmd] at henc
      obtain ⟨⟨outip, m3⟩, hout, hp⟩ := Option.map_eq_some_iff.mp henc
      obtain ⟨-, rfl, hoff3, -, -, hbehind, hword⟩ :=
        ip6ipOutbound_some (by omega) hout
      have hm : m3 = m2 := (Prod.mk.inj hp).2
      subst hm
      rw [← hoff3, hstart] at hword hbehind
      rw [hbuf, hoff] at hbehind hword
      -- the four bytes of version, class and label
      have hword' : load m'.buf m'.dataOff 4
          = toBe 4 (outerFlow (ageInner m.buf m.dataOff).2) := by
        rw [← hword]
        exact load_congr fun i hi => hrest _ (.inl (by omega))
      obtain ⟨hlt, hsix, hce⟩ := outerFlow_spec (ageInner m.buf m.dataOff).2
      have h6 := ipV_of_load hword' hlt
      rw [hsix] at h6
      have hclass : flowClass m'.buf m'.dataOff
          = outerFlow (ageInner m.buf m.dataOff).2 >>> 20 := by
        rw [flowClass, hword', ofBe_toBe_four, Nat.mod_eq_of_lt hlt]
      rw [inboundHdrLen, h6, if_neg (by decide), if_pos rfl,
        if_neg (by decide), outerCe, h6, if_neg (by decide), hclass, hce]
      refine ⟨rfl, rfl, hmark, ?_⟩
      intro i hlo hhi
      rw [hrest i (.inr ⟨by omega, hhi⟩), hbehind i (by omega)]

/-! ## The way back -/

/-- The measured header length depends on the first byte alone. -/
theorem inboundHdrLen_congr {m r : Mbuf}
    (h : r.buf r.dataOff = m.buf m.dataOff) :
    inboundHdrLen r = inboundHdrLen m := by
  rw [inboundHdrLen, inboundHdrLen, ipV, ipHl, ipV, ipHl, h]

/-- The congestion mark depends on the first word alone. -/
theorem outerCe_congr {b c : Nat → UInt8} {a d : Nat}
    (h : load b a 4 = load c d 4) : outerCe b a = outerCe c d := by
  have h0 : b a = c d := eq_of_load_eq h (i := 0) (by omega)
  have h1 : b (a + 1) = c (d + 1) := eq_of_load_eq h (i := 1) (by omega)
  rw [outerCe, outerCe, flowClass, flowClass, h, h1, ipV, ipV, h0]

/-- **OVER THE WIRE**: what was sent is accepted, described by the same
    operation, and comes back from the device. -/
theorem wire_recovers (dev : CryptoDev) {so so' si : IpsecSa}
    {m m' m1 m2 r : Mbuf} {hdrLen : Nat} {nlp : UInt8} (hpair : Paired so si)
    (halgo : LegacyAlgo so) (htype : si.primary.type = .none)
    (hs : Sent m m' so so' hdrLen nlp m1 m2)
    (hhdr : inboundHdrLen m' = some (outerHdrLen so hdrLen))
    (hwire : r.bytes = (devEncrypt dev so' m').bytes) :
    ∃ r', espInbound r si = (0, r') ∧ r'.bytes = r.bytes ∧ SameOp so' m' r'
      ∧ Recovered m' (devDecrypt dev si r') (outerHdrLen so hdrLen)
        so.ivLen.toNat
        (m.dataLen - hdrLen + padLen m.dataLen hdrLen so.blockSize) := by
  obtain ⟨hbs, -, -⟩ := halgo.fromTables.sizes
  have hpos : 0 < so.blockSize.toNat := by
    rcases hbs with h | h | h | h <;> rw [h] <;> decide
  have h2 := hs.frame.two_le
  have hsa := hs.counter
  have hop := hs.op
  have hdvd := hs.blocks
  rw [hs.payload] at hop hdvd
  -- the stepped SA has the parameters of the original one
  have hpair' : Paired so' si := by
    rw [hsa]
    exact ⟨hpair.1, hpair.2, hpair.3, hpair.4, hpair.5, hpair.6, hpair.7,
      hpair.8, hpair.9, hpair.10, hpair.11⟩
  have hfits : IvFits so' := by
    rw [hsa]
    exact halgo.ivFits
  have hiv : so'.ivLen = so.ivLen := by rw [hsa]
  have hdig : so'.digestLen = so.digestLen := by rw [hsa]
  have hblk : so'.blockSize = so.blockSize := by rw [hsa]
  have hlen := hs.frame.len
  rw [← hiv, ← hdig] at hlen
  obtain ⟨hwoff, hwlen⟩ := devEncrypt_window dev so' m'
  have hrlen : r.dataLen = m'.dataLen := by
    rw [← Mbuf.length_bytes, hwire, Mbuf.length_bytes, hwlen]
  have hload : load r.buf r.dataOff m'.dataLen
      = load (devEncrypt dev so' m').buf m'.dataOff m'.dataLen := by
    rw [Mbuf.bytes, Mbuf.bytes, hrlen, hwlen, hwoff] at hwire
    exact hwire
  have hge := (cipherStart_bounds so' (outerHdrLen so hdrLen)).1
  have hfirst : r.buf r.dataOff = m'.buf m'.dataOff :=
    (eq_of_load_eq hload (i := 0) (by omega)).trans
      (devEncrypt_head dev hop hlen (by omega))
  obtain ⟨r', hin, hbuf, hoff, hlen', hrecv⟩ := espInbound_ok
    (hpair.legacyAlgo halgo) (by rw [htype]; decide)
    ((inboundHdrLen_congr hfirst).trans hhdr)
    (by rw [hpair'.ivLen, hpair'.digestLen, hrlen]; exact hlen)
    (by omega) (by rw [hpair.blockSize]; exact hdvd)
  rw [← hbuf, ← hoff] at hload
  have hrlen' := hlen'.trans hrlen
  have hsame := sameOp_of_wire dev hpair' hfits hop hrecv hlen hs.iv hrlen'
    hload
  refine ⟨r', hin, ?_, hsame, ?_⟩
  · rw [Mbuf.bytes, Mbuf.bytes, hbuf, hoff, hlen']
  · rw [← hiv]
    by_cases hg : so'.aeadAlgo = .aesGcm
    · exact recovered_gcm dev hpair' hg hop hsame hlen hrlen' hload
    · exact recovered_cipher dev hpair' hg hfits (by rw [hblk]; exact hpos)
        (by rw [hblk]; exact hdvd) hop hrecv hsame hlen hrlen' hload

/-- **TRANSPORT MODE ROUND TRIP**: behind the devices the packet is the
    original one, byte for byte. -/
theorem transport_back {m m' m1 m2 d : Mbuf} {so so' si : IpsecSa}
    {hdrLen : Nat} {nlp : UInt8} (hs : Sent m m' so so' hdrLen nlp m1 m2)
    (hmd : so.HasMode .transport) (hmdi : isTransport si.flags = true)
    (hsizes : so.ivLen.toNat ≤ 16 ∧ so.digestLen.toNat ≤ 32)
    (hiv : si.ivLen = so.ivLen) (hdig : si.digestLen = so.digestLen)
    (htype : si.primary.type = .none) (hwf : WellFormed m)
    (hhdr : outboundHdr m so = some (hdrLen, nlp))
    (hrec : Recovered m' d hdrLen so.ivLen.toNat
      (m.dataLen - hdrLen + padLen m.dataLen hdrLen so.blockSize)) :
    ∃ d', espInboundPost d si = some (0, d') ∧ d'.bytes = m.bytes := by
  obtain ⟨hmeasure, hnlp⟩ := outboundHdr_transport hmd hhdr
  obtain ⟨hlong, hle⟩ := hwf.hdrLen hmeasure
  obtain ⟨hhead, hbody⟩ := sent_transport hs hmd hsizes.1 hlong
  have hframe := hs.frame
  have hat := hs.body
  rw [outerHdrLen_eq hmd] at hframe hat
  dsimp only at hframe hat
  have hoffset : si.ivLen.toNat = so.ivLen.toNat := by rw [hiv]
  -- the trailer comes off
  have hhw : hwTrailer si.primary rxHwTrailerOffload = false := by
    rw [hwTrailer, htype]
    rfl
  obtain ⟨a, m3, hstrip, hbuf3, hoff3, hlen3, ha, hnext⟩ :=
    stripTrailer_ok hhw (by rw [hdig]; exact hsizes.2)
      (by rw [hdig]; exact hrec.frame hframe)
  -- the recovered header is the original one up to protocol and length
  have hpos : 20 ≤ hdrLen := by split at hlong <;> omega
  have hd : ∀ j, j < hdrLen → j ≠ protoAt (ipV m.buf m.dataOff = 4) →
      j ≠ lenAt (ipV m.buf m.dataOff = 4) →
      j ≠ lenAt (ipV m.buf m.dataOff = 4) + 1 →
      d.buf (d.dataOff + j) = m.buf (m.dataOff + j) := fun j hj h1 h2 h3 =>
    (eq_of_load_eq hrec.header (i := j) (by omega)).trans (hhead j hj h1 h2 h3)
  have hplace : protoAt (ipV m.buf m.dataOff = 4) ≠ 0
      ∧ lenAt (ipV m.buf m.dataOff = 4) ≠ 0 := by
    rw [protoAt, lenAt]
    split <;> omega
  have hzero : m3.buf m3.dataOff = m.buf m.dataOff := by
    rw [hbuf3, hoff3]
    exact hd 0 (by omega) (by omega) (by omega) (by omega)
  have hv : ipV m3.buf m3.dataOff = ipV m.buf m.dataOff := by
    rw [ipV, ipV, hzero]
  obtain ⟨m4, htrans, hoff4, hlen4, hbehind, hfront, hproto, hlenf⟩ :=
    transportInbound_ok (m := m3) (a := a)
      (show 8 + so.ivLen.toNat < 0x10000 by omega)
      (show m3.dataLen = hdrLen + (8 + so.ivLen.toNat) + (m.dataLen - hdrLen)
        by omega)
      ((inboundHdrLen_congr hzero).trans hmeasure)
      (by rw [hv]; exact hlong) (by omega)
  rw [hv, hbuf3, hoff3] at hfront
  rw [hv, hbuf3] at hproto
  rw [hv] at hlenf
  refine ⟨m4, ?_, ?_⟩
  · rw [espInboundPost_verified htype hrec.status, hstrip]
    dsimp only
    rw [if_pos hmdi, hoffset, htrans]
    rfl
  · rw [Mbuf.bytes, Mbuf.bytes, show m4.dataLen = m.dataLen by omega]
    rw [show hdrLen + (m.dataLen - hdrLen) = m.dataLen by omega,
      ← hwf.lenField] at hlenf
    refine load_congr fun i hi => ?_
    by_cases hin : hdrLen ≤ i
    · have hpay := eq_of_load_eq hrec.payload (i := i - hdrLen) (by omega)
      rw [hbehind i hin, hbuf3, show m4.dataOff + i
        = d.dataOff + (hdrLen + 8 + so.ivLen.toNat) + (i - hdrLen) by omega,
        hpay]
      rw [show m'.dataOff + (hdrLen + 8 + so.ivLen.toNat) + (i - hdrLen)
        = m.dataOff + i by omega]
      exact hbody _ (by omega) (by omega)
    · by_cases hp : i = protoAt (ipV m.buf m.dataOff = 4)
      · rw [hp, hproto, hnext, hnlp]
      · by_cases hl : i = lenAt (ipV m.buf m.dataOff = 4)
        · rw [hl]
          exact eq_of_load_eq hlenf (i := 0) (by omega)
        · by_cases hl1 : i = lenAt (ipV m.buf m.dataOff = 4) + 1
          · rw [hl1]
            exact eq_of_load_eq hlenf (i := 1) (by omega)
          · rw [hfront i (by omega) hp hl hl1, hd i (by omega) hp hl hl1]

/-- **TUNNEL MODE ROUND TRIP**: behind the devices the packet is the original
    one, two hops older. -/
theorem tunnel_back {m m' m1 m2 d : Mbuf} {so so' si : IpsecSa} {md : SaMode}
    {nlp : UInt8} (hs : Sent m m' so so' 0 nlp m1 m2) (hmd : so.HasMode md)
    (ht : md ≠ .transport) (hmdi : isTransport si.flags = false)
    (hsizes : so.ivLen.toNat ≤ 16 ∧ so.digestLen.toNat ≤ 32)
    (hiv : si.ivLen = so.ivLen) (hdig : si.digestLen = so.digestLen)
    (htype : si.primary.type = .none) (hlong : 20 ≤ m.dataLen)
    (hrec : Recovered m' d (outerHdrLen so 0) so.ivLen.toNat
      (m.dataLen - 0 + padLen m.dataLen 0 so.blockSize)) :
    ∃ d', espInboundPost d si = some (0, d') ∧ AgedBy 2 m.bytes d'.bytes := by
  obtain ⟨-, hfixed, hmark, hbody⟩ := sent_tunnel hs hmd ht hsizes.1
  have hframe := hs.frame
  have hat := hs.body
  rw [Nat.sub_zero] at hframe hrec
  have hoffset : si.ivLen.toNat = so.ivLen.toNat := by rw [hiv]
  -- the trailer comes off
  have hhw : hwTrailer si.primary rxHwTrailerOffload = false := by
    rw [hwTrailer, htype]
    rfl
  obtain ⟨a, m3, hstrip, hbuf3, hoff3, hlen3, -, -⟩ :=
    stripTrailer_ok hhw (by rw [hdig]; exact hsizes.2)
      (by rw [hdig]; exact hrec.frame hframe)
  -- outer header and payload are what was sent
  have houter : load m3.buf m3.dataOff 4 = load m'.buf m'.dataOff 4 := by
    have h := load_part_eq hrec.header (i := 0) (k := 4) (by omega)
    rw [hbuf3, hoff3]
    exact h
  have hzero : m3.buf m3.dataOff = m'.buf m'.dataOff :=
    eq_of_load_eq houter (i := 0) (by omega)
  have hv : ipV m3.buf m3.dataOff = ipV m'.buf m'.dataOff := by
    rw [ipV, ipV, hzero]
  have hinner : load m3.buf
      (m3.dataOff + (8 + so.ivLen.toNat + outerHdrLen so 0)) m.dataLen
      = load (ageInner m.buf m.dataOff).1 m.dataOff m.dataLen := by
    have h := load_part_eq hrec.payload (i := 0) (k := m.dataLen) (by omega)
    rw [hbuf3, hoff3, show d.dataOff + (8 + so.ivLen.toNat + outerHdrLen so 0)
      = d.dataOff + (outerHdrLen so 0 + 8 + so.ivLen.toNat) + 0 by omega, h,
      show m'.dataOff + (outerHdrLen so 0 + 8 + so.ivLen.toNat) + 0
        = m.dataOff by omega]
    exact load_congr fun i hi => hbody _ (by omega) (by omega)
  have hword : load m3.buf
      (m3.dataOff + (8 + so.ivLen.toNat + outerHdrLen so 0)) 4
      = load (ageInner m.buf m.dataOff).1 m.dataOff 4 :=
    load_part_eq hinner (i := 0) (k := 4) (by omega)
  obtain ⟨m4, hstep, haged⟩ := ipipInbound_spec (m := m3)
    (n := m.dataLen) (by omega)
    (show 8 + so.ivLen.toNat + outerHdrLen so 0 < 0x10000 by
      split at hfixed <;> omega)
    (by rw [hv, hfixed]) (by omega) (fun hce => by
      rw [outerCe_congr houter, hmark] at hce
      rw [outerCe_congr hword, hce])
  refine ⟨m4, ?_, ?_⟩
  · rw [espInboundPost_verified htype hrec.status, hstrip]
    dsimp only
    rw [hmdi, if_neg (by decide), hoffset, hstep]
    rfl
  · rw [hinner] at haged
    -- a hop in front of the tunnel, and one behind it
    have hhops : AgedBy (1 + 1) m.bytes m4.bytes :=
      (ageInner_spec m.buf m.dataOff m.dataLen (by omega)).1.trans haged
    exact hhops

/-! ## The round trip -/

/-- **ESP ROUND TRIP**: with equal parameters on both sides, a packet that
    `esp_outbound` sends is accepted by `esp_inbound`, which derives the
    sender's operation, and `esp_inbound_post` yields the original packet: the
    same bytes in transport mode, two hops older in tunnel mode. -/
theorem esp_round_trip (dev : CryptoDev) {so so' si : IpsecSa} {m m' r : Mbuf}
    (hpair : Paired so si) (halgo : LegacyAlgo so)
    (hout : so.primary.type = .none) (hin : si.primary.type = .none)
    (hwf : WellFormed m) (hsend : espOutbound m so = some (0, m', so'))
    (hwire : r.bytes = (devEncrypt dev so' m').bytes) :
    ∃ r', espInbound r si = (0, r') ∧ r'.bytes = r.bytes ∧ SameOp so' m' r'
      ∧ ∃ d, espInboundPost (devDecrypt dev si r') si = some (0, d)
        ∧ if isTransport so.flags then d.bytes = m.bytes
          else AgedBy 2 m.bytes d.bytes := by
  obtain ⟨hdrLen, nlp, _, _, _, _, _, hhdr, -, -, henc, -⟩ :=
    espOutbound_success hsend
  obtain ⟨md, hmd⟩ := espEncap_mode henc
  have hmdi : si.HasMode md := hpair.mode.trans hmd
  have htests := hmd.tests.1
  have htestsi := hmdi.tests.1
  obtain ⟨-, hsizes⟩ := halgo.fromTables.sizes
  have hframe : hdrLen ≤ m.dataLen →
      ∃ m1 m2, Sent m m' so so' hdrLen nlp m1 m2 := fun hle =>
    espOutbound_frame hmd halgo (by rw [hout]; decide) hhdr hle hsend
  by_cases ht : md = .transport
  · subst ht
    obtain ⟨hmeasure, -⟩ := outboundHdr_transport hmd hhdr
    obtain ⟨hlong, hle⟩ := hwf.hdrLen hmeasure
    obtain ⟨m1, m2, hs⟩ := hframe hle
    obtain ⟨hhead, -⟩ := sent_transport hs hmd hsizes.1 hlong
    -- the version stays, so the receiver measures the same header
    have hfirst : m'.buf m'.dataOff = m.buf m.dataOff := by
      have hpos : 0 < hdrLen := by split at hlong <;> omega
      refine hhead 0 hpos ?_ ?_ ?_
      · rw [protoAt]
        split <;> omega
      · rw [lenAt]
        split <;> omega
      · omega
    obtain ⟨r', hacc, hbytes, hsame, hrec⟩ := wire_recovers dev hpair halgo
      hin hs (by rw [inboundHdrLen_congr hfirst, hmeasure, outerHdrLen_eq hmd])
      hwire
    rw [outerHdrLen_eq hmd] at hrec
    obtain ⟨d, hpost, hback⟩ := transport_back hs hmd htestsi hsizes
      hpair.ivLen hpair.digestLen hin hwf hhdr hrec
    refine ⟨r', hacc, hbytes, hsame, d, hpost, ?_⟩
    rw [htests, if_pos (by decide)]
    exact hback
  · have hzero := outboundHdr_tunnel hmd hhdr ht
    subst hzero
    obtain ⟨m1, m2, hs⟩ := hframe (Nat.zero_le _)
    -- a well formed packet has room for the inner header
    have hlong : 20 ≤ m.dataLen := by
      rw [WellFormed] at hwf
      split at hwf <;> omega
    obtain ⟨r', hacc, hbytes, hsame, hrec⟩ := wire_recovers dev hpair halgo
      hin hs (sent_tunnel hs hmd ht hsizes.1).1 hwire
    obtain ⟨d, hpost, hback⟩ := tunnel_back hs hmd ht
      (by rw [htestsi]; simp [ht]) hsizes hpair.ivLen hpair.digestLen hin hlong
      hrec
    refine ⟨r', hacc, hbytes, hsame, d, hpost, ?_⟩
    rw [htests, if_neg (by simp [ht])]
    exact hback

theorem map_sub_add (k : UInt8) (l : List UInt8) : (l.map (· + k)).map (· - k) = l := by
  rw [List.map_map]
  exact List.map_id'' (fun x => UInt8.add_sub_cancel x k) l

/-- A device whose ciphers add a byte of the key to each byte of a packet, and whose codes
    are sums. -/
def shiftDev : CryptoDev where
  aeadSeal := fun key _ aad p n =>
    (p.map (· + key.headD 0), List.replicate n ((aad ++ p).foldl (· + ·) 0))
  aeadOpen := fun key _ _ c _ => some (c.map (· - key.headD 0))
  ctrEnc := fun key _ p => p.map (· + key.headD 0)
  ctrDec := fun key _ p => p.map (· - key.headD 0)
  block := fun _ key =>
    { E := List.map (· + key.headD 0)
      D := List.map (· - key.headD 0)
      length_E := fun _ h => (List.length_map ..).trans h
      D_E := fun _ _ => map_sub_add _ _ }
  mac := fun _ key p n => List.replicate n (p.foldl (· + ·) (key.headD 0))
  length_seal := fun _ _ _ _ _ => List.length_map ..
  length_tag := fun _ _ _ _ _ => List.length_replicate
  open_seal := fun _ _ _ _ _ => congrArg some (map_sub_add _ _)
  length_ctr := fun _ _ _ => List.length_map ..
  ctr_ctr := fun _ _ _ => map_sub_add _ _
  length_mac := fun _ _ _ _ => List.length_replicate

/-- A transport SA with the NULL algorithms. -/
def nullTransport : IpsecSa :=
  { spi := 5, cipherAlgo := .null, authAlgo := .null, blockSize := 4
    flags := transport }

/-- A bare IPv4 header that announces UDP. -/
def bareUdp : Mbuf where
  addr := 0
  buf := store (fun _ => 0) 128 [0x45, 0, 0, 20, 0, 0, 0, 0, 64, 17]
  bufLen := 256
  dataOff := 128
  dataLen := 20
  window := by decide
  bufLen_le := by decide

theorem nullTransport_legacy : LegacyAlgo nullTransport :=
  .inr ⟨⟨rfl, ⟨⟨.null, 0, 4, 0⟩, by simp [cipherAlgos], rfl, rfl, .inl rfl⟩,
    ⟨.null, 0, 0, 0⟩, by simp [authAlgos], rfl, rfl⟩, .inl rfl⟩

/-- A tunnel over IPv4 with AES-CBC and SHA1-HMAC. -/
def cbcTunnel : IpsecSa :=
  { spi := 5, cipherAlgo := .aesCbc, authAlgo := .sha1Hmac
    ivLen := 16, blockSize := 16, digestLen := 12
    cipherKey := List.replicate 16 7, authKey := List.replicate 20 9
    seq := 41, flags := ip4Tunnel }

/-- A UDP datagram of five bytes: 33 bytes, which take 13 bytes of padding. -/
def fiveBytes : Mbuf where
  addr := 0
  buf := store (fun _ => 0) 128
    ([0x45, 0, 0, 33, 0, 0, 0, 0, 64, 17, 0, 0, 10, 0, 0, 1, 10, 0, 0, 2]
      ++ [0, 53, 0, 53, 0, 13, 0, 0] ++ [1, 2, 3, 4, 5])
  bufLen := 512
  dataOff := 128
  dataLen := 33
  window := by decide
  bufLen_le := by decide

theorem cbcTunnel_legacy : LegacyAlgo cbcTunnel :=
  .inr ⟨⟨rfl, ⟨⟨.aesCbc, 16, 16, 16⟩, by simp [cipherAlgos], rfl, rfl, .inl rfl⟩,
    ⟨.sha1Hmac, 0, 12, 20⟩, by simp [authAlgos], rfl, rfl⟩, .inr (.inl rfl)⟩

/-- Through the tunnel and back, to a gateway with a SA of its own. -/
theorem esp_round_trip_cbc : ∃ m' so',
    espOutbound fiveBytes cbcTunnel = some (0, m', so') ∧ m'.dataLen = 20 + 8 + 16 + 48 + 12
      ∧ ∃ r', espInbound (devEncrypt shiftDev so' m') { cbcTunnel with direction := .ingress }
          = (0, r')
        ∧ ∃ d, espInboundPost (devDecrypt shiftDev { cbcTunnel with direction := .ingress } r')
            { cbcTunnel with direction := .ingress } = some (0, d)
          ∧ AgedBy 2 fiveBytes.bytes d.bytes := by
  obtain ⟨m', hsend⟩ := espOutbound_ok (m := fiveBytes)
    (show cbcTunnel.HasMode .ip4Tunnel by decide) (.inr ⟨by decide, .inr (.inr (.inl rfl))⟩)
    (show outboundHdr fiveBytes cbcTunnel = some (0, 4) by decide)
    (by decide) (by decide) (by decide)
  obtain ⟨r', hrecv, -, -, d, hpost, hback⟩ := esp_round_trip shiftDev
    (r := devEncrypt shiftDev _ m')
    (show Paired cbcTunnel { cbcTunnel with direction := .ingress }
      from ⟨rfl, rfl, rfl, rfl, rfl, rfl, rfl, rfl, rfl, rfl, rfl⟩)
    cbcTunnel_legacy rfl rfl (by rw [WellFormed]; decide) hsend rfl
  rw [if_neg (by decide)] at hback
  have hlen : (espOutbound fiveBytes cbcTunnel).map (fun r => r.2.1.dataLen)
      = some (20 + 8 + 16 + 48 + 12) := by decide +kernel
  rw [hsend] at hlen
  exact ⟨m', _, hsend, Option.some.inj hlen, r', hrecv, d, hpost, hback⟩

end EspRoundTrip
