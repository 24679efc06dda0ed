import IpsecSecgw.EspProofs

/-! # The ESP frame on both sides of the wire

    `esp_outbound` and `esp_inbound` were written separately; here they are
    brought to one picture of a packet and of the crypto operation over it.

    * `espOutbound_frame`: the packet produced is outer header, ESP header, IV
      field, payload, trailer, digest, and the crypto operation covers exactly
      these.
    * `espInbound_ok`: the receiver accepts such a frame and sets up its own
      operation. -/

namespace EspFrame

open ByteStore SaModel MbufModel Ipip Esp

/-! ## The SAs of the round trip -/

/-- AES-GCM, or one of the four ciphers with one of the three authentication
    algorithms, with the lengths of the tables. -/
def LegacyAlgo (sa : IpsecSa) : Prop :=
  (sa.aeadAlgo = .aesGcm ∧ sa.AeadFromTable)
    ∨ (sa.CipherFromTable ∧ (sa.authAlgo = .null ∨ sa.authAlgo = .sha1Hmac
        ∨ sa.authAlgo = .sha256Hmac))

/-- How the four ciphers lay out their IV: GCM and CTR keep eight bytes of it
    for the counter, CBC one whole block, NULL has none. -/
def IvFits (sa : IpsecSa) : Prop :=
  if sa.aeadAlgo = .aesGcm then sa.ivLen.toNat = 8
  else
    match sa.cipherAlgo with
    | .unset => False
    | .null => sa.ivLen.toNat = 0
    | .tripleDesCbc | .aesCbc => sa.ivLen.toNat = sa.blockSize.toNat
    | .aesCtr => 8 ≤ sa.ivLen.toNat

theorem LegacyAlgo.fromTables {sa : IpsecSa} (h : LegacyAlgo sa) :
    sa.FromTables := by
  rcases h with ⟨-, h⟩ | ⟨h, -⟩
  · exact .inl h
  · exact .inr h

theorem LegacyAlgo.ivFits {sa : IpsecSa} (h : LegacyAlgo sa) : IvFits sa := by
  rw [IvFits]
  rcases h with ⟨hg, e, he, halgo, hiv, -, -⟩ | ⟨⟨hu, ⟨c, hc, hca, hbs, hiv⟩, -⟩, hauth⟩
  · rw [if_pos hg, hiv]
    have hall : ∀ e ∈ aeadAlgos, e.algo = .aesGcm → e.ivLen.toNat = 8 := by
      decide
    exact hall e he (halgo ▸ hg)
  · have hiv' : sa.ivLen = c.ivLen := by
      rcases hiv with hiv | ⟨hgmac, -⟩
      · exact hiv
      · rw [hgmac] at hauth
        exact absurd hauth (by decide)
    rw [if_neg (by rw [hu]; decide), hca, hiv', hbs]
    have hall : ∀ c ∈ cipherAlgos, (match c.algo with
        | .unset => False
        | .null => c.ivLen.toNat = 0
        | .tripleDesCbc | .aesCbc => c.ivLen.toNat = c.blockSize.toNat
        | .aesCtr => 8 ≤ c.ivLen.toNat) := by
      simp [cipherAlgos]
    exact hall c hc

/-- Outside GCM the authentication algorithm is one `esp_outbound` knows. -/
theorem LegacyAlgo.auth {sa : IpsecSa} (h : LegacyAlgo sa)
    (hg : sa.aeadAlgo ≠ .aesGcm) :
    sa.authAlgo = .null ∨ sa.authAlgo = .sha1Hmac
      ∨ sa.authAlgo = .sha256Hmac := by
  rcases h with ⟨h, -⟩ | ⟨-, h⟩
  · exact absurd h hg
  · exact h

/-- The IV bytes `esp_outbound` writes stay inside the IV field. -/
theorem outboundIv_length {sa : IpsecSa} {iv : List UInt8} (hfits : IvFits sa)
    (h : outboundIv sa = some iv) : iv.length ≤ sa.ivLen.toNat := by
  rw [IvFits] at hfits
  rw [outboundIv] at h
  by_cases hg : sa.aeadAlgo = .aesGcm
  · rw [if_pos hg] at h hfits
    rw [← Option.some.inj h, length_toBe]
    exact Nat.le_of_eq hfits.symm
  · rw [if_neg hg] at h hfits
    cases hc : sa.cipherAlgo with
    | unset =>
        rw [hc] at h
        cases h
    | null | tripleDesCbc | aesCbc =>
        rw [hc] at h
        rw [← Option.some.inj h]
        exact Nat.le_of_eq (List.length_replicate ..)
    | aesCtr =>
        rw [hc] at h hfits
        rw [← Option.some.inj h, length_toBe]
        exact hfits

/-! ## The frame -/

/-- The last bytes of the payload: padding, its length, the next header. -/
def trailerBytes (padLen : Nat) (nlp : UInt8) : List UInt8 :=
  padBytes (padLen - 2) ++ [UInt8.ofNat padLen - 2, nlp]

/-- The packet is an outer header of `hdr` bytes, the ESP header, an IV field
    of `iv` bytes, `n` bytes of payload, the trailer and the digest. -/
structure Frame (m : Mbuf) (hdr iv n padLen digest : Nat) (nlp : UInt8) :
    Prop where
  len : m.dataLen = hdr + 8 + iv + (n + padLen) + digest
  two_le : 2 ≤ padLen
  le : padLen ≤ 65
  trailer : load m.buf (m.dataOff + (hdr + 8 + iv + n)) padLen
    = trailerBytes padLen nlp

/-- Writing the trailer writes `trailerBytes`. -/
theorem load_writeTrailer (m : Mbuf) (padding : Nat) {padLen : Nat}
    (nlp : UInt8) (hpad : 2 ≤ padLen) :
    load (writeTrailer m padding padLen nlp).buf padding padLen
      = trailerBytes padLen nlp := by
  have hend : padding + padLen - 2 = padding + (padBytes (padLen - 2)).length := by
    rw [length_padBytes]
    omega
  rw [writeTrailer, writeTrailerEnd, Mbuf.write_buf, Mbuf.write_buf, hend,
    store_append]
  exact load_store_eq _ (by simp; omega)

/-- The trailer read back: padding, its length, the next header. -/
theorem Frame.read {m : Mbuf} {hdr iv n padLen digest : Nat} {nlp : UInt8}
    (h : Frame m hdr iv n padLen digest nlp) :
    load m.buf (m.dataOff + (hdr + 8 + iv + n)) (padLen - 2)
        = padBytes (padLen - 2)
      ∧ (m.buf (m.dataOff + (hdr + 8 + iv + n) + (padLen - 2))).toNat
        = padLen - 2
      ∧ m.buf (m.dataOff + (hdr + 8 + iv + n) + (padLen - 2) + 1) = nlp := by
  have h2 := h.two_le
  have h65 := h.le
  have htrail := h.trailer
  have hsplit := load_add m.buf (m.dataOff + (hdr + 8 + iv + n)) (padLen - 2) 2
  rw [show padLen - 2 + 2 = padLen by omega, htrail, trailerBytes] at hsplit
  obtain ⟨hpad, hend⟩ := List.append_inj hsplit (by simp)
  have hcons : [UInt8.ofNat padLen - 2, nlp]
      = [m.buf (m.dataOff + (hdr + 8 + iv + n) + (padLen - 2)),
        m.buf (m.dataOff + (hdr + 8 + iv + n) + (padLen - 2) + 1)] := hend
  obtain ⟨hlen, hnext⟩ := List.cons.inj hcons
  have hnlp := (List.cons.inj hnext).1
  refine ⟨hpad.symm, ?_, hnlp.symm⟩
  have hle : (2 : UInt8) ≤ UInt8.ofNat padLen := by
    rw [UInt8.le_iff_toNat_le, UInt8.toNat_ofNat']
    show 2 ≤ padLen % 256
    omega
  rw [← hlen, UInt8.toNat_sub_of_le _ _ hle, UInt8.toNat_ofNat']
  show padLen % 256 - 2 = padLen - 2
  omega

/-- The region a cipher outside GCM is given by the sender: CBC and NULL start
    at the IV field, CTR behind it. -/
def sentCipher (sa : IpsecSa) (hdr payload : Nat) : Region :=
  match sa.cipherAlgo with
  | .null | .tripleDesCbc | .aesCbc | .unset =>
      ⟨hdr + 8, payload + sa.ivLen.toNat⟩
  | .aesCtr => ⟨hdr + 8 + sa.ivLen.toNat, payload⟩

/-- The crypto operation of the sender. -/
structure SentOp (sa : IpsecSa) (m : Mbuf) (hdr payload : Nat) : Prop where
  blk : load m.priv.buf 0 16 = cntBlk sa.salt (toBe 8 sa.seq.toNat)
  aead : sa.aeadAlgo = .aesGcm →
    m.priv.cop.sym.aead = ⟨hdr + 8 + sa.ivLen.toNat, payload⟩
      ∧ m.priv.cop.sym.aeadDigest
        = m.dataOff + m.dataLen - sa.digestLen.toNat
      ∧ load m.priv.buf 16 8 = load m.buf (m.dataOff + hdr) 8
  cipher : sa.aeadAlgo ≠ .aesGcm →
    sa.cipherAlgo ≠ .unset
      ∧ m.priv.cop.sym.cipher = sentCipher sa hdr payload
      ∧ m.priv.cop.sym.auth = ⟨hdr, 8 + sa.ivLen.toNat + payload⟩
      ∧ m.priv.cop.sym.authDigest
        = m.dataOff + m.dataLen - sa.digestLen.toNat

theorem length_cntBlk (salt : UInt32) {iv : List UInt8} (h : iv.length = 8) :
    (cntBlk salt iv).length = 16 := by
  simp [cntBlk, h]

/-- A successful last part leaves the counter block of the SA's state. -/
theorem outboundCrypto_blk {m m' : Mbuf} {sa : IpsecSa}
    {esp hdr payload padding padLen : Nat} {nlp : UInt8}
    (h : outboundCrypto m sa esp hdr payload padding padLen nlp = (0, m')) :
    load m'.priv.buf 0 16 = cntBlk sa.salt (toBe 8 sa.seq.toNat) := by
  have hblk : (cntBlk sa.salt (toBe 8 sa.seq.toNat)).length = 16 :=
    length_cntBlk _ (length_toBe 8 _)
  rw [outboundCrypto] at h
  by_cases hg : sa.aeadAlgo = .aesGcm
  · rw [if_pos hg] at h
    rw [← (Prod.mk.inj h).2]
    simp only [Mbuf.setSym_priv_buf, Mbuf.writePriv_priv_buf,
      writeTrailer_priv]
    rw [load_store_of_disjoint _ (by omega), load_store_eq _ hblk]
  · rw [if_neg hg] at h
    cases hc : sa.cipherAlgo with
    | unset =>
        rw [hc] at h
        exact absurd (Prod.mk.inj h).1 (by decide)
    | null | tripleDesCbc | aesCbc | aesCtr =>
        rw [hc] at h
        dsimp only at h
        cases ha : sa.authAlgo with
        | null | sha1Hmac | sha256Hmac =>
            rw [ha] at h
            rw [← (Prod.mk.inj h).2]
            simp only [Mbuf.setSym_priv_buf, Mbuf.writePriv_priv_buf,
              writeTrailer_priv]
            exact load_store_eq _ hblk
        | unset | sha384Hmac | sha512Hmac | aesGmac | aesXcbcMac =>
            rw [ha] at h
            exact absurd (Prod.mk.inj h).1 (by decide)

/-- **THE SENDER'S OPERATION**: a successful last part writes the trailer and
    sets up the operation. -/
theorem outboundCrypto_op {m m' : Mbuf} {sa : IpsecSa}
    {esp hdr payload padding padLen : Nat} {nlp : UInt8}
    (h : outboundCrypto m sa esp hdr payload padding padLen nlp = (0, m'))
    (hesp : esp = m.dataOff + hdr) :
    m'.buf = (writeTrailer m padding padLen nlp).buf
      ∧ m'.dataOff = m.dataOff ∧ m'.dataLen = m.dataLen
      ∧ SentOp sa m' hdr payload := by
  have hblk := outboundCrypto_blk h
  rw [outboundCrypto] at h
  by_cases hg : sa.aeadAlgo = .aesGcm
  · rw [if_pos hg] at h
    rw [← (Prod.mk.inj h).2]
    refine ⟨by simp, by simp, by simp, ?_, fun _ => ⟨by simp, by simp, ?_⟩,
      fun hn => absurd hg hn⟩
    · rw [(Prod.mk.inj h).2]
      exact hblk
    · simp only [Mbuf.setSym_priv_buf, Mbuf.writePriv_priv_buf,
        Mbuf.setSym_buf, Mbuf.writePriv_buf, Mbuf.setSym_dataOff,
        Mbuf.writePriv_dataOff, writeTrailer_dataOff]
      rw [load_store_eq _ (length_load _ _ 8), hesp]
  · rw [if_neg hg] at h
    -- behind the cipher all algorithms authenticate alike
    have hauth : ∀ (region : Region) (n : Mbuf),
        n = ((writeTrailer (m.setSym fun s => { s with cipher := region })
          padding padLen nlp).writePriv 0
            (cntBlk sa.salt (toBe 8 sa.seq.toNat))).setSym
          (fun s =>
            { s with
              auth := ⟨hdr, 8 + sa.ivLen.toNat + payload⟩
              authDigest := m.dataOff + m.dataLen - sa.digestLen.toNat }) →
        sa.cipherAlgo ≠ .unset → region = sentCipher sa hdr payload →
        n = m' → n.buf = (writeTrailer m padding padLen nlp).buf
          ∧ n.dataOff = m.dataOff ∧ n.dataLen = m.dataLen
          ∧ SentOp sa n hdr payload := by
      intro region n hn hc hregion hm
      rw [← hm] at hblk
      refine ⟨by rw [hn]; simp, by rw [hn]; simp, by rw [hn]; simp, hblk,
        fun hgcm => absurd hgcm hg, fun _ => ⟨hc, ?_, ?_, ?_⟩⟩
      · rw [hn]
        simp [hregion]
      · rw [hn]
        simp
      · rw [hn]
        simp
    cases hc : sa.cipherAlgo with
    | unset =>
        rw [hc] at h
        exact absurd (Prod.mk.inj h).1 (by decide)
    | null | tripleDesCbc | aesCbc | aesCtr =>
        rw [hc] at h
        dsimp only at h
        cases ha : sa.authAlgo with
        | null | sha1Hmac | sha256Hmac =>
            rw [ha] at h
            refine hauth _ m' (Prod.mk.inj h).2.symm (by rw [hc]; decide) ?_ rfl
            rw [sentCipher, hc]
        | unset | sha384Hmac | sha512Hmac | aesGmac | aesXcbcMac =>
            rw [ha] at h
            exact absurd (Prod.mk.inj h).1 (by decide)

/-- What a successful call leaves, seen from the packet it produces: the
    frame, its ESP header and IV, the operation over it, and the encapsulated
    packet it was built from. -/
structure Sent (m m' : Mbuf) (sa sa' : IpsecSa) (hdrLen : Nat) (nlp : UInt8)
    (m1 m2 : Mbuf) : Prop where
  counter : sa' = { sa with seq := sa.seq + 1 }
  frame : Frame m' (outerHdrLen sa hdrLen) sa.ivLen.toNat
    (m.dataLen - hdrLen) (padLen m.dataLen hdrLen sa.blockSize)
    sa.digestLen.toNat nlp
  payload : padPayloadLen m.dataLen hdrLen sa.blockSize
    = m.dataLen - hdrLen + padLen m.dataLen hdrLen sa.blockSize
  blocks : sa.blockSize.toNat ∣ padPayloadLen m.dataLen hdrLen sa.blockSize
  op : SentOp sa' m' (outerHdrLen sa hdrLen)
    (padPayloadLen m.dataLen hdrLen sa.blockSize)
  iv : ∀ iv, outboundIv sa' = some iv →
    load m'.buf (m'.dataOff + outerHdrLen sa hdrLen + 8) iv.length = iv
  body : m'.dataOff + outerHdrLen sa hdrLen + 8 + sa.ivLen.toNat
    = m.dataOff + hdrLen
  room : m1.buf = m.buf ∧ m1.dataOff = m.dataOff
    ∧ m1.dataLen = m.dataLen + (padLen m.dataLen hdrLen sa.blockSize
      + sa.digestLen.toNat)
  encap : espEncap m1 sa m.dataOff (outerHdrLen sa hdrLen)
    = some (m'.dataOff + outerHdrLen sa hdrLen, m2)
  start : m2.dataOff = m'.dataOff
  length : m2.dataLen = m'.dataLen
  rest : ∀ i, i < m'.dataOff + outerHdrLen sa hdrLen
    ∨ m.dataOff + hdrLen ≤ i ∧ i < m.dataOff + m.dataLen →
    m'.buf i = m2.buf i

/-- **THE SENDER**: a successful call on a lookaside SA produces a frame with
    a matching operation. -/
theorem espOutbound_frame {m m' : Mbuf} {sa sa' : IpsecSa} {md : SaMode}
    {hdrLen : Nat} {nlp : UInt8} (hmd : sa.HasMode md) (halgo : LegacyAlgo sa)
    (htype : sa.primary.type ≠ .inlineCrypto)
    (hhdr : outboundHdr m sa = some (hdrLen, nlp)) (hle : hdrLen ≤ m.dataLen)
    (h : espOutbound m sa = some (0, m', sa')) :
    ∃ m1 m2, Sent m m' sa sa' hdrLen nlp m1 m2 := by
  obtain ⟨hbs, hiv16, hdig⟩ := halgo.fromTables.sizes
  obtain ⟨hdrLen', nlp', padding, m1, esp, m2, iv, hhdr', hsize, happ, henc,
    hsa, hiv, htail⟩ := espOutbound_success h
  rw [hhdr] at hhdr'
  obtain ⟨rfl, rfl⟩ := Prod.mk.inj (Option.some.inj hhdr')
  have hmax := m.bufLen_le
  have hwin := m.window
  have hhdr60 := outboundHdr_le hhdr
  have hbig : ipMaxPacket = 65535 := rfl
  have hpad := padLen_bounds m.dataLen hbs (by omega) hhdr60
  -- no device appends the trailer
  have hhw : hwTrailer sa.primary txHwTrailerOffload = false := by
    rw [hwTrailer, beq_eq_false_iff_ne.mpr htype, Bool.false_and]
  obtain ⟨hbuf1, hoff1, -, hplace⟩ := appendTrailer_some (by omega) happ
  obtain ⟨hpadding, hlen1, hfit⟩ := hplace hhw
  obtain ⟨hpay, hblocks⟩ := padPayloadLen_spec hbs (by omega) hhdr60 hle
    (by omega)
  have hfits : IvFits sa' := by
    rw [hsa]
    exact halgo.ivFits
  have hivlen := outboundIv_length hfits hiv
  rw [hsa] at hivlen
  dsimp only at hivlen
  rw [← hoff1] at henc
  obtain ⟨hesp, hend, hlen2, -⟩ := espEncap_place hmd
    (fun hne => outboundHdr_tunnel hmd hhdr hne) (by omega) henc
  -- the three writes behind the encapsulation leave its place alone
  rw [hoff1] at henc hend
  rw [outboundTail, if_neg (by rw [hsa]; exact htype)] at htail
  obtain ⟨hbuf, hoff, hlen, hop⟩ := outboundCrypto_op htail hesp
  rw [Mbuf.write_dataOff, Mbuf.write_dataOff] at hoff
  rw [Mbuf.write_dataLen, Mbuf.write_dataLen] at hlen
  rw [← hoff] at hesp
  refine ⟨m1, m2, hsa, ⟨by omega, hpad.1, hpad.2, ?_⟩, hpay, hblocks, hop, ?_,
    by omega, ⟨hbuf1, hoff1, hlen1⟩, by rw [← hesp]; exact henc, hoff.symm,
    hlen.symm, ?_⟩
  · rw [hbuf, show m'.dataOff + (outerHdrLen sa hdrLen + 8 + sa.ivLen.toNat
      + (m.dataLen - hdrLen)) = padding by omega]
    exact load_writeTrailer _ _ _ hpad.1
  · intro iv' hiv'
    rw [hiv] at hiv'
    rw [← Option.some.inj hiv', ← hesp, hbuf]
    -- the trailer lies behind the IV
    refine Eq.trans ?_ (load_store_same (m2.write esp (toBe 4 sa.spi.toNat
      ++ toBe 4 sa'.seq.toNat)).buf (esp + 8) iv)
    refine load_congr fun i hi => ?_
    rw [writeTrailer_outside _ _ hpad.1 (by omega), Mbuf.write_buf]
  · intro i hi
    rw [hbuf, writeTrailer_outside _ _ hpad.1 (by omega), Mbuf.write_buf,
      store_outside _ (by omega), Mbuf.write_buf,
      store_outside _ (by simp; omega)]

/-! ## The receiver's operation -/

/-- The crypto operation of the receiver. -/
structure RecvOp (sa : IpsecSa) (m : Mbuf) (hdr payload : Nat) : Prop where
  blk : sa.aeadAlgo = .aesGcm ∨ sa.cipherAlgo = .aesCtr →
    load m.priv.buf 0 16
      = cntBlk sa.salt (load m.buf (m.dataOff + hdr + 8) 8)
  aead : sa.aeadAlgo = .aesGcm →
    m.priv.cop.sym.aead = ⟨hdr + 8 + sa.ivLen.toNat, payload⟩
      ∧ m.priv.cop.sym.aeadDigest
        = m.dataOff + m.dataLen - sa.digestLen.toNat
      ∧ load m.priv.buf 16 8 = load m.buf (m.dataOff + hdr) 8
  cipher : sa.aeadAlgo ≠ .aesGcm →
    m.priv.cop.sym.cipher = ⟨hdr + 8 + sa.ivLen.toNat, payload⟩
      ∧ m.priv.cop.sym.auth = ⟨hdr, 8 + sa.ivLen.toNat + payload⟩
      ∧ m.priv.cop.sym.authDigest
        = m.dataOff + m.dataLen - sa.digestLen.toNat
  iv : sa.aeadAlgo ≠ .aesGcm → sa.cipherAlgo ≠ .aesCtr →
    load m.priv.buf 0 sa.ivLen.toNat
      = load m.buf (m.dataOff + hdr + 8) sa.ivLen.toNat

/-- A multiple of a table's block size passes the alignment test. -/
theorem aligned_of_dvd {payload : Nat} {bs : UInt16}
    (hbs : bs = 4 ∨ bs = 8 ∨ bs = 16 ∨ bs = 64) (hlt : payload < 0x10000)
    (hdvd : bs.toNat ∣ payload) :
    UInt32.ofNat payload &&& (bs.toUInt32 - 1) = 0 := by
  obtain ⟨k, hk, hpow⟩ := blockSize_pow hbs
  have hmask : (bs.toUInt32 - 1).toNat = 2 ^ k - 1 := by
    rw [UInt32.toNat_sub_of_le _ _ (by
      rw [UInt32.le_iff_toNat_le, UInt16.toNat_toUInt32, hpow]
      exact Nat.pow_pos (by omega)), UInt16.toNat_toUInt32, hpow]
    rfl
  refine UInt32.toNat.inj ?_
  rw [UInt32.toNat_and, hmask, UInt32.toNat_ofNat',
    Nat.mod_eq_of_lt (by omega), Nat.and_two_pow_sub_one_eq_mod, ← hpow]
  exact Nat.mod_eq_zero_of_dvd hdvd

/-- The GCM part leaves the packet alone. -/
theorem inboundAead_frame (m : Mbuf) (sa : IpsecSa) (hdr payload : Nat) :
    (inboundAead m sa hdr payload).buf = m.buf
      ∧ (inboundAead m sa hdr payload).dataOff = m.dataOff
      ∧ (inboundAead m sa hdr payload).dataLen = m.dataLen := by
  simp [inboundAead]

/-- The GCM part sets up the operation. -/
theorem inboundAead_op (m : Mbuf) {sa : IpsecSa} (hdr payload : Nat)
    (hg : sa.aeadAlgo = .aesGcm) :
    RecvOp sa (inboundAead m sa hdr payload) hdr payload := by
  have hblk : ∀ a, (cntBlk sa.salt (load m.buf a 8)).length = 16 :=
    fun a => length_cntBlk _ (length_load _ _ _)
  refine ⟨fun _ => ?_, fun _ => ⟨by simp [inboundAead], by simp [inboundAead],
    ?_⟩, fun hn => absurd hg hn, fun hn => absurd hg hn⟩
  · simp only [inboundAead, Mbuf.setSym_priv_buf, Mbuf.writePriv_priv_buf,
      Mbuf.setSym_buf, Mbuf.writePriv_buf, Mbuf.setSym_dataOff,
      Mbuf.writePriv_dataOff]
    rw [load_store_of_disjoint _ (by omega), load_store_eq _ (hblk _)]
  · simp only [inboundAead, Mbuf.setSym_priv_buf, Mbuf.writePriv_priv_buf,
      Mbuf.setSym_buf, Mbuf.writePriv_buf, Mbuf.setSym_dataOff,
      Mbuf.writePriv_dataOff]
    rw [load_store_eq _ (length_load _ _ 8), Nat.add_sub_cancel]

/-- The other part does so for the supported algorithms. -/
theorem inboundCipher_op (m : Mbuf) {sa : IpsecSa} (hdr payload : Nat)
    (hg : sa.aeadAlgo ≠ .aesGcm) (hc : sa.cipherAlgo ≠ .unset)
    (ha : sa.authAlgo = .null ∨ sa.authAlgo = .sha1Hmac
      ∨ sa.authAlgo = .sha256Hmac) :
    ∃ m', inboundCipher m sa hdr payload = (0, m') ∧ m'.buf = m.buf
      ∧ m'.dataOff = m.dataOff ∧ m'.dataLen = m.dataLen
      ∧ RecvOp sa m' hdr payload := by
  have hblk : (cntBlk sa.salt (load m.buf (m.dataOff + hdr + 8) 8)).length
      = 16 := length_cntBlk _ (length_load _ _ _)
  obtain ⟨iv, hiv, hctr, hcbc⟩ : ∃ iv,
      inboundIv (m.setSym fun s =>
        { s with cipher := ⟨hdr + 8 + sa.ivLen.toNat, payload⟩ }) sa
        (m.dataOff + hdr + 8) = some iv
      ∧ (sa.cipherAlgo = .aesCtr →
          iv = cntBlk sa.salt (load m.buf (m.dataOff + hdr + 8) 8))
      ∧ (sa.cipherAlgo ≠ .aesCtr →
          iv = load m.buf (m.dataOff + hdr + 8) sa.ivLen.toNat) := by
    rw [inboundIv]
    cases hca : sa.cipherAlgo with
    | unset => exact absurd hca hc
    | null | tripleDesCbc | aesCbc =>
        exact ⟨_, rfl, (fun h => nomatch h), fun _ => rfl⟩
    | aesCtr => exact ⟨_, rfl, fun _ => rfl, fun h => absurd rfl h⟩
  -- whichever of the three algorithms authenticates, the result is the same
  have hsame : inboundCipher m sa hdr payload = (0,
      ((m.setSym fun s => { s with
        cipher := ⟨hdr + 8 + sa.ivLen.toNat, payload⟩ }).writePriv 0 iv).setSym
        fun s => { s with
          auth := ⟨hdr, 8 + sa.ivLen.toNat + payload⟩
          authDigest := m.dataOff + m.dataLen - sa.digestLen.toNat }) := by
    rw [inboundCipher, Mbuf.setSym_dataOff, hiv]
    rcases ha with h | h | h <;> simp [h]
  refine ⟨_, hsame, by simp, by simp, by simp, fun h => ?_,
    fun h => absurd h hg, fun _ => by simp, fun _ h => ?_⟩
  · simp only [Mbuf.setSym_priv_buf, Mbuf.writePriv_priv_buf, Mbuf.setSym_buf,
      Mbuf.writePriv_buf, Mbuf.setSym_dataOff, Mbuf.writePriv_dataOff]
    rw [hctr (h.resolve_left hg), load_store_eq _ hblk]
  · simp only [Mbuf.setSym_priv_buf, Mbuf.writePriv_priv_buf, Mbuf.setSym_buf,
      Mbuf.writePriv_buf, Mbuf.setSym_dataOff, Mbuf.writePriv_dataOff]
    rw [hcbc h, load_store_eq _ (length_load _ _ _)]

/-- **THE RECEIVER**: a frame of whole blocks is accepted, and the operation
    covers it. -/
theorem espInbound_ok {m : Mbuf} {sa : IpsecSa} {hdr payload : Nat}
    (halgo : LegacyAlgo sa) (htype : sa.primary.type ≠ .inlineCrypto)
    (hhdr : inboundHdrLen m = some hdr)
    (hlen : m.dataLen = hdr + 8 + sa.ivLen.toNat + payload
      + sa.digestLen.toNat)
    (hpos : 0 < payload) (hdvd : sa.blockSize.toNat ∣ payload) :
    ∃ m', espInbound m sa = (0, m') ∧ m'.buf = m.buf
      ∧ m'.dataOff = m.dataOff ∧ m'.dataLen = m.dataLen
      ∧ RecvOp sa m' hdr payload := by
  obtain ⟨hbs, -, -⟩ := halgo.fromTables.sizes
  have hmax := m.bufLen_le
  have hwin := m.window
  have hpay : (m.dataLen : Int) - hdr - 8 - sa.ivLen.toNat
      - sa.digestLen.toNat = (payload : Int) := by omega
  have hpass : ¬ ((payload : Int) ≤ 0 ∨
      UInt32.ofNat (payload : Int).toNat &&& (sa.blockSize.toUInt32 - 1)
        ≠ 0) := by
    rw [Int.toNat_natCast, aligned_of_dvd hbs (by omega) hdvd]
    simp
    omega
  rw [espInbound, if_neg htype, hhdr]
  dsimp only
  rw [hpay, if_neg hpass, Int.toNat_natCast]
  by_cases hg : sa.aeadAlgo = .aesGcm
  · rw [if_pos hg]
    obtain ⟨h1, h2, h3⟩ := inboundAead_frame m sa hdr payload
    exact ⟨_, rfl, h1, h2, h3, inboundAead_op m hdr payload hg⟩
  · rw [if_neg hg]
    have hfits := halgo.ivFits
    rw [IvFits, if_neg hg] at hfits
    refine inboundCipher_op m hdr payload hg ?_ (halgo.auth hg)
    intro hc
    rw [hc] at hfits
    exact hfits

/-- Post-processing a verified packet starts with its trailer. -/
theorem espInboundPost_verified {d : Mbuf} {sa : IpsecSa}
    (htype : sa.primary.type = .none) (h : d.priv.cop.status = .success) :
    espInboundPost d sa
      = match stripTrailer d sa with
        | none => none
        | some (.error rc) => some (rc, d)
        | some (.ok (nexthdr, m)) =>
            (if isTransport sa.flags then
              transportInbound m (8 + sa.ivLen.toNat) nexthdr
            else ipipInbound m (8 + sa.ivLen.toNat)).map fun m => (0, m) := by
  have hstatus : inboundStatus d sa = .success := by
    rw [inboundStatus, htype, if_neg (by decide), h]
  rw [espInboundPost, hstatus]
  dsimp only
  rw [Mbuf.setStatus_self h, h, if_neg (by decide)]
  cases stripTrailer d sa with
  | none => rfl
  | some e =>
      cases e with
      | error rc => rfl
      | ok r =>
          dsimp only
          cases (if isTransport sa.flags then
            transportInbound r.2 (8 + sa.ivLen.toNat) r.1
            else ipipInbound r.2 (8 + sa.ivLen.toNat)) <;> rfl

end EspFrame
