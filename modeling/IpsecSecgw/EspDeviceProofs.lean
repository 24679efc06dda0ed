import IpsecSecgw.Lib.BlockChain
import IpsecSecgw.EspFrameProofs

/-! # ESP frames and crypto devices

    What a crypto device does with the operation of an mbuf, for any
    algorithms whose deciphering undoes their enciphering (`CryptoDev`).

    * `sameOp_of_wire`: the receiver derives the sender's operation from the
      bytes of the wire.
    * `recovered_gcm` and `recovered_cipher`: the receiving device verifies
      the packet and restores header and payload. -/

namespace EspDevice

open ByteStore BlockChain SaModel MbufModel Esp EspFrame

/-! ## The crypto device -/

/-- Exclusive or of two bytes. -/
def xorByte (a b : UInt8) : UInt8 := a ^^^ b

theorem xorByte_cancel (a b : UInt8) : xorByte a (xorByte a b) = b := by
  rw [xorByte, xorByte, ← UInt8.xor_assoc, UInt8.xor_self, UInt8.zero_xor]

/-- The algorithms of a crypto device: an AEAD that seals and opens, a stream
    cipher, block ciphers by block length, and message codes of a given
    length.  Deciphering undoes enciphering, nothing else is assumed. -/
structure CryptoDev where
  aeadSeal : List UInt8 → List UInt8 → List UInt8 → List UInt8 → Nat →
    List UInt8 × List UInt8
  aeadOpen : List UInt8 → List UInt8 → List UInt8 → List UInt8 → List UInt8 →
    Option (List UInt8)
  ctrEnc : List UInt8 → List UInt8 → List UInt8 → List UInt8
  ctrDec : List UInt8 → List UInt8 → List UInt8 → List UInt8
  block : (n : Nat) → List UInt8 → BlockCipher UInt8 n
  mac : AuthAlgo → List UInt8 → List UInt8 → Nat → List UInt8
  length_seal : ∀ key blk aad p n, (aeadSeal key blk aad p n).1.length = p.length
  length_tag : ∀ key blk aad p n, (aeadSeal key blk aad p n).2.length = n
  open_seal : ∀ key blk aad p n,
    aeadOpen key blk aad (aeadSeal key blk aad p n).1
      (aeadSeal key blk aad p n).2 = some p
  length_ctr : ∀ key blk p, (ctrEnc key blk p).length = p.length
  ctr_ctr : ∀ key blk p, ctrDec key blk (ctrEnc key blk p) = p
  length_mac : ∀ algo key p n, (mac algo key p n).length = n

/-- Encipher outside GCM: CBC chains whole blocks from the IV in the private
    buffer, CTR runs from the counter block there. -/
def encipher (dev : CryptoDev) (sa : IpsecSa) (b : Nat → UInt8)
    (p : List UInt8) : List UInt8 :=
  match sa.cipherAlgo with
  | .null | .unset => p
  | .tripleDesCbc | .aesCbc =>
      cbcEnc xorByte (dev.block sa.blockSize.toNat sa.cipherKey).E
        sa.blockSize.toNat (p.length / sa.blockSize.toNat)
        (load b 0 sa.ivLen.toNat) p
  | .aesCtr => dev.ctrEnc sa.cipherKey (load b 0 16) p

/-- Decipher outside GCM. -/
def decipher (dev : CryptoDev) (sa : IpsecSa) (b : Nat → UInt8)
    (p : List UInt8) : List UInt8 :=
  match sa.cipherAlgo with
  | .null | .unset => p
  | .tripleDesCbc | .aesCbc =>
      cbcDec xorByte (dev.block sa.blockSize.toNat sa.cipherKey).D
        sa.blockSize.toNat (p.length / sa.blockSize.toNat)
        (load b 0 sa.ivLen.toNat) p
  | .aesCtr => dev.ctrDec sa.cipherKey (load b 0 16) p

/-- The bytes of a region. -/
def regionBytes (m : Mbuf) (r : Region) : List UInt8 :=
  load m.buf (m.dataOff + r.offset) r.length

/-- The outbound session: seal, or encipher and then authenticate. -/
def devEncrypt (dev : CryptoDev) (sa : IpsecSa) (m : Mbuf) : Mbuf :=
  let s := m.priv.cop.sym
  if sa.aeadAlgo = .aesGcm then
    let r := dev.aeadSeal sa.cipherKey (load m.priv.buf 0 16)
      (load m.priv.buf 16 8) (regionBytes m s.aead) sa.digestLen.toNat
    (m.write (m.dataOff + s.aead.offset) r.1).write s.aeadDigest r.2
  else
    let m := m.write (m.dataOff + s.cipher.offset)
      (encipher dev sa m.priv.buf (regionBytes m s.cipher))
    m.write s.authDigest
      (dev.mac sa.authAlgo sa.authKey (regionBytes m s.auth)
        sa.digestLen.toNat)

/-- The inbound session: open, or verify and then decipher. -/
def devDecrypt (dev : CryptoDev) (sa : IpsecSa) (m : Mbuf) : Mbuf :=
  let s := m.priv.cop.sym
  if sa.aeadAlgo = .aesGcm then
    match dev.aeadOpen sa.cipherKey (load m.priv.buf 0 16)
        (load m.priv.buf 16 8) (regionBytes m s.aead)
        (load m.buf s.aeadDigest sa.digestLen.toNat) with
    | none => m.setStatus .authFailed
    | some p => (m.write (m.dataOff + s.aead.offset) p).setStatus .success
  else if dev.mac sa.authAlgo sa.authKey (regionBytes m s.auth)
      sa.digestLen.toNat ≠ load m.buf s.authDigest sa.digestLen.toNat then
    m.setStatus .authFailed
  else
    (m.write (m.dataOff + s.cipher.offset)
      (decipher dev sa m.priv.buf (regionBytes m s.cipher))).setStatus .success

/-! ## Both devices together -/

/-- An outbound and an inbound SA with equal parameters. -/
structure Paired (so si : IpsecSa) : Prop where
  spi : si.spi = so.spi
  salt : si.salt = so.salt
  aeadAlgo : si.aeadAlgo = so.aeadAlgo
  cipherAlgo : si.cipherAlgo = so.cipherAlgo
  authAlgo : si.authAlgo = so.authAlgo
  ivLen : si.ivLen = so.ivLen
  blockSize : si.blockSize = so.blockSize
  digestLen : si.digestLen = so.digestLen
  cipherKey : si.cipherKey = so.cipherKey
  authKey : si.authKey = so.authKey
  mode : withoutTransportVersion si.flags = withoutTransportVersion so.flags

/-- Where the sender starts to encipher. -/
def cipherStart (sa : IpsecSa) (hdr : Nat) : Nat :=
  if sa.aeadAlgo = .aesGcm then hdr + 8 + sa.ivLen.toNat
  else (sentCipher sa hdr 0).offset

/-- Enciphering starts behind the ESP header, for GCM and CTR behind the IV
    field. -/
theorem cipherStart_bounds (sa : IpsecSa) (hdr : Nat) :
    hdr + 8 ≤ cipherStart sa hdr
      ∧ cipherStart sa hdr ≤ hdr + 8 + sa.ivLen.toNat
      ∧ (sa.aeadAlgo = .aesGcm ∨ sa.cipherAlgo = .aesCtr →
          cipherStart sa hdr = hdr + 8 + sa.ivLen.toNat) := by
  rw [cipherStart]
  by_cases hg : sa.aeadAlgo = .aesGcm
  · rw [if_pos hg]
    exact ⟨by omega, by omega, fun _ => rfl⟩
  · rw [if_neg hg, sentCipher]
    cases hc : sa.cipherAlgo with
    | aesCtr => exact ⟨by dsimp only; omega, by dsimp only; omega, fun _ => rfl⟩
    | null | tripleDesCbc | aesCbc | unset =>
        refine ⟨by dsimp only; omega, by dsimp only; omega, fun h => ?_⟩
        exact absurd (h.resolve_left hg) (by decide)

/-- The offset of the cipher region does not depend on its length. -/
theorem sentCipher_offset {sa : IpsecSa} (hg : sa.aeadAlgo ≠ .aesGcm)
    (hdr payload : Nat) :
    (sentCipher sa hdr payload).offset = cipherStart sa hdr := by
  rw [cipherStart, if_neg hg, sentCipher, sentCipher]
  cases sa.cipherAlgo <;> rfl

/-- The device leaves the head of the packet alone. -/
theorem devEncrypt_head (dev : CryptoDev) {so : IpsecSa} {m : Mbuf}
    {hdr payload i : Nat} (hsent : SentOp so m hdr payload)
    (hlen : m.dataLen = hdr + 8 + so.ivLen.toNat + payload
      + so.digestLen.toNat)
    (hi : i < m.dataOff + cipherStart so hdr) :
    (devEncrypt dev so m).buf i = m.buf i := by
  have hle := (cipherStart_bounds so hdr).2.1
  rw [devEncrypt]
  by_cases hg : so.aeadAlgo = .aesGcm
  · obtain ⟨haead, hdig, -⟩ := hsent.aead hg
    have hstart := (cipherStart_bounds so hdr).2.2 (.inl hg)
    rw [if_pos hg, Mbuf.write_buf, Mbuf.write_buf, hdig, haead,
      store_outside _ (by omega), store_outside _ (by dsimp only; omega)]
  · obtain ⟨-, hcipher, -, hdig⟩ := hsent.cipher hg
    rw [if_neg hg, Mbuf.write_buf, Mbuf.write_buf, hdig, hcipher,
      sentCipher_offset hg, store_outside _ (by omega),
      store_outside _ (by omega)]

/-- The device leaves the window where it is. -/
theorem devEncrypt_window (dev : CryptoDev) (sa : IpsecSa) (m : Mbuf) :
    (devEncrypt dev sa m).dataOff = m.dataOff
      ∧ (devEncrypt dev sa m).dataLen = m.dataLen := by
  rw [devEncrypt]
  split
  · exact ⟨rfl, rfl⟩
  · exact ⟨rfl, rfl⟩

/-- Equal parameters come from the same table lines. -/
theorem Paired.legacyAlgo {so si : IpsecSa} (h : Paired so si)
    (halgo : LegacyAlgo so) : LegacyAlgo si := by
  rw [LegacyAlgo, IpsecSa.AeadFromTable, IpsecSa.CipherFromTable] at halgo ⊢
  rw [h.aeadAlgo, h.ivLen, h.blockSize, h.digestLen, h.cipherAlgo, h.authAlgo]
  exact halgo

/-- Both sides describe the same operation: counter block and AAD agree, the
    authenticated region and the digest are the same, and the cipher regions
    match, where for CBC and NULL the sender starts one IV earlier, at zeros
    whose enciphered form is the receiver's IV. -/
structure SameOp (so : IpsecSa) (m r : Mbuf) : Prop where
  blk : so.aeadAlgo = .aesGcm ∨ so.cipherAlgo = .aesCtr →
    load r.priv.buf 0 16 = load m.priv.buf 0 16
  aead : so.aeadAlgo = .aesGcm →
    load r.priv.buf 16 8 = load m.priv.buf 16 8
      ∧ r.priv.cop.sym.aead = m.priv.cop.sym.aead
      ∧ r.priv.cop.sym.aeadDigest + m.dataOff
        = m.priv.cop.sym.aeadDigest + r.dataOff
  auth : so.aeadAlgo ≠ .aesGcm →
    r.priv.cop.sym.auth = m.priv.cop.sym.auth
      ∧ r.priv.cop.sym.authDigest + m.dataOff
        = m.priv.cop.sym.authDigest + r.dataOff
  ctr : so.aeadAlgo ≠ .aesGcm → so.cipherAlgo = .aesCtr →
    r.priv.cop.sym.cipher = m.priv.cop.sym.cipher
  cbc : so.aeadAlgo ≠ .aesGcm → so.cipherAlgo ≠ .aesCtr →
    r.priv.cop.sym.cipher.offset
        = m.priv.cop.sym.cipher.offset + so.ivLen.toNat
      ∧ m.priv.cop.sym.cipher.length
        = r.priv.cop.sym.cipher.length + so.ivLen.toNat
      ∧ load m.buf (m.dataOff + m.priv.cop.sym.cipher.offset) so.ivLen.toNat
        = List.replicate so.ivLen.toNat 0
      ∧ load r.priv.buf 0 so.ivLen.toNat
        = load r.buf (r.dataOff + m.priv.cop.sym.cipher.offset)
          so.ivLen.toNat

/-- **THE SAME OPERATION** is derived on both sides of the wire. -/
theorem sameOp_of_wire (dev : CryptoDev) {so si : IpsecSa} {m r : Mbuf}
    {hdr payload : Nat} (hpair : Paired so si) (hfits : IvFits so)
    (hsent : SentOp so m hdr payload) (hrecv : RecvOp si r hdr payload)
    (hlen : m.dataLen = hdr + 8 + so.ivLen.toNat + payload
      + so.digestLen.toNat)
    (hiv : ∀ iv, outboundIv so = some iv →
      load m.buf (m.dataOff + hdr + 8) iv.length = iv)
    (hrlen : r.dataLen = m.dataLen)
    (hwire : load r.buf r.dataOff m.dataLen
      = load (devEncrypt dev so m).buf m.dataOff m.dataLen) :
    SameOp so m r := by
  obtain ⟨hge, -, hstart⟩ := cipherStart_bounds so hdr
  have hroom := (cipherStart_bounds so hdr).2.1
  -- in front of the cipher region the packet is as it was sent
  have hread : ∀ i k, i + k ≤ cipherStart so hdr →
      load r.buf (r.dataOff + i) k = load m.buf (m.dataOff + i) k := by
    intro i k hik
    rw [load_part_eq hwire (by omega)]
    exact load_congr fun j hj => devEncrypt_head dev hsent hlen (by omega)
  refine ⟨?_, ?_, ?_, ?_, ?_⟩
  · -- the counter block is made from the IV field
    intro h
    have hiv8 : 8 ≤ so.ivLen.toNat := by
      rw [IvFits] at hfits
      by_cases hg : so.aeadAlgo = .aesGcm
      · rw [if_pos hg] at hfits
        omega
      · rw [if_neg hg, h.resolve_left hg] at hfits
        exact hfits
    have hs := hstart h
    have hcnt : outboundIv so = some (toBe 8 so.seq.toNat) := by
      rw [outboundIv]
      by_cases hg : so.aeadAlgo = .aesGcm
      · rw [if_pos hg]
      · rw [if_neg hg, h.resolve_left hg]
    have hfield := hiv _ hcnt
    rw [length_toBe, Nat.add_assoc] at hfield
    rw [hrecv.blk (by rw [hpair.aeadAlgo, hpair.cipherAlgo]; exact h),
      hpair.salt, hsent.blk, Nat.add_assoc, hread _ _ (by omega), hfield]
  · intro hg
    obtain ⟨haead, hdig, haad⟩ := hsent.aead hg
    obtain ⟨hraead, hrdig, hraad⟩ := hrecv.aead (hpair.aeadAlgo.trans hg)
    refine ⟨?_, ?_, ?_⟩
    · rw [hraad, haad, hread _ _ hge]
    · rw [hraead, haead, hpair.ivLen]
    · rw [hrdig, hdig, hpair.digestLen]
      omega
  · intro hg
    obtain ⟨-, -, hauth, hdig⟩ := hsent.cipher hg
    obtain ⟨-, hrauth, hrdig⟩ := hrecv.cipher (by rw [hpair.aeadAlgo]; exact hg)
    refine ⟨?_, ?_⟩
    · rw [hrauth, hauth, hpair.ivLen]
    · rw [hrdig, hdig, hpair.digestLen]
      omega
  · intro hg hc
    obtain ⟨-, hcipher, -, -⟩ := hsent.cipher hg
    obtain ⟨hrcipher, -, -⟩ := hrecv.cipher (by rw [hpair.aeadAlgo]; exact hg)
    rw [hrcipher, hcipher, sentCipher, hc, hpair.ivLen]
  · intro hg hc
    obtain ⟨-, hcipher, -, -⟩ := hsent.cipher hg
    obtain ⟨hrcipher, -, -⟩ := hrecv.cipher (by rw [hpair.aeadAlgo]; exact hg)
    -- the first block on the wire is the IV of the receiver
    have hri := hrecv.iv (by rw [hpair.aeadAlgo]; exact hg)
      (by rw [hpair.cipherAlgo]; exact hc)
    rw [hpair.ivLen, Nat.add_assoc] at hri
    rw [outboundIv, if_neg hg] at hiv
    rw [hrcipher, hcipher, sentCipher, hpair.ivLen]
    cases hca : so.cipherAlgo with
    | aesCtr => exact absurd hca hc
    | unset =>
        rw [IvFits, if_neg hg, hca] at hfits
        exact hfits.elim
    | null | tripleDesCbc | aesCbc =>
        rw [hca] at hiv
        have hzero := hiv _ rfl
        rw [List.length_replicate, Nat.add_assoc] at hzero
        exact ⟨rfl, rfl, hzero, hri⟩

/-- What has to come back: a verified packet with the header, the ESP header
    and the payload of the one sent. -/
structure Recovered (m d : Mbuf) (hdr iv payload : Nat) : Prop where
  status : d.priv.cop.status = .success
  len : d.dataLen = m.dataLen
  header : load d.buf d.dataOff (hdr + 8) = load m.buf m.dataOff (hdr + 8)
  payload : load d.buf (d.dataOff + (hdr + 8 + iv)) payload
    = load m.buf (m.dataOff + (hdr + 8 + iv)) payload

/-- The frame comes back whole. -/
theorem Recovered.frame {m d : Mbuf} {hdr iv n padLen digest : Nat}
    {nlp : UInt8} (h : Recovered m d hdr iv (n + padLen))
    (hf : Frame m hdr iv n padLen digest nlp) :
    Frame d hdr iv n padLen digest nlp := by
  refine ⟨h.len.trans hf.len, hf.two_le, hf.le, ?_⟩
  have hpart := load_part_eq h.payload (i := n) (k := padLen) (by omega)
  rw [Nat.add_assoc d.dataOff, Nat.add_assoc m.dataOff] at hpart
  rw [hpart]
  exact hf.trailer

/-- **GCM COMES BACK**. -/
theorem recovered_gcm (dev : CryptoDev) {so si : IpsecSa} {m r : Mbuf}
    {hdr payload : Nat} (hpair : Paired so si) (hg : so.aeadAlgo = .aesGcm)
    (hsent : SentOp so m hdr payload) (hsame : SameOp so m r)
    (hlen : m.dataLen = hdr + 8 + so.ivLen.toNat + payload
      + so.digestLen.toNat)
    (hrlen : r.dataLen = m.dataLen)
    (hwire : load r.buf r.dataOff m.dataLen
      = load (devEncrypt dev so m).buf m.dataOff m.dataLen) :
    Recovered m (devDecrypt dev si r) hdr so.ivLen.toNat payload := by
  obtain ⟨haead, hdig, haad⟩ := hsent.aead hg
  obtain ⟨hsameaad, hraead, hrdig⟩ := hsame.aead hg
  rw [haead] at hraead
  -- the sealed packet
  obtain ⟨ct, tag, hseal, hct, htag, hopen⟩ : ∃ ct tag,
      dev.aeadSeal so.cipherKey (load m.priv.buf 0 16)
        (load m.priv.buf 16 8) (regionBytes m m.priv.cop.sym.aead)
        so.digestLen.toNat = (ct, tag)
      ∧ ct.length = payload ∧ tag.length = so.digestLen.toNat
      ∧ dev.aeadOpen so.cipherKey (load m.priv.buf 0 16)
          (load m.priv.buf 16 8) ct tag
        = some (regionBytes m m.priv.cop.sym.aead) := by
    refine ⟨_, _, rfl, ?_, dev.length_tag _ _ _ _ _, dev.open_seal _ _ _ _ _⟩
    rw [dev.length_seal, haead, regionBytes, length_load]
  have hbuf : (devEncrypt dev so m).buf
      = store (store m.buf (m.dataOff + (hdr + 8 + so.ivLen.toNat)) ct)
          (m.dataOff + (hdr + 8 + so.ivLen.toNat + payload)) tag := by
    rw [devEncrypt, if_pos hg]
    dsimp only
    rw [hseal, haead, hdig]
    simp only [Mbuf.write_buf]
    congr 1
    omega
  have hreadct : load r.buf (r.dataOff + (hdr + 8 + so.ivLen.toNat)) payload
      = ct := by
    rw [load_part_eq hwire (by omega), hbuf,
      load_store_of_disjoint _ (by omega), load_store_eq _ hct]
  have hreadtag : load r.buf r.priv.cop.sym.aeadDigest so.digestLen.toNat
      = tag := by
    rw [show r.priv.cop.sym.aeadDigest
      = r.dataOff + (hdr + 8 + so.ivLen.toNat + payload) by omega,
      load_part_eq hwire (by omega), hbuf, load_store_eq _ htag]
  have hdec : devDecrypt dev si r = Mbuf.setStatus (r.write
      (r.dataOff + (hdr + 8 + so.ivLen.toNat))
      (regionBytes m m.priv.cop.sym.aead)) .success := by
    rw [devDecrypt, if_pos (hpair.aeadAlgo.trans hg)]
    rw [hpair.cipherKey, hpair.digestLen, hsame.blk (.inl hg), hsameaad, hreadtag,
      hraead, regionBytes, hreadct, hopen]
  have hpt : (regionBytes m m.priv.cop.sym.aead).length = payload := by
    rw [haead, regionBytes, length_load]
  rw [hdec]
  refine ⟨rfl, hrlen, ?_, ?_⟩
  · show load (store r.buf _ _) r.dataOff (hdr + 8) = _
    rw [load_store_of_disjoint _ (by omega)]
    refine (load_part_eq hwire (i := 0) (by omega)).trans ?_
    exact load_congr fun j hj => devEncrypt_head dev hsent hlen (by
      have := (cipherStart_bounds so hdr).1
      omega)
  · show load (store r.buf _ _) (r.dataOff + (hdr + 8 + so.ivLen.toNat))
      payload = _
    rw [load_store_eq _ hpt, haead, regionBytes]

/-- Enciphering keeps the length of whole blocks. -/
theorem length_encipher (dev : CryptoDev) {sa : IpsecSa} (b : Nat → UInt8)
    {p : List UInt8} (hfits : IvFits sa) (hg : sa.aeadAlgo ≠ .aesGcm)
    (hdvd : sa.blockSize.toNat ∣ p.length) :
    (encipher dev sa b p).length = p.length := by
  rw [IvFits, if_neg hg] at hfits
  rw [encipher]
  cases hc : sa.cipherAlgo with
  | null | unset => rfl
  | aesCtr => exact dev.length_ctr _ _ _
  | tripleDesCbc | aesCbc =>
      rw [hc] at hfits
      dsimp only at hfits ⊢
      rw [length_cbcEnc xorByte _ _ _ _ (by rw [length_load, hfits])
        (Nat.div_mul_cancel hdvd).symm, Nat.div_mul_cancel hdvd]

/-- **CBC COMES BACK**: the block enciphered in front of the payload, read from
    the memory the chain was written to, is the vector that deciphers the
    payload behind it. -/
theorem cbc_back {n : Nat} (B : BlockCipher UInt8 n) {b : Nat → UInt8}
    {iv : List UInt8} {a p : Nat} (hn : 0 < n) (hiv : iv.length = n)
    (hp : n ∣ p) :
    cbcDec xorByte B.D n (p / n)
        (load (store b a (cbcEnc xorByte B.E n ((p + n) / n) iv
          (load b a (p + n)))) a n)
        (load (store b a (cbcEnc xorByte B.E n ((p + n) / n) iv
          (load b a (p + n)))) (a + n) p)
      = load b (a + n) p := by
  have hsplit : load b a (p + n) = load b a n ++ load b (a + n) p := by
    rw [Nat.add_comm p, load_add]
  have hfirst : (B.E (mixBlock xorByte iv (load b a n))).length = n := by
    refine B.length_E _ ?_
    simp [hiv]
  have hrest : (cbcEnc xorByte B.E n (p / n)
      (B.E (mixBlock xorByte iv (load b a n))) (load b (a + n) p)).length
      = p := by
    rw [length_cbcEnc xorByte _ _ _ _ hfirst
      (by rw [length_load, Nat.div_mul_cancel hp]), Nat.div_mul_cancel hp]
  have hstore := store_append b a (B.E (mixBlock xorByte iv (load b a n)))
    (cbcEnc xorByte B.E n (p / n)
      (B.E (mixBlock xorByte iv (load b a n))) (load b (a + n) p))
  rw [hfirst] at hstore
  rw [Nat.add_div_right _ hn, hsplit, cbcEnc_append_first _ _ _ _ _ _
    (length_load _ _ _), ← hstore, load_store_of_disjoint _ (by omega),
    load_store_eq _ hfirst, load_store_eq _ hrest]
  exact cbcDec_cbcEnc xorByte_cancel B _ _ _ hfirst
    (by rw [length_load, Nat.div_mul_cancel hp])

/-- **CIPHERS COME BACK**: from the enciphered memory the receiver deciphers
    the payload, given the sender's counter block for CTR and the first
    enciphered block as IV for CBC. -/
theorem decipher_back (dev : CryptoDev) {so si : IpsecSa} {m : Mbuf}
    {b : Nat → UInt8} {hdr payload : Nat} (hpair : Paired so si)
    (hfits : IvFits so) (hg : so.aeadAlgo ≠ .aesGcm)
    (hbs : 0 < so.blockSize.toNat) (hdvd : so.blockSize.toNat ∣ payload)
    (hctr : so.cipherAlgo = .aesCtr → load b 0 16 = load m.priv.buf 0 16)
    (hcbc : so.cipherAlgo ≠ .aesCtr → load b 0 so.ivLen.toNat
      = load (store m.buf (m.dataOff + (hdr + 8)) (encipher dev so m.priv.buf
          (regionBytes m (sentCipher so hdr payload))))
        (m.dataOff + (hdr + 8)) so.ivLen.toNat) :
    decipher dev si b
        (load (store m.buf (m.dataOff + (sentCipher so hdr payload).offset)
          (encipher dev so m.priv.buf
            (regionBytes m (sentCipher so hdr payload))))
          (m.dataOff + (hdr + 8 + so.ivLen.toNat)) payload)
      = load m.buf (m.dataOff + (hdr + 8 + so.ivLen.toNat)) payload := by
  rw [IvFits, if_neg hg] at hfits
  rw [decipher, hpair.cipherAlgo]
  cases hc : so.cipherAlgo with
  | unset =>
      rw [hc] at hfits
      exact hfits.elim
  | null =>
      rw [hc] at hfits
      dsimp only at hfits ⊢
      rw [encipher, hc, sentCipher, hc]
      dsimp only
      rw [regionBytes, store_load]
  | aesCtr =>
      -- the same key stream twice
      have hct : (dev.ctrEnc so.cipherKey (load m.priv.buf 0 16)
          (load m.buf (m.dataOff + (hdr + 8 + so.ivLen.toNat)) payload)).length
          = payload := by
        rw [dev.length_ctr, length_load]
      rw [encipher, hc, sentCipher, hc]
      dsimp only [regionBytes]
      rw [load_store_eq _ hct, hpair.cipherKey, hctr hc, dev.ctr_ctr]
  | tripleDesCbc | aesCbc =>
      rw [hc] at hfits
      dsimp only at hfits ⊢
      -- the block in front of the payload was enciphered too
      have hiv := hcbc (by rw [hc]; decide)
      rw [encipher, hc, sentCipher, hc] at hiv
      rw [encipher, hc, sentCipher, hc]
      dsimp only [regionBytes] at hiv ⊢
      rw [hpair.blockSize, hpair.cipherKey, hpair.ivLen, hiv, length_load _
        (m.dataOff + (hdr + 8 + so.ivLen.toNat)), length_load,
        show m.dataOff + (hdr + 8 + so.ivLen.toNat)
          = m.dataOff + (hdr + 8) + so.ivLen.toNat by omega, hfits]
      exact cbc_back (dev.block _ _) hbs (length_load _ _ _) hdvd

/-- The cipher region lies behind the ESP header and ends at the digest, in
    whole blocks; only the counter mode leaves the IV in front of it alone. -/
theorem sentCipher_spec {so : IpsecSa} (hdr : Nat) {payload : Nat}
    (hg : so.aeadAlgo ≠ .aesGcm) (hfits : IvFits so)
    (hdvd : so.blockSize.toNat ∣ payload) :
    hdr + 8 ≤ (sentCipher so hdr payload).offset
      ∧ (sentCipher so hdr payload).offset
          + (sentCipher so hdr payload).length
        = hdr + 8 + so.ivLen.toNat + payload
      ∧ so.blockSize.toNat ∣ (sentCipher so hdr payload).length
      ∧ (so.cipherAlgo ≠ .aesCtr →
          (sentCipher so hdr payload).offset = hdr + 8) := by
  rw [IvFits, if_neg hg] at hfits
  rw [sentCipher]
  cases hc : so.cipherAlgo with
  | unset =>
      rw [hc] at hfits
      exact hfits.elim
  | null | tripleDesCbc | aesCbc =>
      rw [hc] at hfits
      dsimp only at hfits ⊢
      refine ⟨by omega, by omega, ?_, fun _ => rfl⟩
      rw [hfits]
      first
      | exact hdvd
      | exact Nat.dvd_add hdvd (Nat.dvd_refl _)
  | aesCtr =>
      refine ⟨?_, rfl, hdvd, fun h => absurd rfl h⟩
      dsimp only
      omega

/-- The memory of the packet once its cipher region is written. -/
def enciphered (dev : CryptoDev) (so : IpsecSa) (m : Mbuf) (hdr payload : Nat) :
    Nat → UInt8 :=
  store m.buf (m.dataOff + (sentCipher so hdr payload).offset)
    (encipher dev so m.priv.buf
      (regionBytes m (sentCipher so hdr payload)))

/-- The digest over it. -/
def sentTag (dev : CryptoDev) (so : IpsecSa) (m : Mbuf) (hdr payload : Nat) :
    List UInt8 :=
  dev.mac so.authAlgo so.authKey
    (load (enciphered dev so m hdr payload) (m.dataOff + hdr)
      (8 + so.ivLen.toNat + payload)) so.digestLen.toNat

theorem length_sentTag (dev : CryptoDev) (so : IpsecSa) (m : Mbuf)
    (hdr payload : Nat) :
    (sentTag dev so m hdr payload).length = so.digestLen.toNat :=
  dev.length_mac _ _ _ _

/-- The device leaves the enciphered memory with its digest at the end. -/
theorem devEncrypt_cipher_buf (dev : CryptoDev) {so : IpsecSa} {m : Mbuf}
    {hdr payload : Nat} (hg : so.aeadAlgo ≠ .aesGcm)
    (hsent : SentOp so m hdr payload)
    (hlen : m.dataLen = hdr + 8 + so.ivLen.toNat + payload
      + so.digestLen.toNat) :
    (devEncrypt dev so m).buf
      = store (enciphered dev so m hdr payload)
          (m.dataOff + (hdr + 8 + so.ivLen.toNat + payload))
          (sentTag dev so m hdr payload) := by
  obtain ⟨-, hcipher, hauth, hdig⟩ := hsent.cipher hg
  have hend : m.dataOff + m.dataLen - so.digestLen.toNat
      = m.dataOff + (hdr + 8 + so.ivLen.toNat + payload) := by omega
  rw [devEncrypt, if_neg hg]
  dsimp only
  rw [hcipher, hauth, hdig, hend]
  rfl

/-- **THE OTHER ALGORITHMS COME BACK**. -/
theorem recovered_cipher (dev : CryptoDev) {so si : IpsecSa} {m r : Mbuf}
    {hdr payload : Nat} (hpair : Paired so si) (hg : so.aeadAlgo ≠ .aesGcm)
    (hfits : IvFits so) (hbs : 0 < so.blockSize.toNat)
    (hdvd : so.blockSize.toNat ∣ payload)
    (hsent : SentOp so m hdr payload) (hrecv : RecvOp si r hdr payload)
    (hsame : SameOp so m r)
    (hlen : m.dataLen = hdr + 8 + so.ivLen.toNat + payload
      + so.digestLen.toNat)
    (hrlen : r.dataLen = m.dataLen)
    (hwire : load r.buf r.dataOff m.dataLen
      = load (devEncrypt dev so m).buf m.dataOff m.dataLen) :
    Recovered m (devDecrypt dev si r) hdr so.ivLen.toNat payload := by
  have hgi : si.aeadAlgo ≠ .aesGcm := by
    rw [hpair.aeadAlgo]
    exact hg
  obtain ⟨hrcipher, hrauth, hrdig⟩ := hrecv.cipher hgi
  rw [hpair.ivLen] at hrcipher hrauth
  rw [hpair.digestLen] at hrdig
  obtain ⟨hfrom, hto, hblocks, hcbcoff⟩ := sentCipher_spec hdr hg hfits hdvd
  have henc : (encipher dev so m.priv.buf
      (regionBytes m (sentCipher so hdr payload))).length
      = (sentCipher so hdr payload).length := by
    rw [length_encipher dev _ hfits hg (by
      rw [regionBytes, length_load]; exact hblocks), regionBytes, length_load]
  have htaglen := length_sentTag dev so m hdr payload
  have hbuf := devEncrypt_cipher_buf dev hg hsent hlen
  -- the receiver reads the enciphered memory
  have hread : ∀ i k, i + k ≤ hdr + 8 + so.ivLen.toNat + payload →
      load r.buf (r.dataOff + i) k
        = load (enciphered dev so m hdr payload) (m.dataOff + i) k := by
    intro i k hik
    rw [load_part_eq hwire (by omega), hbuf,
      load_store_of_disjoint _ (by omega)]
  have hkept : ∀ i k, i + k ≤ (sentCipher so hdr payload).offset →
      load (enciphered dev so m hdr payload) (m.dataOff + i) k
        = load m.buf (m.dataOff + i) k := by
    intro i k hik
    rw [enciphered, load_store_of_disjoint _ (by omega)]
  -- over which the digest was made
  have hverify : dev.mac si.authAlgo si.authKey
      (regionBytes r r.priv.cop.sym.auth) si.digestLen.toNat
      = load r.buf r.priv.cop.sym.authDigest si.digestLen.toNat := by
    rw [hpair.authAlgo, hpair.authKey, hpair.digestLen, hrauth, regionBytes,
      hread _ _ (by dsimp only; omega), ← sentTag, hrdig,
      show r.dataOff + r.dataLen - so.digestLen.toNat
        = r.dataOff + (hdr + 8 + so.ivLen.toNat + payload) by omega,
      load_part_eq hwire (by omega), hbuf, load_store_eq _ htaglen]
  -- and deciphers the payload of it
  have hback : decipher dev si r.priv.buf
      (regionBytes r r.priv.cop.sym.cipher)
      = load m.buf (m.dataOff + (hdr + 8 + so.ivLen.toNat)) payload := by
    rw [hrcipher, regionBytes, hread _ _ (by dsimp only; omega), enciphered]
    refine decipher_back dev hpair hfits hg hbs hdvd ?_ ?_
    · intro hc
      exact hsame.blk (.inr hc)
    · intro hc
      have hcv := hrecv.iv hgi (by rw [hpair.cipherAlgo]; exact hc)
      rw [hpair.ivLen, Nat.add_assoc, hread _ _ (by omega), enciphered,
        hcbcoff hc] at hcv
      exact hcv
  have hdec : devDecrypt dev si r = Mbuf.setStatus (r.write
      (r.dataOff + (hdr + 8 + so.ivLen.toNat))
      (load m.buf (m.dataOff + (hdr + 8 + so.ivLen.toNat)) payload))
      .success := by
    rw [devDecrypt, if_neg hgi]
    rw [if_neg (not_not_intro hverify), hback, hrcipher]
  rw [hdec]
  refine ⟨rfl, hrlen, ?_, ?_⟩
  · show load (store r.buf _ _) r.dataOff (hdr + 8) = _
    rw [load_store_of_disjoint _ (by omega)]
    exact (hread 0 _ (by omega)).trans (hkept 0 _ (by omega))
  · show load (store r.buf _ _) (r.dataOff + (hdr + 8 + so.ivLen.toNat))
      payload = _
    rw [load_store_eq _ (length_load _ _ _)]

end EspDevice
