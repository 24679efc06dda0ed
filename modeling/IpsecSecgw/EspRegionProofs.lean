import IpsecSecgw.EspWellFormedProofs
import IpsecSecgw.Lib.Tiling

/-! # The crypto operation of `esp_inbound`

    Every offset of the operation comes from a header length the sender chose
    and a length test in mixed widths.  `espInbound_accepts_iff` says which
    packets the test lets through, and that the regions set up for those lie
    inside the packet: ESP header, IV, cipher data and digest tile it from the
    end of the IP header to its last byte. -/

namespace EspRegion

open ByteStore SaModel MbufModel Esp EspFrame EspWellFormed Tiling

/-! ## The length test -/

/-- **THE MASK**: for the block sizes of the tables the mask of the low bits is
    a test for whole blocks. -/
theorem mask_eq_zero_iff {n : Nat} {bs : UInt16}
    (hbs : bs = 4 ∨ bs = 8 ∨ bs = 16 ∨ bs = 64) (hlt : n < 0x10000) :
    UInt32.ofNat n &&& (bs.toUInt32 - 1) = 0 ↔ bs.toNat ∣ n := by
  constructor
  · intro h
    obtain ⟨k, hk, hpow⟩ := blockSize_pow hbs
    have hmask : (bs.toUInt32 - 1).toNat = 2 ^ k - 1 := by
      rw [UInt32.toNat_sub_of_le _ _ (by
        rw [UInt32.le_iff_toNat_le, UInt16.toNat_toUInt32, hpow]
        exact Nat.pow_pos (by omega)), UInt16.toNat_toUInt32, hpow]
      rfl
    have hval := congrArg UInt32.toNat h
    rw [UInt32.toNat_and, hmask, UInt32.toNat_ofNat',
      Nat.mod_eq_of_lt (by omega), Nat.and_two_pow_sub_one_eq_mod, ← hpow] at hval
    exact Nat.dvd_of_mod_eq_zero hval
  · intro h
    exact aligned_of_dvd hbs hlt h

/-- What `esp_inbound` asks of a packet: a known version, a positive payload of
    whole blocks, supported algorithms. -/
def Acceptable (m : Mbuf) (sa : IpsecSa) : Prop :=
  ∃ hdr, inboundHdrLen m = some hdr ∧ 0 < payloadLen m sa hdr
    ∧ (sa.blockSize.toNat : Int) ∣ payloadLen m sa hdr ∧ Supported sa

/-! ## The regions -/

/-- How many bytes `esp_inbound` reads at the IV field. -/
def ivRead (sa : IpsecSa) : Nat :=
  if sa.aeadAlgo = .aesGcm ∨ sa.cipherAlgo = .aesCtr then 8
  else sa.ivLen.toNat

/-- The bytes to be deciphered. -/
def cipherData (m : Mbuf) (sa : IpsecSa) : Region :=
  if sa.aeadAlgo = .aesGcm then m.priv.cop.sym.aead else m.priv.cop.sym.cipher

/-- The bytes to be authenticated beside them: the AAD is copied from the ESP
    header. -/
def authData (m : Mbuf) (sa : IpsecSa) (hdr : Nat) : Region :=
  if sa.aeadAlgo = .aesGcm then ⟨hdr, 8⟩ else m.priv.cop.sym.auth

/-- The digest, relative to the packet. -/
def digest (m : Mbuf) (sa : IpsecSa) : Region :=
  ⟨(if sa.aeadAlgo = .aesGcm then m.priv.cop.sym.aeadDigest
      else m.priv.cop.sym.authDigest) - m.dataOff, sa.digestLen.toNat⟩

/-- ESP header, IV field, cipher data and digest of the operation in `m`. -/
def parts (m : Mbuf) (sa : IpsecSa) (hdr : Nat) : List Region :=
  [⟨hdr, 8⟩, ⟨hdr + 8, sa.ivLen.toNat⟩, cipherData m sa, digest m sa]

/-- The operation stays inside the packet, which is as it was. -/
structure Regions (m m' : Mbuf) (sa : IpsecSa) (hdr : Nat) : Prop where
  packet : m'.buf = m.buf ∧ m'.dataOff = m.dataOff ∧ m'.dataLen = m.dataLen
  tiles : Tiles Region.offset Region.length hdr (parts m' sa hdr) m.dataLen
  inside : ∀ r ∈ parts m' sa hdr, r.offset + r.length ≤ m.dataLen
  apart : (parts m' sa hdr).Pairwise fun r s => r.offset + r.length ≤ s.offset
  iv : ivRead sa ≤ sa.ivLen.toNat
  auth : (authData m' sa hdr).offset + (authData m' sa hdr).length
    ≤ m.dataLen - sa.digestLen.toNat
  digestAt : m.dataOff ≤ (if sa.aeadAlgo = .aesGcm
    then m'.priv.cop.sym.aeadDigest else m'.priv.cop.sym.authDigest)

/-- The IV that is read fits into the IV field. -/
theorem ivRead_le {sa : IpsecSa} (ht : sa.FromTables) :
    ivRead sa ≤ sa.ivLen.toNat := by
  rw [ivRead]
  by_cases hread : sa.aeadAlgo = .aesGcm ∨ sa.cipherAlgo = .aesCtr
  · rw [if_pos hread]
    exact ht.counter_ivLen hread
  · exact Nat.le_of_eq (if_neg hread)

/-- An operation of the receiver over a packet of that length tiles it. -/
theorem regions_of_recvOp {m m' : Mbuf} {sa : IpsecSa} {hdr payload : Nat}
    (ht : sa.FromTables) (h : RecvOp sa m' hdr payload)
    (hsame : m'.buf = m.buf ∧ m'.dataOff = m.dataOff ∧ m'.dataLen = m.dataLen)
    (hlen : m.dataLen = hdr + 8 + sa.ivLen.toNat + payload
      + sa.digestLen.toNat) : Regions m m' sa hdr := by
  obtain ⟨hbuf, hoff, hl⟩ := hsame
  have hcipher : cipherData m' sa = ⟨hdr + 8 + sa.ivLen.toNat, payload⟩ := by
    rw [cipherData]
    by_cases hg : sa.aeadAlgo = .aesGcm
    · rw [if_pos hg, (h.aead hg).1]
    · rw [if_neg hg, (h.cipher hg).1]
  have hat : (if sa.aeadAlgo = .aesGcm then m'.priv.cop.sym.aeadDigest
      else m'.priv.cop.sym.authDigest)
      = m'.dataOff + m'.dataLen - sa.digestLen.toNat := by
    by_cases hg : sa.aeadAlgo = .aesGcm
    · rw [if_pos hg, (h.aead hg).2.1]
    · rw [if_neg hg, (h.cipher hg).2.2]
  have hdigest : digest m' sa
      = ⟨hdr + 8 + sa.ivLen.toNat + payload, sa.digestLen.toNat⟩ := by
    rw [digest, hat, hl, hlen]
    congr 1
    omega
  have hauth : (authData m' sa hdr).offset + (authData m' sa hdr).length
      ≤ m.dataLen - sa.digestLen.toNat := by
    rw [authData]
    by_cases hg : sa.aeadAlgo = .aesGcm
    · rw [if_pos hg]
      dsimp only
      omega
    · rw [if_neg hg, (h.cipher hg).2.1]
      dsimp only
      omega
  have htiles : Tiles Region.offset Region.length hdr (parts m' sa hdr)
      m.dataLen := by
    rw [parts, hcipher, hdigest]
    exact ⟨rfl, rfl, rfl, rfl, hlen.symm⟩
  refine ⟨⟨hbuf, hoff, hl⟩, htiles, ?_, htiles.apart, ivRead_le ht, hauth, ?_⟩
  · intro r hr
    exact (htiles.inside r hr).2
  · rw [hat, hoff, hl, hlen]
    omega

/-! ## The code -/

/-- An unsupported SA is refused by the parts behind the length test. -/
theorem inboundCipher_unsupported (m : Mbuf) {sa : IpsecSa} (hdr payload : Nat)
    (hs : ¬ Supported sa) : (inboundCipher m sa hdr payload).1 ≠ 0 := by
  have heinval : einval ≠ 0 := by decide
  rw [inboundCipher]
  dsimp only
  cases hiv : inboundIv (m.setSym fun s =>
      { s with cipher := ⟨hdr + 8 + sa.ivLen.toNat, payload⟩ }) sa
      ((m.setSym fun s =>
        { s with cipher := ⟨hdr + 8 + sa.ivLen.toNat, payload⟩ }).dataOff
        + hdr + 8) with
  | none => exact heinval
  | some iv =>
      dsimp only
      have hc : sa.cipherAlgo ≠ .unset := by
        intro hc
        rw [inboundIv, hc] at hiv
        cases hiv
      cases ha : sa.authAlgo with
      | null => exact absurd (.inr ⟨hc, .inr (.inl ha)⟩) hs
      | sha1Hmac => exact absurd (.inr ⟨hc, .inr (.inr (.inl ha))⟩) hs
      | sha256Hmac => exact absurd (.inr ⟨hc, .inr (.inr (.inr ha))⟩) hs
      | unset | sha384Hmac | sha512Hmac | aesGmac | aesXcbcMac => exact heinval

/-- Behind the length test a supported SA is served. -/
theorem espInbound_supported {m : Mbuf} {sa : IpsecSa} {hdr payload : Nat}
    (htype : sa.primary.type ≠ .inlineCrypto) (hs : Supported sa) :
    ∃ m', (if sa.aeadAlgo = .aesGcm then (0, inboundAead m sa hdr payload)
        else inboundCipher m sa hdr payload) = (0, m')
      ∧ (m'.buf = m.buf ∧ m'.dataOff = m.dataOff ∧ m'.dataLen = m.dataLen)
      ∧ RecvOp sa m' hdr payload := by
  by_cases hg : sa.aeadAlgo = .aesGcm
  · rw [if_pos hg]
    exact ⟨_, rfl, inboundAead_frame m sa hdr payload,
      inboundAead_op m hdr payload hg⟩
  · rw [if_neg hg]
    obtain ⟨hc, ha⟩ := hs.resolve_left hg
    obtain ⟨m', hm, hb, ho, hl, hop⟩ :=
      inboundCipher_op m hdr payload hg hc (ha.resolve_left htype)
    exact ⟨m', hm, ⟨hb, ho, hl⟩, hop⟩

/-- What the checks of `esp_inbound` accept, and the operation they let pass. -/
structure Checked (m : Mbuf) (sa : IpsecSa) : Prop where
  accepts : (espInbound m sa).1 = 0 ↔ Acceptable m sa
  regions : (espInbound m sa).1 = 0 →
    ∃ hdr, inboundHdrLen m = some hdr ∧ Regions m (espInbound m sa).2 sa hdr

/-- The checks one after the other. -/
theorem espInbound_checked {m : Mbuf} {sa : IpsecSa} (ht : sa.FromTables)
    (htype : sa.primary.type = .none ∨ sa.primary.type = .lookasideProtocol) :
    Checked m sa := by
  suffices h : ((espInbound m sa).1 = 0 ↔ Acceptable m sa)
      ∧ ((espInbound m sa).1 = 0 → ∃ hdr, inboundHdrLen m = some hdr
        ∧ Regions m (espInbound m sa).2 sa hdr) from ⟨h.1, h.2⟩
  obtain ⟨hbs, -, -⟩ := ht.sizes
  have hmax := m.bufLen_le
  have hwin := m.window
  have htype' : sa.primary.type ≠ .inlineCrypto := by
    rcases htype with h | h <;> rw [h] <;> decide
  have heinval : einval ≠ 0 := by decide
  -- the checks in the order of the code
  rw [espInbound, if_neg htype']
  cases hhdr : inboundHdrLen m with
  | none =>
      dsimp only
      refine ⟨⟨fun h => absurd h heinval, ?_⟩, fun h => absurd h heinval⟩
      rintro ⟨hdr, hh, -⟩
      rw [hhdr] at hh
      cases hh
  | some hdr =>
      dsimp only
      have hpl : (m.dataLen : Int) - hdr - 8 - sa.ivLen.toNat
        - sa.digestLen.toNat = payloadLen m sa hdr := rfl
      rw [hpl]
      by_cases hpos : payloadLen m sa hdr ≤ 0
      · rw [if_pos (.inl hpos)]
        refine ⟨⟨fun h => absurd h heinval, ?_⟩, fun h => absurd h heinval⟩
        rintro ⟨hdr', hh, hlt, -⟩
        rw [hhdr] at hh
        cases hh
        exact absurd hpos (Int.not_le.mpr hlt)
      · -- the length is a natural number that no width cuts
        obtain ⟨n, hn⟩ : ∃ n : Nat, payloadLen m sa hdr = n :=
          ⟨(payloadLen m sa hdr).toNat, by omega⟩
        have hlen : m.dataLen = hdr + 8 + sa.ivLen.toNat + n
            + sa.digestLen.toNat := by
          rw [payloadLen] at hn
          omega
        -- the mask is the test of divisibility
        have hmask := mask_eq_zero_iff (n := n) hbs (by omega)
        rw [hn, Int.toNat_natCast]
        by_cases hdvd : sa.blockSize.toNat ∣ n
        · rw [if_neg (by
            rintro (h | h)
            · exact hpos (hn ▸ h)
            · exact h (hmask.mpr hdvd))]
          by_cases hs : Supported sa
          · obtain ⟨m', hm, hsame, hop⟩ := @espInbound_supported m
              sa hdr n htype' hs
            rw [hm]
            refine ⟨⟨fun _ => ⟨hdr, hhdr, ?_, ?_, hs⟩, fun _ => rfl⟩,
              fun _ => ⟨hdr, rfl, regions_of_recvOp ht hop hsame hlen⟩⟩
            · exact Int.not_le.mp hpos
            · rw [hn]
              exact Int.natCast_dvd_natCast.mpr hdvd
          · have hg : sa.aeadAlgo ≠ .aesGcm := fun hg => hs (.inl hg)
            rw [if_neg hg]
            have hrefused := inboundCipher_unsupported m hdr n hs
            refine ⟨⟨fun h => absurd h hrefused, ?_⟩,
              fun h => absurd h hrefused⟩
            rintro ⟨-, -, -, -, h⟩
            exact absurd h hs
        · rw [if_pos (.inr fun h => hdvd (hmask.mp h))]
          refine ⟨⟨fun h => absurd h heinval, ?_⟩, fun h => absurd h heinval⟩
          rintro ⟨hdr', hh, -, hd, -⟩
          rw [hhdr] at hh
          cases hh
          rw [hn] at hd
          exact absurd (Int.natCast_dvd_natCast.mp hd) hdvd

/-- **NO REGION OUTSIDE THE PACKET**: a lookaside SA accepts a packet exactly
    when its payload is a positive number of whole blocks and its algorithms
    are supported, and then the operation tiles the packet behind its IP
    header. -/
theorem espInbound_accepts_iff {m : Mbuf} {sa : IpsecSa} (ht : sa.FromTables)
    (htype : sa.primary.type = .none ∨ sa.primary.type = .lookasideProtocol) :
    ((espInbound m sa).1 = 0 ↔ Acceptable m sa)
      ∧ ((espInbound m sa).1 = 0 →
        ∃ hdr, inboundHdrLen m = some hdr
          ∧ Regions m (espInbound m sa).2 sa hdr) :=
  ⟨(espInbound_checked ht htype).accepts, (espInbound_checked ht htype).regions⟩

/-- Four bytes of NULL-enciphered payload behind a plain IPv4 header. -/
theorem espInbound_accepts_counting :
    (espInbound countingPacket nullTunnel).1 = 0
      ∧ ∃ hdr, inboundHdrLen countingPacket = some hdr
        ∧ Regions countingPacket (espInbound countingPacket nullTunnel).2
          nullTunnel hdr := by
  have hiff := espInbound_accepts_iff (m := countingPacket)
    nullTunnel_fromTables (.inl rfl)
  have hacc : (espInbound countingPacket nullTunnel).1 = 0 := by decide
  exact ⟨hacc, hiff.2 hacc⟩

end EspRegion
