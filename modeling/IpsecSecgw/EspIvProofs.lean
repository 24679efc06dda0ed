import IpsecSecgw.EspSequenceProofs
import IpsecSecgw.EspFrameProofs
import IpsecSecgw.SaXformProofs

/-! # The IV of the crypto device

    `esp_outbound` leaves a block of sixteen bytes for the device: the salt,
    the sequence number in 64 bits, and the counter 1.  How much of it the
    device reads was settled when the SA was configured.  The block grows with
    the sequence number from its ninth byte on, so a device that reads twelve
    or sixteen bytes sees a new IV for every packet (`sentIvs_nodup`), and one
    that reads eight sees the same for 2^32 packets.

    `sentIvs_nodup_iff` puts the two together: which SAs keep their IVs apart
    on every run below 2^32 packets. -/

namespace EspIv

open ByteStore SaModel MbufModel Esp EspSequence EspFrame

/-! ## The transform -/

/-- `sa_add_rules`: the IV length of the transform the session of the SA
    starts with.  GMAC has an authentication transform alone; an unsupported
    cipher is refused. -/
def xformIvLength (sa : IpsecSa) : Option Nat :=
  match sa.aeadAlgo with
  | .aesCcm => some 11
  | .aesGcm | .chacha20Poly1305 => some 12
  | .unset =>
      match sa.cipherAlgo with
      | .unset => none
      | .null | .tripleDesCbc | .aesCbc | .aesCtr =>
          if sa.authAlgo = .aesGmac then some 12 else some sa.ivLen.toNat

/-- The IV the device of this SA reads from a packet's counter block. -/
def deviceIv (sa : IpsecSa) (m : Mbuf) : List UInt8 :=
  load m.priv.buf 0 ((xformIvLength sa).getD 0)

/-- The IVs the device is given over a run: one for each call that returns
    zero.  An inline device takes no counter block; a call that faults ends
    the run. -/
def sentIvs (sa : IpsecSa) : List Mbuf → List (List UInt8)
  | [] => []
  | m :: ms =>
      match espOutbound m sa with
      | none => []
      | some (rc, m', sa') =>
          if rc = 0 ∧ sa.primary.type ≠ .inlineCrypto then
            deviceIv sa' m' :: sentIvs sa' ms
          else sentIvs sa' ms

/-- AES-GCM or a cipher other than NULL, with the lengths of the tables. -/
def KeyedAlgo (sa : IpsecSa) : Prop :=
  (sa.aeadAlgo = .aesGcm ∧ sa.AeadFromTable)
    ∨ (sa.CipherFromTable ∧ sa.cipherAlgo ≠ .null)

/-- The IV length reaches the moving part of the counter block, or the device
    never gets one: an inline device, and an authentication algorithm
    `esp_outbound` does not know. -/
def IvCovers (sa : IpsecSa) : Prop :=
  sa.aeadAlgo = .aesGcm ∨ sa.ivLen ≠ 8 ∨ sa.primary.type = .inlineCrypto
    ∨ (sa.authAlgo ≠ .null ∧ sa.authAlgo ≠ .sha1Hmac
      ∧ sa.authAlgo ≠ .sha256Hmac)

theorem KeyedAlgo.fromTables {sa : IpsecSa} (h : KeyedAlgo sa) :
    sa.FromTables := by
  rcases h with ⟨-, h⟩ | ⟨h, -⟩
  · exact .inl h
  · exact .inr h

/-- The table of ciphers has no line without an algorithm, and all but NULL
    have IVs of eight or sixteen bytes. -/
theorem cipherAlgos_ivLen : ∀ c ∈ cipherAlgos, c.algo ≠ .unset
    ∧ (c.algo ≠ .null → c.ivLen = 8 ∨ c.ivLen = 16) := by
  simp [cipherAlgos]

/-- The transform of a keyed SA that `esp_outbound` supports: twelve bytes for
    GCM, else the length of the SA, eight or sixteen. -/
theorem KeyedAlgo.xform {sa : IpsecSa} (h : KeyedAlgo sa) :
    (sa.aeadAlgo = .aesGcm ∧ xformIvLength sa = some 12)
      ∨ (sa.aeadAlgo = .unset ∧ sa.cipherAlgo ≠ .unset
        ∧ (sa.ivLen = 8 ∨ sa.ivLen = 16)
        ∧ xformIvLength sa = if sa.authAlgo = .aesGmac then some 12
            else some sa.ivLen.toNat) := by
  rcases h with ⟨hg, -⟩ | ⟨⟨hu, ⟨c, hc, halgo, -, hiv⟩, -⟩, hnull⟩
  · refine .inl ⟨hg, ?_⟩
    rw [xformIvLength, hg]
  · obtain ⟨hunset, hlen⟩ := cipherAlgos_ivLen c hc
    rw [← halgo] at hunset hlen
    refine .inr ⟨hu, hunset, ?_, ?_⟩
    · rcases hiv with hiv | ⟨-, hiv⟩
      · rw [hiv]
        exact hlen hnull
      · exact .inl hiv
    · rw [xformIvLength, hu]
      cases hca : sa.cipherAlgo with
      | unset => exact absurd hca hunset
      | null => rfl
      | tripleDesCbc => rfl
      | aesCbc => rfl
      | aesCtr => rfl

/-- The IV length of the transform that chained transforms start with. -/
def startIvLength (xf : SaInit.IpsecXf) (start : SaInit.XfRef) : Option Nat :=
  match (match start with | .a => xf.a | .b => xf.b).xform with
  | .unset => none
  | .cipher x => some x.ivLength.toNat
  | .auth x => some x.ivLength.toNat
  | .aead x => some x.ivLength.toNat

variable {plat : SaInit.Platform} {t : SaModel.Tables}

/-- The transforms of an outbound SA with an AEAD algorithm. -/
theorem startIvLength_aead {xf : SaInit.IpsecXf} {sa : IpsecSa} (h : SaInit.isAead sa = true) :
    startIvLength (SaInit.aeadXforms plat false xf sa).1
      (SaInit.aeadXforms plat false xf sa).2 = xformIvLength sa := by
  show some (if sa.aeadAlgo = .aesCcm then (11 : UInt16) else 12).toNat = _
  rw [SaInit.isAead] at h
  rw [xformIvLength]
  cases ha : sa.aeadAlgo with
  | unset =>
      rw [ha] at h
      cases h
  | aesGcm => rfl
  | aesCcm => rfl
  | chacha20Poly1305 => rfl

/-- The transforms of an outbound SA with a cipher; AES-GMAC has set the variable. -/
theorem startIvLength_cipher {iv : UInt16} {sa : IpsecSa} (h : ¬ SaInit.isAead sa = true)
    (hcipher : sa.cipherAlgo ≠ .unset) (hiv : sa.authAlgo = .aesGmac → iv = 12) :
    startIvLength (SaInit.cipherXforms false iv sa).1 (SaInit.cipherXforms false iv sa).2
      = xformIvLength sa := by
  have hunset : sa.aeadAlgo = .unset := by
    cases ha : sa.aeadAlgo with
    | unset => rfl
    | _ => exact absurd (by rw [SaInit.isAead, ha]; rfl) h
  have hlen : xformIvLength sa
      = if sa.authAlgo = .aesGmac then some 12 else some sa.ivLen.toNat := by
    rw [xformIvLength, hunset]
    cases hc : sa.cipherAlgo with
    | unset => exact absurd hc hcipher
    | _ => rfl
  rw [hlen, SaInit.cipherXforms]
  by_cases hg : sa.authAlgo = .aesGmac
  · rw [if_pos hg, if_pos hg, hiv hg]
    rfl
  · rw [if_neg hg, if_neg hg]
    rfl

/-- **THE TRANSFORM** that the loop over the outbound SAs leaves for a keyed SA has this
    IV length. -/
theorem KeyedAlgo.configured {lib : SadModel.SadLib} {tbl : SaInit.SaTable lib}
    (hfresh : SaInit.freshTable lib plat t false = some tbl) {i : Nat} {e : IpsecSa}
    (he : (SpiSearch.saEntries t false)[i]? = some e) {rc : Int} {s : SaInit.RuleState lib}
    (h : SaInit.saAddRules plat t false 0 (SpiSearch.saEntries t false) { tbl } = .ok (rc, s))
    {start : SaInit.XfRef} (hstart : (s.tbl.sa i).xforms = some start)
    (hkeyed : KeyedAlgo e) :
    startIvLength (s.tbl.xf i) start = xformIvLength e := by
  have hset : SaXform.Processed s.tbl i := by
    rw [SaXform.Processed, hstart]
    exact Option.some_ne_none start
  have hsetup := SaXform.position_setUp_whole hfresh he h hset
  generalize (if ∃ g ∈ (SpiSearch.saEntries t false).take i, SaXform.UsesGmac g then (12 : UInt16)
    else 0) = iv at hsetup
  have hxf : s.tbl.xf i = (SaXform.setUpFor plat t false iv e).xf :=
    congrArg SaXform.SetUp.xf hsetup
  have hxforms : some start = (SaXform.setUpFor plat t false iv e).xforms :=
    hstart.symm.trans (congrArg SaXform.SetUp.xforms hsetup)
  -- addresses do not touch the algorithms
  have hfields := SaInit.setAddresses_fields (t := t) { e with seq := 0 }
  rw [SaXform.setUpFor] at hxf hxforms
  generalize (SaInit.setAddresses t { e with seq := 0 }).2 = sa at hfields hxf hxforms
  have halgos : xformIvLength sa = xformIvLength e ∧ SaInit.isAead sa = SaInit.isAead e
      ∧ sa.cipherAlgo = e.cipherAlgo ∧ sa.authAlgo = e.authAlgo := by
    rw [hfields]
    exact ⟨rfl, rfl, rfl, rfl⟩
  obtain ⟨hlen, haead, hcipher, hauth⟩ := halgos
  rw [← hlen]
  by_cases ha : SaInit.isAead e = true
  · rw [if_pos ha] at hxf hxforms
    rw [hxf, Option.some.inj hxforms]
    exact startIvLength_aead (haead.trans ha)
  · rw [if_neg ha] at hxf hxforms
    rw [hxf, Option.some.inj hxforms]
    refine startIvLength_cipher (haead ▸ ha) ?_ ?_
    · rw [hcipher]
      rcases hkeyed.xform with ⟨hgcm, -⟩ | ⟨-, hc, -⟩
      · exact absurd (by rw [SaInit.isAead, hgcm]; rfl) ha
      · exact hc
    · intro hg
      exact if_pos ⟨ha, hauth ▸ hg⟩

/-! ## One packet -/

/-- The first bytes of the counter block for the sequence number `t`. -/
def blkPrefix (sa : IpsecSa) (n t : Nat) : List UInt8 :=
  (cntBlk sa.salt (toBe 8 t)).take n

/-- From the twelfth byte on the block tells sequence numbers apart. -/
theorem blkPrefix_inj {sa : IpsecSa} {n s t : Nat} (hn : 12 ≤ n)
    (hs : s < 2 ^ 64) (ht : t < 2 ^ 64)
    (h : blkPrefix sa n s = blkPrefix sa n t) : s = t := by
  have h12 : blkPrefix sa 12 s = blkPrefix sa 12 t := by
    have := congrArg (List.take 12) h
    rwa [blkPrefix, blkPrefix, List.take_take, List.take_take,
      Nat.min_eq_left hn] at this
  have hcut : ∀ x, blkPrefix sa 12 x = toLe 4 sa.salt.toNat ++ toBe 8 x := by
    intro x
    rw [blkPrefix, cntBlk]
    exact List.take_left' (by simp)
  rw [hcut, hcut, List.append_right_inj, toBe_inj,
    show 256 ^ 8 = 2 ^ 64 from rfl] at h12
  rwa [Nat.mod_eq_of_lt hs, Nat.mod_eq_of_lt ht] at h12

/-- The first eight bytes know only the high half of the number. -/
theorem blkPrefix_eight {sa : IpsecSa} {s t : Nat} (hs : s < 2 ^ 32)
    (ht : t < 2 ^ 32) : blkPrefix sa 8 s = blkPrefix sa 8 t := by
  have hcut : ∀ x, x < 2 ^ 32 →
      blkPrefix sa 8 x = toLe 4 sa.salt.toNat ++ [0, 0, 0, 0] := by
    intro x hx
    have hbe : toBe 8 x = [0, 0, 0, 0] ++ toBe 4 x := by
      have hdiv : ∀ k, 4 ≤ k → x / 256 ^ k = 0 := by
        intro k hk
        refine Nat.div_eq_of_lt (Nat.lt_of_lt_of_le hx ?_)
        exact Nat.pow_le_pow_right (show 0 < 256 by decide) hk
      rw [show toBe 8 x = UInt8.ofNat (x / 256 ^ 7)
        :: UInt8.ofNat (x / 256 ^ 6) :: UInt8.ofNat (x / 256 ^ 5)
        :: UInt8.ofNat (x / 256 ^ 4) :: toBe 4 x from rfl,
        hdiv 7 (by omega), hdiv 6 (by omega), hdiv 5 (by omega),
        hdiv 4 (by omega)]
      rfl
    rw [blkPrefix, cntBlk, hbe, List.append_assoc, List.append_assoc,
      ← List.append_assoc]
    exact List.take_left' (by simp)
  rw [hcut s hs, hcut t ht]

/-- A successful call outside an inline device names a supported SA. -/
theorem authAlgo_of_success {m m' : Mbuf} {sa sa' : IpsecSa}
    (hg : sa.aeadAlgo ≠ .aesGcm) (htype : sa.primary.type ≠ .inlineCrypto)
    (h : espOutbound m sa = some (0, m', sa')) :
    sa.authAlgo = .null ∨ sa.authAlgo = .sha1Hmac
      ∨ sa.authAlgo = .sha256Hmac := by
  obtain ⟨hdrLen, nlp, padding, m1, esp, m2, iv, -, -, -, -, hsa, -, htail⟩ :=
    espOutbound_success h
  rw [outboundTail, if_neg (by rw [hsa]; exact htype), outboundCrypto,
    if_neg (by rw [hsa]; exact hg)] at htail
  subst hsa
  cases hc : sa.cipherAlgo with
  | unset =>
      simp only [hc] at htail
      exact absurd (Prod.mk.inj htail).1 (by decide)
  | null | tripleDesCbc | aesCbc | aesCtr =>
      cases ha : sa.authAlgo with
      | null => exact .inl rfl
      | sha1Hmac => exact .inr (.inl rfl)
      | sha256Hmac => exact .inr (.inr rfl)
      | unset | sha384Hmac | sha512Hmac | aesGmac | aesXcbcMac =>
          simp only [hc, ha] at htail
          exact absurd (Prod.mk.inj htail).1 (by decide)

/-- **ONE STEP**: the IV of a packet is a prefix of the block of the advanced
    counter. -/
theorem deviceIv_of_success {m m' : Mbuf} {sa sa' : IpsecSa} {n : Nat}
    (htype : sa.primary.type ≠ .inlineCrypto)
    (hn : xformIvLength sa = some n) (h16 : n ≤ 16)
    (h : espOutbound m sa = some (0, m', sa')) :
    deviceIv sa' m' = blkPrefix sa n sa'.seq.toNat := by
  obtain ⟨hdrLen, nlp, padding, m1, esp, m2, iv, -, -, -, -, hsa, -, htail⟩ :=
    espOutbound_success h
  rw [outboundTail, if_neg (by rw [hsa]; exact htype)] at htail
  have hblk := outboundCrypto_blk htail
  have hlen : xformIvLength sa' = some n := by rw [hsa]; exact hn
  have hsalt : sa'.salt = sa.salt := by rw [hsa]
  rw [show 16 = n + (16 - n) by omega, load_add, hsalt] at hblk
  rw [deviceIv, hlen, blkPrefix, ← hblk]
  exact (List.take_left' (length_load _ _ _)).symm

/-! ## Whole runs -/

/-- The counter does not wrap below the 64-bit space. -/
theorem seq_add_one (sa : IpsecSa) (h : sa.seq.toNat + 1 < 2 ^ 64) :
    ({ sa with seq := sa.seq + 1 } : IpsecSa).seq.toNat
      = sa.seq.toNat + 1 := by
  show (sa.seq + 1).toNat = _
  rw [UInt64.toNat_add]
  exact Nat.mod_eq_of_lt h

/-- **THE RUN INVARIANT**: the IVs of a run are prefixes of the blocks of
    counter values that grow strictly from the state it starts in. -/
theorem sentIvs_eq_map {sa : IpsecSa} {ms : List Mbuf} {n : Nat}
    (hn : xformIvLength sa = some n) (h16 : n ≤ 16)
    (hrun : sa.seq.toNat + ms.length < 2 ^ 64) :
    ∃ ts : List Nat, sentIvs sa ms = ts.map (blkPrefix sa n)
      ∧ ts.Pairwise (· < ·) ∧ ∀ t ∈ ts, sa.seq.toNat < t ∧ t < 2 ^ 64 := by
  induction ms generalizing sa with
  | nil => exact ⟨[], rfl, List.Pairwise.nil, by simp⟩
  | cons m ms ih =>
      rw [List.length_cons] at hrun
      rw [sentIvs]
      cases hcall : espOutbound m sa with
      | none => exact ⟨[], rfl, List.Pairwise.nil, by simp⟩
      | some r =>
          obtain ⟨rc, m', sa'⟩ := r
          dsimp only
          -- the SA of the rest differs in the counter at most
          have hkeep : xformIvLength sa' = some n
              ∧ blkPrefix sa' n = blkPrefix sa n
              ∧ sa'.seq.toNat + ms.length < 2 ^ 64
              ∧ sa.seq.toNat ≤ sa'.seq.toNat
              ∧ (rc = 0 → sa.seq.toNat < sa'.seq.toNat
                ∧ sa'.seq.toNat < 2 ^ 64) := by
            have hone := seq_add_one sa (by omega)
            rcases espOutbound_sa hcall with ⟨rfl, hne⟩ | rfl
            · exact ⟨hn, rfl, by omega, Nat.le_refl _, fun h => absurd h hne⟩
            · refine ⟨hn, rfl, ?_, ?_, fun _ => ⟨?_, ?_⟩⟩
              · rw [hone]
                omega
              · rw [hone]
                omega
              · rw [hone]
                omega
              · rw [hone]
                omega
          obtain ⟨hn', hblk, hrest, hge, hgrow⟩ := hkeep
          obtain ⟨ts, hts, hmono, hrange⟩ := ih hn' hrest
          rw [hblk] at hts
          by_cases hsent : rc = 0 ∧ sa.primary.type ≠ .inlineCrypto
          · obtain ⟨hrc, htype⟩ := hsent
            subst hrc
            refine ⟨sa'.seq.toNat :: ts, ?_, ?_, ?_⟩
            · rw [if_pos ⟨rfl, htype⟩, hts, List.map_cons,
                deviceIv_of_success htype hn h16 hcall]
            · exact List.pairwise_cons.mpr ⟨fun t h => (hrange t h).1, hmono⟩
            · intro t h
              rcases List.mem_cons.mp h with rfl | hmem
              · exact hgrow rfl
              · exact ⟨Nat.lt_of_le_of_lt hge (hrange t hmem).1,
                  (hrange t hmem).2⟩
          · refine ⟨ts, ?_, hmono, ?_⟩
            · rw [if_neg hsent, hts]
            · intro t h
              exact ⟨Nat.lt_of_le_of_lt hge (hrange t h).1, (hrange t h).2⟩

/-- **ENOUGH BYTES**: twelve bytes of the block keep the IVs apart. -/
theorem sentIvs_nodup {sa : IpsecSa} {ms : List Mbuf} {n : Nat}
    (hn : xformIvLength sa = some n) (h12 : 12 ≤ n) (h16 : n ≤ 16)
    (hrun : sa.seq.toNat + ms.length < 2 ^ 64) :
    (sentIvs sa ms).Nodup := by
  obtain ⟨ts, hts, hmono, hrange⟩ := sentIvs_eq_map hn h16 hrun
  rw [hts, List.Nodup, List.pairwise_map]
  refine hmono.imp_of_mem ?_
  intro s t hs ht hlt heq
  have := blkPrefix_inj h12 (hrange s hs).2 (hrange t ht).2 heq
  omega

/-- Where no call succeeds outside an inline device there are no IVs. -/
theorem sentIvs_eq_nil {sa : IpsecSa} {ms : List Mbuf}
    (h : sa.primary.type = .inlineCrypto
      ∨ sa.aeadAlgo ≠ .aesGcm ∧ sa.authAlgo ≠ .null
        ∧ sa.authAlgo ≠ .sha1Hmac ∧ sa.authAlgo ≠ .sha256Hmac) :
    sentIvs sa ms = [] := by
  induction ms generalizing sa with
  | nil => rfl
  | cons m ms ih =>
      rw [sentIvs]
      cases hcall : espOutbound m sa with
      | none => rfl
      | some r =>
          obtain ⟨rc, m', sa'⟩ := r
          have hnot : ¬ (rc = 0 ∧ sa.primary.type ≠ .inlineCrypto) := by
            rintro ⟨rfl, htype⟩
            obtain ⟨hg, h1, h2, h3⟩ := h.resolve_left htype
            rcases authAlgo_of_success hg htype hcall with ha | ha | ha
            · exact h1 ha
            · exact h2 ha
            · exact h3 ha
          dsimp only
          rw [if_neg hnot]
          refine ih ?_
          rcases espOutbound_sa hcall with ⟨rfl, -⟩ | rfl
          · exact h
          · exact h

/-! ## The SAs that reuse an IV -/

/-- The bare packet gets through on every supported SA. -/
theorem barePacket_sent {sa : IpsecSa} {md : SaMode} (hmd : sa.HasMode md)
    (ht : sa.FromTables) (hs : Supported sa) :
    ∃ m', espOutbound barePacket sa
      = some (0, m', { sa with seq := sa.seq + 1 }) := by
  obtain ⟨hbs, hiv, hdig⟩ := ht.sizes
  obtain ⟨hdrLen, nlp, hhdr, hle⟩ : ∃ hdrLen nlp,
      outboundHdr barePacket sa = some (hdrLen, nlp) ∧ hdrLen ≤ 20 := by
    have hv : ipV barePacket.buf barePacket.dataOff = 4 := by decide
    have hhl : ipHl barePacket.buf barePacket.dataOff = 5 := by decide
    rw [outboundHdr, if_pos hv, hhl]
    cases isTransport sa.flags with
    | true => exact ⟨20, _, rfl, Nat.le_refl _⟩
    | false => exact ⟨0, _, rfl, Nat.zero_le _⟩
  have hlen : barePacket.dataLen = 20 := rfl
  have hoff : barePacket.dataOff = 128 := rfl
  have hpad := padLen_bounds 20 hbs (by omega) (show hdrLen ≤ 60 by omega)
  obtain ⟨hpay, -⟩ := padPayloadLen_spec hbs (by omega)
    (show hdrLen ≤ 60 by omega) hle (by omega)
  have houter : ∀ h, h ≤ 40 → outerHdrLen sa h ≤ 40 := by
    intro h hh
    rw [outerHdrLen_eq hmd]
    cases md with
    | ip4Tunnel => exact show 20 ≤ 40 by omega
    | ip6Tunnel => exact Nat.le_refl 40
    | transport => exact hh
  have houter1 := houter hdrLen (by omega)
  have houter0 := houter 0 (by omega)
  refine espOutbound_ok hmd hs hhdr ?_ ?_ ?_
  · rw [hlen, hpay]
    have hbig : ipMaxPacket = 65535 := rfl
    omega
  · rw [hlen, hoff]
    show _ ≤ 2176
    omega
  · have hhead : headroom sa ≤ 40 + (8 + sa.ivLen.toNat) := by
      rw [headroom]
      cases isTransport sa.flags with
      | true => rw [if_pos rfl]; omega
      | false => rw [if_neg (by decide)]; omega
    rw [hoff]
    omega

/-- **ONE IV TWICE**: with an IV length of eight, two packets in a row get the
    same IV. -/
theorem sentIvs_two {sa : IpsecSa} {md : SaMode} (hmd : sa.HasMode md)
    (ht : sa.FromTables) (hs : Supported sa)
    (htype : sa.primary.type ≠ .inlineCrypto)
    (hn : xformIvLength sa = some 8) (hzero : sa.seq = 0) :
    sentIvs sa [barePacket, barePacket]
      = [blkPrefix sa 8 1, blkPrefix sa 8 1] := by
  obtain ⟨m1, h1⟩ := barePacket_sent hmd ht hs
  obtain ⟨m2, h2⟩ := barePacket_sent
    (show IpsecSa.HasMode { sa with seq := sa.seq + 1 } md from hmd)
    (show IpsecSa.FromTables { sa with seq := sa.seq + 1 } from ht)
    (show Supported { sa with seq := sa.seq + 1 } from hs)
  have hiv1 := deviceIv_of_success htype hn (by omega) h1
  have hiv2 := deviceIv_of_success
    (show ({ sa with seq := sa.seq + 1 } : IpsecSa).primary.type
      ≠ .inlineCrypto from htype)
    (show xformIvLength { sa with seq := sa.seq + 1 } = some 8 from hn)
    (by omega) h2
  have htwo : blkPrefix sa 8 2 = blkPrefix sa 8 1 :=
    blkPrefix_eight (by decide) (by decide)
  rw [sentIvs, h1]
  dsimp only
  rw [if_pos ⟨rfl, htype⟩, hiv1, sentIvs, h2]
  dsimp only
  rw [if_pos ⟨rfl, htype⟩, hiv2, sentIvs, hzero]
  show [blkPrefix sa 8 1, blkPrefix sa 8 2] = _
  rw [htwo]

/-- **WHICH SAS KEEP THEIR IVS APART**: a keyed SA does so on every run below
    2^32 packets exactly when the IV length covers the moving part of the
    counter block. -/
theorem sentIvs_nodup_iff {sa : IpsecSa} {md : SaMode} (hmd : sa.HasMode md)
    (halgo : KeyedAlgo sa) (hzero : sa.seq = 0) :
    (∀ ms : List Mbuf, ms.length < 2 ^ 32 → (sentIvs sa ms).Nodup)
      ↔ IvCovers sa := by
  have hseq : sa.seq.toNat = 0 := by rw [hzero]; rfl
  constructor
  · intro hall
    by_contra hnot
    rw [IvCovers, not_or, not_or, not_or] at hnot
    obtain ⟨hg, h8, htype, hauth⟩ := hnot
    have h8 : sa.ivLen = 8 := not_not.mp h8
    have hsup : sa.authAlgo = .null ∨ sa.authAlgo = .sha1Hmac
        ∨ sa.authAlgo = .sha256Hmac := by
      by_contra h
      rw [not_or, not_or] at h
      exact hauth h
    rcases halgo.xform with ⟨h, -⟩ | ⟨-, hc, -, hx⟩
    · exact hg h
    · have hgmac : sa.authAlgo ≠ .aesGmac := by
        rcases hsup with h | h | h <;> rw [h] <;> decide
      rw [if_neg hgmac, h8] at hx
      have htwo := hall [barePacket, barePacket] (by decide)
      rw [sentIvs_two hmd halgo.fromTables (.inr ⟨hc, .inr hsup⟩) htype hx
        hzero] at htwo
      exact (List.nodup_cons.mp htwo).1 (List.mem_singleton.mpr rfl)
  · intro hcov ms hms
    have hrun : sa.seq.toNat + ms.length < 2 ^ 64 := by omega
    rcases halgo.xform with ⟨-, hx⟩ | ⟨hu, hc, hiv, hx⟩
    · exact sentIvs_nodup hx (by omega) (by omega) hrun
    · have hg : sa.aeadAlgo ≠ .aesGcm := by rw [hu]; decide
      rcases hcov with h | h8 | htype | hauth
      · exact absurd h hg
      · have h16 : sa.ivLen = 16 := hiv.resolve_left h8
        by_cases hgmac : sa.authAlgo = .aesGmac
        · rw [if_pos hgmac] at hx
          exact sentIvs_nodup hx (by omega) (by omega) hrun
        · rw [if_neg hgmac, h16] at hx
          exact sentIvs_nodup hx (by decide) (by decide) hrun
      · rw [sentIvs_eq_nil (.inl htype)]
        exact List.nodup_nil
      · rw [sentIvs_eq_nil (.inr ⟨hg, hauth⟩)]
        exact List.nodup_nil

/-- A 3DES-CBC tunnel SA as the configuration leaves it. -/
def tripleDesSa : IpsecSa :=
  { spi := 7, cipherAlgo := .tripleDesCbc, authAlgo := .sha1Hmac, ivLen := 8
    blockSize := 8, digestLen := 12, flags := ip4Tunnel }

theorem tripleDesSa_keyed : KeyedAlgo tripleDesSa :=
  .inr ⟨⟨rfl, ⟨⟨.tripleDesCbc, 8, 8, 24⟩, by simp [cipherAlgos], rfl, rfl,
    .inl rfl⟩, ⟨.sha1Hmac, 0, 12, 20⟩, by simp [authAlgos], rfl, rfl⟩,
    by decide⟩

/-- **THE IV REPEATS**: a fresh 3DES-CBC SA gives the device the same IV for
    its first two packets. -/
theorem iv_repeats :
    KeyedAlgo tripleDesSa ∧ tripleDesSa.HasMode .ip4Tunnel
      ∧ tripleDesSa.seq = 0
      ∧ sentIvs tripleDesSa [barePacket, barePacket]
        = [blkPrefix tripleDesSa 8 1, blkPrefix tripleDesSa 8 1]
      ∧ ¬ (∀ ms : List Mbuf, ms.length < 2 ^ 32 →
        (sentIvs tripleDesSa ms).Nodup) := by
  have hmd : tripleDesSa.HasMode .ip4Tunnel := by decide
  have htwo : sentIvs tripleDesSa [barePacket, barePacket]
      = [blkPrefix tripleDesSa 8 1, blkPrefix tripleDesSa 8 1] :=
    sentIvs_two hmd tripleDesSa_keyed.fromTables
      (.inr ⟨by decide, .inr (.inr (.inl rfl))⟩) (by decide) rfl rfl
  refine ⟨tripleDesSa_keyed, hmd, rfl, htwo, ?_⟩
  intro hall
  have hnodup := hall [barePacket, barePacket] (by decide)
  rw [htwo] at hnodup
  exact (List.nodup_cons.mp hnodup).1 (List.mem_singleton.mpr rfl)

/-- The same SA with AES-CBC. -/
def aesCbcSa : IpsecSa :=
  { tripleDesSa with cipherAlgo := .aesCbc, ivLen := 16, blockSize := 16 }

theorem aesCbcSa_keyed : KeyedAlgo aesCbcSa :=
  .inr ⟨⟨rfl, ⟨⟨.aesCbc, 16, 16, 16⟩, by simp [cipherAlgos], rfl, rfl,
    .inl rfl⟩, ⟨.sha1Hmac, 0, 12, 20⟩, by simp [authAlgos], rfl, rfl⟩,
    by decide⟩

theorem sentIvs_nodup_iff_aesCbc :
    (∀ ms : List Mbuf, ms.length < 2 ^ 32 → (sentIvs aesCbcSa ms).Nodup)
      ↔ IvCovers aesCbcSa :=
  sentIvs_nodup_iff (show IpsecSa.HasMode aesCbcSa .ip4Tunnel by decide)
    aesCbcSa_keyed rfl

end EspIv
