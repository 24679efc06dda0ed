import IpsecSecgw.EspFrameProofs

/-! # What `esp_inbound_post` accepts

    The pad length is a byte of the deciphered text.  `esp_inbound_post` scans
    that many bytes backwards and cuts them off, and neither step asks where
    the payload begins; the strip behind it relies on assertions that a normal
    build leaves out.

    `stripTrailer_cases` says when the trailer is taken,
    `inbound_post_wellFormed_iff` when what is delivered is well formed. -/

namespace EspWellFormed

open ByteStore SaModel MbufModel Ipip Esp EspFrame

/-! ## The trailer -/

/-- The pad length byte, two in front of the digest. -/
def padByte (d : Mbuf) (sa : IpsecSa) : Nat :=
  (d.buf (d.dataOff + d.dataLen - sa.digestLen.toNat - 2)).toNat

/-- The trailer fits into the packet and its padding counts up. -/
def TrailerTaken (d : Mbuf) (sa : IpsecSa) : Prop :=
  padByte d sa + 2 + sa.digestLen.toNat ≤ d.dataLen
    ∧ paddingOk d.buf (d.dataOff + d.dataLen - sa.digestLen.toNat - 2
        - padByte d sa) (padByte d sa) = true

instance (d : Mbuf) (sa : IpsecSa) : Decidable (TrailerTaken d sa) :=
  inferInstanceAs (Decidable (_ ∧ _))

/-- **THE TRAILER** is taken off in that case and refused in any other. -/
theorem stripTrailer_cases {d : Mbuf} {sa : IpsecSa}
    (hhw : hwTrailer sa.primary rxHwTrailerOffload = false)
    (hdig : sa.digestLen.toNat ≤ 32)
    (hroom : sa.digestLen.toNat + 2 ≤ d.dataLen) :
    (TrailerTaken d sa → ∃ a d1, stripTrailer d sa = some (.ok (some a, d1))
        ∧ d1.buf = d.buf ∧ d1.dataOff = d.dataOff
        ∧ d1.dataLen = d.dataLen - (padByte d sa + 2 + sa.digestLen.toNat))
      ∧ (¬ TrailerTaken d sa → stripTrailer d sa = some (.error einval)) := by
  have hpad : padByte d sa < 256 := UInt8.toNat_lt _
  have hat : d.dataOff + d.dataLen - sa.digestLen.toNat - 1 - 1
      = d.dataOff + d.dataLen - sa.digestLen.toNat - 2 := by omega
  have hbyte : (d.buf (d.dataOff + d.dataLen - sa.digestLen.toNat - 2)).toNat
      = padByte d sa := rfl
  rw [stripTrailer, hhw, if_neg (by decide), if_neg (by omega)]
  dsimp only
  rw [hat, hbyte]
  constructor
  · rintro ⟨hfit, hok⟩
    obtain ⟨w, htrim⟩ := rtePktmbufTrim_eq (m := d)
      (show padByte d sa + 2 + sa.digestLen.toNat < 0x10000 by omega) hfit
    rw [if_neg (by omega), hok, Bool.not_true, if_neg (by decide), htrim]
    exact ⟨_, _, rfl, rfl, rfl, rfl⟩
  · intro hnot
    by_cases hfront : d.dataOff + d.dataLen - sa.digestLen.toNat - 1
        < padByte d sa + 1
    · rw [if_pos hfront]
    · rw [if_neg hfront]
      cases hok : paddingOk d.buf (d.dataOff + d.dataLen - sa.digestLen.toNat
          - 2 - padByte d sa) (padByte d sa) with
      | false => rw [Bool.not_false, if_pos rfl]
      | true =>
          have hshort : ¬ len16 (padByte d sa + 2 + sa.digestLen.toNat)
              ≤ d.dataLen := by
            intro hle
            rw [len16_eq (by omega)] at hle
            exact hnot ⟨hle, hok⟩
          rw [Bool.not_true, if_neg (by decide), rtePktmbufTrim,
            dif_neg hshort]

/-! ## The strip -/

/-- The transport strip fails exactly on packets shorter than ESP header and
    IV. -/
theorem transportInbound_isSome {d : Mbuf} {offset : Nat} {a : Option Nat}
    (h16 : offset < 0x10000) :
    (∃ d', transportInbound d offset a = some d') ↔ offset ≤ d.dataLen := by
  constructor
  · rintro ⟨d', h⟩
    by_cases hle : offset ≤ d.dataLen
    · exact hle
    · rw [transportInbound, rtePktmbufAdj_none h16 hle] at h
      cases h
  · intro hle
    obtain ⟨w, hadj⟩ := rtePktmbufAdj_eq h16 hle
    rw [transportInbound, hadj]
    dsimp only
    split
    · exact ⟨_, rfl⟩
    · exact ⟨_, rfl⟩

/-- Marking an IPv6 header keeps its first byte. -/
theorem ip6EcnSetup_head (b : Nat → UInt8) (a : Nat) : ip6EcnSetup b a a = b a := by
  rw [ip6EcnSetup]
  split
  · have hlen : (load b a 4).length = 4 := length_load b a 4
    have hfirst := store_inside b a (toBe 4 (ofBe (load b a 4) ||| 3 <<< 20))
      (i := 0) (by simp)
    have hword : ofBe (load b a 4)
        = (b a).toNat * 2 ^ 24 + ofBe (load b (a + 1) 3) := by
      rw [load_succ, ofBe, length_load, show 256 ^ 3 = 2 ^ 24 from rfl]
    have hlow := ofBe_lt (load b (a + 1) 3)
    rw [length_load, show 256 ^ 3 = 2 ^ 24 from rfl] at hlow
    have hshift : (ofBe (load b a 4) ||| 3 <<< 20) >>> 24 = (b a).toNat := by
      rw [Nat.shiftRight_or_distrib, Nat.shiftRight_eq_div_pow,
        show 3 <<< 20 >>> 24 = 0 from rfl, Nat.or_zero, hword]
      omega
    rw [Nat.add_zero] at hfirst
    rw [hfirst]
    show UInt8.ofNat ((ofBe (load b a 4) ||| 3 <<< 20) / 2 ^ 24) = b a
    rw [← Nat.shiftRight_eq_div_pow, hshift, UInt8.ofNat_toNat]
  · rfl

/-- The length of the outer header `ipip_inbound` takes off. -/
def stripLen (d : Mbuf) : Nat := if ipV d.buf d.dataOff = 4 then 20 else 40

/-- **THE TUNNEL STRIP** fails exactly on packets shorter than what it takes
    off; else it keeps the first byte of the inner packet. -/
theorem ipipInbound_cases {d : Mbuf} {offset : Nat}
    (h16 : offset + stripLen d < 0x10000) :
    (offset + stripLen d ≤ d.dataLen → ∃ d', ipipInbound d offset = some d'
        ∧ d'.dataLen = d.dataLen - (offset + stripLen d)
        ∧ d'.buf d'.dataOff = d.buf (d.dataOff + (offset + stripLen d)))
      ∧ (¬ offset + stripLen d ≤ d.dataLen → ipipInbound d offset = none) := by
  have hstrip : (if ipV d.buf d.dataOff = 4 then 20 else 40) = stripLen d := rfl
  rw [ipipInbound, hstrip]
  constructor
  · intro hle
    obtain ⟨w, hadj⟩ := rtePktmbufAdj_eq h16 hle
    rw [hadj]
    dsimp only
    by_cases h4 : ipV d.buf (d.dataOff + (offset + stripLen d)) = 4
    · rw [if_pos h4]
      refine ⟨_, rfl, rfl, ?_⟩
      dsimp only
      rw [decTtl_other _ (by omega)]
      split
      · rw [ip4EcnSetup]
        split
        · dsimp only
          rw [store_outside _ (by omega), store_outside _ (by omega)]
        · rfl
      · rfl
    · rw [if_neg h4]
      refine ⟨_, rfl, rfl, ?_⟩
      dsimp only
      rw [decHops_other _ (by omega)]
      split
      · exact ip6EcnSetup_head _ _
      · rfl
  · intro hgt
    rw [rtePktmbufAdj_none h16 hgt]

/-! ## Well-formed packets -/

/-- The `n` bytes at `a` start with a complete IPv4 or IPv6 header. -/
def InnerOk (b : Nat → UInt8) (a n : Nat) : Prop :=
  ipV b a = 4 ∧ 20 ≤ n ∧ ipHl b a * 4 ≤ n ∨ ipV b a = 6 ∧ 40 ≤ n

/-- `payload_len` of `esp_inbound`. -/
def payloadLen (m : Mbuf) (sa : IpsecSa) (hdr : Nat) : Int :=
  (m.dataLen : Int) - hdr - 8 - sa.ivLen.toNat - sa.digestLen.toNat

/-- The outcome the callers rely on: an error, or a packet whose trailer lay
    inside the payload and which, in tunnel mode, starts with a complete inner
    header. -/
def PostOk (d : Mbuf) (sa : IpsecSa) (payload : Int) : Prop :=
  (∃ rc d', espInboundPost d sa = some (rc, d') ∧ rc ≠ 0)
    ∨ ∃ d', espInboundPost d sa = some (0, d')
      ∧ (padByte d sa : Int) + 2 ≤ payload
      ∧ (isTransport sa.flags = false → InnerOk d'.buf d'.dataOff d'.dataLen)

/-- The deciphered bytes: a trailer that is refused, or one inside the payload
    with, in tunnel mode, a complete inner header in front of it. -/
def PlaintextOk (d : Mbuf) (sa : IpsecSa) (payload : Int) : Prop :=
  ¬ TrailerTaken d sa
    ∨ (padByte d sa : Int) + 2 ≤ payload
      ∧ (isTransport sa.flags = false →
        8 + sa.ivLen.toNat + stripLen d + (padByte d sa + 2
            + sa.digestLen.toNat) ≤ d.dataLen
          ∧ InnerOk d.buf (d.dataOff + (8 + sa.ivLen.toNat + stripLen d))
            (d.dataLen - (padByte d sa + 2 + sa.digestLen.toNat)
              - (8 + sa.ivLen.toNat + stripLen d)))

/-- What `esp_inbound` has checked of an accepted packet. -/
theorem espInbound_accepted {m m' : Mbuf} {sa : IpsecSa} (ht : sa.FromTables)
    (htype : sa.primary.type = .none) (h : espInbound m sa = (0, m')) :
    ∃ hdr, inboundHdrLen m = some hdr ∧ 4 ≤ payloadLen m sa hdr := by
  obtain ⟨hbs, -, -⟩ := ht.sizes
  have hmax := m.bufLen_le
  have hwin := m.window
  rw [espInbound, if_neg (by rw [htype]; decide)] at h
  cases hhdr : inboundHdrLen m with
  | none =>
      rw [hhdr] at h
      exact absurd (Prod.mk.inj h).1 (by decide)
  | some hdr =>
      rw [hhdr] at h
      dsimp only at h
      refine ⟨hdr, rfl, ?_⟩
      by_cases hbad : payloadLen m sa hdr ≤ 0
          ∨ UInt32.ofNat (payloadLen m sa hdr).toNat
              &&& (sa.blockSize.toUInt32 - 1) ≠ 0
      · rw [payloadLen] at hbad
        rw [if_pos hbad] at h
        exact absurd (Prod.mk.inj h).1 (by decide)
      · -- a positive length below four fails the mask of every block size
        obtain ⟨hpos, hmask⟩ := not_or.mp hbad
        rw [not_not] at hmask
        have hbound : payloadLen m sa hdr ≤ m.dataLen := by
          rw [payloadLen]
          omega
        obtain ⟨n, hn⟩ : ∃ n : Nat, payloadLen m sa hdr = n :=
          ⟨(payloadLen m sa hdr).toNat, by omega⟩
        rw [hn] at hpos hmask hbound ⊢
        rw [Int.toNat_natCast] at hmask
        have hsmall : ∀ k : Nat, k < 4 → 0 < k → ∀ bs : UInt16,
            (bs = 4 ∨ bs = 8 ∨ bs = 16 ∨ bs = 64) →
            UInt32.ofNat k &&& (bs.toUInt32 - 1) ≠ 0 := by
          intro k hk hk0 bs hb
          have hk' : k = 1 ∨ k = 2 ∨ k = 3 := by omega
          rcases hb with rfl | rfl | rfl | rfl <;>
            rcases hk' with rfl | rfl | rfl <;> decide
        by_cases hge : 4 ≤ n
        · exact Int.ofNat_le.mpr hge
        · exact absurd hmask (hsmall n (by omega) (by omega) _ hbs)

/-- **WHEN POST-PROCESSING IS SOUND**: for a packet accepted by `esp_inbound`
    under a lookaside SA and reported good by the device, whatever bytes it
    holds now, the outcome is the one the callers rely on exactly when the
    trailer is refused or lies inside the payload with a complete inner header
    in front of it. -/
theorem inbound_post_wellFormed_iff {m m' d : Mbuf} {sa : IpsecSa} {hdr : Nat}
    (ht : sa.FromTables) (htype : sa.primary.type = .none)
    (hacc : espInbound m sa = (0, m')) (hhdr : inboundHdrLen m = some hdr)
    (hlen : d.dataLen = m.dataLen) (hgood : d.priv.cop.status = .success) :
    PostOk d sa (payloadLen m sa hdr) ↔ PlaintextOk d sa (payloadLen m sa hdr) := by
  obtain ⟨-, hiv, hdig⟩ := ht.sizes
  obtain ⟨hdr', hhdr', hfour⟩ := espInbound_accepted ht htype hacc
  rw [hhdr] at hhdr'
  cases hhdr'
  have hpl : payloadLen m sa hdr = (m.dataLen : Int) - hdr - 8
    - sa.ivLen.toNat - sa.digestLen.toNat := rfl
  have hroom : sa.digestLen.toNat + 2 ≤ d.dataLen := by omega
  have hhw : hwTrailer sa.primary rxHwTrailerOffload = false := by
    rw [hwTrailer, htype]
    rfl
  have hstripLen : stripLen d ≤ 40 := by
    rw [stripLen]
    split <;> omega
  obtain ⟨htaken, hrefused⟩ := stripTrailer_cases hhw hdig hroom
  have hpost := espInboundPost_verified htype hgood
  rw [PlaintextOk]
  by_cases htrail : TrailerTaken d sa
  · obtain ⟨a, d1, hstrip, hbuf, hoff, hrest⟩ := htaken htrail
    have hfit := htrail.1
    rw [hstrip] at hpost
    dsimp only at hpost
    rw [or_iff_right (not_not_intro htrail), PostOk]
    -- no error comes out any more
    have hnoerr : ¬ ∃ rc d', espInboundPost d sa = some (rc, d') ∧ rc ≠ 0 := by
      rintro ⟨rc, d', h, hrc⟩
      rw [hpost] at h
      obtain ⟨x, -, hx⟩ := Option.map_eq_some_iff.mp h
      exact hrc (congrArg Prod.fst hx).symm
    rw [or_iff_right hnoerr]
    cases hmode : isTransport sa.flags with
    | true =>
        rw [hmode, if_pos rfl] at hpost
        constructor
        · rintro ⟨-, -, hp, -⟩
          exact ⟨hp, fun h => absurd h (by decide)⟩
        · rintro ⟨hp, -⟩
          obtain ⟨d', hd'⟩ := (transportInbound_isSome (d := d1) (a := some a)
            (show 8 + sa.ivLen.toNat < 0x10000 by omega)).mpr (by omega)
          rw [hd'] at hpost
          exact ⟨d', hpost, hp, fun h => absurd h (by decide)⟩
    | false =>
        rw [hmode, if_neg (by decide)] at hpost
        have hsame : stripLen d1 = stripLen d := by
          rw [stripLen, stripLen, hbuf, hoff]
        obtain ⟨hok, hnone⟩ := ipipInbound_cases (d := d1)
          (show 8 + sa.ivLen.toNat + stripLen d1 < 0x10000 by omega)
        rw [hsame] at hok hnone
        -- the inner header is judged by its first byte and the length
        have hjudge : ∀ d' : Mbuf,
            d'.dataLen = d1.dataLen - (8 + sa.ivLen.toNat + stripLen d) →
            d'.buf d'.dataOff
              = d1.buf (d1.dataOff + (8 + sa.ivLen.toNat + stripLen d)) →
            (InnerOk d'.buf d'.dataOff d'.dataLen
              ↔ InnerOk d.buf (d.dataOff + (8 + sa.ivLen.toNat + stripLen d))
                (d.dataLen - (padByte d sa + 2 + sa.digestLen.toNat)
                  - (8 + sa.ivLen.toNat + stripLen d))) := by
          intro d' hl hb
          rw [hbuf, hoff] at hb
          rw [InnerOk, InnerOk, ipV, ipHl, ipV, ipHl, hb, hl, hrest]
        constructor
        · rintro ⟨d', hd', hp, hin⟩
          by_cases hle : 8 + sa.ivLen.toNat + stripLen d ≤ d1.dataLen
          · obtain ⟨x, hx, hxl, hxb⟩ := hok hle
            rw [hpost, hx] at hd'
            cases hd'
            rw [hrest] at hle
            exact ⟨hp, fun _ => ⟨Nat.add_le_of_le_sub hfit hle,
              (hjudge _ hxl hxb).mp (hin rfl)⟩⟩
          · rw [hpost, hnone hle] at hd'
            cases hd'
        · rintro ⟨hp, hin⟩
          obtain ⟨hle, hinner⟩ := hin rfl
          obtain ⟨x, hx, hxl, hxb⟩ := hok (by
            rw [hrest]
            exact Nat.le_sub_of_add_le hle)
          rw [hx] at hpost
          exact ⟨x, hpost, hp, fun _ => (hjudge x hxl hxb).mpr hinner⟩
  · rw [hrefused htrail] at hpost
    constructor
    · intro _
      exact .inl htrail
    · intro _
      exact .inl ⟨einval, d, hpost, by decide⟩

/-- A tunnel SA with the NULL algorithms. -/
def nullTunnel : IpsecSa :=
  { spi := 0x01020304, cipherAlgo := .null, authAlgo := .null, blockSize := 4
    flags := ip4Tunnel }

theorem nullTunnel_fromTables : nullTunnel.FromTables :=
  .inr ⟨rfl, ⟨⟨.null, 0, 4, 0⟩, by simp [cipherAlgos], rfl, rfl, .inl rfl⟩,
    ⟨.null, 0, 0, 0⟩, by simp [authAlgos], rfl, rfl⟩

/-- Outer header, SPI `0x01020304`, sequence number `0x05060708`, and four
    bytes of payload whose padding goes on counting from the ESP header. -/
def countingPacket : Mbuf :=
  (Mbuf.mid (store (store (fun _ => 0) 128 [0x45]) 148
    [1, 2, 3, 4, 5, 6, 7, 8, 9, 10, 10, 4]) 32).setStatus .success

/-- **THE SCAN RUNS ON**: the packet is accepted with four bytes of payload,
    twelve bytes are cut off as trailer, and the header strip ends in a null
    pointer. -/
theorem scan_runs_on :
    (espInbound countingPacket nullTunnel).1 = 0
      ∧ payloadLen countingPacket nullTunnel 20 = 4
      ∧ padByte countingPacket nullTunnel + 2 = 12
      ∧ espInboundPost countingPacket nullTunnel = none := by
  refine ⟨by decide, by decide, by decide, ?_⟩
  have hgood : countingPacket.priv.cop.status = .success := rfl
  have hhw : hwTrailer nullTunnel.primary rxHwTrailerOffload = false := rfl
  obtain ⟨a, d1, hstrip, hbuf, hoff, hlen⟩ := (stripTrailer_cases
    (d := countingPacket) hhw (by decide) (by decide)).1 (by decide)
  have hfour : stripLen d1 = 20 := by
    rw [stripLen, hbuf, hoff]
    rfl
  have hshort : ¬ 8 + stripLen d1 ≤ d1.dataLen := by
    rw [hfour, hlen]
    decide
  rw [espInboundPost_verified rfl hgood, hstrip]
  dsimp only
  rw [if_neg (by decide)]
  show Option.map _ (ipipInbound d1 8) = none
  rw [(ipipInbound_cases (by rw [hfour]; decide)).2 hshort]
  rfl

theorem inbound_post_wellFormed_counting :
    ¬ PostOk countingPacket nullTunnel 4 := by
  have hiff := inbound_post_wellFormed_iff (m := countingPacket)
    (d := countingPacket) nullTunnel_fromTables rfl
    (Prod.ext (show (espInbound countingPacket nullTunnel).1 = 0 by decide) rfl)
    (show inboundHdrLen countingPacket = some 20 by decide) rfl rfl
  rw [show payloadLen countingPacket nullTunnel 20 = 4 by decide] at hiff
  rw [hiff, PlaintextOk]
  rintro (h | ⟨h, -⟩)
  · exact h (by decide)
  · exact absurd h (by decide)

end EspWellFormed
