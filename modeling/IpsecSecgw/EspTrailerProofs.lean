import IpsecSecgw.EspLengthProofs

/-! # The trailer on both sides

    `esp_outbound` writes the trailer in three places.  For an inline device
    that leaves it to software, only its last two bytes are written: the
    padding in front of them is what the buffer held before, and the receiver
    checks every byte of it (`trailer_accepted_iff`). -/

namespace EspTrailer

open ByteStore SaModel MbufModel Ipip Esp EspFrame EspRoundTrip EspLength

/-! ## Padding -/

/-- How many padding bytes fill `payload` bytes and the two behind them up to
    whole blocks. -/
def padCount (payload : Nat) (bs : UInt16) : Nat :=
  (bs.toNat - (payload + 2) % bs.toNat) % bs.toNat

/-- **THE PADDING** of a call that went through is that one. -/
theorem padLen_eq {pktLen hdr : Nat} {bs : UInt16}
    (hbs : bs = 4 ∨ bs = 8 ∨ bs = 16 ∨ bs = 64) (hpkt : pktLen < 0x10000)
    (hhdr : hdr ≤ 60)
    (hpay : padPayloadLen pktLen hdr bs = pktLen - hdr + padLen pktLen hdr bs)
    (hdvd : bs.toNat ∣ padPayloadLen pktLen hdr bs) :
    padLen pktLen hdr bs = padCount (pktLen - hdr) bs + 2 := by
  obtain ⟨htwo, -⟩ := padLen_bounds pktLen hbs hpkt hhdr
  have hlt := padLen_lt hbs hpkt hhdr
  rw [hpay] at hdvd
  rw [padCount]
  rcases hbs with rfl | rfl | rfl | rfl <;>
  · simp only [UInt16.reduceToNat] at hdvd hlt ⊢
    omega

/-- Behind the packet the encapsulation changes nothing. -/
theorem encap_behind {m m' m1 m2 : Mbuf} {sa sa' : IpsecSa} {md : SaMode}
    {hdrLen : Nat} {nlp : UInt8} (hb : Built m m' sa sa' hdrLen nlp m1 m2)
    (hmd : sa.HasMode md) (ht : sa.FromTables) (hip : CompleteHeader m)
    (hhdr : outboundHdr m sa = some (hdrLen, nlp)) :
    ∀ i, m.dataOff + m.dataLen ≤ i → m2.buf i = m.buf i := by
  obtain ⟨-, hiv16, -⟩ := ht.sizes
  obtain ⟨hbuf, hoff, -⟩ := hb.room
  have henc := hb.encap
  have hbody := hb.body
  have hstart := hb.window.1
  rw [outerHdrLen_eq hmd] at henc hbody
  have hlong : 20 ≤ m.dataLen := by
    rw [CompleteHeader] at hip
    split at hip <;> omega
  -- ageing stays inside the header
  have haged : ∀ i, m.dataOff + m.dataLen ≤ i →
      (ageInner m.buf m.dataOff).1 i = m.buf i := by
    intro i hi
    rw [ageInner]
    split
    · dsimp only
      exact decTtl_other _ (by omega)
    · dsimp only
      exact decHops_other _ (by omega)
  intro i hi
  cases md with
  | ip4Tunnel =>
      rw [espEncap_ip4Tunnel _ _ _ hmd] at henc
      obtain ⟨⟨outip, m3⟩, hout, hp⟩ := Option.map_eq_some_iff.mp henc
      obtain rfl : m3 = m2 := (Prod.mk.inj hp).2
      obtain ⟨-, -, hoff3, -, -, hkept, -, -⟩ := ip4ipOutbound_some (by omega) hout
      have hzero := outboundHdr_tunnel hmd hhdr (by decide)
      dsimp only at hbody
      rw [hkept i (by omega), hbuf, hoff, haged i hi]
  | ip6Tunnel =>
      rw [espEncap_ip6Tunnel _ _ _ hmd] at henc
      obtain ⟨⟨outip, m3⟩, hout, hp⟩ := Option.map_eq_some_iff.mp henc
      obtain rfl : m3 = m2 := (Prod.mk.inj hp).2
      obtain ⟨-, -, hoff3, -, -, hkept, -⟩ := ip6ipOutbound_some (by omega) hout
      have hzero := outboundHdr_tunnel hmd hhdr (by decide)
      dsimp only at hbody
      rw [hkept i (by omega), hbuf, hoff, haged i hi]
  | transport =>
      dsimp only at henc hbody
      rw [espEncap_transport _ _ _ hmd, ← hoff] at henc
      obtain ⟨-, -, -, -, -, hkept⟩ := transportOutbound_some (by omega) henc
      have hfrom := hip.kept hmd hhdr
      rw [hbuf, hoff] at hkept
      obtain ⟨hbehind, -⟩ := hkept hfrom.1
      have hat := hbehind (i - m2.dataOff) (by omega)
      rw [show m2.dataOff + (i - m2.dataOff) = i by omega] at hat
      exact hat

/-! ## What the receiver finds -/

/-- The plaintext trailer is padding that counts up, the pad length and the
    inner protocol, and the receiver's check and trim leave the packet with its
    payload. -/
structure TrailerAccepted (m m' : Mbuf) (sa si : IpsecSa) : Prop where
  plain : load m'.buf (m'.dataOff + m'.dataLen - sa.digestLen.toNat
      - (padCount (m.dataLen - keptHdr m sa) sa.blockSize + 2))
      (padCount (m.dataLen - keptHdr m sa) sa.blockSize + 2)
    = padBytes (padCount (m.dataLen - keptHdr m sa) sa.blockSize)
      ++ [UInt8.ofNat (padCount (m.dataLen - keptHdr m sa) sa.blockSize),
        innerProto m sa]
  strip : ∃ a d, stripTrailer m' si = some (.ok (some a, d))
    ∧ m'.buf a = innerProto m sa
    ∧ d.dataLen = outerHdrLen sa (keptHdr m sa) + 8 + sa.ivLen.toNat
        + (m.dataLen - keptHdr m sa)

/-- Software builds the trailer: the session is a lookaside one, or that of an
    inline device without `RTE_SECURITY_TX_HW_TRAILER_OFFLOAD`. -/
def BuildsTrailer (sa : IpsecSa) : Prop :=
  sa.primary.type = .none
    ∨ sa.primary.type = .inlineCrypto
      ∧ sa.primary.olFlags &&& txHwTrailerOffload = 0

/-- The buffer happens to hold the padding behind the packet. -/
def RoomCounts (m : Mbuf) (sa : IpsecSa) : Prop :=
  load m.buf (m.dataOff + m.dataLen)
      (padCount (m.dataLen - keptHdr m sa) sa.blockSize)
    = padBytes (padCount (m.dataLen - keptHdr m sa) sa.blockSize)

instance (m : Mbuf) (sa : IpsecSa) : Decidable (RoomCounts m sa) :=
  inferInstanceAs (Decidable (_ = _))

theorem trailerBytes_add_two (n : Nat) (nlp : UInt8) :
    trailerBytes (n + 2) nlp = padBytes n ++ [UInt8.ofNat n, nlp] := by
  have hlen : UInt8.ofNat (n + 2) - 2 = UInt8.ofNat n := by
    rw [UInt8.ofNat_add]
    exact UInt8.add_sub_cancel _ _
  rw [trailerBytes, Nat.add_sub_cancel, hlen]

/-- **THE RECEIVER'S CHECK**: a trailer built in software is accepted exactly
    when the session is a lookaside one or the padding bytes are in the buffer
    already. -/
theorem trailer_accepted_iff {m m' : Mbuf} {sa sa' si : IpsecSa} {md : SaMode}
    (hmd : sa.HasMode md) (ht : sa.FromTables) (hsoft : BuildsTrailer sa)
    (hip : CompleteHeader m) (h : espOutbound m sa = some (0, m', sa'))
    (hdig : si.digestLen = sa.digestLen)
    (hrx : hwTrailer si.primary rxHwTrailerOffload = false) :
    TrailerAccepted m m' sa si ↔ sa.primary.type = .none ∨ RoomCounts m sa := by
  obtain ⟨hbs, hiv16, hdig32⟩ := ht.sizes
  obtain ⟨hdrLen, nlp, -, -, -, -, -, hhdr, -⟩ := espOutbound_success h
  obtain ⟨rfl, rfl⟩ := outboundHdr_eq hhdr
  have hle : keptHdr m sa ≤ m.dataLen := hip.keptHdr_le
  have hhw : hwTrailer sa.primary txHwTrailerOffload = false := by
    rw [hwTrailer]
    rcases hsoft with htype | ⟨-, hflag⟩
    · rw [htype]
      rfl
    · rw [hflag]
      simp
  obtain ⟨m1, m2, hb⟩ := espOutbound_built hmd ht hhw hhdr hle h
  have hbehind := encap_behind hb hmd ht hip hhdr
  have hmax := m.bufLen_le
  have hwin := m.window
  have hlength := hb.length
  have hbody := hb.body
  have hlast := hb.last
  have hrest := hb.rest
  have htrail := hb.trailer
  have hroom := hb.pad
  have hpad := padLen_eq hbs (by omega) (outboundHdr_le hhdr) hb.payload hb.blocks
  rw [hpad] at hlength hlast hrest htrail hroom
  generalize hn : padCount (m.dataLen - keptHdr m sa) sa.blockSize = n
    at hlength hlast hrest htrail hroom
  have hat : m'.dataOff + m'.dataLen - sa.digestLen.toNat - (n + 2)
      = m.dataOff + m.dataLen := by omega
  -- the trailer is what the padding in the buffer makes it
  have hwhole : load m'.buf (m.dataOff + m.dataLen) n = padBytes n →
      load m'.buf (m.dataOff + m.dataLen) (n + 2)
        = padBytes n ++ [UInt8.ofNat n, innerProto m sa] := by
    intro hpadding
    rw [load_add, hpadding, ← trailerBytes_add_two, trailerBytes,
      Nat.add_sub_cancel]
    refine congrArg _ ?_
    rw [← hlast]
    congr 1
  have haccept : load m'.buf (m.dataOff + m.dataLen) n = padBytes n →
      TrailerAccepted m m' sa si := by
    intro hpadding
    have hframe : Frame m' (outerHdrLen sa (keptHdr m sa)) sa.ivLen.toNat
        (m.dataLen - keptHdr m sa) (n + 2) si.digestLen.toNat
        (innerProto m sa) := by
      refine ⟨by rw [hdig]; exact hlength, hroom.1, hroom.2, ?_⟩
      rw [trailerBytes_add_two, ← hwhole hpadding]
      congr 1
      omega
    obtain ⟨a, d, hstrip, -, -, hlen, -, hnext⟩ :=
      stripTrailer_ok hrx (by rw [hdig]; exact hdig32) hframe
    refine ⟨?_, a, d, hstrip, hnext, hlen⟩
    rw [hn, hat]
    exact hwhole hpadding
  constructor
  · intro hacc
    rcases hsoft with htype | ⟨htype, hflag⟩
    · exact .inl htype
    · refine .inr ?_
      have hplain := hacc.plain
      rw [hn, hat, load_add] at hplain
      obtain ⟨hpadding, -⟩ := List.append_inj hplain (by simp)
      -- nothing has written these bytes
      have hfrom : trailerFrom sa (n + 2) = n := by
        rw [trailerFrom, if_pos htype, hhw, if_neg (by decide),
          Nat.add_sub_cancel]
      rw [hfrom] at hrest
      rw [RoomCounts, hn, ← hpadding]
      refine load_congr fun i hi => ?_
      rw [hrest _ (.inr ⟨by omega, by omega⟩), hbehind _ (by omega)]
  · intro hcond
    by_cases htype : sa.primary.type = .inlineCrypto
    · have hcounts : RoomCounts m sa := by
        refine hcond.resolve_left ?_
        rw [htype]
        decide
      have hfrom : trailerFrom sa (n + 2) = n := by
        rw [trailerFrom, if_pos htype, hhw, if_neg (by decide),
          Nat.add_sub_cancel]
      rw [hfrom] at hrest
      rw [RoomCounts, hn] at hcounts
      refine haccept ?_
      rw [← hcounts]
      refine load_congr fun i hi => ?_
      rw [hrest _ (.inr ⟨by omega, by omega⟩), hbehind _ (by omega)]
    · have hbytes := htrail htype
      rw [trailerBytes_add_two, load_add] at hbytes
      exact haccept (List.append_inj hbytes (by simp)).1

/-- A transport SA of an inline device that leaves the trailer to software. -/
def inlineTransport : IpsecSa :=
  { nullTransport with primary := { type := .inlineCrypto } }

/-- The call on a bare header goes through on both sessions. -/
theorem bareUdp_sent {sa : IpsecSa} (h : sa = nullTransport ∨ sa = inlineTransport) :
    ∃ m' sa', espOutbound bareUdp sa = some (0, m', sa') := by
  rcases h with rfl | rfl
  · obtain ⟨m', h⟩ := espOutbound_ok (m := bareUdp)
      (show nullTransport.HasMode .transport by decide)
      (.inr ⟨by decide, .inr (.inl rfl)⟩)
      (show outboundHdr bareUdp nullTransport = some (20, 17) by decide)
      (by decide) (by decide) (by decide)
    exact ⟨m', _, h⟩
  · obtain ⟨m', h⟩ := espOutbound_ok (m := bareUdp)
      (show inlineTransport.HasMode .transport by decide)
      (.inr ⟨by decide, .inl rfl⟩)
      (show outboundHdr bareUdp inlineTransport = some (20, 17) by decide)
      (by decide) (by decide) (by decide)
    exact ⟨m', _, h⟩

theorem trailer_accepted_udp : ∃ m' sa',
    espOutbound bareUdp nullTransport = some (0, m', sa')
      ∧ TrailerAccepted bareUdp m' nullTransport nullTransport := by
  obtain ⟨m', sa', h⟩ := bareUdp_sent (.inl rfl)
  have hiff := @trailer_accepted_iff bareUdp m' nullTransport sa' nullTransport
    .transport (by decide) nullTransport_legacy.fromTables (.inl rfl)
    (by rw [CompleteHeader]; decide) h rfl rfl
  exact ⟨m', sa', h, hiff.mpr (.inl rfl)⟩

/-- **STALE PADDING**: with zeros behind the packet, the two padding bytes the
    inline device sends are zeros, and the receiver refuses them. -/
theorem trailer_refused : ∃ m' sa',
    espOutbound bareUdp inlineTransport = some (0, m', sa')
      ∧ ¬ TrailerAccepted bareUdp m' inlineTransport nullTransport := by
  obtain ⟨m', sa', h⟩ := bareUdp_sent (.inr rfl)
  have hiff := @trailer_accepted_iff bareUdp m' inlineTransport sa' nullTransport
    .transport (by decide) nullTransport_legacy.fromTables (.inr ⟨rfl, rfl⟩)
    (by rw [CompleteHeader]; decide) h rfl rfl
  refine ⟨m', sa', h, fun hacc => ?_⟩
  rcases hiff.mp hacc with htype | hcounts
  · exact absurd htype (by decide)
  · exact absurd hcounts (by decide)

end EspTrailer
