import IpsecSecgw.EspWellFormedProofs
import IpsecSecgw.SecgwModel

/-! # Where the ESP header is

    Four functions reckon with the length of the outer header on their own:
    `prepare_one_packet` stores 20, or what its walk over extension headers
    finds; `sad_lookup` reads the SPI behind that; `esp_inbound` takes the
    header length field, or 40; `ipip_inbound` takes off 20 or 40.  They speak
    of one ESP header exactly on IPv4 without options and on IPv6 with ESP
    right behind the fixed header. -/

namespace EspHeader

open ByteStore SaModel MbufModel SadModel Esp Ipip EspWellFormed SecgwModel
open WorkerModel

variable (conf : PollConf)

/-! ## What `prepare_one_packet` leaves -/

/-- Nothing but metadata and the length of the window differ. -/
structure SamePlace (m m' : Mbuf) : Prop where
  buf : m'.buf = m.buf
  dataOff : m'.dataOff = m.dataOff

theorem trimTo_same (m : Mbuf) (plen : Nat) : SamePlace m (trimTo m plen) := by
  rw [trimTo]
  split
  · rw [rtePktmbufTrim]
    split
    · exact ⟨rfl, rfl⟩
    · exact ⟨rfl, rfl⟩
  · exact ⟨rfl, rfl⟩

theorem classify_same (m : Mbuf) (proto : Option UInt8) (udp : Nat) (plain : PktClass) :
    SamePlace m (classify conf m proto udp plain).2
      ∧ (classify conf m proto udp plain).2.dataLen = m.dataLen := by
  rw [classify]
  split
  · exact ⟨⟨rfl, rfl⟩, rfl⟩
  · split
    · exact ⟨⟨rfl, rfl⟩, rfl⟩
    · exact ⟨⟨rfl, rfl⟩, rfl⟩

theorem saveUserdata_same (m : Mbuf) :
    SamePlace m (saveUserdata conf m)
      ∧ (saveUserdata conf m).dataLen = m.dataLen
      ∧ (saveUserdata conf m).l3Len = m.l3Len := by
  rw [saveUserdata]
  split
  · cases conf.getUserdata m.port m.dynSa with
    | none => exact ⟨⟨rfl, rfl⟩, rfl, rfl⟩
    | some p => exact ⟨⟨rfl, rfl⟩, rfl, rfl⟩
  · exact ⟨⟨rfl, rfl⟩, rfl, rfl⟩

/-- The walk looks at the packet's bytes and its length only. -/
theorem extLoop_congr {m m' : Mbuf} (h : SamePlace m m')
    (hlen : m'.dataLen = m.dataLen) (fuel : Nat) (proto : UInt8) (l3len : Nat) :
    extLoop conf m' fuel proto l3len = extLoop conf m fuel proto l3len := by
  induction fuel generalizing proto l3len with
  | zero => rfl
  | succ fuel ih =>
      rw [extLoop, extLoop, h.buf, h.dataOff, hlen]
      split
      · cases conf.getNextExt m.buf (m.dataOff + l3len) proto with
        | none => rfl
        | some r => exact ih r.1 (l3len + r.2)
      · rfl

theorem ipv6L3_congr {m m' : Mbuf} (h : SamePlace m m')
    (hlen : m'.dataLen = m.dataLen) : ipv6L3 conf m' = ipv6L3 conf m := by
  rw [ipv6L3, ipv6L3, h.buf, h.dataOff, hlen]
  exact extLoop_congr conf h hlen _ _ _

/-- The walk never goes back. -/
theorem extLoop_le (m : Mbuf) (fuel : Nat) (proto : UInt8) (l3len : Nat) :
    l3len ≤ (extLoop conf m fuel proto l3len).2 := by
  induction fuel generalizing proto l3len with
  | zero => exact Nat.le_refl _
  | succ fuel ih =>
      rw [extLoop]
      split
      · cases conf.getNextExt m.buf (m.dataOff + l3len) proto with
        | none => exact Nat.le_refl _
        | some r => exact Nat.le_trans (Nat.le_add_right _ _) (ih r.1 (l3len + r.2))
      · exact Nat.le_refl _

/-- **ESP RIGHT BEHIND**: a walk that finds ESP has gone nowhere exactly when
    ESP is the protocol it starts with. -/
theorem extLoop_stays_iff {m : Mbuf} {fuel l l3len : Nat} {proto : UInt8}
    (h : extLoop conf m fuel proto l3len = (some ipprotoEsp, l)) :
    l = l3len ↔ proto = ipprotoEsp := by
  cases fuel with
  | zero =>
      rw [extLoop] at h
      obtain ⟨hproto, hl⟩ := Prod.mk.inj h
      exact ⟨fun _ => Option.some.inj hproto, fun _ => hl.symm⟩
  | succ fuel =>
      rw [extLoop] at h
      by_cases hgo : proto ≠ ipprotoEsp ∧ l3len < m.dataLen
      · rw [if_pos hgo] at h
        refine ⟨fun hl => ?_, fun hp => absurd hp hgo.1⟩
        cases hext : conf.getNextExt m.buf (m.dataOff + l3len) proto with
        | none =>
            rw [hext] at h
            cases h
        | some r =>
            rw [hext] at h
            have hlen := conf.getNextExt_len _ _ _ _ hext
            have hle := extLoop_le conf m fuel r.1 (l3len + r.2)
            rw [show extLoop conf m fuel r.1 (l3len + r.2) = _ from h] at hle
            dsimp only at hle
            omega
      · rw [if_neg hgo] at h
        obtain ⟨hproto, hl⟩ := Prod.mk.inj h
        exact ⟨fun _ => Option.some.inj hproto, fun _ => hl.symm⟩

/-- The protocol the classification goes by. -/
def foundProto (m m' : Mbuf) : Option UInt8 :=
  if etherType m = etherTypeIpv4 then some (m'.buf (m'.dataOff + 9))
  else (ipv6L3 conf m').1

/-- The length of the outer header as `prepare_one_packet` sees it. -/
def foundL3len (m m' : Mbuf) : Nat :=
  if etherType m = etherTypeIpv4 then ipv4HdrLen else (ipv6L3 conf m').2

/-- A packet that is not freed was prepared as one of the two families. -/
theorem prepareOnePacket_kept {m m' : Mbuf} {cls : PktClass}
    (h : prepareOnePacket conf m = some (cls, m')) (hkept : cls ≠ .freed) :
    ∃ r m1, rtePktmbufAdj m rteEtherHdrLen = some r ∧ m' = saveUserdata conf m1
      ∧ (etherType m = etherTypeIpv4 ∧ prepareIpv4 conf r.2 = (cls, m1)
        ∨ etherType m ≠ etherTypeIpv4 ∧ etherType m = etherTypeIpv6
          ∧ prepareIpv6 conf r.2 = (cls, m1)) := by
  have hfinish : ∀ x : PktClass × Mbuf,
      (if x.1 = .freed then x else (x.1, saveUserdata conf x.2)) = (cls, m') →
      x = (cls, x.2) ∧ m' = saveUserdata conf x.2 := by
    intro x hx
    split at hx
    · rename_i hfreed
      rw [hx] at hfreed
      exact absurd hfreed hkept
    · obtain ⟨rfl, rfl⟩ := Prod.mk.inj hx
      exact ⟨rfl, rfl⟩
  rw [prepareOnePacket] at h
  by_cases h4 : etherType m = etherTypeIpv4
  · rw [if_pos h4] at h
    cases hr : rtePktmbufAdj m rteEtherHdrLen with
    | none =>
        rw [hr] at h
        cases h
    | some r =>
        rw [hr] at h
        obtain ⟨hx, hm'⟩ := hfinish _ (Option.some.inj h)
        exact ⟨r, _, rfl, hm', .inl ⟨h4, hx⟩⟩
  · rw [if_neg h4] at h
    by_cases h6 : etherType m = etherTypeIpv6
    · rw [if_pos h6] at h
      cases hr : rtePktmbufAdj m rteEtherHdrLen with
      | none =>
          rw [hr] at h
          cases h
      | some r =>
          rw [hr] at h
          obtain ⟨hx, hm'⟩ := hfinish _ (Option.some.inj h)
          exact ⟨r, _, rfl, hm', .inr ⟨h4, h6, hx⟩⟩
    · rw [if_neg h6] at h
      obtain ⟨hx, -⟩ := hfinish _ (Option.some.inj h)
      cases hkept (congrArg Prod.fst hx).symm

theorem rtePktmbufAdj_same {m : Mbuf} {len : Nat} (hlen : len < 0x10000)
    {r : Nat × Mbuf} (h : rtePktmbufAdj m len = some r) :
    r.2.buf = m.buf ∧ r.2.dataOff = m.dataOff + len := by
  rw [rtePktmbufAdj] at h
  split at h
  · cases h
    refine ⟨rfl, ?_⟩
    show m.dataOff + len16 len = _
    rw [len16_eq hlen]
  · cases h

theorem prepareIpv4_same {m m1 : Mbuf} {cls : PktClass}
    (h : prepareIpv4 conf m = (cls, m1)) :
    SamePlace m m1 ∧ m1.l3Len = l3LenField ipv4HdrLen := by
  obtain rfl := (congrArg Prod.snd h).symm
  have htrim := trimTo_same m (ofBe (load m.buf (m.dataOff + 2) 2))
  have hcls := (classify_same conf (adjustIpv4Pktlen m m.dataOff)
    (some ((adjustIpv4Pktlen m m.dataOff).buf (m.dataOff + 9)))
    (m.dataOff + ipHl (adjustIpv4Pktlen m m.dataOff).buf m.dataOff * 4) .ip4).1
  exact ⟨⟨hcls.buf.trans htrim.buf, hcls.dataOff.trans htrim.dataOff⟩, rfl⟩

theorem prepareIpv6_same {m m1 : Mbuf} {cls : PktClass}
    (h : prepareIpv6 conf m = (cls, m1)) (hkept : cls ≠ .freed) :
    SamePlace m m1 ∧ m1.l3Len = l3LenField (ipv6L3 conf m1).2 := by
  rw [prepareIpv6] at h
  dsimp only at h
  have htrim := trimTo_same m (ofBe (load m.buf (m.dataOff + 4) 2) + ipv6HdrLen)
  rw [← adjustIpv6Pktlen] at htrim
  generalize adjustIpv6Pktlen m m.dataOff = m2 at h htrim
  split at h
  · exact absurd (congrArg Prod.fst h).symm hkept
  · obtain ⟨hcls, hlen⟩ := classify_same conf m2 (ipv6L3 conf m2).1
      (m.dataOff + (ipv6L3 conf m2).2) .ip6
    generalize classify conf m2 (ipv6L3 conf m2).1
      (m.dataOff + (ipv6L3 conf m2).2) .ip6 = r at h hcls hlen
    obtain rfl := (congrArg Prod.snd h).symm
    refine ⟨⟨hcls.buf.trans htrim.buf, hcls.dataOff.trans htrim.dataOff⟩, ?_⟩
    have hwalk : ipv6L3 conf (setL3 r.2 (ipv6L3 conf m2).2 ptypeL3Ipv6)
        = ipv6L3 conf m2 := ipv6L3_congr conf ⟨hcls.buf, hcls.dataOff⟩ hlen
    exact congrArg (fun x => l3LenField x.2) hwalk.symm

/-- **PREPARED**: the window begins at the IP header, and the length of that is
    in its field. -/
theorem prepared_ipsec {m m' : Mbuf}
    (h : prepareOnePacket conf m = some (.ipsec, m')) :
    m'.buf = m.buf ∧ m'.dataOff = m.dataOff + rteEtherHdrLen
      ∧ m'.l3Len = l3LenField (foundL3len conf m m')
      ∧ (etherType m = etherTypeIpv4 ∨ etherType m = etherTypeIpv6) := by
  have hkept : PktClass.ipsec ≠ .freed := by decide
  obtain ⟨r, m1, hr, rfl, hcase⟩ := prepareOnePacket_kept conf h hkept
  obtain ⟨hbuf, hoff⟩ := rtePktmbufAdj_same (by decide) hr
  obtain ⟨hsave, hlen, hl3⟩ := saveUserdata_same conf m1
  rw [foundL3len]
  rcases hcase with ⟨h4, hprep⟩ | ⟨h4, h6, hprep⟩
  · obtain ⟨hsame, hfield⟩ := prepareIpv4_same conf hprep
    rw [if_pos h4]
    exact ⟨hsave.buf.trans (hsame.buf.trans hbuf),
      hsave.dataOff.trans (hsame.dataOff.trans hoff), hl3.trans hfield, .inl h4⟩
  · obtain ⟨hsame, hfield⟩ := prepareIpv6_same conf hprep hkept
    rw [if_neg h4, ipv6L3_congr conf hsave hlen]
    exact ⟨hsave.buf.trans (hsame.buf.trans hbuf),
      hsave.dataOff.trans (hsame.dataOff.trans hoff), hl3.trans hfield, .inr h6⟩

/-! ## The stages -/

/-- All stages speak of the ESP header `off` bytes behind the start of `m`. -/
structure StagesAgree (m : Mbuf) (off : Nat) : Prop where
  /-- where `sad_lookup` reads the SPI -/
  lookup : m.l3Len = off
  /-- where `esp_inbound` begins -/
  inbound : inboundHdrLen m = some off
  /-- what `ipip_inbound` takes off besides ESP header and IV -/
  strip : stripLen m = off
  /-- the SPI of the lookup is the first word of what is authenticated -/
  authenticated : ∀ sa m', sa.primary.type ≠ .inlineCrypto →
    espInbound m sa = (0, m') →
    (sa.aeadAlgo = .aesGcm →
      m'.priv.cop.sym.aead.offset = off + 8 + sa.ivLen.toNat
        ∧ (load m'.priv.buf 16 8).take 4 = espSpi m 0)
    ∧ (sa.aeadAlgo ≠ .aesGcm →
      m'.priv.cop.sym.cipher.offset = off + 8 + sa.ivLen.toNat
        ∧ load m.buf (m.dataOff + m'.priv.cop.sym.auth.offset) 4 = espSpi m 0)
  /-- a tunnel payload is delivered from the first decrypted byte on, whatever
      has become of the bytes behind the outer header's first -/
  delivered : ∀ (sa : IpsecSa) (d d' : Mbuf), sa.FromTables →
    isTransport sa.flags = false → d.dataOff = m.dataOff →
    d.buf d.dataOff = m.buf m.dataOff → espInboundPost d sa = some (0, d') →
    d'.dataOff = m.dataOff + (off + 8 + sa.ivLen.toNat)

/-- The operation begins at the header length of `esp_inbound`. -/
theorem espInbound_regions {m m' : Mbuf} {sa : IpsecSa} {off : Nat}
    (htype : sa.primary.type ≠ .inlineCrypto) (hhdr : inboundHdrLen m = some off)
    (h : espInbound m sa = (0, m')) :
    (sa.aeadAlgo = .aesGcm →
      m'.priv.cop.sym.aead.offset = off + 8 + sa.ivLen.toNat
        ∧ load m'.priv.buf 16 8 = load m.buf (m.dataOff + off) 8)
    ∧ (sa.aeadAlgo ≠ .aesGcm →
      m'.priv.cop.sym.cipher.offset = off + 8 + sa.ivLen.toNat
        ∧ m'.priv.cop.sym.auth.offset = off) := by
  have heinval : einval ≠ 0 := by decide
  rw [espInbound, if_neg htype, hhdr] at h
  dsimp only at h
  split at h
  · exact absurd (Prod.mk.inj h).1 heinval
  · split at h
    · rename_i hgcm
      obtain rfl := (Prod.mk.inj h).2
      refine ⟨fun _ => ⟨by simp [inboundAead], ?_⟩, fun hn => absurd hgcm hn⟩
      simp only [inboundAead, Mbuf.setSym_priv_buf, Mbuf.writePriv_priv_buf,
        Mbuf.setSym_buf, Mbuf.writePriv_buf, Mbuf.setSym_dataOff,
        Mbuf.writePriv_dataOff]
      rw [load_store_eq _ (length_load _ _ 8), Nat.add_sub_cancel]
    · rename_i hgcm
      refine ⟨fun hy => absurd hy hgcm, fun _ => ?_⟩
      rw [inboundCipher] at h
      dsimp only at h
      split at h
      · exact absurd (Prod.mk.inj h).1 heinval
      · split at h
        · obtain rfl := (Prod.mk.inj h).2
          exact ⟨rfl, rfl⟩
        · obtain rfl := (Prod.mk.inj h).2
          exact ⟨rfl, rfl⟩
        · obtain rfl := (Prod.mk.inj h).2
          exact ⟨rfl, rfl⟩
        · exact absurd (Prod.mk.inj h).1 heinval

theorem stripTrailer_same {m m' : Mbuf} {sa : IpsecSa} {a : Option Nat}
    (h : stripTrailer m sa = some (.ok (a, m'))) : SamePlace m m' := by
  rw [stripTrailer] at h
  split at h
  · cases h
    exact ⟨rfl, rfl⟩
  · split at h
    · cases h
    · dsimp only at h
      split at h
      · cases h
      · split at h
        · cases h
        · rw [rtePktmbufTrim] at h
          split at h
          · cases h
          · rename_i hs
            split at hs
            · cases hs
              cases h
              exact ⟨rfl, rfl⟩
            · cases hs

theorem ipipInbound_dataOff {m m' : Mbuf} {offset : Nat}
    (h16 : offset + stripLen m < 0x10000) (h : ipipInbound m offset = some m') :
    m'.dataOff = m.dataOff + (offset + stripLen m) := by
  have hstrip : (if ipV m.buf m.dataOff = 4 then 20 else 40) = stripLen m := rfl
  rw [ipipInbound, hstrip] at h
  dsimp only at h
  cases hadj : rtePktmbufAdj m (offset + stripLen m) with
  | none =>
      rw [hadj] at h
      cases h
  | some r =>
      obtain ⟨-, hoff⟩ := rtePktmbufAdj_same h16 hadj
      rw [hadj] at h
      dsimp only at h
      split at h
      · cases h
        exact hoff
      · cases h
        exact hoff

/-- The tunnel strip of a packet whose first byte is that of `m`. -/
theorem espInboundPost_dataOff {m d d' : Mbuf} {sa : IpsecSa} (ht : sa.FromTables)
    (hmode : isTransport sa.flags = false) (hoff : d.dataOff = m.dataOff)
    (hfirst : d.buf d.dataOff = m.buf m.dataOff)
    (h : espInboundPost d sa = some (0, d')) :
    d'.dataOff = m.dataOff + (8 + sa.ivLen.toNat + stripLen m) := by
  have hminus : (-1 : Int) ≠ 0 := by decide
  have hiv := ht.sizes.2.1
  rw [espInboundPost] at h
  dsimp only at h
  split at h
  · exact absurd (Prod.mk.inj (Option.some.inj h)).1 hminus
  · split at h
    · cases h
    · rename_i rc hstrip
      obtain ⟨hrc, rfl⟩ := Prod.mk.inj (Option.some.inj h)
      -- the trailer is never refused with code 0
      rw [stripTrailer] at hstrip
      split at hstrip
      · cases hstrip
      · split at hstrip
        · cases hstrip
        · dsimp only at hstrip
          rw [hrc] at hstrip
          split at hstrip
          · cases hstrip
          · split at hstrip
            · cases hstrip
            · split at hstrip
              · cases hstrip
              · cases hstrip
    · rename_i a m2 hstrip
      have hsame := stripTrailer_same hstrip
      rw [hmode, if_neg Bool.false_ne_true] at h
      split at h
      · cases h
      · rename_i m3 hip
        obtain rfl := (Prod.mk.inj (Option.some.inj h)).2
        have hlen : stripLen m2 = stripLen m := by
          rw [stripLen, stripLen, ipV, ipV, hsame.buf, hsame.dataOff]
          show (if (d.buf d.dataOff).toNat / 16 = 4 then 20 else 40) = _
          rw [hfirst]
        have hsmall : stripLen m ≤ 40 := by
          rw [stripLen]
          split
          · decide
          · decide
        rw [ipipInbound_dataOff (by omega) hip, hsame.dataOff, hlen]
        show d.dataOff + _ = _
        rw [hoff]

/-- The three lengths are all it takes. -/
theorem stagesAgree_of_lengths {m : Mbuf} {off : Nat} (hlookup : m.l3Len = off)
    (hinbound : inboundHdrLen m = some off) (hstrip : stripLen m = off) :
    StagesAgree m off where
  lookup := hlookup
  inbound := hinbound
  strip := hstrip
  authenticated := by
    intro sa m' htype h
    obtain ⟨hgcm, hcipher⟩ := espInbound_regions htype hinbound h
    constructor
    · intro ha
      obtain ⟨hoff, haad⟩ := hgcm ha
      refine ⟨hoff, ?_⟩
      rw [haad, espSpi, hlookup]
      rfl
    · intro ha
      obtain ⟨hoff, hauth⟩ := hcipher ha
      refine ⟨hoff, ?_⟩
      rw [hauth, espSpi, hlookup]
      rfl
  delivered := by
    intro sa d d' ht hmode hoff hfirst h
    rw [espInboundPost_dataOff ht hmode hoff hfirst h, hstrip]
    omega

/-! ## When they agree -/

/-- IPv4 without options, or IPv6 without extension headers in front of ESP. -/
def Straight (m : Mbuf) : Prop :=
  let ip := m.dataOff + rteEtherHdrLen
  etherType m = etherTypeIpv4 ∧ ipV m.buf ip = 4 ∧ ipHl m.buf ip = 5
    ∨ etherType m = etherTypeIpv6 ∧ ipV m.buf ip = 6
      ∧ m.buf (ip + 6) = ipprotoEsp

theorem etherTypeIpv6_ne : etherTypeIpv6 ≠ etherTypeIpv4 := by decide

theorem ipv4_agree_iff {m : Mbuf} (hl3 : m.l3Len = l3LenField ipv4HdrLen) :
    StagesAgree m ipv4HdrLen
      ↔ ipV m.buf m.dataOff = 4 ∧ ipHl m.buf m.dataOff = 5 := by
  constructor
  · intro h
    have hin := h.inbound
    rw [inboundHdrLen] at hin
    by_cases h4 : ipV m.buf m.dataOff = 4
    · rw [if_pos h4] at hin
      have hlen : ipHl m.buf m.dataOff * 4 = 20 := Option.some.inj hin
      exact ⟨h4, by omega⟩
    · have hst := h.strip
      rw [stripLen, if_neg h4] at hst
      cases hst
  · rintro ⟨h4, hhl⟩
    refine stagesAgree_of_lengths hl3 ?_ ?_
    · rw [inboundHdrLen, if_pos h4, hhl]
      rfl
    · rw [stripLen, if_pos h4]
      rfl

theorem ipv6_agree_iff {m : Mbuf} (hesp : (ipv6L3 conf m).1 = some ipprotoEsp)
    (hl3 : m.l3Len = l3LenField (ipv6L3 conf m).2) :
    StagesAgree m (ipv6L3 conf m).2
      ↔ ipV m.buf m.dataOff = 6 ∧ m.buf (m.dataOff + 6) = ipprotoEsp := by
  have hwalk : ipv6L3 conf m = (some ipprotoEsp, (ipv6L3 conf m).2) :=
    Prod.ext hesp rfl
  have hge : ipv6HdrLen ≤ (ipv6L3 conf m).2 := extLoop_le conf m _ _ _
  have hstays := extLoop_stays_iff conf hwalk
  generalize (ipv6L3 conf m).2 = l at hl3 hge hstays
  constructor
  · intro h
    have hst := h.strip
    have hin := h.inbound
    rw [stripLen] at hst
    rw [inboundHdrLen] at hin
    by_cases h4 : ipV m.buf m.dataOff = 4
    · rw [if_pos h4] at hst
      rw [← hst] at hge
      exact absurd hge (by decide)
    · rw [if_neg h4] at hst hin
      refine ⟨?_, hstays.mp hst.symm⟩
      by_contra h6
      rw [if_neg h6] at hin
      cases hin
  · rintro ⟨h6, hfirst⟩
    obtain rfl := hstays.mpr hfirst
    have h4 : ipV m.buf m.dataOff ≠ 4 := by
      rw [h6]
      decide
    refine stagesAgree_of_lengths hl3 ?_ ?_
    · rw [inboundHdrLen, if_neg h4, if_pos h6]
      rfl
    · rw [stripLen, if_neg h4]
      rfl

/-- **ONE ESP HEADER**: exactly on straight packets all stages agree on the
    header `prepare_one_packet` has found. -/
theorem stages_agree_iff {m m' : Mbuf}
    (h : prepareOnePacket conf m = some (.ipsec, m'))
    (hesp : foundProto conf m m' = some ipprotoEsp) :
    StagesAgree m' (foundL3len conf m m') ↔ Straight m := by
  obtain ⟨hbuf, hoff, hl3, hether⟩ := prepared_ipsec conf h
  rw [foundProto] at hesp
  rw [foundL3len] at hl3 ⊢
  rw [Straight, ← hbuf, ← hoff]
  rcases hether with h4 | h6
  · rw [if_pos h4] at hl3 ⊢
    rw [ipv4_agree_iff hl3]
    constructor
    · intro hst
      exact .inl ⟨h4, hst⟩
    · rintro (⟨-, hst⟩ | ⟨h6, -⟩)
      · exact hst
      · exact absurd (h6.symm.trans h4) etherTypeIpv6_ne
  · have h4 : etherType m ≠ etherTypeIpv4 := by
      rw [h6]
      exact etherTypeIpv6_ne
    rw [if_neg h4] at hl3 hesp ⊢
    rw [ipv6_agree_iff conf hesp hl3]
    constructor
    · intro hst
      exact .inr ⟨h6, hst⟩
    · rintro (⟨h4', -⟩ | ⟨-, hst⟩)
      · exact absurd h4' h4
      · exact hst

/-- Destination options of eight bytes are the only extension header. -/
def optionConf : PollConf where
  enable := false
  udpEncap := false
  dynfieldRegistered := false
  getUserdata := fun _ _ => none
  getNextExt := fun b a proto => if proto = 60 then some (b a, 8) else none
  getNextExt_len := by
    intro b a proto r h
    split at h
    · cases h
      exact Nat.le_refl _
    · cases h

/-- An IPv4 packet with ESP behind a header that begins with `first`. -/
def ipv4Esp (first : UInt8) : Mbuf :=
  Mbuf.mid (fun i =>
    if i = 140 then 8 else if i = 142 then first else if i = 145 then 100
    else if i = 151 then ipprotoEsp else 0) 128

/-- An IPv6 packet with ESP behind destination options. -/
def ipv6OptionEsp : Mbuf :=
  Mbuf.mid (fun i =>
    if i = 140 then 0x86 else if i = 141 then 0xdd else if i = 142 then 0x60
    else if i = 147 then 60 else if i = 148 then 60 else if i = 182 then ipprotoEsp
    else 0) 128

set_option maxRecDepth 4096 in
/-- A packet with the shortest header. -/
theorem stages_agree_straight :
    ∃ m', prepareOnePacket optionConf (ipv4Esp 0x45) = some (.ipsec, m')
      ∧ foundProto optionConf (ipv4Esp 0x45) m' = some ipprotoEsp
      ∧ (StagesAgree m' (foundL3len optionConf (ipv4Esp 0x45) m')
        ↔ Straight (ipv4Esp 0x45)) :=
  ⟨_, rfl, rfl, stages_agree_iff optionConf rfl rfl⟩

set_option maxRecDepth 4096 in
/-- Four bytes of IPv4 options, or an IPv6 extension header: no agreement. -/
theorem stages_disagree :
    (∃ m', prepareOnePacket optionConf (ipv4Esp 0x46) = some (.ipsec, m')
      ∧ foundProto optionConf (ipv4Esp 0x46) m' = some ipprotoEsp
      ∧ ¬ StagesAgree m' (foundL3len optionConf (ipv4Esp 0x46) m')) ∧
    ∃ m', prepareOnePacket optionConf ipv6OptionEsp = some (.ipsec, m')
      ∧ foundProto optionConf ipv6OptionEsp m' = some ipprotoEsp
      ∧ ¬ StagesAgree m' (foundL3len optionConf ipv6OptionEsp m') := by
  refine ⟨⟨_, rfl, rfl, fun h => ?_⟩, ⟨_, rfl, rfl, fun h => ?_⟩⟩
  · have hin : some 24 = some 20 := h.inbound
    cases hin
  · have hin : some 40 = some 48 := h.inbound
    cases hin

end EspHeader
