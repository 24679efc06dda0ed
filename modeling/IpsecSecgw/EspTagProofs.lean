import IpsecSecgw.EspProofs

/-! # The SA of a packet

    `priv->sa` of a packet is written by the lcores alone: whatever ESP
    processing does to the headers, the trailer and the crypto operation, the
    packet stays with its SA. -/

namespace Esp

open ByteStore SaModel MbufModel Ipip

/-! ## The parts -/

section parts

variable (m : Mbuf) (a : Nat) (l : List UInt8)

@[simp] theorem write_sa : (m.write a l).priv.sa = m.priv.sa := rfl

@[simp] theorem writePriv_sa : (m.writePriv a l).priv.sa = m.priv.sa := rfl

@[simp] theorem setSym_sa (f : SymOp → SymOp) :
    (m.setSym f).priv.sa = m.priv.sa := rfl

@[simp] theorem setStatus_sa (st : CopStatus) :
    (m.setStatus st).priv.sa = m.priv.sa := rfl

@[simp] theorem writeTrailerEnd_sa (padding padLen : Nat) (nlp : UInt8) :
    (writeTrailerEnd m padding padLen nlp).priv.sa = m.priv.sa := rfl

@[simp] theorem writeTrailer_sa (padding padLen : Nat) (nlp : UInt8) :
    (writeTrailer m padding padLen nlp).priv.sa = m.priv.sa := rfl

end parts

variable {m m' : Mbuf} {sa sa' : IpsecSa}

theorem rtePktmbufAppend_sa {len a : Nat}
    (h : rtePktmbufAppend m len = some (a, m')) : m'.priv.sa = m.priv.sa := by
  rw [rtePktmbufAppend] at h
  split at h
  · cases h
    rfl
  · cases h

theorem rtePktmbufPrepend_sa {len a : Nat}
    (h : rtePktmbufPrepend m len = some (a, m')) : m'.priv.sa = m.priv.sa := by
  rw [rtePktmbufPrepend] at h
  split at h
  · cases h
    rfl
  · cases h

theorem rtePktmbufAdj_sa {len a : Nat}
    (h : rtePktmbufAdj m len = some (a, m')) : m'.priv.sa = m.priv.sa := by
  rw [rtePktmbufAdj] at h
  split at h
  · cases h
    rfl
  · cases h

theorem rtePktmbufTrim_sa {len : Nat} (h : rtePktmbufTrim m len = some m') :
    m'.priv.sa = m.priv.sa := by
  rw [rtePktmbufTrim] at h
  split at h
  · cases h
    rfl
  · cases h

/-! ## Outbound -/

theorem appendTrailer_sa {n a : Nat} (h : appendTrailer m sa n = some (a, m')) :
    m'.priv.sa = m.priv.sa := by
  rw [appendTrailer] at h
  split at h
  · cases h
    rfl
  · exact rtePktmbufAppend_sa h

theorem ip4ipOutbound_sa {offset a : Nat} {src dst : IpAddr}
    (h : ip4ipOutbound m offset src dst = some (a, m')) :
    m'.priv.sa = m.priv.sa := by
  rw [ip4ipOutbound] at h
  split at h
  · cases h
  · rename_i hpre
    cases h
    have hsame := rtePktmbufPrepend_sa hpre
    exact hsame

theorem ip6ipOutbound_sa {offset a : Nat} {src dst : IpAddr}
    (h : ip6ipOutbound m offset src dst = some (a, m')) :
    m'.priv.sa = m.priv.sa := by
  rw [ip6ipOutbound] at h
  split at h
  · cases h
  · rename_i hpre
    cases h
    have hsame := rtePktmbufPrepend_sa hpre
    exact hsame

theorem transportOutbound_sa {offset ip4 hdrLen a : Nat}
    (h : transportOutbound m offset ip4 hdrLen = some (a, m')) :
    m'.priv.sa = m.priv.sa := by
  rw [transportOutbound] at h
  split at h
  · cases h
  · rename_i hpre
    dsimp only at h
    split at h
    · cases h
      have hsame := rtePktmbufPrepend_sa hpre
      exact hsame
    · cases h
      have hsame := rtePktmbufPrepend_sa hpre
      exact hsame

theorem espEncap_sa {ip4 hdrLen a : Nat}
    (h : espEncap m sa ip4 hdrLen = some (a, m')) :
    m'.priv.sa = m.priv.sa := by
  rw [espEncap] at h
  split at h
  · split at h
    · cases h
    · rename_i hip
      cases h
      exact ip4ipOutbound_sa hip
  · split at h
    · split at h
      · cases h
      · rename_i hip
        cases h
        exact ip6ipOutbound_sa hip
    · split at h
      · exact transportOutbound_sa h
      · cases h

theorem outboundCrypto_sa (m : Mbuf) (sa : IpsecSa)
    (esp hdrLen padPayloadLen padding padLen : Nat) (nlp : UInt8) :
    (outboundCrypto m sa esp hdrLen padPayloadLen padding padLen nlp).2.priv.sa
      = m.priv.sa := by
  rw [outboundCrypto]
  dsimp only
  split
  · simp
  · split
    · rfl
    · split <;> simp

theorem outboundTail_sa (m : Mbuf) (sa : IpsecSa)
    (esp hdrLen padPayloadLen padding padLen : Nat) (nlp : UInt8) :
    (outboundTail m sa esp hdrLen padPayloadLen padding padLen nlp).2.priv.sa
      = m.priv.sa := by
  rw [outboundTail]
  split
  · split
    · rfl
    · rfl
  · exact outboundCrypto_sa ..

/-- **ESP OUTBOUND** leaves the packet with its SA, whatever it returns. -/
theorem espOutbound_tag {rc : Int} (h : espOutbound m sa = some (rc, m', sa')) :
    m'.priv.sa = m.priv.sa := by
  rw [espOutbound] at h
  dsimp only at h
  split at h
  · cases h
    rfl
  split at h
  · cases h
    rfl
  split at h
  · cases h
    rfl
  split at h
  · cases h
    rfl
  rename_i happ
  split at h
  · cases h
  rename_i henc
  have hsame := (espEncap_sa henc).trans (appendTrailer_sa happ)
  split at h
  · cases h
    exact hsame
  · cases h
    exact (outboundTail_sa ..).trans hsame

theorem espOutboundPost_tag (m : Mbuf) (sa : IpsecSa) :
    (espOutboundPost m sa).2.priv.sa = m.priv.sa := by
  rw [espOutboundPost]
  split
  · rfl
  · split
    · rfl
    · rfl

/-! ## Inbound -/

theorem inboundAead_sa (m : Mbuf) (sa : IpsecSa) (hdrLen payloadLen : Nat) :
    (inboundAead m sa hdrLen payloadLen).priv.sa = m.priv.sa := rfl

theorem inboundCipher_sa (m : Mbuf) (sa : IpsecSa) (hdrLen payloadLen : Nat) :
    (inboundCipher m sa hdrLen payloadLen).2.priv.sa = m.priv.sa := by
  rw [inboundCipher]
  dsimp only
  split
  · rfl
  · split <;> rfl

/-- **ESP INBOUND** leaves the packet with its SA. -/
theorem espInbound_tag (m : Mbuf) (sa : IpsecSa) :
    (espInbound m sa).2.priv.sa = m.priv.sa := by
  rw [espInbound]
  split
  · rfl
  split
  · rfl
  dsimp only
  split
  · rfl
  split
  · exact inboundAead_sa ..
  · exact inboundCipher_sa ..

theorem stripTrailer_sa {r : Option Nat × Mbuf}
    (h : stripTrailer m sa = some (.ok r)) : r.2.priv.sa = m.priv.sa := by
  rw [stripTrailer] at h
  split at h
  · cases h
    rfl
  split at h
  · cases h
  dsimp only at h
  split at h
  · cases h
  split at h
  · cases h
  split at h
  · cases h
  · rename_i htrim
    cases h
    exact rtePktmbufTrim_sa htrim

theorem transportInbound_sa {offset : Nat} {nexthdr : Option Nat}
    (h : transportInbound m offset nexthdr = some m') :
    m'.priv.sa = m.priv.sa := by
  rw [transportInbound] at h
  dsimp only at h
  split at h
  · cases h
  · rename_i hadj
    split at h
    · cases h
      have hsame := rtePktmbufAdj_sa hadj
      exact hsame
    · cases h
      have hsame := rtePktmbufAdj_sa hadj
      exact hsame

theorem ipipInbound_sa {offset : Nat} (h : ipipInbound m offset = some m') :
    m'.priv.sa = m.priv.sa := by
  rw [ipipInbound] at h
  dsimp only at h
  split at h
  · cases h
  · rename_i hadj
    split at h
    · cases h
      have hsame := rtePktmbufAdj_sa hadj
      exact hsame
    · cases h
      have hsame := rtePktmbufAdj_sa hadj
      exact hsame

/-- **THE POST-PROCESSING** of inbound packets, too. -/
theorem espInboundPost_tag {rc : Int}
    (h : espInboundPost m sa = some (rc, m')) : m'.priv.sa = m.priv.sa := by
  rw [espInboundPost] at h
  dsimp only at h
  split at h
  · cases h
    rfl
  split at h
  · cases h
  · cases h
    rfl
  rename_i hstrip
  split at h
  · cases h
  rename_i hdecap
  cases h
  have hback := stripTrailer_sa hstrip
  split at hdecap
  · exact (transportInbound_sa hdecap).trans hback
  · exact (ipipInbound_sa hdecap).trans hback

end Esp
