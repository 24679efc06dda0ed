import IpsecSecgw.IpipProofs

/-! # ESP processing

    `esp_outbound`, `esp_inbound` and the two post-processing functions, as
    the code computes them on one packet and one SA.  Lengths the code keeps
    in 16-bit variables are cut to 16 bits where it assigns them.  A result
    `none` is a null pointer followed by the code; an error code comes with
    the packet and the SA as they are at that point, half-written.

    The crypto operation is the one in the mbuf's private area. -/

namespace Esp

open ByteStore SaModel MbufModel Ipip

/-! ## Shared pieces -/

/-- `RTE_SECURITY_TX_HW_TRAILER_OFFLOAD`. -/
def txHwTrailerOffload : UInt32 := 2

/-- `RTE_SECURITY_RX_HW_TRAILER_OFFLOAD`. -/
def rxHwTrailerOffload : UInt32 := 0x10000

/-- `RTE_ALIGN_CEIL` on 32-bit values. -/
def rteAlignCeil (val align : UInt32) : UInt32 :=
  (val + (align - 1)) &&& ~~~(align - 1)

/-- `struct cnt_blk`: salt in memory order, IV, and the counter 1. -/
def cntBlk (salt : UInt32) (iv : List UInt8) : List UInt8 :=
  toLe 4 salt.toNat ++ iv ++ toBe 4 1

/-- Is the SA handled by an inline device that needs no trailer from here? -/
def hwTrailer (ips : RteIpsecSession) (flag : UInt32) : Bool :=
  ips.type == .inlineCrypto && ips.olFlags &&& flag != 0

/-! ## Outbound -/

/-- The first test of `esp_outbound`: the length of the header to keep (zero
    in tunnel mode) and the next protocol; `none` for an unknown version. -/
def outboundHdr (m : Mbuf) (sa : IpsecSa) : Option (Nat × UInt8) :=
  let ip := m.dataOff
  if ipV m.buf ip = 4 then
    if isTransport sa.flags then some (ipHl m.buf ip * 4, m.buf (ip + 9))
    else some (0, ipprotoIpip)
  else if ipV m.buf ip = 6 then
    if isTransport sa.flags then some (40, m.buf (ip + 6))
    else some (0, ipprotoIpv6)
  else none

/-- `pad_payload_len`, a 16-bit variable. -/
def padPayloadLen (pktLen ipHdrLen : Nat) (blockSize : UInt16) : Nat :=
  (rteAlignCeil (UInt32.ofNat pktLen - UInt32.ofNat ipHdrLen + 2)
    blockSize.toUInt32).toNat % 0x10000

/-- `pad_len`, a 16-bit variable. -/
def padLen (pktLen ipHdrLen : Nat) (blockSize : UInt16) : Nat :=
  (padPayloadLen pktLen ipHdrLen blockSize + ipHdrLen + 0x100000000 - pktLen)
    % 0x10000

/-- Room for the trailer and the digest: the place of the padding.  An inline
    device that builds the trailer leaves the packet as it is. -/
def appendTrailer (m : Mbuf) (sa : IpsecSa) (padLen : Nat) :
    Option (Nat × Mbuf) :=
  if hwTrailer sa.primary txHwTrailerOffload then some (0, m)
  else rtePktmbufAppend m (padLen + sa.digestLen.toNat)

/-- The transport case: the header at `ip4` moves to the front and announces
    ESP. -/
def transportOutbound (m : Mbuf) (offset ip4 ipHdrLen : Nat) :
    Option (Nat × Mbuf) :=
  match rtePktmbufPrepend m offset with
  | none => none
  | some (newIp, m) =>
      let m := m.write newIp (load m.buf ip4 ipHdrLen)
      if ipV m.buf newIp = 4 then
        let m := m.write (newIp + 9) [ipprotoEsp]
        some (newIp + ipHdrLen, m.write (newIp + 2) (toBe 2 m.dataLen))
      else
        let m := m.write (newIp + 6) [ipprotoEsp]
        some (newIp + ipHdrLen,
          m.write (newIp + 4) (toBe 2 (m.dataLen + 0x10000 - 40)))

/-- The encapsulation switch: the place of the ESP header.  With several mode
    flags set no case applies and the null header is written to: `none`. -/
def espEncap (m : Mbuf) (sa : IpsecSa) (ip4 ipHdrLen : Nat) :
    Option (Nat × Mbuf) :=
  let offset := 8 + sa.ivLen.toNat
  let mode := withoutTransportVersion sa.flags
  if mode = ip4Tunnel then
    match ip4ipOutbound m offset sa.src sa.dst with
    | none => none
    | some (outip, m) => some (outip + 20, m)
  else if mode = ip6Tunnel then
    match ip6ipOutbound m offset sa.src sa.dst with
    | none => none
    | some (outip, m) => some (outip + 40, m)
  else if mode = transport then transportOutbound m offset ip4 ipHdrLen
  else none

/-- The bytes of the IV field: the sequence number, or zeros; `none` for an
    unsupported cipher. -/
def outboundIv (sa : IpsecSa) : Option (List UInt8) :=
  if sa.aeadAlgo = .aesGcm then some (toBe 8 sa.seq.toNat)
  else
    match sa.cipherAlgo with
    | .null | .tripleDesCbc | .aesCbc =>
        some (List.replicate sa.ivLen.toNat 0)
    | .aesCtr => some (toBe 8 sa.seq.toNat)
    | .unset => none

/-- Padding bytes count up from one. -/
def padBytes (n : Nat) : List UInt8 :=
  (List.range n).map (fun i => UInt8.ofNat (i + 1))

/-- Pad length and next header at the end of the padding. -/
def writeTrailerEnd (m : Mbuf) (padding padLen : Nat) (nlp : UInt8) : Mbuf :=
  m.write (padding + padLen - 2) [UInt8.ofNat padLen - 2, nlp]

/-- The whole trailer. -/
def writeTrailer (m : Mbuf) (padding padLen : Nat) (nlp : UInt8) : Mbuf :=
  writeTrailerEnd (m.write padding (padBytes (padLen - 2))) padding padLen nlp

section projections

variable (m : Mbuf) (padding padLen : Nat) (nlp : UInt8)

@[simp] theorem writeTrailer_dataOff :
    (writeTrailer m padding padLen nlp).dataOff = m.dataOff := rfl
@[simp] theorem writeTrailer_dataLen :
    (writeTrailer m padding padLen nlp).dataLen = m.dataLen := rfl
@[simp] theorem writeTrailer_priv :
    (writeTrailer m padding padLen nlp).priv = m.priv := rfl

/-- The trailer goes into the data room, whatever the operation. -/
@[simp] theorem writeTrailer_setSym_buf (f : SymOp → SymOp) :
    (writeTrailer (m.setSym f) padding padLen nlp).buf
      = (writeTrailer m padding padLen nlp).buf := rfl

end projections

/-- The last part of `esp_outbound`: trailer, counter block, AAD and the
    regions of the crypto operation. -/
def outboundCrypto (m : Mbuf) (sa : IpsecSa)
    (esp ipHdrLen padPayloadLen padding padLen : Nat) (nlp : UInt8) :
    Int × Mbuf :=
  let iv := sa.ivLen.toNat
  let digest := sa.digestLen.toNat
  let blk := cntBlk sa.salt (toBe 8 sa.seq.toNat)
  if sa.aeadAlgo = .aesGcm then
    let m := m.setSym fun s =>
      { s with aead := ⟨ipHdrLen + 8 + iv, padPayloadLen⟩ }
    let m := (writeTrailer m padding padLen nlp).writePriv 0 blk
    let m := m.writePriv 16 (load m.buf esp 8)
    (0, m.setSym fun s =>
      { s with aeadDigest := m.dataOff + m.dataLen - digest })
  else
    match (match sa.cipherAlgo with
      | .null | .tripleDesCbc | .aesCbc =>
          some (⟨ipHdrLen + 8, padPayloadLen + iv⟩ : Region)
      | .aesCtr => some ⟨ipHdrLen + 8 + iv, padPayloadLen⟩
      | .unset => none) with
    | none => (einval, m)
    | some region =>
        let m := m.setSym fun s => { s with cipher := region }
        let m := (writeTrailer m padding padLen nlp).writePriv 0 blk
        match sa.authAlgo with
        | .null | .sha1Hmac | .sha256Hmac =>
            (0, m.setSym fun s =>
              { s with
                auth := ⟨ipHdrLen, 8 + iv + padPayloadLen⟩
                authDigest := m.dataOff + m.dataLen - digest })
        | _ => (einval, m)

/-- `esp_outbound` behind the IV: an inline device gets the trailer end only,
    or just the next protocol. -/
def outboundTail (m : Mbuf) (sa : IpsecSa)
    (esp ipHdrLen padPayloadLen padding padLen : Nat) (nlp : UInt8) :
    Int × Mbuf :=
  if sa.primary.type = .inlineCrypto then
    if hwTrailer sa.primary txHwTrailerOffload then
      (0, { m with
        innerEspNextProto := nlp
        packetType := m.packetType ||| ptypeTunnelEsp })
    else (0, writeTrailerEnd m padding padLen nlp)
  else outboundCrypto m sa esp ipHdrLen padPayloadLen padding padLen nlp

/-- The header length `esp_outbound` reckons with after the mode tests. -/
def outerHdrLen (sa : IpsecSa) (hdrLen : Nat) : Nat :=
  if isIp4Tunnel sa.flags then 20
  else if isIp6Tunnel sa.flags then 40
  else hdrLen

/-- `esp_outbound`. -/
def espOutbound (m : Mbuf) (sa : IpsecSa) : Option (Int × Mbuf × IpsecSa) :=
  let ip4 := m.dataOff
  match outboundHdr m sa with
  | none => some (einval, m, sa)
  | some (hdrLen, nlp) =>
      let padPayloadLen := padPayloadLen m.dataLen hdrLen sa.blockSize
      let padLen := padLen m.dataLen hdrLen sa.blockSize
      if !isIp4Tunnel sa.flags && !isIp6Tunnel sa.flags
          && !isTransport sa.flags then
        some (einval, m, sa)
      else
        let ipHdrLen := outerHdrLen sa hdrLen
        if ipMaxPacket < ipHdrLen + 8 + sa.ivLen.toNat + padPayloadLen
            + sa.digestLen.toNat then
          some (einval, m, sa)
        else
          match appendTrailer m sa padLen with
          | none => some (enospc, m, sa)
          | some (padding, m) =>
              match espEncap m sa ip4 ipHdrLen with
              | none => none
              | some (esp, m) =>
                  let sa := { sa with seq := sa.seq + 1 }
                  let m := m.write esp
                    (toBe 4 sa.spi.toNat ++ toBe 4 sa.seq.toNat)
                  match outboundIv sa with
                  | none => some (einval, m, sa)
                  | some iv =>
                      let r := outboundTail (m.write (esp + 8) iv) sa esp
                        ipHdrLen padPayloadLen padding padLen nlp
                      some (r.1, r.2, sa)

/-- `esp_outbound_post`. -/
def espOutboundPost (m : Mbuf) (sa : IpsecSa) : Int × Mbuf :=
  if sa.primary.type = .inlineProtocol ∨ sa.primary.type = .inlineCrypto then
    (0, { m with olFlags := m.olFlags ||| txSecOffload })
  else if m.priv.cop.status ≠ .success then (-1, m)
  else (0, m)

/-! ## Inbound -/

/-- The header length `esp_inbound` works with; `none` for an unknown
    version. -/
def inboundHdrLen (m : Mbuf) : Option Nat :=
  if ipV m.buf m.dataOff = 4 then some (ipHl m.buf m.dataOff * 4)
  else if ipV m.buf m.dataOff = 6 then some 40
  else none

/-- The GCM part of `esp_inbound`; the IV is read from the packet. -/
def inboundAead (m : Mbuf) (sa : IpsecSa) (ipHdrLen payloadLen : Nat) : Mbuf :=
  let iv := m.dataOff + ipHdrLen + 8
  let m := m.setSym fun s =>
    { s with aead := ⟨ipHdrLen + 8 + sa.ivLen.toNat, payloadLen⟩ }
  let m := m.writePriv 0 (cntBlk sa.salt (load m.buf iv 8))
  let m := m.writePriv 16 (load m.buf (iv - 8) 8)
  m.setSym fun s =>
    { s with aeadDigest := m.dataOff + m.dataLen - sa.digestLen.toNat }

/-- What `esp_inbound` leaves as IV outside GCM: the bytes of the packet, or a
    counter block around them; `none` for an unsupported cipher. -/
def inboundIv (m : Mbuf) (sa : IpsecSa) (iv : Nat) : Option (List UInt8) :=
  match sa.cipherAlgo with
  | .null | .tripleDesCbc | .aesCbc => some (load m.buf iv sa.ivLen.toNat)
  | .aesCtr => some (cntBlk sa.salt (load m.buf iv 8))
  | .unset => none

/-- The part of `esp_inbound` outside GCM. -/
def inboundCipher (m : Mbuf) (sa : IpsecSa) (ipHdrLen payloadLen : Nat) :
    Int × Mbuf :=
  let m := m.setSym fun s =>
    { s with cipher := ⟨ipHdrLen + 8 + sa.ivLen.toNat, payloadLen⟩ }
  match inboundIv m sa (m.dataOff + ipHdrLen + 8) with
  | none => (einval, m)
  | some iv =>
      let m := m.writePriv 0 iv
      match sa.authAlgo with
      | .null | .sha1Hmac | .sha256Hmac =>
          (0, m.setSym fun s =>
            { s with
              auth := ⟨ipHdrLen, 8 + sa.ivLen.toNat + payloadLen⟩
              authDigest := m.dataOff + m.dataLen - sa.digestLen.toNat })
      | _ => (einval, m)

/-- `esp_inbound`. -/
def espInbound (m : Mbuf) (sa : IpsecSa) : Int × Mbuf :=
  if sa.primary.type = .inlineCrypto then (0, m)
  else
    match inboundHdrLen m with
    | none => (einval, m)
    | some ipHdrLen =>
        let payloadLen : Int := (m.dataLen : Int) - ipHdrLen - 8
          - sa.ivLen.toNat - sa.digestLen.toNat
        if payloadLen ≤ 0 ∨
            UInt32.ofNat payloadLen.toNat &&& (sa.blockSize.toUInt32 - 1) ≠ 0
            then (einval, m)
        else if sa.aeadAlgo = .aesGcm then
          (0, inboundAead m sa ipHdrLen payloadLen.toNat)
        else inboundCipher m sa ipHdrLen payloadLen.toNat

/-- The status `esp_inbound_post` starts from: an inline device reports in the
    mbuf's flags. -/
def inboundStatus (m : Mbuf) (sa : IpsecSa) : CopStatus :=
  if sa.primary.type = .inlineProtocol ∨ sa.primary.type = .inlineCrypto then
    if m.olFlags &&& rxSecOffload ≠ 0 then
      if m.olFlags &&& rxSecOffloadFailed ≠ 0 then .error else .success
    else .notProcessed
  else m.priv.cop.status

/-- Do the `n` bytes at `a` count up from one? -/
def paddingOk (b : Nat → UInt8) (a n : Nat) : Bool :=
  load b a n == padBytes n

/-- The trailer part of `esp_inbound_post`: where the next header byte is
    (`none`: in the mbuf), and the packet without trailer and digest; an error
    is `-EINVAL`.  A packet without room for the two trailer bytes is a wild
    read: `none`. -/
def stripTrailer (m : Mbuf) (sa : IpsecSa) :
    Option (Except Int (Option Nat × Mbuf)) :=
  if hwTrailer sa.primary rxHwTrailerOffload then some (.ok (none, m))
  else if m.dataLen < sa.digestLen.toNat + 1 then none
  else
    let nexthdr := m.dataOff + m.dataLen - sa.digestLen.toNat - 1
    let padLen := (m.buf (nexthdr - 1)).toNat
    -- the scan reaches into the mbuf's private area in front of the room:
    -- whatever it finds there, the packet is too short for the trim below
    if nexthdr < padLen + 1 then some (.error einval)
    else if !paddingOk m.buf (nexthdr - 1 - padLen) padLen then
      some (.error einval)
    else
      match rtePktmbufTrim m (padLen + 2 + sa.digestLen.toNat) with
      | none => some (.error einval)
      | some m => some (.ok (some nexthdr, m))

/-- The transport case of `esp_inbound_post`. -/
def transportInbound (m : Mbuf) (offset : Nat) (nexthdr : Option Nat) :
    Option Mbuf :=
  let ip := m.dataOff
  let next := fun (b : Nat → UInt8) =>
    match nexthdr with
    | none => m.innerEspNextProto
    | some a => b a
  match rtePktmbufAdj m offset with
  | none => none
  | some (ip4, m) =>
      if ipV m.buf ip = 4 then
        let m := m.write ip4 (load m.buf ip (ipHl m.buf ip * 4))
        let m := m.write (ip4 + 9) [next m.buf]
        some (m.write (ip4 + 2) (toBe 2 m.dataLen))
      else
        let m := m.write ip4 (load m.buf ip 40)
        let m := m.write (ip4 + 6) [next m.buf]
        some (m.write (ip4 + 4) (toBe 2 (m.dataLen + 0x10000 - 40)))

/-- `esp_inbound_post`. -/
def espInboundPost (m : Mbuf) (sa : IpsecSa) : Option (Int × Mbuf) :=
  let m := m.setStatus (inboundStatus m sa)
  if m.priv.cop.status ≠ .success then some (-1, m)
  else
    match stripTrailer m sa with
    | none => none
    | some (.error rc) => some (rc, m)
    | some (.ok (nexthdr, m)) =>
        let offset := 8 + sa.ivLen.toNat
        let r :=
          if isTransport sa.flags then transportInbound m offset nexthdr
          else ipipInbound m offset
        match r with
        | none => none
        | some m => some (0, m)

end Esp
