import IpsecSecgw.Lib.ByteStore
import IpsecSecgw.SaModel

/-! # Packet buffers

    `struct rte_mbuf` for a single-segment packet: the data room as a flat
    memory, the window `[dataOff, dataOff + dataLen)` that is the packet, the
    offload fields, and the private area `struct ipsec_mbuf_metadata` the
    gateway keeps behind every mbuf.  The window lies inside the room by
    construction, so the four window operations need no further argument.

    A pointer into the data room is its offset from the room's start; it stays
    valid when the window moves, as it does in C. -/

namespace MbufModel

open ByteStore SaModel

/-! ## Crypto operations -/

/-- `enum rte_crypto_op_status`. -/
inductive CopStatus
  | success
  | notProcessed
  | authFailed
  | invalidSession
  | invalidArgs
  | error
  deriving DecidableEq, Repr

/-- A region of a packet, relative to the start of its window. -/
structure Region where
  offset : Nat := 0
  length : Nat := 0
  deriving DecidableEq, Repr

/-- `struct rte_crypto_sym_op`.  Digest positions are offsets into the data
    room; bus addresses are left out. -/
structure SymOp where
  aead : Region := {}
  aeadDigest : Nat := 0
  cipher : Region := {}
  auth : Region := {}
  authDigest : Nat := 0
  deriving DecidableEq, Repr

/-- `struct rte_crypto_op` with the symmetric operation behind it. -/
structure CryptoOp where
  status : CopStatus := .notProcessed
  ses : Option SesId := none
  sym : SymOp := {}

/-- A pointer to an SA: its place in the memory of SAs. -/
abbrev SaPtr := Nat

/-- `struct ipsec_mbuf_metadata`: the counter block and IV occupy `buf` from
    0, the AAD from 16. -/
structure Metadata where
  sa : Option SaPtr := none
  cop : CryptoOp := {}
  buf : Nat → UInt8 := fun _ => 0

/-! ## The mbuf -/

/-- `struct rte_mbuf`; `addr` tells mbufs apart. -/
structure Mbuf where
  addr : Nat
  buf : Nat → UInt8
  bufLen : Nat
  dataOff : Nat
  dataLen : Nat
  window : dataOff + dataLen ≤ bufLen
  bufLen_le : bufLen ≤ 65535
  packetType : UInt32 := 0
  olFlags : UInt64 := 0
  l2Len : Nat := 0
  l3Len : Nat := 0
  port : UInt16 := 0
  innerEspNextProto : UInt8 := 0
  dynSa : Option SaPtr := none
  priv : Metadata := {}

theorem mid_window (n : Fin 129) : 128 + n.val ≤ 256 := by
  have := n.isLt
  omega

theorem mid_bufLen : 256 ≤ 65535 := by omega

instance neZeroHalfRoom : @NeZero Nat Zero.ofOfNat0 129 :=
  ⟨Nat.succ_ne_zero 128⟩

/-- A packet of `n` bytes in the middle of a room of 256. -/
def Mbuf.mid (buf : Nat → UInt8) (n : Fin 129) : Mbuf where
  addr := 0
  buf := buf
  bufLen := 256
  dataOff := 128
  dataLen := n.val
  window := mid_window n
  bufLen_le := mid_bufLen

/-- The packet: the bytes of the window. -/
def Mbuf.bytes (m : Mbuf) : List UInt8 := load m.buf m.dataOff m.dataLen

@[simp] theorem Mbuf.length_bytes (m : Mbuf) : m.bytes.length = m.dataLen :=
  length_load _ _ _

/-- A length argument of the window functions is a 16-bit number. -/
def len16 (len : Nat) : Nat := len % 0x10000

/-- `rte_pktmbuf_append`: the place of the new bytes, or null without room. -/
def rtePktmbufAppend (m : Mbuf) (len : Nat) : Option (Nat × Mbuf) :=
  if h : len16 len ≤ m.bufLen - m.dataOff - m.dataLen then
    some (m.dataOff + m.dataLen,
      { m with
        dataLen := m.dataLen + len16 len
        window := by
          have := m.window
          omega })
  else none

/-- `rte_pktmbuf_prepend`: the new start, or null without headroom. -/
def rtePktmbufPrepend (m : Mbuf) (len : Nat) : Option (Nat × Mbuf) :=
  if h : len16 len ≤ m.dataOff then
    some (m.dataOff - len16 len,
      { m with
        dataOff := m.dataOff - len16 len
        dataLen := m.dataLen + len16 len
        window := by
          have := m.window
          omega })
  else none

/-- `rte_pktmbuf_adj`: the new start, or null when the packet is shorter. -/
def rtePktmbufAdj (m : Mbuf) (len : Nat) : Option (Nat × Mbuf) :=
  if h : len16 len ≤ m.dataLen then
    some (m.dataOff + len16 len,
      { m with
        dataOff := m.dataOff + len16 len
        dataLen := m.dataLen - len16 len
        window := by
          have := m.window
          omega })
  else none

/-- `rte_pktmbuf_trim`: `none` is the return value -1. -/
def rtePktmbufTrim (m : Mbuf) (len : Nat) : Option Mbuf :=
  if h : len16 len ≤ m.dataLen then
    some { m with
      dataLen := m.dataLen - len16 len
      window := by
        have := m.window
        omega }
  else none

theorem len16_eq {len : Nat} (h : len < 0x10000) : len16 len = len :=
  Nat.mod_eq_of_lt h

theorem rtePktmbufAppend_some {m m' : Mbuf} {len a : Nat}
    (hlen : len < 0x10000) (h : rtePktmbufAppend m len = some (a, m')) :
    a = m.dataOff + m.dataLen ∧ ∃ w, m' =
      { m with dataLen := m.dataLen + len, window := w } := by
  simp only [rtePktmbufAppend, len16_eq hlen] at h
  split at h
  · have hp := Prod.mk.inj (Option.some.inj h)
    exact ⟨hp.1.symm, _, hp.2.symm⟩
  · exact nomatch h

theorem rtePktmbufPrepend_some {m m' : Mbuf} {len a : Nat}
    (hlen : len < 0x10000) (h : rtePktmbufPrepend m len = some (a, m')) :
    len ≤ m.dataOff ∧ a = m.dataOff - len ∧ ∃ w, m' =
      { m with
        dataOff := m.dataOff - len
        dataLen := m.dataLen + len
        window := w } := by
  simp only [rtePktmbufPrepend, len16_eq hlen] at h
  split at h
  · next hle =>
      have hp := Prod.mk.inj (Option.some.inj h)
      exact ⟨hle, hp.1.symm, _, hp.2.symm⟩
  · exact nomatch h

/-- `rte_pktmbuf_adj` on a packet long enough. -/
theorem rtePktmbufAdj_eq {m : Mbuf} {len : Nat} (hlen : len < 0x10000)
    (hle : len ≤ m.dataLen) :
    ∃ w, rtePktmbufAdj m len = some (m.dataOff + len,
      { m with
        dataOff := m.dataOff + len
        dataLen := m.dataLen - len
        window := w }) := by
  simp only [rtePktmbufAdj, len16_eq hlen]
  rw [dif_pos hle]
  exact ⟨by have := m.window; omega, rfl⟩

/-- `rte_pktmbuf_adj` on a packet too short. -/
theorem rtePktmbufAdj_none {m : Mbuf} {len : Nat} (hlen : len < 0x10000)
    (hgt : ¬ len ≤ m.dataLen) : rtePktmbufAdj m len = none := by
  have hshort : ¬ len16 len ≤ m.dataLen := by
    rw [len16_eq hlen]
    exact hgt
  rw [rtePktmbufAdj, dif_neg hshort]

/-- `rte_pktmbuf_trim` on a packet long enough. -/
theorem rtePktmbufTrim_eq {m : Mbuf} {len : Nat} (hlen : len < 0x10000)
    (hle : len ≤ m.dataLen) :
    ∃ w, rtePktmbufTrim m len = some
      { m with dataLen := m.dataLen - len, window := w } := by
  simp only [rtePktmbufTrim, len16_eq hlen]
  rw [dif_pos hle]
  exact ⟨by have := m.window; omega, rfl⟩

/-- `memcpy` to a place in the data room. -/
def Mbuf.write (m : Mbuf) (a : Nat) (l : List UInt8) : Mbuf :=
  { m with buf := store m.buf a l }

@[simp] theorem Mbuf.write_buf (m : Mbuf) (a : Nat) (l : List UInt8) :
    (m.write a l).buf = store m.buf a l := rfl

@[simp] theorem Mbuf.write_dataOff (m : Mbuf) (a : Nat) (l : List UInt8) :
    (m.write a l).dataOff = m.dataOff := rfl

@[simp] theorem Mbuf.write_dataLen (m : Mbuf) (a : Nat) (l : List UInt8) :
    (m.write a l).dataLen = m.dataLen := rfl

@[simp] theorem Mbuf.write_priv (m : Mbuf) (a : Nat) (l : List UInt8) :
    (m.write a l).priv = m.priv := rfl

/-- `memcpy` to a place in the private buffer. -/
def Mbuf.writePriv (m : Mbuf) (a : Nat) (l : List UInt8) : Mbuf :=
  { m with priv := { m.priv with buf := store m.priv.buf a l } }

/-- Replace the symmetric operation. -/
def Mbuf.setSym (m : Mbuf) (f : SymOp → SymOp) : Mbuf :=
  { m with
    priv := { m.priv with cop := { m.priv.cop with sym := f m.priv.cop.sym } } }

/-- Set the status of the crypto operation. -/
def Mbuf.setStatus (m : Mbuf) (st : CopStatus) : Mbuf :=
  { m with priv := { m.priv with cop := { m.priv.cop with status := st } } }

/-- Setting the status an operation has changes nothing. -/
theorem Mbuf.setStatus_self {m : Mbuf} {st : CopStatus}
    (h : m.priv.cop.status = st) : m.setStatus st = m := by
  rw [← h, Mbuf.setStatus]

section projections

variable (m : Mbuf) (a : Nat) (l : List UInt8) (f : SymOp → SymOp)

@[simp] theorem Mbuf.writePriv_buf : (m.writePriv a l).buf = m.buf := rfl
@[simp] theorem Mbuf.writePriv_dataOff :
    (m.writePriv a l).dataOff = m.dataOff := rfl
@[simp] theorem Mbuf.writePriv_dataLen :
    (m.writePriv a l).dataLen = m.dataLen := rfl
@[simp] theorem Mbuf.writePriv_priv_buf :
    (m.writePriv a l).priv.buf = store m.priv.buf a l := rfl
@[simp] theorem Mbuf.writePriv_sym :
    (m.writePriv a l).priv.cop.sym = m.priv.cop.sym := rfl
@[simp] theorem Mbuf.setSym_buf : (m.setSym f).buf = m.buf := rfl
@[simp] theorem Mbuf.setSym_dataOff :
    (m.setSym f).dataOff = m.dataOff := rfl
@[simp] theorem Mbuf.setSym_dataLen :
    (m.setSym f).dataLen = m.dataLen := rfl
@[simp] theorem Mbuf.setSym_priv_buf :
    (m.setSym f).priv.buf = m.priv.buf := rfl
@[simp] theorem Mbuf.setSym_sym :
    (m.setSym f).priv.cop.sym = f m.priv.cop.sym := rfl

end projections

/-! ## Packet type and offload constants -/

def ptypeL3Ipv4 : UInt32 := 0x10
def ptypeL3Ipv6 : UInt32 := 0x40
def ptypeL4Tcp : UInt32 := 0x100
def ptypeL4Udp : UInt32 := 0x200
def ptypeL4Mask : UInt32 := 0xf00
def ptypeTunnelEsp : UInt32 := 0x9000
def ptypeTunnelMask : UInt32 := 0xf000

/-- `RTE_MBUF_F_RX_SEC_OFFLOAD`. -/
def rxSecOffload : UInt64 := 0x40000

/-- `RTE_MBUF_F_RX_SEC_OFFLOAD_FAILED`. -/
def rxSecOffloadFailed : UInt64 := 0x80000

/-- `RTE_MBUF_F_TX_SEC_OFFLOAD`. -/
def txSecOffload : UInt64 := 0x80000000000

/-! ## Protocol constants -/

def ipprotoIpip : UInt8 := 4
def ipprotoTcp : UInt8 := 6
def ipprotoUdp : UInt8 := 17
def ipprotoIpv6 : UInt8 := 41
def ipprotoEsp : UInt8 := 50

/-- `IPDEFTTL`. -/
def ipDefTtl : UInt8 := 64

/-- `IP_MAXPACKET`. -/
def ipMaxPacket : Nat := 65535

/-- The version nibble `ip_v` of the header at `a`. -/
def ipV (b : Nat → UInt8) (a : Nat) : Nat := (b a).toNat / 16

/-- The length nibble `ip_hl` of the header at `a`. -/
def ipHl (b : Nat → UInt8) (a : Nat) : Nat := (b a).toNat % 16

end MbufModel
