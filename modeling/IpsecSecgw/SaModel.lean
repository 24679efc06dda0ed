import Mathlib.Algebra.Group.Int.Defs
import Mathlib.Algebra.Group.Nat.Defs
import Mathlib.Data.List.Basic

/-! # Security associations and policy rules

    The data every stage of the gateway shares: `struct ipsec_sa` with the
    fields the modelled code reads, the SP rules with their `userdata` word,
    and the tables a configuration file fills.

    Numbers keep the width of the C types.  Addresses are kept as the raw bytes
    in memory, so that network and host order stay apart; the host is
    little-endian. -/

namespace SaModel

/-! ## Enumerations -/

/-- `enum rte_security_session_action_type`. -/
inductive ActionType
  | none
  | inlineCrypto
  | inlineProtocol
  | lookasideProtocol
  | cpuCrypto
  deriving DecidableEq, Repr

/-- `enum rte_crypto_cipher_algorithm`; `unset` is the zero of a fresh SA. -/
inductive CipherAlgo
  | unset
  | null
  | tripleDesCbc
  | aesCbc
  | aesCtr
  deriving DecidableEq, Repr

/-- `enum rte_crypto_auth_algorithm`. -/
inductive AuthAlgo
  | unset
  | null
  | sha1Hmac
  | sha256Hmac
  | sha384Hmac
  | sha512Hmac
  | aesGmac
  | aesXcbcMac
  deriving DecidableEq, Repr

/-- `enum rte_crypto_aead_algorithm`. -/
inductive AeadAlgo
  | unset
  | aesGcm
  | aesCcm
  | chacha20Poly1305
  deriving DecidableEq, Repr

/-- `enum rte_security_ipsec_sa_direction`. -/
inductive Direction
  | egress
  | ingress
  deriving DecidableEq, Repr

/-! ## Addresses -/

/-- `struct ip_addr`: sixteen bytes, of which an IPv4 address takes the first
    four. -/
structure IpAddr where
  bytes : List UInt8
  size : bytes.length = 16
  deriving DecidableEq

/-- The zeroed address of a fresh SA. -/
def IpAddr.zero : IpAddr := ⟨List.replicate 16 0, rfl⟩

instance : Inhabited IpAddr := ⟨IpAddr.zero⟩

/-- The bytes of `ip.ip4`. -/
def IpAddr.ip4 (a : IpAddr) : List UInt8 := a.bytes.take 4

/-- `a.ip.ip4 = rte_cpu_to_be_32(a.ip.ip4)`: the first four bytes change
    places. -/
def IpAddr.swapIp4 (a : IpAddr) : IpAddr :=
  ⟨(a.bytes.take 4).reverse ++ a.bytes.drop 4, by
    have := a.size
    simp
    omega⟩

@[simp] theorem IpAddr.length_ip4 (a : IpAddr) : a.ip4.length = 4 := by
  have := a.size
  simp [IpAddr.ip4]
  omega

/-! ## SA flags -/

def ip4Tunnel : UInt16 := 1
def ip6Tunnel : UInt16 := 2
def transport : UInt16 := 4
def ip4Transport : UInt16 := 8
def ip6Transport : UInt16 := 16

/-- `WITHOUT_TRANSPORT_VERSION`. -/
def withoutTransportVersion (flags : UInt16) : UInt16 :=
  flags &&& (ip4Tunnel ||| ip6Tunnel ||| transport)

/-- `IS_TRANSPORT`. -/
def isTransport (flags : UInt16) : Bool := flags &&& transport != 0

/-- `IS_TUNNEL`. -/
def isTunnel (flags : UInt16) : Bool :=
  flags &&& (ip4Tunnel ||| ip6Tunnel) != 0

/-- `IS_IP4_TUNNEL`. -/
def isIp4Tunnel (flags : UInt16) : Bool := flags &&& ip4Tunnel != 0

/-- `IS_IP6_TUNNEL`. -/
def isIp6Tunnel (flags : UInt16) : Bool := flags &&& ip6Tunnel != 0

/-- The mode of an SA: exactly one of the three mode flags is set, the
    transport version flags are free. -/
inductive SaMode
  | ip4Tunnel
  | ip6Tunnel
  | transport
  deriving DecidableEq, Repr

/-- The flag word `WITHOUT_TRANSPORT_VERSION` leaves for a mode. -/
def SaMode.flags : SaMode → UInt16
  | .ip4Tunnel => SaModel.ip4Tunnel
  | .ip6Tunnel => SaModel.ip6Tunnel
  | .transport => SaModel.transport

/-! ## Sessions and SAs -/

/-- Handle of a session object of a crypto or security device. -/
abbrev SesId := Nat

/-- `struct rte_ipsec_session`: the union of the crypto and the security
    session starts with the session pointer in both. -/
structure RteIpsecSession where
  type : ActionType := .none
  ses : Option SesId := none
  olFlags : UInt32 := 0
  deriving DecidableEq

/-- `struct ipsec_sa`, all zero when fresh. -/
structure IpsecSa where
  primary : RteIpsecSession := {}
  fallback : RteIpsecSession := {}
  spi : UInt32 := 0
  cdevIdQp : UInt32 := 0
  seq : UInt64 := 0
  salt : UInt32 := 0
  fallbackSessions : UInt32 := 0
  cipherAlgo : CipherAlgo := .unset
  authAlgo : AuthAlgo := .unset
  aeadAlgo : AeadAlgo := .unset
  digestLen : UInt16 := 0
  ivLen : UInt16 := 0
  blockSize : UInt16 := 0
  flags : UInt16 := 0
  src : IpAddr := IpAddr.zero
  dst : IpAddr := IpAddr.zero
  cipherKey : List UInt8 := []
  authKey : List UInt8 := []
  aadLen : UInt16 := 0
  direction : Direction := .egress
  portid : UInt16 := 0
  mss : UInt16 := 0
  fdirFlag : UInt8 := 0
  udpEncap : UInt8 := 0
  deriving DecidableEq

instance : Inhabited IpsecSa := ⟨{}⟩

/-- The SA is in mode `md`. -/
def IpsecSa.HasMode (sa : IpsecSa) (md : SaMode) : Prop :=
  withoutTransportVersion sa.flags = md.flags

instance (sa : IpsecSa) (md : SaMode) : Decidable (sa.HasMode md) :=
  inferInstanceAs (Decidable (_ = _))

/-- Masking keeps the single mode bits readable. -/
theorem and_withoutTransportVersion (flags m : UInt16)
    (hm : m &&& (ip4Tunnel ||| ip6Tunnel ||| transport) = m) :
    withoutTransportVersion flags &&& m = flags &&& m := by
  rw [withoutTransportVersion, UInt16.and_assoc, UInt16.and_comm _ m, hm]

/-- The tunnel and transport tests of an SA are decided by its mode. -/
theorem IpsecSa.HasMode.tests {sa : IpsecSa} {md : SaMode}
    (h : sa.HasMode md) :
    isTransport sa.flags = decide (md = .transport)
      ∧ isIp4Tunnel sa.flags = decide (md = .ip4Tunnel)
      ∧ isIp6Tunnel sa.flags = decide (md = .ip6Tunnel) := by
  have h1 := and_withoutTransportVersion sa.flags transport rfl
  have h2 := and_withoutTransportVersion sa.flags ip4Tunnel rfl
  have h3 := and_withoutTransportVersion sa.flags ip6Tunnel rfl
  rw [show withoutTransportVersion sa.flags = md.flags from h] at h1 h2 h3
  rw [isTransport, isIp4Tunnel, isIp6Tunnel, ← h1, ← h2, ← h3]
  cases md <;> decide

/-! ## Algorithm tables -/

/-- A line of `cipher_algos`. -/
structure SupportedCipherAlgo where
  algo : CipherAlgo
  ivLen : UInt16
  blockSize : UInt16
  keyLen : UInt16

/-- A line of `auth_algos`. -/
structure SupportedAuthAlgo where
  algo : AuthAlgo
  ivLen : UInt16 := 0
  digestLen : UInt16
  keyLen : UInt16

/-- A line of `aead_algos`. -/
structure SupportedAeadAlgo where
  algo : AeadAlgo
  ivLen : UInt16
  blockSize : UInt16
  digestLen : UInt16
  keyLen : UInt16
  aadLen : UInt16

/-- `cipher_algos`. -/
def cipherAlgos : List SupportedCipherAlgo :=
  [⟨.null, 0, 4, 0⟩, ⟨.aesCbc, 16, 16, 16⟩, ⟨.aesCbc, 16, 16, 24⟩,
    ⟨.aesCbc, 16, 16, 32⟩, ⟨.aesCtr, 8, 4, 20⟩, ⟨.aesCtr, 16, 16, 28⟩,
    ⟨.aesCtr, 16, 16, 36⟩, ⟨.tripleDesCbc, 8, 8, 24⟩]

/-- `auth_algos`. -/
def authAlgos : List SupportedAuthAlgo :=
  [⟨.null, 0, 0, 0⟩, ⟨.sha1Hmac, 0, 12, 20⟩, ⟨.sha256Hmac, 0, 16, 32⟩,
    ⟨.sha384Hmac, 0, 24, 48⟩, ⟨.sha512Hmac, 0, 32, 64⟩,
    ⟨.aesGmac, 8, 16, 20⟩, ⟨.aesXcbcMac, 0, 12, 16⟩]

/-- `aead_algos`. -/
def aeadAlgos : List SupportedAeadAlgo :=
  [⟨.aesGcm, 8, 4, 16, 20, 8⟩, ⟨.aesGcm, 8, 4, 16, 28, 8⟩,
    ⟨.aesGcm, 8, 4, 16, 36, 8⟩, ⟨.aesCcm, 8, 4, 16, 20, 8⟩,
    ⟨.aesCcm, 8, 4, 16, 28, 8⟩, ⟨.aesCcm, 8, 4, 16, 36, 8⟩,
    ⟨.chacha20Poly1305, 12, 64, 16, 36, 8⟩]

/-- The SA carries the lengths of the AEAD algorithm it names. -/
def IpsecSa.AeadFromTable (sa : IpsecSa) : Prop :=
  ∃ e ∈ aeadAlgos, sa.aeadAlgo = e.algo ∧ sa.ivLen = e.ivLen
    ∧ sa.blockSize = e.blockSize ∧ sa.digestLen = e.digestLen

/-- The SA carries the lengths of the cipher and the authentication algorithm
    it names; GMAC brings its own IV length. -/
def IpsecSa.CipherFromTable (sa : IpsecSa) : Prop :=
  sa.aeadAlgo = .unset
    ∧ (∃ c ∈ cipherAlgos, sa.cipherAlgo = c.algo ∧ sa.blockSize = c.blockSize
        ∧ (sa.ivLen = c.ivLen ∨ sa.authAlgo = .aesGmac ∧ sa.ivLen = 8))
    ∧ ∃ a ∈ authAlgos, sa.authAlgo = a.algo ∧ sa.digestLen = a.digestLen

/-- The lengths of the SA are those of the algorithm tables. -/
def IpsecSa.FromTables (sa : IpsecSa) : Prop :=
  sa.AeadFromTable ∨ sa.CipherFromTable

/-- The tables know four block sizes, and short IVs and digests. -/
theorem IpsecSa.FromTables.sizes {sa : IpsecSa} (h : sa.FromTables) :
    (sa.blockSize = 4 ∨ sa.blockSize = 8 ∨ sa.blockSize = 16
        ∨ sa.blockSize = 64)
      ∧ sa.ivLen.toNat ≤ 16 ∧ sa.digestLen.toNat ≤ 32 := by
  rcases h with ⟨e, he, -, hiv, hbs, hd⟩ | ⟨-, ⟨c, hc, -, hbs, hiv⟩, a, ha, -, hd⟩
  · have hall : ∀ e ∈ aeadAlgos, (e.blockSize = 4 ∨ e.blockSize = 8
        ∨ e.blockSize = 16 ∨ e.blockSize = 64)
        ∧ e.ivLen.toNat ≤ 16 ∧ e.digestLen.toNat ≤ 32 := by decide
    rw [hiv, hbs, hd]
    exact hall e he
  · have hcipher : ∀ c ∈ cipherAlgos, (c.blockSize = 4 ∨ c.blockSize = 8
        ∨ c.blockSize = 16 ∨ c.blockSize = 64) ∧ c.ivLen.toNat ≤ 16 := by
      decide
    have hauth : ∀ a ∈ authAlgos, a.digestLen.toNat ≤ 32 := by decide
    rw [hbs, hd]
    refine ⟨(hcipher c hc).1, ?_, hauth a ha⟩
    rcases hiv with hiv | ⟨-, hiv⟩
    · rw [hiv]
      exact (hcipher c hc).2
    · rw [hiv]
      decide

/-- The IV field of a counter mode has room for the eight bytes of the counter. -/
theorem IpsecSa.FromTables.counter_ivLen {sa : IpsecSa} (ht : sa.FromTables)
    (hread : sa.aeadAlgo = .aesGcm ∨ sa.cipherAlgo = .aesCtr) :
    8 ≤ sa.ivLen.toNat := by
  have haead : ∀ e ∈ aeadAlgos, 8 ≤ e.ivLen.toNat := by decide
  have hctr : ∀ c ∈ cipherAlgos, c.algo = .aesCtr → 8 ≤ c.ivLen.toNat := by decide
  rcases ht with ⟨e, he, -, hiv, -, -⟩ | ⟨hu, ⟨c, hc, hca, -, hiv⟩, -⟩
  · rw [hiv]
    exact haead e he
  · have hctr' : sa.cipherAlgo = .aesCtr := by
      rcases hread with h | h
      · rw [hu] at h
        cases h
      · exact h
    rcases hiv with hiv | ⟨-, hiv⟩
    · rw [hiv]
      exact hctr c hc (hca.symm.trans hctr')
    · rw [hiv]
      decide

/-! ## Special SPIs -/

/-- `INVALID_SPI`, also the DISCARD action of a rule. -/
def discard : UInt32 := 0

/-- The BYPASS action of a rule. -/
def bypass : UInt32 := 0xffffffff

/-! ## SP rules and configured tables -/

/-- The fields of `acl4_rules` and `acl6_rules` the initialisation reads: the
    `userdata` word (an SPI or an action) and the two address fields with
    their masks. -/
structure AclRules where
  userdata : UInt32 := 0
  src : IpAddr := IpAddr.zero
  dst : IpAddr := IpAddr.zero
  srcMask : UInt32 := 0
  dstMask : UInt32 := 0
  deriving DecidableEq

instance : Inhabited AclRules := ⟨{}⟩

/-- The global tables a configuration file fills: `sa_in`, `sa_out` and the
    four rule arrays. -/
structure Tables where
  saIn : List IpsecSa := []
  saOut : List IpsecSa := []
  acl4RulesIn : List AclRules := []
  acl4RulesOut : List AclRules := []
  acl6RulesIn : List AclRules := []
  acl6RulesOut : List AclRules := []

/-- `-ENOENT`. -/
def enoent : Int := -2

/-- `-EEXIST`. -/
def eexist : Int := -17

/-- `-EINVAL`. -/
def einval : Int := -22

/-- `-ENOSPC`. -/
def enospc : Int := -28

end SaModel
