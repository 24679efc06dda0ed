import IpsecSecgw.Lib.ByteStore
import IpsecSecgw.ParserModel
import IpsecSecgw.SaModel

/-! # SA lines

    `sa.c`: the lines that fill `sa_in` and `sa_out`.

    A key string is written byte by byte, without a look at the size of the
    array.  What lies behind `cipher_key` in `struct ipsec_sa` is therefore kept
    as it lies in memory, up to `aad_len`; a store behind that ends the run. -/

namespace SaParse

open ByteStore SaModel ParserModel

/-! ## Data -/

/-- `offsetof` of the key fields, counted from `cipher_key`. -/
def cipherKeyAt : Nat := 0
def cipherKeyLenAt : Nat := 64
def authKeyAt : Nat := 66
def authKeyLenAt : Nat := 130
def aadLenAt : Nat := 132
def keysEnd : Nat := 134

/-- A `uint16_t` in memory. -/
def len16 (keys : Nat → UInt8) (a : Nat) : UInt16 := UInt16.ofNat (ofLe (load keys a 2))

/-- It is written. -/
def setLen16 (keys : Nat → UInt8) (a : Nat) (n : UInt16) : Nat → UInt8 :=
  store keys a (toLe 2 n.toNat)

/-- `struct ipsec_sa` as the parser fills it, all zero when fresh.  The keys,
    their lengths and `aad_len` are in `keys`. -/
structure SaRule extends IpsecSa where
  keys : Nat → UInt8 := fun _ => 0
  esn : UInt64 := 0
  fdirQid : UInt8 := 0
  sport : UInt16 := 0
  dport : UInt16 := 0

/-- `rule->cipher_key_len`. -/
def SaRule.cipherKeyLen (rule : SaRule) : UInt16 := len16 rule.keys cipherKeyLenAt

/-- `rule->auth_key_len`. -/
def SaRule.authKeyLen (rule : SaRule) : UInt16 := len16 rule.keys authKeyLenAt

/-- The SA the program goes on with. -/
def SaRule.stored (rule : SaRule) : IpsecSa :=
  { rule.toIpsecSa with
    cipherKey := load rule.keys cipherKeyAt rule.cipherKeyLen.toNat
    authKey := load rule.keys authKeyAt rule.authKeyLen.toNat
    aadLen := len16 rule.keys aadLenAt }

/-- `struct ipsec_sa_cnt`. -/
structure IpsecSaCnt where
  nbV4 : UInt32 := 0
  nbV6 : UInt32 := 0

/-- `sa_in` and `sa_out` as far as they are in use, their counters,
    `nb_crypto_sessions` and `app_sa_prm.udp_encap`. -/
structure SaTables where
  saIn : List SaRule := []
  saOut : List SaRule := []
  saInCnt : IpsecSaCnt := {}
  saOutCnt : IpsecSaCnt := {}
  nbCryptoSessions : UInt32 := 0
  udpEncap : Bool := false

/-- What the parser asks of its surroundings. -/
structure SaEnv where
  net : InetPton
  /-- `app_sa_prm.enable` -/
  enable : Bool
  /-- `rte_rand`, cut to 32 bits -/
  rand : UInt32
  /-- does `extend_sa_arr` find its memory? -/
  memory : Bool

/-! ## Algorithms -/

/-- The keywords of `cipher_algos`, line by line. -/
def cipherKeywords : List String :=
  ["null", "aes-128-cbc", "aes-192-cbc", "aes-256-cbc", "aes-128-ctr", "aes-192-ctr",
    "aes-256-ctr", "3des-cbc"]

/-- The keywords of `auth_algos`. -/
def authKeywords : List String :=
  ["null", "sha1-hmac", "sha256-hmac", "sha384-hmac", "sha512-hmac", "aes-gmac",
    "aes-xcbc-mac-96"]

/-- The keywords of `aead_algos`. -/
def aeadKeywords : List String :=
  ["aes-128-gcm", "aes-192-gcm", "aes-256-gcm", "aes-128-ccm", "aes-192-ccm",
    "aes-256-ccm", "chacha20-poly1305"]

/-- `find_match_cipher_algo`. -/
def findMatchCipherAlgo (keyword : String) : Option SupportedCipherAlgo :=
  (cipherKeywords.zip cipherAlgos).lookup keyword

/-- `find_match_auth_algo`. -/
def findMatchAuthAlgo (keyword : String) : Option SupportedAuthAlgo :=
  (authKeywords.zip authAlgos).lookup keyword

/-- `find_match_aead_algo`. -/
def findMatchAeadAlgo (keyword : String) : Option SupportedAeadAlgo :=
  (aeadKeywords.zip aeadAlgos).lookup keyword

/-! ## Keys -/

/-- The groups of a key string, between the colons. -/
def keyGroups : List Char → List (List Char)
  | [] => [[]]
  | c :: cs =>
      if c = ':' then [] :: keyGroups cs
      else
        match keyGroups cs with
        | [] => [[c]]
        | g :: gs => (c :: g) :: gs

/-- `isspace`. -/
def isSpace (c : Char) : Bool := c = ' ' || ('\t' ≤ c && c ≤ '\r')

/-- The sign of a number, and the text behind it. -/
def signed (s : List Char) : Bool × List Char :=
  match s.dropWhile isSpace with
  | '-' :: s => (true, s)
  | '+' :: s => (false, s)
  | s => (false, s)

/-- The value of a hexadecimal digit. -/
def hexDigit (c : Char) : Option Nat :=
  if '0' ≤ c && c ≤ '9' then some (c.toNat - 48)
  else if 'a' ≤ c && c ≤ 'f' then some (c.toNat - 87)
  else if 'A' ≤ c && c ≤ 'F' then some (c.toNat - 55)
  else none

/-- The number in front of a text. -/
def hexValue : Nat → List Char → Nat
  | n, [] => n
  | n, c :: s =>
      match hexDigit c with
      | some d => hexValue (16 * n + d) s
      | none => n

/-- `(uint8_t)strtol(sub_str, NULL, 16)` of at most two characters; `0x` with
    nothing behind it is a zero. -/
def strtolByte (s : List Char) : UInt8 :=
  let (neg, s) := signed s
  let n := UInt8.ofNat (hexValue 0 s)
  if neg then 0 - n else n

/-- The loop of `parse_key_string` with `nb_bytes` and the array at `a`. -/
def storeGroups (a : Nat) : List (List Char) → Nat → (Nat → UInt8) →
    Except ParseFault (Nat × (Nat → UInt8))
  | [], nbBytes, keys => .ok (nbBytes, keys)
  | g :: gs, nbBytes, keys =>
      if 2 < g.length then .ok (0, keys)
      else if keysEnd ≤ a + nbBytes then .error .overrun
      else
        storeGroups a gs (nbBytes + 1)
          (Function.update keys (a + nbBytes) (strtolByte g))

/-- `parse_key_string` into the array at `a`. -/
def parseKeyString (a : Nat) (keyStr : String) (keys : Nat → UInt8) :
    Except ParseFault (Nat × (Nat → UInt8)) :=
  storeGroups a (keyGroups keyStr.toList) 0 keys

/-! ## Numbers -/

/-- The number in front of a text. -/
def decDigits : Nat → List Char → Nat
  | n, [] => n
  | n, c :: s => if c.isDigit then decDigits (10 * n + (c.toNat - 48)) s else n

/-- `strtol` with base ten of any text: the value is cut at the bounds of a
    `long`. -/
def strtol10 (str : String) : Int :=
  let (neg, s) := signed str.toList
  let n := decDigits 0 s
  if neg then max (-(n : Int)) (-0x8000000000000000) else min (n : Int) 0x7fffffffffffffff

/-- `atoi` of any text, as the 32 bits it returns. -/
def atoiText (str : String) : UInt32 := UInt32.ofInt (strtol10 str)

/-! ## The parser in its loop -/

/-- The variables of `parse_sa_tokens` besides its place in the tokens. -/
structure SaCore where
  rule : SaRule
  cnt : IpsecSaCnt
  nbCryptoSessions : UInt32
  udpEncap : Bool
  cipherAlgoP : Bool := false
  authAlgoP : Bool := false
  aeadAlgoP : Bool := false
  srcP : Bool := false
  dstP : Bool := false
  modeP : Bool := false
  typeP : Bool := false
  portidP : Bool := false
  fallbackP : Bool := false
  udpEncapP : Bool := false

/-- With `tokens[ti]`, the tokens behind it, and the status. -/
structure SaScan extends SaCore where
  cur : String
  rest : List String
  st : ParseStatus

/-- What an option comes to. -/
abbrev Scanned := Except (Stop SaScan) SaScan

/-- `APP_CHECK`, and the test of the status behind it. -/
def SaScan.check (s : SaScan) (exp : Bool) (msg : String) : Scanned :=
  let s := { s with st := appCheck exp msg s.st }
  if exp then .ok s else .error (.ret s)

/-- `APP_CHECK_PRESENCE`. -/
def SaScan.presence (s : SaScan) (val : Bool) : Scanned :=
  s.check (!val) ("item \"" ++ s.cur ++ "\" already present")

/-- `INCREMENT_TOKEN_INDEX`. -/
def SaScan.next (s : SaScan) : Scanned :=
  match s.rest with
  | [] => s.check false "reaching the end of the token array"
  | t :: rest => { s with cur := t, rest := rest }.check true ""

/-- The text of the most frequent error. -/
def SaScan.unrecognized (s : SaScan) : String := "unrecognized input \"" ++ s.cur ++ "\""

/-- The variables are others. -/
def SaScan.setCore (s : SaScan) (c : SaCore) : SaScan := { s with toSaCore := c }

/-! ## Options -/

/-- The values of `mode`. -/
def modeOf (tok : String) : Option SaMode :=
  if tok = "ipv4-tunnel" then some .ip4Tunnel
  else if tok = "ipv6-tunnel" then some .ip6Tunnel
  else if tok = "transport" then some .transport
  else none

/-- The counters of `sa_cnt` for a mode. -/
def IpsecSaCnt.count (cnt : IpsecSaCnt) : SaMode → IpsecSaCnt
  | .ip4Tunnel => { cnt with nbV4 := cnt.nbV4 + 1 }
  | .ip6Tunnel => { cnt with nbV6 := cnt.nbV6 + 1 }
  | .transport => ⟨cnt.nbV4 + 1, cnt.nbV6 + 1⟩

/-- The mode of the rule is set. -/
def SaCore.setMode (c : SaCore) (md : SaMode) : SaCore :=
  { c with
    rule := { c.rule with flags := c.rule.flags ||| md.flags }
    cnt := c.cnt.count md
    modeP := true }

/-- `mode`. -/
def saMode (s : SaScan) : Scanned := do
  let s ← s.presence s.modeP
  let s ← s.next
  match modeOf s.cur with
  | some md => return s.setCore (s.setMode md)
  | none => s.check false s.unrecognized

/-- `SA_TELEMETRY_ENABLE`. -/
def saTelemetryEnable : UInt16 := 32

/-- `telemetry`. -/
def SaCore.setTelemetry (c : SaCore) : SaCore :=
  { c with rule := { c.rule with flags := c.rule.flags ||| saTelemetryEnable } }

/-- A keyword and a key string, written to `a` and compared with the length at
    `lenAt`; what comes back is the number of bytes. -/
def SaScan.key (s : SaScan) (keyword : String) (a lenAt : Nat) :
    Except (Stop SaScan) (UInt32 × SaScan) := do
  let s ← s.next
  let s ← s.check (s.cur = keyword)
    (s.unrecognized ++ ", expect \"" ++ keyword ++ "\"")
  let s ← s.next
  match parseKeyString a s.cur s.rule.keys with
  | .error f => .error (.fault f)
  | .ok (n, keys) =>
      let s := s.setCore { s.toSaCore with rule := { s.rule with keys := keys } }
      let s ← s.check (UInt32.ofNat n = (len16 keys lenAt).toUInt32) s.unrecognized
      return (UInt32.ofNat n, s)

/-- The last four bytes of the key at `a` become the salt. -/
def SaRule.takeSalt (rule : SaRule) (a lenAt : Nat) (keyLen : UInt32) :
    Except ParseFault SaRule :=
  let keyLen := keyLen - 4
  let keys := setLen16 rule.keys lenAt keyLen.toUInt16
  if keysEnd < a + keyLen.toNat + 4 then .error .overrun
  else
    .ok { rule with
      keys := keys
      salt := UInt32.ofNat (ofLe (load keys (a + keyLen.toNat) 4)) }

/-- The salt of the rule is taken. -/
def SaScan.takeSalt (s : SaScan) (a lenAt : Nat) (keyLen : UInt32) : Scanned :=
  match s.rule.takeSalt a lenAt keyLen with
  | .error f => .error (.fault f)
  | .ok rule => .ok (s.setCore { s.toSaCore with rule := rule })

/-- A line of `cipher_algos` enters the rule. -/
def SaRule.setCipher (rule : SaRule) (algo : SupportedCipherAlgo) : SaRule :=
  { rule with
    cipherAlgo := algo.algo
    blockSize := algo.blockSize
    ivLen := algo.ivLen
    keys := setLen16 rule.keys cipherKeyLenAt algo.keyLen }

/-- The lines behind the cipher key. -/
def cipherSalt (env : SaEnv) (algo : SupportedCipherAlgo) (keyLen : UInt32)
    (s : SaScan) : Scanned :=
  if algo.algo = .aesCbc ∨ algo.algo = .tripleDesCbc then
    .ok (s.setCore { s.toSaCore with rule := { s.rule with salt := env.rand } })
  else if algo.algo = .aesCtr then s.takeSalt cipherKeyAt cipherKeyLenAt keyLen
  else .ok s

/-- `cipher_algo`. -/
def saCipher (env : SaEnv) (s : SaScan) : Scanned := do
  let s ← s.presence s.cipherAlgoP
  let s ← s.next
  match findMatchCipherAlgo s.cur with
  | none => s.check false s.unrecognized
  | some algo =>
      let s ← s.check true ""
      let s := s.setCore { s.toSaCore with rule := s.rule.setCipher algo }
      if algo.algo = .null then return s.setCore { s.toSaCore with cipherAlgoP := true }
      else
        let (keyLen, s) ← s.key "cipher_key" cipherKeyAt cipherKeyLenAt
        let s ← cipherSalt env algo keyLen s
        return s.setCore { s.toSaCore with cipherAlgoP := true }

/-- A line of `auth_algos` enters the rule. -/
def SaRule.setAuth (rule : SaRule) (algo : SupportedAuthAlgo) : SaRule :=
  { rule with
    authAlgo := algo.algo
    digestLen := algo.digestLen
    keys := setLen16 rule.keys authKeyLenAt algo.keyLen }

/-- The lines behind the authentication key. -/
def authSalt (algo : SupportedAuthAlgo) (keyLen : UInt32) (s : SaScan) : Scanned :=
  if algo.algo = .aesGmac then do
    let s := s.setCore { s.toSaCore with rule := { s.rule with ivLen := algo.ivLen } }
    s.takeSalt authKeyAt authKeyLenAt keyLen
  else .ok s

/-- `auth_algo`; of the lines of the table only that of `null` has
    `key_not_req`. -/
def saAuth (s : SaScan) : Scanned := do
  let s ← s.presence s.authAlgoP
  let s ← s.next
  match findMatchAuthAlgo s.cur with
  | none => s.check false s.unrecognized
  | some algo =>
      let s ← s.check true ""
      let s := s.setCore { s.toSaCore with rule := s.rule.setAuth algo }
      if algo.algo = .null then return s.setCore { s.toSaCore with authAlgoP := true }
      else
        let (keyLen, s) ← s.key "auth_key" authKeyAt authKeyLenAt
        let s ← authSalt algo keyLen s
        return s.setCore { s.toSaCore with authAlgoP := true }

/-- A line of `aead_algos` enters the rule. -/
def SaRule.setAead (rule : SaRule) (algo : SupportedAeadAlgo) : SaRule :=
  { rule with
    aeadAlgo := algo.algo
    digestLen := algo.digestLen
    blockSize := algo.blockSize
    ivLen := algo.ivLen
    keys := setLen16 (setLen16 rule.keys cipherKeyLenAt algo.keyLen) aadLenAt algo.aadLen }

/-- `aead_algo`. -/
def saAead (s : SaScan) : Scanned := do
  let s ← s.presence s.aeadAlgoP
  let s ← s.next
  match findMatchAeadAlgo s.cur with
  | none => s.check false s.unrecognized
  | some algo =>
      let s ← s.check true ""
      let s := s.setCore { s.toSaCore with rule := s.rule.setAead algo }
      let (keyLen, s) ← s.key "aead_key" cipherKeyAt cipherKeyLenAt
      let s ← s.takeSalt cipherKeyAt cipherKeyLenAt keyLen
      return s.setCore { s.toSaCore with aeadAlgoP := true }

/-- `a.ip.ip4 = rte_bswap32(ip.s_addr)`. -/
def setIp4 (a : IpAddr) (ip : UInt32) : IpAddr :=
  ⟨(toLe 4 ip.toNat).reverse ++ a.bytes.drop 4, by simp [a.size]⟩

/-- `memcpy(a.ip.ip6.ip6_b, ip.s6_addr, 16)`. -/
def ofIp6 (ip : Vector UInt8 16) : IpAddr := ⟨ip.toList, ip.length_toList⟩

/-- The address of `src` and `dst`; a line that has not named its mode yet
    leaves it as it is. -/
def saAddr (env : SaEnv) (a : IpAddr) (s : SaScan) :
    Except (Stop SaScan) (IpAddr × SaScan) :=
  if isIp4Tunnel s.rule.flags then
    match parseIpv4Addr env.net s.cur with
    | none => do
        let s ← s.check false (s.unrecognized ++ ", expect valid ipv4 addr")
        return (a, s)
    | some (ip, _) => do
        let s ← s.check true ""
        return (setIp4 a ip, s)
  else if isIp6Tunnel s.rule.flags then
    match parseIpv6Addr env.net s.cur with
    | none => do
        let s ← s.check false (s.unrecognized ++ ", expect valid ipv6 addr")
        return (a, s)
    | some (ip, _) => do
        let s ← s.check true ""
        return (ofIp6 ip, s)
  else if isTransport s.rule.flags then do
    let s ← s.check false s.unrecognized
    return (a, s)
  else .ok (a, s)

/-- `src`. -/
def saSrc (env : SaEnv) (s : SaScan) : Scanned := do
  let s ← s.presence s.srcP
  let s ← s.next
  let (a, s) ← saAddr env s.rule.src s
  return s.setCore { s.toSaCore with rule := { s.rule with src := a }, srcP := true }

/-- `dst`. -/
def saDst (env : SaEnv) (s : SaScan) : Scanned := do
  let s ← s.presence s.dstP
  let s ← s.next
  let (a, s) ← saAddr env s.rule.dst s
  return s.setCore { s.toSaCore with rule := { s.rule with dst := a }, dstP := true }

/-- The values of `type`. -/
def typeOf (tok : String) : Option ActionType :=
  if tok = "inline-crypto-offload" then some .inlineCrypto
  else if tok = "inline-protocol-offload" then some .inlineProtocol
  else if tok = "lookaside-protocol-offload" then some .lookasideProtocol
  else if tok = "no-offload" then some .none
  else if tok = "cpu-crypto" then some .cpuCrypto
  else none

/-- `ips->type = type`. -/
def SaRule.setType (rule : SaRule) (type : ActionType) : SaRule :=
  { rule with primary := { rule.primary with type := type } }

/-- `type`. -/
def saType (s : SaScan) : Scanned := do
  let s ← s.presence s.typeP
  let s ← s.next
  match typeOf s.cur with
  | some type =>
      return s.setCore { s.toSaCore with rule := s.rule.setType type, typeP := true }
  | none => s.check false ("Invalid input \"" ++ s.cur ++ "\"")

/-- The port of `port_id` and `flow-direction`: the first one is taken, any
    other has to be the same. -/
def SaScan.portid (s : SaScan) : Scanned :=
  if s.rule.portid = 0xffff then
    .ok (s.setCore
      { s.toSaCore with rule := { s.rule with portid := (atoiText s.cur).toUInt16 } })
  else if s.rule.portid.toUInt32 ≠ atoiText s.cur then
    s.check false ("portid " ++ s.cur ++ " not matching with already assigned portid "
      ++ toString s.rule.portid)
  else .ok s

/-- `port_id`. -/
def saPortId (s : SaScan) : Scanned := do
  let s ← s.presence s.portidP
  let s ← s.next
  let s ← s.portid
  return s.setCore { s.toSaCore with portidP := true }

/-- `mss`. -/
def saMss (s : SaScan) : Scanned := do
  let s ← s.next
  return s.setCore
    { s.toSaCore with rule := { s.rule with mss := (atoiText s.cur).toUInt16 } }

/-- `esn`. -/
def saEsn (s : SaScan) : Scanned := do
  let s ← s.next
  return s.setCore
    { s.toSaCore with rule := { s.rule with esn := UInt64.ofInt (strtol10 s.cur) } }

/-- The values of `fallback`. -/
def fallbackOf (tok : String) : Option ActionType :=
  if tok = "lookaside-none" then some .none
  else if tok = "cpu-crypto" then some .cpuCrypto
  else none

/-- A fallback session is asked for. -/
def SaCore.setFallback (c : SaCore) (type : ActionType) : SaCore :=
  { c with
    rule :=
      { c.rule with
        fallback := { c.rule.fallback with type := type }
        fallbackSessions := 1 }
    nbCryptoSessions := c.nbCryptoSessions + 1
    fallbackP := true }

/-- `fallback`. -/
def saFallback (env : SaEnv) (s : SaScan) : Scanned := do
  let s ← s.check env.enable "Fallback session not allowed for legacy mode."
  let s ← s.check (s.rule.primary.type = .inlineCrypto)
    "Fallback session allowed if primary session is of type inline-crypto-offload only."
  let s ← s.check (s.rule.direction = .ingress)
    "Fallback session not allowed for egress rule"
  let s ← s.presence s.fallbackP
  let s ← s.next
  match fallbackOf s.cur with
  | some type => return s.setCore (s.setFallback type)
  | none => s.check false ("unrecognized fallback type " ++ s.cur ++ ".")

/-- `enum rte_security_session_action_type` as a number. -/
def typeCode : ActionType → Nat
  | .none => 0
  | .inlineCrypto => 1
  | .inlineProtocol => 2
  | .lookasideProtocol => 3
  | .cpuCrypto => 4

/-- `flow-direction`; `check_flow_params` only prints. -/
def saFlowDirection (s : SaScan) : Scanned :=
  if s.rule.primary.type = .none ∨ s.rule.primary.type = .cpuCrypto then do
    let s := s.setCore { s.toSaCore with rule := { s.rule with fdirFlag := 1 } }
    let s ← s.next
    let s ← s.portid
    let s ← s.next
    return s.setCore
      { s.toSaCore with rule := { s.rule with fdirQid := (atoiText s.cur).toUInt8 } }
  else
    s.check false ("flow director not supported for security session type "
      ++ toString (typeCode s.rule.primary.type))

/-- `udp-encap`. -/
def saUdpEncap (s : SaScan) : Scanned :=
  if s.rule.primary.type = .lookasideProtocol ∨ s.rule.primary.type = .inlineProtocol then do
    let s ← s.presence s.udpEncapP
    return s.setCore
      { s.toSaCore with
        rule := { s.rule with udpEncap := 1 }
        udpEncap := true
        udpEncapP := true }
  else if s.rule.primary.type = .inlineCrypto then
    .ok (s.setCore
      { s.toSaCore with rule := { s.rule with udpEncap := 1, sport := 0, dport := 4500 } })
  else
    s.check false ("UDP encapsulation not supported for security session type "
      ++ toString (typeCode s.rule.primary.type))

/-- A round of the loop. -/
def saOption (env : SaEnv) (s : SaScan) : Scanned :=
  if s.cur = "mode" then saMode s
  else if s.cur = "telemetry" then .ok (s.setCore s.setTelemetry)
  else if s.cur = "cipher_algo" then saCipher env s
  else if s.cur = "auth_algo" then saAuth s
  else if s.cur = "aead_algo" then saAead s
  else if s.cur = "src" then saSrc env s
  else if s.cur = "dst" then saDst env s
  else if s.cur = "type" then saType s
  else if s.cur = "port_id" then saPortId s
  else if s.cur = "mss" then saMss s
  else if s.cur = "esn" then saEsn s
  else if s.cur = "fallback" then saFallback env s
  else if s.cur = "flow-direction" then saFlowDirection s
  else if s.cur = "udp-encap" then saUdpEncap s
  else s.check false s.unrecognized

/-- The loop; a round takes at least one token. -/
def saLoop (env : SaEnv) : Nat → SaScan → Scanned
  | 0, s => .ok s
  | fuel + 1, s =>
      match s.rest with
      | [] => .ok s
      | t :: rest => do
          let s ← saOption env { s with cur := t, rest := rest }
          saLoop env fuel s

/-! ## Lines -/

/-- The checks of the algorithms behind the loop. -/
def saAlgos (s : SaScan) : Scanned :=
  if s.aeadAlgoP then do
    let s ← s.check (!s.cipherAlgoP) "AEAD used, no need for cipher options"
    s.check (!s.authAlgoP) "AEAD used, no need for auth options"
  else do
    let s ← s.check s.cipherAlgoP "missing cipher or AEAD options"
    s.check s.authAlgoP "missing auth or AEAD options"

/-- The checks behind the loop. -/
def saComplete (s : SaScan) : Scanned := do
  let s ← saAlgos s
  s.check s.modeP "missing mode option"

/-- The session type falls back where `type` or `port_id` is missing. -/
def SaCore.settle (c : SaCore) : SaRule :=
  if !c.typeP || (!c.portidP && c.rule.primary.type ≠ .cpuCrypto) then
    c.rule.setType .none
  else c.rule

/-- `parse_sa_tokens` up to the rule, on the tokens behind the first.  An SPI of
    zero ends it without a word. -/
def saScan (env : SaEnv) (direction : Direction) (tokens : List String)
    (cnt : IpsecSaCnt) (nbCryptoSessions : UInt32) (udpEncap : Bool) (st : ParseStatus) :
    Scanned :=
  match tokens with
  | [] => .error (.fault .tokens)
  | spi :: rest => do
      let fresh : SaRule := { direction := direction }
      let s : SaScan := ⟨{ rule := fresh, cnt, nbCryptoSessions, udpEncap }, spi, rest, st⟩
      let s ← s.check (isStrNum spi) ("input \"" ++ spi ++ "\" is not valid number string")
      if atoiText spi = discard then .error (.ret s)
      else
        let rule := { s.rule with spi := atoiText spi, portid := 0xffff }
        let s ← saLoop env rest.length (s.setCore { s.toSaCore with rule := rule })
        let s ← saComplete s
        return s.setCore
          { s.toSaCore with rule := s.settle, nbCryptoSessions := s.nbCryptoSessions + 1 }

/-- What a line that ended early leaves. -/
def SaTables.keep (t : SaTables) (inbound : Bool) (c : SaCore) : SaTables :=
  let t := { t with nbCryptoSessions := c.nbCryptoSessions, udpEncap := c.udpEncap }
  if inbound then { t with saInCnt := c.cnt } else { t with saOutCnt := c.cnt }

/-- The rule count is incremented. -/
def SaTables.push (t : SaTables) (inbound : Bool) (rule : SaRule) : SaTables :=
  if inbound then { t with saIn := t.saIn ++ [rule] }
  else { t with saOut := t.saOut ++ [rule] }

/-- `parse_sa_tokens`, on `tokens[0]` and the others. -/
def parseSaTokens (env : SaEnv) (t : SaTables) (tok : String) (tokens : List String)
    (st : ParseStatus) : Except ParseFault (SaTables × ParseStatus) :=
  if !env.memory then .ok (t, st)
  else
    let inbound : Bool := tok = "in"
    let direction := if inbound then Direction.ingress else .egress
    let cnt := if inbound then t.saInCnt else t.saOutCnt
    match saScan env direction tokens cnt t.nbCryptoSessions t.udpEncap st with
    | .ok s => .ok ((t.keep inbound s.toSaCore).push inbound s.rule, s.st)
    | .error (.ret s) => .ok (t.keep inbound s.toSaCore, s.st)
    | .error (.fault f) => .error f

end SaParse
