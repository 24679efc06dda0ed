import IpsecSecgw.Lib.GrowArr
import IpsecSecgw.ParserModel
import IpsecSecgw.RtModel
import IpsecSecgw.SpiSearchProofs

/-! # SP lines

    `sp4.c` and `sp6.c`: the lines that fill the four arrays of rules.  The two
    files differ in the fields of an address and in a text, and are one with
    parameters (`SpFamily`).

    A rule is written field by field into the slot behind those that are counted,
    and stays there when the line is refused. -/

namespace SpParse

open ByteStore Growing SaModel ParserModel Rt

/-! ## Data -/

/-- A field of 32 bits of `struct rte_acl_rule`. -/
structure AclField where
  value : UInt32 := 0
  maskRange : UInt32 := 0
  deriving DecidableEq

/-- `struct acl4_rules` with one field for an address, `struct acl6_rules` with
    four; all zero when fresh. -/
structure SpRule (n : Nat) where
  categoryMask : UInt32 := 0
  /-- the 32 bits of an `int32_t` -/
  priority : UInt32 := 0
  userdata : UInt32 := 0
  proto : UInt8 × UInt8 := (0, 0)
  src : Vector AclField n := Vector.replicate n {}
  dst : Vector AclField n := Vector.replicate n {}
  sport : UInt16 × UInt16 := (0, 0)
  dport : UInt16 × UInt16 := (0, 0)
  deriving DecidableEq

/-- The two arrays of a family. -/
structure SpTables (n : Nat) where
  rulesIn : GrowArr (SpRule n) := {}
  rulesOut : GrowArr (SpRule n) := {}

/-- `INIT_ACL_RULE_NUM`. -/
def initAclRuleNum : UInt32 := 128

/-! ## Families -/

/-- What the two files have of their own. -/
structure SpFamily (n : Nat) where
  parse : String → Option (Vector AclField n)
  expect : String

/-- `sp4.c`. -/
def sp4 (net : InetPton) : SpFamily 1 where
  parse := fun token =>
    (parseIpv4Addr net token).map fun r => #v[⟨rteBswap32 r.1, r.2⟩]
  expect := "ipv4 addr"

/-- Four bytes of an IPv6 address. -/
def ip6Word (a b c d : UInt8) : UInt32 :=
  a.toUInt32 <<< 24 ||| b.toUInt32 <<< 16 ||| c.toUInt32 <<< 8 ||| d.toUInt32

/-- `(depth > 32) ? 32 : depth`. -/
def wordDepth (depth : UInt32) : UInt32 := if depth > 32 then 32 else depth

/-- `(depth > 32) ? (depth - 32) : 0`. -/
def restDepth (depth : UInt32) : UInt32 := if depth > 32 then depth - 32 else 0

/-- The four fields of an IPv6 address. -/
def ip6Fields (ip : Vector UInt8 16) (depth : UInt32) : Vector AclField 4 :=
  let depth1 := restDepth depth
  let depth2 := restDepth depth1
  let depth3 := restDepth depth2
  #v[⟨ip6Word ip[0] ip[1] ip[2] ip[3], wordDepth depth⟩,
    ⟨ip6Word ip[4] ip[5] ip[6] ip[7], wordDepth depth1⟩,
    ⟨ip6Word ip[8] ip[9] ip[10] ip[11], wordDepth depth2⟩,
    ⟨ip6Word ip[12] ip[13] ip[14] ip[15], wordDepth depth3⟩]

/-- `sp6.c`. -/
def sp6 (net : InetPton) : SpFamily 4 where
  parse := fun token => (parseIpv6Addr net token).map fun r => ip6Fields r.1 r.2
  expect := "ipv6 addr"

/-! ## The parser in its loop -/

/-- The variables of `parse_sp4_tokens` besides its place in the tokens. -/
structure SpCore (n : Nat) where
  rule : SpRule n
  espP : Bool := false
  protectP : Bool := false
  bypassP : Bool := false
  discardP : Bool := false
  priP : Bool := false
  srcP : Bool := false
  dstP : Bool := false
  protoP : Bool := false
  sportP : Bool := false
  dportP : Bool := false

/-- With `tokens[ti]`, the tokens behind it, and the status. -/
structure SpScan (n : Nat) extends SpCore n where
  cur : String
  rest : List String
  st : ParseStatus

/-- What an option comes to: the handler goes on, or returns. -/
abbrev SpScanned (n : Nat) := Except (SpScan n) (SpScan n)

variable {n : Nat}

/-- `APP_CHECK`, and the test of the status behind it. -/
def SpScan.check (s : SpScan n) (exp : Bool) (msg : String) : SpScanned n :=
  let s := { s with st := appCheck exp msg s.st }
  if exp then .ok s else .error s

/-- `APP_CHECK_PRESENCE`. -/
def SpScan.presence (s : SpScan n) (val : Bool) : SpScanned n :=
  s.check (!val) ("item \"" ++ s.cur ++ "\" already present")

/-- An action beside another one. -/
def SpScan.conflict (s : SpScan n) (val : Bool) (other : String) : SpScanned n :=
  s.check (!val) ("conflict item between \"" ++ s.cur ++ "\" and \"" ++ other ++ "\"")

/-- `INCREMENT_TOKEN_INDEX`. -/
def SpScan.next (s : SpScan n) : SpScanned n :=
  match s.rest with
  | [] => s.check false "reaching the end of the token array"
  | t :: rest => { s with cur := t, rest := rest }.check true ""

/-- `APP_CHECK_TOKEN_IS_NUM`. -/
def SpScan.isNum (s : SpScan n) : SpScanned n :=
  s.check (isStrNum s.cur) ("input \"" ++ s.cur ++ "\" is not valid number string")

/-- The variables are others. -/
def SpScan.setCore (s : SpScan n) (c : SpCore n) : SpScan n := { s with toSpCore := c }

/-! ## Options -/

/-- `esp`. -/
def spEsp (s : SpScan n) : SpScanned n := do
  let s ← s.presence s.espP
  return s.setCore { s.toSpCore with espP := true }

/-- `protect`. -/
def spProtect (s : SpScan n) : SpScanned n := do
  let s ← s.presence s.protectP
  let s ← s.conflict s.bypassP "bypass"
  let s ← s.conflict s.discardP "discard"
  let s ← s.next
  let s ← s.isNum
  let tv := atoi s.cur
  let s ← s.check (tv ≠ discard ∧ tv ≠ bypass) ("invalid SPI: " ++ s.cur)
  return s.setCore
    { s.toSpCore with rule := { s.rule with userdata := tv }, protectP := true }

/-- `bypass`. -/
def spBypass (s : SpScan n) : SpScanned n := do
  let s ← s.presence s.bypassP
  let s ← s.conflict s.protectP "protect"
  let s ← s.conflict s.discardP "discard"
  return s.setCore
    { s.toSpCore with rule := { s.rule with userdata := bypass }, bypassP := true }

/-- `discard`; beside `bypass` its error names itself. -/
def spDiscard (s : SpScan n) : SpScanned n := do
  let s ← s.presence s.discardP
  let s ← s.conflict s.protectP "protect"
  let s ← s.conflict s.bypassP "discard"
  return s.setCore
    { s.toSpCore with rule := { s.rule with userdata := discard }, discardP := true }

/-- `pri`. -/
def spPri (s : SpScan n) : SpScanned n := do
  let s ← s.presence s.priP
  let s ← s.next
  let s ← s.isNum
  return s.setCore
    { s.toSpCore with rule := { s.rule with priority := atoi s.cur }, priP := true }

/-- An address; what is there has been checked. -/
def SpScan.addr (fam : SpFamily n) (s : SpScan n) :
    Except (SpScan n) (Vector AclField n × SpScan n) := do
  let s ← s.next
  match fam.parse s.cur with
  | none =>
      let s ← s.check false
        ("unrecognized input \"" ++ s.cur ++ "\", expect valid " ++ fam.expect)
      return (Vector.replicate n {}, s)
  | some a =>
      let s ← s.check true ""
      return (a, s)

/-- `src`. -/
def spSrc (fam : SpFamily n) (s : SpScan n) : SpScanned n := do
  let s ← s.presence s.srcP
  let r ← s.addr fam
  return r.2.setCore
    { r.2.toSpCore with rule := { r.2.rule with src := r.1 }, srcP := true }

/-- `dst`. -/
def spDst (fam : SpFamily n) (s : SpScan n) : SpScanned n := do
  let s ← s.presence s.dstP
  let r ← s.addr fam
  return r.2.setCore
    { r.2.toSpCore with rule := { r.2.rule with dst := r.1 }, dstP := true }

/-- A range; what is there has been checked. -/
def SpScan.range (s : SpScan n) (expect : String) :
    Except (SpScan n) ((UInt16 × UInt16) × SpScan n) := do
  let s ← s.next
  match parseRange s.cur with
  | none =>
      let s ← s.check false
        ("unrecognized input \"" ++ s.cur ++ "\", expect \"" ++ expect ++ "\"")
      return ((0, 0), s)
  | some r =>
      let s ← s.check true ""
      return (r, s)

/-- `proto`. -/
def spProto (s : SpScan n) : SpScanned n := do
  let s ← s.presence s.protoP
  let r ← s.range "from:to"
  let s ← r.2.check (r.1.1 ≤ 0xff) "proto low over-limit"
  let s ← s.check (r.1.2 ≤ 0xff) "proto high over-limit"
  return s.setCore
    { s.toSpCore with
      rule := { s.rule with proto := (r.1.1.toUInt8, r.1.2.toUInt8) }
      protoP := true }

/-- `sport`. -/
def spSport (s : SpScan n) : SpScanned n := do
  let s ← s.presence s.sportP
  let r ← s.range "port_from:port_to"
  return r.2.setCore
    { r.2.toSpCore with rule := { r.2.rule with sport := r.1 }, sportP := true }

/-- `dport`. -/
def spDport (s : SpScan n) : SpScanned n := do
  let s ← s.presence s.dportP
  let r ← s.range "port_from:port_to"
  return r.2.setCore
    { r.2.toSpCore with rule := { r.2.rule with dport := r.1 }, dportP := true }

/-- A round of the loop. -/
def spOption (fam : SpFamily n) (s : SpScan n) : SpScanned n :=
  if s.cur = "esp" then spEsp s
  else if s.cur = "protect" then spProtect s
  else if s.cur = "bypass" then spBypass s
  else if s.cur = "discard" then spDiscard s
  else if s.cur = "pri" then spPri s
  else if s.cur = "src" then spSrc fam s
  else if s.cur = "dst" then spDst fam s
  else if s.cur = "proto" then spProto s
  else if s.cur = "sport" then spSport s
  else if s.cur = "dport" then spDport s
  else s.check false ("unrecognized input \"" ++ s.cur ++ "\"")

/-- The loop; a round takes at least one token. -/
def spLoop (fam : SpFamily n) : Nat → SpScan n → SpScanned n
  | 0, s => .ok s
  | fuel + 1, s =>
      match s.rest with
      | [] => .ok s
      | t :: rest => do
          let s ← spOption fam { s with cur := t, rest := rest }
          spLoop fam fuel s

/-! ## Lines -/

/-- The checks behind the loop. -/
def spComplete (s : SpScan n) : SpScanned n := do
  let s ← s.check s.espP "missing argument \"esp\""
  s.check (s.protectP || s.bypassP || s.discardP)
    "missing argument \"protect\", \"bypass\", or \"discard\""

/-- From the slot on: the tokens behind the direction. -/
def spScan (fam : SpFamily n) (slot : SpRule n) (dir : String) (tokens : List String)
    (st : ParseStatus) : SpScanned n := do
  let s ← spLoop fam tokens.length
    ⟨{ rule := { slot with categoryMask := 1 } }, dir, tokens, st⟩
  spComplete s

/-- A line for one of the arrays. -/
def spAdd (fam : SpFamily n) (memory : Bool) (rules : GrowArr (SpRule n)) (dir : String)
    (tokens : List String) (st : ParseStatus) :
    Except ParseFault (GrowArr (SpRule n) × ParseStatus) :=
  let r := rules.extend {} initAclRuleNum memory
  if !r.1 then .ok (r.2, st)
  else
    match r.2.slot with
    | none => .error .overrun
    | some slot =>
        match spScan fam slot dir tokens st with
        | .error s => .ok (r.2.write s.rule, s.st)
        | .ok s => .ok ((r.2.write s.rule).bump, s.st)

/-- `parse_sp4_tokens`, `parse_sp6_tokens` on `tokens[0]` and the others. -/
def parseSpTokens (fam : SpFamily n) (memory : Bool) (t : SpTables n) (tok : String)
    (tokens : List String) (st : ParseStatus) :
    Except ParseFault (SpTables n × ParseStatus) :=
  match tokens with
  | [] => .error .tokens
  | dir :: rest =>
      if dir = "in" then
        (spAdd fam memory t.rulesIn dir rest st).map fun r =>
          ({ t with rulesIn := r.1 }, r.2)
      else if dir = "out" then
        (spAdd fam memory t.rulesOut dir rest st).map fun r =>
          ({ t with rulesOut := r.1 }, r.2)
      else
        .ok (t, appCheck false
          ("unrecognized input \"" ++ tok ++ "\", expect \"in\" or \"out\"\n") st)

/-! ## Search -/

/-- `rte_cpu_to_be_64`, on a little-endian host. -/
def rteCpuToBe64 (x : UInt64) : UInt64 := UInt64.ofNat (ofBe (toLe 8 x.toNat))

/-- `IPV6_FROM_SP`. -/
def ipv6FromSp (low high : AclField) : UInt64 :=
  high.value.toUInt64 <<< 32 ||| low.value.toUInt64

/-- What the two files take out of the fields of an address: what they write to
    `ip_addr`, and the mask. -/
structure FromSp (n : Nat) where
  addr : IpAddr → Vector AclField n → IpAddr
  mask : Vector AclField n → UInt32

/-- `ip.ip4` is written. -/
def writeIp4 (a : IpAddr) (ip : UInt32) : IpAddr :=
  ⟨toLe 4 ip.toNat ++ a.bytes.drop 4, by simp [a.size]⟩

/-- `ip.ip6.ip6[0]` and `ip.ip6.ip6[1]` are written. -/
def writeIp6 (ip0 ip1 : UInt64) : IpAddr :=
  ⟨toLe 8 ip0.toNat ++ toLe 8 ip1.toNat, by simp⟩

/-- `IPV4_SRC_FROM_SP`, `IPV4_DST_FROM_SP` and the macros of the masks;
    `rte_cpu_to_be_32` swaps. -/
def fromSp4 : FromSp 1 where
  addr := fun a f => writeIp4 a (rteBswap32 f[0].value)
  mask := fun f => f[0].maskRange

/-- `IPV6_SRC_FROM_SP`, `IPV6_DST_FROM_SP` and the macros of the masks. -/
def fromSp6 : FromSp 4 where
  addr := fun _ f =>
    writeIp6 (rteCpuToBe64 (ipv6FromSp f[1] f[0])) (rteCpuToBe64 (ipv6FromSp f[3] f[2]))
  mask := fun f => f[0].maskRange + f[1].maskRange + f[2].maskRange + f[3].maskRange

/-- `ip_addr` and `mask`, of the source and of the destination. -/
structure SpAddrs where
  src : IpAddr
  dst : IpAddr
  srcMask : UInt32
  dstMask : UInt32

/-- `sp_cmp`. -/
def spCmp (p q : SpRule n) : Int := SpiSearch.spiDiff p.userdata q.userdata

/-- `sp4_spi_present`, `sp6_spi_present` on the rules of a direction: the index, and
    what is written to `ip_addr` and `mask`. -/
def spSpiPresent (sp : FromSp n) (acr : List (SpRule n)) (spi : UInt32) (out : SpAddrs) :
    Int × SpAddrs :=
  let rc := SpiSearch.arrPresent spCmp { userdata := spi } (fun i => acr.getD i {}) acr.length
  if rc < 0 then (rc, out)
  else
    let rule := acr.getD rc.toNat {}
    (rc, ⟨sp.addr out.src rule.src, sp.addr out.dst rule.dst, sp.mask rule.src,
      sp.mask rule.dst⟩)

end SpParse
