import IpsecSecgw.Lib.ByteStore
import IpsecSecgw.ParserModel

/-! # Flow rules

    `flow.c`: the lines that fill `flow_rule_tbl`.  An address and its mask are
    kept as they lie in memory: for IPv4 the 32-bit numbers the code computes
    with on a little-endian host, for IPv6 the bytes.

    The shift of a 32-bit number by 32, which C leaves open, is asked from
    outside. -/

namespace FlowRule

open ByteStore ParserModel

/-! ## Data -/

/-- `hdr.src_addr` or `hdr.dst_addr`. -/
inductive Side
  | src
  | dst
  deriving DecidableEq, Repr

/-- The keyword of an address. -/
def Side.keyword : Side → String
  | .src => "src"
  | .dst => "dst"

/-- An address in the specification of a rule and in its mask. -/
structure FlowAddr (α : Type) where
  spec : α
  mask : α

/-- `struct flow_rule_entry`, all zero when fresh. -/
structure FlowRuleEntry where
  isIpv4 : Bool := false
  ipv4 : Side → FlowAddr UInt32 := fun _ => ⟨0, 0⟩
  ipv6 : Side → FlowAddr (Vector UInt8 16) :=
    fun _ => ⟨Vector.replicate 16 0, Vector.replicate 16 0⟩
  port : UInt16 := 0
  queue : UInt16 := 0

/-- `rule->ipv4`: an address and its mask are written. -/
def FlowRuleEntry.setIpv4 (rule : FlowRuleEntry) (side : Side) (a : FlowAddr UInt32) :
    FlowRuleEntry :=
  { rule with ipv4 := fun x => if x = side then a else rule.ipv4 x }

/-- `rule->ipv6`. -/
def FlowRuleEntry.setIpv6 (rule : FlowRuleEntry) (side : Side)
    (a : FlowAddr (Vector UInt8 16)) : FlowRuleEntry :=
  { rule with ipv6 := fun x => if x = side then a else rule.ipv6 x }

/-- `FLOW_RULES_MAX`. -/
def flowRulesMax : Nat := 128

/-- What the parser asks of its surroundings: `inet_pton`, and what a 32-bit
    number shifted by 32 gives. -/
structure FlowEnv where
  net : InetPton
  wide : UInt32 → UInt32

/-! ## Addresses -/

/-- `x << n` on 32 bits. -/
def FlowEnv.shl (env : FlowEnv) (x n : UInt32) : UInt32 :=
  if n < 32 then x <<< n else env.wide x

/-- `ipv4_addr_cpy`. -/
def ipv4AddrCpy (env : FlowEnv) (token : String) (st : ParseStatus) :
    Except (Stop ParseStatus) (FlowAddr UInt32 × ParseStatus) :=
  match parseIpv4Addr env.net token with
  | none =>
      .error (.ret (appCheck false
        ("unrecognized input \"" ++ token ++ "\", expect valid ipv4 addr") st))
  | some (ip, depth) =>
      let st := appCheck true "" st
      if 32 < depth then .error (.ret st)
      else
        let mask := 0xffffffff
        .ok (⟨ip, if depth < 32 then env.shl mask (32 - depth) else mask⟩, st)

/-- `mask[i / 8] &= ~(1 << (7 - i % 8))`. -/
def clearBit (mask : Vector UInt8 16) (i : Nat) :
    Except (Stop ParseStatus) (Vector UInt8 16) :=
  if h : i / 8 < 16 then
    .ok (mask.set (i / 8) (mask.get ⟨i / 8, h⟩ &&& ~~~(UInt8.ofNat (2 ^ (7 - i % 8)))) h)
  else .error (.fault .overrun)

/-- `ipv6_addr_cpy`. -/
def ipv6AddrCpy (env : FlowEnv) (token : String) (st : ParseStatus) :
    Except (Stop ParseStatus) (FlowAddr (Vector UInt8 16) × ParseStatus) :=
  match parseIpv6Addr env.net token with
  | none =>
      .error (.ret (appCheck false
        ("unrecognized input \"" ++ token ++ "\", expect valid ipv6 address") st))
  | some (ip, depth) => do
      let st := appCheck true "" st
      let rounds := (List.range depth.toNat).takeWhile fun i => i % 8 ≤ 16
      let mask ← rounds.foldlM clearBit (Vector.replicate 16 0xff)
      return (⟨ip, mask⟩, st)

/-! ## Lines -/

/-- `parse_flow_tokens` in its loop: `tokens[ti]`, the tokens behind it, the
    entry it fills and the status. -/
structure FlowScan where
  cur : String
  rest : List String
  rule : FlowRuleEntry
  st : ParseStatus

/-- `INCREMENT_TOKEN_INDEX`, and the test of the status behind it. -/
def FlowScan.next (s : FlowScan) : Except (Stop ParseStatus) FlowScan :=
  match s.rest with
  | [] => .error (.ret (appCheck false "reaching the end of the token array" s.st))
  | t :: rest => .ok { s with cur := t, rest := rest, st := appCheck true "" s.st }

/-- `APP_CHECK_TOKEN_IS_NUM`, and the test behind it. -/
def FlowScan.isNum (s : FlowScan) : Except (Stop ParseStatus) FlowScan :=
  if isStrNum s.cur then .ok { s with st := appCheck true "" s.st }
  else
    .error (.ret (appCheck false
      ("input \"" ++ s.cur ++ "\" is not valid number string") s.st))

/-- `src` and `dst`. -/
def flowAddr (env : FlowEnv) (side : Side) (s : FlowScan) :
    Except (Stop ParseStatus) FlowScan :=
  if s.cur = side.keyword then do
    let s ← s.next
    if s.rule.isIpv4 then do
      let (a, st) ← ipv4AddrCpy env s.cur s.st
      return { s with rule := s.rule.setIpv4 side a, st := st }
    else do
      let (a, st) ← ipv6AddrCpy env s.cur s.st
      return { s with rule := s.rule.setIpv6 side a, st := st }
  else .ok s

/-- `port`. -/
def flowPort (s : FlowScan) : Except (Stop ParseStatus) FlowScan :=
  if s.cur = "port" then do
    let s ← s.next
    let s ← s.isNum
    return { s with rule := { s.rule with port := (atoi s.cur).toUInt16 } }
  else .ok s

/-- `queue`. -/
def flowQueue (s : FlowScan) : Except (Stop ParseStatus) FlowScan :=
  if s.cur = "queue" then do
    let s ← s.next
    let s ← s.isNum
    return { s with rule := { s.rule with queue := (atoi s.cur).toUInt16 } }
  else .ok s

/-- A round of the loop: the four comparisons one after the other, each with the
    token the one before it has left. -/
def flowRound (env : FlowEnv) (s : FlowScan) : Except (Stop ParseStatus) FlowScan := do
  let s ← flowAddr env .src s
  let s ← flowAddr env .dst s
  let s ← flowPort s
  flowQueue s

/-- The loop; a round takes at least one token. -/
def flowLoop (env : FlowEnv) : Nat → FlowScan → Except (Stop ParseStatus) FlowScan
  | 0, s => .ok s
  | fuel + 1, s =>
      match s.rest with
      | [] => .ok s
      | t :: rest => do
          let s ← flowRound env { s with cur := t, rest := rest }
          flowLoop env fuel s

/-- `is_ipv4` for the first token. -/
def family (tok : String) : Option Bool :=
  if tok = "ipv4" then some true else if tok = "ipv6" then some false else none

/-- `parse_flow_tokens` on `tokens[0]` and the others. -/
def parseFlowTokens (env : FlowEnv) (tbl : List FlowRuleEntry) (tok : String)
    (tokens : List String) (st : ParseStatus) :
    Except ParseFault (List FlowRuleEntry × ParseStatus) :=
  if flowRulesMax ≤ tbl.length then .ok (tbl, st)
  else
    match family tok with
    | none => .ok (tbl, appCheck false ("unrecognized input \"" ++ tok ++ "\"") st)
    | some isIpv4 =>
        match flowLoop env tokens.length ⟨tok, tokens, { isIpv4 := isIpv4 }, st⟩ with
        | .ok s => .ok (tbl ++ [s.rule], s.st)
        | .error (.ret st) => .ok (tbl, st)
        | .error (.fault f) => .error f

end FlowRule
