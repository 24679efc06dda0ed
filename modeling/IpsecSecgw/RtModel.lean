import Mathlib.Data.List.MinMax
import IpsecSecgw.Lib.ByteStore
import IpsecSecgw.Lib.NetPrefix
import IpsecSecgw.ParserModel
import IpsecSecgw.WorkerModel

/-! # Routes

    `rt.c`: the lines that fill `rt_ip4` and `rt_ip6`, and `rt_init`, which puts
    them into the tables of `librte_lpm`.  The two families differ in the address
    parser and in a text, and are one with parameters (`RtFamily`).

    An entry behind the count of an array is kept by nobody: a line that ends with
    an error ends the program. -/

namespace Rt

open ByteStore ParserModel NetPrefix WorkerModel

/-! ## Data -/

/-- `struct ip4_route`, `struct ip6_route`. -/
structure Route (α : Type) where
  ip : α
  depth : UInt8 := 0
  ifOut : UInt8 := 0

/-- `rt_ip4` and `rt_ip6`, as far as they are counted. -/
structure RtTables where
  rtIp4 : List (Route UInt32) := []
  rtIp6 : List (Route (List UInt8)) := []

/-- `RT_IPV4_MAX_RULES`, `RT_IPV6_MAX_RULES`. -/
def rtMaxRules : Nat := 1024

/-! ## Lines -/

/-- `rte_bswap32`. -/
def rteBswap32 (x : UInt32) : UInt32 := UInt32.ofNat (ofBe (toLe 4 x.toNat))

/-- What the two families have of their own: a fresh address, the parser of an
    address with its depth, and what is expected. -/
structure RtFamily (α : Type) where
  zero : α
  parse : String → Option (α × UInt32)
  expect : String

/-- `ipv4`. -/
def rtIpv4 (net : InetPton) : RtFamily UInt32 where
  zero := 0
  parse := fun token => (parseIpv4Addr net token).map fun r => (rteBswap32 r.1, r.2)
  expect := "ipv4 addr"

/-- `ipv6`. -/
def rtIpv6 (net : InetPton) : RtFamily (List UInt8) where
  zero := List.replicate 16 0
  parse := fun token => (parseIpv6Addr net token).map fun r => (r.1.toList, r.2)
  expect := "ipv6 address"

/-- `parse_rt_tokens` in its loop: `tokens[ti]`, the tokens behind it, the entry
    and the status. -/
structure RtScan (α : Type) where
  cur : String
  rest : List String
  route : Route α
  st : ParseStatus

variable {α : Type}

/-- `INCREMENT_TOKEN_INDEX`, and the test of the status behind it. -/
def RtScan.next (s : RtScan α) : Except ParseStatus (RtScan α) :=
  match s.rest with
  | [] => .error (appCheck false "reaching the end of the token array" s.st)
  | t :: rest => .ok { s with cur := t, rest := rest, st := appCheck true "" s.st }

/-- `dst`. -/
def rtDst (fam : RtFamily α) (s : RtScan α) : Except ParseStatus (RtScan α) :=
  if s.cur = "dst" then do
    let s ← s.next
    match fam.parse s.cur with
    | none =>
        .error (appCheck false ("unrecognized input \"" ++ s.cur ++ "\", expect valid "
          ++ fam.expect) s.st)
    | some (ip, depth) =>
        return { s with
          route := { s.route with ip := ip, depth := depth.toUInt8 }
          st := appCheck true "" s.st }
  else .ok s

/-- `port`. -/
def rtPort (s : RtScan α) : Except ParseStatus (RtScan α) :=
  if s.cur = "port" then do
    let s ← s.next
    if isStrNum s.cur then
      return { s with
        route := { s.route with ifOut := (atoi s.cur).toUInt8 }
        st := appCheck true "" s.st }
    else .error (appCheck false ("input \"" ++ s.cur ++ "\" is not valid number string") s.st)
  else .ok s

/-- The loop; a round takes at least one token.  The second comparison is with the
    token the first one has left, and other tokens are passed over. -/
def rtLoop (fam : RtFamily α) : Nat → RtScan α → Except ParseStatus (RtScan α)
  | 0, s => .ok s
  | fuel + 1, s =>
      match s.rest with
      | [] => .ok s
      | t :: rest => do
          let s ← rtDst fam { s with cur := t, rest := rest }
          let s ← rtPort s
          rtLoop fam fuel s

/-- One family: the array behind the line. -/
def rtAdd (fam : RtFamily α) (routes : List (Route α)) (tok : String)
    (tokens : List String) (st : ParseStatus) : List (Route α) × ParseStatus :=
  if routes.length ≤ rtMaxRules - 1 then
    match rtLoop fam tokens.length
        ⟨tok, tokens, { ip := fam.zero }, appCheck true "" st⟩ with
    | .ok s => (routes ++ [s.route], s.st)
    | .error st => (routes, st)
  else (routes, appCheck false "too many rt rules, abort insertion\n" st)

/-- `parse_rt_tokens` on `tokens[0]` and the others. -/
def parseRtTokens (net : InetPton) (t : RtTables) (tok : String) (tokens : List String)
    (st : ParseStatus) : RtTables × ParseStatus :=
  if tok = "ipv4" then
    let r := rtAdd (rtIpv4 net) t.rtIp4 tok tokens st
    ({ t with rtIp4 := r.1 }, r.2)
  else if tok = "ipv6" then
    let r := rtAdd (rtIpv6 net) t.rtIp6 tok tokens st
    ({ t with rtIp6 := r.1 }, r.2)
  else (t, appCheck false ("unrecognized input \"" ++ tok ++ "\"") st)

/-- A line of tokens, the first one apart. -/
abbrev Line := String × List String

/-- A `rt` line in `parse_cfg_file`; `none` where the program ends. -/
def rtLine (net : InetPton) (s : RtTables × ParseStatus) (line : Line) :
    Option (RtTables × ParseStatus) :=
  let r := parseRtTokens net s.1 line.1 line.2 s.2
  if r.2.status < 0 then none else some r

/-- The `rt` lines of a configuration file. -/
def rtLines (net : InetPton) (lines : List Line) : Option (RtTables × ParseStatus) :=
  lines.foldlM (rtLine net) ({}, {})

/-! ## Tables -/

/-- The address agrees with that of the route as far as its depth says. -/
def Route.covers (bytes : α → List UInt8) (a : α) (r : Route α) : Bool :=
  (List.range r.depth.toNat).all fun i => netBit (bytes r.ip) i == netBit (bytes a) i

/-- The longest prefix among entries of an array; of equal ones the last. -/
def longestPrefix {β : Type} (route : β → Route α) (bytes : α → List UInt8) (a : α)
    (entries : List β) : Option β :=
  (entries.filter fun e => (route e).covers bytes a).reverse.argmax
    fun e => (route e).depth.toNat

/-- A table of `librte_lpm`: routes are added one by one, one of the same prefix
    in the place of the one before; what is looked up is the longest prefix. -/
structure RteLpm (α : Type) (bytes : α → List UInt8) where
  Table : Type
  create : Table
  /-- `none` for a negative result -/
  add : Table → α → UInt8 → UInt32 → Option Table
  lookup : Table → α → Option UInt32
  lookup_adds : ∀ (routes : List (Route α)) (t : Table),
    routes.foldlM (fun t r => add t r.ip r.depth r.ifOut.toUInt32) create = some t →
      ∀ a, lookup t a = (longestPrefix id bytes a routes).map fun r => r.ifOut.toUInt32

/-- A family in `rt_init`; `none` where the program ends. -/
def rtInit {bytes : α → List UInt8} (lpm : RteLpm α bytes) (routes : List (Route α)) :
    Option lpm.Table :=
  routes.foldlM (fun t r => lpm.add t r.ip r.depth r.ifOut.toUInt32) lpm.create

/-- The bytes of an IPv4 address in network order. -/
def ip4Bytes (ip : UInt32) : List UInt8 := toBe 4 ip.toNat

end Rt
