import IpsecSecgw.FlowRuleModel
import IpsecSecgw.RtModel
import IpsecSecgw.SaParseModel
import IpsecSecgw.SpParseModel

/-! # Items of the configuration

    The functions of `parser.c` that `cmdline_parse` calls for a line, by its first
    keyword: the rest of the line is cut into tokens, and these are handed to the
    parser of the keyword; `neigh` has two fields of its own.  All of them share one
    status. -/

namespace CfgItem

open ParserModel SaParse SpParse Rt FlowRule

/-! ## Tokens -/

/-- `PARSE_DELIMITER`. -/
def parseDelimiter : List Char := [' ', '\x0c', '\n', '\r', '\t', '\x0b']

/-- What `strtok_r` gives, one after the other. -/
def strtok (string : List Char) : List (List Char) :=
  (string.splitOnP (parseDelimiter.contains ·)).filter (· ≠ [])

/-- `RTE_DIM(tokens)`. -/
def maxTokens : Nat := 32

/-- `parse_tokenize_string`: is it zero, and the tokens; where there are too many,
    `n_tokens` stays at the size of the array. -/
def parseTokenizeString (string : String) : Bool × List String :=
  let tokens := (strtok string.toList).map String.ofList
  (tokens.length ≤ maxTokens, tokens.take maxTokens)

/-! ## Ethernet addresses -/

/-- The digits of `strtoul` with base sixteen, behind the sign, and the text behind
    them. -/
def hexDigits (s : List Char) : Nat × List Char :=
  let s :=
    match s with
    | '0' :: x :: d :: rest =>
        if (x = 'x' ∨ x = 'X') ∧ (hexDigit d).isSome then d :: rest else s
    | _ => s
  let isHex : Char → Bool := fun c => (hexDigit c).isSome
  (hexValue 0 (s.takeWhile isHex), s.dropWhile isHex)

/-- `strtoul(s, &end, 16)`: nothing where it is out of range, and `end`. -/
def strtoul16 (s : List Char) : Option UInt64 × List Char :=
  let (neg, digits) := signed s
  if (digits.head?.bind hexDigit).isNone then (some 0, s)
  else
    let (n, behind) := hexDigits digits
    if 2 ^ 64 ≤ n then (none, behind)
    else (some (if neg then 0 - UInt64.ofNat n else UInt64.ofNat n), behind)

/-- `parse_uint8x16`, with the text behind the stop character; `none` is the end of
    the string. -/
def parseUint8x16 (s : List Char) (ls : Option Char) : Option (UInt8 × List Char) :=
  match strtoul16 s with
  | (none, _) => none
  | (some t, behind) =>
      if behind.head? = ls ∧ t ≤ 0xff then some (t.toUInt8, behind.tail) else none

/-- `stop_sym`. -/
def stopSym : List (Option Char) := [some ':', some ':', some ':', some ':', some ':', none]

/-- The loop of `parse_mac`: is it zero, and the bytes that are written. -/
def macBytes : List (Option Char) → List Char → Bool × List UInt8
  | [], _ => (true, [])
  | ls :: stops, s =>
      match parseUint8x16 s ls with
      | none => (false, [])
      | some (v, s) =>
          let r := macBytes stops s
          (r.1, v :: r.2)

/-- `parse_mac`. -/
def parseMac (str : String) : Bool × List UInt8 := macBytes stopSym str.toList

/-! ## Items -/

/-- What the items fill, and the status. -/
structure CfgTables where
  sa : SaTables := {}
  sp4 : SpTables 1 := {}
  sp6 : SpTables 4 := {}
  rt : RtTables := {}
  flow : List FlowRuleEntry := []
  /-- `ethaddr_tbl[port].dst` -/
  dst : UInt16 → List UInt8
  st : ParseStatus := {}

/-- What the items ask of their surroundings. -/
structure ItemEnv where
  net : InetPton
  /-- `app_sa_prm.enable` -/
  enable : Bool
  /-- is there memory for the arrays? -/
  memory : Bool
  /-- a 32-bit number shifted by 32 -/
  wide : UInt32 → UInt32
  /-- what is on the stack at `mac` -/
  stack : List UInt8

/-- A line, by its keyword; `rand` is what `rte_rand` gives for it. -/
inductive Item
  | sp (multiString : String)
  | sa (rand : UInt32) (multiString : String)
  | rt (multiString : String)
  | flow (multiString : String)
  | neigh (port : UInt16) (mac : String)

variable (env : ItemEnv)

/-- What a SA line asks. -/
def ItemEnv.saEnv (rand : UInt32) : SaEnv := ⟨env.net, env.enable, rand, env.memory⟩

/-- The parsers of a SP line behind `tokens[0]`. -/
def spItem (c : CfgTables) (tok : String) (tokens : List String) :
    Except ParseFault CfgTables :=
  if tok = "ipv4" then
    (parseSpTokens (SpParse.sp4 env.net) env.memory c.sp4 tok tokens c.st).map fun r =>
      { c with sp4 := r.1, st := r.2 }
  else if tok = "ipv6" then
    (parseSpTokens (SpParse.sp6 env.net) env.memory c.sp6 tok tokens c.st).map fun r =>
      { c with sp6 := r.1, st := r.2 }
  else .ok { c with st := appCheck false ("unrecognizable input " ++ tok ++ "\n") c.st }

/-- The tokens are handed on, unless the line has none. -/
def withTokens (tokens : List String) (f : String → List String → Except ParseFault CfgTables) :
    Except ParseFault CfgTables :=
  match tokens with
  | [] => .error .tokens
  | tok :: tokens => f tok tokens

/-- `cfg_sp_add_cfg_item_parsed`. -/
def cfgSpAddCfgItemParsed (c : CfgTables) (multiString : String) :
    Except ParseFault CfgTables :=
  let r := parseTokenizeString multiString
  let c := { c with st := appCheck r.1 "too many arguments" c.st }
  if r.1 then withTokens r.2 (spItem env c) else .ok c

/-- `cfg_sa_add_cfg_item_parsed`, which goes on when there are too many. -/
def cfgSaAddCfgItemParsed (rand : UInt32) (c : CfgTables) (multiString : String) :
    Except ParseFault CfgTables :=
  let r := parseTokenizeString multiString
  let c := { c with st := appCheck r.1 "too many arguments\n" c.st }
  withTokens r.2 fun tok tokens =>
    (parseSaTokens (env.saEnv rand) c.sa tok tokens c.st).map fun r =>
      { c with sa := r.1, st := r.2 }

/-- `cfg_rt_add_cfg_item_parsed`. -/
def cfgRtAddCfgItemParsed (c : CfgTables) (multiString : String) :
    Except ParseFault CfgTables :=
  let r := parseTokenizeString multiString
  let c := { c with st := appCheck r.1 "too many arguments\n" c.st }
  if r.1 then
    withTokens r.2 fun tok tokens =>
      let r := parseRtTokens env.net c.rt tok tokens c.st
      .ok { c with rt := r.1, st := r.2 }
  else .ok c

/-- `cfg_flow_add_cfg_item_parsed`. -/
def cfgFlowAddCfgItemParsed (c : CfgTables) (multiString : String) :
    Except ParseFault CfgTables :=
  let r := parseTokenizeString multiString
  let c := { c with st := appCheck r.1 "too many arguments\n" c.st }
  if r.1 then
    withTokens r.2 fun tok tokens =>
      (parseFlowTokens ⟨env.net, env.wide⟩ c.flow tok tokens c.st).map fun r =>
        { c with flow := r.1, st := r.2 }
  else .ok c

/-- `RTE_MAX_ETHPORTS`, the size of `ethaddr_tbl`. -/
def rteMaxEthports : Nat := 32

/-- `add_dst_ethaddr`: is it zero, and the table. -/
def addDstEthaddr (dst : UInt16 → List UInt8) (port : UInt16) (addr : List UInt8) :
    Bool × (UInt16 → List UInt8) :=
  if rteMaxEthports ≤ port.toNat then (false, dst)
  else (true, fun p => if p = port then addr else dst p)

/-- `cfg_parse_neigh`: both checks are made, and the second is the last. -/
def cfgParseNeigh (c : CfgTables) (port : UInt16) (mac : String) : CfgTables :=
  let addr := parseMac mac
  let st := appCheck addr.1 ("invalid ether addr:" ++ mac) c.st
  let r := addDstEthaddr c.dst port (addr.2 ++ env.stack.drop addr.2.length)
  { c with dst := r.2, st := appCheck r.1 ("invalid port number:" ++ toString port) st }

/-- The function of the keyword of a line. -/
def cfgItem (c : CfgTables) : Item → Except ParseFault CfgTables
  | .sp multiString => cfgSpAddCfgItemParsed env c multiString
  | .sa rand multiString => cfgSaAddCfgItemParsed env rand c multiString
  | .rt multiString => cfgRtAddCfgItemParsed env c multiString
  | .flow multiString => cfgFlowAddCfgItemParsed env c multiString
  | .neigh port mac => .ok (cfgParseNeigh env c port mac)

end CfgItem
