import Mathlib.Algebra.Group.Nat.Defs
import Mathlib.Data.List.Basic

/-! # Configuration tokens

    `parser.h` and the address parsers of `parser.c`: what the handlers of the
    configuration lines share.  A handler walks over an array of tokens with an
    index `ti`; here it holds the token at `ti` and the tokens behind it.

    A handler ends early by returning with a status, or goes wrong by an access
    outside an array (`Stop`).  `inet_pton` is asked from outside. -/

namespace ParserModel

/-! ## Status -/

/-- `struct parse_status`. -/
structure ParseStatus where
  status : Int := 0
  parseMsg : String := ""
  deriving DecidableEq, Repr

/-- `APP_CHECK`: the status is overwritten either way. -/
def appCheck (exp : Bool) (msg : String) (st : ParseStatus) : ParseStatus :=
  if exp then { st with status := 0 } else ⟨-1, msg ++ "\n"⟩

/-- An access of a handler outside an array. -/
inductive ParseFault
  /-- `tokens[i]` with `i >= n_tokens` -/
  | tokens
  /-- a byte outside the arrays a handler writes to -/
  | overrun
  deriving DecidableEq, Repr

/-- How a handler ends early, with what it leaves behind. -/
inductive Stop (σ : Type)
  | ret (s : σ)
  | fault (f : ParseFault)

/-- A computation that has ended well, and the one behind it. -/
theorem bind_ok {ε α β : Type} {x : Except ε α} {f : α → Except ε β} {b : β}
    (h : x >>= f = .ok b) : ∃ a, x = .ok a ∧ f a = .ok b := by
  cases x with
  | ok a => exact ⟨a, rfl, h⟩
  | error e => cases h

/-! ## Numbers -/

/-- `is_str_num`, zero or not. -/
def isStrNum (str : String) : Bool := str.toList.all Char.isDigit

/-- The number a string of digits denotes. -/
def decValue (str : String) : Nat :=
  str.toList.foldl (fun n c => 10 * n + (c.toNat - 48)) 0

/-- `atoi` of a string of digits, as the 32 bits it returns: `strtol` stops at
    `LONG_MAX`, and the result is cut to an `int`. -/
def atoi (str : String) : UInt32 :=
  UInt32.ofNat (min (decValue str) 0x7fffffffffffffff)

/-! ## Addresses -/

/-- `inet_pton`: an IPv4 address as the number in `s_addr`, an IPv6 address as
    its bytes, when the text is one. -/
structure InetPton where
  v4 : List Char → Option UInt32
  v6 : List Char → Option (Vector UInt8 16)
  /-- the text of an address is made of hexadecimal digits, dots and colons -/
  v4_chars : ∀ {s a}, v4 s = some a → ∀ c ∈ s, c ∈ "0123456789.".toList
  v6_chars : ∀ {s a}, v6 s = some a → ∀ c ∈ s, c ∈ "0123456789abcdefABCDEF:.".toList

/-- The characters of a text are among others when a run over it finds them. -/
theorem all_mem {s t : List Char} (h : s.all t.contains = true) : ∀ c ∈ s, c ∈ t := by
  intro c hc
  exact List.contains_iff_mem.mp (List.all_eq_true.mp h c hc)

/-- The token behind the slash, when there is one. -/
def behindSlash (token : String) : Option String :=
  match token.toList.dropWhile (· ≠ '/') with
  | [] => none
  | _ :: pch => some (String.ofList pch)

/-- The text before the slash, as far as `strlcpy` copies it into `room` bytes. -/
def ipStr (room : Nat) (token : String) : List Char :=
  (token.toList.takeWhile (· ≠ '/')).take (room - 1)

/-- What follows the address: `*mask`, zero when there is no slash, or `none`
    when the text behind the slash is no number. -/
def parseMask (token : String) : Option UInt32 :=
  match behindSlash token with
  | none => some 0
  | some pch => if isStrNum pch then some (atoi pch) else none

/-- `parse_ipv4_addr`. -/
def parseIpv4Addr (net : InetPton) (token : String) : Option (UInt32 × UInt32) :=
  match parseMask token with
  | none => none
  | some mask => (net.v4 (ipStr 16 token)).map fun ip => (ip, mask)

/-- `parse_ipv6_addr`; a text of `INET6_ADDRSTRLEN` characters is too long. -/
def parseIpv6Addr (net : InetPton) (token : String) :
    Option (Vector UInt8 16 × UInt32) :=
  match parseMask token with
  | none => none
  | some mask =>
      if 46 ≤ (ipStr 256 token).length then none
      else (net.v6 (ipStr 256 token)).map fun ip => (ip, mask)

/-! ## Ranges -/

/-- `-1`, as the 32 bits of an `int`. -/
def noNumber : UInt32 := 0xffffffff

/-- The variables of `parse_range`: the digits in `num_str`, and `range_low`. -/
structure RangeScan where
  numStr : List Char := []
  rangeLow : UInt32 := noNumber

/-- A character of the token; one that is neither a digit nor a colon is passed
    over. -/
def rangeStep (s : RangeScan) (ch : Char) : Option RangeScan :=
  if ch.isDigit then
    if 19 ≤ s.numStr.length then none else some { s with numStr := s.numStr ++ [ch] }
  else if ch = ':' then
    if s.rangeLow ≠ noNumber then none else some ⟨[], atoi (String.ofList s.numStr)⟩
  else some s

/-- `parse_range`: `*low` and `*high`. -/
def parseRange (token : String) : Option (UInt16 × UInt16) :=
  match token.toList.foldlM rangeStep {} with
  | none => none
  | some s =>
      if s.numStr = [] then none
      else some (s.rangeLow.toUInt16, (atoi (String.ofList s.numStr)).toUInt16)

end ParserModel
