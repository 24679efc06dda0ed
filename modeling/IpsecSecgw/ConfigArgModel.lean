import IpsecSecgw.CdevModel
import IpsecSecgw.SaParseModel

/-! # The argument of `--config`

    `parse_config`: groups of a port, a queue and a lcore in parentheses.  What
    stands between the groups is passed over, and so is what stands behind a number
    in a field.  Cutting a group at its commas is `rte_strsplit`, a parameter. -/

namespace ConfigArg

open CdevModel SaParse

/-! ## Numbers -/

/-- The base `strtoul(s, &end, 0)` finds, and the text from the first digit on. -/
def numBase : List Char → Nat × List Char
  | '0' :: x :: d :: s =>
      if (x = 'x' ∨ x = 'X') ∧ (hexDigit d).isSome then (16, d :: s)
      else (8, '0' :: x :: d :: s)
  | '0' :: s => (8, '0' :: s)
  | s => (10, s)

/-- The digits of a base in front of a text. -/
def digits (base : Nat) : List Char → List Nat
  | [] => []
  | c :: s =>
      match hexDigit c with
      | some d => if d < base then d :: digits base s else []
      | none => []

/-- `strtoul(s, &end, 0)`; `none` where `errno` is set or `end` is the text itself. -/
def strtoul0 (s : List Char) : Option Nat :=
  let r := signed s
  let b := numBase r.2
  let ds := digits b.1 b.2
  let n := ds.foldl (fun n d => b.1 * n + d) 0
  if ds = [] ∨ 2 ^ 64 ≤ n then none
  else some (if r.1 then (2 ^ 64 - n) % 2 ^ 64 else n)

/-! ## Groups -/

/-- `MAX_LCORE_PARAMS`. -/
def maxLcoreParams : Nat := 1024

/-- `rte_strsplit` of a text into so many parts at most, at a character. -/
abbrev Strsplit := List Char → Nat → Char → List (List Char)

/-- A field of a group. -/
def parseField (s : List Char) : Option Nat := (strtoul0 s).filter (· ≤ 255)

/-- The text between two parentheses. -/
def parseGroup (split : Strsplit) (s : List Char) : Option LcoreParams :=
  if 256 ≤ s.length then none
  else
    match split s 3 ',' with
    | [port, queue, lcore] => do
        let port ← parseField port
        let queue ← parseField queue
        let lcore ← parseField lcore
        return ⟨UInt16.ofNat port, UInt8.ofNat queue, UInt8.ofNat lcore⟩
    | _ => none

/-- The loop of `parse_config` from a place in the text on, with the entries so far.
    A round takes an opening parenthesis at least. -/
def parseLoop (split : Strsplit) : Nat → List Char → List LcoreParams →
    Option (List LcoreParams)
  | 0, _, params => some params
  | fuel + 1, p0, params =>
      match p0.dropWhile (· ≠ '(') with
      | [] => some params
      | _ :: p =>
          match p.dropWhile (· ≠ ')') with
          | [] => none
          | p0 =>
              match parseGroup split (p.takeWhile (· ≠ ')')) with
              | none => none
              | some e =>
                  if maxLcoreParams ≤ params.length then none
                  else parseLoop split fuel p0 (params ++ [e])

/-- `parse_config`. -/
def parseConfig (split : Strsplit) (arg : List Char) : Option (List LcoreParams) :=
  parseLoop split (arg.length + 1) arg []

end ConfigArg
