import Mathlib.Algebra.Group.Nat.Defs
import Mathlib.Data.List.Basic

/-! # The configuration file

    `parse_cfg_file` of `parser.c`: the loop that reads the file line by line, removes
    comments, joins lines at a backslash and hands what it has got to
    `cmdline_parse`.

    The buffers `str` and `oneline` are the strings in them; behind its string `str`
    is zero, since it is only appended to and cleared.  What `cmdline_parse` and the
    handlers do to the program is asked from outside (`Parse`). -/

namespace CfgFile

/-! ## Data -/

/-- A file without NUL bytes. -/
structure Text where
  chars : List Char
  noNul : '\x00' ∉ chars

/-- How the function ends early. -/
inductive CfgStop
  /-- `rte_panic` -/
  | panic (lineNum : Nat)
  /-- a write behind one of the buffers -/
  | overrun
  deriving DecidableEq, Repr

/-- `cmdline_parse` with the status behind it; `none` when one of them is negative. -/
abbrev Parse (σ : Type) := σ → List Char → Option σ

/-- The variables of the loop, the program, and the strings handed to
    `cmdline_parse`. -/
structure CfgState (σ : Type) where
  prog : σ
  str : List Char := []
  lineNum : Nat := 0
  handed : List (List Char) := []

/-- The size of the buffers. -/
def bufSize : Nat := 1024

/-! ## Strings -/

/-- The characters `fgets` takes, up to a newline. -/
def readLine : Nat → List Char → List Char × List Char
  | 0, file => ([], file)
  | _ + 1, [] => ([], [])
  | room + 1, c :: file =>
      if c = '\n' then ([c], file)
      else
        let r := readLine room file
        (c :: r.1, r.2)

/-- `fgets(oneline, 1024, f)`, with the file behind it. -/
def fgets (file : List Char) : Option (List Char × List Char) :=
  if file = [] then none else some (readLine (bufSize - 1) file)

/-- `strcpy(str + strlen(str), oneline)`. -/
def append (str oneline : List Char) : Except CfgStop (List Char) :=
  if bufSize < str.length + oneline.length + 1 then .error .overrun
  else .ok (str ++ oneline)

/-- `str[strlen(str)] = '\n'`; a zero has to follow. -/
def endLine (str : List Char) : Except CfgStop (List Char) :=
  if bufSize ≤ str.length + 1 then .error .overrun else .ok (str ++ ['\n'])

/-! ## The loop -/

variable {σ : Type}

/-- `rte_panic`. -/
def CfgState.panic {α : Type} (s : CfgState σ) : Except CfgStop α := .error (.panic s.lineNum)

/-- The line is appended to `str`, when it fits. -/
def CfgState.add (s : CfgState σ) (oneline : List Char) : Except CfgStop (CfgState σ) :=
  if 1022 < oneline.length + s.str.length then s.panic
  else (append s.str oneline).map fun str => { s with str := str }

/-- `str` is handed to `cmdline_parse`, and cleared. -/
def CfgState.hand (parse : Parse σ) (s : CfgState σ) : Except CfgStop (CfgState σ) :=
  match endLine s.str with
  | .error e => .error e
  | .ok str =>
      match parse s.prog str with
      | none => s.panic
      | some prog => .ok { s with prog := prog, str := [], handed := s.handed ++ [str] }

/-- A line without its comment. -/
def uncomment (l : List Char) : List Char := l.takeWhile (· ≠ '#')

/-- A line that has been read. -/
def cfgLine (parse : Parse σ) (s : CfgState σ) (oneline : List Char) :
    Except CfgStop (CfgState σ) :=
  if 1022 < oneline.length then s.panic
  else if oneline.head? = some '#' then .ok s
  else
    let oneline := uncomment oneline
    -- the place of the first backslash, if there is one
    let pos := oneline.takeWhile (· ≠ '\\')
    if pos.length < oneline.length then
      if pos.length + 2 ≠ oneline.length then s.panic else s.add pos
    else do
      let s ← s.add oneline
      s.hand parse

/-- The loop; a round takes at least one character of the file. -/
def cfgLoop (parse : Parse σ) : Nat → List Char → CfgState σ → Except CfgStop (CfgState σ)
  | 0, _, s => .ok s
  | fuel + 1, file, s =>
      match fgets file with
      | none => .ok s
      | some r => do
          let s ← cfgLine parse { s with lineNum := s.lineNum + 1 } r.1
          cfgLoop parse fuel r.2 s

/-- `parse_cfg_file`, up to the sorting of the arrays. -/
def parseCfgFile (parse : Parse σ) (prog : σ) (file : Text) :
    Except CfgStop (CfgState σ) :=
  cfgLoop parse file.chars.length file.chars { prog := prog }

end CfgFile
