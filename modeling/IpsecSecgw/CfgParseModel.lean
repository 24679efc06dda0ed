import IpsecSecgw.CfgFileModel
import IpsecSecgw.CfgItemModel

/-! # Lines and their keywords

    `parse_cfg_file` with the functions of the keywords behind `cmdline_parse`: a line
    is handed to the function of its first keyword, and the status is looked at when
    it has returned. -/

namespace CfgParse

open ParserModel CfgItem

/-- `cmdline_parse` on a line, by its number: `none` where it finds no keyword, else
    what the function of the keyword is called with.  There is no call for an empty
    line. -/
abbrev CmdlineParse := Nat → List Char → Option (Option Item)

/-- The program while the file is read. -/
structure Prog where
  tables : CfgTables
  /-- the number of lines that were handed over -/
  lines : Nat := 0
  /-- the calls so far, with the status each of them has left -/
  calls : List (Item × ParseStatus) := []

/-- The call of a function. -/
def Prog.call (p : Prog) (item : Item) (tables : CfgTables) : Prog :=
  { p with tables := tables, calls := p.calls ++ [(item, tables.st)] }

/-- `status.status < 0` ends the program. -/
def Prog.accept (p : Prog) : Option Prog :=
  if p.tables.st.status < 0 then none else some { p with lines := p.lines + 1 }

/-- A line that is handed over. -/
def parseLine (env : ItemEnv) (cmdlineParse : CmdlineParse) : CfgFile.Parse Prog :=
  fun p str =>
    match cmdlineParse p.lines str with
    | none => none
    | some none => p.accept
    | some (some item) =>
        match cfgItem env p.tables item with
        | .error _ => none
        | .ok tables => (p.call item tables).accept

/-- `parse_cfg_file`; the status is zero at first. -/
def readFile (env : ItemEnv) (cmdlineParse : CmdlineParse) (dst : UInt16 → List UInt8)
    (file : CfgFile.Text) : Except CfgFile.CfgStop (CfgFile.CfgState Prog) :=
  CfgFile.parseCfgFile (parseLine env cmdlineParse) { tables := { dst := dst } } file

end CfgParse
