import IpsecSecgw.SaParseModel
import IpsecSecgw.SpParseModel

/-! # The arrays of a configuration

    The lines for SAs and for SPs one after the other, with the six arrays they
    fill.  A SA line writes into the slot behind the rules that are counted, field
    by field, and relies on what is there already. -/

namespace CfgLines

open Growing SaModel SaParse SpParse ParserModel

/-! ## SA lines -/

/-- `SA_INIT_NB`. -/
def saInitNb : UInt32 := 128

/-- `sa_in` and `sa_out` with their counts, `sa_in_cnt` and `sa_out_cnt`,
    `nb_crypto_sessions` and `app_sa_prm.udp_encap`. -/
structure SaArrays where
  saIn : GrowArr SaRule := {}
  saOut : GrowArr SaRule := {}
  saInCnt : IpsecSaCnt := {}
  saOutCnt : IpsecSaCnt := {}
  nbCryptoSessions : UInt32 := 0
  udpEncap : Bool := false

/-- The array of a direction. -/
def SaArrays.rules (t : SaArrays) (inbound : Bool) : GrowArr SaRule :=
  if inbound then t.saIn else t.saOut

/-- It is another one. -/
def SaArrays.setRules (t : SaArrays) (inbound : Bool) (rules : GrowArr SaRule) : SaArrays :=
  if inbound then { t with saIn := rules } else { t with saOut := rules }

/-- What a line leaves besides its rule. -/
def SaArrays.keep (t : SaArrays) (inbound : Bool) (c : SaCore) : SaArrays :=
  let t := { t with nbCryptoSessions := c.nbCryptoSessions, udpEncap := c.udpEncap }
  if inbound then { t with saInCnt := c.cnt } else { t with saOutCnt := c.cnt }

/-- `parse_sa_tokens` from the slot on, on the tokens behind the first. -/
def saScanSlot (env : SaEnv) (slot : SaRule) (direction : Direction) (tokens : List String)
    (cnt : IpsecSaCnt) (nbCryptoSessions : UInt32) (udpEncap : Bool) (st : ParseStatus) :
    Scanned :=
  match tokens with
  | [] => .error (.fault .tokens)
  | spi :: rest => do
      let rule : SaRule := { slot with direction := direction }
      let s : SaScan := ⟨{ rule, cnt, nbCryptoSessions, udpEncap }, spi, rest, st⟩
      let s ← s.check (isStrNum spi) ("input \"" ++ spi ++ "\" is not valid number string")
      if atoiText spi = discard then .error (.ret s)
      else
        let rule := { s.rule with flags := 0, spi := atoiText spi, portid := 0xffff }
        let s ← saLoop env rest.length (s.setCore { s.toSaCore with rule := rule })
        let s ← saComplete s
        return s.setCore
          { s.toSaCore with rule := s.settle, nbCryptoSessions := s.nbCryptoSessions + 1 }

/-- `parse_sa_tokens`. -/
def parseSaSlot (env : SaEnv) (t : SaArrays) (tok : String) (tokens : List String)
    (st : ParseStatus) : Except ParseFault (SaArrays × ParseStatus) :=
  let inbound : Bool := tok = "in"
  let direction := if inbound then Direction.ingress else .egress
  let cnt := if inbound then t.saInCnt else t.saOutCnt
  let r := (t.rules inbound).extend {} saInitNb env.memory
  if !r.1 then .ok (t.setRules inbound r.2, st)
  else
    match r.2.slot with
    | none => .error .overrun
    | some slot =>
        match saScanSlot env slot direction tokens cnt t.nbCryptoSessions t.udpEncap st with
        | .ok s =>
            .ok ((t.keep inbound s.toSaCore).setRules inbound (r.2.write s.rule).bump, s.st)
        | .error (.ret s) =>
            .ok ((t.keep inbound s.toSaCore).setRules inbound (r.2.write s.rule), s.st)
        | .error (.fault f) => .error f

/-! ## Lines -/

/-- A line, with its first token apart; `rand` is what `rte_rand` gives for it. -/
inductive CfgLine
  | sa (rand : UInt32) (tok : String) (tokens : List String)
  | sp4 (tok : String) (tokens : List String)
  | sp6 (tok : String) (tokens : List String)

/-- The arrays and the status. -/
structure Config where
  sa : SaArrays := {}
  sp4 : SpTables 1 := {}
  sp6 : SpTables 4 := {}
  st : ParseStatus := {}

/-- What the lines ask of their surroundings. -/
structure CfgEnv where
  net : InetPton
  /-- `app_sa_prm.enable` -/
  enable : Bool

/-- What a SA line asks; there is memory. -/
def CfgEnv.saEnv (env : CfgEnv) (rand : UInt32) : SaEnv := ⟨env.net, env.enable, rand, true⟩

/-- A line is handed to its parser. -/
def cfgLine (env : CfgEnv) (c : Config) : CfgLine → Except ParseFault Config
  | .sa rand tok tokens =>
      (parseSaSlot (env.saEnv rand) c.sa tok tokens c.st).map fun r =>
        { c with sa := r.1, st := r.2 }
  | .sp4 tok tokens =>
      (parseSpTokens (SpParse.sp4 env.net) true c.sp4 tok tokens c.st).map fun r =>
        { c with sp4 := r.1, st := r.2 }
  | .sp6 tok tokens =>
      (parseSpTokens (SpParse.sp6 env.net) true c.sp6 tok tokens c.st).map fun r =>
        { c with sp6 := r.1, st := r.2 }

/-- Lines that are accepted, one after the other: `parse_cfg_file` ends the program
    when the status of one is below zero. -/
inductive Runs (env : CfgEnv) : Config → List CfgLine → Config → Prop
  | nil {c} : Runs env c [] c
  | cons {c c1 c2 line lines} (hline : cfgLine env c line = .ok c1) (hst : 0 ≤ c1.st.status)
      (hlines : Runs env c1 lines c2) : Runs env c (line :: lines) c2

end CfgLines
