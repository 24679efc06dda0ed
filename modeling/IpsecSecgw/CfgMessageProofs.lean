import IpsecSecgw.CfgItemModel
import IpsecSecgw.SaMessageProofs
import IpsecSecgw.SaTypeProofs
import IpsecSecgw.SpMessageProofs

/-! # Lines are read within bounds

    A line is safe when every array is kept and the message it leaves has room in
    `parse_msg`; this is so exactly under `LineFits`, whatever the tables hold. -/

namespace CfgItem

open ParserModel SaParse SpParse Rt FlowRule

/-- The keywords whose lines are cut into tokens. -/
inductive Handler
  | sp
  | sa (rand : UInt32)
  | rt
  | flow

/-- A line of a keyword. -/
def Handler.item : Handler → String → Item
  | .sp => .sp
  | .sa rand => .sa rand
  | .rt => .rt
  | .flow => .flow

/-- The line has been gone through without an access outside an array, and what has
    been written to `parse_msg` lies in it. -/
def Safe (x : Except ParseFault CfgTables) : Prop := ∃ c, x = .ok c ∧ c.st.Held

variable (env : ItemEnv)

/-- `tokens[0]` is one of the tokens. -/
def OnTokens (tokens : List String) (P : String → List String → Prop) : Prop :=
  ∃ tok rest, tokens = tok :: rest ∧ P tok rest

/-- A SP line, by its family. -/
def SpItemFits (c : CfgTables) (tok : String) (tokens : List String) : Prop :=
  if tok = "ipv4" then SpLineFits (SpParse.sp4 env.net) env.memory c.sp4 tok tokens c.st
  else if tok = "ipv6" then SpLineFits (SpParse.sp6 env.net) env.memory c.sp6 tok tokens c.st
  else Room ("unrecognizable input " ++ tok ++ "\n")

/-- A line.  Where it has too many tokens nothing is read but by `sa`, which goes on with
    those there is place for. -/
def LineFits (c : CfgTables) (text : String) : Handler → Prop
  | .sp =>
      let r := parseTokenizeString text
      r.1 = true → OnTokens r.2
        (SpItemFits env { c with st := appCheck true "too many arguments" c.st })
  | .sa rand =>
      let r := parseTokenizeString text
      OnTokens r.2 fun tok tokens =>
        SaLineFits (env.saEnv rand) c.sa tok tokens (appCheck r.1 "too many arguments\n" c.st)
  | .rt =>
      let r := parseTokenizeString text
      r.1 = true → OnTokens r.2 fun tok tokens =>
        RtLineFits env.net c.rt tok tokens (appCheck true "too many arguments\n" c.st)
  | .flow =>
      let r := parseTokenizeString text
      r.1 = true → OnTokens r.2 fun tok tokens =>
        FlowLineFits ⟨env.net, env.wide⟩ c.flow tok tokens
          (appCheck true "too many arguments\n" c.st)

variable {env}

theorem safe_ok {c : CfgTables} : Safe (.ok c) ↔ c.st.Held := by
  constructor
  · rintro ⟨c', heq, hheld⟩
    rw [Except.ok.inj heq]
    exact hheld
  · intro h
    exact ⟨c, rfl, h⟩

theorem not_safe_error {f : ParseFault} : ¬ Safe (.error f) := by
  rintro ⟨c, heq, -⟩
  cases heq

/-- The tables a parser hands back are put among the others. -/
theorem safe_map {α : Type} {x : Except ParseFault (α × ParseStatus)}
    {g : α × ParseStatus → CfgTables} (hg : ∀ r, (g r).st = r.2) :
    Safe (x.map g) ↔ Returned x := by
  cases x with
  | ok r =>
      refine safe_ok.trans (Iff.trans ?_ returned_ok.symm)
      rw [hg]
  | error f => exact iff_of_false not_safe_error returned_error

theorem safe_withTokens {tokens : List String}
    {f : String → List String → Except ParseFault CfgTables}
    {P : String → List String → Prop} (h : ∀ tok rest, Safe (f tok rest) ↔ P tok rest) :
    Safe (withTokens tokens f) ↔ OnTokens tokens P := by
  cases tokens with
  | nil =>
      refine iff_of_false not_safe_error ?_
      rintro ⟨_, _, heq, _⟩
      cases heq
  | cons tok rest =>
      refine (h tok rest).trans ⟨fun hP => ⟨tok, rest, rfl, hP⟩, ?_⟩
      rintro ⟨_, _, heq, hP⟩
      cases heq
      exact hP

/-- The text of too many tokens is short. -/
theorem held_many {st : ParseStatus} (hst : st.Held) (b : Bool) :
    (appCheck b "too many arguments\n" st).Held := by
  cases b with
  | true => exact hst
  | false => exact (by decide : Room "too many arguments\n")

theorem spItem_safe (c : CfgTables) (hst : c.st.Held) (tok : String) (tokens : List String) :
    Safe (spItem env c tok tokens) ↔ SpItemFits env c tok tokens := by
  unfold spItem SpItemFits
  by_cases h4 : tok = "ipv4"
  · rw [if_pos h4, if_pos h4, safe_map]
    · exact sp_returned env.memory c.sp4 tok tokens hst
    · intro r
      rfl
  · rw [if_neg h4, if_neg h4]
    by_cases h6 : tok = "ipv6"
    · rw [if_pos h6, if_pos h6, safe_map]
      · exact sp_returned env.memory c.sp6 tok tokens hst
      · intro r
        rfl
    · rw [if_neg h6, if_neg h6]
      exact safe_ok

/-- **WHEN A LINE IS READ WITHIN BOUNDS**. -/
theorem line_safe (c : CfgTables) (hst : c.st.Held) (text : String) (h : Handler) :
    Safe (cfgItem env c (h.item text)) ↔ LineFits env c text h := by
  cases h with
  | sp =>
      show Safe (cfgSpAddCfgItemParsed env c text) ↔ _
      unfold cfgSpAddCfgItemParsed LineFits
      dsimp only
      cases (parseTokenizeString text).1 with
      | false => exact iff_of_true (safe_ok.mpr (by decide : Room "too many arguments")) nofun
      | true =>
          rw [if_pos rfl]
          refine Iff.trans ?_ ⟨fun h _ => h, fun h => h rfl⟩
          exact safe_withTokens (spItem_safe _ hst)
  | sa rand =>
      refine safe_withTokens fun tok tokens => ?_
      rw [safe_map]
      · exact sa_returned c.sa tok tokens (held_many hst _)
      · intro r
        rfl
  | rt =>
      show Safe (cfgRtAddCfgItemParsed env c text) ↔ _
      unfold cfgRtAddCfgItemParsed LineFits
      dsimp only
      cases (parseTokenizeString text).1 with
      | false => exact iff_of_true (safe_ok.mpr (held_many hst false)) nofun
      | true =>
          rw [if_pos rfl]
          refine Iff.trans ?_ ⟨fun h _ => h, fun h => h rfl⟩
          refine safe_withTokens fun tok tokens => safe_ok.trans ?_
          exact rt_held env.net c.rt tok tokens (held_many hst true)
  | flow =>
      show Safe (cfgFlowAddCfgItemParsed env c text) ↔ _
      unfold cfgFlowAddCfgItemParsed LineFits
      dsimp only
      cases (parseTokenizeString text).1 with
      | false => exact iff_of_true (safe_ok.mpr (held_many hst false)) nofun
      | true =>
          rw [if_pos rfl]
          refine Iff.trans ?_ ⟨fun h _ => h, fun h => h rfl⟩
          refine safe_withTokens fun tok tokens => ?_
          rw [safe_map]
          · exact flow_returned c.flow tok tokens (held_many hst true)
          · intro r
            rfl

/-! ## Lines that are not -/

/-- There is memory, and no text is an address. -/
def quietEnv : ItemEnv := ⟨noAddresses, true, true, id, []⟩

/-- Nothing has been read. -/
def freshTables : CfgTables := { dst := fun _ => [] }

theorem line_safe_short :
    LineFits quietEnv freshTables "ipv4 port 3" .rt
      ∧ ¬ LineFits quietEnv freshTables "in" (.sa 0) := by
  constructor
  · refine (line_safe freshTables (by decide) "ipv4 port 3" .rt).mp ⟨_, rfl, ?_⟩
    decide
  · intro h
    exact not_safe_error ((line_safe freshTables (by decide) "in" (.sa 0)).mpr h)

/-- A text without a delimiter is one token. -/
theorem parseTokenizeString_plain {text : List Char} (hne : text ≠ [])
    (h : ∀ c ∈ text, parseDelimiter.contains c = false) :
    parseTokenizeString (String.ofList text) = (true, [String.ofList text]) := by
  have hstr : strtok text = [text] := by
    rw [strtok, List.splitOnP_eq_singleton h]
    simp [hne]
  rw [parseTokenizeString, String.toList_ofList, hstr]
  rfl

/-- A token of `n` characters. -/
def longToken (n : Nat) : String := String.ofList (List.replicate n 'x')

theorem length_longToken (n : Nat) : (longToken n).length = n := by
  rw [longToken, String.length_ofList, List.length_replicate]

theorem longToken_plain {n : Nat} (hn : 0 < n) :
    parseTokenizeString (longToken n) = (true, [longToken n]) := by
  apply parseTokenizeString_plain
  · rw [← List.length_pos_iff, List.length_replicate]
    exact hn
  · intro c hc
    rw [List.eq_of_mem_replicate hc]
    decide

/-- A long token that is no family is quoted in a message that has no room. -/
theorem longToken_rt {n : Nat} (hn : 240 ≤ n) :
    ¬ Safe (cfgItem quietEnv freshTables (Handler.rt.item (longToken n))) := by
  have hne : ∀ s : String, s.length < 240 → longToken n ≠ s := by
    intro s hs heq
    rw [← heq, length_longToken] at hs
    omega
  show ¬ Safe (cfgRtAddCfgItemParsed quietEnv freshTables (longToken n))
  simp only [cfgRtAddCfgItemParsed, longToken_plain (Nat.lt_of_lt_of_le (by decide) hn),
    withTokens, parseRtTokens, if_true]
  rw [if_neg (hne "ipv4" (by decide)), if_neg (hne "ipv6" (by decide)), safe_ok, held_false]
  show ¬ (_ < 256)
  have htext : "unrecognized input \"".length = 20 := by decide
  simp only [String.length_append, length_longToken, htext]
  omega

theorem malformed_lines :
    "in".length ≤ 1022
      ∧ cfgItem quietEnv freshTables ((Handler.sa 0).item "in") = .error .tokens
      ∧ (longToken 240).length ≤ 1022
      ∧ ¬ Safe (cfgItem quietEnv freshTables (Handler.rt.item (longToken 240))) := by
  refine ⟨by decide, rfl, ?_, longToken_rt (Nat.le_refl _)⟩
  rw [length_longToken]
  decide

end CfgItem
