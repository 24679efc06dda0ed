import IpsecSecgw.CfgCheckProofs
import IpsecSecgw.CfgFileProofs

/-! # Errors of a configuration are not lost

    When a file has been read to its end, each call of a function has left a status
    that is not negative.  All checks have gone well behind it, with at most as many
    tokens as there is place for, exactly when each call is `Sound`: the function of
    `sa` goes on behind its check of the token count, and that of `neigh` behind the
    check of the address. -/

namespace CfgFile

variable {σ : Type} {parse : Parse σ} {s s' : CfgState σ} (Inv : σ → Prop)

/-- **LINE**: what the program is, behind a line. -/
theorem cfgLine_prog
    (hstep : ∀ p str p', Inv p → parse p str = some p' → Inv p') {oneline : List Char}
    (h : cfgLine parse s oneline = .ok s') (hs : Inv s.prog) : Inv s'.prog := by
  unfold cfgLine at h
  split at h
  · cases h
  · split at h
    · cases h
      exact hs
    · dsimp only at h
      split at h
      · split at h
        · cases h
        · obtain ⟨-, rfl⟩ := add_ok h
          exact hs
      · obtain ⟨s1, hadd, hhand⟩ := ParserModel.bind_ok h
        obtain ⟨-, rfl⟩ := add_ok hadd
        unfold CfgState.hand at hhand
        split at hhand
        · cases hhand
        · split at hhand
          · cases hhand
          · rename_i prog hparse
            cases hhand
            exact hstep _ _ _ hs hparse

/-- **RUN**: what every line that is handed over preserves. -/
theorem cfgLoop_prog
    (hstep : ∀ p str p', Inv p → parse p str = some p' → Inv p') (fuel : Nat)
    {file : List Char} (h : cfgLoop parse fuel file s = .ok s') (hs : Inv s.prog) :
    Inv s'.prog := by
  induction fuel generalizing file s with
  | zero =>
      cases h
      exact hs
  | succ fuel ih =>
      rw [cfgLoop] at h
      split at h
      · cases h
        exact hs
      · obtain ⟨s1, hline, hloop⟩ := ParserModel.bind_ok h
        exact ih hloop (cfgLine_prog Inv hstep hline hs)

end CfgFile

namespace CfgParse

open ParserModel CfgItem SaParse SpParse Rt FlowRule

/-! ## Calls -/

/-- There is place for the tokens of the line. -/
def Short : Item → Prop
  | .sp text => (parseTokenizeString text).1 = true
  | .sa _ text => (parseTokenizeString text).1 = true
  | .rt text => (parseTokenizeString text).1 = true
  | .flow text => (parseTokenizeString text).1 = true
  | .neigh _ _ => True

/-- The checks go well that are not followed by a return. -/
def Sound : Item → Prop
  | .sa _ text => (parseTokenizeString text).1 = true
  | .neigh _ mac => (parseMac mac).1 = true
  | _ => True

/-- No check has failed up to the end of the call, and the line is short. -/
def Kept (call : Item × ParseStatus) : Prop := call.2.Clean ∧ Short call.1

variable {env : ItemEnv} {c c' : CfgTables}

/-- Where the status is not negative, an honest one is that of checks that went well. -/
theorem clean_of_honest {m : String} {st : ParseStatus} (h : Honest m st)
    (hst : ¬ st.status < 0) (hm : m = "") : st.Clean :=
  (h.resolve_left hst).trans hm

theorem withTokens_ok {tokens : List String}
    {f : String → List String → Except ParseFault CfgTables}
    (h : withTokens tokens f = .ok c') : ∃ tok rest, f tok rest = .ok c' := by
  cases tokens with
  | nil => cases h
  | cons tok rest => exact ⟨tok, rest, h⟩

theorem spItem_honest {tok : String} {tokens : List String}
    (h : spItem env c tok tokens = .ok c') : Honest c.st.parseMsg c'.st := by
  unfold spItem at h
  split at h
  · obtain ⟨r, hparse, rfl⟩ := map_ok h
    exact parseSpTokens_honest hparse
  · split at h
    · obtain ⟨r, hparse, rfl⟩ := map_ok h
      exact parseSpTokens_honest hparse
    · cases h
      exact honest_false _ _ c.st

/-- A function that returns behind its check of the token count. -/
theorem kept_of_returns {b : Bool} {P : Prop} (hP : P ↔ b = true)
    (hfail : b = false → c'.st.status < 0)
    (hhonest : b = true → Honest c.st.parseMsg c'.st) (hc : c.st.Clean)
    (hst : ¬ c'.st.status < 0) : c'.st.Clean ∧ P := by
  cases b with
  | false => exact absurd (hfail rfl) hst
  | true => exact ⟨clean_of_honest (hhonest rfl) hst hc, hP.mpr rfl⟩

/-- **CALL**: a function that leaves a status that is not negative. -/
theorem cfgItem_kept {item : Item} (hc : c.st.Clean) (h : cfgItem env c item = .ok c')
    (hst : ¬ c'.st.status < 0) : c'.st.Clean ∧ Short item ↔ Sound item := by
  have hfail : ∀ msg, (appCheck false msg c.st).status < 0 :=
    fun _ => (by decide : (-1 : Int) < 0)
  cases item with
  | sp text =>
      replace h : cfgSpAddCfgItemParsed env c text = .ok c' := h
      refine iff_of_true (kept_of_returns Iff.rfl (fun hb => ?_) (fun hb => ?_) hc hst) trivial
      · rw [cfgSpAddCfgItemParsed, hb] at h
        cases h
        exact hfail _
      · rw [cfgSpAddCfgItemParsed, hb] at h
        obtain ⟨tok, rest, hitem⟩ := withTokens_ok h
        have hhonest := spItem_honest hitem
        exact hhonest
  | sa rand text =>
      replace h : cfgSaAddCfgItemParsed env rand c text = .ok c' := h
      unfold cfgSaAddCfgItemParsed at h
      dsimp only at h
      show _ ∧ (parseTokenizeString text).1 = true ↔ (parseTokenizeString text).1 = true
      cases hb : (parseTokenizeString text).1 with
      | false => exact iff_of_false (fun h => Bool.false_ne_true h.2) Bool.false_ne_true
      | true =>
          rw [hb] at h
          obtain ⟨tok, rest, hitem⟩ := withTokens_ok h
          obtain ⟨r, hparse, rfl⟩ := map_ok hitem
          have hheld : (appCheck true "too many arguments\n" c.st).Held := Held.of_clean hc
          have hhonest := parseSaTokens_honest hheld hparse
          exact iff_of_true ⟨clean_of_honest hhonest hst hc, rfl⟩ rfl
  | rt text =>
      replace h : cfgRtAddCfgItemParsed env c text = .ok c' := h
      refine iff_of_true (kept_of_returns Iff.rfl (fun hb => ?_) (fun hb => ?_) hc hst) trivial
      · rw [cfgRtAddCfgItemParsed, hb] at h
        cases h
        exact hfail _
      · rw [cfgRtAddCfgItemParsed, hb] at h
        obtain ⟨tok, rest, hitem⟩ := withTokens_ok h
        cases hitem
        exact parseRtTokens_honest env.net c.rt tok rest _
  | flow text =>
      replace h : cfgFlowAddCfgItemParsed env c text = .ok c' := h
      refine iff_of_true (kept_of_returns Iff.rfl (fun hb => ?_) (fun hb => ?_) hc hst) trivial
      · rw [cfgFlowAddCfgItemParsed, hb] at h
        cases h
        exact hfail _
      · rw [cfgFlowAddCfgItemParsed, hb] at h
        obtain ⟨tok, rest, hitem⟩ := withTokens_ok h
        obtain ⟨r, hparse, rfl⟩ := map_ok hitem
        have hhonest := parseFlowTokens_honest hparse
        exact hhonest
  | neigh port mac =>
      cases h
      -- the status is that of the second check
      have hport : (addDstEthaddr c.dst port
          ((parseMac mac).2 ++ env.stack.drop (parseMac mac).2.length)).1 = true := by
        cases hb : (addDstEthaddr c.dst port
            ((parseMac mac).2 ++ env.stack.drop (parseMac mac).2.length)).1 with
        | true => exact rfl
        | false =>
            refine absurd ?_ hst
            rw [cfgParseNeigh, hb]
            exact (by decide : (-1 : Int) < 0)
      have hclean : (cfgParseNeigh env c port mac).st.Clean ↔ (parseMac mac).1 = true :=
        (clean_appCheck _ _ _).trans <| (and_iff_right hport).trans <|
          (clean_appCheck _ _ _).trans (and_iff_left hc)
      exact (and_iff_left trivial).trans hclean

/-! ## Runs -/

/-- What holds of the program between two lines. -/
structure Told (p : Prog) : Prop where
  last : (∀ call ∈ p.calls, Kept call) → p.tables.st.Clean
  calls : (∀ call ∈ p.calls, Kept call) ↔ ∀ call ∈ p.calls, Sound call.1

variable {cmdlineParse : CmdlineParse} {p p' : Prog}

theorem accept_ok (h : p.accept = some p') :
    ¬ p.tables.st.status < 0 ∧ p' = { p with lines := p.lines + 1 } := by
  unfold Prog.accept at h
  split at h
  · cases h
  · rename_i hst
    exact ⟨hst, (Option.some.inj h).symm⟩

/-- **LINE**. -/
theorem parseLine_told {str : List Char} (hp : Told p)
    (h : parseLine env cmdlineParse p str = some p') : Told p' := by
  unfold parseLine at h
  split at h
  · cases h
  · obtain ⟨-, rfl⟩ := accept_ok h
    exact ⟨hp.last, hp.calls⟩
  · rename_i item _
    split at h
    · cases h
    · rename_i tables hitem
      obtain ⟨hst, rfl⟩ := accept_ok h
      constructor
      · intro hkept
        exact (hkept (item, tables.st) (List.mem_append_right _ List.mem_cons_self)).1
      · show (∀ call ∈ p.calls ++ [(item, tables.st)], _)
          ↔ ∀ call ∈ p.calls ++ [(item, tables.st)], _
        rw [List.forall_mem_append, List.forall_mem_append, List.forall_mem_singleton,
          List.forall_mem_singleton]
        by_cases hkept : ∀ call ∈ p.calls, Kept call
        · exact and_congr hp.calls (cfgItem_kept (hp.last hkept) hitem hst)
        · exact iff_of_false (fun h => hkept h.1) fun h => hkept (hp.calls.mpr h.1)

variable (env cmdlineParse)

/-- **ERRORS ARE NOT LOST** exactly when each call is sound. -/
theorem errors_kept_iff (dst : UInt16 → List UInt8) (file : CfgFile.Text)
    (s : CfgFile.CfgState Prog) (h : readFile env cmdlineParse dst file = .ok s) :
    (∀ call ∈ s.prog.calls, Kept call) ↔ ∀ call ∈ s.prog.calls, Sound call.1 := by
  refine (CfgFile.cfgLoop_prog Told (fun _ _ _ => parseLine_told) _ h ?_).calls
  exact ⟨fun _ => rfl, iff_of_true (List.forall_mem_nil _) (List.forall_mem_nil _)⟩


/-! ## Files -/

/-- The text of a line behind its keyword. -/
def behindKeyword (str : List Char) : String :=
  String.ofList (str.dropWhile fun c => !parseDelimiter.contains c)

/-- The words of a line for a neighbour, behind the first. -/
def neighCall : List (List Char) → Option Item
  | [pstr, port, mac] =>
      if pstr = ['p', 'o', 'r', 't'] then
        some (.neigh (UInt16.ofNat (decValue (String.ofList port))) (String.ofList mac))
      else none
  | _ => none

/-- The function of the first word is called. -/
def byKeyword : CmdlineParse := fun _ str =>
  match strtok str with
  | [] => some none
  | word :: words =>
      if word = ['s', 'p'] then some (some (.sp (behindKeyword str)))
      else if word = ['s', 'a'] then some (some (.sa 0 (behindKeyword str)))
      else if word = ['r', 't'] then some (some (.rt (behindKeyword str)))
      else if word = ['f', 'l', 'o', 'w'] then some (some (.flow (behindKeyword str)))
      else if word = ['n', 'e', 'i', 'g', 'h'] then (neighCall words).map some
      else none

/-- A line for a neighbour. -/
def neighLine (mac : List Char) : List Char :=
  ['n', 'e', 'i', 'g', 'h', ' ', 'p', 'o', 'r', 't', ' ', '0', ' '] ++ mac ++ ['\n']

/-- Its address has six bytes. -/
def goodNeigh : CfgFile.Text :=
  ⟨neighLine ['0', ':', '0', ':', '0', ':', '0', ':', '0', ':', '1'], by decide⟩

theorem errors_kept_iff_neigh :
    ∃ s, readFile quietEnv byKeyword (fun _ => []) goodNeigh = .ok s
      ∧ ∀ call ∈ s.prog.calls, Kept call := by
  refine ⟨_, rfl, (errors_kept_iff quietEnv byKeyword (fun _ => []) goodNeigh _ rfl).mpr ?_⟩
  show ∀ call ∈ [(Item.neigh 0 "0:0:0:0:0:1", ({} : ParseStatus))], Sound call.1
  rw [List.forall_mem_singleton]
  exact (by decide : (parseMac "0:0:0:0:0:1").1 = true)

/-- Its address is none. -/
def badNeigh : CfgFile.Text := ⟨neighLine ['z', 'z'], by decide⟩

/-- A line for a SA with an SPI of zero, and 33 tokens. -/
def longSa : CfgFile.Text :=
  ⟨['s', 'a', ' ', 'i', 'n', ' ', '0'] ++ (List.replicate 31 [' ', 'x']).flatten ++ ['\n'],
    by decide⟩

/-- **NOT SO**: both files are read to their end. -/
theorem errors_lost :
    (∃ s, readFile quietEnv byKeyword (fun _ => []) badNeigh = .ok s
        ∧ ∃ call ∈ s.prog.calls, ¬ call.2.Clean)
      ∧ ∃ s, readFile quietEnv byKeyword (fun _ => []) longSa = .ok s
        ∧ ∃ call ∈ s.prog.calls, ¬ call.2.Clean ∧ ¬ Short call.1 := by
  refine ⟨⟨_, rfl, _, List.mem_cons_self, ?_⟩, ⟨_, rfl, _, List.mem_cons_self, ?_, ?_⟩⟩
  · exact (by decide : "invalid ether addr:zz\n" ≠ "")
  · exact (by decide : "too many arguments\n\n" ≠ "")
  · exact (by decide : ¬ (parseTokenizeString (behindKeyword (longSa.chars ++ ['\n']))).1 = true)

end CfgParse
