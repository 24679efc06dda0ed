import IpsecSecgw.MessageProofs
import IpsecSecgw.SpParseProofs

/-! # Messages of a SP line

    As for a SA line; both families at once. -/

namespace SpParse

open Growing ParserModel ScanLoop

variable {n : Nat} (fam : SpFamily n)

/-! ## Conditions -/

/-- `protect`. -/
def protectFits (c : SpCore n) (rest : List String) : Prop :=
  c.protectP = false → c.bypassP = false → c.discardP = false → OnNext rest fun t _ =>
    if isStrNum t then
      ¬(atoi t ≠ SaModel.discard ∧ atoi t ≠ SaModel.bypass) → Room ("invalid SPI: " ++ t)
    else Room (notNumber t)

/-- `pri`. -/
def priFits (c : SpCore n) (rest : List String) : Prop :=
  c.priP = false → OnNext rest fun t _ => isStrNum t = false → Room (notNumber t)

/-- `src` and `dst`. -/
def sideFits (present : Bool) (rest : List String) : Prop :=
  present = false → OnNext rest fun t _ =>
    fam.parse t = none → Room ("unrecognized input \"" ++ t ++ "\", expect valid " ++ fam.expect)

/-- `proto`, `sport` and `dport`. -/
def rangeFits (present : Bool) (expect : String) (rest : List String) : Prop :=
  present = false → OnNext rest fun t _ =>
    parseRange t = none → Room ("unrecognized input \"" ++ t ++ "\", expect \"" ++ expect ++ "\"")

/-- An option; those that are not named quote nothing but their keyword. -/
def spFits (c : SpCore n) (keyword : String) (rest : List String) : Prop :=
  if keyword = "esp" then True
  else if keyword = "protect" then protectFits c rest
  else if keyword = "bypass" then True
  else if keyword = "discard" then True
  else if keyword = "pri" then priFits c rest
  else if keyword = "src" then sideFits fam c.srcP rest
  else if keyword = "dst" then sideFits fam c.dstP rest
  else if keyword = "proto" then rangeFits c.protoP "from:to" rest
  else if keyword = "sport" then rangeFits c.sportP "port_from:port_to" rest
  else if keyword = "dport" then rangeFits c.dportP "port_from:port_to" rest
  else Room (unrecognizedInput keyword)

/-! ## Rules -/

/-- A computation on the tokens of a SP line; the handler returns with a message that
    has room. -/
abbrev SpJudged {α : Type} (get : α → SpScan n) (m : String) (F : Prop)
    (x : Except (SpScan n) α) : Prop :=
  Judged (fun s => s.st.Held) F (fun r => (get r).st.parseMsg = m) x

variable {fam} {α : Type} {get : α → SpScan n} {m : String}
  {f : SpScan n → Except (SpScan n) α} {s : SpScan n}

theorem check_judged {exp : Bool} {msg : String} {G : Prop}
    (h : exp = true → SpJudged get m G (f { s with st := appCheck true msg s.st })) :
    SpJudged get m (if exp then G else Room msg) (s.check exp msg >>= f) := by
  cases exp with
  | true => exact h rfl
  | false => exact judged_error (held_false _ s.st)

/-- A check whose text is short. -/
theorem short_judged {exp : Bool} {msg : String} {G : Prop} (hmsg : Room msg)
    (h : exp = true → SpJudged get m G (f { s with st := appCheck true msg s.st })) :
    SpJudged get m (exp = true → G) (s.check exp msg >>= f) := by
  refine (check_judged h).congr ?_
  cases exp with
  | true => exact ⟨fun h _ => h, fun h => h rfl⟩
  | false => exact iff_of_true hmsg nofun

theorem last_judged {exp : Bool} {msg : String} (hmsg : Room msg) (hm : s.st.parseMsg = m) :
    SpJudged id m True (s.check exp msg) := by
  cases exp with
  | true => exact judged_ok trivial hm
  | false => exact judged_error (iff_of_true hmsg trivial)

/-- A check that an item is not there, with the text of its keyword. -/
theorem absent_judged {val : Bool} {msg : String} {G : Prop} (hmsg : Room msg)
    (h : val = false → SpJudged get m G (f { s with st := appCheck true msg s.st })) :
    SpJudged get m (val = false → G) (s.check (!val) msg >>= f) := by
  refine (short_judged hmsg fun hval => h ?_).congr ?_
  · rwa [Bool.not_eq_true'] at hval
  · rw [Bool.not_eq_true']

theorem next_judged {G : String → List String → Prop}
    (h : ∀ t rest, s.rest = t :: rest →
      SpJudged get m (G t rest)
        (f { s with cur := t, rest := rest, st := appCheck true "" s.st })) :
    SpJudged get m (OnNext s.rest G) (s.next >>= f) := by
  unfold SpScan.next
  cases hrest : s.rest with
  | nil => exact judged_error (iff_of_true room_end (onNext_nil G))
  | cons t rest => exact (h t rest hrest).congr onNext_cons.symm

/-! ## Options -/

theorem spEsp_judged (hcur : s.cur = "esp") (hm : s.st.parseMsg = m) :
    SpJudged id m True (spEsp s) := by
  refine Judged.congr (F := s.espP = false → True) ?_ (iff_of_true (fun _ => trivial) trivial)
  exact absent_judged (by rw [hcur]; decide) fun _ => judged_ok trivial hm

theorem spProtect_judged (hcur : s.cur = "protect") (hm : s.st.parseMsg = m) :
    SpJudged id m (protectFits s.toSpCore s.rest) (spProtect s) := by
  refine absent_judged (by rw [hcur]; decide) fun _ => ?_
  refine absent_judged (by rw [hcur]; decide) fun _ => ?_
  refine absent_judged (by rw [hcur]; decide) fun _ => ?_
  refine next_judged fun t rest _ => check_judged fun _ => ?_
  refine Judged.congr (F := if decide (atoi t ≠ SaModel.discard ∧ atoi t ≠ SaModel.bypass) = true
    then True else Room ("invalid SPI: " ++ t)) ?_ ?_
  · exact check_judged fun _ => judged_ok trivial hm
  · by_cases hspi : atoi t ≠ SaModel.discard ∧ atoi t ≠ SaModel.bypass
    · rw [if_pos (decide_eq_true hspi)]
      exact iff_of_true trivial fun h => absurd hspi h
    · rw [if_neg (by rw [decide_eq_false hspi]; exact Bool.false_ne_true)]
      exact ⟨fun h _ => h, fun h => h hspi⟩

theorem spPri_judged (hcur : s.cur = "pri") (hm : s.st.parseMsg = m) :
    SpJudged id m (priFits s.toSpCore s.rest) (spPri s) := by
  refine absent_judged (by rw [hcur]; decide) fun _ => next_judged fun t rest _ => ?_
  refine Judged.congr (F := if isStrNum t = true then True else Room (notNumber t)) ?_ ?_
  · exact check_judged fun _ => judged_ok trivial hm
  · cases isStrNum t with
    | true => exact iff_of_true trivial nofun
    | false => exact ⟨fun h _ => h, fun h => h rfl⟩

/-- An address, and what keeps the message behind it. -/
theorem addr_judged {g : Vector AclField n × SpScan n → SpScan n}
    (hg : ∀ r, (g r).st = r.2.st) (hm : s.st.parseMsg = m) :
    SpJudged id m
      (OnNext s.rest fun t _ => fam.parse t = none →
        Room ("unrecognized input \"" ++ t ++ "\", expect valid " ++ fam.expect))
      (s.addr fam >>= fun r => pure (g r)) := by
  unfold SpScan.addr
  rw [bind_assoc]
  refine next_judged fun t rest _ => ?_
  dsimp only
  cases fam.parse t with
  | none => exact judged_error ⟨fun h _ => h, fun h => h rfl⟩
  | some a =>
      refine judged_ok nofun ?_
      rw [id, hg]
      exact hm

theorem spSrc_judged (hcur : s.cur = "src") (hm : s.st.parseMsg = m) :
    SpJudged id m (sideFits fam s.srcP s.rest) (spSrc fam s) :=
  absent_judged (by rw [hcur]; decide) fun _ => addr_judged (fun _ => rfl) hm

theorem spDst_judged (hcur : s.cur = "dst") (hm : s.st.parseMsg = m) :
    SpJudged id m (sideFits fam s.dstP s.rest) (spDst fam s) :=
  absent_judged (by rw [hcur]; decide) fun _ => addr_judged (fun _ => rfl) hm

/-- A range, and what is behind it. -/
theorem range_judged {expect : String} {f : (UInt16 × UInt16) × SpScan n → SpScanned n}
    (h : ∀ r s', s'.st.parseMsg = s.st.parseMsg → SpJudged id m True (f (r, s'))) :
    SpJudged id m
      (OnNext s.rest fun t _ => parseRange t = none →
        Room ("unrecognized input \"" ++ t ++ "\", expect \"" ++ expect ++ "\""))
      (s.range expect >>= f) := by
  unfold SpScan.range
  rw [bind_assoc]
  refine next_judged fun t rest _ => ?_
  dsimp only
  cases parseRange t with
  | none => exact judged_error ⟨fun h _ => h, fun h => h rfl⟩
  | some r =>
      refine Judged.congr (F := True) ?_ (iff_of_true trivial nofun)
      exact h r _ rfl

theorem spProto_judged (hcur : s.cur = "proto") (hm : s.st.parseMsg = m) :
    SpJudged id m (rangeFits s.protoP "from:to" s.rest) (spProto s) := by
  refine absent_judged (by rw [hcur]; decide) fun _ => range_judged fun r s' hs' => ?_
  refine Judged.congr (F := decide (r.1 ≤ 0xff) = true → decide (r.2 ≤ 0xff) = true → True) ?_
    (iff_of_true (fun _ _ => trivial) trivial)
  refine short_judged (by decide) fun _ => short_judged (by decide) fun _ => ?_
  exact judged_ok trivial (hs'.trans hm)

theorem spSport_judged (hcur : s.cur = "sport") (hm : s.st.parseMsg = m) :
    SpJudged id m (rangeFits s.sportP "port_from:port_to" s.rest) (spSport s) :=
  absent_judged (by rw [hcur]; decide) fun _ => range_judged fun _ _ hs' =>
    judged_ok trivial (hs'.trans hm)

theorem spDport_judged (hcur : s.cur = "dport") (hm : s.st.parseMsg = m) :
    SpJudged id m (rangeFits s.dportP "port_from:port_to" s.rest) (spDport s) :=
  absent_judged (by rw [hcur]; decide) fun _ => range_judged fun _ _ hs' =>
    judged_ok trivial (hs'.trans hm)

theorem spBypass_judged (hcur : s.cur = "bypass") (hm : s.st.parseMsg = m) :
    SpJudged id m True (spBypass s) := by
  refine Judged.congr
    (F := s.bypassP = false → s.protectP = false → s.discardP = false → True) ?_
    (iff_of_true (fun _ _ _ => trivial) trivial)
  refine absent_judged (by rw [hcur]; decide) fun _ => ?_
  refine absent_judged (by rw [hcur]; decide) fun _ => ?_
  refine absent_judged (by rw [hcur]; decide) fun _ => ?_
  exact judged_ok trivial hm

theorem spDiscard_judged (hcur : s.cur = "discard") (hm : s.st.parseMsg = m) :
    SpJudged id m True (spDiscard s) := by
  refine Judged.congr
    (F := s.discardP = false → s.protectP = false → s.bypassP = false → True) ?_
    (iff_of_true (fun _ _ _ => trivial) trivial)
  refine absent_judged (by rw [hcur]; decide) fun _ => ?_
  refine absent_judged (by rw [hcur]; decide) fun _ => ?_
  refine absent_judged (by rw [hcur]; decide) fun _ => ?_
  exact judged_ok trivial hm

/-- **OPTION**. -/
theorem spOption_judged (hm : s.st.parseMsg = m) :
    SpJudged id m (spFits fam s.toSpCore s.cur s.rest) (spOption fam s) := by
  unfold spOption spFits
  refine judged_ite (fun h => spEsp_judged h hm) fun _ => ?_
  refine judged_ite (fun h => spProtect_judged h hm) fun _ => ?_
  refine judged_ite (fun h => spBypass_judged h hm) fun _ => ?_
  refine judged_ite (fun h => spDiscard_judged h hm) fun _ => ?_
  refine judged_ite (fun h => spPri_judged h hm) fun _ => ?_
  refine judged_ite (fun h => spSrc_judged h hm) fun _ => ?_
  refine judged_ite (fun h => spDst_judged h hm) fun _ => ?_
  refine judged_ite (fun h => spProto_judged h hm) fun _ => ?_
  refine judged_ite (fun h => spSport_judged h hm) fun _ => ?_
  refine judged_ite (fun h => spDport_judged h hm) fun _ => ?_
  exact judged_error (held_false _ s.st)

/-! ## Lines -/

/-- The loop of `parse_sp4_tokens`. -/
def spScanner (fam : SpFamily n) : Scanner (SpScan n) (SpScan n) String where
  rest := fun s => s.rest
  enter := fun s t rest => { s with cur := t, rest := rest }
  round := spOption fam

theorem spLoop_eq (fuel : Nat) (s : SpScan n) :
    spLoop fam fuel s = (spScanner fam).loop fuel s := by
  induction fuel generalizing s with
  | zero => rfl
  | succ fuel ih =>
      have hrec : spLoop fam fuel = (spScanner fam).loop fuel := funext ih
      cases hrest : s.rest with
      | nil =>
          rw [spLoop, hrest, Scanner.loop_nil hrest]
      | cons t rest =>
          rw [spLoop, hrest, Scanner.loop_cons hrest, hrec]
          rfl

theorem shrinks_readText (opt : String → SpOpt) (rest : List String) :
    Shrinks rest (readText opt rest) := by
  cases rest with
  | nil => exact shrinks_none _
  | cons t rest => exact shrinks_some (Nat.le_succ _)

theorem shrinks_readOpt (keyword : String) (rest : List String) :
    Shrinks rest (readOpt keyword rest) := by
  refine shrinks_ite (shrinks_some (Nat.le_refl _)) ?_
  refine shrinks_ite (shrinks_readText _ _) ?_
  refine shrinks_ite (shrinks_some (Nat.le_refl _)) ?_
  refine shrinks_ite (shrinks_some (Nat.le_refl _)) ?_
  refine shrinks_ite (shrinks_readText _ _) ?_
  refine shrinks_ite (shrinks_readText _ _) ?_
  refine shrinks_ite (shrinks_readText _ _) ?_
  refine shrinks_ite (shrinks_readText _ _) ?_
  refine shrinks_ite (shrinks_readText _ _) ?_
  exact shrinks_ite (shrinks_readText _ _) (shrinks_none _)

/-- **LOOP**. -/
theorem spLoop_judged (fam : SpFamily n) (fuel : Nat) (s : SpScan n)
    (hm : s.st.parseMsg = m) (hfuel : s.rest.length ≤ fuel) :
    SpJudged id m ((spScanner fam).Throughout (fun s => spFits fam s.toSpCore s.cur s.rest) s)
      (spLoop fam fuel s) := by
  rw [spLoop_eq]
  refine (spScanner fam).loop_judged (R := fun s => s.st.parseMsg = m)
    (fun s t rest hs _ => ?_) fuel s hm hfuel
  refine (spOption_judged (s := { s with cur := t, rest := rest }) hs).and fun s' hs' => ?_
  obtain ⟨o, hread, -⟩ := spOption_ok hs'
  exact shrinks_readOpt _ _ _ _ hread

/-- From the slot on. -/
def spScanFits (fam : SpFamily n) (slot : SpRule n) (dir : String) (tokens : List String)
    (st : ParseStatus) : Prop :=
  (spScanner fam).Throughout (fun s => spFits fam s.toSpCore s.cur s.rest)
    ⟨{ rule := { slot with categoryMask := 1 } }, dir, tokens, st⟩

theorem spScan_judged (fam : SpFamily n) (slot : SpRule n) (dir : String) (tokens : List String)
    (st : ParseStatus) :
    SpJudged id st.parseMsg (spScanFits fam slot dir tokens st)
      (spScan fam slot dir tokens st) := by
  have hloop := spLoop_judged fam tokens.length
    ⟨{ rule := { slot with categoryMask := 1 } }, dir, tokens, st⟩ rfl (Nat.le_refl _)
  refine (hloop.bind (G := fun _ => True) fun s _ hs => ?_).congr
    ⟨fun h => h.1, fun h => ⟨h, fun _ _ => trivial⟩⟩
  refine Judged.congr (F := s.espP = true → True) ?_ (iff_of_true (fun _ => trivial) trivial)
  refine short_judged (by decide) fun _ => last_judged (by decide) hs

/-- A line for one of the arrays; where there is no memory nothing is read. -/
def spAddFits (fam : SpFamily n) (memory : Bool) (rules : GrowArr (SpRule n)) (dir : String)
    (tokens : List String) (st : ParseStatus) : Prop :=
  let r := rules.extend {} initAclRuleNum memory
  r.1 = true → ∃ slot, r.2.slot = some slot ∧ spScanFits fam slot dir tokens st

theorem spAdd_returned (memory : Bool) (rules : GrowArr (SpRule n)) (dir : String)
    (tokens : List String) {st : ParseStatus} (hst : st.Held) :
    Returned (spAdd fam memory rules dir tokens st)
      ↔ spAddFits fam memory rules dir tokens st := by
  unfold spAdd spAddFits
  dsimp only
  cases hextend : (rules.extend {} initAclRuleNum memory).1 with
  | false => exact iff_of_true (returned_ok.mpr hst) nofun
  | true =>
      rw [if_neg nofun]
      cases hslot : (rules.extend {} initAclRuleNum memory).2.slot with
      | none =>
          refine iff_of_false returned_error fun h => ?_
          obtain ⟨_, h, _⟩ := h rfl
          cases h
      | some slot =>
          have hscan := spScan_judged fam slot dir tokens st
          refine Iff.trans (b := spScanFits fam slot dir tokens st) ?_
            ⟨fun h _ => ⟨slot, rfl, h⟩, ?_⟩
          · dsimp only
            cases hrun : spScan fam slot dir tokens st with
            | ok s =>
                obtain ⟨hfits, hm⟩ := hscan.of_ok hrun
                exact iff_of_true (returned_ok.mpr (held_of_eq hm hst)) hfits
            | error s => exact returned_ok.trans (hscan.error_iff hrun)
          · intro h
            obtain ⟨_, heq, hfits⟩ := h rfl
            cases heq
            exact hfits

/-- A line: it has a direction. -/
def SpLineFits (fam : SpFamily n) (memory : Bool) (t : SpTables n) (tok : String)
    (tokens : List String) (st : ParseStatus) : Prop :=
  ∃ dir rest, tokens = dir :: rest ∧
    if dir = "in" then spAddFits fam memory t.rulesIn dir rest st
    else if dir = "out" then spAddFits fam memory t.rulesOut dir rest st
    else Room ("unrecognized input \"" ++ tok ++ "\", expect \"in\" or \"out\"\n")

/-- **WHEN A SP LINE IS READ WITHIN BOUNDS**. -/
theorem sp_returned (memory : Bool) (t : SpTables n) (tok : String) (tokens : List String)
    {st : ParseStatus} (hst : st.Held) :
    Returned (parseSpTokens fam memory t tok tokens st)
      ↔ SpLineFits fam memory t tok tokens st := by
  unfold SpLineFits
  cases tokens with
  | nil =>
      refine iff_of_false returned_error ?_
      rintro ⟨_, _, h, _⟩
      cases h
  | cons dir rest =>
      have hline : Returned (parseSpTokens fam memory t tok (dir :: rest) st)
          ↔ (if dir = "in" then spAddFits fam memory t.rulesIn dir rest st
            else if dir = "out" then spAddFits fam memory t.rulesOut dir rest st
            else Room ("unrecognized input \"" ++ tok ++ "\", expect \"in\" or \"out\"\n")) := by
        unfold parseSpTokens
        dsimp only
        by_cases hin : dir = "in"
        · rw [if_pos hin, if_pos hin, returned_map]
          · exact spAdd_returned memory t.rulesIn dir rest hst
          · intro r
            rfl
        · rw [if_neg hin, if_neg hin]
          by_cases hout : dir = "out"
          · rw [if_pos hout, if_pos hout, returned_map]
            · exact spAdd_returned memory t.rulesOut dir rest hst
            · intro r
              rfl
          · rw [if_neg hout, if_neg hout]
            exact returned_ok
      refine hline.trans ⟨fun h => ⟨dir, rest, rfl, h⟩, ?_⟩
      rintro ⟨_, _, h, hfits⟩
      cases h
      exact hfits

end SpParse
