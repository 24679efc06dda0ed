import IpsecSecgw.RangeProofs
import IpsecSecgw.SpParseModel

/-! # What a SP line says, and what its rule holds

    The tokens of a line are read as options by their keywords alone (`readOpts`).
    A round of the parser that goes well takes one option off the tokens
    (`SpStep`).  No option may come twice, and the actions exclude each other, so
    what an option has written stays (`Kept`): the rule of a line that is accepted
    holds what every option of the line says (`Accepts.written`). -/

namespace SpParse

open Growing SaModel ParserModel

/-! ## Reading -/

/-- An option, with its text. -/
inductive SpOpt
  | esp
  | protect (spi : String)
  | bypass
  | discard
  | pri (value : String)
  | src (addr : String)
  | dst (addr : String)
  | proto (range : String)
  | sport (range : String)
  | dport (range : String)
  deriving DecidableEq

/-- An option with one text. -/
def readText (opt : String → SpOpt) : List String → Option (SpOpt × List String)
  | [] => none
  | text :: rest => some (opt text, rest)

/-- The option of a keyword, and the tokens behind it. -/
def readOpt (keyword : String) (rest : List String) : Option (SpOpt × List String) :=
  if keyword = "esp" then some (.esp, rest)
  else if keyword = "protect" then readText .protect rest
  else if keyword = "bypass" then some (.bypass, rest)
  else if keyword = "discard" then some (.discard, rest)
  else if keyword = "pri" then readText .pri rest
  else if keyword = "src" then readText .src rest
  else if keyword = "dst" then readText .dst rest
  else if keyword = "proto" then readText .proto rest
  else if keyword = "sport" then readText .sport rest
  else if keyword = "dport" then readText .dport rest
  else none

/-- The options in a number of tokens. -/
def readOpts : Nat → List String → List SpOpt
  | 0, _ => []
  | _ + 1, [] => []
  | n + 1, keyword :: rest =>
      match readOpt keyword rest with
      | none => []
      | some (o, rest) => o :: readOpts n rest

/-- The options of a line, behind its first token and the direction. -/
def lineOpts (tokens : List String) : List SpOpt :=
  readOpts (tokens.tail).length tokens.tail

/-! ## Steps -/

variable {n : Nat}

/-- **STEP**: what an option does to the variables, and when it is let through. -/
inductive SpStep (fam : SpFamily n) : SpOpt → SpCore n → SpCore n → Prop
  | esp {c : SpCore n} (hp : c.espP = false) : SpStep fam .esp c { c with espP := true }
  | protect {c : SpCore n} {spi} (hp : c.protectP = false) (hb : c.bypassP = false)
      (hd : c.discardP = false) (hnum : isStrNum spi = true)
      (hspi : atoi spi ≠ discard ∧ atoi spi ≠ bypass) :
      SpStep fam (.protect spi) c
        { c with rule := { c.rule with userdata := atoi spi }, protectP := true }
  | bypass {c : SpCore n} (hb : c.bypassP = false) (hp : c.protectP = false)
      (hd : c.discardP = false) :
      SpStep fam .bypass c
        { c with rule := { c.rule with userdata := bypass }, bypassP := true }
  | discard {c : SpCore n} (hd : c.discardP = false) (hp : c.protectP = false)
      (hb : c.bypassP = false) :
      SpStep fam .discard c
        { c with rule := { c.rule with userdata := discard }, discardP := true }
  | pri {c : SpCore n} {value} (hp : c.priP = false) (hnum : isStrNum value = true) :
      SpStep fam (.pri value) c
        { c with rule := { c.rule with priority := atoi value }, priP := true }
  | src {c : SpCore n} {addr a} (hp : c.srcP = false) (haddr : fam.parse addr = some a) :
      SpStep fam (.src addr) c { c with rule := { c.rule with src := a }, srcP := true }
  | dst {c : SpCore n} {addr a} (hp : c.dstP = false) (haddr : fam.parse addr = some a) :
      SpStep fam (.dst addr) c { c with rule := { c.rule with dst := a }, dstP := true }
  | proto {c : SpCore n} {range r} (hp : c.protoP = false)
      (hrange : parseRange range = some r) (hlow : r.1 ≤ 0xff) (hhigh : r.2 ≤ 0xff) :
      SpStep fam (.proto range) c
        { c with
          rule := { c.rule with proto := (r.1.toUInt8, r.2.toUInt8) }
          protoP := true }
  | sport {c : SpCore n} {range r} (hp : c.sportP = false)
      (hrange : parseRange range = some r) :
      SpStep fam (.sport range) c
        { c with rule := { c.rule with sport := r }, sportP := true }
  | dport {c : SpCore n} {range r} (hp : c.dportP = false)
      (hrange : parseRange range = some r) :
      SpStep fam (.dport range) c
        { c with rule := { c.rule with dport := r }, dportP := true }

/-- A run of steps. -/
inductive SpSteps (fam : SpFamily n) : List SpOpt → SpCore n → SpCore n → Prop
  | nil {c} : SpSteps fam [] c c
  | cons {o opts c c' c''} (hstep : SpStep fam o c c') (hsteps : SpSteps fam opts c' c'') :
      SpSteps fam (o :: opts) c c''

variable {fam : SpFamily n} {s s' : SpScan n}

/-! ## Inversion -/

theorem check_ok {exp : Bool} {msg : String} (h : s.check exp msg = .ok s') :
    exp = true ∧ ∃ st, s' = { s with st := st } := by
  unfold SpScan.check at h
  cases exp with
  | true => exact ⟨rfl, _, (Except.ok.inj h).symm⟩
  | false => cases h

/-- An error is no way to go on. -/
theorem check_false_ok {msg : String} (h : s.check false msg = .ok s') : False :=
  Bool.false_ne_true (check_ok h).1

theorem presence_ok {val : Bool} (h : s.presence val = .ok s') :
    val = false ∧ ∃ st, s' = { s with st := st } := by
  obtain ⟨hval, hst⟩ := check_ok h
  rw [Bool.not_eq_true'] at hval
  exact ⟨hval, hst⟩

theorem conflict_ok {val : Bool} {other : String} (h : s.conflict val other = .ok s') :
    val = false ∧ ∃ st, s' = { s with st := st } := by
  obtain ⟨hval, hst⟩ := check_ok h
  rw [Bool.not_eq_true'] at hval
  exact ⟨hval, hst⟩

theorem next_ok (h : s.next = .ok s') :
    ∃ t rest st, s.rest = t :: rest ∧ s' = { s with cur := t, rest := rest, st := st } := by
  unfold SpScan.next at h
  cases hrest : s.rest with
  | nil =>
      rw [hrest] at h
      exact absurd (check_ok h).1 Bool.false_ne_true
  | cons t rest =>
      rw [hrest] at h
      obtain ⟨-, st, rfl⟩ := check_ok h
      exact ⟨t, rest, st, rfl, rfl⟩

/-- An address that has been read. -/
theorem addr_ok {r : Vector AclField n × SpScan n} (h : s.addr fam = .ok r) :
    ∃ t rest st, s.rest = t :: rest ∧ fam.parse t = some r.1
      ∧ r.2 = { s with cur := t, rest := rest, st := st } := by
  obtain ⟨s1, h1, h⟩ := bind_ok h
  obtain ⟨t, rest, st1, hrest, rfl⟩ := next_ok h1
  cases hparse : fam.parse t with
  | none =>
      simp only [hparse] at h
      obtain ⟨s2, h2, -⟩ := bind_ok h
      exact (check_false_ok h2).elim
  | some a =>
      simp only [hparse] at h
      obtain ⟨s2, h2, h⟩ := bind_ok h
      obtain ⟨-, st2, rfl⟩ := check_ok h2
      cases h
      exact ⟨t, rest, st2, hrest, hparse, rfl⟩

/-- A range that has been read. -/
theorem range_ok {expect : String} {r : (UInt16 × UInt16) × SpScan n}
    (h : s.range expect = .ok r) :
    ∃ t rest st, s.rest = t :: rest ∧ parseRange t = some r.1
      ∧ r.2 = { s with cur := t, rest := rest, st := st } := by
  obtain ⟨s1, h1, h⟩ := bind_ok h
  obtain ⟨t, rest, st1, hrest, rfl⟩ := next_ok h1
  cases hparse : parseRange t with
  | none =>
      simp only [hparse] at h
      obtain ⟨s2, h2, -⟩ := bind_ok h
      exact (check_false_ok h2).elim
  | some x =>
      simp only [hparse] at h
      obtain ⟨s2, h2, h⟩ := bind_ok h
      obtain ⟨-, st2, rfl⟩ := check_ok h2
      cases h
      exact ⟨t, rest, st2, hrest, hparse, rfl⟩

/-- What a round takes off the tokens, and what it does. -/
def Took (fam : SpFamily n) (s s' : SpScan n) : Prop :=
  ∃ o, readOpt s.cur s.rest = some (o, s'.rest) ∧ SpStep fam o s.toSpCore s'.toSpCore

theorem spEsp_ok (hcur : s.cur = "esp") (h : spEsp s = .ok s') : Took fam s s' := by
  obtain ⟨s1, h1, h⟩ := bind_ok h
  obtain ⟨hp, st1, rfl⟩ := presence_ok h1
  cases h
  refine ⟨.esp, ?_, .esp hp⟩
  rw [hcur]
  rfl

theorem spProtect_ok (hcur : s.cur = "protect") (h : spProtect s = .ok s') :
    Took fam s s' := by
  obtain ⟨s1, h1, h⟩ := bind_ok h
  obtain ⟨hp, st1, rfl⟩ := presence_ok h1
  obtain ⟨s2, h2, h⟩ := bind_ok h
  obtain ⟨hb, st2, rfl⟩ := conflict_ok h2
  obtain ⟨s3, h3, h⟩ := bind_ok h
  obtain ⟨hd, st3, rfl⟩ := conflict_ok h3
  obtain ⟨s4, h4, h⟩ := bind_ok h
  obtain ⟨t, rest, st4, hrest : s.rest = t :: rest, rfl⟩ := next_ok h4
  obtain ⟨s5, h5, h⟩ := bind_ok h
  obtain ⟨hnum, st5, rfl⟩ := check_ok h5
  obtain ⟨s6, h6, h⟩ := bind_ok h
  obtain ⟨hspi, st6, rfl⟩ := check_ok h6
  cases h
  refine ⟨.protect t, ?_, .protect hp hb hd hnum (of_decide_eq_true hspi)⟩
  rw [hcur, hrest]
  rfl

theorem spBypass_ok (hcur : s.cur = "bypass") (h : spBypass s = .ok s') :
    Took fam s s' := by
  obtain ⟨s1, h1, h⟩ := bind_ok h
  obtain ⟨hb, st1, rfl⟩ := presence_ok h1
  obtain ⟨s2, h2, h⟩ := bind_ok h
  obtain ⟨hp, st2, rfl⟩ := conflict_ok h2
  obtain ⟨s3, h3, h⟩ := bind_ok h
  obtain ⟨hd, st3, rfl⟩ := conflict_ok h3
  cases h
  refine ⟨.bypass, ?_, .bypass hb hp hd⟩
  rw [hcur]
  rfl

theorem spDiscard_ok (hcur : s.cur = "discard") (h : spDiscard s = .ok s') :
    Took fam s s' := by
  obtain ⟨s1, h1, h⟩ := bind_ok h
  obtain ⟨hd, st1, rfl⟩ := presence_ok h1
  obtain ⟨s2, h2, h⟩ := bind_ok h
  obtain ⟨hp, st2, rfl⟩ := conflict_ok h2
  obtain ⟨s3, h3, h⟩ := bind_ok h
  obtain ⟨hb, st3, rfl⟩ := conflict_ok h3
  cases h
  refine ⟨.discard, ?_, .discard hd hp hb⟩
  rw [hcur]
  rfl

theorem spPri_ok (hcur : s.cur = "pri") (h : spPri s = .ok s') : Took fam s s' := by
  obtain ⟨s1, h1, h⟩ := bind_ok h
  obtain ⟨hp, st1, rfl⟩ := presence_ok h1
  obtain ⟨s2, h2, h⟩ := bind_ok h
  obtain ⟨t, rest, st2, hrest : s.rest = t :: rest, rfl⟩ := next_ok h2
  obtain ⟨s3, h3, h⟩ := bind_ok h
  obtain ⟨hnum, st3, rfl⟩ := check_ok h3
  cases h
  refine ⟨.pri t, ?_, .pri hp hnum⟩
  rw [hcur, hrest]
  rfl

theorem spSrc_ok (hcur : s.cur = "src") (h : spSrc fam s = .ok s') : Took fam s s' := by
  obtain ⟨s1, h1, h⟩ := bind_ok h
  obtain ⟨hp, st1, rfl⟩ := presence_ok h1
  obtain ⟨⟨a, s2⟩, h2, h⟩ := bind_ok h
  obtain ⟨t, rest, st2, hrest : s.rest = t :: rest, hparse, rfl : s2 = _⟩ := addr_ok h2
  cases h
  refine ⟨.src t, ?_, .src hp hparse⟩
  rw [hcur, hrest]
  rfl

theorem spDst_ok (hcur : s.cur = "dst") (h : spDst fam s = .ok s') : Took fam s s' := by
  obtain ⟨s1, h1, h⟩ := bind_ok h
  obtain ⟨hp, st1, rfl⟩ := presence_ok h1
  obtain ⟨⟨a, s2⟩, h2, h⟩ := bind_ok h
  obtain ⟨t, rest, st2, hrest : s.rest = t :: rest, hparse, rfl : s2 = _⟩ := addr_ok h2
  cases h
  refine ⟨.dst t, ?_, .dst hp hparse⟩
  rw [hcur, hrest]
  rfl

theorem spProto_ok (hcur : s.cur = "proto") (h : spProto s = .ok s') : Took fam s s' := by
  obtain ⟨s1, h1, h⟩ := bind_ok h
  obtain ⟨hp, st1, rfl⟩ := presence_ok h1
  obtain ⟨⟨r, s2⟩, h2, h⟩ := bind_ok h
  obtain ⟨t, rest, st2, hrest : s.rest = t :: rest, hparse, rfl : s2 = _⟩ := range_ok h2
  obtain ⟨s3, h3, h⟩ := bind_ok h
  obtain ⟨hlow, st3, rfl⟩ := check_ok h3
  obtain ⟨s4, h4, h⟩ := bind_ok h
  obtain ⟨hhigh, st4, rfl⟩ := check_ok h4
  cases h
  refine ⟨.proto t, ?_, .proto hp hparse (of_decide_eq_true hlow) (of_decide_eq_true hhigh)⟩
  rw [hcur, hrest]
  rfl

theorem spSport_ok (hcur : s.cur = "sport") (h : spSport s = .ok s') : Took fam s s' := by
  obtain ⟨s1, h1, h⟩ := bind_ok h
  obtain ⟨hp, st1, rfl⟩ := presence_ok h1
  obtain ⟨⟨r, s2⟩, h2, h⟩ := bind_ok h
  obtain ⟨t, rest, st2, hrest : s.rest = t :: rest, hparse, rfl : s2 = _⟩ := range_ok h2
  cases h
  refine ⟨.sport t, ?_, .sport hp hparse⟩
  rw [hcur, hrest]
  rfl

theorem spDport_ok (hcur : s.cur = "dport") (h : spDport s = .ok s') : Took fam s s' := by
  obtain ⟨s1, h1, h⟩ := bind_ok h
  obtain ⟨hp, st1, rfl⟩ := presence_ok h1
  obtain ⟨⟨r, s2⟩, h2, h⟩ := bind_ok h
  obtain ⟨t, rest, st2, hrest : s.rest = t :: rest, hparse, rfl : s2 = _⟩ := range_ok h2
  cases h
  refine ⟨.dport t, ?_, .dport hp hparse⟩
  rw [hcur, hrest]
  rfl

/-- **A ROUND** that goes well is one option. -/
theorem spOption_ok (h : spOption fam s = .ok s') : Took fam s s' := by
  unfold spOption at h
  -- one keyword after the other, as the loop asks for them
  rcases ite_eq_iff.mp h with ⟨hcur, h⟩ | ⟨-, h⟩
  · exact spEsp_ok hcur h
  rcases ite_eq_iff.mp h with ⟨hcur, h⟩ | ⟨-, h⟩
  · exact spProtect_ok hcur h
  rcases ite_eq_iff.mp h with ⟨hcur, h⟩ | ⟨-, h⟩
  · exact spBypass_ok hcur h
  rcases ite_eq_iff.mp h with ⟨hcur, h⟩ | ⟨-, h⟩
  · exact spDiscard_ok hcur h
  rcases ite_eq_iff.mp h with ⟨hcur, h⟩ | ⟨-, h⟩
  · exact spPri_ok hcur h
  rcases ite_eq_iff.mp h with ⟨hcur, h⟩ | ⟨-, h⟩
  · exact spSrc_ok hcur h
  rcases ite_eq_iff.mp h with ⟨hcur, h⟩ | ⟨-, h⟩
  · exact spDst_ok hcur h
  rcases ite_eq_iff.mp h with ⟨hcur, h⟩ | ⟨-, h⟩
  · exact spProto_ok hcur h
  rcases ite_eq_iff.mp h with ⟨hcur, h⟩ | ⟨-, h⟩
  · exact spSport_ok hcur h
  rcases ite_eq_iff.mp h with ⟨hcur, h⟩ | ⟨-, h⟩
  · exact spDport_ok hcur h
  exact (check_false_ok h).elim

/-- The loop is a run over the options in the tokens. -/
theorem spLoop_steps (m : Nat) (h : spLoop fam m s = .ok s') :
    SpSteps fam (readOpts m s.rest) s.toSpCore s'.toSpCore := by
  induction m generalizing s with
  | zero =>
      cases h
      exact .nil
  | succ m ih =>
      cases hrest : s.rest with
      | nil =>
          simp only [spLoop, hrest] at h
          cases h
          exact .nil
      | cons t rest =>
          simp only [spLoop, hrest] at h
          obtain ⟨s1, h1, h⟩ := bind_ok h
          obtain ⟨o, hread, hstep⟩ := spOption_ok h1
          have hread : readOpt t rest = some (o, s1.rest) := hread
          simp only [readOpts, hread]
          exact .cons hstep (ih h)

theorem spComplete_ok (h : spComplete s = .ok s') : s'.toSpCore = s.toSpCore := by
  obtain ⟨s1, h1, h⟩ := bind_ok h
  obtain ⟨-, st1, rfl⟩ := check_ok h1
  obtain ⟨-, st2, rfl⟩ := check_ok h
  rfl

/-- The variables before the first option. -/
def lineStart (slot : SpRule n) : SpCore n where
  rule := { slot with categoryMask := 1 }

/-- **A LINE** that goes well is a run over its options. -/
theorem scan_steps {slot : SpRule n} {dir : String} {tokens : List String}
    {st : ParseStatus} (h : spScan fam slot dir tokens st = .ok s') :
    SpSteps fam (lineOpts (dir :: tokens)) (lineStart slot) s'.toSpCore := by
  obtain ⟨s1, h1, h⟩ := bind_ok h
  rw [spComplete_ok h]
  exact spLoop_steps tokens.length h1

/-! ## Rules -/

/-- A rule has been stored behind those that are counted, and is counted. -/
def Stored {α : Type} (a a' : GrowArr α) (x : α) : Prop :=
  a'.count = a.count + 1 ∧ a'.mem.bind (fun mem => mem[a.count.toNat]?) = some x

/-- `parse_sp4_tokens`, `parse_sp6_tokens` has added a rule. -/
def Accepts (fam : SpFamily n) (memory : Bool) (t : SpTables n) (tok : String)
    (tokens : List String) (st : ParseStatus) (rule : SpRule n) : Prop :=
  ∃ t' st', parseSpTokens fam memory t tok tokens st = .ok (t', st')
    ∧ if tokens.head? = some "in" then Stored t.rulesIn t'.rulesIn rule
      else Stored t.rulesOut t'.rulesOut rule

/-- Extending a table leaves its count. -/
theorem extend_count {α : Type} (zero : α) (init : UInt32) (memory : Bool)
    (a : GrowArr α) : (a.extend zero init memory).2.count = a.count := by
  unfold GrowArr.extend
  split
  · split <;> rfl
  · split
    · split <;> rfl
    · rfl

/-- A count that has gone up is another one. -/
theorem count_ne (x : UInt32) : x ≠ x + 1 := by
  intro h
  have h1 := congrArg UInt32.toNat h
  have hlt := x.toNat_lt
  rw [UInt32.toNat_add, show (1 : UInt32).toNat = 1 from rfl] at h1
  omega

/-- A line has stored a rule only when the parser went well. -/
theorem spAdd_stored {memory : Bool} {rules rules' : GrowArr (SpRule n)} {dir : String}
    {tokens : List String} {st st' : ParseStatus} {rule : SpRule n}
    (h : spAdd fam memory rules dir tokens st = .ok (rules', st'))
    (hstored : Stored rules rules' rule) :
    ∃ slot s, spScan fam slot dir tokens st = .ok s ∧ rule = s.rule := by
  have hcount := extend_count {} initAclRuleNum memory rules
  unfold spAdd at h
  dsimp only at h
  split at h
  · cases h
    exact (count_ne _ (hcount ▸ hstored.1)).elim
  · split at h
    · cases h
    · rename_i slot hslot
      split at h
      · rename_i s hscan
        cases h
        exact (count_ne _ (hcount ▸ hstored.1)).elim
      · rename_i s hscan
        cases h
        refine ⟨slot, s, hscan, ?_⟩
        have hmem := hstored.2
        unfold GrowArr.slot at hslot
        obtain ⟨mem, hsome, hget⟩ := Option.bind_eq_some_iff.mp hslot
        have hlt := (List.getElem?_eq_some_iff.mp hget).1
        rw [hcount] at hlt
        simp only [GrowArr.bump, GrowArr.write, hsome, Option.map_some, Option.bind_some,
          hcount, List.getElem?_set_self hlt] at hmem
        exact (Option.some.inj hmem).symm

/-- An accepted line is a run over its options. -/
theorem Accepts.steps {memory : Bool} {t : SpTables n} {tok : String}
    {tokens : List String} {st : ParseStatus} {rule : SpRule n}
    (h : Accepts fam memory t tok tokens st rule) :
    ∃ slot c, SpSteps fam (lineOpts tokens) (lineStart slot) c ∧ rule = c.rule := by
  obtain ⟨t', st', hparse, hstored⟩ := h
  cases tokens with
  | nil => cases hparse
  | cons dir rest =>
      rw [List.head?_cons] at hstored
      unfold parseSpTokens at hparse
      dsimp only at hparse
      by_cases hin : dir = "in"
      · rw [if_pos hin] at hparse
        rw [if_pos (congrArg some hin)] at hstored
        cases hadd : spAdd fam memory t.rulesIn dir rest st with
        | error f =>
            rw [hadd] at hparse
            cases hparse
        | ok r =>
            rw [hadd] at hparse
            cases hparse
            obtain ⟨slot, s, hscan, hrule⟩ := spAdd_stored hadd hstored
            exact ⟨slot, s.toSpCore, scan_steps hscan, hrule⟩
      · rw [if_neg hin] at hparse
        rw [if_neg (fun h => hin (Option.some.inj h))] at hstored
        split at hparse
        · cases hadd : spAdd fam memory t.rulesOut dir rest st with
          | error f =>
              rw [hadd] at hparse
              cases hparse
          | ok r =>
              rw [hadd] at hparse
              cases hparse
              obtain ⟨slot, s, hscan, hrule⟩ := spAdd_stored hadd hstored
              exact ⟨slot, s.toSpCore, scan_steps hscan, hrule⟩
        · cases hparse
          exact (count_ne _ hstored.1).elim

/-! ## What options have written -/

/-- What an option says, of the variables. -/
def Written (fam : SpFamily n) (c : SpCore n) : SpOpt → Prop
  | .esp => c.espP = true
  | .protect spi =>
      (isStrNum spi = true ∧ atoi spi ≠ discard ∧ atoi spi ≠ bypass)
        ∧ c.protectP = true ∧ c.rule.userdata = atoi spi
  | .bypass => c.bypassP = true ∧ c.rule.userdata = bypass
  | .discard => c.discardP = true ∧ c.rule.userdata = discard
  | .pri value => isStrNum value = true ∧ c.priP = true ∧ c.rule.priority = atoi value
  | .src addr => c.srcP = true ∧ fam.parse addr = some c.rule.src
  | .dst addr => c.dstP = true ∧ fam.parse addr = some c.rule.dst
  | .proto range =>
      c.protoP = true ∧ ∃ r, parseRange range = some r ∧ r.1 ≤ 0xff ∧ r.2 ≤ 0xff
        ∧ c.rule.proto = (r.1.toUInt8, r.2.toUInt8)
  | .sport range => c.sportP = true ∧ parseRange range = some c.rule.sport
  | .dport range => c.dportP = true ∧ parseRange range = some c.rule.dport

/-- What has been written stays. -/
structure Kept (c c' : SpCore n) : Prop where
  esp : c.espP = true → c'.espP = true
  protect : c.protectP = true → c'.protectP = true ∧ c'.rule.userdata = c.rule.userdata
  bypass : c.bypassP = true → c'.bypassP = true ∧ c'.rule.userdata = c.rule.userdata
  discard : c.discardP = true → c'.discardP = true ∧ c'.rule.userdata = c.rule.userdata
  pri : c.priP = true → c'.priP = true ∧ c'.rule.priority = c.rule.priority
  src : c.srcP = true → c'.srcP = true ∧ c'.rule.src = c.rule.src
  dst : c.dstP = true → c'.dstP = true ∧ c'.rule.dst = c.rule.dst
  proto : c.protoP = true → c'.protoP = true ∧ c'.rule.proto = c.rule.proto
  sport : c.sportP = true → c'.sportP = true ∧ c'.rule.sport = c.rule.sport
  dport : c.dportP = true → c'.dportP = true ∧ c'.rule.dport = c.rule.dport

variable {c c' : SpCore n} {o : SpOpt}

/-- A step writes what its option says. -/
theorem SpStep.written (h : SpStep fam o c c') : Written fam c' o := by
  cases h with
  | esp hp => exact rfl
  | protect hp hb hd hnum hspi => exact ⟨⟨hnum, hspi⟩, rfl, rfl⟩
  | bypass hb hp hd => exact ⟨rfl, rfl⟩
  | discard hd hp hb => exact ⟨rfl, rfl⟩
  | pri hp hnum => exact ⟨hnum, rfl, rfl⟩
  | src hp haddr => exact ⟨rfl, haddr⟩
  | dst hp haddr => exact ⟨rfl, haddr⟩
  | proto hp hrange hlow hhigh => exact ⟨rfl, _, hrange, hlow, hhigh, rfl⟩
  | sport hp hrange => exact ⟨rfl, hrange⟩
  | dport hp hrange => exact ⟨rfl, hrange⟩

/-- A step keeps what others have written. -/
theorem SpStep.kept (h : SpStep fam o c c') : Kept c c' := by
  cases h <;> constructor <;> simp_all

/-- What an option says is true of what has been kept. -/
theorem Written.kept (hw : Written fam c o) (hk : Kept c c') : Written fam c' o := by
  cases o with
  | esp => exact hk.esp hw
  | protect spi =>
      obtain ⟨hnum, hp, hu⟩ := hw
      exact ⟨hnum, (hk.protect hp).1, (hk.protect hp).2.trans hu⟩
  | bypass => exact ⟨(hk.bypass hw.1).1, (hk.bypass hw.1).2.trans hw.2⟩
  | discard => exact ⟨(hk.discard hw.1).1, (hk.discard hw.1).2.trans hw.2⟩
  | pri value =>
      obtain ⟨hnum, hp, hv⟩ := hw
      exact ⟨hnum, (hk.pri hp).1, (hk.pri hp).2.trans hv⟩
  | src addr => exact ⟨(hk.src hw.1).1, (hk.src hw.1).2 ▸ hw.2⟩
  | dst addr => exact ⟨(hk.dst hw.1).1, (hk.dst hw.1).2 ▸ hw.2⟩
  | proto range =>
      obtain ⟨hp, r, hr, hlow, hhigh, hv⟩ := hw
      exact ⟨(hk.proto hp).1, r, hr, hlow, hhigh, (hk.proto hp).2.trans hv⟩
  | sport range => exact ⟨(hk.sport hw.1).1, (hk.sport hw.1).2 ▸ hw.2⟩
  | dport range => exact ⟨(hk.dport hw.1).1, (hk.dport hw.1).2 ▸ hw.2⟩

/-- What is true before a run stays. -/
theorem SpSteps.kept_written {opts : List SpOpt} (h : SpSteps fam opts c c')
    (hw : Written fam c o) : Written fam c' o := by
  induction h with
  | nil => exact hw
  | cons hstep _ ih => exact ih (hw.kept hstep.kept)

/-- **RUN**: behind it every option is written. -/
theorem SpSteps.written {opts : List SpOpt} (h : SpSteps fam opts c c') :
    ∀ o ∈ opts, Written fam c' o := by
  induction h with
  | nil =>
      intro o ho
      cases ho
  | cons hstep hsteps ih =>
      intro o ho
      rcases List.mem_cons.mp ho with rfl | ho
      · exact hsteps.kept_written hstep.written
      · exact ih o ho

/-- **LINE**: the rule holds what the options say. -/
theorem Accepts.written {memory : Bool} {t : SpTables n} {tok : String}
    {tokens : List String} {st : ParseStatus} {rule : SpRule n}
    (h : Accepts fam memory t tok tokens st rule) :
    ∃ c : SpCore n, c.rule = rule ∧ ∀ o ∈ lineOpts tokens, Written fam c o := by
  obtain ⟨slot, c, hsteps, hrule⟩ := h.steps
  exact ⟨c, hrule.symm, hsteps.written⟩

end SpParse
