import IpsecSecgw.FlowRuleProofs
import IpsecSecgw.Lib.WriteLog
import IpsecSecgw.SpRuleProofs
import IpsecSecgw.TxPortProofs

/-! # Numbers of accepted lines

    The numbers of a line are texts for fields of its rule.  What a field holds is
    what one of its texts was cut to (`Follows`), so the rule holds the numbers of
    the line exactly when these are in digits, fit their fields, and no field is
    given two of them (`exact_iff`).  This goes through the four kinds of lines. -/

namespace NumberText

open ParserModel ParseRange WriteLog

/-! ## Numbers -/

/-- A field and the text for it; none when the option is there without a number. -/
abbrev Named (F : Type) := List (F × Option String)

/-- The number of a text; without one the code takes zero. -/
def textValue : Option String → Nat
  | none => 0
  | some tok => decValue tok

/-- The fields hold the numbers of the texts, and these are in digits. -/
def Exact {F : Type} (held : F → Int) (nums : Named F) : Prop :=
  ∀ f tok, (f, some tok) ∈ nums → IsDecimal tok.toList ∧ held f = decValue tok

variable {F : Type} [DecidableEq F]

/-- The texts are in digits, their numbers are below the bounds of the fields, and
    the last text for a field has the number of any other. -/
def Fits (bound : F → Nat) (nums : Named F) : Prop :=
  ∀ f tok, (f, some tok) ∈ nums → IsDecimal tok.toList ∧ decValue tok < bound f
    ∧ ∀ t, last f nums = some t → textValue t = decValue tok

/-- What is stored for digits is their number exactly below the bound. -/
structure Cuts (stored : F → Option String → Int) (bound : F → Nat) : Prop where
  pos : ∀ f, 0 < bound f
  none : ∀ f, stored f none = 0
  digits : ∀ f tok, IsDecimal tok.toList →
    (stored f (some tok) = decValue tok ↔ decValue tok < bound f)

/-- **NUMBERS** are held exactly when they fit. -/
theorem exact_iff {stored : F → Option String → Int} {bound : F → Nat} {held : F → Int}
    {nums : Named F} (hcuts : Cuts stored bound)
    (hfollows : Follows Option.isSome stored held nums) :
    Exact held nums ↔ Fits bound nums := by
  constructor
  · intro hexact f tok hmem
    obtain ⟨hdec, hheld⟩ := hexact f tok hmem
    obtain ⟨t, hlast⟩ := last_of_mem hmem
    obtain ⟨t', hmem', hkind, hstored⟩ := hfollows f t hlast
    -- the last token stored decides; a kind that stores nothing leaves zero
    cases t' with
    | none =>
        rw [hcuts.none] at hstored
        have hzero : decValue tok = 0 := by omega
        refine ⟨hdec, hzero ▸ hcuts.pos f, fun u hu => ?_⟩
        rw [hlast] at hu
        cases hu
        cases t with
        | none => exact hzero.symm
        | some w => cases hkind
    | some w' =>
        obtain ⟨hdec', hheld'⟩ := hexact f w' hmem'
        have hlt := (hcuts.digits f w' hdec').mp (by rw [← hstored, hheld'])
        refine ⟨hdec, by omega, fun u hu => ?_⟩
        rw [hlast] at hu
        cases hu
        cases t with
        | none => cases hkind
        | some w =>
            -- the token given last is stored exactly, too
            have hw := (hexact f w (last_mem hlast)).2
            show decValue w = decValue tok
            omega
  · intro hfits f tok hmem
    obtain ⟨hdec, hlt, hsame⟩ := hfits f tok hmem
    obtain ⟨t, hlast⟩ := last_of_mem hmem
    obtain ⟨t', hmem', hkind, hstored⟩ := hfollows f t hlast
    refine ⟨hdec, ?_⟩
    rw [hstored, ← hsame t hlast]
    cases t' with
    | none =>
        cases t with
        | none => exact hcuts.none f
        | some w => cases hkind
    | some w' =>
        obtain ⟨hdec', hlt', hsame'⟩ := hfits f w' hmem'
        rw [(hcuts.digits f w' hdec').mpr hlt', hsame' t hlast]

/-! ## Digits -/

/-- A digit is neither a space nor a sign. -/
theorem digit_plain {c : Char} (h : c.isDigit = true) :
    SaParse.isSpace c = false ∧ c ≠ '-' ∧ c ≠ '+' := by
  have hlow : 48 ≤ c.val := (Bool.and_eq_true _ _ ▸ h : _ ∧ _).1 |> of_decide_eq_true
  refine ⟨?_, fun hc => ?_, fun hc => ?_⟩
  · rw [SaParse.isSpace, Bool.or_eq_false_iff, Bool.and_eq_false_iff]
    refine ⟨decide_eq_false fun hc => ?_, .inr (decide_eq_false fun hc => ?_)⟩
    · rw [hc] at hlow
      exact absurd hlow (by decide)
    · exact absurd (UInt32.le_trans hlow hc) (by decide)
  · rw [hc] at hlow
    exact absurd hlow (by decide)
  · rw [hc] at hlow
    exact absurd hlow (by decide)

theorem signed_digits {s : List Char} (h : IsDecimal s) : SaParse.signed s = (false, s) := by
  obtain ⟨hne, hdigits⟩ := h
  cases s with
  | nil => exact absurd rfl hne
  | cons c s =>
      obtain ⟨hspace, hminus, hplus⟩ := digit_plain (hdigits c List.mem_cons_self)
      rw [SaParse.signed, List.dropWhile_cons_of_neg (by rw [hspace]; exact Bool.false_ne_true)]
      split
      · rename_i heq
        exact absurd (List.cons.inj heq).1 hminus
      · rename_i heq
        exact absurd (List.cons.inj heq).1 hplus
      · rfl

theorem decDigits_digits (s : List Char) (h : ∀ c ∈ s, c.isDigit = true) (n : Nat) :
    SaParse.decDigits n s = s.foldl (fun n c => 10 * n + (c.toNat - 48)) n := by
  induction s generalizing n with
  | nil => rfl
  | cons c s ih =>
      rw [SaParse.decDigits, if_pos (h c List.mem_cons_self)]
      exact ih (fun d hd => h d (List.mem_cons_of_mem c hd)) _

/-- `strtol` of digits is their number, up to the bound of a `long`. -/
theorem strtol10_digits {tok : String} (h : IsDecimal tok.toList) :
    SaParse.strtol10 tok = min (decValue tok : Int) 0x7fffffffffffffff := by
  rw [SaParse.strtol10, signed_digits h]
  dsimp only
  rw [decDigits_digits _ h.2]
  rfl

theorem atoiText_digits {tok : String} (h : IsDecimal tok.toList) :
    SaParse.atoiText tok = atoi tok := by
  rw [SaParse.atoiText, strtol10_digits h, atoi]
  apply UInt32.toNat_inj.mp
  rw [UInt32.ofInt, UInt32.toNat_ofNat', UInt32.toNat_ofNat']
  omega

/-- What fields of 32, 16 and 8 bits keep of digits. -/
theorem atoi_exact (tok : String) :
    (((atoi tok).toNat : Int) = decValue tok ↔ decValue tok < 2 ^ 32)
      ∧ (((atoi tok).toUInt16.toNat : Int) = decValue tok ↔ decValue tok < 2 ^ 16)
      ∧ (((atoi tok).toUInt8.toNat : Int) = decValue tok ↔ decValue tok < 2 ^ 8) := by
  have hatoi : (atoi tok).toNat = min (decValue tok) 0x7fffffffffffffff % 2 ^ 32 := by
    rw [atoi, UInt32.toNat_ofNat']
  rw [UInt32.toNat_toUInt16, UInt32.toNat_toUInt8, hatoi]
  refine ⟨?_, ?_, ?_⟩ <;> omega

/-! ## SA lines -/

section Sa

open SaParse

/-- The fields of a SA a number is stored in. -/
inductive SaField
  | spi
  | portid
  | mss
  | esn
  | fdirQid
  deriving DecidableEq

/-- Their values. -/
def saHeld (rule : SaRule) : SaField → Int
  | .spi => rule.spi.toNat
  | .portid => rule.portid.toNat
  | .mss => rule.mss.toNat
  | .esn => rule.esn.toNat
  | .fdirQid => rule.fdirQid.toNat

/-- What is stored for a text. -/
def saStored : SaField → Option String → Int
  | _, none => 0
  | .spi, some tok => (atoiText tok).toNat
  | .portid, some tok => (atoiText tok).toUInt16.toNat
  | .mss, some tok => (atoiText tok).toUInt16.toNat
  | .esn, some tok => (UInt64.ofInt (strtol10 tok)).toNat
  | .fdirQid, some tok => (atoiText tok).toUInt8.toNat

/-- The numbers that fit; `strtoll` stops at `LLONG_MAX`. -/
def saBound : SaField → Nat
  | .spi => 2 ^ 32
  | .portid => 2 ^ 16
  | .mss => 2 ^ 16
  | .esn => 2 ^ 63
  | .fdirQid => 2 ^ 8

theorem saCuts : Cuts saStored saBound where
  pos := fun f => by cases f <;> decide
  none := fun f => by cases f <;> rfl
  digits := fun f tok h => by
    have hexact := atoi_exact tok
    rw [← atoiText_digits h] at hexact
    cases f with
    | spi => exact hexact.1
    | portid => exact hexact.2.1
    | mss => exact hexact.2.1
    | fdirQid => exact hexact.2.2
    | esn =>
        show ((UInt64.ofInt (strtol10 tok)).toNat : Int) = _ ↔ decValue tok < 2 ^ 63
        rw [strtol10_digits h, UInt64.ofInt, UInt64.toNat_ofNat']
        omega

/-- The numbers an option gives. -/
def optNums : SaOpt → Named SaField
  | .portId port => [(.portid, some port)]
  | .mss value => [(.mss, some value)]
  | .esn value => [(.esn, some value)]
  | .flowDirection port queue => [(.portid, some port), (.fdirQid, some queue)]
  | _ => []

/-- The numbers of a line. -/
def saNums (tokens : List String) : Named SaField :=
  tokens.head?.toList.map (fun spi => (.spi, some spi)) ++ (lineOpts tokens).flatMap optNums

/-- The rule follows the numbers read so far; a port that is none has not been
    named. -/
structure SaFollows (nums : Named SaField) (rule : SaRule) : Prop where
  follows : Follows Option.isSome saStored (saHeld rule) nums
  texts : ∀ f t, (f, t) ∈ nums → t.isSome = true
  start : last .portid nums = none → rule.portid = 0xffff

variable {nums : Named SaField} {rule rule' : SaRule}

/-- A number is stored. -/
theorem SaFollows.put {f : SaField} {tok : String} (h : SaFollows nums rule)
    (hput : saHeld rule' f = saStored f (some tok))
    (hkeep : ∀ g, g ≠ f → saHeld rule' g = saHeld rule g) :
    SaFollows (nums ++ [(f, some tok)]) rule' := by
  refine ⟨h.follows.put hput hkeep, fun g t hmem => ?_, fun hlast => ?_⟩
  · rcases List.mem_append.mp hmem with hmem | hmem
    · exact h.texts g t hmem
    · cases List.mem_singleton.mp hmem
      rfl
  · rw [last_append] at hlast
    split at hlast
    · cases hlast
    · rename_i hf
      have hsame := hkeep .portid (Ne.symm hf)
      rw [← h.start hlast]
      exact UInt16.toNat_inj.mp (Int.ofNat_inj.mp hsame)

/-- Nothing is stored. -/
theorem SaFollows.congr (h : SaFollows nums rule) (hkeep : ∀ f, saHeld rule' f = saHeld rule f) :
    SaFollows nums rule' := by
  refine ⟨h.follows.congr hkeep, h.texts, fun hlast => ?_⟩
  rw [← h.start hlast]
  exact UInt16.toNat_inj.mp (Int.ofNat_inj.mp (hkeep .portid))

/-- A port is stored when it is the first, else compared. -/
theorem SaFollows.port {tok : String} {p : UInt16} (h : SaFollows nums rule)
    (htaken : PortTaken rule.portid tok p) :
    SaFollows (nums ++ [(.portid, some tok)]) { rule with portid := p } := by
  unfold PortTaken at htaken
  split at htaken
  · rw [htaken]
    exact h.put rfl fun g hg => by cases g <;> first | rfl | exact absurd rfl hg
  · -- a port that is there has been named
    rename_i hfree
    obtain ⟨-, rfl⟩ := htaken
    obtain ⟨t, hlast⟩ : ∃ t, last .portid nums = some t :=
      Option.ne_none_iff_exists'.mp fun hnone => hfree (h.start hnone)
    refine ⟨h.follows.same hlast ?_, fun g t hmem => ?_, fun hnone => ?_⟩
    · exact h.texts _ t (last_mem hlast)
    · rcases List.mem_append.mp hmem with hmem | hmem
      · exact h.texts g t hmem
      · cases List.mem_singleton.mp hmem
        rfl
    · rw [last_append, if_pos rfl] at hnone
      cases hnone

variable {env : SaEnv} {c c' : SaCore}

/-- **AN OPTION**: its numbers are read. -/
theorem saStep_follows {o : SaOpt} (hstep : SaStep env o c c') (h : SaFollows nums c.rule) :
    SaFollows (nums ++ optNums o) c'.rule := by
  have hnone : ∀ {o : SaOpt}, optNums o = [] → (∀ f, saHeld c'.rule f = saHeld c.rule f) →
      SaFollows (nums ++ optNums o) c'.rule := by
    intro o ho hkeep
    rw [ho, List.append_nil]
    exact h.congr hkeep
  cases hstep with
  | portId hp hport => exact h.port hport
  | mss => exact h.put rfl fun g hg => by cases g <;> first | rfl | exact absurd rfl hg
  | esn => exact h.put rfl fun g hg => by cases g <;> first | rfl | exact absurd rfl hg
  | @flowDirection _ port queue p htype hport =>
      have hboth : SaFollows ((nums ++ [(.portid, some port)]) ++ [(.fdirQid, some queue)])
          { c.rule with fdirFlag := 1, portid := p, fdirQid := (atoiText queue).toUInt8 } :=
        (h.port hport).put rfl fun g hg => by cases g <;> first | rfl | exact absurd rfl hg
      rw [List.append_assoc] at hboth
      exact hboth
  | cipher hp halgo hn hkey hlen hsalt =>
      obtain ⟨keys, salt, hrule⟩ := hsalt.rule
      exact hnone rfl fun f => by rw [hrule]; cases f <;> rfl
  | auth hp halgo hn hkey hlen hsalt =>
      obtain ⟨ivLen, keys, salt, hrule⟩ := hsalt.rule
      exact hnone rfl fun f => by rw [hrule]; cases f <;> rfl
  | aead hp halgo hkey hlen hsalt =>
      obtain ⟨salt, hrule⟩ := takeSalt_rule hsalt
      exact hnone rfl fun f => by rw [hrule]; cases f <;> rfl
  | _ => exact hnone rfl fun f => by cases f <;> rfl

/-- **A RUN** over the options of a line. -/
theorem saSteps_follows {opts : List SaOpt} (hsteps : SaSteps env opts c c')
    (h : SaFollows nums c.rule) : SaFollows (nums ++ opts.flatMap optNums) c'.rule := by
  induction hsteps generalizing nums with
  | nil =>
      rw [List.flatMap_nil, List.append_nil]
      exact h
  | cons hstep _ ih =>
      rw [List.flatMap_cons, ← List.append_assoc]
      exact ih (saStep_follows hstep h)

theorem sa_follows {t : SaTables} {tok : String} {tokens : List String} {st : ParseStatus}
    (h : SaParse.Accepts env t tok tokens st rule) :
    Follows Option.isSome saStored (saHeld rule) (saNums tokens) := by
  obtain ⟨spi, cnt, nb, udp, c, ⟨spiTok, hhead, -, hspi, -⟩, hsteps, -, rfl⟩ := h.steps
  have hstart : SaFollows [(.spi, some spiTok)]
      (lineStart (lineDirection tok) spi cnt nb udp).rule := by
    refine ⟨follows_all fun f t hmem => ?_, fun f t hmem => ?_, fun _ => rfl⟩
    · cases List.mem_singleton.mp hmem
      show ((spi.toNat : Nat) : Int) = _
      rw [hspi]
      rfl
    · cases List.mem_singleton.mp hmem
      rfl
  have hrun := (saSteps_follows hsteps hstart).follows
  rw [saNums, hhead]
  refine hrun.congr fun f => ?_
  rw [SaCore.settle]
  split
  · cases f <;> rfl
  · rfl

end Sa

/-! ## SP lines -/

section Sp

open SpParse

/-- The fields of a SP rule a number is stored in. -/
inductive SpField
  | userdata
  | priority
  deriving DecidableEq

/-- The number an `int32_t` is by its bits. -/
def int32 (x : UInt32) : Int := if x.toNat < 2 ^ 31 then x.toNat else x.toNat - 2 ^ 32

/-- Their values. -/
def spHeld {n : Nat} (rule : SpRule n) : SpField → Int
  | .userdata => rule.userdata.toNat
  | .priority => int32 rule.priority

/-- What is stored for a text. -/
def spStored : SpField → Option String → Int
  | _, none => 0
  | .userdata, some tok => (atoi tok).toNat
  | .priority, some tok => int32 (atoi tok)

/-- The numbers that fit. -/
def spBound : SpField → Nat
  | .userdata => 2 ^ 32
  | .priority => 2 ^ 31

theorem spCuts : Cuts spStored spBound where
  pos := fun f => by cases f <;> decide
  none := fun f => by cases f <;> rfl
  digits := fun f tok _ => by
    cases f with
    | userdata => exact (atoi_exact tok).1
    | priority =>
        show int32 (atoi tok) = _ ↔ decValue tok < 2 ^ 31
        rw [int32, atoi, UInt32.toNat_ofNat']
        split <;> omega

/-- The numbers an option gives. -/
def spOptNums : SpOpt → Named SpField
  | .protect spi => [(.userdata, some spi)]
  | .pri value => [(.priority, some value)]
  | _ => []

/-- The numbers of a line. -/
def spNums (tokens : List String) : Named SpField := (lineOpts tokens).flatMap spOptNums

theorem sp_follows {n : Nat} {fam : SpFamily n} {memory : Bool} {t : SpTables n}
    {tok : String} {tokens : List String} {st : ParseStatus} {rule : SpRule n}
    (h : SpParse.Accepts fam memory t tok tokens st rule) :
    Follows Option.isSome spStored (spHeld rule) (spNums tokens) := by
  obtain ⟨c, rfl, hwritten⟩ := h.written
  refine follows_all fun f t hmem => ?_
  obtain ⟨o, ho, hmem⟩ := List.mem_flatMap.mp hmem
  have hw := hwritten o ho
  cases o with
  | protect spi =>
      cases List.mem_singleton.mp hmem
      exact congrArg (fun x : UInt32 => (x.toNat : Int)) hw.2.2
  | pri value =>
      cases List.mem_singleton.mp hmem
      exact congrArg int32 hw.2.2
  | _ => cases hmem

end Sp

/-! ## Route lines -/

section Rt

open Rt

/-- The fields of a route a number is stored in. -/
inductive RtField
  | depth
  | ifOut
  deriving DecidableEq

/-- Their values. -/
def rtHeld (depth ifOut : UInt8) : RtField → Int
  | .depth => depth.toNat
  | .ifOut => ifOut.toNat

/-- What is stored for a text. -/
def rtStored : RtField → Option String → Int
  | _, none => 0
  | _, some tok => (atoi tok).toUInt8.toNat

/-- The numbers that fit. -/
def rtBound : RtField → Nat := fun _ => 2 ^ 8

theorem rtCuts : Cuts rtStored rtBound where
  pos := fun _ => Nat.two_pow_pos 8
  none := fun f => by cases f <;> rfl
  digits := fun f tok _ => by
    cases f with
    | depth => exact (atoi_exact tok).2.2
    | ifOut => exact (atoi_exact tok).2.2

/-- The numbers of a line, behind its first token. -/
def rtNums : List String → Named RtField
  | [] => []
  | [_] => []
  | tok :: arg :: rest =>
      if tok = "dst" then (.depth, behindSlash arg) :: rtNums rest
      else if tok = "port" then (.ifOut, some arg) :: rtNums rest
      else rtNums (arg :: rest)

theorem rtNums_pass {tok : String} (hdst : tok ≠ "dst") (hport : tok ≠ "port")
    (rest : List String) : rtNums (tok :: rest) = rtNums rest := by
  cases rest with
  | nil => rfl
  | cons arg rest => rw [rtNums, if_neg hdst, if_neg hport]

variable {α : Type} {fam : RtFamily α} {s s' : RtScan α} {nums : Named RtField}

/-- The mask of an address is the number behind its slash. -/
def MaskRead (fam : RtFamily α) : Prop :=
  ∀ tok a, fam.parse tok = some a → parseMask tok = some a.2

theorem rtIpv4_maskRead (net : InetPton) : MaskRead (rtIpv4 net) := by
  intro tok a h
  obtain ⟨r, hr, rfl⟩ := Option.map_eq_some_iff.mp h
  rw [parseIpv4Addr] at hr
  split at hr
  · cases hr
  · rename_i mask hmask
    obtain ⟨ip, -, rfl⟩ := Option.map_eq_some_iff.mp hr
    exact hmask

theorem rtIpv6_maskRead (net : InetPton) : MaskRead (rtIpv6 net) := by
  intro tok a h
  obtain ⟨r, hr, rfl⟩ := Option.map_eq_some_iff.mp h
  rw [parseIpv6Addr] at hr
  split at hr
  · cases hr
  · rename_i mask hmask
    split at hr
    · cases hr
    · obtain ⟨ip, -, rfl⟩ := Option.map_eq_some_iff.mp hr
      exact hmask

/-- What is kept of a mask. -/
theorem mask_stored {tok : String} {mask : UInt32} (h : parseMask tok = some mask) :
    (mask.toUInt8.toNat : Int) = rtStored .depth (behindSlash tok) := by
  rw [parseMask] at h
  cases hslash : behindSlash tok with
  | none =>
      rw [hslash] at h
      cases h
      rfl
  | some pch =>
      rw [hslash] at h
      dsimp only at h
      split at h
      · cases h
        rfl
      · cases h

theorem rtNext_ok (h : s.next = .ok s') :
    s.rest = s'.cur :: s'.rest ∧ s'.route = s.route := by
  rw [RtScan.next] at h
  cases hrest : s.rest with
  | nil =>
      rw [hrest] at h
      cases h
  | cons t rest =>
      rw [hrest] at h
      cases h
      exact ⟨rfl, rfl⟩

theorem rtDst_ok (hmask : MaskRead fam) (h : rtDst fam s = .ok s') (hcur : s.cur = "dst") :
    s.rest = s'.cur :: s'.rest ∧ fam.parse s'.cur ≠ none
      ∧ (s'.route.depth.toNat : Int) = rtStored .depth (behindSlash s'.cur)
      ∧ s'.route.ifOut = s.route.ifOut := by
  rw [rtDst, if_pos hcur] at h
  obtain ⟨s1, h1, h⟩ := bind_ok h
  obtain ⟨hrest, hroute⟩ := rtNext_ok h1
  split at h
  · cases h
  · rename_i ip depth hparse
    cases h
    refine ⟨hrest, hparse ▸ Option.some_ne_none _, mask_stored (hmask _ _ hparse), ?_⟩
    rw [← hroute]

theorem rtPort_ok (h : rtPort s = .ok s') (hcur : s.cur = "port") :
    s.rest = s'.cur :: s'.rest ∧ s'.route.ifOut = (atoi s'.cur).toUInt8
      ∧ s'.route.depth = s.route.depth := by
  rw [rtPort, if_pos hcur] at h
  obtain ⟨s1, h1, h⟩ := bind_ok h
  obtain ⟨hrest, hroute⟩ := rtNext_ok h1
  split at h
  · cases h
    refine ⟨hrest, rfl, ?_⟩
    rw [← hroute]
  · cases h

/-- **THE LOOP** reads the numbers of the tokens. -/
theorem rtLoop_follows (hmask : MaskRead fam) (hfree : TxPort.KeywordFree fam) (n : Nat)
    (hn : s.rest.length ≤ n) (h : rtLoop fam n s = .ok s')
    (hnums : Follows Option.isSome rtStored (rtHeld s.route.depth s.route.ifOut) nums) :
    Follows Option.isSome rtStored (rtHeld s'.route.depth s'.route.ifOut)
      (nums ++ rtNums s.rest) := by
  induction n generalizing s nums with
  | zero =>
      cases h
      rw [List.eq_nil_of_length_eq_zero (Nat.le_zero.mp hn), rtNums, List.append_nil]
      exact hnums
  | succ n ih =>
      rw [rtLoop] at h
      cases hrest : s.rest with
      | nil =>
          rw [hrest] at h
          cases h
          rw [rtNums, List.append_nil]
          exact hnums
      | cons t rest =>
          rw [hrest] at h hn
          obtain ⟨s1, h1, hbehind⟩ := bind_ok h
          obtain ⟨s2, h2, hloop⟩ := bind_ok hbehind
          clear h hbehind
          rw [List.length_cons] at hn
          by_cases hdst : t = "dst"
          · -- the address is no keyword, so the round is over
            obtain ⟨hrest1, hread, hdepth, hport⟩ := rtDst_ok hmask h1 hdst
            have hrest1 : rest = s1.cur :: s1.rest := hrest1
            have hnot : s1.cur ≠ "port" := by
              intro hcur
              rw [hcur] at hread
              exact hread hfree
            rw [rtPort, if_neg hnot] at h2
            cases h2
            rw [hrest1, rtNums, if_pos hdst, List.append_cons]
            rw [hrest1, List.length_cons] at hn
            refine ih (by omega) hloop (hnums.put hdepth fun g hg => ?_)
            cases g with
            | depth => exact absurd rfl hg
            | ifOut => exact congrArg (fun x : UInt8 => (x.toNat : Int)) hport
          · rw [rtDst, if_neg hdst] at h1
            cases h1
            by_cases hport : t = "port"
            · obtain ⟨hrest2, hifOut, hdepth⟩ := rtPort_ok h2 hport
              have hrest2 : rest = s2.cur :: s2.rest := hrest2
              rw [hrest2, rtNums, if_neg hdst, if_pos hport, List.append_cons]
              rw [hrest2, List.length_cons] at hn
              refine ih (by omega) hloop (hnums.put ?_ fun g hg => ?_)
              · exact congrArg (fun x : UInt8 => (x.toNat : Int)) hifOut
              · cases g with
                | ifOut => exact absurd rfl hg
                | depth => exact congrArg (fun x : UInt8 => (x.toNat : Int)) hdepth
            · rw [rtPort, if_neg hport] at h2
              cases h2
              rw [rtNums_pass hdst hport]
              exact ih (Nat.le_of_succ_le_succ hn) hloop hnums

/-- `parse_rt_tokens` has added a route. -/
def RtAccepts (net : InetPton) (t : RtTables) (tok : String) (tokens : List String)
    (st : ParseStatus) (depth ifOut : UInt8) : Prop :=
  ∃ t' st', parseRtTokens net t tok tokens st = (t', st')
    ∧ ((∃ ip, t'.rtIp4 = t.rtIp4 ++ [⟨ip, depth, ifOut⟩])
      ∨ ∃ ip, t'.rtIp6 = t.rtIp6 ++ [⟨ip, depth, ifOut⟩])

/-- An array that has grown has grown by the route of the loop. -/
theorem rtAdd_follows (hmask : MaskRead fam) (hfree : TxPort.KeywordFree fam)
    {routes : List (Route α)} {tok : String} {tokens : List String} {st : ParseStatus}
    {route : Route α} (h : (rtAdd fam routes tok tokens st).1 = routes ++ [route]) :
    Follows Option.isSome rtStored (rtHeld route.depth route.ifOut) (rtNums tokens) := by
  have hgrown : routes ≠ routes ++ [route] := by
    intro hl
    have hlen := congrArg List.length hl
    rw [List.length_append, List.length_singleton] at hlen
    omega
  rw [rtAdd] at h
  split at h
  · split at h
    · rename_i s hloop
      have hroute : s.route = route := (List.cons.inj (List.append_cancel_left h)).1
      rw [← hroute]
      exact rtLoop_follows hmask hfree tokens.length (Nat.le_refl tokens.length) hloop
        follows_nil
    · exact absurd h hgrown
  · exact absurd h hgrown

theorem rt_follows {net : InetPton} {t : RtTables} {tok : String} {tokens : List String}
    {st : ParseStatus} {depth ifOut : UInt8} (h : RtAccepts net t tok tokens st depth ifOut) :
    Follows Option.isSome rtStored (rtHeld depth ifOut) (rtNums tokens) := by
  have hgrown : ∀ {β : Type} (l : List β) (x : β), l ≠ l ++ [x] := by
    intro β l x hl
    have hlen := congrArg List.length hl
    rw [List.length_append, List.length_singleton] at hlen
    omega
  obtain ⟨t', st', hparse, hadded⟩ := h
  rw [parseRtTokens] at hparse
  split at hparse
  · cases hparse
    rcases hadded with ⟨ip, hadded⟩ | ⟨ip, hadded⟩
    · exact rtAdd_follows (rtIpv4_maskRead net) (TxPort.ipv4_keywordFree net) hadded
    · exact absurd hadded (hgrown _ _)
  · split at hparse
    · cases hparse
      rcases hadded with ⟨ip, hadded⟩ | ⟨ip, hadded⟩
      · exact absurd hadded (hgrown _ _)
      · exact rtAdd_follows (rtIpv6_maskRead net) (TxPort.ipv6_keywordFree net) hadded
    · cases hparse
      rcases hadded with ⟨ip, hadded⟩ | ⟨ip, hadded⟩
      · exact absurd hadded (hgrown _ _)
      · exact absurd hadded (hgrown _ _)

end Rt

/-! ## Flow lines -/

section Flow

open FlowRule

/-- The fields of a flow rule a number is stored in. -/
inductive FlowField
  | port
  | queue
  deriving DecidableEq

/-- Their values. -/
def flowHeld (rule : FlowRuleEntry) : FlowField → Int
  | .port => rule.port.toNat
  | .queue => rule.queue.toNat

/-- What is stored for a text. -/
def flowStored : FlowField → Option String → Int
  | _, none => 0
  | _, some tok => (atoi tok).toUInt16.toNat

/-- The numbers that fit. -/
def flowBound : FlowField → Nat := fun _ => 2 ^ 16

theorem flowCuts : Cuts flowStored flowBound where
  pos := fun _ => Nat.two_pow_pos 16
  none := fun f => by cases f <;> rfl
  digits := fun f tok _ => by
    cases f with
    | port => exact (atoi_exact tok).2.1
    | queue => exact (atoi_exact tok).2.1

/-- The numbers of a line, behind its first token. -/
def flowNums : List String → Named FlowField
  | [] => []
  | [_] => []
  | tok :: arg :: rest =>
      if (sideOf tok).isSome then flowNums rest
      else if tok = "port" then (.port, some arg) :: flowNums rest
      else if tok = "queue" then (.queue, some arg) :: flowNums rest
      else flowNums (arg :: rest)

theorem flowNums_pass {tok : String} (hside : sideOf tok = none) (hport : tok ≠ "port")
    (hqueue : tok ≠ "queue") (rest : List String) :
    flowNums (tok :: rest) = flowNums rest := by
  cases rest with
  | nil => rfl
  | cons arg rest =>
      rw [flowNums, hside, if_neg (by decide), if_neg hport, if_neg hqueue]

variable {env : FlowEnv} {s s' : FlowScan} {nums : Named FlowField}

theorem flowNext_ok (h : s.next = .ok s') :
    s.rest = s'.cur :: s'.rest ∧ s'.rule = s.rule := by
  rw [FlowScan.next] at h
  cases hrest : s.rest with
  | nil =>
      rw [hrest] at h
      cases h
  | cons t rest =>
      rw [hrest] at h
      cases h
      exact ⟨rfl, rfl⟩

theorem flowAddr_ok {side : Side} (h : flowAddr env side s = .ok s')
    (hcur : s.cur = side.keyword) :
    s.rest = s'.cur :: s'.rest ∧ s'.rule.port = s.rule.port ∧ s'.rule.queue = s.rule.queue := by
  rw [flowAddr, if_pos hcur] at h
  obtain ⟨s1, h1, h⟩ := bind_ok h
  obtain ⟨hrest, hrule⟩ := flowNext_ok h1
  split at h
  · obtain ⟨r, -, h⟩ := bind_ok h
    cases h
    rw [← hrule]
    exact ⟨hrest, rfl, rfl⟩
  · obtain ⟨r, -, h⟩ := bind_ok h
    cases h
    rw [← hrule]
    exact ⟨hrest, rfl, rfl⟩

theorem flowIsNum_ok (h : s.isNum = .ok s') :
    isStrNum s.cur = true ∧ s'.cur = s.cur ∧ s'.rest = s.rest ∧ s'.rule = s.rule := by
  rw [FlowScan.isNum] at h
  split at h
  · rename_i hnum
    cases h
    exact ⟨hnum, rfl, rfl, rfl⟩
  · cases h

theorem flowPort_ok (h : flowPort s = .ok s') (hcur : s.cur = "port") :
    s.rest = s'.cur :: s'.rest ∧ isStrNum s'.cur = true
      ∧ s'.rule = { s.rule with port := (atoi s'.cur).toUInt16 } := by
  rw [flowPort, if_pos hcur] at h
  obtain ⟨s1, h1, h⟩ := bind_ok h
  obtain ⟨hrest, hrule⟩ := flowNext_ok h1
  obtain ⟨s2, h2, h⟩ := bind_ok h
  obtain ⟨hnum, hcur2, hrest2, hrule2⟩ := flowIsNum_ok h2
  cases h
  rw [← hrule, ← hrule2, hrest, hcur2, hrest2]
  exact ⟨rfl, hnum, rfl⟩

theorem flowQueue_ok (h : flowQueue s = .ok s') (hcur : s.cur = "queue") :
    s.rest = s'.cur :: s'.rest
      ∧ s'.rule = { s.rule with queue := (atoi s'.cur).toUInt16 } := by
  rw [flowQueue, if_pos hcur] at h
  obtain ⟨s1, h1, h⟩ := bind_ok h
  obtain ⟨hrest, hrule⟩ := flowNext_ok h1
  obtain ⟨s2, h2, h⟩ := bind_ok h
  obtain ⟨-, hcur2, hrest2, hrule2⟩ := flowIsNum_ok h2
  cases h
  rw [← hrule, ← hrule2, hrest, hcur2, hrest2]
  exact ⟨rfl, rfl⟩

/-- **THE LOOP** reads the numbers of the tokens. -/
theorem flowLoop_follows (n : Nat) (hn : s.rest.length ≤ n) (h : flowLoop env n s = .ok s')
    (hnums : Follows Option.isSome flowStored (flowHeld s.rule) nums) :
    Follows Option.isSome flowStored (flowHeld s'.rule) (nums ++ flowNums s.rest) := by
  induction n generalizing s nums with
  | zero =>
      cases h
      rw [List.eq_nil_of_length_eq_zero (Nat.le_zero.mp hn), flowNums, List.append_nil]
      exact hnums
  | succ n ih =>
      rw [flowLoop] at h
      cases hrest : s.rest with
      | nil =>
          rw [hrest] at h
          cases h
          rw [flowNums, List.append_nil]
          exact hnums
      | cons t rest =>
          rw [hrest] at h hn
          obtain ⟨s1, h1, hloop⟩ := bind_ok h
          clear h
          rw [List.length_cons] at hn
          cases hside : sideOf t with
          | some side =>
              rw [flowRound_addr env (sideOf_keyword hside)] at h1
              obtain ⟨hrest1, hport, hqueue⟩ := flowAddr_ok h1 (sideOf_keyword hside)
              have hrest1 : rest = s1.cur :: s1.rest := hrest1
              rw [hrest1, flowNums, hside, if_pos (show (some side).isSome = true from rfl)]
              rw [hrest1, List.length_cons] at hn
              refine ih (by omega) hloop (hnums.congr fun f => ?_)
              cases f with
              | port => exact congrArg (fun x : UInt16 => (x.toNat : Int)) hport
              | queue => exact congrArg (fun x : UInt16 => (x.toNat : Int)) hqueue
          | none =>
              rw [flowRound_behind env hside] at h1
              by_cases hport : t = "port"
              · -- a number is no keyword, so the round is over
                obtain ⟨s2, h2, h1⟩ := bind_ok h1
                obtain ⟨hrest2, hnum, hrule⟩ := flowPort_ok h2 hport
                have hrest2 : rest = s2.cur :: s2.rest := hrest2
                have hnot : s2.cur ≠ "queue" := by
                  intro hcur
                  rw [hcur] at hnum
                  exact absurd hnum (by decide)
                rw [flowQueue_pass hnot] at h1
                cases h1
                rw [hrest2, flowNums, hside, if_neg (by decide), if_pos hport, List.append_cons]
                rw [hrest2, List.length_cons] at hn
                refine ih (by omega) hloop ?_
                rw [hrule]
                exact hnums.put rfl fun g hg => by
                  cases g <;> first | rfl | exact absurd rfl hg
              · rw [flowPort_pass hport] at h1
                by_cases hqueue : t = "queue"
                · obtain ⟨hrest2, hrule⟩ := flowQueue_ok h1 hqueue
                  have hrest2 : rest = s1.cur :: s1.rest := hrest2
                  rw [hrest2, flowNums, hside, if_neg (by decide), if_neg hport, if_pos hqueue,
                    List.append_cons]
                  rw [hrest2, List.length_cons] at hn
                  refine ih (by omega) hloop ?_
                  rw [hrule]
                  exact hnums.put rfl fun g hg => by
                    cases g <;> first | rfl | exact absurd rfl hg
                · have h1 : flowQueue ⟨t, rest, s.rule, s.st⟩ = .ok s1 := h1
                  rw [flowQueue_pass hqueue] at h1
                  cases h1
                  rw [flowNums_pass hside hport hqueue]
                  exact ih (Nat.le_of_succ_le_succ hn) hloop hnums

/-- `parse_flow_tokens` has added a rule. -/
def FlowAccepts (env : FlowEnv) (tbl : List FlowRuleEntry) (tok : String)
    (tokens : List String) (st : ParseStatus) (rule : FlowRuleEntry) : Prop :=
  ∃ st', parseFlowTokens env tbl tok tokens st = .ok (tbl ++ [rule], st')

theorem flow_follows {tbl : List FlowRuleEntry} {tok : String} {tokens : List String}
    {st : ParseStatus} {rule : FlowRuleEntry} (h : FlowAccepts env tbl tok tokens st rule) :
    Follows Option.isSome flowStored (flowHeld rule) (flowNums tokens) := by
  obtain ⟨st', hparse⟩ := h
  have hgrown : tbl ≠ tbl ++ [rule] := by
    intro hl
    have hlen := congrArg List.length hl
    rw [List.length_append, List.length_singleton] at hlen
    omega
  rw [parseFlowTokens] at hparse
  split at hparse
  · exact absurd (congrArg Prod.fst (Except.ok.inj hparse)) hgrown
  · split at hparse
    · exact absurd (congrArg Prod.fst (Except.ok.inj hparse)) hgrown
    · split at hparse
      · rename_i s hloop
        have htbl := congrArg Prod.fst (Except.ok.inj hparse)
        have hrule : s.rule = rule := (List.cons.inj (List.append_cancel_left htbl)).1
        rw [← hrule]
        exact flowLoop_follows tokens.length (Nat.le_refl tokens.length) hloop follows_nil
      · exact absurd (congrArg Prod.fst (Except.ok.inj hparse)) hgrown
      · cases hparse

end Flow

/-! ## All lines -/

section Lines

open SaParse SpParse Rt FlowRule

variable {saEnv : SaEnv} {saTables : SaTables} {saRule : SaRule} {n : Nat} {fam : SpFamily n}
  {memory : Bool} {spTables : SpTables n} {spRule : SpRule n} {net : InetPton}
  {rtTables : RtTables} {depth ifOut : UInt8} {flowEnv : FlowEnv} {tbl : List FlowRuleEntry}
  {flowRule : FlowRuleEntry} {tok : String} {tokens : List String} {st : ParseStatus}

/-- **EXACT**: the rule of an accepted line holds the numbers of the line exactly when
    they fit. -/
theorem numbers_iff :
    (SaParse.Accepts saEnv saTables tok tokens st saRule →
        (Exact (saHeld saRule) (saNums tokens) ↔ Fits saBound (saNums tokens)))
      ∧ (SpParse.Accepts fam memory spTables tok tokens st spRule →
        (Exact (spHeld spRule) (spNums tokens) ↔ Fits spBound (spNums tokens)))
      ∧ (RtAccepts net rtTables tok tokens st depth ifOut →
        (Exact (rtHeld depth ifOut) (rtNums tokens) ↔ Fits rtBound (rtNums tokens)))
      ∧ (FlowAccepts flowEnv tbl tok tokens st flowRule →
        (Exact (flowHeld flowRule) (flowNums tokens) ↔ Fits flowBound (flowNums tokens))) :=
  ⟨fun h => exact_iff saCuts (sa_follows h), fun h => exact_iff spCuts (sp_follows h),
    fun h => exact_iff rtCuts (rt_follows h), fun h => exact_iff flowCuts (flow_follows h)⟩

/-- A SA line with an option. -/
def saTokens (option value : String) : List String :=
  ["5", "mode", "transport", "cipher_algo", "null", "auth_algo", "null", option, value]

/-- A SP line with a priority. -/
def priTokens (value : String) : List String := ["esp", "bypass", "pri", value]

/-- The rule it becomes. -/
def priRule (priority : UInt32) : SpRule 1 where
  categoryMask := 1
  priority := priority
  userdata := SaModel.bypass

/-- A route or a flow line with a port. -/
def portTokens (value : String) : List String := ["port", value]

/-- Lines whose numbers fit. -/
theorem small_accepted :
    (∃ rule, SaParse.Accepts libraryEnv {} "in" (saTokens "mss" "1400") {} rule)
      ∧ SpParse.Accepts (sp4 ParseAddr.longest) true {} "ipv4" ("out" :: priTokens "7") {}
        (priRule 7)
      ∧ RtAccepts ParseAddr.longest {} "ipv4" (portTokens "3") {} 0 3
      ∧ FlowAccepts modularShift [] "ipv4" (portTokens "3") {} { isIpv4 := true, port := 3 } :=
  ⟨⟨_, _, _, rfl, rfl⟩, accepts_fresh (by decide), ⟨_, _, rfl, .inl ⟨0, rfl⟩⟩, _, rfl⟩

theorem numbers_iff_small :
    (∃ rule, SaParse.Accepts libraryEnv {} "in" (saTokens "mss" "1400") {} rule
        ∧ (Exact (saHeld rule) (saNums (saTokens "mss" "1400"))
          ↔ Fits saBound (saNums (saTokens "mss" "1400"))))
      ∧ (Exact (spHeld (priRule 7)) (spNums ("out" :: priTokens "7"))
        ↔ Fits spBound (spNums ("out" :: priTokens "7")))
      ∧ (Exact (rtHeld 0 3) (rtNums (portTokens "3")) ↔ Fits rtBound (rtNums (portTokens "3")))
      ∧ (Exact (flowHeld { isIpv4 := true, port := 3 }) (flowNums (portTokens "3"))
        ↔ Fits flowBound (flowNums (portTokens "3"))) := by
  obtain ⟨⟨rule, hsa⟩, hsp, hrt, hflow⟩ := small_accepted
  exact ⟨⟨rule, hsa, (@numbers_iff libraryEnv {} rule 1 (sp4 ParseAddr.longest) true {} (priRule 7)
        ParseAddr.longest {} 0 3 modularShift [] {} _ _ _).1 hsa⟩,
    (@numbers_iff libraryEnv {} rule 1 _ _ _ (priRule 7)
        ParseAddr.longest {} 0 3 modularShift [] {} _ _ _).2.1 hsp,
    (@numbers_iff libraryEnv {} rule 1 (sp4 ParseAddr.longest) true {} (priRule 7)
        _ _ 0 3 modularShift [] {} _ _ _).2.2.1 hrt,
    (@numbers_iff libraryEnv {} rule 1 (sp4 ParseAddr.longest) true {} (priRule 7)
        ParseAddr.longest {} 0 3 modularShift [] _ _ _ _).2.2.2 hflow⟩

/-- Lines whose numbers do not. -/
theorem large_accepted :
    (∃ rule, SaParse.Accepts libraryEnv {} "in" (saTokens "mss" "big") {} rule)
      ∧ SpParse.Accepts (sp4 ParseAddr.longest) true {} "ipv4"
        ("out" :: priTokens "4294967295") {} (priRule 0xffffffff)
      ∧ RtAccepts ParseAddr.longest {} "ipv4" (portTokens "300") {} 0 44
      ∧ FlowAccepts modularShift [] "ipv4" (portTokens "65536") {} { isIpv4 := true } :=
  ⟨⟨_, _, _, rfl, rfl⟩, accepts_fresh (by decide), ⟨_, _, rfl, .inl ⟨0, rfl⟩⟩, _, rfl⟩

/-- **NOT SO**: in none of the four kinds of lines. -/
theorem large_taken :
    (¬ ∀ {env t tok tokens st rule}, SaParse.Accepts env t tok tokens st rule →
        Exact (saHeld rule) (saNums tokens))
      ∧ (¬ ∀ {n : Nat} {fam : SpFamily n} {memory t tok tokens st rule},
        SpParse.Accepts fam memory t tok tokens st rule → Exact (spHeld rule) (spNums tokens))
      ∧ (¬ ∀ {net t tok tokens st depth ifOut},
        RtAccepts net t tok tokens st depth ifOut → Exact (rtHeld depth ifOut) (rtNums tokens))
      ∧ ¬ ∀ {env tbl tok tokens st rule}, FlowAccepts env tbl tok tokens st rule →
        Exact (flowHeld rule) (flowNums tokens) := by
  obtain ⟨⟨rule, hsa⟩, hsp, hrt, hflow⟩ := large_accepted
  refine ⟨fun h => ?_, fun h => ?_, fun h => ?_, fun h => ?_⟩
  · have hdigit := (h hsa .mss "big" (by decide)).1.2 'b' (by decide)
    exact absurd hdigit (by decide)
  · exact absurd (h hsp .priority "4294967295" (by decide)).2 (by decide)
  · exact absurd (h hrt .ifOut "300" (by decide)).2 (by decide)
  · exact absurd (h hflow .port "65536" (by decide)).2 (by decide)

end Lines

end NumberText
