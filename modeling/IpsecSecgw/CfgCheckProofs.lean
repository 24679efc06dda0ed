import IpsecSecgw.CfgLinesProofs
import IpsecSecgw.CfgMessageProofs
import IpsecSecgw.CfgParseModel

/-! # Checks and the status they leave

    Every `APP_CHECK` overwrites the status, also with success; the text in `parse_msg`
    is written by a check that fails, and by nothing else.  So the text tells whether
    all checks have gone well (`Clean`).  The parsers of `sp`, `sa`, `rt` and `flow`
    return at a check that fails, and the status is negative then (`Honest`); the check
    of the token count of a `sa` line and the first one of `neigh` do not return. -/

namespace ParserModel

/-- No check has failed. -/
def ParseStatus.Clean (st : ParseStatus) : Prop := st.parseMsg = ""

theorem clean_appCheck (exp : Bool) (msg : String) (st : ParseStatus) :
    (appCheck exp msg st).Clean ↔ exp = true ∧ st.Clean := by
  cases exp with
  | true => exact ⟨fun h => ⟨rfl, h⟩, fun h => h.2⟩
  | false =>
      refine iff_of_false (fun h => ?_) fun h => Bool.false_ne_true h.1
      have hlen := congrArg String.length (show msg ++ "\n" = "" from h)
      rw [String.length_append] at hlen
      exact absurd hlen (Nat.succ_ne_zero _)

theorem Held.of_clean {st : ParseStatus} (h : st.Clean) : st.Held := by
  unfold ParseStatus.Held
  rw [h]
  decide

/-- A check that failed is seen in the status, or none has. -/
def Honest (m : String) (st : ParseStatus) : Prop := st.status < 0 ∨ st.parseMsg = m

/-- A computation that has ended well, before its value is put in another form. -/
theorem map_ok {ε α β : Type} {x : Except ε α} {g : α → β} {b : β} (h : x.map g = .ok b) :
    ∃ a, x = .ok a ∧ g a = b := by
  cases x with
  | ok a => exact ⟨a, rfl, Except.ok.inj h⟩
  | error e => cases h

theorem honest_false (m msg : String) (st : ParseStatus) : Honest m (appCheck false msg st) :=
  .inl (by decide : (-1 : Int) < 0)

end ParserModel

namespace Rt

open ParserModel Outcome

/-! ## Routes -/

variable {α : Type} {fam : RtFamily α} {m : String}

/-- A computation on the tokens of a route. -/
abbrev RtHonest (m : String) (x : Except ParseStatus (RtScan α)) : Prop :=
  Ends x (Honest m) fun s => s.st.parseMsg = m

theorem rtNext_honest (s : RtScan α) (hm : s.st.parseMsg = m) : RtHonest m s.next := by
  unfold RtScan.next
  cases s.rest with
  | nil => exact ends_error (honest_false _ _ _)
  | cons t rest => exact ends_ok hm

theorem rtDst_honest (s : RtScan α) (hm : s.st.parseMsg = m) : RtHonest m (rtDst fam s) := by
  unfold rtDst
  by_cases hcur : s.cur = "dst"
  · rw [if_pos hcur]
    refine (rtNext_honest s hm).bind fun s hm => ?_
    cases fam.parse s.cur with
    | none => exact ends_error (honest_false _ _ _)
    | some r => exact ends_ok hm
  · rw [if_neg hcur]
    exact ends_ok hm

theorem rtPort_honest (s : RtScan α) (hm : s.st.parseMsg = m) : RtHonest m (rtPort s) := by
  unfold rtPort
  by_cases hcur : s.cur = "port"
  · rw [if_pos hcur]
    refine (rtNext_honest s hm).bind fun s hm => ?_
    cases hnum : isStrNum s.cur with
    | true => exact ends_ok hm
    | false => exact ends_error (honest_false _ _ _)
  · rw [if_neg hcur]
    exact ends_ok hm

/-- **LOOP**. -/
theorem rtLoop_honest (fuel : Nat) (s : RtScan α) (hm : s.st.parseMsg = m) :
    RtHonest m (rtLoop fam fuel s) := by
  induction fuel generalizing s with
  | zero => exact ends_ok hm
  | succ fuel ih =>
      rw [rtLoop]
      cases s.rest with
      | nil => exact ends_ok hm
      | cons t rest =>
          exact Ends.bind (rtDst_honest _ hm) fun s hm =>
            Ends.bind (rtPort_honest s hm) fun s hm => ih s hm

theorem rtAdd_honest (routes : List (Route α)) (tok : String) (tokens : List String)
    (st : ParseStatus) : Honest st.parseMsg (rtAdd fam routes tok tokens st).2 := by
  unfold rtAdd
  by_cases hroom : routes.length ≤ rtMaxRules - 1
  · rw [if_pos hroom]
    have hloop : RtHonest st.parseMsg (rtLoop fam tokens.length
        ⟨tok, tokens, { ip := fam.zero }, appCheck true "" st⟩) := rtLoop_honest _ _ rfl
    cases hrun : rtLoop fam tokens.length
        ⟨tok, tokens, { ip := fam.zero }, appCheck true "" st⟩ with
    | ok s => exact .inr (hloop.of_ok hrun)
    | error st' => exact hloop.of_error hrun
  · rw [if_neg hroom]
    exact honest_false _ _ st

theorem parseRtTokens_honest (net : InetPton) (t : RtTables) (tok : String)
    (tokens : List String) (st : ParseStatus) :
    Honest st.parseMsg (parseRtTokens net t tok tokens st).2 := by
  unfold parseRtTokens
  by_cases h4 : tok = "ipv4"
  · rw [if_pos h4]
    exact rtAdd_honest _ _ _ _
  · rw [if_neg h4]
    by_cases h6 : tok = "ipv6"
    · rw [if_pos h6]
      exact rtAdd_honest _ _ _ _
    · rw [if_neg h6]
      exact honest_false _ _ st

end Rt

namespace FlowRule

open ParserModel Outcome

/-! ## Flow rules -/

variable {env : FlowEnv} {m : String} {α : Type}

/-- The handler returns with an honest status. -/
def ToldOf (m : String) (e : Stop ParseStatus) : Prop := ∀ st, e = .ret st → Honest m st

theorem toldOf_ret {st : ParseStatus} (h : Honest m st) : ToldOf m (.ret st) := by
  intro st' heq
  cases heq
  exact h

theorem toldOf_fault {f : ParseFault} : ToldOf m (.fault f) := by
  intro st heq
  cases heq

/-- A computation on the tokens of a flow rule. -/
abbrev FlowHonest (m : String) (x : Except (Stop ParseStatus) FlowScan) : Prop :=
  Ends x (ToldOf m) fun s => s.st.parseMsg = m

theorem flowNext_honest (s : FlowScan) (hm : s.st.parseMsg = m) : FlowHonest m s.next := by
  unfold FlowScan.next
  cases s.rest with
  | nil => exact ends_error (toldOf_ret (honest_false _ _ _))
  | cons t rest => exact ends_ok hm

theorem flowIsNum_honest (s : FlowScan) (hm : s.st.parseMsg = m) : FlowHonest m s.isNum := by
  unfold FlowScan.isNum
  cases isStrNum s.cur with
  | true => exact ends_ok hm
  | false => exact ends_error (toldOf_ret (honest_false _ _ _))

/-- A depth above 32 returns without a check: the last one was that of the address. -/
theorem ipv4AddrCpy_honest (tok : String) (st : ParseStatus) (hm : st.parseMsg = m) :
    Ends (ipv4AddrCpy env tok st) (ToldOf m) fun r => r.2.parseMsg = m := by
  unfold ipv4AddrCpy
  cases parseIpv4Addr env.net tok with
  | none => exact ends_error (toldOf_ret (honest_false _ _ _))
  | some r =>
      dsimp only
      by_cases hlong : 32 < r.2
      · rw [if_pos hlong]
        exact ends_error (toldOf_ret (.inr hm))
      · rw [if_neg hlong]
        exact ends_ok hm

theorem clearBits_told (rounds : List Nat) (mask : Vector UInt8 16) :
    Ends (rounds.foldlM clearBit mask) (ToldOf m) fun _ => True := by
  induction rounds generalizing mask with
  | nil => exact ends_ok trivial
  | cons i rounds ih =>
      rw [List.foldlM_cons]
      refine Ends.bind (P := fun _ => True) ?_ fun mask _ => ih mask
      unfold clearBit
      by_cases hi : i / 8 < 16
      · rw [dif_pos hi]
        exact ends_ok trivial
      · rw [dif_neg hi]
        exact ends_error toldOf_fault

theorem ipv6AddrCpy_honest (tok : String) (st : ParseStatus) (hm : st.parseMsg = m) :
    Ends (ipv6AddrCpy env tok st) (ToldOf m) fun r => r.2.parseMsg = m := by
  unfold ipv6AddrCpy
  cases parseIpv6Addr env.net tok with
  | none => exact ends_error (toldOf_ret (honest_false _ _ _))
  | some r => exact Ends.bind (clearBits_told _ _) fun _ _ => ends_ok hm

theorem flowAddr_honest (side : Side) (s : FlowScan) (hm : s.st.parseMsg = m) :
    FlowHonest m (flowAddr env side s) := by
  unfold flowAddr
  by_cases hcur : s.cur = side.keyword
  · rw [if_pos hcur]
    refine (flowNext_honest s hm).bind fun s hm => ?_
    cases s.rule.isIpv4 with
    | true => exact Ends.bind (ipv4AddrCpy_honest _ _ hm) fun r hr => ends_ok hr
    | false => exact Ends.bind (ipv6AddrCpy_honest _ _ hm) fun r hr => ends_ok hr
  · rw [if_neg hcur]
    exact ends_ok hm

theorem flowPort_honest (s : FlowScan) (hm : s.st.parseMsg = m) :
    FlowHonest m (flowPort s) := by
  unfold flowPort
  by_cases hcur : s.cur = "port"
  · rw [if_pos hcur]
    exact (flowNext_honest s hm).bind fun s hm =>
      Ends.bind (flowIsNum_honest s hm) fun s hm => ends_ok hm
  · rw [if_neg hcur]
    exact ends_ok hm

theorem flowQueue_honest (s : FlowScan) (hm : s.st.parseMsg = m) :
    FlowHonest m (flowQueue s) := by
  unfold flowQueue
  by_cases hcur : s.cur = "queue"
  · rw [if_pos hcur]
    exact (flowNext_honest s hm).bind fun s hm =>
      Ends.bind (flowIsNum_honest s hm) fun s hm => ends_ok hm
  · rw [if_neg hcur]
    exact ends_ok hm

/-- **ROUND**. -/
theorem flowRound_honest (s : FlowScan) (hm : s.st.parseMsg = m) :
    FlowHonest m (flowRound env s) :=
  Ends.bind (flowAddr_honest .src s hm) fun s hm =>
    Ends.bind (flowAddr_honest .dst s hm) fun s hm =>
      Ends.bind (flowPort_honest s hm) fun s hm => flowQueue_honest s hm

/-- **LOOP**. -/
theorem flowLoop_honest (fuel : Nat) (s : FlowScan) (hm : s.st.parseMsg = m) :
    FlowHonest m (flowLoop env fuel s) := by
  induction fuel generalizing s with
  | zero => exact ends_ok hm
  | succ fuel ih =>
      rw [flowLoop]
      cases s.rest with
      | nil => exact ends_ok hm
      | cons t rest => exact Ends.bind (flowRound_honest _ hm) fun s hm => ih s hm

theorem parseFlowTokens_honest {tbl : List FlowRuleEntry} {tok : String}
    {tokens : List String} {st : ParseStatus} {r : List FlowRuleEntry × ParseStatus}
    (h : parseFlowTokens env tbl tok tokens st = .ok r) : Honest st.parseMsg r.2 := by
  unfold parseFlowTokens at h
  by_cases hfull : flowRulesMax ≤ tbl.length
  · rw [if_pos hfull] at h
    cases h
    exact .inr rfl
  · rw [if_neg hfull] at h
    cases hfam : family tok with
    | none =>
        rw [hfam] at h
        cases h
        exact honest_false _ _ st
    | some isIpv4 =>
        simp only [hfam] at h
        have hloop : FlowHonest st.parseMsg
            (flowLoop env tokens.length ⟨tok, tokens, { isIpv4 := isIpv4 }, st⟩) :=
          flowLoop_honest _ _ rfl
        cases hrun : flowLoop env tokens.length ⟨tok, tokens, { isIpv4 := isIpv4 }, st⟩ with
        | ok s =>
            rw [hrun] at h
            cases h
            exact .inr (hloop.of_ok hrun)
        | error e =>
            rw [hrun] at h
            cases e with
            | ret st1 =>
                cases h
                exact hloop.of_error hrun _ rfl
            | fault f => cases h

end FlowRule

namespace SaParse

open ParserModel CfgLines Outcome

/-! ## SA lines -/

variable {env : SaEnv}

/-- An SPI of zero returns behind the check of its digits. -/
theorem saScan_told (direction : SaModel.Direction) (tokens : List String) (cnt : IpsecSaCnt)
    (nb : UInt32) (udp : Bool) (st : ParseStatus) :
    Ends (saScan env direction tokens cnt nb udp st)
      (fun e => ∀ s, e = .ret s → Honest st.parseMsg s.st) fun _ => True := by
  have hfailed : ∀ e, Failed e → ∀ s, e = .ret s → Honest st.parseMsg s.st :=
    fun e he s hs => .inl (he s hs)
  cases tokens with
  | nil => exact ends_error (hfailed _ failed_fault)
  | cons spi rest =>
      refine Ends.bind (P := fun s => s.st.parseMsg = st.parseMsg) ?_ fun s hs => ?_
      · cases isStrNum spi with
        | true => exact ends_ok rfl
        | false =>
            refine ends_error fun s' hs' => ?_
            cases hs'
            exact honest_false _ _ st
      · by_cases hzero : atoiText spi = SaModel.discard
        · rw [if_pos hzero]
          refine ends_error fun s' hs' => .inr ?_
          cases hs'
          exact hs
        · rw [if_neg hzero]
          exact Ends.mono ((checked_loop _ _).bind fun s => (checked_complete s).bind
            fun _ => checked_ok _) hfailed fun _ h => h

theorem parseSaTokens_honest {t : SaTables} {tok : String} {tokens : List String}
    {st : ParseStatus} {r : SaTables × ParseStatus} (hst : st.Held)
    (h : parseSaTokens env t tok tokens st = .ok r) : Honest st.parseMsg r.2 := by
  unfold parseSaTokens at h
  cases hmem : env.memory with
  | false =>
      rw [hmem] at h
      cases h
      exact .inr rfl
  | true =>
      rw [hmem, if_neg nofun] at h
      dsimp only at h
      split at h
      · rename_i s hrun
        cases h
        exact .inr ((saScan_judged env _ tokens _ _ _ hst).of_ok hrun).2
      · rename_i s hrun
        cases h
        exact (saScan_told _ _ _ _ _ st).of_error hrun s rfl
      · cases h

end SaParse

namespace SpParse

open ParserModel CfgLines Outcome Growing

/-! ## SP lines -/

variable {n : Nat} {fam : SpFamily n}

theorem spAdd_honest {memory : Bool} {rules : GrowArr (SpRule n)} {dir : String}
    {tokens : List String} {st : ParseStatus} {r : GrowArr (SpRule n) × ParseStatus}
    (h : spAdd fam memory rules dir tokens st = .ok r) : Honest st.parseMsg r.2 := by
  unfold spAdd at h
  dsimp only at h
  split at h
  · cases h
    exact .inr rfl
  · split at h
    · cases h
    · rename_i slot _
      split at h
      · rename_i s hrun
        cases h
        exact .inl ((spScan_checked slot dir tokens st).of_error hrun)
      · rename_i s hrun
        cases h
        exact .inr ((spScan_judged fam slot dir tokens st).of_ok hrun).2

theorem parseSpTokens_honest {memory : Bool} {t : SpTables n} {tok : String}
    {tokens : List String} {st : ParseStatus} {r : SpTables n × ParseStatus}
    (h : parseSpTokens fam memory t tok tokens st = .ok r) : Honest st.parseMsg r.2 := by
  unfold parseSpTokens at h
  split at h
  · cases h
  · split at h
    · obtain ⟨r', hadd, rfl⟩ := map_ok h
      exact spAdd_honest hadd
    · split at h
      · obtain ⟨r', hadd, rfl⟩ := map_ok h
        exact spAdd_honest hadd
      · cases h
        exact honest_false _ _ st

end SpParse
