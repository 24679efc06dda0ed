import IpsecSecgw.FlowRuleProofs
import IpsecSecgw.Lib.ScanLoop
import IpsecSecgw.RtModel

/-! # Messages of the handlers

    `APP_CHECK` writes its text into `parse_msg` without a look at the size, and most
    of the texts quote a token.  For each handler there is the condition under which
    the text of the check that fails has room there: the token that is refused, at the
    place where it is, is short enough (`Fits`). -/

namespace ParserModel

/-- The size of `parse_msg`. -/
def parseMsgSize : Nat := 256

/-- There is room in `parse_msg` for a text, the line feed and the end. -/
def Room (msg : String) : Prop := (msg ++ "\n").length < parseMsgSize

instance (msg : String) : Decidable (Room msg) := inferInstanceAs (Decidable (_ < _))

/-- What has been written to `parse_msg` lies in it. -/
def ParseStatus.Held (st : ParseStatus) : Prop := st.parseMsg.length < parseMsgSize

instance (st : ParseStatus) : Decidable st.Held := inferInstanceAs (Decidable (_ < _))

/-- A condition on the next token and those behind it, where there is one. -/
def OnNext (rest : List String) (P : String → List String → Prop) : Prop :=
  ∀ t rest', rest = t :: rest' → P t rest'

theorem onNext_nil (P : String → List String → Prop) : OnNext [] P := by
  intro t rest' h
  cases h

theorem onNext_cons {t : String} {rest : List String} {P : String → List String → Prop} :
    OnNext (t :: rest) P ↔ P t rest := by
  constructor
  · intro h
    exact h t rest rfl
  · rintro h _ _ heq
    obtain ⟨rfl, rfl⟩ := List.cons.inj heq
    exact h

/-- What is read leaves no more than there was. -/
def Shrinks {O : Type} (rest : List String) (x : Option (O × List String)) : Prop :=
  ∀ o rest', x = some (o, rest') → rest'.length ≤ rest.length

theorem shrinks_none {O : Type} (rest : List String) :
    Shrinks rest (none : Option (O × List String)) := nofun

theorem shrinks_some {O : Type} {rest rest' : List String} {o : O}
    (h : rest'.length ≤ rest.length) :
    Shrinks rest (some (o, rest')) := by
  intro o' rest2 heq
  cases heq
  exact h

theorem shrinks_ite {O : Type} {rest : List String} {p : Prop} [Decidable p]
    {x y : Option (O × List String)} (hx : Shrinks rest x) (hy : Shrinks rest y) :
    Shrinks rest (if p then x else y) := by
  by_cases hp : p
  · rw [if_pos hp]
    exact hx
  · rw [if_neg hp]
    exact hy

/-- The text of a token that is not known. -/
def unrecognizedInput (tok : String) : String := "unrecognized input \"" ++ tok ++ "\""

/-- The text of `APP_CHECK_TOKEN_IS_NUM`. -/
def notNumber (tok : String) : String :=
  "input \"" ++ tok ++ "\" is not valid number string"

theorem held_false (msg : String) (st : ParseStatus) :
    (appCheck false msg st).Held ↔ Room msg := Iff.rfl

theorem held_of_eq {st st' : ParseStatus} (h : st'.parseMsg = st.parseMsg) (hst : st.Held) :
    st'.Held := by
  show st'.parseMsg.length < parseMsgSize
  rw [h]
  exact hst

/-- What has been handed back has a message that has room. -/
def Returned {α : Type} (x : Except ParseFault (α × ParseStatus)) : Prop :=
  ∃ r, x = .ok r ∧ r.2.Held

theorem returned_ok {α : Type} {r : α × ParseStatus} :
    Returned (.ok r : Except ParseFault (α × ParseStatus)) ↔ r.2.Held := by
  constructor
  · rintro ⟨r', heq, hheld⟩
    rw [Except.ok.inj heq]
    exact hheld
  · intro h
    exact ⟨r, rfl, h⟩

theorem returned_error {α : Type} {f : ParseFault} :
    ¬ Returned (.error f : Except ParseFault (α × ParseStatus)) := by
  rintro ⟨r, heq, -⟩
  cases heq

/-- What is put around the tables leaves the status. -/
theorem returned_map {α β : Type} {x : Except ParseFault (α × ParseStatus)}
    {g : α × ParseStatus → β × ParseStatus} (hg : ∀ r, (g r).2 = r.2) :
    Returned (x.map g) ↔ Returned x := by
  cases x with
  | ok r =>
      refine returned_ok.trans (Iff.trans ?_ returned_ok.symm)
      rw [hg]
  | error f => exact iff_of_false returned_error returned_error

theorem room_end : Room "reaching the end of the token array" := by decide

end ParserModel

namespace Rt

open ParserModel ScanLoop

variable {α : Type}

/-! ## Routes -/

/-- `port`. -/
def rtPortFits (cur : String) (rest : List String) : Prop :=
  cur = "port" → OnNext rest fun t _ => isStrNum t = false → Room (notNumber t)

/-- A round; the second comparison is with the token the first one has left. -/
def rtFits (fam : RtFamily α) (cur : String) (rest : List String) : Prop :=
  if cur = "dst" then
    OnNext rest fun t rest =>
      if (fam.parse t).isSome then rtPortFits t rest
      else Room ("unrecognized input \"" ++ t ++ "\", expect valid " ++ fam.expect)
  else rtPortFits cur rest

/-- The loop of `parse_rt_tokens`. -/
def rtScanner (fam : RtFamily α) : Scanner (RtScan α) ParseStatus String where
  rest := fun s => s.rest
  enter := fun s t rest => { s with cur := t, rest := rest }
  round := fun s => rtDst fam s >>= rtPort

variable {fam : RtFamily α}

theorem rtLoop_eq (fuel : Nat) (s : RtScan α) :
    rtLoop fam fuel s = (rtScanner fam).loop fuel s := by
  induction fuel generalizing s with
  | zero => rfl
  | succ fuel ih =>
      have hrec : rtLoop fam fuel = (rtScanner fam).loop fuel := funext ih
      cases hrest : s.rest with
      | nil =>
          rw [rtLoop, hrest, Scanner.loop_nil hrest]
      | cons t rest =>
          rw [rtLoop, hrest, Scanner.loop_cons hrest, hrec]
          exact (bind_assoc _ _ _).symm

/-- A computation on the tokens of a route: the message of its error, and that it
    leaves the message as it was and takes no token back. -/
abbrev RtJudged (m : String) (k : Nat) (F : Prop) (x : Except ParseStatus (RtScan α)) : Prop :=
  Judged ParseStatus.Held F (fun s => s.st.parseMsg = m ∧ s.rest.length ≤ k) x

variable {m : String} {k : Nat}

theorem rtNext_judged {s : RtScan α} {f : RtScan α → Except ParseStatus (RtScan α)}
    {G : String → List String → Prop}
    (h : ∀ t rest, s.rest = t :: rest →
      RtJudged m k (G t rest)
        (f { s with cur := t, rest := rest, st := appCheck true "" s.st })) :
    RtJudged m k (OnNext s.rest G) (s.next >>= f) := by
  unfold RtScan.next
  cases hrest : s.rest with
  | nil => exact judged_error (iff_of_true room_end (onNext_nil G))
  | cons t rest => exact (h t rest hrest).congr onNext_cons.symm

theorem rtPort_judged (s : RtScan α) (hm : s.st.parseMsg = m) (hk : s.rest.length ≤ k) :
    RtJudged m k (rtPortFits s.cur s.rest) (rtPort s) := by
  unfold rtPort rtPortFits
  by_cases hcur : s.cur = "port"
  · rw [if_pos hcur]
    refine (rtNext_judged fun t rest hrest => ?_).congr
      ⟨fun h _ => h, fun h => h hcur⟩
    have hk : rest.length ≤ k := by
      rw [hrest, List.length_cons] at hk
      omega
    cases hnum : isStrNum t with
    | true =>
        rw [if_pos rfl]
        exact judged_ok nofun ⟨hm, hk⟩
    | false =>
        rw [if_neg nofun]
        exact judged_error ((held_false _ _).trans ⟨fun h _ => h, fun h => h rfl⟩)
  · rw [if_neg hcur]
    exact judged_ok (fun h => absurd h hcur) ⟨hm, hk⟩

theorem rtRound_judged (s : RtScan α) (hm : s.st.parseMsg = m) (hk : s.rest.length ≤ k) :
    RtJudged m k (rtFits fam s.cur s.rest) ((rtScanner fam).round s) := by
  show RtJudged m k _ (rtDst fam s >>= rtPort)
  unfold rtDst rtFits
  by_cases hcur : s.cur = "dst"
  · rw [if_pos hcur, if_pos hcur, bind_assoc]
    refine rtNext_judged fun t rest hrest => ?_
    have hk : rest.length ≤ k := by
      rw [hrest, List.length_cons] at hk
      omega
    cases haddr : fam.parse t with
    | none =>
        rw [if_neg nofun]
        exact judged_error (held_false _ _)
    | some r =>
        rw [if_pos (show (some r).isSome = true from rfl)]
        exact rtPort_judged _ hm hk
  · rw [if_neg hcur, if_neg hcur]
    exact rtPort_judged s hm hk

/-- **LOOP**. -/
theorem rtLoop_judged (fam : RtFamily α) (fuel : Nat) (s : RtScan α)
    (hm : s.st.parseMsg = m) (hfuel : s.rest.length ≤ fuel) :
    Judged ParseStatus.Held
      ((rtScanner fam).Throughout (fun s => rtFits fam s.cur s.rest) s)
      (fun s => s.st.parseMsg = m) (rtLoop fam fuel s) := by
  rw [rtLoop_eq]
  exact (rtScanner fam).loop_judged (R := fun s => s.st.parseMsg = m)
    (fun s t rest hs _ =>
      rtRound_judged { s with cur := t, rest := rest } hs (Nat.le_refl _)) fuel s hm hfuel

/-- A line of one family: where its array is full nothing is read. -/
def rtAddFits (fam : RtFamily α) (routes : List (Route α)) (tok : String)
    (tokens : List String) (st : ParseStatus) : Prop :=
  routes.length ≤ rtMaxRules - 1 →
    (rtScanner fam).Throughout (fun s => rtFits fam s.cur s.rest)
      ⟨tok, tokens, { ip := fam.zero }, appCheck true "" st⟩

theorem room_full : Room "too many rt rules, abort insertion\n" := by decide

theorem rtAdd_held (routes : List (Route α)) (tok : String) (tokens : List String)
    {st : ParseStatus} (hst : st.Held) :
    (rtAdd fam routes tok tokens st).2.Held ↔ rtAddFits fam routes tok tokens st := by
  unfold rtAdd rtAddFits
  by_cases hroom : routes.length ≤ rtMaxRules - 1
  · rw [if_pos hroom]
    have hloop := rtLoop_judged fam tokens.length
      ⟨tok, tokens, { ip := fam.zero }, appCheck true "" st⟩ rfl (Nat.le_refl _)
    cases hrun : rtLoop fam tokens.length
        ⟨tok, tokens, { ip := fam.zero }, appCheck true "" st⟩ with
    | ok s =>
        obtain ⟨hfits, hm⟩ := hloop.of_ok hrun
        exact iff_of_true (held_of_eq hm hst) fun _ => hfits
    | error st' => exact (hloop.error_iff hrun).trans ⟨fun h _ => h, fun h => h hroom⟩
  · rw [if_neg hroom]
    exact iff_of_true room_full fun h => absurd h hroom

/-- A line. -/
def RtLineFits (net : InetPton) (t : RtTables) (tok : String) (tokens : List String)
    (st : ParseStatus) : Prop :=
  if tok = "ipv4" then rtAddFits (rtIpv4 net) t.rtIp4 tok tokens st
  else if tok = "ipv6" then rtAddFits (rtIpv6 net) t.rtIp6 tok tokens st
  else Room (unrecognizedInput tok)

/-- **WHEN THE MESSAGE OF A ROUTE HAS ROOM**. -/
theorem rt_held (net : InetPton) (t : RtTables) (tok : String) (tokens : List String)
    {st : ParseStatus} (hst : st.Held) :
    (parseRtTokens net t tok tokens st).2.Held ↔ RtLineFits net t tok tokens st := by
  unfold parseRtTokens RtLineFits
  by_cases h4 : tok = "ipv4"
  · rw [if_pos h4, if_pos h4]
    exact rtAdd_held _ _ _ hst
  · rw [if_neg h4, if_neg h4]
    by_cases h6 : tok = "ipv6"
    · rw [if_pos h6, if_pos h6]
      exact rtAdd_held _ _ _ hst
    · rw [if_neg h6, if_neg h6]
      exact held_false _ st

end Rt

namespace FlowRule

open ParserModel ScanLoop

/-! ## Flow rules -/

/-- An address; the bits of an IPv6 mask are cleared one by one, and those behind the
    mask are not in it. -/
def flowAddrFits (env : FlowEnv) (isIpv4 : Bool) (t : String) : Prop :=
  if isIpv4 then
    parseIpv4Addr env.net t = none →
      Room ("unrecognized input \"" ++ t ++ "\", expect valid ipv4 addr")
  else
    match parseIpv6Addr env.net t with
    | none => Room ("unrecognized input \"" ++ t ++ "\", expect valid ipv6 address")
    | some r => r.2.toNat ≤ 128

/-- A round. -/
def flowFits (env : FlowEnv) (isIpv4 : Bool) (cur : String) (rest : List String) : Prop :=
  match sideOf cur with
  | some _ => OnNext rest fun t _ => flowAddrFits env isIpv4 t
  | none =>
      cur = "port" ∨ cur = "queue" →
        OnNext rest fun t _ => isStrNum t = false → Room (notNumber t)

/-- The loop of `parse_flow_tokens`. -/
def flowScanner (env : FlowEnv) : Scanner FlowScan (Stop ParseStatus) String where
  rest := fun s => s.rest
  enter := fun s t rest => { s with cur := t, rest := rest }
  round := flowRound env

/-- The handler returns with a message that has room. -/
def Told : Stop ParseStatus → Prop
  | .ret st => st.Held
  | .fault _ => False

variable {env : FlowEnv} {m : String} {k : Nat}

theorem flowLoop_eq (fuel : Nat) (s : FlowScan) :
    flowLoop env fuel s = (flowScanner env).loop fuel s := by
  induction fuel generalizing s with
  | zero => rfl
  | succ fuel ih =>
      have hrec : flowLoop env fuel = (flowScanner env).loop fuel := funext ih
      cases hrest : s.rest with
      | nil =>
          rw [flowLoop, hrest, Scanner.loop_nil hrest]
      | cons t rest =>
          rw [flowLoop, hrest, Scanner.loop_cons hrest, hrec]
          rfl

/-- A computation on the tokens of a flow rule. -/
abbrev FlowJudged (m : String) (k : Nat) (F : Prop) (x : Except (Stop ParseStatus) FlowScan) :
    Prop :=
  Judged Told F (fun s => s.st.parseMsg = m ∧ s.rest.length ≤ k) x

theorem flowNext_judged {s : FlowScan} {f : FlowScan → Except (Stop ParseStatus) FlowScan}
    {G : String → List String → Prop}
    (h : ∀ t rest, s.rest = t :: rest →
      FlowJudged m k (G t rest)
        (f { s with cur := t, rest := rest, st := appCheck true "" s.st })) :
    FlowJudged m k (OnNext s.rest G) (s.next >>= f) := by
  unfold FlowScan.next
  cases hrest : s.rest with
  | nil => exact judged_error (iff_of_true room_end (onNext_nil G))
  | cons t rest => exact (h t rest hrest).congr onNext_cons.symm

theorem flowIsNum_judged {s : FlowScan} {f : FlowScan → Except (Stop ParseStatus) FlowScan}
    (h : isStrNum s.cur = true →
      FlowJudged m k True (f { s with st := appCheck true "" s.st })) :
    FlowJudged m k (isStrNum s.cur = false → Room (notNumber s.cur)) (s.isNum >>= f) := by
  unfold FlowScan.isNum
  cases hnum : isStrNum s.cur with
  | true => exact (h hnum).congr (iff_of_true trivial nofun)
  | false => exact judged_error ⟨fun h _ => h, fun h => h rfl⟩

theorem flowAddr_judged {side : Side} (s : FlowScan) (hcur : s.cur = side.keyword)
    (hst : s.st.Held) (hm : s.st.parseMsg = m) (hk : s.rest.length ≤ k) :
    FlowJudged m k (OnNext s.rest fun t _ => flowAddrFits env s.rule.isIpv4 t)
      (flowAddr env side s) := by
  rw [flowAddr, if_pos hcur]
  refine flowNext_judged fun t rest hrest => ?_
  have hk : rest.length ≤ k := by
    rw [hrest, List.length_cons] at hk
    omega
  unfold flowAddrFits
  cases hfamily : s.rule.isIpv4 with
  | true =>
      rw [if_pos rfl, if_pos rfl, ipv4AddrCpy]
      cases hparse : parseIpv4Addr env.net t with
      | none => exact judged_error ⟨fun h _ => h, fun h => h rfl⟩
      | some r =>
          refine Judged.congr ?_ (iff_of_true trivial fun h => absurd h (Option.some_ne_none r))
          show FlowJudged m k True ((if 32 < r.2 then _ else _) >>= _)
          by_cases hlong : 32 < r.2
          · rw [if_pos hlong]
            exact judged_error (iff_of_true hst trivial)
          · rw [if_neg hlong]
            exact judged_ok trivial ⟨hm, hk⟩
  | false =>
      rw [if_neg Bool.false_ne_true, if_neg Bool.false_ne_true, ipv6AddrCpy]
      cases hparse : parseIpv6Addr env.net t with
      | none => exact judged_error (held_false _ _)
      | some r =>
          dsimp only
          rw [takeWhile_rounds]
          by_cases hlong : 128 < r.2.toNat
          · rw [foldlM_clearBit_overrun hlong]
            exact judged_error (iff_of_false id (Nat.not_le.mpr hlong))
          · have hle : r.2.toNat ≤ 128 := Nat.not_lt.mp hlong
            obtain ⟨mask, hmask, -⟩ := foldlM_clearBit hle
            rw [hmask]
            exact judged_ok hle ⟨hm, hk⟩

/-- A token that is a number is not compared with `queue` again. -/
theorem queue_notNum {t : String} (h : isStrNum t = true) : t ≠ "queue" := by
  intro ht
  rw [ht] at h
  exact absurd h (by decide)

theorem flowNum_judged (s : FlowScan) (hside : sideOf s.cur = none)
    (hcur : s.cur = "port" ∨ s.cur = "queue") (hm : s.st.parseMsg = m)
    (hk : s.rest.length ≤ k) :
    FlowJudged m k (OnNext s.rest fun t _ => isStrNum t = false → Room (notNumber t))
      (flowRound env s) := by
  rw [flowRound_behind env hside]
  rcases hcur with hport | hqueue
  · rw [flowPort, if_pos hport, bind_assoc]
    refine flowNext_judged fun t rest hrest => ?_
    rw [bind_assoc]
    refine flowIsNum_judged fun hnum => ?_
    have hk : rest.length ≤ k := by
      rw [hrest, List.length_cons] at hk
      omega
    show FlowJudged m k True (flowQueue _)
    rw [flowQueue_pass]
    · exact judged_ok trivial ⟨hm, hk⟩
    · exact queue_notNum hnum
  · rw [flowPort_pass (by rw [hqueue]; decide)]
    show FlowJudged m k _ (flowQueue s)
    rw [flowQueue, if_pos hqueue]
    refine flowNext_judged fun t rest hrest => flowIsNum_judged fun _ => ?_
    have hk : rest.length ≤ k := by
      rw [hrest, List.length_cons] at hk
      omega
    exact judged_ok trivial ⟨hm, hk⟩

theorem flowRound_judged (s : FlowScan) (hst : s.st.Held) (hm : s.st.parseMsg = m)
    (hk : s.rest.length ≤ k) :
    FlowJudged m k (flowFits env s.rule.isIpv4 s.cur s.rest) (flowRound env s) := by
  unfold flowFits
  cases hside : sideOf s.cur with
  | some side =>
      have hcur := sideOf_keyword hside
      rw [flowRound_addr env hcur]
      exact flowAddr_judged s hcur hst hm hk
  | none =>
      by_cases hnum : s.cur = "port" ∨ s.cur = "queue"
      · exact (flowNum_judged s hside hnum hm hk).congr ⟨fun h _ => h, fun h => h hnum⟩
      · rw [flowRound_pass env hside hnum]
        exact judged_ok (fun h => absurd h hnum) ⟨hm, hk⟩

/-- **LOOP**. -/
theorem flowLoop_judged (env : FlowEnv) (fuel : Nat) (s : FlowScan) (hst : s.st.Held)
    (hfuel : s.rest.length ≤ fuel) :
    Judged Told
      ((flowScanner env).Throughout (fun s => flowFits env s.rule.isIpv4 s.cur s.rest) s)
      (fun s' => s'.st.parseMsg = s.st.parseMsg) (flowLoop env fuel s) := by
  rw [flowLoop_eq]
  exact (flowScanner env).loop_judged (R := fun s' => s'.st.parseMsg = s.st.parseMsg)
    (fun s t rest hs _ =>
      flowRound_judged { s with cur := t, rest := rest } (held_of_eq hs hst) hs (Nat.le_refl _))
    fuel s rfl hfuel

/-- A line: where the table is full nothing is read. -/
def FlowLineFits (env : FlowEnv) (tbl : List FlowRuleEntry) (tok : String)
    (tokens : List String) (st : ParseStatus) : Prop :=
  tbl.length < flowRulesMax →
    match family tok with
    | none => Room (unrecognizedInput tok)
    | some isIpv4 =>
        (flowScanner env).Throughout (fun s => flowFits env s.rule.isIpv4 s.cur s.rest)
          ⟨tok, tokens, { isIpv4 := isIpv4 }, st⟩

/-- **WHEN THE MESSAGE OF A FLOW RULE HAS ROOM**. -/
theorem flow_returned (tbl : List FlowRuleEntry) (tok : String) (tokens : List String)
    {st : ParseStatus} (hst : st.Held) :
    Returned (parseFlowTokens env tbl tok tokens st) ↔ FlowLineFits env tbl tok tokens st := by
  unfold parseFlowTokens FlowLineFits
  by_cases hfull : flowRulesMax ≤ tbl.length
  · rw [if_pos hfull]
    exact iff_of_true (returned_ok.mpr hst) fun h => absurd hfull (Nat.not_le.mpr h)
  · rw [if_neg hfull]
    have hroom : tbl.length < flowRulesMax := Nat.not_le.mp hfull
    cases family tok with
    | none => exact returned_ok.trans ⟨fun h _ => h, fun h => h hroom⟩
    | some isIpv4 =>
        have hloop := flowLoop_judged env tokens.length ⟨tok, tokens, { isIpv4 := isIpv4 }, st⟩
          hst (Nat.le_refl _)
        dsimp only
        cases hrun : flowLoop env tokens.length ⟨tok, tokens, { isIpv4 := isIpv4 }, st⟩ with
        | ok s =>
            obtain ⟨hfits, hm⟩ := hloop.of_ok hrun
            exact iff_of_true (returned_ok.mpr (held_of_eq hm hst)) fun _ => hfits
        | error e =>
            have htold := hloop.error_iff hrun
            refine Iff.trans ?_ (htold.trans ⟨fun h _ => h, fun h => h hroom⟩)
            cases e with
            | ret st' => exact returned_ok
            | fault f => exact iff_of_false returned_error id

end FlowRule
