import IpsecSecgw.RtModel
import IpsecSecgw.SaConfigProofs
import IpsecSecgw.SaTypeProofs
import IpsecSecgw.SaXformProofs
import IpsecSecgw.SpInitProofs
import IpsecSecgw.WorkerProofs

/-! # Ports of transmission

    A port comes from the text behind `port` in a line of a route, through eight
    bits and the next hop of a table, or from the text behind `port_id` or
    `flow-direction` in a line of an SA, through sixteen bits.  Nothing looks at
    its bound: an index into the tables of ports is right exactly when the texts
    it comes from name a port there is (`port_iff`). -/

namespace TxPort

open ByteStore SaModel MbufModel ParserModel Outcome Rt SaParse IpsecModel WorkerModel
open SecgwModel

/-! ## The port of a route -/

/-- The number behind the last `port` in the tokens of a line, or `port`; the
    token behind `dst` is an address. -/
def lastPort (port : Nat) : List String → Nat
  | [] => port
  | [_] => port
  | tok :: arg :: rest =>
      if tok = "dst" then lastPort port rest
      else if tok = "port" then lastPort (decValue arg) rest
      else lastPort port (arg :: rest)

/-- What `if_out` keeps of a number. -/
def portByte (n : Nat) : UInt8 := (UInt32.ofNat (min n 0x7fffffffffffffff)).toUInt8

/-- A number below the bound is kept, and what is kept of another is none. -/
theorem portByte_of_lt {n : Nat} (h : n < maxEthports) : (portByte n).toNat = n := by
  have hmax : maxEthports = 32 := rfl
  rw [portByte, UInt32.toNat_toUInt8, UInt32.toNat_ofNat']
  omega

theorem lastPort_pass {tok : String} (hdst : tok ≠ "dst") (hport : tok ≠ "port")
    (port : Nat) (rest : List String) : lastPort port (tok :: rest) = lastPort port rest := by
  cases rest with
  | nil => rfl
  | cons arg rest => rw [lastPort, if_neg hdst, if_neg hport]

theorem lastPort_dst (port : Nat) (arg : String) (rest : List String) :
    lastPort port ("dst" :: arg :: rest) = lastPort port rest := rfl

variable {α : Type} {fam : RtFamily α} {net : InetPton} {s s' : RtScan α}

/-- The keyword is no address of the family. -/
def KeywordFree (fam : RtFamily α) : Prop := fam.parse "port" = none

/-- The text before a slash in the keyword is the keyword. -/
theorem ipStr_port (room : Nat) (hroom : 5 ≤ room) : ipStr room "port" = "port".toList := by
  rw [ipStr]
  exact List.take_of_length_le (by
    show 4 ≤ room - 1
    omega)

theorem ipv4_keywordFree (net : InetPton) : KeywordFree (rtIpv4 net) := by
  have hnone : net.v4 (ipStr 16 "port") = none := by
    rw [ipStr_port 16 (by omega), Option.eq_none_iff_forall_ne_some]
    intro a ha
    exact absurd (net.v4_chars ha 'p' (by decide)) (by decide)
  show (parseIpv4Addr net "port").map _ = none
  rw [parseIpv4Addr]
  cases parseMask "port" with
  | none => rfl
  | some mask =>
      dsimp only
      rw [hnone]
      rfl

theorem ipv6_keywordFree (net : InetPton) : KeywordFree (rtIpv6 net) := by
  have hnone : net.v6 (ipStr 256 "port") = none := by
    rw [ipStr_port 256 (by omega), Option.eq_none_iff_forall_ne_some]
    intro a ha
    exact absurd (net.v6_chars ha 'p' (by decide)) (by decide)
  show (parseIpv6Addr net "port").map _ = none
  rw [parseIpv6Addr]
  cases parseMask "port" with
  | none => rfl
  | some mask =>
      dsimp only
      rw [hnone]
      split <;> rfl

/-- A status that ends the program. -/
def Failed (st : ParseStatus) : Prop := st.status < 0

theorem failed_check (msg : String) (st : ParseStatus) : Failed (appCheck false msg st) := by
  show (-1 : Int) < 0
  decide

/-- What comes of the tokens at hand: nothing, or the argument of a keyword. -/
def Took (keyword : String) (s s' : RtScan α) (arg : String → Prop) : Prop :=
  s.cur ≠ keyword ∧ s' = s ∨ s.cur = keyword ∧ ∃ rest, s.rest = s'.cur :: rest
    ∧ s'.rest = rest ∧ arg s'.cur

theorem next_ends (s : RtScan α) : Ends s.next Failed fun s' =>
    ∃ t rest st, s.rest = t :: rest ∧ s' = { s with cur := t, rest := rest, st := st } := by
  rw [RtScan.next]
  cases hrest : s.rest with
  | nil => exact ends_error (failed_check _ _)
  | cons t rest => exact ends_ok ⟨t, rest, _, rfl, rfl⟩

theorem rtDst_ends (s : RtScan α) : Ends (rtDst fam s) Failed fun s' =>
    Took "dst" s s' (fun tok => fam.parse tok ≠ none) ∧ s'.route.ifOut = s.route.ifOut := by
  rw [rtDst]
  split
  · rename_i hcur
    refine (next_ends s).bind ?_
    rintro _ ⟨t, rest, st, hrest, rfl⟩
    dsimp only
    cases hparse : fam.parse t with
    | none => exact ends_error (failed_check _ _)
    | some r =>
        have hread : fam.parse t ≠ none := hparse ▸ Option.some_ne_none r
        exact ends_pure ⟨.inr ⟨hcur, rest, hrest, rfl, hread⟩, rfl⟩
  · rename_i hcur
    exact ends_ok ⟨.inl ⟨hcur, rfl⟩, rfl⟩

theorem rtPort_ends (s : RtScan α) : Ends (rtPort s) Failed fun s' =>
    s.cur ≠ "port" ∧ s' = s ∨ s.cur = "port" ∧ ∃ rest, s.rest = s'.cur :: rest
      ∧ s'.rest = rest ∧ s'.route.ifOut = portByte (decValue s'.cur) := by
  rw [rtPort]
  split
  · rename_i hcur
    refine (next_ends s).bind ?_
    rintro _ ⟨t, rest, st, hrest, rfl⟩
    dsimp only
    split
    · exact ends_pure (.inr ⟨hcur, rest, hrest, rfl, rfl⟩)
    · exact ends_error (failed_check _ _)
  · rename_i hcur
    exact ends_ok (.inl ⟨hcur, rfl⟩)

/-- **THE LOOP** keeps the number behind the last `port`. -/
theorem rtLoop_port (hfree : KeywordFree fam) (n : Nat) (s : RtScan α) (port : Nat)
    (hn : s.rest.length ≤ n) (hport : s.route.ifOut = portByte port) :
    Ends (rtLoop fam n s) Failed fun s' => s'.route.ifOut = portByte (lastPort port s.rest) := by
  induction n generalizing s port with
  | zero =>
      have hrest : s.rest = [] := List.eq_nil_of_length_eq_zero (Nat.le_zero.mp hn)
      rw [hrest]
      exact ends_ok hport
  | succ n ih =>
      rw [rtLoop]
      cases hrest : s.rest with
      | nil => exact ends_ok hport
      | cons t rest =>
          rw [hrest, List.length_cons] at hn
          dsimp only
          refine (rtDst_ends _).bind ?_
          rintro s1 ⟨hdst, hkeep⟩
          have hport1 : s1.route.ifOut = portByte port := hkeep.trans hport
          refine (rtPort_ends s1).bind ?_
          intro s2 hs2
          -- the rest of the line, whatever this round has stored
          have hrest2 : s2.rest.length ≤ n → ∀ p, s2.route.ifOut = portByte p →
              lastPort p s2.rest = lastPort port (t :: rest) →
              Ends (rtLoop fam n s2) Failed fun s' =>
                s'.route.ifOut = portByte (lastPort port (t :: rest)) := by
            intro hlen p hp hlast
            rw [← hlast]
            exact ih s2 p hlen hp
          rcases hdst with ⟨hcur, rfl⟩ | ⟨hcur, rest1, hrest1, hs1, hread⟩
          · rcases hs2 with ⟨hcur', rfl⟩ | ⟨hcur', rest2, hrest2', rfl, hnew⟩
            · exact hrest2 (Nat.le_of_succ_le_succ hn) port hport1
                (lastPort_pass hcur hcur' port rest).symm
            · -- the number behind `port` replaces the one before
              obtain rfl : t = "port" := hcur'
              obtain rfl : rest = s2.cur :: s2.rest := hrest2'
              rw [List.length_cons] at hn
              exact hrest2 (by omega) _ hnew rfl
          · -- an address is no keyword
            obtain rfl : t = "dst" := hcur
            obtain rfl : rest = s1.cur :: rest1 := hrest1
            rw [List.length_cons] at hn
            rcases hs2 with ⟨-, rfl⟩ | ⟨hcur', -⟩
            · rw [← hs1] at hn
              refine hrest2 (by omega) port hport1 ?_
              rw [hs1, lastPort_dst]
            · rw [hcur'] at hread
              exact absurd hfree hread

/-! ## Lines and entries -/

/-- The entry of a line keeps the number of the line. -/
def Entered (line : Line) (r : Route α) : Prop := r.ifOut = portByte (lastPort 0 line.2)

/-- A line that does not end the program adds its entry to the array. -/
theorem rtAdd_entered (hfree : KeywordFree fam) (routes : List (Route α)) (line : Line)
    (st : ParseStatus) (hgood : ¬ Failed (rtAdd fam routes line.1 line.2 st).2) :
    ∃ r, (rtAdd fam routes line.1 line.2 st).1 = routes ++ [r] ∧ Entered line r := by
  rw [rtAdd] at hgood ⊢
  by_cases hroom : routes.length ≤ rtMaxRules - 1
  · rw [if_pos hroom] at hgood ⊢
    have hloop := rtLoop_port hfree line.2.length
      ⟨line.1, line.2, { ip := fam.zero }, appCheck true "" st⟩ 0 (Nat.le_refl _) rfl
    cases hrun : rtLoop fam line.2.length
        ⟨line.1, line.2, { ip := fam.zero }, appCheck true "" st⟩ with
    | error e =>
        rw [hrun] at hgood
        exact absurd (hloop.of_error hrun) hgood
    | ok s => exact ⟨s.route, rfl, hloop.of_ok hrun⟩
  · rw [if_neg hroom] at hgood
    exact absurd (failed_check _ st) hgood

/-- The lines of a family. -/
def ofFamily (family : String) (lines : List Line) : List Line :=
  lines.filter fun line => line.1 = family

/-- The arrays hold the entries of the lines, in their order. -/
structure Filed (lines : List Line) (t : RtTables) : Prop where
  ip4 : List.Forall₂ Entered (ofFamily "ipv4" lines) t.rtIp4
  ip6 : List.Forall₂ Entered (ofFamily "ipv6" lines) t.rtIp6

theorem ofFamily_append (family : String) (lines : List Line) (line : Line) :
    ofFamily family (lines ++ [line])
      = ofFamily family lines ++ if line.1 = family then [line] else [] := by
  rw [ofFamily, List.filter_append, List.filter_singleton]
  by_cases h : line.1 = family <;> simp [ofFamily, h]

theorem Filed.line {lines : List Line} {r r' : RtTables × ParseStatus} (h : Filed lines r.1)
    {line : Line} (hline : rtLine net r line = some r') : Filed (lines ++ [line]) r'.1 := by
  rw [rtLine] at hline
  split at hline
  · cases hline
  rename_i hgood
  obtain rfl := Option.some.inj hline
  have hone : ∀ {α : Type} {routes : List (Route α)} {done : List Line} {r : Route α},
      List.Forall₂ Entered done routes → Entered line r →
      List.Forall₂ Entered (done ++ [line]) (routes ++ [r]) :=
    fun hdone hr => List.rel_append hdone (.cons hr .nil)
  rw [parseRtTokens] at hgood ⊢
  by_cases h4 : line.1 = "ipv4"
  · rw [if_pos h4] at hgood ⊢
    obtain ⟨e, hpush, he⟩ := rtAdd_entered (ipv4_keywordFree net) r.1.rtIp4 line r.2 hgood
    constructor
    · dsimp only
      rw [ofFamily_append, if_pos h4, hpush]
      exact hone h.ip4 he
    · rw [ofFamily_append, if_neg (by rw [h4]; decide), List.append_nil]
      exact h.ip6
  · rw [if_neg h4] at hgood ⊢
    by_cases h6 : line.1 = "ipv6"
    · rw [if_pos h6] at hgood ⊢
      obtain ⟨e, hpush, he⟩ := rtAdd_entered (ipv6_keywordFree net) r.1.rtIp6 line r.2 hgood
      constructor
      · rw [ofFamily_append, if_neg h4, List.append_nil]
        exact h.ip4
      · dsimp only
        rw [ofFamily_append, if_pos h6, hpush]
        exact hone h.ip6 he
    · rw [if_neg h6] at hgood
      exact absurd (failed_check _ r.2) hgood

/-- **ALL LINES** of an accepted configuration. -/
theorem rtLines_filed {lines : List Line} {r : RtTables × ParseStatus}
    (h : rtLines net lines = some r) : Filed lines r.1 := by
  have hrun : ∀ (lines done : List Line) (s : RtTables × ParseStatus), Filed done s.1 →
      lines.foldlM (rtLine net) s = some r → Filed (done ++ lines) r.1 := by
    intro lines
    induction lines with
    | nil =>
        intro done s hs hrun
        obtain rfl := Option.some.inj hrun
        rw [List.append_nil]
        exact hs
    | cons line lines ih =>
        intro done s hs hrun
        rw [List.foldlM_cons] at hrun
        obtain ⟨s1, h1, hrun⟩ := Option.bind_eq_some_iff.mp hrun
        have hnext := ih (done ++ [line]) s1 (hs.line h1) hrun
        rw [List.append_assoc] at hnext
        exact hnext
  exact hrun lines [] ({}, {}) ⟨.nil, .nil⟩ h

/-! ## Lookups -/

/-- The greatest image is the image of the greatest. -/
theorem argmax_map {β γ : Type} (f : β → γ) (g : γ → Nat) (l : List β) :
    (l.map f).argmax g = (l.argmax fun b => g (f b)).map f := by
  induction l with
  | nil => rfl
  | cons b l ih =>
      rw [List.map_cons, List.argmax_cons, List.argmax_cons, ih]
      cases l.argmax fun b => g (f b) with
      | none => rfl
      | some c =>
          show (if g (f b) < g (f c) then some (f c) else some (f b)) = _
          show _ = Option.map f (if g (f b) < g (f c) then some c else some b)
          split <;> rfl

theorem longestPrefix_map {β : Type} (f : β → Route α) (bytes : α → List UInt8) (a : α)
    (l : List β) :
    longestPrefix id bytes a (l.map f) = (longestPrefix f bytes a l).map f := by
  rw [longestPrefix, longestPrefix, List.filter_map, ← List.map_reverse]
  exact argmax_map f (fun r => r.depth.toNat) _

/-- The line of the longest prefix. -/
def matching (bytes : α → List UInt8) (a : α) (lines : List Line) (routes : List (Route α)) :
    Option Line :=
  (longestPrefix Prod.snd bytes a (lines.zip routes)).map Prod.fst

/-- **A LOOKUP** gives what is kept of the number in the matching line. -/
theorem lookup_matching {bytes : α → List UInt8} (lpm : RteLpm α bytes) {lines : List Line}
    {routes : List (Route α)} {tbl : lpm.Table} (hinit : rtInit lpm routes = some tbl)
    (hfiled : List.Forall₂ Entered lines routes) (a : α) :
    lpm.lookup tbl a
      = (matching bytes a lines routes).map fun line =>
          (portByte (lastPort 0 line.2)).toUInt32 := by
  have hsnd : (lines.zip routes).map Prod.snd = routes :=
    List.map_snd_zip (Nat.le_of_eq hfiled.length_eq.symm)
  rw [lpm.lookup_adds routes tbl hinit a, matching]
  nth_rewrite 1 [← hsnd]
  rw [longestPrefix_map]
  cases hbest : longestPrefix Prod.snd bytes a (lines.zip routes) with
  | none => rfl
  | some b =>
      have hmem : b ∈ lines.zip routes := by
        have hb := List.argmax_mem hbest
        exact (List.mem_filter.mp (List.mem_reverse.mp hb)).1
      have hb : Entered b.1 b.2 := (List.forall₂_iff_zip.mp hfiled).2 hmem
      show some b.2.ifOut.toUInt32 = some (portByte (lastPort 0 b.1.2)).toUInt32
      rw [show b.2.ifOut = portByte (lastPort 0 b.1.2) from hb]

/-! ## The port of an SA -/

/-- The numbers of the ports in the options of an SA line. -/
def saPorts : List SaOpt → List Int
  | [] => []
  | .portId port :: opts => strtol10 port :: saPorts opts
  | .flowDirection port _ :: opts => strtol10 port :: saPorts opts
  | _ :: opts => saPorts opts

/-- A port in range. -/
def InRange (n : Int) : Prop := 0 ≤ n ∧ n < maxEthports

/-- When all of them are ports there are, the SA has each of them for its port, or
    none is given and it has the mark of none. -/
def PortIs (ns : List Int) (port : UInt16) : Prop :=
  (∀ n ∈ ns, InRange n) →
    (ns = [] → port = 0xffff) ∧ (ns ≠ [] → port.toNat < maxEthports)
      ∧ ∀ n ∈ ns, n = port.toNat

/-- The text of a port in range is its number. -/
theorem atoiText_inRange {tok : String} (h : InRange (strtol10 tok)) :
    ((atoiText tok).toNat : Int) = strtol10 tok
      ∧ (atoiText tok).toUInt16.toNat = (atoiText tok).toNat := by
  obtain ⟨hle, hlt⟩ := h
  have hmax : (maxEthports : Int) = 32 := rfl
  have hnat : (atoiText tok).toNat = (strtol10 tok).toNat := by
    rw [atoiText, UInt32.ofInt, UInt32.toNat_ofNat']
    omega
  refine ⟨by omega, ?_⟩
  rw [UInt32.toNat_toUInt16]
  omega

/-- One more port. -/
theorem PortTaken.portIs {ns : List Int} {port port' : UInt16} {tok : String}
    (h : PortIs ns port) (htaken : PortTaken port tok port') :
    PortIs (ns ++ [strtol10 tok]) port' := by
  intro hall
  have hnew : InRange (strtol10 tok) := hall _ (by simp)
  obtain ⟨hnum, hcut⟩ := atoiText_inRange hnew
  obtain ⟨hnone, hlt, hsame⟩ := h fun n hn => hall n (List.mem_append_left _ hn)
  have hmax : maxEthports = 32 := rfl
  obtain ⟨hle, hbound⟩ := hnew
  have hboth : (port'.toNat : Int) = strtol10 tok ∧ ∀ n ∈ ns, n = port'.toNat := by
    rw [PortTaken] at htaken
    split at htaken
    · -- the mark of none is no port in range, so none has been given
      rename_i hfree
      have hempty : ns = [] := by
        by_contra hne
        have hlt := hlt hne
        rw [hfree] at hlt
        exact absurd hlt (by decide)
      rw [htaken, hempty]
      exact ⟨by omega, fun n hn => absurd hn List.not_mem_nil⟩
    · obtain ⟨heq, rfl⟩ := htaken
      have hnat : port'.toNat = (atoiText tok).toNat := by
        rw [← heq, UInt16.toNat_toUInt32]
      exact ⟨by omega, hsame⟩
  refine ⟨fun h => absurd h (by simp), fun _ => by omega, ?_⟩
  intro n hn
  rcases List.mem_append.mp hn with hn | hn
  · exact hboth.2 n hn
  · rw [List.mem_singleton.mp hn, hboth.1]

/-- The port before the SA line names one. -/
theorem portIs_start : PortIs [] 0xffff :=
  fun _ => ⟨fun _ => rfl, fun h => absurd rfl h, fun _ hn => absurd hn List.not_mem_nil⟩

variable {saEnv : SaEnv}

/-- An option that names no port leaves it. -/
theorem SaStep.portid_same {o : SaOpt} {c c' : SaCore} (h : SaStep saEnv o c c')
    (hports : saPorts [o] = []) : c'.rule.portid = c.rule.portid := by
  cases h with
  | portId => cases hports
  | flowDirection => cases hports
  | cipher hp halgo hnull hkey hlen hsalt =>
      obtain ⟨keys, salt, rfl⟩ := hsalt.rule
      rfl
  | auth hp halgo hnull hkey hlen hsalt =>
      obtain ⟨ivLen, keys, salt, rfl⟩ := hsalt.rule
      rfl
  | aead hp halgo hkey hlen hsalt =>
      obtain ⟨salt, rfl⟩ := takeSalt_rule hsalt
      rfl
  | mode => rfl
  | telemetry => rfl
  | cipherNull => rfl
  | authNull => rfl
  | src => rfl
  | dst => rfl
  | type => rfl
  | mss => rfl
  | esn => rfl
  | fallback => rfl
  | udpEncap => rfl
  | udpEncapInline => rfl

/-- **AN OPTION**: the ports named so far. -/
theorem SaStep.portIs {o : SaOpt} {c c' : SaCore} (h : SaStep saEnv o c c') {ns : List Int}
    (hns : PortIs ns c.rule.portid) : PortIs (ns ++ saPorts [o]) c'.rule.portid := by
  have hsame := SaStep.portid_same h
  by_cases hports : saPorts [o] = []
  · rw [hports, List.append_nil, hsame hports]
    exact hns
  · cases h with
    | portId _ hport => exact PortTaken.portIs hns hport
    | flowDirection _ hport => exact PortTaken.portIs hns hport
    | _ => exact absurd rfl hports

/-- **A RUN** over the options of a line. -/
theorem SaSteps.portIs {opts : List SaOpt} {c c' : SaCore} (h : SaSteps saEnv opts c c')
    {ns : List Int} (hns : PortIs ns c.rule.portid) :
    PortIs (ns ++ saPorts opts) c'.rule.portid := by
  induction h generalizing ns with
  | nil =>
      rw [saPorts, List.append_nil]
      exact hns
  | cons hstep _ ih =>
      rename_i o opts _ _ _ _
      have hnext := ih (SaStep.portIs hstep hns)
      rw [List.append_assoc] at hnext
      have hsplit : saPorts [o] ++ saPorts opts = saPorts (o :: opts) := by
        cases o <;> rfl
      rw [hsplit] at hnext
      exact hnext

/-- **A LINE**: its rule has the port its texts name. -/
theorem Accepts.portIs {t : SaTables} {tok : String} {tokens : List String}
    {st : ParseStatus} {rule : SaRule} (h : Accepts saEnv t tok tokens st rule) :
    PortIs (saPorts (lineOpts tokens)) rule.portid := by
  obtain ⟨spi, cnt, nb, udp, c, -, hsteps, -, rfl⟩ := h.steps
  have hrun := SaSteps.portIs hsteps portIs_start
  have hsettle : c.settle.portid = c.rule.portid := by
    rw [SaCore.settle]
    split <;> rfl
  rw [hsettle]
  exact hrun

/-! ## The port of a slot -/

section slots

open SadModel SpiSearch SaInit SaXform

variable {lib : SadLib} {plat : Platform} {t : Tables} {inbound : Bool} {i : Nat}
  {e : IpsecSa} {s s' : RuleState lib} {rc : Int}

/-- The slot that has been written. -/
theorem setSa_portid (s : RuleState lib) (i : Nat) (slot : SaSlot) :
    ((s.setSa i slot).tbl.sa i).sa.portid = slot.sa.portid := by
  show (Function.update s.tbl.sa i slot i).sa.portid = _
  rw [Function.update_self]

/-- A session leaves the port. -/
theorem addSession_portid {slot : SaSlot}
    (h : addSession plat inbound i slot s = .ok (rc, s')) :
    (s'.tbl.sa i).sa.portid = slot.sa.portid := by
  rw [addSession] at h
  split at h
  · cases hc : createInlineSession plat inbound i slot with
    | error x =>
        rw [hc] at h
        cases h
    | ok r =>
        obtain ⟨rc', slot'⟩ := r
        rw [hc] at h
        obtain ⟨-, rfl⟩ := Prod.mk.inj (Except.ok.inj h)
        rw [setSa_portid]
        rcases createInlineSession_slot hc with rfl | ⟨ses, fl, rfl⟩
        · rfl
        · rfl
  · obtain ⟨-, rfl⟩ := Prod.mk.inj (Except.ok.inj h)
    exact setSa_portid s i slot

theorem addBody_portid (h : addBody plat t inbound i e s = .ok (rc, s')) :
    (s'.tbl.sa i).sa.portid = e.portid := by
  have haddr : (setAddresses t { e with seq := 0 }).2.portid = e.portid := by
    rw [setAddresses_fields]
  -- rounds that end early
  have hend : ∀ {rc' : Int} {slot : SaSlot}, slot.sa.portid = e.portid →
      (.ok (rc', s.setSa i slot) : Except Stop (Int × RuleState lib)) = .ok (rc, s') →
      (s'.tbl.sa i).sa.portid = e.portid := by
    intro rc' slot hslot heq
    obtain ⟨-, rfl⟩ := Prod.mk.inj (Except.ok.inj heq)
    exact (setSa_portid s i slot).trans hslot
  rw [addBody] at h
  dsimp only at h
  split at h
  · exact hend rfl h
  split at h
  · exact hend haddr h
  rw [addXforms] at h
  split at h
  · exact (addSession_portid h).trans haddr
  split at h
  · exact hend haddr h
  · exact (addSession_portid h).trans haddr

/-- **A ROUND** leaves the port of its entry in a blank slot, also when it fails. -/
theorem saAddRule_portid (hblank : Blank s.tbl i)
    (h : saAddRule plat t inbound i e s = .ok (rc, s')) :
    (s'.tbl.sa i).sa.portid = e.portid := by
  rw [saAddRule, if_neg (not_not.mpr hblank.spi)] at h
  dsimp only at h
  split at h
  · split at h
    · obtain ⟨-, rfl⟩ := Prod.mk.inj (Except.ok.inj h)
      exact setSa_portid s i ⟨e, none⟩
    · exact addBody_portid h
  · exact addBody_portid h

/-- **THE LOOP**: a slot has the port of its entry, or has not been got to. -/
theorem saAddRules_portid {k : Nat} {entries : List IpsecSa} (hblank : BlankFrom i s.tbl)
    (h : saAddRules plat t inbound i entries s = .ok (rc, s')) (he : entries[k]? = some e) :
    (s'.tbl.sa (i + k)).sa.portid = e.portid ∨ s'.tbl.sa (i + k) = {} := by
  induction entries generalizing i k s with
  | nil => cases he
  | cons d entries ih =>
      have hfirst := hblank i (Nat.le_refl i)
      cases k with
      | zero =>
          obtain rfl := Option.some.inj he
          refine .inl ?_
          show (s'.tbl.sa i).sa.portid = d.portid
          rcases saAddRules_cases h with ⟨-, hr⟩ | ⟨s1, hr, h⟩
          · exact saAddRule_portid hfirst hr
          · rw [(saAddRules_off h (Nat.lt_succ_self i)).1]
            exact saAddRule_portid hfirst hr
      | succ k =>
          rw [show i + (k + 1) = i + 1 + k by omega]
          rcases saAddRules_cases h with ⟨-, hr⟩ | ⟨s1, hr, h⟩
          · have hlater := (saAddRule_off hr).blankFrom hblank
            exact .inr (hlater (i + 1 + k) (Nat.le_add_right _ k)).1
          · exact ih ((saAddRule_off hr).blankFrom hblank) h he

/-- **A SOCKET**: a SA has the port of its entry, or `sa_init` has not got to it. -/
theorem saInit_portid {ctx : SocketCtx lib} (h : saInit lib plat t (some {}) = .ok ctx)
    {inbound : Bool} {k : Nat} {e : IpsecSa} (he : (saEntries t inbound)[k]? = some e) :
    (SpInit.sar (ctx.sas inbound) k).portid = e.portid
      ∨ SpInit.sar (ctx.sas inbound) k = {} := by
  rcases SpInit.saInitDirection_ok (SpInit.saInit_ok h inbound) with
    ⟨hnil, -⟩ | ⟨tbl, rc, s, hfresh, hrules, hsas⟩
  · rw [hnil] at he
    cases he
  · have hslot := saAddRules_portid (freshTable_blank hfresh) hrules he
    rw [Nat.zero_add] at hslot
    rw [hsas]
    refine hslot.imp id fun hblank => ?_
    show (s.tbl.sa k).sa = {}
    rw [hblank]

end slots

/-! ## A configured gateway -/

/-- A configuration that is accepted, and what `rt_init` and `sa_init` have made of it
    on a socket. -/
structure Gateway where
  net : InetPton
  saEnv : SaEnv
  rtLines : List Line
  read : RtTables × ParseStatus
  accepted : Rt.rtLines net rtLines = some read
  lpm4 : RteLpm UInt32 ip4Bytes
  lpm6 : RteLpm (List UInt8) id
  tbl4 : lpm4.Table
  tbl6 : lpm6.Table
  init4 : rtInit lpm4 read.1.rtIp4 = some tbl4
  init6 : rtInit lpm6 read.1.rtIp6 = some tbl6
  /-- the memory of SAs -/
  sa : SaPtr → IpsecSa
  /-- the line whose rule has been copied to a place -/
  saLine : SaPtr → Option Line
  copied : ∀ p line, saLine p = some line → ∃ t st rule,
    Accepts saEnv t line.1 line.2 st rule ∧ (sa p).portid = rule.portid

/-- The entry that is made of a line. -/
def EntryOf (saEnv : SaEnv) (line : Line) (e : IpsecSa) : Prop :=
  ∃ t st rule, Accepts saEnv t line.1 line.2 st rule ∧ e = rule.stored

/-- The SAs of a socket, the outbound ones behind the `nbIn` inbound ones. -/
def socketMem {lib : SadModel.SadLib} (ctx : SaInit.SocketCtx lib) (nbIn : Nat) (p : SaPtr) :
    IpsecSa :=
  if p < nbIn then SpInit.sar ctx.saIn p else SpInit.sar ctx.saOut (p - nbIn)

/-- The port of a SA that `sa_init` has made of the line that stands there. -/
theorem socketMem_copied {saEnv : SaEnv} {lib : SadModel.SadLib} {plat : SaInit.Platform}
    {t : Tables} {ctx : SaInit.SocketCtx lib} (h : SaInit.saInit lib plat t (some {}) = .ok ctx)
    {linesIn linesOut : List Line} (hin : List.Forall₂ (EntryOf saEnv) linesIn t.saIn)
    (hout : List.Forall₂ (EntryOf saEnv) linesOut t.saOut) {p : SaPtr} {line : Line}
    (hline : (linesIn ++ linesOut)[p]? = some line)
    (hspi : (socketMem ctx linesIn.length p).spi ≠ 0) :
    ∃ t st rule, Accepts saEnv t line.1 line.2 st rule
      ∧ (socketMem ctx linesIn.length p).portid = rule.portid := by
  -- a slot of a direction with the line of its entry
  have hslot : ∀ (inbound : Bool) (lines : List Line) (k : Nat),
      List.Forall₂ (EntryOf saEnv) lines (SpiSearch.saEntries t inbound) →
      lines[k]? = some line → (SpInit.sar (ctx.sas inbound) k).spi ≠ 0 →
      ∃ t st rule, Accepts saEnv t line.1 line.2 st rule
        ∧ (SpInit.sar (ctx.sas inbound) k).portid = rule.portid := by
    intro inbound lines k hlines hk hspi
    obtain ⟨hlt, rfl⟩ := List.getElem?_eq_some_iff.mp hk
    have hlt' : k < (SpiSearch.saEntries t inbound).length := hlines.length_eq ▸ hlt
    obtain ⟨t', st, rule, hacc, he⟩ := hlines.get hlt hlt'
    refine ⟨t', st, rule, hacc, ?_⟩
    rcases saInit_portid h (List.getElem?_eq_getElem hlt') with hport | hblank
    · have hrule := congrArg IpsecSa.portid he
      exact hport.trans hrule
    · rw [hblank] at hspi
      exact absurd rfl hspi
  rw [socketMem] at hspi ⊢
  by_cases hp : p < linesIn.length
  · rw [if_pos hp] at hspi ⊢
    rw [List.getElem?_append_left hp] at hline
    exact hslot true linesIn p hin hline hspi
  · rw [if_neg hp] at hspi ⊢
    rw [List.getElem?_append_right (Nat.not_lt.mp hp)] at hline
    exact hslot false linesOut (p - linesIn.length) hout hline hspi

/-- The same routes, with the SAs `sa_init` has made of lines; a line it has not got to has
    no SA. -/
def Gateway.withSas (gw : Gateway) {lib : SadModel.SadLib} {plat : SaInit.Platform}
    {t : Tables} {ctx : SaInit.SocketCtx lib} (h : SaInit.saInit lib plat t (some {}) = .ok ctx)
    {linesIn linesOut : List Line} (hin : List.Forall₂ (EntryOf gw.saEnv) linesIn t.saIn)
    (hout : List.Forall₂ (EntryOf gw.saEnv) linesOut t.saOut) : Gateway :=
  { gw with
    sa := socketMem ctx linesIn.length
    saLine := fun p =>
      if (socketMem ctx linesIn.length p).spi = 0 then none else (linesIn ++ linesOut)[p]?
    copied := by
      intro p line hline
      split at hline
      · cases hline
      · rename_i hspi
        exact socketMem_copied h hin hout hline hspi }

/-- The route table of the socket. -/
def Gateway.table (gw : Gateway) : RouteTable :=
  ⟨gw.lpm4.lookup gw.tbl4, gw.lpm6.lookup gw.tbl6⟩

/-- A world that the lcores reach from the one `sa_init` leaves. -/
def Gateway.Reached (gw : Gateway) (w : World) : Prop :=
  ∃ w0 : World, w0.sa = gw.sa ∧ SaConfig.Reaches w0 w

/-- Ports stay what they were configured to be. -/
theorem Gateway.Reached.portid {gw : Gateway} {w : World} (h : gw.Reached w) (p : SaPtr) :
    (w.sa p).portid = (gw.sa p).portid := by
  obtain ⟨w0, hsa, hreaches⟩ := h
  rw [hreaches.kept.portid p, hsa]

/-- Where an index comes from: a destination that is looked up, or an SA. -/
inductive Origin
  | route4 (a : UInt32)
  | route6 (a : List UInt8)
  | sa (p : SaPtr)

/-- The numbers the configuration gives for the port of an origin: that of the
    matching line, or those in the line of the SA. -/
def Gateway.configured (gw : Gateway) : Origin → List Int
  | .route4 a =>
      ((matching ip4Bytes a (ofFamily "ipv4" gw.rtLines) gw.read.1.rtIp4).map
        fun line => (lastPort 0 line.2 : Int)).toList
  | .route6 a =>
      ((matching id a (ofFamily "ipv6" gw.rtLines) gw.read.1.rtIp6).map
        fun line => (lastPort 0 line.2 : Int)).toList
  | .sa p => ((gw.saLine p).map fun line => saPorts (lineOpts line.2)).getD []

/-- The destination of a packet, behind so many bytes of link header. -/
def dst4 (skip : Nat) (m : Mbuf) : UInt32 :=
  UInt32.ofNat (ofBe (load m.buf (m.dataOff + skip + 16) 4))

def dst6 (skip : Nat) (m : Mbuf) : List UInt8 := load m.buf (m.dataOff + skip + 24) 16

/-- An index into the tables of ports. -/
inductive PortUse (gw : Gateway) : Origin → Nat → Prop
  /-- `route4_pkts`, `route6_pkts`, for a packet whose destination is looked up -/
  | route4 {m hop} (hhop : lpm4Hop gw.table m = some hop) :
      PortUse gw (.route4 (dst4 0 m)) (hopPort hop)
  | route6 {m hop} (hhop : lpm6Hop gw.table m = some hop) :
      PortUse gw (.route6 (dst6 0 m)) (hopPort hop)
  /-- for a packet whose device works with an SA -/
  | offload {w m hop p} (hreach : gw.Reached w) (hsa : (w.mbuf m).priv.sa = some p)
      (hhop : getHopForOffloadPkt w m = some hop) : PortUse gw (.sa p) (hopPort hop)
  /-- `update_mac_addrs` behind `get_route` -/
  | evRoute4 {pkt} (hfound : route4Pkt pkt gw.table ≠ rteMaxEthports) :
      PortUse gw (.route4 (dst4 rteEtherHdrLen pkt)) (route4Pkt pkt gw.table).toNat
  | evRoute6 {pkt} (hfound : route6Pkt pkt gw.table ≠ rteMaxEthports) :
      PortUse gw (.route6 (dst6 rteEtherHdrLen pkt)) (route6Pkt pkt gw.table).toNat
  /-- behind `rte_security_set_pkt_metadata` -/
  | evSa {g p pkt r} (hmem : g.mem = gw.sa) (hsend : sendWithSa g p pkt = some r) :
      PortUse gw (.sa p) r.2.toNat

/-- The index is in range, and the number configured. -/
def Right (gw : Gateway) (o : Origin) (i : Nat) : Prop :=
  i < maxEthports ∧ gw.configured o ≠ [] ∧ ∀ n ∈ gw.configured o, n = i

/-- All numbers configured are ports there are. -/
def Fits (gw : Gateway) (o : Origin) : Prop :=
  gw.configured o ≠ [] ∧ ∀ n ∈ gw.configured o, InRange n

variable {gw : Gateway} {o : Origin} {i : Nat}

/-- A right index is a number in range; the code has to keep such a number. -/
theorem right_iff_of_keeps
    (h : Fits gw o → i < maxEthports ∧ ∀ n ∈ gw.configured o, n = i) :
    Right gw o i ↔ Fits gw o := by
  constructor
  · rintro ⟨hlt, hne, hsame⟩
    refine ⟨hne, fun n hn => ?_⟩
    rw [hsame n hn]
    exact ⟨Int.natCast_nonneg i, Int.ofNat_lt.mpr hlt⟩
  · intro hfits
    exact ⟨(h hfits).1, hfits.1, (h hfits).2⟩

/-- A route with one number keeps it. -/
theorem route_keeps {best : Option Line} {hop : UInt32}
    (hconf : gw.configured o = (best.map fun line => (lastPort 0 line.2 : Int)).toList)
    (hlook : (best.map fun line => (portByte (lastPort 0 line.2)).toUInt32) = some hop)
    (hi : i = hop.toNat % 0x100 ∨ i = hop.toNat % 0x10000) : Right gw o i ↔ Fits gw o := by
  obtain ⟨line, rfl, hhop⟩ := Option.map_eq_some_iff.mp hlook
  refine right_iff_of_keeps ?_
  rintro ⟨-, hall⟩
  rw [hconf] at hall ⊢
  have hlt : lastPort 0 line.2 < maxEthports :=
    Int.ofNat_lt.mp (hall _ (List.mem_singleton.mpr rfl)).2
  have hmax : maxEthports = 32 := rfl
  have hi' : i = lastPort 0 line.2 := by
    rw [← hhop, UInt8.toNat_toUInt32, portByte_of_lt hlt] at hi
    omega
  refine ⟨hi' ▸ hlt, fun n hn => ?_⟩
  rw [List.mem_singleton.mp hn, hi']

/-- An SA keeps the number of its line. -/
theorem sa_keeps {p : SaPtr} (hi : i % 0x100 = (gw.sa p).portid.toNat % 0x100)
    (hlt : i < 0x100 ∨ i = (gw.sa p).portid.toNat) :
    Right gw (.sa p) i ↔ Fits gw (.sa p) := by
  refine right_iff_of_keeps ?_
  rintro ⟨hne, hall⟩
  cases hline : gw.saLine p with
  | none =>
      rw [Gateway.configured, hline] at hne
      exact absurd rfl hne
  | some line =>
      obtain ⟨t, st, rule, hacc, hport⟩ := gw.copied p line hline
      have hconf : gw.configured (.sa p) = saPorts (lineOpts line.2) := by
        rw [Gateway.configured, hline]
        rfl
      rw [hconf] at hne hall ⊢
      obtain ⟨-, hbound, hsame⟩ := Accepts.portIs hacc hall
      have hbound := hbound hne
      rw [← hport] at hbound hsame
      have hmax : maxEthports = 32 := rfl
      have hi' : i = (gw.sa p).portid.toNat := by omega
      rw [hi']
      exact ⟨hbound, hsame⟩

/-- **PORTS**: an index is in range and the number configured exactly when all numbers
    configured for its origin are ports there are. -/
theorem port_iff (h : PortUse gw o i) : Right gw o i ↔ Fits gw o := by
  -- the tables hold the lines, each with the port it ended with
  have filed := rtLines_filed gw.accepted
  cases h with
  | route4 hhop =>
      rename_i m hop
      obtain ⟨x, hx, rfl⟩ := Option.map_eq_some_iff.mp hhop
      have hlook : gw.lpm4.lookup gw.tbl4 (dst4 0 m) = some x := hx
      rw [lookup_matching gw.lpm4 gw.init4 filed.ip4] at hlook
      exact route_keeps rfl hlook (.inl rfl)
  | route6 hhop =>
      rename_i m hop
      obtain ⟨x, hx, rfl⟩ := Option.map_eq_some_iff.mp hhop
      have hlook : gw.lpm6.lookup gw.tbl6 (dst6 0 m) = some x := hx
      rw [lookup_matching gw.lpm6 gw.init6 filed.ip6] at hlook
      exact route_keeps rfl hlook (.inl rfl)
  | offload hreach hsa hhop =>
      rename_i w m hop p
      rw [getHopForOffloadPkt, hsa] at hhop
      obtain rfl := Option.some.inj hhop
      refine sa_keeps ?_ (.inl (Nat.mod_lt _ (by decide)))
      show (w.sa p).portid.toNat % 0x100 % 0x100 = _
      rw [Nat.mod_mod, hreach.portid p]
  | evRoute4 hfound =>
      rename_i pkt
      rw [route4Pkt] at hfound ⊢
      split at hfound
      · rename_i hop hx
        have hlook : gw.lpm4.lookup gw.tbl4 (dst4 rteEtherHdrLen pkt) = some hop := hx
        rw [lookup_matching gw.lpm4 gw.init4 filed.ip4] at hlook
        exact route_keeps rfl hlook (.inr (UInt32.toNat_toUInt16 hop))
      · exact absurd rfl hfound
  | evRoute6 hfound =>
      rename_i pkt
      rw [route6Pkt] at hfound ⊢
      split at hfound
      · rename_i hop hx
        have hlook : gw.lpm6.lookup gw.tbl6 (dst6 rteEtherHdrLen pkt) = some hop := hx
        rw [lookup_matching gw.lpm6 gw.init6 filed.ip6] at hlook
        exact route_keeps rfl hlook (.inr (UInt32.toNat_toUInt16 hop))
      · exact absurd rfl hfound
  -- event mode takes the port of the SA as it is
  | evSa hmem hsend =>
      rename_i g p pkt r
      have hport : r.2 = (gw.sa p).portid := by
        rw [sendWithSa, hmem] at hsend
        split at hsend
        · cases hsend
        · rw [← Option.some.inj hsend]
      rw [hport]
      exact sa_keeps rfl (.inr rfl)

/-! ## All places -/

/-- **POLL MODE**: every hop of a packet in a world that is reached is an index of this
    kind. -/
theorem pktHop_uses {w : World} (hreach : gw.Reached w) {m : PktId} {hop : Nat} :
    (pktHop w (lpm4Hop gw.table) m = some hop → ∃ o, PortUse gw o (hopPort hop))
      ∧ (pktHop w (lpm6Hop gw.table) m = some hop → ∃ o, PortUse gw o (hopPort hop)) := by
  have hoffload : getHopForOffloadPkt w m = some hop → ∃ o, PortUse gw o (hopPort hop) := by
    intro hhop
    obtain ⟨p, hsa, -⟩ := Option.map_eq_some_iff.mp hhop
    exact ⟨_, .offload hreach hsa hhop⟩
  rw [pktHop, pktHop]
  split
  · exact ⟨hoffload, hoffload⟩
  · exact ⟨fun hhop => ⟨_, .route4 hhop⟩, fun hhop => ⟨_, .route6 hhop⟩⟩

/-- A port that `get_route` has found. -/
theorem getRoute_uses {pkt : Mbuf} {type : PktType}
    (hfound : getRoute pkt gw.table type ≠ rteMaxEthports) :
    ∃ o, PortUse gw o (getRoute pkt gw.table type).toNat := by
  cases type with
  | plainIpv4 => exact ⟨_, .evRoute4 hfound⟩
  | ipsecIpv4 => exact ⟨_, .evRoute4 hfound⟩
  | plainIpv6 => exact ⟨_, .evRoute6 hfound⟩
  | ipsecIpv6 => exact ⟨_, .evRoute6 hfound⟩
  | invalid => exact absurd rfl hfound

theorem routeAndSendPkt_uses {g : Globals} {type : PktType} {pkt pkt' : Mbuf}
    (h : routeAndSendPkt g gw.table type pkt = some pkt') :
    ∃ o, PortUse gw o pkt'.port.toNat := by
  rw [routeAndSendPkt] at h
  split at h
  · cases h
  · rename_i hfound
    rw [← Option.some.inj h]
    exact getRoute_uses hfound

/-- **SINGLE EVENTS**: the port a forwarded event carries is the one its addresses were
    looked up with. -/
theorem inbound_uses {g : Globals} {ctx : EvCtx} {pkt pkt' : Mbuf}
    (h : processIpsecEvInbound g ctx gw.table pkt = some pkt') :
    ∃ o, PortUse gw o pkt'.port.toNat := by
  rw [processIpsecEvInbound] at h
  dsimp only at h
  split at h
  · cases h
  split at h
  · cases h
  split at h
  · cases h
  split at h
  · exact routeAndSendPkt_uses h
  split at h
  · cases h
  split at h
  · cases h
  split at h
  · cases h
  · exact routeAndSendPkt_uses h

theorem outbound_uses {g : Globals} (hmem : g.mem = gw.sa) {ctx : EvCtx} {pkt pkt' : Mbuf}
    (h : processIpsecEvOutbound g ctx gw.table pkt = some pkt') :
    ∃ o, PortUse gw o pkt'.port.toNat := by
  rw [processIpsecEvOutbound] at h
  dsimp only at h
  split at h
  · cases h
  split at h
  · cases h
  split at h
  · split at h
    · cases h
    · rename_i hfound
      rw [← Option.some.inj h]
      exact getRoute_uses hfound
  split at h
  · cases h
  · obtain ⟨r, hsend, rfl⟩ := Option.map_eq_some_iff.mp h
    exact ⟨_, .evSa hmem hsend⟩

/-- **VECTORS**: the same for every packet of a vector that is sent. -/
theorem vector_uses {g : Globals} (hmem : g.mem = gw.sa) (t : VecTraffic) (saCtx : SaCtx) :
    ∀ m ∈ (ipsecEvRoutePkts g gw.table t saCtx).mbufs, ∃ o, PortUse gw o m.port.toNat := by
  let Used := fun v : EvVector => ∀ m ∈ v.mbufs, ∃ o, PortUse gw o m.port.toNat
  have hforward : ∀ {v : EvVector} {pkt : Mbuf} {port : UInt16}, Used v →
      (∃ o, PortUse gw o port.toNat) → Used (v.forward g pkt port) := by
    intro v pkt port hv hport m hm
    rw [forward_mbufs] at hm
    rcases List.mem_append.mp hm with hm | hm
    · exact hv m hm
    · rw [List.mem_singleton.mp hm]
      exact hport
  have hroute : ∀ (route : Mbuf → UInt16),
      (∀ m, route m ≠ rteMaxEthports → ∃ o, PortUse gw o (route m).toNat) →
      ∀ (l : List (Mbuf × Nat)) (v : EvVector), Used v →
        Used (l.foldl (routeOne g route) v) := by
    intro route hfound l v hv
    refine List.foldlRecOn l _ hv ?_
    intro v hv x _
    rw [routeOne]
    split
    · rename_i hx
      exact hforward hv (hfound x.1 hx)
    · exact hv
  have hprotect : ∀ (l : List (Mbuf × UInt32)) (v : EvVector), Used v →
      Used (l.foldl (protectOne g saCtx) v) := by
    intro l v hv
    refine List.foldlRecOn l _ hv ?_
    intro v hv x _
    rw [protectOne]
    split
    · exact hv
    split
    · exact hv
    · rename_i r hsend
      exact hforward hv ⟨_, .evSa hmem hsend⟩
  refine hprotect _ _ (hroute _ (fun m hm => ⟨_, .evRoute6 hm⟩) _ _
    (hroute _ (fun m hm => ⟨_, .evRoute4 hm⟩) _ _ ?_))
  intro m hm
  cases hm

/-! ## A line with a port that there is none of -/

theorem listed_adds {α : Type} (routes : List (Route α)) (t : List (Route α)) :
    routes.foldlM (fun t r => some (t ++ [⟨r.ip, r.depth, r.ifOut.toUInt32.toUInt8⟩])) t
      = some (t ++ routes) := by
  induction routes generalizing t with
  | nil => exact congrArg some (List.append_nil t).symm
  | cons r routes ih =>
      have hr : r.ifOut.toUInt32.toUInt8 = r.ifOut := UInt8.toUInt8_toUInt32 r.ifOut
      rw [List.foldlM_cons, hr]
      refine (ih _).trans ?_
      rw [List.append_assoc]
      rfl

/-- A table that is a list. -/
def listLpm (α : Type) (bytes : α → List UInt8) : RteLpm α bytes where
  Table := List (Route α)
  create := []
  add t ip depth hop := some (t ++ [⟨ip, depth, hop.toUInt8⟩])
  lookup t a := (longestPrefix id bytes a t).map fun r => r.ifOut.toUInt32
  lookup_adds := by
    intro routes t h a
    rw [listed_adds routes []] at h
    rw [← Option.some.inj h, List.nil_append]

/-- A line for `10.1.2.0/24`. -/
def oneRoute (port : String) : Line := ("ipv4", ["dst", "10.1.2.0/24", "port", port])

/-- What is read from it. -/
def oneEntry (port : UInt8) : Route UInt32 := ⟨0x0a010200, 24, port⟩

/-- Its text. -/
theorem oneAddress_chars {s : List Char} {a : UInt32}
    (h : (if s = "10.1.2.0".toList then some (0x0002010a : UInt32) else none) = some a) :
    ∀ c ∈ s, c ∈ "0123456789.".toList := by
  split at h
  · rename_i hs
    rw [hs]
    exact all_mem rfl
  · cases h

/-- There is no other. -/
theorem noAddress_chars {s : List Char} {a : Vector UInt8 16} (h : none = some a) :
    ∀ c ∈ s, c ∈ "0123456789abcdefABCDEF:.".toList := by
  cases h

/-- `inet_pton` for `10.1.2.0`. -/
def oneAddress : InetPton where
  v4 s := if s = "10.1.2.0".toList then some 0x0002010a else none
  v6 _ := none
  v4_chars := oneAddress_chars
  v6_chars := noAddress_chars

/-- The gateway of one line, without SAs. -/
def oneGateway (text : String) (port : UInt8)
    (h : Rt.rtLines oneAddress [oneRoute text] = some ({ rtIp4 := [oneEntry port] }, {})) :
    Gateway where
  net := oneAddress
  saEnv := ⟨oneAddress, true, 0, true⟩
  rtLines := [oneRoute text]
  read := ({ rtIp4 := [oneEntry port] }, {})
  accepted := h
  lpm4 := listLpm UInt32 ip4Bytes
  lpm6 := listLpm (List UInt8) id
  tbl4 := [oneEntry port]
  tbl6 := []
  init4 := listed_adds [oneEntry port] []
  init6 := rfl
  sa := fun _ => {}
  saLine := fun _ => none
  copied := by
    intro p line h
    cases h

theorem line_forty : Rt.rtLines oneAddress [oneRoute "40"]
    = some ({ rtIp4 := [oneEntry 40] }, {}) := rfl

theorem line_three : Rt.rtLines oneAddress [oneRoute "3"]
    = some ({ rtIp4 := [oneEntry 3] }, {}) := rfl

/-- A packet for `10.1.2.9`, behind its link header. -/
def toTen : Mbuf where
  addr := 0
  buf := store (fun _ => 0) 30 [10, 1, 2, 9]
  bufLen := 60
  dataOff := 0
  dataLen := 60
  window := by decide
  bufLen_le := by decide

theorem toTen_dst : dst4 rteEtherHdrLen toTen = 0x0a010209 := by decide

/-- The line is accepted, the packet is given to `update_mac_addrs` with port 40, and there
    are 32. -/
theorem forty_used : PortUse (oneGateway "40" 40 line_forty) (.route4 0x0a010209) 40
    ∧ ¬ Right (oneGateway "40" 40 line_forty) (.route4 0x0a010209) 40 := by
  have hroute : route4Pkt toTen (oneGateway "40" 40 line_forty).table = 40 := by decide
  have huse := @PortUse.evRoute4 (oneGateway "40" 40 line_forty) toTen
    (by rw [hroute]; decide)
  rw [hroute, toTen_dst] at huse
  exact ⟨huse, fun h => absurd h.1 (by decide)⟩

theorem three_used : PortUse (oneGateway "3" 3 line_three) (.route4 0x0a010209) 3 := by
  have hroute : route4Pkt toTen (oneGateway "3" 3 line_three).table = 3 := by decide
  have huse := @PortUse.evRoute4 (oneGateway "3" 3 line_three) toTen
    (by rw [hroute]; decide)
  rw [hroute, toTen_dst] at huse
  exact huse

/-- A line of an outbound SA whose packets are protected on port 3. -/
def inlineLine : Line :=
  ("out", ["6", "aead_algo", "aes-128-gcm", "aead_key", zeroKey, "mode", "transport", "type",
    "inline-protocol-offload", "port_id", "3"])

def inlineEnv : SaEnv := ⟨oneAddress, true, 0, true⟩

/-- Its rule. -/
def inlineRule : SaRule :=
  ((parseSaTokens inlineEnv {} inlineLine.1 inlineLine.2 {}).toOption.bind
    fun r => r.1.saOut.head?).getD {}

theorem inlineLine_accepted :
    Accepts inlineEnv {} inlineLine.1 inlineLine.2 {} inlineRule := ⟨_, _, rfl, rfl⟩

def inlineSas : Tables := { saOut := [inlineRule.stored] }

/-- Devices that protect packets on their own. -/
def inlinePlatform : SaInit.Platform :=
  { SaInit.plainPlatform with
    securityCapabilitiesGet :=
      fun _ => some [⟨.inlineProtocol, some (.transport, .egress), 0⟩] }

/-- `sa_init` makes the SA, with a session on its port. -/
theorem inlineSas_made :
    ∃ ctx, SaInit.saInit Sad.spiLib inlinePlatform inlineSas (some {}) = .ok ctx
      ∧ (SpInit.sar ctx.saOut 0).spi = 6
      ∧ (SpInit.sar ctx.saOut 0).primary.type = .inlineProtocol
      ∧ (SpInit.sar ctx.saOut 0).primary.ses = some 0
      ∧ (SpInit.sar ctx.saOut 0).portid = 3 := by
  have hread : (SaInit.saInit Sad.spiLib inlinePlatform inlineSas (some {})).toOption.map
      (fun ctx => ((SpInit.sar ctx.saOut 0).spi, (SpInit.sar ctx.saOut 0).primary.type,
        (SpInit.sar ctx.saOut 0).primary.ses, (SpInit.sar ctx.saOut 0).portid))
      = some (6, .inlineProtocol, some 0, 3) := rfl
  cases h : SaInit.saInit Sad.spiLib inlinePlatform inlineSas (some {}) with
  | error x =>
      rw [h] at hread
      cases hread
  | ok ctx =>
      rw [h] at hread
      have hread := Option.some.inj hread
      exact ⟨ctx, rfl, congrArg (·.1) hread, congrArg (·.2.1) hread,
        congrArg (·.2.2.1) hread, congrArg (·.2.2.2) hread⟩

/-- The gateway with the route and the SA. -/
def inlineGateway {ctx : SaInit.SocketCtx Sad.spiLib}
    (h : SaInit.saInit Sad.spiLib inlinePlatform inlineSas (some {}) = .ok ctx) : Gateway :=
  (oneGateway "3" 3 line_three).withSas h .nil
    (.cons ⟨{}, {}, inlineRule, inlineLine_accepted, rfl⟩ .nil)

/-- A packet for the SA goes out through port 3. -/
theorem inline_used {ctx : SaInit.SocketCtx Sad.spiLib}
    (h : SaInit.saInit Sad.spiLib inlinePlatform inlineSas (some {}) = .ok ctx)
    (htype : (SpInit.sar ctx.saOut 0).primary.type = .inlineProtocol)
    (hport : (SpInit.sar ctx.saOut 0).portid = 3) : PortUse (inlineGateway h) (.sa 0) 3 := by
  let g : Globals :=
    { mem := (inlineGateway h).sa
      ethaddrTbl := fun _ => ([], [])
      setPktMetadata := fun _ m => m
      setPktMetadata_addr := fun _ _ => rfl }
  have hmem : g.mem 0 = SpInit.sar ctx.saOut 0 := rfl
  have hsend : sendWithSa g 0 toTen
      = some ({ toTen with olFlags := toTen.olFlags ||| txSecOffload }, 3) := by
    rw [sendWithSa, hmem, if_neg (not_not.mpr htype), hport]
  exact @PortUse.evSa (inlineGateway h) g 0 toTen _ rfl hsend

theorem port_iff_three :
    (Right (oneGateway "3" 3 line_three) (.route4 0x0a010209) 3
        ↔ Fits (oneGateway "3" 3 line_three) (.route4 0x0a010209))
      ∧ ∃ (ctx : SaInit.SocketCtx Sad.spiLib)
          (h : SaInit.saInit Sad.spiLib inlinePlatform inlineSas (some {}) = .ok ctx),
        Fits (inlineGateway h) (.sa 0)
          ∧ (Right (inlineGateway h) (.sa 0) 3 ↔ Fits (inlineGateway h) (.sa 0)) := by
  obtain ⟨ctx, h, hspi, htype, -, hport⟩ := inlineSas_made
  have hline : (inlineGateway h).saLine 0 = some inlineLine := by
    show (if (SpInit.sar ctx.saOut 0).spi = 0 then none else some inlineLine) = _
    rw [hspi]
    rfl
  have hconf : (inlineGateway h).configured (.sa 0) = [3] := by
    rw [Gateway.configured, hline]
    rfl
  refine ⟨port_iff three_used, ctx, h, ?_, port_iff (inline_used h htype hport)⟩
  rw [Fits, hconf]
  refine ⟨List.cons_ne_nil 3 [], fun n hn => ?_⟩
  rw [List.mem_singleton.mp hn]
  exact ⟨by decide, by decide⟩

end TxPort
