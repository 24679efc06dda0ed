import IpsecSecgw.AddrProofs
import IpsecSecgw.CfgLinesModel
import IpsecSecgw.Lib.Outcome
import IpsecSecgw.SaParseProofs
import IpsecSecgw.SpParseProofs

/-! # Lines are independent -/

namespace CfgLines

open Growing Outcome SaModel ParserModel

/-! ## Errors -/

section SaErrors

open SaParse

/-- A handler returns early with a status below zero. -/
def Failed (e : Stop SaScan) : Prop := ∀ s, e = .ret s → s.st.status < 0

variable {env : SaEnv} {α : Type} {P : α → Prop}

/-- The computation goes well or has failed. -/
abbrev Checked (x : Except (Stop SaScan) α) : Prop := Ends x Failed fun _ => True

theorem failed_fault {f : ParseFault} : Failed (.fault f) := by
  intro s h
  cases h

theorem checked_check (s : SaScan) (exp : Bool) (msg : String) : Checked (s.check exp msg) := by
  cases exp with
  | true => exact ends_ok trivial
  | false =>
      refine ends_error fun s' h => ?_
      cases h
      exact (by decide : (-1 : Int) < 0)

theorem Checked.bind {β : Type} {x : Except (Stop SaScan) α} {f : α → Except (Stop SaScan) β}
    (h : Checked x) (hf : ∀ a, Checked (f a)) : Checked (x >>= f) :=
  Ends.bind h fun a _ => hf a

theorem checked_ok (a : α) : Checked (.ok a : Except (Stop SaScan) α) := trivial

theorem checked_next (s : SaScan) : Checked s.next := by
  unfold SaScan.next
  split
  · exact checked_check _ _ _
  · exact checked_check _ _ _

theorem checked_key (s : SaScan) (keyword : String) (a lenAt : Nat) :
    Checked (s.key keyword a lenAt) := by
  refine (checked_next s).bind fun s => (checked_check s _ _).bind fun s =>
    (checked_next s).bind fun s => ?_
  cases parseKeyString a s.cur s.rule.keys with
  | error f => exact ends_error failed_fault
  | ok r => exact (checked_check _ _ _).bind fun _ => checked_ok _

theorem checked_takeSalt (s : SaScan) (a lenAt : Nat) (n : UInt32) :
    Checked (s.takeSalt a lenAt n) := by
  unfold SaScan.takeSalt
  split
  · exact ends_error failed_fault
  · exact checked_ok _

theorem checked_mode (s : SaScan) : Checked (saMode s) := by
  refine (checked_check s _ _).bind fun s => (checked_next s).bind fun s => ?_
  cases modeOf s.cur with
  | some md => exact checked_ok _
  | none => exact checked_check _ _ _

theorem checked_cipher (s : SaScan) : Checked (saCipher env s) := by
  refine (checked_check s _ _).bind fun s => (checked_next s).bind fun s => ?_
  cases findMatchCipherAlgo s.cur with
  | none => exact checked_check _ _ _
  | some algo =>
      refine (checked_check s _ _).bind fun s => ?_
      by_cases hnull : algo.algo = .null
      · rw [if_pos hnull]
        exact checked_ok _
      · rw [if_neg hnull]
        refine (checked_key _ _ _ _).bind fun r => Checked.bind ?_ fun s => checked_ok _
        unfold cipherSalt
        split
        · exact checked_ok _
        · split
          · exact checked_takeSalt _ _ _ _
          · exact checked_ok _

theorem checked_auth (s : SaScan) : Checked (saAuth s) := by
  refine (checked_check s _ _).bind fun s => (checked_next s).bind fun s => ?_
  cases findMatchAuthAlgo s.cur with
  | none => exact checked_check _ _ _
  | some algo =>
      refine (checked_check s _ _).bind fun s => ?_
      by_cases hnull : algo.algo = .null
      · rw [if_pos hnull]
        exact checked_ok _
      · rw [if_neg hnull]
        refine (checked_key _ _ _ _).bind fun r => Checked.bind ?_ fun s => checked_ok _
        unfold authSalt
        split
        · exact checked_takeSalt _ _ _ _
        · exact checked_ok _

theorem checked_aead (s : SaScan) : Checked (saAead s) := by
  refine (checked_check s _ _).bind fun s => (checked_next s).bind fun s => ?_
  cases findMatchAeadAlgo s.cur with
  | none => exact checked_check _ _ _
  | some algo =>
      exact (checked_check s _ _).bind fun s => (checked_key _ _ _ _).bind fun r =>
        (checked_takeSalt _ _ _ _).bind fun _ => checked_ok _

theorem checked_addr (a : IpAddr) (s : SaScan) : Checked (saAddr env a s) := by
  unfold saAddr
  split
  · split
    · exact (checked_check _ _ _).bind fun _ => checked_ok _
    · exact (checked_check _ _ _).bind fun _ => checked_ok _
  · split
    · split
      · exact (checked_check _ _ _).bind fun _ => checked_ok _
      · exact (checked_check _ _ _).bind fun _ => checked_ok _
    · split
      · exact (checked_check _ _ _).bind fun _ => checked_ok _
      · exact checked_ok _

theorem checked_src (s : SaScan) : Checked (saSrc env s) :=
  (checked_check s _ _).bind fun s => (checked_next s).bind fun s =>
    (checked_addr _ s).bind fun _ => checked_ok _

theorem checked_dst (s : SaScan) : Checked (saDst env s) :=
  (checked_check s _ _).bind fun s => (checked_next s).bind fun s =>
    (checked_addr _ s).bind fun _ => checked_ok _

theorem checked_type (s : SaScan) : Checked (saType s) := by
  refine (checked_check s _ _).bind fun s => (checked_next s).bind fun s => ?_
  cases typeOf s.cur with
  | some type => exact checked_ok _
  | none => exact checked_check _ _ _

theorem checked_portid (s : SaScan) : Checked s.portid := by
  unfold SaScan.portid
  split
  · exact checked_ok _
  · split
    · exact checked_check _ _ _
    · exact checked_ok _

theorem checked_fallback (s : SaScan) : Checked (saFallback env s) := by
  refine (checked_check s _ _).bind fun s => (checked_check s _ _).bind fun s =>
    (checked_check s _ _).bind fun s => (checked_check s _ _).bind fun s =>
    (checked_next s).bind fun s => ?_
  cases fallbackOf s.cur with
  | some type => exact checked_ok _
  | none => exact checked_check _ _ _

theorem checked_flowDirection (s : SaScan) : Checked (saFlowDirection s) := by
  unfold saFlowDirection
  split
  · exact (checked_next _).bind fun s => (checked_portid s).bind fun s =>
      (checked_next s).bind fun _ => checked_ok _
  · exact checked_check _ _ _

theorem checked_udpEncap (s : SaScan) : Checked (saUdpEncap s) := by
  unfold saUdpEncap
  split
  · exact (checked_check _ _ _).bind fun _ => checked_ok _
  · split
    · exact checked_ok _
    · exact checked_check _ _ _

theorem checked_ite {p : Prop} [Decidable p] {x y : Except (Stop SaScan) α} (hx : Checked x)
    (hy : Checked y) : Checked (if p then x else y) := by
  by_cases hp : p
  · rw [if_pos hp]
    exact hx
  · rw [if_neg hp]
    exact hy

theorem checked_portId (s : SaScan) : Checked (saPortId s) :=
  (checked_check s _ _).bind fun s => (checked_next s).bind fun s =>
    (checked_portid s).bind fun _ => checked_ok _

theorem checked_mss (s : SaScan) : Checked (saMss s) :=
  (checked_next s).bind fun _ => checked_ok _

theorem checked_esn (s : SaScan) : Checked (saEsn s) :=
  (checked_next s).bind fun _ => checked_ok _

/-- A round of the loop. -/
theorem checked_option (s : SaScan) : Checked (saOption env s) :=
  checked_ite (checked_mode s) <| checked_ite (checked_ok _) <| checked_ite (checked_cipher s) <|
  checked_ite (checked_auth s) <| checked_ite (checked_aead s) <| checked_ite (checked_src s) <|
  checked_ite (checked_dst s) <| checked_ite (checked_type s) <|
  checked_ite (checked_portId s) <| checked_ite (checked_mss s) <| checked_ite (checked_esn s) <|
  checked_ite (checked_fallback s) <| checked_ite (checked_flowDirection s) <|
  checked_ite (checked_udpEncap s) (checked_check _ _ _)

theorem checked_loop (n : Nat) (s : SaScan) : Checked (saLoop env n s) := by
  induction n generalizing s with
  | zero => exact checked_ok _
  | succ n ih =>
      rw [saLoop]
      cases s.rest with
      | nil => exact checked_ok _
      | cons t rest => exact (checked_option _).bind ih

theorem checked_complete (s : SaScan) : Checked (saComplete s) := by
  refine Checked.bind ?_ fun s => checked_check s _ _
  unfold saAlgos
  split
  · exact (checked_check s _ _).bind fun s => checked_check s _ _
  · exact (checked_check s _ _).bind fun s => checked_check s _ _

/-- What a line leaves that was refused: a status below zero, or it has no SPI. -/
def Refused (direction : Direction) (spi : String) (cnt : IpsecSaCnt) (nb : UInt32) (udp : Bool)
    (e : Stop SaScan) : Prop :=
  ∀ s, e = .ret s → s.st.status < 0 ∨ atoiText spi = SaModel.discard
    ∧ s.toSaCore
      = { rule := { direction := direction }, cnt := cnt, nbCryptoSessions := nb, udpEncap := udp }

/-- **ERRORS** of a line. -/
theorem saScan_refused (direction : Direction) (spi : String) (rest : List String)
    (cnt : IpsecSaCnt) (nb : UInt32) (udp : Bool) (st : ParseStatus) :
    Ends (saScan env direction (spi :: rest) cnt nb udp st) (Refused direction spi cnt nb udp)
      fun _ => True := by
  have hfailed : ∀ e, Failed e → Refused direction spi cnt nb udp e :=
    fun e he s hs => .inl (he s hs)
  refine Ends.bind (P := fun s => s.toSaCore
    = { rule := { direction := direction }, cnt := cnt, nbCryptoSessions := nb, udpEncap := udp })
    ?_ fun s hs => ?_
  · cases hnum : isStrNum spi with
    | true => exact ends_ok rfl
    | false =>
        refine ends_error (hfailed _ fun s' hs' => ?_)
        cases hs'
        exact (by decide : (-1 : Int) < 0)
  · by_cases hzero : atoiText spi = SaModel.discard
    · rw [if_pos hzero]
      refine ends_error fun s' hs' => .inr ⟨hzero, ?_⟩
      cases hs'
      exact hs
    · rw [if_neg hzero]
      exact Ends.mono ((checked_loop _ _).bind fun s => (checked_complete s).bind
        fun _ => checked_ok _) hfailed fun _ h => h

end SaErrors

section SpErrors

open SpParse

variable {n : Nat} {fam : SpFamily n} {α : Type}

/-- The same for the lines for SPs. -/
abbrev SpChecked (x : Except (SpScan n) α) : Prop :=
  Ends x (fun s => s.st.status < 0) fun _ => True

theorem spChecked_check (s : SpScan n) (exp : Bool) (msg : String) :
    SpChecked (s.check exp msg) := by
  cases exp with
  | true => exact ends_ok trivial
  | false => exact ends_error (by decide : (-1 : Int) < 0)

theorem SpChecked.bind {β : Type} {x : Except (SpScan n) α} {f : α → Except (SpScan n) β}
    (h : SpChecked x) (hf : ∀ a, SpChecked (f a)) : SpChecked (x >>= f) :=
  Ends.bind h fun a _ => hf a

theorem spChecked_ok (a : α) : SpChecked (.ok a : Except (SpScan n) α) := trivial

theorem spChecked_ite {p : Prop} [Decidable p] {x y : Except (SpScan n) α} (hx : SpChecked x)
    (hy : SpChecked y) : SpChecked (if p then x else y) := by
  by_cases hp : p
  · rw [if_pos hp]
    exact hx
  · rw [if_neg hp]
    exact hy

theorem spChecked_next (s : SpScan n) : SpChecked s.next := by
  unfold SpScan.next
  split
  · exact spChecked_check _ _ _
  · exact spChecked_check _ _ _

theorem spChecked_esp (s : SpScan n) : SpChecked (spEsp s) :=
  (spChecked_check s _ _).bind fun _ => spChecked_ok _

theorem spChecked_protect (s : SpScan n) : SpChecked (spProtect s) :=
  (spChecked_check s _ _).bind fun s => (spChecked_check s _ _).bind fun s =>
    (spChecked_check s _ _).bind fun s => (spChecked_next s).bind fun s =>
    (spChecked_check s _ _).bind fun s => (spChecked_check s _ _).bind fun _ => spChecked_ok _

theorem spChecked_bypass (s : SpScan n) : SpChecked (spBypass s) :=
  (spChecked_check s _ _).bind fun s => (spChecked_check s _ _).bind fun s =>
    (spChecked_check s _ _).bind fun _ => spChecked_ok _

theorem spChecked_discard (s : SpScan n) : SpChecked (spDiscard s) :=
  (spChecked_check s _ _).bind fun s => (spChecked_check s _ _).bind fun s =>
    (spChecked_check s _ _).bind fun _ => spChecked_ok _

theorem spChecked_pri (s : SpScan n) : SpChecked (spPri s) :=
  (spChecked_check s _ _).bind fun s => (spChecked_next s).bind fun s =>
    (spChecked_check s _ _).bind fun _ => spChecked_ok _

theorem spChecked_addr (s : SpScan n) : SpChecked (s.addr fam) := by
  refine (spChecked_next s).bind fun s => ?_
  cases fam.parse s.cur with
  | none => exact (spChecked_check s _ _).bind fun _ => spChecked_ok _
  | some a => exact (spChecked_check s _ _).bind fun _ => spChecked_ok _

theorem spChecked_src (s : SpScan n) : SpChecked (spSrc fam s) :=
  (spChecked_check s _ _).bind fun s => (spChecked_addr s).bind fun _ => spChecked_ok _

theorem spChecked_dst (s : SpScan n) : SpChecked (spDst fam s) :=
  (spChecked_check s _ _).bind fun s => (spChecked_addr s).bind fun _ => spChecked_ok _

theorem spChecked_range (s : SpScan n) (expect : String) : SpChecked (s.range expect) := by
  refine (spChecked_next s).bind fun s => ?_
  cases parseRange s.cur with
  | none => exact (spChecked_check s _ _).bind fun _ => spChecked_ok _
  | some r => exact (spChecked_check s _ _).bind fun _ => spChecked_ok _

theorem spChecked_proto (s : SpScan n) : SpChecked (spProto s) :=
  (spChecked_check s _ _).bind fun s => (spChecked_range s _).bind fun r =>
    (spChecked_check r.2 _ _).bind fun s => (spChecked_check s _ _).bind fun _ => spChecked_ok _

theorem spChecked_sport (s : SpScan n) : SpChecked (spSport s) :=
  (spChecked_check s _ _).bind fun s => (spChecked_range s _).bind fun _ => spChecked_ok _

theorem spChecked_dport (s : SpScan n) : SpChecked (spDport s) :=
  (spChecked_check s _ _).bind fun s => (spChecked_range s _).bind fun _ => spChecked_ok _

/-- A round of the loop. -/
theorem spChecked_option (s : SpScan n) : SpChecked (spOption fam s) :=
  spChecked_ite (spChecked_esp s) <| spChecked_ite (spChecked_protect s) <|
  spChecked_ite (spChecked_bypass s) <| spChecked_ite (spChecked_discard s) <|
  spChecked_ite (spChecked_pri s) <| spChecked_ite (spChecked_src s) <|
  spChecked_ite (spChecked_dst s) <| spChecked_ite (spChecked_proto s) <|
  spChecked_ite (spChecked_sport s) <| spChecked_ite (spChecked_dport s) (spChecked_check _ _ _)

theorem spChecked_loop (m : Nat) (s : SpScan n) : SpChecked (spLoop fam m s) := by
  induction m generalizing s with
  | zero => exact spChecked_ok _
  | succ m ih =>
      rw [spLoop]
      cases s.rest with
      | nil => exact spChecked_ok _
      | cons t rest => exact (spChecked_option _).bind ih

/-- **ERRORS** of a line. -/
theorem spScan_checked (slot : SpRule n) (dir : String) (tokens : List String)
    (st : ParseStatus) : SpChecked (spScan fam slot dir tokens st) :=
  (spChecked_loop _ _).bind fun s => (spChecked_check s _ _).bind fun s => spChecked_check s _ _

end SpErrors

/-! ## Steps -/

section Steps

open SaParse SpParse

/-- The variables differ at most in what is counted over all lines. -/
def Like (c d : SaCore) : Prop :=
  ∃ cnt nb udp, d = { c with cnt := cnt, nbCryptoSessions := nb, udpEncap := udp }

variable {env : SaEnv}

/-- **STEP**: an option does the same to variables that are alike. -/
theorem SaStep.like {o : SaOpt} {c c1 d d1 : SaCore} (h1 : SaStep env o c c1)
    (h2 : SaStep env o d d1) (hlike : Like c d) : Like c1 d1 := by
  obtain ⟨cnt, nb, udp, rfl⟩ := hlike
  cases h1 with
  -- what an option looks up, it looks up in both
  | mode hp hmode =>
      cases h2 with
      | mode _ hmode' =>
          cases hmode.symm.trans hmode'
          exact ⟨_, _, _, rfl⟩
  | telemetry =>
      cases h2
      exact ⟨_, _, _, rfl⟩
  | cipherNull hp halgo hnull =>
      cases h2 with
      | cipherNull _ halgo' _ =>
          cases halgo.symm.trans halgo'
          exact ⟨_, _, _, rfl⟩
  | cipher hp halgo hnull hkey hlen hsalt =>
      cases h2 with
      | cipher _ halgo' _ hkey' _ hsalt' =>
          cases halgo.symm.trans halgo'
          cases hkey.symm.trans hkey'
          cases CipherSalted.unique hsalt hsalt'
          exact ⟨_, _, _, rfl⟩
  | authNull hp halgo hnull =>
      cases h2 with
      | authNull _ halgo' _ =>
          cases halgo.symm.trans halgo'
          exact ⟨_, _, _, rfl⟩
  | auth hp halgo hnull hkey hlen hsalt =>
      cases h2 with
      | auth _ halgo' _ hkey' _ hsalt' =>
          cases halgo.symm.trans halgo'
          cases hkey.symm.trans hkey'
          cases AuthSalted.unique hsalt hsalt'
          exact ⟨_, _, _, rfl⟩
  | aead hp halgo hkey hlen hsalt =>
      cases h2 with
      | aead _ halgo' hkey' _ hsalt' =>
          cases halgo.symm.trans halgo'
          cases hkey.symm.trans hkey'
          cases hsalt.symm.trans hsalt'
          exact ⟨_, _, _, rfl⟩
  | src hp haddr =>
      cases h2 with
      | src _ haddr' =>
          cases AddrTaken.unique haddr haddr'
          exact ⟨_, _, _, rfl⟩
  | dst hp haddr =>
      cases h2 with
      | dst _ haddr' =>
          cases AddrTaken.unique haddr haddr'
          exact ⟨_, _, _, rfl⟩
  | type hp htype =>
      cases h2 with
      | type _ htype' =>
          cases htype.symm.trans htype'
          exact ⟨_, _, _, rfl⟩
  | portId hp hport =>
      cases h2 with
      | portId _ hport' =>
          cases PortTaken.unique hport hport'
          exact ⟨_, _, _, rfl⟩
  | mss =>
      cases h2
      exact ⟨_, _, _, rfl⟩
  | esn =>
      cases h2
      exact ⟨_, _, _, rfl⟩
  | fallback henable hprimary hdir hp htype =>
      cases h2 with
      | fallback _ _ _ _ htype' =>
          cases htype.symm.trans htype'
          exact ⟨_, _, _, rfl⟩
  | flowDirection htype hport =>
      cases h2 with
      | flowDirection _ hport' =>
          cases PortTaken.unique hport hport'
          exact ⟨_, _, _, rfl⟩
  -- the type of the session tells the two forms apart
  | udpEncap htype hp =>
      cases h2 with
      | udpEncap _ _ => exact ⟨_, _, _, rfl⟩
      | udpEncapInline htype' =>
          have htype' : c.rule.primary.type = .inlineCrypto := htype'
          rw [htype'] at htype
          rcases htype with h | h <;> cases h
  | udpEncapInline htype =>
      cases h2 with
      | udpEncap htype' _ =>
          have htype' : c.rule.primary.type = .lookasideProtocol
            ∨ c.rule.primary.type = .inlineProtocol := htype'
          rw [htype] at htype'
          rcases htype' with h | h <;> cases h
      | udpEncapInline _ => exact ⟨_, _, _, rfl⟩

/-- **RUN**: so do all options of a line. -/
theorem SaSteps.like {opts : List SaOpt} {c c1 d d1 : SaCore} (h1 : SaSteps env opts c c1)
    (h2 : SaSteps env opts d d1) (hlike : Like c d) : Like c1 d1 := by
  induction h1 generalizing d with
  | nil =>
      cases h2
      exact hlike
  | cons hstep _ ih =>
      cases h2 with
      | cons hstep' hsteps' => exact ih hsteps' (SaStep.like hstep hstep' hlike)

variable {n : Nat} {fam : SpFamily n}

theorem SpStep.unique {o : SpOpt} {c c1 c2 : SpCore n} (h1 : SpStep fam o c c1)
    (h2 : SpStep fam o c c2) : c1 = c2 := by
  cases h1 with
  | esp => cases h2; rfl
  | protect => cases h2; rfl
  | bypass => cases h2; rfl
  | discard => cases h2; rfl
  | pri => cases h2; rfl
  | src hp haddr =>
      cases h2 with
      | src _ haddr' => cases haddr.symm.trans haddr'; rfl
  | dst hp haddr =>
      cases h2 with
      | dst _ haddr' => cases haddr.symm.trans haddr'; rfl
  | proto hp hrange =>
      cases h2 with
      | proto _ hrange' => cases hrange.symm.trans hrange'; rfl
  | sport hp hrange =>
      cases h2 with
      | sport _ hrange' => cases hrange.symm.trans hrange'; rfl
  | dport hp hrange =>
      cases h2 with
      | dport _ hrange' => cases hrange.symm.trans hrange'; rfl

theorem SpSteps.unique {opts : List SpOpt} {c c1 c2 : SpCore n} (h1 : SpSteps fam opts c c1)
    (h2 : SpSteps fam opts c c2) : c1 = c2 := by
  induction h1 with
  | nil =>
      cases h2
      rfl
  | cons hstep _ ih =>
      cases h2 with
      | cons hstep' hsteps' =>
          cases SpStep.unique hstep hstep'
          exact ih hsteps'

end Steps

/-! ## Rules of lines -/

section Rules

open SaParse SpParse

/-- The arrays. -/
inductive Table
  | saIn
  | saOut
  | sp4In
  | sp4Out
  | sp6In
  | sp6Out
  deriving DecidableEq

/-- Their rules. -/
abbrev Table.Rule : Table → Type
  | .saIn => SaRule
  | .saOut => SaRule
  | .sp4In => SpRule 1
  | .sp4Out => SpRule 1
  | .sp6In => SpRule 4
  | .sp6Out => SpRule 4

/-- An array of a configuration. -/
def Config.arr (c : Config) : (t : Table) → GrowArr t.Rule
  | .saIn => c.sa.saIn
  | .saOut => c.sa.saOut
  | .sp4In => c.sp4.rulesIn
  | .sp4Out => c.sp4.rulesOut
  | .sp6In => c.sp6.rulesIn
  | .sp6Out => c.sp6.rulesOut

/-- A rule no line has filled: all zero, but for the direction of a SA. -/
def Table.Blank : (t : Table) → t.Rule → Prop
  | .saIn => fun rule => rule = { direction := rule.direction }
  | .saOut => fun rule => rule = { direction := rule.direction }
  | .sp4In => fun rule => rule = {}
  | .sp4Out => fun rule => rule = {}
  | .sp6In => fun rule => rule = {}
  | .sp6Out => fun rule => rule = {}

/-- The array a line for SPs is for. -/
def spTable (tabIn tabOut : Table) (tokens : List String) : Option Table :=
  if tokens.head? = some "in" then some tabIn
  else if tokens.head? = some "out" then some tabOut
  else none

/-- The array a line is for. -/
def CfgLine.table : CfgLine → Option Table
  | .sa _ tok _ => some (if tok = "in" then .saIn else .saOut)
  | .sp4 _ tokens => spTable .sp4In .sp4Out tokens
  | .sp6 _ tokens => spTable .sp6In .sp6Out tokens

/-- A SA line without an SPI is accepted, and no rule is made of it. -/
def CfgLine.counts : CfgLine → Bool
  | .sa _ _ tokens => tokens.head?.map atoiText ≠ some SaModel.discard
  | _ => true

/-- A line for SPs makes the rule out of a blank one. -/
def SpMakes {n : Nat} (fam : SpFamily n) (tokens : List String) (rule : SpRule n) : Prop :=
  ∃ dir rest st s, tokens = dir :: rest ∧ spScan fam {} dir rest st = .ok s ∧ s.rule = rule

/-- A SA line makes the rule, whatever has been counted before. -/
def SaMakes (env : SaEnv) (direction : Direction) (tokens : List String) (rule : SaRule) :
    Prop :=
  ∃ cnt nb udp st s, saScan env direction tokens cnt nb udp st = .ok s ∧ s.rule = rule

/-- What a line makes for an array. -/
def Makes (env : CfgEnv) : CfgLine → (t : Table) → t.Rule → Prop
  | .sa rand _ tokens, .saIn => SaMakes (env.saEnv rand) .ingress tokens
  | .sa rand _ tokens, .saOut => SaMakes (env.saEnv rand) .egress tokens
  | .sp4 _ tokens, .sp4In => SpMakes (SpParse.sp4 env.net) tokens
  | .sp4 _ tokens, .sp4Out => SpMakes (SpParse.sp4 env.net) tokens
  | .sp6 _ tokens, .sp6In => SpMakes (SpParse.sp6 env.net) tokens
  | .sp6 _ tokens, .sp6Out => SpMakes (SpParse.sp6 env.net) tokens
  | _, _ => fun _ => False

theorem SaMakes.unique {env : SaEnv} {direction : Direction} {tokens : List String}
    {rule1 rule2 : SaRule} (h1 : SaMakes env direction tokens rule1)
    (h2 : SaMakes env direction tokens rule2) : rule1 = rule2 := by
  obtain ⟨cnt1, nb1, udp1, st1, s1, hscan1, rfl⟩ := h1
  obtain ⟨cnt2, nb2, udp2, st2, s2, hscan2, rfl⟩ := h2
  obtain ⟨spi1, c1, ⟨tok1, htok1, -, rfl, -⟩, hsteps1, -, hrule1⟩ := scan_steps hscan1
  obtain ⟨spi2, c2, ⟨tok2, htok2, -, rfl, -⟩, hsteps2, -, hrule2⟩ := scan_steps hscan2
  cases htok1.symm.trans htok2
  obtain ⟨cnt, nb, udp, rfl⟩ := SaSteps.like hsteps1 hsteps2 ⟨cnt2, nb2, udp2, rfl⟩
  rw [hrule1, hrule2]
  rfl

theorem SpMakes.unique {n : Nat} {fam : SpFamily n} {tokens : List String}
    {rule1 rule2 : SpRule n} (h1 : SpMakes fam tokens rule1) (h2 : SpMakes fam tokens rule2) :
    rule1 = rule2 := by
  obtain ⟨dir, rest, st1, s1, rfl, hscan1, rfl⟩ := h1
  obtain ⟨_, _, st2, s2, heq, hscan2, rfl⟩ := h2
  cases heq
  exact congrArg SpCore.rule (SpSteps.unique (SpParse.scan_steps hscan1)
    (SpParse.scan_steps hscan2))

/-- **INDEPENDENT**: a line makes one rule. -/
theorem Makes.unique {env : CfgEnv} {line : CfgLine} {t : Table} {rule1 rule2 : t.Rule}
    (h1 : Makes env line t rule1) (h2 : Makes env line t rule2) : rule1 = rule2 := by
  cases line <;> cases t <;> first
    | exact SaMakes.unique h1 h2
    | exact SpMakes.unique h1 h2
    | exact h1.elim

end Rules

/-! ## Lines and arrays -/

section Arrays

open SaParse SpParse

/-- A slot no SA line has filled. -/
abbrev BlankSa (rule : SaRule) : Prop := rule = { direction := rule.direction }

/-- A slot that is blank is as good as a new one. -/
theorem saScanSlot_blank {env : SaEnv} {slot : SaRule} (h : BlankSa slot)
    (direction : Direction) (tokens : List String) (cnt : IpsecSaCnt) (nb : UInt32)
    (udp : Bool) (st : ParseStatus) :
    saScanSlot env slot direction tokens cnt nb udp st
      = saScan env direction tokens cnt nb udp st := by
  rw [h]
  cases tokens with
  | nil => rfl
  | cons spi rest =>
      simp only [saScanSlot, saScan]
      cases isStrNum spi <;> rfl

@[simp] theorem rules_setRules (t : SaArrays) (inbound b : Bool) (rules : GrowArr SaRule) :
    (t.setRules inbound rules).rules b = if b = inbound then rules else t.rules b := by
  cases inbound <;> cases b <;> rfl

@[simp] theorem rules_keep (t : SaArrays) (inbound b : Bool) (c : SaCore) :
    (t.keep inbound c).rules b = t.rules b := by
  cases inbound <;> cases b <;> rfl

/-- What an array holds after a line: one rule more if the line counts. -/
def Grown {α : Type} (Blank : α → Prop) (makes : α → Prop) (counts : Bool) (l : List α)
    (a : GrowArr α) : Prop :=
  if counts then ∃ rule, makes rule ∧ Keeps Blank (l ++ [rule]) a else Keeps Blank l a

/-- **A SA LINE** adds its rule to the array of its direction. -/
theorem parseSaSlot_grown {env : SaEnv} (henv : env.memory = true) {t t' : SaArrays}
    {tok : String} {tokens : List String} {st st' : ParseStatus} {l : List SaRule} {b : Bool}
    (h : parseSaSlot env t tok tokens st = .ok (t', st')) (hst : 0 ≤ st'.status)
    (hb : decide (tok = "in") = b) (hl : Keeps BlankSa l (t.rules b)) :
    Grown BlankSa (SaMakes env (if b then .ingress else .egress) tokens)
      (CfgLine.counts (.sa 0 tok tokens)) l (t'.rules b) := by
  unfold parseSaSlot at h
  rw [henv, hb] at h
  obtain ⟨hext, hslot⟩ := hl.extend {} saInitNb rfl (by decide)
  simp only [hext, Bool.not_true, Bool.false_eq_true, if_false] at h
  rcases hslot with hnone | ⟨slot, hsome, hblank, hpush, hwrite⟩
  · rw [hnone] at h
    cases h
  · rw [hsome] at h
    simp only [saScanSlot_blank hblank] at h
    cases hscan : saScan env (if b then .ingress else .egress) tokens
        (if b then t.saInCnt else t.saOutCnt) t.nbCryptoSessions t.udpEncap st with
    | ok s =>
        obtain ⟨spi, c, ⟨tok', htok, -, -, hspi⟩, -⟩ := scan_steps hscan
        have hcounts : CfgLine.counts (.sa 0 tok tokens) = true := by
          simp [CfgLine.counts, htok, hspi]
        rw [hscan] at h
        cases h
        rw [Grown, if_pos hcounts]
        refine ⟨s.rule, ⟨_, _, _, _, s, hscan, rfl⟩, ?_⟩
        rw [rules_setRules, if_pos rfl]
        exact hpush s.rule
    | error e =>
        rw [hscan] at h
        cases e with
        | fault f => cases h
        | ret s =>
            cases h
            cases tokens with
            | nil => cases hscan
            | cons spi rest =>
                rcases (saScan_refused _ spi rest _ _ _ st).of_error hscan s rfl with
                  hfail | ⟨hzero, hcore⟩
                · omega
                · have hcounts : ¬ CfgLine.counts (.sa 0 tok (spi :: rest)) = true := by
                    simp [CfgLine.counts, hzero]
                  rw [Grown, if_neg hcounts, rules_setRules, if_pos rfl]
                  refine hwrite s.rule ?_
                  rw [hcore]

/-- A line leaves the other array of SAs alone. -/
theorem parseSaSlot_frame {env : SaEnv} {t t' : SaArrays} {tok : String}
    {tokens : List String} {st st' : ParseStatus}
    (h : parseSaSlot env t tok tokens st = .ok (t', st')) {b : Bool}
    (hb : b ≠ decide (tok = "in")) : t'.rules b = t.rules b := by
  unfold parseSaSlot at h
  dsimp only at h
  split at h
  · cases h
    rw [rules_setRules, if_neg hb]
  · split at h
    · cases h
    · split at h
      · cases h
        rw [rules_setRules, if_neg hb, rules_keep]
      · cases h
        rw [rules_setRules, if_neg hb, rules_keep]
      · cases h

variable {n : Nat} {fam : SpFamily n}

/-- **A SP LINE** adds its rule to an array. -/
theorem spAdd_grown {rules rules' : GrowArr (SpRule n)} {dir : String} {rest : List String}
    {st st' : ParseStatus} {l : List (SpRule n)}
    (h : spAdd fam true rules dir rest st = .ok (rules', st')) (hst : 0 ≤ st'.status)
    (hl : Keeps (· = ({} : SpRule n)) l rules) :
    Grown (· = ({} : SpRule n)) (SpMakes fam (dir :: rest)) true l rules' := by
  unfold spAdd at h
  obtain ⟨hext, hslot⟩ := hl.extend {} initAclRuleNum rfl (by decide)
  simp only [hext, Bool.not_true, Bool.false_eq_true, if_false] at h
  rcases hslot with hnone | ⟨slot, hsome, rfl, hpush, -⟩
  · rw [hnone] at h
    cases h
  · rw [hsome] at h
    cases hscan : spScan fam {} dir rest st with
    | ok s =>
        simp only [hscan] at h
        cases h
        exact ⟨s.rule, ⟨dir, rest, st, s, rfl, hscan, rfl⟩, hpush s.rule⟩
    | error s =>
        simp only [hscan] at h
        cases h
        have hfail := (spScan_checked _ dir rest st).of_error hscan
        omega

/-- A line that adds nothing. -/
theorem grown_same {α : Type} {Blank makes : α → Prop} {l : List α} {a : GrowArr α}
    (hl : Keeps Blank l a) : Grown Blank makes false l a := hl

/-- An array takes a rule of a line. -/
def Table.takes (t : Table) (line : CfgLine) : Bool :=
  decide (line.table = some t) && line.counts

variable {cenv : CfgEnv}

/-- A line for SPs and the array of a direction. -/
theorem parseSpTokens_grown {t t' : SpTables n} {tok : String} {tokens : List String}
    {st st' : ParseStatus} (h : parseSpTokens fam true t tok tokens st = .ok (t', st'))
    (hst : 0 ≤ st'.status) {l : List (SpRule n)} {tabIn tabOut : Table}
    (htab : tabIn ≠ tabOut) :
    (Keeps (· = ({} : SpRule n)) l t.rulesIn →
      Grown (· = ({} : SpRule n)) (SpMakes fam tokens)
        (decide (spTable tabIn tabOut tokens = some tabIn)) l t'.rulesIn)
      ∧ (Keeps (· = ({} : SpRule n)) l t.rulesOut →
        Grown (· = ({} : SpRule n)) (SpMakes fam tokens)
          (decide (spTable tabIn tabOut tokens = some tabOut)) l t'.rulesOut) := by
  unfold parseSpTokens at h
  cases tokens with
  | nil => cases h
  | cons dir rest =>
      by_cases hin : dir = "in"
      · simp only [hin, if_true] at h
        simp only [spTable, List.head?_cons, hin, if_true, Option.some.injEq, decide_true,
          decide_eq_false htab]
        cases hadd : spAdd fam true t.rulesIn "in" rest st with
        | error f =>
            rw [hadd] at h
            cases h
        | ok r =>
            rw [hadd] at h
            cases h
            exact ⟨fun hl => spAdd_grown hadd hst hl, fun hl => grown_same hl⟩
      · simp only [if_neg hin] at h
        by_cases hout : dir = "out"
        · simp only [hout, if_true] at h
          simp only [spTable, List.head?_cons, hout, if_true, Option.some.injEq, decide_true,
            String.reduceEq, if_false, decide_eq_false htab.symm]
          cases hadd : spAdd fam true t.rulesOut "out" rest st with
          | error f =>
              rw [hadd] at h
              cases h
          | ok r =>
              rw [hadd] at h
              cases h
              exact ⟨fun hl => grown_same hl, fun hl => spAdd_grown hadd hst hl⟩
        · simp only [if_neg hout] at h
          cases h
          exact absurd hst (by decide : ¬ (0 : Int) ≤ -1)

/-- A line for SPs is for no other array. -/
theorem spTable_ne {tabIn tabOut t : Table} {tokens : List String} (hin : tabIn ≠ t)
    (hout : tabOut ≠ t) : spTable tabIn tabOut tokens ≠ some t := by
  unfold spTable
  split
  · exact fun h => hin (Option.some.inj h)
  · split
    · exact fun h => hout (Option.some.inj h)
    · exact nofun

/-- A line for SAs and the array of a direction. -/
theorem saLine_grown {rand : UInt32} {t : SaArrays} {tok : String} {tokens : List String}
    {st : ParseStatus} {r : SaArrays × ParseStatus}
    (h : parseSaSlot (cenv.saEnv rand) t tok tokens st = .ok r) (hst : 0 ≤ r.2.status) (b : Bool)
    {l : List SaRule} (hl : Keeps BlankSa l (t.rules b)) :
    Grown BlankSa (SaMakes (cenv.saEnv rand) (if b then .ingress else .egress) tokens)
      (decide (decide (tok = "in") = b) && CfgLine.counts (.sa rand tok tokens)) l
      (r.1.rules b) := by
  by_cases hb : decide (tok = "in") = b
  · rw [decide_eq_true hb, Bool.true_and]
    exact parseSaSlot_grown rfl h hst hb hl
  · rw [decide_eq_false hb, Bool.false_and]
    refine grown_same ?_
    rw [parseSaSlot_frame h fun hb' => hb hb'.symm]
    exact hl

/-- A line that is accepted adds its rule behind those of its array, and no other array
    changes: a line for SAs. -/
theorem saLine_kept {c c' : Config} {rand : UInt32} {tok : String} {tokens : List String}
    (h : cfgLine cenv c (.sa rand tok tokens) = .ok c') (hst : 0 ≤ c'.st.status) {t : Table}
    {l : List t.Rule} (hl : Keeps t.Blank l (c.arr t)) :
    Grown t.Blank (Makes cenv (.sa rand tok tokens) t) (t.takes (.sa rand tok tokens)) l
      (c'.arr t) := by
  cases hparse : parseSaSlot (cenv.saEnv rand) c.sa tok tokens c.st with
  | error f =>
      rw [cfgLine, hparse] at h
      cases h
  | ok r =>
      rw [cfgLine, hparse] at h
      cases h
      have hother : ∀ t' : Table, t' ≠ .saIn → t' ≠ .saOut →
          t'.takes (.sa rand tok tokens) = false := by
        intro t' hin hout
        rw [Table.takes, CfgLine.table, decide_eq_false, Bool.false_and]
        split
        · exact fun h => hin (Option.some.inj h).symm
        · exact fun h => hout (Option.some.inj h).symm
      cases t with
      | saIn =>
          have htakes : Table.saIn.takes (.sa rand tok tokens)
              = (decide (decide (tok = "in") = true)
                && CfgLine.counts (.sa rand tok tokens)) := by
            by_cases htok : tok = "in" <;> simp [Table.takes, CfgLine.table, htok]
          rw [htakes]
          exact saLine_grown hparse hst true hl
      | saOut =>
          have htakes : Table.saOut.takes (.sa rand tok tokens)
              = (decide (decide (tok = "in") = false)
                && CfgLine.counts (.sa rand tok tokens)) := by
            by_cases htok : tok = "in" <;> simp [Table.takes, CfgLine.table, htok]
          rw [htakes]
          exact saLine_grown hparse hst false hl
      | sp4In | sp4Out | sp6In | sp6Out =>
          rw [hother]
          · exact grown_same hl
          · decide
          · decide

/-- A line for SPs. -/
theorem sp4Line_grown {c c' : Config} {tok : String} {tokens : List String}
    (h : cfgLine cenv c (.sp4 tok tokens) = .ok c') (hst : 0 ≤ c'.st.status) {t : Table}
    {l : List t.Rule} (hl : Keeps t.Blank l (c.arr t)) :
    Grown t.Blank (Makes cenv (.sp4 tok tokens) t) (t.takes (.sp4 tok tokens)) l
      (c'.arr t) := by
  cases hparse : parseSpTokens (SpParse.sp4 cenv.net) true c.sp4 tok tokens c.st with
  | error f =>
      rw [cfgLine, hparse] at h
      cases h
  | ok r =>
      rw [cfgLine, hparse] at h
      cases h
      have htakes : ∀ t' : Table, t'.takes (.sp4 tok tokens)
          = decide (spTable .sp4In .sp4Out tokens = some t') := fun t' => Bool.and_true _
      have hother : ∀ t' : Table, t' ≠ .sp4In → t' ≠ .sp4Out →
          t'.takes (.sp4 tok tokens) = false := by
        intro t' hin hout
        rw [htakes, decide_eq_false (spTable_ne hin.symm hout.symm)]
      have hgrown := fun l => parseSpTokens_grown hparse hst (l := l)
        (by decide : Table.sp4In ≠ .sp4Out)
      cases t with
      | sp4In =>
          rw [htakes]
          exact (hgrown l).1 hl
      | sp4Out =>
          rw [htakes]
          exact (hgrown l).2 hl
      | saIn | saOut | sp6In | sp6Out =>
          rw [hother]
          · exact grown_same hl
          · decide
          · decide

theorem sp6Line_grown {c c' : Config} {tok : String} {tokens : List String}
    (h : cfgLine cenv c (.sp6 tok tokens) = .ok c') (hst : 0 ≤ c'.st.status) {t : Table}
    {l : List t.Rule} (hl : Keeps t.Blank l (c.arr t)) :
    Grown t.Blank (Makes cenv (.sp6 tok tokens) t) (t.takes (.sp6 tok tokens)) l
      (c'.arr t) := by
  cases hparse : parseSpTokens (SpParse.sp6 cenv.net) true c.sp6 tok tokens c.st with
  | error f =>
      rw [cfgLine, hparse] at h
      cases h
  | ok r =>
      rw [cfgLine, hparse] at h
      cases h
      have htakes : ∀ t' : Table, t'.takes (.sp6 tok tokens)
          = decide (spTable .sp6In .sp6Out tokens = some t') := fun t' => Bool.and_true _
      have hother : ∀ t' : Table, t' ≠ .sp6In → t' ≠ .sp6Out →
          t'.takes (.sp6 tok tokens) = false := by
        intro t' hin hout
        rw [htakes, decide_eq_false (spTable_ne hin.symm hout.symm)]
      have hgrown := fun l => parseSpTokens_grown hparse hst (l := l)
        (by decide : Table.sp6In ≠ .sp6Out)
      cases t with
      | sp6In =>
          rw [htakes]
          exact (hgrown l).1 hl
      | sp6Out =>
          rw [htakes]
          exact (hgrown l).2 hl
      | saIn | saOut | sp4In | sp4Out =>
          rw [hother]
          · exact grown_same hl
          · decide
          · decide

/-- **STEP**: any line. -/
theorem cfgLine_grown {c c' : Config} {line : CfgLine} (h : cfgLine cenv c line = .ok c')
    (hst : 0 ≤ c'.st.status) {t : Table} {l : List t.Rule} (hl : Keeps t.Blank l (c.arr t)) :
    Grown t.Blank (Makes cenv line t) (t.takes line) l (c'.arr t) := by
  cases line with
  | sa rand tok tokens => exact saLine_kept h hst hl
  | sp4 tok tokens => exact sp4Line_grown h hst hl
  | sp6 tok tokens => exact sp6Line_grown h hst hl

/-- **RUN**: so do all lines of a configuration. -/
theorem runs_grown {c c' : Config} {lines : List CfgLine} (h : Runs cenv c lines c') {t : Table}
    {l : List t.Rule} (hl : Keeps t.Blank l (c.arr t)) :
    ∃ rules, List.Forall₂ (fun line rule => Makes cenv line t rule)
        (lines.filter t.takes) rules
      ∧ Keeps t.Blank (l ++ rules) (c'.arr t) := by
  induction h generalizing l with
  | nil => exact ⟨[], .nil, by rwa [List.append_nil]⟩
  | @cons c c1 c2 line lines hline hst _ ih =>
      have hgrown := cfgLine_grown hline hst hl
      unfold Grown at hgrown
      by_cases htakes : t.takes line = true
      · rw [if_pos htakes] at hgrown
        obtain ⟨rule, hmakes, hl1⟩ := hgrown
        obtain ⟨rules, hrules, hl2⟩ := ih hl1
        refine ⟨rule :: rules, ?_, ?_⟩
        · rw [List.filter_cons_of_pos htakes]
          exact .cons hmakes hrules
        · rwa [List.append_assoc] at hl2
      · rw [if_neg htakes] at hgrown
        obtain ⟨rules, hrules, hl2⟩ := ih hgrown
        refine ⟨rules, ?_, hl2⟩
        rwa [List.filter_cons_of_neg htakes]

/-- A line that is accepted is for an array. -/
theorem cfgLine_table {c c' : Config} {line : CfgLine} (h : cfgLine cenv c line = .ok c')
    (hst : 0 ≤ c'.st.status) : ∃ t, line.table = some t := by
  have htable : ∀ {m : Nat} {fam : SpFamily m} {t : SpTables m} {tok : String}
      {tokens : List String} {st : ParseStatus} {r : SpTables m × ParseStatus}
      {tabIn tabOut : Table}, parseSpTokens fam true t tok tokens st = .ok r →
      0 ≤ r.2.status → ∃ t, spTable tabIn tabOut tokens = some t := by
    intro m fam t tok tokens st r tabIn tabOut hr hst
    cases tokens with
    | nil => cases hr
    | cons dir rest =>
        by_cases hin : dir = "in"
        · exact ⟨tabIn, if_pos (congrArg some hin)⟩
        · have hin' : ¬ (dir :: rest).head? = some "in" := fun h => hin (Option.some.inj h)
          by_cases hout : dir = "out"
          · exact ⟨tabOut, (if_neg hin').trans (if_pos (congrArg some hout))⟩
          · rw [parseSpTokens, if_neg hin, if_neg hout] at hr
            cases hr
            exact absurd hst (by decide : ¬ (0 : Int) ≤ -1)
  cases line with
  | sa rand tok tokens => exact ⟨_, rfl⟩
  | sp4 tok tokens =>
      rw [cfgLine] at h
      cases hparse : parseSpTokens (SpParse.sp4 cenv.net) true c.sp4 tok tokens c.st with
      | error f =>
          rw [hparse] at h
          cases h
      | ok r =>
          rw [hparse] at h
          cases h
          exact htable hparse hst
  | sp6 tok tokens =>
      rw [cfgLine] at h
      cases hparse : parseSpTokens (SpParse.sp6 cenv.net) true c.sp6 tok tokens c.st with
      | error f =>
          rw [hparse] at h
          cases h
      | ok r =>
          rw [hparse] at h
          cases h
          exact htable hparse hst

theorem runs_table {c c' : Config} {lines : List CfgLine} (h : Runs cenv c lines c') :
    ∀ line ∈ lines, ∃ t, line.table = some t := by
  induction h with
  | nil =>
      intro line hline
      cases hline
  | cons hparse hst _ ih =>
      intro line hline
      rcases List.mem_cons.mp hline with rfl | hline
      · exact cfgLine_table hparse hst
      · exact ih line hline

end Arrays

/-! ## Configurations -/

section Configurations

variable {env : CfgEnv} {lines more : List CfgLine} {c c' : Config}

/-- **INDEPENDENT LINES**: an array holds one rule for every line it takes, each made of its own
    line alone, and keeps it there while more lines are read; behind them it is blank. -/
theorem config_kept (h : Runs env {} lines c) (h' : Runs env c more c') (t : Table) :
    (∀ line rule1 rule2, Makes env line t rule1 → Makes env line t rule2 → rule1 = rule2)
      ∧ (∀ line ∈ lines ++ more, ∃ t, line.table = some t)
      ∧ ∃ rules new,
        List.Forall₂ (fun line rule => Makes env line t rule) (lines.filter t.takes) rules
        ∧ List.Forall₂ (fun line rule => Makes env line t rule) (more.filter t.takes) new
        ∧ Keeps t.Blank rules (c.arr t) ∧ Keeps t.Blank (rules ++ new) (c'.arr t) := by
  have hempty : Keeps t.Blank [] (({} : Config).arr t) := by
    cases t <;> exact keeps_nil
  obtain ⟨rules, hrules, hkeeps⟩ := runs_grown h hempty
  obtain ⟨new, hnew, hkeeps'⟩ := runs_grown h' hkeeps
  refine ⟨fun _ _ _ => Makes.unique, fun line hline => ?_, rules, new, hrules, hnew, hkeeps,
    hkeeps'⟩
  rcases List.mem_append.mp hline with hline | hline
  · exact runs_table h line hline
  · exact runs_table h' line hline

/-- The lines as a function; `none` when one of them is not accepted. -/
def runLines (env : CfgEnv) (c : Config) : List CfgLine → Option Config
  | [] => some c
  | line :: lines =>
      match cfgLine env c line with
      | .ok c1 => if 0 ≤ c1.st.status then runLines env c1 lines else none
      | .error _ => none

theorem runs_of_runLines (h : runLines env c lines = some c') : Runs env c lines c' := by
  induction lines generalizing c with
  | nil =>
      cases h
      exact .nil
  | cons line lines ih =>
      rw [runLines] at h
      split at h
      · rename_i c1 hline
        split at h
        · exact .cons hline ‹_› (ih h)
        · cases h
      · cases h

/-- 130 rules for IPv4, behind a line that makes none; the array has room for 128 at
    first. -/
def manyLines : List CfgLine :=
  .sa 0 "in" ["0"] :: (List.replicate 65 [.sp4 "ipv4" ["in", "esp", "bypass"],
    .sp4 "ipv4" ["in", "esp", "protect", "7"]]).flatten

/-- The arrays that have grown keep what they had. -/
theorem config_kept_grown :
    ∃ (c c' : Config) (rules new : List (SpParse.SpRule 1)),
      Runs ⟨ParseAddr.longest, true⟩ {} manyLines c
      ∧ (c.arr .sp4In).size = 256
      ∧ List.Forall₂ (fun line rule => Makes ⟨ParseAddr.longest, true⟩ line .sp4In rule)
        (manyLines.filter (Table.takes .sp4In)) rules
      ∧ Keeps (Table.Blank .sp4In) rules (c.arr .sp4In)
      ∧ Keeps (Table.Blank .sp4In) (rules ++ new) (c'.arr .sp4In)
      ∧ rules.length = 130 ∧ new.length = 1 := by
  have hrun : ((runLines ⟨ParseAddr.longest, true⟩ {} manyLines).bind fun c =>
      (runLines ⟨ParseAddr.longest, true⟩ c [.sp4 "ipv4" ["in", "esp", "discard"]]).map
        fun _ => (c.arr .sp4In).size) = some 256 := by decide +kernel
  obtain ⟨c, hc, hmore⟩ := Option.bind_eq_some_iff.mp hrun
  obtain ⟨c', hc', hsize⟩ := Option.map_eq_some_iff.mp hmore
  have hrun := runs_of_runLines hc
  obtain ⟨-, -, rules, new, hrules, hnew, hkeeps, hkeeps'⟩ :=
    config_kept hrun (runs_of_runLines hc') .sp4In
  have hcount : (manyLines.filter (Table.takes .sp4In)).length = 130 := by decide +kernel
  exact ⟨c, c', rules, new, hrun, hsize, hrules, hkeeps, hkeeps',
    hrules.length_eq.symm.trans hcount, hnew.length_eq.symm⟩

/-- **NOT SO**: the first of them is accepted and not counted. -/
theorem discard_notCounted :
    ¬ ∀ (env : CfgEnv) (lines : List CfgLine) (c : Config), Runs env {} lines c →
      ∀ t, (c.arr t).count.toNat = (lines.filter fun line => line.table = some t).length := by
  intro h
  have hrun : ∃ c, Runs ⟨ParseAddr.longest, false⟩ {} [.sa 0 "in" ["0"]] c
      ∧ (c.arr .saIn).count = 0 := ⟨_, .cons rfl (by decide) .nil, rfl⟩
  obtain ⟨c, hc, hzero⟩ := hrun
  have hcount := h _ _ c hc .saIn
  rw [hzero] at hcount
  exact absurd hcount (by decide)

end Configurations

end CfgLines
