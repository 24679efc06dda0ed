import Mathlib.Data.List.Pairwise
import IpsecSecgw.KeyStringProofs
import IpsecSecgw.Lib.WriteLog

/-! # What the options of a line come to

    The variables of the parser fall into parts on which the options of a line act
    one by one, as a fold: options that may be there once (`SaSteps.once`), what
    each option settles alone (`SaOutline`), numbers of which the last one counts
    (`LastNums`), the port (`PortSpec`), and the algorithms with their keys
    (`SaCrypto`).  The addresses look at the flags of their moment
    (`src_stored_iff`). -/

namespace SaParse

open ByteStore SaModel ParserModel WriteLog

variable {env : SaEnv} {o : SaOpt} {opts opts' : List SaOpt} {c c' : SaCore}

/-! ## Runs -/

theorem SaSteps.append {pre post : List SaOpt} (h : SaSteps env (pre ++ post) c c') :
    ∃ c1, SaSteps env pre c c1 ∧ SaSteps env post c1 c' := by
  induction pre generalizing c with
  | nil => exact ⟨c, .nil, h⟩
  | cons o pre ih =>
      cases h with
      | cons hstep hsteps =>
          obtain ⟨c1, hpre, hpost⟩ := ih hsteps
          exact ⟨c1, .cons hstep hpre, hpost⟩

/-- A part on which every option acts as a function comes to the fold. -/
theorem SaSteps.foldl {S : Type} (part : SaCore → S) (take : S → SaOpt → S)
    (htake : ∀ {o c c'}, SaStep env o c c' → part c' = take (part c) o)
    (h : SaSteps env opts c c') : part c' = opts.foldl take (part c) := by
  induction h with
  | nil => rfl
  | cons hstep _ ih => rw [List.foldl_cons, ← htake hstep, ih]

/-! ## Once -/

/-- The line may have the option once. -/
def SaOpt.limited : SaOpt → Bool
  | .telemetry => false
  | .mss _ => false
  | .esn _ => false
  | .flowDirection _ _ => false
  | .udpEncap => false
  | _ => true

/-- The second of two that a line may have once. -/
def SaOpt.clash (o o' : SaOpt) : Bool := o.limited && o.ctorIdx == o'.ctorIdx

theorem SaOpt.clash_comm (o o' : SaOpt) : o.clash o' = o'.clash o := by
  cases o <;> cases o' <;> rfl

/-- One like it has been there. -/
def SaOpt.present (c : SaCore) : SaOpt → Bool
  | .mode _ => c.modeP
  | .cipher _ _ => c.cipherAlgoP
  | .auth _ _ => c.authAlgoP
  | .aead _ _ => c.aeadAlgoP
  | .src _ => c.srcP
  | .dst _ => c.dstP
  | .type _ => c.typeP
  | .portId _ => c.portidP
  | .fallback _ => c.fallbackP
  | _ => false

/-- What the variables say of the options there have been. -/
abbrev Marks (o : SaOpt) (c c' : SaCore) : Prop :=
  ∀ x : SaOpt, x.present c' = (x.present c || o.clash x)

/-- An option that leaves the variables as they are. -/
theorem marks_free (ho : o.limited = false) (hkeep : ∀ x : SaOpt, x.present c' = x.present c) :
    Marks o c c' := by
  intro x
  rw [SaOpt.clash, ho, Bool.false_and, Bool.or_false]
  exact hkeep x

/-- **STEP**: an option that may be there once has not been there, and now has. -/
theorem SaStep.present (h : SaStep env o c c') : o.present c = false ∧ Marks o c c' := by
  cases h with
  | mode hp => exact ⟨hp, fun x => by cases x <;> simp [SaOpt.present, SaOpt.clash,
      SaOpt.limited, SaOpt.ctorIdx, SaCore.setMode]⟩
  | cipherNull hp => exact ⟨hp, fun x => by cases x <;> simp [SaOpt.present, SaOpt.clash,
      SaOpt.limited, SaOpt.ctorIdx]⟩
  | cipher hp => exact ⟨hp, fun x => by cases x <;> simp [SaOpt.present, SaOpt.clash,
      SaOpt.limited, SaOpt.ctorIdx]⟩
  | authNull hp => exact ⟨hp, fun x => by cases x <;> simp [SaOpt.present, SaOpt.clash,
      SaOpt.limited, SaOpt.ctorIdx]⟩
  | auth hp => exact ⟨hp, fun x => by cases x <;> simp [SaOpt.present, SaOpt.clash,
      SaOpt.limited, SaOpt.ctorIdx]⟩
  | aead hp => exact ⟨hp, fun x => by cases x <;> simp [SaOpt.present, SaOpt.clash,
      SaOpt.limited, SaOpt.ctorIdx]⟩
  | src hp => exact ⟨hp, fun x => by cases x <;> simp [SaOpt.present, SaOpt.clash,
      SaOpt.limited, SaOpt.ctorIdx]⟩
  | dst hp => exact ⟨hp, fun x => by cases x <;> simp [SaOpt.present, SaOpt.clash,
      SaOpt.limited, SaOpt.ctorIdx]⟩
  | type hp => exact ⟨hp, fun x => by cases x <;> simp [SaOpt.present, SaOpt.clash,
      SaOpt.limited, SaOpt.ctorIdx]⟩
  | portId hp => exact ⟨hp, fun x => by cases x <;> simp [SaOpt.present, SaOpt.clash,
      SaOpt.limited, SaOpt.ctorIdx]⟩
  | fallback _ _ _ hp => exact ⟨hp, fun x => by cases x <;> simp [SaOpt.present, SaOpt.clash,
      SaOpt.limited, SaOpt.ctorIdx, SaCore.setFallback]⟩
  | _ => exact ⟨rfl, marks_free rfl fun x => by cases x <;> rfl⟩

/-- **RUN**: no option that was there comes again, none comes twice, and all of them have
    been there. -/
theorem SaSteps.present (h : SaSteps env opts c c') :
    (∀ x ∈ opts, x.present c = false) ∧ opts.Pairwise (fun x y => x.clash y = false)
      ∧ ∀ x : SaOpt, x.present c' = (x.present c || opts.any fun o => o.clash x) := by
  induction h with
  | nil =>
      refine ⟨fun x hx => (List.not_mem_nil hx).elim, .nil, fun x => ?_⟩
      rw [List.any_nil, Bool.or_false]
  | @cons o opts c c1 c' hstep _ ih =>
      obtain ⟨hnew, hmarks⟩ := hstep.present
      obtain ⟨hlater, hpairs, hpresent⟩ := ih
      have hboth : ∀ x ∈ opts, x.present c = false ∧ o.clash x = false := by
        intro x hx
        have hlate := hlater x hx
        rw [hmarks x] at hlate
        exact Bool.or_eq_false_iff.mp hlate
      refine ⟨fun x hx => ?_, .cons (fun x hx => (hboth x hx).2) hpairs, fun x => ?_⟩
      · rcases List.mem_cons.mp hx with rfl | hx
        · exact hnew
        · exact (hboth x hx).1
      · rw [hpresent x, hmarks x, List.any_cons, Bool.or_assoc]

/-- Options that clash are the same one. -/
theorem SaSteps.once (h : SaSteps env opts c c') {x y : SaOpt} (hx : x ∈ opts) (hy : y ∈ opts)
    (hclash : x.clash y = true) : x = y := by
  by_contra hne
  have : Std.Symm fun x y : SaOpt => ¬ x.clash y = true :=
    ⟨fun a b hab => by rwa [SaOpt.clash_comm]⟩
  have hpairs : opts.Pairwise fun x y : SaOpt => ¬ x.clash y = true :=
    h.present.2.1.imp fun hxy => by rw [hxy]; exact Bool.false_ne_true
  exact hpairs.forall hx hy hne hclash

/-! ## What an option settles alone -/

/-- The flag bits of an option. -/
def optFlags : SaOpt → UInt16
  | .mode name => ((modeOf name).map SaMode.flags).getD 0
  | .telemetry => saTelemetryEnable
  | _ => 0

/-- The parts of the rule that one option settles, whatever was there before. -/
structure SaOutline where
  type : ActionType
  fallback : ActionType
  fallbackSessions : UInt32
  flags : UInt16
  fdirFlag : UInt8
  udpEncap : UInt8
  typeP : Bool
  portidP : Bool

def SaCore.outline (c : SaCore) : SaOutline where
  type := c.rule.primary.type
  fallback := c.rule.fallback.type
  fallbackSessions := c.rule.fallbackSessions
  flags := c.rule.flags
  fdirFlag := c.rule.fdirFlag
  udpEncap := c.rule.udpEncap
  typeP := c.typeP
  portidP := c.portidP

/-- What an option does to them. -/
def SaOutline.take (s : SaOutline) : SaOpt → SaOutline
  | .mode name => { s with flags := s.flags ||| optFlags (.mode name) }
  | .telemetry => { s with flags := s.flags ||| optFlags .telemetry }
  | .type name => { s with type := (typeOf name).getD s.type, typeP := true }
  | .portId _ => { s with portidP := true }
  | .fallback name =>
      { s with fallback := (fallbackOf name).getD s.fallback, fallbackSessions := 1 }
  | .flowDirection _ _ => { s with fdirFlag := 1 }
  | .udpEncap => { s with udpEncap := 1 }
  | _ => s

/-- **STEP**. -/
theorem SaStep.outline (h : SaStep env o c c') : c'.outline = c.outline.take o := by
  cases h with
  | mode hp hmode => simp only [SaOutline.take, optFlags, hmode]; rfl
  | type hp htype => simp only [SaOutline.take, htype]; rfl
  | fallback henable hprimary hdir hp htype => simp only [SaOutline.take, htype]; rfl
  | cipher hp halgo hnull hkey hlen hsalt =>
      obtain ⟨keys, salt, hrule⟩ := hsalt.rule
      rw [hrule]
      rfl
  | auth hp halgo hnull hkey hlen hsalt =>
      obtain ⟨ivLen, keys, salt, hrule⟩ := hsalt.rule
      rw [hrule]
      rfl
  | aead hp halgo hkey hlen hsalt =>
      obtain ⟨salt, hrule⟩ := takeSalt_rule hsalt
      rw [hrule]
      rfl
  | _ => rfl

theorem or_swap (a b c : UInt16) : a ||| b ||| c = a ||| c ||| b := by
  rw [UInt16.or_assoc, UInt16.or_comm b, ← UInt16.or_assoc]

/-- Options of a line do this in either order. -/
theorem SaOutline.take_comm {x y : SaOpt} (hxy : x.clash y = true → x = y) (s : SaOutline) :
    (s.take x).take y = (s.take y).take x := by
  cases x with
  | type name =>
      cases y with
      | type name' => rw [hxy rfl]
      | _ => rfl
  | fallback name =>
      cases y with
      | fallback name' => rw [hxy rfl]
      | _ => rfl
  | mode name =>
      cases y with
      | mode name' => rw [hxy rfl]
      | telemetry => exact congrArg (fun f => { s with flags := f }) (or_swap _ _ _)
      | _ => rfl
  | telemetry =>
      cases y with
      | mode name' => exact congrArg (fun f => { s with flags := f }) (or_swap _ _ _)
      | _ => rfl
  | _ => cases y <;> rfl

/-- **ORDER** makes no difference to them. -/
theorem SaSteps.outline_perm {env' : SaEnv} {d d' : SaCore} (h : SaSteps env opts c c')
    (h' : SaSteps env' opts' d d') (hperm : opts.Perm opts') (hstart : c.outline = d.outline) :
    c'.outline = d'.outline := by
  rw [h.foldl SaCore.outline SaOutline.take SaStep.outline,
    h'.foldl SaCore.outline SaOutline.take SaStep.outline, hstart]
  exact hperm.foldl_eq' (fun x hx y hy s => SaOutline.take_comm (h.once hx hy) s) _

/-! ## Numbers -/

/-- `mss`, `esn` and `fdir_qid`. -/
abbrev LastNums := UInt16 × UInt64 × UInt8

def SaCore.nums (c : SaCore) : LastNums := (c.rule.mss, c.rule.esn, c.rule.fdirQid)

/-- An option that is given again replaces the number. -/
def takeNum (s : LastNums) : SaOpt → LastNums
  | .mss value => ((atoiText value).toUInt16, s.2)
  | .esn value => (s.1, UInt64.ofInt (strtol10 value), s.2.2)
  | .flowDirection _ queue => (s.1, s.2.1, (atoiText queue).toUInt8)
  | _ => s

/-- The last numbers of a line. -/
def lastNums (opts : List SaOpt) : LastNums := opts.foldl takeNum (0, 0, 0)

theorem SaStep.nums (h : SaStep env o c c') : c'.nums = takeNum c.nums o := by
  cases h with
  | cipher hp halgo hnull hkey hlen hsalt =>
      obtain ⟨keys, salt, hrule⟩ := hsalt.rule
      rw [hrule]
      rfl
  | auth hp halgo hnull hkey hlen hsalt =>
      obtain ⟨ivLen, keys, salt, hrule⟩ := hsalt.rule
      rw [hrule]
      rfl
  | aead hp halgo hkey hlen hsalt =>
      obtain ⟨salt, hrule⟩ := takeSalt_rule hsalt
      rw [hrule]
      rfl
  | _ => rfl

/-! ## Ports -/

/-- The ports an option names. -/
def optPorts : SaOpt → List String
  | .portId port => [port]
  | .flowDirection port _ => [port]
  | _ => []

/-- The port of a rule is the first that was named and is one. -/
def PortSpec (texts : List String) (p : UInt16) : Prop :=
  if p = 0xffff then ∀ t ∈ texts, (atoiText t).toUInt16 = 0xffff
  else (∃ t ∈ texts, (atoiText t).toUInt16 = p)
    ∧ ∀ t ∈ texts, (atoiText t).toUInt16 = 0xffff ∨ (atoiText t).toUInt16 = p

theorem PortSpec.take {texts : List String} {p p' : UInt16} {tok : String}
    (h : PortSpec texts p) (htaken : PortTaken p tok p') : PortSpec (texts ++ [tok]) p' := by
  unfold PortTaken at htaken
  unfold PortSpec at h ⊢
  by_cases hp : p = 0xffff
  · rw [if_pos hp] at htaken h
    subst htaken
    by_cases hp' : (atoiText tok).toUInt16 = 0xffff
    · rw [if_pos hp']
      intro t ht
      rcases List.mem_append.mp ht with ht | ht
      · exact h t ht
      · rwa [List.mem_singleton.mp ht]
    · rw [if_neg hp']
      refine ⟨⟨tok, by simp, rfl⟩, fun t ht => ?_⟩
      rcases List.mem_append.mp ht with ht | ht
      · exact .inl (h t ht)
      · rw [List.mem_singleton.mp ht]
        exact .inr rfl
  · rw [if_neg hp] at htaken h
    obtain ⟨htok, rfl⟩ := htaken
    obtain ⟨⟨t, ht, hfirst⟩, hall⟩ := h
    rw [if_neg hp]
    refine ⟨⟨t, by simp [ht], hfirst⟩, fun u hu => ?_⟩
    rcases List.mem_append.mp hu with hu | hu
    · exact hall u hu
    · refine .inr ?_
      rw [List.mem_singleton.mp hu, ← htok]
      simp

/-- Ports named in another order come to the same one. -/
theorem PortSpec.unique {texts texts' : List String} {p p' : UInt16} (h : PortSpec texts p)
    (h' : PortSpec texts' p') (hmem : ∀ t, t ∈ texts ↔ t ∈ texts') : p = p' := by
  unfold PortSpec at h h'
  by_cases hp : p = 0xffff
  · rw [if_pos hp] at h
    by_cases hp' : p' = 0xffff
    · rw [hp, hp']
    · rw [if_neg hp'] at h'
      obtain ⟨⟨t, ht, hfirst⟩, -⟩ := h'
      exact absurd (hfirst.symm.trans (h t ((hmem t).mpr ht))) hp'
  · rw [if_neg hp] at h
    obtain ⟨⟨t, ht, hfirst⟩, hall⟩ := h
    by_cases hp' : p' = 0xffff
    · rw [if_pos hp'] at h'
      exact absurd (hfirst.symm.trans (h' t ((hmem t).mp ht))) hp
    · rw [if_neg hp'] at h'
      rcases h'.2 t ((hmem t).mp ht) with hnone | hsame
      · exact absurd (hfirst.symm.trans hnone) hp
      · exact hfirst.symm.trans hsame

theorem SaStep.port {texts : List String} (hstep : SaStep env o c c')
    (h : PortSpec texts c.rule.portid) : PortSpec (texts ++ optPorts o) c'.rule.portid := by
  have hsame : ∀ {o : SaOpt}, optPorts o = [] → c'.rule.portid = c.rule.portid →
      PortSpec (texts ++ optPorts o) c'.rule.portid := by
    intro o ho hkeep
    rwa [ho, List.append_nil, hkeep]
  cases hstep with
  | portId hp hport => exact h.take hport
  | flowDirection htype hport => exact h.take hport
  | cipher hp halgo hnull hkey hlen hsalt =>
      obtain ⟨keys, salt, hrule⟩ := hsalt.rule
      exact hsame rfl (by rw [hrule]; rfl)
  | auth hp halgo hnull hkey hlen hsalt =>
      obtain ⟨ivLen, keys, salt, hrule⟩ := hsalt.rule
      exact hsame rfl (by rw [hrule]; rfl)
  | aead hp halgo hkey hlen hsalt =>
      obtain ⟨salt, hrule⟩ := takeSalt_rule hsalt
      exact hsame rfl (by rw [hrule]; rfl)
  | _ => exact hsame rfl rfl

theorem SaSteps.port {texts : List String} (h : SaSteps env opts c c')
    (hstart : PortSpec texts c.rule.portid) :
    PortSpec (texts ++ opts.flatMap optPorts) c'.rule.portid := by
  induction h generalizing texts with
  | nil => rwa [List.flatMap_nil, List.append_nil]
  | cons hstep _ ih =>
      rw [List.flatMap_cons, ← List.append_assoc]
      exact ih (hstep.port hstart)

/-! ## UDP encapsulation -/

/-- The ports of the encapsulation follow from its flag and the type of the session,
    since neither option comes before the type. -/
structure Encaps (c : SaCore) : Prop where
  untyped : c.typeP = false → c.rule.primary.type = .none ∧ c.rule.udpEncap = 0
  sport : c.rule.sport = 0
  dport : c.rule.dport
    = if c.rule.udpEncap = 1 ∧ c.rule.primary.type = .inlineCrypto then 4500 else 0

theorem SaStep.encaps (hstep : SaStep env o c c') (h : Encaps c) : Encaps c' := by
  cases hstep with
  | type hp htype =>
      obtain ⟨htype, hudp⟩ := h.untyped hp
      have hfree : c.rule.udpEncap ≠ 1 := by
        rw [hudp]
        decide
      exact ⟨nofun, h.sport,
        h.dport.trans ((if_neg fun h => hfree h.1).trans (if_neg fun h => hfree h.1).symm)⟩
  | udpEncap htype hp =>
      refine ⟨fun hfree => ?_, h.sport, h.dport.trans ?_⟩
      · rw [(h.untyped hfree).1] at htype
        rcases htype with htype | htype <;> cases htype
      · show _ = if _ ∧ c.rule.primary.type = .inlineCrypto then _ else _
        have hother : c.rule.primary.type ≠ .inlineCrypto := by
          rcases htype with htype | htype <;> rw [htype] <;> decide
        rw [if_neg fun h => hother h.2, if_neg fun h => hother h.2]
  | udpEncapInline htype =>
      refine ⟨fun hfree => ?_, rfl, ?_⟩
      · rw [(h.untyped hfree).1] at htype
        cases htype
      · exact (if_pos ⟨rfl, htype⟩).symm
  | cipher hp halgo hnull hkey hlen hsalt =>
      obtain ⟨keys, salt, rfl⟩ := hsalt.rule
      exact ⟨h.untyped, h.sport, h.dport⟩
  | auth hp halgo hnull hkey hlen hsalt =>
      obtain ⟨ivLen, keys, salt, rfl⟩ := hsalt.rule
      exact ⟨h.untyped, h.sport, h.dport⟩
  | aead hp halgo hkey hlen hsalt =>
      obtain ⟨salt, rfl⟩ := takeSalt_rule hsalt
      exact ⟨h.untyped, h.sport, h.dport⟩
  | _ => exact ⟨h.untyped, h.sport, h.dport⟩

theorem SaSteps.encaps (h : SaSteps env opts c c') (hstart : Encaps c) : Encaps c' := by
  induction h with
  | nil => exact hstart
  | cons hstep _ ih => exact ih (hstep.encaps hstart)

/-! ## Addresses -/

/-- An option that names no source leaves it. -/
theorem SaStep.src_keep (h : SaStep env o c c') (ho : ∀ tok, o ≠ .src tok) :
    c'.rule.src = c.rule.src := by
  cases h with
  | src => exact absurd rfl (ho _)
  | cipher hp halgo hnull hkey hlen hsalt =>
      obtain ⟨keys, salt, hrule⟩ := hsalt.rule
      rw [hrule]
      rfl
  | auth hp halgo hnull hkey hlen hsalt =>
      obtain ⟨ivLen, keys, salt, hrule⟩ := hsalt.rule
      rw [hrule]
      rfl
  | aead hp halgo hkey hlen hsalt =>
      obtain ⟨salt, hrule⟩ := takeSalt_rule hsalt
      rw [hrule]
      rfl
  | _ => rfl

/-- An option that names no destination leaves it. -/
theorem SaStep.dst_keep (h : SaStep env o c c') (ho : ∀ tok, o ≠ .dst tok) :
    c'.rule.dst = c.rule.dst := by
  cases h with
  | dst => exact absurd rfl (ho _)
  | cipher hp halgo hnull hkey hlen hsalt =>
      obtain ⟨keys, salt, hrule⟩ := hsalt.rule
      rw [hrule]
      rfl
  | auth hp halgo hnull hkey hlen hsalt =>
      obtain ⟨ivLen, keys, salt, hrule⟩ := hsalt.rule
      rw [hrule]
      rfl
  | aead hp halgo hkey hlen hsalt =>
      obtain ⟨salt, hrule⟩ := takeSalt_rule hsalt
      rw [hrule]
      rfl
  | _ => rfl

theorem SaSteps.src_keep (h : SaSteps env opts c c') (hopts : ∀ tok, .src tok ∉ opts) :
    c'.rule.src = c.rule.src := by
  induction h with
  | nil => rfl
  | cons hstep _ ih =>
      rw [ih fun tok hmem => hopts tok (List.mem_cons_of_mem _ hmem)]
      exact hstep.src_keep fun tok ho => hopts tok (ho ▸ List.mem_cons_self)

theorem SaSteps.dst_keep (h : SaSteps env opts c c') (hopts : ∀ tok, .dst tok ∉ opts) :
    c'.rule.dst = c.rule.dst := by
  induction h with
  | nil => rfl
  | cons hstep _ ih =>
      rw [ih fun tok hmem => hopts tok (List.mem_cons_of_mem _ hmem)]
      exact hstep.dst_keep fun tok ho => hopts tok (ho ▸ List.mem_cons_self)

/-- The flags the options of a line come to. -/
def lineFlags (opts : List SaOpt) : UInt16 := opts.foldl (fun f o => f ||| optFlags o) 0

theorem SaStep.flags (h : SaStep env o c c') : c'.rule.flags = c.rule.flags ||| optFlags o := by
  have hout := congrArg SaOutline.flags h.outline
  rw [show c'.rule.flags = _ from hout]
  cases o <;> first | rfl | exact (UInt16.or_zero).symm

theorem SaSteps.flags (h : SaSteps env opts c c') (hstart : c.rule.flags = 0) :
    c'.rule.flags = lineFlags opts := by
  have hfold := h.foldl (fun c => c.rule.flags) (fun f o => f ||| optFlags o) SaStep.flags
  rwa [hstart] at hfold

variable {net : InetPton} {a a' : IpAddr} {tok : String}

/-- Other flags than those of the modes do not matter to an address. -/
theorem addrTaken_telemetry (f : UInt16) :
    AddrTaken net (f ||| saTelemetryEnable) a tok a' ↔ AddrTaken net f a tok a' := by
  have hmask : ∀ m : UInt16, saTelemetryEnable &&& m = 0 →
      (f ||| saTelemetryEnable) &&& m = f &&& m := by
    intro m hm
    have hsplit : (f ||| saTelemetryEnable) &&& m = (f &&& m) ||| (saTelemetryEnable &&& m) :=
      UInt16.toBitVec_inj.mp BitVec.and_or_distrib_right
    rw [hsplit, hm, UInt16.or_zero]
  rw [AddrTaken, AddrTaken, isIp4Tunnel, isIp6Tunnel, isTransport, hmask _ rfl, hmask _ rfl,
    hmask _ rfl]
  rfl

theorem addrTaken_rest (hopts : ∀ name, .mode name ∉ opts) (f : UInt16) :
    AddrTaken net (opts.foldl (fun f o => f ||| optFlags o) f) a tok a'
      ↔ AddrTaken net f a tok a' := by
  induction opts generalizing f with
  | nil => rfl
  | cons o opts ih =>
      rw [List.foldl_cons, ih fun name hmem => hopts name (List.mem_cons_of_mem _ hmem)]
      cases o with
      | mode name => exact absurd List.mem_cons_self (hopts name)
      | telemetry => exact addrTaken_telemetry f
      | _ => exact iff_of_eq (congrArg (AddrTaken net · a tok a') UInt16.or_zero)

/-- In no tunnel an address stays as it is. -/
theorem addr_other {f : UInt16} (hf : isTunnel f = false) (h : AddrTaken net f a tok a') :
    a' = a := by
  have hsplit : f &&& (ip4Tunnel ||| ip6Tunnel) = (f &&& ip4Tunnel) ||| (f &&& ip6Tunnel) :=
    UInt16.toBitVec_inj.mp BitVec.and_or_distrib_left
  rw [isTunnel, hsplit, bne_eq_false_iff_eq, UInt16.or_eq_zero_iff] at hf
  unfold AddrTaken at h
  rw [if_neg (by rw [isIp4Tunnel, hf.1]; decide), if_neg (by rw [isIp6Tunnel, hf.2]; decide)]
    at h
  exact h.2

/-- **WHICH ADDRESSES ARE STORED**: those behind the mode, and those that are zero. -/
theorem addr_stored_iff (honce : opts.Pairwise fun x y => x.clash y = false)
    {pre post : List SaOpt} (hopts : opts = pre ++ o :: post)
    (htaken : AddrTaken net (lineFlags pre) IpAddr.zero tok a) :
    (AddrTaken net (lineFlags opts) IpAddr.zero tok a
        ↔ (∃ name, .mode name ∈ pre)
          ∨ AddrTaken net (lineFlags opts) IpAddr.zero tok IpAddr.zero)
      ∧ (isTunnel (lineFlags opts) = false → a = IpAddr.zero) := by
  have hsplit : lineFlags opts
      = (o :: post).foldl (fun f o => f ||| optFlags o) (lineFlags pre) := by
    rw [hopts, lineFlags, List.foldl_append]
    rfl
  by_cases hmode : ∃ name, .mode name ∈ pre
  · have hrest : ∀ name, .mode name ∉ o :: post := by
      obtain ⟨name, hmem⟩ := hmode
      intro name' hmem'
      rw [hopts, List.pairwise_append] at honce
      exact absurd (honce.2.2 _ hmem _ hmem') (by simp [SaOpt.clash, SaOpt.limited, SaOpt.ctorIdx])
    have hsame : AddrTaken net (lineFlags opts) IpAddr.zero tok a
        ↔ AddrTaken net (lineFlags pre) IpAddr.zero tok a := by
      rw [hsplit]
      exact addrTaken_rest hrest _
    refine ⟨iff_of_true (hsame.mpr htaken) (.inl hmode), fun htransport => ?_⟩
    exact addr_other htransport (hsame.mpr htaken)
  · have hsame := (addrTaken_rest (fun name hmem => hmode ⟨name, hmem⟩) 0).mp htaken
    have hzero : a = IpAddr.zero := hsame.2
    refine ⟨?_, fun _ => hzero⟩
    rw [hzero, or_iff_right hmode]

/-! ## Keys -/

/-- The bytes a key text is written as. -/
def writtenBytes (key : String) : List UInt8 := (goneOver (groupsOf key)).map strtolByte

/-- The number of bytes it is taken for. -/
def keyCount (key : String) : Nat := if KeyShort key then (groupsOf key).length else 0

/-- A block that is stored is laid over the memory. -/
theorem store_eq_overlay (m : Nat → UInt8) (a : Nat) (l : List UInt8) :
    store m a l = overlay (block a l) m := by
  ext i
  rw [overlay, last_block]
  by_cases hi : a ≤ i ∧ i < a + l.length
  · obtain ⟨k, rfl⟩ : ∃ k, i = a + k := ⟨i - a, by omega⟩
    rw [store_inside m a l (by omega), if_pos hi.1, Nat.add_sub_cancel_left,
      List.getElem?_eq_getElem (by omega), Option.getD_some]
  · rw [store_outside m (by omega)]
    split
    · rw [List.getElem?_eq_none (by omega), Option.getD_none]
    · rw [Option.getD_none]

theorem setLen16_eq_overlay (m : Nat → UInt8) (a : Nat) (n : UInt16) :
    setLen16 m a n = overlay (block a (toLe 2 n.toNat)) m := store_eq_overlay _ _ _

/-- A key text that stays in the fields of the SA. -/
theorem parseKeyString_ok {a n : Nat} {key : String} {keys keys' : Nat → UInt8}
    (ha : a ≤ keysEnd) (h : parseKeyString a key keys = .ok (n, keys')) :
    n = keyCount key ∧ n ≤ keysEnd ∧ keys' = overlay (block a (writtenBytes key)) keys := by
  have heq := storeGroups_eq (groupsOf key) a 0 keys (by omega)
  rw [parseKeyString] at h
  have heq := h.symm.trans heq
  split at heq
  · cases heq
  · rename_i hroom
    cases heq
    simp only [goneOver_eq_iff, Nat.zero_add]
    refine ⟨rfl, ?_, store_eq_overlay _ _ _⟩
    split
    · rename_i hshort
      rw [(goneOver_eq_iff key).mpr hshort] at hroom
      omega
    · omega

/-- The writes of a key, with its length before and, when its end is a salt, behind. -/
def keyLog (a lenAt : Nat) (keyLen : UInt16) (salted : Bool) (key : String) :
    List (Nat × UInt8) :=
  block lenAt (toLe 2 keyLen.toNat) ++ block a (writtenBytes key)
    ++ if salted then block lenAt (toLe 2 (UInt32.ofNat (keyCount key) - 4).toUInt16.toNat)
      else []

/-- The salt at the end of a key. -/
def keySalt (a : Nat) (log : List (Nat × UInt8)) (key : String) : UInt32 :=
  UInt32.ofNat (ofLe (load (overlay log fun _ => 0) (a + (keyCount key - 4)) 4))

/-- What is read where a log has written does not depend on the memory. -/
theorem load_overlay {log : List (Nat × UInt8)} {a n : Nat} (m m' : Nat → UInt8)
    (h : ∀ i < n, ∃ x, last (a + i) log = some x) :
    load (overlay log m) a n = load (overlay log m') a n := by
  refine load_congr fun i hi => ?_
  obtain ⟨x, hx⟩ := h i hi
  rw [overlay_of_last hx, overlay_of_last hx]

/-- The bytes of a key are written by its log. -/
theorem keyLog_last {a i : Nat} {key : String} (before behind : List (Nat × UInt8))
    (hi : i < keyCount key) :
    ∃ x, last (a + i) (before ++ block a (writtenBytes key) ++ behind) = some x := by
  have hshort : KeyShort key := by
    by_contra hlong
    rw [keyCount, if_neg hlong] at hi
    omega
  have hlen : (writtenBytes key).length = keyCount key := by
    rw [writtenBytes, (goneOver_eq_iff key).mpr hshort, List.length_map, keyCount, if_pos hshort]
  obtain ⟨x, hx⟩ : ∃ x, last (a + i) (block a (writtenBytes key)) = some x := by
    rw [last_block, if_pos (by omega), Nat.add_sub_cancel_left,
      List.getElem?_eq_getElem (by omega)]
    exact ⟨_, rfl⟩
  rw [last_append_log, last_append_log, hx]
  cases last (a + i) behind with
  | none => exact ⟨x, rfl⟩
  | some y => exact ⟨y, rfl⟩

/-- A key behind its length. -/
theorem parseKeyString_keyed {a lenAt n : Nat} {keyLen : UInt16} {key : String}
    {keys keys' : Nat → UInt8} (ha : a ≤ keysEnd)
    (h : parseKeyString a key (setLen16 keys lenAt keyLen) = .ok (n, keys')) :
    n = keyCount key ∧ n ≤ keysEnd
      ∧ keys' = overlay (block lenAt (toLe 2 keyLen.toNat) ++ block a (writtenBytes key)) keys := by
  obtain ⟨hn, hsmall, hkeys⟩ := parseKeyString_ok ha h
  refine ⟨hn, hsmall, ?_⟩
  rw [hkeys, overlay_append, ← setLen16_eq_overlay]

/-- **SALT**: it is the end of the key as its own log leaves it. -/
theorem takeSalt_overlay {rule rule' : SaRule} {a lenAt : Nat} {key : String}
    {before : List (Nat × UInt8)} {m : Nat → UInt8} (hsmall : keyCount key ≤ keysEnd)
    (hkeys : rule.keys = overlay (before ++ block a (writtenBytes key)) m)
    (h : rule.takeSalt a lenAt (UInt32.ofNat (keyCount key)) = .ok rule') :
    rule' = { rule with
      keys := overlay (before ++ block a (writtenBytes key)
        ++ block lenAt (toLe 2 (UInt32.ofNat (keyCount key) - 4).toUInt16.toNat)) m
      salt := keySalt a (before ++ block a (writtenBytes key)
        ++ block lenAt (toLe 2 (UInt32.ofNat (keyCount key) - 4).toUInt16.toNat)) key } := by
  unfold SaRule.takeSalt at h
  dsimp only at h
  split at h
  · cases h
  · rename_i hroom
    cases h
    have hend : keysEnd = 134 := rfl
    have hcount : (UInt32.ofNat (keyCount key)).toNat = keyCount key := by
      rw [UInt32.toNat_ofNat']
      omega
    have hfour : (4 : UInt32).toNat = 4 := rfl
    -- a key shorter than its salt is refused
    have hlong : 4 ≤ keyCount key := by
      rw [UInt32.toNat_sub, hcount, hfour] at hroom
      omega
    have hsub : (UInt32.ofNat (keyCount key) - 4).toNat = keyCount key - 4 := by
      rw [UInt32.toNat_sub, hcount, hfour]
      omega
    have hload := load_overlay m (fun _ => 0) (a := a + (keyCount key - 4)) (n := 4)
      fun i hi => by
        rw [Nat.add_assoc]
        exact keyLog_last before
          (block lenAt (toLe 2 (UInt32.ofNat (keyCount key) - 4).toUInt16.toNat))
          (by omega : keyCount key - 4 + i < keyCount key)
    rw [hsub, hkeys, setLen16_eq_overlay, ← overlay_append, keySalt, hload]

/-- The salt of a key behind its length. -/
theorem takeSalt_keyLog {rule rule' : SaRule} {a lenAt : Nat} {keyLen : UInt16} {key : String}
    {m : Nat → UInt8} (hsmall : keyCount key ≤ keysEnd)
    (hkeys : rule.keys
      = overlay (block lenAt (toLe 2 keyLen.toNat) ++ block a (writtenBytes key)) m)
    (h : rule.takeSalt a lenAt (UInt32.ofNat (keyCount key)) = .ok rule') :
    rule' = { rule with
      keys := overlay (keyLog a lenAt keyLen true key) m
      salt := keySalt a (keyLog a lenAt keyLen true key) key } := by
  rw [keyLog, if_pos rfl]
  exact takeSalt_overlay hsmall hkeys h

/-- Without one the key ends the writes. -/
theorem keyLog_false (a lenAt : Nat) (keyLen : UInt16) (key : String) :
    keyLog a lenAt keyLen false key
      = block lenAt (toLe 2 keyLen.toNat) ++ block a (writtenBytes key) := by
  rw [keyLog, if_neg Bool.false_ne_true, List.append_nil]

/-! ## Algorithms -/

/-- The writes of a cipher and its key. -/
def cipherLog (algo : SupportedCipherAlgo) : Option String → List (Nat × UInt8)
  | none => block cipherKeyLenAt (toLe 2 algo.keyLen.toNat)
  | some key => keyLog cipherKeyAt cipherKeyLenAt algo.keyLen (algo.algo = .aesCtr) key

/-- The salt in the key of a counter mode. -/
def cipherKeySalt (algo : SupportedCipherAlgo) : Option String → Option UInt32
  | none => none
  | some key =>
      if algo.algo = .aesCtr then some (keySalt cipherKeyAt (cipherLog algo (some key)) key)
      else none

/-- The writes of an authentication algorithm and its key. -/
def authLog (algo : SupportedAuthAlgo) : Option String → List (Nat × UInt8)
  | none => block authKeyLenAt (toLe 2 algo.keyLen.toNat)
  | some key => keyLog authKeyAt authKeyLenAt algo.keyLen (algo.algo = .aesGmac) key

/-- The salt in the key of AES-GMAC. -/
def authKeySalt (algo : SupportedAuthAlgo) : Option String → Option UInt32
  | none => none
  | some key =>
      if algo.algo = .aesGmac then some (keySalt authKeyAt (authLog algo (some key)) key)
      else none

/-- The writes of an AEAD algorithm and its key. -/
def aeadLog (algo : SupportedAeadAlgo) (key : String) : List (Nat × UInt8) :=
  block cipherKeyLenAt (toLe 2 algo.keyLen.toNat) ++ block aadLenAt (toLe 2 algo.aadLen.toNat)
    ++ block cipherKeyAt (writtenBytes key)
    ++ block cipherKeyLenAt (toLe 2 (UInt32.ofNat (keyCount key) - 4).toUInt16.toNat)

/-- The parts of the rule the algorithms fill. -/
structure SaCrypto where
  cipherAlgo : CipherAlgo
  authAlgo : AuthAlgo
  aeadAlgo : AeadAlgo
  digestLen : UInt16
  ivLen : UInt16
  blockSize : UInt16
  keys : Nat → UInt8
  salt : UInt32

def SaRule.crypto (rule : SaRule) : SaCrypto where
  cipherAlgo := rule.cipherAlgo
  authAlgo := rule.authAlgo
  aeadAlgo := rule.aeadAlgo
  digestLen := rule.digestLen
  ivLen := rule.ivLen
  blockSize := rule.blockSize
  keys := rule.keys
  salt := rule.salt

def SaCrypto.takeCipher (rand : UInt32) (s : SaCrypto) (key : Option String)
    (algo : SupportedCipherAlgo) : SaCrypto :=
  { s with
    cipherAlgo := algo.algo
    blockSize := algo.blockSize
    ivLen := algo.ivLen
    keys := overlay (cipherLog algo key) s.keys
    salt := if DrawsSalt algo then rand else (cipherKeySalt algo key).getD s.salt }

def SaCrypto.takeAuth (s : SaCrypto) (key : Option String) (algo : SupportedAuthAlgo) :
    SaCrypto :=
  { s with
    authAlgo := algo.algo
    digestLen := algo.digestLen
    ivLen := if algo.algo = .aesGmac then algo.ivLen else s.ivLen
    keys := overlay (authLog algo key) s.keys
    salt := (authKeySalt algo key).getD s.salt }

def SaCrypto.takeAead (s : SaCrypto) (key : String) (algo : SupportedAeadAlgo) : SaCrypto :=
  { s with
    aeadAlgo := algo.algo
    digestLen := algo.digestLen
    blockSize := algo.blockSize
    ivLen := algo.ivLen
    keys := overlay (aeadLog algo key) s.keys
    salt := keySalt cipherKeyAt (aeadLog algo key) key }

/-- What an option does to them. -/
def SaCrypto.take (rand : UInt32) (s : SaCrypto) : SaOpt → SaCrypto
  | .cipher name key => ((findMatchCipherAlgo name).map (s.takeCipher rand key)).getD s
  | .auth name key => ((findMatchAuthAlgo name).map (s.takeAuth key)).getD s
  | .aead name key => ((findMatchAeadAlgo name).map (s.takeAead key)).getD s
  | _ => s

theorem not_drawsSalt {algo : SupportedCipherAlgo} (hcbc : algo.algo ≠ .aesCbc)
    (h3des : algo.algo ≠ .tripleDesCbc) : ¬ DrawsSalt algo :=
  fun h => h.elim hcbc h3des

/-- A cipher with its key. -/
theorem SaRule.crypto_cipher {rand : UInt32} {rule rule' : SaRule}
    {algo : SupportedCipherAlgo} {key : String} {n : Nat} {keys : Nat → UInt8}
    (hkey : parseKeyString cipherKeyAt key (rule.setCipher algo).keys = .ok (n, keys))
    (hsalt : CipherSalted rand algo (UInt32.ofNat n) { rule.setCipher algo with keys := keys }
      rule') :
    rule'.crypto = rule.crypto.takeCipher rand (some key) algo := by
  obtain ⟨rfl, hsmall, hkeys⟩ := parseKeyString_keyed (by decide) hkey
  unfold CipherSalted at hsalt
  rw [SaCrypto.takeCipher]
  by_cases hctr : algo.algo = .aesCtr
  · rw [if_pos hctr] at hsalt
    have hdraws : ¬ DrawsSalt algo := not_drawsSalt (by simp [hctr]) (by simp [hctr])
    have hlog : cipherLog algo (some key)
        = keyLog cipherKeyAt cipherKeyLenAt algo.keyLen true key := by
      rw [cipherLog, decide_eq_true hctr]
    rw [takeSalt_keyLog hsmall hkeys hsalt, if_neg hdraws, cipherKeySalt, if_pos hctr, hlog]
    rfl
  · rw [if_neg hctr] at hsalt
    have hlog : cipherLog algo (some key)
        = keyLog cipherKeyAt cipherKeyLenAt algo.keyLen false key := by
      rw [cipherLog, decide_eq_false hctr]
    rw [hsalt, hkeys, cipherKeySalt, if_neg hctr, hlog, keyLog_false]
    rfl

/-- An authentication algorithm with its key. -/
theorem SaRule.crypto_auth {rule rule' : SaRule} {algo : SupportedAuthAlgo} {key : String}
    {n : Nat} {keys : Nat → UInt8}
    (hkey : parseKeyString authKeyAt key (rule.setAuth algo).keys = .ok (n, keys))
    (hsalt : AuthSalted algo (UInt32.ofNat n) { rule.setAuth algo with keys := keys } rule') :
    rule'.crypto = rule.crypto.takeAuth (some key) algo := by
  obtain ⟨rfl, hsmall, hkeys⟩ := parseKeyString_keyed (by decide) hkey
  unfold AuthSalted at hsalt
  rw [SaCrypto.takeAuth]
  by_cases hgmac : algo.algo = .aesGmac
  · rw [if_pos hgmac] at hsalt
    have hlog : authLog algo (some key)
        = keyLog authKeyAt authKeyLenAt algo.keyLen true key := by
      rw [authLog, decide_eq_true hgmac]
    rw [takeSalt_keyLog hsmall hkeys hsalt, if_pos hgmac, authKeySalt, if_pos hgmac, hlog]
    rfl
  · rw [if_neg hgmac] at hsalt
    have hlog : authLog algo (some key)
        = keyLog authKeyAt authKeyLenAt algo.keyLen false key := by
      rw [authLog, decide_eq_false hgmac]
    rw [hsalt, hkeys, if_neg hgmac, authKeySalt, if_neg hgmac, hlog, keyLog_false]
    rfl

/-- An AEAD algorithm with its key. -/
theorem SaRule.crypto_aead {rule rule' : SaRule} {algo : SupportedAeadAlgo} {key : String}
    {n : Nat} {keys : Nat → UInt8}
    (hkey : parseKeyString cipherKeyAt key (rule.setAead algo).keys = .ok (n, keys))
    (hsalt : { rule.setAead algo with keys := keys }.takeSalt cipherKeyAt cipherKeyLenAt
      (UInt32.ofNat n) = .ok rule') :
    rule'.crypto = rule.crypto.takeAead key algo := by
  obtain ⟨rfl, hsmall, hkeys⟩ := parseKeyString_ok (by decide) hkey
  have hkeys : keys = overlay (block cipherKeyLenAt (toLe 2 algo.keyLen.toNat)
      ++ block aadLenAt (toLe 2 algo.aadLen.toNat)
      ++ block cipherKeyAt (writtenBytes key)) rule.keys := by
    rw [hkeys, overlay_append, overlay_append, ← setLen16_eq_overlay, ← setLen16_eq_overlay]
    rfl
  rw [SaCrypto.takeAead, takeSalt_overlay hsmall hkeys hsalt]
  rfl

/-- **STEP**. -/
theorem SaStep.crypto (h : SaStep env o c c') :
    c'.rule.crypto = c.rule.crypto.take env.rand o := by
  cases h with
  | @cipherNull c name algo hp halgo hnull =>
      have hdraws : ¬ DrawsSalt algo := not_drawsSalt (by simp [hnull]) (by simp [hnull])
      rw [SaCrypto.take, halgo, Option.map_some, Option.getD_some, SaCrypto.takeCipher,
        if_neg hdraws]
      refine congrArg (fun keys => { c.rule.crypto with
        cipherAlgo := algo.algo, blockSize := algo.blockSize, ivLen := algo.ivLen, keys := keys })
        (setLen16_eq_overlay _ _ _)
  | @cipher c name key algo n keys rule hp halgo hnull hkey hlen hsalt =>
      rw [SaCrypto.take, halgo, Option.map_some, Option.getD_some]
      exact SaRule.crypto_cipher hkey hsalt
  | @authNull c name algo hp halgo hnull =>
      have hgmac : algo.algo ≠ .aesGmac := by simp [hnull]
      rw [SaCrypto.take, halgo, Option.map_some, Option.getD_some, SaCrypto.takeAuth,
        if_neg hgmac]
      exact congrArg (fun keys => { c.rule.crypto with
        authAlgo := algo.algo, digestLen := algo.digestLen, keys := keys })
        (setLen16_eq_overlay _ _ _)
  | @auth c name key algo n keys rule hp halgo hnull hkey hlen hsalt =>
      rw [SaCrypto.take, halgo, Option.map_some, Option.getD_some]
      exact SaRule.crypto_auth hkey hsalt
  | @aead c name key algo n keys rule hp halgo hkey hlen hsalt =>
      rw [SaCrypto.take, halgo, Option.map_some, Option.getD_some]
      exact SaRule.crypto_aead hkey hsalt
  | _ => rfl

/-- **RUN**. -/
theorem SaSteps.crypto (h : SaSteps env opts c c') :
    c'.rule.crypto = opts.foldl (SaCrypto.take env.rand) c.rule.crypto :=
  h.foldl (fun c => c.rule.crypto) (SaCrypto.take env.rand) SaStep.crypto

end SaParse
