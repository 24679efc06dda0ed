import IpsecSecgw.SaParseProofs

/-! # Session types of accepted SAs

    `udp-encap`, `fallback` and `flow-direction` look at the session type their
    line has given so far.  Behind the loop the type falls back to the first one
    when no port is given, and a `type` behind `flow-direction` still sets it;
    an accepted rule keeps what the options were checked for when neither
    happens to them (`restricted_iff`). -/

namespace SaParse

open SaModel ParserModel

/-! ## What is promised -/

/-- A session type the hardware works for. -/
def IsOffload (type : ActionType) : Prop :=
  type = .lookasideProtocol ∨ type = .inlineProtocol ∨ type = .inlineCrypto

instance (type : ActionType) : Decidable (IsOffload type) :=
  inferInstanceAs (Decidable (_ ∨ _ ∨ _))

/-- The rule is as its options were checked for. -/
structure Restricted (env : SaEnv) (rule : SaRule) : Prop where
  udpEncap : rule.udpEncap = 1 → IsOffload rule.primary.type
  fallback : rule.fallbackSessions = 1 → rule.direction = .ingress
    ∧ env.enable = true ∧ rule.primary.type = .inlineCrypto
  fdirFlag : rule.fdirFlag = 1 →
    rule.primary.type = .none ∨ rule.primary.type = .cpuCrypto

/-- A port is given. -/
def PortGiven (opts : List SaOpt) : Prop := ∃ port, .portId port ∈ opts

/-- A flow direction is given. -/
def FlowGiven (opts : List SaOpt) : Prop := ∃ port queue, .flowDirection port queue ∈ opts

/-- A session type of the hardware is given. -/
def OffloadGiven (opts : List SaOpt) : Prop :=
  ∃ name type, .type name ∈ opts ∧ typeOf name = some type ∧ IsOffload type

/-- It is given behind a flow direction. -/
def OffloadBehindFlow (opts : List SaOpt) : Prop :=
  ∃ before after, opts = before ++ after ∧ FlowGiven before ∧ OffloadGiven after

/-- The options whose type is not taken back: those that ask for a session of the
    hardware come with a port, and behind a flow direction such a session comes
    without one. -/
structure TypeStays (opts : List SaOpt) : Prop where
  port : .udpEncap ∈ opts ∨ (∃ name, .fallback name ∈ opts) → PortGiven opts
  flow : OffloadBehindFlow opts → ¬ PortGiven opts

variable {env : SaEnv} {opts : List SaOpt} {c c' : SaCore}

/-! ## Options one behind the other -/

/-- **RUN**: what every step carries over holds of the whole line. -/
theorem SaSteps.run {P : List SaOpt → SaCore → Prop}
    (hstep : ∀ opts o c c', SaStep env o c c' → P opts c → P (opts ++ [o]) c')
    (h : SaSteps env opts c c') (hc : P [] c) : P opts c' := by
  have hrun : ∀ pre, P pre c → P (pre ++ opts) c' := by
    clear hc
    induction h with
    | nil =>
        intro pre hpre
        rwa [List.append_nil]
    | cons hone _ ih =>
        intro pre hpre
        have htail := ih (pre ++ [_]) (hstep _ _ _ _ hone hpre)
        rwa [List.append_assoc] at htail
  exact hrun [] hc

theorem offloadGiven_concat (o : SaOpt) : OffloadGiven (opts ++ [o]) ↔ OffloadGiven opts
    ∨ ∃ name type, o = .type name ∧ typeOf name = some type ∧ IsOffload type := by
  constructor
  · rintro ⟨name, type, hmem, htype⟩
    rcases List.mem_append.mp hmem with hmem | hmem
    · exact .inl ⟨name, type, hmem, htype⟩
    · exact .inr ⟨name, type, (List.mem_singleton.mp hmem).symm, htype⟩
  · rintro (⟨name, type, hmem, htype⟩ | ⟨name, type, rfl, htype⟩)
    · exact ⟨name, type, List.mem_append_left _ hmem, htype⟩
    · exact ⟨name, type, List.mem_append_right _ List.mem_cons_self, htype⟩

theorem OffloadBehindFlow.flow (h : OffloadBehindFlow opts) : FlowGiven opts := by
  obtain ⟨before, after, rfl, ⟨port, queue, hmem⟩, -⟩ := h
  exact ⟨port, queue, List.mem_append_left _ hmem⟩

/-- One more option comes behind a flow direction when that has been given. -/
theorem offloadBehindFlow_concat (o : SaOpt) :
    OffloadBehindFlow (opts ++ [o]) ↔ OffloadBehindFlow opts
      ∨ FlowGiven opts ∧ ∃ name type, o = .type name ∧ typeOf name = some type
        ∧ IsOffload type := by
  constructor
  · rintro ⟨before, after, hsplit, hflow, hoff⟩
    rcases List.eq_nil_or_concat' after with rfl | ⟨after, o', rfl⟩
    · obtain ⟨name, type, hmem, -⟩ := hoff
      cases hmem
    · rw [← List.append_assoc] at hsplit
      obtain ⟨rfl, ho⟩ := List.append_inj' hsplit rfl
      cases ho
      rcases (offloadGiven_concat o).mp hoff with hoff | hoff
      · exact .inl ⟨before, after, rfl, hflow, hoff⟩
      · obtain ⟨port, queue, hmem⟩ := hflow
        exact .inr ⟨⟨port, queue, List.mem_append_left _ hmem⟩, hoff⟩
  · rintro (⟨before, after, rfl, hflow, hoff⟩ | ⟨hflow, hoff⟩)
    · exact ⟨before, after ++ [o], List.append_assoc _ _ _, hflow,
        (offloadGiven_concat o).mpr (.inl hoff)⟩
    · exact ⟨opts, [o], rfl, hflow, (@offloadGiven_concat [] o).mpr (.inr hoff)⟩

/-! ## Steps -/

/-- What is known of the variables behind some options. -/
structure TypeRead (env : SaEnv) (dir : Direction) (opts : List SaOpt)
    (c : SaCore) : Prop where
  direction : c.rule.direction = dir
  free : c.typeP = false → c.rule.primary.type = .none
  port : c.portidP = true ↔ PortGiven opts
  udpEncap : c.rule.udpEncap = 1 ↔ .udpEncap ∈ opts
  udpType : c.rule.udpEncap = 1 → IsOffload c.rule.primary.type
  fallback : c.rule.fallbackSessions = 1 ↔ ∃ name, .fallback name ∈ opts
  fallbackType : c.rule.fallbackSessions = 1 → dir = .ingress
    ∧ env.enable = true ∧ c.rule.primary.type = .inlineCrypto
  fdirFlag : c.rule.fdirFlag = 1 ↔ FlowGiven opts
  fdirType : FlowGiven opts → (IsOffload c.rule.primary.type ↔ OffloadBehindFlow opts)

/-- The variables `TypeRead` looks at. -/
structure SameTypes (c c' : SaCore) : Prop where
  direction : c'.rule.direction = c.rule.direction
  typeP : c'.typeP = c.typeP
  portidP : c'.portidP = c.portidP
  primary : c'.rule.primary = c.rule.primary
  udpEncap : c'.rule.udpEncap = c.rule.udpEncap
  fallback : c'.rule.fallbackSessions = c.rule.fallbackSessions
  fdirFlag : c'.rule.fdirFlag = c.rule.fdirFlag

/-- The options that write them. -/
def SaOpt.ofType : SaOpt → Bool
  | .type _ => true
  | .portId _ => true
  | .fallback _ => true
  | .flowDirection _ _ => true
  | .udpEncap => true
  | _ => false

/-- A salt is taken out of the key, whose length is written. -/
theorem takeSalt_rule {rule rule' : SaRule} {a lenAt : Nat} {n : UInt32}
    (h : rule.takeSalt a lenAt n = .ok rule') :
    ∃ salt, rule' = { rule with
      keys := setLen16 rule.keys lenAt (n - 4).toUInt16, salt := salt } := by
  unfold SaRule.takeSalt at h
  dsimp only at h
  split at h
  · cases h
  · exact ⟨_, (Except.ok.inj h).symm⟩

theorem CipherSalted.rule {rand : UInt32} {algo : SupportedCipherAlgo} {n : UInt32}
    {rule rule' : SaRule} (h : CipherSalted rand algo n rule rule') :
    ∃ keys salt, rule' = { rule with keys := keys, salt := salt } := by
  unfold CipherSalted at h
  split at h
  · obtain ⟨salt, hrule⟩ := takeSalt_rule h
    exact ⟨_, salt, hrule⟩
  · exact ⟨rule.keys, _, h⟩

theorem AuthSalted.rule {algo : SupportedAuthAlgo} {n : UInt32} {rule rule' : SaRule}
    (h : AuthSalted algo n rule rule') :
    ∃ ivLen keys salt, rule' = { rule with ivLen := ivLen, keys := keys, salt := salt } := by
  unfold AuthSalted at h
  split at h
  · obtain ⟨salt, hrule⟩ := takeSalt_rule h
    exact ⟨_, _, salt, hrule⟩
  · exact ⟨rule.ivLen, rule.keys, rule.salt, h⟩

/-- **FRAME**: the other options leave them. -/
theorem SaStep.sameTypes {o : SaOpt} (h : SaStep env o c c') (ho : o.ofType = false) :
    SameTypes c c' := by
  cases h with
  | mode => exact ⟨rfl, rfl, rfl, rfl, rfl, rfl, rfl⟩
  | telemetry => exact ⟨rfl, rfl, rfl, rfl, rfl, rfl, rfl⟩
  | cipherNull => exact ⟨rfl, rfl, rfl, rfl, rfl, rfl, rfl⟩
  | cipher hp halgo hnull hkey hlen hsalt =>
      obtain ⟨keys, salt, rfl⟩ := hsalt.rule
      exact ⟨rfl, rfl, rfl, rfl, rfl, rfl, rfl⟩
  | authNull => exact ⟨rfl, rfl, rfl, rfl, rfl, rfl, rfl⟩
  | auth hp halgo hnull hkey hlen hsalt =>
      obtain ⟨ivLen, keys, salt, rfl⟩ := hsalt.rule
      exact ⟨rfl, rfl, rfl, rfl, rfl, rfl, rfl⟩
  | aead hp halgo hkey hlen hsalt =>
      obtain ⟨salt, rfl⟩ := takeSalt_rule hsalt
      exact ⟨rfl, rfl, rfl, rfl, rfl, rfl, rfl⟩
  | src => exact ⟨rfl, rfl, rfl, rfl, rfl, rfl, rfl⟩
  | dst => exact ⟨rfl, rfl, rfl, rfl, rfl, rfl, rfl⟩
  | mss => exact ⟨rfl, rfl, rfl, rfl, rfl, rfl, rfl⟩
  | esn => exact ⟨rfl, rfl, rfl, rfl, rfl, rfl, rfl⟩
  | type => cases ho
  | portId => cases ho
  | fallback => cases ho
  | flowDirection => cases ho
  | udpEncap => cases ho
  | udpEncapInline => cases ho

theorem mem_concat_of_ne {o o' : SaOpt} (h : o' ≠ o) : o' ∈ opts ++ [o] ↔ o' ∈ opts := by
  simp [h]

theorem flowGiven_concat {o : SaOpt} (h : ∀ port queue, o ≠ .flowDirection port queue) :
    FlowGiven (opts ++ [o]) ↔ FlowGiven opts :=
  exists_congr fun port => exists_congr fun queue =>
    mem_concat_of_ne (h port queue).symm

theorem portGiven_concat {o : SaOpt} (h : ∀ port, o ≠ .portId port) :
    PortGiven (opts ++ [o]) ↔ PortGiven opts :=
  exists_congr fun port => mem_concat_of_ne (h port).symm

theorem fallback_concat {o : SaOpt} (h : ∀ name, o ≠ .fallback name) :
    (∃ name, .fallback name ∈ opts ++ [o]) ↔ ∃ name, .fallback name ∈ opts :=
  exists_congr fun name => mem_concat_of_ne (h name).symm

theorem offloadBehindFlow_concat_of_ne {o : SaOpt} (h : ∀ name, o ≠ .type name) :
    OffloadBehindFlow (opts ++ [o]) ↔ OffloadBehindFlow opts := by
  rw [offloadBehindFlow_concat]
  refine or_iff_left ?_
  rintro ⟨-, name, type, ho, -⟩
  exact h name ho

/-- What is known does not change with the other options. -/
theorem TypeRead.same {dir : Direction} {o : SaOpt} (h : TypeRead env dir opts c)
    (hs : SameTypes c c') (ho : o.ofType = false) : TypeRead env dir (opts ++ [o]) c' := by
  have hport : ∀ port, o ≠ .portId port := by
    rintro port rfl
    cases ho
  have hudp : .udpEncap ≠ o := by
    rintro rfl
    cases ho
  have hfb : ∀ name, o ≠ .fallback name := by
    rintro name rfl
    cases ho
  have hflow : ∀ port queue, o ≠ .flowDirection port queue := by
    rintro port queue rfl
    cases ho
  have htype : ∀ name, o ≠ .type name := by
    rintro name rfl
    cases ho
  constructor
  · rw [hs.direction]
    exact h.direction
  · rw [hs.typeP, hs.primary]
    exact h.free
  · rw [hs.portidP, portGiven_concat hport]
    exact h.port
  · rw [hs.udpEncap, mem_concat_of_ne hudp]
    exact h.udpEncap
  · rw [hs.udpEncap, hs.primary]
    exact h.udpType
  · rw [hs.fallback, fallback_concat hfb]
    exact h.fallback
  · rw [hs.fallback, hs.primary]
    exact h.fallbackType
  · rw [hs.fdirFlag, flowGiven_concat hflow]
    exact h.fdirFlag
  · rw [hs.primary, flowGiven_concat hflow, offloadBehindFlow_concat_of_ne htype]
    exact h.fdirType

/-- A session type is named once, so nothing has been asked of the hardware
    before. -/
theorem TypeRead.type {dir : Direction} {name : String} {type : ActionType}
    (h : TypeRead env dir opts c) (hp : c.typeP = false) (htype : typeOf name = some type) :
    TypeRead env dir (opts ++ [.type name])
      { c with rule := c.rule.setType type, typeP := true } := by
  have hnone := h.free hp
  have hudp : c.rule.udpEncap ≠ 1 := by
    intro hone
    have hoff := h.udpType hone
    rw [hnone] at hoff
    exact absurd hoff (by decide)
  have hfb : c.rule.fallbackSessions ≠ 1 := by
    intro hone
    have hoff := (h.fallbackType hone).2.2
    rw [hnone] at hoff
    cases hoff
  refine ⟨h.direction, (by intro hf; cases hf), ?_, ?_, (fun hone => absurd hone hudp), ?_,
    (fun hone => absurd hone hfb), ?_, ?_⟩
  · rw [portGiven_concat (by intro port ho; cases ho)]
    exact h.port
  · rw [mem_concat_of_ne (by intro ho; cases ho)]
    exact h.udpEncap
  · rw [fallback_concat (by intro name ho; cases ho)]
    exact h.fallback
  · rw [flowGiven_concat (by intro port queue ho; cases ho)]
    exact h.fdirFlag
  · rw [flowGiven_concat (by intro port queue ho; cases ho), offloadBehindFlow_concat]
    intro hflow
    have hbefore := h.fdirType hflow
    rw [hnone] at hbefore
    have hno : ¬ OffloadBehindFlow opts := by
      rw [← hbefore]
      decide
    constructor
    · intro hoff
      exact .inr ⟨hflow, name, type, rfl, htype, hoff⟩
    · rintro (hbehind | ⟨-, name', type', hname, htype', hoff⟩)
      · exact absurd hbehind hno
      · cases hname
        rw [htype] at htype'
        cases htype'
        exact hoff

theorem TypeRead.portId {dir : Direction} {port : String} {p : UInt16}
    (h : TypeRead env dir opts c) :
    TypeRead env dir (opts ++ [.portId port])
      { c with rule := { c.rule with portid := p }, portidP := true } := by
  constructor
  · exact h.direction
  · exact h.free
  · exact ⟨fun _ => ⟨port, List.mem_append_right _ List.mem_cons_self⟩, fun _ => rfl⟩
  · rw [mem_concat_of_ne (by intro ho; cases ho)]
    exact h.udpEncap
  · exact h.udpType
  · rw [fallback_concat (by intro name ho; cases ho)]
    exact h.fallback
  · exact h.fallbackType
  · rw [flowGiven_concat (by intro port queue ho; cases ho)]
    exact h.fdirFlag
  · rw [flowGiven_concat (by intro port queue ho; cases ho),
      offloadBehindFlow_concat_of_ne (by intro name ho; cases ho)]
    exact h.fdirType

theorem TypeRead.askFallback {dir : Direction} {name : String} {type : ActionType}
    (h : TypeRead env dir opts c) (henable : env.enable = true)
    (hprimary : c.rule.primary.type = .inlineCrypto) (hdir : c.rule.direction = .ingress) :
    TypeRead env dir (opts ++ [.fallback name]) (c.setFallback type) := by
  constructor
  · exact h.direction
  · exact h.free
  · rw [portGiven_concat (by intro port ho; cases ho)]
    exact h.port
  · rw [mem_concat_of_ne (by intro ho; cases ho)]
    exact h.udpEncap
  · exact h.udpType
  · exact ⟨fun _ => ⟨name, List.mem_append_right _ List.mem_cons_self⟩, fun _ => rfl⟩
  · exact fun _ => ⟨h.direction.symm.trans hdir, henable, hprimary⟩
  · rw [flowGiven_concat (by intro port queue ho; cases ho)]
    exact h.fdirFlag
  · rw [flowGiven_concat (by intro port queue ho; cases ho),
      offloadBehindFlow_concat_of_ne (by intro name ho; cases ho)]
    exact h.fdirType

/-- Where a flow direction is let through the type is not one of the hardware,
    so none has been given behind an earlier one. -/
theorem TypeRead.flowDirection {dir : Direction} {port queue : String} {p : UInt16}
    {q : UInt8} (h : TypeRead env dir opts c)
    (htype : c.rule.primary.type = .none ∨ c.rule.primary.type = .cpuCrypto) :
    TypeRead env dir (opts ++ [.flowDirection port queue])
      { c with rule := { c.rule with fdirFlag := 1, portid := p, fdirQid := q } } := by
  have hno : ¬ IsOffload c.rule.primary.type := by
    rcases htype with htype | htype <;> rw [htype] <;> decide
  have hgiven : FlowGiven (opts ++ [.flowDirection port queue]) :=
    ⟨port, queue, List.mem_append_right _ List.mem_cons_self⟩
  constructor
  · exact h.direction
  · exact h.free
  · rw [portGiven_concat (by intro port ho; cases ho)]
    exact h.port
  · rw [mem_concat_of_ne (by intro ho; cases ho)]
    exact h.udpEncap
  · exact h.udpType
  · rw [fallback_concat (by intro name ho; cases ho)]
    exact h.fallback
  · exact h.fallbackType
  · exact ⟨fun _ => hgiven, fun _ => rfl⟩
  · intro _
    rw [offloadBehindFlow_concat_of_ne (by intro name ho; cases ho)]
    refine ⟨fun hoff => absurd hoff hno, ?_⟩
    intro hbehind
    exact (h.fdirType hbehind.flow).mpr hbehind

/-- UDP encapsulation asks for a type of the hardware. -/
theorem TypeRead.encap {dir : Direction} (h : TypeRead env dir opts c)
    (htype : IsOffload c.rule.primary.type) (hs : c'.rule.udpEncap = 1)
    (hsame : SameTypes c { c' with rule := { c'.rule with udpEncap := c.rule.udpEncap } }) :
    TypeRead env dir (opts ++ [.udpEncap]) c' := by
  constructor
  · exact hsame.direction.trans h.direction
  · intro hp
    rw [show c'.rule.primary = c.rule.primary from hsame.primary]
    exact h.free (hsame.typeP.symm.trans hp)
  · rw [show c'.portidP = c.portidP from hsame.portidP,
      portGiven_concat (by intro port ho; cases ho)]
    exact h.port
  · exact ⟨fun _ => List.mem_append_right _ List.mem_cons_self, fun _ => hs⟩
  · intro _
    rw [show c'.rule.primary = c.rule.primary from hsame.primary]
    exact htype
  · rw [show c'.rule.fallbackSessions = c.rule.fallbackSessions from hsame.fallback,
      fallback_concat (by intro name ho; cases ho)]
    exact h.fallback
  · rw [show c'.rule.fallbackSessions = c.rule.fallbackSessions from hsame.fallback,
      show c'.rule.primary = c.rule.primary from hsame.primary]
    exact h.fallbackType
  · rw [show c'.rule.fdirFlag = c.rule.fdirFlag from hsame.fdirFlag,
      flowGiven_concat (by intro port queue ho; cases ho)]
    exact h.fdirFlag
  · rw [show c'.rule.primary = c.rule.primary from hsame.primary,
      flowGiven_concat (by intro port queue ho; cases ho),
      offloadBehindFlow_concat_of_ne (by intro name ho; cases ho)]
    exact h.fdirType

/-- **STEP**. -/
theorem TypeRead.step {dir : Direction} {o : SaOpt} (h : TypeRead env dir opts c)
    (hstep : SaStep env o c c') : TypeRead env dir (opts ++ [o]) c' := by
  by_cases ho : o.ofType = false
  · exact h.same (hstep.sameTypes ho) ho
  cases hstep with
  | type hp htype => exact h.type hp htype
  | portId hp hport => exact h.portId
  | fallback henable hprimary hdir hp htype => exact h.askFallback henable hprimary hdir
  | flowDirection htype hport => exact h.flowDirection htype
  | udpEncap htype hp =>
      have hoff : IsOffload c.rule.primary.type := by
        rcases htype with htype | htype <;> rw [htype] <;> decide
      exact h.encap hoff rfl ⟨rfl, rfl, rfl, rfl, rfl, rfl, rfl⟩
  | udpEncapInline htype =>
      have hoff : IsOffload c.rule.primary.type := by
        rw [htype]
        decide
      exact h.encap hoff rfl ⟨rfl, rfl, rfl, rfl, rfl, rfl, rfl⟩
  | _ => exact absurd rfl ho

/-! ## Lines -/

theorem lineStart_typeRead (env : SaEnv) (dir : Direction) (spi : UInt32)
    (cnt : IpsecSaCnt) (nb : UInt32) (udp : Bool) :
    TypeRead env dir [] (lineStart dir spi cnt nb udp) := by
  constructor
  · rfl
  · intro _
    rfl
  · refine ⟨(by intro h; cases h), ?_⟩
    rintro ⟨port, hmem⟩
    cases hmem
  · refine ⟨(by intro h; cases h), ?_⟩
    intro hmem
    cases hmem
  · intro h
    cases h
  · refine ⟨(by intro h; cases h), ?_⟩
    rintro ⟨name, hmem⟩
    cases hmem
  · intro h
    cases h
  · refine ⟨(by intro h; cases h), ?_⟩
    rintro ⟨port, queue, hmem⟩
    cases hmem
  · rintro ⟨port, queue, hmem⟩
    cases hmem

/-- Only the type of a rule changes behind the loop. -/
theorem settle_setType (c : SaCore) : ∃ type, c.settle = c.rule.setType type := by
  unfold SaCore.settle
  split
  · exact ⟨_, rfl⟩
  · exact ⟨c.rule.primary.type, rfl⟩

/-- The type a rule is stored with. -/
theorem settle_type (hfree : c.typeP = false → c.rule.primary.type = .none) :
    c.settle.primary.type
      = if c.portidP = true ∨ c.rule.primary.type = .cpuCrypto then c.rule.primary.type
        else .none := by
  unfold SaCore.settle
  cases htype : c.typeP with
  | false =>
      rw [Bool.not_false, Bool.true_or, if_pos rfl, hfree htype, ite_self]
      rfl
  | true =>
      cases hport : c.portidP with
      | true =>
          rw [if_neg (by simp), if_pos (.inl rfl)]
      | false =>
          by_cases hcpu : c.rule.primary.type = .cpuCrypto
          · rw [if_neg (by simp [hcpu]), if_pos (.inr hcpu)]
          · rw [if_pos (by simp [hcpu]), if_neg (by simp [hcpu])]
            rfl

theorem isOffload_settle (hfree : c.typeP = false → c.rule.primary.type = .none) :
    IsOffload c.settle.primary.type
      ↔ IsOffload c.rule.primary.type ∧ c.portidP = true := by
  rw [settle_type hfree]
  by_cases hport : c.portidP = true
  · simp [hport]
  · by_cases hcpu : c.rule.primary.type = .cpuCrypto
    · simp [hport, hcpu, IsOffload]
    · simp [hport, hcpu, IsOffload]

/-- The types besides those of the hardware. -/
theorem not_isOffload_iff (type : ActionType) :
    ¬ IsOffload type ↔ type = .none ∨ type = .cpuCrypto := by
  cases type <;> decide

/-- **RESTRICTIONS** hold of an accepted rule exactly when its options do not take
    the type back. -/
theorem restricted_iff {t : SaTables} {tok : String} {tokens : List String}
    {st : ParseStatus} {rule : SaRule} (h : Accepts env t tok tokens st rule) :
    Restricted env rule ↔ TypeStays (lineOpts tokens) := by
  obtain ⟨spi, cnt, nb, udp, c, -, hsteps, -, rfl⟩ := h.steps
  have hread : TypeRead env (lineDirection tok) (lineOpts tokens) c :=
    hsteps.run (fun _ _ _ _ hstep hc => hc.step hstep)
      (lineStart_typeRead env (lineDirection tok) spi cnt nb udp)
  -- settling writes the type alone
  obtain ⟨type, hrule⟩ := settle_setType c
  have hudp : c.settle.udpEncap = c.rule.udpEncap := by
    rw [hrule]
    rfl
  have hfb : c.settle.fallbackSessions = c.rule.fallbackSessions := by
    rw [hrule]
    rfl
  have hfdir : c.settle.fdirFlag = c.rule.fdirFlag := by
    rw [hrule]
    rfl
  have hdir : c.settle.direction = c.rule.direction := by
    rw [hrule]
    rfl
  have hoff := isOffload_settle hread.free
  constructor
  · intro hres
    refine ⟨?_, ?_⟩
    · rintro (hmem | hmem)
      · have hone := hres.udpEncap (hudp.trans (hread.udpEncap.mpr hmem))
        exact hread.port.mp (hoff.mp hone).2
      · have hone := hres.fallback (hfb.trans (hread.fallback.mpr hmem))
        exact hread.port.mp (hoff.mp (.inr (.inr hone.2.2))).2
    · intro hbehind hport
      -- a flow direction is for SAs that are not offloaded
      have hflow := hres.fdirFlag (hfdir.trans (hread.fdirFlag.mpr hbehind.flow))
      refine (not_isOffload_iff _).mpr hflow (hoff.mpr ⟨?_, hread.port.mpr hport⟩)
      exact (hread.fdirType hbehind.flow).mpr hbehind
  · intro hstay
    refine ⟨?_, ?_, ?_⟩
    · intro hone
      rw [hudp] at hone
      have hport := hstay.port (.inl (hread.udpEncap.mp hone))
      exact hoff.mpr ⟨hread.udpType hone, hread.port.mpr hport⟩
    · intro hone
      rw [hfb] at hone
      obtain ⟨hin, henable, hprimary⟩ := hread.fallbackType hone
      have hport := hread.port.mpr (hstay.port (.inr (hread.fallback.mp hone)))
      refine ⟨(hdir.trans hread.direction).trans hin, henable, ?_⟩
      rw [settle_type hread.free, if_pos (.inl hport)]
      exact hprimary
    · intro hone
      rw [hfdir] at hone
      refine (not_isOffload_iff _).mp ?_
      intro hof
      obtain ⟨htype, hport⟩ := hoff.mp hof
      have hflow := hread.fdirFlag.mp hone
      exact hstay.flow ((hread.fdirType hflow).mp htype) (hread.port.mp hport)

/-- No text is an address. -/
def noAddresses : InetPton where
  v4 _ := none
  v6 _ := none
  v4_chars := by
    intro s a h
    cases h
  v6_chars := by
    intro s a h
    cases h

/-- The program with `librte_ipsec`. -/
def libraryEnv : SaEnv := ⟨noAddresses, true, 7, true⟩

/-- A key of twenty bytes. -/
def zeroKey : String := "00:00:00:00:00:00:00:00:00:00:00:00:00:00:00:00:00:00:00:00"

/-- A line of an SA that is to be encapsulated in UDP, without a port. -/
def encapTokens : List String :=
  ["5", "aead_algo", "aes-128-gcm", "aead_key", zeroKey, "mode", "transport", "type",
    "inline-crypto-offload", "udp-encap"]

/-- The same line with a port. -/
def encapPortTokens : List String := encapTokens ++ ["port_id", "1"]

theorem encap_falls_back : ∃ rule, Accepts libraryEnv {} "in" encapTokens {} rule
    ∧ rule.udpEncap = 1 ∧ rule.primary.type = .none ∧ ¬ Restricted libraryEnv rule := by
  refine ⟨_, ⟨_, _, rfl, rfl⟩, rfl, rfl, ?_⟩
  intro hres
  exact absurd (hres.udpEncap rfl) (by decide)

theorem restricted_iff_encap : ∃ rule, Accepts libraryEnv {} "in" encapPortTokens {} rule
    ∧ (Restricted libraryEnv rule ↔ TypeStays (lineOpts encapPortTokens)) := by
  have h : ∃ rule, Accepts libraryEnv {} "in" encapPortTokens {} rule :=
    ⟨_, _, _, rfl, rfl⟩
  obtain ⟨rule, hrule⟩ := h
  exact ⟨rule, hrule, restricted_iff hrule⟩

end SaParse
