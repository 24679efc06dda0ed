import IpsecSecgw.SaParseModel

/-! # What the options of a SA line do

    The tokens of a line are read as options by their keywords alone
    (`readOpts`).  A round of the parser that goes well takes one option off the
    tokens, and what it does to the variables is one of the cases of `SaStep`;
    a line that is accepted is a run of such steps (`scan_steps`). -/

namespace SaParse

open ByteStore SaModel ParserModel

/-! ## Reading -/

/-- An option, with its texts. -/
inductive SaOpt
  | mode (name : String)
  | telemetry
  | cipher (name : String) (key : Option String)
  | auth (name : String) (key : Option String)
  | aead (name key : String)
  | src (addr : String)
  | dst (addr : String)
  | type (name : String)
  | portId (port : String)
  | mss (value : String)
  | esn (value : String)
  | fallback (name : String)
  | flowDirection (port queue : String)
  | udpEncap
  deriving DecidableEq

/-- An algorithm and, unless it is `null`, a key behind a further keyword. -/
def readAlgo (opt : String → Option String → SaOpt) :
    List String → Option (SaOpt × List String)
  | [] => none
  | name :: rest =>
      if name = "null" then some (opt name none, rest)
      else
        match rest with
        | _ :: key :: rest => some (opt name (some key), rest)
        | _ => none

/-- An option with one text. -/
def readText (opt : String → SaOpt) : List String → Option (SaOpt × List String)
  | [] => none
  | text :: rest => some (opt text, rest)

/-- The option of a keyword, and the tokens behind it. -/
def readOpt (keyword : String) (rest : List String) : Option (SaOpt × List String) :=
  if keyword = "mode" then readText .mode rest
  else if keyword = "telemetry" then some (.telemetry, rest)
  else if keyword = "cipher_algo" then readAlgo .cipher rest
  else if keyword = "auth_algo" then readAlgo .auth rest
  else if keyword = "aead_algo" then
    match rest with
    | name :: _ :: key :: rest => some (.aead name key, rest)
    | _ => none
  else if keyword = "src" then readText .src rest
  else if keyword = "dst" then readText .dst rest
  else if keyword = "type" then readText .type rest
  else if keyword = "port_id" then readText .portId rest
  else if keyword = "mss" then readText .mss rest
  else if keyword = "esn" then readText .esn rest
  else if keyword = "fallback" then readText .fallback rest
  else if keyword = "flow-direction" then
    match rest with
    | port :: queue :: rest => some (.flowDirection port queue, rest)
    | _ => none
  else if keyword = "udp-encap" then some (.udpEncap, rest)
  else none

/-- The options in a number of tokens. -/
def readOpts : Nat → List String → List SaOpt
  | 0, _ => []
  | _ + 1, [] => []
  | n + 1, keyword :: rest =>
      match readOpt keyword rest with
      | none => []
      | some (o, rest) => o :: readOpts n rest

/-- The options of a line, behind its first token and the SPI. -/
def lineOpts (tokens : List String) : List SaOpt :=
  readOpts (tokens.tail).length tokens.tail

/-! ## Steps -/

/-- The salt is drawn for a cipher in CBC mode. -/
def DrawsSalt (algo : SupportedCipherAlgo) : Prop :=
  algo.algo = .aesCbc ∨ algo.algo = .tripleDesCbc

instance (algo : SupportedCipherAlgo) : Decidable (DrawsSalt algo) :=
  inferInstanceAs (Decidable (_ ∨ _))

/-- The salt is the end of the cipher key for a counter mode, else what it was or
    the number drawn. -/
def CipherSalted (rand : UInt32) (algo : SupportedCipherAlgo) (keyLen : UInt32)
    (rule rule' : SaRule) : Prop :=
  if algo.algo = .aesCtr then
    rule.takeSalt cipherKeyAt cipherKeyLenAt keyLen = .ok rule'
  else rule' = { rule with salt := if DrawsSalt algo then rand else rule.salt }

/-- For AES-GMAC it is the end of the authentication key. -/
def AuthSalted (algo : SupportedAuthAlgo) (keyLen : UInt32) (rule rule' : SaRule) : Prop :=
  if algo.algo = .aesGmac then
    { rule with ivLen := algo.ivLen }.takeSalt authKeyAt authKeyLenAt keyLen = .ok rule'
  else rule' = rule

/-- The port a rule has after a port is named. -/
def PortTaken (port : UInt16) (tok : String) (port' : UInt16) : Prop :=
  if port = 0xffff then port' = (atoiText tok).toUInt16
  else port.toUInt32 = atoiText tok ∧ port' = port

/-- The address a rule has after an address is named: in a tunnel the one of the text,
    before the mode is named the one it had. -/
def AddrTaken (net : InetPton) (flags : UInt16) (a : IpAddr) (tok : String) (a' : IpAddr) :
    Prop :=
  if isIp4Tunnel flags then ∃ r, parseIpv4Addr net tok = some r ∧ a' = setIp4 a r.1
  else if isIp6Tunnel flags then ∃ r, parseIpv6Addr net tok = some r ∧ a' = ofIp6 r.1
  else isTransport flags = false ∧ a' = a

/-- **STEP**: what an option does to the variables, and when it is let through. -/
inductive SaStep (env : SaEnv) : SaOpt → SaCore → SaCore → Prop
  | mode {c : SaCore} {name md} (hp : c.modeP = false) (hmode : modeOf name = some md) :
      SaStep env (.mode name) c (c.setMode md)
  | telemetry {c : SaCore} : SaStep env .telemetry c c.setTelemetry
  | cipherNull {c : SaCore} {name algo} (hp : c.cipherAlgoP = false)
      (halgo : findMatchCipherAlgo name = some algo) (hnull : algo.algo = .null) :
      SaStep env (.cipher name none) c
        { c with rule := c.rule.setCipher algo, cipherAlgoP := true }
  | cipher {c : SaCore} {name key algo n keys rule} (hp : c.cipherAlgoP = false)
      (halgo : findMatchCipherAlgo name = some algo) (hnull : algo.algo ≠ .null)
      (hkey : parseKeyString cipherKeyAt key (c.rule.setCipher algo).keys = .ok (n, keys))
      (hlen : UInt32.ofNat n = (len16 keys cipherKeyLenAt).toUInt32)
      (hsalt : CipherSalted env.rand algo (UInt32.ofNat n)
        { c.rule.setCipher algo with keys := keys } rule) :
      SaStep env (.cipher name (some key)) c { c with rule := rule, cipherAlgoP := true }
  | authNull {c : SaCore} {name algo} (hp : c.authAlgoP = false)
      (halgo : findMatchAuthAlgo name = some algo) (hnull : algo.algo = .null) :
      SaStep env (.auth name none) c
        { c with rule := c.rule.setAuth algo, authAlgoP := true }
  | auth {c : SaCore} {name key algo n keys rule} (hp : c.authAlgoP = false)
      (halgo : findMatchAuthAlgo name = some algo) (hnull : algo.algo ≠ .null)
      (hkey : parseKeyString authKeyAt key (c.rule.setAuth algo).keys = .ok (n, keys))
      (hlen : UInt32.ofNat n = (len16 keys authKeyLenAt).toUInt32)
      (hsalt : AuthSalted algo (UInt32.ofNat n)
        { c.rule.setAuth algo with keys := keys } rule) :
      SaStep env (.auth name (some key)) c { c with rule := rule, authAlgoP := true }
  | aead {c : SaCore} {name key algo n keys rule} (hp : c.aeadAlgoP = false)
      (halgo : findMatchAeadAlgo name = some algo)
      (hkey : parseKeyString cipherKeyAt key (c.rule.setAead algo).keys = .ok (n, keys))
      (hlen : UInt32.ofNat n = (len16 keys cipherKeyLenAt).toUInt32)
      (hsalt : { c.rule.setAead algo with keys := keys }.takeSalt cipherKeyAt
        cipherKeyLenAt (UInt32.ofNat n) = .ok rule) :
      SaStep env (.aead name key) c { c with rule := rule, aeadAlgoP := true }
  | src {c : SaCore} {addr a} (hp : c.srcP = false)
      (haddr : AddrTaken env.net c.rule.flags c.rule.src addr a) :
      SaStep env (.src addr) c { c with rule := { c.rule with src := a }, srcP := true }
  | dst {c : SaCore} {addr a} (hp : c.dstP = false)
      (haddr : AddrTaken env.net c.rule.flags c.rule.dst addr a) :
      SaStep env (.dst addr) c { c with rule := { c.rule with dst := a }, dstP := true }
  | type {c : SaCore} {name type} (hp : c.typeP = false) (htype : typeOf name = some type) :
      SaStep env (.type name) c { c with rule := c.rule.setType type, typeP := true }
  | portId {c : SaCore} {port p} (hp : c.portidP = false)
      (hport : PortTaken c.rule.portid port p) :
      SaStep env (.portId port) c
        { c with rule := { c.rule with portid := p }, portidP := true }
  | mss {c : SaCore} {value} :
      SaStep env (.mss value) c
        { c with rule := { c.rule with mss := (atoiText value).toUInt16 } }
  | esn {c : SaCore} {value} :
      SaStep env (.esn value) c
        { c with rule := { c.rule with esn := UInt64.ofInt (strtol10 value) } }
  | fallback {c : SaCore} {name type} (henable : env.enable = true)
      (hprimary : c.rule.primary.type = .inlineCrypto)
      (hdir : c.rule.direction = .ingress) (hp : c.fallbackP = false)
      (htype : fallbackOf name = some type) :
      SaStep env (.fallback name) c (c.setFallback type)
  | flowDirection {c : SaCore} {port queue p}
      (htype : c.rule.primary.type = .none ∨ c.rule.primary.type = .cpuCrypto)
      (hport : PortTaken c.rule.portid port p) :
      SaStep env (.flowDirection port queue) c
        { c with
          rule :=
            { c.rule with
              fdirFlag := 1, portid := p, fdirQid := (atoiText queue).toUInt8 } }
  | udpEncap {c : SaCore}
      (htype : c.rule.primary.type = .lookasideProtocol
        ∨ c.rule.primary.type = .inlineProtocol) (hp : c.udpEncapP = false) :
      SaStep env .udpEncap c
        { c with
          rule := { c.rule with udpEncap := 1 }, udpEncap := true, udpEncapP := true }
  | udpEncapInline {c : SaCore} (htype : c.rule.primary.type = .inlineCrypto) :
      SaStep env .udpEncap c
        { c with rule := { c.rule with udpEncap := 1, sport := 0, dport := 4500 } }

/-- A run of steps. -/
inductive SaSteps (env : SaEnv) : List SaOpt → SaCore → SaCore → Prop
  | nil {c} : SaSteps env [] c c
  | cons {o opts c c' c''} (hstep : SaStep env o c c') (hsteps : SaSteps env opts c' c'') :
      SaSteps env (o :: opts) c c''

/-! ## Determined -/

theorem AddrTaken.unique {net : InetPton} {flags : UInt16} {a a1 a2 : IpAddr} {tok : String}
    (h1 : AddrTaken net flags a tok a1) (h2 : AddrTaken net flags a tok a2) : a1 = a2 := by
  unfold AddrTaken at h1 h2
  by_cases h4 : isIp4Tunnel flags = true
  · rw [if_pos h4] at h1 h2
    obtain ⟨r1, hr1, rfl⟩ := h1
    obtain ⟨r2, hr2, rfl⟩ := h2
    rw [hr1] at hr2
    cases hr2
    rfl
  · rw [if_neg h4] at h1 h2
    by_cases h6 : isIp6Tunnel flags = true
    · rw [if_pos h6] at h1 h2
      obtain ⟨r1, hr1, rfl⟩ := h1
      obtain ⟨r2, hr2, rfl⟩ := h2
      rw [hr1] at hr2
      cases hr2
      rfl
    · rw [if_neg h6] at h1 h2
      exact h1.2.trans h2.2.symm

theorem CipherSalted.unique {rand : UInt32} {algo : SupportedCipherAlgo} {n : UInt32}
    {rule rule1 rule2 : SaRule} (h1 : CipherSalted rand algo n rule rule1)
    (h2 : CipherSalted rand algo n rule rule2) : rule1 = rule2 := by
  unfold CipherSalted at h1 h2
  by_cases hctr : algo.algo = .aesCtr
  · rw [if_pos hctr] at h1 h2
    exact Except.ok.inj (h1.symm.trans h2)
  · rw [if_neg hctr] at h1 h2
    exact h1.trans h2.symm

theorem AuthSalted.unique {algo : SupportedAuthAlgo} {n : UInt32} {rule rule1 rule2 : SaRule}
    (h1 : AuthSalted algo n rule rule1) (h2 : AuthSalted algo n rule rule2) :
    rule1 = rule2 := by
  unfold AuthSalted at h1 h2
  by_cases hgmac : algo.algo = .aesGmac
  · rw [if_pos hgmac] at h1 h2
    exact Except.ok.inj (h1.symm.trans h2)
  · rw [if_neg hgmac] at h1 h2
    exact h1.trans h2.symm

theorem PortTaken.unique {port p1 p2 : UInt16} {tok : String} (h1 : PortTaken port tok p1)
    (h2 : PortTaken port tok p2) : p1 = p2 := by
  unfold PortTaken at h1 h2
  split at h1
  · rw [if_pos (by assumption)] at h2
    exact h1.trans h2.symm
  · rw [if_neg (by assumption)] at h2
    exact h1.2.trans h2.2.symm

variable {env : SaEnv} {s s' : SaScan}

/-! ## Inversion -/

theorem check_ok {exp : Bool} {msg : String} (h : s.check exp msg = .ok s') :
    exp = true ∧ ∃ st, s' = { s with st := st } := by
  unfold SaScan.check at h
  cases exp with
  | true => exact ⟨rfl, _, (Except.ok.inj h).symm⟩
  | false => cases h

theorem presence_ok {val : Bool} (h : s.presence val = .ok s') :
    val = false ∧ ∃ st, s' = { s with st := st } := by
  obtain ⟨hval, hst⟩ := check_ok h
  rw [Bool.not_eq_true'] at hval
  exact ⟨hval, hst⟩

theorem next_ok (h : s.next = .ok s') :
    ∃ t rest st, s.rest = t :: rest ∧ s' = { s with cur := t, rest := rest, st := st } := by
  unfold SaScan.next at h
  cases hrest : s.rest with
  | nil =>
      rw [hrest] at h
      exact absurd (check_ok h).1 Bool.false_ne_true
  | cons t rest =>
      rw [hrest] at h
      obtain ⟨-, st, rfl⟩ := check_ok h
      exact ⟨t, rest, st, rfl, rfl⟩

/-- What a round takes off the tokens, and what it does. -/
def Took (env : SaEnv) (s : SaScan) (s' : SaScan) : Prop :=
  ∃ o, readOpt s.cur s.rest = some (o, s'.rest)
    ∧ SaStep env o s.toSaCore s'.toSaCore

/-- An error is no way to go on. -/
theorem check_false_ok {msg : String} (h : s.check false msg = .ok s') : False :=
  Bool.false_ne_true (check_ok h).1

theorem saMode_ok (hcur : s.cur = "mode") (h : saMode s = .ok s') : Took env s s' := by
  obtain ⟨s1, h1, h⟩ := bind_ok h
  obtain ⟨hp, st1, rfl⟩ := presence_ok h1
  obtain ⟨s2, h2, h⟩ := bind_ok h
  obtain ⟨t, rest, st2, hrest : s.rest = t :: rest, rfl⟩ := next_ok h2
  cases hmode : modeOf t with
  | none =>
      simp only [hmode] at h
      exact (check_false_ok h).elim
  | some md =>
      simp only [hmode] at h
      cases h
      refine ⟨.mode t, ?_, .mode hp hmode⟩
      rw [hcur, hrest]
      rfl

/-- A key that has been taken. -/
theorem key_ok {keyword : String} {a lenAt : Nat} {r : UInt32 × SaScan}
    (h : s.key keyword a lenAt = .ok r) :
    ∃ t key rest st n keys, s.rest = t :: key :: rest
      ∧ parseKeyString a key s.rule.keys = .ok (n, keys)
      ∧ UInt32.ofNat n = (len16 keys lenAt).toUInt32
      ∧ r = (UInt32.ofNat n, ⟨{ s.toSaCore with rule := { s.rule with keys := keys } },
        key, rest, st⟩) := by
  obtain ⟨s1, h1, h⟩ := bind_ok h
  obtain ⟨t, rest1, st1, hrest1, rfl⟩ := next_ok h1
  obtain ⟨s2, h2, h⟩ := bind_ok h
  obtain ⟨-, st2, rfl⟩ := check_ok h2
  obtain ⟨s3, h3, h⟩ := bind_ok h
  obtain ⟨key, rest, st3, hrest : rest1 = key :: rest, rfl⟩ := next_ok h3
  cases hkey : parseKeyString a key s.rule.keys with
  | error f =>
      simp only [hkey] at h
      cases h
  | ok r =>
      obtain ⟨n, keys⟩ := r
      simp only [hkey] at h
      obtain ⟨s4, h4, h⟩ := bind_ok h
      obtain ⟨hlen, st4, rfl⟩ := check_ok h4
      cases h
      rw [hrest] at hrest1
      exact ⟨t, key, rest, st4, n, keys, hrest1, hkey, of_decide_eq_true hlen, rfl⟩

/-- A salt that has been taken. -/
theorem takeSalt_ok {a lenAt : Nat} {n : UInt32} (h : s.takeSalt a lenAt n = .ok s') :
    ∃ rule, s.rule.takeSalt a lenAt n = .ok rule
      ∧ s' = s.setCore { s.toSaCore with rule := rule } := by
  unfold SaScan.takeSalt at h
  cases hsalt : s.rule.takeSalt a lenAt n with
  | error f =>
      rw [hsalt] at h
      cases h
  | ok rule =>
      rw [hsalt] at h
      exact ⟨rule, rfl, (Except.ok.inj h).symm⟩

theorem cipherSalt_ok {algo : SupportedCipherAlgo} {n : UInt32}
    (h : cipherSalt env algo n s = .ok s') :
    ∃ rule, CipherSalted env.rand algo n s.rule rule
      ∧ s' = s.setCore { s.toSaCore with rule := rule } := by
  unfold cipherSalt at h
  unfold CipherSalted
  split at h
  · rename_i halgo
    have hctr : algo.algo ≠ .aesCtr := by
      rcases halgo with hc | hc <;> rw [hc] <;> decide
    refine ⟨{ s.rule with salt := env.rand }, ?_, (Except.ok.inj h).symm⟩
    have hdraws : DrawsSalt algo := halgo
    rw [if_neg hctr, if_pos hdraws]
  · split at h
    · rename_i hctr
      obtain ⟨rule, hrule, hs⟩ := takeSalt_ok h
      refine ⟨rule, ?_, hs⟩
      rwa [if_pos hctr]
    · rename_i hdraws hctr
      have hdraws : ¬ DrawsSalt algo := hdraws
      refine ⟨s.rule, ?_, (Except.ok.inj h).symm⟩
      rw [if_neg hctr, if_neg hdraws]

theorem authSalt_ok {algo : SupportedAuthAlgo} {n : UInt32}
    (h : authSalt algo n s = .ok s') :
    ∃ rule, AuthSalted algo n s.rule rule
      ∧ s' = s.setCore { s.toSaCore with rule := rule } := by
  unfold authSalt at h
  unfold AuthSalted
  split at h
  · rename_i hgmac
    obtain ⟨rule, hrule, hs⟩ := takeSalt_ok h
    refine ⟨rule, ?_, hs⟩
    rwa [if_pos hgmac]
  · rename_i hgmac
    refine ⟨s.rule, ?_, (Except.ok.inj h).symm⟩
    rw [if_neg hgmac]

/-- What a lookup finds stands in the table. -/
theorem mem_of_lookup {α : Type} {l : List (String × α)} {name : String} {a : α}
    (h : l.lookup name = some a) : (name, a) ∈ l := by
  obtain ⟨l₁, l₂, hl, -⟩ := List.lookup_eq_some_iff.mp h
  rw [hl]
  exact List.mem_append_right _ List.mem_cons_self

/-- The line without a key is that of `null`. -/
theorem cipher_null_iff {name : String} {algo : SupportedCipherAlgo}
    (h : findMatchCipherAlgo name = some algo) : algo.algo = .null ↔ name = "null" := by
  have hall : ∀ e ∈ cipherKeywords.zip cipherAlgos,
      e.2.algo = .null ↔ e.1 = "null" := by decide
  exact hall _ (mem_of_lookup h)

theorem auth_null_iff {name : String} {algo : SupportedAuthAlgo}
    (h : findMatchAuthAlgo name = some algo) : algo.algo = .null ↔ name = "null" := by
  have hall : ∀ e ∈ authKeywords.zip authAlgos,
      e.2.algo = .null ↔ e.1 = "null" := by decide
  exact hall _ (mem_of_lookup h)

theorem saCipher_ok (hcur : s.cur = "cipher_algo") (h : saCipher env s = .ok s') :
    Took env s s' := by
  obtain ⟨s1, h1, h⟩ := bind_ok h
  obtain ⟨hp, st1, rfl⟩ := presence_ok h1
  obtain ⟨s2, h2, h⟩ := bind_ok h
  obtain ⟨name, rest, st2, hrest : s.rest = name :: rest, rfl⟩ := next_ok h2
  cases halgo : findMatchCipherAlgo name with
  | none =>
      simp only [halgo] at h
      exact (check_false_ok h).elim
  | some algo =>
      simp only [halgo] at h
      obtain ⟨s3, h3, h⟩ := bind_ok h
      obtain ⟨-, st3, rfl⟩ := check_ok h3
      by_cases hnull : algo.algo = .null
      · rw [if_pos hnull] at h
        cases h
        refine ⟨.cipher name none, ?_, .cipherNull hp halgo hnull⟩
        rw [hcur, hrest, (cipher_null_iff halgo).mp hnull]
        rfl
      · rw [if_neg hnull] at h
        obtain ⟨r, hkey, h⟩ := bind_ok h
        obtain ⟨t, key, rest', st4, n, keys, hrest', hparse, hlen, rfl⟩ := key_ok hkey
        obtain ⟨s5, h5, h⟩ := bind_ok h
        obtain ⟨rule, hsalt, rfl⟩ := cipherSalt_ok h5
        cases h
        refine ⟨.cipher name (some key), ?_, .cipher hp halgo hnull hparse hlen hsalt⟩
        have hrest' : rest = t :: key :: rest' := hrest'
        have hname : name ≠ "null" := fun hn => hnull ((cipher_null_iff halgo).mpr hn)
        rw [hcur, hrest, hrest']
        exact if_neg hname

theorem saAuth_ok (hcur : s.cur = "auth_algo") (h : saAuth s = .ok s') :
    Took env s s' := by
  obtain ⟨s1, h1, h⟩ := bind_ok h
  obtain ⟨hp, st1, rfl⟩ := presence_ok h1
  obtain ⟨s2, h2, h⟩ := bind_ok h
  obtain ⟨name, rest, st2, hrest : s.rest = name :: rest, rfl⟩ := next_ok h2
  cases halgo : findMatchAuthAlgo name with
  | none =>
      simp only [halgo] at h
      exact (check_false_ok h).elim
  | some algo =>
      simp only [halgo] at h
      obtain ⟨s3, h3, h⟩ := bind_ok h
      obtain ⟨-, st3, rfl⟩ := check_ok h3
      by_cases hnull : algo.algo = .null
      · rw [if_pos hnull] at h
        cases h
        refine ⟨.auth name none, ?_, .authNull hp halgo hnull⟩
        rw [hcur, hrest, (auth_null_iff halgo).mp hnull]
        rfl
      · rw [if_neg hnull] at h
        obtain ⟨r, hkey, h⟩ := bind_ok h
        obtain ⟨t, key, rest', st4, n, keys, hrest', hparse, hlen, rfl⟩ := key_ok hkey
        obtain ⟨s5, h5, h⟩ := bind_ok h
        obtain ⟨rule, hsalt, rfl⟩ := authSalt_ok h5
        cases h
        refine ⟨.auth name (some key), ?_, .auth hp halgo hnull hparse hlen hsalt⟩
        have hrest' : rest = t :: key :: rest' := hrest'
        have hname : name ≠ "null" := fun hn => hnull ((auth_null_iff halgo).mpr hn)
        rw [hcur, hrest, hrest']
        exact if_neg hname

theorem saAead_ok (hcur : s.cur = "aead_algo") (h : saAead s = .ok s') :
    Took env s s' := by
  obtain ⟨s1, h1, h⟩ := bind_ok h
  obtain ⟨hp, st1, rfl⟩ := presence_ok h1
  obtain ⟨s2, h2, h⟩ := bind_ok h
  obtain ⟨name, rest, st2, hrest : s.rest = name :: rest, rfl⟩ := next_ok h2
  cases halgo : findMatchAeadAlgo name with
  | none =>
      simp only [halgo] at h
      exact (check_false_ok h).elim
  | some algo =>
      simp only [halgo] at h
      obtain ⟨s3, h3, h⟩ := bind_ok h
      obtain ⟨-, st3, rfl⟩ := check_ok h3
      obtain ⟨r, hkey, h⟩ := bind_ok h
      obtain ⟨t, key, rest', st4, n, keys, hrest', hparse, hlen, rfl⟩ := key_ok hkey
      obtain ⟨s5, h5, h⟩ := bind_ok h
      obtain ⟨rule, hsalt, rfl⟩ := takeSalt_ok h5
      cases h
      refine ⟨.aead name key, ?_, .aead hp halgo hparse hlen hsalt⟩
      have hrest' : rest = t :: key :: rest' := hrest'
      rw [hcur, hrest, hrest']
      rfl

/-- An address that has been taken. -/
theorem saAddr_ok {a : IpAddr} {r : IpAddr × SaScan} (h : saAddr env a s = .ok r) :
    AddrTaken env.net s.rule.flags a s.cur r.1 ∧ ∃ st, r.2 = { s with st := st } := by
  unfold saAddr at h
  unfold AddrTaken
  split at h
  · rename_i h4
    rw [if_pos h4]
    split at h
    · obtain ⟨s1, h1, -⟩ := bind_ok h
      exact (check_false_ok h1).elim
    · rename_i ip mask hparse
      obtain ⟨s1, h1, h⟩ := bind_ok h
      obtain ⟨-, st, rfl⟩ := check_ok h1
      obtain rfl := (Except.ok.inj h).symm
      exact ⟨⟨(ip, mask), hparse, rfl⟩, st, rfl⟩
  · rename_i h4
    rw [if_neg h4]
    split at h
    · rename_i h6
      rw [if_pos h6]
      split at h
      · obtain ⟨s1, h1, -⟩ := bind_ok h
        exact (check_false_ok h1).elim
      · rename_i ip mask hparse
        obtain ⟨s1, h1, h⟩ := bind_ok h
        obtain ⟨-, st, rfl⟩ := check_ok h1
        obtain rfl := (Except.ok.inj h).symm
        exact ⟨⟨(ip, mask), hparse, rfl⟩, st, rfl⟩
    · rename_i h6
      rw [if_neg h6]
      split at h
      · obtain ⟨s1, h1, -⟩ := bind_ok h
        exact (check_false_ok h1).elim
      · rename_i htransport
        obtain rfl := (Except.ok.inj h).symm
        exact ⟨⟨Bool.not_eq_true _ ▸ htransport, rfl⟩, s.st, rfl⟩

theorem saSrc_ok (hcur : s.cur = "src") (h : saSrc env s = .ok s') : Took env s s' := by
  obtain ⟨s1, h1, h⟩ := bind_ok h
  obtain ⟨hp, st1, rfl⟩ := presence_ok h1
  obtain ⟨s2, h2, h⟩ := bind_ok h
  obtain ⟨t, rest, st2, hrest : s.rest = t :: rest, rfl⟩ := next_ok h2
  obtain ⟨⟨a, s3⟩, h3, h⟩ := bind_ok h
  obtain ⟨haddr, st3, rfl : s3 = _⟩ := saAddr_ok h3
  cases h
  refine ⟨.src t, ?_, .src hp haddr⟩
  rw [hcur, hrest]
  rfl

theorem saDst_ok (hcur : s.cur = "dst") (h : saDst env s = .ok s') : Took env s s' := by
  obtain ⟨s1, h1, h⟩ := bind_ok h
  obtain ⟨hp, st1, rfl⟩ := presence_ok h1
  obtain ⟨s2, h2, h⟩ := bind_ok h
  obtain ⟨t, rest, st2, hrest : s.rest = t :: rest, rfl⟩ := next_ok h2
  obtain ⟨⟨a, s3⟩, h3, h⟩ := bind_ok h
  obtain ⟨haddr, st3, rfl : s3 = _⟩ := saAddr_ok h3
  cases h
  refine ⟨.dst t, ?_, .dst hp haddr⟩
  rw [hcur, hrest]
  rfl

theorem saType_ok (hcur : s.cur = "type") (h : saType s = .ok s') : Took env s s' := by
  obtain ⟨s1, h1, h⟩ := bind_ok h
  obtain ⟨hp, st1, rfl⟩ := presence_ok h1
  obtain ⟨s2, h2, h⟩ := bind_ok h
  obtain ⟨t, rest, st2, hrest : s.rest = t :: rest, rfl⟩ := next_ok h2
  cases htype : typeOf t with
  | none =>
      simp only [htype] at h
      exact (check_false_ok h).elim
  | some type =>
      simp only [htype] at h
      cases h
      refine ⟨.type t, ?_, .type hp htype⟩
      rw [hcur, hrest]
      rfl

/-- A port that has been taken. -/
theorem portid_ok (h : s.portid = .ok s') :
    ∃ p, PortTaken s.rule.portid s.cur p
      ∧ s' = s.setCore { s.toSaCore with rule := { s.rule with portid := p } } := by
  unfold SaScan.portid at h
  unfold PortTaken
  split at h
  · rename_i hfree
    refine ⟨(atoiText s.cur).toUInt16, ?_, (Except.ok.inj h).symm⟩
    rw [if_pos hfree]
  · rename_i hfree
    split at h
    · exact (check_false_ok h).elim
    · rename_i hsame
      refine ⟨s.rule.portid, ?_, (Except.ok.inj h).symm⟩
      rw [if_neg hfree]
      exact ⟨Decidable.not_not.mp hsame, rfl⟩

theorem saPortId_ok (hcur : s.cur = "port_id") (h : saPortId s = .ok s') :
    Took env s s' := by
  obtain ⟨s1, h1, h⟩ := bind_ok h
  obtain ⟨hp, st1, rfl⟩ := presence_ok h1
  obtain ⟨s2, h2, h⟩ := bind_ok h
  obtain ⟨t, rest, st2, hrest : s.rest = t :: rest, rfl⟩ := next_ok h2
  obtain ⟨s3, h3, h⟩ := bind_ok h
  obtain ⟨p, hport, rfl⟩ := portid_ok h3
  cases h
  refine ⟨.portId t, ?_, .portId hp hport⟩
  rw [hcur, hrest]
  rfl

theorem saMss_ok (hcur : s.cur = "mss") (h : saMss s = .ok s') : Took env s s' := by
  obtain ⟨s1, h1, h⟩ := bind_ok h
  obtain ⟨t, rest, st1, hrest, rfl⟩ := next_ok h1
  cases h
  refine ⟨.mss t, ?_, .mss⟩
  rw [hcur, hrest]
  rfl

theorem saEsn_ok (hcur : s.cur = "esn") (h : saEsn s = .ok s') : Took env s s' := by
  obtain ⟨s1, h1, h⟩ := bind_ok h
  obtain ⟨t, rest, st1, hrest, rfl⟩ := next_ok h1
  cases h
  refine ⟨.esn t, ?_, .esn⟩
  rw [hcur, hrest]
  rfl

theorem saFallback_ok (hcur : s.cur = "fallback") (h : saFallback env s = .ok s') :
    Took env s s' := by
  obtain ⟨s1, h1, h⟩ := bind_ok h
  obtain ⟨henable, st1, rfl⟩ := check_ok h1
  obtain ⟨s2, h2, h⟩ := bind_ok h
  obtain ⟨hprimary, st2, rfl⟩ := check_ok h2
  obtain ⟨s3, h3, h⟩ := bind_ok h
  obtain ⟨hdir, st3, rfl⟩ := check_ok h3
  obtain ⟨s4, h4, h⟩ := bind_ok h
  obtain ⟨hp, st4, rfl⟩ := presence_ok h4
  obtain ⟨s5, h5, h⟩ := bind_ok h
  obtain ⟨t, rest, st5, hrest : s.rest = t :: rest, rfl⟩ := next_ok h5
  cases htype : fallbackOf t with
  | none =>
      simp only [htype] at h
      exact (check_false_ok h).elim
  | some type =>
      simp only [htype] at h
      cases h
      refine ⟨.fallback t, ?_, .fallback henable (of_decide_eq_true hprimary)
        (of_decide_eq_true hdir) hp htype⟩
      rw [hcur, hrest]
      rfl

theorem saFlowDirection_ok (hcur : s.cur = "flow-direction")
    (h : saFlowDirection s = .ok s') : Took env s s' := by
  unfold saFlowDirection at h
  split at h
  · rename_i htype
    obtain ⟨s1, h1, h⟩ := bind_ok h
    obtain ⟨port, rest1, st1, hrest1 : s.rest = port :: rest1, rfl⟩ := next_ok h1
    obtain ⟨s2, h2, h⟩ := bind_ok h
    obtain ⟨p, hport, rfl⟩ := portid_ok h2
    obtain ⟨s3, h3, h⟩ := bind_ok h
    obtain ⟨queue, rest, st3, hrest : rest1 = queue :: rest, rfl⟩ := next_ok h3
    cases h
    refine ⟨.flowDirection port queue, ?_, .flowDirection htype hport⟩
    rw [hcur, hrest1, hrest]
    rfl
  · exact (check_false_ok h).elim

theorem saUdpEncap_ok (hcur : s.cur = "udp-encap") (h : saUdpEncap s = .ok s') :
    Took env s s' := by
  unfold saUdpEncap at h
  have hread : readOpt s.cur s.rest = some (.udpEncap, s.rest) := by
    rw [hcur]
    rfl
  split at h
  · rename_i htype
    obtain ⟨s1, h1, h⟩ := bind_ok h
    obtain ⟨hp, st1, rfl⟩ := presence_ok h1
    cases h
    exact ⟨.udpEncap, hread, .udpEncap htype hp⟩
  · split at h
    · rename_i htype
      cases h
      exact ⟨.udpEncap, hread, .udpEncapInline htype⟩
    · exact (check_false_ok h).elim

/-- **A ROUND** that goes well is one option. -/
theorem saOption_ok (h : saOption env s = .ok s') : Took env s s' := by
  unfold saOption at h
  -- one keyword after the other, as the loop asks for them
  rcases ite_eq_iff.mp h with ⟨hcur, h⟩ | ⟨-, h⟩
  · exact saMode_ok hcur h
  rcases ite_eq_iff.mp h with ⟨hcur, h⟩ | ⟨-, h⟩
  · cases h
    refine ⟨.telemetry, ?_, .telemetry⟩
    rw [hcur]
    rfl
  rcases ite_eq_iff.mp h with ⟨hcur, h⟩ | ⟨-, h⟩
  · exact saCipher_ok hcur h
  rcases ite_eq_iff.mp h with ⟨hcur, h⟩ | ⟨-, h⟩
  · exact saAuth_ok hcur h
  rcases ite_eq_iff.mp h with ⟨hcur, h⟩ | ⟨-, h⟩
  · exact saAead_ok hcur h
  rcases ite_eq_iff.mp h with ⟨hcur, h⟩ | ⟨-, h⟩
  · exact saSrc_ok hcur h
  rcases ite_eq_iff.mp h with ⟨hcur, h⟩ | ⟨-, h⟩
  · exact saDst_ok hcur h
  rcases ite_eq_iff.mp h with ⟨hcur, h⟩ | ⟨-, h⟩
  · exact saType_ok hcur h
  rcases ite_eq_iff.mp h with ⟨hcur, h⟩ | ⟨-, h⟩
  · exact saPortId_ok hcur h
  rcases ite_eq_iff.mp h with ⟨hcur, h⟩ | ⟨-, h⟩
  · exact saMss_ok hcur h
  rcases ite_eq_iff.mp h with ⟨hcur, h⟩ | ⟨-, h⟩
  · exact saEsn_ok hcur h
  rcases ite_eq_iff.mp h with ⟨hcur, h⟩ | ⟨-, h⟩
  · exact saFallback_ok hcur h
  rcases ite_eq_iff.mp h with ⟨hcur, h⟩ | ⟨-, h⟩
  · exact saFlowDirection_ok hcur h
  rcases ite_eq_iff.mp h with ⟨hcur, h⟩ | ⟨-, h⟩
  · exact saUdpEncap_ok hcur h
  exact (check_false_ok h).elim

/-! ## Lines -/

/-- The loop is a run over the options in the tokens. -/
theorem saLoop_steps (n : Nat) (h : saLoop env n s = .ok s') :
    SaSteps env (readOpts n s.rest) s.toSaCore s'.toSaCore := by
  induction n generalizing s with
  | zero =>
      cases h
      exact .nil
  | succ n ih =>
      cases hrest : s.rest with
      | nil =>
          simp only [saLoop, hrest] at h
          cases h
          exact .nil
      | cons t rest =>
          simp only [saLoop, hrest] at h
          obtain ⟨s1, h1, h⟩ := bind_ok h
          obtain ⟨o, hread, hstep⟩ := saOption_ok h1
          have hread : readOpt t rest = some (o, s1.rest) := hread
          simp only [readOpts, hread]
          exact .cons hstep (ih h)

/-- The variables before the first option. -/
def lineStart (direction : Direction) (spi : UInt32) (cnt : IpsecSaCnt)
    (nbCryptoSessions : UInt32) (udpEncap : Bool) : SaCore where
  rule := { direction := direction, spi := spi, portid := 0xffff }
  cnt := cnt
  nbCryptoSessions := nbCryptoSessions
  udpEncap := udpEncap

/-- The checks behind the loop have been passed. -/
structure Complete (c : SaCore) : Prop where
  mode : c.modeP = true
  algos : c.aeadAlgoP = true ∧ c.cipherAlgoP = false ∧ c.authAlgoP = false
    ∨ c.aeadAlgoP = false ∧ c.cipherAlgoP = true ∧ c.authAlgoP = true

theorem saComplete_ok (h : saComplete s = .ok s') :
    Complete s.toSaCore ∧ s'.toSaCore = s.toSaCore := by
  obtain ⟨s1, h1, h⟩ := bind_ok h
  obtain ⟨hmode, st1, rfl⟩ := check_ok h
  unfold saAlgos at h1
  split at h1
  · rename_i haead
    obtain ⟨s2, h2, h1⟩ := bind_ok h1
    obtain ⟨hcipher, st2, rfl⟩ := check_ok h2
    obtain ⟨hauth, st3, rfl⟩ := check_ok h1
    rw [Bool.not_eq_true'] at hcipher hauth
    exact ⟨⟨hmode, .inl ⟨haead, hcipher, hauth⟩⟩, rfl⟩
  · rename_i haead
    obtain ⟨s2, h2, h1⟩ := bind_ok h1
    obtain ⟨hcipher, st2, rfl⟩ := check_ok h2
    obtain ⟨hauth, st3, rfl⟩ := check_ok h1
    exact ⟨⟨hmode, .inr ⟨Bool.not_eq_true _ ▸ haead, hcipher, hauth⟩⟩, rfl⟩

/-- The SPI the first token behind the direction names. -/
def SpiText (tokens : List String) (spi : UInt32) : Prop :=
  ∃ tok, tokens.head? = some tok ∧ isStrNum tok = true ∧ spi = atoiText tok
    ∧ atoiText tok ≠ discard

/-- **A LINE** that goes well is a run over its options. -/
theorem scan_steps {direction : Direction} {tokens : List String} {cnt : IpsecSaCnt}
    {nb : UInt32} {udp : Bool} {st : ParseStatus}
    (h : saScan env direction tokens cnt nb udp st = .ok s') :
    ∃ spi c, SpiText tokens spi
      ∧ SaSteps env (lineOpts tokens) (lineStart direction spi cnt nb udp) c
      ∧ Complete c ∧ s'.rule = c.settle := by
  cases tokens with
  | nil => cases h
  | cons spi rest =>
      obtain ⟨s1, h1, h⟩ := bind_ok h
      obtain ⟨hnum, st1, rfl⟩ := check_ok h1
      split at h
      · cases h
      · rename_i hspi
        obtain ⟨s2, h2, h⟩ := bind_ok h
        obtain ⟨s3, h3, h⟩ := bind_ok h
        obtain ⟨hcomplete, hcore⟩ := saComplete_ok h3
        cases h
        refine ⟨atoiText spi, s2.toSaCore, ⟨spi, rfl, hnum, rfl, hspi⟩,
          saLoop_steps rest.length h2, hcomplete, ?_⟩
        exact congrArg SaCore.settle hcore

/-- `parse_sa_tokens` has added a rule. -/
def Accepts (env : SaEnv) (t : SaTables) (tok : String) (tokens : List String)
    (st : ParseStatus) (rule : SaRule) : Prop :=
  ∃ t' st', parseSaTokens env t tok tokens st = .ok (t', st')
    ∧ (if tok = "in" then t'.saIn = t.saIn ++ [rule] else t'.saOut = t.saOut ++ [rule])

/-- The direction of a line. -/
def lineDirection (tok : String) : Direction := if tok = "in" then .ingress else .egress

/-- An accepted line is a run over its options. -/
theorem Accepts.steps {t : SaTables} {tok : String} {tokens : List String}
    {st : ParseStatus} {rule : SaRule} (h : Accepts env t tok tokens st rule) :
    ∃ spi cnt nb udp c, SpiText tokens spi
      ∧ SaSteps env (lineOpts tokens) (lineStart (lineDirection tok) spi cnt nb udp) c
      ∧ Complete c ∧ rule = c.settle := by
  obtain ⟨t', st', hparse, hpush⟩ := h
  -- an array that has not grown is none with a rule more
  have hkeep : ∀ c : SaCore, ∀ b : Bool, (t.keep b c).saIn = t.saIn
      ∧ (t.keep b c).saOut = t.saOut := by
    intro c b
    cases b <;> exact ⟨rfl, rfl⟩
  have hgrown : ∀ l : List SaRule, l ≠ l ++ [rule] := by
    intro l hl
    have hlen := congrArg List.length hl
    rw [List.length_append, List.length_singleton] at hlen
    omega
  have hsame : t'.saIn = t.saIn → t'.saOut = t.saOut → False := by
    intro hin hout
    rw [hin, hout] at hpush
    split at hpush
    · exact hgrown _ hpush
    · exact hgrown _ hpush
  unfold parseSaTokens at hparse
  split at hparse
  · cases hparse
    exact (hsame rfl rfl).elim
  · dsimp only at hparse
    split at hparse
    · rename_i s hscan
      cases hparse
      obtain ⟨spi, c, hspi, hsteps, hcomplete, hrule⟩ := scan_steps hscan
      have hdir : (if decide (tok = "in") = true then Direction.ingress else .egress)
          = lineDirection tok := by
        by_cases htok : tok = "in" <;> simp [lineDirection, htok]
      rw [hdir] at hsteps
      refine ⟨spi, _, _, _, c, hspi, hsteps, hcomplete, ?_⟩
      rw [← hrule]
      have hone : ∀ l : List SaRule, l ++ [s.rule] = l ++ [rule] → rule = s.rule := by
        intro l hl
        exact ((List.cons.inj (List.append_cancel_left hl)).1).symm
      by_cases htok : tok = "in"
      · rw [if_pos htok, SaTables.push, if_pos (decide_eq_true htok)] at hpush
        rw [(hkeep _ _).1] at hpush
        exact hone _ hpush
      · rw [if_neg htok, SaTables.push, if_neg (by simp [htok])] at hpush
        rw [(hkeep _ _).2] at hpush
        exact hone _ hpush
    · cases hparse
      exact (hsame (hkeep _ _).1 (hkeep _ _).2).elim
    · cases hparse

end SaParse
