import IpsecSecgw.MessageProofs
import IpsecSecgw.SaParseProofs

/-! # Messages of a SA line

    The condition of each option, on the variables and the tokens behind its
    keyword, and that of a line: it holds wherever the loop enters an option. -/

namespace SaParse

open ByteStore SaModel ParserModel ScanLoop

variable (env : SaEnv)

/-! ## Conditions -/

/-- A key string.  It is written inside the fields of the SA; if its number of bytes is
    the one expected, the salt at its end lies there, and else there is room for it. -/
def keyFits (a lenAt : Nat) (salted : Prop) (keys : Nat → UInt8) (key : String) : Prop :=
  match parseKeyString a key keys with
  | .error _ => False
  | .ok (n, keys) =>
      if UInt32.ofNat n = (len16 keys lenAt).toUInt32 then
        salted → a + (UInt32.ofNat n - 4).toNat + 4 ≤ keysEnd
      else Room (unrecognizedInput key)

/-- Its keyword, and the key string. -/
def keysFit (keyword : String) (a lenAt : Nat) (salted : Prop) (keys : Nat → UInt8)
    (rest : List String) : Prop :=
  OnNext rest fun t rest =>
    if t = keyword then OnNext rest fun key _ => keyFits a lenAt salted keys key
    else Room (unrecognizedInput t ++ ", expect \"" ++ keyword ++ "\"")

/-- `mode`. -/
def modeFits (c : SaCore) (rest : List String) : Prop :=
  c.modeP = false → OnNext rest fun t _ => modeOf t = none → Room (unrecognizedInput t)

/-- `cipher_algo`. -/
def cipherFits (c : SaCore) (rest : List String) : Prop :=
  c.cipherAlgoP = false → OnNext rest fun t rest =>
    match findMatchCipherAlgo t with
    | none => Room (unrecognizedInput t)
    | some algo =>
        algo.algo ≠ .null →
          keysFit "cipher_key" cipherKeyAt cipherKeyLenAt (algo.algo = .aesCtr)
            (c.rule.setCipher algo).keys rest

/-- `auth_algo`. -/
def authFits (c : SaCore) (rest : List String) : Prop :=
  c.authAlgoP = false → OnNext rest fun t rest =>
    match findMatchAuthAlgo t with
    | none => Room (unrecognizedInput t)
    | some algo =>
        algo.algo ≠ .null →
          keysFit "auth_key" authKeyAt authKeyLenAt (algo.algo = .aesGmac)
            (c.rule.setAuth algo).keys rest

/-- `aead_algo`. -/
def aeadFits (c : SaCore) (rest : List String) : Prop :=
  c.aeadAlgoP = false → OnNext rest fun t rest =>
    match findMatchAeadAlgo t with
    | none => Room (unrecognizedInput t)
    | some algo =>
        keysFit "aead_key" cipherKeyAt cipherKeyLenAt True (c.rule.setAead algo).keys rest

/-- The address of `src` and `dst`. -/
def addrFits (flags : UInt16) (t : String) : Prop :=
  if isIp4Tunnel flags then
    parseIpv4Addr env.net t = none → Room (unrecognizedInput t ++ ", expect valid ipv4 addr")
  else if isIp6Tunnel flags then
    parseIpv6Addr env.net t = none → Room (unrecognizedInput t ++ ", expect valid ipv6 addr")
  else isTransport flags = true → Room (unrecognizedInput t)

/-- `src` and `dst`. -/
def sideFits (present : Bool) (c : SaCore) (rest : List String) : Prop :=
  present = false → OnNext rest fun t _ => addrFits env c.rule.flags t

/-- `type`. -/
def typeFits (c : SaCore) (rest : List String) : Prop :=
  c.typeP = false → OnNext rest fun t _ =>
    typeOf t = none → Room ("Invalid input \"" ++ t ++ "\"")

/-- A port beside another one. -/
def portFits (portid : UInt16) (t : String) : Prop :=
  portid ≠ 0xffff → portid.toUInt32 ≠ atoiText t →
    Room ("portid " ++ t ++ " not matching with already assigned portid " ++ toString portid)

/-- `port_id`. -/
def portIdFits (c : SaCore) (rest : List String) : Prop :=
  c.portidP = false → OnNext rest fun t _ => portFits c.rule.portid t

/-- `fallback`, where it is allowed. -/
def fallbackFits (c : SaCore) (rest : List String) : Prop :=
  env.enable = true → c.rule.primary.type = .inlineCrypto → c.rule.direction = .ingress →
    c.fallbackP = false → OnNext rest fun t _ =>
      fallbackOf t = none → Room ("unrecognized fallback type " ++ t ++ ".")

/-- `flow-direction`, where it is supported. -/
def flowDirectionFits (c : SaCore) (rest : List String) : Prop :=
  c.rule.primary.type = .none ∨ c.rule.primary.type = .cpuCrypto →
    OnNext rest fun t _ => portFits c.rule.portid t

/-- An option; those that are not named quote nothing but their keyword. -/
def saFits (c : SaCore) (keyword : String) (rest : List String) : Prop :=
  if keyword = "mode" then modeFits c rest
  else if keyword = "telemetry" then True
  else if keyword = "cipher_algo" then cipherFits c rest
  else if keyword = "auth_algo" then authFits c rest
  else if keyword = "aead_algo" then aeadFits c rest
  else if keyword = "src" then sideFits env c.srcP c rest
  else if keyword = "dst" then sideFits env c.dstP c rest
  else if keyword = "type" then typeFits c rest
  else if keyword = "port_id" then portIdFits c rest
  else if keyword = "mss" then True
  else if keyword = "esn" then True
  else if keyword = "fallback" then fallbackFits env c rest
  else if keyword = "flow-direction" then flowDirectionFits c rest
  else if keyword = "udp-encap" then True
  else Room (unrecognizedInput keyword)

/-! ## Rules -/

/-- The handler returns with a message that has room. -/
def Told : Stop SaScan → Prop
  | .ret s => s.st.Held
  | .fault _ => False

/-- A computation on the tokens of a SA line; `get` finds the parser in its value. -/
abbrev SaJudged {α : Type} (get : α → SaScan) (m : String) (F : Prop)
    (x : Except (Stop SaScan) α) : Prop :=
  Judged Told F (fun r => (get r).st.parseMsg = m) x

variable {env} {α : Type} {get : α → SaScan} {m : String}
  {f : SaScan → Except (Stop SaScan) α} {s : SaScan}

theorem check_judged {exp : Bool} {msg : String} {G : Prop}
    (h : exp = true → SaJudged get m G (f { s with st := appCheck true msg s.st })) :
    SaJudged get m (if exp then G else Room msg) (s.check exp msg >>= f) := by
  cases exp with
  | true => exact h rfl
  | false => exact judged_error (held_false _ s.st)

theorem decide_judged {p : Prop} [Decidable p] {msg : String} {G : Prop}
    (h : p → SaJudged get m G (f { s with st := appCheck true msg s.st })) :
    SaJudged get m (if p then G else Room msg) (s.check (decide p) msg >>= f) := by
  by_cases hp : p
  · rw [decide_eq_true hp, if_pos hp]
    exact h hp
  · rw [decide_eq_false hp, if_neg hp]
    exact judged_error (held_false _ s.st)

/-- A check whose text is short. -/
theorem short_judged {exp : Bool} {msg : String} {G : Prop} (hmsg : Room msg)
    (h : exp = true → SaJudged get m G (f { s with st := appCheck true msg s.st })) :
    SaJudged get m (exp = true → G) (s.check exp msg >>= f) := by
  refine (check_judged h).congr ?_
  cases exp with
  | true => exact ⟨fun h _ => h, fun h => h rfl⟩
  | false => exact iff_of_true hmsg nofun

theorem refused_judged (msg : String) :
    Judged Told (Room msg) (fun s : SaScan => s.st.parseMsg = m) (s.check false msg) :=
  judged_error (held_false _ s.st)

/-- The text of a keyword that is there already is short. -/
theorem presence_judged {val : Bool} {G : Prop}
    (hcur : Room ("item \"" ++ s.cur ++ "\" already present"))
    (h : val = false → SaJudged get m G (f { s with st := appCheck true "" s.st })) :
    SaJudged get m (val = false → G) (s.presence val >>= f) := by
  refine (short_judged hcur fun hval => h ?_).congr ?_
  · rwa [Bool.not_eq_true'] at hval
  · rw [Bool.not_eq_true']

theorem next_judged {G : String → List String → Prop}
    (h : ∀ t rest, s.rest = t :: rest →
      SaJudged get m (G t rest)
        (f { s with cur := t, rest := rest, st := appCheck true "" s.st })) :
    SaJudged get m (OnNext s.rest G) (s.next >>= f) := by
  unfold SaScan.next
  cases hrest : s.rest with
  | nil => exact judged_error (iff_of_true room_end (onNext_nil G))
  | cons t rest => exact (h t rest hrest).congr onNext_cons.symm

/-! ## Options -/

theorem saMode_judged (hcur : s.cur = "mode") (hm : s.st.parseMsg = m) :
    SaJudged id m (modeFits s.toSaCore s.rest) (saMode s) := by
  refine presence_judged (by rw [hcur]; decide) fun _ => next_judged fun t rest _ => ?_
  cases modeOf t with
  | some md => exact judged_ok nofun hm
  | none => exact (refused_judged _).congr ⟨fun h _ => h, fun h => h rfl⟩

theorem saType_judged (hcur : s.cur = "type") (hm : s.st.parseMsg = m) :
    SaJudged id m (typeFits s.toSaCore s.rest) (saType s) := by
  refine presence_judged (by rw [hcur]; decide) fun _ => next_judged fun t rest _ => ?_
  cases typeOf t with
  | some type => exact judged_ok nofun hm
  | none => exact (refused_judged _).congr ⟨fun h _ => h, fun h => h rfl⟩

/-- **KEY**: where the number of bytes is the one expected, what is behind asks for no
    more than the place of the salt. -/
theorem key_judged {keyword : String} {a lenAt : Nat} {salted : Prop}
    {f : UInt32 × SaScan → Except (Stop SaScan) α}
    (h : ∀ n s', s'.st.parseMsg = s.st.parseMsg →
      SaJudged get m (salted → a + (n - 4).toNat + 4 ≤ keysEnd) (f (n, s'))) :
    SaJudged get m (keysFit keyword a lenAt salted s.rule.keys s.rest)
      (s.key keyword a lenAt >>= f) := by
  simp only [SaScan.key, bind_assoc]
  refine next_judged fun t rest _ => ?_
  refine decide_judged fun _ => next_judged fun key rest _ => ?_
  unfold keyFits
  dsimp only
  cases parseKeyString a key s.rule.keys with
  | error e => exact judged_error (iff_of_false id id)
  | ok r =>
      dsimp only
      rw [bind_assoc]
      exact decide_judged fun _ => h _ _ rfl

/-- The salt. -/
theorem takeSalt_judged {a lenAt : Nat} {n : UInt32} (hm : s.st.parseMsg = m) :
    SaJudged id m (a + (n - 4).toNat + 4 ≤ keysEnd) (s.takeSalt a lenAt n) := by
  by_cases hover : keysEnd < a + (n - 4).toNat + 4
  · have hrule : s.rule.takeSalt a lenAt n = .error .overrun := by
      rw [SaRule.takeSalt, if_pos hover]
    rw [SaScan.takeSalt, hrule]
    exact judged_error (iff_of_false id (Nat.not_le.mpr hover))
  · obtain ⟨rule, hrule⟩ : ∃ rule, s.rule.takeSalt a lenAt n = .ok rule := by
      rw [SaRule.takeSalt, if_neg hover]
      exact ⟨_, rfl⟩
    rw [SaScan.takeSalt, hrule]
    exact judged_ok (Nat.not_lt.mp hover) hm

/-- Behind a salt that has been taken the message is the same. -/
theorem salted_judged {a lenAt : Nat} {n : UInt32} {g : SaScan → SaScan}
    (hg : ∀ s, (g s).st = s.st) (hm : s.st.parseMsg = m) :
    SaJudged id m (a + (n - 4).toNat + 4 ≤ keysEnd)
      (s.takeSalt a lenAt n >>= fun s => pure (g s)) := by
  refine ((takeSalt_judged hm).bind (G := fun _ => True) fun s _ hs => ?_).congr
    ⟨fun h => h.1, fun h => ⟨h, fun _ _ => trivial⟩⟩
  refine judged_ok trivial ?_
  rw [id, hg]
  exact hs

/-- The salt of a cipher. -/
theorem cipherSalt_judged {algo : SupportedCipherAlgo} {n : UInt32} {g : SaScan → SaScan}
    (hg : ∀ s, (g s).st = s.st) (hm : s.st.parseMsg = m) :
    SaJudged id m (algo.algo = .aesCtr → cipherKeyAt + (n - 4).toNat + 4 ≤ keysEnd)
      (cipherSalt env algo n s >>= fun s => pure (g s)) := by
  have hdone : ∀ s : SaScan, s.st.parseMsg = m → (id (g s)).st.parseMsg = m := by
    intro s hs
    rw [id, hg]
    exact hs
  unfold cipherSalt
  by_cases hcbc : algo.algo = .aesCbc ∨ algo.algo = .tripleDesCbc
  · rw [if_pos hcbc]
    refine judged_ok ?_ (hdone _ hm)
    intro hctr
    rw [hctr] at hcbc
    rcases hcbc with h | h <;> cases h
  · rw [if_neg hcbc]
    by_cases hctr : algo.algo = .aesCtr
    · rw [if_pos hctr]
      exact (salted_judged hg hm).congr ⟨fun h _ => h, fun h => h hctr⟩
    · rw [if_neg hctr]
      exact judged_ok (fun h => absurd h hctr) (hdone s hm)

theorem saCipher_judged (hcur : s.cur = "cipher_algo") (hm : s.st.parseMsg = m) :
    SaJudged id m (cipherFits s.toSaCore s.rest) (saCipher env s) := by
  refine presence_judged (by rw [hcur]; decide) fun _ => next_judged fun t rest _ => ?_
  dsimp only
  cases findMatchCipherAlgo t with
  | none => exact refused_judged _
  | some algo =>
      refine (short_judged (by decide) fun _ => ?_).congr ⟨fun h => h rfl, fun h _ => h⟩
      by_cases hnull : algo.algo = .null
      · rw [if_pos hnull]
        exact judged_ok (fun h => absurd hnull h) hm
      · rw [if_neg hnull]
        refine (key_judged fun n s' hs' => ?_).congr ⟨fun h _ => h, fun h => h hnull⟩
        exact cipherSalt_judged (fun _ => rfl) (hs'.trans hm)

theorem saAuth_judged (hcur : s.cur = "auth_algo") (hm : s.st.parseMsg = m) :
    SaJudged id m (authFits s.toSaCore s.rest) (saAuth s) := by
  refine presence_judged (by rw [hcur]; decide) fun _ => next_judged fun t rest _ => ?_
  dsimp only
  cases findMatchAuthAlgo t with
  | none => exact refused_judged _
  | some algo =>
      refine (short_judged (by decide) fun _ => ?_).congr ⟨fun h => h rfl, fun h _ => h⟩
      by_cases hnull : algo.algo = .null
      · rw [if_pos hnull]
        exact judged_ok (fun h => absurd hnull h) hm
      · rw [if_neg hnull]
        refine (key_judged fun n s' hs' => ?_).congr ⟨fun h _ => h, fun h => h hnull⟩
        have hm' := hs'.trans hm
        unfold authSalt
        by_cases hgmac : algo.algo = .aesGmac
        · rw [if_pos hgmac]
          refine Judged.congr (F := authKeyAt + (n - 4).toNat + 4 ≤ keysEnd) ?_
            ⟨fun h _ => h, fun h => h hgmac⟩
          exact salted_judged (fun _ => rfl) hm'
        · rw [if_neg hgmac]
          exact judged_ok (fun h => absurd h hgmac) hm'

theorem saAead_judged (hcur : s.cur = "aead_algo") (hm : s.st.parseMsg = m) :
    SaJudged id m (aeadFits s.toSaCore s.rest) (saAead s) := by
  refine presence_judged (by rw [hcur]; decide) fun _ => next_judged fun t rest _ => ?_
  dsimp only
  cases findMatchAeadAlgo t with
  | none => exact refused_judged _
  | some algo =>
      refine (short_judged (by decide) fun _ => ?_).congr ⟨fun h => h rfl, fun h _ => h⟩
      refine key_judged fun n s' hs' => ?_
      refine Judged.congr (F := cipherKeyAt + (n - 4).toNat + 4 ≤ keysEnd) ?_
        ⟨fun h _ => h, fun h => h trivial⟩
      exact salted_judged (fun _ => rfl) (hs'.trans hm)

/-- An address, and what keeps the message behind it. -/
theorem saAddr_judged {a : IpAddr} {g : IpAddr × SaScan → SaScan}
    (hg : ∀ r, (g r).st = r.2.st) (hm : s.st.parseMsg = m) :
    SaJudged id m (addrFits env s.rule.flags s.cur)
      (saAddr env a s >>= fun r => pure (g r)) := by
  have hdone : ∀ r : IpAddr × SaScan, r.2.st.parseMsg = m → (id (g r)).st.parseMsg = m := by
    intro r hr
    rw [id, hg]
    exact hr
  unfold saAddr addrFits
  by_cases h4 : isIp4Tunnel s.rule.flags = true
  · rw [if_pos h4, if_pos h4]
    cases parseIpv4Addr env.net s.cur with
    | none => exact judged_error ⟨fun h _ => h, fun h => h rfl⟩
    | some r => exact judged_ok nofun (hdone (_, _) hm)
  · rw [if_neg h4, if_neg h4]
    by_cases h6 : isIp6Tunnel s.rule.flags = true
    · rw [if_pos h6, if_pos h6]
      cases parseIpv6Addr env.net s.cur with
      | none => exact judged_error ⟨fun h _ => h, fun h => h rfl⟩
      | some r => exact judged_ok nofun (hdone (_, _) hm)
    · rw [if_neg h6, if_neg h6]
      by_cases htransport : isTransport s.rule.flags = true
      · rw [if_pos htransport]
        exact judged_error ⟨fun h _ => h, fun h => h htransport⟩
      · rw [if_neg htransport]
        exact judged_ok (fun h => absurd h htransport) (hdone (_, _) hm)

theorem saSrc_judged (hcur : s.cur = "src") (hm : s.st.parseMsg = m) :
    SaJudged id m (sideFits env s.srcP s.toSaCore s.rest) (saSrc env s) := by
  refine presence_judged (by rw [hcur]; decide) fun _ => next_judged fun t rest _ => ?_
  exact saAddr_judged (fun _ => rfl) hm

theorem saDst_judged (hcur : s.cur = "dst") (hm : s.st.parseMsg = m) :
    SaJudged id m (sideFits env s.dstP s.toSaCore s.rest) (saDst env s) := by
  refine presence_judged (by rw [hcur]; decide) fun _ => next_judged fun t rest _ => ?_
  exact saAddr_judged (fun _ => rfl) hm

/-- A port, and what is behind it. -/
theorem portid_judged {f : SaScan → Except (Stop SaScan) SaScan}
    (h : ∀ s', s'.st.parseMsg = s.st.parseMsg → SaJudged id m True (f s')) :
    SaJudged id m (portFits s.rule.portid s.cur) (s.portid >>= f) := by
  unfold SaScan.portid portFits
  by_cases hfirst : s.rule.portid = 0xffff
  · rw [if_pos hfirst]
    refine Judged.congr (h _ ?_) (iff_of_true trivial fun hne => absurd hfirst hne)
    rfl
  · rw [if_neg hfirst]
    by_cases hother : s.rule.portid.toUInt32 ≠ atoiText s.cur
    · rw [if_pos hother]
      exact judged_error ⟨fun h _ _ => h, fun h => h hfirst hother⟩
    · rw [if_neg hother]
      exact (h _ rfl).congr (iff_of_true trivial fun _ hne => absurd hne hother)

theorem saPortId_judged (hcur : s.cur = "port_id") (hm : s.st.parseMsg = m) :
    SaJudged id m (portIdFits s.toSaCore s.rest) (saPortId s) := by
  refine presence_judged (by rw [hcur]; decide) fun _ => next_judged fun t rest _ => ?_
  refine portid_judged fun s' hs' => judged_ok trivial ?_
  exact hs'.trans hm

/-- An option with a number that is never refused. -/
theorem number_judged {g : SaScan → SaScan} (hg : ∀ s, (g s).st = s.st)
    (hm : s.st.parseMsg = m) : SaJudged id m True (s.next >>= fun s => pure (g s)) := by
  refine Judged.congr (F := OnNext s.rest fun _ _ => True) ?_
    (iff_of_true (fun _ _ _ => trivial) trivial)
  refine next_judged fun t rest _ => judged_ok trivial ?_
  rw [id, hg]
  exact hm

theorem saFallback_judged (hcur : s.cur = "fallback") (hm : s.st.parseMsg = m) :
    SaJudged id m (fallbackFits env s.toSaCore s.rest) (saFallback env s) := by
  refine short_judged (by decide) fun _ => ?_
  refine (short_judged (by decide) fun _ => ?_).congr (by rw [decide_eq_true_eq])
  refine (short_judged (by decide) fun _ => ?_).congr (by rw [decide_eq_true_eq])
  refine presence_judged (by rw [hcur]; decide) fun _ => next_judged fun t rest _ => ?_
  cases fallbackOf t with
  | some type => exact judged_ok nofun hm
  | none => exact (refused_judged _).congr ⟨fun h _ => h, fun h => h rfl⟩

/-- The texts with the type of a session are short. -/
theorem room_type (type : ActionType) :
    Room ("flow director not supported for security session type " ++ toString (typeCode type))
      ∧ Room ("UDP encapsulation not supported for security session type "
        ++ toString (typeCode type)) := by
  cases type <;> decide

theorem saFlowDirection_judged (hm : s.st.parseMsg = m) :
    SaJudged id m (flowDirectionFits s.toSaCore s.rest) (saFlowDirection s) := by
  unfold saFlowDirection flowDirectionFits
  by_cases htype : s.rule.primary.type = .none ∨ s.rule.primary.type = .cpuCrypto
  · rw [if_pos htype]
    refine Judged.congr (F := OnNext s.rest fun t _ => portFits s.rule.portid t) ?_
      ⟨fun h _ => h, fun h => h htype⟩
    refine next_judged fun t rest _ => portid_judged fun s' hs' => ?_
    exact number_judged (fun _ => rfl) (hs'.trans hm)
  · rw [if_neg htype]
    exact judged_error (iff_of_true (room_type _).1 fun h => absurd h htype)

theorem saUdpEncap_judged (hcur : s.cur = "udp-encap") (hm : s.st.parseMsg = m) :
    SaJudged id m True (saUdpEncap s) := by
  unfold saUdpEncap
  by_cases htype : s.rule.primary.type = .lookasideProtocol
      ∨ s.rule.primary.type = .inlineProtocol
  · rw [if_pos htype]
    refine Judged.congr (F := s.udpEncapP = false → True) ?_ 
      (iff_of_true (fun _ => trivial) trivial)
    exact presence_judged (by rw [hcur]; decide) fun _ => judged_ok trivial hm
  · rw [if_neg htype]
    by_cases hinline : s.rule.primary.type = .inlineCrypto
    · rw [if_pos hinline]
      exact judged_ok trivial hm
    · rw [if_neg hinline]
      exact judged_error (iff_of_true (room_type _).2 trivial)

/-- **OPTION**. -/
theorem saOption_judged (hm : s.st.parseMsg = m) :
    SaJudged id m (saFits env s.toSaCore s.cur s.rest) (saOption env s) := by
  unfold saOption saFits
  refine judged_ite (fun h => saMode_judged h hm) fun _ => ?_
  refine judged_ite (fun _ => judged_ok trivial hm) fun _ => ?_
  refine judged_ite (fun h => saCipher_judged h hm) fun _ => ?_
  refine judged_ite (fun h => saAuth_judged h hm) fun _ => ?_
  refine judged_ite (fun h => saAead_judged h hm) fun _ => ?_
  refine judged_ite (fun h => saSrc_judged h hm) fun _ => ?_
  refine judged_ite (fun h => saDst_judged h hm) fun _ => ?_
  refine judged_ite (fun h => saType_judged h hm) fun _ => ?_
  refine judged_ite (fun h => saPortId_judged h hm) fun _ => ?_
  refine judged_ite (fun _ => number_judged (fun _ => rfl) hm) fun _ => ?_
  refine judged_ite (fun _ => number_judged (fun _ => rfl) hm) fun _ => ?_
  refine judged_ite (fun h => saFallback_judged h hm) fun _ => ?_
  refine judged_ite (fun _ => saFlowDirection_judged hm) fun _ => ?_
  refine judged_ite (fun h => saUdpEncap_judged h hm) fun _ => ?_
  exact refused_judged _

/-! ## Lines -/

/-- The loop of `parse_sa_tokens`. -/
def saScanner (env : SaEnv) : Scanner SaScan (Stop SaScan) String where
  rest := fun s => s.rest
  enter := fun s t rest => { s with cur := t, rest := rest }
  round := saOption env

theorem saLoop_eq (fuel : Nat) (s : SaScan) :
    saLoop env fuel s = (saScanner env).loop fuel s := by
  induction fuel generalizing s with
  | zero => rfl
  | succ fuel ih =>
      have hrec : saLoop env fuel = (saScanner env).loop fuel := funext ih
      cases hrest : s.rest with
      | nil =>
          rw [saLoop, hrest, Scanner.loop_nil hrest]
      | cons t rest =>
          rw [saLoop, hrest, Scanner.loop_cons hrest, hrec]
          rfl

theorem shrinks_readText (opt : String → SaOpt) (rest : List String) :
    Shrinks rest (readText opt rest) := by
  cases rest with
  | nil => exact shrinks_none _
  | cons t rest => exact shrinks_some (Nat.le_succ _)

theorem shrinks_readAlgo (opt : String → Option String → SaOpt) (rest : List String) :
    Shrinks rest (readAlgo opt rest) := by
  match rest with
  | [] => exact shrinks_none _
  | [name] => exact shrinks_ite (shrinks_some (Nat.le_succ _)) (shrinks_none _)
  | [name, keyword] => exact shrinks_ite (shrinks_some (Nat.le_succ _)) (shrinks_none _)
  | name :: keyword :: key :: rest =>
      refine shrinks_ite (shrinks_some (Nat.le_succ _)) (shrinks_some ?_)
      simp only [List.length_cons]
      omega

theorem shrinks_readOpt (keyword : String) (rest : List String) :
    Shrinks rest (readOpt keyword rest) := by
  refine shrinks_ite (shrinks_readText _ _) ?_
  refine shrinks_ite (shrinks_some (Nat.le_refl _)) ?_
  refine shrinks_ite (shrinks_readAlgo _ _) ?_
  refine shrinks_ite (shrinks_readAlgo _ _) ?_
  refine shrinks_ite ?_ ?_
  · match rest with
    | [] | [_] | [_, _] => exact shrinks_none _
    | name :: keyword :: key :: rest =>
        refine shrinks_some ?_
        simp only [List.length_cons]
        omega
  refine shrinks_ite (shrinks_readText _ _) ?_
  refine shrinks_ite (shrinks_readText _ _) ?_
  refine shrinks_ite (shrinks_readText _ _) ?_
  refine shrinks_ite (shrinks_readText _ _) ?_
  refine shrinks_ite (shrinks_readText _ _) ?_
  refine shrinks_ite (shrinks_readText _ _) ?_
  refine shrinks_ite (shrinks_readText _ _) ?_
  refine shrinks_ite ?_ ?_
  · match rest with
    | [] | [_] => exact shrinks_none _
    | port :: queue :: rest =>
        refine shrinks_some ?_
        simp only [List.length_cons]
        omega
  exact shrinks_ite (shrinks_some (Nat.le_refl _)) (shrinks_none _)

/-- **LOOP**. -/
theorem saLoop_judged (env : SaEnv) (fuel : Nat) (s : SaScan) (hm : s.st.parseMsg = m)
    (hfuel : s.rest.length ≤ fuel) :
    SaJudged id m ((saScanner env).Throughout (fun s => saFits env s.toSaCore s.cur s.rest) s)
      (saLoop env fuel s) := by
  rw [saLoop_eq]
  refine (saScanner env).loop_judged (R := fun s => s.st.parseMsg = m)
    (fun s t rest hs _ => ?_) fuel s hm hfuel
  refine (saOption_judged (s := { s with cur := t, rest := rest }) hs).and fun s' hs' => ?_
  obtain ⟨o, hread, -⟩ := saOption_ok hs'
  exact shrinks_readOpt _ _ _ _ hread

theorem last_judged {exp : Bool} {msg : String} (hmsg : Room msg) (hm : s.st.parseMsg = m) :
    SaJudged id m True (s.check exp msg) := by
  cases exp with
  | true => exact judged_ok trivial hm
  | false => exact judged_error (iff_of_true hmsg trivial)

theorem saAlgos_judged (hm : s.st.parseMsg = m) : SaJudged id m True (saAlgos s) := by
  unfold saAlgos
  cases s.aeadAlgoP with
  | true =>
      rw [if_pos rfl]
      exact (last_judged (by decide) hm).next fun s hs => last_judged (by decide) hs
  | false =>
      rw [if_neg nofun]
      exact (last_judged (by decide) hm).next fun s hs => last_judged (by decide) hs

theorem saComplete_judged (hm : s.st.parseMsg = m) : SaJudged id m True (saComplete s) :=
  (saAlgos_judged hm).next fun _ hs => last_judged (by decide) hs

/-- The parser before the first option. -/
def saBegin (direction : Direction) (cnt : IpsecSaCnt) (nbCryptoSessions : UInt32)
    (udpEncap : Bool) (spi : String) (rest : List String) (st : ParseStatus) : SaScan :=
  ⟨lineStart direction (atoiText spi) cnt nbCryptoSessions udpEncap, spi, rest,
    appCheck true "" st⟩

/-- The tokens behind the direction: one is read at least, and it is a number. -/
def saScanFits (env : SaEnv) (direction : Direction) (tokens : List String)
    (cnt : IpsecSaCnt) (nbCryptoSessions : UInt32) (udpEncap : Bool) (st : ParseStatus) :
    Prop :=
  ∃ spi rest, tokens = spi :: rest ∧
    if isStrNum spi then
      atoiText spi ≠ discard →
        (saScanner env).Throughout (fun s => saFits env s.toSaCore s.cur s.rest)
          (saBegin direction cnt nbCryptoSessions udpEncap spi rest st)
    else Room (notNumber spi)

theorem saScan_judged (env : SaEnv) (direction : Direction) (tokens : List String)
    (cnt : IpsecSaCnt) (nbCryptoSessions : UInt32) (udpEncap : Bool) {st : ParseStatus}
    (hst : st.Held) :
    SaJudged id st.parseMsg (saScanFits env direction tokens cnt nbCryptoSessions udpEncap st)
      (saScan env direction tokens cnt nbCryptoSessions udpEncap st) := by
  unfold saScan saScanFits
  cases tokens with
  | nil =>
      refine judged_error (iff_of_false id ?_)
      rintro ⟨_, _, h, _⟩
      cases h
  | cons spi rest =>
      refine Judged.congr (F := if isStrNum spi = true then
        atoiText spi ≠ discard →
          (saScanner env).Throughout (fun s => saFits env s.toSaCore s.cur s.rest)
            (saBegin direction cnt nbCryptoSessions udpEncap spi rest st)
        else Room (notNumber spi)) ?_ ⟨fun h => ⟨spi, rest, rfl, h⟩, ?_⟩
      · refine check_judged fun _ => ?_
        dsimp only
        by_cases hzero : atoiText spi = discard
        · rw [if_pos hzero]
          exact judged_error (iff_of_true hst fun h => absurd hzero h)
        · rw [if_neg hzero]
          have hloop := saLoop_judged env rest.length
            (saBegin direction cnt nbCryptoSessions udpEncap spi rest st) rfl (Nat.le_refl _)
          refine (hloop.bind (G := fun _ => True) fun s _ hs => ?_).congr
            ⟨fun h _ => h.1, fun h => ⟨h hzero, fun _ _ => trivial⟩⟩
          exact (saComplete_judged hs).next fun s hs => judged_ok trivial hs
      · rintro ⟨_, _, h, hfits⟩
        cases h
        exact hfits

/-- A line; where there is no memory nothing is read. -/
def SaLineFits (env : SaEnv) (t : SaTables) (tok : String) (tokens : List String)
    (st : ParseStatus) : Prop :=
  env.memory = true →
    saScanFits env (lineDirection tok) tokens (if tok = "in" then t.saInCnt else t.saOutCnt)
      t.nbCryptoSessions t.udpEncap st

/-- **WHEN A SA LINE IS READ WITHIN BOUNDS**. -/
theorem sa_returned (t : SaTables) (tok : String) (tokens : List String) {st : ParseStatus}
    (hst : st.Held) :
    Returned (parseSaTokens env t tok tokens st) ↔ SaLineFits env t tok tokens st := by
  unfold parseSaTokens SaLineFits
  cases env.memory with
  | false => exact iff_of_true (returned_ok.mpr hst) nofun
  | true =>
      rw [if_neg nofun]
      simp only [true_implies, lineDirection, decide_eq_true_eq]
      have hscan := saScan_judged env (lineDirection tok) tokens
        (if tok = "in" then t.saInCnt else t.saOutCnt) t.nbCryptoSessions t.udpEncap hst
      rw [lineDirection] at hscan
      cases hrun : saScan env (if tok = "in" then .ingress else .egress) tokens
          (if tok = "in" then t.saInCnt else t.saOutCnt) t.nbCryptoSessions t.udpEncap st with
      | ok s =>
          obtain ⟨hfits, hm⟩ := hscan.of_ok hrun
          exact iff_of_true (returned_ok.mpr (held_of_eq hm hst)) hfits
      | error e =>
          refine Iff.trans ?_ (hscan.error_iff hrun)
          cases e with
          | ret s => exact returned_ok
          | fault f => exact iff_of_false returned_error id

end SaParse
