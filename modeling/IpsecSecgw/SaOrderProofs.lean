import IpsecSecgw.AddrProofs
import IpsecSecgw.SaEffectProofs

/-! # The order of the options of a SA

    Two lines with the same options in different orders come to the same SA in all
    parts but four: the numbers of which the last one counts, the addresses, which
    are only read behind the mode, the IV length and the salt, which both the cipher
    and AES-GMAC set, and key bytes that two long keys write.  So the order makes no
    difference exactly where these fit (`order_iff`). -/

namespace SaParse

open ByteStore SaModel ParserModel WriteLog

variable {env : SaEnv} {opts opts' : List SaOpt} {c c' d d' : SaCore}

/-! ## Algorithms -/

/-- A cipher whose salt is drawn. -/
def RandomSalt (algo : CipherAlgo) : Prop := algo = .aesCbc ∨ algo = .tripleDesCbc

/-- The same but for a salt that was drawn. -/
def SaltAside (s s' : SaCrypto) : Prop :=
  { s with salt := s'.salt } = s' ∧ (s.salt = s'.salt ∨ RandomSalt s'.cipherAlgo)

/-- A cipher and an authentication algorithm that can change places: their writes agree,
    the IV length and the salt that both set are the same. -/
def SwapFits (name : String) (key : Option String) (name' : String) (key' : Option String) :
    Prop :=
  ∀ algo algo', findMatchCipherAlgo name = some algo → findMatchAuthAlgo name' = some algo' →
    Agree (cipherLog algo key) (authLog algo' key')
      ∧ (algo'.algo = .aesGmac → algo.ivLen = algo'.ivLen)
      ∧ ∀ x y, cipherKeySalt algo key = some x → authKeySalt algo' key' = some y → x = y

theorem SaltAside.symm {s s' : SaCrypto} (h : SaltAside s s') : SaltAside s' s := by
  obtain ⟨hsame, hsalt⟩ := h
  refine ⟨?_, ?_⟩
  · rw [← hsame]
  · rw [← hsame] at hsalt
    exact hsalt.imp Eq.symm id

/-- A cipher that draws its salt takes none from the key. -/
theorem cipherKeySalt_draws {algo : SupportedCipherAlgo} (h : DrawsSalt algo)
    (key : Option String) : cipherKeySalt algo key = none := by
  cases key with
  | none => rfl
  | some key =>
      refine if_neg fun hctr => ?_
      rcases h with h | h <;> rw [hctr] at h <;> cases h

/-- **SWAP**: when the two come to the same in either order. -/
theorem swap_iff (s : SaCrypto) (rand rand' : UInt32) (key key' : Option String)
    (algo : SupportedCipherAlgo) (algo' : SupportedAuthAlgo) :
    SaltAside ((s.takeCipher rand key algo).takeAuth key' algo')
        ((s.takeAuth key' algo').takeCipher rand' key algo)
      ↔ Agree (cipherLog algo key) (authLog algo' key')
        ∧ (algo'.algo = .aesGmac → algo.ivLen = algo'.ivLen)
        ∧ ∀ x y, cipherKeySalt algo key = some x → authKeySalt algo' key' = some y →
          x = y := by
  constructor
  · rintro ⟨hsame, hsalt⟩
    refine ⟨overlay_comm_iff.mp (congrArg SaCrypto.keys hsame), fun hgmac => ?_,
      fun x y hx hy => ?_⟩
    · have hiv : (if algo'.algo = .aesGmac then algo'.ivLen else algo.ivLen) = algo.ivLen :=
        congrArg SaCrypto.ivLen hsame
      rw [if_pos hgmac] at hiv
      exact hiv.symm
    · -- a cipher whose key ends with a salt draws none
      have hdraws : ¬ DrawsSalt algo := by
        intro hdraws
        rw [cipherKeySalt_draws hdraws] at hx
        cases hx
      rcases hsalt with hsalt | hrandom
      · simp only [SaCrypto.takeAuth, SaCrypto.takeCipher, if_neg hdraws, hx, hy,
          Option.getD_some] at hsalt
        exact hsalt.symm
      · exact absurd hrandom hdraws
  · rintro ⟨hagree, hiv, hsalt⟩
    have hkeys : overlay (authLog algo' key') (overlay (cipherLog algo key) s.keys)
        = overlay (cipherLog algo key) (overlay (authLog algo' key') s.keys) :=
      overlay_comm_iff.mpr hagree
    have hivs : (if algo'.algo = .aesGmac then algo'.ivLen else algo.ivLen) = algo.ivLen := by
      split
      · rename_i hgmac
        exact (hiv hgmac).symm
      · rfl
    refine ⟨?_, ?_⟩
    · simp only [SaCrypto.takeAuth, SaCrypto.takeCipher, hkeys, hivs]
    · by_cases hdraws : DrawsSalt algo
      · exact .inr hdraws
      · refine .inl ?_
        simp only [SaCrypto.takeAuth, SaCrypto.takeCipher, if_neg hdraws]
        cases hx : cipherKeySalt algo key with
        | none => rfl
        | some x =>
            cases hy : authKeySalt algo' key' with
            | none => rfl
            | some y => exact (hsalt x y hx hy).symm

/-- The option is a group of an algorithm. -/
def SaOpt.isAlgo : SaOpt → Bool
  | .cipher _ _ => true
  | .auth _ _ => true
  | .aead _ _ => true
  | _ => false

/-- The algorithms act by their own groups alone. -/
theorem foldl_isAlgo (opts : List SaOpt) (rand : UInt32) (s : SaCrypto) :
    opts.foldl (SaCrypto.take rand) s
      = (opts.filter SaOpt.isAlgo).foldl (SaCrypto.take rand) s := by
  induction opts generalizing s with
  | nil => rfl
  | cons o opts ih =>
      rw [List.foldl_cons, ih]
      cases o <;> rfl

/-- The groups of the algorithms of a line that is accepted. -/
def AlgosOf (l : List SaOpt) : Prop :=
  (∃ name key, l = [.aead name key])
    ∨ ∃ name key name' key',
      l = [.cipher name key, .auth name' key'] ∨ l = [.auth name' key', .cipher name key]

/-- Before the options nothing has been there. -/
theorem present_lineStart (dir : Direction) (spi : UInt32) (cnt : IpsecSaCnt) (nb : UInt32)
    (udp : Bool) (x : SaOpt) : x.present (lineStart dir spi cnt nb udp) = false := by
  cases x <;> rfl

/-- Two groups of different kinds, and no third. -/
theorem algosOf_two {l : List SaOpt} (hpairs : l.Pairwise fun x y => x.clash y = false)
    (hkinds : ∀ o ∈ l, (∃ name key, o = .cipher name key) ∨ ∃ name key, o = .auth name key)
    (hcipher : ∃ name key, .cipher name key ∈ l) (hauth : ∃ name key, .auth name key ∈ l) :
    AlgosOf l := by
  obtain ⟨name, key, hcipher⟩ := hcipher
  obtain ⟨name', key', hauth⟩ := hauth
  match l with
  | [] => exact absurd hcipher List.not_mem_nil
  | [x] =>
      rw [List.mem_singleton] at hcipher hauth
      rw [← hcipher] at hauth
      cases hauth
  | [x, y] =>
      refine .inr ⟨name, key, name', key', ?_⟩
      simp only [List.mem_cons, List.not_mem_nil, or_false] at hcipher hauth
      rcases hcipher with rfl | rfl
      · rcases hauth with hauth | rfl
        · cases hauth
        · exact .inl rfl
      · rcases hauth with rfl | hauth
        · exact .inr rfl
        · cases hauth
  | x :: y :: z :: rest =>
      -- of three groups two are of one kind
      have hxy := (List.pairwise_cons.mp hpairs).1 y (by simp)
      have hxz := (List.pairwise_cons.mp hpairs).1 z (by simp)
      have hyz := (List.pairwise_cons.mp hpairs.of_cons).1 z (by simp)
      rcases hkinds x (by simp) with ⟨_, _, rfl⟩ | ⟨_, _, rfl⟩ <;>
        rcases hkinds y (by simp) with ⟨_, _, rfl⟩ | ⟨_, _, rfl⟩ <;>
        rcases hkinds z (by simp) with ⟨_, _, rfl⟩ | ⟨_, _, rfl⟩ <;>
        first
          | exact (Bool.false_ne_true hxy.symm).elim
          | exact (Bool.false_ne_true hxz.symm).elim
          | exact (Bool.false_ne_true hyz.symm).elim

theorem algosOf_line {dir : Direction} {spi : UInt32} {cnt : IpsecSaCnt} {nb : UInt32}
    {udp : Bool} (h : SaSteps env opts (lineStart dir spi cnt nb udp) c) (hc : Complete c) :
    AlgosOf (opts.filter SaOpt.isAlgo) := by
  obtain ⟨-, hpairs, hpresent⟩ := h.present
  have hpairs := hpairs.filter SaOpt.isAlgo
  -- what is present has been an option
  have hthere : ∀ x : SaOpt, x.present c = true → ∃ o ∈ opts, o.clash x = true := by
    intro x hx
    rw [hpresent x, present_lineStart, Bool.false_or, List.any_eq_true] at hx
    exact hx
  have hnone : ∀ x : SaOpt, x.present c = false → ∀ o ∈ opts, o.clash x = false := by
    intro x hx o ho
    rw [hpresent x, present_lineStart, Bool.false_or, List.any_eq_false] at hx
    exact Bool.not_eq_true _ ▸ hx o ho
  rcases hc.algos with ⟨haead, hcipher, hauth⟩ | ⟨haead, hcipher, hauth⟩
  · have hkind : ∀ o ∈ opts.filter SaOpt.isAlgo, ∃ name key, o = .aead name key := by
      intro o ho
      obtain ⟨ho, halgo⟩ := List.mem_filter.mp ho
      cases o with
      | cipher name key => cases hnone (.cipher "" none) hcipher _ ho
      | auth name key => cases hnone (.auth "" none) hauth _ ho
      | aead name key => exact ⟨name, key, rfl⟩
      | _ => cases halgo
    obtain ⟨o, ho, hclash⟩ := hthere (.aead "" "") haead
    have halgo : o.isAlgo = true := by
      cases o <;> first | rfl | cases hclash
    have hmem : o ∈ opts.filter SaOpt.isAlgo := List.mem_filter.mpr ⟨ho, halgo⟩
    refine .inl ?_
    generalize opts.filter SaOpt.isAlgo = l at *
    match l with
    | [] => exact absurd hmem List.not_mem_nil
    | [x] =>
        obtain ⟨name, key, rfl⟩ := hkind x List.mem_cons_self
        exact ⟨name, key, rfl⟩
    -- two AEAD algorithms clash
    | x :: y :: rest =>
        obtain ⟨_, _, rfl⟩ := hkind x List.mem_cons_self
        obtain ⟨_, _, rfl⟩ := hkind y (by simp)
        cases List.rel_of_pairwise_cons hpairs List.mem_cons_self
  · refine algosOf_two hpairs (fun o ho => ?_) ?_ ?_
    · obtain ⟨ho, halgo⟩ := List.mem_filter.mp ho
      cases o with
      | cipher name key => exact .inl ⟨name, key, rfl⟩
      | auth name key => exact .inr ⟨name, key, rfl⟩
      | aead name key => cases hnone (.aead "" "") haead _ ho
      | _ => cases halgo
    · obtain ⟨o, ho, hclash⟩ := hthere (.cipher "" none) hcipher
      cases o with
      | cipher name key => exact ⟨name, key, List.mem_filter.mpr ⟨ho, rfl⟩⟩
      | _ => cases hclash
    · obtain ⟨o, ho, hclash⟩ := hthere (.auth "" none) hauth
      cases o with
      | auth name key => exact ⟨name, key, List.mem_filter.mpr ⟨ho, rfl⟩⟩
      | _ => cases hclash

/-- The algorithms of two lines agree. -/
def AlgosFit (opts opts' : List SaOpt) : Prop :=
  opts.filter SaOpt.isAlgo = opts'.filter SaOpt.isAlgo
    ∨ ∀ name key name' key', .cipher name key ∈ opts → .auth name' key' ∈ opts →
      SwapFits name key name' key'

theorem SaltAside.refl (s : SaCrypto) : SaltAside s s := ⟨rfl, .inl rfl⟩

/-- A cipher that draws another salt. -/
theorem saltAside_takeCipher (s : SaCrypto) (rand rand' : UInt32) (key : Option String)
    (algo : SupportedCipherAlgo) :
    SaltAside (s.takeCipher rand key algo) (s.takeCipher rand' key algo) := by
  by_cases hdraws : DrawsSalt algo
  · exact ⟨rfl, .inr hdraws⟩
  · simp only [SaCrypto.takeCipher, if_neg hdraws]
    exact .refl _

theorem SaltAside.takeAuth {s s' : SaCrypto} (h : SaltAside s s') (key : Option String)
    (algo : SupportedAuthAlgo) : SaltAside (s.takeAuth key algo) (s'.takeAuth key algo) := by
  obtain ⟨hsame, hsalt⟩ := h
  rw [← hsame] at hsalt ⊢
  refine ⟨rfl, ?_⟩
  rcases hsalt with hsalt | hrandom
  · refine .inl ?_
    have hsalt : s.salt = s'.salt := hsalt
    simp only [SaCrypto.takeAuth, hsalt]
  · exact .inr hrandom

/-- Where the groups are in the same order, the salt is all that can differ. -/
theorem saltAside_same {l : List SaOpt} (hl : AlgosOf l) (s : SaCrypto) (rand rand' : UInt32) :
    SaltAside (l.foldl (SaCrypto.take rand) s) (l.foldl (SaCrypto.take rand') s) := by
  have hcipher : ∀ (s : SaCrypto) name key, SaltAside (s.take rand (.cipher name key))
      (s.take rand' (.cipher name key)) := by
    intro s name key
    simp only [SaCrypto.take]
    cases findMatchCipherAlgo name with
    | none => exact .refl _
    | some algo => exact saltAside_takeCipher s rand rand' key algo
  rcases hl with ⟨name, key, rfl⟩ | ⟨name, key, name', key', rfl | rfl⟩
  · exact .refl _
  · have hs := hcipher s name key
    simp only [List.foldl_cons, List.foldl_nil]
    generalize s.take rand (.cipher name key) = t, s.take rand' (.cipher name key) = t' at hs
    simp only [SaCrypto.take]
    cases findMatchAuthAlgo name' with
    | none => exact hs
    | some algo' => exact hs.takeAuth key' algo'
  · exact hcipher _ name key

/-- The same groups in two orders. -/
theorem algosOf_swap {l l' : List SaOpt} (hl : AlgosOf l) (hl' : AlgosOf l')
    (hmem : ∀ o, o ∈ l' → o ∈ l) (hne : l ≠ l') :
    ∃ name key name' key',
      l = [.cipher name key, .auth name' key'] ∧ l' = [.auth name' key', .cipher name key]
        ∨ l = [.auth name' key', .cipher name key]
          ∧ l' = [.cipher name key, .auth name' key'] := by
  rcases hl' with ⟨n2, k2, rfl⟩ | ⟨n2, k2, n2', k2', hl'⟩
  · have haead := hmem (.aead n2 k2) (by simp)
    rcases hl with ⟨n, k, rfl⟩ | ⟨n, k, n', k', rfl | rfl⟩
    · cases List.mem_singleton.mp haead
      exact absurd rfl hne
    · simp at haead
    · simp at haead
  · have hcipher : .cipher n2 k2 ∈ l := hmem _ (by rcases hl' with rfl | rfl <;> simp)
    have hauth : .auth n2' k2' ∈ l := hmem _ (by rcases hl' with rfl | rfl <;> simp)
    rcases hl with ⟨n, k, rfl⟩ | ⟨n, k, n', k', rfl | rfl⟩
    · simp at hcipher
    · simp only [List.mem_cons, SaOpt.cipher.injEq, SaOpt.auth.injEq, reduceCtorEq,
        List.not_mem_nil, or_false, false_or] at hcipher hauth
      obtain ⟨rfl, rfl⟩ := hcipher
      obtain ⟨rfl, rfl⟩ := hauth
      rcases hl' with rfl | rfl
      · exact absurd rfl hne
      · exact ⟨_, _, _, _, .inl ⟨rfl, rfl⟩⟩
    · simp only [List.mem_cons, SaOpt.cipher.injEq, SaOpt.auth.injEq, reduceCtorEq,
        List.not_mem_nil, or_false, false_or] at hcipher hauth
      obtain ⟨rfl, rfl⟩ := hcipher
      obtain ⟨rfl, rfl⟩ := hauth
      rcases hl' with rfl | rfl
      · exact ⟨_, _, _, _, .inr ⟨rfl, rfl⟩⟩
      · exact absurd rfl hne

/-- The two groups in either order. -/
theorem swap_take_iff (s : SaCrypto) (rand rand' : UInt32) (name : String)
    (key : Option String) (name' : String) (key' : Option String) :
    SaltAside ((s.take rand (.cipher name key)).take rand (.auth name' key'))
        ((s.take rand' (.auth name' key')).take rand' (.cipher name key))
      ↔ SwapFits name key name' key' := by
  simp only [SaCrypto.take]
  cases halgo : findMatchCipherAlgo name with
  | none => 
      refine iff_of_true (.refl _) fun algo algo' h => ?_
      rw [halgo] at h
      cases h
  | some algo =>
      cases halgo' : findMatchAuthAlgo name' with
      | none =>
          refine iff_of_true (saltAside_takeCipher s rand rand' key algo) fun a a' _ h => ?_
          rw [halgo'] at h
          cases h
      | some algo' =>
          refine (swap_iff s rand rand' key key' algo algo').trans ⟨fun h a a' ha ha' => ?_,
            fun h => h algo algo' halgo halgo'⟩
          cases halgo.symm.trans ha
          cases halgo'.symm.trans ha'
          exact h

/-- **ALGORITHMS** of two lines come to the same exactly where they fit. -/
theorem algos_iff {dir : Direction} {spi : UInt32} {cnt cnt' : IpsecSaCnt} {nb nb' : UInt32}
    {udp udp' : Bool} {env' : SaEnv}
    (h : SaSteps env opts (lineStart dir spi cnt nb udp) c) (hc : Complete c)
    (h' : SaSteps env' opts' (lineStart dir spi cnt' nb' udp') c') (hc' : Complete c')
    (hperm : opts.Perm opts') :
    SaltAside c.rule.crypto c'.rule.crypto ↔ AlgosFit opts opts' := by
  have hstart : (lineStart dir spi cnt nb udp).rule = (lineStart dir spi cnt' nb' udp').rule :=
    rfl
  rw [h.crypto, h'.crypto, hstart, foldl_isAlgo, foldl_isAlgo opts']
  by_cases hsame : opts.filter SaOpt.isAlgo = opts'.filter SaOpt.isAlgo
  · refine iff_of_true ?_ (.inl hsame)
    rw [← hsame]
    exact saltAside_same (algosOf_line h hc) _ _ _
  · obtain ⟨name, key, name', key', hswap⟩ := algosOf_swap (algosOf_line h hc)
      (algosOf_line h' hc') (fun o => (hperm.filter _).mem_iff.mpr) hsame
    have hgroups : ∀ o : SaOpt, o.isAlgo = true →
        (o ∈ opts ↔ o = .cipher name key ∨ o = .auth name' key') := by
      intro o ho
      have hfilter : o ∈ opts ↔ o ∈ opts.filter SaOpt.isAlgo := by
        rw [List.mem_filter, and_iff_left ho]
      rw [hfilter]
      rcases hswap with ⟨hl, -⟩ | ⟨hl, -⟩ <;> rw [hl] <;> simp [or_comm]
    have hfits : AlgosFit opts opts' ↔ SwapFits name key name' key' := by
      rw [AlgosFit, or_iff_right hsame]
      refine ⟨fun h => h _ _ _ _ ((hgroups _ rfl).mpr (.inl rfl))
        ((hgroups _ rfl).mpr (.inr rfl)), fun h n k n' k' hn hn' => ?_⟩
      have hn := (hgroups _ rfl).mp hn
      have hn' := (hgroups _ rfl).mp hn'
      simp only [SaOpt.cipher.injEq, SaOpt.auth.injEq, reduceCtorEq, or_false, false_or]
        at hn hn'
      rwa [hn.1, hn.2, hn'.1, hn'.2]
    rw [hfits]
    rcases hswap with ⟨hl, hl'⟩ | ⟨hl, hl'⟩
    · rw [hl, hl']
      exact swap_take_iff _ _ _ name key name' key'
    · rw [hl, hl', ← swap_take_iff _ env'.rand env.rand name key name' key']
      exact ⟨SaltAside.symm, SaltAside.symm⟩

/-! ## Rules -/

/-- A rule made of its parts; the rest is that of another one. -/
def SaRule.ofParts (base : SaRule) (s : SaOutline) (nums : LastNums) (k : SaCrypto)
    (port : UInt16) (src dst : IpAddr) (sport dport : UInt16) : SaRule :=
  { base with
    primary := { base.primary with type := s.type }
    fallback := { base.fallback with type := s.fallback }
    fallbackSessions := s.fallbackSessions
    flags := s.flags
    fdirFlag := s.fdirFlag
    udpEncap := s.udpEncap
    mss := nums.1
    esn := nums.2.1
    fdirQid := nums.2.2
    cipherAlgo := k.cipherAlgo
    authAlgo := k.authAlgo
    aeadAlgo := k.aeadAlgo
    digestLen := k.digestLen
    ivLen := k.ivLen
    blockSize := k.blockSize
    keys := k.keys
    salt := k.salt
    portid := port
    src := src
    dst := dst
    sport := sport
    dport := dport }

/-- The rule has only changed in its parts. -/
def Rebuilt (base : SaRule) (c : SaCore) : Prop :=
  c.rule = base.ofParts c.outline c.nums c.rule.crypto c.rule.portid c.rule.src c.rule.dst
    c.rule.sport c.rule.dport

theorem SaStep.rebuilt {o : SaOpt} {base : SaRule} (hstep : SaStep env o c c')
    (h : Rebuilt base c) : Rebuilt base c' := by
  have hsame : Rebuilt c.rule c' → Rebuilt base c' := by
    intro hc'
    unfold Rebuilt at h hc' ⊢
    rw [h] at hc'
    exact hc'
  refine hsame ?_
  cases hstep with
  | cipher hp halgo hnull hkey hlen hsalt =>
      obtain ⟨keys, salt, rfl⟩ := hsalt.rule
      rfl
  | auth hp halgo hnull hkey hlen hsalt =>
      obtain ⟨ivLen, keys, salt, rfl⟩ := hsalt.rule
      rfl
  | aead hp halgo hkey hlen hsalt =>
      obtain ⟨salt, rfl⟩ := takeSalt_rule hsalt
      rfl
  | _ => rfl

theorem SaSteps.rebuilt {base : SaRule} (h : SaSteps env opts c c') (hstart : Rebuilt base c) :
    Rebuilt base c' := by
  induction h with
  | nil => exact hstart
  | cons hstep _ ih => exact ih (hstep.rebuilt hstart)

/-- The same SA but for a salt that was drawn. -/
def SameSa (rule rule' : SaRule) : Prop :=
  { rule with salt := rule'.salt } = rule'
    ∧ (rule.salt = rule'.salt ∨ RandomSalt rule'.cipherAlgo)

/-- Rules are the same when their parts are. -/
theorem ofParts_iff {base : SaRule} {s : SaOutline} {nums nums' : LastNums} {k k' : SaCrypto}
    {port sport dport : UInt16} {src src' dst dst' : IpAddr} :
    SameSa (base.ofParts s nums k port src dst sport dport)
        (base.ofParts s nums' k' port src' dst' sport dport)
      ↔ nums = nums' ∧ SaltAside k k' ∧ src = src' ∧ dst = dst' := by
  constructor
  · rintro ⟨hsame, hsalt⟩
    refine ⟨?_, ⟨congrArg SaRule.crypto hsame, hsalt⟩, ?_, ?_⟩
    · exact Prod.ext (congrArg (fun r : SaRule => r.mss) hsame)
        (Prod.ext (congrArg SaRule.esn hsame) (congrArg SaRule.fdirQid hsame))
    · exact congrArg (fun r : SaRule => r.src) hsame
    · exact congrArg (fun r : SaRule => r.dst) hsame
  · rintro ⟨rfl, ⟨hsame, hsalt⟩, rfl, rfl⟩
    rw [← hsame] at hsalt ⊢
    exact ⟨rfl, hsalt⟩

/-- The session type of a line that names no type or no port. -/
def SaOutline.settle (s : SaOutline) : SaOutline :=
  if !s.typeP || (!s.portidP && s.type ≠ .cpuCrypto) then { s with type := .none } else s

theorem settle_ofParts {base : SaRule} (h : Rebuilt base c) :
    c.settle = base.ofParts c.outline.settle c.nums c.rule.crypto c.rule.portid c.rule.src
      c.rule.dst c.rule.sport c.rule.dport := by
  unfold Rebuilt at h
  by_cases hfree :
      (!c.typeP || (!c.portidP && decide (c.rule.primary.type ≠ .cpuCrypto))) = true
  · have hsettle : c.settle = c.rule.setType .none := if_pos hfree
    have hout : c.outline.settle = { c.outline with type := .none } := if_pos hfree
    rw [hsettle, hout]
    conv => lhs; rw [h]
    rfl
  · have hsettle : c.settle = c.rule := if_neg hfree
    have hout : c.outline.settle = c.outline := if_neg hfree
    rw [hsettle, hout]
    exact h

/-! ## Addresses -/

/-- In a tunnel the addresses of the line are stored. -/
def AddrsStored (net : InetPton) (opts : List SaOpt) (rule : SaRule) : Prop :=
  isTunnel rule.flags = true → ∀ tok,
    (.src tok ∈ opts → AddrTaken net rule.flags IpAddr.zero tok rule.src)
      ∧ (.dst tok ∈ opts → AddrTaken net rule.flags IpAddr.zero tok rule.dst)

/-- In a tunnel every address stands behind the mode, or it is zero. -/
def AddrsFit (net : InetPton) (opts : List SaOpt) : Prop :=
  isTunnel (lineFlags opts) = true → ∀ pre o post tok, opts = pre ++ o :: post →
    o = .src tok ∨ o = .dst tok →
    (∃ name, .mode name ∈ pre)
      ∨ AddrTaken net (lineFlags opts) IpAddr.zero tok IpAddr.zero

variable {dir : Direction} {spi : UInt32} {cnt cnt' : IpsecSaCnt} {nb nb' : UInt32}
  {udp udp' : Bool}

/-- A source and how it was read. -/
theorem SaSteps.src_taken (h : SaSteps env opts (lineStart dir spi cnt nb udp) c)
    {pre post : List SaOpt} {tok : String} (hopts : opts = pre ++ .src tok :: post) :
    AddrTaken env.net (lineFlags pre) IpAddr.zero tok c.rule.src := by
  have honce := h.present.2.1
  rw [hopts] at h honce
  obtain ⟨c1, hpre, hrest⟩ := h.append
  rw [List.pairwise_append, List.pairwise_cons] at honce
  have hbefore : ∀ t, .src t ∉ pre := fun t ht => by
    have := honce.2.2 _ ht (.src tok) List.mem_cons_self
    exact Bool.false_ne_true this.symm
  have hbehind : ∀ t, .src t ∉ post := fun t ht => by
    have := honce.2.1.1 _ ht
    exact Bool.false_ne_true this.symm
  cases hrest with
  | cons hstep hpost =>
      have hkeep := hpost.src_keep hbehind
      have hzero : c1.rule.src = IpAddr.zero := hpre.src_keep hbefore
      have hflags := hpre.flags rfl
      cases hstep with
      | src hp haddr =>
          rw [hkeep, ← hflags]
          rwa [hzero] at haddr

/-- A destination and how it was read. -/
theorem SaSteps.dst_taken (h : SaSteps env opts (lineStart dir spi cnt nb udp) c)
    {pre post : List SaOpt} {tok : String} (hopts : opts = pre ++ .dst tok :: post) :
    AddrTaken env.net (lineFlags pre) IpAddr.zero tok c.rule.dst := by
  have honce := h.present.2.1
  rw [hopts] at h honce
  obtain ⟨c1, hpre, hrest⟩ := h.append
  rw [List.pairwise_append, List.pairwise_cons] at honce
  have hbefore : ∀ t, .dst t ∉ pre := fun t ht => by
    have := honce.2.2 _ ht (.dst tok) List.mem_cons_self
    exact Bool.false_ne_true this.symm
  have hbehind : ∀ t, .dst t ∉ post := fun t ht => by
    have := honce.2.1.1 _ ht
    exact Bool.false_ne_true this.symm
  cases hrest with
  | cons hstep hpost =>
      have hkeep := hpost.dst_keep hbehind
      have hzero : c1.rule.dst = IpAddr.zero := hpre.dst_keep hbefore
      have hflags := hpre.flags rfl
      cases hstep with
      | dst hp haddr =>
          rw [hkeep, ← hflags]
          rwa [hzero] at haddr

/-- **ADDRESSES** of a line are stored exactly when they fit. -/
theorem addrs_iff (h : SaSteps env opts (lineStart dir spi cnt nb udp) c) :
    AddrsStored env.net opts c.rule ↔ AddrsFit env.net opts := by
  have honce := h.present.2.1
  have hflags : c.rule.flags = lineFlags opts := h.flags rfl
  unfold AddrsStored AddrsFit
  rw [hflags]
  refine forall_congr' fun _ => ⟨fun hstored pre o post tok hopts ho => ?_, fun hfit tok => ?_⟩
  · rcases ho with rfl | rfl
    · refine (addr_stored_iff honce hopts (h.src_taken hopts)).1.mp ((hstored tok).1 ?_)
      rw [hopts]
      simp
    · refine (addr_stored_iff honce hopts (h.dst_taken hopts)).1.mp ((hstored tok).2 ?_)
      rw [hopts]
      simp
  · refine ⟨fun hmem => ?_, fun hmem => ?_⟩
    · obtain ⟨pre, post, hopts⟩ := List.append_of_mem hmem
      exact (addr_stored_iff honce hopts (h.src_taken hopts)).1.mpr
        (hfit pre _ post tok hopts (.inl rfl))
    · obtain ⟨pre, post, hopts⟩ := List.append_of_mem hmem
      exact (addr_stored_iff honce hopts (h.dst_taken hopts)).1.mpr
        (hfit pre _ post tok hopts (.inr rfl))

/-- Stored addresses are the same, whatever the order. -/
theorem addrs_same {net : InetPton} {f : UInt16} {l l' : List SaOpt} {a a' : IpAddr}
    {opt : String → SaOpt} (hmem : ∀ tok, opt tok ∈ l ↔ opt tok ∈ l')
    (hnone : (∀ tok, opt tok ∉ l) → a = IpAddr.zero)
    (hnone' : (∀ tok, opt tok ∉ l') → a' = IpAddr.zero)
    (hother : isTunnel f = false → a = IpAddr.zero)
    (hother' : isTunnel f = false → a' = IpAddr.zero)
    (h : isTunnel f = true → ∀ tok, opt tok ∈ l → AddrTaken net f IpAddr.zero tok a)
    (h' : isTunnel f = true → ∀ tok, opt tok ∈ l' → AddrTaken net f IpAddr.zero tok a') :
    a = a' := by
  cases hf : isTunnel f with
  | false => rw [hother hf, hother' hf]
  | true =>
      by_cases hthere : ∃ tok, opt tok ∈ l
      · obtain ⟨tok, htok⟩ := hthere
        exact AddrTaken.unique (h hf tok htok) (h' hf tok ((hmem tok).mp htok))
      · have hthere : ∀ tok, opt tok ∉ l := fun tok htok => hthere ⟨tok, htok⟩
        rw [hnone hthere, hnone' fun tok htok => hthere tok ((hmem tok).mpr htok)]

/-- The source of a line without a tunnel. -/
theorem SaSteps.src_other (h : SaSteps env opts (lineStart dir spi cnt nb udp) c)
    (hf : isTunnel (lineFlags opts) = false) : c.rule.src = IpAddr.zero := by
  by_cases hthere : ∃ tok, .src tok ∈ opts
  · obtain ⟨tok, htok⟩ := hthere
    obtain ⟨pre, post, hopts⟩ := List.append_of_mem htok
    exact (addr_stored_iff h.present.2.1 hopts (h.src_taken hopts)).2 hf
  · exact h.src_keep fun tok htok => hthere ⟨tok, htok⟩

/-- The destination of a line without a tunnel. -/
theorem SaSteps.dst_other (h : SaSteps env opts (lineStart dir spi cnt nb udp) c)
    (hf : isTunnel (lineFlags opts) = false) : c.rule.dst = IpAddr.zero := by
  by_cases hthere : ∃ tok, .dst tok ∈ opts
  · obtain ⟨tok, htok⟩ := hthere
    obtain ⟨pre, post, hopts⟩ := List.append_of_mem htok
    exact (addr_stored_iff h.present.2.1 hopts (h.dst_taken hopts)).2 hf
  · exact h.dst_keep fun tok htok => hthere ⟨tok, htok⟩

/-! ## Lines -/

/-- The order of the options makes no difference. -/
structure OrderFits (net : InetPton) (opts opts' : List SaOpt) : Prop where
  nums : lastNums opts = lastNums opts'
  algos : AlgosFit opts opts'
  addrs : AddrsFit net opts
  addrs' : AddrsFit net opts'

theorem lineStart_port (h : SaSteps env opts (lineStart dir spi cnt nb udp) c) :
    PortSpec (opts.flatMap optPorts) c.rule.portid := by
  have hstart : PortSpec [] 0xffff := by
    rw [PortSpec, if_pos rfl]
    exact nofun
  exact h.port hstart

/-- The addresses of a rule are those it had in the end. -/
theorem settle_stored {net : InetPton} :
    AddrsStored net opts c.settle ↔ AddrsStored net opts c.rule := by
  unfold SaCore.settle
  split
  · exact Iff.rfl
  · exact Iff.rfl

/-- **WHEN THE ORDER MAKES NO DIFFERENCE**: two lines with the same options are stored as the
    same SA, with the addresses of a tunnel in it, exactly when their order fits. -/
theorem order_iff (rand : UInt32) {t t' : SaTables} {tok : String} {tokens tokens' : List String}
    {st st' : ParseStatus} {rule rule' : SaRule} (h : Accepts env t tok tokens st rule)
    (h' : Accepts { env with rand := rand } t' tok tokens' st' rule')
    (hspi : tokens.head? = tokens'.head?) (hperm : (lineOpts tokens).Perm (lineOpts tokens')) :
    SameSa rule rule' ∧ AddrsStored env.net (lineOpts tokens) rule
        ∧ AddrsStored env.net (lineOpts tokens') rule'
      ↔ OrderFits env.net (lineOpts tokens) (lineOpts tokens') := by
  obtain ⟨spi, cnt, nb, udp, c, ⟨w, hw, -, rfl, -⟩, hsteps, hc, rfl⟩ := h.steps
  obtain ⟨spi', cnt', nb', udp', c', ⟨w', hw', -, rfl, -⟩, hsteps', hc', rfl⟩ := h'.steps
  cases (hw.symm.trans hspi).trans hw'
  generalize lineOpts tokens = opts, lineOpts tokens' = opts' at *
  have hmem : ∀ o, o ∈ opts ↔ o ∈ opts' := fun o => hperm.mem_iff
  -- what does not depend on the order
  have hout : c.outline = c'.outline := hsteps.outline_perm hsteps' hperm rfl
  have hflags : c'.rule.flags = c.rule.flags := (congrArg SaOutline.flags hout).symm
  have hport : c.rule.portid = c'.rule.portid :=
    (lineStart_port hsteps).unique (lineStart_port hsteps') fun p => by
      simp only [List.mem_flatMap, hmem]
  have hencaps := hsteps.encaps ⟨fun _ => ⟨rfl, rfl⟩, rfl, rfl⟩
  have hencaps' := hsteps'.encaps ⟨fun _ => ⟨rfl, rfl⟩, rfl, rfl⟩
  have hsport : c.rule.sport = c'.rule.sport := hencaps.sport.trans hencaps'.sport.symm
  have hdport : c.rule.dport = c'.rule.dport := by
    rw [hencaps.dport, hencaps'.dport, show c.rule.udpEncap = c'.rule.udpEncap from
      congrArg SaOutline.udpEncap hout, show c.rule.primary.type = c'.rule.primary.type from
      congrArg SaOutline.type hout]
  -- what does
  have hbase : ∀ cnt nb udp, Rebuilt (lineStart (lineDirection tok) (atoiText w) {} 0 false).rule
      (lineStart (lineDirection tok) (atoiText w) cnt nb udp) := fun _ _ _ => rfl
  have hsame : SameSa c.settle c'.settle ↔ lastNums opts = lastNums opts'
      ∧ AlgosFit opts opts' ∧ c.rule.src = c'.rule.src ∧ c.rule.dst = c'.rule.dst := by
    rw [settle_ofParts (hsteps.rebuilt (hbase _ _ _)),
      settle_ofParts (hsteps'.rebuilt (hbase _ _ _)), hout, hport, hsport, hdport]
    refine ofParts_iff.trans (and_congr ?_ (and_congr_left' ?_))
    · rw [hsteps.foldl SaCore.nums takeNum SaStep.nums,
        hsteps'.foldl SaCore.nums takeNum SaStep.nums]
      rfl
    · exact algos_iff hsteps hc hsteps' hc' hperm
  rw [hsame, settle_stored, settle_stored, addrs_iff hsteps, addrs_iff hsteps']
  constructor
  · rintro ⟨⟨hnums, halgos, -, -⟩, haddrs, haddrs'⟩
    exact ⟨hnums, halgos, haddrs, haddrs'⟩
  · rintro ⟨hnums, halgos, haddrs, haddrs'⟩
    have hstored := (addrs_iff hsteps).mpr haddrs
    have hstored' := (addrs_iff hsteps').mpr haddrs'
    unfold AddrsStored at hstored hstored'
    rw [hflags] at hstored'
    refine ⟨⟨hnums, halgos, ?_, ?_⟩, haddrs, haddrs'⟩
    · exact addrs_same (fun tok => hmem _) hsteps.src_keep hsteps'.src_keep
        (fun hf => hsteps.src_other (hsteps.flags rfl ▸ hf))
        (fun hf => hsteps'.src_other (hsteps'.flags rfl ▸ hflags ▸ hf))
        (fun hf tok => (hstored hf tok).1) (fun hf tok => (hstored' hf tok).1)
    · exact addrs_same (fun tok => hmem _) hsteps.dst_keep hsteps'.dst_keep
        (fun hf => hsteps.dst_other (hsteps.flags rfl ▸ hf))
        (fun hf => hsteps'.dst_other (hsteps'.flags rfl ▸ hflags ▸ hf))
        (fun hf tok => (hstored hf tok).2) (fun hf tok => (hstored' hf tok).2)

/-- A tunnel with its mode named first, and with its source named first. -/
def modeFirst : List String :=
  ["5", "mode", "ipv4-tunnel", "src", "192.168.100.100", "cipher_algo", "null", "auth_algo",
    "null"]

def srcFirst : List String :=
  ["5", "src", "192.168.100.100", "mode", "ipv4-tunnel", "cipher_algo", "null", "auth_algo",
    "null"]

def tunnelEnv : SaEnv := ⟨ParseAddr.longest, false, 0, true⟩

theorem tunnels_accepted :
    ∃ rule rule', Accepts tunnelEnv {} "in" modeFirst {} rule
      ∧ Accepts tunnelEnv {} "in" srcFirst {} rule' ∧ rule.src ≠ rule'.src :=
  ⟨_, _, ⟨_, _, rfl, rfl⟩, ⟨_, _, rfl, rfl⟩, by decide⟩

theorem order_iff_tunnels :
    ∃ rule rule', Accepts tunnelEnv {} "in" modeFirst {} rule
      ∧ (SameSa rule rule' ∧ AddrsStored tunnelEnv.net (lineOpts modeFirst) rule
          ∧ AddrsStored tunnelEnv.net (lineOpts srcFirst) rule'
        ↔ OrderFits tunnelEnv.net (lineOpts modeFirst) (lineOpts srcFirst)) := by
  obtain ⟨rule, rule', h, h', -⟩ := tunnels_accepted
  exact ⟨rule, rule', h, order_iff 0 h h' rfl (by decide)⟩

/-- **NOT SO**: the line whose source is named first has no source. -/
theorem source_dropped :
    ¬ ∀ (env : SaEnv) (rand : UInt32) {t t' : SaTables} {tok : String}
      {tokens tokens' : List String} {st st' : ParseStatus} {rule rule' : SaRule},
      Accepts env t tok tokens st rule →
      Accepts { env with rand := rand } t' tok tokens' st' rule' →
      tokens.head? = tokens'.head? → (lineOpts tokens).Perm (lineOpts tokens') →
      SameSa rule rule' ∧ AddrsStored env.net (lineOpts tokens) rule
        ∧ AddrsStored env.net (lineOpts tokens') rule' := by
  intro h
  obtain ⟨rule, rule', hmode, hsrc, hne⟩ := tunnels_accepted
  obtain ⟨⟨hsame, -⟩, -⟩ := h tunnelEnv 0 hmode hsrc rfl (by decide)
  have hsrc := congrArg (fun r : SaRule => r.src) hsame
  exact hne hsrc

end SaParse
