import IpsecSecgw.SaTypeProofs

/-! # Algorithms and keys of accepted SAs

    An accepted line names its mode once, and either an AEAD algorithm or a
    cipher and an authentication algorithm, and the rule carries the sizes of
    their lines in the tables.  The lengths of the keys are those of the texts
    unless a text is longer than the arrays: a cipher key of more than 130 bytes
    is written over `auth_key_len` (`wellFormed_iff`). -/

namespace SaParse

open ByteStore SaModel ParserModel

/-! ## Key texts -/

/-- The groups of a key text. -/
def groupsOf (key : String) : List (List Char) := keyGroups key.toList

/-- The text is one of key bytes: no group has more than two characters. -/
def KeyShort (key : String) : Prop := ∀ g ∈ groupsOf key, g.length ≤ 2

instance (key : String) : Decidable (KeyShort key) :=
  inferInstanceAs (Decidable (∀ g ∈ groupsOf key, g.length ≤ 2))

/-- The number of bytes a text gives, if it is one of key bytes. -/
def keyBytes (key : String) : Option Nat :=
  if KeyShort key then some (groupsOf key).length else none

/-- A byte of the text. -/
def keyByte (key : String) (i : Nat) : UInt8 := ((groupsOf key)[i]?).elim 0 strtolByte

/-! ## What is promised -/

/-- The cipher of an option. -/
def SaOpt.cipher? : SaOpt → Option (String × Option String)
  | .cipher name key => some (name, key)
  | _ => none

/-- The authentication algorithm of an option. -/
def SaOpt.auth? : SaOpt → Option (String × Option String)
  | .auth name key => some (name, key)
  | _ => none

/-- The AEAD algorithm of an option. -/
def SaOpt.aead? : SaOpt → Option (String × String)
  | .aead name key => some (name, key)
  | _ => none

/-- The algorithms the options name. -/
def ciphers (opts : List SaOpt) : List (String × Option String) := opts.filterMap SaOpt.cipher?
def auths (opts : List SaOpt) : List (String × Option String) := opts.filterMap SaOpt.auth?
def aeads (opts : List SaOpt) : List (String × String) := opts.filterMap SaOpt.aead?

/-- The bytes of a key that become the salt. -/
def SupportedCipherAlgo.saltLen (algo : SupportedCipherAlgo) : Nat :=
  if algo.algo = .aesCtr then 4 else 0

def SupportedAuthAlgo.saltLen (algo : SupportedAuthAlgo) : Nat :=
  if algo.algo = .aesGmac then 4 else 0

/-- The length is the number of key bytes given, but for those of the salt. -/
def LengthOf (key : Option String) (saltLen : Nat) (len : UInt16) : Prop :=
  match key with
  | none => len = 0
  | some key => keyBytes key = some (len.toNat + saltLen)

/-- An AEAD algorithm alone, with the sizes of its line. -/
def AeadFormed (opts : List SaOpt) (rule : SaRule) : Prop :=
  ciphers opts = [] ∧ auths opts = [] ∧ ∃ name key algo, aeads opts = [(name, key)]
    ∧ findMatchAeadAlgo name = some algo ∧ rule.aeadAlgo = algo.algo
    ∧ rule.blockSize = algo.blockSize ∧ rule.digestLen = algo.digestLen
    ∧ rule.ivLen = algo.ivLen ∧ LengthOf (some key) 4 rule.cipherKeyLen
    ∧ rule.authKeyLen = 0

/-- A cipher and an authentication algorithm, with the sizes of their lines. -/
def PairFormed (opts : List SaOpt) (rule : SaRule) : Prop :=
  aeads opts = [] ∧ ∃ cname ckey calgo aname akey aalgo,
    ciphers opts = [(cname, ckey)] ∧ auths opts = [(aname, akey)]
    ∧ findMatchCipherAlgo cname = some calgo ∧ findMatchAuthAlgo aname = some aalgo
    ∧ rule.cipherAlgo = calgo.algo ∧ rule.authAlgo = aalgo.algo
    ∧ rule.blockSize = calgo.blockSize ∧ rule.digestLen = aalgo.digestLen
    ∧ (rule.ivLen = calgo.ivLen ∨ rule.ivLen = aalgo.ivLen)
    ∧ LengthOf ckey (SupportedCipherAlgo.saltLen calgo) rule.cipherKeyLen
    ∧ LengthOf akey (SupportedAuthAlgo.saltLen aalgo) rule.authKeyLen

/-- The rule is one the data path can work with. -/
structure WellFormed (opts : List SaOpt) (rule : SaRule) : Prop where
  mode : ∃ md : SaMode, withoutTransportVersion rule.flags = md.flags
  algos : AeadFormed opts rule ∨ PairFormed opts rule
  blockSize : ∃ k, 2 ≤ k ∧ k ≤ 6 ∧ rule.blockSize.toNat = 2 ^ k
  digestLen : rule.digestLen.toNat ≤ 32
  ivLen : rule.ivLen.toNat ≤ 16
  type : IsOffload rule.primary.type → PortGiven opts

/-- The key text written to `cipher_key`. -/
def SaOpt.cipherKey? : SaOpt → Option String
  | .cipher _ key => key
  | .aead _ key => some key
  | _ => none

/-- The key text of an option. -/
def SaOpt.key? : SaOpt → Option String
  | .auth _ key => key
  | o => o.cipherKey?

/-- The length of the authentication key some options give. -/
def authLenGiven (opts : List SaOpt) : Nat :=
  match auths opts with
  | (name, some key) :: _ =>
      (groupsOf key).length
        - (findMatchAuthAlgo name).elim 0 SupportedAuthAlgo.saltLen
  | _ => 0

/-- What a cipher key writes over `auth_key_len` is this length. -/
def KeepsAuthLen (key : String) (n : Nat) : Prop :=
  (authKeyLenAt < (groupsOf key).length → keyByte key authKeyLenAt = UInt8.ofNat n)
    ∧ (authKeyLenAt + 1 < (groupsOf key).length → keyByte key (authKeyLenAt + 1) = 0)

/-- The cipher keys with no authentication algorithm behind them keep the length
    of the authentication key. -/
def AuthFits (opts : List SaOpt) : Prop :=
  ∀ before o after key, opts = before ++ o :: after → o.cipherKey? = some key →
    auths after = [] → KeepsAuthLen key (authLenGiven before)

/-- The key texts fit the arrays as far as it matters. -/
structure KeysFit (opts : List SaOpt) : Prop where
  short : ∀ o ∈ opts, ∀ key, o.key? = some key → KeyShort key
  auth : AuthFits opts

variable {env : SaEnv} {opts : List SaOpt} {c c' : SaCore}

/-! ## Lengths in memory -/

theorem len16_toNat (keys : Nat → UInt8) (a : Nat) :
    (len16 keys a).toNat = (keys a).toNat + 256 * (keys (a + 1)).toNat := by
  have hlo := (keys a).toNat_lt
  have hhi := (keys (a + 1)).toNat_lt
  simp [len16, ofLe, ofBe, load, List.range_succ]
  omega

theorem len16_congr {keys keys' : Nat → UInt8} {a : Nat} (h0 : keys' a = keys a)
    (h1 : keys' (a + 1) = keys (a + 1)) : len16 keys' a = len16 keys a := by
  refine UInt16.toNat_inj.mp ?_
  rw [len16_toNat, len16_toNat, h0, h1]

theorem len16_setLen16 (keys : Nat → UInt8) (a : Nat) (n : UInt16) :
    len16 (setLen16 keys a n) a = n := by
  have hn := n.toNat_lt
  unfold len16 setLen16
  rw [load_store_eq _ (length_toLe 2 n.toNat), ofLe, toLe, List.reverse_reverse, ofBe_toBe,
    Nat.mod_eq_of_lt (by omega)]
  exact UInt16.ofNat_toNat

theorem setLen16_outside (keys : Nat → UInt8) {a i : Nat} (n : UInt16)
    (h : i < a ∨ a + 2 ≤ i) : setLen16 keys a n i = keys i :=
  store_outside keys (by rwa [length_toLe])

/-! ## Keys in memory -/

/-- What `parse_key_string` does with a text of key bytes. -/
structure Copied (a : Nat) (gs : List (List Char)) (n₀ : Nat) (keys : Nat → UInt8)
    (n : Nat) (keys' : Nat → UInt8) : Prop where
  count : n = n₀ + gs.length
  fits : gs ≠ [] → a + n ≤ keysEnd
  byte : ∀ j g, gs[j]? = some g → keys' (a + n₀ + j) = strtolByte g
  before : ∀ i, i < a + n₀ → keys' i = keys i
  behind : ∀ i, a + n ≤ i → keys' i = keys i

theorem storeGroups_copied {a : Nat} {gs : List (List Char)} {n₀ n : Nat}
    {keys keys' : Nat → UInt8} (hshort : ∀ g ∈ gs, g.length ≤ 2)
    (h : storeGroups a gs n₀ keys = .ok (n, keys')) : Copied a gs n₀ keys n keys' := by
  induction gs generalizing n₀ keys with
  | nil =>
      cases h
      refine ⟨rfl, fun h => absurd rfl h, ?_, fun _ _ => rfl, fun _ _ => rfl⟩
      intro j g hj
      cases hj
  | cons g gs ih =>
      rw [storeGroups, if_neg (Nat.not_lt.mpr (hshort g List.mem_cons_self))] at h
      split at h
      · cases h
      · rename_i hroom
        have hrest := ih (fun g' hg' => hshort g' (List.mem_cons_of_mem _ hg')) h
        have hcount := hrest.count
        constructor
        · rw [List.length_cons, hcount]
          omega
        · intro _
          cases gs with
          | nil =>
              rw [hcount, List.length_nil]
              omega
          | cons g' gs' => exact hrest.fits (List.cons_ne_nil _ _)
        · intro j g' hj
          cases j with
          | zero =>
              cases hj
              rw [Nat.add_zero, hrest.before _ (by omega), Function.update_self]
          | succ j =>
              have hbyte := hrest.byte j g' hj
              rwa [show a + n₀ + (j + 1) = a + (n₀ + 1) + j by omega]
        · intro i hi
          rw [hrest.before i (by omega), Function.update_of_ne (by omega)]
        · intro i hi
          rw [hrest.behind i hi, Function.update_of_ne (by omega)]

/-- Nothing is written before the array, whatever the text. -/
theorem storeGroups_before {a : Nat} {gs : List (List Char)} {n₀ n i : Nat}
    {keys keys' : Nat → UInt8} (h : storeGroups a gs n₀ keys = .ok (n, keys'))
    (hi : i < a + n₀) : keys' i = keys i := by
  induction gs generalizing n₀ keys with
  | nil =>
      cases h
      rfl
  | cons g gs ih =>
      unfold storeGroups at h
      split at h
      · cases h
        rfl
      · split at h
        · cases h
        · rw [ih h (by omega), Function.update_of_ne (by omega)]

theorem keyGroups_ne_nil (s : List Char) : keyGroups s ≠ [] := by
  cases s with
  | nil => exact List.cons_ne_nil _ _
  | cons ch s =>
      unfold keyGroups
      split
      · exact List.cons_ne_nil _ _
      · split <;> exact List.cons_ne_nil _ _

/-- A key text that has been taken. -/
structure KeyTaken (a : Nat) (key : String) (keys : Nat → UInt8) (n : Nat)
    (keys' : Nat → UInt8) : Prop where
  count : n = (groupsOf key).length
  fits : a + n ≤ keysEnd
  byte : ∀ i, i < n → keys' (a + i) = keyByte key i
  before : ∀ i, i < a → keys' i = keys i
  behind : ∀ i, a + n ≤ i → keys' i = keys i

theorem parseKeyString_taken {a n : Nat} {key : String} {keys keys' : Nat → UInt8}
    (hshort : KeyShort key) (h : parseKeyString a key keys = .ok (n, keys')) :
    KeyTaken a key keys n keys' := by
  have hcopied := storeGroups_copied hshort h
  have hcount : n = (groupsOf key).length := by
    rw [hcopied.count, Nat.zero_add]
  refine ⟨hcount, hcopied.fits (keyGroups_ne_nil _), ?_, hcopied.before, hcopied.behind⟩
  intro i hi
  rw [hcount] at hi
  have hget := List.getElem?_eq_getElem hi
  have hbyte := hcopied.byte i _ hget
  rw [keyByte, hget]
  exact hbyte

/-- The number of bytes is the length it was compared with. -/
theorem KeyTaken.length {a n lenAt : Nat} {key : String} {keys keys' : Nat → UInt8}
    (h : KeyTaken a key keys n keys')
    (hlen : UInt32.ofNat n = (len16 keys' lenAt).toUInt32) :
    (len16 keys' lenAt).toNat = (groupsOf key).length := by
  have hfits := h.fits
  have hval := congrArg UInt32.toNat hlen
  rw [UInt32.toNat_ofNat', UInt16.toNat_toUInt32, Nat.mod_eq_of_lt (by
    unfold keysEnd at hfits
    omega)] at hval
  rw [← hval, h.count]

/-- The length behind a salt. -/
theorem KeyTaken.salt {a n lenAt : Nat} {key : String} {keys : Nat → UInt8}
    {rule rule' : SaRule} (h : KeyTaken a key keys n rule.keys)
    (hsalt : rule.takeSalt a lenAt (UInt32.ofNat n) = .ok rule') :
    (len16 rule'.keys lenAt).toNat + 4 = (groupsOf key).length := by
  have hfits := h.fits
  unfold SaRule.takeSalt at hsalt
  dsimp only at hsalt
  split at hsalt
  · cases hsalt
  · rename_i hroom
    cases hsalt
    rw [len16_setLen16, ← h.count]
    have hn : (UInt32.ofNat n).toNat = n := by
      rw [UInt32.toNat_ofNat', Nat.mod_eq_of_lt (by unfold keysEnd at hfits; omega)]
    have hsub : (UInt32.ofNat n - 4).toNat = (2 ^ 32 - 4 + n) % 2 ^ 32 := by
      rw [UInt32.toNat_sub, hn]
      rfl
    unfold keysEnd at hfits hroom
    rw [hsub] at hroom
    rw [UInt32.toNat_toUInt16, hsub]
    omega

/-- Behind the length a salt leaves the memory as it is. -/
theorem takeSalt_outside {rule rule' : SaRule} {a lenAt i : Nat} {n : UInt32}
    (h : rule.takeSalt a lenAt n = .ok rule') (hi : i < lenAt ∨ lenAt + 2 ≤ i) :
    rule'.keys i = rule.keys i := by
  obtain ⟨salt, rfl⟩ := takeSalt_rule h
  exact setLen16_outside _ _ hi

theorem lengthOf_some {key : String} {saltLen : Nat} {len : UInt16} (hshort : KeyShort key)
    (h : len.toNat + saltLen = (groupsOf key).length) : LengthOf (some key) saltLen len := by
  show keyBytes key = some (len.toNat + saltLen)
  rw [keyBytes, if_pos hshort, h]

/-- The cipher key behind its option. -/
theorem CipherSalted.lengthOf {rand : UInt32} {algo : SupportedCipherAlgo} {n : Nat}
    {key : String} {keys : Nat → UInt8} {rule rule' : SaRule} (hshort : KeyShort key)
    (hkey : KeyTaken cipherKeyAt key keys n rule.keys)
    (hlen : UInt32.ofNat n = (len16 rule.keys cipherKeyLenAt).toUInt32)
    (h : CipherSalted rand algo (UInt32.ofNat n) rule rule') :
    LengthOf (some key) (SupportedCipherAlgo.saltLen algo) rule'.cipherKeyLen
      ∧ ∀ i, authKeyAt ≤ i → rule'.keys i = rule.keys i := by
  unfold CipherSalted at h
  unfold SupportedCipherAlgo.saltLen
  split at h
  · rename_i hctr
    rw [if_pos hctr]
    exact ⟨lengthOf_some hshort (hkey.salt h), fun i hi => takeSalt_outside h (.inr hi)⟩
  · rename_i hctr
    rw [if_neg hctr]
    rw [h]
    exact ⟨lengthOf_some hshort (hkey.length hlen), fun _ _ => rfl⟩

/-- The authentication key behind its option. -/
theorem AuthSalted.lengthOf {algo : SupportedAuthAlgo} {n : Nat} {key : String}
    {keys : Nat → UInt8} {rule rule' : SaRule}
    (hkey : KeyTaken authKeyAt key keys n rule.keys)
    (hlen : UInt32.ofNat n = (len16 rule.keys authKeyLenAt).toUInt32)
    (h : AuthSalted algo (UInt32.ofNat n) rule rule') :
    rule'.authKeyLen.toNat + SupportedAuthAlgo.saltLen algo = (groupsOf key).length
      ∧ ∀ i, i < authKeyLenAt → rule'.keys i = rule.keys i := by
  unfold AuthSalted at h
  unfold SupportedAuthAlgo.saltLen
  split at h
  · rename_i hgmac
    rw [if_pos hgmac]
    refine ⟨?_, ?_⟩
    · exact @KeyTaken.salt authKeyAt n authKeyLenAt key keys
        { rule with ivLen := algo.ivLen } rule' hkey h
    · intro i hi
      exact @takeSalt_outside { rule with ivLen := algo.ivLen } rule' authKeyAt
        authKeyLenAt i _ h (.inl hi)
  · rename_i hgmac
    rw [if_neg hgmac, h]
    exact ⟨hkey.length hlen, fun _ _ => rfl⟩

/-- **OVERRUN**: a cipher key leaves the length of the authentication key exactly
    when the bytes it writes there are that length. -/
theorem KeyTaken.authLen {key : String} {n e : Nat} {keys keys' : Nat → UInt8}
    (h : KeyTaken cipherKeyAt key keys n keys') (he : e ≤ 255)
    (hkeys : (len16 keys authKeyLenAt).toNat = e) :
    (len16 keys' authKeyLenAt).toNat = e ↔ KeepsAuthLen key e := by
  have hbytes : ∀ k : Nat → UInt8, (len16 k authKeyLenAt).toNat = e
      ↔ k authKeyLenAt = UInt8.ofNat e ∧ k (authKeyLenAt + 1) = 0 := by
    intro k
    have hlo := (k authKeyLenAt).toNat_lt
    have hof : (UInt8.ofNat e).toNat = e := by
      rw [UInt8.toNat_ofNat', Nat.mod_eq_of_lt (by omega)]
    rw [len16_toNat, ← UInt8.toNat_inj, ← UInt8.toNat_inj, hof]
    change _ ↔ _ ∧ _ = 0
    omega
  have hbyte : ∀ i v, keys i = v →
      (keys' i = v ↔ (i < (groupsOf key).length → keyByte key i = v)) := by
    intro i v hi
    rw [← h.count]
    by_cases hin : i < n
    · have hk := h.byte i hin
      rw [cipherKeyAt, Nat.zero_add] at hk
      rw [hk]
      exact ⟨fun hv _ => hv, fun hv => hv hin⟩
    · rw [h.behind i (by rw [cipherKeyAt]; omega), hi]
      exact ⟨fun _ hlt => absurd hlt hin, fun _ => rfl⟩
  obtain ⟨hlo, hhi⟩ := (hbytes keys).mp hkeys
  rw [hbytes keys', hbyte _ _ hlo, hbyte _ _ hhi]
  exact Iff.rfl

/-! ## Steps -/

/-- The key texts given so far are of key bytes. -/
def ShortKeys (opts : List SaOpt) : Prop :=
  ∀ o ∈ opts, ∀ key, o.key? = some key → KeyShort key

/-- What is known of the algorithms behind some options. -/
structure KeyRead (opts : List SaOpt) (c : SaCore) : Prop where
  noCipher : c.cipherAlgoP = false → ciphers opts = []
  noAuth : c.authAlgoP = false → auths opts = []
  noAead : c.aeadAlgoP = false → aeads opts = [] ∧ c.rule.aeadAlgo = .unset
  cipher : c.cipherAlgoP = true → ∃ name key algo, ciphers opts = [(name, key)]
    ∧ findMatchCipherAlgo name = some algo ∧ (c.aeadAlgoP = false →
      c.rule.cipherAlgo = algo.algo ∧ c.rule.blockSize = algo.blockSize
      ∧ (c.rule.ivLen = algo.ivLen ∨ ∃ name key algo, auths opts = [(name, key)]
        ∧ findMatchAuthAlgo name = some algo ∧ algo.algo = .aesGmac
        ∧ c.rule.ivLen = algo.ivLen)
      ∧ (ShortKeys opts →
        LengthOf key (SupportedCipherAlgo.saltLen algo) c.rule.cipherKeyLen))
  auth : c.authAlgoP = true → ∃ name key algo, auths opts = [(name, key)]
    ∧ findMatchAuthAlgo name = some algo ∧ (c.aeadAlgoP = false →
      c.rule.authAlgo = algo.algo ∧ c.rule.digestLen = algo.digestLen)
    ∧ (ShortKeys opts → ∀ text, key = some text →
      SupportedAuthAlgo.saltLen algo ≤ (groupsOf text).length
        ∧ (groupsOf text).length ≤ 68)
  aead : c.aeadAlgoP = true → ∃ name key algo, aeads opts = [(name, key)]
    ∧ findMatchAeadAlgo name = some algo ∧ (c.cipherAlgoP = false → c.authAlgoP = false →
      c.rule.aeadAlgo = algo.algo ∧ c.rule.blockSize = algo.blockSize
      ∧ c.rule.digestLen = algo.digestLen ∧ c.rule.ivLen = algo.ivLen
      ∧ (ShortKeys opts → LengthOf (some key) 4 c.rule.cipherKeyLen))
  authLen : c.cipherAlgoP = false ∨ c.aeadAlgoP = false → ShortKeys opts →
    (c.rule.authKeyLen.toNat = authLenGiven opts ↔ AuthFits opts)

theorem ciphers_concat (o : SaOpt) :
    ciphers (opts ++ [o]) = ciphers opts ++ o.cipher?.toList := by
  rw [ciphers, List.filterMap_append]
  cases h : o.cipher? <;> simp [ciphers, h]

theorem auths_concat (o : SaOpt) :
    auths (opts ++ [o]) = auths opts ++ o.auth?.toList := by
  rw [auths, List.filterMap_append]
  cases h : o.auth? <;> simp [auths, h]

theorem aeads_concat (o : SaOpt) :
    aeads (opts ++ [o]) = aeads opts ++ o.aead?.toList := by
  rw [aeads, List.filterMap_append]
  cases h : o.aead? <;> simp [aeads, h]

theorem shortKeys_concat (o : SaOpt) : ShortKeys (opts ++ [o]) ↔
    ShortKeys opts ∧ ∀ key, o.key? = some key → KeyShort key := by
  simp [ShortKeys, or_imp, forall_and]

theorem authFits_concat (o : SaOpt) : AuthFits (opts ++ [o]) ↔
    (o.auth? = none → AuthFits opts)
      ∧ ∀ key, o.cipherKey? = some key → KeepsAuthLen key (authLenGiven opts) := by
  constructor
  · intro h
    refine ⟨?_, fun key hkey => h opts o [] key rfl hkey rfl⟩
    intro ho before x after key hsplit hkey hafter
    refine h before x (after ++ [o]) key (by rw [hsplit, List.append_assoc]; rfl) hkey ?_
    rw [auths_concat, hafter, ho]
    rfl
  · rintro ⟨hopts, ho⟩ before x after key hsplit hkey hafter
    rcases List.eq_nil_or_concat' after with rfl | ⟨after, o', rfl⟩
    · obtain ⟨rfl, hx⟩ := List.append_inj' hsplit rfl
      cases hx
      exact ho key hkey
    · rw [← List.cons_append, ← List.append_assoc] at hsplit
      obtain ⟨hbefore, hx⟩ := List.append_inj' hsplit rfl
      cases hx
      rw [auths_concat, List.append_eq_nil_iff] at hafter
      refine hopts ?_ before x after key hbefore hkey hafter.1
      cases hauth : o.auth? with
      | none => rfl
      | some a =>
          rw [hauth] at hafter
          cases hafter.2

/-- Without a cipher key nothing is written over the length. -/
theorem authFits_of_nil (hc : ciphers opts = []) (ha : aeads opts = []) : AuthFits opts := by
  rintro before o after key rfl hkey -
  cases o with
  | cipher name k => simp [ciphers, SaOpt.cipher?] at hc
  | aead name k => simp [aeads, SaOpt.aead?] at ha
  | _ => cases hkey

/-- The variables `KeyRead` looks at. -/
structure SameKeys (c c' : SaCore) : Prop where
  cipherAlgoP : c'.cipherAlgoP = c.cipherAlgoP
  authAlgoP : c'.authAlgoP = c.authAlgoP
  aeadAlgoP : c'.aeadAlgoP = c.aeadAlgoP
  cipherAlgo : c'.rule.cipherAlgo = c.rule.cipherAlgo
  authAlgo : c'.rule.authAlgo = c.rule.authAlgo
  aeadAlgo : c'.rule.aeadAlgo = c.rule.aeadAlgo
  digestLen : c'.rule.digestLen = c.rule.digestLen
  ivLen : c'.rule.ivLen = c.rule.ivLen
  blockSize : c'.rule.blockSize = c.rule.blockSize
  keys : c'.rule.keys = c.rule.keys

/-- The options that write them. -/
def SaOpt.ofAlgo : SaOpt → Bool
  | .cipher _ _ => true
  | .auth _ _ => true
  | .aead _ _ => true
  | _ => false

/-- **FRAME**: the other options leave them. -/
theorem SaStep.sameKeys {o : SaOpt} (h : SaStep env o c c') (ho : o.ofAlgo = false) :
    SameKeys c c' := by
  cases h with
  | cipherNull => cases ho
  | cipher => cases ho
  | authNull => cases ho
  | auth => cases ho
  | aead => cases ho
  | _ => exact ⟨rfl, rfl, rfl, rfl, rfl, rfl, rfl, rfl, rfl, rfl⟩

/-- What is known does not change with the other options. -/
theorem KeyRead.same {o : SaOpt} (h : KeyRead opts c) (hs : SameKeys c c')
    (ho : o.ofAlgo = false) : KeyRead (opts ++ [o]) c' := by
  have hnone : o.cipher? = none ∧ o.auth? = none ∧ o.aead? = none ∧ o.key? = none
      ∧ o.cipherKey? = none := by
    cases o with
    | cipher => cases ho
    | auth => cases ho
    | aead => cases ho
    | _ => exact ⟨rfl, rfl, rfl, rfl, rfl⟩
  obtain ⟨hcipher, hauth, haead, hkey, hcipherKey⟩ := hnone
  have hciphers : ciphers (opts ++ [o]) = ciphers opts := by
    rw [ciphers_concat, hcipher]
    exact List.append_nil _
  have hauths : auths (opts ++ [o]) = auths opts := by
    rw [auths_concat, hauth]
    exact List.append_nil _
  have haeads : aeads (opts ++ [o]) = aeads opts := by
    rw [aeads_concat, haead]
    exact List.append_nil _
  have hshort : ShortKeys (opts ++ [o]) ↔ ShortKeys opts := by
    simp [shortKeys_concat, hkey]
  have hfits : AuthFits (opts ++ [o]) ↔ AuthFits opts := by
    simp [authFits_concat, hauth, hcipherKey]
  have hgiven : authLenGiven (opts ++ [o]) = authLenGiven opts := by
    rw [authLenGiven, authLenGiven, hauths]
  have hclen : c'.rule.cipherKeyLen = c.rule.cipherKeyLen := congrArg (len16 · _) hs.keys
  have halen : c'.rule.authKeyLen = c.rule.authKeyLen := congrArg (len16 · _) hs.keys
  constructor
  · rw [hs.cipherAlgoP, hciphers]
    exact h.noCipher
  · rw [hs.authAlgoP, hauths]
    exact h.noAuth
  · rw [hs.aeadAlgoP, haeads, hs.aeadAlgo]
    exact h.noAead
  · rw [hs.cipherAlgoP, hs.aeadAlgoP, hciphers, hauths, hs.cipherAlgo, hs.blockSize,
      hs.ivLen, hshort, hclen]
    exact h.cipher
  · rw [hs.authAlgoP, hs.aeadAlgoP, hauths, hs.authAlgo, hs.digestLen, hshort]
    exact h.auth
  · rw [hs.aeadAlgoP, hs.cipherAlgoP, hs.authAlgoP, haeads, hs.aeadAlgo, hs.blockSize,
      hs.digestLen, hs.ivLen, hshort, hclen]
    exact h.aead
  · rw [hs.cipherAlgoP, hs.aeadAlgoP, hshort, halen, hgiven, hfits]
    exact h.authLen

/-- The length of the authentication key before any cipher key. -/
theorem KeyRead.authLen_of_clean (h : KeyRead opts c) (hc : c.cipherAlgoP = false)
    (ha : c.aeadAlgoP = false) (hshort : ShortKeys opts) :
    c.rule.authKeyLen.toNat = authLenGiven opts :=
  (h.authLen (.inl hc) hshort).mpr
    (authFits_of_nil (h.noCipher hc) (h.noAead ha).1)

/-- No authentication key is longer than the arrays behind it. -/
theorem KeyRead.authLen_le (h : KeyRead opts c) (hshort : ShortKeys opts) :
    authLenGiven opts ≤ 255 := by
  cases hp : c.authAlgoP with
  | false =>
      rw [authLenGiven, h.noAuth hp]
      exact Nat.zero_le _
  | true =>
      obtain ⟨name, key, algo, hauths, -, -, hlen⟩ := h.auth hp
      rw [authLenGiven, hauths]
      cases key with
      | none => exact Nat.zero_le _
      | some text =>
          have hle := (hlen hshort text rfl).2
          show (groupsOf text).length - _ ≤ 255
          omega

/-- Behind a cipher or AEAD key the length of the authentication key is the one
    given exactly when the key keeps it. -/
theorem KeyRead.authLen_cipherKey {o : SaOpt} {key : String} {n : Nat}
    {keys keys' : Nat → UInt8} (h : KeyRead opts c) (hc : c.cipherAlgoP = false)
    (ha : c.aeadAlgoP = false) (hauth : o.auth? = none) (ho : o.cipherKey? = some key)
    (hshort : ShortKeys opts) (hkeys : len16 keys authKeyLenAt = c.rule.authKeyLen)
    (htaken : KeyTaken cipherKeyAt key keys n keys') :
    (len16 keys' authKeyLenAt).toNat = authLenGiven (opts ++ [o])
      ↔ AuthFits (opts ++ [o]) := by
  have hgiven : authLenGiven (opts ++ [o]) = authLenGiven opts := by
    rw [authLenGiven, authLenGiven, auths_concat, hauth, Option.toList_none, List.append_nil]
  have hclean := h.authLen_of_clean hc ha hshort
  rw [← hkeys] at hclean
  rw [hgiven, htaken.authLen (h.authLen_le hshort) hclean, authFits_concat]
  constructor
  · intro hkeep
    refine ⟨fun _ => authFits_of_nil (h.noCipher hc) (h.noAead ha).1, ?_⟩
    intro key' hkey'
    rw [ho] at hkey'
    cases hkey'
    exact hkeep
  · intro hfits
    exact hfits.2 key ho

/-- The line of a cipher leaves the length of the authentication key. -/
theorem setCipher_authKeyLen (rule : SaRule) (algo : SupportedCipherAlgo) :
    (rule.setCipher algo).authKeyLen = rule.authKeyLen := by
  show len16 (setLen16 rule.keys cipherKeyLenAt algo.keyLen) authKeyLenAt = _
  exact len16_congr (setLen16_outside _ _ (.inr (by decide)))
    (setLen16_outside _ _ (.inr (by decide)))

theorem setAead_authKeyLen (rule : SaRule) (algo : SupportedAeadAlgo) :
    (rule.setAead algo).authKeyLen = rule.authKeyLen := by
  show len16 (setLen16 (setLen16 rule.keys cipherKeyLenAt algo.keyLen) aadLenAt algo.aadLen)
    authKeyLenAt = _
  refine (len16_congr (setLen16_outside _ _ (.inl (by decide)))
    (setLen16_outside _ _ (.inl (by decide)))).trans ?_
  exact len16_congr (setLen16_outside _ _ (.inr (by decide)))
    (setLen16_outside _ _ (.inr (by decide)))

/-- An option that names no authentication algorithm and brings no key leaves the
    account of the authentication key. -/
theorem KeyRead.authLen_noKey {o : SaOpt} (h : KeyRead opts c) (hauth : o.auth? = none)
    (hkey : o.cipherKey? = none) (hlen : c'.rule.authKeyLen = c.rule.authKeyLen)
    (hp : c.cipherAlgoP = false ∨ c.aeadAlgoP = false) (hshort : ShortKeys (opts ++ [o])) :
    c'.rule.authKeyLen.toNat = authLenGiven (opts ++ [o]) ↔ AuthFits (opts ++ [o]) := by
  have hgiven : authLenGiven (opts ++ [o]) = authLenGiven opts := by
    rw [authLenGiven, authLenGiven, auths_concat, hauth, Option.toList_none, List.append_nil]
  have hfits : AuthFits (opts ++ [o]) ↔ AuthFits opts := by
    simp [authFits_concat, hauth, hkey]
  rw [hlen, hgiven, hfits]
  exact h.authLen hp ((shortKeys_concat o).mp hshort).1

theorem KeyRead.cipherNull {name : String} {algo : SupportedCipherAlgo}
    (h : KeyRead opts c) (hp : c.cipherAlgoP = false)
    (halgo : findMatchCipherAlgo name = some algo) (hnull : algo.algo = .null) :
    KeyRead (opts ++ [.cipher name none])
      { c with rule := c.rule.setCipher algo, cipherAlgoP := true } := by
  have hauths : auths (opts ++ [.cipher name none]) = auths opts := by
    rw [auths_concat]
    exact List.append_nil _
  have haeads : aeads (opts ++ [.cipher name none]) = aeads opts := by
    rw [aeads_concat]
    exact List.append_nil _
  have hciphers : ciphers (opts ++ [.cipher name none]) = [(name, none)] := by
    rw [ciphers_concat, h.noCipher hp]
    rfl
  have hlen : (c.rule.setCipher algo).cipherKeyLen = 0 := by
    have hkeyLen : ∀ e ∈ cipherKeywords.zip cipherAlgos, e.2.algo = .null →
        e.2.keyLen = 0 := by decide
    exact (len16_setLen16 _ _ _).trans (hkeyLen _ (mem_of_lookup halgo) hnull)
  have hauthLen := setCipher_authKeyLen c.rule algo
  constructor
  · intro hf
    cases hf
  · rw [hauths]
    exact h.noAuth
  · rw [haeads]
    exact h.noAead
  · intro _
    exact ⟨name, none, algo, hciphers, halgo, fun _ => ⟨rfl, rfl, .inl rfl, fun _ => hlen⟩⟩
  · intro hauth
    obtain ⟨aname, key, aalgo, haopts, hfind, hrule, hshort⟩ := h.auth hauth
    refine ⟨aname, key, aalgo, hauths.trans haopts, hfind, hrule, ?_⟩
    intro hs
    exact hshort ((shortKeys_concat _).mp hs).1
  · intro haead
    obtain ⟨aname, key, aalgo, haopts, hfind, -⟩ := h.aead haead
    exact ⟨aname, key, aalgo, haeads.trans haopts, hfind, (by intro hf; cases hf)⟩
  · intro hor hshort
    rcases hor with hf | ha
    · cases hf
    · exact h.authLen_noKey rfl rfl hauthLen (.inr ha) hshort

theorem KeyRead.cipherKey {rand : UInt32} {name key : String} {algo : SupportedCipherAlgo}
    {n : Nat} {keys : Nat → UInt8} {rule : SaRule} (h : KeyRead opts c)
    (hp : c.cipherAlgoP = false)
    (halgo : findMatchCipherAlgo name = some algo)
    (hkey : parseKeyString cipherKeyAt key (c.rule.setCipher algo).keys = .ok (n, keys))
    (hlen : UInt32.ofNat n = (len16 keys cipherKeyLenAt).toUInt32)
    (hsalt : CipherSalted rand algo (UInt32.ofNat n)
      { c.rule.setCipher algo with keys := keys } rule) :
    KeyRead (opts ++ [.cipher name (some key)])
      { c with rule := rule, cipherAlgoP := true } := by
  have hauths : auths (opts ++ [.cipher name (some key)]) = auths opts := by
    rw [auths_concat]
    exact List.append_nil _
  have haeads : aeads (opts ++ [.cipher name (some key)]) = aeads opts := by
    rw [aeads_concat]
    exact List.append_nil _
  have hciphers : ciphers (opts ++ [.cipher name (some key)]) = [(name, some key)] := by
    rw [ciphers_concat, h.noCipher hp]
    rfl
  -- the authentication key keeps its length until a key runs into it
  have hauthLen := setCipher_authKeyLen c.rule algo
  have hlens : ShortKeys (opts ++ [.cipher name (some key)]) →
      LengthOf (some key) (SupportedCipherAlgo.saltLen algo) rule.cipherKeyLen
        ∧ rule.authKeyLen = len16 keys authKeyLenAt
        ∧ KeyTaken cipherKeyAt key (c.rule.setCipher algo).keys n keys := by
    intro hshort
    have hkeyShort := ((shortKeys_concat _).mp hshort).2 key rfl
    have htaken := parseKeyString_taken hkeyShort hkey
    obtain ⟨hclen, hsame⟩ := @CipherSalted.lengthOf rand algo n key _
      { c.rule.setCipher algo with keys := keys } rule hkeyShort htaken hlen hsalt
    exact ⟨hclen, len16_congr (hsame _ (by decide)) (hsame _ (by decide)), htaken⟩
  obtain ⟨keys', salt, rfl⟩ := hsalt.rule
  constructor
  · intro hf
    cases hf
  · rw [hauths]
    exact h.noAuth
  · rw [haeads]
    exact h.noAead
  · intro _
    exact ⟨name, some key, algo, hciphers, halgo,
      fun _ => ⟨rfl, rfl, .inl rfl, fun hs => (hlens hs).1⟩⟩
  · intro hauth
    obtain ⟨aname, akey, aalgo, haopts, hfind, hrule, hshort⟩ := h.auth hauth
    refine ⟨aname, akey, aalgo, hauths.trans haopts, hfind, hrule, ?_⟩
    intro hs
    exact hshort ((shortKeys_concat _).mp hs).1
  · intro haead
    obtain ⟨aname, akey, aalgo, haopts, hfind, -⟩ := h.aead haead
    exact ⟨aname, akey, aalgo, haeads.trans haopts, hfind, (by intro hf; cases hf)⟩
  · intro hor hshort
    rcases hor with hf | ha
    · cases hf
    · obtain ⟨-, hauthKey, htaken⟩ := hlens hshort
      rw [hauthKey]
      exact h.authLen_cipherKey hp ha rfl rfl ((shortKeys_concat _).mp hshort).1 hauthLen
        htaken

/-- Behind an authentication algorithm the length is the one given. -/
theorem authFits_auth (opts : List SaOpt) (name : String) (key : Option String) :
    AuthFits (opts ++ [.auth name key]) := by
  refine (authFits_concat _).mpr ⟨?_, ?_⟩
  · intro h
    cases h
  · intro key h
    cases h

/-- What an authentication option leaves of the cipher. -/
structure AuthBeside (algo : SupportedAuthAlgo) (r r' : SaRule) : Prop where
  cipherAlgo : r'.cipherAlgo = r.cipherAlgo
  aeadAlgo : r'.aeadAlgo = r.aeadAlgo
  blockSize : r'.blockSize = r.blockSize
  authAlgo : r'.authAlgo = algo.algo
  digestLen : r'.digestLen = algo.digestLen
  ivLen : r'.ivLen = r.ivLen ∨ algo.algo = .aesGmac ∧ r'.ivLen = algo.ivLen
  cipherKeyLen : r'.cipherKeyLen = r.cipherKeyLen

/-- An authentication option, of whatever algorithm. -/
theorem KeyRead.authOption {name : String} {key : Option String}
    {algo : SupportedAuthAlgo} {rule : SaRule} (h : KeyRead opts c)
    (hp : c.authAlgoP = false) (halgo : findMatchAuthAlgo name = some algo)
    (hbeside : AuthBeside algo c.rule rule)
    (hlen : ShortKeys (opts ++ [.auth name key]) →
      rule.authKeyLen.toNat = authLenGiven [.auth name key]
        ∧ ∀ text, key = some text →
          SupportedAuthAlgo.saltLen algo ≤ (groupsOf text).length
            ∧ (groupsOf text).length ≤ 68) :
    KeyRead (opts ++ [.auth name key]) { c with rule := rule, authAlgoP := true } := by
  have hauths : auths (opts ++ [.auth name key]) = [(name, key)] := by
    rw [auths_concat, h.noAuth hp]
    rfl
  have haeads : aeads (opts ++ [.auth name key]) = aeads opts := by
    rw [aeads_concat]
    exact List.append_nil _
  have hciphers : ciphers (opts ++ [.auth name key]) = ciphers opts := by
    rw [ciphers_concat]
    exact List.append_nil _
  constructor
  · rw [hciphers]
    exact h.noCipher
  · intro hf
    cases hf
  · intro ha
    rw [haeads, hbeside.aeadAlgo]
    exact h.noAead ha
  · intro hcipher
    obtain ⟨cname, ckey, calgo, hcopts, hfind, hrule⟩ := h.cipher hcipher
    refine ⟨cname, ckey, calgo, hciphers.trans hcopts, hfind, ?_⟩
    intro ha
    obtain ⟨hca, hbs, hiv, hclen⟩ := hrule ha
    refine ⟨hbeside.cipherAlgo.trans hca, hbeside.blockSize.trans hbs, ?_, ?_⟩
    · -- AES-GMAC replaces the IV of the cipher by its own
      rcases hbeside.ivLen with hsame | ⟨hgmac, hown⟩
      · rcases hiv with hiv | ⟨n, k, a, hopts, -⟩
        · exact .inl (hsame.trans hiv)
        · rw [h.noAuth hp] at hopts
          cases hopts
      · exact .inr ⟨name, key, algo, hauths, halgo, hgmac, hown⟩
    · intro hs
      show LengthOf ckey _ rule.cipherKeyLen
      rw [hbeside.cipherKeyLen]
      exact hclen ((shortKeys_concat _).mp hs).1
  · intro _
    exact ⟨name, key, algo, hauths, halgo,
      fun _ => ⟨hbeside.authAlgo, hbeside.digestLen⟩, fun hs => (hlen hs).2⟩
  · intro haead
    obtain ⟨aname, akey, aalgo, haopts, hfind, -⟩ := h.aead haead
    exact ⟨aname, akey, aalgo, haeads.trans haopts, hfind, (by intro _ hf; cases hf)⟩
  · intro _ hs
    have hgiven : authLenGiven (opts ++ [.auth name key]) = authLenGiven [.auth name key] := by
      rw [authLenGiven, authLenGiven, hauths]
      rfl
    rw [hgiven]
    exact ⟨fun _ => authFits_auth opts name key, fun _ => (hlen hs).1⟩

/-- The line of an authentication algorithm leaves what lies before its key
    length. -/
theorem setAuth_keys (rule : SaRule) (algo : SupportedAuthAlgo) {i : Nat}
    (h : i < authKeyLenAt) : (rule.setAuth algo).keys i = rule.keys i := by
  show setLen16 rule.keys authKeyLenAt algo.keyLen i = rule.keys i
  exact setLen16_outside _ _ (.inl h)

theorem KeyRead.authNull {name : String} {algo : SupportedAuthAlgo} (h : KeyRead opts c)
    (hp : c.authAlgoP = false) (halgo : findMatchAuthAlgo name = some algo)
    (hnull : algo.algo = .null) :
    KeyRead (opts ++ [.auth name none])
      { c with rule := c.rule.setAuth algo, authAlgoP := true } := by
  refine h.authOption hp halgo ⟨rfl, rfl, rfl, rfl, rfl, .inl rfl, ?_⟩ ?_
  · exact len16_congr (setAuth_keys c.rule algo (by decide))
      (setAuth_keys c.rule algo (by decide))
  · intro _
    have hkeyLen : ∀ e ∈ authKeywords.zip authAlgos, e.2.algo = .null →
        e.2.keyLen = 0 := by decide
    have hzero : (c.rule.setAuth algo).authKeyLen = 0 :=
      (len16_setLen16 _ _ _).trans (hkeyLen _ (mem_of_lookup halgo) hnull)
    rw [hzero]
    refine ⟨rfl, ?_⟩
    intro text htext
    cases htext

/-- What the lines behind an authentication key do to the rule. -/
theorem AuthSalted.beside {algo : SupportedAuthAlgo} {n : UInt32} {r rule : SaRule}
    {keys : Nat → UInt8} (hkeys : ∀ i, i < authKeyAt → keys i = r.keys i)
    (h : AuthSalted algo n { r.setAuth algo with keys := keys } rule) :
    AuthBeside algo r rule := by
  unfold AuthSalted at h
  split at h
  · rename_i hgmac
    have hbefore : ∀ i, i < authKeyAt → rule.keys i = r.keys i := by
      intro i hi
      rw [← hkeys i hi]
      exact @takeSalt_outside { r.setAuth algo with keys := keys, ivLen := algo.ivLen } rule
        authKeyAt authKeyLenAt i n h (.inl (Nat.lt_trans hi (by decide)))
    have hclen : rule.cipherKeyLen = r.cipherKeyLen :=
      len16_congr (hbefore _ (by decide)) (hbefore _ (by decide))
    obtain ⟨salt, rfl⟩ := takeSalt_rule h
    exact ⟨rfl, rfl, rfl, rfl, rfl, .inr ⟨hgmac, rfl⟩, hclen⟩
  · subst h
    exact ⟨rfl, rfl, rfl, rfl, rfl, .inl rfl,
      len16_congr (hkeys _ (by decide)) (hkeys _ (by decide))⟩

theorem KeyRead.authKey {name key : String} {algo : SupportedAuthAlgo} {n : Nat}
    {keys : Nat → UInt8} {rule : SaRule} (h : KeyRead opts c) (hp : c.authAlgoP = false)
    (halgo : findMatchAuthAlgo name = some algo)
    (hkey : parseKeyString authKeyAt key (c.rule.setAuth algo).keys = .ok (n, keys))
    (hlen : UInt32.ofNat n = (len16 keys authKeyLenAt).toUInt32)
    (hsalt : AuthSalted algo (UInt32.ofNat n)
      { c.rule.setAuth algo with keys := keys } rule) :
    KeyRead (opts ++ [.auth name (some key)])
      { c with rule := rule, authAlgoP := true } := by
  have hbefore : ∀ i, i < authKeyAt → keys i = c.rule.keys i := by
    intro i hi
    rw [storeGroups_before hkey hi, setAuth_keys c.rule algo (Nat.lt_trans hi (by decide))]
  refine h.authOption hp halgo (hsalt.beside hbefore) ?_
  intro hshort
  have htaken := parseKeyString_taken (((shortKeys_concat _).mp hshort).2 key rfl) hkey
  have hfits := htaken.fits
  rw [htaken.count] at hfits
  obtain ⟨hlens, -⟩ := @AuthSalted.lengthOf algo n key _
    { c.rule.setAuth algo with keys := keys } rule htaken hlen hsalt
  have hgiven : authLenGiven [.auth name (some key)]
      = (groupsOf key).length - SupportedAuthAlgo.saltLen algo := by
    show (groupsOf key).length
      - (findMatchAuthAlgo name).elim 0 SupportedAuthAlgo.saltLen = _
    rw [halgo]
    rfl
  refine ⟨by rw [hgiven, ← hlens, Nat.add_sub_cancel], ?_⟩
  intro text htext
  cases htext
  unfold authKeyAt keysEnd at hfits
  exact ⟨Nat.le.intro ((Nat.add_comm _ _).trans hlens), by omega⟩

theorem KeyRead.aeadKey {name key : String} {algo : SupportedAeadAlgo} {n : Nat}
    {keys : Nat → UInt8} {rule : SaRule} (h : KeyRead opts c) (hp : c.aeadAlgoP = false)
    (halgo : findMatchAeadAlgo name = some algo)
    (hkey : parseKeyString cipherKeyAt key (c.rule.setAead algo).keys = .ok (n, keys))
    (hsalt : { c.rule.setAead algo with keys := keys }.takeSalt cipherKeyAt
      cipherKeyLenAt (UInt32.ofNat n) = .ok rule) :
    KeyRead (opts ++ [.aead name key]) { c with rule := rule, aeadAlgoP := true } := by
  have hauths : auths (opts ++ [.aead name key]) = auths opts := by
    rw [auths_concat]
    exact List.append_nil _
  have hciphers : ciphers (opts ++ [.aead name key]) = ciphers opts := by
    rw [ciphers_concat]
    exact List.append_nil _
  have haeads : aeads (opts ++ [.aead name key]) = [(name, key)] := by
    rw [aeads_concat, (h.noAead hp).1]
    rfl
  -- the key lies in the fields of the cipher key
  have hauthLen := setAead_authKeyLen c.rule algo
  have hlens : ShortKeys (opts ++ [.aead name key]) →
      LengthOf (some key) 4 rule.cipherKeyLen
        ∧ rule.authKeyLen = len16 keys authKeyLenAt
        ∧ KeyTaken cipherKeyAt key (c.rule.setAead algo).keys n keys := by
    intro hshort
    have hkeyShort := ((shortKeys_concat _).mp hshort).2 key rfl
    have htaken := parseKeyString_taken hkeyShort hkey
    -- taking the salt writes nothing behind the cipher key
    have hsame : ∀ i, authKeyAt ≤ i → rule.keys i = keys i := fun i hi =>
      @takeSalt_outside { c.rule.setAead algo with keys := keys } rule cipherKeyAt
        cipherKeyLenAt i _ hsalt (.inr hi)
    have hclen := @KeyTaken.salt cipherKeyAt n cipherKeyLenAt key _
      { c.rule.setAead algo with keys := keys } rule htaken hsalt
    exact ⟨lengthOf_some hkeyShort hclen,
      len16_congr (hsame _ (by decide)) (hsame _ (by decide)), htaken⟩
  obtain ⟨salt, rfl⟩ := takeSalt_rule hsalt
  constructor
  · rw [hciphers]
    exact h.noCipher
  · rw [hauths]
    exact h.noAuth
  · intro hf
    cases hf
  · intro hcipher
    obtain ⟨cname, ckey, calgo, hcopts, hfind, -⟩ := h.cipher hcipher
    exact ⟨cname, ckey, calgo, hciphers.trans hcopts, hfind, (by intro hf; cases hf)⟩
  · intro hauth
    obtain ⟨aname, akey, aalgo, haopts, hfind, -, hshort⟩ := h.auth hauth
    refine ⟨aname, akey, aalgo, hauths.trans haopts, hfind, (by intro hf; cases hf), ?_⟩
    intro hs
    exact hshort ((shortKeys_concat _).mp hs).1
  · intro _
    exact ⟨name, key, algo, haeads, halgo,
      fun _ _ => ⟨rfl, rfl, rfl, rfl, fun hs => (hlens hs).1⟩⟩
  · intro hor hshort
    rcases hor with hc | hf
    · obtain ⟨-, hauthKey, htaken⟩ := hlens hshort
      rw [hauthKey]
      exact h.authLen_cipherKey hc hp rfl rfl ((shortKeys_concat _).mp hshort).1 hauthLen
        htaken
    · cases hf

/-- **STEP**. -/
theorem KeyRead.step {o : SaOpt} (h : KeyRead opts c) (hstep : SaStep env o c c') :
    KeyRead (opts ++ [o]) c' := by
  by_cases ho : o.ofAlgo = false
  · exact h.same (hstep.sameKeys ho) ho
  cases hstep with
  | cipherNull hp halgo hnull => exact h.cipherNull hp halgo hnull
  | cipher hp halgo hnull hkey hlen hsalt => exact h.cipherKey hp halgo hkey hlen hsalt
  | authNull hp halgo hnull => exact h.authNull hp halgo hnull
  | auth hp halgo hnull hkey hlen hsalt => exact h.authKey hp halgo hkey hlen hsalt
  | aead hp halgo hkey hlen hsalt => exact h.aeadKey hp halgo hkey hsalt
  | _ => exact absurd rfl ho

/-! ## Modes -/

/-- What is known of the mode. -/
structure ModeRead (c : SaCore) : Prop where
  free : c.modeP = false → withoutTransportVersion c.rule.flags = 0
  mode : c.modeP = true → ∃ md : SaMode, withoutTransportVersion c.rule.flags = md.flags

theorem withoutTransportVersion_or (a b : UInt16) :
    withoutTransportVersion (a ||| b)
      = withoutTransportVersion a ||| withoutTransportVersion b := by
  refine UInt16.toBitVec_inj.mp ?_
  ext i
  simp [withoutTransportVersion, Bool.and_or_distrib_right]

/-- The mode is named once, and no other option touches its flags. -/
theorem ModeRead.step {o : SaOpt} (h : ModeRead c) (hstep : SaStep env o c c') :
    ModeRead c' := by
  cases hstep with
  | mode hp hmode =>
      rename_i md
      refine ⟨(by intro hf; cases hf), fun _ => ⟨md, ?_⟩⟩
      show withoutTransportVersion (c.rule.flags ||| md.flags) = md.flags
      rw [withoutTransportVersion_or, h.free hp]
      cases md <;> decide
  | telemetry =>
      have hflags : withoutTransportVersion (c.rule.flags ||| saTelemetryEnable)
          = withoutTransportVersion c.rule.flags := by
        rw [withoutTransportVersion_or]
        exact UInt16.or_zero
      refine ⟨fun hp => hflags.trans (h.free hp), fun hp => ?_⟩
      obtain ⟨md, hmd⟩ := h.mode hp
      exact ⟨md, hflags.trans hmd⟩
  | cipher hp halgo hnull hkey hlen hsalt =>
      obtain ⟨keys, salt, rfl⟩ := hsalt.rule
      exact ⟨h.free, h.mode⟩
  | auth hp halgo hnull hkey hlen hsalt =>
      obtain ⟨ivLen, keys, salt, rfl⟩ := hsalt.rule
      exact ⟨h.free, h.mode⟩
  | aead hp halgo hkey hlen hsalt =>
      obtain ⟨salt, rfl⟩ := takeSalt_rule hsalt
      exact ⟨h.free, h.mode⟩
  | _ => exact ⟨h.free, h.mode⟩

/-! ## Lines -/

/-- **TABLES**: an accepted rule carries the sizes of the algorithms it names. -/
theorem KeyRead.fromTables (h : KeyRead opts c) (hc : Complete c) :
    c.rule.toIpsecSa.FromTables := by
  rcases hc.algos with ⟨haead, hcipher, hauth⟩ | ⟨haead, hcipher, hauth⟩
  · obtain ⟨name, key, algo, -, hfind, hrule⟩ := h.aead haead
    obtain ⟨halgo, hbs, hd, hiv, -⟩ := hrule hcipher hauth
    exact .inl ⟨algo, (List.of_mem_zip (mem_of_lookup hfind)).2, halgo, hiv, hbs, hd⟩
  · obtain ⟨cname, ckey, calgo, -, hcfind, hcrule⟩ := h.cipher hcipher
    obtain ⟨aname, akey, aalgo, hauths, hafind, harule, -⟩ := h.auth hauth
    obtain ⟨hcalgo, hbs, hiv, -⟩ := hcrule haead
    obtain ⟨haalgo, hd⟩ := harule haead
    refine .inr ⟨(h.noAead haead).2, ?_, aalgo, ?_, haalgo, hd⟩
    · refine ⟨calgo, (List.of_mem_zip (mem_of_lookup hcfind)).2, hcalgo, hbs, ?_⟩
      rcases hiv with hiv | ⟨name, key, algo, hopts, hfind, hgmac, hiv⟩
      · exact .inl hiv
      · rw [hauths] at hopts
        cases hopts
        rw [hafind] at hfind
        cases hfind
        have hgmacIv : ∀ e ∈ authAlgos, e.algo = .aesGmac → e.ivLen = 8 := by decide
        refine .inr ⟨haalgo.trans hgmac, hiv.trans ?_⟩
        exact hgmacIv _ (List.of_mem_zip (mem_of_lookup hafind)).2 hgmac
    · exact (List.of_mem_zip (mem_of_lookup hafind)).2

/-- The key texts are those of the algorithms named. -/
theorem shortKeys_iff : ShortKeys opts ↔
    (∀ e ∈ ciphers opts, ∀ key, e.2 = some key → KeyShort key)
      ∧ (∀ e ∈ auths opts, ∀ key, e.2 = some key → KeyShort key)
      ∧ ∀ e ∈ aeads opts, KeyShort e.2 := by
  constructor
  · intro h
    refine ⟨?_, ?_, ?_⟩
    · intro e he key hkey
      obtain ⟨o, ho, hoe⟩ := List.mem_filterMap.mp he
      cases o with
      | cipher name k =>
          cases hoe
          exact h _ ho key hkey
      | _ => cases hoe
    · intro e he key hkey
      obtain ⟨o, ho, hoe⟩ := List.mem_filterMap.mp he
      cases o with
      | auth name k =>
          cases hoe
          exact h _ ho key hkey
      | _ => cases hoe
    · intro e he
      obtain ⟨o, ho, hoe⟩ := List.mem_filterMap.mp he
      cases o with
      | aead name k =>
          cases hoe
          exact h _ ho _ rfl
      | _ => cases hoe
  · rintro ⟨hc, ha, hd⟩ o ho key hkey
    cases o with
    | cipher name k => exact hc (name, k) (List.mem_filterMap.mpr ⟨_, ho, rfl⟩) key hkey
    | auth name k => exact ha (name, k) (List.mem_filterMap.mpr ⟨_, ho, rfl⟩) key hkey
    | aead name k =>
        cases hkey
        exact hd _ (List.mem_filterMap.mpr ⟨_, ho, rfl⟩)
    | _ => cases hkey

theorem LengthOf.short {key : Option String} {n : Nat} {len : UInt16}
    (h : LengthOf key n len) {text : String} (hkey : key = some text) : KeyShort text := by
  subst hkey
  have hbytes : keyBytes text = some (len.toNat + n) := h
  by_contra hlong
  rw [keyBytes, if_neg hlong] at hbytes
  cases hbytes

/-- The number of key bytes is the length that was given. -/
theorem lengthOf_auth {name : String} {key : Option String} {algo : SupportedAuthAlgo}
    {len : UInt16} (hauths : auths opts = [(name, key)])
    (hfind : findMatchAuthAlgo name = some algo) (hshort : ShortKeys opts)
    (hle : ∀ text, key = some text → SupportedAuthAlgo.saltLen algo
      ≤ (groupsOf text).length) :
    LengthOf key (SupportedAuthAlgo.saltLen algo) len
      ↔ len.toNat = authLenGiven opts := by
  cases key with
  | none =>
      have hgiven : authLenGiven opts = 0 := by
        rw [authLenGiven, hauths]
      rw [hgiven]
      exact UInt16.toNat_inj.symm
  | some text =>
      have hgiven : authLenGiven opts
          = (groupsOf text).length - SupportedAuthAlgo.saltLen algo := by
        rw [authLenGiven, hauths]
        show _ - (findMatchAuthAlgo name).elim 0 SupportedAuthAlgo.saltLen = _
        rw [hfind]
        rfl
      have htext : KeyShort text := (shortKeys_iff.mp hshort).2.1 _
        (hauths ▸ List.mem_singleton_self _) text rfl
      have hfit := hle text rfl
      rw [hgiven]
      show keyBytes text = some _ ↔ _
      rw [keyBytes, if_pos htext, Option.some.injEq]
      omega

/-- The algorithms of a rule are well formed when the keys fit, and only then. -/
theorem KeyRead.formed_iff (h : KeyRead opts c) (hc : Complete c) :
    AeadFormed opts c.rule ∨ PairFormed opts c.rule ↔ KeysFit opts := by
  -- one AEAD algorithm, or a cipher and an authentication algorithm
  rcases hc.algos with ⟨haead, hcipher, hauth⟩ | ⟨haead, hcipher, hauth⟩
  · have hciphers := h.noCipher hcipher
    have hauths := h.noAuth hauth
    obtain ⟨name, key, algo, haeads, hfind, hrule⟩ := h.aead haead
    obtain ⟨halgo, hbs, hd, hiv, hlen⟩ := hrule hcipher hauth
    -- no authentication key is given, so its length has to be zero
    have hgiven : authLenGiven opts = 0 := by
      rw [authLenGiven, hauths]
    have hshort : ShortKeys opts ↔ KeyShort key := by
      simp [shortKeys_iff, hciphers, hauths, haeads]
    constructor
    · rintro (⟨-, -, name', key', algo', haeads', -, -, -, -, -, hkey, hzero⟩ | hpair)
      · rw [haeads] at haeads'
        cases haeads'
        have hs := hshort.mpr (hkey.short rfl)
        refine ⟨hs, (h.authLen (.inl hcipher) hs).mp ?_⟩
        rw [hgiven, hzero]
        rfl
      · have hnone := hpair.1
        rw [haeads] at hnone
        cases hnone
    · intro hfit
      refine .inl ⟨hciphers, hauths, name, key, algo, haeads, hfind, halgo, hbs, hd, hiv,
        hlen hfit.short, ?_⟩
      have hzero := (h.authLen (.inl hcipher) hfit.short).mpr hfit.auth
      rw [hgiven] at hzero
      exact UInt16.toNat_inj.mp hzero
  · have haeads := (h.noAead haead).1
    obtain ⟨cname, ckey, calgo, hciphers, hcfind, hcrule⟩ := h.cipher hcipher
    obtain ⟨aname, akey, aalgo, hauths, hafind, harule, hafit⟩ := h.auth hauth
    obtain ⟨hcalgo, hbs, hiv, hclen⟩ := hcrule haead
    obtain ⟨haalgo, hd⟩ := harule haead
    have hshort : ShortKeys opts ↔ (∀ key, ckey = some key → KeyShort key)
        ∧ ∀ key, akey = some key → KeyShort key := by
      simp [shortKeys_iff, hciphers, hauths, haeads]
    constructor
    · rintro (hone | ⟨-, cname', ckey', calgo', aname', akey', aalgo', hciphers', hauths',
        -, hafind', -, -, -, -, -, hckey, hakey⟩)
      · have hnone := hone.1
        rw [hciphers] at hnone
        cases hnone
      · rw [hciphers] at hciphers'
        cases hciphers'
        rw [hauths] at hauths'
        cases hauths'
        rw [hafind] at hafind'
        cases hafind'
        have hs := hshort.mpr ⟨fun _ hk => hckey.short hk, fun _ hk => hakey.short hk⟩
        have hle := fun text htext => (hafit hs text htext).1
        exact ⟨hs, (h.authLen (.inr haead) hs).mp
          ((lengthOf_auth hauths hafind hs hle).mp hakey)⟩
    · intro hfit
      have hle := fun text htext => (hafit hfit.short text htext).1
      have hlen := (lengthOf_auth hauths hafind hfit.short hle).mpr
        ((h.authLen (.inr haead) hfit.short).mpr hfit.auth)
      refine .inr ⟨haeads, cname, ckey, calgo, aname, akey, aalgo, hciphers, hauths, hcfind,
        hafind, hcalgo, haalgo, hbs, hd, ?_, hclen hfit.short, hlen⟩
      rcases hiv with hiv | ⟨name, key, algo, hopts, hfind, -, hiv⟩
      · exact .inl hiv
      · rw [hauths] at hopts
        cases hopts
        rw [hafind] at hfind
        cases hfind
        exact .inr hiv

theorem lineStart_keyRead (dir : Direction) (spi : UInt32) (cnt : IpsecSaCnt) (nb : UInt32)
    (udp : Bool) : KeyRead [] (lineStart dir spi cnt nb udp) where
  noCipher _ := rfl
  noAuth _ := rfl
  noAead _ := ⟨rfl, rfl⟩
  cipher h := by cases h
  auth h := by cases h
  aead h := by cases h
  authLen _ _ := by
    refine ⟨fun _ => authFits_of_nil rfl rfl, fun _ => ?_⟩
    show (len16 (fun _ => 0) authKeyLenAt).toNat = 0
    rw [len16_toNat]
    rfl

theorem lineStart_modeRead (dir : Direction) (spi : UInt32) (cnt : IpsecSaCnt)
    (nb : UInt32) (udp : Bool) : ModeRead (lineStart dir spi cnt nb udp) where
  free _ := by
    show withoutTransportVersion 0 = 0
    decide
  mode h := by cases h

/-- What an accepted line has read. -/
theorem Accepts.read {t : SaTables} {tok : String} {tokens : List String}
    {st : ParseStatus} {rule : SaRule} (h : Accepts env t tok tokens st rule) :
    ∃ c, Complete c ∧ KeyRead (lineOpts tokens) c ∧ ModeRead c
      ∧ TypeRead env (lineDirection tok) (lineOpts tokens) c ∧ rule = c.settle := by
  obtain ⟨spi, cnt, nb, udp, c, -, hsteps, hcomplete, hrule⟩ := h.steps
  refine ⟨c, hcomplete, ?_, ?_, ?_, hrule⟩
  · exact hsteps.run (fun _ _ _ _ hstep hc => hc.step hstep)
      (lineStart_keyRead (lineDirection tok) spi cnt nb udp)
  · exact @SaSteps.run env _ _ c (fun _ c => ModeRead c)
      (fun _ _ _ _ hstep hc => hc.step hstep) hsteps
      (lineStart_modeRead (lineDirection tok) spi cnt nb udp)
  · exact hsteps.run (fun _ _ _ _ hstep hc => hc.step hstep)
      (lineStart_typeRead env (lineDirection tok) spi cnt nb udp)

/-- **FROM TABLES**: what the data path relies on. -/
theorem Accepts.fromTables {t : SaTables} {tok : String} {tokens : List String}
    {st : ParseStatus} {rule : SaRule} (h : Accepts env t tok tokens st rule) :
    rule.stored.FromTables := by
  obtain ⟨c, hcomplete, hkeys, -, -, rfl⟩ := h.read
  obtain ⟨type, hrule⟩ := settle_setType c
  rw [hrule]
  exact hkeys.fromTables hcomplete

/-- **WELL FORMED** is an accepted rule exactly when its key texts fit. -/
theorem wellFormed_iff {t : SaTables} {tok : String} {tokens : List String}
    {st : ParseStatus} {rule : SaRule} (h : Accepts env t tok tokens st rule) :
    WellFormed (lineOpts tokens) rule ↔ KeysFit (lineOpts tokens) := by
  have hsizes := (h.fromTables).sizes
  obtain ⟨c, hcomplete, hkeys, hmode, htype, rfl⟩ := h.read
  obtain ⟨type, hrule⟩ := settle_setType c
  have hformed : AeadFormed (lineOpts tokens) c.settle ∨ PairFormed (lineOpts tokens) c.settle
      ↔ KeysFit (lineOpts tokens) := by
    rw [hrule]
    exact hkeys.formed_iff hcomplete
  constructor
  · intro hwell
    exact hformed.mp hwell.algos
  · intro hfit
    obtain ⟨hbs, hiv, hd⟩ := hsizes
    refine ⟨?_, hformed.mpr hfit, ?_, hd, hiv, ?_⟩
    · rw [hrule]
      exact hmode.mode hcomplete.mode
    · have hbs : c.settle.blockSize = 4 ∨ c.settle.blockSize = 8 ∨ c.settle.blockSize = 16
          ∨ c.settle.blockSize = 64 := hbs
      rcases hbs with hbs | hbs | hbs | hbs <;> rw [hbs]
      · exact ⟨2, by decide⟩
      · exact ⟨3, by decide⟩
      · exact ⟨4, by decide⟩
      · exact ⟨6, by decide⟩
    · intro hoff
      exact htype.port.mp ((isOffload_settle htype.free).mp hoff).2

/-- A key of 132 bytes, an empty group for a zero: what lies in `cipher_key_len` is
    132, and what lies in `auth_key_len` is one. -/
def longKey : String :=
  "::::::::::::::::::::::::::::::::::::::::::::::::::::::::::::::::84:"
    ++ ":::::::::::::::::::::::::::::::::::::::::::::::::::::::::::::::::1:"

/-- A line with such a cipher key behind an authentication key of twenty bytes. -/
def longKeyTokens : List String :=
  ["5", "auth_algo", "sha1-hmac", "auth_key", zeroKey, "cipher_algo", "aes-128-cbc",
    "cipher_key", longKey, "mode", "transport"]

set_option maxRecDepth 8000 in
theorem longKey_accepted : ∃ rule, Accepts libraryEnv {} "in" longKeyTokens {} rule
    ∧ rule.authKeyLen = 1 :=
  ⟨_, ⟨_, _, rfl, rfl⟩, rfl⟩

theorem longKey_overruns : ∃ rule, Accepts libraryEnv {} "in" longKeyTokens {} rule
    ∧ rule.authKeyLen = 1 ∧ ¬ WellFormed (lineOpts longKeyTokens) rule := by
  obtain ⟨rule, hrule, hone⟩ := longKey_accepted
  refine ⟨rule, hrule, hone, ?_⟩
  intro hwell
  rcases hwell.algos with ⟨-, hnone, -⟩ | ⟨-, hpair⟩
  · cases hnone
  · obtain ⟨-, -, -, name, key, algo, -, hauths, -, -, -, -, -, -, -, -, hlen⟩ := hpair
    cases hauths
    have hbytes : keyBytes zeroKey = some 20 := by decide
    have hlen : keyBytes zeroKey = some (rule.authKeyLen.toNat
      + SupportedAuthAlgo.saltLen algo) := hlen
    rw [hbytes, hone, Option.some.injEq] at hlen
    unfold SupportedAuthAlgo.saltLen at hlen
    split at hlen <;> cases hlen

theorem wellFormed_iff_encap : ∃ rule, Accepts libraryEnv {} "in" encapTokens {} rule
    ∧ (WellFormed (lineOpts encapTokens) rule ↔ KeysFit (lineOpts encapTokens)) := by
  have h : ∃ rule, Accepts libraryEnv {} "in" encapTokens {} rule :=
    ⟨_, _, _, rfl, rfl⟩
  obtain ⟨rule, hrule⟩ := h
  exact ⟨rule, hrule, wellFormed_iff hrule⟩

end SaParse
