import Mathlib.Data.List.TakeWhile
import IpsecSecgw.SaKeyProofs

/-! # Which key texts are read

    A key text is hexadecimal bytes with colons between (`KeyText`).  The code goes
    over the groups between the colons up to the first one of more than two
    characters, and writes a byte for each (`storeGroups_eq`), whatever the
    characters and however many groups there are.  So it reads a text right when at
    most sixty-four groups are gone over, and when the groups of a text without long
    ones are hexadecimal bytes (`readsKey_iff`). -/

namespace SaParse

open ByteStore ParserModel

/-! ## Texts -/

/-- `MAX_KEY_SIZE`. -/
def maxKeySize : Nat := 64

/-- One or two hexadecimal digits. -/
def HexGroup (g : List Char) : Prop :=
  (g.length = 1 ∨ g.length = 2) ∧ ∀ c ∈ g, (hexDigit c).isSome = true

instance (g : List Char) : Decidable (HexGroup g) :=
  decidable_of_iff ((g.length = 1 ∨ g.length = 2)
      ∧ g.all (fun c => (hexDigit c).isSome) = true)
    (and_congr_right' List.all_eq_true)

/-- Their value. -/
def hexByte (g : List Char) : UInt8 :=
  UInt8.ofNat (g.foldl (fun n c => 16 * n + (hexDigit c).getD 0) 0)

/-- The text is hexadecimal bytes with colons between. -/
def KeyText (keyStr : String) (bytes : List UInt8) : Prop :=
  ∃ gs, gs ≠ [] ∧ keyStr.toList = [':'].intercalate gs ∧ (∀ g ∈ gs, HexGroup g)
    ∧ bytes = gs.map hexByte

/-- The text is read as a key exactly when it is one, and nothing is written behind
    the array. -/
def ReadsKey (a : Nat) (keyStr : String) : Prop :=
  ∀ keys, ∃ n keys', parseKeyString a keyStr keys = .ok (n, keys')
    ∧ (0 < n → KeyText keyStr (load keys' a n))
    ∧ (n = 0 → ¬ ∃ bytes, KeyText keyStr bytes)
    ∧ ∀ j, a + maxKeySize ≤ j → keys' j = keys j

/-- The groups the code goes over. -/
def goneOver (gs : List (List Char)) : List (List Char) := gs.takeWhile (·.length ≤ 2)

/-- Few groups are gone over, and the groups of a text without long ones are bytes. -/
def KeyTextFits (keyStr : String) : Prop :=
  (goneOver (groupsOf keyStr)).length ≤ maxKeySize
    ∧ (KeyShort keyStr → ∀ g ∈ groupsOf keyStr, HexGroup g)

instance (keyStr : String) : Decidable (KeyTextFits keyStr) :=
  inferInstanceAs (Decidable (_ ∧ _))

/-! ## Groups -/

/-- The groups are the pieces between the colons. -/
theorem keyGroups_eq (s : List Char) : keyGroups s = s.splitOn ':' := by
  induction s with
  | nil => rw [keyGroups, List.splitOn_nil]
  | cons c s ih =>
      rw [keyGroups, List.splitOn_cons_eq_if_modifyHead, ih]
      by_cases hc : c = ':'
      · rw [if_pos hc, if_pos (beq_iff_eq.mpr hc)]
      · rw [if_neg hc, if_neg (fun h => hc (beq_iff_eq.mp h))]
        cases hsplit : s.splitOn ':' with
        | nil => exact absurd hsplit (List.splitOn_ne_nil _ _)
        | cons g gs => rfl

/-- A hexadecimal digit is no colon. -/
theorem HexGroup.noColon {g : List Char} (h : HexGroup g) : ':' ∉ g := by
  intro hmem
  exact absurd (h.2 ':' hmem) (by decide)

/-- A text is a key when its groups are bytes. -/
theorem keyText_iff (keyStr : String) (bytes : List UInt8) :
    KeyText keyStr bytes
      ↔ (∀ g ∈ groupsOf keyStr, HexGroup g) ∧ bytes = (groupsOf keyStr).map hexByte := by
  rw [groupsOf, keyGroups_eq]
  constructor
  · rintro ⟨gs, hne, htext, hhex, hbytes⟩
    have hgs : keyStr.toList.splitOn ':' = gs := by
      rw [htext]
      exact List.splitOn_intercalate ':' (fun g hg => (hhex g hg).noColon) hne
    rw [hgs]
    exact ⟨hhex, hbytes⟩
  · rintro ⟨hhex, hbytes⟩
    exact ⟨_, List.splitOn_ne_nil _ _, (List.intercalate_splitOn ':').symm, hhex, hbytes⟩

/-- A hexadecimal digit is neither a space nor a sign. -/
theorem hexDigit_plain {c : Char} (h : (hexDigit c).isSome = true) :
    isSpace c = false ∧ c ≠ '-' ∧ c ≠ '+' := by
  refine ⟨?_, ?_, ?_⟩
  · rw [← Bool.not_eq_true]
    intro hspace
    unfold hexDigit at h
    simp only [isSpace, Bool.or_eq_true, Bool.and_eq_true, decide_eq_true_eq, Char.le_def,
      UInt32.le_iff_toNat_le] at h hspace
    rcases hspace with rfl | ⟨hlo, hhi⟩
    · exact absurd h (by decide)
    · have hlo : 9 ≤ c.val.toNat := hlo
      have hhi : c.val.toNat ≤ 13 := hhi
      have h0 : ('0'.val.toNat) = 48 := rfl
      have ha : ('a'.val.toNat) = 97 := rfl
      have hA : ('A'.val.toNat) = 65 := rfl
      rw [if_neg (by omega), if_neg (by omega), if_neg (by omega)] at h
      cases h
  · rintro rfl
    exact absurd h (by decide)
  · rintro rfl
    exact absurd h (by decide)

/-- The number in front of a text of hexadecimal digits is that of the text. -/
theorem hexValue_all (s : List Char) (hs : ∀ c ∈ s, (hexDigit c).isSome = true) (n : Nat) :
    hexValue n s = s.foldl (fun n c => 16 * n + (hexDigit c).getD 0) n := by
  induction s generalizing n with
  | nil => rfl
  | cons c s ih =>
      obtain ⟨d, hd⟩ := Option.isSome_iff_exists.mp (hs c List.mem_cons_self)
      rw [List.foldl_cons, hd, Option.getD_some,
        ← ih (fun x hx => hs x (List.mem_cons_of_mem _ hx))]
      simp only [hexValue, hd]

/-- `strtol` of hexadecimal digits. -/
theorem strtolByte_hex {g : List Char} (h : HexGroup g) : strtolByte g = hexByte g := by
  have hsigned : signed g = (false, g) := by
    cases g with
    | nil => rfl
    | cons c s =>
        obtain ⟨hspace, hminus, hplus⟩ := hexDigit_plain (h.2 c List.mem_cons_self)
        unfold signed
        rw [List.dropWhile_cons_of_neg (by rw [hspace]; exact Bool.false_ne_true)]
        split
        · rename_i heq
          exact absurd (List.cons.inj heq).1 hminus
        · rename_i heq
          exact absurd (List.cons.inj heq).1 hplus
        · rfl
  simp only [strtolByte, hsigned, hexByte, hexValue_all g h.2]
  rfl

/-! ## Stores -/

/-- A byte in front of a block. -/
theorem store_cons (keys : Nat → UInt8) (a : Nat) (x : UInt8) (l : List UInt8) :
    store (Function.update keys a x) (a + 1) l = store keys a (x :: l) := by
  have hone : Function.update keys a x = store keys a [x] := by
    funext i
    by_cases hi : i = a
    · rw [hi, Function.update_self]
      exact (store_inside keys a [x] (i := 0) Nat.zero_lt_one).symm
    · rw [Function.update_of_ne hi, store_outside _ (by simp; omega)]
  rw [hone]
  exact store_append keys a [x] l

/-- **THE LOOP**: a byte for every group up to the first long one; beyond the fields of
    the SA the model knows no memory. -/
theorem storeGroups_eq (gs : List (List Char)) (a n : Nat) (keys : Nat → UInt8)
    (hstart : a + n ≤ keysEnd) :
    storeGroups a gs n keys
      = if keysEnd < a + n + (goneOver gs).length then .error .overrun
        else
          .ok (if goneOver gs = gs then n + gs.length else 0,
            store keys (a + n) ((goneOver gs).map strtolByte)) := by
  induction gs generalizing n keys with
  | nil =>
      rw [storeGroups, if_neg (by simp [goneOver]; omega)]
      simp [goneOver]
  | cons g gs ih =>
      rw [storeGroups]
      by_cases hlong : 2 < g.length
      · have hnone : goneOver (g :: gs) = [] :=
          List.takeWhile_cons_of_neg (by simp; omega)
        rw [if_pos hlong, hnone, if_neg (by simp; omega), if_neg (List.cons_ne_nil g gs).symm,
          List.map_nil, store_nil]
      · have hsome : goneOver (g :: gs) = g :: goneOver gs :=
          List.takeWhile_cons_of_pos (by simp; omega)
        rw [if_neg hlong, hsome]
        by_cases hfull : keysEnd ≤ a + n
        · rw [if_pos hfull, if_pos (by rw [List.length_cons]; omega)]
        · rw [if_neg hfull, ih (n + 1) _ (by omega), List.length_cons, List.map_cons]
          have hcount : a + (n + 1) + (goneOver gs).length
              = a + n + ((goneOver gs).length + 1) := by omega
          rw [hcount]
          have hwhole : (g :: goneOver gs = g :: gs) ↔ goneOver gs = gs := by
            rw [List.cons.injEq, and_iff_right rfl]
          rw [List.length_cons, ← Nat.add_assoc a n 1, store_cons]
          simp only [hwhole, Nat.add_assoc, Nat.add_comm 1]

/-- The groups gone over are all of them when none is long. -/
theorem goneOver_eq_iff (keyStr : String) :
    goneOver (groupsOf keyStr) = groupsOf keyStr ↔ KeyShort keyStr := by
  rw [goneOver, List.takeWhile_eq_self_iff, KeyShort]
  simp only [decide_eq_true_eq]

/-- The values of the groups of a key. -/
theorem map_strtolByte {gs : List (List Char)} (h : ∀ g ∈ gs, HexGroup g) :
    gs.map strtolByte = gs.map hexByte :=
  List.map_congr_left fun g hg => strtolByte_hex (h g hg)

variable {a : Nat} {keyStr : String}

/-- A text of few groups is gone over without a write behind the array. -/
theorem parseKeyString_few (ha : a + maxKeySize ≤ keysEnd)
    (hfew : (goneOver (groupsOf keyStr)).length ≤ maxKeySize) (keys : Nat → UInt8) :
    parseKeyString a keyStr keys
      = .ok (if KeyShort keyStr then (groupsOf keyStr).length else 0,
          store keys a ((goneOver (groupsOf keyStr)).map strtolByte)) := by
  have heq := storeGroups_eq (groupsOf keyStr) a 0 keys (by omega)
  rw [if_neg (by omega), Nat.zero_add, Nat.add_zero] at heq
  simp only [goneOver_eq_iff] at heq
  exact heq

/-- A text of many groups is written behind the array. -/
theorem few_of_readsKey (ha : a + maxKeySize ≤ keysEnd) (h : ReadsKey a keyStr) :
    (goneOver (groupsOf keyStr)).length ≤ maxKeySize := by
  by_contra hmany
  -- memory that holds another byte than the one written behind the array
  have hlt : maxKeySize < (goneOver (groupsOf keyStr)).length := by omega
  obtain ⟨n, keys', hparse, -, -, hbehind⟩ :=
    h fun _ => strtolByte ((goneOver (groupsOf keyStr))[maxKeySize]) + 1
  have heq := storeGroups_eq (groupsOf keyStr) a 0
    (fun _ => strtolByte ((goneOver (groupsOf keyStr))[maxKeySize]) + 1) (by omega)
  rw [parseKeyString] at hparse
  have heq := hparse.symm.trans heq
  split at heq
  · cases heq
  · cases heq
    have hbyte := hbehind (a + maxKeySize) (Nat.le_refl _)
    rw [Nat.add_zero, store_inside _ _ _ (by rwa [List.length_map]), List.getElem_map]
      at hbyte
    have hnat := congrArg UInt8.toNat hbyte
    rw [UInt8.toNat_add, show (1 : UInt8).toNat = 1 from rfl] at hnat
    omega

/-- **WHEN A KEY TEXT IS READ RIGHT**, in either of the arrays of a SA. -/
theorem readsKey_iff (ha : a = cipherKeyAt ∨ a = authKeyAt) :
    ReadsKey a keyStr ↔ KeyTextFits keyStr := by
  have ha : a + maxKeySize ≤ keysEnd := by
    rcases ha with rfl | rfl <;> decide
  constructor
  · intro h
    have hfew := few_of_readsKey ha h
    refine ⟨hfew, fun hshort => ?_⟩
    obtain ⟨n, keys', hparse, htext, -, -⟩ := h fun _ => 0
    rw [parseKeyString_few ha hfew, if_pos hshort] at hparse
    cases hparse
    have hpos : 0 < (groupsOf keyStr).length :=
      List.length_pos_iff.mpr (keyGroups_ne_nil _)
    exact ((keyText_iff _ _).mp (htext hpos)).1
  · rintro ⟨hfew, hhex⟩ keys
    refine ⟨_, _, parseKeyString_few ha hfew keys, ?_, ?_, ?_⟩
    · intro hpos
      by_cases hshort : KeyShort keyStr
      · have hgone := (goneOver_eq_iff keyStr).mpr hshort
        have hhex := hhex hshort
        rw [if_pos hshort, hgone, map_strtolByte hhex, load_store_eq _ (List.length_map _)]
        exact (keyText_iff _ _).mpr ⟨hhex, rfl⟩
      · rw [if_neg hshort] at hpos
        exact absurd hpos (Nat.lt_irrefl 0)
    · intro hzero
      rintro ⟨bytes, htext⟩
      have hhex := ((keyText_iff _ _).mp htext).1
      have hshort : KeyShort keyStr := by
        intro g hg
        rcases (hhex g hg).1 with hlen | hlen <;> omega
      rw [if_pos hshort] at hzero
      exact keyGroups_ne_nil _ (List.length_eq_zero_iff.mp hzero)
    · intro j hj
      refine store_outside _ (.inr ?_)
      rw [List.length_map]
      omega

theorem readsKey_bytes : ReadsKey authKeyAt "0f:1:aB" :=
  (readsKey_iff (.inr rfl)).mpr (by decide)

/-- **NOT SO**: `zz` is taken for a key of one byte. -/
theorem letters_taken :
    ¬ ∀ keyStr : String, keyStr.length ≤ 1022 → ReadsKey cipherKeyAt keyStr := by
  intro h
  obtain ⟨n, keys', hparse, htext, -, -⟩ := h "zz" (by decide) fun _ => 0
  have hshort : KeyShort "zz" := by decide
  rw [parseKeyString_few (by decide) (by decide), if_pos hshort] at hparse
  cases hparse
  have hhex := ((keyText_iff _ _).mp (htext (by decide))).1
  exact absurd hhex (by decide)

end SaParse
