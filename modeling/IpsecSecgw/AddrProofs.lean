import Mathlib.Data.List.TakeWhile
import IpsecSecgw.RangeProofs

/-! # Which addresses are read

    An address is a text `inet_pton` takes, with a prefix length behind a slash or
    without (`AddrText`).  Both parsers look at what is copied into a buffer and at
    the digits behind the slash, and a token is read right when the copy is the
    whole text and the digits are a number within the bound -- or when it is
    refused anyway (`exact_iff`).

    For IPv6 the buffer is larger than any address, for IPv4 it holds the first
    fifteen characters of a longer text. -/

namespace ParseAddr

open ParserModel ParseRange

/-! ## Texts -/

/-- What stands before the slash. -/
def addrText (token : String) : List Char := token.toList.takeWhile (· ≠ '/')

/-- The token is an address with a prefix length, zero when none is given. -/
def AddrText {α : Type} (pton : List Char → Option α) (bound : Nat) (token : String)
    (ip : α) (n : Nat) : Prop :=
  pton token.toList = some ip ∧ n = 0
    ∨ ∃ text digits, token.toList = text ++ '/' :: digits ∧ pton text = some ip
      ∧ IsDecimal digits ∧ decValue (String.ofList digits) = n ∧ n ≤ bound

/-- The token is read as an address exactly when it is one. -/
def ExactAddr {α : Type} (parse : String → Option (α × UInt32))
    (pton : List Char → Option α) (bound : Nat) (token : String) : Prop :=
  ∀ ip mask, parse token = some (ip, mask) ↔ AddrText pton bound token ip mask.toNat

/-- The same when no mask is asked for. -/
def ExactUnmasked {α : Type} (parse : String → Option (α × UInt32))
    (pton : List Char → Option α) (bound : Nat) (token : String) : Prop :=
  ∀ ip, (∃ mask, parse token = some (ip, mask)) ↔ ∃ n, AddrText pton bound token ip n

/-- What stands behind a slash are digits. -/
def DigitsBehind (token : String) : Prop :=
  ∀ pch, behindSlash token = some pch → isStrNum pch = true

/-- A token whose copy is an address, with digits behind it, has been copied as a
    whole, and its prefix length is a number within the bound. -/
def RightIfRead {α : Type} (pton : List Char → Option α) (bound : Nat) (token : String)
    (copied : List Char) : Prop :=
  DigitsBehind token → (pton copied).isSome = true →
    copied = addrText token
      ∧ ∀ pch, behindSlash token = some pch → pch ≠ "" ∧ decValue pch ≤ bound

/-! ## The slash -/

/-- A token without a slash. -/
theorem noSlash {token : String} (h : '/' ∉ token.toList) :
    behindSlash token = none ∧ addrText token = token.toList := by
  have hall : ∀ c ∈ token.toList, (c ≠ '/' : Bool) = true := by
    intro c hc
    exact decide_eq_true fun he => h (he ▸ hc)
  constructor
  · rw [behindSlash, List.dropWhile_eq_nil_iff.mpr hall]
  · exact List.takeWhile_eq_self_iff.mpr hall

/-- A token with one. -/
theorem slash {token : String} {text digits : List Char}
    (h : token.toList = text ++ '/' :: digits) (htext : '/' ∉ text) :
    behindSlash token = some (String.ofList digits) ∧ addrText token = text := by
  have hall : ∀ c ∈ text, (c ≠ '/' : Bool) = true := by
    intro c hc
    exact decide_eq_true fun he => htext (he ▸ hc)
  have hstop : ('/' ≠ '/' : Bool) = false := rfl
  constructor
  · rw [behindSlash, h, List.dropWhile_append_of_pos hall,
      List.dropWhile_cons_of_neg (by rw [hstop]; exact Bool.false_ne_true)]
  · rw [addrText, h, List.takeWhile_append_of_pos hall,
      List.takeWhile_cons_of_neg (by rw [hstop]; exact Bool.false_ne_true), List.append_nil]

/-- A token is one of the two. -/
theorem slash_cases (token : String) :
    behindSlash token = none ∧ addrText token = token.toList
      ∨ ∃ pch, behindSlash token = some pch
        ∧ token.toList = addrText token ++ '/' :: pch.toList := by
  by_cases h : '/' ∈ token.toList
  · obtain ⟨text, digits, htok, htext⟩ := List.eq_append_cons_of_mem h
    obtain ⟨hbehind, haddr⟩ := slash htok htext
    refine .inr ⟨_, hbehind, ?_⟩
    rw [haddr, String.toList_ofList, htok]
  · exact .inl (noSlash h)

/-! ## Reading -/

/-- The mask is read when digits stand behind the slash. -/
theorem parseMask_eq {token : String} {mask : UInt32} (h : parseMask token = some mask) :
    DigitsBehind token ∧ (behindSlash token = none ∧ mask = 0
      ∨ ∃ pch, behindSlash token = some pch ∧ mask = atoi pch) := by
  unfold parseMask at h
  cases hbehind : behindSlash token with
  | none =>
      rw [hbehind] at h
      refine ⟨fun pch hpch => ?_, .inl ⟨rfl, (Option.some.inj h).symm⟩⟩
      rw [hbehind] at hpch
      cases hpch
  | some pch =>
      simp only [hbehind] at h
      by_cases hnum : isStrNum pch = true
      · rw [if_pos hnum] at h
        refine ⟨fun pch' hpch => ?_, .inr ⟨pch, rfl, (Option.some.inj h).symm⟩⟩
        rw [hbehind] at hpch
        rwa [← Option.some.inj hpch]
      · rw [if_neg hnum] at h
        cases h

theorem parseMask_digits {token : String} (h : DigitsBehind token) :
    ∃ mask, parseMask token = some mask := by
  unfold parseMask
  cases hbehind : behindSlash token with
  | none => exact ⟨0, rfl⟩
  | some pch => exact ⟨atoi pch, if_pos (h pch hbehind)⟩

/-- A number of 32 bits is not cut. -/
theorem atoi_toNat {s : String} (h : decValue s < 2 ^ 32) : (atoi s).toNat = decValue s := by
  rw [atoi, UInt32.toNat_ofNat']
  omega

/-- Digits are a number for the code. -/
theorem isStrNum_iff (s : String) : isStrNum s = true ↔ ∀ c ∈ s.toList, c.isDigit = true :=
  List.all_eq_true

section Parsers

variable {α : Type} {pton : List Char → Option α} {bound : Nat} {token : String}
  {parse : String → Option (α × UInt32)} {copied : List Char}

/-- An address has no slash, so a token is written in one way. -/
theorem AddrText.eq (hslash : ∀ {s a}, pton s = some a → '/' ∉ s) {ip : α} {n : Nat}
    (h : AddrText pton bound token ip n) :
    pton (addrText token) = some ip
      ∧ (behindSlash token = none ∧ n = 0
        ∨ ∃ pch, behindSlash token = some pch ∧ pch ≠ "" ∧ isStrNum pch = true
          ∧ decValue pch = n ∧ n ≤ bound) := by
  rcases h with ⟨hip, hn⟩ | ⟨text, digits, htok, hip, hdec, hn, hbound⟩
  · obtain ⟨hbehind, haddr⟩ := noSlash (hslash hip)
    exact ⟨haddr ▸ hip, .inl ⟨hbehind, hn⟩⟩
  · obtain ⟨hbehind, haddr⟩ := slash htok (hslash hip)
    refine ⟨haddr.symm ▸ hip, .inr ⟨_, hbehind, ?_, ?_, hn, hbound⟩⟩
    · intro hempty
      exact hdec.1 (String.ofList_eq_empty_iff.mp hempty)
    · rw [isStrNum_iff, String.toList_ofList]
      exact hdec.2

/-- What is read: the digits behind the slash and the copy. -/
def Reads (pton : List Char → Option α) (token : String) (copied : List Char)
    (r : Option (α × UInt32)) : Prop :=
  ∀ ip mask, r = some (ip, mask) ↔ parseMask token = some mask ∧ pton copied = some ip

/-- A token that is an address is read as it is. -/
theorem parse_of_addrText (hslash : ∀ {s a}, pton s = some a → '/' ∉ s)
    (hbound : bound < 2 ^ 32) (hreads : Reads pton token copied (parse token))
    (hcopied : ∀ ip, pton (addrText token) = some ip → copied = addrText token) {ip : α}
    {mask : UInt32} (h : AddrText pton bound token ip mask.toNat) :
    parse token = some (ip, mask) := by
  obtain ⟨hip, hmask⟩ := h.eq hslash
  refine (hreads ip mask).mpr ⟨?_, (hcopied ip hip).symm ▸ hip⟩
  rcases hmask with ⟨hbehind, hzero⟩ | ⟨pch, hbehind, -, hnum, hval, hle⟩
  · rw [parseMask, hbehind]
    exact congrArg some (UInt32.toNat_inj.mp hzero.symm)
  · simp only [parseMask, hbehind, if_pos hnum]
    refine congrArg some (UInt32.toNat_inj.mp ?_)
    rw [atoi_toNat (by omega), hval]

/-- What is read of a token that is right when it is read. -/
theorem addrText_of_parse (hbound : bound < 2 ^ 32)
    (hreads : Reads pton token copied (parse token))
    (hright : RightIfRead pton bound token copied) {ip : α} {mask : UInt32}
    (h : parse token = some (ip, mask)) : AddrText pton bound token ip mask.toNat := by
  obtain ⟨hmask, hip⟩ := (hreads ip mask).mp h
  obtain ⟨hdigits, hval⟩ := parseMask_eq hmask
  obtain ⟨hwhole, hnum⟩ := hright hdigits (Option.isSome_iff_exists.mpr ⟨ip, hip⟩)
  rw [hwhole] at hip
  rcases slash_cases token with ⟨hbehind, haddr⟩ | ⟨pch, hbehind, htok⟩
  · rw [haddr] at hip
    rcases hval with ⟨-, hzero⟩ | ⟨pch, hpch, -⟩
    · exact .inl ⟨hip, by rw [hzero]; rfl⟩
    · rw [hbehind] at hpch
      cases hpch
  · rcases hval with ⟨hnone, -⟩ | ⟨pch', hpch, hatoi⟩
    · rw [hbehind] at hnone
      cases hnone
    · rw [hbehind] at hpch
      cases Option.some.inj hpch
      obtain ⟨hne, hle⟩ := hnum pch hbehind
      refine .inr ⟨_, pch.toList, htok, hip, ⟨?_, ?_⟩, ?_, ?_⟩
      · intro hnil
        exact hne (String.toList_eq_nil_iff.mp hnil)
      · exact (isStrNum_iff pch).mp (hdigits pch hbehind)
      · rw [String.ofList_toList, hatoi, atoi_toNat (by omega)]
      · rw [hatoi, atoi_toNat (by omega)]
        exact hle

/-- A token that is not read right is read where there is nothing to read. -/
theorem right_of_unmasked (hslash : ∀ {s a}, pton s = some a → '/' ∉ s)
    (hreads : Reads pton token copied (parse token))
    (hcopied : ∀ ip, pton (addrText token) = some ip → copied = addrText token)
    (h : ExactUnmasked parse pton bound token) : RightIfRead pton bound token copied := by
  intro hdigits hsome
  obtain ⟨ip, hip⟩ := Option.isSome_iff_exists.mp hsome
  obtain ⟨mask, hmask⟩ := parseMask_digits hdigits
  obtain ⟨n, htext⟩ := (h ip).mp ⟨mask, (hreads ip mask).mpr ⟨hmask, hip⟩⟩
  obtain ⟨hwhole, hn⟩ := htext.eq hslash
  refine ⟨hcopied ip hwhole, ?_⟩
  intro pch hpch
  rcases hn with ⟨hnone, -⟩ | ⟨pch', hbehind, hne, -, hval, hle⟩
  · rw [hpch] at hnone
    cases hnone
  · rw [hpch] at hbehind
    cases Option.some.inj hbehind
    exact ⟨hne, by omega⟩

/-- **WHEN A TOKEN IS READ RIGHT**. -/
theorem exact_iff (hslash : ∀ {s a}, pton s = some a → '/' ∉ s) (hbound : bound < 2 ^ 32)
    (hreads : Reads pton token copied (parse token))
    (hcopied : ∀ ip, pton (addrText token) = some ip → copied = addrText token) :
    (ExactAddr parse pton bound token ↔ RightIfRead pton bound token copied)
      ∧ (ExactUnmasked parse pton bound token ↔ RightIfRead pton bound token copied) := by
  have hall : RightIfRead pton bound token copied → ExactAddr parse pton bound token :=
    fun hright ip mask => ⟨addrText_of_parse hbound hreads hright,
      parse_of_addrText hslash hbound hreads hcopied⟩
  have hless : ExactAddr parse pton bound token → ExactUnmasked parse pton bound token := by
    intro h ip
    constructor
    · rintro ⟨mask, hparse⟩
      exact ⟨_, (h ip mask).mp hparse⟩
    · rintro ⟨n, htext⟩
      have hn : n ≤ bound := by
        rcases htext with ⟨-, hzero⟩ | ⟨_, _, -, -, -, -, hle⟩
        · omega
        · exact hle
      refine ⟨UInt32.ofNat n, (h ip _).mpr ?_⟩
      rwa [UInt32.toNat_ofNat', Nat.mod_eq_of_lt (by omega)]
  have hright : ExactUnmasked parse pton bound token → RightIfRead pton bound token copied :=
    right_of_unmasked hslash hreads hcopied
  exact ⟨⟨fun h => hright (hless h), hall⟩, ⟨hright, fun h => hless (hall h)⟩⟩

end Parsers

/-! ## The parsers -/

variable (net : InetPton) (token : String)

/-- An address has no slash. -/
theorem v4_slash {s : List Char} {a : UInt32} (h : net.v4 s = some a) : '/' ∉ s := by
  intro hs
  exact absurd (net.v4_chars h '/' hs) (by decide)

theorem v6_slash {s : List Char} {a : Vector UInt8 16} (h : net.v6 s = some a) :
    '/' ∉ s := by
  intro hs
  exact absurd (net.v6_chars h '/' hs) (by decide)

theorem reads_v4 :
    Reads net.v4 token ((addrText token).take 15) (parseIpv4Addr net token) := by
  intro ip mask
  rw [parseIpv4Addr]
  cases parseMask token with
  | none => exact iff_of_false nofun fun h => absurd h.1 nofun
  | some m =>
      show (net.v4 (ipStr 16 token)).map _ = _ ↔ _
      rw [show ipStr 16 token = (addrText token).take 15 from rfl, Option.map_eq_some_iff]
      constructor
      · rintro ⟨ip', hip, heq⟩
        cases heq
        exact ⟨rfl, hip⟩
      · rintro ⟨hm, hip⟩
        cases hm
        exact ⟨ip, hip, rfl⟩

/-- No text of `INET6_ADDRSTRLEN` characters is an IPv6 address, and the buffer holds all
    shorter ones. -/
theorem reads_v6 (h6 : ∀ {s a}, net.v6 s = some a → s.length ≤ 45) :
    Reads net.v6 token (addrText token) (parseIpv6Addr net token) := by
  have hcopy : ipStr 256 token = (addrText token).take 255 := rfl
  intro ip mask
  rw [parseIpv6Addr]
  cases parseMask token with
  | none => exact iff_of_false nofun fun h => absurd h.1 nofun
  | some m =>
      show (if 46 ≤ (ipStr 256 token).length then none else _) = _ ↔ _
      rw [hcopy]
      by_cases hlong : 46 ≤ ((addrText token).take 255).length
      · rw [if_pos hlong]
        rw [List.length_take] at hlong
        refine iff_of_false nofun fun h => ?_
        have hlen := h6 h.2
        omega
      · rw [if_neg hlong]
        rw [List.length_take] at hlong
        rw [List.take_of_length_le (by omega), Option.map_eq_some_iff]
        constructor
        · rintro ⟨ip', hip, heq⟩
          cases heq
          exact ⟨rfl, hip⟩
        · rintro ⟨hm, hip⟩
          cases hm
          exact ⟨ip, hip, rfl⟩

/-- **ADDRESSES**: when the two parsers accept what is an address and nothing else. -/
theorem addr_iff (h4 : ∀ {s a}, net.v4 s = some a → s.length ≤ 15)
    (h6 : ∀ {s a}, net.v6 s = some a → s.length ≤ 45) :
    ((ExactAddr (parseIpv4Addr net) net.v4 32 token
          ↔ RightIfRead net.v4 32 token ((addrText token).take 15))
        ∧ (ExactUnmasked (parseIpv4Addr net) net.v4 32 token
          ↔ RightIfRead net.v4 32 token ((addrText token).take 15)))
      ∧ (ExactAddr (parseIpv6Addr net) net.v6 128 token
          ↔ RightIfRead net.v6 128 token (addrText token))
        ∧ (ExactUnmasked (parseIpv6Addr net) net.v6 128 token
          ↔ RightIfRead net.v6 128 token (addrText token)) := by
  refine ⟨exact_iff (v4_slash net) (by decide) (reads_v4 net token) ?_,
    exact_iff (v6_slash net) (by decide) (reads_v6 net token h6) fun _ _ => rfl⟩
  intro ip hip
  exact List.take_of_length_le (h4 hip)

/-- The characters of one text. -/
theorem longest_chars {s : List Char} {a : UInt32}
    (h : (if s = "192.168.100.100".toList then some (0x6464a8c0 : UInt32) else none)
      = some a) : ∀ c ∈ s, c ∈ "0123456789.".toList := by
  split at h
  · rename_i hs
    rw [hs]
    exact all_mem rfl
  · cases h

theorem longest_v6 {s : List Char} {a : Vector UInt8 16} (h : none = some a) :
    ∀ c ∈ s, c ∈ "0123456789abcdefABCDEF:.".toList := by
  cases h

/-- `inet_pton` for an address of fifteen characters. -/
def longest : InetPton where
  v4 s := if s = "192.168.100.100".toList then some 0x6464a8c0 else none
  v6 _ := none
  v4_chars := longest_chars
  v6_chars := longest_v6

theorem longest_length {s : List Char} {a : UInt32} (h : longest.v4 s = some a) :
    s.length ≤ 15 := by
  have h : (if s = "192.168.100.100".toList then some (0x6464a8c0 : UInt32) else none)
      = some a := h
  split at h
  · rename_i hs
    rw [hs]
    exact Nat.le_refl _
  · cases h

/-- A text of sixteen characters, of which the first fifteen are an address. -/
theorem addr_iff_longest :
    ExactAddr (parseIpv4Addr longest) longest.v4 32 "192.168.100.1000"
      ↔ RightIfRead longest.v4 32 "192.168.100.1000"
        ((addrText "192.168.100.1000").take 15) :=
  (addr_iff longest "192.168.100.1000" longest_length nofun).1.1

/-- **NOT SO**: the code takes `192.168.100.1000` for `192.168.100.100`, though it is no
    address. -/
theorem cut_address :
    ¬ ∀ net : InetPton, (∀ s a, net.v4 s = some a → s.length ≤ 15) →
      (∀ s a, net.v6 s = some a → s.length ≤ 45) →
        ∀ token, ExactAddr (parseIpv4Addr net) net.v4 32 token := by
  intro h
  have hexact := h longest (fun _ _ => longest_length) nofun "192.168.100.1000"
  have hparse : parseIpv4Addr longest "192.168.100.1000" = some (0x6464a8c0, 0) := by decide
  rcases (hexact _ _).mp hparse with ⟨hip, -⟩ | ⟨text, digits, htok, -⟩
  · exact absurd hip (by decide)
  · have hmem : '/' ∈ "192.168.100.1000".toList := by
      rw [htok]
      exact List.mem_append_right _ List.mem_cons_self
    exact absurd hmem (by decide)

end ParseAddr
