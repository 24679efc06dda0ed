import Mathlib.Tactic.IntervalCases
import IpsecSecgw.AddrProofs
import IpsecSecgw.SpParseProofs

/-! # What SP rules give back

    * The addresses and prefix lengths of an accepted line come back from the fields
      of its rule as they were written, through 32-bit words in host order and the
      macros that put them together again (`sp_roundTrip`).
    * Its ports and its protocol are the ranges of the line as far as `parse_range`
      reads them right (`sp_ranges_iff`). -/

namespace SpParse

open ByteStore Growing SaModel ParserModel ParseRange ParseAddr Rt

/-! ## Words -/

/-- A number in front of one of fewer bits. -/
theorem shift_or {x y k : Nat} (hy : y < 2 ^ k) : x <<< k ||| y = x * 2 ^ k + y := by
  rw [← Nat.shiftLeft_add_eq_or_of_lt hy, Nat.shiftLeft_eq]

/-- A word is the number its four bytes spell. -/
theorem ip6Word_toNat (a b c d : UInt8) : (ip6Word a b c d).toNat = ofBe [a, b, c, d] := by
  have ha := a.toNat_lt
  have hb := b.toNat_lt
  have hc := c.toNat_lt
  have hd := d.toNat_lt
  have hword : (ip6Word a b c d).toNat
      = a.toNat <<< 24 ||| (b.toNat <<< 16 ||| (c.toNat <<< 8 ||| d.toNat)) := by
    have hshift : ∀ (x : UInt8) (k : UInt32), k.toNat ≤ 24 →
        (x.toUInt32 <<< k).toNat = x.toNat <<< k.toNat := by
      intro x k hk
      have hx := x.toNat_lt
      have hpow : 2 ^ k.toNat ≤ 2 ^ 24 := Nat.pow_le_pow_right (by decide) hk
      rw [UInt32.toNat_shiftLeft, UInt8.toNat_toUInt32, Nat.mod_eq_of_lt (a := k.toNat) (by omega),
        Nat.shiftLeft_eq]
      refine Nat.mod_eq_of_lt ?_
      calc x.toNat * 2 ^ k.toNat ≤ 255 * 2 ^ 24 :=
            Nat.mul_le_mul (by omega) hpow
        _ < 2 ^ 32 := by decide
    rw [ip6Word, UInt32.toNat_or, UInt32.toNat_or, UInt32.toNat_or, hshift _ _ (by decide),
      hshift _ _ (by decide), hshift _ _ (by decide), UInt8.toNat_toUInt32, Nat.or_assoc,
      Nat.or_assoc]
    rfl
  rw [hword, shift_or (k := 8) (by omega), shift_or (k := 16) (by omega),
    shift_or (k := 24) (by omega)]
  simp [ofBe]

/-- The bytes of a number, read the other way round. -/
theorem toLe_ofBe_toLe (k n : Nat) : toLe k (ofBe (toLe k n)) = toBe k n := by
  have hbe := toBe_ofBe (toLe k n)
  rw [length_toLe] at hbe
  rw [toLe, hbe, toLe, List.reverse_reverse]

/-- Swapping writes the bytes the other way round. -/
theorem toLe_rteBswap32 (x : UInt32) : toLe 4 (rteBswap32 x).toNat = toBe 4 x.toNat := by
  have hlt := ofBe_lt (toLe 4 x.toNat)
  rw [length_toLe] at hlt
  have hsmall : ofBe (toLe 4 x.toNat) % 2 ^ 32 = ofBe (toLe 4 x.toNat) := Nat.mod_eq_of_lt hlt
  rw [rteBswap32, UInt32.toNat_ofNat', hsmall, toLe_ofBe_toLe]

theorem toLe_rteCpuToBe64 (x : UInt64) : toLe 8 (rteCpuToBe64 x).toNat = toBe 8 x.toNat := by
  have hlt := ofBe_lt (toLe 8 x.toNat)
  rw [length_toLe] at hlt
  have hsmall : ofBe (toLe 8 x.toNat) % 2 ^ 64 = ofBe (toLe 8 x.toNat) := Nat.mod_eq_of_lt hlt
  rw [rteCpuToBe64, UInt64.toNat_ofNat', hsmall, toLe_ofBe_toLe]

/-- Two words put together are the eight bytes. -/
theorem ipv6FromSp_bytes {low high : AclField} {a b c d e f g h : UInt8}
    (hhigh : high.value = ip6Word a b c d) (hlow : low.value = ip6Word e f g h) :
    toLe 8 (rteCpuToBe64 (ipv6FromSp low high)).toNat = [a, b, c, d, e, f, g, h] := by
  have hfour : ∀ x y z w : UInt8, ofBe [x, y, z, w] < 2 ^ 32 := by
    intro x y z w
    have hlt := ofBe_lt [x, y, z, w]
    rwa [show [x, y, z, w].length = 4 from rfl, show 256 ^ 4 = 2 ^ 32 by decide] at hlt
  have hnum : (ipv6FromSp low high).toNat = ofBe [a, b, c, d, e, f, g, h] := by
    have hshift : ofBe [a, b, c, d] <<< 32 % 2 ^ 64 = ofBe [a, b, c, d] <<< 32 := by
      have hx := hfour a b c d
      rw [Nat.shiftLeft_eq]
      omega
    rw [ipv6FromSp, UInt64.toNat_or, UInt64.toNat_shiftLeft, hhigh, hlow,
      UInt32.toNat_toUInt64, UInt32.toNat_toUInt64, ip6Word_toNat, ip6Word_toNat,
      show (32 : UInt64).toNat % 64 = 32 from rfl, hshift, shift_or (hfour e f g h)]
    simp only [ofBe, List.length_cons, List.length_nil]
    omega
  rw [toLe_rteCpuToBe64, hnum]
  exact toBe_ofBe [a, b, c, d, e, f, g, h]

/-- The prefix lengths of the words add up. -/
theorem wordDepths (depth : UInt32) (h : depth.toNat ≤ 128) :
    (wordDepth depth + wordDepth (restDepth depth)
      + wordDepth (restDepth (restDepth depth))
      + wordDepth (restDepth (restDepth (restDepth depth)))).toNat = depth.toNat := by
  have hsplit : ∀ d : UInt32,
      (wordDepth d).toNat = min d.toNat 32 ∧ (restDepth d).toNat = d.toNat - 32 := by
    intro d
    unfold wordDepth restDepth
    have h32 : (32 : UInt32).toNat = 32 := rfl
    by_cases hd : d > 32
    · have hlt : 32 < d.toNat := UInt32.lt_iff_toNat_lt.mp hd
      rw [if_pos hd, if_pos hd, UInt32.toNat_sub_of_le _ _ (UInt32.le_of_lt hd), h32]
      omega
    · have hle : d.toNat ≤ 32 := Nat.not_lt.mp fun hlt => hd (UInt32.lt_iff_toNat_lt.mpr hlt)
      rw [if_neg hd, if_neg hd]
      have h0 : (0 : UInt32).toNat = 0 := rfl
      omega
  simp only [UInt32.toNat_add, (hsplit _).1, (hsplit _).2]
  omega

/-! ## Addresses -/

/-- Addresses and prefix lengths of accepted lines come back: whatever is found for
    the SPI of the rule, when it is the rule. -/
def RoundTrip {α : Type} {n : Nat} (fam : SpFamily n) (sp : FromSp n)
    (pton : List Char → Option α) (bound : Nat) (bytesOf : IpAddr → List UInt8)
    (netBytes : α → List UInt8) : Prop :=
  ∀ {memory t tok tokens st rule}, Accepts fam memory t tok tokens st rule →
    ∀ {srcTok srcIp srcLen dstTok dstIp dstLen},
      .src srcTok ∈ lineOpts tokens → AddrText pton bound srcTok srcIp srcLen →
      .dst dstTok ∈ lineOpts tokens → AddrText pton bound dstTok dstIp dstLen →
    ∀ {rules out rc out'}, spSpiPresent sp rules rule.userdata out = (rc, out') →
      0 ≤ rc → rules[rc.toNat]? = some rule →
        bytesOf out'.src = netBytes srcIp ∧ bytesOf out'.dst = netBytes dstIp
          ∧ out'.srcMask.toNat = srcLen ∧ out'.dstMask.toNat = dstLen

/-- The fields of an address give it back. -/
def GivesBack {α : Type} {n : Nat} (fam : SpFamily n) (sp : FromSp n)
    (pton : List Char → Option α) (bound : Nat) (bytesOf : IpAddr → List UInt8)
    (netBytes : α → List UInt8) : Prop :=
  ∀ {tok ip len f}, AddrText pton bound tok ip len → fam.parse tok = some f →
    (∀ a, bytesOf (sp.addr a f) = netBytes ip) ∧ (sp.mask f).toNat = len

section RoundTrip

variable {α : Type} {n : Nat} {fam : SpFamily n} {sp : FromSp n}
  {pton : List Char → Option α} {bound : Nat} {bytesOf : IpAddr → List UInt8}
  {netBytes : α → List UInt8}

/-- It is enough to look at the fields of an address. -/
theorem GivesBack.roundTrip (h : GivesBack fam sp pton bound bytesOf netBytes) :
    RoundTrip fam sp pton bound bytesOf netBytes := by
  intro memory t tok tokens st rule haccepts srcTok srcIp srcLen dstTok dstIp dstLen
    hsrc hsrcText hdst hdstText rules out rc out' hfound hrc hrule
  obtain ⟨c, rfl, hwritten⟩ := haccepts.written
  obtain ⟨-, hsrcParse⟩ := hwritten _ hsrc
  obtain ⟨-, hdstParse⟩ := hwritten _ hdst
  obtain ⟨hsrcBytes, hsrcMask⟩ := h hsrcText hsrcParse
  obtain ⟨hdstBytes, hdstMask⟩ := h hdstText hdstParse
  unfold spSpiPresent at hfound
  dsimp only at hfound
  split at hfound
  · cases hfound
    omega
  · cases hfound
    rw [List.getD_eq_getElem?_getD, hrule]
    exact ⟨hsrcBytes _, hdstBytes _, hsrcMask, hdstMask⟩

end RoundTrip

/-- The prefix length of an address is within its bound. -/
theorem addrText_le {α : Type} {pton : List Char → Option α} {bound n : Nat}
    {token : String} {ip : α} (h : AddrText pton bound token ip n) : n ≤ bound := by
  rcases h with ⟨-, rfl⟩ | ⟨_, _, -, -, -, -, hle⟩
  · exact Nat.zero_le _
  · exact hle

variable (net : InetPton)

theorem givesBack_sp4 (h4 : ∀ {s a}, net.v4 s = some a → s.length ≤ 15) :
    GivesBack (sp4 net) fromSp4 net.v4 32 IpAddr.ip4 (fun ip => toLe 4 ip.toNat) := by
  intro tok ip len f htext hparse
  have hlen := addrText_le htext
  have hmask : (UInt32.ofNat len).toNat = len := by
    rw [UInt32.toNat_ofNat']
    omega
  rw [← hmask] at htext
  have hread := parse_of_addrText (v4_slash net) (by decide) (reads_v4 net tok)
    (fun _ hip => List.take_of_length_le (h4 hip)) htext
  simp only [sp4, hread, Option.map_some, Option.some.injEq] at hparse
  subst hparse
  refine ⟨fun a => ?_, hmask⟩
  show (toLe 4 (rteBswap32 (rteBswap32 ip)).toNat ++ a.bytes.drop 4).take 4 = _
  rw [List.take_left' (length_toLe 4 _), toLe_rteBswap32]
  have hswap := congrArg List.reverse (toLe_rteBswap32 ip)
  rw [toLe, List.reverse_reverse] at hswap
  exact hswap

theorem givesBack_sp6 (h6 : ∀ {s a}, net.v6 s = some a → s.length ≤ 45) :
    GivesBack (sp6 net) fromSp6 net.v6 128 IpAddr.bytes Vector.toList := by
  intro tok ip len f htext hparse
  have hlen := addrText_le htext
  have hmask : (UInt32.ofNat len).toNat = len := by
    rw [UInt32.toNat_ofNat']
    omega
  rw [← hmask] at htext
  have hread := parse_of_addrText (v6_slash net) (by decide) (reads_v6 net tok h6)
    (fun _ _ => rfl) htext
  simp only [sp6, hread, Option.map_some, Option.some.injEq] at hparse
  subst hparse
  refine ⟨fun a => ?_, (wordDepths _ (by omega)).trans hmask⟩
  show toLe 8 _ ++ toLe 8 _ = _
  rw [ipv6FromSp_bytes rfl rfl, ipv6FromSp_bytes rfl rfl]
  refine List.ext_getElem (by simp) fun i h1 h2 => ?_
  have hi : i < 16 := h1
  rw [Vector.getElem_toList]
  interval_cases i <;> rfl

/-- **ROUND TRIP**: addresses and prefix lengths come back as they were written, the
    addresses in network order. -/
theorem sp_roundTrip (h4 : ∀ {s a}, net.v4 s = some a → s.length ≤ 15)
    (h6 : ∀ {s a}, net.v6 s = some a → s.length ≤ 45) :
    RoundTrip (sp4 net) fromSp4 net.v4 32 IpAddr.ip4 (fun ip => toLe 4 ip.toNat)
      ∧ RoundTrip (sp6 net) fromSp6 net.v6 128 IpAddr.bytes Vector.toList :=
  ⟨GivesBack.roundTrip (givesBack_sp4 net h4), GivesBack.roundTrip (givesBack_sp6 net h6)⟩

/-- A line that goes well is stored in fresh tables. -/
theorem accepts_fresh {n : Nat} {fam : SpFamily n} {tok : String} {tokens : List String}
    {st : ParseStatus} {rule : SpRule n}
    (h : (spScan fam {} "out" tokens st).toOption.map (fun s => s.rule) = some rule) :
    Accepts fam true {} tok ("out" :: tokens) st rule := by
  cases hscan : spScan fam {} "out" tokens st with
  | error s =>
      rw [hscan] at h
      cases h
  | ok s =>
      rw [hscan] at h
      cases h
      have hslot : ((({} : GrowArr (SpRule n)).extend {} initAclRuleNum true).2.slot)
          = some {} := rfl
      have hadd : spAdd fam true {} "out" tokens st
          = .ok (((({} : GrowArr (SpRule n)).extend {} initAclRuleNum true).2.write
            s.rule).bump, s.st) := by
        have hroom : (({} : GrowArr (SpRule n)).extend {} initAclRuleNum true).1 = true := rfl
        unfold spAdd
        dsimp only
        rw [hroom, Bool.not_true, if_neg Bool.false_ne_true, hslot]
        simp only [hscan]
      have hparse : parseSpTokens fam true {} tok ("out" :: tokens) st
          = (spAdd fam true {} "out" tokens st).map fun r => ({ rulesOut := r.1 }, r.2) :=
        rfl
      rw [hadd] at hparse
      refine ⟨_, _, hparse, ?_⟩
      rw [List.head?_cons, if_neg (by decide)]
      exact ⟨rfl, rfl⟩

/-- The tokens of a line that protects one host. -/
def hostTokens : List String :=
  ["esp", "protect", "5", "src", "192.168.100.100/32", "dst", "192.168.100.100/7"]

/-- The rule it becomes. -/
def hostRule : SpRule 1 where
  categoryMask := 1
  userdata := 5
  src := #v[⟨0xc0a86464, 32⟩]
  dst := #v[⟨0xc0a86464, 7⟩]

theorem hostRule_accepted :
    Accepts (sp4 longest) true {} "ipv4" ("out" :: hostTokens) {} hostRule :=
  accepts_fresh (by decide)

/-- Its addresses. -/
theorem hostAddr_src : AddrText longest.v4 32 "192.168.100.100/32" 0x6464a8c0 32 :=
  .inr ⟨"192.168.100.100".toList, "32".toList, rfl, rfl,
    ⟨List.cons_ne_nil _ _, List.all_eq_true.mp rfl⟩, by decide, Nat.le_refl _⟩

theorem hostAddr_dst : AddrText longest.v4 32 "192.168.100.100/7" 0x6464a8c0 7 :=
  .inr ⟨"192.168.100.100".toList, "7".toList, rfl, rfl,
    ⟨List.cons_ne_nil _ _, List.all_eq_true.mp rfl⟩, by decide, by decide⟩

/-- What is written over. -/
def noAddrs : SpAddrs := ⟨IpAddr.zero, IpAddr.zero, 0, 0⟩

/-- An address of IPv6. -/
def docAddr : Vector UInt8 16 := #v[0x20, 1, 0xd, 0xb8, 0, 0, 0, 0, 0, 0, 0, 0, 0, 0, 0, 1]

/-- `inet_pton` for an address of each family. -/
def bothFamilies : InetPton where
  v4 := longest.v4
  v6 s := if s = "2001:db8::1".toList then some docAddr else none
  v4_chars := longest.v4_chars
  v6_chars := by
    intro s a h
    split at h
    · rename_i hs
      rw [hs]
      exact all_mem (by decide)
    · cases h

theorem bothFamilies_length {s : List Char} {a : Vector UInt8 16}
    (h : bothFamilies.v6 s = some a) : s.length ≤ 45 := by
  have h : (if s = "2001:db8::1".toList then some docAddr else none) = some a := h
  split at h
  · rename_i hs
    rw [hs]
    decide
  · cases h

/-- The tokens of a line for IPv6, with a prefix that ends in the third word. -/
def prefixTokens : List String :=
  ["esp", "protect", "6", "src", "2001:db8::1/65", "dst", "2001:db8::1/128"]

/-- The rule it becomes. -/
def prefixRule : SpRule 4 where
  categoryMask := 1
  userdata := 6
  src := #v[⟨0x20010db8, 32⟩, ⟨0, 32⟩, ⟨0, 1⟩, ⟨1, 0⟩]
  dst := #v[⟨0x20010db8, 32⟩, ⟨0, 32⟩, ⟨0, 32⟩, ⟨1, 32⟩]

theorem prefixRule_accepted :
    Accepts (sp6 bothFamilies) true {} "ipv6" ("out" :: prefixTokens) {} prefixRule :=
  accepts_fresh (by decide +kernel)

theorem prefixAddr_src : AddrText bothFamilies.v6 128 "2001:db8::1/65" docAddr 65 :=
  .inr ⟨"2001:db8::1".toList, "65".toList, rfl, rfl,
    ⟨List.cons_ne_nil _ _, List.all_eq_true.mp rfl⟩, by decide, by decide⟩

theorem prefixAddr_dst : AddrText bothFamilies.v6 128 "2001:db8::1/128" docAddr 128 :=
  .inr ⟨"2001:db8::1".toList, "128".toList, rfl, rfl,
    ⟨List.cons_ne_nil _ _, List.all_eq_true.mp rfl⟩, by decide, by decide⟩

/-- The rules are found for their SPIs. -/
theorem sp_roundTrip_both :
    ((spSpiPresent fromSp4 [hostRule] hostRule.userdata noAddrs).2.src.ip4
        = [192, 168, 100, 100]
      ∧ (spSpiPresent fromSp4 [hostRule] hostRule.userdata noAddrs).2.dst.ip4
        = [192, 168, 100, 100]
      ∧ (spSpiPresent fromSp4 [hostRule] hostRule.userdata noAddrs).2.srcMask.toNat = 32
      ∧ (spSpiPresent fromSp4 [hostRule] hostRule.userdata noAddrs).2.dstMask.toNat = 7)
    ∧ (spSpiPresent fromSp6 [prefixRule] prefixRule.userdata noAddrs).2.src.bytes
        = docAddr.toList
      ∧ (spSpiPresent fromSp6 [prefixRule] prefixRule.userdata noAddrs).2.dst.bytes
        = docAddr.toList
      ∧ (spSpiPresent fromSp6 [prefixRule] prefixRule.userdata noAddrs).2.srcMask.toNat = 65
      ∧ (spSpiPresent fromSp6 [prefixRule] prefixRule.userdata noAddrs).2.dstMask.toNat
        = 128 :=
  ⟨(sp_roundTrip bothFamilies longest_length bothFamilies_length).1 hostRule_accepted
      (by decide) hostAddr_src (by decide) hostAddr_dst Prod.mk.eta.symm (by decide) rfl,
    (sp_roundTrip bothFamilies longest_length bothFamilies_length).2 prefixRule_accepted
      (by decide) prefixAddr_src (by decide) prefixAddr_dst Prod.mk.eta.symm (by decide) rfl⟩

/-! ## Ranges -/

/-- A token is read right by `parse_range`. -/
def ReadRight (token : String) : Prop :=
  (∃ low high, RangeWithin 19 token low high)
    ∨ (¬ ∃ low high, RangeText token low high) ∧ Refused (runs token)

/-- The rule holds the range an option gives; for `proto` it is a value and a mask. -/
def HoldsRange {n : Nat} (rule : SpRule n) : SpOpt → Prop
  | .proto tok => RangeText tok rule.proto.1.toUInt16 rule.proto.2.toUInt16
  | .sport tok => RangeText tok rule.sport.1 rule.sport.2
  | .dport tok => RangeText tok rule.dport.1 rule.dport.2
  | _ => True

/-- The range of an option is read right. -/
def RangeRight : SpOpt → Prop
  | .proto tok => ReadRight tok
  | .sport tok => ReadRight tok
  | .dport tok => ReadRight tok
  | _ => True

/-- What has been read is the range when the token is read right. -/
theorem rangeText_iff {token : String} {r : UInt16 × UInt16}
    (h : parseRange token = some r) : RangeText token r.1 r.2 ↔ ReadRight token := by
  constructor
  · intro htext
    exact .inl ⟨r.1, r.2, htext.within (by rw [h]; exact Option.some_ne_none r)⟩
  · rintro (⟨low, high, hshort⟩ | ⟨-, hrefused⟩)
    · rw [parseRange_short hshort] at h
      cases h
      exact ⟨19, hshort⟩
    · rw [(parseRange_none_iff token).mpr hrefused] at h
      cases h

/-- A number of eight bits is the one it was cut to. -/
theorem toUInt8_toUInt16 {x : UInt16} (h : x ≤ 0xff) : x.toUInt8.toUInt16 = x := by
  have hle : x.toNat ≤ 255 := UInt16.le_iff_toNat_le.mp h
  apply UInt16.toNat_inj.mp
  rw [UInt8.toNat_toUInt16, UInt16.toNat_toUInt8]
  omega

/-- **RANGES**: when `parse_range` takes what is a range and nothing else, and when the
    rule of an accepted line holds the ranges of the line. -/
theorem sp_ranges_iff (token : String) {n : Nat} {fam : SpFamily n} {memory : Bool}
    {t : SpTables n} {tok : String} {tokens : List String} {st : ParseStatus}
    {rule : SpRule n} :
    (ExactRange token ↔ ReadRight token)
      ∧ (Accepts fam memory t tok tokens st rule →
          ((∀ o ∈ lineOpts tokens, HoldsRange rule o)
            ↔ ∀ o ∈ lineOpts tokens, RangeRight o)) := by
  refine ⟨exactRange_iff token, fun h => ?_⟩
  obtain ⟨c, rfl, hwritten⟩ := h.written
  refine forall₂_congr fun o ho => ?_
  have hw := hwritten o ho
  cases o with
  | proto tok =>
      obtain ⟨-, r, hparse, hlow, hhigh, hrule⟩ := hw
      show RangeText tok c.rule.proto.1.toUInt16 c.rule.proto.2.toUInt16 ↔ _
      rw [hrule, toUInt8_toUInt16 hlow, toUInt8_toUInt16 hhigh]
      exact rangeText_iff hparse
  | sport tok => exact rangeText_iff hw.2
  | dport tok => exact rangeText_iff hw.2
  | _ => exact Iff.rfl

/-- The tokens of a line for some source ports. -/
def portTokens (range : String) : List String := ["esp", "bypass", "sport", range]

/-- The rule it becomes. -/
def portRule (low high : UInt16) : SpRule 1 where
  categoryMask := 1
  userdata := bypass
  sport := (low, high)

theorem fivePorts_accepted :
    Accepts (sp4 longest) true {} "ipv4" ("out" :: portTokens "5:10") {} (portRule 5 10) :=
  accepts_fresh (by decide)

theorem onePort_accepted :
    Accepts (sp4 longest) true {} "ipv4" ("out" :: portTokens "80") {}
      (portRule 0xffff 80) :=
  accepts_fresh (by decide)

/-- Five to ten. -/
theorem sp_ranges_five :
    (∀ o ∈ lineOpts ("out" :: portTokens "5:10"), HoldsRange (portRule 5 10) o)
      ↔ ∀ o ∈ lineOpts ("out" :: portTokens "5:10"), RangeRight o :=
  (sp_ranges_iff "5:10").2 fivePorts_accepted

/-- **NOT SO**: `80` is no range, and is taken for the range from 65535 to 80. -/
theorem onePort_taken :
    ¬ (∀ token, ExactRange token)
      ∧ ¬ ∀ {n : Nat} {fam : SpFamily n} {memory t tok tokens st rule},
        Accepts fam memory t tok tokens st rule →
          ∀ o ∈ lineOpts tokens, HoldsRange rule o := by
  have hnone : ∀ low high, ¬ RangeText "80" low high := by
    rintro low high ⟨_, d, e, htok, -⟩
    have hmem : ':' ∈ "80".toList := by
      rw [htok]
      exact List.mem_append_right _ List.mem_cons_self
    exact absurd hmem (by decide)
  constructor
  · intro h
    exact hnone 0xffff 80 ((h "80" 0xffff 80).mp (by decide))
  · intro h
    exact hnone 0xffff 80 (h onePort_accepted (.sport "80") (by decide))

end SpParse
