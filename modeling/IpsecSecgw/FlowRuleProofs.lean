import IpsecSecgw.FlowRuleModel
import IpsecSecgw.Lib.NetPrefix
import Mathlib.Data.List.TakeWhile

/-! # What a flow rule matches

    A line is read once more, for the addresses and prefix lengths it gives
    (`readLine`).  A run of the parser stores them one after the other, stops at
    an argument it does not understand or at an IPv4 length above 32, and leaves
    the mask at an IPv6 length above 128 (`flowLoop_ran`).

    The IPv4 mask is shifted in host order, so it is the mask of its prefix only
    where the order does not show: for 32 bits, and for none when the shift by
    32 gives zero.  The IPv6 mask has the bits of the prefix cleared and the
    others set, so it is never the mask of its prefix. -/

namespace FlowRule

open ByteStore ParserModel NetPrefix

variable (env : FlowEnv)

/-! ## Reading a line -/

/-- The prefix length written behind an address, 0 when there is none. -/
def prefixLen (token : String) : Nat := (behindSlash token).elim 0 decValue

/-- A number as `atoi` returns it. -/
def cut (n : Nat) : UInt32 := UInt32.ofNat (min n 0x7fffffffffffffff)

/-- An address a line gives, in network order, and its prefix length. -/
structure Given where
  side : Side
  addr : List UInt8
  len : Nat

/-- The address and the prefix length of a token. -/
def readAddr (net : InetPton) (isIpv4 : Bool) (token : String) :
    Option (List UInt8 × Nat) :=
  if isIpv4 then
    (parseIpv4Addr net token).map fun r => (toLe 4 r.1.toNat, prefixLen token)
  else (parseIpv6Addr net token).map fun r => (r.1.toList, prefixLen token)

/-- The side a keyword stands for. -/
def sideOf (tok : String) : Option Side :=
  if tok = "src" then some .src else if tok = "dst" then some .dst else none

/-- The addresses a line gives up to the first argument that is missing or no
    argument, and whether there is none. -/
def readLine (net : InetPton) (isIpv4 : Bool) : List String → List Given × Bool
  | [] => ([], true)
  | tok :: rest =>
      match sideOf tok with
      | some side =>
          match rest with
          | [] => ([], false)
          | arg :: rest =>
              match readAddr net isIpv4 arg with
              | none => ([], false)
              | some a =>
                  let r := readLine net isIpv4 rest
                  (⟨side, a.1, a.2⟩ :: r.1, r.2)
      | none =>
          if tok = "port" ∨ tok = "queue" then
            match rest with
            | [] => ([], false)
            | arg :: rest =>
                if isStrNum arg then readLine net isIpv4 rest else ([], false)
          else readLine net isIpv4 rest

theorem parseMask_eq {token : String} {mask : UInt32} (h : parseMask token = some mask) :
    mask = cut (prefixLen token) := by
  rw [parseMask] at h
  rw [prefixLen]
  cases hpch : behindSlash token with
  | none =>
      rw [hpch] at h
      cases h
      rfl
  | some pch =>
      rw [hpch] at h
      dsimp only at h
      split at h
      · cases h
        rfl
      · cases h

theorem parseIpv4Addr_depth {token : String} {r : UInt32 × UInt32}
    (h : parseIpv4Addr env.net token = some r) : r.2 = cut (prefixLen token) := by
  rw [parseIpv4Addr] at h
  cases hmask : parseMask token with
  | none =>
      rw [hmask] at h
      cases h
  | some mask =>
      rw [hmask] at h
      obtain ⟨ip, -, rfl⟩ := Option.map_eq_some_iff.mp h
      exact parseMask_eq hmask

theorem parseIpv6Addr_depth {token : String} {r : Vector UInt8 16 × UInt32}
    (h : parseIpv6Addr env.net token = some r) : r.2 = cut (prefixLen token) := by
  rw [parseIpv6Addr] at h
  cases hmask : parseMask token with
  | none =>
      rw [hmask] at h
      cases h
  | some mask =>
      rw [hmask] at h
      dsimp only at h
      split at h
      · cases h
      · obtain ⟨ip, -, rfl⟩ := Option.map_eq_some_iff.mp h
        exact parseMask_eq hmask

/-- No keyword is the text of an address. -/
theorem readAddr_keyword (isIpv4 : Bool) {token : String}
    (h : token = "dst" ∨ token = "port" ∨ token = "queue") :
    readAddr env.net isIpv4 token = none := by
  have h4 : env.net.v4 (ipStr 16 token) = none := by
    rw [Option.eq_none_iff_forall_ne_some]
    intro a ha
    have hchars := env.net.v4_chars ha
    rcases h with rfl | rfl | rfl
    · exact absurd (hchars 't' (by decide)) (by decide)
    · exact absurd (hchars 't' (by decide)) (by decide)
    · exact absurd (hchars 'q' (by decide)) (by decide)
  have h6 : env.net.v6 (ipStr 256 token) = none := by
    rw [Option.eq_none_iff_forall_ne_some]
    intro a ha
    have hchars := env.net.v6_chars ha
    rcases h with rfl | rfl | rfl
    · exact absurd (hchars 't' (by decide)) (by decide)
    · exact absurd (hchars 't' (by decide)) (by decide)
    · exact absurd (hchars 'q' (by decide)) (by decide)
  rw [readAddr, parseIpv4Addr, parseIpv6Addr]
  cases parseMask token with
  | none => cases isIpv4 <;> rfl
  | some mask =>
      dsimp only
      rw [h4, h6]
      simp only [Option.map_none, ite_self]

/-! ## Masks -/

/-- The mask `ipv4_addr_cpy` stores. -/
def mask4 (depth : UInt32) : UInt32 :=
  if depth < 32 then env.shl 0xffffffff (32 - depth) else 0xffffffff

/-- The bytes of a mask whose first `d` bits `ipv6_addr_cpy` has cleared. -/
def cleared (d : Nat) : List UInt8 :=
  (List.range d).foldl
    (fun m i => m.modify (i / 8) (· &&& ~~~(UInt8.ofNat (2 ^ (7 - i % 8)))))
    (List.replicate 16 0xff)

/-- The mask stored for a prefix length. -/
def maskBytes (isIpv4 : Bool) (depth : UInt32) : List UInt8 :=
  if isIpv4 then toLe 4 (mask4 env depth).toNat else cleared depth.toNat

theorem cleared_succ (d : Nat) :
    cleared (d + 1)
      = (cleared d).modify (d / 8) (· &&& ~~~(UInt8.ofNat (2 ^ (7 - d % 8)))) := by
  rw [cleared, List.range_succ, List.foldl_append]
  rfl

@[simp] theorem length_cleared (d : Nat) : (cleared d).length = 16 := by
  induction d with
  | zero => exact List.length_replicate ..
  | succ d ih => rw [cleared_succ, List.length_modify, ih]

theorem toList_clearBit {mask : Vector UInt8 16} {i : Nat} (h : i / 8 < 16) :
    ∃ m, clearBit mask i = .ok m ∧ m.toList
      = mask.toList.modify (i / 8) (· &&& ~~~(UInt8.ofNat (2 ^ (7 - i % 8)))) := by
  refine ⟨_, dif_pos h, ?_⟩
  rw [Vector.toList_set, List.modify_eq_set_getElem?]
  have hlen : i / 8 < mask.toList.length := by
    rw [Vector.length_toList]
    exact h
  rw [List.getElem?_eq_getElem hlen]
  rfl

/-- The loop of `ipv6_addr_cpy` clears the first bits of the sixteen bytes. -/
theorem foldlM_clearBit {d : Nat} (hd : d ≤ 128) :
    ∃ m, (List.range d).foldlM clearBit (Vector.replicate 16 0xff) = .ok m ∧
      m.toList = cleared d := by
  induction d with
  | zero => exact ⟨_, rfl, Vector.toList_replicate⟩
  | succ d ih =>
      obtain ⟨m, hm, hlist⟩ := ih (Nat.le_of_succ_le hd)
      obtain ⟨m', hm', hlist'⟩ := @toList_clearBit m d (by omega)
      refine ⟨m', ?_, ?_⟩
      · rw [List.range_succ, List.foldlM_append, hm]
        show (List.foldlM clearBit m [d] : Except _ _) = _
        rw [List.foldlM_cons, hm']
        rfl
      · rw [hlist', hlist, cleared_succ]

/-- Longer prefixes are cleared behind them. -/
theorem foldlM_clearBit_overrun {d : Nat} (hd : 128 < d) :
    (List.range d).foldlM clearBit (Vector.replicate 16 0xff)
      = .error (.fault .overrun) := by
  induction d with
  | zero => exact absurd hd (Nat.not_lt_zero _)
  | succ d ih =>
      rw [List.range_succ, List.foldlM_append]
      rcases Nat.lt_or_ge 128 d with hlt | hge
      · rw [ih hlt]
        rfl
      · have hd : d = 128 := by omega
        subst hd
        obtain ⟨m, hm, -⟩ := foldlM_clearBit (Nat.le_refl 128)
        rw [hm]
        show (List.foldlM clearBit m [128] : Except _ _) = _
        rw [List.foldlM_cons]
        have hout : clearBit m 128 = .error (.fault .overrun) := dif_neg (by decide)
        rw [hout]
        rfl

theorem takeWhile_rounds (d : Nat) :
    ((List.range d).takeWhile fun i => i % 8 ≤ 16) = List.range d := by
  rw [List.takeWhile_eq_self_iff]
  intro i _
  exact decide_eq_true (by omega)

/-- Bit `i` of the lowest byte of a number in memory. -/
theorem netBit_toLe (v : Nat) {i : Nat} (hi : i < 8) :
    netBit (toLe 4 v) i = v.testBit (7 - i) := by
  have hbyte : (toLe 4 v).getD (i / 8) 0 = UInt8.ofNat v := by
    rw [Nat.div_eq_of_lt hi]
    show UInt8.ofNat (v / 256 ^ 0) = UInt8.ofNat v
    rw [Nat.pow_zero, Nat.div_one]
  rw [netBit, hbyte, UInt8.toNat_ofNat', Nat.mod_eq_of_lt hi, Nat.testBit_mod_two_pow,
    decide_eq_true (by omega), Bool.true_and]

theorem toLe_bytes (v : UInt32) : (toLe 4 v.toNat).length = 4 := length_toLe 4 _

/-- All bits. -/
theorem mask4_whole : IsPrefixMask 32 (toLe 4 (0xffffffff : UInt32).toNat) := by
  intro i hi
  rw [toLe_bytes] at hi
  have hones : ∀ i, i < 32 → netBit (toLe 4 (0xffffffff : UInt32).toNat) i = true := by
    decide
  rw [hones i hi, decide_eq_true hi]

/-- No bits: the number is zero. -/
theorem mask4_none_iff (v : UInt32) : IsPrefixMask 0 (toLe 4 v.toNat) ↔ v = 0 := by
  have hnone : ∀ i, i < 8 * 4 → netBit (toLe 4 0) i = false := by decide
  constructor
  · intro h
    have hzero : toLe 4 v.toNat = toLe 4 0 := by
      refine ext_netBit (by rw [length_toLe, length_toLe]) ?_
      intro i hi
      rw [h i hi, hnone i hi]
      rfl
    have hval := congrArg List.reverse hzero
    rw [toLe, toLe, List.reverse_reverse, List.reverse_reverse, toBe_inj] at hval
    have hlt : v.toNat < 256 ^ 4 := v.toNat_lt
    rw [Nat.mod_eq_of_lt hlt] at hval
    exact UInt32.toNat.inj hval
  · rintro rfl i hi
    have hbit : netBit (toLe 4 (0 : UInt32).toNat) i = false := hnone i hi
    rw [hbit]
    rfl

/-- Some bits: the low ones are zero, and lie in the first byte. -/
theorem mask4_part {d : Nat} (hpos : 0 < d) (hlt : d < 32) {n : UInt32}
    (hn : n.toNat = 32 - d) : ¬ IsPrefixMask d (toLe 4 ((0xffffffff : UInt32) <<< n).toNat) := by
  intro h
  have hlow : ∀ k, k < 32 - d → ((0xffffffff : UInt32) <<< n).toNat.testBit k = false := by
    intro k hk
    have hmod : (32 - d) % 32 = 32 - d := Nat.mod_eq_of_lt (by omega)
    rw [UInt32.toNat_shiftLeft, hn, hmod, Nat.testBit_mod_two_pow, Nat.testBit_shiftLeft,
      decide_eq_false (Nat.not_le_of_lt hk), Bool.false_and, Bool.and_false]
  have hbit : ∀ i, i < 8 → 7 - i < 32 - d → i < d → False := by
    intro i hi hk hid
    have hone := h i (by rw [toLe_bytes]; omega)
    rw [netBit_toLe _ hi, hlow _ hk, decide_eq_true hid] at hone
    cases hone
  rcases Nat.lt_or_ge d 8 with hsmall | hlarge
  · exact hbit 0 (by omega) (by omega) hpos
  · exact hbit 7 (by omega) (by omega) (by omega)

/-- **IPv4 MASKS**: shifted in host order, the mask is that of the prefix for 32
    bits, and for none when a shift by 32 gives zero. -/
theorem mask4_iff {d : Nat} (hd : d ≤ 32) :
    IsPrefixMask d (toLe 4 (mask4 env (UInt32.ofNat d)).toNat)
      ↔ d = 32 ∨ d = 0 ∧ env.wide 0xffffffff = 0 := by
  have hdepth : (UInt32.ofNat d).toNat = d := by
    rw [UInt32.toNat_ofNat', Nat.mod_eq_of_lt (by omega)]
  rcases Nat.eq_or_lt_of_le hd with rfl | hlt
  · have hmask : mask4 env (UInt32.ofNat 32) = 0xffffffff := by
      rw [mask4, if_neg (by decide)]
    rw [hmask]
    exact iff_of_true mask4_whole (.inl rfl)
  · have hlt' : UInt32.ofNat d < 32 := by
      rw [UInt32.lt_iff_toNat_lt, hdepth]
      exact hlt
    rw [mask4, if_pos hlt']
    rcases Nat.eq_zero_or_pos d with rfl | hpos
    · have hshl : env.shl 0xffffffff (32 - UInt32.ofNat 0) = env.wide 0xffffffff :=
        if_neg (by decide)
      rw [hshl, mask4_none_iff, or_iff_right (Nat.ne_of_lt hlt), and_iff_right rfl]
    · have hsub : (32 - UInt32.ofNat d).toNat = 32 - d := by
        rw [UInt32.toNat_sub_of_le _ _ (UInt32.le_of_lt hlt'), hdepth]
        rfl
      have hshl : env.shl 0xffffffff (32 - UInt32.ofNat d)
          = 0xffffffff <<< (32 - UInt32.ofNat d) := by
        refine if_pos ?_
        rw [UInt32.lt_iff_toNat_lt, hsub]
        show 32 - d < 32
        omega
      rw [hshl]
      refine iff_of_false (mask4_part hpos hlt hsub) ?_
      rintro (h | ⟨h, -⟩)
      · omega
      · omega

/-- The bits of the prefix are clear, the others set. -/
theorem netBit_cleared {d : Nat} (hd : d ≤ 128) {i : Nat} (hi : i < 128) :
    netBit (cleared d) i = !decide (i < d) := by
  induction d with
  | zero =>
      have hones : ∀ i, i < 128 → netBit (cleared 0) i = true := by decide
      rw [hones i hi]
      rfl
  | succ d ih =>
      have ih := ih (Nat.le_of_succ_le hd)
      have hlen := length_cleared d
      have hbit : netBit (cleared (d + 1)) i
          = (netBit (cleared d) i && !decide (d = i)) := by
        rw [netBit, netBit, cleared_succ, List.getD_eq_getElem?_getD,
          List.getElem?_modify, List.getD_eq_getElem?_getD,
          List.getElem?_eq_getElem (by omega)]
        rw [Option.map_eq_map, Option.map_some, Option.getD_some, Option.getD_some]
        by_cases hbyte : d / 8 = i / 8
        · have hsame : (7 - d % 8 = 7 - i % 8) ↔ d = i := by omega
          rw [if_pos hbyte, testBit_clear _ (by omega) (by omega), decide_eq_decide.mpr hsame]
        · have hne : d ≠ i := fun h => hbyte (by rw [h])
          rw [if_neg hbyte, decide_eq_false hne, Bool.not_false, Bool.and_true]
      rw [hbit, ih]
      by_cases hlt : i < d
      · rw [decide_eq_true hlt, decide_eq_true (Nat.lt_succ_of_lt hlt)]
        rfl
      · rw [decide_eq_false hlt]
        by_cases heq : d = i
        · rw [decide_eq_true heq, decide_eq_true (by omega)]
          rfl
        · rw [decide_eq_false heq, decide_eq_false (by omega)]
          rfl

/-- **IPv6 MASKS** are never that of their prefix. -/
theorem cleared_not_prefixMask {d : Nat} (hd : d ≤ 128) : ¬ IsPrefixMask d (cleared d) := by
  intro h
  have hfirst := h 0 (by rw [length_cleared]; omega)
  rw [netBit_cleared hd (by omega)] at hfirst
  cases hdec : decide (0 < d) with
  | true =>
      rw [hdec] at hfirst
      cases hfirst
  | false =>
      rw [hdec] at hfirst
      cases hfirst

/-! ## A round -/

/-- The addresses of a rule and their masks, as bytes. -/
def view (rule : FlowRuleEntry) (side : Side) : List UInt8 × List UInt8 :=
  if rule.isIpv4 then
    (toLe 4 (rule.ipv4 side).spec.toNat, toLe 4 (rule.ipv4 side).mask.toNat)
  else ((rule.ipv6 side).spec.toList, (rule.ipv6 side).mask.toList)

/-- What storing an address does to them. -/
def putView (isIpv4 : Bool) (v : Side → List UInt8 × List UInt8) (g : Given) :
    Side → List UInt8 × List UInt8 :=
  fun x => if x = g.side then (g.addr, maskBytes env isIpv4 (cut g.len)) else v x

theorem view_setIpv4 {rule : FlowRuleEntry} (h : rule.isIpv4 = true) (side : Side)
    (a : FlowAddr UInt32) (x : Side) :
    view (rule.setIpv4 side a) x
      = if x = side then (toLe 4 a.spec.toNat, toLe 4 a.mask.toNat) else view rule x := by
  rw [view, view, if_pos h]
  show (if rule.isIpv4 = true then _ else _) = _
  rw [if_pos h]
  by_cases hx : x = side
  · simp only [FlowRuleEntry.setIpv4, if_pos hx]
  · simp only [FlowRuleEntry.setIpv4, if_neg hx]

theorem view_setIpv6 {rule : FlowRuleEntry} (h : rule.isIpv4 = false) (side : Side)
    (a : FlowAddr (Vector UInt8 16)) (x : Side) :
    view (rule.setIpv6 side a) x
      = if x = side then (a.spec.toList, a.mask.toList) else view rule x := by
  rw [view, view, h, if_neg Bool.false_ne_true]
  show (if rule.isIpv4 = true then _ else _) = _
  rw [h, if_neg Bool.false_ne_true]
  by_cases hx : x = side
  · simp only [FlowRuleEntry.setIpv6, if_pos hx]
  · simp only [FlowRuleEntry.setIpv6, if_neg hx]

/-- The longest prefix of a family. -/
def limit (isIpv4 : Bool) : UInt32 := if isIpv4 then 32 else 128

/-- How an address option ends, with the tokens `rest` behind it. -/
inductive Copied (isIpv4 : Bool) (side : Side) (v : Side → List UInt8 × List UInt8)
    (rest : List String) : Except (Stop ParseStatus) FlowScan → Prop
  | missing (st : ParseStatus) (hrest : rest = []) : Copied isIpv4 side v rest (.error (.ret st))
  | unread (st : ParseStatus) (arg : String) (behind : List String)
      (hrest : rest = arg :: behind) (hread : readAddr env.net isIpv4 arg = none) :
      Copied isIpv4 side v rest (.error (.ret st))
  | long4 (st : ParseStatus) (arg : String) (behind : List String)
      (a : List UInt8 × Nat) (hrest : rest = arg :: behind)
      (hread : readAddr env.net isIpv4 arg = some a) (hfamily : isIpv4 = true)
      (hlong : 32 < cut a.2) : Copied isIpv4 side v rest (.error (.ret st))
  | long6 (f : ParseFault) (arg : String) (behind : List String)
      (a : List UInt8 × Nat) (hrest : rest = arg :: behind)
      (hread : readAddr env.net isIpv4 arg = some a) (hfamily : isIpv4 = false)
      (hlong : 128 < cut a.2) : Copied isIpv4 side v rest (.error (.fault f))
  | stored (s : FlowScan) (a : List UInt8 × Nat) (hrest : rest = s.cur :: s.rest)
      (hread : readAddr env.net isIpv4 s.cur = some a) (hfit : cut a.2 ≤ limit isIpv4)
      (hfamily : s.rule.isIpv4 = isIpv4)
      (hview : view s.rule = putView env isIpv4 v ⟨side, a.1, a.2⟩) :
      Copied isIpv4 side v rest (.ok s)

theorem flowAddr_copied {side : Side} {s : FlowScan} (hcur : s.cur = side.keyword) :
    Copied env s.rule.isIpv4 side (view s.rule) s.rest (flowAddr env side s) := by
  obtain ⟨cur, rest, rule, st⟩ := s
  rw [flowAddr, if_pos hcur]
  cases rest with
  | nil => exact .missing _ rfl
  | cons arg behind =>
      show Copied env rule.isIpv4 side (view rule) (arg :: behind)
        (if rule.isIpv4 = true then _ else _)
      cases hfamily : rule.isIpv4 with
      | true =>
          rw [if_pos rfl, ipv4AddrCpy]
          cases hparse : parseIpv4Addr env.net arg with
          | none => exact .unread _ arg behind rfl (by rw [readAddr, if_pos rfl, hparse]; rfl)
          | some r =>
              have hread : readAddr env.net true arg
                  = some (toLe 4 r.1.toNat, prefixLen arg) := by
                rw [readAddr, if_pos rfl, hparse]
                rfl
              have hdepth := parseIpv4Addr_depth env hparse
              obtain ⟨ip, depth⟩ := r
              dsimp only at hdepth ⊢
              -- a mask of more than 32 bits is refused
              by_cases hlong : 32 < depth
              · rw [if_pos hlong]
                exact .long4 _ arg behind _ rfl hread rfl (by rw [← hdepth]; exact hlong)
              · rw [if_neg hlong]
                refine .stored _ _ rfl hread ?_ hfamily ?_
                · rw [← hdepth]
                  exact UInt32.not_lt.mp hlong
                · funext x
                  refine (view_setIpv4 hfamily side _ x).trans ?_
                  rw [putView, ← hdepth]
                  rfl
      | false =>
          rw [if_neg Bool.false_ne_true, ipv6AddrCpy]
          cases hparse : parseIpv6Addr env.net arg with
          | none =>
              exact .unread _ arg behind rfl
                (by rw [readAddr, if_neg Bool.false_ne_true, hparse]; rfl)
          | some r =>
              have hread : readAddr env.net false arg
                  = some (r.1.toList, prefixLen arg) := by
                rw [readAddr, if_neg Bool.false_ne_true, hparse]
                rfl
              have hdepth := parseIpv6Addr_depth env hparse
              obtain ⟨ip, depth⟩ := r
              dsimp only at hdepth ⊢
              rw [takeWhile_rounds]
              -- clearing more bits than there are runs out of the array
              by_cases hlong : 128 < depth
              · rw [foldlM_clearBit_overrun (UInt32.lt_iff_toNat_lt.mp hlong)]
                exact .long6 _ arg behind _ rfl hread rfl (by rw [← hdepth]; exact hlong)
              · have hle : depth ≤ 128 := UInt32.not_lt.mp hlong
                obtain ⟨m, hm, hlist⟩ := foldlM_clearBit (UInt32.le_iff_toNat_le.mp hle)
                rw [hm]
                refine .stored _ _ rfl hread ?_ hfamily ?_
                · rw [← hdepth]
                  exact hle
                · funext x
                  refine (view_setIpv6 hfamily side _ x).trans ?_
                  rw [putView, ← hdepth, hlist]
                  rfl

theorem flowAddr_pass {side : Side} {s : FlowScan} (h : s.cur ≠ side.keyword) :
    flowAddr env side s = .ok s := if_neg h

theorem flowPort_pass {s : FlowScan} (h : s.cur ≠ "port") : flowPort s = .ok s := if_neg h

theorem flowQueue_pass {s : FlowScan} (h : s.cur ≠ "queue") : flowQueue s = .ok s := if_neg h

/-- The token left by an address is no keyword, so the round is over. -/
theorem flowRound_addr {side : Side} {s : FlowScan} (hcur : s.cur = side.keyword) :
    flowRound env s = flowAddr env side s := by
  -- what reads as an address is no keyword
  have hbehind : ∀ s', flowAddr env side s = .ok s' →
      s'.cur ≠ "dst" ∧ s'.cur ≠ "port" ∧ s'.cur ≠ "queue" := by
    intro s' hs'
    have hcopied := flowAddr_copied env hcur
    rw [hs'] at hcopied
    cases hcopied with
    | stored _ a _ hread =>
        have hno : ¬ (s'.cur = "dst" ∨ s'.cur = "port" ∨ s'.cur = "queue") := by
          intro h
          rw [readAddr_keyword env _ h] at hread
          cases hread
        exact ⟨fun h => hno (.inl h), fun h => hno (.inr (.inl h)),
          fun h => hno (.inr (.inr h))⟩
  rw [flowRound]
  cases side with
  | src =>
      cases hs' : flowAddr env .src s with
      | error e => rfl
      | ok s' =>
          obtain ⟨hdst, hport, hqueue⟩ := hbehind s' hs'
          show (do
            let s ← flowAddr env .dst s'
            let s ← flowPort s
            flowQueue s) = _
          rw [flowAddr_pass env hdst]
          show (do
            let s ← flowPort s'
            flowQueue s) = _
          rw [flowPort_pass hport]
          exact flowQueue_pass hqueue
  | dst =>
      rw [flowAddr_pass env (by rw [hcur]; decide)]
      show (do
        let s ← flowAddr env .dst s
        let s ← flowPort s
        flowQueue s) = _
      cases hs' : flowAddr env .dst s with
      | error e => rfl
      | ok s' =>
          obtain ⟨-, hport, hqueue⟩ := hbehind s' hs'
          show (do
            let s ← flowPort s'
            flowQueue s) = _
          rw [flowPort_pass hport]
          exact flowQueue_pass hqueue

/-- How an option with a number ends. -/
inductive Numbered (s : FlowScan) : Except (Stop ParseStatus) FlowScan → Prop
  | missing (st : ParseStatus) (hrest : s.rest = []) : Numbered s (.error (.ret st))
  | unread (st : ParseStatus) (arg : String) (behind : List String)
      (hrest : s.rest = arg :: behind) (hnum : isStrNum arg = false) :
      Numbered s (.error (.ret st))
  | stored (s' : FlowScan) (hrest : s.rest = s'.cur :: s'.rest)
      (hnum : isStrNum s'.cur = true) (hfamily : s'.rule.isIpv4 = s.rule.isIpv4)
      (hview : view s'.rule = view s.rule) : Numbered s (.ok s')

theorem flowPort_numbered {s : FlowScan} (hcur : s.cur = "port") :
    Numbered s (flowPort s) := by
  obtain ⟨cur, rest, rule, st⟩ := s
  rw [flowPort, if_pos hcur]
  cases rest with
  | nil => exact .missing _ rfl
  | cons arg behind =>
      show Numbered _ (do
        let s ← FlowScan.isNum ⟨arg, behind, rule, _⟩
        return { s with rule := { s.rule with port := (atoi s.cur).toUInt16 } })
      rw [FlowScan.isNum]
      cases hnum : isStrNum arg with
      | true => exact .stored _ rfl hnum rfl rfl
      | false => exact .unread _ arg behind rfl hnum

theorem flowQueue_numbered {s : FlowScan} (hcur : s.cur = "queue") :
    Numbered s (flowQueue s) := by
  obtain ⟨cur, rest, rule, st⟩ := s
  rw [flowQueue, if_pos hcur]
  cases rest with
  | nil => exact .missing _ rfl
  | cons arg behind =>
      show Numbered _ (do
        let s ← FlowScan.isNum ⟨arg, behind, rule, _⟩
        return { s with rule := { s.rule with queue := (atoi s.cur).toUInt16 } })
      rw [FlowScan.isNum]
      cases hnum : isStrNum arg with
      | true => exact .stored _ rfl hnum rfl rfl
      | false => exact .unread _ arg behind rfl hnum

/-- A token that is no address is compared with the two keywords behind. -/
theorem flowRound_behind {s : FlowScan} (hside : sideOf s.cur = none) :
    flowRound env s = (flowPort s >>= flowQueue) := by
  have hsrc : s.cur ≠ Side.src.keyword := by
    intro h
    rw [h] at hside
    cases hside
  have hdst : s.cur ≠ Side.dst.keyword := by
    intro h
    rw [h] at hside
    cases hside
  rw [flowRound, flowAddr_pass env hsrc]
  show (do
    let s ← flowAddr env .dst s
    let s ← flowPort s
    flowQueue s) = _
  rw [flowAddr_pass env hdst]
  rfl

theorem flowRound_num {s : FlowScan} (hcur : s.cur = "port" ∨ s.cur = "queue") :
    Numbered s (flowRound env s) := by
  rw [flowRound_behind env (by rcases hcur with h | h <;> rw [h] <;> decide)]
  rcases hcur with hport | hqueue
  · have hnumbered := flowPort_numbered hport
    cases hs' : flowPort s with
    | error e =>
        rw [hs'] at hnumbered
        exact hnumbered
    | ok s' =>
        rw [hs'] at hnumbered
        have hne : s'.cur ≠ "queue" := by
          cases hnumbered with
          | stored _ _ hnum =>
              intro h
              rw [h] at hnum
              exact absurd hnum (by decide)
        show Numbered s (flowQueue s')
        rw [flowQueue_pass hne]
        exact hnumbered
  · rw [flowPort_pass (by rw [hqueue]; decide)]
    exact flowQueue_numbered hqueue

theorem flowRound_pass {s : FlowScan} (hside : sideOf s.cur = none)
    (hnum : ¬ (s.cur = "port" ∨ s.cur = "queue")) : flowRound env s = .ok s := by
  rw [flowRound_behind env hside, flowPort_pass fun h => hnum (.inl h)]
  exact flowQueue_pass fun h => hnum (.inr h)

theorem sideOf_keyword {tok : String} {side : Side} (h : sideOf tok = some side) :
    tok = side.keyword := by
  rw [sideOf] at h
  split at h
  · cases h
    assumption
  · split at h
    · cases h
      assumption
    · cases h

/-! ## The loop -/

/-- How a run over a line ends that has given `r.1` up to its end or, when `r.2`
    is not set, up to an argument it does not understand. -/
inductive Ran (isIpv4 : Bool) (v : Side → List UInt8 × List UInt8)
    (r : List Given × Bool) : Except (Stop ParseStatus) FlowScan → Prop
  | stored (s : FlowScan) (hwhole : r.2 = true)
      (hfit : ∀ g ∈ r.1, cut g.len ≤ limit isIpv4)
      (hview : view s.rule = r.1.foldl (putView env isIpv4) v) : Ran isIpv4 v r (.ok s)
  | unread (st : ParseStatus) (hpart : r.2 = false)
      (hfit : ∀ g ∈ r.1, cut g.len ≤ limit isIpv4) : Ran isIpv4 v r (.error (.ret st))
  | long4 (st : ParseStatus) (hfamily : isIpv4 = true)
      (hlong : ∃ g ∈ r.1, 32 < cut g.len) : Ran isIpv4 v r (.error (.ret st))
  | long6 (f : ParseFault) (hfamily : isIpv4 = false)
      (hlong : ∃ g ∈ r.1, 128 < cut g.len) : Ran isIpv4 v r (.error (.fault f))

/-- One more address in front. -/
theorem Ran.cons {isIpv4 : Bool} {v : Side → List UInt8 × List UInt8}
    {r : List Given × Bool} {g : Given} {x : Except (Stop ParseStatus) FlowScan}
    (h : Ran env isIpv4 (putView env isIpv4 v g) r x)
    (hg : cut g.len ≤ limit isIpv4) : Ran env isIpv4 v (g :: r.1, r.2) x := by
  have hall : (∀ g' ∈ r.1, cut g'.len ≤ limit isIpv4) →
      ∀ g' ∈ g :: r.1, cut g'.len ≤ limit isIpv4 := by
    intro hr g' hg'
    rcases List.mem_cons.mp hg' with rfl | hg'
    · exact hg
    · exact hr g' hg'
  cases h with
  | stored s hwhole hfit hview => exact .stored s hwhole (hall hfit) hview
  | unread st hpart hfit => exact .unread st hpart (hall hfit)
  | long4 st hfamily hlong =>
      obtain ⟨g', hg', hlong⟩ := hlong
      exact .long4 st hfamily ⟨g', List.mem_cons_of_mem g hg', hlong⟩
  | long6 f hfamily hlong =>
      obtain ⟨g', hg', hlong⟩ := hlong
      exact .long6 f hfamily ⟨g', List.mem_cons_of_mem g hg', hlong⟩

/-- The rounds behind one that has begun with `s`. -/
def RunsOn (isIpv4 : Bool) (fuel : Nat) : Prop :=
  ∀ s : FlowScan, s.rest.length ≤ fuel → s.rule.isIpv4 = isIpv4 →
    Ran env isIpv4 (view s.rule) (readLine env.net isIpv4 s.rest) (flowLoop env fuel s)

/-- A round at an address. -/
theorem flowRound_ran_addr {fuel : Nat} {tok : String} {rest : List String}
    {rule : FlowRuleEntry} {st : ParseStatus} {side : Side} (hside : sideOf tok = some side)
    (hlen : rest.length ≤ fuel) (ih : RunsOn env rule.isIpv4 fuel) :
    Ran env rule.isIpv4 (view rule) (readLine env.net rule.isIpv4 (tok :: rest))
      (flowRound env ⟨tok, rest, rule, st⟩ >>= flowLoop env fuel) := by
  have hcur := sideOf_keyword hside
  rw [flowRound_addr env (s := ⟨tok, rest, rule, st⟩) hcur, readLine.eq_def]
  dsimp only
  rw [hside]
  have hcopied := flowAddr_copied env (s := ⟨tok, rest, rule, st⟩) hcur
  cases hcopy : flowAddr env side ⟨tok, rest, rule, st⟩ with
  | error e =>
      rw [hcopy] at hcopied
      show Ran env rule.isIpv4 (view rule) _ (.error e)
      cases hcopied with
      | missing st' hrest =>
          obtain rfl : rest = [] := hrest
          exact .unread st' rfl fun g hg => by cases hg
      | unread st' arg behind hrest hread =>
          obtain rfl : rest = arg :: behind := hrest
          dsimp only at hread ⊢
          rw [hread]
          exact .unread st' rfl fun g hg => by cases hg
      | long4 st' arg behind a hrest hread hfam hlong =>
          obtain rfl : rest = arg :: behind := hrest
          dsimp only at hread ⊢
          rw [hread]
          exact .long4 st' hfam ⟨_, List.mem_cons_self, hlong⟩
      | long6 f arg behind a hrest hread hfam hlong =>
          obtain rfl : rest = arg :: behind := hrest
          dsimp only at hread ⊢
          rw [hread]
          exact .long6 f hfam ⟨_, List.mem_cons_self, hlong⟩
  | ok s' =>
      rw [hcopy] at hcopied
      show Ran env rule.isIpv4 (view rule) _ (flowLoop env fuel s')
      cases hcopied with
      | stored _ a hrest hread hfit hfam hview =>
          obtain rfl : rest = s'.cur :: s'.rest := hrest
          dsimp only at hread hfam hview ⊢
          rw [hread]
          have hnext := ih s' (Nat.le_of_succ_le hlen) hfam
          rw [hview] at hnext
          exact hnext.cons env hfit

/-- A round at a number. -/
theorem flowRound_ran_num {fuel : Nat} {tok : String} {rest : List String}
    {rule : FlowRuleEntry} {st : ParseStatus} (hside : sideOf tok = none)
    (hnum : tok = "port" ∨ tok = "queue") (hlen : rest.length ≤ fuel)
    (ih : RunsOn env rule.isIpv4 fuel) :
    Ran env rule.isIpv4 (view rule) (readLine env.net rule.isIpv4 (tok :: rest))
      (flowRound env ⟨tok, rest, rule, st⟩ >>= flowLoop env fuel) := by
  rw [readLine.eq_def]
  dsimp only
  rw [hside]
  dsimp only
  rw [if_pos hnum]
  have hnumbered := flowRound_num env (s := ⟨tok, rest, rule, st⟩) hnum
  cases hround : flowRound env ⟨tok, rest, rule, st⟩ with
  | error e =>
      rw [hround] at hnumbered
      show Ran env rule.isIpv4 (view rule) _ (.error e)
      cases hnumbered with
      | missing st' hrest =>
          obtain rfl : rest = [] := hrest
          exact .unread st' rfl fun g hg => by cases hg
      | unread st' arg behind hrest hno =>
          obtain rfl : rest = arg :: behind := hrest
          dsimp only
          rw [hno]
          exact .unread st' rfl fun g hg => by cases hg
  | ok s' =>
      rw [hround] at hnumbered
      show Ran env rule.isIpv4 (view rule) _ (flowLoop env fuel s')
      cases hnumbered with
      | stored _ hrest hyes hfam hview =>
          obtain rfl : rest = s'.cur :: s'.rest := hrest
          dsimp only at hfam hview ⊢
          rw [if_pos hyes, ← hview]
          exact ih s' (Nat.le_of_succ_le hlen) hfam

/-- **A LINE** is stored as it is read. -/
theorem flowLoop_ran {isIpv4 : Bool} {fuel : Nat} {s : FlowScan}
    (hfuel : s.rest.length ≤ fuel) (hfamily : s.rule.isIpv4 = isIpv4) :
    Ran env isIpv4 (view s.rule) (readLine env.net isIpv4 s.rest)
      (flowLoop env fuel s) := by
  induction fuel generalizing s with
  | zero =>
      obtain ⟨cur, rest, rule, st⟩ := s
      have hrest : rest = [] := List.length_eq_zero_iff.mp (Nat.le_zero.mp hfuel)
      subst hrest
      exact .stored _ rfl (fun g hg => by cases hg) rfl
  | succ fuel ih =>
      obtain ⟨cur, rest, rule, st⟩ := s
      cases rest with
      | nil => exact .stored _ rfl (fun g hg => by cases hg) rfl
      | cons tok rest =>
          have hlen : rest.length ≤ fuel := Nat.le_of_succ_le_succ hfuel
          subst hfamily
          have hnext : RunsOn env rule.isIpv4 fuel := fun s => ih
          cases hside : sideOf tok with
          | some side => exact flowRound_ran_addr env hside hlen hnext
          | none =>
              by_cases hnum : tok = "port" ∨ tok = "queue"
              · exact flowRound_ran_num env hside hnum hlen hnext
              · show Ran env rule.isIpv4 (view rule)
                  (readLine env.net rule.isIpv4 (tok :: rest))
                  (flowRound env ⟨tok, rest, rule, st⟩ >>= flowLoop env fuel)
                rw [readLine.eq_def]
                dsimp only
                rw [hside]
                dsimp only
                rw [if_neg hnum, flowRound_pass env (s := ⟨tok, rest, rule, st⟩) hside hnum]
                exact ih (s := ⟨tok, rest, rule, st⟩) hlen rfl

/-! ## Exact rules -/

/-- Bytes of an address. -/
def addrBytes (isIpv4 : Bool) : Nat := if isIpv4 then 4 else 16

theorem readAddr_length {isIpv4 : Bool} {arg : String} {a : List UInt8 × Nat}
    (h : readAddr env.net isIpv4 arg = some a) : a.1.length = addrBytes isIpv4 := by
  rw [readAddr] at h
  cases isIpv4 with
  | true =>
      rw [if_pos rfl] at h
      obtain ⟨r, -, rfl⟩ := Option.map_eq_some_iff.mp h
      exact length_toLe 4 _
  | false =>
      rw [if_neg Bool.false_ne_true] at h
      obtain ⟨r, -, rfl⟩ := Option.map_eq_some_iff.mp h
      exact Vector.length_toList

theorem readLine_length (isIpv4 : Bool) (tokens : List String) :
    ∀ g ∈ (readLine env.net isIpv4 tokens).1, g.addr.length = addrBytes isIpv4 := by
  fun_induction readLine env.net isIpv4 tokens with
  | case4 tok side hside arg rest a hread r ih =>
      intro g hg
      rcases List.mem_cons.mp hg with rfl | hg
      · exact readAddr_length env hread
      · exact ih g hg
  | case6 _ _ _ _ _ _ ih => exact ih
  | case8 _ _ _ _ ih => exact ih
  | _ =>
      intro g hg
      cases hg

/-- What the last address given for a side leaves. -/
theorem foldl_putView {isIpv4 : Bool} {gs : List Given} {side : Side}
    (h : ∃ g ∈ gs, g.side = side) (v : Side → List UInt8 × List UInt8) :
    ∃ g ∈ gs, g.side = side ∧
      gs.foldl (putView env isIpv4) v side = (g.addr, maskBytes env isIpv4 (cut g.len)) := by
  induction gs generalizing v with
  | nil =>
      obtain ⟨g, hg, -⟩ := h
      cases hg
  | cons g gs ih =>
      by_cases hlater : ∃ g' ∈ gs, g'.side = side
      · obtain ⟨g', hg', hside, hput⟩ := ih hlater (putView env isIpv4 v g)
        exact ⟨g', List.mem_cons_of_mem g hg', hside, hput⟩
      · have hkeep : ∀ (l : List Given) v, (¬ ∃ g' ∈ l, g'.side = side) →
            l.foldl (putView env isIpv4) v side = v side := by
          intro l
          induction l with
          | nil => exact fun v _ => rfl
          | cons x l ihl =>
              intro v hnone
              rw [List.foldl_cons, ihl]
              · refine if_neg fun hx => hnone ⟨x, List.mem_cons_self, hx.symm⟩
              · rintro ⟨g', hg', hside⟩
                exact hnone ⟨g', List.mem_cons_of_mem x hg', hside⟩
        have hhere : g.side = side := by
          obtain ⟨g', hg', hside⟩ := h
          rcases List.mem_cons.mp hg' with rfl | hg'
          · exact hside
          · exact absurd ⟨g', hg', hside⟩ hlater
        refine ⟨g, List.mem_cons_self, hhere, ?_⟩
        rw [List.foldl_cons, hkeep gs _ hlater]
        exact if_pos hhere.symm

/-- The bits of an address. -/
def width (isIpv4 : Bool) : Nat := 8 * addrBytes isIpv4

/-- The rule matches an address given for one of its sides exactly where the
    address and its prefix length say. -/
def Exact (rule : FlowRuleEntry) (g : Given) : Prop :=
  ∀ x, x.length = g.addr.length →
    (Matches (view rule g.side).1 (view rule g.side).2 x ↔ SharesPrefix g.len g.addr x)

/-- What a rule should be for the addresses a line gives. -/
structure RuleRight (isIpv4 : Bool) (rule : FlowRuleEntry) (gs : List Given) :
    Prop where
  short : ∀ g ∈ gs, g.len ≤ width isIpv4
  exact : ∀ g ∈ gs, Exact rule g

/-- The addresses a line gives, up to the first argument that is none. -/
def givenBy (tok : String) (tokens : List String) : List Given :=
  (readLine env.net (family tok = some true) tokens).1

/-- **FLOW LINES AS PROMISED**: the parser stays inside the masks, and stores no
    rule or one that matches the prefixes of the line. -/
def LineRight (tbl : List FlowRuleEntry) (tok : String) (tokens : List String)
    (st : ParseStatus) : Prop :=
  ∃ tbl' st', parseFlowTokens env tbl tok tokens st = .ok (tbl', st') ∧
    (tbl' = tbl ∨ ∃ rule, tbl' = tbl ++ [rule] ∧
      RuleRight (family tok = some true) rule (givenBy env tok tokens))

/-- IPv4 addresses the masks are right for: given with all 32 bits, or with none
    when the shift by 32 gives zero, and the same wherever a side is given
    again. -/
def WholeOrNone (gs : List Given) : Prop :=
  ∀ g ∈ gs, (g.len = 32 ∨ g.len = 0 ∧ env.wide 0xffffffff = 0) ∧
    ∀ g' ∈ gs, g'.side = g.side → g'.len = g.len ∧ (g.len = 32 → g'.addr = g.addr)

/-- Lines that are not stored, or hold what the masks are right for. -/
def LineFits (tbl : List FlowRuleEntry) (tok : String) (tokens : List String) : Prop :=
  tbl.length < flowRulesMax →
    (family tok = some true →
      (readLine env.net true tokens).2 = true →
        (∃ g ∈ (readLine env.net true tokens).1, 32 < cut g.len) ∨
          WholeOrNone env (readLine env.net true tokens).1) ∧
    (family tok = some false →
      (∀ g ∈ (readLine env.net false tokens).1, cut g.len ≤ 128) ∧
        ((readLine env.net false tokens).2 = true →
          (readLine env.net false tokens).1 = []))

theorem cut_eq {n : Nat} (h : n ≤ 128) : cut n = UInt32.ofNat n := by
  rw [cut, Nat.min_eq_left (by omega)]

theorem cut_toNat {n : Nat} (h : n ≤ 128) : (cut n).toNat = n := by
  rw [cut_eq h, UInt32.toNat_ofNat', Nat.mod_eq_of_lt (by omega)]

/-- What the addresses of a stored rule are. -/
structure StoredAs (isIpv4 : Bool) (rule : FlowRuleEntry) (gs : List Given) : Prop where
  bytes : ∀ g ∈ gs, g.addr.length = addrBytes isIpv4
  last : ∀ g ∈ gs, ∃ l ∈ gs, l.side = g.side ∧
    view rule g.side = (l.addr, maskBytes env isIpv4 (cut l.len))

theorem length_maskBytes (isIpv4 : Bool) (depth : UInt32) :
    (maskBytes env isIpv4 depth).length = addrBytes isIpv4 := by
  rw [maskBytes, addrBytes]
  cases isIpv4 with
  | true => exact length_toLe 4 _
  | false => exact length_cleared _

variable {env}

/-- An exact rule has the mask of the prefix that was stored. -/
theorem StoredAs.prefixMask {isIpv4 : Bool} {rule : FlowRuleEntry} {gs : List Given}
    (h : StoredAs env isIpv4 rule gs) {l : Given} (hl : l ∈ gs)
    (hview : view rule l.side = (l.addr, maskBytes env isIpv4 (cut l.len)))
    (hlen : l.len ≤ width isIpv4) :
    Exact rule l ↔ IsPrefixMask l.len (maskBytes env isIpv4 (cut l.len)) := by
  have hbytes : l.addr.length = (maskBytes env isIpv4 (cut l.len)).length := by
    rw [h.bytes l hl, length_maskBytes]
  rw [Exact, hview]
  refine matches_prefix_iff hbytes ?_
  rw [length_maskBytes]
  exact hlen

/-- **IPv6** rules are right when they hold no address. -/
theorem StoredAs.right6 {rule : FlowRuleEntry} {gs : List Given}
    (h : StoredAs env false rule gs) : RuleRight false rule gs ↔ gs = [] := by
  constructor
  · intro hright
    rw [List.eq_nil_iff_forall_not_mem]
    intro g hg
    obtain ⟨l, hl, hside, hview⟩ := h.last g hg
    rw [← hside] at hview
    have hlen := hright.short l hl
    have hmask := (h.prefixMask hl hview hlen).mp (hright.exact l hl)
    have hlen : l.len ≤ 128 := hlen
    have hcleared : maskBytes env false (cut l.len) = cleared l.len := by
      show cleared (cut l.len).toNat = cleared l.len
      rw [cut_toNat hlen]
    rw [hcleared] at hmask
    exact cleared_not_prefixMask hlen hmask
  · rintro rfl
    exact ⟨fun g hg => (by cases hg), fun g hg => (by cases hg)⟩

theorem maskBytes_iff {d : Nat} (hd : d ≤ 32) :
    IsPrefixMask d (maskBytes env true (cut d))
      ↔ d = 32 ∨ d = 0 ∧ env.wide 0xffffffff = 0 := by
  rw [cut_eq (Nat.le_trans hd (by omega))]
  exact mask4_iff env hd

/-- Addresses of one side that are both matched exactly. -/
theorem Exact.same {rule : FlowRuleEntry} {g g' : Given} (h : Exact rule g)
    (h' : Exact rule g') (hside : g'.side = g.side) (hbytes : g.addr.length = 4)
    (hbytes' : g'.addr.length = 4) (hlen : g.len ≤ 32) (hlen' : g'.len ≤ 32) :
    g'.len = g.len ∧ (g.len = 32 → g'.addr = g.addr) := by
  have hsame : ∀ x, x.length = 4 →
      (SharesPrefix g.len g.addr x ↔ SharesPrefix g'.len g'.addr x) := by
    intro x hx
    rw [← h x (hx.trans hbytes.symm), ← h' x (hx.trans hbytes'.symm), hside]
  have hle : g'.len ≤ g.len := le_of_samePrefix (by omega) fun x hx =>
    hsame x (hx.trans hbytes)
  have hge : g.len ≤ g'.len := le_of_samePrefix (by omega) fun x hx =>
    (hsame x (hx.trans hbytes')).symm
  refine ⟨Nat.le_antisymm hle hge, ?_⟩
  intro hwhole
  have hshare := (hsame g'.addr hbytes').mpr fun _ _ => rfl
  refine ext_netBit (hbytes'.trans hbytes.symm) ?_
  intro i hi
  exact hshare i (by omega)

/-- **IPv4** rules are right when whole addresses are given, or none of their
    bits. -/
theorem StoredAs.right4 {rule : FlowRuleEntry} {gs : List Given}
    (h : StoredAs env true rule gs) : RuleRight true rule gs ↔ WholeOrNone env gs := by
  constructor
  · intro hright g hg
    have hsame : ∀ g' ∈ gs, g'.side = g.side →
        g'.len = g.len ∧ (g.len = 32 → g'.addr = g.addr) := by
      intro g' hg' hside
      exact (hright.exact g hg).same (hright.exact g' hg') hside (h.bytes g hg)
        (h.bytes g' hg') (hright.short g hg) (hright.short g' hg')
    refine ⟨?_, hsame⟩
    obtain ⟨l, hl, hside, hview⟩ := h.last g hg
    have hshort := hright.short l hl
    have hmask := (h.prefixMask hl (by rw [hside]; exact hview) hshort).mp
      (hright.exact l hl)
    rw [← (hsame l hl hside).1]
    exact (maskBytes_iff hshort).mp hmask
  · intro hwhole
    refine ⟨?_, ?_⟩
    · intro g hg
      show g.len ≤ 32
      rcases (hwhole g hg).1 with hlen | ⟨hlen, -⟩ <;> omega
    · intro g hg
      obtain ⟨l, hl, hside, hview⟩ := h.last g hg
      obtain ⟨hkind, hothers⟩ := hwhole l hl
      obtain ⟨hlen, haddr⟩ := hothers g hg hside.symm
      have hshort : l.len ≤ 32 := by rcases hkind with hlen | ⟨hlen, -⟩ <;> omega
      have hexact := (h.prefixMask hl (by rw [hside]; exact hview) hshort).mpr
        ((maskBytes_iff hshort).mpr hkind)
      intro x hx
      have hx' : x.length = l.addr.length := by
        rw [hx, h.bytes g hg, h.bytes l hl]
      have hiff := hexact x hx'
      rw [hside] at hiff
      rw [hiff, hlen]
      rcases hkind with hwhole | ⟨hnone, -⟩
      · rw [haddr hwhole]
      · rw [hnone]
        exact ⟨fun _ i hi => absurd hi (Nat.not_lt_zero i),
          fun _ i hi => absurd hi (Nat.not_lt_zero i)⟩

variable (env)

/-- A line that is stored. -/
theorem storedAs_of_view {isIpv4 : Bool} {tokens : List String} {s : FlowScan}
    {v : Side → List UInt8 × List UInt8}
    (hview : view s.rule
      = (readLine env.net isIpv4 tokens).1.foldl (putView env isIpv4) v) :
    StoredAs env isIpv4 s.rule (readLine env.net isIpv4 tokens).1 where
  bytes := readLine_length env isIpv4 tokens
  last g hg := by
    obtain ⟨l, hl, hside, hput⟩ := foldl_putView env ⟨g, hg, rfl⟩ v
    exact ⟨l, hl, hside, by rw [hview]; exact hput⟩

/-- The table with one rule more is the one with a rule that `P` holds of. -/
theorem appended_iff (tbl : List FlowRuleEntry) (rule : FlowRuleEntry) (st : ParseStatus)
    (P : FlowRuleEntry → Prop) :
    (∃ tbl' st', (Except.ok (tbl ++ [rule], st) : Except ParseFault _) = .ok (tbl', st')
      ∧ (tbl' = tbl ∨ ∃ rule', tbl' = tbl ++ [rule'] ∧ P rule')) ↔ P rule := by
  constructor
  · rintro ⟨tbl', st', heq, h⟩
    cases heq
    rcases h with h | ⟨rule', hrule, hP⟩
    · have hlen := congrArg List.length h
      rw [List.length_append, List.length_singleton] at hlen
      omega
    · cases List.append_cancel_left hrule
      exact hP
  · intro h
    exact ⟨_, _, rfl, .inr ⟨_, rfl, h⟩⟩

/-- **WHICH LINES ARE RIGHT**: those that are not stored, and those whose IPv4
    addresses are given whole, or with none of their bits where the shift by 32
    gives zero. -/
theorem lineRight_iff (tbl : List FlowRuleEntry) (tok : String) (tokens : List String)
    (st : ParseStatus) :
    LineRight env tbl tok tokens st ↔ LineFits env tbl tok tokens := by
  rw [LineRight, LineFits, parseFlowTokens]
  by_cases hfull : flowRulesMax ≤ tbl.length
  · rw [if_pos hfull]
    exact ⟨fun _ h => absurd h (Nat.not_lt_of_le hfull),
      fun _ => ⟨tbl, st, rfl, .inl rfl⟩⟩
  rw [if_neg hfull]
  have hroom : tbl.length < flowRulesMax := Nat.lt_of_not_le hfull
  cases hfam : family tok with
  | none =>
      exact ⟨fun _ _ => ⟨fun h => (by cases h), fun h => (by cases h)⟩,
        fun _ => ⟨tbl, _, rfl, .inl rfl⟩⟩
  | some isIpv4 =>
      dsimp only
      have hran := flowLoop_ran env (s := ⟨tok, tokens, { isIpv4 := isIpv4 }, st⟩)
        (Nat.le_refl _) rfl
      have hgiven : givenBy env tok tokens = (readLine env.net isIpv4 tokens).1 := by
        rw [givenBy, hfam]
        cases isIpv4 <;> rfl
      -- the family is the one the line began with
      have hdec : (some isIpv4 = some true : Bool) = isIpv4 := by cases isIpv4 <;> rfl
      rw [hgiven, hdec]
      dsimp only at hran
      cases hloop : flowLoop env tokens.length ⟨tok, tokens, { isIpv4 := isIpv4 }, st⟩ with
      | ok s =>
          rw [hloop] at hran
          cases hran with
          -- the rule has been built: what it stores is what was given
          | stored _ hwhole hfit hview =>
              have hstored := storedAs_of_view env hview
              dsimp only
              rw [appended_iff]
              cases isIpv4 with
              | true =>
                  rw [hstored.right4]
                  constructor
                  · intro h _
                    exact ⟨fun _ _ => .inr h, fun hno => (by cases hno)⟩
                  · intro h
                    refine ((h hroom).1 rfl hwhole).resolve_left ?_
                    rintro ⟨g, hg, hlong⟩
                    exact absurd (hfit g hg) (UInt32.not_le.mpr hlong)
              | false =>
                  rw [hstored.right6]
                  constructor
                  · intro h _
                    exact ⟨fun hno => (by cases hno), fun _ => ⟨hfit, fun _ => h⟩⟩
                  · intro h
                    exact ((h hroom).2 rfl).2 hwhole
      | error e =>
          rw [hloop] at hran
          cases hran with
          -- no rule: right only if the line was not whole
          | unread st' hpart hfit =>
              refine ⟨fun _ _ => ?_, fun _ => ⟨tbl, st', rfl, .inl rfl⟩⟩
              cases isIpv4 with
              | true =>
                  exact ⟨fun _ hwhole => absurd (hpart.symm.trans hwhole) Bool.false_ne_true,
                    fun hno => (by cases hno)⟩
              | false =>
                  refine ⟨fun hno => (by cases hno), fun _ => ⟨hfit, ?_⟩⟩
                  intro hwhole
                  exact absurd (hpart.symm.trans hwhole) Bool.false_ne_true
          | long4 st' hfamily hlong =>
              subst hfamily
              refine ⟨fun _ _ => ?_, fun _ => ⟨tbl, st', rfl, .inl rfl⟩⟩
              exact ⟨fun _ _ => .inl hlong, fun hno => (by cases hno)⟩
          | long6 f hfamily hlong =>
              subst hfamily
              constructor
              · rintro ⟨tbl', st', heq, -⟩
                cases heq
              · intro h
                obtain ⟨g, hg, hlong⟩ := hlong
                exact absurd (((h hroom).2 rfl).1 g hg) (UInt32.not_le.mpr hlong)

/-! ## Three lines -/

/-- `inet_pton` for `10.1.2.0` and `2001:db8::`. -/
def twoAddresses : InetPton where
  v4 s := if s = "10.1.2.0".toList then some 0x0002010a else none
  v6 s :=
    if s = "2001:db8::".toList then
      some #v[0x20, 0x01, 0x0d, 0xb8, 0, 0, 0, 0, 0, 0, 0, 0, 0, 0, 0, 0]
    else none
  v4_chars := by
    intro s a h
    split at h
    · rename_i hs
      rw [hs]
      exact all_mem rfl
    · cases h
  v6_chars := by
    intro s a h
    split at h
    · rename_i hs
      rw [hs]
      exact all_mem rfl
    · cases h

/-- A processor that shifts by the low five bits of a count. -/
def modularShift : FlowEnv := ⟨twoAddresses, fun x => x⟩

/-- The rule of the first line has the mask 0.255.255.255. -/
def hostOrderRule : FlowRuleEntry :=
  FlowRuleEntry.setIpv4 { isIpv4 := true } .src ⟨0x0002010a, 0xffffff00⟩

/-- A prefix of 24 bits matches `11.1.2.0` as well as `10.1.2.0`, one of 32 bits
    for IPv6 does not care what the first bits are, and one of 129 bits clears a
    bit behind the mask. -/
theorem lines_go_wrong :
    ¬ LineRight modularShift [] "ipv4" ["src", "10.1.2.0/24"] {} ∧
    ¬ LineRight modularShift [] "ipv6" ["dst", "2001:db8::/32"] {} ∧
    ¬ LineRight modularShift [] "ipv6" ["dst", "2001:db8::/129"] {} := by
  refine ⟨?_, ?_, ?_⟩
  · rintro ⟨tbl', st', hrun, hstored⟩
    have hok : parseFlowTokens modularShift [] "ipv4" ["src", "10.1.2.0/24"] {}
        = .ok ([hostOrderRule], {}) := rfl
    rw [hok] at hrun
    cases hrun
    rcases hstored with h | ⟨rule, hrule, hright⟩
    · cases h
    · obtain rfl : hostOrderRule = rule := List.head_eq_of_cons_eq hrule
      have hexact := hright.exact ⟨.src, [10, 1, 2, 0], 24⟩ (List.mem_singleton.mpr rfl)
        [11, 1, 2, 0] rfl
      have hbit := hexact.mp rfl 7 (by decide)
      exact absurd hbit (by decide)
  · rintro ⟨tbl', st', hrun, hstored⟩
    have hok : ∃ rule st', parseFlowTokens modularShift [] "ipv6" ["dst", "2001:db8::/32"] {}
        = .ok ([rule], st') ∧ view rule .dst
          = ([0x20, 0x01, 0x0d, 0xb8, 0, 0, 0, 0, 0, 0, 0, 0, 0, 0, 0, 0], cleared 32) :=
      ⟨_, _, rfl, rfl⟩
    obtain ⟨rule', st'', hok, hview⟩ := hok
    rw [hok] at hrun
    cases hrun
    rcases hstored with h | ⟨rule, hrule, hright⟩
    · cases h
    · obtain rfl : rule' = rule := List.head_eq_of_cons_eq hrule
      have hexact := hright.exact
        ⟨.dst, [0x20, 0x01, 0x0d, 0xb8, 0, 0, 0, 0, 0, 0, 0, 0, 0, 0, 0, 0], 32⟩
        (List.mem_singleton.mpr rfl)
        [0, 0, 0, 0, 0, 0, 0, 0, 0, 0, 0, 0, 0, 0, 0, 0] rfl
      rw [hview] at hexact
      have hbit := hexact.mp (by unfold Matches; decide) 2 (by decide)
      exact absurd hbit (by decide)
  · rintro ⟨tbl', st', hrun, -⟩
    have hfault : parseFlowTokens modularShift [] "ipv6" ["dst", "2001:db8::/129"] {}
        = .error .overrun := rfl
    rw [hfault] at hrun
    cases hrun

end FlowRule
