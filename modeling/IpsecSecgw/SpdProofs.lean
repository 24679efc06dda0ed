import IpsecSecgw.AclModel
import IpsecSecgw.CfgLinesProofs
import IpsecSecgw.OutboundPolicyProofs
import IpsecSecgw.SpBindProofs
import IpsecSecgw.SpRuleProofs

/-! # The policies of a configuration

    A SP line is an entry of a security policy database: a selector over the headers of
    a packet, a priority and an action (`Says`).  The database decides for an entry of
    highest priority among those that select the packet, and discards the packet where
    there is none (`spdKind`).

    The way from the lines to a packet is long: fields of 32 bits in host order, a sort
    by SPI, SPIs that become indices of SAs, and the library.  None of this changes the
    decision (`policies_refined`). -/

namespace Spd

open ByteStore NetPrefix Growing HalvingSearch SaModel ParserModel ParseRange ParseAddr
open Rt SpParse CfgLines SpInit SpAcl SaInit SadModel WorkerModel IpsecModel SecgwModel
open OutboundPolicy Outcome Sweep
open SpiSearch (saEntries)

/-! ## Entries -/

/-- What happens to a packet. -/
inductive Action
  | protect (spi : UInt32)
  | bypass
  | discard

/-- Where the headers of a family keep what is looked at. -/
structure Header where
  proto : Nat
  src : Nat
  dst : Nat
  ports : Nat
  addrLen : Nat

/-- IPv4 without options, IPv6 without extensions. -/
def header (isV4 : Bool) : Header := if isV4 then ⟨9, 12, 16, 20, 4⟩ else ⟨6, 8, 24, 40, 16⟩

/-- An entry: the bits of the protocol, the prefixes of the addresses, the ranges of the
    ports. -/
structure Entry where
  priority : Int
  action : Action
  proto : UInt8 × UInt8
  src : List UInt8 × Nat
  dst : List UInt8 × Nat
  sport : UInt16 × UInt16
  dport : UInt16 × UInt16

/-- A number is in a range. -/
def InPorts (range : UInt16 × UInt16) (x : Nat) : Prop :=
  range.1.toNat ≤ x ∧ x ≤ range.2.toNat

/-- An entry selects a packet with its header at `ip`. -/
structure Entry.Selects (h : Header) (e : Entry) (b : Nat → UInt8) (ip : Nat) : Prop where
  proto : b (ip + h.proto) &&& e.proto.2 = e.proto.1 &&& e.proto.2
  src : SharesPrefix e.src.2 e.src.1 (load b (ip + h.src) h.addrLen)
  dst : SharesPrefix e.dst.2 e.dst.1 (load b (ip + h.dst) h.addrLen)
  sport : InPorts e.sport (ofBe (load b (ip + h.ports) 2))
  dport : InPorts e.dport (ofBe (load b (ip + h.ports + 2) 2))

/-- The database. -/
def spdKind (h : Header) : Ranked.Kind Entry ((Nat → UInt8) × Nat) Action where
  takes := fun e q => e.Selects h q.1 q.2
  rank := Entry.priority
  verdict := Entry.action
  other := .discard

/-! ## Lines -/

/-- An entry is what the options of a line say.  A missing address is any; a missing
    range of ports is the port zero. -/
structure Says {α : Type} (pton : List Char → Option α) (netBytes : α → List UInt8)
    (bound : Nat) (opts : List SpOpt) (e : Entry) : Prop where
  priority : ∀ v, .pri v ∈ opts → e.priority = (atoi v).toInt32.toInt
  noPriority : (∀ v, .pri v ∉ opts) → e.priority = 0
  protect : ∀ spi, .protect spi ∈ opts → e.action = .protect (atoi spi)
  bypass : .bypass ∈ opts → e.action = .bypass
  discard : .discard ∈ opts → e.action = .discard
  action : (∃ spi, .protect spi ∈ opts) ∨ .bypass ∈ opts ∨ .discard ∈ opts
  proto : ∀ tok, .proto tok ∈ opts → RangeText tok e.proto.1.toUInt16 e.proto.2.toUInt16
  noProto : (∀ tok, .proto tok ∉ opts) → e.proto.2 = 0
  src : ∀ tok, .src tok ∈ opts →
    ∃ ip, AddrText pton bound tok ip e.src.2 ∧ e.src.1 = netBytes ip
  noSrc : (∀ tok, .src tok ∉ opts) → e.src.2 = 0
  dst : ∀ tok, .dst tok ∈ opts →
    ∃ ip, AddrText pton bound tok ip e.dst.2 ∧ e.dst.1 = netBytes ip
  noDst : (∀ tok, .dst tok ∉ opts) → e.dst.2 = 0
  sport : ∀ tok, .sport tok ∈ opts → RangeText tok e.sport.1 e.sport.2
  noSport : (∀ tok, .sport tok ∉ opts) → e.sport = (0, 0)
  dport : ∀ tok, .dport tok ∈ opts → RangeText tok e.dport.1 e.dport.2
  noDport : (∀ tok, .dport tok ∉ opts) → e.dport = (0, 0)

/-- An option is written in the documented form. -/
def OptRight {α : Type} (pton : List Char → Option α) (bound : Nat) : SpOpt → Prop
  | .src tok => ∃ ip n, AddrText pton bound tok ip n
  | .dst tok => ∃ ip n, AddrText pton bound tok ip n
  | o => RangeRight o

/-- The network bytes of an IPv4 address. -/
def bytes4 (ip : UInt32) : List UInt8 := toLe 4 ip.toNat

/-- A line says an entry of a family. -/
def LineSays (net : InetPton) (isV4 : Bool) : CfgLine → Entry → Prop
  | .sp4 _ tokens, e => isV4 = true ∧ Says net.v4 bytes4 32 (lineOpts tokens) e
  | .sp6 _ tokens, e => isV4 = false ∧ Says net.v6 Vector.toList 128 (lineOpts tokens) e
  | .sa .., _ => False

/-- All options of a line are written in the documented form. -/
def LineRight (net : InetPton) : CfgLine → Prop
  | .sp4 _ tokens => ∀ o ∈ lineOpts tokens, OptRight net.v4 32 o
  | .sp6 _ tokens => ∀ o ∈ lineOpts tokens, OptRight net.v6 128 o
  | .sa .. => True

/-! ## Options that are not there -/

variable {n : Nat} {fam : SpFamily n}

/-- What a run leaves alone. -/
structure Untouched (opts : List SpOpt) (c c' : SpCore n) : Prop where
  priority : (∀ v, .pri v ∉ opts) → c'.rule.priority = c.rule.priority
  protect : (∀ spi, .protect spi ∉ opts) → c'.protectP = c.protectP
  bypass : .bypass ∉ opts → c'.bypassP = c.bypassP
  discard : .discard ∉ opts → c'.discardP = c.discardP
  proto : (∀ tok, .proto tok ∉ opts) → c'.rule.proto = c.rule.proto
  src : (∀ tok, .src tok ∉ opts) → c'.rule.src = c.rule.src
  dst : (∀ tok, .dst tok ∉ opts) → c'.rule.dst = c.rule.dst
  sport : (∀ tok, .sport tok ∉ opts) → c'.rule.sport = c.rule.sport
  dport : (∀ tok, .dport tok ∉ opts) → c'.rule.dport = c.rule.dport

/-- A step writes for its own option only. -/
theorem SpStep.untouched {o : SpOpt} {c c' : SpCore n} (h : SpStep fam o c c') :
    Untouched [o] c c' := by
  cases h <;> constructor <;> simp

/-- **ABSENT OPTIONS** leave what was there. -/
theorem SpSteps.untouched {opts : List SpOpt} {c c' : SpCore n} (h : SpSteps fam opts c c') :
    Untouched opts c c' := by
  induction h with
  | nil => exact ⟨fun _ => rfl, fun _ => rfl, fun _ => rfl, fun _ => rfl, fun _ => rfl,
      fun _ => rfl, fun _ => rfl, fun _ => rfl, fun _ => rfl⟩
  | cons hstep _ ih =>
      have h1 := SpStep.untouched hstep
      constructor <;> intro hno <;> simp only [List.mem_cons, not_or, forall_and] at hno
      · exact (ih.priority hno.2).trans (h1.priority (by simpa using hno.1))
      · exact (ih.protect hno.2).trans (h1.protect (by simpa using hno.1))
      · exact (ih.bypass hno.2).trans (h1.bypass (by simpa using hno.1))
      · exact (ih.discard hno.2).trans (h1.discard (by simpa using hno.1))
      · exact (ih.proto hno.2).trans (h1.proto (by simpa using hno.1))
      · exact (ih.src hno.2).trans (h1.src (by simpa using hno.1))
      · exact (ih.dst hno.2).trans (h1.dst (by simpa using hno.1))
      · exact (ih.sport hno.2).trans (h1.sport (by simpa using hno.1))
      · exact (ih.dport hno.2).trans (h1.dport (by simpa using hno.1))

/-- A line has an action. -/
theorem spComplete_action {s s' : SpScan n} (h : spComplete s = .ok s') :
    (s.protectP || s.bypassP || s.discardP) = true := by
  obtain ⟨s1, h1, h2⟩ := bind_ok h
  obtain ⟨-, st, rfl⟩ := check_ok h1
  exact (check_ok h2).1

/-! ## Prefixes -/

/-- The bits of a number are the bits of its bytes. -/
theorem testBit_ofBe (l : List UInt8) (i : Nat) (hi : i < 8 * l.length) :
    (ofBe l).testBit (8 * l.length - 1 - i) = netBit l i := by
  induction l generalizing i with
  | nil => exact absurd hi (by simp)
  | cons x l ih =>
      rw [List.length_cons] at hi ⊢
      have hpow : (256 : Nat) ^ l.length = 2 ^ (8 * l.length) := by
        rw [Nat.pow_mul]
      have hlt := ofBe_lt l
      rw [hpow] at hlt
      rw [ofBe, hpow, Nat.mul_comm, Nat.testBit_two_pow_mul_add _ hlt]
      by_cases hfirst : i < 8
      · -- the first byte
        rw [if_neg (by omega)]
        have hdiv : i / 8 = 0 := by omega
        rw [netBit, hdiv, List.getD_cons_zero]
        congr 1
        omega
      · rw [if_pos (by omega)]
        have hshift : netBit (x :: l) i = netBit l (i - 8) := by
          have hdiv : i / 8 = (i - 8) / 8 + 1 := by omega
          have hmod : i % 8 = (i - 8) % 8 := by omega
          rw [netBit, netBit, hdiv, hmod, List.getD_cons_succ]
        rw [hshift, ← ih (i - 8) (by omega)]
        congr 1
        omega

/-- **LEADING BITS**: numbers that agree in their leading bits are addresses of one
    prefix. -/
theorem leading_iff {a x : List UInt8} (hlen : x.length = a.length) {d : Nat}
    (hd : d ≤ 8 * a.length) :
    ofBe x >>> (8 * a.length - d) = ofBe a >>> (8 * a.length - d) ↔ SharesPrefix d a x := by
  have hsmall : ∀ l : List UInt8, ofBe l < 2 ^ (8 * l.length) := by
    intro l
    have hlt := ofBe_lt l
    rwa [show (256 : Nat) ^ l.length = 2 ^ (8 * l.length) by rw [Nat.pow_mul]] at hlt
  constructor
  · intro h i hi
    have hbit := congrArg (fun y => y.testBit (d - 1 - i)) h
    simp only [Nat.testBit_shiftRight] at hbit
    rw [show 8 * a.length - d + (d - 1 - i) = 8 * a.length - 1 - i by omega] at hbit
    rw [testBit_ofBe a i (by omega), ← hlen, testBit_ofBe x i (by omega)] at hbit
    exact hbit
  · intro h
    refine Nat.eq_of_testBit_eq fun j => ?_
    rw [Nat.testBit_shiftRight, Nat.testBit_shiftRight]
    by_cases hj : j < d
    · have hbit := h (d - 1 - j) (by omega)
      rw [← testBit_ofBe a _ (by omega), ← testBit_ofBe x _ (by omega), hlen] at hbit
      rwa [show 8 * a.length - 1 - (d - 1 - j) = 8 * a.length - d + j by omega] at hbit
    · -- both numbers have no more bits
      have hzero : ∀ l : List UInt8, l.length = a.length →
          (ofBe l).testBit (8 * a.length - d + j) = false := by
        intro l hl
        refine Nat.testBit_lt_two_pow (Nat.lt_of_lt_of_le (hsmall l) ?_)
        rw [hl]
        exact Nat.pow_le_pow_right (by omega) (by omega)
      rw [hzero x hlen, hzero a rfl]

/-- A prefix of two parts. -/
theorem sharesPrefix_append {a x a' x' : List UInt8} (hlen : x.length = a.length) (d : Nat) :
    SharesPrefix d (a ++ a') (x ++ x')
      ↔ SharesPrefix (min d (8 * a.length)) a x ∧ SharesPrefix (d - 8 * a.length) a' x' := by
  have hleft : ∀ (l l' : List UInt8) i, i < 8 * l.length →
      netBit (l ++ l') i = netBit l i := by
    intro l l' i hi
    have hbyte : i / 8 < l.length := by omega
    rw [netBit, netBit, List.getD_eq_getElem?_getD, List.getD_eq_getElem?_getD,
      List.getElem?_append_left hbyte]
  have hright : ∀ (l l' : List UInt8) i,
      netBit (l ++ l') (8 * l.length + i) = netBit l' i := by
    intro l l' i
    have hdiv : (8 * l.length + i) / 8 = l.length + i / 8 := by omega
    have hmod : (8 * l.length + i) % 8 = i % 8 := by omega
    rw [netBit, netBit, hdiv, hmod, List.getD_eq_getElem?_getD, List.getD_eq_getElem?_getD,
      List.getElem?_append_right (Nat.le_add_right _ _), Nat.add_sub_cancel_left]
  constructor
  · intro h
    constructor
    · intro i hi
      have hbit := h i (by omega)
      rwa [hleft x x' i (by omega), hleft a a' i (by omega)] at hbit
    · intro i hi
      have hbit := h (8 * a.length + i) (by omega)
      rwa [hright a a', ← hlen, hright x x'] at hbit
  · rintro ⟨h1, h2⟩ i hi
    by_cases hpart : i < 8 * a.length
    · rw [hleft x x' i (by omega), hleft a a' i hpart]
      exact h1 i (by omega)
    · obtain ⟨j, rfl⟩ : ∃ j, i = 8 * a.length + j := ⟨i - 8 * a.length, by omega⟩
      rw [hright a a', ← hlen, hright x x']
      exact h2 j (by omega)

/-! ## Fields and selectors -/

/-- The field of an IPv4 address holds a prefix. -/
def Fields4 (f : Vector AclField 1) (a : List UInt8 × Nat) : Prop :=
  ∃ x : AclField, f = #v[x] ∧ a.1.length = 4 ∧ x.value.toNat = ofBe a.1
    ∧ x.maskRange.toNat = a.2 ∧ a.2 ≤ 32

/-- The fields of an IPv6 address hold a prefix. -/
def Fields6 (f : Vector AclField 4) (a : List UInt8 × Nat) : Prop :=
  ∃ (ip : Vector UInt8 16) (depth : UInt32), f = ip6Fields ip depth ∧ a.1 = ip.toList
    ∧ depth.toNat = a.2 ∧ a.2 ≤ 128

theorem input_one (b : Nat → UInt8) (a : Nat) : ofBe (load b a 1) = (b a).toNat := by
  rw [load_succ, load_zero, ofBe, ofBe, List.length_nil, Nat.pow_zero, Nat.mul_one,
    Nat.add_zero]

/-- The bits of a byte. -/
theorem bits_iff (x v m : UInt8) :
    x.toNat &&& m.toNat = v.toNat &&& m.toNat ↔ x &&& m = v &&& m := by
  rw [← UInt8.toNat_and, ← UInt8.toNat_and]
  exact UInt8.toNat_inj

/-- A word of an address. -/
theorem word_iff {b : Nat → UInt8} {at' off : Nat} {x : AclField} {bytes : List UInt8} {d : Nat}
    (hlen : bytes.length = 4) (hvalue : x.value.toNat = ofBe bytes)
    (hmask : x.maskRange.toNat = d) (hd : d ≤ 32) :
    fieldTakes ⟨.mask, 4, off⟩ (addrField x) (fieldInput ⟨.mask, 4, off⟩ b at')
      ↔ SharesPrefix d bytes (load b (at' + off) 4) := by
  have hiff := leading_iff (a := bytes) (x := load b (at' + off) 4)
    (by rw [length_load, hlen]) (d := d) (by omega)
  rw [hlen] at hiff
  show ofBe (load b (at' + off) 4) >>> (8 * 4 - x.maskRange.toNat)
    = x.value.toNat >>> (8 * 4 - x.maskRange.toNat) ↔ _
  rw [hmask, hvalue]
  exact hiff

/-- **IPv4**: the fields of a rule match the packets that the entry selects. -/
theorem takes4 {r : SpRule 1} {e : Entry} (hproto : e.proto = r.proto)
    (hsrc : Fields4 r.src e.src) (hdst : Fields4 r.dst e.dst) (hsport : e.sport = r.sport)
    (hdport : e.dport = r.dport) (b : Nat → UInt8) (ip : Nat) :
    fieldsTake b (ip + (header true).proto) ip4Defs (ruleFields r)
      ↔ e.Selects (header true) b ip := by
  show fieldsTake b (ip + 9) ip4Defs (ruleFields r) ↔ _
  obtain ⟨s, hs, hslen, hsval, hsmask, hsle⟩ := hsrc
  obtain ⟨d, hd, hdlen, hdval, hdmask, hdle⟩ := hdst
  have hfields : ruleFields r = [(r.proto.1.toNat, r.proto.2.toNat), addrField s, addrField d,
      (r.sport.1.toNat, r.sport.2.toNat), (r.dport.1.toNat, r.dport.2.toNat)] := by
    rw [ruleFields, hs, hd]
    rfl
  rw [hfields]
  simp only [ip4Defs, fieldsTake, and_true]
  rw [word_iff hslen hsval hsmask hsle, word_iff hdlen hdval hdmask hdle]
  simp only [fieldTakes, fieldInput, Nat.add_zero, input_one, bits_iff, Nat.add_assoc,
    Nat.reduceAdd]
  rw [← hproto, ← hsport, ← hdport]
  constructor
  · rintro ⟨h1, h2, h3, h4, h5⟩
    exact ⟨h1, h2, h3, h4, h5⟩
  · rintro ⟨h1, h2, h3, h4, h5⟩
    exact ⟨h1, h2, h3, h4, h5⟩

/-- The length of the prefix in the words of an address. -/
theorem restDepth_toNat (d : UInt32) :
    (wordDepth d).toNat = min d.toNat 32 ∧ (restDepth d).toNat = d.toNat - 32 := by
  unfold wordDepth restDepth
  have h32 : (32 : UInt32).toNat = 32 := rfl
  by_cases hd : d > 32
  · have hlt : 32 < d.toNat := UInt32.lt_iff_toNat_lt.mp hd
    rw [if_pos hd, if_pos hd, UInt32.toNat_sub_of_le _ _ (UInt32.le_of_lt hd), h32]
    omega
  · have hle : d.toNat ≤ 32 := Nat.not_lt.mp fun hlt => hd (UInt32.lt_iff_toNat_lt.mpr hlt)
    rw [if_neg hd, if_neg hd]
    have h0 : (0 : UInt32).toNat = 0 := rfl
    omega

/-- The words of a prefix of an IPv6 address. -/
theorem words_iff (ip : Vector UInt8 16) {depth : UInt32} (hd : depth.toNat ≤ 128)
    (b : Nat → UInt8) (a : Nat) :
    (SharesPrefix (wordDepth depth).toNat [ip[0], ip[1], ip[2], ip[3]] (load b a 4)
      ∧ SharesPrefix (wordDepth (restDepth depth)).toNat [ip[4], ip[5], ip[6], ip[7]]
        (load b (a + 4) 4)
      ∧ SharesPrefix (wordDepth (restDepth (restDepth depth))).toNat
        [ip[8], ip[9], ip[10], ip[11]] (load b (a + 8) 4)
      ∧ SharesPrefix (wordDepth (restDepth (restDepth (restDepth depth)))).toNat
        [ip[12], ip[13], ip[14], ip[15]] (load b (a + 12) 4))
      ↔ SharesPrefix depth.toNat ip.toList (load b a 16) := by
  have hbytes : ip.toList = [ip[0], ip[1], ip[2], ip[3]] ++ ([ip[4], ip[5], ip[6], ip[7]]
      ++ ([ip[8], ip[9], ip[10], ip[11]] ++ [ip[12], ip[13], ip[14], ip[15]])) := by
    refine List.ext_getElem (by simp) fun i h1 h2 => ?_
    have hi : i < 16 := by simpa using h1
    rw [Vector.getElem_toList]
    interval_cases i <;> rfl
  have hload : load b a 16
      = load b a 4 ++ (load b (a + 4) 4 ++ (load b (a + 8) 4 ++ load b (a + 12) 4)) := by
    rw [show 16 = 4 + 12 from rfl, load_add, show 12 = 4 + 8 from rfl, load_add,
      show 8 = 4 + 4 from rfl, load_add]
  rw [hbytes, hload, sharesPrefix_append (by simp), sharesPrefix_append (by simp),
    sharesPrefix_append (by simp)]
  simp only [(restDepth_toNat _).1, (restDepth_toNat _).2, List.length_cons, List.length_nil,
    Nat.zero_add, Nat.reduceAdd, Nat.reduceMul]
  rw [Nat.min_eq_left (show depth.toNat - 32 - 32 - 32 ≤ 32 by omega)]

/-- **IPv6**. -/
theorem takes6 {r : SpRule 4} {e : Entry} (hproto : e.proto = r.proto)
    (hsrc : Fields6 r.src e.src) (hdst : Fields6 r.dst e.dst) (hsport : e.sport = r.sport)
    (hdport : e.dport = r.dport) (b : Nat → UInt8) (ip : Nat) :
    fieldsTake b (ip + (header false).proto) ip6Defs (ruleFields r)
      ↔ e.Selects (header false) b ip := by
  show fieldsTake b (ip + 6) ip6Defs (ruleFields r) ↔ _
  obtain ⟨s, sd, hs, hsbytes, hsd, hsle⟩ := hsrc
  obtain ⟨d, dd, hd, hdbytes, hdd, hdle⟩ := hdst
  have hfields : ruleFields r = (r.proto.1.toNat, r.proto.2.toNat)
      :: ((ip6Fields s sd).toList.map addrField ++ ((ip6Fields d dd).toList.map addrField
        ++ [(r.sport.1.toNat, r.sport.2.toNat), (r.dport.1.toNat, r.dport.2.toNat)])) := by
    rw [ruleFields, hs, hd]
  have hword : ∀ (x : AclField) (w x' y z : UInt8) (depth : UInt32) (at' off : Nat),
      x = ⟨ip6Word w x' y z, wordDepth depth⟩ →
      (fieldTakes ⟨.mask, 4, off⟩ (addrField x) (fieldInput ⟨.mask, 4, off⟩ b at')
        ↔ SharesPrefix (wordDepth depth).toNat [w, x', y, z] (load b (at' + off) 4)) := by
    rintro _ w x' y z depth at' off rfl
    refine word_iff rfl (ip6Word_toNat w x' y z) rfl ?_
    rw [(restDepth_toNat depth).1]
    exact Nat.min_le_right _ _
  rw [hfields]
  show (_ ∧ _ ∧ _ ∧ _ ∧ _ ∧ _ ∧ _ ∧ _ ∧ _ ∧ _ ∧ _ ∧ True) ↔ _
  rw [hword _ _ _ _ _ _ _ _ rfl, hword _ _ _ _ _ _ _ _ rfl, hword _ _ _ _ _ _ _ _ rfl,
    hword _ _ _ _ _ _ _ _ rfl, hword _ _ _ _ _ _ _ _ rfl, hword _ _ _ _ _ _ _ _ rfl,
    hword _ _ _ _ _ _ _ _ rfl, hword _ _ _ _ _ _ _ _ rfl]
  have hsrc := words_iff s (hsd.trans_le hsle) b (ip + 8)
  have hdst := words_iff d (hdd.trans_le hdle) b (ip + 24)
  rw [hsd, ← hsbytes] at hsrc
  rw [hdd, ← hdbytes] at hdst
  simp only [Nat.add_assoc, Nat.reduceAdd] at hsrc hdst ⊢
  simp only [fieldTakes, fieldInput, Nat.add_zero, input_one, bits_iff, Nat.add_assoc,
    Nat.reduceAdd, and_true]
  rw [← hproto, ← hsport, ← hdport]
  constructor
  · rintro ⟨h1, s1, s2, s3, s4, d1, d2, d3, d4, h4, h5⟩
    exact ⟨h1, hsrc.mp ⟨s1, s2, s3, s4⟩, hdst.mp ⟨d1, d2, d3, d4⟩, h4, h5⟩
  · rintro ⟨h1, h2, h3, h4, h5⟩
    obtain ⟨s1, s2, s3, s4⟩ := hsrc.mpr h2
    obtain ⟨d1, d2, d3, d4⟩ := hdst.mpr h3
    exact ⟨h1, s1, s2, s3, s4, d1, d2, d3, d4, h4, h5⟩

/-! ## From a line to its rule -/

/-- The `userdata` of a line as an action. -/
def actionOf (userdata : UInt32) : Action :=
  if userdata = bypass then .bypass
  else if userdata = SaModel.discard then .discard
  else .protect userdata

/-- A rule holds an entry. -/
structure Holds (Fields : Vector AclField n → List UInt8 × Nat → Prop) (r : SpRule n)
    (e : Entry) : Prop where
  priority : priority r = e.priority
  action : actionOf r.userdata = e.action
  proto : e.proto = r.proto
  src : Fields r.src e.src
  dst : Fields r.dst e.dst
  sport : e.sport = r.sport
  dport : e.dport = r.dport

section Lines

variable {α : Type} {pton : List Char → Option α} {netBytes : α → List UInt8} {bound : Nat}
  {sp : FromSp n} {bytesOf : IpAddr → List UInt8}
  {Fields : Vector AclField n → List UInt8 × Nat → Prop}

/-- What is needed of a family: its fields hold what an address text says, and give it
    back. -/
structure Faithful (fam : SpFamily n) (sp : FromSp n) (pton : List Char → Option α)
    (bound : Nat) (bytesOf : IpAddr → List UInt8) (netBytes : α → List UInt8)
    (Fields : Vector AclField n → List UInt8 × Nat → Prop) : Prop where
  blank : ∃ a, Fields (Vector.replicate n {}) (a, 0)
  parse : ∀ {tok ip len f}, AddrText pton bound tok ip len → fam.parse tok = some f →
    Fields f (netBytes ip, len)
  back : GivesBack fam sp pton bound bytesOf netBytes

/-- An address of a line, under one of the two keywords. -/
theorem Faithful.addr (h : Faithful fam sp pton bound bytesOf netBytes Fields)
    (opt : String → SpOpt) {opts : List SpOpt} {f : Vector AclField n}
    (hwritten : ∀ tok, opt tok ∈ opts → fam.parse tok = some f)
    (hright : ∀ tok, opt tok ∈ opts → ∃ ip len, AddrText pton bound tok ip len)
    (hno : (∀ tok, opt tok ∉ opts) → f = Vector.replicate n {}) :
    ∃ a : List UInt8 × Nat, Fields f a
      ∧ (∀ tok, opt tok ∈ opts → ∃ ip, AddrText pton bound tok ip a.2 ∧ a.1 = netBytes ip)
      ∧ ((∀ tok, opt tok ∉ opts) → a.2 = 0) := by
  by_cases hopt : ∃ tok, opt tok ∈ opts
  · obtain ⟨tok, htok⟩ := hopt
    obtain ⟨ip, len, htext⟩ := hright tok htok
    refine ⟨(netBytes ip, len), h.parse htext (hwritten tok htok), ?_,
      fun hnone => absurd htok (hnone tok)⟩
    intro tok' htok'
    obtain ⟨ip', len', htext'⟩ := hright tok' htok'
    -- the fields give back one address
    obtain ⟨hbytes, hmask⟩ := h.back htext (hwritten tok htok)
    obtain ⟨hbytes', hmask'⟩ := h.back htext' (hwritten tok' htok')
    obtain rfl : len' = len := hmask'.symm.trans hmask
    exact ⟨ip', htext', (hbytes IpAddr.zero).symm.trans (hbytes' IpAddr.zero)⟩
  · have hnone : ∀ tok, opt tok ∉ opts := fun tok htok => hopt ⟨tok, htok⟩
    obtain ⟨a, ha⟩ := h.blank
    refine ⟨(a, 0), ?_, fun tok htok => absurd htok (hnone tok), fun _ => rfl⟩
    rw [hno hnone]
    exact ha

/-- **A LINE AND ITS RULE**: the rule holds an entry that the line says. -/
theorem Faithful.entry (h : Faithful fam sp pton bound bytesOf netBytes Fields)
    {tokens : List String} {rule : SpRule n} (hmakes : SpMakes fam tokens rule)
    (hright : ∀ o ∈ lineOpts tokens, OptRight pton bound o) :
    ∃ e, Says pton netBytes bound (lineOpts tokens) e ∧ Holds Fields rule e := by
  obtain ⟨dir, rest, st, s, rfl, hscan, rfl⟩ := hmakes
  obtain ⟨s1, hloop, hcomplete⟩ := bind_ok hscan
  have hsteps := SpParse.scan_steps hscan
  have hwritten := hsteps.written
  have hleft := SpSteps.untouched hsteps
  have haction := spComplete_action hcomplete
  have hflags : s.protectP = s1.protectP ∧ s.bypassP = s1.bypassP
      ∧ s.discardP = s1.discardP := by
    have hcore := spComplete_ok hcomplete
    exact ⟨congrArg SpCore.protectP hcore, congrArg SpCore.bypassP hcore,
      congrArg SpCore.discardP hcore⟩
  generalize lineOpts (dir :: rest) = opts at *
  obtain ⟨src, hsrc, hsrcSays, hnoSrc⟩ := h.addr .src (fun tok htok => (hwritten _ htok).2)
    (fun tok htok => hright _ htok) hleft.src
  obtain ⟨dst, hdst, hdstSays, hnoDst⟩ := h.addr .dst (fun tok htok => (hwritten _ htok).2)
    (fun tok htok => hright _ htok) hleft.dst
  refine ⟨⟨priority s.rule, actionOf s.rule.userdata, s.rule.proto, src, dst, s.rule.sport,
    s.rule.dport⟩, ?_, ⟨rfl, rfl, rfl, hsrc, hdst, rfl, rfl⟩⟩
  have hrange : ∀ tok low high, parseRange tok = some (low, high) → ReadRight tok →
      RangeText tok low high := fun tok low high hparse hread =>
    (rangeText_iff (r := (low, high)) hparse).mpr hread
  constructor
  · intro v hv
    exact congrArg (fun p : UInt32 => p.toInt32.toInt) (hwritten _ hv).2.2
  · intro hno
    exact congrArg (fun p : UInt32 => p.toInt32.toInt) (hleft.priority hno)
  · intro spi hspi
    obtain ⟨⟨-, hd, hb⟩, -, huser⟩ := hwritten _ hspi
    show actionOf s.rule.userdata = _
    rw [huser, actionOf, if_neg hb, if_neg hd]
  · intro hb
    show actionOf s.rule.userdata = _
    rw [(hwritten _ hb).2, actionOf, if_pos rfl]
  · intro hd
    show actionOf s.rule.userdata = _
    rw [(hwritten _ hd).2, actionOf, if_neg (by decide), if_pos rfl]
  · -- a flag is set, so its option is there
    rw [← hflags.1, ← hflags.2.1, ← hflags.2.2] at haction
    by_contra hnone
    simp only [not_or, not_exists] at hnone
    obtain ⟨hp, hb, hd⟩ := hnone
    rw [hleft.protect hp, hleft.bypass hb, hleft.discard hd] at haction
    cases haction
  · intro tok htok
    obtain ⟨-, r, hparse, hlow, hhigh, hrule⟩ := hwritten _ htok
    show RangeText tok s.rule.proto.1.toUInt16 s.rule.proto.2.toUInt16
    rw [hrule, toUInt8_toUInt16 hlow, toUInt8_toUInt16 hhigh]
    exact hrange tok _ _ hparse (hright _ htok)
  · intro hno
    show s.rule.proto.2 = 0
    rw [hleft.proto hno]
    rfl
  · exact hsrcSays
  · exact hnoSrc
  · exact hdstSays
  · exact hnoDst
  · intro tok htok
    exact hrange tok _ _ (hwritten _ htok).2 (hright _ htok)
  · exact fun hno => hleft.sport hno
  · intro tok htok
    exact hrange tok _ _ (hwritten _ htok).2 (hright _ htok)
  · exact fun hno => hleft.dport hno

end Lines

/-- The words `inet_pton` gives are read back from host order. -/
theorem ofBe_bytes4 (ip : UInt32) : (rteBswap32 ip).toNat = ofBe (bytes4 ip) := by
  have hlt := ofBe_lt (toLe 4 ip.toNat)
  rw [length_toLe] at hlt
  rw [rteBswap32, UInt32.toNat_ofNat', bytes4]
  exact Nat.mod_eq_of_lt hlt

variable (net : InetPton)

/-- **THE FIELDS OF `sp4.c`**. -/
theorem faithful4 (h4 : ∀ {s a}, net.v4 s = some a → s.length ≤ 15) :
    Faithful (sp4 net) fromSp4 net.v4 32 IpAddr.ip4 bytes4 Fields4 := by
  refine ⟨⟨[0, 0, 0, 0], {}, rfl, rfl, rfl, rfl, Nat.zero_le _⟩, ?_, givesBack_sp4 net h4⟩
  intro tok ip len f htext hparse
  have hlen := addrText_le htext
  have hmask : (UInt32.ofNat len).toNat = len := by
    rw [UInt32.toNat_ofNat']
    omega
  have htext' := htext
  rw [← hmask] at htext'
  have hread := parse_of_addrText (v4_slash net) (by decide) (reads_v4 net tok)
    (fun _ hip => List.take_of_length_le (h4 hip)) htext'
  simp only [sp4, hread, Option.map_some, Option.some.injEq] at hparse
  subst hparse
  exact ⟨_, rfl, length_toLe 4 _, ofBe_bytes4 ip, hmask, hlen⟩

/-- **THE FIELDS OF `sp6.c`**. -/
theorem faithful6 (h6 : ∀ {s a}, net.v6 s = some a → s.length ≤ 45) :
    Faithful (sp6 net) fromSp6 net.v6 128 IpAddr.bytes Vector.toList Fields6 := by
  refine ⟨⟨(Vector.replicate 16 0).toList, Vector.replicate 16 0, 0, rfl, rfl, rfl,
    Nat.zero_le _⟩, ?_, givesBack_sp6 net h6⟩
  intro tok ip len f htext hparse
  have hlen := addrText_le htext
  have hmask : (UInt32.ofNat len).toNat = len := by
    rw [UInt32.toNat_ofNat']
    omega
  have htext' := htext
  rw [← hmask] at htext'
  have hread := parse_of_addrText (v6_slash net) (by decide) (reads_v6 net tok h6)
    (fun _ _ => rfl) htext'
  simp only [sp6, hread, Option.map_some, Option.some.injEq] at hparse
  subst hparse
  exact ⟨ip, _, rfl, rfl, hmask, hlen⟩

/-! ## From rules to contexts -/

variable {lib : SadLib}

/-- What a context answers means an action: SPIs have become indices of SAs. -/
inductive Means (s : Socket lib) (inbound : Bool) (v : UInt32) : Action → Prop
  | bypass (h : v = bypass) : Means s inbound v .bypass
  | discard (h : v = SaModel.discard) : Means s inbound v .discard
  | protect {spi} (k : Nat) (tbl : SaTable lib) (htbl : s.sas.sas inbound = some tbl)
      (hk : k < tbl.nbSa) (hspi : (tbl.sa k).sa.spi = spi) (hv : v = UInt32.ofNat (k + 1)) :
      Means s inbound v (.protect spi)

/-- A rule that carries an index means the action of its line. -/
theorem means_of_indexed {s : Socket lib} {inbound : Bool} {m : Nat} {r r' : AclRules}
    (hnb : ((s.sas.sas inbound).map SaTable.nbSa).getD 0 = m)
    (h : Indexed m (s.sas.sas inbound) r r') :
    Means s inbound r'.userdata (actionOf r.userdata) := by
  cases h with
  | action hact =>
      rcases hact with hd | hb
      · rw [actionOf, hd, if_neg (by decide), if_pos rfl]
        exact .discard rfl
      · rw [actionOf, hb, if_pos rfl]
        exact .bypass rfl
  | sa k hk hspi hprotect =>
      rw [actionOf, if_neg hprotect.2, if_neg hprotect.1]
      cases hsas : s.sas.sas inbound with
      | none =>
          rw [hsas] at hnb
          rw [← hnb] at hk
          exact absurd hk (Nat.not_lt_zero k)
      | some tbl =>
          rw [hsas] at hnb hspi
          rw [← hnb] at hk
          exact .protect k tbl hsas hk hspi rfl

/-- Rules with indices stand for the rules of the lines. -/
theorem withUserdata_stands {s : Socket lib} {inbound : Bool} {m : Nat} {sp : FromSp n}
    (hnb : ((s.sas.sas inbound).map SaTable.nbSa).getD 0 = m) (defs : List AclFieldDef)
    (q : (Nat → UInt8) × Nat) {rules : List (SpRule n)} {kept : List AclRules}
    (h : List.Forall₂ (Indexed m (s.sas.sas inbound)) (rules.map (aclRule sp)) kept) :
    List.Forall₂ (Ranked.Stands (aclKind defs) (aclKind defs) q q
      fun v v' => Means s inbound v (actionOf v')) (withUserdata rules kept) rules := by
  induction rules generalizing kept with
  | nil => exact .nil
  | cons r rules ih =>
      cases h with
      | cons hr hrest => exact .cons ⟨Iff.rfl, rfl, means_of_indexed hnb hr⟩ (ih hrest)

/-- **FROM THE LIBRARY TO THE ENTRIES**: what the context of a family answers means what
    the database decides. -/
theorem context_right {s : Socket lib} {inbound : Bool} {m : Nat} {sp : FromSp n}
    (hnb : ((s.sas.sas inbound).map SaTable.nbSa).getD 0 = m) {defs : List AclFieldDef}
    {h : Header} {Fields : Vector AclField n → List UInt8 × Nat → Prop}
    (htakes : ∀ r e, Holds Fields r e → ∀ b ip,
      (fieldsTake b (ip + h.proto) defs (ruleFields r) ↔ e.Selects h b ip))
    {rules sorted : List (SpRule n)} {entries : List Entry}
    (hholds : List.Forall₂ (Holds Fields) rules entries) (hperm : sorted.Perm rules)
    {kept : List AclRules}
    (hkept : List.Forall₂ (Indexed m (s.sas.sas inbound)) (sorted.map (aclRule sp)) kept)
    {acl : SpCtx} (hacl : AclAnswers defs (withUserdata sorted kept) acl)
    (b : Nat → UInt8) (ip : Nat) :
    ∃ a, Means s inbound (acl b (ip + h.proto)) a
      ∧ Ranked.Right (spdKind h) entries (b, ip) a := by
  obtain ⟨v, hmeans, hright⟩ := (hacl b (ip + h.proto)).carry
    (withUserdata_stands hnb defs (b, ip + h.proto) hkept) (.discard rfl)
  have hstands : List.Forall₂ (Ranked.Stands (aclKind defs) (spdKind h) (b, ip + h.proto)
      (b, ip) fun v a => actionOf v = a) rules entries := by
    refine hholds.imp ?_
    intro r e hr
    exact ⟨htakes r e hr b ip, hr.priority, hr.action⟩
  obtain ⟨a, rfl, ha⟩ := (hright.perm hperm).carry hstands rfl
  exact ⟨_, hmeans, ha⟩

/-- A context is what the library has made of its rules. -/
theorem aclInit_answer {env : SocketEnv} {isV4 inbound : Bool} {rules : List AclRules}
    {sp : Option SpDb} (h : aclInit env isV4 inbound rules = .ok sp) :
    ∀ db, sp = some db → env.aclInit isV4 inbound db.rules = some db.acl := by
  intro db hdb
  subst hdb
  unfold aclInit at h
  split at h
  · cases h
  · split at h
    · cases h
    · rename_i acl hacl
      cases h
      exact hacl

theorem spInit_answer {env : SocketEnv} {isV4 : Bool} {t : Tables} {s : Socket lib}
    {r : Tables × Socket lib} (h : spInit env isV4 t s = .ok r) (inbound : Bool) :
    ∀ db, r.2.sp isV4 inbound = some db → env.aclInit isV4 inbound db.rules = some db.acl := by
  unfold spInit at h
  split at h
  · cases h
  split at h
  · cases h
  obtain ⟨t1, -, h⟩ := bind_ok h
  obtain ⟨t2, -, h⟩ := bind_ok h
  obtain ⟨spIn, hspIn, h⟩ := bind_ok h
  obtain ⟨spOut, hspOut, h⟩ := bind_ok h
  cases h
  intro db hdb
  rw [sp_setSp] at hdb
  cases inbound with
  | true => exact aclInit_answer hspIn db hdb
  | false => exact aclInit_answer hspOut db hdb

/-- The contexts of a socket. -/
theorem initSocket_answer {env : SocketEnv} {t : Tables} {r : Tables × Socket lib}
    (h : initSocket lib env t = .ok r) (isV4 inbound : Bool) :
    ∀ db, r.2.sp isV4 inbound = some db → env.aclInit isV4 inbound db.rules = some db.acl := by
  unfold initSocket at h
  obtain ⟨sas, -, h⟩ := bind_ok h
  obtain ⟨r4, h4, h⟩ := bind_ok h
  obtain ⟨r6, h6, h⟩ := bind_ok h
  dsimp only at h
  split at h
  · cases h
    intro db hdb
    cases isV4 with
    | true =>
        have hsp : r6.2.sp true inbound = r4.2.sp true inbound := (spInit_ok h6).otherSp inbound
        exact spInit_answer h4 inbound db (hsp.symm.trans hdb)
    | false => exact spInit_answer h6 inbound db hdb
  · cases h

/-! ## From lines to entries -/

/-- The array of a family and direction. -/
def table (isV4 inbound : Bool) : Table :=
  if isV4 then if inbound then .sp4In else .sp4Out
  else if inbound then .sp6In else .sp6Out

/-- Lists related one by one, with something chosen for each pair. -/
theorem forall₂_choose {A B E : Type} {R : A → B → Prop} {S : A → E → Prop} {T : B → E → Prop}
    {l : List A} {l' : List B} (h : List.Forall₂ R l l')
    (hchoose : ∀ a ∈ l, ∀ b, R a b → ∃ e, S a e ∧ T b e) :
    ∃ es, List.Forall₂ S l es ∧ List.Forall₂ T l' es := by
  induction h with
  | nil => exact ⟨[], .nil, .nil⟩
  | cons hR _ ih =>
      obtain ⟨e, hs, ht⟩ := hchoose _ List.mem_cons_self _ hR
      obtain ⟨es, hss, hts⟩ := ih fun a ha => hchoose a (List.mem_cons_of_mem _ ha)
      exact ⟨e :: es, .cons hs hss, .cons ht hts⟩

/-- An array of a configuration holds the rules of its lines. -/
theorem arr_rules {env : CfgEnv} {lines : List CfgLine} {c : Config} (h : Runs env {} lines c)
    (t : Table) : List.Forall₂ (fun line rule => Makes env line t rule)
      (lines.filter t.takes) (c.arr t).used := by
  have hempty : Keeps t.Blank [] (({} : Config).arr t) := by
    cases t <;> exact keeps_nil
  obtain ⟨rules, hrules, hkeeps⟩ := runs_grown h hempty
  rw [List.nil_append] at hkeeps
  rw [hkeeps.used]
  exact hrules

/-- What a packet of a burst meets in the lookup of outbound policies. -/
def Treated (s : Socket lib) (w : World) (p : PktId)
    (r : List PktId × List (PktId × UInt32) × SpdStats × World) : Action → Prop
  | .bypass => p ∈ r.1
  | .discard => ∃ l, r.2.2.2 = w.freePkts l ∧ p ∈ l
  | .protect spi => ∃ (k : Nat) (tbl : SaTable lib), s.sas.saOut = some tbl ∧ k < tbl.nbSa
      ∧ (tbl.sa k).sa.spi = spi ∧ (p, UInt32.ofNat k) ∈ r.2.1

/-- **A PACKET** is treated as the answer of the context means. -/
theorem treated_of_means {s : Socket lib} {acl : SpCtx} {off : Nat} {w : World} {p : PktId}
    {pkts : List PktId} (hp : p ∈ pkts) (ipsec : List (PktId × UInt32)) (stats : SpdStats)
    (hnb : ∀ tbl, s.sas.saOut = some tbl → tbl.nbSa < 2 ^ 32 - 1) {a : Action}
    (h : Means s false (aclResult acl w off p) a) :
    Treated s w p (outboundSpdLookup (some acl) off pkts ipsec stats w) a := by
  have hlookup : outboundSpdLookup (some acl) off pkts ipsec stats w
      = (passed acl off w pkts, ipsec ++ secured acl off w pkts,
        counted acl off w pkts stats, w.freePkts (dropped acl off w pkts)) := by
    rw [outboundSpdLookup, sweep_eq, keptFrom_outbound, List.nil_append]
  rw [hlookup]
  cases h with
  | bypass hv => exact List.mem_filter.mpr ⟨hp, decide_eq_true hv⟩
  | discard hv => exact ⟨_, rfl, List.mem_filter.mpr ⟨hp, decide_eq_true hv⟩⟩
  | protect k tbl htbl hk hspi hv =>
      have htbl : s.sas.saOut = some tbl := htbl
      have hlt := hnb tbl htbl
      have hnat : (aclResult acl w off p).toNat = k + 1 := by
        rw [hv, UInt32.toNat_ofNat']
        omega
      have hsub : UInt32.ofNat (k + 1) - 1 = UInt32.ofNat k := by
        rw [UInt32.ofNat_add]
        exact UInt32.add_sub_cancel _ _
      have hd : aclResult acl w off p ≠ SaModel.discard := by
        intro heq
        rw [heq] at hnat
        exact absurd hnat (Nat.succ_ne_zero k).symm
      have hb : aclResult acl w off p ≠ bypass := by
        intro heq
        rw [heq, show bypass.toNat = 2 ^ 32 - 1 from rfl] at hnat
        omega
      refine ⟨k, tbl, htbl, hk, hspi, List.mem_append_right _ ?_⟩
      refine List.mem_map.mpr ⟨p, List.mem_filter.mpr ⟨hp, decide_eq_true ⟨hd, hb⟩⟩, ?_⟩
      rw [hv, hsub]

/-- What a socket decides about the packets of a family and direction: nothing where no
    line is for its array, and else what the database of the lines decides.  Outbound
    packets are treated accordingly. -/
def Refined (s : Socket lib) (isV4 inbound : Bool) (entries : List Entry) : Prop :=
  match s.sp isV4 inbound with
  | none => entries = []
  | some db =>
      (∀ b ip, ∃ a, Means s inbound (db.acl b (ip + (header isV4).proto)) a
          ∧ Ranked.Right (spdKind (header isV4)) entries (b, ip) a)
        ∧ (inbound = false → ∀ pkts ipsec stats w, ∀ p ∈ pkts,
          ∃ a, Ranked.Right (spdKind (header isV4)) entries
              ((w.mbuf p).buf, (w.mbuf p).dataOff) a
            ∧ Treated s w p (outboundSpdLookup (some db.acl) (header isV4).proto pkts ipsec
              stats w) a)

/-- A family, of which everything is known. -/
theorem refined_of {α : Type} {pton : List Char → Option α} {netBytes : α → List UInt8}
    {bound : Nat} {sp : FromSp n} {bytesOf : IpAddr → List UInt8} {defs : List AclFieldDef}
    {Fields : Vector AclField n → List UInt8 × Nat → Prop} {isV4 inbound : Bool}
    (hfam : Faithful fam sp pton bound bytesOf netBytes Fields)
    (htakes : ∀ r e, Holds Fields r e → ∀ b ip, (fieldsTake b (ip + (header isV4).proto) defs
      (ruleFields r) ↔ e.Selects (header isV4) b ip))
    {LineSays : CfgLine → Entry → Prop} {MakesRule : CfgLine → SpRule n → Prop}
    {lines : List CfgLine} {rules : List (SpRule n)}
    (hmakes : List.Forall₂ MakesRule lines rules)
    (hline : ∀ line ∈ lines, ∀ rule, MakesRule line rule → ∃ tokens,
      SpMakes fam tokens rule ∧ (∀ o ∈ lineOpts tokens, OptRight pton bound o)
        ∧ ∀ e, Says pton netBytes bound (lineOpts tokens) e → LineSays line e)
    {env : SocketEnv} {t t' : Tables} {s : Socket lib} (hdone : SocketDone lib env t t' s)
    (hsize : inbound = false → (saEntries t inbound).length < 2 ^ 32 - 1)
    {sorted : List (SpRule n)} (hperm : sorted.Perm rules)
    (hrules : aclRules t isV4 inbound = sorted.map (aclRule sp))
    (hacl : ∀ db, s.sp isV4 inbound = some db →
      AclAnswers defs (withUserdata sorted db.rules) db.acl) :
    ∃ entries, List.Forall₂ LineSays lines entries ∧ Refined s isV4 inbound entries := by
  have hchoose : ∃ entries, List.Forall₂ LineSays lines entries
      ∧ List.Forall₂ (Holds Fields) rules entries := by
    refine forall₂_choose hmakes fun line hmem rule hrule => ?_
    obtain ⟨tokens, hsp, hright, hsays⟩ := hline line hmem rule hrule
    obtain ⟨e, he, hholds⟩ := hfam.entry hsp hright
    exact ⟨e, hsays e he, hholds⟩
  obtain ⟨entries, hsays, hholds⟩ := hchoose
  refine ⟨entries, hsays, ?_⟩
  obtain ⟨hindexed, hmade⟩ := hdone.loaded isV4 inbound
  have hnb := nbSa_eq hdone.sas inbound
  rw [hrules] at hindexed
  unfold Refined
  cases hsp : s.sp isV4 inbound with
  | none =>
      -- no rules were loaded, so there were no lines
      rw [hsp] at hmade
      cases hmade with
      | none hnil =>
          rw [hnil] at hindexed
          have hzero := hindexed.length_eq
          rw [List.length_map, hperm.length_eq, hholds.length_eq] at hzero
          exact List.length_eq_zero_iff.mp hzero
  | some db =>
      rw [hsp] at hmade
      have hkept : db.rules = aclRules t' isV4 inbound := by
        cases hmade
        rfl
      have hdecides := context_right hnb htakes hholds hperm (hkept ▸ hindexed) (hacl db hsp)
      refine ⟨hdecides, fun hout pkts ipsec stats w p hp => ?_⟩
      subst hout
      obtain ⟨a, hmeans, hright⟩ := hdecides (w.mbuf p).buf (w.mbuf p).dataOff
      refine ⟨a, hright, treated_of_means hp ipsec stats (fun tbl htbl => ?_) hmeans⟩
      have htbl' : s.sas.sas false = some tbl := htbl
      rw [htbl'] at hnb
      have hlen : tbl.nbSa = (saEntries t false).length := hnb
      rw [hlen]
      exact hsize rfl

/-- The rules of an IPv4 array come from lines for it. -/
theorem rules4 {env : CfgEnv} {lines : List CfgLine} {c : Config} (h : Runs env {} lines c)
    (inbound : Bool) :
    List.Forall₂ (fun line rule => ∃ tok tokens, line = CfgLine.sp4 tok tokens
        ∧ SpMakes (sp4 env.net) tokens rule)
      (lines.filter (table true inbound).takes)
      (if inbound then c.sp4.rulesIn else c.sp4.rulesOut).used := by
  have hrules := arr_rules h (table true inbound)
  cases inbound with
  | true =>
      refine hrules.imp ?_
      rintro (_ | ⟨tok, tokens⟩ | _) rule hmakes
      · exact hmakes.elim
      · exact ⟨tok, tokens, rfl, hmakes⟩
      · exact hmakes.elim
  | false =>
      refine hrules.imp ?_
      rintro (_ | ⟨tok, tokens⟩ | _) rule hmakes
      · exact hmakes.elim
      · exact ⟨tok, tokens, rfl, hmakes⟩
      · exact hmakes.elim

/-- Those of an IPv6 array. -/
theorem rules6 {env : CfgEnv} {lines : List CfgLine} {c : Config} (h : Runs env {} lines c)
    (inbound : Bool) :
    List.Forall₂ (fun line rule => ∃ tok tokens, line = CfgLine.sp6 tok tokens
        ∧ SpMakes (sp6 env.net) tokens rule)
      (lines.filter (table false inbound).takes)
      (if inbound then c.sp6.rulesIn else c.sp6.rulesOut).used := by
  have hrules := arr_rules h (table false inbound)
  cases inbound with
  | true =>
      refine hrules.imp ?_
      rintro (_ | _ | ⟨tok, tokens⟩) rule hmakes
      · exact hmakes.elim
      · exact hmakes.elim
      · exact ⟨tok, tokens, rfl, hmakes⟩
  | false =>
      refine hrules.imp ?_
      rintro (_ | _ | ⟨tok, tokens⟩) rule hmakes
      · exact hmakes.elim
      · exact hmakes.elim
      · exact ⟨tok, tokens, rfl, hmakes⟩

/-- **POLICIES**: the lines of an accepted configuration say the entries of a database,
    one for each line and in their order, and what a socket decides about a packet is
    what this database decides: neither the sort by SPI, nor the fields of the rules,
    nor the indices of SAs in the place of SPIs make a difference. -/
theorem policies_refined {env : CfgEnv} {lines : List CfgLine} {c : Config}
    (hrun : Runs env {} lines c) (h4 : ∀ {s a}, env.net.v4 s = some a → s.length ≤ 15)
    (h6 : ∀ {s a}, env.net.v6 s = some a → s.length ≤ 45)
    (hlines : ∀ line ∈ lines, LineRight env.net line) {saIn saOut : List IpsecSa}
    (hsize : saOut.length < 2 ^ 32 - 1) {senv : SocketEnv} (hacl : Documented senv c)
    {t : Tables} {s : Socket lib}
    (hinit : initSocket lib senv (tables c saIn saOut) = .ok (t, s)) (isV4 inbound : Bool) :
    ∃ entries,
      List.Forall₂ (LineSays env.net isV4) (lines.filter (table isV4 inbound).takes) entries
        ∧ Refined s isV4 inbound entries := by
  have hdone := initSocket_ok hinit
  have hsa : inbound = false →
      (saEntries (tables c saIn saOut) inbound).length < 2 ^ 32 - 1 := by
    rintro rfl
    exact hsize
  have hin : ∀ line ∈ lines.filter (table isV4 inbound).takes, LineRight env.net line :=
    fun line hline => hlines line (List.mem_of_mem_filter hline)
  cases isV4 with
  | true =>
      have hsorted : aclRules (tables c saIn saOut) true inbound
          = (sortedRules c.sp4 inbound).map (aclRule fromSp4) := by
        cases inbound <;> rfl
      refine refined_of (faithful4 env.net h4)
        (fun r e h => takes4 h.proto h.src h.dst h.sport h.dport) (rules4 hrun inbound) ?_
        hdone hsa (msort_perm spCmp _) hsorted fun db hdb =>
          (hacl inbound db.rules db.acl).1 (initSocket_answer hinit true inbound db hdb)
      rintro line hmem rule ⟨tok, tokens, rfl, hmakes⟩
      exact ⟨tokens, hmakes, hin _ hmem, fun e he => ⟨rfl, he⟩⟩
  | false =>
      have hsorted : aclRules (tables c saIn saOut) false inbound
          = (sortedRules c.sp6 inbound).map (aclRule fromSp6) := by
        cases inbound <;> rfl
      refine refined_of (faithful6 env.net h6)
        (fun r e h => takes6 h.proto h.src h.dst h.sport h.dport) (rules6 hrun inbound) ?_
        hdone hsa (msort_perm spCmp _) hsorted fun db hdb =>
          (hacl inbound db.rules db.acl).2 (initSocket_answer hinit false inbound db hdb)
      rintro line hmem rule ⟨tok, tokens, rfl, hmakes⟩
      exact ⟨tokens, hmakes, hin _ hmem, fun e he => ⟨rfl, he⟩⟩

/-! ## One line -/

/-- A library that searches the rules. -/
def searchAcl (c : Config) (isV4 inbound : Bool) (rules : List AclRules) : SpCtx :=
  fun b data =>
    if isV4 then Ranked.judge (aclKind ip4Defs)
      (withUserdata (sortedRules c.sp4 inbound) rules) (b, data)
    else Ranked.judge (aclKind ip6Defs)
      (withUserdata (sortedRules c.sp6 inbound) rules) (b, data)

theorem mem_withUserdata {rules : List (SpRule n)} {kept : List AclRules} {r : SpRule n}
    (h : r ∈ withUserdata rules kept) : ∃ a ∈ kept, a.userdata = r.userdata := by
  induction rules generalizing kept with
  | nil => cases h
  | cons r' rules ih =>
      cases kept with
      | nil => cases h
      | cons a kept =>
          rcases List.mem_cons.mp h with rfl | h
          · exact ⟨a, List.mem_cons_self, rfl⟩
          · obtain ⟨a', ha, heq⟩ := ih h
            exact ⟨a', List.mem_cons_of_mem _ ha, heq⟩

theorem right_userdata {defs : List AclFieldDef} {rules : List (SpRule n)}
    {kept : List AclRules} {q : (Nat → UInt8) × Nat} {v : UInt32}
    (h : Ranked.Right (aclKind defs) (withUserdata rules kept) q v) :
    v = 0 ∨ ∃ r ∈ kept, r.userdata = v := by
  cases h with
  | other _ => exact .inl rfl
  | best hbest => exact .inr (mem_withUserdata hbest.mem)

/-- A socket with this library. -/
def searchSocket (c : Config) : SocketEnv where
  plat := plainPlatform
  aclInit := fun isV4 inbound rules => some (searchAcl c isV4 inbound rules)
  aclInit_result := by
    rintro isV4 inbound rules _ ⟨⟩ b a
    cases isV4 with
    | true => exact right_userdata (Ranked.judge_right _ _)
    | false => exact right_userdata (Ranked.judge_right _ _)
  rtInit := true

theorem searchSocket_documented (c : Config) : Documented (searchSocket c) c := by
  intro inbound rules acl
  constructor
  · rintro ⟨⟩ b data
    exact Ranked.judge_right _ _
  · rintro ⟨⟩ b data
    exact Ranked.judge_right _ _

/-- A line that protects one host. -/
def hostLine : CfgLine := .sp4 "ipv4" ("out" :: hostTokens)

/-- The configuration it makes. -/
def hostConfig : Config :=
  match cfgLine ⟨longest, false⟩ {} hostLine with
  | .ok c => c
  | .error _ => {}

theorem hostLine_right : LineRight longest hostLine := by
  intro o ho
  have hopts : lineOpts ("out" :: hostTokens) = [.esp, .protect "5",
      .src "192.168.100.100/32", .dst "192.168.100.100/7"] := by decide
  rw [hopts] at ho
  simp only [List.mem_cons, List.not_mem_nil, or_false] at ho
  rcases ho with rfl | rfl | rfl | rfl
  · exact trivial
  · exact trivial
  · exact ⟨_, _, hostAddr_src⟩
  · exact ⟨_, _, hostAddr_dst⟩

theorem hostLine_run : Runs ⟨longest, false⟩ {} [hostLine] hostConfig :=
  .cons rfl (by decide) .nil

theorem hostSocket_starts : (initSocket Sad.spiLib (searchSocket hostConfig)
    (tables hostConfig [] [tunnelSa 5])).isOk = true := by
  decide +kernel

theorem policies_refined_host :
    ∃ t s, initSocket Sad.spiLib (searchSocket hostConfig)
        (tables hostConfig [] [tunnelSa 5]) = .ok (t, s)
      ∧ ∃ entries, List.Forall₂ (LineSays longest true) [hostLine] entries
        ∧ Refined s true false entries := by
  have hsize : [tunnelSa 5].length < 2 ^ 32 - 1 := by decide
  have hstarts := hostSocket_starts
  cases hinit : initSocket Sad.spiLib (searchSocket hostConfig)
      (tables hostConfig [] [tunnelSa 5]) with
  | error e =>
      rw [hinit] at hstarts
      cases hstarts
  | ok r =>
      exact ⟨r.1, r.2, rfl, policies_refined hostLine_run longest_length nofun
        (fun _ hline => List.mem_singleton.mp hline ▸ hostLine_right) hsize
        (searchSocket_documented hostConfig) hinit true false⟩

end Spd
