import IpsecSecgw.CfgLinesModel
import IpsecSecgw.Lib.Ranked
import IpsecSecgw.SpInitModel

/-! # ACL contexts

    What `acl4_init` and `acl6_init` hand to `librte_acl`: the definitions of the fields
    and the rules with their fields in this order.  The rules come from the lines of the
    configuration, sorted by their SPIs behind `parse_cfg_file`.

    `librte_acl` is not of this repository.  `AclAnswers` is what its documentation says
    of `rte_acl_classify`: a packet gets the `userdata` of a rule of highest priority
    among those all of whose fields match, or zero. -/

namespace SpAcl

open ByteStore SaModel SpParse CfgLines HalvingSearch

/-! ## Fields -/

/-- The types of a field. -/
inductive AclFieldType
  | mask
  | range
  | bitmask

/-- `struct rte_acl_field_def`.  `field_index` is the place in the list; `input_index`
    says which fields the library reads together. -/
structure AclFieldDef where
  type : AclFieldType
  size : Nat
  offset : Nat

/-- `ip4_defs`, from the protocol of the header on. -/
def ip4Defs : List AclFieldDef :=
  [⟨.bitmask, 1, 0⟩, ⟨.mask, 4, 3⟩, ⟨.mask, 4, 7⟩, ⟨.range, 2, 11⟩, ⟨.range, 2, 13⟩]

/-- `ip6_defs`, from the next header on. -/
def ip6Defs : List AclFieldDef :=
  [⟨.bitmask, 1, 0⟩,
    ⟨.mask, 4, 2⟩, ⟨.mask, 4, 6⟩, ⟨.mask, 4, 10⟩, ⟨.mask, 4, 14⟩,
    ⟨.mask, 4, 18⟩, ⟨.mask, 4, 22⟩, ⟨.mask, 4, 26⟩, ⟨.mask, 4, 30⟩,
    ⟨.range, 2, 34⟩, ⟨.range, 2, 36⟩]

/-- `struct rte_acl_field`: `value` and `mask_range`. -/
abbrev AclValue := Nat × Nat

variable {n : Nat}

/-- The fields of a word of an address. -/
def addrField (f : AclField) : AclValue := (f.value.toNat, f.maskRange.toNat)

/-- `field` of a rule. -/
def ruleFields (r : SpRule n) : List AclValue :=
  (r.proto.1.toNat, r.proto.2.toNat)
    :: (r.src.toList.map addrField ++ (r.dst.toList.map addrField
      ++ [(r.sport.1.toNat, r.sport.2.toNat), (r.dport.1.toNat, r.dport.2.toNat)]))

/-! ## `librte_acl` -/

/-- A field matches a number of the packet: the bits of a mask, the leading bits, or a
    range. -/
def fieldTakes (d : AclFieldDef) (f : AclValue) (x : Nat) : Prop :=
  match d.type with
  | .bitmask => x &&& f.2 = f.1 &&& f.2
  | .mask => x >>> (8 * d.size - f.2) = f.1 >>> (8 * d.size - f.2)
  | .range => f.1 ≤ x ∧ x ≤ f.2

instance (d : AclFieldDef) (f : AclValue) (x : Nat) : Decidable (fieldTakes d f x) := by
  unfold fieldTakes
  split
  · exact inferInstanceAs (Decidable (_ = _))
  · exact inferInstanceAs (Decidable (_ = _))
  · exact inferInstanceAs (Decidable (_ ∧ _))

/-- The number a field looks at, in the bytes from `data` on. -/
def fieldInput (d : AclFieldDef) (b : Nat → UInt8) (data : Nat) : Nat :=
  ofBe (load b (data + d.offset) d.size)

/-- All fields match. -/
def fieldsTake (b : Nat → UInt8) (data : Nat) : List AclFieldDef → List AclValue → Prop
  | d :: defs, f :: fields =>
      fieldTakes d f (fieldInput d b data) ∧ fieldsTake b data defs fields
  | _, _ => True

instance fieldsTakeDecidable (b : Nat → UInt8) (data : Nat) :
    (defs : List AclFieldDef) → (fields : List AclValue) →
      Decidable (fieldsTake b data defs fields)
  | d :: defs, f :: fields =>
      @instDecidableAnd _ _ (inferInstanceAs (Decidable (fieldTakes d f _)))
        (fieldsTakeDecidable b data defs fields)
  | [], _ => inferInstanceAs (Decidable True)
  | _ :: _, [] => inferInstanceAs (Decidable True)

/-- `priority`, an `int32_t`. -/
def priority (r : SpRule n) : Int := r.priority.toInt32.toInt

/-- The rules of a context. -/
def aclKind (defs : List AclFieldDef) :
    Ranked.Kind (SpRule n) ((Nat → UInt8) × Nat) UInt32 where
  takes := fun r q => fieldsTake q.1 q.2 defs (ruleFields r)
  rank := priority
  verdict := SpRule.userdata
  other := 0

instance (defs : List AclFieldDef) (r : SpRule n) (q : (Nat → UInt8) × Nat) :
    Decidable ((aclKind defs).takes r q) :=
  fieldsTakeDecidable q.1 q.2 defs (ruleFields r)

/-- `rte_acl_classify` in a context of rules. -/
def AclAnswers (defs : List AclFieldDef) (rules : List (SpRule n)) (acl : WorkerModel.SpCtx) :
    Prop :=
  ∀ b data, Ranked.Right (aclKind defs) rules (b, data) (acl b data)

/-! ## Arrays -/

/-- The rules of a direction, as `sp4_sort_arr` and `sp6_sort_arr` leave them. -/
def sortedRules (t : SpTables n) (inbound : Bool) : List (SpRule n) :=
  msort spCmp (if inbound then t.rulesIn else t.rulesOut).used

/-- What is kept of a rule for the tables of SAs. -/
def aclRule (sp : FromSp n) (r : SpRule n) : AclRules where
  userdata := r.userdata
  src := sp.addr IpAddr.zero r.src
  dst := sp.addr IpAddr.zero r.dst
  srcMask := sp.mask r.src
  dstMask := sp.mask r.dst

/-- The global arrays behind `parse_cfg_file`. -/
def tables (c : Config) (saIn saOut : List IpsecSa) : Tables where
  saIn := saIn
  saOut := saOut
  acl4RulesIn := (sortedRules c.sp4 true).map (aclRule fromSp4)
  acl4RulesOut := (sortedRules c.sp4 false).map (aclRule fromSp4)
  acl6RulesIn := (sortedRules c.sp6 true).map (aclRule fromSp6)
  acl6RulesOut := (sortedRules c.sp6 false).map (aclRule fromSp6)

/-- Rules with what has been written to their `userdata`. -/
def withUserdata (rules : List (SpRule n)) (kept : List AclRules) : List (SpRule n) :=
  List.zipWith (fun r a => { r with userdata := a.userdata }) rules kept

/-- The contexts of a socket are made of the whole rules and answer as documented. -/
def Documented (env : SpInit.SocketEnv) (c : Config) : Prop :=
  ∀ inbound rules acl,
    (env.aclInit true inbound rules = some acl →
        AclAnswers ip4Defs (withUserdata (sortedRules c.sp4 inbound) rules) acl)
      ∧ (env.aclInit false inbound rules = some acl →
        AclAnswers ip6Defs (withUserdata (sortedRules c.sp6 inbound) rules) acl)

end SpAcl
