import IpsecSecgw.FlowModel

/-! # Hash and slots agree

    The hash and the array are written by separate statements, and the sweep
    finds its slot by a lookup, deletes by the key of the slot it found and
    clears the slot the deletion names.  `Consistent` is what keeps the three
    together; `flushSlot_cases` says what one round of the sweep then does, and
    `flushHashTable_flows` what all of them do to the flows.

    `netstat_consistent` is about every sequence of calls. -/

namespace Flow

open ByteStore MbufModel SecgwModel Slots Hashing

/-! ## The invariant -/

/-- The slot of the flow `k`. -/
structure Holds (k : NetstatHashKeyStruct) (e : NetstatStruct) : Prop where
  key : e.key = k
  status : e.status = 1
  srcIP : e.srcIP = k.srcIP
  dstIP : e.dstIP = k.dstIP
  proto : e.proto = k.proto
  srcPort : e.srcPort = k.srcPort
  dstPort : e.dstPort = k.dstPort

theorem holds_newSlot (k : NetstatHashKeyStruct) (portid : UInt16) (t : UInt64) :
    Holds k (newSlot k portid t) := ⟨rfl, rfl, rfl, rfl, rfl, rfl, rfl⟩

/-- A packet of the flow leaves its slot the flow's. -/
theorem Holds.touch {k : NetstatHashKeyStruct} {e : NetstatStruct} (h : Holds k e)
    (t : UInt64) : Holds k { e with lastPktTime := t } :=
  ⟨h.key, h.status, h.srcIP, h.dstIP, h.proto, h.srcPort, h.dstPort⟩

/-- Every key has its slot, every other slot is zero. -/
structure Agree (s : Netstat) : Prop where
  stored : ∀ k p, s.hash.lookup k = some p → Holds k (s.data p)
  free : ∀ p, (∀ k, s.hash.lookup k ≠ some p) → s.data p = {}

/-- Hash and slots agree, and the counter counts the keys. -/
structure Consistent (s : Netstat) : Prop extends Agree s where
  counted : s.counts.toNat = s.hash.size

theorem consistent_init : Consistent {} := by
  refine ⟨⟨?_, fun _ _ => rfl⟩, rfl⟩
  intro k p h
  rw [show (({} : Netstat).hash) = SlotHash.empty from rfl,
    SlotHash.lookup_empty] at h
  cases h

/-- A slot in use is that of a flow. -/
theorem Agree.status {s : Netstat} (h : Agree s) (p : Nat) :
    (s.data p).status = 1 ↔ ∃ k, s.hash.lookup k = some p := by
  constructor
  · intro hp
    by_contra hnone
    rw [h.free p fun k hk => hnone ⟨k, hk⟩] at hp
    cases hp
  · rintro ⟨k, hk⟩
    exact (h.stored k p hk).status

/-- **SLOTS IN USE** are as many as keys. -/
theorem Consistent.used {s : Netstat} (h : Consistent s) :
    ((Finset.range netstatEntries).filter fun p => (s.data p).status = 1).card
      = s.hash.size :=
  s.hash.card_positions _ fun p _ => h.status p

/-! ## A packet -/

/-- **WHAT A PACKET DOES**: it finds its flow and renews the time, or starts a
    flow on a free position, or finds no room for one. -/
theorem dpiInsert_cases (answer : Option Nat) (k : NetstatHashKeyStruct)
    (portid : UInt16) (t : UInt64) (s : Netstat) :
    (∃ p, s.hash.lookup k = some p
        ∧ dpiInsert answer k portid t s = (none,
          { s with
            hits := s.hits + 1
            data := Function.update s.data p
              { s.data p with lastPktTime := t } }))
      ∨ (∃ p, ∃ hp : s.hash.Free p, s.hash.lookup k = none
        ∧ dpiInsert answer k portid t s = (some p,
          { s with
            hash := s.hash.add k p hp
            counts := s.counts + 1
            data := Function.update s.data p (newSlot k portid t) }))
      ∨ (s.hash.lookup k = none ∧ dpiInsert answer k portid t s = (none, s)) := by
  rw [dpiInsert]
  cases hk : s.hash.lookup k with
  | some p => exact .inl ⟨p, rfl, rfl⟩
  | none =>
      dsimp only
      cases hadd : s.hash.addKey k answer with
      | none => exact .inr (.inr ⟨rfl, rfl⟩)
      | some r =>
          obtain ⟨p, hash⟩ := r
          obtain ⟨hp, rfl⟩ := SlotHash.addKey_some hadd
          exact .inr (.inl ⟨p, hp, rfl, rfl⟩)

section slots

variable {s : Netstat} {k : NetstatHashKeyStruct} {p : Nat}

/-- Renewing a time keeps every slot the flow's. -/
theorem stored_touch (h : ∀ k p, s.hash.lookup k = some p → Holds k (s.data p))
    (t : UInt64) : ∀ k' q, s.hash.lookup k' = some q →
    Holds k' (Function.update s.data p { s.data p with lastPktTime := t } q) := by
  intro k' q hq
  by_cases e : q = p
  · subst e
    rw [Function.update_self]
    exact (h k' q hq).touch t
  · rw [Function.update_of_ne e]
    exact h k' q hq

/-- A new flow gets its slot, the others keep theirs. -/
theorem stored_add (h : ∀ k p, s.hash.lookup k = some p → Holds k (s.data p))
    (hp : s.hash.Free p) (portid : UInt16) (t : UInt64) :
    ∀ k' q, (s.hash.add k p hp).lookup k' = some q →
    Holds k' (Function.update s.data p (newSlot k portid t) q) := by
  intro k' q hq
  rw [SlotHash.lookup_add] at hq
  by_cases e : k' = k
  · subst e
    rw [if_pos rfl] at hq
    cases hq
    rw [Function.update_self]
    exact holds_newSlot k' portid t
  · rw [if_neg e] at hq
    have hne : q ≠ p := by
      rintro rfl
      exact hp.ne k' hq
    rw [Function.update_of_ne hne]
    exact h k' q hq

/-- A position no flow has behind an insertion was one before, and is not the
    new one. -/
theorem free_of_free_add (hk : s.hash.lookup k = none) (hp : s.hash.Free p) {q : Nat}
    (hq : ∀ k', (s.hash.add k p hp).lookup k' ≠ some q) :
    q ≠ p ∧ ∀ k', s.hash.lookup k' ≠ some q := by
  constructor
  · rintro rfl
    have hqk := hq k
    rw [SlotHash.lookup_add, if_pos rfl] at hqk
    exact hqk rfl
  · intro k' hk'
    have hq' := hq k'
    rw [SlotHash.lookup_add] at hq'
    by_cases e : k' = k
    · subst e
      rw [hk] at hk'
      cases hk'
    · rw [if_neg e] at hq'
      exact hq' hk'

end slots

/-- **INSERT**: a packet keeps hash and slots together. -/
theorem Consistent.insert {s : Netstat} (h : Consistent s) (answer : Option Nat)
    (k : NetstatHashKeyStruct) (portid : UInt16) (t : UInt64) :
    Consistent (dpiInsert answer k portid t s).2 := by
  rcases dpiInsert_cases answer k portid t s with
    ⟨p, hk, heq⟩ | ⟨p, hp, hk, heq⟩ | ⟨-, heq⟩
  · rw [heq]
    refine ⟨⟨stored_touch h.stored t, ?_⟩, h.counted⟩
    intro q hq
    have hne : q ≠ p := by
      rintro rfl
      exact hq k hk
    dsimp only
    rw [Function.update_of_ne hne]
    exact h.free q hq
  · rw [heq]
    refine ⟨⟨stored_add h.stored hp portid t, ?_⟩, ?_⟩
    · intro q hq
      obtain ⟨hne, hfree⟩ := free_of_free_add hk hp hq
      dsimp only
      rw [Function.update_of_ne hne]
      exact h.free q hfree
    · -- a full table has far fewer keys than the counter holds
      have hle := s.hash.size_le
      show (s.counts + 1).toNat = (s.hash.add k p hp).size
      rw [SlotHash.size_add hp hk, UInt64.toNat_add, h.counted]
      exact Nat.mod_eq_of_lt (Nat.lt_of_le_of_lt
        (Nat.add_le_add_right hle 1) (by decide))
  · rw [heq]
    exact h

theorem Consistent.push {s : Netstat} (h : Consistent s) (p : Nat) :
    Consistent (s.push p) := ⟨⟨h.stored, h.free⟩, h.counted⟩

theorem Consistent.dpi {s : Netstat} (h : Consistent s) (answer : Option Nat)
    (m : Mbuf) (portid : UInt16) (t : UInt64) :
    Consistent (dpi answer m portid t s).2 := by
  rw [Flow.dpi]
  have hins := h.insert answer (netstatHashKeyData m) portid t
  split
  · dsimp only
    split
    · exact hins
    · exact hins.push _
  · exact h

/-! ## One round of the sweep -/

/-- Is slot `n` that of a flow idle at that time? -/
def Idle (currTime : UInt64) (n : Nat) (s : Netstat) : Prop :=
  (s.data n).status = 1 ∧ expired currTime (s.data n).lastPktTime = true

instance (currTime : UInt64) (n : Nat) (s : Netstat) :
    Decidable (Idle currTime n s) :=
  inferInstanceAs (Decidable (_ ∧ _))

/-- **EVICTION** takes the flow out that the slot belongs to, and names that
    slot. -/
theorem Agree.evict {s : Netstat} (h : Agree s) (currTime : UInt64)
    (n : Nat) :
    (Idle currTime n s → ∃ k, s.hash.lookup k = some n
        ∧ evict currTime n s
          = (some (n, true), { s with hash := s.hash.erase k }))
      ∧ (¬ Idle currTime n s → evict currTime n s = (none, s)) := by
  rw [Flow.evict]
  constructor
  · intro hidle
    obtain ⟨k, hk⟩ := (h.status n).mp hidle.1
    have hkey := (h.stored k n hk).key
    refine ⟨k, hk, ?_⟩
    refine (if_pos hidle).trans ?_
    rw [hkey, hk]
    dsimp only
    rw [hkey, SlotHash.delKey, hk]
    rfl
  · intro hidle
    exact if_neg hidle

/-- **ONE ROUND** removes the flow of an idle slot, or nothing. -/
theorem Consistent.flushSlot_cases {s : Netstat} (h : Consistent s)
    (currTime : UInt64) (n : Nat) :
    (Idle currTime n s → ∃ k, s.hash.lookup k = some n
        ∧ flushSlot currTime n s
          = { s with
              hash := s.hash.erase k
              data := Function.update s.data n {}
              counts := s.counts - 1 })
      ∧ (¬ Idle currTime n s → flushSlot currTime n s = s) := by
  obtain ⟨hyes, hno⟩ := h.evict currTime n
  rw [flushSlot]
  constructor
  · intro hidle
    obtain ⟨k, hk, hev⟩ := hyes hidle
    refine ⟨k, hk, ?_⟩
    have hpos : 0 < s.counts := by
      have hsize := SlotHash.size_erase hk
      rw [UInt64.lt_iff_toNat_lt, h.counted]
      show 0 < s.hash.size
      omega
    rw [hev]
    dsimp only
    rw [clearSlot]
    simp only [hpos, and_self, if_true]
  · intro hidle
    rw [hno hidle]

section erasing

variable {h : SlotHash NetstatHashKeyStruct netstatEntries}
  {k k' : NetstatHashKeyStruct} {n q : Nat}

/-- A flow still there behind a deletion is another one. -/
theorem lookup_of_erase (hq : (h.erase k).lookup k' = some q) :
    k' ≠ k ∧ h.lookup k' = some q := by
  rw [SlotHash.lookup_erase] at hq
  by_cases e : k' = k
  · rw [if_pos e] at hq
    cases hq
  · rw [if_neg e] at hq
    exact ⟨e, hq⟩

/-- But for the position of the deleted flow, no position has become free. -/
theorem free_of_free_erase (hk : h.lookup k = some n) (e : q ≠ n)
    (hq : ∀ k', (h.erase k).lookup k' ≠ some q) : ∀ k', h.lookup k' ≠ some q := by
  intro k' hk'
  have hq' := hq k'
  rw [SlotHash.lookup_erase] at hq'
  by_cases e' : k' = k
  · subst e'
    rw [hk] at hk'
    cases hk'
    exact e rfl
  · rw [if_neg e'] at hq'
    exact hq' hk'

end erasing

theorem Consistent.flushSlot {s : Netstat} (h : Consistent s) (currTime : UInt64)
    (n : Nat) : Consistent (flushSlot currTime n s) := by
  obtain ⟨hyes, hno⟩ := h.flushSlot_cases currTime n
  by_cases hidle : Idle currTime n s
  · obtain ⟨k, hk, heq⟩ := hyes hidle
    rw [heq]
    refine ⟨⟨?_, ?_⟩, ?_⟩
    · intro k' q hq
      dsimp only at hq ⊢
      obtain ⟨e, hq⟩ := lookup_of_erase hq
      have hne : q ≠ n := by
        rintro rfl
        exact e (SlotHash.lookup_inj hq hk)
      rw [Function.update_of_ne hne]
      exact h.stored k' q hq
    · intro q hq
      dsimp only at hq ⊢
      by_cases e : q = n
      · subst e
        rw [Function.update_self]
      · rw [Function.update_of_ne e]
        exact h.free q (free_of_free_erase hk e hq)
    · have hsize := SlotHash.size_erase hk
      have hone : (1 : UInt64) ≤ s.counts := by
        rw [UInt64.le_iff_toNat_le, h.counted]
        show 1 ≤ s.hash.size
        omega
      show (s.counts - 1).toNat = (s.hash.erase k).size
      rw [UInt64.toNat_sub_of_le _ _ hone, h.counted]
      show s.hash.size - 1 = (s.hash.erase k).size
      omega
  · rw [hno hidle]
    exact h

/-! ## The whole sweep -/

/-- The flows as a map: the time of the last packet of each. -/
def flows (s : Netstat) (k : NetstatHashKeyStruct) : Option UInt64 :=
  (s.hash.lookup k).map fun p => (s.data p).lastPktTime

/-- What the sweep has done when it comes to slot `i`: of the slots behind it
    the idle ones are gone, everything else is as it was. -/
structure SweptTo (currTime : UInt64) (s : Netstat) (i : Nat) (t : Netstat) :
    Prop where
  consistent : Consistent t
  gone : ∀ k, t.hash.lookup k
    = (s.hash.lookup k).filter fun p =>
        !(decide (p < i) && expired currTime (s.data p).lastPktTime)
  kept : ∀ k p, t.hash.lookup k = some p → t.data p = s.data p

theorem SweptTo.round {currTime : UInt64} {s t : Netstat} {i : Nat}
    (h : SweptTo currTime s i t) :
    SweptTo currTime s (i + 1) (flushSlot currTime i t) := by
  obtain ⟨hyes, hno⟩ := h.consistent.flushSlot_cases currTime i
  -- at any other position the range tested has not grown
  have hother : ∀ p, p ≠ i →
      (decide (p < i + 1) = decide (p < i)) := by
    intro p hp
    refine decide_eq_decide.mpr ⟨?_, ?_⟩ <;> intro hlt <;> omega
  by_cases hidle : Idle currTime i t
  · obtain ⟨k, hk, heq⟩ := hyes hidle
    have hsame := h.kept k i hk
    refine ⟨h.consistent.flushSlot currTime i, ?_, ?_⟩
    · intro k'
      rw [heq]
      dsimp only
      rw [SlotHash.lookup_erase]
      by_cases e : k' = k
      · subst e
        have hfrom := h.gone k'
        rw [hk] at hfrom
        obtain ⟨hs, -⟩ := Option.filter_eq_some_iff.mp hfrom.symm
        rw [if_pos rfl, hs]
        have hexp := hidle.2
        rw [hsame] at hexp
        simp [Option.filter, hexp]
      · rw [if_neg e, h.gone k']
        cases hs : s.hash.lookup k' with
        | none => rfl
        | some p =>
            by_cases hp : p = i
            · -- two flows do not share a slot
              subst hp
              have hkt := h.gone k'
              rw [hs] at hkt
              simp only [Option.filter, Nat.lt_irrefl, decide_false,
                Bool.false_and, Bool.not_false, if_true] at hkt
              exact absurd (SlotHash.lookup_inj hkt hk) e
            · simp only [Option.filter, hother p hp]
    · intro k' p hp
      rw [heq] at hp ⊢
      dsimp only at hp ⊢
      obtain ⟨e, hp⟩ := lookup_of_erase hp
      have hne : p ≠ i := by
        rintro rfl
        exact e (SlotHash.lookup_inj hp hk)
      rw [Function.update_of_ne hne]
      exact h.kept k' p hp
  · rw [hno hidle]
    refine ⟨h.consistent, ?_, h.kept⟩
    intro k'
    have hfrom := h.gone k'
    rw [hfrom]
    cases hs : s.hash.lookup k' with
    | none => rfl
    | some p =>
        by_cases hp : p = i
        · subst hp
          rw [hs] at hfrom
          simp only [Option.filter, Nat.lt_irrefl, decide_false,
            Bool.false_and, Bool.not_false, if_true] at hfrom
          have hused := (h.consistent.stored k' p hfrom).status
          have hfresh : expired currTime (s.data p).lastPktTime = false := by
            rw [← h.kept k' p hfrom]
            exact Bool.eq_false_iff.mpr fun hexp => hidle ⟨hused, hexp⟩
          simp [Option.filter, hfresh]
        · simp only [Option.filter, hother p hp]

/-- **THE SWEEP**: hash and slots stay together, and of the flows exactly those
    are removed that have been idle for more than fifteen seconds. -/
theorem flushHashTable_flows {s : Netstat} (h : Consistent s) (currTime : UInt64) :
    Consistent (flushHashTable currTime s)
      ∧ ∀ k, flows (flushHashTable currTime s) k
        = (flows s k).filter fun last => !expired currTime last := by
  have hstart : SweptTo currTime s 0 s := by
    refine ⟨h, fun k => ?_, fun _ _ _ => rfl⟩
    cases s.hash.lookup k with
    | none => rfl
    | some p => simp [Option.filter]
  have hend : SweptTo currTime s netstatEntries (flushHashTable currTime s) :=
    forLoop_inv (SweptTo currTime s) hstart fun i t _ ht => ht.round
  refine ⟨hend.consistent, fun k => ?_⟩
  have hgone := hend.gone k
  rw [flows, flows]
  cases hs : s.hash.lookup k with
  | none =>
      rw [hs] at hgone
      rw [hgone]
      rfl
  | some p =>
      rw [hs] at hgone
      have hp := s.hash.lookup_lt hs
      cases hexp : expired currTime (s.data p).lastPktTime with
      | true =>
          have hnone : (flushHashTable currTime s).hash.lookup k = none := by
            rw [hgone]
            simp [Option.filter, hp, hexp]
          rw [hnone]
          simp [Option.filter, hexp]
      | false =>
          have hsome : (flushHashTable currTime s).hash.lookup k = some p := by
            rw [hgone]
            simp [Option.filter, hexp]
          rw [hsome, Option.map_some, hend.kept k p hsome]
          simp [Option.filter, hexp]

/-! ## Runs -/

/-- A call of `dpi`, with the position the hash answers with, or of
    `flushHashTable`. -/
inductive Call
  | dpi (answer : Option Nat) (m : Mbuf) (portid : UInt16) (lastPktTime : UInt64)
  | flush (currTime : UInt64)

/-- One call. -/
def Netstat.exec (s : Netstat) : Call → Netstat
  | .dpi answer m portid t => (Flow.dpi answer m portid t s).2
  | .flush currTime => flushHashTable currTime s

theorem Consistent.exec {s : Netstat} (h : Consistent s) (c : Call) :
    Consistent (s.exec c) := by
  cases c with
  | dpi answer m portid t => exact h.dpi answer m portid t
  | flush currTime => exact (flushHashTable_flows h currTime).1

theorem Consistent.run {s : Netstat} (h : Consistent s) (calls : List Call) :
    Consistent (calls.foldl Netstat.exec s) := by
  induction calls generalizing s with
  | nil => exact h
  | cons c calls ih => exact ih (h.exec c)

/-- **CONSISTENCY**: behind every sequence of calls the counter, the keys and the
    slots in use are equally many, every key has its slot and every other slot
    is zero; and a sweep removes exactly the idle flows. -/
theorem netstat_consistent (calls : List Call) (currTime : UInt64) :
    let s := calls.foldl Netstat.exec {}
    Consistent s
      ∧ ((Finset.range netstatEntries).filter
          fun p => (s.data p).status = 1).card = s.hash.size
      ∧ ∀ k, flows (flushHashTable currTime s) k
        = (flows s k).filter fun last => !expired currTime last := by
  have h := consistent_init.run calls
  exact ⟨h, h.used, (flushHashTable_flows h currTime).2⟩

end Flow
