import IpsecSecgw.FlowProofs

/-! # The sweep among packets

    `flushHashTable` reads the time once and then goes through the slots, while
    the polling lcores go on writing newer times into them.  The difference is
    unsigned: a time behind the start of the sweep looks like one long ago.

    A run interleaves packets, the clock and the single rounds of a sweep;
    `sweep_evicts_idle_iff` says which rounds keep to idle flows. -/

namespace Flow

open ByteStore MbufModel SecgwModel Slots Hashing

/-! ## Steps -/

/-- The table under the clock: the time, the sweep under way with the time it
    started at and its next slot, and when the last packet of each flow came. -/
structure Clocked where
  netstat : Netstat := {}
  now : UInt64 := 0
  sweep : Option (UInt64 × Nat) := none
  arrived : NetstatHashKeyStruct → Option UInt64 := fun _ => none

/-- What happens next: time passes, a packet arrives on a lcore that has just
    read the clock, a sweep starts, the sweep under way examines a slot. -/
inductive Event
  | tick (t : UInt64)
  | packet (answer : Option Nat) (m : Mbuf) (portid : UInt16)
  | start
  | slot

/-- One event; the clock does not go back. -/
def Clocked.step (s : Clocked) : Event → Clocked
  | .tick t => if s.now ≤ t then { s with now := t } else s
  | .packet answer m portid =>
      { s with
        netstat := (dpi answer m portid s.now s.netstat).2
        arrived :=
          if etherType m = etherTypeIpv4 then
            Function.update s.arrived (netstatHashKeyData m) (some s.now)
          else s.arrived }
  | .start =>
      match s.sweep with
      | none => { s with sweep := some (s.now, 0) }
      | some _ => s
  | .slot =>
      match s.sweep with
      | none => s
      | some (currTime, n) =>
          { s with
            netstat := flushSlot currTime n s.netstat
            sweep :=
              if n + 1 < netstatEntries then some (currTime, n + 1) else none }

/-- A run from the empty table. -/
def Clocked.run (events : List Event) : Clocked := events.foldl Clocked.step {}

/-! ## What holds along a run -/

/-- The slots are consistent and hold the time of the last packet of their
    flow; a sweep has not started in the future. -/
structure Timed (s : Clocked) : Prop where
  consistent : Consistent s.netstat
  last : ∀ k p, s.netstat.hash.lookup k = some p →
    s.arrived k = some (s.netstat.data p).lastPktTime
  started : ∀ currTime n, s.sweep = some (currTime, n) → currTime ≤ s.now

theorem timed_init : Timed {} := by
  refine ⟨consistent_init, ?_, ?_⟩
  · intro k p h
    cases h
  · intro currTime n h
    cases h

/-- A packet leaves its flow, if the table has it, with the time of its
    arrival, and every other flow alone. -/
theorem dpiInsert_last {s : Netstat} (answer : Option Nat)
    (k : NetstatHashKeyStruct) (portid : UInt16) (t : UInt64)
    {k' : NetstatHashKeyStruct} {p : Nat}
    (hp : (dpiInsert answer k portid t s).2.hash.lookup k' = some p) :
    if k' = k then ((dpiInsert answer k portid t s).2.data p).lastPktTime = t
    else s.hash.lookup k' = some p
      ∧ (dpiInsert answer k portid t s).2.data p = s.data p := by
  rcases dpiInsert_cases answer k portid t s with
    ⟨q, hk, heq⟩ | ⟨q, hq, -, heq⟩ | ⟨hk, heq⟩
  · rw [heq] at hp ⊢
    dsimp only at hp ⊢
    by_cases e : k' = k
    · subst e
      rw [hk] at hp
      cases hp
      rw [if_pos rfl, Function.update_self]
    · rw [if_neg e]
      have hne : p ≠ q := by
        rintro rfl
        exact e (SlotHash.lookup_inj hp hk)
      rw [Function.update_of_ne hne]
      exact ⟨hp, rfl⟩
  · rw [heq] at hp ⊢
    dsimp only at hp ⊢
    rw [SlotHash.lookup_add] at hp
    by_cases e : k' = k
    · rw [if_pos e] at hp ⊢
      cases hp
      rw [Function.update_self]
      rfl
    · rw [if_neg e] at hp ⊢
      have hne : p ≠ q := by
        rintro rfl
        exact hq.ne k' hp
      rw [Function.update_of_ne hne]
      exact ⟨hp, rfl⟩
  · rw [heq] at hp ⊢
    have hne : k' ≠ k := by
      rintro rfl
      rw [hk] at hp
      cases hp
    rw [if_neg hne]
    exact ⟨hp, rfl⟩

/-- The push at the end of `dpi` leaves the table alone. -/
theorem dpi_table (answer : Option Nat) {m : Mbuf} (portid : UInt16) (t : UInt64)
    (s : Netstat) (h4 : etherType m = etherTypeIpv4) :
    (dpi answer m portid t s).2.hash
        = (dpiInsert answer (netstatHashKeyData m) portid t s).2.hash
      ∧ (dpi answer m portid t s).2.data
        = (dpiInsert answer (netstatHashKeyData m) portid t s).2.data := by
  rw [dpi, if_pos h4]
  dsimp only
  split
  · exact ⟨rfl, rfl⟩
  · exact ⟨rfl, rfl⟩

theorem Timed.packet {s : Clocked} (h : Timed s) (answer : Option Nat) (m : Mbuf)
    (portid : UInt16) : Timed (s.step (.packet answer m portid)) := by
  refine ⟨h.consistent.dpi answer m portid s.now, ?_, h.started⟩
  intro k p hp
  simp only [Clocked.step] at hp ⊢
  by_cases h4 : etherType m = etherTypeIpv4
  · obtain ⟨hhash, hdata⟩ := dpi_table answer portid s.now s.netstat h4
    rw [hhash] at hp
    have hlast := dpiInsert_last answer (netstatHashKeyData m) portid s.now hp
    rw [if_pos h4, hdata]
    by_cases e : k = netstatHashKeyData m
    · rw [if_pos e] at hlast
      rw [e, Function.update_self, hlast]
    · rw [if_neg e] at hlast
      rw [Function.update_of_ne e, hlast.2]
      exact h.last k p hlast.1
  · rw [dpi, if_neg h4] at hp ⊢
    rw [if_neg h4]
    exact h.last k p hp

theorem Timed.slot {s : Clocked} (h : Timed s) : Timed (s.step .slot) := by
  rw [Clocked.step]
  cases hs : s.sweep with
  | none => exact h
  | some w =>
      obtain ⟨currTime, n⟩ := w
      refine ⟨h.consistent.flushSlot currTime n, ?_, ?_⟩
      · intro k p hp
        dsimp only at hp ⊢
        obtain ⟨hyes, hno⟩ := h.consistent.flushSlot_cases currTime n
        by_cases hidle : Idle currTime n s.netstat
        · obtain ⟨k', hk', heq⟩ := hyes hidle
          rw [heq] at hp ⊢
          dsimp only at hp ⊢
          obtain ⟨e, hp⟩ := lookup_of_erase hp
          have hne : p ≠ n := by
            rintro rfl
            exact e (SlotHash.lookup_inj hp hk')
          rw [Function.update_of_ne hne]
          exact h.last k p hp
        · rw [hno hidle] at hp ⊢
          exact h.last k p hp
      · intro currTime' n' hs'
        dsimp only at hs' ⊢
        split at hs'
        · cases hs'
          exact h.started currTime n hs
        · cases hs'

theorem Timed.step {s : Clocked} (h : Timed s) (e : Event) : Timed (s.step e) := by
  cases e with
  | tick t =>
      rw [Clocked.step]
      by_cases hle : s.now ≤ t
      · rw [if_pos hle]
        refine ⟨h.consistent, h.last, ?_⟩
        intro currTime n hs
        exact UInt64.le_trans (h.started currTime n hs) hle
      · rw [if_neg hle]
        exact h
  | packet answer m portid => exact h.packet answer m portid
  | start =>
      rw [Clocked.step]
      cases hs : s.sweep with
      | none =>
          refine ⟨h.consistent, h.last, ?_⟩
          intro currTime n hs'
          cases hs'
          exact UInt64.le_refl _
      | some w => exact h
  | slot => exact h.slot

theorem timed_run (events : List Event) : Timed (Clocked.run events) := by
  have hall : ∀ (l : List Event) (s : Clocked), Timed s →
      Timed (l.foldl Clocked.step s) := by
    intro l
    induction l with
    | nil => intro s h; exact h
    | cons e l ih => intro s h; exact ih _ (h.step e)
  exact hall events {} timed_init

/-! ## Idle flows only -/

/-- The next round of the sweep removes a flow only when its last packet came
    more than fifteen seconds ago. -/
def EvictsIdle (s : Clocked) : Prop :=
  ∀ k, s.netstat.hash.lookup k ≠ none →
    (s.step .slot).netstat.hash.lookup k = none →
    ∃ t, s.arrived k = some t ∧ t.toNat + 15 < s.now.toNat

/-- The flow in the slot to be examined has had no packet in a later second
    than the start of the sweep; or that packet is more than fifteen seconds
    old, too; or the clock is so close to its end that the unsigned difference
    is small again. -/
def Timely (s : Clocked) : Prop :=
  ∀ currTime n k t, s.sweep = some (currTime, n) →
    s.netstat.hash.lookup k = some n → s.arrived k = some t →
    t.toNat ≤ currTime.toNat ∨ t.toNat + 15 < s.now.toNat
      ∨ currTime.toNat + 2 ^ 64 ≤ t.toNat + 15

/-- The unsigned difference, in plain arithmetic. -/
theorem expired_iff (currTime last : UInt64) :
    expired currTime last = true ↔
      last.toNat + 15 < currTime.toNat
        ∨ currTime.toNat < last.toNat ∧ last.toNat + 15 < currTime.toNat + 2 ^ 64 := by
  have hc := currTime.toNat_lt
  have hl := last.toNat_lt
  rw [expired, decide_eq_true_iff, UInt64.lt_iff_toNat_lt, UInt64.toNat_sub]
  show 15 < (2 ^ 64 - last.toNat + currTime.toNat) % 2 ^ 64 ↔ _
  omega

theorem Timed.evictsIdle_iff {s : Clocked} (h : Timed s) :
    EvictsIdle s ↔ Timely s := by
  rw [EvictsIdle, Timely, Clocked.step]
  cases hs : s.sweep with
  | none =>
      constructor
      · intro _ currTime n k t hs'
        cases hs'
      · intro _ k hk hgone
        exact absurd hgone hk
  | some w =>
      obtain ⟨currTime, n⟩ := w
      dsimp only
      have hstart := UInt64.le_iff_toNat_le.mp (h.started currTime n hs)
      obtain ⟨hyes, hno⟩ := h.consistent.flushSlot_cases currTime n
      constructor
      · intro hev currTime' n' k t hw hk ht
        cases hw
        -- the flow in the slot is removed exactly when it looks idle
        by_cases hidle : Idle currTime n s.netstat
        · obtain ⟨k', hk', heq⟩ := hyes hidle
          cases SlotHash.lookup_inj hk hk'
          have hgone : (flushSlot currTime n s.netstat).hash.lookup k = none := by
            rw [heq]
            dsimp only
            rw [SlotHash.lookup_erase, if_pos rfl]
          obtain ⟨t', ht', hlt⟩ := hev k (by rw [hk]; exact Option.some_ne_none n)
            hgone
          rw [ht] at ht'
          cases ht'
          exact .inr (.inl hlt)
        · have hlast := h.last k n hk
          rw [ht] at hlast
          cases hlast
          have hfresh : ¬ expired currTime
              (s.netstat.data n).lastPktTime = true := fun hexp =>
            hidle ⟨(h.consistent.stored k n hk).status, hexp⟩
          rw [expired_iff] at hfresh
          omega
      · intro htimely k hk hgone
        by_cases hidle : Idle currTime n s.netstat
        · obtain ⟨k', hk', heq⟩ := hyes hidle
          rw [heq] at hgone
          dsimp only at hgone
          rw [SlotHash.lookup_erase] at hgone
          by_cases e : k = k'
          · subst e
            have hlast := h.last k n hk'
            refine ⟨_, hlast, ?_⟩
            have hexp := (expired_iff _ _).mp hidle.2
            rcases htimely currTime n k _ rfl hk' hlast with hle | hlt | hwrap
            · omega
            · exact hlt
            · omega
          · rw [if_neg e] at hgone
            exact absurd hgone hk
        · rw [hno hidle] at hgone
          exact absurd hgone hk

/-- **NO LIVE FLOW IS EVICTED** in a run exactly when every round of a sweep in
    it comes to a slot whose flow is timely. -/
theorem sweep_evicts_idle_iff (events : List Event) :
    (∀ before, before ++ [Event.slot] <+: events → EvictsIdle (Clocked.run before))
      ↔ ∀ before, before ++ [Event.slot] <+: events →
        Timely (Clocked.run before) := by
  constructor
  · intro h before hpre
    exact (timed_run before).evictsIdle_iff.mp (h before hpre)
  · intro h before hpre
    exact (timed_run before).evictsIdle_iff.mpr (h before hpre)

/-- A bare IPv4 packet behind an Ethernet header. -/
def bareIpv4 : Mbuf :=
  Mbuf.mid (store (fun _ => 0) 140 [0x08, 0x00, 0x45]) 34

/-- **A LIVE FLOW IS EVICTED**: a flow has its first packet in second 100, when
    the sweep starts, and its second one in second 101; the next round of the
    sweep removes it. -/
theorem sweep_evicts_live :
    ¬ ∀ before, before ++ [Event.slot] <+:
        [.tick 100, .packet (some 0) bareIpv4 0, .start, .tick 101,
          .packet none bareIpv4 0, .slot] → EvictsIdle (Clocked.run before) := by
  intro h
  have hev := h [.tick 100, .packet (some 0) bareIpv4 0, .start, .tick 101,
    .packet none bareIpv4 0] (List.prefix_refl _)
  obtain ⟨t, ht, hlt⟩ := hev (netstatHashKeyData bareIpv4) (by decide) (by decide)
  have ht' : (Clocked.run [.tick 100, .packet (some 0) bareIpv4 0, .start,
      .tick 101, .packet none bareIpv4 0]).arrived (netstatHashKeyData bareIpv4)
      = some 101 := by decide
  rw [ht'] at ht
  cases ht
  exact absurd hlt (by decide)

end Flow
