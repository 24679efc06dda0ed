import IpsecSecgw.FlowProofs

/-! # Who a log record belongs to

    The list between `dpi` and the log thread holds positions, not flows.  A run
    interleaves the halves of the three parties: a lcore inserts a flow and
    pushes its position; the sweep evicts a flow and clears its slot; the log
    thread pops a position and writes the record of what the slot holds by then.

    `logs_right` says when every record is that of its flow: no flow is evicted
    while its position waits, no slot is cleared after a new flow got it, and
    positions are pushed in the order of the insertions. -/

namespace Flow

open ByteStore MbufModel SecgwModel Slots Hashing

/-! ## Steps -/

/-- A flow with its position. -/
abbrev Entry := Nat × NetstatHashKeyStruct

/-- The parties over the shared table.  `queue` says which flows the positions
    in `head` were pushed for; `inserted` lists all flows in the order of their
    insertion. -/
structure Logged where
  netstat : Netstat := {}
  /-- inserted and not yet pushed, with the lcore, oldest first -/
  pending : List (Nat × Entry) := []
  queue : List Entry := []
  /-- evicted and not yet cleared -/
  evicted : Option (Nat × Bool) := none
  popped : Option Entry := none
  db : List (NetstatHashKeyStruct × NetstatRecord) := []
  inserted : List NetstatHashKeyStruct := []

/-- The halves of the three parties; `lcore` tells the polling lcores apart. -/
inductive LogEvent
  | insert (lcore : Nat) (answer : Option Nat) (m : Mbuf) (portid : UInt16)
      (lastPktTime : UInt64)
  | push (lcore : Nat)
  | evict (currTime : UInt64) (n : Nat)
  | clear
  | pop
  | write

/-- The insertion of a packet's flow; a lcore pushes before it goes on. -/
def Logged.insertFlow (s : Logged) (lcore : Nat) (answer : Option Nat) (m : Mbuf)
    (portid : UInt16) (t : UInt64) : Logged :=
  if etherType m = etherTypeIpv4 ∧ ∀ x ∈ s.pending, x.1 ≠ lcore then
    let k := netstatHashKeyData m
    let r := dpiInsert answer k portid t s.netstat
    match r.1 with
    | none => { s with netstat := r.2 }
    | some ret =>
        { s with
          netstat := r.2
          pending := s.pending ++ [(lcore, ret, k)]
          inserted := s.inserted ++ [k] }
  else s

/-- One event; an event whose party is not ready for it changes nothing. -/
def Logged.step (s : Logged) : LogEvent → Logged
  | .insert lcore answer m portid t => s.insertFlow lcore answer m portid t
  | .push lcore =>
      match s.pending.find? (·.1 = lcore) with
      | none => s
      | some x =>
          { s with
            netstat := s.netstat.push x.2.1
            pending := s.pending.filter (·.1 ≠ lcore)
            queue := s.queue ++ [x.2] }
  | .evict currTime n =>
      match s.evicted with
      | some _ => s
      | none =>
          let r := evict currTime n s.netstat
          { s with netstat := r.2, evicted := r.1 }
  | .clear =>
      match s.evicted with
      | none => s
      | some (ret, counted) =>
          { s with netstat := clearSlot ret counted s.netstat, evicted := none }
  | .pop =>
      match s.popped with
      | some _ => s
      | none =>
          { s with
            netstat := s.netstat.pop.2
            queue := s.queue.tail
            popped := s.queue.head? }
  | .write =>
      match s.popped with
      | none => s
      | some x =>
          { s with
            popped := none
            db := s.db ++ [(x.2, insertNetstatToDB (s.netstat.data x.1))] }

/-- A run. -/
def Logged.run (s : Logged) (events : List LogEvent) : Logged :=
  events.foldl Logged.step s

/-- The positions that wait for their record, with their flows. -/
def Logged.waiting (s : Logged) : List Entry :=
  s.popped.toList ++ s.queue ++ s.pending.map fun x => x.2

/-! ## What is asked of a run -/

/-- The record carries the 5-tuple of the flow. -/
structure RecordOf (k : NetstatHashKeyStruct) (r : NetstatRecord) : Prop where
  srcIP : r.srcIP = k.srcIP
  dstIP : r.dstIP = k.dstIP
  proto : r.proto = k.proto
  srcPort : r.srcPort = rteCpuToBe16 k.srcPort
  dstPort : r.dstPort = rteCpuToBe16 k.dstPort

/-- Every record is that of the flow its position was pushed for, and when
    nothing waits any more, every inserted flow has its one record, in the order
    of the insertions. -/
def Right (s : Logged) : Prop :=
  (∀ x ∈ s.db, RecordOf x.1 x.2)
    ∧ (s.waiting = [] → s.db.map Prod.fst = s.inserted)

/-- The step the list of positions relies on: a lcore pushes the oldest flow
    that is not pushed yet, no flow that waits is evicted, and a slot is cleared
    before a new flow has got it. -/
def Orderly (s : Logged) : LogEvent → Prop
  | .push lcore => ∀ x ∈ s.pending.head?, x.1 = lcore
  | .evict currTime n =>
      Idle currTime n s.netstat → ∀ x ∈ s.waiting, x.1 ≠ n
  | .clear => ∀ x ∈ s.evicted, x.1 ∉ s.netstat.hash.positions
  | _ => True

instance (s : Logged) (e : LogEvent) : Decidable (Orderly s e) :=
  match e with
  | .push lcore => inferInstanceAs (Decidable (∀ x ∈ s.pending.head?, x.1 = lcore))
  | .evict currTime n =>
      inferInstanceAs (Decidable (Idle currTime n s.netstat → ∀ x ∈ s.waiting, x.1 ≠ n))
  | .clear => inferInstanceAs (Decidable (∀ x ∈ s.evicted, x.1 ∉ s.netstat.hash.positions))
  | .insert .. | .pop | .write => inferInstanceAs (Decidable True)

/-- Every step of the run is orderly. -/
def OrderlyRun : Logged → List LogEvent → Prop
  | _, [] => True
  | s, e :: events => Orderly s e ∧ OrderlyRun (s.step e) events

instance decidableOrderlyRun : (s : Logged) → (events : List LogEvent) →
    Decidable (OrderlyRun s events)
  | _, [] => inferInstanceAs (Decidable True)
  | s, e :: events =>
      have := decidableOrderlyRun (s.step e) events
      inferInstanceAs (Decidable (Orderly s e ∧ OrderlyRun (s.step e) events))

/-! ## The invariant -/

/-- Waiting positions are those of their flows in the hash, whose slots are
    theirs; a slot of no flow is zero or about to be cleared; records and
    waiting positions together are the flows inserted, in order. -/
structure LogInv (s : Logged) : Prop where
  stored : ∀ k p, s.netstat.hash.lookup k = some p → Holds k (s.netstat.data p)
  free : ∀ p, (∀ k, s.netstat.hash.lookup k ≠ some p) →
    s.netstat.data p = {} ∨ ∃ b, s.evicted = some (p, b)
  waiting : ∀ x ∈ s.waiting, s.netstat.hash.lookup x.2 = some x.1
  head : s.netstat.head = s.queue.map Prod.fst
  lcores : (s.pending.map Prod.fst).Nodup
  order : s.inserted = s.db.map Prod.fst ++ s.waiting.map Prod.snd
  records : ∀ x ∈ s.db, RecordOf x.1 x.2

theorem logInv_init : LogInv {} := by
  refine ⟨?_, fun _ _ => .inl rfl, ?_, rfl, List.nodup_nil, rfl, ?_⟩
  · intro k p h
    cases h
  · intro x h
    cases h
  · intro x h
    cases h

theorem LogInv.right {s : Logged} (h : LogInv s) : Right s := by
  refine ⟨h.records, fun hnone => ?_⟩
  rw [h.order, hnone]
  simp

theorem LogInv.agree {s : Logged} (h : LogInv s) (hev : s.evicted = none) :
    Agree s.netstat := by
  refine ⟨h.stored, fun p hp => ?_⟩
  rcases h.free p hp with hz | ⟨b, hb⟩
  · exact hz
  · rw [hev] at hb
    cases hb

/-! ## Step by step -/

theorem LogInv.insertFlow {s : Logged} (h : LogInv s) (lcore : Nat)
    (answer : Option Nat) (m : Mbuf) (portid : UInt16) (t : UInt64) :
    LogInv (s.insertFlow lcore answer m portid t) := by
  rw [Logged.insertFlow]
  by_cases hready : etherType m = etherTypeIpv4 ∧ ∀ x ∈ s.pending, x.1 ≠ lcore
  · rw [if_pos hready]
    dsimp only
    rcases dpiInsert_cases answer (netstatHashKeyData m) portid t s.netstat with
      ⟨p, hk, heq⟩ | ⟨p, hp, hk, heq⟩ | ⟨-, heq⟩
    · rw [heq]
      refine ⟨stored_touch h.stored t, ?_, h.waiting, h.head, h.lcores, h.order,
        h.records⟩
      intro q hq
      -- a known flow: its slot is in use
      have hne : q ≠ p := by
        rintro rfl
        exact hq _ hk
      dsimp only
      rw [Function.update_of_ne hne]
      exact h.free q hq
    · rw [heq]
      -- a new flow waits for its logs
      have hwait : ({ s with
          netstat := { s.netstat with
            hash := s.netstat.hash.add (netstatHashKeyData m) p hp
            counts := s.netstat.counts + 1
            data := Function.update s.netstat.data p
              (newSlot (netstatHashKeyData m) portid t) }
          pending := s.pending ++ [(lcore, p, netstatHashKeyData m)]
          inserted := s.inserted ++ [netstatHashKeyData m] } : Logged).waiting
          = s.waiting ++ [(p, netstatHashKeyData m)] := by
        simp [Logged.waiting]
      refine ⟨stored_add h.stored hp portid t, ?_, ?_, h.head, ?_, ?_, h.records⟩
      · intro q hq
        obtain ⟨hne, hfree⟩ := free_of_free_add hk hp hq
        dsimp only
        rw [Function.update_of_ne hne]
        exact h.free q hfree
      · intro x hx
        rw [hwait] at hx
        dsimp only
        rw [SlotHash.lookup_add]
        rcases List.mem_append.mp hx with hx | hx
        · have hold := h.waiting x hx
          -- those that wait have their keys in the table
          have hne : x.2 ≠ netstatHashKeyData m := by
            intro e
            rw [e, hk] at hold
            cases hold
          rw [if_neg hne]
          exact hold
        · rw [List.mem_singleton.mp hx, if_pos rfl]
      · dsimp only
        rw [List.map_append, List.nodup_append]
        refine ⟨h.lcores, List.nodup_singleton _, ?_⟩
        intro a ha b hb hab
        obtain ⟨x, hx, rfl⟩ := List.mem_map.mp ha
        exact hready.2 x hx (hab.trans (List.mem_singleton.mp hb))
      · rw [hwait, List.map_append, ← List.append_assoc, ← h.order]
        rfl
    · rw [heq]
      exact h
  · rw [if_neg hready]
    exact h

theorem LogInv.push {s : Logged} (h : LogInv s) (lcore : Nat)
    (ho : Orderly s (.push lcore)) : LogInv (s.step (.push lcore)) := by
  rw [Logged.step]
  have hnodup := h.lcores
  cases hpend : s.pending with
  | nil =>
      rw [List.find?_nil]
      exact h
  | cons x rest =>
      have hx : x.1 = lcore := ho x (by rw [hpend]; rfl)
      rw [hpend, List.map_cons, List.nodup_cons] at hnodup
      -- the oldest entry is the lcore's, and it has no other
      have hrest : (x :: rest).filter (·.1 ≠ lcore) = rest := by
        rw [List.filter_cons_of_neg (by simp [hx]), List.filter_eq_self]
        intro y hy
        refine decide_eq_true ?_
        intro e
        exact hnodup.1 (List.mem_map.mpr ⟨y, hy, e.trans hx.symm⟩)
      rw [List.find?_cons_of_pos (by simp [hx]), hrest]
      have hwait : ({ s with
          netstat := s.netstat.push x.2.1
          pending := rest
          queue := s.queue ++ [x.2] } : Logged).waiting = s.waiting := by
        simp [Logged.waiting, hpend]
      refine ⟨h.stored, h.free, ?_, ?_, hnodup.2, ?_, h.records⟩
      · rw [hwait]
        exact h.waiting
      · show s.netstat.head ++ [x.2.1] = (s.queue ++ [x.2]).map Prod.fst
        rw [h.head, List.map_append]
        rfl
      · rw [hwait]
        exact h.order

theorem LogInv.evict {s : Logged} (h : LogInv s) (currTime : UInt64) (n : Nat)
    (ho : Orderly s (.evict currTime n)) :
    LogInv (s.step (.evict currTime n)) := by
  rw [Logged.step]
  cases hev : s.evicted with
  | some x => exact h
  | none =>
      obtain ⟨hyes, hno⟩ := (h.agree hev).evict currTime n
      dsimp only
      by_cases hidle : Idle currTime n s.netstat
      · obtain ⟨k, hk, heq⟩ := hyes hidle
        rw [heq]
        refine ⟨?_, ?_, ?_, h.head, h.lcores, h.order, h.records⟩
        · intro k' q hq
          exact h.stored k' q (lookup_of_erase hq).2
        · intro q hq
          by_cases e : q = n
          · subst e
            exact .inr ⟨true, rfl⟩
          · exact .inl ((h.agree hev).free q (free_of_free_erase hk e hq))
        · intro x hx
          have hold := h.waiting x hx
          have hne : x.2 ≠ k := by
            intro e
            rw [e, hk] at hold
            cases hold
            exact ho hidle x hx rfl
          dsimp only
          rw [SlotHash.lookup_erase, if_neg hne]
          exact hold
      · rw [hno hidle]
        refine ⟨h.stored, ?_, h.waiting, h.head, h.lcores, h.order, h.records⟩
        intro q hq
        exact .inl ((h.agree hev).free q hq)

theorem LogInv.clear {s : Logged} (h : LogInv s) (ho : Orderly s .clear) :
    LogInv (s.step .clear) := by
  rw [Logged.step]
  cases hev : s.evicted with
  | none => exact h
  | some x =>
      obtain ⟨ret, counted⟩ := x
      have hret : ret ∉ s.netstat.hash.positions := ho (ret, counted) hev
      dsimp only
      refine ⟨?_, ?_, h.waiting, h.head, h.lcores, h.order, h.records⟩
      · intro k q hq
        have hne : q ≠ ret := by
          rintro rfl
          exact hret (SlotHash.mem_positions.mpr ⟨k, hq⟩)
        show Holds k (Function.update s.netstat.data ret {} q)
        rw [Function.update_of_ne hne]
        exact h.stored k q hq
      · intro q hq
        refine .inl ?_
        show Function.update s.netstat.data ret {} q = {}
        by_cases e : q = ret
        · rw [e, Function.update_self]
        · rw [Function.update_of_ne e]
          rcases h.free q hq with hz | ⟨b, hb⟩
          · exact hz
          · rw [hev] at hb
            cases hb
            exact absurd rfl e

theorem LogInv.pop {s : Logged} (h : LogInv s) : LogInv (s.step .pop) := by
  rw [Logged.step]
  cases hpop : s.popped with
  | some x => exact h
  | none =>
      dsimp only
      have hwait : ({ s with
          netstat := s.netstat.pop.2
          queue := s.queue.tail
          popped := s.queue.head? } : Logged).waiting = s.waiting := by
        rw [Logged.waiting, Logged.waiting, hpop]
        cases s.queue with
        | nil => rfl
        | cons x l => rfl
      refine ⟨h.stored, h.free, ?_, ?_, h.lcores, ?_, h.records⟩
      · rw [hwait]
        exact h.waiting
      · show s.netstat.head.tail = s.queue.tail.map Prod.fst
        rw [h.head, List.map_tail]
      · rw [hwait]
        exact h.order

theorem LogInv.write {s : Logged} (h : LogInv s) : LogInv (s.step .write) := by
  rw [Logged.step]
  cases hpop : s.popped with
  | none => exact h
  | some x =>
      dsimp only
      have hwait : s.waiting = x :: ({ s with
          popped := none
          db := s.db ++ [(x.2, insertNetstatToDB (s.netstat.data x.1))] }
          : Logged).waiting := by
        rw [Logged.waiting, Logged.waiting, hpop]
        rfl
      have hx := h.waiting x (by rw [hwait]; exact List.mem_cons_self)
      have hslot := h.stored x.2 x.1 hx
      refine ⟨h.stored, h.free, ?_, h.head, h.lcores, ?_, ?_⟩
      · intro y hy
        exact h.waiting y (by rw [hwait]; exact List.mem_cons_of_mem x hy)
      · show s.inserted = (s.db ++ [_]).map Prod.fst ++ _
        rw [List.map_append, List.append_assoc]
        exact h.order.trans (congrArg _ (congrArg (List.map Prod.snd) hwait))
      · intro y hy
        rcases List.mem_append.mp hy with hy | hy
        · exact h.records y hy
        · rw [List.mem_singleton.mp hy]
          exact ⟨hslot.srcIP, hslot.dstIP, hslot.proto,
            congrArg rteCpuToBe16 hslot.srcPort, congrArg rteCpuToBe16 hslot.dstPort⟩

theorem LogInv.step {s : Logged} (h : LogInv s) (e : LogEvent) (ho : Orderly s e) :
    LogInv (s.step e) := by
  cases e with
  | insert lcore answer m portid t => exact h.insertFlow lcore answer m portid t
  | push lcore => exact h.push lcore ho
  | evict currTime n => exact h.evict currTime n ho
  | clear => exact h.clear ho
  | pop => exact h.pop
  | write => exact h.write

theorem LogInv.run {s : Logged} (h : LogInv s) {events : List LogEvent}
    (ho : OrderlyRun s events) : LogInv (s.run events) := by
  induction events generalizing s with
  | nil => exact h
  | cons e events ih => exact ih (h.step e ho.1) ho.2

/-- **THE RIGHT RECORDS**: behind every orderly run each record carries the tuple
    of its flow, and once nothing waits every flow inserted has its one record,
    in order. -/
theorem logs_right (events : List LogEvent) (ho : OrderlyRun {} events) :
    Right (Logged.run {} events) :=
  (logInv_init.run ho).right

/-- An IPv4 packet from `10.0.0.host`. -/
def fromHost (host : UInt8) : Mbuf :=
  Mbuf.mid (store (store (fun _ => 0) 140 [0x08, 0x00, 0x45]) 154 [10, 0, 0, host]) 34

/-- Two lcores insert a flow each.  When both have their records, the first flow goes, and a
    third one gets its slot. -/
def slotReused : List LogEvent :=
  [.insert 0 (some 0) (fromHost 1) 0 100, .insert 1 (some 1) (fromHost 2) 1 110, .push 0,
    .push 1, .pop, .write, .pop, .write, .evict 116 0, .evict 116 1, .clear,
    .insert 1 (some 0) (fromHost 3) 1 120, .push 1, .pop, .write]

theorem logs_right_reused :
    Right (Logged.run {} slotReused)
      ∧ (Logged.run {} slotReused).inserted
        = [netstatHashKeyData (fromHost 1), netstatHashKeyData (fromHost 2),
          netstatHashKeyData (fromHost 3)]
      ∧ (Logged.run {} slotReused).netstat.hash.lookup (netstatHashKeyData (fromHost 3))
        = some 0 :=
  ⟨logs_right slotReused (by decide +kernel), by decide +kernel, by decide +kernel⟩

/-- **A RECORD OF NOTHING**: the log thread comes to the position when the flow
    has been evicted and its slot cleared; the record is zero. -/
theorem logs_zero_record :
    ¬ Right (Logged.run {} [.insert 0 (some 0) (fromHost 1) 0 100, .push 0,
      .evict 116 0, .clear, .pop, .write]) := by
  rintro ⟨hrec, -⟩
  have hsrc := (hrec (netstatHashKeyData (fromHost 1), insertNetstatToDB {})
    (by decide)).srcIP
  exact absurd hsrc (by decide)

end Flow
