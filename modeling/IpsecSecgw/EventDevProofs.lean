import IpsecSecgw.EventDefaultProofs

/-! # Packets find workers

    The calls of `eh_devs_init` are those of a plan, made one after the other until one
    of them fails (`devsSetUp_made`).  From the plan it is read off where the packets of a
    port go: to a queue of the event device that is linked to the ports of all lcores that
    run a worker (`packets_find_workers`).

    A worker is only run when all Ethernet devices have internal ports for Tx.  Then no
    queue is kept for Tx, and none is taken from the lcores. -/

namespace EventDev

open EventHelper Outcome Calls

variable {drv : EventDriver}

/-! ## Statements -/

/-- What a call does to the link of a queue to a port: a result says how many queues have
    been linked or taken away. -/
def linkEffect (dev port queue : UInt8) : Call × Int → Option Bool
  | (.portLink d p none, ret) =>
      if d = dev ∧ p = port ∧ (queue.toNat : Int) < ret then some true else none
  | (.portLink d p (some q), ret) =>
      if d = dev ∧ p = port ∧ q = queue ∧ 0 < ret then some true else none
  | (.portUnlink d p q, ret) =>
      if d = dev ∧ p = port ∧ q = queue ∧ 0 < ret then some false else none
  | _ => none

/-- The queue is linked to the port behind all these calls. -/
def Linked (t : CallLog) (dev port queue : UInt8) : Prop :=
  final (linkEffect dev port queue) false t = true

/-- The queues of an Ethernet port are given to the adapter for Rx. -/
def rxAdded (eth : UInt8) : Call → Option (Int × RxQueueConf)
  | .rxQueueAdd _ e rxq conf => if e = eth then some (rxq, conf) else none
  | _ => none

/-- What the documentation of DPDK says of results: some of them are zero or negative. -/
structure Documented (drv : EventDriver) : Prop where
  ethStop : ∀ t p, drv.result t (.ethStop p) ≤ 0
  vectorLimits : ∀ t dev eth, drv.result t (.vectorLimitsGet dev eth) ≤ 0

/-- Whenever a port has been linked to all queues, none has been left out.  The program
    does not look at this: a result that is too small is as good as any. -/
def FullLinks (nbEventqueue : UInt8) (t : CallLog) : Prop :=
  ∀ dev port ret, (.portLink dev port none, ret) ∈ t → (nbEventqueue.toNat : Int) ≤ ret

/-- The calls of a part, whatever their results. -/
abbrev Planned (t : CallLog) (calls : List Call) (t' : CallLog) : Prop :=
  Made (fun _ => True) t calls t'

/-! ## The plan -/

/-- An event device. -/
def devCalls (drv : EventDriver) (o : EventOpts) (d : EventdevParams) : List Call :=
  [.devInfoGet d.eventdevId,
    .devConfigure d.eventdevId (devConfig (drv.limits d.eventdevId) d)]
    ++ (List.range d.nbEventqueue.toNat).flatMap (fun j =>
      [.queueSetup d.eventdevId (UInt8.ofNat j) (queueConf o d j)])
    ++ (List.range d.nbEventport.toNat).flatMap fun j =>
      [.portSetup d.eventdevId (UInt8.ofNat j)]

/-- A link. -/
def linkCalls (all : Bool) (l : EhEventLinkInfo) : List Call :=
  [.portLink l.eventdevId l.eventPortId (if all then none else some l.eventqId)]

/-- A connection of the adapter for Rx. -/
def rxConnCalls (o : EventOpts) (a : RxAdapterConf) (conn : RxAdapterConnectionInfo) :
    List Call :=
  (if o.eventVector then [.vectorLimitsGet a.eventdevId conn.ethdevId] else [])
    ++ [.rxQueueAdd a.adapterId conn.ethdevId conn.ethdevRxQid (rxQueueConf o conn)]

/-- The adapter for Rx. -/
def rxCalls (drv : EventDriver) (o : EventOpts) (a : RxAdapterConf) : List Call :=
  [.devInfoGet a.eventdevId]
    ++ (if o.eventVector then
      [.vectorPoolCreate (o.nbBufsInPool / o.vectorSize.toUInt32 + 1) o.vectorSize] else [])
    ++ [.rxCreate a.adapterId a.eventdevId
      ⟨1200, (drv.limits a.eventdevId).maxEventPortDequeueDepth,
        (drv.limits a.eventdevId).maxEventPortEnqueueDepth⟩]
    ++ (connections a.conns).flatMap (rxConnCalls o a)
    ++ [.rxServiceIdGet a.adapterId, .rxStart a.adapterId]

/-- The adapter for Tx, with an internal port. -/
def txCalls (drv : EventDriver) (a : TxAdapterConf) : List Call :=
  [.devInfoGet a.eventdevId,
    .txCreate a.adapterId a.eventdevId
      ⟨(drv.limits a.eventdevId).maxNumEvents,
        (drv.limits a.eventdevId).maxEventPortDequeueDepth,
        (drv.limits a.eventdevId).maxEventPortEnqueueDepth⟩]
    ++ (connections a.conns).flatMap (fun conn =>
      [.txQueueAdd a.adapterId conn.ethdevId conn.ethdevTxQid])
    ++ [.txStart a.adapterId]

/-- **THE PLAN** of `eh_devs_init`. -/
def plan (drv : EventDriver) (mask : UInt32) (o : EventOpts) (c : EventmodeConf) : List Call :=
  (ethPorts drv mask).flatMap (fun p => [.ethStop p])
    ++ (eventdevs c).flatMap (devCalls drv o)
    ++ (linkInfos c).flatMap (linkCalls c.allEvQueueToEvPort)
    ++ (rxAdapters c).flatMap (rxCalls drv o)
    ++ (txAdapters c).flatMap (txCalls drv)
    ++ (eventdevs c).flatMap (fun d => [.devStart d.eventdevId])
    ++ (ethPorts drv mask).flatMap fun p => [.ethStart p]

/-! ## The calls -/

/-- A call whose result does not end the program. -/
theorem asked_made (drv : EventDriver) (c : Call) (t : CallLog) :
    Planned t [c] (ask drv.result c t).2 :=
  ask_made c t trivial

/-- A checked call. -/
theorem call_made (c : Call) (t : CallLog) :
    Ends (call drv c t) (fun _ => True) (Planned t [c]) :=
  must_made c t fun _ => trivial

/-- A loop of checked calls. -/
theorem calls_made {α : Type} (f : α → Call) (l : List α) (t : CallLog) :
    Ends (l.foldlM (fun t x => call drv (f x) t) t) (fun _ => True)
      (Planned t (l.flatMap fun x => [f x])) :=
  foldlM_made (fun t x => call_made (f x) t) l t

/-- A function that returns a number that is not zero ends the program. -/
theorem returns_ends {ret : Int} (hle : ret ≤ 0) (hne : ret ≠ 0) (t : CallLog)
    {P : CallLog → Prop} : Ends (returns ret t) (fun _ => True) P := by
  have hneg : ret < 0 := by omega
  rw [returns, if_pos hneg]
  exact ends_error trivial

theorem einval_le : EventDev.einval ≤ 0 := by decide

/-- The pool of vectors. -/
theorem vectorPool_made (o : EventOpts) (t : CallLog) :
    Ends (vectorPool drv o t) (fun _ => True) (Planned t (if o.eventVector then
      [.vectorPoolCreate (o.nbBufsInPool / o.vectorSize.toUInt32 + 1) o.vectorSize] else [])) := by
  rw [vectorPool]
  cases o.eventVector with
  | false => exact ends_ok (Made.refl t)
  | true =>
      rw [if_neg Bool.noConfusion]
      split
      · exact ends_error trivial
      · dsimp only
        split
        · exact ends_error trivial
        · exact ends_ok (asked_made drv _ t)

theorem initializeOne_made (o : EventOpts) (t : CallLog) (d : EventdevParams) :
    Ends (initializeOne drv o t d) (fun _ => True)
      (Planned t (devCalls drv o d)) := by
  rw [initializeOne]
  refine (call_made _ t).bind fun t₁ h₁ => ?_
  refine (call_made _ t₁).bind fun t₂ h₂ => ?_
  refine (calls_made _ _ t₂).bind fun t₃ h₃ => ?_
  refine (calls_made _ _ t₃).mono (fun _ h => h) fun t₄ h₄ => ?_
  exact ((h₁.trans h₂).trans h₃).trans h₄

theorem ehInitializeEventdev_made (o : EventOpts) (c : EventmodeConf) (t : CallLog) :
    Ends (ehInitializeEventdev drv o c t) (fun _ => True)
      (Planned t ((eventdevs c).flatMap (devCalls drv o)
        ++ (linkInfos c).flatMap (linkCalls c.allEvQueueToEvPort))) := by
  rw [ehInitializeEventdev]
  refine (foldlM_made (initializeOne_made o) _ t).bind fun t₁ h₁ => ?_
  refine (foldlM_made (f := linkOne drv c.allEvQueueToEvPort)
    (fun t l => call_made _ t) _ t₁).mono (fun _ h => h) ?_
  exact fun t₂ h₂ => h₁.trans h₂

theorem ehTxAdapterConfigure_made (c : EventmodeConf) {a : TxAdapterConf}
    (hcore : a.txCoreId = noCore) (t : CallLog) :
    Ends (ehTxAdapterConfigure drv c t a) (fun _ => True)
      (Planned t (txCalls drv a)) := by
  rw [ehTxAdapterConfigure]
  refine (call_made _ t).bind fun t₁ h₁ => ?_
  refine (call_made _ t₁).bind fun t₂ h₂ => ?_
  refine (calls_made _ _ t₂).bind fun t₃ h₃ => ?_
  rw [if_pos hcore]
  refine (call_made _ t₃).mono (fun _ h => h) fun t₄ h₄ => ?_
  exact ((h₁.trans h₂).trans h₃).trans h₄

section Documented

variable (hdoc : Documented drv)
include hdoc

/-- The limits of vectors are looked at, and kept or not. -/
theorem ehEventVectorLimitsValidate_made (o : EventOpts) (dev eth : UInt8) (t : CallLog) :
    let v := ehEventVectorLimitsValidate drv o dev eth t
    v.1 ≤ 0 ∧ Planned t [.vectorLimitsGet dev eth] v.2 := by
  have hmade := asked_made drv (.vectorLimitsGet dev eth) t
  rw [ehEventVectorLimitsValidate]
  dsimp only
  split
  · exact ⟨hdoc.vectorLimits t dev eth, hmade⟩
  split
  · exact ⟨einval_le, hmade⟩
  split
  · exact ⟨einval_le, hmade⟩
  split
  · exact ⟨einval_le, hmade⟩
  · exact ⟨Int.le_refl 0, hmade⟩

theorem rxConnect_made (o : EventOpts) (a : RxAdapterConf)
    (conns : List RxAdapterConnectionInfo) (t : CallLog) :
    Ends (rxConnect drv o a conns t) (fun _ => True)
      (Planned t (conns.flatMap (rxConnCalls o a)
        ++ [.rxServiceIdGet a.adapterId, .rxStart a.adapterId])) := by
  induction conns generalizing t with
  | nil =>
      have hservice := asked_made drv (.rxServiceIdGet a.adapterId) t
      rw [rxConnect]
      split
      · exact ends_error trivial
      · refine (call_made (.rxStart a.adapterId) _).mono (fun _ h => h) ?_
        exact fun t₁ h => hservice.trans h
  | cons conn conns ih =>
      -- the limits are looked at for vectors only
      have hlimits : ∀ v, v = (if o.eventVector then
            ehEventVectorLimitsValidate drv o a.eventdevId conn.ethdevId t else (0, t)) →
          v.1 ≤ 0 ∧ Planned t (if o.eventVector then
            [.vectorLimitsGet a.eventdevId conn.ethdevId] else []) v.2 := by
        rintro v rfl
        by_cases hvec : o.eventVector = true
        · rw [if_pos hvec, if_pos hvec]
          exact ehEventVectorLimitsValidate_made hdoc o _ _ t
        · rw [if_neg hvec, if_neg hvec]
          exact ⟨Int.le_refl 0, Made.refl t⟩
      rw [rxConnect]
      generalize hv : (if o.eventVector then
        ehEventVectorLimitsValidate drv o a.eventdevId conn.ethdevId t else (0, t)) = v
      obtain ⟨hle, hmade⟩ := hlimits v hv.symm
      split
      · exact returns_ends hle ‹_› v.2
      · refine (call_made _ v.2).bind fun t₁ h₁ => ?_
        refine (ih t₁).mono (fun _ h => h) fun t₂ h₂ => ?_
        have hall := (hmade.trans h₁).trans h₂
        rw [List.flatMap_cons, rxConnCalls, List.append_assoc (_ ++ _)]
        exact hall

theorem ehRxAdapterConfigure_made (o : EventOpts) (t : CallLog) (a : RxAdapterConf) :
    Ends (ehRxAdapterConfigure drv o t a) (fun _ => True)
      (Planned t (rxCalls drv o a)) := by
  rw [ehRxAdapterConfigure]
  refine (call_made _ t).bind fun t₁ h₁ => ?_
  refine (vectorPool_made o t₁).bind fun t₂ h₂ => ?_
  refine (call_made _ t₂).bind fun t₃ h₃ => ?_
  refine (rxConnect_made hdoc o a _ t₃).mono (fun _ h => h) fun t₄ h₄ => ?_
  have hall := ((h₁.trans h₂).trans h₃).trans h₄
  rw [rxCalls, List.append_assoc (_ ++ _)]
  exact hall

theorem ethStops_made (ports : List Nat) (t : CallLog) :
    (ethStops drv ports t).1 ≤ 0
      ∧ ((ethStops drv ports t).1 = 0 →
        Planned t (ports.flatMap fun p => [.ethStop p])
          (ethStops drv ports t).2) := by
  induction ports generalizing t with
  | nil => exact ⟨Int.le_refl 0, fun _ => Made.refl t⟩
  | cons p ports ih =>
      have hstop := asked_made drv (.ethStop p) t
      rw [ethStops]
      split
      · exact ⟨hdoc.ethStop t p, fun h => absurd h ‹_›⟩
      · obtain ⟨hle, hmade⟩ := ih (ask drv.result (.ethStop p) t).2
        exact ⟨hle, fun h => hstop.trans (hmade h)⟩

/-- **THE CALLS ARE THOSE OF THE PLAN**. -/
theorem devsSetUp_made (mask : UInt32) (o : EventOpts) {c : EventmodeConf}
    (hcore : ∀ a ∈ txAdapters c, a.txCoreId = noCore) (t : CallLog) :
    Ends (devsSetUp drv mask o c t) (fun _ => True)
      (Planned t (plan drv mask o c)) := by
  obtain ⟨hle, hstops⟩ := ethStops_made hdoc (ethPorts drv mask) t
  rw [devsSetUp]
  split
  · exact returns_ends hle ‹_› _
  have h₀ := hstops (Decidable.of_not_not ‹_›)
  refine (ehInitializeEventdev_made o c _).bind fun t₁ h₁ => ?_
  refine (foldlM_made (ehRxAdapterConfigure_made hdoc o) _ t₁).bind fun t₂ h₂ => ?_
  have htx : ∀ l : List TxAdapterConf, (∀ a ∈ l, a.txCoreId = noCore) → ∀ t,
      Ends (l.foldlM (ehTxAdapterConfigure drv c) t) (fun _ => True)
        (Planned t (l.flatMap (txCalls drv))) := by
    intro l
    induction l with
    | nil => exact fun _ t => ends_ok (Made.refl t)
    | cons a l ih =>
        intro hl t
        rw [List.foldlM_cons, List.flatMap_cons]
        refine (ehTxAdapterConfigure_made c (hl a List.mem_cons_self) t).bind fun t₁ h => ?_
        refine (ih (fun b hb => hl b (List.mem_cons_of_mem a hb)) t₁).mono (fun _ h => h) ?_
        exact fun t₂ h' => h.trans h'
  refine (htx _ hcore t₂).bind fun t₃ h₃ => ?_
  refine (calls_made _ _ t₃).bind fun t₄ h₄ => ?_
  refine (calls_made _ _ t₄).mono (fun _ h => h) fun t₅ h₅ => ?_
  have hall := ((((h₀.trans h₁).trans h₂).trans h₃).trans h₄).trans h₅
  rw [← List.append_assoc] at hall
  exact hall

end Documented

/-! ## Links -/

/-- No call of the plan takes a queue away. -/
theorem plan_kind {mask : UInt32} {o : EventOpts} {c : EventmodeConf}
    (hall : c.allEvQueueToEvPort = true) {x : Call} (hx : x ∈ plan drv mask o c) :
    (∀ dev port queue, x ≠ .portUnlink dev port queue)
      ∧ (∀ dev port queue, x = .portLink dev port queue → queue = none) := by
  simp only [plan, devCalls, linkCalls, rxCalls, rxConnCalls, txCalls, hall, if_true,
    List.mem_append, List.mem_flatMap, List.mem_cons, List.not_mem_nil, or_false] at hx
  constructor
  · rintro dev port queue rfl
    simp at hx
  · rintro dev port queue rfl
    simp at hx
    tauto

/-- **LINKED**: a port of a link has all queues. -/
theorem plan_linked {mask : UInt32} {o : EventOpts} {c : EventmodeConf}
    (hall : c.allEvQueueToEvPort = true) {nb : UInt8} {t : CallLog}
    (hmade : Planned [] (plan drv mask o c) t) (hfull : FullLinks nb t)
    {l : EhEventLinkInfo} (hl : l ∈ linkInfos c) {queue : UInt8} (hq : queue < nb) :
    Linked t l.eventdevId l.eventPortId queue := by
  obtain ⟨new, hnew, hplan, -⟩ := hmade
  obtain rfl : t = new := hnew
  rw [Linked]
  have hcall : ∀ e ∈ t, e.1 ∈ plan drv mask o c := fun e he =>
    hplan ▸ List.mem_map_of_mem he
  refine final_same (fun e he => ?_) ?_
  · obtain ⟨hno, hnone⟩ := plan_kind hall (hcall e he)
    obtain ⟨x, ret⟩ := e
    cases x with
    | portLink dev port q =>
        obtain rfl := hnone dev port q rfl
        rw [linkEffect]
        split
        · exact .inr rfl
        · exact .inl rfl
    | portUnlink dev port q => exact absurd rfl (hno dev port q)
    | _ => exact .inl rfl
  · -- the entry of the link itself
    have hin : Call.portLink l.eventdevId l.eventPortId none ∈ plan drv mask o c := by
      have hone : Call.portLink l.eventdevId l.eventPortId none
          ∈ (linkInfos c).flatMap (linkCalls c.allEvQueueToEvPort) := by
        refine List.mem_flatMap.mpr ⟨l, hl, ?_⟩
        rw [linkCalls, hall]
        exact List.mem_singleton_self _
      simp only [plan, List.mem_append]
      tauto
    rw [← hplan] at hin
    obtain ⟨e, he, heq⟩ := List.mem_map.mp hin
    refine ⟨e, he, ?_⟩
    obtain ⟨x, ret⟩ := e
    obtain rfl : x = .portLink l.eventdevId l.eventPortId none := heq
    have hret := hfull l.eventdevId l.eventPortId ret he
    have hlt : (queue.toNat : Int) < ret := by
      have hq := UInt8.lt_iff_toNat_lt.mp hq
      omega
    rw [linkEffect, if_pos ⟨rfl, rfl, hlt⟩]

/-! ## Packets -/

/-- Other calls give nothing to the adapter. -/
theorem none_added {l : List Call} (h : ∀ id eth rxq conf, .rxQueueAdd id eth rxq conf ∉ l)
    (eth : UInt8) : l.filterMap (rxAdded eth) = [] := by
  refine List.filterMap_eq_nil_iff.mpr fun x hx => ?_
  cases x with
  | rxQueueAdd id eth' rxq conf => exact absurd hx (h id eth' rxq conf)
  | _ => rfl

/-- The connections of a port. -/
theorem conns_added (o : EventOpts) (a : RxAdapterConf) (eth : UInt8)
    (conns : List RxAdapterConnectionInfo) :
    (conns.flatMap (rxConnCalls o a)).filterMap (rxAdded eth)
      = (conns.filter fun conn => conn.ethdevId = eth).map fun conn =>
        (conn.ethdevRxQid, rxQueueConf o conn) := by
  induction conns with
  | nil => rfl
  | cons conn conns ih =>
      have hone : (rxConnCalls o a conn).filterMap (rxAdded eth)
          = if conn.ethdevId = eth then [(conn.ethdevRxQid, rxQueueConf o conn)] else [] := by
        rw [rxConnCalls, List.filterMap_append, none_added, List.nil_append]
        · simp only [List.filterMap_cons, List.filterMap_nil, rxAdded]
          split
          · rename_i hnone
            split at hnone
            · cases hnone
            · rw [if_neg ‹_›]
          · rename_i hsome
            split at hsome
            · obtain rfl := Option.some.inj hsome
              rw [if_pos ‹_›]
            · cases hsome
        · intro id eth' rxq conf hx
          split at hx
          · cases List.mem_singleton.mp hx
          · cases hx
      rw [List.flatMap_cons, List.filterMap_append, hone, ih, List.filter_cons]
      by_cases heq : conn.ethdevId = eth
      · rw [if_pos heq, if_pos (decide_eq_true heq), List.map_cons]
        rfl
      · rw [if_neg heq, if_neg (by simpa using heq), List.nil_append]

/-- What the plan gives to the adapter. -/
theorem plan_added {mask : UInt32} {o : EventOpts} {c : EventmodeConf}
    (hrx : rxAdapters c = [c.rxAdapter]) (eth : UInt8) :
    (plan drv mask o c).filterMap (rxAdded eth)
      = ((connections c.rxAdapter.conns).filter fun conn => conn.ethdevId = eth).map
        fun conn => (conn.ethdevRxQid, rxQueueConf o conn) := by
  have hstops := none_added (l := (ethPorts drv mask).flatMap fun p => [.ethStop p])
    (by simp) eth
  have hdevs := none_added (l := (eventdevs c).flatMap (devCalls drv o))
    (by simp [devCalls]) eth
  have hlinks := none_added (l := (linkInfos c).flatMap (linkCalls c.allEvQueueToEvPort))
    (by simp [linkCalls]) eth
  have htx := none_added (l := (txAdapters c).flatMap (txCalls drv)) (by simp [txCalls]) eth
  have hstarts := none_added (l := (eventdevs c).flatMap fun d => [.devStart d.eventdevId])
    (by simp) eth
  have heths := none_added (l := (ethPorts drv mask).flatMap fun p => [.ethStart p])
    (by simp) eth
  have hpool : (if o.eventVector then [Call.vectorPoolCreate
      (o.nbBufsInPool / o.vectorSize.toUInt32 + 1) o.vectorSize] else []).filterMap
      (rxAdded eth) = [] := by
    split <;> rfl
  rw [plan, hrx, List.flatMap_singleton, rxCalls]
  simp only [List.filterMap_append, hstops, hdevs, hlinks, htx, hstarts, heths, hpool,
    conns_added, List.filterMap_cons, List.filterMap_nil, rxAdded, List.nil_append,
    List.append_nil]

/-- **ONE CONNECTION** for each enabled port. -/
theorem conns_of_port {mask : UInt32} {n : Nat} (hn : n ≤ 256) (single : Bool) {e : Nat}
    (he : e < n) (hen : portEnabled mask e = true) :
    ((enabledPorts mask n).map (rxConn single)).filter
      (fun conn => conn.ethdevId = UInt8.ofNat e) = [rxConn single e] := by
  have hsame : ∀ i ∈ enabledPorts mask n,
      decide ((rxConn single i).ethdevId = UInt8.ofNat e) = (i == e) := by
    intro i hi
    have hi : i < n := List.mem_range.mp (List.mem_of_mem_filter hi)
    rw [rxConn, Bool.eq_iff_iff, decide_eq_true_iff, beq_iff_eq]
    constructor
    · intro h
      have h := congrArg UInt8.toNat h
      rw [UInt8.toNat_ofNat', UInt8.toNat_ofNat', Nat.mod_eq_of_lt (by omega),
        Nat.mod_eq_of_lt (by omega)] at h
      exact h
    · rintro rfl
      rfl
  have hmem : e ∈ enabledPorts mask n := List.mem_filter.mpr ⟨List.mem_range.mpr he, hen⟩
  have hnodup : (enabledPorts mask n).Nodup := List.nodup_range.filter _
  rw [List.filter_map, show (fun conn : RxAdapterConnectionInfo =>
    decide (conn.ethdevId = UInt8.ofNat e)) ∘ rxConn single
      = fun i => decide ((rxConn single i).ethdevId = UInt8.ofNat e) from rfl,
    List.filter_congr hsame, List.filter_beq, hnodup.count, if_pos hmem]
  rfl

/-- The event queue of a port is one of those set up, if there are any. -/
theorem rxConn_queue {d : EventdevParams} {n e : Nat} (hn : n ≤ 256) (he : e < n)
    (hq : d.nbEventqueue ≠ 0) :
    (rxConn (nbRxQueues d < n) e).eventqId < d.nbEventqueue := by
  have hpos : 0 < d.nbEventqueue.toNat := by
    refine Nat.pos_of_ne_zero fun h => hq ?_
    exact UInt8.toNat_inj.mp h
  have hle : nbRxQueues d ≤ d.nbEventqueue.toNat := by
    rw [nbRxQueues]
    split <;> omega
  rw [UInt8.lt_iff_toNat_lt, rxConn]
  by_cases hsingle : nbRxQueues d < n
  · rw [decide_eq_true hsingle]
    exact hpos
  · rw [decide_eq_false hsingle]
    show (UInt8.ofNat e).toNat < _
    rw [UInt8.toNat_ofNat', Nat.mod_eq_of_lt (by omega)]
    omega

/-- The packets of an Ethernet port go to a queue that has been set up, and all these
    links have. -/
def Brought (t : CallLog) (links : List EhEventLinkInfo) (e : Nat) : Prop :=
  ∃ rx : RxQueueConf, (t.map Prod.fst).filterMap (rxAdded (UInt8.ofNat e)) = [(-1, rx)]
    ∧ (∃ conf, .queueSetup 0 rx.queueId conf ∈ t.map Prod.fst)
    ∧ ∀ l ∈ links, Linked t l.eventdevId l.eventPortId rx.queueId

/-- **BROUGHT** by the calls of the plan. -/
theorem plan_brought {mask : UInt32} {o : EventOpts} {c : EventmodeConf} {n : Nat}
    (hn : drv.env.ethDevs.length = n) (hc : Defaults drv.env mask c)
    (hq : (c.eventdevConfig 0).nbEventqueue ≠ 0) {t : CallLog}
    (hmade : Planned [] (plan drv mask o c) t)
    (hfull : FullLinks (c.eventdevConfig 0).nbEventqueue t) {links : List EhEventLinkInfo}
    (hlinks : links ⊆ linkInfos c) {e : Nat} (he : e < n) (hen : portEnabled mask e = true) :
    Brought t links e := by
  have hmax : n ≤ 256 := by
    have hlen := drv.env.ethDevs_length
    have h32 : WorkerModel.rteMaxEthports.toNat = 32 := rfl
    omega
  obtain ⟨new, hnew, hplan, -⟩ := id hmade
  obtain rfl : t = new := hnew
  have hrx : rxAdapters c = [c.rxAdapter] := by
    rw [rxAdapters, hc.nbRx]
    rfl
  have hlt := rxConn_queue hmax he hq
  refine ⟨rxQueueConf o (rxConn (nbRxQueues (c.eventdevConfig 0) < n) e), ?_, ?_, ?_⟩
  · rw [hplan, plan_added hrx, hc.rxConns, hn, conns_of_port hmax _ he hen]
    rfl
  · rw [hplan]
    refine ⟨queueConf o (c.eventdevConfig 0)
      (rxConn (nbRxQueues (c.eventdevConfig 0) < n) e).eventqId.toNat, ?_⟩
    have hdev : .queueSetup 0 (rxConn (nbRxQueues (c.eventdevConfig 0) < n) e).eventqId
        (queueConf o (c.eventdevConfig 0)
          (rxConn (nbRxQueues (c.eventdevConfig 0) < n) e).eventqId.toNat)
        ∈ (eventdevs c).flatMap (devCalls drv o) := by
      refine List.mem_flatMap.mpr ⟨c.eventdevConfig 0, ?_, ?_⟩
      · rw [eventdevs, hc.nbEventdev]
        exact List.mem_singleton_self _
      · rw [devCalls, hc.dev]
        refine List.mem_append_left _ (List.mem_append_right _ (List.mem_flatMap.mpr
          ⟨_, List.mem_range.mpr (UInt8.lt_iff_toNat_lt.mp hlt), ?_⟩))
        rw [UInt8.ofNat_toNat]
        exact List.mem_singleton_self _
    simp only [plan, List.mem_append]
    tauto
  · exact fun l hl => plan_linked hc.allQueues hmade hfull (hlinks hl) hlt

/-! ## Workers -/

/-- **A WORKER** is run for devices with internal ports for Tx only. -/
theorem launched_worker {conf : EhConf} {c : EventmodeConf} (hc : conf.modeParams = some c)
    (hdevs : ∀ l ∈ linkInfos c, l.eventdevId = 0) {lcoreId : UInt32} {t : CallLog}
    {cap : WorkerCap} {links : List EhEventLinkInfo}
    (h : ehLaunchWorker drv conf lcoreId t = some (.worker cap links)) :
    links = ehGetEventLcoreLinks lcoreId c ∧ ehDevHasTxInternalPort drv.env 0 = true := by
  rw [ehLaunchWorker, hc] at h
  dsimp only at h
  split at h
  · -- the services of an adapter are no worker
    rw [ehStartWorkerEthCore] at h
    split at h
    · cases h
    · cases h
    · split at h <;> cases h
  cases hfind : ehFindWorker drv lcoreId conf.ipsecMode c ipsecEventmodeWorkers with
  | none =>
      rw [hfind] at h
      cases h
  | some cap' =>
      rw [hfind] at h
      cases h
      refine ⟨rfl, ?_⟩
      rw [ehFindWorker] at hfind
      cases hlink : workerLink c lcoreId with
      | none =>
          rw [hlink] at hfind
          cases hfind
      | some l =>
          rw [hlink] at hfind
          replace hfind : ipsecEventmodeWorkers.find? (fun x => x = ⟨drv.burst l.eventdevId,
            ehDevHasTxInternalPort drv.env l.eventdevId, conf.ipsecMode⟩) = some cap := hfind
          have hmem : l ∈ linkInfos c := by
            rw [workerLink] at hlink
            split at hlink
            · rename_i l' hfirst
              obtain rfl := Option.some.inj hlink
              exact List.mem_of_find?_eq_some hfirst
            · exact List.mem_of_getLast? hlink
          have hfound := List.find?_some hfind
          have hcap := of_decide_eq_true hfound
          have hin := List.mem_of_find?_eq_some hfind
          have htrue : cap.txInternalPort = true := by
            simp only [ipsecEventmodeWorkers, List.mem_cons, List.not_mem_nil, or_false] at hin
            rcases hin with rfl | rfl <;> rfl
          rw [hcap, hdevs l hmem] at htrue
          exact htrue

/-- The adapter for Rx needs no core, or some lcore runs its service. -/
def Served (drv : EventDriver) (conf : EhConf) (c : EventmodeConf) : Prop :=
  c.rxAdapter.rxCoreId = noCore
    ∨ c.rxAdapter.rxCoreId ∈ drv.env.lcores
      ∧ ∀ t, (∃ ret, ehLaunchWorker drv conf c.rxAdapter.rxCoreId t = some (.failed ret))
        ∨ ∃ rx tx, ehLaunchWorker drv conf c.rxAdapter.rxCoreId t = some (.ethCore rx tx)
          ∧ c.rxAdapter.adapterId ∈ rx

/-- The services of one adapter. -/
theorem servicesOf_one {α : Type} {coreId : α → UInt32} {adapterId : α → Int}
    {serviceIdGet : Int → Call} {lcoreId : UInt32} {a : α} (ha : coreId a = lcoreId)
    (t : CallLog) :
    Ends (servicesOf drv coreId adapterId serviceIdGet lcoreId [a] [] t)
      (fun f => ∃ ret, f = .failed ret) (fun r => adapterId a ∈ r.1) := by
  rw [servicesOf, if_neg (not_not_intro ha)]
  dsimp only
  split
  · exact ends_error ⟨_, rfl⟩
  · exact ends_ok (List.mem_singleton_self _)

/-- **SERVED**, if a core is there for it. -/
theorem eth_served {conf : EhConf} {c : EventmodeConf} (hc : conf.modeParams = some c)
    {mask : UInt32} (h : Defaults drv.env mask c) {core : UInt32}
    (hmem : core ∈ drv.env.lcores) (hmask : c.ethCoreMask core = true) :
    Served drv conf c := by
  refine h.rxCore.imp id fun hcore => ?_
  obtain ⟨hin, hon⟩ := hcore core hmem hmask
  refine ⟨hin, fun t => ?_⟩
  have hrx : rxAdapters c = [c.rxAdapter] := by
    rw [rxAdapters, h.nbRx]
    rfl
  have hone : Ends (servicesOf drv RxAdapterConf.rxCoreId RxAdapterConf.adapterId
      .rxServiceIdGet c.rxAdapter.rxCoreId [c.rxAdapter] [] t)
      (fun f => ∃ ret, f = .failed ret) (fun r => c.rxAdapter.adapterId ∈ r.1) :=
    servicesOf_one rfl t
  rw [ehLaunchWorker, hc]
  dsimp only
  rw [if_pos hon, ehStartWorkerEthCore, hrx]
  cases hrun : servicesOf drv RxAdapterConf.rxCoreId RxAdapterConf.adapterId .rxServiceIdGet
      c.rxAdapter.rxCoreId [c.rxAdapter] [] t with
  | error e =>
      obtain ⟨ret, rfl⟩ := hone.of_error hrun
      exact .inl ⟨ret, rfl⟩
  | ok r =>
      have hid := hone.of_ok hrun
      dsimp only
      split
      · exact .inl ⟨_, rfl⟩
      · exact .inl ⟨_, rfl⟩
      · exact .inr ⟨_, _, rfl, hid⟩

/-- Links have ports of their own. -/
theorem ports_apart {c : EventmodeConf} (h : LinksFrom 0 0 (linkInfos c))
    {l l' : EhEventLinkInfo} (hl : l ∈ linkInfos c) (hl' : l' ∈ linkInfos c)
    (hport : l.eventPortId = l'.eventPortId) : l = l' := by
  have hlen : (linkInfos c).length ≤ 256 := by
    have hlt := c.nbLink.toNat_lt
    rw [linkInfos, List.length_map, List.length_range]
    omega
  -- the port of a link is its place
  have hplace : ∀ i (hi : i < (linkInfos c).length),
      ((linkInfos c)[i]).eventPortId = UInt8.ofNat i := by
    intro i hi
    have hget := congrArg (fun ports => ports[i]?) h.ports
    simp only [List.getElem?_map, List.getElem?_eq_getElem hi, Option.map_some] at hget
    rw [List.getElem?_range' hi] at hget
    simpa using hget
  obtain ⟨i, hi, rfl⟩ := List.getElem_of_mem hl
  obtain ⟨j, hj, rfl⟩ := List.getElem_of_mem hl'
  rw [hplace i hi, hplace j hj] at hport
  have heq := congrArg UInt8.toNat hport
  rw [UInt8.toNat_ofNat', UInt8.toNat_ofNat', Nat.mod_eq_of_lt (by omega),
    Nat.mod_eq_of_lt (by omega)] at heq
  subst heq
  rfl

/-! ## All of it -/

/-- What `eh_devs_init` has done when it comes to an end. -/
theorem devsInit_parts {conf conf' : EhConf} {t : CallLog} {ethCoreMask : UInt32 → Bool}
    {mask : UInt32} (hmode : conf.mode = .event)
    (hparams : conf.modeParams = some (defaultConf ethCoreMask mask))
    (h : ehDevsInit drv conf [] = .ok (conf', t)) :
    ∃ c, conf' = { conf with modeParams := some c } ∧ Defaults drv.env conf.ethPortmask c
      ∧ devsSetUp drv conf.ethPortmask conf.opts c [] = .ok t := by
  rw [ehDevsInit, if_neg (not_not_intro hmode), hparams] at h
  dsimp only at h
  cases hvalid : ehValidateConf drv.env { defaultConf ethCoreMask mask with
      ethPortmask := conf.ethPortmask } with
  | error e =>
      rw [hvalid] at h
      cases h
  | ok c =>
      rw [hvalid] at h
      dsimp only at h
      have hdefault : Defaults drv.env conf.ethPortmask c :=
        validate_default (show ehValidateConf drv.env (defaultConf ethCoreMask _) = _ from hvalid)
      cases hrun : devsSetUp drv conf.ethPortmask conf.opts c [] with
      | error e =>
          rw [hrun] at h
          cases h
      | ok t' =>
          rw [hrun] at h
          cases h
          exact ⟨c, rfl, hdefault, hrun⟩

/-- **PACKETS FIND WORKERS**: when the devices are set up from the defaults and a lcore
    runs a worker, the packets of each enabled port come to a queue that is linked to its
    event ports.  An adapter without an internal port is served by a lcore, if one is kept
    for it, and no other worker has the event ports of this one. -/
theorem packets_find_workers {conf conf' : EhConf} {t : CallLog}
    {ethCoreMask : UInt32 → Bool} {mask : UInt32} {n : Nat}
    (hdevs : drv.env.ethDevs = List.range n) (hmode : conf.mode = .event)
    (hparams : conf.modeParams = some (defaultConf ethCoreMask mask))
    (hinit : ehDevsInit drv conf [] = .ok (conf', t)) {c : EventmodeConf}
    (hc : conf'.modeParams = some c)
    (hdoc : Documented drv) (hfull : FullLinks (c.eventdevConfig 0).nbEventqueue t)
    (hq : (c.eventdevConfig 0).nbEventqueue ≠ 0) {lcoreId : UInt32} {t' : CallLog}
    {cap : WorkerCap} {links : List EhEventLinkInfo}
    (hlaunch : ehLaunchWorker drv conf' lcoreId t' = some (.worker cap links)) :
    (∀ e < n, portEnabled conf.ethPortmask e = true → Brought t links e)
      ∧ (∀ core ∈ drv.env.lcores, c.ethCoreMask core = true → Served drv conf' c)
      ∧ ∀ lcoreId' cap' links' t'', lcoreId' ≠ lcoreId →
        ehLaunchWorker drv conf' lcoreId' t'' = some (.worker cap' links') →
        ∀ l ∈ links, ∀ l' ∈ links', l'.eventPortId ≠ l.eventPortId := by
  obtain ⟨c', hconf', hdefault, hrun⟩ := devsInit_parts hmode hparams hinit
  obtain rfl : c' = c := by
    rw [hconf'] at hc
    exact Option.some.inj hc
  have hn : drv.env.ethDevs.length = n := by rw [hdevs, List.length_range]
  obtain ⟨hlinks, hinternal⟩ := launched_worker hc hdefault.links.devs hlaunch
  -- with internal ports there is no core for Tx, and nothing is taken from the lcores
  have hcore : ∀ a ∈ txAdapters c', a.txCoreId = noCore := by
    intro a ha
    rw [txAdapters, hdefault.nbTx] at ha
    obtain rfl := List.mem_singleton.mp ha
    refine hdefault.txCore fun i hi => ?_
    refine (internalPortLoop_true hinternal).2 i ?_
    rw [hdevs, List.mem_range, ← hn]
    exact hi
  have hmade := (devsSetUp_made hdoc conf.ethPortmask conf.opts hcore []).of_ok hrun
  refine ⟨fun e he hen => ?_, fun core hmem hmask => eth_served hc hdefault hmem hmask, ?_⟩
  · refine plan_brought hn hdefault hq hmade hfull ?_ he hen
    rw [hlinks]
    exact fun l hl => List.mem_of_mem_filter hl
  · intro lcoreId' cap' links' t'' hne hlaunch' l hl l' hl' hport
    obtain ⟨hlinks', -⟩ := launched_worker hc hdefault.links.devs hlaunch'
    rw [hlinks, ehGetEventLcoreLinks, List.mem_filter, decide_eq_true_iff] at hl
    rw [hlinks', ehGetEventLcoreLinks, List.mem_filter, decide_eq_true_iff] at hl'
    have hsame := ports_apart hdefault.links hl'.1 hl.1 hport
    exact hne (hl'.2.symm.trans ((congrArg (fun l => l.lcoreId.toUInt32) hsame).trans hl.2))

/-- A device with internal ports that links `linked` queues at a time. -/
def internalDriver (linked : Int) : EventDriver where
  env := fourPorts 1
  result := fun _ c =>
    match c with
    | .portLink .. => linked
    | _ => 0
  limits := fun _ => ⟨4096, 1024, 16, 16⟩
  vectorLimits := fun _ _ => ⟨1, 32, false, 0, 1000⟩
  txEventPort := fun _ => 0
  burst := fun _ => false

/-- What the user has said: to run in event mode with ports 0, 1 and 3. -/
def eventConf : EhConf where
  mode := .event
  ethPortmask := 11
  ipsecMode := .app
  modeParams := some threeMask
  opts := ⟨0, false, 16, 1000, 8192⟩

theorem internalDriver_documented (linked : Int) : Documented (internalDriver linked) where
  ethStop := fun _ _ => Int.le_refl 0
  vectorLimits := fun _ _ _ => Int.le_refl 0

/-- A link to all queues has this result. -/
def linkResult : Call × Int → Option Int
  | (.portLink _ _ none, ret) => some ret
  | _ => none

theorem internalDriver_starts : ∃ conf' t c cap links,
    ehDevsInit (internalDriver 4) eventConf [] = .ok (conf', t) ∧ conf'.modeParams = some c
      ∧ (c.eventdevConfig 0).nbEventqueue = 4 ∧ t.filterMap linkResult = [4, 4, 4, 4]
      ∧ ehLaunchWorker (internalDriver 4) conf' 2 t = some (.worker cap links) :=
  ⟨_, _, _, _, _, rfl, rfl, rfl, rfl, rfl⟩

/-- The packets of the three ports find the worker of lcore 2. -/
theorem packets_find_workers_three : ∃ conf' t cap links,
    ehDevsInit (internalDriver 4) eventConf [] = .ok (conf', t)
      ∧ ehLaunchWorker (internalDriver 4) conf' 2 t = some (.worker cap links)
      ∧ Brought t links 0 ∧ Brought t links 1 ∧ Brought t links 3 := by
  obtain ⟨conf', t, c, cap, links, hinit, hc, hq, hresults, hlaunch⟩ := internalDriver_starts
  have hfull : FullLinks (c.eventdevConfig 0).nbEventqueue t := by
    rw [hq]
    intro dev port ret hmem
    have hret : ret ∈ t.filterMap linkResult := List.mem_filterMap.mpr ⟨_, hmem, rfl⟩
    rw [hresults] at hret
    obtain rfl : ret = 4 := by simpa using hret
    exact Int.le_refl 4
  have hne : (c.eventdevConfig 0).nbEventqueue ≠ 0 := by
    rw [hq]
    decide
  have hall := (packets_find_workers (n := 4) rfl rfl rfl hinit hc (internalDriver_documented 4)
    hfull hne hlaunch).1
  exact ⟨conf', t, cap, links, hinit, hlaunch, hall 0 (by decide) (by decide),
    hall 1 (by decide) (by decide), hall 3 (by decide) (by decide)⟩

/-- **A SHORT LINK** is not noticed: the program starts, and the packets of port 3 go to a
    queue that the worker does not see. -/
theorem short_link_lost : ∃ conf' t cap links,
    ehDevsInit (internalDriver 3) eventConf [] = .ok (conf', t)
      ∧ ehLaunchWorker (internalDriver 3) conf' 2 t = some (.worker cap links)
      ∧ ¬ Brought t links 3 := by
  obtain ⟨conf', t, cap, links, hinit, hlaunch, hqueue, hport, hlost⟩ : ∃ conf' t cap links,
      ehDevsInit (internalDriver 3) eventConf [] = .ok (conf', t)
        ∧ ehLaunchWorker (internalDriver 3) conf' 2 t = some (.worker cap links)
        ∧ ((t.map Prod.fst).filterMap (rxAdded 3)).map (fun r => r.2.queueId) = [3]
        ∧ (links.map fun l => (l.eventdevId, l.eventPortId)) = [(0, 2)]
        ∧ final (linkEffect 0 2 3) false t = false :=
    ⟨_, _, _, _, rfl, rfl, rfl, rfl, rfl⟩
  refine ⟨conf', t, cap, links, hinit, hlaunch, ?_⟩
  rintro ⟨rx, hadded, -, hlinked⟩
  rw [show UInt8.ofNat 3 = 3 from rfl] at hadded
  rw [hadded] at hqueue
  have hrx : rx.queueId = 3 := by simpa using hqueue
  obtain ⟨l, rfl⟩ : ∃ l, links = [l] := List.length_eq_one_iff.mp
    (by simpa using congrArg List.length hport)
  obtain ⟨hdev, hev⟩ : l.eventdevId = 0 ∧ l.eventPortId = 2 := by simpa using hport
  have hone := hlinked l (List.mem_singleton_self l)
  rw [Linked, hdev, hev, hrx, hlost] at hone
  cases hone

end EventDev
