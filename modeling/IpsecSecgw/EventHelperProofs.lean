import IpsecSecgw.EventHelperModel
import IpsecSecgw.Lib.Outcome

/-! # The default event configuration is consistent

    With one queue for Tx taken away, what is left for Rx is one queue less than
    the device has, whether the queue is dropped because of internal ports or kept
    for the last stage (`check_ready`).  So a device of one queue has none left,
    and the Ethernet devices are then mapped to the queue of Tx.

    Nothing bounds the connections but the number of enabled ports: the adapters
    are filled exactly when these are at most sixteen (`connLoop_ends`). -/

namespace EventHelper

open Outcome

variable {env : EventEnv}

/-! ## Statements -/

/-- The enabled ports among the first `n`. -/
def enabledPorts (ethPortmask : UInt32) (n : Nat) : List Nat :=
  (List.range n).filter (portEnabled ethPortmask)

/-- The queues and connections of a configuration fit together. -/
structure Consistent (c : EventmodeConf) : Prop where
  rxQueue : 1 ≤ nbRxQueues (c.eventdevConfig 0)
  eventq : ∀ k (h : k < maxConnectionsPerAdapter),
    k < c.rxAdapter.conns.nbConnections.toNat →
      c.rxAdapter.conns.conn[k].eventqId.toNat < (c.eventdevConfig 0).nbEventqueue.toNat
  notTx : (c.eventdevConfig 0).allInternalPorts = 0 →
    ∀ k (h : k < maxConnectionsPerAdapter), k < c.rxAdapter.conns.nbConnections.toNat →
      c.rxAdapter.conns.conn[k].eventqId ≠ (c.eventdevConfig 0).nbEventqueue - 1
  reserved : (c.eventdevConfig 0).allInternalPorts = 0 →
    c.txAdapter.txCoreId = 0xffffffff
      ∨ c.txAdapter.txEvQueue = (c.eventdevConfig 0).nbEventqueue - 1
  rxConns : c.rxAdapter.conns.nbConnections.toNat ≤ maxConnectionsPerAdapter
  txConns : c.txAdapter.conns.nbConnections.toNat ≤ maxConnectionsPerAdapter

/-- What the user has not said: everything but the masks. -/
def defaultConf (ethCoreMask : UInt32 → Bool) (ethPortmask : UInt32) : EventmodeConf :=
  { ethCoreMask, ethPortmask }

/-! ## Connections -/

section Connections

variable {α : Type} {ethPortmask : UInt32} {connOf : Nat → α} {caps : Nat → Except Int UInt32}

/-- The connections made so far satisfy `P`. -/
def Filled (P : α → Prop) (a : Connections α) : Prop :=
  a.nbConnections.toNat ≤ maxConnectionsPerAdapter
    ∧ ∀ k (h : k < maxConnectionsPerAdapter), k < a.nbConnections.toNat → P a.conn[k]

theorem nbConnections_succ {a : Connections α}
    (h : a.nbConnections.toNat < maxConnectionsPerAdapter) :
    (a.nbConnections + 1).toNat = a.nbConnections.toNat + 1 := by
  have hlt : a.nbConnections.toNat + 1 < 256 := by
    simp only [maxConnectionsPerAdapter] at h
    omega
  rw [UInt8.toNat_add]
  exact Nat.mod_eq_of_lt hlt

theorem Filled.push {P : α → Prop} {a : Connections α} {x : α} (ha : Filled P a) (hx : P x)
    (h : a.nbConnections.toNat < maxConnectionsPerAdapter) :
    Filled P ⟨a.nbConnections + 1, a.conn.set a.nbConnections.toNat x h⟩ := by
  refine ⟨by rw [nbConnections_succ h]; exact h, fun k hk hlt => ?_⟩
  rw [nbConnections_succ h] at hlt
  simp only [Vector.getElem_set]
  by_cases hkn : a.nbConnections.toNat = k
  · rw [if_pos hkn]
    exact hx
  · rw [if_neg hkn]
    exact ha.2 k hk (by omega)

/-- **CONNECTIONS**: there is one for each enabled port, and the array is left when
    there are too many. -/
theorem connLoop_ends {P : α → Prop} {is : List Nat} (hP : ∀ i ∈ is, P (connOf i))
    {a : Connections α} (ha : Filled P a) {flag : Bool} :
    Ends (connLoop ethPortmask connOf caps is a flag)
      (fun e => e = .overrun → maxConnectionsPerAdapter
        < a.nbConnections.toNat + (is.filter (portEnabled ethPortmask)).length)
      (fun r => Filled P r.1
        ∧ r.1.nbConnections.toNat
          = a.nbConnections.toNat + (is.filter (portEnabled ethPortmask)).length) := by
  induction is generalizing a flag with
  | nil => exact ends_ok ⟨ha, rfl⟩
  | cons i is ih =>
    have hP' : ∀ i ∈ is, P (connOf i) := fun j hj => hP j (List.mem_cons_of_mem i hj)
    simp only [connLoop]
    by_cases hen : portEnabled ethPortmask i = false
    · rw [if_pos hen, List.filter_cons_of_neg (by rw [hen]; exact Bool.false_ne_true)]
      exact ih hP' ha
    · rw [if_neg hen, List.filter_cons_of_pos (Bool.not_eq_false _ ▸ hen), List.length_cons]
      by_cases hroom : a.nbConnections.toNat < maxConnectionsPerAdapter
      · rw [dif_pos hroom]
        cases caps i with
        | error ret => exact ends_error nofun
        | ok caps' =>
          have hpush := ha.push (hP i List.mem_cons_self) hroom
          refine (ih hP' hpush).mono (fun e he h => ?_) (fun r hr => ⟨hr.1, ?_⟩)
          · have hlt := he h
            rw [nbConnections_succ hroom] at hlt
            omega
          · rw [hr.2, nbConnections_succ hroom]
            omega
      · rw [dif_neg hroom]
        exact ends_error fun _ => by omega

end Connections

/-! ## The event device -/

/-- Everything but the adapters is set, and the queues are counted. -/
structure Ready (env : EventEnv) (maxEventQueues : Nat) (ethPortmask : UInt32)
    (c : EventmodeConf) : Prop where
  dev : c.nbEventdev ≠ 0
  ethDevs : env.ethDevs.length ≠ 0
  mask : c.ethPortmask = ethPortmask
  nbRx : c.nbRxAdapter = 0
  nbTx : c.nbTxAdapter = 0
  rxConns : c.rxAdapter.conns.nbConnections = 0
  txConns : c.txAdapter.conns.nbConnections = 0
  queues : nbRxQueues (c.eventdevConfig 0)
    = (min maxEventQueues (env.ethDevs.length + 1) : Int) - 1

/-- The device as it is found, with `n` queues. -/
def foundDev (n nbEventport : UInt8) : EventdevParams :=
  { nbEventqueue := n, nbEventport, evQueueMode := eventQueueCfgAllTypes }

theorem eventdev_ends {info : EventDevInfo} (hinfo : env.devInfo = .ok info)
    {ethCoreMask : UInt32 → Bool} {ethPortmask : UInt32} :
    Ends (ehSetDefaultConfEventdev env (defaultConf ethCoreMask ethPortmask))
      (fun e => e ≠ .overrun)
      (fun c => env.ethDevs.length ≠ 0
        ∧ ∃ n nbEventport : UInt8,
          n.toNat = min info.maxEventQueues.toNat (env.ethDevs.length + 1)
          ∧ c = { defaultConf ethCoreMask ethPortmask with
              nbEventdev := 1
              eventdevConfig := Function.update (fun _ => {}) 0 (foundDev n nbEventport) }) := by
  unfold ehSetDefaultConfEventdev
  by_cases h0 : env.nbEventdev = 0
  · rw [if_pos h0]
    exact ends_error nofun
  rw [if_neg h0]
  by_cases h1 : env.nbEventdev ≠ 1
  · rw [if_pos h1]
    exact ends_error nofun
  rw [if_neg h1]
  by_cases hdevs : env.ethDevs.length = 0
  · rw [if_pos hdevs]
    exact ends_error nofun
  rw [if_neg hdevs, hinfo]
  dsimp only
  by_cases hports : info.maxEventPorts < 2
  · rw [if_pos hports]
    exact ends_error nofun
  rw [if_neg hports]
  refine ends_ok ⟨hdevs, _, _, ?_, rfl⟩
  by_cases hmore : env.ethDevs.length + 1 < info.maxEventQueues.toNat
  · rw [if_pos hmore, UInt8.toNat_ofNat', Nat.min_eq_right (Nat.le_of_lt hmore)]
    exact Nat.mod_eq_of_lt (Nat.lt_trans hmore info.maxEventQueues.toNat_lt)
  · rw [if_neg hmore, Nat.min_eq_left (Nat.le_of_not_lt hmore)]

/-- **QUEUES**: one queue is gone after the capability check, dropped or reserved. -/
theorem check_ready (ethCoreMask : UInt32 → Bool) (ethPortmask : UInt32)
    {n nbEventport : UInt8} {q : Nat} (hdevs : env.ethDevs.length ≠ 0)
    (hn : n.toNat = min q (env.ethDevs.length + 1)) (hq : 1 ≤ q) :
    Ready env q ethPortmask (ehDoCapabilityCheck env
      { defaultConf ethCoreMask ethPortmask with
        nbEventdev := 1
        eventdevConfig := Function.update (fun _ => {}) 0 (foundDev n nbEventport) }) := by
  have hpos : 1 ≤ n := by
    rw [UInt8.le_iff_toNat_le, hn]
    exact Nat.le_min.mpr ⟨hq, Nat.succ_pos _⟩
  by_cases hint : hasInternalPorts env (foundDev n nbEventport) = true
  · -- the queue is not needed, and dropped
    have hloop : capabilityLoop env (List.range 1)
        (Function.update (fun _ => {}) 0 (foundDev n nbEventport)) true
        = (Function.update (fun _ => {}) 0
          { foundDev n nbEventport with allInternalPorts := 1 }, true) := by
      simp only [List.range_one, capabilityLoop, Function.update_self, if_pos hint,
        Function.update_idem]
    simp only [ehDoCapabilityCheck, hloop, if_true]
    refine ⟨Nat.one_ne_zero, hdevs, rfl, rfl, rfl, rfl, rfl, ?_⟩
    simp only [nbRxQueues, Nat.lt_one_iff, if_true, Function.update_self, foundDev]
    rw [if_pos (by decide), UInt8.toNat_sub_of_le _ _ hpos, hn]
    have h1 : (1 : UInt8).toNat = 1 := rfl
    omega
  · -- the queue is kept for Tx
    have hloop : capabilityLoop env (List.range 1)
        (Function.update (fun _ => {}) 0 (foundDev n nbEventport)) true
        = (Function.update (fun _ => {}) 0 (foundDev n nbEventport), false) := by
      simp only [List.range_one, capabilityLoop, Function.update_self, if_neg hint]
    simp only [ehDoCapabilityCheck, hloop, Bool.false_eq_true, if_false]
    refine ⟨Nat.one_ne_zero, hdevs, rfl, rfl, rfl, rfl, rfl, ?_⟩
    simp only [nbRxQueues, Function.update_self, foundDev]
    rw [if_neg (fun h => h rfl), hn]
    omega

/-- The links leave everything else alone. -/
theorem linkLoop_frame (eventdevId : UInt8) (is : List Nat) (prevCore : UInt32)
    (c : EventmodeConf) :
    ∃ link nbLink, linkLoop env eventdevId is prevCore c = { c with link, nbLink } := by
  induction is generalizing prevCore c with
  | nil => exact ⟨c.link, c.nbLink, rfl⟩
  | cons i is ih =>
    simp only [linkLoop]
    by_cases hmax : ehGetNextActiveCore env c prevCore = rteMaxLcore
    · rw [if_pos hmax]
      exact ⟨c.link, c.nbLink, rfl⟩
    · rw [if_neg hmax]
      obtain ⟨link, nbLink, h⟩ := ih (ehGetNextActiveCore env c prevCore) _
      exact ⟨link, nbLink, h⟩

theorem Ready.link {q : Nat} {ethPortmask : UInt32} {c : EventmodeConf}
    (h : Ready env q ethPortmask c) : Ready env q ethPortmask (ehSetDefaultConfLink env c) := by
  obtain ⟨link, nbLink, hlink⟩ : ∃ link nbLink, ehSetDefaultConfLink env c
      = { c with allEvQueueToEvPort := true, link := link, nbLink := nbLink } :=
    linkLoop_frame _ _ _ _
  rw [hlink]
  exact ⟨h.dev, h.ethDevs, h.mask, h.nbRx, h.nbTx, h.rxConns, h.txConns, h.queues⟩

/-! ## The adapters -/

section Adapters

variable {q : Nat} {ethPortmask : UInt32} {c : EventmodeConf}

theorem filled_none {α : Type} {P : α → Prop} {a : Connections α} (h : a.nbConnections = 0) :
    Filled P a := by
  have h0 : a.nbConnections.toNat = 0 := by rw [h]; rfl
  exact ⟨by rw [h0]; exact Nat.zero_le _, fun k _ hlt => by omega⟩

/-- The queue of a connection is one of the queues for Rx. -/
theorem rxConn_eventq {d : EventdevParams} {n i : Nat} (hrx : 1 ≤ nbRxQueues d) (hi : i < n)
    (hn : n ≤ WorkerModel.rteMaxEthports.toNat) :
    ((rxConn (nbRxQueues d < n) i).eventqId.toNat : Int) < nbRxQueues d := by
  simp only [rxConn, decide_eq_true_eq]
  by_cases hsingle : nbRxQueues d < n
  · rw [if_pos hsingle]
    exact Int.lt_of_lt_of_le Int.zero_lt_one hrx
  · have hmax : WorkerModel.rteMaxEthports.toNat = 32 := rfl
    rw [if_neg hsingle, UInt8.toNat_ofNat', Nat.mod_eq_of_lt (by omega)]
    omega

/-- A connection to one of the queues for Rx, if there is one. -/
def ToRxQueue (d : EventdevParams) (x : RxAdapterConnectionInfo) : Prop :=
  1 ≤ nbRxQueues d → (x.eventqId.toNat : Int) < nbRxQueues d

theorem eventq_lt {d : EventdevParams} {k : UInt8} (h : (k.toNat : Int) < nbRxQueues d) :
    k.toNat < d.nbEventqueue.toNat := by
  by_cases hint : d.allInternalPorts ≠ 0
  · rw [nbRxQueues, if_pos hint] at h
    exact Int.ofNat_lt.mp h
  · rw [nbRxQueues, if_neg hint] at h
    omega

theorem eventq_ne {d : EventdevParams} {k : UInt8} (h : (k.toNat : Int) < nbRxQueues d)
    (hint : d.allInternalPorts = 0) : k ≠ d.nbEventqueue - 1 := by
  rw [nbRxQueues, if_neg (fun hne => hne hint)] at h
  have h1 : (1 : UInt8).toNat = 1 := rfl
  have hle : 1 ≤ d.nbEventqueue := by
    rw [UInt8.le_iff_toNat_le]
    omega
  intro heq
  rw [heq, UInt8.toNat_sub_of_le _ _ hle] at h
  omega

/-- What the adapter for Rx is given. -/
structure RxReady (env : EventEnv) (q : Nat) (ethPortmask : UInt32) (c : EventmodeConf) :
    Prop where
  dev : c.nbEventdev ≠ 0
  ethDevs : env.ethDevs.length ≠ 0
  mask : c.ethPortmask = ethPortmask
  nbTx : c.nbTxAdapter = 0
  txConns : c.txAdapter.conns.nbConnections = 0
  queues : nbRxQueues (c.eventdevConfig 0)
    = (min q (env.ethDevs.length + 1) : Int) - 1
  filled : Filled (ToRxQueue (c.eventdevConfig 0)) c.rxAdapter.conns
  count : c.rxAdapter.conns.nbConnections.toNat
    = (enabledPorts ethPortmask env.ethDevs.length).length

theorem Ready.rx (h : Ready env q ethPortmask c) :
    Ends (ehSetDefaultConfRxAdapter env c)
      (fun e => e = .overrun → maxConnectionsPerAdapter
        < (enabledPorts ethPortmask env.ethDevs.length).length)
      (RxReady env q ethPortmask) := by
  unfold ehSetDefaultConfRxAdapter
  rw [if_neg h.dev]
  have h0 : c.rxAdapter.conns.nbConnections.toNat = 0 := by rw [h.rxConns]; rfl
  have hP : ∀ i ∈ List.range env.ethDevs.length, ToRxQueue (c.eventdevConfig 0)
      (rxConn (nbRxQueues (c.eventdevConfig 0) < env.ethDevs.length) i) := fun i hi hrx =>
    rxConn_eventq hrx (List.mem_range.mp hi) env.ethDevs_length
  refine Ends.bind ((connLoop_ends hP (filled_none h.rxConns)).mono (fun e he => ?_)
    fun r hr => hr) (fun r hr => ends_ok ?_)
  · rw [h0, Nat.zero_add, h.mask] at he
    exact he
  · have hcount := hr.2
    rw [h0, Nat.zero_add, h.mask] at hcount
    exact ⟨h.dev, h.ethDevs, h.mask, h.nbTx, h.txConns, h.queues, hr.1, hcount⟩

theorem RxReady.tx (h : RxReady env q ethPortmask c) :
    Ends (ehSetDefaultConfTxAdapter env c)
      (fun e => e = .overrun → maxConnectionsPerAdapter
        < (enabledPorts ethPortmask env.ethDevs.length).length)
      (fun c' => RxReady env q ethPortmask { c' with txAdapter := c.txAdapter, nbTxAdapter := 0 }
        ∧ (c'.txAdapter.txCoreId = 0xffffffff
          ∨ c'.txAdapter.txEvQueue = (c'.eventdevConfig 0).nbEventqueue - 1)
        ∧ c'.txAdapter.conns.nbConnections.toNat ≤ maxConnectionsPerAdapter) := by
  unfold ehSetDefaultConfTxAdapter
  rw [if_neg h.dev]
  have h0 : c.txAdapter.conns.nbConnections.toNat = 0 := by rw [h.txConns]; rfl
  refine Ends.bind ((connLoop_ends (P := fun _ => True) (fun _ _ => trivial)
    (filled_none h.txConns)).mono (fun e he => ?_) fun r hr => hr)
    (fun r hr => ends_ok ⟨?_, ?_, hr.1.1⟩)
  · rw [h0, Nat.zero_add, h.mask] at he
    exact he
  · exact ⟨h.dev, h.ethDevs, h.mask, rfl, h.txConns, h.queues, h.filled, h.count⟩
  · cases r.2 with
    | true => exact .inl rfl
    | false => exact .inr rfl

/-- **CONSISTENT**: a queue for Rx is enough. -/
theorem RxReady.consistent (h : RxReady env q ethPortmask c) (hq : 2 ≤ q)
    {t : TxAdapterConf} (nbTx : UInt8)
    (htx : t.txCoreId = 0xffffffff ∨ t.txEvQueue = (c.eventdevConfig 0).nbEventqueue - 1)
    (hconns : t.conns.nbConnections.toNat ≤ maxConnectionsPerAdapter) :
    Consistent { c with txAdapter := t, nbTxAdapter := nbTx } := by
  have hrx : 1 ≤ nbRxQueues (c.eventdevConfig 0) := by
    have hpos := h.ethDevs
    rw [h.queues]
    omega
  exact ⟨hrx, fun k hk hlt => eventq_lt (h.filled.2 k hk hlt hrx),
    fun hint k hk hlt => eventq_ne (h.filled.2 k hk hlt hrx) hint, fun _ => htx,
    h.filled.1, hconns⟩

end Adapters

/-! ## The whole configuration -/

/-- What all steps together do. -/
theorem validate_ends {info : EventDevInfo} (hinfo : env.devInfo = .ok info)
    (hq : 1 ≤ info.maxEventQueues) (ethCoreMask : UInt32 → Bool) (ethPortmask : UInt32) :
    Ends (ehValidateConf env (defaultConf ethCoreMask ethPortmask))
      (fun e => e = .overrun → maxConnectionsPerAdapter
        < (enabledPorts ethPortmask env.ethDevs.length).length)
      (fun c => (enabledPorts ethPortmask env.ethDevs.length).length ≤ maxConnectionsPerAdapter
        ∧ (1 ≤ nbRxQueues (c.eventdevConfig 0) → 2 ≤ info.maxEventQueues.toNat)
        ∧ (2 ≤ info.maxEventQueues.toNat → Consistent c)) := by
  unfold ehValidateConf
  rw [if_pos (show (defaultConf ethCoreMask ethPortmask).nbEventdev = 0 from rfl)]
  refine ((eventdev_ends hinfo).mono (fun e he heq => absurd heq he) fun c hc => hc).bind
    fun c hc => ?_
  obtain ⟨hdevs, n, nbEventport, hn, rfl⟩ := hc
  have hready : Ready env info.maxEventQueues.toNat ethPortmask (ehDoCapabilityCheck env
      { defaultConf ethCoreMask ethPortmask with
        nbEventdev := 1
        eventdevConfig := Function.update (fun _ => {}) 0 (foundDev n nbEventport) }) :=
    check_ready ethCoreMask ethPortmask hdevs hn (UInt8.le_iff_toNat_le.mp hq)
  generalize ehDoCapabilityCheck env _ = c at hready ⊢
  have hlink : Ready env info.maxEventQueues.toNat ethPortmask
      (if c.nbLink = 0 then ehSetDefaultConfLink env c else c) := by
    by_cases hnb : c.nbLink = 0
    · rw [if_pos hnb]
      exact hready.link
    · rw [if_neg hnb]
      exact hready
  dsimp only
  rw [if_pos hlink.nbRx]
  refine hlink.rx.bind fun c1 hrx => ?_
  rw [if_pos hrx.nbTx]
  refine hrx.tx.mono (fun _ he => he) fun c2 htx => ⟨?_, fun hpos => ?_, fun h2 => ?_⟩
  · rw [← hrx.count]
    exact hrx.filled.1
  · have hqueues : nbRxQueues (c2.eventdevConfig 0) = _ := htx.1.queues
    rw [hqueues] at hpos
    omega
  · exact htx.1.consistent h2 c2.nbTxAdapter htx.2.1 htx.2.2

/-- **CONSISTENT**: the defaults fit together exactly when the device has a queue
    for Rx beside the one for Tx, and not more ports are enabled than an adapter has
    connections. -/
theorem consistent_iff {info : EventDevInfo} (hinfo : env.devInfo = .ok info)
    (hq : 1 ≤ info.maxEventQueues) {ethCoreMask : UInt32 → Bool} {ethPortmask : UInt32}
    (hsucc : ∀ ret, ehValidateConf env (defaultConf ethCoreMask ethPortmask)
      ≠ .error (.failed ret)) :
    Ends (ehValidateConf env (defaultConf ethCoreMask ethPortmask)) (fun e => e ≠ .overrun)
        Consistent
      ↔ 2 ≤ info.maxEventQueues
        ∧ (enabledPorts ethPortmask env.ethDevs.length).length ≤ maxConnectionsPerAdapter := by
  have hends := validate_ends hinfo hq ethCoreMask ethPortmask
  rw [UInt8.le_iff_toNat_le]
  cases hres : ehValidateConf env (defaultConf ethCoreMask ethPortmask) with
  | ok c =>
    have hc := hends.of_ok hres
    exact ⟨fun h => ⟨hc.2.1 h.rxQueue, hc.1⟩, fun h => hc.2.2 h.1⟩
  | error e =>
    cases e with
    | failed ret => exact absurd hres (hsucc ret)
    | overrun =>
      have hmany := hends.of_error hres rfl
      exact ⟨fun h => absurd rfl h, fun h => absurd h.2 (Nat.not_le_of_lt hmany)⟩

theorem notFailed {r : Except EhFault EventmodeConf} {c : EventmodeConf} (h : r = .ok c)
    (ret : Int) : r ≠ .error (.failed ret) := by
  rw [h]
  exact nofun

/-- A device of eight queues, and four ports with these capabilities. -/
def fourPorts (caps : UInt32) : EventEnv where
  nbEventdev := 1
  ethDevs := List.range 4
  ethDevs_length := by decide
  lcores := [0, 1, 2, 3]
  devInfo := .ok ⟨8, 4⟩
  rxCaps := fun _ _ => .ok caps
  txCaps := fun _ _ => .ok caps

/-- Ports 0, 1 and 3 are enabled. -/
def threeMask : EventmodeConf := defaultConf (· = 1) 11

theorem fourPorts_succeeds : ∃ c, ehValidateConf (fourPorts 0) threeMask = .ok c
    ∧ nbRxQueues (c.eventdevConfig 0) = 4 :=
  ⟨_, rfl, rfl⟩

theorem consistent_iff_fourPorts :
    Ends (ehValidateConf (fourPorts 0) (defaultConf (· = 1) 11)) (fun e => e ≠ .overrun)
      Consistent :=
  (consistent_iff rfl (by decide) (notFailed fourPorts_succeeds.choose_spec.1)).mpr
    ⟨by decide, by decide⟩

/-- A device of `maxEventQueues` queues without internal ports, and one port. -/
def onePort (maxEventQueues : UInt8) : EventEnv where
  nbEventdev := 1
  ethDevs := [0]
  ethDevs_length := by decide
  lcores := [0, 1, 2]
  devInfo := .ok ⟨maxEventQueues, 2⟩
  rxCaps := fun _ _ => .ok 0
  txCaps := fun _ _ => .ok 0

/-- The masks of `onePort`. -/
def oneMask : EventmodeConf := defaultConf (· = 1) 1

theorem onePort_succeeds : ∃ c, ehValidateConf (onePort 1) oneMask = .ok c
    ∧ nbRxQueues (c.eventdevConfig 0) = 0 :=
  ⟨_, rfl, rfl⟩

/-- **NOT SO**: with one queue the port is mapped to the queue for Tx. -/
theorem oneQueue_shared :
    ¬ ∀ (env : EventEnv) (info : EventDevInfo) (ethCoreMask : UInt32 → Bool)
      (ethPortmask : UInt32), env.devInfo = .ok info → 1 ≤ info.maxEventQueues →
      2 ≤ info.maxEventPorts →
      (∀ ret, ehValidateConf env (defaultConf ethCoreMask ethPortmask)
        ≠ .error (.failed ret)) →
      Ends (ehValidateConf env (defaultConf ethCoreMask ethPortmask)) (fun e => e ≠ .overrun)
        Consistent := by
  intro h
  obtain ⟨c, hc, hqueues⟩ := onePort_succeeds
  have hends := h (onePort 1) ⟨1, 2⟩ (· = 1) 1 rfl (by decide) (by decide) (notFailed hc)
  have hrx := (hends.of_ok hc).rxQueue
  rw [hqueues] at hrx
  exact absurd hrx (by decide)

end EventHelper
