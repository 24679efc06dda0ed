import IpsecSecgw.WorkerModel
import Mathlib.Logic.Function.Basic

/-! # Default event configuration

    `event_helper.c`: what the application asks of the event device when the user
    has said nothing.  The event device, its queues to the Ethernet devices, its
    ports to the lcores, one adapter for Rx and one for Tx.

    The arrays of the adapters have room for sixteen connections; a write behind
    them ends the computation with `overrun`. -/

namespace EventHelper

/-! ## Data -/

/-- `EVENT_MODE_MAX_CONNECTIONS_PER_ADAPTER` and
    `EVENT_MODE_MAX_CONNECTIONS_PER_TX_ADAPTER`. -/
abbrev maxConnectionsPerAdapter : Nat := 16

def rteMaxLcore : UInt32 := 128

/-- `struct eventdev_params`. -/
structure EventdevParams where
  eventdevId : UInt8 := 0
  nbEventqueue : UInt8 := 0
  nbEventport : UInt8 := 0
  evQueueMode : UInt8 := 0
  allInternalPorts : UInt8 := 0

/-- `struct eh_event_link_info`. -/
structure EhEventLinkInfo where
  eventdevId : UInt8 := 0
  eventPortId : UInt8 := 0
  eventqId : UInt8 := 0
  lcoreId : UInt8 := 0

/-- `struct rx_adapter_connection_info`. -/
structure RxAdapterConnectionInfo where
  ethdevId : UInt8 := 0
  eventqId : UInt8 := 0
  ethdevRxQid : Int := 0

/-- `struct tx_adapter_connection_info`. -/
structure TxAdapterConnectionInfo where
  ethdevId : UInt8 := 0
  ethdevTxQid : Int := 0

/-- `nb_connections` and `conn` of an adapter. -/
structure Connections (α : Type) where
  nbConnections : UInt8
  conn : Vector α maxConnectionsPerAdapter

/-- `struct rx_adapter_conf`. -/
structure RxAdapterConf where
  eventdevId : UInt8 := 0
  adapterId : Int := 0
  rxCoreId : UInt32 := 0
  conns : Connections RxAdapterConnectionInfo := ⟨0, .replicate _ {}⟩

/-- `struct tx_adapter_conf`. -/
structure TxAdapterConf where
  eventdevId : UInt8 := 0
  adapterId : Int := 0
  txCoreId : UInt32 := 0
  conns : Connections TxAdapterConnectionInfo := ⟨0, .replicate _ {}⟩
  txEvQueue : UInt8 := 0

/-- `struct eventmode_conf`, all zero but for its masks; of the arrays of
    adapters the first entry. -/
structure EventmodeConf where
  nbEventdev : Nat := 0
  eventdevConfig : Nat → EventdevParams := fun _ => {}
  nbRxAdapter : UInt8 := 0
  rxAdapter : RxAdapterConf := {}
  nbTxAdapter : UInt8 := 0
  txAdapter : TxAdapterConf := {}
  nbLink : UInt8 := 0
  link : Nat → EhEventLinkInfo := fun _ => {}
  ethCoreMask : UInt32 → Bool
  ethPortmask : UInt32
  allEvQueueToEvPort : Bool := false
  /-- the static `prev_core` of `eh_get_next_eth_core` -/
  prevCore : UInt32 := 0xffffffff

/-- What is used of `struct rte_event_dev_info`. -/
structure EventDevInfo where
  maxEventQueues : UInt8
  maxEventPorts : UInt8

/-- What DPDK and the devices answer. -/
structure EventEnv where
  /-- `rte_event_dev_count` -/
  nbEventdev : UInt8
  /-- the ports of `RTE_ETH_FOREACH_DEV` -/
  ethDevs : List Nat
  ethDevs_length : ethDevs.length ≤ WorkerModel.rteMaxEthports.toNat
  /-- the lcores of `RTE_LCORE_FOREACH` -/
  lcores : List UInt32
  /-- `rte_event_dev_info_get` of device 0 -/
  devInfo : Except Int EventDevInfo
  /-- `rte_event_eth_rx_adapter_caps_get` -/
  rxCaps : UInt8 → Nat → Except Int UInt32
  /-- `rte_event_eth_tx_adapter_caps_get` -/
  txCaps : UInt8 → Nat → Except Int UInt32

/-- How a function ends early. -/
inductive EhFault
  /-- a negative value is returned -/
  | failed (ret : Int)
  /-- a write behind an array `conn` -/
  | overrun

variable (env : EventEnv)

/-! ## Cores -/

/-- The lcores `rte_get_next_lcore(prev, 0, 0)` gives one after the other. -/
def lcoresAfter (prev : UInt32) : List UInt32 := env.lcores.filter (prev + 1 ≤ ·)

/-- The same with `rte_get_next_lcore(prev, 0, 1)`, once around. -/
def lcoresAround (prev : UInt32) : List UInt32 :=
  env.lcores.filter ((prev + 1) % rteMaxLcore ≤ ·) ++ env.lcores

/-- `eh_get_enabled_cores`. -/
def ehGetEnabledCores (ethCoreMask : UInt32 → Bool) : Nat := env.lcores.countP ethCoreMask

/-- `eh_get_next_eth_core`: a core and the new `prev_core`. -/
def ehGetNextEthCore (c : EventmodeConf) : UInt32 × UInt32 :=
  if ehGetEnabledCores env c.ethCoreMask = 0 then (rteMaxLcore, c.prevCore)
  else match (lcoresAround env c.prevCore).find? c.ethCoreMask with
    | some core => (core, core)
    | none => (rteMaxLcore, c.prevCore)

/-- `eh_get_next_active_core`. -/
def ehGetNextActiveCore (c : EventmodeConf) (prevCore : UInt32) : UInt32 :=
  match (lcoresAfter env prevCore).find? (fun core => !c.ethCoreMask core) with
  | some core => core
  | none => rteMaxLcore

/-! ## Capabilities -/

/-- `RTE_EVENT_ETH_RX_ADAPTER_CAP_INTERNAL_PORT` and
    `RTE_EVENT_ETH_TX_ADAPTER_CAP_INTERNAL_PORT`. -/
def capInternalPort : UInt32 := 0x1

/-- The loop of `eh_dev_has_rx_internal_port` and `eh_dev_has_tx_internal_port`. -/
def internalPortLoop (caps : Nat → Except Int UInt32) : List Nat → Bool → Bool
  | [], flag => flag
  | j :: js, flag =>
    match caps j with
    | .error _ => false
    | .ok caps' => internalPortLoop caps js (if caps' &&& capInternalPort = 0 then false else flag)

/-- `eh_dev_has_rx_internal_port`. -/
def ehDevHasRxInternalPort (eventdevId : UInt8) : Bool :=
  internalPortLoop (env.rxCaps eventdevId) env.ethDevs true

/-- `eh_dev_has_tx_internal_port`. -/
def ehDevHasTxInternalPort (eventdevId : UInt8) : Bool :=
  internalPortLoop (env.txCaps eventdevId) env.ethDevs true

/-! ## The defaults -/

/-- `RTE_EVENT_QUEUE_CFG_ALL_TYPES`. -/
def eventQueueCfgAllTypes : UInt8 := 1

/-- `-EINVAL`. -/
def einval : EhFault := .failed (-22)

/-- `eh_set_default_conf_eventdev`. -/
def ehSetDefaultConfEventdev (c : EventmodeConf) : Except EhFault EventmodeConf :=
  if env.nbEventdev = 0 then .error einval
  else if env.nbEventdev ≠ 1 then .error einval
  else if env.ethDevs.length = 0 then .error einval
  else match env.devInfo with
    | .error ret => .error (.failed ret)
    | .ok info =>
      if info.maxEventPorts < 2 then .error einval
      else
        let nbEventqueue :=
          if env.ethDevs.length + 1 < info.maxEventQueues.toNat then
            UInt8.ofNat (env.ethDevs.length + 1)
          else info.maxEventQueues
        let nbEventport :=
          if env.lcores.length < info.maxEventPorts.toNat then UInt8.ofNat env.lcores.length
          else info.maxEventPorts
        .ok { c with
          eventdevConfig := Function.update c.eventdevConfig 0
            { c.eventdevConfig 0 with
              eventdevId := 0, nbEventqueue, nbEventport, evQueueMode := eventQueueCfgAllTypes }
          nbEventdev := c.nbEventdev + 1 }

/-- The device has internal ports for Rx and Tx. -/
def hasInternalPorts (d : EventdevParams) : Bool :=
  ehDevHasRxInternalPort env d.eventdevId && ehDevHasTxInternalPort env d.eventdevId

/-- The loop of `eh_do_capability_check`: the devices and `all_internal_ports`. -/
def capabilityLoop : List Nat → (Nat → EventdevParams) → Bool → (Nat → EventdevParams) × Bool
  | [], devs, all => (devs, all)
  | i :: is, devs, all =>
    if hasInternalPorts env (devs i) then
      capabilityLoop is (Function.update devs i { devs i with allInternalPorts := 1 }) all
    else capabilityLoop is devs false

/-- `eh_do_capability_check`. -/
def ehDoCapabilityCheck (c : EventmodeConf) : EventmodeConf :=
  let r := capabilityLoop env (List.range c.nbEventdev) c.eventdevConfig true
  if r.2 then
    { c with
      ethCoreMask := fun _ => false
      eventdevConfig := fun i =>
        if i < c.nbEventdev then { r.1 i with nbEventqueue := (r.1 i).nbEventqueue - 1 }
        else r.1 i }
  else { c with eventdevConfig := r.1 }

/-- The loop of `eh_set_default_conf_link`.  `nb_link` has eight bits and the
    array more than 255 entries. -/
def linkLoop (eventdevId : UInt8) : List Nat → UInt32 → EventmodeConf → EventmodeConf
  | [], _, c => c
  | i :: is, prevCore, c =>
    let lcoreId := ehGetNextActiveCore env c prevCore
    if lcoreId = rteMaxLcore then c
    else linkLoop eventdevId is lcoreId
      { c with
        link := Function.update c.link c.nbLink.toNat
          { c.link c.nbLink.toNat with
            eventdevId, eventPortId := UInt8.ofNat i, lcoreId := lcoreId.toUInt8 }
        nbLink := c.nbLink + 1 }

/-- `eh_set_default_conf_link`. -/
def ehSetDefaultConfLink (c : EventmodeConf) : EventmodeConf :=
  let d := c.eventdevConfig 0
  linkLoop env d.eventdevId (List.range d.nbEventport.toNat) 0xffffffff
    { c with allEvQueueToEvPort := true }

/-- `eth_portmask & (1 << i)`. -/
def portEnabled (ethPortmask : UInt32) (i : Nat) : Bool :=
  ethPortmask &&& (1 <<< UInt32.ofNat i) ≠ 0

/-- The loop of the two adapters: a connection for each port enabled.  The flag
    is `rx_internal_port` or `tx_internal_port`. -/
def connLoop {α : Type} (ethPortmask : UInt32) (connOf : Nat → α)
    (caps : Nat → Except Int UInt32) :
    List Nat → Connections α → Bool → Except EhFault (Connections α × Bool)
  | [], a, flag => .ok (a, flag)
  | i :: is, a, flag =>
    if portEnabled ethPortmask i = false then connLoop ethPortmask connOf caps is a flag
    else if h : a.nbConnections.toNat < maxConnectionsPerAdapter then
      match caps i with
      | .error ret => .error (.failed ret)
      | .ok caps' =>
        connLoop ethPortmask connOf caps is
          ⟨a.nbConnections + 1, a.conn.set a.nbConnections.toNat (connOf i) h⟩
          (if caps' &&& capInternalPort = 0 then false else flag)
    else .error .overrun

/-- The queues for Rx: one is reserved for Tx without internal ports. -/
def nbRxQueues (d : EventdevParams) : Int :=
  if d.allInternalPorts ≠ 0 then d.nbEventqueue.toNat else d.nbEventqueue.toNat - 1

/-- A connection of the adapter for Rx. -/
def rxConn (singleEvQueue : Bool) (i : Nat) : RxAdapterConnectionInfo :=
  { ethdevId := UInt8.ofNat i
    eventqId := if singleEvQueue then 0 else UInt8.ofNat i
    ethdevRxQid := -1 }

/-- `eh_set_default_conf_rx_adapter`. -/
def ehSetDefaultConfRxAdapter (c : EventmodeConf) : Except EhFault EventmodeConf :=
  if c.nbEventdev = 0 then .error einval
  else do
    let d := c.eventdevConfig 0
    let nbEthDev := env.ethDevs.length
    let singleEvQueue : Bool := nbRxQueues d < nbEthDev
    let r ← connLoop c.ethPortmask (rxConn singleEvQueue) (env.rxCaps d.eventdevId)
      (List.range nbEthDev) c.rxAdapter.conns true
    let core := if r.2 then (0xffffffff, c.prevCore) else ehGetNextEthCore env c
    .ok { c with
      rxAdapter := { eventdevId := d.eventdevId, adapterId := 0, rxCoreId := core.1, conns := r.1 }
      prevCore := core.2
      nbRxAdapter := 1 }

/-- A connection of the adapter for Tx. -/
def txConn (i : Nat) : TxAdapterConnectionInfo :=
  { ethdevId := UInt8.ofNat i, ethdevTxQid := -1 }

/-- `eh_set_default_conf_tx_adapter`. -/
def ehSetDefaultConfTxAdapter (c : EventmodeConf) : Except EhFault EventmodeConf :=
  if c.nbEventdev = 0 then .error einval
  else do
    let d := c.eventdevConfig 0
    let r ← connLoop c.ethPortmask txConn (env.txCaps d.eventdevId)
      (List.range env.ethDevs.length) c.txAdapter.conns true
    let core := if r.2 then (0xffffffff, c.prevCore) else ehGetNextEthCore env c
    .ok { c with
      txAdapter :=
        { eventdevId := d.eventdevId, adapterId := 0, txCoreId := core.1, conns := r.1
          txEvQueue := if r.2 then c.txAdapter.txEvQueue else d.nbEventqueue - 1 }
      prevCore := core.2
      nbTxAdapter := 1 }

/-- `eh_validate_conf`. -/
def ehValidateConf (c : EventmodeConf) : Except EhFault EventmodeConf := do
  let c ← (if c.nbEventdev = 0 then ehSetDefaultConfEventdev env c else .ok c)
  let c := ehDoCapabilityCheck env c
  let c := if c.nbLink = 0 then ehSetDefaultConfLink env c else c
  let c ← (if c.nbRxAdapter = 0 then ehSetDefaultConfRxAdapter env c else .ok c)
  if c.nbTxAdapter = 0 then ehSetDefaultConfTxAdapter env c else .ok c

end EventHelper
