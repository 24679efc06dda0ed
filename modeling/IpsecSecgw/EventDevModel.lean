import IpsecSecgw.EventHelperModel
import IpsecSecgw.Lib.Calls

/-! # Bringing the event device up

    `event_helper.c` behind the configuration: the calls `eh_devs_init` makes to set up
    the event device, its queues, ports and links, and the adapters for Rx and Tx; those
    `eh_devs_uninit` makes to give all of it back; and what a lcore does that
    `eh_launch_worker` is run on.

    What DPDK does with a call is seen by its result only.  A function that returns a
    negative number ends the program in `main`; one that returns early with another number
    looks to its callers as if it had been done. -/

namespace EventDev

open EventHelper Calls

/-! ## Calls -/

/-- `struct rte_event_dev_config`. -/
structure DevConfig where
  nbEventsLimit : Int
  nbEventQueues : UInt8
  nbEventPorts : UInt8
  nbEventQueueFlows : UInt32
  nbEventPortDequeueDepth : UInt8
  nbEventPortEnqueueDepth : UInt32
  deriving DecidableEq

/-- `struct rte_event_queue_conf`. -/
structure QueueConf where
  eventQueueCfg : UInt8
  scheduleType : UInt8
  nbAtomicFlows : UInt32
  nbAtomicOrderSequences : UInt32
  deriving DecidableEq

/-- `struct rte_event_port_conf`. -/
structure PortConf where
  newEventThreshold : Int
  dequeueDepth : UInt8
  enqueueDepth : UInt32
  deriving DecidableEq

/-- What `struct rte_event_eth_rx_adapter_queue_conf` has for vectors. -/
structure VectorConf where
  vectorSz : UInt16
  vectorTimeoutNs : UInt64
  deriving DecidableEq

/-- `struct rte_event_eth_rx_adapter_queue_conf`: `ev`, of the type
    `RTE_EVENT_TYPE_ETHDEV`, and what there is for vectors. -/
structure RxQueueConf where
  queueId : UInt8
  schedType : UInt8
  vector : Option VectorConf
  deriving DecidableEq

/-- The functions of DPDK that are called for what they do. -/
inductive Call
  | devInfoGet (dev : UInt8)
  | devConfigure (dev : UInt8) (conf : DevConfig)
  | queueSetup (dev queue : UInt8) (conf : QueueConf)
  | portSetup (dev port : UInt8)
  /-- without a queue it is for all of them -/
  | portLink (dev port : UInt8) (queue : Option UInt8)
  | portUnlink (dev port queue : UInt8)
  | devStart (dev : UInt8)
  | devStop (dev : UInt8)
  | devClose (dev : UInt8)
  /-- negative for `NULL` -/
  | vectorPoolCreate (nbElem : UInt32) (size : UInt16)
  | vectorLimitsGet (dev eth : UInt8)
  | rxCreate (id : Int) (dev : UInt8) (conf : PortConf)
  | rxQueueAdd (id : Int) (eth : UInt8) (rxq : Int) (conf : RxQueueConf)
  | rxServiceIdGet (id : Int)
  | rxStart (id : Int)
  | rxStop (id : Int)
  | rxQueueDel (id : Int) (eth : UInt8)
  | rxFree (id : Int)
  | txCreate (id : Int) (dev : UInt8) (conf : PortConf)
  | txQueueAdd (id : Int) (eth : UInt8) (txq : Int)
  | txEventPortGet (id : Int)
  | txServiceIdGet (id : Int)
  | txStart (id : Int)
  | txStop (id : Int)
  | txQueueDel (id : Int) (eth : UInt8)
  | txFree (id : Int)
  | ethStop (port : Nat)
  | ethStart (port : Nat)
  deriving DecidableEq

/-- What is used of `struct rte_event_dev_info` here. -/
structure DevLimits where
  maxNumEvents : Int
  maxEventQueueFlows : UInt32
  maxEventPortDequeueDepth : UInt8
  maxEventPortEnqueueDepth : UInt32

/-- `struct rte_event_eth_rx_adapter_vector_limits`. -/
structure VectorLimits where
  minSz : UInt16
  maxSz : UInt16
  log2Sz : Bool
  minTimeoutNs : UInt64
  maxTimeoutNs : UInt64

/-- What the functions give back beside their results. -/
structure EventDriver where
  env : EventEnv
  result : Driver Call
  limits : UInt8 → DevLimits
  vectorLimits : UInt8 → UInt8 → VectorLimits
  /-- `rte_event_eth_tx_adapter_event_port_get` -/
  txEventPort : Int → UInt8
  /-- `RTE_EVENT_DEV_CAP_BURST_MODE` -/
  burst : UInt8 → Bool

/-- The other options of an event mode: `sched_type`, `event_vector`, `vector_size`,
    `vector_tmo_ns` and `nb_bufs_in_pool`. -/
structure EventOpts where
  schedType : UInt8
  eventVector : Bool
  vectorSize : UInt16
  vectorTmoNs : UInt64
  nbBufsInPool : UInt32

/-- How the program ends early. -/
inductive DevFault
  /-- a negative value is returned -/
  | failed (ret : Int)
  /-- a write behind an array `conn` -/
  | overrun
  /-- vectors of no packets -/
  | divide

/-- The end of a configuration. -/
def ofEhFault : EhFault → DevFault
  | .failed ret => .failed ret
  | .overrun => .overrun

abbrev CallLog := Log Call

variable (drv : EventDriver)

/-- A call, and `return ret` when it is negative. -/
def call (c : Call) (t : CallLog) : Except DevFault CallLog := must DevFault.failed drv.result c t

/-- `return ret` in the middle of a function. -/
def returns (ret : Int) (t : CallLog) : Except DevFault CallLog :=
  if ret < 0 then .error (.failed ret) else .ok t

/-! ## The event device -/

/-- `RTE_SCHED_TYPE_ATOMIC`. -/
def schedTypeAtomic : UInt8 := 1

/-- `eventq_conf` of a queue; the last one is for the adapter for Tx. -/
def queueConf (o : EventOpts) (d : EventdevParams) (j : Nat) : QueueConf where
  eventQueueCfg := d.evQueueMode
  scheduleType :=
    if d.allInternalPorts = 0 ∧ (j : Int) = d.nbEventqueue.toNat - 1 then schedTypeAtomic
    else o.schedType
  nbAtomicFlows := 1024
  nbAtomicOrderSequences := 1024

/-- `eventdev_conf`. -/
def devConfig (l : DevLimits) (d : EventdevParams) : DevConfig where
  nbEventsLimit := l.maxNumEvents
  nbEventQueues := d.nbEventqueue
  nbEventPorts := d.nbEventport
  nbEventQueueFlows := l.maxEventQueueFlows
  nbEventPortDequeueDepth := l.maxEventPortDequeueDepth
  nbEventPortEnqueueDepth := l.maxEventPortEnqueueDepth

/-- The first loop of `eh_initialize_eventdev`. -/
def initializeOne (o : EventOpts) (t : CallLog) (d : EventdevParams) :
    Except DevFault CallLog := do
  let t ← call drv (.devInfoGet d.eventdevId) t
  let t ← call drv (.devConfigure d.eventdevId (devConfig (drv.limits d.eventdevId) d)) t
  let t ← (List.range d.nbEventqueue.toNat).foldlM
    (fun t j => call drv (.queueSetup d.eventdevId (UInt8.ofNat j) (queueConf o d j)) t) t
  (List.range d.nbEventport.toNat).foldlM
    (fun t j => call drv (.portSetup d.eventdevId (UInt8.ofNat j)) t) t

/-- The second one. -/
def linkOne (allEvQueueToEvPort : Bool) (t : CallLog) (l : EhEventLinkInfo) :
    Except DevFault CallLog :=
  call drv (.portLink l.eventdevId l.eventPortId
    (if allEvQueueToEvPort then none else some l.eventqId)) t

/-- The devices of a configuration. -/
def eventdevs (c : EventmodeConf) : List EventdevParams :=
  (List.range c.nbEventdev).map c.eventdevConfig

/-- Its links. -/
def linkInfos (c : EventmodeConf) : List EhEventLinkInfo :=
  (List.range c.nbLink.toNat).map c.link

/-- `eh_initialize_eventdev`. -/
def ehInitializeEventdev (o : EventOpts) (c : EventmodeConf) (t : CallLog) :
    Except DevFault CallLog := do
  let t ← (eventdevs c).foldlM (initializeOne drv o) t
  (linkInfos c).foldlM (linkOne drv c.allEvQueueToEvPort) t

/-- `eh_start_eventdev`. -/
def ehStartEventdev (c : EventmodeConf) (t : CallLog) : Except DevFault CallLog :=
  (eventdevs c).foldlM (fun t d => call drv (.devStart d.eventdevId) t) t

/-! ## The adapter for Rx -/

/-- `-EINVAL`, `-ENOMEM` and `-ESRCH`. -/
def einval : Int := -22
def enomem : Int := -12
def esrch : Int := -3

/-- `rte_is_power_of_2`. -/
def rteIsPowerOf2 (n : UInt32) : Bool := n ≠ 0 && n &&& (n - 1) = 0

/-- `eh_event_vector_limits_validate`. -/
def ehEventVectorLimitsValidate (o : EventOpts) (dev eth : UInt8) (t : CallLog) :
    Int × CallLog :=
  let r := ask drv.result (.vectorLimitsGet dev eth) t
  let limits := drv.vectorLimits dev eth
  if r.1 ≠ 0 then r
  else if o.vectorSize < limits.minSz ∨ limits.maxSz < o.vectorSize then (einval, r.2)
  else if limits.log2Sz ∧ rteIsPowerOf2 o.vectorSize.toUInt32 = false then (einval, r.2)
  else if limits.maxTimeoutNs < o.vectorTmoNs ∨ o.vectorTmoNs < limits.minTimeoutNs then
    (einval, r.2)
  else (0, r.2)

/-- `queue_conf` of a connection. -/
def rxQueueConf (o : EventOpts) (conn : RxAdapterConnectionInfo) : RxQueueConf where
  queueId := conn.eventqId
  schedType := o.schedType
  vector := if o.eventVector then some ⟨o.vectorSize, o.vectorTmoNs⟩ else none

/-- `conn[0]` to `conn[nb_connections - 1]`. -/
def connections {α : Type} (a : Connections α) : List α :=
  a.conn.toList.take a.nbConnections.toNat

/-- The loop of `eh_rx_adapter_configure`, and what is behind it. -/
def rxConnect (o : EventOpts) (a : RxAdapterConf) :
    List RxAdapterConnectionInfo → CallLog → Except DevFault CallLog
  | [], t => do
      let r := ask drv.result (.rxServiceIdGet a.adapterId) t
      if r.1 ≠ esrch ∧ r.1 < 0 then .error (.failed r.1)
      else call drv (.rxStart a.adapterId) r.2
  | conn :: conns, t =>
      let v := if o.eventVector then ehEventVectorLimitsValidate drv o a.eventdevId conn.ethdevId t
        else (0, t)
      if v.1 ≠ 0 then returns v.1 v.2
      else do
        let t ← call drv (.rxQueueAdd a.adapterId conn.ethdevId conn.ethdevRxQid
          (rxQueueConf o conn)) v.2
        rxConnect o a conns t

/-- The pool of vectors. -/
def vectorPool (o : EventOpts) (t : CallLog) : Except DevFault CallLog :=
  if o.eventVector = false then .ok t
  else if o.vectorSize = 0 then .error .divide
  else
    let r := ask drv.result (.vectorPoolCreate (o.nbBufsInPool / o.vectorSize.toUInt32 + 1)
      o.vectorSize) t
    if r.1 < 0 then .error (.failed enomem) else .ok r.2

/-- `eh_rx_adapter_configure`. -/
def ehRxAdapterConfigure (o : EventOpts) (t : CallLog) (a : RxAdapterConf) :
    Except DevFault CallLog := do
  let t ← call drv (.devInfoGet a.eventdevId) t
  let t ← vectorPool drv o t
  let limits := drv.limits a.eventdevId
  let t ← call drv (.rxCreate a.adapterId a.eventdevId
    ⟨1200, limits.maxEventPortDequeueDepth, limits.maxEventPortEnqueueDepth⟩) t
  rxConnect drv o a (connections a.conns) t

/-- The adapters for Rx; the defaults fill one. -/
def rxAdapters (c : EventmodeConf) : List RxAdapterConf :=
  if c.nbRxAdapter = 0 then [] else [c.rxAdapter]

/-- `eh_initialize_rx_adapter`. -/
def ehInitializeRxAdapter (o : EventOpts) (c : EventmodeConf) (t : CallLog) :
    Except DevFault CallLog :=
  (rxAdapters c).foldlM (ehRxAdapterConfigure drv o) t

/-! ## The adapter for Tx -/

/-- `eh_get_eventdev_params`. -/
def ehGetEventdevParams (c : EventmodeConf) (eventdevId : UInt8) : Option EventdevParams :=
  (eventdevs c).find? fun d => d.eventdevId = eventdevId

/-- `(uint32_t)(-1)`, for an adapter without a core. -/
def noCore : UInt32 := 0xffffffff

/-- The event queue for Tx is taken from all ports, and given to that of the adapter. -/
def txLink (d : EventdevParams) (a : TxAdapterConf) (t : CallLog) : Except DevFault CallLog :=
  let r := ask drv.result (.txEventPortGet a.adapterId) t
  if r.1 ≠ 0 then returns r.1 r.2
  else
    let t := (List.range d.nbEventport.toNat).foldl
      (fun t j =>
        (ask drv.result (.portUnlink a.eventdevId (UInt8.ofNat j) a.txEvQueue) t).2) r.2
    let r := ask drv.result (.portLink a.eventdevId (drv.txEventPort a.adapterId)
      (some a.txEvQueue)) t
    if r.1 ≠ 1 then returns r.1 r.2
    else
      let r := ask drv.result (.txServiceIdGet a.adapterId) r.2
      if r.1 ≠ esrch ∧ r.1 < 0 then .error (.failed r.1)
      else call drv (.txStart a.adapterId) r.2

/-- `eh_tx_adapter_configure`. -/
def ehTxAdapterConfigure (c : EventmodeConf) (t : CallLog) (a : TxAdapterConf) :
    Except DevFault CallLog := do
  let limits := drv.limits a.eventdevId
  let t ← call drv (.devInfoGet a.eventdevId) t
  let t ← call drv (.txCreate a.adapterId a.eventdevId
    ⟨limits.maxNumEvents, limits.maxEventPortDequeueDepth, limits.maxEventPortEnqueueDepth⟩) t
  let t ← (connections a.conns).foldlM
    (fun t conn => call drv (.txQueueAdd a.adapterId conn.ethdevId conn.ethdevTxQid) t) t
  if a.txCoreId = noCore then call drv (.txStart a.adapterId) t
  else
    -- the device has been found by the configuration
    txLink drv ((ehGetEventdevParams c a.eventdevId).getD {}) a t

/-- The adapters for Tx; the defaults fill one. -/
def txAdapters (c : EventmodeConf) : List TxAdapterConf :=
  if c.nbTxAdapter = 0 then [] else [c.txAdapter]

/-- `eh_initialize_tx_adapter`. -/
def ehInitializeTxAdapter (c : EventmodeConf) (t : CallLog) : Except DevFault CallLog :=
  (txAdapters c).foldlM (ehTxAdapterConfigure drv c) t

/-! ## All devices -/

/-- `enum eh_pkt_transfer_mode`. -/
inductive PktTransferMode
  | poll
  | event
  deriving DecidableEq

/-- `enum eh_ipsec_mode_types`. -/
inductive IpsecMode
  | app
  | driver
  deriving DecidableEq

/-- `struct eh_conf`. -/
structure EhConf where
  mode : PktTransferMode
  ethPortmask : UInt32
  ipsecMode : IpsecMode
  modeParams : Option EventmodeConf
  opts : EventOpts

/-- The enabled ports of `RTE_ETH_FOREACH_DEV`. -/
def ethPorts (mask : UInt32) : List Nat := drv.env.ethDevs.filter (portEnabled mask)

/-- The Ethernet ports are stopped; a result that is not zero ends the loop and the
    function. -/
def ethStops : List Nat → CallLog → Int × CallLog
  | [], t => (0, t)
  | p :: ps, t =>
      let r := ask drv.result (.ethStop p) t
      if r.1 ≠ 0 then r else ethStops ps r.2

/-- `eh_devs_init` behind `eh_validate_conf`. -/
def devsSetUp (mask : UInt32) (o : EventOpts) (c : EventmodeConf) (t : CallLog) :
    Except DevFault CallLog :=
  let ports := ethPorts drv mask
  let r := ethStops drv ports t
  if r.1 ≠ 0 then returns r.1 r.2
  else do
    let t ← ehInitializeEventdev drv o c r.2
    let t ← ehInitializeRxAdapter drv o c t
    let t ← ehInitializeTxAdapter drv c t
    let t ← ehStartEventdev drv c t
    ports.foldlM (fun t p => call drv (.ethStart p) t) t

/-- `eh_devs_init`: the configuration behind it, and the calls. -/
def ehDevsInit (conf : EhConf) (t : CallLog) : Except DevFault (EhConf × CallLog) :=
  if conf.mode ≠ .event then .ok (conf, t)
  else match conf.modeParams with
    | none => .error (.failed einval)
    | some c =>
      match ehValidateConf drv.env { c with ethPortmask := conf.ethPortmask } with
      | .error e => .error (ofEhFault e)
      | .ok c => do
          let t ← devsSetUp drv conf.ethPortmask conf.opts c t
          return ({ conf with modeParams := some c }, t)

/-- An adapter for Rx is given back. -/
def rxRelease (t : CallLog) (a : RxAdapterConf) : Except DevFault CallLog := do
  let t ← call drv (.rxStop a.adapterId) t
  let t ← (connections a.conns).foldlM
    (fun t conn => call drv (.rxQueueDel a.adapterId conn.ethdevId) t) t
  call drv (.rxFree a.adapterId) t

/-- An event device is given back. -/
def devRelease (t : CallLog) (d : EventdevParams) : Except DevFault CallLog :=
  call drv (.devClose d.eventdevId) (ask drv.result (.devStop d.eventdevId) t).2

/-- An adapter for Tx is given back. -/
def txRelease (t : CallLog) (a : TxAdapterConf) : Except DevFault CallLog := do
  let t ← call drv (.txStop a.adapterId) t
  let t ← (connections a.conns).foldlM
    (fun t conn => call drv (.txQueueDel a.adapterId conn.ethdevId) t) t
  call drv (.txFree a.adapterId) t

/-- `eh_devs_uninit`. -/
def ehDevsUninit (conf : EhConf) (t : CallLog) : Except DevFault CallLog :=
  if conf.mode ≠ .event then .ok t
  else match conf.modeParams with
    | none => .error (.failed einval)
    | some c => do
        let t ← (rxAdapters c).foldlM (rxRelease drv) t
        let t ← (eventdevs c).foldlM (devRelease drv) t
        (txAdapters c).foldlM (txRelease drv) t

/-! ## Workers -/

/-- `cap` of `struct eh_app_worker_params`. -/
structure WorkerCap where
  burst : Bool
  txInternalPort : Bool
  ipsecMode : IpsecMode
  deriving DecidableEq

/-- `ipsec_eventmode_populate_wrkr_params`: both workers are for devices with an internal
    port for Tx, and take one event after the other. -/
def ipsecEventmodeWorkers : List WorkerCap := [⟨false, true, .driver⟩, ⟨false, true, .app⟩]

/-- The link `eh_find_worker` takes the event device from: the first one of the lcore,
    or the last of all where it has none. -/
def workerLink (c : EventmodeConf) (lcoreId : UInt32) : Option EhEventLinkInfo :=
  match (linkInfos c).find? (fun l => l.lcoreId.toUInt32 = lcoreId) with
  | some l => some l
  | none => (linkInfos c).getLast?

/-- `eh_find_worker`. -/
def ehFindWorker (lcoreId : UInt32) (ipsecMode : IpsecMode) (c : EventmodeConf)
    (wrkrs : List WorkerCap) : Option WorkerCap :=
  match workerLink c lcoreId with
  | none => none
  | some l =>
    let cap : WorkerCap :=
      ⟨drv.burst l.eventdevId, ehDevHasTxInternalPort drv.env l.eventdevId, ipsecMode⟩
    wrkrs.find? (· = cap)

/-- `eh_get_event_lcore_links`. -/
def ehGetEventLcoreLinks (lcoreId : UInt32) (c : EventmodeConf) : List EhEventLinkInfo :=
  (linkInfos c).filter fun l => l.lcoreId.toUInt32 = lcoreId

/-- What a lcore does in event mode. -/
inductive Launched
  /-- it runs the services of these adapters in turn -/
  | ethCore (rx tx : List Int)
  /-- a service has no number -/
  | failed (ret : Int)
  /-- no worker is made for the event device -/
  | unmatched
  | worker (cap : WorkerCap) (links : List EhEventLinkInfo)

/-- The services `eh_start_worker_eth_core` finds for a lcore: an adapter whose service
    has no number yet is one of them. -/
def servicesOf {α : Type} (coreId : α → UInt32) (adapterId : α → Int)
    (serviceIdGet : Int → Call) (lcoreId : UInt32) :
    List α → List Int → CallLog → Except DevFault (List Int × CallLog)
  | [], ids, t => .ok (ids, t)
  | a :: as, ids, t =>
      if coreId a ≠ lcoreId then servicesOf coreId adapterId serviceIdGet lcoreId as ids t
      else
        let r := ask drv.result (serviceIdGet (adapterId a)) t
        if r.1 ≠ esrch ∧ r.1 < 0 then .error (.failed r.1)
        else servicesOf coreId adapterId serviceIdGet lcoreId as (ids ++ [adapterId a]) r.2

/-- `eh_start_worker_eth_core`, up to its loop.  There is one adapter of a kind at most,
    and the test of the room for services never ends the loops. -/
def ehStartWorkerEthCore (c : EventmodeConf) (lcoreId : UInt32) (t : CallLog) : Launched :=
  match servicesOf drv RxAdapterConf.rxCoreId RxAdapterConf.adapterId .rxServiceIdGet lcoreId
      (rxAdapters c) [] t with
  | .error (.failed ret) => .failed ret
  | .error _ => .failed 0
  | .ok (rx, t) =>
    match servicesOf drv TxAdapterConf.txCoreId TxAdapterConf.adapterId .txServiceIdGet lcoreId
        (txAdapters c) [] t with
    | .error (.failed ret) => .failed ret
    | .error _ => .failed 0
    | .ok (tx, _) => .ethCore rx tx

/-- `eh_launch_worker` with the workers of `ipsec_eventmode_worker`. -/
def ehLaunchWorker (conf : EhConf) (lcoreId : UInt32) (t : CallLog) : Option Launched :=
  match conf.modeParams with
  | none => none
  | some c =>
    if c.ethCoreMask lcoreId then some (ehStartWorkerEthCore drv c lcoreId t)
    else match ehFindWorker drv lcoreId conf.ipsecMode c ipsecEventmodeWorkers with
      | none => some .unmatched
      | some cap => some (.worker cap (ehGetEventLcoreLinks lcoreId c))

end EventDev
