import IpsecSecgw.DrvModeModel
import IpsecSecgw.VectorModel

/-! # The loops of the event workers

    `ipsec_worker.c`: the two workers for devices with an internal Tx port, in
    application mode and in driver mode.  A worker takes one event after the
    other from its port; what it hands to the Tx adapter, frees, gives back to
    the pool of vectors or passes over is kept in logs.

    Nobody looks at what `rte_event_eth_tx_adapter_enqueue` returns, so an event
    the adapter does not take is neither sent nor freed. -/

namespace EventWorker

open SaModel MbufModel WorkerModel VectorModel DrvMode

/-! ## Events -/

/-- `struct rte_event`, by the types the loops tell apart. -/
inductive RteEvent
  /-- `RTE_EVENT_TYPE_ETHDEV` -/
  | ethdev (mbuf : Mbuf)
  /-- `RTE_EVENT_TYPE_ETHDEV_VECTOR` -/
  | ethdevVector (vec : RteEventVector)
  /-- `RTE_EVENT_TYPE_ETH_RX_ADAPTER_VECTOR` -/
  | ethRxAdapterVector (vec : RteEventVector)
  /-- another type, with the packets the event brings -/
  | other (eventType : UInt8) (mbufs : List Mbuf)

/-- The packets in the elements of a vector. -/
def vecPackets (vec : RteEventVector) : List Mbuf :=
  (List.range vec.nbElem).map vec.mbufs

/-- The packets of an event. -/
def RteEvent.packets : RteEvent → List Mbuf
  | .ethdev mbuf => [mbuf]
  | .ethdevVector vec => vecPackets vec
  | .ethRxAdapterVector vec => vecPackets vec
  | .other _ mbufs => mbufs

/-- The vector of an event. -/
def RteEvent.vec : RteEvent → Option RteEventVector
  | .ethdevVector vec => some vec
  | .ethRxAdapterVector vec => some vec
  | _ => none

/-- The packet whose port says where the event comes from: that of the event,
    or `vec->mbufs[0]`. -/
def RteEvent.first : RteEvent → Option Mbuf
  | .ethdev mbuf => some mbuf
  | .ethdevVector vec => some (vec.mbufs 0)
  | .ethRxAdapterVector vec => some (vec.mbufs 0)
  | .other _ _ => none

/-! ## Application mode -/

/-- What a worker is given at its start, and what DPDK answers it. -/
structure WorkerEnv where
  globals : Globals
  /-- `is_unprotected_port` -/
  unprotected : UInt16 → Bool
  inbound : EvCtx
  outbound : EvCtx
  rt : RouteTable
  /-- what the arrays of a vector function hold when it is called -/
  stack : Nat → IpsecTraffic
  /-- does `rte_event_eth_tx_adapter_enqueue` take the event? -/
  accepts : Nat → Bool

/-- What a worker has done so far. -/
structure Worker where
  tick : Nat := 0
  sent : List RteEvent := []
  /-- handed to the Tx adapter, which did not take them -/
  refused : List RteEvent := []
  freed : List Mbuf := []
  /-- given back with `rte_mempool_put` -/
  returned : List RteEventVector := []
  /-- events of an invalid type -/
  passedOver : List RteEvent := []

/-- `rte_event_eth_tx_adapter_enqueue` for one event. -/
def Worker.txEnqueue (env : WorkerEnv) (w : Worker) (ev : RteEvent) : Worker :=
  if env.accepts w.tick then { w with tick := w.tick + 1, sent := w.sent ++ [ev] }
  else { w with tick := w.tick + 1, refused := w.refused ++ [ev] }

/-- The vector function for the port of `vec->mbufs[0]`. -/
def vectorFunction (env : WorkerEnv) (tick : Nat) (vec : RteEventVector) :
    Except VecFault Routing :=
  let pkt := vec.mbufs 0
  let vec := evVectorAttrInit vec
  if env.unprotected pkt.port then
    VectorModel.processIpsecEvInboundVector env.globals env.inbound env.rt
      (env.stack tick) vec
  else
    VectorModel.processIpsecEvOutboundVector env.globals env.outbound env.rt
      (env.stack tick) vec

/-- `ipsec_ev_vector_process`; `wrap` is the event with another vector in it. -/
def ipsecEvVectorProcess (env : WorkerEnv) (wrap : RteEventVector → RteEvent)
    (vec : RteEventVector) (w : Worker) : Except VecFault Worker := do
  let r ← vectorFunction env w.tick vec
  let w := { w with freed := w.freed ++ r.freed }
  if 0 < r.j then return w.txEnqueue env (wrap { r.vec with nbElem := r.j })
  else return { w with tick := w.tick + 1, returned := w.returned ++ [r.vec] }

/-- One round of the loop of `ipsec_wrkr_non_burst_int_port_app_mode`. -/
def appModeOne (env : WorkerEnv) (w : Worker) (ev : RteEvent) :
    Except VecFault Worker :=
  match ev with
  | .ethRxAdapterVector vec => ipsecEvVectorProcess env .ethRxAdapterVector vec w
  | .ethdevVector vec => ipsecEvVectorProcess env .ethdevVector vec w
  | .ethdev pkt =>
      let ret :=
        if env.unprotected pkt.port then
          processIpsecEvInbound env.globals env.inbound env.rt pkt
        else processIpsecEvOutbound env.globals env.outbound env.rt pkt
      match ret with
      | none => .ok { w with freed := w.freed ++ [pkt] }
      | some mbuf => .ok (w.txEnqueue env (.ethdev mbuf))
  | .other _ _ => .ok { w with passedOver := w.passedOver ++ [ev] }

/-- `ipsec_wrkr_non_burst_int_port_app_mode`, for the events it dequeues before
    it is told to quit; without links it does not start. -/
def ipsecWrkrNonBurstIntPortAppMode (env : WorkerEnv) (nbLinks : UInt8)
    (evs : List RteEvent) : Except VecFault Worker :=
  if nbLinks = 0 then .ok {} else evs.foldlM (appModeOne env) {}

/-! ## Driver mode -/

/-- What a worker in driver mode is given. -/
structure DrvEnv where
  unprotected : UInt16 → Bool
  /-- `rte_security_set_pkt_metadata` -/
  setMetadata : PortDrvModeData → Mbuf → Mbuf
  setMetadata_addr : ∀ d m, (setMetadata d m).addr = m.addr
  saOut : Option (List OutSa)
  /-- what the array `data` holds when the worker is called -/
  stack : DrvData
  accepts : Nat → Bool

/-- What a worker in driver mode has done; an event handed to the adapter is
    the list of its packets. -/
structure DrvWorker where
  tick : Nat := 0
  sent : List (List DrvSent) := []
  refused : List (List DrvSent) := []
  freed : List Mbuf := []
  returned : Nat := 0
  passedOver : List RteEvent := []

/-- `rte_event_eth_tx_adapter_enqueue` for one event. -/
def DrvWorker.txEnqueue (env : DrvEnv) (w : DrvWorker) (pkts : List DrvSent) :
    DrvWorker :=
  if env.accepts w.tick then { w with tick := w.tick + 1, sent := w.sent ++ [pkts] }
  else { w with tick := w.tick + 1, refused := w.refused ++ [pkts] }

/-- `ipsec_ev_vector_drv_mode_process`. -/
def ipsecEvVectorDrvModeProcess (env : DrvEnv) (data : DrvData) (vec : RteEventVector)
    (w : DrvWorker) : DrvWorker :=
  let r :=
    if env.unprotected (vec.mbufs 0).port then
      ((vecPackets vec).map fun m => (⟨m, none⟩ : DrvSent), [])
    else processIpsecEvDrvModeOutboundVector env.setMetadata (vecPackets vec) data
  let w := { w with freed := w.freed ++ r.2 }
  if 0 < r.1.length then w.txEnqueue env r.1
  else { w with tick := w.tick + 1, returned := w.returned + 1 }

/-- One round of the loop of `ipsec_wrkr_non_burst_int_port_drv_mode`. -/
def drvModeOne (env : DrvEnv) (data : DrvData) (w : DrvWorker) (ev : RteEvent) :
    DrvWorker :=
  match ev with
  | .ethRxAdapterVector vec => ipsecEvVectorDrvModeProcess env data vec w
  | .ethdevVector vec => ipsecEvVectorDrvModeProcess env data vec w
  | .ethdev pkt =>
      match drvModeEvent env.setMetadata env.unprotected data pkt with
      | none => { w with freed := w.freed ++ [ipsecEventPreForward pkt pkt.port] }
      | some x => w.txEnqueue env [x]
  | .other _ _ => { w with passedOver := w.passedOver ++ [ev] }

/-- `ipsec_wrkr_non_burst_int_port_drv_mode`. -/
def ipsecWrkrNonBurstIntPortDrvMode (env : DrvEnv) (nbLinks : UInt8)
    (evs : List RteEvent) : DrvWorker :=
  if nbLinks = 0 then {}
  else evs.foldl (drvModeOne env (drvModeData env.saOut env.stack)) {}

end EventWorker
