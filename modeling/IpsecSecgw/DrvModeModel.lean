import IpsecSecgw.WorkerModel

/-! # Driver mode

    `ipsec_worker.c`: the worker for devices that do IPsec alone.  It fills a
    table with a session for each port when it starts, and gives packets of
    protected ports to the session of their port.

    The table is an array on the stack of the worker, so what it holds at first
    is whatever was left there. -/

namespace DrvMode

open SaModel MbufModel WorkerModel

/-! ## Data -/

/-- `struct rte_security_ctx *`. -/
abbrev SecCtx := Nat

/-- `struct port_drv_mode_data`, all zero when cleared. -/
structure PortDrvModeData where
  sess : Option SesId := none
  ctx : Option SecCtx := none
  deriving DecidableEq

/-- A SA of `sa_out->sa`, with `security.ctx` of its primary session. -/
structure OutSa where
  sa : IpsecSa
  ctx : Option SecCtx

/-- The array `data` of a worker. -/
abbrev DrvData := Nat → PortDrvModeData

/-! ## The table -/

/-- One round of the loop of `prepare_out_sessions_tbl`. -/
def prepareOutSessionsOne (size : Nat) (data : DrvData) (x : OutSa) : DrvData :=
  if x.sa.primary.type ≠ .inlineProtocol then data
  else if size ≤ x.sa.portid.toNat then data
  else if (data x.sa.portid.toNat).sess ≠ none then data
  else Function.update data x.sa.portid.toNat ⟨x.sa.primary.ses, x.ctx⟩

/-- `prepare_out_sessions_tbl`. -/
def prepareOutSessionsTbl (saOut : Option (List OutSa)) (data : DrvData)
    (size : Nat) : DrvData :=
  match saOut with
  | none => data
  | some sas => sas.foldl (prepareOutSessionsOne size) data

/-- `memset(&data, 0, sizeof(struct port_drv_mode_data))`: as many bytes as one
    entry has. -/
def clearData (data : DrvData) : DrvData := Function.update data 0 {}

/-- The table when `ipsec_wrkr_non_burst_int_port_drv_mode` enters its loop;
    `stack` is what the array holds when the worker is called. -/
def drvModeData (saOut : Option (List OutSa)) (stack : DrvData) : DrvData :=
  prepareOutSessionsTbl saOut (clearData stack) rteMaxEthports.toNat

/-! ## Packets -/

/-- A packet that is sent, with the entry its metadata are from when it is sent
    with security offload. -/
structure DrvSent where
  pkt : Mbuf
  under : Option PortDrvModeData

/-- A packet for the session of its port, `none` when it is freed; `setMetadata`
    is `rte_security_set_pkt_metadata`. -/
def drvProtect (setMetadata : PortDrvModeData → Mbuf → Mbuf) (data : DrvData)
    (pkt : Mbuf) : Option DrvSent :=
  let d := data pkt.port.toNat
  if d.sess = none then none
  else
    let m := setMetadata d (ipsecEventPreForward pkt pkt.port)
    some
      { pkt := { m with
          olFlags := m.olFlags ||| txSecOffload
          l2Len := rteEtherHdrLen }
        under := some d }

/-- A single event of the loop; `none` when its packet is freed. -/
def drvModeEvent (setMetadata : PortDrvModeData → Mbuf → Mbuf)
    (unprotected : UInt16 → Bool) (data : DrvData) (pkt : Mbuf) : Option DrvSent :=
  let pkt := ipsecEventPreForward pkt pkt.port
  if unprotected pkt.port then some ⟨pkt, none⟩ else drvProtect setMetadata data pkt

/-- One round of the loop over a vector: packets sent, packets freed. -/
def drvVectorOne (setMetadata : PortDrvModeData → Mbuf → Mbuf) (data : DrvData)
    (s : List DrvSent × List Mbuf) (pkt : Mbuf) : List DrvSent × List Mbuf :=
  match drvProtect setMetadata data pkt with
  | none => (s.1, s.2 ++ [pkt])
  | some x => (s.1 ++ [x], s.2)

/-- `process_ipsec_ev_drv_mode_outbound_vector`. -/
def processIpsecEvDrvModeOutboundVector (setMetadata : PortDrvModeData → Mbuf → Mbuf)
    (vec : List Mbuf) (data : DrvData) : List DrvSent × List Mbuf :=
  vec.foldl (drvVectorOne setMetadata data) ([], [])

end DrvMode
