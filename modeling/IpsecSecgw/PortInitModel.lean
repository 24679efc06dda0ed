import IpsecSecgw.CdevModel
import IpsecSecgw.PollModel
import IpsecSecgw.SaInitModel

/-! # Ports at start-up

    What `main` makes of the command line before the first packet: the checks of
    the parameters, the receive queues of the lcores, the offloads the SAs ask for
    (`sa_check_offloads`), every enabled port with its queues (`port_init`), and
    the offloads of the packets sent.

    The Ethernet devices are asked from outside.  `none` is `rte_exit`.  NUMA
    sockets, memory pools, descriptors and the hash functions of RSS are left out. -/

namespace PortInit

open SaModel CdevModel SecgwModel
open SaInit (isInline)

/-! ## Flags -/

/-- `RTE_ETH_RX_OFFLOAD_CHECKSUM`: IPv4, UDP and TCP. -/
def rxOffloadChecksum : UInt64 := 0xe

/-- `RTE_ETH_RX_OFFLOAD_SCATTER`. -/
def rxOffloadScatter : UInt64 := 0x2000

/-- `RTE_ETH_RX_OFFLOAD_SECURITY`. -/
def rxOffloadSecurity : UInt64 := 0x8000

/-- `RTE_ETH_TX_OFFLOAD_IPV4_CKSUM`. -/
def txOffloadIpv4Cksum : UInt64 := 0x2

/-- `RTE_ETH_TX_OFFLOAD_TCP_TSO`. -/
def txOffloadTcpTso : UInt64 := 0x20

/-- `RTE_ETH_TX_OFFLOAD_MULTI_SEGS`. -/
def txOffloadMultiSegs : UInt64 := 0x8000

/-- `RTE_ETH_TX_OFFLOAD_MBUF_FAST_FREE`. -/
def txOffloadMbufFastFree : UInt64 := 0x10000

/-- `RTE_ETH_TX_OFFLOAD_SECURITY`. -/
def txOffloadSecurity : UInt64 := 0x20000

/-- `RTE_MBUF_F_TX_IPV4`. -/
def txIpv4 : UInt64 := (1 : UInt64) <<< 55

/-- `RTE_MBUF_F_TX_IPV6`. -/
def txIpv6 : UInt64 := (1 : UInt64) <<< 56

/-! ## What is asked -/

/-- What is used of `struct rte_eth_dev_info`. -/
structure EthDevInfo where
  maxRxQueues : UInt16
  maxTxQueues : UInt16
  rxOffloadCapa : UInt64
  txOffloadCapa : UInt64

/-- The Ethernet devices.  Queues are set up on a port that has been configured
    with so many of them. -/
structure EthDevices where
  /-- the ports of `RTE_ETH_FOREACH_DEV`: those that no other device owns -/
  ports : List UInt16
  /-- `rte_eth_dev_is_valid_port`, also of a port that is owned -/
  isValidPort : UInt16 → Bool
  devInfo : UInt16 → Option EthDevInfo
  macaddr : UInt16 → Option UInt64
  /-- `rte_eth_dev_configure` with so many queues for Rx and Tx -/
  configure : UInt16 → UInt8 → UInt16 → Bool
  adjustDesc : UInt16 → Bool
  rxQueueSetup : UInt16 → UInt8 → UInt8 → Bool
  txQueueSetup : UInt16 → UInt16 → UInt16 → Bool
  start : UInt16 → Bool
  /-- `rte_flow_validate` and `rte_flow_create` take the flow for all ESP -/
  flow : UInt16 → Bool

/-- The command line, and the lcores. -/
structure StartConf where
  /-- `--transfer-mode` is `event` -/
  eventMode : Bool
  /-- `--event-schedule-type` has been given -/
  schedTypeSet : Bool
  /-- `--config` has been given -/
  configGiven : Bool
  lcoreParams : List LcoreParams
  enabledPortMask : UInt32
  unprotectedPortMask : UInt32
  devRxOffload : UInt64
  devTxOffload : UInt64
  mtuSize : UInt32
  frameBufSize : UInt32
  fragTblSz : UInt32
  /-- the lcores of `RTE_LCORE_FOREACH`, in order -/
  lcores : List UInt8
  /-- `rte_get_next_lcore(0, 0, 1)` -/
  nextLcore : UInt8

/-- The SAs of the configuration. -/
structure SaLists where
  saIn : List IpsecSa
  saOut : List IpsecSa

/-- `multi_seg_required`; with the headers of Ethernet and the headroom of an mbuf. -/
def multiSegRequired (conf : StartConf) : Bool :=
  conf.frameBufSize < conf.mtuSize + 14 + 4 + 128 || conf.fragTblSz != 0

/-- `(mask & (1 << port)) != 0`. -/
def inMask (mask : UInt32) (port : UInt16) : Bool :=
  mask &&& ((1 : UInt32) <<< port.toUInt32) != 0

/-! ## Checks -/

/-- `check_poll_mode_params`. -/
def checkPollModeParams (dev : EthDevices) (conf : StartConf) : Bool :=
  conf.eventMode || conf.configGiven && conf.lcoreParams.all fun p =>
    conf.lcores.contains p.lcoreId && inMask conf.enabledPortMask p.portId
      && dev.isValidPort p.portId

/-- `ev_mode_sess_verify`. -/
def evModeSessVerify (sas : List IpsecSa) : Bool :=
  sas.all fun sa => sa.primary.type == .inlineProtocol

/-- `check_event_mode_params`: the `lcore_params` from here on.  In event mode these
    are one queue for each port. -/
def checkEventModeParams (dev : EthDevices) (conf : StartConf) (sas : SaLists) :
    Option (List LcoreParams) :=
  if !conf.eventMode then if conf.schedTypeSet then none else some conf.lcoreParams
  else if !evModeSessVerify sas.saIn || !evModeSessVerify sas.saOut then none
  else if conf.lcoreParams ≠ [] then none
  else some ((dev.ports.filter (inMask conf.enabledPortMask)).map fun port =>
    ⟨port, 0, conf.nextLcore⟩)

/-- `get_port_nb_rx_queues`: the highest queue of the port, plus one, in eight
    bits. -/
def getPortNbRxQueues (params : List LcoreParams) (port : UInt16) : UInt8 :=
  UInt8.ofNat (params.foldl (fun queue p =>
    if p.portId = port ∧ queue < p.queueId.toNat then p.queueId.toNat else queue)
    (-1 : Int) + 1).toNat

/-! ## Offloads -/

/-- What an inbound SA asks of its port. -/
def rxOffload (port : UInt16) (rule : IpsecSa) : UInt64 :=
  if isInline rule.primary && rule.portid == port then rxOffloadSecurity else 0

/-- `IPV4_CKSUM`, where the port can do it. -/
def cksumCapa (info : EthDevInfo) : UInt64 :=
  if info.txOffloadCapa &&& txOffloadIpv4Cksum ≠ 0 then txOffloadIpv4Cksum else 0

/-- What an outbound SA asks of a port. -/
def txOffload (info : EthDevInfo) (port : UInt16) (rule : IpsecSa) : UInt64 :=
  if rule.portid = port then
    match rule.primary.type with
    | .inlineProtocol =>
        txOffloadSecurity
          ||| if rule.mss ≠ 0 then txOffloadTcpTso ||| txOffloadIpv4Cksum else 0
    | .inlineCrypto =>
        txOffloadSecurity ||| (if rule.mss ≠ 0 then txOffloadTcpTso else 0) ||| cksumCapa info
    | _ => cksumCapa info
  else cksumCapa info

/-- `sa_check_offloads` for Rx. -/
def reqRxOffloads (saIn : List IpsecSa) (port : UInt16) : UInt64 :=
  saIn.foldl (fun acc rule => acc ||| rxOffload port rule) 0

/-- `sa_check_offloads` for Tx. -/
def reqTxOffloads (saOut : List IpsecSa) (info : EthDevInfo) (port : UInt16) : UInt64 :=
  saOut.foldl (fun acc rule => acc ||| txOffload info port rule) 0

/-! ## A port -/

/-- A port as it has been configured, with the queues set up on it. -/
structure PortState where
  /-- `ethaddr_tbl[port].src` -/
  src : UInt64
  nbRxQueue : UInt8
  nbTxQueue : UInt16
  rxOffloads : UInt64
  txOffloads : UInt64
  rxQueues : List UInt8 := []
  txQueues : List UInt16 := []

/-- `tx_queue_id` of every lcore. -/
abbrev TxQueueIds := UInt8 → UInt16 → UInt16

/-- The receive queue is set up. -/
def rxQueueOne (dev : EthDevices) (port : UInt16) (s : PortState) (q : UInt16 × UInt8) :
    Option PortState :=
  if q.1 ≠ port then some s
  else if dev.rxQueueSetup port s.nbRxQueue q.2 then
    some { s with rxQueues := s.rxQueues ++ [q.2] }
  else none

/-- One round of the loop of `port_init` over the lcores: a Tx queue, and the Rx
    queues of the lcore on this port.  With it goes `tx_queueid`. -/
def lcoreQueues (dev : EthDevices) (qconf : RxQueues) (port : UInt16)
    (s : PortState × TxQueueIds × UInt16) (lcore : UInt8) :
    Option (PortState × TxQueueIds × UInt16) :=
  let txQueueid := s.2.2
  if dev.txQueueSetup port s.1.nbTxQueue txQueueid then do
    let p := { s.1 with txQueues := s.1.txQueues ++ [txQueueid] }
    let ids := Function.update s.2.1 lcore (Function.update (s.2.1 lcore) port txQueueid)
    let p ← (qconf lcore).foldlM (rxQueueOne dev port) p
    return (p, ids, txQueueid + 1)
  else none

/-- The offloads `port_init` asks for, before it looks at the capabilities. -/
def askedOffloads (conf : StartConf) (reqRx reqTx : UInt64) : UInt64 × UInt64 :=
  let multi := multiSegRequired conf
  ((rxOffloadChecksum ||| if multi then rxOffloadScatter else 0) ||| reqRx,
    (if multi then txOffloadMultiSegs else 0) ||| reqTx)

/-- What the port can do of `flag`. -/
def capable (capa flag : UInt64) : UInt64 := if capa &&& flag ≠ 0 then flag else 0

/-- `port_init`. -/
def portInit (dev : EthDevices) (conf : StartConf) (qconf : RxQueues) (ids : TxQueueIds)
    (port : UInt16) (reqRx reqTx : UInt64) : Option (PortState × TxQueueIds) := do
  let info ← dev.devInfo port
  let rxCapa := info.rxOffloadCapa &&& conf.devRxOffload
  let txCapa := info.txOffloadCapa &&& conf.devTxOffload
  let src ← dev.macaddr port
  let nbRxQueue := getPortNbRxQueues conf.lcoreParams port
  let nbTxQueue := UInt16.ofNat conf.lcores.length
  let asked := askedOffloads conf reqRx reqTx
  if info.maxRxQueues < nbRxQueue.toUInt16 ∨ info.maxTxQueues < nbTxQueue then none
  else if asked.1 &&& rxCapa ≠ asked.1 ∨ asked.2 &&& txCapa ≠ asked.2 then none
  else if !dev.configure port nbRxQueue nbTxQueue || !dev.adjustDesc port then none
  else do
    let s : PortState :=
      { src, nbRxQueue, nbTxQueue
        rxOffloads := asked.1
        txOffloads := asked.2 ||| capable txCapa txOffloadMbufFastFree
          ||| capable txCapa txOffloadIpv4Cksum }
    let r ← conf.lcores.foldlM (lcoreQueues dev qconf port) (s, ids, 0)
    return (r.1, r.2.1)

/-! ## All ports -/

/-- What `main` has set up. -/
structure Started where
  lcoreParams : List LcoreParams
  rxQueues : RxQueues
  ports : UInt16 → Option PortState := fun _ => none
  txQueueId : TxQueueIds := fun _ _ => 0
  reqRx : UInt16 → UInt64 := fun _ => 0
  cksumPortMask : UInt32 := 0
  /-- `outbound.ipv4_offloads` and `outbound.ipv6_offloads` of every lcore -/
  ipv4Offloads : UInt64 := 0
  ipv6Offloads : UInt64 := 0
  started : List UInt16 := []
  /-- `flow_info_tbl[].rx_def_flow` -/
  rxDefFlow : UInt16 → Bool := fun _ => false

/-- One round of the loop over the ports that configures them. -/
def initOne (dev : EthDevices) (conf : StartConf) (sas : SaLists) (s : Started)
    (port : UInt16) : Option Started :=
  if !inMask conf.enabledPortMask port then some s
  else do
    let info ← dev.devInfo port
    let reqRx := reqRxOffloads sas.saIn port
    let reqTx := reqTxOffloads sas.saOut info port
    let r ← portInit dev conf s.rxQueues s.txQueueId port reqRx reqTx
    return { s with
      ports := Function.update s.ports port (some r.1)
      txQueueId := r.2
      reqRx := Function.update s.reqRx port reqRx
      cksumPortMask :=
        if reqTx &&& txOffloadIpv4Cksum ≠ 0 then
          s.cksumPortMask ||| (1 : UInt32) <<< port.toUInt32
        else s.cksumPortMask }

/-- The offloads of the packets sent: the checksum of IPv4 is left to the NIC when
    all ports can do it. -/
def setOffloads (conf : StartConf) (s : Started) : Started :=
  { s with
    ipv4Offloads := txIpv4 ||| if s.cksumPortMask = conf.enabledPortMask then txIpCksum else 0
    ipv6Offloads := txIpv6 }

/-- `create_default_ipsec_flow`. -/
def createDefaultIpsecFlow (dev : EthDevices) (port : UInt16) (rxOffloads : UInt64)
    (s : Started) : Started :=
  if rxOffloads &&& rxOffloadSecurity = 0 then s
  else if dev.flow port then { s with rxDefFlow := Function.update s.rxDefFlow port true }
  else s

/-- One round of the loop that starts the ports. -/
def startOne (dev : EthDevices) (conf : StartConf) (s : Started) (port : UInt16) :
    Option Started :=
  if !inMask conf.enabledPortMask port then some s
  else if dev.start port then
    some (createDefaultIpsecFlow dev port (s.reqRx port)
      { s with started := s.started ++ [port] })
  else none

/-- `main`, as far as the ports go. -/
def startPorts (dev : EthDevices) (conf : StartConf) (sas : SaLists) : Option Started :=
  if conf.unprotectedPortMask &&& conf.enabledPortMask ≠ conf.unprotectedPortMask then none
  else if !checkPollModeParams dev conf then none
  else do
    let lcoreParams ← checkEventModeParams dev conf sas
    let rxQueues ← initLcoreRxQueues (fun _ => []) lcoreParams
    let s ← dev.ports.foldlM (initOne dev { conf with lcoreParams } sas)
      { lcoreParams, rxQueues }
    dev.ports.foldlM (startOne dev conf) (setOffloads conf s)

end PortInit
