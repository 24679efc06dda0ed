import IpsecSecgw.SecgwModel

/-! # The main loop of a poll lcore

    `ipsec-secgw.c`, from `ipsec_poll_mode_worker` down: a round of the loop over
    the receive queues, the paths of single-SA mode, routing, the transmit
    buffers and the drains, on the two contexts of one lcore.

    The answers of the NIC (how many packets of a burst it takes), of the KNI
    and of the fragmentation library are parameters of `LcoreConf`. -/

namespace SecgwModel

open ByteStore SaModel MbufModel SadModel CdevModel Esp IpsecModel WorkerModel

/-! ## Data -/

/-- What routing and transmission read, and what they ask the libraries. -/
structure TxConf where
  /-- `mtu_size`, `frag_tbl_sz` -/
  mtuSize : Nat
  fragTblSz : Nat
  /-- `rte_ipv4_fragment_packet` and `rte_ipv6_fragment_packet` with room for so
      many fragments; `none` is an error -/
  fragment : World → PktId → Nat → Option (List PktId)
  rt : RouteTable
  /-- `outbound.ipv4_offloads`, `outbound.ipv6_offloads` -/
  ipv4Offloads : UInt64
  ipv6Offloads : UInt64
  /-- `rte_ipv4_cksum` of the header at an address -/
  ipv4Cksum : (Nat → UInt8) → Nat → List UInt8
  /-- `ethaddr_tbl`: source and destination of a port -/
  ethaddrTbl : Nat → List UInt8 × List UInt8
  /-- `rte_eth_tx_burst`: how many packets the NIC takes -/
  txTake : Nat → Nat

/-- What a lcore is given at its start. -/
structure LcoreConf where
  poll : PollConf
  tx : TxConf
  lib : CryptoGroup
  inCtx : EvCtx
  outCtx : EvCtx
  sad : PktId → Option SaPtr
  /-- `single_sa`, `single_sa_idx` -/
  singleSa : Bool
  singleSaIdx : UInt32
  /-- `is_unprotected_port` -/
  unprotected : UInt16 → Bool
  /-- `ipEncryptorType.client_port` -/
  clientPort : UInt16
  /-- `rte_kni_tx_burst` -/
  kni : List PktId → PktId → Bool

/-- `struct lcore_conf`, the counters of the lcore, and the memory it shares;
    `core_statistics[lcore].dropped` is `world.dropped`.  `sent` and `fragmented`
    are logs of the packets given to a NIC and cut into fragments. -/
structure Lcore where
  inbound : IpsecCtx
  outbound : IpsecCtx
  world : World
  txMbufs : Nat → List PktId := fun _ => []
  inStats : DirStats := {}
  outStats : DirStats := {}
  lpm4Miss : Nat := 0
  lpm6Miss : Nat := 0
  rx : Nat := 0
  tx : Nat := 0
  sent : List (PktId × Nat) := []
  fragmented : List PktId := []

/-- `RTE_MAX_ETHPORTS` as a number of ports. -/
def maxEthports : Nat := 32

/-- `RTE_LIBRTE_IP_FRAG_MAX_FRAG`. -/
def ipFragMaxFrag : Nat := 4

/-! ## Transmission -/

/-- `RTE_MBUF_F_TX_IP_CKSUM`. -/
def txIpCksum : UInt64 := (1 : UInt64) <<< 54

/-- `prepare_tx_pkt`; `none` where a packet without room for the Ethernet header
    makes the code write through a null pointer. -/
def prepareTxPkt (tx : TxConf) (port : Nat) (m : Mbuf) : Option Mbuf :=
  let ip := m.dataOff
  match rtePktmbufPrepend m rteEtherHdrLen with
  | none => none
  | some (eth, m) =>
      let r :=
        if ipV m.buf ip = 4 then
          let m := { m with
            olFlags := m.olFlags ||| tx.ipv4Offloads
            l3Len := ipv4HdrLen
            l2Len := rteEtherHdrLen }
          let m := m.write (ip + 10) [0, 0]
          (etherTypeIpv4,
            if m.olFlags &&& txIpCksum = 0 then
              m.write (ip + 10) (tx.ipv4Cksum m.buf ip)
            else m)
        else
          (etherTypeIpv6,
            { m with
              olFlags := m.olFlags ||| tx.ipv6Offloads
              l3Len := ipv6HdrLen
              l2Len := rteEtherHdrLen })
      let m := r.2.write (eth + 12) (toBe 2 r.1)
      let e := tx.ethaddrTbl port
      some ((m.write (eth + 6) e.1).write eth e.2)

/-- One round of the loops of `prepare_tx_burst`. -/
def prepareTxOne (tx : TxConf) (port : Nat) (w : World) (p : PktId) :
    Except Fault World :=
  match prepareTxPkt tx port (w.mbuf p) with
  | none => .error .null
  | some m => .ok (w.modify p fun _ => m)

/-- `send_burst` on the whole table of a port. -/
def sendBurst (tx : TxConf) (port : Nat) (s : Lcore) : Except Fault Lcore := do
  let tbl := s.txMbufs port
  let w ← tbl.foldlM (prepareTxOne tx port) s.world
  let ret := min (tx.txTake w.tick) tbl.length
  return { s with
    world := w.next.freePkts (tbl.drop ret)
    tx := s.tx + ret
    sent := s.sent ++ (tbl.take ret).map (·, port) }

/-- The table of a port is replaced. -/
def Lcore.setTx (s : Lcore) (port : Nat) (tbl : List PktId) : Lcore :=
  { s with txMbufs := Function.update s.txMbufs port tbl }

/-- The table of a port is sent and emptied. -/
def flushTx (tx : TxConf) (port : Nat) (s : Lcore) : Except Fault Lcore := do
  let s ← sendBurst tx port s
  return s.setTx port []

/-- `send_fragment_packet`: the fragments join the table, the packet is freed. -/
def sendFragmentPacket (tx : TxConf) (m : PktId) (port : Nat) (s : Lcore) :
    Except Fault Lcore := do
  let s ←
    if maxPktBurst ≤ (s.txMbufs port).length + ipFragMaxFrag then flushTx tx port s
    else pure s
  let tbl := s.txMbufs port
  let frags := (tx.fragment s.world m (maxPktBurst - tbl.length)).getD []
  return { s.setTx port (tbl ++ frags) with
    world := s.world.freePkts [m]
    fragmented := s.fragmented ++ [m] }

/-- `send_single_packet`. -/
def sendSinglePacket (tx : TxConf) (m : PktId) (port : Nat) (s : Lcore) :
    Except Fault Lcore :=
  if maxEthports ≤ port then .error .bufIndex
  else do
    let s ←
      if (s.world.mbuf m).dataLen ≤ tx.mtuSize then
        pure (s.setTx port (s.txMbufs port ++ [m]))
      else if 0 < tx.fragTblSz then sendFragmentPacket tx m port s
      else pure { s with world := s.world.freePkts [m] }
    if (s.txMbufs port).length = maxPktBurst then flushTx tx port s else pure s

/-! ## Routing -/

/-- `get_hop_for_offload_pkt`: the port of the SA, if there is one. -/
def getHopForOffloadPkt (w : World) (m : PktId) : Option Nat :=
  (w.mbuf m).priv.sa.map fun p => (w.sa p).portid.toNat

/-- The hop of a packet: that of the SA, or what the lookup finds. -/
def pktHop (w : World) (lookup : Mbuf → Option Nat) (m : PktId) : Option Nat :=
  if (w.mbuf m).olFlags &&& txSecOffload ≠ 0 then getHopForOffloadPkt w m
  else lookup (w.mbuf m)

/-- `rte_lpm_lookup_bulk` on the destination of a packet. -/
def lpm4Hop (rt : RouteTable) (m : Mbuf) : Option Nat :=
  (rt.rt4 (UInt32.ofNat (ofBe (load m.buf (m.dataOff + 16) 4)))).map
    UInt32.toNat

/-- `rte_lpm6_lookup_bulk_func`. -/
def lpm6Hop (rt : RouteTable) (m : Mbuf) : Option Nat :=
  (rt.rt6 (load m.buf (m.dataOff + 24) 16)).map UInt32.toNat

/-- `pkt_hop & 0xff`. -/
def hopPort (hop : Nat) : Nat := hop % 0x100

/-- One round of the second loop of `route4_pkts`. -/
def route4One (tx : TxConf) (s : Lcore) (x : PktId × Option Nat) :
    Except Fault Lcore :=
  match x.2 with
  | none =>
      .ok { s with
        world := s.world.freePkts [x.1]
        lpm4Miss := s.lpm4Miss + 1 }
  | some hop => sendSinglePacket tx x.1 (hopPort hop) s

/-- `route4_pkts`. -/
def route4Pkts (tx : TxConf) (pkts : List PktId) (s : Lcore) :
    Except Fault Lcore :=
  (pkts.map fun m => (m, pktHop s.world (lpm4Hop tx.rt) m)).foldlM
    (route4One tx) s

/-- One round of the second loop of `route6_pkts`. -/
def route6One (tx : TxConf) (s : Lcore) (x : PktId × Option Nat) :
    Except Fault Lcore :=
  match x.2 with
  | none =>
      .ok { s with
        world := s.world.freePkts [x.1]
        lpm6Miss := s.lpm6Miss + 1 }
  | some hop => sendSinglePacket tx x.1 (hopPort hop) s

/-- `route6_pkts`. -/
def route6Pkts (tx : TxConf) (pkts : List PktId) (s : Lcore) :
    Except Fault Lcore :=
  (pkts.map fun m => (m, pktHop s.world (lpm6Hop tx.rt) m)).foldlM
    (route6One tx) s

/-- Both families. -/
def routePkts (tx : TxConf) (trf : Traffic) (s : Lcore) : Except Fault Lcore := do
  let s ← route4Pkts tx trf.ip4 s
  route6Pkts tx trf.ip6 s

/-! ## Single-SA mode -/

/-- `process_pkts_inbound_nosp`. -/
def processPktsInboundNosp (env : Env) (conf : PollConf)
    (sad : PktId → Option SaPtr) (t : Burst) (s : State) :
    Except Fault (Traffic × State) := do
  let burst := inboundSaLookup sad s.2 t.ipsec
  if conf.enable then ipsecProcess env burst t.trf s
  else
    let (pkts, s) ← ipsecBurst env espInboundFn espInboundPostFn burst maxPktBurst s
    return (pkts.foldl (appendOne s.2) t.trf, s)

/-- `process_pkts_outbound_nosp`.  The family of all packets is that of
    `ipsec.pkts[0]`: the first packet delivered, else the first one passed in,
    else a packet the array has held before; with none of these a wild
    pointer. -/
def processPktsOutboundNosp (env : Env) (conf : PollConf) (saCtx : SaCtx)
    (saIdx : UInt32) (t : Burst) (s : State) :
    Except Fault (Traffic × State) := do
  let plain := t.trf.ip4 ++ t.trf.ip6
  let burst := outboundSaLookup saCtx (plain.map (·, saIdx))
  let s := (s.1, s.2.freePkts t.ipsec)
  if conf.enable then ipsecProcess env burst {} s
  else
    let (pkts, s) ← ipsecBurst env espOutbound espOutboundPostFn burst maxPktBurst s
    match (pkts ++ plain ++ t.ipsec).head? with
    | none => .error .null
    | some m =>
        if ipV (s.2.mbuf m).buf (s.2.mbuf m).dataOff = 4 then
          return ({ ip4 := pkts }, s)
        else return ({ ip6 := pkts }, s)

/-! ## The loop -/

/-- The part of `process_pkts` up to routing, on the burst of an unprotected
    port. -/
def processInbound (env : Env) (cfg : LcoreConf) (t : Burst) (s : Lcore) :
    Except Fault (Traffic × Lcore) :=
  if cfg.singleSa then do
    let (trf, r) ← processPktsInboundNosp env cfg.poll cfg.sad t
      (s.inbound, s.world)
    return (trf, { s with inbound := r.1, world := r.2 })
  else do
    let (trf, stats, r) ← processPktsInbound env cfg.poll cfg.inCtx cfg.sad t
      s.inStats (s.inbound, s.world)
    return (trf, { s with inbound := r.1, world := r.2, inStats := stats })

/-- The same on the burst of a protected port. -/
def processOutbound (env : Env) (cfg : LcoreConf) (t : Burst) (s : Lcore) :
    Except Fault (Traffic × Lcore) :=
  if cfg.singleSa then do
    let (trf, r) ← processPktsOutboundNosp env cfg.poll cfg.outCtx.saCtx
      cfg.singleSaIdx t (s.outbound, s.world)
    return (trf, { s with outbound := r.1, world := r.2 })
  else do
    let (trf, stats, r) ← processPktsOutbound env cfg.poll cfg.outCtx t
      s.outStats (s.outbound, s.world)
    return (trf, { s with outbound := r.1, world := r.2, outStats := stats })

/-- `process_pkts`. -/
def processPkts (env : Env) (cfg : LcoreConf) (pkts : List PktId) (port : UInt16)
    (s : Lcore) : Except Fault Lcore := do
  let (t, w) ← prepareTraffic cfg.poll pkts s.world
  let s := { s with world := w }
  let (trf, s) ←
    if cfg.unprotected port then processInbound env cfg t s
    else processOutbound env cfg t s
  routePkts cfg.tx trf s

/-- `drain_inbound_crypto_queues` with the routing behind it. -/
def drainInbound (env : Env) (cfg : LcoreConf) (s : Lcore) : Except Fault Lcore := do
  let (trf, stats, r) ← drainInboundCryptoQueues env cfg.lib cfg.poll cfg.inCtx
    s.inStats (s.inbound, s.world)
  routePkts cfg.tx trf { s with inbound := r.1, world := r.2, inStats := stats }

/-- `drain_outbound_crypto_queues` with the routing behind it. -/
def drainOutbound (env : Env) (cfg : LcoreConf) (s : Lcore) : Except Fault Lcore := do
  let (trf, r) ← drainOutboundCryptoQueues env cfg.lib cfg.poll
    (s.outbound, s.world)
  routePkts cfg.tx trf { s with outbound := r.1, world := r.2 }

/-- `drain_tx_buffers`: tables with packets are sent, port by port. -/
def drainTxBuffers (tx : TxConf) (s : Lcore) : Except Fault Lcore :=
  (List.range maxEthports).foldlM
    (fun s port => if s.txMbufs port = [] then pure s else flushTx tx port s) s

/-- The drains a lcore makes from time to time. -/
def drainBuffers (env : Env) (cfg : LcoreConf) (s : Lcore) : Except Fault Lcore := do
  let s ← drainTxBuffers cfg.tx s
  let r := drainCryptoBuffers env (s.inbound, s.world)
  let r' := drainCryptoBuffers env (s.outbound, r.2)
  return { s with inbound := r.1, outbound := r'.1, world := r'.2 }

/-- What a lcore does with a burst: IKE packets leave for the KNI, the others
    are counted and processed. -/
def receiveBurst (env : Env) (cfg : LcoreConf) (port : UInt16)
    (pkts : List PktId) (s : Lcore) : Except Fault Lcore :=
  let r :=
    if port ≠ cfg.clientPort then
      let f := filterIkePackets cfg.kni pkts s.world
      (f.1.pktsNew, f.2)
    else (pkts, s.world)
  processPkts env cfg r.1 port { s with world := r.2, rx := s.rx + r.1.length }

/-- One round of the loop over the receive queues: `mbufs` are the packets the
    NIC has put into the mbufs of the burst. -/
def pollQueue (env : Env) (cfg : LcoreConf) (port : UInt16) (pkts : List PktId)
    (mbufs : PktId → Mbuf) (s : Lcore) : Except Fault Lcore := do
  let s := { s with world := s.world.modifyAll pkts fun p _ => mbufs p }
  let s ← if pkts = [] then pure s else receiveBurst env cfg port pkts s
  if cfg.unprotected port then drainInbound env cfg s else drainOutbound env cfg s

/-- A lcore behind `cryptodevs_init`. -/
def Lcore.start (t : QueueTables) (lcore : UInt8) (w : World) : Lcore where
  inbound := IpsecCtx.ofTables t lcore .ingress
  outbound := IpsecCtx.ofTables t lcore .egress
  world := w

end SecgwModel
