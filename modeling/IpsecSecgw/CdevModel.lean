import Mathlib.Algebra.Group.Nat.Defs
import Mathlib.Logic.Function.Basic
import IpsecSecgw.SaModel

/-! # Ports, lcores and crypto queue pairs

    The start-up code that spreads crypto queue pairs over the lcores
    (`cryptodevs_init` with its mapping loop), the session an lcore creates
    the first time it meets an SA (`create_lookaside_session`), and the
    predicate both directions hang on (`is_unprotected_port`).

    Device ids and queue numbers are small and kept as numbers; ports and
    masks keep their width.  Inserting into the `cdev_map` hashes succeeds.
    A result `none` is `rte_exit`. -/

namespace CdevModel

open SaModel

/-! ## Ports -/

/-- `struct lcore_params`. -/
structure LcoreParams where
  portId : UInt16
  queueId : UInt8
  lcoreId : UInt8
  deriving DecidableEq, Inhabited

/-- `is_unprotected_port`: the masked bit, cut to the eight bits of the result
    type. -/
def isUnprotectedPort (mask : UInt32) (portId : UInt16) : UInt8 :=
  (mask &&& ((1 : UInt32) <<< portId.toUInt32)).toUInt8

/-- The direction `add_cdev_mapping` registers the queues of a port for. -/
def mappingDirection (mask : UInt32) (portId : UInt16) : Direction :=
  if mask &&& ((1 : UInt32) <<< portId.toUInt32) = 0 then .egress else .ingress

/-- The four handlers of `process_pkts`. -/
inductive Handler
  | inboundNosp
  | outboundNosp
  | inbound
  | outbound
  deriving DecidableEq, Repr

/-- The direction of the context a handler works on. -/
def Handler.direction : Handler → Direction
  | .inboundNosp | .inbound => .ingress
  | .outboundNosp | .outbound => .egress

/-- `process_pkts`: the handler of a port's packets. -/
def processPkts (mask : UInt32) (singleSa : Bool) (portId : UInt16) : Handler :=
  if singleSa then
    if isUnprotectedPort mask portId ≠ 0 then .inboundNosp else .outboundNosp
  else
    if isUnprotectedPort mask portId ≠ 0 then .inbound else .outbound

/-- The crypto queues `ipsec_poll_mode_worker` drains after a port. -/
def drainCryptoQueues (mask : UInt32) (portId : UInt16) : Direction :=
  if isUnprotectedPort mask portId ≠ 0 then .ingress else .egress

/-- `MAX_RX_QUEUE_PER_LCORE`. -/
def maxRxQueuePerLcore : Nat := 16

/-- The receive queues of every lcore: port and queue. -/
abbrev RxQueues := UInt8 → List (UInt16 × UInt8)

/-- `init_lcore_rx_queues` from a state of the queue lists; `none` when an
    lcore has too many. -/
def initLcoreRxQueues (conf : RxQueues) : List LcoreParams → Option RxQueues
  | [] => some conf
  | p :: ps =>
      if maxRxQueuePerLcore ≤ (conf p.lcoreId).length then none
      else
        initLcoreRxQueues (Function.update conf p.lcoreId
          (conf p.lcoreId ++ [(p.portId, p.queueId)])) ps

/-- What `ipsec_poll_mode_worker` does with one receive queue of its list. -/
structure PortRound where
  portId : UInt16
  handler : Handler
  drained : Direction
  deriving DecidableEq

/-- One pass of `ipsec_poll_mode_worker` over the receive queues of `lcore`. -/
def ipsecPollModeWorker (mask : UInt32) (singleSa : Bool) (conf : RxQueues)
    (lcore : UInt8) : List PortRound :=
  (conf lcore).map fun q =>
    ⟨q.1, processPkts mask singleSa q.1, drainCryptoQueues mask q.1⟩

/-! ## Devices -/

/-- `enum rte_crypto_op_type`, without the value that ends a list. -/
inductive OpType
  | symmetric
  | asymmetric
  deriving DecidableEq, Repr

/-- `enum rte_crypto_sym_xform_type`. -/
inductive XformType
  | notSpecified
  | auth
  | cipher
  | aead
  deriving DecidableEq, Repr

/-- A capability up to the end mark of the list; of the algorithm the low
    byte is read. -/
structure Capability where
  op : OpType
  xformType : XformType
  algo : UInt8
  deriving DecidableEq

/-- The fields of `struct rte_cryptodev_info` that are read. -/
structure CryptodevInfo where
  capabilities : List Capability
  /-- `RTE_CRYPTODEV_FF_SYM_OPERATION_CHAINING` -/
  symOperationChaining : Bool
  /-- `RTE_CRYPTODEV_FF_IN_PLACE_SGL` -/
  inPlaceSgl : Bool
  maxNbQueuePairs : Nat
  maxNbSessions : Nat

/-- `struct cdev_key`. -/
structure CdevKey where
  lcoreId : UInt8
  cipherAlgo : UInt8 := 0
  authAlgo : UInt8 := 0
  aeadAlgo : UInt8 := 0
  deriving DecidableEq

/-- `id` and `qp` of `struct cdev_qp`. -/
structure CdevQp where
  id : Nat
  qp : Nat
  deriving DecidableEq, Inhabited

/-- `MAX_QP_PER_LCORE`. -/
def maxQpPerLcore : Nat := 256

/-- The queue tables: `tbl[0..nb_qps)` of both contexts of every lcore, and
    the two hashes `cdev_map_in` and `cdev_map_out`. -/
structure QueueTables where
  tbl : UInt8 → Direction → List CdevQp
  map : Direction → CdevKey → Option Nat

/-- Zeroed contexts and fresh hashes. -/
def QueueTables.empty : QueueTables := ⟨fun _ _ => [], fun _ _ => none⟩

/-- `rte_hash_add_key_data`. -/
def QueueTables.insert (t : QueueTables) (dir : Direction) (key : CdevKey)
    (i : Nat) : QueueTables :=
  { t with
    map := Function.update t.map dir (Function.update (t.map dir) key (some i)) }

/-- A new last entry in one table. -/
def QueueTables.append (t : QueueTables) (lcore : UInt8) (dir : Direction)
    (e : CdevQp) : QueueTables :=
  { t with
    tbl := Function.update t.tbl lcore
      (Function.update (t.tbl lcore) dir (t.tbl lcore dir ++ [e])) }

/-- The key `add_mapping` builds. -/
def mappingKey (params : LcoreParams) (cipher auth aead : Option Capability) :
    CdevKey where
  lcoreId := params.lcoreId
  cipherAlgo := (cipher.map Capability.algo).getD 0
  authAlgo := (auth.map Capability.algo).getD 0
  aeadAlgo := (aead.map Capability.algo).getD 0

/-- `add_mapping`. -/
def addMapping (dir : Direction) (cdevId qp : Nat) (params : LcoreParams)
    (cipher auth aead : Option Capability) (t : QueueTables) :
    Bool × QueueTables :=
  let key := mappingKey params cipher auth aead
  match t.map dir key with
  | some _ => (false, t)
  | none =>
      let tbl := t.tbl params.lcoreId dir
      let i := tbl.findIdx fun e => e.id == cdevId
      if i = tbl.length then
        if tbl.length = maxQpPerLcore then (false, t)
        else
          (true, (t.append params.lcoreId dir ⟨cdevId, qp⟩).insert dir key i)
      else (true, t.insert dir key i)

/-- `ret |= add_mapping(...)`. -/
def orMapping (r : Bool × QueueTables)
    (f : QueueTables → Bool × QueueTables) : Bool × QueueTables :=
  (r.1 || (f r.2).1, (f r.2).2)

/-- The inner loop of `add_cdev_mapping`: every authentication algorithm with
    the cipher `i`. -/
def addCipherMappings (dir : Direction) (dev : CryptodevInfo) (cdevId qp : Nat)
    (params : LcoreParams) (i : Capability) (r : Bool × QueueTables) :
    Bool × QueueTables :=
  dev.capabilities.foldl (fun r j =>
    if j.op ≠ .symmetric then r
    else if j.xformType ≠ .auth then r
    else orMapping r (addMapping dir cdevId qp params (some i) (some j) none)) r

/-- `add_cdev_mapping`. -/
def addCdevMapping (mask : UInt32) (dev : CryptodevInfo) (cdevId qp : Nat)
    (params : LcoreParams) (t : QueueTables) : Bool × QueueTables :=
  let dir := mappingDirection mask params.portId
  if !dev.symOperationChaining then (false, t)
  else
    dev.capabilities.foldl (fun r i =>
      if i.op ≠ .symmetric then r
      else if i.xformType = .aead then
        orMapping r (addMapping dir cdevId qp params none none (some i))
      else if i.xformType ≠ .cipher then r
      else addCipherMappings dir dev cdevId qp params i r) (false, t)

/-- The mapping loop of `cryptodevs_init` for one device, with `n` rounds
    left: the queue pairs used, the next place in `lcore_params`, the
    tables. -/
def mapQueuePairs (mask : UInt32) (dev : CryptodevInfo) (cdevId maxNbQps : Nat)
    (lcoreParams : List LcoreParams) :
    Nat → Nat → Nat → QueueTables → Nat × Nat × QueueTables
  | 0, qp, idx, t => (qp, idx, t)
  | n + 1, qp, idx, t =>
      if qp < maxNbQps then
        let r := addCdevMapping mask dev cdevId qp (lcoreParams.getD idx default) t
        mapQueuePairs mask dev cdevId maxNbQps lcoreParams n
          (if r.1 then qp + 1 else qp) ((idx + 1) % lcoreParams.length) r.2
      else (qp, idx, t)

/-- The command line: the unprotected ports, the enabled devices, whether
    packets can be segmented, and the number of sessions needed. -/
structure CdevConf where
  unprotectedPortMask : UInt32
  enabledCryptodevMask : UInt64
  multiSegRequired : Bool
  nbCryptoSessions : Nat

/-- `check_cryptodev_mask`: the shifted 1 is an `int`, widened with its
    sign. -/
def checkCryptodevMask (mask : UInt64) (cdevId : Nat) : Bool :=
  mask &&& ((1 : Int32) <<< Int32.ofNat cdevId).toInt64.toUInt64 != 0

/-- What `cryptodevs_init` carries from device to device. -/
structure InitState where
  idx : Nat := 0
  totalNbQps : Nat := 0
  tables : QueueTables := QueueTables.empty
  /-- `nb_queue_pairs` of every configured device -/
  nbQueuePairs : Nat → Option Nat := fun _ => none

/-- The body of the loop of `cryptodevs_init`; `none` where the program
    exits. -/
def initCdev (conf : CdevConf) (reqQueueNum : Nat)
    (lcoreParams : List LcoreParams) (cdevId : Nat) (dev : CryptodevInfo)
    (s : InitState) : Option InitState :=
  if !checkCryptodevMask conf.enabledCryptodevMask cdevId then some s
  else if conf.multiSegRequired && !dev.inPlaceSgl then none
  else
    let maxNbQps := min lcoreParams.length dev.maxNbQueuePairs
    let r := mapQueuePairs conf.unprotectedPortMask dev cdevId maxNbQps
      lcoreParams lcoreParams.length 0 s.idx s.tables
    let qp := min maxNbQps (max reqQueueNum r.1)
    if qp = 0 then some { s with idx := r.2.1, tables := r.2.2 }
    else if dev.maxNbSessions ≠ 0 ∧ dev.maxNbSessions < conf.nbCryptoSessions then
      none
    else
      some
        { idx := r.2.1
          totalNbQps := (s.totalNbQps + qp) % 0x10000
          tables := r.2.2
          nbQueuePairs := Function.update s.nbQueuePairs cdevId (some qp) }

/-- The loop of `cryptodevs_init` from device `cdevId` on. -/
def cryptodevsLoop (conf : CdevConf) (reqQueueNum : Nat)
    (lcoreParams : List LcoreParams) :
    Nat → List CryptodevInfo → InitState → Option InitState
  | _, [], s => some s
  | cdevId, dev :: devs, s =>
      match initCdev conf reqQueueNum lcoreParams cdevId dev s with
      | none => none
      | some s => cryptodevsLoop conf reqQueueNum lcoreParams (cdevId + 1) devs s

/-- `cryptodevs_init`. -/
def cryptodevsInit (conf : CdevConf) (reqQueueNum : Nat)
    (lcoreParams : List LcoreParams) (devs : List CryptodevInfo) :
    Option InitState :=
  cryptodevsLoop conf reqQueueNum lcoreParams 0 devs {}

end CdevModel
