import IpsecSecgw.CdevModel
import IpsecSecgw.EspModel
import IpsecSecgw.SadModel

/-! # Crypto processing of a lcore

    `ipsec.c` and `ipsec_process.c`: how packets get from a burst into the
    crypto queues of a lcore and back, on the legacy path (`ipsec_enqueue`,
    `ipsec_inline_dequeue`, `ipsec_dequeue`) and on the `librte_ipsec` path
    (`ipsec_process`, `ipsec_cqp_process`).

    A packet is known by the number of its mbuf; a crypto operation by the
    packet it points to.  What lies outside the program is asked from `Env`,
    one answer for each time it is asked (`tick`): how much of a burst a device
    takes, what it gives back, whether a session object is there, which packets
    `librte_ipsec` accepts.

    `World` keeps logs besides the state of the program: of every queue pair, of
    the calls of `librte_ipsec`, of the sessions operations are queued with, of
    the packets that have been processed.
    What C leaves undefined ends a computation with a `Fault`. -/

namespace IpsecModel

open SaModel MbufModel SadModel CdevModel Esp Slots

/-! ## World -/

/-- The number of a mbuf. -/
abbrev PktId := Nat

/-- A pointer to an SA with its least significant bit,
    `IPSEC_SA_OFFLOAD_FALLBACK_FLAG`. -/
abbrev SaRef := SaPtr × Bool

/-- The ways a computation can go wrong: an index behind the end of a queue's
    buffer or of the offload array, a null pointer, a loop without end. -/
inductive Fault
  | bufIndex
  | olIndex
  | null
  | endless
  deriving DecidableEq, Repr

/-- `MAX_PKT_BURST`. -/
def maxPktBurst : Nat := 32

/-- `CDEV_QUEUE_DESC`: what a queue pair is set up to hold. -/
def cdevQueueDesc : Nat := 2048

/-- A queue pair of a crypto device: the operations it holds, and the log of
    all operations handed to its buffer, offered to the device (with its
    answer) and given back by it. -/
structure QueuePair where
  held : List PktId := []
  submitted : List PktId := []
  offered : List (PktId × Bool) := []
  returned : List PktId := []

/-- Numbers of `rte_ipsec_sa_type`: direction, IP version, mode. -/
structure Satp where
  inbound : Bool
  ipv4 : Bool
  transport : Bool
  tunlv4 : Bool

/-- Operations put into a queue: their SA and the session they carry, the number
    of the queue, how many queues the context has, and the device the queue
    belongs to. -/
structure QueueUse where
  pkts : List PktId
  sa : SaPtr
  ses : Option SesId
  index : Nat
  nbQps : Nat
  dev : Nat

/-- The memory all lcores share, and the devices. -/
structure World where
  mbuf : PktId → Mbuf
  sa : SaPtr → IpsecSa
  pair : CdevQp → QueuePair := fun _ => {}
  /-- the device a session was initialised on -/
  sesDev : SesId → Nat := fun _ => 0
  nextSes : SesId := 0
  freed : List PktId := []
  /-- `core_statistics[lcore].dropped` of the lcore that is looked at -/
  dropped : Nat := 0
  /-- the packets `free_cops` has freed there -/
  copsFreed : List PktId := []
  /-- the groups given to sessions of `librte_ipsec` -/
  handled : List (List PktId × SaRef) := []
  queued : List QueueUse := []
  /-- the packets whose processing by a session of an SA has succeeded, with the
      type of the session -/
  processed : List (PktId × SaRef × ActionType) := []
  tick : Nat := 0

/-- What the program is given from outside. -/
structure Env where
  /-- `rte_lcore_id` -/
  lcoreId : UInt8
  /-- the numbers of the algorithm enumerations -/
  cipherCode : CipherAlgo → UInt8
  authCode : AuthAlgo → UInt8
  aeadCode : AeadAlgo → UInt8
  /-- how many operations of a burst the device takes -/
  accept : Nat → Nat
  /-- how many operations the device gives back -/
  ready : Nat → Nat
  /-- the packet of an operation when the device is done with it -/
  complete : Nat → PktId → Mbuf → Mbuf
  /-- is there a session object left? -/
  newSession : Nat → Bool
  /-- `RTE_CRYPTODEV_FF_SYM_CPU_CRYPTO` of a device -/
  cpuCrypto : Nat → Bool
  /-- `rte_ipsec_session_prepare` -/
  sessionPrepare : Nat → Int
  /-- `rte_ipsec_pkt_crypto_prepare`, `rte_ipsec_pkt_process` and
      `rte_ipsec_pkt_cpu_prepare`: the group with the accepted packets in
      front, and their number -/
  handle : World → SaRef → List PktId → List PktId × Nat
  /-- what they do to a packet -/
  touch : World → SaRef → PktId → Mbuf → Mbuf
  /-- `rte_ipsec_sa_type` of the session's SA -/
  saType : SaPtr → Bool → Satp
  handle_perm : ∀ w ref l, (handle w ref l).1.Perm l
  handle_le : ∀ w ref l, (handle w ref l).2 ≤ l.length

/-- Write a mbuf. -/
def World.modify (w : World) (p : PktId) (f : Mbuf → Mbuf) : World :=
  { w with mbuf := Function.update w.mbuf p (f (w.mbuf p)) }

/-- Write an SA. -/
def World.modifySa (w : World) (p : SaPtr) (f : IpsecSa → IpsecSa) : World :=
  { w with sa := Function.update w.sa p (f (w.sa p)) }

/-- Write every mbuf of a list. -/
def World.modifyAll (w : World) (ps : List PktId) (f : PktId → Mbuf → Mbuf) :
    World :=
  ps.foldl (fun w p => w.modify p (f p)) w

/-- `free_pkts`: the packets are counted. -/
def World.freePkts (w : World) (ps : List PktId) : World :=
  { w with freed := w.freed ++ ps, dropped := w.dropped + ps.length }

/-- `free_cops`: they are not. -/
def World.freeCops (w : World) (ps : List PktId) : World :=
  { w with freed := w.freed ++ ps, copsFreed := w.copsFreed ++ ps }

/-- `rte_pktmbuf_free` alone. -/
def World.freeMbufs (w : World) (ps : List PktId) : World :=
  { w with freed := w.freed ++ ps }

/-- The next question to the environment. -/
def World.next (w : World) : World := { w with tick := w.tick + 1 }

/-! ## Queues -/

/-- `struct cdev_qp`; `buf` is the used part of the array. -/
structure CdevQueue extends CdevQp where
  inFlight : Nat := 0
  buf : List PktId := []

instance : Inhabited CdevQueue := ⟨{ id := 0, qp := 0 }⟩

/-- `rte_cryptodev_enqueue_burst`: the device takes operations from the
    front, never more than it has room for. -/
def rteCryptodevEnqueueBurst (env : Env) (key : CdevQp) (ops : List PktId)
    (w : World) : Nat × World :=
  let p := w.pair key
  let n := min (env.accept w.tick)
    (min ops.length (cdevQueueDesc - p.held.length))
  (n,
    { w.next with
      pair := Function.update w.pair key
        { p with
          held := p.held ++ ops.take n
          offered := p.offered ++ (ops.take n).map (·, true)
            ++ (ops.drop n).map (·, false) } })

/-- `rte_cryptodev_dequeue_burst`: the oldest operations, at most `num`. -/
def rteCryptodevDequeueBurst (env : Env) (key : CdevQp) (num : Nat)
    (w : World) : List PktId × World :=
  let p := w.pair key
  let n := min (env.ready w.tick) (min num p.held.length)
  (p.held.take n,
    ({ w.next with
      pair := Function.update w.pair key
        { p with
          held := p.held.drop n
          returned := p.returned ++ p.held.take n } }).modifyAll
      (p.held.take n) (env.complete w.tick))

/-- `enqueue_cop_burst`. -/
def enqueueCopBurst (env : Env) (q : CdevQueue) (w : World) :
    CdevQueue × World :=
  let r := rteCryptodevEnqueueBurst env q.toCdevQp q.buf w
  ({ q with inFlight := (q.inFlight + r.1) % 0x10000, buf := [] },
    r.2.freePkts (q.buf.drop r.1))

/-- An operation is handed to the buffer of a queue pair. -/
def World.submit (w : World) (key : CdevQp) (ops : List PktId) : World :=
  { w with
    pair := Function.update w.pair key
      { w.pair key with submitted := (w.pair key).submitted ++ ops } }

/-- `enqueue_cop`. -/
def enqueueCop (env : Env) (cop : PktId) (q : CdevQueue) (w : World) :
    Except Fault (CdevQueue × World) :=
  if maxPktBurst ≤ q.buf.length then .error .bufIndex
  else
    let w := w.submit q.toCdevQp [cop]
    let q := { q with buf := q.buf ++ [cop] }
    if q.buf.length = maxPktBurst then .ok (enqueueCopBurst env q w)
    else .ok (q, w)

/-- A full buffer is offered to the device in `enqueue_cop_bulk`. -/
def enqueueCopFull (env : Env) (q : CdevQueue) (w : World) :
    CdevQueue × World :=
  let r := rteCryptodevEnqueueBurst env q.toCdevQp q.buf w
  ({ q with inFlight := (q.inFlight + r.1) % 0x10000, buf := [] },
    r.2.freeCops (q.buf.drop r.1))

/-- The loop of `enqueue_cop_bulk` with at most so many rounds; `cops` are the
    operations from `k` on. -/
def copBulkLoop (env : Env) :
    Nat → List PktId → CdevQueue → World → Except Fault (CdevQueue × World)
  | 0, _, _, _ => .error .endless
  | fuel + 1, cops, q, w =>
      if maxPktBurst < q.buf.length then .error .bufIndex
      else
        let n := min cops.length (maxPktBurst - q.buf.length)
        let q := { q with buf := q.buf ++ cops.take n }
        let r :=
          if q.buf.length = maxPktBurst then enqueueCopFull env q w else (q, w)
        if cops.drop n = [] then .ok r
        else copBulkLoop env fuel (cops.drop n) r.1 r.2

/-- `enqueue_cop_bulk`. -/
def enqueueCopBulk (env : Env) (cops : List PktId) (q : CdevQueue) (w : World) :
    Except Fault (CdevQueue × World) :=
  let w := w.submit q.toCdevQp cops
  if maxPktBurst * 3 / 4 ≤ cops.length ∧ q.buf.length = 0 then
    let r := rteCryptodevEnqueueBurst env q.toCdevQp cops w
    .ok ({ q with inFlight := (q.inFlight + r.1) % 0x10000 },
      r.2.freeCops (cops.drop r.1))
  else copBulkLoop env (cops.length + 1) cops q w

/-! ## Contexts -/

/-- `struct ipsec_ctx`: the queues, where the next dequeue starts, and the
    packets of inline devices. -/
structure IpsecCtx where
  cdevMap : CdevKey → Option Nat
  nbQps : Nat
  lastQp : Nat := 0
  tbl : Nat → CdevQueue
  olPkts : List PktId := []

/-- The context of a lcore behind `cryptodevs_init`. -/
def IpsecCtx.ofTables (t : QueueTables) (lcore : UInt8) (dir : Direction) :
    IpsecCtx where
  cdevMap := t.map dir
  nbQps := (t.tbl lcore dir).length
  tbl := fun i => { toCdevQp := (t.tbl lcore dir).getD i ⟨0, 0⟩ }

/-- Replace one queue. -/
def IpsecCtx.setQueue (ctx : IpsecCtx) (i : Nat) (q : CdevQueue) : IpsecCtx :=
  { ctx with tbl := Function.update ctx.tbl i q }

/-- The context and the world. -/
abbrev State := IpsecCtx × World

/-- Work on the queue with number `i`. -/
def State.onQueue (s : State) (i : Nat)
    (f : CdevQueue → World → Except Fault (CdevQueue × World)) :
    Except Fault State := do
  let r ← f (s.1.tbl i) s.2
  return (s.1.setQueue i r.1, r.2)

/-- `cqp_dequeue`. -/
def cqpDequeue (env : Env) (q : CdevQueue) (num : Nat) (w : World) :
    List PktId × CdevQueue × World :=
  if q.inFlight = 0 then ([], q, w)
  else
    let r := rteCryptodevDequeueBurst env q.toCdevQp num w
    (r.1, { q with inFlight := (q.inFlight + 0x10000 - r.1.length) % 0x10000 },
      r.2)

/-! ## Sessions -/

/-- `ipsec_get_primary_session`, `ipsec_get_fallback_session`. -/
def session (sa : IpsecSa) (fallback : Bool) : RteIpsecSession :=
  if fallback then sa.fallback else sa.primary

/-- A session of an SA has processed packets. -/
def World.logProcessed (w : World) (ref : SaRef) (ps : List PktId) : World :=
  { w with
    processed := w.processed
      ++ ps.map (·, ref, (session (w.sa ref.1) ref.2).type) }

/-- Write one of the two sessions. -/
def setSession (sa : IpsecSa) (fallback : Bool) (ss : RteIpsecSession) :
    IpsecSa :=
  if fallback then { sa with fallback := ss } else { sa with primary := ss }

/-- The key `create_lookaside_session` looks up. -/
def sessionKey (env : Env) (sa : IpsecSa) : CdevKey where
  lcoreId := env.lcoreId
  cipherAlgo := env.cipherCode sa.cipherAlgo
  authAlgo := env.authCode sa.authAlgo
  aeadAlgo := env.aeadCode sa.aeadAlgo

/-- `-ENOTSUP`. -/
def enotsup : Int := -95

/-- Give a session an object, or the null pointer when there is none left. -/
def attachObject (env : Env) (p : SaPtr) (fallback : Bool) (dev : Nat)
    (w : World) : World :=
  let ss := session (w.sa p) fallback
  if env.newSession w.tick then
    { w.next.modifySa p fun sa =>
        setSession sa fallback { ss with ses := some w.nextSes } with
      sesDev := Function.update w.sesDev w.nextSes dev
      nextSes := w.nextSes + 1 }
  else w.next.modifySa p fun sa => setSession sa fallback { ss with ses := none }

/-- `create_lookaside_session`. -/
def createLookasideSession (env : Env) (ctx : IpsecCtx) (p : SaPtr)
    (fallback : Bool) (w : World) : Int × World :=
  match ctx.cdevMap (sessionKey env (w.sa p)) with
  | none => (-1, w)
  | some cdevIdQp =>
      let dev := (ctx.tbl cdevIdQp).id
      let done := fun w : World =>
        ((0 : Int), w.modifySa p fun sa =>
          { sa with cdevIdQp := UInt32.ofNat cdevIdQp })
      match (session (w.sa p) fallback).type with
      | .lookasideProtocol =>
          let w := attachObject env p fallback dev w
          if (session (w.sa p) fallback).ses = none then (-1, w) else done w
      | .inlineCrypto | .inlineProtocol => (-1, w)
      | .cpuCrypto =>
          if !env.cpuCrypto dev then (enotsup, w)
          else done (attachObject env p fallback dev w)
      | .none => done (attachObject env p fallback dev w)

/-- A session without an object is created; `false` when that fails. -/
def openSession (env : Env) (ctx : IpsecCtx) (p : SaPtr) (fallback : Bool)
    (w : World) : Bool × World :=
  if (session (w.sa p) fallback).ses = none then
    let r := createLookasideSession env ctx p fallback w
    (r.1 == 0, r.2)
  else (true, w)

/-- Operations of an SA go to the queue it names. -/
def World.useQueue (w : World) (ctx : IpsecCtx) (pkts : List PktId) (p : SaPtr)
    (fallback : Bool) : World :=
  let i := (w.sa p).cdevIdQp.toNat
  { w with
    queued := w.queued ++ [{
      pkts := pkts
      sa := p
      ses := (session (w.sa p) fallback).ses
      index := i
      nbQps := ctx.nbQps
      dev := (ctx.tbl i).id }] }

/-! ## The legacy path -/

/-- `ipsec_xform_fn`: `none` is a wild access, else the return code, the packet
    and the SA. -/
abbrev XformFn := Mbuf → IpsecSa → Option (Int × Mbuf × IpsecSa)

/-- `esp_inbound` leaves the SA alone. -/
def espInboundFn : XformFn := fun m sa =>
  let r := espInbound m sa
  some (r.1, r.2, sa)

/-- `esp_inbound_post`. -/
def espInboundPostFn : XformFn := fun m sa =>
  (espInboundPost m sa).map fun r => (r.1, r.2, sa)

/-- `esp_outbound_post`. -/
def espOutboundPostFn : XformFn := fun m sa =>
  let r := espOutboundPost m sa
  some (r.1, r.2, sa)

/-- What `ipsec_inbound` and `ipsec_outbound` enqueue with. -/
def enqueueXform : Direction → XformFn
  | .ingress => espInboundFn
  | .egress => espOutbound

/-- What both of them, and `ipsec_inbound_cqp_dequeue` and
    `ipsec_outbound_cqp_dequeue`, dequeue with. -/
def dequeueXform : Direction → XformFn
  | .ingress => espInboundPostFn
  | .egress => espOutboundPostFn

/-- `priv->sa = sa`. -/
def setPrivSa (p : SaPtr) (m : Mbuf) : Mbuf :=
  { m with priv := { m.priv with sa := some p } }

/-- `rte_crypto_op_attach_sym_session`, `rte_security_attach_session`. -/
def attachSession (ses : Option SesId) (m : Mbuf) : Mbuf :=
  { m with priv := { m.priv with cop := { m.priv.cop with ses := ses } } }

/-- Run a transformation on a packet and the SA `p`. -/
def World.xform (w : World) (f : XformFn) (pkt : PktId) (p : SaPtr) :
    Except Fault (Int × World) :=
  match f (w.mbuf pkt) (w.sa p) with
  | none => .error .null
  | some r =>
      .ok (r.1, (w.modify pkt fun _ => r.2.1).modifySa p fun _ => r.2.2)

/-- `priv->sa` of a packet, to be followed. -/
def World.privSa (w : World) (pkt : PktId) : Except Fault SaPtr :=
  match (w.mbuf pkt).priv.sa with
  | none => .error .null
  | some p => .ok p

/-- A packet joins `ol_pkts`. -/
def IpsecCtx.pushOl (ctx : IpsecCtx) (pkt : PktId) : Except Fault IpsecCtx :=
  if maxPktBurst ≤ ctx.olPkts.length then .error .olIndex
  else .ok { ctx with olPkts := ctx.olPkts ++ [pkt] }

/-- Where `ipsec_enqueue` puts a packet. -/
inductive Dest
  | freed
  | offload
  | queue
  deriving DecidableEq, Repr

/-- What `ipsec_enqueue` does with one packet before it puts it anywhere. -/
def prepareOp (env : Env) (f : XformFn) (ctx : IpsecCtx) (pkt : PktId)
    (p : SaPtr) (w : World) : Except Fault (Dest × World) :=
  let w := w.modify pkt (setPrivSa p)
  let fresh := w.modify pkt fun m => m.setStatus .notProcessed
  match (w.sa p).primary.type with
  | .lookasideProtocol =>
      let r := openSession env ctx p false fresh
      if !r.1 then .ok (.freed, r.2)
      else if espInUdp (r.2.mbuf pkt) && (r.2.sa p).udpEncap != 1 then
        .ok (.freed, r.2)
      else .ok (.queue, r.2.modify pkt (attachSession (r.2.sa p).primary.ses))
  | .cpuCrypto => .ok (.freed, w)
  | .none =>
      let r := openSession env ctx p false fresh
      if !r.1 then .ok (.freed, r.2)
      else do
        let (ret, w) ← (r.2.modify pkt
          (attachSession (r.2.sa p).primary.ses)).xform f pkt p
        return (if ret = 0 then .queue else .freed, w)
  | .inlineProtocol => .ok (.offload, w)
  | .inlineCrypto => do
      let (ret, w) ← (fresh.modify pkt
        (attachSession (w.sa p).primary.ses)).xform f pkt p
      return (if ret = 0 then .offload else .freed, w)

/-- The body of the loop of `ipsec_enqueue`. -/
def ipsecEnqueueOne (env : Env) (f : XformFn) (s : State)
    (x : PktId × Option SaRef) : Except Fault State :=
  match x.2 with
  | none => .ok (s.1, s.2.freePkts [x.1])
  | some (p, _) => do
      let (dest, w) ← prepareOp env f s.1 x.1 p s.2
      match dest with
      | .freed => return (s.1, w.freePkts [x.1])
      | .offload => return (← s.1.pushOl x.1, w)
      | .queue =>
          State.onQueue (s.1, w.useQueue s.1 [x.1] p false)
            (w.sa p).cdevIdQp.toNat (enqueueCop env x.1)

/-- `ipsec_enqueue` on packets with the SAs found for them. -/
def ipsecEnqueue (env : Env) (f : XformFn)
    (burst : List (PktId × Option SaRef)) (s : State) : Except Fault State :=
  burst.foldlM (ipsecEnqueueOne env f) s

/-- `ipsec_inline_dequeue` with at most so many packets taken from the offload
    array: it is emptied from the end, until `maxPkts` packets have come
    out. -/
def ipsecInlineDequeue (f : XformFn) (maxPkts : Nat) :
    Nat → List PktId → State → Except Fault (List PktId × State)
  | 0, pkts, s => .ok (pkts, s)
  | fuel + 1, pkts, s =>
      match s.1.olPkts.getLast? with
      | none => .ok (pkts, s)
      | some pkt =>
          if maxPkts ≤ pkts.length then .ok (pkts, s)
          else do
            let ctx := { s.1 with olPkts := s.1.olPkts.dropLast }
            let p ← s.2.privSa pkt
            let (ret, w) ← s.2.xform f pkt p
            if ret ≠ 0 then
              ipsecInlineDequeue f maxPkts fuel pkts (ctx, w.freePkts [pkt])
            else
              ipsecInlineDequeue f maxPkts fuel (pkts ++ [pkt])
                (ctx, w.logProcessed (p, false) [pkt])

/-- One round of the inner loop of `ipsec_dequeue`: a packet that came out of
    the device joins those to be returned, or is freed. -/
def finishOp (f : XformFn) (s : List PktId × World) (pkt : PktId) :
    Except Fault (List PktId × World) := do
  let p ← s.2.privSa pkt
  match (s.2.sa p).primary.type with
  | .none =>
      let (ret, w) ← s.2.xform f pkt p
      if ret ≠ 0 then return (s.1, w.freePkts [pkt])
      else return (s.1 ++ [pkt], w.logProcessed (p, false) [pkt])
  | .lookasideProtocol =>
      if (s.2.mbuf pkt).priv.cop.status ≠ .success then
        return (s.1, s.2.freePkts [pkt])
      else return (s.1 ++ [pkt], s.2.logProcessed (p, false) [pkt])
  | _ => return (s.1 ++ [pkt], s.2)

/-- The loop of `ipsec_dequeue` with so many queues left. -/
def ipsecDequeue (env : Env) (f : XformFn) (maxPkts : Nat) :
    Nat → List PktId → State → Except Fault (List PktId × State)
  | 0, pkts, s => .ok (pkts, s)
  | n + 1, pkts, s =>
      if maxPkts ≤ pkts.length then .ok (pkts, s)
      else do
        let i := s.1.lastQp
        let next := if i + 1 = s.1.nbQps then 0 else i + 1
        let r := cqpDequeue env (s.1.tbl i) (maxPkts - pkts.length) s.2
        let (pkts, w) ← r.1.foldlM (finishOp f) (pkts, r.2.2)
        ipsecDequeue env f maxPkts n pkts
          ({ s.1.setQueue i r.2.1 with lastQp := next }, w)

/-- The body of the loops of `drain_crypto_buffers`: a queue that holds
    operations back is flushed. -/
def drainQueue (env : Env) (i : Nat) (s : State) : State :=
  if (s.1.tbl i).buf.length ≠ 0 then
    let r := enqueueCopBurst env (s.1.tbl i) s.2
    (s.1.setQueue i r.1, r.2)
  else s

/-- `drain_crypto_buffers` on one of the two contexts. -/
def drainCryptoBuffers (env : Env) (s : State) : State :=
  forLoop (drainQueue env) s.1.nbQps s

/-- `ipsec_inbound` and `ipsec_outbound` behind the SA lookup. -/
def ipsecBurst (env : Env) (f post : XformFn) (burst : List (PktId × Option SaRef))
    (len : Nat) (s : State) : Except Fault (List PktId × State) := do
  let s ← ipsecEnqueue env f burst s
  ipsecInlineDequeue post len s.1.olPkts.length [] s

/-! ## The librte_ipsec path -/

/-- `fill_ipsec_session`: the return code.  A session that cannot be prepared
    is zeroed, its type included. -/
def fillIpsecSession (env : Env) (ctx : IpsecCtx) (p : SaPtr) (fallback : Bool)
    (w : World) : Int × World :=
  let r :=
    match (session (w.sa p) fallback).type with
    | .none | .cpuCrypto | .lookasideProtocol =>
        createLookasideSession env ctx p fallback w
    | .inlineCrypto | .inlineProtocol => (0, w)
  if r.1 ≠ 0 then r
  else
    let rc := env.sessionPrepare r.2.tick
    if rc ≠ 0 then
      (rc, r.2.next.modifySa p fun sa => setSession sa fallback {})
    else (0, r.2.next)

/-- `struct rte_ipsec_group` of packets with one SA pointer. -/
structure IpsecGroup where
  id : Option SaRef
  pkts : List PktId

/-- The packets of a group with its SA pointer. -/
def IpsecGroup.members (g : IpsecGroup) : List (PktId × Option SaRef) :=
  g.pkts.map fun p => (p, g.id)

/-- One iteration of `sa_group`: the packet joins the open group, or closes it
    and opens a new one. -/
def saGroupStep (s : List IpsecGroup × Option IpsecGroup) (x : PktId × Option SaRef) :
    List IpsecGroup × Option IpsecGroup :=
  match s.2 with
  | none => (s.1, some ⟨x.2, [x.1]⟩)
  | some g =>
      if g.id = x.2 then (s.1, some { g with pkts := g.pkts ++ [x.1] })
      else (s.1 ++ [g], some ⟨x.2, [x.1]⟩)

/-- `sa_group`: runs of packets with the same SA pointer, tag included. -/
def saGroup (burst : List (PktId × Option SaRef)) : List IpsecGroup :=
  let s := burst.foldl saGroupStep ([], none)
  s.1 ++ s.2.toList

/-- `struct ipsec_traffic` behind `ipsec.pkts`: the cleartext packets of the two
    families. -/
structure Traffic where
  ip4 : List PktId := []
  ip6 : List PktId := []

/-- `SATP_OUT_IPV4`. -/
def satpOutIpv4 (t : Satp) : Bool := (t.transport && t.ipv4) || t.tunlv4

/-- `copy_to_trf`; the pointers for classification are those of the packet's
    family. -/
def copyToTrf (trf : Traffic) (satp : Satp) (pkts : List PktId) : Traffic :=
  if satp.inbound then
    if satp.ipv4 then { trf with ip4 := trf.ip4 ++ pkts }
    else { trf with ip6 := trf.ip6 ++ pkts }
  else if satpOutIpv4 satp then { trf with ip4 := trf.ip4 ++ pkts }
  else { trf with ip6 := trf.ip6 ++ pkts }

/-- `RTE_MBUF_F_TX_*` flags of a packet to be segmented. -/
def txTunnelEsp : UInt64 := (8 : UInt64) <<< 45
def txTcpSeg : UInt64 := (1 : UInt64) <<< 50
def txTcpCksum : UInt64 := (1 : UInt64) <<< 52
def txOuterIpCksum : UInt64 := (1 : UInt64) <<< 58
def txOuterIpv4 : UInt64 := (1 : UInt64) <<< 59
def txOuterIpv6 : UInt64 := (1 : UInt64) <<< 60

/-- `RTE_ETH_IS_IPV4_HDR`. -/
def isIpv4Hdr (ptype : UInt32) : Bool := ptype &&& ptypeL3Ipv4 != 0

/-- `prep_process_group` on one packet: the SA, and the flags for TCP
    segmentation; the segment sizes themselves are the device's affair. -/
def prepProcess (p : SaPtr) (sa : IpsecSa) (m : Mbuf) : Mbuf :=
  let m := setPrivSa p m
  if sa.mss ≠ 0 ∧ m.packetType &&& ptypeL4Mask = ptypeL4Tcp then
    let v4 := isIpv4Hdr m.packetType
    let tunnel :=
      if isTunnel sa.flags then
        txTunnelEsp ||| (if v4 then txOuterIpCksum else 0)
      else 0
    { m with
      olFlags := m.olFlags ||| tunnel ||| txTcpSeg ||| txTcpCksum
        ||| (if v4 then txOuterIpv4 else txOuterIpv6) }
  else m

/-- A call of `librte_ipsec` on a group and one of the sessions of its SA: the
    group in its new order, the number of accepted packets, and the packets it
    has worked on. -/
def rteIpsecHandle (env : Env) (ref : SaRef) (pkts : List PktId) (w : World) :
    (List PktId × Nat) × World :=
  (env.handle w ref pkts,
    { w.next with handled := w.handled ++ [(pkts, ref)] }.modifyAll pkts
      (env.touch w ref))

/-- `rte_ipsec_pkt_process`: the accepted packets have been processed. -/
def rteIpsecPktProcess (env : Env) (ref : SaRef) (pkts : List PktId) (w : World) :
    (List PktId × Nat) × World :=
  let r := rteIpsecHandle env ref pkts w
  (r.1, r.2.logProcessed ref (r.1.1.take r.1.2))

/-- What becomes of a group: its packets in their new order and how many of
    them went on. -/
abbrev GroupResult := List PktId × Nat

/-- `ipsec_prepare_crypto_group`. -/
def ipsecPrepareCryptoGroup (env : Env) (p : SaPtr) (fallback : Bool)
    (pkts : List PktId) (s : State) : Except Fault (GroupResult × State) := do
  let i := (s.2.sa p).cdevIdQp.toNat
  let w := s.2.modifyAll pkts fun _ => setPrivSa p
  let r := rteIpsecHandle env (p, fallback) pkts w
  if r.1.2 = 0 then return (r.1, s.1, r.2)
  else
    let cops := r.1.1.take r.1.2
    let s ← State.onQueue (s.1, r.2.useQueue s.1 cops p fallback) i
      (enqueueCopBulk env cops)
    return (r.1, s)

/-- `ipsec_process_inline_group`. -/
def ipsecProcessInlineGroup (env : Env) (p : SaPtr) (fallback : Bool)
    (pkts : List PktId) (trf : Traffic) (w : World) :
    GroupResult × Traffic × World :=
  let w := w.modifyAll pkts fun _ => prepProcess p (w.sa p)
  let r := rteIpsecPktProcess env (p, fallback) pkts w
  (r.1, copyToTrf trf (env.saType p fallback) (r.1.1.take r.1.2), r.2)

/-- `ipsec_process_cpu_group`: the packets the first call accepts go through
    the second. -/
def ipsecProcessCpuGroup (env : Env) (p : SaPtr) (fallback : Bool)
    (pkts : List PktId) (trf : Traffic) (w : World) :
    GroupResult × Traffic × World :=
  let w := w.modifyAll pkts fun _ => prepProcess p (w.sa p)
  let r := rteIpsecHandle env (p, fallback) pkts w
  let r' := rteIpsecPktProcess env (p, fallback) (r.1.1.take r.1.2) r.2
  ((r'.1.1 ++ r.1.1.drop r.1.2, r'.1.2),
    copyToTrf trf (env.saType p fallback) (r'.1.1.take r'.1.2), r'.2)

/-- The body of the loop of `ipsec_process` up to the freeing. -/
def processGroup (env : Env) (g : IpsecGroup) (trf : Traffic) (s : State) :
    Except Fault (GroupResult × Traffic × State) :=
  match g.id with
  | none => .ok ((g.pkts, 0), trf, s)
  | some (p, fallback) =>
      let r :=
        if (session (s.2.sa p) fallback).ses = none then
          fillIpsecSession env s.1 p fallback s.2
        else (0, s.2)
      if r.1 ≠ 0 then .ok ((g.pkts, 0), trf, s.1, r.2)
      else
        match (session (r.2.sa p) fallback).type with
        | .none | .lookasideProtocol => do
            let (res, s) ← ipsecPrepareCryptoGroup env p fallback g.pkts
              (s.1, r.2)
            return (res, trf, s)
        | .inlineCrypto | .inlineProtocol =>
            let r := ipsecProcessInlineGroup env p fallback g.pkts trf r.2
            .ok (r.1, r.2.1, s.1, r.2.2)
        | .cpuCrypto =>
            let r := ipsecProcessCpuGroup env p fallback g.pkts trf r.2
            .ok (r.1, r.2.1, s.1, r.2.2)

/-- One round of the loop of `ipsec_process`: the packets a group leaves behind
    are freed. -/
def processOne (env : Env) (t : Traffic × State) (g : IpsecGroup) :
    Except Fault (Traffic × State) := do
  let (res, trf, s) ← processGroup env g t.1 t.2
  return (trf, s.1, s.2.freePkts (res.1.drop res.2))

/-- `ipsec_process`. -/
def ipsecProcess (env : Env) (burst : List (PktId × Option SaRef))
    (trf : Traffic) (s : State) : Except Fault (Traffic × State) :=
  (saGroup burst).foldlM (processOne env) (trf, s)

/-- One of the two loops of `ctx_dequeue`: queues `i`, `i + 1`, … while there is
    room; where it stops, the operations, the state. -/
def ctxDequeueLoop (env : Env) (num : Nat) :
    Nat → Nat → List PktId → State → Nat × List PktId × State
  | 0, i, cops, s => (i, cops, s)
  | n + 1, i, cops, s =>
      if cops.length = num then (i, cops, s)
      else
        let r := cqpDequeue env (s.1.tbl i) (num - cops.length) s.2
        ctxDequeueLoop env num n (i + 1) (cops ++ r.1)
          (s.1.setQueue i r.2.1, r.2.2)

/-- `ctx_dequeue`. -/
def ctxDequeue (env : Env) (num : Nat) (s : State) : List PktId × State :=
  let last := s.1.lastQp
  let r := ctxDequeueLoop env num (s.1.nbQps - last) last [] s
  let r' := ctxDequeueLoop env num last 0 r.2.1 r.2.2
  (r'.2.1, { r'.2.2.1 with lastQp := r'.1 }, r'.2.2.2)

/-! ## Calls on a context -/

/-- The calls a lcore makes on the context of one direction; `elsewhere` is
    what happens to the world in the meantime. -/
inductive Action
  | burst (pkts : List (PktId × Option SaRef))
  | bulk (i : Nat) (cops : List PktId)
  | drain
  | dequeue (maxPkts : Nat)
  | ctxDequeue (num : Nat)
  | elsewhere (w : World)

/-- One call. -/
def exec (env : Env) (dir : Direction) (s : State) : Action → Except Fault State
  | .burst pkts => do
      let r ← ipsecBurst env (enqueueXform dir) (dequeueXform dir) pkts
        maxPktBurst s
      return r.2
  | .bulk i cops => State.onQueue s i (enqueueCopBulk env cops)
  | .drain => .ok (drainCryptoBuffers env s)
  | .dequeue maxPkts => do
      let r ← ipsecDequeue env (dequeueXform dir) maxPkts s.1.nbQps [] s
      return r.2
  | .ctxDequeue num => .ok (ctxDequeue env num s).2
  | .elsewhere w => .ok (s.1, w)

/-! ## Lcores of a socket -/

/-- The lcores of a socket: the context each has for one direction, over the
    world they share. -/
structure Socket where
  ctx : UInt8 → IpsecCtx
  world : World

/-- What a lcore does with the packets of a burst. -/
inductive LcoreCall
  | enqueue (burst : List (PktId × Option SaRef))
  | process (burst : List (PktId × Option SaRef)) (trf : Traffic)

/-- The packets of a call with the SAs found for them. -/
def LcoreCall.burst : LcoreCall → List (PktId × Option SaRef)
  | .enqueue burst => burst
  | .process burst _ => burst

/-- The environment of one lcore. -/
def Env.onLcore (env : Env) (l : UInt8) : Env := { env with lcoreId := l }

/-- A lcore has worked on its context and the world. -/
def Socket.put (s : Socket) (l : UInt8) (t : State) : Socket :=
  ⟨Function.update s.ctx l t.1, t.2⟩

/-- One call on one lcore. -/
def lcoreExec (env : Env) (dir : Direction) (s : Socket) (l : UInt8) :
    LcoreCall → Except Fault Socket
  | .enqueue burst => do
      let t ← ipsecEnqueue (env.onLcore l) (enqueueXform dir) burst
        (s.ctx l, s.world)
      return s.put l t
  | .process burst trf => do
      let r ← ipsecProcess (env.onLcore l) burst trf (s.ctx l, s.world)
      return s.put l r.2

/-- The contexts behind `cryptodevs_init`. -/
def Socket.start (t : QueueTables) (dir : Direction) (w : World) : Socket :=
  ⟨fun l => IpsecCtx.ofTables t l dir, w⟩

end IpsecModel
