import IpsecSecgw.IkeFilterProofs
import IpsecSecgw.Lib.Rises
import IpsecSecgw.PolicyCallProofs
import IpsecSecgw.WireProofs

/-! # Nothing leaves without a policy

    A run of a poll lcore: bursts of its ports, drains of the crypto queues of both
    directions, flushes, and what happens elsewhere, in any order.  Beside the lcore a
    ghost follows the SA each packet has last been looked up with (`Watch`).  While a
    packet waits in a queue it carries this SA (`Promised`), so what a drain gives back
    long after the lookup has been processed by a session of the SA its rule named.

    Whatever the lcore gives to a NIC, in whatever order these things happen, some step
    has let go for one of the reasons of `Granted` (`only_granted_leaves`). -/

namespace PolicyRun

open SaModel MbufModel CdevModel Esp IpsecModel Ipsec WorkerModel SecgwModel Outcome
open Handling HandOver InboundPolicy PolicyCall Wire
open PacketOrder (saOf KeepsSa)
open PacketCount (AtRest)

variable {env : Env} {cfg : LcoreConf}

/-! ## Steps -/

/-- A lcore, and of each packet the SA it has last been looked up with. -/
structure Watch where
  core : Lcore
  due : PktId → SaPtr

/-- What happens on a lcore: a burst of a port, a drain of the crypto queues on behalf
    of a port, the drains made from time to time, or something elsewhere. -/
inductive Act
  | burst (port : UInt16) (pkts : List PktId) (mbufs : PktId → Mbuf)
  | drain (port : UInt16)
  | flush
  | elsewhere (w : World)

/-- The lcore behind `rte_eth_rx_burst`. -/
def arrived (pkts : List PktId) (mbufs : PktId → Mbuf) (s : Lcore) : Lcore :=
  { s with world := s.world.modifyAll pkts fun p _ => mbufs p }

/-- One thing. -/
def perform (env : Env) (cfg : LcoreConf) : Act → Lcore → Except Fault Lcore
  | .burst port pkts mbufs, s => receiveBurst env cfg port pkts (arrived pkts mbufs s)
  | .drain port, s =>
      if cfg.unprotected port then drainInbound env cfg s else drainOutbound env cfg s
  | .flush, s => drainBuffers env cfg s
  | .elsewhere w, s => .ok { s with world := w }

/-- A round of `ipsec_poll_mode_worker` over a receive queue is a burst, if packets
    have come, and a drain. -/
theorem pollQueue_eq (port : UInt16) (pkts : List PktId) (mbufs : PktId → Mbuf) (s : Lcore) :
    pollQueue env cfg port pkts mbufs s
      = (if pkts = [] then pure s else perform env cfg (.burst port pkts mbufs) s)
        >>= perform env cfg (.drain port) := by
  rw [pollQueue]
  by_cases hnil : pkts = []
  · subst hnil
    rfl
  · rw [if_neg hnil, if_neg hnil]
    rfl

/-- The packets in the crypto queues of a lcore. -/
def Pending (s : Lcore) (x : PktId) : Prop :=
  Waits (s.inbound, s.world) x ∨ Waits (s.outbound, s.world) x

/-- What may happen: a NIC gives distinct packets, and none the crypto is still working
    on; and nobody else adds to the queues of the lcore, writes the packets in them or
    exchanges the sessions of SAs. -/
def Allowed (s : Lcore) : Act → Prop
  | .burst _ pkts _ => pkts.Nodup ∧ ∀ x ∈ pkts, ¬ Pending s x
  | .elsewhere w => SasKept s.world.sa w.sa
      ∧ ∀ x, Pending { s with world := w } x → Pending s x ∧ w.mbuf x = s.world.mbuf x
  | _ => True

/-- A burst behind IKE filter and classification. -/
def seen (cfg : LcoreConf) (port : UInt16) (pkts : List PktId) (mbufs : PktId → Mbuf)
    (s : Lcore) : Except Fault (Burst × World) :=
  let w := (arrived pkts mbufs s).world
  let r :=
    if port ≠ cfg.clientPort then
      let f := filterIkePackets cfg.kni pkts w
      (f.1.pktsNew, f.2)
    else (pkts, w)
  prepareTraffic cfg.poll r.1 r.2

/-- The packets of a burst that are handed over to the crypto, with their SAs. -/
def handed (cfg : LcoreConf) (port : UInt16) (r : Burst × World) :
    List (PktId × Option SaRef) :=
  if cfg.unprotected port then inboundSaLookup cfg.sad r.2 r.1.ipsec
  else outboundSaLookup cfg.outCtx.saCtx (securedOf cfg.outCtx r.2 r.1.trf)

/-- The SAs an act looks up. -/
def lookups (cfg : LcoreConf) (s : Lcore) : Act → List (PktId × Option SaRef)
  | .burst port pkts mbufs =>
      match seen cfg port pkts mbufs s with
      | .ok r => handed cfg port r
      | .error _ => []
  | _ => []

/-- The ghost takes notice of lookups. -/
def noted (burst : List (PktId × Option SaRef)) (due : PktId → SaPtr) (x : PktId) : SaPtr :=
  match burst.lookup x with
  | some (some ref) => ref.1
  | _ => due x

/-- **A STEP**. -/
structure Step (env : Env) (cfg : LcoreConf) (a : Act) (s s' : Watch) : Prop where
  allowed : Allowed s.core a
  run : perform env cfg a s.core = .ok s'.core
  due : s'.due = noted (lookups cfg s.core a) s.due

/-! ## Reasons -/

/-- The successes a step has logged. -/
def newlyProcessed (s s' : Watch) : Log :=
  s'.core.world.processed.drop s.core.world.processed.length

/-- A session of the SA it has last been looked up with has processed the packet in this
    step, and the packet carries this SA. -/
def Processed (due : PktId → SaPtr) (log : Log) (w : World) (x : PktId) : Prop :=
  ∃ fb type, (x, (due x, fb), type) ∈ log ∧ saOf w x = some (due x)

/-- **WHY A PACKET MAY LEAVE** in a step. -/
inductive Granted (env : Env) (cfg : LcoreConf) (s s' : Watch) : Act → PktId → Prop
  /-- a protected port, and the policies leave the packet in the clear -/
  | clear {port : UInt16} {pkts : List PktId} {mbufs : PktId → Mbuf} {r : Burst × World}
      {x : PktId} (hport : cfg.unprotected port = false)
      (hseen : seen cfg port pkts mbufs s.core = .ok r)
      (h : x ∈ both (clearOf cfg.outCtx r.2 r.1.trf)) :
      Granted env cfg s s' (.burst port pkts mbufs) x
  /-- a protected port, and a session of the SA the packet has been looked up with has
      processed it in this step -/
  | secured {port : UInt16} {a : Act} {x : PktId} {fb : Bool} {type : ActionType}
      (hport : cfg.unprotected port = false)
      (ha : a = .drain port ∨ ∃ pkts mbufs, a = .burst port pkts mbufs)
      (h : (x, (s'.due x, fb), type) ∈ newlyProcessed s s') : Granted env cfg s s' a x
  /-- an unprotected port, and the policies let the packet of a burst in -/
  | letIn {port : UInt16} {pkts : List PktId} {mbufs : PktId → Mbuf} {r : Burst × World}
      {r' : Traffic × State} {x : PktId} (hport : cfg.unprotected port = true)
      (hseen : seen cfg port pkts mbufs s.core = .ok r)
      (hcrypto : inboundCrypto env cfg.poll cfg.sad r.1 (s.core.inbound, r.2) = .ok r')
      (h : LetIn cfg.inCtx r.1.trf r'.1 (Processed s'.due (newlyProcessed s s') r'.2.2)
        r'.2.2 x) :
      Granted env cfg s s' (.burst port pkts mbufs) x
  /-- an unprotected port, and the policies let in what the crypto gives back -/
  | drained {port : UInt16} {r : Traffic × State} {x : PktId}
      (hport : cfg.unprotected port = true)
      (hcrypto : drainCrypto env cfg.lib cfg.poll espInboundPostFn
        (s.core.inbound, s.core.world) = .ok r)
      (h : LetIn cfg.inCtx {} r.1 (Processed s'.due (newlyProcessed s s') r.2.2) r.2.2 x) :
      Granted env cfg s s' (.drain port) x
  /-- a fragment of a packet that may leave -/
  | fragment {a : Act} {m x : PktId} (hm : Granted env cfg s s' a m)
      (h : Fragment cfg.tx m x) : Granted env cfg s s' a x

/-! ## The ghost -/

theorem noted_of_not_mem {burst : List (PktId × Option SaRef)} {x : PktId}
    (h : x ∉ burst.map Prod.fst) (due : PktId → SaPtr) : noted burst due x = due x := by
  have hnone : burst.lookup x = none := by
    rw [List.lookup_eq_none_iff]
    intro e he
    refine bne_iff_ne.mpr ?_
    rintro rfl
    exact h (List.mem_map_of_mem he)
  rw [noted, hnone]

theorem noted_of_mem {burst : List (PktId × Option SaRef)} (hnodup : (burst.map Prod.fst).Nodup)
    {x : PktId} {q : SaPtr} {fb : Bool} (h : (x, some (q, fb)) ∈ burst) (due : PktId → SaPtr) :
    noted burst due x = q := by
  have hsome : burst.lookup x = some (some (q, fb)) := by
    induction burst with
    | nil => cases h
    | cons e burst ih =>
        obtain ⟨hnot, hnodup⟩ := List.nodup_cons.mp hnodup
        rcases List.mem_cons.mp h with rfl | h
        · rw [List.lookup_cons_self]
        · have hne : x ≠ e.1 := by
            rintro rfl
            exact hnot (List.mem_map.mpr ⟨_, h, rfl⟩)
          rw [List.lookup_cons, beq_false_of_ne hne]
          exact ih hnodup h
  rw [noted, hsome]

/-! ## The invariant -/

/-- Packets in queues carry the SAs they have last been looked up with. -/
def Carrying (cfg : LcoreConf) (due : PktId → SaPtr) (s : Lcore) : Prop :=
  ∀ x, Pending s x → AtQueue cfg.poll cfg.lib s.world x ∧ saOf s.world x = some (due x)

/-- A lcore between two steps. -/
structure Promised (cfg : LcoreConf) (s : Watch) : Prop where
  rests : AtRest s.core
  waits : Carrying cfg s.due s.core

/-- What is asked of the crypto: devices and sessions leave packets their SAs, and the
    session of an operation is found in the private data of the packet. -/
structure Laws (env : Env) (cfg : LcoreConf) : Prop where
  keeps : KeepsSa env
  lawful : cfg.poll.enable = true → Lawful env cfg.lib
  reads : ∀ m m' : Mbuf, m'.priv = m.priv → cfg.lib.opSession m' = cfg.lib.opSession m

/-- **A CALL** on the queues of one direction, with the other one beside it. -/
theorem call_carrying {conf : PollConf} {lib : CryptoGroup} {ctx other : IpsecCtx}
    {w : World} {due : PktId → SaPtr} {burst : List (PktId × Option SaRef)} {log : Log}
    {out : List PktId} {r : State}
    (hwait : ∀ x, Waits (ctx, w) x ∨ Waits (other, w) x →
      AtQueue conf lib w x ∧ saOf w x = some (due x))
    (hnodup : (burst.map Prod.fst).Nodup)
    (hfresh : ∀ x ∈ burst.map Prod.fst, ¬ (Waits (ctx, w) x ∨ Waits (other, w) x))
    (h : Call conf lib burst (ctx, w) log out r) :
    (∀ x, Waits r x ∨ Waits (other, r.2) x →
        AtQueue conf lib r.2 x ∧ saOf r.2 x = some (noted burst due x))
      ∧ ∀ x ∈ out, Processed (noted burst due) log r.2 x := by
  -- a packet that has waited before is none of the burst
  have hold : ∀ x, Waits (ctx, w) x ∨ Waits (other, w) x →
      AtQueue conf lib r.2 x ∧ saOf r.2 x = some (noted burst due x) := by
    intro x hx
    have hnot : x ∉ burst.map Prod.fst := fun hin => hfresh x hin hx
    obtain ⟨hat, hdue⟩ := hwait x hx
    rw [noted_of_not_mem hnot]
    exact ⟨h.keeps x hnot hat, (h.tag x hnot).trans hdue⟩
  constructor
  · intro x hx
    have hx : Waits r x ∨ Waits (other, w) x := hx.elim .inl (h.own.waits other)
    rcases hx with hx | hx
    · rcases h.waits x hx with hx | ⟨hat, q, fb, hin, hq⟩
      · exact hold x (.inl hx)
      · rw [noted_of_mem hnodup hin]
        exact ⟨hat, hq⟩
    · exact hold x (.inr hx)
  · intro x hx
    obtain ⟨q, fb, type, hin, hq, hwhy⟩ := h.through x hx
    have hdue : saOf r.2 x = some (noted burst due x) := by
      rcases hwhy with ⟨hx, -⟩ | ⟨q', fb', hin', hq'⟩
      · exact (hold x (.inl hx)).2
      · rw [noted_of_mem hnodup hin']
        exact hq'
    obtain rfl := Option.some.inj (hq.symm.trans hdue)
    exact ⟨fb, type, hin, hdue⟩

/-- A drain takes no burst in. -/
theorem drain_carrying {conf : PollConf} {lib : CryptoGroup} {ctx other : IpsecCtx}
    {w : World} {due : PktId → SaPtr} {log : Log} {out : List PktId} {r : State}
    (hwait : ∀ x, Waits (ctx, w) x ∨ Waits (other, w) x →
      AtQueue conf lib w x ∧ saOf w x = some (due x))
    (h : Call conf lib [] (ctx, w) log out r) :
    (∀ x, Waits r x ∨ Waits (other, r.2) x →
        AtQueue conf lib r.2 x ∧ saOf r.2 x = some (due x))
      ∧ ∀ x ∈ out, Processed due log r.2 x := by
  have hnodup : (([] : List (PktId × Option SaRef)).map Prod.fst).Nodup := List.nodup_nil
  exact call_carrying hwait hnodup (fun _ hx => absurd hx List.not_mem_nil) h

/-- Work that leaves the packets in the queues alone. -/
theorem Carrying.aside {s s' : Lcore} {due : PktId → SaPtr} (h : Carrying cfg due s)
    (hin : s'.inbound = s.inbound) (hout : s'.outbound = s.outbound)
    (hpair : s'.world.pair = s.world.pair) (hsas : SasKept s.world.sa s'.world.sa)
    (hmbuf : ∀ x, Pending s x → s'.world.mbuf x = s.world.mbuf x) :
    Carrying cfg due s' := by
  intro x hx
  have hx : Pending s x := by
    simp only [Pending, Waits, hin, hout, hpair] at hx ⊢
    exact hx
  obtain ⟨hat, hdue⟩ := h x hx
  refine ⟨atQueue_stable _ _ x (hmbuf x hx) hsas hat, ?_⟩
  rw [saOf, hmbuf x hx]
  exact hdue

/-- The policies only free packets. -/
theorem Carrying.still {s s' : Lcore} {due : PktId → SaPtr} (h : Carrying cfg due s)
    (hin : s'.inbound = s.inbound) (hout : s'.outbound = s.outbound)
    (hstill : Still s.world s'.world) : Carrying cfg due s' := by
  refine h.aside hin hout hstill.pair ?_ fun x _ => congrFun hstill.mbuf x
  rw [hstill.sa]
  exact SasKept.refl _

/-- Routing leaves the private data of packets alone, and this is all that counts. -/
theorem Carrying.routed (hlaws : Laws env cfg) {s s' : Lcore} {due : PktId → SaPtr}
    (h : Carrying cfg due s) (hkept : CryptoKept s s') : Carrying cfg due s' := by
  intro x hx
  have hx : Pending s x := by
    simp only [Pending, Waits, hkept.inbound, hkept.outbound, hkept.pair] at hx ⊢
    exact hx
  obtain ⟨hat, hdue⟩ := h x hx
  have htag : saOf s'.world x = saOf s.world x := congrArg _ (hkept.priv x)
  refine ⟨?_, htag.trans hdue⟩
  rw [AtQueue] at hat ⊢
  split
  · rename_i hon
    rw [if_pos hon] at hat
    obtain ⟨q, fb, hq, hop, htype⟩ := hat
    refine ⟨q, fb, htag.trans hq, ?_, ?_⟩
    · exact (hlaws.reads _ _ (hkept.priv x)).trans hop
    · rw [hkept.sa]
      exact htype
  · rename_i hoff
    rw [if_neg hoff] at hat
    obtain ⟨q, hq, htype⟩ := hat
    refine ⟨q, htag.trans hq, ?_⟩
    rw [hkept.sa]
    exact htype

/-! ## Classification -/

theorem prepareTraffic_processed (conf : PollConf) (pkts : List PktId) (w : World) :
    Ends (prepareTraffic conf pkts w) (fun _ => True)
      (fun r : Burst × World => r.2.processed = w.processed) := by
  rw [prepareTraffic]
  refine ends_foldlM (P := fun _ (r : Burst × World) => r.2.processed = w.processed) rfl ?_
  intro p _ r h
  rw [prepareTrafficOne]
  split
  · exact ends_error trivial
  · refine ends_ok ?_
    split
    · exact h
    · exact h

/-- A burst as the crypto and the policies get it: its packets are distinct, and packets
    the NIC has not written are as they were. -/
structure Seen (s : Lcore) (pkts : List PktId) (r : Burst × World) : Prop where
  nodup : (members r.1).Nodup
  mem : ∀ x ∈ members r.1, x ∈ pkts
  pair : r.2.pair = s.world.pair
  sa : r.2.sa = s.world.sa
  mbuf : ∀ x, x ∉ pkts → r.2.mbuf x = s.world.mbuf x
  processed : r.2.processed = s.world.processed

theorem seen_seen (cfg : LcoreConf) (port : UInt16) {pkts : List PktId} (hnodup : pkts.Nodup)
    (mbufs : PktId → Mbuf) (s : Lcore) :
    Ends (seen cfg port pkts mbufs s) (fun _ => True) (Seen s pkts) := by
  have harrived : Still (arrived pkts mbufs s).world (if port ≠ cfg.clientPort then
      let f := filterIkePackets cfg.kni pkts (arrived pkts mbufs s).world
      (f.1.pktsNew, f.2)
    else (pkts, (arrived pkts mbufs s).world)).2 := by
    split
    · exact ⟨rfl, rfl, rfl, rfl⟩
    · exact Still.refl _
  -- what the IKE filter leaves is a part of the burst
  have hsub : (if port ≠ cfg.clientPort then
      let f := filterIkePackets cfg.kni pkts (arrived pkts mbufs s).world
      (f.1.pktsNew, f.2)
    else (pkts, (arrived pkts mbufs s).world)).1.Sublist pkts := by
    split
    · show (pkts.foldl (filterIkeOne cfg.kni (arrived pkts mbufs s).world) {}).pktsNew.Sublist _
      rw [KniFilter.filterIke_new, List.nil_append]
      exact List.filter_sublist
    · exact List.Sublist.refl _
  rw [seen]
  dsimp only at harrived hsub ⊢
  generalize (if port ≠ cfg.clientPort then
      ((filterIkePackets cfg.kni pkts (arrived pkts mbufs s).world).1.pktsNew,
        (filterIkePackets cfg.kni pkts (arrived pkts mbufs s).world).2)
    else (pkts, (arrived pkts mbufs s).world)) = r at harrived hsub
  refine ((prepareTraffic_prepared r.1 r.2).and
    (prepareTraffic_processed cfg.poll r.1 r.2)).mono (fun _ _ => trivial) ?_
  rintro r' ⟨hprepared, hprocessed⟩
  obtain ⟨left, honce⟩ := hprepared.once
  obtain ⟨haside, hpair, -⟩ := modifyAll_aside pkts (fun p _ => mbufs p) s.world
  refine ⟨(List.nodup_append.mp (honce.nodup_iff.mpr (hnodup.sublist hsub))).1, ?_, ?_, ?_, ?_,
    ?_⟩
  · exact fun x hx => hsub.subset (honce.mem_iff.mp (List.mem_append_left left hx))
  · exact hprepared.beside.pair.trans (harrived.pair.trans hpair)
  · exact hprepared.sa.trans (harrived.sa.trans haside.sa)
  · intro x hx
    rw [hprepared.mbuf x fun hin => hx (hsub.subset hin), harrived.mbuf]
    exact modifyAll_other hx
  · exact hprocessed.trans (harrived.processed.trans (modifyAll_processed _ _ _))

theorem processPkts_eq (pkts : List PktId) (port : UInt16) (s : Lcore) :
    SecgwModel.processPkts env cfg pkts port s
      = prepareTraffic cfg.poll pkts s.world >>= fun r =>
        (if cfg.unprotected port then processInbound env cfg r.1 { s with world := r.2 }
        else processOutbound env cfg r.1 { s with world := r.2 })
          >>= fun p => routePkts cfg.tx p.1 p.2 := by
  rw [SecgwModel.processPkts]
  refine bind_congr fun r => ?_
  by_cases hport : cfg.unprotected port = true
  · simp only [hport, if_true]
  · simp only [hport]
    rfl

/-- Receiving, with the burst in the middle. -/
theorem receiveBurst_eq (env : Env) (cfg : LcoreConf) (port : UInt16) (pkts : List PktId)
    (mbufs : PktId → Mbuf) (s : Lcore) : ∃ n, receiveBurst env cfg port pkts (arrived pkts mbufs s)
      = seen cfg port pkts mbufs s >>= fun r =>
        (if cfg.unprotected port then
          processInbound env cfg r.1 { s with world := r.2, rx := n }
        else processOutbound env cfg r.1 { s with world := r.2, rx := n })
          >>= fun p => routePkts cfg.tx p.1 p.2 := by
  refine ⟨s.rx + (if port ≠ cfg.clientPort then
      ((filterIkePackets cfg.kni pkts (arrived pkts mbufs s).world).1.pktsNew,
        (filterIkePackets cfg.kni pkts (arrived pkts mbufs s).world).2)
    else (pkts, (arrived pkts mbufs s).world)).1.length, ?_⟩
  rw [receiveBurst, processPkts_eq]
  rfl

/-! ## One step -/

/-- What a step has done: packets in queues carry their SAs, and what is on its way more
    often than before has been granted. -/
structure Stepped (env : Env) (cfg : LcoreConf) (a : Act) (s s' : Watch) : Prop where
  waits : Carrying cfg s'.due s'.core
  granted : ∃ granted : List PktId,
    (∀ x, released s'.core x ≤ released s.core x + granted.count x)
      ∧ ∀ x ∈ granted, Granted env cfg s s' a x

/-- A step ends with routing. -/
theorem stepped_of_sends (hlaws : Laws env cfg) {a : Act} {s s' : Watch} {core : Lcore}
    {pkts : List PktId} (hsends : Sends cfg.tx core pkts s'.core)
    (hwait : Carrying cfg s'.due core) (hsame : ∀ x, released core x = released s.core x)
    (hwhy : ∀ x ∈ pkts, Granted env cfg s s' a x) : Stepped env cfg a s s' := by
  obtain ⟨frags, hfrags, hle⟩ := hsends.bound
  refine ⟨hwait.routed hlaws hsends.kept, pkts ++ frags, fun x => ?_, fun x hx => ?_⟩
  · rw [List.count_append, ← Nat.add_assoc, ← hsame]
    exact hle x
  · rcases List.mem_append.mp hx with hx | hx
    · exact hwhy x hx
    · obtain ⟨m, hm, hfrag⟩ := hfrags x hx
      exact .fragment (hwhy m hm) hfrag

theorem newlyProcessed_eq {s s' : Watch} {log : Log}
    (h : s'.core.world.processed = s.core.world.processed ++ log) :
    newlyProcessed s s' = log := by
  rw [newlyProcessed, h, List.drop_left]

variable {s s' : Watch} {port : UInt16} {pkts : List PktId} {mbufs : PktId → Mbuf}
  {r : Burst × World} {n : Nat}

/-- The packets in queues are beside a burst. -/
theorem Seen.carrying (hr : Seen s.core pkts r) (h : Promised cfg s)
    (hfresh : ∀ x ∈ pkts, ¬ Pending s.core x) (n : Nat) :
    Carrying cfg s.due { s.core with world := r.2, rx := n } := by
  refine h.waits.aside rfl rfl hr.pair ?_ fun x hx => hr.mbuf x fun hin => hfresh x hin hx
  rw [hr.sa]
  exact SasKept.refl _

theorem Seen.fresh (hr : Seen s.core pkts r) (hfresh : ∀ x ∈ pkts, ¬ Pending s.core x)
    {x : PktId} (hx : x ∈ members r.1) :
    ¬ (Waits (s.core.inbound, r.2) x ∨ Waits (s.core.outbound, r.2) x) := by
  intro hpending
  refine hfresh x (hr.mem x hx) ?_
  simp only [Pending, Waits, hr.pair] at hpending ⊢
  exact hpending

/-- **A BURST OF AN UNPROTECTED PORT**. -/
theorem burst_in (hlaws : Laws env cfg) (hsingle : cfg.singleSa = false)
    (h : Promised cfg s) (hfresh : ∀ x ∈ pkts, ¬ Pending s.core x)
    (hport : cfg.unprotected port = true) (hseen : seen cfg port pkts mbufs s.core = .ok r)
    (hr : Seen s.core pkts r)
    (hrun : processInbound env cfg r.1 { s.core with world := r.2, rx := n }
      >>= (fun p => routePkts cfg.tx p.1 p.2) = .ok s'.core)
    (hdue : s'.due = noted (handed cfg port r) s.due) :
    Stepped env cfg (.burst port pkts mbufs) s s' := by
  have hparts := List.nodup_append.mp hr.nodup
  rw [processInbound, hsingle, processPktsInbound] at hrun
  cases hcrypto : inboundCrypto env cfg.poll cfg.sad r.1 (s.core.inbound, r.2) with
  | error e =>
      rw [hcrypto] at hrun
      cases hrun
  | ok r' =>
      rw [hcrypto] at hrun
      obtain ⟨log, out, hgrown, hcall⟩ := (inboundCrypto_called hlaws.lawful cfg.sad
        hparts.1 (s := (s.core.inbound, r.2)) h.rests.inbound.ol).of_ok hcrypto
      rw [handed, if_pos hport] at hdue
      -- the crypto, with the outbound queues beside it
      have hfst := inboundSaLookup_fst cfg.sad r.2 r.1.ipsec
      obtain ⟨hwait, hthrough⟩ := call_carrying (hr.carrying h hfresh n)
        (by rw [hfst]; exact hparts.1)
        (by
          rw [hfst]
          exact fun x hx => hr.fresh hfresh (List.mem_append_left _ hx)) hcall
      -- the policies
      obtain ⟨hlet, hstill⟩ := inboundPolicies_letIn cfg.inCtx r.1.trf hgrown hthrough
        s.core.inStats r'.2.2
      have hsends := (routePkts_sends cfg.tx _ _).of_ok hrun
      have hlog : s'.core.world.processed = s.core.world.processed ++ log := by
        rw [hsends.kept.processed, ← hr.processed]
        exact hstill.processed.trans hcall.logged
      refine stepped_of_sends hlaws hsends ?_ (released_congr rfl rfl) fun x hx => ?_
      · rw [hdue]
        exact Carrying.still (s := { s.core with
          inbound := r'.2.1
          world := r'.2.2 }) hwait rfl rfl hstill
      · refine .letIn hport hseen hcrypto ?_
        rw [newlyProcessed_eq hlog, hdue]
        exact hlet x hx

/-- **A BURST OF A PROTECTED PORT**. -/
theorem burst_out (hlaws : Laws env cfg) (hsingle : cfg.singleSa = false)
    (h : Promised cfg s) (hfresh : ∀ x ∈ pkts, ¬ Pending s.core x)
    (hport : cfg.unprotected port = false) (hseen : seen cfg port pkts mbufs s.core = .ok r)
    (hr : Seen s.core pkts r)
    (hrun : processOutbound env cfg r.1 { s.core with world := r.2, rx := n }
      >>= (fun p => routePkts cfg.tx p.1 p.2) = .ok s'.core)
    (hdue : s'.due = noted (handed cfg port r) s.due) :
    Stepped env cfg (.burst port pkts mbufs) s s' := by
  have hparts := List.nodup_append.mp hr.nodup
  rw [processOutbound, hsingle] at hrun
  cases hcrypto : processPktsOutbound env cfg.poll cfg.outCtx r.1 s.core.outStats
      (s.core.outbound, r.2) with
  | error e =>
      rw [if_neg Bool.false_ne_true, hcrypto] at hrun
      cases hrun
  | ok r' =>
      rw [if_neg Bool.false_ne_true, hcrypto] at hrun
      obtain ⟨log, out, hgrown, hcall⟩ := (processPktsOutbound_called hlaws.lawful cfg.outCtx
        hparts.2.1 s.core.outStats (s := (s.core.outbound, r.2))
        h.rests.outbound.ol).of_ok hcrypto
      have hne : cfg.unprotected port ≠ true := by simp [hport]
      rw [handed, if_neg hne] at hdue
      -- the crypto, with the inbound queues beside it
      have hfst := outboundSaLookup_fst cfg.outCtx.saCtx (securedOf cfg.outCtx r.2 r.1.trf)
      have hsub := securedOf_sublist cfg.outCtx r.2 r.1.trf
      have hsingly : ((outboundSaLookup cfg.outCtx.saCtx
          (securedOf cfg.outCtx r.2 r.1.trf)).map Prod.fst).Nodup := by
        rw [hfst]
        exact hparts.2.1.sublist hsub
      have hall : ∀ x, Waits (s.core.outbound, r.2) x ∨ Waits (s.core.inbound, r.2) x →
          AtQueue cfg.poll cfg.lib r.2 x ∧ saOf r.2 x = some (s.due x) :=
        fun x hx => hr.carrying h hfresh n x hx.symm
      obtain ⟨hwait, hthrough⟩ := call_carrying hall hsingly
        (by
          intro x hx hwaits
          rw [hfst] at hx
          exact hr.fresh hfresh (List.mem_append_right _ (hsub.subset hx)) hwaits.symm) hcall
      have hsends := (routePkts_sends cfg.tx _ _).of_ok hrun
      have hlog : s'.core.world.processed = s.core.world.processed ++ log := by
        rw [hsends.kept.processed, ← hr.processed]
        exact hcall.logged
      refine stepped_of_sends hlaws hsends ?_ (released_congr rfl rfl) fun x hx => ?_
      · rw [hdue]
        exact fun x hx => hwait x hx.symm
      · rcases (mem_both hgrown x).mp hx with hx | hx
        · exact .clear hport hseen hx
        · obtain ⟨fb, type, hin, -⟩ := hthrough x hx
          have hnew : (x, (s'.due x, fb), type) ∈ newlyProcessed s s' := by
            rw [newlyProcessed_eq hlog, hdue]
            exact hin
          exact .secured hport (.inr ⟨pkts, mbufs, rfl⟩) hnew

/-- **THE INBOUND QUEUES** are drained, and the policies check what comes back. -/
theorem drain_in (hlaws : Laws env cfg) (h : Promised cfg s)
    (hport : cfg.unprotected port = true) (hrun : drainInbound env cfg s.core = .ok s'.core)
    (hdue : s'.due = s.due) : Stepped env cfg (.drain port) s s' := by
  rw [drainInbound, drainInboundCryptoQueues] at hrun
  cases hcrypto : drainCrypto env cfg.lib cfg.poll espInboundPostFn
      (s.core.inbound, s.core.world) with
  | error e =>
      rw [hcrypto] at hrun
      cases hrun
  | ok r =>
      rw [hcrypto] at hrun
      obtain ⟨log, out, hgrown, hcall⟩ := (drainCrypto_called hlaws.keeps hlaws.lawful .ingress
        (s := (s.core.inbound, s.core.world)) fun x hx => (h.waits x (.inl hx)).1).of_ok hcrypto
      obtain ⟨hwait, hthrough⟩ := drain_carrying h.waits hcall
      obtain ⟨hlet, hstill⟩ := inboundPolicies_letIn cfg.inCtx {} hgrown hthrough
        s.core.inStats r.2.2
      have hsends := (routePkts_sends cfg.tx _ _).of_ok hrun
      have hlog : s'.core.world.processed = s.core.world.processed ++ log := by
        rw [hsends.kept.processed]
        exact hstill.processed.trans hcall.logged
      refine stepped_of_sends hlaws hsends ?_ (released_congr rfl rfl) fun x hx => ?_
      · rw [hdue]
        exact Carrying.still (s := { s.core with
          inbound := r.2.1
          world := r.2.2 }) hwait rfl rfl hstill
      · refine .drained hport hcrypto ?_
        rw [newlyProcessed_eq hlog, hdue]
        exact hlet x hx

/-- **THE OUTBOUND QUEUES** are drained. -/
theorem drain_out (hlaws : Laws env cfg) (h : Promised cfg s)
    (hport : cfg.unprotected port = false) (hrun : drainOutbound env cfg s.core = .ok s'.core)
    (hdue : s'.due = s.due) : Stepped env cfg (.drain port) s s' := by
  rw [drainOutbound, drainOutboundCryptoQueues] at hrun
  cases hcrypto : drainCrypto env cfg.lib cfg.poll espOutboundPostFn
      (s.core.outbound, s.core.world) with
  | error e =>
      rw [hcrypto] at hrun
      cases hrun
  | ok r =>
      rw [hcrypto] at hrun
      obtain ⟨log, out, hgrown, hcall⟩ := (drainCrypto_called hlaws.keeps hlaws.lawful .egress
        (s := (s.core.outbound, s.core.world)) fun x hx => (h.waits x (.inr hx)).1).of_ok hcrypto
      have hall : ∀ x, Waits (s.core.outbound, s.core.world) x
          ∨ Waits (s.core.inbound, s.core.world) x →
          AtQueue cfg.poll cfg.lib s.core.world x ∧ saOf s.core.world x = some (s.due x) :=
        fun x hx => h.waits x hx.symm
      obtain ⟨hwait, hthrough⟩ := drain_carrying hall hcall
      have hsends := (routePkts_sends cfg.tx _ _).of_ok hrun
      have hlog : s'.core.world.processed = s.core.world.processed ++ log := by
        rw [hsends.kept.processed]
        exact hcall.logged
      refine stepped_of_sends hlaws hsends ?_ (released_congr rfl rfl) fun x hx => ?_
      · rw [hdue]
        exact fun x hx => hwait x hx.symm
      · rcases (mem_both hgrown x).mp hx with hx | hx
        · cases hx
        · obtain ⟨fb, type, hin, -⟩ := hthrough x hx
          have hnew : (x, (s'.due x, fb), type) ∈ newlyProcessed s s' := by
            rw [newlyProcessed_eq hlog, hdue]
            exact hin
          exact .secured hport (.inl rfl) hnew

/-- What `drain_crypto_buffers` does to the queues of both directions. -/
theorem drainCryptoBuffers_carrying (env : Env) {conf : PollConf} {lib : CryptoGroup}
    {ctx other : IpsecCtx} {w : World} {due : PktId → SaPtr}
    (hwait : ∀ x, Waits (ctx, w) x ∨ Waits (other, w) x →
      AtQueue conf lib w x ∧ saOf w x = some (due x)) :
    ∀ x, Waits (drainCryptoBuffers env (ctx, w)) x
        ∨ Waits (other, (drainCryptoBuffers env (ctx, w)).2) x →
      AtQueue conf lib (drainCryptoBuffers env (ctx, w)).2 x
        ∧ saOf (drainCryptoBuffers env (ctx, w)).2 x = some (due x) := by
  obtain ⟨l, hdrained⟩ :=
    drainCryptoBuffers_drained (R := AtQueue conf lib) atQueue_stable env (ctx, w)
  obtain ⟨log, hcall⟩ := call_of_drained hdrained (drainCryptoBuffers_own env (ctx, w))
    fun _ hx => absurd hx List.not_mem_nil
  exact (drain_carrying hwait hcall).1

/-- **THE DRAINS MADE FROM TIME TO TIME** give away what is in the tables. -/
theorem flush_kept (hlaws : Laws env cfg) (h : Promised cfg s)
    (hrun : drainBuffers env cfg s.core = .ok s'.core) (hdue : s'.due = s.due) :
    Stepped env cfg .flush s s' := by
  rw [drainBuffers] at hrun
  cases htx : drainTxBuffers cfg.tx s.core with
  | error e =>
      rw [htx] at hrun
      cases hrun
  | ok s1 =>
      rw [htx] at hrun
      have hcore := Except.ok.inj hrun
      have hsends := (drainTxBuffers_sends cfg.tx s.core).of_ok htx
      have hwait := h.waits.routed hlaws hsends.kept
      -- the inbound queues are drained first
      have hin := drainCryptoBuffers_carrying env hwait
      generalize drainCryptoBuffers env (s1.inbound, s1.world) = r at hin hcore
      have hall : ∀ x, Waits (s1.outbound, r.2) x ∨ Waits (r.1, r.2) x →
          AtQueue cfg.poll cfg.lib r.2 x ∧ saOf r.2 x = some (s.due x) :=
        fun x hx => hin x hx.symm
      have hout := drainCryptoBuffers_carrying env hall
      generalize drainCryptoBuffers env (s1.outbound, r.2) = r' at hout hcore
      have hreleased : ∀ x, released s'.core x = released s1 x := by
        rw [← hcore]
        exact released_congr rfl rfl
      obtain ⟨frags, hfrags, hle⟩ := hsends.bound
      refine ⟨?_, frags, fun x => ?_, fun x hx => ?_⟩
      · rw [hdue, ← hcore]
        exact fun x hx => hout x hx.symm
      · have hle := hle x
        rw [List.count_nil, Nat.add_zero] at hle
        rw [hreleased]
        exact hle
      · obtain ⟨m, hm, -⟩ := hfrags x hx
        cases hm

/-- **ELSEWHERE** nothing is let go. -/
theorem elsewhere_kept {w : World} (h : Promised cfg s)
    (hallowed : Allowed s.core (.elsewhere w)) (hcore : s'.core = { s.core with world := w })
    (hdue : s'.due = s.due) : Stepped env cfg (.elsewhere w) s s' := by
  obtain ⟨hsas, hqueues⟩ := hallowed
  refine ⟨?_, [], fun x => ?_, nofun⟩
  · rw [hdue, hcore]
    intro x hx
    obtain ⟨hpending, hmbuf⟩ := hqueues x hx
    obtain ⟨hat, htag⟩ := h.waits x hpending
    refine ⟨atQueue_stable _ _ x hmbuf hsas hat, ?_⟩
    show (w.mbuf x).priv.sa = _
    rw [hmbuf]
    exact htag
  · have hsame : released s'.core x = released s.core x := by
      rw [hcore]
      exact released_congr rfl rfl x
    rw [hsame]
    exact Nat.le_add_right _ _

/-- No packet is left in the arrays of the contexts between two steps. -/
theorem perform_rests {a : Act} {core core' : Lcore} (h : AtRest core)
    (hrun : perform env cfg a core = .ok core') : AtRest core' := by
  cases a with
  | burst port pkts mbufs =>
      rw [perform, receiveBurst] at hrun
      refine ((PacketCount.processPkts_carries _ port ?_).of_ok hrun).rests
      exact ⟨h.inbound, h.outbound⟩
  | drain port =>
      rw [perform] at hrun
      split at hrun
      · exact ((PacketCount.drainInbound_carries h).of_ok hrun).rests
      · exact ((PacketCount.drainOutbound_carries h).of_ok hrun).rests
  | flush => exact ((PacketCount.drainBuffers_carries h).of_ok hrun).rests
  | elsewhere w =>
      obtain rfl := Except.ok.inj hrun
      exact ⟨h.inbound, h.outbound⟩

/-- **A BURST** of either kind of port. -/
theorem burst_kept (hlaws : Laws env cfg) (hsingle : cfg.singleSa = false)
    (h : Promised cfg s) (hallowed : Allowed s.core (.burst port pkts mbufs))
    (hrun : perform env cfg (.burst port pkts mbufs) s.core = .ok s'.core)
    (hdue : s'.due = noted (lookups cfg s.core (.burst port pkts mbufs)) s.due) :
    Stepped env cfg (.burst port pkts mbufs) s s' := by
  obtain ⟨hnodup, hfresh⟩ := hallowed
  have hseen := seen_seen cfg port hnodup mbufs s.core
  obtain ⟨n, heq⟩ := receiveBurst_eq env cfg port pkts mbufs s.core
  rw [perform, heq] at hrun
  rw [lookups] at hdue
  cases hr : seen cfg port pkts mbufs s.core with
  | error e =>
      rw [hr] at hrun
      cases hrun
  | ok r =>
      rw [hr] at hrun hdue
      have hr' := hseen.of_ok hr
      cases hport : cfg.unprotected port with
      | true =>
          rw [hport] at hrun
          exact burst_in hlaws hsingle h hfresh hport hr hr' hrun hdue
      | false =>
          rw [hport] at hrun
          exact burst_out hlaws hsingle h hfresh hport hr hr' hrun hdue

/-- **ONE STEP**, whatever happens in it. -/
theorem Step.stepped {a : Act} (hlaws : Laws env cfg) (hsingle : cfg.singleSa = false)
    (h : Promised cfg s) (hstep : Step env cfg a s s') : Stepped env cfg a s s' := by
  have hrun := hstep.run
  have hdue := hstep.due
  cases a with
  | burst port pkts mbufs => exact burst_kept hlaws hsingle h hstep.allowed hrun hdue
  | drain port =>
      rw [perform] at hrun
      cases hport : cfg.unprotected port with
      | true =>
          rw [hport, if_pos rfl] at hrun
          exact drain_in hlaws h hport hrun hdue
      | false =>
          rw [hport] at hrun
          exact drain_out hlaws h hport hrun hdue
  | flush => exact flush_kept hlaws h hrun hdue
  | elsewhere w => exact elsewhere_kept h hstep.allowed (Except.ok.inj hrun).symm hdue

/-! ## Runs -/

/-- The invariant is kept. -/
theorem Step.promised {a : Act} (hlaws : Laws env cfg) (hsingle : cfg.singleSa = false)
    (h : Promised cfg s) (hstep : Step env cfg a s s') : Promised cfg s' :=
  ⟨perform_rests h.rests hstep.run, (hstep.stepped hlaws hsingle h).waits⟩

/-- A packet of which there is more on its way has been granted. -/
theorem Step.granted {a : Act} (hlaws : Laws env cfg) (hsingle : cfg.singleSa = false)
    (h : Promised cfg s) (hstep : Step env cfg a s s') {x : PktId}
    (hmore : released s.core x < released s'.core x) : Granted env cfg s s' a x := by
  obtain ⟨granted, hle, hwhy⟩ := (hstep.stepped hlaws hsingle h).granted
  have hle := hle x
  have hpos : 0 < granted.count x := by omega
  exact hwhy x (List.count_pos_iff.mp hpos)

/-- A lcore whose queues hold nothing yet. -/
theorem start_promised (t : QueueTables) (lcore : UInt8) {w : World} (due : PktId → SaPtr)
    (hidle : ∀ x, ¬ Pending (Lcore.start t lcore w) x) :
    Promised cfg ⟨Lcore.start t lcore w, due⟩ :=
  ⟨⟨⟨rfl, .inl rfl⟩, ⟨rfl, .inl rfl⟩⟩, fun x hx => absurd hx (hidle x)⟩

theorem start_released (t : QueueTables) (lcore : UInt8) (w : World) (x : PktId) :
    released (Lcore.start t lcore w) x = 0 := by
  show 0 + ∑ _port ∈ Finset.range maxEthports, 0 = 0
  simp

/-- **NOTHING LEAVES WITHOUT A POLICY**: whatever the lcore has given to a NIC, or has in
    a table for one, it has let go in a step of its run for one of the reasons of
    `Granted`, each time anew. -/
theorem only_granted_leaves (hlaws : Laws env cfg) (hsingle : cfg.singleSa = false)
    (t : QueueTables) (lcore : UInt8) {w : World} (due : PktId → SaPtr)
    (hidle : ∀ x, ¬ Pending (Lcore.start t lcore w) x) {s : Watch}
    (hrun : Rises.Reach (Step env cfg) ⟨Lcore.start t lcore w, due⟩ s) {x : PktId} {n : Nat}
    (hn : n < released s.core x) :
    ∃ a s₁ s₂, Rises.Reach (Step env cfg) ⟨Lcore.start t lcore w, due⟩ s₁
      ∧ Step env cfg a s₁ s₂ ∧ Rises.Reach (Step env cfg) s₂ s
      ∧ released s₁.core x ≤ n ∧ n < released s₂.core x ∧ Granted env cfg s₁ s₂ a x := by
  refine Rises.Reach.passed (Promised cfg) (fun s => released s.core x)
    (fun a s s' h hstep => hstep.promised hlaws hsingle h)
    (fun a s s' h hstep => hstep.granted hlaws hsingle h) hrun
    (start_promised t lcore due hidle) ?_ hn
  rw [start_released]
  exact Nat.zero_le n

/-- A lcore without policies that routes everything to port 1. -/
def clearConf : LcoreConf :=
  { PacketCount.libraryConf with
    singleSa := false
    lib := singleGroups
    tx := { PacketCount.libraryConf.tx with rt := ⟨fun _ => some 1, fun _ => none⟩ } }

theorem clearConf_laws : Laws sortingEnv clearConf where
  keeps := sortingEnv_lawful.completeSa
  lawful := fun _ => sortingEnv_lawful
  reads := by
    intro m m' h
    show codeSes (m'.priv.cop.ses.getD 0) = codeSes (m.priv.cop.ses.getD 0)
    rw [h]

/-- An unprotected port; the rules of IPv4 name the first SA. -/
def guardedConf : LcoreConf :=
  { clearConf with
    inCtx := burstCtx
    sad := fun _ => some 0
    unprotected := fun _ => true }

theorem guardedConf_laws : Laws sortingEnv guardedConf where
  keeps := clearConf_laws.keeps
  lawful := clearConf_laws.lawful
  reads := clearConf_laws.reads

/-- A lcore with crypto queues for an unprotected port. -/
def guardedStart : Lcore := Lcore.start inTables.tables 1 { espStart.2 with
  mbuf := CryptoQueue.blankWorld.mbuf }

/-- ESP packets come in, the buffers are flushed, and the queues are drained. -/
def guardedRun : Except Fault (Lcore × Lcore) := do
  let s₁ ← perform sortingEnv guardedConf (.burst 0 [0, 1] espStart.2.mbuf) guardedStart
  let s₂ ← perform sortingEnv guardedConf .flush s₁
  let s₃ ← perform sortingEnv guardedConf (.drain 0) s₂
  return (s₂, s₃)

/-- The packets wait in a device, and are let in by the drain: the first SA has processed
    them, and it is that of their rule. -/
theorem only_granted_leaves_drained :
    ∃ s s', Rises.Reach (Step sortingEnv guardedConf) ⟨guardedStart, fun _ => 7⟩ s
      ∧ released s.core 1 = 0 ∧ Step sortingEnv guardedConf (.drain 0) s s'
      ∧ s'.core.world.processed.map (fun e => (e.1, e.2.1)) = [(0, 0, false), (1, 0, false)]
      ∧ ∃ a s₁ s₂, Rises.Reach (Step sortingEnv guardedConf) ⟨guardedStart, fun _ => 7⟩ s₁
        ∧ Step sortingEnv guardedConf a s₁ s₂
        ∧ Rises.Reach (Step sortingEnv guardedConf) s₂ s'
        ∧ released s₁.core 1 ≤ 0 ∧ 0 < released s₂.core 1
        ∧ Granted sortingEnv guardedConf s₁ s₂ a 1 := by
  have hidle : ∀ x, ¬ Pending guardedStart x := by
    rintro x (⟨i, hx | hx⟩ | ⟨i, hx | hx⟩) <;> cases hx
  have hrun : guardedRun.toOption.map (fun r => (released r.1 1, released r.2 1,
      r.2.world.processed.map fun e => (e.1, e.2.1)))
      = some (0, 1, [(0, 0, false), (1, 0, false)]) := by decide +kernel
  rw [guardedRun] at hrun
  cases h₁ : perform sortingEnv guardedConf (.burst 0 [0, 1] espStart.2.mbuf) guardedStart with
  | error e =>
      rw [h₁] at hrun
      cases hrun
  | ok c₁ =>
      rw [h₁] at hrun
      dsimp only [bind, Except.bind] at hrun
      cases h₂ : perform sortingEnv guardedConf .flush c₁ with
      | error e =>
          rw [h₂] at hrun
          cases hrun
      | ok c₂ =>
          rw [h₂] at hrun
          dsimp only at hrun
          cases h₃ : perform sortingEnv guardedConf (.drain 0) c₂ with
          | error e =>
              rw [h₃] at hrun
              cases hrun
          | ok c₃ =>
              rw [h₃] at hrun
              obtain ⟨hbefore, hrest⟩ := Prod.mk.inj (Option.some.inj hrun)
              obtain ⟨hafter, hlog⟩ := Prod.mk.inj hrest
              obtain ⟨due, hdue⟩ : ∃ due, due = noted (lookups guardedConf guardedStart
                (.burst 0 [0, 1] espStart.2.mbuf)) fun _ => 7 := ⟨_, rfl⟩
              have hburst : Step sortingEnv guardedConf (.burst 0 [0, 1] espStart.2.mbuf)
                  ⟨guardedStart, fun _ => 7⟩ ⟨c₁, due⟩ :=
                ⟨⟨by decide, fun x _ => hidle x⟩, h₁, hdue⟩
              have hflush : Step sortingEnv guardedConf .flush ⟨c₁, due⟩ ⟨c₂, due⟩ :=
                ⟨trivial, h₂, rfl⟩
              have hdrain : Step sortingEnv guardedConf (.drain 0) ⟨c₂, due⟩ ⟨c₃, due⟩ :=
                ⟨trivial, h₃, rfl⟩
              have hreach := (Rises.Reach.single hburst).tail hflush
              have hmore : 0 < released c₃ 1 := by
                rw [hafter]
                exact Nat.one_pos
              exact ⟨_, _, hreach, hbefore, hdrain, hlog, only_granted_leaves guardedConf_laws
                rfl inTables.tables 1 (fun _ => 7) hidle (hreach.tail hdrain) hmore⟩

end PolicyRun
