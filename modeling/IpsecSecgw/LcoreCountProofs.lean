import IpsecSecgw.CdevProofs
import IpsecSecgw.EspHeaderProofs
import IpsecSecgw.PacketCountProofs
import IpsecSecgw.PollModel

/-! # Packet accounting

    Every packet a poll lcore has received is in one of three places: it has
    been given to a NIC, it has been freed, or the lcore holds it.  The counters
    `rx`, `tx` and `dropped` follow that but for one way to free packets,
    `free_cops`, which does not count: the balance holds until `enqueue_cop_bulk`
    offers a device operations that it does not take. -/

namespace PacketCount

open SaModel MbufModel SadModel CdevModel Esp IpsecModel WorkerModel SecgwModel
open Outcome Slots Sweep

variable {env : Env} {cfg : LcoreConf}

/-! ## What a lcore holds -/

/-- The packets in the transmit tables. -/
def txLoad (s : Lcore) : Nat :=
  ∑ port ∈ Finset.range maxEthports, (s.txMbufs port).length

/-- The packets a lcore holds. -/
def held (s : Lcore) : Nat :=
  txLoad s + load (s.inbound, s.world) + load (s.outbound, s.world)

/-- **THE BALANCE**. -/
def Balanced (s : Lcore) : Prop := s.rx = s.tx + s.world.dropped + held s

/-! ## Runs -/

/-- What other lcores do: they leave the queue pairs of this lcore alone, and
    what is counted and logged here. -/
structure Elsewhere (s : Lcore) (w : World) : Prop where
  inbound : ∀ i, i < s.inbound.nbQps →
    w.pair (s.inbound.tbl i).toCdevQp = s.world.pair (s.inbound.tbl i).toCdevQp
  outbound : ∀ i, i < s.outbound.nbQps →
    w.pair (s.outbound.tbl i).toCdevQp = s.world.pair (s.outbound.tbl i).toCdevQp
  dropped : w.dropped = s.world.dropped
  copsFreed : w.copsFreed = s.world.copsFreed
  queued : w.queued = s.world.queued

/-- A step of the main loop: the drains, a round for one receive queue, or
    something elsewhere. -/
inductive Step (env : Env) (cfg : LcoreConf) (s s' : Lcore) : Prop
  | drain (h : drainBuffers env cfg s = .ok s')
  | poll (port : UInt16) (pkts : List PktId) (mbufs : PktId → Mbuf)
      (hlen : pkts.length ≤ maxPktBurst)
      (h : pollQueue env cfg port pkts mbufs s = .ok s')
  | elsewhere (w : World) (hw : Elsewhere s w) (h : s' = { s with world := w })

/-! ## Classification and policies -/

/-- The packets of a burst. -/
def burstLen (t : Burst) : Nat := t.ipsec.length + trfLen t.trf

theorem burstLen_add (t : Burst) (p : PktId) (cls : PktClass) :
    burstLen (t.add p cls) = burstLen t + if cls = .freed then 0 else 1 := by
  have hone : ∀ l : List PktId, (l ++ [p]).length = l.length + 1 :=
    fun l => List.length_append
  cases cls with
  | ipsec =>
      show (t.ipsec ++ [p]).length + trfLen t.trf = burstLen t + 1
      rw [hone, burstLen]
      omega
  | ip4 =>
      show t.ipsec.length + ((t.trf.ip4 ++ [p]).length + t.trf.ip6.length)
        = burstLen t + 1
      rw [hone, burstLen, trfLen]
      omega
  | ip6 =>
      show t.ipsec.length + (t.trf.ip4.length + (t.trf.ip6 ++ [p]).length)
        = burstLen t + 1
      rw [hone, burstLen, trfLen]
      omega
  | freed => rfl

/-- **CLASSIFICATION** frees packets or puts them into an array. -/
theorem prepareTraffic_settles (conf : PollConf) (pkts : List PktId) (w : World) :
    Ends (prepareTraffic conf pkts w) (fun _ => True)
      (fun r => ∃ k, Settles w k r.2 ∧ k + burstLen r.1 = pkts.length) := by
  rw [prepareTraffic]
  refine (ends_foldlM (P := fun todo r => ∃ k, Settles w k r.2
    ∧ k + burstLen r.1 + todo.length = pkts.length)
    ⟨0, Settles.refl w, Nat.zero_add _⟩ ?_).mono (fun _ h => h) ?_
  · rintro p todo r ⟨k, hk, hcount⟩
    rw [prepareTrafficOne]
    split
    · exact ends_error trivial
    rename_i cls m _
    have hmodify : Settles w k (r.2.modify p fun _ => m) := hk.then ⟨rfl, rfl, rfl⟩
    have hadd := burstLen_add r.1 p cls
    rw [List.length_cons] at hcount
    dsimp only
    split
    · rename_i hfreed
      rw [if_pos hfreed] at hadd
      refine ends_ok ⟨k + 1, hmodify.trans (settles_freePkts _ [p]), ?_⟩
      dsimp only
      omega
    · rename_i hfreed
      rw [if_neg hfreed] at hadd
      refine ends_ok ⟨k, hmodify, ?_⟩
      dsimp only
      omega
  · rintro r ⟨k, hk, hcount⟩
    exact ⟨k, hk, hcount⟩

/-- **INBOUND POLICIES** of one family. -/
theorem inboundSpSa_settles (sp : Option SpCtx) (saCtx : SaCtx) (off lim : Nat)
    (pkts : List PktId) (stats : SpdStats) (w : World) :
    ∃ k, Settles w k (inboundSpSa sp saCtx off lim pkts stats w).2.2
      ∧ k + (inboundSpSa sp saCtx off lim pkts stats w).1.length
        = pkts.length := by
  cases sp with
  | none => exact ⟨0, Settles.refl w, Nat.zero_add _⟩
  | some acl =>
      have hround : ∀ i m (s : SpdState),
          (inboundSpSaOne acl saCtx off lim w i m s).2.2.length
            + (if (inboundSpSaOne acl saCtx off lim w i m s).1 then 1 else 0)
          = s.2.length + 1 := by
        intro i m s
        rw [inboundSpSaOne]
        dsimp only
        have hdrop : (s.2 ++ [m]).length + 0 = s.2.length + 1 := List.length_append
        split
        · rfl
        split
        · exact hdrop
        split
        · exact hdrop
        split
        · exact hdrop
        · rfl
      have hcount := keptFrom_count (fun s : SpdState => s.2.length) hround 0 pkts
        (stats, [])
      rw [inboundSpSa, sweep_eq]
      dsimp only at hcount ⊢
      exact ⟨_, settles_freePkts w _, hcount.trans (Nat.zero_add _)⟩

theorem inboundPolicies_settles (ctx : EvCtx) (n4 n6 : Nat) (trf : Traffic)
    (stats : DirStats) (w : World) :
    ∃ k, Settles w k (inboundPolicies ctx n4 n6 trf stats w).2.2
      ∧ k + trfLen (inboundPolicies ctx n4 n6 trf stats w).1 = trfLen trf := by
  obtain ⟨k, hk, hcount⟩ := inboundSpSa_settles ctx.sp4Ctx ctx.saCtx ip4Proto n4
    trf.ip4 stats.spd4 w
  obtain ⟨k', hk', hcount'⟩ := inboundSpSa_settles ctx.sp6Ctx ctx.saCtx ip6Proto
    n6 trf.ip6 stats.spd6
    (inboundSpSa ctx.sp4Ctx ctx.saCtx ip4Proto n4 trf.ip4 stats.spd4 w).2.2
  refine ⟨k + k', hk.trans hk', ?_⟩
  rw [inboundPolicies, trfLen, trfLen]
  dsimp only
  omega

/-- **OUTBOUND POLICIES** of one family. -/
theorem outboundSpdLookup_settles (sp : Option SpCtx) (off : Nat)
    (pkts : List PktId) (ipsec : List (PktId × UInt32)) (stats : SpdStats)
    (w : World) :
    ∃ k, Settles w k (outboundSpdLookup sp off pkts ipsec stats w).2.2.2
      ∧ k + (outboundSpdLookup sp off pkts ipsec stats w).1.length
        + (outboundSpdLookup sp off pkts ipsec stats w).2.1.length
        = pkts.length + ipsec.length := by
  cases sp with
  | none =>
      refine ⟨0, Settles.refl w, ?_⟩
      rw [Nat.zero_add]
      rfl
  | some acl =>
      have hround : ∀ i m (s : SpdLookup),
          (outboundSpdOne acl off w i m s).2.freed.length
            + (outboundSpdOne acl off w i m s).2.ipsec.length
            + (if (outboundSpdOne acl off w i m s).1 then 1 else 0)
          = s.freed.length + s.ipsec.length + 1 := by
        intro i m s
        rw [outboundSpdOne]
        dsimp only
        split
        · show (s.freed ++ [m]).length + s.ipsec.length + 0 = _
          rw [List.length_append, List.length_singleton]
          omega
        split
        · rfl
        · show s.freed.length + (s.ipsec ++ [_]).length + 0 = _
          rw [List.length_append, List.length_singleton]
          omega
      have hcount := keptFrom_count
        (fun s : SpdLookup => s.freed.length + s.ipsec.length) hround 0 pkts
        { stats, ipsec }
      rw [outboundSpdLookup, sweep_eq]
      dsimp only at hcount ⊢
      refine ⟨_, settles_freePkts w _, ?_⟩
      rw [List.length_nil] at hcount
      omega

theorem outboundPolicies_settles (ctx : EvCtx) (trf : Traffic) (stats : DirStats)
    (w : World) :
    ∃ k, Settles w k (outboundPolicies ctx trf stats w).2.2.2
      ∧ k + trfLen (outboundPolicies ctx trf stats w).1
        + (outboundPolicies ctx trf stats w).2.1.length = trfLen trf := by
  obtain ⟨k, hk, hcount⟩ := outboundSpdLookup_settles ctx.sp4Ctx ip4Proto trf.ip4
    [] stats.spd4 w
  generalize hr : outboundSpdLookup ctx.sp4Ctx ip4Proto trf.ip4 [] stats.spd4 w
    = r at hk hcount
  obtain ⟨k', hk', hcount'⟩ := outboundSpdLookup_settles ctx.sp6Ctx ip6Proto
    trf.ip6 r.2.1 stats.spd6 r.2.2.2
  rw [outboundPolicies, hr]
  refine ⟨k + k', hk.trans hk', ?_⟩
  rw [trfLen, trfLen]
  dsimp only
  rw [List.length_nil] at hcount
  omega

/-- **SPLITTING** by family frees what is of none. -/
theorem split46Traffic_settles (trf : Traffic) (mb : List PktId) (w : World) :
    ∃ k, Settles w k (split46Traffic trf mb w).2
      ∧ k + trfLen (split46Traffic trf mb w).1 = mb.length + trfLen trf := by
  have hloop : ∀ (l : List PktId) (s : Traffic × List PktId),
      (l.foldl (split46One w) s).2.length + trfLen (l.foldl (split46One w) s).1
        = l.length + (s.2.length + trfLen s.1) := by
    intro l
    induction l with
    | nil =>
        intro s
        exact (Nat.zero_add _).symm
    | cons m l ih =>
        intro s
        have hone : (split46One w s m).2.length + trfLen (split46One w s m).1
            = 1 + (s.2.length + trfLen s.1) := by
          rw [split46One]
          dsimp only
          split
          · show s.2.length + ((s.1.ip4 ++ [m]).length + s.1.ip6.length) = _
            rw [List.length_append, List.length_singleton, trfLen]
            omega
          split
          · show s.2.length + (s.1.ip4.length + (s.1.ip6 ++ [m]).length) = _
            rw [List.length_append, List.length_singleton, trfLen]
            omega
          · show (s.2 ++ [m]).length + trfLen s.1 = _
            rw [List.length_append, List.length_singleton]
            omega
        rw [List.foldl_cons, ih, hone, List.length_cons]
        omega
  refine ⟨_, settles_freePkts w _, ?_⟩
  exact (hloop mb (trf, [])).trans (congrArg (mb.length + ·) (Nat.zero_add _))

theorem trfLen_appendOne (w : World) (pkts : List PktId) (trf : Traffic) :
    trfLen (pkts.foldl (appendOne w) trf) = pkts.length + trfLen trf := by
  induction pkts generalizing trf with
  | nil => exact (Nat.zero_add _).symm
  | cons m pkts ih =>
      have hone : trfLen (appendOne w trf m) = 1 + trfLen trf := by
        rw [appendOne]
        split
        · show (trf.ip4 ++ [m]).length + trf.ip6.length = _
          rw [List.length_append, List.length_singleton, trfLen]
          omega
        · show trf.ip4.length + (trf.ip6 ++ [m]).length = _
          rw [List.length_append, List.length_singleton, trfLen]
          omega
      rw [List.foldl_cons, ih, hone, List.length_cons]
      omega

/-! ## The paths of a burst -/

theorem inboundSaLookup_length (sad : PktId → Option SaPtr) (w : World)
    (pkts : List PktId) : (inboundSaLookup sad w pkts).length = pkts.length :=
  List.length_map _

theorem outboundSaLookup_length (saCtx : SaCtx) (ipsec : List (PktId × UInt32)) :
    (outboundSaLookup saCtx ipsec).length = ipsec.length :=
  List.length_map _

/-- **INBOUND** up to the policies. -/
theorem inboundCrypto_serves (conf : PollConf) (sad : PktId → Option SaPtr)
    (t : Burst) {s : State} (hs : Resting s.1) :
    Ends (inboundCrypto env conf sad t s) (fun _ => True)
      (fun r => Serves s (burstLen t) r.2 (trfLen r.1)) := by
  rw [inboundCrypto]
  dsimp only
  have hlen := inboundSaLookup_length sad s.2 t.ipsec
  split
  · refine (ipsecProcess_serves env _ t.trf hs).mono (fun _ h => h) ?_
    intro r hr
    rw [hlen] at hr
    exact hr
  · refine (ipsecBurst_serves env espInboundFn espInboundPostFn _ hs).bind ?_
    rintro ⟨pkts, s'⟩ hr
    rw [hlen] at hr
    obtain ⟨k, hk, hcount⟩ := split46Traffic_settles t.trf pkts s'.2
    exact ends_pure ((hr.frame (trfLen t.trf)).trans
      ((hk.serves hr.rests _).cast hcount rfl))

theorem processPktsInbound_serves (conf : PollConf) (ctx : EvCtx)
    (sad : PktId → Option SaPtr) (t : Burst) (stats : DirStats) {s : State}
    (hs : Resting s.1) :
    Ends (processPktsInbound env conf ctx sad t stats s) (fun _ => True)
      (fun r => Serves s (burstLen t) r.2.2 (trfLen r.1)) := by
  rw [processPktsInbound]
  refine (inboundCrypto_serves conf sad t hs).bind ?_
  rintro ⟨trf, s'⟩ hr
  obtain ⟨k, hk, hcount⟩ := inboundPolicies_settles ctx t.trf.ip4.length
    t.trf.ip6.length trf stats s'.2
  exact ends_pure (hr.trans ((hk.serves hr.rests _).cast hcount rfl))

/-- **OUTBOUND**, the part behind the policies. -/
theorem outboundCrypto_serves (conf : PollConf)
    (burst : List (PktId × Option SaRef)) (trf : Traffic) {s : State}
    (hs : Resting s.1) :
    Ends (outboundCrypto env conf burst trf s) (fun _ => True)
      (fun r => Serves s (burst.length + trfLen trf) r.2 (trfLen r.1)) := by
  rw [SecgwModel.outboundCrypto]
  split
  · exact ipsecProcess_serves env burst trf hs
  · refine (ipsecBurst_serves env espOutbound espOutboundPostFn burst hs).bind ?_
    rintro ⟨pkts, s'⟩ hr
    refine ends_pure ((hr.frame (trfLen trf)).cast rfl ?_)
    exact (trfLen_appendOne s'.2 pkts trf).symm

theorem processPktsOutbound_serves (conf : PollConf) (ctx : EvCtx) (t : Burst)
    (stats : DirStats) {s : State} (hs : Resting s.1) :
    Ends (processPktsOutbound env conf ctx t stats s) (fun _ => True)
      (fun r => Serves s (burstLen t) r.2.2 (trfLen r.1)) := by
  rw [processPktsOutbound]
  dsimp only
  have hfree := settles_freePkts s.2 t.ipsec
  obtain ⟨k, hk, hcount⟩ := outboundPolicies_settles ctx t.trf stats
    (s.2.freePkts t.ipsec)
  generalize outboundPolicies ctx t.trf stats (s.2.freePkts t.ipsec) = p
    at hk hcount
  have hin : Serves s (burstLen t) (s.1, p.2.2.2) (p.2.1.length + trfLen p.1) := by
    refine ((hfree.trans hk).serves hs _).cast ?_ rfl
    rw [burstLen]
    omega
  refine (outboundCrypto_serves conf _ p.1 (s := (s.1, p.2.2.2)) hs).bind ?_
  rintro ⟨trf, s'⟩ hr
  rw [outboundSaLookup_length] at hr
  exact ends_pure (hin.trans hr)

theorem processPktsInboundNosp_serves (conf : PollConf)
    (sad : PktId → Option SaPtr) (t : Burst) {s : State} (hs : Resting s.1) :
    Ends (processPktsInboundNosp env conf sad t s) (fun _ => True)
      (fun r => Serves s (burstLen t) r.2 (trfLen r.1)) := by
  rw [processPktsInboundNosp]
  dsimp only
  have hlen := inboundSaLookup_length sad s.2 t.ipsec
  split
  · refine (ipsecProcess_serves env _ t.trf hs).mono (fun _ h => h) ?_
    intro r hr
    rw [hlen] at hr
    exact hr
  · refine (ipsecBurst_serves env espInboundFn espInboundPostFn _ hs).bind ?_
    rintro ⟨pkts, s'⟩ hr
    rw [hlen] at hr
    refine ends_pure ((hr.frame (trfLen t.trf)).cast rfl ?_)
    exact (trfLen_appendOne s'.2 pkts t.trf).symm

theorem processPktsOutboundNosp_serves (conf : PollConf) (saCtx : SaCtx)
    (saIdx : UInt32) (t : Burst) {s : State} (hs : Resting s.1) :
    Ends (processPktsOutboundNosp env conf saCtx saIdx t s) (fun _ => True)
      (fun r => Serves s (burstLen t) r.2 (trfLen r.1)) := by
  rw [processPktsOutboundNosp]
  dsimp only
  have hlen : (outboundSaLookup saCtx
      ((t.trf.ip4 ++ t.trf.ip6).map (·, saIdx))).length = trfLen t.trf := by
    rw [outboundSaLookup_length, List.length_map, List.length_append, trfLen]
  have hfree : Serves s (burstLen t) (s.1, s.2.freePkts t.ipsec) (trfLen t.trf) :=
    (settles_freePkts s.2 t.ipsec).serves hs (trfLen t.trf)
  split
  · refine (ipsecProcess_serves env _ {} (s := (s.1, s.2.freePkts t.ipsec))
      hs).mono (fun _ h => h) ?_
    intro r hr
    rw [hlen] at hr
    exact hfree.trans hr
  · refine (ipsecBurst_serves env espOutbound espOutboundPostFn _
      (s := (s.1, s.2.freePkts t.ipsec)) hs).bind ?_
    rintro ⟨pkts, s'⟩ hr
    rw [hlen] at hr
    dsimp only
    split
    · exact ends_error trivial
    · split
      · exact ends_pure (hfree.trans hr)
      · exact ends_pure ((hfree.trans hr).cast rfl (Nat.zero_add _).symm)

/-! ## The drains of a direction -/

/-- Operations that come back are grouped, and those refused are freed. -/
theorem cqpGroup_settles (env : Env) (t : Traffic × World)
    (g : SaRef × List PktId) :
    ∃ k, Settles t.2 k (cqpGroup env t g).2
      ∧ k + trfLen (cqpGroup env t g).1 = g.2.length + trfLen t.1 := by
  have hlen : (rteIpsecPktProcess env g.1 g.2 t.2).1.1.length = g.2.length :=
    (env.handle_perm _ _ _).length_eq
  have hdone := settles_process env g.1 g.2 t.2
  rw [cqpGroup]
  dsimp only
  generalize rteIpsecPktProcess env g.1 g.2 t.2 = r at hlen hdone
  refine ⟨_, hdone.trans (settles_freePkts r.2 (r.1.1.drop r.1.2)), ?_⟩
  rw [trfLen_copyToTrf]
  have := take_drop_length r.1.1 r.1.2
  omega

theorem cqpGroups_settles (env : Env) (gs : List (SaRef × List PktId))
    (t : Traffic × World) :
    ∃ k, Settles t.2 k (gs.foldl (cqpGroup env) t).2
      ∧ k + trfLen (gs.foldl (cqpGroup env) t).1
        = (gs.flatMap Prod.snd).length + trfLen t.1 := by
  induction gs generalizing t with
  | nil => exact ⟨0, Settles.refl _, rfl⟩
  | cons g gs ih =>
      obtain ⟨k, hk, hcount⟩ := cqpGroup_settles env t g
      obtain ⟨k', hk', hcount'⟩ := ih (cqpGroup env t g)
      refine ⟨k + k', hk.trans hk', ?_⟩
      rw [List.foldl_cons, List.flatMap_cons, List.length_append]
      omega

/-- **DEQUEUEING** on that path. -/
theorem ipsecCqpProcess_serves (env : Env) (lib : CryptoGroup) {s : State}
    (hs : Resting s.1) :
    Serves s 0 (ipsecCqpProcess env lib s).2
      (trfLen (ipsecCqpProcess env lib s).1) := by
  have hdeq := ctxDequeue_serves env trafficDim hs
  rw [ipsecCqpProcess]
  generalize ctxDequeue env trafficDim s = r at hdeq
  obtain ⟨ops, s'⟩ := r
  dsimp only at hdeq ⊢
  split
  · rename_i hnone
    rw [hnone] at hdeq
    exact hdeq
  · obtain ⟨k, hk, hcount⟩ := cqpGroups_settles env (lib.group s'.2 ops) ({}, s'.2)
    rw [(lib.group_perm s'.2 ops).length_eq] at hcount
    exact hdeq.trans ((hk.serves hdeq.rests _).cast hcount rfl)

theorem drainCrypto_serves (lib : CryptoGroup) (conf : PollConf) (post : XformFn)
    {s : State} (hs : Resting s.1) :
    Ends (drainCrypto env lib conf post s) (fun _ => True)
      (fun r => Serves s 0 r.2 (trfLen r.1)) := by
  rw [drainCrypto]
  split
  · exact ends_pure (ipsecCqpProcess_serves env lib hs)
  · refine (ipsecDequeue_serves env post trafficDim _ [] hs (Nat.le_refl _)).bind ?_
    rintro ⟨pkts, s'⟩ hr
    obtain ⟨k, hk, hcount⟩ := split46Traffic_settles {} pkts s'.2
    exact ends_pure (hr.trans ((hk.serves hr.rests _).cast hcount rfl))

theorem drainInboundCryptoQueues_serves (lib : CryptoGroup) (conf : PollConf)
    (ctx : EvCtx) (stats : DirStats) {s : State} (hs : Resting s.1) :
    Ends (drainInboundCryptoQueues env lib conf ctx stats s) (fun _ => True)
      (fun r => Serves s 0 r.2.2 (trfLen r.1)) := by
  rw [drainInboundCryptoQueues]
  refine (drainCrypto_serves lib conf espInboundPostFn hs).bind ?_
  rintro ⟨trf, s'⟩ hr
  obtain ⟨k, hk, hcount⟩ := inboundPolicies_settles ctx 0 0 trf stats s'.2
  exact ends_pure (hr.trans ((hk.serves hr.rests _).cast hcount rfl))

/-! ## Calls of a lcore -/

/-- All packets a lcore has had. -/
def total (s : Lcore) : Nat := s.tx + settled s.world + held s

/-- The queues of a lcore are on different pairs. -/
structure Separate (s : Lcore) : Prop where
  inbound : Distinct s.inbound
  outbound : Distinct s.outbound
  apart : ∀ i j, i < s.inbound.nbQps → j < s.outbound.nbQps →
    (s.inbound.tbl i).toCdevQp ≠ (s.outbound.tbl j).toCdevQp

/-- Both contexts are at rest. -/
structure AtRest (s : Lcore) : Prop where
  inbound : Resting s.inbound
  outbound : Resting s.outbound

/-- **A CALL** of a lcore takes `n` packets in and gives `m` back. -/
structure Carries (s : Lcore) (n : Nat) (s' : Lcore) (m : Nat) : Prop where
  inbound : SameKeys s.inbound s'.inbound
  outbound : SameKeys s.outbound s'.outbound
  rests : AtRest s'
  rx : s'.rx = s.rx
  sent : s'.tx + s.sent.length = s.tx + s'.sent.length
  log : s.world.queued ⊆ s'.world.queued
  fragmented : s.fragmented ⊆ s'.fragmented
  count : UsesFit s'.world → s'.fragmented = [] → Separate s →
    total s' + m = total s + n

theorem Separate.same {s s' : Lcore} (h : Separate s)
    (hin : SameKeys s.inbound s'.inbound)
    (hout : SameKeys s.outbound s'.outbound) : Separate s' := by
  refine ⟨hin.distinct h.inbound, hout.distinct h.outbound, ?_⟩
  intro i j hi hj
  rw [hin.key, hout.key]
  rw [hin.nbQps] at hi
  rw [hout.nbQps] at hj
  exact h.apart i j hi hj

theorem Carries.refl {s : Lcore} (hs : AtRest s) (n : Nat) : Carries s n s n :=
  ⟨SameKeys.refl _, SameKeys.refl _, hs, rfl, rfl, fun _ h => h, fun _ h => h,
    fun _ _ _ => rfl⟩

/-- What the counter gains is given to a NIC. -/
theorem Carries.sent_trans {s s' s'' : Lcore} {n m : Nat} (h : Carries s n s' m)
    (h' : s''.tx + s'.sent.length = s'.tx + s''.sent.length) :
    s''.tx + s.sent.length = s.tx + s''.sent.length := by
  have := h.sent
  omega

theorem Carries.trans {s s' s'' : Lcore} {n m l : Nat} (h : Carries s n s' m)
    (h' : Carries s' m s'' l) : Carries s n s'' l := by
  refine ⟨h.inbound.trans h'.inbound, h.outbound.trans h'.outbound, h'.rests,
    h'.rx.trans h.rx, h.sent_trans h'.sent, fun _ hu => h'.log (h.log hu),
    fun _ hu => h'.fragmented (h.fragmented hu), ?_⟩
  intro hfit hfrag hsep
  have hnone : s'.fragmented = [] :=
    List.subset_nil.mp (hfrag ▸ h'.fragmented)
  rw [h'.count hfit hfrag (hsep.same h.inbound h.outbound),
    h.count (hfit.mono h'.log) hnone hsep]

theorem Carries.frame {s s' : Lcore} {n m : Nat} (h : Carries s n s' m) (k : Nat) :
    Carries s (n + k) s' (m + k) := by
  refine ⟨h.inbound, h.outbound, h.rests, h.rx, h.sent, h.log, h.fragmented, ?_⟩
  intro hfit hfrag hsep
  have := h.count hfit hfrag hsep
  omega

theorem Carries.cast {s s' : Lcore} {n m n' m' : Nat} (h : Carries s n s' m)
    (hn : n = n') (hm : m = m') : Carries s n' s' m' := by
  rw [← hn, ← hm]
  exact h

/-- The load of a context whose pairs a call leaves alone. -/
theorem load_congr {ctx : IpsecCtx} {w w' : World}
    (h : ∀ i, i < ctx.nbQps →
      w'.pair (ctx.tbl i).toCdevQp = w.pair (ctx.tbl i).toCdevQp) :
    load (ctx, w') = load (ctx, w) := by
  rw [load, load]
  refine Finset.sum_congr rfl ?_
  intro i hi
  rw [queueLoad, queueLoad, h i (Finset.mem_range.mp hi)]

/-- A context at rest holds what its queues hold. -/
theorem Resting.content {s : State} (h : Resting s.1) : content s = load s := by
  rw [PacketCount.content, h.ol]
  rfl

/-- **INBOUND**: a call on one context leaves the queues of the other. -/
theorem Serves.inbound {s : Lcore} {r : State} {n m : Nat}
    (h : Serves (s.inbound, s.world) n r m) (hs : AtRest s) (stats : DirStats) :
    Carries s n { s with inbound := r.1, world := r.2, inStats := stats } m := by
  refine ⟨h.keys, SameKeys.refl _, ⟨h.rests, hs.outbound⟩, rfl, rfl, h.log,
    fun _ hx => hx, ?_⟩
  intro hfit _ hsep
  have hcount := h.count hfit hsep.inbound
  rw [h.rests.content, Resting.content (s := (s.inbound, s.world)) hs.inbound]
    at hcount
  have hother : load (s.outbound, r.2) = load (s.outbound, s.world) := by
    refine load_congr fun j hj => ?_
    exact h.others hfit _ fun i hi => (hsep.apart i j hi hj).symm
  show s.tx + settled r.2 + (txLoad s + load r + load (s.outbound, r.2)) + m
    = s.tx + settled s.world
      + (txLoad s + load (s.inbound, s.world) + load (s.outbound, s.world)) + n
  rw [hother]
  dsimp only at hcount
  omega

/-- **OUTBOUND**. -/
theorem Serves.outbound {s : Lcore} {r : State} {n m : Nat}
    (h : Serves (s.outbound, s.world) n r m) (hs : AtRest s) (stats : DirStats) :
    Carries s n { s with outbound := r.1, world := r.2, outStats := stats } m := by
  refine ⟨SameKeys.refl _, h.keys, ⟨hs.inbound, h.rests⟩, rfl, rfl, h.log,
    fun _ hx => hx, ?_⟩
  intro hfit _ hsep
  have hcount := h.count hfit hsep.outbound
  rw [h.rests.content, Resting.content (s := (s.outbound, s.world)) hs.outbound]
    at hcount
  have hother : load (s.inbound, r.2) = load (s.inbound, s.world) := by
    refine load_congr fun i hi => ?_
    exact h.others hfit _ fun j hj => hsep.apart i j hi hj
  show s.tx + settled r.2 + (txLoad s + load (s.inbound, r.2) + load r) + m
    = s.tx + settled s.world
      + (txLoad s + load (s.inbound, s.world) + load (s.outbound, s.world)) + n
  rw [hother]
  dsimp only at hcount
  omega

/-- Work on the world. -/
theorem Settles.carries {s : Lcore} {w : World} {k : Nat}
    (h : Settles s.world k w) (hs : AtRest s) (m : Nat) :
    Carries s (k + m) { s with world := w } m :=
  (Settles.serves (s := (s.inbound, s.world)) h hs.inbound m).inbound hs s.inStats

/-! ## Transmission -/

/-- A port's table is replaced. -/
theorem txLoad_setTx (s : Lcore) {port : Nat} (hport : port < maxEthports)
    (tbl : List PktId) :
    txLoad (s.setTx port tbl) + (s.txMbufs port).length = txLoad s + tbl.length := by
  have hmem : port ∈ Finset.range maxEthports := Finset.mem_range.mpr hport
  have hrest : ∑ i ∈ (Finset.range maxEthports).erase port,
      ((s.setTx port tbl).txMbufs i).length
      = ∑ i ∈ (Finset.range maxEthports).erase port, (s.txMbufs i).length := by
    refine Finset.sum_congr rfl ?_
    intro i hi
    show (Function.update s.txMbufs port tbl i).length = _
    rw [Function.update_of_ne (Finset.ne_of_mem_erase hi)]
  have hself : (s.setTx port tbl).txMbufs port = tbl := Function.update_self ..
  have hnew : txLoad (s.setTx port tbl) = tbl.length
      + ∑ i ∈ (Finset.range maxEthports).erase port, (s.txMbufs i).length := by
    rw [← hrest]
    have hsum := Finset.add_sum_erase (Finset.range maxEthports)
      (fun i => ((s.setTx port tbl).txMbufs i).length) hmem
    rw [hself] at hsum
    exact hsum.symm
  have hold : txLoad s = (s.txMbufs port).length
      + ∑ i ∈ (Finset.range maxEthports).erase port, (s.txMbufs i).length :=
    (Finset.add_sum_erase _ _ hmem).symm
  omega

/-- Packets are taken from a table and put into it. -/
theorem setTx_carries {s : Lcore} (hs : AtRest s) {port : Nat}
    (hport : port < maxEthports) {tbl : List PktId} {n m : Nat}
    (h : tbl.length + m = (s.txMbufs port).length + n) :
    Carries s n (s.setTx port tbl) m := by
  refine ⟨SameKeys.refl _, SameKeys.refl _, ⟨hs.inbound, hs.outbound⟩, rfl, rfl,
    fun _ hx => hx, fun _ hx => hx, ?_⟩
  intro _ _ _
  have hload := txLoad_setTx s hport tbl
  show s.tx + settled s.world + (txLoad (s.setTx port tbl)
      + load (s.inbound, s.world) + load (s.outbound, s.world)) + m
    = s.tx + settled s.world + (txLoad s + load (s.inbound, s.world)
      + load (s.outbound, s.world)) + n
  omega

theorem prepareTx_settles (tx : TxConf) (port : Nat) (tbl : List PktId)
    (w : World) :
    Ends (tbl.foldlM (prepareTxOne tx port) w) (fun _ => True)
      (fun w' => Settles w 0 w') := by
  refine ends_foldlM (P := fun _ w' => Settles w 0 w') (Settles.refl w) ?_
  intro p _ w' h
  rw [prepareTxOne]
  split
  · exact ends_error trivial
  · exact ends_ok (h.then ⟨rfl, rfl, rfl⟩)

/-- **A TABLE IS SENT**: what the NIC does not take is freed. -/
theorem flushTx_carries (tx : TxConf) {port : Nat} (hport : port < maxEthports)
    {s : Lcore} (hs : AtRest s) :
    Ends (flushTx tx port s) (fun _ => True) (fun s' => Carries s 0 s' 0) := by
  rw [flushTx, sendBurst]
  refine Ends.bind (P := fun s' => Carries s (s.txMbufs port).length s' 0
    ∧ s'.txMbufs = s.txMbufs) ?_ ?_
  · refine (prepareTx_settles tx port _ s.world).bind ?_
    intro w hw
    have hle : min (tx.txTake w.tick) (s.txMbufs port).length
        ≤ (s.txMbufs port).length := Nat.min_le_right _ _
    dsimp only
    generalize min (tx.txTake w.tick) (s.txMbufs port).length = ret at hle
    have hfree : Settles s.world ((s.txMbufs port).drop ret).length
        (w.next.freePkts ((s.txMbufs port).drop ret)) := by
      have hnext : Settles s.world 0 w.next := hw.then ⟨rfl, rfl, rfl⟩
      have hall := hnext.trans (settles_freePkts w.next ((s.txMbufs port).drop ret))
      rw [Nat.zero_add] at hall
      exact hall
    have hworld := hfree.carries hs 0
    refine ends_pure ⟨⟨hworld.inbound, hworld.outbound,
      ⟨hs.inbound, hs.outbound⟩, rfl, ?_, hworld.log, hworld.fragmented, ?_⟩, rfl⟩
    · show s.tx + ret + s.sent.length = s.tx
        + (s.sent ++ ((s.txMbufs port).take ret).map (·, port)).length
      rw [List.length_append, List.length_map, List.length_take,
        Nat.min_eq_left hle]
      omega
    intro hfit hfrag hsep
    have hcount := hworld.count hfit hfrag hsep
    rw [List.length_drop] at hcount
    show s.tx + ret + settled (w.next.freePkts _) + (txLoad s
        + load (s.inbound, w.next.freePkts _)
        + load (s.outbound, w.next.freePkts _)) + 0
      = total s + (s.txMbufs port).length
    have hcount : s.tx + settled (w.next.freePkts ((s.txMbufs port).drop ret))
        + (txLoad s + load (s.inbound, w.next.freePkts ((s.txMbufs port).drop ret))
          + load (s.outbound, w.next.freePkts ((s.txMbufs port).drop ret))) + 0
        = total s + ((s.txMbufs port).length - ret + 0) := hcount
    omega
  · rintro s' ⟨hsent, htbl⟩
    -- the table is emptied, so its packets are not counted twice
    have hclear : Carries s' 0 (s'.setTx port []) (s.txMbufs port).length := by
      refine setTx_carries hsent.rests hport ?_
      rw [htbl]
      exact Nat.zero_add _
    refine ends_pure ⟨hsent.inbound.trans hclear.inbound,
      hsent.outbound.trans hclear.outbound, hclear.rests,
      hclear.rx.trans hsent.rx, hsent.sent_trans hclear.sent,
      fun _ hu => hclear.log (hsent.log hu),
      fun _ hu => hclear.fragmented (hsent.fragmented hu), ?_⟩
    intro hfit hfrag hsep
    have h1 := hsent.count hfit hfrag hsep
    have h2 := hclear.count hfit hfrag (hsep.same hsent.inbound hsent.outbound)
    omega

/-- A packet cut into fragments is logged. -/
theorem sendFragmentPacket_carries (tx : TxConf) (m : PktId) {port : Nat}
    (hport : port < maxEthports) {s : Lcore} (hs : AtRest s) :
    Ends (sendFragmentPacket tx m port s) (fun _ => True)
      (fun s' => Carries s 1 s' 0) := by
  have hcut : ∀ s' tbl, Carries s 0 s' 0 → Carries s 1
      { s'.setTx port tbl with
        world := s'.world.freePkts [m]
        fragmented := s'.fragmented ++ [m] } 0 := by
    intro s' tbl h
    refine ⟨h.inbound, h.outbound, ⟨h.rests.inbound, h.rests.outbound⟩, h.rx, h.sent,
      h.log, fun _ hx => List.mem_append_left _ (h.fragmented hx), ?_⟩
    intro _ hfrag _
    exact absurd hfrag (List.append_ne_nil_of_right_ne_nil _ (List.cons_ne_nil m []))
  rw [sendFragmentPacket]
  split
  · refine (flushTx_carries tx hport hs).bind ?_
    intro s' h
    exact ends_pure (hcut s' _ h)
  · refine Ends.bind (P := fun s' => Carries s 0 s' 0)
      (ends_pure (Carries.refl hs 0)) ?_
    intro s' h
    exact ends_pure (hcut s' _ h)

/-- **ONE PACKET** is put into the table of its port, which is sent when it is
    full. -/
theorem sendSinglePacket_carries (tx : TxConf) (m : PktId) (port : Nat)
    {s : Lcore} (hs : AtRest s) :
    Ends (sendSinglePacket tx m port s) (fun _ => True)
      (fun s' => Carries s 1 s' 0) := by
  rw [sendSinglePacket]
  split
  · exact ends_error trivial
  rename_i hport
  have hport := Nat.not_le.mp hport
  have hfull : ∀ s', Carries s 1 s' 0 → Ends
      (if (s'.txMbufs port).length = maxPktBurst then flushTx tx port s' else pure s')
      (fun _ => True) (fun s'' => Carries s 1 s'' 0) := by
    intro s' h
    split
    · exact (flushTx_carries tx hport h.rests).mono (fun _ h => h) fun _ h' => h.trans h'
    · exact ends_pure h
  dsimp only
  split
  · refine Ends.bind (P := fun s' => Carries s 1 s' 0)
      (ends_pure (setTx_carries hs hport ?_)) hfull
    exact List.length_append
  split
  · exact (sendFragmentPacket_carries tx m hport hs).bind hfull
  · exact Ends.bind (P := fun s' => Carries s 1 s' 0)
      (ends_pure ((settles_freePkts s.world [m]).carries hs 0)) hfull

/-! ## Routing -/

/-- The loop over packets with their hops. -/
theorem routeLoop_carries {f : Lcore → PktId × Option Nat → Except Fault Lcore}
    (hf : ∀ s x, AtRest s → Ends (f s x) (fun _ => True)
      (fun s' => Carries s 1 s' 0))
    (l : List (PktId × Option Nat)) {s : Lcore} (hs : AtRest s) :
    Ends (l.foldlM f s) (fun _ => True) (fun s' => Carries s l.length s' 0) := by
  refine ends_foldlM (P := fun todo s' => Carries s l.length s' todo.length)
    (Carries.refl hs _) ?_
  intro x todo s' h
  refine (hf s' x h.rests).mono (fun _ h => h) ?_
  intro s'' h'
  refine h.trans ((h'.frame todo.length).cast ?_ (Nat.zero_add _))
  rw [List.length_cons, Nat.add_comm]

theorem route4Pkts_carries (tx : TxConf) (pkts : List PktId) {s : Lcore}
    (hs : AtRest s) :
    Ends (route4Pkts tx pkts s) (fun _ => True)
      (fun s' => Carries s pkts.length s' 0) := by
  have hloop := routeLoop_carries (f := route4One tx) (fun s x hs => ?_)
    (pkts.map fun m => (m, pktHop s.world (lpm4Hop tx.rt) m)) hs
  · rw [List.length_map] at hloop
    exact hloop
  · rw [route4One]
    split
    · have hfree := (settles_freePkts s.world [x.1]).carries hs 0
      exact ends_ok ⟨hfree.inbound, hfree.outbound, ⟨hs.inbound, hs.outbound⟩, rfl,
        rfl, hfree.log, hfree.fragmented, hfree.count⟩
    · exact sendSinglePacket_carries tx x.1 _ hs

theorem route6Pkts_carries (tx : TxConf) (pkts : List PktId) {s : Lcore}
    (hs : AtRest s) :
    Ends (route6Pkts tx pkts s) (fun _ => True)
      (fun s' => Carries s pkts.length s' 0) := by
  have hloop := routeLoop_carries (f := route6One tx) (fun s x hs => ?_)
    (pkts.map fun m => (m, pktHop s.world (lpm6Hop tx.rt) m)) hs
  · rw [List.length_map] at hloop
    exact hloop
  · rw [route6One]
    split
    · have hfree := (settles_freePkts s.world [x.1]).carries hs 0
      exact ends_ok ⟨hfree.inbound, hfree.outbound, ⟨hs.inbound, hs.outbound⟩, rfl,
        rfl, hfree.log, hfree.fragmented, hfree.count⟩
    · exact sendSinglePacket_carries tx x.1 _ hs

/-- **ROUTING** sends or frees all packets. -/
theorem routePkts_carries (tx : TxConf) (trf : Traffic) {s : Lcore}
    (hs : AtRest s) :
    Ends (routePkts tx trf s) (fun _ => True)
      (fun s' => Carries s (trfLen trf) s' 0) := by
  rw [routePkts]
  refine (route4Pkts_carries tx trf.ip4 hs).bind ?_
  intro s' h
  refine (route6Pkts_carries tx trf.ip6 h.rests).mono (fun _ h => h) ?_
  intro s'' h'
  exact (h.frame trf.ip6.length).trans (h'.cast (Nat.zero_add _).symm rfl)

/-! ## The loop -/

theorem processInbound_carries (t : Burst) {s : Lcore} (hs : AtRest s) :
    Ends (processInbound env cfg t s) (fun _ => True)
      (fun r => Carries s (burstLen t) r.2 (trfLen r.1)) := by
  rw [processInbound]
  split
  · refine (processPktsInboundNosp_serves cfg.poll cfg.sad t
      (s := (s.inbound, s.world)) hs.inbound).bind ?_
    rintro ⟨trf, r⟩ hr
    exact ends_pure (hr.inbound hs s.inStats)
  · refine (processPktsInbound_serves cfg.poll cfg.inCtx cfg.sad t s.inStats
      (s := (s.inbound, s.world)) hs.inbound).bind ?_
    rintro ⟨trf, stats, r⟩ hr
    exact ends_pure (hr.inbound hs stats)

theorem processOutbound_carries (t : Burst) {s : Lcore} (hs : AtRest s) :
    Ends (processOutbound env cfg t s) (fun _ => True)
      (fun r => Carries s (burstLen t) r.2 (trfLen r.1)) := by
  rw [processOutbound]
  split
  · refine (processPktsOutboundNosp_serves cfg.poll cfg.outCtx.saCtx
      cfg.singleSaIdx t (s := (s.outbound, s.world)) hs.outbound).bind ?_
    rintro ⟨trf, r⟩ hr
    exact ends_pure (hr.outbound hs s.outStats)
  · refine (processPktsOutbound_serves cfg.poll cfg.outCtx t s.outStats
      (s := (s.outbound, s.world)) hs.outbound).bind ?_
    rintro ⟨trf, stats, r⟩ hr
    exact ends_pure (hr.outbound hs stats)

/-- **A BURST** is freed, held or sent. -/
theorem processPkts_carries (pkts : List PktId) (port : UInt16) {s : Lcore}
    (hs : AtRest s) :
    Ends (SecgwModel.processPkts env cfg pkts port s) (fun _ => True)
      (fun s' => Carries s pkts.length s' 0) := by
  rw [SecgwModel.processPkts]
  refine (prepareTraffic_settles cfg.poll pkts s.world).bind ?_
  rintro ⟨t, w⟩ ⟨k, hk, hcount⟩
  dsimp only at hk hcount ⊢
  have hprepare := (hk.carries hs (burstLen t)).cast hcount rfl
  have hroute : ∀ r : Traffic × Lcore,
      Carries { s with world := w } (burstLen t) r.2 (trfLen r.1) →
      Ends (routePkts cfg.tx r.1 r.2) (fun _ => True)
        (fun s' => Carries s pkts.length s' 0) := by
    intro r h
    exact (routePkts_carries cfg.tx r.1 h.rests).mono (fun _ h => h)
      fun _ h' => (hprepare.trans h).trans h'
  split
  · exact (processInbound_carries t hprepare.rests).bind hroute
  · exact (processOutbound_carries t hprepare.rests).bind hroute

theorem drainInbound_carries {s : Lcore} (hs : AtRest s) :
    Ends (drainInbound env cfg s) (fun _ => True)
      (fun s' => Carries s 0 s' 0) := by
  rw [drainInbound]
  refine (drainInboundCryptoQueues_serves cfg.lib cfg.poll cfg.inCtx s.inStats
    (s := (s.inbound, s.world)) hs.inbound).bind ?_
  rintro ⟨trf, stats, r⟩ hr
  have h := hr.inbound hs stats
  exact (routePkts_carries cfg.tx trf h.rests).mono (fun _ h => h)
    fun _ h' => h.trans h'

theorem drainOutbound_carries {s : Lcore} (hs : AtRest s) :
    Ends (drainOutbound env cfg s) (fun _ => True)
      (fun s' => Carries s 0 s' 0) := by
  rw [drainOutbound]
  refine (drainCrypto_serves cfg.lib cfg.poll espOutboundPostFn
    (s := (s.outbound, s.world)) hs.outbound).bind ?_
  rintro ⟨trf, r⟩ hr
  have h := hr.outbound hs s.outStats
  exact (routePkts_carries cfg.tx trf h.rests).mono (fun _ h => h)
    fun _ h' => h.trans h'

theorem drainTxBuffers_carries (tx : TxConf) {s : Lcore} (hs : AtRest s) :
    Ends (drainTxBuffers tx s) (fun _ => True) (fun s' => Carries s 0 s' 0) := by
  rw [drainTxBuffers]
  refine (ends_foldlM (P := fun todo s' => (∀ port ∈ todo, port < maxEthports)
    ∧ Carries s 0 s' 0) ⟨fun _ h => List.mem_range.mp h, Carries.refl hs 0⟩ ?_).mono
    (fun _ h => h) fun _ h => h.2
  rintro port todo s' ⟨hports, h⟩
  have htodo : ∀ port ∈ todo, port < maxEthports :=
    fun q hq => hports q (List.mem_cons_of_mem _ hq)
  split
  · exact ends_pure ⟨htodo, h⟩
  · refine (flushTx_carries tx (hports port List.mem_cons_self) h.rests).mono
      (fun _ h => h) ?_
    intro s'' h'
    exact ⟨htodo, h.trans h'⟩

/-- **THE DRAINS** lose nothing. -/
theorem drainBuffers_carries {s : Lcore} (hs : AtRest s) :
    Ends (drainBuffers env cfg s) (fun _ => True)
      (fun s' => Carries s 0 s' 0) := by
  rw [drainBuffers]
  refine (drainTxBuffers_carries cfg.tx hs).bind ?_
  intro s' h
  dsimp only
  have hin := (drainCryptoBuffers_serves env (s := (s'.inbound, s'.world))
    h.rests.inbound).inbound h.rests s'.inStats
  have hout := (drainCryptoBuffers_serves env
    (s := (s'.outbound, (drainCryptoBuffers env (s'.inbound, s'.world)).2))
    h.rests.outbound).outbound hin.rests s'.outStats
  exact ends_pure ((h.trans hin).trans hout)

/-! ## All runs -/

/-- **THE INVARIANT** between two steps. -/
structure Sound (s : Lcore) : Prop where
  rests : AtRest s
  separate : Separate s
  sent : s.tx = s.sent.length
  count : UsesFit s.world → s.fragmented = [] → s.rx = total s

theorem Sound.carries {s s' : Lcore} (h : Sound s) (hc : Carries s 0 s' 0) :
    Sound s' := by
  refine ⟨hc.rests, h.separate.same hc.inbound hc.outbound, ?_, ?_⟩
  · have := hc.sent
    rw [h.sent] at this
    omega
  · intro hfit hfrag
    have hbefore := h.count (hfit.mono hc.log)
      (List.subset_nil.mp (hfrag ▸ hc.fragmented))
    have hcount := hc.count hfit hfrag h.separate
    rw [hc.rx, hbefore]
    exact hcount.symm

/-- **RECEIVING**: the packets the KNI does not get are counted and carried. -/
theorem receiveBurst_sound (port : UInt16) (pkts : List PktId) {s : Lcore}
    (h : Sound s) :
    Ends (receiveBurst env cfg port pkts s) (fun _ => True) Sound := by
  rw [receiveBurst]
  have hfilter : Settles s.world 0
      (if port ≠ cfg.clientPort then
        let f := filterIkePackets cfg.kni pkts s.world
        (f.1.pktsNew, f.2)
      else (pkts, s.world)).2 := by
    split
    · exact ⟨rfl, rfl, rfl⟩
    · exact Settles.refl _
  dsimp only at hfilter ⊢
  generalize (if port ≠ cfg.clientPort then
    ((filterIkePackets cfg.kni pkts s.world).1.pktsNew,
      (filterIkePackets cfg.kni pkts s.world).2)
    else (pkts, s.world)) = r at hfilter
  have hworld := hfilter.carries h.rests 0
  refine (processPkts_carries r.1 port
    (s := { s with world := r.2, rx := s.rx + r.1.length })
    ⟨h.rests.inbound, h.rests.outbound⟩).mono (fun _ h => h) ?_
  intro s' hc
  have hsep : Separate { s with world := r.2, rx := s.rx + r.1.length } :=
    h.separate.same (SameKeys.refl _) (SameKeys.refl _)
  refine ⟨hc.rests, hsep.same hc.inbound hc.outbound, ?_, ?_⟩
  · have hsent : s'.tx + s.sent.length = s.tx + s'.sent.length := hc.sent
    rw [h.sent] at hsent
    omega
  · intro hfit hfrag
    have hfit1 : UsesFit r.2 := hfit.mono hc.log
    have hfrag1 : s.fragmented = [] := List.subset_nil.mp (hfrag ▸ hc.fragmented)
    have hbefore := h.count (hfit1.mono hworld.log) hfrag1
    have hsame : total { s with world := r.2 } = total s :=
      hworld.count hfit1 hfrag1 h.separate
    have hcount : total s' + 0 = total { s with world := r.2 } + r.1.length :=
      hc.count hfit hfrag hsep
    rw [hc.rx]
    show s.rx + r.1.length = total s'
    rw [hbefore, ← hsame]
    exact hcount.symm

theorem pollQueue_sound (port : UInt16) (pkts : List PktId)
    (mbufs : PktId → Mbuf) {s : Lcore} (h : Sound s) :
    Ends (pollQueue env cfg port pkts mbufs s) (fun _ => True) Sound := by
  have hdrain : ∀ s', Sound s' → Ends (if cfg.unprotected port = true then
      drainInbound env cfg s' else drainOutbound env cfg s') (fun _ => True) Sound := by
    intro s' h'
    split
    · exact (drainInbound_carries h'.rests).mono (fun _ h => h) fun _ hc => h'.carries hc
    · exact (drainOutbound_carries h'.rests).mono (fun _ h => h) fun _ hc => h'.carries hc
  have harrive : Sound { s with world := s.world.modifyAll pkts fun p _ => mbufs p } :=
    h.carries ((settles_modifyAll pkts (fun p _ => mbufs p) s.world).carries h.rests 0)
  rw [pollQueue]
  dsimp only
  split
  · exact Ends.bind (P := Sound) (ends_pure harrive) hdrain
  · exact (receiveBurst_sound port pkts harrive).bind hdrain

/-- **ONE STEP** keeps the invariant. -/
theorem Sound.step {s s' : Lcore} (h : Sound s) (hstep : Step env cfg s s') :
    Sound s' := by
  cases hstep with
  | drain hs => exact h.carries ((drainBuffers_carries h.rests).of_ok hs)
  | poll port pkts mbufs _ hs => exact (pollQueue_sound port pkts mbufs h).of_ok hs
  | elsewhere w hw hs =>
      subst hs
      refine ⟨⟨h.rests.inbound, h.rests.outbound⟩,
        h.separate.same (SameKeys.refl _) (SameKeys.refl _), h.sent, ?_⟩
      intro hfit hfrag
      have hbefore := h.count (by
        intro u hu
        refine hfit u ?_
        show u ∈ w.queued
        rw [hw.queued]
        exact hu) hfrag
      show s.rx = s.tx + (w.dropped + w.copsFreed.length)
        + (txLoad s + load (s.inbound, w) + load (s.outbound, w))
      rw [hw.dropped, hw.copsFreed, load_congr hw.inbound, load_congr hw.outbound]
      exact hbefore

/-- **ALL STEPS** keep it. -/
theorem Sound.reaches {s s' : Lcore} (h : Sound s)
    (hreach : Relation.ReflTransGen (Step env cfg) s s') : Sound s' := by
  induction hreach with
  | refl => exact h
  | tail _ hstep ih => exact ih.step hstep

/-- A world nothing has been counted in, whose devices hold nothing. -/
structure Idle (w : World) : Prop where
  pair : ∀ k, w.pair k = {}
  dropped : w.dropped = 0
  copsFreed : w.copsFreed = []

theorem load_idle {w : World} (hw : Idle w) (t : QueueTables) (lcore : UInt8)
    (dir : Direction) : load (IpsecCtx.ofTables t lcore dir, w) = 0 := by
  refine Finset.sum_eq_zero ?_
  intro i _
  rw [queueLoad, hw.pair]
  rfl

/-- A lcore behind `cryptodevs_init`. -/
theorem start_sound {conf : CdevConf} {req : Nat} {ps : List LcoreParams}
    {devs : List CryptodevInfo} {init : InitState}
    (hinit : cryptodevsInit conf req ps devs = some init) (lcore : UInt8)
    {w : World} (hw : Idle w) : Sound (Lcore.start init.tables lcore w) := by
  have hmem : ∀ (dir : Direction) (i : Nat),
      i < (IpsecCtx.ofTables init.tables lcore dir).nbQps →
      ((IpsecCtx.ofTables init.tables lcore dir).tbl i).toCdevQp
        ∈ init.tables.tbl lcore dir := by
    intro dir i hi
    have hi : i < (init.tables.tbl lcore dir).length := hi
    show (init.tables.tbl lcore dir).getD i ⟨0, 0⟩ ∈ _
    rw [List.getD_eq_getElem _ _ hi]
    exact List.getElem_mem hi
  have hrest : ∀ dir, Resting (IpsecCtx.ofTables init.tables lcore dir) :=
    fun _ => ⟨rfl, .inl rfl⟩
  refine ⟨⟨hrest _, hrest _⟩, ⟨?_, ?_, ?_⟩, rfl, ?_⟩
  · intro i j hi hj he
    exact CryptoQueue.ofTables_distinct hinit lcore .ingress hi hj he
  · intro i j hi hj he
    exact CryptoQueue.ofTables_distinct hinit lcore .egress hi hj he
  · intro i j hi hj he
    -- no pair belongs to two directions of a lcore
    have hout : ((Lcore.start init.tables lcore w).outbound.tbl j).toCdevQp
        ∈ init.tables.tbl lcore .egress := hmem .egress j hj
    rw [← he] at hout
    obtain ⟨c, hinv⟩ := Cdev.cryptodevsInit_inv hinit
    have hdir := hinv.queues.unshared lcore .ingress lcore .egress _ (hmem .ingress i hi) hout
    cases hdir
  · intro _ _
    show 0 = 0 + settled w + (txLoad (Lcore.start init.tables lcore w)
      + load (IpsecCtx.ofTables init.tables lcore .ingress, w)
      + load (IpsecCtx.ofTables init.tables lcore .egress, w))
    have htx : txLoad (Lcore.start init.tables lcore w) = 0 :=
      Finset.sum_eq_zero fun _ _ => rfl
    rw [htx, load_idle hw, load_idle hw, settled, hw.dropped, hw.copsFreed]
    rfl

/-- **THE BALANCE HOLDS UNTIL** `free_cops` **FREES SOMETHING**: in every state a
    run of a lcore reaches, with no packet cut into fragments and all operations
    in queues of their context, a packet that was received has been sent,
    counted as dropped, freed by `free_cops`, or is held. -/
theorem balanced_iff {conf : CdevConf} {req : Nat} {ps : List LcoreParams}
    {devs : List CryptodevInfo} {init : InitState}
    (hinit : cryptodevsInit conf req ps devs = some init) (lcore : UInt8)
    {w : World} (hw : Idle w) {s : Lcore}
    (hreach : Relation.ReflTransGen (Step env cfg)
      (Lcore.start init.tables lcore w) s)
    (hfrag : s.fragmented = []) (hfit : UsesFit s.world) :
    s.tx = s.sent.length
      ∧ s.rx = s.tx + s.world.dropped + s.world.copsFreed.length + held s
      ∧ (Balanced s ↔ s.world.copsFreed = []) := by
  have hsound := (start_sound hinit lcore hw).reaches hreach
  have hrx : s.rx = s.tx + s.world.dropped + s.world.copsFreed.length + held s := by
    rw [hsound.count hfit hfrag, total, settled, ← Nat.add_assoc]
  refine ⟨hsound.sent, hrx, ?_⟩
  rw [Balanced, hrx, ← List.length_eq_zero_iff]
  omega

/-- All operations in one group. -/
theorem perm_alone (_ : World) (ops : List PktId) :
    (([((0, false), ops)] : List (SaRef × List PktId)).flatMap Prod.snd).Perm ops := by
  rw [List.flatMap_singleton]

theorem session_alone (w : World) (ops : List PktId) :
    ∀ g ∈ ([((0, false), ops)] : List (SaRef × List PktId)), ∀ p ∈ g.2,
      (fun _ : Mbuf => ((0, false) : SaRef)) (w.mbuf p) = g.1 := by
  intro g hg p _
  rw [List.mem_singleton.mp hg]

/-- A lcore in single-SA mode on the `librte_ipsec` path, with no routes. -/
def libraryConf : LcoreConf where
  poll := { EspHeader.optionConf with enable := true }
  tx :=
    { mtuSize := 1500
      fragTblSz := 0
      fragment := fun _ _ _ => none
      rt := ⟨fun _ => none, fun _ => none⟩
      ipv4Offloads := 0
      ipv6Offloads := 0
      ipv4Cksum := fun _ _ => []
      ethaddrTbl := fun _ => ([], [])
      txTake := fun n => n }
  lib :=
    { opSession := fun _ => (0, false)
      group := fun _ ops => [((0, false), ops)]
      group_perm := perm_alone
      group_session := session_alone }
  inCtx := ⟨none, none, ⟨0, 1⟩⟩
  outCtx := ⟨none, none, ⟨0, 1⟩⟩
  sad := fun _ => none
  singleSa := true
  singleSaIdx := 0
  unprotected := fun _ => false
  clientPort := 0
  kni := fun _ _ => false

/-- A world of SAs with an AEAD algorithm. -/
def aeadWorld : World where
  mbuf := fun _ => Mbuf.mid (fun _ => 0) 60
  sa := fun _ => { (default : IpsecSa) with aeadAlgo := .aesGcm }

theorem aeadWorld_idle : Idle aeadWorld := ⟨fun _ => rfl, rfl, rfl⟩

/-- An IPv4 packet without a payload. -/
def emptyIpv4 : Mbuf :=
  Mbuf.mid (fun i => if i = 140 then 8 else if i = 145 then 46 else 0) 60

/-- The lcore receives `n` packets, and its device takes three operations of a
    burst. -/
def received (n : Nat) : Except Fault Lcore :=
  pollQueue (CryptoQueue.laxEnv 1) libraryConf 0 (List.range n)
    (fun _ => emptyIpv4) (Lcore.start Cdev.twoTables.tables 1 aeadWorld)

/-- What is looked at in the state it gets to. -/
def outcome (s : Lcore) : Nat × Nat × Bool × List PktId :=
  (s.rx, s.world.copsFreed.length,
    s.world.queued.all (fun u => decide (u.index < u.nbQps)), s.fragmented)

theorem received_reaches {n k : Nat} (hn : n ≤ maxPktBurst)
    (h : (received n).toOption.map outcome = some (n, k, true, [])) :
    ∃ s, Relation.ReflTransGen (Step (CryptoQueue.laxEnv 1) libraryConf)
        (Lcore.start Cdev.twoTables.tables 1 aeadWorld) s
      ∧ s.rx = n ∧ s.world.copsFreed.length = k ∧ UsesFit s.world
      ∧ s.fragmented = [] := by
  cases hrun : received n with
  | error e =>
      rw [hrun] at h
      cases h
  | ok s =>
      rw [hrun] at h
      obtain ⟨hrx, hcops, hfit, hfrag⟩ : s.rx = n ∧ s.world.copsFreed.length = k
          ∧ s.world.queued.all (fun u => decide (u.index < u.nbQps)) = true
          ∧ s.fragmented = [] := by
        have h : outcome s = (n, k, true, []) := Option.some.inj h
        simpa only [outcome, Prod.mk.injEq] using h
      refine ⟨s, .single (.poll 0 (List.range n) (fun _ => emptyIpv4) ?_ hrun),
        hrx, hcops, ?_, hfrag⟩
      · rw [List.length_range]
        exact hn
      · intro u hu
        exact of_decide_eq_true (List.all_eq_true.mp hfit u hu)

set_option maxRecDepth 8000 in
/-- **TWENTY-FOUR PACKETS** make a burst of operations for a device that takes
    three of them: twenty-one are freed, and counted nowhere. -/
theorem burst_unbalanced :
    ∃ s, Relation.ReflTransGen (Step (CryptoQueue.laxEnv 1) libraryConf)
        (Lcore.start Cdev.twoTables.tables 1 aeadWorld) s
      ∧ s.rx = 24 ∧ UsesFit s.world ∧ s.fragmented = [] ∧ ¬ Balanced s := by
  obtain ⟨s, hreach, hrx, hcops, hfit, hfrag⟩ :=
    received_reaches (n := 24) (k := 21) (by decide) (by decide +kernel)
  refine ⟨s, hreach, hrx, hfit, hfrag, ?_⟩
  have hsound := (start_sound Cdev.cryptodevsInit_twoTables 1
    aeadWorld_idle).reaches hreach
  have hcount := hsound.count hfit hfrag
  rw [total, settled, hcops] at hcount
  intro hbalanced
  rw [Balanced, hcount] at hbalanced
  omega

set_option maxRecDepth 8000 in
/-- Two packets wait in the buffer. -/
theorem balanced_iff_two :
    ∃ s : Lcore, s.rx = 2 ∧ s.tx = s.sent.length
      ∧ s.rx = s.tx + s.world.dropped + s.world.copsFreed.length + held s
      ∧ (Balanced s ↔ s.world.copsFreed = []) ∧ s.world.copsFreed = [] := by
  obtain ⟨s, hreach, hrx, hcops, hfit, hfrag⟩ :=
    received_reaches (n := 2) (k := 0) (by decide) (by decide +kernel)
  obtain ⟨hsent, hcount, hiff⟩ := balanced_iff Cdev.cryptodevsInit_twoTables 1
    aeadWorld_idle hreach hfrag hfit
  exact ⟨s, hrx, hsent, hcount, hiff, List.eq_nil_of_length_eq_zero hcops⟩

end PacketCount
