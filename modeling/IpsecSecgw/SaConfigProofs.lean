import IpsecSecgw.InboundRunProofs

/-! # What a worker leaves of an SA

    A lcore opens sessions of SAs, names the queue of an SA and counts its packets.
    Everything else of an SA stays as `sa_init` has left it (`ConfigKept`),
    through every function of the poll loop (`Work.kept`), and so in every
    interleaving of what the lcores do (`reaches_kept`). -/

namespace SaConfig

open SaModel MbufModel IpsecModel WorkerModel SecgwModel Outcome Slots
open Esp hiding outboundCrypto
open CryptoQueue (KeepsSessions)

/-- An SA without what a worker writes. -/
def config (sa : IpsecSa) : IpsecSa :=
  { sa with primary := {}, fallback := {}, cdevIdQp := 0, seq := 0 }

def ConfigKept (w w' : World) : Prop := ∀ p, config (w'.sa p) = config (w.sa p)

/-- What a function does to the world keeps the configuration. -/
def Keeping {α : Type} (w : World) (world : α → World) (x : Except Fault α) : Prop :=
  Ends x (fun _ => True) fun r => ConfigKept w (world r)

variable {env : Env} {w w' w'' : World}

theorem ConfigKept.refl (w : World) : ConfigKept w w := fun _ => rfl

theorem ConfigKept.trans (h : ConfigKept w w') (h' : ConfigKept w' w'') : ConfigKept w w'' :=
  fun p => (h' p).trans (h p)

theorem ConfigKept.of_sa (h : w'.sa = w.sa) : ConfigKept w w' :=
  fun p => congrArg (fun sa => config (sa p)) h

/-- The port is part of the configuration. -/
theorem ConfigKept.portid (h : ConfigKept w w') (p : SaPtr) :
    (w'.sa p).portid = (w.sa p).portid := by
  have hp : (config (w'.sa p)).portid = (config (w.sa p)).portid := congrArg _ (h p)
  exact hp

theorem update_kept {p : SaPtr} {sa : IpsecSa} (hw : w'.sa = Function.update w.sa p sa)
    (hsa : config sa = config (w.sa p)) : ConfigKept w w' := by
  intro q
  rw [hw]
  by_cases hq : q = p
  · rw [hq, Function.update_self, hsa]
  · rw [Function.update_of_ne hq]

theorem config_setSession (sa : IpsecSa) (fb : Bool) (ss : RteIpsecSession) :
    config (setSession sa fb ss) = config sa := by
  cases fb <;> rfl

/-! ## Sessions -/

theorem attachObject_kept (p : SaPtr) (fb : Bool) (dev : Nat) :
    ConfigKept w (attachObject env p fb dev w) := by
  obtain ⟨-, ses, hsa⟩ := CryptoQueue.attachObject_sa env p fb dev w
  exact update_kept hsa (config_setSession _ _ _)

theorem createLookasideSession_kept (ctx : IpsecCtx) (p : SaPtr) (fb : Bool) :
    ConfigKept w (createLookasideSession env ctx p fb w).2 := by
  rw [createLookasideSession]
  cases ctx.cdevMap (sessionKey env (w.sa p)) with
  | none => exact ConfigKept.refl w
  | some i =>
      dsimp only
      have hattach : ConfigKept w (attachObject env p fb (ctx.tbl i).id w) :=
        attachObject_kept p fb _
      generalize attachObject env p fb (ctx.tbl i).id w = w1 at hattach
      have hdone : ConfigKept w (w1.modifySa p fun sa =>
          { sa with cdevIdQp := UInt32.ofNat i }) := hattach.trans (update_kept rfl rfl)
      cases (session (w.sa p) fb).type with
      | none => exact hdone
      | inlineCrypto => exact ConfigKept.refl w
      | inlineProtocol => exact ConfigKept.refl w
      | cpuCrypto =>
          dsimp only
          split
          · exact ConfigKept.refl w
          · exact hdone
      | lookasideProtocol =>
          dsimp only
          split
          · exact hattach
          · exact hdone

theorem openSession_kept (ctx : IpsecCtx) (p : SaPtr) (fb : Bool) :
    ConfigKept w (openSession env ctx p fb w).2 := by
  rw [openSession]
  split
  · exact createLookasideSession_kept ctx p fb
  · exact ConfigKept.refl w

/-- `fill_ipsec_session` zeroes a session that cannot be prepared, nothing else. -/
theorem fillIpsecSession_kept (ctx : IpsecCtx) (p : SaPtr) (fb : Bool) :
    ConfigKept w (fillIpsecSession env ctx p fb w).2 := by
  have hopened : ∀ r : Int × World, ConfigKept w r.2 → ConfigKept w
      (if r.1 ≠ 0 then r
      else if env.sessionPrepare r.2.tick ≠ 0 then
        (env.sessionPrepare r.2.tick, r.2.next.modifySa p fun sa => setSession sa fb {})
      else (0, r.2.next)).2 := by
    intro r hr
    split
    · exact hr
    split
    · exact hr.trans (update_kept rfl (config_setSession _ _ _))
    · exact hr.trans (.of_sa rfl)
  rw [fillIpsecSession]
  refine hopened _ ?_
  split
  · exact createLookasideSession_kept ctx p fb
  · exact createLookasideSession_kept ctx p fb
  · exact createLookasideSession_kept ctx p fb
  · exact ConfigKept.refl w
  · exact ConfigKept.refl w

/-! ## The legacy path -/

/-- A transformation writes the sequence number at most. -/
theorem xform_kept {f : XformFn} (hf : KeepsSessions f) (pkt : PktId) (p : SaPtr) :
    Keeping w Prod.snd (w.xform f pkt p) := by
  rw [World.xform]
  cases hr : f (w.mbuf pkt) (w.sa p) with
  | none => exact ends_error trivial
  | some r =>
      obtain ⟨n, hsame⟩ := hf _ _ _ hr
      refine ends_ok (update_kept rfl ?_)
      dsimp only
      rw [hsame]
      rfl

theorem prepareOp_kept {f : XformFn} (hf : KeepsSessions f) (ctx : IpsecCtx) (pkt : PktId)
    (p : SaPtr) : Keeping w Prod.snd (prepareOp env f ctx pkt p w) := by
  have hxform : ∀ (w1 : World) (d : Dest), ConfigKept w w1 → Keeping w Prod.snd
      (w1.xform f pkt p >>= fun r => pure (if r.1 = 0 then d else .freed, r.2)) := by
    intro w1 d hw1
    refine (xform_kept hf pkt p).bind ?_
    intro r hr
    exact ends_pure (hw1.trans hr)
  rw [prepareOp]
  dsimp only
  have hfresh : ConfigKept w ((w.modify pkt (setPrivSa p)).modify pkt fun m =>
      m.setStatus .notProcessed) := .of_sa rfl
  generalize (w.modify pkt (setPrivSa p)).modify pkt (fun m =>
    m.setStatus .notProcessed) = fresh at hfresh
  have hopen : ConfigKept w (openSession env ctx p false fresh).2 :=
    hfresh.trans (openSession_kept ctx p false)
  generalize openSession env ctx p false fresh = r at hopen
  cases ((w.modify pkt (setPrivSa p)).sa p).primary.type with
  | lookasideProtocol =>
      dsimp only
      split
      · exact ends_ok hopen
      split
      · exact ends_ok hopen
      · exact ends_ok hopen
  | cpuCrypto => exact ends_ok (ConfigKept.of_sa rfl)
  | none =>
      dsimp only
      split
      · exact ends_ok hopen
      · exact hxform _ .queue hopen
  | inlineProtocol => exact ends_ok (ConfigKept.of_sa rfl)
  | inlineCrypto => exact hxform _ .offload hfresh

theorem ipsecEnqueue_kept {f : XformFn} (hf : KeepsSessions f)
    (burst : List (PktId × Option SaRef)) (s : State) :
    Keeping s.2 Prod.snd (ipsecEnqueue env f burst s) := by
  refine ends_foldlM (P := fun _ (t : State) => ConfigKept s.2 t.2) (ConfigKept.refl _) ?_
  rintro ⟨x, ref⟩ _ t ht
  rw [ipsecEnqueueOne]
  cases ref with
  | none => exact ends_ok ht
  | some ref =>
      obtain ⟨p, fb⟩ := ref
      refine (prepareOp_kept hf t.1 x p).bind ?_
      rintro ⟨dest, w1⟩ hw1
      have hkept : ConfigKept s.2 w1 := ht.trans hw1
      cases dest with
      | freed => exact ends_pure hkept
      | offload =>
          dsimp only
          rw [IpsecCtx.pushOl]
          split
          · exact ends_error trivial
          · exact ends_ok hkept
      | queue =>
          refine (Handling.enqueueCop_frame env x _ _).bind ?_
          intro r hr
          exact ends_pure (hkept.trans (.of_sa hr.sa))

theorem ipsecInlineDequeue_kept {f : XformFn} (hf : KeepsSessions f) (maxPkts fuel : Nat)
    (pkts : List PktId) (s : State) :
    Keeping s.2 (fun r => r.2.2) (ipsecInlineDequeue f maxPkts fuel pkts s) := by
  induction fuel generalizing pkts s with
  | zero => exact ends_ok (ConfigKept.refl s.2)
  | succ fuel ih =>
      rw [ipsecInlineDequeue]
      split
      · exact ends_ok (ConfigKept.refl s.2)
      rename_i pkt _
      split
      · exact ends_ok (ConfigKept.refl s.2)
      refine (CryptoQueue.privSa_ok s.2 pkt).mono (fun _ _ => trivial) (fun _ h => h) |>.bind ?_
      intro p _
      refine (xform_kept hf pkt p).bind ?_
      rintro ⟨ret, w1⟩ hw1
      have hnext : ∀ (pkts : List PktId) (t : State), t.2.sa = w1.sa →
          Keeping s.2 (fun r => r.2.2) (ipsecInlineDequeue f maxPkts fuel pkts t) := by
        intro pkts t ht
        refine (ih pkts t).mono (fun _ h => h) ?_
        intro r hr
        exact (hw1.trans (.of_sa ht)).trans hr
      dsimp only
      split
      · exact hnext pkts _ rfl
      · exact hnext (pkts ++ [pkt]) _ rfl

theorem ipsecBurst_kept {f post : XformFn} (hf : KeepsSessions f) (hpost : KeepsSessions post)
    (burst : List (PktId × Option SaRef)) (len : Nat) (s : State) :
    Keeping s.2 (fun r => r.2.2) (ipsecBurst env f post burst len s) := by
  refine (ipsecEnqueue_kept hf burst s).bind ?_
  intro t ht
  refine (ipsecInlineDequeue_kept hpost len t.1.olPkts.length [] t).mono (fun _ h => h) ?_
  intro r hr
  exact ht.trans hr

theorem finishOp_kept {f : XformFn} (hf : KeepsSessions f) (t : List PktId × World)
    (pkt : PktId) : Keeping t.2 Prod.snd (finishOp f t pkt) := by
  refine (CryptoQueue.privSa_ok t.2 pkt).mono (fun _ _ => trivial) (fun _ h => h) |>.bind ?_
  intro p _
  split
  · refine (xform_kept hf pkt p).bind ?_
    rintro ⟨ret, w1⟩ hw1
    dsimp only
    split
    · exact ends_pure hw1
    · exact ends_pure hw1
  · split
    · exact ends_pure (ConfigKept.refl t.2)
    · exact ends_pure (ConfigKept.refl t.2)
  · exact ends_pure (ConfigKept.refl t.2)

theorem ipsecDequeue_kept {f : XformFn} (hf : KeepsSessions f) (maxPkts n : Nat)
    (pkts : List PktId) (s : State) :
    Keeping s.2 (fun r => r.2.2) (ipsecDequeue env f maxPkts n pkts s) := by
  induction n generalizing pkts s with
  | zero => exact ends_ok (ConfigKept.refl s.2)
  | succ n ih =>
      rw [ipsecDequeue]
      split
      · exact ends_ok (ConfigKept.refl s.2)
      dsimp only
      have htaken := (Handling.cqpDequeue_waits env s s.1.lastQp
        (maxPkts - pkts.length)).2.2.1
      generalize cqpDequeue env (s.1.tbl s.1.lastQp) (maxPkts - pkts.length) s.2 = d
        at htaken
      refine Ends.bind (ends_foldlM (P := fun _ (t : List PktId × World) =>
        ConfigKept s.2 t.2) (.of_sa htaken) ?_) ?_
      · intro x _ t ht
        refine (finishOp_kept hf t x).mono (fun _ h => h) ?_
        intro r hr
        exact ht.trans hr
      · rintro ⟨pkts', w1⟩ hw1
        refine (ih pkts' _).mono (fun _ h => h) ?_
        intro r hr
        exact ConfigKept.trans hw1 hr

theorem drainCryptoBuffers_sa (s : State) : (drainCryptoBuffers env s).2.sa = s.2.sa := by
  rw [drainCryptoBuffers]
  refine forLoop_inv (fun _ (t : State) => t.2.sa = s.2.sa) rfl ?_
  intro i t _ ht
  rw [drainQueue]
  split
  · exact (Handling.enqueueCopBurst_frame env (t.1.tbl i) t.2).sa.trans ht
  · exact ht

/-! ## The librte_ipsec path -/

theorem modifyAll_sa (ps : List PktId) (f : PktId → Mbuf → Mbuf) (w : World) :
    (w.modifyAll ps f).sa = w.sa := (Ipsec.modifyAll_aside ps f w).1.sa

theorem rteIpsecHandle_sa (ref : SaRef) (pkts : List PktId) :
    (rteIpsecHandle env ref pkts w).2.sa = w.sa := modifyAll_sa pkts _ _

theorem rteIpsecPktProcess_sa (ref : SaRef) (pkts : List PktId) :
    (rteIpsecPktProcess env ref pkts w).2.sa = w.sa := rteIpsecHandle_sa ref pkts

theorem ipsecPrepareCryptoGroup_kept (p : SaPtr) (fb : Bool) (pkts : List PktId) (s : State) :
    Keeping s.2 (fun r => r.2.2) (ipsecPrepareCryptoGroup env p fb pkts s) := by
  rw [ipsecPrepareCryptoGroup]
  dsimp only
  have hsa : (rteIpsecHandle env (p, fb) pkts (s.2.modifyAll pkts fun _ => setPrivSa p)).2.sa
      = s.2.sa := (rteIpsecHandle_sa _ _).trans (modifyAll_sa _ _ _)
  generalize rteIpsecHandle env (p, fb) pkts (s.2.modifyAll pkts fun _ => setPrivSa p) = r
    at hsa
  split
  · exact ends_pure (.of_sa hsa)
  · refine Ends.bind (P := fun t : State => ConfigKept s.2 t.2) ?_ fun t ht => ends_pure ht
    refine (Handling.enqueueCopBulk_frame env _ _ _).bind ?_
    intro q hq
    exact ends_pure (.of_sa (hq.sa.trans hsa))

theorem ipsecProcessInlineGroup_sa (p : SaPtr) (fb : Bool) (pkts : List PktId)
    (trf : Traffic) : (ipsecProcessInlineGroup env p fb pkts trf w).2.2.sa = w.sa :=
  (rteIpsecPktProcess_sa _ _).trans (modifyAll_sa _ _ _)

theorem ipsecProcessCpuGroup_sa (p : SaPtr) (fb : Bool) (pkts : List PktId)
    (trf : Traffic) : (ipsecProcessCpuGroup env p fb pkts trf w).2.2.sa = w.sa :=
  (rteIpsecPktProcess_sa _ _).trans ((rteIpsecHandle_sa _ _).trans (modifyAll_sa _ _ _))

theorem processGroup_kept (g : IpsecGroup) (trf : Traffic) (s : State) :
    Keeping s.2 (fun r => r.2.2.2) (processGroup env g trf s) := by
  rw [processGroup]
  split
  · exact ends_ok (ConfigKept.refl s.2)
  rename_i p fb _
  dsimp only
  have hopened : ConfigKept s.2 (if (session (s.2.sa p) fb).ses = none then
      fillIpsecSession env s.1 p fb s.2 else (0, s.2)).2 := by
    split
    · exact fillIpsecSession_kept s.1 p fb
    · exact ConfigKept.refl s.2
  generalize (if (session (s.2.sa p) fb).ses = none then
    fillIpsecSession env s.1 p fb s.2 else (0, s.2)) = r at hopened
  have hgroup : Keeping s.2 (fun r : GroupResult × Traffic × State => r.2.2.2)
      (ipsecPrepareCryptoGroup env p fb g.pkts (s.1, r.2) >>= fun r =>
        pure (r.1, trf, r.2)) := by
    refine (ipsecPrepareCryptoGroup_kept p fb g.pkts (s.1, r.2)).bind ?_
    intro t ht
    exact ends_pure (hopened.trans ht)
  have hinline : ConfigKept s.2 (ipsecProcessInlineGroup env p fb g.pkts trf r.2).2.2 :=
    hopened.trans (.of_sa (ipsecProcessInlineGroup_sa p fb g.pkts trf))
  have hcpu : ConfigKept s.2 (ipsecProcessCpuGroup env p fb g.pkts trf r.2).2.2 :=
    hopened.trans (.of_sa (ipsecProcessCpuGroup_sa p fb g.pkts trf))
  split
  · exact ends_ok hopened
  split
  · exact hgroup
  · exact hgroup
  · exact ends_ok hinline
  · exact ends_ok hinline
  · exact ends_ok hcpu

theorem ipsecProcess_kept (burst : List (PktId × Option SaRef)) (trf : Traffic) (s : State) :
    Keeping s.2 (fun r => r.2.2) (ipsecProcess env burst trf s) := by
  refine ends_foldlM (P := fun _ (t : Traffic × State) => ConfigKept s.2 t.2.2)
    (ConfigKept.refl _) ?_
  rintro g _ t ht
  refine (processGroup_kept g t.1 t.2).bind ?_
  rintro ⟨res, trf', t'⟩ ht'
  exact ends_pure (ht.trans ht')

theorem ctxDequeueLoop_sa (num n i : Nat) (cops : List PktId) (s : State) :
    (ctxDequeueLoop env num n i cops s).2.2.2.sa = s.2.sa := by
  induction n generalizing i cops s with
  | zero => rfl
  | succ n ih =>
      rw [ctxDequeueLoop]
      split
      · rfl
      · exact (ih _ _ _).trans (Handling.cqpDequeue_waits env s i _).2.2.1

theorem ctxDequeue_sa (num : Nat) (s : State) : (ctxDequeue env num s).2.2.sa = s.2.sa :=
  (ctxDequeueLoop_sa _ _ _ _ _).trans (ctxDequeueLoop_sa _ _ _ _ _)

theorem ipsecCqpProcess_sa (lib : CryptoGroup) (s : State) :
    (ipsecCqpProcess env lib s).2.2.sa = s.2.sa := by
  have hgroups : ∀ (gs : List (SaRef × List PktId)) (t : Traffic × World),
      (gs.foldl (cqpGroup env) t).2.sa = t.2.sa := by
    intro gs
    induction gs with
    | nil => exact fun _ => rfl
    | cons g gs ih => exact fun t => (ih _).trans (rteIpsecPktProcess_sa g.1 g.2)
  have hops : (ctxDequeue env trafficDim s).2.2.sa = s.2.sa := ctxDequeue_sa _ _
  rw [ipsecCqpProcess]
  generalize ctxDequeue env trafficDim s = r at hops
  dsimp only
  split
  · exact hops
  · exact (hgroups _ _).trans hops

/-! ## The poll loop -/

variable {cfg : LcoreConf}

theorem drainCrypto_kept (lib : CryptoGroup) (conf : PollConf) {post : XformFn}
    (hpost : KeepsSessions post) (s : State) :
    Keeping s.2 (fun r => r.2.2) (drainCrypto env lib conf post s) := by
  rw [drainCrypto]
  split
  · exact ends_pure (.of_sa (ipsecCqpProcess_sa lib s))
  · refine (ipsecDequeue_kept hpost trafficDim s.1.nbQps [] s).bind ?_
    intro r hr
    exact ends_pure hr

theorem outboundPolicies_sa (ctx : EvCtx) (trf : Traffic) (stats : DirStats) :
    (outboundPolicies ctx trf stats w).2.2.2.sa = w.sa := by
  have hfamily : ∀ (sp : Option SpCtx) off pkts ipsec stats (w : World),
      (outboundSpdLookup sp off pkts ipsec stats w).2.2.2.sa = w.sa := by
    intro sp off pkts ipsec stats w
    cases sp <;> rfl
  exact (hfamily _ _ _ _ _ _).trans (hfamily _ _ _ _ _ _)

/-- The burst of an unprotected port. -/
theorem processInbound_kept (t : Burst) (s : Lcore) :
    Keeping s.world (fun r => r.2.world) (processInbound env cfg t s) := by
  have hin := CryptoQueue.enqueueXform_keeps .ingress
  have hpost := CryptoQueue.dequeueXform_keeps .ingress
  have hlib : ∀ burst trf, Keeping s.world (fun r => r.2.2)
      (ipsecProcess env burst trf (s.inbound, s.world)) :=
    fun burst trf => ipsecProcess_kept burst trf (s.inbound, s.world)
  have hlegacy : ∀ burst, Keeping s.world (fun r => r.2.2)
      (ipsecBurst env espInboundFn espInboundPostFn burst maxPktBurst (s.inbound, s.world)) :=
    fun burst => ipsecBurst_kept hin hpost burst maxPktBurst (s.inbound, s.world)
  rw [processInbound]
  split
  · refine Ends.bind (P := fun r => ConfigKept s.world r.2.2) ?_ fun r hr => ends_pure hr
    rw [processPktsInboundNosp]
    dsimp only
    split
    · exact hlib _ _
    · refine (hlegacy _).bind ?_
      intro r hr
      exact ends_pure hr
  · refine Ends.bind (P := fun r => ConfigKept s.world r.2.2.2) ?_ fun r hr => ends_pure hr
    refine Ends.bind (P := fun r => ConfigKept s.world r.2.2) ?_ ?_
    · rw [inboundCrypto]
      dsimp only
      split
      · exact hlib _ _
      · refine (hlegacy _).bind ?_
        intro r hr
        exact ends_pure hr
    · intro r hr
      exact ends_pure (hr.trans (.of_sa (InboundPolicy.inboundPolicies_aside _ _ _ _ _ _).2.2))

/-- The burst of a protected port. -/
theorem processOutbound_kept (t : Burst) (s : Lcore) :
    Keeping s.world (fun r => r.2.world) (processOutbound env cfg t s) := by
  have hout := CryptoQueue.enqueueXform_keeps .egress
  have hpost := CryptoQueue.dequeueXform_keeps .egress
  have hlib : ∀ (w1 : World) burst trf, w1.sa = s.world.sa → Keeping s.world
      (fun r => r.2.2) (ipsecProcess env burst trf (s.outbound, w1)) := by
    intro w1 burst trf hw1
    refine (ipsecProcess_kept burst trf (s.outbound, w1)).mono (fun _ h => h) ?_
    intro r hr
    exact (ConfigKept.of_sa hw1).trans hr
  have hlegacy : ∀ (w1 : World) burst, w1.sa = s.world.sa → Keeping s.world
      (fun r => r.2.2)
      (ipsecBurst env espOutbound espOutboundPostFn burst maxPktBurst (s.outbound, w1)) := by
    intro w1 burst hw1
    refine (ipsecBurst_kept hout hpost burst maxPktBurst (s.outbound, w1)).mono
      (fun _ h => h) ?_
    intro r hr
    exact (ConfigKept.of_sa hw1).trans hr
  rw [processOutbound]
  split
  · refine Ends.bind (P := fun r => ConfigKept s.world r.2.2) ?_ fun r hr => ends_pure hr
    rw [processPktsOutboundNosp]
    dsimp only
    split
    · exact hlib _ _ _ rfl
    · refine (hlegacy (s.world.freePkts t.ipsec) _ rfl).bind ?_
      intro r hr
      -- the packets are there, and the family of the first one is read
      split
      · exact ends_error trivial
      split
      · exact ends_pure hr
      · exact ends_pure hr
  · refine Ends.bind (P := fun r => ConfigKept s.world r.2.2.2) ?_ fun r hr => ends_pure hr
    rw [processPktsOutbound]
    dsimp only
    refine Ends.bind (P := fun r => ConfigKept s.world r.2.2) ?_ fun r hr => ends_pure hr
    have hsa : (outboundPolicies cfg.outCtx t.trf s.outStats
        (s.world.freePkts t.ipsec)).2.2.2.sa = s.world.sa := outboundPolicies_sa _ _ _
    rw [outboundCrypto]
    split
    · exact hlib _ _ _ hsa
    · refine (hlegacy _ _ hsa).bind ?_
      intro r hr
      exact ends_pure hr

/-! ## Routing -/

theorem flushTx_sa (tx : TxConf) (port : Nat) (s : Lcore) :
    Ends (flushTx tx port s) (fun _ => True) (fun t => t.world.sa = s.world.sa) := by
  refine Ends.bind (P := fun t : Lcore => t.world.sa = s.world.sa) ?_ fun t ht => ends_pure ht
  refine Ends.bind (ends_foldlM (P := fun _ (w : World) => w.sa = s.world.sa) rfl ?_)
    fun w hw => ends_pure hw
  intro p _ w hw
  rw [prepareTxOne]
  split
  · exact ends_error trivial
  · exact ends_ok hw

theorem sendSinglePacket_sa (tx : TxConf) (m : PktId) (port : Nat) (s : Lcore) :
    Ends (sendSinglePacket tx m port s) (fun _ => True)
      (fun t => t.world.sa = s.world.sa) := by
  have hflush : ∀ t : Lcore, t.world.sa = s.world.sa →
      Ends (flushTx tx port t) (fun _ => True) (fun t => t.world.sa = s.world.sa) :=
    fun t ht => (flushTx_sa tx port t).mono (fun _ h => h) fun _ h => h.trans ht
  have hfull : ∀ t : Lcore, t.world.sa = s.world.sa →
      Ends (if (t.txMbufs port).length = maxPktBurst then flushTx tx port t else pure t)
        (fun _ => True) (fun t => t.world.sa = s.world.sa) := by
    intro t ht
    split
    · exact hflush t ht
    · exact ends_pure ht
  have hfragment : Ends (sendFragmentPacket tx m port s) (fun _ => True)
      (fun t => t.world.sa = s.world.sa) := by
    rw [sendFragmentPacket]
    split
    · exact (hflush s rfl).bind fun t ht => ends_pure ht
    · exact ends_pure rfl
  rw [sendSinglePacket]
  split
  · exact ends_error trivial
  dsimp only
  split
  · exact hfull _ rfl
  split
  · exact hfragment.bind hfull
  · exact hfull _ rfl

theorem routePkts_sa (tx : TxConf) (trf : Traffic) (s : Lcore) :
    Ends (routePkts tx trf s) (fun _ => True) (fun t => t.world.sa = s.world.sa) := by
  have hloop : ∀ (f : Lcore → PktId × Option Nat → Except Fault Lcore)
      (l : List (PktId × Option Nat)) (s : Lcore),
      (∀ s x, Ends (f s x) (fun _ => True) (fun t => t.world.sa = s.world.sa)) →
      Ends (l.foldlM f s) (fun _ => True) (fun t => t.world.sa = s.world.sa) := by
    intro f l s hf
    refine ends_foldlM (P := fun _ (t : Lcore) => t.world.sa = s.world.sa) rfl ?_
    intro x _ t ht
    exact (hf t x).mono (fun _ h => h) fun _ h => h.trans ht
  refine Ends.bind (hloop _ _ s ?_) ?_
  · intro s x
    rw [route4One]
    split
    · exact ends_ok rfl
    · exact sendSinglePacket_sa _ _ _ _
  · intro t ht
    refine (hloop _ _ t ?_).mono (fun _ h => h) fun _ h => h.trans ht
    intro s x
    rw [route6One]
    split
    · exact ends_ok rfl
    · exact sendSinglePacket_sa _ _ _ _

/-! ## Interleavings -/

/-- A part of what a lcore does, from one world to the next: what the NIC and the
    KNI filter do to a burst, its classification, its direction, the queues that
    are drained, routing and the buffers. -/
inductive Work (env : Env) (cfg : LcoreConf) : World → World → Prop
  | receive (w : World) (pkts : List PktId) (mbufs : PktId → Mbuf) :
      Work env cfg w (w.modifyAll pkts fun p _ => mbufs p)
  | filter (w : World) (pkts : List PktId) :
      Work env cfg w (filterIkePackets cfg.kni pkts w).2
  | prepare {w pkts t w'} (h : prepareTraffic cfg.poll pkts w = .ok (t, w')) :
      Work env cfg w w'
  | inbound {s : Lcore} {t trf s'} (h : processInbound env cfg t s = .ok (trf, s')) :
      Work env cfg s.world s'.world
  | outbound {s : Lcore} {t trf s'} (h : processOutbound env cfg t s = .ok (trf, s')) :
      Work env cfg s.world s'.world
  | drainInbound {stats ctx w trf stats' r}
      (h : drainInboundCryptoQueues env cfg.lib cfg.poll cfg.inCtx stats (ctx, w)
        = .ok (trf, stats', r)) : Work env cfg w r.2
  | drainOutbound {ctx w trf r}
      (h : drainOutboundCryptoQueues env cfg.lib cfg.poll (ctx, w) = .ok (trf, r)) :
      Work env cfg w r.2
  | route {s : Lcore} {trf s'} (h : routePkts cfg.tx trf s = .ok s') :
      Work env cfg s.world s'.world
  | drainBuffers {s s' : Lcore} (h : drainBuffers env cfg s = .ok s') :
      Work env cfg s.world s'.world

/-- **WORK** keeps the configuration. -/
theorem Work.kept (h : Work env cfg w w') : ConfigKept w w' := by
  cases h with
  | receive pkts mbufs => exact .of_sa (modifyAll_sa _ _ _)
  | filter pkts => exact .of_sa rfl
  | prepare h => exact .of_sa ((InboundPolicy.prepareTraffic_prepared _ _).of_ok h).sa
  | inbound h => exact (processInbound_kept _ _).of_ok h
  | outbound h => exact (processOutbound_kept _ _).of_ok h
  | drainInbound h =>
      rename_i stats ctx trf stats' r
      have hends : Keeping w (fun r => r.2.2.2)
          (drainInboundCryptoQueues env cfg.lib cfg.poll cfg.inCtx stats (ctx, w)) := by
        refine (drainCrypto_kept cfg.lib cfg.poll
          (CryptoQueue.dequeueXform_keeps .ingress) (ctx, w)).bind ?_
        intro r hr
        exact ends_pure (hr.trans (.of_sa (InboundPolicy.inboundPolicies_aside _ _ _ _ _ _).2.2))
      exact hends.of_ok h
  | drainOutbound h =>
      exact (drainCrypto_kept cfg.lib cfg.poll
        (CryptoQueue.dequeueXform_keeps .egress) _).of_ok h
  | route h => exact .of_sa ((routePkts_sa _ _ _).of_ok h)
  | drainBuffers h =>
      rename_i s s'
      have hends : Ends (SecgwModel.drainBuffers env cfg s) (fun _ => True)
          (fun t => t.world.sa = s.world.sa) := by
        refine Ends.bind (ends_foldlM (P := fun _ (t : Lcore) => t.world.sa = s.world.sa)
          rfl ?_) ?_
        · intro port _ t ht
          split
          · exact ends_pure ht
          · exact (flushTx_sa cfg.tx port t).mono (fun _ h => h) fun _ h => h.trans ht
        · intro t ht
          exact ends_pure ((drainCryptoBuffers_sa _).trans ((drainCryptoBuffers_sa _).trans ht))
      exact .of_sa (hends.of_ok h)

/-- What any lcores do, in any order. -/
def Reaches : World → World → Prop :=
  Relation.ReflTransGen fun w w' => ∃ env cfg, Work env cfg w w'

/-- **A RUN** keeps the configuration. -/
theorem Reaches.kept (h : Reaches w w') : ConfigKept w w' := by
  induction h with
  | refl => exact ConfigKept.refl w
  | tail _ hstep ih =>
      obtain ⟨env, cfg, hwork⟩ := hstep
      exact ih.trans hwork.kept

/-- A round for a receive queue is work of this kind. -/
theorem pollQueue_reaches {port : UInt16} {pkts : List PktId} {mbufs : PktId → Mbuf}
    {s s' : Lcore} (h : pollQueue env cfg port pkts mbufs s = .ok s') :
    Reaches s.world s'.world := by
  -- a part of a round, with what it does to the memory of SAs
  have hwork : ∀ {α : Type} {x : Except Fault α} {w1 : World} (world : α → World),
      Reaches s.world w1 → (∀ a, x = .ok a → Work env cfg w1 (world a)) →
      Ends x (fun _ => True) (fun a => Reaches s.world (world a)) := by
    intro α x w1 world hw1 hx
    cases x with
    | error e => trivial
    | ok a => exact hw1.tail ⟨env, cfg, hx a rfl⟩
  have hdrain : ∀ t : Lcore, Reaches s.world t.world →
      Ends (if cfg.unprotected port then SecgwModel.drainInbound env cfg t
        else SecgwModel.drainOutbound env cfg t) (fun _ => True)
        (fun t => Reaches s.world t.world) := by
    intro t ht
    split
    · refine (hwork (fun r => r.2.2.2) ht fun r hr => .drainInbound hr).bind ?_
      intro r hr
      exact hwork Lcore.world hr fun t' ht' => .route ht'
    · refine (hwork (fun r => r.2.2) ht fun r hr => .drainOutbound hr).bind ?_
      intro r hr
      exact hwork Lcore.world hr fun t' ht' => .route ht'
  have hroute : ∀ r : Traffic × Lcore, Reaches s.world r.2.world →
      Ends (routePkts cfg.tx r.1 r.2) (fun _ => True) (fun t => Reaches s.world t.world) :=
    fun r hr => hwork Lcore.world hr fun t ht => .route ht
  have hprocess : ∀ (pkts : List PktId) (t : Lcore), Reaches s.world t.world →
      Ends (processPkts env cfg pkts port t) (fun _ => True)
        (fun t => Reaches s.world t.world) := by
    intro pkts t ht
    rw [processPkts]
    refine (hwork Prod.snd ht fun r hr => .prepare hr).bind ?_
    rintro ⟨b, w1⟩ hw1
    dsimp only at hw1 ⊢
    split
    · exact (hwork (fun r => r.2.world) hw1 fun r hr => .inbound (s := { t with world := w1 })
        hr).bind hroute
    · exact (hwork (fun r => r.2.world) hw1 fun r hr => .outbound (s := { t with world := w1 })
        hr).bind hroute
  have hreceived : Reaches s.world (s.world.modifyAll pkts fun p _ => mbufs p) :=
    .single ⟨env, cfg, .receive _ _ _⟩
  have hends : Ends (pollQueue env cfg port pkts mbufs s) (fun _ => True)
      (fun t => Reaches s.world t.world) := by
    rw [pollQueue]
    dsimp only
    split
    · exact hdrain _ hreceived
    rw [receiveBurst]
    dsimp only
    split
    · exact (hprocess _ _ (hreceived.tail ⟨env, cfg, .filter _ pkts⟩)).bind hdrain
    · exact (hprocess pkts _ hreceived).bind hdrain
  exact hends.of_ok h

end SaConfig
