import IpsecSecgw.InboundPolicyProofs
import IpsecSecgw.LcoreCountProofs

/-! # Inbound policies over a run

    A lcore takes bursts from the NIC, drains its crypto queues and flushes
    them, and other code works beside it.  None of this puts a packet into a
    queue of the inbound context without the SA it has been looked up with
    (`Sound`), so the policies hold for the packets of every burst and for all
    that a drain gives back (`inbound_policies_enforced`). -/

namespace InboundPolicy

open SaModel MbufModel CdevModel Esp IpsecModel WorkerModel SecgwModel Outcome Handling
open PacketOrder (saOf KeepsSa)
open CryptoQueue (Beside Untouched)
open PacketMoves (content)
open Transfer (Transfers)

variable {env : Env} {lib : CryptoGroup} {conf : PollConf}

/-! ## Work beside the queues -/

/-- The policy checks free packets, nothing else. -/
theorem inboundPolicies_aside (ctx : EvCtx) (n4 n6 : Nat) (trf : Traffic)
    (stats : DirStats) (w : World) :
    Beside w (inboundPolicies ctx n4 n6 trf stats w).2.2
      ∧ (inboundPolicies ctx n4 n6 trf stats w).2.2.mbuf = w.mbuf
      ∧ (inboundPolicies ctx n4 n6 trf stats w).2.2.sa = w.sa := by
  have hfamily : ∀ (sp : Option SpCtx) off lim pkts stats (w : World),
      Beside w (inboundSpSa sp ctx.saCtx off lim pkts stats w).2.2
        ∧ (inboundSpSa sp ctx.saCtx off lim pkts stats w).2.2.mbuf = w.mbuf
        ∧ (inboundSpSa sp ctx.saCtx off lim pkts stats w).2.2.sa = w.sa := by
    intro sp off lim pkts stats w
    cases sp with
    | none => exact ⟨Beside.refl w, rfl, rfl⟩
    | some acl => exact ⟨CryptoQueue.freePkts_beside w _, rfl, rfl⟩
  rw [inboundPolicies]
  obtain ⟨hbeside, hmbuf, hsa⟩ := hfamily ctx.sp4Ctx ip4Proto n4 trf.ip4 stats.spd4 w
  generalize inboundSpSa ctx.sp4Ctx ctx.saCtx ip4Proto n4 trf.ip4 stats.spd4 w = r4
    at hbeside hmbuf hsa
  obtain ⟨hbeside', hmbuf', hsa'⟩ :=
    hfamily ctx.sp6Ctx ip6Proto n6 trf.ip6 stats.spd6 r4.2.2
  exact ⟨hbeside.trans hbeside', hmbuf'.trans hmbuf, hsa'.trans hsa⟩

/-- Packets that wait are not written, and the SAs are as before. -/
theorem Sound.beside {ctx : IpsecCtx} {w w' : World} (h : Sound env conf lib (ctx, w))
    (hw : Beside w w') (hmbuf : ∀ x, Waits (ctx, w) x → w'.mbuf x = w.mbuf x)
    (hsa : w'.sa = w.sa) : Sound env conf lib (ctx, w') := by
  constructor
  · intro henable
    obtain ⟨hctx, hol⟩ := h.rest henable
    refine ⟨hctx.beside hw ?_, hol⟩
    rw [hsa]
    exact hctx.sessions
  · exact h.short
  · rintro x ⟨i, hx⟩
    rw [hw.pair] at hx
    have hwait : Waits (ctx, w) x := ⟨i, hx⟩
    refine atQueue_stable w w' x (hmbuf x hwait) ?_ (h.waits x hwait)
    rw [hsa]
    exact SasKept.refl _

/-! ## A burst from the NIC -/

/-- Packets as `rte_eth_rx_burst` gives them: distinct, and none of them one the
    crypto is still working on. -/
structure FromNic (s : State) (pkts : List PktId) : Prop where
  nodup : pkts.Nodup
  short : pkts.length ≤ maxPktBurst
  fresh : ∀ x ∈ pkts, ¬ Waits s x

/-- The packets of a burst behind `prepare_traffic`. -/
def members (t : Burst) : List PktId := t.ipsec ++ (t.trf.ip4 ++ t.trf.ip6)

/-- A packet joins one array, or none. -/
theorem members_add (t : Burst) (p : PktId) (cls : PktClass) :
    (members (t.add p cls)).Perm (members t ++ [p]) ∨ t.add p cls = t := by
  cases cls with
  | ipsec =>
      refine .inl ?_
      show (t.ipsec ++ [p] ++ (t.trf.ip4 ++ t.trf.ip6)).Perm _
      rw [members, List.append_assoc, List.append_assoc]
      exact (List.perm_append_comm).append_left t.ipsec
  | ip4 =>
      refine .inl ?_
      show (t.ipsec ++ (t.trf.ip4 ++ [p] ++ t.trf.ip6)).Perm _
      rw [members, List.append_assoc, List.append_assoc, List.append_assoc]
      exact ((List.perm_append_comm).append_left t.trf.ip4).append_left t.ipsec
  | ip6 =>
      refine .inl ?_
      show (t.ipsec ++ (t.trf.ip4 ++ (t.trf.ip6 ++ [p]))).Perm _
      rw [members, List.append_assoc, List.append_assoc]
  | freed => exact .inr rfl

theorem trimTo_olFlags (m : Mbuf) (plen : Nat) : (trimTo m plen).olFlags = m.olFlags := by
  rw [trimTo]
  split
  · rw [rtePktmbufTrim]
    split
    · rfl
    · rfl
  · rfl

theorem classify_olFlags (m : Mbuf) (proto : Option UInt8) (udp : Nat) (plain : PktClass) :
    (classify conf m proto udp plain).2.olFlags = m.olFlags := by
  rw [classify]
  split
  · rfl
  · split
    · rfl
    · rfl

theorem saveUserdata_olFlags (m : Mbuf) : (saveUserdata conf m).olFlags = m.olFlags := by
  rw [saveUserdata]
  split
  · cases conf.getUserdata m.port m.dynSa with
    | none => rfl
    | some p => rfl
  · rfl

/-- **CLASSIFICATION** leaves the flags of the NIC alone. -/
theorem prepareOnePacket_olFlags {m : Mbuf} {r : PktClass × Mbuf}
    (h : prepareOnePacket conf m = some r) : r.2.olFlags = m.olFlags := by
  have hadj : ∀ a m', rtePktmbufAdj m rteEtherHdrLen = some (a, m') →
      m'.olFlags = m.olFlags := by
    intro a m' hm'
    rw [rtePktmbufAdj] at hm'
    split at hm'
    · obtain ⟨-, rfl⟩ := Prod.mk.inj (Option.some.inj hm')
      rfl
    · cases hm'
  have hip4 : ∀ m', (prepareIpv4 conf m').2.olFlags = m'.olFlags :=
    fun m' => (classify_olFlags _ _ _ _).trans (trimTo_olFlags m' _)
  have hip6 : ∀ m', (prepareIpv6 conf m').2.olFlags = m'.olFlags := by
    intro m'
    have htrim : (adjustIpv6Pktlen m' m'.dataOff).olFlags = m'.olFlags :=
      trimTo_olFlags m' _
    rw [prepareIpv6]
    dsimp only
    split
    · exact htrim
    · exact (classify_olFlags _ _ _ _).trans htrim
  rw [prepareOnePacket] at h
  obtain ⟨r', hr', rfl⟩ := Option.map_eq_some_iff.mp h
  have hflags : r'.2.olFlags = m.olFlags := by
    split at hr'
    · obtain ⟨⟨a, m'⟩, hm', rfl⟩ := Option.map_eq_some_iff.mp hr'
      exact (hip4 m').trans (hadj a m' hm')
    · split at hr'
      · obtain ⟨⟨a, m'⟩, hm', rfl⟩ := Option.map_eq_some_iff.mp hr'
        exact (hip6 m').trans (hadj a m' hm')
      · obtain rfl := Option.some.inj hr'
        rfl
  split
  · exact hflags
  · exact (saveUserdata_olFlags r'.2).trans hflags

/-- What `prepare_traffic` has made of a burst in `w`. -/
structure Prepared (w : World) (pkts : List PktId) (r : Burst × World) : Prop where
  once : ∃ left, (members r.1 ++ left).Perm pkts
  beside : Beside w r.2
  sa : r.2.sa = w.sa
  mbuf : ∀ x, x ∉ pkts → r.2.mbuf x = w.mbuf x
  flags : ∀ x, (r.2.mbuf x).olFlags = (w.mbuf x).olFlags

/-- One more packet. -/
theorem prepareTrafficOne_prepared {w : World} {pkts : List PktId} {r : Burst × World}
    (h : Prepared w pkts r) (p : PktId) :
    Ends (prepareTrafficOne conf r p) (· = .null) (Prepared w (pkts ++ [p])) := by
  obtain ⟨⟨left, honce⟩, hbeside, hsa, hmbuf, hflags⟩ := h
  have hout : ∀ {x}, x ∉ pkts ++ [p] → x ∉ pkts ∧ x ≠ p := by
    intro x hx
    exact ⟨fun h => hx (List.mem_append_left _ h),
      fun h => hx (List.mem_append_right _ (List.mem_singleton.mpr h))⟩
  rw [prepareTrafficOne]
  split
  · exact ends_error rfl
  rename_i cls m hm
  have hflags' : ∀ x, ((r.2.modify p fun _ => m).mbuf x).olFlags = (w.mbuf x).olFlags := by
    intro x
    show (Function.update r.2.mbuf p m x).olFlags = _
    by_cases hx : x = p
    · rw [hx, Function.update_self, ← hflags p]
      exact prepareOnePacket_olFlags hm
    · rw [Function.update_of_ne hx]
      exact hflags x
  have hothers : ∀ x, x ∉ pkts ++ [p] →
      (r.2.modify p fun _ => m).mbuf x = w.mbuf x := by
    intro x hx
    refine Eq.trans ?_ (hmbuf x (hout hx).1)
    exact Function.update_of_ne (hout hx).2 _ _
  have honce' : ∃ left', (members (r.1.add p cls) ++ left').Perm (pkts ++ [p]) := by
    rcases members_add r.1 p cls with hperm | hsame
    · refine ⟨left, (hperm.append_right left).trans ?_⟩
      rw [List.append_assoc]
      refine ((List.perm_append_comm).append_left (members r.1)).trans ?_
      rw [← List.append_assoc]
      exact honce.append_right [p]
    · refine ⟨left ++ [p], ?_⟩
      rw [hsame, ← List.append_assoc]
      exact honce.append_right [p]
  have hmodify : Beside w (r.2.modify p fun _ => m) :=
    hbeside.trans (CryptoQueue.modify_beside _ _ _)
  refine ends_ok ?_
  split
  · exact ⟨honce', hmodify.trans (CryptoQueue.freePkts_beside _ _), hsa, hothers, hflags'⟩
  · exact ⟨honce', hmodify, hsa, hothers, hflags'⟩

/-- **CLASSIFYING A BURST**. -/
theorem prepareTraffic_prepared (pkts : List PktId) (w : World) :
    Ends (prepareTraffic conf pkts w) (· = .null) (Prepared w pkts) := by
  rw [prepareTraffic]
  refine (ends_foldlM (P := fun todo r => ∃ done, done ++ todo = pkts ∧ Prepared w done r)
    ⟨[], rfl, ⟨[], List.Perm.refl _⟩, Beside.refl w, rfl, fun _ _ => rfl, fun _ => rfl⟩
    ?_).mono (fun _ h => h) ?_
  · rintro p todo r ⟨done, hdone, h⟩
    refine (prepareTrafficOne_prepared h p).mono (fun _ h => h) ?_
    intro r' hr'
    refine ⟨done ++ [p], ?_, hr'⟩
    rw [List.append_assoc]
    exact hdone
  · rintro r ⟨done, hdone, h⟩
    rw [List.append_nil] at hdone
    exact hdone ▸ h

/-- The packets are then as the crypto and the policies take them. -/
theorem Prepared.arrives {s : State} {pkts : List PktId} {r : Burst × World}
    (h : Prepared s.2 pkts r) (hnic : FromNic s pkts) : Arrives (s.1, r.2) r.1 := by
  obtain ⟨left, honce⟩ := h.once
  have hall := List.nodup_append.mp (honce.nodup_iff.mpr hnic.nodup)
  have hin : ∀ x ∈ members r.1, x ∈ pkts :=
    fun x hx => honce.mem_iff.mp (List.mem_append_left _ hx)
  refine ⟨hall.1, ?_, ?_⟩
  · have hlen := honce.length_eq
    rw [List.length_append] at hlen
    exact Nat.le_trans (Nat.le_add_right _ _) (hlen ▸ hnic.short)
  · rintro x hx ⟨i, hwait⟩
    refine hnic.fresh x (hin x hx) ⟨i, ?_⟩
    rw [h.beside.pair] at hwait
    exact hwait

/-- Classification is beside the queues. -/
theorem Prepared.sound {s : State} {pkts : List PktId} {r : Burst × World}
    (h : Prepared s.2 pkts r) (hnic : FromNic s pkts) (hsound : Sound env conf lib s) :
    Sound env conf lib (s.1, r.2) :=
  Sound.beside hsound h.beside
    (fun x hx => h.mbuf x fun hin => hnic.fresh x hin hx) h.sa

/-! ## The calls -/

/-- What `process_pkts_inbound` has made of a burst: the decrypted packets are
    packets of the burst, the other ESP packets have been freed or put into queues,
    and each packet of a family is kept, or freed once. -/
structure Received (ctx : EvCtx) (t : Burst) (stats : DirStats) (s : State)
    (o4 o6 pre : List PktId) (r : Traffic × DirStats × State) : Prop where
  enforced : Enforced ctx t.trf stats s o4 o6 pre r
  mine : ∀ x ∈ o4 ++ o6, x ∈ t.ipsec
  moved : Transfers (content s) (t.ipsec : Multiset PktId)
    (o4 ++ o6 ++ pre : List PktId) (content r.2.2)
  once : ∃ l, r.2.2.2.freed = s.2.freed ++ l
    ∧ ∀ x ∈ t.trf.ip4 ++ o4 ++ (t.trf.ip6 ++ o6),
      l.count x = if x ∈ r.1.ip4 ++ r.1.ip6 then 0 else 1

/-- A packet is in one of the two parts of a list without doubles. -/
theorem count_part {l kept dropped : List PktId} (hnodup : l.Nodup)
    (hperm : (kept ++ dropped).Perm l) {x : PktId} (hx : x ∈ l) :
    dropped.count x = if x ∈ kept then 0 else 1 := by
  have hone : (kept ++ dropped).count x = 1 :=
    List.count_eq_one_of_mem (hperm.nodup_iff.mpr hnodup) (hperm.mem_iff.mpr hx)
  rw [List.count_append] at hone
  split
  · rename_i hin
    have hpos := List.count_pos_iff.mpr hin
    omega
  · rename_i hout
    have hzero := List.count_eq_zero.mpr hout
    omega

/-- **A BURST** of an unprotected port. -/
theorem processPktsInbound_received (ctx : EvCtx)
    (hlaws : conf.enable = true → Lawful env lib) (sad : PktId → Option SaPtr) {t : Burst}
    (stats : DirStats) {s : State} (hsound : Sound env conf lib s) (harr : Arrives s t) :
    Ends (processPktsInbound env conf ctx sad t stats s) (· = .null) (fun r =>
      Sound env conf lib r.2.2
        ∧ ((∀ x ∈ t.trf.ip4 ++ t.trf.ip6, (s.2.mbuf x).olFlags &&& rxSecOffload = 0) →
          ∃ o4 o6 pre, Received ctx t stats s o4 o6 pre r)) := by
  rw [processPktsInbound]
  refine (inboundCrypto_done hlaws sad hsound harr).bind ?_
  rintro ⟨trf, s1⟩ ⟨o4, o6, pre, hdone⟩
  obtain ⟨hbeside, hmbuf, hsa⟩ :=
    inboundPolicies_aside ctx t.trf.ip4.length t.trf.ip6.length trf stats s1.2
  refine ends_pure ⟨Sound.beside hdone.sound hbeside (fun x _ => congrFun hmbuf x) hsa, ?_⟩
  intro hclear
  have hparts := List.nodup_append.mp harr.nodup
  have hapart : ∀ x ∈ t.trf.ip4 ++ t.trf.ip6, x ∉ o4 ++ o6 :=
    fun x hx hin => hparts.2.2 x (hdone.mine x hin) x hx rfl
  have henforced := inboundPolicies_enforced ctx stats hdone.done (fun x hx => by
    rw [hdone.clear x hx]
    exact hclear x hx) hapart
  -- the policies are beside the queues
  have hplaces : content (s1.1, (inboundPolicies ctx t.trf.ip4.length t.trf.ip6.length trf
      stats s1.2).2.2) = content (s1.1, s1.2) :=
    PacketMoves.content_congr hbeside.pair
  refine ⟨o4, o6, pre, henforced, hdone.mine, hplaces ▸ hdone.moves.balance, ?_⟩
  obtain ⟨log, -, d4, d6, hfreed, honce4, honce6, -, -⟩ := henforced.through
  -- no packet is in both families, or twice in one
  have hnodup : (t.trf.ip4 ++ o4 ++ (t.trf.ip6 ++ o6)).Nodup := by
    have hall : ((t.trf.ip4 ++ t.trf.ip6) ++ (o4 ++ o6)).Nodup :=
      List.nodup_append.mpr ⟨hparts.2.1, hdone.nodup, fun x hx y hy he =>
        hapart x hx (he ▸ hy)⟩
    refine (List.Perm.nodup_iff ?_).mp hall
    rw [List.append_assoc, List.append_assoc, ← List.append_assoc t.trf.ip6,
      ← List.append_assoc o4]
    exact (List.perm_append_comm.append_right o6).append_left t.trf.ip4
  have hperm : ((inboundPolicies ctx t.trf.ip4.length t.trf.ip6.length trf stats s1.2).1.ip4
      ++ (inboundPolicies ctx t.trf.ip4.length t.trf.ip6.length trf stats s1.2).1.ip6
      ++ (d4 ++ d6)).Perm (t.trf.ip4 ++ o4 ++ (t.trf.ip6 ++ o6)) := by
    refine List.Perm.trans ?_ (honce4.append honce6)
    rw [List.append_assoc, List.append_assoc, ← List.append_assoc _ d4,
      ← List.append_assoc d4]
    exact (List.perm_append_comm.append_right d6).append_left _
  refine ⟨pre ++ (d4 ++ d6), ?_, ?_⟩
  · rw [← List.append_assoc, ← List.append_assoc]
    exact hfreed
  · intro x hx
    have hpre : x ∉ pre := by
      intro hin
      refine hdone.freed x hin ?_
      rcases List.mem_append.mp hx with hx | hx
      · rcases List.mem_append.mp hx with hx | hx
        · exact List.mem_append_left _ (List.mem_append_left _ hx)
        · exact List.mem_append_right _ (List.mem_append_left _ hx)
      · rcases List.mem_append.mp hx with hx | hx
        · exact List.mem_append_left _ (List.mem_append_right _ hx)
        · exact List.mem_append_right _ (List.mem_append_right _ hx)
    rw [List.count_append, List.count_eq_zero.mpr hpre, Nat.zero_add]
    exact count_part hnodup hperm hx

/-- The operations the queues of a context hand out to a drain. -/
def handedBack (env : Env) (conf : PollConf) (s : State) : List PktId :=
  if conf.enable then (ctxDequeue env trafficDim s).1
  else handedOut env espInboundPostFn trafficDim s.1.nbQps [] s

/-- What a drain of the crypto queues gives back has been through a crypto session. -/
theorem drainCrypto_decrypted (hkeep : KeepsSa env)
    (hlaws : conf.enable = true → Lawful env lib) {s : State}
    (hsound : Sound env conf lib s) :
    Ends (drainCrypto env lib conf espInboundPostFn s) (· = .null) (fun r =>
      Sound env conf lib r.2 ∧ ∃ o4 o6 pre log, r.1 = ⟨o4, o6⟩
        ∧ r.2.2.freed = s.2.freed ++ pre ∧ r.2.2.processed = s.2.processed ++ log
        ∧ (∀ x ∈ o4 ++ o6, Decrypted log r.2.2 x)
        ∧ (o4 ++ o6 ++ pre).Perm (handedBack env conf s)
        ∧ ∀ x ∈ handedBack env conf s, Waits s x) := by
  rw [drainCrypto, handedBack]
  split
  · rename_i henable
    have hwait : ∀ x, Waits s x → Grouped lib s.2 x := by
      intro x hx
      have h := hsound.waits x hx
      rwa [AtQueue, if_pos henable] at h
    -- the library sorts what it finishes by family
    obtain ⟨out, ⟨o4, o6, h4, h6, hperm⟩, hdrained⟩ :=
      ipsecCqpProcess_drained (hlaws henable) hwait
    obtain ⟨-, hwaited⟩ := ctxDequeue_drained (hlaws henable) trafficDim s
    obtain ⟨pre, hfreed, hall⟩ := hdrained.freed
    obtain ⟨log, hlog, hthrough⟩ := hdrained.through
    refine ends_pure ⟨⟨?_, ?_, ?_⟩, o4, o6, pre, log, ?_, hfreed, hlog, ?_, ?_, hwaited⟩
    · intro hfalse
      rw [henable] at hfalse
      cases hfalse
    · exact fun h i => Nat.lt_of_le_of_lt (hdrained.bufs i) (hsound.short h i)
    · intro x hx
      rw [AtQueue, if_pos henable]
      exact hdrained.keeps x (hwait x (hdrained.waits x hx))
    · exact congrArg₂ Traffic.mk h4 h6
    · exact fun x hx => hthrough x (hperm.mem_iff.mp hx)
    · exact (hperm.append_right pre).trans hall
  · rename_i henable
    have hwait : ∀ x, Waits s x → Awaited s.2 x := by
      intro x hx
      have h := hsound.waits x hx
      rwa [AtQueue, if_neg henable] at h
    obtain ⟨hctx, hol⟩ := hsound.rest (Bool.eq_false_iff.mpr henable)
    refine ((CryptoQueue.ipsecDequeue_ok env (CryptoQueue.dequeueXform_keeps .ingress) hctx
      (Nat.le_refl _)).and
      (@ipsecDequeue_drained env .ingress hkeep trafficDim s.1.nbQps [] s hwait)).bind ?_
    rintro ⟨pkts, s1⟩ ⟨⟨hctx1, hol1⟩, out, hout, hdrained, hwaited⟩
    obtain rfl : pkts = out := hout
    -- the legacy path sorts behind the dequeue, and frees the rest
    obtain ⟨o4, o6, left, heq, hperm⟩ := split46Traffic_parts {} pkts s1.2
    obtain ⟨pre, hfreed, hall⟩ := hdrained.freed
    obtain ⟨log, hlog, hthrough⟩ := hdrained.through
    refine ends_pure ?_
    dsimp only
    rw [heq]
    refine ⟨⟨?_, ?_, ?_⟩, o4, o6, pre ++ left, log, rfl, ?_, hlog, ?_, ?_, hwaited⟩
    · intro _
      exact ⟨hctx1.beside (CryptoQueue.freePkts_beside s1.2 left) hctx1.sessions,
        fun h => hol1.trans (hol h)⟩
    · exact fun h => absurd h henable
    · intro x hx
      rw [AtQueue, if_neg henable]
      exact hdrained.keeps x (hwait x (hdrained.waits x hx))
    · show s1.2.freed ++ left = _
      rw [hfreed, List.append_assoc]
    · exact fun x hx => hthrough x (hperm.mem_iff.mp (List.mem_append_left _ hx))
    · refine List.Perm.trans ?_ ((hperm.append_right pre).trans hall)
      rw [List.append_assoc _ left]
      exact List.perm_append_comm.append_left (o4 ++ o6)

/-- What `drain_inbound_crypto_queues` has made of the operations the queues hand
    out: each has waited there, and its packet is kept, or freed. -/
structure Finished (env : Env) (conf : PollConf) (ctx : EvCtx) (stats : DirStats) (s : State)
    (o4 o6 pre : List PktId) (r : Traffic × DirStats × State) : Prop where
  enforced : Enforced ctx {} stats s o4 o6 pre r
  all : (o4 ++ o6 ++ pre).Perm (handedBack env conf s)
  waited : ∀ x ∈ handedBack env conf s, Waits s x
  once : ∃ l, r.2.2.2.freed = s.2.freed ++ l
    ∧ (r.1.ip4 ++ r.1.ip6 ++ l).Perm (handedBack env conf s)

/-- **A DRAIN** of the crypto queues. -/
theorem drainInboundCryptoQueues_finished (ctx : EvCtx) (hkeep : KeepsSa env)
    (hlaws : conf.enable = true → Lawful env lib) (stats : DirStats) {s : State}
    (hsound : Sound env conf lib s) :
    Ends (drainInboundCryptoQueues env lib conf ctx stats s) (· = .null) (fun r =>
      Sound env conf lib r.2.2 ∧ ∃ o4 o6 pre, Finished env conf ctx stats s o4 o6 pre r) := by
  rw [drainInboundCryptoQueues]
  refine (drainCrypto_decrypted hkeep hlaws hsound).bind ?_
  rintro ⟨trf, s1⟩ ⟨hsound1, o4, o6, pre, log, htrf, hfreed, hlog, hall, hperm, hwaited⟩
  -- so the policies know the SA of each packet
  have hdone : CryptoDone {} s o4 o6 pre (trf, s1) :=
    ⟨congrArg Traffic.ip4 htrf, congrArg Traffic.ip6 htrf, hfreed, log, hlog,
      fun x hx => (hall x hx).through⟩
  obtain ⟨hbeside, hmbuf, hsa⟩ := inboundPolicies_aside ctx 0 0 trf stats s1.2
  have henforced := inboundPolicies_enforced ctx stats hdone
    (fun x hx => absurd hx List.not_mem_nil) fun x hx => absurd hx List.not_mem_nil
  refine ends_pure ⟨Sound.beside hsound1 hbeside (fun x _ => congrFun hmbuf x) hsa,
    o4, o6, pre, henforced, hperm, hwaited, ?_⟩
  obtain ⟨-, -, d4, d6, hdropped, honce4, honce6, -, -⟩ := henforced.through
  refine ⟨pre ++ (d4 ++ d6), ?_, ?_⟩
  · rw [← List.append_assoc, ← List.append_assoc]
    exact hdropped
  · have honce4 : ((inboundPolicies ctx 0 0 trf stats s1.2).1.ip4 ++ d4).Perm ([] ++ o4) :=
      honce4
    have honce6 : ((inboundPolicies ctx 0 0 trf stats s1.2).1.ip6 ++ d6).Perm ([] ++ o6) :=
      honce6
    refine List.Perm.trans (List.perm_iff_count.mpr fun x => ?_) hperm
    have hcount4 := honce4.count_eq x
    have hcount6 := honce6.count_eq x
    simp only [List.count_append, List.count_nil] at hcount4 hcount6 ⊢
    omega

/-! ## Runs -/

/-- What other code may do between two calls: the queues of the context keep
    their packets, each as it was or as a crypto call of this direction would
    have left it. -/
structure Elsewhere (conf : PollConf) (lib : CryptoGroup) (s : State) (w : World) :
    Prop where
  queues : conf.enable = false → CryptoQueue.Elsewhere s w
  sas : SasKept s.2.sa w.sa
  waits : ∀ x, Waits (s.1, w) x →
    Waits s x ∧ w.mbuf x = s.2.mbuf x ∨ AtQueue conf lib w x

/-- A step of a lcore with inbound policies `ctx`: a burst of an unprotected
    port, a drain of the crypto queues, a flush of their buffers, or something
    elsewhere. -/
inductive Step (env : Env) (lib : CryptoGroup) (conf : PollConf) (ctx : EvCtx)
    (s s' : State) : Prop
  | burst (pkts : List PktId) (hnic : FromNic s pkts) (t : Burst) (w : World)
      (hprep : prepareTraffic conf pkts s.2 = .ok (t, w)) (sad : PktId → Option SaPtr)
      (stats : DirStats) (r : Traffic × DirStats × State)
      (h : processPktsInbound env conf ctx sad t stats (s.1, w) = .ok r) (hs : s' = r.2.2)
  | drain (stats : DirStats) (r : Traffic × DirStats × State)
      (h : drainInboundCryptoQueues env lib conf ctx stats s = .ok r) (hs : s' = r.2.2)
  | flush (hs : s' = drainCryptoBuffers env s)
  | elsewhere (w : World) (hw : Elsewhere conf lib s w) (hs : s' = (s.1, w))

variable {ctx : EvCtx}

/-- **ONE STEP** keeps the invariant. -/
theorem Sound.step (hkeep : KeepsSa env) (hlaws : conf.enable = true → Lawful env lib)
    {s s' : State} (h : Sound env conf lib s) (hstep : Step env lib conf ctx s s') :
    Sound env conf lib s' := by
  cases hstep with
  | burst pkts hnic t w hprep sad stats r hr hs =>
      subst hs
      have hprepared : Prepared s.2 pkts (t, w) :=
        (prepareTraffic_prepared pkts s.2).of_ok hprep
      exact ((processPktsInbound_received ctx hlaws sad stats (hprepared.sound hnic h)
        (hprepared.arrives hnic)).of_ok hr).1
  | drain stats r hr hs =>
      subst hs
      exact ((drainInboundCryptoQueues_finished ctx hkeep hlaws stats h).of_ok hr).1
  | flush hs =>
      subst hs
      obtain ⟨l, hdrained⟩ :=
        drainCryptoBuffers_drained (R := AtQueue conf lib) atQueue_stable env s
      constructor
      · intro henable
        obtain ⟨hctx, hol⟩ := h.rest henable
        obtain ⟨hctx', hsame⟩ := CryptoQueue.drainCryptoBuffers_ok env hctx
        exact ⟨hctx', fun ht => hsame.trans (hol ht)⟩
      · exact fun henable i => Nat.lt_of_le_of_lt (hdrained.bufs i) (h.short henable i)
      · exact fun x hx => hdrained.keeps x (h.waits x (hdrained.waits x hx))
  | elsewhere w hw hs =>
      subst hs
      constructor
      · intro henable
        obtain ⟨hctx, hol⟩ := h.rest henable
        exact ⟨hctx.elsewhere (hw.queues henable), hol⟩
      · exact h.short
      · intro x hx
        rcases hw.waits x hx with ⟨hwait, hmbuf⟩ | hleft
        · exact atQueue_stable s.2 w x hmbuf hw.sas (h.waits x hwait)
        · exact hleft

/-- **ALL STEPS** keep it. -/
theorem Sound.reaches (hkeep : KeepsSa env) (hlaws : conf.enable = true → Lawful env lib)
    {s s' : State} (h : Sound env conf lib s)
    (hreach : Relation.ReflTransGen (Step env lib conf ctx) s s') :
    Sound env conf lib s' := by
  induction hreach with
  | refl => exact h
  | tail _ hstep ih => exact ih.step hkeep hlaws hstep

/-- Nothing waits in the queues `cryptodevs_init` sets up. -/
theorem start_sound {cdev : CdevConf} {req : Nat} {ps : List LcoreParams}
    {devs : List CryptodevInfo} {init : InitState}
    (hinit : cryptodevsInit cdev req ps devs = some init) (env : Env) {w : World}
    (hw : Untouched w) :
    Sound env conf lib (IpsecCtx.ofTables init.tables env.lcoreId .ingress, w) := by
  refine ⟨fun _ => CryptoQueue.ofTables_resting hinit env.lcoreId .ingress hw True,
    fun _ _ => show 0 < maxPktBurst by decide, ?_⟩
  rintro x ⟨i, hx | hx⟩
  · cases hx
  · rw [hw.pair] at hx
    cases hx

/-- **INBOUND POLICIES ARE ENFORCED**: in every state any order of steps leads
    to, of every burst without inline-processed packets, and of the operations a
    drain takes from the queues, only packets stay that `Enforced` lets pass.  A
    null pointer is the only fault. -/
theorem inbound_policies_enforced {cdev : CdevConf} {req : Nat} {ps : List LcoreParams}
    {devs : List CryptodevInfo} {init : InitState}
    (hinit : cryptodevsInit cdev req ps devs = some init) (hkeep : KeepsSa env)
    (hlaws : conf.enable = true → Lawful env lib) (ctx : EvCtx) {w : World}
    (hw : Untouched w) {s : State}
    (hreach : Relation.ReflTransGen (Step env lib conf ctx)
      (IpsecCtx.ofTables init.tables env.lcoreId .ingress, w) s) :
    (∀ pkts, FromNic s pkts →
        (∀ x ∈ pkts, (s.2.mbuf x).olFlags &&& rxSecOffload = 0) →
        Ends (prepareTraffic conf pkts s.2) (· = .null) (fun p =>
          Prepared s.2 pkts p ∧ ∀ sad stats,
          Ends (processPktsInbound env conf ctx sad p.1 stats (s.1, p.2)) (· = .null)
            (fun r => ∃ o4 o6 pre, Received ctx p.1 stats (s.1, p.2) o4 o6 pre r)))
      ∧ ∀ stats, Ends (drainInboundCryptoQueues env lib conf ctx stats s) (· = .null)
        (fun r => ∃ o4 o6 pre, Finished env conf ctx stats s o4 o6 pre r) := by
  have hsound := (start_sound hinit env hw).reaches hkeep hlaws hreach
  constructor
  · intro pkts hnic hclear
    refine (prepareTraffic_prepared pkts s.2).mono (fun _ h => h) ?_
    intro p hp
    refine ⟨hp, fun sad stats => ?_⟩
    refine (processPktsInbound_received ctx hlaws sad stats (hp.sound hnic hsound)
      (hp.arrives hnic)).mono (fun _ h => h) ?_
    rintro r ⟨-, hr⟩
    refine hr fun x hx => ?_
    obtain ⟨left, honce⟩ := hp.once
    rw [hp.flags x]
    exact hclear x (honce.mem_iff.mp (List.mem_append_left _ (List.mem_append_right _ hx)))
  · intro stats
    exact (drainInboundCryptoQueues_finished ctx hkeep hlaws stats hsound).mono
      (fun _ h => h) fun _ h => h.2

/-- The session of an operation as a number, and back. -/
def sesCode (ref : SaRef) : SesId := 2 * ref.1 + ref.2.toNat

def codeSes (n : SesId) : SaRef := (n / 2, n % 2 == 1)

theorem codeSes_sesCode (ref : SaRef) : codeSes (sesCode ref) = ref := by
  obtain ⟨p, fb⟩ := ref
  cases fb with
  | false =>
      refine Prod.ext ?_ ?_
      · exact Nat.mul_div_cancel_left p Nat.two_pos
      · show ((2 * p + 0) % 2 == 1) = false
        rw [Nat.add_zero, Nat.mul_mod_right]
        rfl
  | true =>
      refine Prod.ext ?_ ?_
      · have hhalf : ∀ n : Nat, (2 * n + 1) / 2 = n := fun n => by omega
        exact hhalf p
      · show ((2 * p + 1) % 2 == 1) = true
        rw [Nat.mul_add_mod]
        rfl

/-- A lcore whose library accepts the packets the NIC has not failed, and writes
    the session into their operations. -/
def sortingEnv : Env :=
  { CryptoQueue.laxEnv 1 with
    handle := fun w _ l =>
      (l.filter (fun x => !offloadFailed (w.mbuf x))
          ++ l.filter (fun x => !!offloadFailed (w.mbuf x)),
        (l.filter (fun x => !offloadFailed (w.mbuf x))).length)
    touch := fun _ ref _ => attachSession (some (sesCode ref))
    handle_perm := fun _ _ l => List.filter_append_perm _ l
    handle_le := fun _ _ l => List.length_filter_le _ l }

/-- A library that finds the session in the operation; each operation is a group
    of its own. -/
def singleGroups : CryptoGroup where
  opSession := fun m => codeSes (m.priv.cop.ses.getD 0)
  group := fun w ops => ops.map fun x => (codeSes ((w.mbuf x).priv.cop.ses.getD 0), [x])
  group_perm := by
    intro w ops
    rw [List.flatMap_map]
    exact List.Perm.of_eq (List.flatMap_singleton' ops)
  group_session := by
    intro w ops g hg p hp
    obtain ⟨x, -, rfl⟩ := List.mem_map.mp hg
    rw [List.mem_singleton.mp hp]

theorem sortingEnv_lawful : Lawful sortingEnv singleGroups where
  touchSa := fun _ _ _ _ => rfl
  completeSa := fun _ _ _ => rfl
  attached := fun _ ref _ _ _ => codeSes_sesCode ref
  carried := fun _ _ _ => rfl
  refused := by
    intro w ref l _ x hx
    have hfront : (sortingEnv.handle w ref l).1.take (sortingEnv.handle w ref l).2
        = l.filter fun x => !offloadFailed (w.mbuf x) := List.take_left
    rw [hfront] at hx
    have hgood := (List.mem_filter.mp hx).2
    simpa using hgood

/-- The `librte_ipsec` path. -/
def burstConf : PollConf := PacketCount.libraryConf.poll

/-- IPv4 packets are for the first SA, others pass. -/
def burstCtx : EvCtx := ⟨some fun _ _ => 1, some fun _ _ => bypass, ⟨0, 1⟩⟩

/-- The queues of two lcores of an unprotected port. -/
def inTables : InitState :=
  (cryptodevsInit ⟨1, 0xff, false, 1⟩ 0 Cdev.twoLcores Cdev.twoDevs).getD {}

theorem cryptodevsInit_inTables :
    cryptodevsInit ⟨1, 0xff, false, 1⟩ 0 Cdev.twoLcores Cdev.twoDevs = some inTables := by
  have h : (cryptodevsInit ⟨1, 0xff, false, 1⟩ 0 Cdev.twoLcores Cdev.twoDevs).isSome
      = true := by decide
  rw [inTables]
  cases hinit : cryptodevsInit ⟨1, 0xff, false, 1⟩ 0 Cdev.twoLcores Cdev.twoDevs with
  | none =>
      rw [hinit] at h
      cases h
  | some s => rfl

/-- ESP packets, and SAs of a crypto device. -/
def espStart : State :=
  (IpsecCtx.ofTables inTables.tables 1 .ingress,
    { mbuf := fun _ => Mbuf.mid (fun i => if i = 140 then 8 else if i = 142 then 0x45
        else if i = 145 then 46 else if i = 151 then 50 else 0) 60
      sa := fun _ =>
        { (default : IpsecSa) with
          aeadAlgo := .aesGcm, spi := 5, primary := { type := .lookasideProtocol } } })

theorem espStart_untouched : Untouched espStart.2 := ⟨fun _ => rfl, fun _ _ => rfl⟩

/-- Two packets arrive, and the buffers are flushed. -/
def espFlushed : Except Fault State := do
  let p ← prepareTraffic burstConf [0, 1] espStart.2
  let r ← processPktsInbound sortingEnv burstConf burstCtx (fun _ => some 0) p.1 {}
    (espStart.1, p.2)
  return drainCryptoBuffers sortingEnv r.2.2

theorem espFlushed_reaches {s : State} (h : espFlushed = .ok s) :
    Relation.ReflTransGen (Step sortingEnv singleGroups burstConf burstCtx) espStart s := by
  have hnic : FromNic espStart [0, 1] := by
    refine ⟨by decide, by decide, ?_⟩
    rintro x - ⟨i, hx | hx⟩
    · cases hx
    · cases hx
  rw [espFlushed] at h
  cases hprep : prepareTraffic burstConf [0, 1] espStart.2 with
  | error e =>
      rw [hprep] at h
      cases h
  | ok p =>
      rw [hprep] at h
      dsimp only [bind, Except.bind] at h
      cases hcall : processPktsInbound sortingEnv burstConf burstCtx (fun _ => some 0) p.1 {}
        (espStart.1, p.2) with
      | error e =>
          rw [hcall] at h
          cases h
      | ok r =>
          rw [hcall] at h
          obtain rfl := Except.ok.inj h
          have hburst : Step sortingEnv singleGroups burstConf burstCtx espStart r.2.2 :=
            .burst [0, 1] hnic p.1 p.2 hprep (fun _ => some 0) {} r hcall rfl
          exact (Relation.ReflTransGen.single hburst).tail (.flush rfl)

/-- Both packets then wait in a device; a drain gives them back decrypted. -/
theorem inbound_policies_enforced_flushed :
    ∃ s, espFlushed = .ok s ∧ handedBack sortingEnv burstConf s = [0, 1]
      ∧ (drainInboundCryptoQueues sortingEnv singleGroups burstConf burstCtx {} s).toOption.map
        (fun r => (r.1.ip4, r.1.ip6)) = some ([0, 1], [])
      ∧ (∀ pkts, FromNic s pkts →
        (∀ x ∈ pkts, (s.2.mbuf x).olFlags &&& rxSecOffload = 0) →
        Ends (prepareTraffic burstConf pkts s.2) (· = .null) (fun p =>
          Prepared s.2 pkts p ∧ ∀ sad stats,
          Ends (processPktsInbound sortingEnv burstConf burstCtx sad p.1 stats (s.1, p.2))
            (· = .null)
            (fun r => ∃ o4 o6 pre, Received burstCtx p.1 stats (s.1, p.2) o4 o6 pre r)))
      ∧ ∀ stats, Ends (drainInboundCryptoQueues sortingEnv singleGroups burstConf burstCtx
          stats s) (· = .null)
        (fun r => ∃ o4 o6 pre, Finished sortingEnv burstConf burstCtx stats s o4 o6 pre r) := by
  have hrun : espFlushed.toOption.map (fun s => (handedBack sortingEnv burstConf s,
      (drainInboundCryptoQueues sortingEnv singleGroups burstConf burstCtx {} s).toOption.map
        fun r => (r.1.ip4, r.1.ip6))) = some ([0, 1], some ([0, 1], [])) := by
    decide +kernel
  cases h : espFlushed with
  | error e =>
      rw [h] at hrun
      cases hrun
  | ok s =>
      rw [h] at hrun
      obtain ⟨hback, hdrain⟩ := Prod.mk.inj (Option.some.inj hrun)
      exact ⟨s, rfl, hback, hdrain,
        inbound_policies_enforced cryptodevsInit_inTables sortingEnv_lawful.completeSa
          (fun _ => sortingEnv_lawful) _ espStart_untouched (espFlushed_reaches h)⟩

end InboundPolicy
