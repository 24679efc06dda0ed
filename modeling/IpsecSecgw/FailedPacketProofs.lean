import IpsecSecgw.InboundRunProofs
import IpsecSecgw.IpHeaderProofs
import IpsecSecgw.UdpEncapProofs
import IpsecSecgw.VectorProofs

/-! # Packets the NIC could not process

    A packet whose inline processing failed carries `RX_SEC_OFFLOAD_FAILED`.  The
    event workers free such a packet before they look at it, and of the ESP packets
    of poll mode only a crypto session brings one back.  Neither
    `prepare_one_packet` nor `inbound_sp_sa` asks for the flag, so a packet in the
    clear goes where its policy lets it (`PlainWaved`). -/

namespace FailedPacket

open SaModel MbufModel CdevModel IpsecModel WorkerModel SecgwModel Outcome Handling
open InboundPolicy EspHeader
open Classify (ipAt)
open PacketOrder (saOf KeepsSa)
open CryptoQueue (Untouched)

variable {env : Env} {lib : CryptoGroup} {conf : PollConf}

/-! ## Classification -/

/-- The array a packet joins. -/
def classOf (conf : PollConf) (m : Mbuf) : Option PktClass :=
  (prepareOnePacket conf m).map Prod.fst

/-- The SA in the private data of a packet the NIC has processed: the userdata of
    its session, or what was there before. -/
def savedSa (conf : PollConf) (m : Mbuf) : Option SaPtr :=
  if conf.dynfieldRegistered then (conf.getUserdata m.port m.dynSa).or m.priv.sa
  else m.priv.sa

/-- What classification leaves alone until the SA is saved. -/
structure Kept (m m' : Mbuf) : Prop where
  olFlags : m'.olFlags = m.olFlags
  port : m'.port = m.port
  dynSa : m'.dynSa = m.dynSa
  priv : m'.priv = m.priv

theorem Kept.trans {m m' m'' : Mbuf} (h : Kept m m') (h' : Kept m' m'') : Kept m m'' :=
  ⟨h'.olFlags.trans h.olFlags, h'.port.trans h.port, h'.dynSa.trans h.dynSa,
    h'.priv.trans h.priv⟩

theorem Kept.savedSa {m m' : Mbuf} (h : Kept m m') :
    savedSa conf m' = FailedPacket.savedSa conf m := by
  rw [FailedPacket.savedSa, FailedPacket.savedSa, h.port, h.dynSa, h.priv]

theorem rtePktmbufAdj_kept {m : Mbuf} {len : Nat} {r : Nat × Mbuf}
    (h : rtePktmbufAdj m len = some r) : Kept m r.2 := by
  rw [rtePktmbufAdj] at h
  split at h
  · cases h
    exact ⟨rfl, rfl, rfl, rfl⟩
  · cases h

theorem trimTo_kept (m : Mbuf) (plen : Nat) : Kept m (trimTo m plen) := by
  rw [trimTo]
  split
  · rw [rtePktmbufTrim]
    split
    · exact ⟨rfl, rfl, rfl, rfl⟩
    · exact ⟨rfl, rfl, rfl, rfl⟩
  · exact ⟨rfl, rfl, rfl, rfl⟩

theorem classify_kept (m : Mbuf) (proto : Option UInt8) (udp : Nat) (plain : PktClass) :
    Kept m (classify conf m proto udp plain).2 := by
  rw [classify]
  split
  · exact ⟨rfl, rfl, rfl, rfl⟩
  · split
    · exact ⟨rfl, rfl, rfl, rfl⟩
    · exact ⟨rfl, rfl, rfl, rfl⟩

theorem setL3_kept (m : Mbuf) (l3len : Nat) (ptype : UInt32) :
    Kept m (setL3 m l3len ptype) :=
  ⟨rfl, rfl, rfl, rfl⟩

theorem prepareIpv4_kept (m : Mbuf) : Kept m (prepareIpv4 conf m).2 :=
  (trimTo_kept m _).trans ((classify_kept _ _ _ _).trans (setL3_kept _ _ _))

theorem prepareIpv6_kept (m : Mbuf) : Kept m (prepareIpv6 conf m).2 := by
  have htrim : Kept m (adjustIpv6Pktlen m m.dataOff) := trimTo_kept m _
  rw [prepareIpv6]
  dsimp only
  split
  · exact htrim
  · exact htrim.trans ((classify_kept _ _ _ _).trans (setL3_kept _ _ _))

theorem saveUserdata_sa {m : Mbuf} (hol : m.olFlags &&& rxSecOffload ≠ 0) :
    (saveUserdata conf m).priv.sa = savedSa conf m := by
  rw [saveUserdata, savedSa]
  by_cases hdyn : conf.dynfieldRegistered = true
  · rw [if_pos ⟨hol, hdyn⟩, if_pos hdyn]
    cases conf.getUserdata m.port m.dynSa with
    | none => rfl
    | some p => rfl
  · rw [if_neg fun h => hdyn h.2, if_neg hdyn]

/-- **A PACKET THE NIC HAS SEEN**, behind its classification: its bytes from the IP
    header on, and the saved SA. -/
theorem prepareOnePacket_saved {m m' : Mbuf} {cls : PktClass}
    (h : prepareOnePacket conf m = some (cls, m')) (hcls : cls ≠ .freed)
    (hol : m.olFlags &&& rxSecOffload ≠ 0) :
    m'.buf = m.buf ∧ m'.dataOff = ipAt m ∧ m'.priv.sa = savedSa conf m := by
  obtain ⟨r, m1, hadj, rfl, hm1⟩ := prepareOnePacket_kept conf h hcls
  obtain ⟨hbuf, hoff⟩ := rtePktmbufAdj_same (by decide) hadj
  have hplace : SamePlace r.2 m1 ∧ Kept r.2 m1 := by
    rcases hm1 with ⟨-, h4⟩ | ⟨-, -, h6⟩
    · refine ⟨(prepareIpv4_same conf h4).1, ?_⟩
      have hkept : Kept r.2 (prepareIpv4 conf r.2).2 := prepareIpv4_kept r.2
      rw [h4] at hkept
      exact hkept
    · refine ⟨(prepareIpv6_same conf h6 hcls).1, ?_⟩
      have hkept : Kept r.2 (prepareIpv6 conf r.2).2 := prepareIpv6_kept r.2
      rw [h6] at hkept
      exact hkept
  obtain ⟨hsame, hkept⟩ := hplace
  have hall : Kept m m1 := (rtePktmbufAdj_kept hadj).trans hkept
  have hsaved := (saveUserdata_same conf m1).1
  refine ⟨hsaved.buf.trans (hsame.buf.trans hbuf),
    hsaved.dataOff.trans (hsame.dataOff.trans hoff), ?_⟩
  rw [saveUserdata_sa (by rw [hall.olFlags]; exact hol)]
  exact hall.savedSa

/-- The packets `done` have joined the arrays of their class. -/
structure Sorted (conf : PollConf) (w : World) (done : List PktId) (r : Burst × World) :
    Prop where
  ip4 : ∀ x, x ∈ r.1.trf.ip4 ↔ x ∈ done ∧ classOf conf (w.mbuf x) = some .ip4
  ip6 : ∀ x, x ∈ r.1.trf.ip6 ↔ x ∈ done ∧ classOf conf (w.mbuf x) = some .ip6
  rest : ∀ x, x ∉ done → r.2.mbuf x = w.mbuf x

/-- One more packet in an array, or in none. -/
theorem mem_sorted {l l' done : List PktId} {p : PktId} {cls wanted : PktClass}
    {class' : PktId → Option PktClass} (hp : class' p = some cls)
    (hl : ∀ x, x ∈ l ↔ x ∈ done ∧ class' x = some wanted)
    (hl' : l' = if cls = wanted then l ++ [p] else l) (x : PktId) :
    x ∈ l' ↔ x ∈ done ++ [p] ∧ class' x = some wanted := by
  rw [hl', List.mem_append, List.mem_singleton]
  split
  · rename_i hw
    rw [List.mem_append, List.mem_singleton, hl x]
    constructor
    · rintro (⟨hx, hc⟩ | rfl)
      · exact ⟨.inl hx, hc⟩
      · exact ⟨.inr rfl, hp.trans (congrArg some hw)⟩
    · rintro ⟨hx | hx, hc⟩
      · exact .inl ⟨hx, hc⟩
      · exact .inr hx
  · rename_i hw
    rw [hl x]
    constructor
    · rintro ⟨hx, hc⟩
      exact ⟨.inl hx, hc⟩
    · rintro ⟨hx | rfl, hc⟩
      · exact ⟨hx, hc⟩
      · exact absurd (Option.some.inj (hp.symm.trans hc)) hw

/-- **SORTING A BURST**. -/
theorem prepareTraffic_sorted (conf : PollConf) {pkts : List PktId} (hnodup : pkts.Nodup)
    (w : World) :
    Ends (prepareTraffic conf pkts w) (fun _ => True) (Sorted conf w pkts) := by
  rw [prepareTraffic]
  refine (ends_foldlM (P := fun todo r => ∃ done, done ++ todo = pkts ∧ Sorted conf w done r)
    ⟨[], rfl, fun x => ?_, fun x => ?_, fun _ _ => rfl⟩ ?_).mono (fun _ h => h) ?_
  · exact ⟨fun h => absurd h List.not_mem_nil, fun h => absurd h.1 List.not_mem_nil⟩
  · exact ⟨fun h => absurd h List.not_mem_nil, fun h => absurd h.1 List.not_mem_nil⟩
  · rintro p todo r ⟨done, hdone, h⟩
    have hnew : p ∉ done := by
      rw [← hdone] at hnodup
      exact fun hp => (List.nodup_append.mp hnodup).2.2 p hp p List.mem_cons_self rfl
    rw [prepareTrafficOne]
    split
    · exact ends_error trivial
    rename_i cls m hm
    rw [h.rest p hnew] at hm
    have hclass : classOf conf (w.mbuf p) = some cls := congrArg (Option.map Prod.fst) hm
    have hrest : ∀ x, x ∉ done ++ [p] → (r.2.modify p fun _ => m).mbuf x = w.mbuf x := by
      intro x hx
      rw [List.mem_append, not_or] at hx
      have hxp : x ≠ p := fun hxp => hx.2 (List.mem_singleton.mpr hxp)
      exact (Function.update_of_ne hxp _ _).trans (h.rest x hx.1)
    have hip4 : (r.1.add p cls).trf.ip4
        = if cls = .ip4 then r.1.trf.ip4 ++ [p] else r.1.trf.ip4 := by
      cases cls <;> rfl
    have hip6 : (r.1.add p cls).trf.ip6
        = if cls = .ip6 then r.1.trf.ip6 ++ [p] else r.1.trf.ip6 := by
      cases cls <;> rfl
    refine ends_ok ⟨done ++ [p], by rw [List.append_assoc]; exact hdone,
      mem_sorted hclass h.ip4 hip4, mem_sorted hclass h.ip6 hip6, ?_⟩
    split
    · exact hrest
    · exact hrest
  · rintro r ⟨done, hdone, h⟩
    rw [List.append_nil] at hdone
    exact hdone ▸ h

/-! ## Policies -/

/-- What the policy of a family lets pass of the packets the NIC has processed: by
    a BYPASS rule, or by one for an SA with the SPI of the saved SA. -/
def Waved (conf : PollConf) (saCtx : SaCtx) (sas : SaPtr → IpsecSa) (acl : SpCtx)
    (off : Nat) (m : Mbuf) : Prop :=
  acl m.buf (ipAt m + off) = bypass
    ∨ acl m.buf (ipAt m + off) ≠ SaModel.discard
      ∧ ∃ q, savedSa conf m = some q
        ∧ (sas (saCtx.entry (acl m.buf (ipAt m + off) - 1))).spi = (sas q).spi

/-- A packet in the clear that its policy lets pass. -/
def PlainWaved (conf : PollConf) (acl4 acl6 : SpCtx) (saCtx : SaCtx)
    (sas : SaPtr → IpsecSa) (m : Mbuf) : Prop :=
  classOf conf m = some .ip4 ∧ Waved conf saCtx sas acl4 ip4Proto m
    ∨ classOf conf m = some .ip6 ∧ Waved conf saCtx sas acl6 ip6Proto m

/-- The same of a packet behind its classification. -/
theorem passes_iff_waved {saCtx : SaCtx} {acl : SpCtx} {off lim i : Nat} {w : World}
    {sas : SaPtr → IpsecSa} (hsas : SasKept sas w.sa) {x : PktId} {m : Mbuf}
    {cls : PktClass} (hprep : prepareOnePacket conf m = some (cls, w.mbuf x))
    (hcls : cls ≠ .freed) (hfailed : offloadFailed m = true) :
    Passes acl saCtx off lim w i x ↔ Waved conf saCtx sas acl off m := by
  have hol : m.olFlags &&& rxSecOffload ≠ 0 :=
    bne_iff_ne.mp (Bool.and_eq_true_iff.mp hfailed).1
  have hkept : (w.mbuf x).olFlags = m.olFlags := prepareOnePacket_olFlags hprep
  obtain ⟨hbuf, hoff, hsa⟩ := prepareOnePacket_saved hprep hcls hol
  have hres : aclResult acl w off x = acl m.buf (ipAt m + off) := by
    rw [aclResult, hbuf, hoff]
  have hlim : ¬(i < lim ∧ (w.mbuf x).olFlags &&& rxSecOffload = 0) := by
    rw [hkept]
    exact fun h => hol h.2
  rw [Passes, Waved, hres, inboundSaCheck, hsa]
  refine or_congr Iff.rfl (and_congr_right fun _ => ?_)
  rw [and_iff_right hlim]
  cases savedSa conf m with
  | none =>
      refine ⟨fun h => absurd h Bool.false_ne_true, ?_⟩
      rintro ⟨q, hq, -⟩
      cases hq
  | some q =>
      constructor
      · intro h
        exact ⟨q, rfl, ((hsas.spi _).symm.trans (eq_of_beq h)).trans (hsas.spi q)⟩
      · rintro ⟨_, ⟨⟩, h⟩
        exact beq_iff_eq.mpr ((hsas.spi _).trans (h.trans (hsas.spi q).symm))

/-- What a policy makes of its packets. -/
structure Swept (acl : SpCtx) (saCtx : SaCtx) (off lim : Nat) (w : World)
    (pkts kept dropped : List PktId) : Prop where
  once : (kept ++ dropped).Perm pkts
  kept : ∀ x ∈ kept, ∃ i, Passes acl saCtx off lim w i x
  dropped : ∀ x ∈ dropped, ∃ i, ¬ Passes acl saCtx off lim w i x

theorem inboundSpSa_swept (acl : SpCtx) (saCtx : SaCtx) (off lim : Nat)
    (pkts : List PktId) (stats : SpdStats) (w : World) :
    ∃ dropped, (inboundSpSa (some acl) saCtx off lim pkts stats w).2.2 = w.freePkts dropped
      ∧ Swept acl saCtx off lim w pkts
        (inboundSpSa (some acl) saCtx off lim pkts stats w).1 dropped := by
  obtain ⟨kept, dropped, stats', heq, h⟩ :=
    keptFrom_inbound acl saCtx off lim w 0 pkts (stats, [])
  rw [inboundSpSa, Sweep.sweep_eq, heq]
  refine ⟨dropped, rfl, h.once, ?_, ?_⟩
  · intro x hx
    obtain ⟨j, -, hpass⟩ := h.kept x hx
    exact ⟨0 + j, hpass⟩
  · intro x hx
    obtain ⟨j, -, hfail⟩ := h.dropped x hx
    exact ⟨0 + j, hfail⟩

/-- **BOTH POLICIES**. -/
theorem inboundPolicies_swept (acl4 acl6 : SpCtx) (saCtx : SaCtx) (n4 n6 : Nat)
    (trf : Traffic) (stats : DirStats) (w : World) :
    let r := inboundPolicies ⟨some acl4, some acl6, saCtx⟩ n4 n6 trf stats w
    ∃ d4 d6, r.2.2 = (w.freePkts d4).freePkts d6
      ∧ Swept acl4 saCtx ip4Proto n4 w trf.ip4 r.1.ip4 d4
      ∧ Swept acl6 saCtx ip6Proto n6 w trf.ip6 r.1.ip6 d6 := by
  obtain ⟨d4, hw4, h4⟩ := inboundSpSa_swept acl4 saCtx ip4Proto n4 trf.ip4 stats.spd4 w
  obtain ⟨d6, hw6, h6⟩ := inboundSpSa_swept acl6 saCtx ip6Proto n6 trf.ip6 stats.spd6
    (w.freePkts d4)
  rw [inboundPolicies]
  dsimp only
  rw [hw4]
  exact ⟨d4, d6, hw6, h4, h6.once, h6.kept, h6.dropped⟩

/-! ## A burst -/

/-- **WITHHELD**: a packet `m`, with number `x`, goes on only behind a crypto
    session of its SA; in the clear it is among the packets `l` that were freed. -/
structure Withheld (conf : PollConf) (m : Mbuf) (x : PktId)
    (r : Traffic × DirStats × State) (log : List (PktId × SaRef × ActionType))
    (l : List PktId) : Prop where
  decrypted : x ∈ r.1.ip4 ++ r.1.ip6 → Decrypted log r.2.2.2 x
  freed : classOf conf m = some .ip4 ∨ classOf conf m = some .ip6 → x ∈ l

/-- A packet in the clear is withheld when its policy stops it. -/
theorem plain_withheld {W D : Prop} {kept dropped routed l : List PktId} {x : PktId}
    (hone : x ∈ kept ++ dropped) (hkept : x ∈ kept → W) (hdropped : x ∈ dropped → ¬ W)
    (hrouted : x ∈ routed ↔ x ∈ kept) (hfreed : x ∈ dropped → x ∈ l) (hD : ¬ D) :
    (x ∈ routed → D) ∧ x ∈ l ↔ ¬ W := by
  constructor
  · rintro ⟨hgo, -⟩ hW
    rcases List.mem_append.mp hone with hx | hx
    · exact hD (hgo (hrouted.mpr hx))
    · exact hdropped hx hW
  · intro hW
    refine ⟨fun hx => absurd (hkept (hrouted.mp hx)) hW, ?_⟩
    exact hfreed ((List.mem_append.mp hone).resolve_left fun hx => hW (hkept hx))

/-- What `process_pkts_inbound` has made of the burst `p`: the crypto gives back `o4`
    and `o6`, the policies drop `d4` and `d6`, and `l` are all packets freed. -/
structure BurstRun (acl4 acl6 : SpCtx) (saCtx : SaCtx) (s : State) (p : Burst × World)
    (r : Traffic × DirStats × State) (log : List (PktId × SaRef × ActionType))
    (l o4 o6 d4 d6 : List PktId) : Prop where
  sas : SasKept s.2.sa r.2.2.2.sa
  clear : ∀ x ∈ p.1.trf.ip4 ++ p.1.trf.ip6, r.2.2.2.mbuf x = p.2.mbuf x
  apart : ∀ x ∈ p.1.trf.ip4 ++ p.1.trf.ip6, x ∉ o4 ++ o6 ∧ ¬ Decrypted log r.2.2.2 x
  crypto : ∀ x ∈ o4 ++ o6, offloadFailed (s.2.mbuf x) = true → Decrypted log r.2.2.2 x
  swept4 : Swept acl4 saCtx ip4Proto p.1.trf.ip4.length r.2.2.2 (p.1.trf.ip4 ++ o4)
    r.1.ip4 d4
  swept6 : Swept acl6 saCtx ip6Proto p.1.trf.ip6.length r.2.2.2 (p.1.trf.ip6 ++ o6)
    r.1.ip6 d6
  freed : ∀ x ∈ d4 ++ d6, x ∈ l

theorem processPktsInbound_run (acl4 acl6 : SpCtx) (saCtx : SaCtx)
    (hlaws : conf.enable = true → Lawful env lib) (sad : PktId → Option SaPtr)
    {pkts : List PktId} {s : State} (hsound : Sound env conf lib s) (hnic : FromNic s pkts)
    {p : Burst × World} (hprepared : Prepared s.2 pkts p) (stats : DirStats) :
    Ends (processPktsInbound env conf ⟨some acl4, some acl6, saCtx⟩ sad p.1 stats (s.1, p.2))
      (fun _ => True) (fun r => ∃ log l o4 o6 d4 d6,
        r.2.2.2.processed = p.2.processed ++ log ∧ r.2.2.2.freed = p.2.freed ++ l
          ∧ BurstRun acl4 acl6 saCtx s p r log l o4 o6 d4 d6) := by
  have harr := hprepared.arrives hnic
  have hstart := hprepared.sound hnic hsound
  have hparts := List.nodup_append.mp harr.nodup
  rw [processPktsInbound]
  refine ((inboundCrypto_accounted hlaws sad hstart harr).mono (fun _ _ => trivial)
    fun _ h => h).bind ?_
  rintro ⟨trf, s1⟩ ⟨burst, out, o4, o6, left, s2, ha⟩
  obtain ⟨pre, hdone⟩ := ha.burstDone hstart harr
  obtain ⟨log, hlog, honly, hall⟩ := ha.credited
  have h4 : trf.ip4 = p.1.trf.ip4 ++ o4 := hdone.done.ip4
  have h6 : trf.ip6 = p.1.trf.ip6 ++ o6 := hdone.done.ip6
  obtain ⟨d4, d6, hw, hs4, hs6⟩ := inboundPolicies_swept acl4 acl6 saCtx
    p.1.trf.ip4.length p.1.trf.ip6.length trf stats s1.2
  dsimp only
  generalize inboundPolicies ⟨some acl4, some acl6, saCtx⟩ p.1.trf.ip4.length
    p.1.trf.ip6.length trf stats s1.2 = r at hw hs4 hs6
  rw [h4] at hs4
  rw [h6] at hs6
  have hmbuf : r.2.2.mbuf = s1.2.mbuf := by rw [hw]; rfl
  have hsa : r.2.2.sa = s1.2.sa := by rw [hw]; rfl
  refine ends_pure ⟨log, pre ++ (d4 ++ d6), o4, o6, d4, d6, ?_, ?_, ⟨?_, ?_, ?_, ?_, ?_, ?_,
    fun x hx => List.mem_append_right _ hx⟩⟩
  · show r.2.2.processed = _
    rw [hw]
    exact (show s1.2.processed = s2.2.processed from ha.log).trans hlog
  · show r.2.2.freed = _
    rw [hw]
    show s1.2.freed ++ d4 ++ d6 = _
    rw [show s1.2.freed = p.2.freed ++ pre from hdone.done.freed]
    simp only [List.append_assoc]
  · show SasKept s.2.sa r.2.2.sa
    rw [hsa, show s1.2.sa = s2.2.sa from ha.sa, ← hprepared.sa]
    exact ha.handled.sas
  · intro x hx
    exact (congrFun hmbuf x).trans (hdone.clear x hx)
  · intro x hx
    refine ⟨fun ho => hparts.2.2 x (hdone.mine x ho) x hx rfl, ?_⟩
    rintro ⟨q, fb, type, -, hin, -⟩
    -- only ESP packets have been through a session
    have hesp := honly _ hin
    rw [ha.mine] at hesp
    exact hparts.2.2 x hesp x hx rfl
  · intro x hx hfailed
    obtain ⟨q, fb, fb', type, -, hin, htag⟩ :=
      hall x (ha.perm.mem_iff.mp (List.mem_append_left _ hx))
    refine ⟨q, fb', type, ?_, hin, (htag trivial).2 rfl ?_⟩
    · show (r.2.2.mbuf x).priv.sa = some q
      rw [hmbuf, show s1.2.mbuf = s2.2.mbuf from ha.mbuf]
      exact (htag trivial).1
    · rw [offloadFailed, hprepared.flags x]
      exact hfailed
  · dsimp only
    rw [hw]
    exact ⟨hs4.once, hs4.kept, hs4.dropped⟩
  · dsimp only
    rw [hw]
    exact ⟨hs6.once, hs6.kept, hs6.dropped⟩

variable {acl4 acl6 : SpCtx} {saCtx : SaCtx} {s : State} {p : Burst × World}
  {r : Traffic × DirStats × State} {log : List (PktId × SaRef × ActionType)}
  {l o4 o6 d4 d6 : List PktId}

/-- What is left of a family. -/
theorem BurstRun.kept4 (h : BurstRun acl4 acl6 saCtx s p r log l o4 o6 d4 d6) {x : PktId}
    (hx : x ∈ r.1.ip4) : x ∈ p.1.trf.ip4 ∨ x ∈ o4 :=
  List.mem_append.mp (h.swept4.once.mem_iff.mp (List.mem_append_left _ hx))

theorem BurstRun.kept6 (h : BurstRun acl4 acl6 saCtx s p r log l o4 o6 d4 d6) {x : PktId}
    (hx : x ∈ r.1.ip6) : x ∈ p.1.trf.ip6 ∨ x ∈ o6 :=
  List.mem_append.mp (h.swept6.once.mem_iff.mp (List.mem_append_left _ hx))

/-- **IN THE CLEAR**: the policy of the family decides, whatever the index. -/
theorem BurstRun.plain (h : BurstRun acl4 acl6 saCtx s p r log l o4 o6 d4 d6) {x : PktId}
    {cls : PktClass} (hcls : prepareOnePacket conf (s.2.mbuf x) = some (cls, p.2.mbuf x))
    (hfreed : cls ≠ .freed) (hfailed : offloadFailed (s.2.mbuf x) = true)
    (hin : x ∈ p.1.trf.ip4 ++ p.1.trf.ip6) {acl : SpCtx} {off n : Nat}
    {clear kept dropped : List PktId} (hswept : Swept acl saCtx off n r.2.2.2 clear kept dropped)
    (hclear : x ∈ clear) (hrouted : x ∈ r.1.ip4 ++ r.1.ip6 ↔ x ∈ kept)
    (hl : x ∈ dropped → x ∈ l) :
    (x ∈ r.1.ip4 ++ r.1.ip6 → Decrypted log r.2.2.2 x) ∧ x ∈ l
      ↔ ¬ Waved conf saCtx s.2.sa acl off (s.2.mbuf x) := by
  have hpasses : ∀ i, Passes acl saCtx off n r.2.2.2 i x
      ↔ Waved conf saCtx s.2.sa acl off (s.2.mbuf x) := by
    intro i
    refine passes_iff_waved h.sas ?_ hfreed hfailed
    rw [h.clear x hin]
    exact hcls
  refine plain_withheld (hswept.once.mem_iff.mpr hclear) ?_ ?_ hrouted hl (h.apart x hin).2
  · intro hk
    obtain ⟨i, hi⟩ := hswept.kept x hk
    exact (hpasses i).mp hi
  · intro hd
    obtain ⟨i, hi⟩ := hswept.dropped x hd
    exact fun hW => hi ((hpasses i).mpr hW)

/-- **ESP**: of the packets that are not in the clear only the crypto gives any back. -/
theorem BurstRun.esp (h : BurstRun acl4 acl6 saCtx s p r log l o4 o6 d4 d6)
    {pkts : List PktId} (hsorted : Sorted conf s.2 pkts p) {x : PktId}
    (hfailed : offloadFailed (s.2.mbuf x) = true)
    (h4 : classOf conf (s.2.mbuf x) ≠ some .ip4)
    (h6 : classOf conf (s.2.mbuf x) ≠ some .ip6) :
    Withheld conf (s.2.mbuf x) x r log l := by
  refine ⟨fun hk => h.crypto x ?_ hfailed, fun hclass => ?_⟩
  · have hnot4 : x ∉ p.1.trf.ip4 := fun hin => h4 ((hsorted.ip4 x).mp hin).2
    have hnot6 : x ∉ p.1.trf.ip6 := fun hin => h6 ((hsorted.ip6 x).mp hin).2
    rcases List.mem_append.mp hk with hk | hk
    · exact List.mem_append_left _ ((h.kept4 hk).resolve_left hnot4)
    · exact List.mem_append_right _ ((h.kept6 hk).resolve_left hnot6)
  · exact absurd hclass (not_or.mpr ⟨h4, h6⟩)

theorem plainWaved_ip4 {sas : SaPtr → IpsecSa} {m : Mbuf}
    (hclass : classOf conf m = some .ip4) :
    PlainWaved conf acl4 acl6 saCtx sas m ↔ Waved conf saCtx sas acl4 ip4Proto m := by
  rw [PlainWaved, hclass, and_iff_right rfl, or_iff_left]
  exact fun h => absurd h.1 (by decide)

theorem plainWaved_ip6 {sas : SaPtr → IpsecSa} {m : Mbuf}
    (hclass : classOf conf m = some .ip6) :
    PlainWaved conf acl4 acl6 saCtx sas m ↔ Waved conf saCtx sas acl6 ip6Proto m := by
  rw [PlainWaved, hclass, and_iff_right rfl, or_iff_right]
  exact fun h => absurd h.1 (by decide)

/-- In the clear it is withheld when it is freed and not kept. -/
theorem withheld_iff_plain {m : Mbuf} {x : PktId}
    (hclass : classOf conf m = some .ip4 ∨ classOf conf m = some .ip6) :
    Withheld conf m x r log l
      ↔ (x ∈ r.1.ip4 ++ r.1.ip6 → Decrypted log r.2.2.2 x) ∧ x ∈ l := by
  constructor
  · exact fun h => ⟨h.decrypted, h.freed hclass⟩
  · exact fun h => ⟨h.1, fun _ => h.2⟩

/-- **EACH FAILED PACKET** of a burst is withheld unless it is in the clear and its
    policy lets it pass. -/
theorem BurstRun.withheld_iff (h : BurstRun acl4 acl6 saCtx s p r log l o4 o6 d4 d6)
    {pkts : List PktId} (hsorted : Sorted conf s.2 pkts p) {x : PktId} (hx : x ∈ pkts)
    {cls : PktClass} (hcls : prepareOnePacket conf (s.2.mbuf x) = some (cls, p.2.mbuf x))
    (hfailed : offloadFailed (s.2.mbuf x) = true) :
    Withheld conf (s.2.mbuf x) x r log l
      ↔ ¬ PlainWaved conf acl4 acl6 saCtx s.2.sa (s.2.mbuf x) := by
  have hclass : classOf conf (s.2.mbuf x) = some cls := congrArg (Option.map Prod.fst) hcls
  have hin4 : x ∈ p.1.trf.ip4 ↔ cls = .ip4 := by
    rw [hsorted.ip4 x, hclass, and_iff_right hx, Option.some.injEq]
  have hin6 : x ∈ p.1.trf.ip6 ↔ cls = .ip6 := by
    rw [hsorted.ip6 x, hclass, and_iff_right hx, Option.some.injEq]
  -- by the list the packet is in: the two families are alike
  by_cases h4 : cls = .ip4
  · subst h4
    have hin : x ∈ p.1.trf.ip4 := hin4.mpr rfl
    have hfam : x ∈ p.1.trf.ip4 ++ p.1.trf.ip6 := List.mem_append_left _ hin
    have hnot6 : x ∉ r.1.ip6 := by
      intro hk
      rcases h.kept6 hk with hk | hk
      · cases hin6.mp hk
      · exact (h.apart x hfam).1 (List.mem_append_right _ hk)
    rw [plainWaved_ip4 hclass, withheld_iff_plain (.inl hclass)]
    exact h.plain hcls (by decide) hfailed hfam h.swept4 (List.mem_append_left _ hin)
      (List.mem_append.trans (or_iff_left hnot6))
      fun hd => h.freed x (List.mem_append_left _ hd)
  by_cases h6 : cls = .ip6
  · subst h6
    have hin : x ∈ p.1.trf.ip6 := hin6.mpr rfl
    have hfam : x ∈ p.1.trf.ip4 ++ p.1.trf.ip6 := List.mem_append_right _ hin
    have hnot4 : x ∉ r.1.ip4 := by
      intro hk
      rcases h.kept4 hk with hk | hk
      · cases hin4.mp hk
      · exact (h.apart x hfam).1 (List.mem_append_left _ hk)
    rw [plainWaved_ip6 hclass, withheld_iff_plain (.inr hclass)]
    exact h.plain hcls (by decide) hfailed hfam h.swept6 (List.mem_append_left _ hin)
      (List.mem_append.trans (or_iff_right hnot4))
      fun hd => h.freed x (List.mem_append_right _ hd)
  -- neither: it never gets to a policy
  have hne4 : classOf conf (s.2.mbuf x) ≠ some .ip4 := by
    rw [hclass]
    exact fun he => h4 (Option.some.inj he)
  have hne6 : classOf conf (s.2.mbuf x) ≠ some .ip6 := by
    rw [hclass]
    exact fun he => h6 (Option.some.inj he)
  refine iff_of_true (h.esp hsorted hfailed hne4 hne6) ?_
  rintro (⟨he, -⟩ | ⟨he, -⟩)
  · exact hne4 he
  · exact hne6 he

/-! ## Drains and events -/

/-- **A DRAIN**: all that goes on has been through a crypto session. -/
theorem drain_decrypted (acl4 acl6 : SpCtx) (saCtx : SaCtx) (hkeep : KeepsSa env)
    (hlaws : conf.enable = true → Lawful env lib) (stats : DirStats) {s : State}
    (hsound : Sound env conf lib s) :
    Ends (drainInboundCryptoQueues env lib conf ⟨some acl4, some acl6, saCtx⟩ stats s)
      (fun _ => True) (fun r => ∃ log, r.2.2.2.processed = s.2.processed ++ log
        ∧ ∀ x ∈ r.1.ip4 ++ r.1.ip6, Decrypted log r.2.2.2 x) := by
  rw [drainInboundCryptoQueues]
  refine ((drainCrypto_decrypted hkeep hlaws hsound).mono (fun _ _ => trivial)
    fun _ h => h).bind ?_
  rintro ⟨trf, s1⟩ ⟨-, o4, o6, pre, log, htrf, -, hlog, hall, -⟩
  obtain ⟨d4, d6, hw, hs4, hs6⟩ :=
    inboundPolicies_swept acl4 acl6 saCtx 0 0 trf stats s1.2
  dsimp only
  generalize inboundPolicies ⟨some acl4, some acl6, saCtx⟩ 0 0 trf stats s1.2 = r
    at hw hs4 hs6
  obtain rfl : trf = ⟨o4, o6⟩ := htrf
  refine ends_pure ⟨log, ?_, ?_⟩
  · show r.2.2.processed = _
    rw [hw]
    exact hlog
  · intro x hx
    have hin : x ∈ o4 ++ o6 := by
      rcases List.mem_append.mp hx with hx | hx
      · exact List.mem_append_left _ (hs4.once.mem_iff.mp (List.mem_append_left _ hx))
      · exact List.mem_append_right _ (hs6.once.mem_iff.mp (List.mem_append_left _ hx))
    show Decrypted log r.2.2 x
    rw [hw]
    exact hall x hin

/-- **A VECTOR**: a failed packet is freed, and no packet that goes on was one. -/
theorem vector_withheld (g : Globals) (ctx : EvCtx) (rt : RouteTable) (vec : List Mbuf) :
    (∀ m ∈ vec, offloadFailed m = true →
        m ∈ (processIpsecEvInboundVector g ctx rt vec).freed)
      ∧ ∀ x ∈ (processIpsecEvInboundVector g ctx rt vec).mbufs,
        ∃ m ∈ vec, offloadFailed m = false ∧ x.addr = m.addr := by
  constructor
  · intro m hm hfailed
    refine ((inbound_freed_sum g ctx rt) vec).mem_iff.mpr
      (List.mem_flatMap.mpr ⟨m, hm, ?_⟩)
    show m ∈ (processIpsecEvInboundVector g ctx rt [m]).freed
    rw [(inboundVector_other g ctx rt (.inl hfailed)).2]
    exact List.mem_singleton_self m
  · intro x hx
    obtain ⟨m, hm, hxm⟩ := List.mem_flatMap.mp
      (((inbound_mbufs_sum g ctx rt) vec).mem_iff.mp hx)
    have hxm : x ∈ (processIpsecEvInboundVector g ctx rt [m]).mbufs := hxm
    have hgood : offloadFailed m = false := by
      by_contra hfailed
      rw [(inboundVector_other g ctx rt (.inl (eq_true_of_ne_false hfailed))).1] at hxm
      cases hxm
    refine ⟨m, hm, hgood, ?_⟩
    cases VectorModel.inbound_fate g ctx rt m with
    | freed hnone _ =>
        rw [List.map_eq_nil_iff.mp hnone] at hxm
        cases hxm
    | sent hone _ _ =>
        have hmem := List.mem_map_of_mem (f := sentTo) hxm
        rw [hone] at hmem
        exact congrArg Prod.fst (List.mem_singleton.mp hmem)

/-! ## All paths -/

/-- **FAILED PACKETS**: in every state any order of steps leads to, the failed packets
    of every burst are withheld exactly when they are not in the clear with a policy
    that lets them pass; what a drain gives back has been through a crypto session;
    and the event workers withhold all of them. -/
theorem failed_withheld_iff {cdev : CdevConf} {req : Nat} {ps : List LcoreParams}
    {devs : List CryptodevInfo} {init : InitState}
    (hinit : cryptodevsInit cdev req ps devs = some init) (hkeep : KeepsSa env)
    (hlaws : conf.enable = true → Lawful env lib) (acl4 acl6 : SpCtx) (saCtx : SaCtx)
    {w : World} (hw : Untouched w) {s : State}
    (hreach : Relation.ReflTransGen (Step env lib conf ⟨some acl4, some acl6, saCtx⟩)
      (IpsecCtx.ofTables init.tables env.lcoreId .ingress, w) s) :
    (∀ pkts, FromNic s pkts → ∀ p, prepareTraffic conf pkts s.2 = .ok p → ∀ sad stats,
        Ends (processPktsInbound env conf ⟨some acl4, some acl6, saCtx⟩ sad p.1 stats
          (s.1, p.2)) (fun _ => True) (fun r => ∃ log l,
            r.2.2.2.processed = p.2.processed ++ log ∧ r.2.2.2.freed = p.2.freed ++ l
              ∧ ∀ x ∈ pkts, offloadFailed (s.2.mbuf x) = true →
                (Withheld conf (s.2.mbuf x) x r log l
                  ↔ ¬ PlainWaved conf acl4 acl6 saCtx s.2.sa (s.2.mbuf x))))
      ∧ (∀ stats, Ends (drainInboundCryptoQueues env lib conf
          ⟨some acl4, some acl6, saCtx⟩ stats s) (fun _ => True) (fun r => ∃ log,
            r.2.2.2.processed = s.2.processed ++ log
              ∧ ∀ x ∈ r.1.ip4 ++ r.1.ip6, Decrypted log r.2.2.2 x))
      ∧ (∀ g ctx rt m, offloadFailed m = true → processIpsecEvInbound g ctx rt m = none)
      ∧ ∀ g ctx rt vec, (∀ m ∈ vec, offloadFailed m = true →
          m ∈ (processIpsecEvInboundVector g ctx rt vec).freed)
        ∧ ∀ x ∈ (processIpsecEvInboundVector g ctx rt vec).mbufs,
          ∃ m ∈ vec, offloadFailed m = false ∧ x.addr = m.addr := by
  have hsound := (start_sound hinit env hw).reaches hkeep hlaws hreach
  refine ⟨?_, fun stats => drain_decrypted acl4 acl6 saCtx hkeep hlaws stats hsound,
    fun g ctx rt m hfailed => inbound_other g ctx rt (.inl hfailed), vector_withheld⟩
  intro pkts hnic p hprep sad stats
  have hclassified := (UdpEncap.prepareTraffic_classified conf hnic.nodup s.2).of_ok hprep
  have hsorted := (prepareTraffic_sorted conf hnic.nodup s.2).of_ok hprep
  refine (processPktsInbound_run acl4 acl6 saCtx hlaws sad hsound hnic
    ((prepareTraffic_prepared pkts s.2).of_ok hprep) stats).mono (fun _ h => h) ?_
  rintro r ⟨log, l, o4, o6, d4, d6, hlog, hfreed, hrun⟩
  refine ⟨log, l, hlog, hfreed, fun x hx hfailed => ?_⟩
  obtain ⟨cls, hcls⟩ := hclassified.each x hx
  exact hrun.withheld_iff hsorted hx hcls hfailed

/-- A TCP packet in a world whose NIC has failed it. -/
def failedWorld : World :=
  { CryptoQueue.blankWorld with
    mbuf := fun _ =>
      { IpHeader.ipv4Tcp 40 with olFlags := rxSecOffload ||| rxSecOffloadFailed } }

/-- Policies that let every packet pass. -/
def bypassAll : EvCtx := ⟨some fun _ _ => bypass, some fun _ _ => bypass, ⟨0, 1⟩⟩

theorem failedWorld_untouched : Untouched failedWorld :=
  ⟨fun _ => rfl, fun _ _ => rfl⟩

/-- **FORWARDED**: the packet has been through no session, and goes to routing. -/
theorem failed_bypassed :
    let conf := PacketCount.libraryConf.poll
    let ctx := IpsecCtx.ofTables Cdev.twoTables.tables 1 .ingress
    offloadFailed (failedWorld.mbuf 0) = true ∧ FromNic (ctx, failedWorld) [0]
      ∧ ∃ p r, prepareTraffic conf [0] failedWorld = .ok p
        ∧ processPktsInbound sortingEnv conf bypassAll (fun _ => none) p.1 {} (ctx, p.2)
          = .ok r
        ∧ r.1.ip4 = [0] ∧ r.2.2.2.processed = [] ∧ r.2.2.2.freed = [] := by
  intro conf ctx
  refine ⟨by decide, ⟨List.nodup_singleton 0, by decide, ?_⟩, ?_⟩
  · rintro x - ⟨i, hx⟩
    cases hx with
    | inl hx => cases hx
    | inr hx => cases hx
  · have hclass : (prepareOnePacket conf (failedWorld.mbuf 0)).map Prod.fst = some .ip4 := by
      decide +kernel
    obtain ⟨⟨cls, m⟩, hm, hcls⟩ := Option.map_eq_some_iff.mp hclass
    obtain rfl : cls = .ip4 := hcls
    refine ⟨({ trf := { ip4 := [0] } }, failedWorld.modify 0 fun _ => m), _, ?_, rfl, ?_⟩
    · rw [prepareTraffic, List.foldlM_cons, prepareTrafficOne, hm]
      rfl
    · exact ⟨rfl, rfl, rfl⟩

theorem failed_withheld_iff_flushed :
    let conf := PacketCount.libraryConf.poll
    let acl : SpCtx := fun _ _ => bypass
    let s := drainCryptoBuffers sortingEnv
      (IpsecCtx.ofTables Cdev.twoTables.tables 1 .ingress, failedWorld)
    (∀ pkts, FromNic s pkts → ∀ p, prepareTraffic conf pkts s.2 = .ok p → ∀ sad stats,
        Ends (processPktsInbound sortingEnv conf ⟨some acl, some acl, ⟨0, 1⟩⟩ sad p.1 stats
          (s.1, p.2)) (fun _ => True) (fun r => ∃ log l,
            r.2.2.2.processed = p.2.processed ++ log ∧ r.2.2.2.freed = p.2.freed ++ l
              ∧ ∀ x ∈ pkts, offloadFailed (s.2.mbuf x) = true →
                (Withheld conf (s.2.mbuf x) x r log l
                  ↔ ¬ PlainWaved conf acl acl ⟨0, 1⟩ s.2.sa (s.2.mbuf x))))
      ∧ (∀ stats, Ends (drainInboundCryptoQueues sortingEnv singleGroups conf
          ⟨some acl, some acl, ⟨0, 1⟩⟩ stats s) (fun _ => True) (fun r => ∃ log,
            r.2.2.2.processed = s.2.processed ++ log
              ∧ ∀ x ∈ r.1.ip4 ++ r.1.ip6, Decrypted log r.2.2.2 x))
      ∧ (∀ g ctx rt m, offloadFailed m = true → processIpsecEvInbound g ctx rt m = none)
      ∧ ∀ g ctx rt vec, (∀ m ∈ vec, offloadFailed m = true →
          m ∈ (processIpsecEvInboundVector g ctx rt vec).freed)
        ∧ ∀ x ∈ (processIpsecEvInboundVector g ctx rt vec).mbufs,
          ∃ m ∈ vec, offloadFailed m = false ∧ x.addr = m.addr :=
  failed_withheld_iff Cdev.cryptodevsInit_twoTables sortingEnv_lawful.completeSa
    (fun _ => sortingEnv_lawful) _ _ _ failedWorld_untouched
    (Relation.ReflTransGen.single (.flush rfl))

end FailedPacket
