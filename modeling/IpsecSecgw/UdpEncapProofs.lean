import IpsecSecgw.ClassifyProofs
import IpsecSecgw.CryptoQueueProofs
import IpsecSecgw.EspRegionProofs
import IpsecSecgw.EspRoundTripProofs
import IpsecSecgw.HandlingProofs
import IpsecSecgw.SadProofs

/-! # ESP in UDP on the legacy path

    `prepare_one_packet` marks a packet to or from the NAT traversal port, and
    `sad_lookup` reads its SPI behind the UDP header.  Nothing else on the legacy
    path knows about the UDP header but one test of `ipsec_enqueue`, in the
    branch of one session type.  `encap_iff` says for a marked packet, in its
    turn of a burst, which SAs see the ESP header the SPI was taken from. -/

namespace UdpEncap

open ByteStore SaModel MbufModel SadModel CdevModel Sad Esp EspRegion EspWellFormed
  EspHeader IpsecModel SecgwModel Outcome Handling WorkerModel

/-! ## The way to the SA -/

/-- A security device: where it takes the ESP header of a packet whose IP headers
    end at `u`, without and with the session option `udp_encap`. -/
structure EspDevice where
  espAt : Mbuf → Nat → Bool → Nat
  encap : ∀ m u, espAt m u true = u + 8

/-- The `case IPPROTO_UDP` of `prepare_one_packet` is taken up to its `break`, with
    the UDP header `u` bytes behind the start of the IP packet. -/
def Marks (conf : PollConf) (m : Mbuf) (u : Nat) : Prop :=
  ∃ a m1, rtePktmbufAdj m rteEtherHdrLen = some (a, m1) ∧ conf.udpEncap = true
    ∧ (etherType m = etherTypeIpv4
        ∧ (let m2 := adjustIpv4Pktlen m1 m1.dataOff
          m2.buf (m1.dataOff + 9) = ipprotoUdp ∧ u = ipHl m2.buf m1.dataOff * 4
            ∧ isNatT m2 (m1.dataOff + u) = true)
      ∨ etherType m = etherTypeIpv6
        ∧ (let m2 := adjustIpv6Pktlen m1 m1.dataOff
          ipv6L3 conf m2 = (some ipprotoUdp, u) ∧ u ≤ m2.dataLen
            ∧ isNatT m2 (m1.dataOff + u) = true))

/-- What `inbound_sa_lookup` finds in the SAs of a socket, the cache of the lcore
    and its own stack. -/
structure SaLookup (lib : SadLib) where
  saCtx : Option (IpsecSad lib)
  cache : SadCache
  stack4 : Nat → Option SaPtr
  stack6 : Nat → Option SaPtr
  saArr : Nat → Option SaPtr

/-- `ipsec.pkts` as an array. -/
def pktArray (w : World) (pkts : List PktId) (i : Nat) : Mbuf := w.mbuf (pkts.getD i 0)

/-- `inbound_sa_lookup` on `ipsec.pkts`. -/
def SaLookup.run {lib : SadLib} (l : SaLookup lib) (w : World) (pkts : List PktId) :
    Option (SadCache × (Nat → Option SaRef)) :=
  SadModel.inboundSaLookup lib w.sa l.saCtx l.cache l.stack4 l.stack6 (pktArray w pkts)
    pkts.length l.saArr

/-- The packets with the SAs found for them, as `ipsec_enqueue` takes them. -/
def withSas (pkts : List PktId) (sas : Nat → Option SaRef) :
    List (PktId × Option SaRef) :=
  pkts.zipIdx.map fun x => (x.1, sas x.2)

/-- **A TURN**: a burst has been classified and looked up; in `s` it is the turn of
    the marked packet `x`, for which `sad_lookup` has found the SA `p` by the SPI
    behind the UDP header at `u`. -/
structure Turn (conf : PollConf) (env : Env) {lib : SadLib} (l : SaLookup lib)
    (frames : List PktId) (w : World) (s : State) (x : PktId) (p : SaPtr) (u : Nat) :
    Prop where
  nodup : frames.Nodup
  tables : ∀ q, (w.sa q).FromTables
  marked : Marks conf (w.mbuf x) u
  reached : ∃ t w' cache sas before after fb ctx,
    prepareTraffic conf frames w = .ok (t, w')
      ∧ l.run w' t.ipsec = some (cache, sas)
      ∧ withSas t.ipsec sas = before ++ (x, some (p, fb)) :: after
      ∧ ipsecEnqueue env espInboundFn before (ctx, w') = .ok s
      ∧ (w'.mbuf x).l3Len + udpAt (pktArray w' t.ipsec) before.length = u + 8

/-! ## What the claim asks for -/

/-- The operation of a packet is about an ESP header at `l`: deciphered is what
    lies behind header and IV, authenticated what begins with the header. -/
def OpAt (m : Mbuf) (sa : IpsecSa) (l : Nat) : Prop :=
  (sa.aeadAlgo = .aesGcm →
      m.priv.cop.sym.aead.offset = l + 8 + sa.ivLen.toNat
        ∧ load m.priv.buf 16 8 = load m.buf (m.dataOff + l) 8)
    ∧ (sa.aeadAlgo ≠ .aesGcm →
      m.priv.cop.sym.cipher.offset = l + 8 + sa.ivLen.toNat
        ∧ m.priv.cop.sym.auth.offset = l)

/-- An ESP header at `l` is processed: by `esp_inbound`, or by the device the
    operation goes to, whose session has the option of the SA.  Inline devices
    have seen the packet before. -/
inductive EspRead (dev : EspDevice) (u : Nat) (w : World) (x : PktId) (p : SaPtr) :
    Nat → Prop where
  | software {l : Nat} : (w.sa p).primary.type = .none →
      OpAt (w.mbuf x) (w.sa p) l → EspRead dev u w x p l
  | device : (w.sa p).primary.type = .lookasideProtocol →
      EspRead dev u w x p (dev.espAt (w.mbuf x) u ((w.sa p).udpEncap &&& 1 == 1))

/-- `ipsec_enqueue` frees the packet, or the SA is set up for UDP encapsulation and
    the ESP header that is processed is the one behind the UDP header. -/
def Safe (dev : EspDevice) (env : Env) (s : State) (x : PktId) (p : SaPtr) (u : Nat) :
    Prop :=
  ∃ dest w, prepareOp env espInboundFn s.1 x p s.2 = .ok (dest, w)
    ∧ (dest = .freed
      ∨ (s.2.sa p).udpEncap = 1 ∧ ∀ l, EspRead dev u w x p l → l = u + 8)

/-- The SA has no session, and none can be created: no queue for its algorithms,
    or no session object for a security session. -/
def NoSession (env : Env) (s : State) (p : SaPtr) : Prop :=
  (s.2.sa p).primary.ses = none
    ∧ (s.1.cdevMap (sessionKey env (s.2.sa p)) = none
      ∨ (s.2.sa p).primary.type = .lookasideProtocol ∧ env.newSession s.2.tick = false)

/-- When the code does what it should. -/
def Kept (env : Env) (s : State) (x : PktId) (p : SaPtr) : Prop :=
  match (s.2.sa p).primary.type with
  | .cpuCrypto => True
  | .lookasideProtocol =>
      espInUdp (s.2.mbuf x) = true ∨ (s.2.sa p).udpEncap = 1 ∨ NoSession env s p
  | .inlineProtocol | .inlineCrypto => (s.2.sa p).udpEncap = 1
  | .none => NoSession env s p ∨ ¬ Acceptable (s.2.mbuf x) (s.2.sa p)

/-! ## What enqueueing leaves of the SAs -/

/-- Everything of an SA but its session object and its queue. -/
def settings (sa : IpsecSa) : IpsecSa :=
  { sa with primary := { sa.primary with ses := none }, cdevIdQp := 0 }

def SettingsKept (w w' : World) : Prop := ∀ p, settings (w'.sa p) = settings (w.sa p)

theorem SettingsKept.refl (w : World) : SettingsKept w w := fun _ => rfl

theorem SettingsKept.trans {w w' w'' : World} (h : SettingsKept w w')
    (h' : SettingsKept w' w'') : SettingsKept w w'' := fun p => (h' p).trans (h p)

theorem SettingsKept.of_eq {w w' : World} (h : w'.sa = w.sa) : SettingsKept w w' :=
  fun p => congrArg (fun sa => settings (sa p)) h

theorem SettingsKept.tables {w w' : World} (h : SettingsKept w w')
    (ht : ∀ p, (w.sa p).FromTables) (p : SaPtr) : (w'.sa p).FromTables := by
  have hp : (settings (w'.sa p)).FromTables := by
    rw [h p]
    exact ht p
  exact hp

/-- Two SAs with the same settings. -/
theorem settings_same {sa sa' : IpsecSa} (h : settings sa = settings sa') :
    sa.udpEncap = sa'.udpEncap ∧ sa.primary.type = sa'.primary.type := by
  have henc : (settings sa).udpEncap = (settings sa').udpEncap := by rw [h]
  have htype : (settings sa).primary.type = (settings sa').primary.type := by rw [h]
  exact ⟨henc, htype⟩

theorem modifySa_settings {w : World} {p : SaPtr} {f : IpsecSa → IpsecSa}
    (hf : settings (f (w.sa p)) = settings (w.sa p)) : SettingsKept w (w.modifySa p f) := by
  intro q
  show settings (Function.update w.sa p (f (w.sa p)) q) = _
  by_cases hq : q = p
  · rw [hq, Function.update_self, hf]
  · rw [Function.update_of_ne hq]

theorem attachObject_settings (env : Env) (p : SaPtr) (dev : Nat) (w : World) :
    SettingsKept w (attachObject env p false dev w) := by
  rw [attachObject]
  dsimp only
  have hset : ∀ ses, SettingsKept w (w.next.modifySa p fun sa =>
      setSession sa false { session (w.sa p) false with ses := ses }) :=
    fun _ => modifySa_settings (w := w.next) rfl
  split
  · exact fun q => hset (some w.nextSes) q
  · exact hset none

/-- The object is there exactly when the pool has had one. -/
theorem attachObject_ses (env : Env) (p : SaPtr) (dev : Nat) (w : World) :
    ((attachObject env p false dev w).sa p).primary.ses = none
      ↔ env.newSession w.tick = false := by
  rw [attachObject]
  dsimp only
  cases hnew : env.newSession w.tick with
  | true =>
      rw [if_pos rfl]
      show (Function.update w.sa p _ p).primary.ses = none ↔ _
      rw [Function.update_self]
      exact ⟨(by intro h; cases h), (by intro h; cases h)⟩
  | false =>
      rw [if_neg (by decide)]
      show (Function.update w.sa p _ p).primary.ses = none ↔ _
      rw [Function.update_self]
      exact ⟨fun _ => rfl, fun _ => rfl⟩

/-- **OPENING A SESSION** on the legacy path: it fails exactly when there is no
    session; packets and settings are as before. -/
theorem openSession_spec (env : Env) (s : State) (p : SaPtr)
    (htype : (s.2.sa p).primary.type = .none
      ∨ (s.2.sa p).primary.type = .lookasideProtocol) :
    ((openSession env s.1 p false s.2).1 = false ↔ NoSession env s p)
      ∧ SettingsKept s.2 (openSession env s.1 p false s.2).2
      ∧ (openSession env s.1 p false s.2).2.mbuf = s.2.mbuf := by
  rw [openSession, NoSession]
  split
  swap
  · rename_i hses
    exact ⟨⟨(by intro h; cases h), fun h => absurd h.1 hses⟩, SettingsKept.refl _, rfl⟩
  rename_i hses
  have hses' : (s.2.sa p).primary.ses = none := hses
  rw [createLookasideSession]
  cases hmap : s.1.cdevMap (sessionKey env (s.2.sa p)) with
  | none => exact ⟨⟨fun _ => ⟨hses', .inl rfl⟩, fun _ => rfl⟩, SettingsKept.refl _, rfl⟩
  | some i =>
      have hset := attachObject_settings env p (s.1.tbl i).id s.2
      have hobject := attachObject_ses env p (s.1.tbl i).id s.2
      have hmbuf : (attachObject env p false (s.1.tbl i).id s.2).mbuf = s.2.mbuf := by
        rw [attachObject]
        dsimp only
        split <;> rfl
      -- the index is no setting
      have hdone : SettingsKept s.2 ((attachObject env p false (s.1.tbl i).id s.2).modifySa p
          fun sa => { sa with cdevIdQp := UInt32.ofNat i }) :=
        hset.trans (modifySa_settings rfl)
      dsimp only
      rcases htype with htype | htype
      · -- without a security session nothing more can fail
        rw [show session (s.2.sa p) false = (s.2.sa p).primary from rfl, htype]
        refine ⟨⟨(by intro h; cases h), ?_⟩, hdone, hmbuf⟩
        rintro ⟨-, h | ⟨h, -⟩⟩
        · cases h
        · cases h
      · rw [show session (s.2.sa p) false = (s.2.sa p).primary from rfl, htype]
        dsimp only
        rw [show session ((attachObject env p false (s.1.tbl i).id s.2).sa p) false
          = ((attachObject env p false (s.1.tbl i).id s.2).sa p).primary from rfl]
        split
        · rename_i hnone
          exact ⟨⟨fun _ => ⟨hses', .inr ⟨rfl, hobject.mp hnone⟩⟩, fun _ => rfl⟩, hset, hmbuf⟩
        · rename_i hsome
          refine ⟨⟨(by intro h; cases h), ?_⟩, hdone, hmbuf⟩
          rintro ⟨-, h | ⟨-, h⟩⟩
          · cases h
          · exact absurd (hobject.mpr h) hsome

/-- `esp_inbound` works on the packet. -/
theorem xform_settings (w : World) (pkt : PktId) (p : SaPtr) :
    w.xform espInboundFn pkt p = .ok ((espInbound (w.mbuf pkt) (w.sa p)).1,
      w.modify pkt fun _ => (espInbound (w.mbuf pkt) (w.sa p)).2) := by
  rw [World.xform, espInboundFn]
  dsimp only
  rw [World.modifySa]
  have hsa : Function.update w.sa p (w.sa p) = w.sa := Function.update_eq_self p w.sa
  rw [show (w.modify pkt fun _ => (espInbound (w.mbuf pkt) (w.sa p)).2).sa = w.sa from rfl,
    hsa]
  rfl

theorem prepareOp_settings (env : Env) (ctx : IpsecCtx) (pkt : PktId) (p : SaPtr)
    (w : World) :
    Ends (prepareOp env espInboundFn ctx pkt p w) (fun _ => True)
      (fun r => SettingsKept w r.2) := by
  rw [prepareOp]
  dsimp only
  have hsa : (w.modify pkt (setPrivSa p)).sa = w.sa := rfl
  have hfresh : ((w.modify pkt (setPrivSa p)).modify pkt fun m =>
      m.setStatus .notProcessed).sa = w.sa := rfl
  generalize (w.modify pkt (setPrivSa p)).modify pkt (fun m =>
    m.setStatus .notProcessed) = fresh at hfresh
  have hopen : (fresh.sa p).primary.type = .none
      ∨ (fresh.sa p).primary.type = .lookasideProtocol →
      SettingsKept w (openSession env ctx p false fresh).2 := fun htype =>
    (SettingsKept.of_eq hfresh).trans (openSession_spec env (ctx, fresh) p htype).2.1
  rw [hsa]
  rw [hfresh] at hopen
  split
  · rename_i htype
    split
    · exact ends_ok (hopen (.inr htype))
    · split
      · exact ends_ok (hopen (.inr htype))
      · exact ends_ok (hopen (.inr htype))
  · exact ends_ok (SettingsKept.of_eq hsa)
  · rename_i htype
    split
    · exact ends_ok (hopen (.inl htype))
    · rw [xform_settings]
      exact ends_pure (hopen (.inl htype))
  · exact ends_ok (SettingsKept.of_eq hsa)
  · rw [xform_settings]
    exact ends_pure (SettingsKept.of_eq hfresh)

/-- **ENQUEUEING** a burst leaves the settings of the SAs. -/
theorem ipsecEnqueue_settings (env : Env) (burst : List (PktId × Option SaRef)) (s : State) :
    Ends (ipsecEnqueue env espInboundFn burst s) (fun _ => True)
      (fun s' => SettingsKept s.2 s'.2) := by
  refine ends_foldlM (P := fun _ (t : State) => SettingsKept s.2 t.2) (SettingsKept.refl _) ?_
  rintro ⟨x, ref⟩ _ s1 h
  rw [ipsecEnqueueOne]
  cases ref with
  | none => exact ends_ok (h.trans (SettingsKept.of_eq rfl))
  | some ref =>
      obtain ⟨p, fb⟩ := ref
      refine (prepareOp_settings env s1.1 x p s1.2).bind ?_
      rintro ⟨dest, w⟩ hw
      dsimp only at hw ⊢
      cases dest with
      | freed => exact ends_pure ((h.trans hw).trans (SettingsKept.of_eq rfl))
      | offload =>
          dsimp only
          rw [IpsecCtx.pushOl]
          split
          · exact ends_error trivial
          · exact ends_ok (h.trans hw)
      | queue =>
          refine (enqueueCop_frame env x _ _).bind ?_
          intro r hr
          exact ends_pure ((h.trans hw).trans (SettingsKept.of_eq hr.sa))

/-! ## What classification leaves of a marked packet -/

/-- `l3_len` and the UDP header of a marked packet: IPv4 options are not in
    `l3_len`, and over IPv6 the packet ends where the UDP header begins. -/
def Located (m : Mbuf) (u : Nat) : Prop :=
  m.l3Len = ipv4HdrLen ∧ u = ipHl m.buf m.dataOff * 4 ∨ m.dataLen ≤ u

theorem classify_mark (conf : PollConf) (m : Mbuf) (proto : Option UInt8) (udp : Nat)
    (plain : PktClass) :
    (classify conf m proto udp plain).2.l3Len = m.l3Len
      ∧ (classify conf m proto udp plain).2.dataLen = m.dataLen := by
  rw [classify]
  split
  · exact ⟨rfl, rfl⟩
  · split
    · exact ⟨rfl, rfl⟩
    · exact ⟨rfl, rfl⟩

/-- The walk ends at a protocol other than ESP only behind the packet. -/
theorem extLoop_end (conf : PollConf) (m : Mbuf) {fuel l l3len : Nat} {proto p : UInt8}
    (hp : p ≠ ipprotoEsp) (hfuel : m.dataLen ≤ l3len + fuel)
    (h : extLoop conf m fuel proto l3len = (some p, l)) : m.dataLen ≤ l := by
  induction fuel generalizing proto l3len with
  | zero =>
      rw [extLoop] at h
      obtain rfl := (Prod.mk.inj h).2
      exact hfuel
  | succ fuel ih =>
      rw [extLoop] at h
      split at h
      · split at h
        · cases (Prod.mk.inj h).1
        · rename_i next extLen hnext
          have hlen := conf.getNextExt_len _ _ _ _ hnext
          dsimp only at hlen
          exact ih (by omega) h
      · rename_i hstop
        obtain ⟨hproto, rfl⟩ := Prod.mk.inj h
        obtain rfl := Option.some.inj hproto
        by_contra hless
        exact hstop ⟨hp, Nat.lt_of_not_le hless⟩

theorem Marks.located {conf : PollConf} {m0 m : Mbuf} {u : Nat} {cls : PktClass}
    (h : Marks conf m0 u) (hprep : prepareOnePacket conf m0 = some (cls, m)) :
    Located m u := by
  obtain ⟨a, m1, hadj, -, hcase⟩ := h
  have hudp : ipprotoUdp ≠ ipprotoEsp := by decide
  rw [prepareOnePacket, hadj] at hprep
  rcases hcase with ⟨htype, hproto, hu, -⟩ | ⟨htype, hwalk, hle, -⟩
  · left
    rw [if_pos htype] at hprep
    -- IPv4: the length of the header is kept in the packet
    have hcls := classify_same conf (adjustIpv4Pktlen m1 m1.dataOff)
      (some ((adjustIpv4Pktlen m1 m1.dataOff).buf (m1.dataOff + 9)))
      (m1.dataOff + ipHl (adjustIpv4Pktlen m1 m1.dataOff).buf m1.dataOff * 4) .ip4
    have hsame := trimTo_same m1 (ofBe (load m1.buf (m1.dataOff + 2) 2))
    obtain ⟨hsave, -, hl3⟩ := saveUserdata_same conf (prepareIpv4 conf m1).2
    have hm : m.buf = (prepareIpv4 conf m1).2.buf ∧ m.dataOff = (prepareIpv4 conf m1).2.dataOff
        ∧ m.l3Len = (prepareIpv4 conf m1).2.l3Len := by
      have hprep := Option.some.inj hprep
      dsimp only at hprep
      split at hprep
      · rw [show m = (prepareIpv4 conf m1).2 from (congrArg Prod.snd hprep).symm]
        exact ⟨rfl, rfl, rfl⟩
      · rw [show m = saveUserdata conf (prepareIpv4 conf m1).2 from
          (congrArg Prod.snd hprep).symm]
        exact ⟨hsave.buf, hsave.dataOff, hl3⟩
    obtain ⟨hbuf, hoff, hfield⟩ := hm
    have hbuf' : (prepareIpv4 conf m1).2.buf = (adjustIpv4Pktlen m1 m1.dataOff).buf :=
      hcls.1.buf
    have hoff' : (prepareIpv4 conf m1).2.dataOff = m1.dataOff :=
      hcls.1.dataOff.trans hsame.dataOff
    refine ⟨hfield.trans rfl, ?_⟩
    rw [hbuf, hoff, hbuf', hoff', hu]
  · right
    have h6 : etherTypeIpv6 ≠ etherTypeIpv4 := by decide
    rw [htype, if_neg h6, if_pos rfl] at hprep
    -- IPv6: the walk stops at UDP only where the packet ends
    have hlong : (adjustIpv6Pktlen m1 m1.dataOff).dataLen ≤ u :=
      extLoop_end conf _ hudp (Nat.le_add_left _ _) hwalk
    have hlen : (prepareIpv6 conf m1).2.dataLen = (adjustIpv6Pktlen m1 m1.dataOff).dataLen := by
      rw [prepareIpv6]
      dsimp only
      split
      · rfl
      · exact (classify_mark conf _ _ _ _).2
    obtain ⟨-, hsave, -⟩ := saveUserdata_same conf (prepareIpv6 conf m1).2
    have hprep := Option.some.inj hprep
    dsimp only at hprep
    split at hprep
    · rw [show m = (prepareIpv6 conf m1).2 from (congrArg Prod.snd hprep).symm, hlen]
      exact hlong
    · rw [show m = saveUserdata conf (prepareIpv6 conf m1).2 from
        (congrArg Prod.snd hprep).symm, hsave, hlen]
      exact hlong

/-- What classification has made of the frames `done`. -/
structure Classified (conf : PollConf) (w : World) (done : List PktId)
    (r : Burst × World) : Prop where
  each : ∀ x ∈ done, ∃ cls, prepareOnePacket conf (w.mbuf x) = some (cls, r.2.mbuf x)
  rest : ∀ x, x ∉ done → r.2.mbuf x = w.mbuf x
  ipsec : r.1.ipsec.Sublist done
  sa : r.2.sa = w.sa

/-- **CLASSIFYING A BURST**: every frame on its own. -/
theorem prepareTraffic_classified (conf : PollConf) {frames : List PktId}
    (hnodup : frames.Nodup) (w : World) :
    Ends (prepareTraffic conf frames w) (fun _ => True) (Classified conf w frames) := by
  rw [prepareTraffic]
  refine (ends_foldlM (P := fun todo r => ∃ done, done ++ todo = frames
    ∧ Classified conf w done r)
    ⟨[], rfl, fun _ hx => absurd hx List.not_mem_nil, fun _ _ => rfl, List.Sublist.refl _,
      rfl⟩ ?_).mono (fun _ h => h) ?_
  · rintro x todo r ⟨done, hdone, h⟩
    have hnew : x ∉ done := by
      rw [← hdone] at hnodup
      exact fun hx => (List.nodup_append.mp hnodup).2.2 x hx x List.mem_cons_self rfl
    rw [prepareTrafficOne]
    split
    · exact ends_error trivial
    rename_i cls m hm
    rw [h.rest x hnew] at hm
    have hstep : Classified conf w (done ++ [x]) (r.1.add x cls, r.2.modify x fun _ => m) := by
      refine ⟨?_, ?_, ?_, h.sa⟩
      · intro y hy
        rcases List.mem_append.mp hy with hy | hy
        · obtain ⟨cls', hcls'⟩ := h.each y hy
          have hyx : y ≠ x := fun hyx => hnew (hyx ▸ hy)
          refine ⟨cls', ?_⟩
          rw [hcls', show (r.2.modify x fun _ => m).mbuf y = r.2.mbuf y from
            Function.update_of_ne hyx _ _]
        · obtain rfl := List.mem_singleton.mp hy
          refine ⟨cls, ?_⟩
          rw [hm, show (r.2.modify y fun _ => m).mbuf y = m from Function.update_self ..]
      · intro y hy
        rw [List.mem_append, not_or] at hy
        have hyx : y ≠ x := fun hyx => hy.2 (List.mem_singleton.mpr hyx)
        exact (Function.update_of_ne hyx _ _).trans (h.rest y hy.1)
      · cases cls with
        | ipsec => exact h.ipsec.append (List.Sublist.refl [x])
        | ip4 | ip6 | freed => exact h.ipsec.trans (List.sublist_append_left done [x])
    refine ends_ok ⟨done ++ [x], by rw [List.append_assoc]; exact hdone, ?_⟩
    split
    · exact ⟨hstep.each, hstep.rest, hstep.ipsec, hstep.sa⟩
    · exact hstep
  · rintro r ⟨done, hdone, h⟩
    rw [List.append_nil] at hdone
    exact hdone ▸ h

/-! ## One turn -/

theorem udpAt_cases (pkts : Nat → Mbuf) (i : Nat) : udpAt pkts i = 8 ∨ udpAt pkts i = 0 := by
  rw [udpAt]
  split
  · exact .inl rfl
  · exact .inr rfl

/-- The header `esp_inbound` begins with is not the one behind the UDP header, in a
    packet it accepts. -/
theorem Located.misses {m : Mbuf} {sa : IpsecSa} {u hdr udp : Nat} (h : Located m u)
    (hudp : udp = 8 ∨ udp = 0) (hspi : m.l3Len + udp = u + 8)
    (hhdr : inboundHdrLen m = some hdr) (hpos : 0 < payloadLen m sa hdr) : hdr ≠ u + 8 := by
  rw [payloadLen] at hpos
  rcases h with ⟨hl3, hu⟩ | hend
  · have hlen : ipv4HdrLen = 20 := rfl
    rw [inboundHdrLen] at hhdr
    split at hhdr
    · obtain rfl := Option.some.inj hhdr
      omega
    · split at hhdr
      · obtain rfl := Option.some.inj hhdr
        omega
      · cases hhdr
  · omega

section turn

variable {dev : EspDevice} {env : Env} {s : State} {x : PktId} {p : SaPtr} {u : Nat}

/-- `prepareOp` has one result. -/
theorem safe_of_eq {dest : Dest} {w : World}
    (h : prepareOp env espInboundFn s.1 x p s.2 = .ok (dest, w)) :
    Safe dev env s x p u ↔ dest = .freed
      ∨ (s.2.sa p).udpEncap = 1 ∧ ∀ l, EspRead dev u w x p l → l = u + 8 := by
  constructor
  · rintro ⟨dest', w', h', hsafe⟩
    obtain ⟨rfl, rfl⟩ := Prod.mk.inj (Except.ok.inj (h.symm.trans h'))
    exact hsafe
  · exact fun hsafe => ⟨dest, w, h, hsafe⟩

theorem safe_of_freed {w : World}
    (h : prepareOp env espInboundFn s.1 x p s.2 = .ok (.freed, w)) :
    Safe dev env s x p u := (safe_of_eq h).mpr (.inl rfl)

/-- No ESP header is processed for an inline session. -/
theorem safe_of_offload {w : World}
    (h : prepareOp env espInboundFn s.1 x p s.2 = .ok (.offload, w))
    (hnone : (w.sa p).primary.type ≠ .none)
    (hlook : (w.sa p).primary.type ≠ .lookasideProtocol) :
    Safe dev env s x p u ↔ (s.2.sa p).udpEncap = 1 := by
  rw [safe_of_eq h]
  constructor
  · rintro (h | ⟨h, -⟩)
    · cases h
    · exact h
  · intro henc
    refine .inr ⟨henc, fun l hread => ?_⟩
    cases hread with
    | software htype => exact absurd htype hnone
    | device htype => exact absurd htype hlook

/-- The packet with the pointer to its SA and a fresh operation. -/
def freshWorld (s : State) (x : PktId) (p : SaPtr) : World :=
  (s.2.modify x (setPrivSa p)).modify x fun m => m.setStatus .notProcessed

theorem freshWorld_mbuf (s : State) (x : PktId) (p : SaPtr) :
    (freshWorld s x p).mbuf x = (setPrivSa p (s.2.mbuf x)).setStatus .notProcessed := by
  rw [freshWorld, World.modify, World.modify]
  dsimp only
  rw [Function.update_self, Function.update_self]

/-- What the session of a lookaside SA leaves to the rest of `prepareOp`. -/
theorem freshWorld_open
    (htype : (s.2.sa p).primary.type = .none
      ∨ (s.2.sa p).primary.type = .lookasideProtocol) :
    let r := openSession env s.1 p false (freshWorld s x p)
    (r.1 = false ↔ NoSession env s p)
      ∧ settings (r.2.sa p) = settings (s.2.sa p)
      ∧ r.2.mbuf x = (setPrivSa p (s.2.mbuf x)).setStatus .notProcessed := by
  obtain ⟨hfail, hset, hmbuf⟩ := openSession_spec env (s.1, freshWorld s x p) p htype
  exact ⟨hfail, hset p, (congrArg (fun f => f x) hmbuf).trans (freshWorld_mbuf s x p)⟩

/-- A device with the option `udp_encap` skips the UDP header. -/
theorem safe_of_queue {w : World}
    (h : prepareOp env espInboundFn s.1 x p s.2 = .ok (.queue, w))
    (htype : (w.sa p).primary.type = .lookasideProtocol)
    (henc : (w.sa p).udpEncap = (s.2.sa p).udpEncap) :
    Safe dev env s x p u ↔ (s.2.sa p).udpEncap = 1 := by
  rw [safe_of_eq h]
  constructor
  · rintro (h | ⟨h, -⟩)
    · cases h
    · exact h
  · intro hone
    refine .inr ⟨hone, fun l hread => ?_⟩
    cases hread with
    | software hnone =>
        rw [htype] at hnone
        cases hnone
    | device _ =>
        rw [henc, hone]
        exact dev.encap _ u

/-- **LOOKASIDE PROTOCOL**: the only branch with a test. -/
theorem safe_lookaside (htype : (s.2.sa p).primary.type = .lookasideProtocol) :
    Safe dev env s x p u ↔ espInUdp (s.2.mbuf x) = true ∨ (s.2.sa p).udpEncap = 1
      ∨ NoSession env s p := by
  obtain ⟨hfail, hset, hmbuf⟩ := @freshWorld_open env s x p (.inr htype)
  have hprep : prepareOp env espInboundFn s.1 x p s.2
      = (let r := openSession env s.1 p false (freshWorld s x p)
        if !r.1 then .ok (.freed, r.2)
        else if espInUdp (r.2.mbuf x) && (r.2.sa p).udpEncap != 1 then .ok (.freed, r.2)
        else .ok (.queue, r.2.modify x (attachSession (r.2.sa p).primary.ses))) := by
    rw [prepareOp]
    dsimp only
    rw [show ((s.2.modify x (setPrivSa p)).sa p).primary.type = .lookasideProtocol from htype]
    rfl
  dsimp only at hprep hfail
  generalize openSession env s.1 p false (freshWorld s x p) = r at hprep hfail hset hmbuf
  obtain ⟨henc, hkind⟩ := settings_same hset
  have hudp : espInUdp (r.2.mbuf x) = espInUdp (s.2.mbuf x) := by
    rw [hmbuf]
    rfl
  by_cases hopen : r.1 = false
  · rw [hopen] at hprep
    exact ⟨fun _ => .inr (.inr (hfail.mp hopen)), fun _ => safe_of_freed hprep⟩
  · have hsession : ¬ NoSession env s p := fun h => hopen (hfail.mpr h)
    rw [Bool.not_eq_false] at hopen
    rw [hopen, if_neg (by decide), hudp, henc] at hprep
    by_cases hguard : (espInUdp (s.2.mbuf x) && (s.2.sa p).udpEncap != 1) = true
    · rw [if_pos hguard] at hprep
      exact ⟨fun _ => .inl (Bool.and_eq_true_iff.mp hguard).1, fun _ => safe_of_freed hprep⟩
    · rw [if_neg hguard] at hprep
      rw [safe_of_queue hprep (hkind.trans htype) henc]
      constructor
      · exact fun hone => .inr (.inl hone)
      · rintro (hmark | hone | h)
        · rw [hmark, Bool.true_and, bne_iff_ne, not_not] at hguard
          exact hguard
        · exact hone
        · exact absurd h hsession

/-- `esp_inbound` works on the header behind the IP header. -/
theorem espInbound_opAt {m : Mbuf} {sa : IpsecSa} (ht : sa.FromTables)
    (htype : sa.primary.type = .none) (h : (espInbound m sa).1 = 0) :
    ∃ hdr, inboundHdrLen m = some hdr ∧ OpAt (espInbound m sa).2 sa hdr := by
  obtain ⟨hdr, hhdr, hregions⟩ := (espInbound_checked ht (.inl htype)).regions h
  obtain ⟨hbuf, hoff, -⟩ := hregions.packet
  have hinline : sa.primary.type ≠ .inlineCrypto := by
    rw [htype]
    decide
  have hop := espInbound_regions hinline hhdr (Prod.ext h rfl :
    espInbound m sa = (0, (espInbound m sa).2))
  refine ⟨hdr, hhdr, ?_, hop.2⟩
  intro hgcm
  rw [hbuf, hoff]
  exact hop.1 hgcm

theorem safe_software {m : Mbuf} {sa : IpsecSa} {w : World} {udp : Nat}
    (h : prepareOp env espInboundFn s.1 x p s.2
      = .ok (if (espInbound m sa).1 = 0 then .queue else .freed, w))
    (hsa : w.sa p = sa) (hm : w.mbuf x = (espInbound m sa).2) (ht : sa.FromTables)
    (htype : sa.primary.type = .none) (hloc : Located m u)
    (hudp : udp = 8 ∨ udp = 0) (hspi : m.l3Len + udp = u + 8) :
    Safe dev env s x p u ↔ ¬ Acceptable m sa := by
  have hcode := (espInbound_checked (m := m) ht (.inl htype)).accepts
  by_cases hret : (espInbound m sa).1 = 0
  · rw [if_pos hret] at h
    rw [safe_of_eq h]
    refine ⟨?_, fun hnot => absurd (hcode.mp hret) hnot⟩
    rintro (hfreed | ⟨-, hread⟩)
    · cases hfreed
    · intro hacc
      obtain ⟨hdr, hhdr, hop⟩ := espInbound_opAt ht htype hret
      obtain ⟨hdr', hhdr', hpos, -⟩ := hacc
      obtain rfl := Option.some.inj (hhdr.symm.trans hhdr')
      have hat : OpAt (w.mbuf x) (w.sa p) hdr := by
        rw [hm, hsa]
        exact hop
      have hkind : (w.sa p).primary.type = .none := by
        rw [hsa]
        exact htype
      exact hloc.misses hudp hspi hhdr hpos (hread hdr (.software hkind hat))
  · rw [if_neg hret] at h
    exact ⟨fun _ hacc => hret (hcode.mpr hacc), fun _ => safe_of_freed h⟩

/-- What `esp_inbound` accepts depends on no session. -/
theorem acceptable_attached (ses : Option SesId) (p : SaPtr) (st : CopStatus) (m : Mbuf)
    {sa sa' : IpsecSa} (h : settings sa' = settings sa) :
    Acceptable (attachSession ses ((setPrivSa p m).setStatus st)) sa' ↔ Acceptable m sa := by
  have hsettings : Acceptable (attachSession ses ((setPrivSa p m).setStatus st)) sa'
      ↔ Acceptable m (settings sa') := Iff.rfl
  rw [hsettings, h]
  exact Iff.rfl

theorem located_attached (ses : Option SesId) (p : SaPtr) (st : CopStatus) {m : Mbuf}
    (h : Located m u) : Located (attachSession ses ((setPrivSa p m).setStatus st)) u := h

/-- **NO OFFLOAD**: a packet that is not freed is read at the wrong place. -/
theorem safe_none (ht : (s.2.sa p).FromTables)
    (htype : (s.2.sa p).primary.type = .none) (hloc : Located (s.2.mbuf x) u) {udp : Nat}
    (hudp : udp = 8 ∨ udp = 0) (hspi : (s.2.mbuf x).l3Len + udp = u + 8) :
    Safe dev env s x p u ↔ NoSession env s p
      ∨ ¬ Acceptable (s.2.mbuf x) (s.2.sa p) := by
  obtain ⟨hfail, hset, hmbuf⟩ := @freshWorld_open env s x p (.inl htype)
  have hprep : prepareOp env espInboundFn s.1 x p s.2
      = (let r := openSession env s.1 p false (freshWorld s x p)
        if !r.1 then .ok (.freed, r.2)
        else (r.2.modify x (attachSession (r.2.sa p).primary.ses)).xform espInboundFn x p
          >>= fun q => pure (if q.1 = 0 then .queue else .freed, q.2)) := by
    rw [prepareOp]
    dsimp only
    rw [show ((s.2.modify x (setPrivSa p)).sa p).primary.type = .none from htype]
    rfl
  dsimp only at hprep hfail
  generalize openSession env s.1 p false (freshWorld s x p) = r at hprep hfail hset hmbuf
  by_cases hopen : r.1 = false
  · rw [hopen] at hprep
    exact ⟨fun _ => .inl (hfail.mp hopen), fun _ => safe_of_freed hprep⟩
  · have hsession : ¬ NoSession env s p := fun h => hopen (hfail.mpr h)
    rw [Bool.not_eq_false] at hopen
    rw [hopen, if_neg (by decide), xform_settings] at hprep
    -- the packet as `esp_inbound` gets it
    have hm : (r.2.modify x (attachSession (r.2.sa p).primary.ses)).mbuf x
        = attachSession (r.2.sa p).primary.ses
          ((setPrivSa p (s.2.mbuf x)).setStatus .notProcessed) := by
      rw [← hmbuf]
      exact Function.update_self ..
    have ht' : (settings (r.2.sa p)).FromTables := by
      rw [hset]
      exact ht
    rw [show (r.2.modify x (attachSession (r.2.sa p).primary.ses)).sa p = r.2.sa p from rfl]
      at hprep
    have hsafe : Safe dev env s x p u ↔ _ := safe_software hprep rfl
      (Function.update_self ..) ht'
      ((settings_same hset).2.trans htype) (hm ▸ located_attached _ p _ hloc) hudp
      (by rw [hm]; exact hspi)
    rw [hsafe, hm, acceptable_attached _ p _ _ hset]
    constructor
    · exact .inr
    · rintro (h | hnot)
      · exact absurd h hsession
      · exact hnot

/-- **ONE TURN**, whatever the session. -/
theorem safe_iff (ht : (s.2.sa p).FromTables) (hloc : Located (s.2.mbuf x) u) {udp : Nat}
    (hudp : udp = 8 ∨ udp = 0) (hspi : (s.2.mbuf x).l3Len + udp = u + 8) :
    Safe dev env s x p u ↔ Kept env s x p := by
  have hsame : (s.2.modify x (setPrivSa p)).sa = s.2.sa := rfl
  rw [Kept]
  cases htype : (s.2.sa p).primary.type with
  | none => exact safe_none ht htype hloc hudp hspi
  | lookasideProtocol => exact safe_lookaside htype
  | cpuCrypto =>
      have hprep : prepareOp env espInboundFn s.1 x p s.2
          = .ok (.freed, s.2.modify x (setPrivSa p)) := by
        rw [prepareOp]
        dsimp only
        rw [hsame, htype]
      exact ⟨fun _ => trivial, fun _ => safe_of_freed hprep⟩
  | inlineProtocol =>
      have hprep : prepareOp env espInboundFn s.1 x p s.2
          = .ok (.offload, s.2.modify x (setPrivSa p)) := by
        rw [prepareOp]
        dsimp only
        rw [hsame, htype]
      refine safe_of_offload hprep ?_ ?_
      · rw [hsame, htype]
        decide
      · rw [hsame, htype]
        decide
  | inlineCrypto =>
      -- `esp_inbound` leaves at once
      have hesp : ∀ m, espInbound m (s.2.sa p) = (0, m) := by
        intro m
        rw [espInbound, if_pos htype]
      obtain ⟨w, hw, hprep⟩ : ∃ w, w.sa = s.2.sa
          ∧ prepareOp env espInboundFn s.1 x p s.2 = .ok (.offload, w) := by
        rw [prepareOp]
        dsimp only
        rw [hsame, htype]
        dsimp only
        rw [xform_settings]
        refine ⟨_, ?_, by
          rw [show (((s.2.modify x (setPrivSa p)).modify x fun m =>
            m.setStatus .notProcessed).modify x _).sa p = s.2.sa p from rfl, hesp]; rfl⟩
        rfl
      refine safe_of_offload hprep ?_ ?_
      · rw [hw, htype]
        decide
      · rw [hw, htype]
        decide

end turn

/-! ## Bursts -/

theorem withSas_fst (pkts : List PktId) (sas : Nat → Option SaRef) :
    (withSas pkts sas).map Prod.fst = pkts := by
  rw [withSas, List.map_map]
  exact List.zipIdx_map_fst 0 pkts

/-- **UDP-ENCAPSULATED ESP**: in every burst, for every marked packet with an SA
    found by the SPI behind its UDP header, `ipsec_enqueue` does what it should
    exactly when the SA's session is one that frees such packets, or has been
    set up for them, or the packet is freed for another reason. -/
theorem encap_iff (dev : EspDevice) {conf : PollConf} {env : Env} {lib : SadLib}
    {l : SaLookup lib} {frames : List PktId} {w : World} {s : State} {x : PktId}
    {p : SaPtr} {u : Nat} (h : Turn conf env l frames w s x p u) :
    Safe dev env s x p u ↔ Kept env s x p := by
  obtain ⟨t, w', cache, sas, before, after, fb, ctx, hprep, -, hburst, hrun, hspi⟩ :=
    h.reached
  have hclass := (prepareTraffic_classified conf h.nodup w).of_ok hprep
  -- the packets of the burst, and those before this one
  have hpkts : t.ipsec = before.map Prod.fst ++ x :: after.map Prod.fst := by
    rw [← withSas_fst t.ipsec sas, hburst, List.map_append, List.map_cons]
  have hmem : x ∈ t.ipsec := by
    rw [hpkts]
    exact List.mem_append_right _ List.mem_cons_self
  have hnodup : (before.map Prod.fst ++ x :: after.map Prod.fst).Nodup :=
    hpkts ▸ h.nodup.sublist hclass.ipsec
  have hfresh : x ∉ before.map Prod.fst := fun hx =>
    (List.nodup_append.mp hnodup).2.2 x hx x List.mem_cons_self rfl
  obtain ⟨o, -, hhandled, -, -⟩ := (ipsecEnqueue_handled (K := True) env .ingress
    (List.nodup_append.mp hnodup).1 (ctx, w')).of_ok hrun
  have hmbuf : s.2.mbuf x = w'.mbuf x := hhandled.mbuf x hfresh
  have hset := (ipsecEnqueue_settings env before (ctx, w')).of_ok hrun
  have ht : (s.2.sa p).FromTables := hset.tables (fun q => by
    rw [hclass.sa]
    exact h.tables q) p
  obtain ⟨cls, hcls⟩ := hclass.each x (hclass.ipsec.subset hmem)
  have hloc := h.marked.located hcls
  rw [← hmbuf] at hloc hspi
  exact safe_iff ht hloc (udpAt_cases _ _) hspi

/-- UDP encapsulation is enabled, `librte_ipsec` is not. -/
def legacyConf : PollConf := { Classify.encapConf with enable := false }

/-- UDP from and to the NAT traversal port, with the SPI 5 behind the UDP header. -/
def natTFrame : Mbuf :=
  Mbuf.mid (store (fun _ => 0) 140
    ([0x08, 0, 0x45, 0, 0, 44, 0, 0, 0, 0, 64, 17] ++ List.replicate 10 0
      ++ [0x11, 0x94, 0x11, 0x94, 0, 24, 0, 0] ++ [0, 0, 0, 5])) 58

/-- The frame with an SA of SPI 5 in the given session type. -/
def natTWorld (type : ActionType) : World where
  mbuf := fun _ => natTFrame
  sa := fun _ => { EspRoundTrip.nullTransport with primary := { type := type } }

/-- The tables know the SPI 5. -/
def natTLookup : SaLookup spiLib where
  saCtx := some ⟨some (oneSa [0, 0, 0, 5] 0), some (oneSa [0, 0, 0, 5] 0)⟩
  cache := {}
  stack4 := fun _ => none
  stack6 := fun _ => none
  saArr := fun _ => none

theorem skip_udp (_ : Mbuf) (u : Nat) : (if true then u + 8 else u) = u + 8 := if_pos rfl

/-- A device that skips the UDP header when it is told to. -/
def skipDevice : EspDevice where
  espAt := fun _ u udpEncap => if udpEncap then u + 8 else u
  encap := skip_udp

/-- A context with one queue for all algorithms. -/
def natTCtx : IpsecCtx where
  cdevMap := fun _ => some 0
  nbQps := 1
  tbl := fun _ => { id := 0, qp := 0 }

/-- The frame behind `prepare_one_packet`. -/
structure NatTPrepared (m : Mbuf) : Prop where
  prepared : prepareOnePacket legacyConf natTFrame = some (.ipsec, m)
  l3Len : m.l3Len = 20
  mark : espInUdp m = true
  spi : espSpi m 8 = [0, 0, 0, 5]
  dataLen : m.dataLen = 44
  hdr : inboundHdrLen m = some 20

theorem natT_prepared : ∃ m, NatTPrepared m := by
  have hview : (prepareOnePacket legacyConf natTFrame).map (fun r =>
      ((r.1, r.2.l3Len, espInUdp r.2), espSpi r.2 8, r.2.dataLen, inboundHdrLen r.2))
      = some ((.ipsec, 20, true), [0, 0, 0, 5], 44, some 20) := by decide +kernel
  obtain ⟨⟨cls, m⟩, hprep, heq⟩ := Option.map_eq_some_iff.mp hview
  simp only [Prod.mk.injEq] at heq
  obtain ⟨⟨rfl, hl3, hmark⟩, hspi, hlen, hhdr⟩ := heq
  exact ⟨m, hprep, hl3, hmark, hspi, hlen, hhdr⟩

theorem natT_marks : Marks legacyConf natTFrame 20 := by
  have hview : (rtePktmbufAdj natTFrame rteEtherHdrLen).map (fun r =>
      ((adjustIpv4Pktlen r.2 r.2.dataOff).buf (r.2.dataOff + 9),
        ipHl (adjustIpv4Pktlen r.2 r.2.dataOff).buf r.2.dataOff * 4,
        isNatT (adjustIpv4Pktlen r.2 r.2.dataOff) (r.2.dataOff + 20)))
      = some (ipprotoUdp, 20, true) := by decide +kernel
  obtain ⟨⟨a, m1⟩, hadj, heq⟩ := Option.map_eq_some_iff.mp hview
  simp only [Prod.mk.injEq] at heq
  obtain ⟨hproto, hudp, hnat⟩ := heq
  exact ⟨a, m1, hadj, rfl, .inl ⟨by decide, hproto, hudp.symm, hnat⟩⟩

theorem natT_fromTables (type : ActionType) (q : SaPtr) :
    ((natTWorld type).sa q).FromTables := EspRoundTrip.nullTransport_legacy.fromTables

theorem natT_turn (type : ActionType) : ∃ m, NatTPrepared m
    ∧ Turn legacyConf (CryptoQueue.laxEnv 1) natTLookup [0] (natTWorld type)
      (natTCtx, (natTWorld type).modify 0 fun _ => m) 0 0 20 := by
  obtain ⟨m, hm⟩ := natT_prepared
  have htraffic : prepareTraffic legacyConf [0] (natTWorld type)
      = .ok ({ ipsec := [0] }, (natTWorld type).modify 0 fun _ => m) := by
    rw [prepareTraffic, List.foldlM_cons, prepareTrafficOne,
      show ((({}, natTWorld type) : Burst × World).2.mbuf 0) = natTFrame from rfl, hm.prepared]
    rfl
  have hself : ((natTWorld type).modify 0 fun _ => m).mbuf 0 = m := by
    show Function.update (natTWorld type).mbuf 0 m 0 = m
    exact Function.update_self ..
  have hpkt : pktArray ((natTWorld type).modify 0 fun _ => m) [0] 0 = m := hself
  have hudp : udpAt (pktArray ((natTWorld type).modify 0 fun _ => m) [0]) 0 = 8 := by
    rw [udpAt, udpSeen_succ, hpkt, hm.mark, Bool.or_true, if_pos rfl]
  -- the SA is found by the SPI behind the UDP header
  have hfound : findSa spiLib (natTWorld type).sa {} (oneSa [0, 0, 0, 5] 0)
      (oneSa [0, 0, 0, 5] 0) m 8 = some 0 := by
    have hmiss : cacheHit (natTWorld type).sa {} m 8 = none := rfl
    rw [findSa, hmiss]
    dsimp only
    rw [ite_self, show spiLib.lookup (oneSa [0, 0, 0, 5] 0) (sadKey m 8) = some 0 from
      if_pos hm.spi, accepted, Option.filter_some, cmpSaKey_transport rfl, if_pos rfl]
  have hburst : withSas [0] (fun i =>
      if i < 1 then markFallback (natTWorld type).sa
        (pktArray ((natTWorld type).modify 0 fun _ => m) [0] i)
        ((sadLookup spiLib (natTWorld type).sa
          ⟨some (oneSa [0, 0, 0, 5] 0), some (oneSa [0, 0, 0, 5] 0)⟩ {} (fun _ => none)
          (fun _ => none) (pktArray ((natTWorld type).modify 0 fun _ => m) [0]) 1
          fun _ => none).2 i)
      else none) = [(0, some (0, false))] := by
    show [((0 : Nat), if 0 < 1 then _ else _)] = _
    rw [if_pos Nat.zero_lt_one, sadLookup_apply _ _ _ _ _ _ Nat.zero_lt_one, hudp, hpkt,
      hfound, markFallback, Option.map_some,
      show decide (0 < ((natTWorld type).sa 0).fallbackSessions) = false from rfl, Bool.and_false]
  refine ⟨m, hm, List.nodup_singleton 0, natT_fromTables type, natT_marks, ?_⟩
  refine ⟨_, _, _, _, [], [], false, natTCtx, htraffic, rfl, hburst, rfl, ?_⟩
  show (((natTWorld type).modify 0 fun _ => m).mbuf 0).l3Len + udpAt _ 0 = _
  rw [hself, hm.l3Len, hudp]

theorem encap_iff_natT : ∃ s,
    Turn legacyConf (CryptoQueue.laxEnv 1) natTLookup [0] (natTWorld .none) s 0 0 20
      ∧ (Safe skipDevice (CryptoQueue.laxEnv 1) s 0 0 20
        ↔ Kept (CryptoQueue.laxEnv 1) s 0 0) := by
  obtain ⟨m, -, hturn⟩ := natT_turn .none
  exact ⟨_, hturn, encap_iff skipDevice hturn⟩

/-- The SA without offload has an operation enqueued that begins at the UDP header;
    with an inline session the packet goes on, though the SA has not been set up
    for UDP encapsulation. -/
theorem natT_unsafe (dev : EspDevice) (type : ActionType) (hcpu : type ≠ .cpuCrypto)
    (hlook : type ≠ .lookasideProtocol) : ∃ s,
    Turn legacyConf (CryptoQueue.laxEnv 1) natTLookup [0] (natTWorld type) s 0 0 20
      ∧ ¬ Safe dev (CryptoQueue.laxEnv 1) s 0 0 20 := by
  obtain ⟨m, hm, hturn⟩ := natT_turn type
  have hself : ((natTWorld type).modify 0 fun _ => m).mbuf 0 = m := by
    show Function.update (natTWorld type).mbuf 0 m 0 = m
    exact Function.update_self ..
  refine ⟨_, hturn, fun hsafe => ?_⟩
  have hloc : Located (((natTWorld type).modify 0 fun _ => m).mbuf 0) 20 := by
    rw [hself]
    exact natT_marks.located hm.prepared
  have hkept := (safe_iff (natT_fromTables type 0) hloc (.inl rfl)
    (by rw [hself, hm.l3Len])).mp hsafe
  cases type with
  | cpuCrypto => exact hcpu rfl
  | lookasideProtocol => exact hlook rfl
  | inlineCrypto =>
      have henc : (0 : UInt8) = 1 := hkept
      cases henc
  | inlineProtocol =>
      have henc : (0 : UInt8) = 1 := hkept
      cases henc
  | none =>
      rcases hkept with ⟨-, h | ⟨h, -⟩⟩ | hnot
      · cases h
      · cases h
      · rw [hself] at hnot
        refine hnot ⟨20, hm.hdr, ?_, ?_, ?_⟩
        · rw [payloadLen, hm.dataLen]
          show (0 : Int) < 16
          decide
        · rw [payloadLen, hm.dataLen]
          show (4 : Int) ∣ 16
          decide
        · exact .inr ⟨(by intro h; cases h), .inr (.inl rfl)⟩

theorem none_reads_udp : ∃ s,
    Turn legacyConf (CryptoQueue.laxEnv 1) natTLookup [0] (natTWorld .none) s 0 0 20
      ∧ ¬ Safe skipDevice (CryptoQueue.laxEnv 1) s 0 0 20 :=
  natT_unsafe skipDevice .none (by decide) (by decide)

end UdpEncap
