import IpsecSecgw.EspHeaderProofs

/-! # Classification

    `prepare_one_packet` by the bytes of the frame.  Its walk over IPv6
    extension headers (`Walk`) always comes to an end, but it asks
    `rte_ipv6_get_next_ext` for the protocol behind the last one too, and the
    error that is the answer replaces it: the `switch` sees UDP only when the
    packet ends there.  IPv4 options are left out of `l3_len`. -/

namespace Classify

open ByteStore SaModel MbufModel WorkerModel SecgwModel EspHeader

variable (conf : PollConf)

/-! ## The IP packet of a frame -/

/-- The IP packet is behind the Ethernet header. -/
def ipAt (m : Mbuf) : Nat := m.dataOff + rteEtherHdrLen

/-- Its length: that of the frame, or what its header says when that is less. -/
def ip4Len (m : Mbuf) : Nat :=
  min (m.dataLen - rteEtherHdrLen) (ofBe (load m.buf (ipAt m + 2) 2))

def ip6Len (m : Mbuf) : Nat :=
  min (m.dataLen - rteEtherHdrLen) (ofBe (load m.buf (ipAt m + 4) 2) + ipv6HdrLen)

theorem trimTo_dataLen (m : Mbuf) (plen : Nat) :
    (trimTo m plen).dataLen = min m.dataLen plen := by
  have hroom := m.window
  have hbuf := m.bufLen_le
  rw [trimTo]
  split
  · rename_i hless
    obtain ⟨w, htrim⟩ := rtePktmbufTrim_eq (show m.dataLen - plen < 0x10000 by omega)
      (Nat.sub_le m.dataLen plen)
    rw [htrim, Option.getD_some]
    dsimp only
    omega
  · omega

/-- A packet in the array it joins: it begins with its IP header. -/
structure Prepared (m m' : Mbuf) (n l3len : Nat) : Prop where
  buf : m'.buf = m.buf
  dataOff : m'.dataOff = ipAt m
  dataLen : m'.dataLen = n
  l3Len : m'.l3Len = l3LenField l3len

theorem isNatT_congr {m m' : Mbuf} (h : m'.buf = m.buf) (udp : Nat) :
    isNatT m' udp = isNatT m udp := by
  rw [isNatT, isNatT, h]

theorem saveUserdata_prepared {m m' : Mbuf} {n l3len : Nat} (h : Prepared m m' n l3len) :
    Prepared m (saveUserdata conf m') n l3len := by
  obtain ⟨hsame, hlen, hl3⟩ := saveUserdata_same conf m'
  exact ⟨hsame.buf.trans h.buf, hsame.dataOff.trans h.dataOff, hlen.trans h.dataLen,
    hl3.trans h.l3Len⟩

/-- The class the `switch` gives. -/
theorem classify_class (m : Mbuf) (proto : Option UInt8) (udp : Nat) (plain : PktClass) :
    (classify conf m proto udp plain).1
      = if proto = some ipprotoEsp then .ipsec
        else if proto = some ipprotoUdp ∧ conf.udpEncap = true
          ∧ isNatT m udp = true then .ipsec
        else plain := by
  rw [classify]
  split
  · rfl
  · split <;> rfl

/-- The class of an IPv4 packet. -/
def ip4Class (m : Mbuf) : PktClass :=
  if m.buf (ipAt m + 9) = ipprotoEsp then .ipsec
  else if m.buf (ipAt m + 9) = ipprotoUdp ∧ conf.udpEncap = true
      ∧ isNatT m (ipAt m + ipHl m.buf (ipAt m) * 4) = true then .ipsec
  else .ip4

theorem ip4Class_kept (m : Mbuf) : ip4Class conf m ≠ .freed := by
  rw [ip4Class]
  split
  · decide
  · split <;> decide

/-- Behind the Ethernet header. -/
theorem adj_frame {m : Mbuf} (h : rteEtherHdrLen ≤ m.dataLen) :
    ∃ m1, rtePktmbufAdj m rteEtherHdrLen = some (ipAt m, m1)
      ∧ m1.buf = m.buf ∧ m1.dataOff = ipAt m
      ∧ m1.dataLen = m.dataLen - rteEtherHdrLen := by
  obtain ⟨w, hadj⟩ := rtePktmbufAdj_eq (show rteEtherHdrLen < 0x10000 by decide) h
  exact ⟨_, hadj, rfl, rfl, rfl⟩

/-- **AN IPv4 FRAME**. -/
theorem prepareOnePacket_ipv4 {m : Mbuf} (hlen : rteEtherHdrLen ≤ m.dataLen)
    (htype : etherType m = etherTypeIpv4) :
    ∃ m', prepareOnePacket conf m = some (ip4Class conf m, m')
      ∧ Prepared m m' (ip4Len m) ipv4HdrLen := by
  obtain ⟨m1, hadj, hbuf1, hoff1, hlen1⟩ := adj_frame hlen
  have htrim := trimTo_same m1 (ofBe (load m1.buf (m1.dataOff + 2) 2))
  have hlen2 := trimTo_dataLen m1 (ofBe (load m1.buf (m1.dataOff + 2) 2))
  rw [← adjustIpv4Pktlen] at htrim hlen2
  rw [prepareOnePacket, if_pos htype, hadj]
  refine ⟨saveUserdata conf (prepareIpv4 conf m1).2, ?_, ?_⟩
  · have hcls : (prepareIpv4 conf m1).1 = ip4Class conf m := by
      rw [prepareIpv4]
      dsimp only
      rw [classify_class, htrim.buf, isNatT_congr htrim.buf, isNatT_congr hbuf1, hbuf1,
        hoff1, ip4Class]
      simp only [Option.some.injEq]
    have hkept := ip4Class_kept conf m
    rw [← hcls] at hkept ⊢
    exact congrArg some (if_neg hkept)
  · refine saveUserdata_prepared conf ?_
    have hcls := classify_same conf (adjustIpv4Pktlen m1 m1.dataOff)
      (some ((adjustIpv4Pktlen m1 m1.dataOff).buf (m1.dataOff + 9)))
      (m1.dataOff + ipHl (adjustIpv4Pktlen m1 m1.dataOff).buf m1.dataOff * 4) .ip4
    refine ⟨?_, ?_, ?_, rfl⟩
    · exact hcls.1.buf.trans (htrim.buf.trans hbuf1)
    · exact hcls.1.dataOff.trans (htrim.dataOff.trans hoff1)
    · refine hcls.2.trans (hlen2.trans ?_)
      rw [hlen1, hbuf1, hoff1, ip4Len]

/-! ## Extension headers -/

/-- Hop-by-hop options, routing, fragment, authentication, destination
    options. -/
def isExtension (p : UInt8) : Bool :=
  p == 0 || p == 43 || p == 44 || p == 51 || p == 60

/-- `rte_ipv6_get_next_ext` knows the extension headers and no other protocol. -/
def KnowsExtensions : Prop :=
  ∀ b a p, (conf.getNextExt b a p).isSome = isExtension p

/-- The walk over the extension headers of a packet of `n` bytes at `a`: it
    passes those that begin inside the packet. -/
inductive Walk (b : Nat → UInt8) (a n : Nat) : UInt8 → Nat → UInt8 → Nat → Prop
  | stop {p : UInt8} {l : Nat} (h : isExtension p = false ∨ n ≤ l) : Walk b a n p l p l
  | pass {p q p' : UInt8} {l len l' : Nat} (hext : isExtension p = true) (hl : l < n)
      (h : conf.getNextExt b (a + l) p = some (q, len))
      (hw : Walk b a n q (l + len) p' l') : Walk b a n p l p' l'

variable {conf}

/-- **THE LOOP** makes the walk, whatever the bound on its rounds. -/
theorem extLoop_walk (hlaw : KnowsExtensions conf) {m : Mbuf} {p p' : UInt8}
    {l l' : Nat} (hw : Walk conf m.buf m.dataOff m.dataLen p l p' l') {fuel : Nat}
    (hfuel : m.dataLen - l ≤ fuel) :
    extLoop conf m fuel p l
      = (if p' = ipprotoEsp ∨ m.dataLen ≤ l' then some p' else none, l') := by
  induction hw generalizing fuel with
  | @stop p l h =>
      cases fuel with
      | zero => rw [extLoop, if_pos (.inr (by omega))]
      | succ fuel =>
          rw [extLoop]
          by_cases hgo : p ≠ ipprotoEsp ∧ l < m.dataLen
          · have hnone : conf.getNextExt m.buf (m.dataOff + l) p = none := by
              rw [← Option.not_isSome_iff_eq_none, hlaw]
              rcases h with h | h
              · rw [h]
                exact Bool.false_ne_true
              · omega
            rw [if_pos hgo, hnone, if_neg]
            rintro (h | h)
            · exact hgo.1 h
            · omega
          · rw [if_neg hgo, if_pos]
            by_contra hnot
            rw [not_or] at hnot
            exact hgo ⟨hnot.1, by omega⟩
  | @pass p q p' l len l' hext hl h hw ih =>
      have hlen : 8 ≤ len := conf.getNextExt_len _ _ _ _ h
      obtain ⟨fuel, rfl⟩ : ∃ k, fuel = k + 1 := ⟨fuel - 1, by omega⟩
      have hesp : p ≠ ipprotoEsp := by
        rintro rfl
        cases hext
      rw [extLoop, if_pos ⟨hesp, hl⟩, h]
      exact ih (by omega)

/-- **THE WALK TERMINATES**: every header takes some bytes. -/
theorem walk_total (hlaw : KnowsExtensions conf) (b : Nat → UInt8) (a n : Nat)
    (p : UInt8) (l : Nat) : ∃ p' l', Walk conf b a n p l p' l' := by
  induction h : n - l using Nat.strong_induction_on generalizing p l with
  | _ k ih =>
      by_cases hgo : isExtension p = true ∧ l < n
      · have hsome := hlaw b (a + l) p
        rw [hgo.1, Option.isSome_iff_exists] at hsome
        obtain ⟨⟨q, len⟩, hnext⟩ := hsome
        have hlen : 8 ≤ len := conf.getNextExt_len _ _ _ _ hnext
        obtain ⟨p', l', hw⟩ := ih (n - (l + len)) (by omega) q (l + len) rfl
        exact ⟨p', l', .pass hgo.1 hgo.2 hnext hw⟩
      · refine ⟨p, l, .stop ?_⟩
        cases hext : isExtension p with
        | true => exact .inr (by
            by_contra hlt
            exact hgo ⟨hext, by omega⟩)
        | false => exact .inl rfl

theorem Walk.unique {b : Nat → UInt8} {a n : Nat} {p p1 p2 : UInt8} {l l1 l2 : Nat}
    (h1 : Walk conf b a n p l p1 l1) (h2 : Walk conf b a n p l p2 l2) :
    p1 = p2 ∧ l1 = l2 := by
  induction h1 with
  | stop h =>
      cases h2 with
      | stop _ => exact ⟨rfl, rfl⟩
      | pass hext hl _ _ =>
          rcases h with h | h
          · rw [h] at hext
            cases hext
          · omega
  | pass hext hl h _ ih =>
      cases h2 with
      | stop h' =>
          rcases h' with h' | h'
          · rw [h'] at hext
            cases hext
          · omega
      | pass _ _ h' hw =>
          obtain ⟨rfl, rfl⟩ := Prod.mk.inj (Option.some.inj (h.symm.trans h'))
          exact ih hw

/-- The walk of a frame: it ends at the protocol `p`, `l` bytes behind the
    start of the IP packet. -/
def FrameWalk (conf : PollConf) (m : Mbuf) (p : UInt8) (l : Nat) : Prop :=
  Walk conf m.buf (ipAt m) (ip6Len m) (m.buf (ipAt m + 6)) ipv6HdrLen p l

/-- The class of an IPv6 packet whose walk has ended. -/
def ip6Class (conf : PollConf) (m : Mbuf) (p : UInt8) (l : Nat) : PktClass :=
  if ip6Len m < l then .freed
  else if p = ipprotoEsp then .ipsec
  else if (p = ipprotoUdp ∧ ip6Len m ≤ l) ∧ conf.udpEncap = true
      ∧ isNatT m (ipAt m + l) = true then .ipsec
  else .ip6

/-- The `switch` for a protocol that may have been lost. -/
theorem classify_found {m : Mbuf} {p : UInt8} {found : Prop} [Decidable found]
    (h : p = ipprotoEsp → found) (udp : Nat) (plain : PktClass) :
    (classify conf m (if found then some p else none) udp plain).1
      = if p = ipprotoEsp then .ipsec
        else if (p = ipprotoUdp ∧ found) ∧ conf.udpEncap = true
          ∧ isNatT m udp = true then .ipsec
        else plain := by
  rw [classify_class]
  by_cases hfound : found
  · simp [hfound]
  · have hesp : p ≠ ipprotoEsp := fun hp => hfound (h hp)
    simp [hfound, hesp]

/-- **AN IPv6 FRAME**. -/
theorem prepareOnePacket_ipv6 (hlaw : KnowsExtensions conf) {m : Mbuf}
    (hlen : rteEtherHdrLen ≤ m.dataLen) (htype : etherType m = etherTypeIpv6)
    {p : UInt8} {l : Nat} (hw : FrameWalk conf m p l) :
    ∃ m', prepareOnePacket conf m = some (ip6Class conf m p l, m')
      ∧ (ip6Class conf m p l ≠ .freed → Prepared m m' (ip6Len m) l) := by
  obtain ⟨m1, hadj, hbuf1, hoff1, hlen1⟩ := adj_frame hlen
  have htrim := trimTo_same m1 (ofBe (load m1.buf (m1.dataOff + 4) 2) + ipv6HdrLen)
  have hlen2 := trimTo_dataLen m1 (ofBe (load m1.buf (m1.dataOff + 4) 2) + ipv6HdrLen)
  rw [← adjustIpv6Pktlen] at htrim hlen2
  have hne : etherType m ≠ etherTypeIpv4 := by
    rw [htype]
    decide
  have hprep : prepareOnePacket conf m = some (
      if (prepareIpv6 conf m1).1 = .freed then prepareIpv6 conf m1
      else ((prepareIpv6 conf m1).1, saveUserdata conf (prepareIpv6 conf m1).2)) := by
    rw [prepareOnePacket, if_neg hne, if_pos htype, hadj]
    rfl
  generalize hm2 : adjustIpv6Pktlen m1 m1.dataOff = m2 at htrim hlen2
  -- trimming and the Ethernet header cost no byte of the packet
  have hbuf2 : m2.buf = m.buf := htrim.buf.trans hbuf1
  have hoff2 : m2.dataOff = ipAt m := htrim.dataOff.trans hoff1
  have hlen2 : m2.dataLen = ip6Len m := by
    rw [hlen2, hlen1, hbuf1, hoff1, ip6Len]
  -- the loop of the code walks the same headers
  have hwalk : Walk conf m2.buf m2.dataOff m2.dataLen (m2.buf (m2.dataOff + 6))
      ipv6HdrLen p l := by
    rw [hbuf2, hoff2, hlen2]
    exact hw
  have hloop := extLoop_walk hlaw hwalk (Nat.sub_le m2.dataLen ipv6HdrLen)
  have hl3 : ipv6L3 conf m2
      = (if p = ipprotoEsp ∨ ip6Len m ≤ l then some p else none, l) := by
    rw [ipv6L3, hloop, hlen2]
  have hcase : prepareIpv6 conf m1
      = if ip6Len m < l then (.freed, m2)
        else
          let r := classify conf m2
            (if p = ipprotoEsp ∨ ip6Len m ≤ l then some p else none) (ipAt m + l) .ip6
          (r.1, setL3 r.2 l ptypeL3Ipv6) := by
    rw [prepareIpv6]
    dsimp only
    rw [hm2, hl3, hlen2, hoff1]
  -- freed: the walk has run past the end
  by_cases hfreed : ip6Len m < l
  · have hcls : ip6Class conf m p l = .freed := by rw [ip6Class, if_pos hfreed]
    rw [if_pos hfreed] at hcase
    rw [hprep, hcase, hcls]
    exact ⟨m2, rfl, fun h => absurd rfl h⟩
  · rw [if_neg hfreed] at hcase
    dsimp only at hcase
    have hcls : (classify conf m2
        (if p = ipprotoEsp ∨ ip6Len m ≤ l then some p else none) (ipAt m + l) .ip6).1
        = ip6Class conf m p l := by
      rw [classify_found (fun h => .inl h), isNatT_congr hbuf2, ip6Class, if_neg hfreed]
      by_cases hesp : p = ipprotoEsp
      · rw [if_pos hesp, if_pos hesp]
      · rw [if_neg hesp, if_neg hesp]
        simp only [hesp, false_or]
    have hsame := classify_same conf m2
      (if p = ipprotoEsp ∨ ip6Len m ≤ l then some p else none) (ipAt m + l) .ip6
    have hkept : ip6Class conf m p l ≠ .freed := by
      rw [ip6Class, if_neg hfreed]
      split
      · decide
      · split <;> decide
    rw [hcls] at hcase
    rw [hprep, hcase]
    refine ⟨_, congrArg some (if_neg hkept), fun _ => saveUserdata_prepared conf ?_⟩
    exact ⟨hsame.1.buf.trans hbuf2, hsame.1.dataOff.trans hoff2, hsame.2.trans hlen2, rfl⟩

/-! ## Exactness -/

/-- The packet of `n` bytes is UDP at `udp` with the port of NAT traversal. -/
def NatT (conf : PollConf) (m : Mbuf) (proto : UInt8) (udp n : Nat) : Prop :=
  proto = ipprotoUdp ∧ conf.udpEncap = true ∧ udp + 4 ≤ n
    ∧ isNatT m (ipAt m + udp) = true

instance (conf : PollConf) (m : Mbuf) (proto : UInt8) (udp n : Nat) :
    Decidable (NatT conf m proto udp n) :=
  inferInstanceAs (Decidable (_ ∧ _ ∧ _ ∧ _))

/-- The array an IPv4 packet belongs to. -/
def wanted4 (conf : PollConf) (m : Mbuf) : PktClass :=
  if m.buf (ipAt m + 9) = ipprotoEsp
      ∨ NatT conf m (m.buf (ipAt m + 9)) (ipHl m.buf (ipAt m) * 4) (ip4Len m) then .ipsec
  else .ip4

/-- The array an IPv6 packet belongs to, whose headers end at `l` with the
    protocol `p`. -/
def wanted6 (conf : PollConf) (m : Mbuf) (p : UInt8) (l : Nat) : PktClass :=
  if ip6Len m < l then .freed
  else if p = ipprotoEsp ∨ NatT conf m p l (ip6Len m) then .ipsec
  else .ip6

/-- The packet is put into the array, one with ESP or NAT traversal with the
    place `l` of that header, any other one with the place of its protocol. -/
def Classified (conf : PollConf) (m : Mbuf) (wanted : PktClass) (l place : Nat) : Prop :=
  ∃ m', prepareOnePacket conf m = some (wanted, m')
    ∧ (wanted = .ipsec → m'.l3Len = l)
    ∧ (wanted = .ip4 ∨ wanted = .ip6 → protoPlace (wanted, m') = some (ipAt m + place))

/-- `prepare_one_packet` is exact on the frame, and its walk comes to an end. -/
structure Exact (conf : PollConf) (m : Mbuf) : Prop where
  v4 : etherType m = etherTypeIpv4 →
    Classified conf m (wanted4 conf m) (ipHl m.buf (ipAt m) * 4) 9
  v6 : etherType m = etherTypeIpv6 → ∃ p l, FrameWalk conf m p l
    ∧ Classified conf m (wanted6 conf m p l) l 6

/-- The frame is none of those `prepare_one_packet` gets wrong: ESP or NAT
    traversal behind IPv4 options, or behind IPv6 headers too long for
    `l3_len`; NAT traversal over IPv6; an IP packet that ends where UDP ports
    would be. -/
structure Plain (conf : PollConf) (m : Mbuf) : Prop where
  esp4 : etherType m = etherTypeIpv4 → m.buf (ipAt m + 9) = ipprotoEsp →
    ipHl m.buf (ipAt m) = 5
  udp4 : etherType m = etherTypeIpv4 → m.buf (ipAt m + 9) = ipprotoUdp →
    conf.udpEncap = true → isNatT m (ipAt m + ipHl m.buf (ipAt m) * 4) = true →
    ipHl m.buf (ipAt m) = 5 ∧ 24 ≤ ip4Len m
  esp6 : etherType m = etherTypeIpv6 → ∀ l, FrameWalk conf m ipprotoEsp l →
    l ≤ ip6Len m → l < 0x200
  udp6 : etherType m = etherTypeIpv6 → ∀ l, FrameWalk conf m ipprotoUdp l →
    conf.udpEncap = true → isNatT m (ipAt m + l) = true →
    l ≠ ip6Len m ∧ ip6Len m < l + 4

/-- What the code puts down for an IPv4 frame. -/
theorem classified4_iff {m : Mbuf} (hlen : rteEtherHdrLen ≤ m.dataLen)
    (htype : etherType m = etherTypeIpv4) {wanted : PktClass} {l : Nat}
    (hwanted : wanted = .ipsec ∨ wanted = .ip4) :
    Classified conf m wanted l 9
      ↔ ip4Class conf m = wanted ∧ (wanted = .ipsec → ipv4HdrLen = l) := by
  obtain ⟨m1, hcall, hprep⟩ := prepareOnePacket_ipv4 conf hlen htype
  have hl3 : m1.l3Len = ipv4HdrLen := hprep.l3Len
  constructor
  · rintro ⟨m', hcall', hl, -⟩
    obtain ⟨hcls, rfl⟩ := Prod.mk.inj (Option.some.inj (hcall.symm.trans hcall'))
    exact ⟨hcls, fun h => hl3.symm.trans (hl h)⟩
  · rintro ⟨hcls, hl⟩
    rw [hcls] at hcall
    refine ⟨m1, hcall, fun h => hl3.trans (hl h), fun h => ?_⟩
    rcases hwanted with rfl | rfl
    · rcases h with h | h <;> cases h
    · rw [protoPlace, hprep.dataOff]
      rfl

/-- What it puts down for an IPv6 frame. -/
theorem classified6_iff (hlaw : KnowsExtensions conf) {m : Mbuf}
    (hlen : rteEtherHdrLen ≤ m.dataLen) (htype : etherType m = etherTypeIpv6)
    {p : UInt8} {l : Nat} (hw : FrameWalk conf m p l) {wanted : PktClass}
    (hwanted : wanted ≠ .ip4) :
    Classified conf m wanted l 6
      ↔ ip6Class conf m p l = wanted ∧ (wanted = .ipsec → l3LenField l = l) := by
  obtain ⟨m1, hcall, hprep⟩ := prepareOnePacket_ipv6 hlaw hlen htype hw
  constructor
  · rintro ⟨m', hcall', hl, -⟩
    obtain ⟨hcls, rfl⟩ := Prod.mk.inj (Option.some.inj (hcall.symm.trans hcall'))
    refine ⟨hcls, fun h => ?_⟩
    rw [hcls, h] at hprep
    exact (hprep (by decide)).l3Len.symm.trans (hl h)
  · rintro ⟨hcls, hl⟩
    rw [hcls] at hcall hprep
    refine ⟨m1, hcall, fun h => ?_, fun h => ?_⟩
    · rw [h] at hprep
      exact (hprep (by decide)).l3Len.trans (hl h)
    · rcases h with rfl | rfl
      · exact absurd rfl hwanted
      · rw [protoPlace, (hprep (by decide)).dataOff]
        rfl

theorem exact4_iff {m : Mbuf} (hlen : rteEtherHdrLen ≤ m.dataLen)
    (htype : etherType m = etherTypeIpv4) :
    Classified conf m (wanted4 conf m) (ipHl m.buf (ipAt m) * 4) 9
      ↔ (m.buf (ipAt m + 9) = ipprotoEsp → ipHl m.buf (ipAt m) = 5)
        ∧ (m.buf (ipAt m + 9) = ipprotoUdp → conf.udpEncap = true →
          isNatT m (ipAt m + ipHl m.buf (ipAt m) * 4) = true →
          ipHl m.buf (ipAt m) = 5 ∧ 24 ≤ ip4Len m) := by
  have hfive : ipv4HdrLen = ipHl m.buf (ipAt m) * 4 ↔ ipHl m.buf (ipAt m) = 5 := by
    rw [ipv4HdrLen]
    omega
  have hwanted : wanted4 conf m = .ipsec ∨ wanted4 conf m = .ip4 := by
    rw [wanted4]
    split
    · exact .inl rfl
    · exact .inr rfl
  rw [classified4_iff hlen htype hwanted, wanted4, ip4Class]
  by_cases hesp : m.buf (ipAt m + 9) = ipprotoEsp
  · have hudp : m.buf (ipAt m + 9) ≠ ipprotoUdp := by
      rw [hesp]
      decide
    simp [hesp, hfive, show ipprotoEsp ≠ ipprotoUdp by decide]
  · by_cases hcode : m.buf (ipAt m + 9) = ipprotoUdp ∧ conf.udpEncap = true
        ∧ isNatT m (ipAt m + ipHl m.buf (ipAt m) * 4) = true
    · obtain ⟨hudp, hencap, hport⟩ := hcode
      have hne : ipprotoUdp ≠ ipprotoEsp := by decide
      by_cases hin : ipHl m.buf (ipAt m) * 4 + 4 ≤ ip4Len m
      · simp only [NatT, hudp, hencap, hport, hin, hne, true_and, and_self, false_or, if_true,
          if_false, hfive, false_implies, true_implies]
        exact ⟨fun h => ⟨h, by omega⟩, fun h => h.1⟩
      · simp only [NatT, hudp, hencap, hport, hin, hne, true_and, and_self, false_or, if_true,
          if_false, false_and, and_false, reduceCtorEq, false_implies, true_implies,
          false_iff, not_and]
        omega
    · have hnat : ¬ NatT conf m (m.buf (ipAt m + 9)) (ipHl m.buf (ipAt m) * 4)
          (ip4Len m) := fun h => hcode ⟨h.1, h.2.1, h.2.2.2⟩
      rw [if_neg hesp, if_neg hcode, if_neg (not_or.mpr ⟨hesp, hnat⟩)]
      simp only [true_and, reduceCtorEq, false_implies, hesp, true_iff]
      exact fun h1 h2 h3 => absurd ⟨h1, h2, h3⟩ hcode

theorem l3LenField_eq_iff (l : Nat) : l3LenField l = l ↔ l < 0x200 := by
  rw [l3LenField]
  omega

theorem exact6_iff (hlaw : KnowsExtensions conf) {m : Mbuf}
    (hlen : rteEtherHdrLen ≤ m.dataLen) (htype : etherType m = etherTypeIpv6)
    {p : UInt8} {l : Nat} (hw : FrameWalk conf m p l) :
    Classified conf m (wanted6 conf m p l) l 6
      ↔ (p = ipprotoEsp → l ≤ ip6Len m → l < 0x200)
        ∧ (p = ipprotoUdp → conf.udpEncap = true → isNatT m (ipAt m + l) = true →
          l ≠ ip6Len m ∧ ip6Len m < l + 4) := by
  have hwanted : wanted6 conf m p l ≠ .ip4 := by
    rw [wanted6]
    split
    · decide
    · split <;> decide
  rw [classified6_iff hlaw hlen htype hw hwanted, wanted6, ip6Class]
  by_cases hfreed : ip6Len m < l
  · rw [if_pos hfreed, if_pos hfreed]
    refine ⟨fun _ => ⟨fun _ hle => by omega, fun _ _ _ => by omega⟩, fun _ => ⟨rfl, ?_⟩⟩
    intro h
    cases h
  rw [if_neg hfreed, if_neg hfreed]
  have hle := Nat.not_lt.mp hfreed
  by_cases hesp : p = ipprotoEsp
  · rw [if_pos hesp, if_pos (.inl hesp)]
    refine ⟨fun h => ⟨fun _ _ => (l3LenField_eq_iff l).mp (h.2 rfl), fun hudp => ?_⟩,
      fun h => ⟨rfl, fun _ => (l3LenField_eq_iff l).mpr (h.1 hesp hle)⟩⟩
    rw [hesp] at hudp
    exact absurd hudp (by decide)
  rw [if_neg hesp]
  by_cases hcode : p = ipprotoUdp ∧ conf.udpEncap = true ∧ isNatT m (ipAt m + l) = true
  · obtain ⟨hudp, hencap, hport⟩ := hcode
    have hclass : (if (p = ipprotoUdp ∧ ip6Len m ≤ l) ∧ conf.udpEncap = true
        ∧ isNatT m (ipAt m + l) = true then PktClass.ipsec else .ip6)
        = if ip6Len m ≤ l then .ipsec else .ip6 := by
      simp only [hudp, hencap, hport, true_and, and_true]
    have hnat : NatT conf m p l (ip6Len m) ↔ l + 4 ≤ ip6Len m :=
      ⟨fun h => h.2.2.1, fun h => ⟨hudp, hencap, h, hport⟩⟩
    rw [hclass]
    constructor
    · rintro ⟨hcls, -⟩
      refine ⟨fun h => absurd h hesp, fun _ _ _ => ?_⟩
      -- the walk stops at the end of the packet, or the ports are cut off
      by_cases hend : ip6Len m ≤ l
      · rw [if_pos hend, if_neg (not_or.mpr ⟨hesp, fun h => by
          have := hnat.mp h
          omega⟩)] at hcls
        cases hcls
      · refine ⟨by omega, ?_⟩
        by_contra hin
        rw [if_neg hend, if_pos (.inr (hnat.mpr (by omega)))] at hcls
        cases hcls
    · rintro ⟨-, hcut⟩
      obtain ⟨hne, hshort⟩ := hcut hudp hencap hport
      rw [if_neg (by omega), if_neg (not_or.mpr ⟨hesp, fun h => by
        have := hnat.mp h
        omega⟩)]
      refine ⟨rfl, fun h => ?_⟩
      cases h
  · have hnat : ¬ NatT conf m p l (ip6Len m) := fun h => hcode ⟨h.1, h.2.1, h.2.2.2⟩
    rw [if_neg fun h => hcode ⟨h.1.1, h.2⟩, if_neg (not_or.mpr ⟨hesp, hnat⟩)]
    refine ⟨fun _ => ⟨fun h => absurd h hesp, fun h1 h2 h3 => ?_⟩, fun _ => ⟨rfl, ?_⟩⟩
    · exact absurd ⟨h1, h2, h3⟩ hcode
    · intro h
      cases h

/-- **CLASSIFICATION** is exact on a frame exactly when it is plain. -/
theorem exact_iff_plain (hlaw : KnowsExtensions conf) {m : Mbuf}
    (hlen : rteEtherHdrLen ≤ m.dataLen) : Exact conf m ↔ Plain conf m := by
  constructor
  · intro h
    have h6 : etherType m = etherTypeIpv6 → ∀ p l, FrameWalk conf m p l →
        (p = ipprotoEsp → l ≤ ip6Len m → l < 0x200)
          ∧ (p = ipprotoUdp → conf.udpEncap = true → isNatT m (ipAt m + l) = true →
            l ≠ ip6Len m ∧ ip6Len m < l + 4) := by
      intro htype p l hw
      obtain ⟨p', l', hw', hcls⟩ := h.v6 htype
      obtain ⟨rfl, rfl⟩ := hw.unique hw'
      exact (exact6_iff hlaw hlen htype hw).mp hcls
    exact ⟨fun htype => ((exact4_iff hlen htype).mp (h.v4 htype)).1,
      fun htype => ((exact4_iff hlen htype).mp (h.v4 htype)).2,
      fun htype l hw => (h6 htype _ l hw).1 rfl,
      fun htype l hw => (h6 htype _ l hw).2 rfl⟩
  · intro h
    refine ⟨fun htype => (exact4_iff hlen htype).mpr ⟨h.esp4 htype, h.udp4 htype⟩, ?_⟩
    intro htype
    obtain ⟨p, l, hw⟩ := walk_total hlaw m.buf (ipAt m) (ip6Len m) (m.buf (ipAt m + 6))
      ipv6HdrLen
    refine ⟨p, l, hw, (exact6_iff hlaw hlen htype hw).mpr ⟨?_, ?_⟩⟩
    · rintro rfl
      exact h.esp6 htype l hw
    · rintro rfl
      exact h.udp6 htype l hw

/-! ## NAT traversal over IPv6 -/

/-- `rte_ipv6_get_next_ext`. -/
def getNextExt (b : Nat → UInt8) (a : Nat) (proto : UInt8) : Option (UInt8 × Nat) :=
  if proto = 51 then some (b a, ((b (a + 1)).toNat + 2) * 4)
  else if proto = 0 ∨ proto = 43 ∨ proto = 60 then
    some (b a, ((b (a + 1)).toNat + 1) * 8)
  else if proto = 44 then some (b a, 8)
  else none

theorem getNextExt_len (b : Nat → UInt8) (a : Nat) (proto : UInt8) (r : UInt8 × Nat)
    (h : getNextExt b a proto = some r) : 8 ≤ r.2 := by
  rw [getNextExt] at h
  split at h
  · obtain rfl := Option.some.inj h
    dsimp only
    omega
  · split at h
    · obtain rfl := Option.some.inj h
      dsimp only
      omega
    · split at h
      · obtain rfl := Option.some.inj h
        exact Nat.le_refl 8
      · cases h

/-- UDP encapsulation is enabled. -/
def encapConf : PollConf where
  enable := true
  udpEncap := true
  dynfieldRegistered := false
  getUserdata := fun _ _ => none
  getNextExt := getNextExt
  getNextExt_len := getNextExt_len

theorem encapConf_knows : KnowsExtensions encapConf := by
  intro b a p
  change (getNextExt b a p).isSome = _
  rw [getNextExt, isExtension]
  by_cases h51 : p = 51
  · subst h51
    rfl
  · by_cases hopt : p = 0 ∨ p = 43 ∨ p = 60
    · rw [if_neg h51, if_pos hopt]
      rcases hopt with rfl | rfl | rfl <;> rfl
    · rw [not_or, not_or] at hopt
      by_cases h44 : p = 44
      · subst h44
        rfl
      · rw [if_neg h51, if_neg (by simp [hopt]), if_neg h44]
        simp [h51, hopt, h44]

/-- A frame with an IPv6 header and UDP behind it, with these ports. -/
def ipv6Udp (port0 port1 : UInt8) : Mbuf :=
  Mbuf.mid (store (fun _ => 0) 140
    ([0x86, 0xdd, 0x60, 0, 0, 0, 0, 12, 17, 64] ++ List.replicate 32 0
      ++ [port0, port1, port0, port1])) 66

theorem ipv6Udp_walk : FrameWalk encapConf (ipv6Udp 0x11 0x94) ipprotoUdp 40 := by
  have hproto : (ipv6Udp 0x11 0x94).buf (ipAt (ipv6Udp 0x11 0x94) + 6) = ipprotoUdp := by
    decide +kernel
  rw [FrameWalk, hproto]
  exact .stop (.inl (by decide))

/-- A frame with other ports. -/
theorem exact_iff_plain_udp :
    KnowsExtensions encapConf ∧ rteEtherHdrLen ≤ (ipv6Udp 0 53).dataLen
      ∧ (Exact encapConf (ipv6Udp 0 53) ↔ Plain encapConf (ipv6Udp 0 53)) :=
  have hlen : rteEtherHdrLen ≤ (ipv6Udp 0 53).dataLen := by decide
  ⟨encapConf_knows, hlen, exact_iff_plain encapConf_knows hlen⟩

/-- **NAT TRAVERSAL OVER IPv6** goes to the cleartext packets. -/
theorem ipv6_natT_misclassified :
    etherType (ipv6Udp 0x11 0x94) = etherTypeIpv6
      ∧ NatT encapConf (ipv6Udp 0x11 0x94) ipprotoUdp 40 52
      ∧ (prepareOnePacket encapConf (ipv6Udp 0x11 0x94)).map Prod.fst = some .ip6
      ∧ ¬ Exact encapConf (ipv6Udp 0x11 0x94) := by
  have htype : etherType (ipv6Udp 0x11 0x94) = etherTypeIpv6 := by decide
  have hcls : (prepareOnePacket encapConf (ipv6Udp 0x11 0x94)).map Prod.fst
      = some .ip6 := by decide +kernel
  refine ⟨htype, by decide, hcls, fun h => ?_⟩
  obtain ⟨p, l, hw, m', hcall, -⟩ := h.v6 htype
  obtain ⟨rfl, rfl⟩ := hw.unique ipv6Udp_walk
  rw [hcall] at hcls
  have hwanted : wanted6 encapConf (ipv6Udp 0x11 0x94) ipprotoUdp 40 = .ipsec := by
    decide +kernel
  have hcls := Option.some.inj hcls
  rw [hwanted] at hcls
  cases hcls

end Classify
