import Mathlib.Data.List.Perm.Basic
import IpsecSecgw.EspHeaderProofs

/-! # IKE packets and NAT-T data

    IKE and ESP in UDP share port 4500, and only the four bytes behind the UDP
    header tell them apart: zeros in front of IKE, the SPI in front of ESP.
    `filter_ike_packets` looks at the ports alone, wherever an IPv4 header
    length points.  What a burst owes to both kinds of packets (`FilterRight`)
    and what a packet must be like for the filter to serve it (`Served`) are
    stated here, and are the same (`filterIkePackets_right_iff`). -/

namespace KniFilter

open ByteStore MbufModel IpsecModel WorkerModel SecgwModel EspHeader

variable (conf : PollConf)

/-! ## What an IKE packet is -/

/-- Where the IP packet ends, counted from the Ethernet header: neither behind
    what its header says nor behind the first segment. -/
def ipEnd (m : Mbuf) : Nat :=
  let ip := m.dataOff + rteEtherHdrLen
  let ipLen :=
    if ipV m.buf ip = 4 then ofBe (load m.buf (ip + 2) 2)
    else ofBe (load m.buf (ip + 4) 2) + ipv6HdrLen
  min m.dataLen (rteEtherHdrLen + ipLen)

/-- The place behind an IPv4 header. -/
def udp4 (m : Mbuf) : Nat :=
  rteEtherHdrLen + ipHl m.buf (m.dataOff + rteEtherHdrLen) * 4

/-- The IPv4 header is at least 20 bytes long, and the packet no fragment but the
    first. -/
def StartsDatagram (m : Mbuf) : Prop :=
  let ip := m.dataOff + rteEtherHdrLen
  5 ≤ ipHl m.buf ip ∧ ofBe (load m.buf (ip + 6) 2) % 0x2000 = 0

instance (m : Mbuf) : Decidable (StartsDatagram m) := by
  unfold StartsDatagram
  infer_instance

/-- The tests of version and protocol in an IPv4 header. -/
def SaysUdp (m : Mbuf) : Prop :=
  let ip := m.dataOff + rteEtherHdrLen
  ipV m.buf ip = 4 ∧ m.buf (ip + 9) = ipprotoUdp

instance (m : Mbuf) : Decidable (SaysUdp m) := by
  unfold SaysUdp
  infer_instance

/-- `IPPROTO_FRAGMENT`. -/
def ipprotoFragment : UInt8 := 44

/-- The UDP header behind the extension headers from `off` on. -/
def extUdp (m : Mbuf) : Nat → UInt8 → Nat → Option Nat
  | 0, _, _ => none
  | fuel + 1, proto, off =>
      if proto = ipprotoUdp then some off
      else if m.dataLen ≤ off then none
      else if proto = ipprotoFragment
          ∧ ofBe (load m.buf (m.dataOff + off + 2) 2) / 8 ≠ 0 then none
      else
        match conf.getNextExt m.buf (m.dataOff + off) proto with
        | none => none
        | some (next, extLen) => extUdp m fuel next (off + extLen)

/-- The place of the UDP header of a packet. -/
def udpAt (m : Mbuf) : Option Nat :=
  let ip := m.dataOff + rteEtherHdrLen
  if etherType m = etherTypeIpv4 then
    if SaysUdp m ∧ StartsDatagram m then some (udp4 m) else none
  else if etherType m = etherTypeIpv6 ∧ ipV m.buf ip = 6 then
    extUdp conf m (m.dataLen + 1) (m.buf (ip + 6)) (rteEtherHdrLen + ipv6HdrLen)
  else none

/-- A port of the UDP header at `udp`. -/
def hasPort (m : Mbuf) (udp port : Nat) : Bool :=
  ofBe (load m.buf (m.dataOff + udp) 2) == port
    || ofBe (load m.buf (m.dataOff + udp + 2) 2) == port

/-- The four bytes behind the UDP header. -/
def firstWord (m : Mbuf) (udp : Nat) : List UInt8 :=
  load m.buf (m.dataOff + udp + 8) 4

/-- The non-ESP marker: four bytes of zeros. -/
def nonEspMarker (m : Mbuf) (udp : Nat) : Bool :=
  decide (udp + 12 ≤ ipEnd m) && firstWord m udp == List.replicate 4 0

/-- The UDP header at `udp` is that of an IKE message. -/
def ikeAt (m : Mbuf) (udp : Nat) : Bool :=
  decide (udp + 4 ≤ ipEnd m)
    && (hasPort m udp 500 || hasPort m udp 4500 && nonEspMarker m udp)

/-- A packet is an IKE packet. -/
def isIke (m : Mbuf) : Bool := (udpAt conf m).any (ikeAt m)

/-- A packet is ESP in UDP: port 4500 and an SPI that is not zero. -/
def UdpEsp (m : Mbuf) : Prop :=
  ∃ udp, udpAt conf m = some udp ∧ hasPort m udp 4500 = true
    ∧ hasPort m udp 500 = false ∧ firstWord m udp ≠ List.replicate 4 0

theorem UdpEsp.not_ike {m : Mbuf} (h : UdpEsp conf m) : isIke conf m = false := by
  obtain ⟨udp, hudp, -, h500, hword⟩ := h
  have hmark : nonEspMarker m udp = false := by
    rw [nonEspMarker, beq_eq_false_iff_ne.mpr hword, Bool.and_false]
  rw [isIke, hudp, Option.any_some, ikeAt, h500, hmark, Bool.and_false,
    Bool.or_false, Bool.and_false]

/-! ## What the filter owes to a burst -/

/-- The IKE packets are handed over or freed, once each, all others are kept in
    their order, ESP in UDP among them, and what is read of a packet lies in
    its first segment. -/
structure FilterRight (w : World) (pkts : List PktId) (s : IkeFilter) : Prop where
  ike : (s.handed ++ s.freed).Perm (pkts.filter fun p => isIke conf (w.mbuf p))
  kept : s.pktsNew = pkts.filter fun p => !isIke conf (w.mbuf p)
  esp : ∀ p ∈ pkts, UdpEsp conf (w.mbuf p) → p ∈ s.pktsNew
  inside : ∀ p ∈ pkts, ∀ r ∈ (ikeTest (w.mbuf p)).2, r.1 + r.2 ≤ (w.mbuf p).dataLen

/-- The headers the filter follows lie in the first segment, up to the ports. -/
def HeadersInside (m : Mbuf) : Prop :=
  let ip := m.dataOff + rteEtherHdrLen
  14 ≤ m.dataLen ∧ (etherType m = etherTypeIpv4 → 15 ≤ m.dataLen
    ∧ (ipV m.buf ip = 4 → 24 ≤ m.dataLen
      ∧ (m.buf (ip + 9) = ipprotoUdp → udp4 m + 4 ≤ m.dataLen)))

/-- What a packet must be like: its headers are there, an IPv4 packet with one
    of the two ports is an IKE message, and no IKE message is over IPv6. -/
structure Served (m : Mbuf) : Prop where
  headers : HeadersInside m
  ports : etherType m = etherTypeIpv4 → SaysUdp m →
    hasPort m (udp4 m) 500 = true ∨ hasPort m (udp4 m) 4500 = true →
    StartsDatagram m ∧ udp4 m + 4 ≤ ipEnd m
      ∧ (hasPort m (udp4 m) 500 = true ∨ nonEspMarker m (udp4 m) = true)
  ipv6 : etherType m = etherTypeIpv6 → isIke conf m = false

/-! ## One packet -/

/-- The test lets through what does not say UDP over IPv4. -/
theorem ikeTest_plain {m : Mbuf}
    (h : ¬ (etherType m = etherTypeIpv4 ∧ SaysUdp m)) : (ikeTest m).1 = false := by
  rw [ikeTest]
  dsimp only
  by_cases h4 : etherType m = etherTypeIpv4
  · rw [if_neg (not_not.mpr h4)]
    by_cases hv : ipV m.buf (m.dataOff + rteEtherHdrLen) = 4
    · rw [if_neg (not_not.mpr hv), if_pos (fun hp => h ⟨h4, hv, hp⟩)]
    · rw [if_pos hv]
  · rw [if_pos h4]

/-- On UDP over IPv4 it asks for the ports. -/
theorem ikeTest_udp {m : Mbuf} (h4 : etherType m = etherTypeIpv4)
    (hudp : SaysUdp m) :
    (ikeTest m).1 = (hasPort m (udp4 m) 500 || hasPort m (udp4 m) 4500) := by
  have hplace : m.dataOff + rteEtherHdrLen
      + ipHl m.buf (m.dataOff + rteEtherHdrLen) * 4 = m.dataOff + udp4 m :=
    Nat.add_assoc _ _ _
  rw [ikeTest]
  dsimp only
  rw [if_neg (not_not.mpr h4), if_neg (not_not.mpr hudp.1),
    if_neg (not_not.mpr hudp.2), hplace]
  simp only [isIkePort, hasPort]
  ac_rfl

/-- **READS**: they stay in the segment when the headers do. -/
theorem reads_inside_iff (m : Mbuf) :
    (∀ r ∈ (ikeTest m).2, r.1 + r.2 ≤ m.dataLen) ↔ HeadersInside m := by
  have hplace : 14 + ipHl m.buf (m.dataOff + rteEtherHdrLen) * 4 = udp4 m := rfl
  rw [ikeTest, HeadersInside]
  dsimp only
  by_cases h4 : etherType m = etherTypeIpv4
  · rw [if_neg (not_not.mpr h4)]
    by_cases hv : ipV m.buf (m.dataOff + rteEtherHdrLen) = 4
    · rw [if_neg (not_not.mpr hv)]
      by_cases hp : m.buf (m.dataOff + rteEtherHdrLen + 9) = ipprotoUdp
      · rw [if_neg (not_not.mpr hp), hplace]
        simp only [List.forall_mem_cons, h4, hv, hp]
        simp
        omega
      · rw [if_pos hp]
        simp [h4, hv, hp]
    · rw [if_pos hv]
      simp [h4, hv]
  · rw [if_pos h4]
    simp [h4]

/-- Over IPv4, only UDP can be IKE. -/
theorem isIke_ipv4 {m : Mbuf} (h4 : etherType m = etherTypeIpv4) :
    isIke conf m = true ↔ SaysUdp m ∧ StartsDatagram m ∧ ikeAt m (udp4 m) = true := by
  rw [isIke, udpAt, if_pos h4]
  by_cases h : SaysUdp m ∧ StartsDatagram m
  · rw [if_pos h, Option.any_some]
    exact ⟨fun hi => ⟨h.1, h.2, hi⟩, fun hi => hi.2.2⟩
  · rw [if_neg h]
    constructor
    · intro hi
      cases hi
    · intro hi
      exact absurd ⟨hi.1, hi.2.1⟩ h

/-- Other packets are neither. -/
theorem isIke_other {m : Mbuf} (h4 : etherType m ≠ etherTypeIpv4)
    (h6 : etherType m ≠ etherTypeIpv6) : isIke conf m = false := by
  rw [isIke, udpAt, if_neg h4, if_neg (fun h => h6 h.1)]
  rfl

/-- **ONE PACKET**: the filter's test is right, and stays in the segment, on the
    packets it serves. -/
theorem ikeTest_right_iff (m : Mbuf) :
    ((∀ r ∈ (ikeTest m).2, r.1 + r.2 ≤ m.dataLen) ∧ (ikeTest m).1 = isIke conf m)
      ↔ Served conf m := by
  rw [reads_inside_iff]
  by_cases h4 : etherType m = etherTypeIpv4
  · have h6 : etherType m ≠ etherTypeIpv6 :=
      fun h => etherTypeIpv6_ne (h.symm.trans h4)
    have hike := isIke_ipv4 conf h4
    constructor
    · rintro ⟨hin, heq⟩
      refine ⟨hin, fun _ hudp hport => ?_, fun h => absurd h h6⟩
      rw [ikeTest_udp h4 hudp] at heq
      have htest : isIke conf m = true := by
        rw [← heq, Bool.or_eq_true]
        exact hport
      obtain ⟨-, hstart, hat⟩ := hike.mp htest
      rw [ikeAt, Bool.and_eq_true, Bool.or_eq_true, Bool.and_eq_true] at hat
      exact ⟨hstart, of_decide_eq_true hat.1, hat.2.imp_right And.right⟩
    · rintro ⟨hin, hports, -⟩
      refine ⟨hin, ?_⟩
      by_cases hudp : SaysUdp m
      · rw [ikeTest_udp h4 hudp, Bool.eq_iff_iff, hike, Bool.or_eq_true]
        constructor
        · intro hport
          obtain ⟨hstart, hcover, hkind⟩ := hports h4 hudp hport
          refine ⟨hudp, hstart, ?_⟩
          rw [ikeAt, Bool.and_eq_true, Bool.or_eq_true, Bool.and_eq_true]
          refine ⟨decide_eq_true hcover, ?_⟩
          -- the marker is only asked for where port 500 is not there
          rcases hkind with h500 | hmark
          · exact .inl h500
          · exact hport.imp_right fun h => ⟨h, hmark⟩
        · rintro ⟨-, -, hat⟩
          rw [ikeAt, Bool.and_eq_true, Bool.or_eq_true, Bool.and_eq_true] at hat
          exact hat.2.imp_right And.left
      · rw [ikeTest_plain (fun h => hudp h.2)]
        exact (Bool.eq_false_iff.mpr fun h => hudp (hike.mp h).1).symm
  · rw [ikeTest_plain (fun h => h4 h.1)]
    constructor
    · rintro ⟨hin, heq⟩
      exact ⟨hin, fun h => absurd h h4, fun _ => heq.symm⟩
    · rintro ⟨hin, -, h6⟩
      refine ⟨hin, ?_⟩
      by_cases hv6 : etherType m = etherTypeIpv6
      · exact (h6 hv6).symm
      · exact (isIke_other conf h4 hv6).symm

/-! ## A burst -/

/-- What the loop adds to `pkts_new`. -/
theorem filterIke_new (kni : List PktId → PktId → Bool) (w : World)
    (pkts : List PktId) (s : IkeFilter) :
    (pkts.foldl (filterIkeOne kni w) s).pktsNew
      = s.pktsNew ++ pkts.filter fun p => !(ikeTest (w.mbuf p)).1 := by
  induction pkts generalizing s with
  | nil => exact (List.append_nil _).symm
  | cons p pkts ih =>
      rw [List.foldl_cons, ih, filterIkeOne]
      by_cases h : (ikeTest (w.mbuf p)).1 = true
      · rw [if_pos h, List.filter_cons_of_neg (by rw [h]; decide)]
        by_cases hk : kni s.handed p = true
        · rw [if_pos hk]
        · rw [if_neg hk]
      · rw [if_neg h, List.filter_cons_of_pos (by rw [Bool.eq_false_iff.mpr h]; rfl),
          List.append_assoc, List.singleton_append]

/-- What it hands over and frees, together. -/
theorem filterIke_gone (kni : List PktId → PktId → Bool) (w : World)
    (pkts : List PktId) (s : IkeFilter) :
    ((pkts.foldl (filterIkeOne kni w) s).handed
        ++ (pkts.foldl (filterIkeOne kni w) s).freed).Perm
      ((s.handed ++ s.freed) ++ pkts.filter fun p => (ikeTest (w.mbuf p)).1) := by
  induction pkts generalizing s with
  | nil => exact List.Perm.of_eq (List.append_nil _).symm
  | cons p pkts ih =>
      rw [List.foldl_cons]
      refine (ih _).trans ?_
      rw [filterIkeOne]
      by_cases h : (ikeTest (w.mbuf p)).1 = true
      · rw [if_pos h, List.filter_cons, if_pos h]
        by_cases hk : kni s.handed p = true
        · rw [if_pos hk]
          have hmid : (s.handed ++ [p] ++ s.freed).Perm (p :: (s.handed ++ s.freed)) := by
            rw [List.append_assoc, List.singleton_append]
            exact List.perm_middle
          exact (hmid.append_right _).trans List.perm_middle.symm
        · rw [if_neg hk]
          dsimp only
          rw [← List.append_assoc, List.append_assoc _ [p], List.singleton_append]
      · rw [if_neg h, List.filter_cons, if_neg h]

/-- **THE FILTER**: exactly where every packet of a burst is one it serves, it
    does right by the burst. -/
theorem filterIkePackets_right_iff (kni : List PktId → PktId → Bool)
    (pkts : List PktId) (w : World) :
    FilterRight conf w pkts (filterIkePackets kni pkts w).1
      ↔ ∀ p ∈ pkts, Served conf (w.mbuf p) := by
  have hnew : (filterIkePackets kni pkts w).1.pktsNew
      = pkts.filter fun p => !(ikeTest (w.mbuf p)).1 := filterIke_new kni w pkts {}
  have hgone : ((filterIkePackets kni pkts w).1.handed
      ++ (filterIkePackets kni pkts w).1.freed).Perm
        (pkts.filter fun p => (ikeTest (w.mbuf p)).1) := filterIke_gone kni w pkts {}
  constructor
  · rintro ⟨-, hkept, -, hin⟩ p hp
    refine (ikeTest_right_iff conf _).mp ⟨hin p hp, ?_⟩
    -- a packet of the burst is in both kept lists or in neither
    rw [hnew] at hkept
    have hmem : p ∈ pkts.filter (fun q => !(ikeTest (w.mbuf q)).1)
        ↔ p ∈ pkts.filter fun q => !isIke conf (w.mbuf q) := by rw [hkept]
    rw [List.mem_filter, List.mem_filter, and_iff_right hp, and_iff_right hp,
      ← Bool.eq_iff_iff] at hmem
    exact Bool.not_inj hmem
  · intro h
    have hright := fun p hp => (ikeTest_right_iff conf _).mpr (h p hp)
    have hkept : (filterIkePackets kni pkts w).1.pktsNew
        = pkts.filter fun p => !isIke conf (w.mbuf p) := by
      rw [hnew]
      exact List.filter_congr fun p hp => congrArg not (hright p hp).2
    refine ⟨?_, hkept, ?_, fun p hp => (hright p hp).1⟩
    · rw [← List.filter_congr fun p hp => (hright p hp).2]
      exact hgone
    · intro p hp hesp
      rw [hkept, List.mem_filter, hesp.not_ike]
      exact ⟨hp, rfl⟩

/-! ## ESP in UDP -/

/-- The settings with NAT traversal. -/
def natConf : PollConf := { optionConf with udpEncap := true }

/-- ESP in UDP: ports 4500, SPI 1, 28 bytes behind the UDP header. -/
def natEsp : Mbuf :=
  Mbuf.mid (fun i =>
    if i = 140 then 8 else if i = 142 then 0x45 else if i = 145 then 56
    else if i = 151 then ipprotoUdp else if i = 162 then 0x11 else if i = 163 then 0x94
    else if i = 164 then 0x11 else if i = 165 then 0x94 else if i = 173 then 1
    else 0) 70

set_option maxRecDepth 4096 in
/-- A packet `prepare_one_packet` takes for ESP in UDP leaves for the KNI. -/
theorem filter_steals :
    let w : World := { mbuf := fun _ => natEsp, sa := fun _ => {} }
    UdpEsp natConf natEsp ∧ HeadersInside natEsp
      ∧ (∃ m', prepareOnePacket natConf natEsp = some (.ipsec, m'))
      ∧ ∀ kni, ¬ FilterRight natConf w [0] (filterIkePackets kni [0] w).1 := by
  intro w
  have hesp : UdpEsp natConf natEsp := ⟨34, by decide, by decide, by decide, by decide⟩
  refine ⟨hesp, ⟨by decide, fun _ => ⟨by decide, fun _ => ⟨by decide, fun _ => by decide⟩⟩⟩,
    ⟨_, rfl⟩, fun kni h => ?_⟩
  have hkept := h.esp 0 (List.mem_singleton.mpr rfl) hesp
  -- the ports alone have sent it away
  have htest : (ikeTest (w.mbuf 0)).1 = true := by decide
  have hnew : (filterIkePackets kni [0] w).1.pktsNew = [] := by
    refine (filterIke_new kni w [0] {}).trans ?_
    rw [List.filter_cons, htest]
    rfl
  rw [hnew] at hkept
  cases hkept

end KniFilter
