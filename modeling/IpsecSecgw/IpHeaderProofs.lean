import IpsecSecgw.ClassifyProofs

/-! # Packets shorter than their headers

    `prepare_one_packet` trims a frame to the length its IP header gives, and
    looks neither at that length nor at the version and the header length
    again.  What it keeps begins with a complete IP header, with the fields the
    later stages read at fixed places, exactly when the frame was honest. -/

namespace IpHeader

open ByteStore SaModel MbufModel WorkerModel SecgwModel EspHeader Classify

variable {conf : PollConf}

/-! ## What later stages read -/

/-- The fields of the policy rules (`ipv4_defs`, `ip6_defs`) by place and size,
    counted from the IP header. -/
def aclFields4 : List (Nat × Nat) := [(9, 1), (12, 4), (16, 4), (20, 2), (22, 2)]

def aclFields6 : List (Nat × Nat) :=
  [(6, 1), (8, 4), (12, 4), (16, 4), (20, 4), (24, 4), (28, 4), (32, 4), (36, 4),
    (40, 2), (42, 2)]

/-- The fields read from the packets of an array: by the rules, for the route,
    and for the checksum. -/
def laterReads : PktClass → List (Nat × Nat)
  | .ip4 => aclFields4 ++ [(16, 4), (10, 2)]
  | .ip6 => aclFields6 ++ [(24, 16)]
  | _ => []

theorem laterReads_ip4_iff (n : Nat) :
    (∀ f ∈ laterReads .ip4, f.1 + f.2 ≤ n) ↔ 24 ≤ n := by
  constructor
  · intro h
    exact h (22, 2) (by decide)
  · intro h f hf
    have hall : ∀ g ∈ laterReads .ip4, g.1 + g.2 ≤ 24 := by decide
    exact Nat.le_trans (hall f hf) h

theorem laterReads_ip6_iff (n : Nat) :
    (∀ f ∈ laterReads .ip6, f.1 + f.2 ≤ n) ↔ 44 ≤ n := by
  constructor
  · intro h
    exact h (42, 2) (by decide)
  · intro h f hf
    have hall : ∀ g ∈ laterReads .ip6, g.1 + g.2 ≤ 44 := by decide
    exact Nat.le_trans (hall f hf) h

/-- The packet begins with a complete IPv4 header. -/
structure Complete4 (m : Mbuf) : Prop where
  version : ipV m.buf m.dataOff = 4
  ihl : 5 ≤ ipHl m.buf m.dataOff
  inside : ipHl m.buf m.dataOff * 4 ≤ m.dataLen

/-- The packet begins with a complete IPv6 header. -/
structure Complete6 (m : Mbuf) : Prop where
  version : ipV m.buf m.dataOff = 6
  inside : ipv6HdrLen ≤ m.dataLen

/-- `prepare_one_packet` comes back, and what it keeps begins with a complete
    header of its version and holds the fields read later. -/
def KeptComplete (conf : PollConf) (m : Mbuf) : Prop :=
  ∃ cls m', prepareOnePacket conf m = some (cls, m') ∧ (cls ≠ .freed →
    (etherType m = etherTypeIpv4 → Complete4 m')
      ∧ (etherType m = etherTypeIpv6 → Complete6 m')
      ∧ ∀ f ∈ laterReads cls, f.1 + f.2 ≤ m'.dataLen)

/-! ## Honest frames -/

/-- The packet goes to the ESP packets by its protocol or its ports. -/
def Encrypted4 (conf : PollConf) (m : Mbuf) : Prop :=
  m.buf (ipAt m + 9) = ipprotoEsp ∨ m.buf (ipAt m + 9) = ipprotoUdp
    ∧ conf.udpEncap = true
    ∧ isNatT m (ipAt m + ipHl m.buf (ipAt m) * 4) = true

def Encrypted6 (conf : PollConf) (m : Mbuf) (p : UInt8) (l : Nat) : Prop :=
  p = ipprotoEsp ∨ (p = ipprotoUdp ∧ ip6Len m ≤ l) ∧ conf.udpEncap = true
    ∧ isNatT m (ipAt m + l) = true

/-- A frame whose lengths and version are what they seem: there is an Ethernet
    header, the version fits the ether type, the IP packet holds its header,
    and four bytes more unless it is encrypted. -/
structure Honest (conf : PollConf) (m : Mbuf) : Prop where
  frame : etherType m = etherTypeIpv4 ∨ etherType m = etherTypeIpv6 →
    rteEtherHdrLen ≤ m.dataLen
  header4 : etherType m = etherTypeIpv4 → ipV m.buf (ipAt m) = 4
    ∧ 5 ≤ ipHl m.buf (ipAt m) ∧ ipHl m.buf (ipAt m) * 4 ≤ ip4Len m
  ports4 : etherType m = etherTypeIpv4 → ¬ Encrypted4 conf m → 24 ≤ ip4Len m
  header6 : etherType m = etherTypeIpv6 → ∀ p l, FrameWalk conf m p l →
    l ≤ ip6Len m → ipV m.buf (ipAt m) = 6
  ports6 : etherType m = etherTypeIpv6 → ∀ p l, FrameWalk conf m p l →
    l ≤ ip6Len m → ¬ Encrypted6 conf m p l → 44 ≤ ip6Len m

theorem ip4Class_eq (m : Mbuf) [Decidable (Encrypted4 conf m)] :
    ip4Class conf m = if Encrypted4 conf m then .ipsec else .ip4 := by
  rw [ip4Class]
  by_cases hesp : m.buf (ipAt m + 9) = ipprotoEsp
  · rw [if_pos hesp, if_pos (.inl hesp)]
  · rw [if_neg hesp]
    refine if_congr ?_ rfl rfl
    rw [Encrypted4]
    simp only [hesp, false_or]

theorem ip6Class_eq (m : Mbuf) {p : UInt8} {l : Nat} (h : l ≤ ip6Len m)
    [Decidable (Encrypted6 conf m p l)] :
    ip6Class conf m p l = if Encrypted6 conf m p l then .ipsec else .ip6 := by
  rw [ip6Class, if_neg (Nat.not_lt.mpr h)]
  by_cases hesp : p = ipprotoEsp
  · rw [if_pos hesp, if_pos (.inl hesp)]
  · rw [if_neg hesp]
    refine if_congr ?_ rfl rfl
    rw [Encrypted6]
    simp only [hesp, false_or]

/-- The walk begins behind the fixed header. -/
theorem Walk.le {b : Nat → UInt8} {a n : Nat} {p p' : UInt8} {l l' : Nat}
    (h : Walk conf b a n p l p' l') : l ≤ l' := by
  induction h with
  | stop _ => exact Nat.le_refl _
  | pass _ _ _ _ ih => omega

/-! ## The frames one by one -/

/-- Without an Ethernet header a null pointer is followed. -/
theorem prepareOnePacket_short {m : Mbuf} (hlen : ¬ rteEtherHdrLen ≤ m.dataLen)
    (htype : etherType m = etherTypeIpv4 ∨ etherType m = etherTypeIpv6) :
    prepareOnePacket conf m = none := by
  have hnone := rtePktmbufAdj_none (show rteEtherHdrLen < 0x10000 by decide) hlen
  rw [prepareOnePacket, hnone]
  rcases htype with h | h
  · rw [if_pos h]
    rfl
  · rw [if_neg (by rw [h]; decide), if_pos h]
    rfl

/-- A frame of another type is freed. -/
theorem prepareOnePacket_other {m : Mbuf} (h4 : etherType m ≠ etherTypeIpv4)
    (h6 : etherType m ≠ etherTypeIpv6) : prepareOnePacket conf m = some (.freed, m) := by
  rw [prepareOnePacket, if_neg h4, if_neg h6]
  rfl

theorem keptComplete4_iff {m : Mbuf} (hlen : rteEtherHdrLen ≤ m.dataLen)
    (htype : etherType m = etherTypeIpv4) :
    KeptComplete conf m
      ↔ (ipV m.buf (ipAt m) = 4 ∧ 5 ≤ ipHl m.buf (ipAt m)
          ∧ ipHl m.buf (ipAt m) * 4 ≤ ip4Len m)
        ∧ (¬ Encrypted4 conf m → 24 ≤ ip4Len m) := by
  classical
  obtain ⟨m1, hcall, hprep⟩ := prepareOnePacket_ipv4 conf hlen htype
  have hkept := ip4Class_kept conf m
  have hother : etherType m ≠ etherTypeIpv6 := by
    rw [htype]
    decide
  have hcomplete : Complete4 m1 ↔ ipV m.buf (ipAt m) = 4 ∧ 5 ≤ ipHl m.buf (ipAt m)
      ∧ ipHl m.buf (ipAt m) * 4 ≤ ip4Len m := by
    rw [← hprep.buf, ← hprep.dataOff, ← hprep.dataLen]
    exact ⟨fun h => ⟨h.version, h.ihl, h.inside⟩, fun h => ⟨h.1, h.2.1, h.2.2⟩⟩
  have hfields : (∀ f ∈ laterReads (ip4Class conf m), f.1 + f.2 ≤ m1.dataLen)
      ↔ (¬ Encrypted4 conf m → 24 ≤ ip4Len m) := by
    rw [ip4Class_eq, hprep.dataLen]
    split
    · rename_i henc
      exact ⟨fun _ hnot => absurd henc hnot, fun _ f hf => by cases hf⟩
    · rename_i henc
      rw [laterReads_ip4_iff]
      exact ⟨fun h _ => h, fun h => h henc⟩
  rw [← hcomplete, ← hfields]
  constructor
  · rintro ⟨cls, m', hcall', h⟩
    obtain ⟨rfl, rfl⟩ := Prod.mk.inj (Option.some.inj (hcall.symm.trans hcall'))
    exact ⟨(h hkept).1 htype, (h hkept).2.2⟩
  · rintro ⟨hheader, hreads⟩
    exact ⟨_, m1, hcall, fun _ => ⟨fun _ => hheader, fun h => absurd h hother, hreads⟩⟩

theorem keptComplete6_iff (hlaw : KnowsExtensions conf) {m : Mbuf}
    (hlen : rteEtherHdrLen ≤ m.dataLen) (htype : etherType m = etherTypeIpv6)
    {p : UInt8} {l : Nat} (hw : FrameWalk conf m p l) :
    KeptComplete conf m ↔ (l ≤ ip6Len m → ipV m.buf (ipAt m) = 6
      ∧ (¬ Encrypted6 conf m p l → 44 ≤ ip6Len m)) := by
  classical
  obtain ⟨m1, hcall, hprep⟩ := prepareOnePacket_ipv6 hlaw hlen htype hw
  have hother : etherType m ≠ etherTypeIpv4 := by
    rw [htype]
    decide
  by_cases hin : l ≤ ip6Len m
  · have hkept : ip6Class conf m p l ≠ .freed := by
      rw [ip6Class_eq m hin]
      split <;> decide
    have hprep := hprep hkept
    have hlong : ipv6HdrLen ≤ m1.dataLen := by
      rw [hprep.dataLen]
      exact Nat.le_trans (Walk.le hw) hin
    have hcomplete : Complete6 m1 ↔ ipV m.buf (ipAt m) = 6 := by
      rw [← hprep.buf, ← hprep.dataOff]
      exact ⟨fun h => h.version, fun h => ⟨h, hlong⟩⟩
    have hfields : (∀ f ∈ laterReads (ip6Class conf m p l), f.1 + f.2 ≤ m1.dataLen)
        ↔ (¬ Encrypted6 conf m p l → 44 ≤ ip6Len m) := by
      rw [ip6Class_eq m hin, hprep.dataLen]
      split
      · rename_i henc
        exact ⟨fun _ hnot => absurd henc hnot, fun _ f hf => by cases hf⟩
      · rename_i henc
        rw [laterReads_ip6_iff]
        exact ⟨fun h _ => h, fun h => h henc⟩
    rw [← hcomplete, ← hfields]
    constructor
    · rintro ⟨cls, m', hcall', h⟩ _
      obtain ⟨rfl, rfl⟩ := Prod.mk.inj (Option.some.inj (hcall.symm.trans hcall'))
      exact ⟨(h hkept).2.1 htype, (h hkept).2.2⟩
    · intro h
      obtain ⟨hheader, hreads⟩ := h hin
      exact ⟨_, m1, hcall, fun _ => ⟨fun h => absurd h hother, fun _ => hheader, hreads⟩⟩
  · have hfreed : ip6Class conf m p l = .freed := by
      rw [ip6Class, if_pos (Nat.not_le.mp hin)]
    rw [hfreed] at hcall
    exact ⟨fun _ h => absurd h hin, fun _ => ⟨_, m1, hcall, fun h => absurd rfl h⟩⟩

/-- **NO SHORT PACKETS**: what is kept of a frame is complete exactly when the
    frame is honest. -/
theorem keptComplete_iff_honest (hlaw : KnowsExtensions conf) (m : Mbuf) :
    KeptComplete conf m ↔ Honest conf m := by
  by_cases hlen : rteEtherHdrLen ≤ m.dataLen
  · by_cases h4 : etherType m = etherTypeIpv4
    · have hother : etherType m ≠ etherTypeIpv6 := by
        rw [h4]
        decide
      rw [keptComplete4_iff hlen h4]
      constructor
      · rintro ⟨hheader, hports⟩
        exact ⟨fun _ => hlen, fun _ => hheader, fun _ => hports,
          fun h => absurd h hother, fun h => absurd h hother⟩
      · intro h
        exact ⟨h.header4 h4, h.ports4 h4⟩
    · by_cases h6 : etherType m = etherTypeIpv6
      · -- there is one walk over the extension headers, so one verdict
        obtain ⟨p, l, hw⟩ := walk_total hlaw m.buf (ipAt m) (ip6Len m)
          (m.buf (ipAt m + 6)) ipv6HdrLen
        rw [keptComplete6_iff hlaw hlen h6 hw]
        constructor
        · intro h
          have hsame : ∀ p' l', FrameWalk conf m p' l' → p' = p ∧ l' = l :=
            fun p' l' hw' => hw'.unique hw
          refine ⟨fun _ => hlen, fun h => absurd h h4, fun h => absurd h h4, ?_, ?_⟩
          · intro _ p' l' hw' hin
            obtain ⟨rfl, rfl⟩ := hsame p' l' hw'
            exact (h hin).1
          · intro _ p' l' hw' hin
            obtain ⟨rfl, rfl⟩ := hsame p' l' hw'
            exact (h hin).2
        · intro h hin
          exact ⟨h.header6 h6 p l hw hin, h.ports6 h6 p l hw hin⟩
      · refine ⟨fun _ => ⟨fun _ => hlen, fun h => absurd h h4, fun h => absurd h h4,
          fun h => absurd h h6, fun h => absurd h h6⟩, fun _ => ?_⟩
        -- frames of other types are freed
        exact ⟨_, m, prepareOnePacket_other h4 h6, fun h => absurd rfl h⟩
  · by_cases htype : etherType m = etherTypeIpv4 ∨ etherType m = etherTypeIpv6
    · constructor
      · -- the header is taken off without a look at the length
        rintro ⟨cls, m', hcall, -⟩
        rw [prepareOnePacket_short hlen htype] at hcall
        cases hcall
      · intro h
        exact absurd (h.frame htype) hlen
    · obtain ⟨h4, h6⟩ := not_or.mp htype
      refine ⟨fun _ => ⟨fun h => absurd h htype, fun h => absurd h h4,
        fun h => absurd h h4, fun h => absurd h h6, fun h => absurd h h6⟩, fun _ => ?_⟩
      exact ⟨_, m, prepareOnePacket_other h4 h6, fun h => absurd rfl h⟩

/-! ## A total length of zero -/

/-- A frame of 54 bytes with an IPv4 header of this total length, and TCP. -/
def ipv4Tcp (len : UInt8) : Mbuf :=
  Mbuf.mid (store (fun _ => 0) 140
    [8, 0, 0x45, 0, 0, len, 0, 0, 0, 0, 64, 6, 0, 0, 10, 0, 0, 1, 10, 0, 0, 2]) 54

theorem keptComplete_tcp :
    KnowsExtensions encapConf
      ∧ (KeptComplete encapConf (ipv4Tcp 40) ↔ Honest encapConf (ipv4Tcp 40)) :=
  ⟨encapConf_knows, keptComplete_iff_honest encapConf_knows (ipv4Tcp 40)⟩

/-- **AN EMPTY PACKET** is kept: the total length is zero, and nothing is left of
    the frame. -/
theorem empty_packet_kept :
    (prepareOnePacket encapConf (ipv4Tcp 0)).map (fun r => (r.1, r.2.dataLen))
        = some (.ip4, 0)
      ∧ ¬ KeptComplete encapConf (ipv4Tcp 0) := by
  have hrun : (prepareOnePacket encapConf (ipv4Tcp 0)).map (fun r => (r.1, r.2.dataLen))
      = some (.ip4, 0) := by decide +kernel
  refine ⟨hrun, ?_⟩
  rintro ⟨cls, m', hcall, h⟩
  rw [hcall] at hrun
  obtain ⟨rfl, hlen⟩ := Prod.mk.inj (Option.some.inj hrun)
  have hread := (h (by decide)).2.2 (22, 2) (by decide)
  rw [show m'.dataLen = 0 from hlen] at hread
  exact absurd hread (by decide)

end IpHeader
