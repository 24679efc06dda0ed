import IpsecSecgw.KniModel
import IpsecSecgw.Lib.Outcome

/-! # Indices of the statistics

    The array of the statistics has four entries, and nobody asks whether a port has
    one.  `kni_filter_ike_packets` uses the route of the packet, which is 32 where
    there is none, and `dpi` the port the packet came from. -/

namespace Kni

open ByteStore MbufModel IpsecModel WorkerModel SecgwModel Stats Outcome

/-! ## Counters -/

theorem count_ok_iff (portid : UInt16) (stats : AppStats) (c : Counter) :
    (∃ stats', count portid stats c = .ok stats') ↔ portid.toNat < nbAppStats := by
  by_cases h : portid.toNat < nbAppStats
  · exact iff_of_true ⟨_, dif_pos h⟩ h
  · refine iff_of_false ?_ h
    rintro ⟨stats', hstats'⟩
    rw [count, dif_neg h] at hstats'
    cases hstats'

theorem count_behind {portid : UInt16} {stats : AppStats} {c : Counter}
    (h : ¬portid.toNat < nbAppStats) : count portid stats c = .error (.index portid) :=
  dif_neg h

/-- **DPI** counts the packets of the first four ports. -/
theorem dpiStats_ok_iff (m : Mbuf) (portid : UInt16) (stats : AppStats) :
    (∃ stats', dpiStats m portid stats = .ok stats') ↔ portid.toNat < nbAppStats := by
  refine (foldlM_ok_iff (count_ok_iff portid) (dpiCounters m) stats).trans ?_
  -- the first counter is raised for every packet
  exact ⟨fun h => h .eth List.mem_cons_self, fun h _ _ => h⟩

/-! ## A packet -/

section Filter

variable {takes : List (UInt16 × PktId) → UInt16 → PktId → Bool} {mbuf : PktId → Mbuf}
  {portId : UInt16} {rt : RouteTable}

/-- The address the packet goes to. -/
def dstIp (m : Mbuf) : UInt32 :=
  UInt32.ofNat (ofBe (load m.buf (m.dataOff + rteEtherHdrLen + 16) 4))

/-- A packet that goes out has a route to one of the first four ports. -/
def Routed (rt : RouteTable) (m : Mbuf) : Prop :=
  goesOut m = true → ∃ hop, rt.rt4 (dstIp m) = some hop ∧ hop.toUInt16.toNat < nbAppStats

theorem getRoute_lt_iff (m : Mbuf) :
    (getRoute m rt .plainIpv4).toNat < nbAppStats
      ↔ ∃ hop, rt.rt4 (dstIp m) = some hop ∧ hop.toUInt16.toNat < nbAppStats := by
  have hroute : getRoute m rt .plainIpv4
      = ((rt.rt4 (dstIp m)).map UInt32.toUInt16).getD rteMaxEthports := by
    show route4Pkt m rt = _
    unfold route4Pkt dstIp
    dsimp only
    generalize rt.rt4 _ = hop?
    cases hop? with
    | none => rfl
    | some hop => rfl
  rw [hroute]
  cases rt.rt4 (dstIp m) with
  | none =>
      refine iff_of_false (by decide) ?_
      rintro ⟨_, h, -⟩
      cases h
  | some hop =>
      constructor
      · intro h
        exact ⟨hop, rfl, h⟩
      · rintro ⟨_, hhop, h⟩
        obtain rfl := Option.some.inj hhop
        exact h

/-- What a round has done with a packet. -/
inductive Round (mbuf : PktId → Mbuf) (rt : RouteTable) (m : PktId) (s : KniState) :
    KniState → Prop
  | freed {s'} (hsent : s'.sent = s.sent) (hoffered : s'.offered = s.offered)
      (hfreed : s'.freed = s.freed ++ [m]) : Round mbuf rt m s s'
  | sent {s'} (hport : (getRoute (mbuf m) rt .plainIpv4).toNat < nbAppStats)
      (hoffered : s'.offered = s.offered ++ [(getRoute (mbuf m) rt .plainIpv4, m)])
      (hsent : s'.sent = s.sent ++ [(getRoute (mbuf m) rt .plainIpv4, m)])
      (hfreed : s'.freed = s.freed) : Round mbuf rt m s s'
  | dropped {s'} (hport : (getRoute (mbuf m) rt .plainIpv4).toNat < nbAppStats)
      (hoffered : s'.offered = s.offered ++ [(getRoute (mbuf m) rt .plainIpv4, m)])
      (hsent : s'.sent = s.sent)
      (hfreed : s'.freed = s.freed ++ [m]) : Round mbuf rt m s s'

/-- **ROUND**. -/
theorem kniFilterIkeOne_round (s : KniState) (m : PktId) :
    Ends (kniFilterIkeOne takes mbuf portId rt s m) (fun _ => True) (Round mbuf rt m s) := by
  rw [kniFilterIkeOne]
  by_cases hout : goesOut (mbuf m) = true
  · rw [if_pos hout]
    by_cases hport : (getRoute (mbuf m) rt .plainIpv4).toNat < nbAppStats
    · obtain ⟨stats, hstats⟩ :=
        (count_ok_iff (getRoute (mbuf m) rt .plainIpv4) s.appStatsData .udpTypeIKEv2).mpr hport
      simp only [hstats, Bind.bind, Except.bind]
      split
      · exact .sent hport rfl rfl rfl
      · exact .dropped hport rfl rfl rfl
    · simp only [count_behind hport]
      exact trivial
  · rw [if_neg hout]
    exact .freed rfl rfl rfl

theorem kniFilterIkeOne_ok_iff (s : KniState) (m : PktId) :
    (∃ s', kniFilterIkeOne takes mbuf portId rt s m = .ok s') ↔ Routed rt (mbuf m) := by
  rw [kniFilterIkeOne]
  by_cases hout : goesOut (mbuf m) = true
  · rw [if_pos hout, Routed, ← getRoute_lt_iff, forall_prop_of_true hout,
      ← count_ok_iff _ s.appStatsData .udpTypeIKEv2]
    cases hcount : count (getRoute (mbuf m) rt .plainIpv4) s.appStatsData .udpTypeIKEv2 with
    | ok stats =>
        refine iff_of_true ?_ ⟨stats, rfl⟩
        simp only [hcount, Bind.bind, Except.bind]
        split
        · exact ⟨_, rfl⟩
        · exact ⟨_, rfl⟩
    | error e =>
        simp only [hcount, Bind.bind, Except.bind]
        refine iff_of_false ?_ ?_
        · rintro ⟨_, h⟩
          cases h
        · rintro ⟨_, h⟩
          cases h
  · rw [if_neg hout]
    exact iff_of_true ⟨_, rfl⟩ (fun h => absurd h hout)

/-! ## A burst -/

/-- The packets `done` have each been sent or freed, and offered to their port. -/
structure Handled (mbuf : PktId → Mbuf) (rt : RouteTable) (done : List PktId) (s : KniState) :
    Prop where
  once : ∀ p, (s.sent.map Prod.snd).count p + s.freed.count p = done.count p
  offered : ∀ x ∈ s.offered,
    x.1 = getRoute (mbuf x.2) rt .plainIpv4 ∧ x.1.toNat < nbAppStats
  sent : ∀ x ∈ s.sent, x ∈ s.offered

theorem Handled.round {done : List PktId} {m : PktId} {s s' : KniState}
    (h : Handled mbuf rt done s) (hround : Round mbuf rt m s s') :
    Handled mbuf rt (done ++ [m]) s' := by
  have hone := h.once
  cases hround with
  | freed hsent hoffered hfreed =>
      refine ⟨?_, hoffered ▸ h.offered, hoffered ▸ hsent ▸ h.sent⟩
      intro p
      rw [hsent, hfreed, List.count_append, List.count_append, ← hone p, Nat.add_assoc]
  | sent hport hoffered hsent hfreed =>
      refine ⟨?_, ?_, ?_⟩
      · intro p
        rw [hsent, hfreed, List.map_append, List.count_append, List.count_append, ← hone p]
        show _ + List.count p [m] + _ = _
        omega
      · intro x hx
        rw [hoffered, List.mem_append, List.mem_singleton] at hx
        rcases hx with hx | rfl
        · exact h.offered x hx
        · exact ⟨rfl, hport⟩
      · intro x hx
        rw [hsent, List.mem_append] at hx
        rw [hoffered, List.mem_append]
        exact hx.imp_left (h.sent x)
  | dropped hport hoffered hsent hfreed =>
      refine ⟨?_, ?_, ?_⟩
      · intro p
        rw [hsent, hfreed, List.count_append, List.count_append, ← hone p, Nat.add_assoc]
      · intro x hx
        rw [hoffered, List.mem_append, List.mem_singleton] at hx
        rcases hx with hx | rfl
        · exact h.offered x hx
        · exact ⟨rfl, hport⟩
      · intro x hx
        rw [hsent] at hx
        rw [hoffered, List.mem_append]
        exact Or.inl (h.sent x hx)

theorem kniFilterIkePackets_handled (pkts : List PktId) (appStatsData : AppStats)
    (kniStats : UInt16 → KniInterfaceStats) :
    Ends (kniFilterIkePackets takes mbuf portId rt pkts appStatsData kniStats)
      (fun _ => True) (Handled mbuf rt pkts) := by
  have hloop := ends_foldlM (E := fun _ => True) (f := kniFilterIkeOne takes mbuf portId rt)
    (P := fun l s => ∃ done, done ++ l = pkts ∧ Handled mbuf rt done s)
    (l := pkts) (b := { appStatsData, kniStats }) ?_ ?_
  · refine hloop.mono (fun _ h => h) ?_
    rintro s ⟨done, hdone, h⟩
    rw [List.append_nil] at hdone
    exact hdone ▸ h
  · exact ⟨[], rfl, fun _ => rfl, fun _ h => absurd h List.not_mem_nil,
      fun _ h => absurd h List.not_mem_nil⟩
  · rintro m l s ⟨done, hdone, h⟩
    refine (kniFilterIkeOne_round s m).mono (fun _ h => h) ?_
    intro s' hround
    exact ⟨done ++ [m], by rw [List.append_assoc]; exact hdone, h.round hround⟩

/-- What is owed to a burst: no index out of range, every packet sent or freed once,
    and one without a route freed and never offered to a port. -/
def FilterRight (mbuf : PktId → Mbuf) (rt : RouteTable) (pkts : List PktId)
    (r : Except StatFault KniState) : Prop :=
  ∃ s, r = .ok s
    ∧ (∀ p, (s.sent.map Prod.snd).count p + s.freed.count p = pkts.count p)
    ∧ ∀ p ∈ pkts, getRoute (mbuf p) rt .plainIpv4 = rteMaxEthports →
        p ∈ s.freed ∧ ∀ port, (port, p) ∉ s.offered

theorem Handled.no_route {pkts : List PktId} {s : KniState} (h : Handled mbuf rt pkts s)
    {p : PktId} (hp : p ∈ pkts) (hroute : getRoute (mbuf p) rt .plainIpv4 = rteMaxEthports) :
    p ∈ s.freed ∧ ∀ port, (port, p) ∉ s.offered := by
  have hoffered : ∀ port, (port, p) ∉ s.offered := by
    intro port hx
    obtain ⟨hport, hlt⟩ := h.offered _ hx
    have h32 : port = rteMaxEthports := hport.trans hroute
    have hbehind : ¬rteMaxEthports.toNat < nbAppStats := by decide
    exact hbehind (h32 ▸ hlt)
  refine ⟨?_, hoffered⟩
  have hsent : (s.sent.map Prod.snd).count p = 0 := by
    rw [List.count_eq_zero]
    intro hmem
    obtain ⟨x, hx, rfl⟩ := List.mem_map.mp hmem
    exact hoffered x.1 (h.sent x hx)
  have hone := h.once p
  have hpos := List.count_pos_iff.mpr hp
  exact List.count_pos_iff.mp (by omega)

theorem kniFilterIkePackets_right_iff (pkts : List PktId) (appStatsData : AppStats)
    (kniStats : UInt16 → KniInterfaceStats) :
    FilterRight mbuf rt pkts (kniFilterIkePackets takes mbuf portId rt pkts appStatsData kniStats)
      ↔ ∀ p ∈ pkts, Routed rt (mbuf p) := by
  refine Iff.trans ?_ (foldlM_ok_iff (f := kniFilterIkeOne takes mbuf portId rt)
    kniFilterIkeOne_ok_iff pkts { appStatsData, kniStats })
  constructor
  · rintro ⟨s, hs, -⟩
    exact ⟨s, hs⟩
  · rintro ⟨s, hs⟩
    have h := (kniFilterIkePackets_handled pkts appStatsData kniStats).of_ok hs
    exact ⟨s, hs, h.once, fun p hp hroute => h.no_route hp hroute⟩

end Filter

/-! ## Both -/

/-- **INDICES**: the burst of the kernel and a received packet are treated as they must
    be exactly where all IKE has a route to one of the first four ports and the packet
    came from one of these. -/
theorem index_below_iff (takes : List (UInt16 × PktId) → UInt16 → PktId → Bool)
    (mbuf : PktId → Mbuf) (portId : UInt16) (rt : RouteTable) (pkts : List PktId)
    (appStatsData : AppStats) (kniStats : UInt16 → KniInterfaceStats)
    (m : Mbuf) (portid : UInt16) :
    (FilterRight mbuf rt pkts
        (kniFilterIkePackets takes mbuf portId rt pkts appStatsData kniStats)
      ∧ ∃ stats, dpiStats m portid appStatsData = .ok stats)
      ↔ (∀ p ∈ pkts, Routed rt (mbuf p)) ∧ portid.toNat < nbAppStats :=
  and_congr (kniFilterIkePackets_right_iff pkts appStatsData kniStats)
    (dpiStats_ok_iff m portid appStatsData)

/-- IKE to 10.0.0.2. -/
def ikePacket : Mbuf :=
  Mbuf.mid (store (fun _ => 0) 140
    [0x08, 0, 0x45, 0, 0, 28, 0, 0, 0, 0, 64, 17, 0, 0, 10, 0, 0, 1, 10, 0, 0, 2,
      1, 0xf4, 1, 0xf4, 0, 8, 0, 0]) 42

/-- Without a route the index is 32. -/
theorem ike_dropped_route :
    kniFilterIkePackets (fun _ _ _ => true) (fun _ => ikePacket) 0 ⟨fun _ => none, fun _ => none⟩
      [0] (.replicate 4 fun _ => 0) (fun _ => {}) = .error (.index 32) := by
  have hout : goesOut ikePacket = true := by decide
  rw [kniFilterIkePackets, List.foldlM_cons, kniFilterIkeOne, if_pos hout]
  rfl

/-- IKE without a route, and a packet from the fifth port. -/
theorem ike_without_route :
    ¬FilterRight (fun _ => ikePacket) ⟨fun _ => none, fun _ => none⟩ [0]
      (kniFilterIkePackets (fun _ _ _ => true) (fun _ => ikePacket) 0
        ⟨fun _ => none, fun _ => none⟩ [0] (.replicate 4 fun _ => 0) (fun _ => {}))
    ∧ dpiStats ikePacket 4 (.replicate 4 fun _ => 0) = .error (.index 4) := by
  constructor
  · rw [ike_dropped_route]
    rintro ⟨_, h, -⟩
    cases h
  · rw [dpiStats, dpiCounters, List.foldlM_cons, count_behind (by decide)]
    rfl

end Kni
