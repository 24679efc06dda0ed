import IpsecSecgw.Lib.Fill
import IpsecSecgw.VectorModel
import IpsecSecgw.WorkerProofs

/-! # What a vector function leaves in memory

    The arrays of the vector functions hold the lists of `WorkerModel`: one
    lemma a loop says that a round stores what the list function appends, that
    the arrays have room for it, and that it is written behind what is still to
    be read.  So no store goes wrong, and the vector ends with the packets the
    list functions forward (`inbound_ends`, `outbound_ends`).

    On the lists, every packet is sent or freed once, goes where its policy and
    its route or its SA send it, and the attributes say whether the ports are
    all the same. -/

namespace VectorModel

open SaModel MbufModel WorkerModel Collect Outcome Slots Fill

variable (g : Globals) (ctx : EvCtx) (rt : RouteTable)

/-- No store goes wrong. -/
def never (_ : VecFault) : Prop := False

theorem exists_of_never {α : Type} {x : Except VecFault α} {P : α → Prop}
    (h : Ends x never P) : ∃ a, x = .ok a ∧ P a := by
  cases x with
  | ok a => exact ⟨a, rfl, h⟩
  | error e => exact h.elim

/-! ## Arrays that hold lists -/

/-- The packets in use are those of the list. -/
structure HoldsPkts (t : TrafficType) (l : List Mbuf) : Prop where
  num : t.num = l.length
  pkts : Filled t.pkts l

/-- Packets with the pointers for classification. -/
structure HoldsData (t : TrafficType) (l : List (Mbuf × Nat)) : Prop where
  pkts : HoldsPkts t (l.map Prod.fst)
  data : Filled t.data (l.map Prod.snd)

/-- Packets with indices. -/
structure HoldsRes (t : TrafficType) (l : List (Mbuf × UInt32)) : Prop where
  pkts : HoldsPkts t (l.map Prod.fst)
  res : Filled t.res (l.map Prod.snd)

theorem HoldsData.num {t : TrafficType} {l : List (Mbuf × Nat)} (h : HoldsData t l) :
    t.num = l.length := by
  rw [h.pkts.num, List.length_map]

theorem HoldsRes.num {t : TrafficType} {l : List (Mbuf × UInt32)} (h : HoldsRes t l) :
    t.num = l.length := by
  rw [h.pkts.num, List.length_map]

theorem holdsData_nil {t : TrafficType} (h : t.num = 0) : HoldsData t [] :=
  ⟨⟨h, filled_nil _⟩, filled_nil _⟩

theorem holdsRes_nil {t : TrafficType} (h : t.num = 0) : HoldsRes t [] :=
  ⟨⟨h, filled_nil _⟩, filled_nil _⟩

theorem HoldsData.put {t : TrafficType} {l : List (Mbuf × Nat)} (h : HoldsData t l)
    (hroom : l.length < trafficSize) (pkt : Mbuf) (nlp : Nat) :
    Ends (t.putData pkt nlp) never fun t' => HoldsData t' (l ++ [(pkt, nlp)]) := by
  have hnum := h.num
  rw [TrafficType.putData, TrafficType.setPkt, if_neg (by rw [hnum]; omega)]
  refine ends_ok ⟨⟨?_, ?_⟩, ?_⟩
  · rw [List.length_map, List.length_append, List.length_singleton, hnum]
  · have hpkts := h.pkts.pkts.concat pkt
    rw [List.length_map] at hpkts
    rw [List.map_append, hnum]
    exact hpkts
  · have hdata := h.data.concat nlp
    rw [List.length_map] at hdata
    rw [List.map_append, hnum]
    exact hdata

theorem HoldsRes.put {t : TrafficType} {l : List (Mbuf × UInt32)} (h : HoldsRes t l)
    (hroom : l.length < trafficSize) (pkt : Mbuf) (idx : UInt32) :
    Ends (t.putRes pkt idx) never fun t' => HoldsRes t' (l ++ [(pkt, idx)]) := by
  have hnum := h.num
  rw [TrafficType.putRes, TrafficType.setPkt, if_neg (by rw [hnum]; omega)]
  refine ends_ok ⟨⟨?_, ?_⟩, ?_⟩
  · rw [List.length_map, List.length_append, List.length_singleton, hnum]
  · have hpkts := h.pkts.pkts.concat pkt
    rw [List.length_map] at hpkts
    rw [List.map_append, hnum]
    exact hpkts
  · have hres := h.res.concat idx
    rw [List.length_map] at hres
    rw [List.map_append, hnum]
    exact hres

/-! ## Collecting -/

/-- The arrays and the packets freed are those of the lists. -/
structure Traffic (c : Collecting) (w : VecTraffic) : Prop where
  ip4 : HoldsData c.t.ip4 w.ip4
  ip6 : HoldsData c.t.ip6 w.ip6
  ipsec : HoldsRes c.t.ipsec w.ipsec
  freed : c.freed = w.freed

theorem traffic_reset (stack : IpsecTraffic) : Traffic ⟨stack.reset, 0, []⟩ {} where
  ip4 := holdsData_nil rfl
  ip6 := holdsData_nil rfl
  ipsec := holdsRes_nil rfl
  freed := rfl

/-- How many packets there are. -/
def total (w : VecTraffic) : Nat :=
  w.ip4.length + w.ip6.length + w.ipsec.length + w.freed.length

theorem total_classifyPkt (w : VecTraffic) (pkt : Mbuf) :
    total (WorkerModel.classifyPkt w pkt) = total w + 1 := by
  rw [WorkerModel.classifyPkt, total, total]
  generalize processIpsecGetPktType pkt = r
  obtain ⟨type, nlp⟩ := r
  cases type <;> simp only [List.length_append, List.length_singleton] <;> omega

theorem total_free (w : VecTraffic) (pkt : Mbuf) :
    total { w with freed := w.freed ++ [pkt] } = total w + 1 := by
  show w.ip4.length + w.ip6.length + w.ipsec.length + (w.freed ++ [pkt]).length
    = total w + 1
  rw [List.length_append, ← Nat.add_assoc]
  rfl

theorem classifyPkt_ends {c : Collecting} {w : VecTraffic} (h : Traffic c w)
    (hroom : total w < trafficSize) (pkt : Mbuf) :
    Ends (classifyPkt c pkt) never fun c' =>
      Traffic c' (WorkerModel.classifyPkt w pkt) ∧ c'.collected = c.collected := by
  rw [total] at hroom
  rw [classifyPkt, WorkerModel.classifyPkt]
  generalize processIpsecGetPktType pkt = r
  obtain ⟨type, nlp⟩ := r
  have hfree : Traffic (c.freePkts pkt) { w with freed := w.freed ++ [pkt] } :=
    ⟨h.ip4, h.ip6, h.ipsec, congrArg (· ++ [pkt]) h.freed⟩
  cases type with
  | plainIpv4 =>
      refine (h.ip4.put (by omega) pkt nlp).bind ?_
      intro t ht
      exact ends_ok ⟨⟨ht, h.ip6, h.ipsec, h.freed⟩, rfl⟩
  | plainIpv6 =>
      refine (h.ip6.put (by omega) pkt nlp).bind ?_
      intro t ht
      exact ends_ok ⟨⟨h.ip4, ht, h.ipsec, h.freed⟩, rfl⟩
  | ipsecIpv4 => exact ends_ok ⟨hfree, rfl⟩
  | ipsecIpv6 => exact ends_ok ⟨hfree, rfl⟩
  | invalid => exact ends_ok ⟨hfree, rfl⟩

/-- The loop over the vector has taken so many packets. -/
structure Taken (w : VecTraffic) (n : Nat) (c : Collecting) : Prop where
  traffic : Traffic c w
  collected : c.collected = n
  total : total w = n

/-- The packets of a vector. -/
def RteEventVector.packets (vec : RteEventVector) : List Mbuf :=
  cells vec.mbufs vec.nbElem

/-- **COLLECTING**: a loop whose rounds do what the list function does takes
    all packets of a vector for which there is room. -/
theorem collect_ends {one : Collecting → Nat → Except VecFault Collecting}
    {step : VecTraffic → Mbuf → VecTraffic} (vec : RteEventVector)
    (stack : IpsecTraffic) (hroom : vec.nbElem ≤ trafficSize)
    (hone : ∀ w n c, n < trafficSize → Taken w n c →
      Ends (one c n) never (Taken (step w (vec.mbufs n)) (n + 1))) :
    Ends ((List.range vec.nbElem).foldlM one ⟨stack.reset, 0, []⟩) never
      (Taken (vec.packets.foldl step {}) vec.nbElem) := by
  have hlen : vec.packets.length = vec.nbElem := length_cells _ _
  have hloop : Ends ((List.range vec.packets.length).foldlM one ⟨stack.reset, 0, []⟩)
      never (fun c => Taken (vec.packets.foldl step {}) vec.packets.length c) := by
    refine ends_elements (P := fun done c => Taken (done.foldl step {}) done.length c)
      ⟨traffic_reset stack, rfl, rfl⟩ ?_
    intro done x rest c hsplit hc
    have hx : vec.mbufs done.length = x := (filled_cells _ _).get hsplit
    have hlt : done.length < trafficSize := by
      have := congrArg List.length hsplit
      rw [List.length_append, List.length_cons] at this
      omega
    have hround := hone _ _ c hlt hc
    rw [hx] at hround
    rw [List.foldl_append, List.length_append]
    exact hround
  rw [hlen] at hloop
  exact hloop

theorem inboundOne_ends (vec : RteEventVector) {w : VecTraffic} {n : Nat}
    {c : Collecting} (hroom : n < trafficSize) (h : Taken w n c) :
    Ends (inboundOne vec c n) never
      (Taken (WorkerModel.inboundOne w (vec.mbufs n)) (n + 1)) := by
  have hw := h.traffic
  have htotal := h.total
  rw [inboundOne, WorkerModel.inboundOne]
  split
  · refine ends_ok ⟨⟨hw.ip4, hw.ip6, hw.ipsec, congrArg (· ++ [_]) hw.freed⟩, rfl, ?_⟩
    rw [total_free, htotal]
  · refine (classifyPkt_ends (c := { c with collected := n + 1 })
      ⟨hw.ip4, hw.ip6, hw.ipsec, hw.freed⟩ (by rw [htotal]; exact hroom) _).mono
      (fun _ => id) ?_
    intro c' hc'
    exact ⟨hc'.1, hc'.2, by rw [total_classifyPkt, htotal]⟩

theorem outboundOne_ends (vec : RteEventVector) {w : VecTraffic} {n : Nat}
    {c : Collecting} (hroom : n < trafficSize) (h : Taken w n c) :
    Ends (outboundOne vec c n) never
      (Taken (WorkerModel.outboundOne w (vec.mbufs n)) (n + 1)) := by
  have hw := h.traffic
  have htotal := h.total
  rw [outboundOne, WorkerModel.outboundOne]
  refine (classifyPkt_ends (c := { c with collected := n + 1 })
    ⟨hw.ip4, hw.ip6, hw.ipsec, hw.freed⟩ (by rw [htotal]; exact hroom) _).mono
    (fun _ => id) ?_
  intro c' hc'
  exact ⟨hc'.1, hc'.2, by rw [total_classifyPkt, htotal]⟩

/-! ## Policies -/

/-- An array that is compacted, before element `n`: the kept packets stand in
    front, and what is still to be read is as it was. -/
structure Compacted (ip : TrafficType) (freed : List Mbuf) (c : Checked) (n : Nat)
    (s : Compacting) : Prop where
  j : s.j = c.kept.length
  behind : s.j ≤ n
  kept : Filled s.ip.pkts (c.kept.map Prod.fst)
  ahead : ∀ i, n ≤ i → s.ip.pkts i = ip.pkts i
  res : s.ip.res = ip.res
  freed : s.freed = freed ++ c.freed

theorem compacted_start (ip : TrafficType) (freed : List Mbuf) :
    Compacted ip freed {} 0 ⟨ip, 0, freed⟩ where
  j := rfl
  behind := Nat.le_refl 0
  kept := filled_nil _
  ahead _ _ := rfl
  res := rfl
  freed := (List.append_nil _).symm

theorem Compacted.keep {ip : TrafficType} {freed : List Mbuf} {c : Checked} {n : Nat}
    {s : Compacting} (h : Compacted ip freed c n s) (hroom : n < trafficSize)
    (x : Mbuf × Nat) :
    Ends (s.keep x.1) never
      (Compacted ip freed { c with kept := c.kept ++ [x] } (n + 1)) := by
  have hj := h.j
  have hbehind := h.behind
  rw [Compacting.keep, TrafficType.setPkt, if_neg (by omega)]
  refine ends_ok ⟨?_, Nat.succ_le_succ hbehind, ?_, ?_, h.res, h.freed⟩
  · rw [List.length_append, List.length_singleton, hj]
  · have hkept := h.kept.concat x.1
    rw [List.length_map, ← hj] at hkept
    rw [List.map_append]
    exact hkept
  · intro i hi
    rw [← h.ahead i (Nat.le_of_succ_le hi)]
    exact Function.update_of_ne (by omega) _ _

theorem Compacted.free {ip : TrafficType} {freed : List Mbuf} {c : Checked} {n : Nat}
    {s : Compacting} (h : Compacted ip freed c n s) (m : Mbuf) :
    Compacted ip freed { c with freed := c.freed ++ [m] } (n + 1) (s.freePkts m) where
  j := h.j
  behind := Nat.le_succ_of_le h.behind
  kept := h.kept
  ahead i hi := h.ahead i (Nat.le_of_succ_le hi)
  res := h.res
  freed := by
    rw [Compacting.freePkts, h.freed, List.append_assoc]

/-- A packet that is given to an SA leaves its element free. -/
theorem Compacted.skip {ip : TrafficType} {freed : List Mbuf} {c : Checked} {n : Nat}
    {s : Compacting} (h : Compacted ip freed c n s) (l : List (Mbuf × UInt32)) :
    Compacted ip freed { c with ipsec := l } (n + 1) s where
  j := h.j
  behind := Nat.le_succ_of_le h.behind
  kept := h.kept
  ahead i hi := h.ahead i (Nat.le_of_succ_le hi)
  res := h.res
  freed := h.freed

/-- What the loop reads of an element it comes to. -/
theorem Compacted.reads {acl : SpCtx} {ip : TrafficType} {l : List (Mbuf × Nat)}
    (hip : HoldsData ip l) {freed : List Mbuf} {c : Checked}
    {done rest : List (Mbuf × Nat)} {x : Mbuf × Nat} (hl : l = done ++ x :: rest)
    {s : Compacting} (h : Compacted (rteAclClassify acl ip) freed c done.length s) :
    s.ip.pkts done.length = x.1 ∧ s.ip.res done.length = acl x.1.buf x.2 := by
  have hpkt : ip.pkts done.length = x.1 := hip.pkts.pkts.get_map hl
  have hdata : ip.data done.length = x.2 := hip.data.get_map hl
  have hlt : done.length < ip.num := by
    rw [hip.num, hl, List.length_append, List.length_cons]
    omega
  constructor
  · rw [h.ahead _ (Nat.le_refl _)]
    exact hpkt
  · rw [h.res]
    show (if done.length < ip.num then acl (ip.pkts done.length).buf (ip.data done.length)
      else ip.res done.length) = acl x.1.buf x.2
    rw [if_pos hlt, hpkt, hdata]

/-- What is left when the loop is through. -/
theorem Compacted.holds {ip : TrafficType} {freed : List Mbuf} {c : Checked} {n : Nat}
    {s : Compacting} (h : Compacted ip freed c n s) :
    HoldsPkts { s.ip with num := s.j } (c.kept.map Prod.fst) where
  num := by rw [List.length_map]; exact h.j
  pkts := h.kept

theorem checkSpSaBulkOne_ends (saCtx : SaCtx) {acl : SpCtx} {ip : TrafficType}
    {l : List (Mbuf × Nat)} (hip : HoldsData ip l) {freed : List Mbuf} {c : Checked}
    {done rest : List (Mbuf × Nat)} {x : Mbuf × Nat} (hl : l = done ++ x :: rest)
    (hroom : done.length < trafficSize) {s : Compacting}
    (h : Compacted (rteAclClassify acl ip) freed c done.length s) :
    Ends (checkSpSaBulkOne g saCtx s done.length) never
      (Compacted (rteAclClassify acl ip) freed
        (WorkerModel.checkSpSaBulkOne g acl saCtx c x) (done.length + 1)) := by
  obtain ⟨hpkt, hres⟩ := h.reads hip hl
  rw [checkSpSaBulkOne, WorkerModel.checkSpSaBulkOne, hpkt, hres]
  split
  · exact ends_ok (h.free x.1)
  · split
    · exact h.keep hroom x
    · cases x.1.dynSa with
      | none => exact ends_ok (h.free x.1)
      | some p =>
          dsimp only
          split
          · exact ends_ok (h.free x.1)
          · exact h.keep hroom x

theorem checkSpSaBulk_ends (sp : Option SpCtx) (saCtx : SaCtx) {ip : TrafficType}
    {l : List (Mbuf × Nat)} (hip : HoldsData ip l) (hroom : l.length ≤ trafficSize)
    (freed : List Mbuf) :
    Ends (checkSpSaBulk g sp saCtx ip freed) never fun r =>
      HoldsPkts r.1 ((WorkerModel.checkSpSaBulk g sp saCtx l).kept.map Prod.fst) ∧
        r.2 = freed ++ (WorkerModel.checkSpSaBulk g sp saCtx l).freed := by
  have hnum := hip.num
  cases sp with
  | none => exact ends_ok ⟨hip.pkts, (List.append_nil _).symm⟩
  | some acl =>
      rw [checkSpSaBulk]
      dsimp only
      split
      · rename_i hzero
        have hl : l = [] := List.length_eq_zero_iff.mp (hnum.symm.trans hzero)
        subst hl
        exact ends_ok ⟨hip.pkts, (List.append_nil _).symm⟩
      · rw [hnum]
        refine (ends_elements (P := fun done s => Compacted (rteAclClassify acl ip) freed
          (done.foldl (WorkerModel.checkSpSaBulkOne g acl saCtx) {}) done.length s)
          (compacted_start _ freed) ?_).bind ?_
        · intro done x rest s hl hs
          rw [List.foldl_append, List.length_append]
          refine checkSpSaBulkOne_ends g saCtx hip hl ?_ hs
          have := congrArg List.length hl
          rw [List.length_append, List.length_cons] at this
          omega
        · intro s hs
          exact ends_ok ⟨hs.holds, hs.freed⟩

/-- An element that goes to an SA joins the packets for SAs. -/
theorem checkSpBulkOne_ends {acl : SpCtx} {ip : TrafficType} {l : List (Mbuf × Nat)}
    (hip : HoldsData ip l) {freed : List Mbuf} {k : List (Mbuf × UInt32)}
    {c : Checked} {done rest : List (Mbuf × Nat)} {x : Mbuf × Nat}
    (hl : l = done ++ x :: rest) (hroom : done.length < trafficSize)
    {s : Compacting × TrafficType}
    (h : Compacted (rteAclClassify acl ip) freed c done.length s.1)
    (hipsec : HoldsRes s.2 (k ++ c.ipsec))
    (hsec : (k ++ c.ipsec).length < trafficSize) :
    Ends (checkSpBulkOne s done.length) never fun s' =>
      Compacted (rteAclClassify acl ip) freed (WorkerModel.checkSpBulkOne acl c x)
          (done.length + 1) s'.1 ∧
        HoldsRes s'.2 (k ++ (WorkerModel.checkSpBulkOne acl c x).ipsec) := by
  obtain ⟨hpkt, hres⟩ := h.reads hip hl
  rw [checkSpBulkOne, WorkerModel.checkSpBulkOne, hpkt, hres]
  split
  · exact ends_ok ⟨h.free x.1, hipsec⟩
  · split
    · refine (h.keep hroom x).bind ?_
      intro t ht
      exact ends_ok ⟨ht, hipsec⟩
    · refine (hipsec.put hsec x.1 (acl x.1.buf x.2 - 1)).bind ?_
      intro t ht
      rw [List.append_assoc] at ht
      exact ends_ok ⟨h.skip _, ht⟩

theorem length_ipsec_checkSpBulkOne (acl : SpCtx) (c : Checked) (x : Mbuf × Nat) :
    (WorkerModel.checkSpBulkOne acl c x).ipsec.length ≤ c.ipsec.length + 1 := by
  rw [WorkerModel.checkSpBulkOne]
  split
  · exact Nat.le_succ _
  · split
    · exact Nat.le_succ _
    · rw [List.length_append]
      exact Nat.le_refl _

theorem checkSpBulk_ends (sp : Option SpCtx) {ip ipsec : TrafficType}
    {l : List (Mbuf × Nat)} {k : List (Mbuf × UInt32)} (hip : HoldsData ip l)
    (hipsec : HoldsRes ipsec k) (hroom : l.length + k.length ≤ trafficSize)
    (freed : List Mbuf) :
    Ends (checkSpBulk sp ip ipsec freed) never fun r =>
      HoldsPkts r.1 ((WorkerModel.checkSpBulk sp l).kept.map Prod.fst) ∧
        HoldsRes r.2.1 (k ++ (WorkerModel.checkSpBulk sp l).ipsec) ∧
          r.2.2 = freed ++ (WorkerModel.checkSpBulk sp l).freed := by
  have hnum := hip.num
  cases sp with
  | none =>
      refine ends_ok ⟨hip.pkts, ?_, (List.append_nil _).symm⟩
      rw [WorkerModel.checkSpBulk, List.append_nil]
      exact hipsec
  | some acl =>
      rw [checkSpBulk]
      dsimp only
      split
      · rename_i hzero
        have hl : l = [] := List.length_eq_zero_iff.mp (hnum.symm.trans hzero)
        subst hl
        refine ends_ok ⟨hip.pkts, ?_, (List.append_nil _).symm⟩
        rw [checkSpBulk_nil, List.append_nil]
        exact hipsec
      · rw [hnum]
        -- the list version, on the elements done so far
        let checked : List (Mbuf × Nat) → Checked := fun done =>
          done.foldl (WorkerModel.checkSpBulkOne acl) {}
        refine (ends_elements (P := fun done s =>
          (Compacted (rteAclClassify acl ip) freed (checked done) done.length s.1 ∧
            HoldsRes s.2 (k ++ (checked done).ipsec)) ∧
              (checked done).ipsec.length ≤ done.length)
          ⟨⟨compacted_start _ freed, ?_⟩, Nat.le_refl 0⟩ ?_).bind ?_
        · show HoldsRes ipsec (k ++ [])
          rw [List.append_nil]
          exact hipsec
        · rintro done x rest s hl ⟨⟨hs, hsec⟩, hlen⟩
          have hlt := congrArg List.length hl
          rw [List.length_append, List.length_cons] at hlt
          have hone := checkSpBulkOne_ends hip hl (by omega) hs hsec
            (by rw [List.length_append]; omega)
          refine hone.mono (fun _ => id) ?_
          intro s' hs'
          -- one element further
          have hnext : checked (done ++ [x])
              = WorkerModel.checkSpBulkOne acl (checked done) x :=
            List.foldl_append
          rw [hnext, List.length_append]
          have hgrow := length_ipsec_checkSpBulkOne acl (checked done) x
          exact ⟨hs', Nat.le_trans hgrow (Nat.succ_le_succ hlen)⟩
        · rintro s ⟨⟨hs, hsec⟩, -⟩
          exact ends_ok ⟨hs.holds, hsec, hs.freed⟩

/-- How many packets a check has judged. -/
def Checked.total (c : Checked) : Nat :=
  c.kept.length + c.ipsec.length + c.freed.length

theorem total_keep (c : Checked) (x : Mbuf × Nat) :
    Checked.total { c with kept := c.kept ++ [x] } = Checked.total c + 1 := by
  show (c.kept ++ [x]).length + c.ipsec.length + c.freed.length = _
  rw [List.length_append, Checked.total, List.length_singleton]
  omega

theorem total_protect (c : Checked) (x : Mbuf × UInt32) :
    Checked.total { c with ipsec := c.ipsec ++ [x] } = Checked.total c + 1 := by
  show c.kept.length + (c.ipsec ++ [x]).length + c.freed.length = _
  rw [List.length_append, Checked.total, List.length_singleton]
  omega

theorem total_drop (c : Checked) (m : Mbuf) :
    Checked.total { c with freed := c.freed ++ [m] } = Checked.total c + 1 := by
  show c.kept.length + c.ipsec.length + (c.freed ++ [m]).length = _
  rw [List.length_append, Checked.total, List.length_singleton]
  omega

theorem total_checkSpBulk (sp : Option SpCtx) (l : List (Mbuf × Nat)) :
    Checked.total (WorkerModel.checkSpBulk sp l) = l.length := by
  cases sp with
  | none => rfl
  | some acl =>
      have hone : ∀ c x, Checked.total (WorkerModel.checkSpBulkOne acl c x)
          = Checked.total c + 1 := by
        intro c x
        rw [WorkerModel.checkSpBulkOne]
        split
        · exact total_drop c x.1
        · split
          · exact total_keep c x
          · exact total_protect c _
      exact (foldl_count hone l {}).trans (Nat.zero_add _)

theorem total_checkSpSaBulk (sp : Option SpCtx) (saCtx : SaCtx)
    (l : List (Mbuf × Nat)) :
    Checked.total (WorkerModel.checkSpSaBulk g sp saCtx l) = l.length := by
  cases sp with
  | none => rfl
  | some acl =>
      have hone : ∀ c x, Checked.total (WorkerModel.checkSpSaBulkOne g acl saCtx c x)
          = Checked.total c + 1 := by
        intro c x
        rw [WorkerModel.checkSpSaBulkOne]
        split
        · exact total_drop c x.1
        · split
          · exact total_keep c x
          · cases x.1.dynSa with
            | none => exact total_drop c x.1
            | some p =>
                dsimp only
                split
                · exact total_drop c x.1
                · exact total_keep c x
      exact (foldl_count hone l {}).trans (Nat.zero_add _)

/-- The loop of `check_sp_sa_bulk` gives nothing to an SA. -/
theorem checkSpSaBulk_ipsec (sp : Option SpCtx) (saCtx : SaCtx)
    (l : List (Mbuf × Nat)) :
    (WorkerModel.checkSpSaBulk g sp saCtx l).ipsec = [] := by
  cases sp with
  | none => rfl
  | some acl =>
      have hone : ∀ c x, (WorkerModel.checkSpSaBulkOne g acl saCtx c x).ipsec
          = c.ipsec := by
        intro c x
        rw [WorkerModel.checkSpSaBulkOne]
        split
        · rfl
        · split
          · rfl
          · cases x.1.dynSa with
            | none => rfl
            | some p =>
                dsimp only
                split
                · rfl
                · rfl
      exact foldl_keep hone l {}

/-! ## Routing -/

/-- The vector while packets are written back: `n` have been freed or stand in
    its first elements, the others are as they were. -/
structure Routed (vec : RteEventVector) (v : EvVector) (n : Nat) (s : Routing) :
    Prop where
  j : s.j = v.mbufs.length
  mbufs : Filled s.vec.mbufs v.mbufs
  freed : s.freed = v.freed
  count : v.mbufs.length + v.freed.length = n
  ahead : ∀ i, s.j ≤ i → s.vec.mbufs i = vec.mbufs i
  nbElem : s.vec.nbElem = vec.nbElem
  attr : vec.attrValid = true → vec.port = 0xffff →
    s.vec.attrValid = v.attrValid ∧ s.vec.port = v.port

theorem routed_start (vec : RteEventVector) (freed : List Mbuf) :
    Routed vec { freed := freed } freed.length ⟨vec, 0, freed⟩ where
  j := rfl
  mbufs := filled_nil _
  freed := rfl
  count := Nat.zero_add _
  ahead _ _ := rfl
  nbElem := rfl
  attr hvalid hport := ⟨hvalid, hport⟩

theorem evVectorAttrUpdate_mem (vec : RteEventVector) (pkt : Mbuf) :
    (evVectorAttrUpdate vec pkt).mbufs = vec.mbufs ∧
      (evVectorAttrUpdate vec pkt).nbElem = vec.nbElem := by
  rw [evVectorAttrUpdate]
  split
  · exact ⟨rfl, rfl⟩
  · split
    · exact ⟨rfl, rfl⟩
    · exact ⟨rfl, rfl⟩

theorem evVectorAttrUpdate_attr {vec : RteEventVector} {v : EvVector}
    (h : vec.attrValid = v.attrValid ∧ vec.port = v.port) (pkt : Mbuf) :
    (evVectorAttrUpdate vec pkt).attrValid
        = (WorkerModel.evVectorAttrUpdate v pkt).attrValid ∧
      (evVectorAttrUpdate vec pkt).port = (WorkerModel.evVectorAttrUpdate v pkt).port := by
  obtain ⟨hvalid, hport⟩ := h
  rw [evVectorAttrUpdate, WorkerModel.evVectorAttrUpdate, hvalid, hport]
  split
  · exact ⟨rfl, rfl⟩
  · split
    · exact ⟨rfl, rfl⟩
    · exact ⟨hvalid, hport⟩

theorem Routed.forward {vec : RteEventVector} {v : EvVector} {n : Nat} {s : Routing}
    (h : Routed vec v n s) {collected : Nat} (hn : n < collected) (pkt : Mbuf)
    (portId : UInt16) :
    Ends (s.forward g collected pkt portId) never
      (Routed vec (v.forward g pkt portId) (n + 1)) := by
  have hj := h.j
  have hcount := h.count
  obtain ⟨hmbufs, hnb⟩ := evVectorAttrUpdate_mem s.vec
    (ipsecEventPreForward (updateMacAddrs g pkt portId) portId)
  rw [Routing.forward]
  rw [if_neg (by omega)]
  refine ends_ok ⟨?_, ?_, ?_, ?_, ?_, ?_, ?_⟩
  · rw [forward_mbufs, List.length_append, List.length_singleton, hj]
  · rw [forward_mbufs, hmbufs, hj]
    exact h.mbufs.concat _
  · rw [forward_freed]
    exact h.freed
  · rw [forward_mbufs, forward_freed, List.length_append, List.length_singleton]
    omega
  · intro i hi
    have hi : s.j + 1 ≤ i := hi
    rw [← h.ahead i (Nat.le_of_succ_le hi), hmbufs]
    exact Function.update_of_ne (by omega) _ _
  · rw [← h.nbElem]
    exact hnb
  · intro hvalid hport
    exact evVectorAttrUpdate_attr (h.attr hvalid hport) _

theorem Routed.free {vec : RteEventVector} {v : EvVector} {n : Nat} {s : Routing}
    (h : Routed vec v n s) (pkt : Mbuf) :
    Routed vec { v with freed := v.freed ++ [pkt] } (n + 1) (s.freePkts pkt) where
  j := h.j
  mbufs := h.mbufs
  freed := congrArg (· ++ [pkt]) h.freed
  count := by
    rw [List.length_append, List.length_singleton, ← Nat.add_assoc, h.count]
  ahead := h.ahead
  nbElem := h.nbElem
  attr := h.attr

theorem routeOne_ends {vec : RteEventVector} {v : EvVector} {n : Nat} {s : Routing}
    (h : Routed vec v n s) {collected : Nat} (hn : n < collected)
    (route : Mbuf → UInt16) {ip : TrafficType} {i : Nat} {x : Mbuf × Nat}
    (hx : ip.pkts i = x.1) :
    Ends (routeOne g collected route ip s i) never
      (Routed vec (WorkerModel.routeOne g route v x) (n + 1)) := by
  rw [routeOne, WorkerModel.routeOne, hx]
  split
  · exact h.forward g hn x.1 _
  · exact ends_ok (h.free x.1)

theorem protectOne_ends {vec : RteEventVector} {v : EvVector} {n : Nat} {s : Routing}
    (h : Routed vec v n s) {collected : Nat} (hn : n < collected) (saCtx : SaCtx)
    {ipsec : TrafficType} {i : Nat} {x : Mbuf × UInt32} (hpkt : ipsec.pkts i = x.1)
    (hres : ipsec.res i = x.2) :
    Ends (protectOne g collected saCtx ipsec s i) never
      (Routed vec (WorkerModel.protectOne g saCtx v x) (n + 1)) := by
  rw [protectOne, WorkerModel.protectOne, hpkt, hres]
  split
  · exact ends_ok (h.free x.1)
  · cases sendWithSa g (saCtx.entry x.2) x.1 with
    | none => exact ends_ok (h.free x.1)
    | some r => exact h.forward g hn r.1 r.2

theorem routeLoop_ends {vec : RteEventVector} {v : EvVector} {n : Nat} {s : Routing}
    (h : Routed vec v n s) (route : Mbuf → UInt16) {ip : TrafficType}
    {l : List (Mbuf × Nat)} (hip : HoldsPkts ip (l.map Prod.fst)) {collected : Nat}
    (hroom : n + l.length ≤ collected) :
    Ends ((List.range ip.num).foldlM (routeOne g collected route ip) s) never
      (Routed vec (l.foldl (WorkerModel.routeOne g route) v) (n + l.length)) := by
  have hnum := hip.num
  rw [List.length_map] at hnum
  rw [hnum]
  refine ends_elements (P := fun done s =>
    Routed vec (done.foldl (WorkerModel.routeOne g route) v) (n + done.length) s) h ?_
  intro done x rest s hl hs
  have hlt := congrArg List.length hl
  rw [List.length_append, List.length_cons] at hlt
  rw [List.foldl_append, List.length_append]
  exact routeOne_ends g hs (by omega) route (hip.pkts.get_map hl)

theorem protectLoop_ends {vec : RteEventVector} {v : EvVector} {n : Nat} {s : Routing}
    (h : Routed vec v n s) (saCtx : SaCtx) {ipsec : TrafficType}
    {l : List (Mbuf × UInt32)} (hip : HoldsRes ipsec l) {collected : Nat}
    (hroom : n + l.length ≤ collected) :
    Ends ((List.range ipsec.num).foldlM (protectOne g collected saCtx ipsec) s) never
      (Routed vec (l.foldl (WorkerModel.protectOne g saCtx) v) (n + l.length)) := by
  rw [hip.num]
  refine ends_elements (P := fun done s =>
    Routed vec (done.foldl (WorkerModel.protectOne g saCtx) v) (n + done.length) s) h ?_
  intro done x rest s hl hs
  have hlt := congrArg List.length hl
  rw [List.length_append, List.length_cons] at hlt
  rw [List.foldl_append, List.length_append]
  exact protectOne_ends g hs (by omega) saCtx (hip.pkts.pkts.get_map hl)
    (hip.res.get_map hl)

/-- The arrays behind the policies hold as many packets as were collected, but
    for those freed. -/
structure Judged (c : Collecting) (w : VecTraffic) : Prop where
  ip4 : HoldsPkts c.t.ip4 (w.ip4.map Prod.fst)
  ip6 : HoldsPkts c.t.ip6 (w.ip6.map Prod.fst)
  ipsec : HoldsRes c.t.ipsec w.ipsec
  freed : c.freed = w.freed
  total : total w = c.collected

theorem ipsecEvRoutePkts_ends (saCtx : SaCtx) (vec : RteEventVector) {c : Collecting}
    {w : VecTraffic} (h : Judged c w) :
    Ends (ipsecEvRoutePkts g rt saCtx vec c) never
      (Routed vec (WorkerModel.ipsecEvRoutePkts g rt w saCtx) c.collected) := by
  have htotal := h.total
  rw [VectorModel.total] at htotal
  have hstart := routed_start vec c.freed
  rw [h.freed] at hstart
  rw [ipsecEvRoutePkts, WorkerModel.ipsecEvRoutePkts, h.freed]
  refine (routeLoop_ends g hstart _ h.ip4 (by omega)).bind ?_
  intro s hs
  refine (routeLoop_ends g hs _ h.ip6 (by omega)).bind ?_
  intro s hs
  have hlast := @protectLoop_ends g _ _ _ _ hs saCtx _ _ h.ipsec c.collected (by omega)
  have hn : w.freed.length + w.ip4.length + w.ip6.length + w.ipsec.length
      = c.collected := by omega
  rw [hn] at hlast
  exact hlast

/-! ## A vector -/

/-- **IN MEMORY, INBOUND**: no store goes wrong, and the vector ends with the
    packets of the list function. -/
theorem inbound_ends (stack : IpsecTraffic) {vec : RteEventVector}
    (hroom : vec.nbElem ≤ trafficSize) :
    Ends (processIpsecEvInboundVector g ctx rt stack vec) never
      (Routed vec (WorkerModel.processIpsecEvInboundVector g ctx rt vec.packets)
        vec.nbElem) := by
  rw [processIpsecEvInboundVector, WorkerModel.processIpsecEvInboundVector]
  refine (collect_ends vec stack hroom
    fun w n c hn hc => inboundOne_ends vec hn hc).bind ?_
  intro c hc
  generalize vec.packets.foldl WorkerModel.inboundOne {} = w at hc ⊢
  have htotal := hc.total
  rw [total] at htotal
  refine (checkSpSaBulk_ends g ctx.sp4Ctx ctx.saCtx hc.traffic.ip4 (by omega) _).bind ?_
  rintro r4 ⟨h4, hf4⟩
  refine (checkSpSaBulk_ends g ctx.sp6Ctx ctx.saCtx hc.traffic.ip6 (by omega) _).bind ?_
  rintro r6 ⟨h6, hf6⟩
  have ht4 := total_checkSpSaBulk g ctx.sp4Ctx ctx.saCtx w.ip4
  have ht6 := total_checkSpSaBulk g ctx.sp6Ctx ctx.saCtx w.ip6
  rw [Checked.total, checkSpSaBulk_ipsec, List.length_nil] at ht4 ht6
  rw [← hc.collected]
  refine ipsecEvRoutePkts_ends g rt ctx.saCtx vec ⟨h4, h6, hc.traffic.ipsec, ?_, ?_⟩
  · rw [hf6, hf4, hc.traffic.freed]
  · rw [hc.collected, total]
    simp only [List.length_append]
    omega

theorem outbound_ends (stack : IpsecTraffic) {vec : RteEventVector}
    (hroom : vec.nbElem ≤ trafficSize) :
    Ends (processIpsecEvOutboundVector g ctx rt stack vec) never
      (Routed vec (WorkerModel.processIpsecEvOutboundVector g ctx rt vec.packets)
        vec.nbElem) := by
  rw [processIpsecEvOutboundVector, WorkerModel.processIpsecEvOutboundVector]
  refine (collect_ends vec stack hroom
    fun w n c hn hc => outboundOne_ends vec hn hc).bind ?_
  intro c hc
  generalize vec.packets.foldl WorkerModel.outboundOne {} = w at hc ⊢
  have htotal := hc.total
  rw [total] at htotal
  have ht4 := total_checkSpBulk ctx.sp4Ctx w.ip4
  have ht6 := total_checkSpBulk ctx.sp6Ctx w.ip6
  rw [Checked.total] at ht4 ht6
  refine (checkSpBulk_ends ctx.sp4Ctx hc.traffic.ip4 hc.traffic.ipsec (by omega) _).bind ?_
  rintro r4 ⟨h4, hs4, hf4⟩
  refine (checkSpBulk_ends ctx.sp6Ctx hc.traffic.ip6 hs4
    (by rw [List.length_append]; omega) _).bind ?_
  rintro r6 ⟨h6, hs6, hf6⟩
  rw [← hc.collected]
  refine ipsecEvRoutePkts_ends g rt ctx.saCtx vec ⟨h4, h6, hs6, ?_, ?_⟩
  · rw [hf6, hf4, hc.traffic.freed]
  · rw [hc.collected, total]
    simp only [List.length_append]
    omega

/-! ## One packet -/

/-- Route tables and SAs name ports there are. -/
structure PortsBelow (saCtx : SaCtx) : Prop where
  rt4 : ∀ dst hop, rt.rt4 dst = some hop → hop.toUInt16 < rteMaxEthports
  rt6 : ∀ dst hop, rt.rt6 dst = some hop → hop.toUInt16 < rteMaxEthports
  sa : ∀ idx, idx < saCtx.nbSa → (g.mem (saCtx.entry idx)).portid < rteMaxEthports

/-- Where an inbound packet goes: its route. -/
def inboundDest (pkt : Mbuf) : UInt16 :=
  getRoute pkt rt (processIpsecGetPktType pkt).1

/-- Where an outbound packet goes: the port of the SA its policy names, or its
    route. -/
def outboundDest (pkt : Mbuf) : UInt16 :=
  match ctx.spFor (processIpsecGetPktType pkt).1 with
  | some (some acl) =>
      let res := acl pkt.buf (processIpsecGetPktType pkt).2
      if res = bypass then inboundDest rt pkt
      else (g.mem (ctx.saCtx.entry (res - 1))).portid
  | _ => inboundDest rt pkt

/-- The vector of one packet frees it or sends it where it goes. -/
inductive Fate (r : EvVector) (m : Mbuf) (dest : UInt16) : Prop
  | freed (hmbufs : r.mbufs.map sentTo = []) (hfreed : r.freed.map Mbuf.addr = [m.addr])
  | sent (hmbufs : r.mbufs.map sentTo = [(m.addr, dest)]) (hfreed : r.freed = [])
      (hport : PortsBelow g rt ctx.saCtx → dest < rteMaxEthports)

theorem getRoute_below {pkt : Mbuf} {type : PktType} {saCtx : SaCtx}
    (h : getRoute pkt rt type ≠ rteMaxEthports) (hports : PortsBelow g rt saCtx) :
    getRoute pkt rt type < rteMaxEthports := by
  have h4 : route4Pkt pkt rt ≠ rteMaxEthports → route4Pkt pkt rt < rteMaxEthports := by
    intro hne
    rw [route4Pkt] at hne ⊢
    cases hhop : rt.rt4 (UInt32.ofNat (ByteStore.ofBe
        (ByteStore.load pkt.buf (pkt.dataOff + rteEtherHdrLen + 16) 4))) with
    | none =>
        rw [hhop] at hne
        exact absurd rfl hne
    | some hop => exact hports.rt4 _ hop hhop
  have h6 : route6Pkt pkt rt ≠ rteMaxEthports → route6Pkt pkt rt < rteMaxEthports := by
    intro hne
    rw [route6Pkt] at hne ⊢
    cases hhop : rt.rt6 (ByteStore.load pkt.buf (pkt.dataOff + rteEtherHdrLen + 24) 16) with
    | none =>
        rw [hhop] at hne
        exact absurd rfl hne
    | some hop => exact hports.rt6 _ hop hhop
  cases type with
  | plainIpv4 => exact h4 h
  | ipsecIpv4 => exact h4 h
  | plainIpv6 => exact h6 h
  | ipsecIpv6 => exact h6 h
  | invalid => exact absurd rfl h

/-- A packet that is routed. -/
theorem routed_fate {r : EvVector} {type : PktType} {m x : Mbuf} {nlp : Nat}
    (haddr : x.addr = m.addr) (hroute : getRoute x rt type = getRoute m rt type)
    (hmbufs : r.mbufs = (routed g (fun m => getRoute m rt type) [(x, nlp)]).mbufs)
    (hfreed : r.freed = (routed g (fun m => getRoute m rt type) [(x, nlp)]).freed) :
    Fate g ctx rt r m (getRoute m rt type) := by
  obtain ⟨hsent, hdropped⟩ := routed_one g rt type x nlp
  rw [routeAndSendPkt] at hsent hdropped
  rw [hroute] at hsent hdropped
  by_cases hr : getRoute m rt type = rteMaxEthports
  · rw [if_pos hr] at hsent hdropped
    refine .freed ?_ ?_
    · rw [hmbufs, hsent]
      rfl
    · rw [hfreed, hdropped]
      exact congrArg (fun a => [a]) haddr
  · rw [if_neg hr] at hsent hdropped
    refine .sent ?_ ?_ (getRoute_below g rt hr)
    · rw [hmbufs, hsent]
      exact congrArg (fun a => [(a, getRoute m rt type)]) haddr
    · rw [hfreed, hdropped]
      rfl

theorem inbound_fate (m : Mbuf) :
    Fate g ctx rt (WorkerModel.processIpsecEvInboundVector g ctx rt [m]) m
      (inboundDest rt m) := by
  obtain ⟨type, nlp, htype⟩ : ∃ type nlp, processIpsecGetPktType m = (type, nlp) :=
    ⟨_, _, rfl⟩
  rw [inboundDest, htype]
  by_cases hother : offloadFailed m = true ∨
      ctx.spFor (processIpsecGetPktType m).1 = none
  · obtain ⟨hmbufs, hfreed⟩ := inboundVector_other g ctx rt hother
    exact .freed (by rw [hmbufs]; rfl) (by rw [hfreed]; rfl)
  · obtain ⟨hfailed, hplain⟩ := not_or.mp hother
    obtain ⟨sp, hsp⟩ := Option.ne_none_iff_exists'.mp hplain
    rw [htype] at hsp
    obtain ⟨hmbufs, hfreed⟩ := inboundVector_plain g ctx rt htype hsp
      (Bool.eq_false_iff.mpr hfailed)
    -- the check of one packet keeps or frees it
    have hc : WorkerModel.checkSpSaBulk g sp ctx.saCtx [(m, nlp)] = { kept := [(m, nlp)] } ∨
        WorkerModel.checkSpSaBulk g sp ctx.saCtx [(m, nlp)] = { freed := [m] } := by
      cases sp with
      | none => exact .inl rfl
      | some acl =>
          rw [WorkerModel.checkSpSaBulk, List.foldl_cons, List.foldl_nil,
            WorkerModel.checkSpSaBulkOne]
          split
          · exact .inr rfl
          · split
            · exact .inl rfl
            · cases m.dynSa with
              | none => exact .inr rfl
              | some p =>
                  dsimp only
                  split
                  · exact .inr rfl
                  · exact .inl rfl
    rcases hc with hc | hc
    · rw [hc] at hmbufs hfreed
      exact routed_fate g ctx rt rfl rfl hmbufs hfreed
    · rw [hc] at hmbufs hfreed
      exact .freed (by rw [hmbufs]; rfl) (by rw [hfreed]; rfl)

/-- A packet for an SA. -/
theorem protected_fate {r : EvVector} {m : Mbuf} {idx : UInt32}
    (hmbufs : r.mbufs = (protectedBy g ctx.saCtx [(withL2Len m, idx)]).mbufs)
    (hfreed : r.freed = (protectedBy g ctx.saCtx [(withL2Len m, idx)]).freed) :
    Fate g ctx rt r m (g.mem (ctx.saCtx.entry idx)).portid := by
  rw [protectedBy, List.foldl_cons, List.foldl_nil, WorkerModel.protectOne]
    at hmbufs hfreed
  dsimp only at hmbufs hfreed
  by_cases hnb : ctx.saCtx.nbSa ≤ idx
  · rw [if_pos hnb] at hmbufs hfreed
    exact .freed (by rw [hmbufs]; rfl) (by rw [hfreed]; rfl)
  rw [if_neg hnb, sendWithSa] at hmbufs hfreed
  dsimp only at hmbufs hfreed
  by_cases htype : (g.mem (ctx.saCtx.entry idx)).primary.type ≠ .inlineProtocol
  · rw [if_pos htype] at hmbufs hfreed
    exact .freed (by rw [hmbufs]; rfl) (by rw [hfreed]; rfl)
  rw [if_neg htype] at hmbufs hfreed
  dsimp only at hmbufs hfreed
  rw [forward_mbufs] at hmbufs
  rw [forward_freed] at hfreed
  refine .sent ?_ hfreed fun hports => hports.sa idx (UInt32.not_le.mp hnb)
  rw [hmbufs]
  exact congrArg (fun a => [(a, (g.mem (ctx.saCtx.entry idx)).portid)])
    (g.setPktMetadata_addr _ (withL2Len m))

theorem protectedBy_nil (saCtx : SaCtx) : protectedBy g saCtx [] = {} := rfl

theorem outbound_fate (m : Mbuf) :
    Fate g ctx rt (WorkerModel.processIpsecEvOutboundVector g ctx rt [m]) m
      (outboundDest g ctx rt m) := by
  obtain ⟨type, nlp, htype⟩ : ∃ type nlp, processIpsecGetPktType m = (type, nlp) :=
    ⟨_, _, rfl⟩
  rw [outboundDest, inboundDest, htype]
  dsimp only
  cases hsp : ctx.spFor type with
  | none =>
      obtain ⟨hmbufs, hfreed⟩ := outboundVector_other g ctx rt (m := m)
        (by rw [htype]; exact hsp)
      exact .freed (by rw [hmbufs]; rfl) (by rw [hfreed]; rfl)
  | some sp =>
      obtain ⟨hmbufs, hfreed⟩ := outboundVector_plain g ctx rt htype hsp
      have haddr : (withL2Len m).addr = m.addr := rfl
      have hroute : getRoute (withL2Len m) rt type = getRoute m rt type := by
        cases type <;> rfl
      cases sp with
      | none =>
          have hc : WorkerModel.checkSpBulk none [(withL2Len m, nlp)]
              = { kept := [(withL2Len m, nlp)] } := rfl
          rw [hc, protectedBy_nil, List.append_nil] at hmbufs hfreed
          rw [List.nil_append] at hfreed
          exact routed_fate g ctx rt haddr hroute hmbufs hfreed
      | some acl =>
          rw [WorkerModel.checkSpBulk, List.foldl_cons, List.foldl_nil,
            WorkerModel.checkSpBulkOne] at hmbufs hfreed
          dsimp only at hmbufs hfreed ⊢
          have hbuf : acl (withL2Len m).buf nlp = acl m.buf nlp := rfl
          rw [hbuf] at hmbufs hfreed
          generalize acl m.buf nlp = res at hmbufs hfreed ⊢
          by_cases hdiscard : res = discard
          · rw [if_pos hdiscard] at hmbufs hfreed
            exact .freed (by rw [hmbufs]; rfl) (by rw [hfreed]; rfl)
          rw [if_neg hdiscard] at hmbufs hfreed
          by_cases hbypass : res = bypass
          · rw [if_pos hbypass, protectedBy_nil, List.append_nil] at hmbufs hfreed
            rw [List.nil_append] at hfreed
            rw [if_pos hbypass]
            exact routed_fate g ctx rt haddr hroute hmbufs hfreed
          · rw [if_neg hbypass] at hmbufs hfreed ⊢
            exact protected_fate g ctx rt hmbufs hfreed

/-! ## All packets of a vector -/

/-- What holds of the vectors of single packets holds of a sum of them. -/
structure Fates (V : List Mbuf → EvVector) (dest : Mbuf → UInt16) : Prop where
  mbufs : SumsPerm fun vec => (V vec).mbufs
  freed : SumsPerm fun vec => (V vec).freed
  one : ∀ m, Fate g ctx rt (V [m]) m (dest m)

theorem inbound_fates :
    Fates g ctx rt (WorkerModel.processIpsecEvInboundVector g ctx rt)
      (inboundDest rt) where
  mbufs := inbound_mbufs_sum g ctx rt
  freed := inbound_freed_sum g ctx rt
  one := inbound_fate g ctx rt

theorem outbound_fates :
    Fates g ctx rt (WorkerModel.processIpsecEvOutboundVector g ctx rt)
      (outboundDest g ctx rt) where
  mbufs := outbound_mbufs_sum g ctx rt
  freed := outbound_freed_sum g ctx rt
  one := outbound_fate g ctx rt

variable {g ctx rt}

/-- **CONSERVATION**: every packet is sent or freed, and once. -/
theorem Fates.conserved {V : List Mbuf → EvVector} {dest : Mbuf → UInt16}
    (h : Fates g ctx rt V dest) (vec : List Mbuf) :
    ((V vec).mbufs.map Mbuf.addr ++ (V vec).freed.map Mbuf.addr).Perm
      (vec.map Mbuf.addr) := by
  have hmbufs := (h.mbufs vec).map Mbuf.addr
  have hfreed := (h.freed vec).map Mbuf.addr
  rw [List.map_flatMap] at hmbufs hfreed
  refine (hmbufs.append hfreed).trans ((List.flatMap_append_perm vec _ _).trans ?_)
  rw [List.map_eq_flatMap]
  refine .of_eq (List.flatMap_congr ?_)
  intro m _
  dsimp only
  cases h.one m with
  | freed hnone hone =>
      rw [List.map_eq_nil_iff.mp hnone, hone]
      rfl
  | sent hone hnone _ =>
      rw [hnone, List.map_nil, List.append_nil]
      have haddr := congrArg (List.map Prod.fst) hone
      rw [List.map_map] at haddr
      exact haddr

/-- **DESTINATION**: a packet that is sent is one of the vector, on its way. -/
theorem Fates.sent {V : List Mbuf → EvVector} {dest : Mbuf → UInt16}
    (h : Fates g ctx rt V dest) {vec : List Mbuf} {x : Mbuf} (hx : x ∈ (V vec).mbufs) :
    ∃ m ∈ vec, sentTo x = (m.addr, dest m) ∧
      (PortsBelow g rt ctx.saCtx → dest m < rteMaxEthports) := by
  obtain ⟨m, hm, hxm⟩ := List.mem_flatMap.mp ((h.mbufs vec).mem_iff.mp hx)
  have hxm : x ∈ (V [m]).mbufs := hxm
  cases h.one m with
  | freed hnone _ =>
      rw [List.map_eq_nil_iff.mp hnone] at hxm
      cases hxm
  | sent hone _ hport =>
      have hmem := List.mem_map_of_mem (f := sentTo) hxm
      rw [hone] at hmem
      exact ⟨m, hm, List.mem_singleton.mp hmem, hport⟩

/-! ## The attributes -/

/-- The attributes summarise the packets so far. -/
structure Truthful (v : EvVector) : Prop where
  start : v.mbufs = [] → v.port = 0xffff ∧ v.attrValid = true
  port : v.mbufs ≠ [] → ∃ m ∈ v.mbufs, m.port = v.port
  valid : v.attrValid = true ↔ ∀ m ∈ v.mbufs, m.port = v.port

/-- **ATTRIBUTES**: one more packet, when the port of none stands for no
    port. -/
theorem Truthful.update {v : EvVector} (h : Truthful v)
    (hports : ∀ m ∈ v.mbufs, m.port ≠ 0xffff) (pkt : Mbuf) :
    Truthful { WorkerModel.evVectorAttrUpdate v pkt with mbufs := v.mbufs ++ [pkt] } := by
  have hne : v.mbufs ++ [pkt] ≠ [] := List.append_ne_nil_of_right_ne_nil _ (by simp)
  rw [WorkerModel.evVectorAttrUpdate]
  by_cases hempty : v.mbufs = []
  · obtain ⟨hport, hvalid⟩ := h.start hempty
    rw [if_pos hport, hempty]
    refine ⟨fun hnil => absurd hnil (by simp), fun _ => ⟨pkt, by simp, rfl⟩, ?_⟩
    simp [hvalid]
  · obtain ⟨m, hm, hport⟩ := h.port hempty
    rw [if_neg (by rw [← hport]; exact hports m hm)]
    by_cases hchange : v.attrValid = true ∧ v.port ≠ pkt.port
    · rw [if_pos hchange]
      refine ⟨fun hnil => absurd hnil hne, fun _ => ⟨m, ?_, hport⟩, ?_⟩
      · exact List.mem_append_left _ hm
      · constructor
        · intro hfalse
          cases hfalse
        · intro hall
          exact absurd (hall pkt (by simp)).symm hchange.2
    · rw [if_neg hchange]
      refine ⟨fun hnil => absurd hnil hne, fun _ => ⟨m, ?_, hport⟩, ?_⟩
      · exact List.mem_append_left _ hm
      · constructor
        · intro hvalid x hx
          rcases List.mem_append.mp hx with hx | hx
          · exact h.valid.mp hvalid x hx
          · rw [List.mem_singleton.mp hx]
            exact (not_not.mp fun hne => hchange ⟨hvalid, hne⟩).symm
        · intro hall
          refine h.valid.mpr ?_
          intro x hx
          exact hall x (List.mem_append_left _ hx)

/-- The attributes are truthful as long as every packet has a port. -/
def Summary (v : EvVector) : Prop :=
  (∀ m ∈ v.mbufs, m.port ≠ 0xffff) → Truthful v

theorem Summary.forward {v : EvVector} (h : Summary v) (pkt : Mbuf)
    (portId : UInt16) : Summary (v.forward g pkt portId) := by
  intro hports
  rw [forward_mbufs] at hports
  have hbefore : ∀ m ∈ v.mbufs, m.port ≠ 0xffff := by
    intro m hm
    exact hports m (List.mem_append_left _ hm)
  have hnext := (h hbefore).update hbefore
    (ipsecEventPreForward (updateMacAddrs g pkt portId) portId)
  rw [← evVectorAttrUpdate_mbufs v
    (ipsecEventPreForward (updateMacAddrs g pkt portId) portId)] at hnext
  exact hnext

theorem Summary.free {v : EvVector} (h : Summary v) (l : List Mbuf) :
    Summary { v with freed := l } := by
  intro hports
  have hv := h hports
  exact ⟨hv.start, hv.port, hv.valid⟩

theorem summary_routeOne (route : Mbuf → UInt16) (v : EvVector) (h : Summary v)
    (x : Mbuf × Nat) : Summary (WorkerModel.routeOne g route v x) := by
  rw [WorkerModel.routeOne]
  split
  · exact h.forward x.1 _
  · exact h.free _

theorem summary_protectOne (saCtx : SaCtx) (v : EvVector) (h : Summary v)
    (x : Mbuf × UInt32) : Summary (WorkerModel.protectOne g saCtx v x) := by
  rw [WorkerModel.protectOne]
  split
  · exact h.free _
  · cases sendWithSa g (saCtx.entry x.2) x.1 with
    | none => exact h.free _
    | some r => exact h.forward r.1 r.2

theorem summary_start (freed : List Mbuf) : Summary { freed := freed } := by
  intro _
  refine ⟨fun _ => ⟨rfl, rfl⟩, fun hne => absurd rfl hne, fun _ m hm => ?_, fun _ => rfl⟩
  cases hm

theorem ipsecEvRoutePkts_summary (t : VecTraffic) (saCtx : SaCtx) :
    Summary (WorkerModel.ipsecEvRoutePkts g rt t saCtx) := by
  rw [WorkerModel.ipsecEvRoutePkts]
  refine List.foldlRecOn _ _ ?_ fun v hv x _ => summary_protectOne saCtx v hv x
  refine List.foldlRecOn _ _ ?_ fun v hv x _ => summary_routeOne _ v hv x
  refine List.foldlRecOn _ _ ?_ fun v hv x _ => summary_routeOne _ v hv x
  exact summary_start t.freed

/-! ## The vector functions -/

/-- What a vector function leaves: the elements before the running index are
    the packets to send. -/
structure Conserves (vec : RteEventVector) (dest : Mbuf → UInt16) (s : Routing) :
    Prop where
  /-- every packet of the vector is among them or was freed, and once -/
  packets : ((cells s.vec.mbufs s.j).map Mbuf.addr ++ s.freed.map Mbuf.addr).Perm
    (vec.packets.map Mbuf.addr)
  dest : ∀ i, i < s.j → ∃ m ∈ vec.packets, sentTo (s.vec.mbufs i) = (m.addr, dest m)
  rest : ∀ i, s.j ≤ i → s.vec.mbufs i = vec.mbufs i
  attr : 0 < s.j → (∃ w, vec = evVectorAttrInit w) →
    (s.vec.attrValid = true ↔ ∀ i, i < s.j → (s.vec.mbufs i).port = s.vec.port)

theorem Routed.conserves {V : List Mbuf → EvVector} {dest : Mbuf → UInt16}
    (hV : Fates g ctx rt V dest) (hports : PortsBelow g rt ctx.saCtx)
    {vec : RteEventVector} (hsum : Summary (V vec.packets)) {n : Nat} {s : Routing}
    (h : Routed vec (V vec.packets) n s) : Conserves vec dest s := by
  have hcells : cells s.vec.mbufs s.j = (V vec.packets).mbufs := by
    rw [h.j]
    exact h.mbufs.cells
  have hget : ∀ i, i < s.j → s.vec.mbufs i ∈ (V vec.packets).mbufs := by
    intro i hi
    rw [← hcells]
    exact List.mem_map_of_mem (List.mem_range.mpr hi)
  refine ⟨?_, ?_, h.ahead, ?_⟩
  · rw [hcells, h.freed]
    exact hV.conserved vec.packets
  · intro i hi
    obtain ⟨m, hm, hsent, -⟩ := hV.sent (hget i hi)
    exact ⟨m, hm, hsent⟩
  · rintro - ⟨w, rfl⟩
    obtain ⟨hvalid, hport⟩ := h.attr rfl rfl
    have hne : ∀ m ∈ (V (evVectorAttrInit w).packets).mbufs, m.port ≠ 0xffff := by
      intro x hx heq
      obtain ⟨m, -, hsent, hbelow⟩ := hV.sent hx
      have hdest : x.port = dest m := congrArg Prod.snd hsent
      have hlt := hbelow hports
      rw [← hdest, heq] at hlt
      exact absurd hlt (by decide)
    rw [hvalid, hport, (hsum hne).valid, ← hcells]
    constructor
    · intro hall i hi
      exact hall _ (List.mem_map_of_mem (List.mem_range.mpr hi))
    · intro hall m hm
      obtain ⟨i, hi, rfl⟩ := List.mem_map.mp hm
      exact hall i (List.mem_range.mp hi)

variable (g ctx rt)

/-- **EVENT VECTORS CONSERVE PACKETS**: both functions return, so no element of
    the vector is written before its packet has been collected; every packet is
    freed or stands once in the elements returned, with its destination, and
    attributes that were initialised are truthful. -/
theorem vectors_conserve (hports : PortsBelow g rt ctx.saCtx) (stack : IpsecTraffic)
    (vec : RteEventVector) (hroom : vec.nbElem ≤ trafficSize) :
    (∃ s, processIpsecEvInboundVector g ctx rt stack vec = .ok s ∧
      Conserves vec (inboundDest rt) s) ∧
    (∃ s, processIpsecEvOutboundVector g ctx rt stack vec = .ok s ∧
      Conserves vec (outboundDest g ctx rt) s) := by
  constructor
  · obtain ⟨s, hs, hrouted⟩ := exists_of_never (inbound_ends g ctx rt stack hroom)
    exact ⟨s, hs, hrouted.conserves (inbound_fates g ctx rt) hports
      (ipsecEvRoutePkts_summary _ _)⟩
  · obtain ⟨s, hs, hrouted⟩ := exists_of_never (outbound_ends g ctx rt stack hroom)
    exact ⟨s, hs, hrouted.conserves (outbound_fates g ctx rt) hports
      (ipsecEvRoutePkts_summary _ _)⟩

/-- Two packets of family 4, which the policy of the worker lets pass. -/
def pairOfPackets : RteEventVector where
  nbElem := 2
  attrValid := false
  port := 0
  queue := 0
  mbufs i := { staleField with addr := i }

theorem toPortOne_below : PortsBelow blankGlobals toPortOne (workerWith none).saCtx where
  rt4 _ hop h := by
    cases h
    decide
  rt6 _ _ h := by cases h
  sa _ _ := by
    show (0 : UInt16) < rteMaxEthports
    decide

/-- Empty arrays. -/
def blankTraffic : IpsecTraffic :=
  let t : TrafficType := ⟨fun _ => 0, fun _ => staleField, fun _ => 0, 0⟩
  ⟨t, t, t⟩

theorem vectors_conserve_pair :
    (∃ s, processIpsecEvInboundVector blankGlobals (workerWith none) toPortOne
        blankTraffic (evVectorAttrInit pairOfPackets) = .ok s ∧
      Conserves (evVectorAttrInit pairOfPackets) (inboundDest toPortOne) s) ∧
    (∃ s, processIpsecEvOutboundVector blankGlobals (workerWith none) toPortOne
        blankTraffic (evVectorAttrInit pairOfPackets) = .ok s ∧
      Conserves (evVectorAttrInit pairOfPackets)
        (outboundDest blankGlobals (workerWith none) toPortOne) s) :=
  vectors_conserve blankGlobals (workerWith none) toPortOne toPortOne_below
    blankTraffic (evVectorAttrInit pairOfPackets) (by decide)

end VectorModel
