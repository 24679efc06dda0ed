import IpsecSecgw.LcoreCountProofs

/-! # What routing puts on the wire

    Routing and the transmit buffers of a poll lcore: a packet is given to a NIC or
    stands in a table at most as often as it has been routed (`Sends`), fragments
    apart, and the crypto queues, the SAs and the private data of all packets are left
    as they were. -/

namespace Wire

open SaModel MbufModel IpsecModel SecgwModel Outcome

variable {tx : TxConf}

/-! ## Packets on their way -/

/-- How often a packet has been given to a NIC, or stands in a table for one. -/
def released (s : Lcore) (x : PktId) : Nat :=
  (s.sent.map Prod.fst).count x
    + ∑ port ∈ Finset.range maxEthports, (s.txMbufs port).count x

theorem released_congr {s s' : Lcore} (hsent : s'.sent = s.sent)
    (htbl : s'.txMbufs = s.txMbufs) (x : PktId) : released s' x = released s x := by
  rw [released, hsent, htbl]
  rfl

/-- A table is replaced. -/
theorem released_setTx (s : Lcore) {port : Nat} (hport : port < maxEthports)
    (tbl : List PktId) (x : PktId) :
    released (s.setTx port tbl) x + (s.txMbufs port).count x = released s x + tbl.count x := by
  have hmem : port ∈ Finset.range maxEthports := Finset.mem_range.mpr hport
  have hnew := Finset.add_sum_erase (Finset.range maxEthports)
    (fun i => ((s.setTx port tbl).txMbufs i).count x) hmem
  have hold := Finset.add_sum_erase (Finset.range maxEthports)
    (fun i => (s.txMbufs i).count x) hmem
  have hrest : ∑ i ∈ (Finset.range maxEthports).erase port,
      ((s.setTx port tbl).txMbufs i).count x
      = ∑ i ∈ (Finset.range maxEthports).erase port, (s.txMbufs i).count x := by
    refine Finset.sum_congr rfl fun i hi => ?_
    show (Function.update s.txMbufs port tbl i).count x = _
    rw [Function.update_of_ne (Finset.ne_of_mem_erase hi)]
  have hself : (s.setTx port tbl).txMbufs port = tbl := Function.update_self ..
  have hsent : (s.setTx port tbl).sent = s.sent := rfl
  rw [hself, hrest] at hnew
  simp only [released, hsent]
  omega

/-- Nothing the crypto needs is touched. -/
structure CryptoKept (s s' : Lcore) : Prop where
  inbound : s'.inbound = s.inbound
  outbound : s'.outbound = s.outbound
  priv : ∀ x, (s'.world.mbuf x).priv = (s.world.mbuf x).priv
  sa : s'.world.sa = s.world.sa
  pair : s'.world.pair = s.world.pair
  processed : s'.world.processed = s.world.processed

theorem CryptoKept.refl (s : Lcore) : CryptoKept s s := ⟨rfl, rfl, fun _ => rfl, rfl, rfl, rfl⟩

theorem CryptoKept.trans {s s' s'' : Lcore} (h : CryptoKept s s') (h' : CryptoKept s' s'') :
    CryptoKept s s'' :=
  ⟨h'.inbound.trans h.inbound, h'.outbound.trans h.outbound,
    fun x => (h'.priv x).trans (h.priv x), h'.sa.trans h.sa, h'.pair.trans h.pair,
    h'.processed.trans h.processed⟩

/-- A fragment `rte_ipv4_fragment_packet` or its sibling makes of a packet. -/
def Fragment (tx : TxConf) (m x : PktId) : Prop :=
  ∃ w room frags, tx.fragment w m room = some frags ∧ x ∈ frags

/-- **ROUTING** `pkts`: only these packets and fragments of them are on their way more
    often than before. -/
structure Sends (tx : TxConf) (s : Lcore) (pkts : List PktId) (s' : Lcore) : Prop where
  kept : CryptoKept s s'
  bound : ∃ frags : List PktId, (∀ x ∈ frags, ∃ m ∈ pkts, Fragment tx m x)
    ∧ ∀ x, released s' x ≤ released s x + pkts.count x + frags.count x

theorem Sends.trans {s s' s'' : Lcore} {pkts pkts' : List PktId}
    (h : Sends tx s pkts s') (h' : Sends tx s' pkts' s'') : Sends tx s (pkts ++ pkts') s'' := by
  obtain ⟨frags, hfrags, hle⟩ := h.bound
  obtain ⟨frags', hfrags', hle'⟩ := h'.bound
  refine ⟨h.kept.trans h'.kept, frags ++ frags', ?_, fun x => ?_⟩
  · intro x hx
    rcases List.mem_append.mp hx with hx | hx
    · obtain ⟨m, hm, hfrag⟩ := hfrags x hx
      exact ⟨m, List.mem_append_left _ hm, hfrag⟩
    · obtain ⟨m, hm, hfrag⟩ := hfrags' x hx
      exact ⟨m, List.mem_append_right _ hm, hfrag⟩
  · have hle := hle x
    have hle' := hle' x
    simp only [List.count_append]
    omega

/-- Work that releases nothing but `pkts`. -/
theorem Sends.plain {s s' : Lcore} {pkts : List PktId} (hkept : CryptoKept s s')
    (h : ∀ x, released s' x ≤ released s x + pkts.count x) :
    Sends tx s pkts s' :=
  ⟨hkept, [], fun _ hx => absurd hx List.not_mem_nil,
    fun x => (h x).trans (Nat.le_add_right _ _)⟩

theorem Sends.refl (s : Lcore) : Sends tx s [] s :=
  .plain (.refl s) fun _ => Nat.le_add_right _ _

/-- Packets are counted or freed. -/
theorem Sends.quiet {s s' : Lcore} (hkept : CryptoKept s s') (hsent : s'.sent = s.sent)
    (htbl : s'.txMbufs = s.txMbufs) : Sends tx s [] s' := by
  refine .plain hkept fun x => ?_
  rw [released_congr hsent htbl]
  exact Nat.le_add_right _ _

/-- A packet that is not sent. -/
theorem Sends.drop {s s' : Lcore} {pkts : List PktId} (h : Sends tx s [] s') :
    Sends tx s pkts s' := by
  obtain ⟨frags, hfrags, hle⟩ := h.bound
  refine ⟨h.kept, frags, fun x hx => ?_, fun x => ?_⟩
  · obtain ⟨m, hm, -⟩ := hfrags x hx
    cases hm
  · have hle := hle x
    rw [List.count_nil] at hle
    omega

/-! ## Tables -/

theorem prepareTxPkt_priv {port : Nat} {m m' : Mbuf} (h : prepareTxPkt tx port m = some m') :
    m'.priv = m.priv := by
  rw [prepareTxPkt] at h
  dsimp only at h
  split at h
  · cases h
  rename_i eth m1 hprepend
  have hm1 : m1.priv = m.priv := by
    rw [rtePktmbufPrepend] at hprepend
    split at hprepend
    · obtain ⟨-, rfl⟩ := Prod.mk.inj (Option.some.inj hprepend)
      rfl
    · cases hprepend
  obtain rfl := Option.some.inj h
  simp only [Mbuf.write_priv]
  split
  · dsimp only
    split
    · simp only [Mbuf.write_priv]
      exact hm1
    · simp only [Mbuf.write_priv]
      exact hm1
  · exact hm1

/-- The packets of a table get their Ethernet headers. -/
theorem prepareTx_kept (tx : TxConf) (port : Nat) (tbl : List PktId) (s : Lcore) :
    Ends (tbl.foldlM (prepareTxOne tx port) s.world) (fun _ => True)
      (fun w => CryptoKept s { s with world := w }) := by
  refine ends_foldlM (P := fun _ w => CryptoKept s { s with world := w })
    (CryptoKept.refl s) ?_
  intro p _ w h
  rw [prepareTxOne]
  split
  · exact ends_error trivial
  rename_i m hm
  refine ends_ok ⟨rfl, rfl, fun x => ?_, h.sa, h.pair, h.processed⟩
  show (Function.update w.mbuf p m x).priv = _
  by_cases hx : x = p
  · rw [hx, Function.update_self, prepareTxPkt_priv hm]
    exact h.priv p
  · rw [Function.update_of_ne hx]
    exact h.priv x

/-- **A TABLE IS SENT**. -/
theorem flushTx_sends (tx : TxConf) {port : Nat} (hport : port < maxEthports) (s : Lcore) :
    Ends (flushTx tx port s) (fun _ => True) (fun s' => Sends tx s [] s') := by
  rw [flushTx, sendBurst, bind_assoc]
  refine (prepareTx_kept tx port (s.txMbufs port) s).bind ?_
  intro w hw
  generalize min (tx.txTake w.tick) (s.txMbufs port).length = ret
  refine ends_ok (.plain ⟨rfl, rfl, hw.priv, hw.sa, hw.pair, hw.processed⟩ fun x => ?_)
  have hset := released_setTx { s with
    world := w.next.freePkts ((s.txMbufs port).drop ret)
    tx := s.tx + ret
    sent := s.sent ++ ((s.txMbufs port).take ret).map (·, port) } hport [] x
  -- what the NIC takes has been in the table
  have hsent : released { s with
      world := w.next.freePkts ((s.txMbufs port).drop ret)
      tx := s.tx + ret
      sent := s.sent ++ ((s.txMbufs port).take ret).map (·, port) } x
      = released s x + ((s.txMbufs port).take ret).count x := by
    simp only [released, List.map_append, List.count_append, List.map_map]
    rw [show (Prod.fst ∘ fun p : PktId => (p, port)) = id from rfl, List.map_id]
    omega
  have hle := (List.take_sublist ret (s.txMbufs port)).count_le x
  rw [hsent] at hset
  simp only [List.count_nil, Nat.add_zero] at hset ⊢
  have hset : released _ x + (s.txMbufs port).count x = _ := hset
  refine Nat.le_of_add_le_add_right (b := (s.txMbufs port).count x) ?_
  rw [hset]
  exact Nat.add_le_add_left hle _

/-- `send_fragment_packet`. -/
theorem sendFragmentPacket_sends (tx : TxConf) (m : PktId) {port : Nat}
    (hport : port < maxEthports) (s : Lcore) :
    Ends (sendFragmentPacket tx m port s) (fun _ => True) (fun s' => Sends tx s [m] s') := by
  have hcut : ∀ s1, Sends tx s [] s1 → Sends tx s [m] { s1.setTx port (s1.txMbufs port
      ++ (tx.fragment s1.world m (maxPktBurst - (s1.txMbufs port).length)).getD []) with
        world := s1.world.freePkts [m]
        fragmented := s1.fragmented ++ [m] } := by
    intro s1 h1
    refine Sends.trans h1 ⟨⟨rfl, rfl, fun _ => rfl, rfl, rfl, rfl⟩,
      (tx.fragment s1.world m (maxPktBurst - (s1.txMbufs port).length)).getD [], ?_, ?_⟩
    · intro x hx
      cases hfrags : tx.fragment s1.world m (maxPktBurst - (s1.txMbufs port).length) with
      | none =>
          rw [hfrags] at hx
          cases hx
      | some frags =>
          rw [hfrags] at hx
          exact ⟨m, List.mem_singleton_self m, _, _, frags, hfrags, hx⟩
    · intro x
      have hset := released_setTx s1 hport (s1.txMbufs port
        ++ (tx.fragment s1.world m (maxPktBurst - (s1.txMbufs port).length)).getD []) x
      rw [List.count_append] at hset
      show released (s1.setTx port _) x ≤ _
      omega
  rw [sendFragmentPacket]
  split
  · exact (flushTx_sends tx hport s).bind fun s1 h1 => ends_pure (hcut s1 h1)
  · exact Ends.bind (P := fun s1 => Sends tx s [] s1) (ends_pure (Sends.refl s))
      fun s1 h1 => ends_pure (hcut s1 h1)

/-- **ONE PACKET**. -/
theorem sendSinglePacket_sends (tx : TxConf) (m : PktId) (port : Nat) (s : Lcore) :
    Ends (sendSinglePacket tx m port s) (fun _ => True) (fun s' => Sends tx s [m] s') := by
  rw [sendSinglePacket]
  split
  · exact ends_error trivial
  rename_i hport
  have hport := Nat.not_le.mp hport
  have hfull : ∀ s1, Sends tx s [m] s1 → Ends
      (if (s1.txMbufs port).length = maxPktBurst then flushTx tx port s1 else pure s1)
      (fun _ => True) (fun s2 => Sends tx s [m] s2) := by
    intro s1 h1
    split
    · exact (flushTx_sends tx hport s1).mono (fun _ h => h) fun s2 h2 =>
        List.append_nil [m] ▸ h1.trans h2
    · exact ends_pure h1
  dsimp only
  split
  · refine Ends.bind (P := fun s1 => Sends tx s [m] s1) (ends_pure ?_) hfull
    refine .plain ⟨rfl, rfl, fun _ => rfl, rfl, rfl, rfl⟩ fun x => ?_
    have hset := released_setTx s hport (s.txMbufs port ++ [m]) x
    rw [List.count_append] at hset
    omega
  split
  · exact (sendFragmentPacket_sends tx m hport s).bind hfull
  · exact Ends.bind (P := fun s1 => Sends tx s [m] s1) (ends_pure (Sends.drop
      (.quiet ⟨rfl, rfl, fun _ => rfl, rfl, rfl, rfl⟩ rfl rfl))) hfull

/-! ## Routing -/

/-- A loop that sends the packets it goes through. -/
theorem loop_sends {f : Lcore → PktId × Option Nat → Except Fault Lcore}
    (hf : ∀ s x, Ends (f s x) (fun _ => True) (fun s' => Sends tx s [x.1] s'))
    (l : List (PktId × Option Nat)) (s : Lcore) :
    Ends (l.foldlM f s) (fun _ => True) (fun s' => Sends tx s (l.map Prod.fst) s') := by
  induction l generalizing s with
  | nil => exact ends_ok (Sends.refl s)
  | cons x l ih =>
      rw [List.foldlM_cons]
      refine (hf s x).bind fun s1 h1 => ?_
      exact (ih s1).mono (fun _ h => h) fun s2 h2 => h1.trans h2

/-- The packets a family is routed with. -/
theorem hops_fst (hop : PktId → Option Nat) (pkts : List PktId) :
    (pkts.map fun m => (m, hop m)).map Prod.fst = pkts := by
  rw [List.map_map]
  exact List.map_id pkts

/-- **BOTH FAMILIES**. -/
theorem routePkts_sends (tx : TxConf) (trf : Traffic) (s : Lcore) :
    Ends (routePkts tx trf s) (fun _ => True)
      (fun s' => Sends tx s (trf.ip4 ++ trf.ip6) s') := by
  have h4 : ∀ s x, Ends (route4One tx s x) (fun _ => True)
      (fun s' => Sends tx s [x.1] s') := by
    intro s x
    rw [route4One]
    split
    · exact ends_ok (Sends.drop (.quiet ⟨rfl, rfl, fun _ => rfl, rfl, rfl, rfl⟩ rfl rfl))
    · exact sendSinglePacket_sends tx x.1 _ s
  have h6 : ∀ s x, Ends (route6One tx s x) (fun _ => True)
      (fun s' => Sends tx s [x.1] s') := by
    intro s x
    rw [route6One]
    split
    · exact ends_ok (Sends.drop (.quiet ⟨rfl, rfl, fun _ => rfl, rfl, rfl, rfl⟩ rfl rfl))
    · exact sendSinglePacket_sends tx x.1 _ s
  rw [routePkts, route4Pkts]
  refine (loop_sends h4 _ s).bind fun s1 h1 => ?_
  rw [route6Pkts]
  refine (loop_sends h6 _ s1).mono (fun _ h => h) fun s2 h2 => ?_
  rw [hops_fst] at h1 h2
  exact h1.trans h2

/-- `drain_tx_buffers` routes nothing. -/
theorem drainTxBuffers_sends (tx : TxConf) (s : Lcore) :
    Ends (drainTxBuffers tx s) (fun _ => True) (fun s' => Sends tx s [] s') := by
  rw [drainTxBuffers]
  refine (ends_foldlM (P := fun todo s' => (∀ port ∈ todo, port < maxEthports)
    ∧ Sends tx s [] s') ⟨fun _ h => List.mem_range.mp h, Sends.refl s⟩ ?_).mono
    (fun _ h => h) fun _ h => h.2
  rintro port todo s1 ⟨hports, h1⟩
  have htodo : ∀ port ∈ todo, port < maxEthports :=
    fun q hq => hports q (List.mem_cons_of_mem _ hq)
  split
  · exact ends_pure ⟨htodo, h1⟩
  · refine (flushTx_sends tx (hports port List.mem_cons_self) s1).mono (fun _ h => h) ?_
    exact fun s2 h2 => ⟨htodo, h1.trans h2⟩

end Wire
