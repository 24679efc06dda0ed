import IpsecSecgw.ArpModel
import IpsecSecgw.IkeFilterProofs
import IpsecSecgw.InboundRunProofs

/-! # Replies to ARP requests

    What is owed to an ARP frame: a request for one of the gateway's own addresses is
    answered on the port it came from, any other is left as it is, and both are freed.
    The code sends every answer on port 0, to the Ethernet source of the request, and
    a clone that could not be made as well (`Served` are the frames it is right for). -/

namespace Arp

open ByteStore MbufModel IpsecModel WorkerModel SecgwModel Stats Outcome

variable {m : Mbuf} {port : UInt16}

/-! ## The reply -/

/-- A request for one of the own addresses; the frame has all the fields. -/
def IsRequest (m : Mbuf) : Prop := asks m = true ∧ 42 ≤ m.dataLen

instance (m : Mbuf) : Decidable (IsRequest m) := inferInstanceAs (Decidable (_ ∧ _))

/-- The Ethernet source, and the hardware address of the sender. -/
def srcMac (m : Mbuf) : List UInt8 := load m.buf (m.dataOff + 6) 6
def senderMac (m : Mbuf) : List UInt8 := load m.buf (m.dataOff + 22) 6

/-- The reply to a request: to its Ethernet source from the own address; opcode 2; the
    own address and the one asked for; `target` and the address of the sender. -/
def replyTo (m : Mbuf) (target : List UInt8) : List UInt8 :=
  srcMac m ++ (myMac ++ (load m.buf (m.dataOff + 12) 8 ++ ([0, 2] ++ (myMac
    ++ (load m.buf (m.dataOff + 38) 4 ++ (target ++ (load m.buf (m.dataOff + 28) 4
      ++ load m.buf (m.dataOff + 42) (m.dataLen - 42))))))))

/-- The fields of a frame with an ARP packet. -/
theorem load_fields (b : Nat → UInt8) (o : Nat) {n : Nat} (hn : 42 ≤ n) :
    load b o n = load b o 6 ++ (load b (o + 6) 6 ++ (load b (o + 12) 8 ++ (load b (o + 20) 2
      ++ (load b (o + 22) 6 ++ (load b (o + 28) 4 ++ (load b (o + 32) 6
        ++ (load b (o + 38) 4 ++ load b (o + 42) (n - 42)))))))) := by
  have hsum : n = 6 + (6 + (8 + (2 + (6 + (4 + (6 + (4 + (n - 42)))))))) := by omega
  conv_lhs => rw [hsum]
  rw [load_add, load_add, load_add, load_add, load_add, load_add, load_add, load_add]

/-! ### The moves

    Every field is written once, and read either before it is written or as it has
    been written. -/

@[simp] theorem makeReply_dataOff (m : Mbuf) : (makeReply m).dataOff = m.dataOff := rfl
@[simp] theorem makeReply_dataLen (m : Mbuf) : (makeReply m).dataLen = m.dataLen := rfl

/-- The buffer up to the own address as the sender's. -/
def early (m : Mbuf) : Nat → UInt8 :=
  store (store (store (store m.buf m.dataOff (srcMac m)) (m.dataOff + 6) myMac)
    (m.dataOff + 20) [0, 2]) (m.dataOff + 22) myMac

@[simp] theorem length_srcMac (m : Mbuf) : (srcMac m).length = 6 := length_load _ _ _
@[simp] theorem length_myMac : myMac.length = 6 := rfl

/-- The fields behind are still those of the request. -/
theorem early_behind {a k : Nat} (h : m.dataOff + 28 ≤ a) :
    load (early m) a k = load m.buf a k := by
  have hmac := length_myMac
  have hsrc := length_srcMac m
  have htwo : ([0, 2] : List UInt8).length = 2 := rfl
  rw [early, load_store_of_disjoint _ (by omega), load_store_of_disjoint _ (by omega),
    load_store_of_disjoint _ (by omega), load_store_of_disjoint _ (by omega)]

/-- The Ethernet destination is the source of the request. -/
theorem early_dst : load (early m) m.dataOff 6 = srcMac m := by
  have hmac := length_myMac
  have hsrc := length_srcMac m
  have htwo : ([0, 2] : List UInt8).length = 2 := rfl
  rw [early, load_store_of_disjoint _ (by omega), load_store_of_disjoint _ (by omega),
    load_store_of_disjoint _ (by omega), load_store_eq _ hsrc]

/-- **THE MOVES**: the target's fields come last. -/
theorem makeReply_buf (m : Mbuf) :
    (makeReply m).buf =
      store (store (store (early m) (m.dataOff + 28) (load m.buf (m.dataOff + 38) 4))
        (m.dataOff + 32) (srcMac m)) (m.dataOff + 38) (load m.buf (m.dataOff + 28) 4) := by
  have hbuf : (makeReply m).buf =
      store (store (store (early m) (m.dataOff + 28) (load (early m) (m.dataOff + 38) 4))
        (m.dataOff + 32) (load (store (early m) (m.dataOff + 28)
          (load (early m) (m.dataOff + 38) 4)) m.dataOff 6))
        (m.dataOff + 38) (load (early m) (m.dataOff + 28) 4) := rfl
  have hdst : load (store (early m) (m.dataOff + 28) (load (early m) (m.dataOff + 38) 4))
      m.dataOff 6 = srcMac m := by
    rw [load_store_of_disjoint _ (by omega), early_dst]
  rw [hbuf, hdst, early_behind (by omega), early_behind (by omega)]

/-- What is behind the fields, and the type of the frame, is kept. -/
theorem makeReply_kept {a k : Nat} (h : m.dataOff + 42 ≤ a
    ∨ m.dataOff + 12 ≤ a ∧ a + k ≤ m.dataOff + 20) :
    load (makeReply m).buf a k = load m.buf a k := by
  have hmac := length_myMac
  have hsrc := length_srcMac m
  have htwo : ([0, 2] : List UInt8).length = 2 := rfl
  have h4 : ∀ c, (load m.buf c 4).length = 4 := fun c => length_load _ _ _
  have h28 := h4 (m.dataOff + 28)
  have h38 := h4 (m.dataOff + 38)
  rw [makeReply_buf, early]
  rw [load_store_of_disjoint _ (by omega), load_store_of_disjoint _ (by omega),
    load_store_of_disjoint _ (by omega), load_store_of_disjoint _ (by omega),
    load_store_of_disjoint _ (by omega), load_store_of_disjoint _ (by omega),
    load_store_of_disjoint _ (by omega)]

theorem makeReply_opcode (m : Mbuf) : load (makeReply m).buf (m.dataOff + 20) 2 = [0, 2] := by
  have hmac := length_myMac
  have hsrc := length_srcMac m
  have htwo : ([0, 2] : List UInt8).length = 2 := rfl
  have h28 : (load m.buf (m.dataOff + 28) 4).length = 4 := length_load _ _ _
  have h38 : (load m.buf (m.dataOff + 38) 4).length = 4 := length_load _ _ _
  rw [makeReply_buf, load_store_of_disjoint _ (by omega), load_store_of_disjoint _ (by omega),
    load_store_of_disjoint _ (by omega), early, load_store_of_disjoint _ (by omega),
    load_store_eq _ htwo]

/-- **THE REPLY**, with the Ethernet source as the hardware address of the target. -/
theorem frame_makeReply (hlen : 42 ≤ m.dataLen) : frame (makeReply m) = replyTo m (srcMac m) := by
  have hmac := length_myMac
  have hsrc := length_srcMac m
  have htwo : ([0, 2] : List UInt8).length = 2 := rfl
  have h28 : (load m.buf (m.dataOff + 28) 4).length = 4 := length_load _ _ _
  have h38 : (load m.buf (m.dataOff + 38) 4).length = 4 := length_load _ _ _
  have htype : load (makeReply m).buf (m.dataOff + 12) 8 = load m.buf (m.dataOff + 12) 8 :=
    makeReply_kept (Or.inr ⟨by omega, by omega⟩)
  have hrest : load (makeReply m).buf (m.dataOff + 42) (m.dataLen - 42)
      = load m.buf (m.dataOff + 42) (m.dataLen - 42) := makeReply_kept (Or.inl (by omega))
  have hdst : load (makeReply m).buf m.dataOff 6 = srcMac m := by
    rw [makeReply_buf, load_store_of_disjoint _ (by omega), load_store_of_disjoint _ (by omega),
      load_store_of_disjoint _ (by omega), early_dst]
  have hfrom : load (makeReply m).buf (m.dataOff + 6) 6 = myMac := by
    rw [makeReply_buf, load_store_of_disjoint _ (by omega), load_store_of_disjoint _ (by omega),
      load_store_of_disjoint _ (by omega), early, load_store_of_disjoint _ (by omega),
      load_store_of_disjoint _ (by omega), load_store_eq _ hmac]
  have hsender : load (makeReply m).buf (m.dataOff + 22) 6 = myMac := by
    rw [makeReply_buf, load_store_of_disjoint _ (by omega), load_store_of_disjoint _ (by omega),
      load_store_of_disjoint _ (by omega), early, load_store_eq _ hmac]
  have hasked : load (makeReply m).buf (m.dataOff + 28) 4 = load m.buf (m.dataOff + 38) 4 := by
    rw [makeReply_buf, load_store_of_disjoint _ (by omega), load_store_of_disjoint _ (by omega),
      load_store_eq _ h38]
  have htarget : load (makeReply m).buf (m.dataOff + 32) 6 = srcMac m := by
    rw [makeReply_buf, load_store_of_disjoint _ (by omega), load_store_eq _ hsrc]
  have htargetIp : load (makeReply m).buf (m.dataOff + 38) 4 = load m.buf (m.dataOff + 28) 4 := by
    rw [makeReply_buf, load_store_eq _ h28]
  rw [frame, makeReply_dataOff, makeReply_dataLen, load_fields _ _ hlen, hdst, hfrom, htype,
    makeReply_opcode, hsender, hasked, htarget, htargetIp, hrest, replyTo]

theorem makeReply_etherType (m : Mbuf) : etherType (makeReply m) = etherType m := by
  rw [etherType, makeReply_dataOff, makeReply_kept (Or.inr ⟨by omega, by omega⟩), etherType]

/-- The opcode is no longer that of a request. -/
theorem makeReply_ne (h : asks m = true) : makeReply m ≠ m := by
  intro heq
  have hop := makeReply_opcode m
  rw [heq] at hop
  have hbyte : m.buf (m.dataOff + 20 + 1) = 2 := (List.cons.inj (List.cons.inj hop).2).1
  have hone : m.buf (m.dataOff + 21) = 1 := by
    rw [asks, Bool.and_eq_true, Bool.and_eq_true, beq_iff_eq, beq_iff_eq] at h
    exact h.1.2
  rw [Nat.add_assoc, hone] at hbyte
  cases hbyte

/-- Two replies differ where their targets do. -/
theorem replyTo_inj {target target' : List UInt8} (h : replyTo m target = replyTo m target')
    (hlen : target.length = target'.length) : target = target' := by
  simp only [replyTo, List.append_cancel_left_eq] at h
  exact (List.append_inj h hlen).1

/-! ## A frame -/

section Frame

variable {env : ArpEnv} {p : PktId}

/-- What is owed to an ARP frame that came in on `port`: what is sent for it, and the
    frame behind. -/
def FrameRight (port : UInt16) (m m' : Mbuf) (sent : List Sent) : Prop :=
  if IsRequest m then sent = [(port, replyTo m (senderMac m))] else sent = [] ∧ m' = m

/-- A frame the code is right for: no request, or one of full length on port 0 whose
    sender is the Ethernet source, while the pool has an mbuf and the driver takes it. -/
def Served (env : ArpEnv) (port : UInt16) (p : PktId) (m : Mbuf) : Prop :=
  asks m = true → 42 ≤ m.dataLen ∧ port = 0 ∧ srcMac m = senderMac m
    ∧ env.clone p = true ∧ env.takes p = true

theorem handlePacketArp_idle (h : asks m ≠ true) : handlePacketArp env p m = .ok (m, []) :=
  if_neg h

theorem handlePacketArp_sent (h : asks m = true) (hclone : env.clone p = true) :
    handlePacketArp env p m
      = .ok (makeReply m, if env.takes p then [(0, frame (makeReply m))] else []) := by
  rw [handlePacketArp, if_pos h]
  simp only [sendPacketsEth, if_pos hclone]
  rfl

/-- Without a clone the driver is given a null pointer. -/
theorem handlePacketArp_null (h : asks m = true) (hclone : env.clone p ≠ true) :
    handlePacketArp env p m = .error .null := by
  rw [handlePacketArp, if_pos h]
  simp only [sendPacketsEth, if_neg hclone]
  rfl

/-- **FRAME**. -/
theorem handlePacketArp_right_iff :
    (∃ r, handlePacketArp env p m = .ok r ∧ FrameRight port m r.1 r.2) ↔ Served env port p m := by
  by_cases hasks : asks m = true
  · rw [Served, forall_prop_of_true hasks]
    by_cases hclone : env.clone p = true
    · rw [handlePacketArp_sent hasks hclone]
      constructor
      · rintro ⟨_, hr, hright⟩
        obtain rfl := Except.ok.inj hr
        by_cases hlen : 42 ≤ m.dataLen
        · -- a request: the frame sent is the one owed
          rw [FrameRight, if_pos ⟨hasks, hlen⟩] at hright
          by_cases htakes : env.takes p = true
          · dsimp only at hright
            rw [if_pos htakes, frame_makeReply hlen] at hright
            obtain ⟨hport, hreply⟩ := Prod.mk.inj (List.cons.inj hright).1
            exact ⟨hlen, hport.symm, replyTo_inj hreply (by rw [srcMac, senderMac, length_load,
              length_load]), hclone, htakes⟩
          · dsimp only at hright
            rw [if_neg htakes] at hright
            cases hright
        · rw [FrameRight, if_neg (fun h => hlen h.2)] at hright
          exact absurd hright.2 (makeReply_ne hasks)
      · rintro ⟨hlen, rfl, hmac, -, htakes⟩
        refine ⟨_, rfl, ?_⟩
        rw [FrameRight, if_pos ⟨hasks, hlen⟩]
        dsimp only
        rw [if_pos htakes, frame_makeReply hlen, hmac]
    · rw [handlePacketArp_null hasks hclone]
      refine iff_of_false ?_ (fun h => hclone h.2.2.2.1)
      rintro ⟨_, h, -⟩
      cases h
  · refine iff_of_true ⟨_, handlePacketArp_idle hasks, ?_⟩ (fun h => absurd h hasks)
    rw [FrameRight, if_neg (fun h => hasks h.1)]
    exact ⟨rfl, rfl⟩

/-- The frame behind is as long, and of the same type. -/
theorem dpiArp_frame {r : Mbuf × List Sent} (h : dpiArp env p m = .ok r) :
    r.1.dataLen = m.dataLen ∧ etherType r.1 = etherType m := by
  rw [dpiArp] at h
  by_cases htype : etherType m = etherTypeArp
  · rw [if_pos htype] at h
    by_cases hasks : asks m = true
    · by_cases hclone : env.clone p = true
      · rw [handlePacketArp_sent hasks hclone] at h
        obtain rfl := Except.ok.inj h
        exact ⟨rfl, makeReply_etherType m⟩
      · rw [handlePacketArp_null hasks hclone] at h
        cases h
    · rw [handlePacketArp_idle hasks] at h
      obtain rfl := Except.ok.inj h
      exact ⟨rfl, rfl⟩
  · rw [if_neg htype] at h
    obtain rfl := Except.ok.inj h
    exact ⟨rfl, rfl⟩

end Frame

/-! ## A burst -/

section Burst

variable {env : ArpEnv} {conf : PollConf}

/-- What `rte_eth_rx_burst` gives: Ethernet frames, each once. -/
structure RxBurst (w : World) where
  pkts : List PktId
  nodup : pkts.Nodup
  header : ∀ p ∈ pkts, rteEtherHdrLen ≤ (w.mbuf p).dataLen

/-- What the loop of `handle_packets` has done to each packet. -/
structure Seen (env : ArpEnv) (pkts : List PktId) (s s' : ArpState) : Prop where
  freed : s'.world.freed = s.world.freed
  other : ∀ q, q ∉ pkts → s'.world.mbuf q = s.world.mbuf q ∧ s'.sent q = s.sent q
  each : ∀ q ∈ pkts, ∃ r, dpiArp env q (s.world.mbuf q) = .ok r
    ∧ s'.world.mbuf q = r.1 ∧ s'.sent q = s.sent q ++ r.2

/-- A round sees one packet, and the others as they were. -/
theorem handlePacketsOne_eq {s : ArpState} {p : PktId} {r : Mbuf × List Sent}
    (h : dpiArp env p (s.world.mbuf p) = .ok r) :
    handlePacketsOne env s p = .ok ⟨s.world.modify p fun _ => r.1,
      Function.update s.sent p (s.sent p ++ r.2)⟩ := by
  rw [handlePacketsOne, h]
  rfl

theorem handlePacketsOne_fails {s : ArpState} {p : PktId} {e : Fault}
    (h : dpiArp env p (s.world.mbuf p) = .error e) : handlePacketsOne env s p = .error e := by
  rw [handlePacketsOne, h]
  rfl

/-- **HANDLED**: the loop ends where every packet by itself can be handled. -/
theorem handlePackets_seen {pkts : List PktId} (hnodup : pkts.Nodup) (s : ArpState)
    (hok : ∀ p ∈ pkts, ∃ r, dpiArp env p (s.world.mbuf p) = .ok r) :
    ∃ s', handlePackets env pkts s = .ok s' ∧ Seen env pkts s s' := by
  induction pkts generalizing s with
  | nil =>
      exact ⟨s, rfl, rfl, fun _ _ => ⟨rfl, rfl⟩, fun _ h => absurd h List.not_mem_nil⟩
  | cons p pkts ih =>
      obtain ⟨hp, hnodup⟩ := List.nodup_cons.mp hnodup
      obtain ⟨r, hr⟩ := hok p List.mem_cons_self
      -- the rest of the burst is not touched by the round
      have hmbuf : ∀ q, q ≠ p → (s.world.modify p fun _ => r.1).mbuf q = s.world.mbuf q :=
        fun q hq => Function.update_of_ne hq _ _
      have hself : (s.world.modify p fun _ => r.1).mbuf p = r.1 := Function.update_self _ _ _
      have hsent : ∀ q, q ≠ p → Function.update s.sent p (s.sent p ++ r.2) q = s.sent q :=
        fun q hq => Function.update_of_ne hq _ _
      obtain ⟨s', hrun, hseen⟩ := ih hnodup
        ⟨s.world.modify p fun _ => r.1, Function.update s.sent p (s.sent p ++ r.2)⟩ (by
          intro q hq
          have hqp : q ≠ p := fun h => hp (h ▸ hq)
          obtain ⟨r', hr'⟩ := hok q (List.mem_cons_of_mem _ hq)
          exact ⟨r', by rw [hmbuf q hqp]; exact hr'⟩)
      refine ⟨s', ?_, hseen.freed, ?_, ?_⟩
      · rw [handlePackets, List.foldlM_cons, handlePacketsOne_eq hr]
        exact hrun
      · intro q hq
        have hqp : q ≠ p := fun h => hq (h ▸ List.mem_cons_self)
        have hqs : q ∉ pkts := fun h => hq (List.mem_cons_of_mem _ h)
        obtain ⟨h1, h2⟩ := hseen.other q hqs
        exact ⟨h1.trans (hmbuf q hqp), h2.trans (hsent q hqp)⟩
      · intro q hq
        by_cases hqp : q = p
        · subst hqp
          obtain ⟨h1, h2⟩ := hseen.other q hp
          exact ⟨r, hr, h1.trans hself, h2.trans (Function.update_self _ _ _)⟩
        · obtain ⟨r', hr', h1, h2⟩ := hseen.each q (List.mem_of_ne_of_mem hqp hq)
          refine ⟨r', ?_, h1, h2.trans ?_⟩
          · rw [← hmbuf q hqp]
            exact hr'
          · dsimp only
            rw [hsent q hqp]

theorem handlePackets_each {pkts : List PktId} (hnodup : pkts.Nodup) {s s' : ArpState}
    (h : handlePackets env pkts s = .ok s') :
    ∀ p ∈ pkts, ∃ r, dpiArp env p (s.world.mbuf p) = .ok r := by
  induction pkts generalizing s with
  | nil => exact fun _ h => absurd h List.not_mem_nil
  | cons p pkts ih =>
      obtain ⟨hp, hnodup⟩ := List.nodup_cons.mp hnodup
      rw [handlePackets, List.foldlM_cons] at h
      cases hr : dpiArp env p (s.world.mbuf p) with
      | error e =>
          rw [handlePacketsOne_fails hr] at h
          cases h
      | ok r =>
          rw [handlePacketsOne_eq hr] at h
          rw [List.forall_mem_cons]
          refine ⟨⟨r, hr⟩, ?_⟩
          intro q hq
          have hqp : q ≠ p := fun h => hp (h ▸ hq)
          obtain ⟨r', hr'⟩ := ih hnodup h q hq
          refine ⟨r', ?_⟩
          rw [← hr']
          exact congrArg (dpiArp env q) (Function.update_of_ne hqp _ _).symm

/-! ### Behind the filter -/

theorem etherTypeArp_ne {m : Mbuf} (h : etherType m = etherTypeArp) :
    etherType m ≠ etherTypeIpv4 ∧ etherType m ≠ etherTypeIpv6 := by
  rw [h]
  decide

/-- An ARP frame is none of the IKE packets. -/
theorem ikeTest_arp {m : Mbuf} (h : etherType m = etherTypeArp) : (ikeTest m).1 = false := by
  rw [ikeTest, if_pos (etherTypeArp_ne h).1]

theorem prepareOnePacket_arp {m : Mbuf} (h : etherType m = etherTypeArp) :
    prepareOnePacket conf m = some (.freed, m) := by
  rw [prepareOnePacket, if_neg (etherTypeArp_ne h).1, if_neg (etherTypeArp_ne h).2]
  rfl

/-- A frame with an Ethernet header is put into a class. -/
theorem prepareOnePacket_some (conf : PollConf) {m : Mbuf} (h : rteEtherHdrLen ≤ m.dataLen) :
    ∃ r, prepareOnePacket conf m = some r := by
  have hadj : ∃ r, rtePktmbufAdj m rteEtherHdrLen = some r := ⟨_, dif_pos h⟩
  obtain ⟨r, hr⟩ := hadj
  rw [prepareOnePacket, hr]
  by_cases h4 : etherType m = etherTypeIpv4
  · rw [if_pos h4]
    exact ⟨_, rfl⟩
  · rw [if_neg h4]
    by_cases h6 : etherType m = etherTypeIpv6
    · rw [if_pos h6]
      exact ⟨_, rfl⟩
    · rw [if_neg h6]
      exact ⟨_, rfl⟩

/-- An ARP frame while `todo` is still to be prepared. -/
structure Passes (w : World) (q : PktId) (todo : List PktId) (r : SecgwModel.Burst × World) :
    Prop where
  nodup : todo.Nodup
  ahead : ∀ p ∈ todo, r.2.mbuf p = w.mbuf p
  mbuf : r.2.mbuf q = w.mbuf q
  aside : q ∉ InboundPolicy.members r.1
  freed : r.2.freed.count q = w.freed.count q + if q ∈ todo then 0 else 1

theorem Passes.one {w : World} {q p : PktId} {todo : List PktId}
    {r : SecgwModel.Burst × World} (h : Passes w q (p :: todo) r)
    (hq : etherType (w.mbuf q) = etherTypeArp) (hp : rteEtherHdrLen ≤ (w.mbuf p).dataLen) :
    Ends (prepareTrafficOne conf r p) (fun _ => False) (Passes w q todo) := by
  obtain ⟨hnp, hnodup⟩ := List.nodup_cons.mp h.nodup
  have hpm : r.2.mbuf p = w.mbuf p := h.ahead p List.mem_cons_self
  obtain ⟨⟨cls, m⟩, hprep⟩ := prepareOnePacket_some conf hp
  rw [prepareTrafficOne, hpm, hprep]
  -- the other frames are left alone
  have htodo : ∀ x ∈ todo, (r.2.modify p fun _ => m).mbuf x = w.mbuf x := by
    intro x hx
    have hxp : x ≠ p := fun h => hnp (h ▸ hx)
    exact (Function.update_of_ne hxp _ _).trans (h.ahead x (List.mem_cons_of_mem _ hx))
  by_cases hqp : q = p
  · -- the frame itself is freed
    subst hqp
    rw [prepareOnePacket_arp hq] at hprep
    obtain ⟨rfl, rfl⟩ := Prod.mk.inj (Option.some.inj hprep)
    have hcount := h.freed
    rw [if_pos List.mem_cons_self] at hcount
    refine ⟨hnodup, htodo, Function.update_self _ _ _, h.aside, ?_⟩
    show (r.2.freed ++ [q]).count q = _
    rw [if_neg hnp, List.count_append, hcount, List.count_singleton_self]
  · have hcount := h.freed
    -- another packet: the frame stays where it was
    have hmem : (q ∈ p :: todo) = (q ∈ todo) := by
      rw [List.mem_cons, eq_iff_iff]
      exact or_iff_right hqp
    simp only [hmem] at hcount
    have hmbuf : (r.2.modify p fun _ => m).mbuf q = w.mbuf q :=
      (Function.update_of_ne hqp _ _).trans h.mbuf
    -- which joins no list either
    have haside : q ∉ InboundPolicy.members (r.1.add p cls) := by
      intro hin
      rcases InboundPolicy.members_add r.1 p cls with hperm | hsame
      · rcases List.mem_append.mp (hperm.mem_iff.mp hin) with hin | hin
        · exact h.aside hin
        · exact hqp (List.mem_singleton.mp hin)
      · exact h.aside (hsame ▸ hin)
    by_cases hcls : cls = .freed
    · refine ends_ok ?_
      rw [if_pos hcls]
      refine ⟨hnodup, htodo, hmbuf, haside, ?_⟩
      show (r.2.freed ++ [p]).count q = _
      rw [List.count_append, hcount, List.count_singleton, beq_eq_false_iff_ne.mpr (Ne.symm hqp)]
      rfl
    · refine ends_ok ?_
      rw [if_neg hcls]
      exact ⟨hnodup, htodo, hmbuf, haside, hcount⟩

/-- **FREED** once, and in no array behind `prepare_traffic`. -/
theorem prepareTraffic_arp (conf : PollConf) {pkts : List PktId} {w : World}
    (hnodup : pkts.Nodup) (hheader : ∀ p ∈ pkts, rteEtherHdrLen ≤ (w.mbuf p).dataLen)
    {q : PktId} (hmem : q ∈ pkts) (hq : etherType (w.mbuf q) = etherTypeArp) :
    Ends (prepareTraffic conf pkts w) (fun _ => False) (fun r => r.2.mbuf q = w.mbuf q
      ∧ r.2.freed.count q = w.freed.count q + 1 ∧ q ∉ InboundPolicy.members r.1) := by
  have hloop : Ends (prepareTraffic conf pkts w) (fun _ => False)
      (fun r => (∀ p ∈ ([] : List PktId), p ∈ pkts) ∧ Passes w q [] r) := by
    refine ends_foldlM (P := fun todo r => (∀ p ∈ todo, p ∈ pkts) ∧ Passes w q todo r)
      ⟨fun _ h => h, hnodup, fun _ _ => rfl, rfl, List.not_mem_nil, ?_⟩ ?_
    · rw [if_pos hmem]
      rfl
    · rintro p todo r ⟨hsub, h⟩
      refine (h.one hq (hheader p (hsub p List.mem_cons_self))).mono (fun _ h => h) ?_
      intro r' hr'
      exact ⟨fun x hx => hsub x (List.mem_cons_of_mem _ hx), hr'⟩
  refine hloop.mono (fun _ h => h) ?_
  rintro r ⟨-, h⟩
  exact ⟨h.mbuf, h.freed, h.aside⟩

theorem prepareTraffic_ok (conf : PollConf) {pkts : List PktId} {w : World} (hnodup : pkts.Nodup)
    (hheader : ∀ p ∈ pkts, rteEtherHdrLen ≤ (w.mbuf p).dataLen) :
    ∃ r, prepareTraffic conf pkts w = .ok r := by
  have hloop : Ends (prepareTraffic conf pkts w) (fun _ => False) (fun _ => True) := by
    refine (ends_foldlM (P := fun todo (r : SecgwModel.Burst × World) => todo.Nodup
      ∧ ∀ p ∈ todo, p ∈ pkts ∧ r.2.mbuf p = w.mbuf p)
      ⟨hnodup, fun _ h => ⟨h, rfl⟩⟩ ?_).mono (fun _ h => h) (fun _ _ => trivial)
    rintro p todo r ⟨hnodup, htodo⟩
    obtain ⟨hnp, hnodup⟩ := List.nodup_cons.mp hnodup
    obtain ⟨hp, hpm⟩ := htodo p List.mem_cons_self
    obtain ⟨⟨cls, m⟩, hprep⟩ := prepareOnePacket_some conf (hheader p hp)
    rw [prepareTrafficOne, hpm, hprep]
    refine ends_ok ⟨hnodup, ?_⟩
    intro x hx
    obtain ⟨hxp, hxm⟩ := htodo x (List.mem_cons_of_mem _ hx)
    have hne : x ≠ p := fun h => hnp (h ▸ hx)
    have hbeside : (r.2.modify p fun _ => m).mbuf x = r.2.mbuf x :=
      Function.update_of_ne hne _ _
    refine ⟨hxp, Eq.trans ?_ (hbeside.trans hxm)⟩
    dsimp only
    split <;> rfl
  cases hrun : prepareTraffic conf pkts w with
  | ok r => exact ⟨r, rfl⟩
  | error e => exact (hloop.of_error hrun).elim

/-- What is left of a burst when IKE has been taken out. -/
theorem takeOutIke_left (kni : List PktId → PktId → Bool) (client : Bool) (pkts : List PktId)
    (w : World) :
    (takeOutIke kni client pkts w).1.Sublist pkts
      ∧ (takeOutIke kni client pkts w).2.mbuf = w.mbuf
      ∧ ∀ q ∈ pkts, etherType (w.mbuf q) = etherTypeArp →
        q ∈ (takeOutIke kni client pkts w).1
          ∧ (takeOutIke kni client pkts w).2.freed.count q = w.freed.count q := by
  cases client with
  | true => exact ⟨List.Sublist.refl _, rfl, fun q hq _ => ⟨hq, rfl⟩⟩
  | false =>
      have hnew := KniFilter.filterIke_new kni w pkts {}
      have hgone := KniFilter.filterIke_gone kni w pkts {}
      have hleft : (takeOutIke kni false pkts w).1
          = pkts.filter fun p => !(ikeTest (w.mbuf p)).1 := hnew
      refine ⟨hleft ▸ List.filter_sublist, rfl, ?_⟩
      intro q hq harp
      have htest := ikeTest_arp harp
      refine ⟨?_, ?_⟩
      · rw [hleft, List.mem_filter, htest]
        exact ⟨hq, rfl⟩
      · have hnone : (pkts.foldl (filterIkeOne kni w) {}).freed.count q = 0 := by
          rw [List.count_eq_zero]
          intro hfreed
          have hmem := (hgone.mem_iff (a := q)).mp (List.mem_append_right _ hfreed)
          have hike := (List.mem_filter.mp hmem).2
          rw [htest] at hike
          cases hike
        show (w.freed ++ (pkts.foldl (filterIkeOne kni w) {}).freed).count q = _
        rw [List.count_append, hnone, Nat.add_zero]

/-- What is owed to the ARP frames of a burst from `port`: the reply or nothing, and the
    frame freed once and no longer handled. -/
def BurstRight (port : UInt16) (w : World) (pkts : List PktId)
    (r : Except Fault (SecgwModel.Burst × ArpState)) : Prop :=
  ∃ t s, r = .ok (t, s) ∧ ∀ p ∈ pkts, etherType (w.mbuf p) = etherTypeArp →
    FrameRight port (w.mbuf p) (s.world.mbuf p) (s.sent p)
      ∧ s.world.freed.count p = w.freed.count p + 1
      ∧ p ∉ InboundPolicy.members t

/-- The part behind `handle_packets`. -/
theorem receive_ok (env : ArpEnv) (conf : PollConf) (kni : List PktId → PktId → Bool)
    (client : Bool) {w : World} (b : RxBurst w)
    (hok : ∀ p ∈ b.pkts, ∃ r, dpiArp env p (w.mbuf p) = .ok r) :
    ∃ t s, receive env conf kni client b.pkts w = .ok (t, s)
      ∧ ∀ p ∈ b.pkts, etherType (w.mbuf p) = etherTypeArp →
        (∃ r, handlePacketArp env p (w.mbuf p) = .ok r ∧ s.world.mbuf p = r.1 ∧ s.sent p = r.2)
          ∧ s.world.freed.count p = w.freed.count p + 1 ∧ p ∉ InboundPolicy.members t := by
  obtain ⟨s, hs, hseen⟩ := handlePackets_seen b.nodup ⟨w, fun _ => []⟩ hok
  obtain ⟨hsub, hmbuf, hleft⟩ := takeOutIke_left kni client b.pkts s.world
  have hnodup := b.nodup.sublist hsub
  have hframe : ∀ p ∈ b.pkts, (s.world.mbuf p).dataLen = (w.mbuf p).dataLen
      ∧ etherType (s.world.mbuf p) = etherType (w.mbuf p) := by
    intro p hp
    obtain ⟨r, hr, hrm, -⟩ := hseen.each p hp
    rw [hrm]
    exact dpiArp_frame hr
  have hheader : ∀ p ∈ (takeOutIke kni client b.pkts s.world).1,
      rteEtherHdrLen ≤ ((takeOutIke kni client b.pkts s.world).2.mbuf p).dataLen := by
    intro p hp
    rw [hmbuf, (hframe p (hsub.mem hp)).1]
    exact b.header p (hsub.mem hp)
  obtain ⟨⟨t, w'⟩, hprep⟩ := prepareTraffic_ok conf hnodup hheader
  refine ⟨t, { s with world := w' }, ?_, ?_⟩
  · rw [receive, hs]
    show (prepareTraffic conf _ _).bind _ = _
    rw [hprep]
    rfl
  · intro p hp harp
    have harp' : etherType (s.world.mbuf p) = etherTypeArp := (hframe p hp).2.trans harp
    obtain ⟨hin, hcount⟩ := hleft p hp harp'
    obtain ⟨r, hr, hrm, hrs⟩ := hseen.each p hp
    obtain ⟨hm', hfreed, haside⟩ :=
      (prepareTraffic_arp conf hnodup hheader hin (by rw [hmbuf]; exact harp')).of_ok hprep
    rw [dpiArp, if_pos harp] at hr
    refine ⟨⟨r, hr, ?_, hrs⟩, ?_, haside⟩
    · exact hm'.trans ((congrFun hmbuf p).trans hrm)
    · exact hfreed.trans (congrArg (· + 1) (hcount.trans (congrArg (List.count p) hseen.freed)))

/-- **ARP**: a burst is treated as it must be exactly where each of its ARP frames is
    one the code is right for. -/
theorem receive_right_iff (env : ArpEnv) (conf : PollConf) (kni : List PktId → PktId → Bool)
    (client : Bool) (port : UInt16) (w : World) (b : RxBurst w) :
    BurstRight port w b.pkts (receive env conf kni client b.pkts w)
      ↔ ∀ p ∈ b.pkts, etherType (w.mbuf p) = etherTypeArp → Served env port p (w.mbuf p) := by
  constructor
  · rintro ⟨t, s, hrun, hright⟩ p hp harp
    have hok : ∀ p ∈ b.pkts, ∃ r, dpiArp env p (w.mbuf p) = .ok r := by
      cases hs : handlePackets env b.pkts ⟨w, fun _ => []⟩ with
      | ok s' =>
          have heach := handlePackets_each b.nodup hs
          exact heach
      | error e =>
          rw [receive, hs] at hrun
          cases hrun
    obtain ⟨t', s', hrun', heach⟩ := receive_ok env conf kni client b hok
    obtain ⟨rfl, rfl⟩ := Prod.mk.inj (Except.ok.inj (hrun.symm.trans hrun'))
    obtain ⟨⟨r, hr, hm, hsent⟩, -⟩ := heach p hp harp
    refine handlePacketArp_right_iff.mp ⟨r, hr, ?_⟩
    rw [← hm, ← hsent]
    exact (hright p hp harp).1
  · intro hserved
    have hok : ∀ p ∈ b.pkts, ∃ r, dpiArp env p (w.mbuf p) = .ok r := by
      intro p hp
      rw [dpiArp]
      by_cases harp : etherType (w.mbuf p) = etherTypeArp
      · rw [if_pos harp]
        obtain ⟨r, hr, -⟩ := handlePacketArp_right_iff.mpr (hserved p hp harp)
        exact ⟨r, hr⟩
      · exact ⟨_, if_neg harp⟩
    obtain ⟨t, s, hrun, heach⟩ := receive_ok env conf kni client b hok
    refine ⟨t, s, hrun, ?_⟩
    intro p hp harp
    obtain ⟨⟨r, hr, hm, hsent⟩, hrest⟩ := heach p hp harp
    refine ⟨?_, hrest⟩
    obtain ⟨r', hr', hright⟩ := handlePacketArp_right_iff.mpr (hserved p hp harp)
    obtain rfl := Except.ok.inj (hr.symm.trans hr')
    rw [hm, hsent]
    exact hright

end Burst

/-- The broadcast of 192.168.6.2 that asks for 192.168.6.1. -/
def arpRequest : Mbuf :=
  Mbuf.mid (store (fun _ => 0) 128
    [0xff, 0xff, 0xff, 0xff, 0xff, 0xff, 2, 0, 0, 0, 0, 1, 0x08, 0x06, 0, 1, 0x08, 0, 6, 4, 0, 1,
      2, 0, 0, 0, 0, 1, 192, 168, 6, 2, 0, 0, 0, 0, 0, 0, 192, 168, 6, 1]) 42

/-- A burst of this request alone. -/
def arpBurst : RxBurst { mbuf := fun _ => arpRequest, sa := fun _ => {} } where
  pkts := [0]
  nodup := List.nodup_singleton 0
  header := fun _ _ => Nat.le_of_ble_eq_true rfl

/-- On port 1 it is answered on port 0. -/
theorem arpRequest_port_one :
    ¬BurstRight 1 { mbuf := fun _ => arpRequest, sa := fun _ => {} } arpBurst.pkts
      (receive ⟨fun _ => true, fun _ => true⟩ KniFilter.natConf (fun _ _ => true) false
        arpBurst.pkts { mbuf := fun _ => arpRequest, sa := fun _ => {} }) := by
  have harp : etherType arpRequest = etherTypeArp := by decide
  have hasks : asks arpRequest = true := by decide
  have hsent : dpiArp ⟨fun _ => true, fun _ => true⟩ 0 arpRequest = .ok _ :=
    (if_pos harp).trans (handlePacketArp_sent hasks rfl)
  rintro ⟨t, s, hrun, hright⟩
  obtain ⟨t', s', hrun', heach⟩ := receive_ok ⟨fun _ => true, fun _ => true⟩
    KniFilter.natConf (fun _ _ => true) false arpBurst (by
      intro p hp
      obtain rfl := List.mem_singleton.mp hp
      exact ⟨_, hsent⟩)
  obtain ⟨rfl, rfl⟩ := Prod.mk.inj (Except.ok.inj (hrun.symm.trans hrun'))
  obtain ⟨⟨r, hr, -, hframes⟩, -⟩ := heach 0 List.mem_cons_self harp
  rw [handlePacketArp_sent hasks rfl] at hr
  obtain rfl := Except.ok.inj hr
  have hframe := (hright 0 List.mem_cons_self harp).1
  rw [FrameRight, if_pos ⟨hasks, by decide⟩, hframes] at hframe
  have hport : (0 : UInt16) = 1 := (Prod.mk.inj (List.cons.inj hframe).1).1
  exact absurd hport (by decide)

end Arp
