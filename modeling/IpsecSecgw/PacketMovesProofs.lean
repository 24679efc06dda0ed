import IpsecSecgw.HandlingProofs
import IpsecSecgw.Lib.Transfer

/-! # Where the packets of a call are

    A packet that is given to a context is in the buffer of a queue, in a queue
    of a device or in the offload array (`content`), has been freed, or comes
    back.  `Moves` is the balance of a call: each copy of a packet that was there
    or is given to it is at one of these places behind it. -/

namespace PacketMoves

open SaModel MbufModel CdevModel Esp IpsecModel Outcome Handling Transfer

variable {env : Env} {dir : Direction}

/-- The places of a context. -/
inductive Spot
  | buffer (i : Nat)
  | device (key : CdevQp)
  | offload
  deriving DecidableEq

/-- The packets at a place. -/
def content (s : State) : Spot → Multiset PktId
  | .buffer i => (s.1.tbl i).buf
  | .device key => (s.2.pair key).held
  | .offload => s.1.olPkts

/-- **A CALL** that takes `a`, gives back `b` and frees `l`. -/
structure Moves (s : State) (a b l : List PktId) (s' : State) : Prop where
  freed : s'.2.freed = s.2.freed ++ l
  balance : Transfers (content s) (a : Multiset PktId) ((b ++ l : List PktId) : Multiset PktId)
    (content s')

/-- The places of a context are its own and the queues of the devices. -/
theorem content_congr {ctx : IpsecCtx} {w w' : World} (hpair : w'.pair = w.pair) :
    content (ctx, w') = content (ctx, w) := by
  funext k
  cases k with
  | device key => exact congrArg (fun pair => (↑(pair key).held : Multiset PktId)) hpair
  | buffer i => rfl
  | offload => rfl

/-- Packets are freed or given back, and no place changes. -/
theorem Moves.aside {ctx : IpsecCtx} {w w' : World} {a b l : List PktId}
    (hpair : w'.pair = w.pair) (hfreed : w'.freed = w.freed ++ l)
    (hperm : (b ++ l).Perm a) : Moves (ctx, w) a b l (ctx, w') := by
  refine ⟨hfreed, ?_⟩
  rw [content_congr hpair, Multiset.coe_eq_coe.mpr hperm]
  exact Transfers.pass _ _

theorem Moves.refl (s : State) : Moves s [] [] [] s :=
  Moves.aside rfl (List.append_nil _).symm (List.Perm.refl _)

/-- What goes in or comes back may be written in another order. -/
theorem Moves.cast {s s' : State} {a b l a' b' : List PktId} (h : Moves s a b l s')
    (ha : a.Perm a') (hb : b.Perm b') : Moves s a' b' l s' := by
  refine ⟨h.freed, ?_⟩
  rw [← Multiset.coe_eq_coe.mpr ha, ← Multiset.coe_eq_coe.mpr (hb.append_right l)]
  exact h.balance

/-- **ONE CALL** behind the other. -/
theorem Moves.trans {s s' s'' : State} {a b l a' b' l' : List PktId}
    (h : Moves s a b l s') (h' : Moves s' a' b' l' s'') :
    Moves s (a ++ a') (b ++ b') (l ++ l') s'' := by
  refine ⟨?_, ?_⟩
  · rw [h'.freed, h.freed, List.append_assoc]
  · have hsum := h.balance.trans h'.balance
    rw [Multiset.coe_add, Multiset.coe_add] at hsum
    have hperm : (b ++ l ++ (b' ++ l')).Perm (b ++ b' ++ (l ++ l')) := by
      refine List.perm_iff_count.mpr fun x => ?_
      simp only [List.count_append]
      omega
    rw [← Multiset.coe_eq_coe.mpr hperm]
    exact hsum

/-- **A CALL** on what the call before has given back. -/
theorem Moves.then {s s' s'' : State} {a b l c l' : List PktId} (h : Moves s a b l s')
    (h' : Moves s' b c l' s'') : Moves s a c (l ++ l') s'' := by
  have hboth := (h.trans h').balance
  have hperm : (b ++ c ++ (l ++ l')).Perm (c ++ (l ++ l') ++ b) := by
    refine List.perm_iff_count.mpr fun x => ?_
    simp only [List.count_append]
    omega
  rw [Multiset.coe_eq_coe.mpr hperm, ← Multiset.coe_add, ← Multiset.coe_add] at hboth
  exact ⟨(h.trans h').freed, hboth.cancel⟩

/-- The packets freed are known from the log. -/
theorem Moves.freed_eq {s s' : State} {a b l l' : List PktId} (h : Moves s a b l s')
    (hfreed : s'.2.freed = s.2.freed ++ l') : l = l' :=
  List.append_cancel_left (h.freed.symm.trans hfreed)

/-- A packet is among `gone` once and at no place, or at one place, once. -/
def Once (s : State) (gone : List PktId) (x : PktId) : Prop :=
  (gone.count x = 1 ∧ ∀ k, x ∉ content s k)
    ∨ x ∉ gone ∧ ∃ k, (content s k).count x = 1 ∧ ∀ j, j ≠ k → x ∉ content s j

/-- **A NEW PACKET** is at one place behind a call. -/
theorem Moves.once {s s' : State} {a b l : List PktId} (h : Moves s a b l s')
    (hnodup : a.Nodup) {x : PktId} (hx : x ∈ a) (hfresh : ∀ k, x ∉ content s k) :
    Once s' (b ++ l) x := by
  have hone : (↑a : Multiset PktId).count x = 1 := by
    rw [Multiset.coe_count]
    exact List.count_eq_one_of_mem hnodup hx
  have honce := h.balance.once hfresh hone
  rw [Multiset.coe_count] at honce
  exact honce

/-- **A QUEUE**: its buffer and the queue of its device. -/
theorem queue_moves {s : State} {i : Nat} {ops : List PktId} {r : CdevQueue × World}
    (h : QueueFrame (s.1.tbl i) ops s.2 r) :
    ∃ l, Moves s ops [] l (s.1.setQueue i r.1, r.2) := by
  obtain ⟨l, hfreed, -, hperm⟩ := h.freed
  refine ⟨l, hfreed, Transfers.between (k := .device (s.1.tbl i).toCdevQp) (l := .buffer i)
    (fun he => by cases he) ?_ ?_⟩
  · intro k hdevice hbuffer
    cases k with
    | device key =>
        have hkey : key ≠ (s.1.tbl i).toCdevQp := fun he => hdevice (congrArg Spot.device he)
        exact congrArg (fun p : QueuePair => (↑p.held : Multiset PktId)) (h.others key hkey)
    | buffer j =>
        have hj : j ≠ i := fun he => hbuffer (congrArg Spot.buffer he)
        have htbl : (s.1.setQueue i r.1).tbl j = s.1.tbl j := Function.update_of_ne hj _ _
        exact congrArg (fun q : CdevQueue => (↑q.buf : Multiset PktId)) htbl
    | offload => rfl
  · have htbl : (s.1.setQueue i r.1).tbl i = r.1 := Function.update_self _ _ _
    have hbuf : content (s.1.setQueue i r.1, r.2) (.buffer i) = (↑r.1.buf : Multiset PktId) :=
      congrArg (fun q : CdevQueue => (↑q.buf : Multiset PktId)) htbl
    rw [hbuf, List.nil_append]
    show (↑(r.2.pair (s.1.tbl i).toCdevQp).held + ↑r.1.buf + ↑l : Multiset PktId)
      = ↑(s.2.pair (s.1.tbl i).toCdevQp).held + ↑(s.1.tbl i).buf + ↑ops
    rw [Multiset.coe_add, Multiset.coe_add, Multiset.coe_add, Multiset.coe_add,
      List.append_assoc _ (s.1.tbl i).buf]
    exact Multiset.coe_eq_coe.mpr hperm

/-! ## The legacy path -/

/-- A packet joins the offload array. -/
theorem pushOl_moves (ctx : IpsecCtx) (w : World) (x : PktId) :
    Moves (ctx, w) [x] [] [] ({ ctx with olPkts := ctx.olPkts ++ [x] }, w) := by
  refine ⟨(List.append_nil _).symm, Transfers.single .offload ?_ ?_⟩
  · intro k hk
    cases k with
    | offload => exact absurd rfl hk
    | buffer i => rfl
    | device key => rfl
  · show (↑(ctx.olPkts ++ [x]) + ↑([] : List PktId) : Multiset PktId)
      = ↑ctx.olPkts + ↑[x]
    rw [Multiset.coe_add, Multiset.coe_add, List.append_nil]

/-- A packet leaves it, and is given back or freed. -/
theorem popOl_moves {ctx : IpsecCtx} {w w' : World} {x : PktId} {b l : List PktId}
    (hlast : ctx.olPkts.getLast? = some x) (hpair : w'.pair = w.pair)
    (hfreed : w'.freed = w.freed ++ l) (hone : b ++ l = [x]) :
    Moves (ctx, w) [] b l ({ ctx with olPkts := ctx.olPkts.dropLast }, w') := by
  refine ⟨hfreed, Transfers.single .offload ?_ ?_⟩
  · intro k hk
    cases k with
    | offload => exact absurd rfl hk
    | buffer i => rfl
    | device key =>
        exact congrArg (fun pair => (↑(pair key).held : Multiset PktId)) hpair
  · rw [hone]
    show (↑ctx.olPkts.dropLast + ↑[x] : Multiset PktId) = ↑ctx.olPkts + ↑([] : List PktId)
    rw [Multiset.coe_add, Multiset.coe_add, List.append_nil,
      List.dropLast_append_getLast? x (by rw [hlast]; rfl)]

/-- **ONE PACKET** of `ipsec_enqueue`. -/
theorem ipsecEnqueueOne_moves (env : Env) (dir : Direction) (s : State)
    (x : PktId × Option SaRef) :
    Ends (ipsecEnqueueOne env (enqueueXform dir) s x) (fun _ => True)
      (fun s' => ∃ l, Moves s [x.1] [] l s') := by
  rw [ipsecEnqueueOne]
  split
  · exact ends_ok ⟨[x.1], Moves.aside rfl rfl (List.Perm.refl _)⟩
  rename_i p fb _
  refine (prepareOp_touches env (enqueueXform_gentle dir) s.1 x.1 p s.2).bind ?_
  rintro ⟨dest, w⟩ ⟨hw, -⟩
  dsimp only at hw ⊢
  -- preparing a packet moves none
  have hprepared : Moves (s.1, s.2) [] [] [] (s.1, w) :=
    Moves.aside hw.pair (hw.freed.trans (List.append_nil _).symm) (List.Perm.refl _)
  split
  · exact ends_pure ⟨[x.1], Moves.aside hw.pair (congrArg (· ++ [x.1]) hw.freed)
      (List.Perm.refl _)⟩
  · rw [IpsecCtx.pushOl]
    split
    · exact ends_error trivial
    · exact ends_ok ⟨[], hprepared.trans (pushOl_moves s.1 w x.1)⟩
  · refine (enqueueCop_frame env x.1 _ _).bind ?_
    intro r hr
    have hframe : QueueFrame (s.1.tbl (w.sa p).cdevIdQp.toNat) [x.1] w r :=
      ⟨hr.mbuf, hr.sa, hr.processed, hr.key, hr.others, hr.buf, hr.held, hr.freed⟩
    obtain ⟨l, hmoves⟩ := queue_moves (s := (s.1, w)) hframe
    exact ends_pure ⟨l, hprepared.trans hmoves⟩

/-- **THE BURST**: `ipsec_enqueue`. -/
theorem ipsecEnqueue_moves (env : Env) (dir : Direction)
    (burst : List (PktId × Option SaRef)) (s : State) :
    Ends (ipsecEnqueue env (enqueueXform dir) burst s) (fun _ => True)
      (fun s' => ∃ l, Moves s (burst.map Prod.fst) [] l s') := by
  rw [ipsecEnqueue]
  refine (ends_foldlM (P := fun todo s' => ∃ done l, done ++ todo = burst
    ∧ Moves s (done.map Prod.fst) [] l s')
    ⟨[], [], rfl, Moves.refl s⟩ ?_).mono (fun _ h => h) ?_
  · rintro x todo s' ⟨done, l, hdone, h⟩
    refine (ipsecEnqueueOne_moves env dir s' x).mono (fun _ h => h) ?_
    rintro s'' ⟨l', h'⟩
    refine ⟨done ++ [x], l ++ l', ?_, ?_⟩
    · rw [List.append_assoc]
      exact hdone
    · rw [List.map_append]
      exact h.trans h'
  · rintro s' ⟨done, l, hdone, h⟩
    rw [List.append_nil] at hdone
    subst hdone
    exact ⟨l, h⟩

/-- **THE OFFLOAD ARRAY** is emptied from its end. -/
theorem ipsecInlineDequeue_moves (dir : Direction) (maxPkts fuel : Nat)
    (pkts : List PktId) (s : State) :
    Ends (ipsecInlineDequeue (dequeueXform dir) maxPkts fuel pkts s) (fun _ => True)
      (fun r => ∃ out l, r.1 = pkts ++ out ∧ Moves s [] out l r.2) := by
  induction fuel generalizing pkts s with
  | zero => exact ends_ok ⟨[], [], (List.append_nil _).symm, Moves.refl s⟩
  | succ fuel ih =>
      rw [ipsecInlineDequeue]
      split
      · exact ends_ok ⟨[], [], (List.append_nil _).symm, Moves.refl s⟩
      rename_i x hlast
      split
      · exact ends_ok ⟨[], [], (List.append_nil _).symm, Moves.refl s⟩
      refine ((CryptoQueue.privSa_ok s.2 x).mono (fun _ _ => trivial) fun _ h => h).bind ?_
      intro p _
      refine (PacketOrder.xform_posted s.2 x p).bind ?_
      rintro ⟨ret, w⟩ ⟨hw, -, hfreed, -⟩
      dsimp only at hfreed ⊢
      split
      · have hpop : Moves (s.1, s.2) [] [] [x]
            ({ s.1 with olPkts := s.1.olPkts.dropLast }, w.freePkts [x]) :=
          popOl_moves hlast hw.pair (congrArg (· ++ [x]) hfreed) rfl
        refine (ih pkts _).mono (fun _ h => h) ?_
        rintro r ⟨out, l, hout, h⟩
        exact ⟨out, [x] ++ l, hout, hpop.trans h⟩
      · have hpop : Moves (s.1, s.2) [] [x] []
            ({ s.1 with olPkts := s.1.olPkts.dropLast }, w.logProcessed (p, false) [x]) :=
          popOl_moves hlast hw.pair (hfreed.trans (List.append_nil _).symm) rfl
        refine (ih (pkts ++ [x]) _).mono (fun _ h => h) ?_
        rintro r ⟨out, l, hout, h⟩
        refine ⟨[x] ++ out, l, ?_, hpop.trans h⟩
        rw [hout, List.append_assoc]

/-- **A CALL** of `ipsec_inbound` or `ipsec_outbound`. -/
theorem ipsecBurst_moves (env : Env) (dir : Direction)
    (burst : List (PktId × Option SaRef)) (len : Nat) (s : State) :
    Ends (ipsecBurst env (enqueueXform dir) (dequeueXform dir) burst len s) (fun _ => True)
      (fun r => ∃ l, Moves s (burst.map Prod.fst) r.1 l r.2) := by
  rw [ipsecBurst]
  refine (ipsecEnqueue_moves env dir burst s).bind ?_
  rintro s1 ⟨l, h⟩
  refine (ipsecInlineDequeue_moves dir len _ [] s1).mono (fun _ h => h) ?_
  rintro r ⟨out, l', hout, h'⟩
  refine ⟨l ++ l', ?_⟩
  rw [hout, List.nil_append]
  exact (h.trans h').cast (List.Perm.of_eq (List.append_nil _)) (List.Perm.refl _)

end PacketMoves
