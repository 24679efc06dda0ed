import IpsecSecgw.IpsecProcessProofs
import IpsecSecgw.PacketMovesProofs

/-! # What `librte_ipsec` does to the packets of a group

    The account of `Handling` for the other crypto path.  What it says about
    tags rests on laws of `librte_ipsec` and the devices (`Lawful`), and is
    stated for `K` from which they follow; where packets are goes without. -/

namespace Handling

open SaModel MbufModel CdevModel Esp IpsecModel Outcome Ipsec SecgwModel
open PacketMoves (Moves)
open PacketOrder (saOf)

variable {env : Env} {lib : CryptoGroup} {K : Prop}

/-! ## Writing several packets -/

theorem modifyAll_other {ps : List PktId} {f : PktId → Mbuf → Mbuf} {w : World}
    {x : PktId} (hx : x ∉ ps) : (w.modifyAll ps f).mbuf x = w.mbuf x := by
  induction ps generalizing w with
  | nil => rfl
  | cons p ps ih =>
      have hne : x ≠ p := List.ne_of_not_mem_cons hx
      refine (ih (List.not_mem_of_not_mem_cons hx)).trans ?_
      exact Function.update_of_ne hne _ _

/-- What no single write changes. -/
theorem modifyAll_view {V : Type} (view : Mbuf → V) (ps : List PktId)
    {f : PktId → Mbuf → Mbuf} (w : World) (hf : ∀ p m, view (f p m) = view m)
    (x : PktId) : view ((w.modifyAll ps f).mbuf x) = view (w.mbuf x) := by
  induction ps generalizing w with
  | nil => rfl
  | cons p ps ih =>
      refine (ih (w.modify p (f p))).trans ?_
      by_cases hx : x = p
      · rw [hx]
        show view (Function.update w.mbuf p _ p) = _
        rw [Function.update_self]
        exact hf p _
      · exact congrArg view (Function.update_of_ne hx _ _)

/-- What every single write establishes. -/
theorem modifyAll_all {P : Mbuf → Prop} {ps : List PktId} {f : PktId → Mbuf → Mbuf}
    (w : World) (hf : ∀ p m, P (f p m)) {x : PktId} (hx : x ∈ ps) :
    P ((w.modifyAll ps f).mbuf x) := by
  induction ps generalizing w with
  | nil => cases hx
  | cons p ps ih =>
      by_cases hin : x ∈ ps
      · exact ih (w.modify p (f p)) hin
      · obtain rfl := (List.mem_cons.mp hx).resolve_right hin
        show P (((w.modify x (f x)).modifyAll ps f).mbuf x)
        rw [modifyAll_other hin]
        show P (Function.update w.mbuf x _ x)
        rw [Function.update_self]
        exact hf x _

/-! ## The laws of the library -/

/-- What the program relies on: `librte_ipsec` and the devices leave the
    program's own private data alone, an operation carries the session it was
    prepared for, and a session of an inline device refuses the packets the
    device has failed. -/
structure Lawful (env : Env) (lib : CryptoGroup) : Prop where
  touchSa : ∀ w ref p m, (env.touch w ref p m).priv.sa = m.priv.sa
  completeSa : ∀ n p m, (env.complete n p m).priv.sa = m.priv.sa
  attached : ∀ w ref p m, Checked (session (w.sa ref.1) ref.2).type →
    lib.opSession (env.touch w ref p m) = ref
  carried : ∀ n p m, lib.opSession (env.complete n p m) = lib.opSession m
  refused : ∀ w ref l, ¬ IsLookaside (session (w.sa ref.1) ref.2).type →
    ∀ x ∈ (env.handle w ref l).1.take (env.handle w ref l).2,
      WorkerModel.offloadFailed (w.mbuf x) = false

/-- The session of an operation is one of the SA of its packet, and of a type
    with queues. -/
def Grouped (lib : CryptoGroup) (w : World) (x : PktId) : Prop :=
  ∃ q fb, saOf w x = some q ∧ lib.opSession (w.mbuf x) = (q, fb)
    ∧ Checked (session (w.sa q) fb).type

/-- What is claimed of packets in the queues. -/
def Queued (K : Prop) (lib : CryptoGroup) (w : World) (x : PktId) : Prop :=
  K → Grouped lib w x

theorem queued_stable : Stable (Queued K lib) := by
  intro w w' x hmbuf hsas h hK
  obtain ⟨q, fb, hq, hop, htype⟩ := h hK
  refine ⟨q, fb, ?_, ?_, (hsas.type q fb).checked htype⟩
  · rw [saOf, hmbuf]
    exact hq
  · rw [hmbuf]
    exact hop

/-! ## Work on a group -/

theorem members_fst (g : IpsecGroup) : g.members.map Prod.fst = g.pkts := by
  rw [IpsecGroup.members, List.map_map]
  exact List.map_id g.pkts

/-- Packets have been written for a session of `p`; nothing else has happened
    to packets, queues and freed packets. -/
structure Worked (K : Prop) (p : SaPtr) (pkts : List PktId) (w w' : World) :
    Prop where
  others : ∀ x, x ∉ pkts → w'.mbuf x = w.mbuf x
  tag : K → ∀ x ∈ pkts, saOf w' x = some p
  sas : SasKept w.sa w'.sa
  pair : w'.pair = w.pair
  freed : w'.freed = w.freed

/-- Only sessions have been worked on. -/
structure Ready (w w' : World) : Prop where
  mbuf : w'.mbuf = w.mbuf
  sas : SasKept w.sa w'.sa
  pair : w'.pair = w.pair
  freed : w'.freed = w.freed
  processed : w'.processed = w.processed

theorem Ready.refl (w : World) : Ready w w := ⟨rfl, SasKept.refl _, rfl, rfl, rfl⟩

/-- Filling a session touches no packet. -/
theorem fillIpsecSession_ready (env : Env) (ctx : IpsecCtx) (p : SaPtr) (fb : Bool)
    (w : World) : Ready w (fillIpsecSession env ctx p fb w).2 := by
  have htouch : ∀ pkt, Touches id pkt w (fillIpsecSession env ctx p fb w).2 :=
    fun pkt => fillIpsecSession_touches env ctx p fb pkt w
  obtain ⟨-, -, hsas, hpair, hfreed, hprocessed⟩ := htouch 0
  refine ⟨?_, hsas, hpair, hfreed, hprocessed⟩
  funext x
  exact (htouch x).view

theorem modifyAll_processed (ps : List PktId) (f : PktId → Mbuf → Mbuf) (w : World) :
    (w.modifyAll ps f).processed = w.processed := by
  induction ps generalizing w with
  | nil => rfl
  | cons p ps ih => exact ih (w.modify p (f p))

/-- Packets that have been written are given to the session, all or some. -/
theorem Worked.handle (hK : K → Lawful env lib) {p : SaPtr} (fb : Bool)
    {pkts part : List PktId} (hpart : part ⊆ pkts) {w w1 : World}
    (h : Worked K p pkts w w1) :
    Worked K p pkts w (rteIpsecHandle env (p, fb) part w1).2 := by
  rw [rteIpsecHandle]
  dsimp only
  obtain ⟨haside, hpair, hfreed⟩ := modifyAll_aside part (env.touch w1 (p, fb))
    { w1.next with handled := w1.handled ++ [(part, (p, fb))] }
  refine ⟨?_, ?_, ?_, hpair.trans h.pair, hfreed.trans h.freed⟩
  · intro x hx
    rw [modifyAll_other fun hin => hx (hpart hin)]
    exact h.others x hx
  · intro hk x hx
    exact (modifyAll_view (fun m => m.priv.sa) part _
      (fun y m => (hK hk).touchSa w1 (p, fb) y m) x).trans (h.tag hk x hx)
  · rw [haside.sa]
    exact h.sas

/-- Packets are written for the SA. -/
theorem Ready.worked {p : SaPtr} (pkts : List PktId) {f : Mbuf → Mbuf}
    (hf : ∀ m, (f m).priv.sa = some p) {w w1 : World} (hw : Ready w w1) :
    Worked K p pkts w (w1.modifyAll pkts fun _ => f) := by
  obtain ⟨haside, hpair, hfreed⟩ := modifyAll_aside pkts (fun _ => f) w1
  refine ⟨?_, ?_, ?_, hpair.trans hw.pair, hfreed.trans hw.freed⟩
  · intro x hx
    rw [modifyAll_other hx]
    exact congrFun hw.mbuf x
  · intro _ x hx
    exact modifyAll_all (P := fun m => m.priv.sa = some p) w1 (fun _ m => hf m) hx
  · rw [haside.sa]
    exact hw.sas

theorem handle_processed (env : Env) (ref : SaRef) (pkts : List PktId) (w : World) :
    (rteIpsecHandle env ref pkts w).2.processed = w.processed := by
  rw [rteIpsecHandle]
  exact modifyAll_processed pkts _ _

/-- A group that is freed as a whole. -/
theorem Ready.freed_handled {R : World → PktId → Prop} {s : State} {w : World}
    (hw : Ready s.2 w) (g : IpsecGroup) :
    Handled K R s g.members [] (s.1, w.freePkts g.pkts) := by
  refine ⟨fun x _ => congrFun hw.mbuf x, hw.sas,
    fun _ hx => absurd hx List.not_mem_nil, List.nodup_nil, ?_, g.pkts, ?_, ?_⟩
  · rintro x ⟨i, hx | hx⟩
    · exact .inl ⟨i, .inl hx⟩
    · refine .inl ⟨i, .inr ?_⟩
      rw [← hw.pair]
      exact hx
  · exact congrArg (· ++ g.pkts) hw.freed
  · intro x hx
    exact .inr ⟨members_fst g ▸ hx, List.not_mem_nil⟩

/-- Some of the packets of a group are given back, the others freed. -/
theorem Worked.handled {R : World → PktId → Prop} {s : State} {g : IpsecGroup}
    {p : SaPtr} {fb : Bool} {w : World} {out left : List PktId}
    (hid : g.id = some (p, fb)) (h : Worked K p g.pkts s.2 w)
    (hnodup : g.pkts.Nodup) (hperm : (out ++ left).Perm g.pkts) :
    Handled K R s g.members out (s.1, w.freePkts left) := by
  have hsplit := List.nodup_append.mp (hperm.nodup_iff.mpr hnodup)
  refine ⟨?_, h.sas, ?_, hsplit.1, ?_, left, congrArg (· ++ left) h.freed, ?_⟩
  · intro x hx
    rw [members_fst] at hx
    exact h.others x hx
  · intro x hx
    have hin : x ∈ g.pkts := hperm.mem_iff.mp (List.mem_append_left _ hx)
    refine ⟨p, fb, ?_, fun hk => h.tag hk x hin⟩
    rw [← hid]
    exact List.mem_map_of_mem hin
  · rintro x ⟨i, hx | hx⟩
    · exact .inl ⟨i, .inl hx⟩
    · refine .inl ⟨i, .inr ?_⟩
      rw [← h.pair]
      exact hx
  · intro x hx
    rw [members_fst]
    refine .inr ⟨hperm.mem_iff.mp (List.mem_append_right _ hx), ?_⟩
    intro hout
    exact hsplit.2.2 x hout x hx rfl

/-- Accepted packets of a group enter a queue, the others are freed. -/
theorem Worked.queued {R : World → PktId → Prop} {s : State} {g : IpsecGroup}
    {p : SaPtr} {i : Nat} {w : World} (w1 : World) {ops left : List PktId}
    {r : CdevQueue × World} (h : Worked K p g.pkts s.2 w)
    (hmbuf : w1.mbuf = w.mbuf) (hsa : w1.sa = w.sa) (hpair : w1.pair = w.pair)
    (hfreed : w1.freed = w.freed) (hperm : (ops ++ left).Perm g.pkts)
    (hr : QueueFrame (s.1.tbl i) ops w1 r)
    (hR : ∀ x ∈ ops, R (r.2.freePkts left) x) :
    Handled K R s g.members [] (s.1.setQueue i r.1, r.2.freePkts left) := by
  refine ⟨?_, ?_, fun _ hx => absurd hx List.not_mem_nil, List.nodup_nil, ?_, ?_⟩
  · intro x hx
    rw [members_fst] at hx
    show r.2.mbuf x = _
    rw [hr.mbuf, hmbuf]
    exact h.others x hx
  · show SasKept _ r.2.sa
    rw [hr.sa, hsa]
    exact h.sas
  · intro x hx
    rcases QueueFrame.waits (s := (s.1, w1)) hr hx with ⟨j, hx | hx⟩ | hx
    · exact .inl ⟨j, .inl hx⟩
    · refine .inl ⟨j, .inr ?_⟩
      rw [← h.pair, ← hpair]
      exact hx
    · refine .inr ⟨?_, List.not_mem_nil, hR x hx⟩
      rw [members_fst]
      exact hperm.mem_iff.mp (List.mem_append_left _ hx)
  · obtain ⟨l, hl, hsub, -⟩ := hr.freed
    refine ⟨l ++ left, ?_, ?_⟩
    · show r.2.freed ++ left = _
      rw [hl, hfreed, h.freed, List.append_assoc]
    · intro x hx
      rw [members_fst]
      rcases List.mem_append.mp hx with hx | hx
      · rcases List.mem_append.mp (hsub hx) with hx | hx
        · exact .inl ⟨i, .inl hx⟩
        · exact .inr ⟨hperm.mem_iff.mp (List.mem_append_left _ hx),
            List.not_mem_nil⟩
      · exact .inr ⟨hperm.mem_iff.mp (List.mem_append_right _ hx),
          List.not_mem_nil⟩

/-- A group that is freed has moved nothing else. -/
theorem Ready.moves {s : State} {w : World} (hw : Ready s.2 w) (g : IpsecGroup) :
    Moves s (g.members.map Prod.fst) [] g.pkts (s.1, w.freePkts g.pkts) := by
  rw [members_fst]
  exact Moves.aside hw.pair (congrArg (· ++ g.pkts) hw.freed) (List.Perm.refl _)

/-- Neither has one whose packets come back or are freed. -/
theorem Worked.moves {s : State} {g : IpsecGroup} {p : SaPtr} {w : World}
    {out left : List PktId} (h : Worked K p g.pkts s.2 w)
    (hperm : (out ++ left).Perm g.pkts) :
    Moves s (g.members.map Prod.fst) out left (s.1, w.freePkts left) := by
  rw [members_fst]
  exact Moves.aside h.pair (congrArg (· ++ left) h.freed) hperm

/-- Accepted packets move into the queue. -/
theorem Worked.queued_moves {s : State} {g : IpsecGroup} {p : SaPtr} {i : Nat}
    {w : World} (w1 : World) {ops left : List PktId} {r : CdevQueue × World}
    (h : Worked K p g.pkts s.2 w) (hpair : w1.pair = w.pair) (hfreed : w1.freed = w.freed)
    (hperm : (ops ++ left).Perm g.pkts) (hr : QueueFrame (s.1.tbl i) ops w1 r) :
    ∃ l, Moves s (g.members.map Prod.fst) [] l (s.1.setQueue i r.1, r.2.freePkts left) := by
  have hready : Moves (s.1, s.2) [] [] [] (s.1, w1) :=
    Moves.aside (hpair.trans h.pair) ((hfreed.trans h.freed).trans (List.append_nil _).symm)
      (List.Perm.refl _)
  obtain ⟨l, hqueue⟩ := PacketMoves.queue_moves (s := (s.1, w1)) hr
  have hleft : Moves (s.1.setQueue i r.1, r.2) left [] left
      (s.1.setQueue i r.1, r.2.freePkts left) := Moves.aside rfl rfl (List.Perm.refl _)
  refine ⟨l ++ left, ((hready.trans hqueue).trans hleft).cast ?_ (List.Perm.refl _)⟩
  rw [members_fst]
  exact hperm

/-! ## One group -/

/-- The traffic has grown by the packets given back. -/
def Grown (trf : Traffic) (out : List PktId) (trf' : Traffic) : Prop :=
  ∃ o4 o6, trf'.ip4 = trf.ip4 ++ o4 ∧ trf'.ip6 = trf.ip6 ++ o6 ∧ (o4 ++ o6).Perm out

theorem Grown.refl (trf : Traffic) : Grown trf [] trf :=
  ⟨[], [], (List.append_nil _).symm, (List.append_nil _).symm, List.Perm.refl _⟩

theorem Grown.trans {trf trf' trf'' : Traffic} {out out' : List PktId}
    (h : Grown trf out trf') (h' : Grown trf' out' trf'') :
    Grown trf (out ++ out') trf'' := by
  obtain ⟨o4, o6, h4, h6, hperm⟩ := h
  obtain ⟨o4', o6', h4', h6', hperm'⟩ := h'
  refine ⟨o4 ++ o4', o6 ++ o6', ?_, ?_, ?_⟩
  · rw [h4', h4, List.append_assoc]
  · rw [h6', h6, List.append_assoc]
  · refine List.Perm.trans ?_ (hperm.append hperm')
    rw [List.append_assoc, List.append_assoc, ← List.append_assoc o4' o6 o6',
      ← List.append_assoc o6 o4' o6']
    exact (List.perm_append_comm.append_right _).append_left _

/-- `copy_to_trf` puts packets into one of the two arrays. -/
theorem copyToTrf_grown (trf : Traffic) (satp : Satp) (pkts : List PktId) :
    Grown trf pkts (copyToTrf trf satp pkts) := by
  rw [copyToTrf]
  split
  · split
    · exact ⟨pkts, [], rfl, (List.append_nil _).symm, List.Perm.of_eq (List.append_nil _)⟩
    · exact ⟨[], pkts, (List.append_nil _).symm, rfl, List.Perm.refl _⟩
  · split
    · exact ⟨pkts, [], rfl, (List.append_nil _).symm, List.Perm.of_eq (List.append_nil _)⟩
    · exact ⟨[], pkts, (List.append_nil _).symm, rfl, List.Perm.refl _⟩

/-- Nothing is given back, nothing has been processed. -/
theorem credited_none {dir : Direction} {burst : List (PktId × Option SaRef)}
    {s s' : State} (h : s'.2.processed = s.2.processed) :
    Credited K dir burst s [] s' :=
  ⟨[], h.trans (List.append_nil _).symm, fun _ he => absurd he List.not_mem_nil,
    fun _ hx => absurd hx List.not_mem_nil⟩

theorem or_and (a b c : UInt64) : (a ||| b) &&& c = (a &&& c) ||| (b &&& c) := by
  refine UInt64.toBitVec_inj.mp ?_
  ext i hi
  simp only [UInt64.toBitVec_and, UInt64.toBitVec_or, BitVec.getElem_and,
    BitVec.getElem_or, Bool.and_or_distrib_right]

/-- Setting other flags does not change a test. -/
theorem or_and_of_disjoint (a : UInt64) {b c : UInt64} (h : b &&& c = 0) :
    (a ||| b) &&& c = a &&& c := by
  rw [or_and, h, UInt64.or_zero]

/-- The flags of the NIC are not those `prep_process_group` sets. -/
theorem prepProcess_failed (p : SaPtr) (sa : IpsecSa) (m : Mbuf) :
    WorkerModel.offloadFailed (prepProcess p sa m) = WorkerModel.offloadFailed m := by
  have hflags : ∀ c, (txTunnelEsp ||| txTcpSeg ||| txTcpCksum ||| txOuterIpCksum
      ||| txOuterIpv4 ||| txOuterIpv6) &&& c = 0 →
      (prepProcess p sa m).olFlags &&& c = m.olFlags &&& c := by
    intro c hc
    simp only [or_and, UInt64.or_eq_zero_iff] at hc
    obtain ⟨⟨⟨⟨⟨htunnel, hseg⟩, htcp⟩, hip⟩, houter4⟩, houter6⟩ := hc
    have hmode : (if isTunnel sa.flags then txTunnelEsp
        ||| (if isIpv4Hdr (setPrivSa p m).packetType then txOuterIpCksum else 0)
        else 0) &&& c = 0 := by
      split
      · rw [or_and_of_disjoint]
        · exact htunnel
        · split
          · exact hip
          · exact UInt64.zero_and
      · exact UInt64.zero_and
    rw [prepProcess]
    dsimp only
    split
    · dsimp only
      rw [or_and_of_disjoint, or_and_of_disjoint _ htcp, or_and_of_disjoint _ hseg,
        or_and_of_disjoint _ hmode]
      · rfl
      · split
        · exact houter4
        · exact houter6
    · rfl
  rw [WorkerModel.offloadFailed, WorkerModel.offloadFailed, hflags _ (by decide),
    hflags _ (by decide)]

/-- The packets a session of a group has processed. -/
theorem credited_log {dir : Direction} {s s' : State} {g : IpsecGroup} {p : SaPtr}
    {fb : Bool} {out : List PktId} (type : ActionType) (hid : g.id = some (p, fb))
    (hsub : out ⊆ g.pkts)
    (hlog : s'.2.processed = s.2.processed ++ out.map (·, (p, fb), type))
    (htag : K → ∀ x ∈ out, saOf s'.2 x = some p)
    (hfail : K → ¬ IsLookaside type →
      ∀ x ∈ out, WorkerModel.offloadFailed (s.2.mbuf x) = false) :
    Credited K dir g.members s out s' := by
  refine ⟨_, hlog, ?_, ?_⟩
  · intro e he
    obtain ⟨x, hx, rfl⟩ := List.mem_map.mp he
    rw [members_fst]
    exact hsub hx
  · intro x hx
    refine ⟨p, fb, fb, type, ?_, List.mem_map_of_mem hx, ?_⟩
    · rw [← hid]
      exact List.mem_map_of_mem (hsub hx)
    · intro hk
      refine ⟨htag hk x hx, ?_⟩
      intro _ hx'
      by_contra htype
      rw [hfail hk htype x hx] at hx'
      cases hx'

/-- What a round does to a group. -/
structure RoundHandled (K : Prop) (lib : CryptoGroup) (dir : Direction)
    (burst : List (PktId × Option SaRef)) (t : Traffic × State) (out : List PktId)
    (t' : Traffic × State) : Prop where
  grown : Grown t.1 out t'.1
  handled : Handled K (Queued K lib) t.2 burst out t'.2
  credited : Credited K dir burst t.2 out t'.2
  moves : ∃ l, Moves t.2 (burst.map Prod.fst) out l t'.2

/-- **LOOKASIDE**: accepted packets carry the session into the queue. -/
theorem ipsecPrepareCryptoGroup_handled (hK : K → Lawful env lib) (dir : Direction)
    {g : IpsecGroup} {p : SaPtr} {fb : Bool} (hid : g.id = some (p, fb))
    (hnodup : g.pkts.Nodup) (trf : Traffic) {s : State} {w : World}
    (hw : Ready s.2 w) (htype : Checked (session (w.sa p) fb).type) :
    Ends (ipsecPrepareCryptoGroup env p fb g.pkts (s.1, w)) (fun _ => True)
      (fun r => RoundHandled K lib dir g.members (trf, s) []
        (trf, r.2.1, r.2.2.freePkts (r.1.1.drop r.1.2))) := by
  have hwritten := hw.worked (K := K) g.pkts (f := setPrivSa p) fun _ => rfl
  have hprocessed := modifyAll_processed g.pkts (fun _ => setPrivSa p) w
  have hsa1 : (w.modifyAll g.pkts fun _ => setPrivSa p).sa = w.sa :=
    (modifyAll_aside g.pkts (fun _ => setPrivSa p) w).1.sa
  rw [ipsecPrepareCryptoGroup]
  dsimp only
  generalize w.modifyAll g.pkts (fun _ => setPrivSa p) = w1 at hwritten hprocessed hsa1
  have hgiven := hwritten.handle hK fb (List.Subset.refl g.pkts)
  have hlog := handle_processed env (p, fb) g.pkts w1
  have hsorted := rteIpsecHandle_sorted env (p, fb) g.pkts w1
  -- each packet given to the session carries it
  have hcarry : K → ∀ x ∈ g.pkts,
      lib.opSession ((rteIpsecHandle env (p, fb) g.pkts w1).2.mbuf x) = (p, fb) := by
    intro hk x hx
    refine modifyAll_all (P := fun m => lib.opSession m = (p, fb)) _ ?_ hx
    intro y m
    refine (hK hk).attached w1 (p, fb) y m ?_
    rw [hsa1]
    exact htype
  have hsa2 : (rteIpsecHandle env (p, fb) g.pkts w1).2.sa = w.sa := by
    rw [← hsa1, rteIpsecHandle]
    exact (modifyAll_aside _ _ _).1.sa
  generalize rteIpsecHandle env (p, fb) g.pkts w1 = r at hgiven hlog hsorted hcarry hsa2
  have hperm : (r.1.1.take r.1.2 ++ r.1.1.drop r.1.2).Perm g.pkts := by
    rw [List.take_append_drop]
    exact hsorted.1
  have hsame : r.2.processed = s.2.processed :=
    hlog.trans (hprocessed.trans hw.processed)
  split
  · rename_i hnone
    have hperm : ([] ++ r.1.1.drop r.1.2).Perm g.pkts := by
      rw [hnone]
      exact hsorted.1
    exact ends_pure ⟨Grown.refl trf, hgiven.handled hid hnodup hperm,
      credited_none hsame, _, hgiven.moves hperm⟩
  · rw [State.onQueue, bind_assoc]
    refine (enqueueCopBulk_frame env _ _ _).bind ?_
    intro q hq
    refine ends_pure ⟨Grown.refl trf, ?_, credited_none ?_,
      hgiven.queued_moves (r.2.useQueue s.1 (r.1.1.take r.1.2) p fb) rfl rfl hperm hq⟩
    · refine hgiven.queued (r.2.useQueue s.1 (r.1.1.take r.1.2) p fb) rfl rfl rfl rfl
        hperm hq ?_
      intro x hx hk
      have hin : x ∈ g.pkts := hperm.mem_iff.mp (List.mem_append_left _ hx)
      have hmbuf : q.2.mbuf = r.2.mbuf := hq.mbuf
      have hsa : q.2.sa = r.2.sa := hq.sa
      refine ⟨p, fb, ?_, ?_, ?_⟩
      · show (q.2.mbuf x).priv.sa = some p
        rw [hmbuf]
        exact hgiven.tag hk x hin
      · show lib.opSession (q.2.mbuf x) = (p, fb)
        rw [hmbuf]
        exact hcarry hk x hin
      · show Checked (session (q.2.sa p) fb).type
        rw [hsa, hsa2]
        exact htype
    · have hlog' : q.2.processed = r.2.processed := hq.processed
      exact hlog'.trans hsame

/-- Packets written by `prep_process_group`. -/
theorem prepProcess_sa (p : SaPtr) (sa : IpsecSa) (m : Mbuf) :
    (prepProcess p sa m).priv.sa = some p := by
  rw [prepProcess]
  dsimp only
  split
  · rfl
  · rfl

/-- **INLINE**: accepted packets are through. -/
theorem ipsecProcessInlineGroup_handled (hK : K → Lawful env lib) (dir : Direction)
    {g : IpsecGroup} {p : SaPtr} {fb : Bool} (hid : g.id = some (p, fb))
    (hnodup : g.pkts.Nodup) (trf : Traffic) {s : State} {w : World}
    (hw : Ready s.2 w) :
    let r := ipsecProcessInlineGroup env p fb g.pkts trf w
    RoundHandled K lib dir g.members (trf, s) (r.1.1.take r.1.2)
      (r.2.1, s.1, r.2.2.freePkts (r.1.1.drop r.1.2)) := by
  intro r
  have hwritten := hw.worked (K := K) g.pkts fun m => prepProcess_sa p (w.sa p) m
  have hprocessed := modifyAll_processed g.pkts (fun _ => prepProcess p (w.sa p)) w
  have hsa1 : (w.modifyAll g.pkts fun _ => prepProcess p (w.sa p)).sa = w.sa :=
    (modifyAll_aside g.pkts (fun _ => prepProcess p (w.sa p)) w).1.sa
  -- what is written in front of the library leaves the flags alone
  have hflag : ∀ x, WorkerModel.offloadFailed
      ((w.modifyAll g.pkts fun _ => prepProcess p (w.sa p)).mbuf x)
      = WorkerModel.offloadFailed (s.2.mbuf x) := by
    intro x
    rw [← hw.mbuf]
    exact modifyAll_view _ g.pkts w (fun _ m => prepProcess_failed p (w.sa p) m) x
  generalize hw1 : w.modifyAll g.pkts (fun _ => prepProcess p (w.sa p)) = w1
    at hwritten hprocessed hsa1 hflag
  have hr : r = ((env.handle w1 (p, fb) g.pkts),
      copyToTrf trf (env.saType p fb)
        ((env.handle w1 (p, fb) g.pkts).1.take (env.handle w1 (p, fb) g.pkts).2),
      (rteIpsecHandle env (p, fb) g.pkts w1).2.logProcessed (p, fb)
        ((env.handle w1 (p, fb) g.pkts).1.take (env.handle w1 (p, fb) g.pkts).2)) := by
    show ipsecProcessInlineGroup env p fb g.pkts trf w = _
    rw [ipsecProcessInlineGroup, hw1]
    rfl
  have hgiven := hwritten.handle hK fb (List.Subset.refl g.pkts)
  have hlog := handle_processed env (p, fb) g.pkts w1
  have hsorted : Sorted g.pkts (env.handle w1 (p, fb) g.pkts) :=
    rteIpsecHandle_sorted env (p, fb) g.pkts w1
  have hsa2 : (rteIpsecHandle env (p, fb) g.pkts w1).2.sa = w1.sa := by
    rw [rteIpsecHandle]
    exact (modifyAll_aside _ _ _).1.sa
  rw [hr]
  generalize hres : env.handle w1 (p, fb) g.pkts = res at hsorted
  generalize rteIpsecHandle env (p, fb) g.pkts w1 = h at hgiven hlog hsa2
  have hperm : (res.1.take res.2 ++ res.1.drop res.2).Perm g.pkts := by
    rw [List.take_append_drop]
    exact hsorted.1
  have hsub : res.1.take res.2 ⊆ g.pkts :=
    fun x hx => hperm.mem_iff.mp (List.mem_append_left _ hx)
  -- the log of successes is no packet and no queue
  have hlogged : Worked K p g.pkts s.2
      (h.2.logProcessed (p, fb) (res.1.take res.2)) :=
    ⟨hgiven.others, hgiven.tag, hgiven.sas, hgiven.pair, hgiven.freed⟩
  refine ⟨copyToTrf_grown _ _ _, hlogged.handled hid hnodup hperm,
    credited_log (session (h.2.sa p) fb).type hid hsub ?_
      (fun hk x hx => hgiven.tag hk x (hsub hx)) ?_, _, hlogged.moves hperm⟩
  · show h.2.processed ++ _ = _
    rw [hlog, hprocessed, hw.processed]
  · intro hk htype x hx
    rw [← hflag]
    refine (hK hk).refused w1 (p, fb) g.pkts ?_ x ?_
    · rw [← hsa2]
      exact htype
    · rw [hres]
      exact hx

/-- **SYNCHRONOUS**: the packets both calls accept are through. -/
theorem ipsecProcessCpuGroup_handled (hK : K → Lawful env lib) (dir : Direction)
    {g : IpsecGroup} {p : SaPtr} {fb : Bool} (hid : g.id = some (p, fb))
    (hnodup : g.pkts.Nodup) (trf : Traffic) {s : State} {w : World}
    (hw : Ready s.2 w) (htype : IsLookaside (session (w.sa p) fb).type) :
    let r := ipsecProcessCpuGroup env p fb g.pkts trf w
    RoundHandled K lib dir g.members (trf, s) (r.1.1.take r.1.2)
      (r.2.1, s.1, r.2.2.freePkts (r.1.1.drop r.1.2)) := by
  intro r
  have hwritten := hw.worked (K := K) g.pkts fun m => prepProcess_sa p (w.sa p) m
  have hprocessed := modifyAll_processed g.pkts (fun _ => prepProcess p (w.sa p)) w
  have hsa1 : (w.modifyAll g.pkts fun _ => prepProcess p (w.sa p)).sa = w.sa :=
    (modifyAll_aside g.pkts (fun _ => prepProcess p (w.sa p)) w).1.sa
  generalize hw1 : w.modifyAll g.pkts (fun _ => prepProcess p (w.sa p)) = w1
    at hwritten hprocessed hsa1
  -- the first call
  have hgiven := hwritten.handle hK fb (List.Subset.refl g.pkts)
  have hlog := handle_processed env (p, fb) g.pkts w1
  have hsorted := rteIpsecHandle_sorted env (p, fb) g.pkts w1
  have hsa2 : (rteIpsecHandle env (p, fb) g.pkts w1).2.sa = w1.sa := by
    rw [rteIpsecHandle]
    exact (modifyAll_aside _ _ _).1.sa
  generalize hr1 : rteIpsecHandle env (p, fb) g.pkts w1 = r1 at hgiven hlog hsorted hsa2
  obtain ⟨hperm, -⟩ := hsorted
  have hpart : r1.1.1.take r1.1.2 ⊆ g.pkts :=
    fun x hx => hperm.mem_iff.mp (List.mem_of_mem_take hx)
  -- the second call
  have hagain := hgiven.handle hK fb hpart
  have hlog' := handle_processed env (p, fb) (r1.1.1.take r1.1.2) r1.2
  have hsorted' := rteIpsecHandle_sorted env (p, fb) (r1.1.1.take r1.1.2) r1.2
  have hsa3 : (rteIpsecHandle env (p, fb) (r1.1.1.take r1.1.2) r1.2).2.sa = r1.2.sa := by
    rw [rteIpsecHandle]
    exact (modifyAll_aside _ _ _).1.sa
  have hr : r = let r2 := rteIpsecHandle env (p, fb) (r1.1.1.take r1.1.2) r1.2
      ((r2.1.1 ++ r1.1.1.drop r1.1.2, r2.1.2),
        copyToTrf trf (env.saType p fb) (r2.1.1.take r2.1.2),
        r2.2.logProcessed (p, fb) (r2.1.1.take r2.1.2)) := by
    show ipsecProcessCpuGroup env p fb g.pkts trf w = _
    rw [ipsecProcessCpuGroup, hw1, hr1]
    rfl
  generalize rteIpsecHandle env (p, fb) (r1.1.1.take r1.1.2) r1.2 = r2
    at hr hagain hlog' hsorted' hsa3
  obtain ⟨hperm', hle'⟩ := hsorted'
  dsimp only at hr
  have hlen : r2.1.2 ≤ r2.1.1.length := by
    rw [hperm'.length_eq]
    exact hle'
  have htake : (r2.1.1 ++ r1.1.1.drop r1.1.2).take r2.1.2 = r2.1.1.take r2.1.2 :=
    List.take_append_of_le_length hlen
  have hall : ((r2.1.1 ++ r1.1.1.drop r1.1.2).take r2.1.2
      ++ (r2.1.1 ++ r1.1.1.drop r1.1.2).drop r2.1.2).Perm g.pkts := by
    rw [List.take_append_drop]
    refine (hperm'.append_right _).trans ?_
    rw [List.take_append_drop]
    exact hperm
  have hsub : r2.1.1.take r2.1.2 ⊆ g.pkts :=
    fun x hx => hpart (hperm'.mem_iff.mp (List.mem_of_mem_take hx))
  have hlogged : Worked K p g.pkts s.2
      (r2.2.logProcessed (p, fb) (r2.1.1.take r2.1.2)) :=
    ⟨hagain.others, hagain.tag, hagain.sas, hagain.pair, hagain.freed⟩
  rw [hr]
  dsimp only
  rw [htake] at hall ⊢
  refine ⟨copyToTrf_grown _ _ _, hlogged.handled hid hnodup hall,
    credited_log (session (r2.2.sa p) fb).type hid hsub ?_
      (fun hk x hx => hagain.tag hk x (hsub hx)) ?_, _, hlogged.moves hall⟩
  · show r2.2.processed ++ _ = _
    rw [hlog', hlog, hprocessed, hw.processed]
  · intro _ hnot
    rw [hsa3, hsa2, hsa1] at hnot
    exact absurd htype hnot

/-- **ONE GROUP** of `ipsec_process`. -/
theorem processOne_handled (hK : K → Lawful env lib) (dir : Direction)
    {g : IpsecGroup} (hnodup : g.pkts.Nodup) (t : Traffic × State) :
    Ends (processOne env t g) (fun _ => True)
      (fun t' => ∃ out, RoundHandled K lib dir g.members t out t') := by
  obtain ⟨trf, s⟩ := t
  have hfreed : ∀ w, Ready s.2 w → RoundHandled K lib dir g.members (trf, s) []
      (trf, s.1, w.freePkts g.pkts) :=
    fun w hw => ⟨Grown.refl trf, hw.freed_handled g, credited_none hw.processed,
      g.pkts, hw.moves g⟩
  rw [processOne, processGroup]
  cases hid : g.id with
  | none => exact ends_ok ⟨[], hfreed s.2 (Ready.refl s.2)⟩
  | some ref =>
      obtain ⟨p, fb⟩ := ref
      dsimp only
      -- opening the session touches no packet
      have hready : Ready s.2 (if (session (s.2.sa p) fb).ses = none then
          fillIpsecSession env s.1 p fb s.2 else (0, s.2)).2 := by
        split
        · exact fillIpsecSession_ready env s.1 p fb s.2
        · exact Ready.refl s.2
      generalize (if (session (s.2.sa p) fb).ses = none then
        fillIpsecSession env s.1 p fb s.2 else (0, s.2)) = r at hready
      split
      · exact ends_ok ⟨[], hfreed r.2 hready⟩
      -- both lookaside types queue what the library accepts
      have hlookaside : ∀ (htype : Checked (session (r.2.sa p) fb).type),
          Ends ((ipsecPrepareCryptoGroup env p fb g.pkts (s.1, r.2) >>= fun x =>
            (pure (x.1, trf, x.2) : Except Fault (GroupResult × Traffic × State)))
              >>= fun x => pure (x.2.1, x.2.2.1, x.2.2.2.freePkts (x.1.1.drop x.1.2)))
            (fun _ => True)
            (fun t' => ∃ out, RoundHandled K lib dir g.members (trf, s) out t') := by
        intro htype
        rw [bind_assoc]
        refine (ipsecPrepareCryptoGroup_handled hK dir hid hnodup trf hready htype).bind ?_
        intro x hx
        exact ends_pure ⟨[], hx⟩
      cases htype : (session (r.2.sa p) fb).type with
      | none => exact hlookaside (.inl htype)
      | lookasideProtocol => exact hlookaside (.inr htype)
      | inlineCrypto =>
          exact ends_ok ⟨_, ipsecProcessInlineGroup_handled hK dir hid hnodup trf hready⟩
      | inlineProtocol =>
          exact ends_ok ⟨_, ipsecProcessInlineGroup_handled hK dir hid hnodup trf hready⟩
      | cpuCrypto =>
          refine ends_ok ⟨_, ipsecProcessCpuGroup_handled hK dir hid hnodup trf hready ?_⟩
          rw [htype]
          exact ⟨by decide, by decide⟩

/-! ## All groups -/

/-- Two parts of a burst, with different packets. -/
theorem RoundHandled.trans {dir : Direction}
    {burst burst' : List (PktId × Option SaRef)} {t t' t'' : Traffic × State}
    {out out' : List PktId}
    (hd : ∀ x, x ∈ burst.map Prod.fst → x ∉ burst'.map Prod.fst)
    (h : RoundHandled K lib dir burst t out t')
    (h' : RoundHandled K lib dir burst' t' out' t'') :
    RoundHandled K lib dir (burst ++ burst') t (out ++ out') t'' := by
  obtain ⟨l, hmoves⟩ := h.moves
  obtain ⟨l', hmoves'⟩ := h'.moves
  refine ⟨h.grown.trans h'.grown, h.handled.trans queued_stable hd h'.handled,
    h.credited.trans hd h.handled h'.handled h'.credited, l ++ l', ?_⟩
  rw [List.map_append]
  exact hmoves.trans hmoves'

/-- **A BURST** on the path of `librte_ipsec`. -/
theorem ipsecProcess_handled (hK : K → Lawful env lib) (dir : Direction)
    {burst : List (PktId × Option SaRef)} (hnodup : (burst.map Prod.fst).Nodup)
    (trf : Traffic) (s : State) :
    Ends (ipsecProcess env burst trf s) (fun _ => True)
      (fun t' => ∃ out, RoundHandled K lib dir burst (trf, s) out t') := by
  rw [ipsecProcess]
  refine (ends_foldlM (P := fun todo t' => ∃ done out,
    done ++ todo.flatMap IpsecGroup.members = burst
      ∧ RoundHandled K lib dir done (trf, s) out t')
    ⟨[], [], saGroup_members burst, Grown.refl trf, Handled.refl s, credited_none rfl,
      [], Moves.refl s⟩ ?_).mono (fun _ h => h) ?_
  · rintro g todo t' ⟨done, out, hburst, h⟩
    rw [List.flatMap_cons, ← List.append_assoc] at hburst
    have hparts := hnodup
    rw [← hburst, List.map_append, List.map_append] at hparts
    have hfront := (List.nodup_append.mp hparts).1
    obtain ⟨-, hgroup, hapart⟩ := List.nodup_append.mp hfront
    have hd : ∀ x, x ∈ done.map Prod.fst → x ∉ g.members.map Prod.fst :=
      fun x hx hin => hapart x hx x hin rfl
    rw [members_fst] at hgroup
    refine (processOne_handled hK dir hgroup t').mono (fun _ h => h) ?_
    rintro t'' ⟨out', h'⟩
    exact ⟨done ++ g.members, out ++ out', hburst, h.trans hd h'⟩
  · rintro t' ⟨done, out, hburst, h⟩
    obtain rfl : done = burst := by
      rw [← hburst]
      exact (List.append_nil done).symm
    exact ⟨out, h⟩

end Handling
