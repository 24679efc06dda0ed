import IpsecSecgw.OutboundPolicyProofs
import IpsecSecgw.DrainHandlingProofs

/-! # Inbound policies are enforced

    `process_pkts_inbound` and `drain_inbound_crypto_queues` with policies: what
    they leave for routing has a BYPASS rule, or a PROTECT rule and has itself
    been decrypted under an SA with the SPI of the rule.  Decrypted packets join
    the arrays behind the cleartext ones, so the limit of `inbound_sp_sa` parts
    the two; and the SA of a decrypted packet is the one its private data holds,
    in every state runs of the program lead to. -/

namespace InboundPolicy

open SaModel MbufModel Esp IpsecModel WorkerModel SecgwModel Outcome Sweep Handling
open OutboundPolicy (Adds)
open PacketOrder (saOf)
open CryptoQueue (CallFault CtxOk Resting)
open PacketMoves (Moves content)

/-! ## The policy check -/

variable {acl : SpCtx} {saCtx : SaCtx} {off lim : Nat} {w : World}

/-- What lets a packet at index `i` pass. -/
def Passes (acl : SpCtx) (saCtx : SaCtx) (off lim : Nat) (w : World) (i : Nat)
    (x : PktId) : Prop :=
  aclResult acl w off x = bypass
    ∨ aclResult acl w off x ≠ SaModel.discard
      ∧ ¬(i < lim ∧ (w.mbuf x).olFlags &&& rxSecOffload = 0)
      ∧ inboundSaCheck saCtx w x (aclResult acl w off x - 1) = true

/-- What the loop does with one packet. -/
inductive SpRound (acl : SpCtx) (saCtx : SaCtx) (off lim : Nat) (w : World) (i : Nat)
    (x : PktId) (s : SpdState) : Bool × SpdState → Prop
  | kept {stats : SpdStats} (hpass : Passes acl saCtx off lim w i x)
      (hstats : Adds 1 s.1 stats) : SpRound acl saCtx off lim w i x s (true, stats, s.2)
  | freed {stats : SpdStats} (hfail : ¬ Passes acl saCtx off lim w i x)
      (hstats : Adds 1 s.1 stats) :
      SpRound acl saCtx off lim w i x s (false, stats, s.2 ++ [x])

theorem inboundSpSaOne_round (acl : SpCtx) (saCtx : SaCtx) (off lim : Nat) (w : World)
    (i : Nat) (x : PktId) (s : SpdState) :
    SpRound acl saCtx off lim w i x s (inboundSpSaOne acl saCtx off lim w i x s) := by
  have hdrop : Adds 1 s.1 { s.1 with discard := s.1.discard + 1 } := by
    simp only [Adds]
    omega
  have hprotect : Adds 1 s.1 { s.1 with protect := s.1.protect + 1 } := by
    simp only [Adds]
    omega
  have hbypass : Adds 1 s.1 { s.1 with bypass := s.1.bypass + 1 } := by
    simp only [Adds]
    omega
  have hne : SaModel.discard ≠ bypass := by decide
  rw [inboundSpSaOne]
  dsimp only
  split
  · rename_i hb
    exact .kept (.inl hb) hbypass
  · rename_i hb
    split
    · rename_i hd
      refine .freed ?_ hdrop
      rintro (h | ⟨h, -⟩)
      · exact hb h
      · exact h hd
    · rename_i hd
      split
      · rename_i hlim
        refine .freed ?_ hdrop
        rintro (h | ⟨-, h, -⟩)
        · exact hb h
        · exact h hlim
      · rename_i hlim
        split
        · rename_i hcheck
          refine .freed ?_ hdrop
          rintro (h | ⟨-, -, h⟩)
          · exact hb h
          · rw [h] at hcheck
            cases hcheck
        · rename_i hcheck
          refine .kept (.inr ⟨hd, hlim, ?_⟩) hprotect
          simpa using hcheck

/-- One packet after the other. -/
theorem adds_succ {n : Nat} {stats stats' stats'' : SpdStats} (h : Adds 1 stats stats')
    (h' : Adds n stats' stats'') : Adds (n + 1) stats stats'' := by
  rw [Adds] at h h' ⊢
  omega

/-- What the loop leaves of a list, from index `i` on. -/
structure SpSwept (acl : SpCtx) (saCtx : SaCtx) (off lim : Nat) (w : World) (i : Nat)
    (pkts : List PktId) (s : SpdState) (kept dropped : List PktId) (stats : SpdStats) :
    Prop where
  order : kept.Sublist pkts
  once : (kept ++ dropped).Perm pkts
  stats : Adds pkts.length s.1 stats
  kept : ∀ x ∈ kept, ∃ j, pkts[j]? = some x ∧ Passes acl saCtx off lim w (i + j) x
  dropped : ∀ x ∈ dropped, ∃ j, pkts[j]? = some x ∧ ¬ Passes acl saCtx off lim w (i + j) x

variable (acl saCtx off lim w) in
/-- **THE LOOP** of `inbound_sp_sa`. -/
theorem keptFrom_inbound (i : Nat) (pkts : List PktId) (s : SpdState) :
    ∃ kept dropped stats, keptFrom (inboundSpSaOne acl saCtx off lim w) i pkts s
        = (kept, stats, s.2 ++ dropped)
      ∧ SpSwept acl saCtx off lim w i pkts s kept dropped stats := by
  induction pkts generalizing i s with
  | nil =>
      refine ⟨[], [], s.1, ?_, List.Sublist.refl _, List.Perm.refl _, rfl,
        fun _ hx => absurd hx List.not_mem_nil, fun _ hx => absurd hx List.not_mem_nil⟩
      rw [List.append_nil]
      rfl
  | cons x pkts ih =>
      have hround := inboundSpSaOne_round acl saCtx off lim w i x s
      rw [keptFrom]
      generalize inboundSpSaOne acl saCtx off lim w i x s = r at hround
      have hshift : ∀ {j y}, (pkts[j]? = some y) → (x :: pkts)[j + 1]? = some y :=
        fun h => h
      cases hround with
      | @kept stats1 hpass hstats =>
          obtain ⟨kept, dropped, stats, heq, h⟩ := ih (i + 1) (stats1, s.2)
          dsimp only
          rw [heq]
          refine ⟨x :: kept, dropped, stats, rfl, h.order.cons_cons x, h.once.cons x, ?_,
            ?_, ?_⟩
          · exact adds_succ hstats h.stats
          · intro y hy
            rcases List.mem_cons.mp hy with rfl | hy
            · exact ⟨0, rfl, hpass⟩
            · obtain ⟨j, hj, hyp⟩ := h.kept y hy
              refine ⟨j + 1, hshift hj, ?_⟩
              rw [Nat.add_comm j, ← Nat.add_assoc]
              exact hyp
          · intro y hy
            obtain ⟨j, hj, hyp⟩ := h.dropped y hy
            refine ⟨j + 1, hshift hj, ?_⟩
            rw [Nat.add_comm j, ← Nat.add_assoc]
            exact hyp
      | @freed stats1 hfail hstats =>
          obtain ⟨kept, dropped, stats, heq, h⟩ := ih (i + 1) (stats1, s.2 ++ [x])
          dsimp only
          rw [heq]
          refine ⟨kept, x :: dropped, stats, ?_, h.order.cons x, ?_, ?_, ?_, ?_⟩
          · rw [List.append_assoc]
            rfl
          · exact List.perm_middle.trans (h.once.cons x)
          · exact adds_succ hstats h.stats
          · intro y hy
            obtain ⟨j, hj, hyp⟩ := h.kept y hy
            refine ⟨j + 1, hshift hj, ?_⟩
            rw [Nat.add_comm j, ← Nat.add_assoc]
            exact hyp
          · intro y hy
            rcases List.mem_cons.mp hy with rfl | hy
            · exact ⟨0, rfl, hfail⟩
            · obtain ⟨j, hj, hyp⟩ := h.dropped y hy
              refine ⟨j + 1, hshift hj, ?_⟩
              rw [Nat.add_comm j, ← Nat.add_assoc]
              exact hyp

/-! ## A family -/

/-- Packets that a session of the SA in their private data has processed. -/
def Through (log : List (PktId × SaRef × ActionType)) (w : World) (x : PktId) : Prop :=
  ∃ q fb type, saOf w x = some q ∧ (x, (q, fb), type) ∈ log

/-- Packets that a crypto session of this SA has processed, not an inline one. -/
def Decrypted (log : List (PktId × SaRef × ActionType)) (w : World) (x : PktId) : Prop :=
  ∃ q fb type, saOf w x = some q ∧ (x, (q, fb), type) ∈ log ∧ Ipsec.IsLookaside type

theorem Decrypted.through {log : List (PktId × SaRef × ActionType)} {w : World}
    {x : PktId} (h : Decrypted log w x) : Through log w x := by
  obtain ⟨q, fb, type, hq, hin, -⟩ := h
  exact ⟨q, fb, type, hq, hin⟩

/-- What the check leaves of the cleartext packets `clear` and the decrypted ones
    `out` of a family. -/
structure Checked (acl : SpCtx) (saCtx : SaCtx) (off : Nat) (w : World)
    (log : List (PktId × SaRef × ActionType)) (clear out kept dropped : List PktId)
    (stats stats' : SpdStats) : Prop where
  order : kept.Sublist (clear ++ out)
  counted : Adds (clear ++ out).length stats stats'
  /-- a packet passes by a BYPASS rule, or as one decrypted under the SPI of its
      rule -/
  rule : ∀ x ∈ kept, aclResult acl w off x = bypass
    ∨ aclResult acl w off x ≠ SaModel.discard ∧ x ∈ out
      ∧ ∃ q fb type, (x, (q, fb), type) ∈ log
        ∧ (w.sa q).spi = (w.sa (saCtx.entry (aclResult acl w off x - 1))).spi
  /-- what arrived in the clear passes by a BYPASS rule alone -/
  plain : ∀ x ∈ clear, aclResult acl w off x ≠ bypass → x ∈ dropped ∧ x ∉ kept

variable (acl saCtx off) in
theorem inboundSpSa_checked {log : List (PktId × SaRef × ActionType)}
    {clear out : List PktId} (hclear : ∀ x ∈ clear, (w.mbuf x).olFlags &&& rxSecOffload = 0)
    (hout : ∀ x ∈ out, Through log w x) (hapart : ∀ x ∈ clear, x ∉ out)
    (stats : SpdStats) :
    ∃ dropped, (inboundSpSa (some acl) saCtx off clear.length (clear ++ out) stats w).2.2
        = w.freePkts dropped
      ∧ ((inboundSpSa (some acl) saCtx off clear.length (clear ++ out) stats w).1
        ++ dropped).Perm (clear ++ out)
      ∧ Checked acl saCtx off w log clear out
        (inboundSpSa (some acl) saCtx off clear.length (clear ++ out) stats w).1 dropped
        stats (inboundSpSa (some acl) saCtx off clear.length (clear ++ out) stats w).2.1 := by
  obtain ⟨kept, dropped, stats', heq, h⟩ :=
    keptFrom_inbound acl saCtx off clear.length w 0 (clear ++ out) (stats, [])
  have hlow : ∀ {j x}, (clear ++ out)[j]? = some x → j < clear.length → x ∈ clear := by
    intro j x hj hlt
    rw [List.getElem?_append_left hlt] at hj
    exact List.mem_of_getElem? hj
  have hrule : ∀ x ∈ kept, aclResult acl w off x = bypass
      ∨ aclResult acl w off x ≠ SaModel.discard ∧ x ∈ out
        ∧ ∃ q fb type, (x, (q, fb), type) ∈ log
          ∧ (w.sa q).spi = (w.sa (saCtx.entry (aclResult acl w off x - 1))).spi := by
    intro x hx
    obtain ⟨j, hj, hb | ⟨hd, hlim, hcheck⟩⟩ := h.kept x hx
    · exact .inl hb
    · rw [Nat.zero_add] at hlim
      have hge : clear.length ≤ j := by
        by_contra hlt
        have hlt := Nat.lt_of_not_le hlt
        exact hlim ⟨hlt, hclear x (hlow hj hlt)⟩
      rw [List.getElem?_append_right hge] at hj
      have hin := List.mem_of_getElem? hj
      obtain ⟨q, fb, type, hq, hlog⟩ := hout x hin
      refine .inr ⟨hd, hin, q, fb, type, hlog, ?_⟩
      rw [inboundSaCheck] at hcheck
      rw [saOf] at hq
      rw [hq] at hcheck
      exact (eq_of_beq hcheck).symm
  rw [inboundSpSa]
  rw [sweep_eq, heq]
  refine ⟨dropped, rfl, h.once, h.order, h.stats, hrule, ?_⟩
  intro x hx hb
  have hkept : x ∉ kept := by
    intro hin
    rcases hrule x hin with h | ⟨-, h, -⟩
    · exact hb h
    · exact hapart x hx h
  have hall : x ∈ kept ++ dropped := h.once.mem_iff.mpr (List.mem_append_left _ hx)
  exact ⟨(List.mem_append.mp hall).resolve_left hkept, hkept⟩

/-! ## Both families -/

/-- What policies leave of the cleartext packets `trf` and of the decrypted ones
    `o4` and `o6`; `s` is the state before the crypto, `pre` has been freed
    there.  A family without policies keeps its packets. -/
structure Enforced (ctx : EvCtx) (trf : Traffic) (stats : DirStats) (s : State)
    (o4 o6 pre : List PktId) (r : Traffic × DirStats × State) : Prop where
  through : ∃ log, r.2.2.2.processed = s.2.processed ++ log ∧ ∃ d4 d6,
    r.2.2.2.freed = s.2.freed ++ pre ++ d4 ++ d6
      ∧ (r.1.ip4 ++ d4).Perm (trf.ip4 ++ o4)
      ∧ (r.1.ip6 ++ d6).Perm (trf.ip6 ++ o6)
      ∧ (∀ acl, ctx.sp4Ctx = some acl → Checked acl ctx.saCtx ip4Proto r.2.2.2 log
        trf.ip4 o4 r.1.ip4 d4 stats.spd4 r.2.1.spd4)
      ∧ ∀ acl, ctx.sp6Ctx = some acl → Checked acl ctx.saCtx ip6Proto r.2.2.2 log
        trf.ip6 o6 r.1.ip6 d6 stats.spd6 r.2.1.spd6

/-- What the crypto of a call leaves for the policies. -/
structure CryptoDone (trf : Traffic) (s : State) (o4 o6 pre : List PktId)
    (r : Traffic × State) : Prop where
  ip4 : r.1.ip4 = trf.ip4 ++ o4
  ip6 : r.1.ip6 = trf.ip6 ++ o6
  freed : r.2.2.freed = s.2.freed ++ pre
  through : ∃ log, r.2.2.processed = s.2.processed ++ log
    ∧ ∀ x ∈ o4 ++ o6, Through log r.2.2 x

/-- **BOTH CHECKS**. -/
theorem inboundPolicies_enforced (ctx : EvCtx) {trf : Traffic} (stats : DirStats)
    {s : State} {o4 o6 pre : List PktId} {r : Traffic × State}
    (h : CryptoDone trf s o4 o6 pre r)
    (hclear : ∀ x ∈ trf.ip4 ++ trf.ip6, (r.2.2.mbuf x).olFlags &&& rxSecOffload = 0)
    (hapart : ∀ x ∈ trf.ip4 ++ trf.ip6, x ∉ o4 ++ o6) :
    let p := inboundPolicies ctx trf.ip4.length trf.ip6.length r.1 stats r.2.2
    Enforced ctx trf stats s o4 o6 pre (p.1, p.2.1, r.2.1, p.2.2) := by
  obtain ⟨log, hlog, hthrough⟩ := h.through
  -- a family without policies drops nothing
  have hfamily : ∀ (sp : Option SpCtx) off clear out stats w, w.mbuf = r.2.2.mbuf →
      w.sa = r.2.2.sa → (∀ x ∈ clear, x ∈ trf.ip4 ++ trf.ip6) → (∀ x ∈ out, x ∈ o4 ++ o6) →
      ∃ dropped, (inboundSpSa sp ctx.saCtx off clear.length (clear ++ out) stats w).2.2
          = w.freePkts dropped
        ∧ ((inboundSpSa sp ctx.saCtx off clear.length (clear ++ out) stats w).1
          ++ dropped).Perm (clear ++ out)
        ∧ ∀ acl, sp = some acl → Checked acl ctx.saCtx off w log clear out
          (inboundSpSa sp ctx.saCtx off clear.length (clear ++ out) stats w).1 dropped stats
          (inboundSpSa sp ctx.saCtx off clear.length (clear ++ out) stats w).2.1 := by
    intro sp off clear out stats w hmbuf hsa hc ho
    have hflags : ∀ x ∈ clear, (w.mbuf x).olFlags &&& rxSecOffload = 0 := by
      intro x hx
      rw [hmbuf]
      exact hclear x (hc x hx)
    have hout : ∀ x ∈ out, Through log w x := by
      intro x hx
      obtain ⟨q, fb, type, hq, hin⟩ := hthrough x (ho x hx)
      refine ⟨q, fb, type, ?_, hin⟩
      rw [saOf, hmbuf]
      exact hq
    cases sp with
    | none =>
        refine ⟨[], ?_, ?_, ?_⟩
        · show w = { w with freed := w.freed ++ [], dropped := w.dropped + 0 }
          rw [List.append_nil]
          rfl
        · rw [List.append_nil]
          exact List.Perm.refl _
        · intro acl hacl
          cases hacl
    | some acl =>
        obtain ⟨dropped, heq, honce, hchecked⟩ := inboundSpSa_checked acl ctx.saCtx off hflags
          hout (fun x hx hin => hapart x (hc x hx) (ho x hin)) stats
        refine ⟨dropped, heq, honce, ?_⟩
        intro acl' hacl
        obtain rfl := Option.some.inj hacl
        exact hchecked
  intro p
  obtain ⟨d4, h4, honce4, hchecked4⟩ := hfamily ctx.sp4Ctx ip4Proto trf.ip4 o4 stats.spd4 r.2.2 rfl
    rfl (fun _ hx => List.mem_append_left _ hx) fun _ hx => List.mem_append_left _ hx
  obtain ⟨d6, h6, honce6, hchecked6⟩ := hfamily ctx.sp6Ctx ip6Proto trf.ip6 o6 stats.spd6
    (r.2.2.freePkts d4) rfl rfl (fun _ hx => List.mem_append_right _ hx)
    fun _ hx => List.mem_append_right _ hx
  have hp : p = (⟨(inboundSpSa ctx.sp4Ctx ctx.saCtx ip4Proto trf.ip4.length
        (trf.ip4 ++ o4) stats.spd4 r.2.2).1,
      (inboundSpSa ctx.sp6Ctx ctx.saCtx ip6Proto trf.ip6.length (trf.ip6 ++ o6) stats.spd6
        (r.2.2.freePkts d4)).1⟩,
      ⟨(inboundSpSa ctx.sp4Ctx ctx.saCtx ip4Proto trf.ip4.length (trf.ip4 ++ o4) stats.spd4
        r.2.2).2.1,
      (inboundSpSa ctx.sp6Ctx ctx.saCtx ip6Proto trf.ip6.length (trf.ip6 ++ o6) stats.spd6
        (r.2.2.freePkts d4)).2.1⟩, (r.2.2.freePkts d4).freePkts d6) := by
    show inboundPolicies ctx trf.ip4.length trf.ip6.length r.1 stats r.2.2 = _
    rw [inboundPolicies, h.ip4, h.ip6, h4, h6]
  rw [hp]
  refine ⟨log, hlog, d4, d6, ?_, honce4, honce6, fun acl hacl => ?_, fun acl hacl => ?_⟩
  · show r.2.2.freed ++ d4 ++ d6 = _
    rw [h.freed]
  · obtain ⟨horder, hcounted, hrule, hplain⟩ := hchecked4 acl hacl
    exact ⟨horder, hcounted, hrule, hplain⟩
  · obtain ⟨horder, hcounted, hrule, hplain⟩ := hchecked6 acl hacl
    exact ⟨horder, hcounted, hrule, hplain⟩

/-! ## The crypto of a call -/

variable {env : Env} {lib : CryptoGroup} {conf : PollConf}

/-- `split46_traffic` sorts packets by their version and frees the others. -/
theorem split46Traffic_parts (trf : Traffic) (mb : List PktId) (w : World) :
    ∃ o4 o6 left, split46Traffic trf mb w
        = (⟨trf.ip4 ++ o4, trf.ip6 ++ o6⟩, w.freePkts left)
      ∧ (o4 ++ o6 ++ left).Perm mb := by
  have hfold : ∀ (mb : List PktId) (trf : Traffic) (freed : List PktId),
      ∃ o4 o6 left, mb.foldl (split46One w) (trf, freed)
          = (⟨trf.ip4 ++ o4, trf.ip6 ++ o6⟩, freed ++ left)
        ∧ (o4 ++ o6 ++ left).Perm mb := by
    intro mb
    induction mb with
    | nil =>
        intro trf freed
        refine ⟨[], [], [], ?_, List.Perm.refl _⟩
        rw [List.append_nil, List.append_nil, List.append_nil]
        rfl
    | cons x mb ih =>
        intro trf freed
        rw [List.foldl_cons, split46One]
        dsimp only
        split
        · obtain ⟨o4, o6, left, heq, hperm⟩ := ih { trf with ip4 := trf.ip4 ++ [x] } freed
          refine ⟨x :: o4, o6, left, ?_, hperm.cons x⟩
          rw [heq]
          simp
        · split
          · obtain ⟨o4, o6, left, heq, hperm⟩ := ih { trf with ip6 := trf.ip6 ++ [x] } freed
            refine ⟨o4, x :: o6, left, ?_, ?_⟩
            · rw [heq]
              simp
            · refine List.Perm.trans ?_ (hperm.cons x)
              rw [List.append_assoc, List.append_assoc]
              exact List.perm_middle
          · obtain ⟨o4, o6, left, heq, hperm⟩ := ih trf (freed ++ [x])
            refine ⟨o4, o6, x :: left, ?_, ?_⟩
            · rw [heq]
              simp
            · exact List.perm_middle.trans (hperm.cons x)
  obtain ⟨o4, o6, left, heq, hperm⟩ := hfold mb trf []
  refine ⟨o4, o6, left, ?_, hperm⟩
  rw [split46Traffic, heq]
  rfl

/-- What the packets in the queues of the inbound context are known to be. -/
def AtQueue (conf : PollConf) (lib : CryptoGroup) (w : World) (x : PktId) : Prop :=
  if conf.enable then Grouped lib w x else Awaited w x

/-- The invariant between two calls of a lcore. -/
structure Sound (env : Env) (conf : PollConf) (lib : CryptoGroup) (s : State) : Prop where
  rest : conf.enable = false → Resting env.lcoreId True s
  short : conf.enable = true → ∀ i, (s.1.tbl i).buf.length < maxPktBurst
  waits : ∀ x, Waits s x → AtQueue conf lib s.2 x

/-- A burst from the NIC: its packets are distinct, and not those the crypto is
    still working on. -/
structure Arrives (s : State) (t : Burst) : Prop where
  nodup : (t.ipsec ++ (t.trf.ip4 ++ t.trf.ip6)).Nodup
  short : (t.ipsec ++ (t.trf.ip4 ++ t.trf.ip6)).length ≤ maxPktBurst
  fresh : ∀ x ∈ t.ipsec ++ (t.trf.ip4 ++ t.trf.ip6), ¬ Waits s x

/-- The crypto of a burst: what it gives back are ESP packets of the burst, and
    the others have been freed or wait. -/
structure BurstDone (env : Env) (conf : PollConf) (lib : CryptoGroup) (t : Burst)
    (s : State) (r : Traffic × State) (o4 o6 pre : List PktId) : Prop where
  done : CryptoDone t.trf s o4 o6 pre r
  sound : Sound env conf lib r.2
  mine : ∀ x ∈ o4 ++ o6, x ∈ t.ipsec
  nodup : (o4 ++ o6).Nodup
  clear : ∀ x ∈ t.trf.ip4 ++ t.trf.ip6, r.2.2.mbuf x = s.2.mbuf x
  moves : Moves s t.ipsec (o4 ++ o6) pre r.2
  freed : ∀ x ∈ pre, x ∉ t.trf.ip4 ++ t.trf.ip6 ++ (o4 ++ o6)

theorem atQueue_stable : Stable (AtQueue conf lib) := by
  intro w w' x hmbuf hsas h
  rw [AtQueue] at h ⊢
  split
  · rename_i henable
    rw [if_pos henable] at h
    exact queued_stable (K := True) w w' x hmbuf hsas (fun _ => h) trivial
  · rename_i henable
    rw [if_neg henable] at h
    exact awaited_stable w w' x hmbuf hsas h

/-- The account of a crypto call that gives back `out` in `s1`: `left` are those of
    them freed behind it, the others join the traffic of their family. -/
structure Accounted (env : Env) (conf : PollConf) (lib : CryptoGroup) (t : Burst)
    (s : State) (r : Traffic × State) (burst : List (PktId × Option SaRef))
    (out o4 o6 left : List PktId) (s1 : State) : Prop where
  traffic : r.1 = ⟨t.trf.ip4 ++ o4, t.trf.ip6 ++ o6⟩
  mine : burst.map Prod.fst = t.ipsec
  handled : Handled True (AtQueue conf lib) s burst out s1
  credited : Credited True .ingress burst s out s1
  perm : (o4 ++ o6 ++ left).Perm out
  moves : ∃ l, Moves s t.ipsec out l s1
  rest : conf.enable = false → Resting env.lcoreId True r.2
  short : conf.enable = true → ∀ i, (r.2.1.tbl i).buf.length < maxPktBurst
  ctx : r.2.1 = s1.1
  mbuf : r.2.2.mbuf = s1.2.mbuf
  sa : r.2.2.sa = s1.2.sa
  pair : r.2.2.pair = s1.2.pair
  log : r.2.2.processed = s1.2.processed
  freed : r.2.2.freed = s1.2.freed ++ left

/-- What is known of packets in queues may be said in another way. -/
theorem handled_mono {R R' : World → PktId → Prop} {s s' : State}
    {burst : List (PktId × Option SaRef)} {out : List PktId}
    (h : Handled True R s burst out s') (hR : ∀ x, R s'.2 x → R' s'.2 x) :
    Handled True R' s burst out s' := by
  refine ⟨h.mbuf, h.sas, h.back, h.nodup, ?_, h.freed⟩
  intro x hx
  rcases h.waits x hx with hx | ⟨hin, hnot, hx⟩
  · exact .inl hx
  · exact .inr ⟨hin, hnot, hR x hx⟩

/-- **THE ACCOUNT** of the crypto of a burst. -/
theorem inboundCrypto_accounted (hlaws : conf.enable = true → Lawful env lib)
    (sad : PktId → Option SaPtr) {t : Burst} {s : State} (hsound : Sound env conf lib s)
    (harr : Arrives s t) :
    Ends (inboundCrypto env conf sad t s) (· = .null)
      (fun r => ∃ burst out o4 o6 left s1,
        Accounted env conf lib t s r burst out o4 o6 left s1) := by
  have hfst : (inboundSaLookup sad s.2 t.ipsec).map Prod.fst = t.ipsec := by
    rw [inboundSaLookup, List.map_map]
    exact List.map_id _
  have hnodup : ((inboundSaLookup sad s.2 t.ipsec).map Prod.fst).Nodup := by
    rw [hfst]
    exact (List.nodup_append.mp harr.nodup).1
  have hlen : (inboundSaLookup sad s.2 t.ipsec).length ≤ maxPktBurst := by
    have h := harr.short
    rw [List.length_append] at h
    rw [inboundSaLookup, List.length_map]
    exact Nat.le_trans (Nat.le_add_right _ _) h
  rw [inboundCrypto]
  dsimp only
  generalize inboundSaLookup sad s.2 t.ipsec = burst at hfst hnodup hlen
  split
  · rename_i henable
    refine ((IpsecProcess.ipsecProcess_placed env burst t.trf (hsound.short henable)).and
      (ipsecProcess_handled (K := True) (fun _ => hlaws henable) .ingress hnodup t.trf
      s)).mono (fun _ h => h) ?_
    rintro r ⟨⟨places, hplaced⟩, out, ⟨o4, o6, h4, h6, hperm⟩, hhandled, hcredit, l, hmoves⟩
    rw [hfst] at hmoves
    refine ⟨burst, out, o4, o6, [], r.2, ?_, hfst, handled_mono hhandled ?_, hcredit, ?_,
      ⟨l, hmoves⟩, ?_, fun h => hplaced.ctx.short (hsound.short h), rfl, rfl, rfl, rfl, rfl,
      (List.append_nil _).symm⟩
    · cases hr : r.1
      rw [hr] at h4 h6
      exact congrArg₂ Traffic.mk h4 h6
    · intro x hx
      rw [AtQueue, if_pos henable]
      exact hx trivial
    · rw [List.append_nil]
      exact hperm
    · intro hfalse
      rw [henable] at hfalse
      cases hfalse
  · rename_i henable
    have henable : conf.enable = false := Bool.eq_false_iff.mpr henable
    obtain ⟨hctx, hol⟩ := hsound.rest henable
    have hnull : ∀ e, CallFault True e → e = .null := by
      rintro e (he | ⟨-, he⟩)
      · exact he
      · exact absurd trivial he
    refine ((((CryptoQueue.ipsecBurst_ok env (CryptoQueue.enqueueXform_keeps .ingress)
      (CryptoQueue.dequeueXform_keeps .ingress) hctx fun h => ⟨hol h, hlen⟩).mono
      hnull fun _ h => h).and
      (ipsecBurst_handled (K := True) env .ingress hnodup maxPktBurst (hol trivial))).and
      (PacketMoves.ipsecBurst_moves env .ingress burst maxPktBurst s)).bind ?_
    rintro ⟨out, s1⟩ ⟨⟨⟨hctx1, hol1⟩, hhandled, hcredit⟩, l, hmoves⟩
    rw [hfst] at hmoves
    obtain ⟨o4, o6, left, heq, hperm⟩ := split46Traffic_parts t.trf out s1.2
    refine ends_pure ⟨burst, out, o4, o6, left, s1, ?_⟩
    dsimp only
    rw [heq]
    refine ⟨rfl, hfst, handled_mono hhandled ?_, hcredit, hperm, ⟨l, hmoves⟩, ?_, ?_, rfl, rfl,
      rfl, rfl, rfl, rfl⟩
    · intro x hx
      rw [AtQueue, if_neg (by rw [henable]; exact Bool.false_ne_true)]
      exact hx
    · intro _
      exact ⟨hctx1.beside (CryptoQueue.freePkts_beside s1.2 left) hctx1.sessions, hol1⟩
    · intro htrue
      rw [henable] at htrue
      cases htrue

/-- From the account of a crypto call. -/
theorem Accounted.burstDone {t : Burst} {s s1 : State} {r : Traffic × State}
    {burst : List (PktId × Option SaRef)} {out o4 o6 left : List PktId}
    (ha : Accounted env conf lib t s r burst out o4 o6 left s1)
    (hsound : Sound env conf lib s) (harr : Arrives s t) :
    ∃ pre, BurstDone env conf lib t s r o4 o6 pre := by
  obtain ⟨htraffic, hfst, h, hcredit, hperm, ⟨l, hmoves⟩, hrest, hshort, hctx, hmbuf, hsa,
    hpair, hlog, hfreed⟩ := ha
  obtain ⟨hnodup, -, hfresh⟩ := harr
  have hparts := List.nodup_append.mp hnodup
  have hout : ∀ x ∈ o4 ++ o6, x ∈ out :=
    fun x hx => hperm.mem_iff.mp (List.mem_append_left _ hx)
  have hmine : ∀ x ∈ out, x ∈ t.ipsec := fun x hx => hfst ▸ h.mem_out hx
  have hclear : ∀ x ∈ t.trf.ip4 ++ t.trf.ip6, x ∉ t.ipsec :=
    fun x hx hin => hparts.2.2 x hin x hx rfl
  -- each packet that comes out is in one list, once
  have honce := List.nodup_append.mp (hperm.nodup_iff.mpr h.nodup)
  obtain ⟨l', hl, hwhy⟩ := h.freed
  obtain rfl := hmoves.freed_eq hl
  obtain ⟨log, hprocessed, -, hall⟩ := hcredit
  -- those sorted out behind the call are freed
  have hsorted : Moves (s1.1, s1.2) out (o4 ++ o6) left (s1.1, r.2.2) :=
    Moves.aside hpair hfreed hperm
  have hmoved := hmoves.then hsorted
  rw [← hctx] at hmoved
  refine ⟨l ++ left, ⟨congrArg Traffic.ip4 htraffic, congrArg Traffic.ip6 htraffic, ?_, log,
      ?_, ?_⟩, ⟨hrest, hshort, ?_⟩,
    fun x hx => hmine x (hout x hx), honce.1, ?_, ?_, ?_⟩
  · show r.2.2.freed = _
    rw [hfreed, hl, List.append_assoc]
  · exact hlog.trans hprocessed
  · intro x hx
    obtain ⟨q, fb, fb', type, -, hin, htag⟩ := hall x (hout x hx)
    refine ⟨q, fb', type, ?_, hin⟩
    show (r.2.2.mbuf x).priv.sa = some q
    rw [hmbuf]
    exact (htag trivial).1
  · rintro x ⟨i, hx⟩
    have hwait : Waits s1 x := by
      refine ⟨i, ?_⟩
      rw [← hctx, ← hpair]
      exact hx
    have hold : AtQueue conf lib s1.2 x := by
      rcases h.waits x hwait with hx | ⟨-, -, hx⟩
      · -- packets of earlier bursts are not touched
        refine atQueue_stable s.2 s1.2 x (h.mbuf x ?_) h.sas (hsound.waits x hx)
        intro hin
        rw [hfst] at hin
        exact hfresh x (List.mem_append_left _ hin) hx
      · exact hx
    -- sorting by family touches neither packets nor SAs
    refine atQueue_stable s1.2 r.2.2 x (congrFun hmbuf x) ?_ hold
    rw [hsa]
    exact SasKept.refl _
  · intro x hx
    show r.2.2.mbuf x = _
    rw [hmbuf]
    refine h.mbuf x ?_
    rw [hfst]
    exact hclear x hx
  · exact hmoved
  · intro x hx hin
    -- a packet that is kept has been freed by none of the two
    have hall : x ∈ t.ipsec ++ (t.trf.ip4 ++ t.trf.ip6) := by
      rcases List.mem_append.mp hin with hin | hin
      · exact List.mem_append_right _ hin
      · exact List.mem_append_left _ (hmine x (hout x hin))
    rcases List.mem_append.mp hx with hx | hx
    · rcases hwhy x hx with hwait | ⟨hmem, hnot⟩
      · exact hfresh x hall hwait
      · rw [hfst] at hmem
        rcases List.mem_append.mp hin with hin | hin
        · exact hclear x hin hmem
        · exact hnot (hout x hin)
    · rcases List.mem_append.mp hin with hin | hin
      · exact hclear x hin (hmine x (hperm.mem_iff.mp (List.mem_append_right _ hx)))
      · exact honce.2.2 x hin x hx rfl

/-- **THE CRYPTO OF A BURST**. -/
theorem inboundCrypto_done (hlaws : conf.enable = true → Lawful env lib)
    (sad : PktId → Option SaPtr) {t : Burst} {s : State} (hsound : Sound env conf lib s)
    (harr : Arrives s t) :
    Ends (inboundCrypto env conf sad t s) (· = .null)
      (fun r => ∃ o4 o6 pre, BurstDone env conf lib t s r o4 o6 pre) := by
  refine (inboundCrypto_accounted hlaws sad hsound harr).mono (fun _ h => h) ?_
  rintro r ⟨burst, out, o4, o6, left, s1, ha⟩
  obtain ⟨pre, hpre⟩ := ha.burstDone hsound harr
  exact ⟨o4, o6, pre, hpre⟩

end InboundPolicy
