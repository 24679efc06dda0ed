import IpsecSecgw.CryptoQueueProofs
import IpsecSecgw.EspSequenceProofs
import IpsecSecgw.EspTagProofs

/-! # The order of packets

    What `ipsec_inbound` and `ipsec_outbound` deliver at once comes off
    `ol_pkts` from its end; what a crypto device has worked on comes through a
    queue.  The second way keeps the packets of an SA in order, the first one
    does not.

    An account is kept beside the program: the packets passed in for each SA,
    the counter of the SA behind the preparation of each, and the packets
    delivered.  `waiting_inv` is the invariant: delivered packets and those
    that wait, one behind the other, are some of those passed in. -/

namespace PacketOrder

open SaModel MbufModel CdevModel IpsecModel CryptoQueue Esp Outcome Slots

/-! ## The account -/

/-- The packets passed in for an SA, the sequence number of the SA when a
    packet had been prepared, and the packets delivered with these numbers. -/
structure Account where
  passed : SaPtr → List PktId := fun _ => []
  number : PktId → UInt64 := fun _ => 0
  delivered : SaPtr → List (PktId × UInt64) := fun _ => []

/-- The account and the state of the program. -/
abbrev Books := Account × State

/-- `priv->sa` of a packet. -/
def saOf (w : World) (x : PktId) : Option SaPtr := (w.mbuf x).priv.sa

theorem modify_mbuf (w : World) (x : PktId) (f : Mbuf → Mbuf) :
    (w.modify x f).mbuf x = f (w.mbuf x) := Function.update_self ..

/-- The packets of an SA in a list, with their numbers. -/
def numbered (number : PktId → UInt64) (w : World) (p : SaPtr)
    (l : List PktId) : List (PktId × UInt64) :=
  (l.filter fun x => saOf w x = some p).map fun x => (x, number x)

/-- A packet is passed in with the SA found for it; `w` is the world behind
    its preparation. -/
def Account.pass (t : Account) (x : PktId × Option SaRef) (w : World) :
    Account :=
  match x.2 with
  | none => t
  | some (p, _) =>
      { t with
        passed := Function.update t.passed p (t.passed p ++ [x.1])
        number := Function.update t.number x.1 (w.sa p).seq }

/-- Packets are delivered. -/
def Account.deliver (t : Account) (w : World) (l : List PktId) : Account :=
  { t with
    delivered := fun p => t.delivered p ++ numbered t.number w p l }

/-- One packet of a burst. -/
def passOne (env : Env) (dir : Direction) (b : Books)
    (x : PktId × Option SaRef) : Except Fault Books := do
  let s ← ipsecEnqueueOne env (enqueueXform dir) b.2 x
  return (b.1.pass x s.2, s)

/-- What happens to a context.  `ipsec_inbound` and `ipsec_outbound` are the
    first two, `ipsec_inbound_cqp_dequeue` and `ipsec_outbound_cqp_dequeue` the
    third. -/
inductive Call
  | enqueue (burst : List (PktId × Option SaRef))
  | inlineDequeue
  | dequeue (maxPkts : Nat)
  | drain
  | elsewhere (w : World)

/-- One call, with the account. -/
def call (env : Env) (dir : Direction) (b : Books) : Call → Except Fault Books
  | .enqueue burst => burst.foldlM (passOne env dir) b
  | .inlineDequeue => do
      let r ← ipsecInlineDequeue (dequeueXform dir) maxPktBurst
        b.2.1.olPkts.length [] b.2
      return (b.1.deliver r.2.2 r.1, r.2)
  | .dequeue maxPkts => do
      let r ← ipsecDequeue env (dequeueXform dir) maxPkts b.2.1.nbQps [] b.2
      return (b.1.deliver r.2.2 r.1, r.2)
  | .drain => .ok (b.1, drainCryptoBuffers env b.2)
  | .elsewhere w => .ok (b.1, b.2.1, w)

/-- The account does not take part: a burst is `ipsec_enqueue`. -/
theorem enqueue_snd (env : Env) (dir : Direction)
    (burst : List (PktId × Option SaRef)) (b : Books) :
    (call env dir b (.enqueue burst)).map Prod.snd
      = ipsecEnqueue env (enqueueXform dir) burst b.2 := by
  show (burst.foldlM (passOne env dir) b).map Prod.snd = _
  induction burst generalizing b with
  | nil => rfl
  | cons x burst ih =>
      rw [List.foldlM_cons, ipsecEnqueue, List.foldlM_cons, passOne]
      cases ipsecEnqueueOne env (enqueueXform dir) b.2 x with
      | error e => rfl
      | ok s => exact ih (b.1.pass x s.2, s)

/-- `ipsec_inbound` and `ipsec_outbound` behind the SA lookup are two calls. -/
theorem burst_eq (env : Env) (dir : Direction)
    (burst : List (PktId × Option SaRef)) (b : Books) :
    ((call env dir b (.enqueue burst)).bind
        fun b' => call env dir b' .inlineDequeue).map Prod.snd
      = (ipsecBurst env (enqueueXform dir) (dequeueXform dir) burst maxPktBurst
          b.2).map Prod.snd := by
  have hfirst := enqueue_snd env dir burst b
  rw [ipsecBurst, ← hfirst]
  cases call env dir b (.enqueue burst) with
  | error e => rfl
  | ok b' =>
      show (call env dir b' .inlineDequeue).map Prod.snd
        = (ipsecInlineDequeue (dequeueXform dir) maxPktBurst
          b'.2.1.olPkts.length [] b'.2).map Prod.snd
      rw [call]
      cases ipsecInlineDequeue (dequeueXform dir) maxPktBurst
        b'.2.1.olPkts.length [] b'.2 with
      | error e => rfl
      | ok r => rfl

/-! ## Where packets wait -/

/-- The operations of one queue: those the device holds, and those behind them
    in the buffer. -/
def line (s : State) (i : Nat) : List PktId :=
  if i < s.1.nbQps then
    (s.2.pair (s.1.tbl i).toCdevQp).held ++ (s.1.tbl i).buf
  else []

/-- The packets a context has. -/
def InFlight (s : State) (x : PktId) : Prop :=
  x ∈ s.1.olPkts ∨ ∃ i, x ∈ line s i

/-- The two inline types. -/
def IsInline (sa : IpsecSa) : Prop :=
  sa.primary.type = .inlineCrypto ∨ sa.primary.type = .inlineProtocol

instance (sa : IpsecSa) : Decidable (IsInline sa) :=
  inferInstanceAs (Decidable (_ ∨ _))

/-- The queue of a lookaside SA: the one it names, or the one the next attempt
    to create its session will make it name. -/
def route (env : Env) (ctx : IpsecCtx) (sa : IpsecSa) : Nat :=
  if sa.primary.ses = none then
    (UInt32.ofNat ((ctx.cdevMap (sessionKey env sa)).getD 0)).toNat
  else sa.cdevIdQp.toNat

/-- The packets among which those of an SA wait. -/
def waiting (env : Env) (s : State) (p : SaPtr) : List PktId :=
  if IsInline (s.2.sa p) then s.1.olPkts
  else line s (route env s.1 (s.2.sa p))

/-- Does `esp_outbound` number the packets of the SA? -/
def Counted (dir : Direction) (sa : IpsecSa) : Prop :=
  dir = .egress ∧ (sa.primary.type = .none ∨ sa.primary.type = .inlineCrypto)

theorem not_isInline {sa : IpsecSa} (hcrypto : sa.primary.type ≠ .inlineCrypto)
    (hproto : sa.primary.type ≠ .inlineProtocol) : ¬ IsInline sa :=
  fun h => h.elim hcrypto hproto

theorem not_counted {dir : Direction} {sa : IpsecSa} (hnone : sa.primary.type ≠ .none)
    (hcrypto : sa.primary.type ≠ .inlineCrypto) : ¬ Counted dir sa :=
  fun h => h.2.elim hnone hcrypto

/-! ## What is promised, and what is asked for -/

/-- **PACKET ORDER**: for each SA the packets delivered are some of those passed
    in, in this order, and where `esp_outbound` numbers them the numbers, whose
    low half is in the ESP header, increase. -/
def InOrder (dir : Direction) (b : Books) : Prop :=
  ∀ p, ((b.1.delivered p).map Prod.fst).Sublist (b.1.passed p)
    ∧ (Counted dir (b.2.2.sa p) →
      (b.1.delivered p).Pairwise fun x y => x.2 < y.2)

/-- What other lcores may do in the meantime, besides `Elsewhere`: packets in
    flight keep their SA, an SA keeps its type and, with packets in flight, its
    queue, and counters do not go back. -/
structure Meanwhile (env : Env) (s : State) (w : World) : Prop extends
    Elsewhere s w where
  packets : ∀ x, InFlight s x → saOf w x = saOf s.2 x
  type : ∀ p, (w.sa p).primary.type = (s.2.sa p).primary.type
  queue : ∀ x p, InFlight s x → saOf s.2 x = some p →
    route env s.1 (w.sa p) = route env s.1 (s.2.sa p)
  seq : ∀ p, (s.2.sa p).seq ≤ (w.sa p).seq

/-- What callers take care of: the packets of a burst are different ones, and
    none of them is in flight. -/
def Proper (env : Env) (s : State) : Call → Prop
  | .enqueue burst => (burst.map Prod.fst).Nodup
      ∧ ∀ x ∈ burst.map Prod.fst, ¬ InFlight s x
  | .elsewhere w => Meanwhile env s w
  | _ => True

/-- Post-processing will accept the packet. -/
def Accepted (dir : Direction) (w : World) (x : PktId) : Prop :=
  ∃ p m sa, saOf w x = some p
    ∧ dequeueXform dir (w.mbuf x) (w.sa p) = some (0, m, sa)

/-- No SA has two packets in `ol_pkts` that post-processing will accept. -/
def Sparse (dir : Direction) (s : State) : Prop :=
  ∀ x ∈ s.1.olPkts, ∀ y ∈ s.1.olPkts, Accepted dir s.2 x →
    Accepted dir s.2 y → saOf s.2 x = saOf s.2 y → x = y

/-- The condition on a call: `ol_pkts` is sparse when it is emptied, and no
    counter of an SA wraps. -/
def Clear (dir : Direction) (s : State) : Call → Prop
  | .enqueue burst => dir = .egress →
      ∀ p, (s.2.sa p).seq.toNat + burst.length < 2 ^ 64
  | .inlineDequeue => Sparse dir s
  | _ => True

/-- A call under the condition. -/
def Step (env : Env) (dir : Direction) (b b' : Books) : Prop :=
  ∃ c, Proper env b.2 c ∧ Clear dir b.2 c ∧ call env dir b c = .ok b'

/-! ## The packets of one SA -/

variable {env : Env} {dir : Direction}

/-- The packets of an SA in a list. -/
def own (w : World) (p : SaPtr) (l : List PktId) : List PktId :=
  l.filter fun x => saOf w x = some p

@[simp] theorem own_nil (w : World) (p : SaPtr) : own w p [] = [] := rfl

@[simp] theorem own_append (w : World) (p : SaPtr) (l l' : List PktId) :
    own w p (l ++ l') = own w p l ++ own w p l' := List.filter_append ..

theorem own_sublist (w : World) (p : SaPtr) {l l' : List PktId}
    (h : l.Sublist l') : (own w p l).Sublist (own w p l') := h.filter _

/-- Only the tags of the packets in the list count. -/
theorem own_congr {w w' : World} {p : SaPtr} {l : List PktId}
    (h : ∀ x ∈ l, saOf w' x = saOf w x) : own w' p l = own w p l := by
  refine List.filter_congr ?_
  intro x hx
  rw [h x hx]

/-- Packets of other SAs do not count. -/
theorem own_eq_nil {w : World} {p : SaPtr} {l : List PktId}
    (h : ∀ x ∈ l, saOf w x ≠ some p) : own w p l = [] := by
  refine List.filter_eq_nil_iff.mpr ?_
  intro x hx
  simpa using h x hx

theorem numbered_eq (number : PktId → UInt64) (w : World) (p : SaPtr)
    (l : List PktId) :
    numbered number w p l = (own w p l).map fun x => (x, number x) := rfl

/-- Packets with numbers, in order behind one another: some of those passed in
    for the SA, with increasing numbers up to the counter. -/
structure InLine (dir : Direction) (passed : List PktId) (sa : IpsecSa)
    (l : List (PktId × UInt64)) : Prop where
  order : (l.map Prod.fst).Sublist passed
  rising : Counted dir sa → l.Pairwise fun x y => x.2 < y.2
  bound : Counted dir sa → ∀ x ∈ l, x.2 ≤ sa.seq

section inLine

variable {sent : List PktId} {sa sa' : IpsecSa} {l l' : List (PktId × UInt64)}

theorem InLine.nil : InLine dir sent sa [] :=
  ⟨List.nil_sublist _, fun _ => List.Pairwise.nil, fun _ _ hx => by cases hx⟩

/-- Packets may get lost. -/
theorem InLine.sublist (h : InLine dir sent sa l) (hsub : l'.Sublist l) :
    InLine dir sent sa l' :=
  ⟨(hsub.map Prod.fst).trans h.order, fun hc => (h.rising hc).sublist hsub,
    fun hc x hx => h.bound hc x (hsub.subset hx)⟩

/-- The counter may go on. -/
theorem InLine.later (h : InLine dir sent sa l)
    (htype : sa'.primary.type = sa.primary.type) (hseq : sa.seq ≤ sa'.seq) :
    InLine dir sent sa' l := by
  have hback : Counted dir sa' → Counted dir sa := by
    rintro ⟨hd, ht⟩
    rw [htype] at ht
    exact ⟨hd, ht⟩
  refine ⟨h.order, fun hc => h.rising (hback hc), ?_⟩
  intro hc x hx
  exact UInt64.le_trans (h.bound (hback hc) x hx) hseq

/-- A packet is passed in and goes no further. -/
theorem InLine.pass (h : InLine dir sent sa l) (x : PktId) :
    InLine dir (sent ++ [x]) sa l :=
  ⟨h.order.trans (List.sublist_append_left _ _), h.rising, h.bound⟩

/-- A packet is passed in and joins the line, with the next number. -/
theorem InLine.snoc (h : InLine dir sent sa l)
    (htype : sa'.primary.type = sa.primary.type)
    (hseq : Counted dir sa → sa.seq < sa'.seq) (x : PktId) :
    InLine dir (sent ++ [x]) sa' (l ++ [(x, sa'.seq)]) := by
  have hback : Counted dir sa' → Counted dir sa := by
    rintro ⟨hd, ht⟩
    rw [htype] at ht
    exact ⟨hd, ht⟩
  refine ⟨?_, ?_, ?_⟩
  · rw [List.map_append]
    exact h.order.append (List.Sublist.refl _)
  · intro hc
    refine List.pairwise_append.mpr
      ⟨h.rising (hback hc), List.pairwise_singleton _ _, ?_⟩
    intro y hy z hz
    rw [List.mem_singleton.mp hz]
    exact UInt64.lt_of_le_of_lt (h.bound (hback hc) y hy) (hseq (hback hc))
  · intro hc y hy
    rcases List.mem_append.mp hy with hy | hy
    · exact UInt64.le_of_lt
        (UInt64.lt_of_le_of_lt (h.bound (hback hc) y hy) (hseq (hback hc)))
    · rw [List.mem_singleton.mp hy]
      exact UInt64.le_refl _

end inLine

/-! ## The invariant -/

/-- Every packet waits where packets of its SA wait. -/
structure Filed (env : Env) (s : State) : Prop where
  room : s.1.olPkts.length ≤ maxPktBurst
  nodup : s.1.olPkts.Nodup
  inline : ∀ x ∈ s.1.olPkts, ∃ p, saOf s.2 x = some p ∧ IsInline (s.2.sa p)
  queued : ∀ i, ∀ x ∈ line s i, ∃ p, saOf s.2 x = some p
    ∧ ¬ IsInline (s.2.sa p) ∧ route env s.1 (s.2.sa p) = i

/-- The invariant of a context and its account. -/
structure Flow (env : Env) (dir : Direction) (b : Books) : Prop where
  ctx : CtxOk env.lcoreId b.2
  filed : Filed env b.2
  order : ∀ p, InLine dir (b.1.passed p) (b.2.2.sa p)
    (b.1.delivered p ++ numbered b.1.number b.2.2 p (waiting env b.2 p))

/-- Packets move or get lost, their tags and the SAs stay. -/
structure Calm (s s' : State) : Prop where
  cdevMap : s'.1.cdevMap = s.1.cdevMap
  tag : ∀ x, saOf s'.2 x = saOf s.2 x
  sa : s'.2.sa = s.2.sa
  ol : s'.1.olPkts.Sublist s.1.olPkts
  line : ∀ i, (line s' i).Sublist (line s i)

theorem Calm.refl (s : State) : Calm s s :=
  ⟨rfl, fun _ => rfl, rfl, List.Sublist.refl _, fun _ => List.Sublist.refl _⟩

theorem Calm.trans {s s' s'' : State} (h : Calm s s') (h' : Calm s' s'') :
    Calm s s'' :=
  ⟨h'.cdevMap.trans h.cdevMap, fun x => (h'.tag x).trans (h.tag x),
    h'.sa.trans h.sa, h'.ol.trans h.ol, fun i => (h'.line i).trans (h.line i)⟩

theorem Calm.own {s s' : State} (h : Calm s s') (p : SaPtr) (l : List PktId) :
    own s'.2 p l = own s.2 p l := own_congr fun x _ => h.tag x

theorem Calm.route {s s' : State} (h : Calm s s') (sa : IpsecSa) :
    route env s'.1 sa = route env s.1 sa := by
  rw [PacketOrder.route, PacketOrder.route, h.cdevMap]

theorem Calm.waiting {s s' : State} (h : Calm s s') (p : SaPtr) :
    (waiting env s' p).Sublist (waiting env s p) := by
  rw [PacketOrder.waiting, PacketOrder.waiting, h.sa]
  split
  · exact h.ol
  · rw [h.route]
    exact h.line _

theorem Filed.calm {s s' : State} (h : Filed env s) (hc : Calm s s') :
    Filed env s' where
  room := Nat.le_trans hc.ol.length_le h.room
  nodup := h.nodup.sublist hc.ol
  inline := by
    intro x hx
    obtain ⟨p, htag, htype⟩ := h.inline x (hc.ol.subset hx)
    refine ⟨p, (hc.tag x).trans htag, ?_⟩
    rw [hc.sa]
    exact htype
  queued := by
    intro i x hx
    obtain ⟨p, htag, htype, hroute⟩ := h.queued i x ((hc.line i).subset hx)
    refine ⟨p, (hc.tag x).trans htag, ?_, ?_⟩
    · rw [hc.sa]
      exact htype
    · rw [hc.sa, hc.route]
      exact hroute

/-- **A DELIVERY** keeps the invariant when the packets delivered were those in
    front, for each SA. -/
theorem Flow.deliver {b : Books} {s' : State} {out : List PktId}
    (h : Flow env dir b) (hctx : CtxOk env.lcoreId s') (hc : Calm b.2 s')
    (hown : ∀ p, (own b.2.2 p (out ++ waiting env s' p)).Sublist
      (own b.2.2 p (waiting env b.2 p))) :
    Flow env dir (b.1.deliver s'.2 out, s') := by
  refine ⟨hctx, h.filed.calm hc, ?_⟩
  intro p
  show InLine dir (b.1.passed p) (s'.2.sa p) ((b.1.delivered p
    ++ numbered b.1.number s'.2 p out)
    ++ numbered b.1.number s'.2 p (waiting env s' p))
  rw [hc.sa]
  refine (h.order p).sublist ?_
  rw [List.append_assoc]
  refine List.Sublist.append_left ?_ _
  rw [numbered_eq, numbered_eq, numbered_eq, hc.own, hc.own, ← List.map_append,
    ← own_append]
  exact (hown p).map _

/-- Packets move, and none is delivered. -/
theorem Flow.calm {b : Books} {s' : State} (h : Flow env dir b)
    (hctx : CtxOk env.lcoreId s') (hc : Calm b.2 s') :
    Flow env dir (b.1, s') := by
  have hsame : b.1.deliver s'.2 [] = b.1 := by
    rw [Account.deliver]
    simp [numbered]
  have hflow := @Flow.deliver env dir b s' [] h hctx hc fun p =>
    own_sublist b.2.2 p (hc.waiting p)
  rw [hsame] at hflow
  exact hflow

/-! ## Queues -/

/-- A call on one queue changes the line there. -/
theorem line_served {lcore : UInt8} {s : State} (h : CtxOk lcore s) {i : Nat}
    (hi : i < s.1.nbQps) {ops : List PktId} {r : CdevQueue × World}
    (hr : Served (s.1.tbl i) s.2 ops r) :
    line (s.1.setQueue i r.1, r.2) i
        = (r.2.pair (s.1.tbl i).toCdevQp).held ++ r.1.buf
      ∧ ∀ j, j ≠ i → line (s.1.setQueue i r.1, r.2) j = line s j := by
  constructor
  · rw [line, if_pos (show i < (s.1.setQueue i r.1).nbQps from hi)]
    show (r.2.pair (Function.update s.1.tbl i r.1 i).toCdevQp).held
      ++ (Function.update s.1.tbl i r.1 i).buf = _
    rw [Function.update_self, hr.key]
  · intro j hj
    rw [line, line]
    by_cases hlt : j < s.1.nbQps
    · rw [if_pos hlt, if_pos (show j < (s.1.setQueue i r.1).nbQps from hlt)]
      show (r.2.pair (Function.update s.1.tbl i r.1 j).toCdevQp).held
        ++ (Function.update s.1.tbl i r.1 j).buf = _
      rw [Function.update_of_ne hj,
        hr.step.others _ fun he => hj (h.distinct j i hlt hi he)]
    · rw [if_neg hlt, if_neg (show ¬ j < (s.1.setQueue i r.1).nbQps from hlt)]

/-- A flush moves operations from the buffer to the device, or loses them. -/
theorem enqueueCopBurst_line (env : Env) (q : CdevQueue) (w : World) :
    let r := enqueueCopBurst env q w
    ((r.2.pair q.toCdevQp).held ++ r.1.buf).Sublist
        ((w.pair q.toCdevQp).held ++ q.buf)
      ∧ r.2.mbuf = w.mbuf := by
  intro r
  refine ⟨?_, rfl⟩
  show (((rteCryptodevEnqueueBurst env q.toCdevQp q.buf w).2.pair
    q.toCdevQp).held ++ []).Sublist _
  rw [List.append_nil, rteCryptodevEnqueueBurst]
  dsimp only
  rw [Function.update_self]
  exact (List.take_sublist _ _).append_left _

/-- An operation goes to the end of the line, or gets lost. -/
theorem enqueueCop_line (env : Env) (cop : PktId) (q : CdevQueue) (w : World) :
    Ends (enqueueCop env cop q w) (fun _ => True) (fun r =>
      ((r.2.pair q.toCdevQp).held ++ r.1.buf).Sublist
          ((w.pair q.toCdevQp).held ++ q.buf ++ [cop])
        ∧ r.2.mbuf = w.mbuf) := by
  have hheld : ((w.submit q.toCdevQp [cop]).pair q.toCdevQp).held
      = (w.pair q.toCdevQp).held := by
    show (Function.update w.pair q.toCdevQp _ q.toCdevQp).held = _
    rw [Function.update_self]
  rw [enqueueCop, List.append_assoc]
  split
  · exact ends_error trivial
  · dsimp only
    split
    · obtain ⟨hline, hmbuf⟩ := enqueueCopBurst_line env
        { q with buf := q.buf ++ [cop] } (w.submit q.toCdevQp [cop])
      rw [hheld] at hline
      exact ends_ok ⟨hline, hmbuf⟩
    · refine ends_ok ⟨?_, rfl⟩
      rw [hheld]

/-- **A FLUSH** of all queues is calm. -/
theorem drainCryptoBuffers_calm {s : State} (h : CtxOk lcore s) :
    Calm s (drainCryptoBuffers env s) := by
  have hloop : CtxOk lcore (drainCryptoBuffers env s)
      ∧ Calm s (drainCryptoBuffers env s)
      ∧ (drainCryptoBuffers env s).1.nbQps = s.1.nbQps := by
    refine forLoop_inv (fun _ t => CtxOk lcore t ∧ Calm s t
      ∧ t.1.nbQps = s.1.nbQps) ⟨h, Calm.refl s, rfl⟩ ?_
    rintro i t hi ⟨ht, hc, hnb⟩
    rw [drainQueue]
    split
    · have hi' : i < t.1.nbQps := by rw [hnb]; exact hi
      obtain ⟨hok, -⟩ := ht.queues i hi'
      have hserved := enqueueCopBurst_served env hok
      obtain ⟨hline, hmbuf⟩ := enqueueCopBurst_line env (t.1.tbl i) t.2
      obtain ⟨hself, hother⟩ := line_served ht hi' hserved
      refine ⟨ht.served hi' hserved, hc.trans ⟨rfl, ?_, hserved.step.sa,
        List.Sublist.refl _, ?_⟩, hnb⟩
      · intro x
        show ((enqueueCopBurst env (t.1.tbl i) t.2).2.mbuf x).priv.sa = _
        rw [hmbuf]
        rfl
      · intro j
        by_cases hj : j = i
        · subst hj
          rw [hself, line, if_pos hi']
          exact hline
        · rw [hother j hj]
    · exact ⟨ht, hc, hnb⟩
  exact hloop.2.1

/-! ## Dequeues -/

/-- Completed operations keep the SA of their packet: devices write the data
    and the status of an operation. -/
def KeepsSa (env : Env) : Prop :=
  ∀ n x m, (env.complete n x m).priv.sa = m.priv.sa

/-- Post-processing leaves the packet its SA, and the SA alone. -/
theorem dequeueXform_tag {m : Mbuf} {sa : IpsecSa} {r : Int × Mbuf × IpsecSa}
    (h : dequeueXform dir m sa = some r) :
    r.2.1.priv.sa = m.priv.sa ∧ r.2.2 = sa := by
  cases dir with
  | ingress =>
      have h : (espInboundPost m sa).map (fun r => (r.1, r.2, sa)) = some r := h
      obtain ⟨⟨rc, m'⟩, hpost, rfl⟩ := Option.map_eq_some_iff.mp h
      exact ⟨espInboundPost_tag hpost, rfl⟩
  | egress =>
      obtain rfl := Option.some.inj h
      exact ⟨espOutboundPost_tag m sa, rfl⟩

/-- The world is the same but for the packet: its tag is. -/
structure Posted (w : World) (pkt : PktId) (w' : World) : Prop where
  tag : ∀ x, saOf w' x = saOf w x
  sa : w'.sa = w.sa
  pair : w'.pair = w.pair
  others : ∀ x, x ≠ pkt → w'.mbuf x = w.mbuf x

theorem Posted.freePkts {w w' : World} {pkt : PktId} (h : Posted w pkt w')
    (ps : List PktId) : Posted w pkt (w'.freePkts ps) :=
  ⟨h.tag, h.sa, h.pair, h.others⟩

theorem Posted.logProcessed {w w' : World} {pkt : PktId} (h : Posted w pkt w')
    (ref : SaRef) (ps : List PktId) : Posted w pkt (w'.logProcessed ref ps) :=
  ⟨h.tag, h.sa, h.pair, h.others⟩

/-- Post-processing of one packet. -/
theorem xform_posted (w : World) (pkt : PktId) (p : SaPtr) :
    Ends (w.xform (dequeueXform dir) pkt p) (fun _ => True) (fun r =>
      Posted w pkt r.2 ∧ (r.1 = 0 → ∃ m sa,
        dequeueXform dir (w.mbuf pkt) (w.sa p) = some (0, m, sa))
      ∧ r.2.freed = w.freed ∧ r.2.processed = w.processed) := by
  rw [World.xform]
  cases hr : dequeueXform dir (w.mbuf pkt) (w.sa p) with
  | none => exact ends_error trivial
  | some r =>
      obtain ⟨rc, m, sa⟩ := r
      obtain ⟨htag, hsa⟩ := dequeueXform_tag hr
      obtain rfl : sa = w.sa p := hsa
      refine ends_ok ⟨⟨?_, ?_, rfl, ?_⟩, ?_, rfl, rfl⟩
      · intro x
        show (Function.update w.mbuf pkt m x).priv.sa = (w.mbuf x).priv.sa
        by_cases hx : x = pkt
        · rw [hx, Function.update_self]
          exact htag
        · rw [Function.update_of_ne hx]
      · exact Function.update_eq_self p w.sa
      · intro x hx
        exact Function.update_of_ne hx _ _
      · rintro rfl
        exact ⟨m, w.sa p, rfl⟩

/-- A completed operation joins the packets delivered, or its packet is
    freed. -/
theorem finishOp_posted (t : List PktId × World) (pkt : PktId) :
    Ends (finishOp (dequeueXform dir) t pkt) (fun _ => True) (fun t' =>
      Posted t.2 pkt t'.2 ∧ (t'.1 = t.1 ∨ t'.1 = t.1 ++ [pkt])) := by
  have hsame : Posted t.2 pkt t.2 :=
    ⟨fun _ => rfl, rfl, rfl, fun _ _ => rfl⟩
  refine ((privSa_ok t.2 pkt).mono (fun _ _ => trivial) fun _ h => h).bind ?_
  intro p _
  cases (t.2.sa p).primary.type with
  | none =>
      refine (xform_posted t.2 pkt p).bind ?_
      rintro ⟨ret, w⟩ ⟨hw, -⟩
      dsimp only
      split
      · exact ends_pure ⟨hw.freePkts _, .inl rfl⟩
      · exact ends_pure ⟨hw.logProcessed _ _, .inr rfl⟩
  | lookasideProtocol =>
      dsimp only
      split
      · exact ends_pure ⟨hsame.freePkts _, .inl rfl⟩
      · exact ends_pure ⟨hsame.logProcessed _ _, .inr rfl⟩
  | inlineCrypto => exact ends_pure ⟨hsame, .inr rfl⟩
  | inlineProtocol => exact ends_pure ⟨hsame, .inr rfl⟩
  | cpuCrypto => exact ends_pure ⟨hsame, .inr rfl⟩

/-- The operations of one dequeue: some of them are delivered, in order. -/
theorem finishOps_posted (dir : Direction) (pkts out : List PktId) (w : World) :
    Ends (out.foldlM (finishOp (dequeueXform dir)) (pkts, w)) (fun _ => True)
      (fun t => (∀ x, saOf t.2 x = saOf w x) ∧ t.2.sa = w.sa
        ∧ t.2.pair = w.pair ∧ ∃ rs, t.1 = pkts ++ rs ∧ rs.Sublist out) := by
  induction out generalizing pkts w with
  | nil =>
      exact ends_pure ⟨fun _ => rfl, rfl, rfl, [], (List.append_nil _).symm,
        List.Sublist.refl _⟩
  | cons pkt out ih =>
      rw [List.foldlM_cons]
      refine (finishOp_posted (pkts, w) pkt).bind ?_
      rintro ⟨pkts', w'⟩ ⟨hw, hpkts⟩
      refine (ih pkts' w').mono (fun _ h => h) ?_
      rintro t ⟨htag, hsa, hpair, rs, hrs, hsub⟩
      refine ⟨fun x => (htag x).trans (hw.tag x), hsa.trans hw.sa,
        hpair.trans hw.pair, ?_⟩
      rcases hpkts with hlost | hjoined
      · have hlost : pkts' = pkts := hlost
        rw [hlost] at hrs
        exact ⟨rs, hrs, hsub.cons _⟩
      · have hjoined : pkts' = pkts ++ [pkt] := hjoined
        rw [hjoined, List.append_assoc] at hrs
        exact ⟨[pkt] ++ rs, hrs, hsub.cons_cons _⟩

/-- Writing packets in a way that keeps their tags. -/
theorem modifyAll_tag {f : PktId → Mbuf → Mbuf}
    (hf : ∀ x m, (f x m).priv.sa = m.priv.sa) (ps : List PktId) (w : World)
    (x : PktId) : saOf (w.modifyAll ps f) x = saOf w x := by
  induction ps generalizing w with
  | nil => rfl
  | cons q ps ih =>
      refine (ih (w.modify q (f q))).trans ?_
      show (Function.update w.mbuf q (f q (w.mbuf q)) x).priv.sa = _
      by_cases hx : x = q
      · rw [hx, Function.update_self]
        exact hf q _
      · rw [Function.update_of_ne hx]
        rfl

/-- **A DEQUEUE** takes operations off the front of the line. -/
theorem cqpDequeue_line (hkeep : KeepsSa env) (num : Nat) (q : CdevQueue)
    (w : World) :
    let r := cqpDequeue env q num w
    r.1 ++ ((r.2.2.pair q.toCdevQp).held ++ r.2.1.buf)
        = (w.pair q.toCdevQp).held ++ q.buf
      ∧ ∀ x, saOf r.2.2 x = saOf w x := by
  intro r
  rcases cqpDequeue_cases env q num w with ⟨-, hr⟩ | ⟨left, -, hr⟩
  · rw [show r = _ from hr]
    exact ⟨rfl, fun _ => rfl⟩
  · rw [show r = _ from hr, rteCryptodevDequeueBurst]
    dsimp only
    refine ⟨?_, fun x => modifyAll_tag (fun x m => hkeep _ x m) _ _ x⟩
    rw [(modifyAll_frame _ _ _).1]
    dsimp only
    rw [Function.update_self, ← List.append_assoc, List.take_append_drop]

/-- What a dequeue from the queues has done to a context: for each SA, the
    packets delivered were in front. -/
structure Dequeued (env : Env) (lcore : UInt8) (s : State)
    (out : List PktId) (s' : State) : Prop where
  ctx : CtxOk lcore s'
  calm : Calm s s'
  nbQps : s'.1.nbQps = s.1.nbQps
  own : ∀ p, (own s.2 p (out ++ waiting env s' p)).Sublist
    (own s.2 p (waiting env s p))

theorem Dequeued.refl {s : State} (h : CtxOk lcore s) :
    Dequeued env lcore s [] s :=
  ⟨h, Calm.refl s, rfl, fun _ => List.Sublist.refl _⟩

theorem Dequeued.trans {s s' s'' : State} {out out' : List PktId}
    (h : Dequeued env lcore s out s') (h' : Dequeued env lcore s' out' s'') :
    Dequeued env lcore s (out ++ out') s'' := by
  refine ⟨h'.ctx, h.calm.trans h'.calm, h'.nbQps.trans h.nbQps, ?_⟩
  intro p
  have hnext := h'.own p
  have hfirst := h.own p
  rw [h.calm.own, h.calm.own] at hnext
  rw [own_append] at hfirst
  rw [List.append_assoc, own_append _ _ out]
  exact (hnext.append_left _).trans hfirst

/-- **ONE QUEUE** of `ipsec_dequeue`. -/
theorem dequeueOne_dequeued (hkeep : KeepsSa env) {s : State}
    (h : CtxOk lcore s) (hf : Filed env s) (hi : s.1.lastQp < s.1.nbQps)
    (num : Nat) (pkts : List PktId) :
    let r := cqpDequeue env (s.1.tbl s.1.lastQp) num s.2
    Ends (r.1.foldlM (finishOp (dequeueXform dir)) (pkts, r.2.2))
      (fun _ => True) (fun t => ∃ rs, t.1 = pkts ++ rs
        ∧ Dequeued env lcore s rs ({ s.1.setQueue s.1.lastQp r.2.1 with
          lastQp := if s.1.lastQp + 1 = s.1.nbQps then 0
            else s.1.lastQp + 1 }, t.2)) := by
  intro r
  obtain ⟨hok, hshort⟩ := h.queues _ hi
  have hserved := cqpDequeue_served env num hok hshort
  obtain ⟨hself, hother⟩ := line_served h hi hserved
  obtain ⟨hline, htag⟩ := cqpDequeue_line hkeep num (s.1.tbl s.1.lastQp) s.2
  have hfold := (finishOps_posted dir pkts r.1 r.2.2).and
    (ends_foldlM (E := fun e => e = .null) (P := fun _ t =>
      CtxOk lcore (s.1.setQueue s.1.lastQp r.2.1, t.2)) (h.served hi hserved)
      (fun pkt _ t ht => finishOp_ok (dequeueXform_keeps dir) ht))
  refine hfold.mono (fun _ _ => trivial) ?_
  rintro ⟨pkts', w⟩ ⟨⟨htag', hsa, hpair, rs, hrs, hsub⟩, hctx⟩
  generalize hs' : (({ s.1.setQueue s.1.lastQp r.2.1 with
    lastQp := if s.1.lastQp + 1 = s.1.nbQps then 0 else s.1.lastQp + 1 }, w)
      : State) = s'
  -- post-processing does not touch the queues
  have hlines : ∀ j, line s' j = line (s.1.setQueue s.1.lastQp r.2.1, r.2.2) j := by
    intro j
    rw [← hs', line, line]
    show (if j < s.1.nbQps then (w.pair _).held ++ _ else [])
      = if j < s.1.nbQps then (r.2.2.pair _).held ++ _ else []
    rw [hpair]
  have hfront : line s s.1.lastQp = r.1 ++ line s' s.1.lastQp := by
    rw [hlines, hself, hline, line, if_pos hi]
  have hcalm : Calm s s' := by
    subst hs'
    refine ⟨rfl, fun x => (htag' x).trans (htag x),
      hsa.trans hserved.step.sa, List.Sublist.refl _, ?_⟩
    intro j
    by_cases hj : j = s.1.lastQp
    · rw [hj, hfront]
      exact List.sublist_append_right _ _
    · rw [hlines, hother j hj]
  have hctx' : CtxOk lcore s' := by
    rw [← hs']
    exact hctx.next hi
  have hnb : s'.1.nbQps = s.1.nbQps := by
    rw [← hs']
    rfl
  have hol : s'.1.olPkts = s.1.olPkts := by
    rw [← hs']
    rfl
  refine ⟨rs, hrs, hctx', hcalm, hnb, ?_⟩
  intro p
  have htags : ∀ x ∈ rs, ∃ q, saOf s.2 x = some q ∧ ¬ IsInline (s.2.sa q)
      ∧ route env s.1 (s.2.sa q) = s.1.lastQp := by
    intro x hx
    refine hf.queued _ x ?_
    rw [hfront]
    exact List.mem_append_left _ (hsub.subset hx)
  rw [own_append, waiting, waiting, hcalm.sa, hcalm.route, hol]
  split
  · -- packets of inline SAs are in no queue
    rename_i hinline
    have hnone : own s.2 p rs = [] := own_eq_nil fun x hx hp => by
      obtain ⟨q, hq, htype, -⟩ := htags x hx
      obtain rfl := Option.some.inj (hp.symm.trans hq)
      exact htype hinline
    rw [hnone, List.nil_append]
  · by_cases hroute : route env s.1 (s.2.sa p) = s.1.lastQp
    · rw [hroute, hfront, own_append]
      exact (own_sublist s.2 p hsub).append_right _
    · -- packets of other queues are elsewhere
      have hnone : own s.2 p rs = [] := own_eq_nil fun x hx hp => by
        obtain ⟨q, hq, -, hi⟩ := htags x hx
        obtain rfl := Option.some.inj (hp.symm.trans hq)
        exact hroute hi
      rw [hnone, List.nil_append, hlines, hother _ hroute]

/-- **ALL QUEUES**: `ipsec_dequeue`. -/
theorem ipsecDequeue_dequeued (dir : Direction) (hkeep : KeepsSa env)
    (maxPkts : Nat) {n : Nat} (pkts : List PktId) {s : State} (h : CtxOk lcore s) (hf : Filed env s)
    (hn : n ≤ s.1.nbQps) :
    Ends (ipsecDequeue env (dequeueXform dir) maxPkts n pkts s) (fun _ => True)
      (fun r => ∃ rs, r.1 = pkts ++ rs ∧ Dequeued env lcore s rs r.2) := by
  induction n generalizing pkts s with
  | zero => exact ends_ok ⟨[], (List.append_nil _).symm, Dequeued.refl h⟩
  | succ n ih =>
      rw [ipsecDequeue]
      split
      · exact ends_ok ⟨[], (List.append_nil _).symm, Dequeued.refl h⟩
      have hi : s.1.lastQp < s.1.nbQps := by
        rcases h.last with hlt | ⟨hzero, -⟩
        · exact hlt
        · omega
      refine (dequeueOne_dequeued hkeep h hf hi _ pkts).bind ?_
      rintro ⟨pkts', w⟩ ⟨rs, hrs, hone⟩
      have hrest := ih pkts' hone.ctx (hf.calm hone.calm) (by
        rw [hone.nbQps]
        exact Nat.le_of_succ_le hn)
      refine hrest.mono (fun _ h => h) ?_
      rintro r ⟨rs', hrs', hmore⟩
      refine ⟨rs ++ rs', ?_, hone.trans hmore⟩
      rw [hrs', ← List.append_assoc]
      exact congrArg (· ++ rs') hrs

/-! ## The offload array -/

/-- What `ipsec_inline_dequeue` delivers: packets of the array, each once, that
    post-processing accepts; the others of the array are freed.  Packets keep
    their tags, and nothing else of the context changes. -/
structure Popped (dir : Direction) (s : State) (new : List PktId) (s' : State) :
    Prop where
  ctx : ∃ ol, s'.1 = { s.1 with olPkts := ol } ∧ ol.Sublist s.1.olPkts
  tag : ∀ x, saOf s'.2 x = saOf s.2 x
  sa : s'.2.sa = s.2.sa
  pair : s'.2.pair = s.2.pair
  nodup : new.Nodup
  accepted : ∀ x ∈ new, x ∈ s.1.olPkts ∧ Accepted dir s.2 x
  others : ∀ x, x ∉ s.1.olPkts → s'.2.mbuf x = s.2.mbuf x
  freed : ∃ l, s'.2.freed = s.2.freed ++ l
    ∧ ∀ x ∈ l, x ∈ s.1.olPkts ∧ x ∉ new
  processed : ∃ l, s'.2.processed = s.2.processed ++ l
    ∧ (∀ e ∈ l, e.1 ∈ s.1.olPkts)
    ∧ ∀ x ∈ new, ∃ q, saOf s.2 x = some q
      ∧ (x, (q, false), (s.2.sa q).primary.type) ∈ l

theorem Popped.none (s : State) : Popped dir s [] s :=
  ⟨⟨s.1.olPkts, rfl, List.Sublist.refl _⟩, fun _ => rfl, rfl, rfl,
    List.nodup_nil, fun _ hx => absurd hx List.not_mem_nil, fun _ _ => rfl,
    ⟨[], (List.append_nil _).symm, fun _ hx => absurd hx List.not_mem_nil⟩,
    ⟨[], (List.append_nil _).symm, fun _ hx => absurd hx List.not_mem_nil,
      fun _ hx => absurd hx List.not_mem_nil⟩⟩

/-- What becomes of the last packet of the array: it is freed, or it is
    delivered and its processing logged. -/
def Taken (dir : Direction) (s : State) (pkt : PktId) (w : World)
    (first : List PktId) : Prop :=
  first = [] ∧ w.freed = s.2.freed ++ [pkt] ∧ w.processed = s.2.processed
  ∨ first = [pkt] ∧ Accepted dir s.2 pkt ∧ w.freed = s.2.freed
    ∧ ∃ q, saOf s.2 pkt = some q ∧ w.processed = s.2.processed
      ++ [(pkt, (q, false), (s.2.sa q).primary.type)]

/-- The last packet goes, the others follow. -/
theorem Popped.cons {s s' : State} {pkt : PktId} {w : World}
    {new first : List PktId} (hsplit : s.1.olPkts = s.1.olPkts.dropLast ++ [pkt])
    (hnodup : s.1.olPkts.Nodup) (hw : Posted s.2 pkt w)
    (hfirst : Taken dir s pkt w first)
    (h : Popped dir ({ s.1 with olPkts := s.1.olPkts.dropLast }, w) new s') :
    Popped dir s (first ++ new) s' := by
  obtain ⟨ol, hctx, hol⟩ := h.ctx
  have hmem : ∀ x ∈ new, x ∈ s.1.olPkts.dropLast := fun x hx =>
    (h.accepted x hx).1
  -- a packet is in the array once
  have hne : ∀ x ∈ s.1.olPkts.dropLast, x ≠ pkt := by
    rintro x hx rfl
    rw [hsplit] at hnodup
    exact (List.nodup_append.mp hnodup).2.2 x hx x (List.mem_singleton_self _)
      rfl
  have hpkt : pkt ∈ s.1.olPkts := by
    rw [hsplit]
    exact List.mem_append_right _ (List.mem_singleton_self _)
  have hstays : pkt ∉ new := fun hx => hne pkt (hmem pkt hx) rfl
  refine ⟨⟨ol, hctx, hol.trans (List.dropLast_sublist _)⟩,
    fun x => (h.tag x).trans (hw.tag x), h.sa.trans hw.sa,
    h.pair.trans hw.pair, ?_, ?_, ?_, ?_, ?_⟩
  · rcases hfirst with ⟨rfl, -⟩ | ⟨rfl, -⟩
    · exact h.nodup
    · exact List.nodup_cons.mpr ⟨hstays, h.nodup⟩
  · intro x hx
    rcases List.mem_append.mp hx with hx | hx
    · rcases hfirst with ⟨rfl, -⟩ | ⟨rfl, hacc, -⟩
      · cases hx
      · rw [List.mem_singleton.mp hx]
        exact ⟨hpkt, hacc⟩
    · obtain ⟨hin, p, m, sa, htag, hpost⟩ := h.accepted x hx
      refine ⟨List.dropLast_subset _ hin, p, m, sa, (hw.tag x).symm.trans htag,
        ?_⟩
      rw [← hw.sa, ← hw.others x (hne x hin)]
      exact hpost
  · intro x hx
    refine (h.others x fun hin => hx (List.dropLast_subset _ hin)).trans ?_
    refine hw.others x ?_
    rintro rfl
    exact hx hpkt
  · obtain ⟨l, hl, hin⟩ := h.freed
    have hrest : ∀ x ∈ l, x ∈ s.1.olPkts ∧ x ∉ first ++ new := by
      intro x hx
      obtain ⟨hol, hnew⟩ := hin x hx
      refine ⟨List.dropLast_subset _ hol, ?_⟩
      intro hmem
      rcases List.mem_append.mp hmem with hf | hf
      · rcases hfirst with ⟨rfl, -⟩ | ⟨rfl, -⟩
        · cases hf
        · exact hne x hol (List.mem_singleton.mp hf)
      · exact hnew hf
    rcases hfirst with ⟨rfl, hfreed, -⟩ | ⟨rfl, -, hfreed, -⟩
    · refine ⟨[pkt] ++ l, ?_, ?_⟩
      · rw [hl, ← List.append_assoc]
        exact congrArg (· ++ l) hfreed
      · intro x hx
        rcases List.mem_append.mp hx with hx | hx
        · rw [List.mem_singleton.mp hx]
          exact ⟨hpkt, hstays⟩
        · exact hrest x hx
    · exact ⟨l, hl.trans (congrArg (· ++ l) hfreed), hrest⟩
  · obtain ⟨l, hl, honly, hin⟩ := h.processed
    have honly : ∀ e ∈ l, e.1 ∈ s.1.olPkts :=
      fun e he => List.dropLast_subset _ (honly e he)
    have hrest : ∀ x ∈ new, ∃ q, saOf s.2 x = some q
        ∧ (x, (q, false), (s.2.sa q).primary.type) ∈ l := by
      intro x hx
      obtain ⟨q, hq, hlog⟩ := hin x hx
      have hlog : (x, (q, false), (w.sa q).primary.type) ∈ l := hlog
      rw [hw.sa] at hlog
      exact ⟨q, (hw.tag x).symm.trans hq, hlog⟩
    rcases hfirst with ⟨rfl, -, hlogs⟩ | ⟨rfl, -, -, q, hq, hlogs⟩
    · exact ⟨l, hl.trans (congrArg (· ++ l) hlogs), honly, hrest⟩
    · refine ⟨[(pkt, (q, false), (s.2.sa q).primary.type)] ++ l, ?_, ?_, ?_⟩
      · rw [hl, ← List.append_assoc]
        exact congrArg (· ++ l) hlogs
      · intro e he
        rcases List.mem_cons.mp he with rfl | he
        · exact hpkt
        · exact honly e he
      · intro x hx
        rcases List.mem_append.mp hx with hx | hx
        · rw [List.mem_singleton.mp hx]
          exact ⟨q, hq, List.mem_append_left _ (List.mem_singleton_self _)⟩
        · obtain ⟨q', hq', hlog⟩ := hrest x hx
          exact ⟨q', hq', List.mem_append_right _ hlog⟩

/-- The pointer that is followed is the packet's tag. -/
theorem privSa_saOf (w : World) (pkt : PktId) :
    Ends (w.privSa pkt) (fun _ => True) (fun p => saOf w pkt = some p) := by
  rw [World.privSa]
  split
  · exact ends_error trivial
  · rename_i htag
    exact ends_ok htag

/-- **POPPING** the array. -/
theorem ipsecInlineDequeue_popped (dir : Direction) (maxPkts fuel : Nat) (pkts : List PktId)
    {s : State} (hnodup : s.1.olPkts.Nodup) :
    Ends (ipsecInlineDequeue (dequeueXform dir) maxPkts fuel pkts s)
      (fun _ => True) (fun r => ∃ new, r.1 = pkts ++ new
        ∧ Popped dir s new r.2) := by
  induction fuel generalizing pkts s with
  | zero => exact ends_ok ⟨[], (List.append_nil _).symm, Popped.none s⟩
  | succ fuel ih =>
      rw [ipsecInlineDequeue]
      cases hlast : s.1.olPkts.getLast? with
      | none => exact ends_ok ⟨[], (List.append_nil _).symm, Popped.none s⟩
      | some pkt =>
          dsimp only
          split
          · exact ends_ok ⟨[], (List.append_nil _).symm, Popped.none s⟩
          -- the last packet of the array is looked at first
          have hsplit : s.1.olPkts = s.1.olPkts.dropLast ++ [pkt] :=
            (List.dropLast_append_getLast? pkt hlast).symm
          have hrest : s.1.olPkts.dropLast.Nodup :=
            hnodup.sublist (List.dropLast_sublist _)
          refine (privSa_saOf s.2 pkt).bind ?_
          intro p htag
          refine (xform_posted s.2 pkt p).bind ?_
          rintro ⟨ret, w⟩ ⟨hw, hzero, hfreed, hprocessed⟩
          dsimp only at hw hzero hfreed hprocessed ⊢
          split
          · refine (ih pkts (s := ({ s.1 with
              olPkts := s.1.olPkts.dropLast }, w.freePkts [pkt]))
              hrest).mono (fun _ h => h) ?_
            rintro r ⟨new, hr, hpopped⟩
            exact ⟨new, hr, hpopped.cons hsplit hnodup (hw.freePkts _)
              (.inl ⟨rfl, congrArg (· ++ [pkt]) hfreed, hprocessed⟩)⟩
          · rename_i hret
            obtain ⟨m, sa, hpost⟩ := hzero (not_not.mp hret)
            refine (ih (pkts ++ [pkt]) (s := ({ s.1 with
              olPkts := s.1.olPkts.dropLast },
              w.logProcessed (p, false) [pkt])) hrest).mono
                (fun _ h => h) ?_
            rintro r ⟨new, hr, hpopped⟩
            have hlog : (w.logProcessed (p, false) [pkt]).processed
                = s.2.processed ++ [(pkt, (p, false), (s.2.sa p).primary.type)] := by
              show w.processed ++ [(pkt, (p, false), (w.sa p).primary.type)] = _
              rw [hprocessed, hw.sa]
            refine ⟨[pkt] ++ new, ?_, hpopped.cons hsplit hnodup
              (hw.logProcessed _ _) (.inr ⟨rfl, ⟨p, m, sa, htag, hpost⟩,
                hfreed, p, htag, hlog⟩)⟩
            rw [hr, List.append_assoc]

/-- A list without repetition whose elements all are in another list, but for
    one. -/
theorem sublist_of_single {l l' : List PktId} (hnodup : l.Nodup)
    (hone : ∀ x ∈ l, ∀ y ∈ l, x = y) (hmem : ∀ x ∈ l, x ∈ l') :
    l.Sublist l' := by
  cases l with
  | nil => exact List.nil_sublist _
  | cons x l =>
      have hnil : l = [] := by
        refine List.eq_nil_iff_forall_not_mem.mpr ?_
        intro y hy
        have hxy := hone x (List.mem_cons_self ..) y (List.mem_cons_of_mem _ hy)
        rw [hxy] at hnodup
        exact (List.nodup_cons.mp hnodup).1 hy
      rw [hnil]
      exact List.singleton_sublist.mpr (hmem x (List.mem_cons_self ..))

/-- **A SPARSE ARRAY** is emptied in order: no SA has more than one packet in
    it that comes out. -/
theorem inlineDequeue_flow {b : Books} (h : Flow env dir b)
    (hsparse : Sparse dir b.2) :
    Ends (call env dir b .inlineDequeue) (fun _ => True) (Flow env dir) := by
  obtain ⟨t, s⟩ := b
  have hboth := (@ipsecInlineDequeue_ok env.lcoreId _ (dequeueXform_keeps dir)
    maxPktBurst _ [] s h.ctx rfl).and
      (ipsecInlineDequeue_popped dir maxPktBurst s.1.olPkts.length []
        h.filed.nodup)
  refine Ends.bind (hboth.mono (fun _ _ => trivial) fun _ ha => ha) ?_
  rintro ⟨out, s'⟩ ⟨⟨hctx, hempty⟩, new, hout, hpopped⟩
  have hempty : s'.1.olPkts = [] := hempty h.filed.room
  have hout : out = new := hout
  subst hout
  obtain ⟨ol, hsame, hol⟩ := hpopped.ctx
  -- the queues keep their contents
  have hlines : ∀ i, line s' i = line s i := by
    intro i
    rw [line, line, hpopped.pair, hsame]
  have hcalm : Calm s s' := by
    refine ⟨?_, hpopped.tag, hpopped.sa, ?_, fun i => ?_⟩
    · rw [hsame]
    · rw [hsame]
      exact hol
    · rw [hlines]
  refine ends_pure (h.deliver hctx hcalm ?_)
  intro p
  rw [own_append, waiting, waiting, hcalm.sa, hcalm.route, hlines, hempty]
  have hnodup : (own s.2 p out).Nodup := hpopped.nodup.sublist
    List.filter_sublist
  split
  · rw [own_nil, List.append_nil]
    -- at most one packet of the SA comes out
    refine sublist_of_single hnodup ?_ ?_
    · intro x hx y hy
      obtain ⟨hx, hxp⟩ := List.mem_filter.mp hx
      obtain ⟨hy, hyp⟩ := List.mem_filter.mp hy
      obtain ⟨hxol, hxacc⟩ := hpopped.accepted x hx
      obtain ⟨hyol, hyacc⟩ := hpopped.accepted y hy
      exact hsparse x hxol y hyol hxacc hyacc
        ((of_decide_eq_true hxp).trans (of_decide_eq_true hyp).symm)
    · intro x hx
      obtain ⟨hx, hxp⟩ := List.mem_filter.mp hx
      exact List.mem_filter.mpr ⟨(hpopped.accepted x hx).1, hxp⟩
  · -- nothing of a lookaside SA is in the array
    rename_i hqueued
    have hnone : own s.2 p out = [] := own_eq_nil fun x hx hp => by
      obtain ⟨q, hq, htype⟩ := h.filed.inline x (hpopped.accepted x hx).1
      obtain rfl := Option.some.inj (hp.symm.trans hq)
      exact hqueued htype
    rw [hnone, List.nil_append]

/-! ## Preparation -/

/-- Opening a session gives the SA a session object and a queue; where packets
    of the SA go stays as it was. -/
structure Routed (env : Env) (ctx : IpsecCtx) (p : SaPtr) (w w' : World) :
    Prop where
  mbuf : w'.mbuf = w.mbuf
  pair : w'.pair = w.pair
  sas : ∀ q, q ≠ p → w'.sa q = w.sa q
  same : ∃ ses i, w'.sa p = { w.sa p with
    primary := { (w.sa p).primary with ses := ses }
    cdevIdQp := i }
  route : route env ctx (w'.sa p) = route env ctx (w.sa p)

theorem Routed.refl (env : Env) (ctx : IpsecCtx) (p : SaPtr) (w : World) :
    Routed env ctx p w w :=
  ⟨rfl, rfl, fun _ _ => rfl, ⟨_, _, rfl⟩, rfl⟩

/-- An SA without session object goes where the hash says. -/
theorem route_of_none {ctx : IpsecCtx} {sa : IpsecSa} {i : Nat}
    (hses : sa.primary.ses = none)
    (hmap : ctx.cdevMap (sessionKey env sa) = some i) :
    route env ctx sa = (UInt32.ofNat i).toNat := by
  rw [route, if_pos hses, hmap]
  rfl

theorem attachObject_mbuf (env : Env) (p : SaPtr) (fallback : Bool) (dev : Nat)
    (w : World) : (attachObject env p fallback dev w).mbuf = w.mbuf := by
  rw [attachObject]
  dsimp only
  split
  · rfl
  · rfl

/-- The attempt to attach a session object changes nothing but that object. -/
structure Attached (p : SaPtr) (w w1 : World) : Prop where
  mbuf : w1.mbuf = w.mbuf
  pair : w1.pair = w.pair
  sas : ∀ q, q ≠ p → w1.sa q = w.sa q
  self : ∃ ses, w1.sa p = { w.sa p with
    primary := { (w.sa p).primary with ses := ses } }

theorem attachObject_attached (env : Env) (p : SaPtr) (dev : Nat) (w : World) :
    Attached p w (attachObject env p false dev w) := by
  obtain ⟨hbeside, ses, hsa⟩ := attachObject_sa env p false dev w
  refine ⟨attachObject_mbuf env p false dev w, hbeside.pair, ?_, ses, ?_⟩
  · intro q hq
    rw [hsa, Function.update_of_ne hq]
  · rw [hsa, Function.update_self]
    rfl

/-- Without an object the hash still says where packets go. -/
theorem Attached.routed_of_none {ctx : IpsecCtx} {p : SaPtr} {w w1 : World}
    {i : Nat} (h : Attached p w w1) (hses : (w.sa p).primary.ses = none)
    (hmap : ctx.cdevMap (sessionKey env (w.sa p)) = some i)
    (hnone : (w1.sa p).primary.ses = none) : Routed env ctx p w w1 := by
  obtain ⟨ses, hself⟩ := h.self
  refine ⟨h.mbuf, h.pair, h.sas, ⟨ses, (w.sa p).cdevIdQp, hself⟩, ?_⟩
  rw [route_of_none hnone (i := i) (by rw [hself]; exact hmap),
    route_of_none hses hmap]

/-- The index is written: a session object, if there is one, goes there. -/
theorem Attached.routed_done {ctx : IpsecCtx} {p : SaPtr} {w w1 : World}
    {i : Nat} (h : Attached p w w1) (hses : (w.sa p).primary.ses = none)
    (hmap : ctx.cdevMap (sessionKey env (w.sa p)) = some i) :
    let w2 := w1.modifySa p fun sa => { sa with cdevIdQp := UInt32.ofNat i }
    Routed env ctx p w w2
      ∧ route env ctx (w.sa p) = (w2.sa p).cdevIdQp.toNat := by
  intro w2
  obtain ⟨ses, hself⟩ := h.self
  have hroute := route_of_none hses hmap
  have hnew : w2.sa p = { w.sa p with
      primary := { (w.sa p).primary with ses := ses }
      cdevIdQp := UInt32.ofNat i } := by
    show Function.update w1.sa p { w1.sa p with cdevIdQp := UInt32.ofNat i } p
      = _
    rw [Function.update_self, hself]
  refine ⟨⟨h.mbuf, h.pair, ?_, ⟨ses, UInt32.ofNat i, hnew⟩, ?_⟩, ?_⟩
  · intro q hq
    show Function.update w1.sa p _ q = _
    rw [Function.update_of_ne hq, h.sas q hq]
  · rw [hroute, hnew, route]
    split
    · show (UInt32.ofNat ((ctx.cdevMap
        (sessionKey env (w.sa p))).getD 0)).toNat = _
      rw [hmap]
      rfl
    · rfl
  · rw [hroute, hnew]

/-- **A NEW SESSION** of an SA goes where its packets were meant to go. -/
theorem createLookasideSession_routed (env : Env) (ctx : IpsecCtx) {p : SaPtr}
    {w : World} (hses : (w.sa p).primary.ses = none) :
    let r := createLookasideSession env ctx p false w
    Routed env ctx p w r.2 ∧ (r.1 = 0 →
      route env ctx (w.sa p) = (r.2.sa p).cdevIdQp.toNat) := by
  intro r
  -- a failure promises no queue
  have hfail : ∀ (rc : Int) (w' : World), r = (rc, w') → rc ≠ 0 →
      Routed env ctx p w w' → Routed env ctx p w r.2 ∧ (r.1 = 0 →
        route env ctx (w.sa p) = (r.2.sa p).cdevIdQp.toNat) := by
    rintro rc w' hr hrc hw
    rw [hr]
    exact ⟨hw, fun hz => absurd hz hrc⟩
  have hneg : (-1 : Int) ≠ 0 := by decide
  have hr : r = createLookasideSession env ctx p false w := rfl
  rw [createLookasideSession] at hr
  cases hmap : ctx.cdevMap (sessionKey env (w.sa p)) with
  | none =>
      rw [hmap] at hr
      exact hfail (-1) w hr hneg (Routed.refl env ctx p w)
  | some i =>
      rw [hmap] at hr
      dsimp only at hr
      have hattached := attachObject_attached env p (ctx.tbl i).id w
      generalize attachObject env p false (ctx.tbl i).id w = w1
        at hattached hr
      -- behind a success the SA names the queue of the hash
      have hdone : r = (0, w1.modifySa p fun sa =>
            { sa with cdevIdQp := UInt32.ofNat i }) →
          Routed env ctx p w r.2 ∧ (r.1 = 0 →
            route env ctx (w.sa p) = (r.2.sa p).cdevIdQp.toNat) := by
        intro hr
        obtain ⟨hrouted, hindex⟩ := hattached.routed_done hses hmap
        rw [hr]
        exact ⟨hrouted, fun _ => hindex⟩
      cases htype : (session (w.sa p) false).type with
      | none => exact hdone (by rw [hr, htype])
      | inlineCrypto =>
          exact hfail (-1) w (by rw [hr, htype]) hneg (Routed.refl env ctx p w)
      | inlineProtocol =>
          exact hfail (-1) w (by rw [hr, htype]) hneg (Routed.refl env ctx p w)
      | cpuCrypto =>
          by_cases hcpu : (!env.cpuCrypto (ctx.tbl i).id) = true
          · refine hfail enotsup w ?_ (by decide)
              (Routed.refl env ctx p w)
            rw [hr, htype]
            exact if_pos hcpu
          · refine hdone ?_
            rw [hr, htype]
            exact if_neg hcpu
      | lookasideProtocol =>
          by_cases hnone : (session (w1.sa p) false).ses = none
          · refine hfail (-1) w1 ?_ hneg
              (hattached.routed_of_none hses hmap hnone)
            rw [hr, htype]
            exact if_pos hnone
          · refine hdone ?_
            rw [hr, htype]
            exact if_neg hnone

/-- **OPENING A SESSION**. -/
theorem openSession_routed (env : Env) (ctx : IpsecCtx) (p : SaPtr) (w : World) :
    let r := openSession env ctx p false w
    Routed env ctx p w r.2 ∧ (r.1 = true →
      route env ctx (w.sa p) = (r.2.sa p).cdevIdQp.toNat) := by
  intro r
  by_cases hses : (w.sa p).primary.ses = none
  · have hr : r = ((createLookasideSession env ctx p false w).1 == 0,
        (createLookasideSession env ctx p false w).2) := if_pos hses
    obtain ⟨hrouted, hzero⟩ := createLookasideSession_routed env ctx hses
    rw [hr]
    exact ⟨hrouted, fun h => hzero (eq_of_beq h)⟩
  · have hr : r = (true, w) := if_neg hses
    rw [hr]
    refine ⟨Routed.refl env ctx p w, fun _ => ?_⟩
    rw [route, if_neg hses]

/-- A packet is on its way to the place `dest`: the world is the same but for
    the packet, which has its tag, and its SA, which may have counted it. -/
structure Readied (env : Env) (dir : Direction) (ctx : IpsecCtx) (pkt : PktId)
    (p : SaPtr) (w : World) (r : Dest × World) : Prop where
  others : ∀ x, x ≠ pkt → r.2.mbuf x = w.mbuf x
  tag : saOf r.2 pkt = some p
  pair : r.2.pair = w.pair
  sas : ∀ q, q ≠ p → r.2.sa q = w.sa q
  type : (r.2.sa p).primary.type = (w.sa p).primary.type
  route : route env ctx (r.2.sa p) = route env ctx (w.sa p)
  seq : (r.2.sa p).seq = (w.sa p).seq
    ∨ dir = .egress ∧ (r.2.sa p).seq = (w.sa p).seq + 1
  counted : r.1 ≠ .freed → Counted dir (w.sa p) →
    (r.2.sa p).seq = (w.sa p).seq + 1
  offload : r.1 = .offload → IsInline (w.sa p)
  queue : r.1 = .queue → ¬ IsInline (w.sa p)
    ∧ PacketOrder.route env ctx (w.sa p) = (r.2.sa p).cdevIdQp.toNat

/-- Preparation leaves the packet its SA. -/
theorem enqueueXform_tag {m : Mbuf} {sa : IpsecSa} {r : Int × Mbuf × IpsecSa}
    (h : enqueueXform dir m sa = some r) : r.2.1.priv.sa = m.priv.sa := by
  cases dir with
  | ingress =>
      obtain rfl := Option.some.inj h
      exact espInbound_tag m sa
  | egress =>
      obtain ⟨rc, m', sa'⟩ := r
      exact espOutbound_tag h

/-- `esp_outbound` counts what it returns zero for, `esp_inbound` nothing. -/
theorem enqueueXform_seq {m : Mbuf} {sa : IpsecSa} {r : Int × Mbuf × IpsecSa}
    (h : enqueueXform dir m sa = some r) :
    ∃ n, r.2.2 = { sa with seq := n }
      ∧ (n = sa.seq ∨ dir = .egress ∧ n = sa.seq + 1)
      ∧ (r.1 = 0 → dir = .egress → n = sa.seq + 1) := by
  cases dir with
  | ingress =>
      obtain rfl := Option.some.inj h
      exact ⟨sa.seq, rfl, .inl rfl, fun _ hd => by cases hd⟩
  | egress =>
      obtain ⟨rc, m', sa'⟩ := r
      rcases espOutbound_sa h with ⟨rfl, hrc⟩ | rfl
      · exact ⟨sa'.seq, rfl, .inl rfl, fun hz _ => absurd hz hrc⟩
      · exact ⟨sa.seq + 1, rfl, .inr ⟨rfl, rfl⟩, fun _ _ => rfl⟩

/-- Only the success of a transformation leads anywhere but to the pool. -/
theorem dest_of_kept {ret : Int} {dest d : Dest} (hd : d ≠ .freed)
    (h : (if ret = 0 then dest else .freed) = d) : ret = 0 ∧ dest = d := by
  by_cases hret : ret = 0
  · exact ⟨hret, (if_pos hret).symm.trans h⟩
  · exact absurd ((if_neg hret).symm.trans h).symm hd

/-- A transformation behind what has been done to the packet and its SA. -/
theorem xform_readied (dir : Direction) (dest : Dest) {ctx : IpsecCtx}
    {pkt : PktId} {p : SaPtr} {w w1 : World} (hrouted : Routed env ctx p w w1) {f : Mbuf → Mbuf}
    (hf : (f (w1.mbuf pkt)).priv.sa = some p)
    (hoffload : dest = .offload → IsInline (w.sa p))
    (hqueue : dest = .queue → ¬ IsInline (w.sa p)
      ∧ route env ctx (w.sa p) = (w1.sa p).cdevIdQp.toNat) :
    Ends ((w1.modify pkt f).xform (enqueueXform dir) pkt p) (fun _ => True)
      (fun r => Readied env dir ctx pkt p w
        (if r.1 = 0 then dest else .freed, r.2)) := by
  obtain ⟨ses, i, hsame⟩ := hrouted.same
  rw [World.xform]
  cases hr : enqueueXform dir ((w1.modify pkt f).mbuf pkt)
      ((w1.modify pkt f).sa p) with
  | none => exact ends_error trivial
  | some r =>
      have htag := enqueueXform_tag hr
      obtain ⟨n, hsa, hseq, hcount⟩ := enqueueXform_seq hr
      rw [modify_mbuf, hf] at htag
      -- the transformation changes the SA in its counter alone
      have hself : Function.update w1.sa p r.2.2 p
          = { w1.sa p with seq := n } := by
        rw [Function.update_self]
        exact hsa
      have hseqs : (w1.sa p).seq = (w.sa p).seq := by rw [hsame]
      refine ends_ok ⟨?_, ?_, hrouted.pair, ?_, ?_, ?_, ?_, ?_, ?_, ?_⟩
      · intro x hx
        show Function.update (Function.update w1.mbuf pkt _) pkt _ x = _
        rw [Function.update_of_ne hx, Function.update_of_ne hx, hrouted.mbuf]
      · show (Function.update (Function.update w1.mbuf pkt _) pkt _ pkt).priv.sa
          = some p
        rw [Function.update_self]
        exact htag
      · intro q hq
        show Function.update w1.sa p _ q = _
        rw [Function.update_of_ne hq, hrouted.sas q hq]
      · show (Function.update w1.sa p r.2.2 p).primary.type = _
        rw [hself, hsame]
      · show route env ctx (Function.update w1.sa p r.2.2 p) = _
        rw [hself, ← hrouted.route]
        rfl
      · show (Function.update w1.sa p r.2.2 p).seq = _
          ∨ _ ∧ (Function.update w1.sa p r.2.2 p).seq = _
        rw [hself, ← hseqs]
        exact hseq
      · intro hdest hc
        show (Function.update w1.sa p r.2.2 p).seq = _
        rw [hself, ← hseqs]
        refine hcount ?_ hc.1
        by_contra hret
        exact hdest (if_neg hret)
      · intro hdest
        exact hoffload (dest_of_kept (by simp) hdest).2
      · intro hdest
        show _ ∧ _ = (Function.update w1.sa p r.2.2 p).cdevIdQp.toNat
        rw [hself]
        exact hqueue (dest_of_kept (by simp) hdest).2

/-- Preparation that leaves the packet alone. -/
theorem untouched_readied (dir : Direction) (dest : Dest) {ctx : IpsecCtx}
    {pkt : PktId} {p : SaPtr} {w w1 : World} (hrouted : Routed env ctx p w w1)
    (htag : saOf w1 pkt = some p)
    (hcount : dest ≠ .freed → ¬ Counted dir (w.sa p))
    (hoffload : dest = .offload → IsInline (w.sa p))
    (hqueue : dest = .queue → ¬ IsInline (w.sa p)
      ∧ route env ctx (w.sa p) = (w1.sa p).cdevIdQp.toNat) :
    Readied env dir ctx pkt p w (dest, w1) := by
  obtain ⟨ses, i, hsame⟩ := hrouted.same
  refine ⟨?_, htag, hrouted.pair, hrouted.sas, ?_, hrouted.route, .inl ?_,
    fun hdest hc => absurd hc (hcount hdest), hoffload, hqueue⟩
  · intro x _
    rw [hrouted.mbuf]
  · show (w1.sa p).primary.type = _
    rw [hsame]
  · show (w1.sa p).seq = _
    rw [hsame]

/-- A packet that is dropped at once. -/
theorem dropped_readied (dir : Direction) {ctx : IpsecCtx} {pkt : PktId}
    {p : SaPtr} {w w1 : World} (hrouted : Routed env ctx p w w1)
    (htag : saOf w1 pkt = some p) :
    Readied env dir ctx pkt p w (.freed, w1) :=
  untouched_readied dir .freed hrouted htag (fun h => absurd rfl h)
    (fun h => by cases h) (fun h => by cases h)

/-- What is written to the packet then does not matter while it keeps its SA. -/
theorem Readied.modify {ctx : IpsecCtx} {pkt : PktId} {p : SaPtr}
    {w w1 : World} {dest : Dest} {f : Mbuf → Mbuf}
    (h : Readied env dir ctx pkt p w (dest, w1))
    (hf : (f (w1.mbuf pkt)).priv.sa = some p) :
    Readied env dir ctx pkt p w (dest, w1.modify pkt f) := by
  refine ⟨?_, ?_, h.pair, h.sas, h.type, h.route, h.seq, h.counted,
    h.offload, h.queue⟩
  · intro x hx
    refine Eq.trans ?_ (h.others x hx)
    exact Function.update_of_ne hx _ _
  · show (Function.update w1.mbuf pkt _ pkt).priv.sa = some p
    rw [Function.update_self]
    exact hf

/-- What has been written to the packet before does not matter. -/
theorem Readied.of_modify {ctx : IpsecCtx} {pkt : PktId} {p : SaPtr} {w : World}
    {g : Mbuf → Mbuf} {r : Dest × World}
    (h : Readied env dir ctx pkt p (w.modify pkt g) r) :
    Readied env dir ctx pkt p w r := by
  refine ⟨?_, h.tag, h.pair, h.sas, h.type, h.route, h.seq, h.counted,
    h.offload, h.queue⟩
  intro x hx
  refine (h.others x hx).trans ?_
  exact Function.update_of_ne hx _ _

/-- **PREPARATION**: where a packet goes, its SA sends packets. -/
theorem prepareOp_readied (env : Env) (dir : Direction) (ctx : IpsecCtx)
    (pkt : PktId) (p : SaPtr) (w : World) :
    Ends (prepareOp env (enqueueXform dir) ctx pkt p w) (fun _ => True)
      (Readied env dir ctx pkt p w) := by
  generalize htagged : w.modify pkt (setPrivSa p) = tagged
  -- the tag and the status are no part of the account
  have hback : ∀ {r : Dest × World}, Readied env dir ctx pkt p tagged r →
      Readied env dir ctx pkt p w r := by
    intro r hr
    rw [← htagged] at hr
    exact hr.of_modify
  have htag : saOf tagged pkt = some p := by
    rw [← htagged, saOf, modify_mbuf]
    rfl
  generalize hfresh : tagged.modify pkt (fun m => m.setStatus .notProcessed)
    = fresh
  have hback' : ∀ {r : Dest × World}, Readied env dir ctx pkt p fresh r →
      Readied env dir ctx pkt p w r := by
    intro r hr
    rw [← hfresh] at hr
    exact hback hr.of_modify
  have htag' : saOf fresh pkt = some p := by
    rw [← hfresh, saOf, modify_mbuf]
    exact htag
  have hsas : fresh.sa = tagged.sa := by
    rw [← hfresh]
    rfl
  obtain ⟨hrouted, hopened⟩ := openSession_routed env ctx p fresh
  have htag'' : saOf (openSession env ctx p false fresh).2 pkt = some p := by
    rw [saOf, hrouted.mbuf]
    exact htag'
  rw [prepareOp]
  dsimp only
  rw [htagged, hfresh]
  -- dropped, or to the array when inline, or to a queue
  cases htype : (tagged.sa p).primary.type with
  | cpuCrypto =>
      exact ends_ok (hback (dropped_readied dir (Routed.refl env ctx p tagged)
        htag))
  | inlineProtocol =>
      refine ends_ok (hback (untouched_readied dir .offload
        (Routed.refl env ctx p tagged) htag ?_ ?_ (fun h => by cases h)))
      · exact fun _ => not_counted (by simp [htype]) (by simp [htype])
      · exact fun _ => .inr htype
  | inlineCrypto =>
      refine (xform_readied dir .offload
        (Routed.refl env ctx p fresh)
        (f := attachSession (tagged.sa p).primary.ses) htag'
        (fun _ => .inl (by rw [hsas]; exact htype)) (fun h => by cases h)).bind ?_
      intro r hr
      exact ends_pure (hback' hr)
  | none =>
      dsimp only
      have hnot : ¬ IsInline (fresh.sa p) := by
        rw [hsas]
        exact not_isInline (by simp [htype]) (by simp [htype])
      split
      · exact ends_ok (hback' (dropped_readied dir hrouted htag''))
      · rename_i hopen
        refine (xform_readied dir .queue hrouted
          (f := attachSession
            ((openSession env ctx p false fresh).2.sa p).primary.ses) htag''
          (fun h => by cases h)
          (fun _ => ⟨hnot, hopened (by simpa using hopen)⟩)).bind ?_
        intro r hr
        exact ends_pure (hback' hr)
  | lookasideProtocol =>
      dsimp only
      have hnot : ¬ IsInline (fresh.sa p) := by
        rw [hsas]
        exact not_isInline (by simp [htype]) (by simp [htype])
      have hcount : ¬ Counted dir (fresh.sa p) := by
        rw [hsas]
        exact not_counted (by simp [htype]) (by simp [htype])
      split
      · exact ends_ok (hback' (dropped_readied dir hrouted htag''))
      · rename_i hopen
        split
        · exact ends_ok (hback' (dropped_readied dir hrouted htag''))
        · have hqueued := untouched_readied dir .queue hrouted htag''
            (fun _ => hcount) (fun h => by cases h)
            (fun _ => ⟨hnot, hopened (by simpa using hopen)⟩)
          exact ends_ok (hback' (hqueued.modify htag''))

/-! ## A burst -/

theorem mem_waiting {s : State} {p : SaPtr} {x : PktId}
    (h : x ∈ waiting env s p) : InFlight s x := by
  rw [waiting] at h
  split at h
  · exact .inl h
  · exact .inr ⟨_, h⟩

/-- Where a prepared packet may have gone: `joins` is the packet, if it went
    there. -/
structure Enqueued (pkt : PktId) (s : State) (r : Dest × World) (p : SaPtr)
    (s' : State) : Prop where
  cdevMap : s'.1.cdevMap = s.1.cdevMap
  mbuf : s'.2.mbuf = r.2.mbuf
  sa : s'.2.sa = r.2.sa
  room : s'.1.olPkts.length ≤ maxPktBurst
  ol : s'.1.olPkts.Sublist
    (s.1.olPkts ++ if r.1 = .offload then [pkt] else [])
  line : ∀ i, (line s' i).Sublist (line s i
    ++ if r.1 = .queue ∧ i = (r.2.sa p).cdevIdQp.toNat then [pkt] else [])

theorem mem_ite_single {c : Prop} [Decidable c] {x pkt : PktId}
    (h : x ∈ if c then [pkt] else []) : c ∧ x = pkt := by
  split at h
  · rename_i hc
    exact ⟨hc, List.mem_singleton.mp h⟩
  · cases h

section enqueued

variable {s s' : State} {pkt : PktId} {p : SaPtr} {d : Dest} {w : World}

/-- Nothing else has come into the context. -/
theorem Enqueued.inFlight (h : Enqueued pkt s (d, w) p s') {y : PktId}
    (hy : InFlight s' y) : InFlight s y ∨ y = pkt := by
  rcases hy with hy | ⟨i, hy⟩
  · rcases List.mem_append.mp (h.ol.subset hy) with hy | hy
    · exact .inl (.inl hy)
    · exact .inr (mem_ite_single hy).2
  · rcases List.mem_append.mp ((h.line i).subset hy) with hy | hy
    · exact .inl (.inr ⟨i, hy⟩)
    · exact .inr (mem_ite_single hy).2

/-- Types and routes of all SAs are as before. -/
theorem Readied.sas_same (h : Readied env dir s.1 pkt p s.2 (d, w)) (q : SaPtr) :
    (w.sa q).primary.type = (s.2.sa q).primary.type
      ∧ PacketOrder.route env s.1 (w.sa q)
        = PacketOrder.route env s.1 (s.2.sa q) := by
  by_cases hq : q = p
  · rw [hq]
    exact ⟨h.type, h.route⟩
  · rw [h.sas q hq]
    exact ⟨rfl, rfl⟩

theorem isInline_congr {sa sa' : IpsecSa}
    (h : sa'.primary.type = sa.primary.type) : IsInline sa' ↔ IsInline sa := by
  rw [IsInline, IsInline, h]

/-- Packets in flight keep their tags. -/
theorem Enqueued.tag (h : Enqueued pkt s (d, w) p s')
    (hready : Readied env dir s.1 pkt p s.2 (d, w))
    (hfresh : ¬ InFlight s pkt) {x : PktId} (hx : InFlight s x) :
    saOf s'.2 x = saOf s.2 x := by
  have hne : x ≠ pkt := by
    rintro rfl
    exact hfresh hx
  have hmbuf : s'.2.mbuf x = s.2.mbuf x := by
    rw [h.mbuf]
    exact hready.others x hne
  rw [saOf, hmbuf]
  rfl

theorem Enqueued.route (h : Enqueued pkt s (d, w) p s')
    (hready : Readied env dir s.1 pkt p s.2 (d, w)) (q : SaPtr) :
    route env s'.1 (s'.2.sa q) = route env s.1 (s.2.sa q) := by
  have hmap : PacketOrder.route env s'.1 (s'.2.sa q)
      = PacketOrder.route env s.1 (w.sa q) := by
    rw [PacketOrder.route, h.cdevMap, h.sa]
    rfl
  rw [hmap]
  exact (hready.sas_same q).2

theorem Enqueued.isInline (h : Enqueued pkt s (d, w) p s')
    (hready : Readied env dir s.1 pkt p s.2 (d, w)) (q : SaPtr) :
    IsInline (s'.2.sa q) ↔ IsInline (s.2.sa q) := by
  refine isInline_congr ?_
  rw [h.sa]
  exact (hready.sas_same q).1

/-- The new packet waits where packets of its SA wait. -/
theorem Enqueued.filed (h : Enqueued pkt s (d, w) p s')
    (hready : Readied env dir s.1 pkt p s.2 (d, w)) (hf : Filed env s)
    (hfresh : ¬ InFlight s pkt) : Filed env s' := by
  have htag : saOf s'.2 pkt = some p := by
    rw [saOf, h.mbuf]
    exact hready.tag
  refine ⟨h.room, ?_, ?_, ?_⟩
  · refine List.Nodup.sublist h.ol ?_
    split
    · refine List.nodup_append.mpr ⟨hf.nodup, List.nodup_singleton _, ?_⟩
      rintro x hx y hy rfl
      obtain rfl := List.mem_singleton.mp hy
      exact hfresh (.inl hx)
    · rw [List.append_nil]
      exact hf.nodup
  · intro x hx
    rcases List.mem_append.mp (h.ol.subset hx) with hx | hx
    · obtain ⟨q, hq, htype⟩ := hf.inline x hx
      exact ⟨q, (h.tag hready hfresh (.inl hx)).trans hq,
        (h.isInline hready q).mpr htype⟩
    · obtain ⟨hd, rfl⟩ := mem_ite_single hx
      exact ⟨p, htag, (h.isInline hready p).mpr (hready.offload hd)⟩
  · intro i x hx
    rcases List.mem_append.mp ((h.line i).subset hx) with hx | hx
    · obtain ⟨q, hq, htype, hroute⟩ := hf.queued i x hx
      refine ⟨q, (h.tag hready hfresh (.inr ⟨i, hx⟩)).trans hq, ?_, ?_⟩
      · rw [h.isInline hready]
        exact htype
      · rw [h.route hready]
        exact hroute
    · obtain ⟨⟨hd, hi⟩, rfl⟩ := mem_ite_single hx
      obtain ⟨htype, hroute⟩ := hready.queue hd
      refine ⟨p, htag, ?_, ?_⟩
      · rw [h.isInline hready]
        exact htype
      · rw [h.route hready, hroute, hi]

/-- Nothing waits but what has waited and the new packet. -/
theorem Enqueued.waiting (h : Enqueued pkt s (d, w) p s')
    (hready : Readied env dir s.1 pkt p s.2 (d, w)) (q : SaPtr) :
    (waiting env s' q).Sublist
      (waiting env s q ++ if d = .freed then [] else [pkt]) := by
  have hjoin : ∀ {c : Prop} [Decidable c], (c → d ≠ .freed) →
      (if c then [pkt] else []).Sublist (if d = .freed then [] else [pkt]) := by
    intro c _ hc
    split
    · rename_i hyes
      rw [if_neg (hc hyes)]
    · exact List.nil_sublist _
  rw [PacketOrder.waiting, PacketOrder.waiting, h.route hready]
  by_cases hinline : IsInline (s.2.sa q)
  · rw [if_pos hinline, if_pos ((h.isInline hready q).mpr hinline)]
    refine h.ol.trans ((hjoin ?_).append_left _)
    rintro hd hfreed
    cases hd.symm.trans hfreed
  · rw [if_neg hinline, if_neg fun hq => hinline ((h.isInline hready q).mp hq)]
    refine (h.line _).trans ((hjoin ?_).append_left _)
    rintro ⟨hd, -⟩ hfreed
    cases hd.symm.trans hfreed

end enqueued

theorem numbered_waiting {b : Books} {n : UInt64} {pkt : PktId} {p : SaPtr}
    (hfresh : ¬ InFlight b.2 pkt) :
    (own b.2.2 p (waiting env b.2 p)).map
        (fun x => (x, Function.update b.1.number pkt n x))
      = numbered b.1.number b.2.2 p (waiting env b.2 p) := by
  rw [numbered_eq]
  refine List.map_congr_left ?_
  intro x hx
  have hne : x ≠ pkt := by
    rintro rfl
    exact hfresh (mem_waiting (List.mem_of_mem_filter hx))
  rw [Function.update_of_ne hne]

/-- **A NEW PACKET** is the last one in line for its SA. -/
theorem Flow.enqueued {b : Books} {s' : State} {pkt : PktId} {p : SaPtr}
    {fb : Bool} {d : Dest} {w : World} (h : Flow env dir b)
    (hfresh : ¬ InFlight b.2 pkt) (hctx : CtxOk env.lcoreId s')
    (hready : Readied env dir b.2.1 pkt p b.2.2 (d, w))
    (henq : Enqueued pkt b.2 (d, w) p s')
    (hwrap : dir = .egress → (b.2.2.sa p).seq.toNat + 1 < 2 ^ 64) :
    Flow env dir (b.1.pass (pkt, some (p, fb)) s'.2, s') := by
  refine ⟨hctx, henq.filed hready h.filed hfresh, ?_⟩
  intro q
  have hstep : dir = .egress → ((b.2.2.sa p).seq + 1).toNat
      = (b.2.2.sa p).seq.toNat + 1 := by
    intro hd
    rw [UInt64.toNat_add]
    exact Nat.mod_eq_of_lt (hwrap hd)
  have hlater : ∀ r, (b.2.2.sa r).seq ≤ (s'.2.sa r).seq := by
    intro r
    rw [henq.sa]
    show _ ≤ (w.sa r).seq
    by_cases hr : r = p
    · rw [hr]
      rcases hready.seq with hsame | ⟨hd, hnext⟩
      · rw [show (w.sa p).seq = _ from hsame]
        exact UInt64.le_refl _
      · rw [show (w.sa p).seq = _ from hnext, UInt64.le_iff_toNat_le, hstep hd]
        exact Nat.le_succ _
    · rw [hready.sas r hr]
      exact UInt64.le_refl _
  have htype : (s'.2.sa q).primary.type = (b.2.2.sa q).primary.type := by
    rw [henq.sa]
    exact (hready.sas_same q).1
  -- the packets in flight have kept their tags
  have hown : own s'.2 q (waiting env b.2 q) = own b.2.2 q (waiting env b.2 q) :=
    own_congr fun x hx => henq.tag hready hfresh (mem_waiting hx)
  have htag : saOf s'.2 pkt = some p := by
    rw [saOf, henq.mbuf]
    exact hready.tag
  show InLine dir (Function.update b.1.passed p (b.1.passed p ++ [pkt]) q)
    (s'.2.sa q) (b.1.delivered q
      ++ (own s'.2 q (waiting env s' q)).map fun x =>
        (x, Function.update b.1.number pkt (s'.2.sa p).seq x))
  have hsub := own_sublist s'.2 q (henq.waiting hready q)
  rw [own_append, hown] at hsub
  have hmapped := (hsub.map fun x =>
    (x, Function.update b.1.number pkt (s'.2.sa p).seq x)).append_left
      (b.1.delivered q)
  rw [List.map_append, numbered_waiting hfresh, ← List.append_assoc] at hmapped
  refine InLine.sublist ?_ hmapped
  by_cases hq : q = p
  · subst hq
    rw [Function.update_self]
    by_cases hd : d = .freed
    · rw [if_pos hd]
      simp only [own_nil, List.map_nil, List.append_nil]
      exact ((h.order q).later htype (hlater q)).pass pkt
    · have hlast : own s'.2 q [pkt] = [pkt] := by
        refine List.filter_eq_self.mpr ?_
        intro x hx
        rw [List.mem_singleton.mp hx, htag]
        exact decide_eq_true rfl
      rw [if_neg hd, hlast, List.map_singleton, Function.update_self]
      refine (h.order q).snoc htype ?_ pkt
      intro hc
      have hnext : (s'.2.sa q).seq = (b.2.2.sa q).seq + 1 := by
        rw [henq.sa]
        exact hready.counted hd hc
      rw [hnext, UInt64.lt_iff_toNat_lt, hstep hc.1]
      exact Nat.lt_succ_self _
  · -- the line of another SA is as it was
    rw [Function.update_of_ne hq]
    have hnone : own s'.2 q (if d = .freed then [] else [pkt]) = [] := by
      refine own_eq_nil ?_
      intro x hx hxq
      split at hx
      · cases hx
      · rw [List.mem_singleton.mp hx, htag] at hxq
        exact hq (Option.some.inj hxq).symm
    rw [hnone, List.map_nil, List.append_nil]
    exact (h.order q).later htype (hlater q)

/-- **ONE PACKET** of `ipsec_enqueue`. -/
theorem ipsecEnqueueOne_enqueued (env : Env) (dir : Direction) {s : State}
    (h : CtxOk env.lcoreId s) (hroom : s.1.olPkts.length ≤ maxPktBurst)
    (pkt : PktId) (p : SaPtr) (fb : Bool) :
    Ends (ipsecEnqueueOne env (enqueueXform dir) s (pkt, some (p, fb)))
      (fun _ => True) (fun s' => ∃ d w,
        Readied env dir s.1 pkt p s.2 (d, w) ∧ Enqueued pkt s (d, w) p s') := by
  have hprep := (prepareOp_ok env (enqueueXform_keeps dir) pkt p h).and
    (prepareOp_readied env dir s.1 pkt p s.2)
  rw [ipsecEnqueueOne]
  refine Ends.bind (hprep.mono (fun _ _ => trivial) fun _ ha => ha) ?_
  rintro ⟨d, w⟩ ⟨⟨hbeside, hfit, hid⟩, hready⟩
  have hctx : CtxOk env.lcoreId (s.1, w) := h.beside hbeside hfit
  -- preparation moves no line
  have hlines : ∀ i, line (s.1, w) i = line s i := by
    intro i
    rw [line, line, hready.pair]
  cases d with
  | freed =>
      refine ends_pure ⟨.freed, w, hready, rfl, rfl, rfl, hroom, ?_, ?_⟩
      · exact List.sublist_append_left _ _
      · intro i
        have hsame : line (s.1, w.freePkts [pkt]) i = line s i := hlines i
        rw [hsame]
        exact List.sublist_append_left _ _
  | offload =>
      dsimp only
      rw [IpsecCtx.pushOl]
      split
      · exact ends_error trivial
      · rename_i hspace
        refine ends_ok ⟨.offload, w, hready, rfl, rfl, rfl, ?_, ?_, ?_⟩
        · show (s.1.olPkts ++ [pkt]).length ≤ maxPktBurst
          rw [List.length_append]
          exact Nat.lt_of_not_le hspace
        · exact List.Sublist.refl _
        · intro i
          have hsame : line ({ s.1 with olPkts := s.1.olPkts ++ [pkt] }, w) i
              = line s i := hlines i
          rw [hsame]
          exact List.sublist_append_left _ _
  | queue =>
      have hi := hid rfl
      have hused : CtxOk env.lcoreId (s.1, w.useQueue s.1 [pkt] p false) :=
        hctx.beside ⟨rfl, fun _ hp => hp⟩ hfit
      obtain ⟨hok, hshort⟩ := hused.queues _ hi
      have hboth := (enqueueCop_line env pkt (s.1.tbl (w.sa p).cdevIdQp.toNat)
        (w.useQueue s.1 [pkt] p false)).and
          (@enqueueCop_served env pkt _ _ (fun _ => False) hok hshort)
      show Ends (State.onQueue (s.1, w.useQueue s.1 [pkt] p false)
        (w.sa p).cdevIdQp.toNat (enqueueCop env pkt)) _ _
      rw [State.onQueue]
      refine hboth.bind ?_
      rintro r ⟨⟨hline, hmbuf⟩, hserved⟩
      obtain ⟨hself, hother⟩ := line_served hused hi hserved
      refine ends_pure ⟨.queue, w, hready, rfl, hmbuf, hserved.step.sa, hroom,
        List.sublist_append_left _ _, ?_⟩
      intro i
      have hsame : line (s.1, w.useQueue s.1 [pkt] p false) i = line s i :=
        hlines i
      -- only the line of its queue grows, by this packet
      by_cases hq : i = (w.sa p).cdevIdQp.toNat
      · have hold : line (s.1, w.useQueue s.1 [pkt] p false) i
            = ((w.useQueue s.1 [pkt] p false).pair
                (s.1.tbl (w.sa p).cdevIdQp.toNat).toCdevQp).held
              ++ (s.1.tbl (w.sa p).cdevIdQp.toNat).buf := by
          rw [hq, line, if_pos hi]
        rw [if_pos ⟨rfl, hq⟩, ← hsame, hold]
        have hnew := hself
        rw [← hq] at hnew hline
        rw [hq] at hline
        refine List.Sublist.trans ?_ hline
        rw [← hself, ← hq]
      · have hnew := hother i hq
        rw [if_neg fun hc => hq hc.2, List.append_nil, ← hsame, ← hnew]

/-- The invariant within a burst, with so many packets to come. -/
structure Passing (env : Env) (dir : Direction)
    (todo : List (PktId × Option SaRef)) (b : Books) : Prop where
  flow : Flow env dir b
  nodup : (todo.map Prod.fst).Nodup
  fresh : ∀ x ∈ todo.map Prod.fst, ¬ InFlight b.2 x
  wraps : dir = .egress →
    ∀ p, (b.2.2.sa p).seq.toNat + todo.length < 2 ^ 64

/-- **ONE PACKET** keeps the invariant. -/
theorem passOne_passing {b : Books} {x : PktId × Option SaRef}
    {todo : List (PktId × Option SaRef)} (h : Passing env dir (x :: todo) b) :
    Ends (passOne env dir b x) (fun _ => True) (Passing env dir todo) := by
  obtain ⟨hflow, hnodup, hfresh, hwraps⟩ := h
  rw [List.map_cons, List.nodup_cons] at hnodup
  obtain ⟨hx, hnodup⟩ := hnodup
  have hrest : ∀ y ∈ todo.map Prod.fst, ¬ InFlight b.2 y := fun y hy =>
    hfresh y (List.mem_cons_of_mem _ hy)
  have hless : dir = .egress →
      ∀ p, (b.2.2.sa p).seq.toNat + todo.length < 2 ^ 64 := by
    intro hd p
    exact Nat.lt_trans (Nat.lt_succ_self _) (hwraps hd p)
  obtain ⟨pkt, ref⟩ := x
  rw [passOne]
  cases ref with
  | none =>
      refine ends_pure ⟨⟨?_, ?_, hflow.order⟩, hnodup, hrest, hless⟩
      · exact hflow.ctx.beside (freePkts_beside _ _) hflow.ctx.sessions
      · exact ⟨hflow.filed.room, hflow.filed.nodup, hflow.filed.inline,
          hflow.filed.queued⟩
  | some ref =>
      obtain ⟨p, fb⟩ := ref
      have hstart : Enqueuing env.lcoreId False [(pkt, some (p, fb))] b.2 :=
        ⟨hflow.ctx, False.elim⟩
      have hboth := (ipsecEnqueueOne_enqueued env dir hflow.ctx
        hflow.filed.room pkt p fb).and
          (ipsecEnqueueOne_ok env (enqueueXform_keeps dir) hstart)
      refine hboth.bind ?_
      rintro s' ⟨⟨d, w, hready, henq⟩, hctx, -⟩
      have hfresh := hfresh pkt (List.mem_cons_self ..)
      refine ends_pure ⟨hflow.enqueued hfresh hctx hready henq ?_, hnodup, ?_, ?_⟩
      · intro hd
        have := hwraps hd p
        rw [List.length_cons] at this
        omega
      · intro y hy hin
        rcases henq.inFlight hin with hin | rfl
        · exact hrest y hy hin
        · exact hx hy
      · -- a packet counts once
        intro hd q
        have hq := hwraps hd q
        rw [List.length_cons] at hq
        show (s'.2.sa q).seq.toNat + todo.length < 2 ^ 64
        rw [henq.sa]
        show (w.sa q).seq.toNat + todo.length < 2 ^ 64
        by_cases hqp : q = p
        · rw [hqp] at hq ⊢
          rcases hready.seq with hsame | ⟨-, hnext⟩
          · rw [show (w.sa p).seq = _ from hsame]
            omega
          · rw [show (w.sa p).seq = _ from hnext, UInt64.toNat_add]
            have hle := Nat.mod_le ((b.2.2.sa p).seq.toNat + (1 : UInt64).toNat)
              (2 ^ 64)
            have hone : (1 : UInt64).toNat = 1 := rfl
            omega
        · rw [hready.sas q hqp]
          omega

/-- **A BURST** keeps the invariant. -/
theorem enqueue_flow {b : Books} {burst : List (PktId × Option SaRef)}
    (h : Flow env dir b) (hproper : Proper env b.2 (.enqueue burst))
    (hclear : Clear dir b.2 (.enqueue burst)) :
    Ends (call env dir b (.enqueue burst)) (fun _ => True) (Flow env dir) := by
  have hstart : Passing env dir burst b := ⟨h, hproper.1, hproper.2, hclear⟩
  refine (ends_foldlM hstart fun x todo b' hb =>
    passOne_passing hb).mono (fun _ ha => ha) ?_
  intro b' hb
  exact hb.flow

/-! ## Runs -/

/-- Elsewhere nothing happens to the packets in flight. -/
theorem Flow.elsewhere {b : Books} {w : World} (h : Flow env dir b)
    (hw : Meanwhile env b.2 w) : Flow env dir (b.1, b.2.1, w) := by
  -- no other lcore touches these queues
  have hlines : ∀ i, line (b.2.1, w) i = line b.2 i := by
    intro i
    rw [line, line]
    by_cases hi : i < b.2.1.nbQps
    · rw [if_pos hi, if_pos hi]
      show (w.pair _).held ++ _ = _
      rw [hw.pair i hi]
    · rw [if_neg hi, if_neg hi]
  have hsame : ∀ q, IsInline (w.sa q) ↔ IsInline (b.2.2.sa q) := fun q =>
    isInline_congr (hw.type q)
  refine ⟨h.ctx.elsewhere hw.toElsewhere, ⟨h.filed.room, h.filed.nodup, ?_, ?_⟩,
    ?_⟩
  · intro x hx
    obtain ⟨p, htag, htype⟩ := h.filed.inline x hx
    exact ⟨p, (hw.packets x (.inl hx)).trans htag, (hsame p).mpr htype⟩
  · intro i x hx
    rw [hlines] at hx
    obtain ⟨p, htag, htype, hroute⟩ := h.filed.queued i x hx
    have hin : InFlight b.2 x := .inr ⟨i, hx⟩
    refine ⟨p, (hw.packets x hin).trans htag, fun hp => htype ((hsame p).mp hp),
      ?_⟩
    exact (hw.queue x p hin htag).trans hroute
  · intro p
    show InLine dir (b.1.passed p) (w.sa p) (b.1.delivered p
      ++ (own w p (waiting env (b.2.1, w) p)).map _)
    -- what waits for an SA waits where it did
    have hown : own w p (waiting env (b.2.1, w) p)
        = own b.2.2 p (waiting env b.2 p) := by
      have hkept : ∀ l, (∀ x ∈ l, InFlight b.2 x) →
          own w p l = own b.2.2 p l := fun l hl =>
        own_congr fun x hx => hw.packets x (hl x hx)
      rw [waiting, waiting]
      by_cases hinline : IsInline (b.2.2.sa p)
      · rw [if_pos hinline, if_pos ((hsame p).mpr hinline)]
        exact hkept _ fun x hx => .inl hx
      · rw [if_neg hinline, if_neg fun hp => hinline ((hsame p).mp hp)]
        rw [hlines, hkept _ fun x hx => .inr ⟨_, hx⟩]
        by_cases hroute : route env b.2.1 (w.sa p)
            = route env b.2.1 (b.2.2.sa p)
        · rw [hroute]
        · -- an SA whose queue has changed has no packet in flight
          have hnone : ∀ i, own b.2.2 p (line b.2 i) = [] := fun i =>
            own_eq_nil fun x hx htag => hroute (hw.queue x p (.inr ⟨i, hx⟩) htag)
          exact (hnone _).trans (hnone _).symm
    rw [hown]
    exact (h.order p).later (hw.type p) (hw.seq p)

/-- **ONE CALL** keeps the invariant. -/
theorem call_flow (hkeep : KeepsSa env) {b : Books} (h : Flow env dir b)
    {c : Call} (hproper : Proper env b.2 c) (hclear : Clear dir b.2 c) :
    Ends (call env dir b c) (fun _ => True) (Flow env dir) := by
  cases c with
  | enqueue burst => exact enqueue_flow h hproper hclear
  | inlineDequeue => exact inlineDequeue_flow h hclear
  | dequeue maxPkts =>
      have hdone := ipsecDequeue_dequeued dir hkeep maxPkts [] h.ctx h.filed
        (Nat.le_refl _)
      refine hdone.bind ?_
      rintro ⟨out, s'⟩ ⟨rs, hrs, hdeq⟩
      obtain rfl : out = rs := hrs
      exact ends_pure (h.deliver hdeq.ctx hdeq.calm hdeq.own)
  | drain =>
      exact ends_ok (h.calm (drainCryptoBuffers_ok env h.ctx).1
        (drainCryptoBuffers_calm h.ctx))
  | elsewhere w => exact ends_ok (h.elsewhere hproper)

/-- **ALL CALLS** keep it. -/
theorem reaches_flow (hkeep : KeepsSa env) {b b' : Books}
    (h : Flow env dir b) (hreach : Relation.ReflTransGen (Step env dir) b b') :
    Flow env dir b' := by
  induction hreach with
  | refl => exact h
  | tail _ hstep ih =>
      obtain ⟨c, hproper, hclear, hcall⟩ := hstep
      exact (call_flow hkeep ih hproper hclear).of_ok hcall

theorem Flow.inOrder {b : Books} (h : Flow env dir b) : InOrder dir b := by
  intro p
  have hp := (h.order p).sublist (List.sublist_append_left _ _)
  exact ⟨hp.order, hp.rising⟩

/-- A context behind `cryptodevs_init`, with nothing passed in yet. -/
def start (t : QueueTables) (lcore : UInt8) (dir : Direction) (w : World) :
    Books :=
  ({}, IpsecCtx.ofTables t lcore dir, w)

theorem line_start (t : QueueTables) (lcore : UInt8) (dir : Direction)
    {w : World} (hw : Untouched w) (i : Nat) :
    line (start t lcore dir w).2 i = [] := by
  show (if _ then (w.pair _).held ++ [] else []) = []
  rw [hw.pair]
  exact ite_self _

theorem inFlight_start (t : QueueTables) (lcore : UInt8) (dir : Direction)
    {w : World} (hw : Untouched w) (x : PktId) :
    ¬ InFlight (start t lcore dir w).2 x := by
  rintro (hx | ⟨i, hx⟩)
  · cases hx
  · rw [line_start t lcore dir hw] at hx
    cases hx

/-- **THE START**: nothing waits. -/
theorem start_flow {conf : CdevConf} {req : Nat} {ps : List LcoreParams}
    {devs : List CryptodevInfo} {init : InitState}
    (hinit : cryptodevsInit conf req ps devs = some init) {w : World}
    (hw : Untouched w) : Flow env dir (start init.tables env.lcoreId dir w) := by
  have hnone := inFlight_start init.tables env.lcoreId dir hw
  refine ⟨(ofTables_resting hinit env.lcoreId dir hw True).1,
    ⟨Nat.zero_le _, List.nodup_nil, ?_, ?_⟩, ?_⟩
  · intro x hx
    cases hx
  · intro i x hx
    exact absurd (.inr ⟨i, hx⟩) (hnone x)
  · intro p
    have hwait : waiting env (start init.tables env.lcoreId dir w).2 p = [] :=
      List.eq_nil_iff_forall_not_mem.mpr fun x hx => hnone x (mem_waiting hx)
    rw [hwait]
    exact InLine.nil

/-- **PACKET ORDER** holds in every run in which `ol_pkts` is sparse whenever it
    is emptied, and no counter wraps. -/
theorem inOrder_of_sparse {conf : CdevConf} {req : Nat} {ps : List LcoreParams}
    {devs : List CryptodevInfo} {init : InitState}
    (hinit : cryptodevsInit conf req ps devs = some init) {w : World}
    (hw : Untouched w) (hkeep : KeepsSa env) {b : Books}
    (hreach : Relation.ReflTransGen (Step env dir)
      (start init.tables env.lcoreId dir w) b) : InOrder dir b :=
  (reaches_flow hkeep (start_flow hinit hw) hreach).inOrder

/-- A world where all SAs belong to an inline device. -/
def inlineWorld : World where
  mbuf := fun _ => EspSequence.barePacket
  sa := fun _ =>
    { EspSequence.freshSa with primary := { type := .inlineCrypto } }

theorem inlineWorld_untouched : Untouched inlineWorld := by
  refine ⟨fun _ => rfl, ?_⟩
  rintro p (h | h)
  · cases h
  · cases h

/-- The context of a lcore of `Cdev.twoTables` in that world. -/
def inlineStart : Books := start Cdev.twoTables.tables 1 .egress inlineWorld

/-- **BACKWARDS**: two packets of one SA leave in the opposite order, the second
    sequence number first. -/
theorem popped_backwards :
    let burst := [(0, some (0, false)), (1, some (0, false))]
    burst.length ≤ maxPktBurst
      ∧ Proper (laxEnv 1) inlineStart.2 (.enqueue burst)
      ∧ ∃ b b', call (laxEnv 1) .egress inlineStart (.enqueue burst) = .ok b
        ∧ call (laxEnv 1) .egress b .inlineDequeue = .ok b'
        ∧ b'.1.passed 0 = [0, 1]
        ∧ b'.1.delivered 0 = [(1, 2), (0, 1)]
        ∧ ¬ InOrder .egress b' := by
  intro burst
  refine ⟨by decide, ⟨by decide, fun x _ =>
    inFlight_start _ _ _ inlineWorld_untouched x⟩, ?_⟩
  obtain ⟨b, b', hb, hb', hpassed, hdelivered⟩ : ∃ b b',
      call (laxEnv 1) .egress inlineStart (.enqueue burst) = .ok b
        ∧ call (laxEnv 1) .egress b .inlineDequeue = .ok b'
        ∧ b'.1.passed 0 = [0, 1]
        ∧ b'.1.delivered 0 = [(1, 2), (0, 1)] :=
    ⟨_, _, rfl, rfl, rfl, rfl⟩
  refine ⟨b, b', hb, hb', hpassed, hdelivered, ?_⟩
  intro horder
  have hsub := (horder 0).1
  rw [hpassed, hdelivered] at hsub
  revert hsub
  decide

/-- One packet for each of two SAs. -/
theorem inOrder_of_sparse_two : ∃ b : Books, b.1.delivered 0 = [(0, 1)]
    ∧ b.1.delivered 1 = [(1, 1)] ∧ InOrder .egress b := by
  obtain ⟨b, hb, hol, htag0, htag1, b', hb', hdel0, hdel1⟩ : ∃ b,
      call (laxEnv 1) .egress inlineStart
          (.enqueue [(0, some (0, false)), (1, some (1, false))]) = .ok b
        ∧ b.2.1.olPkts = [0, 1] ∧ saOf b.2.2 0 = some 0
        ∧ saOf b.2.2 1 = some 1
        ∧ ∃ b', call (laxEnv 1) .egress b .inlineDequeue = .ok b'
          ∧ b'.1.delivered 0 = [(0, 1)] ∧ b'.1.delivered 1 = [(1, 1)] :=
    ⟨_, rfl, rfl, rfl, rfl, _, rfl, rfl, rfl⟩
  have hfirst : Step (laxEnv 1) .egress inlineStart b := by
    refine ⟨.enqueue [(0, some (0, false)), (1, some (1, false))],
      ⟨by decide, fun x _ => ?_⟩, fun _ p => ?_, hb⟩
    · exact inFlight_start _ _ _ inlineWorld_untouched x
    · show (0 : UInt64).toNat + 2 < 2 ^ 64
      decide
  have hsecond : Step (laxEnv 1) .egress b b' := by
    refine ⟨.inlineDequeue, trivial, ?_, hb'⟩
    intro x hx y hy _ _ hsame
    rw [hol] at hx hy
    simp only [List.mem_cons, List.not_mem_nil, or_false] at hx hy
    rcases hx with rfl | rfl
    · rcases hy with rfl | rfl
      · rfl
      · rw [htag0, htag1] at hsame
        cases hsame
    · rcases hy with rfl | rfl
      · rw [htag0, htag1] at hsame
        cases hsame
      · rfl
  exact ⟨b', hdel0, hdel1, inOrder_of_sparse Cdev.cryptodevsInit_twoTables
    inlineWorld_untouched (fun _ _ _ => rfl)
    ((Relation.ReflTransGen.single hfirst).tail hsecond)⟩

end PacketOrder
