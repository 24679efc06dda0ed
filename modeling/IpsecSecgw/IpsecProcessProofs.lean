import IpsecSecgw.CryptoQueueProofs
import IpsecSecgw.IpsecProofs

/-! # Every packet ends in one place

    `ipsec_process` takes a burst apart into groups and sends each packet to one
    of four places.  `PlacedBy` is the account of a call: a list of the packets
    with their places, and what it makes of the queues, the traffic and the
    freed packets.  Accounts of groups add up, so the one of a burst is that of
    its groups, one after the other. -/

namespace IpsecProcess

open SaModel MbufModel CdevModel IpsecModel Outcome Ipsec

/-! ## Places -/

/-- Where a packet ends: freed by `ipsec_process`, handed to the crypto queue
    with a number, or among the traffic of one family. -/
inductive Place
  | freed
  | queue (i : Nat)
  | ip4
  | ip6
  deriving DecidableEq

/-- Packets with their SA pointers and their places. -/
abbrev Placement := List ((PktId × Option SaRef) × Place)

/-- The packets in certain places. -/
def picked (f : Place → Bool) (places : Placement) : List PktId :=
  (places.filter fun x => f x.2).map fun x => x.1.1

@[simp] theorem picked_append (f : Place → Bool) (a b : Placement) :
    picked f (a ++ b) = picked f a ++ picked f b := by
  rw [picked, List.filter_append, List.map_append]
  rfl

/-- Packets that all went to one place. -/
theorem picked_const (f : Place → Bool) (pl : Place) (id : Option SaRef)
    (l : List PktId) :
    picked f (l.map fun p => ((p, id), pl)) = if f pl then l else [] := by
  induction l with
  | nil =>
      split
      · rfl
      · rfl
  | cons p l ih =>
      rw [picked] at ih ⊢
      rw [List.map_cons, List.filter_cons]
      dsimp only
      split
      · rename_i hf
        rw [if_pos hf] at ih
        rw [List.map_cons, ih]
      · rename_i hf
        rw [if_neg hf] at ih
        exact ih

/-- The place is the queue pair with this key. -/
def isQueue (ctx : IpsecCtx) (k : CdevQp) : Place → Bool
  | .queue i => (ctx.tbl i).toCdevQp = k
  | _ => false

/-- The traffic of one family. -/
def satpPlace (t : Satp) : Place :=
  if t.inbound then if t.ipv4 then .ip4 else .ip6
  else if satpOutIpv4 t then .ip4 else .ip6

/-- **APPENDING**: `copy_to_trf` adds packets behind those of one family. -/
theorem copyToTrf_eq (trf : Traffic) (satp : Satp) (pkts : List PktId) :
    copyToTrf trf satp pkts
      = ⟨trf.ip4 ++ if satpPlace satp = .ip4 then pkts else [],
        trf.ip6 ++ if satpPlace satp = .ip6 then pkts else []⟩ := by
  have h46 : (Place.ip4 = Place.ip6) = False := by decide
  have h64 : (Place.ip6 = Place.ip4) = False := by decide
  rw [copyToTrf, satpPlace]
  cases satp.inbound with
  | true =>
      cases satp.ipv4 with
      | true => simp [h46]
      | false => simp [h64]
  | false =>
      cases satpOutIpv4 satp with
      | true => simp [h46]
      | false => simp [h64]

/-! ## The account of a call -/

/-- The number of a queue is the SA's own: the one it had before, or the one
    this lcore's hash has for it, which creating a session writes. -/
def OwnQueue (env : Env) (s : State) (p : SaPtr) (idx : UInt32) : Prop :=
  idx = (s.2.sa p).cdevIdQp
    ∨ ∃ j, s.1.cdevMap (sessionKey env (s.2.sa p)) = some j
      ∧ idx = UInt32.ofNat j

/-- The session of a packet cannot be opened: when the groups in front of its own are
    done it has no object, and `fill_ipsec_session` fails. -/
def Closed (env : Env) (t : Traffic × State) (burst : List (PktId × Option SaRef))
    (x : PktId × Option SaRef) : Prop :=
  ∃ p fb front g behind t1, x.2 = some (p, fb) ∧ saGroup burst = front ++ g :: behind
    ∧ x ∈ g.members ∧ front.foldlM (processOne env) t = .ok t1
    ∧ (session (t1.2.2.sa p) fb).ses = none
    ∧ (fillIpsecSession env t1.2.1 p fb t1.2.2).1 ≠ 0

/-- What became of the packets of a burst; the sessions of packets in `closed` could
    not be opened. -/
structure PlacedBy (env : Env) (closed : PktId × Option SaRef → Prop)
    (burst : List (PktId × Option SaRef)) (t t' : Traffic × State) (places : Placement) :
    Prop where
  /-- each packet has one place -/
  all : (places.map Prod.fst).Perm burst
  noSa : ∀ x ∈ places, x.1.2 = none → x.2 = .freed
  /-- the traffic grows behind what was there -/
  ip4 : t'.1.ip4 = t.1.ip4 ++ picked (· = .ip4) places
  ip6 : t'.1.ip6 = t.1.ip6 ++ picked (· = .ip6) places
  submitted : ∀ k, (t'.2.2.pair k).submitted
    = (t.2.2.pair k).submitted ++ picked (isQueue t.2.1 k) places
  /-- apart from those, only operations a device refused are freed -/
  freed : ∃ refused, t'.2.2.freed.Perm
      (t.2.2.freed ++ picked (· = .freed) places ++ refused)
    ∧ ∀ p ∈ refused, ∃ k, (p, false) ∈ (t'.2.2.pair k).offered
  queue : ∀ x ∈ places, ∀ i, x.2 = .queue i → ∃ p fb idx,
    x.1.2 = some (p, fb) ∧ OwnQueue env t.2 p idx ∧ i = idx.toNat
  /-- packets are given to the sessions their pointers name, to no others; one that
      is given and freed has not been accepted -/
  handled : ∃ calls, t'.2.2.handled = t.2.2.handled ++ calls
    ∧ (∀ c ∈ calls, ∀ p ∈ c.1, (p, some c.2) ∈ burst)
    ∧ ∀ x ∈ places, ∀ ref, x.1.2 = some ref → x.2 = .freed ∧ closed x.1
      ∨ (∃ c ∈ calls, x.1.1 ∈ c.1 ∧ c.2 = ref)
        ∧ (x.2 = .freed → ∃ c ∈ calls, Refused env c x.1.1 ∧ c.2 = ref)
  /-- what the next group relies on -/
  sa : ∀ p, sessionKey env (t'.2.2.sa p) = sessionKey env (t.2.2.sa p)
    ∧ OwnQueue env t.2 p (t'.2.2.sa p).cdevIdQp
  ctx : CtxCall t.2.1 t'.2.1
  offered : ∀ k, (t.2.2.pair k).offered ⊆ (t'.2.2.pair k).offered

theorem isQueue_congr {ctx ctx' : IpsecCtx} (h : CtxCall ctx ctx') (k : CdevQp) :
    isQueue ctx' k = isQueue ctx k := by
  funext pl
  cases pl with
  | queue i =>
      show decide ((ctx'.tbl i).toCdevQp = k) = decide ((ctx.tbl i).toCdevQp = k)
      rw [h.keys i]
  | freed => rfl
  | ip4 => rfl
  | ip6 => rfl

/-- A queue that is an SA's own later is its own now. -/
theorem OwnQueue.before {env : Env} {s s' : State} {p : SaPtr} {idx : UInt32}
    (h : OwnQueue env s' p idx) (hctx : CtxCall s.1 s'.1)
    (hsa : sessionKey env (s'.2.sa p) = sessionKey env (s.2.sa p)
      ∧ OwnQueue env s p (s'.2.sa p).cdevIdQp) : OwnQueue env s p idx := by
  rcases h with rfl | ⟨j, hmap, hidx⟩
  · exact hsa.2
  · rw [hsa.1, hctx.cdevMap] at hmap
    exact .inr ⟨j, hmap, hidx⟩

variable {closed : PktId × Option SaRef → Prop}

/-- **NOTHING DONE**. -/
theorem PlacedBy.refl (env : Env) (t : Traffic × State) :
    PlacedBy env closed [] t t [] := by
  refine ⟨List.Perm.refl _, ?_, (List.append_nil _).symm, (List.append_nil _).symm,
    fun _ => (List.append_nil _).symm, ⟨[], ?_, ?_⟩, ?_,
    ⟨[], (List.append_nil _).symm, ?_, ?_⟩, fun p => ⟨rfl, .inl rfl⟩,
    CtxCall.refl _, fun _ _ h => h⟩
  · intro x hx
    cases hx
  · rw [List.append_nil]
    exact List.Perm.of_eq (List.append_nil _).symm
  · intro p hp
    cases hp
  · intro x hx
    cases hx
  · intro c hc
    cases hc
  · intro x hx
    cases hx

/-- **ACCOUNTS ADD UP**. -/
theorem PlacedBy.trans {env : Env} {burst burst' : List (PktId × Option SaRef)}
    {t t' t'' : Traffic × State} {places places' : Placement}
    (h : PlacedBy env closed burst t t' places)
    (h' : PlacedBy env closed burst' t' t'' places') :
    PlacedBy env closed (burst ++ burst') t t'' (places ++ places') := by
  refine ⟨?_, ?_, ?_, ?_, ?_, ?_, ?_, ?_, ?_, h.ctx.trans h'.ctx,
    fun k x hx => h'.offered k (h.offered k hx)⟩
  · rw [List.map_append]
    exact h.all.append h'.all
  · intro x hx hnone
    rcases List.mem_append.mp hx with hx | hx
    · exact h.noSa x hx hnone
    · exact h'.noSa x hx hnone
  · rw [h'.ip4, h.ip4, picked_append, List.append_assoc]
  · rw [h'.ip6, h.ip6, picked_append, List.append_assoc]
  · intro k
    rw [h'.submitted, h.submitted, picked_append, isQueue_congr h.ctx,
      List.append_assoc]
  · obtain ⟨l, hl, hmem⟩ := h.freed
    obtain ⟨l', hl', hmem'⟩ := h'.freed
    refine ⟨l ++ l', ?_, ?_⟩
    · refine hl'.trans ?_
      refine ((hl.append_right _).append_right _).trans ?_
      rw [picked_append]
      -- the refused operations of the first call move behind
      generalize picked (· = .freed) places = a
      generalize picked (· = .freed) places' = b
      have hswap : (l ++ b).Perm (b ++ l) := List.perm_append_comm
      have := ((hswap.append_right l').append_left (t.2.2.freed ++ a))
      simp only [List.append_assoc] at this ⊢
      exact this
    · intro p hp
      rcases List.mem_append.mp hp with hp | hp
      · obtain ⟨k, hk⟩ := hmem p hp
        exact ⟨k, h'.offered k hk⟩
      · exact hmem' p hp
  · intro x hx i hi
    rcases List.mem_append.mp hx with hx | hx
    · exact h.queue x hx i hi
    · obtain ⟨p, fb, idx, hid, hown, hnum⟩ := h'.queue x hx i hi
      exact ⟨p, fb, idx, hid, hown.before h.ctx (h.sa p), hnum⟩
  · obtain ⟨calls, hcalls, hin, hplaced⟩ := h.handled
    obtain ⟨calls', hcalls', hin', hplaced'⟩ := h'.handled
    refine ⟨calls ++ calls', by rw [hcalls', hcalls, List.append_assoc], ?_, ?_⟩
    · intro c hc p hp
      rcases List.mem_append.mp hc with hc | hc
      · exact List.mem_append_left _ (hin c hc p hp)
      · exact List.mem_append_right _ (hin' c hc p hp)
    · intro x hx ref href
      rcases List.mem_append.mp hx with hx | hx
      · rcases hplaced x hx ref href with hx | ⟨⟨c, hc, hx⟩, hfreed⟩
        · exact .inl hx
        · refine .inr ⟨⟨c, List.mem_append_left _ hc, hx⟩, fun hpl => ?_⟩
          obtain ⟨c, hc, hx⟩ := hfreed hpl
          exact ⟨c, List.mem_append_left _ hc, hx⟩
      · rcases hplaced' x hx ref href with hx | ⟨⟨c, hc, hx⟩, hfreed⟩
        · exact .inl hx
        · refine .inr ⟨⟨c, List.mem_append_right _ hc, hx⟩, fun hpl => ?_⟩
          obtain ⟨c, hc, hx⟩ := hfreed hpl
          exact ⟨c, List.mem_append_right _ hc, hx⟩
  · intro p
    exact ⟨(h'.sa p).1.trans (h.sa p).1,
      (h'.sa p).2.before h.ctx (h.sa p)⟩

/-! ## One group -/

/-- The places of the packets of a group: the accepted ones, in front, go to one
    place, and the others are freed. -/
def groupPlaces (g : IpsecGroup) (res : GroupResult) (pl : Place) : Placement :=
  (res.1.take res.2).map (fun p => ((p, g.id), pl))
    ++ (res.1.drop res.2).map (fun p => ((p, g.id), .freed))

theorem picked_groupPlaces (f : Place → Bool) (g : IpsecGroup)
    (res : GroupResult) (pl : Place) :
    picked f (groupPlaces g res pl)
      = (if f pl then res.1.take res.2 else [])
        ++ if f .freed then res.1.drop res.2 else [] := by
  rw [groupPlaces, picked_append, picked_const, picked_const]

theorem groupPlaces_perm {g : IpsecGroup} {res : GroupResult}
    (h : Sorted g.pkts res) (pl : Place) :
    ((groupPlaces g res pl).map Prod.fst).Perm g.members := by
  rw [groupPlaces, List.map_append, List.map_map, List.map_map]
  show ((res.1.take res.2).map (fun p => (p, g.id))
    ++ (res.1.drop res.2).map (fun p => (p, g.id))).Perm _
  rw [← List.map_append, List.take_append_drop]
  exact h.1.map _

theorem mem_groupPlaces {g : IpsecGroup} {res : GroupResult}
    (h : Sorted g.pkts res) {pl : Place} {x : (PktId × Option SaRef) × Place}
    (hx : x ∈ groupPlaces g res pl) :
    x.1.2 = g.id ∧ x.1.1 ∈ g.pkts
      ∧ (x.2 = .freed ∧ x.1.1 ∈ res.1.drop res.2
        ∨ x.2 = pl ∧ x.1.1 ∈ res.1.take res.2) := by
  rcases List.mem_append.mp hx with hx | hx
  · obtain ⟨p, hp, rfl⟩ := List.mem_map.mp hx
    exact ⟨rfl, h.1.mem_iff.mp (List.mem_of_mem_take hp), .inr ⟨rfl, hp⟩⟩
  · obtain ⟨p, hp, rfl⟩ := List.mem_map.mp hx
    exact ⟨rfl, h.1.mem_iff.mp (List.mem_of_mem_drop hp), .inl ⟨rfl, hp⟩⟩

/-- A group all of whose packets are freed. -/
theorem placed_freed {env : Env} {g : IpsecGroup} {trf : Traffic} {s : State}
    {w : World} (hpair : w.pair = s.2.pair) (hfreed : w.freed = s.2.freed)
    (hhandled : w.handled = s.2.handled)
    (hsa : ∀ p, sessionKey env (w.sa p) = sessionKey env (s.2.sa p)
      ∧ OwnQueue env s p (w.sa p).cdevIdQp)
    (hclosed : ∀ x ∈ g.members, ∀ ref, g.id = some ref → closed x) :
    PlacedBy env closed g.members (trf, s) (trf, s.1, w.freePkts g.pkts)
      (groupPlaces g (g.pkts, 0) .freed) := by
  have hsorted : Sorted g.pkts (g.pkts, 0) := ⟨List.Perm.refl _, Nat.zero_le _⟩
  -- a group that is freed has no accepted part
  have hplace : ∀ x ∈ groupPlaces g (g.pkts, 0) .freed, x.2 = .freed := by
    intro x hx
    obtain ⟨-, -, ⟨h, -⟩ | ⟨h, -⟩⟩ := mem_groupPlaces hsorted hx
    · exact h
    · exact h
  have hnone : ∀ f : Place → Bool, f .freed = false →
      picked f (groupPlaces g (g.pkts, 0) .freed) = [] := by
    intro f hf
    rw [picked_groupPlaces, hf]
    rfl
  refine ⟨groupPlaces_perm hsorted _, fun x hx _ => hplace x hx, ?_, ?_, ?_,
    ⟨[], ?_, ?_⟩, ?_, ⟨[], ?_, ?_, ?_⟩, hsa, CtxCall.refl _, ?_⟩
  · rw [hnone _ rfl, List.append_nil]
  · rw [hnone _ rfl, List.append_nil]
  · intro k
    rw [hnone _ rfl, List.append_nil]
    show (w.pair k).submitted = _
    rw [hpair]
  · rw [List.append_nil, picked_groupPlaces]
    show (w.freed ++ g.pkts).Perm (s.2.freed ++ ([] ++ g.pkts))
    rw [hfreed]
    exact List.Perm.refl _
  · intro p hp
    cases hp
  · intro x hx i hi
    rw [hplace x hx] at hi
    cases hi
  · rw [List.append_nil]
    exact hhandled
  · intro c hc
    cases hc
  · intro x hx ref href
    obtain ⟨hid, -⟩ := mem_groupPlaces hsorted hx
    have hin : x.1 ∈ g.members :=
      (groupPlaces_perm hsorted _).mem_iff.mp (List.mem_map_of_mem hx)
    exact .inl ⟨hplace x hx, hclosed x.1 hin ref (hid ▸ href)⟩
  · intro k
    show _ ⊆ (w.pair k).offered
    rw [hpair]
    exact fun _ h => h

/-- Creating a session leaves every SA its own queue. -/
theorem created_owns {env : Env} {s : State} {p : SaPtr} {fb : Bool}
    {r : Int × World} (h : Created env s.1 p fb s.2 r) (q : SaPtr) :
    sessionKey env (r.2.sa q) = sessionKey env (s.2.sa q)
      ∧ OwnQueue env s q (r.2.sa q).cdevIdQp := by
  by_cases hq : q = p
  · rw [hq]
    exact ⟨h.key, h.index⟩
  · rw [h.others q hq]
    exact ⟨rfl, .inl rfl⟩

/-- An open session: what was there before is still there. -/
theorem sessionOpen_frame {env : Env} {s : State} {p : SaPtr} {fb : Bool}
    {w : World} (h : SessionOpen env s.1 p fb s.2 w) :
    w.pair = s.2.pair ∧ w.freed = s.2.freed ∧ w.handled = s.2.handled
      ∧ ∀ q, sessionKey env (w.sa q) = sessionKey env (s.2.sa q)
        ∧ OwnQueue env s q (w.sa q).cdevIdQp := by
  rcases h with ⟨-, rfl⟩ | ⟨-, hc⟩
  · exact ⟨rfl, rfl, rfl, fun _ => ⟨rfl, .inl rfl⟩⟩
  · exact ⟨hc.pair, hc.freed, hc.handled, created_owns hc⟩

/-- The packets of a group given to a session, in the account of the group. -/
theorem handed_places {env : Env} {g : IpsecGroup} {ref : SaRef} {w w' : World}
    {res : GroupResult} (hid : g.id = some ref)
    (h : Handed env ref g.pkts (res.1.drop res.2) w w') (hres : Sorted g.pkts res)
    {pl : Place} (hpl : pl ≠ .freed) :
    ∃ calls, w'.handled = w.handled ++ calls
      ∧ (∀ c ∈ calls, ∀ p ∈ c.1, (p, some c.2) ∈ g.members)
      ∧ ∀ x ∈ groupPlaces g res pl, ∀ ref, x.1.2 = some ref → x.2 = .freed ∧ closed x.1
        ∨ (∃ c ∈ calls, x.1.1 ∈ c.1 ∧ c.2 = ref)
          ∧ (x.2 = .freed → ∃ c ∈ calls, Refused env c x.1.1 ∧ c.2 = ref) := by
  obtain ⟨calls, hcalls, hmem, hall, hleft⟩ := h.handled
  refine ⟨calls, hcalls, ?_, ?_⟩
  · intro c hc p hp
    obtain ⟨href, hsub⟩ := hall c hc
    rw [href, ← hid]
    exact List.mem_map_of_mem (hsub hp)
  · intro x hx ref' href
    obtain ⟨hxid, hpkt, hplace⟩ := mem_groupPlaces hres hx
    obtain rfl : ref = ref' := Option.some.inj (hid.symm.trans (hxid.symm.trans href))
    refine .inr ⟨⟨(g.pkts, ref), hmem, hpkt, rfl⟩, fun hfreed => ?_⟩
    rcases hplace with ⟨-, hx⟩ | ⟨hx, -⟩
    · obtain ⟨c, hc, hrefused⟩ := hleft x.1.1 hx
      exact ⟨c, hc, hrefused, (hall c hc).1⟩
    · exact absurd (hx.symm.trans hfreed) hpl

theorem groupPlaces_sa {g : IpsecGroup} {ref : SaRef} (hid : g.id = some ref)
    {res : GroupResult} (hres : Sorted g.pkts res) (pl : Place) :
    ∀ x ∈ groupPlaces g res pl, x.1.2 = none → x.2 = .freed := by
  intro x hx hnone
  obtain ⟨hxid, -⟩ := mem_groupPlaces hres hx
  rw [hxid, hid] at hnone
  cases hnone

/-- The group goes to the queue of its SA. -/
theorem placed_queue {env : Env} {g : IpsecGroup} {trf : Traffic} {s : State}
    {p : SaPtr} {fb : Bool} {w w' : World} {res : GroupResult}
    {r : CdevQueue × World} (hid : g.id = some (p, fb))
    (hopen : SessionOpen env s.1 p fb s.2 w)
    (hhanded : Handed env (p, fb) g.pkts (res.1.drop res.2) w w')
    (hres : Sorted g.pkts res)
    (hcall : QueueCall (s.1.tbl (w.sa p).cdevIdQp.toNat)
      (w'.useQueue s.1 (res.1.take res.2) p fb) (res.1.take res.2) r) :
    PlacedBy env closed g.members (trf, s)
      (trf, s.1.setQueue (w.sa p).cdevIdQp.toNat r.1,
        r.2.freePkts (res.1.drop res.2))
      (groupPlaces g res (.queue (w.sa p).cdevIdQp.toNat)) := by
  obtain ⟨hpair, hfreed, hhandled, hsa⟩ := sessionOpen_frame hopen
  have hpair' : w'.pair = s.2.pair := hhanded.pair.trans hpair
  refine ⟨groupPlaces_perm hres _, groupPlaces_sa hid hres _, ?_, ?_, ?_, ?_, ?_, ?_,
    ?_, hcall.ctxCall, ?_⟩
  · rw [picked_groupPlaces]
    exact (List.append_nil _).symm
  · rw [picked_groupPlaces]
    exact (List.append_nil _).symm
  · intro k
    rw [picked_groupPlaces]
    show (r.2.pair k).submitted = _
    rw [hcall.submitted]
    show (w'.pair k).submitted ++ _ = _
    rw [hpair']
    show _ = _ ++ ((if decide ((s.1.tbl _).toCdevQp = k) then _ else []) ++ [])
    rw [List.append_nil]
    -- only the pair of this queue gets the operations
    by_cases hk : k = (s.1.tbl (w.sa p).cdevIdQp.toNat).toCdevQp
    · rw [if_pos hk, if_pos (decide_eq_true hk.symm)]
    · rw [if_neg hk, if_neg]
      intro h
      exact hk (of_decide_eq_true h).symm
  · obtain ⟨l, hl, hmem⟩ := hcall.freed
    have hl : r.2.freed = w'.freed ++ l := hl
    refine ⟨l, ?_, hmem⟩
    rw [picked_groupPlaces]
    show (r.2.freed ++ res.1.drop res.2).Perm
      (s.2.freed ++ ([] ++ res.1.drop res.2) ++ l)
    rw [hl, hhanded.freed, hfreed, List.nil_append, List.append_assoc,
      List.append_assoc]
    exact List.perm_append_comm.append_left _
  · intro x hx i hi
    obtain ⟨hxid, -, ⟨h, -⟩ | ⟨h, -⟩⟩ := mem_groupPlaces hres hx
    · rw [h] at hi
      cases hi
    · rw [h] at hi
      obtain rfl := Place.queue.inj hi
      exact ⟨p, fb, (w.sa p).cdevIdQp, hxid.trans hid, (hsa p).2, rfl⟩
  · -- queueing calls no session
    have hlog : r.2.handled = w'.handled := hcall.aside.handled
    show ∃ calls, r.2.handled = s.2.handled ++ calls ∧ _
    rw [hlog, ← hhandled]
    exact handed_places hid hhanded hres (fun h => by cases h)
  · intro q
    show sessionKey env (r.2.sa q) = _ ∧ OwnQueue env s q (r.2.sa q).cdevIdQp
    rw [show r.2.sa = w'.sa from hcall.aside.sa, hhanded.sa]
    exact hsa q
  · intro k
    have hsub := hcall.offered k
    have hsub : (w'.pair k).offered ⊆ (r.2.pair k).offered := hsub
    rw [hpair'] at hsub
    exact hsub

/-- The group is through with the crypto. -/
theorem placed_through {env : Env} {g : IpsecGroup} {trf trf' : Traffic}
    {s : State} {p : SaPtr} {fb : Bool} {w w' : World} {res : GroupResult}
    (hid : g.id = some (p, fb)) (hopen : SessionOpen env s.1 p fb s.2 w)
    (hhanded : Handed env (p, fb) g.pkts (res.1.drop res.2) w w')
    (hres : Sorted g.pkts res)
    (htrf : trf' = copyToTrf trf (env.saType p fb) (res.1.take res.2)
      ∨ trf' = trf ∧ res.2 = 0) :
    PlacedBy env closed g.members (trf, s)
      (trf', s.1, w'.freePkts (res.1.drop res.2))
      (groupPlaces g res (satpPlace (env.saType p fb))) := by
  obtain ⟨hpair, hfreed, hhandled, hsa⟩ := sessionOpen_frame hopen
  have hpair' : w'.pair = s.2.pair := hhanded.pair.trans hpair
  -- by the address family behind the transformation
  have hplace : satpPlace (env.saType p fb) = .ip4
      ∨ satpPlace (env.saType p fb) = .ip6 := by
    rw [satpPlace]
    split
    · split
      · exact .inl rfl
      · exact .inr rfl
    · split
      · exact .inl rfl
      · exact .inr rfl
  generalize hpl : satpPlace (env.saType p fb) = pl at hplace
  -- the accepted part joins one list; the other stays
  have htraffic : trf'.ip4 = trf.ip4 ++ (if pl = .ip4 then res.1.take res.2 else [])
      ∧ trf'.ip6 = trf.ip6 ++ (if pl = .ip6 then res.1.take res.2 else []) := by
    rcases htrf with rfl | ⟨rfl, hzero⟩
    · rw [copyToTrf_eq, hpl]
      exact ⟨rfl, rfl⟩
    · rw [hzero, List.take_zero, ite_self, ite_self, List.append_nil,
        List.append_nil]
      exact ⟨rfl, rfl⟩
  have hqueue : ∀ k, isQueue s.1 k pl = false := by
    intro k
    rcases hplace with rfl | rfl
    · rfl
    · rfl
  have hne : pl ≠ .freed := by
    rcases hplace with rfl | rfl
    · exact fun h => by cases h
    · exact fun h => by cases h
  have hfree : (decide (pl = .freed) : Bool) = false := decide_eq_false hne
  refine ⟨groupPlaces_perm hres _, groupPlaces_sa hid hres _, ?_, ?_, ?_,
    ⟨[], ?_, ?_⟩, ?_, ?_, ?_, CtxCall.refl _, ?_⟩
  · rw [picked_groupPlaces]
    refine htraffic.1.trans ?_
    show _ = _ ++ ((if decide (pl = .ip4) then _ else []) ++ [])
    rw [List.append_nil]
    simp only [decide_eq_true_eq]
  · rw [picked_groupPlaces]
    refine htraffic.2.trans ?_
    show _ = _ ++ ((if decide (pl = .ip6) then _ else []) ++ [])
    rw [List.append_nil]
    simp only [decide_eq_true_eq]
  · intro k
    rw [picked_groupPlaces, hqueue]
    show (w'.pair k).submitted = _ ++ ([] ++ [])
    rw [hpair', List.append_nil, List.append_nil]
  · rw [picked_groupPlaces, hfree, List.append_nil]
    show (w'.freed ++ res.1.drop res.2).Perm
      (s.2.freed ++ ([] ++ res.1.drop res.2))
    rw [hhanded.freed, hfreed]
    exact List.Perm.refl _
  · intro q hq
    cases hq
  · intro x hx i hi
    obtain ⟨-, -, ⟨h, -⟩ | ⟨h, -⟩⟩ := mem_groupPlaces hres hx
    · rw [h] at hi
      cases hi
    · rw [h] at hi
      rcases hplace with rfl | rfl
      · cases hi
      · cases hi
  · show ∃ calls, w'.handled = s.2.handled ++ calls ∧ _
    rw [← hhandled]
    exact handed_places hid hhanded hres hne
  · intro q
    show sessionKey env (w'.sa q) = _ ∧ OwnQueue env s q (w'.sa q).cdevIdQp
    rw [hhanded.sa]
    exact hsa q
  · intro k
    show _ ⊆ (w'.pair k).offered
    rw [hpair']
    exact fun _ h => h

/-- **ONE GROUP** of `ipsec_process` has an account. -/
theorem processOne_placed (env : Env) (g : IpsecGroup) {t : Traffic × State}
    {E : Fault → Prop} (hshort : ∀ i, (t.2.1.tbl i).buf.length < maxPktBurst)
    (hclosed : ∀ p fb, g.id = some (p, fb) → (session (t.2.2.sa p) fb).ses = none →
      (fillIpsecSession env t.2.1 p fb t.2.2).1 ≠ 0 → ∀ x ∈ g.members, closed x) :
    Ends (processOne env t g) E
      (fun t' => ∃ places, PlacedBy env closed g.members t t' places) := by
  refine (processGroup_step env g t.1 hshort).bind ?_
  rintro ⟨res, trf, s⟩ hr
  refine ends_pure ?_
  cases hr with
  | noSa hid =>
      refine ⟨_, placed_freed rfl rfl rfl (fun _ => ⟨rfl, .inl rfl⟩) ?_⟩
      intro x _ ref href
      rw [hid] at href
      cases href
  | noSession hid hses hc hfill =>
      exact ⟨_, placed_freed hc.pair hc.freed hc.handled (created_owns hc)
        fun x hx _ _ => hclosed _ _ hid hses hfill x hx⟩
  | queue hid hopen htype hhanded hres hcall =>
      exact ⟨_, placed_queue hid hopen hhanded hres hcall⟩
  | through hid hopen hhanded hres htrf =>
      exact ⟨_, placed_through hid hopen hhanded hres htrf⟩

/-- The loop over groups, with those still to come. -/
def Accounted (env : Env) (burst : List (PktId × Option SaRef))
    (t : Traffic × State) (todo : List IpsecGroup) (t' : Traffic × State) :
    Prop :=
  ∃ done places, done ++ todo = saGroup burst
    ∧ done.foldlM (processOne env) t = .ok t'
    ∧ PlacedBy env (Closed env t burst) (done.flatMap IpsecGroup.members) t t' places

/-- **ALL GROUPS**: there is no fault, and the account is that of the burst. -/
theorem ipsecProcess_placed (env : Env) (burst : List (PktId × Option SaRef))
    (trf : Traffic) {s : State} {E : Fault → Prop}
    (hshort : ∀ i, (s.1.tbl i).buf.length < maxPktBurst) :
    Ends (ipsecProcess env burst trf s) E (fun t' =>
      ∃ places, PlacedBy env (Closed env (trf, s) burst) burst (trf, s) t' places) := by
  have hstart : Accounted env burst (trf, s) (saGroup burst) (trf, s) :=
    ⟨[], [], rfl, rfl, PlacedBy.refl env (trf, s)⟩
  refine (ends_foldlM hstart ?_).mono (fun _ he => he) ?_
  · rintro g gs t ⟨done, places, hdone, hrun, hplaced⟩
    have hclosed : ∀ p fb, g.id = some (p, fb) → (session (t.2.2.sa p) fb).ses = none →
        (fillIpsecSession env t.2.1 p fb t.2.2).1 ≠ 0 →
        ∀ x ∈ g.members, Closed env (trf, s) burst x := by
      intro p fb hid hses hfill x hx
      refine ⟨p, fb, done, g, gs, t, ?_, hdone.symm, hx, hrun, hses, hfill⟩
      obtain ⟨y, -, rfl⟩ := List.mem_map.mp hx
      exact hid
    refine (processOne_placed env g (hplaced.ctx.short hshort) hclosed).with_run.mono
      (fun _ he => he) ?_
    rintro t' ⟨hone, places', hplaced'⟩
    refine ⟨done ++ [g], places ++ places', ?_, ?_, ?_⟩
    · rw [List.append_assoc]
      exact hdone
    · -- the run goes on with this group
      rw [List.foldlM_append, hrun]
      show [g].foldlM (processOne env) t = _
      rw [List.foldlM_cons, hone]
      rfl
    · rw [List.flatMap_append, List.flatMap_singleton]
      exact hplaced.trans hplaced'
  · rintro t' ⟨done, places, hdone, -, hplaced⟩
    rw [List.append_nil] at hdone
    rw [hdone, saGroup_members] at hplaced
    exact ⟨places, hplaced⟩

/-- **EVERY PACKET ENDS IN ONE PLACE**: `ipsec_process` on any burst and any
    state of the sessions, with buffers as every call leaves them. -/
theorem ipsecProcess_places (env : Env) (burst : List (PktId × Option SaRef))
    (trf : Traffic) (s : State)
    (hshort : ∀ i, (s.1.tbl i).buf.length < maxPktBurst) :
    ∃ trf' s' places, ipsecProcess env burst trf s = .ok (trf', s')
      ∧ PlacedBy env (Closed env (trf, s) burst) burst (trf, s) (trf', s') places := by
  obtain ⟨⟨trf', s'⟩, hok, places, hplaced⟩ :=
    CryptoQueue.exists_ok (ipsecProcess_placed env burst trf hshort)
  exact ⟨trf', s', places, hok, hplaced⟩

/-- A packet with no SA, one for a new session, one marked for fallback. -/
theorem ipsecProcess_places_three :
    let burst : List (PktId × Option SaRef) :=
      [(0, none), (1, some (5, false)), (2, some (5, true))]
    ∃ trf' s' places,
      ipsecProcess (CryptoQueue.laxEnv 1) burst { ip4 := [7] } CryptoQueue.twoStart
          = .ok (trf', s')
      ∧ PlacedBy (CryptoQueue.laxEnv 1)
        (Closed (CryptoQueue.laxEnv 1) ({ ip4 := [7] }, CryptoQueue.twoStart) burst) burst
        ({ ip4 := [7] }, CryptoQueue.twoStart) (trf', s') places :=
  ipsecProcess_places (CryptoQueue.laxEnv 1) _ _ CryptoQueue.twoStart
    (fun _ => show 0 < maxPktBurst by decide)

end IpsecProcess
