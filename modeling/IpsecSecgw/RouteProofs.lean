import IpsecSecgw.RouteModel

/-! # Every packet is routed by its own destination

    `ownRoute` says what becomes of one packet, from its own destination, its own
    flags and its own SA as they are when the burst comes in.  The two passes
    over the burst do that for one packet after the other (`routePkts_eq`):
    sending a packet touches the packets in the transmit tables only, so the
    passes agree on who needs a lookup, and the running index of the second one
    is that of the packet's own result.

    The bulk lookup is a parameter, `BulkLookup`. -/

namespace Route

open MbufModel IpsecModel WorkerModel Compact Outcome RouteModel
open SecgwModel hiding getHopForOffloadPkt route4Pkts route6Pkts

/-! ## What becomes of a packet -/

variable {α : Type}

/-- The route of a packet in the world the burst comes into. -/
def ownRoute (fam : Family α) (lookup : α → Option UInt32) (tx : TxConf) (w : World)
    (s : Lcore) (m : PktId) : Except Fault Lcore :=
  if needsLookup (w.mbuf m) then
    match lookup (fam.dst (w.mbuf m)) with
    | none => .ok (fam.drop m s)
    | some hop => sendSinglePacket tx m (hop.toNat % 0x100) s
  else
    match (w.mbuf m).priv.sa with
    | none => .ok (fam.drop m s)
    | some p => sendSinglePacket tx m (w.sa p).portid.toNat s

/-- A burst behind the crypto processing: it fits into the arrays, its packets
    are distinct and wait in no transmit table, fragments are cut into mbufs that
    are not those of packets still to come, and the SAs of offloaded packets have
    ports of the NIC, as `check_eth_dev_caps` has made sure. -/
structure Routable (tx : TxConf) (pkts : List PktId) (s : Lcore) : Prop where
  fits : pkts.length ≤ hopDim
  nodup : pkts.Nodup
  tables : ∀ m ∈ pkts, ∀ port, m ∉ s.txMbufs port
  fragments : ∀ done m rest, pkts = done ++ m :: rest →
    ∀ w n frags, tx.fragment w m n = some frags → ∀ x ∈ frags, x ∉ rest
  ports : ∀ m ∈ pkts, needsLookup (s.world.mbuf m) = false →
    ∀ p, (s.world.mbuf m).priv.sa = some p →
      (s.world.sa p).portid.toNat < maxEthports

/-- The bulk lookups give for each address the result of a single one: the
    next hop below the bit of success, or a word without it; the next hop, or
    `-1`. -/
structure BulkLookup (rt : RouteTable) where
  bulk4 : List UInt32 → List UInt32
  bulk6 : List (List UInt8) → List UInt32
  word4 : UInt32 → UInt32
  word6 : List UInt8 → UInt32
  bulk4_eq : ∀ l, bulk4 l = l.map word4
  bulk6_eq : ∀ l, bulk6 l = l.map word6
  hit4 : ∀ a h, rt.rt4 a = some h →
    word4 a &&& rteLpmLookupSuccess ≠ 0 ∧ word4 a &&& 0xffffff = h
  miss4 : ∀ a, rt.rt4 a = none → word4 a &&& rteLpmLookupSuccess = 0
  hit6 : ∀ a h, rt.rt6 a = some h → word6 a = h ∧ h ≠ minusOne
  miss6 : ∀ a, rt.rt6 a = none → word6 a = minusOne

/-! ## Packets still to come -/

/-- The packets still to come are as they were, and so are the SAs. -/
structure Waiting (w : World) (rest : List PktId) (s : Lcore) : Prop where
  mbuf : ∀ x ∈ rest, s.world.mbuf x = w.mbuf x
  sa : s.world.sa = w.sa
  tables : ∀ x ∈ rest, ∀ port, x ∉ s.txMbufs port

/-- A step keeps packets waiting. -/
def KeepsWaiting (w : World) (rest : List PktId) (x : Except Fault Lcore) : Prop :=
  Ends x (fun _ => True) (Waiting w rest)

variable {w : World} {rest : List PktId}

theorem Waiting.free {s : Lcore} (h : Waiting w rest s) (pkts : List PktId) :
    Waiting w rest { s with world := s.world.freePkts pkts } :=
  ⟨h.mbuf, h.sa, h.tables⟩

/-- Other packets join a table. -/
theorem Waiting.setTx {s : Lcore} (h : Waiting w rest s) (port : Nat)
    (tbl : List PktId) (htbl : ∀ x ∈ tbl, x ∉ rest) :
    Waiting w rest (s.setTx port tbl) := by
  refine ⟨h.mbuf, h.sa, ?_⟩
  intro x hx port' hmem
  have hmem : x ∈ Function.update s.txMbufs port tbl port' := hmem
  by_cases hp : port' = port
  · rw [hp, Function.update_self] at hmem
    exact htbl x hmem hx
  · rw [Function.update_of_ne hp] at hmem
    exact h.tables x hx port' hmem

/-- The packets of a table get their Ethernet header. -/
theorem prepareTx_waiting (tx : TxConf) (port : Nat) {tbl : List PktId}
    (htbl : ∀ x ∈ tbl, x ∉ rest) (w' : World) (hsa : w'.sa = w.sa)
    (hmbuf : ∀ x ∈ rest, w'.mbuf x = w.mbuf x) :
    Ends (tbl.foldlM (prepareTxOne tx port) w') (fun _ => True)
      (fun t => t.sa = w.sa ∧ ∀ x ∈ rest, t.mbuf x = w.mbuf x) := by
  induction tbl generalizing w' with
  | nil => exact ends_pure ⟨hsa, hmbuf⟩
  | cons m tbl ih =>
      rw [List.foldlM_cons, prepareTxOne]
      cases prepareTxPkt tx port (w'.mbuf m) with
      | none => trivial
      | some m' =>
          refine ih (fun x hx => htbl x (List.mem_cons_of_mem m hx))
            (w'.modify m fun _ => m') hsa ?_
          intro x hx
          refine (Function.update_of_ne ?_ _ _).trans (hmbuf x hx)
          rintro rfl
          exact htbl x List.mem_cons_self hx

theorem flushTx_waiting (tx : TxConf) (port : Nat) {s : Lcore}
    (h : Waiting w rest s) : KeepsWaiting w rest (flushTx tx port s) := by
  have htbl : ∀ x ∈ s.txMbufs port, x ∉ rest := by
    intro x hx hrest
    exact h.tables x hrest port hx
  refine Ends.bind (P := Waiting w rest) ?_ ?_
  · refine (prepareTx_waiting tx port htbl s.world h.sa h.mbuf).bind ?_
    rintro t ⟨hsa, hmbuf⟩
    exact ends_pure ⟨hmbuf, hsa, h.tables⟩
  · intro t ht
    exact ends_pure (ht.setTx port [] fun x hx => absurd hx List.not_mem_nil)

theorem sendFragmentPacket_waiting (tx : TxConf) {m : PktId} (port : Nat) {s : Lcore}
    (hfrags : ∀ w n frags, tx.fragment w m n = some frags → ∀ x ∈ frags, x ∉ rest)
    (h : Waiting w rest s) :
    KeepsWaiting w rest (sendFragmentPacket tx m port s) := by
  have hcut : ∀ t, Waiting w rest t → Waiting w rest
      { t.setTx port (t.txMbufs port ++ (tx.fragment t.world m
          (maxPktBurst - (t.txMbufs port).length)).getD []) with
        world := t.world.freePkts [m]
        fragmented := t.fragmented ++ [m] } := by
    intro t ht
    have hset := ht.setTx port (t.txMbufs port ++ (tx.fragment t.world m
        (maxPktBurst - (t.txMbufs port).length)).getD []) (by
      intro x hx hrest
      rcases List.mem_append.mp hx with hx | hx
      · exact ht.tables x hrest port hx
      · cases hf : tx.fragment t.world m (maxPktBurst - (t.txMbufs port).length) with
        | none =>
            rw [hf] at hx
            cases hx
        | some frags =>
            rw [hf] at hx
            exact hfrags _ _ _ hf x hx hrest)
    exact ⟨hset.mbuf, hset.sa, hset.tables⟩
  rw [sendFragmentPacket]
  split
  · refine (flushTx_waiting tx port h).bind ?_
    intro t ht
    exact ends_pure (hcut t ht)
  · refine Ends.bind (P := Waiting w rest) (ends_pure h) ?_
    intro t ht
    exact ends_pure (hcut t ht)

/-- **SENDING** leaves the packets still to come alone. -/
theorem sendSinglePacket_waiting (tx : TxConf) {m : PktId} (port : Nat) {s : Lcore}
    (hm : m ∉ rest)
    (hfrags : ∀ w n frags, tx.fragment w m n = some frags → ∀ x ∈ frags, x ∉ rest)
    (h : Waiting w rest s) :
    KeepsWaiting w rest (sendSinglePacket tx m port s) := by
  have hfull : ∀ t, Waiting w rest t → KeepsWaiting w rest
      (if (t.txMbufs port).length = maxPktBurst then flushTx tx port t else pure t) := by
    intro t ht
    split
    · exact flushTx_waiting tx port ht
    · exact ends_pure ht
  rw [sendSinglePacket]
  split
  · trivial
  dsimp only
  split
  · refine Ends.bind (P := Waiting w rest) (ends_pure (h.setTx port _ ?_)) hfull
    intro x hx hrest
    rcases List.mem_append.mp hx with hx | hx
    · exact h.tables x hrest port hx
    · rw [List.mem_singleton.mp hx] at hrest
      exact hm hrest
  split
  · exact (sendFragmentPacket_waiting tx port hfrags h).bind hfull
  · exact Ends.bind (P := Waiting w rest) (ends_pure (h.free [m])) hfull

/-! ## Hops -/

/-- `pkt_hop & 0xff`. -/
theorem toNat_and_ff (x : UInt32) : (x &&& 0xff).toNat = x.toNat % 0x100 := by
  rw [UInt32.toNat_and]
  exact Nat.and_two_pow_sub_one_eq_mod x.toNat 8

/-- The low bits of a next hop are below the bit of success. -/
theorem toNat_and_ffffff (x : UInt32) :
    (x &&& 0xffffff).toNat % 0x100 = x.toNat % 0x100 := by
  rw [UInt32.toNat_and]
  show (x.toNat &&& 2 ^ 24 - 1) % 2 ^ 8 = _
  rw [Nat.and_two_pow_sub_one_eq_mod]
  omega

/-- The bit `get_hop_for_offload_pkt` sets is the one the test reads. -/
theorem offload_found (x : UInt32) :
    (x ||| rteLpmLookupSuccess) &&& rteLpmLookupSuccess = rteLpmLookupSuccess := by
  apply UInt32.toBitVec_inj.mp
  ext i
  simp only [UInt32.toBitVec_and, UInt32.toBitVec_or, BitVec.getElem_and,
    BitVec.getElem_or]
  cases x.toBitVec[i] <;> simp

/-- And it is not one of the port. -/
theorem offload_port (x : UInt32) :
    (x ||| rteLpmLookupSuccess).toNat % 0x100 = x.toNat % 0x100 := by
  rw [UInt32.toNat_or]
  show (x.toNat ||| 2 ^ 24) % 2 ^ 8 = _
  rw [Nat.or_mod_two_pow]
  simp

/-- How a family reads `pkt_hop`: from a lookup, and from an SA. -/
structure Reads (fam : Family α) (lookup : α → Option UInt32) (word : α → UInt32) :
    Prop where
  hit : ∀ a h, lookup a = some h → fam.missed (word a) = false
    ∧ (word a &&& 0xff).toNat = h.toNat % 0x100
  miss : ∀ a, lookup a = none → fam.missed (word a) = true
  offload : ∀ (w : World) m p, (w.mbuf m).priv.sa = some p →
    (w.sa p).portid.toNat < maxEthports →
    fam.missed (getHopForOffloadPkt w m fam.isIpv6) = false
      ∧ (getHopForOffloadPkt w m fam.isIpv6 &&& 0xff).toNat = (w.sa p).portid.toNat
  none : ∀ (w : World) m, (w.mbuf m).priv.sa = none →
    fam.missed (getHopForOffloadPkt w m fam.isIpv6) = true

/-- The number of a port. -/
theorem toNat_port {port : UInt16} (h : port.toNat < maxEthports) :
    port.toUInt32.toNat = port.toNat ∧ port.toNat % 0x100 = port.toNat := by
  have hmax : maxEthports = 32 := rfl
  exact ⟨UInt16.toNat_toUInt32 port, Nat.mod_eq_of_lt (by omega)⟩

theorem ipv4_reads {rt : RouteTable} (bulk : BulkLookup rt) :
    Reads ipv4 rt.rt4 bulk.word4 where
  hit := by
    intro a h ha
    obtain ⟨hfound, hhop⟩ := bulk.hit4 a h ha
    constructor
    · exact beq_eq_false_iff_ne.mpr hfound
    · rw [toNat_and_ff, ← hhop, toNat_and_ffffff]
  miss := by
    intro a ha
    exact beq_iff_eq.mpr (bulk.miss4 a ha)
  offload := by
    intro w m p hp hport
    obtain ⟨hwide, hlow⟩ := toNat_port hport
    have hhop : getHopForOffloadPkt w m false
        = (w.sa p).portid.toUInt32 ||| rteLpmLookupSuccess := by
      rw [getHopForOffloadPkt, hp]
      rfl
    constructor
    · show (getHopForOffloadPkt w m false &&& rteLpmLookupSuccess == 0) = false
      rw [hhop, offload_found]
      rfl
    · show (getHopForOffloadPkt w m false &&& 0xff).toNat = _
      rw [hhop, toNat_and_ff, offload_port, hwide, hlow]
  none := by
    intro w m hsa
    have hhop : getHopForOffloadPkt w m false = 0 := by
      rw [getHopForOffloadPkt, hsa]
      rfl
    show (getHopForOffloadPkt w m false &&& rteLpmLookupSuccess == 0) = true
    rw [hhop]
    decide

theorem ipv6_reads {rt : RouteTable} (bulk : BulkLookup rt) :
    Reads ipv6 rt.rt6 bulk.word6 where
  hit := by
    intro a h ha
    obtain ⟨hhop, hfound⟩ := bulk.hit6 a h ha
    rw [hhop, toNat_and_ff]
    exact ⟨beq_eq_false_iff_ne.mpr hfound, rfl⟩
  miss := by
    intro a ha
    exact beq_iff_eq.mpr (bulk.miss6 a ha)
  offload := by
    intro w m p hp hport
    obtain ⟨hwide, hlow⟩ := toNat_port hport
    have hhop : getHopForOffloadPkt w m true = (w.sa p).portid.toUInt32 := by
      rw [getHopForOffloadPkt, hp]
      rfl
    constructor
    · show (getHopForOffloadPkt w m true == minusOne) = false
      rw [hhop, beq_eq_false_iff_ne]
      intro h
      have hmax : maxEthports = 32 := rfl
      have hall : minusOne.toNat = 0xffffffff := rfl
      rw [← h, hwide] at hall
      omega
    · show (getHopForOffloadPkt w m true &&& 0xff).toNat = _
      rw [hhop, toNat_and_ff, hwide, hlow]
  none := by
    intro w m hsa
    show (getHopForOffloadPkt w m true == minusOne) = true
    rw [getHopForOffloadPkt, hsa]
    rfl

/-! ## The two passes -/

/-- What is known of the packets still to come. -/
structure Coming (tx : TxConf) (w : World) (l : List PktId) (s : Lcore) : Prop where
  waiting : Waiting w l s
  nodup : l.Nodup
  fragments : ∀ done m rest, l = done ++ m :: rest →
    ∀ w n frags, tx.fragment w m n = some frags → ∀ x ∈ frags, x ∉ rest
  ports : ∀ m ∈ l, needsLookup (w.mbuf m) = false →
    ∀ p, (w.mbuf m).priv.sa = some p → (w.sa p).portid.toNat < maxEthports

theorem Waiting.tail {m : PktId} {s : Lcore} (h : Waiting w (m :: rest) s) :
    Waiting w rest s :=
  ⟨fun x hx => h.mbuf x (List.mem_cons_of_mem m hx), h.sa,
    fun x hx => h.tables x (List.mem_cons_of_mem m hx)⟩

/-- **ONE PACKET** in the second pass has its own route. -/
theorem sendOne_own {fam : Family α} {lookup : α → Option UInt32} {word : α → UInt32}
    (hreads : Reads fam lookup word) {tx : TxConf} {m : PktId} {s : Lcore}
    (h : Coming tx w (m :: rest) s) :
    fam.sendOne tx (if needsLookup (w.mbuf m) then some (word (fam.dst (w.mbuf m)))
      else none) m s = ownRoute fam lookup tx w s m := by
  have hm : m ∈ m :: rest := List.mem_cons_self
  have hmbuf := h.waiting.mbuf m hm
  rw [Family.sendOne, ownRoute]
  by_cases hlook : needsLookup (w.mbuf m) = true
  · rw [if_pos hlook, if_pos hlook]
    dsimp only [Option.getD_some]
    cases ha : lookup (fam.dst (w.mbuf m)) with
    | none => rw [if_pos (hreads.miss _ ha)]
    | some hop =>
        obtain ⟨hfound, hhop⟩ := hreads.hit _ _ ha
        rw [if_neg (by rw [hfound]; exact Bool.false_ne_true), hhop]
  · rw [if_neg hlook, if_neg hlook]
    dsimp only [Option.getD_none]
    have hlook := Bool.eq_false_iff.mpr hlook
    cases hsa : (w.mbuf m).priv.sa with
    | none =>
        rw [if_pos (hreads.none s.world m (by rw [hmbuf, hsa]))]
    | some p =>
        have hport := h.ports m hm hlook p hsa
        rw [← h.waiting.sa] at hport
        obtain ⟨hfound, hhop⟩ := hreads.offload s.world m p (by rw [hmbuf, hsa]) hport
        rw [if_neg (by rw [hfound]; exact Bool.false_ne_true), hhop, h.waiting.sa]

/-- It leaves the packets behind it as they were. -/
theorem ownRoute_coming {fam : Family α} (hmiss : ∀ s, (fam.miss s).world = s.world
      ∧ (fam.miss s).txMbufs = s.txMbufs) (lookup : α → Option UInt32) {tx : TxConf}
    {m : PktId} {s : Lcore} (h : Coming tx w (m :: rest) s) :
    Ends (ownRoute fam lookup tx w s m) (fun _ => True) (Coming tx w rest) := by
  obtain ⟨hm, hnodup⟩ := List.nodup_cons.mp h.nodup
  have hwait := h.waiting.tail
  have hrest : ∀ t, Waiting w rest t → Coming tx w rest t := by
    intro t ht
    refine ⟨ht, hnodup, ?_, fun x hx => h.ports x (List.mem_cons_of_mem m hx)⟩
    intro done x rest' hl
    exact h.fragments (m :: done) x rest' (by rw [hl, List.cons_append])
  have hdrop : Waiting w rest (fam.drop m s) := by
    obtain ⟨hworld, htx⟩ := hmiss s
    refine ⟨?_, ?_, ?_⟩
    · intro x hx
      show (fam.miss s).world.mbuf x = _
      rw [hworld]
      exact hwait.mbuf x hx
    · show (fam.miss s).world.sa = _
      rw [hworld]
      exact hwait.sa
    · intro x hx port
      show x ∉ (fam.miss s).txMbufs port
      rw [htx]
      exact hwait.tables x hx port
  have hsend : ∀ port, Ends (sendSinglePacket tx m port s) (fun _ => True)
      (Coming tx w rest) := by
    intro port
    exact (sendSinglePacket_waiting tx port hm (h.fragments [] m rest rfl) hwait).mono
      (fun _ h => h) hrest
  rw [ownRoute]
  split
  · cases lookup (fam.dst (w.mbuf m)) with
    | none => exact ends_ok (hrest _ hdrop)
    | some hop => exact hsend _
  · cases (w.mbuf m).priv.sa with
    | none => exact ends_ok (hrest _ hdrop)
    | some p => exact hsend _

/-- **TWO PASSES ARE ONE**: the packets of a burst take their own routes, one after
    the other. -/
theorem routePkts_eq {fam : Family α} (hmiss : ∀ s, (fam.miss s).world = s.world
      ∧ (fam.miss s).txMbufs = s.txMbufs) {lookup : α → Option UInt32}
    {word : α → UInt32} (hreads : Reads fam lookup word)
    {lookupBulk : List α → List UInt32} (hbulk : ∀ l, lookupBulk l = l.map word)
    {tx : TxConf} {pkts : List PktId} {s : Lcore} (h : Routable tx pkts s) :
    fam.routePkts tx lookupBulk pkts s
      = pkts.foldlM (ownRoute fam lookup tx s.world) s := by
  have hdim : hopDim = 64 := rfl
  have hfits := h.fits
  have htake : pkts.take (pkts.length % 0x100) = pkts := by
    rw [Nat.mod_eq_of_lt (by omega), List.take_length]
  rw [Family.routePkts, htake]
  by_cases hnil : pkts = []
  · rw [if_pos hnil, hnil]
    rfl
  rw [if_neg hnil, gather_eq _ _ _ hfits]
  have hcoming : Coming tx s.world pkts s :=
    ⟨⟨fun _ _ => rfl, rfl, h.tables⟩, h.nodup, h.fragments, h.ports⟩
  have hdraw := foldlM_drawOne (P := Coming tx s.world)
    (fun (t : Lcore) p => needsLookup (t.world.mbuf p))
    (fun p => needsLookup (s.world.mbuf p))
    (fun p => word (fam.dst (s.world.mbuf p))) Fault.bufIndex
    (fun a l t ht => by rw [ht.waiting.mbuf a List.mem_cons_self])
    (fun a l t ht => sendOne_own hreads ht)
    (fun a l t ht => ownRoute_coming hmiss lookup ht) [] hcoming
  have hlast : ∀ x : Except Fault (Nat × Lcore),
      (do let r ← x; return r.2) = x.map Prod.snd := by
    intro x
    cases x <;> rfl
  refine (hlast _).trans ?_
  rw [hbulk, List.map_map]
  exact hdraw

/-- **EACH PACKET ITS OWN ROUTE**: `route4_pkts` and `route6_pkts` handle every
    packet of a burst once, by its own destination or its own SA. -/
theorem each_packet_its_own_route (tx : TxConf) (bulk : BulkLookup tx.rt)
    {pkts : List PktId} {s : Lcore} (h : Routable tx pkts s) :
    route4Pkts tx bulk.bulk4 pkts s
        = pkts.foldlM (ownRoute ipv4 tx.rt.rt4 tx s.world) s
      ∧ route6Pkts tx bulk.bulk6 pkts s
        = pkts.foldlM (ownRoute ipv6 tx.rt.rt6 tx s.world) s :=
  ⟨routePkts_eq (fun _ => ⟨rfl, rfl⟩) (ipv4_reads bulk) bulk.bulk4_eq h,
    routePkts_eq (fun _ => ⟨rfl, rfl⟩) (ipv6_reads bulk) bulk.bulk6_eq h⟩

/-- Routes of two networks: the IPv4 address 10.0.0.2 is behind port 7, the IPv6
    address of zeros behind port 9. -/
def twoRoutes : RouteTable where
  rt4 := fun a => if a = 0x0a000002 then some 7 else none
  rt6 := fun a => if a = List.replicate 16 0 then some 9 else none

def twoRoutesBulk : BulkLookup twoRoutes where
  bulk4 := List.map fun a => if a = 0x0a000002 then 0x01000007 else 0
  bulk6 := List.map fun a => if a = List.replicate 16 0 then 9 else minusOne
  word4 := fun a => if a = 0x0a000002 then 0x01000007 else 0
  word6 := fun a => if a = List.replicate 16 0 then 9 else minusOne
  bulk4_eq := fun _ => rfl
  bulk6_eq := fun _ => rfl
  hit4 := by
    intro a h ha
    have ha : (if a = 0x0a000002 then some (7 : UInt32) else none) = some h := ha
    split at ha
    · rename_i hnet
      rw [if_pos hnet, ← Option.some.inj ha]
      decide
    · cases ha
  miss4 := by
    intro a ha
    have ha : (if a = 0x0a000002 then some (7 : UInt32) else none) = none := ha
    split at ha
    · cases ha
    · rename_i hnet
      rw [if_neg hnet]
      decide
  hit6 := by
    intro a h ha
    have ha : (if a = List.replicate 16 0 then some (9 : UInt32) else none) = some h := ha
    split at ha
    · rename_i hnet
      rw [if_pos hnet, ← Option.some.inj ha]
      decide
    · cases ha
  miss6 := by
    intro a ha
    have ha : (if a = List.replicate 16 0 then some (9 : UInt32) else none) = none := ha
    split at ha
    · cases ha
    · rename_i hnet
      exact if_neg hnet

/-- A NIC with these routes. -/
def twoRoutesTx : TxConf where
  mtuSize := 1500
  fragTblSz := 0
  fragment := fun _ _ _ => none
  rt := twoRoutes
  ipv4Offloads := 0
  ipv6Offloads := 0
  ipv4Cksum := fun _ _ => [0, 0]
  ethaddrTbl := fun _ => ([0, 0x16, 0x3e, 0, 0, 1], [0, 0x16, 0x3e, 0, 0, 2])
  txTake := fun n => n

/-- A packet to an address that ends like this one, offloaded to the SA 0 or
    not. -/
def packetTo (last : UInt8) (offloaded : Bool) : Mbuf :=
  let m := Mbuf.mid (ByteStore.store (fun _ => 0) 144 [10, 0, 0, last]) 60
  if offloaded then
    { m with olFlags := txSecOffload, priv := { m.priv with sa := some 0 } }
  else m

/-- A burst with a packet offloaded to an SA on port 5 between one that has a
    route and one that has none. -/
def mixedLcore : Lcore where
  inbound := { cdevMap := fun _ => none, nbQps := 0, tbl := fun _ => default }
  outbound := { cdevMap := fun _ => none, nbQps := 0, tbl := fun _ => default }
  world := {
    mbuf := fun p => packetTo (if p = 0 then 2 else 3) (p == 1)
    sa := fun _ => { (default : SaModel.IpsecSa) with portid := 5 } }

theorem each_packet_its_own_route_mixed :
    route4Pkts twoRoutesTx twoRoutesBulk.bulk4 [0, 1, 2] mixedLcore
        = [0, 1, 2].foldlM (ownRoute ipv4 twoRoutes.rt4 twoRoutesTx mixedLcore.world)
          mixedLcore
      ∧ route6Pkts twoRoutesTx twoRoutesBulk.bulk6 [0, 1, 2] mixedLcore
        = [0, 1, 2].foldlM (ownRoute ipv6 twoRoutes.rt6 twoRoutesTx mixedLcore.world)
          mixedLcore := by
  refine each_packet_its_own_route twoRoutesTx twoRoutesBulk
    ⟨by decide, by decide, ?_, ?_, ?_⟩
  · intro m _ port hm
    exact absurd hm List.not_mem_nil
  · intro done m rest _ w n frags hfrags
    cases hfrags
  · intro m _ _ p _
    show (5 : UInt16).toNat < maxEthports
    decide

/-- Where the packets of this burst wait behind `route4_pkts`. -/
example : ((route4Pkts twoRoutesTx twoRoutesBulk.bulk4 [0, 1, 2] mixedLcore).map fun s =>
    (s.txMbufs 7, s.txMbufs 5, s.world.freed, s.lpm4Miss)).toOption
      = some ([0], [1], [2], 1) := by
  decide +kernel

/-! ## The same routes in the loop of a lcore -/

/-- A loop over packets with something computed for each of them before. -/
theorem foldlM_map_congr {β σ : Type} {f : σ → β → Except Fault σ}
    {g : σ → α → Except Fault σ} {k : α → β} {l : List α}
    (h : ∀ a ∈ l, ∀ s, f s (k a) = g s a) (s : σ) :
    (l.map k).foldlM f s = l.foldlM g s := by
  induction l generalizing s with
  | nil => rfl
  | cons a l ih =>
      rw [List.map_cons, List.foldlM_cons, List.foldlM_cons, h a List.mem_cons_self]
      congr 1
      funext t
      exact ih (fun b hb => h b (List.mem_cons_of_mem a hb)) t

/-- **THE SAME HOPS**: `PollModel` works them out for the whole burst before it
    sends the first packet. -/
theorem foldlM_ownRoute {fam : Family α} {lookup : α → Option UInt32} {tx : TxConf}
    {one : Lcore → PktId × Option Nat → Except Fault Lcore}
    (hnone : ∀ t m, one t (m, none) = .ok (fam.drop m t))
    (hsome : ∀ t m hop, one t (m, some hop) = sendSinglePacket tx m (hopPort hop) t)
    {pkts : List PktId} {s : Lcore} (h : Routable tx pkts s) :
    (pkts.map fun m => (m, pktHop s.world
        (fun b => (lookup (fam.dst b)).map UInt32.toNat) m)).foldlM one s
      = pkts.foldlM (ownRoute fam lookup tx s.world) s := by
  refine foldlM_map_congr ?_ s
  intro m hm t
  rw [pktHop, ownRoute]
  by_cases hlook : needsLookup (s.world.mbuf m) = true
  · rw [if_pos hlook, if_neg (not_not.mpr (beq_iff_eq.mp hlook))]
    cases lookup (fam.dst (s.world.mbuf m)) with
    | none => exact hnone t m
    | some hop => exact hsome t m _
  · rw [if_neg hlook, if_pos fun hz => hlook (beq_iff_eq.mpr hz),
      SecgwModel.getHopForOffloadPkt]
    cases hsa : (s.world.mbuf m).priv.sa with
    | none => exact hnone t m
    | some p =>
        have hport := h.ports m hm (Bool.eq_false_iff.mpr hlook) p hsa
        refine (hsome t m _).trans ?_
        rw [hopPort, (toNat_port hport).2]

/-- **THE LOOP OF A LCORE** routes with these passes. -/
theorem routePkts_refines {tx : TxConf} (bulk : BulkLookup tx.rt)
    {pkts : List PktId} {s : Lcore} (h : Routable tx pkts s) :
    route4Pkts tx bulk.bulk4 pkts s = SecgwModel.route4Pkts tx pkts s
      ∧ route6Pkts tx bulk.bulk6 pkts s = SecgwModel.route6Pkts tx pkts s := by
  constructor
  · refine (routePkts_eq (fun _ => ⟨rfl, rfl⟩) (ipv4_reads bulk) bulk.bulk4_eq h).trans ?_
    exact (foldlM_ownRoute (fun _ _ => rfl) (fun _ _ _ => rfl) h).symm
  · refine (routePkts_eq (fun _ => ⟨rfl, rfl⟩) (ipv6_reads bulk) bulk.bulk6_eq h).trans ?_
    exact (foldlM_ownRoute (fun _ _ => rfl) (fun _ _ _ => rfl) h).symm

end Route
