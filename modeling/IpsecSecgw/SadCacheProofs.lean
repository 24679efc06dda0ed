import IpsecSecgw.SadProofs

/-! # The SAD cache is transparent

    The cache of a lcore is direct-mapped by the low bits of the SPI, so SAs
    evict each other.  Its invariant (`CacheOk`): whatever a slot of a family
    holds is what that family's table answers for the SPI of the slot's SA.
    Tables that `ipsec_sad_add` has built answer by SPI alone (`TableOk`), so
    a hit is the table's answer, and a burst leaves the invariant in place. -/

namespace SadCaching

open ByteStore SaModel MbufModel Slots SadModel Sad

/-! ## Tables -/

section tables

variable (lib : SadLib) (mem : SaPtr → IpsecSa)

/-- A table answers by SPI alone, and with an SA that carries the SPI. -/
structure TableOk (t : lib.Table) : Prop where
  own : ∀ k p, lib.lookup t k = some p → k.spi = toBe 4 (mem p).spi.toNat
  spiOnly : ∀ k k', k.spi = k'.spi → lib.lookup t k = lib.lookup t k'

/-- An SAD that `ipsec_sad_add` has built, from the tables created for it. -/
inductive Built (t : Tables) : IpsecSad lib → Prop
  | create (v4 v6 : Bool) :
      Built t ⟨if v4 then some lib.empty else none,
        if v6 then some lib.empty else none⟩
  | add {sad : IpsecSad lib} (p : SaPtr) (h : Built t sad) :
      Built t (ipsecSadAdd lib t mem sad p).2

variable {lib mem}

theorem tableOk_empty : TableOk lib mem lib.empty := by
  constructor
  · intro k p h
    rw [lib.lookup_empty] at h
    cases h
  · intro k k' _
    rw [lib.lookup_empty, lib.lookup_empty]

/-- Entering an SA under its own SPI keeps a table in order, whether the
    library takes it or not. -/
theorem tableOk_addFamily {table : Option lib.Table} {key : SadKey}
    {p : SaPtr} (hkey : key.spi = toBe 4 (mem p).spi.toNat)
    (h : ∀ t, table = some t → TableOk lib mem t) :
    ∀ t, (addFamily lib table key p).2 = some t → TableOk lib mem t := by
  intro t ht
  obtain ⟨t0, rfl⟩ : ∃ t0, table = some t0 := by
    rw [← Option.isSome_iff_exists, ← addFamily_isSome table key p, ht]
    rfl
  have h0 := h t0 rfl
  have hlookup : ∀ k, answer lib (addFamily lib (some t0) key p).2 k = lib.lookup t k := by
    intro k
    rw [ht]
    rfl
  by_cases hacc : Accepts lib (some t0) key p
  · have hadd : ∀ k, lib.lookup t k
        = if k.spi = key.spi then some p else lib.lookup t0 k := by
      intro k
      rw [← hlookup, (addFamily_accepted hacc).2.2]
      rfl
    constructor
    · intro k q hk
      rw [hadd] at hk
      by_cases hspi : k.spi = key.spi
      · rw [if_pos hspi] at hk
        cases hk
        rw [hspi, hkey]
      · rw [if_neg hspi] at hk
        exact h0.own k q hk
    · intro k k' hkk
      rw [hadd, hadd, hkk, h0.spiOnly k k' hkk]
  · have hkept : ∀ k, lib.lookup t k = lib.lookup t0 k := by
      intro k
      rw [← hlookup, (addFamily_refused hacc).2]
      rfl
    constructor
    · intro k q hk
      rw [hkept] at hk
      exact h0.own k q hk
    · intro k k' hkk
      rw [hkept, hkept, h0.spiOnly k k' hkk]

/-- **THE TABLES STAY IN ORDER** however many SAs are entered. -/
theorem Built.tableOk {t : Tables} {sad : IpsecSad lib}
    (h : Built lib mem t sad) :
    (∀ t4, sad.sadV4 = some t4 → TableOk lib mem t4)
      ∧ ∀ t6, sad.sadV6 = some t6 → TableOk lib mem t6 := by
  induction h with
  | create v4 v6 =>
      constructor
      · intro t4 h4
        cases v4 with
        | true =>
            cases h4
            exact tableOk_empty
        | false => cases h4
      · intro t6 h6
        cases v6 with
        | true =>
            cases h6
            exact tableOk_empty
        | false => cases h6
  | @add sad p _ ih =>
      obtain ⟨h4, h6⟩ := ih
      have hwhere : ∀ (c : Bool) (isV4 : Bool) (table : Option lib.Table),
          (∀ t, table = some t → TableOk lib mem t) →
          ∀ t, (addWhere lib c table (keyOf (mem p) isV4) p).2 = some t →
            TableOk lib mem t := by
        intro c isV4 table htable
        cases c with
        | true => exact tableOk_addFamily rfl htable
        | false => exact htable
      rw [ipsecSadAdd_eq]
      dsimp only
      split
      · exact ⟨hwhere _ _ _ h4, h6⟩
      · exact ⟨hwhere _ _ _ h4, hwhere _ _ _ h6⟩

end tables

/-! ## The cache -/

section cache

variable {lib : SadLib} {mem : SaPtr → IpsecSa} {t4 t6 : lib.Table}

/-- Slots for every index, and in each slot of a family what the family's
    table answers. -/
structure CacheOk (lib : SadLib) (mem : SaPtr → IpsecSa) (t4 t6 : lib.Table)
    (c : SadCache) : Prop where
  room : c.mask ≠ 0 → ∀ isV4, c.mask.toNat < (c.slots isV4).length
  own : ∀ isV4 (i : Nat) p, (c.slots isV4)[i]? = some (some p) →
    ∀ k, k.spi = toBe 4 (mem p).spi.toNat →
      lib.lookup (if isV4 then t4 else t6) k = some p

theorem cacheOk_disabled : CacheOk lib mem t4 t6 {} := by
  constructor
  · intro h
    exact absurd rfl h
  · intro isV4 i p h
    cases isV4 with
    | true => cases h
    | false => cases h

/-- Every index the code uses lies inside the arrays. -/
theorem CacheOk.index_lt {c : SadCache} (h : CacheOk lib mem t4 t6 c)
    (hmask : c.mask ≠ 0) (isV4 : Bool) (spi : UInt32) :
    spi2idx spi c.mask < (c.slots isV4).length := by
  have hle : spi2idx spi c.mask ≤ c.mask.toNat := by
    rw [spi2idx, UInt32.toNat_and]
    exact Nat.and_le_right
  exact Nat.lt_of_le_of_lt hle (h.room hmask isV4)

/-- The slots of a fresh cache are null. -/
theorem init_slots (nbCacheEnt : UInt32) (alloc4 alloc6 : Bool) (errno : Int)
    (isV4 : Bool) (i : Nat) (p : SaPtr) :
    ((ipsecSadLcoreCacheInit {} nbCacheEnt alloc4 alloc6 errno).2.slots isV4)[i]?
      ≠ some (some p) := by
  have hnull : ∀ n, (List.replicate n (none : Option SaPtr))[i]? ≠ some (some p) := by
    intro n h
    rw [List.getElem?_replicate] at h
    split at h <;> cases h
  intro h
  rw [ipsecSadLcoreCacheInit] at h
  dsimp only at h
  split at h
  · cases isV4 <;> cases h
  · split at h
    · cases isV4 <;> cases h
    · split at h
      · cases isV4 with
        | true => exact hnull _ h
        | false => cases h
      · cases isV4 with
        | true => exact hnull _ h
        | false => exact hnull _ h

/-- A slot behind `sa_cache_update`. -/
theorem slots_update {c : SadCache} {isV4 fam : Bool} {p q : SaPtr} {i : Nat}
    (h : ((saCacheUpdate c isV4 mem p).slots fam)[i]? = some (some q)) :
    fam = isV4 ∧ q = p ∨ (c.slots fam)[i]? = some (some q) := by
  have hset : ∀ (l : List (Option SaPtr)) (j : Nat),
      (l.set j (some p))[i]? = some (some q) → q = p ∨ l[i]? = some (some q) := by
    intro l j hq
    rw [List.getElem?_set] at hq
    by_cases hji : j = i
    · rw [if_pos hji] at hq
      split at hq
      · cases hq
        exact .inl rfl
      · cases hq
    · rw [if_neg hji] at hq
      exact .inr hq
  rw [saCacheUpdate] at h
  split at h
  · exact .inr h
  · cases isV4 with
    | true =>
        cases fam with
        | true => exact (hset _ _ h).imp_left fun hq => ⟨rfl, hq⟩
        | false => exact .inr h
    | false =>
        cases fam with
        | true => exact .inr h
        | false => exact (hset _ _ h).imp_left fun hq => ⟨rfl, hq⟩

/-- What a hit says: the SA is in the packet's slot, with its SPI and its
    addresses. -/
theorem cacheHit_some {c : SadCache} {m : Mbuf} {u : Nat} {p : SaPtr}
    (h : cacheHit mem c m u = some p) :
    (c.slots (isIpv4 m))[spi2idx (hostSpi m u) c.mask]? = some (some p)
      ∧ (mem p).spi = hostSpi m u ∧ cmpSaKey (mem p) (isIpv4 m) m = true := by
  rw [cacheHit] at h
  by_cases hmask : c.mask ≠ 0
  · rw [if_pos hmask] at h
    cases hslot : (c.slots (isIpv4 m))[spi2idx (hostSpi m u) c.mask]? with
    | none =>
        rw [hslot] at h
        cases h
    | some o =>
        rw [hslot] at h
        cases o with
        | none => cases h
        | some q =>
            dsimp only [Option.join_some] at h
            by_cases hq : (mem q).spi = hostSpi m u
                ∧ cmpSaKey (mem q) (isIpv4 m) m = true
            · rw [if_pos hq] at h
              cases h
              exact ⟨rfl, hq⟩
            · rw [if_neg hq] at h
              cases h
  · rw [if_neg hmask] at h
    cases h

/-- **THE FRESH CACHE** is in order for every size, also when memory runs
    out. -/
theorem cacheOk_init (nbCacheEnt : UInt32) (alloc4 alloc6 : Bool)
    (errno : Int) :
    CacheOk lib mem t4 t6
      (ipsecSadLcoreCacheInit {} nbCacheEnt alloc4 alloc6 errno).2 := by
  refine ⟨?_, fun isV4 i p h => absurd h (init_slots _ _ _ _ _ _ _)⟩
  rw [ipsecSadLcoreCacheInit]
  dsimp only
  split
  · exact fun h => absurd rfl h
  · rename_i hzero
    split
    · exact fun h => absurd rfl h
    · split
      · exact fun h => absurd rfl h
      · intro _ isV4
        have hlen : (if isV4 then
            List.replicate (rteAlign32pow2 nbCacheEnt).toNat (none : Option SaPtr)
            else List.replicate (rteAlign32pow2 nbCacheEnt).toNat
              none).length = (rteAlign32pow2 nbCacheEnt).toNat := by
          cases isV4 <;> exact List.length_replicate
        show (rteAlign32pow2 nbCacheEnt - 1).toNat < _
        refine Nat.lt_of_lt_of_eq ?_ hlen.symm
        have hpos : (rteAlign32pow2 nbCacheEnt).toNat ≠ 0 := fun h =>
          hzero (UInt32.toNat.inj h)
        have hone : (1 : UInt32) ≤ rteAlign32pow2 nbCacheEnt := by
          rw [UInt32.le_iff_toNat_le]
          exact Nat.pos_of_ne_zero hpos
        rw [UInt32.toNat_sub_of_le _ _ hone]
        exact Nat.sub_lt (Nat.pos_of_ne_zero hpos) Nat.zero_lt_one

/-- Caching changes no array's length. -/
theorem length_slots_update (c : SadCache) (isV4 fam : Bool) (p : SaPtr) :
    ((saCacheUpdate c isV4 mem p).slots fam).length = (c.slots fam).length := by
  rw [saCacheUpdate]
  split
  · rfl
  · cases isV4 <;> cases fam
    · exact List.length_set
    · rfl
    · rfl
    · exact List.length_set

/-- Caching a table's answer keeps the cache in order. -/
theorem cacheOk_update {c : SadCache} (h : CacheOk lib mem t4 t6 c)
    (isV4 : Bool) (p : SaPtr)
    (hp : ∀ k, k.spi = toBe 4 (mem p).spi.toNat →
      lib.lookup (if isV4 then t4 else t6) k = some p) :
    CacheOk lib mem t4 t6 (saCacheUpdate c isV4 mem p) := by
  have hmask : (saCacheUpdate c isV4 mem p).mask = c.mask := by
    rw [saCacheUpdate]
    split
    · rfl
    · cases isV4 <;> rfl
  constructor
  · intro hm fam
    rw [hmask] at hm ⊢
    rw [length_slots_update]
    exact h.room hm fam
  · intro fam i q hq
    rcases slots_update hq with ⟨rfl, rfl⟩ | hold
    · exact hp
    · exact h.own fam i q hold

/-! ## One burst -/

/-- The SPI is four bytes of the packet. -/
theorem espSpi_hostSpi (m : Mbuf) (u : Nat) :
    toBe 4 (hostSpi m u).toNat = espSpi m u := by
  have hlt := ofBe_lt (espSpi m u)
  have hback := toBe_ofBe (espSpi m u)
  have hlen : (espSpi m u).length = 4 := length_load _ _ _
  rw [hlen] at hlt hback
  rw [hostSpi, UInt32.toNat_ofNat', Nat.mod_eq_of_lt (by
    rw [show (256 : Nat) ^ 4 = 2 ^ 32 from rfl] at hlt
    exact hlt), hback]

/-- **A HIT IS THE TABLE'S ANSWER**: with or without the cache the packet gets
    the same SA. -/
theorem findSa_transparent {c : SadCache} (h : CacheOk lib mem t4 t6 c)
    (m : Mbuf) (u : Nat) :
    findSa lib mem c t4 t6 m u = findSa lib mem {} t4 t6 m u := by
  have hoff : cacheHit mem {} m u = none := rfl
  rw [findSa, findSa, hoff]
  cases hhit : cacheHit mem c m u with
  | none => rfl
  | some p =>
      dsimp only
      obtain ⟨hslot, hspi, hcmp⟩ := cacheHit_some hhit
      have hown := h.own _ _ _ hslot (sadKey m u) (by
        rw [hspi, espSpi_hostSpi]
        rfl)
      rw [hown, accepted, Option.filter_some, hcmp, if_pos rfl]

/-- Storing a table's answers keeps the cache in order. -/
theorem cacheOk_foldl {isV4 : Bool} {t : lib.Table} {pkts : Nat → Mbuf}
    (ht : TableOk lib mem t) (hfam : (if isV4 then t4 else t6) = t)
    (key : Nat → SadKey) (l : List Nat)
    (s : SadCache × (Nat → Option SaPtr)) (h : CacheOk lib mem t4 t6 s.1) :
    CacheOk lib mem t4 t6
      ((l.map fun i => (lib.lookup t (key i), i)).foldl
        (storeOne mem pkts isV4) s).1 := by
  induction l generalizing s with
  | nil => exact h
  | cons i l ih =>
      rw [List.map_cons, List.foldl_cons]
      refine ih _ ?_
      rw [storeOne]
      dsimp only
      cases hfound : lib.lookup t (key i) with
      | none => exact h
      | some p =>
          dsimp only
          split
          · refine cacheOk_update h isV4 p ?_
            intro k hk
            rw [hfam, ← hfound]
            exact ht.spiOnly k (key i) (hk.trans (ht.own _ _ hfound).symm)
          · exact h

/-- **ONE BURST** leaves the cache in order. -/
theorem cacheOk_sadLookup {c : SadCache} (h4 : TableOk lib mem t4)
    (h6 : TableOk lib mem t6) (h : CacheOk lib mem t4 t6 c)
    (stack4 stack6 sa : Nat → Option SaPtr) (pkts : Nat → Mbuf) (n : Nat) :
    CacheOk lib mem t4 t6
      (sadLookup lib mem ⟨some t4, some t6⟩ c stack4 stack6 pkts n sa).1 := by
  rw [sadLookup_eq, answers_table, answers_table]
  exact cacheOk_foldl h6 rfl _ _ _ (cacheOk_foldl h4 rfl _ _ _ h)

end cache

/-! ## Sequences of bursts -/

/-- A burst with the memory the call finds: packets, stack, result array. -/
structure Burst where
  pkts : Nat → Mbuf
  num : Nat
  stack4 : Nat → Option SaPtr
  stack6 : Nat → Option SaPtr
  sa : Nat → Option SaPtr

/-- The SAs found for the bursts, one list a burst, on one lcore. -/
def runBursts (lib : SadLib) (mem : SaPtr → IpsecSa) (sad : IpsecSad lib) :
    SadCache → List Burst → List (List (Option SaPtr))
  | _, [] => []
  | c, b :: bs =>
      let r := sadLookup lib mem sad c b.stack4 b.stack6 b.pkts b.num b.sa
      cells r.2 b.num :: runBursts lib mem sad r.1 bs

/-- A tunnel SA has the addresses of the packet's outer header. -/
def AddressesMatch (sa : IpsecSa) (m : Mbuf) : Prop :=
  isTunnel sa.flags = true →
    isIpv4 m = true ∧ sa.src.ip4 = srcAddr m true ∧ sa.dst.ip4 = dstAddr m true
      ∨ isIpv4 m = false ∧ sa.src.bytes = srcAddr m false
        ∧ sa.dst.bytes = dstAddr m false

/-- Passing `cmp_sa_key` says so. -/
theorem addressesMatch_of_cmpSaKey {sa : IpsecSa} {m : Mbuf}
    (h : cmpSaKey sa (isIpv4 m) m = true) : AddressesMatch sa m := by
  intro ht
  rw [cmpSaKey, Bool.or_eq_true, Bool.or_eq_true] at h
  rcases h with (h | h) | h
  · exfalso
    have hmask := and_withoutTransportVersion sa.flags (ip4Tunnel ||| ip6Tunnel)
      rfl
    rw [beq_iff_eq.mp h] at hmask
    rw [isTunnel, ← hmask] at ht
    exact absurd ht (by decide)
  · simp only [Bool.and_eq_true, beq_iff_eq] at h
    exact .inl ⟨h.1.1.1, h.1.2, h.2⟩
  · simp only [Bool.and_eq_true, beq_iff_eq, Bool.not_eq_true'] at h
    exact .inr ⟨h.1.1.1, h.1.2, h.2⟩

/-- Any SA found with the cache disabled passes `cmp_sa_key`. -/
theorem cmpSaKey_of_findSa {lib : SadLib} {mem : SaPtr → IpsecSa}
    {t4 t6 : lib.Table} {m : Mbuf} {u : Nat} {p : SaPtr}
    (h : findSa lib mem {} t4 t6 m u = some p) :
    cmpSaKey (mem p) (isIpv4 m) m = true := by
  have hoff : cacheHit mem {} m u = none := rfl
  rw [findSa, hoff] at h
  exact (Option.filter_eq_some_iff.mp h).2

/-- **CACHE TRANSPARENCY**: for an SAD that `ipsec_sad_add` has built, every
    cache size and every sequence of bursts, the SAs found are those found
    with the cache disabled, and tunnel SAs have the packet's addresses. -/
theorem cache_transparent {lib : SadLib} {mem : SaPtr → IpsecSa} {t : Tables}
    {sad : IpsecSad lib} {t4 t6 : lib.Table} (hb : Built lib mem t sad)
    (h4 : sad.sadV4 = some t4) (h6 : sad.sadV6 = some t6)
    (nbCacheEnt : UInt32) (alloc4 alloc6 : Bool) (errno : Int)
    (bursts : List Burst) :
    runBursts lib mem sad
        (ipsecSadLcoreCacheInit {} nbCacheEnt alloc4 alloc6 errno).2 bursts
      = runBursts lib mem sad {} bursts
    ∧ List.Forall₂ (fun b r => ∀ i p, i < b.num → r[i]? = some (some p) →
        AddressesMatch (mem p) (b.pkts i)) bursts
      (runBursts lib mem sad
        (ipsecSadLcoreCacheInit {} nbCacheEnt alloc4 alloc6 errno).2 bursts) := by
  obtain ⟨hok4, hok6⟩ := hb.tableOk
  have ht4 := hok4 t4 h4
  have ht6 := hok6 t6 h6
  have hsad : sad = ⟨some t4, some t6⟩ := by
    cases sad
    dsimp only at h4 h6
    rw [h4, h6]
  rw [hsad]
  have hinit : CacheOk lib mem t4 t6
      (ipsecSadLcoreCacheInit {} nbCacheEnt alloc4 alloc6 errno).2 :=
    cacheOk_init nbCacheEnt alloc4 alloc6 errno
  generalize (ipsecSadLcoreCacheInit {} nbCacheEnt alloc4 alloc6 errno).2 = c
    at hinit
  -- both runs go through caches in order, possibly different ones
  have hoff : CacheOk lib mem t4 t6 {} := cacheOk_disabled
  generalize ({} : SadCache) = d at hoff
  induction bursts generalizing c d with
  | nil => exact ⟨rfl, List.Forall₂.nil⟩
  | cons b bs ih =>
      have hcell : ∀ (e : SadCache), CacheOk lib mem t4 t6 e → ∀ i, i < b.num →
          (sadLookup lib mem ⟨some t4, some t6⟩ e b.stack4 b.stack6 b.pkts
            b.num b.sa).2 i
            = findSa lib mem {} t4 t6 (b.pkts i) (udpAt b.pkts i) := by
        intro e he i hi
        rw [sadLookup_apply _ _ _ _ _ _ hi, findSa_transparent he]
      obtain ⟨hrun, haddr⟩ := ih _
        (cacheOk_sadLookup ht4 ht6 hinit b.stack4 b.stack6 b.sa b.pkts b.num) _
        (cacheOk_sadLookup ht4 ht6 hoff b.stack4 b.stack6 b.sa b.pkts b.num)
      constructor
      · rw [runBursts, runBursts]
        rw [hrun]
        congr 1
        refine cells_congr ?_
        intro i hi
        rw [hcell c hinit i hi, hcell d hoff i hi]
      · rw [runBursts]
        refine List.Forall₂.cons ?_ haddr
        intro i p hi hp
        rw [cells, List.getElem?_map, List.getElem?_range hi] at hp
        have hfound := Option.some.inj hp
        rw [hcell c hinit i hi] at hfound
        exact addressesMatch_of_cmpSaKey (cmpSaKey_of_findSa hfound)

/-- An IPv4 packet from `10.0.0.src` to `10.0.0.2` with this SPI. -/
def spiPacket (src spi : UInt8) : Mbuf :=
  { Mbuf.mid (store (fun _ => 0) 140 [10, 0, 0, src, 10, 0, 0, 2, 0, 0, 0, spi]) 60 with
    packetType := 0x10
    l3Len := 20 }

/-- A burst of three such packets. -/
def threePackets (pkts : List (UInt8 × UInt8)) : Burst where
  pkts := fun i => (pkts.map fun e => spiPacket e.1 e.2).getD i (spiPacket 0 0)
  num := 3
  stack4 := fun _ => none
  stack6 := fun _ => none
  sa := fun _ => none

/-- Tunnels from `10.0.0.1` with SPI 5 and from `10.0.0.3` with SPI 9. -/
def fiveNine (p : SaPtr) : IpsecSa :=
  { spi := if p = 0 then 5 else 9
    flags := ip4Tunnel
    src := ⟨[10, 0, 0, if p = 0 then 1 else 3] ++ List.replicate 12 0, rfl⟩
    dst := ⟨[10, 0, 0, 2] ++ List.replicate 12 0, rfl⟩ }

/-- The SAD of both. -/
def fiveNineSad : IpsecSad spiLib :=
  (ipsecSadAdd spiLib {} fiveNine (ipsecSadAdd spiLib {} fiveNine
    ⟨some spiLib.empty, some spiLib.empty⟩ 0).2 1).2

/-- In a cache of four entries both have the same place, so each puts the other out.  The
    last packet has the SPI of one and the address of the other. -/
def fiveNineBursts : List Burst :=
  [threePackets [(1, 5), (3, 9), (1, 5)], threePackets [(3, 9), (1, 5), (3, 5)]]

theorem cache_transparent_evicted :
    runBursts spiLib fiveNine fiveNineSad (ipsecSadLcoreCacheInit {} 3 true true 0).2
        fiveNineBursts = [[some 0, some 1, some 0], [some 1, some 0, none]]
      ∧ runBursts spiLib fiveNine fiveNineSad (ipsecSadLcoreCacheInit {} 3 true true 0).2
        fiveNineBursts = runBursts spiLib fiveNine fiveNineSad {} fiveNineBursts
      ∧ List.Forall₂ (fun b r => ∀ i p, i < b.num → r[i]? = some (some p) →
          AddressesMatch (fiveNine p) (b.pkts i)) fiveNineBursts
        (runBursts spiLib fiveNine fiveNineSad
          (ipsecSadLcoreCacheInit {} 3 true true 0).2 fiveNineBursts) :=
  ⟨by decide +kernel, cache_transparent (.add 1 (.add 0 (.create true true))) rfl rfl 3 true
    true 0 fiveNineBursts⟩

end SadCaching
