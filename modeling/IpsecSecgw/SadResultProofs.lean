import IpsecSecgw.SadCacheProofs
import IpsecSecgw.SaInitProofs

/-! # Where the results of `sad_lookup` come from

    The result arrays live on the stack and are filled by the library only.  A
    family without SAs has no table, and the library then writes nothing: what
    was on the stack is taken for pointers to SAs.  With a table for the family
    of every packet each result comes from that table, through the cache or
    not (`CacheIn`); without one for some packet it need not. -/

namespace SadResult

open SaModel MbufModel SpiSearch Slots SadModel Sad SaInit SadCaching

variable {lib : SadLib}

/-- The table of a family holds the SA. -/
def InTable (sad : IpsecSad lib) (isV4 : Bool) (p : SaPtr) : Prop :=
  ∃ t, sad.table isV4 = some t ∧ ∃ k, lib.lookup t k = some p

/-- The slots of a family hold SAs of its table. -/
def CacheIn (sad : IpsecSad lib) (c : SadCache) : Prop :=
  ∀ isV4 (i : Nat) p, (c.slots isV4)[i]? = some (some p) → InTable sad isV4 p

/-- **THE FRESH CACHE** holds nothing. -/
theorem cacheIn_init (sad : IpsecSad lib) (nbCacheEnt : UInt32) (alloc4 alloc6 : Bool)
    (errno : Int) :
    CacheIn sad (ipsecSadLcoreCacheInit {} nbCacheEnt alloc4 alloc6 errno).2 := by
  intro isV4 i p h
  exact absurd h (init_slots _ _ _ _ _ _ _)

theorem CacheIn.update {sad : IpsecSad lib} {c : SadCache} {mem : SaPtr → IpsecSa}
    {isV4 : Bool} {p : SaPtr} (h : CacheIn sad c) (hp : InTable sad isV4 p) :
    CacheIn sad (saCacheUpdate c isV4 mem p) := by
  intro fam i q hq
  rcases slots_update hq with ⟨rfl, rfl⟩ | hold
  · exact hp
  · exact h fam i q hold

/-! ## Bursts with tables -/

section burst

variable {mem : SaPtr → IpsecSa} {sad : IpsecSad lib} {cache : SadCache}
  {pkts : Nat → Mbuf} {n : Nat}

/-- Where a family has packets it has a table, and the table answers. -/
theorem answers_inTable (pkts : Nat → Mbuf) {isV4 : Bool} (stack : Nat → Option SaPtr)
    {l : List Nat} (h : ∀ i ∈ l, (sad.table isV4).isSome = true) :
    ∃ f : Nat → Option SaPtr,
      answers lib (sad.table isV4) stack pkts l = l.map (fun i => (f i, i))
        ∧ ∀ i p, f i = some p → InTable sad isV4 p := by
  cases htable : sad.table isV4 with
  | some t =>
      refine ⟨_, answers_table lib t stack l, fun i p hp => ⟨t, htable, _, hp⟩⟩
  | none =>
      have hnil : l = [] := by
        refine List.eq_nil_iff_forall_not_mem.mpr fun i hi => ?_
        have hsome := h i hi
        rw [htable] at hsome
        cases hsome
      subst hnil
      exact ⟨fun _ => none, rfl, fun i p hp => by cases hp⟩

/-- Storing answers of a table keeps the cache. -/
theorem cacheIn_foldl {isV4 : Bool} {f : Nat → Option SaPtr}
    (hf : ∀ i p, f i = some p → InTable sad isV4 p) (l : List Nat)
    (s : SadCache × (Nat → Option SaPtr)) (h : CacheIn sad s.1) :
    CacheIn sad ((l.map fun i => (f i, i)).foldl (storeOne mem pkts isV4) s).1 := by
  induction l generalizing s with
  | nil => exact h
  | cons i l ih =>
      rw [List.map_cons, List.foldl_cons]
      refine ih _ ?_
      rw [storeOne]
      dsimp only
      cases hfound : f i with
      | none => exact h
      | some p =>
          dsimp only
          split
          · exact h.update (hf i p hfound)
          · exact h

/-- A hit is in the table of the packet's family. -/
theorem CacheIn.hit {m : Mbuf} {u : Nat} {p : SaPtr} (h : CacheIn sad cache)
    (hhit : cacheHit mem cache m u = some p) : InTable sad (isIpv4 m) p :=
  h _ _ _ (cacheHit_some hhit).1

/-- **ONE BURST** whose packets all have tables. -/
theorem sadLookup_inTable (mem : SaPtr → IpsecSa) (h : CacheIn sad cache)
    (hall : ∀ i, i < n → (sad.table (isIpv4 (pkts i))).isSome = true)
    (stack4 stack6 sa : Nat → Option SaPtr) :
    CacheIn sad (sadLookup lib mem sad cache stack4 stack6 pkts n sa).1
      ∧ ∀ i p, i < n →
        (sadLookup lib mem sad cache stack4 stack6 pkts n sa).2 i = some p →
        InTable sad (isIpv4 (pkts i)) p := by
  have hmiss : ∀ isV4, ∀ i ∈ misses mem cache pkts isV4 n,
      (sad.table isV4).isSome = true := by
    intro isV4 i hi
    obtain ⟨hlt, -, hfam⟩ := mem_misses.mp hi
    rw [← hfam]
    exact hall i hlt
  obtain ⟨f4, h4, hin4⟩ := answers_inTable pkts stack4 (hmiss true)
  obtain ⟨f6, h6, hin6⟩ := answers_inTable pkts stack6 (hmiss false)
  constructor
  · rw [sadLookup_eq]
    change answers lib sad.sadV4 _ _ _ = _ at h4
    change answers lib sad.sadV6 _ _ _ = _ at h6
    rw [h4, h6]
    exact cacheIn_foldl hin6 _ _ (cacheIn_foldl hin4 _ _ h)
  · intro i p hi hp
    rw [sadLookup_cell h4 h6 hi] at hp
    cases hhit : hitAt mem cache pkts i with
    | some q =>
        rw [hhit] at hp
        obtain rfl := Option.some.inj hp
        exact h.hit hhit
    | none =>
        rw [hhit] at hp
        have hp := (Option.filter_eq_some_iff.mp hp).1
        cases hv : isIpv4 (pkts i) with
        | true =>
            rw [hv] at hp
            exact hin4 i p hp
        | false =>
            rw [hv] at hp
            exact hin6 i p hp

/-! ## Packets without a table -/

/-- A stack full of one pointer answers with it. -/
theorem answers_stack (pkts : Nat → Mbuf) (table : Option lib.Table) (g : SaPtr) (l : List Nat) :
    ∃ f : Nat → Option SaPtr,
      answers lib table (fun _ => some g) pkts l = l.map (fun i => (f i, i))
        ∧ (table = none → ∀ i, f i = some g) := by
  cases table with
  | some t => exact ⟨_, answers_table lib t _ l, fun h => by cases h⟩
  | none =>
      refine ⟨fun _ => some g, ?_, fun _ _ => rfl⟩
      rw [answers, rteIpsecSadLookup, cells, List.map_const', List.length_range,
        List.length_map, List.length_map]
      induction l with
      | nil => rfl
      | cons i l ih => exact congrArg (List.cons _) ih

/-- **GARBAGE**: the result of a packet without a table is what was on the
    stack. -/
theorem sadLookup_garbage (pkts : Nat → Mbuf) {g : SaPtr} (hg : (mem g).flags = transport)
    (h : CacheIn sad cache) {i : Nat} (hi : i < n)
    (hnone : sad.table (isIpv4 (pkts i)) = none) (sa : Nat → Option SaPtr) :
    (sadLookup lib mem sad cache (fun _ => some g) (fun _ => some g) pkts n sa).2 i
      = some g := by
  obtain ⟨f4, h4, hg4⟩ := answers_stack pkts sad.sadV4 g
    (misses mem cache pkts true n)
  obtain ⟨f6, h6, hg6⟩ := answers_stack pkts sad.sadV6 g
    (misses mem cache pkts false n)
  have hhit : hitAt mem cache pkts i = none := by
    refine Option.eq_none_iff_forall_ne_some.mpr fun p hp => ?_
    obtain ⟨t, ht, -⟩ := h.hit hp
    rw [hnone] at ht
    cases ht
  rw [sadLookup_cell h4 h6 hi, hhit]
  dsimp only
  have hanswer : (if isIpv4 (pkts i) then f4 i else f6 i) = some g := by
    cases hv : isIpv4 (pkts i) with
    | true =>
        rw [hv] at hnone
        exact hg4 hnone i
    | false =>
        rw [hv] at hnone
        exact hg6 hnone i
  rw [hanswer, accepted, Option.filter_some, cmpSaKey_transport hg, if_pos rfl]

end burst

/-! ## Bursts on a lcore -/

/-- A burst as the inbound path passes it on. -/
structure Traffic where
  pkts : Nat → Mbuf
  num : Nat

/-- The tables of a socket; one without SAs has none. -/
def tables (saCtx : Option (IpsecSad lib)) : IpsecSad lib := saCtx.getD {}

/-- Every result is null or a SA of the table of the packet's family. -/
def BurstRight (sad : IpsecSad lib) (b : Traffic) (r : Nat → Option (SaPtr × Bool)) :
    Prop :=
  ∀ i p fallback, i < b.num → r i = some (p, fallback) →
    InTable sad (isIpv4 (b.pkts i)) p

/-- The lookups for the bursts of a lcore, whatever is on the stack. -/
def LookupsRight (lib : SadLib) (mem : SaPtr → IpsecSa)
    (saCtx : Option (IpsecSad lib)) : SadCache → List Traffic → Prop
  | _, [] => True
  | c, b :: bs => ∀ stack4 stack6 saArr : Nat → Option SaPtr, ∃ r,
      inboundSaLookup lib mem saCtx c stack4 stack6 b.pkts b.num saArr = some r
        ∧ BurstRight (tables saCtx) b r.2 ∧ LookupsRight lib mem saCtx r.1 bs

/-- Every packet of a burst is of a family with a table. -/
def HasTables (sad : IpsecSad lib) (b : Traffic) : Prop :=
  ∀ i, i < b.num → (sad.table (isIpv4 (b.pkts i))).isSome = true

theorem markFallback_some {mem : SaPtr → IpsecSa} {m : Mbuf} {o : Option SaPtr}
    {p : SaPtr} {fallback : Bool} (h : markFallback mem m o = some (p, fallback)) :
    o = some p := by
  rw [markFallback, Option.map_eq_some_iff] at h
  obtain ⟨q, hq, heq⟩ := h
  rw [hq, (Prod.mk.inj heq).1]

/-- Without SAs nothing goes on unless the burst is empty. -/
theorem inboundSaLookup_null {mem : SaPtr → IpsecSa} {c : SadCache} {b : Traffic}
    {stack4 stack6 saArr : Nat → Option SaPtr} (hc : CacheIn ({} : IpsecSad lib) c) :
    inboundSaLookup lib mem none c stack4 stack6 b.pkts b.num saArr
      = if b.num = 0 then some (c, fun i => (saArr i).map fun p => (p, false))
        else none := by
  rw [inboundSaLookup]
  dsimp only
  rw [forLoop_splitOne]
  by_cases hnum : b.num = 0
  · rw [if_pos hnum, hnum]
    rfl
  · rw [if_neg hnum]
    -- the first packet is a miss, and is left to a table
    have hmiss : 0 ∈ misses mem c b.pkts (isIpv4 (b.pkts 0)) b.num := by
      refine mem_misses.mpr ⟨Nat.pos_of_ne_zero hnum, ?_, rfl⟩
      refine Option.isNone_iff_eq_none.mpr ?_
      refine Option.eq_none_iff_forall_ne_some.mpr fun p hp => ?_
      obtain ⟨t, ht, -⟩ := hc.hit hp
      rw [IpsecSad.table] at ht
      split at ht <;> cases ht
    have hleft : ((splitState mem c b.pkts saArr b.num).v4.isEmpty
        && (splitState mem c b.pkts saArr b.num).v6.isEmpty) = false := by
      rw [splitState, Bool.and_eq_false_iff]
      dsimp only
      rw [List.isEmpty_eq_false_iff, List.isEmpty_eq_false_iff]
      cases hv : isIpv4 (b.pkts 0) with
      | true =>
          rw [hv] at hmiss
          exact .inl (List.ne_nil_of_mem (List.mem_map_of_mem hmiss))
      | false =>
          rw [hv] at hmiss
          exact .inr (List.ne_nil_of_mem (List.mem_map_of_mem hmiss))
    rw [hleft]
    rfl

/-- **A BURST WITH TABLES** gets SAs of its tables, and the cache stays. -/
theorem inboundSaLookup_right (mem : SaPtr → IpsecSa) {saCtx : Option (IpsecSad lib)}
    {c : SadCache} {b : Traffic} (hc : CacheIn (tables saCtx) c)
    (h : HasTables (tables saCtx) b) (stack4 stack6 saArr : Nat → Option SaPtr) :
    ∃ r, inboundSaLookup lib mem saCtx c stack4 stack6 b.pkts b.num saArr = some r
      ∧ BurstRight (tables saCtx) b r.2 ∧ CacheIn (tables saCtx) r.1 := by
  cases saCtx with
  | none =>
      have hnum : b.num = 0 := by
        refine Nat.eq_zero_of_not_pos fun hpos => ?_
        have hsome := h 0 hpos
        rw [tables, Option.getD_none, IpsecSad.table] at hsome
        split at hsome <;> cases hsome
      refine ⟨_, (inboundSaLookup_null hc).trans (if_pos hnum), ?_, hc⟩
      intro i p fallback hi _
      rw [hnum] at hi
      exact absurd hi (Nat.not_lt_zero i)
  | some sad =>
      obtain ⟨hcache, hin⟩ := sadLookup_inTable mem hc h stack4 stack6 saArr
      refine ⟨_, rfl, ?_, hcache⟩
      intro i p fallback hi hp
      dsimp only at hp
      rw [if_pos hi] at hp
      exact hin i p hi (markFallback_some hp)

/-- **A BURST WITHOUT A TABLE** for one of its packets gets garbage, or does not
    come back. -/
theorem inboundSaLookup_wrong {mem : SaPtr → IpsecSa} {saCtx : Option (IpsecSad lib)}
    {c : SadCache} {b : Traffic} {g : SaPtr} (hg : (mem g).flags = transport)
    (hc : CacheIn (tables saCtx) c) (h : ¬ HasTables (tables saCtx) b)
    (saArr : Nat → Option SaPtr) :
    ∀ r, inboundSaLookup lib mem saCtx c (fun _ => some g) (fun _ => some g) b.pkts
      b.num saArr = some r → ¬ BurstRight (tables saCtx) b r.2 := by
  intro r hr hright
  rw [HasTables] at h
  push Not at h
  obtain ⟨i, hi, hnone⟩ := h
  have hnone := Option.not_isSome_iff_eq_none.mp hnone
  cases saCtx with
  | none =>
      rw [inboundSaLookup_null hc, if_neg (Nat.ne_of_gt (Nat.zero_lt_of_lt hi))] at hr
      cases hr
  | some sad =>
      obtain rfl := Option.some.inj hr
      have hcell := sadLookup_garbage b.pkts hg hc hi hnone saArr
      change (sadLookup lib mem sad _ _ _ _ _ _).2 i = _ at hcell
      obtain ⟨t, ht, -⟩ := hright i g _ hi (by
        dsimp only
        rw [if_pos hi, hcell]
        rfl)
      rw [hnone] at ht
      cases ht

/-- Bursts with tables, one after the other. -/
theorem lookupsRight_of_tables {mem : SaPtr → IpsecSa}
    {saCtx : Option (IpsecSad lib)} {bs : List Traffic}
    (h : ∀ b ∈ bs, HasTables (tables saCtx) b) {c : SadCache}
    (hc : CacheIn (tables saCtx) c) : LookupsRight lib mem saCtx c bs := by
  induction bs generalizing c with
  | nil => trivial
  | cons b bs ih =>
      intro stack4 stack6 saArr
      obtain ⟨r, hr, hright, hcache⟩ := inboundSaLookup_right mem hc
        (h b List.mem_cons_self) stack4 stack6 saArr
      refine ⟨r, hr, hright, ih (fun b' hb' => ?_) hcache⟩
      exact h b' (List.mem_cons_of_mem b hb')

/-- Bursts that all get what they should have tables. -/
theorem tables_of_lookupsRight {mem : SaPtr → IpsecSa}
    {saCtx : Option (IpsecSad lib)} {bs : List Traffic} {g : SaPtr}
    (hg : (mem g).flags = transport) {c : SadCache} (hc : CacheIn (tables saCtx) c)
    (h : LookupsRight lib mem saCtx c bs) : ∀ b ∈ bs, HasTables (tables saCtx) b := by
  induction bs generalizing c with
  | nil =>
      intro b hb
      cases hb
  | cons b bs ih =>
      have hfirst : HasTables (tables saCtx) b := by
        by_contra hnot
        obtain ⟨r, hr, hright, -⟩ := h (fun _ => some g) (fun _ => some g) (fun _ => none)
        exact inboundSaLookup_wrong hg hc hnot _ r hr hright
      obtain ⟨r, hr, -, hrest⟩ := h (fun _ => none) (fun _ => none) (fun _ => none)
      obtain ⟨r', hr', -, hcache⟩ := inboundSaLookup_right mem hc hfirst
        (fun _ => none) (fun _ => none) (fun _ => none)
      obtain rfl := Option.some.inj (hr.symm.trans hr')
      intro b' hb'
      rcases List.mem_cons.mp hb' with rfl | hb'
      · exact hfirst
      · exact ih hcache hrest b' hb'

/-! ## The tables of a configuration -/

section configuration

variable {plat : Platform} {t : Tables}

/-- Entering a SA makes no table. -/
theorem ipsecSadAdd_isSome (mem : SaPtr → IpsecSa) (sad : IpsecSad lib) (p : SaPtr)
    (isV4 : Bool) :
    ((ipsecSadAdd lib t mem sad p).2.table isV4).isSome
      = (sad.table isV4).isSome := by
  have hwhere : ∀ (c : Bool) (table : Option lib.Table) (key : SadKey),
      (addWhere lib c table key p).2.isSome = table.isSome := by
    intro c table key
    cases c with
    | true => exact addFamily_isSome table key p
    | false => rfl
  rw [ipsecSadAdd_eq]
  dsimp only
  split
  · cases isV4 with
    | true => exact hwhere _ _ _
    | false => rfl
  · cases isV4 with
    | true => exact hwhere _ _ _
    | false => exact hwhere _ _ _

theorem addSession_sad {inbound : Bool} {i : Nat} {slot : SaSlot}
    {s : RuleState lib} {r : Int × RuleState lib}
    (h : addSession plat inbound i slot s = .ok r) : r.2.tbl.sad = s.tbl.sad := by
  rw [addSession] at h
  split at h
  · cases hc : createInlineSession plat inbound i slot with
    | error x =>
        rw [hc] at h
        cases h
    | ok q =>
        rw [hc] at h
        obtain rfl := Except.ok.inj h
        rfl
  · obtain rfl := Except.ok.inj h
    rfl

/-- The rest of a round leaves the SAD alone. -/
theorem addBody_sad {inbound : Bool} {i : Nat} {e : IpsecSa} {s : RuleState lib}
    {r : Int × RuleState lib} (h : addBody plat t inbound i e s = .ok r) :
    r.2.tbl.sad = s.tbl.sad := by
  rw [addBody] at h
  dsimp only at h
  split at h
  · obtain rfl := Except.ok.inj h
    rfl
  · split at h
    · obtain rfl := Except.ok.inj h
      rfl
    · rw [addXforms] at h
      split at h
      · exact (addSession_sad h).trans rfl
      · split at h
        · obtain rfl := Except.ok.inj h
          rfl
        · refine (addSession_sad h).trans ?_
          split <;> rfl

theorem saAddRule_tables {inbound : Bool} {i : Nat} {e : IpsecSa}
    {s : RuleState lib} {r : Int × RuleState lib}
    (h : saAddRule plat t inbound i e s = .ok r) (isV4 : Bool) :
    (r.2.tbl.sad.table isV4).isSome = (s.tbl.sad.table isV4).isSome := by
  rw [saAddRule] at h
  dsimp only at h
  split at h
  · obtain rfl := Except.ok.inj h
    rfl
  · split at h
    · split at h
      · obtain rfl := Except.ok.inj h
        exact ipsecSadAdd_isSome _ _ _ isV4
      · rw [addBody_sad h]
        exact ipsecSadAdd_isSome _ _ _ isV4
    · rw [addBody_sad h]
      rfl

/-- `sa_add_rules` makes no table, wherever it stops. -/
theorem saAddRules_tables {inbound : Bool} {entries : List IpsecSa} {i : Nat}
    {s : RuleState lib} {r : Int × RuleState lib}
    (h : saAddRules plat t inbound i entries s = .ok r) (isV4 : Bool) :
    (r.2.tbl.sad.table isV4).isSome = (s.tbl.sad.table isV4).isSome := by
  induction entries generalizing i s with
  | nil =>
      obtain rfl := Except.ok.inj h
      rfl
  | cons e entries ih =>
      rw [saAddRules] at h
      cases hround : saAddRule plat t inbound i e s with
      | error x =>
          rw [hround] at h
          cases h
      | ok q =>
          rw [hround] at h
          have hone := saAddRule_tables hround isV4
          change (if q.1 ≠ 0 then Except.ok (q.1, q.2)
            else saAddRules plat t inbound (i + 1) entries q.2) = _ at h
          split at h
          · obtain rfl := Except.ok.inj h
            exact hone
          · exact (ih h).trans hone

/-- `ipsec_sad_create` makes a table for a family with SAs. -/
theorem sadTable_isSome {isV4 : Bool} {table : Option lib.Table}
    (h : sadTable lib plat t isV4 = .ok table) :
    table.isSome = t.saIn.any (countsFamily isV4) := by
  rw [sadTable] at h
  split at h
  · rename_i hany
    split at h
    · obtain rfl := Except.ok.inj h
      exact hany.symm
    · cases h
  · rename_i hany
    obtain rfl := Except.ok.inj h
    exact (Bool.eq_false_of_not_eq_true hany).symm

theorem ipsecSadCreate_tables {sad : IpsecSad lib}
    (h : ipsecSadCreate lib plat t = .ok sad) (isV4 : Bool) :
    (sad.table isV4).isSome = t.saIn.any (countsFamily isV4) := by
  rw [ipsecSadCreate] at h
  cases h4 : sadTable lib plat t true with
  | error x =>
      rw [h4] at h
      cases h
  | ok sadV4 =>
      cases h6 : sadTable lib plat t false with
      | error x =>
          rw [h4, h6] at h
          cases h
      | ok sadV6 =>
          rw [h4, h6] at h
          obtain rfl := Except.ok.inj h
          cases isV4
          · exact sadTable_isSome h6
          · exact sadTable_isSome h4

/-- **THE TABLES** of a configuration that is accepted: a family has one when it
    has inbound SAs. -/
theorem saInit_tables {ctx : Option (SocketCtx lib)} {ctx' : SocketCtx lib}
    (h : saInit lib plat t ctx = .ok ctx') (isV4 : Bool) :
    ((tables (ctx'.saIn.map SaTable.sad)).table isV4).isSome
      = t.saIn.any (countsFamily isV4) := by
  have hin : saInitDirection lib plat t true = .ok ctx'.saIn := by
    cases ctx with
    | none => cases h
    | some ctx =>
        rw [saInit] at h
        split at h
        · cases h
        · split at h
          · cases h
          · cases h1 : saInitDirection lib plat t true with
            | error x =>
                rw [h1] at h
                cases h
            | ok saIn =>
                cases h2 : saInitDirection lib plat t false with
                | error x =>
                    rw [h1, h2] at h
                    cases h
                | ok saOut =>
                    rw [h1, h2] at h
                    obtain rfl := Except.ok.inj h
                    rfl
  by_cases hne : saEntries t true = []
  · have hnone : t.saIn = [] := hne
    rw [saInitDirection] at hin
    dsimp only at hin
    rw [if_pos hne] at hin
    rw [← Except.ok.inj hin, hnone]
    cases isV4 <;> rfl
  · have hgoes : ¬ DirectionEnds lib plat t true := by
      intro hends
      obtain ⟨x, hx⟩ := saInitDirection_ends hends
      rw [hx] at hin
      cases hin
    obtain ⟨tbl, rc, s, htbl, hs, hsas⟩ := saInitDirection_goes_on hne hgoes
    rw [← Except.ok.inj (hsas.symm.trans hin), Option.map_some, tables, Option.getD_some]
    rw [saAddRules_tables hs isV4]
    -- the fresh table has what `ipsec_sad_create` has made
    rw [freshTable] at htbl
    split at htbl
    · cases htbl
    · dsimp only at htbl
      rw [if_pos rfl, Option.map_eq_some_iff] at htbl
      obtain ⟨sad, hsad, rfl⟩ := htbl
      cases hcreate : ipsecSadCreate lib plat t with
      | error x =>
          rw [hcreate] at hsad
          cases hsad
      | ok sad' =>
          rw [hcreate] at hsad
          obtain rfl := Option.some.inj hsad
          exact ipsecSadCreate_tables hcreate isV4

/-- Memory in which the SAs of a socket are where they are. -/
def Holds (ctx : SocketCtx lib) (mem : SaPtr → IpsecSa) : Prop :=
  ∀ tbl, ctx.saIn = some tbl → ∀ p, p < tbl.nbSa → mem p = (tbl.sa p).sa

/-- There is such memory, with a transport SA where nothing has been put. -/
theorem exists_holds (ctx : SocketCtx lib) :
    ∃ mem g, Holds ctx mem ∧ (mem g).flags = transport := by
  cases hin : ctx.saIn with
  | none =>
      refine ⟨fun _ => { flags := transport }, 0, ?_, rfl⟩
      intro tbl htbl
      rw [hin] at htbl
      cases htbl
  | some tbl =>
      refine ⟨fun p => if p < tbl.nbSa then (tbl.sa p).sa else { flags := transport },
        tbl.nbSa, ?_, ?_⟩
      · intro tbl' htbl' p hp
        rw [hin] at htbl'
        obtain rfl := Option.some.inj htbl'
        exact if_pos hp
      · dsimp only
        rw [if_neg (Nat.lt_irrefl _)]

/-- **THE RESULTS** of all lookups come from the tables, whatever memory and
    stack hold, exactly when every packet is of a family with inbound SAs. -/
theorem results_from_tables_iff {ctx : Option (SocketCtx lib)} {ctx' : SocketCtx lib}
    (h : saInit lib plat t ctx = .ok ctx') (nbCacheEnt : UInt32)
    (alloc4 alloc6 : Bool) (errno : Int) (bs : List Traffic) :
    (∀ mem, Holds ctx' mem →
      LookupsRight lib mem (ctx'.saIn.map SaTable.sad)
        (ipsecSadLcoreCacheInit {} nbCacheEnt alloc4 alloc6 errno).2 bs)
      ↔ ∀ b ∈ bs, ∀ i, i < b.num →
        t.saIn.any (countsFamily (isIpv4 (b.pkts i))) = true := by
  have hfam : (∀ b ∈ bs, HasTables (tables (ctx'.saIn.map SaTable.sad)) b)
      ↔ ∀ b ∈ bs, ∀ i, i < b.num →
        t.saIn.any (countsFamily (isIpv4 (b.pkts i))) = true := by
    refine forall₂_congr fun b _ => forall₂_congr fun i _ => ?_
    rw [saInit_tables h]
  have hfresh := cacheIn_init (tables (ctx'.saIn.map SaTable.sad)) nbCacheEnt alloc4
    alloc6 errno
  rw [← hfam]
  constructor
  · intro hright
    obtain ⟨mem, g, hmem, hg⟩ := exists_holds ctx'
    exact tables_of_lookupsRight hg hfresh (hright mem hmem)
  · intro htables mem _
    exact lookupsRight_of_tables htables hfresh

end configuration

/-! ## A family without SAs -/

/-- One inbound SA, an IPv4 tunnel. -/
def oneIpv4 : Tables := { saIn := [SaInit.tunnelSa 5] }

/-- A packet of a family. -/
def oneOf (packetType : UInt32) : Traffic := ⟨fun _ => twoSpis packetType, 1⟩

theorem oneIpv4_accepted :
    ∃ ctx, saInit spiLib plainPlatform oneIpv4 (some {}) = .ok ctx := by
  cases h : saInit spiLib plainPlatform oneIpv4 (some {}) with
  | ok ctx => exact ⟨ctx, rfl⟩
  | error x =>
      have hok : (saInit spiLib plainPlatform oneIpv4 (some {})).toOption.isSome = true :=
        rfl
      rw [h] at hok
      cases hok

theorem results_from_tables_ipv4 :
    ∃ ctx, saInit spiLib plainPlatform oneIpv4 (some {}) = .ok ctx
      ∧ ((∀ mem, Holds ctx mem →
          LookupsRight spiLib mem (ctx.saIn.map SaTable.sad)
            (ipsecSadLcoreCacheInit {} 128 true true 0).2 [oneOf ptypeL3Ipv4])
        ↔ ∀ b ∈ [oneOf ptypeL3Ipv4], ∀ i, i < b.num →
          oneIpv4.saIn.any (countsFamily (isIpv4 (b.pkts i))) = true) := by
  obtain ⟨ctx, h⟩ := oneIpv4_accepted
  exact ⟨ctx, h, results_from_tables_iff h 128 true true 0 _⟩

/-- **GARBAGE**: a configuration with one IPv4 tunnel is accepted, and an IPv6
    packet gets what was on the stack. -/
theorem ipv6_gets_garbage :
    ∃ ctx mem, saInit spiLib plainPlatform oneIpv4 (some {}) = .ok ctx
      ∧ Holds ctx mem
      ∧ ¬ LookupsRight spiLib mem (ctx.saIn.map SaTable.sad)
        (ipsecSadLcoreCacheInit {} 128 true true 0).2 [oneOf ptypeL3Ipv6] := by
  obtain ⟨ctx, h⟩ := oneIpv4_accepted
  obtain ⟨mem, g, hmem, hg⟩ := exists_holds ctx
  refine ⟨ctx, mem, h, hmem, fun hright => ?_⟩
  have htable := tables_of_lookupsRight hg (cacheIn_init _ 128 true true 0) hright
    _ List.mem_cons_self 0 Nat.zero_lt_one
  rw [saInit_tables h] at htable
  exact absurd htable (by decide)

end SadResult
