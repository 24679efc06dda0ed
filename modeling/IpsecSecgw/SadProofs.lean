import IpsecSecgw.SadModel

/-! # What `sad_lookup` finds

    The two loops of `sad_lookup` are unrolled into one statement
    (`sadLookup_apply`): behind the call cell `i` of the result holds what one
    packet gets on its own (`findSa`), except that the UDP header length is a
    variable of the whole burst.  It is set at the first ESP-in-UDP packet and
    never reset, so a plain packet behind it has its SPI read eight bytes too
    far. -/

namespace Sad

open ByteStore SaModel MbufModel Slots SadModel

/-! ## One packet on its own -/

/-- A table's answer is taken when the addresses match. -/
def accepted (mem : SaPtr → IpsecSa) (isV4 : Bool) (m : Mbuf)
    (r : Option SaPtr) : Option SaPtr :=
  r.filter fun p => cmpSaKey (mem p) isV4 m

/-- The SA found for a packet with both tables present: the cached one, else
    the one of its family's table. -/
def findSa (lib : SadLib) (mem : SaPtr → IpsecSa) (cache : SadCache)
    (t4 t6 : lib.Table) (m : Mbuf) (udpHdrLen : Nat) : Option SaPtr :=
  match cacheHit mem cache m udpHdrLen with
  | some p => some p
  | none =>
      accepted mem (isIpv4 m) m
        (lib.lookup (if isIpv4 m then t4 else t6) (sadKey m udpHdrLen))

/-- The UDP header length matters through the SPI it makes the code read. -/
theorem findSa_congr (lib : SadLib) (mem : SaPtr → IpsecSa) (cache : SadCache)
    (t4 t6 : lib.Table) {m : Mbuf} {u v : Nat} (h : espSpi m u = espSpi m v) :
    findSa lib mem cache t4 t6 m u = findSa lib mem cache t4 t6 m v := by
  rw [findSa, findSa, cacheHit, cacheHit, hostSpi, hostSpi, sadKey, sadKey, h]

/-! ## The first loop -/

section loops

variable (mem : SaPtr → IpsecSa) (cache : SadCache) (pkts : Nat → Mbuf)

/-- Is there an ESP-in-UDP packet among the first `n`? -/
def udpSeen (n : Nat) : Bool :=
  (List.range n).any fun j => espInUdp (pkts j)

theorem udpSeen_succ (n : Nat) :
    udpSeen pkts (n + 1) = (udpSeen pkts n || espInUdp (pkts n)) := by
  rw [udpSeen, udpSeen, List.range_succ, List.any_append, List.any_cons,
    List.any_nil, Bool.or_false]

/-- The UDP header length the loop has at packet `i`. -/
def udpAt (i : Nat) : Nat := if udpSeen pkts (i + 1) then 8 else 0

/-- The cache's answer for packet `i` of the burst. -/
def hitAt (i : Nat) : Option SaPtr := cacheHit mem cache (pkts i) (udpAt pkts i)

/-- The packets of the first `n` that the cache answers. -/
def hits (n : Nat) : List Nat :=
  (List.range n).filter fun i => (hitAt mem cache pkts i).isSome

/-- The packets of the first `n` left to the table of a family. -/
def misses (isV4 : Bool) (n : Nat) : List Nat :=
  (List.range n).filter fun i =>
    (hitAt mem cache pkts i).isNone && isIpv4 (pkts i) == isV4

/-- A packet's key with its index. -/
def keyed (i : Nat) : SadKey × Nat := (sadKey (pkts i) (udpAt pkts i), i)

variable {mem cache pkts}

theorem mem_hits {n i : Nat} :
    i ∈ hits mem cache pkts n
      ↔ i < n ∧ (hitAt mem cache pkts i).isSome = true := by
  rw [hits, List.mem_filter, List.mem_range]

theorem mem_misses {isV4 : Bool} {n i : Nat} :
    i ∈ misses mem cache pkts isV4 n
      ↔ i < n ∧ (hitAt mem cache pkts i).isNone = true
        ∧ isIpv4 (pkts i) = isV4 := by
  rw [misses, List.mem_filter, List.mem_range, Bool.and_eq_true, beq_iff_eq]

/-- The state of the first loop after `n` packets. -/
def splitState (mem : SaPtr → IpsecSa) (cache : SadCache) (pkts : Nat → Mbuf)
    (sa : Nat → Option SaPtr) (n : Nat) : SplitState where
  udpHdrLen := if udpSeen pkts n then 8 else 0
  v4 := (misses mem cache pkts true n).map (keyed pkts)
  v6 := (misses mem cache pkts false n).map (keyed pkts)
  sa := scatter (hitAt mem cache pkts) (hits mem cache pkts n) sa

/-- **ONE ITERATION** takes the state of `n` packets to that of one more. -/
theorem splitOne_splitState (sa : Nat → Option SaPtr) (n : Nat) :
    splitOne mem cache pkts n (splitState mem cache pkts sa n)
      = splitState mem cache pkts sa (n + 1) := by
  have hudp : (if espInUdp (pkts n) then 8
      else (splitState mem cache pkts sa n).udpHdrLen) = udpAt pkts n := by
    rw [udpAt, udpSeen_succ]
    show (if espInUdp (pkts n) then 8 else if udpSeen pkts n then 8 else 0) = _
    cases espInUdp (pkts n) <;> cases udpSeen pkts n <;> rfl
  rw [splitOne]
  dsimp only
  rw [hudp]
  rw [splitState, splitState, misses, misses, hits, misses, misses, hits,
    filter_range_succ, filter_range_succ, filter_range_succ]
  have hlen : (if udpSeen pkts (n + 1) then 8 else 0) = udpAt pkts n := rfl
  rw [hlen]
  cases hhit : cacheHit mem cache (pkts n) (udpAt pkts n) with
  | some p =>
      have hat : hitAt mem cache pkts n = some p := hhit
      simp [hat, scatter, List.foldl_append]
  | none =>
      have hat : hitAt mem cache pkts n = none := hhit
      cases hv : isIpv4 (pkts n) with
      | true => simp [hat, keyed]
      | false => simp [hat, keyed]

/-- **THE FIRST LOOP**. -/
theorem forLoop_splitOne (sa : Nat → Option SaPtr) (n : Nat) :
    forLoop (splitOne mem cache pkts) n { sa := sa }
      = splitState mem cache pkts sa n := by
  refine forLoop_inv (fun i s => s = splitState mem cache pkts sa i) rfl ?_
  intro i s _ hs
  rw [hs, splitOne_splitState]

/-! ## The last two loops -/

/-- The answers of a family's table with the indices of the packets. -/
def answers (lib : SadLib) (table : Option lib.Table) (stack : Nat → Option SaPtr)
    (pkts : Nat → Mbuf) (l : List Nat) : List (Option SaPtr × Nat) :=
  (rteIpsecSadLookup lib table stack ((l.map (keyed pkts)).map Prod.fst)).zip
    ((l.map (keyed pkts)).map Prod.snd)

/-- With a table the answers line up with the indices. -/
theorem answers_table (lib : SadLib) (t : lib.Table) (stack : Nat → Option SaPtr)
    (l : List Nat) :
    answers lib (some t) stack pkts l
      = l.map fun i => (lib.lookup t (sadKey (pkts i) (udpAt pkts i)), i) := by
  induction l with
  | nil => rfl
  | cons i l ih => exact congrArg (List.cons _) ih

/-- The loops of `sad_lookup` one after the other. -/
theorem sadLookup_eq (lib : SadLib) (sad : IpsecSad lib)
    (stack4 stack6 sa : Nat → Option SaPtr) (n : Nat) :
    sadLookup lib mem sad cache stack4 stack6 pkts n sa
      = (answers lib sad.sadV6 stack6 pkts (misses mem cache pkts false n)).foldl
          (storeOne mem pkts false)
          ((answers lib sad.sadV4 stack4 pkts (misses mem cache pkts true n)).foldl
            (storeOne mem pkts true)
            (cache, scatter (hitAt mem cache pkts) (hits mem cache pkts n) sa)) := by
  rw [sadLookup, forLoop_splitOne]
  rfl

/-- Storing writes the accepted answers. -/
theorem foldl_storeOne (isV4 : Bool) (f : Nat → Option SaPtr) (l : List Nat)
    (c : SadCache) (sa : Nat → Option SaPtr) :
    ((l.map fun i => (f i, i)).foldl (storeOne mem pkts isV4) (c, sa)).2
      = scatter (fun i => accepted mem isV4 (pkts i) (f i)) l sa := by
  induction l generalizing c sa with
  | nil => rfl
  | cons i l ih =>
      have hone : (storeOne mem pkts isV4 (c, sa) (f i, i)).2
          = Function.update sa i (accepted mem isV4 (pkts i) (f i)) := by
        rw [storeOne, accepted]
        cases f i with
        | none => rfl
        | some p =>
            dsimp only
            rw [Option.filter_some]
            split <;> rfl
      rw [List.map_cons, List.foldl_cons, ← Prod.mk.eta
        (p := storeOne mem pkts isV4 (c, sa) (f i, i)), ih, hone]
      rfl

/-- **ONE CELL**: the cache's answer, else what the family's table answers where
    it is accepted. -/
theorem sadLookup_cell {lib : SadLib} {sad : IpsecSad lib}
    {stack4 stack6 sa f4 f6 : Nat → Option SaPtr} {n i : Nat}
    (h4 : answers lib sad.sadV4 stack4 pkts (misses mem cache pkts true n)
      = (misses mem cache pkts true n).map fun i => (f4 i, i))
    (h6 : answers lib sad.sadV6 stack6 pkts (misses mem cache pkts false n)
      = (misses mem cache pkts false n).map fun i => (f6 i, i)) (hi : i < n) :
    (sadLookup lib mem sad cache stack4 stack6 pkts n sa).2 i
      = match hitAt mem cache pkts i with
        | some p => some p
        | none => accepted mem (isIpv4 (pkts i)) (pkts i)
            (if isIpv4 (pkts i) then f4 i else f6 i) := by
  rw [sadLookup_eq, h4, h6]
  rw [← Prod.mk.eta (p := List.foldl (storeOne mem pkts true) _ _),
    foldl_storeOne, foldl_storeOne, scatter_apply, scatter_apply,
    scatter_apply]
  cases hat : hitAt mem cache pkts i with
  | some p =>
      rw [if_neg, if_neg, if_pos]
      · rw [mem_hits, hat]
        exact ⟨hi, rfl⟩
      · rw [mem_misses, hat]
        rintro ⟨-, h, -⟩
        cases h
      · rw [mem_misses, hat]
        rintro ⟨-, h, -⟩
        cases h
  | none =>
      cases hv : isIpv4 (pkts i) with
      | true =>
          rw [if_neg, if_pos]
          · rfl
          · rw [mem_misses, hat]
            exact ⟨hi, rfl, hv⟩
          · rw [mem_misses, hv]
            rintro ⟨-, -, h⟩
            cases h
      | false =>
          rw [if_pos]
          · rfl
          · rw [mem_misses, hat]
            exact ⟨hi, rfl, hv⟩

/-- **THE RESULT**: with both tables present, cell `i` holds what packet `i`
    gets with the UDP header length of its place in the burst. -/
theorem sadLookup_apply (lib : SadLib) (t4 t6 : lib.Table)
    (stack4 stack6 sa : Nat → Option SaPtr) {n i : Nat} (hi : i < n) :
    (sadLookup lib mem ⟨some t4, some t6⟩ cache stack4 stack6 pkts n sa).2 i
      = findSa lib mem cache t4 t6 (pkts i) (udpAt pkts i) := by
  rw [sadLookup_cell (answers_table lib t4 stack4 _) (answers_table lib t6 stack6 _) hi,
    findSa, hitAt]
  cases cacheHit mem cache (pkts i) (udpAt pkts i) with
  | some p => rfl
  | none => cases isIpv4 (pkts i) <;> rfl

end loops

/-! ## Entering a SA -/

section entering

variable {lib : SadLib}

/-- What a family answers; without a table nothing. -/
def answer (lib : SadLib) (table : Option lib.Table) (k : SadKey) : Option SaPtr :=
  table.bind fun t => lib.lookup t k

/-- A family takes a SA: it has a table without the SPI, and the library has
    nothing against the new rule. -/
def Accepts (lib : SadLib) (table : Option lib.Table) (key : SadKey) (p : SaPtr) :
    Prop :=
  ∃ t, table = some t ∧ lib.lookup t key = none ∧ (lib.add t key p).1 = 0

/-- A SA that is taken answers for its SPI from then on. -/
theorem addFamily_accepted {table : Option lib.Table} {key : SadKey} {p : SaPtr}
    (h : Accepts lib table key p) :
    (addFamily lib table key p).1 = 0 ∧ answer lib table key = none ∧
      ∀ k, answer lib (addFamily lib table key p).2 k
        = if k.spi = key.spi then some p else answer lib table k := by
  obtain ⟨t, rfl, hnone, hrc⟩ := h
  rw [addFamily, hnone, if_neg (by decide)]
  exact ⟨hrc, hnone, lib.lookup_add t key p hrc hnone⟩

/-- One that is refused changes nothing. -/
theorem addFamily_refused {table : Option lib.Table} {key : SadKey} {p : SaPtr}
    (h : ¬ Accepts lib table key p) :
    (addFamily lib table key p).1 ≠ 0 ∧
      ∀ k, answer lib (addFamily lib table key p).2 k = answer lib table k := by
  cases table with
  | none => exact ⟨show einval ≠ 0 by decide, fun _ => rfl⟩
  | some t =>
      rw [addFamily]
      cases hfound : lib.lookup t key with
      | some q => exact ⟨show eexist ≠ 0 by decide, fun _ => rfl⟩
      | none =>
          have hrc : (lib.add t key p).1 ≠ 0 := fun hrc => h ⟨t, rfl, hfound, hrc⟩
          exact ⟨hrc, lib.lookup_refused t key p hrc⟩

theorem addFamily_isSome (table : Option lib.Table) (key : SadKey) (p : SaPtr) :
    (addFamily lib table key p).2.isSome = table.isSome := by
  cases table with
  | none => rfl
  | some t =>
      rw [addFamily]
      split <;> rfl

/-- The mode of a SA, or a rule with its SPI, selects a family. -/
def selects (t : Tables) (sa : IpsecSa) (isV4 : Bool) : Bool :=
  let mode := withoutTransportVersion sa.flags
  if isV4 then
    mode == ip4Tunnel || mode == transport
      && decide (0 ≤ SpiSearch.sp4SpiPresent t sa.spi true)
  else
    mode == ip6Tunnel || mode == transport
      && decide (0 ≤ SpiSearch.sp6SpiPresent t sa.spi true)

/-- The key of a SA in a family. -/
def keyOf (sa : IpsecSa) (isV4 : Bool) : SadKey :=
  let n := if isV4 then 4 else 16
  ⟨toBe 4 sa.spi.toNat, List.replicate n 0, List.replicate n 0⟩

/-- Enter a SA into a family when it is selected. -/
def addWhere (lib : SadLib) (c : Bool) (table : Option lib.Table) (key : SadKey)
    (p : SaPtr) : Int × Option lib.Table :=
  if c then addFamily lib table key p else (0, table)

/-- **ENTERING** is one family after the other, whatever the mode. -/
theorem ipsecSadAdd_eq (t : Tables) (mem : SaPtr → IpsecSa)
    (sad : IpsecSad lib) (p : SaPtr) :
    ipsecSadAdd lib t mem sad p
      = (let r4 := addWhere lib (selects t (mem p) true) sad.sadV4
          (keyOf (mem p) true) p
        let r6 := addWhere lib (selects t (mem p) false) sad.sadV6
          (keyOf (mem p) false) p
        if r4.1 ≠ 0 then (r4.1, { sad with sadV4 := r4.2 })
        else (r6.1, ⟨r4.2, r6.2⟩)) := by
  -- the branches of the code, without its shared tail
  have hkeys : ipsecSadAdd lib t mem sad p
      = (let a4 := addFamily lib sad.sadV4 (keyOf (mem p) true) p
        let a6 := addFamily lib sad.sadV6 (keyOf (mem p) false) p
        let mode := withoutTransportVersion (mem p).flags
        if mode = ip4Tunnel then (a4.1, { sad with sadV4 := a4.2 })
        else if mode = ip6Tunnel then (a6.1, { sad with sadV6 := a6.2 })
        else if mode = transport then
          let r4 := if 0 ≤ SpiSearch.sp4SpiPresent t (mem p).spi true then a4
            else (0, sad.sadV4)
          if r4.1 ≠ 0 then (r4.1, { sad with sadV4 := r4.2 })
          else if 0 ≤ SpiSearch.sp6SpiPresent t (mem p).spi true then
            (a6.1, ⟨r4.2, a6.2⟩)
          else (0, { sad with sadV4 := r4.2 })
        else (0, sad)) := rfl
  rw [hkeys, selects, selects, addWhere, addWhere]
  generalize addFamily lib sad.sadV4 _ p = a4
  generalize addFamily lib sad.sadV6 _ p = a6
  generalize withoutTransportVersion (mem p).flags = mode
  dsimp only
  -- one mode after the other
  by_cases h4 : mode = ip4Tunnel
  · subst h4
    have h46 : (ip4Tunnel == ip6Tunnel) = false := by decide
    have h4t : (ip4Tunnel == transport) = false := by decide
    simp only [h46, h4t, beq_self_eq_true, Bool.false_and, Bool.or_false, if_true,
      Bool.false_eq_true, if_false]
    split
    · rfl
    · rename_i hrc
      rw [not_not.mp hrc]
  · have h4' : (mode == ip4Tunnel) = false := beq_eq_false_iff_ne.mpr h4
    by_cases h6 : mode = ip6Tunnel
    · subst h6
      have h6t : (ip6Tunnel == transport) = false := by decide
      simp [h4, h4', h6t]
    · have h6' : (mode == ip6Tunnel) = false := beq_eq_false_iff_ne.mpr h6
      by_cases htr : mode = transport
      · subst htr
        simp only [h4, h6, h4', h6', beq_self_eq_true, Bool.true_and, Bool.false_or,
          if_true, if_false, decide_eq_true_iff, Bool.false_eq_true]
        by_cases hrule : 0 ≤ SpiSearch.sp6SpiPresent t (mem p).spi true
        · rw [if_pos hrule, if_pos hrule]
        · rw [if_neg hrule, if_neg hrule]
      · have htr' : (mode == transport) = false := beq_eq_false_iff_ne.mpr htr
        simp [h4, h6, htr, h4', h6', htr']

end entering

/-! ## Independence of the burst -/

/-- No plain packet behind an ESP-in-UDP packet has another word eight bytes
    behind its SPI. -/
def SpiKept (pkts : Nat → Mbuf) (n : Nat) : Prop :=
  ∀ i, i < n → ∀ j, j < i → espInUdp (pkts j) = true →
    espInUdp (pkts i) = false → espSpi (pkts i) 8 = espSpi (pkts i) 0

/-- A packet alone is read with its own UDP header length. -/
theorem udpAt_single (m : Mbuf) :
    udpAt (fun _ => m) 0 = if espInUdp m then 8 else 0 := by
  rw [udpAt, udpSeen_succ]
  rfl

/-- A packet in a burst is read so too unless it is a plain one behind an
    ESP-in-UDP packet. -/
theorem udpAt_eq (pkts : Nat → Mbuf) (i : Nat) :
    udpAt pkts i = (if espInUdp (pkts i) then 8 else 0)
      ∨ udpAt pkts i = 8 ∧ espInUdp (pkts i) = false
        ∧ ∃ j, j < i ∧ espInUdp (pkts j) = true := by
  rw [udpAt, udpSeen_succ]
  cases hown : espInUdp (pkts i) with
  | true =>
      left
      rw [Bool.or_true]
  | false =>
      rw [Bool.or_false]
      cases hseen : udpSeen pkts i with
      | false =>
          left
          rfl
      | true =>
          right
          rw [udpSeen, List.any_eq_true] at hseen
          obtain ⟨j, hj, hudp⟩ := hseen
          exact ⟨rfl, rfl, j, List.mem_range.mp hj, hudp⟩

/-- Tables that are functions of the SPI. -/
def spiLib : SadLib where
  Table := List UInt8 → Option SaPtr
  empty := fun _ => none
  lookup := fun t k => t k.spi
  add := fun t k p => (0, fun spi => if spi = k.spi then some p else t spi)
  lookup_empty := fun _ => rfl
  lookup_add := fun _ _ _ _ _ _ => rfl
  lookup_refused := fun _ _ _ h => absurd rfl h

/-- The table of one SA. -/
def oneSa (spi : List UInt8) (p : SaPtr) : spiLib.Table :=
  fun s => if s = spi then some p else none

/-- Transport SAs match any address. -/
theorem cmpSaKey_transport {sa : IpsecSa} (h : sa.flags = transport)
    (isV4 : Bool) (m : Mbuf) : cmpSaKey sa isV4 m = true := by
  rw [cmpSaKey, h]
  rfl

/-- With the cache disabled, one transport SA in both tables is found exactly
    by its SPI. -/
theorem findSa_oneSa (spi : List UInt8) (p : SaPtr) (m : Mbuf) (u : Nat) :
    findSa spiLib (fun _ => { flags := transport }) {} (oneSa spi p)
        (oneSa spi p) m u
      = if espSpi m u = spi then some p else none := by
  have hmiss : cacheHit (fun _ => { flags := transport }) {} m u = none := rfl
  have hlookup : spiLib.lookup (oneSa spi p) (sadKey m u)
      = if espSpi m u = spi then some p else none := rfl
  rw [findSa, hmiss]
  dsimp only
  rw [ite_self, hlookup, accepted]
  by_cases h : espSpi m u = spi
  · rw [if_pos h, Option.filter_some, cmpSaKey_transport rfl, if_pos rfl]
  · rw [if_neg h, Option.filter_none]

/-- **BURST INDEPENDENCE**: whatever the tables, the cache and the SAs, every
    packet of a burst gets the SA it would get alone, exactly when no plain
    packet behind an ESP-in-UDP packet has its SPI misread. -/
theorem burst_independent_iff (pkts : Nat → Mbuf) (n : Nat) :
    (∀ (lib : SadLib) (mem : SaPtr → IpsecSa) (t4 t6 : lib.Table)
        (cache : SadCache) (stack4 stack6 sa : Nat → Option SaPtr) (i : Nat),
      i < n →
      (sadLookup lib mem ⟨some t4, some t6⟩ cache stack4 stack6 pkts n sa).2 i
        = (sadLookup lib mem ⟨some t4, some t6⟩ cache stack4 stack6
            (fun _ => pkts i) 1 sa).2 0)
      ↔ SpiKept pkts n := by
  constructor
  · intro h i hi j hj hudp hplain
    have hone := h spiLib (fun _ => { flags := transport })
      (oneSa (espSpi (pkts i) 0) 0) (oneSa (espSpi (pkts i) 0) 0) {}
      (fun _ => none) (fun _ => none) (fun _ => none) i hi
    have hat : udpAt pkts i = 8 := by
      have hseen : udpSeen pkts (i + 1) = true := by
        rw [udpSeen, List.any_eq_true]
        exact ⟨j, List.mem_range.mpr (Nat.lt_succ_of_lt hj), hudp⟩
      rw [udpAt, if_pos hseen]
    rw [sadLookup_apply _ _ _ _ _ _ hi,
      sadLookup_apply _ _ _ _ _ _ Nat.zero_lt_one, udpAt_single, hplain,
      if_neg Bool.false_ne_true, findSa_oneSa, findSa_oneSa, hat,
      if_pos rfl] at hone
    by_cases hspi : espSpi (pkts i) 8 = espSpi (pkts i) 0
    · exact hspi
    · rw [if_neg hspi] at hone
      cases hone
  · intro h lib mem t4 t6 cache stack4 stack6 sa i hi
    rw [sadLookup_apply _ _ _ _ _ _ hi,
      sadLookup_apply _ _ _ _ _ _ Nat.zero_lt_one, udpAt_single]
    rcases udpAt_eq pkts i with hown | ⟨hat, hplain, j, hj, hudp⟩
    · rw [hown]
    · rw [hat, hplain]
      exact findSa_congr lib mem cache t4 t6 (h i hi j hj hudp hplain)

/-- An IPv4 packet with SPI 7 behind twenty bytes of header and SPI 9 eight
    bytes further on. -/
def twoSpis (packetType : UInt32) : Mbuf :=
  { Mbuf.mid (store (store (fun _ => 0) 148 [0, 0, 0, 7]) 156 [0, 0, 0, 9]) 60
      with
    packetType := packetType
    l3Len := 20 }

/-- **THE LEAK**: behind an ESP-in-UDP packet a plain packet with SPI 7 finds
    no SA, alone it finds the SA with that SPI. -/
theorem burst_leaks :
    let pkts : Nat → Mbuf := fun i =>
      if i = 0 then twoSpis 0x9210 else twoSpis 0x10
    let table := oneSa [0, 0, 0, 7] 3
    let find := fun pkts n => (sadLookup spiLib
      (fun _ => { spi := 7, flags := transport }) ⟨some table, some table⟩ {}
      (fun _ => none) (fun _ => none) pkts n (fun _ => none)).2
    find pkts 2 1 = none ∧ find (fun _ => pkts 1) 1 0 = some 3 := by
  decide

end Sad
