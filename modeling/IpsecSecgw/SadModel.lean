import IpsecSecgw.Lib.Slots
import IpsecSecgw.MbufModel
import IpsecSecgw.SpiSearchProofs

/-! # The security association database

    `sad.h` and `sad.c`: the two family tables, how SAs are entered, the
    lcore's cache in front of the tables, and `sad_lookup`, which finds the SA
    of every packet of a burst.

    The tables are `librte_ipsec`'s; the gateway enters SPI-only rules and
    nothing else, and what it relies on then are the laws of `SadLib`.  A
    pointer to an SA is its place in the memory of SAs `mem`. -/

namespace SadModel

open ByteStore SaModel MbufModel SpiSearch Slots

/-! ## Tables -/

/-- `union rte_ipsec_sad_key`, in memory order. -/
structure SadKey where
  spi : List UInt8
  dip : List UInt8
  sip : List UInt8

/-- A table of `librte_ipsec` with SPI-only rules: a rule that is added
    answers every later key with its SPI, a refused one changes nothing. -/
structure SadLib where
  Table : Type
  empty : Table
  lookup : Table → SadKey → Option SaPtr
  add : Table → SadKey → SaPtr → Int × Table
  lookup_empty : ∀ k, lookup empty k = none
  lookup_add : ∀ t k p, (add t k p).1 = 0 → lookup t k = none →
    ∀ k', lookup (add t k p).2 k'
      = if k'.spi = k.spi then some p else lookup t k'
  lookup_refused : ∀ t k p, (add t k p).1 ≠ 0 →
    ∀ k', lookup (add t k p).2 k' = lookup t k'

/-- `struct ipsec_sad`; a family without SAs has no table. -/
structure IpsecSad (lib : SadLib) where
  sadV4 : Option lib.Table := none
  sadV6 : Option lib.Table := none

/-- The table of a family. -/
def IpsecSad.table {lib : SadLib} (sad : IpsecSad lib) (isV4 : Bool) :
    Option lib.Table :=
  if isV4 then sad.sadV4 else sad.sadV6

/-- Enter an SA into one family unless its SPI is there already.  Without a
    table the library refuses. -/
def addFamily (lib : SadLib) (table : Option lib.Table) (key : SadKey)
    (sa : SaPtr) : Int × Option lib.Table :=
  match table with
  | none => (einval, none)
  | some t =>
      if (lib.lookup t key).isSome then (eexist, some t)
      else ((lib.add t key sa).1, some (lib.add t key sa).2)

/-- `ipsec_sad_add`. -/
def ipsecSadAdd (lib : SadLib) (t : Tables) (mem : SaPtr → IpsecSa)
    (sad : IpsecSad lib) (sa : SaPtr) : Int × IpsecSad lib :=
  let spi := toBe 4 (mem sa).spi.toNat
  let key4 : SadKey := ⟨spi, List.replicate 4 0, List.replicate 4 0⟩
  let key6 : SadKey := ⟨spi, List.replicate 16 0, List.replicate 16 0⟩
  let mode := withoutTransportVersion (mem sa).flags
  if mode = ip4Tunnel then
    let r := addFamily lib sad.sadV4 key4 sa
    (r.1, { sad with sadV4 := r.2 })
  else if mode = ip6Tunnel then
    let r := addFamily lib sad.sadV6 key6 sa
    (r.1, { sad with sadV6 := r.2 })
  else if mode = transport then
    let r4 :=
      if 0 ≤ sp4SpiPresent t (mem sa).spi true then
        addFamily lib sad.sadV4 key4 sa
      else (0, sad.sadV4)
    let sad := { sad with sadV4 := r4.2 }
    if r4.1 ≠ 0 then (r4.1, sad)
    else if 0 ≤ sp6SpiPresent t (mem sa).spi true then
      let r6 := addFamily lib sad.sadV6 key6 sa
      (r6.1, { sad with sadV6 := r6.2 })
    else (0, sad)
  else (0, sad)

/-! ## The cache of a lcore -/

/-- `struct ipsec_sad_cache`: two arrays of slots and the index mask. -/
structure SadCache where
  v4 : List (Option SaPtr) := []
  v6 : List (Option SaPtr) := []
  mask : UInt32 := 0

/-- The slots of a family. -/
def SadCache.slots (c : SadCache) (isV4 : Bool) : List (Option SaPtr) :=
  if isV4 then c.v4 else c.v6

/-- `SPI2IDX`. -/
def spi2idx (spi mask : UInt32) : Nat := (spi &&& mask).toNat

/-- `rte_combine32ms1b`: every bit below the highest one is set. -/
def rteCombine32ms1b (x : UInt32) : UInt32 :=
  let x := x ||| x >>> 1
  let x := x ||| x >>> 2
  let x := x ||| x >>> 4
  let x := x ||| x >>> 8
  x ||| x >>> 16

/-- `rte_align32pow2`. -/
def rteAlign32pow2 (x : UInt32) : UInt32 := rteCombine32ms1b (x - 1) + 1

/-- `ipsec_sad_lcore_cache_init`: slots for both families, all null.  `alloc4`
    and `alloc6` say whether memory was found, `errno` what is reported when
    it was not; the mask stays zero then. -/
def ipsecSadLcoreCacheInit (cache : SadCache) (nbCacheEnt : UInt32)
    (alloc4 alloc6 : Bool) (errno : Int) : Int × SadCache :=
  let cacheElem := rteAlign32pow2 nbCacheEnt
  let slots := List.replicate cacheElem.toNat none
  if cacheElem = 0 then (0, cache)
  else if !alloc4 then (-errno, cache)
  else if !alloc6 then (-errno, { cache with v4 := slots })
  else (0, { v4 := slots, v6 := slots, mask := cacheElem - 1 })

/-- `sa_cache_update` for one family. -/
def saCacheUpdate (cache : SadCache) (isV4 : Bool) (mem : SaPtr → IpsecSa)
    (sa : SaPtr) : SadCache :=
  if cache.mask = 0 then cache
  else if isV4 then
    { cache with v4 := cache.v4.set (spi2idx (mem sa).spi cache.mask) (some sa) }
  else
    { cache with v6 := cache.v6.set (spi2idx (mem sa).spi cache.mask) (some sa) }

/-! ## One packet -/

/-- `packet_type & RTE_PTYPE_L3_IPV4`. -/
def isIpv4 (m : Mbuf) : Bool := m.packetType &&& ptypeL3Ipv4 != 0

/-- The tunnel and L4 types are `MBUF_PTYPE_TUNNEL_ESP_IN_UDP`. -/
def espInUdp (m : Mbuf) : Bool :=
  m.packetType &&& (ptypeTunnelMask ||| ptypeL4Mask)
    == ptypeTunnelEsp ||| ptypeL4Udp

/-- `esp->spi` in memory order, with the ESP header behind `udpHdrLen` bytes
    of UDP header. -/
def espSpi (m : Mbuf) (udpHdrLen : Nat) : List UInt8 :=
  load m.buf (m.dataOff + (m.l3Len + udpHdrLen)) 4

/-- `rte_be_to_cpu_32(esp->spi)`. -/
def hostSpi (m : Mbuf) (udpHdrLen : Nat) : UInt32 :=
  UInt32.ofNat (ofBe (espSpi m udpHdrLen))

/-- The addresses of the outer header. -/
def srcAddr (m : Mbuf) (isV4 : Bool) : List UInt8 :=
  if isV4 then load m.buf (m.dataOff + 12) 4
  else load m.buf (m.dataOff + 8) 16

def dstAddr (m : Mbuf) (isV4 : Bool) : List UInt8 :=
  if isV4 then load m.buf (m.dataOff + 16) 4
  else load m.buf (m.dataOff + 24) 16

/-- The key `sad_lookup` prepares for a packet. -/
def sadKey (m : Mbuf) (udpHdrLen : Nat) : SadKey :=
  ⟨espSpi m udpHdrLen, dstAddr m (isIpv4 m), srcAddr m (isIpv4 m)⟩

/-- `cmp_sa_key`. -/
def cmpSaKey (sa : IpsecSa) (isV4 : Bool) (m : Mbuf) : Bool :=
  let saType := withoutTransportVersion sa.flags
  saType == transport
    || (isV4 && saType == ip4Tunnel && sa.src.ip4 == srcAddr m true
      && sa.dst.ip4 == dstAddr m true)
    || (!isV4 && saType == ip6Tunnel && sa.src.bytes == srcAddr m false
      && sa.dst.bytes == dstAddr m false)

/-- The cached SA of the packet's slot, when it is the packet's. -/
def cacheHit (mem : SaPtr → IpsecSa) (cache : SadCache) (m : Mbuf)
    (udpHdrLen : Nat) : Option SaPtr :=
  let spi := hostSpi m udpHdrLen
  let cachedSa :=
    if cache.mask ≠ 0 then
      (cache.slots (isIpv4 m))[spi2idx spi cache.mask]?.join
    else none
  match cachedSa with
  | none => none
  | some p =>
      if (mem p).spi = spi ∧ cmpSaKey (mem p) (isIpv4 m) m = true then some p
      else none

/-! ## Bursts -/

/-- The local variables of the first loop of `sad_lookup`: keys and packet
    indices of the two families, and the results of the cache. -/
structure SplitState where
  udpHdrLen : Nat := 0
  v4 : List (SadKey × Nat) := []
  v6 : List (SadKey × Nat) := []
  sa : Nat → Option SaPtr

/-- One iteration of the first loop: a cache hit is stored, anything else is
    put down for its family's table. -/
def splitOne (mem : SaPtr → IpsecSa) (cache : SadCache) (pkts : Nat → Mbuf)
    (i : Nat) (s : SplitState) : SplitState :=
  let m := pkts i
  let udp := if espInUdp m then 8 else s.udpHdrLen
  let s := { s with udpHdrLen := udp }
  match cacheHit mem cache m udp with
  | some p => { s with sa := Function.update s.sa i (some p) }
  | none =>
      if isIpv4 m then { s with v4 := s.v4 ++ [(sadKey m udp, i)] }
      else { s with v6 := s.v6 ++ [(sadKey m udp, i)] }

/-- `rte_ipsec_sad_lookup`: one result a key.  Without a table nothing is
    written, and the result array holds what was on the stack. -/
def rteIpsecSadLookup (lib : SadLib) (table : Option lib.Table)
    (stack : Nat → Option SaPtr) (keys : List SadKey) : List (Option SaPtr) :=
  match table with
  | none => cells stack keys.length
  | some t => keys.map (lib.lookup t)

/-- One iteration of the last two loops: an SA whose key matches is stored and
    cached. -/
def storeOne (mem : SaPtr → IpsecSa) (pkts : Nat → Mbuf) (isV4 : Bool)
    (s : SadCache × (Nat → Option SaPtr)) (r : Option SaPtr × Nat) :
    SadCache × (Nat → Option SaPtr) :=
  match r.1 with
  | none => (s.1, Function.update s.2 r.2 none)
  | some p =>
      if cmpSaKey (mem p) isV4 (pkts r.2) then
        (saCacheUpdate s.1 isV4 mem p, Function.update s.2 r.2 (some p))
      else (s.1, Function.update s.2 r.2 none)

/-- `sad_lookup`: the cache and the array `sa` behind the call. -/
def sadLookup (lib : SadLib) (mem : SaPtr → IpsecSa) (sad : IpsecSad lib)
    (cache : SadCache) (stack4 stack6 : Nat → Option SaPtr)
    (pkts : Nat → Mbuf) (nbPkts : Nat) (sa : Nat → Option SaPtr) :
    SadCache × (Nat → Option SaPtr) :=
  let s := forLoop (splitOne mem cache pkts) nbPkts { sa := sa }
  let v4Res :=
    rteIpsecSadLookup lib sad.sadV4 stack4 (s.v4.map Prod.fst)
  let v6Res :=
    rteIpsecSadLookup lib sad.sadV6 stack6 (s.v6.map Prod.fst)
  let r := (v4Res.zip (s.v4.map Prod.snd)).foldl (storeOne mem pkts true)
    (cache, s.sa)
  (v6Res.zip (s.v6.map Prod.snd)).foldl (storeOne mem pkts false) r

/-- `inbound_sa_lookup`: the SA of a packet that the hardware has not
    processed is marked when it has fallback sessions. -/
def markFallback (mem : SaPtr → IpsecSa) (m : Mbuf) (sa : Option SaPtr) :
    Option (SaPtr × Bool) :=
  sa.map fun p =>
    (p, m.olFlags &&& rxSecOffload == 0
      && decide (0 < (mem p).fallbackSessions))

/-- `inbound_sa_lookup` for the SAs of a socket.  Without any, `sa_ctx` is null,
    and its tables are read as soon as a packet is left to them: `none`. -/
def inboundSaLookup (lib : SadLib) (mem : SaPtr → IpsecSa)
    (saCtx : Option (IpsecSad lib)) (cache : SadCache)
    (stack4 stack6 : Nat → Option SaPtr) (pkts : Nat → Mbuf) (nbPkts : Nat)
    (saArr : Nat → Option SaPtr) :
    Option (SadCache × (Nat → Option (SaPtr × Bool))) :=
  let r :=
    match saCtx with
    | some sad => some (sadLookup lib mem sad cache stack4 stack6 pkts nbPkts saArr)
    | none =>
        let s := forLoop (splitOne mem cache pkts) nbPkts { sa := saArr }
        if s.v4.isEmpty && s.v6.isEmpty then some (cache, s.sa) else none
  r.map fun r => (r.1, fun i =>
    if i < nbPkts then markFallback mem (pkts i) (r.2 i)
    else (r.2 i).map fun p => (p, false))

end SadModel
