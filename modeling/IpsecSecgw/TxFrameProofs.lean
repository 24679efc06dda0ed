import IpsecSecgw.PollModel
import IpsecSecgw.ChecksumProofs
import IpsecSecgw.IpHeaderProofs

/-! # The frame that is sent

    `prepare_tx_pkt` puts an Ethernet header in front of a packet and leaves the
    IPv4 checksum to the NIC where the port can compute it.  What it tells the
    NIC is a header of twenty bytes, whatever the packet has; in software the
    whole header is summed. -/

namespace TxFrame

open ByteStore SaModel MbufModel WorkerModel SecgwModel OnesSum Checksum IpHeader

variable {tx : TxConf} {port : Nat} {m : Mbuf}

/-! ## What is asked of the libraries -/

/-- `rte_ipv4_cksum` is the complement of the sum of the header, options
    included, and an Ethernet address has six bytes. -/
structure TxLaws (tx : TxConf) : Prop where
  cksum : ∀ b a, tx.ipv4Cksum b a
    = toBe 2 (ones16 - fold ones16 (wordSum b a (2 * ipHl b a)))
  addrs : ∀ p, (tx.ethaddrTbl p).1.length = 6 ∧ (tx.ethaddrTbl p).2.length = 6

/-! ## A frame as it should be -/

/-- The bytes of the IPv4 checksum. -/
def ChecksumByte (m : Mbuf) (i : Nat) : Prop :=
  ipV m.buf m.dataOff = 4 ∧ (i = m.dataOff + 10 ∨ i = m.dataOff + 11)

/-- The packet of `m` behind an Ethernet header. -/
structure Framed (tx : TxConf) (port : Nat) (m m' : Mbuf) : Prop where
  dataOff : m'.dataOff + rteEtherHdrLen = m.dataOff
  dataLen : m'.dataLen = m.dataLen + rteEtherHdrLen
  dst : load m'.buf m'.dataOff 6 = (tx.ethaddrTbl port).2
  src : load m'.buf (m'.dataOff + 6) 6 = (tx.ethaddrTbl port).1
  type : etherType m' = if ipV m.buf m.dataOff = 4 then etherTypeIpv4 else etherTypeIpv6
  packet : ∀ i, m.dataOff ≤ i → i < m.dataOff + m.dataLen → ¬ ChecksumByte m i →
    m'.buf i = m.buf i

/-- The checksum is correct, or left to a NIC that is told the lengths. -/
def ChecksumDone (m m' : Mbuf) : Prop :=
  HeaderOk m'.buf m.dataOff ∨ word m'.buf (m.dataOff + 10) = 0
    ∧ m'.olFlags &&& txIpCksum ≠ 0 ∧ m'.l2Len = rteEtherHdrLen
    ∧ m'.l3Len = ipHl m.buf m.dataOff * 4

/-- The packet is finished. -/
def Finished (tx : TxConf) (port : Nat) (m : Mbuf) : Prop :=
  ∃ m', prepareTxPkt tx port m = some m' ∧ Framed tx port m m'
    ∧ (ipV m.buf m.dataOff = 4 → ChecksumDone m m')

/-! ## Software checksums -/

/-- The packet without its checksum. -/
def zeroed (m : Mbuf) : Nat → UInt8 := store m.buf (m.dataOff + 10) [0, 0]

theorem zeroed_first (m : Mbuf) : zeroed m m.dataOff = m.buf m.dataOff :=
  store_outside _ (by simp)

theorem zeroed_word (m : Mbuf) : word (zeroed m) (m.dataOff + 10) = 0 := by
  have h := word_storeBe m.buf (m.dataOff + 10) 0
  exact h

/-- **THE SOFTWARE CHECKSUM** is correct for any options. -/
theorem headerOk_cksum {b : Nat → UInt8} {a : Nat} (h : Ipv4Header b a)
    (hzero : word b (a + 10) = 0) :
    HeaderOk (store b (a + 10)
      (toBe 2 (ones16 - fold ones16 (wordSum b a (2 * ipHl b a))))) a := by
  obtain ⟨hle, hmod, -⟩ := fold_spec (show 0 < ones16 by decide)
    (wordSum b a (2 * ipHl b a))
  generalize hc : ones16 - fold ones16 (wordSum b a (2 * ipHl b a)) = c
  have hout : ∀ i, i < a + 10 ∨ a + 12 ≤ i → store b (a + 10) (toBe 2 c) i = b i := by
    intro i hi
    refine store_outside _ ?_
    rw [length_toBe]
    omega
  have hfirst : store b (a + 10) (toBe 2 c) a = b a := hout a (.inl (by omega))
  have hsame : ∀ d n, (∀ i, d ≤ i → i < d + 2 * n → i < a + 10 ∨ a + 12 ≤ i) →
      wordSum (store b (a + 10) (toBe 2 c)) d n = wordSum b d n :=
    fun d n hd => wordSum_congr fun i hlo hhi => hout i (hd i hlo hhi)
  have httl : word (store b (a + 10) (toBe 2 c)) (a + 8) = word b (a + 8) :=
    word_congr (hout _ (.inl (by omega))) (hout _ (.inl (by omega)))
  have hhead : word (store b (a + 10) (toBe 2 c)) a = word b a :=
    word_congr hfirst (hout _ (.inl (by omega)))
  have hlen : ipHl (store b (a + 10) (toBe 2 c)) a = ipHl b a := by
    rw [ipHl, ipHl, hfirst]
  have hsmall : c % 0x10000 = c := Nat.mod_eq_of_lt (by
    have : ones16 = 0xffff := rfl
    omega)
  rw [headerOk_iff (h.congr hfirst), headerSum_split _ (h.congr hfirst).ihl, hlen, httl,
    hhead, hsame (a + 2) 3 (by omega), hsame (a + 12) _ (by omega), word_storeBe, hsmall]
  rw [headerSum_split b h.ihl, hzero] at hc hmod hle
  generalize wordSum b (a + 2) 3 = front at hc hmod hle ⊢
  generalize wordSum b (a + 12) (2 * ipHl b a - 6) = rest at hc hmod hle ⊢
  generalize fold ones16 _ = s at hc hmod hle
  rw [ones16] at hc hmod hle ⊢
  omega

/-! ## What `prepare_tx_pkt` does -/

/-- The checksum of the packet is left to the NIC. -/
def Offloaded (tx : TxConf) (m : Mbuf) : Prop :=
  (m.olFlags ||| tx.ipv4Offloads) &&& txIpCksum ≠ 0

instance (tx : TxConf) (m : Mbuf) : Decidable (Offloaded tx m) :=
  inferInstanceAs (Decidable (_ ≠ _))

/-- The packet as it is behind the Ethernet header. -/
def packetBuf (tx : TxConf) (m : Mbuf) : Nat → UInt8 :=
  if ipV m.buf m.dataOff = 4 then
    if Offloaded tx m then zeroed m
    else store (zeroed m) (m.dataOff + 10) (tx.ipv4Cksum (zeroed m) m.dataOff)
  else m.buf

/-- An Ethernet header at `eth`. -/
def ethernet (tx : TxConf) (port type : Nat) (eth : Nat) (b : Nat → UInt8) : Nat → UInt8 :=
  store (store (store b (eth + 12) (toBe 2 type)) (eth + 6) (tx.ethaddrTbl port).1) eth
    (tx.ethaddrTbl port).2

/-- The ether type of a packet. -/
def typeOf (m : Mbuf) : Nat :=
  if ipV m.buf m.dataOff = 4 then etherTypeIpv4 else etherTypeIpv6

/-- **WITH ROOM** for an Ethernet header. -/
theorem prepareTxPkt_eq (tx : TxConf) (port : Nat) (hroom : rteEtherHdrLen ≤ m.dataOff) :
    ∃ m', prepareTxPkt tx port m = some m'
      ∧ m'.dataOff = m.dataOff - rteEtherHdrLen
      ∧ m'.dataLen = m.dataLen + rteEtherHdrLen
      ∧ m'.buf = ethernet tx port (typeOf m) (m.dataOff - rteEtherHdrLen) (packetBuf tx m)
      ∧ (ipV m.buf m.dataOff = 4 → m'.olFlags = m.olFlags ||| tx.ipv4Offloads
        ∧ m'.l2Len = rteEtherHdrLen ∧ m'.l3Len = ipv4HdrLen) := by
  have hroom16 : len16 rteEtherHdrLen ≤ m.dataOff := by
    rw [len16_eq (by decide)]
    exact hroom
  cases hpre : rtePktmbufPrepend m rteEtherHdrLen with
  | none =>
      rw [rtePktmbufPrepend, dif_pos hroom16] at hpre
      cases hpre
  | some r =>
      obtain ⟨eth, m1⟩ := r
      obtain ⟨-, rfl, w, rfl⟩ := rtePktmbufPrepend_some (by decide) hpre
      rw [prepareTxPkt, hpre]
      dsimp only
      by_cases hv : ipV m.buf m.dataOff = 4
      · rw [if_pos hv]
        split
        · rename_i hflag
          have hoff : ¬ Offloaded tx m := fun h => h hflag
          refine ⟨_, rfl, rfl, rfl, ?_, fun _ => ⟨rfl, rfl, rfl⟩⟩
          rw [ethernet, typeOf, if_pos hv, packetBuf, if_pos hv, if_neg hoff]
          rfl
        · rename_i hflag
          have hoff : Offloaded tx m := hflag
          refine ⟨_, rfl, rfl, rfl, ?_, fun _ => ⟨rfl, rfl, rfl⟩⟩
          rw [ethernet, typeOf, if_pos hv, packetBuf, if_pos hv, if_pos hoff]
          rfl
      · rw [if_neg hv]
        refine ⟨_, rfl, rfl, rfl, ?_, fun h => absurd h hv⟩
        rw [ethernet, typeOf, if_neg hv, packetBuf, if_neg hv]
        rfl

/-- Without room a null pointer is written to. -/
theorem prepareTxPkt_none (tx : TxConf) (port : Nat)
    (hroom : ¬ rteEtherHdrLen ≤ m.dataOff) : prepareTxPkt tx port m = none := by
  have hroom16 : ¬ len16 rteEtherHdrLen ≤ m.dataOff := by
    rw [len16_eq (by decide)]
    exact hroom
  rw [prepareTxPkt, rtePktmbufPrepend, dif_neg hroom16]

/-! ## The frame -/

section frame

variable (h : TxLaws tx)
include h

theorem ethernet_behind (type : Nat) {eth i : Nat} (b : Nat → UInt8)
    (hi : eth + 14 ≤ i) : ethernet tx port type eth b i = b i := by
  obtain ⟨hsrc, hdst⟩ := h.addrs port
  rw [ethernet, store_outside _ (by rw [hdst]; omega), store_outside _ (by rw [hsrc]; omega),
    store_outside _ (by rw [length_toBe]; omega)]

theorem ethernet_dst (type eth : Nat) (b : Nat → UInt8) :
    load (ethernet tx port type eth b) eth 6 = (tx.ethaddrTbl port).2 := by
  rw [ethernet, load_store_eq _ (h.addrs port).2]

theorem ethernet_src (type eth : Nat) (b : Nat → UInt8) :
    load (ethernet tx port type eth b) (eth + 6) 6 = (tx.ethaddrTbl port).1 := by
  obtain ⟨hsrc, hdst⟩ := h.addrs port
  rw [ethernet, load_store_of_disjoint _ (by rw [hdst]; omega), load_store_eq _ hsrc]

theorem ethernet_type {type : Nat} (htype : type < 0x10000) (eth : Nat)
    (b : Nat → UInt8) :
    ofBe (load (ethernet tx port type eth b) (eth + 12) 2) = type := by
  obtain ⟨hsrc, hdst⟩ := h.addrs port
  rw [ethernet, load_store_of_disjoint _ (by rw [hdst]; omega),
    load_store_of_disjoint _ (by rw [hsrc]; omega), load_store_eq _ (length_toBe 2 type),
    ofBe_toBe]
  exact Nat.mod_eq_of_lt htype

/-- The packet behind the header is what it was, but for the checksum. -/
theorem packetBuf_other {i : Nat} (hi : ¬ ChecksumByte m i) :
    packetBuf tx m i = m.buf i := by
  rw [packetBuf]
  split
  · rename_i hv
    have hout : i < m.dataOff + 10 ∨ m.dataOff + 12 ≤ i := by
      rw [ChecksumByte, not_and] at hi
      have := hi hv
      omega
    have hzero : zeroed m i = m.buf i := store_outside _ hout
    split
    · exact hzero
    · rw [store_outside _ (by rw [h.cksum, length_toBe]; exact hout)]
      exact hzero
  · rfl

/-- **THE FRAME** is right whenever there is room. -/
theorem prepareTxPkt_framed {m' : Mbuf} (hroom : rteEtherHdrLen ≤ m.dataOff)
    (hoff : m'.dataOff = m.dataOff - rteEtherHdrLen)
    (hlen : m'.dataLen = m.dataLen + rteEtherHdrLen)
    (hbuf : m'.buf
      = ethernet tx port (typeOf m) (m.dataOff - rteEtherHdrLen) (packetBuf tx m)) :
    Framed tx port m m' := by
  have htype : typeOf m < 0x10000 := by
    rw [typeOf]
    split <;> decide
  refine ⟨by omega, hlen, ?_, ?_, ?_, ?_⟩
  · rw [hbuf, hoff]
    exact ethernet_dst h _ _ _
  · rw [hbuf, hoff]
    exact ethernet_src h _ _ _
  · rw [etherType, hbuf, hoff, ethernet_type h htype]
    rfl
  · intro i hlo _ hi
    have hfourteen : rteEtherHdrLen = 14 := rfl
    rw [hbuf, ethernet_behind h _ _ (by omega), packetBuf_other h hi]

end frame

/-! ## The checksum -/

/-- A header's checksum is about the bytes of the header. -/
theorem headerOk_congr {b c : Nat → UInt8} {a : Nat}
    (h : ∀ i, a ≤ i → i < a + 4 * ipHl b a → c i = b i) (hihl : 5 ≤ ipHl b a) :
    HeaderOk c a ↔ HeaderOk b a := by
  have hfirst : c a = b a := h a (Nat.le_refl a) (by omega)
  have hlen : ipHl c a = ipHl b a := by rw [ipHl, ipHl, hfirst]
  rw [HeaderOk, HeaderOk, hlen, wordSum_congr fun i hlo hhi => h i hlo (by omega)]

/-- **THE CHECKSUM** of an IPv4 packet that has room: it is done unless it is left
    to a NIC that is told another length. -/
theorem checksumDone_iff (h : TxLaws tx) {m' : Mbuf}
    (hm : Ipv4Header m.buf m.dataOff) (hroom : rteEtherHdrLen ≤ m.dataOff)
    (hbuf : m'.buf
      = ethernet tx port (typeOf m) (m.dataOff - rteEtherHdrLen) (packetBuf tx m))
    (hflags : m'.olFlags = m.olFlags ||| tx.ipv4Offloads)
    (hl2 : m'.l2Len = rteEtherHdrLen) (hl3 : m'.l3Len = ipv4HdrLen) :
    ChecksumDone m m' ↔ (Offloaded tx m →
      ipHl m.buf m.dataOff = 5 ∨ HeaderOk (zeroed m) m.dataOff) := by
  have hfourteen : rteEtherHdrLen = 14 := rfl
  have hbehind : ∀ i, m.dataOff ≤ i → m'.buf i = packetBuf tx m i := by
    intro i hi
    rw [hbuf, ethernet_behind h _ _ (by omega)]
  have hzlen : ipHl (zeroed m) m.dataOff = ipHl m.buf m.dataOff := by
    rw [ipHl, ipHl, zeroed_first]
  have hzhdr : Ipv4Header (zeroed m) m.dataOff := hm.congr (zeroed_first m)
  by_cases hoff : Offloaded tx m
  · have hpkt : packetBuf tx m = zeroed m := by
      rw [packetBuf, if_pos hm.version, if_pos hoff]
    have hok : HeaderOk m'.buf m.dataOff ↔ HeaderOk (zeroed m) m.dataOff := by
      refine headerOk_congr (fun i hi _ => ?_) hzhdr.ihl
      rw [hbehind i hi, hpkt]
    have hzero : word m'.buf (m.dataOff + 10) = 0 := by
      rw [← zeroed_word m, ← hpkt]
      exact word_congr (hbehind _ (by omega)) (hbehind _ (by omega))
    have hflag : m'.olFlags &&& txIpCksum ≠ 0 := by
      rw [hflags]
      exact hoff
    have hfive : m'.l3Len = ipHl m.buf m.dataOff * 4 ↔ ipHl m.buf m.dataOff = 5 := by
      rw [hl3, ipv4HdrLen]
      omega
    rw [ChecksumDone, hok, hfive]
    constructor
    · rintro (hsum | ⟨-, -, -, hlen⟩) _
      · exact .inr hsum
      · exact .inl hlen
    · intro hdone
      rcases hdone hoff with hlen | hsum
      · exact .inr ⟨hzero, hflag, hl2, hlen⟩
      · exact .inl hsum
  · refine ⟨fun _ h => absurd h hoff, fun _ => .inl ?_⟩
    have hpkt : packetBuf tx m = store (zeroed m) (m.dataOff + 10)
        (toBe 2 (ones16 - fold ones16
          (wordSum (zeroed m) m.dataOff (2 * ipHl (zeroed m) m.dataOff)))) := by
      rw [packetBuf, if_pos hm.version, if_neg hoff, h.cksum]
    have hfirst : packetBuf tx m m.dataOff = m.buf m.dataOff := by
      refine packetBuf_other h ?_
      rintro ⟨-, hi⟩
      omega
    have hok := headerOk_cksum hzhdr (zeroed_word m)
    rw [← hpkt] at hok
    refine (headerOk_congr (fun i hi _ => hbehind i hi) ?_).mpr hok
    rw [ipHl, hfirst]
    exact hm.ihl

/-- **FINISHED**: a packet with a complete header is sent as it should be exactly
    when there is room for the Ethernet header, and an IPv4 header that is left
    to the NIC has no options, or needs no checksum. -/
theorem finished_iff (h : TxLaws tx) (port : Nat) (hm : Complete4 m ∨ Complete6 m) :
    Finished tx port m ↔ rteEtherHdrLen ≤ m.dataOff
      ∧ (ipV m.buf m.dataOff = 4 → Offloaded tx m →
        ipHl m.buf m.dataOff = 5 ∨ HeaderOk (zeroed m) m.dataOff) := by
  have hheader : ipV m.buf m.dataOff = 4 → Ipv4Header m.buf m.dataOff := by
    intro hv
    rcases hm with hm | hm
    · exact ⟨hv, hm.ihl⟩
    · have := hm.version
      omega
  by_cases hroom : rteEtherHdrLen ≤ m.dataOff
  · obtain ⟨m', hcall, hoff, hlen, hbuf, hmeta⟩ := prepareTxPkt_eq tx port hroom
    have hdone : ipV m.buf m.dataOff = 4 → (ChecksumDone m m' ↔ (Offloaded tx m →
        ipHl m.buf m.dataOff = 5 ∨ HeaderOk (zeroed m) m.dataOff)) := by
      intro hv
      obtain ⟨hflags, hl2, hl3⟩ := hmeta hv
      exact checksumDone_iff h (hheader hv) hroom hbuf hflags hl2 hl3
    constructor
    · rintro ⟨m'', hcall', -, hck⟩
      obtain rfl := Option.some.inj (hcall.symm.trans hcall')
      exact ⟨hroom, fun hv => (hdone hv).mp (hck hv)⟩
    · rintro ⟨-, hck⟩
      exact ⟨m', hcall, prepareTxPkt_framed h hroom hoff hlen hbuf,
        fun hv => (hdone hv).mpr (hck hv)⟩
  · constructor
    · rintro ⟨m', hcall, -⟩
      rw [prepareTxPkt_none tx port hroom] at hcall
      cases hcall
    · rintro ⟨h14, -⟩
      exact absurd h14 hroom

/-! ## Options left to the NIC -/

/-- A port whose packets carry these offload flags. -/
def portTx (ipv4Offloads : UInt64) : TxConf where
  mtuSize := 1500
  fragTblSz := 0
  fragment := fun _ _ _ => none
  rt := ⟨fun _ => none, fun _ => none⟩
  ipv4Offloads := ipv4Offloads
  ipv6Offloads := 0
  ipv4Cksum := fun b a => toBe 2 (ones16 - fold ones16 (wordSum b a (2 * ipHl b a)))
  ethaddrTbl := fun _ => ([0, 0x16, 0x3e, 0, 0, 1], [0, 0x16, 0x3e, 0, 0, 2])
  txTake := fun n => n

theorem portTx_laws (ipv4Offloads : UInt64) : TxLaws (portTx ipv4Offloads) :=
  ⟨fun _ _ => rfl, fun _ => ⟨rfl, rfl⟩⟩

/-- A bare IPv4 header that begins with `first` and has this total length, with
    options of padding. -/
def headerPacket (first len : UInt8) : Mbuf :=
  Mbuf.mid (store (fun _ => 0) 128
    [first, 0, 0, len, 0, 0, 0, 0, 64, 6, 0, 0, 10, 0, 0, 1, 10, 0, 0, 2, 1, 1, 1, 0]) 24

theorem finished_software :
    TxLaws (portTx 0) ∧ (Complete4 (headerPacket 0x46 24) ∨ Complete6 (headerPacket 0x46 24))
      ∧ (Finished (portTx 0) 0 (headerPacket 0x46 24)
        ↔ rteEtherHdrLen ≤ (headerPacket 0x46 24).dataOff
          ∧ (ipV (headerPacket 0x46 24).buf (headerPacket 0x46 24).dataOff = 4 →
            Offloaded (portTx 0) (headerPacket 0x46 24) →
            ipHl (headerPacket 0x46 24).buf (headerPacket 0x46 24).dataOff = 5
              ∨ HeaderOk (zeroed (headerPacket 0x46 24))
                (headerPacket 0x46 24).dataOff)) := by
  have hm : Complete4 (headerPacket 0x46 24) := ⟨by decide, by decide, by decide⟩
  exact ⟨portTx_laws 0, .inl hm, finished_iff (portTx_laws 0) 0 (.inl hm)⟩

/-- **OPTIONS LEFT TO THE NIC**: it is told a header of twenty bytes, and sums no
    more. -/
theorem options_not_covered :
    Complete4 (headerPacket 0x46 24)
      ∧ (∃ m', prepareTxPkt (portTx txIpCksum) 0 (headerPacket 0x46 24) = some m'
        ∧ m'.l3Len = 20 ∧ word m'.buf 138 = 0 ∧ ¬ HeaderOk m'.buf 128)
      ∧ ¬ Finished (portTx txIpCksum) 0 (headerPacket 0x46 24) := by
  have hrun : ((prepareTxPkt (portTx txIpCksum) 0 (headerPacket 0x46 24)).map fun m' =>
      (m'.l3Len, word m'.buf 138, ipV m'.buf 128, ipHl m'.buf 128,
        wordSum m'.buf 128 12 % ones16)) = some (20, 0, 4, 6, 0x9c22) := by
    decide +kernel
  obtain ⟨m', hcall, hout⟩ := Option.map_eq_some_iff.mp hrun
  simp only [Prod.mk.injEq] at hout
  obtain ⟨hl3, hzero, hv, hihl, hsum⟩ := hout
  have hbad : ¬ HeaderOk m'.buf 128 := by
    rw [headerOk_iff ⟨hv, by omega⟩, hihl, hsum]
    decide
  refine ⟨⟨by decide, by decide, by decide⟩, ⟨m', hcall, hl3, hzero, hbad⟩, ?_⟩
  rintro ⟨m'', hcall', -, hdone⟩
  obtain rfl := Option.some.inj (hcall.symm.trans hcall')
  rcases hdone (by decide) with hok | ⟨-, -, -, hlen⟩
  · exact hbad hok
  · rw [hl3] at hlen
    exact absurd hlen (by decide)

end TxFrame
