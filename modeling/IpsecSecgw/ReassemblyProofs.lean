import IpsecSecgw.Lib.Rises
import IpsecSecgw.PortInitProofs
import IpsecSecgw.ReassemblyModel
import IpsecSecgw.TxFrameProofs

/-! # What comes out of the callbacks

    A queue has a callback for each entry of its lcore in `lcore_params`, as often as the
    lcore polls it (`callbacks_eq`).  The first of them hands all fragments of a burst to
    the library (`rxCallback_collected`, `collect_asked`), so the others find none and leave
    the burst as it is (`rxCallback_clear`), up to packets with a fragment header behind the
    one that has been taken off (`bursts_whole`).

    What a part of a burst leaves behind is said once (`Collected`); parts are put
    together with `Collected.append`. -/

namespace Reassembly

open ByteStore MbufModel IpsecModel CdevModel SecgwModel OnesSum Checksum
open WorkerModel (rteEtherHdrLen)

variable {τ : Type} {lib : RteIpFrag τ} {lc : UInt8} {held : Fam → τ → PktId → Prop}

/-! ## What is asked of the library -/

/-- A fragment as the library wants to have it. -/
def Ready (f : Fam) (m : Mbuf) : Prop :=
  etherType m = f.etherType ∧ m.l2Len = rteEtherHdrLen ∧ m.l3Len = f.l3Len

/-- The fragments in a table. -/
def Stored (held : Fam → τ → PktId → Prop) (t : τ) (mem : PktId → Mbuf) : Prop :=
  ∀ g y, held g t y → Ready g (mem y)

/-- The documentation of `librte_ip_frag`, where `held` are the mbufs of a family in the
    table or on its death row. -/
structure Laws (lib : RteIpFrag τ) (held : Fam → τ → PktId → Prop) : Prop where
  holds : ∀ f t mem x tm g y, held g (lib.reassemble f t mem x tm).2.1 y →
    held g t y ∨ g = f ∧ y = x
  gives : ∀ f t mem x tm y, (lib.reassemble f t mem x tm).1 = some y →
    (held f t y ∨ y = x) ∧ ∀ g, ¬ held g (lib.reassemble f t mem x tm).2.1 y
  others : ∀ f t mem x tm y, (∀ g, ¬ held g t y) → y ≠ x →
    (lib.reassemble f t mem x tm).2.2 y = mem y
  stored : ∀ f t mem x tm, Stored held t mem → Ready f (mem x) →
    Stored held (lib.reassemble f t mem x tm).2.1 (lib.reassemble f t mem x tm).2.2
  front : ∀ f t mem x tm y, Stored held t mem → Ready f (mem x) →
    (lib.reassemble f t mem x tm).1 = some y →
    etherType ((lib.reassemble f t mem x tm).2.2 y) = f.etherType
      ∧ ((lib.reassemble f t mem x tm).2.2 y).l2Len = rteEtherHdrLen
  whole : ∀ t mem x tm y, Stored held t mem → Ready .ipv4 (mem x) →
    (lib.reassemble .ipv4 t mem x tm).1 = some y →
    ipv4Fragmented ((lib.reassemble .ipv4 t mem x tm).2.2 y).buf
      (((lib.reassemble .ipv4 t mem x tm).2.2 y).dataOff + rteEtherHdrLen) = false
  rowHolds : ∀ t mem g y, held g (lib.freeDeathRow t mem).1 y → held g t y
  rowOthers : ∀ t mem y, (∀ g, ¬ held g t y) → (lib.freeDeathRow t mem).2 y = mem y
  rowStored : ∀ t mem, Stored held t mem →
    Stored held (lib.freeDeathRow t mem).1 (lib.freeDeathRow t mem).2
  cksum : ∀ b a, lib.ipv4Cksum b a
    = toBe 2 (ones16 - fold ones16 (wordSum b a (2 * ipHl b a)))

/-! ## A packet put together -/

/-- The packet is no fragment of IPv4, and its checksum is right. -/
def Mended (m : Mbuf) : Prop :=
  etherType m = etherTypeIpv6 ∨ etherType m = etherTypeIpv4 ∧ fragmentOf m = none
    ∧ (Ipv4Header m.buf (m.dataOff + rteEtherHdrLen) →
      HeaderOk m.buf (m.dataOff + rteEtherHdrLen))

/-- **MENDING** changes nothing but the checksum. -/
theorem mend_ipv4 {m : Mbuf} (hcksum : ∀ b a, lib.ipv4Cksum b a
      = toBe 2 (ones16 - fold ones16 (wordSum b a (2 * ipHl b a))))
    (htype : etherType m = etherTypeIpv4) (hl2 : m.l2Len = rteEtherHdrLen)
    (hwhole : ipv4Fragmented m.buf (m.dataOff + rteEtherHdrLen) = false) :
    Mended (mend lib .ipv4 m) := by
  generalize ha : m.dataOff + rteEtherHdrLen = a at hwhole
  have h14 : rteEtherHdrLen = 14 := rfl
  -- the header with its checksum set to zero, and with the new one
  have hbuf : (mend lib .ipv4 m).buf
      = store (store m.buf (a + 10) [0, 0]) (a + 10)
          (lib.ipv4Cksum (store m.buf (a + 10) [0, 0]) a) := by
    rw [mend, hl2, ha]
    rfl
  have hoff : (mend lib .ipv4 m).dataOff = m.dataOff := rfl
  have hzero : ∀ i, i < a + 10 → store m.buf (a + 10) [0, 0] i = m.buf i :=
    fun i hi => store_outside _ (.inl hi)
  have hsame : ∀ i, i < a + 10 → (mend lib .ipv4 m).buf i = m.buf i := by
    intro i hi
    rw [hbuf, store_outside _ (.inl hi), hzero i hi]
  have htype' : etherType (mend lib .ipv4 m) = etherTypeIpv4 := by
    rw [← htype, etherType, etherType, hoff]
    refine congrArg ofBe (load_congr fun i hi => hsame _ ?_)
    omega
  have hfrag : ipv4Fragmented (mend lib .ipv4 m).buf a = false := by
    rw [← hwhole, ipv4Fragmented, ipv4Fragmented]
    have hload : load (mend lib .ipv4 m).buf (a + 6) 2 = load m.buf (a + 6) 2 :=
      load_congr fun i hi => hsame _ (by omega)
    rw [hload]
  refine .inr ⟨htype', ?_, ?_⟩
  · rw [fragmentOf, if_pos htype', hoff, ha, hfrag]
    rfl
  · rw [hoff, ha, hbuf, hcksum]
    intro h
    have hhdr : Ipv4Header (store m.buf (a + 10) [0, 0]) a :=
      h.congr (store_outside _ (.inl (show a < a + 10 by omega))).symm
    exact TxFrame.headerOk_cksum hhdr (word_storeBe m.buf (a + 10) 0)

/-- A packet of IPv6 stays one. -/
theorem mend_ipv6 {m : Mbuf} (htype : etherType m = etherTypeIpv6) :
    Mended (mend lib .ipv6 m) := by
  refine .inl ?_
  rw [← htype, mend, etherType, etherType]

/-! ## Parts of a burst -/

/-- Distinct packets, none of them in the table. -/
def Fresh (held : Fam → τ → PktId → Prop) (lc : UInt8) (pkts : List PktId)
    (st : FragState τ) : Prop :=
  pkts.Nodup ∧ ∀ x ∈ pkts, ∀ g, ¬ held g (st.tbl lc) x

/-- **WHAT HAS BECOME** of packets: `out` goes on, the rest is in the table or gone. -/
structure Collected (held : Fam → τ → PktId → Prop) (lc : UInt8) (pkts : List PktId)
    (st : FragState τ) (out : List PktId) (st' : FragState τ) : Prop where
  stored : Stored held (st'.tbl lc) st'.mem
  fresh : Fresh held lc out st'
  source : ∀ y ∈ out, y ∈ pkts ∨ ∃ g, held g (st.tbl lc) y
  grows : ∀ g y, held g (st'.tbl lc) y → held g (st.tbl lc) y ∨ y ∈ pkts
  others : ∀ y, (∀ g, ¬ held g (st.tbl lc) y) → y ∉ pkts → st'.mem y = st.mem y
  clear : ∀ y ∈ pkts, fragmentOf (st.mem y) = none → st'.mem y = st.mem y
  order : (pkts.filter fun y => (fragmentOf (st.mem y)).isNone).Sublist out
  whole : ∀ y ∈ out, (y ∈ pkts ∧ fragmentOf (st.mem y) = none) ∨ Mended (st'.mem y)

theorem Collected.nil {st : FragState τ} (h : Stored held (st.tbl lc) st.mem) :
    Collected held lc [] st [] st where
  stored := h
  fresh := ⟨List.nodup_nil, fun _ h => absurd h List.not_mem_nil⟩
  source := fun _ h => absurd h List.not_mem_nil
  grows := fun _ _ h => .inl h
  others := fun _ _ _ => rfl
  clear := fun _ h => absurd h List.not_mem_nil
  order := List.Sublist.refl _
  whole := fun _ h => absurd h List.not_mem_nil

/-- What is new is none of the packets that are still to come. -/
theorem Collected.apart {pkts rest out : List PktId} {st st' : FragState τ}
    (h : Collected held lc pkts st out st') (hfresh : Fresh held lc (pkts ++ rest) st) :
    Fresh held lc rest st' ∧ (∀ y ∈ out, y ∉ rest) ∧ ∀ y ∈ rest, st'.mem y = st.mem y := by
  obtain ⟨hnodup, hfree⟩ := hfresh
  have hdisj := List.disjoint_of_nodup_append hnodup
  have hrest : ∀ y ∈ rest, ∀ g, ¬ held g (st.tbl lc) y :=
    fun y hy => hfree y (List.mem_append_right _ hy)
  refine ⟨⟨hnodup.of_append_right, ?_⟩, ?_, ?_⟩
  · intro y hy g hheld
    exact (h.grows g y hheld).elim (hrest y hy g) fun hin => hdisj hin hy
  · intro y hout hy
    rcases h.source y hout with hin | ⟨g, hheld⟩
    · exact hdisj hin hy
    · exact hrest y hy g hheld
  · exact fun y hy => h.others y (hrest y hy) fun hin => hdisj hin hy

/-- **TWO PARTS**. -/
theorem Collected.append {pkts pkts' out out' : List PktId} {st st' st'' : FragState τ}
    (h : Collected held lc pkts st out st') (hfresh : Fresh held lc (pkts ++ pkts') st)
    (h' : Collected held lc pkts' st' out' st'') :
    Collected held lc (pkts ++ pkts') st (out ++ out') st'' := by
  obtain ⟨hfresh', hapart, hmem⟩ := h.apart hfresh
  have hdisj := List.disjoint_of_nodup_append hfresh.1
  -- what has gone on from the first part is left alone by the second
  have hkeep : ∀ y ∈ out, st''.mem y = st'.mem y :=
    fun y hy => h'.others y (h.fresh.2 y hy) (hapart y hy)
  refine ⟨h'.stored, ⟨?_, ?_⟩, ?_, ?_, ?_, ?_, ?_, ?_⟩
  · refine h.fresh.1.append h'.fresh.1 fun y hy hy' => ?_
    rcases h'.source y hy' with hin | ⟨g, hheld⟩
    · exact hapart y hy hin
    · exact h.fresh.2 y hy g hheld
  · intro y hy g hheld
    rcases List.mem_append.mp hy with hy | hy
    · exact (h'.grows g y hheld).elim (h.fresh.2 y hy g) (hapart y hy)
    · exact h'.fresh.2 y hy g hheld
  · intro y hy
    rcases List.mem_append.mp hy with hy | hy
    · exact (h.source y hy).imp_left (List.mem_append_left _)
    · rcases h'.source y hy with hin | ⟨g, hheld⟩
      · exact .inl (List.mem_append_right _ hin)
      · exact (h.grows g y hheld).elim (fun hin => .inr ⟨g, hin⟩)
          fun hin => .inl (List.mem_append_left _ hin)
  · intro g y hheld
    rcases h'.grows g y hheld with hheld | hin
    · exact (h.grows g y hheld).imp_right (List.mem_append_left _)
    · exact .inr (List.mem_append_right _ hin)
  · intro y hfree hnot
    rw [List.mem_append, not_or] at hnot
    have hfree' : ∀ g, ¬ held g (st'.tbl lc) y :=
      fun g hheld => (h.grows g y hheld).elim (hfree g) hnot.1
    rw [h'.others y hfree' hnot.2, h.others y hfree hnot.1]
  · intro y hy hnone
    rcases List.mem_append.mp hy with hy | hy
    · have hout : y ∈ out := h.order.subset (List.mem_filter.mpr ⟨hy, by simp [hnone]⟩)
      rw [hkeep y hout, h.clear y hy hnone]
    · rw [← hmem y hy] at hnone ⊢
      exact h'.clear y hy hnone
  · rw [List.filter_append]
    refine h.order.append ?_
    have hsame : (pkts'.filter fun y => (fragmentOf (st.mem y)).isNone)
        = pkts'.filter fun y => (fragmentOf (st'.mem y)).isNone :=
      List.filter_congr fun y hy => by rw [hmem y hy]
    rw [hsame]
    exact h'.order
  · intro y hy
    rcases List.mem_append.mp hy with hy | hy
    · rw [hkeep y hy]
      exact (h.whole y hy).imp_left fun hin => ⟨List.mem_append_left _ hin.1, hin.2⟩
    · rcases h'.whole y hy with ⟨hin, hnone⟩ | hmended
      · rw [hmem y hin] at hnone
        exact .inl ⟨List.mem_append_right _ hin, hnone⟩
      · exact .inr hmended

/-- A packet that is no fragment goes on as it is. -/
theorem Collected.pass {x : PktId} {st : FragState τ} (hstored : Stored held (st.tbl lc) st.mem)
    (hfree : ∀ g, ¬ held g (st.tbl lc) x) (hnone : fragmentOf (st.mem x) = none) :
    Collected held lc [x] st [x] st where
  stored := hstored
  fresh := ⟨List.nodup_singleton x, fun _ hy => List.mem_singleton.mp hy ▸ hfree⟩
  source := fun _ h => .inl h
  grows := fun _ _ h => .inl h
  others := fun _ _ _ => rfl
  clear := fun _ _ _ => rfl
  order := List.filter_sublist
  whole := fun _ hy => .inl ⟨hy, List.mem_singleton.mp hy ▸ hnone⟩

/-- A fragment goes, and what comes in its place has been put together. -/
theorem Collected.taken {x : PktId} {st st' : FragState τ} {mb : Option PktId}
    (hfrag : fragmentOf (st.mem x) ≠ none) (hstored : Stored held (st'.tbl lc) st'.mem)
    (hgrows : ∀ g y, held g (st'.tbl lc) y → held g (st.tbl lc) y ∨ y = x)
    (hothers : ∀ y, (∀ g, ¬ held g (st.tbl lc) y) → y ≠ x → st'.mem y = st.mem y)
    (hgives : ∀ y, mb = some y → (y = x ∨ ∃ g, held g (st.tbl lc) y)
      ∧ (∀ g, ¬ held g (st'.tbl lc) y) ∧ Mended (st'.mem y)) :
    Collected held lc [x] st mb.toList st' := by
  have horder : ([x].filter fun y => (fragmentOf (st.mem y)).isNone) = [] := by
    simpa [List.filter_cons] using hfrag
  refine ⟨hstored, ⟨?_, ?_⟩, ?_, ?_, ?_, ?_, ?_, ?_⟩
  · cases mb with
    | none => exact List.nodup_nil
    | some y => exact List.nodup_singleton y
  · exact fun y hy => (hgives y (Option.mem_toList.mp hy)).2.1
  · intro y hy
    exact (hgives y (Option.mem_toList.mp hy)).1.imp_left List.mem_singleton.mpr
  · exact fun g y h => (hgrows g y h).imp_right List.mem_singleton.mpr
  · exact fun y hnot hne => hothers y hnot fun h => hne (List.mem_singleton.mpr h)
  · exact fun _ hy h => absurd (List.mem_singleton.mp hy ▸ h) hfrag
  · rw [horder]
    exact List.nil_sublist _
  · exact fun y hy => .inr (hgives y (Option.mem_toList.mp hy)).2.2

/-- The fragments whose time is over go away. -/
theorem Collected.drained {pkts out : List PktId} {st st' : FragState τ} (laws : Laws lib held)
    (h : Collected held lc pkts st out st') :
    Collected held lc pkts st out (drainDeathRow lib lc st') := by
  have htbl : (drainDeathRow lib lc st').tbl lc = (lib.freeDeathRow (st'.tbl lc) st'.mem).1 :=
    Function.update_self ..
  have hgrows : ∀ g y, held g ((drainDeathRow lib lc st').tbl lc) y → held g (st'.tbl lc) y := by
    rw [htbl]
    exact fun g y => laws.rowHolds _ _ g y
  have hmem : ∀ y, (∀ g, ¬ held g (st'.tbl lc) y) →
      (drainDeathRow lib lc st').mem y = st'.mem y := fun y hy => laws.rowOthers _ _ y hy
  have hout : ∀ y ∈ out, (drainDeathRow lib lc st').mem y = st'.mem y :=
    fun y hy => hmem y (h.fresh.2 y hy)
  refine ⟨?_, ⟨h.fresh.1, fun y hy g hheld => h.fresh.2 y hy g (hgrows g y hheld)⟩, h.source,
    fun g y hheld => h.grows g y (hgrows g y hheld), ?_, ?_, h.order, ?_⟩
  · rw [htbl]
    exact laws.rowStored _ _ h.stored
  · intro y hfree hnot
    rw [hmem y fun g hheld => (h.grows g y hheld).elim (hfree g) hnot, h.others y hfree hnot]
  · intro y hy hnone
    have hin : y ∈ out := h.order.subset (List.mem_filter.mpr ⟨hy, by simp [hnone]⟩)
    rw [hout y hin, h.clear y hy hnone]
  · intro y hy
    rw [hout y hy]
    exact h.whole y hy

/-! ## One packet -/

theorem readTsc_tbl (lib : RteIpFrag τ) (tm : UInt64) (st : FragState τ) :
    (readTsc lib tm st).2.tbl = st.tbl ∧ (readTsc lib tm st).2.mem = st.mem := by
  rw [readTsc]
  split <;> exact ⟨rfl, rfl⟩

/-- The family of a fragment is that of its frame. -/
theorem fragmentOf_etherType {m : Mbuf} {f : Fam} (h : fragmentOf m = some f) :
    etherType m = f.etherType := by
  rw [fragmentOf] at h
  split at h
  · split at h
    · obtain rfl := Option.some.inj h
      assumption
    · cases h
  · split at h
    · split at h
      · obtain rfl := Option.some.inj h
        assumption
      · cases h
    · cases h

/-- With its lengths set a fragment is as the library wants to have it, and those in the
    table still are. -/
theorem ready_modify {f : Fam} {x : PktId} {st : FragState τ}
    (hstored : Stored held (st.tbl lc) st.mem) (hfree : ∀ g, ¬ held g (st.tbl lc) x)
    (hfrag : fragmentOf (st.mem x) = some f) :
    Ready f ((st.modify x fun m =>
        { m with l2Len := rteEtherHdrLen, l3Len := f.l3Len }).mem x)
      ∧ Stored held (st.tbl lc) (st.modify x fun m =>
        { m with l2Len := rteEtherHdrLen, l3Len := f.l3Len }).mem := by
  constructor
  · rw [FragState.modify_self]
    exact ⟨fragmentOf_etherType hfrag, rfl, rfl⟩
  · intro g y hheld
    have hne : y ≠ x := by
      rintro rfl
      exact hfree g hheld
    rw [FragState.modify_of_ne st hne]
    exact hstored g y hheld

/-- What the library gives back is mended. -/
theorem reassemble_mended (laws : Laws lib held) {f : Fam} {t : τ} {mem : PktId → Mbuf}
    {x y : PktId} {now : UInt64} (hstored : Stored held t mem) (hready : Ready f (mem x))
    (hy : (lib.reassemble f t mem x now).1 = some y) :
    Mended (mend lib f ((lib.reassemble f t mem x now).2.2 y)) := by
  obtain ⟨htype, hl2⟩ := laws.front f t mem x now y hstored hready hy
  cases f with
  | ipv4 => exact mend_ipv4 laws.cksum htype hl2 (laws.whole t mem x now y hstored hready hy)
  | ipv6 => exact mend_ipv6 htype

/-- **A FRAGMENT** goes into the table, or a packet comes out in its place. -/
theorem takeFragment_collected (laws : Laws lib held) {f : Fam} {x : PktId} {tm : UInt64}
    {st : FragState τ} (hstored : Stored held (st.tbl lc) st.mem)
    (hfree : ∀ g, ¬ held g (st.tbl lc) x) (hfrag : fragmentOf (st.mem x) = some f) :
    Collected held lc [x] st (takeFragment lib lc f x tm st).1.toList
      (takeFragment lib lc f x tm st).2.2 := by
  obtain ⟨hready, hstored₁⟩ := ready_modify hstored hfree hfrag
  rw [takeFragment]
  generalize hst : st.modify x (fun m => { m with l2Len := rteEtherHdrLen, l3Len := f.l3Len })
    = st₁ at hready hstored₁ ⊢
  have htbl₁ : st₁.tbl = st.tbl := by rw [← hst, FragState.modify_tbl]
  have hmem₁ : ∀ y, y ≠ x → st₁.mem y = st.mem y :=
    fun y hy => hst ▸ FragState.modify_of_ne st hy _
  obtain ⟨htbl₂, hmem₂⟩ := readTsc_tbl lib tm st₁
  rw [htbl₂, hmem₂, htbl₁]
  generalize (readTsc lib tm st₁).1 = now
  -- what the library does with it
  have hholds := laws.holds f (st.tbl lc) st₁.mem x now
  have hgives := laws.gives f (st.tbl lc) st₁.mem x now
  have hothers := laws.others f (st.tbl lc) st₁.mem x now
  have hkept := laws.stored f (st.tbl lc) st₁.mem x now hstored₁ hready
  have hmended : ∀ y, (lib.reassemble f (st.tbl lc) st₁.mem x now).1 = some y →
      Mended (mend lib f ((lib.reassemble f (st.tbl lc) st₁.mem x now).2.2 y)) :=
    fun y hy => reassemble_mended laws hstored₁ hready hy
  generalize lib.reassemble f (st.tbl lc) st₁.mem x now = r at *
  have hnew : ∀ g y, held g (Function.update st.tbl lc r.2.1 lc) y → held g r.2.1 y := by
    intro g y h
    rwa [Function.update_self] at h
  have hgrows : ∀ g y, held g (Function.update st.tbl lc r.2.1 lc) y →
      held g (st.tbl lc) y ∨ y = x := fun g y h => (hholds g y (hnew g y h)).imp_right And.right
  have hfrag' : fragmentOf (st.mem x) ≠ none := by simp [hfrag]
  cases hmb : r.1 with
  | none =>
      refine Collected.taken hfrag' (fun g y h => hkept g y (hnew g y h)) hgrows
        (fun y hnot hne => ?_) fun y hy => ?_
      · exact (hothers y hnot hne).trans (hmem₁ y hne)
      · cases hy
  | some z =>
      obtain ⟨hsource, hout⟩ := hgives z hmb
      have hupd : ∀ y, y ≠ z → Function.update r.2.2 z (mend lib f (r.2.2 z)) y = r.2.2 y :=
        fun y hy => Function.update_of_ne hy ..
      refine Collected.taken hfrag' (fun g y h => ?_) hgrows (fun y hnot hne => ?_) fun y hy => ?_
      · -- the packet that has come out is no longer held
        have hne : y ≠ z := by
          rintro rfl
          exact hout g (hnew g y h)
        exact (congrArg (Ready g) (hupd y hne)).mpr (hkept g y (hnew g y h))
      · have hne' : y ≠ z := by
          rintro rfl
          exact hsource.elim (hnot f) hne
        exact (hupd y hne').trans ((hothers y hnot hne).trans (hmem₁ y hne))
      · obtain rfl := Option.some.inj hy
        refine ⟨hsource.symm.imp_right fun h => ⟨f, h⟩, fun g h => hout g (hnew g _ h), ?_⟩
        exact (congrArg Mended (Function.update_self ..)).mpr (hmended z hmb)

/-- **ONE PACKET**. -/
theorem rxPacket_collected (laws : Laws lib held) {x : PktId} (tm : UInt64) {st : FragState τ}
    (hstored : Stored held (st.tbl lc) st.mem) (hfree : ∀ g, ¬ held g (st.tbl lc) x) :
    Collected held lc [x] st (rxPacket lib lc x tm st).1.toList (rxPacket lib lc x tm st).2.2 := by
  rw [rxPacket]
  cases hfrag : fragmentOf (st.mem x) with
  | none => exact Collected.pass hstored hfree hfrag
  | some f => exact takeFragment_collected laws hstored hfree hfrag

/-! ## The loop -/

/-- The packets that go on, one behind the other. -/
def collect (lib : RteIpFrag τ) (lc : UInt8) : List PktId → UInt64 → FragState τ →
    List PktId × UInt64 × FragState τ
  | [], tm, st => ([], tm, st)
  | x :: pkts, tm, st =>
      let r := rxPacket lib lc x tm st
      let rest := collect lib lc pkts r.2.1 r.2.2
      (r.1.toList ++ rest.1, rest.2)

/-- **THE PACKETS** of a burst. -/
theorem collect_collected (laws : Laws lib held) {pkts : List PktId} (tm : UInt64)
    {st : FragState τ} (hstored : Stored held (st.tbl lc) st.mem) (hfresh : Fresh held lc pkts st) :
    Collected held lc pkts st (collect lib lc pkts tm st).1 (collect lib lc pkts tm st).2.2 := by
  induction pkts generalizing tm st with
  | nil => exact Collected.nil hstored
  | cons x pkts ih =>
      have hone := rxPacket_collected laws tm hstored (hfresh.2 x List.mem_cons_self)
      have hfresh : Fresh held lc ([x] ++ pkts) st := hfresh
      have hrest := ih (rxPacket lib lc x tm st).2.1 hone.stored (hone.apart hfresh).1
      exact hone.append hfresh hrest

/-- The fragments of a burst, in their order. -/
def fragments (mem : PktId → Mbuf) (pkts : List PktId) : List (Fam × PktId) :=
  pkts.filterMap fun x => (fragmentOf (mem x)).map fun f => (f, x)

/-- A packet the library has given back is mended. -/
def mended (lib : RteIpFrag τ) (f : Fam) : Option PktId → (PktId → Mbuf) → PktId → Mbuf
  | none, mem => mem
  | some y, mem => Function.update mem y (mend lib f (mem y))

/-- **THE LIBRARY IS ASKED** about fragments, one behind the other: each is handed over
    with the lengths of its headers set, and has an answer; what comes back is mended. -/
inductive Asked (lib : RteIpFrag τ) : List (Fam × PktId) → τ × (PktId → Mbuf) →
    List (Option PktId) → τ × (PktId → Mbuf) → Prop
  | nil (s : τ × (PktId → Mbuf)) : Asked lib [] s [] s
  | cons {f : Fam} {x : PktId} {frags : List (Fam × PktId)} {t t' : τ}
      {mem mem' : PktId → Mbuf} {mb : Option PktId} {given : List (Option PktId)}
      {s : τ × (PktId → Mbuf)} (now : UInt64)
      (hanswer : lib.reassemble f t (Function.update mem x
        { mem x with l2Len := rteEtherHdrLen, l3Len := f.l3Len }) x now = (mb, t', mem'))
      (hrest : Asked lib frags (t', mended lib f mb mem') given s) :
      Asked lib ((f, x) :: frags) (t, mem) (mb :: given) s

/-- Packets go on in their order, and in the place of a fragment what the library has
    given back for it. -/
def merged (mem : PktId → Mbuf) : List PktId → List (Option PktId) → List PktId
  | [], _ => []
  | x :: pkts, given =>
      if fragmentOf (mem x) = none then x :: merged mem pkts given
      else given.head?.join.toList ++ merged mem pkts given.tail

theorem fragments_congr {mem mem' : PktId → Mbuf} {pkts : List PktId}
    (h : ∀ x ∈ pkts, mem' x = mem x) : fragments mem' pkts = fragments mem pkts :=
  List.filterMap_congr fun x hx => by rw [h x hx]

theorem merged_congr {mem mem' : PktId → Mbuf} {pkts : List PktId}
    (h : ∀ x ∈ pkts, mem' x = mem x) (given : List (Option PktId)) :
    merged mem' pkts given = merged mem pkts given := by
  induction pkts generalizing given with
  | nil => rfl
  | cons x pkts ih =>
      have hrest := ih fun y hy => h y (List.mem_cons_of_mem x hy)
      rw [merged, merged, h x List.mem_cons_self, hrest, hrest]

/-- One fragment. -/
theorem takeFragment_asked (lib : RteIpFrag τ) (lc : UInt8) (f : Fam) (x : PktId)
    (tm : UInt64) (st : FragState τ) :
    ∃ now t' mem', lib.reassemble f (st.tbl lc) (Function.update st.mem x
        { st.mem x with l2Len := rteEtherHdrLen, l3Len := f.l3Len }) x now
          = ((takeFragment lib lc f x tm st).1, t', mem')
      ∧ (takeFragment lib lc f x tm st).2.2.tbl lc = t'
      ∧ (takeFragment lib lc f x tm st).2.2.mem
        = mended lib f (takeFragment lib lc f x tm st).1 mem' := by
  rw [takeFragment]
  generalize hst : st.modify x (fun m => { m with l2Len := rteEtherHdrLen, l3Len := f.l3Len })
    = st₁
  have htbl₁ : st₁.tbl = st.tbl := by rw [← hst, FragState.modify_tbl]
  have hmem₁ : st₁.mem = Function.update st.mem x
      { st.mem x with l2Len := rteEtherHdrLen, l3Len := f.l3Len } := by
    rw [← hst]
    rfl
  obtain ⟨htbl₂, hmem₂⟩ := readTsc_tbl lib tm st₁
  rw [htbl₂, hmem₂, htbl₁, hmem₁]
  refine ⟨(readTsc lib tm st₁).1, ?_⟩
  generalize lib.reassemble f (st.tbl lc) _ x (readTsc lib tm st₁).1 = r
  obtain ⟨mb, t', mem'⟩ := r
  refine ⟨t', mem', ?_⟩
  cases mb with
  | none => exact ⟨rfl, Function.update_self .., rfl⟩
  | some y => exact ⟨rfl, Function.update_self .., rfl⟩

/-- **EVERY FRAGMENT** is handed to the library, and what it gives back goes on. -/
theorem collect_asked (laws : Laws lib held) {pkts : List PktId} (tm : UInt64)
    {st : FragState τ} (hstored : Stored held (st.tbl lc) st.mem) (hfresh : Fresh held lc pkts st) :
    ∃ given, Asked lib (fragments st.mem pkts) (st.tbl lc, st.mem) given
        ((collect lib lc pkts tm st).2.2.tbl lc, (collect lib lc pkts tm st).2.2.mem)
      ∧ (collect lib lc pkts tm st).1 = merged st.mem pkts given := by
  induction pkts generalizing tm st with
  | nil => exact ⟨[], .nil _, rfl⟩
  | cons x pkts ih =>
      have hone := rxPacket_collected laws tm hstored (hfresh.2 x List.mem_cons_self)
      have hfresh : Fresh held lc ([x] ++ pkts) st := hfresh
      obtain ⟨hfresh', -, hmem⟩ := hone.apart hfresh
      obtain ⟨given, hasked, hout⟩ := ih (rxPacket lib lc x tm st).2.1 hone.stored hfresh'
      rw [fragments_congr hmem] at hasked
      rw [merged_congr hmem] at hout
      rw [collect]
      dsimp only
      rw [hout]
      cases hfrag : fragmentOf (st.mem x) with
      | none =>
          have hr : rxPacket lib lc x tm st = (some x, tm, st) := by rw [rxPacket, hfrag]
          refine ⟨given, ?_, ?_⟩
          · rw [fragments, List.filterMap_cons_none (by rw [hfrag]; rfl)]
            rw [hr] at hasked ⊢
            exact hasked
          · rw [merged, if_pos hfrag, hr]
            rfl
      | some f =>
          have hr : rxPacket lib lc x tm st = takeFragment lib lc f x tm st := by
            rw [rxPacket, hfrag]
          obtain ⟨now, t', mem', hanswer, htbl, hmended⟩ := takeFragment_asked lib lc f x tm st
          rw [hr] at hasked ⊢
          refine ⟨(takeFragment lib lc f x tm st).1 :: given, ?_, ?_⟩
          · rw [fragments, List.filterMap_cons_some (by rw [hfrag]; rfl)]
            refine .cons now hanswer ?_
            rw [← hmended, ← htbl]
            exact hasked
          · have hne : ¬ fragmentOf (st.mem x) = none := by simp [hfrag]
            rw [merged, if_neg hne]
            rfl

/-- An array that begins with these packets. -/
def Holds (pkt : Nat → Option PktId) (pkts : List PktId) : Prop :=
  ∀ i < pkts.length, pkt i = pkts[i]?

theorem rxOne_eq {s : RxLoop τ} {i : Nat} {x : PktId} {mb : Option PktId} {tm : UInt64}
    {st : FragState τ} (hread : s.pkt i = some x)
    (hr : rxPacket lib lc x s.tm s.st = (mb, tm, st)) :
    rxOne lib lc s i
      = some ⟨Function.update s.pkt s.k mb, if mb.isSome then s.k + 1 else s.k, tm, st⟩ := by
  rw [rxOne, hread]
  simp only [hr]

/-- **IN PLACE**: a packet is written at or before the place it has been read from, so the
    array holds the packets that go on, and those not read yet behind them. -/
theorem rxLoop_eq (lib : RteIpFrag τ) (lc : UInt8) (rest : List PktId) {kept : List PktId}
    {i : Nat} {pkt : Nat → Option PktId} (tm : UInt64) (st : FragState τ)
    (hle : kept.length ≤ i) (hkept : Holds pkt kept)
    (hrest : Holds (fun j => pkt (i + j)) rest) :
    ∃ pkt', (List.range' i rest.length).foldlM (rxOne lib lc) ⟨pkt, kept.length, tm, st⟩
        = some ⟨pkt', (kept ++ (collect lib lc rest tm st).1).length,
            (collect lib lc rest tm st).2.1, (collect lib lc rest tm st).2.2⟩
      ∧ Holds pkt' (kept ++ (collect lib lc rest tm st).1) := by
  induction rest generalizing kept i pkt tm st with
  | nil =>
      rw [collect, List.append_nil]
      exact ⟨pkt, rfl, hkept⟩
  | cons x rest ih =>
      have hread : pkt i = some x := hrest 0 (Nat.succ_pos _)
      rcases hr : rxPacket lib lc x tm st with ⟨mb, tm', st'⟩
      -- the place that is written
      have hbehind : Holds (fun j => Function.update pkt kept.length mb (i + 1 + j)) rest := by
        intro j hj
        have hne : i + 1 + j ≠ kept.length := by omega
        have hnext : pkt (i + (j + 1)) = (x :: rest)[j + 1]? := hrest (j + 1) (Nat.succ_lt_succ hj)
        simp only [Function.update_of_ne hne]
        rw [show i + 1 + j = i + (j + 1) by omega, hnext, List.getElem?_cons_succ]
      have hfront : Holds (Function.update pkt kept.length mb) (kept ++ mb.toList) := by
        intro j hj
        by_cases hlast : j = kept.length
        · subst hlast
          rw [Function.update_self]
          cases mb <;> simp
        · rw [List.length_append] at hj
          have hlen : mb.toList.length ≤ 1 := by cases mb <;> simp
          have hj' : j < kept.length := by omega
          rw [Function.update_of_ne hlast, hkept j hj', List.getElem?_append_left hj']
      have hk : (if mb.isSome then kept.length + 1 else kept.length)
          = (kept ++ mb.toList).length := by cases mb <;> simp
      have hone : rxOne lib lc ⟨pkt, kept.length, tm, st⟩ i
          = some ⟨Function.update pkt kept.length mb, (kept ++ mb.toList).length, tm', st'⟩ := by
        rw [rxOne_eq (s := ⟨pkt, kept.length, tm, st⟩) hread hr, hk]
      have hle' : (kept ++ mb.toList).length ≤ i + 1 := by
        rw [← hk]
        split <;> omega
      obtain ⟨pkt', hrun, hholds⟩ := ih tm' st' hle' hfront hbehind
      refine ⟨pkt', ?_, ?_⟩
      · rw [List.length_cons, List.range'_succ, List.foldlM_cons, hone, collect, hr]
        simpa [List.append_assoc] using hrun
      · rw [collect, hr]
        simpa [List.append_assoc] using hholds

/-! ## Callbacks -/

/-- A burst as an array. -/
def RxBurst.Is (burst : RxBurst) (pkts : List PktId) : Prop :=
  burst.2 = pkts.length ∧ Holds burst.1 pkts

/-- **HANDED OVER**: the library has been asked about all fragments of a burst, and what
    it has given back goes on in their places; then those whose time is over are freed, if
    there have been fragments at all. -/
def Handed (lib : RteIpFrag τ) (lc : UInt8) (pkts : List PktId) (st : FragState τ)
    (out : List PktId) (st' : FragState τ) : Prop :=
  ∃ given t mem, Asked lib (fragments st.mem pkts) (st.tbl lc, st.mem) given (t, mem)
    ∧ out = merged st.mem pkts given
    ∧ ((st'.tbl lc, st'.mem) = (t, mem) ∨ (st'.tbl lc, st'.mem) = lib.freeDeathRow t mem)

/-- **A CALLBACK** ends, with the packets that go on in its array. -/
theorem rxCallback_collected (laws : Laws lib held) {burst : RxBurst} {pkts : List PktId}
    (st : FragState τ) (hburst : burst.Is pkts) (hstored : Stored held (st.tbl lc) st.mem)
    (hfresh : Fresh held lc pkts st) :
    ∃ burst' out st', rxCallback lib lc burst st = some (burst', st') ∧ burst'.Is out
      ∧ Collected held lc pkts st out st' ∧ Handed lib lc pkts st out st' := by
  obtain ⟨hlen, hholds⟩ := hburst
  have hempty : Holds burst.1 [] := fun _ h => absurd h (Nat.not_lt_zero _)
  have hrest : Holds (fun j => burst.1 (0 + j)) pkts := by
    intro j hj
    show burst.1 (0 + j) = _
    rw [Nat.zero_add]
    exact hholds j hj
  obtain ⟨pkt', hrun, hholds'⟩ := rxLoop_eq lib lc pkts 0 st (Nat.le_refl 0) hempty hrest
  rw [List.nil_append] at hrun hholds'
  rw [List.length_nil] at hrun
  have hall := collect_collected laws 0 hstored hfresh
  obtain ⟨given, hasked, hout⟩ := collect_asked laws 0 hstored hfresh
  generalize collect lib lc pkts 0 st = r at *
  refine ⟨(pkt', r.1.length), r.1, if r.2.1 ≠ 0 then drainDeathRow lib lc r.2.2 else r.2.2,
    ?_, ⟨rfl, hholds'⟩, ?_, given, _, _, hasked, hout, ?_⟩
  · rw [rxCallback, hlen, List.range_eq_range', hrun]
    rfl
  · split
    · exact hall.drained laws
    · exact hall
  · split
    · refine .inr (Prod.ext ?_ rfl)
      exact Function.update_self ..
    · exact .inl rfl

/-- Where there are no fragments, it changes nothing. -/
theorem rxCallback_clear {burst : RxBurst} {pkts : List PktId} {st : FragState τ}
    (hburst : burst.Is pkts) (h : ∀ x ∈ pkts, fragmentOf (st.mem x) = none) :
    rxCallback lib lc burst st = some (burst, st) := by
  have hloop : ∀ n ≤ pkts.length, (List.range n).foldlM (rxOne lib lc) ⟨burst.1, 0, 0, st⟩
      = some ⟨burst.1, n, 0, st⟩ := by
    intro n
    induction n with
    | zero => exact fun _ => rfl
    | succ n ih =>
        intro hn
        have hget : pkts[n]? = some pkts[n] := List.getElem?_eq_getElem hn
        have hread : burst.1 n = some pkts[n] := (hburst.2 n hn).trans hget
        have hr : rxPacket lib lc pkts[n] 0 st = (some pkts[n], 0, st) := by
          rw [rxPacket, h pkts[n] (List.getElem_mem hn)]
        rw [List.range_succ, List.foldlM_append, ih (Nat.le_of_lt hn)]
        show (List.foldlM (rxOne lib lc) ⟨burst.1, n, 0, st⟩ [n]) = _
        rw [List.foldlM_cons, rxOne_eq (s := ⟨burst.1, n, 0, st⟩) hread hr]
        -- what is written is what is there
        rw [← hread, Function.update_eq_self, hread]
        rfl
  have hall := hloop burst.2 (Nat.le_of_eq hburst.1)
  rw [rxCallback, hall]
  rfl

/-- Any number of callbacks behind a burst without fragments. -/
theorem rteEthRxBurst_clear {cbs : List UInt8} {burst : RxBurst} {pkts : List PktId}
    {st : FragState τ} (hburst : burst.Is pkts) (h : ∀ x ∈ pkts, fragmentOf (st.mem x) = none) :
    rteEthRxBurst lib cbs burst st = some (burst, st) := by
  induction cbs with
  | nil => rfl
  | cons lc cbs ih =>
      rw [rteEthRxBurst, List.foldlM_cons, rxCallback_clear hburst h]
      exact ih

/-- **SEVERAL CALLBACKS** of one lcore. -/
theorem rteEthRxBurst_collected (laws : Laws lib held) {cbs : List UInt8}
    (hcbs : ∀ l ∈ cbs, l = lc) {burst : RxBurst} {pkts : List PktId} (st : FragState τ)
    (hburst : burst.Is pkts) (hstored : Stored held (st.tbl lc) st.mem)
    (hfresh : Fresh held lc pkts st) :
    ∃ burst' out st', rteEthRxBurst lib cbs burst st = some (burst', st') ∧ burst'.Is out
      ∧ Stored held (st'.tbl lc) st'.mem ∧ Fresh held lc out st' := by
  induction cbs generalizing burst pkts st with
  | nil => exact ⟨burst, pkts, st, rfl, hburst, hstored, hfresh⟩
  | cons l cbs ih =>
      obtain rfl := hcbs l List.mem_cons_self
      obtain ⟨burst₁, out₁, st₁, hrun, hburst₁, hone, -⟩ :=
        rxCallback_collected laws st hburst hstored hfresh
      obtain ⟨burst', out, st', hrest, hburst', hstored', hfresh'⟩ :=
        ih (fun x hx => hcbs x (List.mem_cons_of_mem _ hx)) st₁ hburst₁ hone.stored hone.fresh
      refine ⟨burst', out, st', ?_, hburst', hstored', hfresh'⟩
      rw [rteEthRxBurst, List.foldlM_cons, hrun]
      exact hrest

/-! ## The callbacks of a lcore -/

variable {env : InstallEnv} {rxq : RxQueues} {q : UInt16 × UInt8}

/-- A loop over queues adds the lcore to each of them. -/
theorem addCallbacks_eq {qs : List (UInt16 × UInt8)} {cbs cbs' : Callbacks}
    (h : qs.foldlM (rteEthAddRxCallback lc env) cbs = some cbs') :
    cbs' q = cbs q ++ (qs.filter (· = q)).map fun _ => lc := by
  induction qs generalizing cbs with
  | nil =>
      cases h
      simp
  | cons p qs ih =>
      rw [List.foldlM_cons, rteEthAddRxCallback] at h
      split at h
      · have ih := ih h
        by_cases hp : p = q
        · subst hp
          rw [ih, Function.update_self]
          simp
        · rw [ih, Function.update_of_ne (Ne.symm hp)]
          simp [hp]
      · cases h

theorem reassembleLcoreInit_eq {cbs cbs' : Callbacks}
    (h : reassembleLcoreInit lc env rxq cbs = some cbs') :
    cbs' q = cbs q ++ ((rxq lc).filter (· = q)).map fun _ => lc := by
  rw [reassembleLcoreInit] at h
  split at h
  · cases h
  · exact addCallbacks_eq h

/-- **ALL ENTRIES** of `lcore_params`. -/
theorem reassembleInit_eq {params : List LcoreParams} {cbs : Callbacks}
    (h : reassembleInit env rxq params = some cbs) :
    cbs q = params.flatMap fun p => ((rxq p.lcoreId).filter (· = q)).map fun _ => p.lcoreId := by
  have hall : ∀ {cbs₀ : Callbacks}, params.foldlM
      (fun cbs p => reassembleLcoreInit p.lcoreId env rxq cbs) cbs₀ = some cbs →
      cbs q = cbs₀ q ++ params.flatMap
        fun p => ((rxq p.lcoreId).filter (· = q)).map fun _ => p.lcoreId := by
    clear h
    induction params with
    | nil =>
        intro cbs₀ h
        cases h
        simp
    | cons p params ih =>
        intro cbs₀ h
        rw [List.foldlM_cons] at h
        cases hone : reassembleLcoreInit p.lcoreId env rxq cbs₀ with
        | none =>
            rw [hone] at h
            cases h
        | some cbs₁ =>
            rw [hone] at h
            rw [ih h, reassembleLcoreInit_eq hone, List.flatMap_cons, List.append_assoc]
  exact (hall h).trans (List.nil_append _)

/-- How many callbacks a queue of a lcore has: the entries of the lcore in
    `lcore_params`, and how often it polls the queue. -/
def nbCallbacks (params : List LcoreParams) (rxq : RxQueues) (lc : UInt8)
    (q : UInt16 × UInt8) : Nat :=
  (params.countP fun p => p.lcoreId = lc) * (rxq lc).count q

/-- **THE CALLBACKS** of a queue that no other lcore polls. -/
theorem callbacks_eq {params : List LcoreParams} {cbs : Callbacks}
    (hinit : reassembleInit env rxq params = some cbs) (hone : ∀ l, q ∈ rxq l → l = lc) :
    cbs q = List.replicate (nbCallbacks params rxq lc q) lc := by
  rw [reassembleInit_eq hinit, nbCallbacks]
  clear hinit
  induction params with
  | nil =>
      rw [List.countP_nil, Nat.zero_mul]
      rfl
  | cons p params ih =>
      rw [List.flatMap_cons, ih]
      by_cases hp : p.lcoreId = lc
      · have hone : ((rxq p.lcoreId).filter (· = q)).map (fun _ => p.lcoreId)
            = List.replicate ((rxq lc).count q) lc := by
          rw [hp, List.map_const', ← List.countP_eq_length_filter, List.count]
          exact congrArg (List.replicate · lc) (List.countP_congr fun q' _ => by simp)
        rw [hone, List.countP_cons, if_pos (decide_eq_true hp), Nat.succ_mul, Nat.add_comm,
          List.replicate_add]
      · have hnil : (rxq p.lcoreId).filter (· = q) = [] := by
          refine List.filter_eq_nil_iff.mpr fun q' hq' heq => ?_
          obtain rfl : q' = q := of_decide_eq_true heq
          exact hp (hone _ hq')
        rw [hnil, List.countP_cons, if_neg (by simpa using hp)]
        rfl

/-- A lcore that polls a queue has an entry. -/
theorem nbCallbacks_pos {params : List LcoreParams}
    (hrx : initLcoreRxQueues (fun _ => []) params = some rxq) (hq : q ∈ rxq lc) :
    0 < nbCallbacks params rxq lc q := by
  have hin := hq
  rw [PortInit.initLcoreRxQueues_eq hrx lc, List.nil_append] at hin
  obtain ⟨e, he, -⟩ := List.mem_map.mp hin
  obtain ⟨he, hl⟩ := List.mem_filter.mp he
  exact Nat.mul_pos (List.countP_pos_iff.mpr ⟨e, he, hl⟩) (List.count_pos_iff.mpr hq)

/-! ## Runs -/

/-- What happens on a lcore: a burst of one of its queues, or something elsewhere. -/
inductive Act
  | burst (q : UInt16 × UInt8) (burst : RxBurst) (mem : PktId → Mbuf)
  | elsewhere

/-- **A STEP** of the lcore: a NIC writes packets that are free, and nobody else touches
    the table of the lcore or what is in it. -/
inductive Step (lib : RteIpFrag τ) (held : Fam → τ → PktId → Prop) (rxq : RxQueues)
    (cbs : Callbacks) (lc : UInt8) : Act → FragState τ → FragState τ → Prop
  | burst {q : UInt16 × UInt8} {burst burst' : RxBurst} {mem : PktId → Mbuf}
      {pkts : List PktId} {st st' : FragState τ} (hq : q ∈ rxq lc) (hburst : burst.Is pkts)
      (hfresh : Fresh held lc pkts st) (hmem : ∀ y, y ∉ pkts → mem y = st.mem y)
      (hrun : rteEthRxBurst lib (cbs q) burst { st with mem := mem } = some (burst', st')) :
      Step lib held rxq cbs lc (.burst q burst mem) st st'
  | elsewhere {st st' : FragState τ} (htbl : st'.tbl lc = st.tbl lc)
      (hmem : ∀ g y, held g (st.tbl lc) y → st'.mem y = st.mem y) :
      Step lib held rxq cbs lc .elsewhere st st'

/-- What a NIC writes is not in the table. -/
theorem stored_arrived {pkts : List PktId} {st : FragState τ} {mem : PktId → Mbuf}
    (h : Stored held (st.tbl lc) st.mem) (hfresh : Fresh held lc pkts st)
    (hmem : ∀ y, y ∉ pkts → mem y = st.mem y) : Stored held (st.tbl lc) mem := by
  intro g y hheld
  rw [hmem y fun hin => hfresh.2 y hin g hheld]
  exact h g y hheld

/-- **THE INVARIANT** is kept. -/
theorem Step.stored {cbs : Callbacks} {a : Act} {st st' : FragState τ} (laws : Laws lib held)
    (hcbs : ∀ q ∈ rxq lc, ∀ l ∈ cbs q, l = lc) (h : Stored held (st.tbl lc) st.mem)
    (hstep : Step lib held rxq cbs lc a st st') : Stored held (st'.tbl lc) st'.mem := by
  cases hstep with
  | @burst q burst burst' mem pkts _ _ hq hburst hfresh hmem hrun =>
      have hstored := stored_arrived h hfresh hmem
      have hfresh' : Fresh held lc pkts { st with mem := mem } := ⟨hfresh.1, hfresh.2⟩
      obtain ⟨_, _, _, hrun', -, hstored', -⟩ :=
        rteEthRxBurst_collected laws (hcbs q hq) { st with mem := mem } hburst hstored hfresh'
      rw [hrun] at hrun'
      cases hrun'
      exact hstored'
  | elsewhere htbl hmem =>
      rw [htbl]
      intro g y hheld
      rw [hmem g y hheld]
      exact h g y hheld

/-- What a lcore gets of a burst: its packets that are no fragments, untouched and in
    their order, and what the library gives back for the others, put together. -/
structure Received (lib : RteIpFrag τ) (lc : UInt8) (pkts : List PktId) (st : FragState τ)
    (out : List PktId) (st' : FragState τ) : Prop where
  handed : Handed lib lc pkts st out st'
  nodup : out.Nodup
  order : (pkts.filter fun x => (fragmentOf (st.mem x)).isNone).Sublist out
  clear : ∀ x ∈ pkts, fragmentOf (st.mem x) = none → st'.mem x = st.mem x
  whole : ∀ x ∈ out, (x ∈ pkts ∧ fragmentOf (st.mem x) = none) ∨ Mended (st'.mem x)

/-- Such a packet can be a fragment of IPv6 only. -/
theorem Received.fragment {pkts out : List PktId} {st st' : FragState τ}
    (h : Received lib lc pkts st out st') {x : PktId} (hx : x ∈ out)
    (hnest : fragmentOf (st'.mem x) ≠ some .ipv6) : fragmentOf (st'.mem x) = none := by
  rcases h.whole x hx with ⟨hin, hnone⟩ | htype | ⟨-, hnone, -⟩
  · rw [h.clear x hin hnone]
    exact hnone
  · cases hfrag : fragmentOf (st'.mem x) with
    | none => rfl
    | some f =>
        have hf := fragmentOf_etherType hfrag
        rw [htype] at hf
        cases f with
        | ipv4 => cases hf
        | ipv6 => exact absurd hfrag hnest
  · exact hnone

/-- **BURSTS ARE WHOLE**: a queue that only one lcore polls has a callback for each entry
    of the lcore, as often as it is polled.  In every run of the lcore a burst of one of its
    queues comes out of the first callback with the packets of `Received`, and the other
    callbacks leave it so, unless a packet of IPv6 has come out with a second fragment
    header. -/
theorem bursts_whole (laws : Laws lib held) {params : List LcoreParams} {cbs : Callbacks}
    (hrx : initLcoreRxQueues (fun _ => []) params = some rxq)
    (hinit : reassembleInit env rxq params = some cbs)
    (hone : ∀ q ∈ rxq lc, ∀ l, q ∈ rxq l → l = lc) {st₀ st : FragState τ}
    (hempty : ∀ g y, ¬ held g (st₀.tbl lc) y)
    (hrun : Rises.Reach (Step lib held rxq cbs lc) st₀ st) (hq : q ∈ rxq lc)
    {burst : RxBurst} {pkts : List PktId} {mem : PktId → Mbuf} (hburst : burst.Is pkts)
    (hfresh : Fresh held lc pkts st) (hmem : ∀ y, y ∉ pkts → mem y = st.mem y) :
    cbs q = List.replicate (nbCallbacks params rxq lc q) lc
      ∧ ∃ burst' out st', rxCallback lib lc burst { st with mem := mem } = some (burst', st')
        ∧ burst'.Is out ∧ Received lib lc pkts { st with mem := mem } out st'
        ∧ ((∀ x ∈ out, fragmentOf (st'.mem x) ≠ some .ipv6) →
          rteEthRxBurst lib (cbs q) burst { st with mem := mem } = some (burst', st')) := by
  have hcbs : ∀ q ∈ rxq lc, ∀ l ∈ cbs q, l = lc := by
    intro q hq l hl
    rw [callbacks_eq hinit (hone q hq)] at hl
    exact (List.mem_replicate.mp hl).2
  have hkeep : ∀ a (s s' : FragState τ), Stored held (s.tbl lc) s.mem →
      Step lib held rxq cbs lc a s s' → Stored held (s'.tbl lc) s'.mem :=
    fun _ _ _ h hstep => hstep.stored laws hcbs h
  have hstored : Stored held (st.tbl lc) st.mem :=
    hrun.keeps hkeep fun g y hheld => absurd hheld (hempty g y)
  have hstored' := stored_arrived hstored hfresh hmem
  have hfresh' : Fresh held lc pkts { st with mem := mem } := ⟨hfresh.1, hfresh.2⟩
  obtain ⟨burst', out, st', hfirst, hburst', h, hhanded⟩ :=
    rxCallback_collected laws { st with mem := mem } hburst hstored' hfresh'
  have hreceived : Received lib lc pkts { st with mem := mem } out st' :=
    ⟨hhanded, h.fresh.1, h.order, h.clear, h.whole⟩
  have hcallbacks := callbacks_eq hinit (hone q hq)
  refine ⟨hcallbacks, burst', out, st', hfirst, hburst', hreceived, fun hnest => ?_⟩
  obtain ⟨n, hn⟩ := Nat.exists_eq_succ_of_ne_zero (nbCallbacks_pos hrx hq).ne'
  rw [hcallbacks, hn, List.replicate_succ, rteEthRxBurst, List.foldlM_cons, hfirst]
  exact rteEthRxBurst_clear hburst' fun x hx => hreceived.fragment hx (hnest x hx)

/-- Two fragments put together in the mbuf of the first: its length is that of both, and
    it is no fragment any more. -/
def joined (first second : Mbuf) : Mbuf :=
  let iph := first.dataOff + rteEtherHdrLen
  let len := ofBe (load first.buf (iph + 2) 2)
    + ofBe (load second.buf (second.dataOff + rteEtherHdrLen + 2) 2) - 20
  (first.write (iph + 2) (toBe 2 len)).write (iph + 6) [0, 0]

theorem joined_before (first second : Mbuf) {i : Nat} (hi : i < first.dataOff + 14) :
    (joined first second).buf i = first.buf i := by
  have h14 : rteEtherHdrLen = 14 := rfl
  rw [joined, Mbuf.write_buf, store_outside _ (.inl (by omega)), Mbuf.write_buf,
    store_outside _ (.inl (by omega))]

theorem joined_etherType (first second : Mbuf) :
    etherType (joined first second) = etherType first := by
  rw [etherType, etherType, show (joined first second).dataOff = first.dataOff from rfl]
  exact congrArg ofBe (load_congr fun i hi => joined_before first second (by omega))

theorem joined_whole (first second : Mbuf) :
    ipv4Fragmented (joined first second).buf
      ((joined first second).dataOff + rteEtherHdrLen) = false := by
  have hload : load (joined first second).buf
      ((joined first second).dataOff + rteEtherHdrLen + 6) 2 = [0, 0] := by
    rw [joined, Mbuf.write_buf]
    exact load_store_eq _ rfl
  rw [ipv4Fragmented, hload]
  decide

/-- A library for datagrams of two fragments of IPv4; others wait. -/
def pairFrag : RteIpFrag (List (Fam × PktId)) where
  reassemble f t mem x _ :=
    match t.find? fun e => e.1 = f ∧ f = .ipv4 with
    | none => (none, (f, x) :: t, mem)
    | some e => (some e.2, t.filter fun e' => e'.2 ≠ e.2,
        Function.update mem e.2 (joined (mem e.2) (mem x)))
  freeDeathRow t mem := (t, mem)
  ipv4Cksum b a := toBe 2 (ones16 - fold ones16 (wordSum b a (2 * ipHl b a)))
  rdtsc n := n.toUInt64 + 1

/-- A fragment waits, or closes the one that has waited. -/
theorem pairFrag_cases (f : Fam) (t : List (Fam × PktId)) (mem : PktId → Mbuf) (x : PktId)
    (now : UInt64) :
    pairFrag.reassemble f t mem x now = (none, (f, x) :: t, mem)
      ∨ ∃ y, f = .ipv4 ∧ (f, y) ∈ t ∧ pairFrag.reassemble f t mem x now
        = (some y, t.filter fun e => e.2 ≠ y,
          Function.update mem y (joined (mem y) (mem x))) := by
  rw [pairFrag]
  dsimp only
  cases hfind : t.find? fun e => e.1 = f ∧ f = .ipv4 with
  | none => exact .inl rfl
  | some e =>
      obtain ⟨g, y⟩ := e
      have hmem := List.mem_of_find?_eq_some hfind
      have hsome := List.find?_some hfind
      obtain ⟨hg, hf⟩ := of_decide_eq_true hsome
      obtain rfl : g = f := hg
      exact .inr ⟨y, hf, hmem, rfl⟩

theorem pairFrag_laws : Laws pairFrag fun f t x => (f, x) ∈ t where
  holds := by
    intro f t mem x now g y h
    rcases pairFrag_cases f t mem x now with heq | ⟨z, -, -, heq⟩
    · rw [heq] at h
      rcases List.mem_cons.mp h with h | h
      · exact .inr ⟨congrArg Prod.fst h, congrArg Prod.snd h⟩
      · exact .inl h
    · rw [heq] at h
      exact .inl (List.mem_of_mem_filter h)
  gives := by
    intro f t mem x now y hy
    rcases pairFrag_cases f t mem x now with heq | ⟨z, -, hz, heq⟩
    · rw [heq] at hy
      cases hy
    · rw [heq] at hy ⊢
      obtain rfl := Option.some.inj hy
      refine ⟨.inl hz, fun g h => ?_⟩
      have hne := (List.mem_filter.mp h).2
      simp at hne
  others := by
    intro f t mem x now y hfree hne
    rcases pairFrag_cases f t mem x now with heq | ⟨z, -, hz, heq⟩
    · rw [heq]
    · rw [heq]
      refine Function.update_of_ne ?_ _ _
      rintro rfl
      exact hfree f hz
  stored := by
    intro f t mem x now hstored hready
    rcases pairFrag_cases f t mem x now with heq | ⟨z, -, hz, heq⟩
    · rw [heq]
      intro g y h
      rcases List.mem_cons.mp h with h | h
      · cases h
        exact hready
      · exact hstored g y h
    · rw [heq]
      intro g y h
      obtain ⟨hin, hne⟩ := List.mem_filter.mp h
      have hne : y ≠ z := of_decide_eq_true hne
      show Ready g (Function.update mem z _ y)
      rw [Function.update_of_ne hne]
      exact hstored g y hin
  front := by
    intro f t mem x now y hstored _ hy
    rcases pairFrag_cases f t mem x now with heq | ⟨z, -, hz, heq⟩
    · rw [heq] at hy
      cases hy
    · rw [heq] at hy ⊢
      obtain rfl := Option.some.inj hy
      show etherType (Function.update mem z _ z) = _ ∧ (Function.update mem z _ z).l2Len = _
      rw [Function.update_self, joined_etherType]
      obtain ⟨htype, hl2, -⟩ := hstored f z hz
      exact ⟨htype, hl2⟩
  whole := by
    intro t mem x now y _ _ hy
    rcases pairFrag_cases .ipv4 t mem x now with heq | ⟨z, -, -, heq⟩
    · rw [heq] at hy
      cases hy
    · rw [heq] at hy ⊢
      obtain rfl := Option.some.inj hy
      show ipv4Fragmented (Function.update mem z _ z).buf
        ((Function.update mem z _ z).dataOff + _) = false
      rw [Function.update_self]
      exact joined_whole _ _
  rowHolds := fun _ _ _ _ h => h
  rowOthers := fun _ _ _ _ => rfl
  rowStored := fun _ _ h => h
  cksum := fun _ _ => rfl

/-- Two queues of lcore 1. -/
def twoQueues : List LcoreParams := [⟨0, 0, 1⟩, ⟨1, 0, 1⟩]

/-- IPv4 packets: 1 and 2 are the two halves of a datagram of sixteen bytes. -/
def threeFrames (x : PktId) : Mbuf :=
  .mid (fun i =>
    if i = 140 then 8
    else if i = 142 then 0x45
    else if i = 145 then 28
    else if i = 148 ∧ x = 1 then 0x20
    else if i = 149 ∧ x = 2 then 1
    else 0) 42

/-- Both queues have two callbacks.  A whole packet and two fragments come: the whole
    packet goes on, and behind it the datagram in the mbuf of its first fragment. -/
theorem bursts_whole_joined : ∃ rxq cbs burst' st',
    initLcoreRxQueues (fun _ => []) twoQueues = some rxq
      ∧ reassembleInit ⟨fun _ _ => true, fun _ _ => true⟩ rxq twoQueues = some cbs
      ∧ cbs (0, 0) = [1, 1] ∧ fragmentOf (threeFrames 1) = some .ipv4
      ∧ fragmentOf (threeFrames 2) = some .ipv4
      ∧ rteEthRxBurst pairFrag (cbs (0, 0)) (fun i => [0, 1, 2][i]?, 3)
        ⟨fun _ => [], threeFrames, 0⟩ = some (burst', st')
      ∧ burst'.Is [0, 1]
      ∧ Received pairFrag 1 [0, 1, 2] ⟨fun _ => [], threeFrames, 0⟩ [0, 1] st' := by
  obtain ⟨rxq, hrx, cbs, hinit, hq, hcount⟩ : ∃ rxq,
      initLcoreRxQueues (fun _ => []) twoQueues = some rxq ∧ ∃ cbs,
        reassembleInit ⟨fun _ _ => true, fun _ _ => true⟩ rxq twoQueues = some cbs
          ∧ (0, 0) ∈ rxq 1 ∧ nbCallbacks twoQueues rxq 1 (0, 0) = 2 :=
    ⟨_, rfl, _, rfl, by decide, by decide⟩
  have hone : ∀ q ∈ rxq 1, ∀ l, q ∈ rxq l → l = 1 := by
    intro q _ l hl
    rw [PortInit.initLcoreRxQueues_eq hrx l, List.nil_append] at hl
    obtain ⟨e, he, -⟩ := List.mem_map.mp hl
    obtain ⟨hin, hlcore⟩ := List.mem_filter.mp he
    rw [← of_decide_eq_true hlcore]
    simp only [twoQueues, List.mem_cons, List.not_mem_nil, or_false] at hin
    rcases hin with rfl | rfl <;> rfl
  have hburst : RxBurst.Is (fun i => [0, 1, 2][i]?, 3) [0, 1, 2] := ⟨rfl, fun _ _ => rfl⟩
  have hempty : ∀ g y, ¬ (g, y) ∈ (fun _ => [] : UInt8 → List (Fam × PktId)) 1 :=
    fun _ _ h => by cases h
  obtain ⟨hcbs, burst', out, st', hrun, hburst', hreceived, hrest⟩ := bursts_whole pairFrag_laws
    hrx hinit hone hempty (Rises.Reach.refl ⟨fun _ => [], threeFrames, 0⟩) hq hburst
    ⟨by decide, fun y _ g => hempty g y⟩ fun y _ => Eq.refl (threeFrames y)
  rw [hcount] at hcbs
  -- what the callback comes to
  have hcomes : (rxCallback pairFrag 1 (fun i => [0, 1, 2][i]?, 3)
      ⟨fun _ => [], threeFrames, 0⟩).map (fun r => (r.1.2, r.1.1 0, r.1.1 1,
        fragmentOf (r.2.mem 0), fragmentOf (r.2.mem 1)))
      = some (2, some 0, some 1, none, none) := by decide +kernel
  rw [hrun] at hcomes
  simp only [Option.map_some, Option.some.injEq, Prod.mk.injEq] at hcomes
  obtain ⟨hlen, hzero, hfirst, hclear0, hclear1⟩ := hcomes
  obtain ⟨hout, hholds⟩ := hburst'
  have hout : out = [0, 1] := by
    rw [hlen] at hout
    refine List.ext_getElem? fun i => ?_
    rcases i with _ | _ | i
    · rw [← hholds 0 (by omega), hzero]
      rfl
    · rw [← hholds 1 (by omega), hfirst]
      rfl
    · rw [List.getElem?_eq_none (by omega), List.getElem?_eq_none (by simp)]
  subst hout
  refine ⟨rxq, cbs, burst', st', hrx, hinit, hcbs, by decide, by decide, hrest ?_,
    ⟨hlen, hholds⟩, hreceived⟩
  intro x hx
  rcases List.mem_cons.mp hx with rfl | hx
  · rw [hclear0]
    exact (Option.some_ne_none _).symm
  · obtain rfl := List.mem_singleton.mp hx
    rw [hclear1]
    exact (Option.some_ne_none _).symm

end Reassembly
