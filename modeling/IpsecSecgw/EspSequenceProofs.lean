import Mathlib.Data.List.Nodup
import IpsecSecgw.EspProofs

/-! # Sequence numbers over a run

    A run is any list of packets handed to `esp_outbound` one after the other
    with one SA.  The SA counts in 64 bits, the ESP header carries 32, and
    nothing in the function looks at the end of that space; besides, in
    transport mode the trailer of a packet shorter than its own header is
    written over the sequence number.

    `sentSeqs_nodup` is the freshness result for the runs that stay clear of
    both; `sentSeqs_replicate` follows a run beyond the end of the space, where
    `sequence_reused` finds the first number again. -/

namespace EspSequence

open ByteStore SaModel MbufModel Esp

/-! ## Runs -/

/-- The outer header length of the packet a successful call produces. -/
def sentHdrLen (m : Mbuf) (sa : IpsecSa) : Nat :=
  match outboundHdr m sa with
  | none => 0
  | some (hdrLen, _) => outerHdrLen sa hdrLen

/-- The 32-bit sequence number in the ESP header behind `hdrLen` bytes. -/
def wireSeq (m : Mbuf) (hdrLen : Nat) : Nat :=
  ofBe (load m.buf (m.dataOff + hdrLen + 4) 4)

/-- The sequence numbers a run sends out: one for each call that returns
    zero.  A call that faults ends the run. -/
def sentSeqs (sa : IpsecSa) : List Mbuf → List Nat
  | [] => []
  | m :: ms =>
      match espOutbound m sa with
      | none => []
      | some (rc, m', sa') =>
          if rc = 0 then wireSeq m' (sentHdrLen m sa) :: sentSeqs sa' ms
          else sentSeqs sa' ms

/-- The trailer written for this packet stays off the sequence number: it
    starts behind it or ends before it.  A packet that is not shorter than its
    header always passes. -/
def TrailerClear (m : Mbuf) (sa : IpsecSa) : Prop :=
  ∀ hdrLen nlp, outboundHdr m sa = some (hdrLen, nlp) →
    hwTrailer sa.primary txHwTrailerOffload = true
      ∨ hdrLen ≤ m.dataLen + sa.ivLen.toNat
          + trailerFrom sa (padLen m.dataLen hdrLen sa.blockSize)
      ∨ m.dataLen + padLen m.dataLen hdrLen sa.blockSize + sa.ivLen.toNat + 4
          ≤ hdrLen

/-- Before a call: the 32-bit space is not used up, and the trailer is
    clear. -/
def StepClear (m : Mbuf) (sa : IpsecSa) : Prop :=
  sa.seq.toNat < 2 ^ 32 ∧ TrailerClear m sa

/-- Every call of the run is clear. -/
def RunClear (sa : IpsecSa) : List Mbuf → Prop
  | [] => True
  | m :: ms => StepClear m sa ∧
      ∀ rc m' sa', espOutbound m sa = some (rc, m', sa') → RunClear sa' ms

/-! ## One step -/

/-- **ONE STEP**: with a clear trailer the header carries the low half of the
    advanced counter. -/
theorem wireSeq_of_success {m m' : Mbuf} {sa sa' : IpsecSa}
    (ht : sa.FromTables) (hclear : TrailerClear m sa)
    (h : espOutbound m sa = some (0, m', sa')) :
    wireSeq m' (sentHdrLen m sa) = sa'.seq.toNat % 2 ^ 32 := by
  obtain ⟨hbs, hiv, hdig⟩ := ht.sizes
  obtain ⟨hdrLen, nlp, padding, m1, esp, m2, iv, hhdr, hsize, happ, henc, hsa,
    -, htail⟩ := espOutbound_success h
  obtain ⟨md, hmd⟩ := espEncap_mode henc
  have hmax := m.bufLen_le
  have hwin := m.window
  have hle := outboundHdr_le hhdr
  have hpad := padLen_bounds m.dataLen hbs (by omega) hle
  obtain ⟨-, hoff1, -, hplace⟩ := appendTrailer_some (by omega) happ
  have hbig : ipMaxPacket = 65535 := rfl
  rw [← hoff1] at henc
  obtain ⟨hesp, hend, -, -⟩ := espEncap_place hmd
    (fun hne => outboundHdr_tunnel hmd hhdr hne) (by omega) henc
  obtain ⟨hoff, -, hframe⟩ := outboundTail_frame hpad.1 htail
  rw [Mbuf.write_dataOff, Mbuf.write_dataOff] at hoff
  have hfrom : trailerFrom sa' (padLen m.dataLen hdrLen sa.blockSize)
      = trailerFrom sa (padLen m.dataLen hdrLen sa.blockSize) := by
    rw [hsa]
    rfl
  -- the trailer stays off the four bytes
  have hseq : load m'.buf (esp + 4) 4
      = load (store m2.buf esp (toBe 4 sa.spi.toNat
        ++ toBe 4 sa'.seq.toNat)) (esp + 4) 4 := by
    refine load_congr ?_
    intro i hi
    have houtside : esp + 4 + i < padding
        + trailerFrom sa' (padLen m.dataLen hdrLen sa.blockSize)
        ∨ padding + padLen m.dataLen hdrLen sa.blockSize ≤ esp + 4 + i := by
      cases hhw : hwTrailer sa.primary txHwTrailerOffload with
      | true =>
          have : trailerFrom sa (padLen m.dataLen hdrLen sa.blockSize)
              = padLen m.dataLen hdrLen sa.blockSize := by
            rw [trailerFrom, if_pos, if_pos hhw]
            rw [hwTrailer, Bool.and_eq_true, beq_iff_eq] at hhw
            exact hhw.1
          omega
      | false =>
          have hp := hplace hhw
          rcases hclear hdrLen nlp hhdr with hc | hc | hc
          · rw [hhw] at hc
            cases hc
          · omega
          · omega
    rw [hframe _ houtside, Mbuf.write_buf, store_outside _ (by omega),
      Mbuf.write_buf]
  rw [wireSeq, sentHdrLen, hhdr]
  dsimp only
  rw [hoff, ← hesp, hseq, ← store_append, length_toBe, load_store_eq _ (by simp),
    ofBe_toBe_four]

/-- The counter goes up by one and does not wrap. -/
theorem seq_succ {sa : IpsecSa} (h : sa.seq.toNat < 2 ^ 32) :
    ({ sa with seq := sa.seq + 1 } : IpsecSa).seq.toNat
      = sa.seq.toNat + 1 := by
  show (sa.seq + 1).toNat = _
  rw [UInt64.toNat_add]
  show (sa.seq.toNat + 1) % 2 ^ 64 = _
  omega

/-- A call keeps the lengths of the SA. -/
theorem fromTables_step {m m' : Mbuf} {sa sa' : IpsecSa} {rc : Int}
    (ht : sa.FromTables) (h : espOutbound m sa = some (rc, m', sa')) :
    sa'.FromTables := by
  rcases espOutbound_sa h with ⟨rfl, -⟩ | rfl
  · exact ht
  · exact ht

/-! ## Whole runs -/

/-- **THE RUN INVARIANT**: what a clear run sends are the images of counter
    values that grow strictly from the state it starts in and stay within the
    32-bit space. -/
theorem sentSeqs_eq_map {sa : IpsecSa} {ms : List Mbuf} (ht : sa.FromTables)
    (hclear : RunClear sa ms) :
    ∃ ts : List Nat, sentSeqs sa ms = ts.map (· % 2 ^ 32)
      ∧ ts.Pairwise (· < ·) ∧ ∀ t ∈ ts, sa.seq.toNat < t ∧ t ≤ 2 ^ 32 := by
  induction ms generalizing sa with
  | nil => exact ⟨[], rfl, List.Pairwise.nil, fun t h => nomatch h⟩
  | cons m ms ih =>
      obtain ⟨⟨hseq, htrail⟩, hrest⟩ := hclear
      rw [sentSeqs]
      cases hcall : espOutbound m sa with
      | none => exact ⟨[], rfl, List.Pairwise.nil, fun t h => nomatch h⟩
      | some r =>
          obtain ⟨rc, m', sa'⟩ := r
          obtain ⟨ts, hts, hmono, hrange⟩ :=
            ih (fromTables_step ht hcall) (hrest rc m' sa' hcall)
          dsimp only
          have hgrow : sa.seq.toNat ≤ sa'.seq.toNat := by
            rcases espOutbound_sa hcall with ⟨hsame, -⟩ | hstep
            · exact Nat.le_of_eq (by rw [hsame])
            · rw [hstep, seq_succ hseq]
              omega
          by_cases hrc : rc = 0
          · subst hrc
            have hstep : sa'.seq.toNat = sa.seq.toNat + 1 := by
              rcases espOutbound_sa hcall with ⟨-, hne⟩ | hstep
              · exact absurd rfl hne
              · rw [hstep, seq_succ hseq]
            refine ⟨sa'.seq.toNat :: ts, ?_, ?_, ?_⟩
            · rw [if_pos rfl, hts, wireSeq_of_success ht htrail hcall]
              rfl
            · exact List.pairwise_cons.mpr ⟨fun t h => (hrange t h).1, hmono⟩
            · intro t h
              rcases List.mem_cons.mp h with heq | hmem
              · omega
              · have := hrange t hmem
                omega
          · refine ⟨ts, ?_, hmono, ?_⟩
            · rw [if_neg hrc, hts]
            · intro t h
              have := hrange t h
              omega

/-- **NO SEQUENCE NUMBER IS REUSED** in a clear run. -/
theorem sentSeqs_nodup {sa : IpsecSa} {ms : List Mbuf} (ht : sa.FromTables)
    (hzero : sa.seq = 0) (hclear : RunClear sa ms) :
    (sentSeqs sa ms).Nodup := by
  obtain ⟨ts, hts, hmono, hrange⟩ := sentSeqs_eq_map ht hclear
  have hlow : sa.seq.toNat = 0 := by rw [hzero]; rfl
  rw [hts, List.Nodup, List.pairwise_map]
  refine hmono.imp_of_mem ?_
  intro a b ha hb hlt heq
  have h1 := hrange a ha
  have h2 := hrange b hb
  -- only the end of the space itself wraps, to zero
  omega

/-! ## Beyond the end of the space -/

/-- **A LONG RUN**: when every call succeeds, the numbers sent are the counter
    values modulo the 32-bit space, however long the run. -/
theorem sentSeqs_replicate {m : Mbuf} {sa : IpsecSa} (ht : sa.FromTables)
    (hclear : ∀ s, TrailerClear m { sa with seq := s })
    (hok : ∀ s : UInt64, ∃ m', espOutbound m { sa with seq := s }
      = some (0, m', { sa with seq := s + 1 })) (n : Nat) (s : UInt64) :
    sentSeqs { sa with seq := s } (List.replicate n m)
      = (List.range n).map (fun k => (s.toNat + (k + 1)) % 2 ^ 32) := by
  induction n generalizing s with
  | zero => rfl
  | succ n ih =>
      obtain ⟨m', hm'⟩ := hok s
      have hsucc : (s + 1).toNat % 2 ^ 32 = (s.toNat + 1) % 2 ^ 32 := by
        rw [UInt64.toNat_add]
        show (s.toNat + 1) % 2 ^ 64 % 2 ^ 32 = _
        omega
      rw [List.replicate_succ, sentSeqs, hm']
      dsimp only
      rw [if_pos rfl, wireSeq_of_success
          (show IpsecSa.FromTables { sa with seq := s } from ht) (hclear s) hm',
        ih (s + 1),
        List.range_succ_eq_map, List.map_cons, List.map_map]
      refine congr_arg₂ List.cons hsucc (List.map_congr_left ?_)
      intro k _
      show ((s + 1).toNat + (k + 1)) % 2 ^ 32 = (s.toNat + (k + 1 + 1)) % 2 ^ 32
      omega

/-- A GCM tunnel SA as the configuration leaves it. -/
def freshSa : IpsecSa :=
  { spi := 5, aeadAlgo := .aesGcm, ivLen := 8, blockSize := 4, digestLen := 16
    flags := ip4Tunnel }

/-- A bare IPv4 header in a roomy mbuf. -/
def barePacket : Mbuf :=
  { addr := 0
    buf := store (fun _ => 0) 128 [0x45, 0, 0, 20, 0, 0, 0, 0, 64, 17]
    bufLen := 2176
    dataOff := 128
    dataLen := 20
    window := by decide
    bufLen_le := by decide }

theorem freshSa_fromTables : freshSa.FromTables :=
  .inl ⟨⟨.aesGcm, 8, 4, 16, 20, 8⟩, by simp [aeadAlgos], rfl, rfl, rfl, rfl⟩

/-- In tunnel mode the trailer is always clear. -/
theorem trailerClear_of_tunnel {m : Mbuf} {sa : IpsecSa} {md : SaMode}
    (hmd : sa.HasMode md) (ht : md ≠ .transport) : TrailerClear m sa := by
  intro hdrLen nlp hhdr
  rw [outboundHdr_tunnel hmd hhdr ht]
  exact .inr (.inl (Nat.zero_le _))

theorem freshSa_mode (s : UInt64) :
    ({ freshSa with seq := s } : IpsecSa).HasMode .ip4Tunnel :=
  show withoutTransportVersion freshSa.flags = SaMode.ip4Tunnel.flags by decide

/-- Every call with the bare packet succeeds, whatever the counter. -/
theorem barePacket_ok (s : UInt64) :
    ∃ m', espOutbound barePacket { freshSa with seq := s }
      = some (0, m', { freshSa with seq := s + 1 }) := by
  have hout := outerHdrLen_eq (freshSa_mode s) 0
  have hhdr : outboundHdr barePacket { freshSa with seq := s }
      = some (0, ipprotoIpip) := by
    show outboundHdr barePacket freshSa = _
    decide
  have hsize : 20 + 8 + 8 + padPayloadLen 20 0 4 + 16 ≤ ipMaxPacket := by decide
  have htail : 128 + 20 + (padLen 20 0 4 + 16) ≤ 2176 := by decide
  refine espOutbound_ok (freshSa_mode s) (.inl rfl) hhdr ?_ htail ?_
  · rw [hout]
    exact hsize
  · rw [headroom, (freshSa_mode s).tests.1, hout]
    show 20 + (8 + 8) ≤ 128
    decide

/-- **THE SPACE WRAPS**: a fresh SA sends its first sequence number again in
    the packet after the last one of the space. -/
theorem sequence_reused :
    freshSa.seq = 0 ∧ freshSa.FromTables
      ∧ ¬ (sentSeqs freshSa (List.replicate (2 ^ 32 + 1) barePacket)).Nodup := by
  refine ⟨rfl, freshSa_fromTables, ?_⟩
  intro hnodup
  have hrun := sentSeqs_replicate (m := barePacket) freshSa_fromTables
    (fun s => trailerClear_of_tunnel (freshSa_mode s) (by decide))
    barePacket_ok (2 ^ 32 + 1) 0
  rw [show ({ freshSa with seq := 0 } : IpsecSa) = freshSa from rfl] at hrun
  rw [hrun] at hnodup
  have heq := List.inj_on_of_nodup_map hnodup
    (List.mem_range.mpr (show 0 < 2 ^ 32 + 1 by omega))
    (List.mem_range.mpr (show 2 ^ 32 < 2 ^ 32 + 1 by omega))
    (show (0 + (0 + 1)) % 2 ^ 32 = (0 + (2 ^ 32 + 1)) % 2 ^ 32 by omega)
  omega

/-- A short run on the fresh SA is clear. -/
theorem runClear_two : RunClear freshSa [barePacket, barePacket] := by
  have htrail : ∀ s, TrailerClear barePacket { freshSa with seq := s } :=
    fun s => trailerClear_of_tunnel (freshSa_mode s) (by decide)
  refine ⟨⟨by decide, htrail 0⟩, ?_⟩
  intro rc m' sa' hcall
  rcases espOutbound_sa hcall with ⟨hsame, -⟩ | hstep
  · rw [hsame]
    exact ⟨⟨by decide, htrail 0⟩, fun _ _ _ _ => trivial⟩
  · rw [hstep]
    exact ⟨⟨by decide, htrail 1⟩, fun _ _ _ _ => trivial⟩

theorem sentSeqs_nodup_two :
    (sentSeqs freshSa [barePacket, barePacket]).Nodup :=
  sentSeqs_nodup freshSa_fromTables rfl runClear_two

/-- A transport SA with the NULL algorithms. -/
def nullSa : IpsecSa :=
  { spi := 5, cipherAlgo := .null, authAlgo := .null, blockSize := 4
    flags := transport }

/-- An IPv4 packet cut off inside its header: twenty of twenty-four bytes. -/
def cutPacket : Mbuf :=
  { barePacket with
    buf := store (fun _ => 0) 128 [0x46, 0, 0, 24, 0, 0, 0, 0, 64, 17] }

/-- **THE TRAILER OVERWRITES**: two calls on the cut packet succeed and send
    the trailer's bytes as sequence number, both times. -/
theorem sequence_overwritten :
    sentSeqs nullSa [cutPacket, cutPacket] = [0x01020211, 0x01020211] := by
  decide

end EspSequence
