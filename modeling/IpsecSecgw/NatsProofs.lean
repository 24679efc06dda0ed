import IpsecSecgw.NatsModel

/-! # Two messages side by side

    `snprintf` is given the size of both rows.  A message that fits into its row is
    stored there, with the other left alone; a longer one leaves its row, into the
    second one from the first and out of the array from the second. -/

namespace Nats

open ByteStore

variable {s s' : IkeString} {data : List UInt8}

/-! ## A call -/

/-- The address is in the row. -/
def InRow (count : UInt8) (a : Nat) : Prop := rowAt count ≤ a ∧ a < rowAt count + rowSize

/-- The row counter while no message is handled. -/
def IkeString.Even (s : IkeString) : Prop := s.count = 0 ∨ s.count = 1

/-- A call keeps to its row and stores there what there is room for. -/
structure Stored (s : IkeString) (data : List UInt8) (s' : IkeString) : Prop where
  within : ∀ a ∈ written s data, InRow s.count a
  other : ∀ a, ¬InRow s.count a → s'.mem a = s.mem a
  stored : load s'.mem (rowAt s.count) (((text data).take (rowSize - 1)).length + 1)
    = (text data).take (rowSize - 1) ++ [0]

theorem length_snprintf (size : Nat) (data : List UInt8) :
    (snprintf size data).length = min (size - 1) (text data).length + 1 := by
  rw [snprintf, List.length_append, List.length_take, List.length_singleton]

/-- **COUNTER**: it alternates. -/
theorem onMsg_even (hs : s.Even) (h : onMsg s data = .ok s') : s'.Even := by
  simp only [onMsg] at h
  split at h
  · obtain rfl := Except.ok.inj h
    rcases hs with h0 | h1
    · right
      show (if s.count + 1 = 2 then 0 else s.count + 1) = 1
      rw [h0]
      rfl
    · left
      show (if s.count + 1 = 2 then 0 else s.count + 1) = 0
      rw [h1]
      rfl
  · cases h

theorem rowAt_le (hs : s.Even) : rowAt s.count + rowSize ≤ sizeofIkeString := by
  rcases hs with h0 | h1
  · rw [h0]
    decide
  · rw [h1]
    decide

/-- A text that fits is written as it is. -/
theorem snprintf_short (h : (text data).length < rowSize) :
    snprintf sizeofIkeString data = text data ++ [0] := by
  rw [snprintf, List.take_of_length_le]
  have hsize : sizeofIkeString = 2 * rowSize := rfl
  omega

/-- **FITS**: a message with room in its row is stored there. -/
theorem onMsg_stored (hs : s.Even) (h : (text data).length < rowSize) :
    ∃ s', onMsg s data = .ok s' ∧ Stored s data s' := by
  have hout := snprintf_short h
  have hlen : (snprintf sizeofIkeString data).length = (text data).length + 1 := by
    rw [hout, List.length_append, List.length_singleton]
  have htake : (text data).take (rowSize - 1) = text data :=
    List.take_of_length_le (by omega)
  have hrow := rowAt_le hs
  refine ⟨_, if_pos (by omega), ?_, ?_, ?_⟩
  · intro a ha
    rw [written, hlen, List.mem_range'_1] at ha
    exact ⟨ha.1, by omega⟩
  · intro a ha
    refine store_outside _ ?_
    rw [InRow] at ha
    omega
  · rw [htake]
    show load (store s.mem (rowAt s.count) _) _ _ = _
    rw [hout]
    exact load_store_eq _ (by rw [List.length_append, List.length_singleton])

/-- **LEAVES**: a message that is too long writes behind its row. -/
theorem not_within (h : rowSize ≤ (text data).length) :
    rowAt s.count + rowSize ∈ written s data := by
  have hlen := length_snprintf sizeofIkeString data
  have hsize : sizeofIkeString = 2 * rowSize := rfl
  have hpos : rowSize = 1024 := rfl
  rw [written, List.mem_range'_1]
  omega

theorem Stored.short (h : Stored s data s') : (text data).length < rowSize := by
  by_contra hlong
  have hin := h.within _ (not_within (s := s) (Nat.not_lt.mp hlong))
  exact Nat.lt_irrefl _ hin.2

/-! ## Runs -/

/-- Every call of the run finds the counter in range and keeps to its row. -/
def Delivered : IkeString → List (List UInt8) → Prop
  | s, [] => s.Even
  | s, data :: msgs => s.Even ∧ ∃ s', onMsg s data = .ok s' ∧ Stored s data s' ∧ Delivered s' msgs

theorem delivered_iff (hs : s.Even) (msgs : List (List UInt8)) :
    Delivered s msgs ↔ ∀ data ∈ msgs, (text data).length < rowSize := by
  induction msgs generalizing s with
  | nil => exact iff_of_true hs (fun _ h => absurd h List.not_mem_nil)
  | cons data msgs ih =>
      rw [List.forall_mem_cons]
      constructor
      · rintro ⟨-, s', hcall, hstored, hrest⟩
        exact ⟨hstored.short, (ih (onMsg_even hs hcall)).mp hrest⟩
      · rintro ⟨hshort, hrest⟩
        obtain ⟨s', hcall, hstored⟩ := onMsg_stored hs hshort
        exact ⟨hs, s', hcall, hstored, (ih (onMsg_even hs hcall)).mpr hrest⟩

/-- **ROWS**: from the first message on all calls keep to their rows exactly where no
    message is longer than a row has room for. -/
theorem onMsg_rows (msgs : List (List UInt8)) :
    Delivered .init msgs ↔ ∀ data ∈ msgs, (text data).length < rowSize :=
  delivered_iff (Or.inl rfl) msgs

/-! ## Messages that are too long -/

/-- In the second row the array ends. -/
theorem onMsg_overrun (hs : s.count = 1) (h : rowSize ≤ (text data).length) :
    onMsg s data = .error .overrun := by
  refine if_neg ?_
  have hrow : rowAt s.count = rowSize := by
    rw [hs]
    rfl
  have hlen := length_snprintf sizeofIkeString data
  have hsize : sizeofIkeString = 2 * rowSize := rfl
  omega

/-- In the first row the second is overwritten, as far as the text reaches. -/
theorem onMsg_spills (hs : s.count = 0) (h : rowSize ≤ (text data).length)
    (hroom : (text data).length < sizeofIkeString) :
    ∃ s', onMsg s data = .ok s' ∧
      load s'.mem (rowAt 1) ((text data).length - rowSize + 1)
        = (text data).drop rowSize ++ [0] := by
  have hrow : rowAt s.count = 0 := by
    rw [hs]
    rfl
  have hout : snprintf sizeofIkeString data = text data ++ [0] := by
    rw [snprintf, List.take_of_length_le (by omega)]
  have hlen : (snprintf sizeofIkeString data).length = (text data).length + 1 := by
    rw [hout, List.length_append, List.length_singleton]
  refine ⟨_, if_pos (by omega), ?_⟩
  show load (store s.mem (rowAt s.count) _) rowSize _ = _
  have hparts : text data ++ [0]
      = (text data).take rowSize ++ ((text data).drop rowSize ++ [0]) := by
    rw [← List.append_assoc, List.take_append_drop]
  have hfront : ((text data).take rowSize).length = rowSize := by
    rw [List.length_take]
    omega
  rw [hrow, hout, hparts, ← store_append, hfront, Nat.zero_add]
  refine load_store_eq _ ?_
  rw [List.length_append, List.length_drop, List.length_singleton]

/-- Two short messages, then one of 1024 characters: the text of the second is gone. -/
theorem long_message :
    ¬Delivered .init [[120], [121], List.replicate 1024 65]
    ∧ ∃ s s' : IkeString, (onMsg .init [120]).bind (onMsg · [121]) = .ok s
      ∧ s.mem (rowAt 1) = 121
      ∧ onMsg s (List.replicate 1024 65) = .ok s' ∧ s'.mem (rowAt 1) = 0 := by
  have htext : text (List.replicate 1024 65) = List.replicate 1024 65 :=
    List.takeWhile_replicate.trans (if_pos rfl)
  have hlen : (text (List.replicate 1024 65)).length = 1024 := by
    rw [htext, List.length_replicate]
  constructor
  · rintro ⟨-, _, -, -, -, _, -, -, -, _, -, hstored, -⟩
    exact absurd hstored.short (by rw [hlen]; decide)
  · obtain ⟨s', hcall, hspill⟩ := onMsg_spills
      (s := ⟨store (store (fun _ => 0) 0 [120, 0]) 1024 [121, 0], 0⟩) rfl
      (Nat.le_of_eq hlen.symm) (by rw [hlen]; decide)
    refine ⟨_, s', rfl, rfl, hcall, ?_⟩
    rw [hlen, htext, List.drop_of_length_le (by rw [List.length_replicate]; decide)] at hspill
    exact (List.cons.inj hspill).1

end Nats
