import IpsecSecgw.ParserModel

/-! # Which ranges are read

    `parse_range` looks at the digits and the colons of a token alone, so what it
    does is settled by the runs of digits between the colons (`runs`).  A run may
    have nineteen digits, the last may not be empty, and a colon is refused when a
    number has been read in front of it -- unless that number is cut to the mark for
    "no number yet".

    * A token that is a range is read as it is, when its numbers are not written
      with more than nineteen digits (`parseRange_short`).
    * Any other token should be refused, but is so only for one of the reasons
      above (`parseRange_none_iff`); together this is `exactRange_iff`. -/

namespace ParseRange

open ParserModel

/-! ## Texts -/

/-- A number in decimal digits. -/
def IsDecimal (s : List Char) : Prop := s ≠ [] ∧ ∀ c ∈ s, c.isDigit = true

/-- The token is a range of 16-bit numbers, written with at most `room` digits
    each. -/
def RangeWithin (room : Nat) (token : String) (low high : UInt16) : Prop :=
  ∃ d e, token.toList = d ++ ':' :: e ∧ IsDecimal d ∧ IsDecimal e
    ∧ d.length ≤ room ∧ e.length ≤ room
    ∧ decValue (String.ofList d) = low.toNat ∧ decValue (String.ofList e) = high.toNat

/-- The token is a range of 16-bit numbers. -/
def RangeText (token : String) (low high : UInt16) : Prop :=
  ∃ room, RangeWithin room token low high

/-- The token is read as a range exactly when it is one. -/
def ExactRange (token : String) : Prop :=
  ∀ low high, parseRange token = some (low, high) ↔ RangeText token low high

/-! ## Runs -/

/-- What the scanner does not pass over. -/
def Kept (c : Char) : Bool := c.isDigit || c = ':'

/-- The runs of digits between the colons of a token. -/
def runs (token : String) : List (List Char) := (token.toList.filter Kept).splitOn ':'

/-- The reasons to refuse a token: its last run is empty, a run is longer than the
    buffer, or a run before the last two does not read as the mark. -/
def Refused (rs : List (List Char)) : Prop :=
  rs.getLast? = some [] ∨ (∃ r ∈ rs, 19 < r.length)
    ∨ ∃ r ∈ rs.dropLast.dropLast, atoi (String.ofList r) ≠ noNumber

/-- The scanner, run by run. -/
def readRuns (low : UInt32) (r : List Char) : List (List Char) → Option RangeScan
  | [] => if 19 < r.length then none else some ⟨r, low⟩
  | r' :: rs =>
      if 19 < r.length ∨ low ≠ noNumber then none
      else readRuns (atoi (String.ofList r)) r' rs

/-- The other characters are passed over. -/
theorem scan_kept (l : List Char) (s : RangeScan) :
    l.foldlM rangeStep s = (l.filter Kept).foldlM rangeStep s := by
  induction l generalizing s with
  | nil => rfl
  | cons c l ih =>
      by_cases hc : Kept c = true
      · rw [List.filter_cons_of_pos hc, List.foldlM_cons, List.foldlM_cons]
        cases rangeStep s c with
        | none => rfl
        | some s' => exact ih s'
      · have hstep : rangeStep s c = some s := by
          simp [Kept] at hc
          simp [rangeStep, hc]
        rw [List.filter_cons_of_neg hc, List.foldlM_cons, hstep]
        exact ih s

/-- A run of digits goes into the buffer. -/
theorem scan_digits (r : List Char) (hr : ∀ c ∈ r, c.isDigit = true) (s : RangeScan)
    (hs : s.numStr.length ≤ 19) :
    r.foldlM rangeStep s
      = if 19 < s.numStr.length + r.length then none
        else some { s with numStr := s.numStr ++ r } := by
  induction r generalizing s with
  | nil =>
      rw [if_neg (by simp; omega), List.append_nil]
      rfl
  | cons c r ih =>
      have hc : c.isDigit = true := hr c List.mem_cons_self
      rw [List.foldlM_cons, rangeStep, if_pos hc]
      by_cases hfull : 19 ≤ s.numStr.length
      · rw [if_pos hfull, if_pos (by rw [List.length_cons]; omega)]
        rfl
      · rw [if_neg hfull]
        have hroom : (s.numStr ++ [c]).length ≤ 19 := by simp; omega
        have hih := ih (fun x hx => hr x (List.mem_cons_of_mem _ hx))
          { s with numStr := s.numStr ++ [c] } hroom
        simp only [List.length_append, List.length_singleton, List.append_assoc,
          List.singleton_append] at hih
        rw [List.length_cons, Nat.add_comm r.length, ← Nat.add_assoc]
        exact hih

/-- The runs with the colons between them are read run by run. -/
theorem scan_runs (rs : List (List Char)) (low : UInt32) (r : List Char)
    (hr : ∀ x ∈ r :: rs, ∀ c ∈ x, c.isDigit = true) :
    ([':'].intercalate (r :: rs)).foldlM rangeStep ⟨[], low⟩ = readRuns low r rs := by
  induction rs generalizing low r with
  | nil =>
      have hrun := scan_digits r (hr r List.mem_cons_self) ⟨[], low⟩ (Nat.zero_le _)
      simpa [readRuns] using hrun
  | cons r' rs ih =>
      have hrun := scan_digits r (hr r List.mem_cons_self) ⟨[], low⟩ (Nat.zero_le _)
      have hrest := ih (atoi (String.ofList r)) r'
        fun x hx => hr x (List.mem_cons_of_mem _ hx)
      rw [List.intercalate_cons_cons, List.foldlM_append, List.foldlM_append, hrun]
      by_cases hlong : 19 < r.length
      · rw [if_pos (by simpa using hlong), readRuns, if_pos (Or.inl hlong)]
        rfl
      · rw [if_neg (by simpa using hlong)]
        have hcolon : [':'].foldlM rangeStep ⟨[] ++ r, low⟩
            = if low ≠ noNumber then none else some ⟨[], atoi (String.ofList r)⟩ := by
          have hdigit : (':').isDigit = false := rfl
          rw [List.nil_append, List.foldlM_cons, rangeStep, if_neg (by rw [hdigit]; simp),
            if_pos rfl]
          split <;> rfl
        show ([':'].foldlM rangeStep ⟨[] ++ r, low⟩ >>= _) = _
        rw [hcolon, readRuns]
        by_cases hlow : low ≠ noNumber
        · rw [if_pos hlow, if_pos (Or.inr hlow)]
          rfl
        · rw [if_neg hlow, if_neg (not_or.mpr ⟨hlong, hlow⟩)]
          exact hrest

/-- The runs that are refused. -/
theorem readRuns_none_iff (rs : List (List Char)) (low : UInt32) (r : List Char) :
    readRuns low r rs = none
      ↔ (∃ x ∈ r :: rs, 19 < x.length) ∨ (low ≠ noNumber ∧ rs ≠ [])
        ∨ ∃ x ∈ (r :: rs).dropLast.dropLast, atoi (String.ofList x) ≠ noNumber := by
  induction rs generalizing low r with
  | nil => simp [readRuns]
  | cons r' rs ih =>
      rw [readRuns]
      by_cases hr : 19 < r.length ∨ low ≠ noNumber
      · rw [if_pos hr]
        rcases hr with hr | hr
        · exact iff_of_true rfl (.inl ⟨r, List.mem_cons_self, hr⟩)
        · exact iff_of_true rfl (.inr (.inl ⟨hr, List.cons_ne_nil _ _⟩))
      · obtain ⟨hlong, hlow⟩ := not_or.mp hr
        rw [if_neg hr, ih]
        cases rs with
        | nil => simp [hlong, hlow]
        | cons r'' rs =>
            simp only [List.mem_cons, List.dropLast_cons_cons, exists_eq_or_imp, hlong,
              hlow, false_or, ne_eq, reduceCtorEq, not_false_eq_true, and_true]

/-- The last of the runs that are read is in the buffer. -/
theorem readRuns_last {rs : List (List Char)} {low : UInt32} {r : List Char} {s : RangeScan}
    (h : readRuns low r rs = some s) : (r :: rs).getLast? = some s.numStr := by
  induction rs generalizing low r with
  | nil =>
      rw [readRuns] at h
      split at h
      · cases h
      · rw [← Option.some.inj h]
        rfl
  | cons r' rs ih =>
      rw [readRuns] at h
      split at h
      · cases h
      · rw [List.getLast?_cons_cons]
        exact ih h

/-- The pieces of a list hold its other elements. -/
theorem mem_splitOn {a : Char} {l r : List Char} (hr : r ∈ l.splitOn a) :
    ∀ c ∈ r, c ∈ l ∧ c ≠ a := by
  induction l generalizing r with
  | nil =>
      rw [List.splitOn_nil, List.mem_singleton] at hr
      intro c hc
      rw [hr] at hc
      cases hc
  | cons x l ih =>
      rw [List.splitOn_cons_eq_if_modifyHead] at hr
      have hkeep : ∀ r' ∈ l.splitOn a, ∀ c ∈ r', c ∈ x :: l ∧ c ≠ a := fun r' hr' c hc =>
        ⟨List.mem_cons_of_mem _ (ih hr' c hc).1, (ih hr' c hc).2⟩
      by_cases hx : (x == a) = true
      · rw [if_pos hx] at hr
        rcases List.mem_cons.mp hr with rfl | hr
        · intro c hc
          cases hc
        · exact hkeep r hr
      · rw [if_neg hx] at hr
        cases hsplit : l.splitOn a with
        | nil => exact absurd hsplit (List.splitOn_ne_nil a l)
        | cons r' rs =>
            rw [hsplit, List.modifyHead_cons] at hr
            rw [hsplit] at hkeep
            rcases List.mem_cons.mp hr with rfl | hr
            · intro c hc
              rcases List.mem_cons.mp hc with rfl | hc
              · exact ⟨List.mem_cons_self, fun h => hx (beq_iff_eq.mpr h)⟩
              · exact hkeep r' List.mem_cons_self c hc
            · exact hkeep r (List.mem_cons_of_mem _ hr)

/-- The runs hold digits. -/
theorem runs_digits {token : String} {r : List Char} (hr : r ∈ runs token) :
    ∀ c ∈ r, c.isDigit = true := by
  intro c hc
  obtain ⟨hmem, hcolon⟩ := mem_splitOn hr c hc
  have hkept : Kept c = true := (List.mem_filter.mp hmem).2
  simpa [Kept, hcolon] using hkept

/-- There is a first run. -/
theorem runs_cons (token : String) : ∃ r rs, runs token = r :: rs := by
  cases h : runs token with
  | nil => exact absurd h (List.splitOn_ne_nil _ _)
  | cons r rs => exact ⟨r, rs, rfl⟩

/-- **RUN BY RUN**: what the scanner comes to. -/
theorem scan_eq {token : String} {r : List Char} {rs : List (List Char)}
    (h : runs token = r :: rs) :
    token.toList.foldlM rangeStep {} = readRuns noNumber r rs := by
  have hdigits : ∀ x ∈ r :: rs, ∀ c ∈ x, c.isDigit = true := by
    intro x hx
    rw [← h] at hx
    exact runs_digits hx
  rw [scan_kept, ← scan_runs rs noNumber r hdigits, ← h, runs, List.intercalate_splitOn]

/-- **REFUSAL**: the tokens that are no range to the code. -/
theorem parseRange_none_iff (token : String) :
    parseRange token = none ↔ Refused (runs token) := by
  obtain ⟨r, rs, hruns⟩ := runs_cons token
  have hnone := readRuns_none_iff rs noNumber r
  rw [parseRange, scan_eq hruns, hruns, Refused]
  cases hread : readRuns noNumber r rs with
  | none =>
      rw [hread] at hnone
      refine iff_of_true rfl (.inr ?_)
      rcases hnone.mp rfl with h | h | h
      · exact .inl h
      · exact absurd rfl h.1
      · exact .inr h
  | some s =>
      rw [hread] at hnone
      have hgood := fun h => Option.some_ne_none s (hnone.mpr h)
      simp only [readRuns_last hread]
      by_cases hs : s.numStr = []
      · rw [if_pos hs, hs]
        exact iff_of_true rfl (.inl rfl)
      · rw [if_neg hs]
        refine iff_of_false (Option.some_ne_none _) ?_
        rintro (h | h | h)
        · exact hs (Option.some.inj h)
        · exact hgood (.inl h)
        · exact hgood (.inr (.inr h))

/-! ## Ranges -/

/-- The digits of a number are kept and none is a colon. -/
theorem IsDecimal.kept {d : List Char} (hd : IsDecimal d) :
    d.filter Kept = d ∧ ':' ∉ d := by
  refine ⟨List.filter_eq_self.mpr ?_, ?_⟩
  · intro c hc
    simp [Kept, hd.2 c hc]
  · intro hc
    exact Bool.noConfusion (hd.2 ':' hc)

/-- The runs of a range. -/
theorem runs_range {token : String} {d e : List Char} (htok : token.toList = d ++ ':' :: e)
    (hd : IsDecimal d) (he : IsDecimal e) : runs token = [d, e] := by
  have hcolon : Kept ':' = true := rfl
  rw [runs, htok, List.filter_append, List.filter_cons_of_pos hcolon, hd.kept.1, he.kept.1,
    List.splitOn_append_cons_self_of_not_mem hd.kept.2, List.splitOn_eq_singleton he.kept.2]

/-- A number of 16 bits is not cut. -/
theorem atoi_word {s : List Char} {x : UInt16} (h : decValue (String.ofList s) = x.toNat) :
    (atoi (String.ofList s)).toUInt16 = x := by
  have hx := x.toNat_lt
  apply UInt16.toNat_inj.mp
  rw [atoi, h, UInt32.toNat_toUInt16, UInt32.toNat_ofNat']
  omega

/-- **READING**: a range written with at most nineteen digits for a number is read as
    it is. -/
theorem parseRange_short {token : String} {low high : UInt16}
    (h : RangeWithin 19 token low high) : parseRange token = some (low, high) := by
  obtain ⟨d, e, htok, hd, he, hdlen, helen, hlow, hhigh⟩ := h
  have hread : readRuns noNumber d [e] = some ⟨e, atoi (String.ofList d)⟩ := by
    rw [readRuns, if_neg (by simp; omega), readRuns, if_neg (by omega)]
  rw [parseRange, scan_eq (runs_range htok hd he), hread]
  simp only [if_neg he.1, atoi_word hlow, atoi_word hhigh]

/-- A token is the range of two numbers only. -/
theorem RangeText.unique {token : String} {low low' high high' : UInt16}
    (h : RangeText token low high) (h' : RangeText token low' high') :
    low = low' ∧ high = high' := by
  obtain ⟨_, d, e, htok, hd, he, -, -, hlow, hhigh⟩ := h
  obtain ⟨_, d', e', htok', hd', he', -, -, hlow', hhigh'⟩ := h'
  have hruns := (runs_range htok hd he).symm.trans (runs_range htok' hd' he')
  simp only [List.cons.injEq, and_true] at hruns
  rw [hruns.1] at hlow
  rw [hruns.2] at hhigh
  exact ⟨UInt16.toNat_inj.mp (hlow.symm.trans hlow'),
    UInt16.toNat_inj.mp (hhigh.symm.trans hhigh')⟩

/-- A range that is not refused is written with at most nineteen digits for a
    number. -/
theorem RangeText.within {token : String} {low high : UInt16} (h : RangeText token low high)
    (hread : parseRange token ≠ none) : RangeWithin 19 token low high := by
  obtain ⟨_, d, e, htok, hd, he, -, -, hlow, hhigh⟩ := h
  rw [ne_eq, parseRange_none_iff, runs_range htok hd he, Refused] at hread
  have hlong : ∀ x ∈ [d, e], x.length ≤ 19 := by
    intro x hx
    by_contra hlen
    exact hread (.inr (.inl ⟨x, hx, by omega⟩))
  exact ⟨d, e, htok, hd, he, hlong d (by simp), hlong e (by simp), hlow, hhigh⟩

/-- **WHEN A TOKEN IS READ RIGHT**: it is a range with at most nineteen digits for a
    number, or no range and one the scanner refuses. -/
theorem exactRange_iff (token : String) :
    ExactRange token
      ↔ (∃ low high, RangeWithin 19 token low high)
        ∨ (¬ ∃ low high, RangeText token low high) ∧ Refused (runs token) := by
  constructor
  · intro h
    by_cases hrange : ∃ low high, RangeText token low high
    · obtain ⟨low, high, hrange⟩ := hrange
      have hread := (h low high).mpr hrange
      exact .inl ⟨low, high, hrange.within (by rw [hread]; exact Option.some_ne_none _)⟩
    · refine .inr ⟨hrange, (parseRange_none_iff token).mp ?_⟩
      cases hread : parseRange token with
      | none => rfl
      | some r => exact absurd ⟨r.1, r.2, (h r.1 r.2).mp hread⟩ hrange
  · rintro (⟨low, high, hshort⟩ | ⟨hrange, hrefused⟩) low' high'
    · rw [parseRange_short hshort]
      constructor
      · intro h
        cases h
        exact ⟨19, hshort⟩
      · intro h
        obtain ⟨rfl, rfl⟩ := RangeText.unique ⟨19, hshort⟩ h
        rfl
    · rw [(parseRange_none_iff token).mpr hrefused]
      exact iff_of_false nofun fun h => hrange ⟨low', high', h⟩

end ParseRange
