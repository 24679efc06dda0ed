import IpsecSecgw.CfgFileModel

/-! # Which lines are handed over

    The lines of a file, with comments removed, are joined where one ends in a
    backslash (`logicalLines`).  The loop hands over these lines, but for two slips:
    a line that is still open at the end of the file is dropped, and a backslash with
    one character between it and a comment (or the end of the file) joins too, with
    that character dropped.  Apart from them every line is handed over once, in order
    (`processed_iff`), and the buffers are never overrun. -/

namespace CfgFile

/-! ## Lines -/

/-- The lines of a file; behind the last newline there is one only if there is
    something. -/
def fileLines (chars : List Char) : List (List Char) :=
  if (chars.splitOn '\n').getLast? = some [] then (chars.splitOn '\n').dropLast
  else chars.splitOn '\n'

/-- They without comments; a line that is a comment is left out. -/
def textLines (chars : List Char) : List (List Char) :=
  ((fileLines chars).filter fun l => l.head? ≠ some '#').map uncomment

/-- The line goes on with the next one. -/
def Open (u : List Char) : Prop := u.getLast? = some '\\'

instance (u : List Char) : Decidable (Open u) := inferInstanceAs (Decidable (_ = _))

/-- Lines are joined while they are open; what is open at the end is a line too. -/
def logicalFrom : Option (List Char) → List (List Char) → List (List Char)
  | p, [] => p.toList
  | p, u :: us =>
      if Open u then logicalFrom (some (p.getD [] ++ u.dropLast)) us
      else (p.getD [] ++ u) :: logicalFrom none us

/-- The logical lines of a file. -/
def logicalLines (chars : List Char) : List (List Char) := logicalFrom none (textLines chars)

/-- A string up to its newline. -/
def chomp (l : List Char) : List Char := l.takeWhile (· ≠ '\n')

/-- What was handed over are the logical lines, with newlines behind them. -/
def Processed {σ : Type} (s : CfgState σ) (chars : List Char) : Prop :=
  s.handed.map chomp = logicalLines chars
    ∧ ∀ str ∈ s.handed, ∃ n, str = chomp str ++ List.replicate (n + 1) '\n'

/-! ## Reading -/

/-- What is behind the last newline. -/
theorem fileLines_nil : fileLines [] = [] := by
  rw [fileLines, List.splitOn_nil]
  rfl

theorem fileLines_last {l : List Char} (hl : '\n' ∉ l) (hne : l ≠ []) : fileLines l = [l] := by
  rw [fileLines, List.splitOn_eq_singleton hl, if_neg]
  intro h
  exact hne (Option.some.inj h)

/-- A line and what is behind it. -/
theorem fileLines_line {l rest : List Char} (hl : '\n' ∉ l) :
    fileLines (l ++ '\n' :: rest) = l :: fileLines rest := by
  rw [fileLines, fileLines, List.splitOn_append_cons_self_of_not_mem hl]
  obtain ⟨r, rs, hrs⟩ : ∃ r rs, rest.splitOn '\n' = r :: rs := by
    cases h : rest.splitOn '\n' with
    | nil => exact absurd h (List.splitOn_ne_nil _ _)
    | cons r rs => exact ⟨r, rs, rfl⟩
  rw [hrs, List.getLast?_cons_cons, List.dropLast_cons_cons]
  by_cases h : (r :: rs).getLast? = some []
  · rw [if_pos h, if_pos h]
  · rw [if_neg h, if_neg h]

/-- What `fgets` takes: a line with its newline, or as much as there is or fits. -/
theorem readLine_spec (room : Nat) (file : List Char) :
    file = (readLine room file).1 ++ (readLine room file).2
      ∧ ((∃ l, '\n' ∉ l ∧ (readLine room file).1 = l ++ ['\n'])
        ∨ '\n' ∉ (readLine room file).1
          ∧ ((readLine room file).2 = [] ∨ (readLine room file).1.length = room)) := by
  induction room generalizing file with
  | zero => exact ⟨rfl, .inr ⟨List.not_mem_nil, .inr rfl⟩⟩
  | succ room ih =>
      cases file with
      | nil => exact ⟨rfl, .inr ⟨List.not_mem_nil, .inl rfl⟩⟩
      | cons c file =>
          by_cases hc : c = '\n'
          · rw [readLine, if_pos hc, hc]
            exact ⟨rfl, .inl ⟨[], List.not_mem_nil, rfl⟩⟩
          · obtain ⟨hfile, hline⟩ := ih file
            rw [readLine, if_neg hc]
            refine ⟨congrArg (c :: ·) hfile, ?_⟩
            rcases hline with ⟨l, hl, heq⟩ | ⟨hno, hend⟩
            · refine .inl ⟨c :: l, ?_, congrArg (c :: ·) heq⟩
              exact List.not_mem_cons_of_ne_of_not_mem (Ne.symm hc) hl
            · refine .inr ⟨List.not_mem_cons_of_ne_of_not_mem (Ne.symm hc) hno, ?_⟩
              exact hend.imp id fun h => congrArg (· + 1) h

/-- A line that is not too long is one of the lines of the file. -/
theorem fgets_spec {file oneline rest : List Char} (h : fgets file = some (oneline, rest))
    (hlen : oneline.length ≤ 1022) :
    rest.length < file.length ∧ ∃ l, '\n' ∉ l ∧ fileLines file = l :: fileLines rest
      ∧ (oneline = l ++ ['\n'] ∨ oneline = l) := by
  unfold fgets at h
  split at h
  · cases h
  · rename_i hne
    have hpair := Option.some.inj h
    obtain ⟨hfile, hline⟩ := readLine_spec (bufSize - 1) file
    rw [hpair] at hfile hline
    dsimp only at hfile hline
    rcases hline with ⟨l, hl, rfl⟩ | ⟨hno, hend⟩
    · rw [hfile, List.append_assoc]
      refine ⟨by simp; omega, l, hl, ?_, .inl rfl⟩
      exact fileLines_line hl
    · have hnil : rest = [] := by
        rcases hend with hend | hend
        · exact hend
        · rw [hend] at hlen
          exact absurd hlen (by decide)
      rw [hnil, List.append_nil] at hfile
      rw [hnil, ← hfile, fileLines_nil]
      exact ⟨List.length_pos_iff.mpr hne, file, hfile ▸ hno,
        fileLines_last (hfile ▸ hno) hne, .inr rfl⟩

/-! ## A line -/

variable {σ : Type} {parse : Parse σ} {s s' : CfgState σ} {oneline : List Char}

/-- What a line that fits does. -/
theorem add_ok (h : s.add oneline = .ok s') :
    s'.str.length ≤ 1022 ∧ s' = { s with str := s.str ++ oneline } := by
  unfold CfgState.add append at h
  split at h
  · cases h
  · split at h
    · cases h
    · cases h
      refine ⟨?_, rfl⟩
      show (s.str ++ oneline).length ≤ 1022
      rw [List.length_append]
      omega

/-- The buffer has room for it. -/
theorem add_ne_overrun : s.add oneline ≠ .error .overrun := by
  intro h
  unfold CfgState.add append at h
  split at h
  · cases h
  · rename_i hfit
    rw [if_neg (by unfold bufSize; omega)] at h
    cases h

theorem hand_ok (h : s.hand parse = .ok s') :
    s'.str = [] ∧ s'.handed = s.handed ++ [s.str ++ ['\n']] := by
  unfold CfgState.hand endLine at h
  split at h
  · cases h
  · rename_i str hend
    split at hend
    · cases hend
    · cases hend
      split at h
      · cases h
      · cases h
        exact ⟨rfl, rfl⟩

/-- The buffer has room for the newline and a zero. -/
theorem hand_ne_overrun (hs : s.str.length ≤ 1022) : s.hand parse ≠ .error .overrun := by
  intro h
  unfold CfgState.hand endLine at h
  rw [if_neg (by unfold bufSize; omega)] at h
  dsimp only at h
  split at h <;> cases h

/-- **A LINE**: it is a comment, it joins, or it is handed over. -/
inductive LineDone (s s' : CfgState σ) (oneline : List Char) : Prop
  | comment (hhead : oneline.head? = some '#') (hs : s' = s)
  | joins (hhead : oneline.head? ≠ some '#') (v : List Char) (x : Char) (hv : '\\' ∉ v)
      (hline : uncomment oneline = v ++ ['\\', x]) (hstr : s'.str = s.str ++ v)
      (hhanded : s'.handed = s.handed)
  | handed (hhead : oneline.head? ≠ some '#') (hline : '\\' ∉ uncomment oneline)
      (hstr : s'.str = [])
      (hhanded : s'.handed = s.handed ++ [s.str ++ uncomment oneline ++ ['\n']])

/-- The place of the first backslash. -/
theorem takeWhile_backslash (l : List Char) :
    '\\' ∉ l.takeWhile (· ≠ '\\')
      ∧ ((l.takeWhile (· ≠ '\\')).length < l.length →
        ∃ r, l = l.takeWhile (· ≠ '\\') ++ '\\' :: r)
      ∧ (¬ (l.takeWhile (· ≠ '\\')).length < l.length → '\\' ∉ l) := by
  induction l with
  | nil => exact ⟨List.not_mem_nil, fun h => absurd h (Nat.lt_irrefl 0), fun _ => List.not_mem_nil⟩
  | cons c l ih =>
      obtain ⟨hno, hfirst, hnone⟩ := ih
      by_cases hc : c = '\\'
      · have hstop : (c :: l).takeWhile (· ≠ '\\') = [] :=
          List.takeWhile_cons_of_neg (by simp [hc])
        rw [hstop, hc]
        exact ⟨List.not_mem_nil, fun _ => ⟨l, rfl⟩,
          fun h => absurd (Nat.zero_lt_succ _) h⟩
      · have hgo : (c :: l).takeWhile (· ≠ '\\') = c :: l.takeWhile (· ≠ '\\') :=
          List.takeWhile_cons_of_pos (by simp [hc])
        rw [hgo, List.length_cons, List.length_cons]
        refine ⟨List.not_mem_cons_of_ne_of_not_mem (Ne.symm hc) hno, fun h => ?_, fun h => ?_⟩
        · obtain ⟨r, hr⟩ := hfirst (Nat.lt_of_succ_lt_succ h)
          exact ⟨r, congrArg (c :: ·) hr⟩
        · exact List.not_mem_cons_of_ne_of_not_mem (Ne.symm hc)
            (hnone fun hlt => h (Nat.succ_lt_succ hlt))

theorem cfgLine_ok (h : cfgLine parse s oneline = .ok s') :
    oneline.length ≤ 1022 ∧ LineDone s s' oneline := by
  unfold cfgLine at h
  obtain ⟨hno, hfirst, hnone⟩ := takeWhile_backslash (uncomment oneline)
  split at h
  · cases h
  · rename_i hlen
    refine ⟨Nat.not_lt.mp hlen, ?_⟩
    split at h
    · rename_i hhead
      cases h
      exact .comment hhead rfl
    · rename_i hhead
      dsimp only at h
      split at h
      · rename_i hpos
        obtain ⟨r, hr⟩ := hfirst hpos
        split at h
        · cases h
        · rename_i htwo
          obtain ⟨-, rfl⟩ := add_ok h
          -- the backslash is followed by one character
          have hone : r.length = 1 := by
            have hlength := congrArg List.length hr
            rw [List.length_append, List.length_cons] at hlength
            omega
          obtain ⟨x, rfl⟩ := List.length_eq_one_iff.mp hone
          exact .joins hhead _ x hno hr rfl rfl
      · rename_i hpos
        cases hadd : s.add (uncomment oneline) with
        | error e =>
            rw [hadd] at h
            cases h
        | ok s1 =>
            rw [hadd] at h
            obtain ⟨-, rfl⟩ := add_ok hadd
            obtain ⟨hstr, hhanded⟩ := hand_ok h
            exact .handed hhead (hnone hpos) hstr hhanded

/-- No line overruns a buffer. -/
theorem cfgLine_ne_overrun : cfgLine parse s oneline ≠ .error .overrun := by
  intro h
  unfold cfgLine at h
  split at h
  · cases h
  · split at h
    · cases h
    · dsimp only at h
      split at h
      · split at h
        · cases h
        · exact add_ne_overrun h
      · cases hadd : s.add (uncomment oneline) with
        | error e =>
            rw [hadd] at h
            cases h
            exact add_ne_overrun hadd
        | ok s1 =>
            rw [hadd] at h
            exact hand_ne_overrun (add_ok hadd).1 h

/-! ## The comment of a line -/

/-- The newline of a line goes with its comment, if there is one. -/
theorem uncomment_newline (l : List Char) :
    uncomment (l ++ ['\n']) = uncomment l ∨ uncomment (l ++ ['\n']) = uncomment l ++ ['\n'] := by
  induction l with
  | nil => exact .inr rfl
  | cons c l ih =>
      by_cases hc : c = '#'
      · refine .inl ?_
        have hstop : ∀ r, uncomment (c :: r) = [] := fun r =>
          List.takeWhile_cons_of_neg (by simp [hc])
        rw [List.cons_append, hstop, hstop]
      · have hgo : ∀ r, uncomment (c :: r) = c :: uncomment r := fun r =>
          List.takeWhile_cons_of_pos (by simp [hc])
        rw [List.cons_append, hgo, hgo]
        exact ih.imp (congrArg (c :: ·)) (congrArg (c :: ·))

/-- A line and what was read of it. -/
structure ReadAs (l oneline : List Char) : Prop where
  noNewline : '\n' ∉ l
  head : oneline.head? = some '#' ↔ l.head? = some '#'
  text : uncomment oneline = uncomment l ∨ uncomment oneline = uncomment l ++ ['\n']

theorem readAs {l oneline : List Char} (hl : '\n' ∉ l)
    (h : oneline = l ++ ['\n'] ∨ oneline = l) : ReadAs l oneline := by
  rcases h with rfl | rfl
  · refine ⟨hl, ?_, uncomment_newline l⟩
    cases l with
    | nil => exact iff_of_false (by decide) (by decide)
    | cons c l => exact Iff.rfl
  · exact ⟨hl, Iff.rfl, .inl rfl⟩

/-- The text of a line has no newline. -/
theorem uncomment_noNewline {l : List Char} (hl : '\n' ∉ l) : '\n' ∉ uncomment l :=
  fun h => hl (List.takeWhile_subset _ h)

/-! ## The loop -/

/-- What the loop hands over, when a line is joined exactly where it is open; what is
    open at the end is not. -/
def handedFrom : List Char → List (List Char) → List (List Char)
  | _, [] => []
  | str, u :: us =>
      if Open u then handedFrom (str ++ u.dropLast) us else (str ++ u) :: handedFrom [] us

/-- What is open at the end. -/
def pendingFrom : Option (List Char) → List (List Char) → List (List Char)
  | p, [] => p.toList
  | p, u :: us =>
      if Open u then pendingFrom (some (p.getD [] ++ u.dropLast)) us else pendingFrom none us

/-- The strings hold no backslash, and newlines at their end only. -/
structure Clean (s : CfgState σ) : Prop where
  str : '\\' ∉ s.str ∧ '\n' ∉ s.str
  handed : ∀ h ∈ s.handed, '\\' ∉ h ∧ ∃ n, h = chomp h ++ List.replicate (n + 1) '\n'

/-- Up to its newlines. -/
theorem chomp_newlines {l : List Char} (hl : '\n' ∉ l) (n : Nat) :
    chomp (l ++ List.replicate n '\n') = l := by
  have hall : ∀ c ∈ l, (c ≠ '\n' : Bool) = true := by
    intro c hc
    exact decide_eq_true fun he => hl (he ▸ hc)
  rw [chomp, List.takeWhile_append_of_pos hall]
  cases n with
  | zero => rw [List.replicate_zero, List.takeWhile_nil, List.append_nil]
  | succ n =>
      rw [List.replicate_succ, List.takeWhile_cons_of_neg (by simp), List.append_nil]

/-- What is handed over for a line that does not join. -/
theorem chomp_handed {l oneline str : List Char} (hread : ReadAs l oneline)
    (hstr : '\n' ∉ str) :
    ∃ n, str ++ uncomment oneline ++ ['\n']
        = (str ++ uncomment l) ++ List.replicate (n + 1) '\n'
      ∧ '\n' ∉ str ++ uncomment l := by
  have hno : '\n' ∉ str ++ uncomment l := by
    rw [List.mem_append]
    exact not_or.mpr ⟨hstr, uncomment_noNewline hread.noNewline⟩
  rcases hread.text with h | h
  · exact ⟨0, by rw [h]; rfl, hno⟩
  · refine ⟨1, ?_, hno⟩
    rw [h, List.append_assoc, List.append_assoc, List.append_assoc]
    rfl

/-- **STEP**: strings stay clean. -/
theorem LineDone.clean {l : List Char} (h : LineDone s s' oneline) (hread : ReadAs l oneline)
    (hs : Clean s) : Clean s' := by
  cases h with
  | comment hhead heq => rwa [heq]
  | joins hhead v x hv hline hstr hhanded =>
      refine ⟨?_, by rw [hhanded]; exact hs.handed⟩
      have hvn : '\n' ∉ v := by
        intro hmem
        rcases hread.text with htext | htext
        · rw [hline] at htext
          exact uncomment_noNewline hread.noNewline
            (htext ▸ List.mem_append_left _ hmem)
        · rw [hline] at htext
          have hinit := congrArg List.dropLast htext
          rw [List.dropLast_concat, show v ++ ['\\', x] = (v ++ ['\\']) ++ [x] by simp,
            List.dropLast_concat] at hinit
          exact uncomment_noNewline hread.noNewline
            (hinit ▸ List.mem_append_left _ hmem)
      rw [hstr, List.mem_append, List.mem_append]
      exact ⟨not_or.mpr ⟨hs.str.1, hv⟩, not_or.mpr ⟨hs.str.2, hvn⟩⟩
  | handed hhead hline hstr hhanded =>
      refine ⟨by rw [hstr]; exact ⟨List.not_mem_nil, List.not_mem_nil⟩, ?_⟩
      intro h hmem
      rw [hhanded, List.mem_append, List.mem_singleton] at hmem
      rcases hmem with hmem | rfl
      · exact hs.handed h hmem
      · obtain ⟨n, heq, hno⟩ := chomp_handed hread hs.str.2
        constructor
        · rw [List.mem_append, List.mem_append]
          exact not_or.mpr ⟨not_or.mpr ⟨hs.str.1, hline⟩, by decide⟩
        · refine ⟨n, ?_⟩
          rw [heq, chomp_newlines hno]

/-- The line of a file is a text line unless it is a comment. -/
theorem textLines_cons {file rest l : List Char} (h : fileLines file = l :: fileLines rest) :
    textLines file
      = if l.head? = some '#' then textLines rest else uncomment l :: textLines rest := by
  rw [textLines, h]
  by_cases hl : l.head? = some '#'
  · rw [if_pos hl, List.filter_cons_of_neg (by simp [hl])]
    rfl
  · rw [if_neg hl, List.filter_cons_of_pos (by simp [hl])]
    rfl

/-- **STEP**: without a slip a line is joined exactly where it is open. -/
theorem LineDone.handedFrom {l : List Char} {us : List (List Char)}
    (h : LineDone s s' oneline) (hread : ReadAs l oneline) (hs : Clean s)
    (hhead : l.head? ≠ some '#') (hslip : '\\' ∉ (uncomment l).dropLast) :
    s.handed.map chomp ++ CfgFile.handedFrom s.str (uncomment l :: us)
      = s'.handed.map chomp ++ CfgFile.handedFrom s'.str us := by
  cases h with
  | comment hcomment heq => exact absurd (hread.head.mp hcomment) hhead
  | joins _ v x hv hline hstr hhanded =>
      rcases hread.text with htext | htext
      · -- a backslash in front of the last character is a slip
        refine absurd ?_ hslip
        rw [← htext, hline, show v ++ ['\\', x] = (v ++ ['\\']) ++ [x] by simp,
          List.dropLast_concat]
        exact List.mem_append_right _ List.mem_cons_self
      · have hinit : v ++ ['\\'] = uncomment l := by
          have hdrop := congrArg List.dropLast (hline.symm.trans htext)
          rwa [List.dropLast_concat, show v ++ ['\\', x] = (v ++ ['\\']) ++ [x] by simp,
            List.dropLast_concat] at hdrop
        have hopen : Open (uncomment l) := by
          rw [← hinit]
          exact List.getLast?_concat
        rw [CfgFile.handedFrom, if_pos hopen, hstr, hhanded, ← hinit, List.dropLast_concat]
  | handed _ hline hstr hhanded =>
      have hno : '\\' ∉ uncomment l := by
        intro hmem
        rcases hread.text with htext | htext
        · exact hline (htext ▸ hmem)
        · exact hline (htext ▸ List.mem_append_left _ hmem)
      have hclosed : ¬ Open (uncomment l) := fun hopen => hno (List.mem_of_getLast? hopen)
      obtain ⟨n, heq, hnew⟩ := chomp_handed hread hs.str.2
      rw [CfgFile.handedFrom, if_neg hclosed, hstr, hhanded, List.map_append,
        List.map_singleton, heq, chomp_newlines hnew, List.append_assoc]
      rfl

/-- The variables a round starts with. -/
theorem Clean.count (hs : Clean s) (n : Nat) : Clean { s with lineNum := n } := ⟨hs.str, hs.handed⟩

/-- A round that goes well. -/
theorem cfgLoop_ok {fuel : Nat} {file : List Char} (h : cfgLoop parse fuel file s = .ok s')
    (hfuel : file.length ≤ fuel) :
    file = [] ∧ s' = s
      ∨ ∃ fuel' rest l s1 oneline, rest.length ≤ fuel' ∧ fuel = fuel' + 1
        ∧ fileLines file = l :: fileLines rest ∧ ReadAs l oneline
        ∧ LineDone { s with lineNum := s.lineNum + 1 } s1 oneline
        ∧ cfgLoop parse fuel' rest s1 = .ok s' := by
  cases fuel with
  | zero =>
      cases h
      exact .inl ⟨List.length_eq_zero_iff.mp (Nat.le_zero.mp hfuel), rfl⟩
  | succ fuel =>
      rw [cfgLoop] at h
      cases hgets : fgets file with
      | none =>
          rw [hgets] at h
          cases h
          refine .inl ⟨?_, rfl⟩
          unfold fgets at hgets
          split at hgets
          · assumption
          · cases hgets
      | some r =>
          simp only [hgets] at h
          cases hline : cfgLine parse { s with lineNum := s.lineNum + 1 } r.1 with
          | error e =>
              rw [hline] at h
              cases h
          | ok s1 =>
              rw [hline] at h
              obtain ⟨hlen, hdone⟩ := cfgLine_ok hline
              obtain ⟨hrest, l, hl, hlines, hread⟩ := fgets_spec hgets hlen
              exact .inr ⟨fuel, r.2, l, s1, r.1, by omega, rfl, hlines, readAs hl hread,
                hdone, h⟩

/-- **RUN**: the strings stay clean. -/
theorem cfgLoop_clean (fuel : Nat) {file : List Char}
    (h : cfgLoop parse fuel file s = .ok s') (hfuel : file.length ≤ fuel) (hs : Clean s) :
    Clean s' := by
  induction fuel generalizing file s with
  | zero =>
      cases h
      exact hs
  | succ fuel ih =>
      rcases cfgLoop_ok h hfuel with ⟨-, rfl⟩ | ⟨fuel', rest, l, s1, oneline, hrest, heq, -,
        hread, hdone, hloop⟩
      · exact hs
      · cases heq
        exact ih hloop hrest (hdone.clean hread (hs.count _))

/-- **RUN**: without a slip the lines are joined exactly where they are open. -/
theorem cfgLoop_handed (fuel : Nat) {file : List Char}
    (h : cfgLoop parse fuel file s = .ok s') (hfuel : file.length ≤ fuel) (hs : Clean s)
    (hslip : ∀ u ∈ textLines file, '\\' ∉ u.dropLast) :
    s'.handed.map chomp = s.handed.map chomp ++ handedFrom s.str (textLines file) := by
  have hnil : textLines [] = [] := by
    rw [textLines, fileLines_nil]
    rfl
  induction fuel generalizing file s with
  | zero =>
      cases h
      rw [List.length_eq_zero_iff.mp (Nat.le_zero.mp hfuel), hnil]
      exact (List.append_nil _).symm
  | succ fuel ih =>
      rcases cfgLoop_ok h hfuel with ⟨hfile, rfl⟩ | ⟨fuel', rest, l, s1, oneline, hrest, heq,
        hlines, hread, hdone, hloop⟩
      · rw [hfile, hnil]
        exact (List.append_nil _).symm
      · cases heq
        have htext := textLines_cons hlines
        have hclean := hdone.clean hread (hs.count _)
        by_cases hhead : l.head? = some '#'
        · rw [if_pos hhead] at htext
          rw [ih hloop hrest hclean (htext ▸ hslip), htext]
          cases hdone with
          | comment _ heq => rw [heq]
          | joins hno => exact absurd (hread.head.mpr hhead) hno
          | handed hno => exact absurd (hread.head.mpr hhead) hno
        · rw [if_neg hhead] at htext
          rw [htext] at hslip ⊢
          rw [ih hloop hrest hclean fun u hu => hslip u (List.mem_cons_of_mem _ hu)]
          exact (hdone.handedFrom hread (hs.count _) hhead
            (hslip _ List.mem_cons_self)).symm

/-- No run overruns a buffer. -/
theorem cfgLoop_ne_overrun (fuel : Nat) (file : List Char) :
    cfgLoop parse fuel file s ≠ .error .overrun := by
  induction fuel generalizing file s with
  | zero => exact nofun
  | succ fuel ih =>
      rw [cfgLoop]
      split
      · exact nofun
      · rename_i r hgets
        cases hline : cfgLine parse { s with lineNum := s.lineNum + 1 } r.1 with
        | error e =>
            intro h
            cases h
            exact cfgLine_ne_overrun hline
        | ok s1 => exact ih r.2

/-! ## The logical lines -/

/-- The logical lines are those handed over, and the one that is open at the end. -/
theorem logicalFrom_eq (us : List (List Char)) (p : Option (List Char)) :
    logicalFrom p us = handedFrom (p.getD []) us ++ pendingFrom p us := by
  induction us generalizing p with
  | nil => rfl
  | cons u us ih =>
      rw [logicalFrom, handedFrom, pendingFrom]
      by_cases hu : Open u
      · rw [if_pos hu, if_pos hu, if_pos hu]
        exact ih _
      · rw [if_neg hu, if_neg hu, if_neg hu, ih none]
        rfl

/-- Nothing is open at the end when the last line is not. -/
theorem pendingFrom_eq_nil_iff (us : List (List Char)) (p : Option (List Char)) :
    pendingFrom p us = [] ↔ us.getLast?.elim (p = none) fun u => ¬ Open u := by
  induction us generalizing p with
  | nil =>
      cases p with
      | none => exact iff_of_true rfl rfl
      | some str => exact iff_of_false (List.cons_ne_nil _ _) (Option.some_ne_none _)
  | cons u us ih =>
      rw [pendingFrom]
      cases us with
      | nil =>
          by_cases hu : Open u
          · rw [if_pos hu]
            exact iff_of_false (List.cons_ne_nil _ _) fun h => h hu
          · rw [if_neg hu]
            exact iff_of_true rfl hu
      | cons u' us =>
          rw [List.getLast?_cons_cons]
          have hlast : ∀ q r : Prop, ((u' :: us).getLast?.elim q fun u => ¬ Open u)
              ↔ (u' :: us).getLast?.elim r fun u => ¬ Open u := by
            intro q r
            rw [List.getLast?_eq_some_getLast (List.cons_ne_nil u' us)]
            exact Iff.rfl
          split
          · exact (ih _).trans (hlast _ _)
          · exact (ih _).trans (hlast _ _)

/-- A backslash that does not end its line stays in a logical line. -/
theorem backslash_logical (us : List (List Char)) (p : Option (List Char))
    (h : '\\' ∈ p.getD [] ∨ ∃ u ∈ us, '\\' ∈ u.dropLast) :
    ∃ l ∈ logicalFrom p us, '\\' ∈ l := by
  induction us generalizing p with
  | nil =>
      rcases h with h | ⟨u, hu, -⟩
      · cases p with
        | none => cases h
        | some str => exact ⟨str, List.mem_singleton.mpr rfl, h⟩
      · cases hu
  | cons u us ih =>
      rw [logicalFrom]
      by_cases hu : Open u
      · rw [if_pos hu]
        refine ih _ ?_
        rcases h with h | ⟨u', hu', h⟩
        · exact .inl (List.mem_append_left _ h)
        · rcases List.mem_cons.mp hu' with rfl | hu'
          · exact .inl (List.mem_append_right _ h)
          · exact .inr ⟨u', hu', h⟩
      · rw [if_neg hu]
        rcases h with h | ⟨u', hu', h⟩
        · exact ⟨_, List.mem_cons_self, List.mem_append_left _ h⟩
        · rcases List.mem_cons.mp hu' with rfl | hu'
          · exact ⟨_, List.mem_cons_self,
              List.mem_append_right _ (List.dropLast_subset _ h)⟩
          · obtain ⟨l, hl, hmem⟩ := ih none (.inr ⟨u', hu', h⟩)
            exact ⟨l, List.mem_cons_of_mem _ hl, hmem⟩

/-- The file has no slip: a backslash stands at the end of its line only, and the last
    line is not open. -/
def NoSlip (chars : List Char) : Prop :=
  (∀ u ∈ textLines chars, '\\' ∉ u.dropLast)
    ∧ ∀ u, (textLines chars).getLast? = some u → ¬ Open u

/-- **LINES**: the buffers are never overrun, and the lines of a file that is read to
    its end are handed over, each once and in order, exactly when it has no slip. -/
theorem processed_iff {σ : Type} (parse : Parse σ) (prog : σ) (file : Text) :
    parseCfgFile parse prog file ≠ .error .overrun
      ∧ ∀ s, parseCfgFile parse prog file = .ok s →
        (Processed s file.chars ↔ NoSlip file.chars) := by
  refine ⟨cfgLoop_ne_overrun _ _, fun s h => ?_⟩
  have hstart : Clean ({ prog := prog } : CfgState σ) :=
    ⟨⟨List.not_mem_nil, List.not_mem_nil⟩, fun _ h => absurd h List.not_mem_nil⟩
  have hclean := cfgLoop_clean _ h (Nat.le_refl _) hstart
  have hpending := pendingFrom_eq_nil_iff (textLines file.chars) none
  constructor
  · rintro ⟨hlines, -⟩
    have hslip : ∀ u ∈ textLines file.chars, '\\' ∉ u.dropLast := by
      intro u hu hmem
      obtain ⟨l, hl, hback⟩ := backslash_logical (textLines file.chars) none
        (.inr ⟨u, hu, hmem⟩)
      have hl : l ∈ logicalLines file.chars := hl
      rw [← hlines] at hl
      obtain ⟨str, hstr, rfl⟩ := List.mem_map.mp hl
      exact (hclean.handed str hstr).1 (List.takeWhile_subset _ hback)
    refine ⟨hslip, ?_⟩
    have hhanded := cfgLoop_handed _ h (Nat.le_refl _) hstart hslip
    rw [hlines, logicalLines, logicalFrom_eq] at hhanded
    have hnil : pendingFrom none (textLines file.chars) = [] := by
      have hlen := congrArg List.length hhanded
      rw [List.length_append, List.length_append] at hlen
      refine List.length_eq_zero_iff.mp ?_
      simpa using hlen
    intro u hu
    have hlast := hpending.mp hnil
    rwa [hu] at hlast
  · rintro ⟨hslip, hlast⟩
    refine ⟨?_, fun str hstr => (hclean.handed str hstr).2⟩
    have hnil : pendingFrom none (textLines file.chars) = [] := by
      refine hpending.mpr ?_
      cases hget : (textLines file.chars).getLast? with
      | none => exact rfl
      | some u => exact hlast u hget
    rw [cfgLoop_handed _ h (Nat.le_refl _) hstart hslip, logicalLines, logicalFrom_eq, hnil,
      List.append_nil]
    rfl

/-- A file of a line that goes on behind a comment. -/
def twoLines : Text := ⟨['a', '\\', '\n', '#', '\n', 'b', '#'], by decide⟩

theorem processed_iff_twoLines :
    Processed (⟨(), [], 3, [['a', 'b', '\n']]⟩ : CfgState Unit) twoLines.chars := by
  refine ((processed_iff (fun p _ => some p) () twoLines).2
    ⟨(), [], 3, [['a', 'b', '\n']]⟩ rfl).mpr ⟨by decide, ?_⟩
  intro u hu
  have hlast : (textLines twoLines.chars).getLast? = some ['b'] := by decide
  rw [hlast] at hu
  rw [← Option.some.inj hu]
  decide

/-- A file that ends in a line that goes on. -/
def openEnd : Text := ⟨['a', '\\', '\n'], by decide⟩

/-- **NOT SO**: the line is dropped without a word. -/
theorem openEnd_dropped :
    ¬ ∀ (file : Text) (s : CfgState Unit),
      parseCfgFile (fun p _ => some p) () file = .ok s → Processed s file.chars := by
  intro h
  have hprocessed := h openEnd ⟨(), ['a'], 1, []⟩ rfl
  exact absurd hprocessed.1 (by decide)

end CfgFile
