import IpsecSecgw.ConfigArgModel

/-! # What `--config` may say

    The text that is accepted is a sequence of groups with anything but an opening
    parenthesis between them, a thousand and twenty-four at most.  Lists of queues
    that are written down in the documented form are read back as they were
    (`config_read_back`). -/

namespace ConfigArg

open CdevModel SaParse

variable {split : Strsplit}

/-! ## The texts accepted -/

/-- A text of groups, and what they say. -/
inductive Groups (split : Strsplit) : List Char → List LcoreParams → Prop
  | done {gap : List Char} (hgap : '(' ∉ gap) : Groups split gap []
  | group {gap g rest : List Char} {e : LcoreParams} {es : List LcoreParams}
      (hgap : '(' ∉ gap) (hg : ')' ∉ g) (he : parseGroup split g = some e)
      (hrest : Groups split rest es) :
      Groups split (gap ++ '(' :: (g ++ ')' :: rest)) (e :: es)

/-- The first place of a character. -/
theorem dropWhile_place (c : Char) (s : List Char) :
    (c ∉ s ∧ s.dropWhile (· ≠ c) = []) ∨ ∃ pre rest, c ∉ pre ∧ s = pre ++ c :: rest
      ∧ s.dropWhile (· ≠ c) = c :: rest ∧ s.takeWhile (· ≠ c) = pre := by
  induction s with
  | nil => exact .inl ⟨List.not_mem_nil, rfl⟩
  | cons x s ih =>
      by_cases hx : x = c
      · subst hx
        exact .inr ⟨[], s, List.not_mem_nil, rfl, by simp, by simp⟩
      · rcases ih with ⟨hout, hdrop⟩ | ⟨pre, rest, hpre, hs, hdrop, htake⟩
        · refine .inl ⟨?_, by simpa [hx] using hdrop⟩
          simp [hout, Ne.symm hx]
        · refine .inr ⟨x :: pre, rest, ?_, ?_, ?_, ?_⟩
          · simp [hpre, Ne.symm hx]
          · rw [hs, List.cons_append]
          · simpa [hx] using hdrop
          · simpa [hx] using htake

/-- There is only one first place. -/
theorem place_unique {c : Char} {pre pre' rest rest' : List Char} (hpre : c ∉ pre)
    (hpre' : c ∉ pre') (h : pre ++ c :: rest = pre' ++ c :: rest') :
    pre = pre' ∧ rest = rest' := by
  induction pre generalizing pre' with
  | nil =>
      cases pre' with
      | nil => exact ⟨rfl, (List.cons.inj h).2⟩
      | cons x pre' =>
          have := (List.cons.inj h).1
          exact absurd (this ▸ List.mem_cons_self) hpre'
  | cons x pre ih =>
      cases pre' with
      | nil =>
          have := (List.cons.inj h).1
          exact absurd (this ▸ List.mem_cons_self) hpre
      | cons y pre' =>
          obtain ⟨hxy, htail⟩ := List.cons.inj h
          obtain ⟨rfl, hrest⟩ := ih (fun hin => hpre (List.mem_cons_of_mem _ hin))
            (fun hin => hpre' (List.mem_cons_of_mem _ hin)) htail
          exact ⟨by rw [hxy], hrest⟩

/-- A closing parenthesis in front makes no difference. -/
theorem groups_paren {rest : List Char} {es : List LcoreParams} :
    Groups split (')' :: rest) es ↔ Groups split rest es := by
  have hne : '(' ≠ ')' := by decide
  constructor
  · intro h
    generalize hs : ')' :: rest = s at h
    cases h with
    | done hgap =>
        refine .done fun hin => hgap ?_
        rw [← hs]
        exact List.mem_cons_of_mem _ hin
    | @group gap g rest' e es hgap hg he hrest =>
        cases gap with
        | nil => exact absurd (List.cons.inj hs).1.symm hne
        | cons x gap =>
            obtain ⟨-, rfl⟩ := List.cons.inj hs
            exact .group (fun hin => hgap (List.mem_cons_of_mem _ hin)) hg he hrest
  · intro h
    cases h with
    | done hgap => exact .done (by simp [hgap, hne])
    | @group gap g rest' e es hgap hg he hrest =>
        rw [← List.cons_append]
        exact .group (by simp [hgap, hne]) hg he hrest

/-- A text is of one list only. -/
theorem Groups.unique {s : List Char} {es es' : List LcoreParams} (h : Groups split s es)
    (h' : Groups split s es') : es = es' := by
  induction h generalizing es' with
  | done hgap =>
      cases h' with
      | done => rfl
      | group => exact absurd (List.mem_append_right _ List.mem_cons_self) hgap
  | @group gap g rest e es hgap hg he hrest ih =>
      generalize hs : gap ++ '(' :: (g ++ ')' :: rest) = s at h'
      cases h' with
      | done hgap' =>
          refine absurd ?_ hgap'
          rw [← hs]
          exact List.mem_append_right _ List.mem_cons_self
      | group hgap' hg' he' hrest' =>
          obtain ⟨-, hp⟩ := place_unique hgap hgap' hs
          obtain ⟨rfl, rfl⟩ := place_unique hg hg' hp
          obtain rfl := Option.some.inj (he.symm.trans he')
          rw [ih hrest']

/-- **THE LOOP** reads the groups that are left. -/
theorem parseLoop_iff {fuel : Nat} {s : List Char} {acc r : List LcoreParams}
    (hfuel : s.length < fuel) (hacc : acc.length ≤ maxLcoreParams) :
    parseLoop split fuel s acc = some r
      ↔ ∃ es, r = acc ++ es ∧ Groups split s es ∧ acc.length + es.length ≤ maxLcoreParams := by
  induction fuel generalizing s acc with
  | zero => exact absurd hfuel (Nat.not_lt_zero _)
  | succ fuel ih =>
      rw [parseLoop]
      rcases dropWhile_place '(' s with ⟨hout, hdrop⟩ | ⟨gap, p, hgap, rfl, hdrop, -⟩
      · -- no group is left
        rw [hdrop]
        constructor
        · intro h
          obtain rfl := Option.some.inj h
          exact ⟨[], (List.append_nil _).symm, .done hout, hacc⟩
        · rintro ⟨es, rfl, hgroups, -⟩
          cases hgroups with
          | done hgap => rw [List.append_nil]
          | group => exact absurd (List.mem_append_right _ List.mem_cons_self) hout
      · rw [hdrop]
        dsimp only
        rcases dropWhile_place ')' p with ⟨hout, hdrop'⟩ | ⟨g, rest, hg, rfl, hdrop', htake⟩
        · -- the last group does not end
          rw [hdrop']
          refine iff_of_false (by simp) ?_
          rintro ⟨es, -, hgroups, -⟩
          generalize hs : gap ++ '(' :: p = s at hgroups
          cases hgroups with
          | done hgap' =>
              refine hgap' ?_
              rw [← hs]
              exact List.mem_append_right _ List.mem_cons_self
          | group hgap' _ _ _ =>
              obtain ⟨-, rfl⟩ := place_unique hgap hgap' hs
              exact hout (List.mem_append_right _ List.mem_cons_self)
        · rw [hdrop', htake]
          dsimp only
          have hshape : ∀ es, Groups split (gap ++ '(' :: (g ++ ')' :: rest)) es
              ↔ ∃ e es', es = e :: es' ∧ parseGroup split g = some e
                ∧ Groups split rest es' := by
            intro es
            constructor
            · intro h
              generalize hs : gap ++ '(' :: (g ++ ')' :: rest) = s at h
              cases h with
              | done hgap' =>
                  refine absurd ?_ hgap'
                  rw [← hs]
                  exact List.mem_append_right _ List.mem_cons_self
              | group hgap' hg' he hrest =>
                  obtain ⟨-, hp⟩ := place_unique hgap hgap' hs
                  obtain ⟨rfl, rfl⟩ := place_unique hg hg' hp
                  exact ⟨_, _, rfl, he, hrest⟩
            · rintro ⟨e, es', rfl, he, hrest⟩
              exact .group hgap hg he hrest
          simp only [hshape]
          split
          · rename_i hnone
            refine iff_of_false (by simp) ?_
            rintro ⟨es, -, ⟨e, es', -, he, -⟩, -⟩
            rw [hnone] at he
            cases he
          · rename_i e he
            have hshort : (')' :: rest).length < fuel := by
              simp only [List.length_append, List.length_cons] at hfuel ⊢
              omega
            split
            · rename_i hfull
              refine iff_of_false (by simp) ?_
              rintro ⟨es, -, ⟨e', es', rfl, -, -⟩, hle⟩
              rw [List.length_cons] at hle
              omega
            · rename_i hroom
              rw [ih hshort (by rw [List.length_append, List.length_singleton]; omega)]
              simp only [groups_paren, List.length_append, List.length_singleton]
              constructor
              · rintro ⟨es, rfl, hrest, hle⟩
                refine ⟨e :: es, by simp, ⟨e, es, rfl, he, hrest⟩, ?_⟩
                rw [List.length_cons]
                omega
              · rintro ⟨es, rfl, ⟨e', es', rfl, he', hrest⟩, hle⟩
                obtain rfl := Option.some.inj (he.symm.trans he')
                refine ⟨es', by simp, hrest, ?_⟩
                rw [List.length_cons] at hle
                omega

/-- **WHAT IS ACCEPTED**. -/
theorem parseConfig_iff (arg : List Char) (ps : List LcoreParams) :
    parseConfig split arg = some ps
      ↔ Groups split arg ps ∧ ps.length ≤ maxLcoreParams := by
  rw [parseConfig, parseLoop_iff (Nat.lt_succ_self _) (Nat.zero_le _)]
  constructor
  · rintro ⟨es, rfl, hgroups, hle⟩
    rw [List.length_nil, Nat.zero_add] at hle
    exact ⟨hgroups, hle⟩
  · rintro ⟨hgroups, hle⟩
    refine ⟨ps, rfl, hgroups, ?_⟩
    rw [List.length_nil, Nat.zero_add]
    exact hle

/-- Ports have eight bits here, as the other fields have. -/
theorem parseGroup_port {s : List Char} {e : LcoreParams} (h : parseGroup split s = some e) :
    e.portId.toNat ≤ 255 := by
  rw [parseGroup] at h
  split at h
  · cases h
  split at h
  · obtain ⟨port, hport, h⟩ := Option.bind_eq_some_iff.mp h
    obtain ⟨queue, -, h⟩ := Option.bind_eq_some_iff.mp h
    obtain ⟨lcore, -, h⟩ := Option.bind_eq_some_iff.mp h
    obtain rfl := Option.some.inj h
    obtain ⟨-, hle⟩ := Option.filter_eq_some_iff.mp hport
    have hle : port ≤ 255 := of_decide_eq_true hle
    show (UInt16.ofNat port).toNat ≤ 255
    rw [UInt16.toNat_ofNat']
    omega
  · cases h

theorem Groups.ports {s : List Char} {es : List LcoreParams} (h : Groups split s es) :
    ∀ e ∈ es, e.portId.toNat ≤ 255 := by
  induction h with
  | done _ => exact fun e he => absurd he List.not_mem_nil
  | group _ _ he _ ih =>
      intro e' he'
      rcases List.mem_cons.mp he' with rfl | he'
      · exact parseGroup_port he
      · exact ih e' he'

/-! ## The documented form -/

/-- A number in decimal. -/
def number (n : Nat) : List Char := Nat.toDigits 10 n

/-- What stands between the parentheses for an entry. -/
def groupText (e : LcoreParams) : List Char :=
  number e.portId.toNat
    ++ ',' :: (number e.queueId.toNat ++ ',' :: number e.lcoreId.toNat)

/-- Entries, each behind some other text, and text behind them. -/
def written (tail : List Char) : List (List Char × LcoreParams) → List Char
  | [] => tail
  | (gap, e) :: es => gap ++ '(' :: (groupText e ++ ')' :: written tail es)

/-- What is documented of `rte_strsplit`, for three parts. -/
def SplitsThree (split : Strsplit) : Prop :=
  ∀ a b c : List Char, a ≠ [] → b ≠ [] → c ≠ [] → ',' ∉ a → ',' ∉ b → ',' ∉ c →
    split (a ++ ',' :: (b ++ ',' :: c)) 3 ',' = [a, b, c]

/-- Small numbers are read back; they have at most three digits. -/
theorem number_read : ∀ n, n < 256 → parseField (number n) = some n
    ∧ (number n).length ≤ 3 ∧ number n ≠ [] ∧ (number n).all Char.isDigit = true := by
  decide +kernel

theorem number_plain {n : Nat} (hn : n < 256) : ',' ∉ number n ∧ ')' ∉ number n := by
  obtain ⟨-, -, -, hdigits⟩ := number_read n hn
  have hall := List.all_eq_true.mp hdigits
  exact ⟨fun h => absurd (hall _ h) (by decide), fun h => absurd (hall _ h) (by decide)⟩

/-- **ONE GROUP** is read back. -/
theorem parseGroup_text (hsplit : SplitsThree split) {e : LcoreParams}
    (hport : e.portId.toNat < 256) :
    parseGroup split (groupText e) = some e ∧ ')' ∉ groupText e := by
  have hqueue : e.queueId.toNat < 256 := e.queueId.toNat_lt
  have hlcore : e.lcoreId.toNat < 256 := e.lcoreId.toNat_lt
  obtain ⟨hp, hplen, hpne, -⟩ := number_read _ hport
  obtain ⟨hq, hqlen, hqne, -⟩ := number_read _ hqueue
  obtain ⟨hl, hllen, hlne, -⟩ := number_read _ hlcore
  constructor
  · have hlen : ¬ 256 ≤ (groupText e).length := by
      rw [groupText]
      simp only [List.length_append, List.length_cons]
      omega
    rw [parseGroup, if_neg hlen, groupText, hsplit _ _ _ hpne hqne hlne
      (number_plain hport).1 (number_plain hqueue).1 (number_plain hlcore).1]
    dsimp only
    rw [hp, hq, hl]
    simp
  · rw [groupText]
    simp [(number_plain hport).2, (number_plain hqueue).2, (number_plain hlcore).2]

/-- **LISTS OF QUEUES ARE READ BACK**: the texts accepted are those of at most 1024
    groups, their ports have eight bits, and a list written down in the documented
    form comes back, whatever stands between its groups. -/
theorem config_read_back (hsplit : SplitsThree split) :
    (∀ arg ps, parseConfig split arg = some ps
        ↔ Groups split arg ps ∧ ps.length ≤ maxLcoreParams)
      ∧ (∀ arg ps, parseConfig split arg = some ps → ∀ e ∈ ps, e.portId.toNat ≤ 255)
      ∧ ∀ (es : List (List Char × LcoreParams)) (tail : List Char), '(' ∉ tail →
        (∀ x ∈ es, '(' ∉ x.1 ∧ x.2.portId.toNat ≤ 255) →
        parseConfig split (written tail es)
          = if es.length ≤ maxLcoreParams then some (es.map Prod.snd) else none := by
  refine ⟨parseConfig_iff, fun arg ps h => ((parseConfig_iff arg ps).mp h).1.ports, ?_⟩
  intro es tail htail hes
  have hgroups : Groups split (written tail es) (es.map Prod.snd) := by
    induction es with
    | nil => exact .done htail
    | cons x es ih =>
        obtain ⟨hgap, hport⟩ := hes x List.mem_cons_self
        obtain ⟨hread, hplain⟩ := parseGroup_text hsplit (Nat.lt_succ_of_le hport)
        exact .group hgap hplain hread (ih fun y hy => hes y (List.mem_cons_of_mem _ hy))
  split
  · rename_i hle
    exact (parseConfig_iff _ _).mpr ⟨hgroups, by rwa [List.length_map]⟩
  · rename_i hgt
    refine Option.eq_none_iff_forall_not_mem.mpr ?_
    intro ps hps
    obtain ⟨hgroups', hle⟩ := (parseConfig_iff _ _).mp hps
    -- a text is of one list only
    have := hgroups.unique hgroups'
    rw [← this, List.length_map] at hle
    exact hgt hle

/-- `rte_strsplit`: the last part is what is left of the text. -/
def strsplitFrom (c : Char) : Nat → List Char → List (List Char)
  | 0, _ => []
  | _ + 1, [] => []
  | 1, x :: s => [if x = c then [] else x :: s]
  | n + 2, s =>
      s.takeWhile (· ≠ c) :: strsplitFrom c (n + 1) ((s.dropWhile (· ≠ c)).drop 1)

def strsplit : Strsplit := fun s n c => strsplitFrom c n s

theorem strsplitFrom_cut {c : Char} {a b : List Char} (n : Nat) (ha : a ≠ []) (hc : c ∉ a) :
    strsplitFrom c (n + 2) (a ++ c :: b) = a :: strsplitFrom c (n + 1) b := by
  have hall : ∀ x ∈ a, decide (x ≠ c) = true := fun x hx =>
    decide_eq_true fun h => hc (h ▸ hx)
  obtain ⟨x, a, rfl⟩ := List.exists_cons_of_ne_nil ha
  have htake : ((x :: a) ++ c :: b).takeWhile (· ≠ c) = x :: a := by
    rw [List.takeWhile_append_of_pos hall]
    simp
  have hdrop : ((x :: a) ++ c :: b).dropWhile (· ≠ c) = c :: b := by
    rw [List.dropWhile_append_of_pos hall]
    simp
  rw [List.cons_append] at htake hdrop ⊢
  rw [strsplitFrom, htake, hdrop, List.drop_one, List.tail_cons]
  exact List.cons_ne_nil _ _

theorem strsplit_three : SplitsThree strsplit := by
  intro a b s ha hb hs hca hcb hcs
  rw [strsplit, strsplitFrom_cut 1 ha hca, strsplitFrom_cut 0 hb hcb]
  obtain ⟨x, s, rfl⟩ := List.exists_cons_of_ne_nil hs
  have hx : x ≠ ',' := fun h => hcs (h ▸ List.mem_cons_self)
  rw [strsplitFrom, if_neg hx]

/-- Two queues, as they stand in a start script. -/
theorem config_read_back_two :
    parseConfig strsplit "(0,0,1),(1,0,2)".toList = some [⟨0, 0, 1⟩, ⟨1, 0, 2⟩] :=
  ((config_read_back strsplit_three).2.2 [([], ⟨0, 0, 1⟩), ([','], ⟨1, 0, 2⟩)] []
    (by decide) (by decide)).trans (if_pos (by decide))

end ConfigArg
