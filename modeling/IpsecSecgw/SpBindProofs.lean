import IpsecSecgw.SaIndexProofs

/-! # SP rules and SAs, socket by socket

    For a socket that finds SPIs in the rules every rule is bound to the SA with its SPI,
    and the transport SAs are in the SAD for the families of their rules (`Bound`).  The
    next socket finds the indices of the one before it. -/

namespace SpInit

open ByteStore SaModel MbufModel SadModel SpiSearch SaInit Sad SadAdding
open ParserModel (bind_ok)

variable {lib : SadLib} {plat : Platform} {t : Tables}

/-! ## The SAD -/

/-- A family answers the key of a SA with it. -/
def AnswersKey (sad : IpsecSad lib) (isV4 : Bool) (e : IpsecSa) (p : SaPtr) : Prop :=
  answer lib (sad.table isV4) (keyOf e isV4) = some p

/-- **ONE SA** that is entered: the tables answer what they did, and the new SA for the
    families it selects. -/
theorem ipsecSadAdd_step {sad : IpsecSad lib} {i : Nat} {e : IpsecSa}
    (h : (ipsecSadAdd lib t (fun _ => e) sad i).1 = 0) (isV4 : Bool) :
    (∀ p, Holds (ipsecSadAdd lib t (fun _ => e) sad i).2 isV4 p →
        Holds sad isV4 p ∨ p = i ∧ selects t e isV4 = true)
      ∧ (∀ e' p, AnswersKey sad isV4 e' p →
        AnswersKey (ipsecSadAdd lib t (fun _ => e) sad i).2 isV4 e' p)
      ∧ (selects t e isV4 = true →
        AnswersKey (ipsecSadAdd lib t (fun _ => e) sad i).2 isV4 e i) := by
  have htakes : ∀ isV4, Takes t (fun _ => e) sad i isV4 := by
    by_contra hnot
    exact (ipsecSadAdd_failed hnot).1 h
  have hentered := (ipsecSadAdd_taken htakes).2 isV4
  refine ⟨?_, ?_, ?_⟩
  · rintro p ⟨k, hk⟩
    rw [hentered k] at hk
    split at hk
    · rename_i hnew
      exact .inr ⟨(Option.some.inj hk).symm, hnew.1⟩
    · exact .inl ⟨k, hk⟩
  · intro e' p hold
    rw [AnswersKey, hentered, if_neg]
    · exact hold
    · rintro ⟨hsel, hspi⟩
      -- the library would have refused a second SA with this key
      obtain ⟨-, hfree, -⟩ := addFamily_accepted (htakes isV4 hsel)
      have hkey : keyOf e' isV4 = keyOf e isV4 := by
        have hspi : toBe 4 e'.spi.toNat = toBe 4 e.spi.toNat := hspi
        rw [keyOf, keyOf, hspi]
      rw [AnswersKey, hkey] at hold
      cases hfree.symm.trans hold
  · intro hsel
    rw [AnswersKey, hentered, if_pos ⟨hsel, rfl⟩]

/-- **ALL SAs** that are entered. -/
theorem saAddRules_sad {i : Nat} {entries : List IpsecSa} {s s' : RuleState lib}
    (hfree : FreeFrom i s.tbl) (h : saAddRules plat t true i entries s = .ok (0, s'))
    (isV4 : Bool) :
    (∀ p, Holds s'.tbl.sad isV4 p → Holds s.tbl.sad isV4 p
        ∨ ∃ k e, entries[k]? = some e ∧ p = i + k ∧ selects t e isV4 = true)
      ∧ (∀ e' p, AnswersKey s.tbl.sad isV4 e' p → AnswersKey s'.tbl.sad isV4 e' p)
      ∧ ∀ k e, entries[k]? = some e → selects t e isV4 = true →
        AnswersKey s'.tbl.sad isV4 e (i + k) := by
  induction entries generalizing i s with
  | nil =>
      cases h
      refine ⟨fun _ hp => .inl hp, fun _ _ ha => ha, fun k e hk => ?_⟩
      cases hk
  | cons e entries ih =>
      obtain ⟨s1, hr, h⟩ := saAddRules_cons h
      obtain ⟨hadd, -, hd⟩ := saAddRule_ok (hfree i (Nat.le_refl i)) hr
      obtain ⟨hholds, hkeeps, hanswers⟩ := ih (hd.free hfree) h
      have hzero : (ipsecSadAdd lib t (fun _ => e) s.tbl.sad i).1 = 0 := hadd
      have hstep := ipsecSadAdd_step hzero isV4
      have hsad : s1.tbl.sad = (ipsecSadAdd lib t (fun _ => e) s.tbl.sad i).2 := hd.sad
      rw [← hsad] at hstep
      obtain ⟨hholds1, hkeeps1, hanswers1⟩ := hstep
      refine ⟨fun p hp => ?_, fun e' p ha => hkeeps e' p (hkeeps1 e' p ha),
        fun k e' hk hsel => ?_⟩
      · rcases hholds p hp with hp | ⟨k, e', hk, rfl, hsel⟩
        · rcases hholds1 p hp with hp | ⟨rfl, hsel⟩
          · exact .inl hp
          · exact .inr ⟨0, e, rfl, rfl, hsel⟩
        · exact .inr ⟨k + 1, e', hk, by rw [Nat.add_assoc, Nat.add_comm 1 k], hsel⟩
      · cases k with
        | zero =>
            obtain rfl := Option.some.inj hk
            exact hkeeps e i (hanswers1 hsel)
        | succ k =>
            have ha := hanswers k e' hk hsel
            rw [Nat.add_assoc, Nat.add_comm 1 k] at ha
            exact ha

/-- A table of `ipsec_sad_create` is empty. -/
theorem sadTable_answer {isV4 : Bool} {table : Option lib.Table}
    (h : sadTable lib plat t isV4 = .ok table) (k : SadKey) : answer lib table k = none := by
  unfold sadTable at h
  split at h
  · split at h
    · cases h
      exact lib.lookup_empty k
    · cases h
  · cases h
    rfl

/-- A fresh table answers nothing. -/
theorem freshTable_holds {tbl : SaTable lib} (h : freshTable lib plat t true = some tbl)
    (isV4 : Bool) (p : SaPtr) : ¬ Holds tbl.sad isV4 p := by
  rw [freshTable] at h
  dsimp only at h
  split at h
  · cases h
  · rw [if_pos rfl] at h
    obtain ⟨sad, hsad, rfl⟩ := Option.map_eq_some_iff.mp h
    have hcreate : ipsecSadCreate lib plat t = .ok sad := by
      cases hx : ipsecSadCreate lib plat t with
      | error x =>
          rw [hx] at hsad
          cases hsad
      | ok sad' =>
          rw [hx] at hsad
          cases hsad
          rfl
    obtain ⟨sadV4, h4, hcreate⟩ := bind_ok hcreate
    obtain ⟨sadV6, h6, hcreate⟩ := bind_ok hcreate
    cases hcreate
    rintro ⟨k, hk⟩
    cases isV4 with
    | true => cases (sadTable_answer h4 k).symm.trans hk
    | false => cases (sadTable_answer h6 k).symm.trans hk

/-! ## Sockets -/

/-- A socket is bound to the rules of the file: every PROTECT rule of its contexts has
    the index of a SA with the SPI that the file gives, less one, and every inbound
    transport SA is in the SAD for exactly the families with a rule for its SPI. -/
structure Bound (t0 : Tables) (s : Socket lib) : Prop where
  rule : ∀ isV4 inbound (i : Nat) (r : AclRules), (aclRules t0 isV4 inbound)[i]? = some r →
    r.userdata ≠ SaModel.discard → r.userdata ≠ bypass →
    ∃ (db : SpDb) (r' : AclRules) (k : Nat) (tbl : SaTable lib),
      s.sp isV4 inbound = some db ∧ db.rules[i]? = some r' ∧ r'.userdata = UInt32.ofNat (k + 1)
        ∧ s.sas.sas inbound = some tbl ∧ k < tbl.nbSa ∧ (tbl.sa k).sa.spi = r.userdata
  sad : ∀ (i : Nat) e, t0.saIn[i]? = some e → withoutTransportVersion e.flags = transport →
    ∀ isV4, (∃ tbl, s.sas.saIn = some tbl ∧ Holds tbl.sad isV4 i)
      ↔ ∃ r ∈ aclRules t0 isV4 true, r.userdata = e.spi

/-- What a socket has to find: SPIs in the rules, as the file gives them; inbound SAs
    that `sa_add_rules` enters, each of them; and for a transport SA a search that does
    not miss the rules with its SPI. -/
structure Ready (lib : SadLib) (t0 t : Tables) (env : SocketEnv) : Prop where
  spis : ∀ isV4 inbound, aclRules t isV4 inbound = aclRules t0 isV4 inbound
  admitted : DirectionAdmitted lib env.plat t true
  found : ∀ e ∈ t.saIn, withoutTransportVersion e.flags = transport →
    ∀ isV4, (∃ r ∈ aclRules t isV4 true, r.userdata = e.spi) → selects t e isV4 = true

/-- A condition on the arrays before each socket of a run. -/
def AllMet (lib : SadLib) (Met : Tables → SocketEnv → Prop) : List SocketEnv → Tables → Prop
  | [], _ => True
  | env :: envs, t => Met t env
      ∧ ∀ r, initSocket lib env t = .ok r → AllMet lib Met envs r.1

theorem forall₂_getElem? {α β : Type} {R : α → β → Prop} {l : List α} {l' : List β}
    (h : List.Forall₂ R l l') {i : Nat} {a : α} (ha : l[i]? = some a) :
    ∃ b, l'[i]? = some b ∧ R a b := by
  induction h generalizing i with
  | nil => cases ha
  | cons hR _ ih =>
      cases i with
      | zero =>
          cases ha
          exact ⟨_, rfl, hR⟩
      | succ i => exact ih ha

/-- **RULES** of a socket. -/
theorem SocketDone.rule {env : SocketEnv} {t' : Tables} {s : Socket lib}
    (h : SocketDone lib env t t' s) {isV4 inbound : Bool} {i : Nat} {r : AclRules}
    (hr : (aclRules t isV4 inbound)[i]? = some r) (hd : r.userdata ≠ SaModel.discard)
    (hb : r.userdata ≠ bypass) :
    ∃ db r' k tbl, s.sp isV4 inbound = some db ∧ db.rules[i]? = some r'
      ∧ r'.userdata = UInt32.ofNat (k + 1)
      ∧ s.sas.sas inbound = some tbl ∧ k < tbl.nbSa ∧ (tbl.sa k).sa.spi = r.userdata := by
  obtain ⟨hrules, hmade⟩ := h.loaded isV4 inbound
  obtain ⟨r', hr', hindexed⟩ := forall₂_getElem? hrules hr
  have hnb := nbSa_eq h.sas inbound
  cases hindexed with
  | action hact =>
      rcases hact with hact | hact
      · exact absurd hact hd
      · exact absurd hact hb
  | sa k hk hspi =>
      cases hsp : s.sp isV4 inbound with
      | none =>
          rw [hsp] at hmade
          cases hmade with
          | none hnil =>
              rw [hnil] at hr'
              cases hr'
      | some db =>
          rw [hsp] at hmade
          cases hmade
          cases hsas : s.sas.sas inbound with
          | none =>
              rw [hsas] at hnb
              rw [← hnb] at hk
              exact absurd hk (Nat.not_lt_zero k)
          | some tbl =>
              rw [hsas] at hnb hspi
              rw [← hnb] at hk
              exact ⟨_, _, k, tbl, rfl, hr', rfl, rfl, hk, hspi⟩

/-- **SAD** of a socket whose SAs are all entered. -/
theorem SocketDone.sad {env : SocketEnv} {t' : Tables} {s : Socket lib}
    (h : SocketDone lib env t t' s) (hadm : DirectionAdmitted lib env.plat t true)
    {i : Nat} {e : IpsecSa} (he : t.saIn[i]? = some e) (isV4 : Bool) :
    (∃ tbl, s.sas.saIn = some tbl ∧ Holds tbl.sad isV4 i) ↔ selects t e isV4 = true := by
  rcases saInitDirection_ok (saInit_ok h.sas true) with
    ⟨hnil, -⟩ | ⟨tbl, rc, st, htbl, hs, hr⟩
  · have hnil : t.saIn = [] := hnil
    rw [hnil] at he
    cases he
  · obtain ⟨st', hs'⟩ := (fresh_rules_iff htbl).mpr (hadm tbl htbl)
    cases hs'.symm.trans hs
    have hr : s.sas.saIn = some st.tbl := hr
    obtain ⟨hholds, -, hanswers⟩ :=
      saAddRules_sad (s := { tbl }) (freshTable_free htbl) hs isV4
    constructor
    · rintro ⟨tbl', htbl', hp⟩
      obtain rfl := Option.some.inj (hr.symm.trans htbl')
      rcases hholds i hp with hp | ⟨k, e', hk, heq, hsel⟩
      · exact absurd hp (freshTable_holds htbl isV4 i)
      · have heq : i = k := heq.trans (Nat.zero_add k)
        rw [heq] at he
        have hk : t.saIn[k]? = some e' := hk
        rw [Option.some.inj (he.symm.trans hk)]
        exact hsel
    · intro hsel
      have ha := hanswers i e he hsel
      rw [Nat.zero_add] at ha
      exact ⟨st.tbl, hr, _, ha⟩

/-- **ONE SOCKET** that is ready is bound. -/
theorem SocketDone.bound {t0 t' : Tables} {env : SocketEnv} {s : Socket lib}
    (h : SocketDone lib env t t' s) (hready : Ready lib t0 t env)
    (hsas : t.saIn = t0.saIn) : Bound t0 s := by
  constructor
  · intro isV4 inbound i r hr hd hb
    rw [← hready.spis] at hr
    exact h.rule hr hd hb
  · intro i e he hmode isV4
    rw [← hsas] at he
    rw [h.sad hready.admitted he isV4, ← hready.spis]
    constructor
    · intro hsel
      refine (selected_of_selects hsel).elim (fun htunnel => ?_) fun hrule => ?_
      · rw [hmode] at htunnel
        cases isV4 with
        | true => exact absurd htunnel (by decide)
        | false => exact absurd htunnel (by decide)
      · cases isV4 with
        | true => exact hrule.2
        | false => exact hrule.2
    · exact hready.found e (List.mem_of_getElem? he) hmode isV4

/-- **EVERY SOCKET** of a run is bound, when each is ready. -/
theorem sockets_bound (lib : SadLib) (envs : List SocketEnv) (t0 : Tables)
    (r : Tables × List (Socket lib)) (h : initSockets lib envs t0 = .ok r)
    (hready : AllMet lib (Ready lib t0) envs t0) : ∀ s ∈ r.2, Bound t0 s := by
  have hrun : ∀ (envs : List SocketEnv) (t : Tables) (r : Tables × List (Socket lib)),
      initSockets lib envs t = .ok r → AllMet lib (Ready lib t0) envs t →
      t.saIn = t0.saIn → ∀ s ∈ r.2, Bound t0 s := by
    intro envs
    induction envs with
    | nil =>
        intro t r h _ _ s hs
        cases h
        cases hs
    | cons env envs ih =>
        intro t r h hmet hsas s hs
        rw [initSockets] at h
        obtain ⟨r1, hsocket, h⟩ := bind_ok h
        obtain ⟨r2, hrest, h⟩ := bind_ok h
        cases h
        have hdone := initSocket_ok hsocket
        rcases List.mem_cons.mp hs with rfl | hs
        · exact hdone.bound hmet.1 hsas
        · exact ih r1.1 r2 hrest (hmet.2 r1 hsocket) ((hdone.entries true).trans hsas) s hs
  exact hrun envs t0 r h hready rfl

/-! ## Two sockets -/

/-- A transport SA. -/
def transportSa (spi : UInt32) (direction : Direction) : IpsecSa :=
  { spi, flags := transport, cipherAlgo := .aesCbc, authAlgo := .sha1Hmac, direction }

/-- The index of the only inbound SA, plus one, is its SPI. -/
def spiOne : Tables :=
  { saIn := [transportSa 1 .ingress], acl4RulesIn := [{ userdata := 1 }] }

theorem spiOne_ready : Ready spiLib spiOne spiOne plainSocket where
  spis := fun _ _ => rfl
  admitted := by
    intro tbl htbl
    cases htbl
    exact ⟨rfl, ⟨fun h => absurd h (by decide), by decide, .inr (by decide),
      fun h => absurd h (by decide)⟩, trivial⟩
  found := by
    intro e he _ isV4 hrule
    obtain rfl := List.mem_singleton.mp he
    cases isV4 with
    | true => decide
    | false =>
        obtain ⟨_, hr, _⟩ := hrule
        cases hr

/-- The same outbound, for both families; there is no SAD, whose name is the same on
    every socket. -/
def spiOneOut : Tables where
  saOut := [transportSa 1 .egress, transportSa 2 .egress]
  acl4RulesOut := [{ userdata := 2 }]
  acl6RulesOut := [{ userdata := 1 }]

theorem spiOneOut_ready : Ready spiLib spiOneOut spiOneOut plainSocket where
  spis := fun _ _ => rfl
  admitted := by
    intro tbl htbl
    cases htbl
    exact trivial
  found := fun _ he => absurd he List.not_mem_nil

/-- An inbound SA on one socket, outbound SAs on two. -/
theorem sockets_bound_two :
    (∃ r, initSockets spiLib [plainSocket] spiOne = .ok r ∧ r.2.length = 1
        ∧ ∀ s ∈ r.2, Bound spiOne s)
      ∧ ∃ r, initSockets spiLib [plainSocket, plainSocket] spiOneOut = .ok r
        ∧ r.2.length = 2 ∧ ∀ s ∈ r.2, Bound spiOneOut s := by
  refine ⟨⟨_, rfl, rfl, sockets_bound spiLib [plainSocket] spiOne _ rfl
    ⟨spiOne_ready, fun _ _ => trivial⟩⟩, _, rfl, rfl,
    sockets_bound spiLib [plainSocket, plainSocket] spiOneOut _ rfl
      ⟨spiOneOut_ready, fun r hr => ?_⟩⟩
  have htables : r.1 = spiOneOut := by
    obtain rfl := Except.ok.inj hr
    rfl
  rw [htables]
  exact ⟨spiOneOut_ready, fun _ _ => trivial⟩

/-- The index of the second SA, plus one, is the SPI of the first. -/
def spiTwo : Tables where
  saOut := [transportSa 2 .egress, transportSa 5 .egress]
  acl4RulesOut := [{ userdata := 5 }]

/-- **NOT SO**: on the second socket the rule for SPI 5 has the SA with SPI 2. -/
theorem second_socket_misbound :
    ∃ r s, initSockets spiLib [plainSocket, plainSocket] spiTwo = .ok r ∧ s ∈ r.2
      ∧ ¬ Bound spiTwo s := by
  refine ⟨_, _, rfl, List.mem_cons_of_mem _ List.mem_cons_self, fun h => ?_⟩
  obtain ⟨db, r', k, tbl, hdb, hr', hk, htbl, hlt, hspi⟩ :=
    h.rule true false 0 { userdata := 5 } rfl (by decide) (by decide)
  cases hdb
  cases htbl
  cases hr'
  have hcases : k = 0 ∨ k = 1 := Nat.le_one_iff_eq_zero_or_eq_one.mp (Nat.le_of_lt_succ hlt)
  rcases hcases with rfl | rfl
  · exact absurd (show (2 : UInt32) = 5 from hspi) (by decide)
  · exact absurd (show (1 : UInt32) = 2 from hk) (by decide)

end SpInit
