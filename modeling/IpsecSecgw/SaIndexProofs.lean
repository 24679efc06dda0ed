import IpsecSecgw.LcoreCountProofs
import IpsecSecgw.SpInitProofs

/-! # Indices of SAs

    `outbound_sa_lookup` and `inbound_sa_check` do not compare the index with the number
    of SAs.  An index from the result of an ACL is one that `check_spi_value` has found
    on this socket; the index of `--single-sa` is whatever the option says. -/

namespace SpInit

open SaModel MbufModel SadModel SpiSearch SaInit WorkerModel IpsecModel SecgwModel Sweep
open OutboundPolicy (secured mem_secured keptFrom_outbound)
open ParserModel (bind_ok)

variable {lib : SadLib} {t t' : Tables}

/-- The index is that of a SA, in a context that is there. -/
def InRange (sas : Option (SaTable lib)) (k : UInt32) : Prop :=
  ∃ tbl, sas = some tbl ∧ k.toNat < tbl.nbSa

theorem inRange_iff {sas : Option (SaTable lib)} {k : UInt32} :
    InRange sas k ↔ k.toNat < (sas.map SaTable.nbSa).getD 0 := by
  cases sas with
  | none =>
      refine iff_of_false ?_ (Nat.not_lt_zero _)
      rintro ⟨_, h, -⟩
      cases h
  | some tbl =>
      constructor
      · rintro ⟨_, h, hk⟩
        cases h
        exact hk
      · intro hk
        exact ⟨tbl, rfl, hk⟩

/-! ## Results of a context -/

theorem forall₂_mem_right {α β : Type} {R : α → β → Prop} {l : List α} {l' : List β}
    (h : List.Forall₂ R l l') {b : β} (hb : b ∈ l') : ∃ a, R a b := by
  induction h with
  | nil => cases hb
  | cons hR _ ih =>
      rcases List.mem_cons.mp hb with rfl | hb
      · exact ⟨_, hR⟩
      · exact ih hb

/-- The index a rule carries is that of a SA. -/
theorem Indexed.inRange {n : Nat} {sas : Option (SaTable lib)} {r r' : AclRules}
    (h : Indexed n sas r r') (hd : r'.userdata ≠ SaModel.discard)
    (hb : r'.userdata ≠ bypass) : (r'.userdata - 1).toNat < n := by
  cases h with
  | action h =>
      rcases h with h | h
      · exact absurd h hd
      · exact absurd h hb
  | sa k hk =>
      have hsub : UInt32.ofNat (k + 1) - 1 = UInt32.ofNat k := by
        rw [UInt32.ofNat_add]
        exact UInt32.add_sub_cancel _ _
      show (UInt32.ofNat (k + 1) - 1).toNat < n
      rw [hsub, UInt32.toNat_ofNat']
      exact Nat.lt_of_le_of_lt (Nat.mod_le _ _) hk

/-- **RESULTS**: what a context of the socket answers is an action, or the index of a SA
    of the direction. -/
theorem Loaded.inRange {s : Socket lib} {isV4 inbound : Bool}
    (h : Loaded t t' s isV4 inbound)
    (hnb : ((s.sas.sas inbound).map SaTable.nbSa).getD 0 = (saEntries t inbound).length)
    {acl : SpCtx} (hacl : (s.sp isV4 inbound).map SpDb.acl = some acl)
    {buf : Nat → UInt8} {a : Nat} (hd : acl buf a ≠ SaModel.discard)
    (hb : acl buf a ≠ bypass) : InRange (s.sas.sas inbound) (acl buf a - 1) := by
  obtain ⟨hrules, hmade⟩ := h
  rw [inRange_iff, hnb]
  cases hsp : s.sp isV4 inbound with
  | none =>
      rw [hsp] at hacl
      cases hacl
  | some db =>
      rw [hsp] at hacl hmade
      cases hacl
      cases hmade with
      | some hanswer =>
          dsimp only at hd hb ⊢
          rcases hanswer buf a with hzero | ⟨r', hr', heq⟩
          · exact absurd hzero hd
          · obtain ⟨r, hindexed⟩ := forall₂_mem_right hrules hr'
            rw [← heq] at hd hb ⊢
            exact hindexed.inRange hd hb

/-! ## Lookups -/

/-- What `outbound_sa_lookup` is called with on a burst: the indices of the policies, or
    the one of the option for all packets. -/
def lookedUp (cfg : LcoreConf) (t : Burst) (stats : DirStats) (w : World) :
    List (PktId × UInt32) :=
  if cfg.singleSa then (t.trf.ip4 ++ t.trf.ip6).map (·, cfg.singleSaIdx)
  else (outboundPolicies cfg.outCtx t.trf stats (w.freePkts t.ipsec)).2.1

theorem mem_outboundSpdLookup {sp : Option SpCtx} {off : Nat} {pkts : List PktId}
    {ipsec : List (PktId × UInt32)} {stats : SpdStats} {w : World} {x : PktId × UInt32}
    (h : x ∈ (outboundSpdLookup sp off pkts ipsec stats w).2.1) :
    x ∈ ipsec ∨ ∃ acl, sp = some acl ∧ x ∈ secured acl off w pkts := by
  unfold outboundSpdLookup at h
  split at h
  · exact .inl h
  · rename_i acl
    dsimp only at h
    rw [sweep_eq, keptFrom_outbound] at h
    rcases List.mem_append.mp h with h | h
    · exact .inl h
    · exact .inr ⟨acl, rfl, h⟩

/-- Every lookup of a lcore hits a SA of its socket: those of `outbound_sa_lookup`, and
    those of `inbound_sa_check` with the index of a policy. -/
structure IndicesInRange (s : Socket lib) (cfg : LcoreConf) : Prop where
  outbound : ∀ t stats w, ∀ x ∈ lookedUp cfg t stats w, InRange s.sas.saOut x.2
  inbound : ∀ acl, cfg.inCtx.sp4Ctx = some acl ∨ cfg.inCtx.sp6Ctx = some acl →
    ∀ w off p, aclResult acl w off p ≠ bypass → aclResult acl w off p ≠ SaModel.discard →
      InRange s.sas.saIn (aclResult acl w off p - 1)

/-- The sockets of a run have each been initialised, over the SAs of the file. -/
theorem initSockets_done {envs : List SocketEnv} {r : Tables × List (Socket lib)}
    (h : initSockets lib envs t = .ok r) {s : Socket lib} (hs : s ∈ r.2) :
    ∃ env t1 t2, SocketDone lib env t1 t2 s ∧ ∀ b, saEntries t1 b = saEntries t b := by
  induction envs generalizing t r with
  | nil =>
      cases h
      cases hs
  | cons env envs ih =>
      rw [initSockets] at h
      obtain ⟨r1, hsocket, h⟩ := bind_ok h
      obtain ⟨r2, hrest, h⟩ := bind_ok h
      cases h
      have hdone := initSocket_ok hsocket
      rcases List.mem_cons.mp hs with rfl | hs
      · exact ⟨env, t, r1.1, hdone, fun _ => rfl⟩
      · obtain ⟨env', t1, t2, hdone', hentries⟩ := ih hrest hs
        exact ⟨env', t1, t2, hdone', fun b => (hentries b).trans (hdone.entries b)⟩

/-- **INDICES** are in range exactly when there is no `--single-sa`, or its index is less
    than the number of outbound SAs. -/
theorem sa_index_iff (lib : SadLib) (envs : List SocketEnv) (t : Tables)
    (r : Tables × List (Socket lib)) (h : initSockets lib envs t = .ok r) (s : Socket lib)
    (hs : s ∈ r.2) (baseIn baseOut : SaPtr) (cfg : LcoreConf) :
    IndicesInRange s (s.conf baseIn baseOut cfg)
      ↔ (cfg.singleSa = true → cfg.singleSaIdx.toNat < t.saOut.length) := by
  obtain ⟨env, t1, t2, hdone, hentries⟩ := initSockets_done h hs
  have hnb : ∀ b, ((s.sas.sas b).map SaTable.nbSa).getD 0 = (saEntries t1 b).length :=
    nbSa_eq hdone.sas
  have hout : ∀ k, InRange s.sas.saOut k ↔ k.toNat < t.saOut.length := by
    intro k
    have hlen : ((s.sas.saOut).map SaTable.nbSa).getD 0 = (saEntries t1 false).length :=
      hnb false
    rw [inRange_iff, hlen, hentries false]
    rfl
  constructor
  · intro hall hsingle
    -- a burst of one packet
    have hmem : (0, cfg.singleSaIdx)
        ∈ lookedUp (s.conf baseIn baseOut cfg) { trf := { ip4 := [0] } } {}
          CryptoQueue.blankWorld := by
      rw [lookedUp, if_pos (show (s.conf baseIn baseOut cfg).singleSa = true from hsingle)]
      exact List.mem_singleton_self _
    exact (hout _).mp (hall.outbound _ _ _ _ hmem)
  · intro hidx
    constructor
    · intro b stats w x hx
      unfold lookedUp at hx
      split at hx
      · rename_i hsingle
        obtain ⟨p, -, rfl⟩ := List.mem_map.mp hx
        exact (hout _).mpr (hidx hsingle)
      · rcases mem_outboundSpdLookup hx with hx | ⟨acl, hacl, hx⟩
        · rcases mem_outboundSpdLookup hx with hx | ⟨acl, hacl, hx⟩
          · cases hx
          · obtain ⟨-, hd, hb, heq⟩ := mem_secured hx
            rw [heq]
            exact (hdone.loaded true false).inRange (hnb false) hacl hd hb
        · obtain ⟨-, hd, hb, heq⟩ := mem_secured hx
          rw [heq]
          exact (hdone.loaded false false).inRange (hnb false) hacl hd hb
    · intro acl hacl w off p hb hd
      rcases hacl with hacl | hacl
      · exact (hdone.loaded true true).inRange (hnb true) hacl hd hb
      · exact (hdone.loaded false true).inRange (hnb true) hacl hd hb

/-! ## One SA -/

/-- A packet gets the first rule. -/
def firstRule (rules : List AclRules) : SpCtx :=
  fun _ _ => (rules.head?.map AclRules.userdata).getD 0

theorem firstRule_result (rules : List AclRules) (b : Nat → UInt8) (a : Nat) :
    firstRule rules b a = 0 ∨ ∃ r ∈ rules, r.userdata = firstRule rules b a := by
  cases rules with
  | nil => exact .inl rfl
  | cons r rules => exact .inr ⟨r, List.mem_cons_self, rfl⟩

/-- A socket where nothing fails. -/
def plainSocket : SocketEnv where
  plat := plainPlatform
  aclInit := fun _ _ rules => some (firstRule rules)
  aclInit_result := by
    rintro _ _ rules acl ⟨⟩
    exact firstRule_result rules
  rtInit := true

/-- An outbound SA, and a rule for it. -/
def oneSa : Tables := { saOut := [tunnelSa 5], acl4RulesOut := [{ userdata := 5 }] }

theorem sa_index_iff_one :
    ∃ r s, initSockets Sad.spiLib [plainSocket] oneSa = .ok r ∧ s ∈ r.2
      ∧ IndicesInRange s (s.conf 0 0 PacketCount.libraryConf) :=
  ⟨_, _, rfl, List.mem_cons_self, (sa_index_iff Sad.spiLib [plainSocket] oneSa _ rfl _
    List.mem_cons_self 0 0 PacketCount.libraryConf).mpr fun _ => Nat.zero_lt_one⟩

/-- **NOT SO**: `--single-sa 1` is taken with one SA. -/
theorem singleSa_behind :
    ∃ cfg r s, singleSaOption PacketCount.libraryConf ['1'] = some cfg
      ∧ initSockets Sad.spiLib [plainSocket] oneSa = .ok r ∧ s ∈ r.2
      ∧ ¬ IndicesInRange s (s.conf 0 0 cfg) := by
  refine ⟨_, _, _, rfl, rfl, List.mem_cons_self, fun h => ?_⟩
  obtain ⟨tbl, htbl, hlt⟩ := h.outbound { trf := { ip4 := [0] } } {} CryptoQueue.blankWorld
    (0, 1) List.mem_cons_self
  cases htbl
  exact absurd hlt (Nat.lt_irrefl 1)

end SpInit
