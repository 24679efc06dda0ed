import IpsecSecgw.SaInitModel
import IpsecSecgw.SadProofs

/-! # All SAs or none

    `sa_add_rules` stops at the first SA it cannot enter, with the tables filled
    up to there, and `sa_init` goes on with them.  What a complete table is
    (`TableComplete`), which SAs are entered (`Admitted`), and that a start-up is
    all or nothing exactly when they all are, or when the program ends for
    another reason. -/

namespace SaInit

open ByteStore SaModel MbufModel SadModel SpiSearch Sad

variable {lib : SadLib} {plat : Platform} {t : Tables}

/-! ## Complete tables -/

/-- The version flag that the SP rules give a transport SA with inline crypto. -/
def versionFlag (t : Tables) (e : IpsecSa) : UInt16 :=
  if withoutTransportVersion e.flags = transport
      ∧ e.primary.type = .inlineCrypto then
    if getSpiProto t e.spi e.direction = ipprotoIpip then ip4Transport
    else ip6Transport
  else 0

/-- A SA is the configured one, but for the sequence number, the addresses and
    the handle of a session on a port, which is there. -/
structure CopyOf (t : Tables) (e sa : IpsecSa) : Prop where
  spi : sa.spi = e.spi
  flags : sa.flags = e.flags ||| versionFlag t e
  keys : sa.cipherKey = e.cipherKey ∧ sa.authKey = e.authKey ∧ sa.salt = e.salt
  fields : sa =
    { e with
      seq := 0
      flags := sa.flags
      src := sa.src
      dst := sa.dst
      primary := sa.primary }
  session : sa.primary.type = e.primary.type
    ∧ (isInline e.primary = true → sa.primary.ses.isSome = true)

/-- A transform by reference. -/
def IpsecXf.get (x : IpsecXf) : XfRef → SymXform
  | .a => x.a
  | .b => x.b

/-- The transforms a reference leads to, at most so many. -/
def IpsecXf.chain (x : IpsecXf) : Nat → Option XfRef → List Xform
  | 0, _ => []
  | _, none => []
  | n + 1, some r => (x.get r).xform :: x.chain n (x.get r).next

/-- The operation of a direction. -/
def opOf (inbound : Bool) : XformOp := if inbound then .unprotect else .protect

/-- The chain of transforms is that of the SA's algorithms and keys. -/
def ChainRight (inbound : Bool) (e : IpsecSa) (xf : IpsecXf)
    (xforms : Option XfRef) : Prop :=
  if isAead e then
    ∃ x : AeadXform, xf.chain 3 xforms = [.aead x]
      ∧ x.algo = e.aeadAlgo ∧ x.key = e.cipherKey ∧ x.op = opOf inbound
      ∧ x.digestLength = e.digestLen
  else
    ∃ (c : CipherXform) (a : AuthXform),
      (c.algo = e.cipherAlgo ∧ c.key = e.cipherKey ∧ c.op = opOf inbound
        ∧ c.ivLength = e.ivLen)
      ∧ (a.algo = e.authAlgo ∧ a.key = e.authKey ∧ a.op = opOf inbound
        ∧ a.digestLength = e.digestLen)
      ∧ xf.chain 3 xforms
        = if e.authAlgo = .aesGmac then [.auth a]
          else if inbound then [.auth a, .cipher c] else [.cipher c, .auth a]

/-- The table of a family answers every key with the SPI by the SA. -/
def FamilyFinds (lib : SadLib) (table : Option lib.Table) (spi : UInt32)
    (p : SaPtr) : Prop :=
  ∃ tbl, table = some tbl
    ∧ ∀ key, key.spi = toBe 4 spi.toNat → lib.lookup tbl key = some p

/-- A tunnel SA is found by its SPI in the SAD of its family. -/
def SadFinds (sad : IpsecSad lib) (e : IpsecSa) (p : SaPtr) : Prop :=
  ∀ isV4, withoutTransportVersion e.flags
      = (if isV4 = true then ip4Tunnel else ip6Tunnel) →
    FamilyFinds lib (sad.table isV4) e.spi p

/-- A slot holds its SA. -/
structure SlotComplete (t : Tables) (inbound : Bool) (tbl : SaTable lib) (i : Nat)
    (e : IpsecSa) : Prop where
  copy : CopyOf t e (tbl.sa i).sa
  chain : ChainRight inbound e (tbl.xf i) (tbl.sa i).xforms
  found : inbound = true → SadFinds tbl.sad e i

/-- Every configured SA of a direction is in its slot. -/
def TableComplete (t : Tables) (inbound : Bool) (tbl : SaTable lib) : Prop :=
  ∀ i e, (saEntries t inbound)[i]? = some e → SlotComplete t inbound tbl i e

/-! ## One SA -/

/-- The slot of a SA with its transforms, of which an outbound GMAC uses the
    second. -/
def xformSlot (inbound : Bool) (sa : IpsecSa) : SaSlot :=
  ⟨sa, some (if !isAead sa && sa.authAlgo == .aesGmac && !inbound then .b else .a)⟩

/-- The slot of an entry when its session is made. -/
def readySlot (t : Tables) (inbound : Bool) (e : IpsecSa) : SaSlot :=
  xformSlot inbound (setAddresses t { e with seq := 0 }).2

/-- What `sa_add_rules` asks of a SA, apart from the SAD. -/
structure EntryOk (plat : Platform) (t : Tables) (inbound : Bool) (i : Nat)
    (e : IpsecSa) : Prop where
  port : isInline e.primary = true →
    checkEthDevCaps plat e.portid inbound e.mss = 0
  addresses : 0 ≤ (setAddresses t { e with seq := 0 }).1
  algorithm : isAead e = true ∨ e.cipherAlgo ≠ .unset
  session : isInline e.primary = true →
    ∃ slot, createInlineSession plat inbound i (readySlot t inbound e) = .ok (0, slot)

/-- What the SAD answers to an entry, and is behind it. -/
def sadBehind (lib : SadLib) (t : Tables) (inbound : Bool) (i : Nat) (e : IpsecSa)
    (sad : IpsecSad lib) : Int × IpsecSad lib :=
  if inbound then ipsecSadAdd lib t (fun _ => e) sad i else (0, sad)

/-- The SAs from entry `i` on are all entered. -/
def Admitted (lib : SadLib) (plat : Platform) (t : Tables) (inbound : Bool) :
    Nat → List IpsecSa → IpsecSad lib → Prop
  | _, [], _ => True
  | i, e :: entries, sad =>
      (sadBehind lib t inbound i e sad).1 = 0 ∧ EntryOk plat t inbound i e
        ∧ Admitted lib plat t inbound (i + 1) entries (sadBehind lib t inbound i e sad).2

/-! ### Addresses -/

/-- What the addresses are for stays out of the rest of the SA. -/
theorem setAddresses_fields (sa : IpsecSa) :
    (setAddresses t sa).2 =
      { sa with
        flags := (setAddresses t sa).2.flags
        src := (setAddresses t sa).2.src
        dst := (setAddresses t sa).2.dst } := by
  rw [setAddresses]
  by_cases h4 : withoutTransportVersion sa.flags = ip4Tunnel
  · rw [if_pos h4]
  · rw [if_neg h4]
    by_cases hin : withoutTransportVersion sa.flags = transport
        ∧ sa.primary.type = .inlineCrypto
    · rw [if_pos hin, saAddAddressInlineCrypto]
      dsimp only
      split_ifs <;> rfl
    · rw [if_neg hin]

/-- The flags behind it, when it succeeds. -/
theorem setAddresses_flags {sa : IpsecSa} (h : 0 ≤ (setAddresses t sa).1) :
    (setAddresses t sa).2.flags = sa.flags ||| versionFlag t sa := by
  rw [setAddresses] at h ⊢
  rw [versionFlag]
  by_cases h4 : withoutTransportVersion sa.flags = ip4Tunnel
  · have hne : ¬ (withoutTransportVersion sa.flags = transport
        ∧ sa.primary.type = .inlineCrypto) := by
      rintro ⟨htr, -⟩
      rw [h4] at htr
      exact absurd htr (by decide)
    rw [if_pos h4, if_neg hne]
    exact UInt16.or_zero.symm
  · rw [if_neg h4] at h ⊢
    by_cases hin : withoutTransportVersion sa.flags = transport
        ∧ sa.primary.type = .inlineCrypto
    · rw [if_pos hin] at h ⊢
      rw [if_pos hin]
      rw [saAddAddressInlineCrypto] at h ⊢
      dsimp only at h ⊢
      by_cases hneg : getSpiProto t sa.spi sa.direction < 0
      · rw [if_pos hneg] at h
        exact absurd h (Int.not_le.mpr hneg)
      · rw [if_neg hneg]
        by_cases hip : getSpiProto t sa.spi sa.direction = ipprotoIpip
        · rw [if_pos hip, if_pos hip]
          split_ifs <;> rfl
        · rw [if_neg hip, if_neg hip]
          split_ifs <;> rfl
    · rw [if_neg hin, if_neg hin]
      exact UInt16.or_zero.symm

/-! ### Sessions -/

/-- A session for inline crypto leaves its handle, and the rest of the slot
    alone. -/
theorem createInlineCrypto_ok {inbound : Bool} {i : Nat} {s s' : SaSlot}
    (h : createInlineCrypto plat inbound i s = .ok (0, s')) :
    ∃ ses fl, s' = s.setSession ses fl := by
  rw [createInlineCrypto] at h
  by_cases hctx : (!plat.ethDevGetSecCtx s.sa.portid) = true
  · rw [if_pos hctx] at h
    cases h
  rw [if_neg hctx] at h
  cases hses : plat.securitySessionCreate inbound i s with
  | none =>
      rw [hses] at h
      cases h
  | some ses =>
      rw [hses] at h
      dsimp only at h
      cases hcaps : plat.securityCapabilitiesGet s.sa.portid with
      | none =>
          rw [hcaps] at h
          cases h
      | some caps =>
          rw [hcaps] at h
          dsimp only at h
          cases hcap : findCapability caps s.sa.primary.type (some .tunnel)
              s.sa.direction with
          | none =>
              rw [hcap] at h
              cases h
          | some cap =>
              rw [hcap] at h
              dsimp only at h
              refine ⟨ses, cap.olFlags, ?_⟩
              by_cases hdir : (s.setSession ses cap.olFlags).sa.direction = .ingress
              · rw [if_pos hdir] at h
                exact (congrArg Prod.snd (Except.ok.inj h)).symm
              · rw [if_neg hdir] at h
                exact (congrArg Prod.snd (Except.ok.inj h)).symm

/-- The same for inline protocol. -/
theorem createInlineProtocol_ok {inbound : Bool} {i : Nat} {s s' : SaSlot}
    (h : createInlineProtocol plat inbound i s = .ok (0, s')) :
    ∃ ses fl, s' = s.setSession ses fl := by
  rw [createInlineProtocol] at h
  by_cases hctx : (!plat.ethDevGetSecCtx s.sa.portid) = true
  · rw [if_pos hctx] at h
    cases h
  rw [if_neg hctx] at h
  cases hses : plat.securitySessionCreate inbound i s with
  | none =>
      rw [hses] at h
      cases h
  | some ses =>
      rw [hses] at h
      dsimp only at h
      cases hcap : (plat.securityCapabilitiesGet s.sa.portid).bind fun caps =>
          findCapability caps s.sa.primary.type (sessionMode s.sa.flags)
            s.sa.direction with
      | none =>
          rw [hcap] at h
          cases h
      | some cap =>
          rw [hcap] at h
          exact ⟨ses, cap.olFlags, (congrArg Prod.snd (Except.ok.inj h)).symm⟩

theorem createInlineSession_ok {inbound : Bool} {i : Nat} {s s' : SaSlot}
    (hin : isInline s.sa.primary = true)
    (h : createInlineSession plat inbound i s = .ok (0, s')) :
    ∃ ses fl, s' = s.setSession ses fl := by
  rw [createInlineSession] at h
  cases htype : s.sa.primary.type with
  | none | lookasideProtocol | cpuCrypto =>
      rw [isInline, htype] at hin
      cases hin
  | inlineCrypto =>
      rw [htype] at h
      exact createInlineCrypto_ok h
  | inlineProtocol =>
      rw [htype] at h
      exact createInlineProtocol_ok h

/-! ### The SAD -/

/-- A family that takes a SA finds it from then on, and all it has found. -/
theorem addFamily_finds {table : Option lib.Table} {key : SadKey} {spi : UInt32}
    {p : SaPtr} (hkey : key.spi = toBe 4 spi.toNat)
    (h : (addFamily lib table key p).1 = 0) :
    FamilyFinds lib (addFamily lib table key p).2 spi p
      ∧ ∀ spi' q, FamilyFinds lib table spi' q →
        FamilyFinds lib (addFamily lib table key p).2 spi' q := by
  cases table with
  | none => exact absurd h (show einval ≠ 0 by decide)
  | some tbl =>
      rw [addFamily] at h ⊢
      by_cases hsome : (lib.lookup tbl key).isSome = true
      · rw [if_pos hsome] at h
        exact absurd h (show eexist ≠ 0 by decide)
      · rw [if_neg hsome] at h ⊢
        have hnone : lib.lookup tbl key = none :=
          Option.not_isSome_iff_eq_none.mp hsome
        have hadd := lib.lookup_add tbl key p h hnone
        constructor
        · refine ⟨_, rfl, fun k hk => ?_⟩
          rw [hadd, if_pos (hk.trans hkey.symm)]
        · rintro spi' q ⟨_, htbl, hfinds⟩
          cases htbl
          refine ⟨_, rfl, fun k hk => ?_⟩
          -- another rule with this SPI would have been found
          have hne : k.spi ≠ key.spi := by
            intro heq
            have hq := hfinds key (heq.symm.trans hk)
            rw [hnone] at hq
            cases hq
          rw [hadd, if_neg hne]
          exact hfinds k hk

/-- A family asked only under a condition finds all it has found. -/
theorem ruledAdd_finds {c : Prop} [Decidable c] {table : Option lib.Table}
    {key : SadKey} {spi : UInt32} {p : SaPtr} (hkey : key.spi = toBe 4 spi.toNat)
    (h : (if c then addFamily lib table key p else (0, table)).1 = 0)
    (spi' : UInt32) (q : SaPtr) (hf : FamilyFinds lib table spi' q) :
    FamilyFinds lib (if c then addFamily lib table key p else (0, table)).2 spi' q := by
  by_cases hc : c
  · rw [if_pos hc] at h ⊢
    exact (addFamily_finds hkey h).2 spi' q hf
  · rw [if_neg hc]
    exact hf

/-- Families that find all they have found make such a SAD. -/
theorem sadFinds_mono {sad sad' : IpsecSad lib}
    (h4 : ∀ spi q, FamilyFinds lib sad.sadV4 spi q → FamilyFinds lib sad'.sadV4 spi q)
    (h6 : ∀ spi q, FamilyFinds lib sad.sadV6 spi q → FamilyFinds lib sad'.sadV6 spi q)
    (e : IpsecSa) (q : SaPtr) (h : SadFinds sad e q) : SadFinds sad' e q := by
  intro isV4 hmode
  have hfinds := h isV4 hmode
  cases isV4 with
  | true => exact h4 _ _ hfinds
  | false => exact h6 _ _ hfinds

/-- Entering a SA reads no other. -/
theorem ipsecSadAdd_congr {mem : SaPtr → IpsecSa} {e : IpsecSa} {p : SaPtr}
    (sad : IpsecSad lib) (h : mem p = e) :
    ipsecSadAdd lib t mem sad p = ipsecSadAdd lib t (fun _ => e) sad p := by
  rw [ipsecSadAdd, ipsecSadAdd, h]

/-- **SAD**: a SA that is entered is found, and those before it still are. -/
theorem ipsecSadAdd_finds {mem : SaPtr → IpsecSa} {sad : IpsecSad lib} {p : SaPtr}
    (h : (ipsecSadAdd lib t mem sad p).1 = 0) :
    SadFinds (ipsecSadAdd lib t mem sad p).2 (mem p) p
      ∧ ∀ e q, SadFinds sad e q → SadFinds (ipsecSadAdd lib t mem sad p).2 e q := by
  have hkeep4 : ∀ spi q, FamilyFinds lib sad.sadV4 spi q →
      FamilyFinds lib sad.sadV4 spi q := fun _ _ hf => hf
  have hkeep6 : ∀ spi q, FamilyFinds lib sad.sadV6 spi q →
      FamilyFinds lib sad.sadV6 spi q := fun _ _ hf => hf
  rw [ipsecSadAdd] at h ⊢
  dsimp only at h ⊢
  by_cases hm4 : withoutTransportVersion (mem p).flags = ip4Tunnel
  · rw [if_pos hm4] at h ⊢
    obtain ⟨hfinds, hold⟩ := addFamily_finds rfl h
    refine ⟨fun isV4 hmode => ?_, sadFinds_mono hold hkeep6⟩
    cases isV4 with
    | true => exact hfinds
    | false => exact absurd (hm4.symm.trans hmode) (by decide)
  rw [if_neg hm4] at h ⊢
  by_cases hm6 : withoutTransportVersion (mem p).flags = ip6Tunnel
  · rw [if_pos hm6] at h ⊢
    obtain ⟨hfinds, hold⟩ := addFamily_finds rfl h
    refine ⟨fun isV4 hmode => ?_, sadFinds_mono hkeep4 hold⟩
    cases isV4 with
    | true => exact absurd (hm6.symm.trans hmode) (by decide)
    | false => exact hfinds
  rw [if_neg hm6] at h ⊢
  -- only tunnel SAs are claimed to be found
  have hother : ∀ sad' : IpsecSad lib, SadFinds sad' (mem p) p := by
    intro sad' isV4 hmode
    cases isV4 with
    | true => exact absurd hmode hm4
    | false => exact absurd hmode hm6
  refine ⟨hother _, ?_⟩
  by_cases htr : withoutTransportVersion (mem p).flags = transport
  · rw [if_pos htr] at h ⊢
    obtain ⟨r4, hr4⟩ : ∃ r4, r4 = if 0 ≤ sp4SpiPresent t (mem p).spi true then
        addFamily lib sad.sadV4
          ⟨toBe 4 (mem p).spi.toNat, List.replicate 4 0, List.replicate 4 0⟩ p
      else (0, sad.sadV4) := ⟨_, rfl⟩
    have hmono : r4.1 = 0 → ∀ spi q, FamilyFinds lib sad.sadV4 spi q →
        FamilyFinds lib r4.2 spi q := by
      rw [hr4]
      exact ruledAdd_finds rfl
    rw [← hr4] at h ⊢
    by_cases hrefused : r4.1 ≠ 0
    · rw [if_pos hrefused] at h
      exact absurd h hrefused
    · rw [if_neg hrefused] at h ⊢
      have hold4 := hmono (not_not.mp hrefused)
      by_cases h6 : 0 ≤ sp6SpiPresent t (mem p).spi true
      · rw [if_pos h6] at h ⊢
        exact sadFinds_mono hold4 (addFamily_finds rfl h).2
      · rw [if_neg h6]
        exact sadFinds_mono hold4 hkeep6
  · rw [if_neg htr]
    exact fun _ _ hf => hf

/-! ### Transforms -/

theorem aeadXforms_chain {inbound : Bool} {xf : IpsecXf} {sa : IpsecSa}
    (h : isAead sa = true) :
    ChainRight inbound sa (aeadXforms plat inbound xf sa).1
      (some (aeadXforms plat inbound xf sa).2) := by
  rw [ChainRight, if_pos h]
  exact ⟨_, rfl, rfl, rfl, rfl, rfl⟩

theorem cipherXforms_chain {inbound : Bool} {iv : UInt16} {sa : IpsecSa}
    (h : ¬ isAead sa = true) :
    ChainRight inbound sa (cipherXforms inbound iv sa).1
      (some (cipherXforms inbound iv sa).2) := by
  rw [ChainRight, if_neg h, cipherXforms]
  refine ⟨⟨sa.cipherAlgo, sa.cipherKey, opOf inbound, sa.ivLen⟩,
    ⟨sa.authAlgo, sa.authKey, sa.digestLen, opOf inbound, iv⟩,
    ⟨rfl, rfl, rfl, rfl⟩, ⟨rfl, rfl, rfl, rfl⟩, ?_⟩
  by_cases hg : sa.authAlgo = .aesGmac
  · rw [if_pos hg, if_pos hg]
    cases inbound <;> rfl
  · rw [if_neg hg, if_neg hg]
    cases inbound <;> rfl

/-- Which transform a SA begins with. -/
theorem cipherXforms_ref {inbound : Bool} {iv : UInt16} {sa : IpsecSa}
    (h : ¬ isAead sa = true) :
    (cipherXforms inbound iv sa).2
      = if !isAead sa && sa.authAlgo == .aesGmac && !inbound then .b else .a := by
  rw [cipherXforms, Bool.eq_false_iff.mpr h]
  by_cases hg : sa.authAlgo = .aesGmac
  · rw [if_pos hg, hg]
    cases inbound <;> rfl
  · rw [if_neg hg, beq_eq_false_iff_ne.mpr hg]
    cases inbound <;> rfl

/-! ### A round of the loop -/

/-- The slot has got its session, where it needs one. -/
def SessionSet (slot slot' : SaSlot) : Prop :=
  isInline slot.sa.primary = false ∧ slot' = slot
    ∨ ∃ ses fl, slot' = slot.setSession ses fl

/-- `create_inline_session` gives the slot a session, where it needs one. -/
def SessionMade (plat : Platform) (inbound : Bool) (i : Nat) (slot : SaSlot) : Prop :=
  isInline slot.sa.primary = true →
    ∃ slot', createInlineSession plat inbound i slot = .ok (0, slot')

theorem addSession_ok {inbound : Bool} {i : Nat} {slot : SaSlot}
    {s s' : RuleState lib} (h : addSession plat inbound i slot s = .ok (0, s')) :
    SessionMade plat inbound i slot
      ∧ ∃ slot', SessionSet slot slot' ∧ s' = s.setSa i slot' := by
  rw [addSession] at h
  by_cases hin : isInline slot.sa.primary = true
  · rw [if_pos hin] at h
    cases hc : createInlineSession plat inbound i slot with
    | error x =>
        rw [hc] at h
        cases h
    | ok r =>
        obtain ⟨rc, slot'⟩ := r
        rw [hc] at h
        have hp := Prod.mk.inj (Except.ok.inj h)
        by_cases hrc : rc ≠ 0
        · rw [if_pos hrc] at hp
          exact absurd hp.1 (by decide)
        · obtain rfl := not_not.mp hrc
          exact ⟨fun _ => ⟨slot', hc⟩, slot',
            .inr (createInlineSession_ok hin hc), hp.2.symm⟩
  · rw [if_neg hin] at h
    have hp := Prod.mk.inj (Except.ok.inj h)
    exact ⟨fun hin' => absurd hin' hin, slot,
      .inl ⟨Bool.eq_false_iff.mpr hin, rfl⟩, hp.2.symm⟩

theorem addSession_of_made {inbound : Bool} {i : Nat} {slot : SaSlot}
    (s : RuleState lib) (h : SessionMade plat inbound i slot) :
    ∃ s', addSession plat inbound i slot s = .ok (0, s') := by
  rw [addSession]
  by_cases hin : isInline slot.sa.primary = true
  · rw [if_pos hin]
    obtain ⟨slot', hc⟩ := h hin
    rw [hc]
    exact ⟨_, rfl⟩
  · rw [if_neg hin]
    exact ⟨_, rfl⟩

/-- The slot and the transforms of an entry have been written. -/
def Written (inbound : Bool) (i : Nat) (sa : IpsecSa) (tbl tbl' : SaTable lib) :
    Prop :=
  ∃ slot' xf, SessionSet ⟨sa, slot'.xforms⟩ slot' ∧ ChainRight inbound sa xf slot'.xforms
    ∧ tbl' =
      { tbl with
        sa := Function.update tbl.sa i slot'
        xf := Function.update tbl.xf i xf }

theorem SessionSet.xforms {slot slot' : SaSlot} (h : SessionSet slot slot') :
    slot'.xforms = slot.xforms := by
  rcases h with ⟨-, rfl⟩ | ⟨ses, fl, rfl⟩
  · rfl
  · rfl

/-- A round succeeds behind the addresses when the algorithm is known and the
    session is made, and has then written slot and transforms. -/
theorem addXforms_ok {inbound : Bool} {i : Nat} {sa : IpsecSa}
    {s s' : RuleState lib} (h : addXforms plat inbound i sa s = .ok (0, s')) :
    (isAead sa = true ∨ sa.cipherAlgo ≠ .unset)
      ∧ SessionMade plat inbound i (xformSlot inbound sa)
      ∧ Written inbound i sa s.tbl s'.tbl := by
  rw [addXforms] at h
  by_cases ha : isAead sa = true
  · rw [if_pos ha] at h
    have hslot : (⟨sa, some (aeadXforms plat inbound (s.tbl.xf i) sa).2⟩ : SaSlot)
        = xformSlot inbound sa := by
      rw [xformSlot, ha]
      rfl
    obtain ⟨hmade, slot', hset, rfl⟩ := addSession_ok h
    rw [hslot] at hmade
    have hx := hset.xforms
    refine ⟨.inl ha, hmade, slot', (aeadXforms plat inbound (s.tbl.xf i) sa).1, ?_, ?_, rfl⟩
    · rw [hx]
      exact hset
    · rw [hx]
      exact aeadXforms_chain ha
  · rw [if_neg ha] at h
    by_cases hc : sa.cipherAlgo = .unset
    · rw [if_pos hc] at h
      exact absurd (congrArg Prod.fst (Except.ok.inj h)) (show einval ≠ 0 by decide)
    · rw [if_neg hc] at h
      obtain ⟨s1, hs1, htbl⟩ : ∃ s1 : RuleState lib,
          s1 = (if sa.authAlgo = .aesGmac then { s with authIvLength := 12 } else s)
            ∧ s1.tbl = s.tbl := by
        refine ⟨_, rfl, ?_⟩
        split_ifs <;> rfl
      rw [← hs1] at h
      have hslot : (⟨sa, some (cipherXforms inbound s1.authIvLength sa).2⟩ : SaSlot)
          = xformSlot inbound sa := by
        rw [xformSlot, cipherXforms_ref ha]
      obtain ⟨hmade, slot', hset, rfl⟩ := addSession_ok h
      rw [hslot] at hmade
      have hx := hset.xforms
      refine ⟨.inr hc, hmade, slot', (cipherXforms inbound s1.authIvLength sa).1, ?_, ?_, ?_⟩
      · rw [hx]
        exact hset
      · rw [hx]
        exact cipherXforms_chain ha
      · rw [← htbl]
        rfl

theorem addXforms_of_made {inbound : Bool} {i : Nat} {sa : IpsecSa}
    (s : RuleState lib) (halg : isAead sa = true ∨ sa.cipherAlgo ≠ .unset)
    (hmade : SessionMade plat inbound i (xformSlot inbound sa)) :
    ∃ s', addXforms plat inbound i sa s = .ok (0, s') := by
  rw [addXforms]
  by_cases ha : isAead sa = true
  · rw [if_pos ha]
    have hslot : (⟨sa, some (aeadXforms plat inbound (s.tbl.xf i) sa).2⟩ : SaSlot)
        = xformSlot inbound sa := by
      rw [xformSlot, ha]
      rfl
    dsimp only
    rw [hslot]
    exact addSession_of_made _ hmade
  · rw [if_neg ha, if_neg (halg.resolve_left ha)]
    dsimp only
    rw [cipherXforms_ref ha]
    exact addSession_of_made _ hmade

/-- Such a slot is a copy of its entry. -/
theorem copyOf_of_sessionSet {e : IpsecSa} {x : Option XfRef} {slot : SaSlot}
    (hadd : 0 ≤ (setAddresses t { e with seq := 0 }).1)
    (h : SessionSet ⟨(setAddresses t { e with seq := 0 }).2, x⟩ slot) :
    CopyOf t e slot.sa := by
  have hfields := setAddresses_fields (t := t) { e with seq := 0 }
  have hflags := setAddresses_flags hadd
  generalize (setAddresses t { e with seq := 0 }).2 = sa at h hfields hflags
  have hprimary : sa.primary = e.primary := by rw [hfields]
  have hrest : sa = { e with
      seq := 0, flags := sa.flags, src := sa.src, dst := sa.dst, primary := sa.primary } := by
    rw [hprimary]
    exact hfields
  have htype : sa.primary.type = e.primary.type := by rw [hprimary]
  have hspi : sa.spi = e.spi := by rw [hfields]
  have hkeys : sa.cipherKey = e.cipherKey ∧ sa.authKey = e.authKey ∧ sa.salt = e.salt := by
    rw [hfields]
    exact ⟨rfl, rfl, rfl⟩
  rcases h with ⟨hin, rfl⟩ | ⟨ses, fl, rfl⟩
  · refine ⟨hspi, hflags, hkeys, hrest, htype, fun hin' => ?_⟩
    rw [← hprimary] at hin'
    exact absurd (hin.symm.trans hin') (by decide)
  · refine ⟨hspi, hflags, hkeys, ?_, htype, fun _ => rfl⟩
    exact congrArg (fun x : IpsecSa =>
      { x with primary := { sa.primary with ses := some ses, olFlags := fl } }) hrest

/-- The primary session type of an entry lives through the addresses. -/
theorem setAddresses_primary (e : IpsecSa) :
    (setAddresses t { e with seq := 0 }).2.primary = e.primary := by
  rw [setAddresses_fields]

/-- What a round has written: the entry's slot, and nothing else. -/
structure RoundDone (t : Tables) (inbound : Bool) (i : Nat) (e : IpsecSa)
    (sad : IpsecSad lib) (tbl tbl' : SaTable lib) : Prop where
  others : ∀ j, j ≠ i → tbl'.sa j = tbl.sa j ∧ tbl'.xf j = tbl.xf j
  copy : CopyOf t e (tbl'.sa i).sa
  chain : ChainRight inbound e (tbl'.xf i) (tbl'.sa i).xforms
  sad : tbl'.sad = sad
  nbSa : tbl'.nbSa = tbl.nbSa

theorem addBody_ok {inbound : Bool} {i : Nat} {e : IpsecSa} {s s' : RuleState lib}
    (h : addBody plat t inbound i e s = .ok (0, s')) :
    EntryOk plat t inbound i e ∧ RoundDone t inbound i e s.tbl.sad s.tbl s'.tbl := by
  have hprimary := setAddresses_primary (t := t) e
  rw [addBody] at h
  dsimp only at h
  by_cases hport : isInline e.primary
      ∧ checkEthDevCaps plat e.portid inbound e.mss ≠ 0
  · rw [if_pos hport] at h
    exact absurd (congrArg Prod.fst (Except.ok.inj h)) (show einval ≠ 0 by decide)
  rw [if_neg hport] at h
  by_cases hadd : (setAddresses t { e with seq := 0 }).1 < 0
  · rw [if_pos hadd] at h
    have hrc : (setAddresses t { e with seq := 0 }).1 = 0 :=
      congrArg Prod.fst (Except.ok.inj h)
    exact absurd (hrc ▸ hadd) (Int.lt_irrefl 0)
  rw [if_neg hadd] at h
  have hadd' := Int.not_lt.mp hadd
  obtain ⟨halg, hmade, slot, xf, hset, hchain, htbl⟩ := addXforms_ok h
  refine ⟨⟨fun hin => ?_, hadd', ?_, fun hin => hmade ?_⟩, ?_⟩
  · by_contra hcaps
    exact hport ⟨hin, hcaps⟩
  · rw [setAddresses_fields] at halg
    exact halg
  · rw [xformSlot, hprimary]
    exact hin
  · rw [setAddresses_fields] at hchain
    rw [htbl]
    refine ⟨fun j hj => ?_, ?_, ?_, rfl, rfl⟩
    · exact ⟨(Function.update_of_ne hj _ _).trans (Function.update_of_ne hj _ _),
        Function.update_of_ne hj _ _⟩
    · dsimp only
      rw [Function.update_self]
      exact copyOf_of_sessionSet hadd' hset
    · dsimp only
      rw [Function.update_self, Function.update_self]
      exact hchain

theorem addBody_of_ok {inbound : Bool} {i : Nat} {e : IpsecSa} (s : RuleState lib)
    (h : EntryOk plat t inbound i e) :
    ∃ s', addBody plat t inbound i e s = .ok (0, s') := by
  have hprimary := setAddresses_primary (t := t) e
  rw [addBody]
  dsimp only
  rw [if_neg (fun hp => hp.2 (h.port hp.1)), if_neg (Int.not_lt.mpr h.addresses)]
  refine addXforms_of_made _ ?_ ?_
  · rw [setAddresses_fields]
    exact h.algorithm
  · intro hin
    rw [xformSlot, hprimary] at hin
    exact h.session hin

/-- **ONE ROUND**: it succeeds for the SAs that are admitted, and writes their
    slots. -/
theorem saAddRule_ok {inbound : Bool} {i : Nat} {e : IpsecSa} {s s' : RuleState lib}
    (hfree : (s.tbl.sa i).sa.spi = 0)
    (h : saAddRule plat t inbound i e s = .ok (0, s')) :
    (sadBehind lib t inbound i e s.tbl.sad).1 = 0 ∧ EntryOk plat t inbound i e
      ∧ RoundDone t inbound i e (sadBehind lib t inbound i e s.tbl.sad).2 s.tbl s'.tbl := by
  rw [saAddRule, if_neg (not_not.mpr hfree)] at h
  dsimp only at h
  have hslot : (((s.setSa i ⟨e, none⟩).tbl.sa i).sa) = e := by
    show (Function.update s.tbl.sa i ⟨e, none⟩ i).sa = e
    rw [Function.update_self]
  -- the copy into the slot changes no other one
  have hdone : ∀ {sad : IpsecSad lib},
      RoundDone t inbound i e sad ((s.setSa i ⟨e, none⟩).setSad sad).tbl s'.tbl →
      RoundDone t inbound i e sad s.tbl s'.tbl := by
    intro sad hd
    refine ⟨fun j hj => ⟨?_, (hd.others j hj).2⟩, hd.copy, hd.chain, hd.sad, hd.nbSa⟩
    exact (hd.others j hj).1.trans (Function.update_of_ne hj _ _)
  cases inbound with
  | true =>
      rw [if_pos rfl, ipsecSadAdd_congr _ hslot] at h
      by_cases hrc : (ipsecSadAdd lib t (fun _ => e) s.tbl.sad i).1 ≠ 0
      · exact absurd (congrArg Prod.fst (Except.ok.inj ((if_pos hrc).symm.trans h))) hrc
      · obtain ⟨hok, hd⟩ := addBody_ok ((if_neg hrc).symm.trans h)
        exact ⟨not_not.mp hrc, hok, hdone hd⟩
  | false =>
      obtain ⟨hok, hd⟩ := addBody_ok h
      exact ⟨rfl, hok, hdone hd⟩

theorem saAddRule_of_admitted {inbound : Bool} {i : Nat} {e : IpsecSa}
    {s : RuleState lib} (hfree : (s.tbl.sa i).sa.spi = 0)
    (hsad : (sadBehind lib t inbound i e s.tbl.sad).1 = 0)
    (hok : EntryOk plat t inbound i e) :
    ∃ s', saAddRule plat t inbound i e s = .ok (0, s') := by
  rw [saAddRule, if_neg (not_not.mpr hfree)]
  dsimp only
  have hslot : (((s.setSa i ⟨e, none⟩).tbl.sa i).sa) = e := by
    show (Function.update s.tbl.sa i ⟨e, none⟩ i).sa = e
    rw [Function.update_self]
  cases inbound with
  | true =>
      rw [if_pos rfl, ipsecSadAdd_congr _ hslot]
      exact ⟨_, (if_neg (not_not.mpr hsad)).trans (addBody_of_ok _ hok).choose_spec⟩
  | false => exact addBody_of_ok _ hok

/-! ## All rounds -/

/-- The slots from `i` on are still zero. -/
def FreeFrom (i : Nat) (tbl : SaTable lib) : Prop :=
  ∀ j, i ≤ j → (tbl.sa j).sa.spi = 0

theorem RoundDone.free {inbound : Bool} {i : Nat} {e : IpsecSa} {sad : IpsecSad lib}
    {tbl tbl' : SaTable lib} (h : RoundDone t inbound i e sad tbl tbl')
    (hfree : FreeFrom i tbl) : FreeFrom (i + 1) tbl' := by
  intro j hj
  rw [(h.others j (by omega)).1]
  exact hfree j (by omega)

theorem saAddRules_step {inbound : Bool} {i : Nat} {e : IpsecSa}
    {entries : List IpsecSa} {s s1 : RuleState lib}
    (hr : saAddRule plat t inbound i e s = .ok (0, s1)) :
    saAddRules plat t inbound i (e :: entries) s
      = saAddRules plat t inbound (i + 1) entries s1 := by
  rw [saAddRules, hr]
  show (if (0 : Int) ≠ 0 then pure (0, s1)
    else saAddRules plat t inbound (i + 1) entries s1) = _
  exact if_neg (not_not.mpr rfl)

/-- A loop ends with its first round, which has failed, or goes on behind it. -/
theorem saAddRules_cases {inbound : Bool} {i : Nat} {e : IpsecSa} {entries : List IpsecSa}
    {s s' : RuleState lib} {rc : Int}
    (h : saAddRules plat t inbound i (e :: entries) s = .ok (rc, s')) :
    (rc ≠ 0 ∧ saAddRule plat t inbound i e s = .ok (rc, s'))
      ∨ ∃ s1, saAddRule plat t inbound i e s = .ok (0, s1)
        ∧ saAddRules plat t inbound (i + 1) entries s1 = .ok (rc, s') := by
  cases hr : saAddRule plat t inbound i e s with
  | error x =>
      rw [saAddRules, hr] at h
      cases h
  | ok r =>
      obtain ⟨rc1, s1⟩ := r
      by_cases hrc : rc1 = 0
      · subst hrc
        rw [saAddRules_step hr] at h
        exact .inr ⟨s1, rfl, h⟩
      · rw [saAddRules, hr] at h
        obtain ⟨rfl, rfl⟩ := Prod.mk.inj (Except.ok.inj ((if_pos hrc).symm.trans h))
        exact .inl ⟨hrc, rfl⟩

/-- A loop that succeeds has begun with a round that does. -/
theorem saAddRules_cons {inbound : Bool} {i : Nat} {e : IpsecSa}
    {entries : List IpsecSa} {s s' : RuleState lib}
    (h : saAddRules plat t inbound i (e :: entries) s = .ok (0, s')) :
    ∃ s1, saAddRule plat t inbound i e s = .ok (0, s1)
      ∧ saAddRules plat t inbound (i + 1) entries s1 = .ok (0, s') :=
  (saAddRules_cases h).resolve_left fun hfail => hfail.1 rfl

/-- **ADMITTED**: `sa_add_rules` succeeds exactly when every SA is admitted. -/
theorem saAddRules_iff {inbound : Bool} {i : Nat} {entries : List IpsecSa}
    {s : RuleState lib} (hfree : FreeFrom i s.tbl) :
    (∃ s', saAddRules plat t inbound i entries s = .ok (0, s'))
      ↔ Admitted lib plat t inbound i entries s.tbl.sad := by
  induction entries generalizing i s with
  | nil => exact ⟨fun _ => trivial, fun _ => ⟨s, rfl⟩⟩
  | cons e entries ih =>
      rw [Admitted]
      constructor
      · rintro ⟨s', h⟩
        obtain ⟨s1, hr, h⟩ := saAddRules_cons h
        obtain ⟨hsad, hok, hd⟩ := saAddRule_ok (hfree i (Nat.le_refl i)) hr
        refine ⟨hsad, hok, ?_⟩
        rw [← hd.sad]
        exact (ih (hd.free hfree)).mp ⟨s', h⟩
      · rintro ⟨hsad, hok, hrest⟩
        obtain ⟨s1, hr⟩ := saAddRule_of_admitted (hfree i (Nat.le_refl i)) hsad hok
        obtain ⟨-, -, hd⟩ := saAddRule_ok (hfree i (Nat.le_refl i)) hr
        rw [← hd.sad] at hrest
        rw [saAddRules_step hr]
        exact (ih (hd.free hfree)).mpr hrest

/-- **ALL SLOTS**: what has been entered stays, and every entry gets in. -/
theorem saAddRules_complete {inbound : Bool} {i : Nat} {entries : List IpsecSa}
    {s s' : RuleState lib} (hfree : FreeFrom i s.tbl)
    (h : saAddRules plat t inbound i entries s = .ok (0, s')) :
    (∀ j e, j < i → SlotComplete t inbound s.tbl j e → SlotComplete t inbound s'.tbl j e)
      ∧ (∀ k e, entries[k]? = some e → SlotComplete t inbound s'.tbl (i + k) e) := by
  induction entries generalizing i s with
  | nil =>
      cases h
      refine ⟨fun _ _ _ hc => hc, fun k e hk => ?_⟩
      cases hk
  | cons e entries ih =>
      obtain ⟨s1, hr, h⟩ := saAddRules_cons h
      obtain ⟨hsad, -, hd⟩ := saAddRule_ok (hfree i (Nat.le_refl i)) hr
      obtain ⟨hold, hnew⟩ := ih (hd.free hfree) h
      -- the SAD finds the new SA and those before it
      have hfinds : inbound = true → SadFinds s1.tbl.sad e i
          ∧ ∀ e' q, SadFinds s.tbl.sad e' q → SadFinds s1.tbl.sad e' q := by
        rintro rfl
        have hadd : (ipsecSadAdd lib t (fun _ => e) s.tbl.sad i).1 = 0 := hsad
        rw [hd.sad]
        exact ipsecSadAdd_finds hadd
      constructor
      · intro j e' hj hc
        obtain ⟨hsa, hxf⟩ := hd.others j (Nat.ne_of_lt hj)
        refine hold j e' (Nat.lt_succ_of_lt hj) ⟨?_, ?_, fun hin => ?_⟩
        · rw [hsa]
          exact hc.copy
        · rw [hsa, hxf]
          exact hc.chain
        · exact (hfinds hin).2 e' j (hc.found hin)
      · intro k e' hk
        cases k with
        | zero =>
            obtain rfl := Option.some.inj hk
            exact hold i e (Nat.lt_succ_self i)
              ⟨hd.copy, hd.chain, fun hin => (hfinds hin).1⟩
        | succ k =>
            have hc := hnew k e' hk
            rw [Nat.add_assoc, Nat.add_comm 1 k] at hc
            exact hc

/-! ## The library's SAs -/

theorem fillIpsecSession_ok {inbound : Bool} {i : Nat} {ss : RteIpsecSession}
    (h : (fillIpsecSession plat inbound i ss).1 = 0) :
    (fillIpsecSession plat inbound i ss).2 = ss := by
  rw [fillIpsecSession] at h ⊢
  by_cases hc : isInline ss = true ∧ ss.ses.isSome = true
  · rw [if_pos hc] at h ⊢
    exact if_neg (not_not.mpr h)
  · rw [if_neg hc]

theorem ipsecSaInit_ok {inbound : Bool} {i : Nat} {lsa : SaSlot}
    (h : (ipsecSaInit plat t inbound i lsa).1 = 0) :
    (ipsecSaInit plat t inbound i lsa).2 = lsa := by
  rw [ipsecSaInit] at h ⊢
  cases hprm : fillIpsecSaPrm t lsa with
  | error rc => rfl
  | ok prm =>
      rw [hprm] at h
      dsimp only at h ⊢
      by_cases hneg : plat.ipsecSaInit inbound i prm < 0
      · rw [if_pos hneg]
      rw [if_neg hneg] at h ⊢
      by_cases hp : (fillIpsecSession plat inbound i lsa.sa.primary).1 ≠ 0
      · rw [if_pos hp] at h
        exact absurd h hp
      rw [if_neg hp] at h ⊢
      rw [fillIpsecSession_ok (not_not.mp hp)] at h ⊢
      by_cases hf : lsa.sa.fallbackSessions = 1
      · rw [if_pos hf] at h ⊢
        dsimp only at h ⊢
        rw [fillIpsecSession_ok h]
      · rw [if_neg hf]

theorem satblLoop_ok {inbound : Bool} {i n : Nat} {tbl : SaTable lib}
    (h : (satblLoop plat t inbound i n tbl).1 = 0) :
    (satblLoop plat t inbound i n tbl).2 = tbl := by
  induction n generalizing i tbl with
  | zero => rfl
  | succ n ih =>
      rw [satblLoop] at h ⊢
      by_cases hrc : (ipsecSaInit plat t inbound i (tbl.sa i)).1 ≠ 0
      · rw [if_pos hrc] at h
        exact absurd h hrc
      · have hslot := ipsecSaInit_ok (not_not.mp hrc)
        rw [if_neg hrc, hslot, Function.update_eq_self] at h
        rw [if_neg hrc, hslot, Function.update_eq_self]
        exact ih h

/-- `ipsec_satbl_init` leaves the table as it was, when it succeeds. -/
theorem ipsecSatblInit_ok {inbound : Bool} {tbl : SaTable lib}
    (h : (ipsecSatblInit plat t inbound tbl).1 = 0) :
    (ipsecSatblInit plat t inbound tbl).2 = tbl := by
  rw [ipsecSatblInit] at h ⊢
  by_cases hsz : plat.ipsecSaSize (fillIpsecSaPrm t (tbl.sa 0)).toOption < 0
  · rw [if_pos hsz]
  rw [if_neg hsz] at h ⊢
  by_cases hmem : (!plat.satblZmalloc inbound) = true
  · rw [if_pos hmem]
  · rw [if_neg hmem] at h ⊢
    exact satblLoop_ok h

/-! ## Start-up -/

/-- `sa_add_rules` fails for a direction. -/
def RulesFail (lib : SadLib) (plat : Platform) (t : Tables) (inbound : Bool) : Prop :=
  ∃ tbl : SaTable lib, freshTable lib plat t inbound = some tbl
    ∧ ∃ rc s, saAddRules plat t inbound 0 (saEntries t inbound) { tbl } = .ok (rc, s)
      ∧ rc ≠ 0

/-- **ALL OR NOTHING**: a start-up that comes back has complete tables, and one
    with a SA that cannot be entered does not come back. -/
structure AllOrNothing (lib : SadLib) (plat : Platform) (t : Tables)
    (out : Except Stop (SocketCtx lib)) : Prop where
  complete : ∀ ctx, out = .ok ctx → ∀ inbound, saEntries t inbound ≠ [] →
    ∃ tbl, ctx.sas inbound = some tbl ∧ TableComplete t inbound tbl
  stops : (∃ inbound, saEntries t inbound ≠ [] ∧ RulesFail lib plat t inbound) →
    ∃ x, out = .error x

/-- The program ends in a direction whatever `sa_add_rules` returns: there is no
    memory or no SAD, a null pointer is followed, or the library refuses a SA of
    the table that is left. -/
def DirectionEnds (lib : SadLib) (plat : Platform) (t : Tables) (inbound : Bool) :
    Prop :=
  saEntries t inbound ≠ []
    ∧ (freshTable lib plat t inbound = none
      ∨ ∃ tbl : SaTable lib, freshTable lib plat t inbound = some tbl
        ∧ ((∃ x, saAddRules plat t inbound 0 (saEntries t inbound) { tbl } = .error x)
          ∨ plat.enable = true
            ∧ ∃ rc s, saAddRules plat t inbound 0 (saEntries t inbound) { tbl }
                = .ok (rc, s)
              ∧ (ipsecSatblInit plat t inbound s.tbl).1 ≠ 0))

/-- The context cannot be used. -/
def CtxUnusable (ctx : Option (SocketCtx lib)) : Prop :=
  ∀ c, ctx = some c → c.saIn.isSome = true ∨ c.saOut.isSome = true

/-- Every SA of a direction is entered. -/
def DirectionAdmitted (lib : SadLib) (plat : Platform) (t : Tables) (inbound : Bool) :
    Prop :=
  ∀ tbl : SaTable lib, freshTable lib plat t inbound = some tbl →
    Admitted lib plat t inbound 0 (saEntries t inbound) tbl.sad

theorem saInitDirection_ends {inbound : Bool} (h : DirectionEnds lib plat t inbound) :
    ∃ x, saInitDirection lib plat t inbound = .error x := by
  obtain ⟨hne, hends⟩ := h
  rw [saInitDirection]
  dsimp only
  rw [if_neg hne]
  rcases hends with hnone | ⟨tbl, htbl, ⟨x, hx⟩ | ⟨hen, rc, s, hs, hrc⟩⟩
  · rw [hnone]
    exact ⟨_, rfl⟩
  · rw [htbl]
    dsimp only
    rw [hx]
    exact ⟨x, rfl⟩
  · rw [htbl]
    dsimp only
    rw [hs]
    refine ⟨.exit, ?_⟩
    show (if plat.enable then
      if (ipsecSatblInit plat t inbound s.tbl).1 ≠ 0 then Except.error Stop.exit
      else pure (some (ipsecSatblInit plat t inbound s.tbl).2)
      else pure (some s.tbl)) = _
    rw [if_pos hen, if_pos hrc]

/-- One that does not end has the table `sa_add_rules` has left. -/
theorem saInitDirection_goes_on {inbound : Bool} (hne : saEntries t inbound ≠ [])
    (h : ¬ DirectionEnds lib plat t inbound) :
    ∃ (tbl : SaTable lib) (rc : Int) (s : RuleState lib),
      freshTable lib plat t inbound = some tbl
        ∧ saAddRules plat t inbound 0 (saEntries t inbound) { tbl } = .ok (rc, s)
        ∧ saInitDirection lib plat t inbound = .ok (some s.tbl) := by
  cases htbl : freshTable lib plat t inbound with
  | none => exact absurd ⟨hne, .inl htbl⟩ h
  | some tbl =>
      cases hs : saAddRules plat t inbound 0 (saEntries t inbound) { tbl } with
      | error x => exact absurd ⟨hne, .inr ⟨tbl, htbl, .inl ⟨x, hs⟩⟩⟩ h
      | ok r =>
          obtain ⟨rc, s⟩ := r
          refine ⟨tbl, rc, s, rfl, hs, ?_⟩
          rw [saInitDirection]
          dsimp only
          rw [if_neg hne, htbl]
          dsimp only
          rw [hs]
          show (if plat.enable then
            if (ipsecSatblInit plat t inbound s.tbl).1 ≠ 0 then Except.error Stop.exit
            else pure (some (ipsecSatblInit plat t inbound s.tbl).2)
            else pure (some s.tbl)) = _
          by_cases hen : plat.enable = true
          · rw [if_pos hen]
            by_cases hrc : (ipsecSatblInit plat t inbound s.tbl).1 ≠ 0
            · exact absurd ⟨hne, .inr ⟨tbl, htbl, .inr ⟨hen, rc, s, hs, hrc⟩⟩⟩ h
            · rw [if_neg hrc, ipsecSatblInit_ok (not_not.mp hrc)]
              rfl
          · rw [if_neg hen]
            rfl

theorem freshTable_free {inbound : Bool} {tbl : SaTable lib}
    (h : freshTable lib plat t inbound = some tbl) : FreeFrom 0 tbl := by
  rw [freshTable] at h
  dsimp only at h
  by_cases hmem : (!plat.saCreate inbound) = true
  · rw [if_pos hmem] at h
    cases h
  rw [if_neg hmem] at h
  cases inbound with
  | true =>
      rw [if_pos rfl, Option.map_eq_some_iff] at h
      obtain ⟨sad, -, rfl⟩ := h
      exact fun _ _ => rfl
  | false =>
      obtain rfl := Option.some.inj h
      exact fun _ _ => rfl

/-- A direction is admitted when `sa_add_rules` succeeds on its fresh table. -/
theorem fresh_rules_iff {inbound : Bool} {tbl : SaTable lib}
    (h : freshTable lib plat t inbound = some tbl) :
    (∃ s, saAddRules plat t inbound 0 (saEntries t inbound) { tbl } = .ok (0, s))
      ↔ Admitted lib plat t inbound 0 (saEntries t inbound) tbl.sad := by
  have hfree : FreeFrom 0 ({ tbl } : RuleState lib).tbl := freshTable_free h
  exact saAddRules_iff hfree

/-- The program ends when the context cannot be used, or a direction ends it. -/
theorem saInit_ends {ctx : Option (SocketCtx lib)}
    (h : CtxUnusable ctx ∨ ∃ inbound, DirectionEnds lib plat t inbound) :
    ∃ x, saInit lib plat t ctx = .error x := by
  cases ctx with
  | none => exact ⟨_, rfl⟩
  | some c =>
      rw [saInit]
      by_cases hin : c.saIn.isSome = true
      · rw [if_pos hin]
        exact ⟨_, rfl⟩
      by_cases hout : c.saOut.isSome = true
      · rw [if_neg hin, if_pos hout]
        exact ⟨_, rfl⟩
      rw [if_neg hin, if_neg hout]
      rcases h with hc | ⟨inbound, hends⟩
      · exact absurd (hc c rfl) (not_or.mpr ⟨hin, hout⟩)
      · obtain ⟨x, hx⟩ := saInitDirection_ends hends
        cases inbound with
        | true =>
            rw [hx]
            exact ⟨x, rfl⟩
        | false =>
            cases hfirst : saInitDirection lib plat t true with
            | error y => exact ⟨y, rfl⟩
            | ok _ =>
                rw [hx]
                exact ⟨x, rfl⟩

/-- Otherwise it comes back with the tables that have been left. -/
theorem saInit_goes_on {ctx : Option (SocketCtx lib)} (hctx : ¬ CtxUnusable ctx)
    (hends : ∀ inbound, ¬ DirectionEnds lib plat t inbound) :
    ∃ ctx', saInit lib plat t ctx = .ok ctx'
      ∧ ∀ inbound, saEntries t inbound ≠ [] →
        ∃ (tbl : SaTable lib) (rc : Int) (s : RuleState lib),
          freshTable lib plat t inbound = some tbl
            ∧ saAddRules plat t inbound 0 (saEntries t inbound) { tbl } = .ok (rc, s)
            ∧ ctx'.sas inbound = some s.tbl := by
  have hdir : ∀ inbound, ∃ r, saInitDirection lib plat t inbound = .ok r
      ∧ (saEntries t inbound ≠ [] →
        ∃ (tbl : SaTable lib) (rc : Int) (s : RuleState lib),
          freshTable lib plat t inbound = some tbl
            ∧ saAddRules plat t inbound 0 (saEntries t inbound) { tbl } = .ok (rc, s)
            ∧ r = some s.tbl) := by
    intro inbound
    by_cases hne : saEntries t inbound = []
    · exact ⟨none, if_pos hne, fun h => absurd hne h⟩
    · obtain ⟨tbl, rc, s, htbl, hs, hr⟩ := saInitDirection_goes_on hne (hends inbound)
      exact ⟨some s.tbl, hr, fun _ => ⟨tbl, rc, s, htbl, hs, rfl⟩⟩
  obtain ⟨rin, hin, hinTbl⟩ := hdir true
  obtain ⟨rout, hout, houtTbl⟩ := hdir false
  rw [CtxUnusable, not_forall] at hctx
  obtain ⟨c, hc⟩ := hctx
  rw [Classical.not_imp, not_or] at hc
  obtain ⟨rfl, hsin, hsout⟩ := hc
  refine ⟨⟨rin, rout⟩, ?_, fun inbound => ?_⟩
  · rw [saInit, if_neg hsin, if_neg hsout, hin, hout]
    rfl
  · cases inbound with
    | true => exact hinTbl
    | false => exact houtTbl

/-- **START-UP** is all or nothing exactly when every SA is entered, or the
    program ends for another reason. -/
theorem saInit_allOrNothing_iff (lib : SadLib) (plat : Platform) (t : Tables)
    (ctx : Option (SocketCtx lib)) :
    AllOrNothing lib plat t (saInit lib plat t ctx)
      ↔ CtxUnusable ctx ∨ (∃ inbound, DirectionEnds lib plat t inbound)
        ∨ ∀ inbound, DirectionAdmitted lib plat t inbound := by
  by_cases hend : CtxUnusable ctx ∨ ∃ inbound, DirectionEnds lib plat t inbound
  · obtain ⟨x, hx⟩ := saInit_ends hend
    rw [← or_assoc, hx]
    refine ⟨fun _ => .inl hend, fun _ => ⟨fun ctx' h => ?_, fun _ => ⟨x, rfl⟩⟩⟩
    cases h
  obtain ⟨hctx, hdirs⟩ := not_or.mp hend
  obtain ⟨ctx', hok, htables⟩ := saInit_goes_on hctx (not_exists.mp hdirs)
  rw [hok]
  constructor
  · rintro ⟨-, hstops⟩
    refine .inr (.inr fun inbound tbl htbl => ?_)
    by_cases hne : saEntries t inbound = []
    · rw [hne]
      trivial
    · obtain ⟨tbl', rc, s, htbl', hs, -⟩ := htables inbound hne
      obtain rfl := Option.some.inj (htbl.symm.trans htbl')
      refine (fresh_rules_iff htbl).mp ⟨s, ?_⟩
      -- a SA that is not entered would have ended the program
      by_cases hrc : rc = 0
      · rw [hs, hrc]
      · obtain ⟨x, hx⟩ := hstops ⟨inbound, hne, tbl, htbl, rc, s, hs, hrc⟩
        cases hx
  · intro h
    have hall := (h.resolve_left hctx).resolve_left hdirs
    have hzero : ∀ inbound (tbl : SaTable lib) rc s,
        freshTable lib plat t inbound = some tbl →
        saAddRules plat t inbound 0 (saEntries t inbound) { tbl } = .ok (rc, s) →
        rc = 0 := by
      intro inbound tbl rc s htbl hs
      obtain ⟨s', hs'⟩ := (fresh_rules_iff htbl).mpr (hall inbound tbl htbl)
      exact congrArg Prod.fst (Except.ok.inj (hs.symm.trans hs'))
    constructor
    · intro ctx'' hctx'' inbound hne
      obtain rfl := Except.ok.inj hctx''
      obtain ⟨tbl, rc, s, htbl, hs, hsas⟩ := htables inbound hne
      obtain rfl := hzero inbound tbl rc s htbl hs
      refine ⟨s.tbl, hsas, fun i e he => ?_⟩
      have hnew := (saAddRules_complete (freshTable_free htbl) hs).2 i e he
      rw [Nat.zero_add] at hnew
      exact hnew
    · rintro ⟨inbound, -, tbl, htbl, rc, s, hs, hrc⟩
      exact absurd (hzero inbound tbl rc s htbl hs) hrc

/-! ## A SPI twice -/

/-- Nothing fails, and `librte_ipsec` is not used. -/
def plainPlatform : Platform where
  enable := false
  enableEsn := false
  saCreate := fun _ => true
  sadCreate := fun _ => none
  ethDevInfoGet := fun _ => (0, ⟨true, true, true⟩)
  ethDevGetSecCtx := fun _ => true
  securitySessionCreate := fun _ i _ => some i
  securityCapabilitiesGet := fun _ => some []
  rxDefFlow := fun _ => false
  rssHashConfGet := fun _ => 0
  flowValidate := fun _ _ _ => 0
  flowCreate := fun _ _ => true
  ipsecSaSize := fun _ => 64
  satblZmalloc := fun _ => true
  ipsecSaInit := fun _ _ _ => 64
  ipsecSessionPrepare := fun _ _ _ => 0

/-- An IPv4 tunnel with AES-CBC and HMAC-SHA1. -/
def tunnelSa (spi : UInt32) : IpsecSa :=
  { spi, flags := ip4Tunnel, cipherAlgo := .aesCbc, authAlgo := .sha1Hmac }

/-- The second of three inbound SAs has the SPI of the first. -/
def twiceSpi : Tables := { saIn := [tunnelSa 5, tunnelSa 5, tunnelSa 6] }

/-- The second SA is refused, and the program goes on with the third slot
    empty. -/
theorem twice_goes_on :
    (saInit spiLib plainPlatform twiceSpi (some {})).toOption.bind
        (fun ctx => ctx.saIn.map fun tbl => (tbl.sa 2).sa.spi) = some 0
      ∧ ¬ AllOrNothing spiLib plainPlatform twiceSpi
          (saInit spiLib plainPlatform twiceSpi (some {})) := by
  refine ⟨rfl, fun h => ?_⟩
  obtain ⟨tbl, htbl, hall⟩ := h.complete _ rfl true (by decide)
  obtain rfl := Option.some.inj htbl
  have hspi : (0 : UInt32) = 6 := (hall 2 (tunnelSa 6) rfl).copy.spi
  exact absurd hspi (by decide)

end SaInit
