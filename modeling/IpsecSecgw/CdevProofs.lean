import Mathlib.Data.List.Nodup
import Mathlib.Data.Nat.Bitwise
import IpsecSecgw.CdevModel

/-! # Crypto queue pairs are handed out once

    `add_cdev_mapping` reports whether it registered anything, and the queue
    pair counter of a device advances on that report.  The invariant
    `QueueInv` ties the two together: what the tables hold of the device being
    mapped lies below the counter, but for one entry of the lcore the running
    call works for.

    The first section is about the direction a port belongs to, which the
    mapping code and the packet loop compute in two ways. -/

namespace Cdev

open SaModel CdevModel

/-! ## The direction of a port -/

/-- The masked bit of a port. -/
theorem toNat_maskedPort (mask : UInt32) {portId : UInt16}
    (hp : portId.toNat < 32) :
    (mask &&& ((1 : UInt32) <<< portId.toUInt32)).toNat
      = (mask.toNat.testBit portId.toNat).toNat * 2 ^ portId.toNat := by
  have hlt : 2 ^ portId.toNat < 2 ^ 32 := Nat.pow_lt_pow_right (by omega) hp
  rw [UInt32.toNat_and, UInt32.toNat_shiftLeft, UInt16.toNat_toUInt32,
    Nat.mod_eq_of_lt hp, Nat.shiftLeft_eq]
  show mask.toNat &&& 1 * 2 ^ portId.toNat % 2 ^ 32 = _
  rw [Nat.one_mul, Nat.mod_eq_of_lt hlt, Nat.and_two_pow]

/-- The mapping code reads the port's bit. -/
theorem mappingDirection_eq (mask : UInt32) {portId : UInt16}
    (hp : portId.toNat < 32) :
    mappingDirection mask portId
      = if mask.toNat.testBit portId.toNat then .ingress else .egress := by
  have hbit := toNat_maskedPort mask hp
  have hpos : 0 < 2 ^ portId.toNat := Nat.pow_pos (by decide)
  rw [mappingDirection]
  cases hb : mask.toNat.testBit portId.toNat with
  | true =>
      rw [hb, Bool.toNat_true, Nat.one_mul] at hbit
      rw [if_neg, if_pos rfl]
      intro h
      rw [h] at hbit
      exact absurd hbit (Nat.ne_of_lt hpos)
  | false =>
      rw [hb, Bool.toNat_false, Nat.zero_mul] at hbit
      rw [if_pos (UInt32.toNat.inj hbit), if_neg (by decide)]

/-- The packet loop reads it for the first eight ports only. -/
theorem isUnprotectedPort_ne_zero (mask : UInt32) {portId : UInt16}
    (hp : portId.toNat < 32) :
    isUnprotectedPort mask portId ≠ 0
      ↔ mask.toNat.testBit portId.toNat = true ∧ portId.toNat < 8 := by
  have hcut : (isUnprotectedPort mask portId).toNat
      = (mask.toNat.testBit portId.toNat).toNat * 2 ^ portId.toNat % 256 := by
    rw [isUnprotectedPort, UInt32.toNat_toUInt8, toNat_maskedPort mask hp]
  have hne : isUnprotectedPort mask portId ≠ 0
      ↔ (isUnprotectedPort mask portId).toNat ≠ 0 :=
    not_congr ⟨fun h => by rw [h]; rfl, fun h => UInt8.toNat.inj h⟩
  rw [hne, hcut]
  cases mask.toNat.testBit portId.toNat with
  | false =>
      rw [Bool.toNat_false, Nat.zero_mul]
      exact ⟨fun h => absurd rfl h, fun h => absurd h.1 (by decide)⟩
  | true =>
      rw [Bool.toNat_true, Nat.one_mul]
      constructor
      · intro h
        refine ⟨rfl, ?_⟩
        by_contra hge
        obtain ⟨k, hk⟩ := Nat.exists_eq_add_of_le (Nat.le_of_not_lt hge)
        rw [hk, Nat.pow_add] at h
        exact h (Nat.mul_mod_right (2 ^ 8) (2 ^ k))
      · rintro ⟨-, h⟩
        have hlt : 2 ^ portId.toNat < 2 ^ 8 := Nat.pow_lt_pow_right (by omega) h
        rw [show 256 = 2 ^ 8 from rfl, Nat.mod_eq_of_lt hlt]
        exact Nat.ne_of_gt (Nat.pow_pos (by decide))

/-- Both ways of the packet loop follow `is_unprotected_port`. -/
theorem round_direction (mask : UInt32) (singleSa : Bool) (portId : UInt16) :
    (processPkts mask singleSa portId).direction
        = drainCryptoQueues mask portId := by
  rw [processPkts, drainCryptoQueues]
  cases singleSa with
  | true =>
      rw [if_pos rfl]
      split
      · rfl
      · rfl
  | false =>
      rw [if_neg (by decide)]
      split
      · rfl
      · rfl

/-! ## One mapping -/

@[simp] theorem insert_tbl (t : QueueTables) (dir : Direction) (key : CdevKey)
    (i : Nat) : (t.insert dir key i).tbl = t.tbl := rfl

@[simp] theorem append_map (t : QueueTables) (lcore : UInt8) (dir : Direction)
    (e : CdevQp) : (t.append lcore dir e).map = t.map := rfl

/-- The table an entry is appended to, and the others. -/
theorem append_tbl (t : QueueTables) (lcore l : UInt8) (dir d : Direction)
    (e : CdevQp) :
    (t.append lcore dir e).tbl l d
      = if l = lcore ∧ d = dir then t.tbl l d ++ [e] else t.tbl l d := by
  by_cases hl : l = lcore
  · subst hl
    by_cases hd : d = dir
    · subst hd
      simp [QueueTables.append]
    · simp [QueueTables.append, hd]
  · simp [QueueTables.append, hl]

/-- The hash after an insertion. -/
theorem insert_map (t : QueueTables) (dir d : Direction) (key k : CdevKey)
    (i : Nat) :
    (t.insert dir key i).map d k
      = if d = dir ∧ k = key then some i else t.map d k := by
  by_cases hd : d = dir
  · subst hd
    by_cases hk : k = key
    · subst hk
      simp [QueueTables.insert]
    · simp [QueueTables.insert, hk]
  · simp [QueueTables.insert, hd]

/-- **WHAT A MAPPING DOES**: nothing, or it enters the key for a device of the
    table, or for one it appends because the table lacks it. -/
theorem addMapping_cases (dir : Direction) (cdevId qp : Nat)
    (params : LcoreParams) (cipher auth aead : Option Capability)
    (t : QueueTables) :
    addMapping dir cdevId qp params cipher auth aead t = (false, t)
      ∨ (∃ i, i < (t.tbl params.lcoreId dir).length
        ∧ addMapping dir cdevId qp params cipher auth aead t
          = (true, t.insert dir (mappingKey params cipher auth aead) i))
      ∨ ((∀ e ∈ t.tbl params.lcoreId dir, e.id ≠ cdevId)
        ∧ (t.tbl params.lcoreId dir).length ≠ maxQpPerLcore
        ∧ addMapping dir cdevId qp params cipher auth aead t
          = (true, (t.append params.lcoreId dir ⟨cdevId, qp⟩).insert dir
            (mappingKey params cipher auth aead)
            (t.tbl params.lcoreId dir).length)) := by
  rw [addMapping]
  dsimp only
  cases t.map dir (mappingKey params cipher auth aead) with
  | some i => exact .inl rfl
  | none =>
      dsimp only
      have hle : (t.tbl params.lcoreId dir).findIdx (fun e => e.id == cdevId)
          ≤ (t.tbl params.lcoreId dir).length := List.findIdx_le_length
      by_cases hnew : (t.tbl params.lcoreId dir).findIdx (fun e => e.id == cdevId)
          = (t.tbl params.lcoreId dir).length
      · rw [if_pos hnew]
        by_cases hfull : (t.tbl params.lcoreId dir).length = maxQpPerLcore
        · rw [if_pos hfull]
          exact .inl rfl
        · rw [if_neg hfull, hnew]
          refine .inr (.inr ⟨?_, hfull, rfl⟩)
          intro e he hid
          have hlt := List.findIdx_lt_length_of_exists
            (p := fun e : CdevQp => e.id == cdevId)
            ⟨e, he, by simpa using hid⟩
          exact Nat.ne_of_lt hlt hnew
      · rw [if_neg hnew]
        exact .inr (.inl ⟨_, Nat.lt_of_le_of_ne hle hnew, rfl⟩)

/-! ## The invariant -/

/-- The tables while queue pair `q` of device `c` is handed out: `cur` is the
    context that already holds it. -/
structure QueueInv (t : QueueTables) (c q : Nat)
    (cur : Option (UInt8 × Direction)) : Prop where
  below : ∀ l d, ∀ e ∈ t.tbl l d, e.id < c
    ∨ e.id = c ∧ (e.qp < q ∨ e.qp = q ∧ cur = some (l, d))
  unshared : ∀ l d l' d', ∀ e ∈ t.tbl l d, e ∈ t.tbl l' d' → (l, d) = (l', d')
  devices : ∀ l d, ((t.tbl l d).map CdevQp.id).Nodup
  mapped : ∀ d key i, t.map d key = some i → i < (t.tbl key.lcoreId d).length
  size : ∀ l d, (t.tbl l d).length ≤ maxQpPerLcore

theorem queueInv_empty (c q : Nat) (cur : Option (UInt8 × Direction)) :
    QueueInv QueueTables.empty c q cur where
  below := by
    intro l d e he
    cases he
  unshared := by
    intro l d l' d' e he
    cases he
  devices := fun _ _ => List.nodup_nil
  mapped := by
    intro d key i h
    cases h
  size := fun _ _ => Nat.zero_le _

/-- Entering a key for a device of the table. -/
theorem QueueInv.insert {t : QueueTables} {c q : Nat}
    {cur : Option (UInt8 × Direction)} (h : QueueInv t c q cur)
    {dir : Direction} {key : CdevKey} {i : Nat}
    (hi : i < (t.tbl key.lcoreId dir).length) :
    QueueInv (t.insert dir key i) c q cur where
  below := h.below
  unshared := h.unshared
  devices := h.devices
  size := h.size
  mapped := by
    intro d k j hj
    rw [insert_map] at hj
    rw [insert_tbl]
    by_cases hk : d = dir ∧ k = key
    · obtain ⟨rfl, rfl⟩ := hk
      rw [if_pos ⟨rfl, rfl⟩] at hj
      rw [← Option.some.inj hj]
      exact hi
    · rw [if_neg hk] at hj
      exact h.mapped d k j hj

/-- Appending the queue pair in hand to the one context that may hold it. -/
theorem QueueInv.append {t : QueueTables} {c q : Nat} {lcore : UInt8}
    {dir : Direction} (h : QueueInv t c q (some (lcore, dir)))
    (hnew : ∀ e ∈ t.tbl lcore dir, e.id ≠ c)
    (hroom : (t.tbl lcore dir).length ≠ maxQpPerLcore) :
    QueueInv (t.append lcore dir ⟨c, q⟩) c q (some (lcore, dir)) := by
  -- an entry of the new tables is an old one or the one just appended
  have hmem : ∀ l d e, e ∈ (t.append lcore dir ⟨c, q⟩).tbl l d →
      e ∈ t.tbl l d ∨ e = ⟨c, q⟩ ∧ l = lcore ∧ d = dir := by
    intro l d e he
    rw [append_tbl] at he
    by_cases hat : l = lcore ∧ d = dir
    · rw [if_pos hat] at he
      rcases List.mem_append.mp he with hold | hlast
      · exact .inl hold
      · exact .inr ⟨List.mem_singleton.mp hlast, hat⟩
    · rw [if_neg hat] at he
      exact .inl he
  -- the pair in hand sits nowhere else
  have hhand : ∀ l d, (⟨c, q⟩ : CdevQp) ∈ t.tbl l d → False := by
    intro l d he
    rcases h.below l d _ he with hlt | ⟨-, hlt | ⟨-, hcur⟩⟩
    · exact Nat.lt_irrefl c hlt
    · exact Nat.lt_irrefl q hlt
    · obtain ⟨rfl, rfl⟩ := Prod.mk.inj (Option.some.inj hcur)
      exact hnew _ he rfl
  refine ⟨?_, ?_, ?_, ?_, ?_⟩
  · intro l d e he
    rcases hmem l d e he with hold | ⟨rfl, rfl, rfl⟩
    · exact h.below l d e hold
    · exact .inr ⟨rfl, .inr ⟨rfl, rfl⟩⟩
  · intro l d l' d' e he he'
    rcases hmem l d e he with hold | ⟨rfl, rfl, rfl⟩
    · rcases hmem l' d' e he' with hold' | ⟨rfl, rfl, rfl⟩
      · exact h.unshared l d l' d' e hold hold'
      · exact (hhand l d hold).elim
    · rcases hmem l' d' _ he' with hold' | ⟨-, rfl, rfl⟩
      · exact (hhand l' d' hold').elim
      · rfl
  · intro l d
    rw [append_tbl]
    by_cases hat : l = lcore ∧ d = dir
    · obtain ⟨rfl, rfl⟩ := hat
      rw [if_pos ⟨rfl, rfl⟩, List.map_append, List.map_singleton,
        ← List.concat_eq_append]
      refine List.Nodup.concat ?_ (h.devices l d)
      intro hc
      obtain ⟨e, he, hid⟩ := List.mem_map.mp hc
      exact hnew e he hid
    · rw [if_neg hat]
      exact h.devices l d
  · intro d key i hi
    have hlt := h.mapped d key i hi
    rw [append_tbl]
    split
    · rw [List.length_append]
      exact Nat.lt_add_right 1 hlt
    · exact hlt
  · intro l d
    have hle := h.size l d
    rw [append_tbl]
    by_cases hat : l = lcore ∧ d = dir
    · obtain ⟨rfl, rfl⟩ := hat
      rw [if_pos ⟨rfl, rfl⟩, List.length_append, List.length_singleton]
      exact Nat.lt_of_le_of_ne hle hroom
    · rw [if_neg hat]
      exact hle

/-! ## One call of `add_cdev_mapping` -/

/-- The invariant inside a call for `(lcore, dir)`: that context may hold the
    queue pair in hand once the call has something to report. -/
def CallInv (c q : Nat) (lcore : UInt8) (dir : Direction)
    (r : Bool × QueueTables) : Prop :=
  QueueInv r.2 c q (if r.1 then some (lcore, dir) else none)

/-- Owning the queue pair in hand is only a permission. -/
theorem QueueInv.allow {t : QueueTables} {c q : Nat} (h : QueueInv t c q none)
    (cur : Option (UInt8 × Direction)) : QueueInv t c q cur where
  below := by
    intro l d e he
    rcases h.below l d e he with hlt | ⟨hid, hlt | ⟨-, hcur⟩⟩
    · exact .inl hlt
    · exact .inr ⟨hid, .inl hlt⟩
    · cases hcur
  unshared := h.unshared
  devices := h.devices
  mapped := h.mapped
  size := h.size

/-- **ONE MAPPING** keeps the invariant of the call. -/
theorem orMapping_inv {c q : Nat} {params : LcoreParams} {dir : Direction}
    {r : Bool × QueueTables} (h : CallInv c q params.lcoreId dir r)
    (cipher auth aead : Option Capability) :
    CallInv c q params.lcoreId dir
      (orMapping r (addMapping dir c q params cipher auth aead)) := by
  have hcur : QueueInv r.2 c q (some (params.lcoreId, dir)) := by
    rw [CallInv] at h
    cases hr : r.1 with
    | true =>
        rw [hr, if_pos rfl] at h
        exact h
    | false =>
        rw [hr, if_neg (by decide)] at h
        exact h.allow _
  rw [CallInv, orMapping]
  rcases addMapping_cases dir c q params cipher auth aead r.2 with
    heq | ⟨i, hi, heq⟩ | ⟨hnew, hroom, heq⟩
  · rw [heq, Bool.or_false]
    exact h
  · rw [heq, Bool.or_true, if_pos rfl]
    exact hcur.insert hi
  · rw [heq, Bool.or_true, if_pos rfl]
    refine (hcur.append hnew hroom).insert ?_
    show _ < (QueueTables.tbl (r.2.append params.lcoreId dir ⟨c, q⟩)
      params.lcoreId dir).length
    rw [append_tbl, if_pos ⟨rfl, rfl⟩, List.length_append]
    exact Nat.lt_succ_self _

/-- **EVERY CALL IS A CHAIN OF MAPPINGS** in the direction of the port. -/
theorem addCdevMapping_rec {motive : Bool × QueueTables → Prop}
    (mask : UInt32) (dev : CryptodevInfo) (c q : Nat) (params : LcoreParams)
    (t : QueueTables) (start : motive (false, t))
    (step : ∀ r cipher auth aead, motive r →
      motive (orMapping r (addMapping (mappingDirection mask params.portId) c q
        params cipher auth aead))) :
    motive (addCdevMapping mask dev c q params t) := by
  rw [addCdevMapping]
  split
  · exact start
  · refine List.foldlRecOn _ _ start ?_
    intro r hr i _
    split
    · exact hr
    split
    · exact step r _ _ _ hr
    split
    · exact hr
    refine List.foldlRecOn _ _ hr ?_
    intro r hr j _
    split
    · exact hr
    split
    · exact hr
    exact step r _ _ _ hr

/-- **A CALL** for device `c` with queue pair `q`: when it reports nothing the
    pair is still free, else it is taken. -/
theorem addCdevMapping_inv {t : QueueTables} {c q : Nat}
    (h : QueueInv t c q none) (mask : UInt32) (dev : CryptodevInfo)
    (params : LcoreParams) :
    QueueInv (addCdevMapping mask dev c q params t).2 c
      (if (addCdevMapping mask dev c q params t).1 then q + 1 else q) none := by
  have hcall : CallInv c q params.lcoreId (mappingDirection mask params.portId)
      (addCdevMapping mask dev c q params t) :=
    addCdevMapping_rec mask dev c q params t h
      fun _ cipher auth aead hr => orMapping_inv hr cipher auth aead
  rw [CallInv] at hcall
  cases hret : (addCdevMapping mask dev c q params t).1 with
  | false =>
      rw [hret, if_neg (by decide)] at hcall
      exact hcall
  | true =>
      rw [hret, if_pos rfl] at hcall
      refine ⟨?_, hcall.unshared, hcall.devices, hcall.mapped, hcall.size⟩
      intro l d e he
      rcases hcall.below l d e he with hlt | ⟨hid, hlt | ⟨heq, -⟩⟩
      · exact .inl hlt
      · exact .inr ⟨hid, .inl (Nat.lt_succ_of_lt hlt)⟩
      · exact .inr ⟨hid, .inl (Nat.lt_succ_of_le (Nat.le_of_eq heq))⟩

/-- What a mapping appends belongs to the device in hand. -/
theorem addMapping_mem {dir d : Direction} {c q : Nat} {params : LcoreParams}
    {cipher auth aead : Option Capability} {t : QueueTables} {l : UInt8}
    {e : CdevQp}
    (he : e ∈ (addMapping dir c q params cipher auth aead t).2.tbl l d) :
    e ∈ t.tbl l d ∨ e.id = c ∧ d = dir := by
  rcases addMapping_cases dir c q params cipher auth aead t with
    heq | ⟨i, -, heq⟩ | ⟨-, -, heq⟩
  · rw [heq] at he
    exact .inl he
  · rw [heq] at he
    exact .inl he
  · rw [heq, insert_tbl, append_tbl] at he
    by_cases hat : l = params.lcoreId ∧ d = dir
    · rw [if_pos hat] at he
      rcases List.mem_append.mp he with hold | hlast
      · exact .inl hold
      · rw [List.mem_singleton.mp hlast]
        exact .inr ⟨rfl, hat.2⟩
    · rw [if_neg hat] at he
      exact .inl he

/-- What a call appends belongs to the device in hand, and to the direction of
    the port. -/
theorem addCdevMapping_mem {mask : UInt32} {dev : CryptodevInfo} {c q : Nat}
    {params : LcoreParams} {t : QueueTables} {l : UInt8} {d : Direction}
    {e : CdevQp} (he : e ∈ (addCdevMapping mask dev c q params t).2.tbl l d) :
    e ∈ t.tbl l d ∨ e.id = c ∧ d = mappingDirection mask params.portId := by
  revert he
  refine addCdevMapping_rec (motive := fun r => e ∈ r.2.tbl l d →
    e ∈ t.tbl l d ∨ e.id = c ∧ d = mappingDirection mask params.portId)
    mask dev c q params t .inl ?_
  intro r cipher auth aead hr he
  rcases addMapping_mem he with hold | hnew
  · exact hr hold
  · exact .inr hnew

/-- A mapping leaves the other direction alone. -/
theorem addMapping_frame {dir d : Direction} (hd : d ≠ dir) (c q : Nat)
    (params : LcoreParams) (cipher auth aead : Option Capability)
    (t : QueueTables) (l : UInt8) :
    (addMapping dir c q params cipher auth aead t).2.tbl l d = t.tbl l d := by
  rcases addMapping_cases dir c q params cipher auth aead t with
    heq | ⟨i, -, heq⟩ | ⟨-, -, heq⟩
  · rw [heq]
  · rw [heq, insert_tbl]
  · rw [heq, insert_tbl, append_tbl, if_neg fun h => hd h.2]

section loop

variable (mask : UInt32) (dev : CryptodevInfo) (c max : Nat)
  (ps : List LcoreParams)

/-- **THE MAPPING LOOP** keeps the invariant, stays within the device's queue
    pairs and leaves the entries of the other devices alone. -/
theorem mapQueuePairs_inv (n idx : Nat) {qp : Nat} {t : QueueTables}
    (h : QueueInv t c qp none) (hle : qp ≤ max) :
    QueueInv (mapQueuePairs mask dev c max ps n qp idx t).2.2 c
        (mapQueuePairs mask dev c max ps n qp idx t).1 none
      ∧ (mapQueuePairs mask dev c max ps n qp idx t).1 ≤ max
      ∧ ∀ l d, ∀ e ∈ (mapQueuePairs mask dev c max ps n qp idx t).2.2.tbl l d,
        e.id ≠ c → e ∈ t.tbl l d := by
  induction n generalizing qp idx t with
  | zero => exact ⟨h, hle, fun _ _ _ he _ => he⟩
  | succ n ih =>
      rw [mapQueuePairs]
      by_cases hlt : qp < max
      · rw [if_pos hlt]
        have hnext : (if (addCdevMapping mask dev c qp (ps.getD idx default) t).1
            then qp + 1 else qp) ≤ max := by
          split
          · exact hlt
          · exact hle
        obtain ⟨hinv, hmax, hold⟩ := ih ((idx + 1) % ps.length)
          (addCdevMapping_inv h mask dev (ps.getD idx default)) hnext
        refine ⟨hinv, hmax, ?_⟩
        intro l d e he hne
        rcases addCdevMapping_mem (hold l d e he hne) with hmem | ⟨hid, -⟩
        · exact hmem
        · exact absurd hid hne
      · rw [if_neg hlt]
        exact ⟨h, hle, fun _ _ _ he _ => he⟩

end loop

/-! ## Where a port's packets meet their queues -/

/-- `add_cdev_mapping` registers crypto queues of direction `d` for this
    entry of `lcore_params`, with some device. -/
def Registers (mask : UInt32) (params : LcoreParams) (d : Direction) : Prop :=
  ∃ dev c q t, (addCdevMapping mask dev c q params t).2.tbl params.lcoreId d
    ≠ t.tbl params.lcoreId d

/-- The direction of the registered queues is that of the port's mask bit. -/
theorem registers_iff (mask : UInt32) (params : LcoreParams) (d : Direction) :
    Registers mask params d ↔ d = mappingDirection mask params.portId := by
  constructor
  · rintro ⟨dev, c, q, t, hchange⟩
    by_contra hd
    refine hchange ?_
    refine addCdevMapping_rec (motive := fun r =>
      r.2.tbl params.lcoreId d = t.tbl params.lcoreId d)
      mask dev c q params t rfl ?_
    intro r cipher auth aead hr
    exact (addMapping_frame hd c q params cipher auth aead r.2 _).trans hr
  · rintro rfl
    refine ⟨⟨[⟨.symmetric, .aead, 1⟩], true, true, 1, 0⟩, 0, 0,
      QueueTables.empty, ?_⟩
    simp [addCdevMapping, orMapping, addMapping, QueueTables.empty, append_tbl,
      maxQpPerLcore]

/-- All components agree on the port: the predicate reads its bit, and every
    lcore handles its packets and drains its crypto queues in the direction
    they are registered for. -/
structure PortAgrees (mask : UInt32) (portId : UInt16) : Prop where
  bit : isUnprotectedPort mask portId ≠ 0
    ↔ mask.toNat.testBit portId.toNat = true
  direction : ∀ singleSa ps conf,
    initLcoreRxQueues (fun _ => []) ps = some conf →
    ∀ e ∈ ps, e.portId = portId → ∀ d, Registers mask e d →
    ∀ r ∈ ipsecPollModeWorker mask singleSa conf e.lcoreId,
      r.portId = portId → r.handler.direction = d ∧ r.drained = d

/-- **WHEN ALL AGREE ON A PORT**: it is one of the first eight, or it is
    protected. -/
theorem portAgrees_iff (mask : UInt32) {portId : UInt16}
    (hp : portId.toNat < 32) :
    PortAgrees mask portId
      ↔ portId.toNat < 8 ∨ mask.toNat.testBit portId.toNat = false := by
  have hread := isUnprotectedPort_ne_zero mask hp
  constructor
  · rintro ⟨hbit, -⟩
    cases hb : mask.toNat.testBit portId.toNat with
    | false => exact .inr rfl
    | true => exact .inl (hread.mp (hbit.mpr hb)).2
  · intro hcond
    have hbit : isUnprotectedPort mask portId ≠ 0
        ↔ mask.toNat.testBit portId.toNat = true := by
      rw [hread]
      refine ⟨fun h => h.1, fun h => ⟨h, hcond.resolve_right ?_⟩⟩
      rw [h]
      decide
    have hsame : drainCryptoQueues mask portId = mappingDirection mask portId := by
      rw [drainCryptoQueues, mappingDirection_eq mask hp]
      by_cases hb : mask.toNat.testBit portId.toNat = true
      · rw [if_pos (hbit.mpr hb), if_pos hb]
      · rw [if_neg (fun h => hb (hbit.mp h)), if_neg hb]
    refine ⟨hbit, ?_⟩
    intro singleSa ps conf _ e _ hport d hd r hr hrport
    obtain ⟨q, -, rfl⟩ := List.mem_map.mp hr
    dsimp only at hrport ⊢
    rw [(registers_iff mask e d).mp hd, round_direction, hport, hrport, hsame]
    exact ⟨rfl, rfl⟩

/-- Port 8 with its bit set: crypto queues are registered for inbound traffic,
    but its packets go the outbound way. -/
theorem port_eight_disagrees :
    let mask : UInt32 := 0x100
    let params : LcoreParams := ⟨8, 0, 1⟩
    isUnprotectedPort mask 8 = 0 ∧ Registers mask params .ingress
      ∧ (∃ conf, initLcoreRxQueues (fun _ => []) [params] = some conf
        ∧ ∃ r ∈ ipsecPollModeWorker mask false conf 1,
          r.portId = 8 ∧ r.handler = .outbound ∧ r.drained = .egress)
      ∧ ¬ PortAgrees mask 8 := by
  intro mask params
  have hzero : isUnprotectedPort mask 8 = 0 := by decide
  refine ⟨hzero, (registers_iff mask params .ingress).mpr (by decide),
    ⟨_, rfl, ⟨8, .outbound, .egress⟩, by decide, rfl, rfl, rfl⟩, ?_⟩
  rintro ⟨hbit, -⟩
  exact hbit.mpr (by decide) hzero

/-- The last port of the predicate's eight bits. -/
theorem portAgrees_iff_seven :
    PortAgrees 0x180 7
      ↔ (7 : UInt16).toNat < 8
        ∨ (0x180 : UInt32).toNat.testBit (7 : UInt16).toNat = false :=
  portAgrees_iff 0x180 (by decide)

/-! ## All devices -/

/-- Between two devices: every queue pair handed out belongs to a device before
    `c`, and lies below the number of pairs that device is configured with. -/
structure InitInv (s : InitState) (c : Nat) : Prop where
  queues : QueueInv s.tables c 0 none
  configured : ∀ l d, ∀ e ∈ s.tables.tbl l d,
    ∃ n, s.nbQueuePairs e.id = some n ∧ e.qp < n

/-- With the device done its counter starts anew for the next one. -/
theorem QueueInv.next {t : QueueTables} {c q : Nat} (h : QueueInv t c q none) :
    QueueInv t (c + 1) 0 none where
  below := by
    intro l d e he
    rcases h.below l d e he with hlt | ⟨hid, -⟩
    · exact .inl (Nat.lt_succ_of_lt hlt)
    · exact .inl (Nat.lt_succ_of_le (Nat.le_of_eq hid))
  unshared := h.unshared
  devices := h.devices
  mapped := h.mapped
  size := h.size

/-- **ONE DEVICE** keeps the invariant. -/
theorem initCdev_inv {conf : CdevConf} {req c : Nat} {ps : List LcoreParams}
    {dev : CryptodevInfo} {s s' : InitState} (h : InitInv s c)
    (hs : initCdev conf req ps c dev s = some s') : InitInv s' (c + 1) := by
  rw [initCdev] at hs
  split at hs
  · rw [← Option.some.inj hs]
    exact ⟨h.queues.next, h.configured⟩
  split at hs
  · cases hs
  obtain ⟨hq, hmax, hold⟩ := mapQueuePairs_inv conf.unprotectedPortMask dev c
    (min ps.length dev.maxNbQueuePairs) ps ps.length s.idx h.queues
    (Nat.zero_le _)
  dsimp only at hs
  generalize mapQueuePairs conf.unprotectedPortMask dev c
    (min ps.length dev.maxNbQueuePairs) ps ps.length 0 s.idx s.tables = r
    at hs hq hmax hold
  -- an entry is an old one of another device, or below the counter
  have hentry : ∀ l d, ∀ e ∈ r.2.2.tbl l d,
      (e.id ≠ c ∧ ∃ n, s.nbQueuePairs e.id = some n ∧ e.qp < n)
        ∨ (e.id = c ∧ e.qp < r.1) := by
    intro l d e he
    rcases hq.below l d e he with hlt | ⟨hid, hlt | ⟨-, hcur⟩⟩
    · have hne : e.id ≠ c := Nat.ne_of_lt hlt
      exact .inl ⟨hne, h.configured l d e (hold l d e he hne)⟩
    · exact .inr ⟨hid, hlt⟩
    · cases hcur
  have hcount : r.1 ≤ min (min ps.length dev.maxNbQueuePairs) (max req r.1) :=
    Nat.le_min.mpr ⟨hmax, Nat.le_max_right _ _⟩
  split at hs
  · rename_i hzero
    rw [← Option.some.inj hs]
    refine ⟨hq.next, ?_⟩
    intro l d e he
    rcases hentry l d e he with ⟨-, hconf⟩ | ⟨-, hlt⟩
    · exact hconf
    · rw [hzero] at hcount
      exact absurd (Nat.lt_of_lt_of_le hlt hcount) (Nat.not_lt_zero _)
  split at hs
  · cases hs
  rw [← Option.some.inj hs]
  refine ⟨hq.next, ?_⟩
  intro l d e he
  rcases hentry l d e he with ⟨hne, n, hn, hlt⟩ | ⟨hid, hlt⟩
  · exact ⟨n, (Function.update_of_ne hne _ _).trans hn, hlt⟩
  · refine ⟨_, ?_, Nat.lt_of_lt_of_le hlt hcount⟩
    dsimp only
    rw [hid, Function.update_self]

/-- The loop over the devices keeps it. -/
theorem cryptodevsLoop_inv {conf : CdevConf} {req c : Nat}
    {ps : List LcoreParams} {devs : List CryptodevInfo} {s s' : InitState}
    (h : InitInv s c) (hs : cryptodevsLoop conf req ps c devs s = some s') :
    ∃ c', InitInv s' c' := by
  induction devs generalizing c s with
  | nil =>
      rw [← Option.some.inj hs]
      exact ⟨c, h⟩
  | cons dev devs ih =>
      rw [cryptodevsLoop] at hs
      cases hone : initCdev conf req ps c dev s with
      | none =>
          rw [hone] at hs
          cases hs
      | some s1 =>
          rw [hone] at hs
          exact ih (initCdev_inv h hone) hs

/-- What `cryptodevs_init` leaves when it is done. -/
theorem cryptodevsInit_inv {conf : CdevConf} {req : Nat} {ps : List LcoreParams}
    {devs : List CryptodevInfo} {s : InitState}
    (hs : cryptodevsInit conf req ps devs = some s) : ∃ c, InitInv s c := by
  have hstart : InitInv {} 0 := by
    refine ⟨queueInv_empty 0 0 none, ?_⟩
    intro l d e he
    cases he
  exact cryptodevsLoop_inv hstart hs

/-- **QUEUE PAIRS ARE NOT SHARED**: after `cryptodevs_init` no two contexts
    hold the same queue pair, no context holds a device twice, the hashes point
    into the tables, the tables fit, and each queue pair exists on its
    device. -/
theorem cryptodevsInit_queues {conf : CdevConf} {req : Nat}
    {ps : List LcoreParams} {devs : List CryptodevInfo} {s : InitState}
    (hs : cryptodevsInit conf req ps devs = some s) :
    (∀ l d l' d', ∀ e ∈ s.tables.tbl l d, ∀ e' ∈ s.tables.tbl l' d',
        (e.id, e.qp) = (e'.id, e'.qp) → (l, d) = (l', d'))
      ∧ (∀ l d, ((s.tables.tbl l d).map CdevQp.id).Nodup)
      ∧ (∀ d key i, s.tables.map d key = some i →
        i < (s.tables.tbl key.lcoreId d).length)
      ∧ (∀ l d, (s.tables.tbl l d).length ≤ maxQpPerLcore)
      ∧ ∀ l d, ∀ e ∈ s.tables.tbl l d,
        ∃ n, s.nbQueuePairs e.id = some n ∧ e.qp < n := by
  obtain ⟨c, hinv⟩ := cryptodevsInit_inv hs
  refine ⟨?_, hinv.queues.devices, hinv.queues.mapped, hinv.queues.size,
    hinv.configured⟩
  rintro l d l' d' ⟨id, qp⟩ he ⟨id', qp'⟩ he' heq
  obtain ⟨rfl, rfl⟩ := Prod.mk.inj heq
  exact hinv.queues.unshared l d l' d' _ he he'

/-- Two devices: the first knows a cipher with an authentication algorithm, the
    second, with one queue pair, an AEAD algorithm. -/
def twoDevs : List CryptodevInfo :=
  [⟨[⟨.symmetric, .cipher, 5⟩, ⟨.symmetric, .auth, 4⟩], true, true, 4, 0⟩,
    ⟨[⟨.symmetric, .aead, 2⟩], true, true, 1, 0⟩]

/-- Two lcores on one protected port. -/
def twoLcores : List LcoreParams := [⟨0, 0, 1⟩, ⟨0, 1, 2⟩]

/-- What `cryptodevs_init` makes of them. -/
def twoTables : InitState :=
  (cryptodevsInit ⟨0, 0xff, false, 1⟩ 0 twoLcores twoDevs).getD {}

/-- The first lcore gets both devices, the second one. -/
theorem twoTables_tbl :
    twoTables.tables.tbl 1 .egress = [⟨0, 0⟩, ⟨1, 0⟩]
      ∧ twoTables.tables.tbl 2 .egress = [⟨0, 1⟩] := by
  decide

theorem cryptodevsInit_twoTables :
    cryptodevsInit ⟨0, 0xff, false, 1⟩ 0 twoLcores twoDevs = some twoTables := by
  have h : (cryptodevsInit ⟨0, 0xff, false, 1⟩ 0 twoLcores twoDevs).isSome
      = true := by decide
  rw [twoTables]
  cases hinit : cryptodevsInit ⟨0, 0xff, false, 1⟩ 0 twoLcores twoDevs with
  | none =>
      rw [hinit] at h
      cases h
  | some s => rfl

theorem cryptodevsInit_queues_two :
    (∀ l d l' d', ∀ e ∈ twoTables.tables.tbl l d,
        ∀ e' ∈ twoTables.tables.tbl l' d',
        (e.id, e.qp) = (e'.id, e'.qp) → (l, d) = (l', d'))
      ∧ (∀ l d, ((twoTables.tables.tbl l d).map CdevQp.id).Nodup)
      ∧ (∀ d key i, twoTables.tables.map d key = some i →
        i < (twoTables.tables.tbl key.lcoreId d).length)
      ∧ (∀ l d, (twoTables.tables.tbl l d).length ≤ maxQpPerLcore)
      ∧ ∀ l d, ∀ e ∈ twoTables.tables.tbl l d,
        ∃ n, twoTables.nbQueuePairs e.id = some n ∧ e.qp < n :=
  cryptodevsInit_queues cryptodevsInit_twoTables

end Cdev
