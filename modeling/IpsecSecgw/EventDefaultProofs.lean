import IpsecSecgw.EventDevModel
import IpsecSecgw.EventHelperProofs

/-! # What the defaults are

    `eh_validate_conf` on a configuration that says nothing: one event device, a link for
    each of its ports to a lcore of its own, and an adapter for Rx and one for Tx, each
    with a connection for every enabled port (`validate_default`). -/

namespace EventDev

open EventHelper Outcome

variable {env : EventEnv}

/-! ## Connections -/

section Connections

variable {α : Type} {mask : UInt32} {connOf : Nat → α} {caps : Nat → Except Int UInt32}

/-- A connection more. -/
theorem connections_push (a : Connections α) (x : α)
    (h : a.nbConnections.toNat < maxConnectionsPerAdapter) :
    connections ⟨a.nbConnections + 1, a.conn.set a.nbConnections.toNat x h⟩
      = connections a ++ [x] := by
  have hlen : a.nbConnections.toNat < a.conn.toList.length := by
    rw [Vector.length_toList]
    exact h
  rw [connections, nbConnections_succ h, Vector.toList_set, connections]
  rw [List.take_add_one, List.take_set_of_le (Nat.le_refl _), List.getElem?_set_self hlen]
  rfl

/-- The port has the capability. -/
def HasPort (caps : Nat → Except Int UInt32) (i : Nat) : Prop :=
  ∃ caps', caps i = .ok caps' ∧ caps' &&& capInternalPort ≠ 0

/-- **CONNECTIONS**: there is one for each enabled port, in their order, and the flag is
    kept when all of them have internal ports. -/
theorem connLoop_list {is : List Nat} {a : Connections α} {flag : Bool}
    {r : Connections α × Bool} (h : connLoop mask connOf caps is a flag = .ok r) :
    connections r.1 = connections a ++ (is.filter (portEnabled mask)).map connOf
      ∧ ((∀ i ∈ is, portEnabled mask i = true → HasPort caps i) → r.2 = flag) := by
  induction is generalizing a flag with
  | nil =>
      obtain rfl := Except.ok.inj h
      exact ⟨(List.append_nil _).symm, fun _ => rfl⟩
  | cons i is ih =>
      rw [connLoop] at h
      by_cases hen : portEnabled mask i = false
      · rw [if_pos hen] at h
        obtain ⟨hlist, hflag⟩ := ih h
        rw [List.filter_cons_of_neg (by rw [hen]; exact Bool.false_ne_true)]
        exact ⟨hlist, fun hall => hflag fun j hj => hall j (List.mem_cons_of_mem i hj)⟩
      · have hon : portEnabled mask i = true := Bool.not_eq_false _ ▸ hen
        rw [if_neg hen] at h
        split at h
        · rename_i hroom
          cases hcaps : caps i with
          | error ret =>
              rw [hcaps] at h
              cases h
          | ok caps' =>
              rw [hcaps] at h
              obtain ⟨hlist, hflag⟩ := ih h
              constructor
              · rw [hlist, connections_push, List.filter_cons_of_pos hon, List.map_cons,
                  List.append_assoc]
                rfl
              · intro hall
                obtain ⟨caps'', hcaps', hbit⟩ := hall i List.mem_cons_self hon
                obtain rfl := Except.ok.inj (hcaps.symm.trans hcaps')
                rw [if_neg hbit] at hflag
                exact hflag fun j hj => hall j (List.mem_cons_of_mem i hj)
        · cases h

end Connections

/-- A device has internal ports when all Ethernet devices have the capability. -/
theorem internalPortLoop_true {caps : Nat → Except Int UInt32} {js : List Nat} {flag : Bool}
    (h : internalPortLoop caps js flag = true) : flag = true ∧ ∀ j ∈ js, HasPort caps j := by
  induction js generalizing flag with
  | nil => exact ⟨h, fun _ hj => absurd hj List.not_mem_nil⟩
  | cons j js ih =>
      rw [internalPortLoop] at h
      cases hcaps : caps j with
      | error e =>
          rw [hcaps] at h
          cases h
      | ok caps' =>
          rw [hcaps] at h
          obtain ⟨hflag, hall⟩ := ih h
          by_cases hbit : caps' &&& capInternalPort = 0
          · rw [if_pos hbit] at hflag
            cases hflag
          · rw [if_neg hbit] at hflag
            refine ⟨hflag, fun k hk => ?_⟩
            rcases List.mem_cons.mp hk with rfl | hk
            · exact ⟨caps', hcaps, hbit⟩
            · exact hall k hk

/-! ## Links -/

/-- Links of a device, with the event ports from `i` on. -/
structure LinksFrom (eventdevId : UInt8) (i : Nat) (ls : List EhEventLinkInfo) : Prop where
  ports : ls.map EhEventLinkInfo.eventPortId = (List.range' i ls.length).map UInt8.ofNat
  devs : ∀ l ∈ ls, l.eventdevId = eventdevId

/-- A link more. -/
theorem linkInfos_save (c : EventmodeConf) (l : EhEventLinkInfo) (h : c.nbLink.toNat < 255) :
    linkInfos { c with
      link := Function.update c.link c.nbLink.toNat l
      nbLink := c.nbLink + 1 } = linkInfos c ++ [l] := by
  have hnb : (c.nbLink + 1).toNat = c.nbLink.toNat + 1 := by
    rw [UInt8.toNat_add]
    exact Nat.mod_eq_of_lt (by
      show c.nbLink.toNat + 1 < 256
      omega)
  rw [linkInfos, linkInfos]
  dsimp only
  rw [hnb, List.range_succ, List.map_append, List.map_singleton, Function.update_self]
  congr 1
  refine List.map_congr_left fun k hk => ?_
  exact Function.update_of_ne (Nat.ne_of_lt (List.mem_range.mp hk)) _ _

/-- **LINKS** are made for the ports one after the other, as long as there are cores. -/
theorem linkLoop_infos (env : EventEnv) (eventdevId : UInt8) (n : Nat) {i : Nat} (prevCore : UInt32)
    {c : EventmodeConf} (hi : c.nbLink.toNat = i) (hn : i + n ≤ 255) :
    ∃ new, linkInfos (linkLoop env eventdevId (List.range' i n) prevCore c)
        = linkInfos c ++ new ∧ LinksFrom eventdevId i new ∧ new.length ≤ n := by
  induction n generalizing i prevCore c with
  | zero => exact ⟨[], (List.append_nil _).symm, ⟨rfl, nofun⟩, Nat.le_refl 0⟩
  | succ n ih =>
      rw [List.range'_succ, linkLoop]
      dsimp only
      split
      · exact ⟨[], (List.append_nil _).symm, ⟨rfl, nofun⟩, Nat.zero_le _⟩
      · have hroom : c.nbLink.toNat < 255 := by omega
        generalize ehGetNextActiveCore env c prevCore = core
        obtain ⟨l, hl⟩ : ∃ l : EhEventLinkInfo, l = ⟨eventdevId, UInt8.ofNat i,
          (c.link c.nbLink.toNat).eventqId, core.toUInt8⟩ := ⟨_, rfl⟩
        have hsave := linkInfos_save c l hroom
        have hnb : (c.nbLink + 1).toNat = i + 1 := by
          rw [UInt8.toNat_add, ← hi]
          exact Nat.mod_eq_of_lt (by
            show c.nbLink.toNat + 1 < 256
            omega)
        obtain ⟨new, hinfos, hnew, hle⟩ := ih core (c := { c with
          link := Function.update c.link c.nbLink.toNat l
          nbLink := c.nbLink + 1 }) hnb (by omega)
        rw [← hl, hinfos, hsave, List.append_assoc]
        refine ⟨l :: new, rfl, ⟨?_, ?_⟩, Nat.succ_le_succ hle⟩
        · rw [List.map_cons, hnew.ports, List.length_cons, List.range'_succ, List.map_cons, hl]
        · intro l' hl'
          rcases List.mem_cons.mp hl' with rfl | hl'
          · rw [hl]
          · exact hnew.devs l' hl'

/-! ## Cores -/

/-- A core that serves an adapter is an enabled one of the mask, if there is one. -/
theorem nextEthCore_mem {c : EventmodeConf} {core : UInt32} (hmem : core ∈ env.lcores)
    (hmask : c.ethCoreMask core = true) :
    (ehGetNextEthCore env c).1 ∈ env.lcores
      ∧ c.ethCoreMask (ehGetNextEthCore env c).1 = true := by
  have hcount : ehGetEnabledCores env c.ethCoreMask ≠ 0 :=
    Nat.ne_of_gt (List.countP_pos_iff.mpr ⟨core, hmem, hmask⟩)
  rw [ehGetNextEthCore, if_neg hcount]
  cases hfind : (lcoresAround env c.prevCore).find? c.ethCoreMask with
  | none =>
      have hround : core ∈ lcoresAround env c.prevCore := List.mem_append_right _ hmem
      exact absurd hmask (List.find?_eq_none.mp hfind core hround)
  | some core' =>
      refine ⟨?_, List.find?_some hfind⟩
      exact (List.mem_append.mp (List.mem_of_find?_eq_some hfind)).elim List.mem_of_mem_filter id

/-! ## The whole configuration -/

/-- **THE DEFAULTS**. -/
structure Defaults (env : EventEnv) (mask : UInt32) (c : EventmodeConf) : Prop where
  nbEventdev : c.nbEventdev = 1
  dev : (c.eventdevConfig 0).eventdevId = 0
  allQueues : c.allEvQueueToEvPort = true
  links : LinksFrom 0 0 (linkInfos c)
  nbRx : c.nbRxAdapter = 1
  rxDev : c.rxAdapter.eventdevId = 0
  rxConns : connections c.rxAdapter.conns = (enabledPorts mask env.ethDevs.length).map
    (rxConn (nbRxQueues (c.eventdevConfig 0) < env.ethDevs.length))
  rxCore : c.rxAdapter.rxCoreId = noCore
    ∨ ∀ core ∈ env.lcores, c.ethCoreMask core = true →
      c.rxAdapter.rxCoreId ∈ env.lcores ∧ c.ethCoreMask c.rxAdapter.rxCoreId = true
  nbTx : c.nbTxAdapter = 1
  txDev : c.txAdapter.eventdevId = 0
  txConns : connections c.txAdapter.conns
    = (enabledPorts mask env.ethDevs.length).map txConn
  txCore : (∀ i < env.ethDevs.length, HasPort (env.txCaps 0) i) → c.txAdapter.txCoreId = noCore

/-- Everything but the adapters. -/
structure Prepared (mask : UInt32) (c : EventmodeConf) : Prop where
  nbEventdev : c.nbEventdev = 1
  dev : (c.eventdevConfig 0).eventdevId = 0
  ethPortmask : c.ethPortmask = mask
  nbRx : c.nbRxAdapter = 0
  nbTx : c.nbTxAdapter = 0
  rx : connections c.rxAdapter.conns = []
  tx : connections c.txAdapter.conns = []

/-- The event device, with the capability check. -/
theorem checked_prepared {ethCoreMask : UInt32 → Bool} {mask : UInt32} {c : EventmodeConf}
    (h : ehSetDefaultConfEventdev env (defaultConf ethCoreMask mask) = .ok c) :
    Prepared mask (ehDoCapabilityCheck env c) ∧ (ehDoCapabilityCheck env c).nbLink = 0 := by
  have hc : ∃ n nbEventport : UInt8, c = { defaultConf ethCoreMask mask with
      nbEventdev := 1
      eventdevConfig := Function.update (fun _ => {}) 0 (foundDev n nbEventport) } := by
    cases hinfo : env.devInfo with
    | error ret =>
        rw [ehSetDefaultConfEventdev, hinfo] at h
        split at h
        · cases h
        split at h
        · cases h
        split at h <;> cases h
    | ok info =>
        obtain ⟨-, n, nbEventport, -, heq⟩ := (eventdev_ends hinfo).of_ok h
        exact ⟨n, nbEventport, heq⟩
  obtain ⟨n, nbEventport, rfl⟩ := hc
  -- the check touches the queues, the flag and the mask of the cores
  have hloop : ∃ d : EventdevParams, d.eventdevId = 0
      ∧ (capabilityLoop env (List.range 1)
        (Function.update (fun _ => {}) 0 (foundDev n nbEventport)) true).1 0 = d := by
    simp only [List.range_one, capabilityLoop]
    split
    · exact ⟨_, by simp [foundDev], rfl⟩
    · exact ⟨_, by simp [foundDev], rfl⟩
  obtain ⟨d, hd, hloop⟩ := hloop
  rw [ehDoCapabilityCheck]
  dsimp only
  split
  · refine ⟨⟨rfl, ?_, rfl, rfl, rfl, rfl, rfl⟩, rfl⟩
    simp only [Nat.zero_lt_one, if_true]
    exact (congrArg EventdevParams.eventdevId hloop).trans hd
  · exact ⟨⟨rfl, (congrArg EventdevParams.eventdevId hloop).trans hd, rfl, rfl, rfl, rfl, rfl⟩,
      rfl⟩

/-- The links leave the rest alone. -/
theorem Prepared.linked {mask : UInt32} {c : EventmodeConf} (h : Prepared mask c)
    (env : EventEnv) (hlink : c.nbLink = 0) :
    Prepared mask (ehSetDefaultConfLink env c)
      ∧ (ehSetDefaultConfLink env c).allEvQueueToEvPort = true
      ∧ LinksFrom 0 0 (linkInfos (ehSetDefaultConfLink env c)) := by
  obtain ⟨link, nbLink, heq⟩ : ∃ link nbLink, ehSetDefaultConfLink env c
      = { c with allEvQueueToEvPort := true, link := link, nbLink := nbLink } :=
    linkLoop_frame _ _ _ _
  have hnone : linkInfos { c with allEvQueueToEvPort := true } = [] := by
    rw [linkInfos]
    dsimp only
    rw [hlink]
    rfl
  have hlt := (c.eventdevConfig 0).nbEventport.toNat_lt
  obtain ⟨new, hinfos, hnew, -⟩ := linkLoop_infos env (c.eventdevConfig 0).eventdevId
    (c.eventdevConfig 0).nbEventport.toNat (i := 0) 0xffffffff
    (c := { c with allEvQueueToEvPort := true }) (congrArg UInt8.toNat hlink) (by omega)
  rw [hnone, List.nil_append, ← List.range_eq_range'] at hinfos
  rw [h.dev] at hnew
  refine ⟨?_, ?_, ?_⟩
  · rw [heq]
    exact ⟨h.nbEventdev, h.dev, h.ethPortmask, h.nbRx, h.nbTx, h.rx, h.tx⟩
  · rw [heq]
  · rw [show linkInfos (ehSetDefaultConfLink env c) = new from hinfos]
    exact hnew

/-- The adapter for Rx. -/
theorem rx_default {mask : UInt32} {c c' : EventmodeConf} (h : Prepared mask c)
    (hrun : ehSetDefaultConfRxAdapter env c = .ok c') :
    (∃ rx prevCore, c' = { c with rxAdapter := rx, prevCore := prevCore, nbRxAdapter := 1 })
      ∧ c'.rxAdapter.eventdevId = 0
      ∧ connections c'.rxAdapter.conns = (enabledPorts mask env.ethDevs.length).map
        (rxConn (nbRxQueues (c.eventdevConfig 0) < env.ethDevs.length))
      ∧ (c'.rxAdapter.rxCoreId = noCore
        ∨ ∀ core ∈ env.lcores, c.ethCoreMask core = true →
          c'.rxAdapter.rxCoreId ∈ env.lcores
            ∧ c.ethCoreMask c'.rxAdapter.rxCoreId = true) := by
  rw [ehSetDefaultConfRxAdapter, if_neg (by rw [h.nbEventdev]; exact Nat.one_ne_zero)] at hrun
  dsimp only at hrun
  cases hloop : connLoop c.ethPortmask
      (rxConn (nbRxQueues (c.eventdevConfig 0) < env.ethDevs.length))
      (env.rxCaps (c.eventdevConfig 0).eventdevId) (List.range env.ethDevs.length)
      c.rxAdapter.conns true with
  | error e =>
      rw [hloop] at hrun
      cases hrun
  | ok r =>
      rw [hloop] at hrun
      obtain rfl := Except.ok.inj hrun
      obtain ⟨hlist, -⟩ := connLoop_list hloop
      rw [h.rx, h.ethPortmask] at hlist
      refine ⟨⟨_, _, rfl⟩, h.dev, hlist, ?_⟩
      dsimp only
      cases r.2 with
      | true => exact .inl rfl
      | false => exact .inr fun core hmem hmask => nextEthCore_mem hmem hmask

/-- The adapter for Tx. -/
theorem tx_default {mask : UInt32} {c c' : EventmodeConf} (hdev : c.nbEventdev = 1)
    (hid : (c.eventdevConfig 0).eventdevId = 0) (hmask : c.ethPortmask = mask)
    (hconns : connections c.txAdapter.conns = [])
    (hrun : ehSetDefaultConfTxAdapter env c = .ok c') :
    (∃ tx prevCore, c' = { c with txAdapter := tx, prevCore := prevCore, nbTxAdapter := 1 })
      ∧ c'.txAdapter.eventdevId = 0
      ∧ connections c'.txAdapter.conns = (enabledPorts mask env.ethDevs.length).map txConn
      ∧ ((∀ i < env.ethDevs.length, HasPort (env.txCaps 0) i) →
        c'.txAdapter.txCoreId = noCore) := by
  rw [ehSetDefaultConfTxAdapter, if_neg (by rw [hdev]; exact Nat.one_ne_zero)] at hrun
  dsimp only at hrun
  cases hloop : connLoop c.ethPortmask txConn (env.txCaps (c.eventdevConfig 0).eventdevId)
      (List.range env.ethDevs.length) c.txAdapter.conns true with
  | error e =>
      rw [hloop] at hrun
      cases hrun
  | ok r =>
      rw [hloop] at hrun
      obtain rfl := Except.ok.inj hrun
      obtain ⟨hlist, hflag⟩ := connLoop_list hloop
      rw [hconns, hmask] at hlist
      refine ⟨⟨_, _, rfl⟩, hid, hlist, fun hall => ?_⟩
      have hflag := hflag fun i hi _ => by
        rw [hid]
        exact hall i (List.mem_range.mp hi)
      dsimp only
      rw [hflag, if_pos rfl]
      rfl

/-- **ALL OF IT**. -/
theorem validate_default {ethCoreMask : UInt32 → Bool} {mask : UInt32} {c : EventmodeConf}
    (h : ehValidateConf env (defaultConf ethCoreMask mask) = .ok c) : Defaults env mask c := by
  rw [ehValidateConf, if_pos (show (defaultConf ethCoreMask mask).nbEventdev = 0 from rfl)] at h
  cases hdev : ehSetDefaultConfEventdev env (defaultConf ethCoreMask mask) with
  | error e =>
      rw [hdev] at h
      cases h
  | ok c₁ =>
      obtain ⟨hprep, hnb⟩ := checked_prepared hdev
      obtain ⟨hready, hall, hlinks⟩ := hprep.linked env hnb
      rw [hdev] at h
      dsimp only [bind, Except.bind] at h
      rw [if_pos hnb] at h
      generalize ehSetDefaultConfLink env (ehDoCapabilityCheck env c₁) = c₂ at h hready hall hlinks
      rw [if_pos hready.nbRx] at h
      cases hrx : ehSetDefaultConfRxAdapter env c₂ with
      | error e =>
          rw [hrx] at h
          cases h
      | ok c₃ =>
          rw [hrx] at h
          obtain ⟨⟨rx, core, hc₃⟩, hrxDev, hrxConns, hrxCore⟩ := rx_default hready hrx
          have hnbTx : c₃.nbTxAdapter = 0 := by rw [hc₃]; exact hready.nbTx
          replace h : (if c₃.nbTxAdapter = 0 then ehSetDefaultConfTxAdapter env c₃ else .ok c₃)
            = .ok c := h
          rw [if_pos hnbTx] at h
          obtain ⟨⟨tx, core', hc⟩, htxDev, htxConns, htxCore⟩ := tx_default
            (by rw [hc₃]; exact hready.nbEventdev) (by rw [hc₃]; exact hready.dev)
            (show c₃.ethPortmask = mask by rw [hc₃]; exact hready.ethPortmask)
            (by rw [hc₃]; exact hready.tx) h
          have hsame : c.rxAdapter = c₃.rxAdapter ∧ c.eventdevConfig = c₂.eventdevConfig
              ∧ c.ethCoreMask = c₂.ethCoreMask := by
            rw [hc, hc₃]
            exact ⟨rfl, rfl, rfl⟩
          refine ⟨?_, ?_, ?_, ?_, ?_, ?_, ?_, ?_, ?_, htxDev, htxConns, htxCore⟩
          · rw [hc, hc₃]
            exact hready.nbEventdev
          · rw [hsame.2.1]
            exact hready.dev
          · rw [hc, hc₃]
            exact hall
          · rw [show linkInfos c = linkInfos c₂ by rw [hc, hc₃]; rfl]
            exact hlinks
          · rw [hc, hc₃]
          · rw [hsame.1]
            exact hrxDev
          · rw [hsame.1, hsame.2.1]
            exact hrxConns
          · rw [hsame.1, hsame.2.2]
            exact hrxCore
          · rw [hc]

end EventDev
