import Mathlib.Data.List.Nodup
import IpsecSecgw.CdevProofs
import IpsecSecgw.GroupHandlingProofs
import IpsecSecgw.PortInitModel
import IpsecSecgw.TxFrameProofs

/-! # Who owns which queue, and what the ports were asked for

    When `main` gets past the ports, every receive queue that a lcore is to poll has
    been set up, the lcores together poll the queues of `--config` and no others,
    and no two lcores send through one Tx queue (`queues_owned`).  And the offloads
    packets rely on are those the ports have been configured with
    (`offloads_configured`). -/

namespace PortInit

open SaModel MbufModel CdevModel SecgwModel TxFrame
open SaInit (isInline)

variable {dev : EthDevices} {conf : StartConf} {sas : SaLists}

/-! ## Loops that may give up -/

/-- What every round that goes on preserves. -/
theorem foldlM_inv {α β : Type} {P : List α → β → Prop} {f : β → α → Option β}
    {l : List α} {b b' : β} (h : l.foldlM f b = some b') (hinit : P l b)
    (hstep : ∀ a l b b', P (a :: l) b → f b a = some b' → P l b') : P [] b' := by
  induction l generalizing b with
  | nil =>
      obtain rfl := Option.some.inj h
      exact hinit
  | cons a l ih =>
      rw [List.foldlM_cons] at h
      obtain ⟨b₁, hone, hrest⟩ := Option.bind_eq_some_iff.mp h
      exact ih hrest (hstep a l b b₁ hinit hone)

/-- A list is sorted by keys: nothing is lost, and nothing is there twice. -/
theorem flatMap_filter_perm {α κ : Type} [DecidableEq κ] (key : α → κ) {ks : List κ}
    (hnodup : ks.Nodup) (l : List α) (hall : ∀ e ∈ l, key e ∈ ks) :
    (ks.flatMap fun k => l.filter fun e => key e = k).Perm l := by
  induction ks generalizing l with
  | nil =>
      cases l with
      | nil => exact List.Perm.refl _
      | cons e l => exact absurd (hall e List.mem_cons_self) List.not_mem_nil
  | cons k ks ih =>
      obtain ⟨hk, hnodup⟩ := List.nodup_cons.mp hnodup
      -- the other keys find the same elements when those of `k` are gone
      have hrest : (ks.flatMap fun k' => l.filter fun e => key e = k')
          = ks.flatMap fun k' => (l.filter fun e => !decide (key e = k)).filter
              fun e => key e = k' := by
        refine List.flatMap_congr ?_
        intro k' hk'
        rw [List.filter_filter]
        refine List.filter_congr ?_
        intro e _
        by_cases he : key e = k'
        · have hne : key e ≠ k := by
            rintro rfl
            exact hk (he ▸ hk')
          simp [he, show k' ≠ k from he ▸ hne]
        · simp [he]
      rw [List.flatMap_cons, hrest]
      refine ((ih hnodup _ ?_).append_left _).trans (List.filter_append_perm _ l)
      intro e he
      obtain ⟨hin, hne⟩ := List.mem_filter.mp he
      refine (List.mem_cons.mp (hall e hin)).resolve_left ?_
      simpa using hne

/-! ## The queues of a lcore -/

/-- The queue an entry of `lcore_params` names. -/
def pair (e : LcoreParams) : UInt16 × UInt8 := (e.portId, e.queueId)

/-- **EVERY LCORE** gets the queues of its entries, in their order. -/
theorem initLcoreRxQueues_eq {ps : List LcoreParams} {rxq rxq' : RxQueues}
    (h : initLcoreRxQueues rxq ps = some rxq') (l : UInt8) :
    rxq' l = rxq l ++ (ps.filter fun e => e.lcoreId = l).map pair := by
  induction ps generalizing rxq with
  | nil =>
      obtain rfl := Option.some.inj h
      simp
  | cons p ps ih =>
      rw [initLcoreRxQueues] at h
      split at h
      · cases h
      · rw [ih h]
        by_cases hl : p.lcoreId = l
        · subst hl
          simp [pair]
        · simp [hl, Function.update_of_ne (Ne.symm hl)]

/-- Together the lcores have the queues of all entries. -/
theorem rxQueues_perm {ps : List LcoreParams} {rxq : RxQueues} {lcores : List UInt8}
    (h : initLcoreRxQueues (fun _ => []) ps = some rxq) (hnodup : lcores.Nodup)
    (hall : ∀ e ∈ ps, e.lcoreId ∈ lcores) : (lcores.flatMap rxq).Perm (ps.map pair) := by
  have hsplit : lcores.flatMap rxq
      = (lcores.flatMap fun l => ps.filter fun e => e.lcoreId = l).map pair := by
    rw [List.map_flatMap]
    refine List.flatMap_congr ?_
    intro l _
    rw [initLcoreRxQueues_eq h, List.nil_append]
  rw [hsplit]
  exact (flatMap_filter_perm LcoreParams.lcoreId hnodup ps hall).map pair

/-! ## The queues of a port -/

/-- The queues of a list that are on a port. -/
def onPort (port : UInt16) (l : List (UInt16 × UInt8)) : List UInt8 :=
  (l.filter fun q => q.1 = port).map Prod.snd

/-- Every queue of the list is set up, and nothing else. -/
theorem foldlM_rxQueueOne {port : UInt16} {l : List (UInt16 × UInt8)} {s s' : PortState}
    (h : l.foldlM (rxQueueOne dev port) s = some s') :
    s' = { s with rxQueues := s.rxQueues ++ onPort port l }
      ∧ ∀ q ∈ onPort port l, dev.rxQueueSetup port s.nbRxQueue q = true := by
  induction l generalizing s with
  | nil =>
      obtain rfl := Option.some.inj h
      simp [onPort]
  | cons q l ih =>
      rw [List.foldlM_cons] at h
      obtain ⟨s₁, hone, hrest⟩ := Option.bind_eq_some_iff.mp h
      rw [rxQueueOne] at hone
      split at hone
      · rename_i hport
        obtain rfl := Option.some.inj hone
        obtain ⟨heq, hset⟩ := ih hrest
        have hnot : onPort port (q :: l) = onPort port l := by simp [onPort, hport]
        rw [hnot]
        exact ⟨heq, hset⟩
      · rename_i hport
        split at hone
        · rename_i hsetup
          obtain rfl := Option.some.inj hone
          obtain ⟨heq, hset⟩ := ih hrest
          have hcons : onPort port (q :: l) = q.2 :: onPort port l := by
            simp [onPort, not_not.mp hport]
          rw [hcons]
          refine ⟨?_, ?_⟩
          · rw [heq]
            simp
          · intro x hx
            rcases List.mem_cons.mp hx with rfl | hx
            · exact hsetup
            · exact hset x hx
        · cases hone

/-- What the lcores `ls` leave behind on a port, from Tx queue `n` on. -/
structure Queued (dev : EthDevices) (rxq : RxQueues) (port : UInt16) (ls : List UInt8) (n : Nat)
    (s s' : PortState) (ids ids' : TxQueueIds) : Prop where
  same : s' = { s with rxQueues := s'.rxQueues, txQueues := s'.txQueues }
  rx : s'.rxQueues = s.rxQueues ++ ls.flatMap fun l => onPort port (rxq l)
  rxSetup : ∀ l ∈ ls, ∀ q ∈ onPort port (rxq l), dev.rxQueueSetup port s.nbRxQueue q = true
  tx : s'.txQueues = s.txQueues ++ (List.range' n ls.length).map UInt16.ofNat
  txSetup : ∀ i, i < ls.length →
    dev.txQueueSetup port s.nbTxQueue (UInt16.ofNat (n + i)) = true
  queueId : ∀ l ∈ ls, ids' l port = UInt16.ofNat (n + ls.idxOf l)
  others : ∀ l port', (port' ≠ port ∨ l ∉ ls) → ids' l port' = ids l port'

/-- **THE LOOP OVER THE LCORES**: each gets the next Tx queue, and its Rx queues. -/
theorem foldlM_lcoreQueues {rxq : RxQueues} {port : UInt16} {ls : List UInt8} {n : Nat}
    {s : PortState} {ids : TxQueueIds} {r : PortState × TxQueueIds × UInt16}
    (hnodup : ls.Nodup)
    (h : ls.foldlM (lcoreQueues dev rxq port) (s, ids, UInt16.ofNat n) = some r) :
    Queued dev rxq port ls n s r.1 ids r.2.1 := by
  induction ls generalizing s ids n with
  | nil =>
      obtain rfl := Option.some.inj h
      exact ⟨rfl, by simp, by simp, by simp, by simp, by simp, fun _ _ _ => rfl⟩
  | cons l ls ih =>
      obtain ⟨hl, hnodup⟩ := List.nodup_cons.mp hnodup
      rw [List.foldlM_cons] at h
      obtain ⟨r₁, hone, hrest⟩ := Option.bind_eq_some_iff.mp h
      rw [lcoreQueues] at hone
      split at hone
      · rename_i htx
        obtain ⟨p, hp, hr₁⟩ := Option.bind_eq_some_iff.mp hone
        obtain rfl := Option.some.inj hr₁
        obtain ⟨rfl, hset⟩ := foldlM_rxQueueOne hp
        have hnext : UInt16.ofNat n + 1 = UInt16.ofNat (n + 1) := by
          rw [UInt16.ofNat_add]
          rfl
        dsimp only at hrest
        rw [hnext] at hrest
        have hq := ih hnodup hrest
        refine ⟨?_, ?_, ?_, ?_, ?_, ?_, ?_⟩
        · rw [hq.same]
        · rw [hq.rx]
          simp
        · intro x hx q hin
          rcases List.mem_cons.mp hx with rfl | hx
          · exact hset q hin
          · exact hq.rxSetup x hx q hin
        · rw [hq.tx, List.length_cons, List.range'_succ]
          simp
        · intro i hi
          cases i with
          | zero => exact htx
          | succ i =>
              rw [List.length_cons] at hi
              have := hq.txSetup i (by omega)
              rw [show n + 1 + i = n + (i + 1) by omega] at this
              exact this
        · intro x hx
          rcases List.mem_cons.mp hx with rfl | hin
          · rw [hq.others x port (.inr hl)]
            simp
          · have hne : x ≠ l := by
              rintro rfl
              exact hl hin
            rw [hq.queueId x hin, List.idxOf_cons_ne _ (Ne.symm hne)]
            congr 1
            omega
        · intro x port' hout
          have hrest : port' ≠ port ∨ x ∉ ls := by
            rcases hout with hport | hx
            · exact .inl hport
            · exact .inr fun hin => hx (List.mem_cons_of_mem _ hin)
          rw [hq.others x port' hrest]
          by_cases hx : x = l
          · subst hx
            rcases hout with hport | hx
            · simp [Function.update_of_ne hport]
            · exact absurd List.mem_cons_self hx
          · simp [Function.update_of_ne hx]
      · cases hone

/-! ## A port -/

/-- A port behind `port_init`: its queues, and the offloads asked for, which it can
    all do. -/
structure SetUp (dev : EthDevices) (conf : StartConf) (rxq : RxQueues) (port : UInt16)
    (reqRx reqTx : UInt64) (s : PortState) (ids : TxQueueIds) : Prop where
  rx : s.rxQueues = conf.lcores.flatMap fun l => onPort port (rxq l)
  rxSetup : ∀ q ∈ s.rxQueues, dev.rxQueueSetup port s.nbRxQueue q = true
  tx : s.txQueues = (List.range conf.lcores.length).map UInt16.ofNat
  txSetup : ∀ q ∈ s.txQueues, dev.txQueueSetup port s.nbTxQueue q = true
  queueId : ∀ l ∈ conf.lcores, ids l port = UInt16.ofNat (conf.lcores.idxOf l)
  nbTx : s.nbTxQueue = UInt16.ofNat conf.lcores.length
  rxOffloads : s.rxOffloads = (askedOffloads conf reqRx reqTx).1
  txOffloads : ∃ more, s.txOffloads = (askedOffloads conf reqRx reqTx).2 ||| more
  able : ∃ info, dev.devInfo port = some info
    ∧ s.rxOffloads &&& (info.rxOffloadCapa &&& conf.devRxOffload) = s.rxOffloads
    ∧ (askedOffloads conf reqRx reqTx).2 &&& (info.txOffloadCapa &&& conf.devTxOffload)
      = (askedOffloads conf reqRx reqTx).2

/-- Only the Tx queues on this port are looked at. -/
theorem SetUp.congr {rxq : RxQueues} {port : UInt16} {reqRx reqTx : UInt64}
    {s : PortState} {ids ids' : TxQueueIds} (h : SetUp dev conf rxq port reqRx reqTx s ids)
    (hids : ∀ l, ids' l port = ids l port) : SetUp dev conf rxq port reqRx reqTx s ids' :=
  { h with
    queueId := by
      intro l hl
      rw [hids]
      exact h.queueId l hl }

/-- **ONE PORT**. -/
theorem portInit_setUp {rxq : RxQueues} {ids : TxQueueIds} {port : UInt16}
    {reqRx reqTx : UInt64} {r : PortState × TxQueueIds} (hnodup : conf.lcores.Nodup)
    (h : portInit dev conf rxq ids port reqRx reqTx = some r) :
    SetUp dev conf rxq port reqRx reqTx r.1 r.2
      ∧ ∀ l port', port' ≠ port → r.2 l port' = ids l port' := by
  rw [portInit] at h
  obtain ⟨info, hinfo, h⟩ := Option.bind_eq_some_iff.mp h
  obtain ⟨src, -, h⟩ := Option.bind_eq_some_iff.mp h
  dsimp only at h
  split at h
  · cases h
  split at h
  · cases h
  rename_i hable
  rw [not_or, not_not, not_not] at hable
  split at h
  · cases h
  obtain ⟨r', hloop, hr⟩ := Option.bind_eq_some_iff.mp h
  obtain rfl := Option.some.inj hr
  have hq := foldlM_lcoreQueues (n := 0) hnodup hloop
  have hsame := hq.same
  have hrx := hq.rx
  have htx := hq.tx
  rw [List.nil_append] at hrx htx
  refine ⟨⟨hrx, ?_, ?_, ?_, ?_, ?_, ?_, ?_, info, hinfo, ?_, hable.2⟩,
    fun l port' hport => hq.others l port' (.inl hport)⟩
  · intro q hin
    rw [hrx] at hin
    obtain ⟨l, hl, hin⟩ := List.mem_flatMap.mp hin
    rw [hsame]
    exact hq.rxSetup l hl q hin
  · rw [htx, List.range_eq_range']
  · intro q hin
    rw [htx] at hin
    obtain ⟨i, hi, rfl⟩ := List.mem_map.mp hin
    rw [hsame]
    have := hq.txSetup i (by simpa using (List.mem_range'_1.mp hi).2)
    simpa using this
  · intro l hl
    have := hq.queueId l hl
    rwa [Nat.zero_add] at this
  · rw [hsame]
  · rw [hsame]
  · rw [hsame]
    exact ⟨_, UInt64.or_assoc _ _ _⟩
  · rw [hsame]
    exact hable.1

/-! ## All ports -/

/-- The NIC can compute checksums for all that is sent on the port. -/
def Checksums (dev : EthDevices) (sas : SaLists) (port : UInt16) : Prop :=
  ∃ info, dev.devInfo port = some info
    ∧ reqTxOffloads sas.saOut info port &&& txOffloadIpv4Cksum ≠ 0

/-- What the loop has done for the ports `done`. -/
structure Configured (dev : EthDevices) (conf : StartConf) (sas : SaLists)
    (ps : List LcoreParams) (rxq : RxQueues) (done : List UInt16) (s : Started) : Prop where
  params : s.lcoreParams = ps
  queues : s.rxQueues = rxq
  setUp : ∀ p ∈ done, inMask conf.enabledPortMask p = true → ∃ st info,
    dev.devInfo p = some info ∧ s.ports p = some st
      ∧ s.reqRx p = reqRxOffloads sas.saIn p
      ∧ SetUp dev conf rxq p (reqRxOffloads sas.saIn p) (reqTxOffloads sas.saOut info p) st
        s.txQueueId
  mask : ∀ p : UInt16, p.toNat < 32 → (inMask s.cksumPortMask p = true
    ↔ p ∈ done ∧ inMask conf.enabledPortMask p = true ∧ Checksums dev sas p)
  fresh : s.started = [] ∧ ∀ p, s.rxDefFlow p = false

/-- The bit of a port. -/
theorem inMask_eq (mask : UInt32) {p : UInt16} (hp : p.toNat < 32) :
    inMask mask p = mask.toNat.testBit p.toNat := by
  have hval := Cdev.toNat_maskedPort mask hp
  have hpos := Nat.two_pow_pos p.toNat
  rw [inMask, bne, Bool.eq_iff_iff]
  cases hb : mask.toNat.testBit p.toNat with
  | false =>
      rw [hb, Bool.toNat_false, Nat.zero_mul] at hval
      simp [UInt32.toNat_inj.mp (hval.trans (UInt32.toNat_zero).symm)]
  | true =>
      rw [hb, Bool.toNat_true, Nat.one_mul] at hval
      have hne : mask &&& ((1 : UInt32) <<< p.toUInt32) ≠ 0 := by
        intro hzero
        rw [hzero] at hval
        exact absurd hval (Nat.ne_of_lt hpos)
      simp [hne]

/-- One more port in a mask. -/
theorem inMask_or (mask : UInt32) {p q : UInt16} (hp : p.toNat < 32) (hq : q.toNat < 32) :
    inMask (mask ||| (1 : UInt32) <<< p.toUInt32) q = true
      ↔ inMask mask q = true ∨ q = p := by
  have hone : ((1 : UInt32) <<< p.toUInt32).toNat = 2 ^ p.toNat := by
    rw [UInt32.toNat_shiftLeft, UInt16.toNat_toUInt32, Nat.mod_eq_of_lt hp, Nat.shiftLeft_eq]
    show 1 * 2 ^ p.toNat % 2 ^ 32 = _
    rw [Nat.one_mul, Nat.mod_eq_of_lt (Nat.pow_lt_pow_right (by omega) hp)]
  rw [inMask_eq _ hq, inMask_eq _ hq, UInt32.toNat_or, hone, Nat.testBit_or,
    Nat.testBit_two_pow, Bool.or_eq_true, decide_eq_true_iff]
  exact or_congr_right ⟨fun h => UInt16.toNat_inj.mp h.symm, fun h => congrArg UInt16.toNat h.symm⟩

/-- Two masks of the same ports. -/
theorem mask_ext {a b : UInt32} (h : ∀ p : UInt16, p.toNat < 32 → inMask a p = inMask b p) :
    a = b := by
  refine UInt32.toNat_inj.mp (Nat.eq_of_testBit_eq ?_)
  intro i
  by_cases hi : i < 32
  · have hp : (UInt16.ofNat i).toNat = i := by
      rw [UInt16.toNat_ofNat']
      exact Nat.mod_eq_of_lt (by omega)
    have := h (UInt16.ofNat i) (by omega)
    rwa [inMask_eq _ (by omega), inMask_eq _ (by omega), hp] at this
  · have hbig : ∀ c : UInt32, c.toNat.testBit i = false := fun c =>
      Nat.testBit_lt_two_pow (Nat.lt_of_lt_of_le c.toNat_lt (Nat.pow_le_pow_right (by omega)
        (by omega)))
    rw [hbig, hbig]

/-- **THE LOOP OVER THE PORTS**, one round. -/
theorem initOne_configured {ps : List LcoreParams} {rxq : RxQueues} {done : List UInt16}
    {s s' : Started} {port : UInt16} (hnodup : conf.lcores.Nodup) (hport : port.toNat < 32)
    (hs : Configured dev conf sas ps rxq done s)
    (h : initOne dev conf sas s port = some s') :
    Configured dev conf sas ps rxq (done ++ [port]) s' := by
  have hin : ∀ p, p ∈ done ++ [port] ↔ p ∈ done ∨ p = port := by
    intro p
    rw [List.mem_append, List.mem_singleton]
  rw [initOne] at h
  split at h
  · rename_i hout
    obtain rfl := Option.some.inj h
    have hoff : inMask conf.enabledPortMask port = false := by simpa using hout
    refine ⟨hs.params, hs.queues, ?_, ?_, hs.fresh⟩
    · intro p hp hen
      rcases (hin p).mp hp with hp | rfl
      · exact hs.setUp p hp hen
      · rw [hoff] at hen
        cases hen
    · intro p hp
      rw [hs.mask p hp, hin]
      refine ⟨fun h => ⟨.inl h.1, h.2⟩, ?_⟩
      rintro ⟨hp | rfl, hen, hck⟩
      · exact ⟨hp, hen, hck⟩
      · rw [hoff] at hen
        cases hen
  · rename_i hout
    have hon : inMask conf.enabledPortMask port = true := by simpa using hout
    obtain ⟨info, hinfo, h⟩ := Option.bind_eq_some_iff.mp h
    dsimp only at h
    obtain ⟨r, hinit, hs'⟩ := Option.bind_eq_some_iff.mp h
    obtain rfl := Option.some.inj hs'
    rw [hs.queues] at hinit
    obtain ⟨hset, hkeep⟩ := portInit_setUp hnodup hinit
    refine ⟨hs.params, hs.queues, ?_, ?_, hs.fresh⟩
    · intro p hp hen
      by_cases hp' : p = port
      · subst hp'
        exact ⟨r.1, info, hinfo, Function.update_self .., Function.update_self .., hset⟩
      · have hp := ((hin p).mp hp).resolve_right hp'
        obtain ⟨st, info', hinfo', hst, hreq, hset'⟩ := hs.setUp p hp hen
        refine ⟨st, info', hinfo', ?_, ?_, hset'.congr fun l => hkeep l p hp'⟩
        · rw [← hst]
          exact Function.update_of_ne hp' _ _
        · rw [← hreq]
          exact Function.update_of_ne hp' _ _
    · intro p hp
      have hck : Checksums dev sas port
          ↔ reqTxOffloads sas.saOut info port &&& txOffloadIpv4Cksum ≠ 0 := by
        constructor
        · rintro ⟨info', hinfo', hck⟩
          obtain rfl := Option.some.inj (hinfo'.symm.trans hinfo)
          exact hck
        · exact fun hck => ⟨info, hinfo, hck⟩
      dsimp only
      split
      · rename_i hreq
        rw [inMask_or _ hport hp, hs.mask p hp, hin]
        constructor
        · rintro (⟨h1, h2⟩ | rfl)
          · exact ⟨.inl h1, h2⟩
          · exact ⟨.inr rfl, hon, hck.mpr hreq⟩
        · rintro ⟨h1 | rfl, h2⟩
          · exact .inl ⟨h1, h2⟩
          · exact .inr rfl
      · rename_i hreq
        rw [hs.mask p hp, hin]
        refine ⟨fun h => ⟨.inl h.1, h.2⟩, ?_⟩
        rintro ⟨h1 | rfl, hen, hck'⟩
        · exact ⟨h1, hen, hck'⟩
        · exact absurd (hck.mp hck') hreq

/-- **ALL PORTS** are configured. -/
theorem foldlM_initOne {ps : List LcoreParams} {rxq : RxQueues} {s : Started}
    (hnodup : conf.lcores.Nodup) (hports : ∀ p ∈ dev.ports, p.toNat < 32)
    (h : dev.ports.foldlM (initOne dev conf sas) { lcoreParams := ps, rxQueues := rxq } = some s) :
    Configured dev conf sas ps rxq dev.ports s := by
  have hinit : Configured dev conf sas ps rxq [] { lcoreParams := ps, rxQueues := rxq } := by
    refine ⟨rfl, rfl, fun p hp => absurd hp List.not_mem_nil, ?_, rfl, fun _ => rfl⟩
    intro p _
    simp [inMask]
  have hstep : ∀ port todo s s', (∃ done, done ++ port :: todo = dev.ports
      ∧ Configured dev conf sas ps rxq done s) → initOne dev conf sas s port = some s' →
      ∃ done, done ++ todo = dev.ports ∧ Configured dev conf sas ps rxq done s' := by
    rintro port todo s s' ⟨done, hdone, hs⟩ hone
    refine ⟨done ++ [port], by rw [← hdone, List.append_assoc, List.singleton_append], ?_⟩
    refine initOne_configured hnodup (hports port ?_) hs hone
    rw [← hdone]
    exact List.mem_append_right _ List.mem_cons_self
  obtain ⟨done, hdone, hs⟩ := foldlM_inv (P := fun todo s => ∃ done, done ++ todo = dev.ports
    ∧ Configured dev conf sas ps rxq done s) h ⟨[], rfl, hinit⟩ hstep
  rw [List.append_nil] at hdone
  exact hdone ▸ hs

/-! ## Starting the ports -/

/-- The loop that starts the ports, one round: the default flow is for ports with
    inline inbound SAs. -/
structure Starts (dev : EthDevices) (conf : StartConf) (done : List UInt16) (s s' : Started) :
    Prop where
  keeps : s' = { s with started := s'.started, rxDefFlow := s'.rxDefFlow }
  flows : ∀ p, s'.rxDefFlow p = true ↔ s.rxDefFlow p = true ∨ p ∈ done
    ∧ inMask conf.enabledPortMask p = true ∧ s.reqRx p &&& rxOffloadSecurity ≠ 0
    ∧ dev.flow p = true
  started : s'.started = s.started ++ done.filter (inMask conf.enabledPortMask)

theorem startOne_starts {done : List UInt16} {s s' s'' : Started} {port : UInt16}
    (hs : Starts dev conf done s s') (h : startOne dev conf s' port = some s'') :
    Starts dev conf (done ++ [port]) s s'' := by
  have hin : ∀ p, p ∈ done ++ [port] ↔ p ∈ done ∨ p = port := by
    intro p
    rw [List.mem_append, List.mem_singleton]
  have hreq : s'.reqRx = s.reqRx := by rw [hs.keeps]
  rw [startOne] at h
  split at h
  · rename_i hout
    obtain rfl := Option.some.inj h
    refine ⟨hs.keeps, ?_, ?_⟩
    · intro p
      rw [hs.flows, hin]
      refine or_congr_right ⟨fun h => ⟨.inl h.1, h.2⟩, ?_⟩
      rintro ⟨hp | rfl, hen, hrest⟩
      · exact ⟨hp, hen, hrest⟩
      · rw [hen] at hout
        cases hout
    · rw [hs.started]
      simp_all
  · rename_i hon
    have hon : inMask conf.enabledPortMask port = true := by simpa using hon
    split at h
    · obtain rfl := Option.some.inj h
      have hstarted : s'.started ++ [port]
          = s.started ++ (done ++ [port]).filter (inMask conf.enabledPortMask) := by
        rw [hs.started, List.filter_append]
        simp [hon]
      rw [createDefaultIpsecFlow]
      split
      · rename_i hno
        refine ⟨by rw [hs.keeps], ?_, hstarted⟩
        intro p
        rw [hreq] at hno
        show s'.rxDefFlow p = true ↔ _
        rw [hs.flows, hin]
        refine or_congr_right ⟨fun h => ⟨.inl h.1, h.2⟩, ?_⟩
        rintro ⟨hp | rfl, hen, hsec, hflow⟩
        · exact ⟨hp, hen, hsec, hflow⟩
        · exact absurd hno hsec
      · rename_i hsec
        rw [hreq] at hsec
        split
        · rename_i hflow
          refine ⟨by rw [hs.keeps], ?_, hstarted⟩
          intro p
          show Function.update s'.rxDefFlow port true p = true ↔ _
          by_cases hp : p = port
          · subst hp
            rw [Function.update_self, hin]
            exact iff_of_true rfl (.inr ⟨.inr rfl, hon, hsec, hflow⟩)
          · rw [Function.update_of_ne hp, hs.flows, hin]
            simp [hp]
        · rename_i hflow
          refine ⟨by rw [hs.keeps], ?_, hstarted⟩
          intro p
          show s'.rxDefFlow p = true ↔ _
          rw [hs.flows, hin]
          refine or_congr_right ⟨fun h => ⟨.inl h.1, h.2⟩, ?_⟩
          rintro ⟨hp | rfl, hen, hsec', hflow'⟩
          · exact ⟨hp, hen, hsec', hflow'⟩
          · exact absurd hflow' hflow
    · cases h

/-- **ALL PORTS** are started. -/
theorem foldlM_startOne {s s' : Started} (h : dev.ports.foldlM (startOne dev conf) s = some s') :
    Starts dev conf dev.ports s s' := by
  have hinit : Starts dev conf [] s s := ⟨rfl, fun p => by simp, by simp⟩
  obtain ⟨done, hdone, hs⟩ := foldlM_inv (P := fun todo s' => ∃ done, done ++ todo = dev.ports
    ∧ Starts dev conf done s s') h ⟨[], rfl, hinit⟩ (by
      rintro port todo t t' ⟨done, hdone, ht⟩ hone
      refine ⟨done ++ [port], ?_, startOne_starts ht hone⟩
      rw [← hdone, List.append_assoc, List.singleton_append])
  rw [List.append_nil] at hdone
  exact hdone ▸ hs

/-! ## The queues -/

/-- What the EAL and the drivers promise: there are at most `RTE_MAX_ETHPORTS` ports,
    each lcore is there once, and a queue is set up only on a port that has been
    configured with it. -/
structure Laws (dev : EthDevices) (conf : StartConf) : Prop where
  ports : ∀ p ∈ dev.ports, p.toNat < 32
  lcores : conf.lcores.Nodup
  next : conf.nextLcore ∈ conf.lcores
  rx : ∀ p nb q, dev.rxQueueSetup p nb q = true → q < nb
  tx : ∀ p nb q, dev.txQueueSetup p nb q = true → q < nb

/-- What a start went through. -/
structure Passed (dev : EthDevices) (conf : StartConf) (sas : SaLists) (st : Started) :
    Prop where
  poll : checkPollModeParams dev conf = true
  event : checkEventModeParams dev conf sas = some st.lcoreParams
  rxQueues : initLcoreRxQueues (fun _ => []) st.lcoreParams = some st.rxQueues
  configured : ∃ s, Configured dev { conf with lcoreParams := st.lcoreParams } sas
    st.lcoreParams st.rxQueues dev.ports s ∧ Starts dev conf dev.ports (setOffloads conf s) st

theorem startPorts_passed (laws : Laws dev conf) {st : Started}
    (h : startPorts dev conf sas = some st) : Passed dev conf sas st := by
  rw [startPorts] at h
  split at h
  · cases h
  split at h
  · cases h
  rename_i hpoll
  obtain ⟨ps, hevent, h⟩ := Option.bind_eq_some_iff.mp h
  obtain ⟨rxq, hrx, h⟩ := Option.bind_eq_some_iff.mp h
  obtain ⟨s, hinit, hstart⟩ := Option.bind_eq_some_iff.mp h
  have hconf : Configured dev { conf with lcoreParams := ps } sas ps rxq dev.ports s :=
    foldlM_initOne laws.lcores laws.ports hinit
  have hst := foldlM_startOne hstart
  have hps : st.lcoreParams = ps := by
    rw [hst.keeps]
    exact hconf.params
  have hq : st.rxQueues = rxq := by
    rw [hst.keeps]
    exact hconf.queues
  refine ⟨by simpa using hpoll, ?_, ?_, s, ?_, hst⟩
  · rw [hps]
    exact hevent
  · rw [hps, hq]
    exact hrx
  · rw [hps, hq]
    exact hconf

/-- No port named on the command line is owned by another device. -/
def Unowned (dev : EthDevices) (conf : StartConf) : Prop :=
  ∀ e ∈ conf.lcoreParams, dev.isValidPort e.portId = true → e.portId ∈ dev.ports

/-- Every entry names a lcore and a port that are enabled. -/
theorem Passed.entries (laws : Laws dev conf) (hunowned : Unowned dev conf) {st : Started}
    (h : Passed dev conf sas st) {e : LcoreParams} (he : e ∈ st.lcoreParams) :
    e.lcoreId ∈ conf.lcores ∧ inMask conf.enabledPortMask e.portId = true
      ∧ e.portId ∈ dev.ports := by
  have hevent := h.event
  have hpoll := h.poll
  rw [checkEventModeParams] at hevent
  rw [checkPollModeParams] at hpoll
  by_cases hmode : conf.eventMode = true
  · rw [if_neg (by simp [hmode])] at hevent
    split at hevent
    · cases hevent
    split at hevent
    · cases hevent
    rw [← Option.some.inj hevent] at he
    obtain ⟨port, hport, rfl⟩ := List.mem_map.mp he
    obtain ⟨hin, hen⟩ := List.mem_filter.mp hport
    exact ⟨laws.next, hen, hin⟩
  · rw [if_pos (by simp [hmode])] at hevent
    split at hevent
    · cases hevent
    rw [← Option.some.inj hevent] at he
    rw [Bool.eq_false_of_not_eq_true hmode, Bool.false_or, Bool.and_eq_true] at hpoll
    have hentry := List.all_eq_true.mp hpoll.2 e he
    obtain ⟨⟨hlcore, hen⟩, hvalid⟩ : (e.lcoreId ∈ conf.lcores
        ∧ inMask conf.enabledPortMask e.portId = true) ∧ dev.isValidPort e.portId = true := by
      simpa using hentry
    exact ⟨hlcore, hen, hunowned e he hvalid⟩

theorem count_onPort (port : UInt16) (q : UInt8) (l : List (UInt16 × UInt8)) :
    (onPort port l).count q = l.count (port, q) := by
  induction l with
  | nil => rfl
  | cons x l ih =>
      obtain ⟨p, q'⟩ := x
      rw [List.count_cons, ← ih]
      by_cases hp : p = port
      · subst hp
        simp [onPort, List.count_cons]
      · simp [onPort, hp]

/-- The same for the queues of all lcores. -/
theorem count_flatMap_onPort (port : UInt16) (q : UInt8) (rxq : RxQueues) (ls : List UInt8) :
    (ls.flatMap fun l => onPort port (rxq l)).count q = (ls.flatMap rxq).count (port, q) := by
  induction ls with
  | nil => rfl
  | cons l ls ih =>
      rw [List.flatMap_cons, List.flatMap_cons, List.count_append, List.count_append, ih,
        count_onPort]

/-- A port with the queues its lcores use. -/
structure Serves (conf : StartConf) (st : Started) (p : UInt16) (s : PortState) : Prop where
  /-- what a lcore polls is there, set up as often as it is named -/
  rx : ∀ l q, (p, q) ∈ st.rxQueues l →
    q < s.nbRxQueue ∧ s.rxQueues.count q = (st.lcoreParams.map pair).count (p, q)
  /-- a lcore sends through a queue that has been set up -/
  tx : ∀ l ∈ conf.lcores, st.txQueueId l p ∈ s.txQueues ∧ st.txQueueId l p < s.nbTxQueue
  /-- and no other lcore does -/
  own : ∀ l ∈ conf.lcores, ∀ l' ∈ conf.lcores, st.txQueueId l p = st.txQueueId l' p → l = l'

/-- **EVERY QUEUE HAS ITS OWNER**: the lcores together poll the queues named on the
    command line, as often as they are named, and a lcore that is not enabled polls
    none; every port enabled serves its lcores. -/
theorem queues_owned (laws : Laws dev conf) (hunowned : Unowned dev conf) {st : Started}
    (h : startPorts dev conf sas = some st) :
    (conf.lcores.flatMap st.rxQueues).Perm (st.lcoreParams.map pair)
      ∧ (∀ l, l ∉ conf.lcores → st.rxQueues l = [])
      ∧ (∀ l, ∀ q ∈ st.rxQueues l,
        q.1 ∈ dev.ports ∧ inMask conf.enabledPortMask q.1 = true)
      ∧ ∀ p ∈ dev.ports, inMask conf.enabledPortMask p = true →
        ∃ s, st.ports p = some s ∧ Serves conf st p s := by
  have hpass := startPorts_passed laws h
  have hperm := rxQueues_perm hpass.rxQueues laws.lcores fun e he =>
    (hpass.entries laws hunowned he).1
  have hmine : ∀ l, ∀ q ∈ st.rxQueues l, ∃ e ∈ st.lcoreParams, e.lcoreId = l ∧ pair e = q := by
    intro l q hq
    rw [initLcoreRxQueues_eq hpass.rxQueues l, List.nil_append] at hq
    obtain ⟨e, he, rfl⟩ := List.mem_map.mp hq
    obtain ⟨hin, hl⟩ := List.mem_filter.mp he
    exact ⟨e, hin, of_decide_eq_true hl, rfl⟩
  refine ⟨hperm, ?_, ?_, ?_⟩
  · intro l hl
    rw [List.eq_nil_iff_forall_not_mem]
    intro q hq
    obtain ⟨e, he, rfl, -⟩ := hmine l q hq
    exact hl (hpass.entries laws hunowned he).1
  · intro l q hq
    obtain ⟨e, he, -, rfl⟩ := hmine l q hq
    exact (hpass.entries laws hunowned he).2.symm
  · intro p hp hen
    obtain ⟨s, hconf, hstart⟩ := hpass.configured
    obtain ⟨ps, info, -, hps, -, hset⟩ := hconf.setUp p hp hen
    have hports : st.ports p = some ps := by
      rw [hstart.keeps]
      exact hps
    have hids : ∀ l ∈ conf.lcores, st.txQueueId l p = UInt16.ofNat (conf.lcores.idxOf l) := by
      rw [hstart.keeps]
      exact hset.queueId
    have hcount : ∀ q, ps.rxQueues.count q = (st.lcoreParams.map pair).count (p, q) := by
      intro q
      rw [hset.rx, count_flatMap_onPort]
      exact hperm.count_eq _
    refine ⟨ps, hports, ?_, ?_, ?_⟩
    · intro l q hq
      refine ⟨?_, hcount q⟩
      obtain ⟨e, he, -, hpair⟩ := hmine l _ hq
      have hpos : 0 < ps.rxQueues.count q := by
        rw [hcount, List.count_pos_iff, ← hpair]
        exact List.mem_map_of_mem he
      exact laws.rx p _ q (hset.rxSetup q (List.count_pos_iff.mp hpos))
    · intro l hl
      have hin : st.txQueueId l p ∈ ps.txQueues := by
        rw [hids l hl, hset.tx]
        exact List.mem_map_of_mem (List.mem_range.mpr (List.idxOf_lt_length_of_mem hl))
      exact ⟨hin, laws.tx p _ _ (hset.txSetup _ hin)⟩
    · intro l hl l' hl' he
      rw [hids l hl, hids l' hl'] at he
      -- there are at most 256 lcores
      have hfew : conf.lcores.length ≤ 256 := by
        have := (List.nodup_map_iff fun _ _ h => UInt8.toNat_inj.mp h).mpr laws.lcores
        have hsub : (conf.lcores.map UInt8.toNat) ⊆ List.range 256 := by
          intro n hn
          obtain ⟨l, -, rfl⟩ := List.mem_map.mp hn
          exact List.mem_range.mpr l.toNat_lt
        simpa using (List.subperm_of_subset this hsub).length_le
      have hsmall : ∀ l ∈ conf.lcores, conf.lcores.idxOf l < 65536 := by
        intro l hl
        have := List.idxOf_lt_length_of_mem hl
        omega
      have heq := congrArg UInt16.toNat he
      rw [UInt16.toNat_ofNat', UInt16.toNat_ofNat', Nat.mod_eq_of_lt (hsmall l hl),
        Nat.mod_eq_of_lt (hsmall l' hl')] at heq
      exact (List.idxOf_inj hl).mp heq

/-- Two ports that can do everything and take any flow. -/
def twoPorts : EthDevices where
  ports := [0, 1]
  isValidPort := fun p => p == 0 || p == 1
  devInfo := fun _ => some ⟨16, 16, 0xffff, 0x3ffff⟩
  macaddr := fun _ => some 0
  configure := fun _ _ _ => true
  adjustDesc := fun _ => true
  rxQueueSetup := fun _ nb q => decide (q < nb)
  txQueueSetup := fun _ nb q => decide (q < nb)
  start := fun _ => true
  flow := fun _ => true

/-- Lcore 1 polls both ports, lcore 2 a second queue of port 1. -/
def twoConf : StartConf where
  eventMode := false
  schedTypeSet := false
  configGiven := true
  lcoreParams := [⟨0, 0, 1⟩, ⟨1, 0, 1⟩, ⟨1, 1, 2⟩]
  enabledPortMask := 3
  unprotectedPortMask := 2
  devRxOffload := 0xffffffffffffffff
  devTxOffload := 0xffffffffffffffff
  mtuSize := 1500
  frameBufSize := 2176
  fragTblSz := 0
  lcores := [0, 1, 2]
  nextLcore := 1

/-- Inline SAs on port 1. -/
def twoSas : SaLists where
  saIn := [{ (default : IpsecSa) with primary := { type := .inlineCrypto }, portid := 1 }]
  saOut := [{ (default : IpsecSa) with
    primary := { type := .inlineProtocol }, portid := 1, mss := 1400 }]

theorem twoPorts_laws : Laws twoPorts twoConf where
  ports := by simp [twoPorts]
  lcores := by decide
  next := by decide
  rx := fun _ _ _ h => of_decide_eq_true h
  tx := fun _ _ _ h => of_decide_eq_true h

theorem twoPorts_unowned : Unowned twoPorts twoConf := by
  simp [Unowned, twoPorts, twoConf]

theorem startPorts_two : ∃ st, startPorts twoPorts twoConf twoSas = some st :=
  Option.isSome_iff_exists.mp (by decide +kernel)

theorem queues_owned_two : ∃ st, startPorts twoPorts twoConf twoSas = some st
    ∧ (twoConf.lcores.flatMap st.rxQueues).Perm (st.lcoreParams.map pair)
    ∧ (∀ l, l ∉ twoConf.lcores → st.rxQueues l = [])
    ∧ (∀ l, ∀ q ∈ st.rxQueues l,
      q.1 ∈ twoPorts.ports ∧ inMask twoConf.enabledPortMask q.1 = true)
    ∧ ∀ p ∈ twoPorts.ports, inMask twoConf.enabledPortMask p = true →
      ∃ s, st.ports p = some s ∧ Serves twoConf st p s := by
  obtain ⟨st, h⟩ := startPorts_two
  exact ⟨st, h, queues_owned twoPorts_laws twoPorts_unowned h⟩

/-! ## The offloads -/

/-- A flag that one of many asks for. -/
theorem foldl_or_flag {α : Type} (f : α → UInt64) (flag : UInt64) (l : List α) (acc : UInt64) :
    (l.foldl (fun acc x => acc ||| f x) acc) &&& flag ≠ 0
      ↔ acc &&& flag ≠ 0 ∨ ∃ x ∈ l, f x &&& flag ≠ 0 := by
  induction l generalizing acc with
  | nil => simp
  | cons x l ih =>
      rw [List.foldl_cons, ih, Handling.or_and, ne_eq, UInt64.or_eq_zero_iff]
      simp only [List.exists_mem_cons_iff]
      tauto

/-- A flag among others is there. -/
theorem or_flag_left {a b flag : UInt64} (h : a &&& flag ≠ 0) : (a ||| b) &&& flag ≠ 0 := by
  rw [Handling.or_and, ne_eq, UInt64.or_eq_zero_iff]
  exact fun hz => h hz.1

theorem or_flag_right {a b flag : UInt64} (h : b &&& flag ≠ 0) : (a ||| b) &&& flag ≠ 0 := by
  rw [UInt64.or_comm]
  exact or_flag_left h

/-- Who asks for what can be done asks for what can be done. -/
theorem capable_of_asked {asked capa flag : UInt64} (h : asked &&& capa = asked)
    (hflag : asked &&& flag ≠ 0) : capa &&& flag ≠ 0 := by
  intro hzero
  rw [← h, UInt64.and_assoc, hzero, UInt64.and_zero] at hflag
  exact hflag rfl

/-- **RX**: security is asked for on the ports of inline SAs. -/
theorem reqRx_security (saIn : List IpsecSa) (port : UInt16) :
    reqRxOffloads saIn port &&& rxOffloadSecurity ≠ 0
      ↔ ∃ rule ∈ saIn, isInline rule.primary = true ∧ rule.portid = port := by
  rw [reqRxOffloads, foldl_or_flag]
  have hone : ∀ rule, rxOffload port rule &&& rxOffloadSecurity ≠ 0
      ↔ isInline rule.primary = true ∧ rule.portid = port := by
    intro rule
    rw [rxOffload]
    by_cases h : (isInline rule.primary && rule.portid == port) = true
    · rw [if_pos h]
      refine iff_of_true (by decide) (by simpa using h)
    · rw [if_neg h]
      refine iff_of_false (by decide) (by simpa using h)
  simp [hone]

/-- **TX**: an outbound SA on its own port. -/
theorem txOffload_inline {info : EthDevInfo} {rule : IpsecSa}
    (h : isInline rule.primary = true) :
    txOffload info rule.portid rule &&& txOffloadSecurity ≠ 0
      ∧ (rule.mss ≠ 0 → txOffload info rule.portid rule &&& txOffloadTcpTso ≠ 0) := by
  have hsec : txOffloadSecurity &&& txOffloadSecurity ≠ 0 := by decide
  have htso : txOffloadTcpTso &&& txOffloadTcpTso ≠ 0 := by decide
  rw [txOffload, if_pos rfl]
  cases htype : rule.primary.type with
  | inlineProtocol =>
      refine ⟨or_flag_left hsec, fun hmss => ?_⟩
      rw [if_pos hmss]
      exact or_flag_right (or_flag_left htso)
  | inlineCrypto =>
      dsimp only
      refine ⟨or_flag_left (or_flag_left hsec), fun hmss => ?_⟩
      rw [if_pos hmss]
      exact or_flag_left (or_flag_right htso)
  | none =>
      rw [isInline, htype] at h
      cases h
  | lookasideProtocol =>
      rw [isInline, htype] at h
      cases h
  | cpuCrypto =>
      rw [isInline, htype] at h
      cases h

/-- What `rule` asks for is asked for. -/
theorem reqTx_of_rule {saOut : List IpsecSa} {info : EthDevInfo} {port : UInt16}
    {rule : IpsecSa} {flag : UInt64} (hin : rule ∈ saOut)
    (h : txOffload info port rule &&& flag ≠ 0) :
    reqTxOffloads saOut info port &&& flag ≠ 0 := by
  rw [reqTxOffloads, foldl_or_flag]
  exact .inr ⟨rule, hin, h⟩

/-- A port that does what it has been asked for, as far as the user lets it. -/
structure Does (dev : EthDevices) (conf : StartConf) (st : Started) (p : UInt16)
    (rx tx : UInt64) : Prop where
  port : ∃ s, st.ports p = some s ∧ (rx ≠ 0 → s.rxOffloads &&& rx ≠ 0)
    ∧ (tx ≠ 0 → s.txOffloads &&& tx ≠ 0)
  able : ∃ info, dev.devInfo p = some info
    ∧ (rx ≠ 0 → info.rxOffloadCapa &&& conf.devRxOffload &&& rx ≠ 0)
    ∧ (tx ≠ 0 → info.txOffloadCapa &&& conf.devTxOffload &&& tx ≠ 0)

/-- **WHAT IS ASKED FOR** is configured. -/
theorem Passed.does {st : Started} (h : Passed dev conf sas st) {p : UInt16}
    (hp : p ∈ dev.ports) (hen : inMask conf.enabledPortMask p = true) {rx tx : UInt64}
    (hrx : rx ≠ 0 → reqRxOffloads sas.saIn p &&& rx ≠ 0)
    (htx : ∀ info, dev.devInfo p = some info → tx ≠ 0 →
      reqTxOffloads sas.saOut info p &&& tx ≠ 0) : Does dev conf st p rx tx := by
  obtain ⟨s, hconf, hstart⟩ := h.configured
  obtain ⟨ps, info, hinfo, hps, -, hset⟩ := hconf.setUp p hp hen
  have hports : st.ports p = some ps := by
    rw [hstart.keeps]
    exact hps
  obtain ⟨info', hinfo', hablerx, habletx⟩ := hset.able
  obtain rfl := Option.some.inj (hinfo'.symm.trans hinfo)
  obtain ⟨more, hmore⟩ := hset.txOffloads
  have hasked : rx ≠ 0 → ps.rxOffloads &&& rx ≠ 0 := by
    intro h0
    rw [hset.rxOffloads]
    exact or_flag_right (hrx h0)
  refine ⟨⟨ps, hports, hasked, ?_⟩, info', hinfo, ?_, ?_⟩
  · intro h0
    rw [hmore]
    exact or_flag_left (or_flag_right (htx info' hinfo h0))
  · exact fun h0 => capable_of_asked hablerx (hasked h0)
  · exact fun h0 => capable_of_asked habletx (or_flag_right (htx info' hinfo h0))

/-- The checksum is left to the NIC when all ports enabled can compute it. -/
theorem Passed.cksum {st : Started} (h : Passed dev conf sas st) :
    st.ipv4Offloads &&& txIpCksum ≠ 0
      ↔ ∀ p : UInt16, p.toNat < 32 → inMask conf.enabledPortMask p = true →
        p ∈ dev.ports ∧ Checksums dev sas p := by
  obtain ⟨s, hconf, hstart⟩ := h.configured
  have hoff : st.ipv4Offloads
      = txIpv4 ||| if s.cksumPortMask = conf.enabledPortMask then txIpCksum else 0 := by
    rw [hstart.keeps]
    rfl
  have hmask : st.ipv4Offloads &&& txIpCksum ≠ 0
      ↔ s.cksumPortMask = conf.enabledPortMask := by
    rw [hoff]
    split
    · rename_i heq
      exact iff_of_true (by decide) heq
    · rename_i hne
      exact iff_of_false (by decide) hne
  rw [hmask]
  constructor
  · intro heq p hlt hen
    have hen' := hen
    rw [← heq] at hen'
    obtain ⟨hp, -, hck⟩ := (hconf.mask p hlt).mp hen'
    exact ⟨hp, hck⟩
  · intro hall
    refine mask_ext fun p hlt => ?_
    rw [Bool.eq_iff_iff, hconf.mask p hlt]
    exact ⟨fun h => h.2.1, fun hen => ⟨(hall p hlt hen).1, hen, (hall p hlt hen).2⟩⟩

/-- **PACKETS RELY ON WHAT IS CONFIGURED**: the port of an inline SA has been
    configured for it, and can do it; the default flow is for ports with an inbound
    one; and the checksum of a packet is left to the NIC when all ports enabled
    have been configured to compute it. -/
theorem offloads_configured (laws : Laws dev conf) {st : Started}
    (h : startPorts dev conf sas = some st) :
    (∀ rule ∈ sas.saIn, isInline rule.primary = true → rule.portid ∈ dev.ports →
        inMask conf.enabledPortMask rule.portid = true →
        Does dev conf st rule.portid rxOffloadSecurity 0)
      ∧ (∀ rule ∈ sas.saOut, isInline rule.primary = true → rule.portid ∈ dev.ports →
        inMask conf.enabledPortMask rule.portid = true →
        Does dev conf st rule.portid 0 txOffloadSecurity
          ∧ (rule.mss ≠ 0 → Does dev conf st rule.portid 0 txOffloadTcpTso))
      ∧ (∀ p, st.rxDefFlow p = true ↔ p ∈ dev.ports ∧ inMask conf.enabledPortMask p = true
        ∧ (∃ rule ∈ sas.saIn, isInline rule.primary = true ∧ rule.portid = p)
        ∧ dev.flow p = true)
      ∧ ∀ (tx : TxConf) (m : Mbuf), tx.ipv4Offloads = st.ipv4Offloads →
        m.olFlags &&& txIpCksum = 0 →
        (Offloaded tx m ↔ ∀ p : UInt16, p.toNat < 32 → inMask conf.enabledPortMask p = true →
          p ∈ dev.ports ∧ Checksums dev sas p)
        ∧ (Offloaded tx m → ∀ p : UInt16, p.toNat < 32 →
          inMask conf.enabledPortMask p = true → Does dev conf st p 0 txOffloadIpv4Cksum) := by
  have hpass := startPorts_passed laws h
  have hzero : ∀ {P : Prop}, (0 : UInt64) ≠ 0 → P := fun h => absurd rfl h
  refine ⟨?_, ?_, ?_, ?_⟩
  · intro rule hin hinline hp hen
    exact hpass.does hp hen (fun _ => (reqRx_security _ _).mpr ⟨rule, hin, hinline, rfl⟩)
      fun _ _ h => hzero h
  · intro rule hin hinline hp hen
    refine ⟨hpass.does hp hen hzero fun info _ _ => ?_, fun hmss =>
      hpass.does hp hen hzero fun info _ _ => ?_⟩
    · exact reqTx_of_rule hin (txOffload_inline hinline).1
    · exact reqTx_of_rule hin ((txOffload_inline hinline).2 hmss)
  · intro p
    obtain ⟨s, hconf, hstart⟩ := hpass.configured
    have hfresh : (setOffloads conf s).rxDefFlow p = false := hconf.fresh.2 p
    rw [hstart.flows, hfresh]
    constructor
    · rintro (hfalse | ⟨hp, hen, hsec, hflow⟩)
      · cases hfalse
      · obtain ⟨-, -, -, -, hreq, -⟩ := hconf.setUp p hp hen
        have hsec : s.reqRx p &&& rxOffloadSecurity ≠ 0 := hsec
        rw [hreq] at hsec
        exact ⟨hp, hen, (reqRx_security _ _).mp hsec, hflow⟩
    · rintro ⟨hp, hen, hrule, hflow⟩
      obtain ⟨-, -, -, -, hreq, -⟩ := hconf.setUp p hp hen
      refine .inr ⟨hp, hen, ?_, hflow⟩
      show s.reqRx p &&& rxOffloadSecurity ≠ 0
      rw [hreq]
      exact (reqRx_security _ _).mpr hrule
  · intro tx m htx hm
    have hleft : Offloaded tx m ↔ st.ipv4Offloads &&& txIpCksum ≠ 0 := by
      rw [Offloaded, Handling.or_and, hm, UInt64.zero_or, htx]
    rw [hleft, hpass.cksum]
    refine ⟨Iff.rfl, fun hall p hlt hen => ?_⟩
    obtain ⟨hp, info, hinfo, hck⟩ := hall p hlt hen
    refine hpass.does hp hen hzero fun info' hinfo' _ => ?_
    obtain rfl := Option.some.inj (hinfo'.symm.trans hinfo)
    exact hck

theorem offloads_configured_two : ∃ st, startPorts twoPorts twoConf twoSas = some st
    ∧ Does twoPorts twoConf st 1 rxOffloadSecurity 0
    ∧ Does twoPorts twoConf st 1 0 txOffloadTcpTso := by
  obtain ⟨st, h⟩ := startPorts_two
  obtain ⟨hin, hout, -⟩ := offloads_configured twoPorts_laws h
  refine ⟨st, h, ?_, ?_⟩
  · exact hin _ List.mem_cons_self rfl (by decide) (by decide)
  · exact (hout _ List.mem_cons_self rfl (by decide) (by decide)).2 (by decide)

end PortInit
