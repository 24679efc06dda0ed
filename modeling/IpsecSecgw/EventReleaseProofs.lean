import IpsecSecgw.EventDevProofs

/-! # What is set up is given back

    The event devices, the adapters and the queues of Ethernet ports: what `eh_devs_init`
    takes is one of the things its configuration names, whatever the device answers and
    wherever a function returns early (`devsSetUp_takes`).  `eh_devs_uninit` gives back
    all of these, so nothing is held behind it (`nothing_held`). -/

namespace EventDev

open EventHelper Outcome Calls

variable {drv : EventDriver}

/-! ## Resources -/

/-- What can be held. -/
inductive Resource
  | eventdev (dev : UInt8)
  | rxAdapter (id : Int)
  | rxQueue (id : Int) (eth : UInt8)
  | txAdapter (id : Int)
  | txQueue (id : Int) (eth : UInt8)
  /-- an adapter that runs -/
  | rxRun (id : Int)
  | txRun (id : Int)
  deriving DecidableEq

/-- The resource a call takes, and the one it gives back. -/
def Call.takes : Call → Option Resource
  | .devConfigure dev _ => some (.eventdev dev)
  | .rxCreate id _ _ => some (.rxAdapter id)
  | .rxQueueAdd id eth _ _ => some (.rxQueue id eth)
  | .rxStart id => some (.rxRun id)
  | .txCreate id _ _ => some (.txAdapter id)
  | .txQueueAdd id eth _ => some (.txQueue id eth)
  | .txStart id => some (.txRun id)
  | _ => none

def Call.gives : Call → Option Resource
  | .devClose dev => some (.eventdev dev)
  | .rxFree id => some (.rxAdapter id)
  | .rxQueueDel id eth => some (.rxQueue id eth)
  | .rxStop id => some (.rxRun id)
  | .txFree id => some (.txAdapter id)
  | .txQueueDel id eth => some (.txQueue id eth)
  | .txStop id => some (.txRun id)
  | _ => none

/-- What an entry does to a resource; a call that fails does nothing. -/
def heldEffect (r : Resource) (e : Call × Int) : Option Bool :=
  if e.2 < 0 then none
  else if e.1.takes = some r then some true
  else if e.1.gives = some r then some false
  else none

/-- The resource is held behind all these calls. -/
def Held (t : CallLog) (r : Resource) : Prop := final (heldEffect r) false t = true

/-- What an adapter for Rx needs. -/
def rxResources (a : RxAdapterConf) : List Resource :=
  .rxRun a.adapterId
    :: ((connections a.conns).map (fun conn => .rxQueue a.adapterId conn.ethdevId)
      ++ [.rxAdapter a.adapterId])

/-- What an adapter for Tx needs. -/
def txResources (a : TxAdapterConf) : List Resource :=
  .txRun a.adapterId
    :: ((connections a.conns).map (fun conn => .txQueue a.adapterId conn.ethdevId)
      ++ [.txAdapter a.adapterId])

/-- What a configuration names. -/
def resources (c : EventmodeConf) : List Resource :=
  (rxAdapters c).flatMap rxResources
    ++ (eventdevs c).map (fun d => .eventdev d.eventdevId)
    ++ (txAdapters c).flatMap txResources

/-! ## Taking -/

/-- The calls a part of a program adds take some of these, and give nothing back. -/
def Takes (R : List Resource) (t t' : CallLog) : Prop :=
  ∃ new, t' = t ++ new ∧ ∀ e ∈ new, e.1.gives = none ∧ ∀ r, e.1.takes = some r → r ∈ R

variable {R : List Resource}

theorem Takes.refl (t : CallLog) : Takes R t t :=
  ⟨[], (List.append_nil t).symm, fun _ he => absurd he List.not_mem_nil⟩

theorem Takes.trans {t t' t'' : CallLog} (h : Takes R t t') (h' : Takes R t' t'') :
    Takes R t t'' := by
  obtain ⟨new, rfl, hnew⟩ := h
  obtain ⟨new', rfl, hnew'⟩ := h'
  refine ⟨new ++ new', List.append_assoc .., fun e he => ?_⟩
  exact (List.mem_append.mp he).elim (hnew e) (hnew' e)

/-- One call. -/
theorem ask_takes {c : Call} (hgives : c.gives = none) (htakes : ∀ r, c.takes = some r → r ∈ R)
    (t : CallLog) :
    Takes R t (ask drv.result c t).2 :=
  ⟨[(c, drv.result t c)], rfl, fun _ he => List.mem_singleton.mp he ▸ ⟨hgives, htakes⟩⟩

theorem call_takes (R : List Resource) {c : Call} (hgives : c.gives = none)
    (htakes : ∀ r, c.takes = some r → r ∈ R)
    (t : CallLog) : Ends (call drv c t) (fun _ => True) (Takes R t) := by
  have hmade : Ends (call drv c t) (fun _ => True) (Made (fun _ => True) t [c]) :=
    must_made c t fun _ => trivial
  refine hmade.mono (fun _ h => h) ?_
  rintro _ ⟨new, rfl, hnew, -⟩
  refine ⟨new, rfl, fun e he => ?_⟩
  obtain rfl : e.1 = c := List.mem_singleton.mp (hnew ▸ List.mem_map_of_mem he)
  exact ⟨hgives, htakes⟩

/-- A call that takes nothing. -/
theorem plain_takes (R : List Resource) {c : Call} (hgives : c.gives = none)
    (htakes : c.takes = none) (t : CallLog) : Ends (call drv c t) (fun _ => True) (Takes R t) :=
  call_takes R hgives (fun r hr => by rw [htakes] at hr; cases hr) t

theorem ask_plain (drv : EventDriver) (R : List Resource) {c : Call}
    (hgives : c.gives = none) (htakes : c.takes = none) (t : CallLog) :
    Takes R t (ask drv.result c t).2 :=
  ask_takes hgives (fun r hr => by rw [htakes] at hr; cases hr) t

/-- A loop. -/
theorem foldlM_takes (R : List Resource) {α : Type}
    {f : CallLog → α → Except DevFault CallLog} {l : List α}
    (hf : ∀ a ∈ l, ∀ t, Ends (f t a) (fun _ => True) (Takes R t)) (t : CallLog) :
    Ends (l.foldlM f t) (fun _ => True) (Takes R t) := by
  induction l generalizing t with
  | nil => exact ends_ok (Takes.refl t)
  | cons a l ih =>
      rw [List.foldlM_cons]
      refine (hf a List.mem_cons_self t).bind fun t₁ h => ?_
      refine (ih (fun b hb => hf b (List.mem_cons_of_mem a hb)) t₁).mono (fun _ h => h) ?_
      exact fun t₂ h' => h.trans h'

/-- A function that ends early looks as if it had been done. -/
theorem returns_takes {t t' : CallLog} (ret : Int) (h : Takes R t t') :
    Ends (returns ret t') (fun _ => True) (Takes R t) := by
  rw [returns]
  split
  · exact ends_error trivial
  · exact ends_ok h

/-! ## `eh_devs_init` -/

theorem initializeOne_takes (o : EventOpts) {d : EventdevParams}
    (hd : .eventdev d.eventdevId ∈ R) (t : CallLog) :
    Ends (initializeOne drv o t d) (fun _ => True) (Takes R t) := by
  rw [initializeOne]
  refine (plain_takes R rfl rfl t).bind fun t₁ h₁ => ?_
  refine (call_takes R rfl ?_ t₁).bind fun t₂ h₂ => ?_
  · rintro r ⟨⟩
    exact hd
  refine (foldlM_takes R (fun j _ t => plain_takes R rfl rfl t) t₂).bind fun t₃ h₃ => ?_
  refine (foldlM_takes R (fun j _ t => plain_takes R rfl rfl t) t₃).mono (fun _ h => h) ?_
  exact fun t₄ h₄ => ((h₁.trans h₂).trans h₃).trans h₄

theorem rxConnect_takes (o : EventOpts) (a : RxAdapterConf) (hrun : .rxRun a.adapterId ∈ R)
    {conns : List RxAdapterConnectionInfo}
    (hconns : ∀ conn ∈ conns, .rxQueue a.adapterId conn.ethdevId ∈ R) (t : CallLog) :
    Ends (rxConnect drv o a conns t) (fun _ => True) (Takes R t) := by
  induction conns generalizing t with
  | nil =>
      have hservice := ask_plain drv R (c := .rxServiceIdGet a.adapterId)
        rfl rfl t
      rw [rxConnect]
      split
      · exact ends_error trivial
      · refine (call_takes R rfl ?_ _).mono (fun _ h => h) fun t₁ h => hservice.trans h
        rintro r ⟨⟩
        exact hrun
  | cons conn conns ih =>
      have hlimits : ∀ v, v = (if o.eventVector then
            ehEventVectorLimitsValidate drv o a.eventdevId conn.ethdevId t else (0, t)) →
          Takes R t v.2 := by
        rintro v rfl
        split
        · have hget := ask_plain drv R
            (c := .vectorLimitsGet a.eventdevId conn.ethdevId) rfl rfl t
          rw [ehEventVectorLimitsValidate]
          split
          · exact hget
          split
          · exact hget
          split
          · exact hget
          split
          · exact hget
          · exact hget
        · exact Takes.refl t
      rw [rxConnect]
      generalize hv : (if o.eventVector then
        ehEventVectorLimitsValidate drv o a.eventdevId conn.ethdevId t else (0, t)) = v
      have hv := hlimits v hv.symm
      split
      · exact returns_takes v.1 hv
      · refine (call_takes R rfl ?_ v.2).bind fun t₁ h₁ => ?_
        · rintro r ⟨⟩
          exact hconns conn List.mem_cons_self
        refine (ih (fun c hc => hconns c (List.mem_cons_of_mem conn hc)) t₁).mono
          (fun _ h => h) fun t₂ h₂ => (hv.trans h₁).trans h₂

theorem ehRxAdapterConfigure_takes (o : EventOpts) {a : RxAdapterConf}
    (ha : ∀ r ∈ rxResources a, r ∈ R) (t : CallLog) :
    Ends (ehRxAdapterConfigure drv o t a) (fun _ => True) (Takes R t) := by
  have hpool : ∀ t, Ends (vectorPool drv o t) (fun _ => True) (Takes R t) := by
    intro t
    rw [vectorPool]
    split
    · exact ends_ok (Takes.refl t)
    split
    · exact ends_error trivial
    dsimp only
    split
    · exact ends_error trivial
    · exact ends_ok (ask_plain drv R rfl rfl t)
  rw [ehRxAdapterConfigure]
  refine (plain_takes R rfl rfl t).bind fun t₁ h₁ => ?_
  refine (hpool t₁).bind fun t₂ h₂ => ?_
  refine (call_takes R rfl ?_ t₂).bind fun t₃ h₃ => ?_
  · rintro r ⟨⟩
    exact ha _ (List.mem_cons_of_mem _ (List.mem_append_right _ (List.mem_singleton_self _)))
  refine (rxConnect_takes o a (ha _ List.mem_cons_self) ?_ t₃).mono (fun _ h => h) ?_
  · intro conn hconn
    exact ha _ (List.mem_cons_of_mem _ (List.mem_append_left _ (List.mem_map_of_mem hconn)))
  · exact fun t₄ h₄ => ((h₁.trans h₂).trans h₃).trans h₄

theorem txLink_takes (d : EventdevParams) {a : TxAdapterConf} (hrun : .txRun a.adapterId ∈ R)
    (t : CallLog) : Ends (txLink drv d a t) (fun _ => True) (Takes R t) := by
  have hport := ask_plain drv R (c := .txEventPortGet a.adapterId) rfl rfl t
  have hunlink : ∀ (l : List Nat) t, Takes R t (l.foldl (fun t j =>
      (ask drv.result (.portUnlink a.eventdevId (UInt8.ofNat j) a.txEvQueue) t).2) t) := by
    intro l
    induction l with
    | nil => exact Takes.refl
    | cons j l ih => exact fun t => (ask_plain drv R rfl rfl t).trans (ih _)
  rw [txLink]
  dsimp only
  split
  · exact returns_takes _ hport
  have hunlinked := hport.trans (hunlink (List.range d.nbEventport.toNat) _)
  generalize (List.range d.nbEventport.toNat).foldl _ _ = t₁ at hunlinked ⊢
  have hlinked := hunlinked.trans (ask_plain drv R
    (c := .portLink a.eventdevId (drv.txEventPort a.adapterId) (some a.txEvQueue)) rfl rfl t₁)
  split
  · exact returns_takes _ hlinked
  have hservice := hlinked.trans (ask_plain drv R
    (c := .txServiceIdGet a.adapterId) rfl rfl _)
  split
  · exact ends_error trivial
  · refine (call_takes R rfl ?_ _).mono (fun _ h => h) fun t₂ h => hservice.trans h
    rintro r ⟨⟩
    exact hrun

theorem ehTxAdapterConfigure_takes (c : EventmodeConf) {a : TxAdapterConf}
    (ha : ∀ r ∈ txResources a, r ∈ R) (t : CallLog) :
    Ends (ehTxAdapterConfigure drv c t a) (fun _ => True) (Takes R t) := by
  have hrun : .txRun a.adapterId ∈ R := ha _ List.mem_cons_self
  rw [ehTxAdapterConfigure]
  refine (plain_takes R rfl rfl t).bind fun t₁ h₁ => ?_
  refine (call_takes R rfl ?_ t₁).bind fun t₂ h₂ => ?_
  · rintro r ⟨⟩
    exact ha _ (List.mem_cons_of_mem _ (List.mem_append_right _ (List.mem_singleton_self _)))
  refine (foldlM_takes R (fun conn hconn t => call_takes R rfl ?_ t) t₂).bind fun t₃ h₃ => ?_
  · rintro r ⟨⟩
    exact ha _ (List.mem_cons_of_mem _ (List.mem_append_left _ (List.mem_map_of_mem hconn)))
  have htaken := (h₁.trans h₂).trans h₃
  split
  · refine (call_takes R rfl ?_ t₃).mono (fun _ h => h) fun t₄ h₄ => htaken.trans h₄
    rintro r ⟨⟩
    exact hrun
  · exact (txLink_takes _ hrun t₃).mono (fun _ h => h) fun t₄ h₄ => htaken.trans h₄

theorem ethStops_takes (drv : EventDriver) (R : List Resource) (ports : List Nat) (t : CallLog) :
    Takes R t (ethStops drv ports t).2 := by
  induction ports generalizing t with
  | nil => exact Takes.refl t
  | cons p ports ih =>
      have hstop := ask_plain drv R (c := .ethStop p) rfl rfl t
      rw [ethStops]
      split
      · exact hstop
      · exact hstop.trans (ih _)

/-- **TAKING**: only what the configuration names. -/
theorem devsSetUp_takes (mask : UInt32) (o : EventOpts) (c : EventmodeConf) (t : CallLog) :
    Ends (devsSetUp drv mask o c t) (fun _ => True) (Takes (resources c) t) := by
  have hstops := ethStops_takes drv (resources c) (ethPorts drv mask) t
  rw [devsSetUp]
  split
  · exact returns_takes _ hstops
  have hinit : Ends (ehInitializeEventdev drv o c (ethStops drv (ethPorts drv mask) t).2)
      (fun _ => True) (Takes (resources c) (ethStops drv (ethPorts drv mask) t).2) := by
    rw [ehInitializeEventdev]
    refine (foldlM_takes (resources c)
      (fun d hd t => initializeOne_takes o ?_ t) _).bind fun t₁ h₁ => ?_
    · exact List.mem_append_left _ (List.mem_append_right _ (List.mem_map_of_mem hd))
    refine (foldlM_takes (resources c) (fun l _ t => ?_) t₁).mono (fun _ h => h)
      fun t₂ h₂ => h₁.trans h₂
    exact plain_takes _ rfl rfl t
  refine hinit.bind fun t₁ h₁ => ?_
  refine (foldlM_takes (resources c) (fun a ha t => ehRxAdapterConfigure_takes o ?_ t) t₁).bind
    fun t₂ h₂ => ?_
  · intro r hr
    exact List.mem_append_left _ (List.mem_append_left _ (List.mem_flatMap.mpr ⟨a, ha, hr⟩))
  refine (foldlM_takes (resources c) (fun a ha t => ehTxAdapterConfigure_takes c ?_ t) t₂).bind
    fun t₃ h₃ => ?_
  · intro r hr
    exact List.mem_append_right _ (List.mem_flatMap.mpr ⟨a, ha, hr⟩)
  refine (foldlM_takes (resources c) (fun d _ t => plain_takes _ rfl rfl t) t₃).bind fun t₄ h₄ => ?_
  refine (foldlM_takes (resources c)
    (fun p _ t => plain_takes _ rfl rfl t) t₄).mono (fun _ h => h) ?_
  exact fun t₅ h₅ => ((((hstops.trans h₁).trans h₂).trans h₃).trans h₄).trans h₅

/-! ## Giving back -/

/-- A call that gives something back has gone well. -/
def GivenBack (e : Call × Int) : Prop := e.1.gives ≠ none → 0 ≤ e.2

/-- An adapter for Rx. -/
def rxReleaseCalls (a : RxAdapterConf) : List Call :=
  [.rxStop a.adapterId]
    ++ (connections a.conns).flatMap (fun conn => [.rxQueueDel a.adapterId conn.ethdevId])
    ++ [.rxFree a.adapterId]

/-- An adapter for Tx. -/
def txReleaseCalls (a : TxAdapterConf) : List Call :=
  [.txStop a.adapterId]
    ++ (connections a.conns).flatMap (fun conn => [.txQueueDel a.adapterId conn.ethdevId])
    ++ [.txFree a.adapterId]

/-- The calls of `eh_devs_uninit`. -/
def releaseCalls (c : EventmodeConf) : List Call :=
  (rxAdapters c).flatMap rxReleaseCalls
    ++ (eventdevs c).flatMap (fun d => [.devStop d.eventdevId, .devClose d.eventdevId])
    ++ (txAdapters c).flatMap txReleaseCalls

theorem call_given (c : Call) (t : CallLog) :
    Ends (call drv c t) (fun _ => True) (Made GivenBack t [c]) :=
  must_made c t fun hret _ => hret

/-- A loop of them. -/
theorem calls_given {α : Type} (f : α → Call) (l : List α) (t : CallLog) :
    Ends (l.foldlM (fun t x => call drv (f x) t) t) (fun _ => True)
      (Made GivenBack t (l.flatMap fun x => [f x])) :=
  foldlM_made (fun t x => call_given (f x) t) l t

theorem rxRelease_given (t : CallLog) (a : RxAdapterConf) :
    Ends (rxRelease drv t a) (fun _ => True) (Made GivenBack t (rxReleaseCalls a)) := by
  rw [rxRelease]
  refine (call_given _ t).bind fun t₁ h₁ => ?_
  refine (calls_given _ _ t₁).bind fun t₂ h₂ => ?_
  exact (call_given _ t₂).mono (fun _ h => h) fun t₃ h₃ => (h₁.trans h₂).trans h₃

theorem txRelease_given (t : CallLog) (a : TxAdapterConf) :
    Ends (txRelease drv t a) (fun _ => True) (Made GivenBack t (txReleaseCalls a)) := by
  rw [txRelease]
  refine (call_given _ t).bind fun t₁ h₁ => ?_
  refine (calls_given _ _ t₁).bind fun t₂ h₂ => ?_
  exact (call_given _ t₂).mono (fun _ h => h) fun t₃ h₃ => (h₁.trans h₂).trans h₃

theorem devRelease_given (t : CallLog) (d : EventdevParams) :
    Ends (devRelease drv t d) (fun _ => True)
      (Made GivenBack t [.devStop d.eventdevId, .devClose d.eventdevId]) := by
  have hstop : Made GivenBack t [.devStop d.eventdevId]
      (ask drv.result (.devStop d.eventdevId) t).2 := ask_made _ t fun h => absurd rfl h
  rw [devRelease]
  exact (call_given _ _).mono (fun _ h => h) fun t₁ h => hstop.trans h

/-- **GIVING BACK** all that the configuration names. -/
theorem ehDevsUninit_given {conf : EhConf} {c : EventmodeConf} (hmode : conf.mode = .event)
    (hc : conf.modeParams = some c) (t : CallLog) :
    Ends (ehDevsUninit drv conf t) (fun _ => True) (Made GivenBack t (releaseCalls c)) := by
  rw [ehDevsUninit, if_neg (not_not_intro hmode), hc]
  refine (foldlM_made rxRelease_given _ t).bind fun t₁ h₁ => ?_
  refine (foldlM_made devRelease_given _ t₁).bind fun t₂ h₂ => ?_
  refine (foldlM_made txRelease_given _ t₂).mono (fun _ h => h) fun t₃ h₃ => ?_
  exact (h₁.trans h₂).trans h₃

/-- These calls take nothing. -/
theorem releaseCalls_takes {c : EventmodeConf} {x : Call} (hx : x ∈ releaseCalls c) :
    x.takes = none := by
  simp only [releaseCalls, rxReleaseCalls, txReleaseCalls, List.mem_append, List.mem_flatMap,
    List.mem_cons, List.not_mem_nil, or_false] at hx
  rcases hx with (⟨a, -, (rfl | ⟨conn, -, rfl⟩) | rfl⟩ | ⟨d, -, rfl | rfl⟩)
    | ⟨a, -, (rfl | ⟨conn, -, rfl⟩) | rfl⟩ <;> rfl

/-- And there is one for each resource. -/
theorem releaseCalls_gives {c : EventmodeConf} {r : Resource} (hr : r ∈ resources c) :
    ∃ x ∈ releaseCalls c, x.gives = some r := by
  simp only [resources, rxResources, txResources, List.mem_append, List.mem_flatMap,
    List.mem_cons, List.mem_map, List.not_mem_nil, or_false] at hr
  simp only [releaseCalls, rxReleaseCalls, txReleaseCalls, List.mem_append, List.mem_flatMap,
    List.mem_cons, List.not_mem_nil, or_false]
  rcases hr with (⟨a, ha, rfl | ⟨conn, hconn, rfl⟩ | rfl⟩ | ⟨d, hd, rfl⟩)
    | ⟨a, ha, rfl | ⟨conn, hconn, rfl⟩ | rfl⟩
  · exact ⟨.rxStop a.adapterId, .inl (.inl ⟨a, ha, .inl (.inl rfl)⟩), rfl⟩
  · exact ⟨.rxQueueDel a.adapterId conn.ethdevId,
      .inl (.inl ⟨a, ha, .inl (.inr ⟨conn, hconn, rfl⟩)⟩), rfl⟩
  · exact ⟨.rxFree a.adapterId, .inl (.inl ⟨a, ha, .inr rfl⟩), rfl⟩
  · exact ⟨.devClose d.eventdevId, .inl (.inr ⟨d, hd, .inr rfl⟩), rfl⟩
  · exact ⟨.txStop a.adapterId, .inr ⟨a, ha, .inl (.inl rfl)⟩, rfl⟩
  · exact ⟨.txQueueDel a.adapterId conn.ethdevId,
      .inr ⟨a, ha, .inl (.inr ⟨conn, hconn, rfl⟩)⟩, rfl⟩
  · exact ⟨.txFree a.adapterId, .inr ⟨a, ha, .inr rfl⟩, rfl⟩

/-! ## Both -/

variable {r : Resource} {e : Call × Int}

/-- A call that takes something else does nothing to a resource. -/
theorem heldEffect_other (hgives : e.1.gives = none) (htakes : e.1.takes ≠ some r) :
    heldEffect r e = none := by
  have hnot : e.1.gives ≠ some r := by simp [hgives]
  rw [heldEffect, if_neg htakes, if_neg hnot, ite_self]

/-- A call that takes nothing leaves a resource as it is, or free. -/
theorem heldEffect_back (htakes : e.1.takes = none) :
    heldEffect r e = none ∨ heldEffect r e = some false := by
  have hnot : e.1.takes ≠ some r := by simp [htakes]
  rw [heldEffect, if_neg hnot]
  split
  · exact .inl rfl
  split
  · exact .inr rfl
  · exact .inl rfl

/-- A call that gives it back, and goes well. -/
theorem heldEffect_given (htakes : e.1.takes = none) (hgives : e.1.gives = some r)
    (hgiven : GivenBack e) : heldEffect r e = some false := by
  have hnot : e.1.takes ≠ some r := by simp [htakes]
  have hret : 0 ≤ e.2 := hgiven (by simp [hgives])
  rw [heldEffect, if_neg (Int.not_lt.mpr hret), if_neg hnot, if_pos hgives]

/-- What has been taken is named by the configuration. -/
theorem ehDevsInit_takes {conf conf' : EhConf} {t : CallLog} (hmode : conf.mode = .event)
    (hinit : ehDevsInit drv conf [] = .ok (conf', t)) :
    ∃ c, conf'.mode = .event ∧ conf'.modeParams = some c ∧ Takes (resources c) [] t := by
  rw [ehDevsInit, if_neg (not_not_intro hmode)] at hinit
  cases hparams : conf.modeParams with
  | none =>
      rw [hparams] at hinit
      cases hinit
  | some c₀ =>
      rw [hparams] at hinit
      dsimp only at hinit
      split at hinit
      · cases hinit
      · rename_i c _
        cases hrun : devsSetUp drv conf.ethPortmask conf.opts c [] with
        | error e =>
            rw [hrun] at hinit
            cases hinit
        | ok t₁ =>
            rw [hrun] at hinit
            cases hinit
            exact ⟨c, hmode, rfl, (devsSetUp_takes _ _ c []).of_ok hrun⟩

/-- **NOTHING IS HELD** when both functions have come to an end without an error,
    whatever the device has answered. -/
theorem nothing_held {conf conf' : EhConf} {t t' : CallLog}
    (hinit : ehDevsInit drv conf [] = .ok (conf', t))
    (huninit : ehDevsUninit drv conf' t = .ok t') (r : Resource) : ¬ Held t' r := by
  rw [Held, Bool.not_eq_true]
  by_cases hmode : conf.mode = .event
  · obtain ⟨c, hmode', hc, took, ht, htaken⟩ := ehDevsInit_takes hmode hinit
    obtain rfl : t = took := ht
    obtain ⟨new, rfl, hnew, hgiven⟩ := (ehDevsUninit_given hmode' hc t).of_ok huninit
    have htakes : ∀ e ∈ new, e.1.takes = none :=
      fun e he => releaseCalls_takes (hnew ▸ List.mem_map_of_mem he)
    rw [final_append]
    by_cases hr : r ∈ resources c
    · -- the call that gives it back is one of the last
      obtain ⟨x, hx, hgives⟩ := releaseCalls_gives hr
      rw [← hnew] at hx
      obtain ⟨e, he, rfl⟩ := List.mem_map.mp hx
      exact final_same (fun e he => heldEffect_back (htakes e he))
        ⟨e, he, heldEffect_given (htakes e he) hgives (hgiven e he)⟩
    · -- it has never been taken
      have hnone : final (heldEffect r) false t = false := by
        refine final_keeps fun e he => .inl ?_
        obtain ⟨hgives, hin⟩ := htaken e he
        exact heldEffect_other hgives fun h => hr (hin r h)
      rw [hnone]
      exact final_keeps fun e he => heldEffect_back (htakes e he)
  · rw [ehDevsInit, if_pos hmode] at hinit
    cases hinit
    rw [ehDevsUninit, if_pos hmode] at huninit
    cases huninit
    rfl

theorem internalDriver_stops : ∃ conf' t t',
    ehDevsInit (internalDriver 4) eventConf [] = .ok (conf', t)
    ∧ ehDevsUninit (internalDriver 4) conf' t = .ok t' ∧ Held t (.rxQueue 0 0) :=
  ⟨_, _, _, rfl, rfl, rfl⟩

/-- The queues of the port are held in between. -/
theorem nothing_held_internal : ∃ conf' t t',
    ehDevsInit (internalDriver 4) eventConf [] = .ok (conf', t)
      ∧ ehDevsUninit (internalDriver 4) conf' t = .ok t' ∧ Held t (.rxQueue 0 0)
      ∧ ¬ Held t' (.rxQueue 0 0) := by
  obtain ⟨conf', t, t', hinit, huninit, hheld⟩ := internalDriver_stops
  exact ⟨conf', t, t', hinit, huninit, hheld, nothing_held hinit huninit _⟩

end EventDev
