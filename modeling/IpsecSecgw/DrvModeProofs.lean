import IpsecSecgw.DrvModeModel

/-! # The session of a port in driver mode

    The worker clears one entry of its table and `prepare_out_sessions_tbl`
    leaves entries alone that hold a session, so the table is that of the SAs
    exactly when what was left on the stack holds no session, or the right one
    (`drvRight_iff`). -/

namespace DrvMode

open SaModel MbufModel WorkerModel

variable {setMetadata : PortDrvModeData → Mbuf → Mbuf} {saOut : Option (List OutSa)}
  {data stack : DrvData}

/-! ## What the table is for -/

/-- The SA works on port `p` with inline protocol, and has a session. -/
def HasSession (p : Nat) (x : OutSa) : Bool :=
  x.sa.primary.type == .inlineProtocol && x.sa.portid.toNat == p
    && x.sa.primary.ses.isSome

/-- The session of an SA. -/
def OutSa.entry (x : OutSa) : PortDrvModeData := ⟨x.sa.primary.ses, x.ctx⟩

/-- The first inline-protocol SA of a port with a session. -/
def firstSession (saOut : Option (List OutSa)) (p : Nat) : Option OutSa :=
  (saOut.getD []).find? (HasSession p)

/-- An entry is that of the first session of the port; without one it has no
    session. -/
def EntryRight (saOut : Option (List OutSa)) (p : Nat) (d : PortDrvModeData) : Prop :=
  d = ((firstSession saOut p).map OutSa.entry).getD ⟨none, d.ctx⟩

/-- A packet of `port` is sent under the session of a SA of that port. -/
def UnderOwn (saOut : Option (List OutSa)) (port : UInt16) (x : DrvSent) : Prop :=
  ∃ y ∈ saOut.getD [], y.sa.portid = port
    ∧ y.sa.primary.type = .inlineProtocol ∧ y.sa.primary.ses ≠ none
    ∧ x.under = some y.entry

/-- What is done to packets of protected ports: single events, and vectors.  What is
    sent is the packet itself. -/
structure PacketsRight (setMetadata : PortDrvModeData → Mbuf → Mbuf)
    (saOut : Option (List OutSa)) (data : DrvData) : Prop where
  event : ∀ unprotected pkt, pkt.port < rteMaxEthports → unprotected pkt.port = false →
    (∀ x, drvModeEvent setMetadata unprotected data pkt = some x →
        x.pkt.addr = pkt.addr ∧ UnderOwn saOut pkt.port x)
      ∧ (firstSession saOut pkt.port.toNat = none →
        drvModeEvent setMetadata unprotected data pkt = none)
  vector : ∀ vec, (∀ pkt ∈ vec, pkt.port < rteMaxEthports) →
    let r := processIpsecEvDrvModeOutboundVector setMetadata vec data
    (∀ x ∈ r.1, ∃ pkt ∈ vec, x.pkt.addr = pkt.addr ∧ UnderOwn saOut pkt.port x)
      ∧ ∀ pkt ∈ vec, firstSession saOut pkt.port.toNat = none → pkt ∈ r.2

/-- The table is right, and so is what is done with it. -/
structure DrvRight (setMetadata : PortDrvModeData → Mbuf → Mbuf)
    (saOut : Option (List OutSa)) (data : DrvData) : Prop where
  table : ∀ p, p < rteMaxEthports.toNat → EntryRight saOut p (data p)
  packets : PacketsRight setMetadata saOut data

/-! ## The builder -/

theorem hasSession_iff {p : Nat} {x : OutSa} :
    HasSession p x = true ↔ x.sa.primary.type = .inlineProtocol
      ∧ x.sa.portid.toNat = p ∧ x.sa.primary.ses ≠ none := by
  rw [HasSession, Bool.and_eq_true, Bool.and_eq_true, beq_iff_eq, beq_iff_eq, and_assoc,
    Option.isSome_iff_ne_none]

/-- An entry with a session stays. -/
theorem prepareOne_taken {size p : Nat} (h : (data p).sess ≠ none) (x : OutSa) :
    prepareOutSessionsOne size data x p = data p := by
  rw [prepareOutSessionsOne]
  split
  · rfl
  split
  · rfl
  split
  · rfl
  · rename_i hfree
    refine Function.update_of_ne ?_ _ _
    intro hp
    rw [hp] at h
    exact hfree h

theorem prepare_taken {size p : Nat} (h : (data p).sess ≠ none) (sas : List OutSa) :
    sas.foldl (prepareOutSessionsOne size) data p = data p := by
  induction sas generalizing data with
  | nil => rfl
  | cons x sas ih =>
      have hone : prepareOutSessionsOne size data x p = data p := prepareOne_taken h x
      rw [List.foldl_cons, ih (by rw [hone]; exact h), hone]

/-- An entry without one gets the session of a SA of the port. -/
theorem prepareOne_free {size p : Nat} (hp : p < size) (h : (data p).sess = none)
    (x : OutSa) :
    if HasSession p x then prepareOutSessionsOne size data x p = x.entry
    else (prepareOutSessionsOne size data x p).sess = none := by
  rw [prepareOutSessionsOne]
  split
  · rename_i hx
    obtain ⟨htype, hport, -⟩ := hasSession_iff.mp hx
    have hin : ¬ size ≤ x.sa.portid.toNat := by omega
    have hnone : ¬ (data x.sa.portid.toNat).sess ≠ none := by
      rw [hport]
      exact not_not.mpr h
    rw [if_neg (not_not.mpr htype), if_neg hin, if_neg hnone, hport,
      Function.update_self]
    rfl
  · rename_i hx
    split
    · exact h
    rename_i htype
    split
    · exact h
    split
    · exact h
    by_cases hport : p = x.sa.portid.toNat
    · rw [hport, Function.update_self]
      by_contra hses
      exact hx (hasSession_iff.mpr ⟨not_not.mp htype, hport.symm, hses⟩)
    · rw [Function.update_of_ne hport]
      exact h

/-- **FIRST WINS** where the entry is free. -/
theorem prepare_free {size p : Nat} (hp : p < size) (h : (data p).sess = none)
    (sas : List OutSa) :
    EntryRight (some sas) p (sas.foldl (prepareOutSessionsOne size) data p) := by
  induction sas generalizing data with
  | nil =>
      show data p = ⟨none, (data p).ctx⟩
      rw [← h]
  | cons x sas ih =>
      have hone := prepareOne_free hp h x
      rw [List.foldl_cons]
      cases hx : HasSession p x with
      | true =>
          rw [hx, if_pos rfl] at hone
          have hses : (prepareOutSessionsOne size data x p).sess ≠ none := by
            rw [hone]
            exact (hasSession_iff.mp hx).2.2
          have hfirst : firstSession (some (x :: sas)) p = some x := by
            show (x :: sas).find? (HasSession p) = some x
            rw [List.find?_cons, hx]
          rw [prepare_taken hses, hone, EntryRight, hfirst]
          rfl
      | false =>
          rw [hx, if_neg Bool.false_ne_true] at hone
          have hfirst : firstSession (some (x :: sas)) p = firstSession (some sas) p := by
            show (x :: sas).find? (HasSession p) = sas.find? (HasSession p)
            rw [List.find?_cons, hx]
          have hrest := ih hone
          rw [EntryRight] at hrest ⊢
          rw [hfirst]
          exact hrest

/-- **THE TABLE** of a port: free entries become right, others stay. -/
theorem drvModeData_entry {p : Nat} (hp : p < rteMaxEthports.toNat) :
    EntryRight saOut p (drvModeData saOut stack p)
      ↔ (clearData stack p).sess = none ∨ EntryRight saOut p (clearData stack p) := by
  rw [drvModeData]
  by_cases hfree : (clearData stack p).sess = none
  · refine ⟨fun _ => .inl hfree, fun _ => ?_⟩
    cases saOut with
    | none =>
        show clearData stack p = ⟨none, (clearData stack p).ctx⟩
        rw [← hfree]
    | some sas => exact prepare_free hp hfree sas
  · have hstays : prepareOutSessionsTbl saOut (clearData stack) rteMaxEthports.toNat p
        = clearData stack p := by
      cases saOut with
      | none => rfl
      | some sas => exact prepare_taken hfree sas
    rw [hstays]
    exact ⟨.inr, fun h => h.resolve_left hfree⟩

/-! ## Packets -/

/-- A right entry with a session is that of a SA of the port. -/
theorem EntryRight.session {p : Nat} {d : PortDrvModeData} (h : EntryRight saOut p d)
    (hses : d.sess ≠ none) : ∃ y, firstSession saOut p = some y ∧ d = y.entry := by
  rw [EntryRight] at h
  cases hfirst : firstSession saOut p with
  | none =>
      rw [hfirst] at h
      exact absurd (congrArg PortDrvModeData.sess h) hses
  | some y =>
      rw [hfirst] at h
      exact ⟨y, rfl, h⟩

/-- **A PACKET** of a port with a right entry. -/
theorem drvProtect_right (hmeta : ∀ d m, (setMetadata d m).addr = m.addr) {pkt : Mbuf}
    (h : EntryRight saOut pkt.port.toNat (data pkt.port.toNat)) :
    (∀ x, drvProtect setMetadata data pkt = some x →
        x.pkt.addr = pkt.addr ∧ UnderOwn saOut pkt.port x)
      ∧ (firstSession saOut pkt.port.toNat = none →
        drvProtect setMetadata data pkt = none) := by
  rw [drvProtect]
  dsimp only
  constructor
  · intro x hx
    split at hx
    · cases hx
    rename_i hses
    obtain rfl := Option.some.inj hx
    obtain ⟨y, hy, hdata⟩ := h.session hses
    obtain ⟨htype, hport, hys⟩ := hasSession_iff.mp (List.find?_some hy)
    refine ⟨hmeta _ (ipsecEventPreForward pkt pkt.port), y, List.mem_of_find?_eq_some hy,
      UInt16.toNat_inj.mp hport, htype, hys, ?_⟩
    exact congrArg some hdata
  · intro hnone
    rw [EntryRight, hnone] at h
    have hses : (data pkt.port.toNat).sess = none := congrArg PortDrvModeData.sess h
    rw [if_pos hses]

/-- A vector is worked on packet by packet. -/
theorem drvVector_eq (vec : List Mbuf) (s : List DrvSent × List Mbuf) :
    vec.foldl (drvVectorOne setMetadata data) s
      = (s.1 ++ vec.filterMap (drvProtect setMetadata data),
        s.2 ++ vec.filter fun pkt => (drvProtect setMetadata data pkt).isNone) := by
  induction vec generalizing s with
  | nil => rw [List.filterMap_nil, List.filter_nil, List.append_nil, List.append_nil]; rfl
  | cons pkt vec ih =>
      rw [List.foldl_cons, ih, drvVectorOne]
      cases hx : drvProtect setMetadata data pkt with
      | none =>
          rw [List.filterMap_cons_none hx, List.filter_cons_of_pos (by rw [hx]; rfl)]
          dsimp only
          rw [List.append_assoc]
          rfl
      | some x =>
          rw [List.filterMap_cons_some hx,
            List.filter_cons_of_neg (by rw [hx]; exact Bool.false_ne_true)]
          dsimp only
          rw [List.append_assoc]
          rfl

/-- **THE TABLE DECIDES** what is done to packets. -/
theorem packetsRight_of_table (hmeta : ∀ d m, (setMetadata d m).addr = m.addr)
    (h : ∀ p, p < rteMaxEthports.toNat → EntryRight saOut p (data p)) :
    PacketsRight setMetadata saOut data := by
  have hone : ∀ pkt : Mbuf, pkt.port < rteMaxEthports →
      (∀ x, drvProtect setMetadata data pkt = some x →
          x.pkt.addr = pkt.addr ∧ UnderOwn saOut pkt.port x)
        ∧ (firstSession saOut pkt.port.toNat = none →
          drvProtect setMetadata data pkt = none) :=
    fun pkt hport => drvProtect_right hmeta (h _ (UInt16.lt_iff_toNat_lt.mp hport))
  constructor
  · intro unprotected pkt hport hprot
    have hev : drvModeEvent setMetadata unprotected data pkt
        = drvProtect setMetadata data (ipsecEventPreForward pkt pkt.port) := by
      have hport' : ¬ unprotected (ipsecEventPreForward pkt pkt.port).port = true := by
        rw [Bool.not_eq_true]
        exact hprot
      rw [drvModeEvent, if_neg hport']
    rw [hev]
    exact hone (ipsecEventPreForward pkt pkt.port) hport
  · intro vec hports
    rw [processIpsecEvDrvModeOutboundVector, drvVector_eq]
    dsimp only
    rw [List.nil_append, List.nil_append]
    constructor
    · intro x hx
      obtain ⟨pkt, hpkt, hsent⟩ := List.mem_filterMap.mp hx
      exact ⟨pkt, hpkt, (hone pkt (hports pkt hpkt)).1 x hsent⟩
    · intro pkt hpkt hnone
      refine List.mem_filter.mpr ⟨hpkt, ?_⟩
      rw [(hone pkt (hports pkt hpkt)).2 hnone]
      rfl

/-- What is left of other frames in the entries that are not cleared holds no
    session, or what the entry is for. -/
def LeftoverHarmless (saOut : Option (List OutSa)) (stack : DrvData) : Prop :=
  ∀ p, 0 < p → p < rteMaxEthports.toNat →
    (stack p).sess = none ∨ EntryRight saOut p (stack p)

/-- Only the first entry is cleared. -/
theorem clearData_of_pos {p : Nat} (hp : 0 < p) : clearData stack p = stack p :=
  Function.update_of_ne (Nat.ne_of_gt hp) _ _

/-- **A HARMLESS LEFTOVER** makes every entry right. -/
theorem LeftoverHarmless.entry (h : LeftoverHarmless saOut stack) {p : Nat}
    (hp : p < rteMaxEthports.toNat) : EntryRight saOut p (drvModeData saOut stack p) := by
  refine (drvModeData_entry hp).mpr ?_
  by_cases hpos : 0 < p
  · rw [clearData_of_pos hpos]
    exact h p hpos hp
  · obtain rfl := Nat.eq_zero_of_not_pos hpos
    refine .inl ?_
    rw [clearData, Function.update_self]

/-- **DRIVER MODE** is right exactly when the leftover is harmless; the metadata are
    written into the packet they are set for. -/
theorem drvRight_iff (setMetadata : PortDrvModeData → Mbuf → Mbuf)
    (hmeta : ∀ d m, (setMetadata d m).addr = m.addr) (saOut : Option (List OutSa))
    (stack : DrvData) :
    DrvRight setMetadata saOut (drvModeData saOut stack)
      ↔ LeftoverHarmless saOut stack := by
  constructor
  · intro h p hpos hp
    have hentry := (drvModeData_entry hp).mp (h.table p hp)
    rwa [clearData_of_pos hpos] at hentry
  · intro h
    exact ⟨fun p hp => h.entry hp, packetsRight_of_table hmeta fun p hp => h.entry hp⟩

/-- A SA with inline protocol on port 1, and a stack that another function has
    left a pointer on. -/
def portOneSa : OutSa :=
  ⟨{ spi := 5, portid := 1, primary := { type := .inlineProtocol, ses := some 3 } }, some 2⟩

/-- On a stack that holds nothing; the metadata name the session. -/
theorem drvRight_iff_empty :
    DrvRight (fun d m => { m with dynSa := d.sess }) (some [portOneSa])
        (drvModeData (some [portOneSa]) fun _ => {})
      ∧ drvModeData (some [portOneSa]) (fun _ => {}) 1 = ⟨some 3, some 2⟩ :=
  ⟨(drvRight_iff (fun d m => { m with dynSa := d.sess }) (fun _ _ => rfl) (some [portOneSa])
    fun _ => {}).mpr fun _ _ _ => .inl rfl, rfl⟩

def leftover : DrvData := fun p => if p = 1 then ⟨some 9, some 9⟩ else {}

/-- **THE LEFTOVER WINS**: packets of port 1 go to a session no SA has. -/
theorem leftover_wins :
    drvModeData (some [portOneSa]) leftover 1 = ⟨some 9, some 9⟩
      ∧ ¬ DrvRight (fun _ m => m) (some [portOneSa])
        (drvModeData (some [portOneSa]) leftover) := by
  refine ⟨rfl, fun h => ?_⟩
  have hentry : (⟨some 9, some 9⟩ : PortDrvModeData) = ⟨some 3, some 2⟩ :=
    h.table 1 (by decide)
  exact absurd hentry (by decide)

end DrvMode
