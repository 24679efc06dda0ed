import Mathlib.Data.List.Induction
import IpsecSecgw.TxBufferModel

/-! # Nothing is lost in a transmit buffer

    A buffer holds the packets stored for its port that the NIC has not been
    offered yet (`Accounted.order`); a burst offers all of them and empties it,
    a packet sent appends to it.  The array is never left: below the capacity
    there is room for one packet, and the fragments of a packet get the slots
    that are left. -/

namespace TxBuffer

open MbufModel IpsecModel SecgwModel Outcome Slots Fill

/-! ## What is promised -/

/-- The packets in a buffer. -/
def TxState.waiting (s : TxState) (port : Nat) : List PktId :=
  cells (s.txMbufs port).mTable (s.txMbufs port).len

/-- The packets offered to the NIC of a port, in this order. -/
def TxState.offered (s : TxState) (port : Nat) : List PktId :=
  (s.bursts.filter (·.port = port)).flatMap TxBurst.offered

/-- The packets stored for a port, in this order. -/
def TxState.parts (s : TxState) (port : Nat) : List PktId :=
  (s.sends.filter (·.port = port)).flatMap Sending.parts

/-- What can become of a packet. -/
inductive Fate (lib : TxLib) : Sending → Prop
  | whole {m port size} (hsize : size ≤ lib.conf.mtuSize) :
      Fate lib ⟨m, port, size, [m], []⟩
  | fragments {m port size proto w n} (hsize : lib.conf.mtuSize < size)
      (hfrag : 0 < lib.conf.fragTblSz) (hrc : 0 ≤ (lib.fragment proto w m n).rc) :
      Fate lib ⟨m, port, size, (lib.fragment proto w m n).written, [m]⟩
  | failed {m port size proto w n} (hsize : lib.conf.mtuSize < size)
      (hfrag : 0 < lib.conf.fragTblSz) (hrc : (lib.fragment proto w m n).rc < 0) :
      Fate lib ⟨m, port, size, [], [m]⟩
  | tooBig {m port size} (hsize : lib.conf.mtuSize < size)
      (hfrag : lib.conf.fragTblSz = 0) : Fate lib ⟨m, port, size, [], [m]⟩

/-- Every packet has one place: on a port, the packets stored are those offered
    and behind them those that wait; of the packets offered the NIC has taken a
    first part, and the others are freed; and besides these only originals and
    packets that were not stored are freed. -/
structure Accounted (lib : TxLib) (w : World) (s : TxState) : Prop where
  order : ∀ port, s.parts port = s.offered port ++ s.waiting port
  taken : ∀ b ∈ s.bursts, b.taken ≤ b.offered.length
  freed : s.world.freed.Perm
    (w.freed ++ s.bursts.flatMap TxBurst.refused ++ s.sends.flatMap Sending.freed)
  fate : ∀ x ∈ s.sends, Fate lib x

/-- The packet of a call, with its port. -/
def TxCall.packet : TxCall → Option (PktId × Nat)
  | .send m port _ => some (m, port)
  | .drain => none
  | .others _ => none

/-- What holds after a sequence of calls. -/
structure TxKept (lib : TxLib) (w : World) (calls : List TxCall) (s : TxState) : Prop
    extends Accounted lib w s where
  room : ∀ port, (s.txMbufs port).len < maxPktBurst
  sent : s.sends.map (fun x => (x.pkt, x.port)) = calls.filterMap TxCall.packet
  drained : calls.getLast? = some .drain → ∀ port < maxEthports, s.waiting port = []

/-- A fragmenter writes at most the slots it is given, and returns how many it
    has written or an error. -/
def TxLib.Bounded (lib : TxLib) : Prop :=
  ∀ proto w m n, (lib.fragment proto w m n).written.length ≤ n
    ∧ (0 ≤ (lib.fragment proto w m n).rc →
      (lib.fragment proto w m n).rc = (lib.fragment proto w m n).written.length)

variable {lib : TxLib} {w : World} {s s' : TxState} {port : Nat}

/-! ## Lengths and slots -/

@[simp] theorem setLen_world (s : TxState) (port n : Nat) :
    (s.setLen port n).world = s.world := rfl

@[simp] theorem setLen_bursts (s : TxState) (port n : Nat) :
    (s.setLen port n).bursts = s.bursts := rfl

@[simp] theorem setLen_sends (s : TxState) (port n : Nat) :
    (s.setLen port n).sends = s.sends := rfl

theorem waiting_setLen (s : TxState) (port n : Nat) :
    (s.setLen port n).waiting port = cells (s.txMbufs port).mTable n := by
  simp [TxState.waiting, TxState.setLen]

theorem waiting_setLen_of_ne (s : TxState) {port p : Nat} (n : Nat) (h : p ≠ port) :
    (s.setLen port n).waiting p = s.waiting p := by
  simp [TxState.waiting, TxState.setLen, h]

/-- The length a buffer has is no news. -/
theorem setLen_len (s : TxState) (port : Nat) :
    s.setLen port (s.txMbufs port).len = s := by
  unfold TxState.setLen
  rw [Function.update_eq_self]

theorem setTable_setTable (s : TxState) (port : Nat) (a b : Nat → PktId) :
    (s.setTable port a).setTable port b = s.setTable port b := by
  simp [TxState.setTable]

theorem waiting_setTable_of_ne (s : TxState) {port p : Nat} (a : Nat → PktId)
    (h : p ≠ port) : (s.setTable port a).waiting p = s.waiting p := by
  simp [TxState.waiting, TxState.setTable, h]

/-- Packets stored behind those of the table fill it further. -/
theorem storeAll_fills {l done : List PktId} (hfit : done.length + l.length ≤ maxPktBurst)
    (hfill : Filled (s.txMbufs port).mTable done) :
    ∃ a, s.storeAll port done.length l = .ok (s.setTable port a)
      ∧ Filled a (done ++ l) := by
  induction l generalizing s done with
  | nil =>
      refine ⟨(s.txMbufs port).mTable, ?_, ?_⟩
      · rw [TxState.storeAll, TxState.setTable, Function.update_eq_self]
      · rwa [List.append_nil]
  | cons m l ih =>
      rw [List.length_cons] at hfit
      have hstore : s.store port done.length m
          = .ok (s.setTable port
            (Function.update (s.txMbufs port).mTable done.length m)) :=
        if_neg (by omega)
      have hfill' : Filled ((s.setTable port
          (Function.update (s.txMbufs port).mTable done.length m)).txMbufs port).mTable
            (done ++ [m]) := by
        simp only [TxState.setTable, Function.update_self]
        exact hfill.concat m
      have hlen : (done ++ [m]).length = done.length + 1 := List.length_append
      obtain ⟨a, ha, hall⟩ := ih (by rw [hlen]; omega) hfill'
      refine ⟨a, ?_, ?_⟩
      · rw [hlen, setTable_setTable] at ha
        rw [TxState.storeAll, hstore]
        exact ha
      · rwa [List.append_assoc] at hall

/-! ## A burst -/

/-- Packets freed one after the other. -/
theorem foldl_freePkt {ι : Type} (f : ι → PktId) (l : List ι) (s : TxState) :
    l.foldl (fun s i => s.freePkt (f i)) s
      = { s with world := s.world.freePkts (l.map f) } := by
  induction l generalizing s with
  | nil => simp [World.freePkts]
  | cons i l ih =>
      rw [List.foldl_cons, ih]
      simp [TxState.freePkt, World.freePkts, Nat.add_comm, Nat.add_left_comm]

theorem freeFrom_eq (a : Nat → PktId) (ret n : Nat) (s : TxState) :
    freeFrom a ret n s
      = { s with world := s.world.freePkts ((cells a n).drop ret) } := by
  have hdrop : (cells a n).drop ret = (List.range (n - ret)).map fun i => a (ret + i) := by
    refine List.ext_getElem? ?_
    intro i
    simp only [cells, List.getElem?_drop, List.getElem?_map]
    by_cases hi : i < n - ret
    · rw [List.getElem?_range hi, List.getElem?_range (by omega)]
      rfl
    · simp [hi, Nat.lt_sub_iff_add_lt'.not.mp hi]
  rw [hdrop]
  exact foldl_freePkt _ _ s

theorem prepareTxOne_freed (tx : TxConf) (port : Nat) (w : World) (p : PktId) :
    Ends (prepareTxOne tx port w p) (· = .null) (fun w' => w'.freed = w.freed) := by
  unfold prepareTxOne
  cases prepareTxPkt tx port (w.mbuf p) with
  | none => exact ends_error rfl
  | some m => exact ends_ok rfl

/-- What a burst of the first `n` slots does. -/
structure Bursting (n port : Nat) (s s' : TxState) : Prop where
  burst : ∃ ret, ret ≤ n
    ∧ s'.bursts = s.bursts ++ [⟨port, cells (s.txMbufs port).mTable n, ret⟩]
    ∧ s'.world.freed = s.world.freed ++ (cells (s.txMbufs port).mTable n).drop ret
  sends : s'.sends = s.sends
  txMbufs : s'.txMbufs = s.txMbufs

/-- **A BURST** reads no slot outside the table, and what the NIC leaves of it is
    freed. -/
theorem sendBurst_spec {n : Nat} (hn : n ≤ maxPktBurst) :
    Ends (sendBurst lib n port s) (· = .null) (Bursting n port s) := by
  rw [sendBurst, if_neg (Nat.not_lt.mpr hn)]
  have hprep : Ends ((List.range n).foldlM
      (fun w i => prepareTxOne lib.conf port w ((s.txMbufs port).mTable i)) s.world)
      (· = .null) (fun w => w.freed = s.world.freed) := by
    refine @ends_foldlM _ _ _ _ (fun _ w => World.freed w = s.world.freed) _ _ _ rfl ?_
    intro i _ w hw
    refine (prepareTxOne_freed _ _ _ _).mono (fun _ he => he) ?_
    intro w' hw'
    rw [hw', hw]
  refine hprep.bind ?_
  intro w hw
  refine ends_pure ?_
  split
  · rename_i hret
    rw [freeFrom_eq]
    refine ⟨⟨_, Nat.min_le_right _ _, rfl, ?_⟩, rfl, rfl⟩
    exact congrArg (· ++ _) hw
  · rename_i hret
    refine ⟨⟨_, Nat.min_le_right _ _, rfl, ?_⟩, rfl, rfl⟩
    rw [List.drop_of_length_le (by rw [length_cells]; exact Nat.le_of_not_lt hret),
      List.append_nil]
    exact hw

/-! ## Accounts -/

theorem parts_concat {x : Sending} (h : s'.sends = s.sends ++ [x]) (p : Nat) :
    s'.parts p = s.parts p ++ if x.port = p then x.parts else [] := by
  by_cases hp : x.port = p <;> simp [TxState.parts, h, hp]

theorem offered_concat {b : TxBurst} (h : s'.bursts = s.bursts ++ [b]) (p : Nat) :
    s'.offered p = s.offered p ++ if b.port = p then b.offered else [] := by
  by_cases hp : b.port = p <;> simp [TxState.offered, h, hp]

/-- Freed packets join one of the accounts. -/
theorem perm_join {f a b c : List PktId} (h : f.Perm (a ++ b ++ c)) (l : List PktId) :
    (f ++ l).Perm (a ++ (b ++ l) ++ c) := by
  refine (h.append_right l).trans ?_
  simp only [List.append_assoc]
  exact ((@List.perm_append_comm _ c l).append_left b).append_left a

/-- A packet sent appends to one buffer. -/
theorem Accounted.logSend (h : Accounted lib w s) {x : Sending}
    (hsends : s'.sends = s.sends ++ [x]) (hbursts : s'.bursts = s.bursts)
    (hwait : ∀ p, s'.waiting p = s.waiting p ++ if x.port = p then x.parts else [])
    (hfreed : s'.world.freed = s.world.freed ++ x.freed) (hfate : Fate lib x) :
    Accounted lib w s' where
  order p := by
    have hoff : s'.offered p = s.offered p := by rw [TxState.offered, hbursts]; rfl
    rw [parts_concat hsends, hoff, hwait, h.order, List.append_assoc]
  taken := by
    rw [hbursts]
    exact h.taken
  freed := by
    rw [hfreed, hsends, hbursts, List.flatMap_append, List.flatMap_singleton,
      ← List.append_assoc]
    exact h.freed.append_right _
  fate := by
    intro y hy
    rw [hsends] at hy
    rcases List.mem_append.mp hy with hy | hy
    · exact h.fate y hy
    · rw [List.mem_singleton.mp hy]
      exact hfate

/-- A burst of a whole buffer empties it. -/
theorem Accounted.burst {n : Nat} (h : Accounted lib w (s.setLen port n))
    (hb : Bursting n port s s') : Accounted lib w (s'.setLen port 0) := by
  obtain ⟨ret, hret, hbursts, hfreed⟩ := hb.burst
  refine ⟨?_, ?_, ?_, ?_⟩
  · intro p
    have hparts : (s'.setLen port 0).parts p = (s.setLen port n).parts p := by
      simp [TxState.parts, hb.sends]
    have hoff : (s'.setLen port 0).offered p = (s.setLen port n).offered p
        ++ if port = p then cells (s.txMbufs port).mTable n else [] :=
      offered_concat hbursts p
    rw [hparts, hoff, h.order]
    by_cases hp : p = port
    · subst hp
      rw [waiting_setLen, waiting_setLen, if_pos rfl]
      exact (List.append_nil _).symm
    · rw [waiting_setLen_of_ne _ _ hp, waiting_setLen_of_ne _ _ hp, if_neg (Ne.symm hp),
        List.append_nil, TxState.waiting, TxState.waiting, hb.txMbufs]
  · intro b hmem
    rw [setLen_bursts, hbursts] at hmem
    rcases List.mem_append.mp hmem with hmem | hmem
    · exact h.taken b hmem
    · rw [List.mem_singleton.mp hmem]
      exact hret.trans_eq (length_cells _ _).symm
  · rw [setLen_world, setLen_sends, setLen_bursts, hfreed, hbursts, hb.sends,
      List.flatMap_append, List.flatMap_singleton]
    exact perm_join h.freed _
  · rw [setLen_sends, hb.sends]
    exact h.fate

/-! ## A packet -/

/-- The packets of a buffer fill its table. -/
theorem filled_waiting (s : TxState) (port len : Nat) :
    Filled (s.txMbufs port).mTable (cells (s.txMbufs port).mTable len) :=
  filled_cells _ _

/-- What sending one packet does, where the local length stands for that of the
    buffer. -/
structure Sent (lib : TxLib) (w : World) (m : PktId) (port : Nat) (s : TxState)
    (r : Nat × TxState) : Prop where
  accounted : Accounted lib w (r.2.setLen port r.1)
  room : r.1 ≤ maxPktBurst
  sent : r.2.sends.map (fun x => (x.pkt, x.port))
    = s.sends.map (fun x => (x.pkt, x.port)) ++ [(m, port)]
  others : ∀ p, p ≠ port → (r.2.txMbufs p).len = (s.txMbufs p).len

/-- A log that has grown by one packet. -/
theorem map_logSend (s : TxState) (x : Sending) :
    (s.logSend x).sends.map (fun x => (x.pkt, x.port))
      = s.sends.map (fun x => (x.pkt, x.port)) ++ [(x.pkt, x.port)] := by
  rw [TxState.logSend, List.map_append]
  rfl

/-- The packets stored behind those of a buffer join it. -/
theorem Accounted.stored {a : Nat → PktId} {x : Sending} {len : Nat}
    (h : Accounted lib w (s.setLen x.port len)) (hbursts : s'.bursts = s.bursts)
    (hsends : s'.sends = s.sends ++ [x]) (hfreed : s'.world.freed = s.world.freed ++ x.freed)
    (htx : s'.txMbufs = (s.setTable x.port a).txMbufs)
    (hfill : Filled a (cells (s.txMbufs x.port).mTable len ++ x.parts))
    (hfate : Fate lib x) :
    Accounted lib w (s'.setLen x.port (len + x.parts.length)) := by
  refine h.logSend hsends hbursts ?_ hfreed hfate
  intro p
  by_cases hp : p = x.port
  · subst hp
    have ha : (s'.txMbufs x.port).mTable = a := by
      simp [htx, TxState.setTable]
    rw [waiting_setLen, waiting_setLen, if_pos rfl, ha]
    have hcells := hfill.cells
    rw [List.length_append, length_cells] at hcells
    exact hcells
  · rw [waiting_setLen_of_ne _ _ hp, waiting_setLen_of_ne _ _ hp, if_neg (Ne.symm hp),
      List.append_nil, ← waiting_setTable_of_ne s a hp, TxState.waiting, TxState.waiting,
      htx]

/-- The lengths of the other buffers. -/
theorem len_setTable (s : TxState) (port : Nat) (a : Nat → PktId) (p : Nat) :
    ((s.setTable port a).txMbufs p).len = (s.txMbufs p).len := by
  by_cases hp : p = port <;> simp [TxState.setTable, hp]

/-- Behind the flush there is an account with a length below the capacity. -/
theorem freeSpace_spec (h : Accounted lib w s)
    (hroom : (s.txMbufs port).len < maxPktBurst) :
    Ends (freeSpace lib port s) (· = .null) (fun r =>
      Accounted lib w (r.2.setLen port r.1) ∧ r.1 < maxPktBurst ∧ r.2.sends = s.sends
        ∧ r.2.txMbufs = s.txMbufs) := by
  have hacc : Accounted lib w (s.setLen port (s.txMbufs port).len) := by
    rw [setLen_len]
    exact h
  unfold freeSpace
  dsimp only
  split
  · refine (sendBurst_spec (Nat.le_of_lt hroom)).bind ?_
    intro s1 hburst
    exact ends_pure ⟨hacc.burst hburst, Nat.zero_lt_of_lt hroom, hburst.sends,
      hburst.txMbufs⟩
  · exact ends_ok ⟨hacc, hroom, rfl, rfl⟩

theorem TxLib.Bounded.count_le (hlib : lib.Bounded) (proto : Nat) (w : World)
    (m : PktId) (n : Nat) :
    (lib.fragment proto w m n).count ≤ (lib.fragment proto w m n).written.length := by
  have hrc := (hlib proto w m n).2
  unfold FragResult.count
  split
  · rename_i h
    rw [hrc h, Int.toNat_natCast]
  · exact Nat.zero_le _

/-- A packet given to a fragmenter. -/
theorem TxLib.Bounded.fate (hlib : lib.Bounded) {proto : Nat} {w : World} {m : PktId}
    {n size : Nat} (hsize : lib.conf.mtuSize < size) (hfrag : 0 < lib.conf.fragTblSz) :
    Fate lib ⟨m, port, size,
      (lib.fragment proto w m n).written.take (lib.fragment proto w m n).count, [m]⟩ := by
  unfold FragResult.count
  split
  · rename_i h
    rw [(hlib proto w m n).2 h, Int.toNat_natCast, List.take_length]
    exact .fragments hsize hfrag h
  · rename_i h
    rw [List.take_zero]
    exact .failed hsize hfrag (Int.not_le.mp h)

/-- **FRAGMENTS** fit: the buffer is flushed before it is too full for them, and
    the fragmenter is given the slots that are left. -/
theorem sendFragmentPacket_spec (hlib : lib.Bounded) {m : PktId} {proto : Nat}
    (hsize : lib.conf.mtuSize < (s.world.mbuf m).dataLen)
    (hfrag : 0 < lib.conf.fragTblSz) (h : Accounted lib w s)
    (hroom : (s.txMbufs port).len < maxPktBurst) :
    Ends (sendFragmentPacket lib m port proto s) (· = .null) (Sent lib w m port s) := by
  refine (freeSpace_spec h hroom).bind ?_
  rintro ⟨len, s1⟩ ⟨hacc, hlen, hsends, htx⟩
  dsimp only at hacc hlen hsends htx ⊢
  have hcount := hlib.count_le proto s1.world m (maxPktBurst - len)
  have hwritten := (hlib proto s1.world m (maxPktBurst - len)).1
  have hfate := @TxLib.Bounded.fate lib port hlib proto s1.world m (maxPktBurst - len) _
    hsize hfrag
  generalize lib.fragment proto s1.world m (maxPktBurst - len) = r
    at hcount hwritten hfate ⊢
  have hfit : (cells (s1.txMbufs port).mTable len).length + r.written.length
      ≤ maxPktBurst := by
    rw [length_cells]
    omega
  obtain ⟨a, hstore, hfill⟩ := @storeAll_fills (s1.setMbufs r.mbufs) port r.written _ hfit
    (filled_waiting s1 port len)
  rw [length_cells] at hstore
  rw [hstore]
  refine ends_ok ?_
  have hkept : Filled a (cells (s1.txMbufs port).mTable len ++ r.written.take r.count) := by
    rw [← List.take_append_drop r.count r.written, ← List.append_assoc] at hfill
    exact hfill.of_append
  have hstored : Accounted lib w (((((s1.setMbufs r.mbufs).setTable port a).logSend
      ⟨m, port, (s.world.mbuf m).dataLen, r.written.take r.count, [m]⟩).freePkt m).setLen
        port (len + (r.written.take r.count).length)) :=
    hacc.stored (x := ⟨m, port, (s.world.mbuf m).dataLen, r.written.take r.count, [m]⟩)
      rfl rfl rfl rfl hkept hfate
  rw [List.length_take_of_le hcount] at hstored
  refine ⟨hstored, ?_, ?_, ?_⟩
  · omega
  · rw [← hsends]
    exact map_logSend _ _
  · intro p hp
    rw [← htx]
    exact len_setTable s1 port a p

/-- **ONE PACKET** joins the buffer whole or in fragments, or is freed. -/
theorem putPacket_spec (hlib : lib.Bounded) {m : PktId} {proto : Nat}
    (h : Accounted lib w s) (hroom : (s.txMbufs port).len < maxPktBurst) :
    Ends (putPacket lib m port proto s) (· = .null) (Sent lib w m port s) := by
  have hacc : Accounted lib w (s.setLen port (s.txMbufs port).len) := by
    rw [setLen_len]
    exact h
  unfold putPacket
  dsimp only
  by_cases hsize : (s.world.mbuf m).dataLen ≤ lib.conf.mtuSize
  · rw [if_pos hsize, TxState.store, if_neg (Nat.not_le.mpr hroom)]
    have hfill := (filled_waiting s port (s.txMbufs port).len).concat m
    rw [length_cells] at hfill
    refine ends_ok ⟨?_, hroom, map_logSend _ _, fun p _ => len_setTable s port _ p⟩
    exact hacc.stored (x := ⟨m, port, (s.world.mbuf m).dataLen, [m], []⟩) rfl rfl
      (List.append_nil _).symm rfl hfill (.whole hsize)
  · rw [if_neg hsize]
    by_cases hfrag : 0 < lib.conf.fragTblSz
    · rw [if_pos hfrag]
      exact sendFragmentPacket_spec hlib (Nat.not_le.mp hsize) hfrag h hroom
    · rw [if_neg hfrag]
      refine ends_ok ⟨?_, Nat.le_of_lt hroom, map_logSend _ _, fun p _ => rfl⟩
      refine hacc.logSend rfl rfl ?_ rfl
        (.tooBig (Nat.not_le.mp hsize) (Nat.eq_zero_of_not_pos hfrag))
      intro p
      rw [ite_self, List.append_nil]
      rfl

/-! ## Calls -/

/-- What holds between two calls. -/
structure Between (lib : TxLib) (w : World) (s : TxState) : Prop
    extends Accounted lib w s where
  room : ∀ port, (s.txMbufs port).len < maxPktBurst

/-- A length written back keeps the others. -/
theorem room_setLen {n : Nat} (hn : n < maxPktBurst)
    (h : ∀ p, p ≠ port → (s.txMbufs p).len < maxPktBurst) (p : Nat) :
    ((s.setLen port n).txMbufs p).len < maxPktBurst := by
  by_cases hp : p = port
  · simpa [TxState.setLen, hp] using hn
  · simpa [TxState.setLen, hp] using h p hp

/-- **SEND**: between two calls no buffer is full. -/
theorem sendSinglePacket_spec (hlib : lib.Bounded) {m : PktId} {proto : Nat}
    (hport : port < maxEthports) (h : Between lib w s) :
    Ends (sendSinglePacket lib m port proto s) (· = .null) (fun s' =>
      Between lib w s' ∧ s'.sends.map (fun x => (x.pkt, x.port))
        = s.sends.map (fun x => (x.pkt, x.port)) ++ [(m, port)]) := by
  rw [sendSinglePacket, if_neg (Nat.not_le.mpr hport)]
  refine (putPacket_spec hlib h.toAccounted (h.room port)).bind ?_
  rintro ⟨len, s1⟩ hsent
  have hothers : ∀ p, p ≠ port → (s1.txMbufs p).len < maxPktBurst := by
    intro p hp
    rw [hsent.others p hp]
    exact h.room p
  dsimp only
  split
  · rename_i hfull
    refine (sendBurst_spec (Nat.le_refl maxPktBurst)).bind ?_
    intro s2 hburst
    have hacc : Accounted lib w (s1.setLen port maxPktBurst) := hfull ▸ hsent.accounted
    refine ends_pure ⟨⟨hacc.burst hburst, room_setLen (by decide) ?_⟩, ?_⟩
    · intro p hp
      rw [hburst.txMbufs]
      exact hothers p hp
    · rw [setLen_sends, hburst.sends]
      exact hsent.sent
  · rename_i hfull
    exact ends_pure ⟨⟨hsent.accounted,
      room_setLen (Nat.lt_of_le_of_ne hsent.room hfull) hothers⟩, hsent.sent⟩

/-- A round of the drain empties the buffer of its port. -/
theorem drainOne_spec (h : Between lib w s) :
    Ends (drainOne lib s port) (· = .null) (fun s' => Between lib w s'
      ∧ s'.sends = s.sends ∧ s'.waiting port = []
      ∧ ∀ p, p ≠ port → s'.waiting p = s.waiting p) := by
  have hacc : Accounted lib w (s.setLen port (s.txMbufs port).len) := by
    rw [setLen_len]
    exact h.toAccounted
  unfold drainOne
  split
  · rename_i hlen
    refine ends_ok ⟨h, rfl, ?_, fun p _ => rfl⟩
    rw [TxState.waiting, hlen]
    rfl
  · refine (sendBurst_spec (Nat.le_of_lt (h.room port))).bind ?_
    intro s1 hburst
    refine ends_pure ⟨⟨hacc.burst hburst, room_setLen (by decide) ?_⟩, hburst.sends,
      waiting_setLen _ _ _, ?_⟩
    · intro p _
      rw [hburst.txMbufs]
      exact h.room p
    · intro p hp
      rw [waiting_setLen_of_ne _ _ hp, TxState.waiting, TxState.waiting, hburst.txMbufs]

/-- **DRAIN**: every buffer is empty afterwards. -/
theorem drainTxBuffers_spec (h : Between lib w s) :
    Ends (drainTxBuffers lib s) (· = .null) (fun s' => Between lib w s'
      ∧ s'.sends = s.sends ∧ ∀ port < maxEthports, s'.waiting port = []) := by
  refine @ends_range _ _ (· = .null) (drainOne lib) (fun i s' => Between lib w s'
    ∧ s'.sends = s.sends ∧ ∀ port < i, s'.waiting port = []) _ s ⟨h, rfl, ?_⟩ ?_
  · intro port hlt
    exact absurd hlt (Nat.not_lt_zero port)
  · rintro i s1 - ⟨hbetween, hsends, hempty⟩
    refine (drainOne_spec hbetween).mono (fun _ he => he) ?_
    rintro s2 ⟨hbetween', hsends', hnone, hothers⟩
    refine ⟨hbetween', hsends'.trans hsends, ?_⟩
    intro port hlt
    by_cases hp : port = i
    · rw [hp]
      exact hnone
    · rw [hothers port hp]
      exact hempty port (Nat.lt_of_le_of_ne (Nat.le_of_lt_succ hlt) hp)

theorem start_between (lib : TxLib) (w : World) (slots : Nat → Nat → PktId) :
    Between lib w (start w slots) where
  order _ := rfl
  taken _ h := absurd h List.not_mem_nil
  freed := by
    simp only [start, List.flatMap_nil, List.append_nil]
    exact List.Perm.refl _
  fate _ h := absurd h List.not_mem_nil
  room _ := by
    show 0 < maxPktBurst
    decide

/-- A call keeps what holds between two calls, and logs its packet. -/
theorem call_spec (hlib : lib.Bounded) {c : TxCall}
    (hport : ∀ m port proto, c = .send m port proto → port < maxEthports)
    (h : Between lib w s) :
    Ends (call lib s c) (· = .null) (fun s' => Between lib w s'
      ∧ s'.sends.map (fun x => (x.pkt, x.port))
        = s.sends.map (fun x => (x.pkt, x.port)) ++ c.packet.toList
      ∧ (c = .drain → ∀ port < maxEthports, s'.waiting port = [])) := by
  cases c with
  | send m port proto =>
      refine (sendSinglePacket_spec hlib (hport m port proto rfl) h).mono
        (fun _ he => he) ?_
      rintro s' ⟨hbetween, hsent⟩
      refine ⟨hbetween, hsent, ?_⟩
      intro hc
      cases hc
  | drain =>
      refine (drainTxBuffers_spec h).mono (fun _ he => he) ?_
      rintro s' ⟨hbetween, hsends, hempty⟩
      refine ⟨hbetween, ?_, fun _ => hempty⟩
      rw [hsends]
      exact (List.append_nil _).symm
  | others mbufs =>
      refine ends_ok ⟨⟨⟨h.order, h.taken, h.freed, h.fate⟩, h.room⟩,
        (List.append_nil _).symm, ?_⟩
      intro hc
      cases hc

/-- **NOTHING IS LOST**: whatever is sent and drained, in whatever order. -/
theorem calls_kept (hlib : lib.Bounded) (w : World) (slots : Nat → Nat → PktId)
    {calls : List TxCall} (hports : ∀ m port proto, .send m port proto ∈ calls →
      port < maxEthports) :
    Ends (run lib calls (start w slots)) (· = .null) (TxKept lib w calls) := by
  induction calls using List.reverseRecOn with
  | nil =>
      have hstart := start_between lib w slots
      refine ends_ok ⟨hstart.toAccounted, hstart.room, rfl, ?_⟩
      intro h
      cases h
  | append_singleton calls c ih =>
      rw [run, List.foldlM_append]
      have hbefore := ih fun m port proto hmem =>
        hports m port proto (List.mem_append_left _ hmem)
      refine hbefore.bind ?_
      intro s hs
      have hport : ∀ m port proto, c = .send m port proto → port < maxEthports := by
        rintro m port proto rfl
        exact hports m port proto (List.mem_append_right _ List.mem_cons_self)
      rw [List.foldlM_cons]
      refine (call_spec hlib hport ⟨hs.toAccounted, hs.room⟩).bind ?_
      rintro s' ⟨hbetween, hsent, hdrained⟩
      refine ends_ok ⟨hbetween.toAccounted, hbetween.room, ?_, ?_⟩
      · rw [hsent, hs.sent, List.filterMap_append, List.filterMap_cons]
        cases c <;> rfl
      · intro hlast
        rw [List.getLast?_concat] at hlast
        exact hdrained (Option.some.inj hlast)

/-- A fragmenter that cuts 80 bytes in two, when there are two slots. -/
def cutInTwo (w : World) (m : PktId) (n : Nat) : FragResult :=
  if n < 2 then ⟨[], -22, w.mbuf⟩
  else
    let first := Mbuf.mid (fun i => if i = 134 then 0x20 else (w.mbuf m).buf i) 60
    let second := Mbuf.mid (fun i => if i = 135 then 5 else (w.mbuf m).buf i) 40
    let mbufs := Function.update (Function.update w.mbuf (m + 100) first) (m + 101) second
    ⟨[m + 100, m + 101], 2, mbufs⟩

/-- A NIC that takes one packet of a burst. -/
def slowLib : TxLib where
  conf :=
    { mtuSize := 60
      fragTblSz := 1
      fragment := fun _ _ _ => none
      rt := ⟨fun _ => none, fun _ => none⟩
      ipv4Offloads := 0
      ipv6Offloads := 0
      ipv4Cksum := fun _ _ => []
      ethaddrTbl := fun _ => ([], [])
      txTake := fun _ => 1 }
  ipv4Fragment := cutInTwo
  ipv6Fragment := cutInTwo

theorem slowLib_bounded : slowLib.Bounded := by
  intro proto w m n
  have hlib : slowLib.fragment proto = cutInTwo := ite_self _
  rw [hlib, cutInTwo]
  split
  · refine ⟨Nat.zero_le n, ?_⟩
    intro h
    cases h
  · rename_i hn
    exact ⟨Nat.le_of_not_lt hn, fun _ => rfl⟩

/-- Two IPv4 packets, of 40 and of 80 bytes. -/
def twoSizes : World where
  mbuf := fun p =>
    Mbuf.mid (fun i => if i = 128 then 0x45 else 0) (if p = 0 then 40 else 80)
  sa := fun _ => default

/-- A packet that fits and one that is cut, and a drain. -/
theorem calls_kept_two :
    let calls := [.send 0 1 ipprotoIp, .send 1 1 ipprotoIp, .drain]
    ∃ s, run slowLib calls (start twoSizes fun _ _ => 0) = .ok s
      ∧ TxKept slowLib twoSizes calls s
      ∧ s.offered 1 = [0, 101, 102] ∧ s.world.freed = [1, 101, 102] := by
  have hports : ∀ m port proto,
      .send m port proto ∈ [.send 0 1 ipprotoIp, .send 1 1 ipprotoIp, TxCall.drain] →
      port < maxEthports := by
    intro m port proto h
    simp only [List.mem_cons, List.not_mem_nil, TxCall.send.injEq, or_false] at h
    rcases h with ⟨-, rfl, -⟩ | ⟨-, rfl, -⟩ | h
    · decide
    · decide
    · cases h
  have hrun := calls_kept slowLib_bounded twoSizes (fun _ _ => 0) hports
  exact ⟨_, rfl, hrun.of_ok rfl, rfl, rfl⟩

end TxBuffer
