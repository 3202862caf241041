import AsciiSerialCom.SerialCom.Decode

/-!
# The bounds of the receiving function

The position of the first period bounds the loop that fills `data`.  While
checksums are checked, the checksum computation refuses the periods that come
too early or too late.  While they are ignored nothing does, and this module
says for which contents of the input buffer the call stays inside all the same.
-/

namespace AsciiSerialCom

open Foundation
open Foundation.StateError
open Foundation.Delimited
open Crc

/-!
## What staying inside means
-/

/-- A call never popped or read what the input buffer does not hold, nor read
outside its memory. -/
def Harmless (outcome : Except Failure Unit) : Prop :=
  outcome ≠ .error (.exception .cbPopEmpty) ∧
    outcome ≠ .error (.exception .cbOob) ∧ outcome ≠ .error .outOfBounds

/-- A call that started with the results `before` wrote no cell of `data` beyond
the first `maxDataLen`, ended with no larger length, unless it threw and left the
length alone, and was harmless to the input buffer. -/
structure Confined (before : Received) (outcome : Except Failure Unit)
    (after : Received) : Prop where
  data : forall i, maxDataLen <= i -> after.data i = before.data i
  dataLen : after.dataLen <= maxDataLen ∨
    outcome ≠ .ok () ∧ after.dataLen = before.dataLen
  harmless : Harmless outcome

/-- A computation that is confined whatever results stood there before. -/
def ConfinedFrom (x : ReceiverM Unit) (asc : Asc) : Prop :=
  forall received,
    Confined received (Result.outcome (x { asc := asc, received := received }))
      (Result.state (x { asc := asc, received := received })).received

/-- The iterations of the loop that fills `data`.  An iteration that throws
counts. -/
def popDataIterations : (remaining : Nat) -> RingBuffer maxMessageLen -> Nat
  | 0, _ => 0
  | remaining + 1, b =>
      match RingBuffer.popFront b with
      | .error _ _ => 1
      | .ok dataByte b' =>
          if dataByte = periodByte then 1
          else popDataIterations remaining b' + 1

/-- The iterations of the loops that pop the checksum and compare it.  The
comparison may stop earlier. -/
def checksumIterations (r : Receiver) (iPeriod : Nat) : List Nat :=
  let untilCheck : ReceiverM Bool := do
    Receiver.popData (sizeSub iPeriod 4) 0
    let _ ← Receiver.popIn
    Receiver.wrongLength
  match untilCheck r with
  | .ok false _ =>
      if r.asc.ignoreCRCMismatch then [nCharChecksum]
      else [nCharChecksum, nCharChecksum]
  | _ => []

/-- The iterations of each loop of the call that is reached, once the buffer
starts with a frame. -/
def frameIterations (r : Receiver) : List Nat :=
  match r.asc.inBuf.findFirst endByte, r.asc.inBuf.findFirst periodByte with
  | .ok iEnd, .ok iPeriod =>
      if r.asc.inBuf.getSize <= iEnd then
        []
      else if iEnd < iPeriod then
        [iEnd + 1]
      else
        match Receiver.computedChecksum r.asc.ignoreCRCMismatch r,
          RingBuffer.popFrontN 4 r.asc.inBuf with
        | .ok _ _, .ok _ b =>
            popDataIterations (sizeSub iPeriod 4) b ::
              checksumIterations (r.withIn b r.received) iPeriod
        | _, _ => []
  | _, _ => []

/-- The iterations of each loop of `ascii_serial_com_get_message_from_input_buffer`
that is reached. -/
def loopIterations (r : Receiver) : List Nat :=
  match Receiver.onInBuf (RingBuffer.removeFrontUnfinishedFrames startByte
    endByte endByte_ne_startByte) r with
  | .ok _ r' => frameIterations r'
  | .error _ _ => []

/-- **The receiving function stays inside its buffers**, and no loop of it runs
more often than there are bytes in the input buffer. -/
def Asc.DecodesInside (asc : Asc) : Prop :=
  ConfinedFrom Receiver.getMessage asc ∧
    forall received n,
      n ∈ loopIterations { asc := asc, received := received } ->
        n <= asc.inBuf.getSize

/-- The period of the first frame is where the loop that fills `data` can cope
with it.  `kept` is what resynchronization leaves; a period among the first four
bytes is taken for a part of the header, and the next one ends the loop. -/
def PeriodFits (kept : List UInt8) : Prop :=
  let iEnd := kept.idxOf endByte
  let iPeriod := kept.idxOf periodByte
  let next := (kept.drop 4).idxOf periodByte
  kept.length <= iEnd ∨ iEnd < iPeriod ∨
    (4 <= iPeriod ∧ iPeriod <= maxDataLen + 4) ∨
    (iPeriod < 4 ∧ next <= maxDataLen ∧ next + 5 < kept.length)

instance (kept : List UInt8) : Decidable (PeriodFits kept) := by
  unfold PeriodFits
  infer_instance

/-!
## The loops
-/

theorem popDataIterations_le (remaining : Nat) (b : RingBuffer maxMessageLen) :
    popDataIterations remaining b <= b.getSize + 1 := by
  induction remaining generalizing b with
  | zero => exact Nat.zero_le _
  | succ remaining ih =>
      rw [popDataIterations]
      cases hc : b.contents with
      | nil =>
          rcases RingBuffer.popFront_of_nil hc with ⟨b', hpop, -⟩
          rw [hpop]
          exact Nat.le_add_left 1 _
      | cons c rest =>
          rcases RingBuffer.popFront_of_cons hc with ⟨b', hpop, hb'⟩
          have hsize : b.getSize = b'.getSize + 1 := by
            rw [← RingBuffer.length_contents, hc, List.length_cons, ← hb',
              RingBuffer.length_contents]
          rw [hpop]
          by_cases hperiod : c = periodByte
          · simp [hperiod]
          · simp only [if_neg hperiod, hsize]
            exact Nat.succ_le_succ (ih b')

theorem mem_checksumIterations {r : Receiver} {iPeriod n : Nat}
    (h : n ∈ checksumIterations r iPeriod) : n = nCharChecksum := by
  unfold checksumIterations at h
  simp only at h
  split at h
  · split at h
    · simpa using h
    · simpa using h
  · cases h

theorem frameIterations_le {r : Receiver} {n : Nat}
    (h : n ∈ frameIterations r) : n <= r.asc.inBuf.getSize := by
  unfold frameIterations at h
  split at h
  · split at h
    · cases h
    · rename_i iEnd iPeriod hEnd hPeriod hlt
      split at h
      · rw [List.mem_singleton] at h
        omega
      · split at h
        · rename_i computed r' b hchecksum hpop
          have hlen : b.getSize + 4 <= r.asc.inBuf.getSize :=
            RingBuffer.popFrontN_size hpop
          cases List.mem_cons.mp h with
          | inl hn =>
              have hle := popDataIterations_le (sizeSub iPeriod 4) b
              omega
          | inr hn =>
              rw [mem_checksumIterations hn]
              exact Nat.le_trans (Nat.le_add_left _ _) hlen
        · cases h
  · cases h

theorem loopIterations_le {r : Receiver} {n : Nat}
    (h : n ∈ loopIterations r) : n <= r.asc.inBuf.getSize := by
  unfold loopIterations at h
  rcases RingBuffer.removeFrontUnfinishedFrames_contents endByte_ne_startByte
    r.asc.inBuf with ⟨k, b, hremove, hb⟩
  have hlift : Receiver.onInBuf (RingBuffer.removeFrontUnfinishedFrames
      startByte endByte endByte_ne_startByte) r =
      .ok k (r.withIn b r.received) :=
    zoom_of_ok hremove
  rw [hlift] at h
  rcases resync_suffix startByte endByte r.asc.inBuf.contents with
    ⟨front, hfront⟩
  have hsize : b.getSize <= r.asc.inBuf.getSize := by
    rw [← RingBuffer.length_contents, ← RingBuffer.length_contents, hfront, hb,
      List.length_append]
    exact Nat.le_add_left _ _
  exact Nat.le_trans (frameIterations_le h) hsize

/-!
## What a call leaves in the results
-/

/-- Storing few enough bytes in `data` keeps the rest of it. -/
theorem confined_of_store {before after : Received}
    {outcome : Except Failure Unit} {data : List UInt8} (h : Harmless outcome)
    (hdata : after.data = Memory.store before.data 0 data)
    (hlen : after.dataLen <= data.length) (hfits : data.length <= maxDataLen) :
    Confined before outcome after where
  data := by
    intro i hi
    rw [hdata, Memory.store_of_ge]
    rw [Nat.zero_add]
    exact Nat.le_trans hfits hi
  dataLen := Or.inl (Nat.le_trans hlen hfits)
  harmless := h

/-- Storing more bytes than fit changes the cell behind `data`, unless it held
the same byte. -/
theorem not_confined_of_store {before after : Received}
    {outcome : Except Failure Unit} {data : List UInt8}
    (hdata : after.data = Memory.store before.data 0 data)
    (hlong : maxDataLen < data.length)
    (hne : data[maxDataLen] ≠ before.data maxDataLen) :
    ¬ Confined before outcome after := by
  intro h
  have hcell := h.data maxDataLen (Nat.le_refl _)
  rw [hdata, Memory.store, if_neg (Nat.not_lt_zero _), Nat.sub_zero,
    List.getElem?_eq_getElem hlong, Option.getD_some] at hcell
  exact hne hcell

namespace Receiver

variable {r : Receiver}

theorem Leaves.confined_iff {x : ReceiverM Unit} {rest : List UInt8}
    {outcome : Except Failure Unit} {after : Received}
    (h : Leaves r outcome rest after (x r)) :
    Confined r.received (Result.outcome (x r)) (Result.state (x r)).received <->
      Confined r.received outcome after := by
  rcases h with ⟨b, -, houtcome, hstate⟩
  rw [houtcome, hstate]
  rfl

/-- The end of the call leaves `data` alone, whatever bytes `after` it meets. -/
theorem exists_leaves_popTail (ignoreCRCMismatch : Bool)
    (computed after : List UInt8) :
    exists (outcome : Except Failure Unit) (rest : List UInt8)
      (f : Received -> Received),
      Harmless outcome ∧
      (forall received, (f received).data = received.data ∧
        (f received).dataLen <= received.dataLen) ∧
      forall r : Receiver, r.asc.inBuf.contents = after ->
        Leaves r outcome rest (f r.received)
          (popTail ignoreCRCMismatch computed r) := by
  by_cases hend : after[nCharChecksum]? = some endByte
  · exists .ok (), after.drop (nCharChecksum + 1), fun received =>
      if ¬ ignoreCRCMismatch ∧ after.take nCharChecksum ≠ computed then
        { received with command := 0, dataLen := 0 }
      else
        received
    refine ⟨by simp [Harmless], ?_, ?_⟩
    · intro received
      split
      · exact ⟨rfl, Nat.zero_le _⟩
      · exact ⟨rfl, Nat.le_refl _⟩
    · intro r hc
      exact leaves_popTail_of_end ignoreCRCMismatch hc hend
  · exists .error (.exception .invalidFrame), after, id
    refine ⟨by simp [Harmless], fun _ => ⟨rfl, Nat.le_refl _⟩, ?_⟩
    intro r hc
    exact leaves_popTail_of_no_end ignoreCRCMismatch hc hend

theorem leaves_onInBuf_of_error
    {x : EStateM Failure (RingBuffer maxMessageLen) α} {e : Failure}
    {b : RingBuffer maxMessageLen} (h : x r.asc.inBuf = .error e b) :
    Leaves r (.error e) b.contents r.received (onInBuf x r) := by
  have hrun : onInBuf x r = .error e (r.withIn b r.received) :=
    zoom_of_error h
  rw [hrun]
  exact ⟨b, rfl, rfl, rfl⟩

theorem leaves_popIn_of_nil (h : r.asc.inBuf.contents = []) :
    Leaves r (.error (.exception .cbPopEmpty)) [] r.received (popIn r) := by
  rcases RingBuffer.popFront_of_nil h with ⟨b, hpop, hraw⟩
  have hb : b.contents = [] := by
    rw [RingBuffer.contents, hraw]
    exact h
  rw [← hb]
  exact leaves_onInBuf_of_error hpop

/-- The loop that fills `data` ends with the period it meets, if it gets there. -/
theorem leaves_popData_of_period (data : List UInt8) {rest : List UInt8}
    {remaining : Nat} (hremaining : data.length < remaining)
    (h : r.asc.inBuf.contents = data ++ periodByte :: rest)
    (hperiod : periodByte ∉ data) :
    Leaves r (.ok ()) rest
      { r.received with
        data := Memory.store r.received.data 0 data
        dataLen := r.received.dataLen + data.length }
      (popData remaining 0 r) := by
  obtain ⟨k, rfl⟩ : exists k, remaining = data.length + (k + 1) :=
    ⟨remaining - data.length - 1, by omega⟩
  apply leaves_popData_append data (k + 1) 0 h hperiod
  intro b hb
  rw [popData]
  refine Leaves.bind (r := r.withIn b _) (leaves_popIn hb) fun b' hb' => ?_
  rw [if_pos rfl]
  exact ⟨b', hb', rfl, rfl⟩

theorem leaves_popData_of_no_period {data : List UInt8} {remaining : Nat}
    (hremaining : data.length < remaining)
    (h : r.asc.inBuf.contents = data) (hperiod : periodByte ∉ data) :
    Leaves r (.error (.exception .cbPopEmpty)) []
      { r.received with
        data := Memory.store r.received.data 0 data
        dataLen := r.received.dataLen + data.length }
      (popData remaining 0 r) := by
  obtain ⟨k, rfl⟩ : exists k, remaining = data.length + (k + 1) :=
    ⟨remaining - data.length - 1, by omega⟩
  have hnil : r.asc.inBuf.contents = data ++ [] := by
    rw [h, List.append_nil]
  apply leaves_popData_append data (k + 1) 0 hnil hperiod
  intro b hb
  rw [popData]
  exact Leaves.bind_error (r := r.withIn b _) (leaves_popIn_of_nil hb)

theorem idxOf_of_split {v : UInt8} {a b : List UInt8} (h : v ∉ a) :
    (a ++ v :: b).idxOf v = a.length :=
  CircularBufferUint8.findIdx_of_split h

/-!
## Taking a frame apart
-/

/-- A computation that ends without fault after it stored `data`. -/
def FillsData (x : ReceiverM Unit) (asc : Asc) (data : List UInt8) : Prop :=
  forall received, exists outcome rest after,
    Harmless outcome ∧ after.data = Memory.store received.data 0 data ∧
      after.dataLen <= data.length ∧
      Leaves { asc := asc, received := received } outcome rest after
        (x { asc := asc, received := received })

variable {asc : Asc} {x : ReceiverM Unit}

theorem FillsData.confinedFrom_iff {data : List UInt8}
    (h : FillsData x asc data) :
    ConfinedFrom x asc <-> data.length <= maxDataLen := by
  constructor
  · intro hconfined
    by_contra hlong
    rw [Nat.not_le] at hlong
    -- the cell behind `data` held another byte
    let before : Received :=
      { Received.blank with data := fun _ => data[maxDataLen] + 1 }
    rcases h before with ⟨outcome, rest, after, -, hdata, -, hleaves⟩
    refine not_confined_of_store hdata hlong ?_
      (hleaves.confined_iff.mp (hconfined before))
    intro heq
    have hone : data[maxDataLen] + 0 = data[maxDataLen] + 1 := by
      rw [UInt8.add_zero]
      exact heq
    exact absurd (UInt8.add_right_inj _ |>.mp hone) (by decide)
  · intro hfits received
    rcases h received with
      ⟨outcome, rest, after, hharmless, hdata, hlen, hleaves⟩
    exact hleaves.confined_iff.mpr
      (confined_of_store hharmless hdata hlen hfits)

theorem not_confinedFrom_of_popEmpty (received : Received)
    (h : Result.outcome (x { asc := asc, received := received }) =
      .error (.exception .cbPopEmpty)) :
    ¬ ConfinedFrom x asc := fun hconfined =>
  (hconfined received).harmless.left h

theorem outcome_bind_of_error {y : ReceiverM α} {f : α -> ReceiverM β}
    {e : Failure} {rest : List UInt8} {received : Received}
    (h : Leaves r (.error e) rest received (y r)) :
    Result.outcome ((y >>= f) r) = .error e := by
  rcases h.eq_error with ⟨b, -, hrun⟩
  rw [bind_of_error hrun, Result.outcome_error]

/-- The frame of a message of any length fills `data` with the message's. -/
theorem fillsData_popFrame (ignoreCRCMismatch : Bool) {m : Message}
    {computed after : List UInt8}
    (hc : asc.inBuf.contents =
      startByte :: (m.fields ++ periodByte :: after))
    (hperiod : periodByte ∉ m.data) :
    FillsData (popFrame ignoreCRCMismatch (m.data.length + 4) computed) asc
      m.data := by
  intro received
  rcases exists_leaves_popTail ignoreCRCMismatch computed after with
    ⟨outcome, rest, f, hharmless, hf, htail⟩
  rcases hf (Received.ofMessage received.data m) with ⟨hdata, hlen⟩
  exact ⟨outcome, rest, f (Received.ofMessage received.data m), hharmless,
    hdata, hlen,
    leaves_popFrame ignoreCRCMismatch (r := { asc := asc, received := received })
      hc hperiod fun b hb => htail _ hb⟩

section Short

variable {start ascVersion appVersion command : UInt8} {iPeriod : Nat}
  {computed : List UInt8} {ignoreCRCMismatch : Bool}

/-- A period among the first four bytes is not the end of the data, but the next
one is. -/
theorem leaves_popFrame_of_next {data after rest : List UInt8} {c : UInt8}
    {outcome : Except Failure Unit} {received : Received}
    (hc : r.asc.inBuf.contents = start :: ascVersion :: appVersion :: command ::
      (data ++ periodByte :: c :: after))
    (hperiod : periodByte ∉ data) (hremaining : data.length < sizeSub iPeriod 4)
    (htail : forall b : RingBuffer maxMessageLen, b.contents = after ->
      Leaves r outcome rest received
        (popTail ignoreCRCMismatch computed
          (r.withIn b
            { ascVersion := ascVersion
              appVersion := appVersion
              command := command
              data := Memory.store r.received.data 0 data
              dataLen := data.length }))) :
    Leaves r outcome rest received
      (popFrame ignoreCRCMismatch iPeriod computed r) := by
  rcases popFrame_of_header ignoreCRCMismatch iPeriod computed hc with
    ⟨b, hb, hrun⟩
  rw [hrun]
  refine Leaves.bind (r := r.withIn b _)
    (leaves_popData_of_period data hremaining hb hperiod) fun b1 h1 => ?_
  refine Leaves.bind (r := r.withIn b1 _) (leaves_popIn h1) fun b2 h2 => ?_
  have hdone := htail b2 h2
  simp only [withIn, Nat.zero_add] at hdone ⊢
  exact hdone

theorem fillsData_popFrame_of_next {data rest : List UInt8} {c : UInt8}
    (hc : asc.inBuf.contents = start :: ascVersion :: appVersion :: command ::
      (data ++ periodByte :: c :: rest))
    (hperiod : periodByte ∉ data)
    (hremaining : data.length < sizeSub iPeriod 4) :
    FillsData (popFrame ignoreCRCMismatch iPeriod computed) asc data := by
  intro received
  rcases exists_leaves_popTail ignoreCRCMismatch computed rest with
    ⟨outcome, rest', f, hharmless, hf, htail⟩
  let filled : Received :=
    { ascVersion := ascVersion
      appVersion := appVersion
      command := command
      data := Memory.store received.data 0 data
      dataLen := data.length }
  rcases hf filled with ⟨hdata, hlen⟩
  exact ⟨outcome, rest', f filled, hharmless, hdata, hlen,
    leaves_popFrame_of_next (r := { asc := asc, received := received }) hc
      hperiod hremaining fun b hb => htail _ hb⟩

/-- When nothing follows the next period, the byte behind it cannot be popped. -/
theorem not_confinedFrom_popFrame_of_last {data : List UInt8}
    (hc : asc.inBuf.contents = start :: ascVersion :: appVersion :: command ::
      (data ++ [periodByte]))
    (hperiod : periodByte ∉ data)
    (hremaining : data.length < sizeSub iPeriod 4) :
    ¬ ConfinedFrom (popFrame ignoreCRCMismatch iPeriod computed) asc := by
  rcases popFrame_of_header (r := { asc := asc, received := Received.blank })
    ignoreCRCMismatch iPeriod computed hc with ⟨b, hb, hrun⟩
  rcases (leaves_popData_of_period (r := Receiver.withIn _ b _) data hremaining
    hb hperiod).eq_ok with ⟨b', hb', hdata⟩
  apply not_confinedFrom_of_popEmpty Received.blank
  rw [hrun, bind_of_ok hdata]
  exact outcome_bind_of_error (leaves_popIn_of_nil hb')

/-- When there is no next period, the loop that fills `data` empties the
buffer. -/
theorem not_confinedFrom_popFrame_of_no_period {data : List UInt8}
    (hc : asc.inBuf.contents =
      start :: ascVersion :: appVersion :: command :: data)
    (hperiod : periodByte ∉ data)
    (hremaining : data.length < sizeSub iPeriod 4) :
    ¬ ConfinedFrom (popFrame ignoreCRCMismatch iPeriod computed) asc := by
  rcases popFrame_of_header (r := { asc := asc, received := Received.blank })
    ignoreCRCMismatch iPeriod computed hc with ⟨b, hb, hrun⟩
  apply not_confinedFrom_of_popEmpty Received.blank
  rw [hrun]
  exact outcome_bind_of_error
    (leaves_popData_of_no_period hremaining hb hperiod)

theorem not_confinedFrom_popFrame_of_three {a b c : UInt8}
    (hc : asc.inBuf.contents = [a, b, c]) :
    ¬ ConfinedFrom (popFrame ignoreCRCMismatch iPeriod computed) asc := by
  let r : Receiver := { asc := asc, received := Received.blank }
  rcases (leaves_popIn (r := r) hc).eq_ok with ⟨b1, h1, hrun1⟩
  rcases (leaves_popIn (r := r.withIn b1 r.received) h1).eq_ok with
    ⟨b2, h2, hrun2⟩
  rcases (leaves_popIn (r := r.withIn b2
    { r.received with ascVersion := b }) h2).eq_ok with
    ⟨b3, h3, hrun3⟩
  apply not_confinedFrom_of_popEmpty Received.blank
  have hheader : popFrame ignoreCRCMismatch iPeriod computed r =
      (do
        let command ← popIn
        modifyReceived fun out => { out with command := command, dataLen := 0 }
        popData (sizeSub iPeriod 4) 0
        let _ ← popIn
        popTail ignoreCRCMismatch computed : ReceiverM Unit)
        (r.withIn b3
          { r.received with ascVersion := b, appVersion := c }) := by
    rw [popFrame]
    refine (bind_of_ok hrun1).trans ?_
    refine (bind_of_ok hrun2).trans ?_
    refine (bind_of_ok (modify_apply _ _)).trans ?_
    refine (bind_of_ok hrun3).trans ?_
    exact bind_of_ok (modify_apply _ _)
  rw [hheader]
  exact outcome_bind_of_error (leaves_popIn_of_nil h3)

theorem exists_header {kept : List UInt8} (h : 4 <= kept.length) :
    exists a b c d after, kept = a :: b :: c :: d :: after := by
  rcases kept with _ | ⟨a, _ | ⟨b, _ | ⟨c, _ | ⟨d, after⟩⟩⟩⟩
  · simp at h
  · simp at h
  · simp at h
  · simp at h
  · exact ⟨a, b, c, d, after, rfl⟩

/-- Which frames with a period among the first four bytes are confined, when
nothing refuses them. -/
theorem confinedFrom_popFrame_iff_of_early {kept : List UInt8}
    (hc : asc.inBuf.contents = kept) (hthree : 3 <= kept.length)
    (hearly : iPeriod < 4) :
    ConfinedFrom (popFrame ignoreCRCMismatch iPeriod computed) asc <->
      (kept.drop 4).idxOf periodByte <= maxDataLen ∧
        (kept.drop 4).idxOf periodByte + 5 < kept.length := by
  have hsize : kept.length <= maxMessageLen := by
    rw [← hc]
    exact asc.inBuf.length_contents_le
  have hsub (n : Nat) (hn : n <= maxMessageLen) : n < sizeSub iPeriod 4 := by
    rw [sizeSub, sizeModulus]
    rw [maxMessageLen] at hn
    omega
  rcases Nat.eq_or_lt_of_le hthree with hthree | hfour
  · rcases List.length_eq_three.mp hthree.symm with ⟨a, b, c, rfl⟩
    constructor
    · intro h
      exact absurd h (not_confinedFrom_popFrame_of_three hc)
    · intro h
      exact absurd h.right (by simp)
  rcases exists_header hfour with ⟨a, b, c, d, after, rfl⟩
  simp only [List.drop_succ_cons, List.drop_zero, List.length_cons] at hsize ⊢
  rcases not_mem_or_split periodByte after with
    hperiod | ⟨data, more, rfl, hperiod⟩
  · rw [List.idxOf_eq_length hperiod]
    constructor
    · intro h
      exact absurd h (not_confinedFrom_popFrame_of_no_period hc hperiod
        (hsub _ (by omega)))
    · intro h
      omega
  rw [idxOf_of_split hperiod, List.length_append, List.length_cons]
  rw [List.length_append, List.length_cons] at hsize
  have hremaining := hsub data.length (by omega)
  cases more with
  | nil =>
      constructor
      · intro h
        exact absurd h
          (not_confinedFrom_popFrame_of_last hc hperiod hremaining)
      · intro h
        rw [List.length_nil] at h
        omega
  | cons x more =>
      have hfills : FillsData (popFrame ignoreCRCMismatch iPeriod computed) asc
          data := fillsData_popFrame_of_next hc hperiod hremaining
      rw [hfills.confinedFrom_iff, List.length_cons]
      constructor
      · intro h
        exact ⟨h, by omega⟩
      · intro h
        exact h.left

end Short

/-!
## The whole call
-/

theorem confinedFrom_congr {y : ReceiverM Unit} (asc' : Asc)
    (h : forall received, x { asc := asc, received := received } =
      y { asc := asc', received := received }) :
    ConfinedFrom x asc <-> ConfinedFrom y asc' := by
  simp only [ConfinedFrom, h]

theorem confinedFrom_of_leaves {outcome : Except Failure Unit}
    {rest : List UInt8} (hharmless : Harmless outcome) (f : Received -> Received)
    (hf : forall received, (f received).data = received.data ∧
      (outcome ≠ .ok () ∧ (f received).dataLen = received.dataLen ∨
        (f received).dataLen = 0))
    (h : forall received,
      Leaves { asc := asc, received := received } outcome rest (f received)
        (x { asc := asc, received := received })) :
    ConfinedFrom x asc := by
  intro received
  rcases hf received with ⟨hdata, hlen⟩
  apply (h received).confined_iff.mpr
  refine ⟨fun i _ => by rw [hdata], ?_, hharmless⟩
  cases hlen with
  | inl hsame => exact Or.inr hsame
  | inr hzero => exact Or.inl (Nat.le_trans (Nat.le_of_eq hzero) (Nat.zero_le _))

theorem confinedFrom_of_reportNone (rest : List UInt8)
    (h : forall received,
      Leaves { asc := asc, received := received } (.ok ()) rest
        { received with command := 0, dataLen := 0 }
        (x { asc := asc, received := received })) :
    ConfinedFrom x asc :=
  confinedFrom_of_leaves (by simp [Harmless])
    (fun received => { received with command := 0, dataLen := 0 })
    (fun _ => ⟨rfl, Or.inr rfl⟩) h

theorem confinedFrom_of_throw {e : AscException} {rest : List UInt8}
    (hpop : e ≠ .cbPopEmpty) (hoob : e ≠ .cbOob)
    (h : forall received,
      Leaves { asc := asc, received := received } (.error (.exception e)) rest
        received (x { asc := asc, received := received })) :
    ConfinedFrom x asc :=
  confinedFrom_of_leaves (by simp [Harmless, hpop, hoob]) id
    (fun _ => ⟨rfl, Or.inl ⟨by simp, rfl⟩⟩) h

section Framed

variable {fields tail later : List UInt8}

/-- The period of the first frame, seen from the length of its fields. -/
theorem periodFits_iff_of_frame
    (hend : endByte ∉ fields ++ periodByte :: tail)
    (hperiod : periodByte ∉ fields) {kept : List UInt8}
    (hkept : startByte :: (fields ++ periodByte :: (tail ++ endByte :: later)) =
      kept) :
    PeriodFits kept <->
      (3 <= fields.length ∧ fields.length <= maxDataLen + 3) ∨
        (fields.length < 3 ∧ (kept.drop 4).idxOf periodByte <= maxDataLen ∧
          (kept.drop 4).idxOf periodByte + 5 < kept.length) := by
  have hiEnd : kept.idxOf endByte = fields.length + tail.length + 2 := by
    have hsplit : kept =
        (startByte :: (fields ++ periodByte :: tail)) ++ endByte :: later := by
      rw [← hkept]
      simp
    rw [hsplit, idxOf_of_split (by
      rw [List.mem_cons, not_or]
      exact ⟨endByte_ne_startByte, hend⟩)]
    simp only [List.length_cons, List.length_append]
    omega
  have hiPeriod : kept.idxOf periodByte = fields.length + 1 := by
    have hsplit : kept =
        (startByte :: fields) ++ periodByte :: (tail ++ endByte :: later) :=
      hkept.symm
    rw [hsplit, idxOf_of_split (by simp [hperiod]; decide)]
    rfl
  have hlen : kept.length =
      fields.length + tail.length + later.length + 3 := by
    rw [← hkept]
    simp only [List.length_cons, List.length_append]
    omega
  unfold PeriodFits
  simp only [hiEnd, hiPeriod]
  constructor
  · rintro (h | h | h | h)
    · omega
    · omega
    · exact Or.inl ⟨by omega, by omega⟩
    · exact Or.inr ⟨by omega, h.right⟩
  · rintro (h | h)
    · exact Or.inr (Or.inr (Or.inl ⟨by omega, by omega⟩))
    · exact Or.inr (Or.inr (Or.inr ⟨by omega, h.right⟩))

/-- A period that comes neither too early nor too late, in either mode. -/
theorem confinedFrom_getFrame_iff_of_header
    (hc : asc.inBuf.contents =
      startByte :: (fields ++ periodByte :: (tail ++ endByte :: later)))
    (hend : endByte ∉ fields ++ periodByte :: tail)
    (hperiod : periodByte ∉ fields) (hthree : 3 <= fields.length)
    {computed : List UInt8}
    (hchecksum : (if asc.ignoreCRCMismatch then .ok []
      else computeChecksum false asc.inBuf) = .ok computed) :
    ConfinedFrom getFrame asc <-> fields.length <= maxDataLen + 3 := by
  rcases Message.exists_eq_fields hthree with ⟨m, rfl⟩
  have hdata : periodByte ∉ m.data := mt m.mem_fields_of_mem_data hperiod
  have hfills : FillsData (popFrame asc.ignoreCRCMismatch (m.data.length + 4)
      computed) asc m.data :=
    fillsData_popFrame _ hc hdata
  rw [confinedFrom_congr (y := popFrame asc.ignoreCRCMismatch
    (m.data.length + 4) computed) asc fun received => by
      rw [getFrame_eq_popFrame (r := { asc := asc, received := received }) hc
        hend hperiod hchecksum, m.fields_length]]
  rw [hfills.confinedFrom_iff, m.fields_length]
  exact Nat.add_le_add_iff_right.symm

/-- While checksums are ignored, the position of the period decides. -/
theorem confinedFrom_getFrame_iff_of_ignore
    (hc : asc.inBuf.contents =
      startByte :: (fields ++ periodByte :: (tail ++ endByte :: later)))
    (hend : endByte ∉ fields ++ periodByte :: tail)
    (hperiod : periodByte ∉ fields) (hignore : asc.ignoreCRCMismatch = true) :
    ConfinedFrom getFrame asc <-> PeriodFits asc.inBuf.contents := by
  have hchecksum : (if asc.ignoreCRCMismatch then .ok []
      else computeChecksum false asc.inBuf) = .ok [] := by
    rw [if_pos hignore]
  rw [periodFits_iff_of_frame hend hperiod hc.symm]
  by_cases hthree : 3 <= fields.length
  · rw [confinedFrom_getFrame_iff_of_header hc hend hperiod hthree hchecksum]
    constructor
    · intro h
      exact Or.inl ⟨hthree, h⟩
    · rintro (h | h)
      · exact h.right
      · omega
  · rw [confinedFrom_congr (y := popFrame asc.ignoreCRCMismatch
      (fields.length + 1) []) asc fun received =>
        getFrame_eq_popFrame (r := { asc := asc, received := received }) hc hend
          hperiod hchecksum]
    rw [confinedFrom_popFrame_iff_of_early rfl (by rw [hc]; simp; omega)
      (by omega)]
    constructor
    · intro h
      exact Or.inr ⟨by omega, h⟩
    · rintro (h | h)
      · omega
      · exact h.right

/-- While checksums are checked, the checksum computation refuses the other
periods. -/
theorem confinedFrom_getFrame_of_check
    (hc : asc.inBuf.contents =
      startByte :: (fields ++ periodByte :: (tail ++ endByte :: later)))
    (hend : endByte ∉ fields ++ periodByte :: tail)
    (hperiod : periodByte ∉ fields) (hcheck : asc.ignoreCRCMismatch = false) :
    ConfinedFrom getFrame asc := by
  have hchecksum {outcome : Except Failure (List UInt8)}
      (h : computeChecksum false asc.inBuf = outcome) :
      (if asc.ignoreCRCMismatch then .ok []
        else computeChecksum false asc.inBuf) = outcome := by
    rw [hcheck]
    exact h
  have hblocks := checksumBlocks_in hc hperiod
  have hthrown {e : AscException}
      (h : checksumBlocks false asc.inBuf = .error (.exception e))
      (received : Received) :
      Leaves { asc := asc, received := received } (.error (.exception e))
        asc.inBuf.contents received
        (getFrame { asc := asc, received := received }) := by
    rw [getFrame_eq_popFrame (r := { asc := asc, received := received }) hc hend
      hperiod (hchecksum (computeChecksum_of_error h))]
    exact ⟨asc.inBuf, rfl, rfl, rfl⟩
  by_cases hlong : maxDataLen + 3 < fields.length
  · rw [if_pos hlong] at hblocks
    exact confinedFrom_of_throw (by decide) (by decide) (hthrown hblocks)
  · by_cases hshort : fields.length < 3
    · rw [if_neg hlong, if_pos hshort] at hblocks
      exact confinedFrom_of_throw (by decide) (by decide) (hthrown hblocks)
    · rw [Nat.not_lt] at hlong hshort
      exact (confinedFrom_getFrame_iff_of_header hc hend hperiod hshort
        (hchecksum (computeChecksum_in hc hperiod hlong hshort))).mpr hlong

theorem confinedFrom_getFrame_iff_of_frame
    (hc : asc.inBuf.contents =
      startByte :: (fields ++ periodByte :: (tail ++ endByte :: later)))
    (hend : endByte ∉ fields ++ periodByte :: tail)
    (hperiod : periodByte ∉ fields) :
    ConfinedFrom getFrame asc <->
      asc.ignoreCRCMismatch = false ∨ PeriodFits asc.inBuf.contents := by
  cases hmode : asc.ignoreCRCMismatch with
  | false =>
      exact ⟨fun _ => Or.inl rfl,
        fun _ => confinedFrom_getFrame_of_check hc hend hperiod hmode⟩
  | true =>
      rw [confinedFrom_getFrame_iff_of_ignore hc hend hperiod hmode]
      simp

end Framed

theorem confinedFrom_getFrame_iff {d : Decoded} {rest : List UInt8}
    (h : DecodeCase asc.inBuf.contents d rest) :
    ConfinedFrom getFrame asc <->
      asc.ignoreCRCMismatch = false ∨ PeriodFits asc.inBuf.contents := by
  generalize hc : asc.inBuf.contents = kept at h
  cases h with
  | empty =>
      refine iff_of_true ?_ (Or.inr (Or.inl (Nat.le_refl _)))
      exact confinedFrom_of_reportNone _ fun received =>
        leaves_getFrame_of_growing (r := { asc := asc, received := received })
          hc (by simp)
  | @growing body hend hstart =>
      have hnot : endByte ∉ startByte :: body := by
        rw [List.mem_cons, not_or]
        exact ⟨endByte_ne_startByte, hend⟩
      refine iff_of_true ?_
        (Or.inr (Or.inl (Nat.le_of_eq (List.idxOf_eq_length hnot).symm)))
      exact confinedFrom_of_reportNone _ fun received =>
        leaves_getFrame_of_growing (r := { asc := asc, received := received })
          hc hnot
  | @noPeriod body _ hend hstart hperiod =>
      have hfront : endByte ∉ startByte :: body := by
        rw [List.mem_cons, not_or]
        exact ⟨endByte_ne_startByte, hend⟩
      have hno : periodByte ∉ startByte :: (body ++ [endByte]) := by
        simp only [List.mem_cons, List.mem_append, not_or]
        exact ⟨by decide, hperiod, by decide, List.not_mem_nil⟩
      have hiEnd : (startByte :: (body ++ endByte :: rest)).idxOf endByte =
          body.length + 1 := idxOf_of_split hfront
      have hiPeriod : (startByte :: (body ++ endByte :: rest)).idxOf periodByte =
          body.length + 2 + rest.idxOf periodByte := by
        rw [List.append_cons, ← List.cons_append,
          List.idxOf_append_of_notMem hno]
        simp
      refine iff_of_true ?_ (Or.inr (Or.inr (Or.inl ?_)))
      · exact confinedFrom_of_throw (by decide) (by decide) fun received =>
          leaves_getFrame_of_noPeriod
            (r := { asc := asc, received := received }) hc hend hperiod
      · rw [hiEnd, hiPeriod]
        omega
  | overlong hend hstart hperiod hlong =>
      rw [← hc]
      exact confinedFrom_getFrame_iff_of_frame hc hend hperiod
  | short hend hstart hperiod hshort =>
      rw [← hc]
      exact confinedFrom_getFrame_iff_of_frame hc hend hperiod
  | wrongLength hend hstart hperiod hlong hlength =>
      rw [← hc]
      exact confinedFrom_getFrame_iff_of_frame hc hend hperiod
  | checked hend hstart hperiod hlong hlength =>
      rw [← hc]
      exact confinedFrom_getFrame_iff_of_frame hc hend hperiod

theorem confinedFrom_getMessage_iff (asc : Asc) :
    ConfinedFrom getMessage asc <-> asc.ignoreCRCMismatch = false ∨
      PeriodFits (resync startByte endByte asc.inBuf.contents) := by
  by_cases hsize : asc.inBuf.getSize = 0
  · have hc : asc.inBuf.contents = [] := by
      rw [← List.length_eq_zero_iff, RingBuffer.length_contents, hsize]
    refine iff_of_true ?_ (Or.inr (Or.inl ?_))
    · apply confinedFrom_of_reportNone asc.inBuf.contents
      intro received
      rw [getMessage, bind_of_ok (get_apply _), if_pos hsize]
      exact leaves_reportNone
    · rw [hc]
      exact Nat.le_refl _
  · rcases getMessage_eq_getFrame
      (r := { asc := asc, received := Received.blank }) hsize with
      ⟨b, hb, hrun⟩
    have hcase := decode_cases asc.inBuf.contents
    rw [← hb] at hcase ⊢
    rw [confinedFrom_congr { asc with inBuf := b } hrun]
    exact confinedFrom_getFrame_iff hcase

end Receiver

namespace Asc

/-- **The receiving function stays inside its buffers** exactly when checksums
are checked, or the period of the first frame is where it fits. -/
theorem decodesInside_iff_periodFits (asc : Asc) :
    asc.DecodesInside <-> asc.ignoreCRCMismatch = false ∨
      PeriodFits (resync startByte endByte asc.inBuf.contents) := by
  have hloops : forall received n,
      n ∈ loopIterations { asc := asc, received := received } ->
        n <= asc.inBuf.getSize := fun received n hn => loopIterations_le hn
  rw [DecodesInside, and_iff_left hloops]
  exact Receiver.confinedFrom_getMessage_iff asc

/-- An interface that ignores checksums, about to receive a frame without a
header. -/
def holdingEmptyFrame : Asc :=
  { (Receiver.holding [startByte, periodByte, endByte]).asc with
    ignoreCRCMismatch := true }

/-- Its header is not there to be popped. -/
theorem not_decodesInside_of_emptyFrame :
    ¬ holdingEmptyFrame.DecodesInside := by
  have hc : holdingEmptyFrame.inBuf.contents =
      [startByte, periodByte, endByte] :=
    Receiver.holding_contents _ (by decide)
  intro h
  have hfits := (Receiver.confinedFrom_getMessage_iff _).mp h.left
  rw [hc] at hfits
  revert hfits
  decide

end Asc
end AsciiSerialCom
