import AsciiSerialCom.Device.Polling
import AsciiSerialCom.SerialCom.LooseFrames
import AsciiSerialCom.SerialCom.Loopback
import AsciiSerialCom.SerialCom.Wire

/-!
# A loopback that ignores checksums

The main loop of `stm32f091nucleo64_asc_loopback.c`.  The program takes any
checksum and sends right ones, so a host can type its messages by hand.  A call
comes after every byte, at whatever time the bytes arrive: so the program loses no
message, and sends every message back that has a checksum at all.
-/

namespace AsciiSerialCom

open Foundation
open Foundation.Delimited
open Foundation.StateError
open Foundation.Run

namespace AscLoopback

/-- The statements of the loop. -/
inductive Statement where
  | moveInput
  | loopBack
  | transmit
  deriving DecidableEq, Repr

/-- The statement that follows, around the loop. -/
def Statement.next : Statement -> Statement
  | moveInput => loopBack
  | loopBack => transmit
  | transmit => moveInput

end AscLoopback

/-- The variables of the program, with the serial line. -/
structure AscLoopback where
  receiver : Receiver
  extraInputBuffer : RingBuffer extraInputBufferSize
  nExceptions : BitVec 16
  /-- the statement that is executed next -/
  statement : AscLoopback.Statement
  /-- the transmitter takes a byte -/
  uartReady : Bool
  /-- the bytes received so far -/
  arrived : List UInt8
  /-- the bytes the transmitter has taken -/
  transmitted : List UInt8

abbrev AscLoopbackM := EStateM Failure AscLoopback

namespace AscLoopback

/-- `ascii_serial_com_set_ignore_CRC_mismatch` -/
def setIgnoreCRCMismatch (asc : Asc) : Asc :=
  { asc with ignoreCRCMismatch := true }

/-- The program when it enters its loop. -/
def start (received : Received) (uartReady : Bool) : AscLoopback :=
  { receiver :=
      { asc := setIgnoreCRCMismatch Asc.init
        received := received }
    extraInputBuffer := RingBuffer.fresh 6
    nExceptions := 0
    statement := .moveInput
    uartReady := uartReady
    arrived := []
    transmitted := [] }

def inBuf (s : AscLoopback) : RingBuffer maxMessageLen := s.receiver.asc.inBuf

def outBuf (s : AscLoopback) : RingBuffer maxMessageLen := s.receiver.asc.outBuf

def withInBuf (b : RingBuffer maxMessageLen) (s : AscLoopback) : AscLoopback :=
  let r := s.receiver
  { s with receiver := { r with asc := { r.asc with inBuf := b } } }

def withOutBuf (b : RingBuffer maxMessageLen) (s : AscLoopback) :
    AscLoopback :=
  let r := s.receiver
  { s with receiver := { r with asc := { r.asc with outBuf := b } } }

/-- The statements of the loop in `main`. -/
def body : Statement -> AscLoopbackM Unit
  | .moveInput => do
      let s ← get
      if ¬ s.extraInputBuffer.isEmpty then do
        let tmpByte ← zoom extraInputBuffer
          (fun b s => { s with extraInputBuffer := b }) RingBuffer.popFront
        modify fun s => s.withInBuf (s.inBuf.pushBack tmpByte)
      else
        pure ()
  | .loopBack =>
      zoom AscLoopback.receiver (fun r s => { s with receiver := r }) loopback
  | .transmit => do
      let s ← get
      if ¬ s.outBuf.isEmpty ∧ s.uartReady then do
        let tmpByte ← zoom outBuf withOutBuf RingBuffer.popFront
        modify fun s =>
          { s with
            uartReady := false
            transmitted := s.transmitted ++ [tmpByte] }
      else
        pure ()

/-- Execute a statement; an exception ends the iteration and is counted. -/
def execute (s : AscLoopback) : AscLoopback :=
  match body s.statement s with
  | .ok _ s' => { s' with statement := s.statement.next }
  | .error _ s' =>
      { s' with
        statement := .moveInput
        nExceptions := s'.nExceptions + 1 }

/-- What happens next. -/
inductive Event where
  /-- a received byte waits, and interrupts -/
  | arrive (b : UInt8)
  /-- the transmitter gets ready -/
  | ready
  /-- the next statement is executed -/
  | execute
  deriving DecidableEq, Repr

def step (s : AscLoopback) : Event -> AscLoopback
  | .arrive b =>
      { s with
        extraInputBuffer := s.extraInputBuffer.pushBack b
        arrived := s.arrived ++ [b] }
  | .ready => { s with uartReady := true }
  | .execute => s.execute

variable {s : AscLoopback}

/-!
## What a statement does
-/

/-- All that a statement can come to. -/
inductive BodyCase (s : AscLoopback) :
    EStateM.Result Failure AscLoopback Unit -> Prop where
  | moved {b : UInt8} {extra : RingBuffer extraInputBufferSize}
      (h : s.statement = .moveInput)
      (hextra : s.extraInputBuffer.contents = b :: extra.contents) :
      BodyCase s
        (.ok ()
          { withInBuf (s.inBuf.pushBack b) s with extraInputBuffer := extra })
  | notMoved (h : s.statement = .moveInput) : BodyCase s (.ok () s)
  | loopedBack {r : Receiver} (h : s.statement = .loopBack)
      (hrun : loopback s.receiver = .ok () r) :
      BodyCase s (.ok () { s with receiver := r })
  | threw {r : Receiver} {e : Failure} (h : s.statement = .loopBack)
      (hrun : loopback s.receiver = .error e r) :
      BodyCase s (.error e { s with receiver := r })
  | transmitted {b : UInt8} {out : RingBuffer maxMessageLen}
      (h : s.statement = .transmit)
      (hout : s.outBuf.contents = b :: out.contents) :
      BodyCase s
        (.ok ()
          { withOutBuf out s with
            uartReady := false
            transmitted := s.transmitted ++ [b] })
  | notTransmitted (h : s.statement = .transmit) : BodyCase s (.ok () s)

/-- **Every statement comes to one of the cases.** -/
theorem body_cases (s : AscLoopback) : BodyCase s (body s.statement s) := by
  cases h : s.statement with
  | moveInput =>
      rw [body, bind_of_ok (get_apply s)]
      cases hextra : s.extraInputBuffer.contents with
      | nil =>
          rw [if_neg (not_not_intro (s.extraInputBuffer.isEmpty_iff.mpr hextra))]
          exact .notMoved h
      | cons b rest =>
          have hne : ¬ s.extraInputBuffer.isEmpty := by
            rw [s.extraInputBuffer.isEmpty_iff, hextra]
            exact List.cons_ne_nil b rest
          rcases RingBuffer.popFront_of_cons hextra with ⟨extra, hpop, hrest⟩
          have hzoom : zoom extraInputBuffer
              (fun b s => { s with extraInputBuffer := b })
              RingBuffer.popFront s =
              .ok b { s with extraInputBuffer := extra } := zoom_of_ok hpop
          rw [← hrest] at hextra
          rw [if_pos hne, bind_of_ok hzoom]
          exact .moved h hextra
  | loopBack =>
      cases hrun : loopback s.receiver with
      | ok u r =>
          have hzoom : zoom AscLoopback.receiver
              (fun r s => { s with receiver := r }) loopback s =
              .ok () { s with receiver := r } := zoom_of_ok hrun
          rw [body, hzoom]
          exact .loopedBack h hrun
      | error e r =>
          have hzoom : zoom AscLoopback.receiver
              (fun r s => { s with receiver := r }) loopback s =
              .error e { s with receiver := r } := zoom_of_error hrun
          rw [body, hzoom]
          exact .threw h hrun
  | transmit =>
      rw [body, bind_of_ok (get_apply s)]
      by_cases hready : ¬ s.outBuf.isEmpty ∧ s.uartReady
      · cases hout : s.outBuf.contents with
        | nil => exact absurd (s.outBuf.isEmpty_iff.mpr hout) hready.left
        | cons b rest =>
            rcases RingBuffer.popFront_of_cons hout with ⟨out, hpop, hrest⟩
            have hzoom : zoom outBuf withOutBuf RingBuffer.popFront s =
                .ok b (withOutBuf out s) := zoom_of_ok hpop
            rw [← hrest] at hout
            rw [if_pos hready, bind_of_ok hzoom]
            exact .transmitted h hout
      · rw [if_neg hready]
        exact .notTransmitted h

/-!
## What holds in every run
-/

/-- The messages `looped` are the loose frames of what has come out of the input
buffer, and have been sent back. -/
structure Loops (s : AscLoopback) (looped : List Message) : Prop where
  ignores : s.receiver.asc.ignoreCRCMismatch = true
  valid : forall m, m ∈ looped -> m.Valid
  settled : s.statement ≠ .loopBack -> Settled s.inBuf.contents
  ends : EndsWithFrame s.inBuf.contents
  frames : forall t, looseFrames (s.arrived ++ t) =
    looped ++
      looseFrames (s.inBuf.contents ++ (s.extraInputBuffer.contents ++ t))
  output_eq : s.transmitted ++ s.outBuf.contents = framesOf looped

/-- Bytes arrive while there is room for them; a frame has its period in place,
and its message fits behind an unwrapped backlog. -/
def Admits (s : AscLoopback) : Event -> Prop
  | .arrive _ => s.extraInputBuffer.contents.length < extraInputBufferSize
  | .ready => True
  | .execute => s.statement = .loopBack ->
      PeriodInPlace (resync startByte endByte s.inBuf.contents) ∧
        EchoFits s.receiver (decodeLoosely s.inBuf.contents).1

instance (s : AscLoopback) : (event : Event) -> Decidable (s.Admits event)
  | .arrive _ => inferInstanceAs (Decidable (_ < _))
  | .ready => inferInstanceAs (Decidable True)
  | .execute => inferInstanceAs (Decidable (_ -> _ ∧ _))

/-- No statement leaves its memory. -/
def Sound (s : AscLoopback) : Event -> Prop
  | .execute => Result.outcome (body s.statement s) ≠ .error .outOfBounds
  | _ => True

namespace Loops

variable {looped : List Message}

theorem start (received : Received) (uartReady : Bool) :
    Loops (AscLoopback.start received uartReady) [] := by
  have hempty : (AscLoopback.start received uartReady).inBuf.contents = [] :=
    rfl
  refine ⟨rfl, fun m hm => (by cases hm), fun _ => .empty, ?_, fun t => rfl,
    rfl⟩
  rw [hempty]
  exact Settled.empty.endsWithFrame

/-- What an iteration does to the input. -/
theorem loopback (h : Loops s looped) (hloop : s.statement = .loopBack)
    (hadmits : s.Admits .execute) :
    let d := decodeLoosely s.inBuf.contents
    LoopsBack s.receiver (Result.state (AsciiSerialCom.loopback s.receiver)) d.2
        d.1.reported ∧
      Result.outcome (AsciiSerialCom.loopback s.receiver) = d.1.outcome := by
  rcases hadmits hloop with ⟨hplace, hfits⟩
  have hcall := decodeLoosely_of_endsWithFrame h.ends hplace
  refine loopback_of_answers (Receiver.getMessage_ignoring h.ignores hplace) ?_
    hcall.right.left hfits
  intro hempty
  have hin : s.inBuf.contents = [] := hempty
  rw [hin]
  exact ⟨rfl, rfl⟩

/-- The program after an iteration on its input. -/
theorem after_loopback (h : Loops s looped) (hloop : s.statement = .loopBack)
    (hadmits : s.Admits .execute) {s' : AscLoopback}
    (hreceiver : s'.receiver =
      Result.state (AsciiSerialCom.loopback s.receiver))
    (hextra : s'.extraInputBuffer = s.extraInputBuffer)
    (harrived : s'.arrived = s.arrived)
    (htransmitted : s'.transmitted = s.transmitted) :
    Loops s' (looped ++ (decodeLoosely s.inBuf.contents).1.reported) := by
  rcases hadmits hloop with ⟨hplace, -⟩
  rcases decodeLoosely_of_endsWithFrame h.ends hplace with
    ⟨hsettled, hvalid, hframes⟩
  have hback := (h.loopback hloop hadmits).left
  rw [← hreceiver] at hback
  have hin : s'.inBuf.contents = (decodeLoosely s.inBuf.contents).2 :=
    hback.inBuf_eq
  have hout : s'.outBuf.contents = s.outBuf.contents ++
      framesOf (decodeLoosely s.inBuf.contents).1.reported := hback.outBuf_eq
  rw [← hin] at hsettled
  refine ⟨hback.ignores_eq.trans h.ignores, ?_, fun _ => hsettled,
    hsettled.endsWithFrame, ?_, ?_⟩
  · intro m hm
    rcases List.mem_append.mp hm with hold | hnew
    · exact h.valid m hold
    · cases hd : (decodeLoosely s.inBuf.contents).1 with
      | message m' =>
          rw [hd] at hnew
          rw [List.mem_singleton.mp hnew]
          exact hvalid m' hd
      | nothing =>
          rw [hd] at hnew
          cases hnew
      | thrown e =>
          rw [hd] at hnew
          cases hnew
  · intro t
    rw [harrived, hextra, hin, h.frames, hframes, List.append_assoc]
  · rw [htransmitted, hout, ← List.append_assoc, h.output_eq, framesOf_append]

theorem execute (h : Loops s looped) (hadmits : s.Admits .execute) :
    exists looped', Loops s.execute looped' := by
  have hcase := body_cases s
  rw [AscLoopback.execute]
  generalize body s.statement s = result at hcase ⊢
  cases hcase with
  | @moved b extra hstatement hextra =>
      have hsettled := h.settled (by simp [hstatement])
      have hpush : (withInBuf (s.inBuf.pushBack b) s).inBuf.contents =
          if s.inBuf.contents.length = maxMessageLen then
            s.inBuf.contents.tail ++ [b]
          else
            s.inBuf.contents ++ [b] := RingBuffer.contents_pushBack _ _
      have hends : EndsWithFrame
          (withInBuf (s.inBuf.pushBack b) s).inBuf.contents := by
        rw [hpush]
        split
        · exact (hsettled.endsWithFrame_push b).right
        · exact (hsettled.endsWithFrame_push b).left
      have hframes (t : List UInt8) : looseFrames (s.arrived ++ t) =
          looped ++ looseFrames
            ((withInBuf (s.inBuf.pushBack b) s).inBuf.contents ++
              (extra.contents ++ t)) := by
        rw [h.frames, hextra, hpush]
        split
        · rename_i hfull
          rw [List.append_assoc, hsettled.looseFrames_tail hfull]
          rfl
        · rw [List.append_assoc]
          rfl
      refine ⟨looped, h.ignores, h.valid, ?_, hends, hframes, h.output_eq⟩
      intro hne
      simp [hstatement, Statement.next] at hne
  | notMoved hstatement =>
      refine ⟨looped, h.ignores, h.valid, ?_, h.ends, h.frames, h.output_eq⟩
      intro hne
      simp [hstatement, Statement.next] at hne
  | loopedBack hstatement hrun =>
      exact ⟨_, h.after_loopback hstatement hadmits (by rw [hrun]; rfl) rfl rfl
        rfl⟩
  | threw hstatement hrun =>
      exact ⟨_, h.after_loopback hstatement hadmits (by rw [hrun]; rfl) rfl rfl
        rfl⟩
  | transmitted hstatement hout =>
      have houtput := h.output_eq
      rw [hout, List.append_cons] at houtput
      exact ⟨looped, h.ignores, h.valid,
        fun _ => h.settled (by simp [hstatement]), h.ends, h.frames, houtput⟩
  | notTransmitted hstatement =>
      exact ⟨looped, h.ignores, h.valid,
        fun _ => h.settled (by simp [hstatement]), h.ends, h.frames,
        h.output_eq⟩

theorem step (h : Loops s looped) {event : Event} (hadmits : s.Admits event) :
    exists looped', Loops (s.step event) looped' := by
  cases event with
  | arrive b =>
      have hpush : (s.extraInputBuffer.pushBack b).contents =
          s.extraInputBuffer.contents ++ [b] :=
        RingBuffer.contents_pushBack_of_lt b hadmits
      refine ⟨looped, h.ignores, h.valid, h.settled, h.ends, ?_, h.output_eq⟩
      intro t
      have hextra : (s.step (.arrive b)).extraInputBuffer.contents =
          s.extraInputBuffer.contents ++ [b] := hpush
      have harrived : (s.step (.arrive b)).arrived = s.arrived ++ [b] := rfl
      rw [hextra, harrived, List.append_assoc, List.append_assoc, h.frames]
      rfl
  | ready =>
      exact ⟨looped, h.ignores, h.valid, h.settled, h.ends, h.frames,
        h.output_eq⟩
  | execute => exact h.execute hadmits

theorem sound (h : Loops s looped) {event : Event} (hadmits : s.Admits event) :
    s.Sound event := by
  cases event with
  | arrive b => trivial
  | ready => trivial
  | execute =>
      have hcase := body_cases s
      rw [Sound]
      generalize body s.statement s = result at hcase ⊢
      cases hcase with
      | threw hstatement hrun =>
          have houtcome := (h.loopback hstatement hadmits).right
          rw [hrun, Result.outcome_error] at houtcome
          rw [Result.outcome_error, houtcome]
          exact Decoded.outcome_ne_outOfBounds _
      | moved hstatement hextra => simp
      | notMoved hstatement => simp
      | loopedBack hstatement hrun => simp
      | transmitted hstatement hout => simp
      | notTransmitted hstatement => simp

end Loops

/-- The messages that have been sent back so far. -/
def LoopsSome (s : AscLoopback) : Prop := exists looped, Loops s looped

/-- **The loopback sends every message back that has a checksum at all**, in every
run: in order, with right checksums, and with nothing in between.  Among them are
all messages whose checksums were right; and a host that checks checksums reads
some first messages of the loose frames. -/
theorem loops_of_run (received : Received) (uartReady : Bool)
    {events : List Event}
    (h : Allowed step Admits (start received uartReady) events) :
    let s := run step (start received uartReady) events
    Allowed step Sound (start received uartReady) events ∧
      (exists looped,
        looseFrames s.arrived =
            looped ++ looseFrames
              (s.inBuf.contents ++ s.extraInputBuffer.contents) ∧
          s.transmitted ++ s.outBuf.contents = framesOf looped) ∧
      List.Sublist (validFrames s.arrived) (looseFrames s.arrived) ∧
      forall {hostReceived : Received} {ops : List StreamOp},
        Allowed StreamState.step StreamState.Admits
            (StreamState.init hostReceived) ops ->
          StreamState.pushed ops <+: s.transmitted ->
          (run StreamState.step (StreamState.init hostReceived)
            ops).reported <+: looseFrames s.arrived := by
  intro s
  have hinv : LoopsSome s := by
    refine @Allowed.invariant _ _ _ _ LoopsSome ?_ _ _ h
      ⟨[], Loops.start received uartReady⟩
    rintro s' event ⟨looped, hloops⟩ hadmits
    exact hloops.step hadmits
  have hsound : Allowed step Sound (start received uartReady) events := by
    refine @Allowed.imp _ _ _ _ LoopsSome _ ?_ _ _ h
      ⟨[], Loops.start received uartReady⟩
    rintro s' event ⟨looped, hloops⟩ hadmits
    exact ⟨hloops.sound hadmits, hloops.step hadmits⟩
  rcases hinv with ⟨looped, hloops⟩
  have hframes := hloops.frames []
  rw [List.append_nil, List.append_nil] at hframes
  refine ⟨hsound, ⟨looped, hframes, hloops.output_eq⟩,
    validFrames_sublist _, ?_⟩
  intro hostReceived ops hallowed hwire
  have hfront : StreamState.pushed ops <+: framesOf looped := by
    rw [← hloops.output_eq]
    exact hwire.trans (List.prefix_append _ _)
  refine (StreamState.reported_prefix hallowed hloops.valid hfront).left.trans ?_
  rw [hframes]
  exact List.prefix_append _ _

/-- A message that has been typed by hand, with a wrong checksum. -/
def typed : List UInt8 :=
  ['>', '0', '0', 'w', 'F', '.', '0', '0', '0', '0', '\n'].map Char.toUInt8

/-- Its bytes arrive, and go through the loop. -/
def typedByHand : List Event :=
  typed.flatMap (fun b => .arrive b :: List.replicate 3 .execute) ++
    (List.replicate 10 [.ready, .execute, .execute, .execute]).flatten

theorem loops_of_run_typedByHand :
    let s := run step (start Received.blank true) typedByHand
    exists looped,
      looseFrames s.arrived =
          looped ++ looseFrames
            (s.inBuf.contents ++ s.extraInputBuffer.contents) ∧
        s.transmitted ++ s.outBuf.contents = framesOf looped :=
  (loops_of_run Received.blank true (by decide +kernel)).right.left

end AscLoopback
end AsciiSerialCom
