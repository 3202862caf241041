import AsciiSerialCom.Native.Intake
import AsciiSerialCom.SerialCom.Loopback

/-!
# The loopback device

`ascii_serial_com_dummy_loopback_device.c` sends every message back that it
receives, or every byte if it is started with `-l`.  So what it writes are the
valid frames of what it has read, byte for byte and in order; and when it returns
because its input has ended, it has written all of them.
-/

namespace AsciiSerialCom

open Foundation
open Foundation.Delimited
open Foundation.StateError
open Foundation.Run

/-!
## The programs
-/

/-- The program in its normal mode. -/
def loopbackDevice : FdProgram Receiver :=
  { inBuf := fun r => r.asc.inBuf
    withInBuf := fun b r => { r with asc := { r.asc with inBuf := b } }
    outBuf := fun r => r.asc.outBuf
    withOutBuf := fun b r => { r with asc := { r.asc with outBuf := b } }
    process := loopback
    pending := fun r => !r.asc.inBuf.isEmpty
    exitsOnThrow := false }

/-- The program in raw loopback mode: one buffer for input and output. -/
def rawLoopbackDevice : FdProgram (RingBuffer maxMessageLen) :=
  { inBuf := id
    withInBuf := fun b _ => b
    outBuf := id
    withOutBuf := fun b _ => b
    process := pure ()
    pending := fun _ => false
    exitsOnThrow := false }

/-!
## Messages
-/

/-- What has been written and what is queued are the frames of the messages that
have been taken out of the input. -/
structure Echoes (ready : Bool) (r : Receiver) (received sent : List UInt8)
    (echoed : List Message) : Prop where
  checks : r.asc.ignoreCRCMismatch = false
  takes : Takes ready r.asc.inBuf received echoed
  output_eq : sent ++ r.asc.outBuf.contents = framesOf echoed

/-- The next message can be sent back. -/
def NextFits (r : Receiver) : Prop :=
  EchoFits r (decode r.asc.inBuf.contents).1

instance (r : Receiver) : Decidable (NextFits r) :=
  inferInstanceAs (Decidable (EchoFits _ _))

/-- What an iteration does while checksums are checked. -/
theorem loopback_of_checks {r : Receiver}
    (hcrc : r.asc.ignoreCRCMismatch = false) (hfits : NextFits r) :
    let d := (decode r.asc.inBuf.contents).1
    LoopsBack r (Result.state (loopback r)) (decode r.asc.inBuf.contents).2
        d.reported ∧ Result.outcome (loopback r) = d.outcome := by
  refine loopback_of_answers (Receiver.getMessage_answers hcrc) ?_
    (fun m hm => (valid_of_decode hm).left) hfits
  intro hempty
  rw [hempty]
  exact ⟨rfl, rfl⟩

namespace Echoes

variable {ready : Bool} {r : Receiver} {received sent bytes : List UInt8}
  {echoed : List Message}

theorem read (h : Echoes true r received sent echoed)
    {b : RingBuffer maxMessageLen}
    (hlen : bytes.length <= r.asc.inBuf.raw.blockSizeAvailable)
    (hreads : ReadsAhead r.asc.inBuf bytes)
    (hb : b.contents = BoundedDeque.pushBackAll maxMessageLen
      r.asc.inBuf.contents bytes) :
    Echoes false { r with asc := { r.asc with inBuf := b } }
      (received ++ bytes) sent echoed :=
  ⟨h.checks, h.takes.read hlen hreads hb, h.output_eq⟩

theorem process (h : Echoes ready r received sent echoed)
    (hfits : NextFits r) :
    Result.outcome (loopback r) ≠ .error .outOfBounds ∧
      Echoes true (Result.state (loopback r)) received sent
        (echoed ++ (decode r.asc.inBuf.contents).1.reported) := by
  rcases loopback_of_checks h.checks hfits with ⟨hback, houtcome⟩
  refine ⟨?_, hback.ignores_eq.trans h.checks,
    h.takes.decode hback.inBuf_eq, ?_⟩
  · rw [houtcome]
    exact Decoded.outcome_ne_outOfBounds _
  · rw [hback.outBuf_eq, ← List.append_assoc, h.output_eq, framesOf_append]

end Echoes

/-- The messages that have gone back, and what is left of the input. -/
def EchoesSome (ready : Bool) (r : Receiver) (received sent : List UInt8) :
    Prop :=
  exists echoed, Echoes ready r received sent echoed

/-- The loopback keeps its output in step with its input. -/
theorem loopbackDevice_keeps :
    loopbackDevice.Keeps EchoesSome (EchoesSome true)
      (fun r bytes => ReadsAhead r.asc.inBuf bytes) NextFits := by
  refine ⟨fun _ => rfl, fun _ => rfl, ?_, ?_, ?_, ?_, ?_, fun _ _ _ h => h⟩
  · rintro r received sent bytes b ⟨echoed, h⟩ hlen hreads hb
    exact ⟨echoed, h.read hlen hreads hb⟩
  · rintro r received sent ⟨echoed, h⟩ hfits
    exact (h.process hfits).left
  · rintro r r' received sent ⟨echoed, h⟩ hfits hrun
    have hloop : loopback r = _ := hrun
    have hafter := (h.process hfits).right
    rw [hloop] at hafter
    exact ⟨_, hafter⟩
  · rintro r r' e received sent ⟨echoed, h⟩ hfits hrun
    have hloop : loopback r = _ := hrun
    have hafter := (h.process hfits).right
    rw [hloop] at hafter
    exact ⟨_, hafter⟩
  · rintro r received sent bytes b ⟨echoed, h⟩ hb
    refine ⟨echoed, h.checks, h.takes, ?_⟩
    rw [← h.output_eq, List.append_assoc]
    exact congrArg (sent ++ ·) hb.symm

namespace FdLoop

/-- **The loopback writes the valid frames of what it reads**, in every run.
When it returns because its input has ended, it has written them all; and it waits
for input without limit only with an empty input buffer, or after an exception. -/
theorem echoes_of_run (received : Received) {kernels : List Kernel}
    (h : Allowed (step loopbackDevice)
      (Admits loopbackDevice (fun r bytes => ReadsAhead r.asc.inBuf bytes)
        NextFits)
      (start { asc := Asc.init, received := received }) kernels) :
    let s := run (step loopbackDevice)
      (start { asc := Asc.init, received := received }) kernels
    Allowed (step loopbackDevice) (Sound loopbackDevice)
        (start { asc := Asc.init, received := received }) kernels ∧
      (exists echoed,
        validFrames s.received =
            echoed ++ validFrames s.vars.asc.inBuf.contents ∧
          s.sent ++ s.vars.asc.outBuf.contents = framesOf echoed) ∧
      (forall kernel inflags outflags, s.status = none ->
        kernel.ready = some (inflags, outflags) -> outflags.gone = false ->
        (s.step loopbackDevice kernel).status ≠ none ->
          s.sent = framesOf (validFrames s.received)) ∧
      (s.statement = .doPoll -> s.threw = false -> s.timeout = -1 ->
        s.vars.asc.inBuf.contents = []) := by
  intro s
  have hstart : Inv EchoesSome (EchoesSome true)
      (start { asc := Asc.init, received := received }) :=
    Inv.of_runs rfl ⟨[], rfl, Takes.start rfl, rfl⟩
  rcases keeps_of_run loopbackDevice_keeps hstart h with ⟨hsound, hinv⟩
  rcases hinv.holds with ⟨ready, echoed, hechoes⟩
  have hframes := hechoes.takes.frames_eq
  refine ⟨hsound, ⟨echoed, hframes, hechoes.output_eq⟩, ?_, ?_⟩
  · intro kernel inflags outflags hruns hready hout hends
    have hstops := stops_of_status rfl hruns hends
    rw [hready] at hstops
    rcases hstops with ⟨hin, hempty, -⟩ | hgone
    · have hinput : s.vars.asc.inBuf.contents = [] := hin
      have houtput := hechoes.output_eq
      have houtEmpty : s.vars.asc.outBuf.contents = [] := hempty
      rw [houtEmpty, List.append_nil] at houtput
      rw [hinput] at hframes
      have hall : validFrames s.received = echoed := by
        simpa [validFrames] using hframes
      rw [hall]
      exact houtput
    · cases hout.symm.trans hgone
  · intro hpolls hthrew hwaits
    have hfirst : WaitsForInput loopbackDevice
        (start { asc := Asc.init, received := received }) := fun _ _ => rfl
    have hinv : s.WaitsForInput loopbackDevice :=
      @Allowed.invariant _ _ _ _ (WaitsForInput loopbackDevice)
        (fun _ _ hs _ => waitsForInput_step hs) _ _ h hfirst
    have htimeout := hinv hpolls hthrew
    rw [hwaits] at htimeout
    split at htimeout
    · cases htimeout
    · rename_i hidle
      apply s.vars.asc.inBuf.isEmpty_iff.mp
      simpa [loopbackDevice] using hidle

/-- A message comes in two parts, and goes back. -/
def oneMessage : List Kernel :=
  let m : Message :=
    { ascVersion := '0'.toUInt8
      appVersion := '0'.toUInt8
      command := 'w'.toUInt8
      data := ['F'.toUInt8] }
  List.replicate 5 (serving (m.frame.take 4)) ++
    List.replicate 5 (serving (m.frame.drop 4)) ++
    List.replicate 5 (serving [])

/-- One message, and the end of the input. -/
theorem echoes_of_run_oneMessage :
    let s := run (step loopbackDevice)
      (start { asc := Asc.init, received := Received.blank }) oneMessage
    s.sent = framesOf (validFrames s.received) :=
  (echoes_of_run Received.blank (by decide +kernel)).right.right.left
    hangup _ _ (by decide +kernel) rfl rfl (by decide +kernel)

/-- A frame without a period is thrown away, and nothing else. -/
theorem decode_of_noPeriod {body later : List UInt8} (hend : endByte ∉ body)
    (hstart : startByte ∉ body) (hperiod : periodByte ∉ body) :
    decode (startByte :: (body ++ endByte :: later)) =
      (.thrown .invalidFramePeriod, later) := by
  have hcut : cutAt endByte (body ++ endByte :: later) = (body, some later) :=
    cutAt_of_split hend
  have hopen : startByte ∉ (cutAt endByte (body ++ endByte :: later)).1 := by
    rw [hcut]
    exact hstart
  rw [decode, resync_of_open hopen]
  simp only
  rw [hcut]
  simp only
  rw [cutAt_of_not_mem hperiod]

theorem process_of_thrown {r : Receiver}
    (hcrc : r.asc.ignoreCRCMismatch = false) {e : AscException}
    {rest : List UInt8}
    (hd : decode r.asc.inBuf.contents = (.thrown e, rest)) :
    exists after : Receiver, LoopsBack r after rest [] ∧
      loopback r = .error (.exception e) after := by
  have hin : r.asc.inBuf.contents ≠ [] := by
    intro hempty
    rw [hempty] at hd
    cases hd
  have hanswers := Receiver.getMessage_answers hcrc
  rw [hd] at hanswers
  rcases loopbackMessage_of_thrown hanswers with ⟨after, hrun, hback⟩
  exact ⟨after, hback, (loopback_of_nonempty hin).trans hrun⟩

/-- A poll reports input, and does not tell the program to stop. -/
structure Announces (s : FdLoop Receiver) (kernel : Kernel) : Prop where
  goes : ¬ CircularBufferIoFdPoll.Stops s.vars.asc.inBuf s.vars.asc.outBuf
    kernel.ready
  input : exists inflags outflags, kernel.ready = some (inflags, outflags) ∧
    inflags.pollin = true

/-- The poll and the read of an iteration, for an empty buffer that has room for
all that is delivered. -/
theorem run_read {s : FdLoop Receiver} {kernel : Kernel} {bytes : List UInt8}
    (hruns : s.status = none) (hpolls : s.statement = .doPoll)
    (hempty : s.vars.asc.inBuf.contents = [])
    (hready : Announces s kernel) (hread : kernel.readResult = some bytes)
    (hlen : bytes.length <= s.vars.asc.inBuf.raw.blockSizeAvailable) :
    exists (b : RingBuffer maxMessageLen) (cbIo : CircularBufferIoFdPoll),
      b.contents = bytes ∧
        run (step loopbackDevice) s [kernel, kernel] =
          { s with
            vars := loopbackDevice.withInBuf b s.vars
            cbIo := cbIo
            received := s.received ++ bytes
            statement := .process } := by
  rcases hready.input with ⟨inflags, outflags, hflags, hin⟩
  let cbIo := (s.cbIo.doPoll s.vars.asc.inBuf s.vars.asc.outBuf kernel.ready).2
  let polled : FdLoop Receiver := { s with cbIo := cbIo, statement := .doInput }
  have hpollin : cbIo.inflags.pollin = true := by
    simp only [cbIo]
    rw [hflags, CircularBufferIoFdPoll.doPoll_inflags]
    exact hin
  have hpolled : s.step loopbackDevice kernel = polled :=
    (step_of_runs hruns).trans (execute_of_polled hpolls hready.goes)
  have hreads : polled.reads loopbackDevice kernel = bytes := by
    rw [reads, CircularBufferIoFdPoll.delivered, if_pos hpollin, hread]
    exact List.take_of_length_le hlen
  have hcase := execute_cases loopbackDevice polled kernel
  have hrun : run (step loopbackDevice) s [kernel, kernel] =
      polled.execute loopbackDevice kernel := by
    rw [run_cons, hpolled, run_cons, run_nil]
    exact step_of_runs hruns
  rw [hrun]
  generalize polled.execute loopbackDevice kernel = s' at hcase ⊢
  cases hcase with
  | @read b hstatement hcontents =>
      have hin : (loopbackDevice.inBuf polled.vars).contents = [] := hempty
      rw [hreads, hin] at hcontents
      rw [hreads]
      refine ⟨b, cbIo, ?_, rfl⟩
      rw [hcontents]
      apply BoundedDeque.pushBackAll_of_le
      have hblock := s.vars.asc.inBuf.blockSizeAvailable_le
      rw [List.length_nil, Nat.zero_add]
      exact Nat.le_trans hlen hblock
  | notRead hstatement hfails => cases hread.symm.trans hfails
  | polled hstatement hgoes => cases hstatement
  | stopped hstatement hstops => cases hstatement
  | processed hstatement hrun => cases hstatement
  | threw hstatement hrun => cases hstatement
  | written hstatement hcontents => cases hstatement
  | notWritten hstatement hfails => cases hstatement
  | timeoutSet hstatement => cases hstatement

/-- **A malformed frame holds up what is read with it**: from whatever state the
program waits in without limit, it goes back to waiting without limit, with all
that was read behind the frame still in its buffer. -/
theorem stalls_of_malformed {s : FdLoop Receiver} {kernel : Kernel}
    {body later : List UInt8} (hruns : s.status = none)
    (hpolls : s.statement = .doPoll) (hwaits : s.timeout = -1)
    (hchecks : s.vars.asc.ignoreCRCMismatch = false)
    (hempty : s.vars.asc.inBuf.contents = [])
    (hready : Announces s kernel)
    (hread : kernel.readResult =
      some (startByte :: (body ++ endByte :: later)))
    (hlen : body.length + later.length + 2 <=
      s.vars.asc.inBuf.raw.blockSizeAvailable)
    (hend : endByte ∉ body) (hstart : startByte ∉ body)
    (hperiod : periodByte ∉ body) :
    let s' := run (step loopbackDevice) s (List.replicate 3 kernel)
    s'.status = none ∧ s'.statement = .doPoll ∧ s'.timeout = -1 ∧
      s'.vars.asc.inBuf.contents = later ∧
      s'.vars.asc.outBuf.contents = s.vars.asc.outBuf.contents ∧
      s'.sent = s.sent := by
  intro s'
  have hbytes : (startByte :: (body ++ endByte :: later)).length <=
      s.vars.asc.inBuf.raw.blockSizeAvailable := by
    simp only [List.length_cons, List.length_append]
    omega
  rcases run_read hruns hpolls hempty hready hread hbytes with
    ⟨b, cbIo, hb, hrun⟩
  -- the call throws away the malformed frame, and leaves what follows it
  have hd : decode b.contents = (.thrown .invalidFramePeriod, later) := by
    rw [hb]
    exact decode_of_noPeriod hend hstart hperiod
  rcases @process_of_thrown (loopbackDevice.withInBuf b s.vars) hchecks _ _ hd
    with ⟨after, hback, hprocess⟩
  generalize hat : ({ s with
      vars := loopbackDevice.withInBuf b s.vars
      cbIo := cbIo
      received := s.received ++ (startByte :: (body ++ endByte :: later))
      statement := .process } : FdLoop Receiver) = at' at hrun
  have hstatus : at'.status = none := by
    rw [← hat]
    exact hruns
  have hs : s' = at'.caught loopbackDevice after := by
    have hthree : List.replicate 3 kernel = [kernel, kernel] ++ [kernel] := rfl
    simp only [s']
    rw [hthree, run_append, hrun, run_cons, run_nil, step_of_runs hstatus]
    subst hat
    exact execute_of_thrown rfl hprocess
  have hout : after.asc.outBuf.contents = s.vars.asc.outBuf.contents :=
    hback.outBuf_eq.trans (List.append_nil _)
  rw [hs, ← hat]
  exact ⟨hruns, rfl, hwaits, hback.inBuf_eq, hout, rfl⟩

/-- The program that has sent a message back. -/
def echoedOne : FdLoop Receiver :=
  let m : Message :=
    { ascVersion := '0'.toUInt8
      appVersion := '0'.toUInt8
      command := 'w'.toUInt8
      data := ['F'.toUInt8] }
  run (step loopbackDevice)
    (start { asc := Asc.init, received := Received.blank })
    (List.replicate 5 (serving m.frame))

/-- A stray frame before a request. -/
theorem stalls_of_malformed_stray :
    let m : Message :=
      { ascVersion := '0'.toUInt8
        appVersion := '0'.toUInt8
        command := 'r'.toUInt8
        data := ['0'.toUInt8, '1'.toUInt8] }
    let kernel := serving (startByte :: (['x'.toUInt8] ++ endByte :: m.frame))
    let s' := run (step loopbackDevice) echoedOne (List.replicate 3 kernel)
    s'.status = none ∧ s'.statement = .doPoll ∧ s'.timeout = -1 ∧
      s'.vars.asc.inBuf.contents = m.frame ∧
      s'.vars.asc.outBuf.contents = echoedOne.vars.asc.outBuf.contents ∧
      s'.sent = echoedOne.sent :=
  stalls_of_malformed (by decide +kernel) (by decide +kernel)
    (by decide +kernel) (by decide +kernel) (by decide +kernel)
    ⟨(by rintro (⟨-, -, hgone⟩ | hgone) <;> cases hgone), _, _, rfl, rfl⟩ rfl
    (by decide +kernel) (by decide) (by decide) (by decide)

/-!
## Bytes
-/

/-- What may be read into a buffer that bytes go straight through. -/
def ReadsIntoRoom (r : RingBuffer maxMessageLen) (bytes : List UInt8) : Prop :=
  r.contents.length = maxMessageLen -> bytes = []

instance (r : RingBuffer maxMessageLen) (bytes : List UInt8) :
    Decidable (ReadsIntoRoom r bytes) :=
  inferInstanceAs (Decidable (_ -> _))

/-- What has been read has been written, but for the contents of the buffer. -/
def PassesOn (_ready : Bool) (r : RingBuffer maxMessageLen)
    (received sent : List UInt8) : Prop :=
  sent ++ r.contents = received

theorem rawLoopbackDevice_keeps :
    rawLoopbackDevice.Keeps PassesOn (PassesOn true) ReadsIntoRoom
      (fun _ => True) := by
  refine ⟨fun _ => rfl, fun _ => rfl, ?_, ?_, ?_, ?_, ?_, fun _ _ _ h => h⟩
  · intro r received sent bytes b h hlen hreads hb
    simp only [rawLoopbackDevice, id, PassesOn] at h hlen hb ⊢
    rw [hb, pushBackAll_eq_of_length hlen]
    split
    · rename_i hfull
      rw [hreads hfull, List.length_nil, List.drop_zero, List.append_nil,
        List.append_nil, h]
    · rw [← List.append_assoc, h]
  · intro r received sent h _
    simp [rawLoopbackDevice]
  · intro r r' received sent h _ hrun
    cases hrun
    exact h
  · intro r r' e received sent h _ hrun
    cases hrun
  · intro r received sent bytes b h hb
    simp only [rawLoopbackDevice, id, PassesOn] at h hb ⊢
    rw [List.append_assoc, ← hb, h]

/-- **In raw mode every byte goes through**, and when the program returns because
its input has ended, all of them have. -/
theorem passes_of_run {kernels : List Kernel}
    (h : Allowed (step rawLoopbackDevice)
      (Admits rawLoopbackDevice ReadsIntoRoom fun _ => True)
      (start (RingBuffer.fresh 6)) kernels) :
    let s := run (step rawLoopbackDevice) (start (RingBuffer.fresh 6)) kernels
    s.sent ++ s.vars.contents = s.received ∧
      forall kernel inflags outflags, s.status = none ->
        kernel.ready = some (inflags, outflags) -> outflags.gone = false ->
        (s.step rawLoopbackDevice kernel).status ≠ none ->
          s.sent = s.received := by
  intro s
  have hstart : Inv PassesOn (PassesOn true) (start (RingBuffer.fresh 6)) :=
    Inv.of_runs rfl rfl
  have hinv : s.sent ++ s.vars.contents = s.received := by
    rcases (keeps_of_run rawLoopbackDevice_keeps hstart h).right.holds with
      ⟨ready, hpasses⟩
    exact hpasses
  refine ⟨hinv, ?_⟩
  intro kernel inflags outflags hruns hready hout hends
  have hstops := stops_of_status rfl hruns hends
  rw [hready] at hstops
  rcases hstops with ⟨hin, -, -⟩ | hgone
  · have hempty : s.vars.contents = [] := hin
    rw [hempty, List.append_nil] at hinv
    exact hinv
  · cases hout.symm.trans hgone

/-- Bytes that make no frame go through as well. -/
theorem passes_of_run_threeBytes :
    let s := run (step rawLoopbackDevice) (start (RingBuffer.fresh 6))
      (List.replicate 5 (serving [1, 2, 3]))
    s.sent ++ s.vars.contents = s.received :=
  (passes_of_run (by decide +kernel)).left

end FdLoop
end AsciiSerialCom
