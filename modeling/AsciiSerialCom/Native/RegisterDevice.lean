import AsciiSerialCom.Device.RegisterBlock
import AsciiSerialCom.Device.WriteProtection
import AsciiSerialCom.Native.Intake

/-!
# The register device

`ascii_serial_com_dummy_register_device.c` answers requests for a block of
registers.  What it writes are the answers of the register file, in order, to the
messages that it has read, as long as the file has an answer: a request that it
refuses ends the program, and so does a malformed frame.
-/

namespace AsciiSerialCom

open Foundation
open Foundation.Hexadecimal
open Foundation.StateError
open Foundation.Run

variable {width : RegWidth}

/-!
## The program
-/

namespace RegisterBlock

/-- `ascd_config` -/
def config (charSigned : Bool) (block : RegisterBlock width) :
    DeviceConfig (World width) :=
  { funcRw := some (handleMessage charSigned (some block))
    funcS := none
    funcNf := none }

/-- The register file that the words of the block make up. -/
def file (block : RegisterBlock width) (words : Memory width.Reg) :
    RegisterFile width :=
  block.toPointers.file words

end RegisterBlock

def registerDevice (charSigned : Bool) (block : RegisterBlock width) :
    FdProgram (Device (World width)) :=
  { inBuf := fun ascd => ascd.receiver.asc.inBuf
    withInBuf := fun b ascd =>
      { ascd with
        receiver :=
          { ascd.receiver with
            asc := { ascd.receiver.asc with inBuf := b } } }
    outBuf := fun ascd => ascd.receiver.asc.outBuf
    withOutBuf := fun b ascd =>
      { ascd with
        receiver :=
          { ascd.receiver with
            asc := { ascd.receiver.asc with outBuf := b } } }
    process := Device.receive (block.config charSigned)
    pending := fun ascd => !ascd.receiver.asc.inBuf.isEmpty
    exitsOnThrow := true }

/-!
## What a file makes of any message
-/

/-- The messages to send for a message, and the file afterwards, unless the file
refuses it. -/
def RegisterFile.serve (file : RegisterFile width) (m : Message) :
    Option (List Message × RegisterFile width) :=
  if m.command = 'z'.toUInt8 then
    some ([], file)
  else if m.command = 'r'.toUInt8 ∨ m.command = 'w'.toUInt8 then
    if IsRequest width m ∧ regNum m < file.size then
      some ([(file.answer m).1], (file.answer m).2)
    else
      none
  else
    some
      ([Asc.errorMessage m.ascVersion m.appVersion m.command m.data
        .commandNotImplemented], file)

/-- A value that is written has all of its digits. -/
def HasWholeValue (width : RegWidth) (m : Message) : Prop :=
  m.command = 'w'.toUInt8 -> 5 + width.bytes <= m.data.length ->
    5 + 2 * width.bytes <= m.data.length

instance (width : RegWidth) (m : Message) : Decidable (HasWholeValue width m) :=
  inferInstanceAs (Decidable (_ -> _ -> _))

namespace RegisterBlock

variable {block : RegisterBlock width} {m : Message} {data : Memory UInt8}

/-- **The handler throws what the file refuses**, and reacts to the other requests
as the pointers to its words do. -/
theorem strict_respond (hm : m.Valid)
    (hrw : m.command = 'r'.toUInt8 ∨ m.command = 'w'.toUInt8)
    (hwhole : HasWholeValue width m) (hdata : Holds data m)
    (words : Memory width.Reg) :
    let response := block.toPointers.respond m.command m.data.length data words
    (IsRequest width m ∧ RegisterFile.regNum m < block.nRegs.toNat) ∧
        response.strict = response ∨
      ¬ (IsRequest width m ∧ RegisterFile.regNum m < block.nRegs.toNat) ∧
        exists e, response.strict = .thrown e := by
  have hne : 'w'.toUInt8 ≠ 'r'.toUInt8 := by decide
  have hcase := respond_cases block.toPointers words hdata
  generalize block.toPointers.respond m.command m.data.length data words =
    response at hcase ⊢
  cases hcase with
  | unexpected hr hw => exact absurd hrw (not_or.mpr ⟨hr, hw⟩)
  | tooShort hlen =>
      refine Or.inr ⟨?_, _, rfl⟩
      rintro ⟨hrequest, -⟩
      exact Nat.not_le.mpr hlen hrequest.address.left
  | badAddress hlen hvalue =>
      refine Or.inr ⟨?_, _, rfl⟩
      rintro ⟨hrequest, -⟩
      have hsome := hrequest.address.right
      rw [hvalue] at hsome
      cases hsome
  | outOfRange hlen hvalue hoob =>
      refine Or.inr ⟨?_, _, rfl⟩
      rintro ⟨-, hlt⟩
      rw [RegisterPointers.regNum_of_value hvalue] at hlt
      exact Nat.not_le.mpr hlt hoob
  | read hread haddress =>
      rcases haddress with ⟨hlen, hvalue, hlt⟩
      refine Or.inl ⟨⟨⟨hm, ⟨hlen, by rw [hvalue]; rfl⟩, Or.inl hread⟩, ?_⟩, rfl⟩
      rw [RegisterPointers.regNum_of_value hvalue]
      exact hlt
  | noValue hwrite haddress hlen =>
      refine Or.inr ⟨?_, _, rfl⟩
      rintro ⟨hrequest, -⟩
      rcases hrequest.read_or_write with hread | ⟨-, hlong, -⟩
      · exact hne (hwrite.symm.trans hread)
      · omega
  | unmapped hwrite haddress hlen hpointer => cases hpointer
  | badValue hwrite haddress hlen hpointer hvalue =>
      refine Or.inr ⟨?_, _, rfl⟩
      rintro ⟨hrequest, -⟩
      rcases hrequest.read_or_write with hread | ⟨-, hlong, hsome⟩
      · exact hne (hwrite.symm.trans hread)
      · rw [← RegisterPointers.slice_value hdata hlong, hvalue] at hsome
        cases hsome
  | write hwrite haddress hlen hpointer hvalue =>
      rcases haddress with ⟨haddr, hnum, hlt⟩
      have hlong := hwhole hwrite hlen
      refine Or.inl ⟨⟨⟨hm, ⟨haddr, by rw [hnum]; rfl⟩,
        Or.inr ⟨hwrite, hlong, ?_⟩⟩, ?_⟩, rfl⟩
      · rw [← RegisterPointers.slice_value hdata hlong, hvalue]
        rfl
      · rw [RegisterPointers.regNum_of_value hnum]
        exact hlt

end RegisterBlock

/-!
## One call
-/

namespace Device

section Call

variable {charSigned : Bool} {block : RegisterBlock width}
  {ascd : Device (World width)} {m : Message} {rest : List UInt8}

/-- The register file of a device. -/
def file (block : RegisterBlock width) (ascd : Device (World width)) :
    RegisterFile width :=
  block.file ascd.world.words

/-- The value of the next message is whole, and what it is answered with fits
behind an unwrapped backlog. -/
def ServeFits (block : RegisterBlock width) (ascd : Device (World width)) :
    Prop :=
  (decode ascd.receiver.asc.inBuf.contents).1.reported.all (fun m =>
    HasWholeValue width m ∧
      ((ascd.file block).serve m).all fun served =>
        served.1.all fun a =>
          ascd.receiver.asc.HasRoom a.data.length ∧
            ascd.receiver.asc.Unwrapped) = true

instance (block : RegisterBlock width) (ascd : Device (World width)) :
    Decidable (ServeFits block ascd) :=
  inferInstanceAs (Decidable (_ = true))

/-- Words outside of the block. -/
def SameElsewhere (block : RegisterBlock width) (words words' : Memory width.Reg) :
    Prop :=
  forall p, ¬ (block.block <= p ∧ p < block.block + block.nRegs.toNat) ->
    words' p = words p

/-- What a call leaves that sends the messages. -/
structure Served (block : RegisterBlock width) (ascd after : Device (World width))
    (answers : List Message) (file : RegisterFile width) : Prop where
  inBuf_eq : after.receiver.asc.inBuf.contents =
    (decode ascd.receiver.asc.inBuf.contents).2
  outBuf_eq : after.receiver.asc.outBuf.contents =
    ascd.receiver.asc.outBuf.contents ++ framesOf answers
  checks : after.receiver.asc.ignoreCRCMismatch = false
  file_eq : after.file block = file
  elsewhere : SameElsewhere block ascd.world.words after.world.words

theorem dispatch_of_unhandled (b : RingBuffer maxMessageLen)
    (hcommand : m.command ≠ 0)
    (hrw : ¬ (m.command = 'r'.toUInt8 ∨ m.command = 'w'.toUInt8))
    (hz : m.command ≠ 'z'.toUInt8) :
    dispatch (block.config charSigned) (ascd.gotMessage m b) =
      call notImplemented (ascd.gotMessage m b) := by
  rcases dispatch_cases (block.config charSigned) ascd m b with
    ⟨hzero | hnoop, -⟩ | ⟨-, handler, hhandler, hrun⟩
  · exact absurd hzero hcommand
  · exact absurd hnoop hz
  · rw [hrun]
    cases hhandler with
    | rw h => exact absurd h hrw
    | s h hs => rfl
    | nf h hnf => rfl
    | other h => rfl

/-- A request is answered as the block responds. -/
theorem reacts_of_block
    (hrw : m.command = 'r'.toUInt8 ∨ m.command = 'w'.toUInt8)
    (b : RingBuffer maxMessageLen) :
    Reacts (block.config charSigned) (ascd.gotMessage m b) m
      (block.toPointers.respond m.command m.data.length
        (Received.ofMessage ascd.receiver.received.data m).data
        ascd.world.words).strict :=
  reacts_of_handler (dispatch_of_request hrw) (RegisterBlock.handleMessage_eq _)

theorem distinct_toPointers (block : RegisterBlock width) :
    block.toPointers.Distinct := by
  intro i j p _ _ hi hj
  have hi : block.block + i = p := Option.some.inj hi
  have hj : block.block + j = p := Option.some.inj hj
  omega

/-- The block is written inside only. -/
theorem sameElsewhere_of_wordsAfter {words words' : Memory width.Reg}
    (h : WordsAfter block.toPointers m words words') :
    SameElsewhere block words words' := by
  intro p hp
  rcases h with heq | ⟨regNum, q, v, -, haddress, hpointer, heq⟩
  · rw [heq]
  · have hq : block.block + regNum = q := Option.some.inj hpointer
    have hlt : regNum < block.nRegs.toNat := haddress.right.right
    rw [heq]
    apply RegisterPointers.writeWord_of_ne
    omega

/-- A message that the file serves is answered. -/
theorem receive_of_served (hcrc : ascd.receiver.asc.ignoreCRCMismatch = false)
    (hd : decode ascd.receiver.asc.inBuf.contents = (.message m, rest))
    (hfits : ServeFits block ascd) {answers : List Message}
    {file' : RegisterFile width}
    (hserve : (ascd.file block).serve m = some (answers, file')) :
    exists after, receive (block.config charSigned) ascd = .ok () after ∧
      Served block ascd after answers file' := by
  have hm : m.Valid := (valid_of_decode (congrArg Prod.fst hd)).left
  have hrest : (decode ascd.receiver.asc.inBuf.contents).2 = rest := by rw [hd]
  have hdata : Holds (Received.ofMessage ascd.receiver.received.data m).data m :=
    holds_ofMessage _ m
  have hreported : m ∈ (decode ascd.receiver.asc.inBuf.contents).1.reported := by
    rw [hd]
    exact List.mem_singleton_self m
  have hroom := List.all_eq_true.mp hfits m hreported
  rw [decide_eq_true_eq, hserve] at hroom
  rcases hroom with ⟨hwhole, hroom⟩
  simp only [Option.all_some, List.all_eq_true, decide_eq_true_eq] at hroom
  rw [RegisterFile.serve] at hserve
  by_cases hz : m.command = 'z'.toUInt8
  · rw [if_pos hz] at hserve
    cases hserve
    rcases receive_of_message (block.config charSigned) hcrc hd with
      ⟨b, hb, hrun⟩
    exact ⟨_, hrun.trans (dispatch_of_noop hz), hb.trans hrest.symm,
      (List.append_nil _).symm, hcrc, rfl, fun _ _ => rfl⟩
  rw [if_neg hz] at hserve
  by_cases hrw : m.command = 'r'.toUInt8 ∨ m.command = 'w'.toUInt8
  · rw [if_pos hrw] at hserve
    split at hserve
    · rename_i hrequest
      cases hserve
      let data := (Received.ofMessage ascd.receiver.received.data m).data
      let response := block.toPointers.respond m.command m.data.length data
        ascd.world.words
      have hstrict : response.strict = response := by
        rcases @RegisterBlock.strict_respond _ block _ _ hm hrw hwhole hdata
          ascd.world.words with ⟨-, h⟩ | ⟨h, -⟩
        · exact h
        · exact absurd hrequest h
      have hreacts : forall b, Reacts (block.config charSigned)
          (ascd.gotMessage m b) m response := by
        intro b
        have h := @reacts_of_block width charSigned block ascd m hrw b
        rwa [show (block.toPointers.respond m.command m.data.length
          (Received.ofMessage ascd.receiver.received.data m).data
          ascd.world.words).strict = response from hstrict] at h
      rcases RegisterPointers.respond_refines_file (distinct_toPointers block)
        hrequest.left hdata ascd.world with ⟨ha, hfile⟩
      have hlast := hroom _ (List.mem_singleton_self _)
      rcases receive_of_answer hcrc hd hreacts ha
        (RegisterFile.answer_sendable _ hm.toSendable).left hlast.left
        hlast.right with ⟨b, out, hb, hout, hrun⟩
      refine ⟨_, hrun, hb.trans hrest.symm, ?_, hcrc, hfile, ?_⟩
      · rw [framesOf_singleton]
        exact hout
      · exact sameElsewhere_of_wordsAfter
          (wordsAfter_respond block.toPointers hdata ascd.world)
    · cases hserve
  · rw [if_neg hrw] at hserve
    cases hserve
    have hreacts : forall b, Reacts (block.config charSigned)
        (ascd.gotMessage m b) m
        (.refused .commandNotImplemented : Response width) := fun b =>
      reacts_of_notImplemented
        (dispatch_of_unhandled b hm.command_ne hrw hz)
    have hlast := hroom _ (List.mem_singleton_self _)
    rcases receive_of_answer hcrc hd hreacts rfl
      (errorMessage_sendable hm.toSendable _) hlast.left hlast.right with
      ⟨b, out, hb, hout, hrun⟩
    refine ⟨_, hrun, hb.trans hrest.symm, ?_, hcrc, rfl, fun _ _ => rfl⟩
    rw [framesOf_singleton]
    exact hout

/-- A message that the file refuses makes the call throw. -/
theorem receive_of_refused (hcrc : ascd.receiver.asc.ignoreCRCMismatch = false)
    (hd : decode ascd.receiver.asc.inBuf.contents = (.message m, rest))
    (hwhole : HasWholeValue width m)
    (hserve : (ascd.file block).serve m = none) :
    exists e b, receive (block.config charSigned) ascd =
      .error (.exception e) (ascd.gotMessage m b) := by
  have hm : m.Valid := (valid_of_decode (congrArg Prod.fst hd)).left
  rw [RegisterFile.serve] at hserve
  split at hserve
  · cases hserve
  split at hserve
  · rename_i hrw
    split at hserve
    · cases hserve
    · rename_i hrequest
      rcases @RegisterBlock.strict_respond _ block _ _ hm hrw hwhole
        (holds_ofMessage ascd.receiver.received.data m)
        ascd.world.words with ⟨h, -⟩ | ⟨-, e, hstrict⟩
      · exact absurd h hrequest
      · have hreacts : forall b, Reacts (block.config charSigned)
            (ascd.gotMessage m b) m (.thrown e : Response width) := by
          intro b
          rw [← hstrict]
          exact reacts_of_block hrw b
        rcases receive_of_no_answer hcrc hd hreacts with ⟨b, -, hrun⟩
        exact ⟨e, b, hrun⟩
  · cases hserve

/-- The file makes nothing of what a call gets out of the input. -/
def Refuses (file : RegisterFile width) : Decoded -> Prop
  | .message m => file.serve m = none
  | .nothing => False
  | .thrown _ => True

/-- **One call**: it answers as the file does, or throws what the file refuses and
leaves output and registers alone. -/
theorem receive_cases (charSigned : Bool)
    (hcrc : ascd.receiver.asc.ignoreCRCMismatch = false)
    (hfits : ServeFits block ascd) :
    let d := (decode ascd.receiver.asc.inBuf.contents).1
    let result := receive (block.config charSigned) ascd
    (¬ Refuses (ascd.file block) d ∧
      exists after answers file',
        trace RegisterFile.serve (ascd.file block) d.reported =
            some (answers, file') ∧
          result = .ok () after ∧ Served block ascd after answers file') ∨
    (Refuses (ascd.file block) d ∧
      exists e after, result = .error (.exception e) after ∧
        after.receiver.asc.outBuf = ascd.receiver.asc.outBuf ∧
        after.world = ascd.world) := by
  intro d result
  rcases hd : decode ascd.receiver.asc.inBuf.contents with ⟨d', rest⟩
  have hd' : d = d' := congrArg Prod.fst hd
  rw [hd']
  cases d' with
  | nothing =>
      rcases receive_of_nothing (block.config charSigned) hcrc hd with
        ⟨b, received, hb, hrun⟩
      refine Or.inl ⟨id, _, [], _, rfl, hrun, ?_, ?_, hcrc, rfl, fun _ _ => rfl⟩
      · rw [hd]
        exact hb
      · exact (List.append_nil _).symm
  | thrown e =>
      rcases receive_of_thrown (block.config charSigned) hcrc hd with
        ⟨b, received, hb, hrun⟩
      exact Or.inr ⟨trivial, e, _, hrun, rfl, rfl⟩
  | message m =>
      have hreported : d.reported = [m] := by
        rw [hd']
        rfl
      cases hserve : (ascd.file block).serve m with
      | none =>
          have hroom := List.all_eq_true.mp hfits m
            (by
              rw [show (decode ascd.receiver.asc.inBuf.contents).1.reported =
                [m] from hreported]
              exact List.mem_singleton_self m)
          rw [decide_eq_true_eq] at hroom
          rcases @receive_of_refused _ charSigned _ _ _ _ hcrc hd hroom.left
            hserve with ⟨e, b, hrun⟩
          exact Or.inr ⟨hserve, e, _, hrun, rfl, rfl⟩
      | some served =>
          rcases @receive_of_served _ charSigned _ _ _ _ hcrc hd hfits _ _
            hserve with ⟨after, hrun, hserved⟩
          refine Or.inl ⟨?_, after, served.1, served.2, ?_, hrun, hserved⟩
          · intro hrefuses
            cases hserve.symm.trans hrefuses
          · exact (trace_singleton _ m).trans hserve

end Call
end Device

/-!
## Runs
-/

/-- The messages that have been taken out of the input have been served. -/
structure Serves (block : RegisterBlock width) (words : Memory width.Reg)
    (ready : Bool) (ascd : Device (World width)) (received sent : List UInt8)
    (taken answers : List Message) : Prop where
  checks : ascd.receiver.asc.ignoreCRCMismatch = false
  takes : Takes ready ascd.receiver.asc.inBuf received taken
  trace_eq : trace RegisterFile.serve (block.file words) taken =
    some (answers, ascd.file block)
  output_eq : sent ++ ascd.receiver.asc.outBuf.contents = framesOf answers
  elsewhere : Device.SameElsewhere block words ascd.world.words

/-- What has been written is the front of what the file answers to the first
valid frames of what has been read. -/
def ServedSome (block : RegisterBlock width) (words : Memory width.Reg)
    (ascd : Device (World width)) (received sent : List UInt8) : Prop :=
  exists handled answers, handled <+: validFrames received ∧
    trace RegisterFile.serve (block.file words) handled =
        some (answers, ascd.file block) ∧
      sent <+: framesOf answers ∧
        Device.SameElsewhere block words ascd.world.words

/-- Some messages have been served, and what is left of the input. -/
def ServesSome (block : RegisterBlock width) (words : Memory width.Reg)
    (ready : Bool) (ascd : Device (World width)) (received sent : List UInt8) :
    Prop :=
  exists taken answers,
    Serves block words ready ascd received sent taken answers

section Runs

variable {charSigned ready : Bool} {block : RegisterBlock width}
  {words : Memory width.Reg} {ascd : Device (World width)}
  {received sent bytes : List UInt8} {taken answers : List Message}

namespace Serves

theorem served (h : Serves block words ready ascd received sent taken answers) :
    ServedSome block words ascd received sent :=
  ⟨taken, answers, ⟨_, h.takes.frames_eq.symm⟩, h.trace_eq,
    ⟨_, h.output_eq⟩, h.elsewhere⟩

theorem process (h : Serves block words ready ascd received sent taken answers)
    {after : Device (World width)} {more : List Message}
    {file' : RegisterFile width}
    (htrace : trace RegisterFile.serve (ascd.file block)
      (decode ascd.receiver.asc.inBuf.contents).1.reported = some (more, file'))
    (hserved : Device.Served block ascd after more file') :
    Serves block words true after received sent
      (taken ++ (decode ascd.receiver.asc.inBuf.contents).1.reported)
      (answers ++ more) := by
  refine ⟨hserved.checks, h.takes.decode hserved.inBuf_eq, ?_, ?_, ?_⟩
  · rw [hserved.file_eq]
    exact trace_append_of_some h.trace_eq htrace
  · rw [hserved.outBuf_eq, ← List.append_assoc, h.output_eq, framesOf_append]
  · intro p hp
    rw [hserved.elsewhere p hp, h.elsewhere p hp]

end Serves

/-- **The register device keeps the register file.** -/
theorem registerDevice_keeps (charSigned : Bool) (block : RegisterBlock width)
    (words : Memory width.Reg) :
    (registerDevice charSigned block).Keeps (ServesSome block words)
      (ServedSome block words)
      (fun ascd bytes => ReadsAhead ascd.receiver.asc.inBuf bytes)
      (Device.ServeFits block) := by
  refine ⟨fun _ => rfl, fun _ => rfl, ?_, ?_, ?_, ?_, ?_, ?_⟩
  · rintro ascd received sent bytes b ⟨taken, answers, h⟩ hlen hreads hb
    exact ⟨taken, answers, h.checks, h.takes.read hlen hreads hb, h.trace_eq,
      h.output_eq, h.elsewhere⟩
  · rintro ascd received sent ⟨taken, answers, h⟩ hfits
    rcases Device.receive_cases charSigned h.checks hfits with
      ⟨-, after, more, file', -, hrun, -⟩ | ⟨-, e, after, hrun, -, -⟩
    · simp [registerDevice, hrun]
    · simp [registerDevice, hrun]
  · rintro ascd ascd' received sent ⟨taken, answers, h⟩ hfits hrun'
    rcases Device.receive_cases charSigned h.checks hfits with
      ⟨-, after, more, file', htrace, hrun, hserved⟩ |
        ⟨-, e, after, hrun, -, -⟩
    · cases hrun.symm.trans hrun'
      exact ⟨_, _, h.process htrace hserved⟩
    · cases hrun.symm.trans hrun'
  · rintro ascd ascd' e received sent ⟨taken, answers, h⟩ hfits hrun'
    rcases Device.receive_cases charSigned h.checks hfits with
      ⟨-, after, more, file', -, hrun, -⟩ | ⟨-, e', after, hrun, -, hworld⟩
    · cases hrun.symm.trans hrun'
    · cases hrun.symm.trans hrun'
      have hserved := h.served
      rw [ServedSome, Device.file, ← hworld] at hserved
      exact hserved
  · rintro ascd received sent bytes b ⟨taken, answers, h⟩ hb
    refine ⟨taken, answers, h.checks, h.takes, h.trace_eq, ?_, h.elsewhere⟩
    rw [← h.output_eq, List.append_assoc]
    exact congrArg (sent ++ ·) hb.symm
  · rintro ascd received sent ⟨taken, answers, h⟩
    exact h.served

end Runs

namespace FdLoop

theorem inv_start_registerDevice (block : RegisterBlock width)
    (ascd : Device (World width)) :
    (start (Device.init ascd)).Inv (ServesSome block ascd.world.words)
      (ServedSome block ascd.world.words) :=
  Inv.of_runs rfl
    ⟨[], [], rfl, Takes.start rfl, rfl, rfl, fun _ _ => rfl⟩

/-- **The register device serves the register file**, in every run.  What it has
written, also when it has ended, are answers of the file to the first messages
that it has read; while it runs, nothing but the contents of its buffers is
missing; and when it returns because its input has ended, nothing is. -/
theorem serves_of_run (charSigned : Bool) (block : RegisterBlock width)
    (ascd : Device (World width)) {kernels : List Kernel}
    (h : Allowed (step (registerDevice charSigned block))
      (Admits (registerDevice charSigned block)
        (fun ascd bytes => ReadsAhead ascd.receiver.asc.inBuf bytes)
        (Device.ServeFits block))
      (start (Device.init ascd)) kernels) :
    let program := registerDevice charSigned block
    let s := run (step program) (start (Device.init ascd)) kernels
    let file := ascd.file block
    Allowed (step program) (Sound program) (start (Device.init ascd)) kernels ∧
      ServedSome block ascd.world.words s.vars s.received s.sent ∧
      (s.status = none -> exists handled answers,
        validFrames s.received =
            handled ++ validFrames s.vars.receiver.asc.inBuf.contents ∧
          trace RegisterFile.serve file handled =
            some (answers, s.vars.file block) ∧
          s.sent ++ s.vars.receiver.asc.outBuf.contents = framesOf answers) ∧
      (forall kernel inflags outflags, s.status = none ->
        kernel.ready = some (inflags, outflags) -> outflags.gone = false ->
        kernel.readResult ≠ none -> kernel.writeResult ≠ none ->
        s.statement = .doPoll -> (s.step program kernel).status ≠ none ->
          exists answers,
            trace RegisterFile.serve file (validFrames s.received) =
              some (answers, s.vars.file block) ∧
            s.sent = framesOf answers) := by
  intro program s file
  rcases keeps_of_run (registerDevice_keeps charSigned block ascd.world.words)
    (inv_start_registerDevice block ascd) h with ⟨hsound, hinv⟩
  have hruns (hstatus : s.status = none) : exists handled answers,
      validFrames s.received =
          handled ++ validFrames s.vars.receiver.asc.inBuf.contents ∧
        trace RegisterFile.serve file handled =
          some (answers, s.vars.file block) ∧
        s.sent ++ s.vars.receiver.asc.outBuf.contents = framesOf answers := by
    rcases hinv.left hstatus with ⟨handled, answers, hserves⟩
    exact ⟨handled, answers, hserves.takes.frames_eq, hserves.trace_eq,
      hserves.output_eq⟩
  refine ⟨hsound, ?_, hruns, ?_⟩
  · by_cases hstatus : s.status = none
    · rcases hinv.left hstatus with ⟨handled, answers, hserves⟩
      exact hserves.served
    · exact hinv.right hstatus
  · intro kernel inflags outflags hstatus hready hout hread hwrite hpolls hends
    rcases (ends_iff rfl hstatus hread hwrite).mp hends with
      ⟨-, hstops⟩ | ⟨hprocess, -⟩
    · rw [hready] at hstops
      rcases hstops with ⟨hin, hempty, -⟩ | hgone
      · have hinput : s.vars.receiver.asc.inBuf.contents = [] := hin
        have houtput : s.vars.receiver.asc.outBuf.contents = [] := hempty
        rcases hruns hstatus with ⟨handled, answers, hframes, htrace, hsent⟩
        rw [hinput] at hframes
        rw [houtput, List.append_nil] at hsent
        have hall : validFrames s.received = handled := by
          simpa [validFrames] using hframes
        rw [hall]
        exact ⟨answers, htrace, hsent⟩
      · cases hout.symm.trans hgone
    · cases hpolls.symm.trans hprocess

/-- `regs`, before anything has been written. -/
def tenRegisters : RegisterBlock .one := { block := 0, nRegs := 10 }

def zeroRegisters : Device (World .one) :=
  { receiver := { asc := Asc.init, received := Received.blank }
    world := { words := fun _ => 0, streamingIsOn := false } }

def requestOf (command : Char) (data : List Char) : Message :=
  { ascVersion := '0'.toUInt8
    appVersion := '0'.toUInt8
    command := command.toUInt8
    data := data.map Char.toUInt8 }

/-- A register is written, and read back. -/
def writeAndRead : List Kernel :=
  List.replicate 5
      (serving (requestOf 'w' ['0', '0', '0', '2', ',', 'B', 'E']).frame) ++
    List.replicate 5 (serving (requestOf 'r' ['0', '0', '0', '2']).frame) ++
    List.replicate 5 (serving [])

theorem serves_of_run_writeAndRead :
    let s := run (step (registerDevice true tenRegisters))
      (start (Device.init zeroRegisters)) writeAndRead
    exists answers,
      trace RegisterFile.serve (zeroRegisters.file tenRegisters)
          (validFrames s.received) =
        some (answers, s.vars.file tenRegisters) ∧
          s.sent = framesOf answers := by
  intro s
  have hstate : s.status = none ∧ s.statement = .doPoll ∧
      (s.step (registerDevice true tenRegisters) hangup).status ≠ none := by
    decide +kernel
  exact (serves_of_run true tenRegisters zeroRegisters
    (by decide +kernel)).right.right.right hangup _ _ hstate.left rfl rfl
    (by decide) (by decide) hstate.right.left hstate.right.right

/-- **The register device ends when it is refused something**, and otherwise only
when polling tells it to. -/
theorem ends_iff_refuses (charSigned : Bool) (block : RegisterBlock width)
    (ascd : Device (World width)) {kernels : List Kernel}
    (h : Allowed (step (registerDevice charSigned block))
      (Admits (registerDevice charSigned block)
        (fun ascd bytes => ReadsAhead ascd.receiver.asc.inBuf bytes)
        (Device.ServeFits block))
      (start (Device.init ascd)) kernels)
    (kernel : Kernel) (hread : kernel.readResult ≠ none)
    (hwrite : kernel.writeResult ≠ none) :
    let program := registerDevice charSigned block
    let s := run (step program) (start (Device.init ascd)) kernels
    s.status = none ->
      (s.statement = .process -> Device.ServeFits block s.vars) ->
        ((s.step program kernel).status ≠ none <->
          s.statement = .doPoll ∧
              CircularBufferIoFdPoll.Stops s.vars.receiver.asc.inBuf
                s.vars.receiver.asc.outBuf kernel.ready ∨
            s.statement = .process ∧
              Device.Refuses (s.vars.file block)
                (decode s.vars.receiver.asc.inBuf.contents).1) := by
  intro program s hstatus hfits
  have hinv := (keeps_of_run
    (registerDevice_keeps charSigned block ascd.world.words)
    (inv_start_registerDevice block ascd) h).right
  rw [ends_iff rfl hstatus hread hwrite]
  apply or_congr Iff.rfl
  apply and_congr_right
  intro hprocess
  rcases hinv.left hstatus with ⟨taken, answers, hserves⟩
  rcases Device.receive_cases charSigned hserves.checks (hfits hprocess) with
    ⟨haccepts, after, more, file', -, hrun, -⟩ |
      ⟨hrefuses, e, after, hrun, -, -⟩
  · refine iff_of_false ?_ haccepts
    rintro ⟨e, vars, hthrew⟩
    cases hrun.symm.trans hthrew
  · exact iff_of_true ⟨_, _, hrun⟩ hrefuses

/-- A read of a register that is not there. -/
def readOutOfRange : List Kernel :=
  List.replicate 2 (serving (requestOf 'r' ['0', '0', '0', 'A']).frame)

theorem ends_iff_refuses_readOutOfRange :
    let s := run (step (registerDevice true tenRegisters))
      (start (Device.init zeroRegisters)) readOutOfRange
    (s.step (registerDevice true tenRegisters) (serving [])).status ≠ none := by
  intro s
  have hd : (decode s.vars.receiver.asc.inBuf.contents).1 =
      .message (requestOf 'r' ['0', '0', '0', 'A']) := by decide +kernel
  have hserve : ((s.vars.file tenRegisters).serve
      (requestOf 'r' ['0', '0', '0', 'A'])).isNone = true := by decide +kernel
  refine (ends_iff_refuses true tenRegisters zeroRegisters (by decide +kernel)
    (serving []) (by decide) (by decide) (by decide +kernel)
    (by decide +kernel)).mpr (Or.inr ⟨by decide +kernel, ?_⟩)
  rw [hd]
  exact Option.isNone_iff_eq_none.mp hserve

end FdLoop
end AsciiSerialCom
