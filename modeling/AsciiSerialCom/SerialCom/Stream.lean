import AsciiSerialCom.Foundation.Runs
import AsciiSerialCom.SerialCom.Decode

/-!
# Decoding a stream

Bytes arrive one by one, and the receiving function is called in between.
Whatever the schedule, the messages reported so far and the valid frames still
in the buffer are together the valid frames of the stream.

The invariant says this of the stream continued by any bytes: only so does it
carry over to the next byte, which may complete a frame.
-/

namespace AsciiSerialCom

open Foundation
open Foundation.StateError
open Foundation.Delimited

/-!
## What one call does to the valid frames
-/

/-- The message an outcome reports, if any. -/
def Decoded.reported : Decoded -> List Message
  | .message m => [m]
  | .nothing => []
  | .thrown _ => []

theorem length_ge_of_parseBody {body : List UInt8} {m : Message}
    (h : parseBody body = some m) : 8 <= body.length := by
  rcases parseBody_eq_some_iff.mp h with ⟨rfl, -⟩
  rw [m.body_length]
  omega

/-- A call that compares checksums accounts for the frame, even if the end byte
it finds belongs to what follows the frame. -/
theorem validFrames_checked {m : Message} {tail later : List UInt8}
    (hend : endByte ∉ m.fields ++ periodByte :: tail)
    (hperiod : periodByte ∉ m.fields) (hlong : m.data.length <= maxDataLen)
    (hlength : (tail ++ endByte :: later)[nCharChecksum]? = some endByte)
    (t : List UInt8) :
    (parseBody (m.fields ++ periodByte :: tail)).toList ++
        validFrames (later ++ t) =
      (checkTail m ((tail ++ endByte :: later).take nCharChecksum)).reported ++
        validFrames ((tail ++ endByte :: later).drop (nCharChecksum + 1) ++
          t) := by
  have htail : endByte ∉ tail := fun hmem => hend (by simp [hmem])
  rcases tail_cases htail hlength with
    ⟨-, hchecksum, hdrop⟩ | ⟨a, b, rfl, hlen, hmem, hdrop⟩
  · rw [hchecksum, hdrop, checkTail, parseBody_fields hperiod]
    congr 1
    by_cases hmatch : tail = m.checksum ∧ m.command ≠ 0
    · rw [if_pos hmatch, if_pos ⟨hmatch.right, hlong, hmatch.left⟩]
      rfl
    · rw [if_neg hmatch, if_neg (fun h => hmatch ⟨h.right.right, h.left⟩)]
      rfl
  · have hne : tail ≠ m.checksum := by
      intro heq
      have hfour : tail.length = nCharChecksum := heq ▸ m.checksum_length
      omega
    have hframes : validFrames (a ++ endByte :: b ++ t) =
        validFrames (b ++ t) := by
      have hn : nCharChecksum = 4 := rfl
      rw [List.append_assoc, List.cons_append]
      exact frames_of_too_short endByte_ne_startByte
        (fun _ _ => length_ge_of_parseBody) (by omega)
    rw [checkTail, if_neg (fun h => ne_checksum_of_endByte_mem hmem h.left),
      hdrop, parseBody_fields hperiod, if_neg (fun h => hne h.right.right),
      hframes]
    rfl

/-- **A call loses no valid frame and invents none**, whatever arrives later. -/
theorem validFrames_decode (l t : List UInt8) :
    validFrames (l ++ t) =
      (decode l).1.reported ++ validFrames ((decode l).2 ++ t) := by
  have hresync : validFrames (resync startByte endByte l ++ t) =
      validFrames (l ++ t) := frames_resync_append l t
  have hcase := decode_cases l
  rw [← hresync]
  generalize resync startByte endByte l = l' at hcase ⊢
  generalize (decode l).1 = d at hcase ⊢
  generalize (decode l).2 = rest at hcase ⊢
  cases hcase with
  | empty => rfl
  | growing hend hstart => rfl
  | noPeriod hend hstart hperiod =>
      rw [List.cons_append, List.append_assoc, List.cons_append,
        validFrames_closed _ hend hstart, parseBody_of_not_mem hperiod]
      rfl
  | overlong hend hstart hperiod hlong => rfl
  | short hend hstart hperiod hshort => rfl
  | @wrongLength m tail later hend hstart hperiod hlong hlength =>
      have htail : startByte ∉ tail := fun hmem => hstart (by simp [hmem])
      have hne : tail ≠ m.checksum := by
        intro heq
        apply hlength
        have hlen : tail.length = nCharChecksum := heq ▸ m.checksum_length
        rw [List.getElem?_append_right (by omega), hlen, Nat.sub_self]
        rfl
      have hbody : startByte :: (m.fields ++ periodByte ::
          (tail ++ endByte :: later)) ++ t =
          startByte :: ((m.fields ++ periodByte :: tail) ++ endByte ::
            (later ++ t)) := by simp
      have hskip : validFrames ((tail ++ [endByte]) ++ (later ++ t)) =
          validFrames (later ++ t) := by
        apply validFrames_append_of_not_mem
        simp only [List.mem_append, List.mem_singleton, not_or]
        exact ⟨htail, endByte_ne_startByte.symm⟩
      rw [hbody, validFrames_closed _ hend hstart, parseBody_fields hperiod,
        if_neg (fun h => hne h.right.right), ← hskip]
      simp [Decoded.reported]
  | @checked m tail later hend hstart hperiod hlong hlength =>
      have hbody : startByte :: (m.fields ++ periodByte ::
          (tail ++ endByte :: later)) ++ t =
          startByte :: ((m.fields ++ periodByte :: tail) ++ endByte ::
            (later ++ t)) := by simp
      rw [hbody, validFrames_closed _ hend hstart]
      exact validFrames_checked hend hperiod hlong hlength t

/-!
## Full buffers
-/

theorem parseBody_of_bad_length {fields : List UInt8}
    (hperiod : periodByte ∉ fields)
    (h : fields.length < 3 ∨ maxDataLen + 3 < fields.length)
    (tail : List UInt8) :
    parseBody (fields ++ periodByte :: tail) = none := by
  by_cases hshort : fields.length < 3
  · rw [parseBody, cutAt_of_split hperiod]
    simp only [Message.ofFields_of_short hshort, Option.filter_none]
  · rcases Message.exists_eq_fields (Nat.not_lt.mp hshort) with ⟨m, rfl⟩
    rw [m.fields_length] at h
    rw [parseBody_fields hperiod, if_neg (fun hread => by omega)]

theorem validFrames_tail_of_parseBody_none {body : List UInt8}
    (later : List UInt8) (hend : endByte ∉ body) (hstart : startByte ∉ body)
    (hparse : parseBody body = none) :
    validFrames (startByte :: (body ++ endByte :: later)) =
      validFrames (body ++ endByte :: later) := by
  apply frames_of_head_none
  rw [frameAtHead_of_frame hend hstart later, hparse]

theorem length_resync_le (l : List UInt8) :
    (resync startByte endByte l).length <= l.length := by
  rcases resync_suffix startByte endByte l with
    ⟨front, hfront⟩
  have := congrArg List.length hfront
  rw [List.length_append] at this
  omega

/-- A call that leaves a full buffer leaves a front byte no valid frame needs,
so overwriting it does no harm. -/
theorem validFrames_tail_of_full {l : List UInt8}
    (hle : l.length <= maxMessageLen)
    (hfull : (decode l).2.length = maxMessageLen) (t : List UInt8) :
    validFrames ((decode l).2.tail ++ t) = validFrames ((decode l).2 ++ t) := by
  have hmax : maxMessageLen = maxDataLen + 8 + 2 := rfl
  have hlen := Nat.le_trans (length_resync_le l) hle
  have hcase := decode_cases l
  generalize resync startByte endByte l = l' at hcase hlen
  generalize (decode l).1 = d at hcase
  generalize (decode l).2 = rest at hcase hfull ⊢
  cases hcase with
  | empty => rfl
  | growing hend hstart =>
      rw [List.length_cons] at hfull
      exact (frames_of_overlong (fun _ _ => length_le_of_parseBody) hend
        (by omega)).symm
  | noPeriod hend hstart hperiod => simp at hlen; omega
  | @overlong fields tail later hend hstart hperiod hlong =>
      have hparse := parseBody_of_bad_length hperiod (Or.inr hlong) tail
      have hframe := validFrames_tail_of_parseBody_none (later ++ t) hend hstart
        hparse
      simpa using hframe.symm
  | @short fields tail later hend hstart hperiod hshort =>
      have hparse := parseBody_of_bad_length hperiod (Or.inl hshort) tail
      have hframe := validFrames_tail_of_parseBody_none (later ++ t) hend hstart
        hparse
      simpa using hframe.symm
  | wrongLength hend hstart hperiod hlong hlength => simp at hlen hfull; omega
  | checked hend hstart hperiod hlong hlength => simp at hlen hfull; omega

/-!
## What one call reports
-/

/-- The message the results of a call hold. -/
def Received.message (out : Received) : Message :=
  { ascVersion := out.ascVersion
    appVersion := out.appVersion
    command := out.command
    data := Memory.slice out.data 0 out.dataLen }

/-- What a caller takes for a message: a call that returns with a command. -/
def reportedBy : EStateM.Result Failure Receiver Unit -> List Message
  | .ok _ r => if r.received.command = 0 then [] else [r.received.message]
  | .error _ _ => []

@[simp] theorem Received.message_ofMessage (data : Memory UInt8) (m : Message) :
    (Received.ofMessage data m).message = m := by
  rw [message, Received.ofMessage]
  simp only [Memory.slice_store_self]

/-- A call changes the input buffer and the results as `decode` says, and
nothing else. -/
theorem getMessage_step {r : Receiver}
    (hcrc : r.asc.ignoreCRCMismatch = false) :
    exists (b : RingBuffer maxMessageLen) (received : Received),
      Result.state (Receiver.getMessage r) = r.withIn b received ∧
      b.contents = (decode r.asc.inBuf.contents).2 ∧
      reportedBy (Receiver.getMessage r) =
        (decode r.asc.inBuf.contents).1.reported := by
  rcases hd : decode r.asc.inBuf.contents with ⟨d, rest⟩
  cases d with
  | message m =>
      rcases Receiver.getMessage_of_message hcrc hd with ⟨b, hb, hrun⟩
      let received := Received.ofMessage r.received.data m
      have hcommand : received.command ≠ 0 :=
        (valid_of_decode (congrArg Prod.fst hd)).left.command_ne
      have hreported : reportedBy (.ok () (r.withIn b received)) =
          [received.message] := if_neg hcommand
      refine ⟨b, received, ?_⟩
      rw [hrun, hreported, Received.message_ofMessage]
      exact ⟨rfl, hb, rfl⟩
  | nothing =>
      rcases Receiver.getMessage_of_nothing hcrc hd with
        ⟨b, received, hb, hcommand, hrun⟩
      have hreported : reportedBy (.ok () (r.withIn b received)) = [] :=
        if_pos hcommand
      refine ⟨b, received, ?_⟩
      rw [hrun, hreported]
      exact ⟨rfl, hb, rfl⟩
  | thrown e =>
      rcases Receiver.getMessage_of_thrown hcrc hd with
        ⟨b, received, hb, hrun⟩
      refine ⟨b, received, ?_⟩
      rw [hrun]
      exact ⟨rfl, hb, rfl⟩

/-!
## Runs
-/

/-- One step of a polling loop that receives. -/
inductive StreamOp where
  /-- `circular_buffer_push_back_uint8` on the input buffer -/
  | push (b : UInt8)
  /-- `ascii_serial_com_get_message_from_input_buffer`, exceptions caught -/
  | receive
  deriving DecidableEq, Repr

/-- A receiver, with what has come in and what has been reported so far. -/
structure StreamState where
  receiver : Receiver
  stream : List UInt8
  reported : List Message
  justReceived : Bool

namespace StreamState

/-- Start from a receiver, with its buffered bytes as the stream so far. -/
def start (receiver : Receiver) : StreamState :=
  { receiver := receiver
    stream := receiver.asc.inBuf.contents
    reported := []
    justReceived := false }

/-- A freshly initialized receiver. -/
def init (received : Received) : StreamState :=
  start { asc := Asc.init, received := received }

/-- The contents of the input buffer. -/
def buffered (s : StreamState) : List UInt8 := s.receiver.asc.inBuf.contents

def step (s : StreamState) : StreamOp -> StreamState
  | .push b =>
      { s with
        receiver :=
          { s.receiver with
            asc :=
              { s.receiver.asc with
                inBuf := s.receiver.asc.inBuf.pushBack b } }
        stream := s.stream ++ [b]
        justReceived := false }
  | .receive =>
      { s with
        receiver := Result.state (Receiver.getMessage s.receiver)
        reported := s.reported ++ reportedBy (Receiver.getMessage s.receiver)
        justReceived := true }

/-- A push on a full buffer comes directly after a receiving call. -/
def Admits (s : StreamState) : StreamOp -> Prop
  | .push _ => s.receiver.asc.inBuf.isFull = true -> s.justReceived = true
  | .receive => True

instance (s : StreamState) : (op : StreamOp) -> Decidable (s.Admits op)
  | .push _ => inferInstanceAs (Decidable (_ -> _))
  | .receive => inferInstanceAs (Decidable True)

/-- Everything is accounted for, whatever arrives next. -/
structure Exact (s : StreamState) : Prop where
  checks : s.receiver.asc.ignoreCRCMismatch = false
  frames : forall t,
    validFrames (s.stream ++ t) = s.reported ++ validFrames (s.buffered ++ t)
  spare : s.justReceived = true -> s.buffered.length = maxMessageLen ->
    forall t, validFrames (s.buffered.tail ++ t) = validFrames (s.buffered ++ t)

theorem start_exact {receiver : Receiver}
    (hcrc : receiver.asc.ignoreCRCMismatch = false) :
    (start receiver).Exact :=
  { checks := hcrc
    frames := fun _ => rfl
    spare := fun h => by cases h }

theorem buffered_length_le (s : StreamState) :
    s.buffered.length <= maxMessageLen :=
  RingBuffer.length_contents_le _

theorem push_exact {s : StreamState} {b : UInt8} (h : s.Exact)
    (hadmits : s.Admits (.push b)) : (s.step (.push b)).Exact := by
  refine ⟨h.checks, ?_, fun hreceived => by cases hreceived⟩
  intro t
  have hpush : (s.step (.push b)).buffered =
      if s.buffered.length = maxMessageLen then
        s.buffered.tail ++ [b]
      else
        s.buffered ++ [b] :=
    RingBuffer.contents_pushBack s.receiver.asc.inBuf b
  have hstream : (s.step (.push b)).stream ++ t = s.stream ++ (b :: t) := by
    simp [step]
  have hreported : (s.step (.push b)).reported = s.reported := rfl
  rw [hstream, hreported, hpush, h.frames]
  split
  · rename_i hfull
    have hready := hadmits ((RingBuffer.isFull_iff _).mpr hfull)
    rw [List.append_assoc, List.singleton_append, h.spare hready hfull]
  · rw [List.append_assoc, List.singleton_append]

theorem receive_buffered {s : StreamState} (h : s.Exact) :
    (s.step .receive).buffered = (decode s.buffered).2 := by
  rcases getMessage_step h.checks with ⟨b, received, hstate, hb, -⟩
  rw [buffered, step]
  simp only
  rw [hstate]
  exact hb

theorem receive_exact {s : StreamState} (h : s.Exact) :
    (s.step .receive).Exact := by
  rcases getMessage_step h.checks with ⟨b, received, hstate, -, hreported⟩
  have hbuffered := receive_buffered h
  refine ⟨?_, ?_, ?_⟩
  · simp only [step]
    rw [hstate]
    exact h.checks
  · intro t
    have hstream : (s.step .receive).stream = s.stream := rfl
    have hnext : (s.step .receive).reported =
        s.reported ++ (decode s.buffered).1.reported := by
      rw [step]
      simp only
      rw [hreported]
      rfl
    rw [hstream, hnext, hbuffered, h.frames, validFrames_decode,
      List.append_assoc]
  · intro _ hfull t
    rw [hbuffered] at hfull ⊢
    exact validFrames_tail_of_full s.buffered_length_le hfull t

theorem step_exact {s : StreamState} {op : StreamOp} (h : s.Exact)
    (hadmits : s.Admits op) : (s.step op).Exact := by
  cases op with
  | push b => exact push_exact h hadmits
  | receive => exact receive_exact h

/-- The state after calls without new input. -/
def poll (k : Nat) (s : StreamState) : StreamState :=
  Run.run step s (List.replicate k .receive)

theorem poll_succ (k : Nat) (s : StreamState) :
    poll (k + 1) s = (poll k s).step .receive := by
  rw [poll, List.replicate_succ', Run.run_append]
  rfl

theorem poll_exact {s : StreamState} (h : s.Exact) (k : Nat) :
    (poll k s).Exact := by
  induction k with
  | zero => exact h
  | succ k ih =>
      rw [poll_succ]
      exact receive_exact ih

theorem poll_buffered_succ {s : StreamState} (h : s.Exact) (k : Nat) :
    (poll (k + 1) s).buffered = (decode (poll k s).buffered).2 := by
  rw [poll_succ]
  exact receive_buffered (poll_exact h k)

theorem poll_frames {s : StreamState} (h : s.Exact) (k : Nat) :
    (poll k s).reported ++ validFrames (poll k s).buffered =
      s.reported ++ validFrames s.buffered := by
  have hstream : (poll k s).stream = s.stream := by
    induction k with
    | zero => rfl
    | succ k ih =>
        rw [poll_succ]
        exact ih
  have hafter := (poll_exact h k).frames []
  have hbefore := h.frames []
  rw [List.append_nil, List.append_nil] at hafter hbefore
  rw [← hafter, ← hbefore, hstream]

/-- The bytes pushed in a run. -/
def pushed (ops : List StreamOp) : List UInt8 :=
  ops.filterMap fun
    | .push b => some b
    | .receive => none

theorem run_stream (s : StreamState) (ops : List StreamOp) :
    (Run.run step s ops).stream = s.stream ++ pushed ops := by
  induction ops generalizing s with
  | nil => simp [pushed]
  | cons op ops ih =>
      rw [Run.run_cons, ih]
      cases op <;> simp [step, pushed]

/-- **Decoding a stream is exact**: under every schedule, the messages reported
and the valid frames still in the buffer are the valid frames of the stream. -/
theorem reported_append_validFrames (received : Received) (ops : List StreamOp)
    (h : Run.Allowed step Admits (init received) ops) :
    (Run.run step (init received) ops).reported ++
        validFrames (Run.run step (init received) ops).buffered =
      validFrames (pushed ops) := by
  have hexact := h.invariant (fun _ _ => step_exact)
    (show (init received).Exact from start_exact rfl)
  have hframes := hexact.frames []
  rw [List.append_nil, List.append_nil, run_stream] at hframes
  exact hframes.symm

/-- A junk byte, a whole frame, and a call. -/
theorem reported_append_validFrames_of_frame :
    let m : Message :=
      { ascVersion := '0'.toUInt8
        appVersion := '0'.toUInt8
        command := 'w'.toUInt8
        data := ['F'.toUInt8] }
    let ops := (startByte :: m.frame).map StreamOp.push ++ [.receive]
    (Run.run step (init Received.blank) ops).reported ++
        validFrames (Run.run step (init Received.blank) ops).buffered =
      validFrames (startByte :: m.frame) :=
  reported_append_validFrames _ _ (by decide +kernel)

end StreamState
end AsciiSerialCom
