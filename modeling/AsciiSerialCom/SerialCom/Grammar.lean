import AsciiSerialCom.SerialCom.Stream

/-!
# The frame grammar

A call reports a message exactly when the first complete frame in the input
buffer is one of the grammar, and then it consumes the buffer up to the end of
that frame.  All that a caller can see of a call is a function of the contents.
-/

namespace AsciiSerialCom

open Foundation
open Foundation.StateError
open Foundation.Delimited
open Foundation.Hexadecimal

/-!
## What a caller sees
-/

/-- The message the results hold, if the command is not zero. -/
def Received.seen (out : Received) : Option Message :=
  if out.command = 0 then none else some out.message

/-- What a caller sees of a call: the exception, or the message if there is one,
and what is left in the input buffer. -/
def seenBy (result : EStateM.Result Failure Receiver Unit) :
    Except Failure (Option Message) × List UInt8 :=
  ((Result.outcome result).map fun _ => (Result.state result).received.seen,
    (Result.state result).asc.inBuf.contents)

/-- The outcome of a call on the contents, as a caller sees it. -/
def Decoded.seen : Decoded -> Except Failure (Option Message)
  | .nothing => .ok none
  | .message m => .ok (some m)
  | .thrown e => .error (.exception e)

theorem Decoded.seen_eq_some_iff {d : Decoded} {m : Message} :
    d.seen = .ok (some m) <-> d = .message m := by
  cases d <;> simp [Decoded.seen]

variable {r : Receiver}

theorem seenBy_ok (b : RingBuffer maxMessageLen) (received : Received) :
    seenBy (.ok () (r.withIn b received)) = (.ok received.seen, b.contents) :=
  rfl

/-- A caller sees what `decode` says. -/
theorem seenBy_getMessage (hcrc : r.asc.ignoreCRCMismatch = false) :
    seenBy (Receiver.getMessage r) =
      ((decode r.asc.inBuf.contents).1.seen,
        (decode r.asc.inBuf.contents).2) := by
  rcases hd : decode r.asc.inBuf.contents with ⟨d, rest⟩
  cases d with
  | message m =>
      rcases Receiver.getMessage_of_message hcrc hd with ⟨b, hb, hrun⟩
      have hcommand : (Received.ofMessage r.received.data m).command ≠ 0 :=
        (valid_of_decode (congrArg Prod.fst hd)).left.command_ne
      rw [hrun, seenBy_ok, hb, Received.seen, if_neg hcommand,
        Received.message_ofMessage, Decoded.seen]
  | nothing =>
      rcases Receiver.getMessage_of_nothing hcrc hd with
        ⟨b, received, hb, hcommand, hrun⟩
      have hnone : received.seen = none := if_pos hcommand
      rw [hrun, seenBy_ok, hb, hnone, Decoded.seen]
  | thrown e =>
      rcases Receiver.getMessage_of_thrown hcrc hd with
        ⟨b, received, hb, hrun⟩
      rw [hrun, ← hb]
      rfl

/-!
## The grammar
-/

/-- The bytes spell the frame of a message: header and data without a period,
a command that is not zero, not too much data, and the checksum of all that
stands before it. -/
def Spells (frame : List UInt8) (m : Message) : Prop :=
  exists h, frame = startByte :: m.ascVersion :: m.appVersion :: m.command ::
      (m.data ++ periodByte :: (h ++ [endByte])) ∧
    periodByte ∉ m.fields ∧ m.command ≠ 0 ∧ m.data.length <= maxDataLen ∧
    h.length = nCharChecksum ∧
    h = digits true 4 (Crc.crc16Dnp (startByte :: (m.fields ++
      [periodByte]))).toNat

theorem spells_iff {frame : List UInt8} {m : Message}
    (hshape : exists body, frame = startByte :: (body ++ [endByte]) ∧
      startByte ∉ body ∧ endByte ∉ body) :
    Spells frame m <-> m.Valid ∧ frame = m.frame := by
  constructor
  · rintro ⟨h, hframe, hperiod, hcommand, hlen, -, rfl⟩
    have hbody : frame = m.frame := by
      rw [hframe]
      simp [Message.frame, Message.body, Message.fields, Message.checksum,
        Message.region, checksumOf]
    refine ⟨⟨⟨?_, hlen⟩, hcommand⟩, hbody⟩
    rcases hshape with ⟨body, hbody', hstart, hend⟩
    have heq : body = m.body := by
      rw [hbody, Message.frame] at hbody'
      injection hbody' with _ htail
      exact (List.append_cancel_right htail).symm
    subst heq
    intro b hb hreserved
    have hmem : b ∈ m.body := List.mem_append_left _ hb
    rcases hreserved with rfl | rfl | rfl
    · exact hstart hmem
    · exact hperiod hb
    · exact hend hmem
  · rintro ⟨hvalid, rfl⟩
    refine ⟨m.checksum, ?_, hvalid.periodByte_not_mem_fields,
      hvalid.command_ne, hvalid.length_le, m.checksum_length, rfl⟩
    simp [Message.frame, Message.body, Message.fields]

/-- **A call accepts exactly the frame grammar**, and what it does depends on
nothing but the contents of the input buffer. -/
theorem getMessage_accepts_iff (hcrc : r.asc.ignoreCRCMismatch = false) :
    (forall m rest, seenBy (Receiver.getMessage r) = (.ok (some m), rest) <->
      exists front frame,
        FirstFrame startByte endByte r.asc.inBuf.contents front frame rest ∧
          Spells frame m) ∧
      forall r' : Receiver, r'.asc.ignoreCRCMismatch = false ->
        r'.asc.inBuf.contents = r.asc.inBuf.contents ->
        seenBy (Receiver.getMessage r') = seenBy (Receiver.getMessage r) := by
  constructor
  · intro m rest
    rw [seenBy_getMessage hcrc]
    constructor
    · intro hseen
      injection hseen with hseen hrest
      have hd := Decoded.seen_eq_some_iff.mp hseen
      rcases valid_of_decode hd with ⟨hvalid, hresync⟩
      have hresync' : resync startByte endByte r.asc.inBuf.contents =
          startByte :: (m.body ++ endByte :: rest) := by
        rw [hresync, hrest, Message.frame]
        simp
      rcases exists_firstFrame_of_resync endByte_ne_startByte
        hvalid.startByte_not_mem_body hvalid.endByte_not_mem_body hresync' with
        ⟨front, hfirst⟩
      exact ⟨front, m.frame, hfirst,
        (spells_iff hfirst.shape).mpr ⟨hvalid, rfl⟩⟩
    · rintro ⟨front, frame, hfirst, hspells⟩
      rcases (spells_iff hfirst.shape).mp hspells with ⟨hvalid, rfl⟩
      have hresync := resync_of_firstFrame endByte_ne_startByte hfirst
      have hd := decode_frame hvalid rest
      rw [← hresync, decode, resync_idem, ← decode] at hd
      rw [hd]
      rfl
  · intro r' hcrc' hcontents
    rw [seenBy_getMessage hcrc', seenBy_getMessage hcrc, hcontents]

/-- A message without data. -/
def noOperation : Message :=
  { ascVersion := '0'.toUInt8
    appVersion := '0'.toUInt8
    command := 'z'.toUInt8
    data := [] }

/-- Its frame is accepted. -/
theorem getMessage_accepts_noOperation :
    seenBy (Receiver.getMessage (Receiver.holding noOperation.frame)) =
      (.ok (some noOperation), []) := by
  have hvalid : noOperation.Valid := by decide +kernel
  have hc := Receiver.holding_contents noOperation.frame (by decide)
  have hshape : exists body, noOperation.frame =
      startByte :: (body ++ [endByte]) ∧ startByte ∉ body ∧ endByte ∉ body :=
    ⟨noOperation.body, rfl, hvalid.startByte_not_mem_body,
      hvalid.endByte_not_mem_body⟩
  have hfirst : FirstFrame startByte endByte
      (Receiver.holding noOperation.frame).asc.inBuf.contents []
      noOperation.frame [] := by
    refine ⟨?_, hshape, fun a b _ _ => Nat.zero_le a.length⟩
    rw [hc, List.append_nil, List.nil_append]
  exact ((getMessage_accepts_iff rfl).left noOperation []).mpr
    ⟨[], noOperation.frame, hfirst, (spells_iff hshape).mpr ⟨hvalid, rfl⟩⟩

end AsciiSerialCom
