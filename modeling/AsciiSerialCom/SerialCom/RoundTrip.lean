import AsciiSerialCom.SerialCom.Stream

/-!
# From sender to receiver

What one interface puts into its output buffer, another one reads back, and what
a receiver reports can be put back byte for byte.  A single changed byte, or two
adjacent ones within header and data, turn the frame into one that is not
reported.  Delimiters within the data are another matter: nothing escapes them.
-/

namespace AsciiSerialCom

open Foundation
open Foundation.StateError
open Foundation.Delimited
open Crc

/-!
## Moving bytes
-/

/-- Pop `n` bytes off one buffer and push them onto another. -/
def moveBytes : Nat -> RingBuffer maxMessageLen -> RingBuffer maxMessageLen ->
    Except Failure (RingBuffer maxMessageLen × RingBuffer maxMessageLen)
  | 0, source, dest => .ok (source, dest)
  | n + 1, source, dest =>
      match RingBuffer.popFront source with
      | .ok b source' => moveBytes n source' (dest.pushBack b)
      | .error e _ => .error e

theorem moveBytes_all {source dest : RingBuffer maxMessageLen}
    {front bytes : List UInt8} (hsource : source.contents = bytes)
    (hdest : dest.contents = front)
    (hfit : front.length + bytes.length <= maxMessageLen) :
    exists source' dest',
      moveBytes source.getSize source dest = .ok (source', dest') ∧
        source'.contents = [] ∧ dest'.contents = front ++ bytes := by
  rw [← source.length_contents, hsource]
  induction bytes generalizing source dest front with
  | nil => exact ⟨source, dest, rfl, hsource, by rw [hdest, List.append_nil]⟩
  | cons b bytes ih =>
      rw [List.length_cons] at hfit
      rcases RingBuffer.popFront_of_cons hsource with ⟨source', hpop, hrest⟩
      have hpush := RingBuffer.contents_pushBack_of_lt (r := dest) b
        (by rw [hdest]; omega)
      rw [hdest] at hpush
      rcases ih hrest hpush (by simp; omega) with
        ⟨source'', dest', hmove, hempty, hcontents⟩
      refine ⟨source'', dest', ?_, hempty, by rw [hcontents]; simp⟩
      rw [List.length_cons, moveBytes, hpop]
      exact hmove

/-!
## Putting into an empty buffer
-/

namespace Asc

/-- An empty output buffer takes any message without a start byte. -/
theorem putMessage_of_empty {asc : Asc} {m : Message}
    {ascVersion appVersion command : UInt8} {data : Memory UInt8}
    {dataLen : Nat}
    (hm : messageOf ascVersion appVersion command data dataLen = m)
    (hempty : asc.outBuf.contents = []) (hlen : dataLen <= maxDataLen)
    (hstart : startByte ∉ m.fields) :
    exists asc',
      putMessage ascVersion appVersion command data dataLen asc = .ok () asc' ∧
        asc'.outBuf.contents = m.frame := by
  rcases putMessage_of_unwrapped hm hstart (hasRoom_of_empty hempty hlen)
    (unwrapped_of_empty hempty) with ⟨out, hput, hout, -⟩
  refine ⟨{ asc with outBuf := out }, hput, ?_⟩
  rw [hempty] at hout
  exact hout

end Asc

/-!
## Both directions
-/

namespace Receiver

variable {r : Receiver}

/-- The frame of a valid message is received, and nothing is left of it. -/
theorem getMessage_of_frame (hcrc : r.asc.ignoreCRCMismatch = false)
    {m : Message} (hvalid : m.Valid) (hc : r.asc.inBuf.contents = m.frame) :
    exists b : RingBuffer maxMessageLen, b.contents = [] ∧
      getMessage r =
        .ok () (r.withIn b (Received.ofMessage r.received.data m)) := by
  apply getMessage_of_message hcrc
  rw [hc, ← List.append_nil m.frame]
  exact decode_frame hvalid []

/-- What is received stood in the input buffer as the frame of a valid message,
in front of what is left. -/
theorem exists_frame_of_getMessage (hcrc : r.asc.ignoreCRCMismatch = false)
    {r' : Receiver} (hrun : getMessage r = .ok () r')
    (hcommand : r'.received.command ≠ 0) :
    exists m junk, m.Valid ∧
      r'.received = Received.ofMessage r.received.data m ∧
        r.asc.inBuf.contents =
          junk ++ (m.frame ++ r'.asc.inBuf.contents) := by
  rcases hd : decode r.asc.inBuf.contents with ⟨d, rest⟩
  cases d with
  | nothing =>
      rcases getMessage_of_nothing hcrc hd with ⟨b, received, -, hzero, hrun'⟩
      cases hrun'.symm.trans hrun
      exact absurd hzero hcommand
  | thrown e =>
      rcases getMessage_of_thrown hcrc hd with ⟨b, received, -, hrun'⟩
      cases hrun'.symm.trans hrun
  | message m =>
      rcases getMessage_of_message hcrc hd with ⟨b, hb, hrun'⟩
      cases hrun'.symm.trans hrun
      rcases valid_of_decode (congrArg Prod.fst hd) with ⟨hvalid, hresync⟩
      rcases resync_suffix startByte endByte r.asc.inBuf.contents with
        ⟨junk, hjunk⟩
      rw [hresync, hd, ← hb] at hjunk
      exact ⟨m, junk, hvalid, rfl, hjunk⟩

end Receiver

/-- **Encoder and decoder are inverse to each other.**  Whatever the rotations
of the buffers, a message that is put, moved and received comes out as it went
in, and a message that is received and put again gives the frame it came in. -/
theorem encode_decode_inverse :
    (forall (sender : Asc) (receiver : Receiver)
        (ascVersion appVersion command : UInt8) (data : Memory UInt8)
        (dataLen : Nat),
      (Asc.messageOf ascVersion appVersion command data dataLen).Valid ->
      sender.outBuf.contents = [] -> receiver.asc.inBuf.contents = [] ->
      receiver.asc.ignoreCRCMismatch = false ->
      exists sender' source dest receiver',
        Asc.putMessage ascVersion appVersion command data dataLen sender =
            .ok () sender' ∧
          moveBytes sender'.outBuf.getSize sender'.outBuf
            receiver.asc.inBuf = .ok (source, dest) ∧
          Receiver.getMessage
            { receiver with asc := { receiver.asc with inBuf := dest } } =
              .ok () receiver' ∧
          receiver'.received.message =
            Asc.messageOf ascVersion appVersion command data dataLen ∧
          receiver'.received.dataLen = dataLen ∧
          source.contents = [] ∧ receiver'.asc.inBuf.contents = []) ∧
    (forall receiver receiver' : Receiver,
      receiver.asc.ignoreCRCMismatch = false ->
      Receiver.getMessage receiver = .ok () receiver' ->
      receiver'.received.command ≠ 0 ->
      forall sender : Asc, sender.outBuf.contents = [] ->
        exists sender',
          Asc.putMessage receiver'.received.ascVersion
              receiver'.received.appVersion receiver'.received.command
              receiver'.received.data receiver'.received.dataLen sender =
            .ok () sender' ∧
          exists junk, receiver.asc.inBuf.contents =
            junk ++ sender'.outBuf.contents ++
              receiver'.asc.inBuf.contents) := by
  constructor
  · intro sender receiver ascVersion appVersion command data dataLen hvalid
      hout hin hcrc
    generalize hm :
      Asc.messageOf ascVersion appVersion command data dataLen = m at hvalid ⊢
    have hlen := Asc.messageOf_data_length hm
    rcases Asc.putMessage_of_empty hm hout (hlen ▸ hvalid.length_le)
      hvalid.startByte_not_mem_fields with ⟨sender', hput, hframe⟩
    rcases moveBytes_all hframe hin (by
      rw [m.frame_length, List.length_nil, Nat.zero_add]
      exact Nat.add_le_add_right hvalid.length_le 10) with
      ⟨source, dest, hmove, hsource, hdest⟩
    rcases Receiver.getMessage_of_frame
      (r := { receiver with asc := { receiver.asc with inBuf := dest } })
      hcrc hvalid hdest with ⟨b, hb, hrun⟩
    refine ⟨sender', source, dest, _, hput, hmove, hrun, ?_, ?_, hsource, hb⟩
    · exact Received.message_ofMessage _ m
    · rw [← hlen]
      rfl
  · intro receiver receiver' hcrc hrun hcommand sender hout
    rcases Receiver.exists_frame_of_getMessage hcrc hrun hcommand with
      ⟨m, junk, hvalid, hreceived, hjunk⟩
    have hm : Asc.messageOf m.ascVersion m.appVersion m.command
        (Memory.store receiver.received.data 0 m.data) m.data.length = m := by
      rw [Asc.messageOf, Memory.slice_store_self]
    rcases Asc.putMessage_of_empty hm hout hvalid.length_le
      hvalid.startByte_not_mem_fields with ⟨sender', hput, hframe⟩
    refine ⟨sender', ?_, junk, ?_⟩
    · rw [hreceived]
      exact hput
    · rw [hframe, List.append_assoc]
      exact hjunk

/-- A write request on its way from one fresh interface to another. -/
theorem encode_decode_inverse_of_write :
    exists sender' source dest receiver',
      Asc.putMessage '0'.toUInt8 '0'.toUInt8 'w'.toUInt8
          (fun _ => 'F'.toUInt8) 3 Asc.init = .ok () sender' ∧
        moveBytes sender'.outBuf.getSize sender'.outBuf
          (Receiver.holding []).asc.inBuf = .ok (source, dest) ∧
        Receiver.getMessage
          { Receiver.holding [] with
            asc := { (Receiver.holding []).asc with inBuf := dest } } =
            .ok () receiver' ∧
        receiver'.received.message =
          Asc.messageOf '0'.toUInt8 '0'.toUInt8 'w'.toUInt8
            (fun _ => 'F'.toUInt8) 3 ∧
        receiver'.received.dataLen = 3 ∧
        source.contents = [] ∧ receiver'.asc.inBuf.contents = [] :=
  encode_decode_inverse.left Asc.init (Receiver.holding []) _ _ _ _ 3
    (by decide +kernel) rfl rfl rfl

/-!
## Payloads with delimiters
-/

/-- The valid frames of a body without a start or an end byte: the message itself
or, if it holds a period or the command is zero, none. -/
theorem validFrames_frame_cases {m : Message} (hstart : startByte ∉ m.fields)
    (hend : endByte ∉ m.fields) :
    validFrames m.frame = [] ∨ validFrames m.frame = [m] := by
  have hstart' : startByte ∉ m.body := by
    simp only [Message.body, List.mem_append, List.mem_cons, not_or]
    exact ⟨hstart, by decide, m.startByte_not_mem_checksum⟩
  have hend' : endByte ∉ m.body := by
    simp only [Message.body, List.mem_append, List.mem_cons, not_or]
    exact ⟨hend, by decide, m.endByte_not_mem_checksum⟩
  have hframes : validFrames m.frame = (parseBody m.body).toList := by
    have hclosed := validFrames_closed [] hend' hstart'
    rw [show validFrames [] = [] from rfl, List.append_nil] at hclosed
    exact hclosed
  rw [hframes]
  cases hparse : parseBody m.body with
  | none => exact Or.inl rfl
  | some m' =>
      right
      rcases parseBody_eq_some_iff.mp hparse with ⟨hbody, -⟩
      -- both bodies end in a period and four digits
      have hlen : m.fields.length = m'.fields.length := by
        have hlength := congrArg List.length hbody
        rw [m.body_length, m'.body_length] at hlength
        rw [m.fields_length, m'.fields_length]
        omega
      have hfields := (List.append_inj hbody hlen).left
      have hm : m = m' := Option.some.inj
        ((Message.ofFields_eq_some_iff.mpr rfl).symm.trans
          (Message.ofFields_eq_some_iff.mpr hfields))
      rw [hm]
      rfl

/-- **Data without start and end bytes is delivered as it is or not at all.** -/
theorem reported_of_put {ascVersion appVersion command : UInt8}
    {data : Memory UInt8} {dataLen : Nat} {m : Message}
    (hm : Asc.messageOf ascVersion appVersion command data dataLen = m)
    (hlen : dataLen <= maxDataLen) (hstart : startByte ∉ m.fields)
    (hend : endByte ∉ m.fields) {sender : Asc}
    (hempty : sender.outBuf.contents = []) :
    exists sender',
      Asc.putMessage ascVersion appVersion command data dataLen sender =
          .ok () sender' ∧
        forall receiver : Receiver,
          receiver.asc.ignoreCRCMismatch = false ->
          receiver.asc.inBuf.contents = sender'.outBuf.contents ->
          forall k,
            ((StreamState.start receiver).poll k).reported = [] ∨
              ((StreamState.start receiver).poll k).reported = [m] := by
  rcases Asc.putMessage_of_empty hm hempty hlen hstart with
    ⟨sender', hput, hframe⟩
  refine ⟨sender', hput, ?_⟩
  intro receiver hcrc hin k
  have hreported := StreamState.poll_frames (StreamState.start_exact hcrc) k
  have hbuffered : (StreamState.start receiver).buffered = m.frame :=
    hin.trans hframe
  have hnone : (StreamState.start receiver).reported = [] := rfl
  rw [hbuffered, hnone, List.nil_append] at hreported
  rcases validFrames_frame_cases hstart hend with h | h
  · rw [h] at hreported
    exact Or.inl (List.append_eq_nil_iff.mp hreported).left
  · rw [h] at hreported
    rcases List.append_eq_singleton_iff.mp hreported with ⟨h, -⟩ | ⟨h, -⟩
    · exact Or.inl h
    · exact Or.inr h

/-- A message whose data hold a period. -/
theorem reported_of_put_period :
    exists sender',
      Asc.putMessage '0'.toUInt8 '0'.toUInt8 's'.toUInt8
          (fun _ => periodByte) 2 Asc.init = .ok () sender' ∧
        forall receiver : Receiver,
          receiver.asc.ignoreCRCMismatch = false ->
          receiver.asc.inBuf.contents = sender'.outBuf.contents ->
          forall k,
            ((StreamState.start receiver).poll k).reported = [] ∨
              ((StreamState.start receiver).poll k).reported =
                [Asc.messageOf '0'.toUInt8 '0'.toUInt8 's'.toUInt8
                  (fun _ => periodByte) 2] :=
  reported_of_put rfl (by decide) (by decide) (by decide) rfl

/-- What a receiver reports first of bytes that start with a message. -/
theorem reported_of_holding {l : List UInt8} {m : Message}
    (hlen : l.length <= maxMessageLen) (h : (decode l).1 = .message m) :
    ((StreamState.start (Receiver.holding l)).poll 1).reported = [m] := by
  rcases getMessage_step (r := Receiver.holding l) rfl with
    ⟨b, received, -, -, hreported⟩
  have hpoll : ((StreamState.start (Receiver.holding l)).poll 1).reported =
      reportedBy (Receiver.getMessage (Receiver.holding l)) := by
    rw [StreamState.poll_succ]
    rfl
  rw [hpoll, hreported, Receiver.holding_contents l hlen, h]
  rfl

/-- Data that look like the front of a write request. -/
def smuggled : Memory UInt8 :=
  Memory.store (fun _ => 0) 0
    [startByte, '0'.toUInt8, '0'.toUInt8, 'w'.toUInt8, 'X'.toUInt8]

/-- A data byte that starts a frame makes the receiver act on the data: a message
with command `s` arrives as one with command `w`. -/
theorem not_reported_of_put_start_byte :
    ¬ forall (ascVersion appVersion command : UInt8) (data : Memory UInt8)
        (dataLen : Nat) (sender sender' : Asc),
      dataLen <= maxDataLen -> sender.outBuf.contents = [] ->
      Asc.putMessage ascVersion appVersion command data dataLen sender =
        .ok () sender' ->
      forall k,
        let reported := ((StreamState.start
          (Receiver.holding sender'.outBuf.contents)).poll k).reported
        reported = [] ∨ reported =
          [Asc.messageOf ascVersion appVersion command data dataLen] := by
  intro h
  generalize hrun : Asc.putMessage '0'.toUInt8 '0'.toUInt8 's'.toUInt8 smuggled
    5 Asc.init = result
  have hemitted : (Result.outcome result).isOk = true ∧
      (decode (Result.state result).outBuf.contents).1 = .message
        { ascVersion := '0'.toUInt8
          appVersion := '0'.toUInt8
          command := 'w'.toUInt8
          data := ['X'.toUInt8] } := by
    rw [← hrun]
    decide +kernel
  cases result with
  | error e sender' => cases hemitted.left
  | ok u sender' =>
      have hcases := h '0'.toUInt8 '0'.toUInt8 's'.toUInt8 smuggled 5 Asc.init
        sender' (by decide) rfl hrun 1
      rw [reported_of_holding sender'.outBuf.length_contents_le
        hemitted.right] at hcases
      revert hcases
      decide

/-- Data that end the frame of their first byte. -/
def endingEarly : Memory UInt8 :=
  let m : Message :=
    { ascVersion := '0'.toUInt8
      appVersion := '0'.toUInt8
      command := 's'.toUInt8
      data := ['A'.toUInt8] }
  Memory.store (fun _ => 0) 0
    (m.data ++ periodByte :: (m.checksum ++ [endByte]))

/-- Without a start byte, a data byte that ends the frame does harm as well: the
data arrive cut off. -/
theorem not_reported_of_put_end_byte :
    ¬ forall (ascVersion appVersion command : UInt8) (data : Memory UInt8)
        (dataLen : Nat) (sender sender' : Asc),
      dataLen <= maxDataLen ->
      startByte ∉
        (Asc.messageOf ascVersion appVersion command data dataLen).fields ->
      sender.outBuf.contents = [] ->
      Asc.putMessage ascVersion appVersion command data dataLen sender =
        .ok () sender' ->
      forall k,
        let reported := ((StreamState.start
          (Receiver.holding sender'.outBuf.contents)).poll k).reported
        reported = [] ∨ reported =
          [Asc.messageOf ascVersion appVersion command data dataLen] := by
  intro h
  generalize hrun : Asc.putMessage '0'.toUInt8 '0'.toUInt8 's'.toUInt8
    endingEarly 7 Asc.init = result
  have hemitted : (Result.outcome result).isOk = true ∧
      (decode (Result.state result).outBuf.contents).1 = .message
        { ascVersion := '0'.toUInt8
          appVersion := '0'.toUInt8
          command := 's'.toUInt8
          data := ['A'.toUInt8] } := by
    rw [← hrun]
    decide +kernel
  cases result with
  | error e sender' => cases hemitted.left
  | ok u sender' =>
      have hcases := h '0'.toUInt8 '0'.toUInt8 's'.toUInt8 endingEarly 7
        Asc.init sender' (by decide) (by decide +kernel) rfl hrun 1
      rw [reported_of_holding sender'.outBuf.length_contents_le
        hemitted.right] at hcases
      revert hcases
      decide +kernel

/-!
## Corrupted frames
-/

/-- One byte of the frame replaced by another one that is no start byte, or two
adjacent bytes of header and data by bytes that are no delimiters. -/
inductive Corrupted (m : Message) : List UInt8 -> Prop
  | byte {front back : List UInt8} {b b' : UInt8}
      (hframe : m.frame = front ++ b :: back) (hne : b' ≠ b)
      (hstart : b' ≠ startByte) : Corrupted m (front ++ b' :: back)
  | pair {front back : List UInt8} {b c b' c' : UInt8}
      (hfields : m.fields = front ++ b :: c :: back)
      (hne : ¬ (b' = b ∧ c' = c)) (hb : ¬ Reserved b') (hc : ¬ Reserved c') :
      Corrupted m
        (startByte :: (front ++ b' :: c' :: back ++
          periodByte :: (m.checksum ++ [endByte])))

/-- A valid frame in a string whose only start byte is its first one begins
there. -/
theorem exists_of_mem_validFrames_cons {g : List UInt8} {m : Message}
    (hstart : startByte ∉ g) (hm : m ∈ validFrames (startByte :: g)) :
    m.Valid ∧ exists rest, g = m.body ++ endByte :: rest := by
  rcases exists_of_mem_frames hm with
    ⟨front, body, rest, hsplit, hstart', hend', hparse⟩
  rcases valid_of_parseBody hstart' hend' hparse with ⟨hvalid, rfl⟩
  cases front with
  | nil => exact ⟨hvalid, rest, (List.cons.inj hsplit).right⟩
  | cons x front =>
      have hg := (List.cons.inj hsplit).right
      exact absurd (by rw [hg]; simp) hstart

/-- Where the first period stands decides what header and data are. -/
theorem fields_eq_of_split {g fields tail rest : List UInt8} {m : Message}
    (hvalid : m.Valid) (hg : g = m.body ++ endByte :: rest)
    (hsplit : g = fields ++ periodByte :: tail) (hperiod : periodByte ∉ fields) :
    fields = m.fields ∧ tail = m.checksum ++ endByte :: rest := by
  have hcut := congrArg (cutAt periodByte) (hsplit.symm.trans hg)
  rw [cutAt_of_split hperiod, Message.body, List.append_assoc,
    List.cons_append, cutAt_of_split hvalid.periodByte_not_mem_fields] at hcut
  injection hcut with hfields htail
  injection htail with htail
  exact ⟨hfields, htail⟩

section Corrupted

variable {m : Message}

/-- Changed bytes in header and data do not fit the checksum. -/
theorem validFrames_of_changed_fields {fields : List UInt8}
    (hstart : startByte ∉ fields) (hperiod : periodByte ∉ fields)
    (hcrc : crc16Dnp (startByte :: (fields ++ [periodByte])) ≠
      crc16Dnp m.region) :
    validFrames (startByte ::
      (fields ++ periodByte :: (m.checksum ++ [endByte]))) = [] := by
  rw [List.eq_nil_iff_forall_not_mem]
  intro m' hm'
  have hg : startByte ∉ fields ++ periodByte :: (m.checksum ++ [endByte]) := by
    simp only [List.mem_append, List.mem_cons, not_or]
    exact ⟨hstart, by decide, m.startByte_not_mem_checksum, by decide, by simp⟩
  rcases exists_of_mem_validFrames_cons hg hm' with ⟨hvalid, rest, hsplit⟩
  rcases fields_eq_of_split hvalid hsplit rfl hperiod with ⟨hfields, htail⟩
  have hchecksum : m.checksum = m'.checksum :=
    (List.append_inj htail (by simp)).left
  apply hcrc
  rw [hfields]
  exact (checksumOf_inj hchecksum).symm

theorem validFrames_of_no_period {g : List UInt8} (hstart : startByte ∉ g)
    (hperiod : periodByte ∉ g) : validFrames (startByte :: g) = [] := by
  rw [List.eq_nil_iff_forall_not_mem]
  intro m' hm'
  rcases exists_of_mem_validFrames_cons hstart hm' with ⟨-, rest, rfl⟩
  simp [Message.body] at hperiod

theorem validFrames_of_no_end {g : List UInt8} (hstart : startByte ∉ g)
    (hend : endByte ∉ g) : validFrames (startByte :: g) = [] := by
  rw [List.eq_nil_iff_forall_not_mem]
  intro m' hm'
  rcases exists_of_mem_validFrames_cons hstart hm' with ⟨-, rest, rfl⟩
  simp at hend

/-- A new end byte within header and data comes before any period. -/
theorem validFrames_of_early_end {front back : List UInt8}
    (hstart : startByte ∉ front ++ endByte :: back)
    (hperiod : periodByte ∉ front) :
    validFrames (startByte :: (front ++ endByte :: back)) = [] := by
  rw [List.eq_nil_iff_forall_not_mem]
  intro m' hm'
  rcases exists_of_mem_validFrames_cons hstart hm' with ⟨hvalid, rest, hsplit⟩
  have hend : endByte ∉ m'.body := hvalid.endByte_not_mem_body
  rcases not_mem_or_split endByte front with hfront | ⟨a, b, rfl, ha⟩
  · have hcut := congrArg (cutAt endByte) hsplit
    rw [cutAt_of_split hfront, cutAt_of_split hend] at hcut
    injection hcut with hbody _
    rw [hbody] at hperiod
    simp [Message.body] at hperiod
  · rw [List.append_assoc, List.cons_append] at hsplit
    have hcut := congrArg (cutAt endByte) hsplit
    rw [cutAt_of_split ha, cutAt_of_split hend] at hcut
    injection hcut with hbody _
    rw [hbody] at hperiod
    simp [Message.body] at hperiod

/-- A new period within header and data leaves too much behind it. -/
theorem validFrames_of_early_period {front back : List UInt8}
    (hstart : startByte ∉ front ++ periodByte :: back)
    (hperiod : periodByte ∉ front) (hlength : back[4]? ≠ some endByte) :
    validFrames (startByte :: (front ++ periodByte :: back)) = [] := by
  rw [List.eq_nil_iff_forall_not_mem]
  intro m' hm'
  rcases exists_of_mem_validFrames_cons hstart hm' with ⟨hvalid, rest, hsplit⟩
  rcases fields_eq_of_split hvalid hsplit rfl hperiod with ⟨-, hback⟩
  apply hlength
  rw [hback, List.getElem?_append_right (Nat.le_of_eq m'.checksum_length),
    m'.checksum_length, Nat.sub_self]
  rfl

theorem validFrames_of_changed_checksum (h : m.Sendable)
    (checksum : List UInt8) (hlen : checksum.length = 4)
    (hstart : startByte ∉ checksum) (hne : checksum ≠ m.checksum) :
    validFrames (startByte ::
      (m.fields ++ periodByte :: (checksum ++ [endByte]))) = [] := by
  rw [List.eq_nil_iff_forall_not_mem]
  intro m' hm'
  have hg : startByte ∉ m.fields ++ periodByte :: (checksum ++ [endByte]) := by
    simp only [List.mem_append, List.mem_cons, not_or]
    exact ⟨h.startByte_not_mem_fields, by decide, hstart, by decide, by simp⟩
  rcases exists_of_mem_validFrames_cons hg hm' with ⟨hvalid, rest, hsplit⟩
  rcases fields_eq_of_split hvalid hsplit rfl h.periodByte_not_mem_fields with
    ⟨hfields, htail⟩
  apply hne
  rw [(List.append_inj htail (by rw [hlen, m'.checksum_length])).left,
    Message.checksum, Message.region, ← hfields]
  rfl

theorem split_cases {x z front back : List UInt8} {y b : UInt8}
    (h : x ++ y :: z = front ++ b :: back) :
    (exists v, x = front ++ b :: v ∧ back = v ++ y :: z) ∨
      (front = x ∧ b = y ∧ back = z) ∨
      exists u, front = x ++ y :: u ∧ z = u ++ b :: back := by
  induction x generalizing front with
  | nil =>
      cases front with
      | nil =>
          injection h with hy hz
          exact Or.inr (Or.inl ⟨rfl, hy.symm, hz.symm⟩)
      | cons c front =>
          injection h with hy hz
          exact Or.inr (Or.inr ⟨front, by rw [hy]; rfl, hz⟩)
  | cons c x ih =>
      cases front with
      | nil =>
          injection h with hc hrest
          exact Or.inl ⟨x, by rw [hc]; rfl, hrest.symm⟩
      | cons d front =>
          injection h with hc hrest
          rcases ih hrest with ⟨v, rfl, hv⟩ | ⟨rfl, hb, hz⟩ | ⟨u, rfl, hz⟩
          · exact Or.inl ⟨v, by rw [hc]; rfl, hv⟩
          · exact Or.inr (Or.inl ⟨by rw [hc], hb, hz⟩)
          · exact Or.inr (Or.inr ⟨u, by rw [hc]; rfl, hz⟩)

theorem validFrames_of_changed_field (h : m.Sendable) {u v : List UInt8}
    {b b' : UInt8} (hfields : m.fields = u ++ b :: v) (hne : b' ≠ b)
    (hstart : b' ≠ startByte) :
    validFrames (startByte :: (u ++ b' :: v ++
      periodByte :: (m.checksum ++ [endByte]))) = [] := by
  have hout (x : UInt8) (hx : x ∉ m.fields) : x ∉ u ∧ x ∉ v := by
    rw [hfields] at hx
    simp only [List.mem_append, List.mem_cons, not_or] at hx
    exact ⟨hx.left, hx.right.right⟩
  rcases hout _ h.startByte_not_mem_fields with ⟨hsu, hsv⟩
  rcases hout _ h.periodByte_not_mem_fields with ⟨hpu, hpv⟩
  rcases hout _ h.endByte_not_mem_fields with ⟨heu, hev⟩
  have hs := m.startByte_not_mem_checksum
  by_cases hend : b' = endByte
  · subst hend
    rw [List.append_assoc, List.cons_append]
    refine validFrames_of_early_end ?_ hpu
    simp only [List.mem_append, List.mem_cons, not_or]
    exact ⟨hsu, by decide, hsv, by decide, hs, by decide, by simp⟩
  · by_cases hdot : b' = periodByte
    · subst hdot
      rw [List.append_assoc, List.cons_append]
      refine validFrames_of_early_period ?_ hpu ?_
      · simp only [List.mem_append, List.mem_cons, not_or]
        exact ⟨hsu, by decide, hsv, by decide, hs, by decide, by simp⟩
      · -- four bytes on, the old period or the checksum still goes on
        rw [show v ++ periodByte :: (m.checksum ++ [endByte]) =
            (v ++ periodByte :: m.checksum) ++ [endByte] by simp,
          List.getElem?_append_left (by simp)]
        intro hget
        have hmem := List.mem_of_getElem? hget
        simp only [List.mem_append, List.mem_cons] at hmem
        rcases hmem with hmem | hmem | hmem
        · exact hev hmem
        · exact absurd hmem (by decide)
        · exact m.endByte_not_mem_checksum hmem
    · refine validFrames_of_changed_fields ?_ ?_ ?_
      · simp only [List.mem_append, List.mem_cons, not_or]
        exact ⟨hsu, Ne.symm hstart, hsv⟩
      · simp only [List.mem_append, List.mem_cons, not_or]
        exact ⟨hpu, Ne.symm hdot, hpv⟩
      · rw [Message.region, hfields]
        have hbyte := crc16Dnp_ne_of_byte (startByte :: u)
          (v ++ [periodByte]) hne
        simpa using hbyte

theorem validFrames_of_changed_pair (h : m.Sendable) {u v : List UInt8}
    {b c b' c' : UInt8} (hfields : m.fields = u ++ b :: c :: v)
    (hne : ¬ (b' = b ∧ c' = c)) (hb : ¬ Reserved b') (hc : ¬ Reserved c') :
    validFrames (startByte :: (u ++ b' :: c' :: v ++
      periodByte :: (m.checksum ++ [endByte]))) = [] := by
  have hout (x : UInt8) (hx : x ∉ m.fields) : x ∉ u ∧ x ∉ v := by
    rw [hfields] at hx
    simp only [List.mem_append, List.mem_cons, not_or] at hx
    exact ⟨hx.left, hx.right.right.right⟩
  have hkeep (x : UInt8) (hx : Reserved x) (hmem : x ∉ m.fields) :
      x ∉ u ++ b' :: c' :: v := by
    simp only [List.mem_append, List.mem_cons, not_or]
    exact ⟨(hout x hmem).left, fun heq => hb (heq ▸ hx),
      fun heq => hc (heq ▸ hx), (hout x hmem).right⟩
  refine validFrames_of_changed_fields
    (hkeep _ (Or.inl rfl) h.startByte_not_mem_fields)
    (hkeep _ (Or.inr (Or.inl rfl)) h.periodByte_not_mem_fields) ?_
  rw [Message.region, hfields]
  have hpair := crc16Dnp_ne_of_pair (startByte :: u) (v ++ [periodByte]) hne
  simpa using hpair

theorem validFrames_of_changed_start (h : m.Sendable) {b' : UInt8}
    (hstart : b' ≠ startByte) :
    validFrames (b' ::
      (m.fields ++ periodByte :: (m.checksum ++ [endByte]))) = [] := by
  apply frames_of_not_mem
  simp only [List.mem_append, List.mem_cons, not_or]
  exact ⟨Ne.symm hstart, h.startByte_not_mem_fields, by decide,
    m.startByte_not_mem_checksum, by decide, by simp⟩

theorem validFrames_of_changed_period (h : m.Sendable) {b' : UInt8}
    (hne : b' ≠ periodByte) (hstart : b' ≠ startByte) :
    validFrames (startByte ::
      (m.fields ++ b' :: (m.checksum ++ [endByte]))) = [] := by
  refine validFrames_of_no_period ?_ ?_
  · simp only [List.mem_append, List.mem_cons, not_or]
    exact ⟨h.startByte_not_mem_fields, Ne.symm hstart,
      m.startByte_not_mem_checksum, by decide, by simp⟩
  · simp only [List.mem_append, List.mem_cons, not_or]
    exact ⟨h.periodByte_not_mem_fields, Ne.symm hne,
      m.periodByte_not_mem_checksum, by decide, by simp⟩

theorem validFrames_of_changed_digit (h : m.Sendable) {u v : List UInt8}
    {b b' : UInt8} (hchecksum : m.checksum = u ++ b :: v) (hne : b' ≠ b)
    (hstart : b' ≠ startByte) :
    validFrames (startByte ::
      (m.fields ++ periodByte :: ((u ++ b' :: v) ++ [endByte]))) = [] := by
  have hlen := m.checksum_length
  have hs := m.startByte_not_mem_checksum
  rw [hchecksum] at hlen hs
  apply validFrames_of_changed_checksum h (u ++ b' :: v) (by simpa using hlen)
  · simp only [List.mem_append, List.mem_cons, not_or] at hs ⊢
    exact ⟨hs.left, Ne.symm hstart, hs.right.right⟩
  · rw [hchecksum]
    intro heq
    exact hne (List.cons.inj (List.append_cancel_left heq)).left

theorem validFrames_of_changed_end (h : m.Sendable) {b' : UInt8}
    (hne : b' ≠ endByte) (hstart : b' ≠ startByte) :
    validFrames (startByte ::
      (m.fields ++ periodByte :: (m.checksum ++ [b']))) = [] := by
  refine validFrames_of_no_end ?_ ?_
  · simp only [List.mem_append, List.mem_cons, not_or]
    exact ⟨h.startByte_not_mem_fields, by decide,
      m.startByte_not_mem_checksum, Ne.symm hstart, by simp⟩
  · simp only [List.mem_append, List.mem_cons, not_or]
    exact ⟨h.endByte_not_mem_fields, by decide, m.endByte_not_mem_checksum,
      Ne.symm hne, by simp⟩

theorem validFrames_of_corrupted (h : m.Sendable) {f : List UInt8}
    (hf : Corrupted m f) : validFrames f = [] := by
  have hframe : m.frame =
      startByte :: (m.fields ++ periodByte :: (m.checksum ++ [endByte])) := by
    simp [Message.frame, Message.body]
  cases hf with
  | @byte front back b b' hsplit hne hstart =>
      rw [hframe] at hsplit
      cases front with
      | nil =>
          injection hsplit with _ hback
          subst hback
          exact validFrames_of_changed_start h hstart
      | cons c front =>
          injection hsplit with hc hrest
          subst hc
          rcases split_cases hrest with
            ⟨v, hfields, rfl⟩ | ⟨rfl, rfl, rfl⟩ | ⟨u, rfl, hz⟩
          · have hfield := validFrames_of_changed_field h hfields hne hstart
            simpa using hfield
          · exact validFrames_of_changed_period h hne hstart
          · rcases split_cases hz with
              ⟨v, hchecksum, rfl⟩ | ⟨rfl, rfl, rfl⟩ | ⟨w, -, hw⟩
            · have hdigit := validFrames_of_changed_digit h hchecksum hne hstart
              simpa using hdigit
            · have hend := validFrames_of_changed_end h hne hstart
              simpa using hend
            · simp at hw
  | pair hfields hne hb hc => exact validFrames_of_changed_pair h hfields hne hb hc

end Corrupted

/-- **Corrupted frames are never delivered.** -/
theorem reported_of_corrupted {ascVersion appVersion command : UInt8}
    {data : Memory UInt8} {dataLen : Nat} {m : Message}
    (hm : Asc.messageOf ascVersion appVersion command data dataLen = m)
    (hsendable : m.Sendable) {sender : Asc}
    (hempty : sender.outBuf.contents = []) :
    exists sender',
      Asc.putMessage ascVersion appVersion command data dataLen sender =
          .ok () sender' ∧
        sender'.outBuf.contents = m.frame ∧
        forall f, Corrupted m f ->
          forall receiver : Receiver,
            receiver.asc.ignoreCRCMismatch = false ->
            receiver.asc.inBuf.contents = [] ->
            forall k,
              ((StreamState.start
                { receiver with
                  asc :=
                    { receiver.asc with
                      inBuf := receiver.asc.inBuf.pushBackBlock f } }).poll
                k).reported = [] := by
  have hlen : dataLen <= maxDataLen :=
    Asc.messageOf_data_length hm ▸ hsendable.length_le
  rcases Asc.putMessage_of_empty hm hempty hlen
    hsendable.startByte_not_mem_fields with ⟨sender', hput, hframe⟩
  refine ⟨sender', hput, hframe, ?_⟩
  intro f hf receiver hcrc hin k
  have hlength : f.length = m.frame.length := by
    cases hf with
    | byte hsplit _ _ => simp [hsplit]
    | pair hfields _ _ _ =>
        have hfieldsLength := congrArg List.length hfields
        simp [Message.frame, Message.body] at hfieldsLength ⊢
        omega
  have hfit : receiver.asc.inBuf.contents.length + f.length <=
      maxMessageLen := by
    rw [hin, List.length_nil, Nat.zero_add, hlength, m.frame_length]
    exact Nat.add_le_add_right hsendable.length_le 10
  have hpush := (RingBuffer.pushBackBlock_of_le hfit).left
  rw [hin, List.nil_append] at hpush
  generalize hreceiver : ({ receiver with
    asc :=
      { receiver.asc with
        inBuf := receiver.asc.inBuf.pushBackBlock f } } : Receiver) = r
  have hcrc' : r.asc.ignoreCRCMismatch = false := by
    rw [← hreceiver]
    exact hcrc
  have hframes := StreamState.poll_frames (StreamState.start_exact hcrc') k
  have hbuffered : (StreamState.start r).buffered = f := by
    rw [← hreceiver]
    exact hpush
  have hnone : (StreamState.start r).reported = [] := rfl
  rw [hbuffered, hnone, List.nil_append,
    validFrames_of_corrupted hsendable hf] at hframes
  exact (List.append_eq_nil_iff.mp hframes).left

/-- The frames that corruption makes of a read request. -/
theorem reported_of_corrupted_read :
    exists sender',
      Asc.putMessage '0'.toUInt8 '0'.toUInt8 'r'.toUInt8
          (fun _ => '0'.toUInt8) 4 Asc.init = .ok () sender' ∧
        sender'.outBuf.contents =
          (Asc.messageOf '0'.toUInt8 '0'.toUInt8 'r'.toUInt8
            (fun _ => '0'.toUInt8) 4).frame ∧
        forall f,
          Corrupted (Asc.messageOf '0'.toUInt8 '0'.toUInt8 'r'.toUInt8
            (fun _ => '0'.toUInt8) 4) f ->
          forall receiver : Receiver,
            receiver.asc.ignoreCRCMismatch = false ->
            receiver.asc.inBuf.contents = [] ->
            forall k,
              ((StreamState.start
                { receiver with
                  asc :=
                    { receiver.asc with
                      inBuf := receiver.asc.inBuf.pushBackBlock f } }).poll
                k).reported = [] :=
  reported_of_corrupted rfl (by decide +kernel) rfl

end AsciiSerialCom
