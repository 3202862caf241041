import AsciiSerialCom.SerialCom.Encode

/-!
# What the receiving function reports

`decode` says in terms of lists what one call of the receiving function makes of
the contents of the input buffer while checksums are checked: what it reports or
throws, and what stays in the buffer.  Rotation and stale bytes play no part.
-/

namespace AsciiSerialCom

open Foundation
open Foundation.StateError
open Foundation.Delimited
open Crc

/-!
## The outcome of one call
-/

/-- What a call comes to. -/
inductive Decoded where
  | message (m : Message)
  | nothing
  | thrown (e : AscException)
  deriving DecidableEq, Repr

/-- The results that report a message, in a data array with the given bytes. -/
def Received.ofMessage (data : Memory UInt8) (m : Message) : Received :=
  { ascVersion := m.ascVersion
    appVersion := m.appVersion
    command := m.command
    data := Memory.store data 0 m.data
    dataLen := m.data.length }

/-- Compare the checksum, once its place in the frame is right. -/
def checkTail (m : Message) (received : List UInt8) : Decoded :=
  if received = m.checksum ∧ m.command ≠ 0 then .message m else .nothing

/-- One call on the contents of the input buffer: the outcome, and what the call
leaves. -/
def decode (l : List UInt8) : Decoded × List UInt8 :=
  match resync startByte endByte l with
  | [] => (.nothing, [])
  | start :: rest =>
      match cutAt endByte rest with
      | (_, none) => (.nothing, start :: rest)
      | (body, some later) =>
          match cutAt periodByte body with
          | (_, none) => (.thrown .invalidFramePeriod, later)
          | (fields, some tail) =>
              if maxDataLen + 3 < fields.length then
                (.thrown .checksumProblem, start :: rest)
              else
                match Message.ofFields fields with
                | none => (.thrown .invalidFramePeriod, start :: rest)
                | some m =>
                    let after := tail ++ endByte :: later
                    if after[nCharChecksum]? = some endByte then
                      (checkTail m (after.take nCharChecksum),
                        after.drop (nCharChecksum + 1))
                    else
                      (.thrown .invalidFrame, after)

/-- The ways a call can go, by the contents after resynchronization. -/
inductive DecodeCase : List UInt8 -> Decoded -> List UInt8 -> Prop
  | empty : DecodeCase [] .nothing []
  | growing {rest : List UInt8} (hend : endByte ∉ rest)
      (hstart : startByte ∉ rest) :
      DecodeCase (startByte :: rest) .nothing (startByte :: rest)
  | noPeriod {body later : List UInt8} (hend : endByte ∉ body)
      (hstart : startByte ∉ body) (hperiod : periodByte ∉ body) :
      DecodeCase (startByte :: (body ++ endByte :: later))
        (.thrown .invalidFramePeriod) later
  | overlong {fields tail later : List UInt8}
      (hend : endByte ∉ fields ++ periodByte :: tail)
      (hstart : startByte ∉ fields ++ periodByte :: tail)
      (hperiod : periodByte ∉ fields)
      (hlong : maxDataLen + 3 < fields.length) :
      DecodeCase
        (startByte :: (fields ++ periodByte :: (tail ++ endByte :: later)))
        (.thrown .checksumProblem)
        (startByte :: (fields ++ periodByte :: (tail ++ endByte :: later)))
  | short {fields tail later : List UInt8}
      (hend : endByte ∉ fields ++ periodByte :: tail)
      (hstart : startByte ∉ fields ++ periodByte :: tail)
      (hperiod : periodByte ∉ fields) (hshort : fields.length < 3) :
      DecodeCase
        (startByte :: (fields ++ periodByte :: (tail ++ endByte :: later)))
        (.thrown .invalidFramePeriod)
        (startByte :: (fields ++ periodByte :: (tail ++ endByte :: later)))
  | wrongLength {m : Message} {tail later : List UInt8}
      (hend : endByte ∉ m.fields ++ periodByte :: tail)
      (hstart : startByte ∉ m.fields ++ periodByte :: tail)
      (hperiod : periodByte ∉ m.fields) (hlong : m.data.length <= maxDataLen)
      (hlength : (tail ++ endByte :: later)[nCharChecksum]? ≠ some endByte) :
      DecodeCase
        (startByte :: (m.fields ++ periodByte :: (tail ++ endByte :: later)))
        (.thrown .invalidFrame) (tail ++ endByte :: later)
  | checked {m : Message} {tail later : List UInt8}
      (hend : endByte ∉ m.fields ++ periodByte :: tail)
      (hstart : startByte ∉ m.fields ++ periodByte :: tail)
      (hperiod : periodByte ∉ m.fields) (hlong : m.data.length <= maxDataLen)
      (hlength : (tail ++ endByte :: later)[nCharChecksum]? = some endByte) :
      DecodeCase
        (startByte :: (m.fields ++ periodByte :: (tail ++ endByte :: later)))
        (checkTail m ((tail ++ endByte :: later).take nCharChecksum))
        ((tail ++ endByte :: later).drop (nCharChecksum + 1))

theorem Message.ofFields_of_short {fields : List UInt8}
    (h : fields.length < 3) : Message.ofFields fields = none := by
  match fields, h with
  | [], _ => rfl
  | [_], _ => rfl
  | [_, _], _ => rfl

theorem Message.exists_eq_fields {fields : List UInt8}
    (h : 3 <= fields.length) : exists m : Message, fields = m.fields := by
  match fields, h with
  | ascVersion :: appVersion :: command :: data, _ =>
      exact
        ⟨{ ascVersion := ascVersion
           appVersion := appVersion
           command := command
           data := data }, rfl⟩

/-- Every call goes one of these ways. -/
theorem decode_cases (l : List UInt8) :
    DecodeCase (resync startByte endByte l) (decode l).1 (decode l).2 := by
  rw [decode]
  rcases resync_cases startByte endByte l with
    hnil | ⟨rest, hrest, hopen⟩
  · rw [hnil]
    exact .empty
  · rw [hrest]
    simp only
    rcases not_mem_or_split endByte rest with hend | ⟨body, later, rfl, hend⟩
    · rw [cutAt_of_not_mem hend] at hopen ⊢
      exact .growing hend hopen
    · rw [cutAt_of_split hend] at hopen ⊢
      simp only at hopen ⊢
      rcases not_mem_or_split periodByte body with
        hperiod | ⟨fields, tail, rfl, hperiod⟩
      · rw [cutAt_of_not_mem hperiod]
        exact .noPeriod hend hopen hperiod
      · rw [cutAt_of_split hperiod]
        simp only [List.append_assoc, List.cons_append]
        by_cases hlong : maxDataLen + 3 < fields.length
        · rw [if_pos hlong]
          exact .overlong hend hopen hperiod hlong
        · rw [if_neg hlong]
          by_cases hshort : fields.length < 3
          · rw [Message.ofFields_of_short hshort]
            exact .short hend hopen hperiod hshort
          · rcases Message.exists_eq_fields (Nat.not_lt.mp hshort) with ⟨m, rfl⟩
            rw [Message.ofFields_eq_some_iff.mpr rfl]
            have hdata : m.data.length <= maxDataLen := by
              rw [m.fields_length] at hlong
              omega
            simp only
            by_cases hlength :
                (tail ++ endByte :: later)[nCharChecksum]? = some endByte
            · rw [if_pos hlength]
              exact .checked hend hopen hperiod hdata hlength
            · rw [if_neg hlength]
              exact .wrongLength hend hopen hperiod hdata hlength

theorem split_of_getElem? {l : List UInt8} {n : Nat} {x : UInt8}
    (h : l[n]? = some x) :
    l = l.take n ++ x :: l.drop (n + 1) ∧ (l.take n).length = n := by
  rcases List.getElem?_eq_some_iff.mp h with ⟨hlt, rfl⟩
  refine ⟨?_, by simp; omega⟩
  rw [← List.drop_eq_getElem_cons hlt, List.take_append_drop]

/-- The end byte that a call finds four bytes behind the period is the end of
the frame, or it belongs to what follows a shorter checksum. -/
theorem tail_cases {tail later : List UInt8} (htail : endByte ∉ tail)
    (hlength : (tail ++ endByte :: later)[nCharChecksum]? = some endByte) :
    (tail.length = nCharChecksum ∧
      (tail ++ endByte :: later).take nCharChecksum = tail ∧
      (tail ++ endByte :: later).drop (nCharChecksum + 1) = later) ∨
    exists a b, later = a ++ endByte :: b ∧
      tail.length + a.length + 1 = nCharChecksum ∧
      endByte ∈ (tail ++ endByte :: later).take nCharChecksum ∧
      (tail ++ endByte :: later).drop (nCharChecksum + 1) = b := by
  rcases Nat.lt_trichotomy tail.length nCharChecksum with hlt | heq | hgt
  · right
    obtain ⟨k, hk⟩ : exists k, nCharChecksum = tail.length + (k + 1) :=
      ⟨nCharChecksum - tail.length - 1, by omega⟩
    rw [hk, List.getElem?_append_right (by omega), Nat.add_sub_cancel_left,
      List.getElem?_cons_succ] at hlength
    rcases split_of_getElem? hlength with ⟨hlater, hlen⟩
    refine ⟨later.take k, later.drop (k + 1), hlater, by omega, ?_, ?_⟩
    · rw [hk, List.take_append, List.take_of_length_le (by omega),
        Nat.add_sub_cancel_left, List.take_succ_cons]
      simp
    · rw [hk, List.drop_append, List.drop_of_length_le (by omega),
        show tail.length + (k + 1) + 1 - tail.length = k + 1 + 1 by omega]
      rfl
  · refine Or.inl ⟨heq, List.take_left' heq, ?_⟩
    rw [List.append_cons]
    exact List.drop_left' (by simp [heq])
  · -- there is no end byte within the frame
    rw [List.getElem?_append_left hgt] at hlength
    exact absurd (List.mem_of_getElem? hlength) htail

theorem ne_checksum_of_endByte_mem {l : List UInt8} {m : Message}
    (h : endByte ∈ l) : l ≠ m.checksum := by
  rintro rfl
  exact m.endByte_not_mem_checksum h

/-- A reported message is valid, and its frame is what the call consumed. -/
theorem valid_of_decode {l : List UInt8} {m : Message}
    (h : (decode l).1 = .message m) :
    m.Valid ∧
      resync startByte endByte l = m.frame ++ (decode l).2 := by
  have hcase := decode_cases l
  rw [h] at hcase
  generalize resync startByte endByte l = l' at hcase ⊢
  generalize (decode l).2 = rest at hcase ⊢
  generalize hd : Decoded.message m = d at hcase
  cases hcase with
  | empty => cases hd
  | growing hend hstart => cases hd
  | noPeriod hend hstart hperiod => cases hd
  | overlong hend hstart hperiod hlong => cases hd
  | short hend hstart hperiod hshort => cases hd
  | wrongLength hend hstart hperiod hlong hlength => cases hd
  | @checked m' tail later hend hstart hperiod hlong hlength =>
      rw [checkTail] at hd
      split at hd
      · rename_i hmatch
        injection hd with hd
        subst hd
        have htail : endByte ∉ tail := fun hmem => hend (by simp [hmem])
        rcases tail_cases htail hlength with
          ⟨-, hchecksum, hdrop⟩ | ⟨a, b, -, -, hmem, -⟩
        · rw [hchecksum] at hmatch
          have hbody : m.fields ++ periodByte :: tail = m.body := by
            rw [hmatch.left]
            rfl
          have hparse : parseBody m.body = some m :=
            parseBody_eq_some_iff.mpr ⟨rfl, hperiod, hmatch.right, hlong⟩
          rw [hbody] at hend hstart
          refine ⟨(valid_of_parseBody hstart hend hparse).left, ?_⟩
          rw [hdrop, hmatch.left]
          simp [Message.frame, Message.body]
        · exact absurd hmatch.left (ne_checksum_of_endByte_mem hmem)
      · cases hd

theorem decode_frame {m : Message} (h : m.Valid) (rest : List UInt8) :
    decode (m.frame ++ rest) = (.message m, rest) := by
  have hframe : m.frame ++ rest = startByte :: (m.body ++ endByte :: rest) := by
    simp [Message.frame]
  have hcut : cutAt endByte (m.body ++ endByte :: rest) = (m.body, some rest) :=
    cutAt_of_split h.endByte_not_mem_body
  have hopen : startByte ∉ (cutAt endByte (m.body ++ endByte :: rest)).1 := by
    rw [hcut]
    exact h.startByte_not_mem_body
  have hlong := h.length_le
  have hlen : m.checksum.length = nCharChecksum := m.checksum_length
  have hafter : (m.checksum ++ endByte :: rest)[nCharChecksum]? =
      some endByte := by
    rw [List.getElem?_append_right (Nat.le_of_eq hlen), hlen, Nat.sub_self]
    rfl
  rw [decode, hframe, resync_of_open hopen]
  simp only
  rw [hcut]
  simp only
  rw [h.cutAt_body]
  simp only
  rw [if_neg (by rw [m.fields_length]; omega),
    Message.ofFields_eq_some_iff.mpr rfl]
  simp only
  rw [if_pos hafter, List.take_left' hlen, checkTail,
    if_pos ⟨rfl, h.command_ne⟩, List.append_cons,
    List.drop_left' (by simp [nCharChecksum])]

theorem decode_of_unfinished {m : Message} (h : m.Sendable)
    {front back : List UInt8} (hsplit : front ++ back = m.frame)
    (hback : back ≠ []) : decode front = (.nothing, front) := by
  cases front with
  | nil => rfl
  | cons x rest =>
      rcases List.eq_nil_or_concat back with hnil | ⟨init, last, rfl⟩
      · exact absurd hnil hback
      rw [List.concat_eq_append, ← List.append_assoc, List.cons_append,
        List.cons_append, Message.frame, List.cons.injEq] at hsplit
      rcases hsplit with ⟨hx, hrest⟩
      -- what has come of the body holds neither a start nor an end
      have hbody : rest ++ init = m.body := List.append_inj_left' hrest rfl
      have hsub (b : UInt8) (hb : b ∈ rest) : b ∈ m.body := by
        rw [← hbody]
        exact List.mem_append_left _ hb
      have hcut : cutAt endByte rest = (rest, none) :=
        cutAt_of_not_mem fun hmem => h.endByte_not_mem_body (hsub _ hmem)
      have hopen : startByte ∉ (cutAt endByte rest).1 := by
        rw [hcut]
        exact fun hmem => h.startByte_not_mem_body (hsub _ hmem)
      rw [decode, hx, resync_of_open hopen]
      simp only
      rw [hcut]

/-!
## The checksum of the first frame
-/

section Checksum

variable {buf : RingBuffer maxMessageLen} {fields rest : List UInt8}

/-- The searches of the checksum computation on an input buffer that starts a
frame. -/
theorem checksumBlocks_in
    (hc : buf.contents = startByte :: (fields ++ periodByte :: rest))
    (hperiod : periodByte ∉ fields) :
    checksumBlocks false buf =
      if maxDataLen + 3 < fields.length then
        .error (.exception .checksumProblem)
      else if fields.length < 3 then
        .error (.exception .invalidFramePeriod)
      else
        buf.raw.getBlocks 0 (fields.length + 2) := by
  have hmax : maxMessageLen - nCharChecksum - 1 = maxDataLen + 5 := rfl
  have hsize : buf.getSize = fields.length + rest.length + 2 := by
    rw [← buf.length_contents, hc]
    simp
    omega
  have hfirstStart : buf.findFirst startByte = .ok 0 :=
    RingBuffer.findFirst_of_split (a := []) hc (by simp)
  have hfirstStop : buf.findFirst periodByte = .ok (fields.length + 1) := by
    have hsplit : buf.contents =
        (startByte :: fields) ++ periodByte :: rest := hc
    rw [RingBuffer.findFirst_of_split hsplit (by simp [hperiod]; decide)]
    rfl
  -- the last occurrences are looked up first, but not used
  have hlast (v : UInt8) : exists i, buf.findLast v = .ok i := by
    rcases not_mem_or_split_last v buf.contents with h | ⟨a, b, h, hb⟩
    · exact ⟨_, RingBuffer.findLast_of_not_mem h⟩
    · exact ⟨_, RingBuffer.findLast_of_split h hb⟩
  rcases hlast startByte with ⟨iLastStart, hlastStart⟩
  rcases hlast periodByte with ⟨iLastStop, hlastStop⟩
  rw [checksumBlocks, hlastStart, hlastStop, hfirstStart, hfirstStop, hsize,
    hmax]
  simp only [bind, Except.bind, Bool.false_eq_true, if_false, pure,
    Except.pure]
  rw [if_neg (by omega), if_neg (by omega)]
  by_cases hlong : maxDataLen + 3 < fields.length
  · rw [if_pos (by omega), if_pos hlong]
  · rw [if_neg (by omega), if_neg hlong]
    by_cases hshort : fields.length < 3
    · rw [if_pos (by omega), if_pos hshort]
    · rw [if_neg (by omega), if_neg hshort]
      rfl

/-- The blocks of an input buffer are read as the region of its first frame. -/
theorem readBlocks_checksumBlocks_in
    (hc : buf.contents = startByte :: (fields ++ periodByte :: rest))
    (hperiod : periodByte ∉ fields) (hlong : fields.length <= maxDataLen + 3)
    (hshort : 3 <= fields.length) :
    exists blocks, checksumBlocks false buf = .ok blocks ∧
      buf.raw.readBlocks blocks =
        .ok (startByte :: (fields ++ [periodByte])) := by
  have hsize : 0 + (fields.length + 2) <= buf.raw.size := by
    have hlen : buf.contents.length = buf.raw.size := buf.length_contents
    rw [← hlen, hc]
    simp
  have hstart := buf.wellFormed.iStart_lt
  rcases CircularBufferUint8.readBlocks_getBlocks buf.wellFormed
    (capacity_le_sizeModulus buf) hsize
    (by omega) with ⟨blocks, hblocks, hread⟩
  have hregion : (buf.raw.contents.drop 0).take (fields.length + 2) =
      startByte :: (fields ++ [periodByte]) := by
    have hraw : buf.raw.contents =
        (startByte :: (fields ++ [periodByte])) ++ rest := by
      have hraw' : buf.raw.contents = _ := hc
      rw [hraw']
      simp
    rw [List.drop_zero, hraw, List.take_left' (by simp)]
  rw [hregion] at hread
  refine ⟨blocks, ?_, hread⟩
  rw [checksumBlocks_in hc hperiod, if_neg (by omega), if_neg (by omega),
    hblocks]

theorem computeChecksum_in
    (hc : buf.contents = startByte :: (fields ++ periodByte :: rest))
    (hperiod : periodByte ∉ fields) (hlong : fields.length <= maxDataLen + 3)
    (hshort : 3 <= fields.length) :
    computeChecksum false buf =
      .ok (checksumOf (startByte :: (fields ++ [periodByte]))) := by
  rcases readBlocks_checksumBlocks_in hc hperiod hlong hshort with
    ⟨blocks, hblocks, hread⟩
  exact computeChecksum_of_readBlocks hblocks hread

end Checksum

namespace Receiver

/-!
## Steps on the input buffer
-/

/-- The receiver with another input buffer and other results. -/
def withIn (r : Receiver) (b : RingBuffer maxMessageLen)
    (received : Received) : Receiver :=
  { asc := { r.asc with inBuf := b }, received := received }

/-- A result that changes the input buffer's contents to `rest` and the
receiver's results to `received`, and nothing else. -/
def Leaves (r : Receiver) (outcome : Except Failure α) (rest : List UInt8)
    (received : Received) (result : EStateM.Result Failure Receiver α) : Prop :=
  exists b : RingBuffer maxMessageLen, b.contents = rest ∧
    Result.outcome result = outcome ∧
    Result.state result = r.withIn b received

variable {r : Receiver}

theorem Leaves.bind {x : ReceiverM α} {f : α -> ReceiverM β} {a : α}
    {mid rest : List UInt8} {received received' : Received}
    {outcome : Except Failure β}
    (hx : Leaves r (.ok a) mid received (x r))
    (hf : forall b : RingBuffer maxMessageLen, b.contents = mid ->
      Leaves r outcome rest received' (f a (r.withIn b received))) :
    Leaves r outcome rest received' ((x >>= f) r) := by
  rcases hx with ⟨b, hb, hok, hstate⟩
  cases hrun : x r with
  | ok a' r' =>
      rw [hrun] at hok hstate
      injection hok with ha
      rw [Result.state_ok] at hstate
      rw [bind_of_ok hrun, ha, hstate]
      exact hf b hb
  | error e r' =>
      rw [hrun] at hok
      cases hok

theorem Leaves.bind_error {x : ReceiverM α} {f : α -> ReceiverM β}
    {e : Failure} {rest : List UInt8} {received : Received}
    (hx : Leaves r (.error e) rest received (x r)) :
    Leaves r (.error e) rest received ((x >>= f) r) := by
  rcases hx with ⟨b, hb, herr, hstate⟩
  cases hrun : x r with
  | ok a' r' =>
      rw [hrun] at herr
      cases herr
  | error e' r' =>
      rw [hrun] at herr hstate
      injection herr with he
      rw [Result.state_error] at hstate
      rw [bind_of_error hrun, he, hstate]
      exact ⟨b, hb, rfl, rfl⟩

theorem Leaves.eq_ok {x : ReceiverM α} {a : α} {rest : List UInt8}
    {received : Received} (h : Leaves r (.ok a) rest received (x r)) :
    exists b : RingBuffer maxMessageLen, b.contents = rest ∧
      x r = .ok a (r.withIn b received) := by
  rcases h with ⟨b, hb, hok, hstate⟩
  cases hrun : x r with
  | ok a' r' =>
      rw [hrun] at hok hstate
      injection hok with ha
      rw [Result.state_ok] at hstate
      exact ⟨b, hb, by rw [ha, hstate]⟩
  | error e r' =>
      rw [hrun] at hok
      cases hok

theorem Leaves.eq_error {x : ReceiverM α} {e : Failure} {rest : List UInt8}
    {received : Received} (h : Leaves r (.error e) rest received (x r)) :
    exists b : RingBuffer maxMessageLen, b.contents = rest ∧
      x r = .error e (r.withIn b received) := by
  rcases h with ⟨b, hb, herr, hstate⟩
  cases hrun : x r with
  | ok a' r' =>
      rw [hrun] at herr
      cases herr
  | error e' r' =>
      rw [hrun] at herr hstate
      injection herr with he
      rw [Result.state_error] at hstate
      exact ⟨b, hb, by rw [he, hstate]⟩

theorem leaves_pure (a : α) :
    Leaves r (.ok a) r.asc.inBuf.contents r.received
      ((pure a : ReceiverM α) r) := ⟨_, rfl, rfl, rfl⟩

theorem leaves_raise (e : AscException) :
    Leaves r (.error (.exception e)) r.asc.inBuf.contents r.received
      ((raise e : ReceiverM α) r) := ⟨_, rfl, rfl, rfl⟩

theorem leaves_modifyReceived (f : Received -> Received) :
    Leaves r (.ok ()) r.asc.inBuf.contents (f r.received)
      (modifyReceived f r) := ⟨_, rfl, rfl, rfl⟩

theorem leaves_reportNone :
    Leaves r (.ok ()) r.asc.inBuf.contents
      { r.received with command := 0, dataLen := 0 } (reportNone r) :=
  leaves_modifyReceived _

theorem readIn_of_ok {f : RingBuffer maxMessageLen -> Except Failure α} {a : α}
    (h : f r.asc.inBuf = .ok a) : readIn f r = .ok a r :=
  observe_of_ok h

theorem readIn_of_error {f : RingBuffer maxMessageLen -> Except Failure α}
    {e : Failure} (h : f r.asc.inBuf = .error e) :
    readIn f r = .error e r :=
  observe_of_error h

theorem leaves_onInBuf {x : EStateM Failure (RingBuffer maxMessageLen) α}
    {a : α} {b : RingBuffer maxMessageLen} (h : x r.asc.inBuf = .ok a b) :
    Leaves r (.ok a) b.contents r.received (onInBuf x r) := by
  have hrun : onInBuf x r = .ok a (r.withIn b r.received) := zoom_of_ok h
  rw [hrun]
  exact ⟨b, rfl, rfl, rfl⟩

theorem leaves_popIn {c : UInt8} {rest : List UInt8}
    (h : r.asc.inBuf.contents = c :: rest) :
    Leaves r (.ok c) rest r.received (popIn r) := by
  rcases RingBuffer.popFront_of_cons h with ⟨b, hrun, hb⟩
  rw [← hb]
  exact leaves_onInBuf hrun

theorem leaves_popChecksum (checksum rest : List UInt8)
    (h : r.asc.inBuf.contents = checksum ++ rest) :
    Leaves r (.ok checksum) rest r.received
      (popChecksum checksum.length r) := by
  induction checksum generalizing r with
  | nil =>
      have hpure := leaves_pure (r := r) ([] : List UInt8)
      rwa [h] at hpure
  | cons c checksum ih =>
      refine (leaves_popIn h).bind fun b hb => ?_
      refine Leaves.bind (r := r.withIn b r.received)
        (ih hb) fun b' hb' => ?_
      exact ⟨b', hb', rfl, rfl⟩

/-- The loop that fills `data` copies every byte in front of the period. -/
theorem leaves_popData_append (data : List UInt8) {rest rest' : List UInt8}
    (remaining iData : Nat) {outcome : Except Failure Unit}
    {received : Received} (h : r.asc.inBuf.contents = data ++ rest)
    (hperiod : periodByte ∉ data)
    (hrest : forall b : RingBuffer maxMessageLen, b.contents = rest ->
      Leaves r outcome rest' received
        (popData remaining (iData + data.length)
          (r.withIn b
            { r.received with
              data := Memory.store r.received.data iData data
              dataLen := r.received.dataLen + data.length }))) :
    Leaves r outcome rest' received
      (popData (data.length + remaining) iData r) := by
  induction data generalizing r iData with
  | nil =>
      have hdone := hrest r.asc.inBuf h
      rw [Memory.store_nil] at hdone
      rw [List.length_nil, Nat.zero_add]
      exact hdone
  | cons c data ih =>
      have hc : c ≠ periodByte := fun heq => hperiod (by simp [heq])
      have hdata : periodByte ∉ data :=
        fun hmem => hperiod (List.mem_cons_of_mem _ hmem)
      rw [List.length_cons, Nat.add_right_comm, popData]
      refine (leaves_popIn h).bind fun b hb => ?_
      rw [if_neg hc]
      refine Leaves.bind (r := r.withIn b r.received)
        (leaves_modifyReceived _) fun b' hb' => ?_
      refine ih (r := (r.withIn b r.received).withIn b'
        { r.received with
          data := Memory.store r.received.data iData [c]
          dataLen := r.received.dataLen + 1 }) (iData + 1)
        (hb'.trans hb) hdata fun b'' hb'' => ?_
      have hdone := hrest b'' hb''
      rw [Memory.store_cons, List.length_cons, Nat.add_comm data.length 1,
        ← Nat.add_assoc, ← Nat.add_assoc] at hdone
      exact hdone

theorem leaves_popData (data rest : List UInt8) (iData : Nat)
    (h : r.asc.inBuf.contents = data ++ rest) (hperiod : periodByte ∉ data) :
    Leaves r (.ok ()) rest
      { r.received with
        data := Memory.store r.received.data iData data
        dataLen := r.received.dataLen + data.length }
      (popData data.length iData r) :=
  leaves_popData_append data 0 iData h hperiod fun b hb => ⟨b, hb, rfl, rfl⟩

/-!
## Taking a frame apart
-/

theorem sizeSub_four {n : Nat} (h : n < 2 ^ 63) : sizeSub (n + 4) 4 = n := by
  rw [sizeSub, sizeModulus]
  omega

theorem leaves_popTail_of_end (ignoreCRCMismatch : Bool)
    {computed after : List UInt8} (hc : r.asc.inBuf.contents = after)
    (hend : after[nCharChecksum]? = some endByte) :
    Leaves r (.ok ()) (after.drop (nCharChecksum + 1))
      (if ¬ ignoreCRCMismatch ∧ after.take nCharChecksum ≠ computed then
        { r.received with command := 0, dataLen := 0 }
      else
        r.received)
      (popTail ignoreCRCMismatch computed r) := by
  rcases split_of_getElem? hend with ⟨hsplit, hlen⟩
  generalize hchk : after.take nCharChecksum = checksum at hsplit hlen ⊢
  generalize hmore : after.drop (nCharChecksum + 1) = more at hsplit ⊢
  subst hsplit
  have hsize : ¬ r.asc.inBuf.getSize < nCharChecksum + 1 := by
    rw [← RingBuffer.length_contents, hc, List.length_append, List.length_cons]
    omega
  have hlast : r.asc.inBuf.getElement nCharChecksum = .ok endByte := by
    rw [← hlen]
    exact RingBuffer.getElement_of_split hc
  have hwrong : wrongLength r = .ok false r := by
    rw [wrongLength, bind_of_ok (get_apply r), if_neg hsize,
      bind_of_ok (readIn_of_ok hlast)]
    rfl
  rw [popTail, bind_of_ok hwrong]
  simp only [Bool.false_eq_true, if_false]
  rw [← hlen]
  refine (leaves_popChecksum checksum (endByte :: more) hc).bind fun b hb => ?_
  split
  · exact Leaves.bind (r := r.withIn b r.received) (leaves_popIn hb)
      fun b' hb' => ⟨b', hb', rfl, rfl⟩
  · exact Leaves.bind (r := r.withIn b r.received) (leaves_popIn hb)
      fun b' hb' => ⟨b', hb', rfl, rfl⟩

theorem leaves_popTail_of_no_end (ignoreCRCMismatch : Bool)
    {computed after : List UInt8} (hc : r.asc.inBuf.contents = after)
    (hend : after[nCharChecksum]? ≠ some endByte) :
    Leaves r (.error (.exception .invalidFrame)) after r.received
      (popTail ignoreCRCMismatch computed r) := by
  have hwrong : wrongLength r = .ok true r := by
    rw [wrongLength, bind_of_ok (get_apply r)]
    by_cases hsize : r.asc.inBuf.getSize < nCharChecksum + 1
    · rw [if_pos hsize]
      rfl
    · have hlt : nCharChecksum < after.length := by
        rw [← RingBuffer.length_contents, hc] at hsize
        omega
      have hlast : r.asc.inBuf.getElement nCharChecksum =
          .ok after[nCharChecksum] := by
        apply CircularBufferUint8.getElement_of_getElem? r.asc.inBuf.wellFormed
        rw [← List.getElem?_eq_getElem hlt, ← hc]
        rfl
      have hne : after[nCharChecksum] ≠ endByte := by
        intro heq
        exact hend (by rw [List.getElem?_eq_getElem hlt, heq])
      rw [if_neg hsize, bind_of_ok (readIn_of_ok hlast)]
      simp [hne]
  rw [popTail, bind_of_ok hwrong]
  simp only [if_true]
  rw [← hc]
  exact leaves_raise .invalidFrame

/-- The header comes off, whatever the start byte and the header are. -/
theorem popFrame_of_header (ignoreCRCMismatch : Bool) (iPeriod : Nat)
    (computed : List UInt8) {start ascVersion appVersion command : UInt8}
    {after : List UInt8}
    (hc : r.asc.inBuf.contents =
      start :: ascVersion :: appVersion :: command :: after) :
    exists b : RingBuffer maxMessageLen, b.contents = after ∧
      popFrame ignoreCRCMismatch iPeriod computed r =
        (do
          popData (sizeSub iPeriod 4) 0
          let _ ← popIn
          popTail ignoreCRCMismatch computed : ReceiverM Unit)
          (r.withIn b
            { r.received with
              ascVersion := ascVersion
              appVersion := appVersion
              command := command
              dataLen := 0 }) := by
  rcases (leaves_popIn hc).eq_ok with ⟨b1, h1, hrun1⟩
  rcases (leaves_popIn (r := r.withIn b1 r.received) h1).eq_ok with
    ⟨b2, h2, hrun2⟩
  rcases (leaves_popIn (r := r.withIn b2
    { r.received with ascVersion := ascVersion }) h2).eq_ok with
    ⟨b3, h3, hrun3⟩
  rcases (leaves_popIn (r := r.withIn b3
    { r.received with
      ascVersion := ascVersion
      appVersion := appVersion }) h3).eq_ok with
    ⟨b4, h4, hrun4⟩
  refine ⟨b4, h4, ?_⟩
  rw [popFrame]
  refine (bind_of_ok hrun1).trans ?_
  refine (bind_of_ok hrun2).trans ?_
  refine (bind_of_ok (modify_apply _ _)).trans ?_
  refine (bind_of_ok hrun3).trans ?_
  refine (bind_of_ok (modify_apply _ _)).trans ?_
  refine (bind_of_ok hrun4).trans ?_
  exact bind_of_ok (modify_apply _ _)

/-- Header, data and period come off; the rest depends on what follows. -/
theorem leaves_popFrame (ignoreCRCMismatch : Bool) {m : Message}
    {computed after rest : List UInt8} {outcome : Except Failure Unit}
    {received : Received}
    (hc : r.asc.inBuf.contents =
      startByte :: (m.fields ++ periodByte :: after))
    (hperiod : periodByte ∉ m.data)
    (htail : forall b : RingBuffer maxMessageLen, b.contents = after ->
      Leaves r outcome rest received
        (popTail ignoreCRCMismatch computed
          (r.withIn b (Received.ofMessage r.received.data m)))) :
    Leaves r outcome rest received
      (popFrame ignoreCRCMismatch (m.data.length + 4) computed r) := by
  have hlen : m.data.length <= maxMessageLen := by
    have hsize := congrArg List.length hc
    have hle := r.asc.inBuf.getSize_le
    rw [RingBuffer.length_contents, List.length_cons, List.length_append,
      m.fields_length] at hsize
    omega
  have hsub : sizeSub (m.data.length + 4) 4 = m.data.length :=
    sizeSub_four (Nat.lt_of_le_of_lt hlen (by decide))
  rcases popFrame_of_header ignoreCRCMismatch (m.data.length + 4) computed hc
    with ⟨b, hb, hrun⟩
  rw [hrun, hsub]
  refine Leaves.bind (r := r.withIn b _)
    (leaves_popData m.data (periodByte :: after) 0 hb hperiod)
    fun b8 h8 => ?_
  refine Leaves.bind (r := r.withIn b8 _) (leaves_popIn h8) fun b9 h9 => ?_
  have hdone := htail b9 h9
  simp only [withIn, Received.ofMessage, Nat.zero_add] at hdone ⊢
  exact hdone

/-!
## The whole call
-/

/-- The receiver after a call with a given outcome. -/
def Answers (x : ReceiverM Unit) (r r' : Receiver) : Decoded -> Prop
  | .message m =>
      x r = .ok () r' ∧ r'.received = Received.ofMessage r.received.data m
  | .nothing => x r = .ok () r' ∧ r'.received.command = 0
  | .thrown e => x r = .error (.exception e) r'

/-- A call that is answered in some way, and leaves `rest`. -/
def AnswersWith (x : ReceiverM Unit) (r : Receiver) (d : Decoded)
    (rest : List UInt8) : Prop :=
  exists (b : RingBuffer maxMessageLen) (received : Received),
    b.contents = rest ∧ Answers x r (r.withIn b received) d

theorem answersWith_of_error {x : ReceiverM Unit} {e : AscException}
    {rest : List UInt8} (received : Received)
    (h : Leaves r (.error (.exception e)) rest received (x r)) :
    AnswersWith x r (.thrown e) rest := by
  rcases h.eq_error with ⟨b, hb, hrun⟩
  exact ⟨b, received, hb, hrun⟩

theorem answersWith_of_none {x : ReceiverM Unit} {rest : List UInt8}
    (received : Received) (h : Leaves r (.ok ()) rest received (x r))
    (hcommand : received.command = 0) : AnswersWith x r .nothing rest := by
  rcases h.eq_ok with ⟨b, hb, hrun⟩
  exact ⟨b, received, hb, hrun, hcommand⟩

section Frame

variable {fields tail later : List UInt8}

/-- The searches of the call when the first frame has a period. -/
theorem getFrame_eq_popFrame {outcome : Except Failure (List UInt8)}
    (hc : r.asc.inBuf.contents =
      startByte :: (fields ++ periodByte :: (tail ++ endByte :: later)))
    (hend : endByte ∉ fields ++ periodByte :: tail)
    (hperiod : periodByte ∉ fields)
    (hchecksum : (if r.asc.ignoreCRCMismatch then .ok []
      else computeChecksum false r.asc.inBuf) = outcome) :
    getFrame r =
      match outcome with
      | .ok computed =>
          popFrame r.asc.ignoreCRCMismatch (fields.length + 1) computed r
      | .error e => .error e r := by
  have hsplit : r.asc.inBuf.contents =
      (startByte :: (fields ++ periodByte :: tail)) ++ endByte :: later := by
    rw [hc]
    simp
  have hiEnd : r.asc.inBuf.findFirst endByte =
      .ok (fields.length + tail.length + 2) := by
    rw [RingBuffer.findFirst_of_split hsplit (by
      rw [List.mem_cons, not_or]
      exact ⟨endByte_ne_startByte, hend⟩)]
    simp
    omega
  have hiPeriod : r.asc.inBuf.findFirst periodByte = .ok (fields.length + 1) := by
    have hsplit : r.asc.inBuf.contents =
        (startByte :: fields) ++ periodByte :: (tail ++ endByte :: later) := hc
    rw [RingBuffer.findFirst_of_split hsplit (by simp [hperiod]; decide)]
    rfl
  have hsize : r.asc.inBuf.getSize =
      fields.length + tail.length + later.length + 3 := by
    rw [← RingBuffer.length_contents, hc]
    simp
    omega
  rw [getFrame, bind_of_ok (get_apply r), hsize,
    bind_of_ok (readIn_of_ok hiEnd), if_neg (by omega),
    bind_of_ok (readIn_of_ok hiPeriod), if_neg (by omega),
    bind_of_ok (get_apply r)]
  have hcomputed : computedChecksum r.asc.ignoreCRCMismatch r =
      readIn (fun _ => outcome) r := by
    rw [computedChecksum, ← hchecksum]
    cases r.asc.ignoreCRCMismatch <;> rfl
  cases outcome with
  | ok computed =>
      rw [bind_of_ok (hcomputed.trans (readIn_of_ok rfl))]
  | error e =>
      rw [bind_of_error (hcomputed.trans (readIn_of_error rfl))]

theorem leaves_getFrame_of_growing {rest : List UInt8}
    (hc : r.asc.inBuf.contents = rest) (hend : endByte ∉ rest) :
    Leaves r (.ok ()) rest { r.received with command := 0, dataLen := 0 }
      (getFrame r) := by
  have hiEnd : r.asc.inBuf.findFirst endByte = .ok r.asc.inBuf.getSize :=
    RingBuffer.findFirst_of_not_mem (hc ▸ hend)
  rw [getFrame, bind_of_ok (get_apply r), bind_of_ok (readIn_of_ok hiEnd),
    if_pos (Nat.le_refl _), ← hc]
  exact leaves_reportNone

theorem leaves_getFrame_of_noPeriod {body : List UInt8}
    (hc : r.asc.inBuf.contents = startByte :: (body ++ endByte :: later))
    (hend : endByte ∉ body) (hperiod : periodByte ∉ body) :
    Leaves r (.error (.exception .invalidFramePeriod)) later r.received
      (getFrame r) := by
  have hsplit : r.asc.inBuf.contents =
      (startByte :: body) ++ endByte :: later := hc
  have hsize : r.asc.inBuf.getSize = body.length + later.length + 2 := by
    rw [← RingBuffer.length_contents, hc]
    simp
    omega
  have hiEnd : r.asc.inBuf.findFirst endByte = .ok (body.length + 1) := by
    rw [RingBuffer.findFirst_of_split hsplit (by
      rw [List.mem_cons, not_or]
      exact ⟨endByte_ne_startByte, hend⟩)]
    rfl
  have hiPeriod : exists i, r.asc.inBuf.findFirst periodByte = .ok i ∧
      body.length + 1 < i := by
    rcases not_mem_or_split periodByte later with hnot | ⟨a, b, rfl, ha⟩
    · refine ⟨_, RingBuffer.findFirst_of_not_mem ?_, by omega⟩
      rw [hc]
      simp only [List.mem_cons, List.mem_append, not_or]
      exact ⟨by decide, hperiod, by decide, hnot⟩
    · refine ⟨(startByte :: (body ++ endByte :: a)).length,
        RingBuffer.findFirst_of_split (b := b) ?_ ?_, by simp⟩
      · rw [hc]
        simp
      · simp only [List.mem_cons, List.mem_append, not_or]
        exact ⟨by decide, hperiod, by decide, ha⟩
  rcases hiPeriod with ⟨iPeriod, hiPeriod, hlt⟩
  rcases RingBuffer.popFrontN_of_le (r := r.asc.inBuf) (k := body.length + 1 + 1)
    (by rw [RingBuffer.length_contents]; omega) with ⟨b, hpop, hb⟩
  have hrest : r.asc.inBuf.contents.drop (body.length + 1 + 1) = later := by
    rw [hc, List.drop_succ_cons, List.append_cons, List.drop_left' (by simp)]
  rw [hrest] at hb
  rw [getFrame, bind_of_ok (get_apply r), hsize,
    bind_of_ok (readIn_of_ok hiEnd), if_neg (by omega),
    bind_of_ok (readIn_of_ok hiPeriod), if_pos hlt, ← hb]
  refine (leaves_onInBuf hpop).bind fun b' hb' => ?_
  rw [← hb']
  exact leaves_raise (r := r.withIn b' r.received) .invalidFramePeriod

end Frame

theorem getFrame_answers (hcrc : r.asc.ignoreCRCMismatch = false)
    {d : Decoded} {rest : List UInt8}
    (h : DecodeCase r.asc.inBuf.contents d rest) :
    AnswersWith getFrame r d rest := by
  have hcheck {outcome : Except Failure (List UInt8)}
      (h : computeChecksum false r.asc.inBuf = outcome) :
      (if r.asc.ignoreCRCMismatch then .ok []
        else computeChecksum false r.asc.inBuf) = outcome := by
    rw [hcrc]
    exact h
  generalize hc : r.asc.inBuf.contents = l at h
  cases h with
  | empty =>
      exact answersWith_of_none _ (leaves_getFrame_of_growing hc (by simp)) rfl
  | growing hend hstart =>
      refine answersWith_of_none _ (leaves_getFrame_of_growing hc ?_) rfl
      rw [List.mem_cons, not_or]
      exact ⟨endByte_ne_startByte, hend⟩
  | noPeriod hend hstart hperiod =>
      exact answersWith_of_error _
        (leaves_getFrame_of_noPeriod hc hend hperiod)
  | overlong hend hstart hperiod hlong =>
      have hblocks := checksumBlocks_in hc hperiod
      rw [if_pos hlong] at hblocks
      refine ⟨r.asc.inBuf, r.received, hc, ?_⟩
      exact getFrame_eq_popFrame hc hend hperiod
        (hcheck (computeChecksum_of_error hblocks))
  | short hend hstart hperiod hshort =>
      have hblocks := checksumBlocks_in hc hperiod
      rw [if_neg (by omega), if_pos hshort] at hblocks
      refine ⟨r.asc.inBuf, r.received, hc, ?_⟩
      exact getFrame_eq_popFrame hc hend hperiod
        (hcheck (computeChecksum_of_error hblocks))
  | @wrongLength m tail later hend hstart hperiod hlong hlength =>
      have hfields := m.fields_length
      have hchecksum := computeChecksum_in hc hperiod (by omega) (by omega)
      have hdata : periodByte ∉ m.data := mt m.mem_fields_of_mem_data hperiod
      refine answersWith_of_error (Received.ofMessage r.received.data m) ?_
      rw [getFrame_eq_popFrame hc hend hperiod (hcheck hchecksum), hfields]
      exact leaves_popFrame _ hc hdata fun b hb =>
        leaves_popTail_of_no_end _ hb hlength
  | @checked m tail later hend hstart hperiod hlong hlength =>
      have hfields := m.fields_length
      have hchecksum := computeChecksum_in hc hperiod (by omega) (by omega)
      have hdata : periodByte ∉ m.data := mt m.mem_fields_of_mem_data hperiod
      have hrun := getFrame_eq_popFrame hc hend hperiod (hcheck hchecksum)
      simp only [hcrc, hfields] at hrun
      let received := Received.ofMessage r.received.data m
      have hleaves (received' : Received)
          (h : (if ¬ false = true ∧
              (tail ++ endByte :: later).take nCharChecksum ≠ m.checksum
            then { received with command := 0, dataLen := 0 }
            else received) = received') :
          Leaves r (.ok ())
            ((tail ++ endByte :: later).drop (nCharChecksum + 1)) received'
            (getFrame r) := by
        rw [hrun, ← h]
        exact leaves_popFrame _ hc hdata fun b hb =>
          leaves_popTail_of_end (r := r.withIn b received) _ hb hlength
      rw [checkTail]
      by_cases heq : (tail ++ endByte :: later).take nCharChecksum = m.checksum
      · have hmatch := hleaves received (if_neg fun h => h.right heq)
        by_cases hcommand : m.command = 0
        · rw [if_neg (by simp [hcommand])]
          exact answersWith_of_none received hmatch hcommand
        · rw [if_pos ⟨heq, hcommand⟩]
          rcases hmatch.eq_ok with ⟨b, hb, hok⟩
          exact ⟨b, received, hb, hok, rfl⟩
      · rw [if_neg (by simp [heq])]
        exact answersWith_of_none _ (hleaves _ (if_pos ⟨by decide, heq⟩)) rfl

/-- A call on a buffer that is not empty begins with resynchronization, whatever
the results of earlier calls are. -/
theorem getMessage_eq_getFrame (hsize : r.asc.inBuf.getSize ≠ 0) :
    exists b : RingBuffer maxMessageLen,
      b.contents = resync startByte endByte r.asc.inBuf.contents ∧
        forall received, getMessage (r.withIn r.asc.inBuf received) =
          getFrame (r.withIn b received) := by
  rcases RingBuffer.removeFrontUnfinishedFrames_contents endByte_ne_startByte
    r.asc.inBuf with ⟨k, b, hremove, hb⟩
  refine ⟨b, hb, fun received => ?_⟩
  have hlift : onInBuf (RingBuffer.removeFrontUnfinishedFrames startByte
      endByte endByte_ne_startByte) (r.withIn r.asc.inBuf received) =
      .ok k (r.withIn b received) :=
    zoom_of_ok hremove
  have hsize' : (r.withIn r.asc.inBuf received).asc.inBuf.getSize ≠ 0 := hsize
  rw [getMessage, bind_of_ok (get_apply _), if_neg hsize', bind_of_ok hlift]

/-- **One call does what `decode` says**: its outcome, and the contents it
leaves, depend on the contents alone. -/
theorem getMessage_answers (hcrc : r.asc.ignoreCRCMismatch = false) :
    AnswersWith getMessage r (decode r.asc.inBuf.contents).1
      (decode r.asc.inBuf.contents).2 := by
  by_cases hsize : r.asc.inBuf.getSize = 0
  · have hc : r.asc.inBuf.contents = [] := by
      rw [← List.length_eq_zero_iff, RingBuffer.length_contents, hsize]
    rw [hc]
    refine answersWith_of_none
      { r.received with command := 0, dataLen := 0 } ?_ rfl
    rw [getMessage, bind_of_ok (get_apply r), if_pos hsize]
    have hnone := leaves_reportNone (r := r)
    rwa [hc] at hnone
  · rcases getMessage_eq_getFrame hsize with ⟨b, hb, hrun'⟩
    have hrun : getMessage r = getFrame (r.withIn b r.received) :=
      hrun' r.received
    have hcase := decode_cases r.asc.inBuf.contents
    rw [← hb] at hcase
    rcases getFrame_answers (r := r.withIn b r.received) hcrc hcase with
      ⟨b', received, hb', hanswers⟩
    refine ⟨b', received, hb', ?_⟩
    cases hd : (decode r.asc.inBuf.contents).1 with
    | message m =>
        rw [hd] at hanswers
        exact ⟨hrun.trans hanswers.left, hanswers.right⟩
    | nothing =>
        rw [hd] at hanswers
        exact ⟨hrun.trans hanswers.left, hanswers.right⟩
    | thrown e =>
        rw [hd] at hanswers
        exact hrun.trans hanswers

theorem getMessage_of_nothing (hcrc : r.asc.ignoreCRCMismatch = false)
    {rest : List UInt8}
    (hd : decode r.asc.inBuf.contents = (.nothing, rest)) :
    exists (b : RingBuffer maxMessageLen) (received : Received),
      b.contents = rest ∧ received.command = 0 ∧
        getMessage r = .ok () (r.withIn b received) := by
  rcases getMessage_answers hcrc with ⟨b, received, hb, hanswers⟩
  rw [hd] at hb hanswers
  exact ⟨b, received, hb, hanswers.right, hanswers.left⟩

theorem getMessage_of_thrown (hcrc : r.asc.ignoreCRCMismatch = false)
    {e : AscException} {rest : List UInt8}
    (hd : decode r.asc.inBuf.contents = (.thrown e, rest)) :
    exists (b : RingBuffer maxMessageLen) (received : Received),
      b.contents = rest ∧
        getMessage r = .error (.exception e) (r.withIn b received) := by
  rcases getMessage_answers hcrc with ⟨b, received, hb, hanswers⟩
  rw [hd] at hb hanswers
  exact ⟨b, received, hb, hanswers⟩

theorem getMessage_of_message (hcrc : r.asc.ignoreCRCMismatch = false)
    {m : Message} {rest : List UInt8}
    (hd : decode r.asc.inBuf.contents = (.message m, rest)) :
    exists b : RingBuffer maxMessageLen, b.contents = rest ∧
      getMessage r =
        .ok () (r.withIn b (Received.ofMessage r.received.data m)) := by
  rcases getMessage_answers hcrc with ⟨b, received, hb, hanswers⟩
  rw [hd] at hb hanswers
  have hreceived : received = Received.ofMessage r.received.data m :=
    hanswers.right
  exact ⟨b, hb, hreceived ▸ hanswers.left⟩

end Receiver
end AsciiSerialCom
