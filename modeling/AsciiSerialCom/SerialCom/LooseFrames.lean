import AsciiSerialCom.SerialCom.Stream

/-!
# Ignoring checksums

A receiver that ignores checksums takes any four bytes for one.  It reports the
frames of the stream that have a checksum of the right length, if it is called
after every byte: a frame then ends where the input ends, so that nothing behind
it can be taken for a part of it.
-/

namespace AsciiSerialCom

open Foundation
open Foundation.StateError
open Foundation.Delimited

/-!
## Frames with any checksum
-/

/-- Header and data of the body of a frame, whatever its checksum is. -/
def parseLoosely (body : List UInt8) : Option Message :=
  match cutAt periodByte body with
  | (fields, some tail) =>
      (Message.ofFields fields).filter fun m =>
        m.command ≠ 0 ∧ m.data.length <= maxDataLen ∧
          tail.length = nCharChecksum
  | (_, none) => none

/-- The frames of a byte string whose checksum has the right length. -/
def looseFrames (l : List UInt8) : List Message :=
  frames startByte endByte parseLoosely l

theorem parseLoosely_fields {m : Message} {tail : List UInt8}
    (hperiod : periodByte ∉ m.fields) :
    parseLoosely (m.fields ++ periodByte :: tail) =
      if m.command ≠ 0 ∧ m.data.length <= maxDataLen ∧
          tail.length = nCharChecksum then
        some m
      else
        none := by
  rw [parseLoosely, cutAt_of_split hperiod]
  simp only [Message.ofFields_eq_some_iff.mpr rfl, Option.filter_some,
    decide_eq_true_eq]

theorem parseLoosely_of_not_mem {body : List UInt8}
    (hperiod : periodByte ∉ body) : parseLoosely body = none := by
  rw [parseLoosely, cutAt_of_not_mem hperiod]

theorem parseLoosely_eq_some {body : List UInt8} {m : Message}
    (h : parseLoosely body = some m) :
    exists tail, body = m.fields ++ periodByte :: tail ∧
      periodByte ∉ m.fields ∧ m.command ≠ 0 ∧ m.data.length <= maxDataLen ∧
        tail.length = nCharChecksum := by
  rcases not_mem_or_split periodByte body with hperiod | ⟨a, b, rfl, ha⟩
  · rw [parseLoosely_of_not_mem hperiod] at h
    cases h
  · rw [parseLoosely, cutAt_of_split ha] at h
    simp only [Option.filter_eq_some_iff, Message.ofFields_eq_some_iff,
      decide_eq_true_eq] at h
    rcases h with ⟨rfl, hcommand, hlength, htail⟩
    exact ⟨b, rfl, ha, hcommand, hlength, htail⟩

/-- A frame with the right checksum is one with any. -/
theorem parseLoosely_of_parseBody {body : List UInt8} {m : Message}
    (h : parseBody body = some m) : parseLoosely body = some m := by
  rcases parseBody_eq_some_iff.mp h with ⟨rfl, hperiod, hcommand, hlength⟩
  rw [Message.body, parseLoosely_fields hperiod,
    if_pos ⟨hcommand, hlength, m.checksum_length⟩]

theorem validFrames_sublist (l : List UInt8) :
    List.Sublist (validFrames l) (looseFrames l) :=
  frames_sublist (fun _ _ => parseLoosely_of_parseBody) l

theorem length_le_of_parseLoosely {body : List UInt8} {m : Message}
    (h : parseLoosely body = some m) : body.length <= maxDataLen + 8 := by
  rcases parseLoosely_eq_some h with ⟨tail, rfl, -, -, hlength, htail⟩
  have hn : nCharChecksum = 4 := rfl
  rw [List.length_append, m.fields_length, List.length_cons]
  omega

/-- What stands in a frame with any checksum can be sent in one. -/
theorem valid_of_parseLoosely {body : List UInt8} {m : Message}
    (h : parseLoosely body = some m) (hend : endByte ∉ body)
    (hstart : startByte ∉ body) : m.Valid := by
  rcases parseLoosely_eq_some h with
    ⟨tail, rfl, hperiod, hcommand, hlength, -⟩
  refine ⟨⟨?_, hlength⟩, hcommand⟩
  rintro b hb (rfl | rfl | rfl)
  · exact hstart (List.mem_append_left _ hb)
  · exact hperiod hb
  · exact hend (List.mem_append_left _ hb)

/-!
## One call
-/

/-- The period of the first frame stands behind a header, and behind no more
data than there is room for. -/
def PeriodInPlace (kept : List UInt8) : Prop :=
  match cutAt endByte kept with
  | (_, none) => True
  | (front, some _) =>
      match cutAt periodByte front with
      | (_, none) => True
      | (before, some _) =>
          4 <= before.length ∧ before.length <= maxDataLen + 4

instance (kept : List UInt8) : Decidable (PeriodInPlace kept) := by
  unfold PeriodInPlace
  split
  · infer_instance
  · split <;> infer_instance

theorem periodInPlace_iff {fields tail later : List UInt8}
    (hend : endByte ∉ fields ++ periodByte :: tail)
    (hperiod : periodByte ∉ fields) :
    PeriodInPlace
        (startByte :: (fields ++ periodByte :: (tail ++ endByte :: later))) <->
      3 <= fields.length ∧ fields.length <= maxDataLen + 3 := by
  have hfront : endByte ∉ (startByte :: fields) ++ periodByte :: tail := by
    rw [List.cons_append, List.mem_cons, not_or]
    exact ⟨endByte_ne_startByte, hend⟩
  have hbefore : periodByte ∉ startByte :: fields := by
    rw [List.mem_cons, not_or]
    exact ⟨by decide, hperiod⟩
  have hsplit : startByte :: (fields ++ periodByte :: (tail ++ endByte :: later))
      = ((startByte :: fields) ++ periodByte :: tail) ++ endByte :: later := by
    simp
  rw [PeriodInPlace, hsplit, cutAt_of_split hfront]
  simp only
  rw [cutAt_of_split hbefore]
  simp only [List.length_cons]
  omega

/-- What a call comes to while checksums are ignored, and what it leaves. -/
def decodeLoosely (l : List UInt8) : Decoded × List UInt8 :=
  match resync startByte endByte l with
  | [] => (.nothing, [])
  | start :: rest =>
      match cutAt endByte rest with
      | (_, none) => (.nothing, start :: rest)
      | (body, some later) =>
          match cutAt periodByte body with
          | (_, none) => (.thrown .invalidFramePeriod, later)
          | (fields, some tail) =>
              match Message.ofFields fields with
              | none => (.thrown .invalidFramePeriod, start :: rest)
              | some m =>
                  let after := tail ++ endByte :: later
                  if after[nCharChecksum]? = some endByte then
                    (if m.command = 0 then .nothing else .message m,
                      after.drop (nCharChecksum + 1))
                  else
                    (.thrown .invalidFrame, after)

/-- The ways a call can go while checksums are ignored, by the contents after
resynchronization. -/
inductive LooseCase : List UInt8 -> Decoded -> List UInt8 -> Prop
  | empty : LooseCase [] .nothing []
  | growing {rest : List UInt8} (hend : endByte ∉ rest)
      (hstart : startByte ∉ rest) :
      LooseCase (startByte :: rest) .nothing (startByte :: rest)
  | noPeriod {body later : List UInt8} (hend : endByte ∉ body)
      (hstart : startByte ∉ body) (hperiod : periodByte ∉ body) :
      LooseCase (startByte :: (body ++ endByte :: later))
        (.thrown .invalidFramePeriod) later
  | wrongLength {m : Message} {tail later : List UInt8}
      (hend : endByte ∉ m.fields ++ periodByte :: tail)
      (hstart : startByte ∉ m.fields ++ periodByte :: tail)
      (hperiod : periodByte ∉ m.fields) (hlong : m.data.length <= maxDataLen)
      (hlength : (tail ++ endByte :: later)[nCharChecksum]? ≠ some endByte) :
      LooseCase
        (startByte :: (m.fields ++ periodByte :: (tail ++ endByte :: later)))
        (.thrown .invalidFrame) (tail ++ endByte :: later)
  | taken {m : Message} {tail later : List UInt8}
      (hend : endByte ∉ m.fields ++ periodByte :: tail)
      (hstart : startByte ∉ m.fields ++ periodByte :: tail)
      (hperiod : periodByte ∉ m.fields) (hlong : m.data.length <= maxDataLen)
      (hlength : (tail ++ endByte :: later)[nCharChecksum]? = some endByte) :
      LooseCase
        (startByte :: (m.fields ++ periodByte :: (tail ++ endByte :: later)))
        (if m.command = 0 then .nothing else .message m)
        ((tail ++ endByte :: later).drop (nCharChecksum + 1))

theorem decodeLoosely_cases {l : List UInt8}
    (hplace : PeriodInPlace (resync startByte endByte l)) :
    LooseCase (resync startByte endByte l) (decodeLoosely l).1
      (decodeLoosely l).2 := by
  rw [decodeLoosely]
  rcases resync_cases startByte endByte l with
    hnil | ⟨rest, hrest, hopen⟩
  · rw [hnil]
    exact .empty
  · rw [hrest] at hplace ⊢
    simp only
    rcases not_mem_or_split endByte rest with hend | ⟨body, later, rfl, hend⟩
    · rw [cutAt_of_not_mem hend] at hopen ⊢
      exact .growing hend hopen
    · rw [cutAt_of_split hend] at hopen ⊢
      simp only at hopen ⊢
      rcases not_mem_or_split periodByte body with
        hperiod | ⟨fields, tail, rfl, hperiod⟩
      · rw [cutAt_of_not_mem hperiod]
        exact .noPeriod hend hopen hperiod
      · rw [cutAt_of_split hperiod]
        simp only [List.append_assoc, List.cons_append] at hplace ⊢
        rcases (periodInPlace_iff hend hperiod).mp hplace with ⟨hshort, hlong⟩
        rcases Message.exists_eq_fields hshort with ⟨m, rfl⟩
        rw [Message.ofFields_eq_some_iff.mpr rfl]
        have hdata : m.data.length <= maxDataLen := by
          rw [m.fields_length] at hlong
          omega
        simp only
        by_cases hlength :
            (tail ++ endByte :: later)[nCharChecksum]? = some endByte
        · rw [if_pos hlength]
          exact .taken hend hopen hperiod hdata hlength
        · rw [if_neg hlength]
          exact .wrongLength hend hopen hperiod hdata hlength

namespace Receiver

variable {r : Receiver}

theorem getFrame_ignoring (hignore : r.asc.ignoreCRCMismatch = true)
    {d : Decoded} {rest : List UInt8}
    (h : LooseCase r.asc.inBuf.contents d rest) :
    AnswersWith getFrame r d rest := by
  have hchecksum : (if r.asc.ignoreCRCMismatch then .ok []
      else computeChecksum false r.asc.inBuf) = .ok [] := by
    rw [if_pos hignore]
  generalize hc : r.asc.inBuf.contents = l at h
  cases h with
  | empty =>
      exact answersWith_of_none _ (leaves_getFrame_of_growing hc (by simp)) rfl
  | growing hend hstart =>
      refine answersWith_of_none _ (leaves_getFrame_of_growing hc ?_) rfl
      rw [List.mem_cons, not_or]
      exact ⟨endByte_ne_startByte, hend⟩
  | noPeriod hend hstart hperiod =>
      exact answersWith_of_error _
        (leaves_getFrame_of_noPeriod hc hend hperiod)
  | @wrongLength m tail later hend hstart hperiod hlong hlength =>
      have hdata : periodByte ∉ m.data := mt m.mem_fields_of_mem_data hperiod
      refine answersWith_of_error (Received.ofMessage r.received.data m) ?_
      rw [getFrame_eq_popFrame hc hend hperiod hchecksum, m.fields_length]
      exact leaves_popFrame _ hc hdata fun b hb =>
        leaves_popTail_of_no_end _ hb hlength
  | @taken m tail later hend hstart hperiod hlong hlength =>
      have hdata : periodByte ∉ m.data := mt m.mem_fields_of_mem_data hperiod
      let received := Received.ofMessage r.received.data m
      have hleaves : Leaves r (.ok ())
          ((tail ++ endByte :: later).drop (nCharChecksum + 1)) received
          (getFrame r) := by
        rw [getFrame_eq_popFrame hc hend hperiod hchecksum, m.fields_length]
        refine leaves_popFrame _ hc hdata fun b hb => ?_
        have htail := @leaves_popTail_of_end (r.withIn b received)
          r.asc.ignoreCRCMismatch [] _ hb hlength
        rwa [if_neg (fun h => h.left hignore)] at htail
      by_cases hcommand : m.command = 0
      · rw [if_pos hcommand]
        exact answersWith_of_none received hleaves hcommand
      · rw [if_neg hcommand]
        rcases hleaves.eq_ok with ⟨b, hb, hok⟩
        exact ⟨b, received, hb, hok, rfl⟩

/-- **One call while checksums are ignored** does what `decodeLoosely` says. -/
theorem getMessage_ignoring (hignore : r.asc.ignoreCRCMismatch = true)
    (hplace : PeriodInPlace (resync startByte endByte r.asc.inBuf.contents)) :
    AnswersWith getMessage r (decodeLoosely r.asc.inBuf.contents).1
      (decodeLoosely r.asc.inBuf.contents).2 := by
  by_cases hsize : r.asc.inBuf.getSize = 0
  · have hc : r.asc.inBuf.contents = [] := by
      rw [← List.length_eq_zero_iff, RingBuffer.length_contents, hsize]
    rw [hc]
    refine answersWith_of_none
      { r.received with command := 0, dataLen := 0 } ?_ rfl
    rw [getMessage, bind_of_ok (get_apply r), if_pos hsize]
    have hnone := leaves_reportNone (r := r)
    rwa [hc] at hnone
  · rcases getMessage_eq_getFrame hsize with ⟨b, hb, hrun'⟩
    have hrun : getMessage r = getFrame (r.withIn b r.received) :=
      hrun' r.received
    have hcase := decodeLoosely_cases hplace
    rw [← hb] at hcase
    rcases getFrame_ignoring (r := r.withIn b r.received) hignore hcase with
      ⟨b', received, hb', hanswers⟩
    refine ⟨b', received, hb', ?_⟩
    cases hd : (decodeLoosely r.asc.inBuf.contents).1 with
    | message m =>
        rw [hd] at hanswers
        exact ⟨hrun.trans hanswers.left, hanswers.right⟩
    | nothing =>
        rw [hd] at hanswers
        exact ⟨hrun.trans hanswers.left, hanswers.right⟩
    | thrown e =>
        rw [hd] at hanswers
        exact hrun.trans hanswers

end Receiver

/-!
## Calls after every byte
-/

/-- What a call leaves behind that has come after every byte: nothing, a frame
that still grows, or the end of one that was refused. -/
inductive Settled : List UInt8 -> Prop
  | empty : Settled []
  | growing {rest : List UInt8} (hend : endByte ∉ rest)
      (hstart : startByte ∉ rest) : Settled (startByte :: rest)
  | refused {tail : List UInt8} (hstart : startByte ∉ tail) :
      Settled (tail ++ [endByte])

/-- The first frame, if it is complete, ends where the input ends. -/
def EndsWithFrame (l : List UInt8) : Prop :=
  forall front later,
    resync startByte endByte l = front ++ endByte :: later -> later = []

theorem later_eq_nil {l front later : List UInt8} {b : UInt8}
    (hl : endByte ∉ l) (h : l ++ [b] = front ++ endByte :: later) :
    later = [] := by
  rcases List.eq_nil_or_concat later with hnil | ⟨init, last, rfl⟩
  · exact hnil
  · rw [List.concat_eq_append, ← List.cons_append, ← List.append_assoc] at h
    have hsplit := List.append_inj_left' h rfl
    exact absurd (by rw [hsplit]; simp) hl

theorem endsWithFrame_of_append {l : List UInt8} (hl : endByte ∉ l)
    (b : UInt8) : EndsWithFrame (l ++ [b]) := by
  intro front later hkept
  rcases resync_suffix startByte endByte (l ++ [b]) with ⟨lost, hlost⟩
  rw [hkept, ← List.append_assoc] at hlost
  exact later_eq_nil hl hlost

namespace Settled

variable {l : List UInt8}

/-- Without a new byte there is no complete frame. -/
theorem endsWithFrame (h : Settled l) : EndsWithFrame l := by
  intro front later hkept
  cases h with
  | empty => simp [resync] at hkept
  | @growing rest hend hstart =>
      have hopen : startByte ∉ (cutAt endByte rest).1 := by
        rw [cutAt_of_not_mem hend]
        exact hstart
      rw [resync_of_open hopen] at hkept
      have hmem : endByte ∈ startByte :: rest := by
        rw [hkept]
        simp
      rcases List.mem_cons.mp hmem with heq | hmem
      · exact absurd heq endByte_ne_startByte
      · exact absurd hmem hend
  | @refused tail hstart =>
      have hjunk : startByte ∉ tail ++ [endByte] := by
        simp [hstart, endByte_ne_startByte.symm]
      have hnil := @resync_append_of_not_mem _ _ startByte endByte _ [] hjunk
      rw [List.append_nil] at hnil
      rw [hnil] at hkept
      simp [resync] at hkept

/-- A byte that comes in, also at the full buffer, completes a frame at the end of
the input or none. -/
theorem endsWithFrame_push (h : Settled l) (b : UInt8) :
    EndsWithFrame (l ++ [b]) ∧ EndsWithFrame (l.tail ++ [b]) := by
  have hjunk {tail : List UInt8} (hstart : startByte ∉ tail) :
      EndsWithFrame (tail ++ [b]) := by
    intro front later hkept
    rw [resync_append_of_not_mem hstart] at hkept
    exact endsWithFrame_of_append (l := []) (by simp) b front later hkept
  cases h with
  | empty =>
      exact ⟨endsWithFrame_of_append (by simp) b,
        endsWithFrame_of_append (by simp) b⟩
  | @growing rest hend hstart =>
      refine ⟨endsWithFrame_of_append ?_ b, endsWithFrame_of_append hend b⟩
      rw [List.mem_cons, not_or]
      exact ⟨endByte_ne_startByte, hend⟩
  | @refused tail hstart =>
      have hnone : startByte ∉ tail ++ [endByte] := by
        simp [hstart, endByte_ne_startByte.symm]
      exact ⟨hjunk hnone, hjunk fun hmem => hnone (List.mem_of_mem_tail hmem)⟩

/-- The front byte of a full buffer is needed by no frame. -/
theorem looseFrames_tail (h : Settled l) (hfull : l.length = maxMessageLen)
    (t : List UInt8) : looseFrames (l.tail ++ t) = looseFrames (l ++ t) := by
  have hmax : maxMessageLen = maxDataLen + 8 + 2 := rfl
  cases h with
  | empty => rfl
  | growing hend hstart =>
      rw [List.length_cons] at hfull
      exact (frames_of_overlong (fun _ _ => length_le_of_parseLoosely) hend
        (by omega)).symm
  | @refused tail hstart =>
      have hnone : startByte ∉ tail ++ [endByte] := by
        simp [hstart, endByte_ne_startByte.symm]
      rw [looseFrames, looseFrames, frames_append_of_not_mem hnone,
        frames_append_of_not_mem fun hmem =>
          hnone (List.mem_of_mem_tail hmem)]

end Settled

/-- **A call after a byte** reports the loose frame that the byte completes, if it
completes one. -/
theorem decodeLoosely_of_endsWithFrame {l : List UInt8} (h : EndsWithFrame l)
    (hplace : PeriodInPlace (resync startByte endByte l)) :
    Settled (decodeLoosely l).2 ∧
      (forall m, (decodeLoosely l).1 = .message m -> m.Valid) ∧
      forall t, looseFrames (l ++ t) =
        (decodeLoosely l).1.reported ++
          looseFrames ((decodeLoosely l).2 ++ t) := by
  have hresync (t : List UInt8) :
      looseFrames (resync startByte endByte l ++ t) = looseFrames (l ++ t) :=
    frames_resync_append l t
  have hcase := decodeLoosely_cases hplace
  simp only [← hresync]
  have hlast := h
  rw [EndsWithFrame] at hlast
  generalize resync startByte endByte l = kept at hcase hlast ⊢
  generalize (decodeLoosely l).1 = d at hcase ⊢
  generalize (decodeLoosely l).2 = rest at hcase ⊢
  cases hcase with
  | empty =>
      exact ⟨.empty, fun m hm => (by cases hm), fun t => rfl⟩
  | growing hend hstart =>
      exact ⟨.growing hend hstart, fun m hm => (by cases hm), fun t => rfl⟩
  | @noPeriod body later hend hstart hperiod =>
      have hnil := hlast (startByte :: body) rest rfl
      subst hnil
      refine ⟨.empty, fun m hm => (by cases hm), fun t => ?_⟩
      have hframe := @frames_of_frame _ _ _ startByte endByte parseLoosely
        endByte_ne_startByte body t hend hstart
      rw [parseLoosely_of_not_mem hperiod] at hframe
      simpa [looseFrames, Decoded.reported] using hframe
  | @wrongLength m tail later hend hstart hperiod hlong hlength =>
      have hnil := hlast (startByte :: (m.fields ++ periodByte :: tail)) later
        (by simp)
      subst hnil
      have htail : startByte ∉ tail := fun hmem => hstart (by simp [hmem])
      have hne : tail.length ≠ nCharChecksum := by
        intro heq
        apply hlength
        rw [List.getElem?_append_right (by omega), heq, Nat.sub_self]
        rfl
      refine ⟨.refused htail, fun m hm => (by cases hm), fun t => ?_⟩
      have hframe := @frames_of_frame _ _ _ startByte endByte parseLoosely
        endByte_ne_startByte _ t hend hstart
      rw [parseLoosely_fields hperiod, if_neg fun h => hne h.right.right]
        at hframe
      have hskip : looseFrames ((tail ++ [endByte]) ++ t) = looseFrames t := by
        apply frames_append_of_not_mem
        simp [htail, endByte_ne_startByte.symm]
      rw [hskip]
      simpa [looseFrames, Decoded.reported] using hframe
  | @taken m tail later hend hstart hperiod hlong hlength =>
      have hnil := hlast (startByte :: (m.fields ++ periodByte :: tail)) later
        (by simp)
      subst hnil
      have hfour : tail.length = nCharChecksum := by
        have hmem : endByte ∉ tail := fun hmem => hend (by simp [hmem])
        rcases tail_cases hmem hlength with ⟨hlen, -⟩ | ⟨a, b, hnil, -⟩
        · exact hlen
        · simp at hnil
      have hdrop : (tail ++ [endByte]).drop (nCharChecksum + 1) = [] := by
        rw [List.drop_eq_nil_iff, List.length_append, hfour]
        rfl
      have hparse := @parseLoosely_fields m tail hperiod
      have hframe (t : List UInt8) :=
        @frames_of_frame _ _ _ startByte endByte parseLoosely
          endByte_ne_startByte _ t hend hstart
      rw [hdrop]
      by_cases hcommand : m.command = 0
      · rw [if_neg fun h => h.left hcommand] at hparse
        rw [if_pos hcommand]
        refine ⟨.empty, fun m hm => (by cases hm), fun t => ?_⟩
        have hnone := hframe t
        rw [hparse] at hnone
        simpa [looseFrames, Decoded.reported] using hnone
      · rw [if_pos ⟨hcommand, hlong, hfour⟩] at hparse
        rw [if_neg hcommand]
        refine ⟨.empty, ?_, fun t => ?_⟩
        · intro m' hm'
          cases hm'
          exact valid_of_parseLoosely hparse hend hstart
        · have hone := hframe t
          rw [hparse] at hone
          simpa [looseFrames, Decoded.reported] using hone

end AsciiSerialCom
