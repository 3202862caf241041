import AsciiSerialCom.Crc.Dnp
import AsciiSerialCom.Foundation.Delimited
import AsciiSerialCom.Foundation.Hexadecimal

/-!
# The frame format

What a frame is, independently of the buffers and loops that build and read
one: a start byte, three header bytes, the data, a period, the checksum of
everything so far in hexadecimal, and an end byte.
-/

namespace AsciiSerialCom

open Foundation.Delimited
open Foundation.Hexadecimal
open Crc

/-- `MAXMESSAGELEN` -/
def maxMessageLen : Nat := 64

/-- `MAXDATALEN` -/
def maxDataLen : Nat := 54

/-- `NCHARCHECKSUM` -/
def nCharChecksum : Nat := 4

/-- The byte that starts a frame. -/
def startByte : UInt8 := '>'.toUInt8

/-- The byte between the data and the checksum. -/
def periodByte : UInt8 := '.'.toUInt8

/-- The byte that ends a frame. -/
def endByte : UInt8 := '\n'.toUInt8

theorem endByte_ne_startByte : endByte ≠ startByte := by decide

/-- The bytes that delimit a frame and its parts. -/
def Reserved (b : UInt8) : Prop :=
  b = startByte ∨ b = periodByte ∨ b = endByte

instance (b : UInt8) : Decidable (Reserved b) :=
  inferInstanceAs (Decidable (_ ∨ _ ∨ _))

/-- The header bytes and the data of a frame. -/
structure Message where
  ascVersion : UInt8
  appVersion : UInt8
  command : UInt8
  data : List UInt8
  deriving DecidableEq, Repr

namespace Message

/-- Header and data in the order in which they are sent. -/
def fields (m : Message) : List UInt8 :=
  m.ascVersion :: m.appVersion :: m.command :: m.data

/-- The part of the frame the checksum covers. -/
def region (m : Message) : List UInt8 :=
  startByte :: (m.fields ++ [periodByte])

end Message

/-- The four checksum characters of a region. -/
def checksumOf (region : List UInt8) : List UInt8 :=
  digits true 4 (crc16Dnp region).toNat

namespace Message

def checksum (m : Message) : List UInt8 := checksumOf m.region

/-- What stands between the start byte and the end byte. -/
def body (m : Message) : List UInt8 :=
  m.fields ++ periodByte :: m.checksum

/-- The frame of a message. -/
def frame (m : Message) : List UInt8 :=
  startByte :: (m.body ++ [endByte])

/-- The message can be framed: its bytes are not taken for delimiters, and its
data are not too long. -/
structure Sendable (m : Message) : Prop where
  not_reserved : forall b, b ∈ m.fields -> ¬ Reserved b
  length_le : m.data.length <= maxDataLen

/-- The message can be delivered: a receiver takes the command zero for the
absence of a message. -/
structure Valid (m : Message) : Prop extends Sendable m where
  command_ne : m.command ≠ 0

instance (m : Message) : Decidable m.Sendable :=
  decidable_of_iff
    ((forall b, b ∈ m.fields -> ¬ Reserved b) ∧ m.data.length <= maxDataLen)
    ⟨fun h => ⟨h.left, h.right⟩, fun h => ⟨h.not_reserved, h.length_le⟩⟩

instance (m : Message) : Decidable m.Valid :=
  decidable_of_iff (m.Sendable ∧ m.command ≠ 0)
    ⟨fun h => ⟨h.left, h.right⟩, fun h => ⟨h.toSendable, h.command_ne⟩⟩

end Message

/-!
## Reading a frame
-/

/-- Header and data taken apart. -/
def Message.ofFields : List UInt8 -> Option Message
  | ascVersion :: appVersion :: command :: data =>
      some
        { ascVersion := ascVersion
          appVersion := appVersion
          command := command
          data := data }
  | _ => none

/-- Read what stands between a start byte and an end byte. -/
def parseBody (body : List UInt8) : Option Message :=
  match cutAt periodByte body with
  | (fields, some tail) =>
      (Message.ofFields fields).filter fun m =>
        m.command ≠ 0 ∧ m.data.length <= maxDataLen ∧ tail = m.checksum
  | (_, none) => none

/-- The valid frames a byte string contains, from front to back. -/
def validFrames (l : List UInt8) : List Message :=
  frames startByte endByte parseBody l

/-!
## Basic facts
-/

@[simp] theorem checksumOf_length (region : List UInt8) :
    (checksumOf region).length = 4 := digits_length _ _ _

theorem not_reserved_of_isDigit {b : UInt8} (h : IsDigit b) : ¬ Reserved b := by
  unfold IsDigit at h
  rintro (rfl | rfl | rfl)
  · exact absurd h (by decide)
  · exact absurd h (by decide)
  · exact absurd h (by decide)

theorem not_reserved_of_mem_digits {count v : Nat} {b : UInt8}
    (h : b ∈ digits true count v) : ¬ Reserved b :=
  not_reserved_of_isDigit (isDigit_of_isDigitOf (isDigitOf_of_mem_digits h))

theorem not_reserved_of_mem_checksumOf {region : List UInt8} {b : UInt8}
    (h : b ∈ checksumOf region) : ¬ Reserved b := not_reserved_of_mem_digits h

theorem checksumOf_inj {x y : List UInt8} (h : checksumOf x = checksumOf y) :
    crc16Dnp x = crc16Dnp y := by
  apply BitVec.eq_of_toNat_eq
  exact digits_injective true (crc16Dnp x).isLt (crc16Dnp y).isLt h

namespace Message

variable {m : Message}

@[simp] theorem fields_length (m : Message) :
    m.fields.length = m.data.length + 3 := rfl

theorem mem_fields_of_mem_data {b : UInt8} (h : b ∈ m.data) : b ∈ m.fields := by
  simp [fields, h]

@[simp] theorem checksum_length (m : Message) : m.checksum.length = 4 :=
  checksumOf_length _

@[simp] theorem region_length (m : Message) :
    m.region.length = m.data.length + 5 := by
  simp [region]

theorem startByte_not_mem_checksum (m : Message) : startByte ∉ m.checksum :=
  fun hmem => not_reserved_of_mem_checksumOf hmem (Or.inl rfl)

theorem periodByte_not_mem_checksum (m : Message) : periodByte ∉ m.checksum :=
  fun hmem => not_reserved_of_mem_checksumOf hmem (Or.inr (Or.inl rfl))

theorem endByte_not_mem_checksum (m : Message) : endByte ∉ m.checksum :=
  fun hmem => not_reserved_of_mem_checksumOf hmem (Or.inr (Or.inr rfl))

theorem body_length (m : Message) : m.body.length = m.data.length + 8 := by
  simp [body]

theorem frame_length (m : Message) : m.frame.length = m.data.length + 10 := by
  simp [frame, body_length]

theorem frame_eq_region (m : Message) :
    m.frame = m.region ++ m.checksum ++ [endByte] := by
  simp [frame, body, region]

theorem ofFields_eq_some_iff {l : List UInt8} :
    ofFields l = some m <-> l = m.fields := by
  constructor
  · intro h
    match l, h with
    | _ :: _ :: _ :: _, h =>
        injection h with h
        rw [← h]
        rfl
  · rintro rfl
    rfl

namespace Sendable

theorem startByte_not_mem_fields (h : m.Sendable) : startByte ∉ m.fields :=
  fun hmem => h.not_reserved _ hmem (Or.inl rfl)

theorem periodByte_not_mem_fields (h : m.Sendable) : periodByte ∉ m.fields :=
  fun hmem => h.not_reserved _ hmem (Or.inr (Or.inl rfl))

theorem endByte_not_mem_fields (h : m.Sendable) : endByte ∉ m.fields :=
  fun hmem => h.not_reserved _ hmem (Or.inr (Or.inr rfl))

theorem startByte_not_mem_body (h : m.Sendable) : startByte ∉ m.body := by
  simp only [body, List.mem_append, List.mem_cons, not_or]
  exact ⟨h.startByte_not_mem_fields, by decide, m.startByte_not_mem_checksum⟩

theorem endByte_not_mem_body (h : m.Sendable) : endByte ∉ m.body := by
  simp only [body, List.mem_append, List.mem_cons, not_or]
  exact ⟨h.endByte_not_mem_fields, by decide, m.endByte_not_mem_checksum⟩

theorem cutAt_body (h : m.Sendable) :
    cutAt periodByte m.body = (m.fields, some m.checksum) :=
  cutAt_of_split h.periodByte_not_mem_fields

end Sendable

end Message

theorem parseBody_of_not_mem {body : List UInt8}
    (hperiod : periodByte ∉ body) : parseBody body = none := by
  rw [parseBody, cutAt_of_not_mem hperiod]

/-- Reading header and data compares everything else. -/
theorem parseBody_fields {m : Message} {tail : List UInt8}
    (hperiod : periodByte ∉ m.fields) :
    parseBody (m.fields ++ periodByte :: tail) =
      if m.command ≠ 0 ∧ m.data.length <= maxDataLen ∧ tail = m.checksum then
        some m
      else
        none := by
  rw [parseBody, cutAt_of_split hperiod]
  simp only [Message.ofFields_eq_some_iff.mpr rfl, Option.filter_some,
    decide_eq_true_eq]

theorem parseBody_eq_some_iff {body : List UInt8} {m : Message} :
    parseBody body = some m <->
      body = m.body ∧ periodByte ∉ m.fields ∧ m.command ≠ 0 ∧
        m.data.length <= maxDataLen := by
  constructor
  · intro h
    rcases not_mem_or_split periodByte body with hperiod | ⟨a, b, rfl, ha⟩
    · rw [parseBody_of_not_mem hperiod] at h
      cases h
    · rw [parseBody, cutAt_of_split ha] at h
      simp only [Option.filter_eq_some_iff, Message.ofFields_eq_some_iff,
        decide_eq_true_eq] at h
      rcases h with ⟨rfl, hcommand, hlength, rfl⟩
      exact ⟨rfl, ha, hcommand, hlength⟩
  · rintro ⟨rfl, hperiod, hcommand, hlength⟩
    rw [Message.body, parseBody_fields hperiod,
      if_pos ⟨hcommand, hlength, rfl⟩]

theorem Message.Valid.parseBody_body {m : Message} (h : m.Valid) :
    parseBody m.body = some m :=
  parseBody_eq_some_iff.mpr
    ⟨rfl, h.periodByte_not_mem_fields, h.command_ne, h.length_le⟩

theorem valid_of_parseBody {body : List UInt8} {m : Message}
    (hstart : startByte ∉ body) (hend : endByte ∉ body)
    (h : parseBody body = some m) : m.Valid ∧ body = m.body := by
  rcases parseBody_eq_some_iff.mp h with ⟨rfl, hperiod, hcommand, hlength⟩
  refine ⟨⟨⟨?_, hlength⟩, hcommand⟩, rfl⟩
  intro b hb
  have hmem : b ∈ m.body := List.mem_append_left _ hb
  rintro (rfl | rfl | rfl)
  · exact hstart hmem
  · exact hperiod hb
  · exact hend hmem

theorem length_le_of_parseBody {body : List UInt8} {m : Message}
    (h : parseBody body = some m) : body.length <= maxDataLen + 8 := by
  rcases parseBody_eq_some_iff.mp h with ⟨rfl, -, -, hlength⟩
  rw [m.body_length]
  omega

/-- **The frames found are the valid frames**: one starts at the head of a byte
string exactly when the frame of that valid message is a prefix of it. -/
theorem frameAtHead_eq_some_iff {l : List UInt8} {m : Message} :
    frameAtHead startByte endByte parseBody l = some m <->
      m.Valid ∧ exists rest, l = m.frame ++ rest := by
  constructor
  · intro h
    cases l with
    | nil => cases h
    | cons x xs =>
        by_cases hx : x = startByte
        · subst hx
          rcases not_mem_or_split endByte xs with hend | ⟨a, b, rfl, ha⟩
          · simp [frameAtHead, cutAt_of_not_mem hend] at h
          · by_cases hstart : startByte ∈ a
            · simp [frameAtHead, cutAt_of_split ha, hstart] at h
            · rw [frameAtHead_of_frame ha hstart b] at h
              rcases valid_of_parseBody hstart ha h with ⟨hvalid, rfl⟩
              exact ⟨hvalid, b, by simp [Message.frame]⟩
        · simp [frameAtHead_of_ne hx] at h
  · rintro ⟨hvalid, rest, rfl⟩
    have hframe : frameAtHead startByte endByte parseBody
        (startByte :: (m.body ++ endByte :: rest)) = parseBody m.body :=
      frameAtHead_of_frame hvalid.endByte_not_mem_body
        hvalid.startByte_not_mem_body rest
    rw [hvalid.parseBody_body] at hframe
    rw [← hframe]
    simp [Message.frame]

theorem validFrames_frame_append {m : Message} (h : m.Valid)
    (rest : List UInt8) :
    validFrames (m.frame ++ rest) = m :: validFrames rest := by
  have hframes : validFrames (startByte :: (m.body ++ endByte :: rest)) =
      (parseBody m.body).toList ++ validFrames rest :=
    frames_of_frame endByte_ne_startByte h.endByte_not_mem_body
      h.startByte_not_mem_body
  rw [h.parseBody_body] at hframes
  simpa [validFrames, Message.frame] using hframes

/-- A frame at the front contributes what its body says. -/
theorem validFrames_closed {body : List UInt8} (later : List UInt8)
    (hend : endByte ∉ body) (hstart : startByte ∉ body) :
    validFrames (startByte :: (body ++ endByte :: later)) =
      (parseBody body).toList ++ validFrames later :=
  frames_of_frame endByte_ne_startByte hend hstart

/-!
## Sequences of frames
-/

/-- The frames of several messages, one behind the other. -/
def framesOf (ms : List Message) : List UInt8 := (ms.map Message.frame).flatten

@[simp] theorem framesOf_nil : framesOf [] = [] := rfl

@[simp] theorem framesOf_singleton (m : Message) : framesOf [m] = m.frame := by
  simp [framesOf]

theorem framesOf_append (first second : List Message) :
    framesOf (first ++ second) = framesOf first ++ framesOf second := by
  simp [framesOf]

/-- A frame has one end byte, the last. -/
theorem Message.Sendable.count_endByte {m : Message} (h : m.Sendable) :
    m.frame.count endByte = 1 := by
  have hbody := List.count_eq_zero.mpr h.endByte_not_mem_body
  rw [Message.frame, List.count_cons_of_ne endByte_ne_startByte.symm,
    List.count_append, hbody, List.count_singleton_self]

theorem count_endByte_framesOf {ms : List Message}
    (h : forall m, m ∈ ms -> m.Sendable) :
    (framesOf ms).count endByte = ms.length := by
  induction ms with
  | nil => rfl
  | cons m ms ih =>
      have hm := (h m (List.mem_cons_self ..)).count_endByte
      have hms := ih fun m' hm' => h m' (List.mem_cons_of_mem _ hm')
      rw [show m :: ms = [m] ++ ms by rfl, framesOf_append, List.count_append,
        framesOf_singleton, hm, hms, List.length_append, List.length_singleton]

/-- Where a sequence of frames is cut, the rest has an end byte. -/
theorem endByte_mem_of_framesOf {ms : List Message} {front back : List UInt8}
    (h : front ++ back = framesOf ms) (hne : back ≠ []) : endByte ∈ back := by
  rcases List.eq_nil_or_concat back with hnil | ⟨init, last, rfl⟩
  · exact absurd hnil hne
  rcases List.eq_nil_or_concat ms with rfl | ⟨ms, m, rfl⟩
  · simp at h
  simp only [List.concat_eq_append] at h ⊢
  rw [framesOf_append, framesOf_singleton, m.frame_eq_region] at h
  simp only [← List.append_assoc] at h
  have hlast := List.append_inj_right' h rfl
  rw [hlast]
  simp

theorem validFrames_append_of_not_mem {a : List UInt8} (later : List UInt8)
    (ha : startByte ∉ a) : validFrames (a ++ later) = validFrames later :=
  frames_append_of_not_mem ha

end AsciiSerialCom
