import AsciiSerialCom.Device.RegisterPointers

/-!
# Answers to requests

The ways in which the handler responds to a request, the messages it answers
with, and what putting an answer does to the output buffer.
-/

namespace AsciiSerialCom

open Foundation
open Foundation.Hexadecimal
open Foundation.StateError

variable {width : RegWidth}

/-!
## The answers
-/

/-- The answer that repeats the address of a request. -/
def echoMessage (m : Message) : Message := { m with data := m.data.take 4 }

/-- The answer that adds a value to the address. -/
def valueMessage (m : Message) (v : width.Reg) : Message :=
  { m with
    data := m.data.take 4 ++ ','.toUInt8 ::
      digits true (2 * width.bytes) v.toNat }

/-- Every byte in header and data of the answer is one of the request, or no
delimiter. -/
def FromRequest (m a : Message) : Prop :=
  forall b, b ∈ a.fields -> b ∈ m.fields ∨ ¬ Reserved b

theorem FromRequest.sendable {m a : Message} (h : FromRequest m a)
    (hm : m.Sendable) (hlen : a.data.length <= maxDataLen) : a.Sendable := by
  refine ⟨?_, hlen⟩
  intro b hb
  rcases h b hb with hmem | hfree
  · exact hm.not_reserved b hmem
  · exact hfree

theorem mem_fields_of_mem_take {m : Message} {n : Nat} {b : UInt8}
    (hb : b ∈ m.data.take n) : b ∈ m.fields :=
  m.mem_fields_of_mem_data (List.mem_of_mem_take hb)

/-- An answer only adds its command and data. -/
theorem fromRequest_of_data {m a : Message}
    (hascVersion : a.ascVersion = m.ascVersion)
    (happVersion : a.appVersion = m.appVersion)
    (hcommand : a.command = m.command ∨ ¬ Reserved a.command)
    (hdata : forall b, b ∈ a.data -> b ∈ m.fields ∨ ¬ Reserved b) :
    FromRequest m a := by
  intro b hb
  simp only [Message.fields, List.mem_cons] at hb
  rcases hb with rfl | rfl | rfl | hb
  · exact Or.inl (by simp [Message.fields, hascVersion])
  · exact Or.inl (by simp [Message.fields, happVersion])
  · rcases hcommand with heq | hfree
    · exact Or.inl (by simp [Message.fields, heq])
    · exact Or.inr hfree
  · exact hdata b hb

theorem echoMessage_fromRequest (m : Message) :
    FromRequest m (echoMessage m) := by
  refine fromRequest_of_data rfl rfl (Or.inl rfl) ?_
  intro b hb
  exact Or.inl (mem_fields_of_mem_take hb)

theorem echoMessage_length (m : Message) :
    (echoMessage m).data.length <= 4 := by
  simp only [echoMessage, List.length_take]
  exact Nat.min_le_left _ _

theorem valueMessage_length (m : Message) (v : width.Reg) :
    (valueMessage m v).data.length <= 13 := by
  have hbytes := width.bytes_le
  simp only [valueMessage, List.length_append, List.length_take,
    List.length_cons, digits_length]
  omega

theorem valueMessage_fromRequest (m : Message) (v : width.Reg) :
    FromRequest m (valueMessage m v) := by
  refine fromRequest_of_data rfl rfl (Or.inl rfl) ?_
  intro b hb
  simp only [valueMessage, List.mem_append, List.mem_cons] at hb
  rcases hb with hb | rfl | hb
  · exact Or.inl (mem_fields_of_mem_take hb)
  · exact Or.inr (by decide)
  · exact Or.inr (not_reserved_of_mem_digits hb)

theorem errorMessage_length (ascVersion appVersion command : UInt8)
    (data : List UInt8) (e : AscException) :
    (Asc.errorMessage ascVersion appVersion command data e).data.length <=
      14 := by
  have hcopied : errorMessageMaxCopyDataLen = 9 := rfl
  simp only [Asc.errorMessage, List.length_append, List.length_cons,
    List.length_take, digits_length]
  omega

/-- An error message quotes the header and the first data of the request; its
other bytes are no delimiters. -/
theorem mem_quoted_of_mem_errorMessage (m : Message) (e : AscException)
    {b : UInt8}
    (hb : b ∈ (Asc.errorMessage m.ascVersion m.appVersion m.command m.data
      e).fields) :
    b ∈ m.ascVersion :: m.appVersion :: m.command ::
      m.data.take errorMessageMaxCopyDataLen ∨ ¬ Reserved b := by
  simp only [Asc.errorMessage, Message.fields, List.mem_cons,
    List.mem_append] at hb
  rcases hb with rfl | rfl | rfl | hb | rfl | rfl | rfl | hb
  · exact Or.inl (by simp)
  · exact Or.inl (by simp)
  · exact Or.inr (by decide)
  · exact Or.inr (not_reserved_of_mem_digits hb)
  · exact Or.inr (by decide)
  · exact Or.inl (by simp)
  · exact Or.inr (by decide)
  · exact Or.inl (by simp [hb])

theorem mem_fields_of_mem_quoted {m : Message} {n : Nat} {b : UInt8}
    (hb : b ∈ m.ascVersion :: m.appVersion :: m.command :: m.data.take n) :
    b ∈ m.fields := by
  simp only [List.mem_cons] at hb
  simp only [Message.fields, List.mem_cons]
  exact hb.imp_right (Or.imp_right (Or.imp_right List.mem_of_mem_take))

theorem errorMessage_fromRequest (m : Message) (e : AscException) :
    FromRequest m
      (Asc.errorMessage m.ascVersion m.appVersion m.command m.data e) := by
  intro b hb
  exact (mem_quoted_of_mem_errorMessage m e hb).imp_left
    mem_fields_of_mem_quoted

theorem errorMessage_sendable {m : Message} (h : m.Sendable)
    (e : AscException) :
    (Asc.errorMessage m.ascVersion m.appVersion m.command m.data
      e).Sendable :=
  (errorMessage_fromRequest m e).sendable h
    (Nat.le_trans (errorMessage_length _ _ _ _ _) (by decide))

/-!
## The cases of a response
-/

section Cases

variable (state : RegisterPointers width) (m : Message) (data : Memory UInt8)
  (words : Memory width.Reg)

/-- The data buffer starts with the data of the message. -/
def Holds (data : Memory UInt8) (m : Message) : Prop :=
  Memory.slice data 0 m.data.length = m.data

theorem holds_ofMessage (stale : Memory UInt8) (m : Message) :
    Holds (Received.ofMessage stale m).data m :=
  Memory.slice_store_self stale 0 m.data

/-- The request addresses a register: its data start with the number of one. -/
def Addresses (regNum : Nat) : Prop :=
  4 <= m.data.length ∧ value (m.data.take 4) = some regNum ∧
    regNum < state.nRegs.toNat

/-- All ways in which the handler responds. -/
inductive RespondCase : Response width -> Prop where
  | unexpected (hr : m.command ≠ 'r'.toUInt8) (hw : m.command ≠ 'w'.toUInt8) :
      RespondCase (.refused .unexpectedCommand)
  | tooShort (hlen : m.data.length < 4) :
      RespondCase (.refused .dataTooShort)
  | badAddress (hlen : 4 <= m.data.length)
      (hvalue : value (m.data.take 4) = none) :
      RespondCase (.thrown .notHexChar)
  | outOfRange {regNum : Nat} (hlen : 4 <= m.data.length)
      (hvalue : value (m.data.take 4) = some regNum)
      (hoob : state.nRegs.toNat <= regNum) :
      RespondCase (.refused .regnumOob)
  | read {regNum : Nat} (hcommand : m.command = 'r'.toUInt8)
      (haddress : Addresses state m regNum) :
      RespondCase
        (.replied
          (Memory.store data 4 (','.toUInt8 ::
            digits true (2 * width.bytes)
              (RegisterPointers.readWord words
                (state.pointers regNum)).toNat))
          (5 + 2 * width.bytes) words)
  | noValue {regNum : Nat} (hcommand : m.command = 'w'.toUInt8)
      (haddress : Addresses state m regNum)
      (hlen : m.data.length < 5 + width.bytes) :
      RespondCase (.refused .regvalLen)
  | unmapped {regNum : Nat} (hcommand : m.command = 'w'.toUInt8)
      (haddress : Addresses state m regNum)
      (hlen : 5 + width.bytes <= m.data.length)
      (hpointer : state.pointers regNum = none) :
      RespondCase (.replied data 4 words)
  | badValue {regNum p : Nat} (hcommand : m.command = 'w'.toUInt8)
      (haddress : Addresses state m regNum)
      (hlen : 5 + width.bytes <= m.data.length)
      (hpointer : state.pointers regNum = some p)
      (hvalue : value (Memory.slice data 5 (2 * width.bytes)) = none) :
      RespondCase (.thrown .notHexChar)
  | write {regNum p v : Nat} (hcommand : m.command = 'w'.toUInt8)
      (haddress : Addresses state m regNum)
      (hlen : 5 + width.bytes <= m.data.length)
      (hpointer : state.pointers regNum = some p)
      (hvalue : value (Memory.slice data 5 (2 * width.bytes)) = some v) :
      RespondCase
        (.replied data 4
          (writeWord words p (BitVec.ofNat width.bits v)
            (state.writeMasks regNum)))

variable {m data}

theorem respond_cases (h : Holds data m) :
    RespondCase state m data words
      (state.respond m.command m.data.length data words) := by
  rw [RegisterPointers.respond]
  by_cases hcommand : m.command ≠ 'r'.toUInt8 ∧ m.command ≠ 'w'.toUInt8
  · rw [if_pos hcommand]
    exact .unexpected hcommand.left hcommand.right
  rw [if_neg hcommand]
  by_cases hlen : m.data.length < 4
  · rw [if_pos hlen]
    exact .tooShort hlen
  rw [if_neg hlen]
  have hlen := Nat.not_lt.mp hlen
  have htake : Memory.slice data 0 4 = m.data.take 4 := by
    rw [← Memory.take_slice data 0 m.data.length 4 hlen, h]
  rw [htake]
  cases hvalue : value (m.data.take 4) with
  | none => exact .badAddress hlen hvalue
  | some regNum =>
      simp only
      by_cases hoob : state.nRegs.toNat <= regNum
      · rw [if_pos hoob]
        exact .outOfRange hlen hvalue hoob
      rw [if_neg hoob]
      have haddress : Addresses state m regNum :=
        ⟨hlen, hvalue, Nat.not_le.mp hoob⟩
      by_cases hread : m.command = 'r'.toUInt8
      · rw [if_pos hread]
        exact .read hread haddress
      rw [if_neg hread]
      have hwrite : m.command = 'w'.toUInt8 := by
        by_contra hne
        exact hcommand ⟨hread, hne⟩
      by_cases hshort : m.data.length < 5 + width.bytes
      · rw [if_pos hshort]
        exact .noValue hwrite haddress hshort
      rw [if_neg hshort]
      have hlong := Nat.not_lt.mp hshort
      cases hpointer : state.pointers regNum with
      | none => exact .unmapped hwrite haddress hlong hpointer
      | some p =>
          simp only
          cases hnew : value (Memory.slice data 5 (2 * width.bytes)) with
          | none => exact .badValue hwrite haddress hlong hpointer hnew
          | some v => exact .write hwrite haddress hlong hpointer hnew

variable {state}

theorem answer_read (h : Holds data m) {regNum : Nat}
    (haddress : Addresses state m regNum) (v : width.Reg) :
    (Response.replied
      (Memory.store data 4 (','.toUInt8 ::
        digits true (2 * width.bytes) v.toNat))
      (5 + 2 * width.bytes) words).answer m = some (valueMessage m v) := by
  have hslice := Memory.slice_store_append data 0 4
    (','.toUInt8 :: digits true (2 * width.bytes) v.toNat)
  have htake : Memory.slice data 0 4 = m.data.take 4 := by
    rw [← Memory.take_slice data 0 m.data.length 4 haddress.left, h]
  rw [htake, List.length_cons, digits_length, Nat.zero_add,
    show 4 + (2 * width.bytes + 1) = 5 + 2 * width.bytes by omega] at hslice
  rw [Response.answer, Asc.messageOf, hslice]
  rfl

theorem answer_echo (h : Holds data m) {regNum : Nat}
    (haddress : Addresses state m regNum) :
    (Response.replied data 4 words).answer m = some (echoMessage m) := by
  rw [Response.answer, Asc.messageOf,
    ← Memory.take_slice data 0 m.data.length 4 haddress.left, h]
  rfl

variable {words} in
/-- Every answer is made from its request, and it is short. -/
theorem answer_fromRequest (hdata : Holds data m) {a : Message}
    (ha : (state.respond m.command m.data.length data words).answer m =
      some a) : FromRequest m a ∧ a.data.length <= 14 := by
  have hrefused (e : AscException)
      (h : (Response.refused e : Response width).answer m = some a) :
      FromRequest m a ∧ a.data.length <= 14 := by
    injection h with h
    rw [← h]
    exact ⟨errorMessage_fromRequest m e, errorMessage_length _ _ _ _ _⟩
  have hecho (h : some (echoMessage m) = some a) :
      FromRequest m a ∧ a.data.length <= 14 := by
    injection h with h
    rw [← h]
    exact ⟨echoMessage_fromRequest m,
      Nat.le_trans (echoMessage_length m) (by decide)⟩
  have hcase := respond_cases state words hdata
  generalize state.respond m.command m.data.length data words = response
    at hcase ha
  cases hcase with
  | unexpected hr hw => exact hrefused _ ha
  | tooShort hlen => exact hrefused _ ha
  | badAddress hlen hvalue => cases ha
  | outOfRange hlen hvalue hoob => exact hrefused _ ha
  | read hcommand haddress =>
      rw [answer_read words hdata haddress] at ha
      injection ha with ha
      rw [← ha]
      exact ⟨valueMessage_fromRequest m _,
        Nat.le_trans (valueMessage_length m _) (by decide)⟩
  | noValue hcommand haddress hlen => exact hrefused _ ha
  | unmapped hcommand haddress hlen hpointer =>
      rw [answer_echo _ hdata haddress] at ha
      exact hecho ha
  | badValue hcommand haddress hlen hpointer hvalue => cases ha
  | write hcommand haddress hlen hpointer hvalue =>
      rw [answer_echo _ hdata haddress] at ha
      exact hecho ha

variable {words} in
/-- **Every answer can be framed**, and it is short. -/
theorem answer_sendable (hdata : Holds data m) (hm : m.Sendable)
    {a : Message}
    (ha : (state.respond m.command m.data.length data words).answer m =
      some a) : a.Sendable ∧ a.data.length <= 14 := by
  rcases answer_fromRequest hdata ha with ⟨hfrom, hlen⟩
  exact ⟨hfrom.sendable hm (Nat.le_trans hlen (by decide)), hlen⟩

end Cases

/-!
## Putting an answer
-/

namespace Response

variable {s : HandlerState (World width)} {m a : Message}
  {response : Response width}

@[simp] theorem prepare_asc (response : Response width)
    (s : HandlerState (World width)) : (response.prepare s).asc = s.asc := rfl

/-- A reply ends as putting its data does. -/
theorem react_replied_outcome (out : Memory UInt8) (len : Nat)
    (words : Memory width.Reg) (ascVersion appVersion command : UInt8)
    (dataLen : Nat) (s : HandlerState (World width)) :
    Result.outcome ((Response.replied out len words).react ascVersion appVersion
        command dataLen s) =
      Result.outcome
        (Asc.putMessage ascVersion appVersion command out len s.asc) := by
  have hrun : (Response.replied out len words).react ascVersion appVersion
      command dataLen s =
        HandlerState.onAsc
          (Asc.putMessage ascVersion appVersion command out len)
          ((Response.replied out len words).prepare s) := rfl
  rw [hrun, HandlerState.onAsc, zoom_outcome, prepare_asc]

/-- A reaction with an answer comes down to putting its message. -/
theorem react_eq (hdata : Holds s.data m)
    (ha : response.answer m = some a) :
    exists data dataLen,
      Asc.messageOf a.ascVersion a.appVersion a.command data dataLen = a ∧
        response.react m.ascVersion m.appVersion m.command m.data.length s =
          HandlerState.onAsc
            (Asc.putMessage a.ascVersion a.appVersion a.command data dataLen)
            (response.prepare s) := by
  cases response with
  | refused e =>
      rcases Asc.putError_eq m.ascVersion m.appVersion m.command s.data
        m.data.length e s.asc with ⟨outData, copied, hm, hrun⟩
      rw [hdata] at hm
      injection ha with ha
      subst ha
      refine ⟨outData, copied, hm, ?_⟩
      have hprepare : (Response.refused e : Response width).prepare s = s := rfl
      rw [react, hprepare, put, HandlerState.putError, bind_of_ok (get_apply s),
        HandlerState.onAsc, zoom, hrun]
      rfl
  | replied data dataLen words =>
      injection ha with ha
      subst ha
      exact ⟨data, dataLen, rfl, rfl⟩
  | thrown e => cases ha

/-- **An answer that fits behind an unwrapped backlog** is queued as its
frame. -/
theorem react_of_room (hdata : Holds s.data m)
    (ha : response.answer m = some a) (hstart : startByte ∉ a.fields)
    (hroom : s.asc.HasRoom a.data.length) (hunwrapped : s.asc.Unwrapped) :
    exists out : RingBuffer maxMessageLen,
      out.contents = s.asc.outBuf.contents ++ a.frame ∧
        response.react m.ascVersion m.appVersion m.command m.data.length s =
          .ok ()
            { response.prepare s with
              asc := { s.asc with outBuf := out } } := by
  rcases react_eq hdata ha with ⟨data, dataLen, hm, hput⟩
  rw [Asc.messageOf_data_length hm] at hroom
  rcases Asc.putMessage_of_unwrapped hm hstart hroom hunwrapped with
    ⟨out, hrun, hout, -⟩
  refine ⟨out, hout, ?_⟩
  rw [← prepare_asc response s] at hrun
  rw [hput, HandlerState.onAsc, zoom_of_ok hrun, prepare_asc]

/-- An answer without room for its checksum throws behind the backlog. -/
theorem react_of_no_room (hdata : Holds s.data m)
    (ha : response.answer m = some a) (hsendable : a.Sendable)
    (hfit : s.asc.outBuf.contents.length + a.region.length <= maxMessageLen)
    (hroom : ¬ s.asc.HasRoom a.data.length) :
    exists out : RingBuffer maxMessageLen,
      out.contents = s.asc.outBuf.contents ++ a.region ∧
        response.react m.ascVersion m.appVersion m.command m.data.length s =
          .error (.exception .checksumProblem)
            { response.prepare s with
              asc := { s.asc with outBuf := out } } := by
  rcases react_eq hdata ha with ⟨data, dataLen, hm, hput⟩
  have hlen := hsendable.length_le
  rw [Asc.messageOf_data_length hm] at hroom hlen
  rcases Asc.putMessage_of_no_room hm hsendable.startByte_not_mem_fields hlen
    hfit hroom with ⟨hrun, hout⟩
  refine ⟨_, hout, ?_⟩
  rw [← prepare_asc response s] at hrun
  rw [hput, HandlerState.onAsc, zoom_of_error hrun, prepare_asc]

end Response
end AsciiSerialCom
