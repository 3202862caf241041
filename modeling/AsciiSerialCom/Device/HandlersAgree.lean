import AsciiSerialCom.Device.RegisterBlock
import AsciiSerialCom.Device.Response
import AsciiSerialCom.SerialCom.Bounds
import AsciiSerialCom.SerialCom.FailedSends
import AsciiSerialCom.SerialCom.RoundTrip

/-!
# The two register handlers

A map of register pointers that lead to the words of a block, with masks that
protect nothing, makes the two handlers agree: they decide alike, and where the
one throws an error, the other puts it.  An error frame quotes the request,
though, so that a request with delimiters among the quoted bytes spoils it.
-/

namespace AsciiSerialCom

open Foundation
open Foundation.Delimited
open Foundation.Hexadecimal
open Foundation.StateError

variable {width : RegWidth}

/-- The pointers lead to the words of the block, and their masks are all ones. -/
structure MapsBlock (state : RegisterPointers width)
    (block : RegisterBlock width) : Prop where
  nRegs : state.nRegs = block.nRegs
  pointers : forall i, i < block.nRegs.toNat ->
    state.pointers i = some (block.block + i)
  writeMasks : forall i, i < block.nRegs.toNat ->
    state.writeMasks i = BitVec.allOnes width.bits

theorem mapsBlock_toPointers (block : RegisterBlock width) :
    MapsBlock block.toPointers block :=
  { nRegs := rfl
    pointers := fun _ _ => rfl
    writeMasks := fun _ _ => rfl }

theorem MapsBlock.respond_eq {state : RegisterPointers width}
    {block : RegisterBlock width} (h : MapsBlock state block)
    (command : UInt8) (dataLen : Nat) (data : Memory UInt8)
    (words : Memory width.Reg) :
    state.respond command dataLen data words =
      block.toPointers.respond command dataLen data words := by
  have hnRegs : block.toPointers.nRegs = state.nRegs := h.nRegs.symm
  rw [RegisterPointers.respond, RegisterPointers.respond, hnRegs]
  cases value (Memory.slice data 0 4) with
  | none => rfl
  | some regNum =>
      simp only
      by_cases hoob : state.nRegs.toNat <= regNum
      · rw [if_pos hoob, if_pos hoob]
      · have hlt : regNum < block.nRegs.toNat := by
          rw [← h.nRegs]
          exact Nat.not_le.mp hoob
        have hpointer : state.pointers regNum =
            block.toPointers.pointers regNum := h.pointers regNum hlt
        have hmask : state.writeMasks regNum =
            block.toPointers.writeMasks regNum := h.writeMasks regNum hlt
        rw [hpointer, hmask]

/-!
## Requests that are quoted
-/

/-- The handlers refuse the request without a look at its value. -/
def Refuses (width : RegWidth) (nRegs : BitVec 16) (m : Message) : Prop :=
  (m.command ≠ 'r'.toUInt8 ∧ m.command ≠ 'w'.toUInt8) ∨ m.data.length < 4 ∨
    exists regNum, value (m.data.take 4) = some regNum ∧
      (nRegs.toNat <= regNum ∨
        (m.command = 'w'.toUInt8 ∧ m.data.length < 5 + width.bytes))

/-- No byte that an error frame takes from the request is a delimiter. -/
def Quotable (m : Message) : Prop :=
  forall b, b ∈ m.ascVersion :: m.appVersion :: m.command ::
    m.data.take errorMessageMaxCopyDataLen -> ¬ Reserved b

instance (m : Message) : Decidable (Quotable m) :=
  inferInstanceAs (Decidable (forall b, b ∈ _ -> ¬ Reserved b))

theorem quotable_of_fields {m : Message}
    (h : forall b, b ∈ m.fields -> ¬ Reserved b) : Quotable m :=
  fun b hb => h b (mem_fields_of_mem_quoted hb)

/-- An error message can be framed exactly if the request is quotable. -/
theorem errorMessage_sendable_iff (m : Message) (e : AscException) :
    (Asc.errorMessage m.ascVersion m.appVersion m.command m.data e).Sendable <->
      Quotable m := by
  constructor
  · intro h b hb
    apply h.not_reserved
    simp only [List.mem_cons] at hb
    simp only [Asc.errorMessage, Message.fields, List.mem_cons, List.mem_append]
    tauto
  · intro h
    refine ⟨?_, Nat.le_trans (errorMessage_length _ _ _ _ _) (by decide)⟩
    intro b hb
    rcases mem_quoted_of_mem_errorMessage m e hb with hquoted | hfree
    · exact h b hquoted
    · exact hfree

/-!
## What a receiver reports
-/

namespace Receiver

variable {r r' : Receiver}

/-- A frame with a full header whose checksum is ignored is reported as it
stands, if it is reported. -/
theorem received_of_getFrame (hignore : r.asc.ignoreCRCMismatch = true)
    {m : Message} {tail later : List UInt8}
    (hc : r.asc.inBuf.contents =
      startByte :: (m.fields ++ periodByte :: (tail ++ endByte :: later)))
    (hend : endByte ∉ m.fields ++ periodByte :: tail)
    (hperiod : periodByte ∉ m.fields) (hrun : getFrame r = .ok () r') :
    r'.received = Received.ofMessage r.received.data m := by
  have hdata : periodByte ∉ m.data := mt m.mem_fields_of_mem_data hperiod
  have hchecksum : (if r.asc.ignoreCRCMismatch then .ok []
      else computeChecksum false r.asc.inBuf) = .ok [] := by
    rw [if_pos hignore]
  have hframe := getFrame_eq_popFrame hc hend hperiod hchecksum
  simp only [hignore, m.fields_length] at hframe
  rw [hframe] at hrun
  by_cases hlength : (tail ++ endByte :: later)[nCharChecksum]? = some endByte
  · have hleaves : Leaves r (.ok ())
        ((tail ++ endByte :: later).drop (nCharChecksum + 1))
        (Received.ofMessage r.received.data m)
        (popFrame true (m.data.length + 4) [] r) := by
      refine leaves_popFrame true hc hdata fun b hb => ?_
      have htail : Leaves (r.withIn b (Received.ofMessage r.received.data m)) _
          _ _ (popTail true [] _) := leaves_popTail_of_end true hb hlength
      rw [if_neg (by simp)] at htail
      exact htail
    rcases hleaves.eq_ok with ⟨b, -, hok⟩
    cases hok.symm.trans hrun
    rfl
  · have hleaves : Leaves r (.error (.exception .invalidFrame))
        (tail ++ endByte :: later) (Received.ofMessage r.received.data m)
        (popFrame true (m.data.length + 4) [] r) :=
      leaves_popFrame true hc hdata
        fun b hb => leaves_popTail_of_no_end (r := r.withIn b _) true hb hlength
    rcases hleaves.eq_error with ⟨b, -, herror⟩
    cases herror.symm.trans hrun

/-- While checksums are ignored, whatever frame has a full header is reported
without delimiters among its fields. -/
theorem exists_message_of_getFrame (hignore : r.asc.ignoreCRCMismatch = true)
    {d : Decoded} {rest : List UInt8}
    (hcase : DecodeCase r.asc.inBuf.contents d rest)
    (hheader : 4 <= r.asc.inBuf.contents.idxOf periodByte)
    (hrun : getFrame r = .ok () r') (hcommand : r'.received.command ≠ 0) :
    exists m, r'.received = Received.ofMessage r.received.data m ∧
      forall b, b ∈ m.fields -> ¬ Reserved b := by
  have hmessage {m : Message} {tail later : List UInt8}
      (hc : r.asc.inBuf.contents =
        startByte :: (m.fields ++ periodByte :: (tail ++ endByte :: later)))
      (hend : endByte ∉ m.fields ++ periodByte :: tail)
      (hstart : startByte ∉ m.fields ++ periodByte :: tail)
      (hperiod : periodByte ∉ m.fields) :
      exists m, r'.received = Received.ofMessage r.received.data m ∧
        forall b, b ∈ m.fields -> ¬ Reserved b := by
    refine ⟨m, received_of_getFrame hignore hc hend hperiod hrun, ?_⟩
    rintro b hb (rfl | rfl | rfl)
    · exact hstart (List.mem_append_left _ hb)
    · exact hperiod hb
    · exact hend (List.mem_append_left _ hb)
  generalize hc : r.asc.inBuf.contents = kept at hcase hheader
  cases hcase with
  | empty => exact absurd hheader (by decide)
  | @growing kept hend hstart =>
      have hgrowing : endByte ∉ startByte :: kept := by
        rw [List.mem_cons, not_or]
        exact ⟨endByte_ne_startByte, hend⟩
      rcases (leaves_getFrame_of_growing hc hgrowing).eq_ok with ⟨b, -, hok⟩
      cases hok.symm.trans hrun
      exact absurd rfl hcommand
  | noPeriod hend hstart hperiod =>
      rcases (leaves_getFrame_of_noPeriod hc hend hperiod).eq_error with
        ⟨b, -, herror⟩
      cases herror.symm.trans hrun
  | @overlong fields tail later hend hstart hperiod hlong =>
      have hthree : 3 <= fields.length := by omega
      rcases Message.exists_eq_fields hthree with ⟨m, rfl⟩
      exact hmessage hc hend hstart hperiod
  | short hend hstart hperiod hshort =>
      rw [List.idxOf_cons_ne _ (by decide), List.idxOf_append_of_notMem hperiod,
        List.idxOf_cons_self] at hheader
      omega
  | wrongLength hend hstart hperiod hlong hlength =>
      exact hmessage hc hend hstart hperiod
  | checked hend hstart hperiod hlong hlength =>
      exact hmessage hc hend hstart hperiod

/-- No byte of a reported message is a delimiter, unless the checksum is ignored
and the first period comes before the end of the header. -/
theorem not_reserved_of_getMessage
    (hheader : r.asc.ignoreCRCMismatch = false ∨
      4 <= (resync startByte endByte r.asc.inBuf.contents).idxOf periodByte)
    (hrun : getMessage r = .ok () r') (hcommand : r'.received.command ≠ 0)
    {c : UInt8} (hc : c ∈ r'.received.message.fields) : ¬ Reserved c := by
  by_cases hcrc : r.asc.ignoreCRCMismatch = false
  · rcases exists_frame_of_getMessage hcrc hrun hcommand with
      ⟨m, junk, hvalid, hreceived, -⟩
    rw [hreceived, Received.message_ofMessage] at hc
    exact hvalid.not_reserved c hc
  · have hignore := Bool.eq_true_of_not_eq_false hcrc
    by_cases hsize : r.asc.inBuf.getSize = 0
    · rw [getMessage, bind_of_ok (get_apply r), if_pos hsize] at hrun
      cases hrun
      exact absurd rfl hcommand
    · rcases getMessage_eq_getFrame hsize with ⟨b, hb, hframe⟩
      have hcase := decode_cases r.asc.inBuf.contents
      have hfour := hheader.resolve_left hcrc
      rw [← hb] at hcase hfour
      rcases exists_message_of_getFrame (r := r.withIn b r.received) hignore
        hcase hfour ((hframe r.received).symm.trans hrun) hcommand with
        ⟨m, hreceived, hfree⟩
      rw [hreceived, Received.message_ofMessage] at hc
      exact hfree c hc

end Receiver

/-!
## Comparing the handlers
-/

/-- How the results of the two handlers compare for a message, from one state. -/
structure Agrees (m : Message) (s : HandlerState (World width))
    (block pointers :
      EStateM.Result Failure (HandlerState (World width)) Unit) : Prop where
  returns : forall s₁, block = .ok () s₁ ->
    exists s₂, pointers = .ok () s₂ ∧ s₂.world.words = s₁.world.words ∧
      s₂.asc.outBuf.contents = s₁.asc.outBuf.contents
  notHexChar : forall s₁, block = .error (.exception .notHexChar) s₁ ->
    exists s₂, pointers = .error (.exception .notHexChar) s₂
  /-- one frame, which quotes the request; a delimiter among the bytes that it
  quotes would make more than one frame of it, or none, so the message is asked
  to be valid -/
  refuses : forall c s₁, block = .error (.exception c) s₁ -> c ≠ .notHexChar ->
    (Asc.errorMessage m.ascVersion m.appVersion m.command m.data c).Valid ∧
      exists s₂, pointers = .ok () s₂ ∧ s₂.world.words = s.world.words ∧
        s₂.asc.outBuf.contents =
          (Asc.errorMessage m.ascVersion m.appVersion m.command m.data c).frame

/-- The two handlers agree on a message that comes in a state. -/
def HandlersAgree (charSigned : Bool) (block : RegisterBlock width)
    (pointers : RegisterPointers width) (ascVersion appVersion command : UInt8)
    (dataLen : Nat) (s : HandlerState (World width)) : Prop :=
  Agrees (Asc.messageOf ascVersion appVersion command s.data dataLen) s
    (RegisterBlock.handleMessage charSigned (some block) ascVersion appVersion
      command dataLen s)
    (RegisterPointers.handleMessage charSigned (some pointers) ascVersion
      appVersion command dataLen s)

/-- The same result in both handlers, unless it is an error to answer. -/
theorem agrees_self {m : Message} {s : HandlerState (World width)}
    {result : EStateM.Result Failure (HandlerState (World width)) Unit}
    (h : forall c, Result.outcome result = .error (.exception c) ->
      c = .notHexChar) :
    Agrees m s result result := by
  refine ⟨?_, ?_, ?_⟩
  · intro s₁ hrun
    exact ⟨s₁, hrun, rfl, rfl⟩
  · intro s₁ hrun
    exact ⟨s₁, hrun⟩
  · intro c s₁ hrun hc
    exact absurd (h c (by rw [hrun, Result.outcome_error])) hc

/-- A refusal is thrown by one handler and put by the other. -/
theorem agrees_refused_iff {m : Message} {s : HandlerState (World width)}
    (hdata : Holds s.data m) (hempty : s.asc.outBuf.contents = [])
    {c : AscException} (hc : c ≠ .notHexChar) :
    Agrees m s (.error (.exception c) s)
        ((Response.refused c).react m.ascVersion m.appVersion m.command
          m.data.length s) <->
      Quotable m := by
  rw [← errorMessage_sendable_iff m c]
  constructor
  · intro h
    exact (h.refuses c s rfl hc).left.toSendable
  · intro hsendable
    have hroom := Asc.hasRoom_of_empty hempty hsendable.length_le
    have ha : (Response.refused c : Response width).answer m = some
        (Asc.errorMessage m.ascVersion m.appVersion m.command m.data c) := rfl
    rcases Response.react_of_room hdata ha hsendable.startByte_not_mem_fields
      hroom (Asc.unwrapped_of_empty hempty) with ⟨out, hout, hrun⟩
    rw [hempty, List.nil_append] at hout
    refine ⟨?_, ?_, ?_⟩
    · intro s₁ h
      cases h
    · intro s₁ h
      injection h with h _
      injection h with h
      exact absurd h hc
    · intro c' s₁ h _
      injection h with h _
      injection h with h
      subst h
      have hcommand : 'e'.toUInt8 ≠ 0 := by decide
      exact ⟨⟨hsendable, hcommand⟩, _, hrun, rfl, hout⟩

/-!
## Replies
-/

/-- On an empty buffer, only a start byte right before the period makes the
checksum computation throw. -/
theorem Asc.putMessage_not_thrown {asc : Asc} {m : Message}
    {ascVersion appVersion command : UInt8} {data : Memory UInt8}
    {dataLen : Nat}
    (hm : messageOf ascVersion appVersion command data dataLen = m)
    (hempty : asc.outBuf.contents = []) (hlen : dataLen <= maxDataLen)
    (hstart : startByte ∉ m.fields.drop m.data.length) (e : AscException) :
    Result.outcome (putMessage ascVersion appVersion command data dataLen asc) ≠
      .error (.exception e) := by
  have hlength := messageOf_data_length hm
  have hallowed : ¬ asc.ChecksumRefused m := by
    rintro (hfull | hclose)
    · have hmax : maxMessageLen - nCharChecksum = maxDataLen + 6 := rfl
      rw [hempty, m.region_length, List.length_nil] at hfull
      omega
    · exact hstart hclose
  rw [putMessage_eq hm hlen]
  rcases computeChecksum_cases (m := m) asc (by omega) with
    ⟨hrefused, -⟩ | ⟨-, ⟨checksum, hok⟩ | hfault⟩
  · exact absurd hrefused hallowed
  · simp [hok]
  · simp [hfault]

/-- The last three bytes before the period belong to the data, as long as
there are as many. -/
theorem drop_fields {m : Message} (h : 3 <= m.data.length) :
    m.fields.drop m.data.length = m.data.drop (m.data.length - 3) := by
  obtain ⟨n, hn⟩ : exists n, m.data.length = n + 3 :=
    ⟨m.data.length - 3, by omega⟩
  rw [hn, Nat.add_sub_cancel]
  rfl

namespace Response

variable {m : Message} {s : HandlerState (World width)}

/-- A reply keeps delimiters out of its data, so that it is never refused. -/
theorem react_replied_not_thrown {out : Memory UInt8} {len : Nat}
    {words : Memory width.Reg} {a : Message}
    (ha : (Response.replied out len words).answer m = some a)
    (hempty : s.asc.outBuf.contents = []) (hfew : 3 <= a.data.length)
    (hmany : a.data.length <= maxDataLen) (hstart : startByte ∉ a.data)
    (c : AscException) :
    Result.outcome ((Response.replied out len words).react m.ascVersion
      m.appVersion m.command m.data.length s) ≠ .error (.exception c) := by
  injection ha with ha
  rw [Asc.messageOf_data_length ha] at hmany
  have hdrop : startByte ∉ a.fields.drop a.data.length := by
    rw [drop_fields hfew]
    exact fun hmem => hstart (List.mem_of_mem_drop hmem)
  rw [react_replied_outcome]
  exact Asc.putMessage_not_thrown ha hempty hmany hdrop c

end Response

namespace Addresses

variable {state : RegisterPointers width} {m : Message} {regNum : Nat}
  {s : HandlerState (World width)} {words : Memory width.Reg}

/-- The bytes of an address are no delimiters. -/
theorem not_reserved (h : Addresses state m regNum) {b : UInt8}
    (hb : b ∈ m.data.take 4) : ¬ Reserved b := by
  have hdigits := (value_isSome_iff (m.data.take 4)).mp (by
    rw [h.right.left]
    rfl)
  exact not_reserved_of_isDigit ((digitValue_isSome_iff b).mp (hdigits b hb))

theorem echo_not_thrown (h : Addresses state m regNum) (hdata : Holds s.data m)
    (hempty : s.asc.outBuf.contents = []) (c : AscException) :
    Result.outcome ((Response.replied s.data 4 words).react m.ascVersion
      m.appVersion m.command m.data.length s) ≠ .error (.exception c) := by
  have hlen : (echoMessage m).data.length = 4 :=
    List.length_take_of_le h.left
  refine Response.react_replied_not_thrown (answer_echo words hdata h) hempty
    (by omega) (by rw [hlen]; decide) ?_ c
  intro hmem
  exact h.not_reserved hmem (Or.inl rfl)

theorem read_not_thrown (h : Addresses state m regNum) (hdata : Holds s.data m)
    (hempty : s.asc.outBuf.contents = []) {v : width.Reg} (c : AscException) :
    Result.outcome ((Response.replied
      (Memory.store s.data 4 (','.toUInt8 ::
        digits true (2 * width.bytes) v.toNat))
      (5 + 2 * width.bytes) words).react m.ascVersion m.appVersion m.command
        m.data.length s) ≠ .error (.exception c) := by
  have hfour := List.length_take_of_le h.left
  refine Response.react_replied_not_thrown (answer_read words hdata h v) hempty
    ?_ (Nat.le_trans (valueMessage_length m v) (by decide)) ?_ c
  · simp only [valueMessage, List.length_append]
    omega
  · simp only [valueMessage, List.mem_append, List.mem_cons, not_or]
    exact ⟨fun hmem => h.not_reserved hmem (Or.inl rfl), by decide,
      fun hmem => not_reserved_of_mem_digits hmem (Or.inl rfl)⟩

/-- A read, or a write that has room for a value, is not refused. -/
theorem not_refuses (h : Addresses state m regNum)
    (hcommand : m.command = 'r'.toUInt8 ∨
      (m.command = 'w'.toUInt8 ∧ 5 + width.bytes <= m.data.length)) :
    ¬ Refuses width state.nRegs m := by
  rcases h with ⟨hlen, hvalue, hlt⟩
  have hread : 'r'.toUInt8 ≠ 'w'.toUInt8 := by decide
  rintro (⟨hr, hw⟩ | hshort | ⟨i, hi, hoob | ⟨hw, hshort⟩⟩)
  · rcases hcommand with heq | ⟨heq, -⟩
    · exact hr heq
    · exact hw heq
  · omega
  · rw [hvalue] at hi
    injection hi with hi
    omega
  · rcases hcommand with heq | ⟨-, hlong⟩
    · exact hread (heq.symm.trans hw)
    · omega

end Addresses

/-!
## When the handlers agree
-/

/-- The handlers agree unless they refuse a request that cannot be quoted. -/
theorem RegisterPointers.agrees_iff (state : RegisterPointers width)
    {m : Message} {s : HandlerState (World width)} (hdata : Holds s.data m)
    (hempty : s.asc.outBuf.contents = []) :
    Agrees m s
        ((state.respond m.command m.data.length s.data
          s.world.words).strict.react m.ascVersion m.appVersion m.command
          m.data.length s)
        ((state.respond m.command m.data.length s.data s.world.words).react
          m.ascVersion m.appVersion m.command m.data.length s) <->
      (Refuses width state.nRegs m -> Quotable m) := by
  have hrefused (c : AscException) (hc : c ≠ .notHexChar)
      (hrefuses : Refuses width state.nRegs m) :
      Agrees m s
          ((Response.refused c).strict.react m.ascVersion m.appVersion m.command
            m.data.length s)
          ((Response.refused c).react m.ascVersion m.appVersion m.command
            m.data.length s) <->
        (Refuses width state.nRegs m -> Quotable m) :=
    (agrees_refused_iff hdata hempty hc).trans
      ⟨fun h _ => h, fun h => h hrefuses⟩
  have hagreed {response : Response width}
      (hstrict : response.strict = response)
      (hnone : ¬ Refuses width state.nRegs m)
      (h : forall c, Result.outcome (response.react m.ascVersion m.appVersion
        m.command m.data.length s) = .error (.exception c) -> c = .notHexChar) :
      Agrees m s
          (response.strict.react m.ascVersion m.appVersion m.command
            m.data.length s)
          (response.react m.ascVersion m.appVersion m.command m.data.length
            s) <->
        (Refuses width state.nRegs m -> Quotable m) := by
    rw [hstrict]
    exact iff_of_true (agrees_self h) fun hrefuses => absurd hrefuses hnone
  have hcase := respond_cases state s.world.words hdata
  generalize hresponse : state.respond m.command m.data.length s.data
    s.world.words = response at hcase ⊢
  cases hcase with
  | unexpected hr hw => exact hrefused _ (by decide) (Or.inl ⟨hr, hw⟩)
  | tooShort hlen => exact hrefused _ (by decide) (Or.inr (Or.inl hlen))
  | badAddress hlen hvalue =>
      refine hagreed rfl ?_ ?_
      · rintro (hcommand | hshort | ⟨i, hi, -⟩)
        · rw [RegisterPointers.respond, if_pos hcommand] at hresponse
          cases hresponse
        · omega
        · rw [hvalue] at hi
          cases hi
      · intro c hc
        injection hc with hc
        injection hc with hc
        exact hc.symm
  | outOfRange hlen hvalue hoob =>
      exact hrefused _ (by decide)
        (Or.inr (Or.inr ⟨_, hvalue, Or.inl hoob⟩))
  | read hcommand haddress =>
      exact hagreed rfl (haddress.not_refuses (Or.inl hcommand))
        fun c hc => absurd hc (haddress.read_not_thrown hdata hempty c)
  | noValue hcommand haddress hlen =>
      exact hrefused _ (by decide)
        (Or.inr (Or.inr ⟨_, haddress.right.left, Or.inr ⟨hcommand, hlen⟩⟩))
  | unmapped hcommand haddress hlen hpointer =>
      exact hagreed rfl (haddress.not_refuses (Or.inr ⟨hcommand, hlen⟩))
        fun c hc => absurd hc (haddress.echo_not_thrown hdata hempty c)
  | badValue hcommand haddress hlen hpointer hvalue =>
      refine hagreed rfl (haddress.not_refuses (Or.inr ⟨hcommand, hlen⟩)) ?_
      intro c hc
      injection hc with hc
      injection hc with hc
      exact hc.symm
  | write hcommand haddress hlen hpointer hvalue =>
      exact hagreed rfl (haddress.not_refuses (Or.inr ⟨hcommand, hlen⟩))
        fun c hc => absurd hc (haddress.echo_not_thrown hdata hempty c)

section Maps

variable {block : RegisterBlock width} {pointers : RegisterPointers width}
  {ascVersion appVersion command : UInt8} {dataLen : Nat}
  {s : HandlerState (World width)}

theorem MapsBlock.handlersAgree_iff (h : MapsBlock pointers block)
    (charSigned : Bool) (hempty : s.asc.outBuf.contents = []) :
    HandlersAgree charSigned block pointers ascVersion appVersion command
        dataLen s <->
      (Refuses width block.nRegs
          (Asc.messageOf ascVersion appVersion command s.data dataLen) ->
        Quotable
          (Asc.messageOf ascVersion appVersion command s.data dataLen)) := by
  generalize hm : Asc.messageOf ascVersion appVersion command s.data dataLen = m
  have hlen := Asc.messageOf_data_length hm
  have hdata : Holds s.data m := by
    rw [Holds, hlen, ← hm]
    rfl
  have hagrees := block.toPointers.agrees_iff hdata hempty
  rw [HandlersAgree, RegisterBlock.handleMessage_eq,
    RegisterPointers.handleMessage_eq, h.respond_eq, hm]
  rw [hlen, ← hm] at hagrees
  rw [← hm]
  exact hagrees

/-- **The two handlers agree** on a message exactly when they do not refuse it
or can quote it.  They agree on every message that a receiver reports, unless it
ignores checksums and the first period of its frame is within the header. -/
theorem handlersAgree_iff_quotable (h : MapsBlock pointers block)
    (charSigned : Bool) :
    (forall (ascVersion appVersion command : UInt8) (dataLen : Nat)
        (s : HandlerState (World width)),
      s.asc.outBuf.contents = [] ->
      (HandlersAgree charSigned block pointers ascVersion appVersion command
          dataLen s <->
        (Refuses width block.nRegs
            (Asc.messageOf ascVersion appVersion command s.data dataLen) ->
          Quotable
            (Asc.messageOf ascVersion appVersion command s.data dataLen)))) ∧
    (forall (r r' : Receiver) (s : HandlerState (World width)),
      (r.asc.ignoreCRCMismatch = false ∨
        4 <= (resync startByte endByte r.asc.inBuf.contents).idxOf
          periodByte) ->
      Receiver.getMessage r = .ok () r' -> r'.received.command ≠ 0 ->
      s.data = r'.received.data -> s.asc.outBuf.contents = [] ->
      HandlersAgree charSigned block pointers r'.received.ascVersion
        r'.received.appVersion r'.received.command r'.received.dataLen s) := by
  constructor
  · intro ascVersion appVersion command dataLen s hempty
    exact h.handlersAgree_iff charSigned hempty
  · intro r r' s hheader hrun hcommand hdata hempty
    rw [h.handlersAgree_iff charSigned hempty, hdata]
    intro _
    exact quotable_of_fields fun _ hb =>
      Receiver.not_reserved_of_getMessage hheader hrun hcommand hb

end Maps

/-- A block of two registers. -/
def twoRegisters : RegisterBlock .one :=
  { block := 0
    nRegs := 2 }

/-- A request to read a register that is not there. -/
def readOutside : HandlerState (World .one) :=
  { asc := Asc.init
    data := Memory.store (fun _ => 0) 0 (['0', '0', '0', '2'].map Char.toUInt8)
    world :=
      { words := fun _ => 0
        streamingIsOn := false } }

theorem handlersAgree_iff_quotable_readOutside :
    HandlersAgree true twoRegisters twoRegisters.toPointers '0'.toUInt8
      '0'.toUInt8 'r'.toUInt8 4 readOutside := by
  have hempty : readOutside.asc.outBuf.contents = [] := rfl
  have hquotable : Quotable (Asc.messageOf '0'.toUInt8 '0'.toUInt8 'r'.toUInt8
      readOutside.data 4) := by decide +kernel
  have hagree := (handlersAgree_iff_quotable
    (mapsBlock_toPointers twoRegisters) true).left '0'.toUInt8 '0'.toUInt8
    'r'.toUInt8 4 readOutside hempty
  exact hagree.mpr fun _ => hquotable

/-!
## A short frame that is not checked
-/

/-- A frame that ends within its header, and another one behind it. -/
def shortFrame : List UInt8 :=
  ['>', '0', '.', 'r', '\n', '>', '.', '0', '0', '0', '0', '0', '\n'].map
    Char.toUInt8

/-- A receiver that ignores checksums and holds the short frame. -/
def holdingShortFrame : Receiver :=
  { Receiver.holding shortFrame with
    asc :=
      { (Receiver.holding shortFrame).asc with
        ignoreCRCMismatch := true } }

/-- What is taken for its data begins with the delimiters between the frames. -/
def shortFrameReceived : Received :=
  { ascVersion := '0'.toUInt8
    appVersion := periodByte
    command := 'r'.toUInt8
    data := Memory.store (fun _ => 0) 0 [endByte, startByte]
    dataLen := 2 }

theorem getMessage_shortFrame :
    exists b : RingBuffer maxMessageLen,
      Receiver.getMessage holdingShortFrame =
        .ok () (holdingShortFrame.withIn b shortFrameReceived) := by
  have hc : holdingShortFrame.asc.inBuf.contents = shortFrame :=
    Receiver.holding_contents _ (by decide)
  rcases Receiver.getMessage_eq_getFrame (r := holdingShortFrame) (by
    rw [← RingBuffer.length_contents, hc]
    decide) with ⟨b, hb, hrun⟩
  have hresync : resync startByte endByte shortFrame = shortFrame := by decide
  rw [hc, hresync] at hb
  have hchecksum : (if holdingShortFrame.asc.ignoreCRCMismatch then .ok []
      else computeChecksum false b) = .ok [] := rfl
  have hframe : Receiver.getFrame (holdingShortFrame.withIn b Received.blank) =
      Receiver.popFrame true 2 []
        (holdingShortFrame.withIn b Received.blank) := by
    have hkept : b.contents = startByte :: (['0'.toUInt8] ++ periodByte ::
        (['r'.toUInt8] ++ endByte :: shortFrame.drop 5)) := hb
    exact Receiver.getFrame_eq_popFrame
      (r := holdingShortFrame.withIn b Received.blank) hkept (by decide)
      (by decide) hchecksum
  have hleaves : Receiver.Leaves (holdingShortFrame.withIn b Received.blank)
      (.ok ()) [] shortFrameReceived
      (Receiver.popFrame true 2 []
        (holdingShortFrame.withIn b Received.blank)) := by
    have hkept : b.contents = startByte :: '0'.toUInt8 :: periodByte ::
        'r'.toUInt8 :: ([endByte, startByte] ++ periodByte :: '0'.toUInt8 ::
          shortFrame.drop 8) := hb
    exact Receiver.leaves_popFrame_of_next
      (r := holdingShortFrame.withIn b Received.blank) hkept (by decide)
      (by decide) fun b' hb' =>
        Receiver.leaves_popTail_of_end (r := Receiver.withIn _ b' _) true hb'
          (by decide)
  rcases hleaves.eq_ok with ⟨b', -, hok⟩
  exact ⟨b', (hrun Received.blank).trans (hframe.trans hok)⟩

/-- The error frame takes the start of the second frame for its own. -/
theorem not_handlersAgree_of_shortFrame :
    exists r' : Receiver, Receiver.getMessage holdingShortFrame = .ok () r' ∧
      ¬ HandlersAgree true twoRegisters twoRegisters.toPointers
        r'.received.ascVersion r'.received.appVersion r'.received.command
        r'.received.dataLen
        { asc := r'.asc
          data := r'.received.data
          world :=
            { words := fun _ => 0
              streamingIsOn := false } } := by
  rcases getMessage_shortFrame with ⟨b, hrun⟩
  refine ⟨_, hrun, ?_⟩
  intro hagree
  have hempty : holdingShortFrame.asc.outBuf.contents = [] := rfl
  have hrefuses : Refuses .one twoRegisters.nRegs shortFrameReceived.message :=
    Or.inr (Or.inl (by decide))
  have hquotable : Quotable shortFrameReceived.message :=
    ((mapsBlock_toPointers twoRegisters).handlersAgree_iff true hempty).mp hagree
      hrefuses
  revert hquotable
  decide +kernel

end AsciiSerialCom
