import AsciiSerialCom.Device.Polling
import AsciiSerialCom.Device.WriteProtection
import AsciiSerialCom.SerialCom.Stream
import AsciiSerialCom.SerialCom.StreamNumbers

/-!
# Streaming from the polling loop

The macros of `asc_helpers.h` with which a program in the polling loop streams.
A streaming message is put only while streaming is on and nothing is queued;
whatever else the output carries are answers.  So what leaves the device is the
frames of answers and streaming messages, the latter in order and numbered
without gaps.
-/

namespace AsciiSerialCom

open Foundation
open Foundation.StateError

variable {width : RegWidth}

/-!
## The switch
-/

/-- The message is one for `_handle_nf_messages`. -/
def Message.Switches (m : Message) : Prop :=
  m.command = 'n'.toUInt8 ∨ m.command = 'f'.toUInt8

instance (m : Message) : Decidable m.Switches :=
  inferInstanceAs (Decidable (_ ∨ _))

/-- What a message leaves the switch at. -/
def switchedBy (on : Bool) (m : Message) : Bool :=
  if m.command = 'n'.toUInt8 then
    true
  else if m.command = 'f'.toUInt8 then
    false
  else
    on

/-- What several messages leave the switch at. -/
def switched (on : Bool) (ms : List Message) : Bool := ms.foldl switchedBy on

theorem switched_append (on : Bool) (first second : List Message) :
    switched on (first ++ second) = switched (switched on first) second :=
  List.foldl_append

theorem switchedBy_of_not_switches {m : Message} (h : ¬ m.Switches)
    (on : Bool) : switchedBy on m = on := by
  rw [switchedBy, if_neg fun hn => h (Or.inl hn),
    if_neg fun hf => h (Or.inr hf)]

theorem handleNfMessages_eq (ascVersion appVersion command : UInt8)
    (dataLen : Nat) {m : Message} (hcommand : m.command = command)
    (s : HandlerState (World width)) :
    handleNfMessages ascVersion appVersion command dataLen s =
      .ok ()
        { s with
          world :=
            { s.world with
              streamingIsOn := switchedBy s.world.streamingIsOn m } } := by
  subst hcommand
  rw [handleNfMessages, switchedBy]
  split
  · rfl
  · split <;> rfl

/-!
## The receiving function of a device that streams
-/

namespace Device

section Declared

variable {charSigned : Bool} {state : RegisterPointers width}
  {ascd : Device (World width)} {m : Message} {rest : List UInt8}

theorem guards_declaredConfig (charSigned : Bool)
    (state : RegisterPointers width) :
    Guards (declaredConfig charSigned state) charSigned state := by
  refine ⟨rfl, ?_, ?_⟩
  · intro handler h
    cases h
  · intro handler h
    cases h
    exact keepsRegisters_handleNfMessages

/-- The answer that the next call puts, if any. -/
def declaredAnswer (state : RegisterPointers width)
    (ascd : Device (World width)) : Option Message :=
  match (decode ascd.receiver.asc.inBuf.contents).1 with
  | .message m =>
      if m.Switches then
        none
      else
        (respondTo (some (some state)) m
          (Received.ofMessage ascd.receiver.received.data m).data
          ascd.world.words).bind fun response => response.answer m
  | _ => none

/-- The answer that the next call puts fits behind an unwrapped backlog. -/
def AnswerFits (state : RegisterPointers width)
    (ascd : Device (World width)) : Prop :=
  (declaredAnswer state ascd).all (fun a =>
    ascd.receiver.asc.HasRoom a.data.length ∧
      ascd.receiver.asc.Unwrapped) = true

instance (state : RegisterPointers width) (ascd : Device (World width)) :
    Decidable (AnswerFits state ascd) :=
  inferInstanceAs (Decidable (_ = true))

theorem receive_of_switch (hcrc : ascd.receiver.asc.ignoreCRCMismatch = false)
    (hd : decode ascd.receiver.asc.inBuf.contents = (.message m, rest))
    (hm : m.Switches) :
    exists b : RingBuffer maxMessageLen, b.contents = rest ∧
      receive (declaredConfig charSigned state) ascd =
        .ok ()
          { ascd.gotMessage m b with
            world :=
              { ascd.world with
                streamingIsOn := switchedBy ascd.world.streamingIsOn m } } := by
  rcases receive_of_message (declaredConfig charSigned state) hcrc hd with
    ⟨b, hb, hrun⟩
  refine ⟨b, hb, ?_⟩
  have hcommand : m.command ≠ 0 ∧
      ¬ (m.command = 'r'.toUInt8 ∨ m.command = 'w'.toUInt8) ∧
        m.command ≠ 's'.toUInt8 := by
    rcases hm with hn | hf
    · rw [hn]
      decide
    · rw [hf]
      decide
  rcases hcommand with ⟨hzero, hrw, hs⟩
  have hnf : m.command = 'n'.toUInt8 ∨ m.command = 'f'.toUInt8 := hm
  have hgot : (ascd.gotMessage m b).receiver.received.command = m.command := rfl
  have hdispatch : dispatch (declaredConfig charSigned state)
      (ascd.gotMessage m b) =
      call handleNfMessages (ascd.gotMessage m b) := by
    rw [dispatch, bind_of_ok (get_apply _), hgot,
      if_neg hzero, if_neg hrw, if_neg hs, if_pos hnf]
    rfl
  rw [hrun]
  refine hdispatch.trans ?_
  exact zoom_of_ok (handleNfMessages_eq _ _ _ _ hgot.symm _)

theorem reacts_declared (hcommand : m.command ≠ 0) (hm : ¬ m.Switches)
    {response : Response width}
    (h : respondTo (some (some state)) m
      (Received.ofMessage ascd.receiver.received.data m).data
      ascd.world.words = some response) (b : RingBuffer maxMessageLen) :
    Reacts (declaredConfig charSigned state) (ascd.gotMessage m b) m
      response := by
  rw [respondTo] at h
  by_cases hrw : m.command = 'r'.toUInt8 ∨ m.command = 'w'.toUInt8
  · rw [if_pos hrw] at h
    injection h with h
    subst h
    exact reacts_of_request rfl hrw
  · rw [if_neg hrw] at h
    by_cases hz : m.command = 'z'.toUInt8
    · rw [if_pos hz] at h
      cases h
    · rw [if_neg hz] at h
      injection h with h
      subst h
      apply reacts_of_notImplemented
      rcases dispatch_cases (declaredConfig charSigned state) ascd m b with
        ⟨hzero | hnoop, -⟩ | ⟨-, handler, hhandler, hrun⟩
      · exact absurd hzero hcommand
      · exact absurd hnoop hz
      · rw [hrun]
        cases hhandler with
        | rw h => exact absurd h hrw
        | s h hs => rfl
        | nf h hnf => exact absurd hnf hm
        | other h => rfl

/-- An answer is no streaming message. -/
theorem command_of_answer {data : Memory UInt8} {words : Memory width.Reg}
    (hm : m.Valid) {response : Response width}
    (h : respondTo (some (some state)) m data words = some response)
    {a : Message} (ha : response.answer m = some a) :
    a.command ≠ 's'.toUInt8 ∧ a.command ≠ 0 := by
  rw [respondTo] at h
  have herror (e : AscException)
      (ha : (Response.refused e : Response width).answer m = some a) :
      a.command ≠ 's'.toUInt8 ∧ a.command ≠ 0 := by
    injection ha with ha
    rw [← ha]
    exact (by decide : 'e'.toUInt8 ≠ 's'.toUInt8 ∧ 'e'.toUInt8 ≠ 0)
  split at h
  · rename_i hrw
    cases response with
    | refused e => exact herror e ha
    | replied out len words' =>
        injection ha with ha
        rw [← ha]
        refine ⟨?_, hm.command_ne⟩
        rcases hrw with hr | hw
        · simp only [Asc.messageOf, hr]
          decide
        · simp only [Asc.messageOf, hw]
          decide
    | thrown e => cases ha
  · split at h
    · cases h
    · injection h with h
      rw [← h] at ha
      exact herror _ ha

theorem declaredAnswer_valid {a : Message}
    (h : declaredAnswer state ascd = some a) :
    a.Valid ∧ a.command ≠ 's'.toUInt8 := by
  rw [declaredAnswer] at h
  split at h
  · rename_i m hd
    have hm : m.Valid := (valid_of_decode hd).left
    split at h
    · cases h
    · rcases Option.bind_eq_some_iff.mp h with ⟨response, hresponse, ha⟩
      rcases command_of_answer hm hresponse ha with ⟨hs, hzero⟩
      exact ⟨⟨sendable_of_respondTo (holds_ofMessage _ m) hm.toSendable
        hresponse ha, hzero⟩, hs⟩
  · cases h

/-- What a call does to everything that a streaming program depends on. -/
structure Handled (state : RegisterPointers width)
    (ascd after : Device (World width)) : Prop where
  inBuf_eq : after.receiver.asc.inBuf.contents =
    (decode ascd.receiver.asc.inBuf.contents).2
  outBuf_eq : after.receiver.asc.outBuf.contents =
    ascd.receiver.asc.outBuf.contents ++
      framesOf (declaredAnswer state ascd).toList
  counter_eq : after.receiver.asc.sendStreamFrameCounter =
    ascd.receiver.asc.sendStreamFrameCounter
  checks : after.receiver.asc.ignoreCRCMismatch = false
  streamingIsOn_eq : after.world.streamingIsOn =
    switched ascd.world.streamingIsOn
      (decode ascd.receiver.asc.inBuf.contents).1.reported

/-- A call that puts no answer. -/
theorem handled_of_no_answer {after : Device (World width)}
    (hanswer : declaredAnswer state ascd = none)
    (hin : after.receiver.asc.inBuf.contents =
      (decode ascd.receiver.asc.inBuf.contents).2)
    (hasc : after.receiver.asc =
      { ascd.receiver.asc with inBuf := after.receiver.asc.inBuf })
    (hcrc : ascd.receiver.asc.ignoreCRCMismatch = false)
    (hon : after.world.streamingIsOn =
      switched ascd.world.streamingIsOn
        (decode ascd.receiver.asc.inBuf.contents).1.reported) :
    Handled state ascd after := by
  refine ⟨hin, ?_, ?_, ?_, hon⟩
  · rw [hasc, hanswer]
    exact (List.append_nil _).symm
  · rw [hasc]
  · rw [hasc]
    exact hcrc

/-- **One call**: if its answer fits, it stays within its memory, appends the
answer to the output and does to the switch what its message says. -/
theorem receive_handled (charSigned : Bool)
    (hcrc : ascd.receiver.asc.ignoreCRCMismatch = false)
    (hfits : AnswerFits state ascd) :
    let result := receive (declaredConfig charSigned state) ascd
    Result.outcome result ≠ .error .outOfBounds ∧
      Handled state ascd (Result.state result) := by
  intro result
  rcases hd : decode ascd.receiver.asc.inBuf.contents with ⟨d, rest⟩
  have hrest : (decode ascd.receiver.asc.inBuf.contents).2 = rest := by rw [hd]
  cases d with
  | nothing =>
      rcases receive_of_nothing (declaredConfig charSigned state) hcrc hd with
        ⟨b, received, hb, hrun⟩
      have hanswer : declaredAnswer state ascd = none := by
        rw [declaredAnswer, hd]
      have hresult : result = .ok () (ascd.withIn b received) := hrun
      rw [hresult]
      refine ⟨by simp, handled_of_no_answer hanswer (hb.trans hrest.symm) rfl
        hcrc ?_⟩
      rw [hd]
      rfl
  | thrown e =>
      rcases receive_of_thrown (declaredConfig charSigned state) hcrc hd with
        ⟨b, received, hb, hrun⟩
      have hanswer : declaredAnswer state ascd = none := by
        rw [declaredAnswer, hd]
      have hresult : result =
          .error (.exception e) (ascd.withIn b received) := hrun
      rw [hresult]
      refine ⟨by simp, handled_of_no_answer hanswer (hb.trans hrest.symm) rfl
        hcrc ?_⟩
      rw [hd]
      rfl
  | message m =>
      have hm : m.Valid := (valid_of_decode (congrArg Prod.fst hd)).left
      by_cases hswitch : m.Switches
      · rcases @receive_of_switch width charSigned state ascd m rest hcrc hd
          hswitch with ⟨b, hb, hrun⟩
        have hanswer : declaredAnswer state ascd = none := by
          rw [declaredAnswer, hd]
          exact if_pos hswitch
        have hresult : result = _ := hrun
        rw [hresult]
        refine ⟨by simp, handled_of_no_answer hanswer (hb.trans hrest.symm) rfl
          hcrc ?_⟩
        rw [hd]
        rfl
      -- no other message has an effect on the switch
      have hon : ascd.world.streamingIsOn =
          switched ascd.world.streamingIsOn
            (decode ascd.receiver.asc.inBuf.contents).1.reported := by
        rw [hd]
        exact (switchedBy_of_not_switches hswitch _).symm
      cases hresponse : respondTo (some (some state)) m
          (Received.ofMessage ascd.receiver.received.data m).data
          ascd.world.words with
      | none =>
          rcases receive_of_message (declaredConfig charSigned state) hcrc
            hd with ⟨b, hb, hrun⟩
          have hanswer : declaredAnswer state ascd = none := by
            rw [declaredAnswer, hd]
            simp only
            rw [if_neg hswitch, hresponse]
            rfl
          have hresult : result = .ok () (ascd.gotMessage m b) :=
            hrun.trans (dispatch_of_noop (command_of_respondTo_none hresponse))
          rw [hresult]
          exact ⟨by simp, handled_of_no_answer hanswer (hb.trans hrest.symm)
            rfl hcrc hon⟩
      | some response =>
          have hreacts := fun b =>
            @reacts_declared width charSigned state ascd m hm.command_ne
              hswitch response hresponse b
          have hnext : declaredAnswer state ascd = response.answer m := by
            rw [declaredAnswer, hd]
            simp only
            rw [if_neg hswitch, hresponse]
            rfl
          cases ha : response.answer m with
          | none =>
              cases response with
              | refused e => cases ha
              | replied data dataLen words => cases ha
              | thrown e =>
                  rcases receive_of_no_answer hcrc hd hreacts with
                    ⟨b, hb, hrun⟩
                  have hresult : result =
                      .error (.exception e) (ascd.gotMessage m b) := hrun
                  rw [hresult]
                  exact ⟨by simp, handled_of_no_answer (hnext.trans ha)
                    (hb.trans hrest.symm) rfl hcrc hon⟩
          | some a =>
              rw [AnswerFits, hnext, ha, Option.all_some,
                decide_eq_true_iff] at hfits
              rcases receive_of_answer hcrc hd hreacts ha
                (sendable_of_respondTo (holds_ofMessage _ m) hm.toSendable
                  hresponse ha) hfits.left hfits.right with
                ⟨b, out, hb, hout, hrun⟩
              have hresult : result =
                  .ok () (ascd.afterResponse m response b out) := hrun
              rw [hresult]
              refine ⟨by simp, hb.trans hrest.symm, ?_, rfl, hcrc, ?_⟩
              · rw [hnext, ha, Option.toList_some, framesOf_singleton]
                exact hout
              · refine Eq.trans ?_ hon
                cases response <;> rfl

/-- A call that throws leaves the registers and the switch alone. -/
theorem world_of_error (hcrc : ascd.receiver.asc.ignoreCRCMismatch = false)
    (hfits : AnswerFits state ascd) {e : Failure} {after : Device (World width)}
    (hrun : receive (declaredConfig charSigned state) ascd = .error e after) :
    after.world = ascd.world := by
  rcases hd : decode ascd.receiver.asc.inBuf.contents with ⟨d, rest⟩
  cases d with
  | nothing =>
      rcases receive_of_nothing (declaredConfig charSigned state) hcrc hd with
        ⟨b, received, -, hok⟩
      cases hok.symm.trans hrun
  | thrown e' =>
      rcases receive_of_thrown (declaredConfig charSigned state) hcrc hd with
        ⟨b, received, -, herror⟩
      cases herror.symm.trans hrun
      rfl
  | message m =>
      have hm : m.Valid := (valid_of_decode (congrArg Prod.fst hd)).left
      by_cases hswitch : m.Switches
      · rcases @receive_of_switch width charSigned state ascd m rest hcrc hd
          hswitch with ⟨b, -, hok⟩
        cases hok.symm.trans hrun
      cases hresponse : respondTo (some (some state)) m
          (Received.ofMessage ascd.receiver.received.data m).data
          ascd.world.words with
      | none =>
          rcases receive_of_message (declaredConfig charSigned state) hcrc
            hd with ⟨b, -, hdispatch⟩
          have hok := hdispatch.trans
            (dispatch_of_noop (command_of_respondTo_none hresponse))
          cases hok.symm.trans hrun
      | some response =>
          have hreacts := fun b =>
            @reacts_declared width charSigned state ascd m hm.command_ne
              hswitch response hresponse b
          cases ha : response.answer m with
          | none =>
              cases response with
              | refused e' => cases ha
              | replied data dataLen words => cases ha
              | thrown e' =>
                  rcases receive_of_no_answer hcrc hd hreacts with
                    ⟨b, -, herror⟩
                  cases herror.symm.trans hrun
                  rfl
          | some a =>
              have hnext : declaredAnswer state ascd = some a := by
                rw [declaredAnswer, hd]
                simp only
                rw [if_neg hswitch, hresponse]
                exact ha
              rw [AnswerFits, hnext, Option.all_some, decide_eq_true_iff]
                at hfits
              rcases receive_of_answer hcrc hd hreacts ha
                (sendable_of_respondTo (holds_ofMessage _ m) hm.toSendable
                  hresponse ha) hfits.left hfits.right with
                ⟨b, out, -, -, hok⟩
              cases hok.symm.trans hrun

/-- Masked bits are kept by a call. -/
theorem receive_maskedBitsKept (charSigned : Bool)
    (hdistinct : state.Distinct)
    (hcrc : ascd.receiver.asc.ignoreCRCMismatch = false) :
    MaskedBitsKept state ascd.world.words
      (Result.state (receive (declaredConfig charSigned state)
        ascd)).world.words :=
  (step_protects (guards_declaredConfig charSigned state) hdistinct hcrc
    .receive).right.right

end Declared

/-- `ascii_serial_com_device_put_s_message_in_output_buffer` -/
def putSMessage {ω : Type _} (ascVersion appVersion : UInt8)
    (data : Memory UInt8) (dataLen : Nat) : DeviceM ω Unit :=
  zoom (fun ascd => ascd.receiver.asc)
    (fun asc ascd => { ascd with receiver := { ascd.receiver with asc := asc } })
    (Asc.putSMessage ascVersion appVersion data dataLen)

end Device

/-!
## The macros
-/

namespace Polling

def streamingIsOn (s : Polling width) : Bool := s.ascd.world.streamingIsOn

/-- `READY_TO_STREAM_ASC_DEVICE_W_REGISTER_POINTERS` -/
def readyToStream (s : Polling width) : Bool :=
  s.streamingIsOn && s.outBuf.getSize == 0

/-- `STREAM_TO_HOST_ASC_DEVICE_W_REGISTER_POINTERS` -/
def streamToHost (data : Memory UInt8) (dataSize : Nat) :
    PollingM width Unit :=
  zoom ascd (fun ascd s => { s with ascd := ascd })
    (Device.putSMessage '0'.toUInt8 '0'.toUInt8 data dataSize)

/-- The loop once a streaming message has been put. -/
def streamed (out : RingBuffer maxMessageLen) (s : Polling width) :
    Polling width :=
  let asc := s.ascd.receiver.asc
  { s with
    ascd :=
      { s.ascd with
        receiver :=
          { s.ascd.receiver with
            asc :=
              { asc with
                outBuf := out
                sendStreamFrameCounter := asc.sendStreamFrameCounter + 1 } } } }

/-- The streaming message that the next use of the macro puts. -/
def nextStreamMessage (s : Polling width) (payload : List UInt8) : Message :=
  Asc.streamMessage '0'.toUInt8 '0'.toUInt8
    s.ascd.receiver.asc.sendStreamFrameCounter payload

variable {s : Polling width}

theorem nextStreamMessage_valid (s : Polling width) {payload : List UInt8}
    (hlen : payload.length <= maxSPayloadLen)
    (hfree : forall b, b ∈ payload -> ¬ Reserved b) :
    (s.nextStreamMessage payload).Valid := by
  have hcommand : 's'.toUInt8 ≠ 0 := by decide
  refine ⟨streamMessage_sendable ?_ hlen, hcommand⟩
  intro b hb
  simp only [List.mem_cons] at hb
  rcases hb with rfl | rfl | hb
  · decide
  · decide
  · exact hfree b hb

theorem outBuf_of_ready (h : s.readyToStream = true) :
    s.outBuf.contents = [] := by
  rw [readyToStream, Bool.and_eq_true, beq_iff_eq, ← s.outBuf.length_contents,
    List.length_eq_zero_iff] at h
  exact h.right

/-- **A program that is ready to stream can stream**: the macro returns, and the
frame of its message is all that is queued. -/
theorem streamToHost_of_ready (hready : s.readyToStream = true)
    {data : Memory UInt8} {dataSize : Nat} (hlen : dataSize <= maxSPayloadLen)
    (hfree : forall b, b ∈ Memory.slice data 0 dataSize -> ¬ Reserved b) :
    exists out : RingBuffer maxMessageLen,
      out.contents =
          (s.nextStreamMessage (Memory.slice data 0 dataSize)).frame ∧
        streamToHost data dataSize s = .ok () (s.streamed out) := by
  have hempty := outBuf_of_ready hready
  let asc := s.ascd.receiver.asc
  rcases Asc.putSMessage_eq '0'.toUInt8 '0'.toUInt8 data hlen asc with
    ⟨outData, hm, hrun⟩
  let counted : Asc :=
    { asc with sendStreamFrameCounter := asc.sendStreamFrameCounter + 1 }
  have hsendable : (s.nextStreamMessage (Memory.slice data 0
      dataSize)).Sendable :=
    (nextStreamMessage_valid s (by rw [Memory.slice_length]; exact hlen)
      hfree).toSendable
  have houtEmpty : counted.outBuf.contents = [] := hempty
  have hfit : dataSize + 3 <= maxDataLen := by
    have hmax : maxDataLen = maxSPayloadLen + 3 := rfl
    omega
  rcases Asc.putMessage_of_unwrapped hm hsendable.startByte_not_mem_fields
    (Asc.hasRoom_of_empty houtEmpty hfit) (Asc.unwrapped_of_empty houtEmpty)
    with ⟨out, hput, hout, -⟩
  rw [houtEmpty, List.nil_append] at hout
  have hdevice : Device.putSMessage '0'.toUInt8 '0'.toUInt8 data dataSize
      s.ascd = .ok ()
        { s.ascd with
          receiver :=
            { s.ascd.receiver with asc := { counted with outBuf := out } } } :=
    zoom_of_ok (hrun.trans hput)
  exact ⟨out, hout, zoom_of_ok hdevice⟩

theorem receive_state (config : DeviceConfig (World width))
    (s : Polling width) :
    Result.state (receive config s) =
      { s with ascd := Result.state (Device.receive config s.ascd) } :=
  zoom_state _ _ _ _

/-- Either nothing is transmitted, or the first byte queued is. -/
theorem uartTxFromCircBuf_cases (s : Polling width) :
    ¬ (s.uartReady = true ∧ s.outBuf.contents ≠ []) ∧
        uartTxFromCircBuf s = .ok () s ∨
      exists (b : UInt8) (out : RingBuffer maxMessageLen),
        s.outBuf.contents = b :: out.contents ∧
          uartTxFromCircBuf s =
            .ok ()
              { s.withOutBuf out with
                uartReady := false
                transmitted := s.transmitted ++ [b] } := by
  by_cases h : s.uartReady = true ∧ ¬ s.outBuf.isEmpty = true
  · have hne : s.outBuf.contents ≠ [] := mt s.outBuf.isEmpty_iff.mpr h.right
    rcases List.exists_cons_of_ne_nil hne with ⟨b, rest, hout⟩
    rcases RingBuffer.popFront_of_cons hout with ⟨out, hpop, hrest⟩
    have hzoom : zoom outBuf withOutBuf RingBuffer.popFront s =
        .ok b (s.withOutBuf out) := zoom_of_ok hpop
    refine Or.inr ⟨b, out, by rw [hout, hrest], ?_⟩
    rw [uartTxFromCircBuf, bind_of_ok (get_apply s), if_pos h, bind_of_ok hzoom]
    rfl
  · refine Or.inl ⟨?_, ?_⟩
    · rintro ⟨hready, hne⟩
      exact h ⟨hready, mt s.outBuf.isEmpty_iff.mp hne⟩
    · rw [uartTxFromCircBuf, bind_of_ok (get_apply s), if_neg h]
      rfl

/-- Either there is nothing to move, or the first byte that waits is moved. -/
theorem moveInput_cases (s : Polling width) :
    s.extraInputBuffer.contents = [] ∧ moveInput s = .ok () s ∨
      exists (b : UInt8) (extra : RingBuffer extraInputBufferSize),
        s.extraInputBuffer.contents = b :: extra.contents ∧
          moveInput s =
            .ok ()
              (withInBuf (s.inBuf.pushBack b)
                { s with extraInputBuffer := extra }) := by
  cases hextra : s.extraInputBuffer.contents with
  | nil =>
      refine Or.inl ⟨rfl, ?_⟩
      rw [moveInput, bind_of_ok (get_apply s),
        if_neg fun h => h (s.extraInputBuffer.isEmpty_iff.mpr hextra)]
      rfl
  | cons b rest =>
      rcases RingBuffer.popFront_of_cons hextra with ⟨extra, hpop, hrest⟩
      have hne : ¬ s.extraInputBuffer.isEmpty = true := by
        rw [s.extraInputBuffer.isEmpty_iff, hextra]
        exact List.cons_ne_nil b rest
      have hzoom : zoom extraInputBuffer
          (fun b s => { s with extraInputBuffer := b }) RingBuffer.popFront s =
          .ok b { s with extraInputBuffer := extra } := zoom_of_ok hpop
      refine Or.inr ⟨b, extra, by rw [hrest], ?_⟩
      rw [moveInput, bind_of_ok (get_apply s), if_pos hne, bind_of_ok hzoom]
      rfl

end Polling

/-!
## What leaves the device
-/

/-- The streaming messages with the given payloads, numbered from zero. -/
def streamOf (payloads : List (List UInt8)) : List Message :=
  payloads.mapIdx fun n payload =>
    Asc.streamMessage '0'.toUInt8 '0'.toUInt8 (UInt8.ofNat n) payload

theorem streamOf_append (payloads : List (List UInt8))
    (payload : List UInt8) :
    streamOf (payloads ++ [payload]) =
      streamOf payloads ++
        [Asc.streamMessage '0'.toUInt8 '0'.toUInt8
          (UInt8.ofNat payloads.length) payload] := by
  simp [streamOf]

/-- The streaming messages among some messages. -/
def streamPart (log : List Message) : List Message :=
  log.filter fun m => m.command = 's'.toUInt8

/-- The bytes transmitted and queued are the frames of the messages in the log.
Its streaming messages carry the given payloads, in order. -/
structure Logs (s : Polling width) (payloads : List (List UInt8))
    (log : List Message) : Prop where
  checks : s.Checks
  valid : forall m, m ∈ log -> m.Valid
  output_eq : s.transmitted ++ s.outBuf.contents = framesOf log
  stream_eq : streamPart log = streamOf payloads
  counter_eq : s.ascd.receiver.asc.sendStreamFrameCounter =
    UInt8.ofNat payloads.length

namespace Logs

open Polling

variable {s : Polling width} {payloads : List (List UInt8)}
  {log : List Message} {charSigned : Bool} {state : RegisterPointers width}

theorem setup (ascd : Device (World width)) (uartReady : Bool) :
    Logs (Polling.setup ascd uartReady) [] [] := by
  refine ⟨rfl, ?_, rfl, rfl, rfl⟩
  intro m hm
  cases hm

theorem uartTxFromCircBuf (h : Logs s payloads log) :
    exists s', Polling.uartTxFromCircBuf s = .ok () s' ∧
      Logs s' payloads log ∧ s'.ascd.world = s.ascd.world := by
  rcases uartTxFromCircBuf_cases s with ⟨-, hrun⟩ | ⟨b, out, hout, hrun⟩
  · exact ⟨s, hrun, h, rfl⟩
  · refine ⟨_, hrun, ?_, rfl⟩
    have houtput := h.output_eq
    rw [hout] at houtput
    refine ⟨h.checks, h.valid, ?_, h.stream_eq, h.counter_eq⟩
    rw [← houtput]
    exact List.append_assoc _ _ _

theorem moveInput (h : Logs s payloads log) :
    exists s', Polling.moveInput s = .ok () s' ∧ Logs s' payloads log ∧
      s'.ascd.world = s.ascd.world := by
  rcases moveInput_cases s with ⟨-, hrun⟩ | ⟨b, extra, -, hrun⟩
  · exact ⟨s, hrun, h, rfl⟩
  · exact ⟨_, hrun, { h with }, rfl⟩

/-- The receiving function logs its answer. -/
theorem receive (h : Logs s payloads log)
    (hfits : Device.AnswerFits state s.ascd) :
    let result := Polling.receive (declaredConfig charSigned state) s
    Result.outcome result ≠ .error .outOfBounds ∧
      Logs (Result.state result) payloads
        (log ++ (Device.declaredAnswer state s.ascd).toList) := by
  rcases Device.receive_handled charSigned h.checks hfits with
    ⟨hwithin, hhandled⟩
  simp only
  rw [receive_state]
  refine ⟨?_, hhandled.checks, ?_, ?_, ?_, ?_⟩
  · rw [Polling.receive, zoom_outcome]
    exact hwithin
  · intro m hm
    rcases List.mem_append.mp hm with hm | hm
    · exact h.valid m hm
    · exact (Device.declaredAnswer_valid (Option.mem_toList.mp hm)).left
  · rw [framesOf_append, ← h.output_eq, List.append_assoc]
    exact congrArg (s.transmitted ++ ·) hhandled.outBuf_eq
  · have hanswer : streamPart (Device.declaredAnswer state s.ascd).toList =
        [] := by
      apply List.filter_eq_nil_iff.mpr
      intro a ha
      rw [decide_eq_true_eq]
      exact (Device.declaredAnswer_valid (Option.mem_toList.mp ha)).right
    rw [streamPart, List.filter_append]
    change streamPart log ++ streamPart _ = _
    rw [hanswer, List.append_nil, h.stream_eq]
  · rw [← h.counter_eq]
    exact hhandled.counter_eq

/-- The streaming macro logs its message. -/
theorem streamToHost (h : Logs s payloads log)
    (hready : s.readyToStream = true) {data : Memory UInt8} {dataSize : Nat}
    (hlen : dataSize <= maxSPayloadLen)
    (hfree : forall b, b ∈ Memory.slice data 0 dataSize -> ¬ Reserved b) :
    exists s', Polling.streamToHost data dataSize s = .ok () s' ∧
      Logs s' (payloads ++ [Memory.slice data 0 dataSize])
        (log ++ [s.nextStreamMessage (Memory.slice data 0 dataSize)]) ∧
      s'.ascd.world = s.ascd.world := by
  rcases streamToHost_of_ready hready hlen hfree with ⟨out, hout, hrun⟩
  refine ⟨_, hrun, ?_, rfl⟩
  have hempty := outBuf_of_ready hready
  have hnext : s.nextStreamMessage (Memory.slice data 0 dataSize) =
      Asc.streamMessage '0'.toUInt8 '0'.toUInt8 (UInt8.ofNat payloads.length)
        (Memory.slice data 0 dataSize) := by
    rw [nextStreamMessage, h.counter_eq]
  refine ⟨h.checks, ?_, ?_, ?_, ?_⟩
  · intro m hm
    rcases List.mem_append.mp hm with hm | hm
    · exact h.valid m hm
    · rw [List.mem_singleton.mp hm]
      exact nextStreamMessage_valid s (by rw [Memory.slice_length]; exact hlen)
        hfree
  · have houtput := h.output_eq
    rw [hempty, List.append_nil] at houtput
    rw [framesOf_append, ← houtput, framesOf_singleton, ← hout]
    rfl
  · rw [streamPart, List.filter_append, streamOf_append, ← h.stream_eq, hnext]
    rfl
  · rw [List.length_append, List.length_singleton, UInt8.ofNat_add,
      ← h.counter_eq]
    rfl

end Logs
end AsciiSerialCom
