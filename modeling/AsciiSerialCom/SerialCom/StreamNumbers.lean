import AsciiSerialCom.SerialCom.FailedSends
import AsciiSerialCom.SerialCom.RoundTrip

/-!
# The numbers of stream frames

A streaming message carries the low byte of a counter, by which receivers notice
lost frames.  Whatever else is sent in between, the counter is the number of
streaming messages sent so far, and that is what a receiver reads.
-/

namespace AsciiSerialCom

open Foundation
open Foundation.StateError
open Foundation.Hexadecimal
open Foundation.Run

/-!
## What a streaming message carries
-/

/-- The results of a receiving call are those of the streaming message with
number `n` and the given payload. -/
structure Received.Carries (received : Received) (n : Nat)
    (payload : List UInt8) : Prop where
  command : received.command = 's'.toUInt8
  dataLen : received.dataLen = 3 + payload.length
  upperCase : forall c, c ∈ Memory.slice received.data 0 2 -> IsDigitOf true c
  number : forall charSigned,
    convertHexToUint8 charSigned received.data = .ok (BitVec.ofNat 8 n)
  comma : received.data 2 = ','.toUInt8
  payload : Memory.slice received.data 3 payload.length = payload

section Messages

variable {ascVersion appVersion counter : UInt8} {payload : List UInt8}

theorem streamMessage_sendable
    (hbytes : forall b, b ∈ ascVersion :: appVersion :: payload -> ¬ Reserved b)
    (hlen : payload.length <= maxSPayloadLen) :
    (Asc.streamMessage ascVersion appVersion counter payload).Sendable := by
  constructor
  · intro b hb
    simp only [Asc.streamMessage, Message.fields, List.mem_cons,
      List.mem_append] at hb
    rcases hb with rfl | rfl | rfl | hb | rfl | hb
    · exact hbytes b (by simp)
    · exact hbytes b (by simp)
    · decide
    · exact not_reserved_of_mem_digits hb
    · decide
    · exact hbytes b (by simp [hb])
  · have hmax : maxDataLen = maxSPayloadLen + 3 := rfl
    simp only [Asc.streamMessage, List.length_append, digits_length,
      List.length_cons]
    omega

theorem carries_streamMessage (stale : Memory UInt8) {n : Nat}
    (hn : counter = UInt8.ofNat n) :
    (Received.ofMessage stale
      (Asc.streamMessage ascVersion appVersion counter payload)).Carries n
        payload := by
  let received := Received.ofMessage stale
    (Asc.streamMessage ascVersion appVersion counter payload)
  have hdata : Memory.slice received.data 0 (2 + (1 + payload.length)) =
      digits true 2 counter.toNat ++ ([','.toUInt8] ++ payload) := by
    have hself := Memory.slice_store_self stale 0
      (Asc.streamMessage ascVersion appVersion counter payload).data
    have hlen : (Asc.streamMessage ascVersion appVersion counter
        payload).data.length = 2 + (1 + payload.length) := by
      simp only [Asc.streamMessage, List.length_append, digits_length,
        List.length_cons]
      omega
    rw [hlen] at hself
    exact hself
  rw [Memory.slice_append] at hdata
  rcases List.append_inj hdata (by simp) with ⟨hdigits, hrest⟩
  rw [Memory.slice_append] at hrest
  rcases List.append_inj hrest (by simp) with ⟨hcomma, hpayload⟩
  refine ⟨rfl, ?_, ?_, ?_, ?_, hpayload⟩
  · simp only [Received.ofMessage, Asc.streamMessage, List.length_append,
      digits_length, List.length_cons]
    omega
  · intro c hc
    rw [hdigits] at hc
    exact isDigitOf_of_mem_digits hc
  · intro charSigned
    have hpair : [received.data 0, received.data 1] =
        digits true 2 counter.toNat := hdigits
    have hlt : counter.toNat < 16 ^ 2 := counter.toNat_lt
    have hmod : BitVec.ofNat 8 (n % 2 ^ 8) = BitVec.ofNat 8 n := by
      apply BitVec.eq_of_toNat_eq
      simp
    rw [convertHexToUint8_eq_numeral, hpair, numeral, value_digits true hlt, hn,
      UInt8.toNat_ofNat']
    exact congrArg Except.ok hmod
  · exact (List.cons.inj hcomma).left

end Messages

/-!
## One call
-/

namespace Put

/-- A call counts a frame if it streams and does not get too much data. -/
theorem run_counter (call : Put) (asc : Asc) :
    (Result.state (call.run asc)).sendStreamFrameCounter =
      if call.TooLong then asc.sendStreamFrameCounter else call.counted asc := by
  by_cases hlong : call.TooLong
  · rw [if_pos hlong, run_tooLong hlong, Result.state_error]
  · rw [if_neg hlong]
    rcases run_eq hlong asc with
      ⟨asc₀, ascVersion, appVersion, command, data, dataLen, -, hcounted, hm,
        hrun⟩
    have hlen : dataLen <= maxDataLen := by
      rw [← Asc.messageOf_data_length hm]
      exact (call.framed_length_le_iff asc).mpr hlong
    rw [hrun, Asc.putMessage_eq hm hlen, ← hcounted]
    cases computeChecksum true (asc₀.beforeChecksum (call.framed asc)) <;> rfl

theorem run_of_empty (call : Put) {asc : Asc}
    (hempty : asc.outBuf.contents = []) (hsendable : (call.framed asc).Sendable) :
    exists asc', call.run asc = .ok () asc' ∧
      asc'.outBuf.contents = (call.framed asc).frame := by
  have hlong := (call.framed_length_le_iff asc).mp hsendable.length_le
  rcases run_eq hlong asc with
    ⟨asc₀, ascVersion, appVersion, command, data, dataLen, hout, -, hm, hrun⟩
  have hlen : dataLen <= maxDataLen := by
    rw [← Asc.messageOf_data_length hm]
    exact hsendable.length_le
  rw [hrun]
  exact Asc.putMessage_of_empty hm (hout ▸ hempty) hlen
    hsendable.startByte_not_mem_fields

end Put

/-!
## Runs
-/

/-- A call that sends, made when the output buffer is `outBuf`. -/
structure SendOp where
  outBuf : RingBuffer maxMessageLen
  call : Put

/-- An interface, with the number of streaming messages sent so far. -/
structure Sender where
  asc : Asc
  sent : Nat

namespace Sender

/-- After `ascii_serial_com_init`. -/
def start : Sender :=
  { asc := Asc.init
    sent := 0 }

/-- The interface when the call is made. -/
def before (s : Sender) (op : SendOp) : Asc :=
  { s.asc with outBuf := op.outBuf }

def step (s : Sender) (op : SendOp) : Sender :=
  match op.call.run (s.before op) with
  | .ok _ asc =>
      { asc := asc
        sent :=
          match op.call with
          | .sMessage _ _ _ _ => s.sent + 1
          | .message _ _ _ _ _ => s.sent
          | .error _ _ _ _ _ _ => s.sent }
  | .error _ asc => { s with asc := asc }

/-- What the callers promise of a streaming message: the output buffer is empty,
and no byte is taken for a delimiter. -/
def Admits (_ : Sender) (op : SendOp) : Prop :=
  match op.call with
  | .sMessage ascVersion appVersion data dataLen =>
      op.outBuf.contents = [] ∧
        forall b, b ∈ ascVersion :: appVersion :: Memory.slice data 0 dataLen ->
          ¬ Reserved b
  | .message _ _ _ _ _ => True
  | .error _ _ _ _ _ _ => True

instance : (s : Sender) -> (op : SendOp) -> Decidable (s.Admits op)
  | _, ⟨_, .sMessage _ _ _ _⟩ => inferInstanceAs (Decidable (_ ∧ _))
  | _, ⟨_, .message _ _ _ _ _⟩ => inferInstanceAs (Decidable True)
  | _, ⟨_, .error _ _ _ _ _ _⟩ => inferInstanceAs (Decidable True)

/-- A streaming message arrives with its payload and the number of streaming
messages before it, unless its payload is too long; then it is refused.  No other
call counts. -/
def Numbers (s : Sender) (op : SendOp) : Prop :=
  match op.call with
  | .sMessage _ _ data dataLen =>
      if dataLen <= maxSPayloadLen then
        exists asc', op.call.run (s.before op) = .ok () asc' ∧
          forall (r : Receiver) (later : List UInt8),
            r.asc.ignoreCRCMismatch = false ->
            r.asc.inBuf.contents = asc'.outBuf.contents ++ later ->
            exists r', Receiver.getMessage r = .ok () r' ∧
              r'.asc.inBuf.contents = later ∧
                r'.received.Carries s.sent (Memory.slice data 0 dataLen)
      else
        op.call.run (s.before op) =
          .error (.exception .dataTooLong) (s.before op)
  | .message _ _ _ _ _ =>
      (s.step op).asc.sendStreamFrameCounter = s.asc.sendStreamFrameCounter
  | .error _ _ _ _ _ _ =>
      (s.step op).asc.sendStreamFrameCounter = s.asc.sendStreamFrameCounter

/-- The counter is the low byte of the number of messages sent. -/
def Counted (s : Sender) : Prop :=
  s.asc.sendStreamFrameCounter = UInt8.ofNat s.sent

variable {s : Sender}

theorem step_counter (s : Sender) (op : SendOp) :
    (s.step op).asc.sendStreamFrameCounter =
      if op.call.TooLong then s.asc.sendStreamFrameCounter
      else op.call.counted s.asc := by
  have hstate : (s.step op).asc =
      Result.state (op.call.run (s.before op)) := by
    rw [step]
    cases op.call.run (s.before op) <;> rfl
  rw [hstate, Put.run_counter]
  cases op.call <;> rfl

section StreamingMessage

variable {outBuf : RingBuffer maxMessageLen} {ascVersion appVersion : UInt8}
  {data : Memory UInt8} {dataLen : Nat}

/-- A streaming message that is not too long is queued as its frame. -/
theorem run_sMessage
    (hadmits : s.Admits ⟨outBuf, .sMessage ascVersion appVersion data dataLen⟩)
    (hlen : dataLen <= maxSPayloadLen) :
    let op : SendOp := ⟨outBuf, .sMessage ascVersion appVersion data dataLen⟩
    let m := Asc.streamMessage ascVersion appVersion
      s.asc.sendStreamFrameCounter (Memory.slice data 0 dataLen)
    m.Sendable ∧
      exists asc', op.call.run (s.before op) = .ok () asc' ∧
        asc'.outBuf.contents = m.frame := by
  intro op m
  have hsendable : m.Sendable :=
    streamMessage_sendable hadmits.right
      (by rw [Memory.slice_length]; exact hlen)
  have hempty : (s.before op).outBuf.contents = [] := hadmits.left
  exact ⟨hsendable, Put.run_of_empty op.call hempty hsendable⟩

theorem numbers_sMessage (h : s.Counted)
    (hadmits : s.Admits
      ⟨outBuf, .sMessage ascVersion appVersion data dataLen⟩) :
    s.Numbers ⟨outBuf, .sMessage ascVersion appVersion data dataLen⟩ := by
  rw [Numbers]
  simp only
  split
  · rename_i hlen
    rcases run_sMessage hadmits hlen with ⟨hsendable, asc', hrun, hout⟩
    refine ⟨asc', hrun, ?_⟩
    intro r later hcrc hin
    have hcommand : 's'.toUInt8 ≠ 0 := by decide
    have hd := decode_frame ⟨hsendable, hcommand⟩ later
    rw [← hout, ← hin] at hd
    rcases Receiver.getMessage_of_message hcrc hd with ⟨b, hb, hget⟩
    exact ⟨_, hget, hb, carries_streamMessage r.received.data h⟩
  · rename_i hlen
    have hlong : (Put.sMessage ascVersion appVersion data dataLen).TooLong :=
      Nat.not_le.mp hlen
    exact Put.run_tooLong hlong _

theorem counted_sMessage (h : s.Counted)
    (hadmits : s.Admits
      ⟨outBuf, .sMessage ascVersion appVersion data dataLen⟩) :
    (s.step
      ⟨outBuf, .sMessage ascVersion appVersion data dataLen⟩).Counted := by
  let op : SendOp := ⟨outBuf, .sMessage ascVersion appVersion data dataLen⟩
  have hcounter := step_counter s op
  by_cases hlen : dataLen <= maxSPayloadLen
  · rcases run_sMessage hadmits hlen with ⟨-, asc', hrun, -⟩
    have hsent : (s.step op).sent = s.sent + 1 := by
      rw [step, hrun]
    have hshort : ¬ op.call.TooLong := Nat.not_lt.mpr hlen
    rw [if_neg hshort] at hcounter
    rw [Counted, hsent, hcounter, UInt8.ofNat_add, ← h]
    rfl
  · have hlong : op.call.TooLong := Nat.not_le.mp hlen
    have hsent : (s.step op).sent = s.sent := by
      rw [step, Put.run_tooLong hlong]
    rw [if_pos hlong] at hcounter
    rw [Counted, hsent, hcounter]
    exact h

end StreamingMessage

theorem counter_of_other {op : SendOp} (h : ¬ op.call.Streams) :
    (s.step op).asc.sendStreamFrameCounter = s.asc.sendStreamFrameCounter := by
  rw [step_counter, (Put.counted_eq_iff op.call s.asc).mpr h, ite_self]

theorem counted_of_other {op : SendOp} (hop : ¬ op.call.Streams)
    (h : s.Counted) : (s.step op).Counted := by
  have hsent : (s.step op).sent = s.sent := by
    rw [step]
    cases op.call.run (s.before op) with
    | error e asc => rfl
    | ok u asc =>
        cases hcall : op.call with
        | message ascVersion appVersion command data dataLen => rfl
        | sMessage ascVersion appVersion data dataLen =>
            rw [hcall] at hop
            exact absurd trivial hop
        | error ascVersion appVersion command data dataLen errorCode => rfl
  rw [Counted, hsent, counter_of_other hop]
  exact h

/-- **Stream frames are numbered without gaps.** -/
theorem numbers_of_run {ops : List SendOp} (h : Allowed step Admits start ops) :
    Allowed step Numbers start ops := by
  have hstart : start.Counted := rfl
  refine h.imp ?_ hstart
  rintro s ⟨outBuf, call⟩ hcounted hadmits
  cases call with
  | sMessage ascVersion appVersion data dataLen =>
      exact ⟨numbers_sMessage hcounted hadmits,
        counted_sMessage hcounted hadmits⟩
  | message ascVersion appVersion command data dataLen =>
      exact ⟨counter_of_other id, counted_of_other id hcounted⟩
  | error ascVersion appVersion command data dataLen errorCode =>
      exact ⟨counter_of_other id, counted_of_other id hcounted⟩

/-- A payload that is too long, an error, and more streaming messages than there
are numbers. -/
theorem numbers_of_run_wrapping :
    let sMessage (dataLen : Nat) : SendOp :=
      ⟨Asc.init.outBuf,
        .sMessage '0'.toUInt8 '0'.toUInt8 (fun _ => 'A'.toUInt8) dataLen⟩
    let error : SendOp :=
      ⟨Asc.init.outBuf,
        .error '0'.toUInt8 '0'.toUInt8 'w'.toUInt8 (fun _ => 0) 0 .regnumOob⟩
    let ops := sMessage 52 :: error :: List.replicate 257 (sMessage 51)
    Allowed step Numbers start ops := by
  intro sMessage error ops
  exact numbers_of_run (by decide +kernel)

end Sender
end AsciiSerialCom
