import AsciiSerialCom.CircularBuffer.Blocks
import AsciiSerialCom.CircularBuffer.Ring
import AsciiSerialCom.Crc.Tbl4bit
import AsciiSerialCom.Frame
import AsciiSerialCom.Hex

/-!
# The interface functions

The functions of `ascii_serial_com.c` that build and read frames.  Both buffers
have the capacity that `ascii_serial_com_init` gives them.  A pointer to data is
the memory behind it, and the output parameters of the receiving function are a
part of the state, because some of its exits leave them as they were.
-/

namespace AsciiSerialCom

open Foundation
open Foundation.StateError
open Crc

/-- `MAXSPAYLOADEN` -/
def maxSPayloadLen : Nat := maxDataLen - 3

/-- `error_message_max_copy_data_len` -/
def errorMessageMaxCopyDataLen : Nat := 9

/-- `ascii_serial_com` -/
structure Asc where
  inBuf : RingBuffer maxMessageLen
  outBuf : RingBuffer maxMessageLen
  /-- counter put in sent streaming messages -/
  sendStreamFrameCounter : UInt8
  /-- if true, ignore CRC errors -/
  ignoreCRCMismatch : Bool

/-- Functions that change an `ascii_serial_com`. -/
abbrev AscM := EStateM Failure Asc

namespace Asc

/-- `ascii_serial_com_init` -/
def init : Asc :=
  { inBuf := RingBuffer.fresh 6
    outBuf := RingBuffer.fresh 6
    sendStreamFrameCounter := 0
    ignoreCRCMismatch := false }

/-- What stood in the raw memory before does not matter. -/
theorem circularBuffer_init {memory : List UInt8}
    (h : memory.length = maxMessageLen) :
    CircularBufferUint8.init maxMessageLen memory = .ok init.inBuf.raw :=
  RingBuffer.init_eq_fresh 6 (by decide) h

/-- `circular_buffer_push_back_uint8(&asc->out_buf, ...)` for several bytes. -/
def pushOut (bytes : List UInt8) : AscM Unit :=
  modify fun asc => { asc with outBuf := asc.outBuf.pushBackBlock bytes }

end Asc

/-!
## The checksum
-/

/-- The loop of `ascii_serial_com_compute_checksum` over the blocks. -/
def crcUpdateBlocks (circBuf : CircularBufferUint8) :
    (crc : BitVec 16) -> List (Nat × Nat) -> Except Failure (BitVec 16)
  | crc, [] => .ok crc
  | crc, block :: rest => do
      let bytes ← circBuf.readBlock block
      crcUpdateBlocks circBuf (crcUpdate crc bytes) rest

/-- The blocks over which `ascii_serial_com_compute_checksum` runs, on the buffer
it selects. -/
def checksumBlocks (outputBuffer : Bool) (circBuf : RingBuffer maxMessageLen) :
    Except Failure (List (Nat × Nat)) := do
  let size := circBuf.getSize
  let iLastStart ← circBuf.findLast startByte
  let iLastStop ← circBuf.findLast periodByte
  -- want the first one on input
  let iStart ←
    if outputBuffer then pure iLastStart else circBuf.findFirst startByte
  let iStop ←
    if outputBuffer then pure iLastStop else circBuf.findFirst periodByte
  if size <= iStart then
    .error (.exception .invalidFrame)
  else if size <= iStop then
    .error (.exception .invalidFramePeriod)
  else if maxMessageLen - nCharChecksum - 1 <= iStop then
    .error (.exception .checksumProblem)
  else if iStop <= iStart ∨ iStop - iStart < 4 then
    .error (.exception .invalidFramePeriod)
  else
    circBuf.raw.getBlocks iStart (iStop - iStart + 1)

/-- `ascii_serial_com_compute_checksum` -/
def computeChecksum (outputBuffer : Bool) (circBuf : RingBuffer maxMessageLen) :
    Except Failure (List UInt8) := do
  let blocks ← checksumBlocks outputBuffer circBuf
  let crc ← crcUpdateBlocks circBuf.raw crcInit blocks
  return convertUint16ToHex (crcFinalize crc) true

/-!
## Sending
-/

namespace Asc

/-- `ascii_serial_com_put_message_in_output_buffer` -/
def putMessage (ascVersion appVersion command : UInt8) (data : Memory UInt8)
    (dataLen : Nat) : AscM Unit := do
  if maxDataLen < dataLen then
    raise .dataTooLong
  else do
    pushOut [startByte, ascVersion, appVersion, command]
    pushOut (Memory.slice data 0 dataLen)
    pushOut [periodByte]
    let checksum ← observe fun asc => computeChecksum true asc.outBuf
    pushOut checksum
    pushOut [endByte]

/-- `ascii_serial_com_put_s_message_in_output_buffer` -/
def putSMessage (ascVersion appVersion : UInt8) (data : Memory UInt8)
    (dataLen : Nat) : AscM Unit := do
  if maxSPayloadLen < dataLen then
    raise .dataTooLong
  else do
    let counter := (← get).sendStreamFrameCounter
    let outData := Memory.store (fun _ => 0) 0
      (convertUint8ToHex counter.toBitVec true ++ ','.toUInt8 ::
        Memory.slice data 0 (min dataLen (maxDataLen - 3)))
    modify fun asc => { asc with sendStreamFrameCounter := counter + 1 }
    putMessage ascVersion appVersion 's'.toUInt8 outData (dataLen + 3)

/-- `ascii_serial_com_put_error_in_output_buffer` -/
def putError (ascVersion appVersion command : UInt8) (data : Memory UInt8)
    (dataLen : Nat) (errorCode : AscException) : AscM Unit :=
  let copied := min dataLen errorMessageMaxCopyDataLen
  let outData := Memory.store (fun _ => 0) 0
    (convertUint8ToHex (BitVec.ofNat 8 errorCode.code) true ++
      ','.toUInt8 :: command :: ','.toUInt8 :: Memory.slice data 0 copied)
  putMessage ascVersion appVersion 'e'.toUInt8 outData (5 + copied)

end Asc

/-!
## Receiving
-/

/-- Where `ascii_serial_com_get_message_from_input_buffer` puts its results. -/
structure Received where
  ascVersion : UInt8
  appVersion : UInt8
  command : UInt8
  data : Memory UInt8
  dataLen : Nat

/-- An interface together with the receiver's results. -/
structure Receiver where
  asc : Asc
  received : Received

/-- Results before the first call. -/
def Received.blank : Received :=
  { ascVersion := 0
    appVersion := 0
    command := 0
    data := fun _ => 0
    dataLen := 0 }

/-- A freshly initialized interface with bytes in its input buffer. -/
def Receiver.holding (bytes : List UInt8) : Receiver :=
  { asc := { Asc.init with inBuf := Asc.init.inBuf.pushBackBlock bytes }
    received := Received.blank }

/-- Functions that receive. -/
abbrev ReceiverM := EStateM Failure Receiver

namespace Receiver

/-- Run an operation on the input buffer. -/
def onInBuf (x : EStateM Failure (RingBuffer maxMessageLen) α) : ReceiverM α :=
  zoom (fun r => r.asc.inBuf)
    (fun b r => { r with asc := { r.asc with inBuf := b } }) x

/-- `circular_buffer_pop_front_uint8(&asc->in_buf)` -/
def popIn : ReceiverM UInt8 := onInBuf RingBuffer.popFront

/-- Read the input buffer. -/
def readIn (f : RingBuffer maxMessageLen -> Except Failure α) : ReceiverM α :=
  observe fun r => f r.asc.inBuf

def modifyReceived (f : Received -> Received) : ReceiverM Unit :=
  modify fun r => { r with received := f r.received }

/-- Report that there is no message. -/
def reportNone : ReceiverM Unit :=
  modifyReceived fun out => { out with command := 0, dataLen := 0 }

/-- The loop that fills `data`, with `remaining` iterations to go. -/
def popData : (remaining iData : Nat) -> ReceiverM Unit
  | 0, _ => pure ()
  | remaining + 1, iData => do
      let dataByte ← popIn
      if dataByte = periodByte then
        pure ()
      else do
        modifyReceived fun out =>
          { out with
            data := Memory.store out.data iData [dataByte]
            dataLen := out.dataLen + 1 }
        popData remaining (iData + 1)

/-- Pop the received checksum. -/
def popChecksum : Nat -> ReceiverM (List UInt8)
  | 0 => pure []
  | n + 1 => do
      let c ← popIn
      let rest ← popChecksum n
      return c :: rest

/-- Whether the checksum does not have the right length: the buffer is too
short, or the end byte is not where it should be. -/
def wrongLength : ReceiverM Bool := do
  if (← get).asc.inBuf.getSize < nCharChecksum + 1 then
    return true
  else do
    let last ← readIn fun b => b.getElement nCharChecksum
    return decide (last ≠ endByte)

/-- The end of `ascii_serial_com_get_message_from_input_buffer`, from the check
of the checksum's length on; `computed` is the checksum the frame should carry. -/
def popTail (ignoreCRCMismatch : Bool) (computed : List UInt8) :
    ReceiverM Unit := do
  if ← wrongLength then
    raise .invalidFrame
  else do
    let receiveChecksum ← popChecksum nCharChecksum
    if ¬ ignoreCRCMismatch ∧ receiveChecksum ≠ computed then do
      -- checksum mismatch!
      let _ ← popIn
      reportNone
    else do
      let _ ← popIn
      pure ()

/-- The part of `ascii_serial_com_get_message_from_input_buffer` that takes the
frame apart. -/
def popFrame (ignoreCRCMismatch : Bool) (iPeriod : Nat)
    (computed : List UInt8) : ReceiverM Unit := do
  let _ ← popIn
  let ascVersion ← popIn
  modifyReceived fun out => { out with ascVersion := ascVersion }
  let appVersion ← popIn
  modifyReceived fun out => { out with appVersion := appVersion }
  let command ← popIn
  modifyReceived fun out => { out with command := command, dataLen := 0 }
  popData (sizeSub iPeriod 4) 0
  -- pop off '.'
  let _ ← popIn
  popTail ignoreCRCMismatch computed

/-- The checksum a frame should carry, unless it is not checked. -/
def computedChecksum (ignoreCRCMismatch : Bool) : ReceiverM (List UInt8) :=
  if ignoreCRCMismatch then pure [] else readIn (computeChecksum false)

/-- `ascii_serial_com_get_message_from_input_buffer` once the buffer starts with
a frame, if it has one. -/
def getFrame : ReceiverM Unit := do
  let bufSize := (← get).asc.inBuf.getSize
  let iEnd ← readIn fun b => b.findFirst endByte
  if bufSize <= iEnd then
    reportNone
  else do
    let iPeriod ← readIn fun b => b.findFirst periodByte
    if iEnd < iPeriod then do
      -- pop off bad frame
      onInBuf (RingBuffer.popFrontN (iEnd + 1))
      raise .invalidFramePeriod
    else do
      let ignoreCRCMismatch := (← get).asc.ignoreCRCMismatch
      let computed ← computedChecksum ignoreCRCMismatch
      popFrame ignoreCRCMismatch iPeriod computed

/-- `ascii_serial_com_get_message_from_input_buffer` -/
def getMessage : ReceiverM Unit := do
  if (← get).asc.inBuf.getSize = 0 then
    reportNone
  else do
    let _ ← onInBuf (RingBuffer.removeFrontUnfinishedFrames startByte endByte
      endByte_ne_startByte)
    getFrame

theorem holding_contents (bytes : List UInt8)
    (h : bytes.length <= maxMessageLen) :
    (holding bytes).asc.inBuf.contents = bytes := by
  have hempty : Asc.init.inBuf.contents = [] := rfl
  have hfit : Asc.init.inBuf.contents.length + bytes.length <=
      maxMessageLen := by
    rw [hempty, List.length_nil, Nat.zero_add]
    exact h
  exact (RingBuffer.pushBackBlock_of_le hfit).left

end Receiver
end AsciiSerialCom
