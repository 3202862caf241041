import AsciiSerialCom.SerialCom.Basic

/-!
# What the sending functions queue

On a buffer with room for the frame, everything hinges on where the bytes still
queued end.  As long as they do not reach around the end of the memory, the
checksum covers the new frame and nothing else.  Otherwise the frame starts
behind the end of the memory, and the checksum is read from outside it.
-/

namespace AsciiSerialCom

open Foundation
open Foundation.Hexadecimal
open Foundation.StateError
open Crc

/-!
## The checksum
-/

theorem crcUpdateBlocks_eq (circBuf : CircularBufferUint8) (crc : BitVec 16)
    (blocks : List (Nat × Nat)) :
    crcUpdateBlocks circBuf crc blocks =
      (circBuf.readBlocks blocks).map fun bytes => crcUpdate crc bytes := by
  induction blocks generalizing crc with
  | nil => rfl
  | cons block rest ih =>
      rw [crcUpdateBlocks, CircularBufferUint8.readBlocks]
      cases circBuf.readBlock block with
      | error e => rfl
      | ok bytes =>
          simp only [bind, Except.bind, ih]
          cases circBuf.readBlocks rest with
          | error e => rfl
          | ok others =>
              simp only [Except.map, pure, Except.pure, crcUpdate_append]

variable {buf : RingBuffer maxMessageLen}

theorem computeChecksum_of_readBlocks {outputBuffer : Bool}
    {blocks : List (Nat × Nat)} {region : List UInt8}
    (hblocks : checksumBlocks outputBuffer buf = .ok blocks)
    (hread : buf.raw.readBlocks blocks = .ok region) :
    computeChecksum outputBuffer buf = .ok (checksumOf region) := by
  rw [computeChecksum, hblocks]
  simp only [bind, Except.bind, crcUpdateBlocks_eq, hread, Except.map, pure,
    Except.pure, crcFinalize_crcUpdate, convertUint16ToHex_eq_digits]
  rfl

theorem computeChecksum_of_error {outputBuffer : Bool} {e : Failure}
    (h : checksumBlocks outputBuffer buf = .error e) :
    computeChecksum outputBuffer buf = .error e := by
  rw [computeChecksum, h]
  rfl

theorem capacity_le_sizeModulus (buf : RingBuffer maxMessageLen) :
    buf.raw.capacity <= 2 ^ 63 := by
  rw [buf.capacity_eq]
  decide

/-- The searches of the checksum computation on an output buffer that ends with
a period. -/
theorem checksumBlocks_last {backlog fields : List UInt8}
    (hc : buf.contents = backlog ++ startByte :: (fields ++ [periodByte]))
    (hstart : startByte ∉ fields) :
    checksumBlocks true buf =
      if backlog.length + fields.length + 1 < 59 then
        if fields.length < 3 then
          .error (.exception .invalidFramePeriod)
        else
          buf.raw.getBlocks backlog.length (fields.length + 2)
      else
        .error (.exception .checksumProblem) := by
  have hsize : buf.getSize = backlog.length + fields.length + 2 := by
    rw [← buf.length_contents, hc]
    simp
    omega
  have hlastStart : buf.findLast startByte = .ok backlog.length := by
    apply RingBuffer.findLast_of_split hc
    simp only [List.mem_append, List.mem_singleton, not_or]
    exact ⟨hstart, by decide⟩
  have hlastStop :
      buf.findLast periodByte = .ok (backlog.length + fields.length + 1) := by
    have hsplit : buf.contents =
        (backlog ++ startByte :: fields) ++ periodByte :: [] := by
      rw [hc]
      simp
    rw [RingBuffer.findLast_of_split hsplit (by simp)]
    simp
    omega
  have hmax : maxMessageLen - nCharChecksum - 1 = 59 := rfl
  rw [checksumBlocks, hlastStart, hlastStop]
  simp only [bind, Except.bind, if_true, pure, Except.pure, hsize]
  rw [if_neg (by omega), if_neg (by omega), hmax]
  by_cases hroom : backlog.length + fields.length + 1 < 59
  · rw [if_neg (by omega), if_pos hroom]
    by_cases hshort : fields.length < 3
    · rw [if_pos (by omega), if_pos hshort]
    · rw [if_neg (by omega), if_neg hshort,
        show backlog.length + fields.length + 1 - backlog.length + 1 =
          fields.length + 2 by omega]
  · rw [if_pos (by omega), if_neg hroom]

/-- The searches of the checksum computation on an output buffer whose last
frame has just got its period. -/
theorem checksumBlocks_out {backlog fields : List UInt8}
    (hc : buf.contents = backlog ++ startByte :: (fields ++ [periodByte]))
    (hstart : startByte ∉ fields) (hheader : 3 <= fields.length) :
    checksumBlocks true buf =
      if backlog.length + fields.length + 1 < 59 then
        buf.raw.getBlocks backlog.length (fields.length + 2)
      else
        .error (.exception .checksumProblem) := by
  rw [checksumBlocks_last hc hstart, if_neg (Nat.not_lt.mpr hheader)]

theorem computeChecksum_out {backlog fields : List UInt8}
    (hc : buf.contents = backlog ++ startByte :: (fields ++ [periodByte]))
    (hstart : startByte ∉ fields) (hheader : 3 <= fields.length)
    (hroom : backlog.length + fields.length + 1 < 59)
    (hunwrapped : buf.raw.iStart + backlog.length <= maxMessageLen) :
    computeChecksum true buf =
      .ok (checksumOf (startByte :: (fields ++ [periodByte]))) := by
  have hsize : backlog.length + (fields.length + 2) = buf.raw.size := by
    have hlen : buf.contents.length = buf.raw.size := buf.length_contents
    rw [← hlen, hc]
    simp
  rcases CircularBufferUint8.readBlocks_getBlocks buf.wellFormed
    (capacity_le_sizeModulus buf) (Nat.le_of_eq hsize)
    (by rw [buf.capacity_eq]; exact hunwrapped) with ⟨blocks, hblocks, hread⟩
  have hregion : (buf.raw.contents.drop backlog.length).take
      (fields.length + 2) = startByte :: (fields ++ [periodByte]) := by
    have hraw : buf.raw.contents = _ := hc
    rw [hraw, List.drop_left' rfl, List.take_of_length_le (by simp)]
  rw [hregion] at hread
  have hsearch := checksumBlocks_out hc hstart hheader
  rw [if_pos hroom, hblocks] at hsearch
  exact computeChecksum_of_readBlocks hsearch hread

theorem computeChecksum_out_of_wrapped {backlog fields : List UInt8}
    (hc : buf.contents = backlog ++ startByte :: (fields ++ [periodByte]))
    (hstart : startByte ∉ fields) (hheader : 3 <= fields.length)
    (hroom : backlog.length + fields.length + 1 < 59)
    (hwrapped : maxMessageLen < buf.raw.iStart + backlog.length) :
    computeChecksum true buf = .error .outOfBounds := by
  have hsize : backlog.length + (fields.length + 2) = buf.raw.size := by
    have hlen : buf.contents.length = buf.raw.size := buf.length_contents
    rw [← hlen, hc]
    simp
  rcases CircularBufferUint8.readBlocks_getBlocks_of_lt buf.wellFormed
    (capacity_le_sizeModulus buf) (Nat.le_of_eq hsize)
    (by rw [buf.capacity_eq]; exact hwrapped) with ⟨blocks, hblocks, hread⟩
  rw [computeChecksum, checksumBlocks_out hc hstart hheader, if_pos hroom,
    hblocks]
  simp only [bind, Except.bind, crcUpdateBlocks_eq, hread, Except.map]

/-!
## Putting a message
-/

namespace Asc

/-- The message that the arguments of `putMessage` describe. -/
def messageOf (ascVersion appVersion command : UInt8) (data : Memory UInt8)
    (dataLen : Nat) : Message :=
  { ascVersion := ascVersion
    appVersion := appVersion
    command := command
    data := Memory.slice data 0 dataLen }

/-- The bytes still queued do not reach around the end of the memory. -/
def Unwrapped (asc : Asc) : Prop :=
  asc.outBuf.raw.iStart + asc.outBuf.contents.length <= maxMessageLen

instance (asc : Asc) : Decidable asc.Unwrapped :=
  inferInstanceAs (Decidable (_ <= _))

/-- There is room for a frame with `dataLen` bytes of data. -/
def HasRoom (asc : Asc) (dataLen : Nat) : Prop :=
  asc.outBuf.contents.length + (dataLen + 10) <= maxMessageLen

instance (asc : Asc) (dataLen : Nat) : Decidable (asc.HasRoom dataLen) :=
  inferInstanceAs (Decidable (_ <= _))

theorem hasRoom_of_empty {asc : Asc} {dataLen : Nat}
    (hout : asc.outBuf.contents = []) (h : dataLen <= maxDataLen) :
    asc.HasRoom dataLen := by
  rw [HasRoom, hout, List.length_nil, Nat.zero_add]
  exact Nat.add_le_add_right h 10

theorem unwrapped_of_empty {asc : Asc} (hout : asc.outBuf.contents = []) :
    asc.Unwrapped := by
  have hstart := asc.outBuf.wellFormed.iStart_lt
  rw [asc.outBuf.capacity_eq] at hstart
  rw [Unwrapped, hout]
  exact Nat.le_of_lt hstart

@[simp] theorem pushOut_apply (bytes : List UInt8) (asc : Asc) :
    pushOut bytes asc =
      .ok () { asc with outBuf := asc.outBuf.pushBackBlock bytes } := rfl

theorem putMessage_too_long {ascVersion appVersion command : UInt8}
    {data : Memory UInt8} {dataLen : Nat} (h : maxDataLen < dataLen)
    (asc : Asc) :
    putMessage ascVersion appVersion command data dataLen asc =
      .error (.exception .dataTooLong) asc := by
  rw [putMessage, if_pos h, raise_apply]

/-- The output buffer when the checksum is computed. -/
def beforeChecksum (asc : Asc) (m : Message) : RingBuffer maxMessageLen :=
  asc.outBuf.pushBackBlock m.region

/-- A call pushes the region of the message, then its checksum. -/
theorem putMessage_eq {ascVersion appVersion command : UInt8}
    {data : Memory UInt8} {dataLen : Nat} {m : Message}
    (hm : messageOf ascVersion appVersion command data dataLen = m)
    (h : dataLen <= maxDataLen) (asc : Asc) :
    putMessage ascVersion appVersion command data dataLen asc =
      match computeChecksum true (asc.beforeChecksum m) with
      | .ok checksum =>
          .ok ()
            { asc with
              outBuf := (asc.beforeChecksum m).pushBackBlock
                (checksum ++ [endByte]) }
      | .error e => .error e { asc with outBuf := asc.beforeChecksum m } := by
  have hregion : asc.beforeChecksum m =
      ((asc.outBuf.pushBackBlock
          [startByte, ascVersion, appVersion, command]).pushBackBlock
        (Memory.slice data 0 dataLen)).pushBackBlock [periodByte] := by
    rw [← RingBuffer.pushBackBlock_append, ← RingBuffer.pushBackBlock_append,
      ← hm]
    rfl
  rw [putMessage, if_neg (Nat.not_lt.mpr h)]
  simp only [bind_apply, pushOut_apply, observe]
  rw [← hregion]
  cases computeChecksum true (asc.beforeChecksum m) with
  | ok checksum =>
      simp only
      rw [RingBuffer.pushBackBlock_append]
  | error e => rfl

theorem messageOf_data_length {ascVersion appVersion command : UInt8}
    {data : Memory UInt8} {dataLen : Nat} {m : Message}
    (hm : messageOf ascVersion appVersion command data dataLen = m) :
    m.data.length = dataLen := by
  rw [← hm]
  exact Memory.slice_length data 0 dataLen

section Room

variable {asc : Asc} {m : Message}

theorem beforeChecksum_of_le
    (h : asc.outBuf.contents.length + m.region.length <= maxMessageLen) :
    (asc.beforeChecksum m).contents = asc.outBuf.contents ++ m.region ∧
      (asc.beforeChecksum m).raw.iStart = asc.outBuf.raw.iStart :=
  RingBuffer.pushBackBlock_of_le h

theorem beforeChecksum_of_hasRoom (hroom : asc.HasRoom m.data.length) :
    (asc.beforeChecksum m).contents = asc.outBuf.contents ++ m.region ∧
      (asc.beforeChecksum m).raw.iStart = asc.outBuf.raw.iStart := by
  apply beforeChecksum_of_le
  rw [HasRoom] at hroom
  rw [m.region_length]
  omega

theorem computeChecksum_of_unwrapped (hstart : startByte ∉ m.fields)
    (hroom : asc.HasRoom m.data.length) (hunwrapped : asc.Unwrapped) :
    computeChecksum true (asc.beforeChecksum m) = .ok m.checksum := by
  have hmax : maxMessageLen = 64 := rfl
  rcases beforeChecksum_of_hasRoom hroom with ⟨hbefore, hbeforeStart⟩
  rw [HasRoom] at hroom
  refine computeChecksum_out (by rw [hbefore]; rfl) hstart
    (by rw [m.fields_length]; omega) (by rw [m.fields_length]; omega) ?_
  rw [hbeforeStart]
  exact hunwrapped

theorem computeChecksum_of_wrapped (hstart : startByte ∉ m.fields)
    (hroom : asc.HasRoom m.data.length) (hwrapped : ¬ asc.Unwrapped) :
    computeChecksum true (asc.beforeChecksum m) = .error .outOfBounds := by
  have hmax : maxMessageLen = 64 := rfl
  rcases beforeChecksum_of_hasRoom hroom with ⟨hbefore, hbeforeStart⟩
  rw [HasRoom] at hroom
  refine computeChecksum_out_of_wrapped (by rw [hbefore]; rfl) hstart
    (by rw [m.fields_length]; omega) (by rw [m.fields_length]; omega) ?_
  rw [hbeforeStart]
  exact Nat.not_le.mp hwrapped

theorem length_le_of_hasRoom {dataLen : Nat} (h : asc.HasRoom dataLen) :
    dataLen <= maxDataLen := by
  have hmax : maxMessageLen = maxDataLen + 10 := rfl
  rw [HasRoom] at h
  omega

variable {ascVersion appVersion command : UInt8} {data : Memory UInt8}
  {dataLen : Nat}

/-- **A message put behind an unwrapped backlog** is queued as its frame, and
everything queued before stays where it was. -/
theorem putMessage_of_unwrapped
    (hm : messageOf ascVersion appVersion command data dataLen = m)
    (hstart : startByte ∉ m.fields) (hroom : asc.HasRoom dataLen)
    (hunwrapped : asc.Unwrapped) :
    exists out,
      putMessage ascVersion appVersion command data dataLen asc =
        .ok () { asc with outBuf := out } ∧
      out.contents = asc.outBuf.contents ++ m.frame ∧
      out.raw.iStart = asc.outBuf.raw.iStart := by
  have hlen := length_le_of_hasRoom hroom
  rw [← messageOf_data_length hm] at hroom
  have hchecksum := computeChecksum_of_unwrapped hstart hroom hunwrapped
  rcases beforeChecksum_of_hasRoom hroom with ⟨hbefore, hbeforeStart⟩
  have hfit : (asc.beforeChecksum m).contents.length +
      (m.checksum ++ [endByte]).length <= maxMessageLen := by
    rw [HasRoom] at hroom
    rw [hbefore, List.length_append, List.length_append, m.region_length,
      m.checksum_length, List.length_singleton]
    omega
  rcases RingBuffer.pushBackBlock_of_le hfit with ⟨hafter, hafterStart⟩
  refine ⟨(asc.beforeChecksum m).pushBackBlock (m.checksum ++ [endByte]),
    ?_, ?_, ?_⟩
  · rw [putMessage_eq hm hlen, hchecksum]
  · rw [hafter, hbefore, m.frame_eq_region]
    simp only [List.append_assoc]
  · rw [hafterStart, hbeforeStart]

/-- **Behind a wrapped backlog** the checksum is read from outside the
buffer. -/
theorem putMessage_of_wrapped
    (hm : messageOf ascVersion appVersion command data dataLen = m)
    (hstart : startByte ∉ m.fields) (hroom : asc.HasRoom dataLen)
    (hwrapped : ¬ asc.Unwrapped) :
    putMessage ascVersion appVersion command data dataLen asc =
      .error .outOfBounds { asc with outBuf := asc.beforeChecksum m } := by
  have hlen := length_le_of_hasRoom hroom
  rw [← messageOf_data_length hm] at hroom
  rw [putMessage_eq hm hlen, computeChecksum_of_wrapped hstart hroom hwrapped]

/-- **Without room for the checksum** the call throws, and a frame without it
stays behind the backlog. -/
theorem putMessage_of_no_room
    (hm : messageOf ascVersion appVersion command data dataLen = m)
    (hstart : startByte ∉ m.fields) (hlen : dataLen <= maxDataLen)
    (hfit : asc.outBuf.contents.length + m.region.length <= maxMessageLen)
    (hroom : ¬ asc.HasRoom dataLen) :
    putMessage ascVersion appVersion command data dataLen asc =
        .error (.exception .checksumProblem)
          { asc with outBuf := asc.beforeChecksum m } ∧
      (asc.beforeChecksum m).contents = asc.outBuf.contents ++ m.region := by
  have hmax : maxMessageLen = 64 := rfl
  rcases beforeChecksum_of_le hfit with ⟨hbefore, -⟩
  rw [HasRoom, ← messageOf_data_length hm] at hroom
  have hfields := m.fields_length
  have hblocks := checksumBlocks_out hbefore hstart (by omega)
  rw [if_neg (by omega)] at hblocks
  refine ⟨?_, hbefore⟩
  rw [putMessage_eq hm hlen, computeChecksum_of_error hblocks]

end Room

/-!
## Messages made by the interface itself
-/

/-- A streaming message with its frame counter. -/
def streamMessage (ascVersion appVersion counter : UInt8)
    (data : List UInt8) : Message :=
  { ascVersion := ascVersion
    appVersion := appVersion
    command := 's'.toUInt8
    data := digits true 2 counter.toNat ++ ','.toUInt8 :: data }

/-- The error message that answers a request with these data. -/
def errorMessage (ascVersion appVersion command : UInt8) (data : List UInt8)
    (errorCode : AscException) : Message :=
  { ascVersion := ascVersion
    appVersion := appVersion
    command := 'e'.toUInt8
    data := digits true 2 errorCode.code ++ ','.toUInt8 :: command ::
      ','.toUInt8 :: data.take errorMessageMaxCopyDataLen }

theorem messageOf_store (ascVersion appVersion command : UInt8)
    (data : List UInt8) (memory : Memory UInt8) :
    messageOf ascVersion appVersion command (Memory.store memory 0 data)
        data.length =
      { ascVersion := ascVersion
        appVersion := appVersion
        command := command
        data := data } := by
  rw [messageOf, Memory.slice_store_self]

theorem putSMessage_too_long {ascVersion appVersion : UInt8}
    {data : Memory UInt8} {dataLen : Nat} (h : maxSPayloadLen < dataLen)
    (asc : Asc) :
    putSMessage ascVersion appVersion data dataLen asc =
      .error (.exception .dataTooLong) asc := by
  rw [putSMessage, if_pos h, raise_apply]

theorem putSMessage_eq (ascVersion appVersion : UInt8) (data : Memory UInt8)
    {dataLen : Nat} (h : dataLen <= maxSPayloadLen) (asc : Asc) :
    exists outData,
      messageOf ascVersion appVersion 's'.toUInt8 outData (dataLen + 3) =
          streamMessage ascVersion appVersion asc.sendStreamFrameCounter
            (Memory.slice data 0 dataLen) ∧
        putSMessage ascVersion appVersion data dataLen asc =
          putMessage ascVersion appVersion 's'.toUInt8 outData (dataLen + 3)
            { asc with
              sendStreamFrameCounter := asc.sendStreamFrameCounter + 1 } := by
  have hcopied : min dataLen (maxDataLen - 3) = dataLen := Nat.min_eq_left h
  have hlength : (convertUint8ToHex asc.sendStreamFrameCounter.toBitVec true ++
      ','.toUInt8 :: Memory.slice data 0 dataLen).length = dataLen + 3 := by
    simp [convertUint8ToHex]
  refine ⟨Memory.store (fun _ => 0) 0
    (convertUint8ToHex asc.sendStreamFrameCounter.toBitVec true ++
      ','.toUInt8 :: Memory.slice data 0 dataLen), ?_, ?_⟩
  · rw [← hlength, messageOf_store, convertUint8ToHex_eq_digits]
    rfl
  · rw [putSMessage, if_neg (Nat.not_lt.mpr h), hcopied]
    rfl

theorem putError_eq (ascVersion appVersion command : UInt8)
    (data : Memory UInt8) (dataLen : Nat) (errorCode : AscException)
    (asc : Asc) :
    exists outData copied,
      messageOf ascVersion appVersion 'e'.toUInt8 outData copied =
          errorMessage ascVersion appVersion command
            (Memory.slice data 0 dataLen) errorCode ∧
        putError ascVersion appVersion command data dataLen errorCode asc =
          putMessage ascVersion appVersion 'e'.toUInt8 outData copied asc := by
  have hcode : (BitVec.ofNat 8 errorCode.code).toNat = errorCode.code :=
    Nat.mod_eq_of_lt errorCode.code_lt
  have htake : (Memory.slice data 0 dataLen).take errorMessageMaxCopyDataLen =
      Memory.slice data 0 (min dataLen errorMessageMaxCopyDataLen) := by
    rcases Nat.le_total dataLen errorMessageMaxCopyDataLen with hle | hle
    · rw [Nat.min_eq_left hle, List.take_of_length_le (by simpa using hle)]
    · rw [Nat.min_eq_right hle, Memory.take_slice _ _ _ _ hle]
  refine ⟨_, _, ?_, rfl⟩
  have hlength : (convertUint8ToHex (BitVec.ofNat 8 errorCode.code) true ++
      ','.toUInt8 :: command :: ','.toUInt8 ::
        Memory.slice data 0 (min dataLen errorMessageMaxCopyDataLen)).length =
      5 + min dataLen errorMessageMaxCopyDataLen := by
    simp [convertUint8ToHex]
    omega
  rw [← hlength, messageOf_store, convertUint8ToHex_eq_digits, hcode,
    errorMessage, htake]

end Asc
end AsciiSerialCom
