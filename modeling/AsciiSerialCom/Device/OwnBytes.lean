import AsciiSerialCom.Device.RegisterBlock
import AsciiSerialCom.Device.Response
import AsciiSerialCom.SerialCom.FailedSends

/-!
# A request and the bytes behind it

The data buffer of a device keeps what earlier messages left behind the data of
a request.  Two runs of a register handler on buffers that agree on the
request's own bytes come to the same, unless the handler reads a value that the
request does not bring in full.
-/

namespace AsciiSerialCom

open Foundation
open Foundation.Hexadecimal
open Foundation.StateError

variable {width : RegWidth}

/-!
## The register handlers
-/

/-- A register handler with what its state pointer leads to. -/
inductive RegisterHandler (width : RegWidth) where
  /-- `ascii_serial_com_register_pointers_handle_message` -/
  | pointers (state : Option (RegisterPointers width))
  /-- `ascii_serial_com_register_block_handle_message` -/
  | block (state : Option (RegisterBlock width))

namespace RegisterHandler

def handleMessage (charSigned : Bool) :
    RegisterHandler width -> Handler (World width)
  | pointers state => RegisterPointers.handleMessage charSigned state
  | block state => RegisterBlock.handleMessage charSigned state

/-- The word behind a register, if there is one. -/
def word (regNum : Nat) : RegisterHandler width -> Option Nat
  | pointers none => none
  | pointers (some state) =>
      if state.nRegs.toNat <= regNum then none else state.pointers regNum
  | block none => none
  | block (some state) =>
      if state.nRegs.toNat <= regNum then none else some (state.block + regNum)

/-- What the handler decides to do with a request. -/
def respond (command : UInt8) (dataLen : Nat) (data : Memory UInt8)
    (words : Memory width.Reg) : RegisterHandler width -> Response width
  | pointers none => .refused .regBlockNull
  | pointers (some state) => state.respond command dataLen data words
  | block none => .thrown .regBlockNull
  | block (some state) =>
      (state.toPointers.respond command dataLen data words).strict

theorem handleMessage_eq (handler : RegisterHandler width) (charSigned : Bool)
    (ascVersion appVersion command : UInt8) (dataLen : Nat)
    (s : HandlerState (World width)) :
    handler.handleMessage charSigned ascVersion appVersion command dataLen s =
      (handler.respond command dataLen s.data s.world.words).react ascVersion
        appVersion command dataLen s := by
  cases handler with
  | pointers state =>
      cases state with
      | none => rfl
      | some state => exact RegisterPointers.handleMessage_eq s
  | block state =>
      cases state with
      | none => rfl
      | some state => exact RegisterBlock.handleMessage_eq s

end RegisterHandler

/-!
## Two runs with the same effect
-/

/-- Two runs end alike: the same exception or none, the same registers, and the
same bytes queued. -/
def SameEffect (x y : EStateM.Result Failure (HandlerState (World width)) Unit) :
    Prop :=
  Result.outcome x = Result.outcome y ∧
    (Result.state x).world = (Result.state y).world ∧
      (Result.state x).asc.outBuf.contents =
        (Result.state y).asc.outBuf.contents

/-- Buffers that agree on the first `n` bytes. -/
def AgreeOn (n : Nat) (data data' : Memory UInt8) : Prop :=
  forall i, i < n -> data i = data' i

theorem AgreeOn.slice_eq {n start len : Nat} {data data' : Memory UInt8}
    (h : AgreeOn n data data') (hle : start + len <= n) :
    Memory.slice data start len = Memory.slice data' start len :=
  Memory.slice_congr fun i hi => h (start + i) (by omega)

theorem Asc.putMessage_congr {ascVersion appVersion command : UInt8}
    {dataLen : Nat} {data data' : Memory UInt8}
    (h : Memory.slice data 0 dataLen = Memory.slice data' 0 dataLen) :
    putMessage ascVersion appVersion command data dataLen =
      putMessage ascVersion appVersion command data' dataLen := by
  unfold putMessage
  rw [h]

theorem Asc.putError_congr {ascVersion appVersion command : UInt8}
    {dataLen : Nat} {errorCode : AscException} {data data' : Memory UInt8}
    (h : AgreeOn dataLen data data') :
    putError ascVersion appVersion command data dataLen errorCode =
      putError ascVersion appVersion command data' dataLen errorCode := by
  have hslice : Memory.slice data 0 (min dataLen errorMessageMaxCopyDataLen) =
      Memory.slice data' 0 (min dataLen errorMessageMaxCopyDataLen) :=
    h.slice_eq (by rw [Nat.zero_add]; exact Nat.min_le_left _ _)
  simp only [putError, hslice]

theorem sameEffect_onAsc (x : AscM Unit) (asc : Asc) (world : World width)
    (data data' : Memory UInt8) :
    SameEffect
      (HandlerState.onAsc x { asc := asc, data := data, world := world })
      (HandlerState.onAsc x { asc := asc, data := data', world := world }) := by
  simp only [SameEffect, HandlerState.onAsc, zoom_outcome, zoom_state]
  exact ⟨trivial, trivial, trivial⟩

/-- Responses that read alike. -/
inductive Response.Alike : Response width -> Response width -> Prop where
  | refused (errorCode : AscException) :
      Alike (.refused errorCode) (.refused errorCode)
  | replied {data data' : Memory UInt8} {dataLen : Nat}
      (words : Memory width.Reg)
      (h : Memory.slice data 0 dataLen = Memory.slice data' 0 dataLen) :
      Alike (.replied data dataLen words) (.replied data' dataLen words)
  | thrown (e : AscException) : Alike (.thrown e) (.thrown e)

namespace Response

theorem Alike.strict {x y : Response width} (h : Alike x y) :
    Alike x.strict y.strict := by
  cases h with
  | refused errorCode => exact .thrown errorCode
  | replied words h => exact .replied words h
  | thrown e => exact .thrown e

theorem Alike.sameEffect {x y : Response width} (h : Alike x y)
    {dataLen : Nat} {data data' : Memory UInt8} (hdata : AgreeOn dataLen data data')
    (ascVersion appVersion command : UInt8) (asc : Asc) (world : World width) :
    SameEffect
      (x.react ascVersion appVersion command dataLen
        { asc := asc, data := data, world := world })
      (y.react ascVersion appVersion command dataLen
        { asc := asc, data := data', world := world }) := by
  cases h with
  | refused errorCode =>
      have hput := sameEffect_onAsc
        (Asc.putError ascVersion appVersion command data dataLen errorCode)
        asc world data data'
      nth_rewrite 2 [Asc.putError_congr hdata] at hput
      exact hput
  | @replied out out' len words h =>
      have hput := sameEffect_onAsc
        (Asc.putMessage ascVersion appVersion command out len) asc
        { world with words := words } out out'
      nth_rewrite 2 [Asc.putMessage_congr h] at hput
      exact hput
  | thrown e => exact ⟨rfl, rfl, rfl⟩

end Response

/-!
## Values that a request does not bring in full
-/

/-- The request asks to write a register that is backed by a word, with more
digits than the handler asks for, fewer than it reads, and no other bytes among
them. -/
def StaleWrite (handler : RegisterHandler width) (command : UInt8)
    (dataLen : Nat) (data : Memory UInt8) : Prop :=
  command = 'w'.toUInt8 ∧ 5 + width.bytes <= dataLen ∧
    dataLen < 5 + 2 * width.bytes ∧
    (exists regNum p, value (Memory.slice data 0 4) = some regNum ∧
      handler.word regNum = some p) ∧
    forall c, c ∈ Memory.slice data 5 (dataLen - 5) -> (digitValue c).isSome

/-- A byte that is no digit spoils the whole value. -/
theorem value_eq_none_of_front {data : Memory UInt8} {start n k : Nat}
    (hle : n <= k)
    (h : ¬ forall c, c ∈ Memory.slice data start n -> (digitValue c).isSome) :
    value (Memory.slice data start k) = none := by
  cases hvalue : value (Memory.slice data start k) with
  | none => rfl
  | some v =>
      have hall := (value_isSome_iff _).mp (by rw [hvalue]; rfl)
      refine absurd ?_ h
      intro c hc
      apply hall
      rw [← Memory.take_slice data start k n hle] at hc
      exact List.mem_of_mem_take hc

namespace RegisterPointers

variable {state : RegisterPointers width} {command : UInt8} {dataLen : Nat}
  {data data' : Memory UInt8}

theorem slice_readAnswer (h : AgreeOn dataLen data data') (hlen : 4 <= dataLen)
    (v : Nat) :
    Memory.slice
        (Memory.store data 4 (','.toUInt8 :: digits true (2 * width.bytes) v)) 0
        (5 + 2 * width.bytes) =
      Memory.slice
        (Memory.store data' 4 (','.toUInt8 :: digits true (2 * width.bytes) v))
        0 (5 + 2 * width.bytes) := by
  have hanswer (data : Memory UInt8) := Memory.slice_store_append data 0 4
    (','.toUInt8 :: digits true (2 * width.bytes) v)
  simp only [List.length_cons, digits_length, Nat.zero_add] at hanswer
  rw [show 5 + 2 * width.bytes = 4 + (2 * width.bytes + 1) by omega, hanswer,
    hanswer, h.slice_eq hlen]

/-- Either the value is the request's own, or it has a byte that is no digit. -/
theorem respond_alike (words : Memory width.Reg)
    (h : AgreeOn dataLen data data')
    (hown : ¬ StaleWrite (.pointers (some state)) command dataLen data) :
    (state.respond command dataLen data words).Alike
      (state.respond command dataLen data' words) := by
  rw [respond, respond]
  by_cases hcommand : command ≠ 'r'.toUInt8 ∧ command ≠ 'w'.toUInt8
  · rw [if_pos hcommand, if_pos hcommand]
    exact .refused _
  rw [if_neg hcommand, if_neg hcommand]
  by_cases hshort : dataLen < 4
  · rw [if_pos hshort, if_pos hshort]
    exact .refused _
  rw [if_neg hshort, if_neg hshort]
  have hfour := Nat.not_lt.mp hshort
  have haddress : Memory.slice data 0 4 = Memory.slice data' 0 4 :=
    h.slice_eq hfour
  rw [← haddress]
  cases hvalue : value (Memory.slice data 0 4) with
  | none => exact .thrown _
  | some regNum =>
      simp only
      by_cases hoob : state.nRegs.toNat <= regNum
      · rw [if_pos hoob, if_pos hoob]
        exact .refused _
      rw [if_neg hoob, if_neg hoob]
      by_cases hread : command = 'r'.toUInt8
      · rw [if_pos hread, if_pos hread]
        exact .replied _ (slice_readAnswer h hfour _)
      rw [if_neg hread, if_neg hread]
      by_cases hlen : dataLen < 5 + width.bytes
      · rw [if_pos hlen, if_pos hlen]
        exact .refused _
      rw [if_neg hlen, if_neg hlen]
      cases hpointer : state.pointers regNum with
      | none => exact .replied _ haddress
      | some p =>
          simp only
          by_cases hfull : 5 + 2 * width.bytes <= dataLen
          · rw [h.slice_eq hfull]
            cases value (Memory.slice data' 5 (2 * width.bytes)) with
            | none => exact .thrown _
            | some v => exact .replied _ haddress
          · have hwrite : command = 'w'.toUInt8 := by
              by_contra hne
              exact hcommand ⟨hread, hne⟩
            have hword : (RegisterHandler.pointers (some state)).word regNum =
                some p := by
              rw [RegisterHandler.word, if_neg hoob, hpointer]
            have hspoilt : ¬ forall c, c ∈ Memory.slice data 5 (dataLen - 5) ->
                (digitValue c).isSome := fun hall =>
              hown ⟨hwrite, Nat.not_lt.mp hlen, Nat.not_le.mp hfull,
                ⟨regNum, p, hvalue, hword⟩, hall⟩
            rw [value_eq_none_of_front (by omega) hspoilt]
            rw [h.slice_eq (by omega)] at hspoilt
            rw [value_eq_none_of_front (by omega) hspoilt]
            exact .thrown _

/-- A write to a word comes down to the value. -/
theorem respond_of_word {regNum p : Nat} (words : Memory width.Reg)
    (hcommand : command = 'w'.toUInt8) (hlen : 5 + width.bytes <= dataLen)
    (hvalue : value (Memory.slice data 0 4) = some regNum)
    (hword : (RegisterHandler.pointers (some state)).word regNum = some p) :
    state.respond command dataLen data words =
      match value (Memory.slice data 5 (2 * width.bytes)) with
      | none => .thrown .notHexChar
      | some v =>
          .replied data 4
            (writeWord words p (BitVec.ofNat width.bits v)
              (state.writeMasks regNum)) := by
  rw [RegisterHandler.word] at hword
  have hrange : ¬ state.nRegs.toNat <= regNum := by
    intro hoob
    rw [if_pos hoob] at hword
    cases hword
  rw [if_neg hrange] at hword
  rw [respond, if_neg (by rw [hcommand]; decide), if_neg (by omega), hvalue]
  simp only
  rw [if_neg hrange, if_neg (by rw [hcommand]; decide), if_neg (by omega)]
  cases value (Memory.slice data 5 (2 * width.bytes)) with
  | none => simp only [hword]
  | some v => simp only [hword]

end RegisterPointers

namespace RegisterHandler

variable {handler : RegisterHandler width} {command : UInt8} {dataLen : Nat}
  {data data' : Memory UInt8}

theorem respond_alike (words : Memory width.Reg)
    (h : AgreeOn dataLen data data')
    (hown : ¬ StaleWrite handler command dataLen data) :
    (handler.respond command dataLen data words).Alike
      (handler.respond command dataLen data' words) := by
  cases handler with
  | pointers state =>
      cases state with
      | none => exact .refused _
      | some state => exact RegisterPointers.respond_alike words h hown
  | block state =>
      cases state with
      | none => exact .thrown _
      | some state =>
          -- the words of the block are those of its pointers
          have hpointers : (state.toPointers.respond command dataLen data
              words).Alike (state.toPointers.respond command dataLen data'
              words) := RegisterPointers.respond_alike words h hown
          exact hpointers.strict

/-- A write to a word throws or replies, and only the value decides which. -/
theorem respond_of_word {regNum p : Nat} (words : Memory width.Reg)
    (hcommand : command = 'w'.toUInt8) (hlen : 5 + width.bytes <= dataLen)
    (hvalue : value (Memory.slice data 0 4) = some regNum)
    (hword : handler.word regNum = some p) :
    (value (Memory.slice data 5 (2 * width.bytes)) = none ->
      handler.respond command dataLen data words = .thrown .notHexChar) ∧
    ((value (Memory.slice data 5 (2 * width.bytes))).isSome ->
      exists words', handler.respond command dataLen data words =
        .replied data 4 words') := by
  have hstep (state : RegisterPointers width)
      (hword : (pointers (some state)).word regNum = some p) :
      (value (Memory.slice data 5 (2 * width.bytes)) = none ->
        state.respond command dataLen data words = .thrown .notHexChar) ∧
      ((value (Memory.slice data 5 (2 * width.bytes))).isSome ->
        exists words', state.respond command dataLen data words =
          .replied data 4 words') := by
    rw [RegisterPointers.respond_of_word words hcommand hlen hvalue hword]
    constructor
    · intro hnone
      rw [hnone]
    · intro hsome
      rcases Option.isSome_iff_exists.mp hsome with ⟨v, hv⟩
      rw [hv]
      exact ⟨_, rfl⟩
  cases handler with
  | pointers state =>
      cases state with
      | none => cases hword
      | some state => exact hstep state hword
  | block state =>
      cases state with
      | none => cases hword
      | some state =>
          rcases hstep state.toPointers hword with ⟨hnone, hsome⟩
          constructor
          · intro h
            rw [respond, hnone h]
            rfl
          · intro h
            rcases hsome h with ⟨words', hreply⟩
            exact ⟨words', by rw [respond, hreply]; rfl⟩

end RegisterHandler

/-!
## Two runs that tell a stale digit
-/

theorem Asc.putMessage_ne_notHexChar
    {ascVersion appVersion command : UInt8} {data : Memory UInt8}
    {dataLen : Nat} (h : dataLen <= maxDataLen) (asc : Asc) :
    Result.outcome (putMessage ascVersion appVersion command data dataLen asc) ≠
      .error (.exception .notHexChar) := by
  generalize hm : messageOf ascVersion appVersion command data dataLen = m
  have hlen : m.data.length <= maxDataLen := by
    rw [messageOf_data_length hm]
    exact h
  rw [putMessage_eq hm h]
  rcases computeChecksum_cases asc hlen with
    ⟨-, hthrown | hthrown⟩ | ⟨-, ⟨checksum, hok⟩ | hfault⟩
  · simp [hthrown]
  · simp [hthrown]
  · simp [hok]
  · simp [hfault]

theorem Response.react_replied_ne_notHexChar
    {ascVersion appVersion command : UInt8} {dataLen len : Nat}
    {out : Memory UInt8} {words : Memory width.Reg}
    (h : len <= maxDataLen) (s : HandlerState (World width)) :
    Result.outcome
        ((Response.replied out len words).react ascVersion appVersion command
          dataLen s) ≠ .error (.exception .notHexChar) := by
  rw [react_replied_outcome]
  exact Asc.putMessage_ne_notHexChar h s.asc

/-- Any bytes behind a part of the value that is all digits. -/
theorem exists_agreeOn_value {dataLen n : Nat} (data : Memory UInt8)
    (hstart : 5 <= dataLen) (hend : dataLen < 5 + n)
    (hdigits : forall c, c ∈ Memory.slice data 5 (dataLen - 5) ->
      (digitValue c).isSome) :
    (exists data', AgreeOn dataLen data data' ∧
      value (Memory.slice data' 5 n) = none) ∧
    exists data', AgreeOn dataLen data data' ∧
      (value (Memory.slice data' 5 n)).isSome := by
  have hagree (stale : List UInt8) :
      AgreeOn dataLen data (Memory.store data dataLen stale) := fun i hi =>
    (Memory.store_of_lt hi).symm
  have hslice (stale : List UInt8) (hlen : stale.length = 5 + n - dataLen) :
      Memory.slice (Memory.store data dataLen stale) 5 n =
        Memory.slice data 5 (dataLen - 5) ++ stale := by
    have hstored := Memory.slice_store_append data 5 (dataLen - 5) stale
    rwa [show 5 + (dataLen - 5) = dataLen by omega,
      show dataLen - 5 + stale.length = n by omega] at hstored
  constructor
  · let stale := List.replicate (5 + n - dataLen) ' '.toUInt8
    refine ⟨Memory.store data dataLen stale, hagree stale, ?_⟩
    rw [hslice stale List.length_replicate]
    rw [← Option.not_isSome_iff_eq_none, value_isSome_iff]
    intro hall
    have hspace := hall ' '.toUInt8 (List.mem_append_right _
      (List.mem_replicate.mpr ⟨by omega, rfl⟩))
    exact absurd hspace (by decide)
  · let stale := List.replicate (5 + n - dataLen) '0'.toUInt8
    refine ⟨Memory.store data dataLen stale, hagree stale, ?_⟩
    rw [hslice stale List.length_replicate, value_isSome_iff]
    intro c hc
    cases List.mem_append.mp hc with
    | inl hc => exact hdigits c hc
    | inr hc =>
        rw [List.eq_of_mem_replicate hc]
        decide

namespace RegisterHandler

/-- A request, whatever stands behind it in the buffer, has the same effect. -/
def ActsOnOwnBytes (handler : RegisterHandler width) (charSigned : Bool)
    (ascVersion appVersion command : UInt8) (dataLen : Nat)
    (s : HandlerState (World width)) : Prop :=
  forall data', AgreeOn dataLen s.data data' ->
    SameEffect
      (handler.handleMessage charSigned ascVersion appVersion command dataLen s)
      (handler.handleMessage charSigned ascVersion appVersion command dataLen
        { s with data := data' })

/-- **A request acts on its own bytes only** exactly when it does not write a
value that it does not bring in full. -/
theorem actsOnOwnBytes_iff (handler : RegisterHandler width)
    (charSigned : Bool) (ascVersion appVersion command : UInt8) (dataLen : Nat)
    (s : HandlerState (World width)) :
    handler.ActsOnOwnBytes charSigned ascVersion appVersion command dataLen s <->
      ¬ StaleWrite handler command dataLen s.data := by
  constructor
  · rintro hown ⟨hcommand, hlen, hshort, ⟨regNum, p, hvalue, hword⟩, hdigits⟩
    have hbytes := width.bytes_le
    rcases exists_agreeOn_value s.data (by omega) hshort hdigits with
      ⟨⟨bad, hbad, hnone⟩, ⟨good, hgood, hsome⟩⟩
    -- the runs with `bad` and `good` end alike, as both end like that of `s`
    have hends := ((hown bad hbad).left.symm.trans (hown good hgood).left)
    rw [handleMessage_eq, handleMessage_eq] at hends
    have hfour : 0 + 4 <= dataLen := by omega
    rw [hbad.slice_eq hfour] at hvalue
    have hthrown := (respond_of_word s.world.words hcommand hlen hvalue
      hword).left hnone
    rw [← hbad.slice_eq hfour, hgood.slice_eq hfour] at hvalue
    rcases (respond_of_word s.world.words hcommand hlen hvalue hword).right hsome
      with ⟨words', hreplied⟩
    simp only [hthrown, hreplied] at hends
    exact Response.react_replied_ne_notHexChar (by decide) _ hends.symm
  · intro hown data' hagree
    rw [handleMessage_eq, handleMessage_eq]
    exact (respond_alike s.world.words hagree hown).sameEffect hagree ascVersion
      appVersion command s.asc s.world

/-- One register of one byte. -/
def oneRegister : RegisterHandler .one :=
  .pointers (some
    { pointers := fun _ => some 0
      writeMasks := fun _ => 0xff
      nRegs := 1 })

/-- A request whose value has one digit, with another byte behind it. -/
def shortWrite (stale : Char) : HandlerState (World .one) :=
  { asc := Asc.init
    data := Memory.store (fun _ => 0) 0
      ("0000,1".toList.map Char.toUInt8 ++ [stale.toUInt8])
    world :=
      { words := fun _ => 0
        streamingIsOn := false } }

/-- The register takes the stale byte for a digit. -/
theorem not_actsOnOwnBytes_of_shortWrite :
    ¬ oneRegister.ActsOnOwnBytes true '0'.toUInt8 '0'.toUInt8 'w'.toUInt8 6
      (shortWrite '2') := by
  intro h
  have hagree : AgreeOn 6 (shortWrite '2').data (shortWrite '3').data := by
    unfold AgreeOn
    decide
  have hworld := congrArg (fun world => world.words 0)
    (h (shortWrite '3').data hagree).right.left
  revert hworld
  decide

end RegisterHandler
end AsciiSerialCom
