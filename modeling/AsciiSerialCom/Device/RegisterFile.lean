import AsciiSerialCom.Device.Response
import AsciiSerialCom.Foundation.Fairness

/-!
# The register file

What a device with register pointers is for: a file of registers that answers
reads with their values and writes through masks.  The handler refines it as long
as no two registers share a word.
-/

namespace AsciiSerialCom

open Foundation
open Foundation.Hexadecimal

variable {width : RegWidth}

/-- A file of masked registers; registers without a value read as zero and
ignore writes. -/
structure RegisterFile (width : RegWidth) where
  /-- number of registers -/
  size : Nat
  value : Nat -> Option width.Reg
  mask : Nat -> width.Reg

namespace RegisterFile

def read (file : RegisterFile width) (i : Nat) : width.Reg :=
  (file.value i).getD 0

/-- The bits in the mask are written, the others stay. -/
def write (file : RegisterFile width) (i : Nat) (v : width.Reg) :
    RegisterFile width :=
  { file with
    value := fun j =>
      if j = i then
        (file.value i).map fun old =>
          (v &&& file.mask i) ||| (old &&& ~~~file.mask i)
      else
        file.value j }

/-- The register a request is about. -/
def regNum (m : Message) : Nat := (Hexadecimal.value (m.data.take 4)).getD 0

/-- The value a request writes. -/
def newValue (width : RegWidth) (m : Message) : width.Reg :=
  BitVec.ofNat width.bits
    ((Hexadecimal.value ((m.data.drop 5).take (2 * width.bytes))).getD 0)

/-- The answer to a request, and the file afterwards. -/
def answer (file : RegisterFile width) (m : Message) :
    Message × RegisterFile width :=
  if file.size <= regNum m then
    (Asc.errorMessage m.ascVersion m.appVersion m.command m.data .regnumOob,
      file)
  else if m.command = 'r'.toUInt8 then
    (valueMessage m (file.read (regNum m)), file)
  else
    (echoMessage m, file.write (regNum m) (newValue width m))

theorem answer_fromRequest (file : RegisterFile width) (m : Message) :
    FromRequest m (file.answer m).1 ∧ (file.answer m).1.data.length <= 14 := by
  rw [answer]
  split
  · exact ⟨errorMessage_fromRequest m _, errorMessage_length _ _ _ _ _⟩
  · split
    · exact ⟨valueMessage_fromRequest m _,
        Nat.le_trans (valueMessage_length m _) (by decide)⟩
    · exact ⟨echoMessage_fromRequest m,
        Nat.le_trans (echoMessage_length m) (by decide)⟩

theorem answer_sendable (file : RegisterFile width) {m : Message}
    (hm : m.Sendable) :
    (file.answer m).1.Sendable ∧ (file.answer m).1.data.length <= 14 := by
  rcases file.answer_fromRequest m with ⟨hfrom, hlen⟩
  exact ⟨hfrom.sendable hm (Nat.le_trans hlen (by decide)), hlen⟩

end RegisterFile

/-- A well-formed request of a host. -/
structure IsRequest (width : RegWidth) (m : Message) : Prop where
  valid : m.Valid
  address : 4 <= m.data.length ∧ (value (m.data.take 4)).isSome
  read_or_write : m.command = 'r'.toUInt8 ∨
    m.command = 'w'.toUInt8 ∧ 5 + 2 * width.bytes <= m.data.length ∧
      (value ((m.data.drop 5).take (2 * width.bytes))).isSome

instance (width : RegWidth) (m : Message) : Decidable (IsRequest width m) :=
  decidable_of_iff
    (m.Valid ∧ (4 <= m.data.length ∧ (value (m.data.take 4)).isSome) ∧
      (m.command = 'r'.toUInt8 ∨
        m.command = 'w'.toUInt8 ∧ 5 + 2 * width.bytes <= m.data.length ∧
          (value ((m.data.drop 5).take (2 * width.bytes))).isSome))
    ⟨fun h => ⟨h.left, h.right.left, h.right.right⟩,
      fun h => ⟨h.valid, h.address, h.read_or_write⟩⟩

theorem IsRequest.command_eq {m : Message} (h : IsRequest width m) :
    m.command = 'r'.toUInt8 ∨ m.command = 'w'.toUInt8 := by
  rcases h.read_or_write with hr | ⟨hw, -⟩
  · exact Or.inl hr
  · exact Or.inr hw

namespace RegisterPointers

/-- No two registers share a word. -/
def Distinct (state : RegisterPointers width) : Prop :=
  forall i j p, i < state.nRegs.toNat -> j < state.nRegs.toNat ->
    state.pointers i = some p -> state.pointers j = some p -> i = j

/-- The register file that the pointers and the words behind them make up. -/
def file (state : RegisterPointers width) (words : Memory width.Reg) :
    RegisterFile width :=
  { size := state.nRegs.toNat
    value := fun i =>
      if i < state.nRegs.toNat then (state.pointers i).map words else none
    mask := state.writeMasks }

variable {state : RegisterPointers width} {words : Memory width.Reg}

theorem file_read {i : Nat} (hi : i < state.nRegs.toNat) :
    (state.file words).read i = readWord words (state.pointers i) := by
  simp only [RegisterFile.read, file, if_pos hi, readWord]

theorem file_write_of_none {i : Nat} (hi : i < state.nRegs.toNat)
    (hpointer : state.pointers i = none) (v : width.Reg) :
    (state.file words).write i v = state.file words := by
  have hvalue : (state.file words).value i = none := by
    simp only [file, if_pos hi, hpointer, Option.map_none]
  simp only [RegisterFile.write, hvalue, Option.map_none]
  congr 1
  funext j
  split
  · rename_i hj
    rw [hj]
    exact hvalue.symm
  · rfl

theorem writeWord_self (words : Memory width.Reg) (p : Nat)
    (v mask : width.Reg) :
    writeWord words p v mask p = (v &&& mask) ||| (words p &&& ~~~mask) := by
  simp [writeWord, Memory.store]

theorem writeWord_of_ne {words : Memory width.Reg} {p q : Nat} (h : q ≠ p)
    (v mask : width.Reg) : writeWord words p v mask q = words q := by
  rcases Nat.lt_or_gt_of_ne h with hlt | hgt
  · exact Memory.store_of_lt hlt
  · exact Memory.store_of_ge hgt

theorem file_write_of_some (hdistinct : state.Distinct) {i p : Nat}
    (hi : i < state.nRegs.toNat) (hpointer : state.pointers i = some p)
    (v : width.Reg) :
    state.file (writeWord words p v (state.writeMasks i)) =
      (state.file words).write i v := by
  simp only [RegisterFile.write, file, if_pos hi, hpointer, Option.map_some]
  congr 1
  funext j
  by_cases hj : j < state.nRegs.toNat
  · rw [if_pos hj, if_pos hj]
    by_cases hji : j = i
    · rw [if_pos hji, hji, hpointer, Option.map_some, writeWord_self]
    · rw [if_neg hji]
      cases hother : state.pointers j with
      | none => rfl
      | some q =>
          have hne : q ≠ p := by
            rintro rfl
            exact hji (hdistinct j i q hj hi hother hpointer)
          rw [Option.map_some, Option.map_some, writeWord_of_ne hne]
  · have hji : j ≠ i := by
      rintro rfl
      exact hj hi
    rw [if_neg hj, if_neg hj, if_neg hji]

theorem regNum_of_value {m : Message} {regNum : Nat}
    (h : value (m.data.take 4) = some regNum) :
    RegisterFile.regNum m = regNum := by
  rw [RegisterFile.regNum, h]
  rfl

/-- What the file makes of a request for one of its registers. -/
theorem file_answer {m : Message} {regNum : Nat}
    (haddress : Addresses state m regNum) :
    (state.file words).answer m =
      if m.command = 'r'.toUInt8 then
        (valueMessage m (readWord words (state.pointers regNum)),
          state.file words)
      else
        (echoMessage m,
          (state.file words).write regNum (RegisterFile.newValue width m)) := by
  have hsize : (state.file words).size = state.nRegs.toNat := rfl
  rw [RegisterFile.answer, regNum_of_value haddress.right.left, hsize,
    if_neg (Nat.not_le.mpr haddress.right.right), file_read haddress.right.right]

/-- The value that the handler reads is the one in the message. -/
theorem slice_value {m : Message} {data : Memory UInt8} (hdata : Holds data m)
    (hlen : 5 + 2 * width.bytes <= m.data.length) :
    Memory.slice data 5 (2 * width.bytes) =
      (m.data.drop 5).take (2 * width.bytes) := by
  have hdrop := Memory.drop_slice data 0 5 (2 * width.bytes)
  rw [Nat.zero_add] at hdrop
  rw [← hdrop, ← Memory.take_slice data 0 m.data.length _ hlen, hdata,
    List.drop_take, Nat.add_sub_cancel_left]

/-- **The handler refines the register file**: a well-formed request gets the
answer of the file, and the words afterwards make up the file afterwards. -/
theorem respond_refines_file (hdistinct : state.Distinct) {m : Message}
    (hm : IsRequest width m) {data : Memory UInt8} (hdata : Holds data m)
    (world : World width) :
    let response := state.respond m.command m.data.length data world.words
    response.answer m = some ((state.file world.words).answer m).1 ∧
      state.file (response.worldAfter world).words =
        ((state.file world.words).answer m).2 := by
  have hrw : 'w'.toUInt8 ≠ 'r'.toUInt8 := by decide
  have hsize : (state.file world.words).size = state.nRegs.toNat := rfl
  have hbytes : 0 < width.bytes := by
    cases width <;> decide
  have hwrites (hwrite : m.command = 'w'.toUInt8) :
      5 + 2 * width.bytes <= m.data.length ∧
        (value ((m.data.drop 5).take (2 * width.bytes))).isSome := by
    rcases hm.read_or_write with hr | ⟨-, h⟩
    · exact absurd (hwrite.symm.trans hr) hrw
    · exact h
  have hcase := respond_cases state world.words hdata
  generalize state.respond m.command m.data.length data world.words = response
    at hcase ⊢
  cases hcase with
  | unexpected hr hw => exact absurd hm.command_eq (not_or.mpr ⟨hr, hw⟩)
  | tooShort hlen => exact absurd hm.address.left (Nat.not_le.mpr hlen)
  | badAddress hlen hvalue =>
      have hsome := hm.address.right
      rw [hvalue] at hsome
      cases hsome
  | outOfRange hlen hvalue hoob =>
      rw [RegisterFile.answer, regNum_of_value hvalue, hsize, if_pos hoob]
      exact ⟨rfl, rfl⟩
  | read hread haddress =>
      rw [file_answer haddress, if_pos hread]
      exact ⟨answer_read _ hdata haddress _, rfl⟩
  | noValue hwrite haddress hlen =>
      have hlong := (hwrites hwrite).left
      omega
  | @unmapped regNum hwrite haddress hlen hpointer =>
      rw [file_answer haddress, if_neg (hwrite ▸ hrw),
        file_write_of_none haddress.right.right hpointer]
      exact ⟨answer_echo _ hdata haddress, rfl⟩
  | badValue hwrite haddress hlen hpointer hvalue =>
      rcases hwrites hwrite with ⟨hlong, hsome⟩
      rw [← slice_value hdata hlong, hvalue] at hsome
      cases hsome
  | @write regNum p v hwrite haddress hlen hpointer hvalue =>
      have hnew : RegisterFile.newValue width m =
          BitVec.ofNat width.bits v := by
        rw [RegisterFile.newValue, ← slice_value hdata (hwrites hwrite).left,
          hvalue]
        rfl
      rw [file_answer haddress, if_neg (hwrite ▸ hrw), hnew,
        ← file_write_of_some hdistinct haddress.right.right hpointer]
      exact ⟨answer_echo _ hdata haddress, rfl⟩

end RegisterPointers
end AsciiSerialCom
