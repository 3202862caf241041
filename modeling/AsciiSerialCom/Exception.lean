import AsciiSerialCom.Foundation.StateError

/-!
# Exceptions

The exception codes of `asc_exception.h`, and the two ways in which a modelled
call can fail to return.
-/

namespace AsciiSerialCom

/-- `enum asc_exception`. -/
inductive AscException where
  | unkown
  | noError
  | dataTooLong
  | checksumProblem
  | invalidFrame
  | invalidFramePeriod
  | notHexChar
  | commandNotImplemented
  | unexpectedCommand
  | dataTooShort
  | regBlockNull
  | regnumOob
  | regvalLen
  | cbOob
  | cbPopEmpty
  | cbBadCapacity
  | fileRead
  | fileWrite
  deriving DecidableEq, Repr

/-- The value of the enumerator. -/
def AscException.code : AscException -> Nat
  | unkown => 0
  | noError => 1
  | dataTooLong => 0x10
  | checksumProblem => 0x11
  | invalidFrame => 0x12
  | invalidFramePeriod => 0x13
  | notHexChar => 0x14
  | commandNotImplemented => 0x15
  | unexpectedCommand => 0x16
  | dataTooShort => 0x17
  | regBlockNull => 0x20
  | regnumOob => 0x21
  | regvalLen => 0x22
  | cbOob => 0x30
  | cbPopEmpty => 0x31
  | cbBadCapacity => 0x32
  | fileRead => 0x40
  | fileWrite => 0x41

/-- Every code fits in a byte. -/
theorem AscException.code_lt (e : AscException) : e.code < 256 := by
  cases e <;> decide

/-- How a call can fail: a `Throw`, which the caller can catch, or an access
outside the memory it was given, after which C promises nothing. -/
inductive Failure where
  | exception (e : AscException)
  | outOfBounds
  deriving DecidableEq, Repr

/-- `Throw(e)` -/
def raise (e : AscException) : EStateM Failure σ α :=
  throw (Failure.exception e)

@[simp] theorem raise_apply (e : AscException) (s : σ) :
    (raise e : EStateM Failure σ α) s = .error (.exception e) s := rfl

end AsciiSerialCom
