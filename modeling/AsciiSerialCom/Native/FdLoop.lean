import AsciiSerialCom.CircularBuffer.IoFdPoll
import AsciiSerialCom.Foundation.Runs
import AsciiSerialCom.Frame

/-!
# The loop of the native programs

The programs under `src/native` that work on file descriptors have one loop:
poll, read, process what has come in, write, and choose the time limit of the
next poll.  They differ in what they process, and in whether an exception ends
the program or only the iteration.
-/

namespace AsciiSerialCom

open Foundation
open Foundation.StateError
open Foundation.Run

/-- What a program puts into the loop. -/
structure FdProgram (σ : Type _) where
  inBuf : σ -> RingBuffer maxMessageLen
  withInBuf : RingBuffer maxMessageLen -> σ -> σ
  outBuf : σ -> RingBuffer maxMessageLen
  withOutBuf : RingBuffer maxMessageLen -> σ -> σ
  /-- what stands between reading and writing -/
  process : EStateM Failure σ Unit
  /-- there is input left to process -/
  pending : σ -> Bool
  /-- an exception ends the program -/
  exitsOnThrow : Bool

namespace FdLoop

/-- The statements of the loop. -/
inductive Statement where
  | doPoll
  | doInput
  | process
  | doOutput
  | setTimeout
  deriving DecidableEq, Repr

/-- The statement that follows, around the loop. -/
def Statement.next : Statement -> Statement
  | doPoll => doInput
  | doInput => process
  | process => doOutput
  | doOutput => setTimeout
  | setTimeout => doPoll

end FdLoop

/-- A program in its loop, with all bytes that it has read and written. -/
structure FdLoop (σ : Type _) where
  vars : σ
  cbIo : CircularBufferIoFdPoll
  /-- in milliseconds; unlimited if negative -/
  timeout : Int
  /-- the statement that is executed next -/
  statement : FdLoop.Statement
  /-- what the program returned, if it has -/
  status : Option UInt8
  received : List UInt8
  sent : List UInt8
  /-- the latest iteration ended with an exception -/
  threw : Bool

abbrev FdLoopM (σ : Type _) := EStateM Failure (FdLoop σ)

namespace FdLoop

variable {σ : Type _}

/-- The program when it enters its loop. -/
def start (vars : σ) : FdLoop σ :=
  { vars := vars
    cbIo := .init
    timeout := -1
    statement := .doPoll
    status := none
    received := []
    sent := []
    threw := false }

def onVars (x : EStateM Failure σ α) : FdLoopM σ α :=
  zoom FdLoop.vars (fun vars s => { s with vars := vars }) x

/-- The statements of the loop in `main`. -/
def body (program : FdProgram σ) (kernel : Kernel) :
    Statement -> FdLoopM σ Unit
  | .doPoll => do
      let s ← get
      let (pollRetCode, cbIo) := s.cbIo.doPoll (program.inBuf s.vars)
        (program.outBuf s.vars) kernel.ready
      modify fun s => { s with cbIo := cbIo }
      if pollRetCode ≠ 0 then
        modify fun s => { s with status := some 1 }
      else
        pure ()
  | .doInput => do
      let s ← get
      let bytes := s.cbIo.delivered kernel.readResult (program.inBuf s.vars)
      let _ ← onVars (zoom program.inBuf program.withInBuf
        (s.cbIo.doInput kernel.readResult))
      modify fun s => { s with received := s.received ++ bytes }
  | .process => onVars program.process
  | .doOutput => do
      let s ← get
      let bytes ← onVars (zoom program.outBuf program.withOutBuf
        (s.cbIo.doOutput kernel.writeResult))
      modify fun s => { s with sent := s.sent ++ bytes }
  | .setTimeout =>
      modify fun s =>
        { s with
          timeout := if program.pending s.vars then 5 else -1
          threw := false }

/-- Execute a statement; an exception ends the program or the iteration. -/
def execute (program : FdProgram σ) (s : FdLoop σ) (kernel : Kernel) :
    FdLoop σ :=
  match body program kernel s.statement s with
  | .ok _ s' => { s' with statement := s.statement.next }
  | .error _ s' =>
      let s' := { s' with statement := .doPoll, threw := true }
      if program.exitsOnThrow then { s' with status := some 1 } else s'

def step (program : FdProgram σ) (s : FdLoop σ) (kernel : Kernel) :
    FdLoop σ :=
  if s.status.isSome then s else s.execute program kernel

/-!
## What a statement does
-/

section Cases

variable {program : FdProgram σ} {s : FdLoop σ} {kernel : Kernel}

/-- The bytes that the next statement reads. -/
def reads (program : FdProgram σ) (s : FdLoop σ) (kernel : Kernel) :
    List UInt8 :=
  s.cbIo.delivered kernel.readResult (program.inBuf s.vars)

/-- The program once an exception has been caught. -/
def caught (program : FdProgram σ) (s : FdLoop σ) (vars : σ) : FdLoop σ :=
  { s with
    vars := vars
    statement := .doPoll
    threw := true
    status := if program.exitsOnThrow then some 1 else s.status }

/-- All that the execution of a statement can do. -/
inductive ExecuteCase (program : FdProgram σ) (s : FdLoop σ)
    (kernel : Kernel) : FdLoop σ -> Prop where
  | polled {cbIo : CircularBufferIoFdPoll} (h : s.statement = .doPoll)
      (hgoes : ¬ CircularBufferIoFdPoll.Stops (program.inBuf s.vars)
        (program.outBuf s.vars) kernel.ready) :
      ExecuteCase program s kernel { s with cbIo := cbIo, statement := .doInput }
  | stopped {cbIo : CircularBufferIoFdPoll} (h : s.statement = .doPoll)
      (hstops : CircularBufferIoFdPoll.Stops (program.inBuf s.vars)
        (program.outBuf s.vars) kernel.ready) :
      ExecuteCase program s kernel
        { s with cbIo := cbIo, statement := .doInput, status := some 1 }
  | read {r : RingBuffer maxMessageLen} (h : s.statement = .doInput)
      (hcontents : r.contents = BoundedDeque.pushBackAll maxMessageLen
        (program.inBuf s.vars).contents (s.reads program kernel)) :
      ExecuteCase program s kernel
        { s with
          vars := program.withInBuf r s.vars
          received := s.received ++ s.reads program kernel
          statement := .process }
  | notRead (h : s.statement = .doInput)
      (hfails : kernel.readResult = none) :
      ExecuteCase program s kernel
        (s.caught program (program.withInBuf (program.inBuf s.vars) s.vars))
  | processed {vars : σ} (h : s.statement = .process)
      (hrun : program.process s.vars = .ok () vars) :
      ExecuteCase program s kernel
        { s with vars := vars, statement := .doOutput }
  | threw {vars : σ} {e : Failure} (h : s.statement = .process)
      (hrun : program.process s.vars = .error e vars) :
      ExecuteCase program s kernel (s.caught program vars)
  | written {bytes : List UInt8} {r : RingBuffer maxMessageLen}
      (h : s.statement = .doOutput)
      (hcontents : (program.outBuf s.vars).contents = bytes ++ r.contents) :
      ExecuteCase program s kernel
        { s with
          vars := program.withOutBuf r s.vars
          sent := s.sent ++ bytes
          statement := .setTimeout }
  | notWritten (h : s.statement = .doOutput)
      (hfails : kernel.writeResult = none) :
      ExecuteCase program s kernel
        (s.caught program (program.withOutBuf (program.outBuf s.vars) s.vars))
  | timeoutSet (h : s.statement = .setTimeout) :
      ExecuteCase program s kernel
        { s with
          timeout := if program.pending s.vars then 5 else -1
          threw := false
          statement := .doPoll }

theorem step_of_runs (hruns : s.status = none) :
    s.step program kernel = s.execute program kernel := by
  rw [step, hruns]
  rfl

theorem execute_of_error {statement : Statement} {e : Failure} {vars : σ}
    (h : s.statement = statement)
    (hrun : body program kernel statement s = .error e { s with vars := vars }) :
    s.execute program kernel = s.caught program vars := by
  rw [execute, h, hrun, caught]
  cases hexits : program.exitsOnThrow with
  | false => rfl
  | true => rfl

theorem execute_of_thrown {e : Failure} {vars : σ}
    (h : s.statement = .process)
    (hrun : program.process s.vars = .error e vars) :
    s.execute program kernel = s.caught program vars := by
  have hprocess : onVars program.process s =
      .error e { s with vars := vars } := zoom_of_error hrun
  have hbody : body program kernel .process s =
      .error e { s with vars := vars } := hprocess
  exact execute_of_error h hbody

/-- A poll that does not tell the program to stop. -/
theorem execute_of_polled (h : s.statement = .doPoll)
    (hgoes : ¬ CircularBufferIoFdPoll.Stops (program.inBuf s.vars)
      (program.outBuf s.vars) kernel.ready) :
    s.execute program kernel =
      { s with
        cbIo := (s.cbIo.doPoll (program.inBuf s.vars) (program.outBuf s.vars)
          kernel.ready).2
        statement := .doInput } := by
  have hzero := mt (CircularBufferIoFdPoll.doPoll_status_iff
    (program.inBuf s.vars) (program.outBuf s.vars) kernel.ready s.cbIo).mp hgoes
  rw [execute, h, body, bind_of_ok (get_apply s)]
  simp only [bind_apply, modify_apply, if_neg hzero, pure_apply]
  rfl

/-- **Every execution is one of the cases.** -/
theorem execute_cases (program : FdProgram σ) (s : FdLoop σ)
    (kernel : Kernel) :
    ExecuteCase program s kernel (s.execute program kernel) := by
  cases h : s.statement with
  | doPoll =>
      by_cases hstops : CircularBufferIoFdPoll.Stops (program.inBuf s.vars)
        (program.outBuf s.vars) kernel.ready
      · have hstatus := (CircularBufferIoFdPoll.doPoll_status_iff
          (program.inBuf s.vars) (program.outBuf s.vars) kernel.ready
          s.cbIo).mpr hstops
        rw [execute, h, body, bind_of_ok (get_apply s)]
        simp only [bind_apply, modify_apply, if_pos hstatus]
        exact .stopped h hstops
      · rw [execute_of_polled h hstops]
        exact .polled h hstops
  | doInput =>
      rcases s.cbIo.doInput_cases kernel.readResult (program.inBuf s.vars) with
        ⟨k, r, hrun, hcontents⟩ | ⟨hfails, hrun⟩
      · have hinput : onVars (zoom program.inBuf program.withInBuf
            (s.cbIo.doInput kernel.readResult)) s =
            .ok k { s with vars := program.withInBuf r s.vars } :=
          zoom_of_ok (zoom_of_ok hrun)
        rw [execute, h, body, bind_of_ok (get_apply s), bind_of_ok hinput]
        exact .read h hcontents
      · have hinput : onVars (zoom program.inBuf program.withInBuf
            (s.cbIo.doInput kernel.readResult)) s =
            .error (.exception .fileRead)
              { s with
                vars := program.withInBuf (program.inBuf s.vars) s.vars } :=
          zoom_of_error (zoom_of_error hrun)
        have hbody : body program kernel .doInput s =
            .error (.exception .fileRead)
              { s with
                vars := program.withInBuf (program.inBuf s.vars) s.vars } :=
          (bind_of_ok (get_apply s)).trans (bind_of_error hinput)
        rw [execute_of_error h hbody]
        exact .notRead h hfails
  | process =>
      cases hrun : program.process s.vars with
      | ok u vars =>
          have hprocess : onVars program.process s =
              .ok () { s with vars := vars } := zoom_of_ok hrun
          rw [execute, h, body, hprocess]
          exact .processed h hrun
      | error e vars =>
          rw [execute_of_thrown h hrun]
          exact .threw h hrun
  | doOutput =>
      rcases s.cbIo.doOutput_cases kernel.writeResult
        (program.outBuf s.vars) with
        ⟨bytes, r, hrun, hcontents⟩ | ⟨hfails, hrun⟩
      · have houtput : onVars (zoom program.outBuf program.withOutBuf
            (s.cbIo.doOutput kernel.writeResult)) s =
            .ok bytes { s with vars := program.withOutBuf r s.vars } :=
          zoom_of_ok (zoom_of_ok hrun)
        rw [execute, h, body, bind_of_ok (get_apply s), bind_of_ok houtput]
        exact .written h hcontents
      · have houtput : onVars (zoom program.outBuf program.withOutBuf
            (s.cbIo.doOutput kernel.writeResult)) s =
            .error (.exception .fileWrite)
              { s with
                vars := program.withOutBuf (program.outBuf s.vars) s.vars } :=
          zoom_of_error (zoom_of_error hrun)
        have hbody : body program kernel .doOutput s =
            .error (.exception .fileWrite)
              { s with
                vars := program.withOutBuf (program.outBuf s.vars) s.vars } :=
          (bind_of_ok (get_apply s)).trans (bind_of_error houtput)
        rw [execute_of_error h hbody]
        exact .notWritten h hfails
  | setTimeout =>
      rw [execute, h]
      exact .timeoutSet h

end Cases

/-!
## What a program keeps
-/

end FdLoop

/-- A program keeps a relation between its variables and all bytes that it has
read and written, as long as it reads what it may and finds what it can process,
and leaves another one when it ends.  The flag says that nothing has been read
since the last call of `process`. -/
structure FdProgram.Keeps {σ : Type} (program : FdProgram σ)
    (I : Bool -> σ -> (received sent : List UInt8) -> Prop)
    (Ended : σ -> (received sent : List UInt8) -> Prop)
    (Reads : σ -> List UInt8 -> Prop) (Handles : σ -> Prop) : Prop where
  restoresIn : forall vars,
    program.withInBuf (program.inBuf vars) vars = vars
  restoresOut : forall vars,
    program.withOutBuf (program.outBuf vars) vars = vars
  reads : forall vars received sent bytes r, I true vars received sent ->
    bytes.length <= (program.inBuf vars).raw.blockSizeAvailable ->
    Reads vars bytes ->
      r.contents = BoundedDeque.pushBackAll maxMessageLen
        (program.inBuf vars).contents bytes ->
        I false (program.withInBuf r vars) (received ++ bytes) sent
  processes : forall vars received sent, I false vars received sent ->
    Handles vars ->
      Result.outcome (program.process vars) ≠ .error .outOfBounds
  processed : forall vars vars' received sent, I false vars received sent ->
    Handles vars -> program.process vars = .ok () vars' ->
      I true vars' received sent
  threw : forall vars vars' e received sent, I false vars received sent ->
    Handles vars -> program.process vars = .error e vars' ->
      if program.exitsOnThrow then Ended vars' received sent
      else I true vars' received sent
  writes : forall vars received sent bytes r, I true vars received sent ->
    (program.outBuf vars).contents = bytes ++ r.contents ->
      I true (program.withOutBuf r vars) received (sent ++ bytes)
  ends : forall vars received sent, I true vars received sent ->
    Ended vars received sent

namespace FdLoop

section Keeps

variable {σ : Type} {program : FdProgram σ} {s : FdLoop σ} {kernel : Kernel}
  {I : Bool -> σ -> (received sent : List UInt8) -> Prop}
  {Ended : σ -> (received sent : List UInt8) -> Prop}
  {Reads : σ -> List UInt8 -> Prop} {Handles : σ -> Prop}

/-- The next statement reads what it may, or finds what it can process. -/
def Admits (program : FdProgram σ) (Reads : σ -> List UInt8 -> Prop)
    (Handles : σ -> Prop) (s : FdLoop σ) (kernel : Kernel) : Prop :=
  (s.statement = .doInput -> Reads s.vars (s.reads program kernel)) ∧
    (s.statement = .process -> Handles s.vars)

instance [forall vars bytes, Decidable (Reads vars bytes)]
    [forall vars, Decidable (Handles vars)] (kernel : Kernel) :
    Decidable (s.Admits program Reads Handles kernel) :=
  inferInstanceAs (Decidable (_ ∧ _))

/-- What the program has is in the one relation while it runs, and in the other
once it has ended. -/
def Inv (I : Bool -> σ -> (received sent : List UInt8) -> Prop)
    (Ended : σ -> (received sent : List UInt8) -> Prop) (s : FdLoop σ) : Prop :=
  (s.status = none -> I (s.statement ≠ .process) s.vars s.received s.sent) ∧
    (s.status ≠ none -> Ended s.vars s.received s.sent)

/-- A running program stays within its memory. -/
def Sound (program : FdProgram σ) (s : FdLoop σ) (kernel : Kernel) : Prop :=
  s.status = none ->
    Result.outcome (body program kernel s.statement s) ≠ .error .outOfBounds

theorem Inv.of_runs (hruns : s.status = none)
    (h : I (s.statement ≠ .process) s.vars s.received s.sent) :
    s.Inv I Ended :=
  ⟨fun _ => h, fun hends => absurd hruns hends⟩

theorem Inv.of_ended (hends : s.status ≠ none)
    (h : Ended s.vars s.received s.sent) : s.Inv I Ended :=
  ⟨fun hruns => absurd hruns hends, fun _ => h⟩

theorem Inv.of_ready (h : s.Inv I Ended) (hruns : s.status = none)
    (hready : s.statement ≠ .process) : I true s.vars s.received s.sent := by
  simpa [hready] using h.left hruns

theorem Inv.of_process (h : s.Inv I Ended) (hruns : s.status = none)
    (hprocess : s.statement = .process) :
    I false s.vars s.received s.sent := by
  simpa [hprocess] using h.left hruns

/-- A relation that outlasts the program holds in any case. -/
theorem Inv.holds (h : s.Inv I (I true)) :
    exists ready, I ready s.vars s.received s.sent := by
  by_cases hruns : s.status = none
  · exact ⟨_, h.left hruns⟩
  · exact ⟨true, h.right hruns⟩

/-- An exception ends the program, or only the iteration. -/
theorem inv_caught {vars : σ} (hruns : s.status = none)
    (h : if program.exitsOnThrow then Ended vars s.received s.sent
      else I true vars s.received s.sent) :
    (s.caught program vars).Inv I Ended := by
  have hstatus : (s.caught program vars).status =
      if program.exitsOnThrow then some 1 else s.status := rfl
  by_cases hexits : program.exitsOnThrow = true
  · rw [if_pos hexits] at h hstatus
    exact Inv.of_ended (by rw [hstatus]; decide) h
  · rw [if_neg hexits] at h hstatus
    exact Inv.of_runs (hstatus.trans hruns) h

theorem inv_execute (hkeeps : program.Keeps I Ended Reads Handles)
    (h : s.Inv I Ended) (hruns : s.status = none)
    (hadmits : s.Admits program Reads Handles kernel) :
    (s.execute program kernel).Inv I Ended := by
  have hready {statement : Statement} (hstatement : s.statement = statement)
      (hne : statement ≠ .process) : I true s.vars s.received s.sent :=
    h.of_ready hruns (by rw [hstatement]; exact hne)
  -- a system call that fails leaves the variables as they are
  have hfailed {statement : Statement} (hstatement : s.statement = statement)
      (hne : statement ≠ .process) :
      if program.exitsOnThrow then Ended s.vars s.received s.sent
      else I true s.vars s.received s.sent := by
    have hrelation := hready hstatement hne
    split
    · exact hkeeps.ends _ _ _ hrelation
    · exact hrelation
  have hcase := execute_cases program s kernel
  generalize s.execute program kernel = s' at hcase ⊢
  cases hcase with
  | polled hstatement hgoes =>
      exact Inv.of_runs hruns (hready hstatement (by decide))
  | stopped hstatement hstops =>
      exact Inv.of_ended (by simp)
        (hkeeps.ends _ _ _ (hready hstatement (by decide)))
  | read hstatement hcontents =>
      exact Inv.of_runs hruns
        (hkeeps.reads _ _ _ _ _ (hready hstatement (by decide))
          (CircularBufferIoFdPoll.delivered_length_le _ _ _)
          (hadmits.left hstatement) hcontents)
  | notRead hstatement hfails =>
      rw [hkeeps.restoresIn]
      exact inv_caught hruns (hfailed hstatement (by decide))
  | processed hstatement hrun =>
      exact Inv.of_runs hruns
        (hkeeps.processed _ _ _ _ (h.of_process hruns hstatement)
          (hadmits.right hstatement) hrun)
  | threw hstatement hrun =>
      exact inv_caught hruns
        (hkeeps.threw _ _ _ _ _ (h.of_process hruns hstatement)
          (hadmits.right hstatement) hrun)
  | written hstatement hcontents =>
      exact Inv.of_runs hruns
        (hkeeps.writes _ _ _ _ _ (hready hstatement (by decide)) hcontents)
  | notWritten hstatement hfails =>
      rw [hkeeps.restoresOut]
      exact inv_caught hruns (hfailed hstatement (by decide))
  | timeoutSet hstatement =>
      exact Inv.of_runs hruns (hready hstatement (by decide))

theorem inv_step (hkeeps : program.Keeps I Ended Reads Handles)
    (h : s.Inv I Ended) (hadmits : s.Admits program Reads Handles kernel) :
    (s.step program kernel).Inv I Ended := by
  rw [step]
  split
  · exact h
  · rename_i hruns
    rw [Option.not_isSome_iff_eq_none] at hruns
    exact inv_execute hkeeps h hruns hadmits

theorem sound_of_keeps (hkeeps : program.Keeps I Ended Reads Handles)
    (h : s.Inv I Ended) (hadmits : s.Admits program Reads Handles kernel) :
    s.Sound program kernel := by
  intro hruns
  cases hstatement : s.statement with
  | doPoll =>
      rw [body, bind_of_ok (get_apply s)]
      simp only [bind_apply, modify_apply]
      split
      · simp
      · simp
  | doInput =>
      rw [body, bind_of_ok (get_apply s)]
      rcases s.cbIo.doInput_cases kernel.readResult (program.inBuf s.vars) with
        ⟨k, r, hrun, -⟩ | ⟨-, hrun⟩
      · have hinput : onVars (zoom program.inBuf program.withInBuf
            (s.cbIo.doInput kernel.readResult)) s = .ok k _ :=
          zoom_of_ok (zoom_of_ok hrun)
        rw [bind_of_ok hinput]
        simp
      · have hinput : onVars (zoom program.inBuf program.withInBuf
            (s.cbIo.doInput kernel.readResult)) s =
            .error (.exception .fileRead) _ :=
          zoom_of_error (zoom_of_error hrun)
        rw [bind_of_error hinput]
        simp
  | process =>
      rw [body, onVars, zoom_outcome]
      exact hkeeps.processes _ _ _ (h.of_process hruns hstatement)
        (hadmits.right hstatement)
  | doOutput =>
      rw [body, bind_of_ok (get_apply s)]
      rcases s.cbIo.doOutput_cases kernel.writeResult
        (program.outBuf s.vars) with ⟨bytes, r, hrun, -⟩ | ⟨-, hrun⟩
      · have houtput : onVars (zoom program.outBuf program.withOutBuf
            (s.cbIo.doOutput kernel.writeResult)) s = .ok bytes _ :=
          zoom_of_ok (zoom_of_ok hrun)
        rw [bind_of_ok houtput]
        simp
      · have houtput : onVars (zoom program.outBuf program.withOutBuf
            (s.cbIo.doOutput kernel.writeResult)) s =
            .error (.exception .fileWrite) _ :=
          zoom_of_error (zoom_of_error hrun)
        rw [bind_of_error houtput]
        simp
  | setTimeout => simp [body]

/-- **A run keeps what the program keeps**, and stays within its memory. -/
theorem keeps_of_run (hkeeps : program.Keeps I Ended Reads Handles)
    {kernels : List Kernel} (h : s.Inv I Ended)
    (hallowed : Allowed (step program) (Admits program Reads Handles) s
      kernels) :
    Allowed (step program) (Sound program) s kernels ∧
      (run (step program) s kernels).Inv I Ended :=
  ⟨hallowed.imp (fun _ _ hs hadmits =>
      ⟨sound_of_keeps hkeeps hs hadmits, inv_step hkeeps hs hadmits⟩) h,
    hallowed.invariant (fun _ _ hs hadmits => inv_step hkeeps hs hadmits) h⟩

end Keeps

/-!
## When it stops, and how long it waits
-/

section Ends

variable {σ : Type} {program : FdProgram σ} {s : FdLoop σ} {kernel : Kernel}

/-- A program whose exceptions end only the iteration returns only because of
what it has polled. -/
theorem stops_of_status (hcatches : program.exitsOnThrow = false)
    (hruns : s.status = none) (hends : (s.step program kernel).status ≠ none) :
    CircularBufferIoFdPoll.Stops (program.inBuf s.vars)
      (program.outBuf s.vars) kernel.ready := by
  have hcase := execute_cases program s kernel
  rw [step_of_runs hruns] at hends
  generalize s.execute program kernel = s' at hcase hends
  cases hcase with
  | stopped hstatement hstops => exact hstops
  | notRead hstatement hfails =>
      rw [caught, hcatches] at hends
      exact absurd hruns hends
  | threw hstatement hrun =>
      rw [caught, hcatches] at hends
      exact absurd hruns hends
  | notWritten hstatement hfails =>
      rw [caught, hcatches] at hends
      exact absurd hruns hends
  | polled hstatement hgoes => exact absurd hruns hends
  | read hstatement hcontents => exact absurd hruns hends
  | processed hstatement hrun => exact absurd hruns hends
  | written hstatement hcontents => exact absurd hruns hends
  | timeoutSet hstatement => exact absurd hruns hends

/-- If reading and writing succeed, a program whose exceptions end it ends when
polling tells it to, or when its processing throws. -/
theorem ends_iff (hexits : program.exitsOnThrow = true)
    (hruns : s.status = none) (hread : kernel.readResult ≠ none)
    (hwrite : kernel.writeResult ≠ none) :
    (s.step program kernel).status ≠ none <->
      s.statement = .doPoll ∧
          CircularBufferIoFdPoll.Stops (program.inBuf s.vars)
            (program.outBuf s.vars) kernel.ready ∨
        s.statement = .process ∧
          exists e vars, program.process s.vars = .error e vars := by
  have hcase := execute_cases program s kernel
  rw [step_of_runs hruns]
  generalize s.execute program kernel = s' at hcase ⊢
  have hgoes {statement : Statement} (hstatement : s.statement = statement)
      (hpoll : statement ≠ .doPoll) (hprocess : statement ≠ .process) :
      s.status ≠ none <->
        s.statement = .doPoll ∧
            CircularBufferIoFdPoll.Stops (program.inBuf s.vars)
              (program.outBuf s.vars) kernel.ready ∨
          s.statement = .process ∧
            exists e vars, program.process s.vars = .error e vars := by
    subst hstatement
    exact iff_of_false (not_not_intro hruns)
      (not_or.mpr ⟨fun h => hpoll h.left, fun h => hprocess h.left⟩)
  cases hcase with
  | polled hstatement hgoes =>
      refine iff_of_false (not_not_intro hruns) ?_
      rintro (⟨-, hstops⟩ | ⟨hprocess, -⟩)
      · exact hgoes hstops
      · cases hstatement.symm.trans hprocess
  | stopped hstatement hstops =>
      exact iff_of_true (by simp) (Or.inl ⟨hstatement, hstops⟩)
  | read hstatement hcontents => exact hgoes hstatement (by decide) (by decide)
  | notRead hstatement hfails => exact absurd hfails hread
  | processed hstatement hrun =>
      refine iff_of_false (not_not_intro hruns) ?_
      rintro (⟨hpolls, -⟩ | ⟨-, e, vars, hthrew⟩)
      · cases hstatement.symm.trans hpolls
      · cases hrun.symm.trans hthrew
  | threw hstatement hrun =>
      refine iff_of_true ?_ (Or.inr ⟨hstatement, _, _, hrun⟩)
      rw [caught, if_pos hexits]
      simp
  | written hstatement hcontents =>
      exact hgoes hstatement (by decide) (by decide)
  | notWritten hstatement hfails => exact absurd hfails hwrite
  | timeoutSet hstatement => exact hgoes hstatement (by decide) (by decide)

/-- Before it polls, a program waits without limit only if it has nothing left to
process, or if the latest iteration ended with an exception. -/
def WaitsForInput (program : FdProgram σ) (s : FdLoop σ) : Prop :=
  s.statement = .doPoll -> s.threw = false ->
    s.timeout = if program.pending s.vars then 5 else -1

theorem waitsForInput_step (h : s.WaitsForInput program) :
    (s.step program kernel).WaitsForInput program := by
  rw [step]
  split
  · exact h
  have hcase := execute_cases program s kernel
  generalize s.execute program kernel = s' at hcase ⊢
  intro hpolls hthrew
  cases hcase with
  | polled hstatement hgoes => cases hpolls
  | stopped hstatement hstops => cases hpolls
  | read hstatement hcontents => cases hpolls
  | notRead hstatement hfails => cases hthrew
  | processed hstatement hrun => cases hpolls
  | threw hstatement hrun => cases hthrew
  | written hstatement hcontents => cases hpolls
  | notWritten hstatement hfails => cases hthrew
  | timeoutSet hstatement => rfl

end Ends

/-- Both descriptors are ready. -/
def serving (bytes : List UInt8) : Kernel :=
  { ready := some
      ({ Revents.clear with pollin := true },
        { Revents.clear with pollout := true })
    readResult := some bytes
    writeResult := some maxMessageLen }

/-- The input has been hung up. -/
def hangup : Kernel :=
  { ready := some ({ Revents.clear with pollhup := true }, Revents.clear)
    readResult := some []
    writeResult := some 0 }

end FdLoop
end AsciiSerialCom
