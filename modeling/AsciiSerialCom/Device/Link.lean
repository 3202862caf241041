import AsciiSerialCom.Device.Polling
import AsciiSerialCom.Device.RegisterFile

/-!
# A host and a device

A host sends requests byte by byte to a device in its polling loop, the next one
only after the reply to the one before is complete.  Whatever the order in which
bytes arrive, the transmitter gets ready and the loop runs, the bytes transmitted
are the answers of the register file.

At any time one request at most is on its way.  Its bytes are spread over the two
input buffers and the host, and while some of them are missing the output buffer
is empty, so that the answer always finds room.
-/

namespace AsciiSerialCom

open Foundation
open Foundation.StateError
open Foundation.Run

variable {width : RegWidth}

/-!
## The system
-/

/-- A host with its requests. -/
structure Host where
  /-- what is left of the request being sent -/
  sending : List UInt8
  /-- the requests not started yet -/
  requests : List Message
  /-- number of requests started so far -/
  started : Nat

/-- Start the next request, once as many replies have ended as requests have
been started. -/
def Host.takeRequest (transmitted : List UInt8) (host : Host) : Host :=
  match host.sending, host.requests with
  | [], m :: rest =>
      if transmitted.count endByte = host.started then
        { sending := m.frame
          requests := rest
          started := host.started + 1 }
      else
        host
  | _, _ => host

/-- One event of the schedule. -/
inductive LinkEvent where
  /-- the next byte of the host arrives, if there is one -/
  | arrive
  /-- the transmitter gets ready -/
  | ready
  /-- one iteration of the polling loop -/
  | iterate
  deriving DecidableEq, Repr

/-- A device in its polling loop, and a host. -/
structure Link (width : RegWidth) where
  polling : Polling width
  host : Host

namespace Link

def start (ascd : Device (World width)) (uartReady : Bool)
    (requests : List Message) : Link width :=
  { polling := Polling.setup ascd uartReady
    host :=
      { sending := []
        requests := requests
        started := 0 } }

def arrive (s : Link width) : Link width :=
  let host := s.host.takeRequest s.polling.transmitted
  match host.sending with
  | [] => { s with host := host }
  | b :: rest =>
      { polling := s.polling.arrive b
        host := { host with sending := rest } }

def step (config : DeviceConfig (World width)) (s : Link width) :
    LinkEvent -> Link width
  | .arrive => s.arrive
  | .ready => { s with polling := { s.polling with uartReady := true } }
  | .iterate =>
      { s with polling := Result.state (Polling.handleAscComm config s.polling) }

/-- No exception reaches the polling loop. -/
def Returns (config : DeviceConfig (World width)) (s : Link width) :
    LinkEvent -> Prop
  | .iterate =>
      exists polling, Polling.handleAscComm config s.polling = .ok () polling
  | _ => True

end Link

/-!
## The invariant
-/

/-- The requests `handled` have been answered, and `current`, if there is one, is
on its way. -/
structure LinkInv (state : RegisterPointers width) (file : RegisterFile width)
    (requests : List Message) (v : LoopView width) (host : Host)
    (handled : List Message) (current : Option Message) : Prop where
  requests_eq : requests = handled ++ current.toList ++ host.requests
  started_eq : host.started = handled.length + current.toList.length
  input_eq : v.inBuf ++ (v.extra ++ host.sending) = framesOf current.toList
  output_eq : v.transmitted ++ v.out =
    framesOf (outputs RegisterFile.answer file handled)
  file_eq : state.file v.world.words =
    final RegisterFile.answer file handled
  out_eq : current ≠ none -> v.out = []

/-- Bytes of the current request are missing. -/
def Unfinished (v : LoopView width) (host : Host) (current : Option Message) :
    Prop :=
  current ≠ none -> v.extra ++ host.sending ≠ []

namespace LinkInv

variable {state : RegisterPointers width} {file : RegisterFile width}
  {requests : List Message} {v : LoopView width} {host : Host}
  {handled : List Message} {current : Option Message}

theorem transmit (h : LinkInv state file requests v host handled current) :
    LinkInv state file requests v.transmit host handled current := by
  rw [LoopView.transmit]
  split
  · rename_i b rest hready hout
    have hnone : current = none := by
      by_contra hne
      rw [h.out_eq hne] at hout
      cases hout
    have houtput := h.output_eq
    rw [hout] at houtput
    exact
      { h with
        output_eq := by simpa using houtput
        out_eq := fun hne => absurd hnone hne }
  · exact h

theorem move (h : LinkInv state file requests v host handled current) :
    LinkInv state file requests v.move host handled current := by
  rw [LoopView.move]
  split
  · rename_i b rest hextra
    have hinput := h.input_eq
    rw [hextra] at hinput
    exact { h with input_eq := by simpa using hinput }
  · exact h

/-- The bytes on their way are those of one frame at most. -/
theorem input_length_le
    (h : LinkInv state file requests v host handled current)
    (hrequests : forall m, m ∈ requests -> m.Sendable) :
    v.inBuf.length + (v.extra.length + host.sending.length) <=
      maxMessageLen := by
  have hlength := congrArg List.length h.input_eq
  rw [List.length_append, List.length_append] at hlength
  rw [hlength]
  cases hcurrent : current with
  | none => exact Nat.zero_le _
  | some m =>
      have hmem : m ∈ requests := by
        rw [h.requests_eq, hcurrent]
        simp
      have hlen := (hrequests m hmem).length_le
      rw [Option.toList_some, framesOf_singleton, m.frame_length]
      exact Nat.add_le_add_right hlen 10

theorem outputs_sendable {ms : List Message}
    (hms : forall m, m ∈ ms -> m.Sendable) (file : RegisterFile width) :
    forall a, a ∈ outputs RegisterFile.answer file ms -> a.Sendable := by
  induction ms generalizing file with
  | nil =>
      intro a ha
      cases ha
  | cons m ms ih =>
      intro a ha
      rw [outputs, List.mem_cons] at ha
      rcases ha with rfl | ha
      · exact (file.answer_sendable (hms m (List.mem_cons_self ..))).left
      · exact ih (fun m' hm' => hms m' (List.mem_cons_of_mem _ hm')) _ a ha

/-- The host counts one reply for every request handled, once all have been
transmitted. -/
theorem count_eq (h : LinkInv state file requests v host handled current)
    (hrequests : forall m, m ∈ requests -> m.Sendable) :
    v.transmitted.count endByte + v.out.count endByte = handled.length := by
  have hhandled (m : Message) (hm : m ∈ handled) : m.Sendable := by
    apply hrequests
    rw [h.requests_eq]
    simp [hm]
  rw [← List.count_append, h.output_eq,
    count_endByte_framesOf (outputs_sendable hhandled file), outputs_length]

/-- **When the host starts its next request, nothing is on its way.** -/
theorem idle_of_count (h : LinkInv state file requests v host handled current)
    (hrequests : forall m, m ∈ requests -> m.Sendable)
    (hcount : v.transmitted.count endByte = host.started) :
    current = none ∧ v.out = [] := by
  have hall := h.count_eq hrequests
  rw [hcount, h.started_eq] at hall
  have hnone : current = none := by
    cases current with
    | none => rfl
    | some m =>
        simp only [Option.toList_some, List.length_singleton] at hall
        omega
  refine ⟨hnone, ?_⟩
  by_contra hne
  have hmem := endByte_mem_of_framesOf h.output_eq hne
  have hpos := List.count_pos_iff.mpr hmem
  omega

theorem takeRequest (h : LinkInv state file requests v host handled current)
    (hunfinished : Unfinished v host current)
    (hrequests : forall m, m ∈ requests -> m.Sendable) :
    exists current',
      LinkInv state file requests v (host.takeRequest v.transmitted) handled
          current' ∧
        Unfinished v (host.takeRequest v.transmitted) current' := by
  rw [Host.takeRequest]
  split
  · rename_i m rest hsending hrest
    split
    · rename_i hcount
      rcases h.idle_of_count hrequests hcount with ⟨rfl, hout⟩
      have hinput := h.input_eq
      rw [hsending, Option.toList_none, framesOf_nil,
        List.append_eq_nil_iff, List.append_eq_nil_iff] at hinput
      rcases hinput with ⟨hin, hextra, -⟩
      refine ⟨some m, ?_, ?_⟩
      · constructor
        · rw [h.requests_eq, hrest]
          simp
        · rw [h.started_eq]
          rfl
        · rw [hin, hextra]
          simp
        · exact h.output_eq
        · exact h.file_eq
        · exact fun _ => hout
      · intro _
        rw [hextra]
        exact List.cons_ne_nil _ _
    · exact ⟨current, h, hunfinished⟩
  · exact ⟨current, h, hunfinished⟩

/-- A byte goes from the host to the extra input buffer. -/
theorem sendByte (h : LinkInv state file requests v host handled current)
    {b : UInt8} {rest : List UInt8} (hsending : host.sending = b :: rest) :
    LinkInv state file requests { v with extra := v.extra ++ [b] }
        { host with sending := rest } handled current ∧
      Unfinished { v with extra := v.extra ++ [b] }
        { host with sending := rest } current := by
  have hinput := h.input_eq
  rw [hsending] at hinput
  refine ⟨{ h with input_eq := by simpa using hinput }, ?_⟩
  intro _
  simp

/-- **The last byte of a request is answered like the register file
answers.** -/
theorem answered {m : Message}
    (h : LinkInv state file requests v host handled (some m))
    (hfinished : v.extra ++ host.sending = []) {world : World width}
    (hfile : state.file world.words =
      ((state.file v.world.words).answer m).2) :
    LinkInv state file requests
      { v with
        inBuf := []
        out := ((state.file v.world.words).answer m).1.frame
        world := world }
      host (handled ++ [m]) none := by
  have hout := h.out_eq (Option.some_ne_none m)
  have houtput := h.output_eq
  rw [hout, List.append_nil] at houtput
  constructor
  · rw [h.requests_eq]
    simp
  · rw [h.started_eq]
    simp
  · rw [hfinished]
    rfl
  · rw [outputs_append, framesOf_append, ← houtput, ← h.file_eq]
    simp [outputs]
  · rw [final_append, ← h.file_eq]
    exact hfile
  · exact fun hne => absurd rfl hne

end LinkInv
end AsciiSerialCom
