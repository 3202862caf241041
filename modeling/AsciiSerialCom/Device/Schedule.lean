import AsciiSerialCom.Device.Backlog
import AsciiSerialCom.Device.Link

/-!
# Schedules of a host and a device

Every event of a schedule keeps the invariant of the link, and no iteration of
the loop throws.  Events that change anything decrease the work that is left, so
every schedule that goes on for long enough gets all requests answered.
-/

namespace AsciiSerialCom

open Foundation
open Foundation.StateError
open Foundation.Run

variable {width : RegWidth}

/-!
## Work left
-/

/-- The work that is left: every byte counts once for every place it has still to
leave, and a request counts for the longest answer it can get. -/
def workLeft (v : LoopView width) (host : Host) : Nat :=
  (host.requests.map fun m => 2 * m.frame.length + 48).sum +
    2 * host.sending.length + v.extra.length +
    (if v.inBuf ++ (v.extra ++ host.sending) = [] then 0 else 48) +
    2 * v.out.length + (if v.uartReady then 0 else 1)

/-- The event changes something. -/
def Useful (v : LoopView width) (host : Host) : LinkEvent -> Prop
  | .arrive => host.sending ≠ [] ∨
      host.requests ≠ [] ∧ v.transmitted.count endByte = host.started
  | .ready => v.uartReady = false
  | .iterate => v.extra ≠ [] ∨ v.uartReady = true ∧ v.out ≠ []

section Work

variable {v : LoopView width} {host : Host}

theorem workLeft_ready_lt (h : v.uartReady = false) :
    workLeft { v with uartReady := true } host < workLeft v host := by
  simp only [workLeft, h, Bool.false_eq_true, if_true, if_false]
  omega

theorem transmit_of_idle (h : ¬ (v.uartReady = true ∧ v.out ≠ [])) :
    v.transmit = v := by
  rw [LoopView.transmit]
  split
  · rename_i b rest hready hout
    exact absurd ⟨hready, by rw [hout]; exact List.cons_ne_nil b rest⟩ h
  · rfl

theorem move_of_idle (h : v.extra = []) : v.move = v := by
  rw [LoopView.move, h]

@[simp] theorem transmit_extra (v : LoopView width) :
    v.transmit.extra = v.extra := by
  rw [LoopView.transmit]
  split <;> rfl

theorem workLeft_transmit_lt (hready : v.uartReady = true)
    (hout : v.out ≠ []) : workLeft v.transmit host < workLeft v host := by
  rcases List.exists_cons_of_ne_nil hout with ⟨b, rest, hcons⟩
  rw [LoopView.transmit, hready, hcons]
  simp only [workLeft, hready, hcons, List.length_cons, Bool.false_eq_true,
    if_true, if_false]
  omega

theorem workLeft_transmit_le :
    workLeft v.transmit host <= workLeft v host := by
  by_cases h : v.uartReady = true ∧ v.out ≠ []
  · exact Nat.le_of_lt (workLeft_transmit_lt h.left h.right)
  · rw [transmit_of_idle h]

theorem workLeft_move_lt (hextra : v.extra ≠ []) :
    workLeft v.move host < workLeft v host := by
  rcases List.exists_cons_of_ne_nil hextra with ⟨b, rest, hcons⟩
  rw [LoopView.move, hcons]
  simp only [workLeft, hcons, List.length_cons, List.append_assoc,
    List.cons_append, List.nil_append]
  omega

theorem workLeft_move_le : workLeft v.move host <= workLeft v host := by
  by_cases h : v.extra = []
  · rw [move_of_idle h]
  · exact Nat.le_of_lt (workLeft_move_lt h)

theorem workLeft_sendByte {b : UInt8} {rest : List UInt8}
    (hsending : host.sending = b :: rest) :
    workLeft { v with extra := v.extra ++ [b] }
        { host with sending := rest } < workLeft v host := by
  simp only [workLeft, hsending, List.length_append, List.length_cons,
    List.length_nil, List.append_assoc, List.singleton_append]
  omega

theorem takeRequest_of_idle (h : ¬ Useful v host .arrive) :
    host.takeRequest v.transmitted = host ∧ host.sending = [] := by
  rw [Useful, not_or, not_not, not_and_or, not_not] at h
  rcases h with ⟨hsending, hrest⟩
  refine ⟨?_, hsending⟩
  rw [Host.takeRequest, hsending]
  rcases hrest with hrequests | hcount
  · rw [hrequests]
  · cases host.requests with
    | nil => rfl
    | cons m rest => exact if_neg hcount

theorem sending_ne_nil_of_useful (h : Useful v host .arrive) :
    (host.takeRequest v.transmitted).sending ≠ [] := by
  cases hsending : host.sending with
  | cons b rest =>
      rw [Host.takeRequest, hsending]
      simp [hsending]
  | nil =>
      rcases h with hne | ⟨hne, hcount⟩
      · exact absurd hsending hne
      · rcases List.exists_cons_of_ne_nil hne with ⟨m, rest, hcons⟩
        rw [Host.takeRequest, hsending, hcons]
        simp only
        rw [if_pos hcount]
        exact List.cons_ne_nil _ _

/-- Starting a request only moves its work. -/
theorem workLeft_takeRequest_le
    (hidle : v.transmitted.count endByte = host.started ->
      host.sending = [] -> v.inBuf ++ v.extra = []) :
    workLeft v (host.takeRequest v.transmitted) <= workLeft v host := by
  rw [Host.takeRequest]
  split
  · rename_i m rest hsending hrest
    split
    · rename_i hcount
      have hempty := hidle hcount hsending
      rw [List.append_eq_nil_iff] at hempty
      have hframe : m.frame ≠ [] := List.cons_ne_nil _ _
      simp only [workLeft, hsending, hrest, hempty.left, hempty.right,
        List.map_cons, List.sum_cons, List.length_nil, List.nil_append,
        if_true, if_neg hframe]
      omega
    · exact Nat.le_refl _
  · exact Nat.le_refl _

end Work

/-!
## Single events
-/

namespace Link

section Events

variable {charSigned : Bool} {state : RegisterPointers width}
  {file : RegisterFile width} {requests : List Message}

/-- The invariant of a link. -/
def Inv (state : RegisterPointers width) (file : RegisterFile width)
    (requests : List Message) (s : Link width) : Prop :=
  s.polling.Checks ∧
    exists handled current,
      LinkInv state file requests s.polling.view s.host handled current ∧
        Unfinished s.polling.view s.host current

variable {handled : List Message} {current : Option Message} {host : Host}

/-- While bytes are missing, the device finds nothing to do. -/
theorem receive_of_unfinished {p : Polling width} (hchecks : p.Checks)
    (h : LinkInv state file requests p.view host handled current)
    (hunfinished : Unfinished p.view host current)
    (hrequests : forall m, m ∈ requests -> m.Sendable)
    (config : DeviceConfig (World width)) :
    exists p', Polling.receive config p = .ok () p' ∧ p'.view = p.view ∧
      p'.Checks := by
  have hd : decode p.view.inBuf = (.nothing, p.view.inBuf) := by
    have hinput := h.input_eq
    cases hcurrent : current with
    | none =>
        rw [hcurrent, Option.toList_none, framesOf_nil,
          List.append_eq_nil_iff] at hinput
        rw [hinput.left]
        rfl
    | some m =>
        have hmem : m ∈ requests := by
          rw [h.requests_eq, hcurrent]
          simp
        rw [hcurrent, Option.toList_some, framesOf_singleton] at hinput
        exact decode_of_unfinished (hrequests m hmem) hinput
          (hunfinished (by rw [hcurrent]; exact Option.some_ne_none m))
  exact Polling.receive_view_of_nothing hchecks hd

/-- Once the last byte is there, the request is answered. -/
theorem receive_of_finished (hdistinct : state.Distinct) {p : Polling width}
    (hchecks : p.Checks) {m : Message} (hm : IsRequest width m)
    (h : LinkInv state file requests p.view host handled (some m))
    (hfinished : p.view.extra ++ host.sending = []) :
    exists p', Polling.receive (declaredConfig charSigned state) p =
        .ok () p' ∧ p'.Checks ∧
      LinkInv state file requests p'.view host (handled ++ [m]) none ∧
      workLeft p'.view host <= workLeft p.view host := by
  have hinput := h.input_eq
  rw [hfinished, List.append_nil, Option.toList_some,
    framesOf_singleton] at hinput
  have hd : decode p.view.inBuf = (.message m, []) := by
    have hdecode := decode_frame hm.valid []
    rwa [List.append_nil, ← hinput] at hdecode
  have hout := h.out_eq (Option.some_ne_none m)
  rcases RegisterPointers.respond_refines_file hdistinct hm
    (holds_ofMessage p.ascd.receiver.received.data m) p.ascd.world with
    ⟨hanswer, hfile⟩
  have hconfig : (declaredConfig charSigned state).funcRw =
      some (RegisterPointers.handleMessage charSigned (some state)) := rfl
  rcases (state.file p.view.world.words).answer_sendable
    hm.valid.toSendable with ⟨hsendable, hlength⟩
  rcases Polling.receive_view_of_answer hchecks hd hout
    (fun b => Device.reacts_of_request hconfig hm.command_eq) hanswer
    hsendable with ⟨p', hrun, hview, hchecks'⟩
  refine ⟨p', hrun, hchecks', ?_, ?_⟩
  · rw [hview]
    exact h.answered hfinished hfile
  · have hframe : ((state.file p.view.world.words).answer m).1.frame.length <=
        24 := by
      rw [Message.frame_length]
      omega
    have hne : m.frame ≠ [] := List.cons_ne_nil _ _
    rw [hview]
    simp only [workLeft, hfinished, hout, hinput, List.append_nil, if_true,
      if_neg hne, List.length_nil]
    have hsame : (state.file p.ascd.world.words).answer m =
        (state.file p.view.world.words).answer m := rfl
    rw [hsame]
    omega

/-- **One iteration** keeps the invariant and does not throw.  It does no more
than to transmit and to move a byte, unless the byte was the last of a
request. -/
theorem handleAscComm_inv (hdistinct : state.Distinct) {p : Polling width}
    (hchecks : p.Checks)
    (h : LinkInv state file requests p.view host handled current)
    (hunfinished : Unfinished p.view host current)
    (hrequests : forall m, m ∈ requests -> IsRequest width m) :
    exists p', Polling.handleAscComm (declaredConfig charSigned state) p =
        .ok () p' ∧
      p'.Checks ∧
      (exists handled current,
        LinkInv state file requests p'.view host handled current ∧
          Unfinished p'.view host current) ∧
      workLeft p'.view host <= workLeft p.view.transmit.move host ∧
      (p.view.extra = [] -> p'.view = p.view.transmit) := by
  have hsendable (m : Message) (hm : m ∈ requests) : m.Sendable :=
    (hrequests m hm).valid.toSendable
  rcases Polling.uartTxFromCircBuf_view hchecks with
    ⟨p1, hrun1, hview1, hchecks1⟩
  have h1 := h.transmit
  rw [← hview1] at h1
  have hroom : p1.view.extra ≠ [] ->
      p1.view.inBuf.length < maxMessageLen := by
    intro hne
    have hlen := h1.input_length_le hsendable
    have hpos := List.length_pos_iff.mpr hne
    omega
  rcases Polling.moveInput_view hchecks1 hroom with
    ⟨p2, hrun2, hview2, hchecks2⟩
  have h2 := h1.move
  rw [← hview2] at h2
  have hstages (p' : Polling width)
      (hrun : Polling.receive (declaredConfig charSigned state) p2 =
        .ok () p') :
      Polling.handleAscComm (declaredConfig charSigned state) p =
        .ok () p' := by
    rw [Polling.handleAscComm, bind_of_ok hrun1, bind_of_ok hrun2, hrun]
  rw [hview1] at hview2
  -- either bytes of the current request are missing, or it is complete
  by_cases hmissing : Unfinished p2.view host current
  · rcases receive_of_unfinished hchecks2 h2 hmissing hsendable
      (declaredConfig charSigned state) with ⟨p', hrun, hview, hchecks'⟩
    refine ⟨p', hstages p' hrun, hchecks', ⟨handled, current, ?_, ?_⟩, ?_, ?_⟩
    · rw [hview]
      exact h2
    · rw [hview]
      exact hmissing
    · rw [hview, hview2]
    · intro hextra
      rw [hview, hview2, move_of_idle (by rw [transmit_extra, hextra])]
  · rw [Unfinished, Classical.not_imp, not_not] at hmissing
    rcases hmissing with ⟨hne, hfinished⟩
    rcases Option.ne_none_iff_exists'.mp hne with ⟨m, rfl⟩
    have hm : m ∈ requests := by
      rw [h.requests_eq]
      simp
    rcases receive_of_finished hdistinct hchecks2 (hrequests m hm) h2
      hfinished with ⟨p', hrun, hchecks', h', hwork⟩
    refine ⟨p', hstages p' hrun, hchecks', ⟨_, none, h', ?_⟩, ?_, ?_⟩
    · exact fun hne => absurd rfl hne
    · rw [← hview2]
      exact hwork
    · intro hextra
      rw [hview2, move_of_idle (by rw [transmit_extra, hextra]),
        transmit_extra] at hfinished
      exact absurd hfinished (hunfinished hne)

end Events

/-!
## Runs
-/

section Runs

variable {charSigned : Bool} {state : RegisterPointers width}
  {file : RegisterFile width} {requests : List Message}

theorem arrive_of_idle {s : Link width}
    (h : ¬ Useful s.polling.view s.host .arrive) : s.arrive = s := by
  rcases takeRequest_of_idle h with ⟨hhost, hsending⟩
  have hkept : s.host.takeRequest s.polling.transmitted = s.host := hhost
  rw [arrive, hkept, hsending]

/-- **An arriving byte** keeps the invariant. -/
theorem inv_arrive {s : Link width}
    (hrequests : forall m, m ∈ requests -> m.Sendable)
    (h : s.Inv state file requests)
    (huseful : Useful s.polling.view s.host .arrive) :
    s.arrive.Inv state file requests ∧
      workLeft s.arrive.polling.view s.arrive.host <
        workLeft s.polling.view s.host := by
  rcases h with ⟨hchecks, handled, current, h, hunfinished⟩
  rcases h.takeRequest hunfinished hrequests with ⟨current', h', -⟩
  have hwork : workLeft s.polling.view
      (s.host.takeRequest s.polling.view.transmitted) <=
      workLeft s.polling.view s.host := by
    apply workLeft_takeRequest_le
    intro hcount hsending
    have hinput := h.input_eq
    rw [(h.idle_of_count hrequests hcount).left, hsending] at hinput
    simpa using hinput
  have hne := sending_ne_nil_of_useful huseful
  have htransmitted : s.polling.view.transmitted = s.polling.transmitted := rfl
  rw [htransmitted] at h' hwork hne
  rw [arrive]
  generalize s.host.takeRequest s.polling.transmitted = host
    at h' hwork hne ⊢
  rcases List.exists_cons_of_ne_nil hne with ⟨b, rest, hsending⟩
  have hlen := h'.input_length_le hrequests
  have hroom : s.polling.view.extra.length < extraInputBufferSize := by
    rw [hsending, List.length_cons] at hlen
    have hmax : maxMessageLen = extraInputBufferSize := rfl
    omega
  rcases h'.sendByte hsending with ⟨hinv, hmissing⟩
  have hlt : workLeft _ _ < workLeft s.polling.view host :=
    workLeft_sendByte hsending
  rw [← Polling.arrive_view b hroom] at hinv hmissing hlt
  rw [hsending]
  exact ⟨⟨hchecks, handled, current', hinv, hmissing⟩,
    Nat.lt_of_lt_of_le hlt hwork⟩

/-- **The iteration as an event of the link.** -/
theorem inv_iterate (hdistinct : state.Distinct) {s : Link width}
    (hrequests : forall m, m ∈ requests -> IsRequest width m)
    (h : s.Inv state file requests) :
    s.Returns (declaredConfig charSigned state) .iterate ∧
      (s.step (declaredConfig charSigned state) .iterate).Inv state file
        requests ∧
      workLeft
          (s.step (declaredConfig charSigned state) .iterate).polling.view
          s.host <= workLeft s.polling.view.transmit.move s.host ∧
      (s.polling.view.extra = [] ->
        (s.step (declaredConfig charSigned state) .iterate).polling.view =
          s.polling.view.transmit) := by
  rcases h with ⟨hchecks, handled, current, h, hunfinished⟩
  rcases @handleAscComm_inv width charSigned state file requests handled
    current s.host hdistinct s.polling hchecks h hunfinished hrequests with
    ⟨p, hrun, hchecks', hinv, hwork, hidle⟩
  have hstep : s.step (declaredConfig charSigned state) .iterate =
      { s with polling := p } := by
    rw [step, hrun, Result.state_ok]
  rw [hstep]
  exact ⟨⟨p, hrun⟩, ⟨hchecks', hinv⟩, hwork, hidle⟩

/-- **Useful events leave less to do, all others change nothing that
matters.** -/
theorem progresses (hdistinct : state.Distinct)
    (hrequests : forall m, m ∈ requests -> IsRequest width m) :
    Progresses (step (declaredConfig charSigned state))
      (Inv state file requests)
      (fun s => Useful s.polling.view s.host)
      (fun s => workLeft s.polling.view s.host) := by
  have hsendable (m : Message) (hm : m ∈ requests) : m.Sendable :=
    (hrequests m hm).valid.toSendable
  constructor
  · intro s event h
    cases event with
    | arrive =>
        by_cases huseful : Useful s.polling.view s.host .arrive
        · exact (inv_arrive hsendable h huseful).left
        · rw [step, arrive_of_idle huseful]
          exact h
    | ready =>
        rcases h with ⟨hchecks, handled, current, h, hunfinished⟩
        exact ⟨hchecks, handled, current, { h with }, hunfinished⟩
    | iterate => exact (inv_iterate hdistinct hrequests h).right.left
  · intro s event h huseful
    cases event with
    | arrive => exact (inv_arrive hsendable h huseful).right
    | ready =>
        exact workLeft_ready_lt huseful
    | iterate =>
        have hwork := (@inv_iterate width charSigned state file requests
          hdistinct s hrequests h).right.right.left
        refine Nat.lt_of_le_of_lt hwork ?_
        rcases huseful with hextra | ⟨hready, hout⟩
        · apply Nat.lt_of_lt_of_le (workLeft_move_lt ?_) workLeft_transmit_le
          rw [transmit_extra]
          exact hextra
        · exact Nat.lt_of_le_of_lt workLeft_move_le
            (workLeft_transmit_lt hready hout)
  · intro s event h hidle
    -- an idle event leaves the view of the loop and the host as they are
    have hsame (s' : Link width) (hview : s'.polling.view = s.polling.view)
        (hhost : s'.host = s.host) :
        workLeft s'.polling.view s'.host = workLeft s.polling.view s.host ∧
          forall other, Useful s'.polling.view s'.host other <->
            Useful s.polling.view s.host other := by
      rw [hview, hhost]
      exact ⟨rfl, fun _ => Iff.rfl⟩
    cases event with
    | arrive =>
        rw [step, arrive_of_idle hidle]
        exact hsame s rfl rfl
    | ready =>
        have hready : s.polling.uartReady = true := by
          simpa [Useful, Polling.view] using hidle
        apply hsame
        · simp only [step, Polling.view, Polling.inBuf, Polling.outBuf, hready]
        · rfl
    | iterate =>
        rw [Useful, not_or, not_not] at hidle
        rcases hidle with ⟨hextra, hquiet⟩
        have hview := (@inv_iterate width charSigned state file requests
          hdistinct s hrequests h).right.right.right hextra
        rw [transmit_of_idle hquiet] at hview
        exact hsame _ hview rfl

theorem complete_of_idle {s : Link width} (h : s.Inv state file requests)
    (hrequests : forall m, m ∈ requests -> m.Sendable)
    (hidle : forall event, ¬ Useful s.polling.view s.host event) :
    s.polling.transmitted =
        framesOf (outputs RegisterFile.answer file requests) ∧
      state.file s.polling.ascd.world.words =
        final RegisterFile.answer file requests := by
  rcases h with ⟨-, handled, current, h, hunfinished⟩
  have hsending := (takeRequest_of_idle (hidle .arrive)).right
  have hiterate := hidle .iterate
  rw [Useful, not_or, not_not] at hiterate
  rcases hiterate with ⟨hextra, hquiet⟩
  have hready : s.polling.view.uartReady = true := by
    simpa [Useful] using hidle .ready
  have hout : s.polling.view.out = [] := by
    by_contra hne
    exact hquiet ⟨hready, hne⟩
  have hnone : current = none := by
    by_contra hne
    exact hunfinished hne (by rw [hextra, hsending]; rfl)
  subst hnone
  have hcount := h.count_eq hrequests
  rw [hout, List.count_nil, Nat.add_zero] at hcount
  have hnil : s.host.requests = [] := by
    by_contra hne
    refine hidle .arrive (Or.inr ⟨hne, ?_⟩)
    rw [hcount, h.started_eq]
    rfl
  have hall : requests = handled := by
    rw [h.requests_eq, hnil]
    simp
  have houtput := h.output_eq
  rw [hout, List.append_nil, ← hall] at houtput
  refine ⟨houtput, ?_⟩
  rw [hall]
  exact h.file_eq

theorem inv_start (state : RegisterPointers width)
    (ascd : Device (World width)) (uartReady : Bool)
    (requests : List Message) :
    (start ascd uartReady requests).Inv state (state.file ascd.world.words)
      requests := by
  refine ⟨rfl, [], none, ?_, fun hne => absurd rfl hne⟩
  constructor
  · rfl
  · rfl
  · rfl
  · rfl
  · rfl
  · exact fun _ => rfl

/-- What a device and a host do under a schedule, compared with the register file
that the device starts with. -/
structure RefinesFile (charSigned : Bool) (state : RegisterPointers width)
    (ascd : Device (World width)) (uartReady : Bool)
    (requests : List Message) (events : List LinkEvent) : Prop where
  /-- nothing throws -/
  returns : Allowed (step (declaredConfig charSigned state))
    (Returns (declaredConfig charSigned state))
    (start ascd uartReady requests) events
  /-- the bytes transmitted are those of the answers, in order -/
  transmitted :
    (run (step (declaredConfig charSigned state))
      (start ascd uartReady requests) events).polling.transmitted <+:
        framesOf (outputs RegisterFile.answer (state.file ascd.world.words)
          requests)
  /-- the registers are those of the file after the requests answered so far -/
  handled :
    let s := run (step (declaredConfig charSigned state))
      (start ascd uartReady requests) events
    exists handled, handled <+: requests ∧
      s.polling.transmitted ++ s.polling.outBuf.contents =
        framesOf (outputs RegisterFile.answer (state.file ascd.world.words)
          handled) ∧
      state.file s.polling.ascd.world.words =
        final RegisterFile.answer (state.file ascd.world.words) handled
  /-- after enough rounds all requests are answered -/
  answered :
    exists n, forall blocks : List (List LinkEvent),
      (forall block, block ∈ blocks -> IsRound block) ->
        n <= blocks.length ->
        let t := run (step (declaredConfig charSigned state))
          (start ascd uartReady requests) (events ++ blocks.flatten)
        t.polling.transmitted =
            framesOf (outputs RegisterFile.answer
              (state.file ascd.world.words) requests) ∧
          state.file t.polling.ascd.world.words =
            final RegisterFile.answer (state.file ascd.world.words) requests

/-- **The device refines the register file under every schedule.** -/
theorem refines_registerFile (charSigned : Bool) (hdistinct : state.Distinct)
    (ascd : Device (World width)) (uartReady : Bool)
    (hrequests : forall m, m ∈ requests -> IsRequest width m)
    (events : List LinkEvent) :
    RefinesFile charSigned state ascd uartReady requests events := by
  have hsendable (m : Message) (hm : m ∈ requests) : m.Sendable :=
    (hrequests m hm).valid.toSendable
  have hprogress := @progresses width charSigned state
    (state.file ascd.world.words) requests hdistinct hrequests
  have hstart := inv_start state ascd uartReady requests
  have hs := hprogress.invariant_run hstart events
  rcases hs with ⟨hchecks, handled, current, h, hunfinished⟩
  constructor
  · refine allowed_of_invariant ?_ hstart events
    intro s event hs
    refine ⟨?_, hprogress.invariant s event hs⟩
    cases event with
    | arrive => trivial
    | ready => trivial
    | iterate => exact (inv_iterate hdistinct hrequests hs).left
  · have hrest : outputs RegisterFile.answer (state.file ascd.world.words)
          requests =
        outputs RegisterFile.answer (state.file ascd.world.words) handled ++
          outputs RegisterFile.answer
            (final RegisterFile.answer (state.file ascd.world.words) handled)
            (current.toList ++ (run (step (declaredConfig charSigned state))
              (start ascd uartReady requests) events).host.requests) := by
      rw [← outputs_append, ← List.append_assoc, ← h.requests_eq]
    rw [hrest, framesOf_append, ← h.output_eq, List.append_assoc]
    exact List.prefix_append _ _
  · refine ⟨handled, ?_, h.output_eq, h.file_eq⟩
    rw [h.requests_eq, List.append_assoc]
    exact List.prefix_append _ _
  · let s := run (step (declaredConfig charSigned state))
      (start ascd uartReady requests) events
    have hs := hprogress.invariant_run hstart events
    refine ⟨workLeft s.polling.view s.host, ?_⟩
    intro blocks hrounds hlength
    have hidle := hprogress.idle_of_rounds hrounds hs hlength
    rw [← run_append] at hidle
    exact complete_of_idle (hprogress.invariant_run hstart _) hsendable hidle

/-- A write and a read of one register. -/
theorem refines_registerFile_of_write_read :
    RefinesFile false Device.oneRegister Device.blank true
      [Device.requestOf 'w'
          ['0', '0', '0', '0', ',', '0', '0', '0', '0', '0', '0', '2', 'A'],
        Device.requestOf 'r' ['0', '0', '0', '0']]
      [.arrive, .iterate, .arrive, .ready] := by
  refine refines_registerFile false ?_ Device.blank true ?_ _
  · intro i j p hi hj _ _
    have hone : Device.oneRegister.nRegs.toNat = 1 := rfl
    omega
  · decide +kernel

end Runs
end Link
end AsciiSerialCom
