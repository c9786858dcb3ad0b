import Rtvbp.TypeScript.Session.Terminal
import Rtvbp.Go.Reply
import Mathlib.Tactic

/-!
# The close after a terminal request

The end that handles a terminal request closes after a successful response, and stays open after an error, in
TypeScript and in Go. The end that has issued it decides for itself, in `#completePending` of the TypeScript session.
-/

namespace Rtvbp.Close

open Rtvbp.Lib

/-! ## The end that issues requests -/

section Requester

open TypeScript TypeScript.Terminal

variable {ε : Type} {s t : State ε} {a : Action ε}

theorem stopsOnSuccess_initial : (initial : State ε).StopsOnSuccess := by
  simp [State.StopsOnSuccess, initial, Lifecycle.new]

/-- A step that changes neither the stop nor the history. -/
theorem stopsOnSuccess_of_eq (h : s.StopsOnSuccess) (haborted : t.life.aborted = s.life.aborted)
    (hstopped : t.stopped = s.stopped) (hcompleted : t.completed = s.completed) : t.StopsOnSuccess := by
  unfold State.StopsOnSuccess
  rw [haborted, hstopped, hcompleted]
  exact h

theorem stopsOnSuccess_request (h : s.StopsOnSuccess) (method : String) (options : RequestOptions) :
    (request s method options).StopsOnSuccess := by
  unfold request
  split
  · exact h
  · split
    · exact h
    · exact stopsOnSuccess_of_eq h rfl rfl rfl

/-- A request that is not terminal is completed. -/
theorem stopsOnSuccess_append (h : s.StopsOnSuccess) {c : PendingRequest × ResponseFrame}
    {pending : List PendingRequest} (hc : ¬ (c.1.terminal = true ∧ c.2.succeeds = true)) :
    State.StopsOnSuccess { s with pending := pending, completed := s.completed ++ [c] } := by
  unfold State.StopsOnSuccess at h ⊢
  rw [h]
  refine or_congr_right ⟨?_, ?_⟩
  · rintro ⟨other, hother, hsuccess⟩
    exact ⟨other, List.mem_append_left _ hother, hsuccess⟩
  · rintro ⟨other, hother, hsuccess⟩
    obtain hother | hlast := List.mem_append.mp hother
    · exact ⟨other, hother, hsuccess⟩
    · obtain rfl := List.mem_singleton.mp hlast
      exact absurd hsuccess hc

/-- A response that completes a terminal request of a session that is not stopped. -/
theorem finishing?_eq_some {frame frame' : ResponseFrame} (h : s.finishing? (.response frame) = some frame') :
    frame' = frame ∧ ∃ pending,
      s.pending.find? (fun pending => pending.id = frame.correlationId) = some pending ∧
        pending.terminal = true ∧ s.life.aborted = false := by
  unfold State.finishing? at h
  dsimp only at h
  cases hfind : s.pending.find? fun pending => pending.id = frame.correlationId with
  | none =>
    rw [hfind] at h
    exact absurd h (by simp)
  | some pending =>
    rw [hfind] at h
    dsimp only at h
    by_cases hfinishes : pending.terminal = true ∧ s.life.aborted = false
    · rw [if_pos hfinishes] at h
      exact ⟨(Option.some.inj h).symm, pending, rfl, hfinishes⟩
    · rw [if_neg hfinishes] at h
      exact absurd h (by simp)

/-- A terminal request is completed. -/
theorem completePending_terminal {frame : ResponseFrame} {pending : PendingRequest}
    (hfind : s.pending.find? (fun pending => pending.id = frame.correlationId) = some pending)
    (hterminal : pending.terminal = true) :
    (completePending s frame).life.aborted = true ∧ (completePending s frame).stopped = s.stopped ∧
      (completePending s frame).completed = s.completed ++ [(pending, frame)] := by
  unfold completePending
  rw [hfind]
  dsimp only
  rw [if_pos hterminal]
  exact ⟨Lifecycle.requestStop_aborted, rfl, rfl⟩

theorem stopsOnSuccess_completePending {frame : ResponseFrame} (h : s.StopsOnSuccess)
    (hsucceeds : Succeeds s (.response frame)) : (completePending s frame).StopsOnSuccess := by
  cases hfind : s.pending.find? fun pending => pending.id = frame.correlationId with
  | none =>
    have hsame : completePending s frame = s := by
      unfold completePending
      rw [hfind]
    rw [hsame]
    exact h
  | some pending =>
    by_cases hterminal : pending.terminal = true
    · obtain ⟨haborted, hstopped, hcompleted⟩ := completePending_terminal hfind hterminal
      refine ⟨fun _ => ?_, fun _ => haborted⟩
      rw [hstopped, hcompleted]
      cases hbefore : s.life.aborted with
      | true =>
        obtain hstop | ⟨c, hc, hsuccess⟩ := h.mp hbefore
        · exact .inl hstop
        · exact .inr ⟨c, List.mem_append_left _ hc, hsuccess⟩
      | false =>
        have hfinishing : frame ∈ s.finishing? (.response frame) := by
          unfold State.finishing?
          simp [hfind, hterminal, hbefore]
        exact .inr ⟨(pending, frame), by simp, hterminal, hsucceeds frame hfinishing⟩
    · have hafter : completePending s frame = { s with
          pending := s.pending.filter fun other => other.id ≠ frame.correlationId
          completed := s.completed ++ [(pending, frame)] } := by
        unfold completePending
        rw [hfind]
        exact if_neg hterminal
      rw [hafter]
      exact stopsOnSuccess_append h fun hc => hterminal hc.1

/-- A step that completes no terminal request with an error keeps the agreement. -/
theorem stopsOnSuccess_step (h : s.StopsOnSuccess) (hsucceeds : Succeeds s a)
    (hstep : step s a = some t) : t.StopsOnSuccess := by
  cases a with
  | run | activate | failPending | finish =>
    obtain ⟨-, hafter⟩ := Option.ite_none_right_eq_some.mp hstep
    obtain rfl := Option.some.inj hafter
    exact stopsOnSuccess_of_eq h rfl rfl rfl
  | request method options =>
    obtain rfl := Option.some.inj hstep
    exact stopsOnSuccess_request h method options
  | call operation options =>
    obtain rfl := Option.some.inj hstep
    exact stopsOnSuccess_request h operation.method (operation.options options)
  | cancel id =>
    obtain rfl := Option.some.inj hstep
    exact stopsOnSuccess_of_eq h rfl rfl rfl
  | response frame =>
    obtain rfl := Option.some.inj hstep
    exact stopsOnSuccess_completePending h hsucceeds
  | requestStop cause failed =>
    obtain rfl := Option.some.inj hstep
    exact ⟨fun _ => .inl rfl, fun _ => Lifecycle.requestStop_aborted⟩

/-- An error stops a session that nothing else has stopped. -/
theorem not_stopsOnSuccess_step (h : s.StopsOnSuccess) (hsucceeds : ¬ Succeeds s a)
    (hstep : step s a = some t) : ¬ t.StopsOnSuccess := by
  unfold Succeeds at hsucceeds
  push Not at hsucceeds
  obtain ⟨frame, hfinishing, herror⟩ := hsucceeds
  cases a with
  | response received =>
    obtain rfl := Option.some.inj hstep
    obtain ⟨rfl, pending, hfind, hterminal, hbefore⟩ := finishing?_eq_some hfinishing
    obtain ⟨haborted, hstopped, hcompleted⟩ := completePending_terminal hfind hterminal
    have hquiet : ¬ (s.stopped = true ∨ ∃ c ∈ s.completed, c.1.terminal = true ∧ c.2.succeeds = true) := by
      intro hcause
      exact absurd (h.mpr hcause) (by simp [hbefore])
    intro hafter
    obtain hstop | ⟨c, hc, hsuccess⟩ := hafter.mp haborted
    · exact hquiet (.inl (hstopped ▸ hstop))
    · rw [hcompleted] at hc
      obtain hold | hlast := List.mem_append.mp hc
      · exact hquiet (.inr ⟨c, hold, hsuccess⟩)
      · obtain rfl := List.mem_singleton.mp hlast
        exact herror hsuccess.2
  | run | activate | request | call | cancel | requestStop | failPending | finish =>
    exact absurd hfinishing (by simp [State.finishing?])

/-- The request of a generated peer client is terminal exactly if its operation is. -/
def PeerMarksTerminal (ε : Type) : Prop :=
  ∀ (s : State ε) (operation : Operation) (options : RequestOptions),
    ∀ pending ∈ (request s operation.method (operation.options options)).pending,
      pending ∈ s.pending ∨ pending.terminal = operation.terminal

theorem peerMarksTerminal : PeerMarksTerminal ε := by
  intro s operation options pending hpending
  unfold request at hpending
  split at hpending
  · exact .inl hpending
  · split at hpending
    · exact .inl hpending
    · obtain hold | hnew := List.mem_append.mp hpending
      · exact .inl hold
      · obtain rfl := List.mem_singleton.mp hnew
        refine .inr ?_
        show (some operation.terminal == some true) = operation.terminal
        cases operation.terminal <;> rfl

end Requester

/-! ## The end that handles requests -/

section Handler

open TypeScript TypeScript.Reply TypeScript.Terminal

variable {envelope : EnvelopeDescriptor} {requestId : String}

/-- `#respond` in a running session. -/
theorem respond_of_running {s : Reply.State} {response : Response} {json : Json} (hended : s.ended = false)
    (haborted : s.life.aborted = false) (hstatus : s.status = .unclaimed)
    (hencode : envelope.encode (response.frame requestId) = .ok json) :
    s.respond envelope requestId response =
      ({ s with status := .sent, handed := s.handed ++ [json] }, none) := by
  unfold Reply.State.respond
  rw [hended, hstatus]
  simp only [Bool.false_eq_true, if_false, reduceCtorEq]
  unfold Reply.State.sendFrame
  have hended' : Reply.State.ended { s with status := .sent } = false := hended
  rw [hended']
  simp [haborted, hencode]

/-- A handler of a terminal operation of the TypeScript session: its response is sent, and the session stops exactly
if it is a success. -/
def TypeScriptHandlerCloses : Prop :=
  ∀ (envelope : EnvelopeDescriptor) (requestId : String) (s : Reply.State), Reply.Start s →
    ∀ (operation : Operation) (handled : Handled) (json : Json), operation.terminal = true →
      envelope.encode ((response (dispatchRequest operation handled)).frame requestId) = .ok json →
      ∃ t, (Reply.machine envelope requestId).exec s (handleRequest operation handled) = some t ∧
        t.phase = .returned ∧ t.handed = [json] ∧
        (t.life.aborted = true ↔ (response (dispatchRequest operation handled)).error = none)

theorem typeScriptHandlerCloses : TypeScriptHandlerCloses := by
  intro envelope requestId s hstart operation handled json hterminal hencode
  obtain ⟨hstate, haborted, hstatus, hhanded, hphase⟩ := hstart
  have hended : s.ended = false := by
    unfold Reply.State.ended
    obtain hconnecting | hactive := hstate
    · rw [hconnecting]
    · rw [hactive]
  unfold handleRequest
  cases hdispatched : dispatchRequest operation handled with
  | ok dispatched =>
    have hdispatchedTerminal : dispatched.terminal = true := by
      cases handled with
      | returns result =>
        obtain rfl := Except.ok.inj hdispatched
        exact hterminal
      | invalid => exact absurd hdispatched (by simp [dispatchRequest])
      | throws => exact absurd hdispatched (by simp [dispatchRequest])
    have hresponse : dispatched.response = .respondThenClose dispatched.result := if_pos hdispatchedTerminal
    rw [hdispatched] at hencode
    have hfirst : (Reply.machine envelope requestId).step s (outcome (.ok dispatched)) =
        some { s with phase := .dispatched (some dispatched) } := by
      simp [Reply.machine, Reply.step, outcome, hphase]
    have hrespond := respond_of_running (s := { s with phase := .dispatched (some dispatched) }) hended
      haborted hstatus hencode
    have hsecond : (Reply.machine envelope requestId).step { s with phase := .dispatched (some dispatched) }
          .resume =
        some { s with status := .sent, handed := s.handed ++ [json], phase := .responding true } := by
      have hclose : dispatched.response.closeAfter = true := by
        rw [hresponse]
        rfl
      simp only [Reply.machine, Reply.step, Reply.State.afterDispatch, hstatus, if_true, hclose]
      change State.respond envelope requestId _ dispatched.response = _ at hrespond
      rw [hstatus] at hrespond
      rw [hrespond]
    refine ⟨{ s with
      life := s.life.requestStop none false, status := .sent, handed := [json]
      phase := .returned }, ?_, rfl, rfl, ?_⟩
    · rw [Machine.exec_cons, hfirst, Option.bind_some, Machine.exec_cons, hsecond, hhanded]
      rfl
    · refine ⟨fun _ => ?_, fun _ => Lifecycle.requestStop_aborted⟩
      show dispatched.response.error = none
      rw [hresponse]
      rfl
  | error error =>
    rw [hdispatched] at hencode
    have hfirst : (Reply.machine envelope requestId).step s (outcome (.error error)) =
        some { s with phase := .caught error } := by
      simp [Reply.machine, Reply.step, outcome, hphase]
    have hrespond := respond_of_running (s := { s with phase := .caught error }) hended haborted hstatus hencode
    have hsecond : (Reply.machine envelope requestId).step { s with phase := .caught error } .resume =
        some { s with status := .sent, handed := s.handed ++ [json], phase := .respondingError } := by
      simp only [Reply.machine, Reply.step, Reply.State.afterCatch, hstatus, reduceCtorEq, if_false]
      change State.respond envelope requestId _ (.respondError (responseError error)) = _ at hrespond
      rw [hstatus] at hrespond
      rw [hrespond]
    refine ⟨{ s with status := .sent, handed := [json], phase := .returned }, ?_, rfl, rfl, ?_⟩
    · rw [Machine.exec_cons, hfirst, Option.bind_some, Machine.exec_cons, hsecond, hhanded]
      rfl
    · refine ⟨fun hstopped => ?_, fun hnone => ?_⟩
      · exact absurd hstopped (by simp [haborted])
      · exact absurd hnone (Option.some_ne_none _)

end Handler

section GoHandler

open Go.Reply Go.TypedRequest

variable {β : Type} {encode : Envelope.Go.ControlFrame → Except Go.Reply.Error β} {requestID : String}

/-- A call of `respond` for a request that nobody has answered yet. -/
theorem exec_respondSteps {s : Go.Reply.State Nat} {i : Option Nat} {response : Go.Reply.Response} {closeAfter : Bool}
    {b : β} (hstatus : s.shared.status = .unclaimed) (hclosing : s.shared.closing = false)
    (hentered : s.locals i = .entered response closeAfter)
    (hencode : encode (response.frame requestID) = .ok b) :
    ∃ locals, locals i = .returned none ∧
      (Go.Reply.threads encode requestID).machine.exec s (respondSteps i closeAfter) = some
        { shared := { s.shared with
            status := .sent
            owner := some i
            handed := s.shared.handed ++ [response.frame requestID]
            closing := closeAfter }
          locals := locals } := by
  refine ⟨Function.update s.locals i (.returned none), Function.update_self .., ?_⟩
  cases closeAfter with
  | true =>
    simp [respondSteps, Threads.machine, Threads.step, Go.Reply.threads, Go.Reply.act, hstatus, hclosing,
      hentered, hencode]
  | false =>
    simp [respondSteps, Threads.machine, Threads.step, Go.Reply.threads, Go.Reply.act, hstatus, hclosing,
      hentered, hencode]

theorem Handle_Err {method : String} {course : Course} {response : Go.Reply.Response}
    (h : Handle method course = .ok response) : response.Err = none := by
  unfold Handle at h
  repeat' (split at h)
  all_goals cases h
  rfl

/-- A handler that `HandleTerminalRequest` registers in the Go session: its response is sent, and the session stops
exactly if it is a success. -/
def GoHandlerCloses : Prop :=
  ∀ (β : Type) (encode : Envelope.Go.ControlFrame → Except Go.Reply.Error β) (requestID method : String)
    (course : Course) (b : β), encode ((response (Handle method course)).frame requestID) = .ok b →
    ∃ t, (Go.Reply.threads encode requestID).machine.exec Go.TypedRequest.taken
        (handleRequest true (Handle method course)) = some t ∧
      Go.Reply.State.handled t ∧ t.shared.handed = [(response (Handle method course)).frame requestID] ∧
      (t.shared.closing = true ↔ (response (Handle method course)).Err = none)

theorem goHandlerCloses : GoHandlerCloses := by
  intro β encode requestID method course b hencode
  cases hhandle : Handle method course with
  | ok answer =>
    rw [hhandle] at hencode
    have hcall : (Go.Reply.threads encode requestID).machine.step Go.TypedRequest.taken
        (.act (some 0) (.respond answer true)) = some
          { Go.TypedRequest.taken with
            locals := Function.update Go.TypedRequest.taken.locals (some 0) (.entered answer true) } := rfl
    obtain ⟨locals, -, hrespond⟩ := exec_respondSteps
      (s := { Go.TypedRequest.taken with
              locals := Function.update Go.TypedRequest.taken.locals (some 0) (.entered answer true) })
      rfl rfl (Function.update_self ..) hencode
    refine ⟨{
      shared := {
        status := .sent, closing := true, phase := .returned, handed := [answer.frame requestID]
        owner := some (some 0) }
      locals := locals }, ?_, ?_⟩
    · unfold handleRequest
      dsimp only
      rw [List.cons_append, Machine.exec_cons, hcall, Option.bind_some, Machine.exec_append, hrespond]
      rfl
    · exact ⟨.inl rfl, rfl, fun _ => Handle_Err hhandle, fun _ => rfl⟩
  | error err =>
    rw [hhandle] at hencode
    have hanswer : (Go.Reply.threads encode requestID).machine.exec Go.TypedRequest.taken
        [.env (.handlerReturns (some err)), .env .test, .act none .answer] = some
          { shared := { Go.TypedRequest.taken.shared with phase := .answering (.ofError err) }
            locals := Function.update Go.TypedRequest.taken.locals none (.entered (.ofError err) false) } := rfl
    obtain ⟨locals, hreturned, hrespond⟩ := exec_respondSteps
      (s := { shared := { Go.TypedRequest.taken.shared with phase := .answering (.ofError err) }
              locals := Function.update Go.TypedRequest.taken.locals none (.entered (.ofError err) false) })
      rfl rfl (Function.update_self ..) hencode
    refine ⟨{
      shared := {
        status := .sent, closing := false, phase := .answering (.ofError err), owner := some none
        handed := [(Go.Reply.Response.ofError err).frame requestID] }
      locals := locals }, ?_, ?_⟩
    · unfold handleRequest
      dsimp only
      rw [Machine.exec_append, hanswer, Option.bind_some, hrespond]
      rfl
    · refine ⟨.inr ⟨_, _, rfl, hreturned⟩, rfl, fun hclosing => ?_, fun hnone => ?_⟩
      · exact absurd hclosing Bool.false_ne_true
      · exact absurd hnone (Option.some_ne_none _)

end GoHandler

/-! ## The two ends -/

open TypeScript.Terminal in
/-- The handlers of a terminal request close after a success, and only then. In a run of the session that has issued
requests, a terminal request stops it exactly if its response is a success throughout, exactly if no terminal request
of the running session is completed with an error. -/
theorem terminal_stops_iff_succeeds {ε : Type} {run : List (Action ε)} {t : State ε}
    (hexec : (machine ε).exec initial run = some t) :
    TypeScriptHandlerCloses ∧ GoHandlerCloses ∧ PeerMarksTerminal ε ∧
      ((machine ε).Throughout State.StopsOnSuccess initial run ↔ (machine ε).Along Succeeds initial run) := by
  refine ⟨typeScriptHandlerCloses, goHandlerCloses, peerMarksTerminal, ?_⟩
  exact Machine.throughout_iff_along (I := State.StopsOnSuccess) (fun _ h => h)
    (fun _ _ _ h hsucceeds hstep => stopsOnSuccess_step h hsucceeds hstep)
    (fun _ _ _ h hsucceeds hstep => not_stopsOnSuccess_step h hsucceeds hstep) stopsOnSuccess_initial hexec

namespace TerminalRuns

open TypeScript.Terminal

/-- A terminal operation of the catalog of the voice applications. -/
def hangup : Operation := { method := "call.hangup", terminal := true }

/-- The response of the peer to the first request. -/
def answered (error : Option TypeScript.WireErrorValue) : TypeScript.Terminal.ResponseFrame where
  correlationId := 1
  result := none
  error := error

/-- The peer's refusal. -/
def rejection : TypeScript.WireErrorValue := { code := .integer 409, message := "call is not active", data := none }

/-- A session hangs up. -/
def hangupRun (error : Option TypeScript.WireErrorValue) : List (Action Unit) :=
  [.run, .activate, .call hangup { terminal := none }, .response (answered error)]

theorem hangupRun_stops_iff_succeeds :
    ∃ t, (machine Unit).exec initial (hangupRun none) = some t ∧
      (machine Unit).Throughout State.StopsOnSuccess initial (hangupRun none) := by
  refine ⟨_, rfl, ?_⟩
  have hexec : (machine Unit).exec initial (hangupRun none) = some _ := rfl
  exact (terminal_stops_iff_succeeds hexec).2.2.2.mpr (by decide)

/-- The peer rejects the request and stays open; the session that has issued it stops. -/
theorem hangupRun_stops_on_rejection :
    ∃ t, (machine Unit).exec initial (hangupRun (some rejection)) = some t ∧
      t.life.aborted = true ∧ t.life.state = .closing ∧ ¬ t.StopsOnSuccess := by
  have hexec : (machine Unit).exec initial (hangupRun (some rejection)) = some _ := rfl
  refine ⟨_, hexec, rfl, rfl, ?_⟩
  intro hstops
  obtain hstop | ⟨c, hc, hsuccess⟩ := hstops.mp rfl
  · exact absurd hstop Bool.false_ne_true
  · obtain rfl := List.mem_singleton.mp hc
    exact absurd hsuccess.2 Bool.false_ne_true

end TerminalRuns

end Rtvbp.Close
