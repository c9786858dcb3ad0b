import Rtvbp.Go.Proofs.OrderlyCloseProofs
import Rtvbp.Rust.Session.Proofs.DrainProofs

/-!
# The orderly close of a session with keepalive

When the peer closes the socket in an orderly way, the control reader and the keepalive monitor both see the
end of the transport. In Go and in Rust the supervisor takes the report of the reader as the end of the
session and that of the monitor as a failure, although the monitor gives no error. The session ends closed,
with every response handed to its request, if the report of the monitor does not come to the supervisor.
-/

namespace Rtvbp.Close

open Rtvbp.Lib

/-- For every session over its WebSocket transport and every run in which the socket ends in an orderly way
and nothing else fails: if the report of the keepalive monitor does not reach the supervisor before its
commit, in Go, or is not what its `select!` takes, in Rust, then the session ends closed, without an error;
and if nobody stops the session locally, every response that was delivered has completed its request before
the pending requests are failed. -/
theorem orderly_close_ends_closed {ι ρ φ ε κ β : Type} [DecidableEq ι] [DecidableEq ε] [DecidableEq κ]
    (config : Go.Supervise.Config) (decode : Go.WebSocket.Bytes → Option (Go.Session.Frame ι ρ φ))
    (keepalive : Rust.Run.KeepalivePolicy)
    (encode : Envelope.Rust.ControlFrame → Except Rust.Error β)
    (decodeFrame : Rust.WebSocket.Bytes → Option Envelope.Rust.ControlFrame) :
    (∀ s : Go.Session.State ι ρ φ ε, (Go.Session.machine config decode).ReachableWhere
        (fun s a => Go.Session.OrderlyClose config s a ∧ Go.Session.MonitorLate s a) s →
      Go.Session.ClosedCleanly s) ∧
    (∀ s : Go.Session.State ι ρ φ ε, (Go.Session.machine config decode).ReachableWhere
        (fun s a => Go.Session.OrderlyClose config s a ∧ Go.Session.MonitorLate s a ∧
          Go.Session.NoLocalStop a) s →
      s.sup.transport = true → Go.Session.Drained decode s) ∧
    (∀ s : Rust.Workers.State κ, (Rust.Workers.machine keepalive encode decodeFrame).ReachableWhere
        (fun s a => Rust.Workers.OrderlyClose keepalive s a ∧ Rust.Workers.MonitorIgnored a) s →
      Rust.Workers.ClosedCleanly s) ∧
    (∀ s : Rust.Workers.State κ, (Rust.Workers.machine keepalive encode decodeFrame).ReachableWhere
        (fun s a => Rust.Workers.OrderlyClose keepalive s a ∧ Rust.Workers.MonitorIgnored a ∧
          Rust.Workers.NoLocalStop a) s →
      Rust.Workers.Drained decodeFrame s) := by
  refine ⟨fun s h => ?_, fun s h htransport => ?_, fun s h => ?_, fun s h => ?_⟩
  · exact Go.Session.closedCleanly_of_orderlyClose h
  · exact Go.Session.drained_of_orderlyClose h htransport
  · exact Rust.Workers.closedCleanly_of_orderlyClose h
  · exact Rust.Workers.drained_of_orderlyClose h

/-! ## Two orders of the reports in Go -/

section Go

open Rtvbp.Go.Session Rtvbp.Go.WebSocket
open Rtvbp.Go.Supervise (Config fullConfig Fails)

/-- A supervisor that goes its way without a failure. -/
def routine (config : Config) (sup : Go.Supervise.State (Err String)) :
    Go.Supervise.Action (Err String) → Bool
  | .configure => config.check.isNone
  | .created => sup.factory = some ⟨true, none⟩
  | .beginReceived => sup.beginResult = some none
  | .mediaCloses err | .transportCloses err => err.isNone
  | .run | .factoryReturns _ | .onBeginReturns _ | .offer | .activeStopped | .commit => true
  | .workersDone | .complete => true
  | _ => false

theorem not_fails_of_routine {config : Config} {sup : Go.Supervise.State (Err String)}
    {a : Go.Supervise.Action (Err String)} (h : routine config sup a = true) :
    ¬ Fails config (· == ·) sup a := by
  cases a <;> simp_all [routine, Fails, Go.Supervise.ConstructionFails, Go.Supervise.Action.teardownFailure]

/-- An orderly close with a supervisor that goes its way. -/
def Routine (config : Config) (s : Go.Session.State Nat String String String) (a : Action Nat String) : Prop :=
  OrderlySocket a ∧ Alive config s a ∧ NoLocalStop a ∧
    match a with
    | .supervisor action => routine config s.sup action = true
    | .closeTimeout _ => False
    | _ => True

instance (config : Config) (s : Go.Session.State Nat String String String) :
    DecidablePred (Routine config s) := fun a => by
  unfold Routine
  refine @instDecidableAnd _ _ _ (@instDecidableAnd _ _ _ (@instDecidableAnd _ _ _ ?_))
  split <;> infer_instance

theorem Routine.orderlyClose {config : Config} {s : Go.Session.State Nat String String String}
    {a : Action Nat String} (h : Routine config s a) : OrderlyClose config s a ∧ NoLocalStop a := by
  obtain ⟨hsocket, halive, hlocal, hrest⟩ := h
  refine ⟨⟨hsocket, halive, ?_⟩, hlocal⟩
  cases a with
  | supervisor action => exact not_fails_of_routine hrest
  | stop request => exact hlocal.elim
  | closeTimeout err => exact hrest
  | _ => trivial

/-- A ping every nanosecond, and no pong may be missing. -/
def keepaliveConfig : Config := { fullConfig with keepalive := ⟨1, 1, 1⟩ }

/-- The peer answers and closes the socket. -/
def closingRun : List (Action Nat String) :=
  activeRun ++ [.monitor .acquire, .socket (.text [7]), .socket (.readFails (.closeError 1000)),
    .socket .finish, .socket .finish, .socket .finish, .socket .finish, .socket .finish, .socket .finish,
    .monitor .transportDone]

/-- The supervisor has left its `select`, and shuts down. -/
def shutdownRun : List (Action Nat String) :=
  [.failPending, .closeAudio, .cancelTasks, .closeDispatch]

/-- The other workers end. -/
def workersRun : List (Action Nat String) :=
  [.dispatcher .popEnds, .inbound .readEnds, .inbound .report, .outbound (.readFails .eof),
    .outbound .report, .supervisor (.mediaCloses none), .supervisor (.transportCloses none),
    .supervisor .workersDone, .supervisor .complete]

/-- The monitor reports first. -/
def monitorFirstRun : List (Action Nat String) :=
  closingRun ++ [.reportMonitor, .supervisor .offer, .supervisor .activeStopped, .supervisor .commit] ++
    shutdownRun ++ [.reader .recvCanceled, .reader .report] ++ workersRun

/-- The reader reports first. -/
def readerFirstRun : List (Action Nat String) :=
  closingRun ++ [.reader .recv, .reader .handle, .reader .recvEnds, .reader .report, .supervisor .offer,
    .supervisor .activeStopped, .supervisor .commit, .reportMonitor] ++ shutdownRun ++ workersRun

end Go

/-! ## The same two orders in Rust -/

section Rust

open Rtvbp.Rust Rtvbp.Rust.Workers Rtvbp.Rust.WebSocket
open Rtvbp.Envelope.Rust (ControlFrame)

/-- A decoder for one response. -/
def decodeResponse (data : Bytes) : Option ControlFrame :=
  if data = [7] then some (.response "r-1" none none) else none

/-- An encoder that does not fail. -/
def encodeFrame (_ : ControlFrame) : Except Error Unit := .ok ()

/-- A ping every nanosecond, and no pong may be missing. -/
def keepalivePolicy : Run.KeepalivePolicy := ⟨1, 1, 1⟩

/-- The session is active and the request 0 is sent; the peer answers and closes the socket. -/
def closingSchedule : List (Action Nat) :=
  [.socket .start, .run .run, .run .park, .run (.connect (.ok ())), .run .test, .run .park,
    .run (.beginReturns .ok), .run .test, .run .park, .bindAudio, .call 0 (.call "ping" .null),
    .call 0 .check, .call 0 (.insert "r-1"), .call 0 .look, .call 0 .send, .call 0 (.sendReturns none),
    .socket (.text [7]), .socket .readCloses, .socket .finish, .socket .finish, .monitor .closed]

/-- `run` shuts down and returns. -/
def shutdownSchedule : List (Action Nat) :=
  [.failPending, .run (.mediaCloses none), .run (.transportCloses .ok)]

/-- The `select!` takes the monitor. -/
def monitorFirstSchedule : List (Action Nat) :=
  closingSchedule ++ .run (.keepaliveReturns .ok) :: shutdownSchedule

/-- The reader drains its inbox, and the `select!` takes it. -/
def readerFirstSchedule : List (Action Nat) :=
  closingSchedule ++ [.reader .recv, .reader .handle, .reader .deliver, .reader .recvEnds,
    .run (.readerReturns (.error .closed))] ++ shutdownSchedule

end Rust

/-! ## Both sessions -/

/-- Where the monitor comes first, both sessions fail although nothing but the orderly close has happened,
and the request is failed while its response is in the inbox. -/
theorem monitorFirst_not_closedCleanly :
    (∃ s : Go.Session.State Nat String String String,
      (Go.Session.machine keepaliveConfig Go.Session.oneResponse).ReachableWhere
        (fun s a => Go.Session.OrderlyClose keepaliveConfig s a ∧ Go.Session.NoLocalStop a) s ∧
      s.sup.transport = true ∧ ¬ Go.Session.ClosedCleanly s ∧ ¬ Go.Session.Drained Go.Session.oneResponse s) ∧
    (∃ s : Rust.Workers.State Nat,
      (Rust.Workers.machine keepalivePolicy encodeFrame decodeResponse).ReachableWhere
        (fun s a => Rust.Workers.OrderlyClose keepalivePolicy s a ∧ Rust.Workers.NoLocalStop a) s ∧
      ¬ Rust.Workers.ClosedCleanly s ∧ ¬ Rust.Workers.Drained decodeResponse s) := by
  have hgo : (Go.Session.machine keepaliveConfig Go.Session.oneResponse).exec Go.Session.initial
    monitorFirstRun = some _ := rfl
  have hrust : (Rust.Workers.machine keepalivePolicy encodeFrame decodeResponse).exec
    Rust.Workers.initial monitorFirstSchedule = some _ := rfl
  have hgoReach := Machine.ReachableWhere.of_exec (G := Routine keepaliveConfig) rfl (by decide) hgo
  refine ⟨⟨_, hgoReach.mono fun _ _ h => h.orderlyClose, rfl, ?_, ?_⟩,
    ⟨_, .of_exec rfl (by decide) hrust, ?_, ?_⟩⟩
  · exact fun h => absurd (h rfl).1 (by decide)
  · exact fun h => absurd (h.handled rfl) (by decide)
  · exact fun h => absurd (h rfl).1 (by decide)
  · exact fun h => absurd (h.handled rfl) (by decide)

/-- Where the reader comes first, both sessions end closed and the request has its response. -/
theorem readerFirst_closedCleanly :
    (∃ s, (Go.Session.machine keepaliveConfig Go.Session.oneResponse).exec Go.Session.initial
        readerFirstRun = some s ∧ s.sup.pc = .finished ∧ s.delivered = [([7], true)] ∧
      Go.Session.ClosedCleanly s ∧ Go.Session.Drained Go.Session.oneResponse s) ∧
    (∃ s, (Rust.Workers.machine keepalivePolicy encodeFrame decodeResponse).exec Rust.Workers.initial
        readerFirstSchedule = some s ∧ s.run.pc = .returned ∧ s.delivered = [([7], some 0)] ∧
      Rust.Workers.ClosedCleanly s ∧ Rust.Workers.Drained decodeResponse s) := by
  have hgo : (Go.Session.machine keepaliveConfig Go.Session.oneResponse).exec Go.Session.initial
    readerFirstRun = some _ := rfl
  have hrust : (Rust.Workers.machine keepalivePolicy encodeFrame decodeResponse).exec
    Rust.Workers.initial readerFirstSchedule = some _ := rfl
  have hgoReach := Machine.ReachableWhere.of_exec
    (G := fun s a => Routine keepaliveConfig s a ∧ Go.Session.MonitorLate s a) rfl (by decide) hgo
  obtain ⟨hgoClosed, hgoDrained, hrustClosed, hrustDrained⟩ :=
    orderly_close_ends_closed (ε := String) (κ := Nat) keepaliveConfig Go.Session.oneResponse keepalivePolicy encodeFrame
      decodeResponse
  refine ⟨⟨_, hgo, rfl, rfl, hgoClosed _ ?_, hgoDrained _ ?_ rfl⟩,
    ⟨_, hrust, rfl, rfl, hrustClosed _ ?_, hrustDrained _ ?_⟩⟩
  · exact hgoReach.mono fun _ _ h => ⟨h.1.orderlyClose.1, h.2⟩
  · exact hgoReach.mono fun _ _ h => ⟨h.1.orderlyClose.1, h.2, h.1.orderlyClose.2⟩
  · exact .of_exec rfl (by decide) hrust
  · exact .of_exec rfl (by decide) hrust

end Rtvbp.Close
