import Rtvbp.Go.Proofs.ServerProofs
import Rtvbp.Rust.Proofs.ServerProofs
import Rtvbp.Go.Proofs.FlushProofs
import Rtvbp.Rust.Proofs.FlushProofs

/-!
# Shutdown of the two servers

When `Shutdown` of the Go server has returned nil, every session that ever ran has ended and nobody is
admitted any more; when `shutdown` of the Rust server has returned, every transport that was ever upgraded
is closed. A Go session that has given up waiting for its transport factory has ended without its transport,
which the factory closes when it returns.
-/

namespace Rtvbp.Close

open Rtvbp.Lib

/-- A configuration that passes the checks. -/
def configured : Go.Supervise.Config := ⟨true, true, true, true, ⟨0, 0, 0⟩⟩

/-- A session is served, a second connection is in its upgrade when the shutdown begins, and a third one is
refused. -/
def goRun : List (Go.Server.Action Unit Nat Unit) :=
  [.handler 0 .enter, .handler 0 .beginAdmission, .handler 0 .upgrade, .handler 0 .run,
    .handler 0 .addSession, .handler 0 .endAdmission, .session 0 (.supervise .configure),
    .session 0 .newTransport, .session 0 (.supervise (.factoryReturns ⟨true, none⟩)),
    .session 0 (.supervise .created), .session 0 (.supervise (.onBeginReturns none)),
    .session 0 (.supervise .beginReceived),
    .handler 1 .enter, .handler 1 .beginAdmission, .handler 2 .enter,
    .caller () (.shutdown [0]), .handler 2 .beginAdmission, .caller () .close,
    .session 0 (.supervise .offer), .session 0 (.supervise .activeStopped),
    .session 0 (.supervise .commit), .session 0 (.supervise (.mediaCloses none)),
    .session 0 (.supervise (.transportCloses none)), .session 0 (.supervise .workersDone),
    .session 0 (.supervise .complete), .caller () .closed, .caller () .closedAll,
    .caller () (.http false), .handler 1 .upgrade, .handler 1 .run, .handler 1 .addSession,
    .handler 1 .close, .session 1 (.supervise .offer), .session 1 (.supervise .configure),
    .session 1 (.supervise (.createStopped ())), .session 1 (.supervise (.factoryReturns ⟨false, some ()⟩)),
    .session 1 (.supervise .joined), .session 1 (.supervise .commit),
    .session 1 (.supervise (.mediaCloses none)), .session 1 (.supervise .complete),
    .handler 1 .closed, .handler 1 .endAdmission, .caller () .drained]

/-- A connection is admitted, a second one is in its upgrade when the shutdown begins. -/
def rustRun : List (Rust.Server.Action Unit Nat) :=
  [.loop .create, .env (.connect 0), .loop .accept, .loop .look, .loop .count, .loop .spawn,
    .admission 0 .upgrade, .admission 0 .look, .admission 0 .register, .admission 0 .send,
    .admission 0 .watch, .admission 0 .leave, .admission 0 .announce,
    .loop .create, .env (.connect 1), .loop .accept, .loop .look, .loop .count, .loop .spawn, .loop .create,
    .caller () .call, .caller () .notify, .loop .stopped, .loop .finish, .loop .announce, .caller () .look,
    .caller () .look, .admission 1 .upgrade, .admission 1 .look, .admission 1 (.close .look),
    .admission 1 (.close .take), .env (.answer 1), .admission 1 (.close .answered), .admission 1 .leave,
    .caller () .create, .caller () .recheck, .caller () .take, .caller () (.snapshot [0]),
    .caller () (.close .look false), .caller () (.close .take false), .env (.answer 0),
    .caller () (.close .answered false), .caller () .closedAll, .env (.finish 0), .watcher 0 .closed,
    .watcher 0 .remove, .caller () .look]

/-- The decorator of the transport does not return when the session is stopped. -/
def abandonedRun : List (Go.Server.Action Unit Nat Unit) :=
  [.handler 0 .enter, .handler 0 .beginAdmission, .handler 0 .upgrade, .handler 0 .run,
    .handler 0 .addSession, .handler 0 .endAdmission, .session 0 (.supervise .configure),
    .session 0 .newTransport, .caller () (.shutdown [0]), .caller () .close,
    .session 0 (.supervise .offer), .session 0 (.supervise (.createStopped ())),
    .session 0 (.supervise .joinTimeout), .session 0 (.supervise .commit),
    .session 0 (.supervise (.mediaCloses none)), .session 0 (.supervise .complete), .caller () .closed,
    .caller () .closedAll, .caller () (.http false), .caller () .drained]

end Rtvbp.Close

/-!
## A transport flushes its queue before it closes

The WebSocket transports of Go and Rust admit messages to a queue, and closing the transport admits the
close frame as the last one. What holds of both is stated for their outboxes: as long as the socket does
not fail and the peer does not close it, each admitted message is written once, in its turn and before the
close frame, and nothing is admitted or written after it.
-/

namespace Rtvbp.Close

open Rtvbp.Lib

/-- A Go transport sends a response and is closed twice; the frame that comes too late is refused. -/
example : ((Go.Flush.machine (ε := String) (δ := String) 3).exec
      ⟨{ Go.WebSocket.Transport.initial with opened := true, reading := true }, .empty⟩
      [.send "response", .socket .pop, .close "Closed", .writeFrame "audio", .close "Closed",
        .socket (.writes none), .socket .pop, .socket (.writes none), .socket .finish]).map
        (·.outbox.written) =
    some [⟨.text, "response"⟩, ⟨.close, "Closed"⟩] := by
  decide

end Rtvbp.Close
