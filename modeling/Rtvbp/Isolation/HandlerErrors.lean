import Rtvbp.Go.Proofs.IsolationProofs
import Rtvbp.Rust.Session.Proofs.IsolationProofs
import Rtvbp.TypeScript.Session.Proofs.IsolationProofs

/-!
# The errors of request handlers

A handler that fails should cost its caller an error response, and nobody else anything. In all three SDKs
this holds exactly for the errors that the envelope can carry to the peer: an error that the encoder refuses
stops the session, and the request stays without a response.
-/

namespace Rtvbp.Isolation

open Rtvbp.Lib Rtvbp.Envelope

/-- A Go handler that returns an error with this message. -/
def goFailing (message : String) : Rtvbp.Go.Isolation.Failing where
  id := "r-1"
  id_ne := by decide
  message := message
  handlerError := none

/-- A Rust handler that returns a wire error with this code. -/
def rustFailing (code : Int64) : Rtvbp.Rust.Isolation.Failing where
  id := "r-1"
  id_ne := by decide
  error := .handler { code := code, message := "no such call", data := none }

/-- A TypeScript handler that throws an `Error` with this message. -/
def typescriptFailing (message : String) : Rtvbp.TypeScript.Isolation.Failing where
  id := "r-1"
  id_ne := by decide
  raised := .thrown { message := message, wire := none }

end Rtvbp.Isolation
