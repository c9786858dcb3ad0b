import Rtvbp.Envelope.RustCodec

/-!
# The errors of the Rust SDK

`crate::Error` of `sdk/rust/src/error.rs` with its `Display` texts, and the wire error that
`respond_handler_error` of `sdk/rust/src/session/mod.rs` makes of it.
-/

namespace Rtvbp.Rust

open Rtvbp.Envelope (WireError)

/-- `crate::Error`; a `ValidationError` is its message. -/
inductive Error where
  | envelope (message : String)
  | validation (message : String)
  | remote (error : WireError)
  | handler (error : WireError)
  | invalidMediaFormat (message : String)
  | mediaUnsupported
  | mediaAlreadyOpen
  | closed
  | transport (message : String)
  | unsupportedSubprotocol (name : String)
  | keepaliveTimeout
  | timeout
  | requestTimeout
  | requestFailed (message : String)
  | sessionClosed
  | sessionAlreadyRun
  | sessionFailed (message : String)
  | responseAlreadySent
  | noRequestContext
  | audioAlreadyBound
  | audioFormatConflict
  | audioUnavailable
  | configuration (message : String)

namespace Error

/-- `Display` of a wire error. -/
def displayWire (error : WireError) : String := s!"{error.code.toInt}: {error.message}"

/-- `Display` of an error. -/
def display : Error → String
  | .envelope message => "envelope: " ++ message
  | .validation message => "validation: " ++ message
  | .remote error => "remote error " ++ displayWire error
  | .handler error => "handler error " ++ displayWire error
  | .invalidMediaFormat message => "invalid media format: " ++ message
  | .mediaUnsupported => "dynamic media is unsupported"
  | .mediaAlreadyOpen => "media channel is already open"
  | .closed => "channel is closed"
  | .transport message => "transport: " ++ message
  | .unsupportedSubprotocol name => "unsupported WebSocket subprotocol: " ++ name
  | .keepaliveTimeout => "keepalive timed out"
  | .timeout => "operation timed out"
  | .requestTimeout => "request timed out"
  | .requestFailed message => "request failed: " ++ message
  | .sessionClosed => "session is closed"
  | .sessionAlreadyRun => "session has already run"
  | .sessionFailed message => "session failed: " ++ message
  | .responseAlreadySent => "response has already been sent or deferred"
  | .noRequestContext => "there is no inbound request context"
  | .audioAlreadyBound => "audio is already bound"
  | .audioFormatConflict => "audio format conflicts with the negotiated format"
  | .audioUnavailable => "audio transport is unavailable"
  | .configuration message => "configuration: " ++ message

/-- `matches!(error, crate::Error::SessionClosed)`. -/
def isSessionClosed : Error → Bool
  | .sessionClosed => true
  | _ => false

/-- The wire error of `respond_handler_error`. -/
def toWire : Error → WireError
  | .handler wire => wire
  | other => { code := 500, message := other.display, data := none }

end Error

/-- `encode` of a generated codec, with its error as the session sees it. -/
def encodeWith (tables : Envelope.Rust.Tables) (frame : Envelope.Rust.ControlFrame) :
    Except Error Json :=
  match tables.encode frame with
  | .ok json => .ok json
  | .error (.message text) => .error (.envelope text)
  | .error (.mustEqual name value) => .error (.envelope s!"{name} must equal {value.quote}")

end Rtvbp.Rust
