import Rtvbp.Go.Proofs.PartyProofs
import Rtvbp.Rust.Session.Proofs.ConversationProofs

/-!
# Conversations across the SDKs

Two sessions at the ends of one transport, each of the Go or of the Rust SDK, with the envelope codecs that are
generated for both languages from one declaration. Each session is a party by itself; the decoders of both languages
agree on which messages are requests, responses and events, and on their ids, so that the promises of the two sessions
fit together.
-/

namespace Rtvbp.Conversations

open Rtvbp.Lib Rtvbp.Envelope

/-- A declaration whose codecs carry what sessions rely on, in both languages. -/
structure Declaration where
  spec : EnvelopeSpec
  valid : spec.structureIssues = []
  unambiguous : spec.Unambiguous
  /-- The Go decoder takes an empty constant for a missing one. -/
  constants : ∀ c ∈ spec.constants, c.value ≠ ""

/-- A session of one of the SDKs, with what its calls ask. -/
inductive Session where
  | go (asked : String → Go.Conversation.Asked)
  | rust (asked : String → Rust.Conversation.Asked)

variable (κ : Type) [DecidableEq κ]

/-- The session at a transport, with the codec of its language. -/
def Session.party (declaration : Declaration) : Session → Party Value String
  | .go asked =>
    Go.Conversation.party κ asked
      (Go.Conversation.carries_renderCodec declaration.valid declaration.unambiguous declaration.constants)
  | .rust asked =>
    Rust.Conversation.party κ asked (Rust.Conversation.carries_renderCodec declaration.valid declaration.unambiguous)

/-- Two sessions and the wires out of them. -/
abbrev Pair (declaration : Declaration) (a b : Session) :=
  Endpoint.Pair (a.party κ declaration).toEndpoint (b.party κ declaration).toEndpoint

/-- The runs of two sessions at one transport. -/
def machine (declaration : Declaration) (a b : Session) :
    Machine (Pair κ declaration a b)
      (Endpoint.PairAction (a.party κ declaration).toEndpoint (b.party κ declaration).toEndpoint) :=
  Endpoint.pair (a.party κ declaration).toEndpoint (b.party κ declaration).toEndpoint

variable {κ}

/-- What the reference decoder reads a message as. -/
def tagOf : ControlFrame → Tag String
  | .request id _ _ => .request id
  | .response correlationId _ _ => .response correlationId
  | .event _ _ _ => .event

/-- What a message is for the reference decoder. -/
def label (spec : EnvelopeSpec) (message : Value) : Option (Tag String) :=
  message.asObject.bind fun object => (spec.decodeUnvalidated object).toOption.map tagOf

theorem toOption_of_agree {α β ε ε' : Type} {f : α → β} {x : Except ε α} {y : Except ε' β} (h : Agree f x y) :
    y.toOption = x.toOption.map f := by
  cases h with
  | error e e' => rfl
  | ok a => rfl

/-- Every session reads the messages like the reference decoder. -/
theorem label_party (declaration : Declaration) (a : Session) (message : Value) :
    (a.party κ declaration).label message = label declaration.spec message := by
  cases a with
  | go asked =>
    have hwf := EnvelopeSpec.wellFormed_of_structureIssues declaration.valid
    have hagree := fun object => toOption_of_agree (Go.decode_agree hwf declaration.constants object)
    show (Go.Conversation.decodeText _ message).map Go.Conversation.frameTag = _
    unfold Go.Conversation.decodeText label
    cases message.asObject with
    | none => rfl
    | some object =>
      rw [Option.bind_some, Option.bind_some, hagree object, Option.map_map]
      congr 1
      funext frame
      cases frame <;> rfl
  | rust asked =>
    have hagree := fun object => toOption_of_agree (@Rust.decode_agree declaration.spec object)
    show (Rust.Conversation.decodeText _ message).map Rust.Conversation.frameTag = _
    unfold Rust.Conversation.decodeText label
    cases message.asObject with
    | none => rfl
    | some object =>
      rw [Option.bind_some, Option.bind_some, hagree object, Option.map_map]
      congr 1
      funext frame
      cases frame <;> rfl

/-- In every run of two sessions, whichever of the SDKs they are of, between the calls of each and the handlers of the
other: the requests and events are taken up in the order in which they were sent and none is left out, a request that
is handled is what the call of its id asked and is handled once, at most one response to it is sent, and a call that
returns a response returns that to the one handling of its own request. -/
theorem sessions_sound (declaration : Declaration) (a b : Session) {s : Pair κ declaration a b}
    (h : (machine κ declaration a b).Reachable s) :
    Party.Sound (a.party κ declaration) (b.party κ declaration) s.left s.right s.up.sent s.down.sent ∧
      Party.Sound (b.party κ declaration) (a.party κ declaration) s.right s.left s.down.sent s.up.sent :=
  Party.sound (fun message => (label_party declaration a message).trans (label_party declaration b message).symm) h

section Exchange

/-- The declaration of the deployed protocol. -/
def classicV1 : Declaration where
  spec := .classicV1
  valid := by decide
  unambiguous := by
    simp [EnvelopeSpec.Unambiguous, EnvelopeSpec.classicV1, FieldSpec.required, FieldSpec.optional]
  constants := by decide

/-- A Go session and a Rust session whose calls are pings. -/
def goSession : Session := .go fun _ => ⟨"ping", .nil⟩

def rustSession : Session := .rust fun _ => ⟨"ping", .null⟩

/-- The Go session asks, the Rust session handles the request, and the call returns. -/
def goAsks : List (Go.Conversation.PeerAction Unit) :=
  [.connect, .call "g-1" .check, .call "g-1" .register, .call "g-1" (.beginSend none), .push "g-1"]

def rustAnswers : List (Rust.Conversation.PeerAction Unit) :=
  [.recv, .handle, .pop, .reply 0 (.act (some ()) (.respond ⟨some .null, none, false⟩)), .reply 0 (.act (some ()) .load),
    .reply 0 (.act (some ()) .compareExchange), .reply 0 (.act (some ()) .look), .reply 0 (.act (some ()) .send),
    .pushReply 0 (some ())]

def goReturns : List (Go.Conversation.PeerAction Unit) :=
  [.recv, .handle, .call "g-1" (.sendReturns none), .call "g-1" .receive]

/-- The Rust session asks, the Go session handles the request, and the call returns. -/
def rustAsks : List (Rust.Conversation.PeerAction Unit) :=
  [.call "r-1" (.call "ping" .null), .call "r-1" .check, .call "r-1" (.insert "r-1"), .call "r-1" .look, .call "r-1" .send,
    .push "r-1"]

def goAnswers : List (Go.Conversation.PeerAction Unit) :=
  [.recv, .handle, .pop, .reply 0 (.act (some ()) (.respond ⟨.json .null, none⟩ false)), .reply 0 (.act (some ()) .check),
    .reply 0 (.act (some ()) .load), .reply 0 (.act (some ()) .compareAndSwap), .reply 0 (.act (some ()) .look),
    .reply 0 (.act (some ()) .send), .pushReply 0 (some ())]

def rustReturns : List (Rust.Conversation.PeerAction Unit) :=
  [.recv, .handle, .deliver, .call "r-1" (.sendReturns none), .call "r-1" .receive]

/-- A step of one of both sessions. -/
abbrev Action :=
  Endpoint.PairAction (goSession.party Unit classicV1).toEndpoint (rustSession.party Unit classicV1).toEndpoint

def goStep (action : Go.Conversation.PeerAction Unit) : Action := .left action

def rustStep (action : Rust.Conversation.PeerAction Unit) : Action := .right action

/-- Both sessions ask and are answered. -/
def bothAsk : List Action :=
  goAsks.map goStep ++ rustAnswers.map rustStep ++ goReturns.map goStep ++ rustAsks.map rustStep ++
    goAnswers.map goStep ++ rustReturns.map rustStep

/-- The calls of both sessions have returned responses. -/
def responded (go : Go.Conversation.Peer Unit Value) (rust : Rust.Conversation.Peer Unit Value) : Bool :=
  match (go.calls.calls "g-1").pc, rust.calls.locals "r-1" with
  | .returned (.response _), .returned (.received _ (.sent (.response _))) => true
  | _, _ => false

/-- Both sessions before anything has happened. -/
def start : Pair Unit classicV1 goSession rustSession :=
  ⟨(goSession.party Unit classicV1).initial, (rustSession.party Unit classicV1).initial, .empty, .empty⟩

theorem bothAsk_sound :
    ∃ s : Pair Unit classicV1 goSession rustSession,
      (machine Unit classicV1 goSession rustSession).exec start bothAsk = some s ∧ responded s.left s.right = true ∧
      Party.Sound (goSession.party Unit classicV1) (rustSession.party Unit classicV1) s.left s.right s.up.sent
          s.down.sent ∧
        Party.Sound (rustSession.party Unit classicV1) (goSession.party Unit classicV1) s.right s.left s.down.sent
          s.up.sent := by
  have hruns : ((machine Unit classicV1 goSession rustSession).exec start bothAsk).any
      (fun s => responded s.left s.right) = true := by
    decide +kernel
  obtain ⟨s, hexec, hresponded⟩ := (Option.any_eq_true ..).mp hruns
  exact ⟨s, hexec, hresponded, sessions_sound classicV1 goSession rustSession (.of_exec rfl hexec)⟩

end Exchange

end Rtvbp.Conversations
