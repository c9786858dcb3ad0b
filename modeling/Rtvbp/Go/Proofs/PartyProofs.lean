import Rtvbp.Go.Proofs.ConversationProofs
import Rtvbp.Lib.Endpoint

/-!
# Proofs: the Go session as a party

A Go session by itself, whoever is at the other end of its transport: its steps are the moves of an endpoint with a
reader and a dispatcher.
-/

namespace Rtvbp.Go.Conversation

open Rtvbp.Lib Rtvbp.Envelope.Go
open Rtvbp.Go.Reply (Error Response Call CallAction EnvAction)

variable {κ β : Type} [DecidableEq κ] {encode : ControlFrame → Except Error β} {decode : β → Option ControlFrame}
  {asked : String → Asked} {peer peer' : Peer κ β} {out inc out' inc' : Wire β}

/-- What a frame is. -/
def frameTag (frame : ControlFrame) : Tag String :=
  match frame.Kind with
  | .request => .request frame.ID
  | .response => .response frame.CorrelID
  | .event => .event

/-- The response that is on the wire. -/
def Inbound.answer (encode : ControlFrame → Except Error β) (entry : Inbound κ) : Option β :=
  if entry.pushed then entry.reply.shared.handed.head?.bind fun frame => (encode frame).toOption else none

/-- How far the reader has come. -/
def ReaderPc.state : ReaderPc β → ReaderState β
  | .receiving => .receiving
  | .holding data => .holding data
  | .ended => .ended

/-- What matters of a session for its peer. -/
def Peer.exchange (encode : ControlFrame → Except Error β) (peer : Peer κ β) : Exchange β ControlFrame String Response where
  Asked id := peer.pushed id = true
  Given id response := .response response ∈ (peer.calls.calls id).completions
  reader := peer.reader.state
  queue := peer.dispatch
  handled := peer.inbound.map fun entry => (entry.frame, entry.answer encode)

/-- How a session reads the messages, and what its calls ask. -/
def terms (encode : ControlFrame → Except Error β) (decode : β → Option ControlFrame) (asked : String → Asked) :
    Exchange.Terms β ControlFrame String Response where
  decode := decode
  tag := frameTag
  Called id data := encode ((asked id).frame id) = .ok data
  Holds data response := ∃ frame, decode data = some frame ∧ response = responseOf frame

/-- A session at the end of a transport. -/
def endpoint (κ : Type) [DecidableEq κ] (encode : ControlFrame → Except Error β) (decode : β → Option ControlFrame)
    (asked : String → Asked) : Endpoint β where
  State := Peer κ β
  Action := PeerAction κ
  initial := .initial
  step := Peer.step encode decode asked

theorem label_eq {data : β} {frame : ControlFrame} (h : decode data = some frame) :
    (terms encode decode asked).label data = some (frameTag frame) := by
  rw [Exchange.Terms.label]
  exact congrArg (Option.map frameTag) h

theorem label_request {id : String} {data : β} (hcodec : Carries encode decode)
    (hencode : encode ((asked id).frame id) = .ok data) :
    (terms encode decode asked).label data = some (.request id) := by
  obtain ⟨frame, hdecode, hkind, rfl⟩ := hcodec.request id (asked id) data hencode
  rw [label_eq hdecode, frameTag, hkind]

theorem label_event {id name : String} {payload : RawMessage} {data : β} (hcodec : Carries encode decode)
    (hencode : encode (eventFrame id name payload) = .ok data) : (terms encode decode asked).label data = some .event := by
  obtain ⟨frame, hdecode, hkind⟩ := hcodec.event id name payload data hencode
  rw [label_eq hdecode, frameTag, hkind]

theorem label_response {frame : ControlFrame} {data : β} (hcodec : Carries encode decode) (hkind : frame.Kind = .response)
    (hencode : encode frame = .ok data) : (terms encode decode asked).label data = some (.response frame.CorrelID) := by
  obtain ⟨frame', hdecode, hkind', hcorrel⟩ := hcodec.response frame data hkind hencode
  rw [label_eq hdecode, frameTag, hkind', hcorrel]

theorem tag_of_request {frame : ControlFrame} (h : frame.Kind = .request) : frameTag frame = .request frame.ID := by
  rw [frameTag, h]

omit [DecidableEq κ] in
theorem answer_of_pushed {entry : Inbound κ} {frame : ControlFrame} {data : β} (hpushed : entry.pushed = true)
    (hhanded : entry.reply.shared.handed = [frame]) (hencode : encode frame = .ok data) :
    entry.answer encode = some data := by
  rw [Inbound.answer, if_pos hpushed, hhanded, List.head?_cons, Option.bind_some, hencode]
  rfl

omit [DecidableEq κ] in
theorem answer_of_unpushed {entry : Inbound κ} (h : entry.pushed = false) : entry.answer encode = none := by
  rw [Inbound.answer, h]
  rfl

/-- A step of a session is a move of an endpoint. -/
theorem exchange_of_moves (hcodec : Carries encode decode) (hown : Own peer)
    (hmoves : Moves encode decode asked peer out inc peer' out' inc') :
    (peer.exchange encode).Moves (terms encode decode asked) out inc (peer'.exchange encode) out' inc' := by
  cases hmoves with
  | calls step other => exact .still fun id response h => completions_of_step step other h
  | @push id data out₁ unpushed encoded sent received =>
    refine .push (by simp [Peer.exchange, unpushed]) encoded (label_request hcodec encoded) ?_ sent received
    intro j
    by_cases hj : j = id
    · simp [hj]
    · simp [Peer.exchange, hj]
  | notify encoded sent received => exact .notify (label_event hcodec encoded) sent received
  | @pushReply index entry frame data out₁ found handed unpushed encoded sent received =>
    have hmem : entry ∈ peer.inbound := List.mem_of_getElem? found
    obtain ⟨hkind, hcorrel⟩ := hown.addressed hmem handed
    have hfound : (peer.exchange encode).handled[index]? = some (entry.frame, none) := by
      simp only [Peer.exchange, List.getElem?_map, found, Option.map_some, answer_of_unpushed unpushed]
    have htag := tag_of_request (hown.requests entry hmem)
    have hlabel : (terms encode decode asked).label data = _ := label_response hcodec hkind encoded
    rw [hcorrel] at hlabel
    have hmove : (peer.exchange encode).Moves (terms encode decode asked) out inc _ out' inc :=
      .answer hfound htag hlabel sent received
    have hanswer : ({ entry with pushed := true } : Inbound κ).answer encode = some data :=
      answer_of_pushed rfl handed encoded
    simpa only [Peer.exchange, List.map_set, hanswer] using hmove
  | recv reader received sent => exact .recv (by rw [Peer.exchange, reader]; rfl) received sent
  | readerEnds reader => exact .ends
  | drop reader decoded => exact .drop (by rw [Peer.exchange, reader]; rfl) decoded
  | @resolve data frame reader decoded kind =>
    have hlabel : (terms encode decode asked).label data = some (.response frame.CorrelID) := by
      rw [label_eq decoded, frameTag, kind]
    refine .resolve (by rw [Peer.exchange, reader]; rfl) hlabel fun id response h => ?_
    by_cases hid : id = frame.CorrelID
    · subst hid
      simp only [Pending.State.setCall, Function.update_self] at h
      by_cases hresponse : response = responseOf frame
      · exact .inr ⟨rfl, frame, decoded, hresponse⟩
      · exact .inl (Pending.Call.response_mem_of_complete (by simpa using Ne.symm hresponse) h)
    · simp only [Pending.State.setCall, Function.update_of_ne hid] at h
      exact .inl h
  | @dispatch data frame dispatch reader decoded kind sent received =>
    have htag : (frameTag frame).responseId = none := by
      unfold frameTag
      cases hkind : frame.Kind with
      | response => exact absurd hkind kind
      | request => rfl
      | event => rfl
    exact .dispatch (by rw [Peer.exchange, reader]; rfl) decoded htag sent received
  | refused reader => exact .ends
  | @take frame dispatch received sent =>
    have hmove : (peer.exchange encode).Moves (terms encode decode asked) out inc _ out inc := .take received sent
    unfold Peer.take
    split_ifs with hkind
    · simpa [Peer.exchange, Exchange.entry, terms, tag_of_request hkind, Tag.requestId, Inbound.take, Inbound.answer] using hmove
    · have htag : (frameTag frame).requestId = none := by
        unfold frameTag
        cases hkind' : frame.Kind with
        | request => exact absurd hkind' hkind
        | response => rfl
        | event => rfl
      simpa [Peer.exchange, Exchange.entry, terms, htag] using hmove
  | dispatcher pc => exact .still fun _ _ h => h
  | @reply index entry action reply found step =>
    have hmem : entry ∈ peer.inbound := List.mem_of_getElem? found
    have hanswer : ({ entry with reply := reply } : Inbound κ).answer encode = entry.answer encode := by
      cases hpushed : entry.pushed with
      | false => rw [answer_of_unpushed rfl, answer_of_unpushed hpushed]
      | true =>
        obtain ⟨frame, hframe⟩ := hown.handed entry hmem hpushed
        have hkept := handed_replyStep (holds_sync peer.calls.closing (hown.replies entry hmem))
          (handed_sync.trans hframe) step
        simp only [Inbound.answer, hpushed, hframe, hkept]
    have hmove : (peer.exchange encode).Moves (terms encode decode asked) out inc _ out inc := .still fun _ _ h => h
    have hhandled : (peer.inbound.set index { entry with reply := reply }).map (fun e => (e.frame, e.answer encode)) =
        peer.inbound.map fun e => (e.frame, e.answer encode) := Exchange.map_set_of_eq found (Prod.ext rfl hanswer)
    simpa only [Peer.exchange, hhandled] using hmove
  | closeDispatch => exact .discard

/-- The call has returned this response. -/
def Peer.Returned (peer : Peer κ β) (id : String) (response : Response) : Prop :=
  (peer.calls.calls id).pc = .returned (.response response)

omit [DecidableEq κ] in
theorem own_initial : Own (Peer.initial : Peer κ β) :=
  ⟨Pending.inv_initial, by simp [Peer.initial], by simp [Peer.initial], by simp [Peer.initial]⟩

omit [DecidableEq κ] in
/-- A response that a call has returned was given to it. -/
theorem given_of_returned (hown : Own peer) {id : String} {response : Response} (h : peer.Returned id response) :
    .response response ∈ (peer.calls.calls id).completions := by
  have hcall := hown.calls.calls id
  obtain ⟨c, hc, hpc | ⟨hrunning, -⟩⟩ := hcall.completed (by rw [show _ = _ from h]; rfl) (hcall.returned _ h)
  · rw [show _ = _ from h] at hpc
    cases hpc
    rw [hc]
    exact List.mem_singleton_self _
  · rw [show _ = _ from h] at hrunning
    cases hrunning

theorem refines (hcodec : Carries encode decode) :
    Exchange.Refines (endpoint κ encode decode asked) (terms encode decode asked) (Peer.exchange encode) Peer.Returned
      Own where
  own := own_initial
  fresh := ⟨by simp [endpoint, Peer.exchange, Peer.initial, Pending.initial, Pending.Call.new], rfl, rfl, rfl⟩
  step hown hstep :=
    have hmoves := moves_of_step hstep
    ⟨(hown.of_moves hmoves).1, exchange_of_moves hcodec hown hmoves⟩
  returned _ hown _ _ h := given_of_returned hown h

/-- A Go session as a party. -/
def party (κ : Type) [DecidableEq κ] (asked : String → Asked) (hcodec : Carries encode decode) : Party β String :=
  Exchange.party (refines hcodec : Exchange.Refines (endpoint κ encode decode asked) (terms encode decode asked)
    (Peer.exchange encode) Peer.Returned Own)

end Rtvbp.Go.Conversation
