import Rtvbp.Envelope.Proofs.PeerProofs
import Rtvbp.Lib.Endpoint
import Rtvbp.Rust.Session.Conversation
import Rtvbp.Rust.Session.Proofs.ReplyProofs

/-!
# Proofs: the Rust session as a party

The steps of a Rust session are the moves of an endpoint with a reader and a dispatcher. What an inbound request has
handed to `send` does not depend on the stop flag, so the invariant of a reply is used as if a stop had been requested,
where it holds whatever the encoder rejects.
-/

namespace Rtvbp.Rust.Conversation

open Rtvbp.Lib Rtvbp.Envelope.Rust
open Rtvbp.Rust.Reply (Call CallAction EnvAction)

variable {κ β : Type} [DecidableEq κ] {encode : ControlFrame → Except Error β} {decode : β → Option ControlFrame}
  {asked : String → Asked} {peer peer' : Peer κ β} {out inc out' inc' : Wire β}

/-! ## The generated codecs -/

section Codec

open Rtvbp.Envelope

variable {tables : Tables} {spec : EnvelopeSpec} {data : Value}

/-- What `encodeText` accepts, `encode` has written. -/
theorem encode_of_encodeText {frame : Rust.ControlFrame} (h : encodeText tables frame = .ok data) :
    tables.encode frame = .ok data.val := by
  unfold encodeText encodeWith at h
  cases hencode : tables.encode frame with
  | error err => cases err <;> simp [hencode] at h
  | ok json =>
    simp only [hencode] at h
    split_ifs at h
    obtain rfl := Except.ok.inj h
    rfl

/-- A text that the codec of an unambiguous declaration has written is decoded to a frame that carries the same
identities. -/
theorem decodeText_of_encode (hs : spec.structureIssues = []) (hu : spec.Unambiguous) {frame : Envelope.ControlFrame}
    (h : (renderCodec spec).encode (.ofFrame frame) = .ok data.val) :
    ∃ decoded : Envelope.ControlFrame, decodeText (renderCodec spec) data = some (.ofFrame decoded) ∧
      decoded.kind = frame.kind ∧ decoded.identity = frame.identity ∧ decoded.subject = frame.subject := by
  have hwf := EnvelopeSpec.wellFormed_of_structureIssues hs
  obtain ⟨shape, hshape, hkind, hframe⟩ := hwf.exists_frame frame.kind
  obtain ⟨hen, hdata⟩ := (Rust.encode_eq_ok_iff hwf hshape hkind hframe).mp h
  obtain ⟨decoded, hdecoded, hsame⟩ := EnvelopeSpec.exists_decodeUnvalidated_wireMap hs hu hshape hkind hframe hen
  refine ⟨decoded, ?_, hsame⟩
  have hrust := (Rust.decode_agree _).eq_ok hdecoded
  obtain ⟨json, hjson⟩ := data
  obtain rfl : json = _ := hdata
  exact congrArg Except.toOption hrust

/-- The generated codec of every unambiguous declaration carries what a session relies on. -/
theorem carries_renderCodec (hs : spec.structureIssues = []) (hu : spec.Unambiguous) :
    Carries (encodeText (renderCodec spec)) (decodeText (renderCodec spec)) where
  request id asked data h := by
    have hencode : (renderCodec spec).encode (.ofFrame (.request id asked.method (some asked.payload))) = .ok data.val :=
      encode_of_encodeText h
    obtain ⟨decoded, hdecoded, hkind, hid, -⟩ := decodeText_of_encode hs hu hencode
    cases decoded with
    | request id' method' payload' => exact ⟨_, hdecoded, rfl, hid⟩
    | _ => cases hkind
  event id event payload data h := by
    have hencode : (renderCodec spec).encode (.ofFrame (.event id event (some payload))) = .ok data.val :=
      encode_of_encodeText h
    obtain ⟨decoded, hdecoded, hkind, -, -⟩ := decodeText_of_encode hs hu hencode
    cases decoded with
    | event id' method' payload' => exact ⟨_, hdecoded, rfl⟩
    | _ => cases hkind
  response sent data hsent h := by
    obtain ⟨kind, id, correlationId, method, payload, error⟩ := sent
    obtain rfl : kind = .response := hsent
    -- a response is written without its id and method
    have hencode : (renderCodec spec).encode (.ofFrame (.response correlationId payload error)) = .ok data.val :=
      encode_of_encodeText h
    obtain ⟨decoded, hdecoded, hkind, -, hsubject⟩ := decodeText_of_encode hs hu hencode
    cases decoded with
    | response correlationId' payload' error' => exact ⟨_, hdecoded, rfl, hsubject⟩
    | _ => cases hkind

end Codec

/-! ## The table of the calls -/

section Calls

variable {s t : Pending.Shared String} {locals : String → Pending.Call} {id : String} {frame : ControlFrame}

/-- Every entry of the table leads to the call of its id. -/
def Keyed (s : Pending.Shared String) : Prop := ∀ entry ∈ s.pending, entry.2 = entry.1

/-- The call of this id has the response, or the reader is about to send it. -/
def Gives (s : Pending.Shared String) (locals : String → Pending.Call) (id : String) (frame : ControlFrame) : Prop :=
  s.taken = some (id, frame) ∨ s.channel id = .sent (.response frame) ∨
    ∃ id', locals id = .returned (.received id' (.sent (.response frame)))

theorem Keyed.remove (h : Keyed s) (id : String) : Keyed (s.remove id) :=
  fun entry hentry => h entry (List.mem_of_mem_filter hentry)

theorem Keyed.insert (h : Keyed s) (id : String) : Keyed (s.insert id id) := by
  intro entry hentry
  rcases List.mem_cons.mp hentry with rfl | hentry
  · rfl
  · exact h.remove id entry hentry

theorem channel_of_dropSender {i : String} (h : (s.dropSender i).channel id = .sent (.response frame)) :
    s.channel id = .sent (.response frame) := by
  simp only [Pending.Shared.dropSender, Function.update_apply] at h
  split_ifs at h
  exact h

/-- What a step of the call `i` leaves to the calls of the other ids, and what it makes of its own. -/
theorem Gives.of_update {i : String} {c : Pending.Call} (h : Gives t (Function.update locals i c) id frame)
    (htaken : t.taken = s.taken)
    (hchannel : t.channel id = .sent (.response frame) → s.channel id = .sent (.response frame))
    (hreturned : ∀ id', c = .returned (.received id' (.sent (.response frame))) → s.channel i = .sent (.response frame)) :
    Gives s locals id frame := by
  rcases h with h | h | ⟨id', h⟩
  · exact .inl (htaken ▸ h)
  · exact .inr (.inl (hchannel h))
  · by_cases hid : id = i
    · subst hid
      rw [Function.update_self] at h
      exact .inr (.inl (hreturned id' h))
    · rw [Function.update_of_ne hid] at h
      exact .inr (.inr ⟨id', h⟩)

theorem eq_of_insert {action : Pending.CallAction} {i : String} {ask : Asked} {pushed : Bool}
    (h : callStep i ask pushed action = some (.insert id)) : id = i := by
  cases action with
  | insert id' =>
    cases h
    rfl
  | sendReturns error =>
    cases error with
    | none =>
      simp only [callStep] at h
      split_ifs at h
      cases h
    | some error => cases h
  | call | check | look | send | elapse | cancel | receive | drop => cases h

/-- A step of the call of an id. -/
theorem calls_of_act {i : String} {c : Pending.Call} {action action' : Pending.CallAction} {ask : Asked} {pushed : Bool}
    (hcallStep : callStep i ask pushed action = some action') (hkeyed : Keyed s)
    (hact : Pending.act encode i s (locals i) action' = some (t, c)) :
    Keyed t ∧ ∀ id frame, Gives t (Function.update locals i c) id frame → Gives s locals id frame := by
  have hlocal : ∀ {c}, (∀ id' frame, c = .returned (.received id' (.sent (.response frame))) →
      s.channel i = .sent (.response frame)) →
      Keyed s ∧ ∀ id frame, Gives s (Function.update locals i c) id frame → Gives s locals id frame :=
    fun hreturned => ⟨hkeyed, fun _ frame h => h.of_update rfl (fun hc => hc) fun id' => hreturned id' frame⟩
  cases action' with
  | call method payload | check | look | send | sendReturns error | elapse | drop =>
    simp only [Pending.act] at hact
    split at hact <;> (try split at hact) <;> cases hact <;> exact hlocal fun id' frame hc => by cases hc
  | insert id =>
    obtain rfl := eq_of_insert hcallStep
    simp only [Pending.act] at hact
    split at hact
    · split_ifs at hact with hempty
      · cases hact
        exact hlocal fun id' frame hc => by cases hc
      · split at hact <;> cases hact
        · exact ⟨hkeyed.insert id, fun _ frame h => h.of_update rfl channel_of_dropSender fun id' hc => by cases hc⟩
        · exact ⟨hkeyed.insert id, fun _ frame h => h.of_update rfl (fun hc => hc) fun id' hc => by cases hc⟩
    · cases hact
  | cancel =>
    simp only [Pending.act] at hact
    split at hact
    · split at hact <;> cases hact
      · exact ⟨hkeyed.remove _, fun _ frame h => h.of_update rfl channel_of_dropSender fun id' hc => by cases hc⟩
      · exact hlocal fun id' frame hc => by cases hc
    · split at hact <;> cases hact
      · exact ⟨hkeyed.remove _, fun _ frame h => h.of_update rfl channel_of_dropSender fun id' hc => by cases hc⟩
      · exact hlocal fun id' frame hc => by cases hc
    · cases hact
  | receive =>
    simp only [Pending.act] at hact
    split at hact <;> cases hact
    · refine hlocal fun id' frame hc => ?_
      injection hc with hc
      injection hc with _ hc
    · refine hlocal fun id' frame hc => ?_
      injection hc with hc
      injection hc with _ hc

/-- A step of everybody else: only `resolve_pending` gives a call a response. -/
theorem calls_of_env (locals : String → Pending.Call) {action : Pending.EnvAction} (hkeyed : Keyed s)
    (henv : Pending.env s action = some t) :
    Keyed t ∧ ∀ id frame, Gives t locals id frame →
      Gives s locals id frame ∨ (action = .resolve frame ∧ id = frame.correlationId) := by
  cases action with
  | resolve answer =>
    simp only [Pending.env] at henv
    split at henv
    · cases henv
    next htaken =>
      split at henv <;> cases henv
      next i hlookup =>
        obtain rfl : i = answer.correlationId := hkeyed _ (mem_of_lookup_eq_some hlookup)
        refine ⟨hkeyed.remove _, ?_⟩
        rintro id frame (h | h)
        · obtain ⟨rfl, rfl⟩ := Prod.ext_iff.mp (Option.some.inj h)
          exact .inr ⟨rfl, rfl⟩
        · exact .inl (.inr h)
      · exact ⟨hkeyed, fun _ _ h => .inl h⟩
  | deliver =>
    simp only [Pending.env] at henv
    split at henv <;> cases henv
    next i answer htaken =>
      refine ⟨hkeyed, ?_⟩
      rintro id frame (h | h | h)
      · cases h
      · by_cases hid : id = i
        · subst hid
          simp only [Function.update_self, Pending.Channel.sent.injEq, Pending.Source.response.injEq] at h
          exact .inl (.inl (h ▸ htaken))
        · simp only [Function.update_of_ne hid] at h
          exact .inl (.inr (.inl h))
      · exact .inl (.inr (.inr h))
  | beginShutdown =>
    cases henv
    exact ⟨hkeyed, fun _ _ h => .inl h⟩
  | failPending =>
    simp only [Pending.env, Option.ite_none_right_eq_some] at henv
    obtain ⟨-, henv⟩ := henv
    cases henv
    refine ⟨nofun, ?_⟩
    rintro id frame (h | h | h)
    · exact .inl (.inl h)
    · dsimp only at h
      split_ifs at h
      · cases h
      · exact .inl (.inr (.inl h))
    · exact .inl (.inr (.inr h))

end Calls

/-! ## The replies -/

/-- The reply as if a stop had been requested. -/
def raised (reply : Reply.State κ) : Reply.State κ :=
  { reply with shared := { reply.shared with stop := true } }

omit [DecidableEq κ] in
/-- A call of `respond_internal` does not read the stop flag. -/
theorem act_raised {id : String} {i : Option κ} {s t : Reply.Shared (Option κ)} {c c' : Call} {action : CallAction}
    (h : Reply.act encode id i s c action = some (t, c')) :
    Reply.act encode id i { s with stop := true } c action = some ({ t with stop := true }, c') := by
  cases action <;> simp only [Reply.act] at h ⊢ <;> split at h <;> (try split at h) <;> cases h <;>
    simp_all

omit [DecidableEq κ] in
/-- The steps of everybody else do not read the stop flag, but for `beginShutdown`. -/
theorem env_raised {reply : Reply.State κ} {shared : Reply.Shared (Option κ)} {e : EnvAction}
    (hown : e ≠ .requestStop ∧ e ≠ .beginShutdown) (henv : Reply.env reply.shared e = some shared) :
    Reply.env (raised reply).shared e = some { shared with stop := true } := by
  cases e with
  | requestStop => exact absurd rfl hown.1
  | beginShutdown => exact absurd rfl hown.2
  | handlerReturns outcome =>
    simp only [Reply.env] at henv
    split at henv <;> cases henv <;> simp_all [raised, Reply.env]
  | test =>
    simp only [Reply.env] at henv
    split at henv <;> cases henv <;> simp_all [raised, Reply.env]
  | deferResponse =>
    cases henv
    rfl

/-- What holds of a reply, whatever the encoder rejects. -/
def Replying (id : String) (reply : Reply.State κ) : Prop :=
  Threads.Holds (Reply.Inv id) Reply.CallInv (raised reply)

omit [DecidableEq κ] in
theorem replying_sync {id : String} (closing stop : Bool) {reply : Reply.State κ} (h : Replying id reply) :
    Replying id (sync closing stop reply) :=
  ⟨⟨h.1.sent_iff, h.1.handed, h.1.at_most_one, h.1.addressed, h.1.returned, fun _ => rfl⟩,
    fun i => (h.2 i).rely ⟨Iff.rfl, fun _ => rfl, fun hne => hne, fun hs => hs, fun hs => hs⟩⟩

theorem replying_step {id : String} {reply reply' : Reply.State κ}
    {action : Threads.Action (Option κ) CallAction EnvAction} (h : Replying id reply)
    (hstep : (Reply.threads encode id).step reply action = some reply')
    (hown : ∀ e, action = .env e → e ≠ .requestStop ∧ e ≠ .beginShutdown) : Replying id reply' := by
  cases action with
  | act i a =>
    obtain ⟨⟨shared, c⟩, hact, rfl⟩ := Option.map_eq_some_iff.mp hstep
    obtain ⟨hK, hJ⟩ := h
    have hencodes : Reply.Encodes encode id i (raised reply).shared (reply.locals i) a := by
      unfold Reply.Encodes
      split
      · split
        · split
          · trivial
          · exact .inl rfl
        · trivial
      · trivial
    obtain ⟨hK', hcall, hothers⟩ := Reply.act_inv hK (hJ i) hencodes (act_raised hact)
    refine ⟨hK', fun j => ?_⟩
    by_cases hj : j = i
    · subst hj
      simpa [raised] using hcall
    · simpa [raised, Function.update_of_ne hj] using (hJ j).rely (hothers j hj)
  | env e =>
    obtain ⟨shared, henv, rfl⟩ := Option.map_eq_some_iff.mp hstep
    obtain ⟨hK, hJ⟩ := h
    obtain ⟨hK', hothers⟩ := Reply.env_inv hK (env_raised (hown e rfl) henv)
    exact ⟨hK', fun j => (hJ j).rely (hothers j)⟩

omit [DecidableEq κ] in
theorem handed_sync {closing stop : Bool} {reply : Reply.State κ} :
    (sync closing stop reply).shared.handed = reply.shared.handed := rfl

omit [DecidableEq κ] in
/-- Only `send` hands a frame over. -/
theorem handed_of_act {id : String} {i : Option κ} {shared shared' : Reply.Shared (Option κ)} {c c' : Call} {a : CallAction}
    (hact : Reply.act encode id i shared c a = some (shared', c')) : shared.handed <+: shared'.handed := by
  cases a with
  | send =>
    simp only [Reply.act] at hact
    split at hact
    · split at hact
      · cases hact
        exact List.prefix_rfl
      · cases hact
        exact List.prefix_append _ _
    · cases hact
  | compareExchange =>
    simp only [Reply.act] at hact
    split at hact
    · split_ifs at hact <;> cases hact <;> exact List.prefix_rfl
    · cases hact
  | respond | detached | answer | load | look | sendReturns | wake | requestFailure | drop =>
    simp only [Reply.act] at hact
    split at hact <;> cases hact <;> exact List.prefix_rfl

omit [DecidableEq κ] in
theorem handed_of_env {shared shared' : Reply.Shared (Option κ)} {e : EnvAction} (henv : Reply.env shared e = some shared') :
    shared'.handed = shared.handed := by
  cases e with
  | handlerReturns | test =>
    simp only [Reply.env] at henv
    split at henv <;> cases henv <;> rfl
  | beginShutdown =>
    simp only [Reply.env] at henv
    split_ifs at henv
    cases henv
    rfl
  | deferResponse | requestStop =>
    cases henv
    rfl

/-- Frames that were handed to `send` stay handed. -/
theorem handed_mono {id : String} {reply reply' : Reply.State κ} {action : Threads.Action (Option κ) CallAction EnvAction}
    (hstep : (Reply.threads encode id).step reply action = some reply') :
    reply.shared.handed <+: reply'.shared.handed := by
  cases action with
  | act i a =>
    obtain ⟨⟨shared, c⟩, hact, rfl⟩ := Option.map_eq_some_iff.mp hstep
    exact handed_of_act hact
  | env e =>
    obtain ⟨shared, henv, rfl⟩ := Option.map_eq_some_iff.mp hstep
    rw [handed_of_env henv]

/-- The only frame that was handed to `send` stays the only one. -/
theorem handed_step {id : String} {reply reply' : Reply.State κ} {frame : ControlFrame}
    {action : Threads.Action (Option κ) CallAction EnvAction} (h : Replying id reply')
    (hhanded : reply.shared.handed = [frame])
    (hstep : (Reply.threads encode id).step reply action = some reply') : reply'.shared.handed = [frame] := by
  obtain ⟨rest, hrest⟩ := handed_mono hstep
  rw [hhanded] at hrest
  have hlength : reply'.shared.handed.length ≤ 1 := h.1.at_most_one
  rw [← hrest] at hlength ⊢
  cases rest with
  | nil => rfl
  | cons _ _ => simp at hlength

/-! ## The session as an endpoint -/

/-- What a frame is. -/
def frameTag (frame : ControlFrame) : Tag String :=
  match frame.kind with
  | .request => .request frame.id
  | .response => .response frame.correlationId
  | .event => .event

/-- The response that is on the wire. -/
def Inbound.answer (encode : ControlFrame → Except Error β) (entry : Inbound κ) : Option β :=
  if entry.pushed then entry.reply.shared.handed.head?.bind fun frame => (encode frame).toOption else none

/-- How far the reader has come. -/
def ReaderPc.state : ReaderPc β → ReaderState β
  | .receiving => .receiving
  | .holding data => .holding data
  | .ended => .ended

/-- What a call makes of a response frame. -/
def resultOf (frame : ControlFrame) : Except Error Value := (Pending.Channel.sent (.response frame)).result

/-- What matters of a session for its peer. -/
def Peer.exchange (encode : ControlFrame → Except Error β) (peer : Peer κ β) :
    Exchange β ControlFrame String (Except Error Value) where
  Asked id := peer.pushed id = true
  Given id result := ∃ frame, Gives peer.calls.shared peer.calls.locals id frame ∧ result = resultOf frame
  reader := peer.reader.state
  queue := peer.dispatch
  handled := peer.inbound.map fun entry => (entry.frame, entry.answer encode)

/-- How a session reads the messages, and what its calls ask. -/
def terms (encode : ControlFrame → Except Error β) (decode : β → Option ControlFrame) (asked : String → Asked) :
    Exchange.Terms β ControlFrame String (Except Error Value) where
  decode := decode
  tag := frameTag
  Called id data := encode ((asked id).frame id) = .ok data
  Holds data result := ∃ frame, decode data = some frame ∧ result = resultOf frame

/-- A session at the end of a transport. -/
def endpoint (κ : Type) [DecidableEq κ] (encode : ControlFrame → Except Error β) (decode : β → Option ControlFrame)
    (asked : String → Asked) : Endpoint β where
  State := Peer κ β
  Action := PeerAction κ
  initial := .initial
  step := Peer.step encode decode asked

/-- The call has returned this result of a response. -/
def Peer.Returned (peer : Peer κ β) (id : String) (result : Except Error Value) : Prop :=
  ∃ id' frame, peer.calls.locals id = .returned (.received id' (.sent (.response frame))) ∧ result = resultOf frame

/-- What holds of a session by itself. -/
structure Own (peer : Peer κ β) : Prop where
  calls : Keyed peer.calls.shared
  requests : ∀ entry ∈ peer.inbound, entry.frame.kind = .request
  replies : ∀ entry ∈ peer.inbound, Replying entry.frame.id entry.reply
  handed : ∀ entry ∈ peer.inbound, entry.pushed = true → ∃ frame, entry.reply.shared.handed = [frame]

omit [DecidableEq κ] in
/-- A step that leaves the calls and the requests as they are. -/
theorem Own.kept (hown : Own peer) (hcalls : peer'.calls = peer.calls) (hinbound : peer'.inbound = peer.inbound) :
    Own peer' where
  calls := hcalls ▸ hown.calls
  requests := hinbound ▸ hown.requests
  replies := hinbound ▸ hown.replies
  handed := hinbound ▸ hown.handed

section Labels

variable {data : β} {frame : ControlFrame} {id : String}

theorem label_eq (h : decode data = some frame) : (terms encode decode asked).label data = some (frameTag frame) := by
  rw [Exchange.Terms.label]
  exact congrArg (Option.map frameTag) h

theorem label_request (hcodec : Carries encode decode) (hencode : encode ((asked id).frame id) = .ok data) :
    (terms encode decode asked).label data = some (.request id) := by
  obtain ⟨frame, hdecode, hkind, rfl⟩ := hcodec.request id (asked id) data hencode
  rw [label_eq hdecode, frameTag, hkind]

theorem label_event (hcodec : Carries encode decode) {event : String} {payload : Value}
    (hencode : encode (.event id event (some payload)) = .ok data) :
    (terms encode decode asked).label data = some .event := by
  obtain ⟨frame, hdecode, hkind⟩ := hcodec.event id event payload data hencode
  rw [label_eq hdecode, frameTag, hkind]

theorem label_response (hcodec : Carries encode decode) (hkind : frame.kind = .response) (hencode : encode frame = .ok data) :
    (terms encode decode asked).label data = some (.response frame.correlationId) := by
  obtain ⟨frame', hdecode, hkind', hcorrelation⟩ := hcodec.response frame data hkind hencode
  rw [label_eq hdecode, frameTag, hkind', hcorrelation]

theorem tag_of_request (h : frame.kind = .request) : frameTag frame = .request frame.id := by
  rw [frameTag, h]

end Labels

theorem put_eq_some {frame : ControlFrame} (h : Peer.put encode out frame = some out') :
    ∃ data, encode frame = .ok data ∧ out'.sent = out.sent ++ [data] ∧ out'.received = out.received := by
  unfold Peer.put at h
  cases hencode : encode frame with
  | error err =>
    rw [hencode] at h
    cases h
  | ok data =>
    rw [hencode] at h
    exact ⟨data, rfl, Wire.sent_of_send h, Wire.received_of_send h⟩

/-- What a step has to keep, and the move that it is. -/
def Moves (encode : ControlFrame → Except Error β) (decode : β → Option ControlFrame) (asked : String → Asked)
    (peer peer' : Peer κ β) (out inc out' inc' : Wire β) : Prop :=
  Own peer' ∧ (peer.exchange encode).Moves (terms encode decode asked) out inc (peer'.exchange encode) out' inc'

omit [DecidableEq κ] in
/-- A step that only concerns the calls. -/
theorem moves_of_calls (hown : Own peer) {calls : Pending.State String} (hkeyed : Keyed calls.shared)
    (hgives : ∀ id frame, Gives calls.shared calls.locals id frame → Gives peer.calls.shared peer.calls.locals id frame) :
    Moves encode decode asked peer { peer with calls := calls } out inc out inc := by
  refine ⟨⟨hkeyed, hown.requests, hown.replies, hown.handed⟩, .still ?_⟩
  rintro id result ⟨frame, hframe, hresult⟩
  exact ⟨frame, hgives id frame hframe, hresult⟩

omit [DecidableEq κ] in
/-- A step of everybody else in the table, but for `resolve_pending`. -/
theorem moves_of_pendingStep (hown : Own peer) {action : Pending.EnvAction} (hother : ∀ frame, action ≠ .resolve frame)
    (h : peer.pendingStep action = some peer') : Moves encode decode asked peer peer' out inc out inc := by
  obtain ⟨shared, henv, rfl⟩ := Option.map_eq_some_iff.mp h
  obtain ⟨hkeyed, hgives⟩ := calls_of_env peer.calls.locals hown.calls henv
  refine moves_of_calls hown hkeyed fun id frame hframe => ?_
  rcases hgives id frame hframe with hframe | ⟨haction, -⟩
  · exact hframe
  · exact absurd haction (hother frame)

omit [DecidableEq κ] in
theorem moves_of_handleData (hown : Own peer) {data : β} (hreader : peer.reader = .holding data)
    (h : peer.handleData decode data = some peer') : Moves encode decode asked peer peer' out inc out inc := by
  have hholding : (peer.exchange encode).reader = .holding data := by
    rw [Peer.exchange, hreader]
    rfl
  unfold Peer.handleData at h
  cases hdecode : decode data with
  | none =>
    rw [hdecode] at h
    obtain rfl := Option.some.inj h
    exact ⟨hown.kept rfl rfl, .drop hholding hdecode⟩
  | some frame =>
    rw [hdecode] at h
    dsimp only at h
    split_ifs at h with hkind
    · obtain ⟨shared, henv, rfl⟩ := Option.map_eq_some_iff.mp h
      obtain ⟨hkeyed, hgives⟩ := calls_of_env peer.calls.locals hown.calls henv
      have hlabel : (terms encode decode asked).label data = some (.response frame.correlationId) := by
        rw [label_eq hdecode, frameTag, hkind]
      refine ⟨⟨hkeyed, hown.requests, hown.replies, hown.handed⟩, .resolve hholding hlabel ?_⟩
      rintro id result ⟨answer, hanswer, hresult⟩
      rcases hgives id answer hanswer with hanswer | ⟨haction, hid⟩
      · exact .inl ⟨answer, hanswer, hresult⟩
      · injection haction with heq
        exact .inr ⟨heq ▸ hid, frame, hdecode, heq ▸ hresult⟩
    · cases hsend : peer.dispatch.send frame with
      | none =>
        rw [hsend] at h
        obtain rfl := Option.some.inj h
        exact ⟨hown.kept rfl rfl, .ends⟩
      | some dispatch =>
        rw [hsend] at h
        obtain rfl := Option.some.inj h
        have htag : (frameTag frame).responseId = none := by
          unfold frameTag
          cases hkind' : frame.kind with
          | response => exact absurd hkind' hkind
          | request => rfl
          | event => rfl
        exact ⟨hown.kept rfl rfl,
          .dispatch hholding hdecode htag (Wire.sent_of_send hsend) (Wire.received_of_send hsend)⟩

omit [DecidableEq κ] in
/-- The request of a call is put on the wire. -/
theorem moves_of_push (hcodec : Carries encode decode) (hown : Own peer) {id : String} (hunpushed : peer.pushed id = false)
    (hput : Peer.put encode out ((asked id).frame id) = some out') :
    Moves encode decode asked peer { peer with pushed := Function.update peer.pushed id true } out inc out' inc := by
  obtain ⟨data, hencode, hsent, hreceived⟩ := put_eq_some hput
  refine ⟨hown.kept rfl rfl, ?_⟩
  refine .push (by simp [Peer.exchange, hunpushed]) hencode (label_request hcodec hencode) ?_ hsent hreceived
  intro j
  by_cases hj : j = id
  · simp [hj]
  · simp [Peer.exchange, hj]

omit [DecidableEq κ] in
theorem answer_of_pushed {entry : Inbound κ} {frame : ControlFrame} {data : β} (hpushed : entry.pushed = true)
    (hhanded : entry.reply.shared.handed = [frame]) (hencode : encode frame = .ok data) :
    entry.answer encode = some data := by
  rw [Inbound.answer, if_pos hpushed, hhanded, List.head?_cons, Option.bind_some, hencode]
  rfl

omit [DecidableEq κ] in
theorem answer_of_unpushed {entry : Inbound κ} (h : entry.pushed = false) : entry.answer encode = none := by
  rw [Inbound.answer, h]
  rfl

omit [DecidableEq κ] in
theorem moves_of_pushReply (hcodec : Carries encode decode) (hown : Own peer) {index : Nat} {i : Option κ}
    (h : peer.pushReply encode out index i = some (peer', out')) :
    Moves encode decode asked peer peer' out inc out' inc := by
  unfold Peer.pushReply at h
  cases hfound : peer.inbound[index]? with
  | none =>
    rw [hfound] at h
    cases h
  | some entry =>
    rw [hfound] at h
    dsimp only at h
    split at h
    next frame hhanded =>
      split_ifs at h with hguard
      obtain ⟨out₁, hput, heq⟩ := Option.map_eq_some_iff.mp h
      cases heq
      obtain ⟨data, hencode, hsent, hreceived⟩ := put_eq_some hput
      have hmem : entry ∈ peer.inbound := List.mem_of_getElem? hfound
      obtain ⟨hkind, hcorrelation⟩ :=
        (hown.replies entry hmem).1.addressed frame (by rw [show (raised entry.reply).shared.handed = _ from hhanded]; simp)
      have hanswered : (peer.exchange encode).handled[index]? = some (entry.frame, none) := by
        simp only [Peer.exchange, List.getElem?_map, hfound, Option.map_some, answer_of_unpushed hguard.1]
      have hlabel : (terms encode decode asked).label data = _ := label_response hcodec hkind hencode
      rw [hcorrelation] at hlabel
      have hmove : (peer.exchange encode).Moves (terms encode decode asked) out inc _ out' inc :=
        .answer hanswered (tag_of_request (hown.requests entry hmem)) hlabel hsent hreceived
      have hanswer : ({ entry with pushed := true } : Inbound κ).answer encode = some data :=
        answer_of_pushed rfl hhanded hencode
      refine ⟨⟨hown.calls, Exchange.forall_mem_set hown.requests (hown.requests entry hmem),
        Exchange.forall_mem_set hown.replies (hown.replies entry hmem),
        Exchange.forall_mem_set hown.handed fun _ => ⟨frame, hhanded⟩⟩, ?_⟩
      simpa only [Peer.exchange, List.map_set, hanswer] using hmove
    · cases h

omit [DecidableEq κ] in
theorem own_of_mayReply {pushed handling : Bool} {action : Threads.Action (Option κ) CallAction EnvAction}
    (h : mayReply pushed handling action = true) (e : EnvAction) (haction : action = .env e) :
    e ≠ .requestStop ∧ e ≠ .beginShutdown := by
  subst haction
  constructor
  · rintro rfl
    cases h
  · rintro rfl
    cases h

theorem moves_of_replyStep (hown : Own peer) {index : Nat} {action : Threads.Action (Option κ) CallAction EnvAction}
    (h : peer.replyStep encode index action = some peer') : Moves encode decode asked peer peer' out inc out inc := by
  unfold Peer.replyStep at h
  cases hfound : peer.inbound[index]? with
  | none =>
    rw [hfound] at h
    cases h
  | some entry =>
    rw [hfound] at h
    dsimp only at h
    split_ifs at h with hmay
    obtain ⟨reply, hreply, rfl⟩ := Option.map_eq_some_iff.mp h
    have hmem : entry ∈ peer.inbound := List.mem_of_getElem? hfound
    have hreplying : Replying entry.frame.id reply :=
      replying_step (replying_sync _ _ (hown.replies entry hmem)) hreply (own_of_mayReply hmay)
    have hkept : ∀ frame, entry.reply.shared.handed = [frame] → reply.shared.handed = [frame] := fun frame hframe =>
      handed_step hreplying (handed_sync.trans hframe) hreply
    have hanswer : ({ entry with reply := reply } : Inbound κ).answer encode = entry.answer encode := by
      cases hpushed : entry.pushed with
      | false => rw [answer_of_unpushed rfl, answer_of_unpushed hpushed]
      | true =>
        obtain ⟨frame, hframe⟩ := hown.handed entry hmem hpushed
        simp only [Inbound.answer, hpushed, hframe, hkept frame hframe]
    refine ⟨⟨hown.calls, Exchange.forall_mem_set hown.requests (hown.requests entry hmem),
      Exchange.forall_mem_set hown.replies hreplying, Exchange.forall_mem_set hown.handed fun hpushed => ?_⟩, ?_⟩
    · obtain ⟨frame, hframe⟩ := hown.handed entry hmem hpushed
      exact ⟨frame, hkept frame hframe⟩
    · have hmove : (peer.exchange encode).Moves (terms encode decode asked) out inc _ out inc := .still fun _ _ hr => hr
      have hhandled : (peer.inbound.set index { entry with reply := reply }).map (fun e => (e.frame, e.answer encode)) =
          peer.inbound.map fun e => (e.frame, e.answer encode) := Exchange.map_set_of_eq hfound (Prod.ext rfl hanswer)
      simpa only [Peer.exchange, hhandled] using hmove

omit [DecidableEq κ] in
theorem replying_take {frame : ControlFrame} : Replying frame.id (Inbound.take (κ := κ) frame).reply :=
  Reply.inv_start ⟨rfl, rfl, rfl, rfl, fun h => by cases h⟩

omit [DecidableEq κ] in
theorem moves_of_take (hown : Own peer) {frame : ControlFrame} {dispatch : Wire ControlFrame}
    (hrecv : peer.dispatch.recv = some (frame, dispatch)) :
    Moves encode decode asked peer (peer.take frame dispatch) out inc out inc := by
  have hmove : (peer.exchange encode).Moves (terms encode decode asked) out inc _ out inc :=
    .take (Wire.received_of_recv hrecv) (Wire.sent_of_recv hrecv)
  unfold Peer.take
  cases hkind : frame.kind with
  | request =>
    refine ⟨⟨hown.calls, ?_, ?_, ?_⟩, ?_⟩
    · exact List.forall_mem_append.mpr ⟨hown.requests, List.forall_mem_singleton.mpr hkind⟩
    · exact List.forall_mem_append.mpr ⟨hown.replies, List.forall_mem_singleton.mpr replying_take⟩
    · exact List.forall_mem_append.mpr ⟨hown.handed, List.forall_mem_singleton.mpr (by simp [Inbound.take])⟩
    · simpa [Peer.exchange, Exchange.entry, terms, tag_of_request hkind, Tag.requestId, Inbound.take, Inbound.answer]
        using hmove
  | event =>
    refine ⟨hown.kept rfl rfl, ?_⟩
    simpa [Peer.exchange, Exchange.entry, terms, frameTag, hkind, Tag.requestId] using hmove
  | response =>
    refine ⟨hown.kept rfl rfl, ?_⟩
    simpa [Peer.exchange, Exchange.entry, terms, frameTag, hkind, Tag.requestId] using hmove

omit [DecidableEq κ] in
theorem moves_of_endDispatcher (hown : Own peer) :
    Moves encode decode asked peer peer.endDispatcher out inc out inc :=
  ⟨hown.kept rfl rfl, .discard⟩

omit [DecidableEq κ] in
/-- A step of the program counter of the dispatcher. -/
theorem moves_of_dispatcher (hown : Own peer) (pc : DispatcherPc) :
    Moves encode decode asked peer { peer with dispatcher := pc } out inc out inc :=
  ⟨hown.kept rfl rfl, .still fun _ _ h => h⟩

theorem moves_of_step (hcodec : Carries encode decode) (hown : Own peer) {action : PeerAction κ}
    (h : peer.step encode decode asked out inc action = some (peer', out', inc')) :
    Moves encode decode asked peer peer' out inc out' inc' := by
  cases action with
  | call id action =>
    obtain ⟨action', hcallStep, hstep⟩ := Option.bind_eq_some_iff.mp h
    obtain ⟨calls, hcalls, heq⟩ := Option.map_eq_some_iff.mp hstep
    cases heq
    obtain ⟨⟨shared, c⟩, hact, rfl⟩ := Option.map_eq_some_iff.mp hcalls
    obtain ⟨hkeyed, hgives⟩ := calls_of_act hcallStep hown.calls hact
    exact moves_of_calls hown hkeyed hgives
  | push id =>
    simp only [Peer.step, Option.ite_none_right_eq_some] at h
    obtain ⟨⟨hunpushed, -⟩, h⟩ := h
    obtain ⟨out₁, hput, heq⟩ := Option.map_eq_some_iff.mp h
    cases heq
    exact moves_of_push hcodec hown hunpushed hput
  | notify id event payload =>
    obtain ⟨out₁, hput, heq⟩ := Option.map_eq_some_iff.mp h
    cases heq
    obtain ⟨data, hencode, hsent, hreceived⟩ := put_eq_some hput
    exact ⟨hown, .notify (label_event hcodec hencode) hsent hreceived⟩
  | pushReply index i =>
    obtain ⟨r, hr, heq⟩ := Option.map_eq_some_iff.mp h
    cases heq
    exact moves_of_pushReply hcodec hown hr
  | recv =>
    simp only [Peer.step] at h
    split at h
    next hreader htaken =>
      obtain ⟨⟨data, inc₁⟩, hrecv, heq⟩ := Option.map_eq_some_iff.mp h
      cases heq
      exact ⟨hown.kept rfl rfl,
        .recv (by rw [Peer.exchange, hreader]; rfl) (Wire.received_of_recv hrecv) (Wire.sent_of_recv hrecv)⟩
    · cases h
  | recvEnds =>
    simp only [Peer.step] at h
    split at h
    · cases h
      exact ⟨hown.kept rfl rfl, .ends⟩
    · cases h
  | handle =>
    simp only [Peer.step] at h
    split at h
    next data hreader =>
      obtain ⟨peer₁, hpeer, heq⟩ := Option.map_eq_some_iff.mp h
      cases heq
      exact moves_of_handleData hown hreader hpeer
    · cases h
  | deliver =>
    obtain ⟨peer₁, hpeer, heq⟩ := Option.map_eq_some_iff.mp h
    cases heq
    exact moves_of_pendingStep hown (by simp) hpeer
  | pop =>
    simp only [Peer.step] at h
    split at h
    · obtain ⟨⟨frame, dispatch⟩, hrecv, heq⟩ := Option.map_eq_some_iff.mp h
      cases heq
      split_ifs
      · exact moves_of_endDispatcher hown
      · exact moves_of_take hown hrecv
    · cases h
  | handled =>
    simp only [Peer.step] at h
    split at h
    · cases h
    · cases h
    · cases h
      exact moves_of_dispatcher hown .receiving
    · split at h
      · split_ifs at h
        cases h
        exact moves_of_dispatcher hown .receiving
      · cases h
  | dispatcherEnds =>
    simp only [Peer.step, Option.ite_none_right_eq_some] at h
    obtain ⟨-, h⟩ := h
    cases h
    exact moves_of_endDispatcher hown
  | reply index action =>
    obtain ⟨peer₁, hpeer, heq⟩ := Option.map_eq_some_iff.mp h
    cases heq
    exact moves_of_replyStep hown hpeer
  | requestStop =>
    cases h
    exact ⟨hown.kept rfl rfl, .still fun _ _ h => h⟩
  | beginShutdown =>
    simp only [Peer.step, Option.ite_none_right_eq_some] at h
    obtain ⟨-, h⟩ := h
    obtain ⟨peer₁, hpeer, heq⟩ := Option.map_eq_some_iff.mp h
    cases heq
    exact moves_of_pendingStep hown (by simp) hpeer
  | failPending =>
    obtain ⟨peer₁, hpeer, heq⟩ := Option.map_eq_some_iff.mp h
    cases heq
    exact moves_of_pendingStep hown (by simp) hpeer

omit [DecidableEq κ] in
theorem own_initial : Own (Peer.initial : Peer κ β) :=
  ⟨by simp [Keyed, Peer.initial], by simp [Peer.initial], by simp [Peer.initial], by simp [Peer.initial]⟩

omit [DecidableEq κ] in
theorem fresh_initial : ((Peer.initial : Peer κ β).exchange encode).Fresh := by
  refine ⟨?_, rfl, rfl, rfl⟩
  rintro id result ⟨frame, h | h | ⟨id', h⟩, -⟩
  · cases h
  · cases h
  · cases h

theorem refines (hcodec : Carries encode decode) :
    Exchange.Refines (endpoint κ encode decode asked) (terms encode decode asked) (Peer.exchange encode) Peer.Returned
      Own where
  own := own_initial
  fresh := fresh_initial
  step hown hstep := moves_of_step hcodec hown hstep
  returned _ _ _ _ := fun ⟨id', frame, hframe, hresult⟩ => ⟨frame, .inr (.inr ⟨id', hframe⟩), hresult⟩

/-- A Rust session as a party. -/
def party (κ : Type) [DecidableEq κ] (asked : String → Asked) (hcodec : Carries encode decode) : Party β String :=
  Exchange.party (refines hcodec : Exchange.Refines (endpoint κ encode decode asked) (terms encode decode asked)
    (Peer.exchange encode) Peer.Returned Own)

end Rtvbp.Rust.Conversation
