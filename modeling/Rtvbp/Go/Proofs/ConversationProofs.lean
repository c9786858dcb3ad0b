import Rtvbp.Envelope.Proofs.PeerProofs
import Rtvbp.Go.Conversation
import Rtvbp.Go.Proofs.PendingProofs
import Rtvbp.Go.Proofs.ReplyProofs
import Rtvbp.Lib.Endpoint

/-!
# Proofs: two sessions

A step of a session is one of the moves below. The invariant says of each session where the messages on its wire come
from, how far its reader and its dispatcher have come with those on the other wire, and which of the inbound requests
has given the response of a call.
-/

namespace Rtvbp.Go.Conversation

open Rtvbp.Lib Rtvbp.Envelope.Go
open Rtvbp.Pending (Completion)
open Rtvbp.Go.Reply (Error Response Call CallAction EnvAction)

variable {κ β : Type} [DecidableEq κ] {encode : ControlFrame → Except Error β} {decode : β → Option ControlFrame}
  {asked : String → Asked} {peer peer' other : Peer κ β} {out out' inc inc' : Wire β}

/-! ## The generated codecs -/

section Codec

open Rtvbp.Envelope

variable {tables : Tables} {fields out : WireFields} {name : String} {raw : RawMessage} {omitWhenNone : Bool}

/-- The raw message is `nil` or a value that is written to this field. -/
def Written (name : String) (raw : RawMessage) (fields : WireFields) : Prop :=
  raw = .nil ∨ ∃ v, raw = .json v ∧ (name, v) ∈ fields

theorem written_of_appendRaw (h : tables.appendRaw fields name raw omitWhenNone = .ok out) :
    Written name raw out ∧ fields ⊆ out := by
  cases raw with
  | nil =>
    unfold Tables.appendRaw at h
    cases omitWhenNone with
    | true =>
      obtain rfl := Except.ok.inj h
      exact ⟨.inl rfl, fun _ hf => hf⟩
    | false =>
      obtain rfl := Except.ok.inj h
      exact ⟨.inl rfl, List.subset_append_left _ _⟩
  | invalid => cases h
  | json v =>
    obtain rfl := Except.ok.inj h
    exact ⟨.inr ⟨v, rfl, by simp⟩, List.subset_append_left _ _⟩

theorem Written.mono (h : Written name raw fields) (hsub : fields ⊆ out) : Written name raw out := by
  obtain h | ⟨v, hv, hmem⟩ := h
  · exact .inl h
  · exact .inr ⟨v, hv, hsub hmem⟩

/-- A raw message that is written to a well-formed object spells a value. -/
theorem Written.exists_ofValue (h : Written name raw fields) (hw : (Json.object fields).wellFormed = true) :
    ∃ value, RawMessage.ofValue value = raw := by
  obtain rfl | ⟨v, rfl, hmem⟩ := h
  · exact ⟨none, rfl⟩
  · exact ⟨some ⟨v, (Json.wellFormed_object.1 hw).2 _ hmem⟩, rfl⟩

/-- An encoded error spells an error. -/
theorem exists_ofError {err : Go.WireError} (h : tables.encodeError err = .ok raw) :
    ∃ fields, raw = .json (.object fields) ∧
      ((Json.object fields).wellFormed = true → ∃ error, WireError.ofError error = err) := by
  unfold Tables.encodeError at h
  split_ifs at h
  simp only [bind, Except.bind] at h
  split at h
  · cases h
  · next fields hdata =>
    obtain rfl := Except.ok.inj h
    refine ⟨fields, rfl, fun hw => ?_⟩
    obtain ⟨data, hvalue⟩ := (written_of_appendRaw hdata).1.exists_ofValue hw
    exact ⟨{ code := err.Code, message := err.Message, data := data }, by simp [WireError.ofError, hvalue]⟩

/-- What `Encode` writes spells the payload and the error of the frame. -/
theorem exists_of_encode {frame : Go.ControlFrame} {json : Json} (h : tables.encode frame = .ok json)
    (hw : json.wellFormed = true) :
    (∃ payload, RawMessage.ofValue payload = frame.Payload) ∧
      ∀ shape, tables.frameForKind frame.Kind = some shape → shape.error ≠ "" → ∀ err, frame.Err = some err →
        ∃ error, WireError.ofError error = err := by
  unfold Tables.encode at h
  split at h
  · cases h
  next shape hshape =>
  simp only [bind, Except.bind] at h
  split at h
  · cases h
  next identity hidentity =>
  split at h
  · cases h
  next body hbody =>
  split at h
  · cases h
  next fields herror =>
  obtain rfl := Except.ok.inj h
  have hpayload := (written_of_appendRaw hbody).1
  unfold Tables.appendError at herror
  split_ifs at herror with hnone
  · obtain rfl := Except.ok.inj herror
    refine ⟨hpayload.exists_ofValue hw, fun shape' hshape' hne => ?_⟩
    rw [hshape] at hshape'
    exact absurd (Option.some.inj hshape' ▸ hnone) hne
  · split at herror
    · next hErr =>
      refine ⟨(hpayload.mono (written_of_appendRaw herror).2).exists_ofValue hw, fun _ _ _ err herr => ?_⟩
      rw [hErr] at herr
      cases herr
    · next err hErr =>
      simp only [bind, Except.bind] at herror
      split at herror
      · cases herror
      next encoded hencoded =>
      have happended := written_of_appendRaw herror
      refine ⟨(hpayload.mono happended.2).exists_ofValue hw, fun _ _ _ err' herr => ?_⟩
      obtain rfl := Option.some.inj (hErr.symm.trans herr)
      obtain ⟨errorFields, rfl, hexists⟩ := exists_ofError hencoded
      obtain hnil | ⟨v, hv, hmem⟩ := happended.1
      · cases hnil
      · obtain rfl := RawMessage.json.inj hv
        exact hexists ((Json.wellFormed_object.1 hw).2 _ hmem)

variable {spec : EnvelopeSpec}

/-- What `encodeText` accepts, `Encode` has written. -/
theorem encode_of_encodeText {frame : Go.ControlFrame} {data : Value} (h : encodeText tables frame = .ok data) :
    tables.encode frame = .ok data.val := by
  unfold encodeText Reply.encodeWith at h
  cases hencode : tables.encode frame with
  | error err => cases err <;> simp [hencode] at h
  | ok json =>
    simp only [hencode] at h
    split_ifs at h
    obtain rfl := Except.ok.inj h
    rfl

/-- A text that the codec of an unambiguous declaration has written is decoded to a frame that carries the same
identities. -/
theorem decodeText_of_encode (hs : spec.structureIssues = []) (hu : spec.Unambiguous)
    (hconstants : ∀ c ∈ spec.constants, c.value ≠ "") {frame : Envelope.ControlFrame} {data : Value}
    (h : (renderCodec spec).encode (.ofFrame frame) = .ok data.val) :
    ∃ decoded : Envelope.ControlFrame, decodeText (renderCodec spec) data = some (.ofFrame decoded) ∧
      decoded.kind = frame.kind ∧ decoded.identity = frame.identity ∧ decoded.subject = frame.subject := by
  have hwf := EnvelopeSpec.wellFormed_of_structureIssues hs
  obtain ⟨shape, hshape, hkind, hframe⟩ := hwf.exists_frame frame.kind
  obtain ⟨hen, hdata⟩ := (Go.encode_eq_ok_iff hwf hshape hkind hframe).mp h
  obtain ⟨decoded, hdecoded, hsame⟩ := EnvelopeSpec.exists_decodeUnvalidated_wireMap hs hu hshape hkind hframe hen
  refine ⟨decoded, ?_, hsame⟩
  have hgo := (Go.decode_agree hwf hconstants _).eq_ok hdecoded
  obtain ⟨json, hjson⟩ := data
  obtain rfl : json = _ := hdata
  exact congrArg Except.toOption hgo

/-- The generated codec of every unambiguous declaration carries what the sessions rely on. -/
theorem carries_renderCodec (hs : spec.structureIssues = []) (hu : spec.Unambiguous)
    (hconstants : ∀ c ∈ spec.constants, c.value ≠ "") :
    Carries (encodeText (renderCodec spec)) (decodeText (renderCodec spec)) where
  request id asked data h := by
    have hencode := encode_of_encodeText h
    obtain ⟨⟨payload, hpayload⟩, -⟩ := exists_of_encode hencode data.property
    have hframe : asked.frame id = .ofFrame (.request id asked.method payload) := by
      rw [ControlFrame.ofFrame, hpayload]
      rfl
    rw [hframe] at hencode
    obtain ⟨decoded, hdecoded, hkind, hid, -⟩ := decodeText_of_encode hs hu hconstants hencode
    cases decoded with
    | request id' method' payload' => exact ⟨_, hdecoded, rfl, hid⟩
    | _ => cases hkind
  event id name payload data h := by
    have hencode := encode_of_encodeText h
    obtain ⟨⟨value, hpayload⟩, -⟩ := exists_of_encode hencode data.property
    have hframe : eventFrame id name payload = .ofFrame (.event id name value) := by
      rw [ControlFrame.ofFrame, hpayload]
      rfl
    rw [hframe] at hencode
    obtain ⟨decoded, hdecoded, hkind, -, -⟩ := decodeText_of_encode hs hu hconstants hencode
    cases decoded with
    | event id' method' payload' => exact ⟨_, hdecoded, rfl⟩
    | _ => cases hkind
  response sent data hsent h := by
    have hencode := encode_of_encodeText h
    obtain ⟨⟨payload, hpayload⟩, herr⟩ := exists_of_encode hencode data.property
    have hwf := EnvelopeSpec.wellFormed_of_structureIssues hs
    obtain ⟨shape, hshape, hkind, hframe⟩ := hwf.exists_frame .response
    obtain ⟨field, hfield⟩ := (hwf.frame_valid shape hshape).error_some hkind
    have hspec := Go.frameForKind_renderCodec hframe
    obtain ⟨kind, id, correlID, method, raw, err⟩ := sent
    obtain rfl : kind = .response := hsent
    have hne : (renderFrame shape).error ≠ "" := by
      rw [renderFrame, hfield]
      exact (hwf.frame_valid shape hshape).names_nonempty field (by simp [FrameSpec.mem_wireFields, hfield])
    have herror : ∃ error, Option.map WireError.ofError error = err := by
      cases err with
      | none => exact ⟨none, rfl⟩
      | some err =>
        obtain ⟨error, rfl⟩ := herr _ hspec hne err rfl
        exact ⟨some error, rfl⟩
    obtain ⟨error, rfl⟩ := herror
    obtain rfl : RawMessage.ofValue payload = raw := hpayload
    -- a response is written without its id and method
    have hencode : (renderCodec spec).encode (.ofFrame (.response correlID payload error)) = .ok data.val := hencode
    obtain ⟨decoded, hdecoded, hkind, -, hsubject⟩ := decodeText_of_encode hs hu hconstants hencode
    cases decoded with
    | response correlID' payload' error' => exact ⟨_, hdecoded, rfl, hsubject⟩
    | _ => cases hkind

end Codec

/-! ## What a step can do -/

/-- The moves of a session, with what each of them needs. -/
inductive Moves (encode : ControlFrame → Except Error β) (decode : β → Option ControlFrame) (asked : String → Asked)
    (peer : Peer κ β) (out inc : Wire β) : Peer κ β → Wire β → Wire β → Prop where
  | calls {action : Pending.Action String Response Error} {calls : Pending.State String Response Error}
      (step : Pending.step Reply.errSessionClosed peer.calls action = some calls)
      (other : ∀ id response, action ≠ .response id response) :
      Moves encode decode asked peer out inc { peer with calls := calls } out inc
  | push {id : String} {data : β} {out' : Wire β} (unpushed : peer.pushed id = false)
      (encoded : encode ((asked id).frame id) = .ok data) (sent : out'.sent = out.sent ++ [data])
      (received : out'.received = out.received) :
      Moves encode decode asked peer out inc { peer with pushed := Function.update peer.pushed id true } out' inc
  | notify {id name : String} {payload : RawMessage} {data : β} {out' : Wire β}
      (encoded : encode (eventFrame id name payload) = .ok data) (sent : out'.sent = out.sent ++ [data])
      (received : out'.received = out.received) : Moves encode decode asked peer out inc peer out' inc
  | pushReply {index : Nat} {entry : Inbound κ} {frame : ControlFrame} {data : β} {out' : Wire β}
      (found : peer.inbound[index]? = some entry) (handed : entry.reply.shared.handed = [frame])
      (unpushed : entry.pushed = false) (encoded : encode frame = .ok data) (sent : out'.sent = out.sent ++ [data])
      (received : out'.received = out.received) :
      Moves encode decode asked peer out inc
        { peer with inbound := peer.inbound.set index { entry with pushed := true } } out' inc
  | recv {data : β} {inc' : Wire β} (reader : peer.reader = .receiving)
      (received : inc'.received = inc.received ++ [data]) (sent : inc'.sent = inc.sent) :
      Moves encode decode asked peer out inc { peer with reader := .holding data } out inc'
  | readerEnds (reader : peer.reader = .receiving) :
      Moves encode decode asked peer out inc { peer with reader := .ended } out inc
  | drop {data : β} (reader : peer.reader = .holding data) (decoded : decode data = none) :
      Moves encode decode asked peer out inc { peer with reader := .receiving } out inc
  | resolve {data : β} {frame : ControlFrame} (reader : peer.reader = .holding data)
      (decoded : decode data = some frame) (kind : frame.Kind = .response) :
      Moves encode decode asked peer out inc
        { peer with
          calls := peer.calls.setCall frame.CorrelID
            ((peer.calls.calls frame.CorrelID).complete (.response (responseOf frame)))
          reader := .receiving } out inc
  | dispatch {data : β} {frame : ControlFrame} {dispatch : Wire ControlFrame} (reader : peer.reader = .holding data)
      (decoded : decode data = some frame) (kind : frame.Kind ≠ .response)
      (sent : dispatch.sent = peer.dispatch.sent ++ [frame]) (received : dispatch.received = peer.dispatch.received) :
      Moves encode decode asked peer out inc { peer with dispatch := dispatch, reader := .receiving } out inc
  | refused {data : β} (reader : peer.reader = .holding data) :
      Moves encode decode asked peer out inc { peer with reader := .ended } out inc
  | take {frame : ControlFrame} {dispatch : Wire ControlFrame}
      (received : dispatch.received = peer.dispatch.received ++ [frame]) (sent : dispatch.sent = peer.dispatch.sent) :
      Moves encode decode asked peer out inc (peer.take frame dispatch) out inc
  | dispatcher (pc : DispatcherPc) : Moves encode decode asked peer out inc { peer with dispatcher := pc } out inc
  | reply {index : Nat} {entry : Inbound κ} {action : Threads.Action (Option κ) CallAction EnvAction}
      {reply : Reply.State κ} (found : peer.inbound[index]? = some entry)
      (step : (Reply.threads encode entry.frame.ID).step (sync peer.calls.closing entry.reply) action = some reply) :
      Moves encode decode asked peer out inc
        { peer with
          calls := { peer.calls with closing := peer.calls.closing || reply.shared.closing }
          inbound := peer.inbound.set index { entry with reply := reply } } out inc
  | closeDispatch : Moves encode decode asked peer out inc { peer with dispatch := peer.dispatch.discard } out inc

theorem put_eq_some {frame : ControlFrame} (h : Peer.put encode out frame = some out') :
    ∃ data, encode frame = .ok data ∧ out'.sent = out.sent ++ [data] ∧ out'.received = out.received := by
  unfold Peer.put at h
  cases hencode : encode frame with
  | error err =>
    rw [hencode] at h
    cases h
  | ok data =>
    rw [hencode] at h
    exact ⟨data, rfl, Wire.sent_of_send h, Wire.received_of_send h⟩

/-- A step that only concerns the calls. -/
theorem moves_of_calls (action : Pending.Action String Response Error) (hother : ∀ id response, action ≠ .response id response)
    (h : ((Pending.step Reply.errSessionClosed peer.calls action).map fun calls =>
      (({ peer with calls := calls } : Peer κ β), out, inc)) = some (peer', out', inc')) :
    Moves encode decode asked peer out inc peer' out' inc' := by
  obtain ⟨calls, hcalls, heq⟩ := Option.map_eq_some_iff.mp h
  cases heq
  exact .calls hcalls hother

theorem moves_of_handleData {data : β} (hreader : peer.reader = .holding data)
    (h : peer.handleData decode data = some peer') : Moves encode decode asked peer out inc peer' out inc := by
  unfold Peer.handleData at h
  cases hdecode : decode data with
  | none =>
    rw [hdecode] at h
    obtain rfl := Option.some.inj h
    exact .drop hreader hdecode
  | some frame =>
    rw [hdecode] at h
    dsimp only at h
    split_ifs at h with hkind
    · obtain ⟨calls, hcalls, rfl⟩ := Option.map_eq_some_iff.mp h
      obtain rfl := Option.some.inj hcalls
      exact .resolve hreader hdecode hkind
    · cases hsend : peer.dispatch.send frame with
      | none =>
        rw [hsend] at h
        obtain rfl := Option.some.inj h
        exact .refused hreader
      | some dispatch =>
        rw [hsend] at h
        obtain rfl := Option.some.inj h
        exact .dispatch hreader hdecode hkind (Wire.sent_of_send hsend) (Wire.received_of_send hsend)

theorem moves_of_pushReply {index : Nat} {i : Option κ} (h : peer.pushReply encode out index i = some (peer', out')) :
    Moves encode decode asked peer out inc peer' out' inc := by
  unfold Peer.pushReply at h
  cases hfound : peer.inbound[index]? with
  | none =>
    rw [hfound] at h
    cases h
  | some entry =>
    rw [hfound] at h
    dsimp only at h
    split at h
    next frame hhanded =>
      split_ifs at h with hguard
      obtain ⟨out₁, hput, heq⟩ := Option.map_eq_some_iff.mp h
      cases heq
      obtain ⟨data, hencode, hsent, hreceived⟩ := put_eq_some hput
      exact .pushReply hfound hhanded hguard.1 hencode hsent hreceived
    · cases h

theorem moves_of_replyStep {index : Nat} {action : Threads.Action (Option κ) CallAction EnvAction}
    (h : peer.replyStep encode index action = some peer') : Moves encode decode asked peer out inc peer' out inc := by
  unfold Peer.replyStep at h
  cases hfound : peer.inbound[index]? with
  | none =>
    rw [hfound] at h
    cases h
  | some entry =>
    rw [hfound] at h
    dsimp only at h
    split_ifs at h
    obtain ⟨reply, hreply, rfl⟩ := Option.map_eq_some_iff.mp h
    exact .reply hfound hreply

theorem moves_of_step {action : PeerAction κ} (h : peer.step encode decode asked out inc action = some (peer', out', inc')) :
    Moves encode decode asked peer out inc peer' out' inc' := by
  cases action with
  | call id action =>
    obtain ⟨action', -, hstep⟩ := Option.bind_eq_some_iff.mp h
    exact moves_of_calls (.call id action') (by simp) hstep
  | push id =>
    simp only [Peer.step, Option.ite_none_right_eq_some] at h
    obtain ⟨⟨hunpushed, -⟩, h⟩ := h
    obtain ⟨out₁, hput, heq⟩ := Option.map_eq_some_iff.mp h
    cases heq
    obtain ⟨data, hencode, hsent, hreceived⟩ := put_eq_some hput
    exact .push hunpushed hencode hsent hreceived
  | notify id name payload =>
    obtain ⟨out₁, hput, heq⟩ := Option.map_eq_some_iff.mp h
    cases heq
    obtain ⟨data, hencode, hsent, hreceived⟩ := put_eq_some hput
    exact .notify hencode hsent hreceived
  | pushReply index i =>
    obtain ⟨r, hr, heq⟩ := Option.map_eq_some_iff.mp h
    cases heq
    exact moves_of_pushReply hr
  | recv =>
    simp only [Peer.step] at h
    split at h
    next hreader =>
      obtain ⟨⟨data, inc₁⟩, hrecv, heq⟩ := Option.map_eq_some_iff.mp h
      cases heq
      exact .recv hreader (Wire.received_of_recv hrecv) (Wire.sent_of_recv hrecv)
    · cases h
  | recvEnds =>
    simp only [Peer.step] at h
    split at h
    next hreader =>
      split_ifs at h
      cases h
      exact .readerEnds hreader
    · cases h
  | handle =>
    simp only [Peer.step] at h
    split at h
    next data hreader =>
      obtain ⟨peer₁, hpeer, heq⟩ := Option.map_eq_some_iff.mp h
      cases heq
      exact moves_of_handleData hreader hpeer
    · cases h
  | pop =>
    simp only [Peer.step] at h
    split at h
    · split_ifs at h
      obtain ⟨⟨frame, dispatch⟩, hrecv, heq⟩ := Option.map_eq_some_iff.mp h
      cases heq
      exact .take (Wire.received_of_recv hrecv) (Wire.sent_of_recv hrecv)
    · cases h
  | handled =>
    simp only [Peer.step] at h
    split at h
    · cases h
    · cases h
      exact .dispatcher .popping
    · split at h
      · split_ifs at h
        cases h
        exact .dispatcher .popping
      · cases h
  | reply index action =>
    obtain ⟨peer₁, hpeer, heq⟩ := Option.map_eq_some_iff.mp h
    cases heq
    exact moves_of_replyStep hpeer
  | connect => exact moves_of_calls .connect (by simp) h
  | requestStop => exact moves_of_calls .requestStop (by simp) h
  | beginShutdown => exact moves_of_calls .beginShutdown (by simp) h
  | failPending cause => exact moves_of_calls (.failPending cause) (by simp) h
  | closeDispatch =>
    cases h
    exact .closeDispatch

/-! ## One session -/

omit [DecidableEq κ] in
/-- A reply sees the closing flag; nothing else changes. -/
theorem holds_sync {id : String} (closing : Bool) {reply : Reply.State κ}
    (h : Threads.Holds (Reply.Inv id) Reply.CallInv reply) :
    Threads.Holds (Reply.Inv id) Reply.CallInv (sync closing reply) := by
  unfold sync
  split_ifs
  · obtain ⟨hK, hothers⟩ := Reply.env_inv (e := .requestStop) h.1 rfl
    exact ⟨hK, fun i => (h.2 i).rely (hothers i)⟩
  · exact h

omit [DecidableEq κ] in
theorem handed_sync {closing : Bool} {reply : Reply.State κ} :
    (sync closing reply).shared.handed = reply.shared.handed := by
  unfold sync
  split_ifs <;> rfl

theorem holds_replyStep {id : String} {reply reply' : Reply.State κ}
    {action : Threads.Action (Option κ) CallAction EnvAction}
    (h : Threads.Holds (Reply.Inv id) Reply.CallInv reply)
    (hstep : (Reply.threads encode id).step reply action = some reply') :
    Threads.Holds (Reply.Inv id) Reply.CallInv reply' := by
  refine h.step (G := fun _ _ _ _ => True) (H := fun _ _ => True) ?_ ?_ (by cases action <;> trivial) hstep
  · intro i s c a s' c' hK hc _ hact
    obtain ⟨hK', hown, hothers⟩ := Reply.act_inv hK hc hact
    exact ⟨hK', hown, fun j m hj hm => hm.rely (hothers j hj)⟩
  · intro s e s' hK _ henv
    obtain ⟨hK', hothers⟩ := Reply.env_inv hK henv
    exact ⟨hK', fun j m hm => hm.rely (hothers j)⟩

/-- Frames that were handed to `Send` stay handed. -/
theorem handed_prefix_replyStep {id : String} {reply reply' : Reply.State κ}
    {action : Threads.Action (Option κ) CallAction EnvAction}
    (hstep : (Reply.threads encode id).step reply action = some reply') :
    reply.shared.handed <+: reply'.shared.handed := by
  cases action with
  | act i a =>
    obtain ⟨⟨shared, c⟩, hact, rfl⟩ := Option.map_eq_some_iff.mp hstep
    replace hact : Reply.act encode id i reply.shared (reply.locals i) a = some (shared, c) := hact
    unfold Reply.act at hact
    split at hact <;> (try split at hact) <;> (try split_ifs at hact) <;> (try split at hact) <;> cases hact <;>
      first | exact List.prefix_rfl | exact List.prefix_append _ _
  | env e =>
    obtain ⟨shared, henv, rfl⟩ := Option.map_eq_some_iff.mp hstep
    replace henv : Reply.env reply.shared e = some shared := henv
    unfold Reply.env at henv
    split at henv <;> (try split at henv) <;> cases henv <;> exact List.prefix_rfl

/-- The only frame that was handed to `Send` stays the only one. -/
theorem handed_replyStep {id : String} {reply reply' : Reply.State κ} {frame : ControlFrame}
    {action : Threads.Action (Option κ) CallAction EnvAction}
    (h : Threads.Holds (Reply.Inv id) Reply.CallInv reply) (hhanded : reply.shared.handed = [frame])
    (hstep : (Reply.threads encode id).step reply action = some reply') : reply'.shared.handed = [frame] := by
  have hprefix := handed_prefix_replyStep hstep
  rw [hhanded] at hprefix
  obtain ⟨rest, hrest⟩ := hprefix
  have hlength := (holds_replyStep h hstep).1.at_most_one
  rw [← hrest] at hlength ⊢
  cases rest with
  | nil => rfl
  | cons _ _ => simp at hlength

/-- A response completes a call only where the reader resolves it. -/
theorem completions_of_step {s t : Pending.State String Response Error} {action : Pending.Action String Response Error}
    {id : String} {response : Response} (hstep : Pending.step Reply.errSessionClosed s action = some t)
    (hother : ∀ id response, action ≠ .response id response)
    (h : .response response ∈ (t.calls id).completions) : .response response ∈ (s.calls id).completions := by
  cases action with
  | call other action =>
    obtain ⟨c, hc, rfl⟩ := Option.map_eq_some_iff.mp hstep
    by_cases hid : id = other
    · subst hid
      simp only [Pending.State.setCall, Function.update_self] at h
      exact Pending.Call.response_mem_of_step hc h
    · simpa [Pending.State.setCall, Function.update_of_ne hid] using h
  | response other response => exact absurd rfl (hother other response)
  | connect | requestStop | beginShutdown =>
    obtain rfl := Option.some.inj hstep
    exact h
  | failPending cause =>
    simp only [Pending.step, Option.ite_none_right_eq_some] at hstep
    obtain rfl := Option.some.inj hstep.2
    exact Pending.Call.response_mem_of_complete (by simp) h

/-- What holds of a session by itself. -/
structure Own (peer : Peer κ β) : Prop where
  calls : Pending.Inv peer.calls
  requests : ∀ entry ∈ peer.inbound, entry.frame.Kind = .request
  replies : ∀ entry ∈ peer.inbound, Threads.Holds (Reply.Inv entry.frame.ID) Reply.CallInv entry.reply
  handed : ∀ entry ∈ peer.inbound, entry.pushed = true → ∃ frame, entry.reply.shared.handed = [frame]

/-- An entry of the inbound requests that has come later. -/
structure Inbound.Later (entry entry' : Inbound κ) : Prop where
  frame : entry'.frame = entry.frame
  pushed : entry.pushed = true → entry'.pushed = true
  handed : ∀ frame, entry.reply.shared.handed = [frame] → entry'.reply.shared.handed = [frame]

/-- A session that has come later. -/
structure Grows (peer peer' : Peer κ β) : Prop where
  pushed : ∀ id, peer.pushed id = true → peer'.pushed id = true
  inbound : ∀ entry ∈ peer.inbound, ∃ entry' ∈ peer'.inbound, entry.Later entry'

omit [DecidableEq κ] in
theorem Inbound.Later.refl (entry : Inbound κ) : entry.Later entry := ⟨rfl, id, fun _ => id⟩

omit [DecidableEq κ] in
theorem Grows.of_eq (hpushed : peer'.pushed = peer.pushed) (hinbound : peer'.inbound = peer.inbound) :
    Grows peer peer' :=
  ⟨fun id h => by rwa [hpushed], fun entry hentry => ⟨entry, by rwa [hinbound], .refl entry⟩⟩

/-- An element of a list is still there after another one was replaced. -/
theorem mem_set_or_eq {α : Type} {l : List α} {n : Nat} {x y z : α} (hfound : l[n]? = some x) (hz : z ∈ l) :
    z ∈ l.set n y ∨ z = x := by
  obtain ⟨m, hm, rfl⟩ := List.mem_iff_getElem.mp hz
  by_cases hmn : n = m
  · subst hmn
    right
    rw [List.getElem?_eq_getElem hm] at hfound
    exact Option.some.inj hfound
  · left
    rw [List.mem_iff_getElem]
    exact ⟨m, by simpa using hm, List.getElem_set_ne hmn _⟩

theorem mem_set_self {α : Type} {l : List α} {n : Nat} {x y : α} (hfound : l[n]? = some x) : y ∈ l.set n y := by
  obtain ⟨hlt, -⟩ := List.getElem?_eq_some_iff.mp hfound
  exact List.mem_set hlt y

omit [DecidableEq κ] in
theorem Grows.of_set {index : Nat} {entry entry' : Inbound κ} (hpushed : peer'.pushed = peer.pushed)
    (hfound : peer.inbound[index]? = some entry) (hinbound : peer'.inbound = peer.inbound.set index entry')
    (hlater : entry.Later entry') : Grows peer peer' := by
  refine ⟨fun id h => by rwa [hpushed], fun e he => ?_⟩
  rw [hinbound]
  rcases mem_set_or_eq hfound he with hmem | rfl
  · exact ⟨e, hmem, .refl e⟩
  · exact ⟨entry', mem_set_self hfound, hlater⟩

theorem Own.of_moves (h : Own peer) (hmoves : Moves encode decode asked peer out inc peer' out' inc') :
    Own peer' ∧ Grows peer peer' := by
  obtain ⟨hcalls, hrequests, hreplies, hhanded⟩ := h
  cases hmoves with
  | calls step other => exact ⟨⟨hcalls.step step, hrequests, hreplies, hhanded⟩, .of_eq rfl rfl⟩
  | push unpushed encoded sent received =>
    refine ⟨⟨hcalls, hrequests, hreplies, hhanded⟩, fun id hid => ?_, fun e he => ⟨e, he, .refl e⟩⟩
    dsimp only
    rw [Function.update_apply]
    split_ifs
    · rfl
    · exact hid
  | notify | recv | readerEnds | drop | dispatch | refused | dispatcher | closeDispatch =>
    exact ⟨⟨hcalls, hrequests, hreplies, hhanded⟩, .of_eq rfl rfl⟩
  | resolve reader decoded kind =>
    exact ⟨⟨hcalls.response _ _, hrequests, hreplies, hhanded⟩, .of_eq rfl rfl⟩
  | @pushReply index entry frame data out₁ found handed unpushed encoded sent received =>
    have hmem : entry ∈ peer.inbound := List.mem_of_getElem? found
    refine ⟨⟨hcalls, Exchange.forall_mem_set hrequests (hrequests entry hmem), Exchange.forall_mem_set hreplies (hreplies entry hmem),
      Exchange.forall_mem_set hhanded fun _ => ⟨frame, handed⟩⟩, .of_set rfl found rfl ⟨rfl, fun _ => rfl, fun _ => id⟩⟩
  | @take frame dispatch received sent =>
    unfold Peer.take
    split_ifs with hkind
    · refine ⟨⟨hcalls, ?_, ?_, ?_⟩, fun id hid => hid, fun e he => ⟨e, List.mem_append_left _ he, .refl e⟩⟩
      · exact List.forall_mem_append.mpr ⟨hrequests, List.forall_mem_singleton.mpr hkind⟩
      · refine List.forall_mem_append.mpr ⟨hreplies, List.forall_mem_singleton.mpr ?_⟩
        exact Reply.inv_start ⟨rfl, rfl, rfl, rfl⟩
      · exact List.forall_mem_append.mpr ⟨hhanded, List.forall_mem_singleton.mpr (by simp [Inbound.take])⟩
    · exact ⟨⟨hcalls, hrequests, hreplies, hhanded⟩, .of_eq rfl rfl⟩
  | @reply index entry action reply found step =>
    have hmem : entry ∈ peer.inbound := List.mem_of_getElem? found
    have hsync := holds_sync peer.calls.closing (hreplies entry hmem)
    have hkept : ∀ frame, entry.reply.shared.handed = [frame] → reply.shared.handed = [frame] := fun frame hframe =>
      handed_replyStep hsync (handed_sync.trans hframe) step
    refine ⟨⟨⟨?_, hcalls.swept, hcalls.calls⟩, Exchange.forall_mem_set hrequests (hrequests entry hmem),
      Exchange.forall_mem_set hreplies (holds_replyStep hsync step), Exchange.forall_mem_set hhanded ?_⟩,
      .of_set rfl found rfl ⟨rfl, id, hkept⟩⟩
    · intro hshutdown
      simp [hcalls.closing hshutdown]
    · intro hpushed
      obtain ⟨frame, hframe⟩ := hhanded entry hmem hpushed
      exact ⟨frame, hkept frame hframe⟩

/-- A session only sends on the wire out of it, and only receives on the other. -/
theorem other_ends (hmoves : Moves encode decode asked peer out inc peer' out' inc') :
    inc'.sent = inc.sent ∧ out'.received = out.received := by
  cases hmoves with
  | push unpushed encoded sent received => exact ⟨rfl, received⟩
  | notify encoded sent received => exact ⟨rfl, received⟩
  | pushReply found handed unpushed encoded sent received => exact ⟨rfl, received⟩
  | recv reader received sent => exact ⟨sent, rfl⟩
  | calls | readerEnds | drop | resolve | dispatch | refused | take | dispatcher | reply | closeDispatch =>
    exact ⟨rfl, rfl⟩

/-! ## The messages that a session sends -/

/-- Where a message on the wire comes from. -/
inductive Origin (encode : ControlFrame → Except Error β) (asked : String → Asked) (peer : Peer κ β) (data : β) : Prop where
  | request (id : String) (pushed : peer.pushed id = true) (encoded : encode ((asked id).frame id) = .ok data)
  | event (id name : String) (payload : RawMessage) (encoded : encode (eventFrame id name payload) = .ok data)
  | response (entry : Inbound κ) (mem : entry ∈ peer.inbound) (pushed : entry.pushed = true) (frame : ControlFrame)
      (handed : entry.reply.shared.handed = [frame]) (encoded : encode frame = .ok data)

omit [DecidableEq κ] in
theorem Origin.grows {data : β} (h : Origin encode asked peer data) (hgrows : Grows peer peer') :
    Origin encode asked peer' data := by
  cases h with
  | request id pushed encoded => exact .request id (hgrows.pushed id pushed) encoded
  | event id name payload encoded => exact .event id name payload encoded
  | response entry mem pushed frame handed encoded =>
    obtain ⟨entry', hmem, hlater⟩ := hgrows.inbound entry mem
    exact .response entry' hmem (hlater.pushed pushed) frame (hlater.handed frame handed) encoded

/-- What holds of the messages that a session has sent. -/
structure Sends (encode : ControlFrame → Except Error β) (decode : β → Option ControlFrame) (asked : String → Asked)
    (peer : Peer κ β) (sent : List β) : Prop where
  origin : ∀ data ∈ sent, Origin encode asked peer data
  requests : (requestIds decode sent).Nodup
  responses : (responseIds decode sent).Nodup

omit [DecidableEq κ] in
/-- A frame that was handed to `Send` is a response to its request. -/
theorem Own.addressed (h : Own peer) {entry : Inbound κ} (hentry : entry ∈ peer.inbound) {frame : ControlFrame}
    (hhanded : entry.reply.shared.handed = [frame]) : frame.Kind = .response ∧ frame.CorrelID = entry.frame.ID :=
  (h.replies entry hentry).1.addressed frame (by rw [hhanded]; exact List.mem_singleton_self frame)

omit [DecidableEq κ] in
/-- A message that is read as a request was sent by a call. -/
theorem Origin.of_request (hcodec : Carries encode decode) (hown : Own peer) {data : β} {frame : ControlFrame}
    (h : Origin encode asked peer data) (hdecode : decode data = some frame) (hkind : frame.Kind = .request) :
    peer.pushed frame.ID = true ∧ encode ((asked frame.ID).frame frame.ID) = .ok data := by
  cases h with
  | request id pushed encoded =>
    obtain ⟨frame', hdecode', -, rfl⟩ := hcodec.request id (asked id) data encoded
    obtain rfl := Option.some.inj (hdecode.symm.trans hdecode')
    exact ⟨pushed, encoded⟩
  | event id name payload encoded =>
    obtain ⟨frame', hdecode', hkind'⟩ := hcodec.event id name payload data encoded
    obtain rfl := Option.some.inj (hdecode.symm.trans hdecode')
    rw [hkind] at hkind'
    cases hkind'
  | response entry mem pushed sent handed encoded =>
    obtain ⟨frame', hdecode', hkind', -⟩ := hcodec.response sent data (hown.addressed mem handed).1 encoded
    obtain rfl := Option.some.inj (hdecode.symm.trans hdecode')
    rw [hkind] at hkind'
    cases hkind'

omit [DecidableEq κ] in
/-- A message that is read as a response was sent for an inbound request. -/
theorem Origin.of_response (hcodec : Carries encode decode) (hown : Own peer) {data : β} {frame : ControlFrame}
    (h : Origin encode asked peer data) (hdecode : decode data = some frame) (hkind : frame.Kind = .response) :
    ∃ entry ∈ peer.inbound, entry.frame.ID = frame.CorrelID ∧ entry.pushed = true ∧
      entry.Gives encode decode (responseOf frame) := by
  cases h with
  | request id pushed encoded =>
    obtain ⟨frame', hdecode', hkind', -⟩ := hcodec.request id (asked id) data encoded
    obtain rfl := Option.some.inj (hdecode.symm.trans hdecode')
    rw [hkind] at hkind'
    cases hkind'
  | event id name payload encoded =>
    obtain ⟨frame', hdecode', hkind'⟩ := hcodec.event id name payload data encoded
    obtain rfl := Option.some.inj (hdecode.symm.trans hdecode')
    rw [hkind] at hkind'
    cases hkind'
  | response entry mem pushed sent handed encoded =>
    obtain ⟨hsent, hid⟩ := hown.addressed mem handed
    obtain ⟨frame', hdecode', -, hcorrel⟩ := hcodec.response sent data hsent encoded
    obtain rfl := Option.some.inj (hdecode.symm.trans hdecode')
    exact ⟨entry, mem, by rw [hcorrel, hid], pushed, sent, data, frame, handed, encoded, hdecode, rfl⟩

theorem mem_requestIds {sent : List β} {id : String} (h : id ∈ requestIds decode sent) :
    ∃ data ∈ sent, ∃ frame, decode data = some frame ∧ frame.Kind = .request ∧ frame.ID = id := by
  obtain ⟨frame, hframe, rfl⟩ := List.mem_map.mp h
  obtain ⟨hframe, hkind⟩ := List.mem_filter.mp hframe
  obtain ⟨data, hdata, hdecode⟩ := List.mem_filterMap.mp hframe
  exact ⟨data, hdata, frame, hdecode, of_decide_eq_true hkind, rfl⟩

theorem mem_responseIds {sent : List β} {id : String} (h : id ∈ responseIds decode sent) :
    ∃ data ∈ sent, ∃ frame, decode data = some frame ∧ frame.Kind = .response ∧ frame.CorrelID = id := by
  obtain ⟨frame, hframe, rfl⟩ := List.mem_map.mp h
  obtain ⟨hframe, hkind⟩ := List.mem_filter.mp hframe
  obtain ⟨data, hdata, hdecode⟩ := List.mem_filterMap.mp hframe
  exact ⟨data, hdata, frame, hdecode, of_decide_eq_true hkind, rfl⟩

/-- The ids of the requests, after one more message that is read as this frame. -/
theorem requestIds_concat {sent : List β} {data : β} {frame : ControlFrame} (hdecode : decode data = some frame) :
    requestIds decode (sent ++ [data]) =
      requestIds decode sent ++ if frame.Kind = .request then [frame.ID] else [] := by
  unfold requestIds
  rw [List.filterMap_append, List.filterMap_cons_some hdecode, List.filterMap_nil, List.filter_append, List.map_append]
  split_ifs with hkind <;> simp [hkind]

theorem responseIds_concat {sent : List β} {data : β} {frame : ControlFrame} (hdecode : decode data = some frame) :
    responseIds decode (sent ++ [data]) =
      responseIds decode sent ++ if frame.Kind = .response then [frame.CorrelID] else [] := by
  unfold responseIds
  rw [List.filterMap_append, List.filterMap_cons_some hdecode, List.filterMap_nil, List.filter_append, List.map_append]
  split_ifs with hkind <;> simp [hkind]

theorem nodup_concat {α : Type} {l : List α} {x : α} (h : l.Nodup) (hx : x ∉ l) : (l ++ [x]).Nodup := by
  rw [List.nodup_append]
  exact ⟨h, List.nodup_singleton x, fun y hy z hz => by rw [List.mem_singleton.mp hz]; rintro rfl; exact hx hy⟩

omit [DecidableEq κ] in
/-- One more message keeps the ids apart if its own is new. -/
theorem Sends.concat {sent : List β} {data : β} {frame : ControlFrame} (h : Sends encode decode asked peer sent)
    (horigin : Origin encode asked peer' data) (hgrows : Grows peer peer') (hdecode : decode data = some frame)
    (hrequest : frame.Kind = .request → frame.ID ∉ requestIds decode sent)
    (hresponse : frame.Kind = .response → frame.CorrelID ∉ responseIds decode sent) :
    Sends encode decode asked peer' (sent ++ [data]) := by
  refine ⟨?_, ?_, ?_⟩
  · exact List.forall_mem_append.mpr ⟨fun d hd => (h.origin d hd).grows hgrows, List.forall_mem_singleton.mpr horigin⟩
  · rw [requestIds_concat hdecode]
    split_ifs with hkind
    · exact nodup_concat h.requests (hrequest hkind)
    · rw [List.append_nil]
      exact h.requests
  · rw [responseIds_concat hdecode]
    split_ifs with hkind
    · exact nodup_concat h.responses (hresponse hkind)
    · rw [List.append_nil]
      exact h.responses

theorem Sends.of_moves (hcodec : Carries encode decode) (hown : Own peer)
    (hids : (peer.inbound.map fun entry => entry.frame.ID).Nodup) (h : Sends encode decode asked peer out.sent)
    (hmoves : Moves encode decode asked peer out inc peer' out' inc') : Sends encode decode asked peer' out'.sent := by
  obtain ⟨-, hgrows⟩ := hown.of_moves hmoves
  have hsame : out'.sent = out.sent → Sends encode decode asked peer' out'.sent := fun heq => by
    rw [heq]
    exact ⟨fun data hdata => (h.origin data hdata).grows hgrows, h.requests, h.responses⟩
  cases hmoves with
  | calls | recv | readerEnds | drop | resolve | dispatch | refused | take | dispatcher | reply | closeDispatch =>
    exact hsame rfl
  | @push id data out₁ unpushed encoded sent received =>
    obtain ⟨frame, hdecode, hkind, rfl⟩ := hcodec.request id (asked id) data encoded
    rw [sent]
    refine h.concat (.request frame.ID (Function.update_self ..) encoded) hgrows hdecode ?_ (by simp [hkind])
    intro _ hmem
    obtain ⟨data', hdata', frame', hdecode', hkind', hid⟩ := mem_requestIds hmem
    have hpushed := ((h.origin data' hdata').of_request hcodec hown hdecode' hkind').1
    rw [hid, unpushed] at hpushed
    cases hpushed
  | @notify id name payload data out₁ encoded sent received =>
    obtain ⟨frame, hdecode, hkind⟩ := hcodec.event id name payload data encoded
    rw [sent]
    exact h.concat (.event id name payload encoded) hgrows hdecode (by simp [hkind]) (by simp [hkind])
  | @pushReply index entry frame data out₁ found handed unpushed encoded sent received =>
    have hmem : entry ∈ peer.inbound := List.mem_of_getElem? found
    obtain ⟨hsent, hid⟩ := hown.addressed hmem handed
    obtain ⟨frame', hdecode, hkind, hcorrel⟩ := hcodec.response frame data hsent encoded
    rw [sent]
    refine h.concat (.response { entry with pushed := true } (mem_set_self found) rfl frame handed encoded) hgrows
      hdecode (by simp [hkind]) ?_
    -- the other response with this id would be one to the same request
    intro _ hcontra
    obtain ⟨data', hdata', frame₁, hdecode', hkind', hid'⟩ := mem_responseIds hcontra
    obtain ⟨entry', hmem', heq, hpushed, -⟩ := (h.origin data' hdata').of_response hcodec hown hdecode' hkind'
    have hsame : entry' = entry :=
      List.inj_on_of_nodup_map hids hmem' hmem (by rw [heq, hid', hcorrel, hid])
    rw [hsame, unpushed] at hpushed
    cases hpushed

/-! ## The messages that a session receives -/

/-- How far the reader and the dispatcher have come. -/
structure Receives (decode : β → Option ControlFrame) (peer : Peer κ β) (received : List β) : Prop where
  inbound : peer.inbound.map Inbound.frame = peer.dispatch.received.filter fun frame => frame.Kind = .request
  receiving : peer.reader = .receiving → peer.dispatch.sent = dispatchable decode received
  holding : ∀ data, peer.reader = .holding data →
    ∃ done, received = done ++ [data] ∧ peer.dispatch.sent = dispatchable decode done
  ended : peer.reader = .ended → peer.dispatch.sent <+: dispatchable decode received

theorem dispatchable_concat (received : List β) (data : β) :
    dispatchable decode (received ++ [data]) = dispatchable decode received ++
      ((decode data).filter fun frame => frame.Kind ≠ .response).toList := by
  unfold dispatchable
  rw [List.filterMap_append, List.filter_append, List.append_cancel_left_eq]
  cases hdecode : decode data with
  | none => simp [hdecode]
  | some frame =>
    by_cases hkind : frame.Kind = .response <;> simp [hdecode, hkind, Option.filter]

theorem Receives.of_moves (h : Receives decode peer inc.received)
    (hmoves : Moves encode decode asked peer out inc peer' out' inc') : Receives decode peer' inc'.received := by
  obtain ⟨hinbound, hreceiving, hholding, hended⟩ := h
  have hset : ∀ {index : Nat} {entry entry' : Inbound κ}, peer.inbound[index]? = some entry →
      entry'.frame = entry.frame →
      (peer.inbound.set index entry').map Inbound.frame =
        peer.dispatch.received.filter fun frame => frame.Kind = .request := by
    intro index entry entry' hfound hframe
    rw [List.map_set, hframe, ← hinbound]
    refine List.ext_getElem? fun n => ?_
    rw [List.getElem?_set]
    split_ifs with hn hlt
    · subst hn
      rw [List.getElem?_map, hfound]
      rfl
    · subst hn
      rw [eq_comm, List.getElem?_eq_none]
      exact not_lt.mp hlt
    · rfl
  cases hmoves with
  | calls | push | notify | dispatcher => exact ⟨hinbound, hreceiving, hholding, hended⟩
  | pushReply found => exact ⟨hset found rfl, hreceiving, hholding, hended⟩
  | reply found => exact ⟨hset found rfl, hreceiving, hholding, hended⟩
  | recv reader received sent =>
    rw [received]
    refine ⟨hinbound, by simp, ?_, by simp⟩
    intro data hdata
    cases hdata
    exact ⟨inc.received, rfl, hreceiving reader⟩
  | readerEnds reader =>
    exact ⟨hinbound, by simp, by simp, fun _ => by rw [hreceiving reader]⟩
  | drop reader decoded =>
    obtain ⟨done, hdone, hsent⟩ := hholding _ reader
    refine ⟨hinbound, fun _ => ?_, by simp, by simp⟩
    rw [hdone, dispatchable_concat, decoded]
    simpa using hsent
  | resolve reader decoded kind =>
    obtain ⟨done, hdone, hsent⟩ := hholding _ reader
    refine ⟨hinbound, fun _ => ?_, by simp, by simp⟩
    rw [hdone, dispatchable_concat, decoded]
    simpa [Option.filter, kind] using hsent
  | dispatch reader decoded kind sent received =>
    obtain ⟨done, hdone, hsent⟩ := hholding _ reader
    refine ⟨by rw [received]; exact hinbound, fun _ => ?_, by simp, by simp⟩
    rw [hdone, dispatchable_concat, decoded, sent, hsent]
    simp [Option.filter, kind]
  | refused reader =>
    obtain ⟨done, hdone, hsent⟩ := hholding _ reader
    refine ⟨hinbound, by simp, by simp, fun _ => ?_⟩
    rw [hdone, dispatchable_concat, hsent]
    exact List.prefix_append _ _
  | @take frame dispatch received sent =>
    unfold Peer.take
    split_ifs with hkind
    · refine ⟨?_, by simpa only [sent] using hreceiving, by simpa only [sent] using hholding,
        by simpa only [sent] using hended⟩
      dsimp only
      rw [List.map_append, hinbound, received, List.filter_append]
      simp [Inbound.take, hkind]
    · refine ⟨?_, by simpa only [sent] using hreceiving, by simpa only [sent] using hholding,
        by simpa only [sent] using hended⟩
      dsimp only
      rw [hinbound, received, List.filter_append]
      simp [hkind]
  | closeDispatch => exact ⟨hinbound, hreceiving, hholding, hended⟩

/-! ## Both sessions -/

/-- The responses of the calls are those that inbound requests of the other session have given. -/
def Answered (encode : ControlFrame → Except Error β) (decode : β → Option ControlFrame)
    (caller responder : Peer κ β) : Prop :=
  ∀ id response, .response response ∈ (caller.calls.calls id).completions →
    ∃ entry ∈ responder.inbound, entry.frame.ID = id ∧ entry.Gives encode decode response

omit [DecidableEq κ] in
theorem Inbound.Gives.later {entry entry' : Inbound κ} {response : Response} (h : entry.Gives encode decode response)
    (hlater : entry.Later entry') : entry'.Gives encode decode response := by
  obtain ⟨sent, data, frame, hhanded, hencode, hdecode, hresponse⟩ := h
  exact ⟨sent, data, frame, hlater.handed sent hhanded, hencode, hdecode, hresponse⟩

omit [DecidableEq κ] in
theorem Answered.grows {responder responder' : Peer κ β} (h : Answered encode decode peer responder)
    (hgrows : Grows responder responder') : Answered encode decode peer responder' := by
  intro id response hmem
  obtain ⟨entry, hentry, hid, hgives⟩ := h id response hmem
  obtain ⟨entry', hentry', hlater⟩ := hgrows.inbound entry hentry
  exact ⟨entry', hentry', by rw [hlater.frame, hid], hgives.later hlater⟩

theorem Answered.of_moves {responderAsked : String → Asked} {responder : Peer κ β} {sent : List β}
    (hcodec : Carries encode decode) (hresponder : Own responder) (hsends : Sends encode decode responderAsked responder sent)
    (hreceives : Receives decode peer inc.received) (hreceived : inc.received <+: sent)
    (h : Answered encode decode peer responder) (hmoves : Moves encode decode asked peer out inc peer' out' inc') :
    Answered encode decode peer' responder := by
  cases hmoves with
  | calls step other => exact fun id response hmem => h id response (completions_of_step step other hmem)
  | push | notify | pushReply | recv | readerEnds | drop | dispatch | refused | dispatcher | closeDispatch | reply =>
    exact h
  | take received sent =>
    unfold Peer.take
    split_ifs <;> exact h
  | @resolve data frame reader decoded kind =>
    intro id response hmem
    by_cases hid : id = frame.CorrelID
    · subst hid
      simp only [Pending.State.setCall, Function.update_self] at hmem
      by_cases hresponse : response = responseOf frame
      · subst hresponse
        -- the message that the reader holds was sent for an inbound request of the other session
        obtain ⟨done, hdone, -⟩ := hreceives.holding data reader
        have hsent : data ∈ sent := hreceived.subset (by rw [hdone]; simp)
        obtain ⟨entry, hentry, heq, -, hgives⟩ := (hsends.origin data hsent).of_response hcodec hresponder decoded kind
        exact ⟨entry, hentry, heq, hgives⟩
      · exact h _ response (Pending.Call.response_mem_of_complete (by simpa using Ne.symm hresponse) hmem)
    · simp only [Pending.State.setCall, Function.update_of_ne hid] at hmem
      exact h id response hmem

variable {asked : Bool → String → Asked} {s t : State κ β}

/-- The invariant of both sessions. -/
structure Inv (encode : ControlFrame → Except Error β) (decode : β → Option ControlFrame)
    (asked : Bool → String → Asked) (s : State κ β) : Prop where
  own : ∀ p, Own (s.peer p)
  sends : ∀ p, Sends encode decode (asked p) (s.peer p) (s.wire p).sent
  receives : ∀ p, Receives decode (s.peer p) (s.wire !p).received
  answered : ∀ p, Answered encode decode (s.peer p) (s.peer !p)

omit [DecidableEq κ] in
theorem inv_initial : Inv encode decode asked (initial : State κ β) where
  own _ := ⟨Pending.inv_initial, by simp [initial, Peer.initial], by simp [initial, Peer.initial],
    by simp [initial, Peer.initial]⟩
  sends _ := ⟨by simp [initial], List.nodup_nil, List.nodup_nil⟩
  receives _ := ⟨rfl, fun _ => rfl, by simp [initial, Peer.initial], by simp [initial, Peer.initial]⟩
  answered _ id response h := by simp [initial, Peer.initial, Pending.initial, Pending.Call.new] at h

omit [DecidableEq κ] in
/-- The requests that a session handles are among those that the other has sent, in their order. -/
theorem Inv.dispatched (h : Inv encode decode asked s) (p : Bool) :
    (s.peer !p).dispatch.received <+: dispatchable decode (s.wire p).sent := by
  have hreceives := h.receives !p
  rw [Bool.not_not] at hreceives
  have hsent : (s.peer !p).dispatch.sent <+: dispatchable decode (s.wire p).received := by
    cases hreader : (s.peer !p).reader with
    | receiving => rw [hreceives.receiving hreader]
    | holding data =>
      obtain ⟨done, hdone, heq⟩ := hreceives.holding data hreader
      rw [heq, hdone, dispatchable_concat]
      exact List.prefix_append _ _
    | ended => exact hreceives.ended hreader
  have hreceived : dispatchable decode (s.wire p).received <+: dispatchable decode (s.wire p).sent :=
    ((s.wire p).received_isPrefix.filterMap decode).filter _
  exact ((s.peer !p).dispatch.received_isPrefix.trans hsent).trans hreceived

omit [DecidableEq κ] in
/-- What is left of the frames for the dispatcher when only the requests are kept. -/
theorem filter_dispatchable (data : List β) :
    ((dispatchable decode data).filter fun frame => frame.Kind = .request) =
      (data.filterMap decode).filter fun frame => frame.Kind = .request := by
  rw [dispatchable, List.filter_filter]
  refine List.filter_congr fun frame _ => ?_
  cases frame.Kind <;> rfl

omit [DecidableEq κ] in
/-- The requests that are handled are the first of those that were sent. -/
theorem Inv.inbound_prefix (h : Inv encode decode asked s) (p : Bool) :
    (s.peer !p).inbound.map Inbound.frame <+:
      ((s.wire p).sent.filterMap decode).filter fun frame => frame.Kind = .request := by
  rw [(h.receives !p).inbound, ← filter_dispatchable]
  exact (h.dispatched p).filter _

omit [DecidableEq κ] in
/-- The ids of the inbound requests are distinct. -/
theorem Inv.inbound_nodup (h : Inv encode decode asked s) (p : Bool) :
    ((s.peer p).inbound.map fun entry => entry.frame.ID).Nodup := by
  have hprefix := (h.inbound_prefix !p).map ControlFrame.ID
  rw [Bool.not_not, List.map_map] at hprefix
  exact (h.sends !p).requests.sublist hprefix.sublist

theorem Inv.step (hcodec : Carries encode decode) {action : Action κ} (h : Inv encode decode asked s)
    (hstep : step encode decode asked s action = some t) : Inv encode decode asked t := by
  cases action with
  | closeWire p =>
    obtain rfl := Option.some.inj hstep
    have hsent : ∀ q, (Function.update s.wire p (s.wire p).close q).sent = (s.wire q).sent := fun q => by
      rw [Function.update_apply]
      split_ifs with hq
      · rw [hq, Wire.sent_close]
      · rfl
    have hreceived : ∀ q, (Function.update s.wire p (s.wire p).close q).received = (s.wire q).received := fun q => by
      rw [Function.update_apply]
      split_ifs with hq
      · rw [hq, Wire.received_close]
      · rfl
    exact ⟨h.own, fun q => by rw [hsent q]; exact h.sends q, fun q => by rw [hreceived]; exact h.receives q, h.answered⟩
  | peer p action =>
    obtain ⟨⟨peer', out', inc'⟩, hr, rfl⟩ := Option.map_eq_some_iff.mp hstep
    have hmoves := moves_of_step hr
    obtain ⟨hown, hgrows⟩ := (h.own p).of_moves hmoves
    have hsends := (h.sends p).of_moves hcodec (h.own p) (h.inbound_nodup p) hmoves
    have hreceives := (h.receives p).of_moves hmoves
    have hanswered := (h.answered p).of_moves hcodec (h.own !p) (h.sends !p) (h.receives p)
      (s.wire !p).received_isPrefix hmoves
    obtain ⟨hsent, hreceived⟩ := other_ends hmoves
    have hself : p ≠ !p := by cases p <;> decide
    have hnot : ∀ q, q ≠ p → q = !p := fun q hq => by cases p <;> cases q <;> simp_all
    have hwire : Function.update (Function.update s.wire p out') (!p) inc' p = out' := by
      rw [Function.update_of_ne hself, Function.update_self]
    have hwire' : Function.update (Function.update s.wire p out') (!p) inc' (!p) = inc' := Function.update_self ..
    have hpeer : Function.update s.peer p peer' p = peer' := Function.update_self ..
    have hpeer' : Function.update s.peer p peer' (!p) = s.peer !p := Function.update_of_ne hself.symm ..
    refine ⟨fun q => ?_, fun q => ?_, fun q => ?_, fun q => ?_⟩ <;> dsimp only <;> by_cases hq : q = p
    · rw [hq, hpeer]
      exact hown
    · rw [hnot q hq, hpeer']
      exact h.own !p
    · rw [hq, hpeer, hwire]
      exact hsends
    · rw [hnot q hq, hpeer', hwire', hsent]
      exact h.sends !p
    · rw [hq, hpeer, hwire']
      exact hreceives
    · rw [hnot q hq, hpeer', Bool.not_not, hwire, hreceived]
      have hreceives' := h.receives !p
      rwa [Bool.not_not] at hreceives'
    · rw [hq, hpeer, hpeer']
      exact hanswered
    · rw [hnot q hq, hpeer', Bool.not_not, hpeer]
      have hanswered' := h.answered !p
      rw [Bool.not_not] at hanswered'
      exact hanswered'.grows hgrows

/-- In every run of two sessions, between the calls of each and the handlers of the other: the requests and events are
handled in the order in which they were sent and none is left out, a handler is called with what the call of the
request asked and at most once for a request, at most one response to it is sent, and a call that returns a response
returns that of the one handling of its own request. -/
theorem conversation_sound (hcodec : Carries encode decode) (h : (machine encode decode asked).Reachable s) (p : Bool) :
    Sound encode decode (asked p) (s.peer p) (s.peer !p) (s.wire p) (s.wire !p) := by
  have hinv : Inv encode decode asked s :=
    Machine.Reachable.invariant (fun _ hs => hs ▸ inv_initial) (fun _ _ _ hinv hstep => hinv.step hcodec hstep) h
  refine ⟨hinv.dispatched p, ?_, hinv.inbound_nodup !p, (hinv.sends !p).responses, ?_⟩
  · intro entry hentry
    have hframe : entry.frame ∈ ((s.wire p).sent.filterMap decode).filter fun frame => frame.Kind = .request :=
      (hinv.inbound_prefix p).subset (List.mem_map_of_mem hentry)
    obtain ⟨hframe, hkind⟩ := List.mem_filter.mp hframe
    obtain ⟨data, hdata, hdecode⟩ := List.mem_filterMap.mp hframe
    obtain ⟨hpushed, hencode⟩ :=
      ((hinv.sends p).origin data hdata).of_request hcodec (hinv.own p) hdecode (of_decide_eq_true hkind)
    exact ⟨hpushed, data, hencode, hdecode⟩
  · intro id response hreturned
    have hcall := (hinv.own p).calls.calls id
    obtain ⟨c, hc, hpc | ⟨hrunning, -⟩⟩ :=
      hcall.completed (by rw [hreturned]; rfl) (hcall.returned _ hreturned)
    · rw [hreturned] at hpc
      cases hpc
      obtain ⟨entry, hentry, hid, hgives⟩ := hinv.answered p id response (by rw [hc]; exact List.mem_singleton_self _)
      refine ⟨entry, ⟨hentry, hid, hgives⟩, ?_⟩
      rintro entry' ⟨hentry', hid', -⟩
      exact List.inj_on_of_nodup_map (hinv.inbound_nodup !p) hentry' hentry (hid'.trans hid.symm)
    · rw [hreturned] at hrunning
      cases hrunning

section Exchange

/-- The first session asks the second to `ping` and is answered. -/
def exchange : List (Action Unit) :=
  [.peer false .connect, .peer true .connect, .peer false (.call "r-1" .check), .peer false (.call "r-1" .register),
    .peer false (.call "r-1" (.beginSend none)), .peer false (.push "r-1"), .peer true .recv, .peer true .handle,
    .peer true .pop, .peer true (.reply 0 (.act (some ()) (.respond ⟨.json .null, none⟩ false))),
    .peer true (.reply 0 (.act (some ()) .check)), .peer true (.reply 0 (.act (some ()) .load)),
    .peer true (.reply 0 (.act (some ()) .compareAndSwap)), .peer true (.reply 0 (.act (some ()) .look)),
    .peer true (.reply 0 (.act (some ()) .send)), .peer true (.pushReply 0 (some ())), .peer false .recv,
    .peer false .handle, .peer false (.call "r-1" (.sendReturns none)), .peer false (.call "r-1" .receive)]

/-- The call has returned a response. -/
def responded (s : State Unit Value) : Bool :=
  match ((s.peer false).calls.calls "r-1").pc with
  | .returned (.response _) => true
  | _ => false

theorem exchange_sound :
    ∃ s, (machine (encodeText (renderCodec .classicV1)) (decodeText (renderCodec .classicV1))
        (fun _ _ => ⟨"ping", .nil⟩)).exec (initial : State Unit Value) exchange = some s ∧ responded s = true ∧
      Sound (encodeText (renderCodec .classicV1)) (decodeText (renderCodec .classicV1)) (fun _ => ⟨"ping", .nil⟩)
        (s.peer false) (s.peer true) (s.wire false) (s.wire true) := by
  have hruns : ((machine (encodeText (renderCodec .classicV1)) (decodeText (renderCodec .classicV1))
      (fun _ _ => ⟨"ping", .nil⟩)).exec (initial : State Unit Value) exchange).any responded = true := by
    decide +kernel
  obtain ⟨s, hexec, hresponded⟩ := (Option.any_eq_true ..).mp hruns
  have hcarries := @carries_renderCodec .classicV1 (by decide)
    (by simp [Envelope.EnvelopeSpec.Unambiguous, Envelope.EnvelopeSpec.classicV1, Envelope.FieldSpec.required,
      Envelope.FieldSpec.optional]) (by decide)
  exact ⟨s, hexec, hresponded, conversation_sound hcarries (.of_exec rfl hexec) false⟩

end Exchange

end Rtvbp.Go.Conversation
