import Mathlib.Data.List.Infix
import Rtvbp.Lib.Machine
import Rtvbp.Lib.Mailbox

/-!
# Endpoints of a channel

An endpoint takes its steps between a wire out of it and a wire into it. What it promises of the messages that it sends,
given those that it has received, does not depend on who is at the other end: it is proved of the endpoint alone. What
holds of two endpoints at one channel follows from the promises of both.

The second part is about endpoints that make requests of each other and answer them.
-/

namespace Rtvbp.Lib

variable {β ι : Type}

/-- A process between a wire out of it and a wire into it. -/
structure Endpoint (β : Type) where
  State : Type
  Action : Type
  initial : State
  step : State → Wire β → Wire β → Action → Option (State × Wire β × Wire β)

namespace Endpoint

variable {A B : Endpoint β} {I : A.State → List β → List β → Prop} {J : B.State → List β → List β → Prop}

/-- A promise about the state, the messages sent and the messages received: it holds at the start, every step keeps it,
and the endpoint only sends on the one wire and only receives on the other. -/
structure Keeps (A : Endpoint β) (I : A.State → List β → List β → Prop) : Prop where
  initial : I A.initial [] []
  step : ∀ {s t out inc action out' inc'}, I s out.sent inc.received → A.step s out inc action = some (t, out', inc') →
    I t out'.sent inc'.received ∧ inc'.sent = inc.sent ∧ out'.received = out.received

/-- Two endpoints, with the wires out of them. -/
structure Pair (A B : Endpoint β) where
  left : A.State
  right : B.State
  up : Wire β
  down : Wire β

/-- A step of one of the endpoints; or a wire is closed, with or without what is under way on it. -/
inductive PairAction (A B : Endpoint β) where
  | left (action : A.Action)
  | right (action : B.Action)
  | closeUp
  | closeDown
  | discardUp
  | discardDown

/-- One step. -/
def Pair.step (p : Pair A B) : PairAction A B → Option (Pair A B)
  | .left action => (A.step p.left p.up p.down action).map fun r => { p with left := r.1, up := r.2.1, down := r.2.2 }
  | .right action => (B.step p.right p.down p.up action).map fun r => { p with right := r.1, down := r.2.1, up := r.2.2 }
  | .closeUp => some { p with up := p.up.close }
  | .closeDown => some { p with down := p.down.close }
  | .discardUp => some { p with up := p.up.discard }
  | .discardDown => some { p with down := p.down.discard }

/-- Two endpoints at one channel. -/
def pair (A B : Endpoint β) : Machine (Pair A B) (PairAction A B) where
  Start p := p = ⟨A.initial, B.initial, .empty, .empty⟩
  step := Pair.step

/-- Both endpoints keep their promises, whatever the other does. -/
theorem Keeps.pair (hA : A.Keeps I) (hB : B.Keeps J) {p : Pair A B} (h : (pair A B).Reachable p) :
    I p.left p.up.sent p.down.received ∧ J p.right p.down.sent p.up.received := by
  refine Machine.Reachable.invariant
    (I := fun p => I p.left p.up.sent p.down.received ∧ J p.right p.down.sent p.up.received) ?_ ?_ h
  · rintro p rfl
    exact ⟨hA.initial, hB.initial⟩
  · rintro p action q ⟨hI, hJ⟩ hstep
    cases action with
    | left action =>
      obtain ⟨⟨s, up, down⟩, hr, rfl⟩ := Option.map_eq_some_iff.mp hstep
      obtain ⟨hI', hsent, hreceived⟩ := hA.step hI hr
      refine ⟨hI', ?_⟩
      dsimp only
      rwa [hsent, hreceived]
    | right action =>
      obtain ⟨⟨s, down, up⟩, hr, rfl⟩ := Option.map_eq_some_iff.mp hstep
      obtain ⟨hJ', hsent, hreceived⟩ := hB.step hJ hr
      refine ⟨?_, hJ'⟩
      dsimp only
      rwa [hsent, hreceived]
    | closeUp | closeDown | discardUp | discardDown =>
      obtain rfl := Option.some.inj hstep
      exact ⟨hI, hJ⟩

end Endpoint

/-! ## Requests and responses -/

/-- What a message is, with the identity of the request. -/
inductive Tag (ι : Type) where
  | request (id : ι)
  | response (id : ι)
  | event

namespace Tag

/-- The identity of a request. -/
def requestId : Tag ι → Option ι
  | .request id => some id
  | _ => none

/-- The identity of the request that a response answers. -/
def responseId : Tag ι → Option ι
  | .response id => some id
  | _ => none

end Tag

/-- The identities of the requests among messages with these labels. -/
def requestIds (label : β → Option (Tag ι)) (messages : List β) : List ι :=
  (messages.filterMap label).filterMap Tag.requestId

/-- The identities of the requests that the responses among messages with these labels answer. -/
def responseIds (label : β → Option (Tag ι)) (messages : List β) : List ι :=
  (messages.filterMap label).filterMap Tag.responseId

/-- What is seen of an endpoint that reads the messages as frames `φ` and returns responses `ρ` to its calls. -/
structure View (β φ ι ρ : Type) where
  /-- This message is the request of the call with this identity. -/
  Called : ι → β → Prop
  /-- The call has returned this response. -/
  Returned : ι → ρ → Prop
  /-- The requests and events that have been taken up, in this order. -/
  taken : List φ
  /-- The requests among them, each with the response that was sent to it. -/
  handled : List (φ × Option β)

/-- What an endpoint promises of what is seen of it, given the messages that it has sent and received. -/
structure View.Meets {φ ρ : Type} (decode : β → Option φ) (tag : φ → Tag ι) (Holds : β → ρ → Prop) (view : View β φ ι ρ)
    (sent received : List β) : Prop where
  requests_once : (requestIds (fun m => (decode m).map tag) sent).Nodup
  called : ∀ m ∈ sent, ∀ id, (decode m).map tag = some (.request id) → view.Called id m
  in_order : view.taken <+: (received.filterMap decode).filter fun frame => (tag frame).responseId.isNone
  handled : view.handled.map Prod.fst = view.taken.filter fun frame => (tag frame).requestId.isSome
  /-- The responses on the wire are those to the requests that were handled, at most one to each. -/
  answers : (sent.filter fun m => (((decode m).map tag).bind Tag.responseId).isSome).Perm (view.handled.filterMap Prod.snd)
  addressed : ∀ frame m, (frame, some m) ∈ view.handled →
    ∃ id, tag frame = .request id ∧ (decode m).map tag = some (.response id)
  returned : ∀ id response, view.Returned id response →
    ∃ m ∈ received, (decode m).map tag = some (.response id) ∧ Holds m response

/-- An endpoint that answers requests and may make some of its own. It carries its promise, and with it what the
promise says of what is seen of it. -/
structure Party (β ι : Type) extends Endpoint β where
  Frame : Type
  Response : Type
  decode : β → Option Frame
  tag : Frame → Tag ι
  /-- The message holds this response. -/
  Holds : β → Response → Prop
  view : State → View β Frame ι Response
  Promise : State → List β → List β → Prop
  keeps : toEndpoint.Keeps Promise
  meets : ∀ s sent received, Promise s sent received → (view s).Meets decode tag Holds sent received

namespace Party

variable {A B : Party β ι}

/-- What a message is for this party. -/
def label (P : Party β ι) (m : β) : Option (Tag ι) := (P.decode m).map P.tag

/-- What holds between a party that makes requests and the one that handles them, with what they have sent. -/
structure Sound (caller responder : Party β ι) (s : caller.State) (t : responder.State) (requests responses : List β) :
    Prop where
  /-- The requests and events are taken up in the order in which they were sent, and none is left out. -/
  in_order : (responder.view t).taken <+:
    (requests.filterMap responder.decode).filter fun frame => (responder.tag frame).responseId.isNone
  /-- What is handled is what the call of this identity asked. -/
  authentic : ∀ entry ∈ (responder.view t).handled, ∃ id m, responder.tag entry.1 = .request id ∧
    responder.decode m = some entry.1 ∧ (caller.view s).Called id m
  handled_once : ((responder.view t).handled.map fun entry => responder.tag entry.1).Nodup
  answered_once : (responseIds responder.label responses).Nodup
  /-- A call that returns a response returns that to the one handling of its own request. -/
  answered : ∀ id response, (caller.view s).Returned id response →
    ∃! entry, entry ∈ (responder.view t).handled ∧ responder.tag entry.1 = .request id ∧
      ∃ m, entry.2 = some m ∧ caller.Holds m response

/-! ### What both promises give -/

theorem mem_requestIds {label : β → Option (Tag ι)} {messages : List β} {id : ι} :
    id ∈ requestIds label messages ↔ ∃ m ∈ messages, label m = some (.request id) := by
  simp only [requestIds, List.mem_filterMap]
  constructor
  · rintro ⟨tag, ⟨m, hm, hlabel⟩, hid⟩
    cases tag with
    | request id' =>
      obtain rfl := Option.some.inj hid
      exact ⟨m, hm, hlabel⟩
    | response id' => cases hid
    | event => cases hid
  · rintro ⟨m, hm, hlabel⟩
    exact ⟨_, ⟨m, hm, hlabel⟩, rfl⟩

section Meets

variable {φ ψ ρ σ : Type} {decode : β → Option φ} {tag : φ → Tag ι} {Holds : β → ρ → Prop} {view : View β φ ι ρ}
  {sent received : List β}

/-- What is handled is what was received and has the label of a request. -/
theorem handled_sublist (h : view.Meets decode tag Holds sent received) :
    (view.handled.map Prod.fst).Sublist (received.filterMap decode) := by
  rw [h.handled]
  exact (List.filter_sublist.trans h.in_order.sublist).trans List.filter_sublist

theorem tag_of_handled (h : view.Meets decode tag Holds sent received) {entry : φ × Option β} (hentry : entry ∈ view.handled) :
    ∃ id, tag entry.1 = .request id := by
  have hmem : entry.1 ∈ view.handled.map Prod.fst := List.mem_map_of_mem hentry
  rw [h.handled] at hmem
  obtain ⟨-, hrequest⟩ := List.mem_filter.mp hmem
  cases htag : tag entry.1 with
  | request id => exact ⟨id, rfl⟩
  | response id => simp [htag, Tag.requestId] at hrequest
  | event => simp [htag, Tag.requestId] at hrequest

/-- The identities of what is handled are some of those that were received, in their order. -/
theorem handledIds_sublist (h : view.Meets decode tag Holds sent received) :
    ((view.handled.map Prod.fst).filterMap fun frame => (tag frame).requestId).Sublist
      (requestIds (fun m => (decode m).map tag) received) := by
  have hsublist := (handled_sublist h).filterMap fun frame => (tag frame).requestId
  have hids : (received.filterMap decode).filterMap (fun frame => (tag frame).requestId) =
      requestIds (fun m => (decode m).map tag) received := by
    rw [requestIds, List.filterMap_filterMap, List.filterMap_filterMap]
    refine List.filterMap_congr fun m _ => ?_
    cases decode m <;> rfl
  rwa [hids] at hsublist

/-- The labels of what is handled are distinct if the identities of the requests received are. -/
theorem handled_nodup (h : view.Meets decode tag Holds sent received)
    (honce : (requestIds (fun m => (decode m).map tag) received).Nodup) :
    (view.handled.map fun entry => tag entry.1).Nodup := by
  have hids := honce.sublist (handledIds_sublist h)
  have hlabels : (view.handled.map fun entry => tag entry.1) =
      ((view.handled.map Prod.fst).filterMap fun frame => (tag frame).requestId).map Tag.request := by
    have hall := fun entry (hentry : entry ∈ view.handled) => tag_of_handled h hentry
    clear hids
    generalize view.handled = entries at hall ⊢
    induction entries with
    | nil => rfl
    | cons entry entries ih =>
      obtain ⟨id, hid⟩ := hall entry List.mem_cons_self
      have hrest := ih fun e he => hall e (List.mem_cons_of_mem _ he)
      simp [hid, Tag.requestId] at hrest ⊢
      exact hrest
  rw [hlabels]
  exact hids.map fun _ _ heq => by injection heq

/-- The identities of the responses are those of the requests that were handled and answered. -/
theorem responseIds_nodup (h : view.Meets decode tag Holds sent received)
    (honce : (requestIds (fun m => (decode m).map tag) received).Nodup) :
    (responseIds (fun m => (decode m).map tag) sent).Nodup := by
  have hfilter : responseIds (fun m => (decode m).map tag) sent =
      (sent.filter fun m => (((decode m).map tag).bind Tag.responseId).isSome).filterMap
        fun m => ((decode m).map tag).bind Tag.responseId := by
    rw [responseIds, List.filterMap_filterMap, List.filterMap_filter]
    refine List.filterMap_congr fun m _ => ?_
    cases ((decode m).map tag).bind Tag.responseId <;> simp
  have hsublist : ((view.handled.filterMap Prod.snd).filterMap fun m => ((decode m).map tag).bind Tag.responseId).Sublist
      ((view.handled.map Prod.fst).filterMap fun frame => (tag frame).requestId) := by
    have hall := h.addressed
    clear hfilter
    generalize view.handled = entries at hall ⊢
    induction entries with
    | nil => exact .slnil
    | cons entry entries ih =>
      have hrest := ih fun frame m hmem => hall frame m (List.mem_cons_of_mem _ hmem)
      obtain ⟨frame, answer⟩ := entry
      cases answer with
      | none => exact hrest.trans (((List.sublist_cons_self frame _).filterMap _))
      | some m =>
        obtain ⟨id, htag, hlabel⟩ := hall frame m List.mem_cons_self
        simpa [htag, hlabel, Tag.requestId, Tag.responseId] using hrest.cons_cons id
  rw [hfilter]
  exact ((h.answers.filterMap _).nodup_iff).mpr ((honce.sublist (handledIds_sublist h)).sublist hsublist)

end Meets

theorem label_eq (P : Party β ι) : P.label = fun m => (P.decode m).map P.tag := rfl

/-- The promises of both parties, who agree on what the messages are. -/
theorem sound_of_meets (hlabel : ∀ m, A.label m = B.label m) {s : A.State} {t : B.State}
    {requests responses requests' responses' : List β} (hcaller : (A.view s).Meets A.decode A.tag A.Holds requests responses')
    (hresponder : (B.view t).Meets B.decode B.tag B.Holds responses requests') (hrequests : requests' <+: requests)
    (hresponses : responses' <+: responses) : Sound A B s t requests responses := by
  have hlabels : A.label = B.label := funext hlabel
  have honce : (requestIds (fun m => (B.decode m).map B.tag) requests').Nodup := by
    have hcalled := hcaller.requests_once
    rw [← label_eq, hlabels] at hcalled
    exact hcalled.sublist ((hrequests.sublist.filterMap _).filterMap _)
  refine ⟨?_, ?_, handled_nodup hresponder honce, responseIds_nodup hresponder honce, ?_⟩
  · exact hresponder.in_order.trans ((hrequests.filterMap _).filter _)
  · intro entry hentry
    obtain ⟨id, hid⟩ := tag_of_handled hresponder hentry
    have hmem := (handled_sublist hresponder).subset (List.mem_map_of_mem hentry)
    obtain ⟨m, hm, hdecode⟩ := List.mem_filterMap.mp hmem
    have hrequest : A.label m = some (.request id) := by
      rw [hlabel, label, hdecode, ← hid]
      rfl
    exact ⟨id, m, hid, hdecode, hcaller.called m (hrequests.subset hm) id hrequest⟩
  · intro id response hreturned
    obtain ⟨m, hm, hresponse, hholds⟩ := hcaller.returned id response hreturned
    -- the message that the call returns is one of those sent for what was handled
    have hlabel' : (B.decode m).map B.tag = some (.response id) := (hlabel m).symm.trans hresponse
    have hanswer : m ∈ (B.view t).handled.filterMap Prod.snd :=
      hresponder.answers.subset (List.mem_filter.mpr ⟨hresponses.subset hm, by simp [hlabel', Tag.responseId]⟩)
    obtain ⟨⟨frame, answer⟩, hentry, rfl⟩ := List.mem_filterMap.mp hanswer
    obtain ⟨id', htag, heq⟩ := hresponder.addressed frame m hentry
    obtain rfl : id = id' := by simpa [hlabel'] using heq
    refine ⟨(frame, some m), ⟨hentry, htag, m, rfl, hholds⟩, ?_⟩
    rintro entry ⟨hentry', htag', -⟩
    exact List.inj_on_of_nodup_map (handled_nodup hresponder honce) hentry' hentry (htag'.trans htag.symm)

/-- In every run of two parties that agree on what the messages are, the calls of each are answered by the other. -/
theorem sound (hlabel : ∀ m, A.label m = B.label m) {p : Endpoint.Pair A.toEndpoint B.toEndpoint}
    (h : (Endpoint.pair A.toEndpoint B.toEndpoint).Reachable p) :
    Sound A B p.left p.right p.up.sent p.down.sent ∧ Sound B A p.right p.left p.down.sent p.up.sent := by
  obtain ⟨hleft, hright⟩ := A.keeps.pair B.keeps h
  have hA := A.meets _ _ _ hleft
  have hB := B.meets _ _ _ hright
  exact ⟨sound_of_meets hlabel hA hB p.up.received_isPrefix p.down.received_isPrefix,
    sound_of_meets (fun m => (hlabel m).symm) hB hA p.down.received_isPrefix p.up.received_isPrefix⟩

end Party

end Rtvbp.Lib

/-!
## Endpoints with a reader and a dispatcher

How an endpoint that answers requests and makes some of its own is usually built: a reader takes the messages from the
wire, gives the responses to the calls that wait for them, and puts everything else into a queue, from which a
dispatcher takes it. The moves of such an endpoint keep the promise of a party. A program whose steps are these moves,
seen through an abstraction of its state, is a party.
-/

namespace Rtvbp.Lib

variable {β φ ι ρ : Type}

/-- How far the reader has come. -/
inductive ReaderState (β : Type) where
  | receiving
  | holding (m : β)
  | ended

/-- The state of such an endpoint. -/
structure Exchange (β φ ι ρ : Type) where
  /-- The request of the call is on the wire. -/
  Asked : ι → Prop
  /-- The response has been given to the call. -/
  Given : ι → ρ → Prop
  reader : ReaderState β
  queue : Wire φ
  /-- The requests that have been taken from the queue, each with the response that is on the wire. -/
  handled : List (φ × Option β)

/-- How the messages are read, which message is the request of a call, and what a message holds of a response. -/
structure Exchange.Terms (β φ ι ρ : Type) where
  decode : β → Option φ
  tag : φ → Tag ι
  Called : ι → β → Prop
  Holds : β → ρ → Prop

namespace Exchange

variable (T : Terms β φ ι ρ)

/-- What a message is. -/
def Terms.label (m : β) : Option (Tag ι) := (T.decode m).map T.tag

/-- The frames for the dispatcher in these messages. -/
def Terms.dispatchable (messages : List β) : List φ :=
  (messages.filterMap T.decode).filter fun frame => (T.tag frame).responseId.isNone

variable {x y : Exchange β φ ι ρ} {out inc out' inc' : Wire β}

/-- The entry of the dispatcher for a frame. -/
def entry (frame : φ) : List (φ × Option β) := if (T.tag frame).requestId.isSome then [(frame, none)] else []

/-- The moves of an endpoint, with what each of them needs. -/
inductive Moves (x : Exchange β φ ι ρ) (out inc : Wire β) : Exchange β φ ι ρ → Wire β → Wire β → Prop where
  /-- Nothing is sent or received. -/
  | still {given : ι → ρ → Prop} (kept : ∀ id r, given id r → x.Given id r) :
      Moves x out inc { x with Given := given } out inc
  | push {id : ι} {m : β} {asked : ι → Prop} {out' : Wire β} (unasked : ¬ x.Asked id) (called : T.Called id m)
      (label : T.label m = some (.request id)) (now : ∀ j, asked j ↔ x.Asked j ∨ j = id)
      (sent : out'.sent = out.sent ++ [m]) (received : out'.received = out.received) :
      Moves x out inc { x with Asked := asked } out' inc
  | notify {m : β} {out' : Wire β} (label : T.label m = some .event) (sent : out'.sent = out.sent ++ [m])
      (received : out'.received = out.received) : Moves x out inc x out' inc
  | answer {index : ℕ} {frame : φ} {id : ι} {m : β} {out' : Wire β} (found : x.handled[index]? = some (frame, none))
      (tag : T.tag frame = .request id) (label : T.label m = some (.response id))
      (sent : out'.sent = out.sent ++ [m]) (received : out'.received = out.received) :
      Moves x out inc { x with handled := x.handled.set index (frame, some m) } out' inc
  | recv {m : β} {inc' : Wire β} (reader : x.reader = .receiving) (received : inc'.received = inc.received ++ [m])
      (sent : inc'.sent = inc.sent) : Moves x out inc { x with reader := .holding m } out inc'
  /-- The reader ends while it waits, or because the queue is closed. -/
  | ends : Moves x out inc { x with reader := .ended } out inc
  | drop {m : β} (reader : x.reader = .holding m) (decoded : T.decode m = none) :
      Moves x out inc { x with reader := .receiving } out inc
  | resolve {m : β} {id : ι} {given : ι → ρ → Prop} (reader : x.reader = .holding m)
      (label : T.label m = some (.response id))
      (now : ∀ j r, given j r → x.Given j r ∨ (j = id ∧ T.Holds m r)) :
      Moves x out inc { x with Given := given, reader := .receiving } out inc
  | dispatch {m : β} {frame : φ} {queue : Wire φ} (reader : x.reader = .holding m) (decoded : T.decode m = some frame)
      (tag : (T.tag frame).responseId = none) (sent : queue.sent = x.queue.sent ++ [frame])
      (received : queue.received = x.queue.received) :
      Moves x out inc { x with queue := queue, reader := .receiving } out inc
  | take {frame : φ} {queue : Wire φ} (received : queue.received = x.queue.received ++ [frame])
      (sent : queue.sent = x.queue.sent) :
      Moves x out inc { x with queue := queue, handled := x.handled ++ entry T frame } out inc
  | discard : Moves x out inc { x with queue := x.queue.discard } out inc

/-- The promise of such an endpoint. -/
structure Promise (x : Exchange β φ ι ρ) (sent received : List β) : Prop where
  called : ∀ m ∈ sent, ∀ id, T.label m = some (.request id) → x.Asked id ∧ T.Called id m
  requests_once : (requestIds T.label sent).Nodup
  answers : (sent.filter fun m => ((T.label m).bind Tag.responseId).isSome).Perm (x.handled.filterMap Prod.snd)
  addressed : ∀ frame m, (frame, some m) ∈ x.handled → ∃ id, T.tag frame = .request id ∧ T.label m = some (.response id)
  handled : x.handled.map Prod.fst = x.queue.received.filter fun frame => (T.tag frame).requestId.isSome
  receiving : x.reader = .receiving → x.queue.sent = T.dispatchable received
  holding : ∀ m, x.reader = .holding m → ∃ done, received = done ++ [m] ∧ x.queue.sent = T.dispatchable done
  ended : x.reader = .ended → x.queue.sent <+: T.dispatchable received
  given : ∀ id r, x.Given id r → ∃ m ∈ received, T.label m = some (.response id) ∧ T.Holds m r

/-- Before anything has happened. -/
structure Fresh (x : Exchange β φ ι ρ) : Prop where
  given : ∀ id r, ¬ x.Given id r
  reader : x.reader = .receiving
  queue : x.queue = .empty
  handled : x.handled = []

variable {T} {sent received : List β}

theorem Fresh.promise (h : x.Fresh) : x.Promise T [] [] := by
  obtain ⟨hgiven, hreader, hqueue, hhandled⟩ := h
  refine ⟨by simp, List.nodup_nil, by simp [hhandled], by simp [hhandled], by simp [hhandled, hqueue], ?_, ?_, ?_, ?_⟩
  · intro _
    rw [hqueue]
    rfl
  · rw [hreader]
    nofun
  · rw [hreader]
    nofun
  · exact fun id r hr => absurd hr (hgiven id r)

theorem dispatchable_concat (received : List β) (m : β) :
    T.dispatchable (received ++ [m]) = T.dispatchable received ++
      ((T.decode m).filter fun frame => (T.tag frame).responseId.isNone).toList := by
  unfold Terms.dispatchable
  rw [List.filterMap_append, List.filter_append, List.append_cancel_left_eq]
  cases hdecode : T.decode m with
  | none => simp [hdecode]
  | some frame => by_cases htag : (T.tag frame).responseId = none <;> simp [hdecode, htag, Option.filter]

theorem dispatchable_prefix (received : List β) (m : β) :
    T.dispatchable received <+: T.dispatchable (received ++ [m]) := by
  rw [dispatchable_concat]
  exact List.prefix_append _ _

theorem requestIds_concat (sent : List β) (m : β) :
    requestIds T.label (sent ++ [m]) = requestIds T.label sent ++ ((T.label m).bind Tag.requestId).toList := by
  unfold requestIds
  rw [List.filterMap_append, List.filterMap_append, List.append_cancel_left_eq]
  cases hlabel : T.label m with
  | none => simp [hlabel]
  | some tag => cases htag : tag.requestId <;> simp [hlabel, htag]

/-- One more message that is no request and no response. -/
theorem Promise.silent (h : x.Promise T sent received) {m : β} (hlabel : T.label m = some .event) :
    x.Promise T (sent ++ [m]) received where
  called m' hm' id hid := by
    rcases List.mem_append.mp hm' with hm' | hm'
    · exact h.called m' hm' id hid
    · obtain rfl := List.mem_singleton.mp hm'
      rw [hlabel] at hid
      cases hid
  requests_once := by
    rw [requestIds_concat, hlabel]
    simpa [Tag.requestId] using h.requests_once
  answers := by
    rw [List.filter_append]
    simpa [hlabel, Tag.responseId] using h.answers
  addressed := h.addressed
  handled := h.handled
  receiving := h.receiving
  holding := h.holding
  ended := h.ended
  given := h.given

/-- One more request, of a call that has sent none. -/
theorem Promise.push (h : x.Promise T sent received) {id : ι} {m : β} {asked : ι → Prop} (hunasked : ¬ x.Asked id)
    (hcalled : T.Called id m) (hlabel : T.label m = some (.request id)) (hnow : ∀ j, asked j ↔ x.Asked j ∨ j = id) :
    ({ x with Asked := asked } : Exchange β φ ι ρ).Promise T (sent ++ [m]) received where
  called m' hm' j hj := by
    rcases List.mem_append.mp hm' with hm' | hm'
    · obtain ⟨hasked, hcalled'⟩ := h.called m' hm' j hj
      exact ⟨(hnow j).mpr (.inl hasked), hcalled'⟩
    · obtain rfl := List.mem_singleton.mp hm'
      obtain rfl : id = j := by simpa [hlabel] using hj
      exact ⟨(hnow id).mpr (.inr rfl), hcalled⟩
  requests_once := by
    rw [requestIds_concat, hlabel]
    refine List.nodup_append.mpr ⟨h.requests_once, by simp [Tag.requestId], ?_⟩
    intro j hj k hk
    obtain rfl : id = k := by simpa [Tag.requestId, eq_comm] using hk
    rintro rfl
    obtain ⟨m', hm', hlabel'⟩ := Party.mem_requestIds.1 hj
    exact hunasked (h.called m' hm' j hlabel').1
  answers := by
    rw [List.filter_append]
    simpa [hlabel, Tag.responseId] using h.answers
  addressed := h.addressed
  handled := h.handled
  receiving := h.receiving
  holding := h.holding
  ended := h.ended
  given := h.given

/-- The images of a list after an element was replaced by one with the same image. -/
theorem map_set_of_eq {α γ : Type} {f : α → γ} {l : List α} {n : ℕ} {a b : α} (hfound : l[n]? = some a) (hf : f b = f a) :
    (l.set n b).map f = l.map f := by
  obtain ⟨hlt, rfl⟩ := List.getElem?_eq_some_iff.mp hfound
  have hlt' : n < (l.map f).length := by simpa using hlt
  have hget : (l.map f)[n] = f l[n] := List.getElem_map f
  rw [List.map_set, hf, ← hget, List.set_getElem_self]

/-- A property of all elements of a list, after one of them was replaced. -/
theorem forall_mem_set {α : Type} {P : α → Prop} {l : List α} {n : ℕ} {a : α} (h : ∀ x ∈ l, P x) (ha : P a) :
    ∀ x ∈ l.set n a, P x := by
  intro x hx
  rcases List.mem_or_eq_of_mem_set hx with hx | rfl
  · exact h x hx
  · exact ha

/-- A response that was missing comes beside the others. -/
theorem filterMap_set {α γ : Type} {l : List (α × Option γ)} {n : ℕ} {a : α} {c : γ} (hfound : l[n]? = some (a, none)) :
    (l.filterMap Prod.snd ++ [c]).Perm ((l.set n (a, some c)).filterMap Prod.snd) := by
  induction l generalizing n with
  | nil => cases hfound
  | cons e l ih =>
    cases n with
    | zero =>
      obtain rfl := Option.some.inj hfound
      simp
    | succ n =>
      obtain ⟨b, d⟩ := e
      have hrest := ih (n := n) (by simpa using hfound)
      cases d with
      | none => simpa using hrest
      | some d => simpa using hrest.cons d

/-- One more response, to a request that has none. -/
theorem Promise.answer (h : x.Promise T sent received) {index : ℕ} {frame : φ} {id : ι} {m : β}
    (hfound : x.handled[index]? = some (frame, none)) (htag : T.tag frame = .request id)
    (hlabel : T.label m = some (.response id)) :
    ({ x with handled := x.handled.set index (frame, some m) } : Exchange β φ ι ρ).Promise T (sent ++ [m]) received where
  called m' hm' j hj := by
    rcases List.mem_append.mp hm' with hm' | hm'
    · exact h.called m' hm' j hj
    · obtain rfl := List.mem_singleton.mp hm'
      rw [hlabel] at hj
      cases hj
  requests_once := by
    rw [requestIds_concat, hlabel]
    simpa [Tag.requestId] using h.requests_once
  answers := by
    rw [List.filter_append]
    refine List.Perm.trans ?_ (filterMap_set hfound)
    simpa [hlabel, Tag.responseId] using h.answers.append_right [m]
  addressed frame' m' hmem := by
    rcases List.mem_or_eq_of_mem_set hmem with hmem | heq
    · exact h.addressed frame' m' hmem
    · obtain ⟨rfl, hm⟩ := Prod.ext_iff.mp heq
      obtain rfl := Option.some.inj hm
      exact ⟨id, htag, hlabel⟩
  handled := by
    have hfst : (x.handled.set index (frame, some m)).map Prod.fst = x.handled.map Prod.fst := map_set_of_eq hfound rfl
    exact hfst.trans h.handled
  receiving := h.receiving
  holding := h.holding
  ended := h.ended
  given := h.given

/-- Every move keeps the promise. -/
theorem Promise.of_moves (h : x.Promise T out.sent inc.received) (hmoves : x.Moves T out inc y out' inc') :
    y.Promise T out'.sent inc'.received := by
  cases hmoves with
  | still kept =>
    exact ⟨h.called, h.requests_once, h.answers, h.addressed, h.handled, h.receiving, h.holding, h.ended,
      fun id r hr => h.given id r (kept id r hr)⟩
  | push unasked called label now sent received =>
    rw [sent]
    exact h.push unasked called label now
  | notify label sent received =>
    rw [sent]
    exact h.silent label
  | answer found tag label sent received =>
    rw [sent]
    exact h.answer found tag label
  | @recv m inc₁ reader received sent =>
    rw [received]
    refine ⟨h.called, h.requests_once, h.answers, h.addressed, h.handled, nofun, ?_, nofun, ?_⟩
    · intro m' hm'
      cases hm'
      exact ⟨inc.received, rfl, h.receiving reader⟩
    · intro id r hr
      obtain ⟨m', hm', hholds⟩ := h.given id r hr
      exact ⟨m', List.mem_append_left _ hm', hholds⟩
  | ends =>
    refine ⟨h.called, h.requests_once, h.answers, h.addressed, h.handled, nofun, nofun, fun _ => ?_, h.given⟩
    cases hreader : x.reader with
    | receiving =>
      have hqueue := h.receiving hreader
      dsimp only
      rw [hqueue]
    | holding m =>
      obtain ⟨done, hdone, hsent⟩ := h.holding m hreader
      dsimp only
      rw [hdone, hsent]
      exact dispatchable_prefix done m
    | ended => exact h.ended hreader
  | drop reader decoded =>
    obtain ⟨done, hdone, hsent⟩ := h.holding _ reader
    refine ⟨h.called, h.requests_once, h.answers, h.addressed, h.handled, fun _ => ?_, nofun, nofun, h.given⟩
    rw [hdone, dispatchable_concat, decoded]
    simpa using hsent
  | @resolve m id given reader label now =>
    obtain ⟨done, hdone, hsent⟩ := h.holding m reader
    refine ⟨h.called, h.requests_once, h.answers, h.addressed, h.handled, fun _ => ?_, nofun, nofun, ?_⟩
    · rw [hdone, dispatchable_concat]
      obtain ⟨frame, hframe, htag⟩ := Option.map_eq_some_iff.mp label
      simpa [hframe, htag, Option.filter, Tag.responseId] using hsent
    · intro j r hr
      rcases now j r hr with hr | ⟨rfl, hholds⟩
      · exact h.given j r hr
      · exact ⟨m, by rw [hdone]; simp, label, hholds⟩
  | @dispatch m frame queue reader decoded tag sent received =>
    obtain ⟨done, hdone, hqueue⟩ := h.holding m reader
    refine ⟨h.called, h.requests_once, h.answers, h.addressed, ?_, fun _ => ?_, nofun, nofun, h.given⟩
    · dsimp only
      rw [received]
      exact h.handled
    · dsimp only
      rw [sent, hqueue, hdone, dispatchable_concat, decoded]
      simp [Option.filter, tag]
  | @take frame queue received sent =>
    have hanswers : (x.handled ++ entry T frame).filterMap Prod.snd = x.handled.filterMap Prod.snd := by
      unfold entry
      rw [List.filterMap_append]
      split_ifs <;> simp
    refine ⟨h.called, h.requests_once, by rw [hanswers]; exact h.answers, ?_, ?_, ?_, ?_, ?_, h.given⟩
    · intro frame' m hmem
      rcases List.mem_append.mp hmem with hmem | hmem
      · exact h.addressed frame' m hmem
      · unfold entry at hmem
        split_ifs at hmem
        · simp at hmem
        · cases hmem
    · dsimp only
      rw [received, List.filter_append, List.map_append, h.handled]
      unfold entry
      split_ifs with hrequest <;> simp [hrequest]
    · simpa only [sent] using h.receiving
    · simpa only [sent] using h.holding
    · simpa only [sent] using h.ended
  | discard =>
    exact ⟨h.called, h.requests_once, h.answers, h.addressed, h.handled, h.receiving, h.holding, h.ended, h.given⟩

/-- A move only sends on the wire out, and only receives on the other. -/
theorem Moves.ends_eq (hmoves : x.Moves T out inc y out' inc') : inc'.sent = inc.sent ∧ out'.received = out.received := by
  cases hmoves with
  | push unasked called label now sent received => exact ⟨rfl, received⟩
  | notify label sent received => exact ⟨rfl, received⟩
  | answer found tag label sent received => exact ⟨rfl, received⟩
  | recv reader received sent => exact ⟨sent, rfl⟩
  | still | ends | drop | resolve | dispatch | take | discard => exact ⟨rfl, rfl⟩

/-- What has been taken from the queue is what was received, in this order. -/
theorem Promise.in_order (h : x.Promise T sent received) : x.queue.received <+: T.dispatchable received := by
  refine x.queue.received_isPrefix.trans ?_
  cases hreader : x.reader with
  | receiving => rw [h.receiving hreader]
  | holding m =>
    obtain ⟨done, hdone, hsent⟩ := h.holding m hreader
    rw [hdone, hsent]
    exact dispatchable_prefix done m
  | ended => exact h.ended hreader

/-- What is seen of such an endpoint, where the calls have returned some of the responses that they were given. -/
def view (T : Terms β φ ι ρ) (x : Exchange β φ ι ρ) (Returned : ι → ρ → Prop) : View β φ ι ρ where
  Called id m := x.Asked id ∧ T.Called id m
  Returned := Returned
  taken := x.queue.received
  handled := x.handled

theorem Promise.meets (h : x.Promise T sent received) {Returned : ι → ρ → Prop}
    (hreturned : ∀ id r, Returned id r → x.Given id r) :
    (x.view T Returned).Meets T.decode T.tag T.Holds sent received where
  requests_once := h.requests_once
  called := h.called
  in_order := h.in_order
  handled := h.handled
  answers := h.answers
  addressed := h.addressed
  returned id r hr := h.given id r (hreturned id r hr)

/-- A program that makes the moves of such an endpoint: its states, of which an invariant `Own` holds, are abstracted to
those of the endpoint. -/
structure Refines (A : Endpoint β) (T : Terms β φ ι ρ) (abs : A.State → Exchange β φ ι ρ)
    (Returned : A.State → ι → ρ → Prop) (Own : A.State → Prop) : Prop where
  own : Own A.initial
  fresh : (abs A.initial).Fresh
  step : ∀ {s t out inc action out' inc'}, Own s → A.step s out inc action = some (t, out', inc') →
    Own t ∧ (abs s).Moves T out inc (abs t) out' inc'
  returned : ∀ s, Own s → ∀ id r, Returned s id r → (abs s).Given id r

/-- The program is a party. -/
def party {A : Endpoint β} {abs : A.State → Exchange β φ ι ρ} {Returned : A.State → ι → ρ → Prop} {Own : A.State → Prop}
    (h : Refines A T abs Returned Own) : Party β ι where
  toEndpoint := A
  Frame := φ
  Response := ρ
  decode := T.decode
  tag := T.tag
  Holds := T.Holds
  view s := (abs s).view T (Returned s)
  Promise s sent received := Own s ∧ (abs s).Promise T sent received
  keeps :=
    { initial := ⟨h.own, h.fresh.promise⟩
      step := fun ⟨hown, hpromise⟩ hstep =>
        have ⟨hown', hmoves⟩ := h.step hown hstep
        ⟨⟨hown', hpromise.of_moves hmoves⟩, hmoves.ends_eq⟩ }
  meets s _ _ := fun ⟨hown, hpromise⟩ => hpromise.meets (h.returned s hown)

end Exchange

end Rtvbp.Lib
