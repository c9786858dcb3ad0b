import Mathlib.Tactic
import Rtvbp.Lib.Threads
import Rtvbp.Rust.Error

/-!
# The connection outcome of the WebRTC transport

`handle_connection_state`, `set_connection` and `wait_connected` of `sdk/rust/src/transport/webrtcws/mod.rs`. A call of
`wait_connected` is a thread, and the peer is the environment. A `Notified` receives the calls of `notify_waiters` that
are made after its creation: a generation counts these calls.
-/

namespace Rtvbp.Rust.WebRtc

open Rtvbp.Lib

/-- `RTCPeerConnectionState`. -/
inductive PeerState where
  | unspecified
  | new
  | connecting
  | connected
  | disconnected
  | failed
  | closed

/-- The result of `connection`. -/
abbrev Outcome := Except String Unit

/-- The outcome that a state of the peer is reported as. -/
def PeerState.outcome? : PeerState → Option Outcome
  | .connected => some (.ok ())
  | .failed => some (.error "WebRTC peer connection failed")
  | .closed => some (.error "WebRTC peer connection closed")
  | _ => none

/-- What the calls and the peer share. -/
structure Shared where
  connection : Option Outcome
  generation : Nat
  /-- `set_connection` has stored an outcome and not called `notify_waiters` yet. -/
  notifying : Bool

/-- A call of `wait_connected`. -/
inductive Call where
  | idle
  /-- At the head of the loop, before the lock with a `Notified` of a generation, and in `notified.await`. -/
  | waiting
  | noted (generation : Nat)
  | parked (generation : Nat)
  | returned (result : Except Error Unit)

inductive CallAction where
  | wait
  | note
  | lock
  | wake

inductive EnvAction where
  /-- `set_connection` up to the notification, for a state of the peer. -/
  | state (state : PeerState)
  | notify

/-- The outcome as the result of a call. -/
def Outcome.result (outcome : Outcome) : Except Error Unit := outcome.mapError .transport

/-- One step of a call. -/
def act (_ : Nat) (s : Shared) (c : Call) (a : CallAction) : Option (Shared × Call) :=
  match c, a with
  | .idle, .wait => some (s, .waiting)
  | .waiting, .note => some (s, .noted s.generation)
  | .noted generation, .lock =>
    match s.connection with
    | some outcome => some (s, .returned (Outcome.result outcome))
    | none => some (s, .parked generation)
  | .parked generation, .wake => if generation = s.generation then none else some (s, .waiting)
  | _, _ => none

/-- One step of the peer. -/
def env (s : Shared) : EnvAction → Option Shared
  | .state state =>
    match state.outcome?, s.connection with
    | some outcome, none => some { s with connection := some outcome, notifying := true }
    | _, _ => some s
  | .notify => if s.notifying then some { s with generation := s.generation + 1, notifying := false } else none

def threads : Threads Nat Shared Call CallAction EnvAction where
  Start s := s.connection = none ∧ s.notifying = false
  new _ := .idle
  act := act
  env := env

/-- A transport with its calls. -/
abbrev State := Threads.State Nat Shared Call

/-- Once an outcome is reported, no call is parked that has not been notified and will not be, and a call that has
returned has returned the outcome. -/
structure State.Sticky (s : State) : Prop where
  awake : s.shared.connection ≠ none → ∀ i generation, s.locals i = .parked generation →
    generation < s.shared.generation ∨ s.shared.notifying = true
  same : ∀ i result, s.locals i = .returned result →
    ∃ outcome, s.shared.connection = some outcome ∧ result = Outcome.result outcome

end Rtvbp.Rust.WebRtc

/-!
## Proofs: the connection outcome of the WebRTC transport

The outcome is stored before the waiters are notified, and a call that finds none is parked with a generation from
before it looked.
-/

namespace Rtvbp.Rust.WebRtc

open Rtvbp.Lib

variable {i j : Nat} {s t : Shared} {c c' m : Call} {a : CallAction}

/-- The part of a call. -/
structure Call.Settled (s : Shared) (c : Call) : Prop where
  noted : ∀ generation, c = .noted generation → generation ≤ s.generation
  parked : ∀ generation, c = .parked generation → generation ≤ s.generation
  awake : s.connection ≠ none → ∀ generation, c = .parked generation →
    generation < s.generation ∨ s.notifying = true
  same : ∀ result, c = .returned result → ∃ outcome, s.connection = some outcome ∧ result = Outcome.result outcome

theorem act_settled (hc : c.Settled s) (h : act i s c a = some (t, c')) : t = s ∧ c'.Settled s := by
  unfold act at h
  split at h
  case h_1 =>
    cases h
    exact ⟨rfl, by simp, by simp, by simp, by simp⟩
  case h_2 =>
    cases h
    exact ⟨rfl, by simp, by simp, by simp, by simp⟩
  case h_3 generation =>
    split at h
    next outcome houtcome =>
      cases h
      exact ⟨rfl, by simp, by simp, by simp, by simp [houtcome]⟩
    next hnone =>
      cases h
      have hle : generation ≤ s.generation := hc.noted generation rfl
      exact ⟨rfl, by simp, by simpa using hle, by simp [hnone], by simp⟩
  case h_4 generation =>
    split at h
    · cases h
    · cases h
      exact ⟨rfl, by simp, by simp, by simp, by simp⟩
  case h_5 => cases h

theorem env_settled {e : EnvAction} (hm : m.Settled s) (h : env s e = some t) : m.Settled t := by
  unfold env at h
  split at h
  · split at h
    next outcome hnone =>
      cases h
      refine ⟨hm.noted, hm.parked, fun _ _ _ => .inr rfl, fun result hresult => ?_⟩
      obtain ⟨other, hother, -⟩ := hm.same result hresult
      rw [hnone] at hother
      cases hother
    · cases h
      exact hm
  · split at h
    · cases h
      refine ⟨fun generation heq => ?_, fun generation heq => ?_, fun _ generation heq => ?_, hm.same⟩
      · exact Nat.le_succ_of_le (hm.noted generation heq)
      · exact Nat.le_succ_of_le (hm.parked generation heq)
      · exact .inl (Nat.lt_succ_of_le (hm.parked generation heq))
    · cases h

/-- In every state that the calls and the peer can reach, the outcome is sticky. -/
theorem sticky_reachable (s : State) (h : threads.machine.Reachable s) : s.Sticky := by
  have hholds : Threads.Holds (fun _ => True) (fun _ => Call.Settled) s := by
    refine Threads.reachable_invariant (P := threads) (J := fun _ => Call.Settled) ?_ ?_ ?_ h
    · intro s hs
      exact ⟨trivial, fun i => ⟨by simp [threads], by simp [threads], by simp [threads], by simp [threads]⟩⟩
    · intro i s c a t c' _ hc hact
      obtain ⟨rfl, hc'⟩ := act_settled (i := i) hc hact
      exact ⟨trivial, hc', fun j m _ hm => hm⟩
    · intro s e t _ henv
      exact ⟨trivial, fun j m hm => env_settled hm henv⟩
  exact ⟨fun hreported i generation hparked => (hholds.2 i).awake hreported generation hparked,
    fun i result hreturned => (hholds.2 i).same result hreturned⟩

end Rtvbp.Rust.WebRtc
