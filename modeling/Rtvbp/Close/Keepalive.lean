import Rtvbp.Go.Supervise
import Rtvbp.Go.WebSocket
import Rtvbp.Lib.Heartbeat
import Rtvbp.Rust.Session.Run
import Rtvbp.Rust.WebSocket

/-! # The keepalive monitors -/

/-!
## The keepalive monitor

`MonitorKeepalive` of `sdk/go/transport/ws/semantic_transport.go` with all that decides its verdict: the pongs
with their payloads, the buffer they wait in, the two places that throw them away, and the misses. The rest of
the transport is the environment of the monitor. The two timers and the choice of a `select` are in the schedule.
-/

namespace Rtvbp.Go.Keepalive

open Rtvbp.Lib
open Rtvbp.Go.Supervise
open Rtvbp.Go.WebSocket

variable {ε : Type}

/-- The payload of a ping; a Go string is a sequence of bytes. -/
def payload (pingSerial : BitVec 64) : Bytes := numberedPayload "rtvbp:" pingSerial

/-- Where `MonitorKeepalive` returns, besides the timeout. -/
inductive Exit (ε : Type) where
  /-- The policy is not valid. -/
  | invalid (message : String)
  | disabled
  /-- `ctx.Done()`. -/
  | canceled (err : Err ε)
  /-- `t.done`, with the terminal error. -/
  | done (terminal : Option (Err ε))
  /-- The error of `enqueueAcknowledged`. -/
  | refused (err : Err ε)
  deriving DecidableEq

/-- What `MonitorKeepalive` returns; the text is that of an error of `Validate`. -/
def Exit.result : Exit ε → Option (String ⊕ Err ε)
  | invalid message => some (.inl message)
  | disabled => none
  | canceled err => some (.inr err)
  | done terminal => (keepaliveCloseResult terminal).map .inr
  | refused err => some (.inr err)

/-- The checks before the token of the monitor is taken. -/
def check (policy : KeepalivePolicy) : Option (Exit ε) :=
  match policy.validate with
  | some message => some (.invalid message)
  | none => if !policy.enabled then some .disabled else none

/-- `MonitorKeepalive` under a policy. It is left in each `select`, and by an error of `enqueueAcknowledged`. A
ping that finds the outgoing queue closed after an orderly end is no error there, and the monitor goes on to wait
for the pong. -/
def monitorKeepalive (policy : KeepalivePolicy) : Heartbeat Bytes (Exit ε) where
  payload := payload
  capacity := some 64
  maxMisses := policy.maxMisses
  refused := check policy
  leaves
    | .entering, .canceled _ | .idle, .canceled _ | .waiting, .canceled _ => true
    | .entering, .done _ | .idle, .done _ | .waiting, .done _ => true
    | .writing, .refused _ => true
    | _, _ => false

theorem check_eq_none_iff {policy : KeepalivePolicy} :
    (check policy : Option (Exit ε)) = none ↔ policy.enabled = true ∧ policy.validate = none := by
  unfold check
  cases hvalidate : policy.validate with
  | some message => simp
  | none => cases policy.enabled <;> simp

/-- A policy that the monitor starts with has a positive number of misses. -/
theorem maxMisses_pos {policy : KeepalivePolicy} (henabled : policy.enabled = true)
    (hvalid : policy.validate = none) : 0 < policy.maxMisses := by
  unfold KeepalivePolicy.validate at hvalid
  rw [henabled] at hvalid
  split_ifs at hvalid with _ _ hmisses
  · contradiction
  · omega

end Rtvbp.Go.Keepalive

/-!
## The keepalive monitor of the Rust SDK

`monitor_keepalive` of `sdk/rust/src/transport/ws.rs` with all that decides its verdict. The buffer of the pongs
is not bounded, and its sender lives as long as the transport. The monitor takes the receiver and never gives it
back, so that a transport has one monitor at most.
-/

namespace Rtvbp.Rust.Keepalive

open Rtvbp.Lib
open Rtvbp.Rust.Run (KeepalivePolicy)
open Rtvbp.Rust.WebSocket

/-- The payload of a ping. -/
def payload (pingSerial : BitVec 64) : Bytes := numberedPayload "rtvbp:" pingSerial

/-- Where `monitor_keepalive` returns, besides the timeout. -/
inductive Exit where
  /-- The policy is not valid. -/
  | invalid (error : Run.Error)
  | disabled
  | alreadyRunning
  /-- `wait_closed`. -/
  | closed (terminal : Terminal)
  /-- The error of `enqueue_acknowledged`, with the terminal state if there is one. -/
  | refused (error : Run.Error) (terminal : Option Terminal)
  deriving DecidableEq

/-- What `monitor_keepalive` returns. -/
def Exit.result : Exit → Except Run.Error Unit
  | invalid error => .error error
  | disabled => .ok ()
  | alreadyRunning => .error (.configuration "keepalive monitor already running")
  | closed terminal => terminal.result
  | refused error terminal => terminal.elim (.error error) Terminal.result

/-- The checks before the receiver of the pongs is taken. -/
def check (policy : KeepalivePolicy) : Option Exit :=
  match policy.validate with
  | .error error => some (.invalid error)
  | .ok () => if !policy.enabled then some .disabled else none

/-- `monitor_keepalive` under a policy. -/
def monitorKeepalive (policy : KeepalivePolicy) : Heartbeat Bytes Exit where
  payload := payload
  capacity := none
  maxMisses := policy.maxMisses
  refused := check policy
  leaves
    | .entering, .alreadyRunning => true
    | .idle, .closed _ | .writing, .closed _ | .waiting, .closed _ => true
    | .writing, .refused _ _ => true
    | _, _ => false

theorem check_eq_none_iff {policy : KeepalivePolicy} :
    check policy = none ↔ policy.enabled = true ∧ policy.validate = .ok () := by
  unfold check
  cases hvalidate : policy.validate with
  | error error => simp
  | ok _ => cases policy.enabled <;> simp

/-- A policy that the monitor starts with has a positive number of misses. -/
theorem maxMisses_pos {policy : KeepalivePolicy} (henabled : policy.enabled = true)
    (hvalid : policy.validate = .ok ()) : 0 < policy.maxMisses := by
  unfold KeepalivePolicy.validate at hvalid
  rw [henabled] at hvalid
  split_ifs at hvalid with _ _ _ hmisses
  · contradiction
  · exact Nat.pos_of_ne_zero hmisses

end Rtvbp.Rust.Keepalive

/-!
## The verdict of the keepalive monitors

For every policy and every run, with the intervals, the deadlines and the pongs in any order, both monitors time
out exactly when each of the last pings, as many as the policy allows misses, had no pong with its own payload
before its deadline.
-/

namespace Rtvbp.Close

open Rtvbp.Lib

theorem go_keepalive_exact {ε : Type} {policy : Go.Supervise.KeepalivePolicy}
    {s t : Heartbeat.State Go.WebSocket.Bytes (Go.Keepalive.Exit ε)}
    {ls : List (Heartbeat.Action Go.WebSocket.Bytes (Go.Keepalive.Exit ε))}
    (hs : (Go.Keepalive.monitorKeepalive policy).machine.Start s)
    (h : (Go.Keepalive.monitorKeepalive policy).machine.exec s ls = some t) :
    (Go.Keepalive.monitorKeepalive policy).Exact ls t := by
  refine Heartbeat.exact_of_exec ?_ (numberedPayload_injective _) hs h
  intro hstart
  obtain ⟨henabled, hvalid⟩ := Go.Keepalive.check_eq_none_iff.1 hstart
  exact Go.Keepalive.maxMisses_pos henabled hvalid

theorem rust_keepalive_exact {policy : Rust.Run.KeepalivePolicy}
    {s t : Heartbeat.State Rust.WebSocket.Bytes Rust.Keepalive.Exit}
    {ls : List (Heartbeat.Action Rust.WebSocket.Bytes Rust.Keepalive.Exit)}
    (hs : (Rust.Keepalive.monitorKeepalive policy).machine.Start s)
    (h : (Rust.Keepalive.monitorKeepalive policy).machine.exec s ls = some t) :
    (Rust.Keepalive.monitorKeepalive policy).Exact ls t := by
  refine Heartbeat.exact_of_exec ?_ (numberedPayload_injective _) hs h
  intro hstart
  obtain ⟨henabled, hvalid⟩ := Rust.Keepalive.check_eq_none_iff.1 hstart
  exact Int.natCast_pos.mpr (Rust.Keepalive.maxMisses_pos henabled hvalid)

/-- The verdicts of both monitors are exact. In every run of a monitor it times out if and only if its policy is
enabled and valid and the last pings, as many as the allowed misses, were all missed; two pings have the same
payload only if their numbers are the same modulo the range of the serial; and after a pong that matches there is
no miss. -/
theorem keepalive_verdict_exact {ε : Type} :
    (∀ (policy : Go.Supervise.KeepalivePolicy) s t
      (ls : List (Heartbeat.Action Go.WebSocket.Bytes (Go.Keepalive.Exit ε))),
      (Go.Keepalive.monitorKeepalive policy).machine.Start s →
      (Go.Keepalive.monitorKeepalive policy).machine.exec s ls = some t →
      (t.phase = .timedOut ↔ (policy.enabled = true ∧ policy.validate = none) ∧
        LastMissed policy.maxMisses.toNat (Heartbeat.windows ls)) ∧
      (∀ i j w v, (Heartbeat.windows ls)[i]? = some w → (Heartbeat.windows ls)[j]? = some v →
        (w.payload = v.payload ↔ i ≡ j [MOD 2 ^ 64])) ∧
      (∀ w earlier, Heartbeat.windows ls = w :: earlier → w.payload ∈ w.pongs → t.misses = 0)) ∧
    (∀ (policy : Rust.Run.KeepalivePolicy) s t (ls : List (Heartbeat.Action Rust.WebSocket.Bytes Rust.Keepalive.Exit)),
      (Rust.Keepalive.monitorKeepalive policy).machine.Start s →
      (Rust.Keepalive.monitorKeepalive policy).machine.exec s ls = some t →
      (t.phase = .timedOut ↔ (policy.enabled = true ∧ policy.validate = .ok ()) ∧
        LastMissed policy.maxMisses (Heartbeat.windows ls)) ∧
      (∀ i j w v, (Heartbeat.windows ls)[i]? = some w → (Heartbeat.windows ls)[j]? = some v →
        (w.payload = v.payload ↔ i ≡ j [MOD 2 ^ 64])) ∧
      (∀ w earlier, Heartbeat.windows ls = w :: earlier → w.payload ∈ w.pongs → t.misses = 0)) := by
  constructor
  · intro policy s t ls hs h
    obtain ⟨hverdict, hpayloads, hreset⟩ := go_keepalive_exact hs h
    refine ⟨?_, hpayloads, hreset⟩
    rw [hverdict, ← Go.Keepalive.check_eq_none_iff (ε := ε)]
    rfl
  · intro policy s t ls hs h
    obtain ⟨hverdict, hpayloads, hreset⟩ := rust_keepalive_exact hs h
    refine ⟨?_, hpayloads, hreset⟩
    rw [hverdict, ← Rust.Keepalive.check_eq_none_iff]
    rfl

/-- Every deadline passes without the pong of its ping; the second ping gets the pong of the first. -/
def latePongSchedule {ρ : Type} : List (Heartbeat.Action Go.WebSocket.Bytes ρ) :=
  [.enter, .interval, .ping (numberedPayload "rtvbp:" 1), .written, .expire,
    .interval, .ping (numberedPayload "rtvbp:" 2), .deliver (numberedPayload "rtvbp:" 1), .written,
    .read (numberedPayload "rtvbp:" 1), .expire]

theorem latePong_timedOut :
    ((Go.Keepalive.monitorKeepalive (ε := Empty) ⟨1, 1, 2⟩).machine.exec ⟨.entering, 0, 0, []⟩
      latePongSchedule).map (·.phase) = some .timedOut ∧
    ((Rust.Keepalive.monitorKeepalive ⟨1, 1, 2⟩).machine.exec ⟨.entering, 0, 0, []⟩
      latePongSchedule).map (·.phase) = some .timedOut ∧
    LastMissed 2 (Heartbeat.windows (latePongSchedule (ρ := Rust.Keepalive.Exit))) := by
  have hgo : (Go.Keepalive.monitorKeepalive (ε := Empty) ⟨1, 1, 2⟩).machine.exec ⟨.entering, 0, 0, []⟩
      latePongSchedule = some ⟨.timedOut, 2, 2, []⟩ := by decide
  have hrust : (Rust.Keepalive.monitorKeepalive ⟨1, 1, 2⟩).machine.exec ⟨.entering, 0, 0, []⟩
      latePongSchedule = some ⟨.timedOut, 2, 2, []⟩ := by decide
  have hexact := keepalive_verdict_exact (ε := Empty)
  have hgoMissed := (hexact.1 ⟨1, 1, 2⟩ _ _ _ ⟨rfl, rfl⟩ hgo).1.mp rfl
  have hrustMissed := (hexact.2 ⟨1, 1, 2⟩ _ _ _ ⟨rfl, rfl⟩ hrust).1.mp rfl
  rw [hgo, hrust]
  exact ⟨rfl, rfl, hrustMissed.2⟩

end Rtvbp.Close
