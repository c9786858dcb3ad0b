import Rtvbp.TypeScript.QueueMachine
import Rtvbp.TypeScript.MediaFormat
import Rtvbp.TypeScript.Proofs.QueueMachineProofs

/-!
# Opening media on a memory transport

`openMedia`, `acceptMedia` and `close` of `MemoryTransport` of `sdk/typescript/src/memory.ts` on the two ends of a
pair. The queues of accepted media are those of `AsyncQueue`; a value that is offered to one is the id of the remote
channel of a call of `openMedia`, and the number of its push tells the calls of an end apart.
-/

namespace Rtvbp.TypeScript.MemoryTransport

open Rtvbp.Lib
open Rtvbp.TypeScript.WebSocket (Thrown)

/-! ## The state -/

/-- `#side`. -/
abbrev Side := Fin 2

/-- `this.#side === 0 ? 1 : 0`. -/
def Side.peer (side : Side) : Side := if side = 0 then 1 else 0

/-- One of the two channels that a call of `openMedia` makes. -/
structure Media where
  opener : Side
  call : Nat
  isRemote : Bool
  deriving DecidableEq

/-- The link and the two ends. -/
structure State where
  closed : Bool
  /-- `mediaAccept`. -/
  mediaAccept : Side → QueueMachine.State String
  media : List Media
  /-- `#opened` of either end. -/
  opened : Side → List String

/-- The calls, and the aborts of calls that wait. -/
inductive Action where
  | openMedia (side : Side) (id : String) (format : MediaFormat) (aborted : Bool)
  | acceptMedia (side : Side) (aborted : Bool)
  | abortOpen (side : Side) (call : Nat)
  | abortAccept (side : Side) (call : Nat)
  | close

/-- `pair`. -/
def pair : State where
  closed := false
  mediaAccept _ := QueueMachine.new
  media := []
  opened _ := []

/-! ## The operations -/

/-- The checks of `openMedia`. -/
def checkOpen (round : ℚ → ℚ) (s : State) (side : Side) (id : String) (format : MediaFormat) : Except Thrown Unit :=
  if id.length = 0 then .error (.session "configuration" "media id is required")
  else
    match mediaFrameBytes round format with
    | .error thrown => .error thrown
    | .ok _ =>
      if s.closed then .error (.session "closed" "memory transport is closed")
      else if id ∈ s.opened side then .error (.session "media_duplicate" ("media '" ++ id ++ "' is already open"))
      else .ok ()

/-- A queue takes a step. -/
def State.setAccept (s : State) (side : Side) (queue : QueueMachine.State String) : State :=
  { s with mediaAccept := Function.update s.mediaAccept side queue }

/-- What `openMedia` notes down before it pushes. -/
def State.note (s : State) (side : Side) (id : String) : State :=
  let call := (s.mediaAccept side.peer).calls
  { s with
    opened := Function.update s.opened side (s.opened side ++ [id])
    media := s.media ++ [⟨side, call, false⟩, ⟨side, call, true⟩] }

/-- A step of the queue in which the calls of an end wait to be accepted. -/
def queueStep (capacity : Nat) (s : State) (side : Side) (a : QueueMachine.Action String) : Option State :=
  (QueueMachine.step capacity (s.mediaAccept side) a).map (s.setAccept side)

/-- One step. -/
def step (round : ℚ → ℚ) (capacity : Nat) (s : State) : Action → Option State
  | .openMedia side id format aborted =>
    match checkOpen round s side id format with
    | .error _ => some s
    | .ok _ => queueStep capacity (s.note side id) side.peer (.push id aborted)
  | .acceptMedia side aborted => if s.closed then some s else queueStep capacity s side (.shift aborted)
  | .abortOpen side call => queueStep capacity s side.peer (.abortPush call)
  | .abortAccept side call => queueStep capacity s side (.abortShift call)
  | .close =>
    if s.closed then some s
    else some { s with closed := true, mediaAccept := fun side => QueueMachine.close (s.mediaAccept side) }

/-- The pairs of a capacity. -/
def machine (round : ℚ → ℚ) (capacity : Nat) : Machine State Action where
  Start s := s = pair
  step := step round capacity

/-! ## What is asked of a run -/

/-- The calls of `openMedia` of an end that came past the checks. -/
def State.opening (s : State) (side : Side) : List (QueueMachine.Offer String) := (s.mediaAccept side.peer).offered

/-- Such a call was rejected. -/
def State.Rejected (s : State) (side : Side) (call : Nat) : Prop :=
  ∃ o ∈ (s.mediaAccept side.peer).refused, o.call = call

/-- The ids and the channels are those of the calls that were not rejected, and no channel of a call that was
rejected has been accepted. -/
structure State.Atomic (s : State) : Prop where
  opened : ∀ side id, id ∈ s.opened side ↔ ∃ o ∈ s.opening side, o.value = id ∧ ¬ s.Rejected side o.call
  media : ∀ m : Media, m ∈ s.media ↔ ∃ o ∈ s.opening m.opener, o.call = m.call ∧ ¬ s.Rejected m.opener o.call
  accepted : ∀ side : Side, ∀ r ∈ (s.mediaAccept side.peer).returned, ¬ s.Rejected side r.2.call

/-- The step does not make a call of `openMedia` fail that has come past the checks: its signal is not aborted,
neither before nor while it waits, and the pair is not closed while it waits. -/
def Undisturbed (round : ℚ → ℚ) (s : State) : Action → Prop
  | .openMedia side id format aborted => (checkOpen round s side id format).isOk → aborted = false
  | .abortOpen _ _ => False
  | .close => s.closed = true ∨ ∀ side, (s.mediaAccept side).writers = []
  | _ => True

instance (round : ℚ → ℚ) (s : State) : (a : Action) → Decidable (Undisturbed round s a)
  | .openMedia side id format aborted =>
    inferInstanceAs (Decidable ((checkOpen round s side id format).isOk → aborted = false))
  | .abortOpen _ _ => inferInstanceAs (Decidable False)
  | .close => inferInstanceAs (Decidable (s.closed = true ∨ ∀ side, (s.mediaAccept side).writers = []))
  | .acceptMedia _ _ | .abortAccept _ _ => inferInstanceAs (Decidable True)

end Rtvbp.TypeScript.MemoryTransport

/-!
## Opening media is atomic unless an opened call fails

Every call of `openMedia` that comes past the checks adds its id and its two channels, and nothing takes them away.
The ids and the channels are therefore those of the calls that succeed or wait exactly as long as none of these calls
is rejected.
-/

namespace Rtvbp.TypeScript.QueueMachine

variable {α : Type} {s t : State α} {o : Offer α} {capacity : Nat}

/-! ### What a step of a queue offers and refuses -/

/-- An operation neither offers nor refuses a value, and it does not close the queue. -/
structure Leaves (s t : State α) : Prop where
  offered : t.offered = s.offered
  refused : t.refused = s.refused
  closed : t.closed = s.closed

theorem leaves_place (h : s.place capacity o = some t) : Leaves s t := by
  unfold State.place at h
  split at h
  · cases h
    exact ⟨rfl, rfl, rfl⟩
  · split at h
    · cases h
      exact ⟨rfl, rfl, rfl⟩
    · cases h

/-- A push that is not aborted at an open queue refuses nothing. -/
theorem leaves_push (capacity : Nat) (o : Offer α) (hopen : s.closed = false) : Leaves s (push capacity s o false) := by
  unfold push
  rw [if_neg Bool.false_ne_true, if_neg (by simp [hopen])]
  split
  next t ht => exact leaves_place ht
  next => exact ⟨rfl, rfl, rfl⟩

/-- Any push keeps what was offered before, and whether the queue is closed. -/
theorem push_keeps (capacity : Nat) (s : State α) (o : Offer α) (aborted : Bool) :
    (push capacity s o aborted).offered = s.offered ∧ (push capacity s o aborted).closed = s.closed := by
  by_cases haborted : aborted = true
  · rw [push, if_pos haborted]
    exact ⟨rfl, rfl⟩
  · obtain rfl : aborted = false := by simpa using haborted
    by_cases hclosed : s.closed = true
    · rw [push, if_neg haborted, if_pos hclosed]
      exact ⟨rfl, rfl⟩
    · have hleaves : Leaves s (push capacity s o false) := leaves_push capacity o (by simpa using hclosed)
      exact ⟨hleaves.offered, hleaves.closed⟩

theorem leaves_admitWriter : Leaves s (admitWriter s) := by
  unfold admitWriter
  split
  · split
    · exact ⟨rfl, rfl, rfl⟩
    · exact ⟨rfl, rfl, rfl⟩
  · split
    · exact ⟨rfl, rfl, rfl⟩
    · exact ⟨rfl, rfl, rfl⟩

theorem leaves_shift (s : State α) (call : Nat) (aborted : Bool) : Leaves s (shift s call aborted) := by
  unfold shift
  split
  · exact ⟨rfl, rfl, rfl⟩
  · split
    next o items hitems =>
      have hleaves : Leaves ({ s with items := items }.deliver call o) _ := leaves_admitWriter
      exact ⟨hleaves.offered, hleaves.refused, hleaves.closed⟩
    · exact ⟨rfl, rfl, rfl⟩
    · split
      · exact ⟨rfl, rfl, rfl⟩
      · exact ⟨rfl, rfl, rfl⟩

/-- What `close` refuses. -/
theorem close_spec (hopen : s.closed = false) :
    (close s).offered = s.offered ∧ (close s).refused = s.refused ++ s.writers ∧ (close s).closed = true := by
  rw [close, if_neg (by simp [hopen])]
  dsimp only
  split
  · exact ⟨rfl, rfl, rfl⟩
  · exact ⟨rfl, rfl, rfl⟩

/-- What the abort of a call of `push` does. -/
theorem abortPush_spec {call : Nat} (h : step capacity s (.abortPush call) = some t) :
    ∃ writer ∈ s.writers, t.offered = s.offered ∧ t.closed = s.closed ∧ t.refused = s.refused ++ [writer] := by
  simp only [step] at h
  split at h
  next writer hfind =>
    cases h
    exact ⟨writer, List.mem_of_find?_eq_some hfind, rfl, rfl, rfl⟩
  next => cases h

theorem leaves_abortShift {call : Nat} (h : step capacity s (.abortShift call) = some t) : Leaves s t := by
  simp only [step, Option.ite_none_right_eq_some, Option.some.injEq] at h
  obtain ⟨-, rfl⟩ := h
  exact ⟨rfl, rfl, rfl⟩

/-- A call that waits was offered. -/
theorem Accounts.mem_offered (h : Accounts s []) (ho : o ∈ s.writers ∨ o ∈ s.refused) : o ∈ s.offered := by
  rw [← Multiset.mem_coe, h.fates]
  simp only [Multiset.mem_add, Multiset.mem_coe]
  obtain hwriter | hrefused := ho
  · exact .inl (.inr hwriter)
  · exact .inl (.inl (.inl (.inr hrefused)))

/-- A value that was returned was not refused. -/
theorem Accounts.not_refused (h : Accounts s []) : ∀ r ∈ s.returned, ∀ x ∈ s.refused, r.2.call ≠ x.call := by
  intro r hr x hx
  have hdistinct := h.distinct
  simp only [List.map_append, List.nodup_append, List.mem_append] at hdistinct
  obtain ⟨⟨⟨⟨-, -, hrefused⟩, -, -⟩, -⟩, -⟩ := hdistinct
  have hvalue : r.2 ∈ s.values := List.mem_map_of_mem hr
  exact hrefused r.2.call (.inl (List.mem_map_of_mem hvalue)) x.call (List.mem_map_of_mem hx)

end Rtvbp.TypeScript.QueueMachine

namespace Rtvbp.TypeScript.MemoryTransport

open Rtvbp.Lib

variable {round : ℚ → ℚ} {capacity : Nat} {s t : State} {a : Action}

/-! ### The ends -/

@[simp] theorem Side.peer_peer (side : Side) : side.peer.peer = side := by
  revert side
  decide

theorem Side.peer_ne {side other : Side} (h : other ≠ side) : other.peer ≠ side.peer := by
  intro heq
  have hback := congrArg Side.peer heq
  rw [Side.peer_peer, Side.peer_peer] at hback
  exact h hback

/-- The ids and the channels are those of all calls that came past the checks. -/
structure Inv (capacity : Nat) (s : State) : Prop where
  queues : ∀ side, QueueMachine.Inv capacity (s.mediaAccept side)
  closed : ∀ side, (s.mediaAccept side).closed = s.closed
  opened : ∀ side id, id ∈ s.opened side ↔ ∃ o ∈ s.opening side, o.value = id
  media : ∀ m : Media, m ∈ s.media ↔ ∃ o ∈ s.opening m.opener, o.call = m.call

theorem inv_pair : Inv capacity pair where
  queues _ := QueueMachine.inv_new
  closed _ := rfl
  opened side id := by simp [pair, State.opening, QueueMachine.new]
  media m := by simp [pair, State.opening, QueueMachine.new]

/-- What holds of the queues and of the new queue holds of the queues after the step. -/
theorem forall_setAccept {P : QueueMachine.State String → Prop} {side : Side} {queue : QueueMachine.State String}
    (h : ∀ other, P (s.mediaAccept other)) (hqueue : P queue) (other : Side) :
    P ((s.setAccept side queue).mediaAccept other) := by
  by_cases heq : other = side
  · subst heq
    simpa [State.setAccept] using hqueue
  · simpa [State.setAccept, heq] using h other

/-- A step of a queue that offers nothing. -/
theorem Inv.queueStep (h : Inv capacity s) (hpos : 0 < capacity) {side : Side} {b : QueueMachine.Action String}
    {queue : QueueMachine.State String} (hstep : QueueMachine.step capacity (s.mediaAccept side) b = some queue)
    (hoffered : queue.offered = (s.mediaAccept side).offered) (hclosed : queue.closed = (s.mediaAccept side).closed) :
    Inv capacity (s.setAccept side queue) := by
  have hopening : (s.setAccept side queue).opening = s.opening := by
    funext opener
    by_cases heq : opener.peer = side
    · subst heq
      simp [State.opening, State.setAccept, hoffered]
    · simp [State.opening, State.setAccept, heq]
  refine ⟨forall_setAccept h.queues (QueueMachine.inv_step hpos (h.queues side) hstep), ?_, ?_, ?_⟩
  · exact forall_setAccept (P := fun q => q.closed = s.closed) h.closed (hclosed.trans (h.closed side))
  · rw [hopening]
    exact h.opened
  · rw [hopening]
    exact h.media

/-- A call that comes past the checks. -/
theorem Inv.openMedia (h : Inv capacity s) (hpos : 0 < capacity) {side : Side} {id : String} {aborted : Bool}
    {queue : QueueMachine.State String}
    (hstep : QueueMachine.step capacity (s.mediaAccept side.peer) (.push id aborted) = some queue)
    (hoffered : queue.offered = (s.mediaAccept side.peer).offered ++ [⟨(s.mediaAccept side.peer).calls, id⟩])
    (hclosed : queue.closed = (s.mediaAccept side.peer).closed) :
    Inv capacity ((s.note side id).setAccept side.peer queue) := by
  have hown : ((s.note side id).setAccept side.peer queue).opening side =
      s.opening side ++ [⟨(s.mediaAccept side.peer).calls, id⟩] := by
    simp [State.opening, State.setAccept, hoffered]
  have hother : ∀ opener, opener ≠ side →
      ((s.note side id).setAccept side.peer queue).opening opener = s.opening opener := by
    intro opener hne
    simp [State.opening, State.setAccept, State.note, Side.peer_ne hne]
  refine ⟨forall_setAccept h.queues (QueueMachine.inv_step hpos (h.queues side.peer) hstep), ?_, ?_, ?_⟩
  · exact forall_setAccept (s := s.note side id) (P := fun q => q.closed = s.closed) h.closed
      (hclosed.trans (h.closed side.peer))
  · intro opener other
    by_cases heq : opener = side
    · subst heq
      rw [hown]
      simp [State.setAccept, State.note, h.opened opener, eq_comm, or_and_right, exists_or]
    · rw [hother opener heq]
      simpa [State.setAccept, State.note, heq] using h.opened opener other
  · rintro ⟨opener, call, isRemote⟩
    have hmedia := h.media ⟨opener, call, isRemote⟩
    by_cases heq : opener = side
    · subst heq
      have hnew : (⟨opener, call, isRemote⟩ : Media) ∈ ((s.note opener id).setAccept opener.peer queue).media ↔
          ⟨opener, call, isRemote⟩ ∈ s.media ∨ call = (s.mediaAccept opener.peer).calls := by
        cases isRemote with
        | false => simp [State.setAccept, State.note]
        | true => simp [State.setAccept, State.note]
      rw [hnew, hown, hmedia]
      simp [eq_comm, or_and_right, exists_or]
    · rw [hother opener heq]
      simpa [State.setAccept, State.note, heq] using hmedia

/-! ### The steps -/

theorem Inv.close (h : Inv capacity s) (hopen : s.closed = false) :
    Inv capacity { s with closed := true, mediaAccept := fun side => QueueMachine.close (s.mediaAccept side) } := by
  have hspec : ∀ side, _ := fun side => QueueMachine.close_spec ((h.closed side).trans hopen)
  refine ⟨fun side => QueueMachine.inv_close (h.queues side), fun side => (hspec side).2.2, fun side id => ?_,
    fun m => ?_⟩
  · show _ ↔ ∃ o ∈ (QueueMachine.close (s.mediaAccept side.peer)).offered, o.value = id
    rw [(hspec side.peer).1]
    exact h.opened side id
  · show _ ↔ ∃ o ∈ (QueueMachine.close (s.mediaAccept m.opener.peer)).offered, o.call = m.call
    rw [(hspec m.opener.peer).1]
    exact h.media m

theorem Inv.step (h : Inv capacity s) (hpos : 0 < capacity) (hstep : step round capacity s a = some t) :
    Inv capacity t := by
  cases a with
  | openMedia side id format aborted =>
    simp only [MemoryTransport.step] at hstep
    split at hstep
    · cases hstep
      exact h
    · obtain ⟨queue, hqueue, rfl⟩ := Option.map_eq_some_iff.mp hstep
      have hpush : QueueMachine.push capacity ((s.mediaAccept side.peer).offer id).1
          ((s.mediaAccept side.peer).offer id).2 aborted = queue := Option.some.inj hqueue
      have hkeeps := QueueMachine.push_keeps capacity ((s.mediaAccept side.peer).offer id).1
        ((s.mediaAccept side.peer).offer id).2 aborted
      rw [hpush] at hkeeps
      exact h.openMedia hpos hqueue hkeeps.1 hkeeps.2
  | acceptMedia side aborted =>
    simp only [MemoryTransport.step] at hstep
    split at hstep
    · cases hstep
      exact h
    · obtain ⟨queue, hqueue, rfl⟩ := Option.map_eq_some_iff.mp hstep
      have hshift : QueueMachine.shift _ _ aborted = queue := Option.some.inj hqueue
      have hleaves := QueueMachine.leaves_shift
        { s.mediaAccept side with calls := (s.mediaAccept side).calls + 1 } (s.mediaAccept side).calls aborted
      rw [hshift] at hleaves
      exact h.queueStep hpos hqueue hleaves.offered hleaves.closed
  | abortOpen side call =>
    obtain ⟨queue, hqueue, rfl⟩ := Option.map_eq_some_iff.mp hstep
    obtain ⟨writer, -, hoffered, hclosed, -⟩ := QueueMachine.abortPush_spec hqueue
    exact h.queueStep hpos hqueue hoffered hclosed
  | abortAccept side call =>
    obtain ⟨queue, hqueue, rfl⟩ := Option.map_eq_some_iff.mp hstep
    have hleaves := QueueMachine.leaves_abortShift hqueue
    exact h.queueStep hpos hqueue hleaves.offered hleaves.closed
  | close =>
    simp only [MemoryTransport.step] at hstep
    split at hstep
    · cases hstep
      exact h
    next hopen =>
      cases hstep
      exact h.close (by simpa using hopen)

theorem inv_reachable (hpos : 0 < capacity) (h : (machine round capacity).Reachable s) : Inv capacity s := by
  refine Machine.Reachable.invariant (I := Inv capacity) ?_ (fun _ _ _ hs hstep => hs.step hpos hstep) h
  intro s hs
  obtain rfl : s = pair := hs
  exact inv_pair

/-! ### Calls that fail -/

/-- No call that came past the checks was rejected. -/
def State.Quiet (s : State) : Prop := ∀ side, (s.mediaAccept side).refused = []

theorem checkOpen_ok {side : Side} {id : String} {format : MediaFormat} (h : checkOpen round s side id format = .ok ()) :
    s.closed = false := by
  unfold checkOpen at h
  split at h
  · cases h
  · split at h
    · cases h
    · split at h
      · cases h
      next hopen => simpa using hopen

/-- A step that disturbs no call makes none fail. -/
theorem State.Quiet.step (hs : s.Quiet) (h : Inv capacity s) (hundisturbed : Undisturbed round s a)
    (hstep : step round capacity s a = some t) : t.Quiet := by
  cases a with
  | openMedia side id format aborted =>
    simp only [MemoryTransport.step] at hstep
    split at hstep
    · cases hstep
      exact hs
    next hcheck =>
      obtain ⟨queue, hqueue, rfl⟩ := Option.map_eq_some_iff.mp hstep
      obtain rfl : aborted = false := hundisturbed (by rw [hcheck]; rfl)
      have hopen : (s.mediaAccept side.peer).closed = false := (h.closed side.peer).trans (checkOpen_ok hcheck)
      have hpush : QueueMachine.push capacity ((s.mediaAccept side.peer).offer id).1
          ((s.mediaAccept side.peer).offer id).2 false = queue := Option.some.inj hqueue
      have hleaves := QueueMachine.leaves_push capacity ((s.mediaAccept side.peer).offer id).2
        (s := ((s.mediaAccept side.peer).offer id).1) hopen
      rw [hpush] at hleaves
      exact forall_setAccept (P := fun q => q.refused = []) hs (hleaves.refused.trans (hs side.peer))
  | acceptMedia side aborted =>
    simp only [MemoryTransport.step] at hstep
    split at hstep
    · cases hstep
      exact hs
    · obtain ⟨queue, hqueue, rfl⟩ := Option.map_eq_some_iff.mp hstep
      have hshift : QueueMachine.shift _ _ aborted = queue := Option.some.inj hqueue
      have hleaves := QueueMachine.leaves_shift
        { s.mediaAccept side with calls := (s.mediaAccept side).calls + 1 } (s.mediaAccept side).calls aborted
      rw [hshift] at hleaves
      exact forall_setAccept (P := fun q => q.refused = []) hs (hleaves.refused.trans (hs side))
  | abortOpen side call => exact hundisturbed.elim
  | abortAccept side call =>
    obtain ⟨queue, hqueue, rfl⟩ := Option.map_eq_some_iff.mp hstep
    have hleaves := QueueMachine.leaves_abortShift hqueue
    exact forall_setAccept (P := fun q => q.refused = []) hs (hleaves.refused.trans (hs side))
  | close =>
    simp only [MemoryTransport.step] at hstep
    split at hstep
    · cases hstep
      exact hs
    next hopen =>
      cases hstep
      intro side
      have hspec := QueueMachine.close_spec (s := s.mediaAccept side) ((h.closed side).trans (by simpa using hopen))
      show (QueueMachine.close (s.mediaAccept side)).refused = []
      rw [hspec.2.1, hs side, hundisturbed.resolve_left hopen side]
      rfl

/-- A step that disturbs a call makes one fail. -/
theorem refused_of_disturbed (h : Inv capacity s) (hdisturbed : ¬ Undisturbed round s a)
    (hstep : step round capacity s a = some t) : ∃ side o, o ∈ (t.mediaAccept side).refused := by
  cases a with
  | openMedia side id format aborted =>
    obtain ⟨hok, haborted⟩ := Classical.not_imp.mp hdisturbed
    obtain rfl : aborted = true := by simpa using haborted
    simp only [MemoryTransport.step] at hstep
    split at hstep
    next thrown hcheck =>
      rw [hcheck] at hok
      cases hok
    · obtain ⟨queue, hqueue, rfl⟩ := Option.map_eq_some_iff.mp hstep
      have hpush : QueueMachine.push capacity ((s.mediaAccept side.peer).offer id).1
          ((s.mediaAccept side.peer).offer id).2 true = queue := Option.some.inj hqueue
      refine ⟨side.peer, ((s.mediaAccept side.peer).offer id).2, ?_⟩
      simp [State.setAccept, ← hpush, QueueMachine.push, QueueMachine.State.refuse]
  | acceptMedia side aborted => exact absurd trivial hdisturbed
  | abortOpen side call =>
    obtain ⟨queue, hqueue, rfl⟩ := Option.map_eq_some_iff.mp hstep
    obtain ⟨writer, -, -, -, hrefused⟩ := QueueMachine.abortPush_spec hqueue
    exact ⟨side.peer, writer, by simp [State.setAccept, hrefused]⟩
  | abortAccept side call => exact absurd trivial hdisturbed
  | close =>
    obtain ⟨hclosed, hwriters⟩ := not_or.mp hdisturbed
    obtain ⟨side, hwriter⟩ := not_forall.mp hwriters
    obtain ⟨o, ho⟩ := List.exists_mem_of_ne_nil _ hwriter
    simp only [MemoryTransport.step] at hstep
    rw [if_neg hclosed] at hstep
    cases hstep
    have hspec := QueueMachine.close_spec (s := s.mediaAccept side) ((h.closed side).trans (by simpa using hclosed))
    refine ⟨side, o, ?_⟩
    show o ∈ (QueueMachine.close (s.mediaAccept side)).refused
    rw [hspec.2.1]
    exact List.mem_append_right _ ho

/-! ### Atomicity -/

/-- The peer never accepts a channel of a call that was rejected. -/
theorem Inv.accepted (h : Inv capacity s) (side : Side) :
    ∀ r ∈ (s.mediaAccept side.peer).returned, ¬ s.Rejected side r.2.call := by
  rintro r hr ⟨o, ho, heq⟩
  exact (h.queues side.peer).accounts.not_refused r hr o ho heq.symm

theorem Inv.atomic_of_quiet (h : Inv capacity s) (hs : s.Quiet) : s.Atomic := by
  have hnone : ∀ side call, ¬ s.Rejected side call := by
    rintro side call ⟨o, ho, -⟩
    rw [hs side.peer] at ho
    cases ho
  exact ⟨by simp [hnone, h.opened], by simp [hnone, h.media], h.accepted⟩

/-- A call that was rejected has left its channels behind. -/
theorem Inv.not_atomic_of_refused (h : Inv capacity s) {side : Side} {o : QueueMachine.Offer String}
    (ho : o ∈ (s.mediaAccept side).refused) : ¬ s.Atomic := by
  intro hatomic
  have hside : side = side.peer.peer := (Side.peer_peer side).symm
  rw [hside] at ho
  have hoffered : o ∈ s.opening side.peer := (h.queues side.peer.peer).accounts.mem_offered (.inr ho)
  have hmedia : ⟨side.peer, o.call, false⟩ ∈ s.media := (h.media _).mpr ⟨o, hoffered, rfl⟩
  obtain ⟨other, -, heq, hnot⟩ := (hatomic.media _).mp hmedia
  exact hnot ⟨o, ho, heq.symm⟩

/-- In a run of a pair the ids and the channels are throughout those of the calls of `openMedia` that were not rejected
exactly if every step of it is undisturbed. -/
theorem atomic_throughout_iff (round : ℚ → ℚ) (capacity : Nat) (hpos : 0 < capacity) (run : List Action) (t : State)
    (hexec : (machine round capacity).exec pair run = some t) :
    (machine round capacity).Throughout State.Atomic pair run ↔
      (machine round capacity).Along (Undisturbed round) pair run := by
  refine Machine.throughout_iff_along (I := fun s => Inv capacity s ∧ s.Quiet) ?_ ?_ ?_ ⟨inv_pair, fun _ => rfl⟩ hexec
  · rintro s ⟨hs, hquiet⟩
    exact hs.atomic_of_quiet hquiet
  · rintro s a t ⟨hs, hquiet⟩ hundisturbed hstep
    exact ⟨hs.step hpos hstep, hquiet.step hs hundisturbed hstep⟩
  · rintro s a t ⟨hs, -⟩ hdisturbed hstep
    obtain ⟨side, o, ho⟩ := refused_of_disturbed hs hdisturbed hstep
    exact (hs.step hpos hstep).not_atomic_of_refused ho

/-- The format of telephone audio. -/
def telephone : MediaFormat where
  encoding := "L16"
  sampleRate := 8000
  bitDepth := 16
  channels := 1
  packetTimeMs := 20

/-- One end opens two channels over queues with room for one, and the other end accepts the first one. -/
def acceptedRun : List Action :=
  [.openMedia 0 "audio" telephone false, .openMedia 0 "video" telephone false, .acceptMedia 1 false]

theorem atomic_throughout_acceptedRun : ∃ t, (machine id 1).exec pair acceptedRun = some t ∧
    (machine id 1).Throughout State.Atomic pair acceptedRun := by
  obtain ⟨t, ht⟩ := Option.isSome_iff_exists.mp
    (by decide +kernel : ((machine id 1).exec pair acceptedRun).isSome = true)
  exact ⟨t, ht, (atomic_throughout_iff id 1 Nat.one_pos acceptedRun t ht).mpr (by decide +kernel)⟩

/-- The second channel is not accepted, and its call is aborted. -/
def abortedRun : List Action :=
  [.openMedia 0 "audio" telephone false, .openMedia 0 "video" telephone false, .abortOpen 0 1]

/-- What can be seen of a pair from the end that opens. -/
def State.seen (s : State) : Bool × List String × List Media × List Nat :=
  (s.closed, s.opened 0, s.media, (s.mediaAccept 1).refused.map QueueMachine.Offer.call)

/-- After the call has been rejected its id is still opened, its channels belong to the link, and another call with the
id is refused as a duplicate. -/
theorem video_stays_open : ∃ t, (machine id 1).exec pair abortedRun = some t ∧ ¬ t.Atomic ∧ t.Rejected 0 1 ∧
    t.opened 0 = ["audio", "video"] ∧ t.media = [⟨0, 0, false⟩, ⟨0, 0, true⟩, ⟨0, 1, false⟩, ⟨0, 1, true⟩] ∧
    checkOpen id t 0 "video" telephone = .error (.session "media_duplicate" "media 'video' is already open") := by
  have hformat : mediaFrameBytes id telephone = .ok 320 := by decide +kernel
  have hseen : ((machine id 1).exec pair abortedRun).map State.seen =
      some (false, ["audio", "video"], [⟨0, 0, false⟩, ⟨0, 0, true⟩, ⟨0, 1, false⟩, ⟨0, 1, true⟩], [1]) := by
    decide +kernel
  obtain ⟨t, ht, hview⟩ := Option.map_eq_some_iff.mp hseen
  obtain ⟨hclosed, hopened, hmedia, hrefused⟩ : t.closed = false ∧ t.opened 0 = ["audio", "video"] ∧
      t.media = [⟨0, 0, false⟩, ⟨0, 0, true⟩, ⟨0, 1, false⟩, ⟨0, 1, true⟩] ∧
      (t.mediaAccept 1).refused.map QueueMachine.Offer.call = [1] := by
    simpa [State.seen] using hview
  obtain ⟨o, ho, hcall⟩ : ∃ o ∈ (t.mediaAccept 1).refused, o.call = 1 :=
    List.mem_map.mp (hrefused ▸ List.mem_singleton_self 1)
  have hinv : Inv 1 t := inv_reachable Nat.one_pos (.of_exec (M := machine id 1) rfl ht)
  refine ⟨t, ht, hinv.not_atomic_of_refused ho, ⟨o, ho, hcall⟩, hopened, hmedia, ?_⟩
  have hmem : "video" ∈ t.opened 0 := by simp [hopened]
  rw [checkOpen, if_neg (by decide), hformat]
  dsimp only
  rw [if_neg (by simp [hclosed]), if_pos hmem]
  rfl

end Rtvbp.TypeScript.MemoryTransport
