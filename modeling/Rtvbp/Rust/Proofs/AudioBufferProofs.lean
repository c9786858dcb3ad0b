import Rtvbp.Rust.AudioBuffer
import Mathlib.Tactic

/-!
# Proofs: the outbound audio buffer

No wake-up is lost: where a call and the pump wait and no notification is under way, the buffer is full and holds
less than a frame. So the only stuck states are those in which the capacity is smaller than the frame, and for
such a capacity one long enough write leads there.
-/

namespace Rtvbp.Rust.AudioBuffer

open Rtvbp.Lib
open Rtvbp.Rust.Audio (MediaFormat)

variable {capacity i j : Nat} {format : MediaFormat} {s t : Shared} {w w' : Writer} {a : Act} {e : Event}

/-! ## The sections under the lock -/

/-- What `write` does under the lock. -/
theorem lockWrite_cases (capacity i : Nat) (s : Shared) (call : Call) (generation : Nat) :
    (s.closed = true ∧
      ∃ result, lockWrite capacity i s call generation = (s, .returned result)) ∨
    (s.closed = false ∧ s.bytes.length < capacity ∧ ∃ chunk call', s.bytes.length + chunk.length ≤ capacity ∧
      lockWrite capacity i s call generation = ({ s with
        bytes := s.bytes ++ chunk
        accepted := s.accepted ++ chunk
        writing := i :: s.writing }, .wrote call')) ∨
    (s.closed = false ∧ capacity ≤ s.bytes.length ∧
      lockWrite capacity i s call generation = (s, .waiting call generation)) := by
  by_cases hclosed : s.closed = true
  · refine Or.inl ⟨hclosed, if call.written = 0 then .error .closed else .ok call.written, ?_⟩
    rw [lockWrite, if_pos hclosed]
  have hopen : s.closed = false := by simpa using hclosed
  by_cases hroom : 0 < capacity - s.bytes.length
  · let count := min (capacity - s.bytes.length) (call.input.length - call.written)
    let chunk := (call.input.drop call.written).take count
    have hchunk : chunk.length ≤ count := List.length_take_le count _
    have hcount : count ≤ capacity - s.bytes.length := Nat.min_le_left _ _
    refine Or.inr (Or.inl ⟨hopen, by omega, chunk, { call with written := call.written + count }, by omega, ?_⟩)
    rw [lockWrite, if_neg hclosed, if_pos hroom]
  · refine Or.inr (Or.inr ⟨hopen, by omega, ?_⟩)
    rw [lockWrite, if_neg hclosed, if_neg hroom]

/-- What `read_exact_or_drop` does under the lock. -/
theorem lockRead_cases (s : Shared) (size generation : Nat) :
    (size ≤ s.bytes.length ∧ lockRead s size generation = { s with
      bytes := s.bytes.drop size
      frames := s.frames ++ [s.bytes.take size]
      pump := .drained (s.bytes.take size) }) ∨
    (s.bytes.length < size ∧ s.closed = true ∧ lockRead s size generation =
      { s with bytes := [], remainder := s.remainder ++ s.bytes, pump := .ended }) ∨
    (s.bytes.length < size ∧ s.closed = false ∧ lockRead s size generation =
      { s with pump := .waiting size generation }) := by
  by_cases hsize : size ≤ s.bytes.length
  · refine Or.inl ⟨hsize, ?_⟩
    rw [lockRead, if_pos hsize]
  have hless : s.bytes.length < size := by omega
  by_cases hclosed : s.closed = true
  · refine Or.inr (Or.inl ⟨hless, hclosed, ?_⟩)
    rw [lockRead, if_neg hsize, if_pos hclosed]
  · refine Or.inr (Or.inr ⟨hless, by simpa using hclosed, ?_⟩)
    rw [lockRead, if_neg hsize, if_neg hclosed]

/-! ## The steps -/

/-- A call goes on and leaves the shared state as it is. -/
structure Proceeds (capacity : Nat) (s : Shared) (w w' : Writer) : Prop where
  before : ∀ call, w ≠ .wrote call
  after : ∀ call, w' ≠ .wrote call
  noted : ∀ call generation, w' = .noted call generation → generation = s.writable
  waiting : ∀ call generation, w' = .waiting call generation →
    w = .noted call generation ∧ s.closed = false ∧ capacity ≤ s.bytes.length

/-- A call writes a part of its input. -/
structure Writes (capacity i : Nat) (s : Shared) (w : Writer) (chunk : List UInt8) (t : Shared) : Prop where
  noted : ∃ call generation, w = .noted call generation
  isOpen : s.closed = false
  room : s.bytes.length + chunk.length ≤ capacity
  eq : t = { s with
    bytes := s.bytes ++ chunk
    accepted := s.accepted ++ chunk
    writing := i :: s.writing }

/-- What a step of a call does: it goes on, writes, or notifies the pump. -/
theorem act_cases (h : act capacity i s w a = some (t, w')) :
    (t = s ∧ Proceeds capacity s w w') ∨
    (∃ chunk call, Writes capacity i s w chunk t ∧ w' = .wrote call) ∨
    ∃ call, w = .wrote call ∧ w' = .looping call ∧
      t = { s with readable := s.readable + 1, writing := s.writing.erase i } := by
  unfold act at h
  split at h
  case h_1 input =>
    cases h
    exact Or.inl ⟨rfl, by simp, by simp, by simp, by simp⟩
  case h_2 call =>
    split at h
    · cases h
      exact Or.inl ⟨rfl, by simp, by simp, by simp, by simp⟩
    · cases h
      exact Or.inl ⟨rfl, by simp, by simp, by simp, by simp⟩
  case h_3 call generation =>
    obtain ⟨-, result, hlock⟩ | ⟨hopen, -, chunk, call', hroom, hlock⟩ | ⟨hopen, hfull, hlock⟩ :=
      lockWrite_cases capacity i s call generation
    · rw [hlock] at h
      cases h
      exact Or.inl ⟨rfl, by simp, by simp, by simp, by simp⟩
    · rw [hlock] at h
      cases h
      exact Or.inr (Or.inl ⟨chunk, call', ⟨⟨call, generation, rfl⟩, hopen, hroom, rfl⟩, rfl⟩)
    · rw [hlock] at h
      cases h
      refine Or.inl ⟨rfl, by simp, by simp, by simp, ?_⟩
      intro call' generation' heq
      cases heq
      exact ⟨rfl, hopen, hfull⟩
  case h_4 call =>
    cases h
    exact Or.inr (Or.inr ⟨call, rfl, rfl, rfl⟩)
  case h_5 call generation =>
    split at h
    · cases h
    · cases h
      exact Or.inl ⟨rfl, by simp, by simp, by simp, by simp⟩
  case h_6 =>
    cases h
    exact Or.inl ⟨rfl, by simp, by simp, by simp, by simp⟩
  case h_7 => cases h

/-- What a step of the pump or of a call of `close` does. -/
inductive Moves (format : MediaFormat) (s : Shared) : Shared → Prop where
  /-- The pump goes on and leaves the rest as it is. -/
  | proceed (pump : Pump) (before : ∀ frame, s.pump ≠ .drained frame) (after : ∀ frame, pump ≠ .drained frame)
      (noted : ∀ size generation, pump = .noted size generation →
        generation = s.readable ∧ format.frameBytes = .ok size)
      (waiting : ∀ size generation, pump = .waiting size generation →
        s.pump = .noted size generation ∧ s.closed = false ∧ s.bytes.length < size)
      (ended : s.pump ≠ .ended) :
      Moves format s { s with pump := pump }
  | drain (size generation : Nat) (noted : s.pump = .noted size generation) (enough : size ≤ s.bytes.length) :
      Moves format s { s with
        bytes := s.bytes.drop size
        frames := s.frames ++ [s.bytes.take size]
        pump := .drained (s.bytes.take size) }
  | discard (size generation : Nat) (noted : s.pump = .noted size generation) (closed : s.closed = true) :
      Moves format s { s with bytes := [], remainder := s.remainder ++ s.bytes, pump := .ended }
  | notify (frame : List UInt8) (drained : s.pump = .drained frame) :
      Moves format s { s with writable := s.writable + 1, pump := .sending frame }
  | close : Moves format s { s with closed := true, closing := s.closing + 1 }
  | closeReadable (closing : 0 < s.closing) : Moves format s { s with
      readable := s.readable + 1
      closing := s.closing - 1
      announcing := s.announcing + 1 }
  | closeWritable (announcing : 0 < s.announcing) : Moves format s { s with
      writable := s.writable + 1
      announcing := s.announcing - 1 }

theorem event_moves (h : event format s e = some t) : Moves format s t := by
  unfold event at h
  split at h
  case h_1 hpump =>
    split at h
    · next size hsize =>
      cases h
      refine .proceed _ (by simp [hpump]) (by simp) ?_ (by simp) (by simp [hpump])
      intro size' generation heq
      cases heq
      exact ⟨rfl, hsize⟩
    · cases h
      exact .proceed _ (by simp [hpump]) (by simp) (by simp) (by simp) (by simp [hpump])
  case h_2 size generation hpump =>
    cases h
    obtain ⟨henough, hlock⟩ | ⟨-, hclosed, hlock⟩ | ⟨hless, hopen, hlock⟩ := lockRead_cases s size generation
    · rw [hlock]
      exact .drain size generation hpump henough
    · rw [hlock]
      exact .discard size generation hpump hclosed
    · rw [hlock]
      refine .proceed _ (by simp [hpump]) (by simp) (by simp) ?_ (by simp [hpump])
      intro size' generation' heq
      cases heq
      exact ⟨hpump, hopen, hless⟩
  case h_3 frame hpump =>
    cases h
    exact .notify frame hpump
  case h_4 size generation hpump =>
    split at h
    · cases h
    · cases h
      exact .proceed _ (by simp [hpump]) (by simp) (by simp) (by simp) (by simp [hpump])
  case h_9 =>
    cases h
    exact .close
  case h_10 =>
    split at h
    · next hclosing =>
      cases h
      exact .closeReadable hclosing
    · cases h
  case h_11 =>
    split at h
    · next hannouncing =>
      cases h
      exact .closeWritable hannouncing
    · cases h
  case h_12 => cases h
  all_goals
    rename_i hpump
    cases h
    exact .proceed _ (by simp [hpump]) (by simp) (by simp) (by simp) (by simp [hpump])

/-! ## The invariant -/

/-- A pump that waits will be notified, or the buffer is open and holds less than it waits for. -/
structure Pump.Settled (format : MediaFormat) (s : Shared) : Prop where
  noted : ∀ size generation, s.pump = .noted size generation →
    generation ≤ s.readable ∧ format.frameBytes = .ok size
  waiting : ∀ size generation, s.pump = .waiting size generation →
    generation ≤ s.readable ∧ format.frameBytes = .ok size
  awaits : ∀ size, s.pump = .waiting size s.readable →
    if s.closed then 0 < s.closing else s.bytes.length < size ∨ s.writing ≠ []

/-- The invariant of the shared state. -/
structure Sound (capacity : Nat) (format : MediaFormat) (s : Shared) : Prop where
  room : s.bytes.length ≤ capacity
  pump : Pump.Settled format s
  writing : s.writing.Nodup
  conserved : s.Conserved format
  remainder : s.remainder ≠ [] → s.closed = true ∧ s.pump = .ended

/-- A call that waits will be notified, or the buffer is open and full; a call that is to notify does so next. -/
structure Writer.Settled (capacity i : Nat) (s : Shared) (w : Writer) : Prop where
  writing : i ∈ s.writing → ∃ call, w = .wrote call
  noted : ∀ call generation, w = .noted call generation → generation ≤ s.writable
  waiting : ∀ call generation, w = .waiting call generation → generation ≤ s.writable
  awaits : ∀ call, w = .waiting call s.writable →
    if s.closed then 0 < s.closing ∨ 0 < s.announcing
    else s.bytes.length = capacity ∨ ∃ frame, s.pump = .drained frame

theorem sound_new : Sound capacity format new where
  room := Nat.zero_le capacity
  pump := ⟨by simp [new], by simp [new], by simp [new]⟩
  writing := List.nodup_nil
  conserved := ⟨rfl, by simp [new]⟩
  remainder h := absurd rfl h

theorem settled_idle : Writer.Settled capacity i s .idle ↔ i ∉ s.writing := by
  constructor
  · intro h hmem
    obtain ⟨call, heq⟩ := h.writing hmem
    cases heq
  · intro hmem
    exact ⟨fun h => absurd h hmem, by simp, by simp, by simp⟩

/-! ### The steps of the calls -/

theorem Proceeds.settled (h : Proceeds capacity s w w') (hs : Sound capacity format s)
    (hw : w.Settled capacity i s) : w'.Settled capacity i s where
  writing hmem := by
    obtain ⟨call, heq⟩ := hw.writing hmem
    exact absurd heq (h.before call)
  noted call generation heq := (h.noted call generation heq).le
  waiting call generation heq := hw.noted call generation (h.waiting call generation heq).1
  awaits call heq := by
    obtain ⟨-, hopen, hfull⟩ := h.waiting call _ heq
    have hlength : s.bytes.length = capacity := le_antisymm hs.room hfull
    simp only [hopen]
    exact Or.inl hlength

theorem Writes.sound {chunk : List UInt8} (h : Writes capacity i s w chunk t) (hs : Sound capacity format s)
    (hw : w.Settled capacity i s) : Sound capacity format t := by
  obtain ⟨⟨call, generation, rfl⟩, hopen, hroom, rfl⟩ := h
  have hi : i ∉ s.writing := by
    intro hmem
    obtain ⟨call', heq⟩ := hw.writing hmem
    cases heq
  refine ⟨?_, ⟨hs.pump.noted, hs.pump.waiting, ?_⟩, List.nodup_cons.mpr ⟨hi, hs.writing⟩, ⟨?_, ?_⟩,
    hs.remainder⟩
  · show (s.bytes ++ chunk).length ≤ capacity
    rw [List.length_append]
    exact hroom
  · intro size _
    simp only [hopen]
    exact Or.inr (List.cons_ne_nil i s.writing)
  · show s.accepted ++ chunk = s.frames.flatten ++ s.remainder ++ (s.bytes ++ chunk)
    rw [hs.conserved.bytes]
    simp
  · exact hs.conserved.frames

/-- A write does not interfere with the other calls. -/
theorem Writes.others {chunk : List UInt8} {m : Writer} (h : Writes capacity i s w chunk t) (hij : j ≠ i)
    (hm : m.Settled capacity j s) : m.Settled capacity j t := by
  obtain ⟨-, hopen, hroom, rfl⟩ := h
  refine ⟨fun hmem => hm.writing (List.mem_of_ne_of_mem hij hmem), hm.noted, hm.waiting, ?_⟩
  intro call heq
  have hawaits := hm.awaits call heq
  simp only [hopen] at hawaits ⊢
  refine hawaits.imp_left fun hfull => ?_
  rw [List.length_append]
  omega

theorem Sound.notify (hs : Sound capacity format s) :
    Sound capacity format { s with readable := s.readable + 1, writing := s.writing.erase i } := by
  refine ⟨hs.room, ⟨?_, ?_, ?_⟩, hs.writing.erase i, ⟨hs.conserved.bytes, hs.conserved.frames⟩, hs.remainder⟩
  · intro size generation heq
    obtain ⟨hle, hsize⟩ := hs.pump.noted size generation heq
    exact ⟨Nat.le_succ_of_le hle, hsize⟩
  · intro size generation heq
    obtain ⟨hle, hsize⟩ := hs.pump.waiting size generation heq
    exact ⟨Nat.le_succ_of_le hle, hsize⟩
  · intro size heq
    have hle : s.readable + 1 ≤ s.readable := (hs.pump.waiting size _ heq).1
    omega

/-- One step of a call keeps the invariant, and does not interfere with the other calls. -/
theorem act_sound (hs : Sound capacity format s) (hw : w.Settled capacity i s)
    (hstep : act capacity i s w a = some (t, w')) :
    Sound capacity format t ∧ w'.Settled capacity i t ∧
      ∀ j m, j ≠ i → Writer.Settled capacity j s m → Writer.Settled capacity j t m := by
  obtain ⟨rfl, hproceeds⟩ | ⟨chunk, call, hwrites, rfl⟩ | ⟨call, rfl, rfl, rfl⟩ := act_cases hstep
  · exact ⟨hs, hproceeds.settled hs hw, fun j m _ hm => hm⟩
  · refine ⟨hwrites.sound hs hw, ?_, fun j m hij hm => hwrites.others hij hm⟩
    exact ⟨fun _ => ⟨call, rfl⟩, by simp, by simp, by simp⟩
  · refine ⟨hs.notify, ?_, fun j m hij hm => ?_⟩
    · refine ⟨fun hmem => ?_, by simp, by simp, by simp⟩
      have hne : i ≠ i := (hs.writing.mem_erase_iff.mp hmem).1
      exact absurd rfl hne
    · exact ⟨fun hmem => hm.writing (List.mem_of_mem_erase hmem), hm.noted, hm.waiting, hm.awaits⟩

/-! ### The steps of the pump and of `close` -/

theorem Moves.sound (h : Moves format s t) (hs : Sound capacity format s) : Sound capacity format t := by
  cases h with
  | proceed pump before after noted waiting ended =>
    refine ⟨hs.room, ⟨?_, ?_, ?_⟩, hs.writing, ⟨hs.conserved.bytes, hs.conserved.frames⟩, ?_⟩
    · intro size generation heq
      obtain ⟨rfl, hsize⟩ := noted size generation heq
      exact ⟨le_refl _, hsize⟩
    · intro size generation heq
      exact hs.pump.noted size generation (waiting size generation heq).1
    · intro size heq
      obtain ⟨-, hopen, hless⟩ := waiting size _ heq
      simp only [hopen]
      exact Or.inl hless
    · intro hremainder
      exact absurd (hs.remainder hremainder).2 ended
  | drain size generation noted enough =>
    have hremainder : s.remainder = [] := by
      by_contra hne
      have hended : s.pump = .ended := (hs.remainder hne).2
      rw [hended] at noted
      cases noted
    obtain ⟨-, hsize⟩ := hs.pump.noted size generation noted
    have htake : (s.bytes.take size).length = size := List.length_take_of_le enough
    refine ⟨?_, ⟨by simp, by simp, by simp⟩, hs.writing, ⟨?_, ?_⟩, fun hne => absurd hremainder hne⟩
    · show (s.bytes.drop size).length ≤ capacity
      have hroom := hs.room
      rw [List.length_drop]
      omega
    · show s.accepted = (s.frames ++ [s.bytes.take size]).flatten ++ s.remainder ++ s.bytes.drop size
      rw [hs.conserved.bytes, hremainder]
      simp
    · intro frame hmem
      rcases List.mem_append.mp hmem with hmem | hmem
      · exact hs.conserved.frames frame hmem
      · obtain rfl := List.mem_singleton.mp hmem
        rw [htake]
        exact hsize
  | discard size generation noted closed =>
    refine ⟨Nat.zero_le capacity, ⟨by simp, by simp, by simp⟩, hs.writing, ⟨?_, hs.conserved.frames⟩,
      fun _ => ⟨closed, rfl⟩⟩
    show s.accepted = s.frames.flatten ++ (s.remainder ++ s.bytes) ++ []
    rw [hs.conserved.bytes]
    simp
  | notify frame drained =>
    refine ⟨hs.room, ⟨by simp, by simp, by simp⟩, hs.writing, ⟨hs.conserved.bytes, hs.conserved.frames⟩, ?_⟩
    intro hremainder
    have hended := (hs.remainder hremainder).2
    rw [hended] at drained
    cases drained
  | close =>
    refine ⟨hs.room, ⟨hs.pump.noted, hs.pump.waiting, ?_⟩, hs.writing,
      ⟨hs.conserved.bytes, hs.conserved.frames⟩, fun hne => ⟨rfl, (hs.remainder hne).2⟩⟩
    intro size _
    exact Nat.succ_pos s.closing
  | closeReadable closing =>
    refine ⟨hs.room, ⟨?_, ?_, ?_⟩, hs.writing, ⟨hs.conserved.bytes, hs.conserved.frames⟩, hs.remainder⟩
    · intro size generation heq
      obtain ⟨hle, hsize⟩ := hs.pump.noted size generation heq
      exact ⟨Nat.le_succ_of_le hle, hsize⟩
    · intro size generation heq
      obtain ⟨hle, hsize⟩ := hs.pump.waiting size generation heq
      exact ⟨Nat.le_succ_of_le hle, hsize⟩
    · intro size heq
      have hle : s.readable + 1 ≤ s.readable := (hs.pump.waiting size _ heq).1
      omega
  | closeWritable announcing =>
    exact ⟨hs.room, ⟨hs.pump.noted, hs.pump.waiting, hs.pump.awaits⟩, hs.writing,
      ⟨hs.conserved.bytes, hs.conserved.frames⟩, hs.remainder⟩

/-- A call that waits for a later generation waits no more. -/
theorem Writer.Settled.renotify (hw : w.Settled capacity i s) (hwriting : t.writing = s.writing)
    (hwritable : t.writable = s.writable + 1) : w.Settled capacity i t := by
  refine ⟨fun hmem => hw.writing (hwriting ▸ hmem), ?_, ?_, ?_⟩
  · intro call generation heq
    have hle := hw.noted call generation heq
    omega
  · intro call generation heq
    have hle := hw.waiting call generation heq
    omega
  · intro call heq
    have hle := hw.waiting call _ heq
    omega

/-- The pump and `close` do not interfere with the calls. -/
theorem Moves.settled (h : Moves format s t) (hw : w.Settled capacity i s) : w.Settled capacity i t := by
  cases h with
  | proceed pump before after noted waiting ended =>
    refine ⟨hw.writing, hw.noted, hw.waiting, fun call heq => ?_⟩
    have hawaits := hw.awaits call heq
    by_cases hclosed : s.closed = true
    · rw [if_pos hclosed] at hawaits ⊢
      exact hawaits
    · rw [if_neg hclosed] at hawaits ⊢
      exact hawaits.imp_right fun ⟨frame, hframe⟩ => absurd hframe (before frame)
  | drain size generation noted enough =>
    refine ⟨hw.writing, hw.noted, hw.waiting, fun call heq => ?_⟩
    have hawaits := hw.awaits call heq
    by_cases hclosed : s.closed = true
    · rw [if_pos hclosed] at hawaits ⊢
      exact hawaits
    · rw [if_neg hclosed]
      exact Or.inr ⟨_, rfl⟩
  | discard size generation noted closed =>
    refine ⟨hw.writing, hw.noted, hw.waiting, fun call heq => ?_⟩
    have hawaits := hw.awaits call heq
    rw [if_pos closed] at hawaits ⊢
    exact hawaits
  | notify frame drained => exact hw.renotify rfl rfl
  | close =>
    refine ⟨hw.writing, hw.noted, hw.waiting, fun call _ => ?_⟩
    exact Or.inl (Nat.succ_pos s.closing)
  | closeReadable closing =>
    refine ⟨hw.writing, hw.noted, hw.waiting, fun call heq => ?_⟩
    have hawaits := hw.awaits call heq
    by_cases hclosed : s.closed = true
    · rw [if_pos hclosed]
      exact Or.inr (Nat.succ_pos s.announcing)
    · rw [if_neg hclosed] at hawaits ⊢
      exact hawaits
  | closeWritable announcing => exact hw.renotify rfl rfl

/-- The invariant of the whole. -/
theorem sound_reachable {s : State} (h : (machine capacity format).Reachable s) :
    Threads.Holds (Sound capacity format) (fun i => Writer.Settled capacity i) s := by
  refine Threads.reachable_invariant (P := threads capacity format) (J := fun i => Writer.Settled capacity i)
    ?_ ?_ ?_ h
  · intro s hs
    obtain rfl : s = new := hs
    exact ⟨sound_new, fun i => settled_idle.2 List.not_mem_nil⟩
  · intro i s w a s' w' hs hw hstep
    exact act_sound hs hw hstep
  · intro s e s' hs hstep
    have hmoves : Moves format s s' := event_moves hstep
    exact ⟨hmoves.sound hs, fun j m hm => hmoves.settled hm⟩

/-- What is written is read in frames, in its order; what is left at the end is dropped. -/
theorem conserved_reachable {s : State} (h : (machine capacity format).Reachable s) :
    s.shared.Conserved format :=
  (sound_reachable h).1.conserved

/-! ## Deadlocks -/

/-- No wake-up is lost: where a call and the pump wait for good, the buffer is full and holds less than a
frame. -/
theorem State.Stuck.deadlocked {s : State} (h : (machine capacity format).Reachable s) (hstuck : s.Stuck) :
    s.Deadlocked capacity := by
  obtain ⟨hs, hcalls⟩ := sound_reachable h
  obtain ⟨⟨i, call, hwaiting⟩, ⟨size, hpump⟩, hwrote, hclosing, hannouncing⟩ := hstuck
  have hcall := (hcalls i).awaits call hwaiting
  have hreader := hs.pump.awaits size hpump
  by_cases hclosed : s.shared.closed = true
  · rw [if_pos hclosed] at hcall
    omega
  rw [if_neg hclosed] at hcall hreader
  have hfull : s.shared.bytes.length = capacity := by
    refine hcall.resolve_right ?_
    rintro ⟨frame, hframe⟩
    rw [State.PumpWaits, hframe] at hpump
    cases hpump
  have hless : s.shared.bytes.length < size := by
    refine hreader.resolve_right fun hne => ?_
    obtain ⟨j, hj⟩ := List.exists_mem_of_ne_nil _ hne
    obtain ⟨call', heq⟩ := (hcalls j).writing hj
    exact hwrote j call' heq
  exact ⟨⟨i, call, hwaiting⟩, hfull, size, hpump, hless⟩

/-- A deadlock of an open buffer jams it. -/
theorem State.Deadlocked.jammed {s : State} (h : (machine capacity format).Reachable s)
    (hdead : s.Deadlocked capacity) (hopen : s.shared.closed = false) : s.shared.Jammed capacity format := by
  obtain ⟨-, hfull, size, hpump, hless⟩ := hdead
  have hsize := ((sound_reachable h).1.pump.waiting size _ hpump).2
  refine ⟨hopen, hfull, fun size' hsize' => ?_⟩
  have heq : size = size' := by simpa using hsize.symm.trans hsize'
  omega

/-- A jam lasts over a step of a call. -/
theorem Shared.Jammed.act (hjam : s.Jammed capacity format) (hstep : act capacity i s w a = some (t, w')) :
    t.Jammed capacity format ∧ t.accepted = s.accepted ∧ t.frames = s.frames := by
  obtain ⟨rfl, -⟩ | ⟨chunk, -, hwrites, -⟩ | ⟨-, -, -, rfl⟩ := act_cases hstep
  · exact ⟨hjam, rfl, rfl⟩
  · obtain ⟨-, -, hroom, rfl⟩ := hwrites
    have hfull := hjam.full
    obtain rfl : chunk = [] := List.eq_nil_of_length_eq_zero (by omega)
    refine ⟨⟨hjam.isOpen, ?_, ?_⟩, by simp, rfl⟩
    · simpa using hfull
    · simpa using hjam.short
  · exact ⟨⟨hjam.isOpen, hjam.full, hjam.short⟩, rfl, rfl⟩

/-- A jam lasts over a step of the pump, and ends when the buffer is closed. -/
theorem Shared.Jammed.moves (hjam : s.Jammed capacity format) (hs : Sound capacity format s)
    (hmoves : Moves format s t) (hopen : t.closed = false) :
    t.Jammed capacity format ∧ t.accepted = s.accepted ∧ t.frames = s.frames := by
  cases hmoves with
  | proceed => exact ⟨⟨hjam.isOpen, hjam.full, hjam.short⟩, rfl, rfl⟩
  | drain size generation noted enough =>
    have hless := hjam.short size (hs.pump.noted size generation noted).2
    omega
  | discard size generation noted closed =>
    rw [hjam.isOpen] at closed
    cases closed
  | notify => exact ⟨⟨hjam.isOpen, hjam.full, hjam.short⟩, rfl, rfl⟩
  | close => cases hopen
  | closeReadable => exact ⟨⟨hjam.isOpen, hjam.full, hjam.short⟩, rfl, rfl⟩
  | closeWritable => exact ⟨⟨hjam.isOpen, hjam.full, hjam.short⟩, rfl, rfl⟩

/-- A closed buffer stays closed. -/
theorem Moves.open_of_open (hmoves : Moves format s t) (hopen : t.closed = false) : s.closed = false := by
  cases hmoves with
  | close => cases hopen
  | proceed | drain | discard | notify | closeReadable | closeWritable => exact hopen

/-- A jam is for good: until the buffer is closed, no call writes and the pump reads no frame. -/
theorem jam_lasts {s t : State} (h : (machine capacity format).Reachable s)
    (hjam : s.shared.Jammed capacity format) (hsteps : (machine capacity format).Steps (fun _ _ => True) s t)
    (hopen : t.shared.closed = false) :
    t.shared.Jammed capacity format ∧ t.shared.accepted = s.shared.accepted ∧
      t.shared.frames = s.shared.frames := by
  let Lasts : State → Prop := fun u => (machine capacity format).Reachable u ∧ (u.shared.closed = false →
    u.shared.Jammed capacity format ∧ u.shared.accepted = s.shared.accepted ∧ u.shared.frames = s.shared.frames)
  have hlasts : Lasts t := by
    refine hsteps.invariant (I := Lasts) ?_ ⟨h, fun _ => ⟨hjam, rfl, rfl⟩⟩
    rintro u a v ⟨hu, hjam⟩ - hstep
    refine ⟨hu.step trivial hstep, fun hv => ?_⟩
    have hs : Sound capacity format u.shared := (sound_reachable hu).1
    cases a with
    | act i a =>
      obtain ⟨⟨shared, w⟩, hact, rfl⟩ := Option.map_eq_some_iff.mp hstep
      have hopen : u.shared.closed = false := by
        obtain ⟨rfl, -⟩ | ⟨-, -, ⟨-, hopen, -, -⟩, -⟩ | ⟨-, -, -, rfl⟩ := act_cases hact
        · exact hv
        · exact hopen
        · exact hv
      obtain ⟨hjam, haccepted, hframes⟩ := hjam hopen
      obtain ⟨hjam', haccepted', hframes'⟩ := hjam.act hact
      exact ⟨hjam', haccepted'.trans haccepted, hframes'.trans hframes⟩
    | env e =>
      obtain ⟨shared, hevent, rfl⟩ := Option.map_eq_some_iff.mp hstep
      have hmoves : Moves format u.shared shared := event_moves hevent
      obtain ⟨hjam, haccepted, hframes⟩ := hjam (hmoves.open_of_open hv)
      obtain ⟨hjam', haccepted', hframes'⟩ := hjam.moves hs hmoves hv
      exact ⟨hjam', haccepted'.trans haccepted, hframes'.trans hframes⟩
  exact hlasts.2 hopen

/-! ## Which capacities are safe -/

/-- One call that writes a byte more than the buffer takes, and the pump after it. -/
def jamRun (capacity : Nat) : List (Threads.Action Nat Act Event) :=
  [.act 0 (.write (List.replicate (capacity + 1) 0)), .act 0 .note, .act 0 .lock, .act 0 .notify, .act 0 .note,
    .act 0 .lock, .env .note, .env .lock]

/-- A frame larger than the buffer: the call waits for the pump, and the pump for the call. -/
theorem exists_deadlocked {size : Nat} (hcapacity : 0 < capacity) (hsize : format.frameBytes = .ok size)
    (hless : capacity < size) :
    ∃ s : State, (machine capacity format).Reachable s ∧ s.Deadlocked capacity := by
  have hstart : (machine capacity format).Start ⟨new, fun _ => .idle⟩ := ⟨rfl, rfl⟩
  have hexec : ∃ s : State, (machine capacity format).exec ⟨new, fun _ => .idle⟩ (jamRun capacity) = some s ∧
      s.Deadlocked capacity := by
    have hshort : ¬ size ≤ capacity := by omega
    simp only [jamRun, Threads.machine, Threads.step, threads, act, event, new, hsize, Machine.exec_cons,
      Machine.exec_nil, Option.map_some, Option.bind_some, Function.update_self, Function.update_idem]
    simp [lockWrite, lockRead, hcapacity, hshort]
    refine ⟨⟨0, _, rfl⟩, List.length_replicate, size, rfl, ?_⟩
    show (List.replicate capacity (0 : UInt8)).length < size
    rw [List.length_replicate]
    exact hless
  obtain ⟨s, hexec, hdead⟩ := hexec
  exact ⟨s, .of_exec hstart hexec, hdead⟩

/-- The outbound direction cannot deadlock exactly if the buffer has room for a frame of the format. -/
theorem no_deadlock_iff {size : Nat} (hcapacity : 0 < capacity) (hsize : format.frameBytes = .ok size) :
    (∀ s : State, (machine capacity format).Reachable s → ¬ s.Deadlocked capacity) ↔ size ≤ capacity := by
  constructor
  · intro hnever
    by_contra hless
    obtain ⟨s, hs, hdead⟩ := exists_deadlocked hcapacity hsize (by omega)
    exact hnever s hs hdead
  · rintro hroom s hs ⟨-, hfull, size', hpump, hless⟩
    have hsize' := ((sound_reachable hs).1.pump.waiting size' _ hpump).2
    have heq : size = size' := by simpa using hsize.symm.trans hsize'
    omega

/-- Frames of 20 ms at 8 kHz. -/
def narrowband : MediaFormat where
  encoding := "L16"
  sampleRate := 8000
  bitDepth := 16
  channels := 1
  ptime := 20000000

theorem no_deadlock_iff_narrowband :
    (0 < 1048576 ∧ narrowband.frameBytes = .ok 320) ∧
      ((∀ s : State, (machine 1048576 narrowband).Reachable s → ¬ s.Deadlocked 1048576) ↔ 320 ≤ 1048576) :=
  ⟨⟨by decide, rfl⟩, no_deadlock_iff (by decide) rfl⟩

/-- Two bytes are written to a buffer of one byte. -/
theorem narrowband_deadlocked :
    ∃ s : State, (machine 1 narrowband).exec ⟨new, fun _ => .idle⟩ (jamRun 1) = some s ∧
      (machine 1 narrowband).Reachable s ∧ s.Deadlocked 1 := by
  have hexec : (machine 1 narrowband).exec ⟨new, fun _ => .idle⟩ (jamRun 1) = some _ := rfl
  have hstart : (machine 1 narrowband).Start ⟨new, fun _ => .idle⟩ := ⟨rfl, rfl⟩
  exact ⟨_, hexec, .of_exec hstart hexec, ⟨0, _, rfl⟩, rfl, 320, rfl, by decide⟩

end Rtvbp.Rust.AudioBuffer
