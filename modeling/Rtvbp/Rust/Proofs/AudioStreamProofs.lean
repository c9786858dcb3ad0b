import Rtvbp.Rust.AudioStream
import Rtvbp.Rust.Proofs.ByteBufferProofs

/-!
# Proofs: the audio stream

The byte buffers keep to the capacity by themselves. The timed view grows by one frame when `push_inbound_frame` admits
it, and by nothing else; it makes no one wait.
-/

namespace Rtvbp.Rust.AudioStream

open Rtvbp.Lib

variable {capacity size limit i : Nat} {s t : Shared} {c c' : Call} {a : Act}

/-! ## The steps -/

/-- The call `c` admits a frame to the timed view. -/
def Admits (s t : Shared) (c : Call) (a : Act) : Prop :=
  ∃ frame, c = .admitFrame frame ∧ a = .lock ∧ t.timed.pending = s.timed.pending + frame.data.length

/-- What a step does to the audio that the stream holds. -/
structure Moves (capacity : Nat) (s t : Shared) (c : Call) (a : Act) : Prop where
  inbound : s.inbound.bytes.length ≤ capacity → t.inbound.bytes.length ≤ capacity
  outbound : s.outbound.bytes.length ≤ capacity → t.outbound.bytes.length ≤ capacity
  timed : t.timed.pending ≤ s.timed.pending ∨ Admits s t c a

theorem Moves.refl : Moves capacity s s c a where
  inbound := id
  outbound := id
  timed := .inl le_rfl

/-- A step that changes the notifications of the timed view. -/
theorem Moves.notified (readable : Notify) : Moves capacity s (s.notified readable) c a where
  inbound := id
  outbound := id
  timed := .inl le_rfl

theorem onInbound_spec {call : ByteBuffer.Call} {b : ByteBuffer.Act} {f : ByteBuffer.Call → Call}
    (h : onInbound capacity i s call b f = some (t, c')) : Moves capacity s t c a ∧ ∃ call', c' = f call' := by
  obtain ⟨⟨inbound, call'⟩, hstep, heq⟩ := Option.map_eq_some_iff.mp h
  cases heq
  exact ⟨⟨(ByteBuffer.act_moves hstep).room, id, .inl le_rfl⟩, call', rfl⟩

theorem onOutbound_spec {call : ByteBuffer.Call} {b : ByteBuffer.Act} {f : ByteBuffer.Call → Call}
    (h : onOutbound capacity i s call b f = some (t, c')) : Moves capacity s t c a ∧ ∃ call', c' = f call' := by
  obtain ⟨⟨outbound, call'⟩, hstep, heq⟩ := Option.map_eq_some_iff.mp h
  cases heq
  exact ⟨⟨id, (ByteBuffer.act_moves hstep).room, .inl le_rfl⟩, call', rfl⟩

theorem lockPush_moves {frame : MediaFrame} : Moves capacity s (lockPush s frame).1 (.admitFrame frame) .lock := by
  by_cases hclosed : s.timed.closed = true
  · rw [lockPush, if_pos hclosed]
    exact .refl
  · rw [lockPush, if_neg hclosed]
    refine ⟨id, id, .inr ⟨frame, rfl, rfl, ?_⟩⟩
    simp [FrameBuffer.pending]

theorem lockPop_moves {generation : Nat} : Moves capacity s (lockPop s generation).1 c a := by
  unfold lockPop
  split
  next frame rest hframes =>
    refine ⟨id, id, .inl ?_⟩
    show (rest.map fun frame => frame.data.length).sum ≤ s.timed.pending
    rw [FrameBuffer.pending, hframes, List.map_cons, List.sum_cons]
    omega
  next hframes =>
    split
    · exact .refl
    · exact .refl

theorem awaitPop_moves {generation : Nat} : Moves capacity s (awaitPop i s generation).1 c a := by
  unfold awaitPop
  dsimp only
  split
  · exact .refl
  · split
    · exact .notified _
    · exact .notified _

/-- The frame of a call is no larger than a size. -/
def Call.Sized (size : Nat) : Call → Prop
  | .push frame _ => frame.data.length ≤ size
  | .admitFrame frame => frame.data.length ≤ size
  | _ => True

theorem writeAll_sized {frame : MediaFrame} {result : Except Error Nat} (h : frame.data.length ≤ size) :
    (writeAll frame result).Sized size := by
  unfold writeAll
  split
  · split
    · exact h
    · exact trivial
  · exact trivial

theorem lockPop_sized {generation : Nat} : (lockPop s generation).2.Sized size := by
  unfold lockPop
  split
  · exact trivial
  · split
    · exact trivial
    · exact trivial

theorem awaitPop_sized {generation : Nat} : (awaitPop i s generation).2.Sized size := by
  unfold awaitPop
  dsimp only
  split
  · exact trivial
  · split
    · exact trivial
    · exact trivial

/-- What a step does, to what the stream holds and to the frame of the call. -/
theorem act_spec (h : act capacity i s c a = some (t, c')) (hframed : Framed size i s c a) :
    Moves capacity s t c a ∧ (c.Sized size → c'.Sized size) := by
  unfold act at h
  split at h
  case h_1 frame =>
    cases h
    exact ⟨.refl, fun _ => hframed frame rfl⟩
  case h_2 n =>
    cases h
    exact ⟨.refl, fun _ => trivial⟩
  case h_3 =>
    cases h
    exact ⟨.refl, fun _ => trivial⟩
  case h_4 =>
    cases h
    exact ⟨.refl, fun _ => trivial⟩
  case h_5 =>
    cases h
    exact ⟨.refl, fun _ => trivial⟩
  case h_6 input =>
    cases h
    exact ⟨.refl, fun _ => trivial⟩
  case h_7 size =>
    cases h
    exact ⟨.refl, fun _ => trivial⟩
  case h_8 frame call b =>
    obtain ⟨hmoves, call', rfl⟩ := onInbound_spec h
    exact ⟨hmoves, id⟩
  case h_9 frame input result =>
    obtain ⟨rfl, rfl⟩ := Prod.ext_iff.mp (Option.some.inj h)
    exact ⟨.refl, writeAll_sized⟩
  case h_10 frame =>
    obtain ⟨rfl, rfl⟩ := Prod.ext_iff.mp (Option.some.inj h)
    refine ⟨lockPush_moves, fun _ => ?_⟩
    unfold lockPush
    split
    · exact trivial
    · exact trivial
  case h_11 =>
    cases h
    exact ⟨.notified _, fun _ => trivial⟩
  case h_12 call b =>
    obtain ⟨hmoves, call', rfl⟩ := onInbound_spec h
    exact ⟨hmoves, fun _ => trivial⟩
  case h_13 call b =>
    obtain ⟨hmoves, call', rfl⟩ := onOutbound_spec h
    exact ⟨hmoves, fun _ => trivial⟩
  case h_14 call b =>
    obtain ⟨hmoves, call', rfl⟩ := onInbound_spec h
    exact ⟨hmoves, fun _ => trivial⟩
  case h_15 call b =>
    obtain ⟨hmoves, call', rfl⟩ := onOutbound_spec h
    exact ⟨hmoves, fun _ => trivial⟩
  case h_16 =>
    cases h
    exact ⟨.refl, fun _ => trivial⟩
  case h_17 generation =>
    obtain ⟨rfl, rfl⟩ := Prod.ext_iff.mp (Option.some.inj h)
    exact ⟨lockPop_moves, fun _ => lockPop_sized⟩
  case h_18 generation =>
    obtain ⟨rfl, rfl⟩ := Prod.ext_iff.mp (Option.some.inj h)
    exact ⟨awaitPop_moves, fun _ => awaitPop_sized⟩
  case h_19 =>
    split at h
    · cases h
    · cases h
      exact ⟨.notified _, fun _ => trivial⟩
  case h_20 =>
    cases h
    exact ⟨.notified _, fun _ => trivial⟩
  case h_21 call b =>
    obtain ⟨hmoves, call', rfl⟩ := onInbound_spec h
    exact ⟨hmoves, fun _ => trivial⟩
  case h_22 =>
    cases h
    exact ⟨.refl, fun _ => trivial⟩
  case h_23 call b =>
    obtain ⟨hmoves, call', rfl⟩ := onOutbound_spec h
    exact ⟨hmoves, fun _ => trivial⟩
  case h_24 =>
    cases h
    exact ⟨.refl, fun _ => trivial⟩
  case h_25 =>
    cases h
    exact ⟨⟨id, id, .inl le_rfl⟩, fun _ => trivial⟩
  case h_26 =>
    cases h
    exact ⟨.notified _, fun _ => trivial⟩
  case h_27 => cases h

/-! ## The bound -/

/-- What the views hold. -/
structure Held (capacity size limit : Nat) (s : Shared) : Prop where
  inbound : s.inbound.bytes.length ≤ capacity
  outbound : s.outbound.bytes.length ≤ capacity
  timed : s.timed.pending ≤ limit + size

theorem held_new : Held capacity size limit new where
  inbound := Nat.zero_le capacity
  outbound := Nat.zero_le capacity
  timed := Nat.zero_le (limit + size)

/-- A step keeps what the views hold, if it does not put a frame behind too many others. -/
theorem Held.step (hs : Held capacity size limit s) (hc : c.Sized size) (hmoves : Moves capacity s t c a)
    (hdrained : Drained limit i s c a) : Held capacity size limit t := by
  refine ⟨hmoves.inbound hs.inbound, hmoves.outbound hs.outbound, ?_⟩
  have htimed := hs.timed
  obtain hle | ⟨frame, rfl, rfl, heq⟩ := hmoves.timed
  · omega
  · have hframe : frame.data.length ≤ size := hc
    have hpending : s.timed.pending ≤ limit := hdrained rfl
    omega

theorem held_of_drainedRuns {s : State} (h : DrainedRuns capacity size limit s) :
    Threads.Holds (Held capacity size limit) (fun _ _ => Call.Sized size) s := by
  refine Threads.invariant (P := threads capacity) (J := fun _ _ => Call.Sized size) ?_ ?_ ?_ h
  · intro s hs
    obtain rfl : s = new := hs
    exact ⟨held_new, fun _ => trivial⟩
  · intro i s c a t c' hs hc hG hstep
    obtain ⟨hmoves, hsized⟩ := act_spec hstep hG.1
    exact ⟨hs.step hc hmoves hG.2, hsized hc, fun j m _ hm => hm⟩
  · intro s e
    exact e.elim

/-- If the timed view is read so far that no frame enters it behind more than a limit, the stream holds no more than
the two capacities, the limit and one frame, in every run of its calls. The limit may depend on the capacity and on
the frame size. -/
theorem retained_le_of_drained (limit : Nat → Nat → Nat) (capacity size : Nat) (s : State)
    (h : DrainedRuns capacity size (limit capacity size) s) :
    s.shared.retained ≤ 2 * capacity + limit capacity size + size := by
  have hheld : Held capacity size (limit capacity size) s.shared := (held_of_drainedRuns h).1
  have hinbound := hheld.inbound
  have houtbound := hheld.outbound
  have htimed := hheld.timed
  rw [Shared.retained]
  omega

/-- Two frames of two bytes are pushed into a stream of two bytes; the application reads the bytes and the timed view of
the first one before the second one enters. -/
def drainedRun : List (Threads.Action Nat Act Empty) :=
  [.act 0 (.push ⟨[1, 2], none⟩), .act 0 (.buffer .note), .act 0 (.buffer .lock), .act 0 (.buffer .notify),
    .act 0 (.buffer .note), .act 0 .next, .act 0 .lock, .act 0 .notify,
    .act 1 (.read 2), .act 1 (.buffer .note), .act 1 (.buffer .lock), .act 1 (.buffer .notify),
    .act 2 .readTimed, .act 2 .note, .act 2 .lock,
    .act 3 (.push ⟨[3, 4], none⟩), .act 3 (.buffer .note), .act 3 (.buffer .lock), .act 3 (.buffer .notify),
    .act 3 (.buffer .note), .act 3 .next, .act 3 .lock]

/-- The stream after `drainedRun` holds the second frame twice. -/
theorem retained_le_drainedRun : ∃ s, (machine 2).exec ⟨new, fun _ => .idle⟩ drainedRun = some s ∧
    s.shared.retained = 4 ∧ s.shared.retained ≤ 2 * 2 + 0 + 2 :=
  ⟨_, rfl, rfl, retained_le_of_drained (fun _ _ => 0) 2 2 _
    (@Machine.ReachableWhere.of_exec _ _ (machine 2) _ ⟨new, fun _ => .idle⟩ _ drainedRun ⟨rfl, rfl⟩ (by decide)
      rfl)⟩

/-! ## A stream of which only the bytes are read -/

/-- The steps of `push_inbound_frame` for a frame that fits. -/
def pushSteps (frame : MediaFrame) : List Act :=
  [.push frame, .buffer .note, .buffer .lock, .buffer .notify, .buffer .note, .next, .lock, .notify]

/-- The steps of `read` for bytes that are there. -/
def readSteps (n : Nat) : List Act := [.read n, .buffer .note, .buffer .lock, .buffer .notify]

theorem frame_of_mem_pushSteps {frame : MediaFrame} : ∀ a ∈ pushSteps frame, ∀ other ∈ a.frame?, other = frame := by
  simp [pushSteps, Act.frame?]

theorem frame_of_mem_readSteps {n : Nat} : ∀ a ∈ readSteps n, ∀ other, other ∉ a.frame? := by
  simp [readSteps, Act.frame?]

/-- The bytes have been read, and the frames have not. -/
structure Unread (size n : Nat) (s : Shared) : Prop where
  bytes : s.inbound.bytes = []
  inboundOpen : s.inbound.closed = false
  timedOpen : s.timed.closed = false
  pending : s.timed.pending = n * size

/-- The section of `write` under the lock takes a frame at once that fits into the empty buffer. -/
theorem lockWrite_of_fits (i generation : Nat) {b : ByteBuffer.Shared} {data : List UInt8} (hbytes : b.bytes = [])
    (hopen : b.closed = false) (hpos : 0 < data.length) (hfits : data.length ≤ capacity) :
    ByteBuffer.lockWrite capacity i b data 0 generation =
      ({ b with bytes := data, accepted := b.accepted ++ [(i, data)], waking := i :: b.waking },
        .wrote data data.length) := by
  have hroom : 0 < capacity - b.bytes.length := by
    rw [hbytes, List.length_nil]
    omega
  have hcount : min (capacity - b.bytes.length) (data.length - 0) = data.length := by
    rw [hbytes, List.length_nil]
    omega
  have hclosed : ¬ b.closed = true := by simp [hopen]
  rw [ByteBuffer.lockWrite, if_neg hclosed, if_pos hroom]
  dsimp only
  rw [hcount, hbytes, List.drop_zero, List.take_length, List.nil_append, Nat.zero_add]

/-- A frame that fits is pushed without waiting. -/
theorem solo_push {frame : MediaFrame} {n : Nat} (hs : Unread frame.data.length n s) (hpos : 0 < frame.data.length)
    (hfits : frame.data.length ≤ capacity) : ∃ t, (threads capacity).solo i s .idle (pushSteps frame) =
      some (t, .pushReturned (.ok ())) ∧ t.inbound.bytes = frame.data ∧ t.inbound.closed = false ∧
      t.timed.closed = false ∧ t.timed.pending = (n + 1) * frame.data.length := by
  have hlock := lockWrite_of_fits i s.inbound.writable hs.bytes hs.inboundOpen hpos hfits
  let written : ByteBuffer.Shared := { s.inbound with
    bytes := frame.data
    accepted := s.inbound.accepted ++ [(i, frame.data)]
    waking := i :: s.inbound.waking }
  let announced : Shared := { s with inbound := ByteBuffer.notifyReadable i written }
  let admitted : Shared := { announced with timed := { s.timed with frames := s.timed.frames ++ [frame] } }
  have hpush : (threads capacity).act i s .idle (.push frame) = some (s, .push frame (.writing frame.data 0)) := rfl
  have hnote : (threads capacity).act i s (.push frame (.writing frame.data 0)) (.buffer .note) =
      some (s, .push frame (.writeNoted frame.data 0 s.inbound.writable)) := by
    show Option.map _ (if 0 < frame.data.length then _ else _) = _
    rw [if_pos hpos]
    rfl
  have hwrite : (threads capacity).act i s (.push frame (.writeNoted frame.data 0 s.inbound.writable)) (.buffer .lock) =
      some ({ s with inbound := written }, .push frame (.wrote frame.data frame.data.length)) := by
    show onInbound capacity i s (.writeNoted frame.data 0 s.inbound.writable) .lock (.push frame) = _
    rw [onInbound, ByteBuffer.act, hlock]
    rfl
  have hannounce : (threads capacity).act i { s with inbound := written }
      (.push frame (.wrote frame.data frame.data.length)) (.buffer .notify) =
      some (announced, .push frame (.writing frame.data frame.data.length)) := rfl
  have hdone : (threads capacity).act i announced (.push frame (.writing frame.data frame.data.length))
      (.buffer .note) = some (announced, .push frame (.writeReturned frame.data (.ok frame.data.length))) := by
    show Option.map _ (if frame.data.length < frame.data.length then _ else _) = _
    rw [if_neg (Nat.lt_irrefl _)]
    rfl
  have hall : (threads capacity).act i announced (.push frame (.writeReturned frame.data (.ok frame.data.length)))
      .next = some (announced, .admitFrame frame) := by
    show some (announced, writeAll frame (.ok frame.data.length)) = _
    rw [writeAll, if_pos rfl]
  have hadmit : (threads capacity).act i announced (.admitFrame frame) .lock = some (admitted, .admitted) := by
    have hopen : ¬ announced.timed.closed = true := by
      rw [show announced.timed.closed = false from hs.timedOpen]
      decide
    show some (lockPush announced frame) = _
    rw [lockPush, if_neg hopen]
  refine ⟨admitted.notified s.timed.readable.notifyOne, ?_, rfl, hs.inboundOpen, hs.timedOpen, ?_⟩
  · rw [pushSteps, Threads.solo_cons hpush, Threads.solo_cons hnote, Threads.solo_cons hwrite,
      Threads.solo_cons hannounce, Threads.solo_cons hdone, Threads.solo_cons hall, Threads.solo_cons hadmit]
    rfl
  · show ((s.timed.frames ++ [frame]).map fun frame => frame.data.length).sum = (n + 1) * frame.data.length
    have hpending : (s.timed.frames.map fun frame => frame.data.length).sum = n * frame.data.length := hs.pending
    rw [List.map_append, List.sum_append, hpending, Nat.add_one_mul]
    rfl

/-- The bytes of a frame are read without waiting, and the timed view keeps the frame. -/
theorem solo_read (capacity i : Nat) {data : List UInt8} {n : Nat} (hbytes : s.inbound.bytes = data) (hpos : 0 < data.length)
    (hinbound : s.inbound.closed = false) (htimed : s.timed.closed = false)
    (hpending : s.timed.pending = n * data.length) :
    ∃ t, (threads capacity).solo i s .idle (readSteps data.length) =
      some (t, .read (.readReturned (.upTo data.length) (.ok data))) ∧ Unread data.length n t := by
  have hne : s.inbound.bytes ≠ [] := by
    rw [hbytes]
    exact List.ne_nil_of_length_pos hpos
  have henter : ByteBuffer.enterRead (.upTo data.length) = .reading (.upTo data.length) := by
    rw [Nat.eq_add_of_sub_eq hpos rfl]
    rfl
  have hlock : ByteBuffer.lockRead i s.inbound (.upTo data.length) s.inbound.readable =
      (ByteBuffer.takeFront i s.inbound data.length, .took (.upTo data.length) data) := by
    rw [ByteBuffer.lockRead, if_pos hne, hbytes, Nat.min_self]
    dsimp only
    rw [List.take_length]
  let taken : Shared := { s with inbound := ByteBuffer.takeFront i s.inbound data.length }
  have hread : (threads capacity).act i s .idle (.read data.length) = some (s, .read (.reading (.upTo data.length))) := by
    show some (s, Call.read (ByteBuffer.enterRead (.upTo data.length))) = _
    rw [henter]
  have hnote : (threads capacity).act i s (.read (.reading (.upTo data.length))) (.buffer .note) =
      some (s, .read (.readNoted (.upTo data.length) s.inbound.readable)) := rfl
  have htake : (threads capacity).act i s (.read (.readNoted (.upTo data.length) s.inbound.readable)) (.buffer .lock) =
      some (taken, .read (.took (.upTo data.length) data)) := by
    show onInbound capacity i s (.readNoted (.upTo data.length) s.inbound.readable) .lock .read = _
    rw [onInbound, ByteBuffer.act, hlock]
    rfl
  refine ⟨{ taken with inbound := ByteBuffer.notifyWritable i taken.inbound }, ?_, ?_⟩
  · rw [readSteps, Threads.solo_cons hread, Threads.solo_cons hnote, Threads.solo_cons htake]
    rfl
  · refine ⟨?_, hinbound, htimed, hpending⟩
    show s.inbound.bytes.drop data.length = []
    rw [hbytes, List.drop_length]

/-- The application reads the bytes of every frame, and nothing else. -/
theorem unread_reachable (capacity : Nat) (frame : MediaFrame) (hpos : 0 < frame.data.length) (hfits : frame.data.length ≤ capacity)
    (n : Nat) : ∃ s : State, Runs capacity frame.data.length s ∧ Unread frame.data.length n s.shared ∧
      ∀ i, 2 * n ≤ i → s.locals i = .idle := by
  induction n with
  | zero =>
    refine ⟨⟨new, fun _ => .idle⟩, .start ⟨rfl, rfl⟩, ⟨rfl, rfl, rfl, ?_⟩, fun _ _ => rfl⟩
    rw [Nat.zero_mul]
    rfl
  | succ n ih =>
    obtain ⟨s, hrun, hunread, hidle⟩ := ih
    obtain ⟨t, hpush, hbytes, hinbound, htimed, hpending⟩ := solo_push (i := 2 * n) hunread hpos hfits
    have hframed : ∀ a ∈ pushSteps frame, ∀ s l, Framed frame.data.length (2 * n) s l a := by
      intro a ha s l other hother
      rw [frame_of_mem_pushSteps a ha other hother]
    rw [← hidle (2 * n) le_rfl] at hpush
    have hpushed := Threads.reachable_solo hframed hrun hpush
    obtain ⟨u, hread, hunread'⟩ := solo_read capacity (2 * n + 1) hbytes hpos hinbound htimed hpending
    have hnew : Function.update s.locals (2 * n) (.pushReturned (.ok ())) (2 * n + 1) = .idle := by
      rw [Function.update_of_ne (by omega)]
      exact hidle (2 * n + 1) (by omega)
    have hreads : ∀ a ∈ readSteps frame.data.length, ∀ s l, Framed frame.data.length (2 * n + 1) s l a := by
      intro a ha s l other hother
      exact absurd hother (frame_of_mem_readSteps a ha other)
    rw [← hnew] at hread
    refine ⟨_, Threads.reachable_solo hreads hpushed hread, hunread', fun i hi => ?_⟩
    show Function.update (Function.update s.locals (2 * n) _) (2 * n + 1) _ i = .idle
    rw [Function.update_of_ne (by omega), Function.update_of_ne (by omega)]
    exact hidle i (by omega)

/-- There is no bound on what the stream holds: an application that reads only the bytes of a stream of 640 bytes
makes it hold any number of frames of 320 bytes. -/
theorem retained_unbounded : ¬ ∃ bound : Nat → Nat → Nat, ∀ capacity size, 0 < capacity →
    ∀ s : State, Runs capacity size s → s.shared.retained ≤ bound capacity size := by
  rintro ⟨bound, hbound⟩
  let frame : MediaFrame := { data := List.replicate 320 0, pts := none }
  have hlength : frame.data.length = 320 := List.length_replicate
  obtain ⟨s, hrun, hunread, -⟩ := unread_reachable 640 frame (by omega) (by omega) (bound 640 320 + 1)
  rw [hlength] at hrun hunread
  have hle := hbound 640 320 (by omega) s hrun
  have hpending := hunread.pending
  rw [Shared.retained] at hle
  omega

end Rtvbp.Rust.AudioStream
