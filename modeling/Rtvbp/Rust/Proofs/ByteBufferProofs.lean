import Rtvbp.Rust.ByteBuffer
import Mathlib.Tactic

/-!
# Proofs: the byte buffer

A step of a call is described once, by what it does to the shared state and to the call. The invariant has a part for
the bytes and a part for every call; a call that is parked relies on what the steps of the others can do.
-/

namespace Rtvbp.Rust.ByteBuffer

open Rtvbp.Lib

variable {capacity i j : Nat} {s t : Shared} {c c' m : Call} {a : Act}

/-! ## The steps -/

/-- A call goes on and leaves the shared state as it is. -/
structure Proceeds (capacity : Nat) (s : Shared) (c c' : Call) : Prop where
  wakes : ¬ c.WillWake
  frees : ¬ c.WillFree
  accepted : ∀ data, c'.accepted? = some data → c.accepted? = some data
  taken : ∀ data, c'.taken? = some data → c.taken? = some data
  writeNoted : ∀ input written generation, c' = .writeNoted input written generation → generation = s.writable
  writeWaiting : ∀ input written generation, c' = .writeWaiting input written generation →
    c = .writeNoted input written generation ∧ ¬ s.Writable capacity
  readNoted : ∀ want generation, c' = .readNoted want generation → generation = s.readable
  readWaiting : ∀ want generation, c' = .readWaiting want generation →
    c = .readNoted want generation ∧ ¬ s.Ready want
  took : ∀ want data, c' ≠ .took want data
  returned : ∀ size data, c' ≠ .readReturned (.exact size) (.ok data)
  cleared : ∀ count, c' ≠ .cleared count ∧ c' ≠ .clearReturned count

/-- What the call `i` does in a step. -/
inductive Moves (capacity i : Nat) (s : Shared) (c : Call) : Shared → Call → Prop where
  | proceed {c' : Call} (h : Proceeds capacity s c c') : Moves capacity i s c s c'
  | accept {input : List UInt8} {written generation count : Nat} (noted : c = .writeNoted input written generation)
      (isOpen : s.closed = false) (room : s.bytes.length + count ≤ capacity) :
      Moves capacity i s c
        { s with
          bytes := s.bytes ++ (input.drop written).take count
          accepted := s.accepted ++ [(i, (input.drop written).take count)]
          waking := i :: s.waking }
        (.wrote input (written + count))
  | take {want : Want} {generation count : Nat} (noted : c = .readNoted want generation)
      (enough : count ≤ s.bytes.length) (exact : ∀ size, want = .exact size → count = size) :
      Moves capacity i s c (takeFront i s count) (.took want (s.bytes.take count))
  | discard {size generation : Nat} (noted : c = .readNoted (.exact size) generation) (closed : s.closed = true) :
      Moves capacity i s c { s with bytes := [], taken := s.taken ++ [(i, s.bytes)] }
        (.readReturned (.exact size) (.error .closed))
  | clear (clearing : c = .clearing) :
      Moves capacity i s c (takeFront i s s.bytes.length) (.cleared s.bytes.length)
  | close (closing : c = .closing) :
      Moves capacity i s c { s with closed := true, waking := i :: s.waking, freeing := i :: s.freeing }
        .closedState
  | wakeWritten {input : List UInt8} {written : Nat} (wrote : c = .wrote input written) :
      Moves capacity i s c (notifyReadable i s) (.writing input written)
  | wakeClosed (closed : c = .closedState) : Moves capacity i s c (notifyReadable i s) .closedReadable
  | freeTook {want : Want} {data : List UInt8} (took : c = .took want data) :
      Moves capacity i s c (notifyWritable i s) (.readReturned want (.ok data))
  | freeCleared {count : Nat} (cleared : c = .cleared count) :
      Moves capacity i s c (notifyWritable i s) (.clearReturned count)
  | freeClosed (closed : c = .closedReadable) : Moves capacity i s c (notifyWritable i s) .closeReturned

/-- A call goes on to a place where it holds nothing of the shared state. -/
theorem Proceeds.quiet (hc : ¬ c.WillWake ∧ ¬ c.WillFree) (haccepted : ∀ data, c'.accepted? = some data →
      c.accepted? = some data) (htaken : ∀ data, c'.taken? = some data → c.taken? = some data)
    (hquiet : (∃ input written, c' = .writing input written) ∨ (∃ input result, c' = .writeReturned input result) ∨
      (∃ want, c' = .reading want) ∨ (∃ want, c' = .readReturned want (.error .closed)) ∨
      c' = .readReturned (.upTo 0) (.ok []) ∨ c' = .clearing ∨ c' = .closing ∨ c' = .dropped) :
    Proceeds capacity s c c' := by
  obtain ⟨input, written, rfl⟩ | ⟨input, result, rfl⟩ | ⟨want, rfl⟩ | ⟨want, rfl⟩ | rfl | rfl | rfl | rfl := hquiet
  all_goals
    exact ⟨hc.1, hc.2, haccepted, htaken, by simp, by simp, by simp, by simp, by simp, by simp, by simp⟩

theorem lockWrite_moves {input : List UInt8} {written generation : Nat} :
    Moves capacity i s (.writeNoted input written generation) (lockWrite capacity i s input written generation).1
      (lockWrite capacity i s input written generation).2 := by
  by_cases hclosed : s.closed = true
  · rw [lockWrite, if_pos hclosed]
    refine .proceed (.quiet ⟨id, id⟩ (fun data hdata => ?_) (by simp [Call.taken?]) (.inr (.inl ⟨_, _, rfl⟩)))
    by_cases hwritten : written = 0
    · subst hwritten
      rw [if_pos rfl] at hdata
      simpa [Call.accepted?] using hdata
    · rw [if_neg hwritten] at hdata
      exact hdata
  · have hopen : s.closed = false := by simpa using hclosed
    by_cases hroom : 0 < capacity - s.bytes.length
    · rw [lockWrite, if_neg hclosed, if_pos hroom]
      have hcount : min (capacity - s.bytes.length) (input.length - written) ≤ capacity - s.bytes.length :=
        Nat.min_le_left _ _
      exact .accept rfl hopen (by omega)
    · rw [lockWrite, if_neg hclosed, if_neg hroom]
      refine .proceed ⟨id, id, fun data h => h, by simp [Call.taken?], by simp, ?_, by simp, by simp, by simp, by simp,
        by simp⟩
      intro input' written' generation' heq
      cases heq
      refine ⟨rfl, ?_⟩
      rintro (hclosed' | hless)
      · exact hclosed hclosed'
      · omega

theorem lockRead_moves {want : Want} {generation : Nat} :
    Moves capacity i s (.readNoted want generation) (lockRead i s want generation).1
      (lockRead i s want generation).2 := by
  cases want with
  | upTo n =>
    by_cases hbytes : s.bytes ≠ []
    · simp only [lockRead, if_pos hbytes]
      exact .take rfl (Nat.min_le_right _ _) (by simp)
    · simp only [lockRead, if_neg hbytes]
      by_cases hclosed : s.closed = true
      · rw [if_pos hclosed]
        exact .proceed (.quiet ⟨id, id⟩ (by simp [Call.accepted?]) (by simp [Call.taken?]) (by simp))
      · rw [if_neg hclosed]
        refine .proceed ⟨id, id, by simp [Call.accepted?], fun data h => h, by simp, by simp, by simp, ?_, by simp,
          by simp, by simp⟩
        intro want' generation' heq
        cases heq
        refine ⟨rfl, ?_⟩
        rintro (hclosed' | hbytes')
        · exact hclosed hclosed'
        · exact hbytes hbytes'
  | exact size =>
    by_cases henough : size ≤ s.bytes.length
    · simp only [lockRead, if_pos henough]
      exact .take rfl henough (by simp)
    · simp only [lockRead, if_neg henough]
      by_cases hclosed : s.closed = true
      · rw [if_pos hclosed]
        exact .discard rfl hclosed
      · rw [if_neg hclosed]
        refine .proceed ⟨id, id, by simp [Call.accepted?], fun data h => h, by simp, by simp, by simp, ?_, by simp,
          by simp, by simp⟩
        intro want' generation' heq
        cases heq
        refine ⟨rfl, ?_⟩
        rintro (hclosed' | henough')
        · exact hclosed hclosed'
        · exact henough henough'

theorem enterRead_moves (want : Want) : Moves capacity i s .idle s (enterRead want) := by
  unfold enterRead
  split
  · exact .proceed (.quiet ⟨id, id⟩ (by simp [Call.accepted?]) (by simp [Call.taken?]) (by simp))
  · exact .proceed (.quiet ⟨id, id⟩ (by simp [Call.accepted?]) (by simp [Call.taken?]) (by simp))

/-- What a step does. -/
theorem act_moves (h : act capacity i s c a = some (t, c')) : Moves capacity i s c t c' := by
  unfold act at h
  split at h
  case h_1 input =>
    cases h
    exact .proceed (.quiet ⟨id, id⟩ (by simp [Call.accepted?]) (by simp [Call.taken?]) (by simp))
  case h_2 want =>
    cases h
    exact enterRead_moves want
  case h_3 =>
    cases h
    exact .proceed (.quiet ⟨id, id⟩ (by simp [Call.accepted?]) (by simp [Call.taken?]) (by simp))
  case h_4 =>
    cases h
    exact .proceed (.quiet ⟨id, id⟩ (by simp [Call.accepted?]) (by simp [Call.taken?]) (by simp))
  case h_5 input written =>
    split at h
    · cases h
      exact .proceed ⟨id, id, fun data h => h, by simp [Call.taken?], by simp, by simp, by simp, by simp, by simp,
        by simp, by simp⟩
    · cases h
      exact .proceed (.quiet ⟨id, id⟩ (fun data h => h) (by simp [Call.taken?]) (by simp))
  case h_6 input written generation =>
    obtain ⟨rfl, rfl⟩ := Prod.ext_iff.mp (Option.some.inj h)
    exact lockWrite_moves
  case h_7 input written =>
    cases h
    exact .wakeWritten rfl
  case h_8 input written generation =>
    split at h
    · cases h
    · cases h
      exact .proceed (.quiet ⟨id, id⟩ (fun data h => h) (by simp [Call.taken?]) (by simp))
  case h_9 input written generation =>
    cases h
    exact .proceed (.quiet ⟨id, id⟩ (by simp [Call.accepted?]) (by simp [Call.taken?]) (by simp))
  case h_10 want =>
    cases h
    exact .proceed ⟨id, id, by simp [Call.accepted?], fun data h => h, by simp, by simp, by simp, by simp, by simp,
      by simp, by simp⟩
  case h_11 want generation =>
    obtain ⟨rfl, rfl⟩ := Prod.ext_iff.mp (Option.some.inj h)
    exact lockRead_moves
  case h_12 want data =>
    cases h
    exact .freeTook rfl
  case h_13 want generation =>
    split at h
    · cases h
    · cases h
      exact .proceed (.quiet ⟨id, id⟩ (by simp [Call.accepted?]) (fun data h => h) (by simp))
  case h_14 want generation =>
    cases h
    exact .proceed (.quiet ⟨id, id⟩ (by simp [Call.accepted?]) (by simp [Call.taken?]) (by simp))
  case h_15 =>
    cases h
    exact .clear rfl
  case h_16 count =>
    cases h
    exact .freeCleared rfl
  case h_17 =>
    cases h
    exact .close rfl
  case h_18 =>
    cases h
    exact .wakeClosed rfl
  case h_19 =>
    cases h
    exact .freeClosed rfl
  case h_20 => cases h

/-! ## Histories -/

theorem pieces_append (history : List (Nat × List UInt8)) (i : Nat) (data : List UInt8) :
    pieces (history ++ [(i, data)]) i = pieces history i ++ data := by
  simp [pieces]

theorem pieces_append_of_ne {history : List (Nat × List UInt8)} {data : List UInt8} (h : j ≠ i) :
    pieces (history ++ [(i, data)]) j = pieces history j := by
  have hne : ¬ i = j := fun heq => h heq.symm
  simp [pieces, hne]

/-! ## The invariant -/

/-- The part of the shared state. -/
structure Sound (capacity : Nat) (s : Shared) : Prop where
  room : s.bytes.length ≤ capacity
  order : s.accepted.flatMap Prod.snd = s.taken.flatMap Prod.snd ++ s.bytes
  waking : s.waking.Nodup
  freeing : s.freeing.Nodup

/-- The part of a call: what is recorded for it in the history is what it knows; while it waits, either what it waits
for is false or a notification is under way. -/
structure Call.Settled (capacity i : Nat) (s : Shared) (c : Call) : Prop where
  waking : i ∈ s.waking → c.WillWake
  freeing : i ∈ s.freeing → c.WillFree
  accepted : ∀ data, c.accepted? = some data → pieces s.accepted i = data
  taken : ∀ data, c.taken? = some data → pieces s.taken i = data
  writeNoted : ∀ input written generation, c = .writeNoted input written generation → generation ≤ s.writable
  writeWaiting : ∀ input written generation, c = .writeWaiting input written generation → generation ≤ s.writable
  writeParked : ∀ input written, c = .writeWaiting input written s.writable → s.Writable capacity → s.freeing ≠ []
  readNoted : ∀ want generation, c = .readNoted want generation → generation ≤ s.readable
  readWaiting : ∀ want generation, c = .readWaiting want generation → generation ≤ s.readable
  readParked : ∀ want, c = .readWaiting want s.readable → s.Ready want → s.waking ≠ []
  took : ∀ size data, c = .took (.exact size) data → data.length = size
  returned : ∀ size data, c = .readReturned (.exact size) (.ok data) → data.length = size
  cleared : ∀ count, c = .cleared count ∨ c = .clearReturned count → (pieces s.taken i).length = count

theorem sound_new : Sound capacity new where
  room := Nat.zero_le capacity
  order := rfl
  waking := List.nodup_nil
  freeing := List.nodup_nil

theorem settled_idle : Call.Settled capacity i new .idle where
  waking h := absurd h List.not_mem_nil
  freeing h := absurd h List.not_mem_nil
  accepted data h := by
    cases h
    rfl
  taken data h := by
    cases h
    rfl
  writeNoted := by simp
  writeWaiting := by simp
  writeParked := by simp
  readNoted := by simp
  readWaiting := by simp
  readParked := by simp
  took := by simp
  returned := by simp
  cleared := by simp

/-! ### The shared state -/

theorem sound_takeFront {count : Nat} (h : Sound capacity s) (hi : i ∉ s.freeing) :
    Sound capacity (takeFront i s count) := by
  refine ⟨?_, ?_, h.waking, List.nodup_cons.mpr ⟨hi, h.freeing⟩⟩
  · have hroom := h.room
    show (s.bytes.drop count).length ≤ capacity
    rw [List.length_drop]
    omega
  · show s.accepted.flatMap Prod.snd = (s.taken ++ [(i, s.bytes.take count)]).flatMap Prod.snd ++ s.bytes.drop count
    rw [h.order]
    simp

/-- A step keeps to the capacity. -/
theorem Moves.room (h : Moves capacity i s c t c') (hs : s.bytes.length ≤ capacity) : t.bytes.length ≤ capacity := by
  cases h with
  | @accept input written generation count noted isOpen room =>
    have htake : ((input.drop written).take count).length ≤ count := List.length_take_le count _
    show (s.bytes ++ (input.drop written).take count).length ≤ capacity
    rw [List.length_append]
    omega
  | @take want generation count noted enough exact =>
    show (s.bytes.drop count).length ≤ capacity
    rw [List.length_drop]
    omega
  | clear clearing =>
    show (s.bytes.drop s.bytes.length).length ≤ capacity
    rw [List.length_drop]
    omega
  | discard noted closed => exact Nat.zero_le capacity
  | proceed hproceeds => exact hs
  | close closing => exact hs
  | wakeWritten wrote => exact hs
  | wakeClosed closed => exact hs
  | freeTook took => exact hs
  | freeCleared cleared => exact hs
  | freeClosed closed => exact hs

/-- A step keeps the part of the shared state. -/
theorem Moves.sound (h : Moves capacity i s c t c') (hs : Sound capacity s) (hc : c.Settled capacity i s) :
    Sound capacity t := by
  have hroom : t.bytes.length ≤ capacity := h.room hs.room
  cases h with
  | proceed hproceeds => exact hs
  | @accept input written generation count noted isOpen room =>
    have hi : i ∉ s.waking := by
      intro hmem
      have hwakes := hc.waking hmem
      rw [noted] at hwakes
      exact hwakes
    refine ⟨hroom, ?_, List.nodup_cons.mpr ⟨hi, hs.waking⟩, hs.freeing⟩
    show (s.accepted ++ [(i, (input.drop written).take count)]).flatMap Prod.snd =
      s.taken.flatMap Prod.snd ++ (s.bytes ++ (input.drop written).take count)
    rw [List.flatMap_append, hs.order]
    simp
  | take noted enough exact =>
    refine sound_takeFront hs fun hmem => ?_
    have hfrees := hc.freeing hmem
    rw [noted] at hfrees
    exact hfrees
  | discard noted closed =>
    refine ⟨Nat.zero_le capacity, ?_, hs.waking, hs.freeing⟩
    show s.accepted.flatMap Prod.snd = (s.taken ++ [(i, s.bytes)]).flatMap Prod.snd ++ []
    rw [hs.order]
    simp
  | clear clearing =>
    refine sound_takeFront hs fun hmem => ?_
    have hfrees := hc.freeing hmem
    rw [clearing] at hfrees
    exact hfrees
  | close closing =>
    have hwaking : i ∉ s.waking := by
      intro hmem
      have hwakes := hc.waking hmem
      rw [closing] at hwakes
      exact hwakes
    have hfreeing : i ∉ s.freeing := by
      intro hmem
      have hfrees := hc.freeing hmem
      rw [closing] at hfrees
      exact hfrees
    exact ⟨hs.room, hs.order, List.nodup_cons.mpr ⟨hwaking, hs.waking⟩, List.nodup_cons.mpr ⟨hfreeing, hs.freeing⟩⟩
  | wakeWritten wrote => exact ⟨hs.room, hs.order, hs.waking.erase i, hs.freeing⟩
  | wakeClosed closed => exact ⟨hs.room, hs.order, hs.waking.erase i, hs.freeing⟩
  | freeTook took => exact ⟨hs.room, hs.order, hs.waking, hs.freeing.erase i⟩
  | freeCleared cleared => exact ⟨hs.room, hs.order, hs.waking, hs.freeing.erase i⟩
  | freeClosed closed => exact ⟨hs.room, hs.order, hs.waking, hs.freeing.erase i⟩

/-! ### The other calls -/

/-- What the call `i` can do to the others: it never takes back a notification, and what it makes true for them it is
about to announce. -/
structure Interferes (capacity i : Nat) (s t : Shared) : Prop where
  readable : s.readable ≤ t.readable
  writable : s.writable ≤ t.writable
  waking : ∀ j, j ≠ i → j ∈ t.waking → j ∈ s.waking
  freeing : ∀ j, j ≠ i → j ∈ t.freeing → j ∈ s.freeing
  ready : t.readable = s.readable → ∀ want, (s.Ready want → s.waking ≠ []) → t.Ready want → t.waking ≠ []
  room : t.writable = s.writable → (s.Writable capacity → s.freeing ≠ []) → t.Writable capacity → t.freeing ≠ []
  accepted : ∀ j, j ≠ i → pieces t.accepted j = pieces s.accepted j
  taken : ∀ j, j ≠ i → pieces t.taken j = pieces s.taken j

theorem interferes_takeFront {count : Nat} : Interferes capacity i s (takeFront i s count) where
  readable := le_refl _
  writable := le_refl _
  waking _ _ h := h
  freeing j hne h := List.mem_of_ne_of_mem hne h
  ready _ want hready h := by
    refine hready ?_
    cases want with
    | upTo n =>
      refine h.imp_right fun hbytes hnil => hbytes ?_
      show s.bytes.drop count = []
      rw [hnil, List.drop_nil]
    | exact size =>
      refine h.imp_right fun henough => ?_
      have hlength : size ≤ (s.bytes.drop count).length := henough
      rw [List.length_drop] at hlength
      omega
  room _ _ _ := List.cons_ne_nil i s.freeing
  accepted _ _ := rfl
  taken _ hne := pieces_append_of_ne hne

theorem interferes_notifyReadable : Interferes capacity i s (notifyReadable i s) where
  readable := Nat.le_succ _
  writable := le_refl _
  waking _ _ h := List.mem_of_mem_erase h
  freeing _ _ h := h
  ready heq := absurd heq (Nat.succ_ne_self s.readable)
  room _ hroom h := hroom h
  accepted _ _ := rfl
  taken _ _ := rfl

theorem interferes_notifyWritable : Interferes capacity i s (notifyWritable i s) where
  readable := le_refl _
  writable := Nat.le_succ _
  waking _ _ h := h
  freeing _ _ h := List.mem_of_mem_erase h
  ready _ want hready h := hready (by cases want <;> exact h)
  room heq := absurd heq (Nat.succ_ne_self s.writable)
  accepted _ _ := rfl
  taken _ _ := rfl

theorem Moves.interferes (h : Moves capacity i s c t c') : Interferes capacity i s t := by
  cases h with
  | proceed hproceeds =>
    exact ⟨le_refl _, le_refl _, fun _ _ h => h, fun _ _ h => h, fun _ _ hready h => hready h,
      fun _ hroom h => hroom h, fun _ _ => rfl, fun _ _ => rfl⟩
  | accept noted isOpen room =>
    refine ⟨le_refl _, le_refl _, fun j hne h => List.mem_of_ne_of_mem hne h, fun _ _ h => h,
      fun _ _ _ _ => List.cons_ne_nil i s.waking, fun _ hroom h => hroom ?_, fun _ hne => pieces_append_of_ne hne,
      fun _ _ => rfl⟩
    refine h.imp_right fun hless => ?_
    have hlength : (s.bytes ++ _).length < capacity := hless
    rw [List.length_append] at hlength
    omega
  | take noted enough exact => exact interferes_takeFront
  | discard noted closed =>
    refine ⟨le_refl _, le_refl _, fun _ _ h => h, fun _ _ h => h, fun _ want hready _ => hready ?_,
      fun _ hroom _ => hroom (.inl closed), fun _ _ => rfl, fun _ hne => pieces_append_of_ne hne⟩
    cases want <;> exact .inl closed
  | clear clearing => exact interferes_takeFront
  | close closing =>
    exact ⟨le_refl _, le_refl _, fun j hne h => List.mem_of_ne_of_mem hne h,
      fun j hne h => List.mem_of_ne_of_mem hne h, fun _ _ _ _ => List.cons_ne_nil i s.waking,
      fun _ _ _ => List.cons_ne_nil i s.freeing, fun _ _ => rfl, fun _ _ => rfl⟩
  | wakeWritten wrote => exact interferes_notifyReadable
  | wakeClosed closed => exact interferes_notifyReadable
  | freeTook took => exact interferes_notifyWritable
  | freeCleared cleared => exact interferes_notifyWritable
  | freeClosed closed => exact interferes_notifyWritable

/-- A call keeps its part when another call makes a step. -/
theorem Interferes.settled (h : Interferes capacity i s t) (hne : j ≠ i) (hm : m.Settled capacity j s) :
    m.Settled capacity j t where
  waking hmem := hm.waking (h.waking j hne hmem)
  freeing hmem := hm.freeing (h.freeing j hne hmem)
  accepted data hdata := (h.accepted j hne).trans (hm.accepted data hdata)
  taken data hdata := (h.taken j hne).trans (hm.taken data hdata)
  writeNoted input written generation heq := (hm.writeNoted input written generation heq).trans h.writable
  writeWaiting input written generation heq := (hm.writeWaiting input written generation heq).trans h.writable
  writeParked input written heq hroom := by
    have hle := hm.writeWaiting input written t.writable heq
    have hwritable : t.writable = s.writable := le_antisymm hle h.writable
    rw [hwritable] at heq
    exact h.room hwritable (hm.writeParked input written heq) hroom
  readNoted want generation heq := (hm.readNoted want generation heq).trans h.readable
  readWaiting want generation heq := (hm.readWaiting want generation heq).trans h.readable
  readParked want heq hready := by
    have hle := hm.readWaiting want t.readable heq
    have hreadable : t.readable = s.readable := le_antisymm hle h.readable
    rw [hreadable] at heq
    exact h.ready hreadable want (hm.readParked want heq) hready
  took := hm.took
  returned := hm.returned
  cleared count heq := by
    rw [h.taken j hne]
    exact hm.cleared count heq

/-! ### The call itself -/

theorem Proceeds.settled (h : Proceeds capacity s c c') (hc : c.Settled capacity i s) : c'.Settled capacity i s where
  waking hmem := absurd (hc.waking hmem) h.wakes
  freeing hmem := absurd (hc.freeing hmem) h.frees
  accepted data hdata := hc.accepted data (h.accepted data hdata)
  taken data hdata := hc.taken data (h.taken data hdata)
  writeNoted input written generation heq := (h.writeNoted input written generation heq).le
  writeWaiting input written generation heq :=
    hc.writeNoted input written generation (h.writeWaiting input written generation heq).1
  writeParked input written heq hroom := absurd hroom (h.writeWaiting input written s.writable heq).2
  readNoted want generation heq := (h.readNoted want generation heq).le
  readWaiting want generation heq := hc.readNoted want generation (h.readWaiting want generation heq).1
  readParked want heq hready := absurd hready (h.readWaiting want s.readable heq).2
  took size data heq := absurd heq (h.took (.exact size) data)
  returned size data heq := absurd heq (h.returned size data)
  cleared count heq := by
    rcases heq with heq | heq
    · exact absurd heq (h.cleared count).1
    · exact absurd heq (h.cleared count).2

theorem not_mem_erase_self {l : List Nat} (h : l.Nodup) : i ∉ l.erase i := by
  intro hmem
  exact (h.mem_erase_iff.mp hmem).1 rfl

/-- A step keeps the part of the call that makes it. -/
theorem Moves.settled (h : Moves capacity i s c t c') (hs : Sound capacity s) (hc : c.Settled capacity i s) :
    c'.Settled capacity i t := by
  cases h with
  | proceed hproceeds => exact hproceeds.settled hc
  | @accept input written generation count noted isOpen room =>
    subst noted
    refine ⟨fun _ => trivial, fun hmem => hc.freeing hmem, fun data hdata => ?_, by simp [Call.taken?], by simp,
      by simp, by simp, by simp, by simp, by simp, by simp, by simp, by simp⟩
    cases hdata
    show pieces (s.accepted ++ [(i, (input.drop written).take count)]) i = input.take (written + count)
    rw [pieces_append, hc.accepted _ rfl, List.take_add]
  | @take want generation count noted enough exact =>
    subst noted
    refine ⟨fun hmem => hc.waking hmem, fun _ => trivial, by simp [Call.accepted?], fun data hdata => ?_, by simp,
      by simp, by simp, by simp, by simp, by simp, ?_, by simp, by simp⟩
    · cases hdata
      show pieces (s.taken ++ [(i, s.bytes.take count)]) i = s.bytes.take count
      rw [pieces_append, hc.taken _ rfl, List.nil_append]
    · intro size data heq
      cases heq
      obtain rfl := exact size rfl
      exact List.length_take_of_le enough
  | discard noted closed =>
    subst noted
    exact ⟨fun hmem => hc.waking hmem, fun hmem => hc.freeing hmem, by simp [Call.accepted?], by simp [Call.taken?],
      by simp, by simp, by simp, by simp, by simp, by simp, by simp, by simp, by simp⟩
  | clear clearing =>
    subst clearing
    refine ⟨fun hmem => hc.waking hmem, fun _ => trivial, by simp [Call.accepted?], by simp [Call.taken?], by simp,
      by simp, by simp, by simp, by simp, by simp, by simp, by simp, fun count heq => ?_⟩
    have hcount : s.bytes.length = count := by simpa using heq
    show (pieces (s.taken ++ [(i, s.bytes.take s.bytes.length)]) i).length = count
    rw [pieces_append, hc.taken _ rfl, List.nil_append, List.take_length, hcount]
  | close closing =>
    exact ⟨fun _ => trivial, fun _ => trivial, by simp [Call.accepted?], by simp [Call.taken?], by simp, by simp,
      by simp, by simp, by simp, by simp, by simp, by simp, by simp⟩
  | wakeWritten wrote =>
    subst wrote
    exact ⟨fun hmem => absurd hmem (not_mem_erase_self hs.waking), fun hmem => hc.freeing hmem,
      fun data hdata => hc.accepted data hdata, by simp [Call.taken?], by simp, by simp, by simp, by simp, by simp,
      by simp, by simp, by simp, by simp⟩
  | wakeClosed closed =>
    exact ⟨fun hmem => absurd hmem (not_mem_erase_self hs.waking), fun _ => trivial, by simp [Call.accepted?],
      by simp [Call.taken?], by simp, by simp, by simp, by simp, by simp, by simp, by simp, by simp, by simp⟩
  | @freeTook want piece took =>
    subst took
    refine ⟨fun hmem => hc.waking hmem, fun hmem => absurd hmem (not_mem_erase_self hs.freeing),
      by simp [Call.accepted?], fun data hdata => hc.taken data hdata, by simp, by simp, by simp, by simp, by simp,
      by simp, by simp, ?_, by simp⟩
    intro size data heq
    cases heq
    exact hc.took size piece rfl
  | @freeCleared amount cleared =>
    subst cleared
    refine ⟨fun hmem => hc.waking hmem, fun hmem => absurd hmem (not_mem_erase_self hs.freeing),
      by simp [Call.accepted?], by simp [Call.taken?], by simp, by simp, by simp, by simp, by simp, by simp, by simp,
      by simp, fun count heq => ?_⟩
    cases heq.resolve_left (by simp)
    exact hc.cleared amount (.inl rfl)
  | freeClosed closed =>
    subst closed
    exact ⟨fun hmem => hc.waking hmem, fun hmem => absurd hmem (not_mem_erase_self hs.freeing),
      by simp [Call.accepted?], by simp [Call.taken?], by simp, by simp, by simp, by simp, by simp, by simp, by simp,
      by simp, by simp⟩

/-- The invariant of the whole. -/
theorem settled_reachable {s : State} (h : (machine capacity).Reachable s) :
    Threads.Holds (Sound capacity) (fun i => Call.Settled capacity i) s := by
  refine Threads.reachable_invariant (P := threads capacity) (J := fun i => Call.Settled capacity i) ?_ ?_ ?_ h
  · intro s hs
    obtain rfl : s = new := hs
    exact ⟨sound_new, fun i => settled_idle⟩
  · intro i s c a t c' hs hc hstep
    have hmoves : Moves capacity i s c t c' := act_moves hstep
    exact ⟨hmoves.sound hs hc, hmoves.settled hs hc, fun j m hne hm => hmoves.interferes.settled hne hm⟩
  · intro s e
    exact e.elim

/-! ## The buffer -/

theorem State.exact_of_holds {s : State} (h : Threads.Holds (Sound capacity) (fun i => Call.Settled capacity i) s) :
    s.Exact capacity where
  room := h.1.room
  order := h.1.order
  writes i data hdata := (h.2 i).accepted data hdata
  reads i data hdata := (h.2 i).taken data hdata
  frames i size data heq := (h.2 i).returned size data heq
  clears i count heq := (h.2 i).cleared count (.inr heq)

/-- A call that has changed the state and not notified `writable` yet gets to it. -/
theorem willFree_of_holds {s : State} (h : Threads.Holds (Sound capacity) (fun i => Call.Settled capacity i) s)
    (hfreeing : s.shared.freeing ≠ []) : ∃ j, (s.locals j).WillFree := by
  obtain ⟨j, hj⟩ := List.exists_mem_of_ne_nil _ hfreeing
  exact ⟨j, (h.2 j).freeing hj⟩

theorem willWake_of_holds {s : State} (h : Threads.Holds (Sound capacity) (fun i => Call.Settled capacity i) s)
    (hwaking : s.shared.waking ≠ []) : ∃ j, (s.locals j).WillWake := by
  obtain ⟨j, hj⟩ := List.exists_mem_of_ne_nil _ hwaking
  exact ⟨j, (h.2 j).waking hj⟩

theorem State.awake_of_holds {s : State} (h : Threads.Holds (Sound capacity) (fun i => Call.Settled capacity i) s) :
    s.Awake capacity where
  writers i input written generation hparked hwritable := by
    have hle : generation ≤ s.shared.writable := (h.2 i).writeWaiting input written generation hparked
    by_cases hless : generation < s.shared.writable
    · exact .inl hless
    · obtain rfl : generation = s.shared.writable := by omega
      exact .inr (willFree_of_holds h ((h.2 i).writeParked input written hparked hwritable))
  readers i want generation hparked hready := by
    have hle : generation ≤ s.shared.readable := (h.2 i).readWaiting want generation hparked
    by_cases hless : generation < s.shared.readable
    · exact .inl hless
    · obtain rfl : generation = s.shared.readable := by omega
      exact .inr (willWake_of_holds h ((h.2 i).readParked want hparked hready))

/-- In every state that the calls can reach, for any capacity and any number of calls, the buffer is exact and no
call is parked for nothing. -/
theorem byteBuffer_exact_and_awake (capacity : Nat) (s : State) (h : (machine capacity).Reachable s) :
    s.Exact capacity ∧ s.Awake capacity :=
  ⟨State.exact_of_holds (settled_reachable h), State.awake_of_holds (settled_reachable h)⟩

/-- A write of six bytes into a buffer of four waits for room, and a reader has just taken a frame. -/
def parkedRun : List (Threads.Action Nat Act Empty) :=
  [.act 0 (.write [1, 2, 3, 4, 5, 6]), .act 0 .note, .act 0 .lock, .act 0 .notify, .act 0 .note, .act 0 .lock,
    .act 1 (.read (.exact 4)), .act 1 .note, .act 1 .lock]

/-- The writer of `parkedRun` is parked although there is room, and the reader is about to notify it. -/
theorem byteBuffer_exact_and_awake_parkedRun :
    ∃ s, (machine 4).exec ⟨new, fun _ => .idle⟩ parkedRun = some s ∧
      s.locals 0 = .writeWaiting [1, 2, 3, 4, 5, 6] 4 0 ∧ s.shared.Writable 4 ∧ State.Exact 4 s ∧
      State.Awake 4 s :=
  ⟨_, rfl, rfl, .inr (by decide),
    byteBuffer_exact_and_awake 4 _
      (@Machine.Reachable.of_exec _ _ (machine 4) ⟨new, fun _ => .idle⟩ _ parkedRun ⟨rfl, rfl⟩ rfl)⟩

end Rtvbp.Rust.ByteBuffer
