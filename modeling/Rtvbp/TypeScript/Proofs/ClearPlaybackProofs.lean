import Rtvbp.TypeScript.ClearPlayback
import Rtvbp.TypeScript.Proofs.AudioReadProofs
import Rtvbp.TypeScript.Proofs.BrowserPlaybackProofs
import Rtvbp.TypeScript.PlaybackCapacity

/-!
# What a clear discards

The bytes of the stream have one fate each, and the loop takes whole frames. It posts what it takes, unless it finds
that the playback was cleared.
-/

namespace Rtvbp.TypeScript.ClearPlayback

open Rtvbp.Lib
open Rtvbp.TypeScript.AudioRead (Frame)

/-! ## One sample for two bytes -/

/-- At equal rates the resampler yields as many samples as it is given. -/
theorem count_of_step_one {r : Resampler.Rates} (hstep : r.step = 1) (n : Nat) : Resampler.count r n = n := by
  refine eq_of_forall_lt_iff fun k => ?_
  rw [Resampler.lt_count_iff, hstep, mul_one]
  constructor
  · intro hle
    have hlt : (k : ℚ) < n := by linarith
    exact_mod_cast hlt
  · intro hlt
    have hle : ((k + 1 : Nat) : ℚ) ≤ n := by exact_mod_cast hlt
    push_cast at hle
    linarith

/-- The loop waits for capacity with half as many samples as a frame has bytes. -/
theorem round_at_equal_rates {device : PlaybackCapacity.Device} (hrate : device.sampleRate = 8000)
    (frame : PlaybackCapacity.Frame) (x : List ℚ) :
    ∃ y chunk, PlaybackCapacity.round device (Resampler.stateAfter device.rates x) false frame.bytes =
        .ok (Resampler.stateAfter device.rates y, some chunk) ∧ chunk.length = frame.bytes.length / 2 := by
  obtain ⟨samples, hsamples, hlength⟩ := PlaybackCapacity.l16ToFloat_frame frame
  have hstep : device.rates.step = 1 := by
    show (8000 : ℚ) / device.sampleRate = 1
    rw [hrate]
    norm_num
  obtain ⟨converted, hconverted⟩ : ∃ converted, Resampler.process device.rates
      (Resampler.stateAfter device.rates x) samples = (Resampler.stateAfter device.rates (x ++ samples), converted) :=
    ⟨_, Resampler.process_stateAfter⟩
  have hcount : converted.length = 160 := by
    have hconverted' := congrArg (fun result => result.2.length) hconverted
    simp only [Resampler.process_stateAfter, List.length_map, List.length_range', List.length_append,
      count_of_step_one hstep] at hconverted'
    omega
  have hsome : converted ≠ [] := by
    rintro rfl
    exact absurd hcount (by decide)
  refine ⟨x ++ samples, converted, ?_, ?_⟩
  · rw [PlaybackCapacity.round, if_neg Bool.false_ne_true, hsamples]
    show Except.ok (_, _) = Except.ok (_, _)
    rw [hconverted, if_neg hsome]
  · rw [hcount, frame.length_eq, PlaybackCapacity.frameBytes_eq]

/-! ## The loop takes whole frames -/

/-- Every call of `read` asks for a whole frame, and is given one. -/
structure Whole (s : AudioRead.State) : Prop where
  chain : ∀ maxBytes ∈ s.chain, maxBytes = frameBytes
  reading : ∀ r, s.reading = some r → r.maxBytes = frameBytes
  current : ∀ frame, s.current = some frame → frame.length = frameBytes ∧ s.currentOffset = frameBytes
  returned : ∀ result ∈ s.returned, result.length = frameBytes

/-- The results of the calls of `read` only grow, and nothing is cleared. -/
structure Grows (s t : AudioRead.State) : Prop where
  returned : t.returned = s.returned ∨ ∃ result, t.returned = s.returned ++ [result]
  clears : t.clears = s.clears

variable {capacity : Nat} {s t : AudioRead.State} {a : AudioRead.Action}

theorem whole_new : Whole AudioRead.new where
  chain := by simp [AudioRead.new]
  reading := by simp [AudioRead.new]
  current := by simp [AudioRead.new]
  returned := by simp [AudioRead.new]

theorem Whole.of_eq (h : Whole s) (hchain : t.chain = s.chain) (hreading : t.reading = s.reading)
    (hcurrent : t.current = s.current) (hoffset : t.currentOffset = s.currentOffset)
    (hreturned : t.returned = s.returned) : Whole t where
  chain := by
    rw [hchain]
    exact h.chain
  reading := by
    rw [hreading]
    exact h.reading
  current := by
    rw [hcurrent, hoffset]
    exact h.current
  returned := by
    rw [hreturned]
    exact h.returned

/-- A frame is returned whole. -/
theorem Whole.deliver (h : Whole s) {frame : Frame} (hframe : frame.length = frameBytes) :
    Whole (s.deliver frame 0 frameBytes) where
  chain := h.chain
  reading := fun r hr => absurd hr (by simp [AudioRead.State.deliver])
  current := by
    intro other hother
    obtain rfl := Option.some.inj hother
    exact ⟨hframe, by simp [AudioRead.State.deliver, hframe]⟩
  returned := by
    intro result hresult
    obtain hold | hnew := List.mem_append.mp hresult
    · exact h.returned result hold
    · obtain rfl := List.mem_singleton.mp hnew
      simp [hframe]

theorem whole_step (hinv : s.Inv frameBytes capacity) (h : Whole s) (hread : ofDevice a = false)
    (hstep : AudioRead.step frameBytes capacity s a = some t) : Whole t ∧ Grows s t := by
  cases a with
  | read maxBytes aborted => exact absurd hread (by simp [ofDevice])
  | clear => exact absurd hread (by simp [ofDevice])
  | write data aborted =>
    simp only [AudioRead.step] at hstep
    split at hstep
    · obtain ⟨q, -, rfl⟩ := Option.map_eq_some_iff.mp hstep
      exact ⟨h.of_eq rfl rfl rfl rfl rfl, .inl rfl, rfl⟩
    · obtain rfl := Option.some.inj hstep
      exact ⟨h, .inl rfl, rfl⟩
  | abortWrite call =>
    obtain ⟨q, -, rfl⟩ := Option.map_eq_some_iff.mp hstep
    exact ⟨h.of_eq rfl rfl rfl rfl rfl, .inl rfl, rfl⟩
  | pumpShift =>
    simp only [AudioRead.step] at hstep
    split at hstep
    · obtain ⟨q, -, rfl⟩ := Option.map_eq_some_iff.mp hstep
      exact ⟨h.of_eq rfl rfl rfl rfl rfl, .inl rfl, rfl⟩
    · exact absurd hstep (by simp)
  | pumpTake =>
    simp only [AudioRead.step] at hstep
    split at hstep
    · obtain ⟨o, -, hstep⟩ := Option.bind_eq_some_iff.mp hstep
      split at hstep
      · obtain rfl := Option.some.inj hstep
        exact ⟨h.of_eq rfl rfl rfl rfl rfl, .inl rfl, rfl⟩
      · obtain ⟨q, -, rfl⟩ := Option.map_eq_some_iff.mp hstep
        exact ⟨h.of_eq rfl rfl rfl rfl rfl, .inl rfl, rfl⟩
    · exact absurd hstep (by simp)
  | pumpPush =>
    simp only [AudioRead.step] at hstep
    split at hstep
    · obtain ⟨q, -, rfl⟩ := Option.map_eq_some_iff.mp hstep
      exact ⟨h.of_eq rfl rfl rfl rfl rfl, .inl rfl, rfl⟩
    · exact absurd hstep (by simp)
  | pumpPushed =>
    simp only [AudioRead.step] at hstep
    split at hstep
    · obtain ⟨-, hstep⟩ := Option.ite_none_right_eq_some.mp hstep
      obtain rfl := Option.some.inj hstep
      exact ⟨h.of_eq rfl rfl rfl rfl rfl, .inl rfl, rfl⟩
    · exact absurd hstep (by simp)
  | enter aborted =>
    simp only [AudioRead.step] at hstep
    split at hstep
    · next maxBytes chain hreading hchain =>
      have hrest : ∀ other ∈ chain, other = frameBytes := by
        intro other hother
        exact h.chain other (by rw [hchain]; exact List.mem_cons_of_mem _ hother)
      have hfirst : maxBytes = frameBytes := h.chain maxBytes (by rw [hchain]; exact List.mem_cons_self)
      split at hstep
      · obtain rfl := Option.some.inj hstep
        exact ⟨⟨hrest, h.reading, h.current, h.returned⟩, .inl rfl, rfl⟩
      · split at hstep
        · next frame hframe =>
          -- The current frame has been read to its end.
          obtain ⟨hcurrent, hmore⟩ := Option.filter_eq_some_iff.mp hframe
          obtain ⟨hlength, hoffset⟩ := h.current frame hcurrent
          exact absurd (hoffset.trans hlength.symm) (by simpa using hmore)
        · obtain ⟨q, -, rfl⟩ := Option.map_eq_some_iff.mp hstep
          refine ⟨⟨hrest, fun r hr => ?_, h.current, h.returned⟩, .inl rfl, rfl⟩
          obtain rfl := Option.some.inj hr
          exact hfirst
    · exact absurd hstep (by simp)
  | take =>
    simp only [AudioRead.step] at hstep
    split at hstep
    · next r hreading =>
      obtain ⟨o, ho, rfl⟩ := Option.map_eq_some_iff.mp hstep
      have hsized : o.value.length = frameBytes :=
        hinv.inbound.sized o (AudioRead.offered_of_result hinv.inbound.inv.accounts ho)
      rw [h.reading r hreading]
      exact ⟨h.deliver hsized, .inr ⟨_, rfl⟩, rfl⟩
    · exact absurd hstep (by simp)
  | refused =>
    simp only [AudioRead.step] at hstep
    split at hstep
    · obtain ⟨-, hstep⟩ := Option.ite_none_right_eq_some.mp hstep
      obtain rfl := Option.some.inj hstep
      exact ⟨⟨h.chain, fun r hr => absurd hr (by simp), h.current, h.returned⟩, .inl rfl, rfl⟩
    · exact absurd hstep (by simp)
  | abortRead =>
    simp only [AudioRead.step] at hstep
    split at hstep
    · obtain ⟨q, -, rfl⟩ := Option.map_eq_some_iff.mp hstep
      exact ⟨⟨h.chain, fun r hr => absurd hr (by simp), h.current, h.returned⟩, .inl rfl, rfl⟩
    · exact absurd hstep (by simp)

theorem whole_read (h : Whole s)
    (hstep : AudioRead.step frameBytes capacity s (.read frameBytes false) = some t) :
    Whole t ∧ t.returned = s.returned ∧ t.clears = s.clears := by
  have hpositive : ¬ (frameBytes = 0 ∨ false = true) := by decide
  unfold AudioRead.step at hstep
  dsimp only at hstep
  rw [if_neg hpositive] at hstep
  obtain rfl := Option.some.inj hstep
  refine ⟨⟨fun maxBytes hmax => ?_, h.reading, h.current, h.returned⟩, rfl, rfl⟩
  obtain hold | hnew := List.mem_append.mp hmax
  · exact h.chain maxBytes hold
  · exact List.mem_singleton.mp hnew

theorem whole_clear (h : Whole s) : Whole (AudioRead.clear frameBytes s) where
  chain := h.chain
  reading := h.reading
  current := fun frame hframe => absurd hframe (by simp [AudioRead.clear])
  returned := h.returned

/-! ## The places of the loop -/

/-- The loop has a frame in its hands. -/
def holds : BrowserPlayback.Loop → Bool
  | .holding _ _ | .counted _ => true
  | _ => false

variable {d : Device} {p q : BrowserPlayback.State}

theorem read_loop (hstep : BrowserPlayback.step d.toDevice p .read = some q) :
    holds p.loop = false ∧ holds q.loop = false := by
  obtain ⟨hidle, hstep⟩ := Option.ite_none_right_eq_some.mp hstep
  obtain rfl := Option.some.inj hstep
  exact ⟨by rw [hidle]; rfl, rfl⟩

theorem chunk_loop {count : Nat} (hcount : count ≠ 0)
    (hstep : BrowserPlayback.step d.toDevice p (.chunk count) = some q) :
    ∃ generation, p.loop = .reading generation ∧
      q.loop = if generation ≠ p.generation then .idle else .holding generation count := by
  unfold BrowserPlayback.step at hstep
  dsimp only at hstep
  split at hstep
  · rename_i generation hreading
    obtain rfl := Option.some.inj hstep
    refine ⟨generation, hreading, ?_⟩
    simp [hcount]
  · exact absurd hstep (by simp)

theorem count_loop (hstep : BrowserPlayback.step d.toDevice p .count = some q) :
    ∃ generation count, p.loop = .holding generation count ∧
      q.loop = if generation ≠ p.generation then .idle else .counted count := by
  unfold BrowserPlayback.step at hstep
  dsimp only at hstep
  split at hstep
  · rename_i generation count hholding
    obtain ⟨-, hstep⟩ := Option.ite_none_right_eq_some.mp hstep
    refine ⟨generation, count, hholding, ?_⟩
    split at hstep
    · next hstale =>
      obtain rfl := Option.some.inj hstep
      rw [if_pos hstale]
    · next hcurrent =>
      obtain rfl := Option.some.inj hstep
      rw [if_neg hcurrent]
  · exact absurd hstep (by simp)

theorem post_loop (hstep : BrowserPlayback.step d.toDevice p .post = some q) :
    holds p.loop = true ∧ q.loop = .idle := by
  unfold BrowserPlayback.step at hstep
  dsimp only at hstep
  split at hstep
  · rename_i count hcounted
    obtain rfl := Option.some.inj hstep
    exact ⟨by rw [hcounted]; rfl, rfl⟩
  · exact absurd hstep (by simp)

theorem deliver_loop (hstep : BrowserPlayback.step d.toDevice p .deliver = some q) : q.loop = p.loop := by
  unfold BrowserPlayback.step at hstep
  dsimp only at hstep
  split at hstep
  · exact absurd hstep (by simp)
  · exact absurd hstep (by simp)
  · obtain rfl := Option.some.inj hstep
    rfl

theorem receive_loop (hstep : BrowserPlayback.step d.toDevice p .receive = some q) : q.loop = p.loop := by
  unfold BrowserPlayback.step at hstep
  dsimp only at hstep
  split at hstep
  · exact absurd hstep (by simp)
  · obtain rfl := Option.some.inj hstep
    rfl
  · obtain rfl := Option.some.inj hstep
    rfl

/-! ## What becomes of the frames -/

/-- What holds while the loop posts what it takes. -/
structure Inv (capacity : Nat) (s : State) : Prop where
  stream : s.stream.Inv frameBytes capacity
  whole : Whole s.stream
  received : s.received ≤ s.stream.returned.length
  taken : s.stream.returned.take s.received = s.posted ++ s.frame.toList
  place : s.frame.isSome = holds s.playback.loop
  counted : s.values = List.zipWith (fun c found => c.bytes.length + found * 2) s.stream.clears s.found
  paired : s.found.length = s.stream.clears.length

theorem inv_initial : Inv capacity initial where
  stream := AudioRead.inv_new
  whole := whole_new
  received := Nat.zero_le _
  taken := rfl
  place := rfl
  counted := rfl
  paired := rfl

variable {u v : State} {l : Action}

theorem Inv.accounts (h : Inv capacity u) : u.Accounts := by
  have htaken : u.stream.returned = u.posted ++ u.inHand := by
    have hsplit := List.take_append_drop u.received u.stream.returned
    rw [h.taken, List.append_assoc] at hsplit
    exact hsplit.symm
  refine ⟨htaken, ?_, h.counted⟩
  have hsplit := h.stream.conserved.split
  rw [htaken, List.flatten_append] at hsplit
  have hswap : (u.posted.flatten ++ u.inHand.flatten ++ (u.stream.clears.map AudioRead.Cleared.bytes).flatten ++
      u.stream.buffered).Perm (u.posted.flatten ++ (u.stream.clears.map AudioRead.Cleared.bytes).flatten ++
        u.inHand.flatten ++ u.stream.buffered) := by
    refine List.Perm.append_right _ ?_
    rw [List.append_assoc, List.append_assoc]
    exact List.Perm.append_left _ List.perm_append_comm
  exact hswap.symm.trans hsplit

/-- A step of the stream alone, or of the device alone that keeps the place of the loop. -/
theorem Inv.keeps (h : Inv capacity u) (hstream : v.stream = u.stream) (hreceived : v.received = u.received)
    (hframe : v.frame = u.frame) (hposted : v.posted = u.posted) (hfound : v.found = u.found)
    (hvalues : v.values = u.values) (hloop : holds v.playback.loop = holds u.playback.loop) : Inv capacity v where
  stream := by
    rw [hstream]
    exact h.stream
  whole := by
    rw [hstream]
    exact h.whole
  received := by
    rw [hstream, hreceived]
    exact h.received
  taken := by
    rw [hstream, hreceived, hposted, hframe]
    exact h.taken
  place := by
    rw [hframe, hloop]
    exact h.place
  counted := by
    rw [hvalues, hstream, hfound]
    exact h.counted
  paired := by
    rw [hfound, hstream]
    exact h.paired

theorem take_of_grows {s t : AudioRead.State} {n : Nat} (hgrows : Grows s t) (hn : n ≤ s.returned.length) :
    n ≤ t.returned.length ∧ t.returned.take n = s.returned.take n := by
  obtain hsame | ⟨result, hnew⟩ := hgrows.returned
  · rw [hsame]
    exact ⟨hn, rfl⟩
  · rw [hnew, List.length_append, List.take_append_of_le_length hn]
    exact ⟨by omega, rfl⟩

theorem Inv.streamStep (hpos : 0 < capacity) (h : Inv capacity u) {a : AudioRead.Action}
    (hstep : step d capacity u (.stream a) = some v) : Inv capacity v := by
  unfold step at hstep
  dsimp only at hstep
  split at hstep
  · exact absurd hstep (by simp)
  · next hread =>
    obtain ⟨stream, hstream, rfl⟩ := Option.map_eq_some_iff.mp hstep
    obtain ⟨hwhole, hgrows⟩ := whole_step h.stream h.whole (by simpa using hread) hstream
    obtain ⟨hreceived, htake⟩ := take_of_grows hgrows h.received
    exact {
      stream := h.stream.step hpos hstream
      whole := hwhole
      received := hreceived
      taken := htake.trans h.taken
      place := h.place
      counted := by
        dsimp only
        rw [hgrows.clears]
        exact h.counted
      paired := by
        dsimp only
        rw [hgrows.clears]
        exact h.paired }

/-- The loop asks for a frame. -/
theorem Inv.read (hpos : 0 < capacity) (h : Inv capacity u) (hstep : step d capacity u .read = some v) :
    Inv capacity v := by
  obtain ⟨playback, hplayback, hstep⟩ := Option.bind_eq_some_iff.mp hstep
  obtain ⟨stream, hstream, rfl⟩ := Option.map_eq_some_iff.mp hstep
  obtain ⟨hbefore, hafter⟩ := read_loop hplayback
  obtain ⟨hwhole, hreturned, hclears⟩ := whole_read h.whole hstream
  exact {
    stream := h.stream.step hpos hstream
    whole := hwhole
    received := by
      dsimp only
      rw [hreturned]
      exact h.received
    taken := by
      dsimp only
      rw [hreturned]
      exact h.taken
    place := by
      dsimp only
      rw [hafter, ← hbefore]
      exact h.place
    counted := by
      dsimp only
      rw [hclears]
      exact h.counted
    paired := by
      dsimp only
      rw [hclears]
      exact h.paired }

/-- The next result of `read` is taken from the results. -/
theorem take_received (h : Inv capacity u) {bytes : Frame} (hbytes : u.stream.returned[u.received]? = some bytes) :
    u.received + 1 ≤ u.stream.returned.length ∧ bytes.length / 2 ≠ 0 ∧
      u.stream.returned.take (u.received + 1) = u.posted ++ u.frame.toList ++ [bytes] := by
  obtain ⟨hlt, hget⟩ := List.getElem?_eq_some_iff.mp hbytes
  have hlength : bytes.length = frameBytes := h.whole.returned bytes (List.mem_of_getElem? hbytes)
  refine ⟨hlt, by rw [hlength]; decide, ?_⟩
  rw [List.take_add_one, h.taken, hbytes]
  rfl

/-- The loop goes on with a frame. -/
theorem chunk_cases (h : Inv capacity u) (hstep : step d capacity u .chunk = some v) :
    (u.isCurrent = true ∧ Inv capacity v) ∨ (u.isCurrent = false ∧ ¬ v.Accounts) := by
  obtain ⟨bytes, hbytes, hstep⟩ := Option.bind_eq_some_iff.mp hstep
  obtain ⟨playback, hplayback, rfl⟩ := Option.map_eq_some_iff.mp hstep
  obtain ⟨hlength, hnonzero, htake⟩ := take_received h hbytes
  obtain ⟨generation, hreading, hloop⟩ := chunk_loop hnonzero hplayback
  have hnone : u.frame = none := by
    have hplace := h.place
    rw [hreading] at hplace
    exact Option.not_isSome_iff_eq_none.mp (by simp [hplace, holds])
  rw [hnone, Option.toList_none, List.append_nil] at htake
  by_cases hcurrent : generation = u.playback.generation
  · rw [if_neg (fun hne => hne hcurrent)] at hloop
    refine .inl ⟨by simp [State.isCurrent, hreading, hcurrent], ?_⟩
    have hkept : kept (some bytes) playback = some bytes := by
      unfold kept
      rw [hloop]
      rfl
    exact {
      stream := h.stream
      whole := h.whole
      received := hlength
      taken := by
        dsimp only
        rw [hkept]
        exact htake
      place := by
        dsimp only
        rw [hkept, hloop]
        rfl
      counted := h.counted
      paired := h.paired }
  · rw [if_pos hcurrent] at hloop
    refine .inr ⟨by simp [State.isCurrent, hreading, hcurrent], fun haccounts => ?_⟩
    have hkept : kept (some bytes) playback = none := by
      unfold kept
      rw [hloop]
      rfl
    -- One result of `read` is neither posted nor on its way.
    have hall : u.stream.returned = u.posted ++
        ((kept (some bytes) playback).toList ++ u.stream.returned.drop (u.received + 1)) := haccounts.taken
    rw [hkept, Option.toList_none, List.nil_append] at hall
    have hcount := congrArg List.length hall
    have hposted := congrArg List.length htake
    simp only [List.length_append, List.length_drop, List.length_take, List.length_singleton] at hcount hposted
    omega

/-- The loop has found capacity for a frame. -/
theorem count_cases (h : Inv capacity u) (hstep : step d capacity u .count = some v) :
    (u.isCurrent = true ∧ Inv capacity v) ∨ (u.isCurrent = false ∧ ¬ v.Accounts) := by
  obtain ⟨playback, hplayback, rfl⟩ := Option.map_eq_some_iff.mp hstep
  obtain ⟨generation, count, hholding, hloop⟩ := count_loop hplayback
  have hsome : u.frame.isSome = true := by
    rw [h.place, hholding]
    rfl
  by_cases hcurrent : generation = u.playback.generation
  · rw [if_neg (fun hne => hne hcurrent)] at hloop
    refine .inl ⟨by simp [State.isCurrent, hholding, hcurrent], ?_⟩
    have hkept : kept u.frame playback = u.frame := by
      unfold kept
      rw [hloop]
      rfl
    refine h.keeps rfl rfl hkept rfl rfl rfl ?_
    dsimp only
    rw [hloop, hholding]
    rfl
  · rw [if_pos hcurrent] at hloop
    refine .inr ⟨by simp [State.isCurrent, hholding, hcurrent], fun haccounts => ?_⟩
    have hkept : kept u.frame playback = none := by
      unfold kept
      rw [hloop]
      rfl
    obtain ⟨bytes, hbytes⟩ := Option.isSome_iff_exists.mp hsome
    have hall : u.stream.returned = u.posted ++
        ((kept u.frame playback).toList ++ u.stream.returned.drop u.received) := haccounts.taken
    rw [hkept, Option.toList_none, List.nil_append] at hall
    have htake := h.taken
    rw [hbytes, Option.toList_some] at htake
    have hcount := congrArg List.length hall
    have hposted := congrArg List.length htake
    have hreceived := h.received
    simp only [List.length_append, List.length_drop, List.length_take, List.length_singleton] at hcount hposted
    omega

/-- The loop posts the frame. -/
theorem Inv.post (h : Inv capacity u) (hstep : step d capacity u .post = some v) : Inv capacity v := by
  obtain ⟨playback, hplayback, rfl⟩ := Option.map_eq_some_iff.mp hstep
  obtain ⟨-, hidle⟩ := post_loop hplayback
  exact {
    stream := h.stream
    whole := h.whole
    received := h.received
    taken := by
      dsimp only
      rw [Option.toList_none, List.append_nil]
      exact h.taken
    place := by
      dsimp only
      rw [hidle]
      rfl
    counted := h.counted
    paired := h.paired }

/-- What `clear` of the stream adds to the history. -/
theorem clears_clear {s : AudioRead.State} (h : s.Inv frameBytes capacity) :
    ∃ bytes : List AudioRead.Byte, (AudioRead.clear frameBytes s).clears =
      s.clears ++ [{ bytes := bytes, value := bytes.length }] ∧ audioBytes s = bytes.length := by
  refine ⟨s.remainder ++ AudioRead.bytes s.inbound.items ++ AudioRead.bytes s.incoming.items, ?_,
    AudioRead.value_eq_length h⟩
  rw [← AudioRead.value_eq_length h]
  rfl

/-- The playback is cleared. -/
theorem Inv.clearPlayback (h : Inv capacity u) : Inv capacity u.clearPlayback := by
  obtain ⟨bytes, hclears, hvalue⟩ := clears_clear h.stream
  exact {
    stream := h.stream.clear
    whole := whole_clear h.whole
    received := h.received
    taken := h.taken
    place := h.place
    counted := by
      show u.values ++ [audioBytes u.stream + u.playback.buffered * 2] = List.zipWith _
        (AudioRead.clear frameBytes u.stream).clears (u.found ++ [u.playback.buffered])
      rw [hclears, hvalue, List.zipWith_append h.paired.symm, ← h.counted]
      rfl
    paired := by
      show (u.found ++ [u.playback.buffered]).length = (AudioRead.clear frameBytes u.stream).clears.length
      rw [hclears, List.length_append, List.length_append, h.paired]
      rfl }

/-- A step with which the loop goes on keeps the invariant. -/
theorem inv_step (hpos : 0 < capacity) (h : Inv capacity u) (hgoes : GoesOn u l)
    (hstep : step d capacity u l = some v) : Inv capacity v := by
  cases l with
  | stream a => exact h.streamStep hpos hstep
  | read => exact h.read hpos hstep
  | chunk =>
    obtain ⟨-, hv⟩ | ⟨hstale, -⟩ := chunk_cases h hstep
    · exact hv
    · exact absurd (hstale.symm.trans hgoes) Bool.false_ne_true
  | count =>
    obtain ⟨-, hv⟩ | ⟨hstale, -⟩ := count_cases h hstep
    · exact hv
    · exact absurd (hstale.symm.trans hgoes) Bool.false_ne_true
  | post => exact h.post hstep
  | clearPlayback =>
    obtain rfl := Option.some.inj hstep
    exact h.clearPlayback
  | deliver =>
    obtain ⟨playback, hplayback, rfl⟩ := Option.map_eq_some_iff.mp hstep
    exact h.keeps rfl rfl rfl rfl rfl rfl (congrArg holds (deliver_loop hplayback))
  | receive =>
    obtain ⟨playback, hplayback, rfl⟩ := Option.map_eq_some_iff.mp hstep
    exact h.keeps rfl rfl rfl rfl rfl rfl (congrArg holds (receive_loop hplayback))
  | render length =>
    obtain rfl := Option.some.inj hstep
    exact h.keeps rfl rfl rfl rfl rfl rfl rfl

/-- A frame with which the loop does not go on is lost. -/
theorem not_accounts_step (h : Inv capacity u) (hgoes : ¬ GoesOn u l)
    (hstep : step d capacity u l = some v) : ¬ v.Accounts := by
  cases l with
  | chunk =>
    obtain ⟨hcurrent, -⟩ | ⟨-, hlost⟩ := chunk_cases h hstep
    · exact absurd hcurrent hgoes
    · exact hlost
  | count =>
    obtain ⟨hcurrent, -⟩ | ⟨-, hlost⟩ := count_cases h hstep
    · exact absurd hcurrent hgoes
    · exact hlost
  | stream | read | post | clearPlayback | deliver | receive | render => exact absurd trivial hgoes

/-! ## What the worklet discards -/

/-- The worklet has no more samples at each `clear` message on its way than were found at the call. -/
def Covers (queued : Nat) : List BrowserPlayback.Message → List Nat → Prop
  | [], found => found = []
  | .samples count :: rest, found => Covers (queued + count) rest found
  | .clear :: _, [] => False
  | .clear :: rest, first :: found => queued ≤ first ∧ Covers 0 rest found

variable {messages : List BrowserPlayback.Message} {queued : Nat} {found : List Nat}

theorem Covers.append_samples (h : Covers queued messages found) (count : Nat) :
    Covers queued (messages ++ [.samples count]) found := by
  induction messages generalizing queued found with
  | nil => exact h
  | cons m rest ih =>
    cases m with
    | samples other => exact ih h
    | clear =>
      cases found with
      | nil => exact h
      | cons first found => exact ⟨h.1, ih h.2⟩

theorem Covers.append_clear (h : Covers queued messages found) {buffered : Nat}
    (hlive : BrowserPlayback.live queued messages ≤ buffered) :
    Covers queued (messages ++ [.clear]) (found ++ [buffered]) := by
  induction messages generalizing queued found with
  | nil =>
    obtain rfl : found = [] := h
    exact ⟨hlive, rfl⟩
  | cons m rest ih =>
    cases m with
    | samples other => exact ih h hlive
    | clear =>
      cases found with
      | nil => exact absurd h id
      | cons first found => exact ⟨h.1, ih h.2 hlive⟩

theorem Covers.mono {queued' : Nat} (h : Covers queued messages found) (hle : queued' ≤ queued) :
    Covers queued' messages found := by
  induction messages generalizing queued queued' found with
  | nil => exact h
  | cons m rest ih =>
    cases m with
    | samples other => exact ih h (Nat.add_le_add_right hle other)
    | clear =>
      cases found with
      | nil => exact h
      | cons first found => exact ⟨hle.trans h.1, h.2⟩

/-- What holds while nothing spoils the count. -/
structure CoverInv (d : Device) (s : State) : Prop where
  playback : BrowserPlayback.Inv d.toDevice s.playback
  length : s.discarded.length ≤ s.found.length
  covered : s.Covered
  pending : Covers s.playback.worklet.queued s.playback.toWorklet (s.found.drop s.discarded.length)

theorem coverInv_initial (d : Device) : CoverInv d initial where
  playback := BrowserPlayback.inv_initial d.toDevice
  length := le_rfl
  covered := List.Forall₂.nil
  pending := rfl

/-- A step that leaves the worklet and its messages. -/
theorem CoverInv.keeps (h : CoverInv d u) (hplayback : BrowserPlayback.Inv d.toDevice v.playback)
    (hworklet : v.playback.worklet = u.playback.worklet) (hmessages : v.playback.toWorklet = u.playback.toWorklet)
    (hfound : v.found = u.found) (hdiscarded : v.discarded = u.discarded) : CoverInv d v where
  playback := hplayback
  length := by
    rw [hfound, hdiscarded]
    exact h.length
  covered := by
    unfold State.Covered
    rw [hfound, hdiscarded]
    exact h.covered
  pending := by
    rw [hworklet, hmessages, hfound, hdiscarded]
    exact h.pending

/-- The playback is cleared. -/
theorem CoverInv.clearPlayback (h : CoverInv d u) (hcount : ¬ Miscounts u .clearPlayback) :
    CoverInv d u.clearPlayback where
  playback := h.playback.step (a := .clearPlayback) hcount rfl
  length := by
    show u.discarded.length ≤ (u.found ++ [_]).length
    rw [List.length_append]
    exact Nat.le_add_right_of_le h.length
  covered := by
    show List.Forall₂ _ u.discarded ((u.found ++ [_]).take u.discarded.length)
    rw [List.take_append_of_le_length h.length]
    exact h.covered
  pending := by
    show Covers _ (u.playback.toWorklet ++ [.clear]) ((u.found ++ [_]).drop u.discarded.length)
    rw [List.drop_append_of_le_length h.length]
    refine h.pending.append_clear ?_
    rw [h.playback.credit]
    omega

/-- The worklet takes a `clear` message. -/
theorem CoverInv.receiveClear {rest : List BrowserPlayback.Message} (h : CoverInv d u)
    (hmessages : u.playback.toWorklet = .clear :: rest) {playback : BrowserPlayback.State}
    (hplayback : BrowserPlayback.Inv d.toDevice playback) (hworklet : playback.worklet = .new)
    (hrest : playback.toWorklet = rest) :
    CoverInv d { u with
      playback := playback
      discarded := u.discarded ++ [u.playback.worklet.queued] } := by
  have hpending := h.pending
  rw [hmessages] at hpending
  cases hfound : u.found.drop u.discarded.length with
  | nil =>
    rw [hfound] at hpending
    exact absurd hpending id
  | cons first found =>
    rw [hfound] at hpending
    obtain ⟨hle, hlater⟩ := hpending
    have hget : u.found[u.discarded.length]? = some first := by
      rw [← List.head?_drop, hfound]
      rfl
    have hlt : u.discarded.length < u.found.length := (List.getElem?_eq_some_iff.mp hget).1
    have hdrop : u.found.drop (u.discarded.length + 1) = found := by
      rw [← List.drop_drop, hfound]
      rfl
    exact {
      playback := hplayback
      length := by
        dsimp only
        rw [List.length_append]
        exact hlt
      covered := by
        show List.Forall₂ _ (u.discarded ++ [_]) (u.found.take (u.discarded ++ [_]).length)
        rw [List.length_append, List.length_singleton, List.take_add_one, hget]
        exact List.rel_append h.covered (List.Forall₂.cons hle List.Forall₂.nil)
      pending := by
        dsimp only
        rw [List.length_append, List.length_singleton, hdrop, hworklet, hrest]
        exact hlater }

theorem coverInv_step (h : CoverInv d u) (hcount : ¬ Miscounts u l)
    (hstep : step d capacity u l = some v) : CoverInv d v := by
  cases l with
  | stream a =>
    obtain ⟨-, hstep⟩ := Option.ite_none_left_eq_some.mp hstep
    obtain ⟨stream, -, rfl⟩ := Option.map_eq_some_iff.mp hstep
    exact h.keeps h.playback rfl rfl rfl rfl
  | read =>
    obtain ⟨playback, hplayback, hstep⟩ := Option.bind_eq_some_iff.mp hstep
    obtain ⟨stream, -, rfl⟩ := Option.map_eq_some_iff.mp hstep
    have hinv := h.playback.step (a := .read) hcount hplayback
    obtain ⟨-, hplayback⟩ := Option.ite_none_right_eq_some.mp hplayback
    obtain rfl := Option.some.inj hplayback
    exact h.keeps hinv rfl rfl rfl rfl
  | chunk =>
    obtain ⟨bytes, -, hstep⟩ := Option.bind_eq_some_iff.mp hstep
    obtain ⟨playback, hplayback, rfl⟩ := Option.map_eq_some_iff.mp hstep
    have hinv := h.playback.step (a := .chunk (bytes.length / 2)) hcount hplayback
    unfold BrowserPlayback.step at hplayback
    dsimp only at hplayback
    split at hplayback
    · obtain rfl := Option.some.inj hplayback
      exact h.keeps hinv rfl rfl rfl rfl
    · exact absurd hplayback (by simp)
  | count =>
    obtain ⟨playback, hplayback, rfl⟩ := Option.map_eq_some_iff.mp hstep
    have hinv := h.playback.step (a := .count) hcount hplayback
    unfold BrowserPlayback.step at hplayback
    dsimp only at hplayback
    split at hplayback
    · obtain ⟨-, hplayback⟩ := Option.ite_none_right_eq_some.mp hplayback
      split at hplayback
      · obtain rfl := Option.some.inj hplayback
        exact h.keeps hinv rfl rfl rfl rfl
      · obtain rfl := Option.some.inj hplayback
        exact h.keeps hinv rfl rfl rfl rfl
    · exact absurd hplayback (by simp)
  | post =>
    obtain ⟨playback, hplayback, rfl⟩ := Option.map_eq_some_iff.mp hstep
    have hinv := h.playback.step (a := .post) hcount hplayback
    unfold BrowserPlayback.step at hplayback
    dsimp only at hplayback
    split at hplayback
    · obtain rfl := Option.some.inj hplayback
      exact {
        playback := hinv
        length := h.length
        covered := h.covered
        pending := h.pending.append_samples _ }
    · exact absurd hplayback (by simp)
  | clearPlayback =>
    obtain rfl := Option.some.inj hstep
    exact h.clearPlayback hcount
  | deliver =>
    obtain ⟨playback, hplayback, rfl⟩ := Option.map_eq_some_iff.mp hstep
    have hinv := h.playback.step (a := .deliver) hcount hplayback
    unfold BrowserPlayback.step at hplayback
    dsimp only at hplayback
    split at hplayback
    · exact absurd hplayback (by simp)
    · exact absurd hplayback (by simp)
    · obtain rfl := Option.some.inj hplayback
      exact h.keeps hinv rfl rfl rfl rfl
  | receive =>
    obtain ⟨playback, hplayback, rfl⟩ := Option.map_eq_some_iff.mp hstep
    have hinv := h.playback.step (a := .receive) hcount hplayback
    cases hmessages : u.playback.toWorklet with
    | nil =>
      simp only [BrowserPlayback.step, hmessages] at hplayback
      exact absurd hplayback (by simp)
    | cons m rest =>
      cases m with
      | clear =>
        simp only [BrowserPlayback.step, hmessages] at hplayback
        obtain rfl := Option.some.inj hplayback
        exact h.receiveClear hmessages hinv rfl rfl
      | samples count =>
        have hover : ¬ u.playback.worklet.Overflows d.toDevice.maxSamples count := fun hover =>
          h.playback.not_takesOverflow .receive ⟨rfl, count, rest, hmessages, hover⟩
        simp only [BrowserPlayback.step, hmessages, BrowserPlayback.Worklet.push_of_not_overflows hover]
          at hplayback
        obtain rfl := Option.some.inj hplayback
        have hpending := h.pending
        rw [hmessages] at hpending
        exact {
          playback := hinv
          length := h.length
          covered := h.covered
          pending := hpending }
  | render length =>
    obtain rfl := Option.some.inj hstep
    obtain ⟨-, hqueued⟩ := BrowserPlayback.Worklet.process_spec h.playback.worklet length
    exact {
      playback := h.playback.render length
      length := h.length
      covered := h.covered
      pending := h.pending.mono (by
        show (u.playback.worklet.process length).1.queued ≤ _
        omega) }

/-! ## The result -/

theorem telephoneRate_le : 8000 ≤ 768000 := by decide

/-- The default buffer. -/
def defaultDevice : Device where
  sampleRate := 8000
  capacityMs := 500
  capacityMs_bounds := by decide
  sampleRate_le := telephoneRate_le
  sampleRate_eq := rfl

/-- The default capacity of an `AudioStream`. -/
def defaultCapacity : Nat := 1024 * 1024

/-- The peer sends a frame, which gets into the queue of the stream. -/
def arrives : List Action :=
  [.stream (.write (List.replicate 320 1) false), .stream .pumpShift, .stream .pumpTake, .stream .pumpPush,
    .stream .pumpPushed]

/-- The loop posts a frame, and a second one waits in the stream when the playback is cleared. -/
def clearedRun : List Action :=
  arrives ++ arrives ++ [.read, .stream (.enter false), .stream .take, .chunk, .count, .post, .receive,
    .clearPlayback, .receive]

/-- The playback is cleared while the loop waits for a frame; the frame that comes then is taken and not posted. -/
def lostRun : List Action :=
  [.read, .stream (.enter false), .clearPlayback] ++ arrives ++ [.stream .take, .chunk]

end Rtvbp.TypeScript.ClearPlayback
