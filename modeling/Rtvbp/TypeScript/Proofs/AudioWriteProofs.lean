import Rtvbp.TypeScript.AudioWrite
import Rtvbp.Lib.Positions
import Mathlib.Tactic

/-!
# Proofs: writing to an audio stream

The bytes that have been delivered, those that are held and those in the chain form one line, whose positions
increase. A call takes its frames off the line, and a call that fails takes a part out; only a call that has
delivered carried bytes leaves them in the line when it fails, and then they can be delivered once more.
-/

namespace Rtvbp.TypeScript.AudioWrite

open Rtvbp.Lib

variable {frameBytes : Nat} {s t : State} {a : Action}

/-! ## The invariant -/

/-- The bytes that have been delivered, those that are held, and those in the chain. -/
def State.line (s : State) : List Byte := s.delivered.flatten ++ s.held ++ s.chain.flatten

/-- The invariant of the runs in which no call fails that has delivered carried bytes. -/
structure State.Inv (frameBytes : Nat) (s : State) : Prop where
  line : Increasing s.input s.line
  sized : ∀ frame ∈ s.delivered, frame.length = frameBytes
  complete : s.failed = false → s.closed = false → s.delivered.flatten ++ s.held = s.entered ∧
    (s.turnedAway = false → s.entered ++ s.chain.flatten = s.input.zipIdx)
  /-- A call that has found nothing in `#partial` finds nothing there when it fails. -/
  fresh : ∀ call, s.active = some call → call.carrying = false → s.carried = []
  /-- A call that has delivered nothing has the carried bytes before it. -/
  unsent : ∀ call, s.active = some call → call.sent = false → s.carried <+: call.rest
  /-- A call that has found a byte delivers it with its first frame. -/
  sent : ∀ call, s.active = some call → s.closed = false → call.carrying = true →
    ∃ b carried, s.carried = b :: carried ∧ (call.sent = true → b ∈ s.delivered.flatten)

theorem inv_new : new.Inv frameBytes where
  line := .nil
  sized := fun _ h => absurd h List.not_mem_nil
  complete _ _ := ⟨rfl, fun _ => rfl⟩
  fresh := by simp [new]
  unsent := by simp [new]
  sent := by simp [new]

theorem State.Inv.framed (h : s.Inv frameBytes) : s.Framed frameBytes := by
  have hdelivered : Increasing s.input s.delivered.flatten := by
    refine h.line.sublist ?_
    rw [State.line, List.append_assoc]
    exact List.sublist_append_left _ _
  exact ⟨hdelivered.ordered, hdelivered.genuine, h.sized, h.complete⟩

/-! ## The steps -/

theorem State.Inv.write (h : s.Inv frameBytes) (data : List UInt8) (aborted : Bool) :
    (write s data aborted).Inv frameBytes := by
  have hline := h.line
  by_cases haborted : aborted = true
  · rw [AudioWrite.write, if_pos haborted]
    refine ⟨hline.extend data, h.sized, fun hfailed hclosed => ⟨(h.complete hfailed hclosed).1, ?_⟩, h.fresh,
      h.unsent, h.sent⟩
    intro hnone
    cases hnone
  rw [AudioWrite.write, if_neg haborted]
  by_cases hempty : data = []
  · rw [if_pos hempty]
    subst hempty
    simp only [List.append_nil]
    exact h
  · rw [if_neg hempty]
    refine ⟨?_, h.sized, fun hfailed hclosed => ⟨(h.complete hfailed hclosed).1, fun haway => ?_⟩, h.fresh,
      h.unsent, h.sent⟩
    · have happend := hline.append data
      simpa only [State.line, State.held, List.flatten_append, List.flatten_cons, List.flatten_nil, List.append_nil,
        List.append_assoc] using happend
    · have hall : s.entered ++ s.chain.flatten = s.input.zipIdx := (h.complete hfailed hclosed).2 haway
      simp only [List.flatten_append, List.flatten_cons, List.flatten_nil, List.append_nil]
      rw [← List.append_assoc, hall, List.zipIdx_append, Nat.zero_add]

theorem State.Inv.enter {copy : List Byte} {chain : List (List Byte)} (h : s.Inv frameBytes)
    (hactive : s.active = none) (hchain : s.chain = copy :: chain) (refused : Bool) :
    (enter { s with chain := chain } copy refused).Inv frameBytes := by
  have hline := h.line
  rw [State.line, hchain, List.flatten_cons] at hline
  by_cases hrefused : refused = true ∨ s.closed = true
  · rw [AudioWrite.enter, if_pos hrefused]
    refine ⟨?_, h.sized, fun hfailed hclosed => ⟨(h.complete hfailed hclosed).1, ?_⟩, h.fresh, h.unsent, h.sent⟩
    · refine hline.sublist ?_
      show (s.delivered.flatten ++ s.held ++ chain.flatten).Sublist _
      exact (List.Sublist.refl _).append (List.sublist_append_right _ _)
    · intro hnone
      cases hnone
  · rw [AudioWrite.enter, if_neg hrefused]
    have hopen : s.closed = false := by simpa using (not_or.mp hrefused).2
    have hheld : s.held = s.carried := by simp [State.held, hactive, hopen]
    rw [hheld] at hline
    refine ⟨?_, h.sized, ?_, ?_, ?_, ?_⟩
    · simpa only [State.line, State.held, List.append_assoc] using hline
    · intro hfailed hclosed
      obtain ⟨hbrought, hall⟩ := h.complete hfailed hclosed
      rw [hheld] at hbrought
      rw [hchain, List.flatten_cons] at hall
      refine ⟨?_, fun haway => ?_⟩
      · show s.delivered.flatten ++ (s.carried ++ copy) = s.entered ++ copy
        rw [← List.append_assoc, hbrought]
      · show s.entered ++ copy ++ chain.flatten = s.input.zipIdx
        rw [List.append_assoc, hall haway]
    · intro call hcall hcarrying
      obtain rfl := Option.some.inj hcall
      simpa using hcarrying
    · intro call hcall _
      obtain rfl := Option.some.inj hcall
      exact List.prefix_append s.carried copy
    · intro call hcall _ hcarrying
      obtain rfl := Option.some.inj hcall
      have hne : s.carried ≠ [] := by simpa using hcarrying
      obtain ⟨b, carried, heq⟩ := List.exists_cons_of_ne_nil hne
      refine ⟨b, carried, heq, fun hsent => ?_⟩
      cases hsent

theorem State.Inv.deliver {call : Active} (hpos : 0 < frameBytes) (h : s.Inv frameBytes)
    (hactive : s.active = some call) (hfull : frameBytes ≤ call.rest.length) :
    ({ s with
      active := some { call with rest := call.rest.drop frameBytes, sent := true }
      delivered := s.delivered ++ [call.rest.take frameBytes] } : State).Inv frameBytes := by
  have hheld : s.held = call.rest := by rw [State.held, hactive]
  have hsplit : s.delivered.flatten ++ [call.rest.take frameBytes].flatten ++ call.rest.drop frameBytes =
      s.delivered.flatten ++ s.held := by
    rw [hheld, List.append_assoc, List.flatten_singleton, List.take_append_drop]
  refine ⟨?_, ?_, ?_, ?_, ?_, ?_⟩
  · have hline := h.line
    rw [State.line, ← hsplit, ← List.flatten_append] at hline
    exact hline
  · intro frame hmem
    rcases List.mem_append.mp hmem with hmem | hmem
    · exact h.sized frame hmem
    · obtain rfl := List.mem_singleton.mp hmem
      exact List.length_take_of_le hfull
  · intro hfailed hclosed
    obtain ⟨hbrought, hall⟩ := h.complete hfailed hclosed
    refine ⟨?_, hall⟩
    rw [← hsplit, ← List.flatten_append] at hbrought
    exact hbrought
  · intro call' hcall hcarrying
    obtain rfl := Option.some.inj hcall
    exact h.fresh call hactive hcarrying
  · intro call' hcall hsent
    obtain rfl := Option.some.inj hcall
    cases hsent
  · intro call' hcall hclosed hcarrying
    obtain rfl := Option.some.inj hcall
    obtain ⟨b, carried, heq, hb⟩ := h.sent call hactive hclosed hcarrying
    refine ⟨b, carried, heq, fun _ => ?_⟩
    rw [List.flatten_append, List.mem_append]
    by_cases hsent : call.sent = true
    · exact Or.inl (hb hsent)
    · right
      -- the first frame begins with the carried bytes
      have hpre := h.unsent call hactive (by simpa using hsent)
      obtain ⟨suffix, hrest⟩ := hpre
      rw [heq, List.cons_append] at hrest
      rw [← hrest, List.flatten_singleton]
      obtain ⟨n, rfl⟩ := Nat.exists_eq_succ_of_ne_zero hpos.ne'
      rw [List.take_succ_cons]
      exact List.mem_cons_self

theorem State.Inv.fail {call : Active} (h : s.Inv frameBytes) (hactive : s.active = some call)
    (hclean : Clean s .fail) : ({ s with active := none, failed := true } : State).Inv frameBytes := by
  have hheld : s.held = call.rest := by rw [State.held, hactive]
  refine ⟨?_, h.sized, fun hfailed => (by cases hfailed), by simp, by simp, by simp⟩
  have hline := h.line
  rw [State.line, hheld] at hline
  refine hline.sublist ?_
  show (s.delivered.flatten ++ (if s.closed then [] else s.carried) ++ s.chain.flatten).Sublist _
  refine (List.Sublist.append ?_ (List.Sublist.refl _))
  refine (List.Sublist.refl _).append ?_
  by_cases hclosed : s.closed = true
  · rw [if_pos hclosed]
    exact List.nil_sublist _
  rw [if_neg hclosed]
  have hopen : s.closed = false := by simpa using hclosed
  by_cases hcarrying : call.carrying = true
  · have hsent : call.sent = false := by
      have hnot := hclean hopen call hactive
      simpa [hcarrying] using hnot
    exact (h.unsent call hactive hsent).sublist
  · rw [h.fresh call hactive (by simpa using hcarrying)]
    exact List.nil_sublist _

theorem State.Inv.finish {call : Active} (h : s.Inv frameBytes) (hactive : s.active = some call) :
    ({ s with active := none, carried := call.rest } : State).Inv frameBytes := by
  have hheld : s.held = call.rest := by rw [State.held, hactive]
  refine ⟨?_, h.sized, ?_, by simp, by simp, by simp⟩
  · have hline := h.line
    rw [State.line, hheld] at hline
    refine hline.sublist ?_
    show (s.delivered.flatten ++ (if s.closed then [] else call.rest) ++ s.chain.flatten).Sublist _
    refine List.Sublist.append ?_ (List.Sublist.refl _)
    refine (List.Sublist.refl _).append ?_
    split
    · exact List.nil_sublist _
    · exact List.Sublist.refl _
  · intro hfailed hclosed
    obtain ⟨hbrought, hall⟩ := h.complete hfailed hclosed
    refine ⟨?_, hall⟩
    rw [hheld] at hbrought
    show s.delivered.flatten ++ (if s.closed then [] else call.rest) = s.entered
    rw [if_neg (by simpa using hclosed)]
    exact hbrought

theorem State.Inv.close (h : s.Inv frameBytes) : ({ s with closed := true } : State).Inv frameBytes := by
  refine ⟨?_, h.sized, fun _ hclosed => (by cases hclosed), h.fresh, h.unsent, fun _ _ hclosed => (by cases hclosed)⟩
  refine h.line.sublist ?_
  refine List.Sublist.append ?_ (List.Sublist.refl _)
  refine (List.Sublist.refl _).append ?_
  cases hactive : s.active with
  | some call => simp [State.held, hactive]
  | none => simp [State.held, hactive]

theorem State.Inv.drop (h : s.Inv frameBytes) (hclosed : s.closed = true) :
    ({ s with carried := [] } : State).Inv frameBytes := by
  have hheld : ({ s with carried := [] } : State).held = s.held := by
    cases hactive : s.active with
    | some call => simp [State.held, hactive]
    | none => simp [State.held, hactive, hclosed]
  refine ⟨?_, h.sized, ?_, fun _ _ _ => rfl, fun call _ _ => List.nil_prefix, ?_⟩
  · rw [State.line, hheld]
    exact h.line
  · intro _ hopen
    rw [hclosed] at hopen
    cases hopen
  · intro _ _ hopen
    rw [hclosed] at hopen
    cases hopen

/-- One step that meets the condition keeps the invariant. -/
theorem State.Inv.step (hpos : 0 < frameBytes) (h : s.Inv frameBytes) (hclean : Clean s a)
    (ht : step frameBytes s a = some t) : t.Inv frameBytes := by
  cases a with
  | write data aborted =>
    obtain rfl := Option.some.inj ht
    exact h.write data aborted
  | enter refused =>
    simp only [AudioWrite.step] at ht
    split at ht
    · next copy chain hactive hchain =>
      obtain rfl := Option.some.inj ht
      exact h.enter hactive hchain refused
    · cases ht
  | deliver =>
    simp only [AudioWrite.step] at ht
    split at ht
    · next call hactive =>
      split at ht
      · next hfull =>
        obtain rfl := Option.some.inj ht
        exact h.deliver hpos hactive hfull
      · cases ht
    · cases ht
  | fail =>
    simp only [AudioWrite.step] at ht
    split at ht
    · next call hactive =>
      split at ht
      · obtain rfl := Option.some.inj ht
        exact h.fail hactive hclean
      · cases ht
    · cases ht
  | finish =>
    simp only [AudioWrite.step] at ht
    split at ht
    · next call hactive =>
      split at ht
      · obtain rfl := Option.some.inj ht
        exact h.finish hactive
      · cases ht
    · cases ht
  | close =>
    obtain rfl := Option.some.inj ht
    exact h.close
  | drop =>
    simp only [AudioWrite.step] at ht
    split at ht
    · next hclosed =>
      obtain rfl := Option.some.inj ht
      exact h.drop hclosed
    · cases ht

theorem inv_reachable (hpos : 0 < frameBytes) (h : (machine frameBytes).ReachableWhere Clean s) :
    s.Inv frameBytes := by
  refine h.invariant (I := State.Inv frameBytes) ?_ ?_
  · intro s hs
    obtain rfl : s = new := hs
    exact inv_new
  · intro s a t hs hclean ht
    exact hs.step hpos hclean ht

/-! ## Bytes that are delivered twice -/

/-- The calls of the chain can all be turned away. -/
theorem exists_cleared (frameBytes : Nat) {s : State} (hactive : s.active = none) :
    ∃ t, (machine frameBytes).Steps (fun _ _ => True) s t ∧ t.chain = [] ∧ t.active = none ∧
      t.closed = s.closed ∧ t.carried = s.carried ∧ t.delivered = s.delivered := by
  induction hchain : s.chain generalizing s with
  | nil => exact ⟨s, .refl, hchain, hactive, rfl, rfl, rfl⟩
  | cons copy chain ih =>
    let u : State := { s with chain := chain, turnedAway := true }
    have hstep : (machine frameBytes).step s (.enter true) = some u := by
      simp [machine, step, enter, hactive, hchain, u]
    obtain ⟨t, hut, hrest⟩ := ih (s := u) hactive rfl
    exact ⟨t, .head ⟨_, trivial, hstep⟩ hut, hrest⟩

/-- A carried byte that has been delivered can be delivered once more. -/
theorem exists_twice (hpos : 0 < frameBytes) {b : Byte} {carried : List Byte} (hactive : s.active = none)
    (hclosed : s.closed = false) (hcarried : s.carried = b :: carried) (hb : b ∈ s.delivered.flatten) :
    ∃ t, (machine frameBytes).Steps (fun _ _ => True) s t ∧ ¬ t.Framed frameBytes := by
  obtain ⟨u, hsu, hchain, huactive, huclosed, hucarried, hudelivered⟩ := exists_cleared frameBytes hactive
  let data : List UInt8 := List.replicate frameBytes 0
  have hdata : data ≠ [] := by simp [data, hpos.ne']
  let line := b :: carried ++ data.zipIdx u.input.length
  have hline : frameBytes ≤ line.length := by simp [line, data]; omega
  have hexec : ∃ t, (machine frameBytes).exec u [.write data false, .enter false, .deliver] = some t ∧
      t.delivered = u.delivered ++ [line.take frameBytes] := by
    simp only [Machine.exec_cons, Machine.exec_nil, machine, step, write, enter, hdata, huactive, huclosed, hucarried,
      hcarried, hchain, hclosed, List.nil_append, Bool.false_eq_true, reduceIte, or_self, Option.bind_some]
    rw [if_pos hline]
    exact ⟨_, rfl, rfl⟩
  obtain ⟨t, hexec, hdelivered⟩ := hexec
  refine ⟨t, hsu.trans (Machine.Steps.of_exec hexec), fun hframed => ?_⟩
  have htwice : b ∈ line.take frameBytes := by
    obtain ⟨n, rfl⟩ := Nat.exists_eq_succ_of_ne_zero hpos.ne'
    exact List.mem_cons_self
  have hordered := hframed.ordered
  rw [hdelivered, hudelivered, List.flatten_append, List.flatten_singleton, List.map_append,
    List.pairwise_append] at hordered
  have hlt : b.2 < b.2 := hordered.2.2 b.2 (List.mem_map_of_mem hb) b.2 (List.mem_map_of_mem htwice)
  exact absurd hlt (lt_irrefl _)

/-- What the channel gets is framed as long as no call fails that has delivered carried bytes; and whenever one
does, bytes can be delivered twice. -/
theorem framed_if_clean {round : ℚ → ℚ} {format : MediaFormat}
    (hframe : mediaFrameBytes round format = .ok frameBytes) (s : State) :
    ((machine frameBytes).ReachableWhere Clean s → s.Framed frameBytes) ∧
      ∀ t, (machine frameBytes).ReachableWhere Clean s → (machine frameBytes).step s .fail = some t →
        ¬ Clean s .fail → ∃ u, (machine frameBytes).Steps (fun _ _ => True) t u ∧ ¬ u.Framed frameBytes := by
  have hpos : 0 < frameBytes := mediaFrameBytes_pos hframe
  constructor
  · intro hs
    exact (inv_reachable hpos hs).framed
  · intro t hs ht hnot
    have hinv := inv_reachable hpos hs
    simp only [Clean] at hnot
    push Not at hnot
    obtain ⟨hopen, call, hactive, hcarrying, hsent⟩ := hnot
    obtain ⟨b, carried, hcarried, hb⟩ := hinv.sent call hactive hopen hcarrying
    have hfail : t = { s with active := none, failed := true } := by
      simp only [machine, step, hactive, hsent, or_true, reduceIte] at ht
      exact (Option.some.inj ht).symm
    subst hfail
    exact exists_twice hpos rfl hopen hcarried (hb hsent)

/-- Telephone audio in packets of 1 ms, with frames of 16 bytes. -/
def telephone : MediaFormat where
  encoding := "L16"
  sampleRate := 8000
  bitDepth := 16
  channels := 1
  packetTimeMs := 1

/-- Two writes of 20 bytes, the second of which fails at its second frame; then one of 12 bytes. -/
def twiceRun : List Action :=
  [.write (List.replicate 20 1) false, .enter false, .deliver, .finish,
    .write (List.replicate 30 2) false, .enter false, .deliver, .fail,
    .write (List.replicate 12 3) false, .enter false, .deliver]

theorem framed_telephone :
    (∃ s, (machine 16).exec new (twiceRun.take 7) = some s ∧ s.Framed 16) ∧
      ∃ t u, (machine 16).exec new (twiceRun.take 8) = some t ∧
        (machine 16).Steps (fun _ _ => True) t u ∧ ¬ u.Framed 16 := by
  have hframe : mediaFrameBytes id telephone = .ok 16 := by decide +kernel
  have hexec : (machine 16).exec new (twiceRun.take 7) = some _ := rfl
  have hreach : (machine 16).ReachableWhere Clean _ := .of_exec rfl (by decide) hexec
  constructor
  · exact ⟨_, hexec, (framed_if_clean hframe _).1 hreach⟩
  · have hfail : (machine 16).step (((machine 16).exec new (twiceRun.take 7)).get rfl) .fail = some _ := rfl
    obtain ⟨u, htu, hu⟩ := (framed_if_clean hframe _).2 _ hreach hfail (by decide)
    exact ⟨_, u, rfl, htu, hu⟩

/-- The four bytes that the second write has found in `#partial` reach the channel twice. -/
theorem twiceRun_twice :
    ∃ s, (machine 16).exec new twiceRun = some s ∧
      s.delivered.map (List.map Prod.snd) =
        [List.range 16, List.range' 16 16, [16, 17, 18, 19] ++ List.range' 50 12] ∧ ¬ s.Framed 16 := by
  have hexec : (machine 16).exec new twiceRun = some _ := rfl
  refine ⟨_, hexec, by decide, fun hframed => ?_⟩
  exact absurd hframed.ordered (by decide)

end Rtvbp.TypeScript.AudioWrite
