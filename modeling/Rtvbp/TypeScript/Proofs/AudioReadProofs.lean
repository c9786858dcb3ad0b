import Rtvbp.TypeScript.AudioRead
import Rtvbp.TypeScript.Proofs.QueueFlowProofs

/-!
# Proofs: reading from an audio stream

The buffered bytes form one line from `#current` back to the channel. A byte joins the line at its end when the
channel accepts its frame, moves through the queues without changing its place, and leaves the line at its
beginning to a call of `read`, or from its place in a queue to a call of `clear`.
-/

namespace Rtvbp.TypeScript.AudioRead

open Rtvbp.Lib
open Rtvbp.TypeScript.QueueMachine (Offer Accounts)

variable {frameBytes capacity : Nat} {s t : State} {a : Action}

/-! ## The fates of bytes -/

/-- What has become of the bytes that were received, where `line` are the bytes that are buffered. -/
structure Fates (returned : List Byte) (clears : List Cleared) (line received : List Byte) : Prop where
  split : (returned ++ (clears.map Cleared.bytes).flatten ++ line).Perm received
  ordered : (returned ++ line).Sublist received
  cleared : ∀ c ∈ clears, c.bytes.Sublist received ∧ c.value = c.bytes.length

section Fates

variable {returned line received : List Byte} {clears : List Cleared}

/-- Bytes are received, and buffered at the end. -/
theorem Fates.append (h : Fates returned clears line received) (bytes : List Byte) :
    Fates returned clears (line ++ bytes) (received ++ bytes) where
  split := by
    rw [← List.append_assoc]
    exact h.split.append_right bytes
  ordered := by
    rw [← List.append_assoc]
    exact h.ordered.append (List.Sublist.refl bytes)
  cleared c hc := by
    obtain ⟨hsub, hvalue⟩ := h.cleared c hc
    exact ⟨hsub.trans (List.sublist_append_left _ _), hvalue⟩

/-- The first bytes are returned. -/
theorem Fates.deliver {chunk : List Byte} (h : Fates returned clears (chunk ++ line) received) :
    Fates (returned ++ chunk) clears line received where
  split := by
    refine List.Perm.trans ?_ h.split
    rw [List.append_assoc returned chunk, List.append_assoc returned, List.append_assoc returned]
    refine List.Perm.append_left returned ?_
    rw [← List.append_assoc]
    exact List.Perm.append_right line List.perm_append_comm
  ordered := by
    rw [List.append_assoc]
    exact h.ordered
  cleared := h.cleared

/-- Some bytes are removed, and the others are kept. -/
theorem Fates.remove {removed kept : List Byte} (h : Fates returned clears line received)
    (hperm : (removed ++ kept).Perm line) (hremoved : removed.Sublist line) (hkept : kept.Sublist line) {value : Nat}
    (hvalue : value = removed.length) :
    Fates returned (clears ++ [{ bytes := removed, value := value }]) kept received where
  split := by
    refine List.Perm.trans ?_ h.split
    rw [List.map_append, List.flatten_append, List.map_singleton, List.flatten_singleton, ← List.append_assoc,
      List.append_assoc _ removed]
    exact List.Perm.append_left _ hperm
  ordered := ((List.Sublist.refl returned).append hkept).trans h.ordered
  cleared c hc := by
    rcases List.mem_append.mp hc with hc | hc
    · exact h.cleared c hc
    · obtain rfl := List.mem_singleton.mp hc
      have hline : line.Sublist received := (List.sublist_append_right returned line).trans h.ordered
      exact ⟨hremoved.trans hline, hvalue⟩

end Fates

/-! ## Frames in queues -/

@[simp] theorem bytes_append (l l' : List (Offer Frame)) : bytes (l ++ l') = bytes l ++ bytes l' :=
  List.flatMap_append

@[simp] theorem bytes_nil : bytes [] = [] := rfl

@[simp] theorem bytes_singleton (o : Offer Frame) : bytes [o] = o.value := List.flatMap_singleton _ _

theorem bytes_cons (o : Offer Frame) (l : List (Offer Frame)) : bytes (o :: l) = o.value ++ bytes l :=
  List.flatMap_cons

theorem bytes_sublist {l l' : List (Offer Frame)} (h : l.Sublist l') : (bytes l).Sublist (bytes l') := by
  rw [bytes, bytes, List.flatMap, List.flatMap]
  exact (h.map Offer.value).flatten

theorem length_bytes {l : List (Offer Frame)} (h : ∀ o ∈ l, o.value.length = frameBytes) :
    (bytes l).length = l.length * frameBytes := by
  induction l with
  | nil => simp
  | cons o l ih =>
    have hl : (bytes l).length = l.length * frameBytes := ih fun o' ho' => h o' (List.mem_cons_of_mem o ho')
    have ho : o.value.length = frameBytes := h o List.mem_cons_self
    rw [bytes, List.flatMap_cons, List.length_append, ho, List.length_cons, Nat.succ_mul]
    rw [bytes] at hl
    omega

/-- An item has been offered. -/
theorem offered_of_item {q : Queue} (h : Accounts q []) {o : Offer Frame} (ho : o ∈ q.items) : o ∈ q.offered := by
  have hmem : o ∈ (q.offered : Multiset (Offer Frame)) := by
    rw [h.fates]
    simp [ho]
  exact hmem

/-- What a call of `shift` returns has been offered. -/
theorem offered_of_result {q : Queue} (h : Accounts q []) {call : Nat} {o : Offer Frame}
    (ho : q.result call = some o) : o ∈ q.offered := by
  have hvalue : o ∈ q.values := by
    obtain ⟨r, hr, rfl⟩ := Option.map_eq_some_iff.mp ho
    exact List.mem_map_of_mem (List.mem_of_find?_eq_some hr)
  have hmem : o ∈ (q.offered : Multiset (Offer Frame)) := by
    rw [h.fates]
    simp [hvalue]
  exact hmem

/-- Nobody waits in `shift` when the caller has got its value. -/
theorem readers_of_result {q : Queue} (h : Accounts q []) {call : Nat} {o : Offer Frame}
    (hc : q.ReadBy (some call)) (ho : q.result call = some o) : q.readers = [] := by
  refine hc.resolve_right fun hreaders => ?_
  have hnone : q.result call = none := QueueMachine.result_of_waiting h (by simp [hreaders])
  rw [hnone] at ho
  cases ho

/-! ## The invariant -/

/-- The call of `shift` of the pump. -/
def Pump.call : Pump → Option Nat
  | .shifting call => some call
  | _ => none

/-- The frame that the pump will push. -/
def Pump.held : Pump → Frame
  | .holding frame => frame
  | _ => []

/-- The call of `shift` of the call of `read` under way. -/
def State.readCall (s : State) : Option Nat := s.reading.map Reading.call

/-- The bytes from `#current` back to the channel. -/
def lineOf (remainder : List Byte) (inbound : Queue) (readCall : Option Nat) (held : List Byte) (incoming : Queue)
    (pumpCall : Option Nat) : List Byte :=
  remainder ++ bytes (inbound.flow readCall) ++ bytes inbound.writers ++ held ++ bytes (incoming.flow pumpCall)

/-- The line of a state. -/
def State.line (s : State) : List Byte :=
  lineOf s.remainder s.inbound s.readCall s.pump.held s.incoming s.pump.call

theorem State.line_eq_buffered (s : State) : s.line = s.buffered := by
  have harrived : bytes (s.inbound.flow s.readCall) = s.arrived ++ bytes s.inbound.items := by
    rw [QueueMachine.State.flow, bytes_append, QueueMachine.State.arrived, State.readCall, State.arrived]
    cases s.reading <;> rfl
  have hpumped : s.pump.held ++ bytes (s.incoming.flow s.pump.call) = s.pumped ++ bytes s.incoming.items := by
    rw [QueueMachine.State.flow, bytes_append, QueueMachine.State.arrived, State.pumped]
    cases s.pump <;> rfl
  rw [State.line, lineOf, State.buffered, List.append_assoc _ s.pump.held, hpumped, harrived]
  simp only [List.append_assoc]

/-- A queue of full frames, open and in order. -/
structure Sound (frameBytes capacity : Nat) (q : Queue) (c : Option Nat) : Prop where
  inv : QueueMachine.Inv capacity q
  isOpen : q.closed = false
  readBy : q.ReadBy c
  sized : ∀ o ∈ q.offered, o.value.length = frameBytes

/-- The invariant. -/
structure State.Inv (frameBytes capacity : Nat) (s : State) : Prop where
  incoming : Sound frameBytes channelCapacity s.incoming s.pump.call
  inbound : Sound frameBytes capacity s.inbound s.readCall
  held : ∀ frame, s.pump = .holding frame → frame.length = frameBytes
  remainder : s.reading ≠ none → s.remainder = []
  input : Increasing s.input (bytes (s.incoming.accepted ++ s.incoming.writers))
  fates : Fates s.returned.flatten s.clears s.line s.received

theorem inv_new : new.Inv frameBytes capacity where
  incoming := ⟨QueueMachine.inv_new, rfl, rfl, fun _ h => absurd h List.not_mem_nil⟩
  inbound := ⟨QueueMachine.inv_new, rfl, rfl, fun _ h => absurd h List.not_mem_nil⟩
  held _ h := by cases h
  remainder h := absurd rfl h
  input := .nil
  fates := ⟨List.Perm.refl _, List.Sublist.refl _, fun _ h => absurd h List.not_mem_nil⟩

theorem State.Inv.conserved (h : s.Inv frameBytes capacity) : s.Conserved where
  received := by
    refine h.input.sublist ?_
    rw [bytes_append]
    exact List.sublist_append_left _ _
  split := by
    rw [← s.line_eq_buffered]
    exact h.fates.split
  ordered := by
    rw [← s.line_eq_buffered]
    exact h.fates.ordered
  cleared := h.fates.cleared
  places hquiet := by
    have hpumped : s.pumped = [] := by
      rw [State.pumped]
      cases hpump : s.pump with
      | holding frame => exact absurd hpump (hquiet.pump frame)
      | shifting call =>
        show bytes (s.incoming.result call).toList = []
        rw [hquiet.shifting call hpump]
        rfl
      | idle | pushing | failed => rfl
    have harrived : s.arrived = [] := by
      rw [State.arrived]
      cases hreading : s.reading with
      | none => rfl
      | some r =>
        show bytes (s.inbound.result r.call).toList = []
        rw [hquiet.reading r hreading]
        rfl
    rw [State.buffered, hpumped, harrived, List.append_nil, List.append_nil]

/-! ## The steps of a queue -/

section Queues

variable {q q' : Queue} {c : Option Nat} {frame : Frame}

/-- A frame is pushed. -/
theorem Sound.push (hpos : 0 < capacity) (h : Sound frameBytes capacity q c) (hframe : frame.length = frameBytes)
    (hstep : QueueMachine.step capacity q (.push frame false) = some q') :
    Sound frameBytes capacity q' c ∧ QueueMachine.Pushed q c (q.offer frame).2 q' ∧
      q'.accepted ++ q'.writers = q.accepted ++ q.writers ++ [(q.offer frame).2] := by
  obtain rfl : QueueMachine.push capacity (q.offer frame).1 (q.offer frame).2 false = q' := by
    simpa [QueueMachine.step] using hstep
  obtain ⟨hreadBy, hclosed, hoffered, hpushed, hline⟩ := QueueMachine.push_flow h.inv h.isOpen h.readBy frame
  refine ⟨⟨QueueMachine.inv_step hpos h.inv hstep, hclosed, hreadBy, ?_⟩, hpushed, hline⟩
  intro o ho
  rw [hoffered] at ho
  rcases List.mem_append.mp ho with ho | ho
  · exact h.sized o ho
  · obtain rfl := List.mem_singleton.mp ho
    exact hframe

/-- The caller makes a call of `shift`. -/
theorem Sound.shift (hpos : 0 < capacity) (h : Sound frameBytes capacity q none)
    (hstep : QueueMachine.step capacity q (.shift false) = some q') :
    Sound frameBytes capacity q' (some q.calls) ∧ QueueMachine.Shifted q q' q.calls := by
  obtain rfl : QueueMachine.shift { q with calls := q.calls + 1 } q.calls false = q' := by
    simpa [QueueMachine.step] using hstep
  have hshifted := QueueMachine.shift_flow hpos h.inv h.isOpen h.readBy
  refine ⟨⟨QueueMachine.inv_step hpos h.inv hstep, hshifted.isOpen, hshifted.readBy, ?_⟩, hshifted⟩
  intro o ho
  rw [hshifted.offered] at ho
  exact h.sized o ho

/-- The caller has got its value. -/
theorem Sound.got {call : Nat} {o : Offer Frame} (h : Sound frameBytes capacity q (some call))
    (ho : q.result call = some o) :
    Sound frameBytes capacity q none ∧ o.value.length = frameBytes ∧ q.flow (some call) = o :: q.flow none := by
  refine ⟨⟨h.inv, h.isOpen, readers_of_result h.inv.accounts h.readBy ho, h.sized⟩, ?_, ?_⟩
  · exact h.sized o (offered_of_result h.inv.accounts ho)
  · simp [QueueMachine.State.flow, QueueMachine.State.arrived, ho]

/-- The caller waits no more. -/
theorem Sound.abort (hpos : 0 < capacity) {call : Nat} (h : Sound frameBytes capacity q (some call))
    (hstep : QueueMachine.step capacity q (.abortShift call) = some q') :
    Sound frameBytes capacity q' none ∧ q'.flow none = q.flow (some call) ∧ q'.writers = q.writers := by
  have hinv := QueueMachine.inv_step hpos h.inv hstep
  simp only [QueueMachine.step, Option.ite_none_right_eq_some, Option.some.injEq] at hstep
  obtain ⟨hmem, rfl⟩ := hstep
  have hreaders : q.readers = [call] := h.readBy.resolve_left (List.ne_nil_of_mem hmem)
  have hnone : q.result call = none := QueueMachine.result_of_waiting h.inv.accounts hmem
  refine ⟨⟨hinv, h.isOpen, ?_, h.sized⟩, ?_, rfl⟩
  · show q.readers.erase call = []
    rw [hreaders]
    simp
  · simp [QueueMachine.State.flow, QueueMachine.State.arrived, hnone]

/-- A writer waits no more. -/
theorem Sound.abortPush (hpos : 0 < capacity) {call : Nat} (h : Sound frameBytes capacity q c)
    (hstep : QueueMachine.step capacity q (.abortPush call) = some q') :
    Sound frameBytes capacity q' c ∧ q'.flow c = q.flow c ∧ q'.accepted = q.accepted ∧
      q'.writers.Sublist q.writers := by
  have hinv := QueueMachine.inv_step hpos h.inv hstep
  simp only [QueueMachine.step] at hstep
  split at hstep
  · obtain rfl := Option.some.inj hstep
    exact ⟨⟨hinv, h.isOpen, by cases c <;> exact h.readBy, h.sized⟩, QueueMachine.flow_congr rfl rfl, rfl,
      List.eraseP_sublist⟩
  · cases hstep

/-- The items are thrown away, and the writers take their place. -/
theorem Sound.clear (h : Sound frameBytes capacity q c) :
    Sound frameBytes capacity (QueueMachine.clear q) c ∧
      (QueueMachine.clear q).flow c = q.arrived c ++ q.writers ∧ (QueueMachine.clear q).writers = [] ∧
      (QueueMachine.clear q).accepted = q.accepted ++ q.writers := by
  have hinv := QueueMachine.inv_clear h.inv
  rw [QueueMachine.clear_eq h.inv h.isOpen] at hinv ⊢
  exact ⟨⟨hinv, h.isOpen, by cases c <;> exact h.readBy, h.sized⟩, rfl, rfl, rfl⟩

theorem Sound.length_items (h : Sound frameBytes capacity q c) :
    (bytes q.items).length = q.items.length * frameBytes :=
  length_bytes fun o ho => h.sized o (offered_of_item h.inv.accounts ho)

end Queues

/-! ## The steps -/

/-- The next bytes of a frame, and those after them. -/
theorem take_drop_append {frame : Frame} {offset maxBytes : Nat} :
    (frame.take (min (offset + maxBytes) frame.length)).drop offset ++
      frame.drop (min (offset + maxBytes) frame.length) = frame.drop offset := by
  by_cases hoffset : offset ≤ frame.length
  · have hle : offset ≤ min (offset + maxBytes) frame.length := by omega
    obtain ⟨count, hcount⟩ := Nat.exists_eq_add_of_le hle
    rw [hcount, ← List.drop_drop, List.drop_take, Nat.add_sub_cancel_left, List.take_append_drop]
  · have hstop : min (offset + maxBytes) frame.length = frame.length := by omega
    rw [hstop, List.take_length, List.drop_length, List.append_nil]

/-- What `clear` takes out of the line, and what it leaves there. -/
theorem removed_kept (current arrived items moving channel : List Byte) :
    ((current ++ items ++ channel) ++ (arrived ++ moving)).Perm (current ++ arrived ++ items ++ moving ++ channel) ∧
      (current ++ items ++ channel).Sublist (current ++ arrived ++ items ++ moving ++ channel) ∧
      (arrived ++ moving).Sublist (current ++ arrived ++ items ++ moving ++ channel) := by
  refine ⟨?_, ?_, ?_⟩
  · rw [← Multiset.coe_eq_coe]
    simp only [← Multiset.coe_add]
    abel
  · refine List.Sublist.append ?_ (List.Sublist.refl channel)
    rw [← List.append_nil (current ++ items)]
    refine List.Sublist.append ?_ (List.nil_sublist moving)
    exact (List.sublist_append_left current arrived).append (List.Sublist.refl items)
  · refine List.Sublist.trans ?_ (List.sublist_append_left _ channel)
    refine List.Sublist.append ?_ (List.Sublist.refl moving)
    exact (List.sublist_append_right current arrived).trans (List.sublist_append_left _ items)

/-- The calls of `read` that wait for others have no part in it. -/
theorem State.Inv.rechain (h : s.Inv frameBytes capacity) (chain : List Nat) :
    ({ s with chain := chain } : State).Inv frameBytes capacity :=
  ⟨h.incoming, h.inbound, h.held, h.remainder, h.input, h.fates⟩

theorem channelCapacity_pos : 0 < channelCapacity := by decide

/-- The peer writes a frame. -/
theorem State.Inv.write {data : List UInt8} {aborted : Bool} {q : Queue} (h : s.Inv frameBytes capacity)
    (hlength : data.length = frameBytes)
    (hstep : QueueMachine.step channelCapacity s.incoming (.push (data.zipIdx s.input.length) aborted) = some q) :
    ({ s with incoming := q, input := s.input ++ data } : State).Inv frameBytes capacity := by
  have hframe : (data.zipIdx s.input.length).length = frameBytes := by rw [List.length_zipIdx, hlength]
  by_cases haborted : aborted = true
  · subst haborted
    have hq : q = (s.incoming.offer (data.zipIdx s.input.length)).1.refuse
        (s.incoming.offer (data.zipIdx s.input.length)).2 := by
      simpa [QueueMachine.step, QueueMachine.push_aborted] using hstep.symm
    have hinv := QueueMachine.inv_step channelCapacity_pos h.incoming.inv hstep
    subst hq
    refine ⟨⟨hinv, h.incoming.isOpen, ?_, ?_⟩, h.inbound, h.held, h.remainder, h.input.extend data, h.fates⟩
    · exact h.incoming.readBy
    · intro o ho
      rcases List.mem_append.mp ho with ho | ho
      · exact h.incoming.sized o ho
      · obtain rfl := List.mem_singleton.mp ho
        exact hframe
  obtain rfl : aborted = false := by simpa using haborted
  obtain ⟨hsound, hpushed, hline⟩ := h.incoming.push channelCapacity_pos hframe hstep
  refine ⟨hsound, h.inbound, h.held, h.remainder, ?_, ?_⟩
  · show Increasing (s.input ++ data) (bytes (q.accepted ++ q.writers))
    rw [hline, bytes_append, bytes_singleton]
    exact h.input.append data
  · cases hpushed with
    | accepted _ haccepted _ hflow =>
      have hline : lineOf s.remainder s.inbound s.readCall s.pump.held q s.pump.call =
          s.line ++ data.zipIdx s.input.length := by
        rw [State.line, lineOf, lineOf, hflow, bytes_append, bytes_singleton]
        simp only [List.append_assoc]
        rfl
      show Fates s.returned.flatten s.clears (lineOf s.remainder s.inbound s.readCall s.pump.held q s.pump.call)
        (bytes q.accepted)
      rw [hline, haccepted, bytes_append, bytes_singleton]
      exact h.fates.append (data.zipIdx s.input.length)
    | waits haccepted _ hflow =>
      show Fates s.returned.flatten s.clears (lineOf s.remainder s.inbound s.readCall s.pump.held q s.pump.call)
        (bytes q.accepted)
      rw [lineOf, hflow, haccepted]
      exact h.fates

theorem State.Inv.abortWrite {call : Nat} {q : Queue} (h : s.Inv frameBytes capacity)
    (hstep : QueueMachine.step channelCapacity s.incoming (.abortPush call) = some q) :
    ({ s with incoming := q } : State).Inv frameBytes capacity := by
  obtain ⟨hsound, hflow, haccepted, hwriters⟩ := h.incoming.abortPush channelCapacity_pos hstep
  refine ⟨hsound, h.inbound, h.held, h.remainder, h.input.sublist ?_, ?_⟩
  · show (bytes (q.accepted ++ q.writers)).Sublist _
    rw [haccepted, bytes_append, bytes_append]
    exact (List.Sublist.refl _).append (bytes_sublist hwriters)
  · show Fates s.returned.flatten s.clears (lineOf s.remainder s.inbound s.readCall s.pump.held q s.pump.call)
      (bytes q.accepted)
    rw [lineOf, hflow, haccepted]
    exact h.fates

theorem State.Inv.pumpShift {q : Queue} (h : s.Inv frameBytes capacity) (hpump : s.pump = .idle)
    (hstep : QueueMachine.step channelCapacity s.incoming (.shift false) = some q) :
    ({ s with incoming := q, pump := .shifting s.incoming.calls } : State).Inv frameBytes capacity := by
  have hidle := h.incoming
  rw [hpump] at hidle
  obtain ⟨hsound, hshifted⟩ := hidle.shift channelCapacity_pos hstep
  obtain ⟨admitted, -, haccepted, hflow⟩ := hshifted.flow
  refine ⟨hsound, h.inbound, fun _ heq => (by cases heq), h.remainder, ?_, ?_⟩
  · show Increasing s.input (bytes (q.accepted ++ q.writers))
    rw [hshifted.line]
    exact h.input
  · have hfates := h.fates.append (bytes admitted)
    rw [State.line, hpump, lineOf, State.received, List.append_assoc] at hfates
    show Fates s.returned.flatten s.clears (lineOf s.remainder s.inbound s.readCall [] q (some s.incoming.calls))
      (bytes q.accepted)
    rw [lineOf, hflow, haccepted, bytes_append, bytes_append]
    exact hfates

theorem State.Inv.pumpTake {call : Nat} {o : Offer Frame} (h : s.Inv frameBytes capacity)
    (hpump : s.pump = .shifting call) (ho : s.incoming.result call = some o) :
    o.value.length = frameBytes ∧ ({ s with pump := .holding o.value } : State).Inv frameBytes capacity := by
  have hshifting := h.incoming
  rw [hpump] at hshifting
  obtain ⟨hsound, hlength, hflow⟩ := hshifting.got ho
  refine ⟨hlength, hsound, h.inbound, fun frame heq => ?_, h.remainder, h.input, ?_⟩
  · obtain rfl : o.value = frame := by simpa using heq
    exact hlength
  · have hfates := h.fates
    rw [State.line, hpump] at hfates
    have hline : lineOf s.remainder s.inbound s.readCall [] s.incoming (some call) =
        lineOf s.remainder s.inbound s.readCall o.value s.incoming none := by
      rw [lineOf, lineOf, hflow, bytes_cons, List.append_nil, List.append_assoc _ o.value]
    show Fates s.returned.flatten s.clears (lineOf s.remainder s.inbound s.readCall o.value s.incoming none) s.received
    rw [← hline]
    exact hfates

theorem State.Inv.pumpPush {frame : Frame} {q : Queue} (hpos : 0 < capacity) (h : s.Inv frameBytes capacity)
    (hpump : s.pump = .holding frame) (hstep : QueueMachine.step capacity s.inbound (.push frame false) = some q) :
    ({ s with inbound := q, pump := .pushing s.inbound.calls } : State).Inv frameBytes capacity := by
  obtain ⟨hsound, hpushed, -⟩ := h.inbound.push hpos (h.held frame hpump) hstep
  have hincoming := h.incoming
  rw [hpump] at hincoming
  refine ⟨hincoming, hsound, fun _ heq => (by cases heq), h.remainder, h.input, ?_⟩
  have hfates := h.fates
  rw [State.line, hpump] at hfates
  have hline : lineOf s.remainder s.inbound s.readCall frame s.incoming none =
      lineOf s.remainder q s.readCall [] s.incoming none := by
    rw [lineOf, lineOf]
    cases hpushed with
    | accepted hnone _ hwriters hflow =>
      rw [hflow, hwriters, hnone, bytes_append, bytes_singleton, bytes_nil]
      simp only [List.append_nil, List.append_assoc]
      rfl
    | waits _ hwriters hflow =>
      rw [hflow, hwriters, bytes_append, bytes_singleton]
      simp only [List.append_nil, List.append_assoc]
      rfl
  show Fates s.returned.flatten s.clears (lineOf s.remainder q s.readCall [] s.incoming none) s.received
  rw [← hline]
  exact hfates

theorem State.Inv.pumpPushed {call : Nat} (h : s.Inv frameBytes capacity) (hpump : s.pump = .pushing call) :
    ({ s with pump := .idle } : State).Inv frameBytes capacity := by
  have hincoming := h.incoming
  have hfates := h.fates
  rw [hpump] at hincoming
  rw [State.line, hpump] at hfates
  exact ⟨hincoming, h.inbound, fun _ heq => (by cases heq), h.remainder, h.input, hfates⟩

/-- The next bytes of a frame are returned. -/
theorem State.Inv.deliver {frame : Frame} {offset maxBytes : Nat} (h : s.Inv frameBytes capacity)
    (hinbound : Sound frameBytes capacity s.inbound none)
    (hline : s.line = lineOf (frame.drop offset) s.inbound none s.pump.held s.incoming s.pump.call) :
    (s.deliver frame offset maxBytes).Inv frameBytes capacity := by
  let stop := min (offset + maxBytes) frame.length
  have hsplit : (frame.take stop).drop offset ++ frame.drop stop = frame.drop offset :=
    take_drop_append
  refine ⟨h.incoming, hinbound, h.held, fun hne => absurd rfl hne, h.input, ?_⟩
  have hfates := h.fates
  rw [hline, ← hsplit] at hfates
  have hreturned : (s.deliver frame offset maxBytes).returned.flatten =
      s.returned.flatten ++ (frame.take stop).drop offset := by
    show (s.returned ++ [_]).flatten = _
    rw [List.flatten_append, List.flatten_singleton]
  rw [hreturned]
  refine Fates.deliver ?_
  show Fates s.returned.flatten s.clears
    (_ ++ lineOf (frame.drop stop) s.inbound none s.pump.held s.incoming s.pump.call) s.received
  rw [lineOf, List.append_assoc, List.append_assoc, List.append_assoc, List.append_assoc] at hfates
  rw [lineOf, List.append_assoc, List.append_assoc, List.append_assoc]
  exact hfates

theorem State.Inv.shift {maxBytes : Nat} {chain : List Nat} {q : Queue} (hpos : 0 < capacity)
    (h : s.Inv frameBytes capacity) (hreading : s.reading = none) (hremainder : s.remainder = [])
    (hstep : QueueMachine.step capacity s.inbound (.shift false) = some q) :
    ({ s with
      inbound := q
      chain := chain
      reading := some { call := s.inbound.calls, maxBytes := maxBytes } } : State).Inv frameBytes capacity := by
  have hinbound := h.inbound
  rw [State.readCall, hreading] at hinbound
  obtain ⟨hsound, hshifted⟩ := hinbound.shift hpos hstep
  obtain ⟨admitted, hwriters, -, hflow⟩ := hshifted.flow
  refine ⟨h.incoming, hsound, h.held, fun _ => hremainder, h.input, ?_⟩
  have hfates := h.fates
  rw [State.line, State.readCall, hreading] at hfates
  have hline : lineOf s.remainder s.inbound none s.pump.held s.incoming s.pump.call =
      lineOf s.remainder q (some s.inbound.calls) s.pump.held s.incoming s.pump.call := by
    rw [lineOf, lineOf, hflow, hwriters, bytes_append, bytes_append]
    simp only [List.append_assoc]
    rfl
  show Fates s.returned.flatten s.clears
    (lineOf s.remainder q (some s.inbound.calls) s.pump.held s.incoming s.pump.call) s.received
  rw [← hline]
  exact hfates

theorem State.Inv.take {r : Reading} {o : Offer Frame} (h : s.Inv frameBytes capacity) (hreading : s.reading = some r)
    (ho : s.inbound.result r.call = some o) : (s.deliver o.value 0 r.maxBytes).Inv frameBytes capacity := by
  have hinbound := h.inbound
  rw [State.readCall, hreading] at hinbound
  obtain ⟨hsound, -, hflow⟩ := hinbound.got ho
  have hremainder : s.remainder = [] := h.remainder (by simp [hreading])
  refine h.deliver hsound ?_
  rw [State.line, State.readCall, hreading, hremainder, Option.map_some, lineOf, lineOf, hflow, bytes_cons,
    List.drop_zero, List.nil_append]

theorem State.Inv.abortRead {r : Reading} {q : Queue} (hpos : 0 < capacity) (h : s.Inv frameBytes capacity)
    (hreading : s.reading = some r) (hstep : QueueMachine.step capacity s.inbound (.abortShift r.call) = some q) :
    ({ s with inbound := q, reading := none } : State).Inv frameBytes capacity := by
  have hinbound := h.inbound
  rw [State.readCall, hreading] at hinbound
  obtain ⟨hsound, hflow, hwriters⟩ := hinbound.abort hpos hstep
  refine ⟨h.incoming, hsound, h.held, fun hne => absurd rfl hne, h.input, ?_⟩
  have hfates := h.fates
  rw [State.line, State.readCall, hreading, lineOf] at hfates
  show Fates s.returned.flatten s.clears (lineOf s.remainder q none s.pump.held s.incoming s.pump.call) s.received
  rw [lineOf, hflow, hwriters]
  exact hfates

/-- `clear` returns the number of the bytes that it removes. -/
theorem value_eq_length (h : s.Inv frameBytes capacity) :
    s.bufferedInboundBytes frameBytes + s.incoming.items.length * frameBytes =
      (s.remainder ++ bytes s.inbound.items ++ bytes s.incoming.items).length := by
  have hbuffered : s.bufferedInboundBytes frameBytes = s.remainder.length + s.inbound.items.length * frameBytes := by
    rw [State.bufferedInboundBytes, State.remainder]
    cases s.current <;> simp
  rw [hbuffered, List.length_append, List.length_append, h.inbound.length_items, h.incoming.length_items]

theorem State.Inv.clear (h : s.Inv frameBytes capacity) : (clear frameBytes s).Inv frameBytes capacity := by
  obtain ⟨hinbound, hflow, hwriters, -⟩ := h.inbound.clear
  obtain ⟨hincoming, hflowIn, hwritersIn, hacceptedIn⟩ := h.incoming.clear
  refine ⟨hincoming, hinbound, h.held, fun _ => rfl, ?_, ?_⟩
  · show Increasing s.input (bytes ((QueueMachine.clear s.incoming).accepted ++ (QueueMachine.clear s.incoming).writers))
    rw [hacceptedIn, hwritersIn, List.append_nil]
    exact h.input
  · let kept := bytes (s.inbound.arrived s.readCall) ++ bytes s.inbound.writers ++ s.pump.held ++
      bytes (s.incoming.arrived s.pump.call)
    have hline : s.line = s.remainder ++ bytes (s.inbound.arrived s.readCall) ++ bytes s.inbound.items ++
        bytes s.inbound.writers ++ s.pump.held ++ bytes (s.incoming.arrived s.pump.call) ++ bytes s.incoming.items := by
      rw [State.line, lineOf, QueueMachine.State.flow, QueueMachine.State.flow, bytes_append, bytes_append]
      simp only [List.append_assoc]
    have hcleared : (AudioRead.clear frameBytes s).line = kept ++ bytes s.incoming.writers := by
      show lineOf [] (QueueMachine.clear s.inbound) s.readCall s.pump.held (QueueMachine.clear s.incoming) s.pump.call = _
      rw [lineOf, hflow, hflowIn, hwriters, bytes_append, bytes_append, bytes_nil, List.append_nil, List.nil_append,
        ← List.append_assoc]
    have hreceived : (AudioRead.clear frameBytes s).received = s.received ++ bytes s.incoming.writers := by
      show bytes (QueueMachine.clear s.incoming).accepted = _
      rw [hacceptedIn, bytes_append]
      rfl
    rw [hcleared, hreceived]
    have hsplit := removed_kept s.remainder (bytes (s.inbound.arrived s.readCall)) (bytes s.inbound.items)
      (bytes s.inbound.writers ++ s.pump.held ++ bytes (s.incoming.arrived s.pump.call)) (bytes s.incoming.items)
    have hkept : kept = bytes (s.inbound.arrived s.readCall) ++
        (bytes s.inbound.writers ++ s.pump.held ++ bytes (s.incoming.arrived s.pump.call)) := by
      simp only [kept, List.append_assoc]
    have hregroup : s.line = s.remainder ++ bytes (s.inbound.arrived s.readCall) ++ bytes s.inbound.items ++
        (bytes s.inbound.writers ++ s.pump.held ++ bytes (s.incoming.arrived s.pump.call)) ++ bytes s.incoming.items := by
      rw [hline]
      simp only [List.append_assoc]
    rw [← hregroup, ← hkept] at hsplit
    obtain ⟨hperm, hremoved, hkeptSub⟩ := hsplit
    exact Fates.append (h.fates.remove hperm hremoved hkeptSub (value_eq_length h)) _

/-- One step keeps the invariant. -/
theorem State.Inv.step (hpos : 0 < capacity) (h : s.Inv frameBytes capacity)
    (ht : step frameBytes capacity s a = some t) : t.Inv frameBytes capacity := by
  cases a with
  | write data aborted =>
    simp only [AudioRead.step] at ht
    split at ht
    · next hlength =>
      obtain ⟨q, hq, rfl⟩ := Option.map_eq_some_iff.mp ht
      exact h.write hlength hq
    · obtain rfl := Option.some.inj ht
      exact h
  | abortWrite call =>
    obtain ⟨q, hq, rfl⟩ := Option.map_eq_some_iff.mp ht
    exact h.abortWrite hq
  | pumpShift =>
    simp only [AudioRead.step] at ht
    split at ht
    · next hpump =>
      obtain ⟨q, hq, rfl⟩ := Option.map_eq_some_iff.mp ht
      exact h.pumpShift hpump hq
    · cases ht
  | pumpTake =>
    simp only [AudioRead.step] at ht
    split at ht
    · next call hpump =>
      obtain ⟨o, ho, ht⟩ := Option.bind_eq_some_iff.mp ht
      obtain ⟨hlength, htaken⟩ := h.pumpTake hpump ho
      rw [if_pos hlength] at ht
      obtain rfl := Option.some.inj ht
      exact htaken
    · cases ht
  | pumpPush =>
    simp only [AudioRead.step] at ht
    split at ht
    · next frame hpump =>
      obtain ⟨q, hq, rfl⟩ := Option.map_eq_some_iff.mp ht
      exact h.pumpPush hpos hpump hq
    · cases ht
  | pumpPushed =>
    simp only [AudioRead.step] at ht
    split at ht
    · next call hpump =>
      split at ht
      · obtain rfl := Option.some.inj ht
        exact h.pumpPushed hpump
      · cases ht
    · cases ht
  | read maxBytes aborted =>
    simp only [AudioRead.step] at ht
    split at ht
    · obtain rfl := Option.some.inj ht
      exact h
    · obtain rfl := Option.some.inj ht
      exact h.rechain _
  | enter aborted =>
    simp only [AudioRead.step] at ht
    split at ht
    · next maxBytes chain hreading hchain =>
      split at ht
      · obtain rfl := Option.some.inj ht
        exact h.rechain _
      split at ht
      · next frame hframe =>
        obtain rfl := Option.some.inj ht
        obtain ⟨hcurrent, -⟩ := Option.filter_eq_some_iff.mp hframe
        have hinbound := h.inbound
        rw [State.readCall, hreading] at hinbound
        refine (h.rechain chain).deliver hinbound ?_
        show s.line = _
        rw [State.line, State.readCall, hreading, State.remainder, hcurrent]
        rfl
      · next hframe =>
        obtain ⟨q, hq, rfl⟩ := Option.map_eq_some_iff.mp ht
        refine h.shift hpos hreading ?_ hq
        rw [State.remainder]
        cases hcurrent : s.current with
        | none => rfl
        | some frame =>
          rw [hcurrent, Option.filter_eq_none_iff] at hframe
          have hend : s.currentOffset = frame.length := by simpa using hframe frame rfl
          show frame.drop s.currentOffset = []
          rw [hend, List.drop_length]
    · cases ht
  | take =>
    simp only [AudioRead.step] at ht
    split at ht
    · next r hreading =>
      obtain ⟨o, ho, rfl⟩ := Option.map_eq_some_iff.mp ht
      exact h.take hreading ho
    · cases ht
  | refused =>
    simp only [AudioRead.step] at ht
    split at ht
    · next r hreading =>
      split at ht
      · next hended =>
        have hclosed := (h.inbound.inv.accounts.drained (List.ne_nil_of_mem hended)).1
        rw [h.inbound.isOpen] at hclosed
        cases hclosed
      · cases ht
    · cases ht
  | abortRead =>
    simp only [AudioRead.step] at ht
    split at ht
    · next r hreading =>
      obtain ⟨q, hq, rfl⟩ := Option.map_eq_some_iff.mp ht
      exact h.abortRead hpos hreading hq
    · cases ht
  | clear =>
    obtain rfl := Option.some.inj ht
    exact h.clear

theorem inv_reachable {capacityBytes : Nat} (h : (machine frameBytes capacityBytes).Reachable s) :
    s.Inv frameBytes (inboundCapacity capacityBytes frameBytes) := by
  have hpos : 0 < inboundCapacity capacityBytes frameBytes := Nat.lt_of_lt_of_le Nat.one_pos (Nat.le_max_left _ _)
  refine Machine.Reachable.invariant (I := State.Inv frameBytes (inboundCapacity capacityBytes frameBytes)) ?_ ?_ h
  · intro s hs
    obtain rfl : s = new := hs
    exact inv_new
  · intro s a t hs ht
    exact hs.step hpos ht

/-- Every byte that the channel receives is returned by a call of `read`, removed by a call of `clear`, which counts
it, or buffered. -/
theorem inbound_conserved (frameBytes capacityBytes : Nat) (s : State)
    (h : (machine frameBytes capacityBytes).Reachable s) : s.Conserved :=
  (inv_reachable h).conserved

/-- Three frames of 16 bytes; the first is read in part, and then all is cleared. -/
def clearRun : List Action :=
  [.write (List.replicate 16 1) false, .write (List.replicate 16 2) false, .write (List.replicate 16 3) false,
    .pumpShift, .pumpTake, .pumpPush, .pumpPushed, .read 10 false, .enter false, .take,
    .pumpShift, .pumpTake, .pumpPush, .clear]

theorem clearRun_conserved :
    ∃ s, (machine 16 32).exec new clearRun = some s ∧ s.clears.map Cleared.value = [38] ∧ s.Conserved := by
  have hexec : (machine 16 32).exec new clearRun = some _ := rfl
  exact ⟨_, hexec, by decide, inbound_conserved 16 32 _ (.of_exec rfl hexec)⟩

end Rtvbp.TypeScript.AudioRead
