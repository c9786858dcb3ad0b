import Mathlib.Data.BitVec
import Mathlib.Data.Nat.ModEq
import Mathlib.Data.List.Basic
import Rtvbp.Lib.Machine

/-!
# Heartbeats

A monitor that sends a ping at intervals, waits for the pong with the payload of the ping, and gives up after
a number of pings in a row that no such pong came for in time. The pongs wait in a buffer; the ones that are there
before a ping are thrown away, and so are the others that do not answer it.

What the monitor is for is said of its actions alone: every ping has a window, which holds the pongs that are read
between the ping and its deadline.
-/

namespace Rtvbp.Lib

/-! ## Windows -/

/-- A ping, the pongs that were read after it and before its deadline, and whether the deadline has passed. -/
structure Window (π : Type*) where
  payload : π
  pongs : List π
  expired : Bool

variable {π ρ : Type*} [DecidableEq π]

/-- The pong of the ping was read. -/
def Window.answered (w : Window π) : Bool := decide (w.payload ∈ w.pongs)

/-- The deadline passed without the pong of the ping. -/
def Window.missed (w : Window π) : Bool := w.expired && !w.answered

/-- Nothing is open about the ping. -/
def Window.settled (w : Window π) : Bool := w.expired || w.answered

theorem Window.settled_of_missed {w : Window π} (h : w.missed = true) : w.settled = true := by
  unfold Window.missed at h
  unfold Window.settled
  rw [Bool.and_eq_true] at h
  rw [h.1, Bool.true_or]

/-- How many of the last pings were missed in a row; the last window is the first one of the list. -/
def missedInARow (ws : List (Window π)) : ℕ := (ws.takeWhile Window.missed).length

/-- The last pings, `n` of them, were all missed. -/
def LastMissed (n : ℕ) (ws : List (Window π)) : Prop := n ≤ ws.length ∧ ∀ w ∈ ws.take n, w.missed = true

theorem missedInARow_cons (w : Window π) (ws : List (Window π)) :
    missedInARow (w :: ws) = if w.missed then missedInARow ws + 1 else 0 := by
  unfold missedInARow
  cases h : w.missed with
  | true => rw [List.takeWhile_cons_of_pos h, List.length_cons, if_pos rfl]
  | false => rw [List.takeWhile_cons_of_neg (by simp [h])]; rfl

theorem lastMissed_iff {n : ℕ} {ws : List (Window π)} : LastMissed n ws ↔ n ≤ missedInARow ws := by
  unfold LastMissed
  induction ws generalizing n with
  | nil => simp [missedInARow]
  | cons w ws ih =>
    rw [missedInARow_cons]
    cases n with
    | zero => simp
    | succ n =>
      rw [List.take_succ_cons, List.forall_mem_cons, List.length_cons, Nat.succ_le_succ_iff]
      cases h : w.missed with
      | true =>
        rw [if_pos rfl, Nat.succ_le_succ_iff, ← ih]
        simp
      | false => simp

theorem filter_settled_pending {payload : π} {pongs : List π} (h : payload ∉ pongs) (ws : List (Window π)) :
    (⟨payload, pongs, false⟩ :: ws).filter Window.settled = ws.filter Window.settled := by
  have hopen : ¬ (⟨payload, pongs, false⟩ : Window π).settled = true := by
    simp [Window.settled, Window.answered, h]
  exact List.filter_cons_of_neg hopen

/-- A ping that is not settled hides the misses before it. -/
theorem missedInARow_le_settled (ws : List (Window π)) :
    missedInARow ws ≤ missedInARow (ws.filter Window.settled) := by
  induction ws with
  | nil => exact le_refl _
  | cons w ws ih =>
    rw [missedInARow_cons]
    cases h : w.missed with
    | true =>
      rw [if_pos rfl, List.filter_cons_of_pos (Window.settled_of_missed h), missedInARow_cons, if_pos h]
      exact Nat.succ_le_succ ih
    | false => exact Nat.zero_le _

/-! ## The monitor -/

/-- Where a monitor can be left for a reason. -/
inductive Stage where
  | entering
  | idle
  | writing
  | waiting

/-- A payload made of a tag and a number. -/
def numberedPayload (tag : String) (serial : BitVec 64) : List UInt8 :=
  (tag ++ Nat.repr serial.toNat).toByteArray.data.toList

theorem numberedPayload_injective (tag : String) : Function.Injective (numberedPayload tag) := by
  intro m n h
  have htext := String.toByteArray_inj.mp (ByteArray.ext (Array.toList_inj.mp h))
  have hdigits : Nat.repr m.toNat = Nat.repr n.toNat := by simpa using htext
  have hvalue := congrArg (fun text : String => Nat.ofDigitChars 10 text.toList 0) hdigits
  simp only [Nat.toList_repr, Nat.ofDigitChars_ten_toDigits] at hvalue
  exact BitVec.eq_of_toNat_eq hvalue

/-- Where the monitor is. -/
inductive Phase (π ρ : Type*) where
  /-- Before the first interval. -/
  | entering
  /-- Waiting for the interval to end. -/
  | idle
  /-- Throwing away the pongs that are in the buffer. -/
  | draining
  /-- Waiting for the ping to be written. -/
  | writing (payload : π)
  /-- Waiting for the pong. -/
  | waiting (payload : π)
  | timedOut
  | left (reason : ρ)
  deriving DecidableEq

/-- The stage of a phase that waits for more than one thing. -/
def Phase.stage : Phase π ρ → Option Stage
  | entering => some .entering
  | idle => some .idle
  | writing _ => some .writing
  | waiting _ => some .waiting
  | draining | timedOut | left _ => none

/-- A monitor. -/
structure Heartbeat (π ρ : Type*) where
  /-- The payload of a ping by its number. -/
  payload : BitVec 64 → π
  /-- How many pongs the buffer holds, if it is bounded; it drops what does not fit. -/
  capacity : Option ℕ
  maxMisses : ℤ
  /-- The reason for which it does not start, if there is one. -/
  refused : Option ρ
  /-- The reasons for which it is left, besides too many misses. -/
  leaves : Stage → ρ → Bool

namespace Heartbeat

structure State (π ρ : Type*) where
  phase : Phase π ρ
  serial : BitVec 64
  misses : ℕ
  pongs : List π
  deriving DecidableEq

inductive Action (π ρ : Type*) where
  /-- The connection delivers a pong. -/
  | deliver (pong : π)
  | enter
  /-- The interval ends. -/
  | interval
  /-- A pong of the buffer is thrown away. -/
  | drain (pong : π)
  /-- The buffer is empty, and the ping goes out. -/
  | ping (payload : π)
  | written
  /-- A pong of the buffer is compared with the ping. -/
  | read (pong : π)
  /-- The deadline of the ping. -/
  | expire
  | leave (reason : ρ)

variable (M : Heartbeat π ρ)

/-- The buffer after a pong. -/
def buffer (pongs : List π) (pong : π) : List π :=
  if M.capacity.all fun n => pongs.length < n then pongs ++ [pong] else pongs

/-- The state after a deadline without the pong. -/
def miss (s : State π ρ) : State π ρ :=
  { s with misses := s.misses + 1, phase := if M.maxMisses ≤ (s.misses + 1 : ℕ) then .timedOut else .idle }

def step (s : State π ρ) : Action π ρ → Option (State π ρ)
  | .deliver pong => some { s with pongs := M.buffer s.pongs pong }
  | .enter =>
    match s.phase with
    | .entering => some { s with phase := .idle }
    | _ => none
  | .interval =>
    match s.phase with
    | .idle => some { s with phase := .draining }
    | _ => none
  | .drain pong =>
    match s.phase, s.pongs with
    | .draining, first :: rest => if first = pong then some { s with pongs := rest } else none
    | _, _ => none
  | .ping payload =>
    match s.phase, s.pongs with
    | .draining, [] =>
      if M.payload (s.serial + 1) = payload then
        some { s with serial := s.serial + 1, phase := .writing payload }
      else none
    | _, _ => none
  | .written =>
    match s.phase with
    | .writing payload => some { s with phase := .waiting payload }
    | _ => none
  | .read pong =>
    match s.phase, s.pongs with
    | .waiting payload, first :: rest =>
      if first = pong then
        if pong = payload then some { s with pongs := rest, misses := 0, phase := .idle }
        else some { s with pongs := rest }
      else none
    | _, _ => none
  | .expire =>
    match s.phase with
    | .waiting _ => some (M.miss s)
    | _ => none
  | .leave reason =>
    if s.phase.stage.any fun stage => M.leaves stage reason then some { s with phase := .left reason } else none

/-- The monitor starts with any pongs of earlier pings in the buffer, and goes on with their numbers. -/
def machine : Machine (State π ρ) (Action π ρ) where
  Start s := s.phase = M.refused.elim .entering .left ∧ s.misses = 0
  step := M.step

/-! ## Histories -/

/-- The windows after one more action. -/
def record (ws : List (Window π)) : Action π ρ → List (Window π)
  | .ping payload => ⟨payload, [], false⟩ :: ws
  | .read pong =>
    match ws with
    | [] => []
    | w :: ws => (if w.expired then w else { w with pongs := w.pongs ++ [pong] }) :: ws
  | .expire =>
    match ws with
    | [] => []
    | w :: ws => { w with expired := true } :: ws
  | _ => ws

/-- The windows of the pings of a run, the last one first. -/
def windows (ls : List (Action π ρ)) : List (Window π) := ls.foldl record []

omit [DecidableEq π] in
theorem windows_concat (ls : List (Action π ρ)) (l : Action π ρ) : windows (ls ++ [l]) = record (windows ls) l :=
  List.foldl_concat ..

omit [DecidableEq π] in
theorem record_read (payload pong : π) (pongs : List π) (ws : List (Window π)) :
    record (⟨payload, pongs, false⟩ :: ws) (.read pong : Action π ρ) = ⟨payload, pongs ++ [pong], false⟩ :: ws := rfl

omit [DecidableEq π] in
theorem record_expire (w : Window π) (ws : List (Window π)) :
    record (w :: ws) (.expire : Action π ρ) = { w with expired := true } :: ws := rfl

/-- What the phase says about the windows and the misses so far. -/
def Stands (ws : List (Window π)) (s : State π ρ) : Prop :=
  match s.phase with
  | .entering => M.refused = none ∧ ws = [] ∧ s.misses = 0
  | .idle | .draining =>
    M.refused = none ∧ (s.misses : ℤ) < M.maxMisses ∧ ∀ w ∈ ws, w.settled = true
  | .writing payload =>
    M.refused = none ∧ (s.misses : ℤ) < M.maxMisses ∧ ∃ earlier, ws = ⟨payload, [], false⟩ :: earlier
  | .waiting payload =>
    M.refused = none ∧ (s.misses : ℤ) < M.maxMisses ∧
      ∃ pongs earlier, ws = ⟨payload, pongs, false⟩ :: earlier ∧ payload ∉ pongs
  | .timedOut => M.refused = none ∧ M.maxMisses ≤ missedInARow ws
  | .left _ => M.refused = none → (s.misses : ℤ) < M.maxMisses

/-- What the windows of a run say about the state. -/
structure Counts (ws : List (Window π)) (s : State π ρ) : Prop where
  misses : s.misses = missedInARow (ws.filter Window.settled)
  earlier : ∀ w ∈ ws.tail, w.settled = true
  stands : M.Stands ws s

/-- The numbers of the pings: the last one has the serial of the state. -/
def Numbered (ws : List (Window π)) (s : State π ρ) : Prop :=
  ∀ i w, ws[i]? = some w → w.payload = M.payload (s.serial - BitVec.ofNat 64 i)

variable {M} {s t : State π ρ} {ws : List (Window π)}

/-- What a step can do. -/
theorem step_cases {l : Action π ρ} (h : M.step s l = some t) :
    (∃ pong, l = .deliver pong ∧ t = { s with pongs := M.buffer s.pongs pong }) ∨
    (l = .enter ∧ s.phase = .entering ∧ t = { s with phase := .idle }) ∨
    (l = .interval ∧ s.phase = .idle ∧ t = { s with phase := .draining }) ∨
    (∃ pong rest, l = .drain pong ∧ s.phase = .draining ∧ t = { s with pongs := rest }) ∨
    (l = .ping (M.payload (s.serial + 1)) ∧ s.phase = .draining ∧
      t = { s with serial := s.serial + 1, phase := .writing (M.payload (s.serial + 1)) }) ∨
    (∃ payload, l = .written ∧ s.phase = .writing payload ∧ t = { s with phase := .waiting payload }) ∨
    (∃ payload rest, l = .read payload ∧ s.phase = .waiting payload ∧
      t = { s with pongs := rest, misses := 0, phase := .idle }) ∨
    (∃ payload pong rest, l = .read pong ∧ s.phase = .waiting payload ∧ pong ≠ payload ∧
      t = { s with pongs := rest }) ∨
    (∃ payload, l = .expire ∧ s.phase = .waiting payload ∧ t = M.miss s) ∨
    (∃ reason, l = .leave reason ∧ (∃ stage, s.phase.stage = some stage) ∧ t = { s with phase := .left reason }) := by
  cases l with
  | deliver pong => exact .inl ⟨pong, rfl, (Option.some.inj h).symm⟩
  | enter =>
    simp only [step] at h
    split at h
    next hphase => exact .inr (.inl ⟨rfl, hphase, (Option.some.inj h).symm⟩)
    · cases h
  | interval =>
    simp only [step] at h
    split at h
    next hphase => exact .inr (.inr (.inl ⟨rfl, hphase, (Option.some.inj h).symm⟩))
    · cases h
  | drain pong =>
    simp only [step] at h
    split at h
    next first rest hphase _ =>
      split_ifs at h
      exact .inr (.inr (.inr (.inl ⟨pong, rest, rfl, hphase, (Option.some.inj h).symm⟩)))
    · cases h
  | ping payload =>
    simp only [step] at h
    split at h
    next hphase _ =>
      split_ifs at h with hpayload
      subst hpayload
      exact .inr (.inr (.inr (.inr (.inl ⟨rfl, hphase, (Option.some.inj h).symm⟩))))
    · cases h
  | written =>
    simp only [step] at h
    split at h
    next payload hphase =>
      exact .inr (.inr (.inr (.inr (.inr (.inl ⟨payload, rfl, hphase, (Option.some.inj h).symm⟩)))))
    · cases h
  | read pong =>
    simp only [step] at h
    split at h
    next payload first rest hphase _ =>
      split_ifs at h with _ hmatch
      · subst hmatch
        exact .inr (.inr (.inr (.inr (.inr (.inr (.inl ⟨pong, rest, rfl, hphase, (Option.some.inj h).symm⟩))))))
      · exact .inr (.inr (.inr (.inr (.inr (.inr (.inr (.inl
          ⟨payload, pong, rest, rfl, hphase, hmatch, (Option.some.inj h).symm⟩)))))))
    · cases h
  | expire =>
    simp only [step] at h
    split at h
    next payload hphase =>
      exact .inr (.inr (.inr (.inr (.inr (.inr (.inr (.inr (.inl
        ⟨payload, rfl, hphase, (Option.some.inj h).symm⟩))))))))
    · cases h
  | leave reason =>
    simp only [step] at h
    split_ifs at h with hleaves
    refine .inr (.inr (.inr (.inr (.inr (.inr (.inr (.inr (.inr ⟨reason, rfl, ?_, (Option.some.inj h).symm⟩))))))))
    cases hstage : s.phase.stage with
    | none =>
      rw [hstage] at hleaves
      exact absurd hleaves (by simp)
    | some stage => exact ⟨stage, rfl⟩

/-- Every step keeps the count. -/
theorem Counts.step {l : Action π ρ} (hpos : M.refused = none → 0 < M.maxMisses) (h : M.Counts ws s)
    (hl : M.step s l = some t) : M.Counts (record ws l) t := by
  obtain ⟨hmisses, hearlier, hstands⟩ := h
  rcases step_cases hl with ⟨pong, rfl, rfl⟩ | ⟨rfl, hphase, rfl⟩ | ⟨rfl, hphase, rfl⟩ |
    ⟨pong, rest, rfl, hphase, rfl⟩ | ⟨rfl, hphase, rfl⟩ | ⟨payload, rfl, hphase, rfl⟩ |
    ⟨payload, rest, rfl, hphase, rfl⟩ | ⟨payload, pong, rest, rfl, hphase, hne, rfl⟩ |
    ⟨payload, rfl, hphase, rfl⟩ | ⟨reason, rfl, ⟨stage, hstage⟩, rfl⟩
  · exact ⟨hmisses, hearlier, hstands⟩
  · simp only [Stands, hphase] at hstands
    obtain ⟨hstart, hws, hzero⟩ := hstands
    have hlow : ((s.misses : ℕ) : ℤ) < M.maxMisses := by
      rw [hzero]
      exact hpos hstart
    refine ⟨hmisses, hearlier, hstart, hlow, ?_⟩
    intro w hw
    rw [show record ws .enter = [] from hws] at hw
    cases hw
  · simp only [Stands, hphase] at hstands
    exact ⟨hmisses, hearlier, hstands⟩
  · simp only [Stands, hphase] at hstands
    refine ⟨hmisses, hearlier, ?_⟩
    simp only [Stands, hphase]
    exact hstands
  · simp only [Stands, hphase] at hstands
    obtain ⟨hstart, hlow, hsettled⟩ := hstands
    refine ⟨?_, hsettled, hstart, hlow, ws, rfl⟩
    -- the new window is not settled
    exact hmisses
  · simp only [Stands, hphase] at hstands
    obtain ⟨hstart, hlow, earlier, hws⟩ := hstands
    exact ⟨hmisses, hearlier, hstart, hlow, [], earlier, hws, List.not_mem_nil⟩
  · simp only [Stands, hphase] at hstands
    obtain ⟨hstart, hlow, pongs, earlier, rfl, -⟩ := hstands
    have hmem : payload ∈ pongs ++ [payload] := by simp
    have hanswered : (⟨payload, pongs ++ [payload], false⟩ : Window π).answered = true := decide_eq_true hmem
    have hsettled : (⟨payload, pongs ++ [payload], false⟩ : Window π).settled = true := hanswered
    rw [record_read]
    refine ⟨?_, hearlier, hstart, hpos hstart, List.forall_mem_cons.mpr ⟨hsettled, hearlier⟩⟩
    rw [List.filter_cons_of_pos hsettled, missedInARow_cons]
    rfl
  · simp only [Stands, hphase] at hstands
    obtain ⟨hstart, hlow, pongs, earlier, rfl, hpending⟩ := hstands
    have hmem : payload ∉ pongs ++ [pong] := by
      simp [hpending, Ne.symm hne]
    rw [filter_settled_pending hpending] at hmisses
    rw [record_read]
    refine ⟨?_, hearlier, ?_⟩
    · rw [filter_settled_pending hmem]
      exact hmisses
    · simp only [Stands, hphase]
      exact ⟨hstart, hlow, pongs ++ [pong], earlier, rfl, hmem⟩
  · simp only [Stands, hphase] at hstands
    obtain ⟨hstart, hlow, pongs, earlier, rfl, hpending⟩ := hstands
    have hmissed : (⟨payload, pongs, true⟩ : Window π).missed = true := by
      simp [Window.missed, Window.answered, hpending]
    have hall : ∀ w ∈ earlier, w.settled = true := hearlier
    rw [filter_settled_pending hpending, List.filter_eq_self.mpr hall] at hmisses
    have hcount : s.misses + 1 = missedInARow (⟨payload, pongs, true⟩ :: earlier) := by
      rw [missedInARow_cons, if_pos hmissed, hmisses]
    have hsettled : ∀ w ∈ (⟨payload, pongs, true⟩ : Window π) :: earlier, w.settled = true :=
      List.forall_mem_cons.mpr ⟨Window.settled_of_missed hmissed, hall⟩
    rw [record_expire]
    refine ⟨?_, hall, ?_⟩
    · rw [List.filter_eq_self.mpr hsettled]
      exact hcount
    · unfold miss Stands
      by_cases hmax : M.maxMisses ≤ ((s.misses + 1 : ℕ) : ℤ)
      · rw [if_pos hmax]
        refine ⟨hstart, ?_⟩
        rw [hcount] at hmax
        exact hmax
      · rw [if_neg hmax]
        exact ⟨hstart, not_le.mp hmax, hsettled⟩
  · refine ⟨hmisses, hearlier, fun hstart => ?_⟩
    show (s.misses : ℤ) < M.maxMisses
    cases hphase : s.phase with
    | entering =>
      simp only [Stands, hphase] at hstands
      rw [hstands.2.2]
      exact hpos hstart
    | idle | writing _ | waiting _ =>
      simp only [Stands, hphase] at hstands
      exact hstands.2.1
    | draining | timedOut | left _ =>
      rw [hphase] at hstage
      cases hstage

/-- Every step keeps the numbers. -/
theorem Numbered.step {l : Action π ρ} (h : M.Numbered ws s) (hl : M.step s l = some t) :
    M.Numbered (record ws l) t := by
  have hread : ∀ pong, M.Numbered (record ws (.read pong : Action π ρ)) s := by
    intro pong i w hw
    cases ws with
    | nil => cases hw
    | cons first rest =>
      cases i with
      | zero =>
        obtain rfl := Option.some.inj hw
        rw [← h 0 first rfl]
        split <;> rfl
      | succ i => exact h (i + 1) w hw
  have hexpire : M.Numbered (record ws (.expire : Action π ρ)) s := by
    intro i w hw
    cases ws with
    | nil => cases hw
    | cons first rest =>
      cases i with
      | zero =>
        obtain rfl := Option.some.inj hw
        exact h 0 first rfl
      | succ i => exact h (i + 1) w hw
  rcases step_cases hl with ⟨pong, rfl, rfl⟩ | ⟨rfl, -, rfl⟩ | ⟨rfl, -, rfl⟩ |
    ⟨pong, rest, rfl, -, rfl⟩ | ⟨rfl, -, rfl⟩ | ⟨payload, rfl, -, rfl⟩ |
    ⟨payload, rest, rfl, -, rfl⟩ | ⟨payload, pong, rest, rfl, -, -, rfl⟩ |
    ⟨payload, rfl, -, rfl⟩ | ⟨reason, rfl, -, rfl⟩
  · exact h
  · exact h
  · exact h
  · exact h
  · intro i w hw
    cases i with
    | zero =>
      obtain rfl := Option.some.inj hw
      show M.payload (s.serial + 1) = M.payload (s.serial + 1 - BitVec.ofNat 64 0)
      rw [BitVec.ofNat_eq_ofNat, BitVec.sub_zero]
    | succ i =>
      have hbefore := h i w hw
      rw [hbefore]
      show _ = M.payload (s.serial + 1 - BitVec.ofNat 64 (i + 1))
      congr 1
      rw [BitVec.ofNat_add]
      bv_omega
  · exact h
  · exact hread payload
  · exact hread pong
  · exact hexpire
  · exact h

/-! ## Exactness -/

/-- What a monitor is for, as a statement about one run: the verdict, the payloads of the pings, and the count
after an answer. -/
structure Exact (M : Heartbeat π ρ) (ls : List (Action π ρ)) (t : State π ρ) : Prop where
  /-- It times out when the last pings were all missed, and only then. -/
  verdict : t.phase = .timedOut ↔ M.refused = none ∧ LastMissed M.maxMisses.toNat (windows ls)
  /-- Two pings have one payload if their numbers are one number only. -/
  payloads : ∀ i j w v, (windows ls)[i]? = some w → (windows ls)[j]? = some v →
    (w.payload = v.payload ↔ i ≡ j [MOD 2 ^ 64])
  /-- After a ping that was answered there is no miss. -/
  reset : ∀ w earlier, windows ls = w :: earlier → w.payload ∈ w.pongs → t.misses = 0

theorem Counts.low (hpos : M.refused = none → 0 < M.maxMisses) (h : M.Counts ws s) (hstart : M.refused = none)
    (hphase : s.phase ≠ .timedOut) : (s.misses : ℤ) < M.maxMisses := by
  have hstands := h.stands
  cases heq : s.phase with
  | entering =>
    simp only [Stands, heq] at hstands
    rw [hstands.2.2]
    exact hpos hstart
  | idle | draining | writing _ | waiting _ =>
    simp only [Stands, heq] at hstands
    exact hstands.2.1
  | timedOut => exact absurd heq hphase
  | left _ =>
    simp only [Stands, heq] at hstands
    exact hstands hstart

theorem Counts.timedOut_iff (hpos : M.refused = none → 0 < M.maxMisses) (h : M.Counts ws s) :
    s.phase = .timedOut ↔ M.refused = none ∧ LastMissed M.maxMisses.toNat ws := by
  rw [lastMissed_iff]
  constructor
  · intro hphase
    have hstands := h.stands
    simp only [Stands, hphase] at hstands
    obtain ⟨hstart, hmissed⟩ := hstands
    exact ⟨hstart, by omega⟩
  · rintro ⟨hstart, hmissed⟩
    by_contra hphase
    have hlow := h.low hpos hstart hphase
    have hcount := h.misses
    have hle := missedInARow_le_settled ws
    omega

theorem Counts.reset {w : Window π} (h : M.Counts (w :: ws) s) (hw : w.answered = true) : s.misses = 0 := by
  have hsettled : w.settled = true := by
    unfold Window.settled
    rw [hw, Bool.or_true]
  have hmissed : ¬ w.missed = true := by
    unfold Window.missed
    simp [hw]
  rw [h.misses, List.filter_cons_of_pos hsettled, missedInARow_cons, if_neg hmissed]

omit [DecidableEq π] in
theorem Numbered.payload_eq_iff (hinj : Function.Injective M.payload) (h : M.Numbered ws s) {i j : ℕ}
    {w v : Window π} (hw : ws[i]? = some w) (hv : ws[j]? = some v) :
    w.payload = v.payload ↔ i ≡ j [MOD 2 ^ 64] := by
  rw [h i w hw, h j v hv, hinj.eq_iff]
  unfold Nat.ModEq
  constructor
  · intro heq
    have hoffset : BitVec.ofNat 64 i = BitVec.ofNat 64 j := by
      bv_omega
    have hmod := congrArg BitVec.toNat hoffset
    rwa [BitVec.toNat_ofNat, BitVec.toNat_ofNat] at hmod
  · intro hmod
    have hoffset : BitVec.ofNat 64 i = BitVec.ofNat 64 j := by
      apply BitVec.eq_of_toNat_eq
      rwa [BitVec.toNat_ofNat, BitVec.toNat_ofNat]
    rw [hoffset]

/-- Every run of a monitor is exact. -/
theorem exact_of_exec (hpos : M.refused = none → 0 < M.maxMisses) (hinj : Function.Injective M.payload)
    {ls : List (Action π ρ)} (hs : M.machine.Start s) (h : M.machine.exec s ls = some t) : M.Exact ls t := by
  have hstart : M.Counts (windows ([] : List (Action π ρ))) s ∧ M.Numbered (windows ([] : List (Action π ρ))) s := by
    obtain ⟨hphase, hzero⟩ := hs
    refine ⟨⟨hzero, fun w hw => absurd hw List.not_mem_nil, ?_⟩, fun i w hw => by cases hw⟩
    cases hrefused : M.refused with
    | none =>
      rw [hrefused] at hphase
      simp only [Stands, show s.phase = .entering from hphase]
      exact ⟨hrefused, rfl, hzero⟩
    | some reason =>
      rw [hrefused] at hphase
      simp only [Stands, show s.phase = .left reason from hphase]
      intro hnone
      rw [hnone] at hrefused
      cases hrefused
  have hrun : M.Counts (windows ls) t ∧ M.Numbered (windows ls) t := by
    refine Machine.exec_history (P := fun done u => M.Counts (windows done) u ∧ M.Numbered (windows done) u)
      hstart ?_ h
    intro done u l v hu hl
    rw [windows_concat]
    exact ⟨hu.1.step hpos hl, hu.2.step hl⟩
  refine ⟨hrun.1.timedOut_iff hpos, fun i j w v hw hv => hrun.2.payload_eq_iff hinj hw hv, ?_⟩
  intro w earlier hwindows hanswered
  have hcounts := hrun.1
  rw [hwindows] at hcounts
  exact hcounts.reset (decide_eq_true hanswered)

end Heartbeat

end Rtvbp.Lib
