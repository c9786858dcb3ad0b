import Mathlib.Data.List.Basic
import Mathlib.Logic.Function.Basic
import Rtvbp.Lib.Machine

/-!
# Queues with a ready token

A queue under a mutex with any number of producers and one consumer. The consumer that finds it empty waits for a
token in a channel of one slot, and a producer puts the token there if the slot is free: a push while it holds the
mutex, a close after it. One token stands for any number of pushes, and the item it was put there for may be gone.
-/

namespace Rtvbp.Lib

/-- How the queues of this kind differ. -/
structure ReadyQueue (κ ε : Type*) where
  /-- A close throws the items away, and the consumer asks for the end first. -/
  discards : Bool
  /-- There is a push that also closes. -/
  closesWith : Bool
  /-- A push asks whether its context is canceled while it holds the mutex. -/
  pushAsks : Bool
  /-- The consumer asks whether its context is canceled before it takes the mutex. -/
  popAsks : Bool
  /-- What the consumer is told at the end. -/
  result : κ → ε

namespace ReadyQueue

variable {ι α κ ε : Type*}

/-- What a producer asks for. -/
inductive Op (α κ : Type*) where
  | push (item : α)
  | closeWith (item : α) (reason : κ)
  | close (reason : κ)

/-- Where a producer is. -/
inductive Pc (α κ : Type*) where
  | idle
  | called (op : Op α κ)
  /-- With the mutex, before the token. -/
  | admitted
  /-- With the mutex, after the token. -/
  | signalled
  /-- With the mutex, after a refusal. -/
  | refused
  /-- With the mutex, after a close. -/
  | marked
  /-- Without the mutex, before the token of a close. -/
  | closing

/-- The producer is about to put the token. -/
def Pc.signals : Pc α κ → Bool
  | admitted | marked | closing => true
  | _ => false

/-- The producer was accepted and has not returned. -/
def Pc.accepted : Pc α κ → Bool
  | admitted | signalled => true
  | _ => false

/-- Where the consumer is. -/
inductive ConsumerPc (α κ : Type*) where
  | idle
  /-- In the loop, before the mutex. -/
  | looping
  /-- With the mutex, and an item. -/
  | holding (item : α)
  /-- With the mutex, and the end. -/
  | ending (reason : κ)
  /-- With the mutex, and nothing. -/
  | empty
  /-- In the select. -/
  | parked

structure State (ι α κ : Type*) where
  items : List α
  closed : Option κ
  token : Bool
  locked : Bool
  threads : ι → Pc α κ
  consumer : ConsumerPc α κ

namespace State

/-- The item that the consumer has taken and not returned. -/
def inHand (s : State ι α κ) : List α :=
  match s.consumer with
  | .holding item => [item]
  | _ => []

theorem inHand_of_holding {s : State ι α κ} {item : α} (h : s.consumer = .holding item) : s.inHand = [item] := by
  unfold inHand
  rw [h]

theorem inHand_of_not_holding {s : State ι α κ} (h : ∀ item, s.consumer ≠ .holding item) : s.inHand = [] := by
  unfold inHand
  split
  next item hitem => exact absurd hitem (h item)
  · rfl

/-- A consumer at another place has nothing in its hand. -/
theorem inHand_of_consumer {s : State ι α κ} {pc : ConsumerPc α κ} (hpc : s.consumer = pc)
    (hne : ∀ item, pc ≠ .holding item) : s.inHand = [] :=
  inHand_of_not_holding fun item hitem => hne item (hpc.symm.trans hitem)

def set [DecidableEq ι] (s : State ι α κ) (i : ι) (pc : Pc α κ) : State ι α κ :=
  { s with threads := Function.update s.threads i pc }

theorem set_self [DecidableEq ι] (s : State ι α κ) (i : ι) (pc : Pc α κ) : (s.set i pc).threads i = pc :=
  Function.update_self ..

theorem set_of_ne [DecidableEq ι] (s : State ι α κ) {i j : ι} (h : j ≠ i) (pc : Pc α κ) :
    (s.set i pc).threads j = s.threads j :=
  Function.update_of_ne h ..

end State

inductive Action (ι α κ ε : Type*) where
  | call (i : ι) (op : Op α κ)
  /-- The mutex is taken and the item appended. -/
  | accept (i : ι) (item : α)
  /-- The mutex is taken, and the item is not appended. -/
  | refuse (i : ι)
  /-- The mutex is taken and the queue closed. -/
  | mark (i : ι)
  /-- The token is put into its slot, if that is free. -/
  | signal (i : ι)
  /-- A close lets go of the mutex. -/
  | unlock (i : ι)
  /-- A push lets go of the mutex and returns. -/
  | returned (i : ι) (accepted : Bool)
  | pop
  /-- The consumer takes the mutex and looks at the queue. -/
  | look
  /-- It lets go of the mutex, and returns the item, or the end, or waits. -/
  | popped (item : α)
  | ended (result : ε)
  | park
  | wake
  /-- The context of the consumer is canceled. -/
  | canceled

/-- The items that were accepted in a run, in their order. -/
def accepted (ls : List (Action ι α κ ε)) : List α :=
  ls.filterMap fun
    | .accept _ item => some item
    | _ => none

/-- The items that the consumer returned in a run, in their order. -/
def popped (ls : List (Action ι α κ ε)) : List α :=
  ls.filterMap fun
    | .popped item => some item
    | _ => none

variable [DecidableEq ι] [DecidableEq α] [DecidableEq ε] (Q : ReadyQueue κ ε)

/-- What the consumer sees with the mutex. -/
def seen (s : State ι α κ) : State ι α κ :=
  match s.closed, s.items with
  | some reason, [] => { s with consumer := .ending reason }
  | none, [] => { s with consumer := .empty }
  | none, item :: rest => { s with items := rest, consumer := .holding item }
  | some reason, item :: rest =>
    if Q.discards then { s with consumer := .ending reason }
    else { s with items := rest, consumer := .holding item }

/-- The queue after a close. -/
def close (s : State ι α κ) (reason : κ) : State ι α κ :=
  { s with
    closed := some (s.closed.getD reason)
    items := if Q.discards then [] else s.items }

def step (s : State ι α κ) : Action ι α κ ε → Option (State ι α κ)
  | .call i op =>
    match s.threads i, op with
    | .idle, .closeWith _ _ => if Q.closesWith then some (s.set i (.called op)) else none
    | .idle, _ => some (s.set i (.called op))
    | _, _ => none
  | .accept i item =>
    if s.locked ∨ s.closed.isSome then none else
    match s.threads i with
    | .called (.push x) =>
      if x = item then some { s.set i .admitted with locked := true, items := s.items ++ [item] } else none
    | .called (.closeWith x reason) =>
      if x = item then
        some { s.set i .admitted with locked := true, items := s.items ++ [item], closed := some reason }
      else none
    | _ => none
  | .refuse i =>
    if s.locked then none else
    match s.threads i with
    | .called (.push _) => if s.closed.isSome ∨ Q.pushAsks then some { s.set i .refused with locked := true } else none
    | .called (.closeWith _ _) => if s.closed.isSome then some { s.set i .refused with locked := true } else none
    | _ => none
  | .mark i =>
    if s.locked then none else
    match s.threads i with
    | .called (.close reason) => some { (Q.close s reason).set i .marked with locked := true }
    | _ => none
  | .signal i =>
    match s.threads i with
    | .admitted => some { s.set i .signalled with token := true }
    | .closing => some { s.set i .idle with token := true }
    | _ => none
  | .unlock i =>
    match s.threads i with
    | .marked => some { s.set i .closing with locked := false }
    | _ => none
  | .returned i accepted =>
    match s.threads i, accepted with
    | .signalled, true => some { s.set i .idle with locked := false }
    | .refused, false => some { s.set i .idle with locked := false }
    | _, _ => none
  | .pop =>
    match s.consumer with
    | .idle => some { s with consumer := .looping }
    | _ => none
  | .look =>
    match s.consumer with
    | .looping => if s.locked then none else some { Q.seen s with locked := true }
    | _ => none
  | .popped item =>
    match s.consumer with
    | .holding x => if x = item then some { s with consumer := .idle, locked := false } else none
    | _ => none
  | .ended result =>
    match s.consumer with
    | .ending reason => if Q.result reason = result then some { s with consumer := .idle, locked := false } else none
    | _ => none
  | .park =>
    match s.consumer with
    | .empty => some { s with consumer := .parked, locked := false }
    | _ => none
  | .wake =>
    match s.consumer with
    | .parked => if s.token then some { s with consumer := .looping, token := false } else none
    | _ => none
  | .canceled =>
    match s.consumer with
    | .looping => if Q.popAsks then some { s with consumer := .idle } else none
    | .parked => some { s with consumer := .idle }
    | _ => none

/-- A new queue. -/
def initial : State ι α κ := ⟨[], none, false, false, fun _ => .idle, .idle⟩

def machine : Machine (State ι α κ) (Action ι α κ ε) where
  Start s := s = initial
  step := Q.step

/-! ## What a step can do -/

/-- The steps, with what each of them needs. -/
inductive Steps (s : State ι α κ) : Action ι α κ ε → State ι α κ → Prop where
  | call {i : ι} {op : Op α κ} (pc : s.threads i = .idle) : Steps s (.call i op) (s.set i (.called op))
  | push {i : ι} {item : α} (pc : s.threads i = .called (.push item)) (isOpen : s.closed = none) :
      Steps s (.accept i item) { s.set i .admitted with locked := true, items := s.items ++ [item] }
  | closeWith {i : ι} {item : α} {reason : κ} (pc : s.threads i = .called (.closeWith item reason))
      (isOpen : s.closed = none) :
      Steps s (.accept i item)
        { s.set i .admitted with locked := true, items := s.items ++ [item], closed := some reason }
  | refuse {i : ι} {op : Op α κ} (pc : s.threads i = .called op) :
      Steps s (.refuse i) { s.set i .refused with locked := true }
  | mark {i : ι} {reason : κ} (pc : s.threads i = .called (.close reason)) :
      Steps s (.mark i) { (Q.close s reason).set i .marked with locked := true }
  | signal {i : ι} (pc : s.threads i = .admitted) : Steps s (.signal i) { s.set i .signalled with token := true }
  | signalClose {i : ι} (pc : s.threads i = .closing) : Steps s (.signal i) { s.set i .idle with token := true }
  | unlock {i : ι} (pc : s.threads i = .marked) : Steps s (.unlock i) { s.set i .closing with locked := false }
  | returned {i : ι} (pc : s.threads i = .signalled) :
      Steps s (.returned i true) { s.set i .idle with locked := false }
  | returnedRefused {i : ι} (pc : s.threads i = .refused) :
      Steps s (.returned i false) { s.set i .idle with locked := false }
  | pop (pc : s.consumer = .idle) : Steps s .pop { s with consumer := .looping }
  | seeItem {item : α} {rest : List α} (pc : s.consumer = .looping) (items : s.items = item :: rest)
      (allowed : s.closed = none ∨ Q.discards = false) :
      Steps s .look { s with items := rest, consumer := .holding item, locked := true }
  | seeEnd {reason : κ} (pc : s.consumer = .looping) (closed : s.closed = some reason)
      (items : s.items = [] ∨ Q.discards = true) :
      Steps s .look { s with consumer := .ending reason, locked := true }
  | seeNothing (pc : s.consumer = .looping) (isOpen : s.closed = none) (items : s.items = []) :
      Steps s .look { s with consumer := .empty, locked := true }
  | popped {item : α} (pc : s.consumer = .holding item) :
      Steps s (.popped item) { s with consumer := .idle, locked := false }
  | ended {reason : κ} (pc : s.consumer = .ending reason) :
      Steps s (.ended (Q.result reason)) { s with consumer := .idle, locked := false }
  | park (pc : s.consumer = .empty) : Steps s .park { s with consumer := .parked, locked := false }
  | wake (pc : s.consumer = .parked) : Steps s .wake { s with consumer := .looping, token := false }
  | canceled (pc : s.consumer = .looping ∨ s.consumer = .parked) : Steps s .canceled { s with consumer := .idle }

variable {Q} {s t : State ι α κ} {l : Action ι α κ ε}

theorem steps_of_step (h : Q.step s l = some t) : Q.Steps s l t := by
  cases l with
  | call i op =>
    have ht : s.threads i = .idle ∧ t = s.set i (.called op) := by
      simp only [step] at h
      split at h
      next hpc =>
        split_ifs at h
        exact ⟨hpc, (Option.some.inj h).symm⟩
      next hpc _ => exact ⟨hpc, (Option.some.inj h).symm⟩
      · cases h
    obtain ⟨hpc, rfl⟩ := ht
    exact .call hpc
  | accept i item =>
    simp only [step, Option.ite_none_left_eq_some, not_or, Option.not_isSome_iff_eq_none] at h
    obtain ⟨⟨-, hopen⟩, h⟩ := h
    split at h
    next x hpc =>
      split_ifs at h with hx
      obtain rfl := hx
      obtain rfl := Option.some.inj h
      exact .push hpc hopen
    next x reason hpc =>
      split_ifs at h with hx
      obtain rfl := hx
      obtain rfl := Option.some.inj h
      exact .closeWith hpc hopen
    · cases h
  | refuse i =>
    simp only [step, Option.ite_none_left_eq_some] at h
    replace h := h.2
    split at h
    next hpc =>
      split_ifs at h
      obtain rfl := Option.some.inj h
      exact .refuse hpc
    next hpc =>
      split_ifs at h
      obtain rfl := Option.some.inj h
      exact .refuse hpc
    · cases h
  | mark i =>
    simp only [step, Option.ite_none_left_eq_some] at h
    replace h := h.2
    split at h
    next hpc =>
      obtain rfl := Option.some.inj h
      exact .mark hpc
    · cases h
  | signal i =>
    simp only [step] at h
    split at h
    next hpc =>
      obtain rfl := Option.some.inj h
      exact .signal hpc
    next hpc =>
      obtain rfl := Option.some.inj h
      exact .signalClose hpc
    · cases h
  | unlock i =>
    simp only [step] at h
    split at h
    next hpc =>
      obtain rfl := Option.some.inj h
      exact .unlock hpc
    · cases h
  | returned i accepted =>
    simp only [step] at h
    split at h
    next hpc =>
      obtain rfl := Option.some.inj h
      exact .returned hpc
    next hpc =>
      obtain rfl := Option.some.inj h
      exact .returnedRefused hpc
    · cases h
  | pop =>
    simp only [step] at h
    split at h
    next hpc =>
      obtain rfl := Option.some.inj h
      exact .pop hpc
    · cases h
  | look =>
    simp only [step] at h
    split at h
    next hpc =>
      split_ifs at h
      obtain rfl := Option.some.inj h
      unfold seen
      split
      next hclosed hitems => exact .seeEnd hpc hclosed (.inl hitems)
      next hclosed hitems => exact .seeNothing hpc hclosed hitems
      next hopen hitems => exact .seeItem hpc hitems (.inl hopen)
      next hclosed hitems =>
        split_ifs with hdiscards
        · exact .seeEnd hpc hclosed (.inr hdiscards)
        · exact .seeItem hpc hitems (.inr (Bool.eq_false_iff.mpr hdiscards))
    · cases h
  | popped item =>
    simp only [step] at h
    split at h
    next x hpc =>
      split_ifs at h with hx
      obtain rfl := hx
      obtain rfl := Option.some.inj h
      exact .popped hpc
    · cases h
  | ended result =>
    simp only [step] at h
    split at h
    next reason hpc =>
      split_ifs at h with hresult
      obtain rfl := hresult
      obtain rfl := Option.some.inj h
      exact .ended hpc
    · cases h
  | park =>
    simp only [step] at h
    split at h
    next hpc =>
      obtain rfl := Option.some.inj h
      exact .park hpc
    · cases h
  | wake =>
    simp only [step] at h
    split at h
    next hpc =>
      split_ifs at h
      obtain rfl := Option.some.inj h
      exact .wake hpc
    · cases h
  | canceled =>
    simp only [step] at h
    split at h
    next hpc =>
      split_ifs at h
      obtain rfl := Option.some.inj h
      exact .canceled (.inl hpc)
    next hpc =>
      obtain rfl := Option.some.inj h
      exact .canceled (.inr hpc)
    · cases h

/-! ## The order of the items -/

omit [DecidableEq ι] [DecidableEq α] [DecidableEq ε] in
theorem accepted_concat (ls : List (Action ι α κ ε)) (l : Action ι α κ ε) :
    accepted (ls ++ [l]) = accepted ls ++ accepted [l] := List.filterMap_append

omit [DecidableEq ι] [DecidableEq α] [DecidableEq ε] in
theorem popped_concat (ls : List (Action ι α κ ε)) (l : Action ι α κ ε) :
    popped (ls ++ [l]) = popped ls ++ popped [l] := List.filterMap_append

/-- What was accepted is what was returned, what is in the hand of the consumer and what is in the queue, in this
order, unless a close threw the rest away. -/
def InOrder (Q : ReadyQueue κ ε) (ls : List (Action ι α κ ε)) (s : State ι α κ) : Prop :=
  accepted ls = popped ls ++ s.inHand ++ s.items ∨
    Q.discards = true ∧ s.closed.isSome ∧ s.items = [] ∧ popped ls ++ s.inHand <+: accepted ls

omit [DecidableEq ι] [DecidableEq α] [DecidableEq ε] in
theorem InOrder.begins {ls : List (Action ι α κ ε)} (h : Q.InOrder ls s) : popped ls ++ s.inHand <+: accepted ls := by
  rcases h with h | ⟨-, -, -, h⟩
  · rw [h]
    exact List.prefix_append _ _
  · exact h

omit [DecidableEq α] [DecidableEq ε] in
theorem InOrder.step {ls : List (Action ι α κ ε)} (h : Q.InOrder ls s) (hl : Q.Steps s l t) :
    Q.InOrder (ls ++ [l]) t := by
  unfold InOrder
  rw [accepted_concat, popped_concat]
  -- a step that moves no item
  have hsame : accepted [l] = [] → popped [l] = [] → t.inHand = s.inHand → t.items = s.items →
      t.closed = s.closed → accepted ls ++ accepted [l] = popped ls ++ popped [l] ++ t.inHand ++ t.items ∨
      Q.discards = true ∧ t.closed.isSome ∧ t.items = [] ∧
        popped ls ++ popped [l] ++ t.inHand <+: accepted ls ++ accepted [l] := by
    intro haccepted hpopped hhand hitems hclosed
    rw [haccepted, hpopped, hhand, hitems, hclosed, List.append_nil, List.append_nil]
    exact h
  -- an item that is accepted by an open queue
  have haccept : ∀ item, accepted [l] = [item] → popped [l] = [] → t.inHand = s.inHand →
      t.items = s.items ++ [item] → s.closed = none →
      accepted ls ++ accepted [l] = popped ls ++ popped [l] ++ t.inHand ++ t.items := by
    intro item haccepted hpopped hhand hitems hopen
    rcases h with h | ⟨-, hclosed, -⟩
    · rw [haccepted, hpopped, hhand, hitems, List.append_nil, h]
      simp
    · rw [hopen] at hclosed
      cases hclosed
  cases hl with
  | call pc | refuse pc | signal pc | signalClose pc | unlock pc | returned pc | returnedRefused pc =>
    exact hsame rfl rfl rfl rfl rfl
  | push pc isOpen => exact .inl (haccept _ rfl rfl rfl rfl isOpen)
  | closeWith pc isOpen => exact .inl (haccept _ rfl rfl rfl rfl isOpen)
  | mark pc =>
    by_cases hdiscards : Q.discards = true
    · refine .inr ⟨hdiscards, rfl, if_pos hdiscards, ?_⟩
      show popped ls ++ [] ++ s.inHand <+: accepted ls ++ []
      rw [List.append_nil, List.append_nil]
      exact h.begins
    · left
      show accepted ls ++ [] = popped ls ++ [] ++ s.inHand ++ (if Q.discards then [] else s.items)
      rw [if_neg hdiscards, List.append_nil, List.append_nil]
      rcases h with h | ⟨htrue, -⟩
      · exact h
      · exact absurd htrue hdiscards
  | pop pc => exact hsame rfl rfl (State.inHand_of_consumer pc (by simp)).symm rfl rfl
  | seeItem pc items allowed =>
    left
    rcases h with h | ⟨-, -, hnil, -⟩
    · rw [State.inHand_of_consumer pc (by simp), items, List.append_nil] at h
      show accepted ls ++ [] = popped ls ++ [] ++ [_] ++ _
      rw [h]
      simp
    · rw [items] at hnil
      cases hnil
  | seeEnd pc closed items => exact hsame rfl rfl (State.inHand_of_consumer pc (by simp)).symm rfl rfl
  | seeNothing pc isOpen items => exact hsame rfl rfl (State.inHand_of_consumer pc (by simp)).symm rfl rfl
  | @popped item pc =>
    unfold InOrder at h
    rw [State.inHand_of_holding pc] at h
    show accepted ls ++ [] = popped ls ++ [item] ++ [] ++ s.items ∨
      Q.discards = true ∧ s.closed.isSome ∧ s.items = [] ∧ popped ls ++ [item] ++ [] <+: accepted ls ++ []
    rw [List.append_nil, List.append_nil]
    exact h
  | ended pc => exact hsame rfl rfl (State.inHand_of_consumer pc (by simp)).symm rfl rfl
  | park pc => exact hsame rfl rfl (State.inHand_of_consumer pc (by simp)).symm rfl rfl
  | wake pc => exact hsame rfl rfl (State.inHand_of_consumer pc (by simp)).symm rfl rfl
  | canceled pc =>
    refine hsame rfl rfl ?_ rfl rfl
    rcases pc with pc | pc
    · exact (State.inHand_of_consumer pc (by simp)).symm
    · exact (State.inHand_of_consumer pc (by simp)).symm

/-! ## Closed queues -/

omit [DecidableEq α] [DecidableEq ε] in
/-- A closed queue stays closed, with its first reason, and accepts nothing. -/
theorem closed_step {reason : κ} (hl : Q.Steps s l t) (hclosed : s.closed = some reason) :
    t.closed = some reason ∧ accepted [l] = [] := by
  cases hl with
  | push pc isOpen | closeWith pc isOpen =>
    rw [hclosed] at isOpen
    cases isOpen
  | mark pc =>
    refine ⟨?_, rfl⟩
    show some (s.closed.getD _) = _
    rw [hclosed]
    rfl
  | _ => exact ⟨hclosed, rfl⟩

omit [DecidableEq α] [DecidableEq ε] in
/-- A closed queue lets no producer become an accepted one. -/
theorem refused_step {reason : κ} {i : ι} (hl : Q.Steps s l t) (hclosed : s.closed = some reason)
    (h : (s.threads i).accepted = false) : (t.threads i).accepted = false ∧ l ≠ .returned i true := by
  have hset : ∀ (j : ι) (pc : Pc α κ), (j = i → pc.accepted = false) → ((s.set j pc).threads i).accepted = false := by
    intro j pc hpc
    by_cases hij : i = j
    · subst hij
      rw [State.set_self]
      exact hpc rfl
    · rw [State.set_of_ne s hij]
      exact h
  cases hl with
  | push pc isOpen | closeWith pc isOpen =>
    rw [hclosed] at isOpen
    cases isOpen
  | call pc | refuse pc | mark pc | signalClose pc | unlock pc | returnedRefused pc =>
    exact ⟨hset _ _ fun _ => rfl, by simp⟩
  | signal pc =>
    refine ⟨hset _ _ ?_, by simp⟩
    rintro rfl
    rw [pc] at h
    cases h
  | @returned j pc =>
    refine ⟨hset _ _ fun _ => rfl, ?_⟩
    intro heq
    obtain rfl : j = i := by simpa using heq
    rw [pc] at h
    cases h
  | _ => exact ⟨h, by simp⟩

omit [DecidableEq α] [DecidableEq ε] in
/-- The consumer of a closed queue that discards takes no item. -/
theorem discards_step {reason : κ} (hl : Q.Steps s l t) (hclosed : s.closed = some reason)
    (hdiscards : Q.discards = true) : popped [l] ++ t.inHand = s.inHand := by
  cases hl with
  | call pc | push pc isOpen | closeWith pc isOpen | refuse pc | mark pc | signal pc | signalClose pc | unlock pc
  | returned pc | returnedRefused pc => rfl
  | seeItem pc items allowed =>
    rcases allowed with hopen | hkeeps
    · rw [hclosed] at hopen
      cases hopen
    · rw [hdiscards] at hkeeps
      cases hkeeps
  | popped pc => exact (State.inHand_of_holding pc).symm
  | pop pc | seeEnd pc closed items | seeNothing pc isOpen items | ended pc | park pc | wake pc =>
    exact (State.inHand_of_consumer pc (by simp)).symm
  | canceled pc =>
    rcases pc with pc | pc
    · exact (State.inHand_of_consumer pc (by simp)).symm
    · exact (State.inHand_of_consumer pc (by simp)).symm

/-- The consumer that is about to report the end of a queue that does not discard has emptied it. -/
def AtEnd (Q : ReadyQueue κ ε) (s : State ι α κ) : Prop :=
  ∀ reason, s.consumer = .ending reason → s.closed = some reason ∧ (Q.discards = false → s.items = [])

omit [DecidableEq α] [DecidableEq ε] in
theorem AtEnd.step (h : Q.AtEnd s) (hl : Q.Steps s l t) : Q.AtEnd t := by
  intro reason hreason
  cases hl with
  | call pc | refuse pc | signal pc | signalClose pc | unlock pc | returned pc | returnedRefused pc =>
    exact h reason hreason
  | push pc isOpen | closeWith pc isOpen =>
    obtain ⟨hclosed, -⟩ := h reason hreason
    rw [hclosed] at isOpen
    cases isOpen
  | mark pc =>
    obtain ⟨hclosed, hitems⟩ := h reason hreason
    refine ⟨?_, fun hkeeps => ?_⟩
    · show some (s.closed.getD _) = _
      rw [hclosed]
      rfl
    · show (if Q.discards then [] else s.items) = []
      rw [if_neg (Bool.eq_false_iff.mp hkeeps)]
      exact hitems hkeeps
  | seeEnd pc closed items =>
    obtain rfl : _ = reason := ConsumerPc.ending.inj hreason
    refine ⟨closed, fun hkeeps => ?_⟩
    rcases items with hitems | hdiscards
    · exact hitems
    · rw [hkeeps] at hdiscards
      cases hdiscards
  | _ => cases hreason

/-! ## No wake-up is lost -/

/-- If there is something to see for a consumer that waits, or is about to, then the token is there or somebody is
about to put it. -/
def Awake (s : State ι α κ) : Prop :=
  s.consumer = .empty ∨ s.consumer = .parked → s.items ≠ [] ∨ s.closed.isSome →
    s.token = true ∨ ∃ i, (s.threads i).signals = true

omit [DecidableEq α] [DecidableEq ε] in
theorem Awake.step (h : Awake s) (hl : Q.Steps s l t) : Awake t := by
  intro hwaits hsees
  -- a producer that was not about to put the token goes on
  have hothers : ∀ (i : ι) (pc : Pc α κ), (s.threads i).signals = false →
      (s.token = true ∨ ∃ j, (s.threads j).signals = true) →
      s.token = true ∨ ∃ j, ((s.set i pc).threads j).signals = true := by
    rintro i pc hi (htoken | ⟨j, hj⟩)
    · exact .inl htoken
    · have hne : j ≠ i := by
        rintro rfl
        rw [hi] at hj
        cases hj
      exact .inr ⟨j, by rwa [State.set_of_ne s hne]⟩
  have hself : ∀ (i : ι) (pc : Pc α κ), pc.signals = true →
      s.token = true ∨ ∃ j, ((s.set i pc).threads j).signals = true := by
    intro i pc hpc
    refine .inr ⟨i, ?_⟩
    rw [State.set_self]
    exact hpc
  cases hl with
  | call pc | refuse pc | returned pc | returnedRefused pc =>
    exact hothers _ _ (by rw [pc]; rfl) (h hwaits hsees)
  | @push i _ pc isOpen | @closeWith i _ _ pc isOpen => exact hself i .admitted rfl
  | @mark i _ pc => exact hself i .marked rfl
  | @unlock i pc => exact hself i .closing rfl
  | signal pc | signalClose pc => exact .inl rfl
  | seeNothing pc isOpen items =>
    have hnothing : s.items ≠ [] ∨ s.closed.isSome := hsees
    rw [items, isOpen] at hnothing
    simp at hnothing
  | park pc => exact h (.inl pc) hsees
  | _ => simp at hwaits

/-! ## Runs -/

/-- What is true of every queue of this kind after a run. -/
structure Ordered (Q : ReadyQueue κ ε) (ls : List (Action ι α κ ε)) (t : State ι α κ) : Prop where
  /-- Items are returned in the order in which they were accepted, none of them twice. -/
  order : popped ls ++ t.inHand <+: accepted ls
  /-- None is lost while the queue is open. -/
  kept : t.closed = none → accepted ls = popped ls ++ t.inHand ++ t.items
  /-- After the queue is closed no item is accepted, and a push that is called then fails. -/
  refused : ∀ before after u, ls = before ++ after → Q.machine.exec initial before = some u → u.closed.isSome →
    accepted after = [] ∧ ∀ i, u.threads i = .idle → .returned i true ∉ after
  /-- A consumer that waits while there is an item or the end has its token, or it comes. -/
  awake : t.consumer = .parked → t.items ≠ [] ∨ t.closed.isSome →
    t.token = true ∨ ∃ i, (t.threads i).signals = true

/-- The end is reported after every item that was accepted. -/
def Drains (ls : List (Action ι α κ ε)) (t : State ι α κ) : Prop :=
  accepted ls = popped ls ++ t.inHand ++ t.items ∧
    ∀ before after result, ls = before ++ .ended result :: after → popped before = accepted ls

/-- Nothing is returned after a close but what the consumer had in its hand. -/
def Discards (Q : ReadyQueue κ ε) (ls : List (Action ι α κ ε)) (t : State ι α κ) : Prop :=
  ∀ before after u, ls = before ++ after → Q.machine.exec initial before = some u → u.closed.isSome →
    popped after ++ t.inHand = u.inHand

/-- What holds on the way. -/
structure Fits (Q : ReadyQueue κ ε) (ls : List (Action ι α κ ε)) (s : State ι α κ) : Prop where
  order : Q.InOrder ls s
  atEnd : Q.AtEnd s
  awake : Awake s

theorem fits_of_exec {ls : List (Action ι α κ ε)} (h : Q.machine.exec initial ls = some t) : Q.Fits ls t := by
  refine Machine.exec_history (P := Q.Fits) ?_ ?_ h
  · refine ⟨.inl rfl, ?_, ?_⟩
    · intro reason hreason
      cases hreason
    · rintro (hwaits | hwaits) <;> cases hwaits
  · intro done u l v hu hl
    have hstep := steps_of_step hl
    exact ⟨hu.order.step hstep, hu.atEnd.step hstep, hu.awake.step hstep⟩

theorem closed_run {ls : List (Action ι α κ ε)} (h : Q.machine.exec s ls = some t) (hclosed : s.closed.isSome) :
    t.closed.isSome ∧ accepted ls = [] ∧
      (∀ i, (s.threads i).accepted = false → Action.returned i true ∉ ls) ∧
      (Q.discards = true → popped ls ++ t.inHand = s.inHand) := by
  induction ls generalizing s with
  | nil =>
    obtain rfl : s = t := by simpa using h
    exact ⟨hclosed, rfl, fun i _ => List.not_mem_nil, fun _ => rfl⟩
  | cons l ls ih =>
    obtain ⟨u, hu, hut⟩ := Option.bind_eq_some_iff.mp h
    have hstep := steps_of_step hu
    obtain ⟨reason, hreason⟩ := Option.isSome_iff_exists.mp hclosed
    obtain ⟨hclosedU, hacceptedL⟩ := closed_step hstep hreason
    obtain ⟨hclosedT, haccepted, hreturned, hpopped⟩ := ih hut (Option.isSome_iff_exists.mpr ⟨reason, hclosedU⟩)
    refine ⟨hclosedT, ?_, fun i hi => ?_, fun hdiscards => ?_⟩
    · have hsplit : accepted (l :: ls) = accepted [l] ++ accepted ls := List.filterMap_append (l := [l])
      rw [hsplit, hacceptedL, haccepted]
      rfl
    · obtain ⟨hnext, hne⟩ := refused_step hstep hreason hi
      exact List.not_mem_cons_of_ne_of_not_mem (Ne.symm hne) (hreturned i hnext)
    · have hsplit : popped (l :: ls) = popped [l] ++ popped ls := List.filterMap_append (l := [l])
      rw [hsplit, List.append_assoc, hpopped hdiscards]
      exact discards_step hstep hreason hdiscards

theorem exec_split {before after : List (Action ι α κ ε)} {u : State ι α κ}
    (h : Q.machine.exec initial (before ++ after) = some t) (hu : Q.machine.exec initial before = some u) :
    Q.machine.exec u after = some t := by
  rw [Machine.exec_append, hu] at h
  exact h

/-- Every run of a queue is in order. -/
theorem ordered_of_exec {ls : List (Action ι α κ ε)} (h : Q.machine.exec initial ls = some t) : Q.Ordered ls t := by
  have hfits := fits_of_exec h
  refine ⟨hfits.order.begins, fun hopen => ?_, ?_, fun hparked => hfits.awake (.inr hparked)⟩
  · rcases hfits.order with horder | ⟨-, hclosed, -⟩
    · exact horder
    · rw [hopen] at hclosed
      cases hclosed
  · rintro before after u rfl hu hclosed
    obtain ⟨-, haccepted, hreturned, -⟩ := closed_run (exec_split h hu) hclosed
    exact ⟨haccepted, fun i hi => hreturned i (by rw [hi]; rfl)⟩

theorem drains_of_exec (hkeeps : Q.discards = false) {ls : List (Action ι α κ ε)}
    (h : Q.machine.exec initial ls = some t) : Drains ls t := by
  have horder : ∀ {done : List (Action ι α κ ε)} {u : State ι α κ}, Q.machine.exec initial done = some u →
      accepted done = popped done ++ u.inHand ++ u.items := by
    intro done u hu
    rcases (fits_of_exec hu).order with horder | ⟨hdiscards, -⟩
    · exact horder
    · rw [hkeeps] at hdiscards
      cases hdiscards
  refine ⟨horder h, ?_⟩
  rintro before after result rfl
  rw [Machine.exec_append] at h
  obtain ⟨u, hu, hrest⟩ := Option.bind_eq_some_iff.mp h
  obtain ⟨v, hv, -⟩ := Option.bind_eq_some_iff.mp hrest
  have hended : Q.Steps u (.ended result) v := steps_of_step hv
  cases hended with
  | ended pc =>
    obtain ⟨hclosed, hitems⟩ := (fits_of_exec hu).atEnd _ pc
    have hhand : u.inHand = [] := State.inHand_of_consumer pc (by simp)
    have hbefore := horder hu
    rw [hhand, hitems hkeeps, List.append_nil, List.append_nil] at hbefore
    obtain ⟨-, hafter, -⟩ := closed_run hrest (Option.isSome_iff_exists.mpr ⟨_, hclosed⟩)
    have hsplit : ∀ rest : List (Action ι α κ ε), accepted (before ++ rest) = accepted before ++ accepted rest :=
      fun rest => List.filterMap_append
    rw [hsplit, hafter, hbefore, List.append_nil]

theorem discards_of_exec (hdiscards : Q.discards = true) {ls : List (Action ι α κ ε)}
    (h : Q.machine.exec initial ls = some t) : Q.Discards ls t := by
  rintro before after u rfl hu hclosed
  exact (closed_run (exec_split h hu) hclosed).2.2.2 hdiscards

end ReadyQueue

end Rtvbp.Lib
