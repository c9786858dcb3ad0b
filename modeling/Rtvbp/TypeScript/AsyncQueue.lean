import Mathlib.Tactic

/-!
# Asynchronous queues

`AsyncQueue` of `sdk/typescript/src/async.ts`: a bounded queue whose readers and writers wait. The waiting
readers are only counted and the waiting writers are represented by their values; an operation reports
whether it resolves the promise of a waiting reader or writer. The fields state what the operations
maintain: the items never exceed the capacity, writers wait only at a full queue and readers only at an
empty one.
-/

namespace Rtvbp.TypeScript

/-- A queue with its waiting readers and writers. -/
structure AsyncQueue (α : Type) where
  capacity : Nat
  items : List α
  readers : Nat
  writers : List α
  closed : Bool
  capacity_pos : 0 < capacity
  bounded : items.length ≤ capacity
  writers_full : writers ≠ [] → items.length = capacity
  readers_empty : readers ≠ 0 → items = []

namespace AsyncQueue

variable {α : Type}

/-- The constructor, for a positive capacity. -/
def new (capacity : Nat) (h : 0 < capacity) : AsyncQueue α where
  capacity := capacity
  items := []
  readers := 0
  writers := []
  closed := false
  capacity_pos := h
  bounded := by simp
  writers_full := by simp
  readers_empty := by simp

/-- What an accepted `push` does with its value. -/
inductive Pushed where
  /-- The value goes to a waiting reader. -/
  | handed
  /-- The value is stored. -/
  | stored
  /-- The writer waits. -/
  | waiting

variable (q : AsyncQueue α)

/-- One reader is taken out. -/
def resolveReader : AsyncQueue α :=
  { q with
    readers := q.readers - 1
    readers_empty := fun h => q.readers_empty (by omega) }

/-- A value is stored in a queue with room and without waiting readers. -/
def store (v : α) (hroom : q.items.length < q.capacity) (hreaders : q.readers = 0) : AsyncQueue α :=
  { q with
    items := q.items ++ [v]
    bounded := by simpa using hroom
    writers_full := fun h => absurd (q.writers_full h) (by omega)
    readers_empty := fun h => absurd hreaders h }

/-- A writer joins the waiting writers of a full queue. -/
def wait (v : α) (hfull : q.items.length = q.capacity) : AsyncQueue α :=
  { q with
    writers := q.writers ++ [v]
    writers_full := fun _ => hfull }

/-- `push`: `none` if the queue is closed. -/
def push (v : α) : Option (AsyncQueue α × Pushed) :=
  if q.closed then none
  else if hreaders : q.readers = 0 then
    if hroom : q.items.length < q.capacity then some (q.store v hroom hreaders, .stored)
    else some (q.wait v (le_antisymm q.bounded (by omega)), .waiting)
  else some (q.resolveReader, .handed)

/-- `tryPush`: like `push`, but a full queue refuses the value. -/
def tryPush (v : α) : Option (AsyncQueue α × Pushed) :=
  match q.push v with
  | some (_, .waiting) => none
  | result => result

/-- What `shift` returns: a value, and whether a waiting writer is admitted in its place; or the reader
waits. -/
inductive Shifted (α : Type) where
  | value (v : α) (admitsWriter : Bool)
  | waiting

theorem readers_eq_zero (h : q.items ≠ []) : q.readers = 0 :=
  not_not.mp fun hr => h (q.readers_empty hr)

/-- The first item is taken, and the first waiting writer is admitted in its place. -/
def takeItem (h : q.items ≠ []) : AsyncQueue α :=
  { q with
    items := q.items.tail ++ q.writers.take 1
    writers := q.writers.tail
    bounded := by
      have hb := q.bounded
      have hpos := List.length_pos_iff.mpr h
      have htake : (q.writers.take 1).length ≤ 1 := by simp
      rw [List.length_append, List.length_tail]
      omega
    writers_full := fun hw => by
      have hne : q.writers ≠ [] := fun hnil => hw (by simp [hnil])
      have hfull := q.writers_full hne
      have hpos := List.length_pos_iff.mpr h
      have htake : (q.writers.take 1).length = 1 := by
        simpa using Nat.one_le_iff_ne_zero.mpr (by simpa using hne)
      rw [List.length_append, List.length_tail, htake]
      omega
    readers_empty := fun hr => absurd (q.readers_eq_zero h) hr }

/-- A reader joins the waiting readers of an empty queue. -/
def addReader (h : q.items = []) : AsyncQueue α :=
  { q with
    readers := q.readers + 1
    readers_empty := fun _ => h }

/-- `shift`: `none` if the queue is closed and drained. Writers never wait at an empty queue, so an
empty queue has none to take a value from. -/
def shift : Option (AsyncQueue α × Shifted α) :=
  if h : q.items = [] then
    if q.closed then none else some (q.addReader h, .waiting)
  else some (q.takeItem h, .value (q.items.head h) !q.writers.isEmpty)

/-- `close`: the waiting writers are rejected, and the waiting readers of an empty queue too. -/
def close : AsyncQueue α :=
  if q.closed then q
  else
    { q with
      closed := true
      writers := []
      readers := if q.items = [] then 0 else q.readers
      writers_full := fun h => absurd rfl h
      readers_empty := fun h => by
        by_contra hne
        rw [if_neg hne] at h
        exact hne (q.readers_empty h) }

/-! ## What the operations do -/

variable {q}

/-- A push to an open queue hands the value to a waiting reader, stores it, or makes the writer wait. -/
theorem push_cases (hopen : q.closed = false) (v : α) :
    (q.readers = 0 ∧ ∃ q', q.push v = some (q', .stored) ∧ q'.items = q.items ++ [v] ∧
      q'.writers = q.writers ∧ q'.readers = 0 ∧ q'.capacity = q.capacity ∧ q'.closed = false) ∨
    (q.readers = 0 ∧ ∃ q', q.push v = some (q', .waiting) ∧ q'.items = q.items ∧
      q'.writers = q.writers ++ [v] ∧ q'.readers = 0 ∧ q'.capacity = q.capacity ∧
      q'.closed = false) ∨
    (q.readers ≠ 0 ∧ ∃ q', q.push v = some (q', .handed) ∧ q'.items = q.items ∧
      q'.writers = q.writers ∧ q'.readers = q.readers - 1 ∧ q'.capacity = q.capacity ∧
      q'.closed = false) := by
  unfold push
  rw [if_neg (by simp [hopen])]
  split_ifs with hreaders hroom
  · exact Or.inl ⟨hreaders, _, rfl, rfl, rfl, hreaders, rfl, hopen⟩
  · exact Or.inr (Or.inl ⟨hreaders, _, rfl, rfl, rfl, hreaders, rfl, hopen⟩)
  · exact Or.inr (Or.inr ⟨hreaders, _, rfl, rfl, rfl, rfl, rfl, hopen⟩)

/-- A shift of an open queue makes the reader wait, or takes the first item and admits a writer. -/
theorem shift_cases (hopen : q.closed = false) :
    (q.items = [] ∧ ∃ q', q.shift = some (q', .waiting) ∧ q'.items = [] ∧ q'.writers = q.writers ∧
      q'.readers = q.readers + 1 ∧ q'.capacity = q.capacity ∧ q'.closed = false) ∨
    (∃ q' v, q.shift = some (q', .value v !q.writers.isEmpty) ∧
      q'.items = q.items.tail ++ q.writers.take 1 ∧ q'.writers = q.writers.tail ∧ q'.readers = 0 ∧
      q'.capacity = q.capacity ∧ q'.closed = false) := by
  unfold shift
  split_ifs with hitems hclosed
  · simp [hopen] at hclosed
  · exact Or.inl ⟨hitems, _, rfl, hitems, rfl, rfl, rfl, hopen⟩
  · exact Or.inr ⟨_, _, rfl, rfl, rfl, q.readers_eq_zero hitems, rfl, hopen⟩

/-- An admitted value leaves the queue open. -/
theorem closed_of_tryPush {q' : AsyncQueue α} {v : α} {pushed : Pushed}
    (h : q.tryPush v = some (q', pushed)) : q'.closed = false := by
  unfold tryPush push at h
  grind [store, resolveReader]

/-- A shift does not open or close the queue, and it is refused only by a closed queue. -/
theorem closed_of_shift {q' : AsyncQueue α} {shifted : Shifted α}
    (h : q.shift = some (q', shifted)) : q'.closed = q.closed := by
  unfold shift at h
  grind [addReader, takeItem]

theorem closed_of_shift_eq_none (h : q.shift = none) : q.closed = true := by
  unfold shift at h
  grind

end AsyncQueue

end Rtvbp.TypeScript
