import Rtvbp.TypeScript.QueueMachine

/-!
# What becomes of the values of a queue

The history of a queue is kept by small moves of one value or one reader, of which the operations consist; a value
that is being moved is in the hand of the operation.
-/

namespace Rtvbp.TypeScript.QueueMachine

open Rtvbp.Lib

variable {α : Type} {s : State α} {o : Offer α} {hand : List (Offer α)}

/-! ## Multisets of lists -/

theorem coe_append_singleton {β : Type} (l : List β) (b : β) :
    ((l ++ [b] : List β) : Multiset β) = (l : Multiset β) + {b} := by
  rw [← Multiset.coe_add, Multiset.coe_singleton]

theorem coe_cons_eq {β : Type} (l : List β) (b : β) :
    ((b :: l : List β) : Multiset β) = {b} + (l : Multiset β) := by
  rw [← Multiset.cons_coe, Multiset.singleton_add]

/-! ## The accounts -/

/-- The values returned by the calls of `shift`. -/
def State.values (s : State α) : List (Offer α) := s.returned.map Prod.snd

/-- The accounts of a queue, with the values in the hand of the operation that is going on. -/
structure Accounts (s : State α) (hand : List (Offer α)) : Prop where
  fates : (s.offered : Multiset (Offer α)) =
    s.values + s.cleared + s.refused + s.items + s.writers + hand
  once : (s.offered.map Offer.call).Nodup
  made : ∀ o ∈ s.offered, o.call < s.calls
  accepted : (s.accepted : Multiset (Offer α)) = s.values + s.cleared + s.items
  fifo : s.kept = s.values ++ s.items
  order : (s.returned.map Prod.fst ++ s.readers).Pairwise (· < ·)
  shifts : ∀ call ∈ s.returned.map Prod.fst ++ s.readers, call < s.calls
  drained : s.ended ≠ [] → s.closed = true ∧ s.items = [] ∧ s.writers = [] ∧ s.readers = []

theorem accounts_new : Accounts (new : State α) [] := by
  constructor <;> simp [new, State.values, State.kept, without]

/-- The calls of all the values are distinct. -/
theorem Accounts.distinct (h : Accounts s hand) :
    ((s.values ++ s.cleared ++ s.refused ++ s.items ++ s.writers ++ hand).map Offer.call).Nodup := by
  have hperm : s.offered.Perm (s.values ++ s.cleared ++ s.refused ++ s.items ++ s.writers ++ hand) := by
    rw [← Multiset.coe_eq_coe, h.fates]
    simp only [Multiset.coe_add]
  exact (hperm.map Offer.call).nodup_iff.mp h.once

theorem Accounts.accepted_perm (h : Accounts s hand) : s.accepted.Perm (s.values ++ s.cleared ++ s.items) := by
  rw [← Multiset.coe_eq_coe, h.accepted]
  simp only [Multiset.coe_add]

/-- A value in the hand was not thrown away. -/
theorem Accounts.not_cleared (h : Accounts s (o :: hand)) : o.call ∉ s.cleared.map Offer.call := by
  have hdistinct := h.distinct
  simp only [List.map_append, List.map_cons, List.nodup_append] at hdistinct
  intro hmem
  exact hdistinct.2.2 o.call (by simp [hmem]) o.call (by simp) rfl

/-! ## Values that are kept -/

theorem without_append {l l' cleared : List (Offer α)} :
    without (l ++ l') cleared = without l cleared ++ without l' cleared := List.filter_append l l'

theorem without_eq_self {l cleared : List (Offer α)} (h : ∀ o ∈ l, o.call ∉ cleared.map Offer.call) :
    without l cleared = l := by
  refine List.filter_eq_self.mpr fun o ho => ?_
  simpa using h o ho

theorem without_self {l : List (Offer α)} : without l l = [] := by
  refine List.filter_eq_nil_iff.mpr fun o ho => ?_
  simpa using ⟨o, ho, rfl⟩

theorem without_append_right {l cleared cleared' : List (Offer α)} :
    without l (cleared ++ cleared') = without (without l cleared) cleared' := by
  unfold without
  rw [List.filter_filter]
  refine List.filter_congr fun o _ => ?_
  rw [List.map_append, List.contains_append, Bool.not_or, Bool.and_comm]

/-- A value that is accepted now is the last of those that are kept. -/
theorem Accounts.without_append (h : Accounts s (o :: hand)) :
    without (s.accepted ++ [o]) s.cleared = s.kept ++ [o] := by
  rw [QueueMachine.without_append, without_eq_self (l := [o]) (by simpa using h.not_cleared)]
  rfl

/-! ## The moves -/

/-- A call offers a value, which it takes into its hand. -/
theorem Accounts.offer (h : Accounts s []) (v : α) : Accounts (s.offer v).1 [(s.offer v).2] where
  fates := by
    have hfates := h.fates
    simp only [State.offer, State.values, coe_append_singleton, Multiset.coe_singleton, Multiset.coe_nil,
      add_zero] at hfates ⊢
    rw [hfates]
  once := by
    have hnew : s.calls ∉ s.offered.map Offer.call := by
      intro hmem
      obtain ⟨o, ho, hcall⟩ := List.mem_map.mp hmem
      exact absurd (h.made o ho) (by omega)
    simpa [State.offer, List.nodup_append, h.once] using fun o ho heq => hnew (List.mem_map.mpr ⟨o, ho, heq⟩)
  made := by
    intro o ho
    simp only [State.offer, List.mem_append, List.mem_singleton] at ho ⊢
    rcases ho with ho | rfl
    · exact Nat.lt_succ_of_lt (h.made o ho)
    · exact Nat.lt_succ_self _
  accepted := h.accepted
  fifo := h.fifo
  order := h.order
  shifts := fun call hcall => Nat.lt_succ_of_lt (h.shifts call hcall)
  drained := h.drained

theorem Accounts.refuse (h : Accounts s [o]) : Accounts (s.refuse o) [] where
  fates := by
    have hfates := h.fates
    simp only [State.refuse, State.values, coe_append_singleton, Multiset.coe_singleton, Multiset.coe_nil,
      add_zero] at hfates ⊢
    rw [hfates]
    abel
  once := h.once
  made := h.made
  accepted := h.accepted
  fifo := h.fifo
  order := h.order
  shifts := h.shifts
  drained := h.drained

/-- The value in the hand is handed to the first waiting reader. -/
theorem Accounts.handOver (h : Accounts s [o]) {reader : Nat} {readers : List Nat}
    (hreaders : s.readers = reader :: readers) (hitems : s.items = []) :
    Accounts ({ s with readers := readers, accepted := s.accepted ++ [o] }.deliver reader o) [] where
  fates := by
    have hfates := h.fates
    simp only [State.deliver, State.values, List.map_append, List.map_cons, List.map_nil,
      coe_append_singleton, Multiset.coe_singleton, Multiset.coe_nil, add_zero] at hfates ⊢
    rw [hfates]
    abel
  once := h.once
  made := h.made
  accepted := by
    have haccepted := h.accepted
    simp only [State.deliver, State.values, List.map_append, List.map_cons, List.map_nil,
      coe_append_singleton] at haccepted ⊢
    rw [haccepted]
    abel
  fifo := by
    show without (s.accepted ++ [o]) s.cleared = (s.returned ++ [(reader, o)]).map Prod.snd ++ s.items
    rw [h.without_append, h.fifo, hitems]
    simp [State.values]
  order := by
    have horder := h.order
    rw [hreaders] at horder
    simpa [State.deliver] using horder
  shifts := by
    have hshifts := h.shifts
    rw [hreaders] at hshifts
    simpa [State.deliver] using hshifts
  drained := by
    intro hended
    have hdrained := (h.drained hended).2.2.2
    rw [hreaders] at hdrained
    cases hdrained

/-- The value in the hand is stored in an open queue. -/
theorem Accounts.store (h : Accounts s [o]) (hopen : s.closed = false) :
    Accounts { s with items := s.items ++ [o], accepted := s.accepted ++ [o] } [] where
  fates := by
    have hfates := h.fates
    simp only [State.values, coe_append_singleton, Multiset.coe_singleton, Multiset.coe_nil,
      add_zero] at hfates ⊢
    rw [hfates]
    abel
  once := h.once
  made := h.made
  accepted := by
    have haccepted := h.accepted
    simp only [State.values, coe_append_singleton] at haccepted ⊢
    rw [haccepted]
    abel
  fifo := by
    show without (s.accepted ++ [o]) s.cleared = s.values ++ (s.items ++ [o])
    rw [h.without_append, h.fifo, List.append_assoc]
  order := h.order
  shifts := h.shifts
  drained := by
    intro hended
    have hclosed := (h.drained hended).1
    rw [hopen] at hclosed
    cases hclosed

/-- The writer with the value in the hand joins the waiting writers of an open queue. -/
theorem Accounts.wait (h : Accounts s [o]) (hopen : s.closed = false) :
    Accounts { s with writers := s.writers ++ [o] } [] where
  fates := by
    have hfates := h.fates
    simp only [State.values, coe_append_singleton, Multiset.coe_singleton, Multiset.coe_nil,
      add_zero] at hfates ⊢
    rw [hfates]
    abel
  once := h.once
  made := h.made
  accepted := h.accepted
  fifo := h.fifo
  order := h.order
  shifts := h.shifts
  drained := by
    intro hended
    have hclosed := (h.drained hended).1
    rw [hopen] at hclosed
    cases hclosed

/-- The value of a waiting writer is taken into the hand. -/
theorem Accounts.takeWriter (h : Accounts s []) {before after : List (Offer α)}
    (hwriters : s.writers = before ++ o :: after) : Accounts { s with writers := before ++ after } [o] where
  fates := by
    have hfates := h.fates
    simp only [hwriters, State.values, ← Multiset.coe_add, coe_cons_eq, Multiset.coe_nil, add_zero] at hfates ⊢
    rw [hfates]
    abel
  once := h.once
  made := h.made
  accepted := h.accepted
  fifo := h.fifo
  order := h.order
  shifts := h.shifts
  drained := by
    intro hended
    have hempty := (h.drained hended).2.2.1
    rw [hwriters] at hempty
    simp at hempty

/-- The first item is returned by a new call of `shift`. -/
theorem Accounts.takeItem (h : Accounts s []) {items : List (Offer α)} (hitems : s.items = o :: items)
    (hreaders : s.readers = []) :
    Accounts ({ s with calls := s.calls + 1, items := items }.deliver s.calls o) [] where
  fates := by
    have hfates := h.fates
    simp only [hitems, State.deliver, State.values, List.map_append, List.map_cons, List.map_nil,
      coe_append_singleton, coe_cons_eq, Multiset.coe_nil, add_zero] at hfates ⊢
    rw [hfates]
    abel
  once := h.once
  made := fun o ho => Nat.lt_succ_of_lt (h.made o ho)
  accepted := by
    have haccepted := h.accepted
    simp only [hitems, State.deliver, State.values, List.map_append, List.map_cons, List.map_nil,
      coe_append_singleton, coe_cons_eq] at haccepted ⊢
    rw [haccepted]
    abel
  fifo := by
    show s.kept = (s.returned ++ [(s.calls, o)]).map Prod.snd ++ items
    rw [h.fifo, hitems]
    simp [State.values]
  order := by
    have horder := h.order
    have hshifts := h.shifts
    simp only [hreaders, List.append_nil] at horder hshifts
    simpa [State.deliver, hreaders, List.pairwise_append, horder] using hshifts
  shifts := by
    have hshifts := h.shifts
    simp only [hreaders, List.append_nil] at hshifts
    intro call hcall
    simp only [State.deliver, hreaders, List.append_nil, List.map_append, List.map_cons, List.map_nil,
      List.mem_append, List.mem_singleton] at hcall ⊢
    rcases hcall with hcall | rfl
    · exact Nat.lt_succ_of_lt (hshifts call hcall)
    · exact Nat.lt_succ_self _
  drained := by
    intro hended
    have hempty := (h.drained hended).2.1
    rw [hitems] at hempty
    cases hempty

/-- A new call of `shift` waits at an open queue. -/
theorem Accounts.addReader (h : Accounts s []) (hopen : s.closed = false) :
    Accounts { s with calls := s.calls + 1, readers := s.readers ++ [s.calls] } [] where
  fates := h.fates
  once := h.once
  made := fun o ho => Nat.lt_succ_of_lt (h.made o ho)
  accepted := h.accepted
  fifo := h.fifo
  order := by
    simp only [← List.append_assoc]
    rw [List.pairwise_append]
    refine ⟨h.order, List.pairwise_singleton _ _, fun call hcall last hlast => ?_⟩
    obtain rfl : last = s.calls := by simpa using hlast
    exact h.shifts call hcall
  shifts := by
    intro call hcall
    simp only [← List.append_assoc, List.mem_append, List.mem_singleton] at hcall ⊢
    rcases hcall with hcall | rfl
    · exact Nat.lt_succ_of_lt (h.shifts call (List.mem_append.mpr hcall))
    · exact Nat.lt_succ_self _
  drained := by
    intro hended
    have hclosed := (h.drained hended).1
    rw [hopen] at hclosed
    cases hclosed

/-- A call that has no effect on the values. -/
theorem Accounts.call (h : Accounts s []) : Accounts { s with calls := s.calls + 1 } [] where
  fates := h.fates
  once := h.once
  made := fun o ho => Nat.lt_succ_of_lt (h.made o ho)
  accepted := h.accepted
  fifo := h.fifo
  order := h.order
  shifts := fun call hcall => Nat.lt_succ_of_lt (h.shifts call hcall)
  drained := h.drained

/-- Some waiting readers leave. -/
theorem Accounts.dropReaders (h : Accounts s []) {readers : List Nat} (hsub : readers.Sublist s.readers) :
    Accounts { s with readers := readers } [] where
  fates := h.fates
  once := h.once
  made := h.made
  accepted := h.accepted
  fifo := h.fifo
  order := h.order.sublist ((List.Sublist.refl _).append hsub)
  shifts := fun call hcall => h.shifts call (((List.Sublist.refl _).append hsub).subset hcall)
  drained := by
    intro hended
    obtain ⟨hclosed, hitems, hwriters, hreaders⟩ := h.drained hended
    refine ⟨hclosed, hitems, hwriters, ?_⟩
    rw [hreaders] at hsub
    exact List.sublist_nil.mp hsub

/-- Calls of `shift` are told that the drained queue is closed. -/
theorem Accounts.finish (h : Accounts s []) {calls : List Nat} (hclosed : s.closed = true) (hitems : s.items = [])
    (hwriters : s.writers = []) (hreaders : s.readers = []) :
    Accounts { s with ended := s.ended ++ calls } [] where
  fates := h.fates
  once := h.once
  made := h.made
  accepted := h.accepted
  fifo := h.fifo
  order := h.order
  shifts := h.shifts
  drained := fun _ => ⟨hclosed, hitems, hwriters, hreaders⟩

/-- The waiting writers are refused, and the queue is closed. -/
theorem Accounts.refuseWriters (h : Accounts s []) :
    Accounts { s with closed := true, writers := [], refused := s.refused ++ s.writers } [] where
  fates := by
    have hfates := h.fates
    simp only [State.values, ← Multiset.coe_add, Multiset.coe_nil, add_zero] at hfates ⊢
    rw [hfates]
    abel
  once := h.once
  made := h.made
  accepted := h.accepted
  fifo := h.fifo
  order := h.order
  shifts := h.shifts
  drained := by
    intro hended
    obtain ⟨-, hitems, -, hreaders⟩ := h.drained hended
    exact ⟨rfl, hitems, rfl, hreaders⟩

/-- The items are thrown away. -/
theorem Accounts.throwAway (h : Accounts s []) :
    Accounts { s with items := [], cleared := s.cleared ++ s.items } [] where
  fates := by
    have hfates := h.fates
    simp only [State.values, ← Multiset.coe_add, Multiset.coe_nil, add_zero] at hfates ⊢
    rw [hfates]
    abel
  once := h.once
  made := h.made
  accepted := by
    have haccepted := h.accepted
    simp only [State.values, ← Multiset.coe_add, Multiset.coe_nil, add_zero] at haccepted ⊢
    rw [haccepted]
    abel
  fifo := by
    have hdistinct := h.distinct
    simp only [List.map_append, List.nodup_append, List.mem_append] at hdistinct
    have hvalues : without s.values s.items = s.values := by
      refine without_eq_self fun o ho hmem => ?_
      exact hdistinct.1.1.2.2 o.call (by simp [List.mem_map_of_mem ho]) o.call hmem rfl
    show without s.accepted (s.cleared ++ s.items) = s.values ++ []
    rw [without_append_right]
    show without s.kept s.items = s.values ++ []
    rw [h.fifo, QueueMachine.without_append, hvalues, without_self]
  order := h.order
  shifts := h.shifts
  drained := by
    intro hended
    obtain ⟨hclosed, -, hwriters, hreaders⟩ := h.drained hended
    exact ⟨hclosed, rfl, hwriters, hreaders⟩

/-! ## Who waits -/

/-- Readers wait at an open queue without items and writers only, and writers at an open queue that is full. -/
structure Waits (capacity : Nat) (s : State α) : Prop where
  readers : s.readers ≠ [] → s.items = [] ∧ s.writers = [] ∧ s.closed = false
  writers : s.writers ≠ [] → capacity ≤ s.items.length ∧ s.closed = false

/-- The invariant of the runs. -/
structure Inv (capacity : Nat) (s : State α) : Prop where
  accounts : Accounts s []
  waits : Waits capacity s

variable {capacity : Nat}

theorem inv_new : Inv capacity (new : State α) where
  accounts := accounts_new
  waits := { readers := by simp [new], writers := by simp [new] }

/-- What `place` does with the value in the hand. -/
theorem place_spec (h : Accounts s [o]) (hw : Waits capacity s) (hopen : s.closed = false) :
    (∃ t, s.place capacity o = some t ∧ Inv capacity t) ∨
      (s.place capacity o = none ∧ s.readers = [] ∧ capacity ≤ s.items.length) := by
  cases hreaders : s.readers with
  | cons reader readers =>
    obtain ⟨hitems, hwriters, -⟩ := hw.readers (by simp [hreaders])
    refine Or.inl ⟨_, by rw [State.place, hreaders], h.handOver hreaders hitems, ?_⟩
    exact { readers := fun _ => ⟨hitems, hwriters, hopen⟩
            writers := fun hne => absurd hwriters hne }
  | nil =>
    by_cases hroom : s.items.length < capacity
    · refine Or.inl ⟨_, by rw [State.place, hreaders]; exact if_pos hroom, h.store hopen, ?_⟩
      exact { readers := fun hne => absurd hreaders hne
              writers := fun hne => absurd (hw.writers hne).1 (by omega) }
    · exact Or.inr ⟨by rw [State.place, hreaders]; exact if_neg hroom, rfl, by omega⟩

theorem Waits.offer (h : Waits capacity s) (v : α) : Waits capacity (s.offer v).1 :=
  { readers := h.readers, writers := h.writers }

theorem Inv.refuse (h : Accounts s [o]) (hw : Waits capacity s) : Inv capacity (s.refuse o) where
  accounts := h.refuse
  waits := { readers := hw.readers, writers := hw.writers }

theorem inv_tryPush (h : Accounts s [o]) (hw : Waits capacity s) : Inv capacity (tryPush capacity s o) := by
  rw [tryPush]
  split_ifs with hclosed
  · exact .refuse h hw
  · obtain ⟨t, ht, hinv⟩ | ⟨hnone, -, -⟩ := place_spec h hw (by simpa using hclosed)
    · rw [ht]
      exact hinv
    · rw [hnone]
      exact .refuse h hw

theorem inv_push {aborted : Bool} (h : Accounts s [o]) (hw : Waits capacity s) :
    Inv capacity (push capacity s o aborted) := by
  rw [push]
  split_ifs with haborted hclosed
  · exact .refuse h hw
  · exact .refuse h hw
  · have hopen : s.closed = false := by simpa using hclosed
    obtain ⟨t, ht, hinv⟩ | ⟨hnone, hreaders, hfull⟩ := place_spec h hw hopen
    · rw [ht]
      exact hinv
    · rw [hnone]
      refine ⟨h.wait hopen, ?_⟩
      exact { readers := fun hne => absurd hreaders hne
              writers := fun _ => ⟨hfull, hopen⟩ }

/-- The first waiting writer is admitted to an open queue at which no reader waits. -/
theorem admitWriter_of_writers {writer : Offer α} {writers : List (Offer α)}
    (hwriters : s.writers = writer :: writers) (hreaders : s.readers = []) :
    admitWriter s =
      { s with writers := writers, items := s.items ++ [writer], accepted := s.accepted ++ [writer] } := by
  rw [admitWriter, hwriters, hreaders]

theorem Accounts.admitWriter (h : Accounts s []) {writer : Offer α} {writers : List (Offer α)}
    (hwriters : s.writers = writer :: writers) (hreaders : s.readers = []) (hopen : s.closed = false) :
    Accounts (admitWriter s) [] := by
  rw [admitWriter_of_writers hwriters hreaders]
  have htaken : Accounts { s with writers := [] ++ writers } [writer] := h.takeWriter hwriters
  exact htaken.store hopen

theorem closeReaders_of_nil (hreaders : s.readers = []) : closeReaders s = s := by
  cases s
  simp only at hreaders
  simp [closeReaders, hreaders]

/-- The queue after the first item is returned by a new call. -/
def returnItem (s : State α) (o : Offer α) (items : List (Offer α)) : State α :=
  { s with calls := s.calls + 1, items := items }.deliver s.calls o

theorem shift_of_item {items : List (Offer α)} (hitems : s.items = o :: items) :
    shift { s with calls := s.calls + 1 } s.calls false = admitWriter (returnItem s o items) := by
  simp [shift, hitems, returnItem]

theorem shift_of_empty (hitems : s.items = []) (hwriters : s.writers = []) :
    shift { s with calls := s.calls + 1 } s.calls false =
      if s.closed then { s with calls := s.calls + 1, ended := s.ended ++ [s.calls] }
      else { s with calls := s.calls + 1, readers := s.readers ++ [s.calls] } := by
  simp [shift, hitems, hwriters]

theorem inv_returnItem (h : Inv capacity s) {items : List (Offer α)} (hitems : s.items = o :: items) :
    Inv capacity (admitWriter (returnItem s o items)) := by
  have hreaders : s.readers = [] := by
    by_contra hne
    rw [(h.waits.readers hne).1] at hitems
    cases hitems
  have htaken : Accounts (returnItem s o items) [] := h.accounts.takeItem hitems hreaders
  cases hwriters : s.writers with
  | nil =>
    have hsame : admitWriter (returnItem s o items) = returnItem s o items := by
      have hnil : (returnItem s o items).writers = [] := hwriters
      rw [admitWriter, hnil]
      simp only
      split_ifs
      · exact closeReaders_of_nil hreaders
      · rfl
    rw [hsame]
    exact { accounts := htaken
            waits := { readers := fun hne => absurd hreaders hne, writers := fun hne => absurd hwriters hne } }
  | cons writer writers =>
    have hwaits := h.waits.writers (by simp [hwriters])
    refine { accounts := htaken.admitWriter hwriters hreaders hwaits.2
             waits := ?_ }
    rw [admitWriter_of_writers (s := returnItem s o items) hwriters hreaders]
    have hlength : (items ++ [writer]).length = s.items.length := by rw [hitems]; simp
    exact { readers := fun hne => absurd hreaders hne
            writers := fun _ => ⟨hlength ▸ hwaits.1, hwaits.2⟩ }

theorem inv_shift (hpos : 0 < capacity) (h : Inv capacity s) (aborted : Bool) :
    Inv capacity (shift { s with calls := s.calls + 1 } s.calls aborted) := by
  have hcall : Waits capacity { s with calls := s.calls + 1 } :=
    { readers := h.waits.readers, writers := h.waits.writers }
  cases aborted with
  | true => exact { accounts := h.accounts.call, waits := hcall }
  | false =>
    by_cases hitems : s.items = []
    · have hwriters : s.writers = [] := by
        by_contra hne
        have hfull := (h.waits.writers hne).1
        rw [hitems, List.length_nil] at hfull
        omega
      rw [shift_of_empty hitems hwriters]
      split_ifs with hclosed
      · have hreaders : s.readers = [] := by
          by_contra hne
          have hopen := (h.waits.readers hne).2.2
          rw [hclosed] at hopen
          cases hopen
        exact { accounts := h.accounts.call.finish hclosed hitems hwriters hreaders, waits := ⟨hcall.1, hcall.2⟩ }
      · have hopen : s.closed = false := by simpa using hclosed
        exact { accounts := h.accounts.addReader hopen
                waits := { readers := fun _ => ⟨hitems, hwriters, hopen⟩
                           writers := fun hne => absurd hwriters hne } }
    · obtain ⟨o, items, hitems⟩ := List.exists_cons_of_ne_nil hitems
      rw [shift_of_item hitems]
      exact inv_returnItem h hitems

theorem close_of_open (hopen : s.closed = false) :
    close s =
      if s.items = [] then { s with
        closed := true
        writers := []
        refused := s.refused ++ s.writers
        readers := []
        ended := s.ended ++ s.readers }
      else { s with closed := true, writers := [], refused := s.refused ++ s.writers } := by
  simp [close, hopen, closeReaders]

theorem inv_close (h : Inv capacity s) : Inv capacity (close s) := by
  cases hclosed : s.closed with
  | true =>
    rw [close, if_pos hclosed]
    exact h
  | false =>
    rw [close_of_open hclosed]
    split_ifs with hitems
    · have hdropped := h.accounts.refuseWriters.dropReaders (List.nil_sublist _)
      exact { accounts := hdropped.finish rfl hitems rfl rfl
              waits := { readers := fun hne => absurd rfl hne, writers := fun hne => absurd rfl hne } }
    · have hreaders : s.readers = [] := by
        by_contra hne
        exact hitems (h.waits.readers hne).1
      exact { accounts := h.accounts.refuseWriters
              waits := { readers := fun hne => absurd hreaders hne, writers := fun hne => absurd rfl hne } }

/-- The loop of `clear` admits all the writers of an open queue. -/
theorem admitWriters_spec {fuel : Nat} (h : Accounts s []) (hreaders : s.readers = []) (hopen : s.closed = false)
    (hfuel : s.writers.length ≤ fuel) :
    Accounts (admitWriters fuel s) [] ∧ (admitWriters fuel s).items = s.items ++ s.writers ∧
      (admitWriters fuel s).writers = [] ∧ (admitWriters fuel s).readers = [] ∧
      (admitWriters fuel s).closed = false := by
  induction fuel generalizing s with
  | zero =>
    have hwriters : s.writers = [] := List.length_eq_zero_iff.mp (Nat.le_zero.mp hfuel)
    exact ⟨h, by simp [admitWriters, hwriters], hwriters, hreaders, hopen⟩
  | succ fuel ih =>
    cases hwriters : s.writers with
    | nil =>
      rw [admitWriters, if_neg (by simp [hwriters])]
      exact ⟨h, by simp, hwriters, hreaders, hopen⟩
    | cons writer writers =>
      rw [admitWriters, if_pos ⟨by simp [hwriters], hopen⟩]
      have hadmitted := h.admitWriter hwriters hreaders hopen
      rw [admitWriter_of_writers hwriters hreaders] at hadmitted ⊢
      have hshort : writers.length ≤ fuel := by
        rw [hwriters, List.length_cons] at hfuel
        omega
      obtain ⟨haccounts, hitems, hrest⟩ := ih hadmitted hreaders hopen hshort
      exact ⟨haccounts, by rw [hitems]; simp, hrest⟩

/-- The queue after `clear` has thrown the items away. -/
def throwItems (s : State α) : State α := { s with items := [], cleared := s.cleared ++ s.items }

/-- Nothing waits at a closed queue, so that `clear` only throws the items away. -/
theorem clear_of_closed (h : Inv capacity s) (hclosed : s.closed = true) : clear s = throwItems s := by
  have hreaders : s.readers = [] := by
    by_contra hne
    simp [(h.waits.readers hne).2.2] at hclosed
  have hwriters : s.writers = [] := by
    by_contra hne
    simp [(h.waits.writers hne).2] at hclosed
  have hsame : closeReaders (throwItems s) = throwItems s := closeReaders_of_nil hreaders
  simpa [clear, throwItems, hwriters, admitWriters, hclosed] using hsame

/-- `clear` of an open queue admits the writers that wait, if there are any, and then no reader waits. -/
theorem clear_of_open (h : Inv capacity s) (hopen : s.closed = false) :
    Accounts (clear s) [] ∧ (clear s).items = s.writers ∧ (clear s).writers = [] ∧
      (clear s).closed = false ∧ (s.writers ≠ [] → (clear s).readers = []) := by
  have hthrown : Accounts (throwItems s) [] := h.accounts.throwAway
  by_cases hwriters : s.writers = []
  · have hsame : clear s = throwItems s := by
      simp [clear, hwriters, admitWriters, hopen, throwItems]
    rw [hsame]
    exact ⟨hthrown, hwriters.symm, hwriters, hopen, fun hne => absurd hwriters hne⟩
  · have hreaders : s.readers = [] := by
      by_contra hne
      exact hwriters (h.waits.readers hne).2.1
    obtain ⟨haccounts, hitems, hnone, hnoReaders, hstill⟩ :=
      admitWriters_spec (s := throwItems s) hthrown hreaders hopen (le_refl s.writers.length)
    have hclear : clear s = admitWriters s.writers.length (throwItems s) := by
      rw [clear]
      exact if_neg (by simpa [throwItems] using hstill)
    rw [hclear]
    exact ⟨haccounts, by simpa [throwItems] using hitems, hnone, hstill, fun _ => hnoReaders⟩

theorem inv_clear (h : Inv capacity s) : Inv capacity (clear s) := by
  cases hclosed : s.closed with
  | true =>
    rw [clear_of_closed h hclosed]
    exact { accounts := h.accounts.throwAway
            waits := { readers := fun hne => ⟨rfl, (h.waits.readers hne).2⟩
                       writers := fun hne => by simp [(h.waits.writers hne).2] at hclosed } }
  | false =>
    obtain ⟨haccounts, hitems, hnone, hopen, hreaders⟩ := clear_of_open h hclosed
    refine { accounts := haccounts, waits := { readers := fun hne => ?_, writers := fun hne => absurd hnone hne } }
    have hwriters : s.writers = [] := by
      by_contra hw
      exact hne (hreaders hw)
    exact ⟨hitems.trans hwriters, hnone, hopen⟩

/-! ## Runs -/

theorem inv_step (hpos : 0 < capacity) {a : Action α} {t : State α} (h : Inv capacity s)
    (hstep : step capacity s a = some t) : Inv capacity t := by
  cases a with
  | tryPush v =>
    obtain rfl : tryPush capacity (s.offer v).1 (s.offer v).2 = t := by simpa [step] using hstep
    exact inv_tryPush (h.accounts.offer v) (h.waits.offer v)
  | push v aborted =>
    obtain rfl : push capacity (s.offer v).1 (s.offer v).2 aborted = t := by simpa [step] using hstep
    exact inv_push (h.accounts.offer v) (h.waits.offer v)
  | shift aborted =>
    obtain rfl : shift { s with calls := s.calls + 1 } s.calls aborted = t := by simpa [step] using hstep
    exact inv_shift hpos h aborted
  | abortPush call =>
    simp only [step] at hstep
    cases hfind : s.writers.find? fun writer => writer.call = call with
    | none => simp [hfind] at hstep
    | some writer =>
      rw [hfind] at hstep
      obtain ⟨hcall, before, after, hwriters, hbefore⟩ := List.find?_eq_some_iff_append.mp hfind
      have herase : (s.writers.eraseP fun writer => writer.call = call) = before ++ after := by
        have hself : writer.call = call := by simpa using hcall
        rw [hwriters, List.eraseP_append_right _ (by simpa using hbefore)]
        simp [hself]
      simp only [herase, Option.some.injEq] at hstep
      subst hstep
      have haborted := (h.accounts.takeWriter hwriters).refuse
      have hwaits := h.waits.writers (by simp [hwriters])
      exact { accounts := haborted
              waits := { readers := fun hne => absurd (h.waits.readers hne).2.1 (by simp [hwriters])
                         writers := fun _ => hwaits } }
  | abortShift call =>
    simp only [step, Option.ite_none_right_eq_some, Option.some.injEq] at hstep
    obtain ⟨hmem, rfl⟩ := hstep
    have hsub : (s.readers.erase call).Sublist s.readers := List.erase_sublist
    refine { accounts := h.accounts.dropReaders hsub, waits := { readers := fun _ => ?_, writers := h.waits.writers } }
    exact h.waits.readers (List.ne_nil_of_mem hmem)
  | close =>
    obtain rfl : close s = t := by simpa [step] using hstep
    exact inv_close h
  | clear =>
    obtain rfl : clear s = t := by simpa [step] using hstep
    exact inv_clear h

theorem inv_reachable (hpos : 0 < capacity) (h : (machine α capacity).Reachable s) : Inv capacity s := by
  refine Machine.Reachable.invariant (I := Inv capacity) ?_ (fun _ _ _ hinv hstep => inv_step hpos hinv hstep) h
  rintro s rfl
  exact inv_new

/-! ## The bounds -/

theorem length_place {t : State α} (hlen : s.items.length ≤ capacity) (h : s.place capacity o = some t) :
    t.items.length ≤ capacity := by
  rw [State.place] at h
  split at h
  · obtain rfl := Option.some.inj h
    exact hlen
  · simp only [Option.ite_none_right_eq_some, Option.some.injEq] at h
    obtain ⟨hroom, rfl⟩ := h
    rw [List.length_append, List.length_singleton]
    exact hroom

theorem length_tryPush (hlen : s.items.length ≤ capacity) : (tryPush capacity s o).items.length ≤ capacity := by
  rw [tryPush]
  split_ifs with hclosed
  · exact hlen
  · cases hplace : s.place capacity o with
    | none => exact hlen
    | some t => exact length_place hlen hplace

theorem length_push {aborted : Bool} (hlen : s.items.length ≤ capacity) :
    (push capacity s o aborted).items.length ≤ capacity := by
  rw [push]
  split_ifs with haborted hclosed
  · exact hlen
  · exact hlen
  · cases hplace : s.place capacity o with
    | none => exact hlen
    | some t => exact length_place hlen hplace

theorem length_admitWriter : (admitWriter s).items.length ≤ s.items.length + 1 := by
  rw [admitWriter]
  split
  · split_ifs
    · exact Nat.le_succ _
    · exact Nat.le_succ _
  · split
    · exact Nat.le_succ _
    · rw [List.length_append, List.length_singleton]

theorem length_shift (hlen : s.items.length ≤ capacity) (aborted : Bool) :
    (shift { s with calls := s.calls + 1 } s.calls aborted).items.length ≤ capacity := by
  cases aborted with
  | true => exact hlen
  | false =>
    by_cases hitems : s.items = []
    · rw [shift]
      simp only [hitems, Bool.false_eq_true, if_false]
      split
      · exact absurd ‹[] = _› (by simp)
      · exact Nat.zero_le _
      · split_ifs
        · exact hitems ▸ hlen
        · exact hitems ▸ hlen
    · obtain ⟨o, items, hitems⟩ := List.exists_cons_of_ne_nil hitems
      rw [shift_of_item hitems]
      have hplace := length_admitWriter (s := returnItem s o items)
      rw [hitems, List.length_cons] at hlen
      exact le_trans hplace hlen

/-- One step keeps the items within the capacity, unless it is a `clear` with too many writers. -/
theorem length_step {a : Action α} {t : State α} (h : Inv capacity s) (hlen : s.items.length ≤ capacity)
    (hadmits : Admits capacity s a) (hstep : step capacity s a = some t) : t.items.length ≤ capacity := by
  cases a with
  | tryPush v =>
    obtain rfl : tryPush capacity (s.offer v).1 (s.offer v).2 = t := by simpa [step] using hstep
    exact length_tryPush hlen
  | push v aborted =>
    obtain rfl : push capacity (s.offer v).1 (s.offer v).2 aborted = t := by simpa [step] using hstep
    exact length_push hlen
  | shift aborted =>
    obtain rfl : shift { s with calls := s.calls + 1 } s.calls aborted = t := by simpa [step] using hstep
    exact length_shift hlen aborted
  | abortPush call =>
    simp only [step] at hstep
    split at hstep
    · obtain rfl := Option.some.inj hstep
      exact hlen
    · cases hstep
  | abortShift call =>
    simp only [step, Option.ite_none_right_eq_some, Option.some.injEq] at hstep
    obtain ⟨-, rfl⟩ := hstep
    exact hlen
  | close =>
    obtain rfl : close s = t := by simpa [step] using hstep
    have hsame : (close s).items = s.items := by
      cases hclosed : s.closed with
      | true => rw [close, if_pos hclosed]
      | false =>
        rw [close_of_open hclosed]
        split_ifs <;> rfl
    rw [hsame]
    exact hlen
  | clear =>
    obtain rfl : clear s = t := by simpa [step] using hstep
    cases hclosed : s.closed with
    | true =>
      rw [clear_of_closed h hclosed]
      exact Nat.zero_le _
    | false =>
      rw [(clear_of_open h hclosed).2.1]
      exact hadmits hclosed

theorem Inv.bounded (h : Inv capacity s) (hlen : s.items.length ≤ capacity) : s.Bounded capacity where
  items := hlen
  readers := fun hne => ⟨(h.waits.readers hne).1, (h.waits.readers hne).2.1⟩
  writers := fun hne => le_antisymm hlen (h.waits.writers hne).1

/-- The bounds hold throughout a run exactly if no step of it clears an open queue at which more writers wait
than it has room for. -/
theorem bounded_throughout_iff (α : Type) (capacity : Nat) (hpos : 0 < capacity) (s t : State α)
    (run : List (Action α)) (hstart : (machine α capacity).Start s)
    (hexec : (machine α capacity).exec s run = some t) :
    (machine α capacity).Throughout (State.Bounded capacity) s run ↔
      (machine α capacity).Along (Admits capacity) s run := by
  obtain rfl : s = new := hstart
  refine Machine.throughout_iff_along (I := fun s => Inv capacity s ∧ s.items.length ≤ capacity)
    (fun s h => h.1.bounded h.2) ?_ ?_ ⟨inv_new, Nat.zero_le _⟩ hexec
  · rintro s a t ⟨hinv, hlen⟩ hadmits hstep
    exact ⟨inv_step hpos hinv hstep, length_step hinv hlen hadmits hstep⟩
  · rintro s a t ⟨hinv, -⟩ hadmits hstep hbounded
    cases a with
    | clear =>
      have hcrowd : s.closed = false ∧ capacity < s.writers.length := by simpa [Admits] using hadmits
      obtain rfl : clear s = t := by simpa [machine, step] using hstep
      have hlen := hbounded.items
      rw [(clear_of_open hinv hcrowd.1).2.1] at hlen
      omega
    | _ => exact hadmits trivial

/-- A run that clears a queue with one waiting writer. -/
theorem bounded_of_one_writer :
    (machine Nat 1).Throughout (State.Bounded 1) new [.push 1 false, .push 2 false, .clear, .shift false] := by
  have hexec : (machine Nat 1).exec new [.push 1 false, .push 2 false, .clear, .shift false] = some _ := rfl
  exact (bounded_throughout_iff Nat 1 (by decide) new _ _ rfl hexec).mpr (by decide)

/-- A queue of capacity 1 that is cleared while two writers wait holds two items. -/
theorem overfull_after_clear :
    ∃ s, (machine Nat 1).Reachable s ∧ s.items.length = 2 ∧ ¬ s.Bounded 1 := by
  have hexec : (machine Nat 1).exec new [.push 1 false, .push 2 false, .push 3 false, .clear] = some _ := rfl
  refine ⟨_, .of_exec rfl hexec, rfl, fun h => ?_⟩
  exact absurd h.items (by decide)

/-! ## The values -/

/-- A value that was accepted is not among those that are refused. -/
theorem Accounts.resolved (h : Accounts s hand) : ∀ o ∈ s.accepted, ∀ r ∈ s.refused, o.call ≠ r.call := by
  intro o ho r hr
  have hdistinct := h.distinct
  simp only [List.map_append, List.nodup_append, List.mem_append] at hdistinct
  obtain ⟨⟨⟨⟨-, -, hrefused⟩, -, hitems⟩, -⟩, -⟩ := hdistinct
  have hmem := h.accepted_perm.mem_iff.mp ho
  simp only [List.mem_append] at hmem
  rcases hmem with (hmem | hmem) | hmem
  · exact hrefused o.call (Or.inl (List.mem_map_of_mem hmem)) r.call (List.mem_map_of_mem hr)
  · exact hrefused o.call (Or.inr (List.mem_map_of_mem hmem)) r.call (List.mem_map_of_mem hr)
  · exact (hitems r.call (Or.inr (List.mem_map_of_mem hr)) o.call (List.mem_map_of_mem hmem)).symm

theorem Accounts.delivered (h : Accounts s []) : s.Delivered where
  fates := by
    have hfates := h.fates
    simp only [Multiset.coe_nil, add_zero, Multiset.coe_add] at hfates
    exact Multiset.coe_eq_coe.mp hfates
  once := h.once
  resolved := h.resolved
  ordered := List.pairwise_map.mp (List.pairwise_append.mp h.order).1
  fifo := h.fifo
  drained := fun hended => ⟨(h.drained hended).1, (h.drained hended).2.1, (h.drained hended).2.2.1⟩

theorem accepted_place {t : State α} (h : s.place capacity o = some t) : s.accepted <+: t.accepted := by
  rw [State.place] at h
  split at h
  · obtain rfl := Option.some.inj h
    exact List.prefix_append _ _
  · simp only [Option.ite_none_right_eq_some, Option.some.injEq] at h
    obtain ⟨-, rfl⟩ := h
    exact List.prefix_append _ _

theorem accepted_admitWriter : s.accepted <+: (admitWriter s).accepted := by
  rw [admitWriter]
  split
  · split_ifs
    · exact List.prefix_refl _
    · exact List.prefix_refl _
  · split
    · exact List.prefix_append _ _
    · exact List.prefix_append _ _

theorem accepted_admitWriters {fuel : Nat} : s.accepted <+: (admitWriters fuel s).accepted := by
  induction fuel generalizing s with
  | zero => exact List.prefix_refl _
  | succ fuel ih =>
    rw [admitWriters]
    split_ifs
    · exact accepted_admitWriter.trans ih
    · exact List.prefix_refl _

theorem accepted_shift {call : Nat} {aborted : Bool} : s.accepted <+: (shift s call aborted).accepted := by
  unfold shift
  cases aborted with
  | true => exact List.prefix_refl _
  | false =>
    rw [if_neg Bool.false_ne_true]
    split
    · refine List.IsPrefix.trans ?_ accepted_admitWriter
      exact List.prefix_refl _
    · exact List.prefix_append _ _
    · split_ifs <;> exact List.prefix_refl _

/-- What was accepted stays accepted. -/
theorem accepted_step {a : Action α} {t : State α} (hstep : step capacity s a = some t) :
    s.accepted <+: t.accepted := by
  cases a with
  | tryPush v =>
    obtain rfl : tryPush capacity (s.offer v).1 (s.offer v).2 = t := by simpa [step] using hstep
    rw [tryPush]
    split_ifs
    · exact List.prefix_refl _
    · split
      · exact accepted_place (s := (s.offer v).1) ‹_›
      · exact List.prefix_refl _
  | push v aborted =>
    obtain rfl : push capacity (s.offer v).1 (s.offer v).2 aborted = t := by simpa [step] using hstep
    rw [push]
    split_ifs
    · exact List.prefix_refl _
    · exact List.prefix_refl _
    · split
      · exact accepted_place (s := (s.offer v).1) ‹_›
      · exact List.prefix_refl _
  | shift aborted =>
    obtain rfl : shift { s with calls := s.calls + 1 } s.calls aborted = t := by simpa [step] using hstep
    exact accepted_shift (s := { s with calls := s.calls + 1 })
  | abortPush call =>
    simp only [step] at hstep
    split at hstep
    · obtain rfl := Option.some.inj hstep
      exact List.prefix_refl _
    · cases hstep
  | abortShift call =>
    simp only [step, Option.ite_none_right_eq_some, Option.some.injEq] at hstep
    obtain ⟨-, rfl⟩ := hstep
    exact List.prefix_refl _
  | close =>
    obtain rfl : close s = t := by simpa [step] using hstep
    simp only [close]
    split_ifs <;> exact List.prefix_refl _
  | clear =>
    obtain rfl : clear s = t := by simpa [step] using hstep
    have hloop : s.accepted <+: (admitWriters s.writers.length (throwItems s)).accepted :=
      accepted_admitWriters (s := throwItems s)
    simp only [clear]
    split_ifs
    · exact hloop
    · exact hloop

/-- What becomes of the values of a queue, in every state and from it on. -/
theorem queue_delivers (α : Type) (capacity : Nat) (hpos : 0 < capacity) (s : State α)
    (hs : (machine α capacity).Reachable s) :
    s.Delivered ∧ ∀ t, (machine α capacity).Steps (fun _ _ => True) s t →
      ∀ o ∈ s.accepted, o ∈ t.accepted ∧ ∀ r ∈ t.refused, o.call ≠ r.call := by
  have hinv := inv_reachable hpos hs
  refine ⟨hinv.accounts.delivered, fun t hsteps o ho => ?_⟩
  have hlater : Inv capacity t ∧ s.accepted <+: t.accepted := by
    refine hsteps.invariant (I := fun t => Inv capacity t ∧ s.accepted <+: t.accepted) ?_
      ⟨hinv, List.prefix_refl _⟩
    rintro u a t ⟨hu, haccepted⟩ - hstep
    exact ⟨inv_step hpos hu hstep, haccepted.trans (accepted_step hstep)⟩
  have hkept := hlater.2.subset ho
  exact ⟨hkept, hlater.1.accounts.resolved o hkept⟩

/-- A queue with an item and a waiting writer that is closed, drained and asked once more. -/
theorem queue_delivers_after_close :
    ((machine Nat 1).exec new [.push 1 false, .push 2 false, .close, .shift false, .shift false]).any
      (fun s => s.ended = [3] ∧ s.returned.map Prod.fst = [2] ∧ s.refused.map Offer.value = [2]) = true ∧
    ∀ s, (machine Nat 1).exec new [.push 1 false, .push 2 false, .close, .shift false, .shift false] = some s →
      s.Delivered :=
  ⟨by decide, fun s hs => (queue_delivers Nat 1 (by decide) s (.of_exec rfl hs)).1⟩

end Rtvbp.TypeScript.QueueMachine
