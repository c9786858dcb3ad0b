import Rtvbp.TypeScript.Proofs.QueueMachineProofs

/-!
# The flow of values through a queue

A queue that one caller reads, with one call of `shift` at a time: the value that the call has got and the items are
the flow of the queue. An operation appends to the flow what it accepts, and `clear` takes the items out of it.
-/

namespace Rtvbp.TypeScript.QueueMachine

open Rtvbp.Lib

variable {α : Type} {capacity : Nat} {s t : State α} {c : Option Nat}

/-- The value that the caller has got. -/
def State.arrived (s : State α) (c : Option Nat) : List (Offer α) := (c.bind s.result).toList

/-- The value that the caller has got, and the items. -/
def State.flow (s : State α) (c : Option Nat) : List (Offer α) := s.arrived c ++ s.items

/-- Nobody but the caller waits in `shift`. -/
def State.ReadBy (s : State α) : Option Nat → Prop
  | none => s.readers = []
  | some call => s.readers = [] ∨ s.readers = [call]

@[simp] theorem arrived_none : s.arrived none = [] := rfl

/-- A call that waits has got nothing. -/
theorem result_of_waiting (h : Accounts s []) {call : Nat} (hmem : call ∈ s.readers) : s.result call = none := by
  have hnot : ∀ r ∈ s.returned, r.1 ≠ call := by
    intro r hr heq
    have hlt := (List.pairwise_append.mp h.order).2.2 r.1 (List.mem_map_of_mem hr) call hmem
    omega
  rw [State.result, List.find?_eq_none.mpr (by simpa using hnot), Option.map_none]

/-- A new call has got nothing. -/
theorem result_of_new (h : Accounts s []) : s.result s.calls = none := by
  have hnot : ∀ r ∈ s.returned, r.1 ≠ s.calls := by
    intro r hr heq
    have hlt := h.shifts r.1 (List.mem_append_left _ (List.mem_map_of_mem hr))
    omega
  rw [State.result, List.find?_eq_none.mpr (by simpa using hnot), Option.map_none]

/-- The call that a value is delivered to gets it. -/
theorem result_deliver {call : Nat} {o : Offer α} (h : s.result call = none) :
    (s.deliver call o).result call = some o := by
  rw [State.result, Option.map_eq_none_iff] at h
  rw [State.result, State.deliver, List.find?_append, h]
  simp

theorem result_congr (h : t.returned = s.returned) (call : Nat) : t.result call = s.result call := by
  rw [State.result, State.result, h]

theorem flow_congr (hreturned : t.returned = s.returned) (hitems : t.items = s.items) : t.flow c = s.flow c := by
  have hresult : t.result = s.result := funext fun call => result_congr hreturned call
  rw [State.flow, State.flow, State.arrived, State.arrived, hresult, hitems]

/-- What is stored comes at the end of the flow. -/
theorem flow_append {items : List (Offer α)} (hreturned : t.returned = s.returned)
    (hitems : t.items = s.items ++ items) : t.flow c = s.flow c ++ items := by
  have hresult : t.result = s.result := funext fun call => result_congr hreturned call
  rw [State.flow, State.flow, State.arrived, State.arrived, hresult, hitems, List.append_assoc]

/-! ## The operations -/

/-- `push` at an open queue, when its signal is not aborted. -/
theorem push_of_open {o : Offer α} (hopen : s.closed = false) :
    push capacity s o false = (s.place capacity o).getD { s with writers := s.writers ++ [o] } := by
  rw [push, if_neg (by simp), if_neg (by simp [hopen])]
  cases s.place capacity o <;> rfl

theorem place_of_reader {o : Offer α} {reader : Nat} {readers : List Nat} (hreaders : s.readers = reader :: readers) :
    s.place capacity o = some ({ s with readers := readers, accepted := s.accepted ++ [o] }.deliver reader o) := by
  rw [State.place, hreaders]

theorem place_of_room {o : Offer α} (hreaders : s.readers = []) (hroom : s.items.length < capacity) :
    s.place capacity o = some { s with items := s.items ++ [o], accepted := s.accepted ++ [o] } := by
  rw [State.place, hreaders]
  exact if_pos hroom

theorem place_of_full {o : Offer α} (hreaders : s.readers = []) (hfull : ¬ s.items.length < capacity) :
    s.place capacity o = none := by
  rw [State.place, hreaders]
  exact if_neg hfull

/-- What `push` does with a value: it is accepted, or waits. -/
inductive Pushed (s : State α) (c : Option Nat) (o : Offer α) (t : State α) : Prop where
  | accepted (none : s.writers = []) (accepted : t.accepted = s.accepted ++ [o]) (writers : t.writers = [])
      (flow : t.flow c = s.flow c ++ [o])
  | waits (accepted : t.accepted = s.accepted) (writers : t.writers = s.writers ++ [o]) (flow : t.flow c = s.flow c)

theorem push_flow (h : Inv capacity s) (hopen : s.closed = false) (hc : s.ReadBy c) (v : α) :
    let t := push capacity (s.offer v).1 (s.offer v).2 false
    t.ReadBy c ∧ t.closed = false ∧ t.offered = s.offered ++ [(s.offer v).2] ∧
      Pushed s c (s.offer v).2 t ∧ t.accepted ++ t.writers = s.accepted ++ s.writers ++ [(s.offer v).2] := by
  intro t
  have ht : t = ((s.offer v).1.place capacity (s.offer v).2).getD { (s.offer v).1 with
      writers := s.writers ++ [(s.offer v).2] } := push_of_open hopen
  cases hreaders : s.readers with
  | cons reader readers =>
    obtain ⟨hitems, hwriters, -⟩ := h.waits.readers (by simp [hreaders])
    obtain ⟨call, rfl, hcall⟩ : ∃ call, c = some call ∧ s.readers = [call] := by
      cases c with
      | none => simp [State.ReadBy, hreaders] at hc
      | some call => exact ⟨call, rfl, hc.resolve_left (by simp [hreaders])⟩
    obtain ⟨rfl, rfl⟩ : reader = call ∧ readers = [] := by
      have heq := hreaders.symm.trans hcall
      simpa using heq
    have hnone : s.result reader = none := result_of_waiting h.accounts (by simp [hreaders])
    have hplace : (s.offer v).1.place capacity (s.offer v).2 =
        some ({ (s.offer v).1 with readers := [], accepted := s.accepted ++ [(s.offer v).2] }.deliver reader
          (s.offer v).2) := place_of_reader hreaders
    rw [hplace, Option.getD_some] at ht
    have hresult : t.result reader = some (s.offer v).2 := by
      rw [ht]
      exact result_deliver hnone
    have hitems' : t.items = [] := by rw [ht]; exact hitems
    have hwriters' : t.writers = [] := by rw [ht]; exact hwriters
    have haccepted : t.accepted = s.accepted ++ [(s.offer v).2] := by rw [ht]; rfl
    refine ⟨?_, by rw [ht]; exact hopen, by rw [ht]; rfl, .accepted hwriters haccepted hwriters' ?_, ?_⟩
    · rw [ht]
      exact Or.inl rfl
    · simp [State.flow, State.arrived, hnone, hresult, hitems, hitems']
    · rw [haccepted, hwriters', hwriters]
      simp
  | nil =>
    have hreaders' : t.ReadBy c ∧ t.closed = false ∧ t.offered = s.offered ++ [(s.offer v).2] ∧
        t.returned = s.returned := by
      rw [ht]
      by_cases hroom : s.items.length < capacity
      · rw [place_of_room (s := (s.offer v).1) hreaders hroom]
        exact ⟨hc, hopen, rfl, rfl⟩
      · rw [place_of_full (s := (s.offer v).1) hreaders hroom]
        exact ⟨hc, hopen, rfl, rfl⟩
    obtain ⟨hreadBy, hclosed, hoffered, hreturned⟩ := hreaders'
    refine ⟨hreadBy, hclosed, hoffered, ?_⟩
    by_cases hroom : s.items.length < capacity
    · have hwriters : s.writers = [] := by
        by_contra hne
        have hfull := (h.waits.writers hne).1
        omega
      rw [place_of_room (s := (s.offer v).1) hreaders hroom, Option.getD_some] at ht
      have haccepted : t.accepted = s.accepted ++ [(s.offer v).2] := by rw [ht]; rfl
      have hwriters' : t.writers = [] := by rw [ht]; exact hwriters
      have hitems : t.items = s.items ++ [(s.offer v).2] := by rw [ht]; rfl
      refine ⟨.accepted hwriters haccepted hwriters' (flow_append hreturned hitems), ?_⟩
      rw [haccepted, hwriters', hwriters]
      simp
    · rw [place_of_full (s := (s.offer v).1) hreaders hroom, Option.getD_none] at ht
      have haccepted : t.accepted = s.accepted := by rw [ht]; rfl
      have hwriters : t.writers = s.writers ++ [(s.offer v).2] := by rw [ht]
      have hitems : t.items = s.items := by rw [ht]; rfl
      refine ⟨.waits haccepted hwriters (flow_congr hreturned hitems), ?_⟩
      rw [haccepted, hwriters, List.append_assoc]

/-- `push` whose signal is aborted already. -/
theorem push_aborted (v : α) :
    push capacity (s.offer v).1 (s.offer v).2 true = (s.offer v).1.refuse (s.offer v).2 := if_pos rfl

/-- What a new call of `shift` does: the call gets the first item, if there is one, and what it takes out of the
queue makes room for the first writer. -/
structure Shifted (s t : State α) (call : Nat) : Prop where
  readBy : t.ReadBy (some call)
  isOpen : t.closed = false
  offered : t.offered = s.offered
  line : t.accepted ++ t.writers = s.accepted ++ s.writers
  flow : ∃ admitted, s.writers = admitted ++ t.writers ∧ t.accepted = s.accepted ++ admitted ∧
    t.flow (some call) = s.items ++ admitted

theorem shift_flow (hpos : 0 < capacity) (h : Inv capacity s) (hopen : s.closed = false) (hc : s.readers = []) :
    Shifted s (shift { s with calls := s.calls + 1 } s.calls false) s.calls := by
  have hnone : s.result s.calls = none := result_of_new h.accounts
  by_cases hitems : s.items = []
  · have hwriters : s.writers = [] := by
      by_contra hne
      have hfull := (h.waits.writers hne).1
      rw [hitems, List.length_nil] at hfull
      omega
    have hwait : shift { s with calls := s.calls + 1 } s.calls false =
        { s with calls := s.calls + 1, readers := s.readers ++ [s.calls] } := by
      rw [shift_of_empty hitems hwriters]
      exact if_neg (by simp [hopen])
    rw [hwait]
    refine ⟨Or.inr (by simp [hc]), hopen, rfl, rfl, [], rfl, (List.append_nil _).symm, ?_⟩
    have hflow : State.flow { s with calls := s.calls + 1, readers := s.readers ++ [s.calls] } (some s.calls) =
        s.flow (some s.calls) := flow_congr rfl rfl
    rw [hflow, State.flow, State.arrived, Option.bind_some, hnone, hitems]
    rfl
  · obtain ⟨o, items, hitems⟩ := List.exists_cons_of_ne_nil hitems
    have hresult : (returnItem s o items).result s.calls = some o := result_deliver hnone
    have hflow : (returnItem s o items).flow (some s.calls) = s.items := by
      rw [State.flow, State.arrived, Option.bind_some, hresult, hitems]
      rfl
    rw [shift_of_item hitems]
    cases hwriters : s.writers with
    | nil =>
      have hsame : admitWriter (returnItem s o items) = returnItem s o items := by
        have hnil : (returnItem s o items).writers = [] := hwriters
        have hclosed : (returnItem s o items).closed = false := hopen
        rw [admitWriter, hnil]
        simp [hclosed]
      rw [hsame]
      exact ⟨Or.inl hc, hopen, rfl, rfl, [], rfl, (List.append_nil _).symm, by rw [hflow, List.append_nil]⟩
    | cons writer writers =>
      rw [admitWriter_of_writers (s := returnItem s o items) hwriters hc]
      refine ⟨Or.inl hc, hopen, rfl, ?_, [writer], by rw [hwriters]; rfl, rfl, ?_⟩
      · rw [hwriters]
        show s.accepted ++ [writer] ++ writers = _
        simp
      · rw [← hflow]
        exact flow_append rfl rfl

/-- The loop of `clear` stores the writers that wait. -/
theorem admitWriters_eq {fuel : Nat} (hreaders : s.readers = []) (hopen : s.closed = false)
    (hfuel : s.writers.length ≤ fuel) :
    admitWriters fuel s = { s with
      items := s.items ++ s.writers
      writers := []
      accepted := s.accepted ++ s.writers } := by
  induction fuel generalizing s with
  | zero =>
    have hwriters : s.writers = [] := List.eq_nil_of_length_eq_zero (by omega)
    cases s
    simp only at hwriters
    simp [admitWriters, hwriters]
  | succ fuel ih =>
    cases hwriters : s.writers with
    | nil =>
      cases s
      simp only at hwriters
      simp [admitWriters, hwriters]
    | cons writer writers =>
      let u : State α := { s with
        writers := writers
        items := s.items ++ [writer]
        accepted := s.accepted ++ [writer] }
      have hu : admitWriter s = u := admitWriter_of_writers hwriters hreaders
      rw [hwriters, List.length_cons] at hfuel
      have hlength : u.writers.length ≤ fuel := by
        show writers.length ≤ fuel
        omega
      rw [admitWriters, if_pos ⟨by simp [hwriters], hopen⟩, hu, ih (s := u) hreaders hopen hlength]
      simp [u]

/-- `clear` stores the writers in the place of the items. -/
theorem clear_eq (h : Inv capacity s) (hopen : s.closed = false) :
    clear s = { s with
      items := s.writers
      writers := []
      accepted := s.accepted ++ s.writers
      cleared := s.cleared ++ s.items } := by
  by_cases hwriters : s.writers = []
  · cases s
    simp only at hwriters hopen
    simp [clear, hwriters, admitWriters, hopen]
  · have hreaders : s.readers = [] := by
      by_contra hne
      exact hwriters (h.waits.readers hne).2.1
    have hadmit : admitWriters s.writers.length { s with items := [], cleared := s.cleared ++ s.items } =
        { s with
          items := s.writers
          writers := []
          accepted := s.accepted ++ s.writers
          cleared := s.cleared ++ s.items } :=
      admitWriters_eq (s := throwItems s) hreaders hopen (le_refl s.writers.length)
    rw [clear, hadmit]
    exact if_neg (by simp [hopen])

end Rtvbp.TypeScript.QueueMachine
