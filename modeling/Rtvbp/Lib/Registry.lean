import Rtvbp.Lib.Keys
import Rtvbp.Lib.Agree

/-!
# Registries with conflicts

A registry holds one value for each name. Registering a value under a name that is taken fails unless it agrees with
the value there, which stays. Where agreement is an equivalence, entries can be registered exactly if those of one name
agree, so that the order in which they come decides neither whether they can be, nor what the registry is up to
agreement.
-/

namespace Rtvbp.Lib

variable {κ α ε : Type} [BEq κ] {agree : α → α → Bool} {conflict : κ → ε}

/-- Register an entry. -/
def register (agree : α → α → Bool) (conflict : κ → ε) (registry : List (κ × α)) (entry : κ × α) :
    Except ε (List (κ × α)) :=
  match registry.lookup entry.1 with
  | some existing => if agree existing entry.2 then .ok registry else .error (conflict entry.1)
  | none => .ok (registry ++ [entry])

/-- Register entries one after the other. -/
def registerAll (agree : α → α → Bool) (conflict : κ → ε) (registry : List (κ × α)) :
    List (κ × α) → Except ε (List (κ × α))
  | [] => .ok registry
  | entry :: entries => do
    let registry ← register agree conflict registry entry
    registerAll agree conflict registry entries

/-- Registering a list and then another one is registering both. -/
theorem registerAll_append (first second : List (κ × α)) :
    ∀ registry : List (κ × α), registerAll agree conflict registry (first ++ second) =
      registerAll agree conflict registry first >>= fun registry => registerAll agree conflict registry second := by
  induction first with
  | nil => intro registry; rfl
  | cons entry first ih =>
    intro registry
    rw [List.cons_append, registerAll, registerAll]
    cases register agree conflict registry entry with
    | error e => rfl
    | ok registry => exact ih registry

theorem registerAll_append_eq_ok_iff {registry registry' first second : List (κ × α)} :
    registerAll agree conflict registry (first ++ second) = .ok registry' ↔
      ∃ middle, registerAll agree conflict registry first = .ok middle ∧
        registerAll agree conflict middle second = .ok registry' := by
  rw [registerAll_append]
  constructor
  · exact exists_of_bind_eq_ok
  · rintro ⟨middle, hfirst, hsecond⟩
    rw [hfirst]
    exact hsecond

/-- The registry is what its entries say: it has no other ones, and a value for each of them that agrees with it. -/
structure Represents (agree : α → α → Bool) (entries registry : List (κ × α)) : Prop where
  nodup : (registry.map Prod.fst).Nodup
  mem : ∀ entry ∈ registry, entry ∈ entries
  agrees : ∀ entry ∈ entries, ∃ v, registry.lookup entry.1 = some v ∧ agree v entry.2 = true

/-- Entries of one name agree. -/
def Consistent (agree : α → α → Bool) (entries : List (κ × α)) : Prop :=
  ∀ entry ∈ entries, ∀ other ∈ entries, entry.1 = other.1 → agree entry.2 other.2 = true

/-- Agreement is an equivalence on the values that satisfy `p`. -/
structure EquivalenceOn (p : α → Prop) (agree : α → α → Bool) : Prop where
  refl : ∀ v, p v → agree v v = true
  symm : ∀ v w, p v → p w → agree v w = true → agree w v = true
  trans : ∀ u v w, p u → p v → p w → agree u v = true → agree v w = true → agree u w = true

theorem Represents.nil : Represents agree ([] : List (κ × α)) [] := ⟨by simp, by simp, by simp⟩

/-! ## One entry -/

theorem register_eq_ok_iff {registry registry' : List (κ × α)} {entry : κ × α} :
    register agree conflict registry entry = .ok registry' ↔
      (∃ existing, registry.lookup entry.1 = some existing ∧ agree existing entry.2 = true ∧ registry' = registry) ∨
        registry.lookup entry.1 = none ∧ registry' = registry ++ [entry] := by
  rw [register]
  cases hlookup : registry.lookup entry.1 with
  | none =>
    constructor
    · intro h
      exact Or.inr ⟨rfl, (Except.ok.inj h).symm⟩
    · rintro (⟨existing, hsome, -⟩ | ⟨-, rfl⟩)
      · cases hsome
      · rfl
  | some existing =>
    by_cases hagree : agree existing entry.2 = true
    · constructor
      · intro h
        simp only [hagree, if_true] at h
        exact Or.inl ⟨existing, rfl, hagree, (Except.ok.inj h).symm⟩
      · rintro (⟨-, -, -, rfl⟩ | ⟨hnone, -⟩)
        · simp only [hagree, if_true]
        · cases hnone
    · constructor
      · intro h
        simp only [hagree] at h
        cases h
      · rintro (⟨other, hsome, hother, -⟩ | ⟨hnone, -⟩)
        · obtain rfl := Option.some.inj hsome
          exact absurd hother hagree
        · cases hnone

variable [LawfulBEq κ]

/-- The registry grows by entries: what is there stays, and every one of the entries has a value now. -/
structure Extends (new registry registry' : List (κ × α)) : Prop where
  keeps : ∀ name v, registry.lookup name = some v → registry'.lookup name = some v
  mem : ∀ entry ∈ registry', entry ∈ registry ∨ entry ∈ new
  has : ∀ entry ∈ new, ∃ v, registry'.lookup entry.1 = some v

theorem extends_of_register {registry registry' : List (κ × α)} {entry : κ × α}
    (h : register agree conflict registry entry = .ok registry') : Extends [entry] registry registry' := by
  rcases register_eq_ok_iff.1 h with ⟨existing, hlookup, -, rfl⟩ | ⟨hnone, rfl⟩
  · refine ⟨fun _ _ hname => hname, fun other hother => Or.inl hother, ?_⟩
    exact List.forall_mem_singleton.mpr ⟨existing, hlookup⟩
  · have hlookup : (registry ++ [entry]).lookup entry.1 = some entry.2 := by
      rw [List.lookup_append, hnone, Option.none_or, List.lookup_cons_self]
    refine ⟨fun name v hname => ?_, fun other => List.mem_append.mp, List.forall_mem_singleton.mpr ⟨_, hlookup⟩⟩
    rw [List.lookup_append, hname, Option.some_or]

/-- A registry of some entries becomes one of these and the new entry. -/
theorem Represents.register {p : α → Prop} {entries registry registry' : List (κ × α)} {entry : κ × α}
    (hequivalence : EquivalenceOn p agree) (hentry : p entry.2) (h : Represents agree entries registry)
    (hregister : Lib.register agree conflict registry entry = .ok registry') :
    Represents agree (entries ++ [entry]) registry' := by
  have hextends := extends_of_register hregister
  have hmem : ∀ other ∈ registry', other ∈ entries ++ [entry] := by
    intro other hother
    rcases hextends.mem other hother with hother | hother
    · exact List.mem_append_left _ (h.mem other hother)
    · exact List.mem_append_right _ hother
  have hkept : ∀ other ∈ entries, ∃ v, registry'.lookup other.1 = some v ∧ agree v other.2 = true := by
    intro other hother
    obtain ⟨v, hlookup, hagree⟩ := h.agrees other hother
    exact ⟨v, hextends.keeps _ _ hlookup, hagree⟩
  rcases register_eq_ok_iff.1 hregister with ⟨existing, hlookup, hagree, rfl⟩ | ⟨hnone, rfl⟩
  · refine ⟨h.nodup, hmem, List.forall_mem_append.mpr ⟨hkept, ?_⟩⟩
    exact List.forall_mem_singleton.mpr ⟨existing, hlookup, hagree⟩
  · have hnew : entry.1 ∉ registry.map Prod.fst := by
      intro hname
      obtain ⟨other, hother, heq⟩ := List.mem_map.mp hname
      have hsome := (lookup_eq_some_iff_mem h.nodup).mpr hother
      rw [heq, hnone] at hsome
      cases hsome
    have hlookup : (registry ++ [entry]).lookup entry.1 = some entry.2 := by
      rw [List.lookup_append, hnone, Option.none_or, List.lookup_cons_self]
    refine ⟨?_, hmem, List.forall_mem_append.mpr ⟨hkept, ?_⟩⟩
    · rw [List.map_append]
      exact h.nodup.append (List.nodup_singleton _) (List.disjoint_singleton.mpr hnew)
    · exact List.forall_mem_singleton.mpr ⟨entry.2, hlookup, hequivalence.refl _ hentry⟩

/-! ## All entries -/

theorem extends_of_registerAll {new : List (κ × α)} :
    ∀ {registry registry' : List (κ × α)}, registerAll agree conflict registry new = .ok registry' →
      Extends new registry registry' := by
  induction new with
  | nil =>
    intro registry registry' h
    obtain rfl : registry = registry' := Except.ok.inj h
    exact ⟨fun _ _ hname => hname, fun _ hother => Or.inl hother, by simp⟩
  | cons entry new ih =>
    intro registry registry' h
    rw [registerAll] at h
    obtain ⟨middle, hmiddle, hrest⟩ := exists_of_bind_eq_ok h
    have hfirst := extends_of_register hmiddle
    have hlater := ih hrest
    refine ⟨fun name v hname => hlater.keeps name v (hfirst.keeps name v hname), fun other hother => ?_, ?_⟩
    · rcases hlater.mem other hother with hother | hother
      · rcases hfirst.mem other hother with hother | hother
        · exact Or.inl hother
        · obtain rfl := List.mem_singleton.mp hother
          exact Or.inr List.mem_cons_self
      · exact Or.inr (List.mem_cons_of_mem _ hother)
    · obtain ⟨v, hlookup⟩ := hfirst.has entry (List.mem_singleton_self _)
      exact List.forall_mem_cons.mpr ⟨⟨v, hlater.keeps _ _ hlookup⟩, hlater.has⟩

/-- What is registered is a registry of the entries. -/
theorem Represents.registerAll {p : α → Prop} (hequivalence : EquivalenceOn p agree) {new : List (κ × α)} :
    ∀ {entries registry registry' : List (κ × α)}, (∀ entry ∈ new, p entry.2) → Represents agree entries registry →
      registerAll agree conflict registry new = .ok registry' → Represents agree (entries ++ new) registry' := by
  induction new with
  | nil =>
    intro entries registry registry' _ h hall
    obtain rfl : registry = registry' := Except.ok.inj hall
    rwa [List.append_nil]
  | cons entry new ih =>
    intro entries registry registry' hnew h hall
    rw [Lib.registerAll] at hall
    obtain ⟨middle, hmiddle, hrest⟩ := exists_of_bind_eq_ok hall
    have hstep := h.register hequivalence (hnew entry List.mem_cons_self) hmiddle
    have hrun := ih (fun other hother => hnew other (List.mem_cons_of_mem _ hother)) hstep hrest
    rwa [List.append_assoc] at hrun

/-- What is registered from the start is a registry of the entries. -/
theorem represents_of_registerAll {p : α → Prop} {entries registry : List (κ × α)}
    (hequivalence : EquivalenceOn p agree) (hentries : ∀ entry ∈ entries, p entry.2)
    (h : registerAll agree conflict [] entries = .ok registry) : Represents agree entries registry :=
  Represents.nil.registerAll hequivalence hentries h

/-- The entries of a registry are consistent. -/
theorem Represents.consistent {p : α → Prop} {entries registry : List (κ × α)} (hequivalence : EquivalenceOn p agree)
    (hentries : ∀ entry ∈ entries, p entry.2) (h : Represents agree entries registry) : Consistent agree entries := by
  intro entry hentry other hother heq
  obtain ⟨v, hlookup, hagree⟩ := h.agrees entry hentry
  obtain ⟨w, hlookup', hagree'⟩ := h.agrees other hother
  have hsame : v = w := by
    rw [heq, hlookup'] at hlookup
    exact (Option.some.inj hlookup).symm
  subst hsame
  have hv : p v := hentries _ (h.mem _ (mem_of_lookup_eq_some hlookup))
  have hback := hequivalence.symm v entry.2 hv (hentries entry hentry) hagree
  exact hequivalence.trans entry.2 v other.2 (hentries entry hentry) hv (hentries other hother) hback hagree'

/-- Consistent entries can be registered. -/
theorem registerAll_of_consistent {p : α → Prop} (hequivalence : EquivalenceOn p agree) {new : List (κ × α)} :
    ∀ {entries registry : List (κ × α)}, (∀ entry ∈ new, p entry.2) → Represents agree entries registry →
      Consistent agree (entries ++ new) → ∃ registry', registerAll agree conflict registry new = .ok registry' := by
  induction new with
  | nil =>
    intro entries registry _ _ _
    exact ⟨registry, rfl⟩
  | cons entry new ih =>
    intro entries registry hnew h hconsistent
    have hmem : entry ∈ entries ++ entry :: new := List.mem_append_right _ List.mem_cons_self
    have hfirst : ∃ middle, register agree conflict registry entry = .ok middle := by
      cases hlookup : registry.lookup entry.1 with
      | none => exact ⟨_, register_eq_ok_iff.2 (Or.inr ⟨hlookup, rfl⟩)⟩
      | some existing =>
        have hexisting : (entry.1, existing) ∈ entries := h.mem _ (mem_of_lookup_eq_some hlookup)
        have hagree := hconsistent _ (List.mem_append_left _ hexisting) entry hmem rfl
        exact ⟨registry, register_eq_ok_iff.2 (Or.inl ⟨existing, hlookup, hagree, rfl⟩)⟩
    obtain ⟨middle, hmiddle⟩ := hfirst
    have hstep := h.register hequivalence (hnew entry List.mem_cons_self) hmiddle
    obtain ⟨registry', hrest⟩ := ih (fun other hother => hnew other (List.mem_cons_of_mem _ hother)) hstep
      (by rwa [List.append_assoc])
    exact ⟨registry', by rw [registerAll, hmiddle]; exact hrest⟩

/-- Entries can be registered exactly if they are consistent. -/
theorem registerAll_eq_ok_iff {p : α → Prop} {entries : List (κ × α)} (hequivalence : EquivalenceOn p agree)
    (hentries : ∀ entry ∈ entries, p entry.2) :
    (∃ registry, registerAll agree conflict [] entries = .ok registry) ↔ Consistent agree entries := by
  constructor
  · rintro ⟨registry, hall⟩
    exact (represents_of_registerAll hequivalence hentries hall).consistent hequivalence hentries
  · exact registerAll_of_consistent hequivalence hentries Represents.nil

/-- Two registries of the same entries agree at every name. -/
theorem Represents.lookup_agree {p : α → Prop} {entries entries' registry registry' : List (κ × α)}
    (hequivalence : EquivalenceOn p agree) (hentries : ∀ entry ∈ entries, p entry.2)
    (hsame : ∀ entry, entry ∈ entries ↔ entry ∈ entries') (h : Represents agree entries registry)
    (h' : Represents agree entries' registry') (name : κ) :
    Option.Rel (fun v w => agree v w = true) (registry.lookup name) (registry'.lookup name) := by
  cases hlookup : registry.lookup name with
  | some v =>
    have hmem : (name, v) ∈ entries := h.mem _ (mem_of_lookup_eq_some hlookup)
    obtain ⟨w, hlookup', hagree⟩ := h'.agrees (name, v) ((hsame _).mp hmem)
    have hmem' : (name, w) ∈ entries := (hsame _).mpr (h'.mem _ (mem_of_lookup_eq_some hlookup'))
    have hlookup'' : registry'.lookup name = some w := hlookup'
    rw [hlookup'']
    exact .some (hequivalence.symm w v (hentries _ hmem') (hentries _ hmem) hagree)
  | none =>
    cases hlookup' : registry'.lookup name with
    | none => exact .none
    | some w =>
      have hmem : (name, w) ∈ entries := (hsame _).mpr (h'.mem _ (mem_of_lookup_eq_some hlookup'))
      obtain ⟨v, hsome, -⟩ := h.agrees (name, w) hmem
      have hsome' : registry.lookup name = some v := hsome
      rw [hlookup] at hsome'
      cases hsome'

end Rtvbp.Lib
