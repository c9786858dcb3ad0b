import Mathlib.Data.List.Sort
import Mathlib.Tactic

/-!
# Lists in another order

The items of a list in another order, where each of them may be changed along a relation. What is read of the items
without seeing that change is the same up to the order, and a list that is sorted by distinct names is the same list.
-/

namespace Rtvbp.Lib

variable {α β : Type} {R : α → α → Prop} {items others : List α}

/-- The items, each of them changed along `R`, are the others in some order. -/
def Reordered (R : α → α → Prop) (items others : List α) : Prop :=
  ∃ middle, List.Forall₂ R items middle ∧ middle.Perm others

/-- Without a change there is only the order. -/
theorem reordered_of_perm (hR : ∀ a, R a a) (h : items.Perm others) : Reordered R items others :=
  ⟨items, List.forall₂_same.mpr fun a _ => hR a, h⟩

theorem Reordered.symm (hR : ∀ a b, R a b → R b a) (h : Reordered R items others) : Reordered R others items := by
  obtain ⟨middle, hmiddle, hperm⟩ := h
  have hback : List.Forall₂ R middle items := hmiddle.flip.imp fun a b hab => hR b a hab
  exact List.perm_comp_forall₂ hperm.symm hback

/-- What is read of the items without seeing the change. -/
theorem Reordered.map_perm {f : α → β} (hf : ∀ a ∈ items, ∀ b, R a b → f a = f b) (h : Reordered R items others) :
    (items.map f).Perm (others.map f) := by
  obtain ⟨middle, hmiddle, hperm⟩ := h
  have hmap : items.map f = middle.map f := by
    clear hperm
    induction hmiddle with
    | nil => rfl
    | cons hfirst _ ih =>
      rw [List.forall_mem_cons] at hf
      rw [List.map_cons, List.map_cons, hf.1 _ hfirst, ih hf.2]
  rw [hmap]
  exact hperm.map f

theorem exists_of_mem_right {S : α → β → Prop} {results : List β} {b : β} (h : List.Forall₂ S items results)
    (hb : b ∈ results) : ∃ a ∈ items, S a b := by
  induction h with
  | nil => cases hb
  | cons hfirst _ ih =>
    rcases List.mem_cons.mp hb with rfl | hb
    · exact ⟨_, List.mem_cons_self, hfirst⟩
    · obtain ⟨a, ha, hab⟩ := ih hb
      exact ⟨a, List.mem_cons_of_mem _ ha, hab⟩

/-- Each of the others is one of the items, changed. -/
theorem Reordered.exists_mem {b : α} (h : Reordered R items others) (hb : b ∈ others) : ∃ a ∈ items, R a b := by
  obtain ⟨middle, hmiddle, hperm⟩ := h
  exact exists_of_mem_right hmiddle (hperm.mem_iff.mpr hb)

/-! ## Results in another order -/

/-- Results of the items are results of the others, in their order. -/
theorem Reordered.exists_results {S : α → β → Prop} {results : List β} (h : Reordered R items others)
    (hS : ∀ a ∈ items, ∀ b r, R a b → S a r → S b r) (hresults : List.Forall₂ S items results) :
    ∃ results', List.Forall₂ S others results' ∧ results.Perm results' := by
  obtain ⟨middle, hmiddle, hperm⟩ := h
  have hmoved : List.Forall₂ S middle results := by
    clear hperm
    induction hmiddle generalizing results with
    | nil => exact hresults
    | cons hfirst _ ih =>
      cases hresults with
      | cons hresult hrest =>
        rw [List.forall_mem_cons] at hS
        exact .cons (hS.1 _ _ hfirst hresult) (ih hS.2 hrest)
  obtain ⟨results', hall, hback⟩ := List.perm_comp_forall₂ hperm.symm hmoved
  exact ⟨results', hall, hback.symm⟩

theorem map_eq_map_of_forall₂ {γ : Type} {f : α → γ} {g : β → γ} {results : List β}
    (h : List.Forall₂ (fun a b => f a = g b) items results) : items.map f = results.map g := by
  rw [← List.forall₂_eq_eq_eq, List.forall₂_map_left_iff, List.forall₂_map_right_iff]
  exact h

/-- A computation on each item succeeds exactly if it does so on every item. -/
theorem mapM_eq_ok_iff {ε : Type} {f : α → Except ε β} {results : List β} :
    items.mapM f = .ok results ↔ List.Forall₂ (fun a b => f a = .ok b) items results := by
  induction items generalizing results with
  | nil =>
    rw [List.mapM_nil, List.forall₂_nil_left_iff]
    constructor
    · intro h
      exact (Except.ok.inj h).symm
    · rintro rfl
      rfl
  | cons a items ih =>
    rw [List.mapM_cons, List.forall₂_cons_left_iff]
    constructor
    · intro h
      cases hfirst : f a with
      | error e =>
        rw [hfirst] at h
        cases h
      | ok b =>
        rw [hfirst] at h
        cases hrest : items.mapM f with
        | error e =>
          rw [hrest] at h
          cases h
        | ok rest =>
          rw [hrest] at h
          exact ⟨b, rest, rfl, ih.mp hrest, (Except.ok.inj h).symm⟩
    · rintro ⟨b, rest, hfirst, hrest, rfl⟩
      rw [hfirst, ih.mpr hrest]
      rfl

/-! ## Sorting by distinct names -/

theorem insertionSort_eq_of_perm {κ : Type} [LinearOrder κ] {name : α → κ} (hnodup : (items.map name).Nodup)
    (h : items.Perm others) :
    items.insertionSort (fun left right => name left ≤ name right) =
      others.insertionSort fun left right => name left ≤ name right := by
  have : Std.Total fun left right : α => name left ≤ name right := ⟨fun left right => le_total _ _⟩
  have : IsTrans α fun left right => name left ≤ name right := ⟨fun _ _ _ => le_trans⟩
  have hperm := (List.perm_insertionSort (fun left right => name left ≤ name right) items).trans
    (h.trans (List.perm_insertionSort (fun left right => name left ≤ name right) others).symm)
  refine hperm.eq_of_pairwise ?_ (List.pairwise_insertionSort _ _) (List.pairwise_insertionSort _ _)
  intro a b ha hb hab hba
  have ha' : a ∈ items := (List.mem_insertionSort _).mp ha
  have hb' : b ∈ items := h.mem_iff.mpr ((List.mem_insertionSort _).mp hb)
  exact List.inj_on_of_nodup_map hnodup ha' hb' (le_antisymm hab hba)

end Rtvbp.Lib
