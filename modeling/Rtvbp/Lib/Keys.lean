import Mathlib.Data.List.Nodup

/-! # Lists with distinct keys -/

/-!
## Lookup in lists with distinct keys

In an association list with distinct keys the value of a key is found wherever it stands, so that
lookups reduce to membership.
-/

namespace Rtvbp.Lib

variable {κ ν : Type*} [BEq κ] [LawfulBEq κ] {l : List (κ × ν)} {k : κ} {v : ν}

theorem mem_of_lookup_eq_some (h : l.lookup k = some v) : (k, v) ∈ l := by
  obtain ⟨l₁, l₂, rfl, -⟩ := List.lookup_eq_some_iff.mp h
  simp

theorem lookup_eq_some_iff_mem (hnd : (l.map Prod.fst).Nodup) :
    l.lookup k = some v ↔ (k, v) ∈ l := by
  refine ⟨mem_of_lookup_eq_some, fun h => ?_⟩
  obtain ⟨l₁, l₂, rfl⟩ := List.append_of_mem h
  refine List.lookup_eq_some_iff.mpr ⟨l₁, l₂, rfl, fun p hp => ?_⟩
  simp only [List.map_append, List.map_cons, List.nodup_append, List.mem_map, List.mem_cons] at hnd
  have hne := hnd.2.2 p.1 ⟨p, hp, rfl⟩ k (Or.inl rfl)
  simpa using fun e => hne e.symm

theorem lookup_eq_none_of_forall_ne (h : ∀ p ∈ l, p.1 ≠ k) : l.lookup k = none :=
  List.lookup_eq_none_iff.mpr fun p hp => by simpa using fun e => h p hp e.symm

/-- What a pass that collects the names of its items checks, item by item. -/
theorem new_names_cons {α β : Type} {name : α → β} {P : α → Prop} {earlier : List β} {item : α}
    {items : List α} :
    ((name item ∉ earlier ∧ P item) ∧
        (items.map name).Nodup ∧ ∀ other ∈ items, name other ∉ name item :: earlier ∧ P other) ↔
      ((item :: items).map name).Nodup ∧ ∀ other ∈ item :: items, name other ∉ earlier ∧ P other := by
  rw [List.map_cons, List.nodup_cons]
  constructor
  · rintro ⟨hitem, hunique, hrest⟩
    refine ⟨⟨?_, hunique⟩, fun other hother => ?_⟩
    · intro hmem
      obtain ⟨other, hother, heq⟩ := List.mem_map.mp hmem
      exact (hrest other hother).1 (by rw [heq]; exact List.mem_cons_self)
    · rcases List.mem_cons.mp hother with rfl | hother
      · exact hitem
      · obtain ⟨hnew, hP⟩ := hrest other hother
        exact ⟨fun hmem => hnew (List.mem_cons_of_mem _ hmem), hP⟩
  · rintro ⟨⟨hnotMem, hunique⟩, hall⟩
    refine ⟨hall item List.mem_cons_self, hunique, fun other hother => ?_⟩
    obtain ⟨hnew, hP⟩ := hall other (List.mem_cons_of_mem _ hother)
    refine ⟨fun hmem => ?_, hP⟩
    rcases List.mem_cons.mp hmem with heq | hmem
    · exact hnotMem (List.mem_map.mpr ⟨other, hother, heq⟩)
    · exact hnew hmem

end Rtvbp.Lib

/-!
## Scans that insert keys in a set

The loop `for x in xs { check(x); if !seen.insert(key(x)) { issues.push(repeated(x)) } }`, which
collects the issues of the single elements and one issue for every element whose key was seen before.
-/

namespace Rtvbp.Lib

variable {α κ ε : Type*} [DecidableEq κ]

/-- The issues collected by the scan of a list, where `seen` are the keys already in the set. -/
def scan (key : α → κ) (check : α → List ε) (repeated : α → ε) : List κ → List α → List ε
  | _, [] => []
  | seen, x :: xs =>
    check x ++ (if key x ∈ seen then [repeated x] else []) ++
      scan key check repeated (key x :: seen) xs

/-- A scan finds no issue exactly when every element passes its check and all keys are new. -/
theorem scan_eq_nil_iff {key : α → κ} {check : α → List ε} {repeated : α → ε} {seen : List κ}
    {xs : List α} :
    scan key check repeated seen xs = [] ↔
      (∀ x ∈ xs, check x = []) ∧ (xs.map key).Nodup ∧ ∀ x ∈ xs, key x ∉ seen := by
  induction xs generalizing seen with
  | nil => simp [scan]
  | cons x xs ih =>
    have hnew : (if key x ∈ seen then [repeated x] else []) = [] ↔ key x ∉ seen := by
      split_ifs with h <;> simp [h]
    simp only [scan, List.append_eq_nil_iff, hnew, ih, List.mem_cons, forall_eq_or_imp,
      List.map_cons, List.nodup_cons, List.mem_map, not_or]
    constructor
    · rintro ⟨⟨hc, hx⟩, hcs, hnd, hxs⟩
      exact ⟨⟨hc, hcs⟩, ⟨fun ⟨y, hy, e⟩ => (hxs y hy).1 e, hnd⟩, hx, fun y hy => (hxs y hy).2⟩
    · rintro ⟨⟨hc, hcs⟩, ⟨hfresh, hnd⟩, hx, hxs⟩
      exact ⟨⟨hc, hx⟩, hcs, hnd, fun y hy => ⟨fun e => hfresh ⟨y, hy, e⟩, hxs y hy⟩⟩

end Rtvbp.Lib
