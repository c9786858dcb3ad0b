import Mathlib.Data.List.Range

/-!
# Items at positions

A stream that cuts, holds back or drops its input is described by the positions of the items: `l.zipIdx n` carries
the position of every item of an input that begins at `n`. What may leave the stream are items of the input at
increasing positions, so that nothing is repeated, invented or reordered.
-/

namespace Rtvbp.Lib

variable {α : Type*} {input : List α} {l l' : List (α × Nat)}

/-- Items of an input, at increasing positions. -/
structure Increasing (input : List α) (l : List (α × Nat)) : Prop where
  ordered : (l.map Prod.snd).Pairwise (· < ·)
  genuine : ∀ b ∈ l, input[b.2]? = some b.1

namespace Increasing

theorem nil : Increasing input [] where
  ordered := List.Pairwise.nil
  genuine _ hb := absurd hb List.not_mem_nil

theorem sublist (h : Increasing input l') (hsub : l.Sublist l') : Increasing input l where
  ordered := h.ordered.sublist (hsub.map Prod.snd)
  genuine b hb := h.genuine b (hsub.subset hb)

/-- The positions are those of the input. -/
theorem lt_length (h : Increasing input l) {b : α × Nat} (hb : b ∈ l) : b.2 < input.length := by
  have hsome := h.genuine b hb
  exact (List.getElem?_eq_some_iff.mp hsome).1

theorem extend (h : Increasing input l) (data : List α) : Increasing (input ++ data) l where
  ordered := h.ordered
  genuine b hb := by
    rw [List.getElem?_append_left (h.lt_length hb)]
    exact h.genuine b hb

/-- The next input comes after all the items before it. -/
theorem append (h : Increasing input l) (data : List α) :
    Increasing (input ++ data) (l ++ data.zipIdx input.length) where
  ordered := by
    rw [List.map_append, List.pairwise_append, List.zipIdx_map_snd]
    refine ⟨h.ordered, List.pairwise_lt_range', ?_⟩
    intro i hi j hj
    obtain ⟨b, hb, rfl⟩ := List.mem_map.mp hi
    have hlt := h.lt_length hb
    have hle := (List.mem_range'_1.mp hj).1
    omega
  genuine b hb := by
    rcases List.mem_append.mp hb with hb | hb
    · exact (h.extend data).genuine b hb
    · obtain ⟨hle, -, heq⟩ := List.mem_zipIdx (x := b.1) (i := b.2) hb
      rw [List.getElem?_append_right hle, heq]
      exact List.getElem?_eq_getElem _

end Increasing

end Rtvbp.Lib
