import Mathlib.Tactic

/-!
# Ring buffers

What the users of a bounded buffer rely on. A write takes as much as fits and a read hands out the oldest items; where
nothing can be taken or handed out, the caller waits. A buffer is closed with its content left to be read.
-/

namespace Rtvbp.Lib

/-- The operations of a buffer of `α` with the states `ρ`; a call that waits is a sequence of turns. -/
structure RingBuffer (ρ α : Type*) where
  new : ρ
  items : ρ → List α
  closed : ρ → Bool
  /-- One turn of a write: how much of the data was taken. -/
  write : ρ → List α → ℕ × ρ
  /-- One turn of a read of at most so many items. -/
  read : ρ → ℕ → List α × ρ
  close : ρ → ρ

namespace RingBuffer

variable {ρ α : Type*} (ring : RingBuffer ρ α)

/-- The buffer is a queue, and a turn comes to nothing only if the buffer is empty or has no space. -/
structure Lawful : Prop where
  items_new : ring.items ring.new = []
  write_le : ∀ r data, (ring.write r data).1 ≤ data.length
  items_write : ∀ r data, ring.items (ring.write r data).2 = ring.items r ++ data.take (ring.write r data).1
  write_ne_zero : ∀ r data, ring.closed r = false → ring.items r = [] → data ≠ [] → (ring.write r data).1 ≠ 0
  items_read : ∀ r n, (ring.read r n).1 ++ ring.items (ring.read r n).2 = ring.items r
  read_le : ∀ r n, (ring.read r n).1.length ≤ n
  read_ne_nil : ∀ r n, ring.items r ≠ [] → n ≠ 0 → (ring.read r n).1 ≠ []
  items_close : ∀ r, ring.items (ring.close r) = ring.items r

/-- A buffer with a capacity, as a list and whether it is closed. -/
def bounded (α : Type*) (capacity : ℕ) : RingBuffer (List α × Bool) α where
  new := ([], false)
  items r := r.1
  closed r := r.2
  write r data :=
    let n := if r.2 then 0 else min data.length (capacity - r.1.length)
    (n, (r.1 ++ data.take n, r.2))
  read r n := (r.1.take n, (r.1.drop n, r.2))
  close r := (r.1, true)

theorem lawful_bounded {capacity : ℕ} (h : 0 < capacity) : (bounded α capacity).Lawful where
  items_new := rfl
  write_le r data := by
    simp only [bounded]
    split_ifs <;> simp
  items_write _ _ := rfl
  write_ne_zero r data hopen hitems hdata := by
    have hlength : 0 < data.length := List.length_pos_iff.mpr hdata
    have hempty : r.1 = [] := hitems
    have hclosed : r.2 = false := hopen
    simp only [bounded, hclosed, hempty, List.length_nil, Bool.false_eq_true, if_false]
    omega
  items_read r n := List.take_append_drop n r.1
  read_le r n := List.length_take_le n r.1
  read_ne_nil r n hitems hn hnil := by
    obtain h | h := List.take_eq_nil_iff.mp hnil
    · exact hn h
    · exact hitems h
  items_close _ := rfl

end RingBuffer

end Rtvbp.Lib
