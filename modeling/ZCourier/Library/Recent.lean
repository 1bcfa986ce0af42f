import Mathlib.Data.List.Basic

/-!
# The most recent elements

A buffer of bounded size that drops its oldest element when it is full holds the most recent
elements of all that were put into it. `push_recent` is the step, `mem_recent_iff` says which
elements these are.
-/

namespace ZCourier.Library

variable {α : Type}

/-- Put an element at the end of a buffer; a full one drops its first element. -/
def push (capacity : Nat) (buffer : List α) (a : α) : List α :=
  if capacity ≤ buffer.length then buffer.tail ++ [a] else buffer ++ [a]

/-- The last elements of a list. -/
def recent (capacity : Nat) (all : List α) : List α := all.drop (all.length - capacity)

variable {capacity : Nat} {all : List α} {a : α}

@[simp] theorem length_recent : (recent capacity all).length = min capacity all.length := by
  rw [recent, List.length_drop]
  omega

theorem push_recent (hcapacity : 0 < capacity) :
    push capacity (recent capacity all) a = recent capacity (all ++ [a]) := by
  unfold push
  rw [length_recent, recent, recent, List.length_append, List.length_singleton]
  split
  · next hfull =>
    have hlength : capacity ≤ all.length := Nat.le_trans hfull (Nat.min_le_right _ _)
    rw [List.tail_drop, List.drop_append_of_le_length (by omega),
      show all.length + 1 - capacity = all.length - capacity + 1 by omega]
  · next hroom =>
    have hlength : all.length < capacity := by omega
    rw [Nat.sub_eq_zero_of_le (Nat.le_of_lt hlength), Nat.sub_eq_zero_of_le hlength]
    rfl

theorem mem_recent_iff :
    a ∈ recent capacity all ↔ ∃ i, all.length ≤ i + capacity ∧ all[i]? = some a := by
  rw [recent, List.mem_iff_getElem?]
  constructor
  · rintro ⟨i, hi⟩
    rw [List.getElem?_drop] at hi
    exact ⟨_, by omega, hi⟩
  · rintro ⟨i, hle, hi⟩
    refine ⟨i - (all.length - capacity), ?_⟩
    rw [List.getElem?_drop, ← hi]
    congr 1
    omega

end ZCourier.Library
