import Mathlib.Data.List.Infix

/-!
# Searching for a pattern

`index` finds the first occurrence of a pattern in a list. What it finds is stated as a cut of the
list: the part before the occurrence, the pattern and the rest, where the pattern does not occur in
the part before.
-/

namespace ZCourier.Library

variable {α : Type} [DecidableEq α]

/-- The position of the first occurrence of a pattern. -/
def index (pattern : List α) : List α → Option Nat
  | [] => if pattern = [] then some 0 else none
  | a :: l => if pattern <+: a :: l then some 0 else (index pattern l).map (· + 1)

variable {pattern l : List α}

theorem index_eq_none : index pattern l = none ↔ ¬ pattern <:+: l := by
  induction l with
  | nil =>
    rw [index, List.infix_nil]
    split <;> simp_all
  | cons a l ih =>
    rw [index, List.infix_cons_iff, not_or]
    split
    · next hstart => exact ⟨nofun, fun h => absurd hstart h.1⟩
    · next hstart => rw [Option.map_eq_none_iff, ih, and_iff_right hstart]

theorem index_eq_some {i : Nat} (h : index pattern l = some i) :
    ∃ front back, l = front ++ pattern ++ back ∧ front.length = i ∧
      (pattern ≠ [] → ¬ pattern <:+: front) := by
  induction l generalizing i with
  | nil =>
    rw [index] at h
    split at h
    · next hnil =>
      cases h
      exact ⟨[], [], by rw [hnil]; rfl, rfl, fun hne => absurd hnil hne⟩
    · cases h
  | cons a l ih =>
    rw [index] at h
    split at h
    · next hstart =>
      cases h
      obtain ⟨back, hback⟩ := hstart
      exact ⟨[], back, hback.symm, rfl, fun hne hinfix => hne (List.infix_nil.mp hinfix)⟩
    · next hstart =>
      obtain ⟨j, hj, rfl⟩ := Option.map_eq_some_iff.mp h
      obtain ⟨front, back, rfl, rfl, hfront⟩ := ih hj
      refine ⟨a :: front, back, rfl, rfl, fun hne hinfix => ?_⟩
      rcases List.infix_cons_iff.mp hinfix with hfirst | hrest
      · refine hstart (hfirst.trans ?_)
        rw [List.append_assoc, ← List.cons_append]
        exact List.prefix_append _ _
      · exact hfront hne hrest

theorem index_bound {i : Nat} (h : index pattern l = some i) : i + pattern.length ≤ l.length := by
  obtain ⟨front, back, rfl, rfl, -⟩ := index_eq_some h
  simp only [List.length_append]
  omega

theorem index_singleton {a : α} {front back : List α} (h : a ∉ front) :
    index [a] (front ++ a :: back) = some front.length := by
  induction front with
  | nil =>
    rw [List.nil_append, index, if_pos (by simp)]
    rfl
  | cons b front ih =>
    obtain ⟨hne, hfront⟩ := not_or.mp (fun hmem => h (List.mem_cons.mpr hmem))
    have hstart : ¬ [a] <+: b :: (front ++ a :: back) := by
      rw [List.cons_prefix_cons]
      exact fun hboth => hne hboth.1
    rw [List.cons_append, index, if_neg hstart, ih hfront]
    rfl

end ZCourier.Library
