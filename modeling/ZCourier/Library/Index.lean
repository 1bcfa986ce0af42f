import ZCourier.Library.Table

/-!
# Indexes of a table

`Indexed idx t f` says that `idx` is an inverse of `f` on a table: it leads from `f a` to
the key under which `a` is kept, and holds nothing else. A table with such an index has no
two rows with the same `f`. `Nested` is a map of maps in which an inner map that becomes
empty is dropped (`Full`), so that the outer map counts the keys in use.
-/

namespace ZCourier.Library

variable {α κ ι : Type} {key : α → ι} [DecidableEq κ] [DecidableEq ι]

/-- The index leads from a value of `f` to the key of the row that has it. -/
def Indexed (idx : Table (Prod.fst : κ × ι → κ)) (t : Table key) (f : α → κ) : Prop :=
  ∀ k i, idx.get? k = some (k, i) ↔ ∃ a, t.get? i = some a ∧ f a = k

namespace Indexed

variable {idx : Table (Prod.fst : κ × ι → κ)} {t : Table key} {f : α → κ} {a b : α} {i j : ι}
  {k : κ}

theorem empty : Indexed (.empty : Table (Prod.fst : κ × ι → κ)) (.empty : Table key) f := by
  intro k i
  simp

theorem row_of_entry (h : Indexed idx t f) {entry : κ × ι} (hentry : idx.get? k = some entry) :
    ∃ a, t.get? entry.2 = some a ∧ f a = k := by
  obtain ⟨k', i⟩ := entry
  obtain rfl : k' = k := Table.key_of_get? hentry
  exact (h k' i).mp hentry

theorem lookup (h : Indexed idx t f) :
    ((idx.get? k).bind fun entry => t.get? entry.2) = some a ↔
      t.get? (key a) = some a ∧ f a = k := by
  constructor
  · intro hlookup
    obtain ⟨entry, hentry, hget⟩ := Option.bind_eq_some_iff.mp hlookup
    obtain ⟨a', hget', hk⟩ := h.row_of_entry hentry
    obtain rfl := Option.some.inj (hget.symm.trans hget')
    rw [Table.key_of_get? hget]
    exact ⟨hget, hk⟩
  · rintro ⟨hget, hk⟩
    rw [(h k (key a)).mpr ⟨a, hget, hk⟩]
    exact hget

theorem key_unique (h : Indexed idx t f) (ha : t.get? i = some a) (hb : t.get? j = some b)
    (hk : f a = f b) : i = j := by
  have hi := (h (f a) i).mpr ⟨a, ha, rfl⟩
  have hj := (h (f a) j).mpr ⟨b, hb, hk.symm⟩
  exact (Prod.mk.inj (Option.some.inj (hi.symm.trans hj))).2

theorem erase (h : Indexed idx t f) (ha : t.get? i = some a) :
    Indexed (idx.erase (f a)) (t.erase i) f := by
  intro k j
  rw [Table.get?_erase]
  by_cases hk : k = f a
  · rw [if_pos hk]
    constructor
    · intro hnone
      cases hnone
    · rintro ⟨b, hb, rfl⟩
      rw [Table.get?_erase] at hb
      split at hb
      · cases hb
      · next hne => exact absurd (h.key_unique hb ha hk) hne
  · rw [if_neg hk, h k j, Table.get?_erase]
    split
    · next heq =>
      subst heq
      rw [ha]
      constructor
      · rintro ⟨b, hb, rfl⟩
        obtain rfl := Option.some.inj hb
        exact absurd rfl hk
      · rintro ⟨b, hb, -⟩
        cases hb
    · rfl

theorem put (h : Indexed idx t f) (hkey : t.get? (key a) = none) (hf : idx.get? (f a) = none) :
    Indexed (idx.put (f a, key a)) (t.put a) f := by
  intro k j
  rw [Table.get?_put, Table.get?_put]
  by_cases hk : k = f a
  · subst hk
    by_cases hj : j = key a
    · subst hj
      simp
    · have hnone : ¬ ∃ b, t.get? j = some b ∧ f b = f a := by
        rw [← h (f a) j, hf]
        simp
      simp [hj, Ne.symm hj, hnone]
  · by_cases hj : j = key a
    · subst hj
      have hnone := h k (key a)
      rw [hkey] at hnone
      simp [hk, Ne.symm hk, hnone]
    · simp [hk, hj, h k j]

/-- A row is replaced by one with the same `f`. -/
theorem update (h : Indexed idx t f) {old : α} (hold : t.get? (key a) = some old)
    (hf : f a = f old) : Indexed idx (t.put a) f := by
  intro k j
  rw [h k j, Table.get?_put]
  by_cases hj : j = key a
  · subst hj
    simp [hold, hf]
  · simp [hj]

end Indexed

/-! ## Maps of maps -/

/-- An inner map under its outer key. -/
structure Branch (κ δ ν : Type) where
  key : κ
  leaves : Table (Prod.fst : δ × ν → δ)

/-- A map of maps. -/
abbrev Nested (κ δ ν : Type) := Table (Branch.key : Branch κ δ ν → κ)

namespace Nested

variable {δ ν : Type} [DecidableEq δ]

/-- The value under two keys. -/
def find? (t : Nested κ δ ν) (k : κ) (d : δ) : Option ν :=
  (t.get? k).bind fun branch => (branch.leaves.get? d).map Prod.snd

/-- Store a value, in a new inner map if there is none. -/
def insert (t : Nested κ δ ν) (k : κ) (d : δ) (v : ν) : Nested κ δ ν :=
  match t.get? k with
  | none => t.put ⟨k, Table.empty.put (d, v)⟩
  | some branch => t.put ⟨k, branch.leaves.put (d, v)⟩

/-- Remove a value, and its inner map if that becomes empty. -/
def remove (t : Nested κ δ ν) (k : κ) (d : δ) : Nested κ δ ν :=
  match t.get? k with
  | none => t
  | some branch =>
    if (branch.leaves.erase d).rows = [] then t.erase k
    else t.put ⟨k, branch.leaves.erase d⟩

/-- No inner map is empty. -/
def Full (t : Nested κ δ ν) : Prop := ∀ branch ∈ t.rows, branch.leaves.rows ≠ []

variable {t : Nested κ δ ν} {k k' : κ} {d d' : δ} {v : ν}

omit [DecidableEq κ] in
theorem leaf_put {leaves : Table (Prod.fst : δ × ν → δ)} :
    ((leaves.put (d, v)).get? d').map Prod.snd =
      if d' = d then some v else (leaves.get? d').map Prod.snd := by
  rw [Table.get?_put]
  split <;> rfl

theorem find?_insert : (t.insert k d v).find? k' d' =
    if k' = k ∧ d' = d then some v else t.find? k' d' := by
  unfold insert find?
  by_cases hk : k' = k
  · subst hk
    split
    · next hnone =>
      rw [Table.get?_put, if_pos rfl, Option.bind_some, leaf_put, hnone]
      simp
    · next branch hbranch =>
      rw [Table.get?_put, if_pos rfl, Option.bind_some, leaf_put, hbranch]
      simp
  · split
    · rw [Table.get?_put, if_neg hk, if_neg (fun h => hk h.1)]
    · rw [Table.get?_put, if_neg hk, if_neg (fun h => hk h.1)]

theorem find?_remove : (t.remove k d).find? k' d' =
    if k' = k ∧ d' = d then none else t.find? k' d' := by
  unfold remove find?
  split
  · next hnone =>
    split
    · next hsame => simp [hsame.1, hnone]
    · rfl
  · next branch hbranch =>
    have hleaf : ((branch.leaves.erase d).get? d').map Prod.snd =
        if d' = d then none else (branch.leaves.get? d').map Prod.snd := by
      rw [Table.get?_erase]
      split <;> rfl
    by_cases hk : k' = k
    · subst hk
      split
      · next hempty =>
        rw [Table.get?_erase, if_pos rfl, Option.bind_none, hbranch, Option.bind_some]
        have hnone : (branch.leaves.erase d).get? d' = none :=
          Table.get?_eq_none.mpr fun a ha => by simp [hempty] at ha
        rw [hnone, Option.map_none] at hleaf
        split
        · rfl
        · next hd =>
          rw [if_neg (fun h => hd ⟨rfl, h⟩)] at hleaf
          exact hleaf
      · rw [Table.get?_put, if_pos rfl, Option.bind_some, hleaf, hbranch, Option.bind_some]
        simp
    · split
      · rw [Table.get?_erase, if_neg hk, if_neg (fun h => hk h.1)]
      · rw [Table.get?_put, if_neg hk, if_neg (fun h => hk h.1)]

omit [DecidableEq κ] [DecidableEq δ] in
theorem full_empty : Full (Table.empty : Nested κ δ ν) := by
  intro branch hbranch
  cases hbranch

theorem Full.insert (h : t.Full) : (t.insert k d v).Full := by
  intro branch hbranch
  unfold Nested.insert at hbranch
  split at hbranch
  all_goals
    rcases Table.mem_put.mp hbranch with rfl | ⟨hmem, -⟩
    · exact List.cons_ne_nil _ _
    · exact h branch hmem

theorem Full.remove (h : t.Full) : (t.remove k d).Full := by
  intro branch hbranch
  unfold Nested.remove at hbranch
  split at hbranch
  · exact h branch hbranch
  · split at hbranch
    · exact h branch (List.mem_of_mem_filter hbranch)
    · next hne =>
      rcases Table.mem_put.mp hbranch with rfl | ⟨hmem, -⟩
      · exact hne
      · exact h branch hmem

theorem Full.mem_keys (h : t.Full) :
    k ∈ t.rows.map Branch.key ↔ ∃ d v, t.find? k d = some v := by
  constructor
  · intro hk
    obtain ⟨branch, hbranch, rfl⟩ := List.mem_map.mp hk
    obtain ⟨leaf, hleaf⟩ := List.exists_mem_of_ne_nil _ (h branch hbranch)
    refine ⟨leaf.1, leaf.2, ?_⟩
    rw [find?, Table.get?_of_mem hbranch, Option.bind_some, Table.get?_of_mem hleaf]
    rfl
  · rintro ⟨d, v, hfind⟩
    obtain ⟨branch, hbranch, -⟩ := Option.bind_eq_some_iff.mp hfind
    have hkey : branch.key = k := Table.key_of_get? hbranch
    exact hkey ▸ List.mem_map_of_mem (Table.mem_of_get? hbranch)

end Nested

end ZCourier.Library
