import Mathlib.Data.List.Perm.Basic
import Mathlib.Data.List.Nodup

/-!
# Tables with a unique key

`Table key` is a finite collection of rows no two of which have the same key: a map
whose keys are stored in the values, or a relational table with a primary key. The
order of `rows` carries no meaning; results that depend on the contents only are stated
with `get?` or up to permutation.
-/

namespace ZCourier.Library

/-- A list of rows with pairwise different keys. -/
structure Table {α κ : Type} (key : α → κ) where
  rows : List α
  nodup : (rows.map key).Nodup

namespace Table

variable {α κ : Type} {key : α → κ}

@[ext] theorem ext_rows {s t : Table key} (h : s.rows = t.rows) : s = t := by
  cases s
  cases t
  cases h
  rfl

instance [DecidableEq α] : DecidableEq (Table key) := fun s t =>
  decidable_of_iff (s.rows = t.rows) ⟨ext_rows, congrArg rows⟩

/-- The table without rows. -/
def empty : Table key := ⟨[], .nil⟩

theorem eq_of_key_eq (t : Table key) {a b : α} (ha : a ∈ t.rows) (hb : b ∈ t.rows)
    (h : key a = key b) : a = b :=
  List.inj_on_of_nodup_map t.nodup ha hb h

/-- The rows that satisfy a condition. -/
def keep (t : Table key) (p : α → Bool) : Table key :=
  ⟨t.rows.filter p, t.nodup.sublist (List.filter_sublist.map key)⟩

/-- Apply a function that leaves keys alone to every row. -/
def update (t : Table key) (f : α → α) (hf : ∀ a, key (f a) = key a) : Table key :=
  ⟨t.rows.map f, by simpa [List.map_map, Function.comp_def, hf] using t.nodup⟩

/-- The number of rows that satisfy a condition. -/
def count (t : Table key) (p : α → Bool) : Nat :=
  t.rows.countP p

variable [DecidableEq κ]

/-- The row with the given key. -/
def get? (t : Table key) (k : κ) : Option α :=
  t.rows.find? fun a => key a = k

/-- Store a row, replacing the one with the same key. -/
def put (t : Table key) (a : α) : Table key :=
  ⟨a :: t.rows.filter fun b => key b ≠ key a, by
    refine List.nodup_cons.mpr ⟨?_, t.nodup.sublist (List.filter_sublist.map key)⟩
    simp⟩

/-- Remove the row with the given key. -/
def erase (t : Table key) (k : κ) : Table key :=
  t.keep fun b => key b ≠ k

variable {t : Table key} {a b : α} {k : κ} {p : α → Bool}

theorem get?_eq_some : t.get? k = some a ↔ a ∈ t.rows ∧ key a = k := by
  constructor
  · intro h
    exact ⟨List.mem_of_find?_eq_some h, by simpa using List.find?_some h⟩
  · rintro ⟨ha, rfl⟩
    cases hf : t.get? (key a) with
    | none => simpa using List.find?_eq_none.mp hf a ha
    | some b =>
      have hb : key b = key a := by simpa using List.find?_some hf
      rw [t.eq_of_key_eq (List.mem_of_find?_eq_some hf) ha hb]

theorem get?_eq_none : t.get? k = none ↔ ∀ a ∈ t.rows, key a ≠ k := by
  simp [get?]

theorem key_of_get? (h : t.get? k = some a) : key a = k :=
  (get?_eq_some.mp h).2

theorem mem_of_get? (h : t.get? k = some a) : a ∈ t.rows :=
  (get?_eq_some.mp h).1

theorem get?_of_mem (h : a ∈ t.rows) : t.get? (key a) = some a :=
  get?_eq_some.mpr ⟨h, rfl⟩

@[simp] theorem get?_empty : (empty : Table key).get? k = none := rfl

theorem mem_put : b ∈ (t.put a).rows ↔ b = a ∨ b ∈ t.rows ∧ key b ≠ key a := by
  simp [put]

theorem get?_put : (t.put a).get? k = if k = key a then some a else t.get? k := by
  ext b
  rw [get?_eq_some, mem_put]
  split
  · next h => grind
  · next h => rw [get?_eq_some]; grind

@[simp] theorem get?_put_self : (t.put a).get? (key a) = some a := by
  simp [get?_put]

theorem get?_put_ne (h : k ≠ key a) : (t.put a).get? k = t.get? k := by
  simp [get?_put, h]

theorem get?_keep : (t.keep p).get? k = (t.get? k).filter p := by
  ext b
  rw [get?_eq_some, Option.filter_eq_some_iff, get?_eq_some]
  simp only [keep, List.mem_filter]
  tauto

theorem get?_erase {k' : κ} : (t.erase k').get? k = if k = k' then none else t.get? k := by
  ext b
  rw [erase, get?_keep, Option.filter_eq_some_iff, get?_eq_some]
  split <;> grind [get?_eq_some]

theorem get?_update {f : α → α} {hf : ∀ a, key (f a) = key a} :
    (t.update f hf).get? k = (t.get? k).map f := by
  simp only [get?, update, List.find?_map, Function.comp_def, hf]

omit [DecidableEq κ] in
theorem count_keep_le {q : α → Bool} : (t.keep p).count q ≤ t.count q :=
  List.filter_sublist.countP_le

theorem count_put :
    (t.put a).count p + ((t.get? (key a)).elim 0 fun b => (p b).toNat) =
      t.count p + (p a).toNat := by
  have hsplit : t.rows.countP p = (t.rows.filter fun b => key b ≠ key a).countP p +
      (t.rows.filter fun b => key b = key a).countP p := by
    rw [List.countP_filter, List.countP_filter]
    induction t.rows with
    | nil => rfl
    | cons b rows ih =>
      simp only [List.countP_cons, ih]
      by_cases hk : key b = key a <;> cases p b <;> simp [hk] <;> omega
  have hsame : (t.rows.filter fun b => key b = key a).countP p =
      (t.get? (key a)).elim 0 fun b => (p b).toNat := by
    cases hg : t.get? (key a) with
    | none =>
      have hnil : (t.rows.filter fun b => decide (key b = key a)) = [] := by
        simpa using get?_eq_none.mp hg
      simp [hnil]
    | some b =>
      have hfilter : (t.rows.filter fun c => decide (key c = key a)).Perm [b] := by
        refine (List.perm_ext_iff_of_nodup ?_ (List.nodup_singleton b)).mpr ?_
        · exact (List.Nodup.of_map key t.nodup).filter _
        · intro c
          have hb := get?_eq_some.mp hg
          simp only [List.mem_filter, decide_eq_true_eq, List.mem_singleton]
          exact ⟨fun hc => t.eq_of_key_eq hc.1 hb.1 (hc.2.trans hb.2.symm), fun hc => hc ▸ hb⟩
      rw [hfilter.countP_eq]
      cases hp : p b <;> simp [hp]
  simp only [count, put, List.countP_cons]
  rw [hsplit, hsame]
  cases p a with
  | false => simp
  | true =>
    simp
    omega

theorem length_erase_lt (h : k ∈ t.rows.map key) : (t.erase k).rows.length < t.rows.length := by
  obtain ⟨b, hb, rfl⟩ := List.mem_map.mp h
  exact List.length_filter_lt_length_iff_exists.mpr ⟨b, hb, by simp⟩

theorem length_put_le : (t.put a).rows.length ≤ t.rows.length + 1 :=
  Nat.succ_le_succ (List.length_filter_le ..)

theorem length_put_of_mem (h : key a ∈ t.rows.map key) :
    (t.put a).rows.length ≤ t.rows.length :=
  length_erase_lt h

end Table

end ZCourier.Library
