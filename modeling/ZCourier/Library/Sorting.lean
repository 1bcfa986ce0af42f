import Mathlib.Data.List.Nodup
import Mathlib.Order.Basic
import Mathlib.Algebra.Order.Group.Unbundled.Int

/-!
# Sorting

`lexLe` compares by a key and elements with the same key in another way. `byTime` is such an order:
by time and then bytewise by identifier. Where the identifiers are distinct it is total, so sorting
gives one result for every arrangement of the same elements (`merge_sort_eq_of_perm`), and the
position of an element is the number of elements up to it (`index_eq_count`).
-/

namespace ZCourier.Library

/-! ## By one key and then by another -/

section Lex

variable {α κ : Type} [LinearOrder κ] (key : α → κ) (le : α → α → Bool)

/-- Compare by a key, and elements with the same key as `le` does. -/
def lexLe (a b : α) : Bool :=
  if key a = key b then le a b else key a < key b

variable {key le}

theorem lex_le_total (hle : ∀ a b, (le a b || le b a) = true) (a b : α) :
    (lexLe key le a b || lexLe key le b a) = true := by
  unfold lexLe
  rcases lt_trichotomy (key a) (key b) with h | h | h
  · simp [h, h.ne]
  · simpa [h] using hle a b
  · simp [h, h.ne]

theorem lex_le_trans
    (hle : ∀ a b c, le a b = true → le b c = true → le a c = true) (a b c : α)
    (hab : lexLe key le a b = true) (hbc : lexLe key le b c = true) :
    lexLe key le a c = true := by
  unfold lexLe at *
  split at hab <;> split at hbc
  · next h h' =>
    rw [if_pos (h.trans h')]
    exact hle a b c hab hbc
  · next h h' =>
    rw [h, if_neg h']
    exact hbc
  · next h h' =>
    rw [← h', if_neg h]
    exact hab
  · next h h' =>
    have hlt := (of_decide_eq_true hab).trans (of_decide_eq_true hbc)
    rw [if_neg hlt.ne]
    exact decide_eq_true hlt

theorem key_le_of_lex_le {a b : α} (h : lexLe key le a b = true) : key a ≤ key b := by
  unfold lexLe at h
  split at h
  · next heq => exact heq.le
  · exact (of_decide_eq_true h).le

theorem lex_le_antisymm {a b : α} (hab : lexLe key le a b = true) (hba : lexLe key le b a = true) :
    key a = key b ∧ le a b = true ∧ le b a = true := by
  have heq := le_antisymm (key_le_of_lex_le hab) (key_le_of_lex_le hba)
  unfold lexLe at hab hba
  rw [if_pos heq] at hab
  rw [if_pos heq.symm] at hba
  exact ⟨heq, hab, hba⟩

theorem merge_sort_key_le (hle : ∀ a b c, le a b = true → le b c = true → le a c = true)
    (htotal : ∀ a b, (le a b || le b a) = true) (l : List α) :
    (l.mergeSort (lexLe key le)).Pairwise fun a b => key a ≤ key b :=
  (List.pairwise_mergeSort (lex_le_trans hle) (lex_le_total htotal) l).imp key_le_of_lex_le

theorem merge_sort_two_keys (hi : α → κ) (l : List α) :
    (l.mergeSort (lexLe key fun a b => hi a ≤ hi b)).Pairwise fun a b => key a ≤ key b := by
  refine merge_sort_key_le ?_ ?_ l
  · intro a b c hab hbc
    exact decide_eq_true (le_trans (of_decide_eq_true hab) (of_decide_eq_true hbc))
  · intro a b
    simpa using le_total (hi a) (hi b)

end Lex

/-! ## By time and identifier -/

variable {α : Type} (time : α → Int) (id : α → List UInt8)

/-- Earlier, or at the same time and with an identifier that is not larger. -/
def byTime (a b : α) : Bool :=
  if time a = time b then id a ≤ id b else time a < time b

variable {time id}

theorem by_time_refl (a : α) : byTime time id a a = true := by
  simp [byTime]

theorem by_time_eq : byTime time id = lexLe time fun a b => id a ≤ id b := rfl

theorem by_time_total (a b : α) : (byTime time id a b || byTime time id b a) = true := by
  rw [by_time_eq]
  exact lex_le_total (fun a b => by simpa using List.le_total (id a) (id b)) a b

theorem by_time_trans (a b c : α) (hab : byTime time id a b = true)
    (hbc : byTime time id b c = true) : byTime time id a c = true := by
  rw [by_time_eq] at *
  refine lex_le_trans (fun a b c hab hbc => ?_) a b c hab hbc
  exact decide_eq_true (List.le_trans (of_decide_eq_true hab) (of_decide_eq_true hbc))

/-- Elements that come before each other have the same identifier. -/
theorem by_time_antisymm {a b : α} (hab : byTime time id a b = true)
    (hba : byTime time id b a = true) : id a = id b := by
  rw [by_time_eq] at *
  obtain ⟨-, hle, hge⟩ := lex_le_antisymm hab hba
  exact List.le_antisymm (of_decide_eq_true hle) (of_decide_eq_true hge)

theorem pairwise_by_time (l : List α) :
    (l.mergeSort (byTime time id)).Pairwise fun a b => byTime time id a b = true :=
  List.pairwise_mergeSort by_time_trans by_time_total l

/-- A sorted arrangement of the elements is the result of sorting them. -/
theorem merge_sort_eq_of_sorted {l l' : List α} (hid : (l.map id).Nodup) (h : l.Perm l')
    (hsorted : l'.Pairwise fun a b => byTime time id a b = true) :
    l.mergeSort (byTime time id) = l' := by
  refine List.Perm.eq_of_pairwise ?_ (pairwise_by_time l) hsorted
    ((List.mergeSort_perm l (byTime time id)).trans h)
  intro a b ha hb hab hba
  exact List.inj_on_of_nodup_map hid (List.mem_mergeSort.mp ha) (h.mem_iff.mpr hb)
    (by_time_antisymm hab hba)

theorem merge_sort_eq_of_perm {l l' : List α} (hid : (l.map id).Nodup) (h : l.Perm l') :
    l.mergeSort (byTime time id) = l'.mergeSort (byTime time id) :=
  merge_sort_eq_of_sorted hid (h.trans (List.mergeSort_perm l' (byTime time id)).symm)
    (pairwise_by_time l')

theorem merge_sort_filter {l : List α} (hid : (l.map id).Nodup) (p : α → Bool) :
    (l.filter p).mergeSort (byTime time id) = (l.mergeSort (byTime time id)).filter p := by
  refine merge_sort_eq_of_sorted (hid.sublist (List.filter_sublist.map id)) ?_
    ((pairwise_by_time l).filter p)
  exact ((List.mergeSort_perm l (byTime time id)).filter p).symm

theorem filter_behind {front rest : List α} {a : α}
    (hid : ((front ++ a :: rest).map id).Nodup)
    (hsorted : (front ++ a :: rest).Pairwise fun a b => byTime time id a b = true) :
    (front ++ a :: rest).filter (fun b => !byTime time id b a) = rest := by
  obtain ⟨-, hback, hcross⟩ := List.pairwise_append.mp hsorted
  rw [List.filter_append, List.filter_eq_nil_iff.mpr, List.nil_append,
    List.filter_cons_of_neg (by simp [by_time_refl a]), List.filter_eq_self.mpr]
  · intro b hb
    have hab := (List.pairwise_cons.mp hback).1 b hb
    rw [Bool.not_eq_true', Bool.eq_false_iff]
    intro hba
    rw [List.map_append, List.map_cons, List.nodup_append] at hid
    exact (List.nodup_cons.mp hid.2.1).1 (by_time_antisymm hab hba ▸ List.mem_map_of_mem hb)
  · intro b hb
    simp [hcross b hb a List.mem_cons_self]

/-- What a predicate that holds on from some element selects is the end of the list. -/
theorem filter_eq_drop {p : α → Bool} {l : List α}
    (h : l.Pairwise fun a b => p a = true → p b = true) : ∃ n, l.filter p = l.drop n := by
  induction l with
  | nil => exact ⟨0, rfl⟩
  | cons a l ih =>
    obtain ⟨hfirst, hrest⟩ := List.pairwise_cons.mp h
    by_cases ha : p a = true
    · refine ⟨0, List.filter_eq_self.mpr fun b hb => ?_⟩
      rcases List.mem_cons.mp hb with rfl | hb
      · exact ha
      · exact hfirst b hb ha
    · obtain ⟨n, hn⟩ := ih hrest
      exact ⟨n + 1, by rw [List.filter_cons_of_neg ha, hn, List.drop_succ_cons]⟩

/-- In a sorted list, an element's position is the number of elements before it. -/
theorem index_eq_count [DecidableEq α] {l : List α} {a : α} (hid : (l.map id).Nodup)
    (hsorted : l.Pairwise fun a b => byTime time id a b = true) (ha : a ∈ l) :
    l.idxOf a + 1 = l.countP fun b => byTime time id b a := by
  induction l with
  | nil => cases ha
  | cons b rest ih =>
    obtain ⟨hfirst, hrest⟩ := List.pairwise_cons.mp hsorted
    rw [List.map_cons, List.nodup_cons] at hid
    by_cases hab : b = a
    · subst hab
      have hnone : rest.countP (fun c => byTime time id c b) = 0 := by
        refine List.countP_eq_zero.mpr fun c hc hle => ?_
        exact hid.1 (by_time_antisymm (hfirst c hc) hle ▸ List.mem_map_of_mem hc)
      rw [List.idxOf_cons_self, List.countP_cons, hnone, if_pos (by_time_refl b)]
    · have hmem : a ∈ rest := (List.mem_cons.mp ha).resolve_left (Ne.symm hab)
      rw [List.idxOf_cons_ne _ hab, List.countP_cons, if_pos (hfirst a hmem),
        ← ih hid.2 hrest hmem]

theorem index_le_of_by_time [DecidableEq α] {l : List α} {a b : α} (hid : (l.map id).Nodup)
    (hsorted : l.Pairwise fun a b => byTime time id a b = true) (ha : a ∈ l) (hb : b ∈ l)
    (h : byTime time id a b = true) : l.idxOf a ≤ l.idxOf b := by
  have hcount : l.countP (fun c => byTime time id c a) ≤
      l.countP fun c => byTime time id c b :=
    List.countP_mono_left fun c _ hc => by_time_trans c a b hc h
  have hia := index_eq_count hid hsorted ha
  have hib := index_eq_count hid hsorted hb
  omega

end ZCourier.Library
