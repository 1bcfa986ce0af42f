import Mathlib.Data.List.Basic
import Mathlib.Data.List.Forall2
import Mathlib.Order.Basic
import Mathlib.Order.Lattice

/-!
# Closed ranges

Things that carry a closed range of some linear order. In a list sorted by lower ends it is enough
to compare neighbours (`neighbours_iff`). A search for the first element that satisfies a
condition finds the same element in every arrangement when at most one satisfies it
(`find?_eq_of_unique`).
-/

namespace ZCourier.Library

section Ranges

variable {α κ : Type} [LinearOrder κ] (lo hi : α → κ)

/-- The range of `a` contains `n`. -/
def Within (a : α) (n : κ) : Prop := lo a ≤ n ∧ n ≤ hi a

/-- The two ranges have an element in common. -/
def Overlap (a b : α) : Prop := ∃ n, Within lo hi a n ∧ Within lo hi b n

variable {lo hi} {a b : α} {l : List α}

theorem Overlap.symm (h : Overlap lo hi a b) : Overlap lo hi b a := by
  obtain ⟨n, ha, hb⟩ := h
  exact ⟨n, hb, ha⟩

/-- Ranges that are not empty overlap when each begins before the other one ends. -/
theorem overlap_iff (ha : lo a ≤ hi a) (hb : lo b ≤ hi b) :
    Overlap lo hi a b ↔ lo a ≤ hi b ∧ lo b ≤ hi a := by
  constructor
  · rintro ⟨n, ⟨hla, hha⟩, hlb, hhb⟩
    exact ⟨hla.trans hhb, hlb.trans hha⟩
  · rintro ⟨hab, hba⟩
    exact ⟨max (lo a) (lo b), ⟨le_max_left _ _, max_le ha hba⟩, le_max_right _ _, max_le hab hb⟩

theorem pairwise_of_neighbours (hranges : ∀ a ∈ l, lo a ≤ hi a)
    (h : l.IsChain fun a b => hi a < lo b) : l.Pairwise fun a b => hi a < lo b := by
  induction l with
  | nil => exact .nil
  | cons a rest ih =>
    have hrest := ih (fun b hb => hranges b (List.mem_cons_of_mem _ hb)) h.of_cons
    refine List.pairwise_cons.mpr ⟨fun b hb => ?_, hrest⟩
    cases rest with
    | nil => cases hb
    | cons next rest =>
      have hnext : hi a < lo next := (List.isChain_cons_cons.mp h).1
      rcases List.mem_cons.mp hb with rfl | hb
      · exact hnext
      · -- `next` ends before `b` begins
        have hlater := (List.pairwise_cons.mp hrest).1 b hb
        exact hnext.trans_le ((hranges next (by simp)).trans hlater.le)

theorem neighbours_iff (hranges : ∀ a ∈ l, lo a ≤ hi a)
    (hsorted : l.Pairwise fun a b => lo a ≤ lo b) :
    (l.IsChain fun a b => hi a < lo b) ↔ l.Pairwise fun a b => ¬Overlap lo hi a b := by
  constructor
  · intro h
    refine (pairwise_of_neighbours hranges h).imp fun {a b} hlt => ?_
    rintro ⟨n, ⟨-, hha⟩, hlb, -⟩
    exact absurd (hlb.trans hha) (not_le.mpr hlt)
  · intro h
    have hboth := List.Pairwise.and hsorted h
    refine List.Pairwise.isChain (hboth.imp_of_mem fun {a b} ha hb hab => ?_)
    by_contra hle
    have ha' := hranges a ha
    have hb' := hranges b hb
    exact hab.2 ((overlap_iff ha' hb').mpr ⟨hab.1.trans hb', not_lt.mp hle⟩)

theorem neighbours_sorted_iff {sorted : List α} (hperm : sorted.Perm l)
    (hranges : ∀ a ∈ l, lo a ≤ hi a) (hsorted : sorted.Pairwise fun a b => lo a ≤ lo b) :
    (sorted.IsChain fun a b => hi a < lo b) ↔ l.Pairwise fun a b => ¬Overlap lo hi a b := by
  rw [neighbours_iff (fun a ha => hranges a (hperm.mem_iff.mp ha)) hsorted]
  exact hperm.pairwise_iff fun hab hba => hab hba.symm

theorem disjoint_of_ends {β : Type} {lo' hi' : β → κ} {l' : List β}
    (h : l.map (fun a => (lo a, hi a)) = l'.map fun b => (lo' b, hi' b)) :
    (l.Pairwise fun a b => ¬Overlap lo hi a b) ↔ l'.Pairwise fun a b => ¬Overlap lo' hi' a b := by
  have hmap : ∀ {γ : Type} (first last : γ → κ) (m : List γ),
      (m.Pairwise fun a b => ¬Overlap first last a b) ↔
        (m.map fun a => (first a, last a)).Pairwise fun a b => ¬Overlap Prod.fst Prod.snd a b := by
    intro γ first last m
    rw [List.pairwise_map]
    exact Iff.rfl
  rw [hmap lo hi, hmap lo' hi', h]

end Ranges

/-! ## Searching -/

section Search

variable {α : Type} {p : α → Bool} {l l' : List α} {a : α}

/-- The only element that satisfies the condition is found. -/
theorem find?_eq_of_unique (hmem : a ∈ l) (ha : p a = true)
    (hunique : ∀ b ∈ l, p b = true → b = a) : l.find? p = some a := by
  cases hfind : l.find? p with
  | none => exact absurd ha (List.find?_eq_none.mp hfind a hmem)
  | some b =>
    rw [hunique b (List.mem_of_find?_eq_some hfind) (List.find?_some hfind)]

/-- No more than one place of the list satisfies the condition. -/
def AtMostOne (p : α → Bool) (l : List α) : Prop :=
  l.Pairwise fun a b => ¬(p a = true ∧ p b = true)

theorem AtMostOne.eq (h : AtMostOne p l) {b : α} (ha : a ∈ l) (hb : b ∈ l) (hpa : p a = true)
    (hpb : p b = true) : b = a := by
  induction l with
  | nil => cases ha
  | cons first rest ih =>
    obtain ⟨hfirst, hrest⟩ := List.pairwise_cons.mp h
    rcases List.mem_cons.mp ha with rfl | ha' <;> rcases List.mem_cons.mp hb with rfl | hb'
    · rfl
    · exact absurd ⟨hpa, hpb⟩ (hfirst b hb')
    · exact absurd ⟨hpb, hpa⟩ (hfirst a ha')
    · exact ih hrest ha' hb'

theorem at_most_one_forall {κ : Type} {q : κ → α → Bool} :
    (∀ n, AtMostOne (q n) l) ↔ l.Pairwise fun a b => ¬∃ n, q n a = true ∧ q n b = true := by
  induction l with
  | nil => exact ⟨fun _ => .nil, fun _ _ => .nil⟩
  | cons first rest ih =>
    simp only [AtMostOne, List.pairwise_cons] at ih ⊢
    rw [← ih]
    constructor
    · intro h
      refine ⟨fun a ha => ?_, fun n => (h n).2⟩
      rintro ⟨n, hn⟩
      exact (h n).1 a ha hn
    · rintro ⟨hfirst, hrest⟩ n
      exact ⟨fun a ha hn => hfirst a ha ⟨n, hn⟩, hrest n⟩

theorem at_most_one_of_map {β : Type} {q : β → Bool} {l₂ : List β} (h : l.map p = l₂.map q) :
    AtMostOne p l ↔ AtMostOne q l₂ := by
  have hmap : ∀ {γ : Type} (r : γ → Bool) (m : List γ),
      AtMostOne r m ↔ AtMostOne id (m.map r) := by
    intro γ r m
    unfold AtMostOne
    rw [List.pairwise_map]
    exact Iff.rfl
  rw [hmap p, hmap q, h]

/-- With at most one match, every arrangement of the list gives the same search result. -/
theorem AtMostOne.find?_perm (h : AtMostOne p l) (hperm : l.Perm l') :
    l'.find? p = l.find? p := by
  cases hfind : l.find? p with
  | none =>
    rw [List.find?_eq_none] at hfind ⊢
    exact fun a ha => hfind a (hperm.mem_iff.mpr ha)
  | some a =>
    have hmem := List.mem_of_find?_eq_some hfind
    have ha := List.find?_some hfind
    exact find?_eq_of_unique (hperm.mem_iff.mp hmem) ha
      fun b hb hpb => h.eq hmem (hperm.mem_iff.mpr hb) ha hpb

/-- Of two lists that correspond to each other, every element of one has its counterpart. -/
theorem exists_counterpart {β : Type} {R : α → β → Prop} {l₂ : List β}
    (h : List.Forall₂ R l l₂) (ha : a ∈ l) : ∃ b ∈ l₂, R a b := by
  induction h with
  | nil => cases ha
  | cons hab _ ih =>
    rcases List.mem_cons.mp ha with rfl | ha
    · exact ⟨_, List.mem_cons_self, hab⟩
    · obtain ⟨b, hb, hab⟩ := ih ha
      exact ⟨b, List.mem_cons_of_mem _ hb, hab⟩

theorem map_eq_of_counterparts {β γ : Type} {R : α → β → Prop} {f : α → γ} {g : β → γ}
    {l₂ : List β} (h : List.Forall₂ R l l₂) (hfg : ∀ a b, R a b → f a = g b) :
    l.map f = l₂.map g := by
  induction h with
  | nil => rfl
  | cons hab _ ih => rw [List.map_cons, List.map_cons, hfg _ _ hab, ih]

theorem find?_rel {β : Type} {R : α → β → Prop} {q : β → Bool} {l₂ : List β}
    (h : List.Forall₂ R l l₂) (hpq : ∀ a b, R a b → p a = q b) :
    Option.Rel R (l.find? p) (l₂.find? q) := by
  induction h with
  | nil => exact .none
  | @cons a b rest rest₂ hab hrest ih =>
    rw [List.find?_cons, List.find?_cons, ← hpq a b hab]
    cases p a with
    | true => exact .some hab
    | false => exact ih

end Search

/-! ## Words -/

instance linearOrderUInt32 : LinearOrder UInt32 where
  le_refl := UInt32.le_refl
  le_trans _ _ _ := UInt32.le_trans
  le_antisymm _ _ := UInt32.le_antisymm
  le_total := UInt32.le_total
  lt_iff_le_not_ge a b := by
    rw [UInt32.lt_iff_toNat_lt, UInt32.le_iff_toNat_le, UInt32.le_iff_toNat_le]
    omega
  toDecidableLE := inferInstance
  toDecidableEq := inferInstance
  toDecidableLT := inferInstance

end ZCourier.Library
