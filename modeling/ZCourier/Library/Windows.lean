import Mathlib.Algebra.Order.Ring.Defs
import Mathlib.Data.List.Basic
import Mathlib.Tactic.Linarith

/-!
# Fixed windows

A counter that starts a new window at the first time that is a whole window length after the start
of the current one. `Windows` says that a list of windows is one that such a counter makes, `Tracks`
that it is what a counter has made of the items so far; `Tracks.concat` is one step.
`Windows.accepted_le` bounds what is accepted in an interval shorter than a window, which meets at
most two windows.
-/

namespace ZCourier.Library

variable {T : Type} [CommRing T] [LinearOrder T]

/-- The current window of a counter: where it starts and how many items it has. -/
structure Window (T : Type) where
  start : T
  count : Nat

/-- The window an item at time `t` falls in, counting it. -/
def Window.next (length : T) (current : Option (Window T)) (t : T) : Window T :=
  match current with
  | some w => if length ≤ t - w.start then ⟨t, 1⟩ else ⟨w.start, w.count + 1⟩
  | none => ⟨t, 1⟩

variable {α : Type} {time : α → T} {accepted : α → Bool} {length : T} {limit : Nat}

/-- A window, from its first item on: all items are less than a window length later, and the first
`limit` ones are accepted. -/
structure IsWindow (time : α → T) (accepted : α → Bool) (length : T) (limit : Nat) (first : α)
    (rest : List α) : Prop where
  within : ∀ a ∈ first :: rest, time first ≤ time a ∧ time a - time first < length
  decided : ∀ i a, (first :: rest)[i]? = some a → (accepted a = true ↔ i < limit)

/-- Windows one after the other, each starting a window length or more after the one before. -/
structure Windows (time : α → T) (accepted : α → Bool) (length : T) (limit : Nat)
    (windows : List (α × List α)) : Prop where
  each : ∀ w ∈ windows, IsWindow time accepted length limit w.1 w.2
  apart : windows.Pairwise fun w later => length ≤ time later.1 - time w.1

/-- The number of accepted items of an interval. -/
def acceptedIn (time : α → T) (accepted : α → Bool) (lo hi : T) (items : List α) : Nat :=
  items.countP fun a => accepted a && (lo ≤ time a && time a ≤ hi)

def windowItems (windows : List (α × List α)) : List α := windows.flatMap fun w => w.1 :: w.2

theorem windowItems_cons (w : α × List α) (windows : List (α × List α)) :
    windowItems (w :: windows) = (w.1 :: w.2) ++ windowItems windows := rfl

namespace IsWindow

variable {first a : α} {rest : List α}

theorem single (hlength : 0 < length) (hlimit : 0 < limit) (haccepted : accepted a = true) :
    IsWindow time accepted length limit a [] where
  within b hmem := by
    rw [List.mem_singleton.mp hmem, sub_self]
    exact ⟨le_rfl, hlength⟩
  decided i b hi := by
    cases i with
    | zero =>
      cases hi
      exact iff_of_true haccepted hlimit
    | succ i => cases hi

/-- Adding an item to the window it falls in. -/
theorem concat (h : IsWindow time accepted length limit first rest)
    (hle : time first ≤ time a) (hlt : time a - time first < length)
    (haccepted : accepted a = true ↔ rest.length + 1 < limit) :
    IsWindow time accepted length limit first (rest ++ [a]) where
  within b hmem := by
    rw [← List.cons_append] at hmem
    rcases List.mem_append.mp hmem with hmem | hmem
    · exact h.within b hmem
    · rw [List.mem_singleton.mp hmem]
      exact ⟨hle, hlt⟩
  decided i b hi := by
    rw [← List.cons_append, List.getElem?_append] at hi
    split at hi
    · exact h.decided i b hi
    · next hlast =>
      rw [List.getElem?_singleton] at hi
      split at hi
      · cases hi
        rw [haccepted]
        rw [List.length_cons] at *
        omega
      · cases hi

theorem accepted_le (h : IsWindow time accepted length limit first rest) (lo hi : T) :
    acceptedIn time accepted lo hi (first :: rest) ≤ limit := by
  generalize hitems : first :: rest = items
  calc acceptedIn time accepted lo hi items
      ≤ items.countP accepted := List.countP_mono_left fun a _ ha => (Bool.and_eq_true_iff.mp ha).1
    _ = (items.take limit).countP accepted + (items.drop limit).countP accepted := by
        rw [← List.countP_append, List.take_append_drop]
    _ = (items.take limit).countP accepted := by
        rw [Nat.add_eq_left, List.countP_eq_zero]
        intro a hmem
        obtain ⟨i, hi⟩ := List.mem_iff_getElem?.mp hmem
        rw [List.getElem?_drop] at hi
        rw [h.decided _ a (hitems ▸ hi)]
        omega
    _ ≤ (items.take limit).length := List.countP_le_length
    _ ≤ limit := List.length_take_le _ _

end IsWindow

/-! ## What a counter makes -/

/-- The items so far are windows, and the counter holds the last one. -/
structure Tracks (time : α → T) (accepted : α → Bool) (length : T) (limit : Nat)
    (items : List α) (current : Option (Window T)) (windows : List (α × List α)) : Prop
    extends Windows time accepted length limit windows where
  items_eq : windowItems windows = items
  current_eq : current = windows.getLast?.map fun w => ⟨time w.1, w.2.length + 1⟩

theorem Tracks.nil : Tracks time accepted length limit [] none [] where
  each := nofun
  apart := .nil
  items_eq := rfl
  current_eq := rfl

theorem Tracks.count_le {items : List α} {w : Window T} {windows : List (α × List α)}
    (h : Tracks time accepted length limit items (some w) windows) : w.count ≤ items.length := by
  obtain ⟨last, hlast, rfl⟩ := Option.map_eq_some_iff.mp h.current_eq.symm
  obtain ⟨front, rfl⟩ := List.getLast?_eq_some_iff.mp hlast
  rw [← h.items_eq, windowItems, List.flatMap_append, List.length_append]
  simp

section Step

variable [IsStrictOrderedRing T] {items : List α} {current : Option (Window T)}
  {windows : List (α × List α)} {a : α}

/-- Counting an item that is not earlier than the ones before, and accepting it when the count is
within the limit. -/
theorem Tracks.concat (h : Tracks time accepted length limit items current windows)
    (hlength : 0 < length) (hlimit : 0 < limit) (hlater : ∀ b ∈ items, time b ≤ time a)
    (haccepted : accepted a = true ↔ (Window.next length current (time a)).count ≤ limit) :
    ∃ windows', Tracks time accepted length limit (items ++ [a])
      (some (Window.next length current (time a))) windows' := by
  rcases List.eq_nil_or_concat windows with rfl | ⟨front, last, rfl⟩
  · obtain rfl : current = none := h.current_eq
    obtain rfl : items = [] := h.items_eq.symm
    refine ⟨[(a, [])], ⟨?_, by simp⟩, rfl, rfl⟩
    intro w hmem
    rw [List.mem_singleton.mp hmem]
    exact .single hlength hlimit (haccepted.mpr hlimit)
  · rw [List.concat_eq_append] at h
    obtain rfl : current = some ⟨time last.1, last.2.length + 1⟩ := by
      rw [h.current_eq, List.getLast?_concat]
      rfl
    have hitems : windowItems front ++ (last.1 :: last.2) = items := by
      rw [← h.items_eq, windowItems, windowItems, List.flatMap_append]
      simp
    have hlast : time last.1 ≤ time a := hlater _ (by simp [← hitems])
    have hwindow := h.each last (by simp)
    obtain ⟨hfront, -, hapart⟩ := List.pairwise_append.mp h.apart
    unfold Window.next at haccepted ⊢
    simp only at haccepted ⊢
    split at haccepted
    · -- a new window
      next hnew =>
      rw [if_pos hnew]
      refine ⟨front ++ [last] ++ [(a, [])], ⟨?_, ?_⟩, ?_, ?_⟩
      · intro w hmem
        rcases List.mem_append.mp hmem with hmem | hmem
        · exact h.each w hmem
        · rw [List.mem_singleton.mp hmem]
          exact .single hlength hlimit (haccepted.mpr hlimit)
      · refine List.pairwise_append.mpr ⟨h.apart, by simp, fun w hmem later hlater => ?_⟩
        rw [List.mem_singleton.mp hlater]
        rcases List.mem_append.mp hmem with hmem | hmem
        · have hbefore := hapart w hmem last (by simp)
          show length ≤ time a - time w.1
          linarith
        · rw [List.mem_singleton.mp hmem]
          exact hnew
      · rw [windowItems, List.flatMap_append]
        exact congrArg (· ++ [a]) h.items_eq
      · rw [List.getLast?_concat]
        rfl
    · next hold =>
      rw [if_neg hold]
      refine ⟨front ++ [(last.1, last.2 ++ [a])], ⟨?_, ?_⟩, ?_, ?_⟩
      · intro w hmem
        rcases List.mem_append.mp hmem with hmem | hmem
        · exact h.each w (List.mem_append_left _ hmem)
        · rw [List.mem_singleton.mp hmem]
          exact hwindow.concat hlast (not_le.mp hold) haccepted
      · refine List.pairwise_append.mpr ⟨hfront, by simp, fun w hmem later hlater => ?_⟩
        rw [List.mem_singleton.mp hlater]
        exact hapart w hmem last (by simp)
      · rw [← hitems, windowItems, windowItems, List.flatMap_append]
        simp
      · rw [List.getLast?_concat]
        simp

end Step

/-! ## What is accepted in a short interval -/

section Interval

variable {windows : List (α × List α)} {w : α × List α} {lo hi : T}

omit [CommRing T] in
theorem acceptedIn_cons : acceptedIn time accepted lo hi (windowItems (w :: windows)) =
    acceptedIn time accepted lo hi (w.1 :: w.2) +
      acceptedIn time accepted lo hi (windowItems windows) := by
  rw [windowItems_cons]
  exact List.countP_append

omit [CommRing T] in
theorem acceptedIn_eq_zero {items : List α} (h : ∀ a ∈ items, time a < lo ∨ hi < time a) :
    acceptedIn time accepted lo hi items = 0 := by
  refine List.countP_eq_zero.mpr fun a hmem hcounted => ?_
  simp only [Bool.and_eq_true, decide_eq_true_eq] at hcounted
  rcases h a hmem with hbefore | hafter
  · exact absurd hcounted.2.1 (not_le.mpr hbefore)
  · exact absurd hcounted.2.2 (not_le.mpr hafter)

theorem Windows.tail (h : Windows time accepted length limit (w :: windows)) :
    Windows time accepted length limit windows :=
  ⟨fun later hmem => h.each later (List.mem_cons_of_mem _ hmem), (List.pairwise_cons.mp h.apart).2⟩

variable [IsStrictOrderedRing T]

theorem Windows.accepted_le_of_start (h : Windows time accepted length limit (w :: windows))
    (hlo : lo ≤ time w.1) (hshort : hi - lo < length) :
    acceptedIn time accepted lo hi (windowItems (w :: windows)) ≤ limit := by
  have hlater : acceptedIn time accepted lo hi (windowItems windows) = 0 := by
    refine acceptedIn_eq_zero fun a hmem => .inr ?_
    obtain ⟨later, hwindow, ha⟩ := List.mem_flatMap.mp hmem
    have hapart := (List.pairwise_cons.mp h.apart).1 later hwindow
    have hwithin := ((h.tail.each later hwindow).within a ha).1
    linarith
  rw [acceptedIn_cons, hlater]
  exact (h.each w List.mem_cons_self).accepted_le lo hi

/-- In an interval shorter than a window at most twice the limit is accepted. -/
theorem Windows.accepted_le (h : Windows time accepted length limit windows)
    (hshort : hi - lo < length) :
    acceptedIn time accepted lo hi (windowItems windows) ≤ 2 * limit := by
  induction windows with
  | nil => exact Nat.zero_le _
  | cons w windows ih =>
    rcases le_or_gt lo (time w.1) with hlo | hlo
    · exact (h.accepted_le_of_start hlo hshort).trans (by omega)
    · have hwindow := (h.each w List.mem_cons_self).accepted_le lo hi
      rw [acceptedIn_cons]
      cases windows with
      | nil => exact hwindow.trans (by omega)
      | cons next windows =>
        rcases le_or_gt lo (time next.1) with hnext | hnext
        · have hrest := h.tail.accepted_le_of_start hnext hshort
          omega
        · -- the window is over before the interval begins
          have hfirst : acceptedIn time accepted lo hi (w.1 :: w.2) = 0 := by
            refine acceptedIn_eq_zero fun a hmem => .inl ?_
            have hwithin := ((h.each w List.mem_cons_self).within a hmem).2
            have hapart := (List.pairwise_cons.mp h.apart).1 next List.mem_cons_self
            linarith
          rw [hfirst, Nat.zero_add]
          exact ih h.tail

end Interval

end ZCourier.Library
