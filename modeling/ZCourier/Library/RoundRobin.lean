import Mathlib.Data.List.Perm.Subperm
import ZCourier.Library.Sorting

/-!
# Round-robin selection

A list of elements that belong to groups (`key`) is dealt in rounds: round `n` holds the `n`-th
element of every group, in input order. An arrangement that respects `Before` is the dealt list
(`eq_rounds_of_sorted`). Each group gets a front part of its elements (`fibre_round_robin_prefix`),
and one of which something is left out got as much as any other, up to one (`round_robin_fair`).
-/

namespace ZCourier.Library.RoundRobin

section Definitions

variable {α κ : Type} [DecidableEq α] [DecidableEq κ] (key : α → κ) (l : List α)

/-- The elements of one group. -/
def fibre (k : κ) : List α := l.filter fun a => key a = k

/-- The position of an element in its group. -/
def place (a : α) : Nat := (fibre key l (key a)).idxOf a

/-- Earlier round, or same round and earlier in the input. -/
def Before (a b : α) : Prop :=
  place key l a < place key l b ∨ place key l a = place key l b ∧ l.idxOf a < l.idxOf b

/-- The `n`-th elements of the groups. -/
def round (n : Nat) : List α := l.filter fun a => place key l a = n

/-- The first `n` rounds. -/
def rounds (n : Nat) : List α := (List.range n).flatMap (round key l)

/-- The first elements of the dealt list. -/
def roundRobin (limit : Nat) : List α := (rounds key l l.length).take limit

end Definitions

section Order

variable {α κ : Type} [DecidableEq κ] {key : α → κ} {l : List α}

theorem mem_fibre {a : α} {k : κ} : a ∈ fibre key l k ↔ a ∈ l ∧ key a = k := by
  simp [fibre]

theorem fibre_append {l' : List α} {k : κ} :
    fibre key (l ++ l') k = fibre key l k ++ fibre key l' k :=
  List.filter_append ..

variable [DecidableEq α]

theorem place_get {k : κ} {n : Nat} (hl : l.Nodup) (h : n < (fibre key l k).length) :
    place key l (fibre key l k)[n] = n := by
  have hkey : key (fibre key l k)[n] = k := (mem_fibre.mp (List.getElem_mem h)).2
  rw [place, hkey]
  exact (hl.filter _).idxOf_getElem n h

theorem place_lt {a : α} (h : a ∈ l) : place key l a < l.length :=
  Nat.lt_of_lt_of_le (List.idxOf_lt_length_of_mem (mem_fibre.mpr ⟨h, rfl⟩))
    (List.length_filter_le _ _)

theorem Before.place_le {a b : α} (h : Before key l a b) : place key l a ≤ place key l b := by
  unfold Before at h
  omega

theorem Before.asymm {a b : α} (h : Before key l a b) : ¬ Before key l b a := by
  unfold Before at *
  omega

theorem eq_of_sorted {s t : List α} (hs : s.Pairwise (Before key l))
    (ht : t.Pairwise (Before key l)) (h : s.Perm t) : s = t :=
  List.Perm.eq_of_pairwise (fun _ _ _ _ hab hba => absurd hba hab.asymm) hs ht h

theorem pairwise_index (hl : l.Nodup) : l.Pairwise fun a b => l.idxOf a < l.idxOf b := by
  refine List.pairwise_iff_getElem.mpr ?_
  intro i j hi hj hij
  rwa [hl.idxOf_getElem i hi, hl.idxOf_getElem j hj]

end Order

section Rounds

variable {α κ : Type} [DecidableEq α] [DecidableEq κ] {key : α → κ} {l : List α}

theorem mem_rounds {a : α} {n : Nat} : a ∈ rounds key l n ↔ a ∈ l ∧ place key l a < n := by
  simp only [rounds, round, List.mem_flatMap, List.mem_range, List.mem_filter, decide_eq_true_eq]
  constructor
  · intro ⟨m, hm, ha, hplace⟩
    exact ⟨ha, hplace ▸ hm⟩
  · intro ⟨ha, hplace⟩
    exact ⟨_, hplace, ha, rfl⟩

/-- The rounds follow one another, and each keeps the input order. -/
theorem rounds_sorted (hl : l.Nodup) (n : Nat) : (rounds key l n).Pairwise (Before key l) := by
  refine List.pairwise_flatMap.mpr ⟨fun m _ => ?_, ?_⟩
  · refine ((pairwise_index hl).filter _).imp_of_mem ?_
    intro a b ha hb hlt
    have hplace : place key l a = m ∧ place key l b = m := by
      simpa using And.intro (List.mem_filter.mp ha).2 (List.mem_filter.mp hb).2
    exact Or.inr ⟨hplace.1.trans hplace.2.symm, hlt⟩
  · refine List.pairwise_lt_range.imp ?_
    intro m m' hlt a ha b hb
    have hplace : place key l a = m ∧ place key l b = m' := by
      simpa using And.intro (List.mem_filter.mp ha).2 (List.mem_filter.mp hb).2
    exact Or.inl (by omega)

theorem nodup_of_sorted {s : List α} (h : s.Pairwise (Before key l)) : s.Nodup :=
  h.imp fun hab heq => by
    subst heq
    exact hab.asymm hab

/-- All rounds together hold every element once. -/
theorem rounds_perm (hl : l.Nodup) : (rounds key l l.length).Perm l := by
  refine (List.perm_ext_iff_of_nodup (nodup_of_sorted (rounds_sorted hl _)) hl).mpr fun a => ?_
  rw [mem_rounds]
  exact ⟨And.left, fun h => ⟨h, place_lt h⟩⟩

theorem eq_rounds_of_sorted {s : List α} (hl : l.Nodup) (hs : s.Pairwise (Before key l))
    (h : s.Perm l) : s = rounds key l l.length :=
  eq_of_sorted hs (rounds_sorted hl _) (h.trans (rounds_perm hl).symm)

theorem fibre_rounds (hl : l.Nodup) (k : κ) :
    fibre key (rounds key l l.length) k = fibre key l k := by
  refine eq_of_sorted ((rounds_sorted hl _).filter _) ?_ ((rounds_perm hl).filter _)
  refine (pairwise_index (hl.filter _)).imp_of_mem ?_
  intro a b ha hb hlt
  refine Or.inl ?_
  rwa [place, place, (mem_fibre.mp ha).2, (mem_fibre.mp hb).2]

theorem place_of_split (hl : l.Nodup) {before after : List α} {a : α}
    (h : rounds key l l.length = before ++ a :: after) :
    place key l a = (fibre key before (key a)).length := by
  have hnodup : (before ++ a :: after).Nodup := h ▸ nodup_of_sorted (rounds_sorted hl _)
  have hfresh : a ∉ fibre key before (key a) := fun hmem =>
    (List.nodup_append.mp hnodup).2.2 a (mem_fibre.mp hmem).1 a (by simp) rfl
  have hhead : fibre key (a :: after) (key a) = a :: fibre key after (key a) := by
    simp [fibre]
  rw [place, ← fibre_rounds hl, h, fibre_append, List.idxOf_append_of_notMem hfresh, hhead,
    List.idxOf_cons_self, Nat.add_zero]

theorem rounds_prefix {m n : Nat} (h : m ≤ n) : rounds key l m <+: rounds key l n := by
  obtain ⟨d, rfl⟩ := Nat.exists_eq_add_of_le h
  rw [rounds, rounds, List.range_add, List.flatMap_append]
  exact List.prefix_append _ _

theorem take_rounds (hl : l.Nodup) (n : Nat) :
    (rounds key l n).take n = roundRobin key l n := by
  rcases Nat.le_total l.length n with hle | hle
  · -- the rounds past the length are empty
    have heq : rounds key l n = rounds key l l.length := by
      refine eq_rounds_of_sorted hl (rounds_sorted hl n) ?_
      refine (List.perm_ext_iff_of_nodup (nodup_of_sorted (rounds_sorted hl n)) hl).mpr ?_
      intro a
      rw [mem_rounds]
      exact ⟨And.left, fun h => ⟨h, Nat.lt_of_lt_of_le (place_lt h) hle⟩⟩
    rw [heq, roundRobin]
  · obtain ⟨rest, hrest⟩ : rounds key l n <+: rounds key l l.length := rounds_prefix hle
    rw [roundRobin, ← hrest]
    cases rest with
    | nil => rw [List.append_nil]
    | cons a after =>
      -- the first element past round `n` has a place of at least `n`
      have hplace := place_of_split hl hrest.symm
      have hlate : n ≤ place key l a := by
        by_contra hlt
        have hdealt : a ∈ rounds key l l.length := by
          rw [← hrest]
          simp
        have hmem : a ∈ rounds key l n :=
          mem_rounds.mpr ⟨(mem_rounds.mp hdealt).1, by omega⟩
        have hnodup : (rounds key l n ++ a :: after).Nodup :=
          hrest ▸ nodup_of_sorted (rounds_sorted hl _)
        exact (List.nodup_append.mp hnodup).2.2 a hmem a (by simp) rfl
      have hlength : (fibre key (rounds key l n) (key a)).length ≤ (rounds key l n).length :=
        List.length_filter_le _ _
      exact (List.take_append_of_le_length (by omega)).symm

end Rounds

section Selection

variable {α κ : Type} [DecidableEq α] [DecidableEq κ] {key : α → κ} {l : List α}

theorem length_round_robin (hl : l.Nodup) (limit : Nat) :
    (roundRobin key l limit).length = min limit l.length := by
  rw [roundRobin, List.length_take, (rounds_perm hl).length_eq]

theorem round_robin_sorted (hl : l.Nodup) (limit : Nat) :
    (roundRobin key l limit).Pairwise (Before key l) :=
  (rounds_sorted hl _).sublist (List.take_sublist _ _)

theorem round_robin_subset (hl : l.Nodup) (limit : Nat) : roundRobin key l limit ⊆ l :=
  fun _ h => (rounds_perm hl).subset (List.mem_of_mem_take h)

/-- What a group gets and what it does not get, one after the other, is the group. -/
theorem fibre_take_drop (hl : l.Nodup) (limit : Nat) (k : κ) :
    fibre key (roundRobin key l limit) k ++
      fibre key ((rounds key l l.length).drop limit) k = fibre key l k := by
  rw [← fibre_append, roundRobin, List.take_append_drop, fibre_rounds hl]

theorem fibre_round_robin_prefix (hl : l.Nodup) (limit : Nat) (k : κ) :
    fibre key (roundRobin key l limit) k <+: fibre key l k :=
  ⟨_, fibre_take_drop hl limit k⟩

theorem round_robin_fair (hl : l.Nodup) {limit : Nat} {a : α} (ha : a ∈ l)
    (hout : a ∉ roundRobin key l limit) (k : κ) :
    (fibre key (roundRobin key l limit) k).length ≤
      (fibre key (roundRobin key l limit) (key a)).length + 1 := by
  set chosen := roundRobin key l limit with hchosen
  set left := (rounds key l l.length).drop limit with hleft
  have hown : fibre key chosen (key a) ++ fibre key left (key a) = fibre key l (key a) :=
    fibre_take_drop hl limit _
  have hother : fibre key chosen k ++ fibre key left k = fibre key l k :=
    fibre_take_drop hl limit _
  rcases Nat.eq_zero_or_pos (fibre key chosen k).length with hzero | hpos
  · omega
  -- the first element left out of the group of `a`, and the last one the other group got
  have hmem : a ∈ fibre key left (key a) := by
    have hfibre : a ∈ fibre key l (key a) := mem_fibre.mpr ⟨ha, rfl⟩
    rw [← hown, List.mem_append] at hfibre
    exact hfibre.resolve_left fun h => hout (mem_fibre.mp h).1
  have hpos' : 0 < (fibre key left (key a)).length := List.length_pos_of_mem hmem
  have hfirst : place key l (fibre key left (key a))[0] = (fibre key chosen (key a)).length := by
    have hlt : (fibre key chosen (key a)).length < (fibre key l (key a)).length := by
      rw [← hown, List.length_append]
      omega
    have h := place_get hl hlt
    simp only [← hown, List.getElem_append_right (Nat.le_refl _), Nat.sub_self] at h
    exact h
  have hlast : place key l ((fibre key chosen k)[(fibre key chosen k).length - 1]) =
      (fibre key chosen k).length - 1 := by
    have hlt : (fibre key chosen k).length - 1 < (fibre key l k).length := by
      rw [← hother, List.length_append]
      omega
    have h := place_get hl hlt
    simp only [← hother] at h
    rwa [List.getElem_append_left (by omega)] at h
  have hsplit : (chosen ++ left).Pairwise (Before key l) := by
    rw [hchosen, hleft, roundRobin, List.take_append_drop]
    exact rounds_sorted hl _
  have hbefore := (List.pairwise_append.mp hsplit).2.2
    _ (mem_fibre.mp (List.getElem_mem (by omega : (fibre key chosen k).length - 1 <
      (fibre key chosen k).length))).1
    _ (mem_fibre.mp (List.getElem_mem hpos')).1
  have hle := hbefore.place_le
  rw [hlast, hfirst] at hle
  omega

/-! ## Several groups -/

/-- Elements of at least two groups. -/
def SeveralGroups (key : α → κ) (l : List α) : Prop := ∃ a ∈ l, ∃ b ∈ l, key a ≠ key b

omit [DecidableEq α] in
theorem several_groups_of_sublist {s : List α} {n : Nat} (hs : s.Sublist l)
    (hgroup : ∀ k, (fibre key l k).length ≤ n) (hlong : n < s.length) : SeveralGroups key s := by
  by_contra hone
  obtain ⟨a, ha⟩ : ∃ a, a ∈ s := List.exists_mem_of_length_pos (by omega)
  have hall : fibre key s (key a) = s := by
    refine List.filter_eq_self.mpr fun b hb => ?_
    by_contra hne
    exact hone ⟨b, hb, a, ha, by simpa using hne⟩
  have hle : (fibre key s (key a)).length ≤ (fibre key l (key a)).length :=
    (hs.filter _).length_le
  have hbound := hgroup (key a)
  rw [hall] at hle
  omega

theorem several_groups_round_robin (hl : l.Nodup) {limit : Nat} (hlimit : 2 ≤ limit)
    (h : SeveralGroups key l) : SeveralGroups key (roundRobin key l limit) := by
  obtain ⟨a, ha, b, hb, hne⟩ := h
  by_contra hone
  -- otherwise all of the selection is in one group, and some element of another is left out
  have hlong : 2 ≤ l.length := by
    have hpair : [a, b] ⊆ l := by simp [ha, hb]
    have hdistinct : [a, b].Nodup := by simpa using fun h => hne (congrArg key h)
    exact (List.subperm_of_subset hdistinct hpair).length_le
  have hlength : (roundRobin key l limit).length = min limit l.length :=
    length_round_robin hl limit
  obtain ⟨c, hc⟩ : ∃ c, c ∈ roundRobin key l limit :=
    List.exists_mem_of_length_pos (by omega)
  have hall : ∀ d ∈ roundRobin key l limit, key d = key c := by
    intro d hd
    by_contra hother
    exact hone ⟨d, hd, c, hc, hother⟩
  obtain ⟨e, he, hkey⟩ : ∃ e ∈ l, key e ≠ key c := by
    by_cases hac : key a = key c
    · exact ⟨b, hb, fun hbc => hne (hac.trans hbc.symm)⟩
    · exact ⟨a, ha, hac⟩
  have hout : e ∉ roundRobin key l limit := fun hmem => hkey (hall e hmem)
  have hfair := round_robin_fair hl he hout (key c)
  have hown : fibre key (roundRobin key l limit) (key c) = roundRobin key l limit :=
    List.filter_eq_self.mpr fun d hd => by simpa using hall d hd
  have hnone : fibre key (roundRobin key l limit) (key e) = [] :=
    List.filter_eq_nil_iff.mpr fun d hd => by simpa [hall d hd] using Ne.symm hkey
  rw [hown, hnone, List.length_nil] at hfair
  omega

end Selection

/-! ## Row numbers -/

section RowNumbers

variable {α κ : Type} [DecidableEq κ] (key : α → κ) (time : α → Int) (id : α → List UInt8)
  (l : List α)

/-- The number of an element in its group, counted from one, when the group is sorted by time
and identifier. -/
def rowNumber (a : α) : Nat :=
  l.countP fun b => key b = key a && byTime time id b a

def byRowNumber (a b : α) : Bool :=
  if rowNumber key time id l a = rowNumber key time id l b then byTime time id a b
  else rowNumber key time id l a < rowNumber key time id l b

variable {key time id l}

theorem by_row_number_total (a b : α) :
    (byRowNumber key time id l a b || byRowNumber key time id l b a) = true := by
  unfold byRowNumber
  by_cases h : rowNumber key time id l a = rowNumber key time id l b
  · rw [if_pos h, if_pos h.symm]
    exact by_time_total a b
  · rw [if_neg h, if_neg (Ne.symm h), Bool.or_eq_true, decide_eq_true_eq, decide_eq_true_eq]
    omega

theorem by_row_number_trans (a b c : α) (hab : byRowNumber key time id l a b = true)
    (hbc : byRowNumber key time id l b c = true) : byRowNumber key time id l a c = true := by
  unfold byRowNumber at *
  split at hab <;> split at hbc
  case isTrue.isTrue h h' =>
    rw [if_pos (h.trans h')]
    exact by_time_trans a b c hab hbc
  all_goals
    simp only [decide_eq_true_eq] at hab hbc
    rw [if_neg (by omega)]
    simp only [decide_eq_true_eq]
    omega

variable [DecidableEq α]

theorem row_number_eq (hid : (l.map id).Nodup)
    (hsorted : l.Pairwise fun a b => byTime time id a b = true) {a : α} (ha : a ∈ l) :
    rowNumber key time id l a = place key l a + 1 := by
  have hfibre : (fibre key l (key a)).Pairwise fun a b => byTime time id a b = true :=
    hsorted.filter _
  have hids : ((fibre key l (key a)).map id).Nodup :=
    hid.sublist (List.filter_sublist.map id)
  rw [place, index_eq_count hids hfibre (mem_fibre.mpr ⟨ha, rfl⟩), fibre, List.countP_filter,
    rowNumber]
  exact List.countP_congr fun b _ => by rw [Bool.and_comm]

theorem merge_sort_by_row_number (hid : (l.map id).Nodup)
    (hsorted : l.Pairwise fun a b => byTime time id a b = true) :
    l.mergeSort (byRowNumber key time id l) = rounds key l l.length := by
  have hnodup : l.Nodup := hid.of_map _
  have hperm := List.mergeSort_perm l (byRowNumber key time id l)
  refine eq_rounds_of_sorted hnodup ?_ hperm
  have hpairs := (List.pairwise_mergeSort by_row_number_trans by_row_number_total l).and
    (hperm.nodup_iff.mpr hnodup)
  refine hpairs.imp_of_mem ?_
  intro a b ha hb hab
  have ha' := List.mem_mergeSort.mp ha
  have hb' := List.mem_mergeSort.mp hb
  have hrank := hab.1
  rw [byRowNumber, row_number_eq hid hsorted ha', row_number_eq hid hsorted hb'] at hrank
  split at hrank
  case isTrue hsame =>
    -- same round: the earlier of two different elements has the smaller index
    have hle := index_le_of_by_time hid hsorted ha' hb' hrank
    have hne : l.idxOf a ≠ l.idxOf b := fun h => hab.2 ((List.idxOf_inj ha').mp h)
    exact Or.inr ⟨by omega, by omega⟩
  case isFalse => exact Or.inl (by simpa using hrank)

end RowNumbers

end ZCourier.Library.RoundRobin
