import ZCourier.Config.File
import ZCourier.Library.Ranges
import ZCourier.Library.Sorting

/-!
# What the conflict check accepts

`validateUpstreamRouteConflicts` sorts the ranges of the enabled routes and compares
neighbours, and leaves routes with an invalid range to the other checks. `conflicts_iff`
says exactly what it accepts. Routes that are `Unambiguous` are accepted, and if the
enabled routes have valid ranges no others are.
-/

namespace ZCourier.Config

open Go Server Library Router

variable {H N : Type}

namespace UpstreamRouteConfig

/-- The end of the route's range. -/
def last (route : UpstreamRouteConfig H N) : UInt32 := rangeEnd route.msgIDMin route.msgIDMax

/-- The engine's test for the route. -/
def takes (route : UpstreamRouteConfig H N) (msgID : UInt32) : Bool :=
  matchesMsgID route.msgIDMin route.msgIDMax msgID

end UpstreamRouteConfig

/-- The names that must be distinct: those of the enabled routes, trimmed, without empty ones. -/
def routeNames (routes : List (UpstreamRouteConfig H N)) : List GoString :=
  ((routes.filter upstreamRouteEnabled).map fun route => trimSpace route.name).filter (· ≠ [])

/-- No two enabled routes have the name or a `MsgID` in common, none is too wide, and none
contains a reserved `MsgID`. -/
structure Unambiguous (routes : List (UpstreamRouteConfig H N)) : Prop where
  names : (routeNames routes).Nodup
  width : ∀ route ∈ routes, upstreamRouteEnabled route → route.last - route.msgIDMin ≤ 10000
  unreserved : ∀ route ∈ routes, upstreamRouteEnabled route →
    ∀ reserved ∈ reservedMsgIDs, route.takes reserved = false
  disjoint : ∀ msgID, AtMostOne (fun route => upstreamRouteEnabled route && route.takes msgID)
    routes

/-! ## Ranges -/

section Range

variable {route : UpstreamRouteConfig H N}

/-- What `validateMsgIDRange` says about a range. -/
theorem valid_range (h : validateMsgIDRange route = none) :
    route.msgIDMin ≠ 0 ∧ route.msgIDMin ≤ route.last := by
  unfold validateMsgIDRange at h
  split_ifs at h with hmin hmax hflight
  refine ⟨hmin, ?_⟩
  unfold UpstreamRouteConfig.last rangeEnd
  split
  · exact le_rfl
  · next hne =>
    by_contra hlt
    exact hmax (by simpa [hne] using not_le.mp hlt)

theorem matches_msg_id_eq {msgIDMin : UInt32} (hmin : msgIDMin ≠ 0) (msgIDMax msgID : UInt32) :
    matchesMsgID msgIDMin msgIDMax msgID =
      (msgIDMin ≤ msgID && msgID ≤ rangeEnd msgIDMin msgIDMax) := by
  unfold matchesMsgID rangeEnd
  by_cases hmax : msgIDMax = 0
  · simp only [hmin, hmax, decide_false, decide_true, Bool.false_and, Bool.false_eq_true, if_false,
      if_true]
    rw [Bool.eq_iff_iff, Bool.and_eq_true, decide_eq_true_eq, decide_eq_true_eq,
      decide_eq_true_eq]
    exact ⟨fun h => ⟨h.ge, h.le⟩, fun h => le_antisymm h.2 h.1⟩
  · simp [hmin, hmax]

theorem matches_iff (hmin : route.msgIDMin ≠ 0) {msgID : UInt32} :
    route.takes msgID = true ↔
      Within UpstreamRouteConfig.msgIDMin UpstreamRouteConfig.last route msgID := by
  unfold UpstreamRouteConfig.takes
  rw [matches_msg_id_eq hmin, Bool.and_eq_true, decide_eq_true_eq, decide_eq_true_eq]
  rfl

end Range

/-! ## What the first loop collects -/

section Collect

variable {names : List (GoString × Nat)} {index : Nat} {routes : List (UpstreamRouteConfig H N)}
  {route : UpstreamRouteConfig H N}

theorem name_problem_eq_nil :
    nameProblem names index route = [] ↔
      trimSpace route.name = [] ∨ trimSpace route.name ∉ names.map Prod.fst := by
  unfold nameProblem
  by_cases hblank : trimSpace route.name = []
  · simp [hblank]
  rw [if_neg hblank]
  cases hfind : names.find? fun entry => entry.1 = trimSpace route.name with
  | some entry =>
    have hmem := List.mem_of_find?_eq_some hfind
    have hname : entry.1 = trimSpace route.name := by simpa using List.find?_some hfind
    have hin : trimSpace route.name ∈ names.map Prod.fst :=
      List.mem_map.mpr ⟨entry, hmem, hname⟩
    simp [hblank, hin]
  | none =>
    have hout : trimSpace route.name ∉ names.map Prod.fst := by
      rintro hin
      obtain ⟨entry, hmem, hname⟩ := List.mem_map.mp hin
      simpa [hname] using List.find?_eq_none.mp hfind entry hmem
    simp [hout]

def RangeFine (route : UpstreamRouteConfig H N) : Prop :=
  route.last - route.msgIDMin ≤ 10000 ∧ ∀ reserved ∈ reservedMsgIDs, route.takes reserved = false

/-- Whether the route's range takes part in the comparison. -/
def compared (route : UpstreamRouteConfig H N) : Bool :=
  upstreamRouteEnabled route && (validateMsgIDRange route).isNone

theorem compared_iff :
    compared route = true ↔
      upstreamRouteEnabled route = true ∧ validateMsgIDRange route = none := by
  simp [compared]

theorem range_problems_of_invalid (hinvalid : (validateMsgIDRange route).isSome) (index : Nat) :
    rangeProblems index route = ([], []) := by
  simp only [rangeProblems, if_pos hinvalid]

theorem range_problems_of_valid (hvalid : validateMsgIDRange route = none) (index : Nat) :
    ((rangeProblems index route).1 = [] ↔ RangeFine route) ∧
      (RangeFine route → (rangeProblems index route).2 =
        [⟨upstreamRouteLabel route index, route.msgIDMin, route.last⟩]) := by
  have hmin := (valid_range hvalid).1
  have hreserved : (reservedMsgIDs.filter fun reserved =>
      route.msgIDMin ≤ reserved && reserved ≤ route.last) = [] ↔
      ∀ reserved ∈ reservedMsgIDs, route.takes reserved = false := by
    rw [List.filter_eq_nil_iff]
    refine forall₂_congr fun reserved _ => ?_
    rw [Bool.and_eq_true, decide_eq_true_eq, decide_eq_true_eq, ← Bool.not_eq_true,
      matches_iff hmin]
    rfl
  simp only [rangeProblems, hvalid, Option.isSome_none, Bool.false_eq_true, if_false]
  by_cases hwide : 10000 < route.last - route.msgIDMin
  · have hnot : ¬ RangeFine route := fun h => absurd h.1 (not_le.mpr hwide)
    rw [show rangeEnd route.msgIDMin route.msgIDMax = route.last from rfl, if_pos hwide]
    simp [hnot]
  · rw [show rangeEnd route.msgIDMin route.msgIDMax = route.last from rfl, if_neg hwide]
    refine ⟨?_, fun _ => rfl⟩
    rw [List.map_eq_nil_iff, hreserved, RangeFine]
    exact ⟨fun h => ⟨not_lt.mp hwide, h⟩, And.right⟩

theorem routeNames_cons_enabled (henabled : upstreamRouteEnabled route = true) :
    routeNames (route :: routes) =
      if trimSpace route.name = [] then routeNames routes
      else trimSpace route.name :: routeNames routes := by
  simp only [routeNames, List.filter_cons, henabled, if_true, List.map_cons]
  by_cases hblank : trimSpace route.name = [] <;> simp [hblank]

theorem routeNames_cons_disabled (hdisabled : upstreamRouteEnabled route = false) :
    routeNames (route :: routes) = routeNames routes := by
  simp [routeNames, hdisabled]

theorem names_step (henabled : upstreamRouteEnabled route = true) :
    (nameProblem names index route = [] ∧ (routeNames routes).Nodup ∧
      ∀ name ∈ routeNames routes, name ∉
        (if trimSpace route.name = [] || !(nameProblem names index route).isEmpty then names
          else (trimSpace route.name, index) :: names).map Prod.fst) ↔
    (routeNames (route :: routes)).Nodup ∧
      ∀ name ∈ routeNames (route :: routes), name ∉ names.map Prod.fst := by
  rw [routeNames_cons_enabled henabled]
  by_cases hblank : trimSpace route.name = []
  · have hfound : nameProblem names index route = [] := name_problem_eq_nil.mpr (.inl hblank)
    simp [hblank, hfound]
  rw [if_neg hblank]
  by_cases hold : trimSpace route.name ∈ names.map Prod.fst
  · have hfound : nameProblem names index route ≠ [] := fun h =>
      (name_problem_eq_nil.mp h).elim hblank fun hnew => hnew hold
    constructor
    · exact fun h => absurd h.1 hfound
    · exact fun h => absurd hold (h.2 _ List.mem_cons_self)
  · have hfound : nameProblem names index route = [] := name_problem_eq_nil.mpr (.inr hold)
    simp only [hfound, hblank, decide_false, List.isEmpty_nil, Bool.not_true, Bool.or_self,
      Bool.false_eq_true, if_false, true_and, List.map_cons, List.mem_cons, not_or,
      List.nodup_cons, forall_eq_or_imp]
    constructor
    · rintro ⟨hnodup, hothers⟩
      exact ⟨⟨fun hmem => (hothers _ hmem).1 rfl, hnodup⟩, hold, fun n hn => (hothers n hn).2⟩
    · rintro ⟨⟨hfresh, hnodup⟩, -, hothers⟩
      refine ⟨hnodup, fun n hn => ⟨?_, hothers n hn⟩⟩
      rintro rfl
      exact hfresh hn

theorem collect_ranges_ok (routes : List (UpstreamRouteConfig H N))
    (names : List (GoString × Nat)) (index : Nat) :
    ((collectRanges names index routes).1 = [] ↔
      ((routeNames routes).Nodup ∧ ∀ name ∈ routeNames routes, name ∉ names.map Prod.fst) ∧
        ∀ route ∈ routes, compared route → RangeFine route) ∧
    ((∀ route ∈ routes, compared route → RangeFine route) →
      (collectRanges names index routes).2.map (fun range => (range.min, range.max)) =
        (routes.filter compared).map fun route => (route.msgIDMin, route.last)) := by
  induction routes generalizing names index with
  | nil => simp [collectRanges, routeNames]
  | cons route rest ih =>
    cases henabled : upstreamRouteEnabled route with
    | false =>
      obtain ⟨hproblems, hranges⟩ := ih names (index + 1)
      have hnot : compared route = false := by simp [compared, henabled]
      simp only [collectRanges, henabled, Bool.not_false, if_true]
      rw [hproblems, routeNames_cons_disabled henabled]
      simp only [List.forall_mem_cons, hnot, Bool.false_eq_true, false_imp_iff, true_and,
        List.filter_cons, if_false]
      exact hranges
    | true =>
      have hown : ((rangeProblems index route).1 = [] ↔ (compared route → RangeFine route)) ∧
          ((compared route → RangeFine route) →
            (rangeProblems index route).2.map (fun range => (range.min, range.max)) =
              ([route].filter compared).map fun route => (route.msgIDMin, route.last)) := by
        cases hvalid : validateMsgIDRange route with
        | some err =>
          have hnot : compared route = false := by simp [compared, hvalid]
          rw [range_problems_of_invalid (by simp [hvalid])]
          simp [hnot]
        | none =>
          have hyes : compared route = true := compared_iff.mpr ⟨henabled, hvalid⟩
          obtain ⟨hproblems, hranges⟩ := range_problems_of_valid hvalid index
          refine ⟨hproblems.trans (by simp [hyes]), fun hfine => ?_⟩
          rw [hranges (hfine hyes), List.filter_cons_of_pos hyes]
          rfl
      simp only [collectRanges, henabled, Bool.not_true, Bool.false_eq_true, if_false]
      refine ⟨?_, fun hfine => ?_⟩
      · rw [List.append_eq_nil_iff, List.append_eq_nil_iff, hown.1, (ih _ _).1,
          ← names_step henabled, List.forall_mem_cons]
        exact ⟨fun ⟨⟨h1, h2⟩, ⟨h3, h4⟩, h5⟩ => ⟨⟨h1, h3, h4⟩, h2, h5⟩,
          fun ⟨⟨h1, h3, h4⟩, h2, h5⟩ => ⟨⟨h1, h2⟩, ⟨h3, h4⟩, h5⟩⟩
      · obtain ⟨hfirst, hothers⟩ := List.forall_mem_cons.mp hfine
        rw [List.map_append, hown.2 hfirst, (ih _ _).2 hothers, ← List.map_append,
          ← List.filter_append]
        rfl

end Collect

/-! ## What the comparison finds -/

section Compare

variable {routes : List (UpstreamRouteConfig H N)}

theorem neighbour_problems_eq_nil {ranges : List ValidationMsgIDRange} :
    neighbourProblems ranges = [] ↔ ranges.IsChain fun a b => a.max < b.min := by
  induction ranges with
  | nil => simp [neighbourProblems]
  | cons first rest ih =>
    cases rest with
    | nil => simp [neighbourProblems]
    | cons second rest =>
      rw [neighbourProblems, List.append_eq_nil_iff, List.isChain_cons_cons, ih]
      refine and_congr_left fun _ => ?_
      split
      · next hle => simp [not_lt.mpr hle]
      · next hlt => simp [not_le.mp hlt]

theorem overlap_routes_iff {a b : UpstreamRouteConfig H N} (ha : a.msgIDMin ≠ 0)
    (hb : b.msgIDMin ≠ 0) :
    Overlap UpstreamRouteConfig.msgIDMin UpstreamRouteConfig.last a b ↔
      ∃ msgID, a.takes msgID = true ∧ b.takes msgID = true :=
  exists_congr fun _ => and_congr (matches_iff ha).symm (matches_iff hb).symm

theorem sorted_ranges_disjoint_iff {ranges : List ValidationMsgIDRange}
    (hranges : ∀ range ∈ ranges, range.min ≤ range.max) :
    neighbourProblems (ranges.mergeSort validationRangeLe) = [] ↔
      ranges.Pairwise fun a b =>
        ¬Overlap ValidationMsgIDRange.min ValidationMsgIDRange.max a b := by
  rw [neighbour_problems_eq_nil]
  exact neighbours_sorted_iff (List.mergeSort_perm _ _) hranges
    (merge_sort_two_keys ValidationMsgIDRange.max ranges)

theorem conflicts_iff :
    validateUpstreamRouteConflicts routes = [] ↔
      (routeNames routes).Nodup ∧ (∀ route ∈ routes, compared route → RangeFine route) ∧
        ∀ msgID, AtMostOne (fun route => compared route && route.takes msgID) routes := by
  obtain ⟨hproblems, hcollected⟩ := collect_ranges_ok routes [] 0
  have hmin : ∀ {route : UpstreamRouteConfig H N}, compared route → route.msgIDMin ≠ 0 :=
    fun h => (valid_range (compared_iff.mp h).2).1
  have hcompare : (∀ route ∈ routes, compared route → RangeFine route) →
      (neighbourProblems ((collectRanges [] 0 routes).2.mergeSort validationRangeLe) = [] ↔
        ∀ msgID, AtMostOne (fun route => compared route && route.takes msgID) routes) := by
    intro hfine
    have hends := hcollected hfine
    have hranges : ∀ range ∈ (collectRanges [] 0 routes).2, range.min ≤ range.max := by
      intro range hmem
      have hpair : (range.min, range.max) ∈ (routes.filter compared).map fun route =>
          (route.msgIDMin, route.last) := hends ▸ List.mem_map_of_mem hmem
      obtain ⟨route, hroute, hpair⟩ := List.mem_map.mp hpair
      obtain ⟨hmin, hmax⟩ := Prod.mk.inj hpair
      rw [← hmin, ← hmax]
      exact (valid_range (compared_iff.mp (List.mem_filter.mp hroute).2).2).2
    rw [sorted_ranges_disjoint_iff hranges, disjoint_of_ends hends, List.pairwise_filter,
      at_most_one_forall]
    refine List.Pairwise.iff_of_mem fun {a b} ha hb => ?_
    simp only [Bool.and_eq_true]
    constructor
    · rintro hdisjoint ⟨msgID, ⟨hacompared, hatakes⟩, hbcompared, hbtakes⟩
      exact hdisjoint hacompared hbcompared
        ((overlap_routes_iff (hmin hacompared) (hmin hbcompared)).mpr ⟨msgID, hatakes, hbtakes⟩)
    · intro hdisjoint hacompared hbcompared hoverlap
      obtain ⟨msgID, hatakes, hbtakes⟩ :=
        (overlap_routes_iff (hmin hacompared) (hmin hbcompared)).mp hoverlap
      exact hdisjoint ⟨msgID, ⟨hacompared, hatakes⟩, hbcompared, hbtakes⟩
  simp only [validateUpstreamRouteConflicts]
  rw [List.append_eq_nil_iff, hproblems]
  constructor
  · rintro ⟨⟨⟨hnames, -⟩, hfine⟩, hneighbours⟩
    exact ⟨hnames, hfine, (hcompare hfine).mp hneighbours⟩
  · rintro ⟨hnames, hfine, hdisjoint⟩
    exact ⟨⟨⟨hnames, by simp⟩, hfine⟩, (hcompare hfine).mpr hdisjoint⟩

theorem no_conflicts_of_unambiguous (h : Unambiguous routes) :
    validateUpstreamRouteConflicts routes = [] := by
  refine conflicts_iff.mpr ⟨h.names, fun route hroute hcompared => ?_, fun msgID => ?_⟩
  · have henabled := (compared_iff.mp hcompared).1
    exact ⟨h.width route hroute henabled, h.unreserved route hroute henabled⟩
  · refine (h.disjoint msgID).imp fun {a b} hab => ?_
    simp only [Bool.and_eq_true, compared_iff] at hab ⊢
    exact fun ⟨ha, hb⟩ => hab ⟨⟨ha.1.1, ha.2⟩, hb.1.1, hb.2⟩

theorem unambiguous_of_no_conflicts (hvalid : ∀ route ∈ routes, upstreamRouteEnabled route →
      validateMsgIDRange route = none) (h : validateUpstreamRouteConflicts routes = []) :
    Unambiguous routes := by
  obtain ⟨hnames, hfine, hdisjoint⟩ := conflicts_iff.mp h
  have hcompared : ∀ route ∈ routes, upstreamRouteEnabled route → compared route :=
    fun route hroute henabled => compared_iff.mpr ⟨henabled, hvalid route hroute henabled⟩
  refine ⟨hnames,
    fun route hroute henabled => (hfine route hroute (hcompared route hroute henabled)).1,
    fun route hroute henabled => (hfine route hroute (hcompared route hroute henabled)).2,
    fun msgID => ?_⟩
  refine (hdisjoint msgID).imp_of_mem fun {a b} hamem hbmem hab => ?_
  simp only [Bool.and_eq_true] at hab ⊢
  exact fun ⟨ha, hb⟩ =>
    hab ⟨⟨hcompared a hamem ha.1, ha.2⟩, hcompared b hbmem hb.1, hb.2⟩

end Compare

end ZCourier.Config
