import ZCourier.Config.PolicyConversion

/-!
# The ambiguity check is exact

`validateTrafficPolicyAmbiguity` compares client selectors and message ranges of two policies
without a client or a message. `ambiguity_exact` is that it reports a conflict exactly if there
are a client and a message for which the selector finds two matching policies of the same
priority.
-/

namespace ZCourier.Config

open Go Server Library

/-! ## What the selector sees -/

def routeTakes (msgID : UInt32) (route : TrafficPolicyRoute) : Bool :=
  route.msgIDMin ≤ msgID && msgID ≤ rangeEnd route.msgIDMin route.msgIDMax

def selectorMatches (s : TrafficPolicySelector) (policy : TrafficPolicy) (clientID : GoString)
    (msgID : UInt32) : Bool :=
  policy.matches clientID msgID (s.resolveRoute msgID).1 (s.resolveRoute msgID).2

/-- Two policies of one priority that match together for some client and message. -/
def Ambiguous (s : TrafficPolicySelector) (left right : TrafficPolicy) : Prop :=
  left.priority = right.priority ∧ ∃ clientID msgID,
    selectorMatches s left clientID msgID = true ∧ selectorMatches s right clientID msgID = true

theorem Ambiguous.symm {s : TrafficPolicySelector} {left right : TrafficPolicy}
    (h : Ambiguous s left right) : Ambiguous s right left := by
  obtain ⟨hpriority, clientID, msgID, hleft, hright⟩ := h
  exact ⟨hpriority.symm, clientID, msgID, hright, hleft⟩

/-- Routes with distinct names, apart from those without a name. -/
def UniquelyNamed (routes : List TrafficPolicyRoute) : Prop :=
  ((routes.map TrafficPolicyRoute.name).filter (· ≠ [])).Nodup

/-- Routes of which no two take the same message. -/
def DisjointRoutes (routes : List TrafficPolicyRoute) : Prop :=
  ∀ msgID, AtMostOne (routeTakes msgID) routes

/-! ## Routes by name and by message -/

section Routes

variable {routes : List TrafficPolicyRoute} {s : TrafficPolicySelector} {name : GoString}
  {msgID : UInt32}

theorem UniquelyNamed.eq (h : UniquelyNamed routes) {a b : TrafficPolicyRoute} (ha : a ∈ routes)
    (hb : b ∈ routes) (hname : a.name ≠ []) (hsame : a.name = b.name) : a = b := by
  have hnodup : ((routes.filter fun route => route.name ≠ []).map
      TrafficPolicyRoute.name).Nodup := by
    have hswap : (routes.filter fun route => route.name ≠ []).map TrafficPolicyRoute.name =
        (routes.map TrafficPolicyRoute.name).filter (· ≠ []) := by
      rw [List.filter_map]
      rfl
    rw [hswap]
    exact h
  refine List.inj_on_of_nodup_map hnodup ?_ ?_ hsame
  · exact List.mem_filter.mpr ⟨ha, by simpa using hname⟩
  · exact List.mem_filter.mpr ⟨hb, by simpa [← hsame] using hname⟩

theorem resolve_route_eq_some {route : TrafficPolicyRoute}
    (h : s.routes.find? (routeTakes msgID) = some route) :
    s.resolveRoute msgID = (route.name, true) := by
  unfold TrafficPolicySelector.resolveRoute
  rw [show (s.routes.find? fun route =>
    route.msgIDMin ≤ msgID && msgID ≤ rangeEnd route.msgIDMin route.msgIDMax) = some route from h]

theorem resolve_route_eq_none (h : s.routes.find? (routeTakes msgID) = none) :
    s.resolveRoute msgID = ([], false) := by
  unfold TrafficPolicySelector.resolveRoute
  rw [show (s.routes.find? fun route =>
    route.msgIDMin ≤ msgID && msgID ≤ rangeEnd route.msgIDMin route.msgIDMax) = none from h]

theorem route_by_name_takes (hnames : UniquelyNamed s.routes) (hdisjoint : DisjointRoutes s.routes)
    (hname : name ≠ []) :
    (∃ route, routeByName s.routes name = some route ∧ routeTakes msgID route = true) ↔
      s.resolveRoute msgID = (name, true) := by
  constructor
  · rintro ⟨route, hroute, htakes⟩
    have hmem := List.mem_reverse.mp (List.mem_of_find?_eq_some hroute)
    have hfound := List.find?_some hroute
    simp only [ne_eq, Bool.and_eq_true, decide_eq_true_eq] at hfound
    rw [← hfound.2]
    refine resolve_route_eq_some (find?_eq_of_unique hmem htakes fun other hother hboth => ?_)
    exact (hdisjoint msgID).eq hmem hother htakes hboth
  · intro h
    cases hfind : s.routes.find? (routeTakes msgID) with
    | none =>
      rw [resolve_route_eq_none hfind] at h
      cases h
    | some route =>
      rw [resolve_route_eq_some hfind] at h
      obtain rfl : route.name = name := congrArg Prod.fst h
      refine ⟨route, ?_, List.find?_some hfind⟩
      have hmem := List.mem_of_find?_eq_some hfind
      refine find?_eq_of_unique (List.mem_reverse.mpr hmem) (by simpa using hname)
        fun other hother hboth => ?_
      simp only [ne_eq, Bool.and_eq_true, decide_eq_true_eq] at hboth
      exact (hnames.eq hmem (List.mem_reverse.mp hother) hname hboth.2.symm).symm

end Routes

/-! ## Intervals -/

section Intervals

variable {policy : TrafficPolicy} {s : TrafficPolicySelector} {msgID : UInt32}

def TrafficPolicyMsgIDInterval.Contains (interval : TrafficPolicyMsgIDInterval)
    (msgID : UInt32) : Prop :=
  interval.min ≤ msgID ∧ msgID ≤ interval.max

theorem policy_interval_contains (range : TrafficPolicyMatch) :
    (policyInterval range).Contains msgID ↔
      range.msgIDMin = 0 ∨
        range.msgIDMin ≤ msgID ∧ msgID ≤ rangeEnd range.msgIDMin range.msgIDMax := by
  unfold policyInterval TrafficPolicyMsgIDInterval.Contains
  by_cases hzero : range.msgIDMin = 0
  · rw [if_neg (by simpa using hzero)]
    refine ⟨fun _ => .inl hzero, fun _ => ⟨?_, ?_⟩⟩
    · exact UInt32.le_iff_toNat_le.mpr (Nat.zero_le _)
    · rw [UInt32.le_iff_toNat_le]
      show msgID.toNat ≤ 4294967295
      have := msgID.toNat_lt
      omega
  · rw [if_pos hzero]
    exact ⟨.inr, fun h => h.resolve_left hzero⟩

theorem policy_interval_nonempty {range : TrafficPolicyMatch} (h : WellFormedSelectors range) :
    (policyInterval range).min ≤ (policyInterval range).max := by
  unfold policyInterval
  split
  · exact h.range
  · decide

def commonInterval (interval : TrafficPolicyMsgIDInterval) (route : TrafficPolicyRoute) :
    TrafficPolicyMsgIDInterval :=
  ⟨max interval.min route.msgIDMin, min interval.max (rangeEnd route.msgIDMin route.msgIDMax)⟩

theorem common_interval_contains (interval : TrafficPolicyMsgIDInterval)
    (route : TrafficPolicyRoute) :
    (commonInterval interval route).Contains msgID ↔
      interval.Contains msgID ∧ routeTakes msgID route = true := by
  unfold commonInterval TrafficPolicyMsgIDInterval.Contains routeTakes
  rw [Bool.and_eq_true, decide_eq_true_eq, decide_eq_true_eq]
  show max interval.min route.msgIDMin ≤ msgID ∧ msgID ≤ min interval.max _ ↔ _
  rw [max_le_iff, le_min_iff]
  exact ⟨fun ⟨⟨h1, h2⟩, h3, h4⟩ => ⟨⟨h1, h3⟩, h2, h4⟩, fun ⟨⟨h1, h3⟩, h2, h4⟩ => ⟨⟨h1, h2⟩, h3, h4⟩⟩

theorem route_intervals_cons (interval : TrafficPolicyMsgIDInterval)
    (routes : List TrafficPolicyRoute) (name : GoString) (rest : List GoString) :
    routeIntervals interval routes (name :: rest) =
      (((routeByName routes name).map (commonInterval interval)).toList.filter
        fun one => one.min ≤ one.max) ++ routeIntervals interval routes rest := by
  rw [routeIntervals]
  cases routeByName routes name with
  | none => rfl
  | some route =>
    show (if (commonInterval interval route).min ≤ (commonInterval interval route).max
      then commonInterval interval route :: _ else _) = _
    by_cases hle : (commonInterval interval route).min ≤ (commonInterval interval route).max
    · simp [hle]
    · simp [hle]

theorem route_intervals_nonempty (interval : TrafficPolicyMsgIDInterval)
    (routes : List TrafficPolicyRoute) (names : List GoString) :
    ∀ one ∈ routeIntervals interval routes names, one.min ≤ one.max := by
  induction names with
  | nil => simp [routeIntervals]
  | cons name rest ih =>
    intro one hone
    rw [route_intervals_cons, List.mem_append] at hone
    rcases hone with hone | hone
    · simpa using (List.mem_filter.mp hone).2
    · exact ih one hone

theorem route_intervals_contain (interval : TrafficPolicyMsgIDInterval)
    (routes : List TrafficPolicyRoute) (names : List GoString) :
    (∃ one ∈ routeIntervals interval routes names, one.Contains msgID) ↔
      interval.Contains msgID ∧ ∃ name ∈ names, ∃ route,
        routeByName routes name = some route ∧ routeTakes msgID route = true := by
  induction names with
  | nil => simp [routeIntervals]
  | cons name rest ih =>
    have hfirst : (∃ one ∈ ((routeByName routes name).map (commonInterval interval)).toList.filter
        fun one => one.min ≤ one.max, one.Contains msgID) ↔
        interval.Contains msgID ∧ ∃ route,
          routeByName routes name = some route ∧ routeTakes msgID route = true := by
      constructor
      · rintro ⟨one, hone, hcontains⟩
        obtain ⟨route, hroute, rfl⟩ := Option.map_eq_some_iff.mp
          (Option.mem_toList.mp (List.mem_filter.mp hone).1)
        obtain ⟨hinterval, htakes⟩ := (common_interval_contains interval route).mp hcontains
        exact ⟨hinterval, route, hroute, htakes⟩
      · rintro ⟨hinterval, route, hroute, htakes⟩
        have hcontains := (common_interval_contains interval route).mpr ⟨hinterval, htakes⟩
        refine ⟨commonInterval interval route, List.mem_filter.mpr ⟨?_, ?_⟩, hcontains⟩
        · simp [hroute]
        · exact decide_eq_true (hcontains.1.trans hcontains.2)
    simp only [route_intervals_cons, List.mem_append, or_and_right, exists_or, hfirst, ih,
      List.mem_cons, exists_eq_left, ← and_or_left]

theorem intervals_contain (hnames : UniquelyNamed s.routes) (hdisjoint : DisjointRoutes s.routes)
    (hwell : WellFormedSelectors policy.matching) :
    (∃ one ∈ trafficPolicyIntervals policy s.routes, one.Contains msgID) ↔
      (policyInterval policy.matching).Contains msgID ∧
        (policy.matching.routes = [] ∨ (s.resolveRoute msgID).2 = true ∧
          (s.resolveRoute msgID).1 ∈ policy.matching.routes) := by
  unfold trafficPolicyIntervals
  by_cases hroutes : policy.matching.routes = []
  · simp [hroutes]
  rw [if_neg hroutes, route_intervals_contain]
  refine and_congr_right fun _ => ?_
  constructor
  · rintro ⟨name, hname, hroute⟩
    have hblank : name ≠ [] := fun h => hwell.routes (h ▸ hname)
    rw [route_by_name_takes hnames hdisjoint hblank] at hroute
    rw [hroute]
    exact .inr ⟨rfl, hname⟩
  · rintro (h | ⟨hfound, hname⟩)
    · exact absurd h hroutes
    · have hblank : (s.resolveRoute msgID).1 ≠ [] := fun h => hwell.routes (h ▸ hname)
      exact ⟨_, hname, (route_by_name_takes hnames hdisjoint hblank).mpr
        (Prod.ext rfl hfound)⟩

theorem intervals_nonempty (hwell : WellFormedSelectors policy.matching)
    (routes : List TrafficPolicyRoute) :
    ∀ one ∈ trafficPolicyIntervals policy routes, one.min ≤ one.max := by
  unfold trafficPolicyIntervals
  split
  · simpa using policy_interval_nonempty hwell
  · exact route_intervals_nonempty _ _ _

end Intervals

/-! ## Two policies -/

section Conflict

variable {s : TrafficPolicySelector} {left right : TrafficPolicy}

theorem intervals_overlap_iff {left right : List TrafficPolicyMsgIDInterval}
    (hleft : ∀ one ∈ left, one.min ≤ one.max) (hright : ∀ one ∈ right, one.min ≤ one.max) :
    trafficPolicyIntervalsOverlap left right = true ↔
      ∃ msgID, (∃ one ∈ left, one.Contains msgID) ∧ ∃ one ∈ right, one.Contains msgID := by
  have hpair : ∀ a ∈ left, ∀ b ∈ right, (a.min ≤ b.max && b.min ≤ a.max) = true ↔
      ∃ msgID, a.Contains msgID ∧ b.Contains msgID := by
    intro a ha b hb
    rw [Bool.and_eq_true, decide_eq_true_eq, decide_eq_true_eq]
    exact (overlap_iff (hleft a ha) (hright b hb)).symm
  simp only [trafficPolicyIntervalsOverlap, List.any_eq_true]
  constructor
  · rintro ⟨a, ha, b, hb, hab⟩
    obtain ⟨msgID, hma, hmb⟩ := (hpair a ha b hb).mp hab
    exact ⟨msgID, ⟨a, ha, hma⟩, b, hb, hmb⟩
  · rintro ⟨msgID, ⟨a, ha, hma⟩, b, hb, hmb⟩
    exact ⟨a, ha, b, hb, (hpair a ha b hb).mpr ⟨msgID, hma, hmb⟩⟩

theorem clients_overlap_iff (left right : List GoString) :
    trafficPolicyClientSelectorsOverlap left right = true ↔
      ∃ clientID, (left = [] ∨ clientID ∈ left) ∧ (right = [] ∨ clientID ∈ right) := by
  simp only [trafficPolicyClientSelectorsOverlap, Bool.or_eq_true, decide_eq_true_eq,
    List.any_eq_true, List.contains_iff_mem]
  constructor
  · rintro ((hleft | hright) | ⟨clientID, hleft, hright⟩)
    · cases right with
      | nil => exact ⟨[], .inl hleft, .inl rfl⟩
      | cons clientID rest => exact ⟨clientID, .inl hleft, .inr List.mem_cons_self⟩
    · cases left with
      | nil => exact ⟨[], .inl rfl, .inl hright⟩
      | cons clientID rest => exact ⟨clientID, .inr List.mem_cons_self, .inl hright⟩
    · exact ⟨clientID, .inr hleft, .inr hright⟩
  · rintro ⟨clientID, hleft | hleft, hright⟩
    · exact .inl (.inl hleft)
    · rcases hright with hright | hright
      · exact .inl (.inr hright)
      · exact .inr ⟨clientID, hleft, hright⟩

theorem selector_matches_iff {policy : TrafficPolicy} {clientID : GoString} {msgID : UInt32}
    (hnames : UniquelyNamed s.routes) (hdisjoint : DisjointRoutes s.routes)
    (hwell : WellFormedSelectors policy.matching) :
    selectorMatches s policy clientID msgID = true ↔
      (policy.matching.clientIDs = [] ∨ clientID ∈ policy.matching.clientIDs) ∧
        ∃ one ∈ trafficPolicyIntervals policy s.routes, one.Contains msgID := by
  rw [intervals_contain hnames hdisjoint hwell, policy_interval_contains]
  simp only [selectorMatches, TrafficPolicy.matches, Bool.and_eq_true, Bool.or_eq_true,
    decide_eq_true_eq, List.contains_iff_mem]
  exact and_assoc

theorem conflict_iff (hnames : UniquelyNamed s.routes) (hdisjoint : DisjointRoutes s.routes)
    (hleft : WellFormedSelectors left.matching) (hright : WellFormedSelectors right.matching) :
    trafficPoliciesConflict s.routes left right = true ↔ Ambiguous s left right := by
  simp only [trafficPoliciesConflict, Bool.and_eq_true, decide_eq_true_eq, clients_overlap_iff,
    intervals_overlap_iff (intervals_nonempty hleft _) (intervals_nonempty hright _),
    Ambiguous, selector_matches_iff hnames hdisjoint hleft,
    selector_matches_iff hnames hdisjoint hright]
  constructor
  · rintro ⟨⟨hpriority, clientID, hc, hc'⟩, msgID, hm, hm'⟩
    exact ⟨hpriority, clientID, msgID, ⟨hc, hm⟩, hc', hm'⟩
  · rintro ⟨hpriority, clientID, msgID, ⟨hc, hm⟩, hc', hm'⟩
    exact ⟨⟨hpriority, clientID, hc, hc'⟩, msgID, hm, hm'⟩

theorem ambiguity_eq_none (routes : List TrafficPolicyRoute) (policies : List TrafficPolicy) :
    validateTrafficPolicyAmbiguity routes policies = none ↔
      policies.Pairwise fun left right => ¬trafficPoliciesConflict routes left right = true := by
  induction policies with
  | nil => simp [validateTrafficPolicyAmbiguity]
  | cons left rest ih =>
    rw [validateTrafficPolicyAmbiguity, List.pairwise_cons, ← ih]
    cases hfind : rest.find? (trafficPoliciesConflict routes left) with
    | some right =>
      have hmem := List.mem_of_find?_eq_some hfind
      have hconflict := List.find?_some hfind
      exact ⟨fun h => (by cases h), fun h => absurd hconflict (h.1 right hmem)⟩
    | none => exact ⟨fun h => ⟨List.find?_eq_none.mp hfind, h⟩, And.right⟩

theorem ambiguity_exact {policies : List TrafficPolicy} (hnames : UniquelyNamed s.routes)
    (hdisjoint : DisjointRoutes s.routes)
    (hwell : ∀ policy ∈ policies, WellFormedSelectors policy.matching) :
    validateTrafficPolicyAmbiguity s.routes policies = none ↔
      policies.Pairwise fun left right => ¬Ambiguous s left right := by
  rw [ambiguity_eq_none]
  exact List.Pairwise.iff_of_mem fun {left right} hleft hright =>
    not_congr (conflict_iff hnames hdisjoint (hwell left hleft) (hwell right hright))

end Conflict

end ZCourier.Config
