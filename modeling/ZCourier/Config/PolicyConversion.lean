import ZCourier.Config.TrafficPolicies
import ZCourier.Library.Checks
import ZCourier.Library.Ranges

/-!
# What an accepted traffic policy section consists of

`ConvertedPolicies` lists what `toTrafficPoliciesConfig` has checked and computed when it
accepts a section, and `to_traffic_policies_iff` is that it accepts exactly then. The
lemmas about the loop over the policies say what each policy of the result is.
-/

namespace ZCourier.Config

open Go Server Library

variable {H N : Type} [ParseDuration]

/-- What an accepted section is converted to. -/
structure ConvertedPolicies (raw : TrafficPoliciesConfig)
    (routes : List (Server.UpstreamRouteConfig H N)) (config : PipelinePolicies) : Prop where
  enabled : config.enabled = raw.enabled
  mode : toTrafficPolicyMode raw.mode = .ok config.mode
  maxKeysSign : ¬raw.maxKeys < 0
  maxKeys : config.maxKeys = if raw.maxKeys = 0 then 100000 else raw.maxKeys
  idleTTL : toIdleTTL raw.idleTTL = .ok config.idleTTL
  redis : toRedisSettings config.mode raw.redis config.idleTTL = .ok config.redis
  defaultPolicy : toDefaultPolicy raw.defaultPolicy = .ok config.selection.defaultPolicy
  routes : config.selection.routes = routes.map toTrafficPolicyRoute
  policies : toTrafficPolicies config.selection.routes 0 [] raw.policies =
    .ok config.selection.policies
  somePolicy : ¬(raw.enabled && config.selection.policies.isEmpty)
  knownDefault : ¬(config.selection.defaultPolicy ≠ [] &&
    config.selection.policies.all fun policy => policy.name ≠ config.selection.defaultPolicy)
  unambiguous :
    validateTrafficPolicyAmbiguity config.selection.routes config.selection.policies = none

theorem to_traffic_policies_iff {raw : TrafficPoliciesConfig}
    {routes : List (Server.UpstreamRouteConfig H N)} {config : PipelinePolicies} :
    toTrafficPoliciesConfig raw routes = .ok config ↔ ConvertedPolicies raw routes config := by
  simp only [toTrafficPoliciesConfig, bind_eq_ok, refuse_if_eq_ok]
  constructor
  · rintro ⟨mode, hmode, hsign, idleTTL, hidle, redis, hredis, defaultPolicy, hdefault, policies,
      hpolicies, hsome, hknown, hresult⟩
    cases hambiguity : validateTrafficPolicyAmbiguity
      (routes.map toTrafficPolicyRoute) policies with
    | some err => simp [hambiguity, throw_eq_ok] at hresult
    | none =>
      simp only [hambiguity, pure_eq_ok] at hresult
      subst hresult
      exact ⟨rfl, hmode, hsign, rfl, hidle, hredis, hdefault, rfl, hpolicies, hsome, hknown,
        hambiguity⟩
  · intro h
    have hroutes := h.routes
    refine ⟨config.mode, h.mode, h.maxKeysSign, config.idleTTL, h.idleTTL, config.redis, h.redis,
      config.selection.defaultPolicy, h.defaultPolicy, config.selection.policies,
      hroutes ▸ h.policies, h.somePolicy, h.knownDefault, ?_⟩
    rw [← hroutes, h.unambiguous]
    simp only [pure_eq_ok, ← h.maxKeys, ← h.enabled]

/-! ## One policy -/

omit [ParseDuration] in
theorem normalized_values_ne_nil {kind : SelectorKind} {name : GoString}
    {seen values normalized : List GoString}
    (h : normalizeTrafficPolicyValues kind name seen values = .ok normalized) :
    [] ∉ normalized := by
  induction values generalizing seen normalized with
  | nil => cases h; simp
  | cons value rest ih =>
    simp only [normalizeTrafficPolicyValues, error_if_eq_ok, map_eq_ok] at h
    obtain ⟨hblank, -, others, hothers, rfl⟩ := h
    rw [List.mem_cons, not_or]
    exact ⟨Ne.symm hblank, ih hothers⟩

structure WellFormedSelectors (selectors : TrafficPolicyMatch) : Prop where
  range : selectors.msgIDMin ≤ rangeEnd selectors.msgIDMin selectors.msgIDMax
  routes : [] ∉ selectors.routes

omit [ParseDuration] in
theorem range_of_checked {msgIDMin msgIDMax : UInt32}
    (h : ¬(msgIDMax ≠ 0 && msgIDMax < msgIDMin) = true) :
    msgIDMin ≤ rangeEnd msgIDMin msgIDMax := by
  unfold rangeEnd
  split
  · exact le_rfl
  · next hmax =>
    refine not_lt.mp fun hlt => h ?_
    simp [hmax, hlt]

theorem refill_interval_pos {name raw : GoString} {interval : Int}
    (h : toRefillInterval name raw = .ok interval) : 0 < interval := by
  unfold toRefillInterval at h
  split at h
  · cases h
  · rw [error_if_eq_ok] at h
    rw [← Except.ok.inj h.2]
    exact not_le.mp h.1

/-- What `toTrafficPolicy` has checked in a policy it returns. -/
structure CheckedPolicy (policy : TrafficPolicy) : Prop where
  name : policy.name ≠ []
  priority : 0 < policy.priority
  key : policy.key = trafficPolicyKeyClientID
  selectors : WellFormedSelectors policy.matching
  capacity : 0 < policy.tokenBucket.capacity
  refillTokens : 0 < policy.tokenBucket.refillTokens
  refillInterval : 0 < policy.tokenBucket.refillInterval

variable {routes : List TrafficPolicyRoute}

theorem to_traffic_policy_ok {raw : TrafficPolicyConfig} {index : Nat}
    {result : TrafficPolicy × Bool} (h : toTrafficPolicy raw index routes = .ok result) :
    CheckedPolicy result.1 ∧ ∀ other, toTrafficPolicy raw other routes = .ok result := by
  have hindex : ¬trimSpace raw.name = [] → ∀ other,
      toTrafficPolicy raw other routes = toTrafficPolicy raw index routes := by
    intro hname other
    simp only [toTrafficPolicy, hname, if_false]
  have hsame := h
  simp only [toTrafficPolicy, refuse_if_eq_ok, bind_eq_ok] at h
  obtain ⟨hname, hpriority, hkey, clientIDs, hclients, routeNames, hroutes, h⟩ := h
  refine ⟨?_, fun other => (hindex hname other).trans hsame⟩
  cases hunknown : routeNames.find? fun route => (routeByName routes route).isNone with
  | some route => simp [hunknown, throw_eq_ok] at h
  | none =>
    simp only [hunknown, refuse_if_eq_ok, bind_eq_ok, pure_eq_ok] at h
    obtain ⟨-, hrange, hcapacity, htokens, interval, hinterval, -, rfl⟩ := h
    exact
      { name := hname
        priority := not_le.mp hpriority
        key := not_not.mp hkey
        selectors := ⟨range_of_checked hrange, normalized_values_ne_nil hroutes⟩
        capacity := not_le.mp hcapacity
        refillTokens := not_le.mp htokens
        refillInterval := refill_interval_pos hinterval }

/-! ## The loop over the policies -/

variable {policies : List TrafficPolicy}

theorem to_traffic_policies_loop {index : Nat} {names : List GoString}
    {raw : List TrafficPolicyConfig} : toTrafficPolicies routes index names raw = .ok policies ↔
      ∃ all : List (TrafficPolicy × Bool),
        List.Forall₂ (fun one result => toTrafficPolicy one 0 routes = .ok result) raw all ∧
        (all.map fun result => result.1.name).Nodup ∧
        (∀ result ∈ all, result.1.name ∉ names) ∧
        policies = (all.filter Prod.snd).map Prod.fst := by
  induction raw generalizing index names policies with
  | nil =>
    constructor
    · intro h
      cases h
      exact ⟨[], .nil, by simp, by simp, rfl⟩
    · rintro ⟨all, hall, -, -, rfl⟩
      cases hall
      rfl
  | cons one rest ih =>
    simp only [toTrafficPolicies, bind_eq_ok, refuse_if_eq_ok, pure_eq_ok, ih]
    constructor
    · rintro ⟨result, hresult, hnew, others, ⟨all, hall, hnodup, hnames, rfl⟩, rfl⟩
      refine ⟨result :: all, .cons ((to_traffic_policy_ok hresult).2 0) hall, ?_, ?_, ?_⟩
      · rw [List.map_cons, List.nodup_cons]
        refine ⟨fun hmem => ?_, hnodup⟩
        obtain ⟨other, hother, hname⟩ := List.mem_map.mp hmem
        exact hnames other hother (hname ▸ List.mem_cons_self)
      · refine List.forall_mem_cons.mpr ⟨hnew, fun other hother hmem => ?_⟩
        exact hnames other hother (List.mem_cons_of_mem _ hmem)
      · cases henabled : result.2 <;> simp [henabled]
    · rintro ⟨all, hall, hnodup, hnames, rfl⟩
      cases hall with
      | @cons _ result _ all hresult hall =>
        rw [List.map_cons, List.nodup_cons] at hnodup
        obtain ⟨hnew, hothers⟩ := List.forall_mem_cons.mp hnames
        refine ⟨result, (to_traffic_policy_ok hresult).2 index, hnew, _,
          ⟨all, hall, hnodup.2, fun other hother hmem => ?_, rfl⟩, ?_⟩
        · rcases List.mem_cons.mp hmem with hsame | hmem
          · exact hnodup.1 (hsame ▸ List.mem_map_of_mem hother)
          · exact hothers other hother hmem
        · cases henabled : result.2 <;> simp [henabled]

theorem converted_policies_checked {raw : List TrafficPolicyConfig}
    (h : toTrafficPolicies routes 0 [] raw = .ok policies) :
    (policies.map TrafficPolicy.name).Nodup ∧ ∀ policy ∈ policies, CheckedPolicy policy := by
  obtain ⟨all, hall, hnodup, -, rfl⟩ := to_traffic_policies_loop.mp h
  constructor
  · rw [List.map_map]
    exact hnodup.sublist (List.filter_sublist.map _)
  · intro policy hpolicy
    obtain ⟨result, hresult, rfl⟩ := List.mem_map.mp hpolicy
    obtain ⟨one, -, hone⟩ :=
      exists_counterpart hall.flip (List.mem_filter.mp hresult).1
    exact (to_traffic_policy_ok hone).1

theorem converted_policies_perm {raw other : List TrafficPolicyConfig} (hperm : other.Perm raw)
    (h : toTrafficPolicies routes 0 [] raw = .ok policies) :
    ∃ same, toTrafficPolicies routes 0 [] other = .ok same ∧ same.Perm policies := by
  obtain ⟨all, hall, hnodup, -, rfl⟩ := to_traffic_policies_loop.mp h
  obtain ⟨all', hall', hsame⟩ := List.perm_comp_forall₂ hperm hall
  refine ⟨_, to_traffic_policies_loop.mpr ⟨all', hall', ?_, by simp, rfl⟩, ?_⟩
  · exact (hsame.map _).nodup_iff.mpr hnodup
  · exact (hsame.filter _).map _

end ZCourier.Config
