import ZCourier.Config.PolicyAmbiguity
import ZCourier.Config.RouteResolution

/-!
# Selecting a traffic policy

The selector sorts the policies by falling priority and takes the first that matches. With
policies that are not ambiguous this is the only one of the highest priority (`selects_highest`),
and the order in which they are configured has no effect. `traffic_policies_exact` adds the
exactness of the ambiguity check.
-/

namespace ZCourier.Config

open Go Server Library

variable {H N : Type}

/-- `Select` gives the one matching policy of the highest priority; if none matches, the default
policy; and nothing if there is none. -/
def SelectsHighest (config : Server.TrafficPoliciesConfig) (clientID : GoString)
    (msgID : UInt32) : Prop :=
  let s := newTrafficPolicySelector config
  (∃ policy ∈ config.policies, selectorMatches s policy clientID msgID = true ∧
    (∀ other ∈ config.policies, selectorMatches s other clientID msgID = true →
      other = policy ∨ other.priority < policy.priority) ∧
    s.select clientID msgID = some policy.selection) ∨
  (∀ policy ∈ config.policies, selectorMatches s policy clientID msgID = false) ∧
    ((∃ policy ∈ config.policies, policy.name = config.defaultPolicy ∧
      s.select clientID msgID = some policy.selection) ∨
    (∀ policy ∈ config.policies, policy.name ≠ config.defaultPolicy) ∧
      s.select clientID msgID = none)

/-! ## The selector -/

section Selector

variable {config : Server.TrafficPoliciesConfig}

theorem traffic_policy_le_eq :
    trafficPolicyLe = byTime (fun policy => -policy.priority) TrafficPolicy.name := by
  funext left right
  unfold trafficPolicyLe byTime
  by_cases hsame : left.priority = right.priority
  · simp [hsame]
  · have hneg : ¬-left.priority = -right.priority := by omega
    simp only [ne_eq, hsame, not_false_eq_true, if_true, hneg, if_false]
    exact decide_eq_decide.mpr (by omega)

theorem selector_policies_perm :
    (newTrafficPolicySelector config).policies.Perm config.policies :=
  List.mergeSort_perm _ _

theorem select_eq (s : TrafficPolicySelector) (clientID : GoString) (msgID : UInt32) :
    s.select clientID msgID =
      match s.policies.find? fun policy => selectorMatches s policy clientID msgID with
      | some policy => some policy.selection
      | none => s.defaultPolicy := rfl

theorem default_policy_cases :
    (∃ policy ∈ config.policies, policy.name = config.defaultPolicy ∧
      (newTrafficPolicySelector config).defaultPolicy = some policy.selection) ∨
    (∀ policy ∈ config.policies, policy.name ≠ config.defaultPolicy) ∧
      (newTrafficPolicySelector config).defaultPolicy = none := by
  have hdefault : (newTrafficPolicySelector config).defaultPolicy =
      ((newTrafficPolicySelector config).policies.find? fun policy =>
        policy.name = config.defaultPolicy).map TrafficPolicy.selection := rfl
  rw [hdefault]
  cases hfind : (newTrafficPolicySelector config).policies.find? fun policy =>
    policy.name = config.defaultPolicy with
  | some policy =>
    exact .inl ⟨policy, selector_policies_perm.mem_iff.mp (List.mem_of_find?_eq_some hfind),
      by simpa using List.find?_some hfind, rfl⟩
  | none =>
    refine .inr ⟨fun policy hpolicy => ?_, rfl⟩
    simpa using List.find?_eq_none.mp hfind policy (selector_policies_perm.mem_iff.mpr hpolicy)

theorem selects_highest
    (hclear : config.policies.Pairwise fun left right =>
      ¬Ambiguous (newTrafficPolicySelector config) left right) (clientID : GoString)
    (msgID : UInt32) : SelectsHighest config clientID msgID := by
  unfold SelectsHighest
  intro s
  have hperm : s.policies.Perm config.policies := selector_policies_perm
  have hselect := select_eq s clientID msgID
  cases hfind : s.policies.find? fun policy => selectorMatches s policy clientID msgID with
  | none =>
    rw [hfind] at hselect
    refine .inr ⟨fun policy hpolicy => ?_, ?_⟩
    · simpa using List.find?_eq_none.mp hfind policy (hperm.mem_iff.mpr hpolicy)
    · rw [hselect]
      exact default_policy_cases
  | some policy =>
    rw [hfind] at hselect
    have hmatches := List.find?_some hfind
    obtain ⟨-, front, back, hsplit, hfront⟩ := List.find?_eq_some_iff_append.mp hfind
    refine .inl ⟨policy, hperm.mem_iff.mp (List.mem_of_find?_eq_some hfind), hmatches, ?_,
      hselect⟩
    intro other hother hboth
    have hsorted : s.policies.Pairwise fun left right => right.priority ≤ left.priority := by
      have hby := @pairwise_by_time _ (fun policy => -policy.priority) TrafficPolicy.name
        config.policies
      rw [← traffic_policy_le_eq] at hby
      refine hby.imp fun {left right} hle => ?_
      rw [traffic_policy_le_eq, by_time_eq] at hle
      have := key_le_of_lex_le hle
      omega
    have hunambiguous : s.policies.Pairwise fun left right => ¬Ambiguous s left right :=
      (hperm.pairwise_iff fun hpair hswap => hpair hswap.symm).mpr hclear
    -- policies before the one found do not match, and those after it are not above it
    have hmem := hsplit ▸ hperm.mem_iff.mpr hother
    rw [hsplit] at hsorted hunambiguous
    rcases List.mem_append.mp hmem with hbefore | hafter
    · have := hfront other hbefore
      simp [hboth] at this
    · rcases List.mem_cons.mp hafter with hsame | hback
      · exact .inl hsame
      · have hle := (List.pairwise_cons.mp (List.pairwise_append.mp hsorted).2.1).1 other hback
        have hne := (List.pairwise_cons.mp (List.pairwise_append.mp hunambiguous).2.1).1 other
          hback
        refine .inr (lt_of_le_of_ne hle fun hpriority => hne ?_)
        exact ⟨hpriority.symm, clientID, msgID, hmatches, hboth⟩

theorem selector_eq_of_perm {policies : List TrafficPolicy}
    (hnames : (config.policies.map TrafficPolicy.name).Nodup)
    (hperm : policies.Perm config.policies) :
    newTrafficPolicySelector { config with policies } = newTrafficPolicySelector config := by
  have hsort : policies.mergeSort trafficPolicyLe = config.policies.mergeSort trafficPolicyLe := by
    rw [traffic_policy_le_eq]
    exact (merge_sort_eq_of_perm hnames hperm.symm).symm
  simp only [newTrafficPolicySelector, hsort]

end Selector

/-! ## Accepted configurations -/

section Accepted

variable {routes : List (UpstreamRouteConfig H N)}
  {converted : List (Server.UpstreamRouteConfig H N)}

theorem uniquely_named_of_unambiguous (hunambiguous : Unambiguous routes)
    (h : toUpstreamRoutes routes = .ok converted) :
    UniquelyNamed (converted.map toTrafficPolicyRoute) := by
  have hnames : (routes.filter upstreamRouteEnabled).map (fun route => trimSpace route.name) =
      (converted.map toTrafficPolicyRoute).map TrafficPolicyRoute.name := by
    rw [List.map_map]
    refine map_eq_of_counterparts (converted_forall₂ h) fun route one hone => ?_
    rw [← (to_upstream_route_ok hone).2.1]
    rfl
  unfold UniquelyNamed
  rw [← hnames]
  exact hunambiguous.names

theorem disjoint_of_unambiguous (hunambiguous : Unambiguous routes)
    (h : toUpstreamRoutes routes = .ok converted) :
    DisjointRoutes (converted.map toTrafficPolicyRoute) := by
  intro msgID
  have htakes : (routes.filter upstreamRouteEnabled).map (fun route => route.takes msgID) =
      (converted.map toTrafficPolicyRoute).map (routeTakes msgID) := by
    rw [List.map_map]
    refine map_eq_of_counterparts (converted_forall₂ h) fun route one hone => ?_
    obtain ⟨hvalid, -, hmin, hmax, -⟩ := to_upstream_route_ok hone
    simp only [Function.comp_apply, routeTakes, toTrafficPolicyRoute, range_end_range_end, hmin,
      hmax]
    exact matches_msg_id_eq (valid_range hvalid).1 _ _
  rw [← at_most_one_of_map htakes, AtMostOne, List.pairwise_filter]
  refine (hunambiguous.disjoint msgID).imp fun {a b} hab ha hb hboth => hab ?_
  simp [ha, hb, hboth]

variable [ParseDuration]

variable {config : PipelinePolicies} {raw : TrafficPoliciesConfig}

theorem converted_routes_separate (hunambiguous : Unambiguous routes)
    (hroutes : toUpstreamRoutes routes = .ok converted)
    (h : ConvertedPolicies raw converted config) :
    UniquelyNamed config.selection.routes ∧ DisjointRoutes config.selection.routes := by
  rw [h.routes]
  exact ⟨uniquely_named_of_unambiguous hunambiguous hroutes,
    disjoint_of_unambiguous hunambiguous hroutes⟩

theorem converted_policies_clear (hunambiguous : Unambiguous routes)
    (hroutes : toUpstreamRoutes routes = .ok converted)
    (h : ConvertedPolicies raw converted config) :
    config.selection.policies.Pairwise fun left right =>
      ¬Ambiguous (newTrafficPolicySelector config.selection) left right := by
  have hchecked := (converted_policies_checked h.policies).2
  obtain ⟨hnames, hdisjoint⟩ := converted_routes_separate hunambiguous hroutes h
  refine (@ambiguity_exact (newTrafficPolicySelector config.selection) _ hnames hdisjoint ?_).mp
    h.unambiguous
  exact fun policy hpolicy => (hchecked policy hpolicy).selectors

theorem converted_policies_reordered {policies : List TrafficPolicyConfig}
    (hunambiguous : Unambiguous routes) (hroutes : toUpstreamRoutes routes = .ok converted)
    (h : ConvertedPolicies raw converted config) (hperm : policies.Perm raw.policies) :
    ∃ other, ConvertedPolicies { raw with policies } converted other ∧
      other.enabled = config.enabled ∧
      newTrafficPolicySelector other.selection = newTrafficPolicySelector config.selection := by
  obtain ⟨same, hsame, hsamePerm⟩ := converted_policies_perm hperm h.policies
  obtain ⟨hnames, hchecked⟩ := converted_policies_checked h.policies
  have hclear := converted_policies_clear hunambiguous hroutes h
  have hselector := @selector_eq_of_perm config.selection same hnames hsamePerm
  refine ⟨{ config with selection := { config.selection with policies := same } }, ?_, rfl,
    hselector⟩
  have hambiguity : validateTrafficPolicyAmbiguity config.selection.routes same = none := by
    obtain ⟨hnames, hdisjoint⟩ := converted_routes_separate hunambiguous hroutes h
    refine (@ambiguity_exact (newTrafficPolicySelector config.selection) same hnames hdisjoint
      fun policy hpolicy => ?_).mpr ?_
    · exact (hchecked policy (hsamePerm.mem_iff.mp hpolicy)).selectors
    · exact (hsamePerm.pairwise_iff fun hpair hswap => hpair hswap.symm).mpr hclear
  exact
    { h with
      policies := hsame
      somePolicy := by
        have := h.somePolicy
        simpa [hsamePerm.isEmpty_eq] using this
      knownDefault := by
        have := h.knownDefault
        simpa [hsamePerm.all_eq] using this
      unambiguous := hambiguity }

/-- The ambiguity check is exact, and in every accepted configuration `Select` gives the matching
policy of the highest priority, the default policy or nothing, in whatever order the policies are
configured. -/
theorem traffic_policies_exact :
    (∀ config : Server.TrafficPoliciesConfig,
      (∀ policy ∈ config.policies, WellFormedSelectors policy.matching) →
      UniquelyNamed config.routes → DisjointRoutes config.routes →
      (validateTrafficPolicyAmbiguity config.routes config.policies = none ↔
        config.policies.Pairwise fun left right =>
          ¬Ambiguous (newTrafficPolicySelector config) left right)) ∧
    ∀ (file : File H N) (source : Except GoString (UpstreamRoutesDocument H N))
      (config : ServerConfig H N), file.toServerConfig source = .ok config →
      (∀ clientID msgID, SelectsHighest config.trafficPolicies.selection clientID msgID) ∧
      ∀ policies, policies.Perm file.trafficPolicies.policies →
        ∃ other,
          { file with trafficPolicies := { file.trafficPolicies with policies } }.toServerConfig
            source = .ok other ∧
          ∀ clientID msgID,
            (newTrafficPolicySelector other.trafficPolicies.selection).select clientID msgID =
              (newTrafficPolicySelector config.trafficPolicies.selection).select
                clientID msgID := by
  refine ⟨fun config hwell hnames hdisjoint =>
    @ambiguity_exact (newTrafficPolicySelector config) _ hnames hdisjoint hwell, ?_⟩
  intro file source config hconfig
  obtain ⟨resolved, haccepted⟩ := to_server_config_iff.mp hconfig
  obtain ⟨-, hunambiguous, -⟩ := accepted_spec haccepted.problems
  obtain ⟨hpolicies, hlimits⟩ := to_pipeline_config_iff.mp haccepted.policies
  have hconverted := to_traffic_policies_iff.mp hpolicies
  refine ⟨selects_highest (converted_policies_clear hunambiguous haccepted.routes hconverted),
    fun policies hperm => ?_⟩
  obtain ⟨other, hother, henabled, hselector⟩ :=
    converted_policies_reordered hunambiguous haccepted.routes hconverted hperm
  refine ⟨{ config with trafficPolicies := other }, to_server_config_iff.mpr ⟨resolved, ?_⟩,
    fun clientID msgID => by rw [hselector]⟩
  have hpipeline : { file with trafficPolicies :=
      { file.trafficPolicies with policies } }.toPipelineConfig config.upstreamRoutes =
        .ok other := to_pipeline_config_iff.mpr
    ⟨to_traffic_policies_iff.mpr hother, hlimits.rateLimit, henabled ▸ hlimits.notBoth⟩
  obtain ⟨⟨hsections, hauth, -⟩, hconflicts, hinside⟩ := validate_resolved_iff.mp haccepted.problems
  exact
    { haccepted with
      resolves := haccepted.resolves
      problems := validate_resolved_iff.mpr
        ⟨⟨hsections, hauth, _, _, haccepted.routes, hpipeline⟩, hconflicts, hinside⟩
      policies := hpipeline }

end Accepted

/-! ## Two policies -/

/-- A policy with the given name, priority and route selectors. -/
def plainPolicy (name : GoString) (priority : Int) (routes : List GoString) : TrafficPolicyConfig :=
  ⟨name, none, priority, ⟨[], 0, 0, routes⟩, [], ⟨5, 1, ascii "60s"⟩⟩

def twoPoliciesFile : File Unit Unit :=
  { plainFile [plainRoute (ascii "a") 10 19] with
    trafficPolicies := { noPolicies with
      enabled := true
      policies := [plainPolicy (ascii "low") 1 [], plainPolicy (ascii "high") 2 [ascii "a"]] } }

theorem traffic_policies_exact_two :
    let _ := ParseDuration.seconds
    ∃ config, twoPoliciesFile.toServerConfig (.error []) = .ok config ∧
      SelectsHighest config.trafficPolicies.selection (ascii "c") 15 ∧
      config.trafficPolicies.selection.policies.Pairwise fun left right =>
        ¬Ambiguous (newTrafficPolicySelector config.trafficPolicies.selection) left right := by
  let _ := ParseDuration.seconds
  have hconflicts : validateUpstreamRouteConflicts [plainRoute (ascii "a") 10 19] = [] := by
    have hcollected : collectRanges [] 0 [plainRoute (ascii "a") 10 19] =
      ([], [⟨.name (ascii "a"), 10, 19⟩]) := by decide
    simp [validateUpstreamRouteConflicts, hcollected, neighbourProblems]
  have hshape : twoPoliciesFile.validateShape [plainRoute (ascii "a") 10 19] = .ok () := rfl
  have hproblems : twoPoliciesFile.validateResolvedRoutes ⟨[plainRoute (ascii "a") 10 19], none⟩ =
      [] := by
    simp only [File.validateResolvedRoutes, hshape, hconflicts]
    rfl
  have hresolved : twoPoliciesFile.resolveUpstreamRoutes (.error []) =
    .ok ⟨[plainRoute (ascii "a") 10 19], none⟩ := rfl
  obtain ⟨config, hconfig⟩ : ∃ config,
      twoPoliciesFile.toServerConfig (.error []) = .ok config := by
    simp only [File.toServerConfig, hresolved, hproblems, map_error_ok, bind, Except.bind]
    exact ⟨_, rfl⟩
  obtain ⟨resolved, haccepted⟩ := to_server_config_iff.mp hconfig
  have hconverted := to_traffic_policies_iff.mp (to_pipeline_config_iff.mp haccepted.policies).1
  obtain ⟨hnames, hdisjoint⟩ := converted_routes_separate (accepted_spec haccepted.problems).2.1
    haccepted.routes hconverted
  have hchecked := (converted_policies_checked hconverted.policies).2
  refine ⟨config, hconfig, ?_, ?_⟩
  · exact (traffic_policies_exact.2 twoPoliciesFile (.error []) config hconfig).1 _ _
  · exact ((@traffic_policies_exact Unit Unit _).1 config.trafficPolicies.selection
      (fun policy hpolicy => (hchecked policy hpolicy).selectors) hnames hdisjoint).mp
      hconverted.unambiguous

end ZCourier.Config
