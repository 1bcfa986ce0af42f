import ZCourier.Config.File
import ZCourier.Config.PolicyConversion

/-!
# When a configuration is accepted

The checks and conversions of a file, taken apart: `AcceptedFile` lists what
`toServerConfig` has found and computed when it returns a configuration, and
`to_server_config_iff` is that it returns one exactly then.
-/

namespace ZCourier.Config

open Go Server Library

variable {H N : Type} [ParseDuration] {file : File H N}

/-- The limits of the pipeline section: the window of the rate limit, and not two limits. -/
structure LimitsAccepted (file : File H N) (policies : PipelinePolicies) : Prop where
  rateLimit : ∃ window, (if file.rateLimit.window = [] then some 0
      else ParseDuration.parseDuration file.rateLimit.window) = some window ∧
    ¬(file.rateLimit.enabled && file.rateLimit.maxRequests ≤ 0) = true ∧
    ¬(file.rateLimit.enabled && window ≤ 0) = true
  notBoth : ¬(file.rateLimit.enabled && policies.enabled) = true

theorem to_pipeline_config_iff {routes : List (Server.UpstreamRouteConfig H N)}
    {policies : PipelinePolicies} :
    file.toPipelineConfig routes = .ok policies ↔
      toTrafficPoliciesConfig file.trafficPolicies routes = .ok policies ∧
        LimitsAccepted file policies := by
  simp only [File.toPipelineConfig]
  generalize hwindow : (if file.rateLimit.window = [] then some 0
    else ParseDuration.parseDuration file.rateLimit.window) = window?
  cases window? with
  | none =>
    refine ⟨fun h => absurd h (by simp [throw_eq_ok]), fun ⟨_, hlimits⟩ => ?_⟩
    obtain ⟨window, hsome, -⟩ := hlimits.rateLimit
    rw [hwindow] at hsome
    cases hsome
  | some window =>
    simp only [refuse_if_eq_ok]
    cases hpolicies : toTrafficPoliciesConfig file.trafficPolicies routes with
    | error err => simp [throw_eq_ok]
    | ok converted =>
      simp only [refuse_if_eq_ok, pure_eq_ok, Except.ok.injEq]
      constructor
      · rintro ⟨hrequests, hpositive, hboth, rfl⟩
        exact ⟨rfl, ⟨window, hwindow, hrequests, hpositive⟩, hboth⟩
      · rintro ⟨rfl, ⟨same, hsame, hrequests, hpositive⟩, hboth⟩
        obtain rfl : window = same := Option.some.inj (hwindow.symm.trans hsame)
        exact ⟨hrequests, hpositive, hboth, rfl⟩

/-- When the resolved routes are accepted. -/
theorem validate_resolved_iff {resolved : ResolvedUpstreamRoutes H N} :
    file.validateResolvedRoutes resolved = [] ↔
      (file.sections = none ∧ file.authShape = none ∧
        ∃ converted policies, toUpstreamRoutes resolved.routes = .ok converted ∧
          file.toPipelineConfig converted = .ok policies) ∧
      validateUpstreamRouteConflicts resolved.routes = [] ∧
      validateRoutesInsideReloadRanges resolved.routes resolved.fileConfig = [] := by
  have hshape : file.validateShape resolved.routes = .ok () ↔
      file.sections = none ∧ file.authShape = none ∧
        ∃ converted policies, toUpstreamRoutes resolved.routes = .ok converted ∧
          file.toPipelineConfig converted = .ok policies := by
    unfold File.validateShape
    cases file.sections with
    | some reason => simp [bind_eq_ok, throw_eq_ok]
    | none =>
      simp only [bind_eq_ok, File.convertRoutes, map_error_eq_ok]
      cases file.authShape with
      | some reason => simp [throw_eq_ok]
      | none => simp [pure_eq_ok]
  rw [← hshape, File.validateResolvedRoutes, List.append_eq_nil_iff, List.append_eq_nil_iff,
    List.map_eq_nil_iff, List.map_eq_nil_iff, and_assoc]
  refine and_congr_left fun _ => ?_
  cases file.validateShape resolved.routes with
  | error err => simp
  | ok _ => simp

/-- What `toServerConfig` has found and computed when it returns a configuration. -/
structure AcceptedFile (file : File H N) (source : Except GoString (UpstreamRoutesDocument H N))
    (resolved : ResolvedUpstreamRoutes H N) (config : ServerConfig H N) : Prop where
  resolves : file.resolveUpstreamRoutes source = .ok resolved
  problems : file.validateResolvedRoutes resolved = []
  verifier : file.verifier = none
  routeMsgIDs : config.routeMsgIDs =
    if file.routeMsgIDs.isEmpty then [msgIDBind] else file.routeMsgIDs
  routes : toUpstreamRoutes resolved.routes = .ok config.upstreamRoutes
  routesFile : config.routesFile = resolved.fileConfig
  policies : file.toPipelineConfig config.upstreamRoutes = .ok config.trafficPolicies

theorem to_server_config_iff {source : Except GoString (UpstreamRoutesDocument H N)}
    {config : ServerConfig H N} :
    file.toServerConfig source = .ok config ↔
      ∃ resolved, AcceptedFile file source resolved config := by
  simp only [File.toServerConfig, bind_eq_ok, refuse_if_eq_ok, map_error_eq_ok]
  refine exists_congr fun resolved => ?_
  constructor
  · rintro ⟨hresolved, hproblems, h⟩
    have hproblems : file.validateResolvedRoutes resolved = [] := by simpa using hproblems
    rw [(validate_resolved_iff.mp hproblems).1.1] at h
    simp only [bind_eq_ok, map_error_eq_ok, File.convertRoutes] at h
    obtain ⟨routes, hroutes, policies, hpolicies, h⟩ := h
    cases hverifier : file.verifier with
    | some reason => simp only [hverifier, bind_eq_ok, throw_eq_ok, false_and, exists_false] at h
    | none =>
      simp only [hverifier, pure_eq_ok] at h
      subst h
      exact ⟨hresolved, hproblems, hverifier, rfl, hroutes, rfl, hpolicies⟩
  · intro h
    refine ⟨h.resolves, by simp [h.problems], ?_⟩
    rw [(validate_resolved_iff.mp h.problems).1.1]
    simp only [bind_eq_ok, map_error_eq_ok, File.convertRoutes, h.verifier, pure_eq_ok]
    refine ⟨config.upstreamRoutes, h.routes, config.trafficPolicies, h.policies, ?_⟩
    rw [← h.routeMsgIDs, ← h.routesFile]

end ZCourier.Config
