import ZCourier.Config.PolicySelection
import ZCourier.Server.LocalQuota

/-!
# The rate of the local quota

A local quota store forgets a bucket after the idle time, and a bucket that is created again is
full. The configuration does not relate the idle time to the time a bucket takes to become full:
`idle_bucket_full_again` is an accepted configuration that allows twice the capacity within a
second. Otherwise the store keeps to its rate (`local_quota_rate`).
-/

namespace ZCourier.Config

open Go Server Library

variable {H N : Type}

/-- The key of a policy and client. -/
def quotaKey (policy : TrafficPolicy) (clientID : GoString) : LocalQuotaKey :=
  ⟨policy.name, policy.key, clientID⟩

/-- The store a gateway with this configuration starts with. -/
def localStore (config : PipelinePolicies) : LocalQuotaStore :=
  .new config.maxKeys config.idleTTL

/-- The calls for a policy and client that are allowed from `s` to `t`. -/
def allowedCalls (config : PipelinePolicies) (policy : TrafficPolicy) (clientID : GoString)
    (s t : Int) (calls : List QuotaCall) : Nat :=
  admitted (LocalQuotaStore.call (quotaKey policy clientID)) QuotaCall.time s t
    (localStore config) calls

section Rate

variable [ParseDuration]

/-- If the buckets of a policy become full within the idle time, then the calls for the policy and
a client that are allowed from `s` to `t` are no more than the capacity and what is refilled. -/
theorem local_quota_rate {file : File H N}
    {source : Except GoString (UpstreamRoutesDocument H N)} {config : ServerConfig H N}
    (hconfig : file.toServerConfig source = .ok config) {policy : TrafficPolicy}
    (hpolicy : policy ∈ config.trafficPolicies.selection.policies)
    (hidle : policy.tokenBucket.FullWhenIdle config.trafficPolicies.idleTTL)
    {clientID : GoString} {calls : List QuotaCall}
    (htimes : calls.Pairwise fun a b => a.env.now ≤ b.env.now)
    (hrequests : ∀ call ∈ calls, call.request.key = quotaKey policy clientID →
      call.request.tokenBucket = policy.tokenBucket)
    {s t : Int} (hst : s ≤ t) :
    (allowedCalls config.trafficPolicies policy clientID s t calls : Rat) ≤
      policy.tokenBucket.capacity +
        (t - s) * policy.tokenBucket.refillTokens / policy.tokenBucket.refillInterval := by
  obtain ⟨resolved, haccepted⟩ := to_server_config_iff.mp hconfig
  have hconverted := to_traffic_policies_iff.mp (to_pipeline_config_iff.mp haccepted.policies).1
  have hchecked := (converted_policies_checked hconverted.policies).2 policy hpolicy
  have hpos : policy.tokenBucket.Positive :=
    ⟨hchecked.capacity, hchecked.refillTokens, hchecked.refillInterval⟩
  have hcapacity : (0 : Rat) ≤ policy.tokenBucket.capacity := by exact_mod_cast hpos.capacity.le
  rw [mul_div_assoc]
  obtain ⟨start, hstart⟩ : ∃ start, Ordered QuotaCall.time start calls := by
    have hpairwise : calls.Pairwise fun a b => a.time ≤ b.time :=
      htimes.imp fun hle => Int.cast_le.mpr hle
    cases calls with
    | nil => exact ⟨0, .nil, by simp⟩
    | cons call rest =>
      exact ⟨call.time, hpairwise,
        List.forall_mem_cons.mpr ⟨le_rfl, (List.pairwise_cons.mp hpairwise).1⟩⟩
  have hempty : KeptInStore policy.tokenBucket config.trafficPolicies.idleTTL
      (quotaKey policy clientID) (localStore config.trafficPolicies) start :=
    ⟨rfl, fun b hb => by cases hb⟩
  exact admitted_le (local_governs hpos hidle) (rate_pos hpos).le hcapacity hempty hrequests hstart
    (Int.cast_le.mpr hst)

end Rate

/-! ## A bucket that is forgotten too early -/

/-- A file without routes, with the given idle time and one policy: five calls, and then one a
minute. -/
def idleFile (idleTTL : GoString) : File Unit Unit :=
  { plainFile [] with
    trafficPolicies := { noPolicies with
      enabled := true
      idleTTL := idleTTL
      policies := [plainPolicy (ascii "p") 1 []] } }

def minutePolicy : TrafficPolicy :=
  ⟨ascii "p", 1, ⟨[], 0, 0, []⟩, ascii "client_id", ⟨5, 1, 60 * second⟩⟩

/-- A call for the policy and a client `c`. -/
def minuteCall (now : Int) : QuotaCall :=
  ⟨⟨none, now⟩, ⟨ascii "p", ascii "client_id", ascii "c", ⟨5, 1, 60 * second⟩⟩⟩

theorem idle_file_accepted {idleTTL : GoString} {idle : Int}
    (h : @toIdleTTL .seconds idleTTL = .ok idle) :
    ∃ config, @File.toServerConfig Unit Unit .seconds (idleFile idleTTL) (.error []) = .ok config ∧
      config.trafficPolicies = ⟨true, .local, 100000, idle, none, ⟨[], [minutePolicy], []⟩⟩ := by
  let _ := ParseDuration.seconds
  let policies : PipelinePolicies :=
    ⟨true, .local, 100000, idle, none, ⟨[], [minutePolicy], []⟩⟩
  have hconverted : ConvertedPolicies (idleFile idleTTL).trafficPolicies
      ([] : List (Server.UpstreamRouteConfig Unit Unit)) policies :=
    { enabled := rfl, mode := rfl, maxKeysSign := lt_irrefl (0 : Int), maxKeys := rfl, idleTTL := h
      redis := rfl, defaultPolicy := rfl, routes := rfl, policies := rfl
      somePolicy := Bool.false_ne_true, knownDefault := Bool.false_ne_true, unambiguous := rfl }
  have hpipeline : (idleFile idleTTL).toPipelineConfig [] = .ok policies :=
    to_pipeline_config_iff.mpr ⟨to_traffic_policies_iff.mpr hconverted,
      ⟨0, rfl, Bool.false_ne_true, Bool.false_ne_true⟩, Bool.false_ne_true⟩
  have hproblems : (idleFile idleTTL).validateResolvedRoutes ⟨[], none⟩ = [] :=
    validate_resolved_iff.mpr
      ⟨⟨rfl, rfl, [], policies, rfl, hpipeline⟩,
        conflicts_iff.mpr (by simp [routeNames, AtMostOne]),
        rfl⟩
  exact ⟨⟨[msgIDBind], [], none, policies⟩, to_server_config_iff.mpr
    ⟨⟨[], none⟩, rfl, hproblems, rfl, rfl, rfl, rfl, hpipeline⟩, rfl⟩

theorem local_quota_rate_minute :
    let _ := ParseDuration.seconds
    ∃ config, (idleFile (ascii "300s")).toServerConfig (.error []) = .ok config ∧
      (allowedCalls config.trafficPolicies minutePolicy (ascii "c") 0 second
        (List.replicate 6 (minuteCall 0)) : Rat) ≤
          minutePolicy.tokenBucket.capacity + ((second : Int) - (0 : Int)) *
            minutePolicy.tokenBucket.refillTokens / minutePolicy.tokenBucket.refillInterval := by
  intro _
  obtain ⟨config, hconfig, hpolicies⟩ := idle_file_accepted
    (show @toIdleTTL .seconds (ascii "300s") = .ok (300 * second) from rfl)
  refine ⟨config, hconfig, local_quota_rate hconfig ?_ ?_ (by decide) (by decide) (by decide)⟩
  · rw [hpolicies]
    exact List.mem_cons_self
  · rw [hpolicies]
    unfold TokenBucketConfig.FullWhenIdle
    decide

theorem idle_bucket_full_again :
    let _ := ParseDuration.seconds
    ∃ config, (idleFile (ascii "1s")).toServerConfig (.error []) = .ok config ∧
      config.trafficPolicies.mode = .local ∧
      minutePolicy ∈ config.trafficPolicies.selection.policies ∧
      ∃ calls : List QuotaCall, (calls.Pairwise fun a b => a.env.now ≤ b.env.now) ∧
        (∀ call ∈ calls, call.request.key = quotaKey minutePolicy (ascii "c") ∧
          call.request.tokenBucket = minutePolicy.tokenBucket) ∧
        ¬(allowedCalls config.trafficPolicies minutePolicy (ascii "c") 0 second calls : Rat) ≤
          minutePolicy.tokenBucket.capacity + ((second : Int) - (0 : Int)) *
            minutePolicy.tokenBucket.refillTokens / minutePolicy.tokenBucket.refillInterval := by
  intro _
  obtain ⟨config, hconfig, hpolicies⟩ := idle_file_accepted
    (show @toIdleTTL .seconds (ascii "1s") = .ok second from rfl)
  refine ⟨config, hconfig, ?_, ?_, List.replicate 5 (minuteCall 0) ++
    List.replicate 5 (minuteCall second), ?_, ?_, ?_⟩
  · rw [hpolicies]
  · rw [hpolicies]
    exact List.mem_cons_self
  · decide
  · decide
  · rw [hpolicies]
    decide +kernel

end ZCourier.Config
