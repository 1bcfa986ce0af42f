import ZCourier.Go.Text
import ZCourier.Server.Upstream

/-!
# Traffic policies in the configuration file

After `internal/config/traffic_policy.go`: the checks and defaults by which the `traffic_policies`
section becomes the configuration of the pipeline, with the routes of the gateway. A Go map from
names to routes is the function that looks a name up in the list the map was filled from.
-/

namespace ZCourier.Config

open Go Server

variable {H N : Type}

/-! ## The section -/

/-- `config.TrafficPolicyRedisConfig`. -/
structure TrafficPolicyRedisConfig where
  addr : GoString
  username : GoString
  password : GoString
  db : Int
  keyPrefix : GoString
  dialTimeout : GoString
  readTimeout : GoString
  writeTimeout : GoString
  operationTimeout : GoString
  failureMode : GoString
  deriving DecidableEq

/-- `config.TrafficPolicyTokenBucketConfig`. -/
structure TrafficPolicyTokenBucketConfig where
  capacity : Int
  refillTokens : Int
  refillInterval : GoString

/-- `config.TrafficPolicyConfig`. -/
structure TrafficPolicyConfig where
  name : GoString
  enabled : Option Bool
  priority : Int
  matching : TrafficPolicyMatch
  key : GoString
  tokenBucket : TrafficPolicyTokenBucketConfig

/-- `config.TrafficPoliciesConfig`. -/
structure TrafficPoliciesConfig where
  enabled : Bool
  mode : GoString
  maxKeys : Int
  idleTTL : GoString
  redis : TrafficPolicyRedisConfig
  defaultPolicy : GoString
  policies : List TrafficPolicyConfig

/-- `pipeline.TrafficPolicyModeLocal` and `pipeline.TrafficPolicyModeRedis`. -/
inductive TrafficPolicyMode where
  | «local»
  | redis

/-- `pipeline.RedisQuotaStoreConfig`. -/
structure RedisQuotaStoreConfig where
  addr : GoString
  username : GoString
  password : GoString
  db : Int
  keyPrefix : GoString
  idleTTL : Int
  dialTimeout : Int
  readTimeout : Int
  writeTimeout : Int
  operationTimeout : Int
  failureMode : GoString

/-- `pipeline.TrafficPoliciesConfig`; what selects policies is in `selection`. -/
structure PipelinePolicies where
  enabled : Bool
  mode : TrafficPolicyMode
  maxKeys : Int
  idleTTL : Int
  redis : Option RedisQuotaStoreConfig
  selection : Server.TrafficPoliciesConfig

/-- The fields of a Redis section that hold a duration. -/
inductive RedisTimeout where
  | dial
  | read
  | write
  | operation

inductive SelectorKind where
  | clientID
  | route

/-- The errors of the conversion. A `none` duration did not parse, other ones are not positive. -/
inductive TrafficPolicyError where
  | mode (mode : GoString)
  | maxKeys
  | idleTTL (parsed : Option Int)
  | redisWithoutMode
  | redisAddr
  | redisDB
  | redisIdleTTL
  | redisKeyPrefix
  | redisTimeout (field : RedisTimeout) (parsed : Option Int)
  | redisFailureMode
  | blankDefault
  | nameRequired (position : Nat)
  | priority (policy : GoString)
  | key (policy key : GoString)
  | blankSelector (policy : GoString) (kind : SelectorKind)
  | duplicateSelector (policy : GoString) (kind : SelectorKind) (value : GoString)
  | unknownRoute (policy route : GoString)
  | msgIDMin (policy : GoString)
  | msgIDMax (policy : GoString)
  | capacity (policy : GoString)
  | refillTokens (policy : GoString)
  | refillInterval (policy : GoString) (parsed : Option Int)
  | unmatchable (policy : GoString)
  | duplicatePolicy (policy : GoString)
  | noPolicy
  | unknownDefault (policy : GoString)
  | overlap (left right : GoString) (priority : Int)

/-! ## Durations -/

section Durations

variable [ParseDuration]

/-- `parseOptionalPositiveDuration`; the error is the duration that was read, if any. -/
def parseOptionalPositiveDuration (raw : GoString) : Except (Option Int) Int :=
  if raw = [] then .ok 0
  else
    match ParseDuration.parseDuration raw with
    | none => .error none
    | some duration => if duration ≤ 0 then .error (some duration) else .ok duration

/-- `trafficPolicyRedisDuration`. -/
def trafficPolicyRedisDuration (raw : GoString) (default : Int) (field : RedisTimeout) :
    Except TrafficPolicyError Int :=
  match parseOptionalPositiveDuration (trimSpace raw) with
  | .error parsed => .error (.redisTimeout field parsed)
  | .ok parsed => .ok (if parsed = 0 then default else parsed)

/-! ## The Redis settings -/

def millisecond : Int := 1000000

/-- `trafficPolicyRedisConfigSet`. -/
def trafficPolicyRedisConfigSet (config : TrafficPolicyRedisConfig) : Bool :=
  config ≠ ⟨[], [], [], 0, [], [], [], [], [], []⟩

/-- The key prefix of `toTrafficPolicyRedisConfig`. -/
def redisKeyPrefix (raw : GoString) : Except TrafficPolicyError GoString :=
  if raw = [] then .ok (ascii "zcourier:traffic-policy")
  else if trimSpace raw = [] then .error .redisKeyPrefix
  else .ok (trimSpace raw)

/-- The failure mode of `toTrafficPolicyRedisConfig`. -/
def redisFailureMode (raw : GoString) : Except TrafficPolicyError GoString :=
  let failureMode := toLower (trimSpace raw)
  if failureMode = [] || failureMode = ascii "fail_closed" then .ok (ascii "fail_closed")
  else .error .redisFailureMode

/-- `toTrafficPolicyRedisConfig`. -/
def toTrafficPolicyRedisConfig (config : TrafficPolicyRedisConfig) (idleTTL : Int) :
    Except TrafficPolicyError RedisQuotaStoreConfig := do
  let addr := trimSpace config.addr
  if addr = [] then throw .redisAddr
  if config.db < 0 then throw .redisDB
  if idleTTL < millisecond then throw .redisIdleTTL
  let keyPrefix ← redisKeyPrefix config.keyPrefix
  let dialTimeout ← trafficPolicyRedisDuration config.dialTimeout second .dial
  let readTimeout ← trafficPolicyRedisDuration config.readTimeout (500 * millisecond) .read
  let writeTimeout ← trafficPolicyRedisDuration config.writeTimeout (500 * millisecond) .write
  let operationTimeout ←
    trafficPolicyRedisDuration config.operationTimeout (250 * millisecond) .operation
  let failureMode ← redisFailureMode config.failureMode
  return ⟨addr, trimSpace config.username, config.password, config.db, keyPrefix, idleTTL,
    dialTimeout, readTimeout, writeTimeout, operationTimeout, failureMode⟩

end Durations

/-! ## Routes and ranges -/

def toTrafficPolicyRoute (route : Server.UpstreamRouteConfig H N) : TrafficPolicyRoute :=
  ⟨trimSpace route.name, route.msgIDMin, rangeEnd route.msgIDMin route.msgIDMax⟩

/-- `routeByName`: of several routes with one name the map has the last one. -/
def routeByName (routes : List TrafficPolicyRoute) (name : GoString) : Option TrafficPolicyRoute :=
  routes.reverse.find? fun route => route.name ≠ [] && route.name = name

/-- `trafficPolicyMsgIDInterval`. -/
structure TrafficPolicyMsgIDInterval where
  min : UInt32
  max : UInt32

/-- The range of a policy's own selector. -/
def policyInterval (range : TrafficPolicyMatch) : TrafficPolicyMsgIDInterval :=
  if range.msgIDMin ≠ 0 then ⟨range.msgIDMin, rangeEnd range.msgIDMin range.msgIDMax⟩
  else ⟨0, 0xFFFFFFFF⟩

/-- The loop of `trafficPolicyIntervals` over the route selectors. -/
def routeIntervals (interval : TrafficPolicyMsgIDInterval) (routes : List TrafficPolicyRoute) :
    List GoString → List TrafficPolicyMsgIDInterval
  | [] => []
  | name :: rest =>
    match routeByName routes name with
    | none => routeIntervals interval routes rest
    | some route =>
      let intersection : TrafficPolicyMsgIDInterval :=
        ⟨max interval.min route.msgIDMin,
          min interval.max (rangeEnd route.msgIDMin route.msgIDMax)⟩
      if intersection.min ≤ intersection.max then
        intersection :: routeIntervals interval routes rest
      else routeIntervals interval routes rest

/-- `trafficPolicyIntervals`. -/
def trafficPolicyIntervals (policy : TrafficPolicy) (routes : List TrafficPolicyRoute) :
    List TrafficPolicyMsgIDInterval :=
  if policy.matching.routes = [] then [policyInterval policy.matching]
  else routeIntervals (policyInterval policy.matching) routes policy.matching.routes

/-- `trafficPolicyIntervalsOverlap`. -/
def trafficPolicyIntervalsOverlap (left right : List TrafficPolicyMsgIDInterval) : Bool :=
  left.any fun a => right.any fun b => a.min ≤ b.max && b.min ≤ a.max

/-- `trafficPolicyClientSelectorsOverlap`. -/
def trafficPolicyClientSelectorsOverlap (left right : List GoString) : Bool :=
  left = [] || right = [] || left.any fun value => right.contains value

/-- The condition under which `validateTrafficPolicyAmbiguity` reports two policies. -/
def trafficPoliciesConflict (routes : List TrafficPolicyRoute) (left right : TrafficPolicy) :
    Bool :=
  left.priority = right.priority &&
    trafficPolicyClientSelectorsOverlap left.matching.clientIDs right.matching.clientIDs &&
    trafficPolicyIntervalsOverlap (trafficPolicyIntervals left routes)
      (trafficPolicyIntervals right routes)

/-- `validateTrafficPolicyAmbiguity`. -/
def validateTrafficPolicyAmbiguity (routes : List TrafficPolicyRoute) :
    List TrafficPolicy → Option TrafficPolicyError
  | [] => none
  | left :: rest =>
    match rest.find? (trafficPoliciesConflict routes left) with
    | some right => some (.overlap left.name right.name left.priority)
    | none => validateTrafficPolicyAmbiguity routes rest

/-! ## One policy -/

/-- `normalizeTrafficPolicyValues`, with the values seen so far. -/
def normalizeTrafficPolicyValues (kind : SelectorKind) (policyName : GoString) :
    List GoString → List GoString → Except TrafficPolicyError (List GoString)
  | _, [] => .ok []
  | seen, value :: rest =>
    let value := trimSpace value
    if value = [] then .error (.blankSelector policyName kind)
    else if value ∈ seen then .error (.duplicateSelector policyName kind value)
    else (normalizeTrafficPolicyValues kind policyName (value :: seen) rest).map (value :: ·)

section Policies

variable [ParseDuration]

/-- The refill interval of `toTrafficPolicy`. -/
def toRefillInterval (name raw : GoString) : Except TrafficPolicyError Int :=
  match parseOptionalPositiveDuration (trimSpace raw) with
  | .error parsed => .error (.refillInterval name parsed)
  | .ok interval => if interval ≤ 0 then .error (.refillInterval name (some interval))
      else .ok interval

/-- `toTrafficPolicy`. -/
def toTrafficPolicy (config : TrafficPolicyConfig) (index : Nat)
    (routes : List TrafficPolicyRoute) : Except TrafficPolicyError (TrafficPolicy × Bool) := do
  let name := trimSpace config.name
  if name = [] then throw (.nameRequired (index + 1))
  if config.priority ≤ 0 then throw (.priority name)
  let rawKey := toLower (trimSpace config.key)
  let key := if rawKey = [] then trafficPolicyKeyClientID else rawKey
  if key ≠ trafficPolicyKeyClientID then throw (.key name key)
  let clientIDs ← normalizeTrafficPolicyValues .clientID name [] config.matching.clientIDs
  let routeNames ← normalizeTrafficPolicyValues .route name [] config.matching.routes
  match routeNames.find? fun route => (routeByName routes route).isNone with
  | some route => throw (.unknownRoute name route)
  | none =>
    if config.matching.msgIDMin = 0 && config.matching.msgIDMax ≠ 0 then throw (.msgIDMin name)
    if config.matching.msgIDMax ≠ 0 && config.matching.msgIDMax < config.matching.msgIDMin then
      throw (.msgIDMax name)
    if config.tokenBucket.capacity ≤ 0 then throw (.capacity name)
    if config.tokenBucket.refillTokens ≤ 0 then throw (.refillTokens name)
    let refillInterval ← toRefillInterval name config.tokenBucket.refillInterval
    let policy : TrafficPolicy :=
      ⟨name, config.priority,
        ⟨clientIDs, config.matching.msgIDMin, config.matching.msgIDMax, routeNames⟩, key,
        ⟨config.tokenBucket.capacity, config.tokenBucket.refillTokens, refillInterval⟩⟩
    if trafficPolicyIntervals policy routes = [] then throw (.unmatchable name)
    return (policy, config.enabled.getD true)

/-! ## The whole section -/

/-- The mode of `toTrafficPoliciesConfig`. -/
def toTrafficPolicyMode (raw : GoString) : Except TrafficPolicyError TrafficPolicyMode :=
  let mode := toLower (trimSpace raw)
  if mode = [] || mode = ascii "local" then .ok .local
  else if mode = ascii "redis" then .ok .redis
  else .error (.mode mode)

/-- The idle time of `toTrafficPoliciesConfig`. -/
def toIdleTTL (raw : GoString) : Except TrafficPolicyError Int :=
  if trimSpace raw = [] then .ok (600 * second)
  else
    match parseOptionalPositiveDuration (trimSpace raw) with
    | .error parsed => .error (.idleTTL parsed)
    | .ok idleTTL => .ok idleTTL

/-- The Redis settings of `toTrafficPoliciesConfig`. -/
def toRedisSettings (mode : TrafficPolicyMode) (config : TrafficPolicyRedisConfig)
    (idleTTL : Int) : Except TrafficPolicyError (Option RedisQuotaStoreConfig) :=
  match mode with
  | .local => if trafficPolicyRedisConfigSet config then .error .redisWithoutMode else .ok none
  | .redis => (toTrafficPolicyRedisConfig config idleTTL).map some

/-- The loop of `toTrafficPoliciesConfig` over the policies from position `index` on, with the
names seen so far: the enabled policies. -/
def toTrafficPolicies (routes : List TrafficPolicyRoute) :
    Nat → List GoString → List TrafficPolicyConfig → Except TrafficPolicyError (List TrafficPolicy)
  | _, _, [] => .ok []
  | index, names, config :: rest => do
      let (policy, enabled) ← toTrafficPolicy config index routes
      if policy.name ∈ names then throw (.duplicatePolicy policy.name)
      let policies ← toTrafficPolicies routes (index + 1) (policy.name :: names) rest
      return if enabled then policy :: policies else policies

/-- The default policy of `toTrafficPoliciesConfig`. -/
def toDefaultPolicy (raw : GoString) : Except TrafficPolicyError GoString :=
  if raw ≠ [] && trimSpace raw = [] then .error .blankDefault else .ok (trimSpace raw)

/-- `toTrafficPoliciesConfig`. -/
def toTrafficPoliciesConfig (config : TrafficPoliciesConfig)
    (routes : List (Server.UpstreamRouteConfig H N)) :
    Except TrafficPolicyError PipelinePolicies := do
  let mode ← toTrafficPolicyMode config.mode
  if config.maxKeys < 0 then throw .maxKeys
  let maxKeys := if config.maxKeys = 0 then 100000 else config.maxKeys
  let idleTTL ← toIdleTTL config.idleTTL
  let redis ← toRedisSettings mode config.redis idleTTL
  let defaultPolicy ← toDefaultPolicy config.defaultPolicy
  let policyRoutes := routes.map toTrafficPolicyRoute
  let policies ← toTrafficPolicies policyRoutes 0 [] config.policies
  if config.enabled && policies.isEmpty then throw .noPolicy
  if defaultPolicy ≠ [] && policies.all fun policy => policy.name ≠ defaultPolicy then
    throw (.unknownDefault defaultPolicy)
  match validateTrafficPolicyAmbiguity policyRoutes policies with
  | some err => throw err
  | none =>
    return ⟨config.enabled, mode, maxKeys, idleTTL, redis,
      ⟨defaultPolicy, policies, policyRoutes⟩⟩

end Policies

end ZCourier.Config
