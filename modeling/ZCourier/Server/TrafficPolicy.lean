import Mathlib.Data.Rat.Defs
import ZCourier.Go.Values
import ZCourier.Library.Table

/-!
# Traffic policies and quotas

The selection of a traffic policy for a client and message (`pipeline/traffic_policy.go`)
and the quota store that keeps a token bucket for each policy and client. Go's interface
`QuotaStore` is a class on the type that implements it; `LocalQuotaStore` is the
implementation of `quota_store_local.go`. Token counts are exact rationals here.
-/

namespace ZCourier.Server

open Go Library

/-! ## Selecting a policy -/

/-- `pipeline.TokenBucketConfig`. -/
structure TokenBucketConfig where
  capacity : Int
  refillTokens : Int
  refillInterval : Int
  deriving DecidableEq

/-- `pipeline.TrafficPolicyMatch`. -/
structure TrafficPolicyMatch where
  clientIDs : List GoString
  msgIDMin : UInt32
  msgIDMax : UInt32
  routes : List GoString

/-- `pipeline.TrafficPolicy`. -/
structure TrafficPolicy where
  name : GoString
  priority : Int
  matching : TrafficPolicyMatch
  key : GoString
  tokenBucket : TokenBucketConfig

/-- `pipeline.TrafficPolicyRoute`. -/
structure TrafficPolicyRoute where
  name : GoString
  msgIDMin : UInt32
  msgIDMax : UInt32

/-- `pipeline.TrafficPoliciesConfig`, as far as the handler reads it. -/
structure TrafficPoliciesConfig where
  defaultPolicy : GoString
  policies : List TrafficPolicy
  routes : List TrafficPolicyRoute

/-- `TrafficPolicyKeyClientID`. -/
def trafficPolicyKeyClientID : GoString := ascii "client_id"

/-- `pipeline.TrafficPolicySelection`. -/
structure TrafficPolicySelection where
  name : GoString
  key : GoString
  tokenBucket : TokenBucketConfig

def TrafficPolicy.selection (policy : TrafficPolicy) : TrafficPolicySelection :=
  ⟨policy.name, policy.key, policy.tokenBucket⟩

/-- The upper end of a range of `MsgID`s, whose zero value means its lower end. -/
def rangeEnd (msgIDMin msgIDMax : UInt32) : UInt32 :=
  if msgIDMax = 0 then msgIDMin else msgIDMax

/-- `compiledTrafficPolicy.matches`. -/
def TrafficPolicy.matches (policy : TrafficPolicy) (clientID : GoString) (msgID : UInt32)
    (routeName : GoString) (routeFound : Bool) : Bool :=
  let range := policy.matching
  (range.clientIDs = [] || range.clientIDs.contains clientID) &&
  (range.msgIDMin = 0 ||
    (range.msgIDMin ≤ msgID && msgID ≤ rangeEnd range.msgIDMin range.msgIDMax)) &&
  (range.routes = [] || (routeFound && range.routes.contains routeName))

/-- `pipeline.TrafficPolicySelector`. -/
structure TrafficPolicySelector where
  policies : List TrafficPolicy
  routes : List TrafficPolicyRoute
  defaultPolicy : Option TrafficPolicySelection

/-- The order of the policies: by falling priority, then by name. -/
def trafficPolicyLe (left right : TrafficPolicy) : Bool :=
  if left.priority ≠ right.priority then right.priority < left.priority
  else left.name ≤ right.name

/-- `NewTrafficPolicySelector`. -/
def newTrafficPolicySelector (config : TrafficPoliciesConfig) : TrafficPolicySelector :=
  let policies := config.policies.mergeSort trafficPolicyLe
  { policies
    routes := config.routes
    defaultPolicy :=
      (policies.find? fun policy => policy.name = config.defaultPolicy).map
        TrafficPolicy.selection }

namespace TrafficPolicySelector

/-- `SelectResolved`. -/
def selectResolved (s : TrafficPolicySelector) (clientID : GoString) (msgID : UInt32)
    (routeName : GoString) (routeFound : Bool) : Option TrafficPolicySelection :=
  match s.policies.find? fun policy => policy.matches clientID msgID routeName routeFound with
  | some policy => some policy.selection
  | none => s.defaultPolicy

/-- `resolveRoute`. -/
def resolveRoute (s : TrafficPolicySelector) (msgID : UInt32) : GoString × Bool :=
  match s.routes.find? fun route =>
      route.msgIDMin ≤ msgID && msgID ≤ rangeEnd route.msgIDMin route.msgIDMax with
  | some route => (route.name, true)
  | none => ([], false)

/-- `Select`. -/
def select (s : TrafficPolicySelector) (clientID : GoString) (msgID : UInt32) :
    Option TrafficPolicySelection :=
  let (routeName, routeFound) := s.resolveRoute msgID
  s.selectResolved clientID msgID routeName routeFound

end TrafficPolicySelector

/-! ## Quotas -/

/-- `pipeline.QuotaDecision`. -/
inductive QuotaDecision where
  | allowed
  | rateLimited
  | overloaded
  | admissionUnavailable
  deriving DecidableEq

/-- `pipeline.QuotaRequest`. -/
structure QuotaRequest where
  policyName : GoString
  keyScope : GoString
  keyValue : GoString
  tokenBucket : TokenBucketConfig

inductive QuotaError where
  | context (err : ContextError)
  | maxKeys
  | idleTTL
  | policyName
  | keyScope
  | keyValue
  | capacity
  | refillTokens
  | refillInterval
  | unavailable
  deriving DecidableEq

/-- What a quota store reads besides its arguments. -/
structure QuotaEnv where
  ctxErr : Option ContextError
  now : Int

/-- The method of `QuotaStore`, on the store's own state. -/
class QuotaStore (Q : Type) where
  admitQuota : Q → QuotaEnv → QuotaRequest → Except QuotaError QuotaDecision × Q

/-- `validateQuotaRequest`. -/
def validateQuotaRequest (request : QuotaRequest) : Option QuotaError :=
  if request.policyName = [] then some .policyName
  else if request.keyScope = [] then some .keyScope
  else if request.keyValue = [] then some .keyValue
  else if request.tokenBucket.capacity ≤ 0 then some .capacity
  else if request.tokenBucket.refillTokens ≤ 0 then some .refillTokens
  else if request.tokenBucket.refillInterval ≤ 0 then some .refillInterval
  else none

/-- `localQuotaKey`. -/
structure LocalQuotaKey where
  policyName : GoString
  keyScope : GoString
  keyValue : GoString
  deriving DecidableEq

/-- `localQuotaBucket`, with the key it is kept under. -/
structure LocalQuotaBucket where
  key : LocalQuotaKey
  tokens : Rat
  lastRefill : Int
  lastSeen : Int
  deriving DecidableEq

/-- `pipeline.LocalQuotaStore`; the least recently used key is at the end of `lru`. -/
structure LocalQuotaStore where
  maxKeys : Int
  idleTTL : Int
  buckets : Table LocalQuotaBucket.key
  lru : List LocalQuotaKey

namespace LocalQuotaStore

/-- `NewLocalQuotaStore`. -/
def new (maxKeys idleTTL : Int) : LocalQuotaStore := ⟨maxKeys, idleTTL, .empty, []⟩

/-- The loop of `removeIdleBuckets`, over the keys from the least recently used on. It stops at
the first key that is not idle. -/
def dropIdle (idleTTL now : Int) :
    List LocalQuotaKey → Table LocalQuotaBucket.key →
      List LocalQuotaKey × Table LocalQuotaBucket.key
  | [], buckets => ([], buckets)
  | key :: rest, buckets =>
    match buckets.get? key with
    -- every key of the list has a bucket
    | none => (key :: rest, buckets)
    | some bucket =>
      if now - bucket.lastSeen < idleTTL then (key :: rest, buckets)
      else dropIdle idleTTL now rest (buckets.erase key)

/-- `removeIdleBuckets`. -/
def removeIdleBuckets (s : LocalQuotaStore) (now : Int) : LocalQuotaStore :=
  let (lru, buckets) := dropIdle s.idleTTL now s.lru.reverse s.buckets
  { s with buckets := buckets, lru := lru.reverse }

/-- `refill`. -/
def refill (bucket : LocalQuotaBucket) (config : TokenBucketConfig) (now : Int) :
    LocalQuotaBucket :=
  let elapsed := now - bucket.lastRefill
  if elapsed ≤ 0 then bucket
  else
    let refill : Rat := (elapsed : Rat) / config.refillInterval * config.refillTokens
    { bucket with
      tokens := min (config.capacity : Rat) (bucket.tokens + refill)
      lastRefill := now }

/-- The end of `Admit`: a token is taken from the bucket if there is one. -/
def spend (s : LocalQuotaStore) (bucket : LocalQuotaBucket) :
    Except QuotaError QuotaDecision × LocalQuotaStore :=
  if bucket.tokens < 1 then (.ok .rateLimited, { s with buckets := s.buckets.put bucket })
  else
    (.ok .allowed, { s with buckets := s.buckets.put { bucket with tokens := bucket.tokens - 1 } })

/-- `Admit` with the lock taken. -/
def admitLocked (s : LocalQuotaStore) (now : Int) (request : QuotaRequest) :
    Except QuotaError QuotaDecision × LocalQuotaStore :=
  let key : LocalQuotaKey := ⟨request.policyName, request.keyScope, request.keyValue⟩
  let s := s.removeIdleBuckets now
  match s.buckets.get? key with
  | none =>
    if s.maxKeys ≤ s.buckets.rows.length then (.ok .overloaded, s)
    else
      { s with lru := key :: s.lru }.spend ⟨key, request.tokenBucket.capacity, now, now⟩
  | some bucket =>
    { s with lru := key :: s.lru.erase key }.spend
      { refill bucket request.tokenBucket now with lastSeen := now }

/-- `Admit`. -/
def admitQuota (s : LocalQuotaStore) (env : QuotaEnv) (request : QuotaRequest) :
    Except QuotaError QuotaDecision × LocalQuotaStore :=
  match env.ctxErr with
  | some err => (.error (.context err), s)
  | none =>
    if s.maxKeys ≤ 0 then (.error .maxKeys, s)
    else if s.idleTTL ≤ 0 then (.error .idleTTL, s)
    else
      match validateQuotaRequest request with
      | some err => (.error err, s)
      | none => s.admitLocked env.now request

instance : QuotaStore LocalQuotaStore where
  admitQuota := admitQuota

end LocalQuotaStore

end ZCourier.Server
