import ZCourier.Go.Strconv
import ZCourier.Protocol.Packet
import ZCourier.Server.Registry
import ZCourier.Server.TrafficPolicy

/-!
# The ingress pipeline

The handlers of `newIngressPipeline` (`internal/server/gateway.go`): authentication, the allow and
block lists, the rate limit, the traffic policies, the session binding and the cluster route. A
handler changes the packet's context and the gateway's state, also where it refuses the packet; the
chain stops at the first refusal. Logging and metrics, and so the last handler, are left out. The
verifier, the quota store and the registry are any implementations of their interfaces.
-/

namespace ZCourier.Server

open Go Library

/-- `protocol.AckCode`. -/
inductive AckCode where
  | accepted
  | decodeFailed
  | unauthorized
  | authUnavailable
  | rejected
  deriving DecidableEq

/-! ## Authentication -/

/-- `auth.Principal`. -/
structure Principal where
  clientID : GoString
  tokenID : GoString
  subject : GoString
  scopes : List GoString
  expiresAt : Int
  deriving DecidableEq

inductive AuthError where
  | invalidToken
  | expiredToken
  | forbidden
  | providerTimeout
  | providerUnavailable
  | misconfigured
  | other
  deriving DecidableEq

/-- The method of `auth.Verifier`, on the verifier's own state; a principal may be nil. -/
class Verifier (V : Type) where
  verify : V → GoString → Except AuthError (Option Principal) × V

/-- `StaticTokenVerifier`: the principals by token. -/
structure StaticTokenVerifier where
  tokens : Table (Prod.fst : GoString × Principal → GoString)

/-- `StaticTokenVerifier.Verify`. -/
def StaticTokenVerifier.verify (v : StaticTokenVerifier) (token : GoString) :
    Except AuthError (Option Principal) :=
  if token = [] then .error .invalidToken
  else
    match v.tokens.get? token with
    | none => .error .invalidToken
    | some (_, principal) =>
      if principal.clientID = [] then .error .invalidToken else .ok (some principal)

instance : Verifier StaticTokenVerifier where
  verify v token := (v.verify token, v)

/-- `authAckCode`. -/
def authAckCode : AuthError → AckCode
  | .providerTimeout | .providerUnavailable => .authUnavailable
  | .misconfigured => .rejected
  | _ => .unauthorized

/-! ## Refusals -/

/-- Why a packet is refused: the errors the handlers make, with what their texts say. -/
inductive Refusal where
  | verifierNotConfigured
  | verification (err : AuthError)
  | emptyPrincipal
  | clientBlocked (clientID : GoString)
  | msgIDBlocked (msgID : UInt32)
  | clientNotAllowed (clientID : GoString)
  | msgIDNotAllowed (msgID : UInt32)
  | rateLimitMisconfigured
  | rateLimitExceeded (key : GoString)
  | trafficMisconfigured
  | trafficUnauthenticated
  | trafficPolicyMisconfigured (policy : GoString)
  | trafficRateLimited (policy : GoString)
  | trafficOverloaded (policy : GoString)
  | trafficUnavailable (policy : GoString)
  | principalNotVerified
  | session (err : SessionError)
  | sessionNotBound
  | principalMismatch
  | deviceMismatch
  | sessionMismatch
  | registry (err : RegistryError)
  deriving DecidableEq

/-- `pipeline.Error`; an empty reason stands for the text of the error. -/
structure PipelineError where
  code : AckCode
  reason : GoString
  err : Refusal
  deriving DecidableEq

/-- `Reject`. -/
def reject (code : AckCode) (err : Refusal) : Option PipelineError :=
  some ⟨code, [], err⟩

/-- `RejectWithReason`. -/
def rejectWithReason (code : AckCode) (reason : GoString) (err : Refusal) : Option PipelineError :=
  some ⟨code, reason, err⟩

/-! ## Context and state -/

/-- `pipeline.Context`, with the connection and the error of its own context. -/
structure Context where
  connID : UInt64
  ctxErr : Option ContextError
  packet : Packet
  principal : Option Principal
  bindResult : Option BindResult
  session : Option Session
  routeResolutionSet : Bool
  routeFound : Bool
  routeName : GoString

/-- `NewContext`. -/
def newContext (connID : UInt64) (ctxErr : Option ContextError) (packet : Packet) : Context :=
  ⟨connID, ctxErr, packet, none, none, none, false, false, []⟩

/-- `PolicyHandler`: the lists without their zero values. -/
structure PolicyHandler where
  allowClientIDs : List GoString
  blockClientIDs : List GoString
  allowMsgIDs : List UInt32
  blockMsgIDs : List UInt32

/-- `NewPolicyHandler`. -/
def newPolicyHandler (allowClientIDs blockClientIDs : List GoString)
    (allowMsgIDs blockMsgIDs : List UInt32) : PolicyHandler where
  allowClientIDs := allowClientIDs.filter (· ≠ [])
  blockClientIDs := blockClientIDs.filter (· ≠ [])
  allowMsgIDs := allowMsgIDs.filter (· ≠ 0)
  blockMsgIDs := blockMsgIDs.filter (· ≠ 0)

/-- `RateLimitConfig`. -/
structure RateLimitConfig where
  enabled : Bool
  maxRequests : Int
  window : Int

/-- `rateBucket`, with the key it is kept under. The count is an `int` of 64 bits. -/
structure RateBucket where
  key : GoString
  windowStart : Int
  count : Int

/-- What does not change while the gateway runs. There is no traffic policy handler while traffic
policies are disabled. -/
structure PipelineConfig where
  policy : PolicyHandler
  rateLimit : RateLimitConfig
  trafficPolicies : Option TrafficPolicySelector
  gatewayNode : GoString
  internalAddr : GoString

/-- What the handlers read and write. A gateway may have no verifier, no quota store and no
registry. -/
structure PipelineState (V Q R : Type) where
  verifier : Option V
  rateBuckets : Table RateBucket.key
  quota : Option Q
  sessions : Manager
  registry : Option R

/-- The clocks the handlers read and the id of a created session. -/
structure PipelineEnv where
  rateLimitNow : Int
  quotaNow : Int
  touchNow : Int
  sessions : SessionEnv
  registryNow : Int

/-- What a handler returns: a refusal, if there is one, and the context and state it leaves. -/
structure Handled (V Q R : Type) where
  refusal : Option PipelineError
  context : Context
  state : PipelineState V Q R

/-- `pipeline.Handler`. -/
abbrev Handler (V Q R : Type) := PipelineEnv → Context → PipelineState V Q R → Handled V Q R

section

variable {V Q R : Type} [Verifier V] [QuotaStore Q] [OnlineRegistry R]

/-! ## The handlers -/

/-- `AuthHandler.Handle`. -/
def authHandler : Handler V Q R := fun _ ctx state =>
  match state.verifier with
  | none => ⟨reject .unauthorized .verifierNotConfigured, ctx, state⟩
  | some verifier =>
    let (verified, verifier) := Verifier.verify verifier ctx.packet.token
    let state := { state with verifier := some verifier }
    match verified with
    | .error err => ⟨reject (authAckCode err) (.verification err), ctx, state⟩
    | .ok none => ⟨reject .unauthorized .emptyPrincipal, ctx, state⟩
    | .ok (some principal) =>
      if principal.clientID = [] then ⟨reject .unauthorized .emptyPrincipal, ctx, state⟩
      else ⟨none, { ctx with principal := some principal }, state⟩

def Context.verifiedClientID? (ctx : Context) : Option GoString :=
  match ctx.principal with
  | some principal => if principal.clientID ≠ [] then some principal.clientID else none
  | none => none

/-- The client a `PolicyHandler` decides about. -/
def policyClientID (ctx : Context) : GoString :=
  ctx.verifiedClientID?.getD ctx.packet.clientID

/-- The decision of `PolicyHandler.Handle`. -/
def PolicyHandler.decide (h : PolicyHandler) (clientID : GoString) (msgID : UInt32) :
    Option PipelineError :=
  if h.blockClientIDs.contains clientID then reject .rejected (.clientBlocked clientID)
  else if h.blockMsgIDs.contains msgID then reject .rejected (.msgIDBlocked msgID)
  else if h.allowClientIDs ≠ [] && !h.allowClientIDs.contains clientID then
    reject .rejected (.clientNotAllowed clientID)
  else if h.allowMsgIDs ≠ [] && !h.allowMsgIDs.contains msgID then
    reject .rejected (.msgIDNotAllowed msgID)
  else none

/-- `PolicyHandler.Handle`. -/
def policyHandler (h : PolicyHandler) : Handler V Q R := fun _ ctx state =>
  ⟨h.decide (policyClientID ctx) ctx.packet.msgID, ctx, state⟩

/-- `rateLimitKey`. -/
def rateLimitKey (ctx : Context) : GoString :=
  match ctx.verifiedClientID? with
  | some clientID => ascii "client:" ++ clientID
  | none =>
    if ctx.packet.clientID ≠ [] then ascii "client:" ++ ctx.packet.clientID
    else ascii "conn:" ++ formatInt ctx.connID.toNat

/-- The bucket of a key with the call counted in it; the count wraps around. -/
def countedBucket (buckets : Table RateBucket.key) (window now : Int) (key : GoString) :
    RateBucket :=
  match buckets.get? key with
  | some bucket =>
    if isZero bucket.windowStart || window ≤ now - bucket.windowStart then ⟨key, now, 1⟩
    else { bucket with count := int64 (bucket.count + 1) }
  | none => ⟨key, now, 1⟩

/-- `RateLimitHandler.Handle`. -/
def rateLimitHandler (h : RateLimitConfig) : Handler V Q R := fun env ctx state =>
  if !h.enabled then ⟨none, ctx, state⟩
  else if h.maxRequests ≤ 0 || h.window ≤ 0 then
    ⟨reject .rejected .rateLimitMisconfigured, ctx, state⟩
  else
    let key := rateLimitKey ctx
    let bucket := countedBucket state.rateBuckets h.window env.rateLimitNow key
    let state := { state with rateBuckets := state.rateBuckets.put bucket }
    if h.maxRequests < bucket.count then
      ⟨rejectWithReason .rejected (ascii "rate_limited") (.rateLimitExceeded key), ctx, state⟩
    else ⟨none, ctx, state⟩

/-- The policy a `TrafficPolicyHandler` selects. -/
def selectedPolicy (selector : TrafficPolicySelector) (ctx : Context) (clientID : GoString) :
    Option TrafficPolicySelection :=
  if ctx.routeResolutionSet then
    selector.selectResolved clientID ctx.packet.msgID ctx.routeName ctx.routeFound
  else selector.select clientID ctx.packet.msgID

/-- What a quota decision means for the packet. -/
def quotaRefusal (policy : GoString) : QuotaDecision → Option PipelineError
  | .allowed => none
  | .rateLimited =>
    rejectWithReason .rejected (ascii "rate_limited") (.trafficRateLimited policy)
  | .overloaded => rejectWithReason .rejected (ascii "overloaded") (.trafficOverloaded policy)
  | .admissionUnavailable =>
    rejectWithReason .rejected (ascii "admission_unavailable") (.trafficUnavailable policy)

/-- `TrafficPolicyHandler.Handle`. -/
def trafficPolicyHandler : Option TrafficPolicySelector → Handler V Q R
  | none => fun _ ctx state => ⟨none, ctx, state⟩
  | some selector => fun env ctx state =>
    match state.quota with
    | none => ⟨reject .rejected .trafficMisconfigured, ctx, state⟩
    | some quota =>
      match ctx.verifiedClientID? with
      | none => ⟨reject .unauthorized .trafficUnauthenticated, ctx, state⟩
      | some clientID =>
        match selectedPolicy selector ctx clientID with
        | none => ⟨none, ctx, state⟩
        | some policy =>
          let bucket := policy.tokenBucket
          if policy.key ≠ trafficPolicyKeyClientID || bucket.capacity ≤ 0 ||
              bucket.refillTokens ≤ 0 || bucket.refillInterval ≤ 0 then
            ⟨reject .rejected (.trafficPolicyMisconfigured policy.name), ctx, state⟩
          else
            let (admitted, quota) := QuotaStore.admitQuota quota ⟨ctx.ctxErr, env.quotaNow⟩
              ⟨policy.name, policy.key, clientID, bucket⟩
            let decision :=
              match admitted with
              | .error _ => .admissionUnavailable
              | .ok decision => decision
            ⟨quotaRefusal policy.name decision, ctx, { state with quota := some quota }⟩

/-- The packet of a bound session: the session's ids replace those the packet claims. -/
def Packet.ofSession (packet : Packet) (session : Session) : Packet :=
  { packet with clientID := session.clientID, sessionID := session.sessionID }

/-- `SessionBindHandler.Handle` for a BIND packet. -/
def handleBindPacket (gatewayNode : GoString) (principal : Principal) : Handler V Q R :=
  fun env ctx state =>
    let (bound, sessions) := state.sessions.bind env.sessions
      ⟨[], ctx.connID, principal.clientID, ctx.packet.deviceID, principal.tokenID, gatewayNode, 0⟩
    let state := { state with sessions := sessions }
    match bound with
    | .error err => ⟨reject .rejected (.session err), ctx, state⟩
    | .ok result =>
      ⟨none,
        { ctx with
          packet := ctx.packet.ofSession result.session
          bindResult := some result
          session := some result.session },
        state⟩

/-- `handleBoundPacket`. -/
def handleBoundPacket (principal : Principal) : Handler V Q R := fun env ctx state =>
  let (touched, sessions) := state.sessions.touchByConnID env.sessions ctx.connID env.touchNow
  let state := { state with sessions := sessions }
  match touched with
  | .error .notFound => ⟨reject .rejected .sessionNotBound, ctx, state⟩
  | .error err => ⟨reject .rejected (.session err), ctx, state⟩
  | .ok found =>
    if found.clientID ≠ principal.clientID then
      ⟨reject .unauthorized .principalMismatch, ctx, state⟩
    else if ctx.packet.deviceID ≠ [] && ctx.packet.deviceID ≠ found.deviceID then
      ⟨reject .rejected .deviceMismatch, ctx, state⟩
    else if ctx.packet.sessionID ≠ [] && ctx.packet.sessionID ≠ found.sessionID then
      ⟨reject .rejected .sessionMismatch, ctx, state⟩
    else
      ⟨none,
        { ctx with
          packet := { ctx.packet.ofSession found with deviceID := found.deviceID }
          session := some found },
        state⟩

/-- `SessionBindHandler.Handle`. -/
def sessionBindHandler (gatewayNode : GoString) : Handler V Q R := fun env ctx state =>
  match ctx.principal with
  | none => ⟨reject .unauthorized .principalNotVerified, ctx, state⟩
  | some principal =>
    if ctx.packet.msgID ≠ msgIDBind then handleBoundPacket principal env ctx state
    else handleBindPacket gatewayNode principal env ctx state

/-- `clusterBindHandler.Handle`; without a registry there is no such handler. -/
def clusterBindHandler (gatewayNode internalAddr : GoString) : Handler V Q R :=
  fun env ctx state =>
    match state.registry, ctx.bindResult with
    | some registry, some result =>
      let (bound, registry) := OnlineRegistry.bind registry ⟨ctx.ctxErr, env.registryNow⟩
        (namedRouteEntry result.session gatewayNode internalAddr)
      let state := { state with registry := some registry }
      match bound with
      | .error err => ⟨reject .rejected (.registry err), ctx, state⟩
      | .ok () => ⟨none, ctx, state⟩
    | _, _ => ⟨none, ctx, state⟩

/-- `Chain.Run`. -/
def runChain : List (Handler V Q R) → Handler V Q R
  | [], _, ctx, state => ⟨none, ctx, state⟩
  | handler :: rest, env, ctx, state =>
    match handler env ctx state with
    | ⟨some err, ctx, state⟩ => ⟨some err, ctx, state⟩
    | ⟨none, ctx, state⟩ => runChain rest env ctx state

/-- `newIngressPipeline`. -/
def newIngressPipeline (config : PipelineConfig) : List (Handler V Q R) :=
  [ authHandler,
    policyHandler config.policy,
    rateLimitHandler config.rateLimit,
    trafficPolicyHandler config.trafficPolicies,
    sessionBindHandler config.gatewayNode,
    clusterBindHandler config.gatewayNode config.internalAddr ]

end

end ZCourier.Server
