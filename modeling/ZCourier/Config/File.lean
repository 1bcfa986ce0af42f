import ZCourier.Config.Routes
import ZCourier.Config.TrafficPolicies

/-!
# The configuration file and its routes file

From a configuration file to a server configuration and a route loader (`config.go`,
`validation.go` and `upstream_routes_file.go` of `internal/config`). Upstream routes stand in the
file or in a routes file of their own, which is read again later if reload is enabled; the loader
checks it against the configuration the gateway started with. Reading and parsing a routes file is
an input, and so are the outcomes of the sections that have nothing to do with routes.
-/

namespace ZCourier.Config

open Go Server

variable {H N : Type}

/-! ## The file -/

/-- `config.MsgIDRangeConfig`. -/
structure MsgIDRangeConfig where
  min : UInt32
  max : UInt32

/-- `config.UpstreamRouteReloadConfig`. -/
structure UpstreamRouteReloadConfig where
  enabled : Bool
  drainTimeout : GoString
  acceptedMsgIDRanges : List MsgIDRangeConfig

/-- `config.UpstreamRoutesFileConfig`; `resolvedPath` is what `resolveRelativePath` makes of its
path. -/
structure UpstreamRoutesFileConfig where
  path : GoString
  maxSizeBytes : Int
  reload : UpstreamRouteReloadConfig
  resolvedPath : Except GoString GoString

/-- `config.RateLimitConfig`. -/
structure RateLimitConfig where
  enabled : Bool
  maxRequests : Int
  window : GoString

/-- `config.File`. `sections` is the first error of the internal HTTP, admin console, cluster and
downlink sections, `authShape` the one of `validateAuthConfigShape`, and `verifier` the one of
`toAuthVerifier`. -/
structure File (H N : Type) where
  routeMsgIDs : List UInt32
  routes : List (UpstreamRouteConfig H N)
  routesFile : Option UpstreamRoutesFileConfig
  rateLimit : RateLimitConfig
  trafficPolicies : TrafficPoliciesConfig
  sections : Option GoString
  authShape : Option GoString
  verifier : Option GoString

/-- `upstreamRoutesDocument`. -/
structure UpstreamRoutesDocument (H N : Type) where
  version : Int
  routes : List (UpstreamRouteConfig H N)

/-- `server.UpstreamRoutesFileConfig`, without the loader. -/
structure RoutesFile where
  path : GoString
  maxSizeBytes : Int
  reload : Server.UpstreamRouteReloadConfig

/-- `resolvedUpstreamRoutes`; without a routes file there is no `fileConfig`. -/
structure ResolvedUpstreamRoutes (H N : Type) where
  routes : List (UpstreamRouteConfig H N)
  fileConfig : Option RoutesFile

/-- The part of `server.Config` that is about routes and traffic policies. -/
structure ServerConfig (H N : Type) where
  routeMsgIDs : List UInt32
  upstreamRoutes : List (Server.UpstreamRouteConfig H N)
  routesFile : Option RoutesFile
  trafficPolicies : PipelinePolicies

/-- The errors of loading and converting. -/
inductive ConfigError where
  | section (reason : GoString)
  | auth (reason : GoString)
  | routes (err : RouteError)
  | rateLimitWindow
  | rateLimitMaxRequests
  | rateLimitPositiveWindow
  | trafficPolicies (err : TrafficPolicyError)
  | twoLimits
  | routesAndRoutesFile
  | routesFilePath
  | routesFileMaxSize
  | resolvePath (reason : GoString)
  | reloadDisabled
  | reloadRangesRequired
  | drainTimeout
  | drainTimeoutRange
  | tooManyRanges
  | invalidRange (position : Nat) (min max : UInt32)
  | rangeTooLarge (position : Nat) (min max : UInt32)
  | rangeReserved (position : Nat) (msgID : UInt32)
  | tooManyMsgIDs
  | rangesOverlap (current previous : MsgIDRange)
  | read (reason : GoString)
  | version
  | tooManyRoutes
  | routeName (position : Nat)
  | routeNameSpace (position : Nat)
  | routeNameLength (name : GoString)
  | routeNameDuplicate (name : GoString) (previous : Nat)
  | context (err : ContextError)

/-- A problem `validateResolvedRoutes` collects. -/
inductive Problem where
  | shape (err : ConfigError)
  | route (problem : RouteProblem)

/-! ## The accepted ranges -/

/-- The first reserved `MsgID` in a range. -/
def reservedIn (min max : UInt32) : Option UInt32 :=
  reservedMsgIDs.find? fun reserved => min ≤ reserved && reserved ≤ max

/-- The loop of `normalizeUpstreamReloadAcceptedRanges` over the ranges from position `index` on,
with the number of `MsgID`s in the ranges before; the sum is a `uint64`. -/
def collectAcceptedRanges : Nat → UInt64 → List MsgIDRangeConfig →
    Except ConfigError (List MsgIDRange)
  | _, _, [] => .ok []
  | index, total, candidate :: rest =>
    let maxMsgID := rangeEnd candidate.min candidate.max
    if candidate.min = 0 || maxMsgID < candidate.min then
      .error (.invalidRange (index + 1) candidate.min candidate.max)
    else if 10000 < maxMsgID - candidate.min then
      .error (.rangeTooLarge (index + 1) candidate.min maxMsgID)
    else
      match reservedIn candidate.min maxMsgID with
      | some reserved => .error (.rangeReserved (index + 1) reserved)
      | none =>
        let total := total + ((maxMsgID - candidate.min).toUInt64 + 1)
        if 20000 < total then .error .tooManyMsgIDs
        else
          (collectAcceptedRanges (index + 1) total rest).map (⟨candidate.min, maxMsgID⟩ :: ·)

/-- The order of the accepted ranges. -/
def msgIDRangeLe (left right : MsgIDRange) : Bool :=
  if left.min = right.min then left.max ≤ right.max else left.min < right.min

/-- The last loop of `normalizeUpstreamReloadAcceptedRanges`. -/
def acceptedOverlap : List MsgIDRange → Option (MsgIDRange × MsgIDRange)
  | previous :: current :: rest =>
    if current.min ≤ previous.max then some (current, previous)
    else acceptedOverlap (current :: rest)
  | _ => none

/-- `normalizeUpstreamReloadAcceptedRanges`. -/
def normalizeUpstreamReloadAcceptedRanges (config : List MsgIDRangeConfig) :
    Except ConfigError (List MsgIDRange) :=
  if 64 < config.length then .error .tooManyRanges
  else
    match collectAcceptedRanges 0 0 config with
    | .error err => .error err
    | .ok ranges =>
      let ranges := ranges.mergeSort msgIDRangeLe
      match acceptedOverlap ranges with
      | some (current, previous) => .error (.rangesOverlap current previous)
      | none => .ok ranges

/-! ## The routes file -/

section Durations

variable [ParseDuration]

/-- The drain timeout of `toServerUpstreamRouteReloadConfig`. -/
def toDrainTimeout (raw : GoString) : Except ConfigError Int :=
  let parsed? := if trimSpace raw = [] then some (30 * second) else ParseDuration.parseDuration raw
  match parsed? with
  | none => .error .drainTimeout
  | some timeout =>
    if timeout < second || 600 * second < timeout then .error .drainTimeoutRange
    else .ok timeout

/-- `toServerUpstreamRouteReloadConfig`. -/
def toServerUpstreamRouteReloadConfig (config : UpstreamRouteReloadConfig) :
    Except ConfigError Server.UpstreamRouteReloadConfig :=
  if !config.enabled then
    if trimSpace config.drainTimeout ≠ [] || !config.acceptedMsgIDRanges.isEmpty then
      .error .reloadDisabled
    else .ok ⟨false, 0, []⟩
  else if config.acceptedMsgIDRanges.isEmpty then .error .reloadRangesRequired
  else do
    let drainTimeout ← toDrainTimeout config.drainTimeout
    let ranges ← normalizeUpstreamReloadAcceptedRanges config.acceptedMsgIDRanges
    return ⟨true, drainTimeout, ranges⟩

/-- `toServerUpstreamRoutesFileConfig`. -/
def toServerUpstreamRoutesFileConfig (config : UpstreamRoutesFileConfig) :
    Except ConfigError RoutesFile := do
  if trimSpace config.path = [] then throw .routesFilePath
  let maxSize := if config.maxSizeBytes = 0 then 2 ^ 20 else config.maxSizeBytes
  if maxSize < 1 || 2 ^ 24 < maxSize then throw .routesFileMaxSize
  let reload ← toServerUpstreamRouteReloadConfig config.reload
  match config.resolvedPath with
  | .error reason => throw (.resolvePath reason)
  | .ok path => return ⟨path, maxSize, reload⟩

end Durations

/-- `validateUpstreamRoutesDocumentLimits` for the routes from position `index` on, with the names
seen so far. -/
def validateDocumentRoutes : Nat → List (GoString × Nat) → List (UpstreamRouteConfig H N) →
    Option ConfigError
  | _, _, [] => none
  | index, names, route :: rest =>
    let name := trimSpace route.name
    if name = [] then some (.routeName (index + 1))
    else if name ≠ route.name then some (.routeNameSpace (index + 1))
    else if 128 < name.length then some (.routeNameLength name)
    else
      match names.find? fun entry => entry.1 = name with
      | some (_, previous) => some (.routeNameDuplicate name (previous + 1))
      | none => validateDocumentRoutes (index + 1) ((name, index) :: names) rest

/-- `validateUpstreamRoutesDocumentLimits`. -/
def validateUpstreamRoutesDocumentLimits (routes : List (UpstreamRouteConfig H N)) :
    Option ConfigError :=
  if 256 < routes.length then some .tooManyRoutes else validateDocumentRoutes 0 [] routes

/-- `loadUpstreamRoutesDocument`, where `source` is what reading and parsing the file gives. -/
def loadUpstreamRoutesDocument (source : Except GoString (UpstreamRoutesDocument H N)) :
    Except ConfigError (UpstreamRoutesDocument H N) :=
  match source with
  | .error reason => .error (.read reason)
  | .ok document =>
    if document.version ≠ 1 then .error .version
    else
      match validateUpstreamRoutesDocumentLimits document.routes with
      | some err => .error err
      | none => .ok document

/-- `validateRoutesInsideReloadRanges` for the routes from position `index` on. -/
def routesOutsideRanges (accepted : List MsgIDRange) :
    Nat → List (UpstreamRouteConfig H N) → List RouteProblem
  | _, [] => []
  | index, route :: rest =>
    let maxMsgID := rangeEnd route.msgIDMin route.msgIDMax
    let problems :=
      if !upstreamRouteEnabled route || (validateMsgIDRange route).isSome then []
      else if accepted.any fun allowed => allowed.min ≤ route.msgIDMin && maxMsgID ≤ allowed.max
      then []
      else [.outsideReloadRanges (upstreamRouteLabel route index) route.msgIDMin maxMsgID]
    problems ++ routesOutsideRanges accepted (index + 1) rest

/-- `validateRoutesInsideReloadRanges`. -/
def validateRoutesInsideReloadRanges (routes : List (UpstreamRouteConfig H N))
    (fileConfig : Option RoutesFile) : List RouteProblem :=
  match fileConfig with
  | none => []
  | some config =>
    if !config.reload.enabled then []
    else routesOutsideRanges config.reload.acceptedMsgIDRanges 0 routes

namespace File

variable [ParseDuration]

/-- `resolveUpstreamRoutes`; the routes file, if there is one, reads as `source`. -/
def resolveUpstreamRoutes (file : File H N)
    (source : Except GoString (UpstreamRoutesDocument H N)) :
    Except ConfigError (ResolvedUpstreamRoutes H N) :=
  match file.routesFile with
  | none => .ok ⟨file.routes, none⟩
  | some config =>
    if !file.routes.isEmpty then .error .routesAndRoutesFile
    else do
      let fileConfig ← toServerUpstreamRoutesFileConfig config
      let document ← loadUpstreamRoutesDocument source
      return ⟨document.routes, some fileConfig⟩

/-- `toPipelineConfig`, as far as it concerns limits. -/
def toPipelineConfig (file : File H N) (routes : List (Server.UpstreamRouteConfig H N)) :
    Except ConfigError PipelinePolicies := do
  let window? :=
    if file.rateLimit.window = [] then some 0
    else ParseDuration.parseDuration file.rateLimit.window
  match window? with
  | none => throw .rateLimitWindow
  | some window =>
    if file.rateLimit.enabled && file.rateLimit.maxRequests ≤ 0 then throw .rateLimitMaxRequests
    if file.rateLimit.enabled && window ≤ 0 then throw .rateLimitPositiveWindow
    match toTrafficPoliciesConfig file.trafficPolicies routes with
    | .error err => throw (.trafficPolicies err)
    | .ok policies =>
      if file.rateLimit.enabled && policies.enabled then throw .twoLimits
      return policies

/-- `toUpstreamRoutes` with its error as an error of the file. -/
def convertRoutes (routes : List (UpstreamRouteConfig H N)) :
    Except ConfigError (List (Server.UpstreamRouteConfig H N)) :=
  (toUpstreamRoutes routes).mapError .routes

/-- `validateShape`. -/
def validateShape (file : File H N) (routes : List (UpstreamRouteConfig H N)) :
    Except ConfigError Unit := do
  if let some reason := file.sections then throw (.section reason)
  let converted ← convertRoutes routes
  let _ ← file.toPipelineConfig converted
  if let some reason := file.authShape then throw (.auth reason)

/-- `validateResolvedRoutes`: the collected problems; there are none if the routes are accepted. -/
def validateResolvedRoutes (file : File H N) (resolved : ResolvedUpstreamRoutes H N) :
    List Problem :=
  (match file.validateShape resolved.routes with
    | .error err => [.shape err]
    | .ok () => []) ++
  (validateUpstreamRouteConflicts resolved.routes).map .route ++
  (validateRoutesInsideReloadRanges resolved.routes resolved.fileConfig).map .route

/-- `ToServerConfig`. The error of a refused configuration is the list of its problems. -/
def toServerConfig (file : File H N) (source : Except GoString (UpstreamRoutesDocument H N)) :
    Except (ConfigError ⊕ List Problem) (ServerConfig H N) := do
  let resolved ← (file.resolveUpstreamRoutes source).mapError .inl
  let problems := file.validateResolvedRoutes resolved
  if !problems.isEmpty then throw (.inr problems)
  -- the default of `DefaultConfig` where the file lists no `MsgID`s
  let routeMsgIDs := if file.routeMsgIDs.isEmpty then [msgIDBind] else file.routeMsgIDs
  if let some reason := file.sections then throw (.inl (.section reason))
  let routes ← (convertRoutes resolved.routes).mapError .inl
  let policies ← (file.toPipelineConfig routes).mapError .inl
  if let some reason := file.verifier then throw (.inl (.auth reason))
  return ⟨routeMsgIDs, routes, resolved.fileConfig, policies⟩

/-- The loader of `newUpstreamRouteLoader`: the context is looked at twice, and the routes file
reads as `source` in between. -/
def loadRoutes (file : File H N) (fileConfig : RoutesFile) (before after : Option ContextError)
    (source : Except GoString (UpstreamRoutesDocument H N)) :
    Except (ConfigError ⊕ List Problem) (List (Server.UpstreamRouteConfig H N)) := do
  if let some err := before then throw (.inl (.context err))
  let document ← (loadUpstreamRoutesDocument source).mapError .inl
  let problems := file.validateResolvedRoutes ⟨document.routes, some fileConfig⟩
  if !problems.isEmpty then throw (.inr problems)
  let routes ← (convertRoutes document.routes).mapError .inl
  if let some err := after then throw (.inl (.context err))
  return routes

end File

end ZCourier.Config
