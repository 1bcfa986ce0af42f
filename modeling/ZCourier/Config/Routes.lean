import ZCourier.Server.Upstream

/-!
# Upstream routes in the configuration file

The checks and conversions of `internal/config` that concern upstream routes:
`validateMsgIDRange` and `toUpstreamRoutes` of `config.go`,
`validateUpstreamRouteConflicts` of `validation.go`. What `toHTTPUpstreamConfig` and
`toNSQUpstreamConfig` make of a route's target is part of the target here.
-/

namespace ZCourier.Config

open Go Server

variable {H N : Type}

/-- `config.TargetConfig`, with the results of converting it. -/
structure TargetConfig (H N : Type) where
  type : GoString
  maxInFlight : Int
  toHTTPUpstreamConfig : Except GoString H
  toNSQUpstreamConfig : Except GoString N

/-- `config.UpstreamRouteConfig`. -/
structure UpstreamRouteConfig (H N : Type) where
  name : GoString
  enabled : Option Bool
  msgIDMin : UInt32
  msgIDMax : UInt32
  target : TargetConfig H N

/-- `upstreamRouteEnabled`. -/
def upstreamRouteEnabled (route : UpstreamRouteConfig H N) : Bool :=
  route.enabled.getD true

/-! ## Conversion -/

inductive RouteError where
  | msgIDMin (route : GoString)
  | msgIDMax (route : GoString)
  | maxInFlight (route : GoString)
  | target (reason : GoString)
  | unsupportedTarget (type route : GoString)

/-- `validateMsgIDRange`. -/
def validateMsgIDRange (route : UpstreamRouteConfig H N) : Option RouteError :=
  if route.msgIDMin = 0 then some (.msgIDMin route.name)
  else if route.msgIDMax ≠ 0 && route.msgIDMax < route.msgIDMin then some (.msgIDMax route.name)
  else if route.target.maxInFlight < 0 then some (.maxInFlight route.name)
  else none

/-- The part of `toUpstreamRoutes` that converts one enabled route. -/
def toUpstreamRoute (route : UpstreamRouteConfig H N) :
    Except RouteError (Server.UpstreamRouteConfig H N) :=
  match validateMsgIDRange route with
  | some err => .error err
  | none =>
    let targetType := if route.target.type = [] then ascii "http" else route.target.type
    if targetType = ascii "http" then
      match route.target.toHTTPUpstreamConfig with
      | .error reason => .error (.target reason)
      | .ok target =>
        .ok ⟨route.name, route.msgIDMin, route.msgIDMax, route.target.maxInFlight,
          some target, none⟩
    else if targetType = ascii "nsq" then
      match route.target.toNSQUpstreamConfig with
      | .error reason => .error (.target reason)
      | .ok target =>
        .ok ⟨route.name, route.msgIDMin, route.msgIDMax, route.target.maxInFlight,
          none, some target⟩
    else .error (.unsupportedTarget targetType route.name)

/-- `toUpstreamRoutes`. -/
def toUpstreamRoutes :
    List (UpstreamRouteConfig H N) → Except RouteError (List (Server.UpstreamRouteConfig H N))
  | [] => .ok []
  | route :: rest =>
    if !upstreamRouteEnabled route then toUpstreamRoutes rest
    else do
      let converted ← toUpstreamRoute route
      return converted :: (← toUpstreamRoutes rest)

/-! ## Conflicts -/

/-- `upstreamRouteLabel`. -/
inductive RouteLabel where
  | name (name : GoString)
  | index (position : Nat)
  deriving DecidableEq

/-- `upstreamRouteLabel`. -/
def upstreamRouteLabel (route : UpstreamRouteConfig H N) (index : Nat) : RouteLabel :=
  if trimSpace route.name ≠ [] then .name (trimSpace route.name) else .index (index + 1)

/-- `MsgIDAck`. -/
def msgIDAck : UInt32 := 1

/-- `reservedMsgIDs`. -/
def reservedMsgIDs : List UInt32 := [msgIDAck, msgIDDownlinkAck, msgIDBind]

/-- `validationMsgIDRange`. -/
structure ValidationMsgIDRange where
  label : RouteLabel
  min : UInt32
  max : UInt32
  deriving DecidableEq

inductive RouteProblem where
  | duplicateName (label : RouteLabel) (previous : Nat)
  | rangeTooLarge (label : RouteLabel) (min max : UInt32)
  | reserved (label : RouteLabel) (msgID : UInt32)
  | overlap (current previous : ValidationMsgIDRange)
  | outsideReloadRanges (label : RouteLabel) (min max : UInt32)
  deriving DecidableEq

/-- The problem a route's name gives, with the names of the routes before it. -/
def nameProblem (names : List (GoString × Nat)) (index : Nat) (route : UpstreamRouteConfig H N) :
    List RouteProblem :=
  if trimSpace route.name = [] then []
  else
    match names.find? fun entry => entry.1 = trimSpace route.name with
    | some (_, previous) => [.duplicateName (upstreamRouteLabel route index) (previous + 1)]
    | none => []

/-- The problems of a route's range, and the range if it takes part in the comparison. -/
def rangeProblems (index : Nat) (route : UpstreamRouteConfig H N) :
    List RouteProblem × List ValidationMsgIDRange :=
  let label := upstreamRouteLabel route index
  let maxMsgID := rangeEnd route.msgIDMin route.msgIDMax
  if (validateMsgIDRange route).isSome then ([], [])
  else if 10000 < maxMsgID - route.msgIDMin then
    ([.rangeTooLarge label route.msgIDMin maxMsgID], [])
  else
    ((reservedMsgIDs.filter fun reserved => route.msgIDMin ≤ reserved && reserved ≤ maxMsgID).map
      (.reserved label), [⟨label, route.msgIDMin, maxMsgID⟩])

/-- The loop of `validateUpstreamRouteConflicts` over the routes from position `index` on: the
problems and the ranges to compare. -/
def collectRanges (names : List (GoString × Nat)) : Nat → List (UpstreamRouteConfig H N) →
    List RouteProblem × List ValidationMsgIDRange
  | _, [] => ([], [])
  | index, route :: rest =>
    if !upstreamRouteEnabled route then collectRanges names (index + 1) rest
    else
      let found := nameProblem names index route
      let names :=
        if trimSpace route.name = [] || !found.isEmpty then names
        else (trimSpace route.name, index) :: names
      let (problems, ranges) := rangeProblems index route
      let (laterProblems, laterRanges) := collectRanges names (index + 1) rest
      (found ++ problems ++ laterProblems, ranges ++ laterRanges)

/-- The order of the ranges: by lower, then by upper end. -/
def validationRangeLe (left right : ValidationMsgIDRange) : Bool :=
  if left.min = right.min then left.max ≤ right.max else left.min < right.min

/-- The last loop: every range is compared with the one before it. -/
def neighbourProblems : List ValidationMsgIDRange → List RouteProblem
  | previous :: current :: rest =>
    (if current.min ≤ previous.max then [.overlap current previous] else []) ++
      neighbourProblems (current :: rest)
  | _ => []

/-- `validateUpstreamRouteConflicts`. -/
def validateUpstreamRouteConflicts (routes : List (UpstreamRouteConfig H N)) :
    List RouteProblem :=
  let (problems, ranges) := collectRanges [] 0 routes
  problems ++ neighbourProblems (ranges.mergeSort validationRangeLe)

end ZCourier.Config
