import ZCourier.Router.Engine
import ZCourier.Server.Pipeline

/-!
# Upstream routes of a gateway

Which messages a gateway takes and where it forwards them: `newUpstreamEngine`
(`internal/server/upstream.go`) builds the routing engine, `registeredMsgIDs`
(`internal/server/gateway.go`) lists the `MsgID`s it registers a handler for. How a forwarder is
made for an HTTP or NSQ target is a parameter. The loops of `registeredMsgIDs` end only by
`break`; they run on fuel here, and `none` is a loop that has not come to its end.
-/

namespace ZCourier.Server

open Go Router

variable {H N F ε : Type}

/-- `server.UpstreamRouteConfig`. -/
structure UpstreamRouteConfig (H N : Type) where
  name : GoString
  msgIDMin : UInt32
  msgIDMax : UInt32
  maxInFlight : Int
  http : Option H
  nsq : Option N

/-- `server.MsgIDRange`. -/
structure MsgIDRange where
  min : UInt32
  max : UInt32

/-- `server.UpstreamRouteReloadConfig`. -/
structure UpstreamRouteReloadConfig where
  enabled : Bool
  drainTimeout : Int
  acceptedMsgIDRanges : List MsgIDRange

/-! ## The engine -/

/-- How forwarders are made: for an HTTP or an NSQ target, and the two wrappers. `tracked` is
there if the gateway has an `UpstreamRuntime`. -/
structure Forwarders (H N F ε : Type) where
  http : UpstreamRouteConfig H N → H → Except ε F
  nsq : UpstreamRouteConfig H N → N → Except ε F
  tracked : Option (UpstreamRouteConfig H N → F → F)
  limited : UpstreamRouteConfig H N → F → F

/-- `newRouteForwarderWithRuntime`. -/
def newRouteForwarder (make : Forwarders H N F ε) (route : UpstreamRouteConfig H N) :
    Except ε (Option F) :=
  match route.http, route.nsq with
  | some target, _ => (make.http route target).map some
  | none, some target => (make.nsq route target).map some
  | none, none => .ok none

/-- The wrappers `newUpstreamEngine` puts around a forwarder. -/
def wrapForwarder (make : Forwarders H N F ε) (route : UpstreamRouteConfig H N) (forwarder : F) :
    F :=
  let forwarder :=
    match make.tracked with
    | some tracked => if route.http.isSome then tracked route forwarder else forwarder
    | none => forwarder
  if 0 < route.maxInFlight then make.limited route forwarder else forwarder

/-- The loop of `newUpstreamEngine`. -/
def engineRoutes (make : Forwarders H N F ε) :
    List (UpstreamRouteConfig H N) → Except ε (List (Route F))
  | [] => .ok []
  | route :: rest => do
      let forwarder ← newRouteForwarder make route
      let routes ← engineRoutes make rest
      match forwarder with
      | none => return routes
      | some forwarder =>
        return ⟨route.name, route.msgIDMin, route.msgIDMax,
          some (wrapForwarder make route forwarder)⟩ :: routes

/-- `newUpstreamEngine`. -/
def newUpstreamEngine (make : Forwarders H N F ε) (routes : List (UpstreamRouteConfig H N)) :
    Except ε (Option (Engine F)) := do
  let routes ← engineRoutes make routes
  return if routes.isEmpty then none else some ⟨routes⟩

/-! ## Registered messages -/

/-- The errors of `registeredMsgIDs`. -/
inductive RegistrationError where
  | routeRange (name : GoString) (msgIDMin msgIDMax : UInt32)
  | routeTooLarge (name : GoString) (msgIDMin msgIDMax : UInt32)
  | noAcceptedRanges
  | acceptedRange (index : Nat) (min max : UInt32)
  | acceptedTooLarge (index : Nat) (min max : UInt32)

/-- The part of `server.Config` that `registeredMsgIDs` reads. -/
structure RegistrationConfig (H N : Type) where
  routeMsgIDs : List UInt32
  upstreamRoutes : List (UpstreamRouteConfig H N)
  reload : UpstreamRouteReloadConfig

/-- The loop that adds the `MsgID`s from `msgID` on, up to `msgIDMax`. -/
def registerRange (msgIDMax : UInt32) : Nat → UInt32 → List UInt32 → Option (List UInt32)
  | 0, _, _ => none
  | fuel + 1, msgID, seen =>
    let seen := seen.insert msgID
    if msgID = msgIDMax then some seen else registerRange msgIDMax fuel (msgID + 1) seen

def checkedRange (fuel : Nat) (invalid tooLarge : RegistrationError) (msgIDMin msgIDMax : UInt32)
    (seen : List UInt32) : Option (Except RegistrationError (List UInt32)) :=
  if msgIDMin = 0 || msgIDMax < msgIDMin then some (.error invalid)
  else if 10000 < msgIDMax - msgIDMin then some (.error tooLarge)
  else (registerRange msgIDMax fuel msgIDMin seen).map .ok

/-- The loop of `registeredMsgIDs` over the routes. -/
def registerRoutes (fuel : Nat) : List (UpstreamRouteConfig H N) → List UInt32 →
    Option (Except RegistrationError (List UInt32))
  | [], seen => some (.ok seen)
  | route :: rest, seen => do
      let msgIDMax := rangeEnd route.msgIDMin route.msgIDMax
      match ← checkedRange fuel (.routeRange route.name route.msgIDMin route.msgIDMax)
        (.routeTooLarge route.name route.msgIDMin msgIDMax) route.msgIDMin msgIDMax seen with
      | .error err => return .error err
      | .ok seen => registerRoutes fuel rest seen

/-- The loop of `registeredMsgIDs` over the accepted ranges. -/
def registerAccepted (fuel : Nat) : Nat → List MsgIDRange → List UInt32 →
    Option (Except RegistrationError (List UInt32))
  | _, [], seen => some (.ok seen)
  | index, accepted :: rest, seen => do
      let msgIDMax := rangeEnd accepted.min accepted.max
      match ← checkedRange fuel (.acceptedRange (index + 1) accepted.min accepted.max)
        (.acceptedTooLarge (index + 1) accepted.min msgIDMax) accepted.min msgIDMax seen with
      | .error err => return .error err
      | .ok seen => registerAccepted fuel (index + 1) rest seen

/-- The `MsgID`s `registeredMsgIDs` collects. -/
def seenMsgIDs (fuel : Nat) (config : RegistrationConfig H N) :
    Option (Except RegistrationError (List UInt32)) := do
  let seen := (config.routeMsgIDs.foldl (fun seen msgID => seen.insert msgID)
    [msgIDDownlinkAck, msgIDBind])
  match ← registerRoutes fuel config.upstreamRoutes seen with
  | .error err => return .error err
  | .ok seen =>
    if !config.reload.enabled then return .ok seen
    else if config.reload.acceptedMsgIDRanges.isEmpty then return .error .noAcceptedRanges
    else registerAccepted fuel 0 config.reload.acceptedMsgIDRanges seen

/-- `registeredMsgIDs`. -/
def registeredMsgIDs (fuel : Nat) (config : RegistrationConfig H N) :
    Option (Except RegistrationError (List UInt32)) :=
  (seenMsgIDs fuel config).map fun seen => seen.map fun msgIDs =>
    msgIDs.mergeSort fun a b => a ≤ b

end ZCourier.Server
