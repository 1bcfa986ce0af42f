import ZCourier.Go.Values

/-!
# The upstream routing engine

After `internal/router/engine.go`: routes are tried in order and the first one that
matches and has a forwarder is used. Forwarders are of any type; what one does with a
packet is an argument of `forward`. A nil engine is `none`.
-/

namespace ZCourier.Router

open Go

/-- `router.ForwardResult`. -/
structure ForwardResult where
  routeName : GoString
  targetType : GoString
  status : GoString
  statusCode : Int
  endpoint : GoString
  attempts : Int
  maxAttempts : Int

/-- The zero value of `ForwardResult`. -/
def ForwardResult.zero : ForwardResult := ⟨[], [], [], 0, [], 0, 0⟩

/-- `router.Route`. -/
structure Route (F : Type) where
  name : GoString
  msgIDMin : UInt32
  msgIDMax : UInt32
  forwarder : Option F

/-- `Route.Matches`, on the two ends of the route's range. -/
def matchesMsgID (msgIDMin msgIDMax msgID : UInt32) : Bool :=
  if msgIDMin = 0 && msgIDMax = 0 then false
  else if msgIDMax = 0 then msgID = msgIDMin
  else msgIDMin ≤ msgID && msgID ≤ msgIDMax

/-- `Route.Matches`. -/
def Route.matches {F : Type} (route : Route F) (msgID : UInt32) : Bool :=
  matchesMsgID route.msgIDMin route.msgIDMax msgID

/-- `router.Engine`. -/
structure Engine (F : Type) where
  routes : List (Route F)

/-- The errors of `Forward`: `ErrRouteNotFound`, or what the forwarder returned. -/
inductive ForwardError (ε : Type) where
  | routeNotFound
  | forwarder (err : ε)

namespace Engine

variable {F ε : Type}

/-- The route both methods choose. -/
def choose (e : Engine F) (msgID : UInt32) : Option (Route F) :=
  e.routes.find? fun route => route.matches msgID && route.forwarder.isSome

/-- `ResolveRoute`. -/
def resolveRoute (e? : Option (Engine F)) (msgID : UInt32) : GoString × Bool :=
  match e? with
  | none => ([], false)
  | some e =>
    match e.choose msgID with
    | some route => (route.name, true)
    | none => ([], false)

/-- `Forward`, for a packet that is not nil; `send` is what a forwarder does with it. -/
def forward (e? : Option (Engine F)) (msgID : UInt32)
    (send : F → Option ForwardResult × Option ε) :
    Option ForwardResult × Option (ForwardError ε) :=
  match e? with
  | none => (none, some .routeNotFound)
  | some e =>
    match e.choose msgID with
    | none => (none, some .routeNotFound)
    | some route =>
      match route.forwarder with
      | none => (none, some .routeNotFound)
      | some forwarder =>
        let (result, err) := send forwarder
        (some { result.getD .zero with routeName := route.name }, err.map .forwarder)

end Engine

end ZCourier.Router
