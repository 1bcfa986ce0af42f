import ZCourier.Downlink.System
import ZCourier.Server.Pipeline

/-!
# The ingress router

`IngressRouter.Handle` (`internal/server/ingress_router.go`): a packet is decoded, passes the
pipeline, and is then a BIND, a downlink ACK, or forwarded upstream. The delivery service works on
an in-memory store. What handling a packet starts besides, the flush of a device's pending
messages and the closing of a replaced connection, is recorded in the outcome.
-/

namespace ZCourier.Server

open Go Library Downlink

/-- `router.Route`, as far as a packet's route is resolved with it. -/
structure UpstreamRoute where
  name : GoString
  msgIDMin : UInt32
  msgIDMax : UInt32
  hasForwarder : Bool
  deriving DecidableEq

/-- `Matches`. -/
def UpstreamRoute.matches (route : UpstreamRoute) (msgID : UInt32) : Bool :=
  if route.msgIDMin = 0 && route.msgIDMax = 0 then false
  else if route.msgIDMax = 0 then msgID = route.msgIDMin
  else route.msgIDMin ≤ msgID && msgID ≤ route.msgIDMax

/-- `ResolveRoute`. -/
def resolveRoute (routes : List UpstreamRoute) (msgID : UInt32) : GoString × Bool :=
  match routes.find? fun route => route.matches msgID && route.hasForwarder with
  | some route => (route.name, true)
  | none => ([], false)

/-- Where a packet's route comes from: the router's engine, if it has one, or the active generation
of its route manager, if there is one. -/
inductive Routing where
  | upstream (configured : Bool)
  | unavailable
  | generation (routes : List UpstreamRoute)
  deriving DecidableEq

/-- How forwarding a packet ends. -/
inductive ForwardOutcome where
  | forwarded
  | routeNotFound
  | overloaded
  | failed

inductive AckReason where
  | empty
  | decode
  | text (reason : GoString)
  | refusal (err : Refusal)
  | storeNotConfigured
  | sessionNotBound
  | unmarshal
  | service (err : ServiceError)
  deriving DecidableEq

/-- The ACK that is sent, with the packet it answers. -/
structure Reply where
  origin : Option Packet
  code : AckCode
  reason : AckReason

/-- `AckError`. -/
def ackError (err : PipelineError) : AckCode × AckReason :=
  (err.code, if err.reason ≠ [] then .text err.reason else .refusal err.err)

/-- What does not change while the router runs. -/
structure IngressConfig where
  pipeline : PipelineConfig
  downlink : Option Service
  unmarshalAck : Bytes → Option ClientAckRequest

/-- A request: its connection, the error of the connection's context, and its decoded data. -/
structure Request where
  connID : UInt64
  ctxErr : Option ContextError
  packet : Option Packet

/-- What the surroundings supply while a packet is handled. -/
structure IngressEnv where
  pipeline : PipelineEnv
  forward : ForwardOutcome
  effects : Nat → Surroundings

/-- The gateway: the pipeline's state, the current routes and the store of the delivery service. -/
structure GatewayState (V Q R : Type) where
  pipeline : PipelineState V Q R
  routing : Routing
  world : World

/-- What handling a packet leads to. `flush` is a session whose pending messages are flushed and
`stopped` the connection that was replaced. -/
structure IngressOutcome (V Q R : Type) where
  reply : Reply
  forwarded : Option Packet
  flush : Option Session
  stopped : Option UInt64
  state : GatewayState V Q R

/-- A packet that is neither a BIND nor a downlink ACK has its route resolved. -/
def Packet.isBusiness (packet : Packet) : Bool :=
  packet.msgID ≠ msgIDBind && packet.msgID ≠ msgIDDownlinkAck

/-- The context of a packet, or nothing where its route generation cannot be acquired. -/
def ingressContext (routing : Routing) (request : Request) (packet : Packet) : Option Context :=
  let ctx := newContext request.connID request.ctxErr packet
  if packet.isBusiness then
    match routing with
    | .upstream _ => some ctx
    | .unavailable => none
    | .generation routes =>
      let (routeName, found) := resolveRoute routes packet.msgID
      some { ctx with routeResolutionSet := true, routeFound := found, routeName := routeName }
  else some ctx

/-- `contextSession`. -/
def contextSession (ctx : Context) : Option Session :=
  match ctx.session with
  | some session => some session
  | none => ctx.bindResult.map BindResult.session

section

variable {V Q R : Type} [Verifier V] [QuotaStore Q] [OnlineRegistry R] [Sha256]

/-- `handleDownlinkAck`. -/
def handleDownlinkAck (config : IngressConfig) (env : IngressEnv) (ctx : Context)
    (state : GatewayState V Q R) : IngressOutcome V Q R :=
  let answer (code : AckCode) (reason : AckReason) (state : GatewayState V Q R) :
      IngressOutcome V Q R :=
    ⟨⟨some ctx.packet, code, reason⟩, none, none, none, state⟩
  match config.downlink with
  | none => answer .rejected .storeNotConfigured state
  | some svc =>
    match contextSession ctx with
    | none => answer .rejected .sessionNotBound state
    | some bound =>
      match config.unmarshalAck ctx.packet.body with
      | none => answer .rejected .unmarshal state
      | some ack =>
        let ack :=
          if ack.messageID = [] then { ack with messageID := ctx.packet.messageID } else ack
        let (result, world) :=
          (svc.ack bound.clientID bound.deviceID ack).eval perform env.effects state.world
        let state := { state with world := world }
        match result with
        | .error err => answer .rejected (.service err) state
        | .ok _ => answer .accepted .empty state

/-- `forwardUpstream` and the ACK that follows it. -/
def forwardUpstream (env : IngressEnv) (ctx : Context) (state : GatewayState V Q R) :
    IngressOutcome V Q R :=
  let answer (code : AckCode) (reason : AckReason) (forwarded : Option Packet) :
      IngressOutcome V Q R :=
    ⟨⟨some ctx.packet, code, reason⟩, forwarded, none, none, state⟩
  if state.routing = .upstream false then answer .accepted .empty none
  else
    match env.forward with
    | .forwarded => answer .accepted .empty (some ctx.packet)
    | .routeNotFound => answer .accepted .empty none
    | .overloaded => answer .rejected (.text (ascii "overloaded")) (some ctx.packet)
    | .failed => answer .rejected (.text (ascii "upstream_failed")) (some ctx.packet)

/-- `IngressRouter.Handle`. -/
def handleIngress (config : IngressConfig) (env : IngressEnv) (request : Request)
    (state : GatewayState V Q R) : IngressOutcome V Q R :=
  match request.packet with
  | none => ⟨⟨none, .decodeFailed, .decode⟩, none, none, none, state⟩
  | some packet =>
    match ingressContext state.routing request packet with
    | none =>
      ⟨⟨some packet, .rejected, .text (ascii "upstream_failed")⟩, none, none, none, state⟩
    | some ctx =>
      match runChain (newIngressPipeline config.pipeline) env.pipeline ctx state.pipeline with
      | ⟨some err, ctx, pipeline⟩ =>
        ⟨⟨some ctx.packet, (ackError err).1, (ackError err).2⟩, none, none, none,
          { state with pipeline := pipeline }⟩
      | ⟨none, ctx, pipeline⟩ =>
        let state := { state with pipeline := pipeline }
        if packet.msgID = msgIDBind then
          ⟨⟨some ctx.packet, .accepted, .empty⟩, none,
            ctx.bindResult.bind fun result =>
              if config.downlink.isSome && result.created then some result.session else none,
            ctx.bindResult.bind fun result => result.replaced.bind fun replaced =>
              if replaced.connID ≠ request.connID then some replaced.connID else none,
            state⟩
        else if packet.msgID = msgIDDownlinkAck then handleDownlinkAck config env ctx state
        else forwardUpstream env ctx state

/-- `Gateway.onConnStop`. -/
def onConnStop (env : RegistryEnv) (connID : UInt64) (state : GatewayState V Q R) :
    GatewayState V Q R :=
  let (removed, sessions) := state.pipeline.sessions.unbindByConnID connID
  let pipeline := { state.pipeline with sessions := sessions }
  match removed, pipeline.registry with
  | some session, some registry =>
    let (_, registry) := OnlineRegistry.unbind registry env
      ⟨session.clientID, session.deviceID⟩ session.sessionID
    { state with pipeline := { pipeline with registry := some registry } }
  | _, _ => { state with pipeline := pipeline }

end

end ZCourier.Server
