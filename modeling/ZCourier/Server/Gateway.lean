import ZCourier.Downlink.Calls
import ZCourier.Server.Admission

/-!
# The gateway as a state machine

Packets are handled one after another. Between them connections close, the operations of the
delivery service other than `Ack` call the store, and what the gateway shares with others changes.
`history` is the run of such events. `Handling` lists what handling a packet can do, and
`handle_ingress_handling` says that it does nothing else.
-/

namespace ZCourier.Server

open Go Library Downlink

/-- What can happen at a gateway: a packet arrives, a connection stops, the debug handler removes
the binding of a connection, another operation of the delivery service makes a store call, or the
verifier, the quota store, the registry or the routes change. -/
inductive GatewayEvent (V Q R : Type) where
  | packet (request : Request) (env : IngressEnv)
  | stop (connID : UInt64) (env : RegistryEnv)
  | unbind (connID : UInt64)
  | store (started : Started) (call : StoreCall) (env : StoreEnv)
  | surroundings (verifier : Option V) (quota : Option Q) (registry : Option R)
      (routing : Routing)

/-- The store calls between packets are those of service operations, and `Ack` is only called for a
packet. -/
def GatewayEvent.Possible {V Q R : Type} : GatewayEvent V Q R → Prop
  | .store started call _ =>
    started.Makes call ∧ ∀ clientID deviceID req, started.operation ≠ .ack clientID deviceID req
  | _ => True

/-- An event with the states around it. -/
structure GatewayStep (V Q R : Type) where
  before : GatewayState V Q R
  event : GatewayEvent V Q R
  after : GatewayState V Q R

variable {V Q R : Type} [Verifier V] [QuotaStore Q] [OnlineRegistry R] [Sha256]

/-- The state after an event. -/
def GatewayState.next (config : IngressConfig) (state : GatewayState V Q R) :
    GatewayEvent V Q R → GatewayState V Q R
  | .packet request env => (handleIngress config env request state).state
  | .stop connID env => onConnStop env connID state
  | .unbind connID =>
    { state with
      pipeline :=
        { state.pipeline with sessions := (state.pipeline.sessions.unbindByConnID connID).2 } }
  | .store _ call env =>
    { state with world := ⟨(state.world.store.call env call).2, env.clock⟩ }
  | .surroundings verifier quota registry routing =>
    { state with
      pipeline :=
        { state.pipeline with verifier := verifier, quota := quota, registry := registry }
      routing := routing }

/-- The steps of a run. -/
def GatewayState.history (config : IngressConfig) (state : GatewayState V Q R) :
    List (GatewayEvent V Q R) → List (GatewayStep V Q R)
  | [] => []
  | event :: rest =>
    ⟨state, event, state.next config event⟩ :: (state.next config event).history config rest

theorem GatewayState.mem_history {config : IngressConfig} {start : GatewayState V Q R}
    {events : List (GatewayEvent V Q R)} {step : GatewayStep V Q R}
    (h : step ∈ start.history config events) :
    step.event ∈ events ∧ step.after = step.before.next config step.event := by
  induction events generalizing start with
  | nil => cases h
  | cons event rest ih =>
    rcases List.mem_cons.mp h with rfl | hrest
    · exact ⟨List.mem_cons_self, rfl⟩
    · obtain ⟨hevent, hafter⟩ := ih hrest
      exact ⟨List.mem_cons_of_mem _ hevent, hafter⟩

/-! ## What handling a packet can do -/

/-- The run of the pipeline for a context, in a state of the gateway. -/
def piped (config : IngressConfig) (env : IngressEnv) (ctx : Context)
    (state : GatewayState V Q R) : Handled V Q R :=
  runChain (newIngressPipeline config.pipeline) env.pipeline ctx state.pipeline

/-- The state after the pipeline. -/
def GatewayState.piped (config : IngressConfig) (env : IngressEnv) (ctx : Context)
    (state : GatewayState V Q R) : GatewayState V Q R :=
  { state with pipeline := (Server.piped config env ctx state).state }

omit [Verifier V] [QuotaStore Q] [OnlineRegistry R] [Sha256] in
theorem forward_upstream_state (env : IngressEnv) (ctx : Context) (state : GatewayState V Q R) :
    (forwardUpstream env ctx state).state = state := by
  unfold forwardUpstream
  dsimp only
  split
  · rfl
  · split <;> rfl

omit [Verifier V] [QuotaStore Q] [OnlineRegistry R] in
theorem handle_ack_pipeline (config : IngressConfig) (env : IngressEnv) (ctx : Context)
    (state : GatewayState V Q R) :
    (handleDownlinkAck config env ctx state).state.pipeline = state.pipeline := by
  unfold handleDownlinkAck
  dsimp only
  split
  · rfl
  · split
    · rfl
    · split
      · rfl
      · split <;> rfl

omit [Verifier V] [QuotaStore Q] [Sha256] in
theorem on_conn_stop_state (env : RegistryEnv) (connID : UInt64) (state : GatewayState V Q R) :
    (onConnStop env connID state).world = state.world ∧
      (onConnStop env connID state).pipeline.sessions =
        (state.pipeline.sessions.unbindByConnID connID).2 := by
  unfold onConnStop
  dsimp only
  split <;> exact ⟨rfl, rfl⟩

/-- What handling a request can lead to. -/
inductive Handling (config : IngressConfig) (env : IngressEnv) (request : Request)
    (state : GatewayState V Q R) : IngressOutcome V Q R → Prop
  | undecoded : request.packet = none →
      Handling config env request state ⟨⟨none, .decodeFailed, .decode⟩, none, none, none, state⟩
  | noRoute {packet : Packet} : request.packet = some packet →
      packet.isBusiness = true →
      Handling config env request state
        ⟨⟨some packet, .rejected, .text (ascii "upstream_failed")⟩, none, none, none, state⟩
  | refused {packet : Packet} {ctx : Context} {err : PipelineError} :
      request.packet = some packet → ingressContext state.routing request packet = some ctx →
      (piped config env ctx state).refusal = some err →
      Handling config env request state
        ⟨⟨some (piped config env ctx state).context.packet, (ackError err).1, (ackError err).2⟩,
          none, none, none, state.piped config env ctx⟩
  | bound {packet : Packet} {ctx : Context} (flush : Option Session) (stopped : Option UInt64) :
      request.packet = some packet → ingressContext state.routing request packet = some ctx →
      (piped config env ctx state).refusal = none → packet.msgID = msgIDBind →
      Handling config env request state
        ⟨⟨some (piped config env ctx state).context.packet, .accepted, .empty⟩, none, flush,
          stopped, state.piped config env ctx⟩
  | acknowledged {packet : Packet} {ctx : Context} :
      request.packet = some packet → ingressContext state.routing request packet = some ctx →
      (piped config env ctx state).refusal = none → packet.msgID = msgIDDownlinkAck →
      Handling config env request state
        (handleDownlinkAck config env (piped config env ctx state).context
          (state.piped config env ctx))
  | forwarded {packet : Packet} {ctx : Context} :
      request.packet = some packet → ingressContext state.routing request packet = some ctx →
      (piped config env ctx state).refusal = none → packet.isBusiness = true →
      Handling config env request state
        (forwardUpstream env (piped config env ctx state).context (state.piped config env ctx))

theorem handle_ingress_handling (config : IngressConfig) (env : IngressEnv) (request : Request)
    (state : GatewayState V Q R) :
    Handling config env request state (handleIngress config env request state) := by
  unfold handleIngress
  split
  · next hpacket => exact .undecoded hpacket
  · next packet hpacket =>
    split
    · next hctx =>
      refine .noRoute hpacket ?_
      unfold ingressContext at hctx
      by_cases hbusiness : packet.isBusiness = true
      · exact hbusiness
      · rw [if_neg hbusiness] at hctx
        cases hctx
    · next ctx hctx =>
      split
      · next err after pipeline hrun =>
        have hpiped : piped config env ctx state = ⟨some err, after, pipeline⟩ := hrun
        have hrefused : Handling config env request state _ :=
          .refused hpacket hctx (congrArg Handled.refusal hpiped)
        simpa only [GatewayState.piped, hpiped] using hrefused
      · next after pipeline hrun =>
        have hpiped : piped config env ctx state = ⟨none, after, pipeline⟩ := hrun
        have hpassed := congrArg Handled.refusal hpiped
        split
        · next hbind =>
          have hbound (flush : Option Session) (stopped : Option UInt64) :
              Handling config env request state _ :=
            .bound flush stopped hpacket hctx hpassed hbind
          simpa only [GatewayState.piped, hpiped] using hbound _ _
        · next hbind =>
          split
          · next hack =>
            have hacked : Handling config env request state _ :=
              .acknowledged hpacket hctx hpassed hack
            simpa only [GatewayState.piped, hpiped] using hacked
          · next hack =>
            have hbusiness : packet.isBusiness = true := by simp [Packet.isBusiness, hbind, hack]
            have hforwarded : Handling config env request state _ :=
              .forwarded hpacket hctx hpassed hbusiness
            simpa only [GatewayState.piped, hpiped] using hforwarded

/-! A gateway and packets with which concrete runs are replayed. -/

/-- A gateway whose verifier knows the token `t` of client `c` and whose store has the message `m`
for device `d` of this client. -/
def plainGateway (registry : Option MemoryRegistry) :
    GatewayState StaticTokenVerifier LocalQuotaStore MemoryRegistry where
  pipeline :=
    { verifier := some ⟨Table.empty.put (ascii "t", ⟨ascii "c", [], [], [], 0⟩)⟩
      rateBuckets := .empty
      quota := none
      sessions := .new
      registry := registry }
  routing := .upstream true
  world := ⟨MemoryStore.new.putMessage (messageFromPushRequest requestM (ascii "m") 1), 0⟩

/-- A gateway without lists and limits, whose clients send empty ACK bodies. -/
def plainConfig : IngressConfig where
  pipeline := ⟨newPolicyHandler [] [] [] [], ⟨false, 0, 0⟩, none, ascii "g1", ascii "a1"⟩
  downlink := some newService
  unmarshalAck := fun _ => some ⟨[], true⟩

/-- Surroundings in which a created session has the id `s`. -/
def plainEnv : IngressEnv := ⟨⟨1, 1, 1, ⟨1, ascii "s"⟩, 1⟩, .forwarded, fun _ => calm⟩

/-- A packet of device `d` with the token `t` about the message `m`. -/
def packetOf (msgID : UInt32) : Packet :=
  ⟨1, 0, msgID, 0, 0, [], ascii "d", [], ascii "m", [], ascii "t", []⟩

/-- The arrival of such a packet. -/
def packetOn (connID : UInt64) (msgID : UInt32) :
    GatewayEvent StaticTokenVerifier LocalQuotaStore MemoryRegistry :=
  .packet ⟨connID, none, some (packetOf msgID)⟩ plainEnv

end ZCourier.Server
