import ZCourier.Server.Gateway

/-!
# The client id a packet claims

The handlers that read the client id of the packet itself do so only where no principal has been
verified, and authentication comes first: `claimed_client_has_no_influence` relates the runs of the
pipeline on two packets that differ in this field. Until the session binding the contexts differ in
the claimed client id and nothing else (`Claims`); the binding replaces the id.
-/

namespace ZCourier.Server

open Go Library Downlink

def Packet.claiming (packet : Packet) (clientID : GoString) : Packet :=
  { packet with clientID := clientID }

def Context.claiming (ctx : Context) (clientID : GoString) : Context :=
  { ctx with packet := ctx.packet.claiming clientID }

variable {V Q R : Type}

/-! ## Two runs -/

/-- Two runs end alike: the verdict and the state are the same, and the contexts of accepted packets
are related. -/
structure Handled.Agree (Rel : Context → Context → Prop) (first second : Handled V Q R) : Prop where
  refusal : first.refusal = second.refusal
  state : first.state = second.state
  context : first.refusal = none → Rel first.context second.context

theorem Handled.Agree.andThen {Rel Rel' : Context → Context → Prop} {first second : Handled V Q R}
    {next : Context → PipelineState V Q R → Handled V Q R} (h : first.Agree Rel second)
    (hnext : ∀ ctx ctx' state, Rel ctx ctx' → (next ctx state).Agree Rel' (next ctx' state)) :
    (first.andThen next).Agree Rel' (second.andThen next) := by
  cases hrefusal : first.refusal with
  | some err =>
    rw [Handled.andThen_refused hrefusal, Handled.andThen_refused (h.refusal ▸ hrefusal)]
    refine ⟨h.refusal, h.state, fun hnone => ?_⟩
    cases hrefusal.symm.trans hnone
  | none =>
    rw [Handled.andThen_passed hrefusal, Handled.andThen_passed (h.refusal ▸ hrefusal), ← h.state]
    exact hnext _ _ _ (h.context hrefusal)

theorem Handled.Agree.refl (handled : Handled V Q R) : handled.Agree Eq handled :=
  ⟨rfl, rfl, fun _ => rfl⟩

/-! ## The handlers -/

/-- The second context differs from the first in the claimed client id, and both have the same
verified client. -/
def Claims (clientID : GoString) (ctx ctx' : Context) : Prop :=
  ctx' = ctx.claiming clientID ∧ ∃ verified, ctx.verifiedClientID? = some verified

variable {env : PipelineEnv} {ctx : Context} {state : PipelineState V Q R} {clientID : GoString}

theorem auth_ignores_claim [Verifier V] :
    (authHandler env ctx state).Agree (Claims clientID)
      (authHandler env (ctx.claiming clientID) state) := by
  unfold authHandler
  cases state.verifier with
  | none => exact ⟨rfl, rfl, fun h => nomatch h⟩
  | some verifier =>
    have htoken : (ctx.claiming clientID).packet.token = ctx.packet.token := rfl
    dsimp only
    rw [htoken]
    obtain ⟨verified, verifier'⟩ := Verifier.verify verifier ctx.packet.token
    match verified with
    | .error err => exact ⟨rfl, rfl, fun h => nomatch h⟩
    | .ok none => exact ⟨rfl, rfl, fun h => nomatch h⟩
    | .ok (some principal) =>
      by_cases hclient : principal.clientID = []
      · simp only [if_pos hclient]
        exact ⟨rfl, rfl, fun h => nomatch h⟩
      · simp only [if_neg hclient]
        exact ⟨rfl, rfl, fun _ => ⟨rfl, principal.clientID, if_pos hclient⟩⟩

theorem verified_client_claiming (ctx : Context) (clientID : GoString) :
    (ctx.claiming clientID).verifiedClientID? = ctx.verifiedClientID? := rfl

variable {ctx' : Context}

theorem Claims.policy_client (h : Claims clientID ctx ctx') :
    policyClientID ctx' = policyClientID ctx := by
  obtain ⟨rfl, verified, hverified⟩ := h
  unfold policyClientID
  rw [verified_client_claiming, hverified]
  rfl

theorem Claims.rate_limit_key (h : Claims clientID ctx ctx') :
    rateLimitKey ctx' = rateLimitKey ctx := by
  obtain ⟨rfl, verified, hverified⟩ := h
  unfold rateLimitKey
  rw [verified_client_claiming, hverified]

theorem policy_ignores_claim (h : Claims clientID ctx ctx') (policy : PolicyHandler) :
    (policyHandler policy env ctx state).Agree (Claims clientID)
      (policyHandler policy env ctx' state) := by
  have hmsgID : ctx'.packet.msgID = ctx.packet.msgID := by rw [h.1]; rfl
  unfold policyHandler
  rw [h.policy_client, hmsgID]
  exact ⟨rfl, rfl, fun _ => h⟩

theorem rate_limit_ignores_claim (h : Claims clientID ctx ctx') (limit : RateLimitConfig) :
    (rateLimitHandler limit env ctx state).Agree (Claims clientID)
      (rateLimitHandler limit env ctx' state) := by
  unfold rateLimitHandler
  rw [h.rate_limit_key]
  dsimp only
  split_ifs
  all_goals exact ⟨rfl, rfl, fun _ => h⟩

theorem traffic_policy_ignores_claim [QuotaStore Q] (h : Claims clientID ctx ctx')
    (selector : Option TrafficPolicySelector) :
    (trafficPolicyHandler selector env ctx state).Agree (Claims clientID)
      (trafficPolicyHandler selector env ctx' state) := by
  obtain ⟨rfl, verified, hverified⟩ := id h
  have hverified' := (verified_client_claiming ctx clientID).trans hverified
  -- all the handler reads of the packet is its message id
  have hselected : ∀ selector, selectedPolicy selector (ctx.claiming clientID) verified =
      selectedPolicy selector ctx verified := fun _ => rfl
  have hctxErr : (ctx.claiming clientID).ctxErr = ctx.ctxErr := rfl
  cases selector with
  | none => exact ⟨rfl, rfl, fun _ => h⟩
  | some selector =>
    unfold trafficPolicyHandler
    dsimp only
    cases state.quota with
    | none => exact ⟨rfl, rfl, fun _ => h⟩
    | some quota =>
      simp only [hverified, hverified', hselected, hctxErr]
      cases selectedPolicy selector ctx verified with
      | none => exact ⟨rfl, rfl, fun _ => h⟩
      | some policy =>
        dsimp only
        split
        · exact ⟨rfl, rfl, fun _ => h⟩
        · exact ⟨rfl, rfl, fun _ => h⟩

theorem handle_bind_ignores_claim (gatewayNode : GoString) (principal : Principal) :
    (handleBindPacket gatewayNode principal env ctx state).Agree Eq
      (handleBindPacket gatewayNode principal env (ctx.claiming clientID) state) := by
  unfold handleBindPacket
  dsimp only [Context.claiming, Packet.claiming]
  split
  · exact ⟨rfl, rfl, fun h => nomatch h⟩
  · exact ⟨rfl, rfl, fun _ => rfl⟩

theorem handle_bound_ignores_claim (principal : Principal) :
    (handleBoundPacket principal env ctx state).Agree Eq
      (handleBoundPacket principal env (ctx.claiming clientID) state) := by
  have hconnID : (ctx.claiming clientID).connID = ctx.connID := rfl
  have hdeviceID : (ctx.claiming clientID).packet.deviceID = ctx.packet.deviceID := rfl
  have hsessionID : (ctx.claiming clientID).packet.sessionID = ctx.packet.sessionID := rfl
  unfold handleBoundPacket
  simp only [hconnID, hdeviceID, hsessionID]
  split
  · exact ⟨rfl, rfl, fun h => nomatch h⟩
  · exact ⟨rfl, rfl, fun h => nomatch h⟩
  · split_ifs
    · exact ⟨rfl, rfl, fun h => nomatch h⟩
    · exact ⟨rfl, rfl, fun h => nomatch h⟩
    · exact ⟨rfl, rfl, fun h => nomatch h⟩
    · exact ⟨rfl, rfl, fun _ => rfl⟩

theorem session_bind_ignores_claim (h : Claims clientID ctx ctx') (gatewayNode : GoString) :
    (sessionBindHandler gatewayNode env ctx state).Agree Eq
      (sessionBindHandler gatewayNode env ctx' state) := by
  obtain ⟨rfl, -⟩ := h
  have hprincipal : (ctx.claiming clientID).principal = ctx.principal := rfl
  have hmsgID : (ctx.claiming clientID).packet.msgID = ctx.packet.msgID := rfl
  unfold sessionBindHandler
  rw [hprincipal, hmsgID]
  cases ctx.principal with
  | none => exact ⟨rfl, rfl, fun h => nomatch h⟩
  | some principal =>
    dsimp only
    split
    · exact handle_bound_ignores_claim principal
    · exact handle_bind_ignores_claim gatewayNode principal

/-! ## The pipeline -/

variable [Verifier V] [QuotaStore Q] [OnlineRegistry R]

theorem pipeline_ignores_claim (config : PipelineConfig) (env : PipelineEnv) (ctx : Context)
    (state : PipelineState V Q R) (clientID : GoString) :
    (runChain (newIngressPipeline config) env ctx state).Agree Eq
      (runChain (newIngressPipeline config) env (ctx.claiming clientID) state) := by
  refine auth_ignores_claim.andThen fun _ _ _ h₁ => ?_
  refine (policy_ignores_claim h₁ config.policy).andThen fun _ _ _ h₂ => ?_
  refine (rate_limit_ignores_claim h₂ config.rateLimit).andThen fun _ _ _ h₃ => ?_
  refine (traffic_policy_ignores_claim h₃ config.trafficPolicies).andThen fun _ _ _ h₄ => ?_
  refine (session_bind_ignores_claim h₄ config.gatewayNode).andThen fun _ _ _ h₅ => ?_
  rw [h₅]
  exact .refl _

/-- The run of the pipeline on a packet, with the route the current routes give the packet. There is
no run where the route generation cannot be acquired. -/
def ingressRun (config : PipelineConfig) (env : PipelineEnv) (state : GatewayState V Q R)
    (request : Request) (packet : Packet) : Option (Handled V Q R) :=
  (ingressContext state.routing request packet).map fun ctx =>
    runChain (newIngressPipeline config) env ctx state.pipeline

/-- Two runs cannot be told apart: the verdict, with its ack code, and the state are the same. Where
the packets are accepted they are the same, with the ids of the session bound on their connection,
whose client is the principal of the token. -/
structure TreatedAlike (before : PipelineState V Q R) (connID : UInt64) (token : GoString)
    (first second : Handled V Q R) : Prop where
  refusal : first.refusal = second.refusal
  state : first.state = second.state
  accepted : first.refusal = none →
    first.context.packet = second.context.packet ∧
      ∃ principal session, before.Verifies token principal ∧
        first.state.sessions.byConnID.get? connID = some session ∧
        first.context.packet.clientID = session.clientID ∧
        first.context.packet.sessionID = session.sessionID ∧
        first.context.packet.clientID = principal.clientID

theorem ingress_context_claiming (routing : Routing) (connID : UInt64)
    (ctxErr : Option ContextError) (packet : Packet) (clientID : GoString) :
    ingressContext routing ⟨connID, ctxErr, some (packet.claiming clientID)⟩
        (packet.claiming clientID) =
      (ingressContext routing ⟨connID, ctxErr, some packet⟩ packet).map (·.claiming clientID) := by
  have hbusiness : (packet.claiming clientID).isBusiness = packet.isBusiness := rfl
  unfold ingressContext
  rw [hbusiness]
  dsimp only
  split
  · cases routing <;> rfl
  · rfl

/-- A claimed client id has no influence: in every state of the gateway, two packets that differ in
nothing else are treated alike. -/
theorem claimed_client_has_no_influence (config : PipelineConfig) (env : PipelineEnv)
    (state : GatewayState V Q R) (connID : UInt64) (ctxErr : Option ContextError)
    (packet : Packet) (clientID : GoString) :
    Option.Rel (TreatedAlike state.pipeline connID packet.token)
      (ingressRun config env state ⟨connID, ctxErr, some packet⟩ packet)
      (ingressRun config env state ⟨connID, ctxErr, some (packet.claiming clientID)⟩
        (packet.claiming clientID)) := by
  unfold ingressRun
  rw [ingress_context_claiming]
  cases hctx : ingressContext state.routing ⟨connID, ctxErr, some packet⟩ packet with
  | none => exact .none
  | some ctx =>
    obtain ⟨rfl, rfl⟩ : ctx.connID = connID ∧ ctx.packet = packet := ingress_context_some hctx
    have halike := pipeline_ignores_claim config env ctx state.pipeline clientID
    refine .some ⟨halike.refusal, halike.state, fun hnone => ?_⟩
    obtain ⟨principal, session, hverifies, hadmitted, -⟩ := pipeline_admits hnone
    refine ⟨congrArg Context.packet (halike.context hnone), principal, session, hverifies,
      hadmitted.bound, hadmitted.clientID, hadmitted.sessionID, ?_⟩
    exact hadmitted.clientID.trans hadmitted.principal

/-- A BIND that claims to come from `x` is accepted, and treated like one that claims nothing. -/
theorem claimed_client_has_no_influence_bind :
    (ingressRun plainConfig.pipeline plainEnv.pipeline (plainGateway none)
        ⟨7, none, some ((packetOf msgIDBind).claiming (ascii "x"))⟩
        ((packetOf msgIDBind).claiming (ascii "x"))).map
        (fun handled => (handled.refusal, handled.context.packet.clientID)) =
      some (none, ascii "c") ∧
      Option.Rel (TreatedAlike (plainGateway none).pipeline 7 (ascii "t"))
        (ingressRun plainConfig.pipeline plainEnv.pipeline (plainGateway none)
          ⟨7, none, some (packetOf msgIDBind)⟩ (packetOf msgIDBind))
        (ingressRun plainConfig.pipeline plainEnv.pipeline (plainGateway none)
          ⟨7, none, some ((packetOf msgIDBind).claiming (ascii "x"))⟩
          ((packetOf msgIDBind).claiming (ascii "x"))) :=
  ⟨by decide +kernel,
    claimed_client_has_no_influence _ _ (plainGateway none) 7 none (packetOf msgIDBind) (ascii "x")⟩

end ZCourier.Server
