import ZCourier.Server.Gateway

/-!
# Rejected BINDs

The session is bound before its route is published, and it stays bound when the registry fails
(`registry_failure_leaves_session`). While the registry does not fail, `rejected_bind_has_no_effect`
holds; the fact behind it is `pipeline_sessions`, what the pipeline does to the sessions.
-/

namespace ZCourier.Server

open Go Library Downlink

/-! ## Connections with a session -/

namespace Manager

variable {m : Manager} {k : UInt64}

/-- The connection has a session. -/
def Has (m : Manager) (connID : UInt64) : Prop := (m.byConnID.get? connID).isSome = true

theorem Has.of_remove {connID : UInt64} (h : (m.removeConnLocked connID).2.Has k) : m.Has k := by
  unfold Has at h ⊢
  rw [remove_conn_get] at h
  split at h
  · cases h
  · exact h

theorem Has.of_remove_replaced {input : BindInput} (h : (m.removeReplaced input).2.Has k) :
    m.Has k := by
  unfold removeReplaced at h
  split at h
  · exact h
  · split at h
    · exact h.of_remove
    · exact h

theorem Has.of_put {session : Session}
    (h : ((m.byConnID.put session).get? k).isSome = true) : m.Has k ∨ k = session.connID := by
  rw [Table.get?_put] at h
  split at h
  · next hk => exact .inr hk
  · exact .inl h

theorem Has.of_touch {env : SessionEnv} {connID : UInt64} {now : Int}
    (h : (m.touchByConnID env connID now).2.Has k) : m.Has k := by
  unfold touchByConnID at h
  dsimp only at h
  split at h
  · exact h
  · next found hfound =>
    rcases Has.of_put h with hbefore | hk
    · exact hbefore
    · have hconnID : found.connID = connID := Table.key_of_get? hfound
      rw [Has, hk, hconnID, hfound]
      rfl

theorem Has.of_bind {env : SessionEnv} {input : BindInput} (h : (m.bind env input).2.Has k) :
    m.Has k ∨ k = input.connID := by
  rcases bind_cases m env input with ⟨err, heq⟩ | ⟨now, heq⟩
  · rw [heq] at h
    exact .inl h
  · rw [heq] at h
    unfold bindLocked at h
    split at h
    · next existing hexisting =>
      rcases Has.of_put h with hbefore | hk
      · exact .inl hbefore
      · have hconnID : existing.connID = input.connID :=
          Table.key_of_get? (existing_eq_some hexisting).1
        exact .inr (hk.trans hconnID)
    · exact (Has.of_put h).imp_left fun hbefore => hbefore.of_remove_replaced.of_remove

end Manager

/-! ## What the pipeline does to the sessions -/

variable {V Q R : Type}

/-- The binding that a BIND packet asks for. -/
def Context.bindInput (ctx : Context) (principal : Principal) (gatewayNode : GoString) :
    BindInput :=
  ⟨[], ctx.connID, principal.clientID, ctx.packet.deviceID, principal.tokenID, gatewayNode, 0⟩

theorem session_bind_sessions (gatewayNode : GoString) (env : PipelineEnv) (ctx : Context)
    (state : PipelineState V Q R) :
    let handled := sessionBindHandler gatewayNode env ctx state
    handled.state.sessions = state.sessions ∨
      (ctx.packet.msgID ≠ msgIDBind ∧ handled.state.sessions =
        (state.sessions.touchByConnID env.sessions ctx.connID env.touchNow).2) ∨
      ctx.packet.msgID = msgIDBind ∧ handled.refusal = none ∧
        ∃ principal result, ctx.principal = some principal ∧
          (state.sessions.bind env.sessions (ctx.bindInput principal gatewayNode)).1 = .ok result ∧
          handled.state = { state with
            sessions := (state.sessions.bind env.sessions
              (ctx.bindInput principal gatewayNode)).2 } ∧
          handled.context.bindResult = some result ∧ handled.context.ctxErr = ctx.ctxErr := by
  unfold sessionBindHandler
  dsimp only
  cases ctx.principal with
  | none => exact .inl rfl
  | some principal =>
    dsimp only
    split
    · next hmsgID =>
      refine .inr (.inl ⟨hmsgID, ?_⟩)
      unfold handleBoundPacket
      dsimp only
      split
      · rfl
      · rfl
      · split_ifs <;> rfl
    · next hmsgID =>
      unfold handleBindPacket
      dsimp only
      split
      · next err herr => exact .inl (Manager.bind_error herr)
      · next result hresult =>
        exact .inr (.inr ⟨not_not.mp hmsgID, rfl, principal, result, rfl, hresult, rfl, rfl, rfl⟩)

variable {ctx : Context} {env : PipelineEnv} {state : PipelineState V Q R}

theorem cluster_bind_refusal [OnlineRegistry R] {gatewayNode internalAddr : GoString}
    {result : BindResult} (hresult : ctx.bindResult = some result) :
    (clusterBindHandler gatewayNode internalAddr env ctx state).refusal = none ∨
      ∃ registry err, state.registry = some registry ∧
        (OnlineRegistry.bind registry ⟨ctx.ctxErr, env.registryNow⟩
          (namedRouteEntry result.session gatewayNode internalAddr)).1 = .error err := by
  unfold clusterBindHandler
  rw [hresult]
  cases hregistry : state.registry with
  | none => exact .inl rfl
  | some registry =>
    dsimp only
    split
    · next err herr => exact .inr ⟨registry, err, rfl, herr⟩
    · exact .inl rfl

/-! ## Refusals -/

/-- If the packet is refused, the code says so. -/
def Handled.Honest (handled : Handled V Q R) : Prop :=
  ∀ err, handled.refusal = some err → err.code ≠ .accepted

theorem honest_none : Handled.Honest ⟨none, ctx, state⟩ :=
  fun _ h => nomatch h

theorem honest_reject {code : AckCode} {reason : GoString} {err : Refusal} (h : code ≠ .accepted) :
    Handled.Honest ⟨some ⟨code, reason, err⟩, ctx, state⟩ := by
  intro err' herr
  obtain rfl := Option.some.inj herr
  exact h

theorem run_chain_honest {handlers : List (Handler V Q R)}
    (h : ∀ handler ∈ handlers, ∀ ctx state, (handler env ctx state).Honest) (ctx : Context)
    (state : PipelineState V Q R) : (runChain handlers env ctx state).Honest := by
  induction handlers generalizing ctx state with
  | nil => exact honest_none
  | cons handler rest ih =>
    rw [run_chain_cons]
    cases hrefusal : (handler env ctx state).refusal with
    | some err =>
      rw [Handled.andThen_refused hrefusal]
      exact h handler List.mem_cons_self ctx state
    | none =>
      rw [Handled.andThen_passed hrefusal]
      exact ih (fun later hlater => h later (List.mem_cons_of_mem _ hlater)) _ _

theorem auth_honest [Verifier V] : (authHandler env ctx state).Honest := by
  unfold authHandler
  split
  · exact honest_reject (by decide)
  · dsimp only
    split
    · next err _ => exact honest_reject (by cases err <;> decide)
    · exact honest_reject (by decide)
    · split
      · exact honest_reject (by decide)
      · exact honest_none

theorem policy_honest (policy : PolicyHandler) : (policyHandler policy env ctx state).Honest := by
  unfold policyHandler PolicyHandler.decide
  split_ifs
  · exact honest_reject (by decide)
  · exact honest_reject (by decide)
  · exact honest_reject (by decide)
  · exact honest_reject (by decide)
  · exact honest_none

theorem rate_limit_honest (limit : RateLimitConfig) :
    (rateLimitHandler limit env ctx state).Honest := by
  unfold rateLimitHandler
  dsimp only
  split_ifs
  · exact honest_none
  · exact honest_reject (by decide)
  · exact honest_reject (by decide)
  · exact honest_none

theorem honest_quota {policy : GoString} {decision : QuotaDecision} :
    Handled.Honest ⟨quotaRefusal policy decision, ctx, state⟩ := by
  cases decision with
  | allowed => exact honest_none
  | rateLimited | overloaded | admissionUnavailable => exact honest_reject (by decide)

theorem traffic_policy_honest [QuotaStore Q] (selector : Option TrafficPolicySelector) :
    (trafficPolicyHandler selector env ctx state).Honest := by
  unfold trafficPolicyHandler
  split
  · exact honest_none
  · split
    · exact honest_reject (by decide)
    · split
      · exact honest_reject (by decide)
      · split
        · exact honest_none
        · dsimp only
          split
          · exact honest_reject (by decide)
          · exact honest_quota

theorem session_bind_honest (gatewayNode : GoString) :
    (sessionBindHandler gatewayNode env ctx state).Honest := by
  unfold sessionBindHandler
  split
  · exact honest_reject (by decide)
  · split
    · unfold handleBoundPacket
      dsimp only
      split
      · exact honest_reject (by decide)
      · exact honest_reject (by decide)
      · split_ifs
        · exact honest_reject (by decide)
        · exact honest_reject (by decide)
        · exact honest_reject (by decide)
        · exact honest_none
    · unfold handleBindPacket
      dsimp only
      split
      · exact honest_reject (by decide)
      · exact honest_none

theorem cluster_bind_honest [OnlineRegistry R] (gatewayNode internalAddr : GoString) :
    (clusterBindHandler gatewayNode internalAddr env ctx state).Honest := by
  unfold clusterBindHandler
  split
  · dsimp only
    split
    · exact honest_reject (by decide)
    · exact honest_none
  · exact honest_none

/-! ## The pipeline -/

variable [Verifier V] [QuotaStore Q] [OnlineRegistry R]

/-- What the registry answers to the binding that a BIND packet asks for, both as they are before
the packet; there is no answer if the token or the binding is refused. -/
def PipelineState.registryBind? (config : PipelineConfig) (env : PipelineEnv) (ctx : Context)
    (state : PipelineState V Q R) : Option (Except RegistryError Unit) :=
  state.registry.bind fun registry => state.verifier.bind fun verifier =>
    match (Verifier.verify verifier ctx.packet.token).1 with
    | .ok (some principal) =>
      match (state.sessions.bind env.sessions (ctx.bindInput principal config.gatewayNode)).1 with
      | .ok result => some (OnlineRegistry.bind registry ⟨ctx.ctxErr, env.registryNow⟩
          (namedRouteEntry result.session config.gatewayNode config.internalAddr)).1
      | .error _ => none
    | _ => none

/-- The pipeline leaves the sessions alone, touches one, or binds one; after it has bound one, only
the registry can refuse the packet. -/
theorem pipeline_sessions (config : PipelineConfig) (env : PipelineEnv) (ctx : Context)
    (state : PipelineState V Q R) :
    let handled := runChain (newIngressPipeline config) env ctx state
    handled.state.sessions = state.sessions ∨
      (ctx.packet.msgID ≠ msgIDBind ∧ handled.state.sessions =
        (state.sessions.touchByConnID env.sessions ctx.connID env.touchNow).2) ∨
      ctx.packet.msgID = msgIDBind ∧
        (handled.refusal = none ∨ ∃ err, state.registryBind? config env ctx = some (.error err)) ∧
        ∃ input : BindInput, input.connID = ctx.connID ∧
          handled.state.sessions = (state.sessions.bind env.sessions input).2 := by
  intro handled
  obtain ⟨hscreened, hverified⟩ := screen_spec config env ctx state
  have hrun : handled = _ := run_pipeline_eq config env ctx state
  generalize runChain (screeningHandlers config) env ctx state =
    screened at hscreened hrun hverified
  cases hpassed : screened.refusal with
  | some err =>
    rw [Handled.andThen_refused hpassed] at hrun
    exact .inl (hrun ▸ hscreened.sessions)
  | none =>
    rw [Handled.andThen_passed hpassed] at hrun
    obtain ⟨verified, hprincipal, verifier, hverifier, hverify, -⟩ := hverified hpassed
    have hbound := session_bind_sessions config.gatewayNode env screened.context screened.state
    dsimp only [Context.bindInput] at hbound
    rw [hscreened.sessions, congrArg Context.connID hscreened.context,
      congrArg (fun c => c.packet.msgID) hscreened.context,
      congrArg (fun c => c.packet.deviceID) hscreened.context,
      congrArg Context.ctxErr hscreened.context, hprincipal] at hbound
    generalize sessionBindHandler config.gatewayNode env screened.context screened.state =
      bound at hrun hbound
    cases hrefusal : bound.refusal with
    | some err =>
      rw [Handled.andThen_refused hrefusal] at hrun
      rw [hrun]
      refine hbound.imp_right (Or.imp_right ?_)
      rintro ⟨-, hnone, -⟩
      cases hrefusal.symm.trans hnone
    | none =>
      rw [Handled.andThen_passed hrefusal] at hrun
      obtain ⟨-, hsessions⟩ := cluster_bind_keeps config.gatewayNode config.internalAddr env
        bound.context bound.state
      rw [hrun, hsessions]
      refine hbound.imp_right (Or.imp_right ?_)
      rintro ⟨hmsgID, -, principal, result, hsome, hresult, hstate, hbindResult, hctxErr⟩
      obtain rfl := Option.some.inj hsome
      refine ⟨hmsgID, ?_, _, rfl, by rw [hstate]⟩
      refine (cluster_bind_refusal hbindResult).imp_right ?_
      rintro ⟨registry, err, hregistry, herr⟩
      rw [hstate] at hregistry
      have hregistry : state.registry = some registry := hscreened.registry ▸ hregistry
      refine ⟨err, ?_⟩
      rw [hctxErr] at herr
      simp only [PipelineState.registryBind?, hregistry, hverifier, Option.bind_some, hverify,
        Context.bindInput, hresult, herr]

theorem pipeline_honest (config : PipelineConfig) (env : PipelineEnv) (ctx : Context)
    (state : PipelineState V Q R) :
    (runChain (newIngressPipeline config) env ctx state).Honest := by
  refine run_chain_honest (fun handler hmem ctx state => ?_) ctx state
  simp only [newIngressPipeline, List.mem_cons, List.not_mem_nil, or_false] at hmem
  rcases hmem with rfl | rfl | rfl | rfl | rfl | rfl
  · exact auth_honest
  · exact policy_honest _
  · exact rate_limit_honest _
  · exact traffic_policy_honest _
  · exact session_bind_honest _
  · exact cluster_bind_honest _ _

/-! ## Runs of the gateway -/

variable [Sha256]

/-- The connection, the packet and the reply of a step that handles a packet. -/
def GatewayStep.answer? (config : IngressConfig) (step : GatewayStep V Q R) :
    Option (UInt64 × Packet × Reply) :=
  match step.event with
  | .packet request env => request.packet.map fun packet =>
    (request.connID, packet, (handleIngress config env request step.before).reply)
  | _ => none

def GatewayStep.Answers (config : IngressConfig) (step : GatewayStep V Q R) (connID : UInt64)
    (packet : Packet) (reply : Reply) : Prop :=
  step.answer? config = some (connID, packet, reply)

variable {packet : Packet} {step : GatewayStep V Q R}

theorem GatewayStep.Answers.event {config : IngressConfig} {connID : UInt64} {reply : Reply}
    (h : step.Answers config connID packet reply) :
    ∃ request env, step.event = .packet request env ∧ request.connID = connID ∧
      request.packet = some packet ∧
      (handleIngress config env request step.before).reply = reply := by
  unfold Answers answer? at h
  split at h
  · next request env hevent =>
    obtain ⟨packet', hpacket, heq⟩ := Option.map_eq_some_iff.mp h
    obtain ⟨hconnID, hrest⟩ := Prod.mk.inj heq
    obtain ⟨rfl, hreply⟩ := Prod.mk.inj hrest
    exact ⟨request, env, hevent, hconnID, hpacket, hreply⟩
  · cases h

variable {env : IngressEnv} {request : Request}

theorem GatewayStep.answers_packet {config : IngressConfig} {before after : GatewayState V Q R}
    (h : request.packet = some packet) :
    GatewayStep.Answers config ⟨before, .packet request env, after⟩ request.connID packet
      (handleIngress config env request before).reply := by
  unfold Answers answer?
  dsimp only
  rw [h]
  rfl

/-- The step answers a BIND with another code than the accepting one. -/
def GatewayStep.RejectsBind (config : IngressConfig) (step : GatewayStep V Q R) : Prop :=
  ∃ connID packet reply, step.Answers config connID packet reply ∧
    packet.msgID = msgIDBind ∧ reply.code ≠ .accepted

def GatewayStep.AcceptsBind (config : IngressConfig) (connID : UInt64)
    (step : GatewayStep V Q R) : Prop :=
  ∃ packet reply, step.Answers config connID packet reply ∧
    packet.msgID = msgIDBind ∧ reply.code = .accepted

/-- The step accepts another packet of the connection. -/
def GatewayStep.Accepts (config : IngressConfig) (connID : UInt64)
    (step : GatewayStep V Q R) : Prop :=
  ∃ packet reply, step.Answers config connID packet reply ∧
    packet.msgID ≠ msgIDBind ∧ reply.code = .accepted

/-- What the registry answers to the binding that the BIND packet of the step asks for. -/
def GatewayStep.registryBind? (config : IngressConfig) (step : GatewayStep V Q R) :
    Option (Except RegistryError Unit) :=
  match step.event with
  | .packet request env => request.packet.bind fun packet =>
      if packet.msgID = msgIDBind then
        step.before.pipeline.registryBind? config.pipeline env.pipeline
          (newContext request.connID request.ctxErr packet)
      else none
  | _ => none

/-- The registry, as it is before the step, fails the binding that the step's BIND packet asks
for. -/
def GatewayStep.RegistryFails (config : IngressConfig) (step : GatewayStep V Q R) : Prop :=
  ∃ err, step.registryBind? config = some (.error err)

variable {config : IngressConfig} {before : GatewayState V Q R} {event : GatewayEvent V Q R}
  {k : UInt64}

omit [Sha256] in
theorem refused_bind_sessions {err : PipelineError}
    (hrefusal : (piped config env ctx before).refusal = some err) (hregistry : ∀ failure,
      before.pipeline.registryBind? config.pipeline env.pipeline ctx ≠ some (.error failure))
    (hbind : ctx.packet.msgID = msgIDBind) :
    (before.piped config env ctx).pipeline.sessions = before.pipeline.sessions := by
  rcases pipeline_sessions config.pipeline env.pipeline ctx before.pipeline with
    hsame | ⟨hmsgID, -⟩ | ⟨-, hpassed | ⟨failure, hfailed⟩, -⟩
  · exact hsame
  · exact absurd hbind hmsgID
  · cases hrefusal.symm.trans hpassed
  · exact absurd hfailed (hregistry failure)

omit [Sha256] in
theorem bind_context {routing : Routing} (hctx : ingressContext routing request packet = some ctx)
    (hbind : packet.msgID = msgIDBind) : ctx = newContext request.connID request.ctxErr packet := by
  unfold ingressContext at hctx
  dsimp only at hctx
  rw [if_neg (by simp [Packet.isBusiness, hbind])] at hctx
  exact (Option.some.inj hctx).symm

omit [QuotaStore Q] [Sha256] in
theorem bind_registry_answers {after : GatewayState V Q R}
    (hregistry : ¬ GatewayStep.RegistryFails config ⟨before, .packet request env, after⟩)
    (hpacket : request.packet = some packet)
    (hctx : ingressContext before.routing request packet = some ctx)
    (hbind : packet.msgID = msgIDBind) (failure : RegistryError) :
    before.pipeline.registryBind? config.pipeline env.pipeline ctx ≠ some (.error failure) := by
  intro hfailure
  refine hregistry ⟨failure, ?_⟩
  simp only [GatewayStep.registryBind?, hpacket, Option.bind_some, if_pos hbind]
  rwa [← bind_context hctx hbind]

omit [Sha256] in
theorem piped_has (h : (before.piped config env ctx).pipeline.sessions.Has k) :
    before.pipeline.sessions.Has k ∨ ctx.packet.msgID = msgIDBind ∧ k = ctx.connID := by
  have hsessions := pipeline_sessions config.pipeline env.pipeline ctx before.pipeline
  change (piped config env ctx before).state.sessions.Has k at h
  unfold piped at h
  rcases hsessions with hsame | ⟨-, htouch⟩ | ⟨hbind, -, input, hconnID, hbound⟩
  · rw [hsame] at h
    exact .inl h
  · rw [htouch] at h
    exact .inl h.of_touch
  · rw [hbound] at h
    exact h.of_bind.imp_right fun hk => ⟨hbind, hk.trans hconnID⟩

theorem rejects_bind_sessions
    (hregistry : ¬ GatewayStep.RegistryFails config ⟨before, event, before.next config event⟩)
    (h : GatewayStep.RejectsBind config ⟨before, event, before.next config event⟩) :
    (before.next config event).pipeline.sessions = before.pipeline.sessions := by
  obtain ⟨connID, packet, reply, hanswers, hbind, hcode⟩ := h
  obtain ⟨request, env, rfl, -, hpacket, hreply⟩ := hanswers.event
  have hhandling := handle_ingress_handling config env request before
  change (handleIngress config env request before).state.pipeline.sessions = _
  generalize handleIngress config env request before = outcome at hreply hhandling
  cases hhandling with
  | undecoded | noRoute => rfl
  | refused hpacket' hctx hrefusal =>
    obtain rfl := Option.some.inj (hpacket.symm.trans hpacket')
    exact refused_bind_sessions hrefusal (bind_registry_answers hregistry hpacket hctx hbind)
      ((ingress_context_some hctx).2 ▸ hbind)
  | bound =>
    rw [← hreply] at hcode
    exact absurd rfl hcode
  | acknowledged hpacket' _ _ hack =>
    obtain rfl := Option.some.inj (hpacket.symm.trans hpacket')
    cases hbind.symm.trans hack
  | forwarded hpacket' _ _ hbusiness =>
    obtain rfl := Option.some.inj (hpacket.symm.trans hpacket')
    simp [Packet.isBusiness, hbind] at hbusiness

theorem handle_ingress_has (hregistry : ¬ GatewayStep.RegistryFails config
      ⟨before, .packet request env, before.next config (.packet request env)⟩)
    (h : (before.next config (.packet request env)).pipeline.sessions.Has k) :
    before.pipeline.sessions.Has k ∨ GatewayStep.AcceptsBind config k
      ⟨before, .packet request env, before.next config (.packet request env)⟩ := by
  have hhandling := handle_ingress_handling config env request before
  change (handleIngress config env request before).state.pipeline.sessions.Has k at h
  generalize houtcome : handleIngress config env request before = outcome at h hhandling
  -- a packet that is not a BIND gives no connection a session
  have hother {packet : Packet} {ctx : Context}
      (hctx : ingressContext before.routing request packet = some ctx)
      (hmsgID : packet.msgID ≠ msgIDBind)
      (hpiped : (before.piped config env ctx).pipeline.sessions.Has k) :
      before.pipeline.sessions.Has k := by
    rcases piped_has hpiped with hbefore | ⟨hbind, -⟩
    · exact hbefore
    · exact absurd ((ingress_context_some hctx).2 ▸ hbind) hmsgID
  cases hhandling with
  | undecoded | noRoute => exact .inl h
  | @refused packet ctx err hpacket hctx hrefusal =>
    by_cases hbind : packet.msgID = msgIDBind
    · have hsessions := refused_bind_sessions hrefusal
        (bind_registry_answers hregistry hpacket hctx hbind) ((ingress_context_some hctx).2 ▸ hbind)
      exact .inl (hsessions ▸ h)
    · exact .inl (hother hctx hbind h)
  | bound flush stopped hpacket hctx _ hbind =>
    refine (piped_has h).imp_right fun hk => ?_
    obtain rfl : k = request.connID := hk.2.trans (ingress_context_some hctx).1
    refine ⟨_, _, GatewayStep.answers_packet hpacket, hbind, ?_⟩
    rw [houtcome]
  | acknowledged hpacket hctx _ hack =>
    rw [handle_ack_pipeline] at h
    exact .inl (hother hctx (by rw [hack]; decide) h)
  | forwarded hpacket hctx _ hbusiness =>
    rw [forward_upstream_state] at h
    refine .inl (hother hctx (fun hbind => ?_) h)
    simp [Packet.isBusiness, hbind] at hbusiness

theorem step_has
    (hregistry : ¬ GatewayStep.RegistryFails config ⟨before, event, before.next config event⟩)
    (h : (before.next config event).pipeline.sessions.Has k) :
    before.pipeline.sessions.Has k ∨
      GatewayStep.AcceptsBind config k ⟨before, event, before.next config event⟩ := by
  cases event with
  | packet request env => exact handle_ingress_has hregistry h
  | stop connID env =>
    rw [GatewayState.next, (on_conn_stop_state env connID before).2] at h
    exact .inl h.of_remove
  | unbind connID => exact .inl h.of_remove
  | store | surroundings => exact .inl h

theorem accepts_has (h : step.Accepts config k) : step.before.pipeline.sessions.Has k := by
  obtain ⟨packet, reply, hanswers, hbind, hcode⟩ := h
  obtain ⟨request, env, -, rfl, hpacket, hreply⟩ := hanswers.event
  have hhandling := handle_ingress_handling config env request step.before
  generalize handleIngress config env request step.before = outcome at hreply hhandling
  rw [← hreply] at hcode
  -- a packet that passes the pipeline is on a connection with a session
  have hpassed {ctx : Context} (hctx : ingressContext step.before.routing request packet = some ctx)
      (hrefusal : (piped config env ctx step.before).refusal = none) :
      step.before.pipeline.sessions.Has request.connID := by
    obtain ⟨hconnID, hctxPacket⟩ := ingress_context_some hctx
    obtain ⟨principal, bound, -, -, hbound⟩ := pipeline_admits hrefusal
    obtain ⟨session, hsession, -⟩ := hbound (hctxPacket ▸ hbind)
    rw [Manager.Has, ← hconnID, hsession]
    rfl
  cases hhandling with
  | undecoded | noRoute => cases hcode
  | refused _ _ hrefusal => exact absurd hcode (pipeline_honest _ _ _ _ _ hrefusal)
  | bound _ _ hpacket' _ _ hmsgID =>
    obtain rfl := Option.some.inj (hpacket.symm.trans hpacket')
    exact absurd hmsgID hbind
  | acknowledged hpacket' hctx hrefusal | forwarded hpacket' hctx hrefusal =>
    obtain rfl := Option.some.inj (hpacket.symm.trans hpacket')
    exact hpassed hctx hrefusal

/-- In a run without failures of the registry, a connection that has a session had one at the start
or has been bound by an accepted BIND. -/
theorem history_has {start : GatewayState V Q R} {events : List (GatewayEvent V Q R)}
    (hregistry : ∀ step ∈ start.history config events, ¬ step.RegistryFails config)
    {earlier later : List (GatewayStep V Q R)}
    (hsplit : start.history config events = earlier ++ step :: later)
    (h : step.before.pipeline.sessions.Has k) :
    start.pipeline.sessions.Has k ∨ ∃ bind ∈ earlier, bind.AcceptsBind config k := by
  induction events generalizing start earlier with
  | nil => simp [GatewayState.history] at hsplit
  | cons event rest ih =>
    cases earlier with
    | nil =>
      obtain rfl := (List.cons.inj hsplit).1
      exact .inl h
    | cons first earlier =>
      obtain ⟨rfl, hrest⟩ := List.cons.inj hsplit
      rcases ih (fun step hstep => hregistry step (List.mem_cons_of_mem _ hstep)) hrest with
        hnext | ⟨bind, hbind, haccepts⟩
      · rcases step_has (hregistry _ List.mem_cons_self) hnext with hstart | haccepts
        · exact .inl hstart
        · exact .inr ⟨_, List.mem_cons_self, haccepts⟩
      · exact .inr ⟨bind, List.mem_cons_of_mem _ hbind, haccepts⟩

/-- In every run in which the registry does not fail, a rejected BIND leaves the sessions as they
were, and a connection whose other packets are accepted had a session at the start or has been bound
by an accepted BIND before. -/
theorem rejected_bind_has_no_effect (config : IngressConfig) (start : GatewayState V Q R)
    (events : List (GatewayEvent V Q R))
    (hregistry : ∀ step ∈ start.history config events, ¬ step.RegistryFails config) :
    (∀ step ∈ start.history config events, step.RejectsBind config →
      step.after.pipeline.sessions = step.before.pipeline.sessions) ∧
    ∀ earlier step later, start.history config events = earlier ++ step :: later →
      ∀ connID, step.Accepts config connID →
        start.pipeline.sessions.Has connID ∨
          ∃ bind ∈ earlier, bind.AcceptsBind config connID := by
  constructor
  · intro step hstep hrejects
    have hfails := hregistry step hstep
    obtain ⟨-, hafter⟩ := GatewayState.mem_history hstep
    obtain ⟨before, event, after⟩ := step
    obtain rfl : after = before.next config event := hafter
    exact rejects_bind_sessions hfails hrejects
  · intro earlier step later hsplit connID haccepts
    exact history_has hregistry hsplit (accepts_has haccepts)

omit [Sha256] in
/-- A BIND without a device is rejected on connection 6. A BIND is then accepted on connection 7,
and so is the packet that follows it. -/
theorem rejected_bind_has_no_effect_no_device :
    let _ := Sha256.polynomial
    let noDevice := { packetOf msgIDBind with deviceID := [] }
    let history := (plainGateway (some (.new 0))).history plainConfig
      [.packet ⟨6, none, some noDevice⟩ plainEnv, packetOn 7 msgIDBind, packetOn 7 5000]
    history.map (fun step => (step.answer? plainConfig).map fun answer =>
        (answer.1, answer.2.2.code)) =
      [some (6, .rejected), some (7, .accepted), some (7, .accepted)] ∧
    (∀ step ∈ history, step.RejectsBind plainConfig →
      step.after.pipeline.sessions = step.before.pipeline.sessions) ∧
    ∀ earlier step later, history = earlier ++ step :: later →
      ∀ connID, step.Accepts plainConfig connID →
        (plainGateway (some (.new 0))).pipeline.sessions.Has connID ∨
          ∃ bind ∈ earlier, bind.AcceptsBind plainConfig connID := by
  intro _ noDevice history
  have hbinds : history.map (fun step => (step.registryBind? plainConfig).map Except.isOk) =
      [none, some true, none] := by
    decide +kernel
  refine ⟨by decide +kernel, rejected_bind_has_no_effect plainConfig _ _ fun step hstep => ?_⟩
  rintro ⟨err, herr⟩
  have hmem := List.mem_map_of_mem (f := fun step =>
    (step.registryBind? plainConfig).map Except.isOk) hstep
  rw [hbinds, herr] at hmem
  simp [Except.isOk, Except.toBool] at hmem

/-! ## When the registry fails -/

omit [Sha256] in
/-- With a closed registry, a BIND on connection 7 is rejected, and yet the connection is bound
afterwards and its next packet is accepted. A rejected BIND on connection 8 then takes the binding
from connection 7. -/
theorem registry_failure_leaves_session :
    let _ := Sha256.polynomial
    let history := (plainGateway (some (MemoryRegistry.new 0).close)).history plainConfig
      [packetOn 7 msgIDBind, packetOn 7 5000, packetOn 8 msgIDBind]
    history.map (fun step => (step.answer? plainConfig).map fun answer => answer.2.2.code) =
        [some .rejected, some .accepted, some .rejected] ∧
      history.map (fun step => ((step.after.pipeline.sessions.byConnID.get? 7).isSome,
        (step.after.pipeline.sessions.byConnID.get? 8).isSome)) =
        [(true, false), (true, false), (false, true)] := by
  intro _ history
  exact ⟨by decide +kernel, by decide +kernel⟩

end ZCourier.Server
