import ZCourier.Server.Ingress

/-!
# What the pipeline admits

The first four handlers screen a packet: they change neither the sessions nor the registry nor the
packet, and a packet that passes them has a verified principal (`screen_spec`). The session binding
handler then ties the packet to the session of its connection. `pipeline_admits` puts the two
together.
-/

namespace ZCourier.Server

open Go Library Downlink

variable {V Q R : Type}

/-- Go on with a handled packet unless it was refused. -/
def Handled.andThen (handled : Handled V Q R)
    (next : Context → PipelineState V Q R → Handled V Q R) : Handled V Q R :=
  match handled with
  | ⟨some err, ctx, state⟩ => ⟨some err, ctx, state⟩
  | ⟨none, ctx, state⟩ => next ctx state

variable {handled : Handled V Q R}

theorem Handled.andThen_refused {err : PipelineError} (h : handled.refusal = some err)
    (next : Context → PipelineState V Q R → Handled V Q R) : handled.andThen next = handled := by
  obtain ⟨refusal, ctx, state⟩ := handled
  obtain rfl : refusal = some err := h
  rfl

theorem Handled.andThen_passed (h : handled.refusal = none)
    (next : Context → PipelineState V Q R → Handled V Q R) :
    handled.andThen next = next handled.context handled.state := by
  obtain ⟨refusal, ctx, state⟩ := handled
  obtain rfl : refusal = none := h
  rfl

theorem Handled.andThen_done (handled : Handled V Q R) :
    handled.andThen (fun ctx state => ⟨none, ctx, state⟩) = handled := by
  obtain ⟨refusal, ctx, state⟩ := handled
  cases refusal <;> rfl

theorem Handled.andThen_refusal_none {next : Context → PipelineState V Q R → Handled V Q R}
    (h : (handled.andThen next).refusal = none) :
    handled.refusal = none ∧ (next handled.context handled.state).refusal = none := by
  obtain ⟨refusal, ctx, state⟩ := handled
  cases refusal with
  | none => exact ⟨rfl, h⟩
  | some err => cases h

theorem run_chain_cons (handler : Handler V Q R) (rest : List (Handler V Q R)) (env : PipelineEnv)
    (ctx : Context) (state : PipelineState V Q R) :
    runChain (handler :: rest) env ctx state =
      (handler env ctx state).andThen (runChain rest env) := rfl

theorem run_chain_append (front back : List (Handler V Q R)) (env : PipelineEnv) (ctx : Context)
    (state : PipelineState V Q R) :
    runChain (front ++ back) env ctx state =
      (runChain front env ctx state).andThen (runChain back env) := by
  induction front generalizing ctx state with
  | nil => rfl
  | cons handler rest ih =>
    rw [List.cons_append, run_chain_cons, run_chain_cons]
    cases h : (handler env ctx state).refusal with
    | some err => simp only [Handled.andThen_refused h]
    | none => simp only [Handled.andThen_passed h, ih]

/-! ## Screening -/

/-- The handler leaves the sessions, the registry and all of the context but the principal. -/
structure Handled.Screened (ctx : Context) (state : PipelineState V Q R)
    (handled : Handled V Q R) : Prop where
  sessions : handled.state.sessions = state.sessions
  registry : handled.state.registry = state.registry
  context : handled.context = { ctx with principal := handled.context.principal }

variable {env : PipelineEnv} {ctx : Context}
  {state : PipelineState V Q R}

/-- The verifier has verified the packet's token as this principal. -/
def PipelineState.Verifies [Verifier V] (state : PipelineState V Q R) (token : GoString)
    (principal : Principal) : Prop :=
  ∃ verifier, state.verifier = some verifier ∧
    (Verifier.verify verifier token).1 = .ok (some principal) ∧ principal.clientID ≠ []

theorem auth_screens [Verifier V] : (authHandler env ctx state).Screened ctx state := by
  unfold authHandler
  split
  · exact ⟨rfl, rfl, rfl⟩
  · dsimp only
    split
    · exact ⟨rfl, rfl, rfl⟩
    · exact ⟨rfl, rfl, rfl⟩
    · split
      · exact ⟨rfl, rfl, rfl⟩
      · exact ⟨rfl, rfl, rfl⟩

theorem auth_verifies [Verifier V] (h : (authHandler env ctx state).refusal = none) :
    ∃ principal, (authHandler env ctx state).context.principal = some principal ∧
      state.Verifies ctx.packet.token principal := by
  unfold authHandler at h ⊢
  split at h
  · cases h
  · next verifier hverifier =>
    dsimp only at h ⊢
    split at h
    · cases h
    · cases h
    · next principal hverify =>
      split at h
      · cases h
      · next hne =>
        refine ⟨principal, ?_, verifier, hverifier, hverify, hne⟩
        simp only [if_neg hne]

theorem policy_screens (h : PolicyHandler) :
    (policyHandler h env ctx state).Screened ctx state ∧
      (policyHandler h env ctx state).context = ctx :=
  ⟨⟨rfl, rfl, rfl⟩, rfl⟩

theorem rate_limit_screens (h : RateLimitConfig) :
    (rateLimitHandler h env ctx state).Screened ctx state ∧
      (rateLimitHandler h env ctx state).context = ctx := by
  unfold rateLimitHandler
  dsimp only
  split_ifs <;> exact ⟨⟨rfl, rfl, rfl⟩, rfl⟩

theorem traffic_policy_screens [QuotaStore Q] (selector : Option TrafficPolicySelector) :
    (trafficPolicyHandler selector env ctx state).Screened ctx state ∧
      (trafficPolicyHandler selector env ctx state).context = ctx := by
  unfold trafficPolicyHandler
  split
  · exact ⟨⟨rfl, rfl, rfl⟩, rfl⟩
  · split
    · exact ⟨⟨rfl, rfl, rfl⟩, rfl⟩
    · split
      · exact ⟨⟨rfl, rfl, rfl⟩, rfl⟩
      · split
        · exact ⟨⟨rfl, rfl, rfl⟩, rfl⟩
        · dsimp only
          split
          · exact ⟨⟨rfl, rfl, rfl⟩, rfl⟩
          · exact ⟨⟨rfl, rfl, rfl⟩, rfl⟩

/-- The handlers before the session binding. -/
def screeningHandlers [Verifier V] [QuotaStore Q] (config : PipelineConfig) :
    List (Handler V Q R) :=
  [ authHandler,
    policyHandler config.policy,
    rateLimitHandler config.rateLimit,
    trafficPolicyHandler config.trafficPolicies ]

theorem run_pipeline_eq [Verifier V] [QuotaStore Q] [OnlineRegistry R] (config : PipelineConfig)
    (env : PipelineEnv) (ctx : Context) (state : PipelineState V Q R) :
    runChain (newIngressPipeline config) env ctx state =
      (runChain (screeningHandlers config) env ctx state).andThen fun ctx state =>
        (sessionBindHandler config.gatewayNode env ctx state).andThen
          (clusterBindHandler config.gatewayNode config.internalAddr env) := by
  have hsplit : (newIngressPipeline config : List (Handler V Q R)) =
      screeningHandlers config ++ [sessionBindHandler config.gatewayNode,
        clusterBindHandler config.gatewayNode config.internalAddr] := rfl
  rw [hsplit, run_chain_append]
  congr 1
  funext ctx state
  rw [run_chain_cons]
  congr 1
  funext ctx state
  rw [run_chain_cons]
  exact Handled.andThen_done _

/-- Screening goes on with a handler that keeps the context. -/
theorem Handled.Screened.andThen {next : Context → PipelineState V Q R → Handled V Q R}
    (h : handled.Screened ctx state)
    (hnext : ∀ ctx' state', (next ctx' state').Screened ctx' state' ∧
      (next ctx' state').context = ctx') :
    (handled.andThen next).Screened ctx state ∧ (handled.andThen next).context = handled.context :=
  by
  cases hrefusal : handled.refusal with
  | some err =>
    rw [Handled.andThen_refused hrefusal]
    exact ⟨h, rfl⟩
  | none =>
    rw [Handled.andThen_passed hrefusal]
    obtain ⟨hscreened, hcontext⟩ := hnext handled.context handled.state
    refine ⟨⟨hscreened.sessions.trans h.sessions, hscreened.registry.trans h.registry, ?_⟩,
      hcontext⟩
    rw [hcontext]
    exact h.context

theorem run_chain_screens {handlers : List (Handler V Q R)}
    (h : ∀ handler ∈ handlers, ∀ ctx state,
      (handler env ctx state).Screened ctx state ∧ (handler env ctx state).context = ctx) :
    ∀ ctx state, (runChain handlers env ctx state).Screened ctx state ∧
      (runChain handlers env ctx state).context = ctx := by
  induction handlers with
  | nil => exact fun ctx state => ⟨⟨rfl, rfl, rfl⟩, rfl⟩
  | cons handler rest ih =>
    intro ctx state
    obtain ⟨hscreened, hcontext⟩ := h handler (by simp) ctx state
    have hrest := hscreened.andThen (ih fun later hlater => h later (by simp [hlater]))
    exact ⟨hrest.1, hrest.2.trans hcontext⟩

theorem screen_spec [Verifier V] [QuotaStore Q] (config : PipelineConfig) (env : PipelineEnv)
    (ctx : Context) (state : PipelineState V Q R) :
    let handled := runChain (screeningHandlers config) env ctx state
    handled.Screened ctx state ∧
      (handled.refusal = none → ∃ principal, handled.context.principal = some principal ∧
        state.Verifies ctx.packet.token principal) := by
  intro handled
  have hkeep : ∀ handler ∈ ([policyHandler config.policy, rateLimitHandler config.rateLimit,
      trafficPolicyHandler config.trafficPolicies] : List (Handler V Q R)), ∀ ctx state,
      (handler env ctx state).Screened ctx state ∧ (handler env ctx state).context = ctx := by
    intro handler hmem ctx state
    simp only [List.mem_cons, List.not_mem_nil, or_false] at hmem
    rcases hmem with rfl | rfl | rfl
    · exact policy_screens config.policy
    · exact rate_limit_screens config.rateLimit
    · exact traffic_policy_screens config.trafficPolicies
  obtain ⟨hscreened, hcontext⟩ :=
    (auth_screens : (authHandler env ctx state).Screened ctx state).andThen
      (run_chain_screens hkeep)
  refine ⟨hscreened, fun hpassed => ?_⟩
  -- a packet that was refused at once has not passed
  cases hauth : (authHandler env ctx state).refusal with
  | some err =>
    have hrefused : handled = authHandler env ctx state := Handled.andThen_refused hauth _
    rw [hrefused, hauth] at hpassed
    cases hpassed
  | none =>
    obtain ⟨principal, hprincipal, hverifies⟩ := auth_verifies hauth
    exact ⟨principal, (congrArg Context.principal hcontext).trans hprincipal, hverifies⟩

/-! ## Binding -/

/-- The packet carries the ids of the session that is bound on its connection, and the session's
client is the principal's. -/
structure Handled.Admitted (connID : UInt64) (principal : Principal) (session : Session)
    (handled : Handled V Q R) : Prop where
  bound : handled.state.sessions.byConnID.get? connID = some session
  context : handled.context.session = some session
  clientID : handled.context.packet.clientID = session.clientID
  sessionID : handled.context.packet.sessionID = session.sessionID
  principal : session.clientID = principal.clientID

variable {principal : Principal}

theorem handle_bind_admits {gatewayNode : GoString}
    (h : (handleBindPacket gatewayNode principal env ctx state).refusal = none) :
    ∃ session, (handleBindPacket gatewayNode principal env ctx state).Admitted ctx.connID
      principal session := by
  unfold handleBindPacket at h ⊢
  dsimp only at h ⊢
  split at h
  · cases h
  · next result hbind =>
    obtain ⟨hget, hpair, -⟩ := Manager.bind_result hbind
    exact ⟨result.session, hget, rfl, rfl, rfl, (Prod.mk.inj hpair).1⟩

theorem handle_bound_admits (h : (handleBoundPacket principal env ctx state).refusal = none) :
    ∃ session, (handleBoundPacket principal env ctx state).Admitted ctx.connID principal session ∧
      ∃ before, state.sessions.byConnID.get? ctx.connID = some before ∧
        session.pair = before.pair := by
  unfold handleBoundPacket at h ⊢
  dsimp only at h ⊢
  split at h
  · cases h
  · cases h
  · next found htouch =>
    obtain ⟨before, time, hbefore, hfound, hafter⟩ := Manager.touch_found htouch
    split at h
    · cases h
    · next hclient =>
      split at h
      · cases h
      · next hdevice =>
        split at h
        · cases h
        · next hsession =>
          rw [if_neg hclient, if_neg hdevice, if_neg hsession]
          refine ⟨found, ⟨hafter, rfl, rfl, rfl, not_ne_iff.mp hclient⟩, before, hbefore, ?_⟩
          rw [hfound]
          rfl

/-- A packet that passes the session binding handler is tied to the session of its connection. If it
is not a BIND, the session was bound before. -/
theorem session_bind_admits {gatewayNode : GoString} (hprincipal : ctx.principal = some principal)
    (h : (sessionBindHandler gatewayNode env ctx state).refusal = none) :
    ∃ session, (sessionBindHandler gatewayNode env ctx state).Admitted ctx.connID principal
        session ∧
      (ctx.packet.msgID ≠ msgIDBind → ∃ before,
        state.sessions.byConnID.get? ctx.connID = some before ∧ session.pair = before.pair) := by
  unfold sessionBindHandler at h ⊢
  rw [hprincipal] at h ⊢
  dsimp only at h ⊢
  split at h
  · obtain ⟨session, hadmitted, hbefore⟩ := handle_bound_admits h
    rename_i hmsgID
    rw [if_pos hmsgID]
    exact ⟨session, hadmitted, fun _ => hbefore⟩
  · next hmsgID =>
    obtain ⟨session, hadmitted⟩ := handle_bind_admits h
    rw [if_neg hmsgID]
    exact ⟨session, hadmitted, fun hne => absurd hne hmsgID⟩

theorem cluster_bind_keeps [OnlineRegistry R] (gatewayNode internalAddr : GoString)
    (env : PipelineEnv) (ctx : Context) (state : PipelineState V Q R) :
    let handled := clusterBindHandler gatewayNode internalAddr env ctx state
    handled.context = ctx ∧ handled.state.sessions = state.sessions := by
  unfold clusterBindHandler
  split
  · dsimp only
    split <;> exact ⟨rfl, rfl⟩
  · exact ⟨rfl, rfl⟩

theorem Handled.Admitted.cluster_bind [OnlineRegistry R] {connID : UInt64} {session : Session}
    (h : handled.Admitted connID principal session) (gatewayNode internalAddr : GoString)
    (env : PipelineEnv) :
    (clusterBindHandler gatewayNode internalAddr env handled.context handled.state).Admitted
      connID principal session := by
  obtain ⟨hcontext, hsessions⟩ :=
    cluster_bind_keeps gatewayNode internalAddr env handled.context handled.state
  refine ⟨?_, ?_, ?_, ?_, h.principal⟩
  · rw [hsessions, h.bound]
  · rw [hcontext, h.context]
  · rw [hcontext, h.clientID]
  · rw [hcontext, h.sessionID]

theorem ingress_context_some {routing : Routing} {request : Request} {packet : Packet}
    (h : ingressContext routing request packet = some ctx) :
    ctx.connID = request.connID ∧ ctx.packet = packet := by
  unfold ingressContext at h
  dsimp only at h
  split at h
  · cases routing with
    | upstream configured =>
      obtain rfl := Option.some.inj h
      exact ⟨rfl, rfl⟩
    | unavailable => cases h
    | generation routes =>
      obtain rfl := Option.some.inj h
      exact ⟨rfl, rfl⟩
  · obtain rfl := Option.some.inj h
    exact ⟨rfl, rfl⟩

/-- A packet that passes the pipeline has a verified principal and is tied to the session of its
connection, which was bound before if the packet is not a BIND. -/
theorem pipeline_admits [Verifier V] [QuotaStore Q] [OnlineRegistry R] {config : PipelineConfig}
    (h : (runChain (newIngressPipeline config) env ctx state).refusal = none) :
    ∃ principal session, state.Verifies ctx.packet.token principal ∧
      (runChain (newIngressPipeline config) env ctx state).Admitted ctx.connID principal session ∧
      (ctx.packet.msgID ≠ msgIDBind → ∃ before,
        state.sessions.byConnID.get? ctx.connID = some before ∧ session.pair = before.pair) := by
  rw [run_pipeline_eq] at h ⊢
  obtain ⟨hpassed, hbind⟩ := Handled.andThen_refusal_none h
  obtain ⟨hbound, -⟩ := Handled.andThen_refusal_none hbind
  rw [Handled.andThen_passed hpassed, Handled.andThen_passed hbound]
  obtain ⟨hscreened, hverified⟩ := screen_spec config env ctx state
  obtain ⟨principal, hprincipal, hverifies⟩ := hverified hpassed
  obtain ⟨session, hadmitted, hbefore⟩ := session_bind_admits hprincipal hbound
  -- the screening handlers have left the connection, the packet and the sessions as they were
  rw [hscreened.sessions, hscreened.context] at hbefore
  rw [congrArg Context.connID hscreened.context] at hadmitted
  exact ⟨principal, session, hverifies, hadmitted.cluster_bind _ _ env, hbefore⟩

end ZCourier.Server
