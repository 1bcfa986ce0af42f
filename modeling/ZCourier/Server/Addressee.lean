import ZCourier.Downlink.Attempts
import ZCourier.Server.Gateway

/-!
# Who confirms a delivery

A message becomes delivered by a store call that names its client and device, and only `Ack` makes
such calls (`Started.Makes.delivers`). The router makes them for the session that the pipeline has
tied to the packet; so `only_addressee_confirms`.
-/

namespace ZCourier.Downlink

open Go Library

variable [Sha256] {s : MemoryStore} {env : StoreEnv}

theorem MessageEdit.delivered_inv {call : StoreCall} {message message' : Message}
    (h : MessageEdit env s call message message') (hdelivered : message'.status = .delivered) :
    message.status = .delivered ∨
      ∃ clientID deviceID deliveredAt,
        call = .markDelivered message.messageID clientID deviceID deliveredAt := by
  cases h with
  | delivered => exact .inr ⟨_, _, _, rfl⟩
  | sent | attemptFailed | requeued => cases hdelivered
  | failed | discarded =>
    rw [MemoryStore.terminalMessage_status] at hdelivered
    cases hdelivered
  | refreshed | claimed | published | publishFailed => exact .inl hdelivered

omit [Sha256] in
theorem MemoryStore.mark_delivered_addressed {messageID clientID deviceID id : GoString}
    {deliveredAt : Int} {message : Message}
    (h : (s.markDelivered env messageID clientID deviceID deliveredAt).2.messages.get? id =
      some message) :
    s.messages.get? id = some message ∨
      message.clientID = clientID ∧ message.deviceID = deviceID := by
  rcases modifyMessage_cases s env messageID (fun message =>
      if message.clientID ≠ clientID || message.deviceID ≠ deviceID then .error .messageNotFound
      else .ok (s.putMessage (message.delivered (env.orClock deliveredAt)))) with
    hsame | ⟨stored, hstored, hedit⟩
  · unfold MemoryStore.markDelivered at h
    rw [hsame] at h
    exact .inl h
  · split_ifs at hedit with haddressed
    simp only [Bool.or_eq_true, decide_eq_true_eq, not_or, not_not] at haddressed
    unfold MemoryStore.markDelivered at h
    rw [← Except.ok.inj hedit, MemoryStore.get?_putMessage] at h
    split at h
    · obtain rfl := Option.some.inj h
      exact .inr haddressed
    · exact .inl h

/-- A message becomes delivered only through an `Ack` for its client and device. -/
theorem Started.Makes.delivers {started : Started} {call : StoreCall} (hmakes : started.Makes call)
    {id : GoString} {message : Message}
    (h : (s.call env call).2.messages.get? id = some message)
    (hdelivered : message.status = .delivered) :
    (∃ before, s.messages.get? id = some before ∧ before.status = .delivered ∧
        before.identity = message.identity) ∨
      ∃ req, started.operation = .ack message.clientID message.deviceID req := by
  have hstep : StoreStep env s call (s.call env call).2 := MemoryStore.call_step call
  have hslot := hstep.slot id
  rw [h] at hslot
  generalize hbefore : s.messages.get? id = before at hslot
  generalize hafter : some message = after at hslot
  cases hslot with
  | same =>
    exact .inl ⟨message, hafter.symm, hdelivered, rfl⟩
  | created =>
    obtain rfl := Option.some.inj hafter
    obtain ⟨req, messageID, now, -, -, rfl, -⟩ := hmakes
    simp [MemoryStore.prepareMessage,
      (started.service.submittedMessage_new req messageID now).2] at hdelivered
  | @edited call old new hid hedit =>
    obtain rfl := Option.some.inj hafter
    rcases hedit.delivered_inv hdelivered with hold | ⟨clientID, deviceID, deliveredAt, rfl⟩
    · exact .inl ⟨old, rfl, hold, (Message.Origin.identity_eq hedit.origin_eq).symm⟩
    · obtain ⟨req, hop, -⟩ := hmakes
      rcases MemoryStore.mark_delivered_addressed h with hsame | ⟨rfl, rfl⟩
      · rw [hbefore] at hsame
        exact .inl ⟨message, hsame, hdelivered, rfl⟩
      · exact .inr ⟨req, hop⟩
  | removed => cases hafter

theorem ack_eval_addressed (svc : Service) (clientID deviceID : GoString) (req : ClientAckRequest)
    (inputs : Nat → Surroundings) (world : World) {id : GoString} {message : Message}
    (h : ((svc.ack clientID deviceID req).eval perform inputs world).2.store.messages.get? id =
      some message)
    (hdelivered : message.status = .delivered) :
    (∃ before, world.store.messages.get? id = some before ∧ before.status = .delivered) ∨
      message.clientID = clientID ∧ message.deviceID = deviceID := by
  -- what is delivered now was delivered at the start or is for the device
  let inv (current : World) : Prop := ∀ id message,
    current.store.messages.get? id = some message → message.status = .delivered →
      (∃ before, world.store.messages.get? id = some before ∧ before.status = .delivered) ∨
        message.clientID = clientID ∧ message.deviceID = deviceID
  let spec : EffectSpec Effect Effect.Response World :=
    { pre := fun _ _ => True
      step := fun effect before response after =>
        ∃ input, perform effect input before = (response, after) }
  have hperforms := svc.ack_performs clientID deviceID req
  have hmeets : (svc.ack clientID deviceID req).Meets spec (fun _ => inv) world := by
    refine hperforms.keeps (fun {effect current} heffect hinv => ⟨trivial, ?_⟩)
      fun id message hget hstatus => .inl ⟨message, hget, hstatus⟩
    rintro response after ⟨input, hperform⟩
    obtain rfl : (perform effect input current).2 = after := congrArg Prod.snd hperform
    cases effect with
    | store call =>
      intro id message hget hstatus
      rcases Started.Makes.delivers heffect hget hstatus with
        ⟨before, hbefore, hold, hidentity⟩ | ⟨_, hop⟩
      · refine (hinv id before hbefore hold).imp_right fun haddressed => ?_
        exact ⟨(congrArg Identity.clientID hidentity).symm.trans haddressed.1,
          (congrArg Identity.deviceID hidentity).symm.trans haddressed.2⟩
      · obtain ⟨rfl, rfl, -⟩ := Operation.ack.inj hop
        exact .inr ⟨rfl, rfl⟩
    | now | ctxErr | newMessageID | jitter | deliverOnline | publish | retryMessage => exact hinv
  exact hmeets.eval (fun _ input _ => ⟨input, rfl⟩) inputs id message h hdelivered

end ZCourier.Downlink

namespace ZCourier.Server

open Go Library Downlink

variable {V Q R : Type}

/-- The step makes the message under an id delivered. -/
def GatewayStep.Delivers (step : GatewayStep V Q R) (id : GoString) (message : Message) : Prop :=
  step.after.world.store.messages.get? id = some message ∧ message.status = .delivered ∧
    ∀ before, step.before.world.store.messages.get? id = some before → before.status ≠ .delivered

variable [Verifier V] [QuotaStore Q] [OnlineRegistry R] [Sha256]

/-- The step handles a downlink ACK of the message's addressee: the token is verified as a principal
that is the message's client, and the connection is bound to the message's client and device, when
the packet arrives and after it has been handled. -/
def GatewayStep.Addressed (step : GatewayStep V Q R) (message : Message) : Prop :=
  ∃ request env packet principal, step.event = .packet request env ∧
    request.packet = some packet ∧ packet.msgID = msgIDDownlinkAck ∧
    step.before.pipeline.Verifies packet.token principal ∧
    principal.clientID = message.clientID ∧
    ∀ state ∈ [step.before, step.after], ∃ session,
      state.pipeline.sessions.byConnID.get? request.connID = some session ∧
        session.pair = (message.clientID, message.deviceID)

omit [Verifier V] [QuotaStore Q] [OnlineRegistry R] in
theorem handle_ack_addressed {config : IngressConfig} {env : IngressEnv} {ctx : Context}
    {state : GatewayState V Q R} {session : Session} (hsession : ctx.session = some session) :
    ∀ id message,
      (handleDownlinkAck config env ctx state).state.world.store.messages.get? id = some message →
      message.status = .delivered →
      (∃ before, state.world.store.messages.get? id = some before ∧ before.status = .delivered) ∨
        session.pair = (message.clientID, message.deviceID) := by
  have hcontext : contextSession ctx = some session := by rw [contextSession, hsession]
  have hsame : ∀ id message, state.world.store.messages.get? id = some message →
      message.status = .delivered →
      (∃ before, state.world.store.messages.get? id = some before ∧
        before.status = .delivered) ∨
      session.pair = (message.clientID, message.deviceID) :=
    fun _ message hget hdelivered => .inl ⟨message, hget, hdelivered⟩
  unfold handleDownlinkAck
  rw [hcontext]
  dsimp only
  split
  · exact hsame
  · next svc _ =>
    split
    · exact hsame
    · next ack _ =>
      -- the client and device come from the session, whatever the body says
      have haddressed (id : GoString) (message : Message) :=
        @ack_eval_addressed _ svc session.clientID session.deviceID
          (if ack.messageID = [] then { ack with messageID := ctx.packet.messageID } else ack)
          env.effects state.world id message
      intro id message hget hdelivered
      refine (haddressed id message ?_ hdelivered).imp_right fun hpair => ?_
      · split at hget <;> exact hget
      · rw [hpair.1, hpair.2]
        rfl

theorem handle_ingress_addressed {config : IngressConfig} {env : IngressEnv} {request : Request}
    {state : GatewayState V Q R} {id : GoString} {message : Message}
    (h : (⟨state, .packet request env, (handleIngress config env request state).state⟩ :
      GatewayStep V Q R).Delivers id message) :
    (⟨state, .packet request env, (handleIngress config env request state).state⟩ :
      GatewayStep V Q R).Addressed message := by
  have hhandling := handle_ingress_handling config env request state
  generalize handleIngress config env request state = outcome at h hhandling
  obtain ⟨hget, hdelivered, hbefore⟩ := h
  cases hhandling with
  | undecoded | noRoute | refused | bound => exact absurd hdelivered (hbefore message hget)
  | forwarded =>
    dsimp only at hget
    rw [forward_upstream_state] at hget
    exact absurd hdelivered (hbefore message hget)
  | @acknowledged packet ctx hpacket hctx hpassed hack =>
    obtain ⟨hconnID, hctxPacket⟩ := ingress_context_some hctx
    obtain ⟨principal, session, hverifies, hadmitted, hbound⟩ := pipeline_admits hpassed
    rw [hctxPacket] at hverifies hbound
    rw [hconnID] at hadmitted hbound
    rcases handle_ack_addressed hadmitted.context id message hget hdelivered with
      ⟨old, hold, hstatus⟩ | hpair
    · exact absurd hstatus (hbefore old hold)
    · have hnotBind : packet.msgID ≠ msgIDBind := by
        rw [hack]
        decide
      obtain ⟨first, hfirst, hsame⟩ := hbound hnotBind
      have hclient : principal.clientID = message.clientID :=
        hadmitted.principal.symm.trans (congrArg Prod.fst hpair)
      refine ⟨request, env, packet, principal, rfl, hpacket, hack, hverifies, hclient, ?_⟩
      intro current hcurrent
      rcases List.mem_pair.mp hcurrent with rfl | rfl
      · exact ⟨first, hfirst, hsame.symm.trans hpair⟩
      · refine ⟨session, ?_, hpair⟩
        dsimp only
        rw [handle_ack_pipeline]
        exact hadmitted.bound

/-- Only the addressee can confirm a delivery: in every run of the gateway, a message becomes
delivered only while a downlink ACK of its addressee is handled. -/
theorem only_addressee_confirms (config : IngressConfig) (start : GatewayState V Q R)
    (events : List (GatewayEvent V Q R)) (hevents : ∀ event ∈ events, event.Possible) :
    ∀ step ∈ start.history config events, ∀ id message,
      step.Delivers id message → step.Addressed message := by
  intro step hstep id message hdelivers
  obtain ⟨hevent, hafter⟩ := GatewayState.mem_history hstep
  obtain ⟨before, event, after⟩ := step
  obtain rfl : after = before.next config event := hafter
  cases event with
  | packet request env => exact handle_ingress_addressed hdelivers
  | stop connID env =>
    obtain ⟨hget, hdelivered, hbefore⟩ := hdelivers
    rw [GatewayState.next, (on_conn_stop_state env connID before).1] at hget
    exact absurd hdelivered (hbefore message hget)
  | unbind | surroundings =>
    obtain ⟨hget, hdelivered, hbefore⟩ := hdelivers
    exact absurd hdelivered (hbefore message hget)
  | store started call env =>
    obtain ⟨hmakes, hack⟩ := hevents _ hevent
    obtain ⟨hget, hdelivered, hbefore⟩ := hdelivers
    rcases hmakes.delivers hget hdelivered with ⟨old, hold, hstatus, -⟩ | ⟨req, hop⟩
    · exact absurd hstatus (hbefore old hold)
    · exact absurd hop (hack _ _ _)

omit [Sha256] in
/-- The device's ACK on the connection it has bound makes the message delivered. -/
theorem only_addressee_confirms_bound :
    ∃ step ∈ @GatewayState.history _ _ _ _ _ _ Sha256.polynomial plainConfig (plainGateway none)
        [packetOn 7 msgIDBind, packetOn 7 msgIDDownlinkAck],
      ∃ message, step.Delivers (ascii "m") message ∧ step.Addressed message := by
  let _ := Sha256.polynomial
  let middle := (plainGateway none).next plainConfig (packetOn 7 msgIDBind)
  let acked : GatewayStep StaticTokenVerifier LocalQuotaStore MemoryRegistry :=
    ⟨middle, packetOn 7 msgIDDownlinkAck, middle.next plainConfig (packetOn 7 msgIDDownlinkAck)⟩
  have hmem : acked ∈ (plainGateway none).history plainConfig
      [packetOn 7 msgIDBind, packetOn 7 msgIDDownlinkAck] :=
    List.mem_cons_of_mem _ List.mem_cons_self
  have hafter : (acked.after.world.store.messages.get? (ascii "m")).map Message.status =
      some .delivered := by decide +kernel
  have hbefore : (acked.before.world.store.messages.get? (ascii "m")).map Message.status =
      some .pending := by decide +kernel
  obtain ⟨message, hget, hstatus⟩ := Option.map_eq_some_iff.mp hafter
  have hdelivers : acked.Delivers (ascii "m") message := by
    refine ⟨hget, hstatus, fun old hold => ?_⟩
    rw [hold] at hbefore
    rw [Option.some.inj hbefore]
    decide
  refine ⟨acked, hmem, message, hdelivers, ?_⟩
  refine only_addressee_confirms plainConfig (plainGateway none) _ ?_ acked hmem _ message hdelivers
  intro event hevent
  rcases List.mem_pair.mp hevent with rfl | rfl
  · trivial
  · trivial

end ZCourier.Server
