import ZCourier.Downlink.Calls

/-!
# Accounts of delivery attempts

A `Tally` is what a trace says about one message: the delivery attempts recorded and the calls of
`retryMessage` completed since the message was created or last requeued. `Accounts` says that
every stored message agrees with its tally. Operations that do not deliver keep it
(`Accounts.perform`); the three calls that record an outcome are treated one by one.
-/

namespace ZCourier.Downlink

open Go Library

/-- The events of an execution, in order. -/
abbrev Trace := List (Event Effect Effect.Response)

/-- What a trace says about one message since it was created or last requeued. -/
structure Tally where
  /-- a delivery was attempted whose outcome is not recorded yet -/
  attempted : Bool
  /-- a call of `retryMessage` has begun -/
  retrying : Bool
  /-- recorded delivery attempts -/
  recorded : Nat
  /-- calls of `retryMessage` that recorded their outcome -/
  retried : Nat
  /-- the message was acknowledged or discarded -/
  closed : Bool

namespace Tally

/-- The tally of a new or requeued message. -/
def start : Tally := ⟨false, false, 0, 0, false⟩

/-- An outcome is reported; only a successful report counts. -/
def marked (tally : Tally) (ok : Bool) : Tally :=
  { tally with
    attempted := false
    retrying := false
    recorded := if ok && tally.attempted then tally.recorded + 1 else tally.recorded
    retried := if ok && tally.retrying then tally.retried + 1 else tally.retried }

/-- Take one event into account. -/
def next (id : GoString) (tally : Tally) : Event Effect Effect.Response → Tally
  | ⟨.retryMessage message, _⟩ =>
    if message.messageID = id then { tally with attempted := false, retrying := true } else tally
  | ⟨.deliverOnline req, _⟩ =>
    if req.messageID = id then { tally with attempted := true } else tally
  | ⟨.store (.saveWithCapacity _ _), .ok ⟨message, .created⟩⟩ =>
    if message.messageID = id then start else tally
  | ⟨.store (.requeueWithCapacity messageID _ _), .ok ()⟩ =>
    if messageID = id then start else tally
  | ⟨.store (.markSent messageID _ _ _), response⟩ =>
    if messageID = id then tally.marked response.isOk else tally
  | ⟨.store (.markAttemptFailed messageID _ _), response⟩ =>
    if messageID = id then tally.marked response.isOk else tally
  | ⟨.store (.markFailed messageID _), response⟩ =>
    if messageID = id then tally.marked response.isOk else tally
  | ⟨.store (.markDelivered messageID _ _ _), _⟩ =>
    if messageID = id then { tally with closed := true } else tally
  | ⟨.store (.discard messageID _ _), _⟩ =>
    if messageID = id then { tally with closed := true } else tally
  | _ => tally

end Tally

/-- The tally of a message in a trace. -/
def tally (id : GoString) (trace : Trace) : Tally :=
  trace.foldl (Tally.next id) .start

@[simp] theorem tally_concat (id : GoString) (trace : Trace)
    (event : Event Effect Effect.Response) :
    tally id (trace ++ [event]) = (tally id trace).next id event := by
  simp [tally]

/-- The message waits for a delivery or for its acknowledgement. -/
def Message.Open (message : Message) : Prop :=
  message.status = .pending ∨ message.status = .sent ∧ message.ackRequired = true

/-- A stored message and its tally agree, and the message obeys its policy. -/
structure Accounted (message : Message) (tally : Tally) : Prop where
  policy : validateDeliveryPolicy message.policy = none
  created : message.createdAt ≠ 0
  recorded : message.attempts = tally.recorded
  bounded : (message.attempts : Int) ≤ message.policy.maxAttempts
  awaiting : message.status = .sent → message.ackRequired = true → message.nextRetryAt ≠ 0
  retried : message.Open → tally.retried ≤ message.attempts
  live : tally.closed = false →
    message.status = .pending ∨ message.status = .sent ∨ message.status = .failed

def MemoryStore.Agrees (s : MemoryStore) (trace : Trace) : Prop :=
  ∀ id message, s.messages.get? id = some message → Accounted message (tally id trace)

/-- The store agrees with the trace, at a time that is not the zero time. -/
def Accounts (s : World × Trace) : Prop :=
  0 < s.1.clock ∧ s.1.store.Agrees s.2

/-- Services whose policies come from a set that was accepted. -/
def Started.Accepted (started : Started) : Prop :=
  ∃ policies, started.service.deliveryPolicies = some policies ∧ policies.Accepted

/-- The clock does not go back. -/
def forward (input : Surroundings) (world : World) : Prop :=
  world.clock ≤ input.clock

variable [Sha256]

theorem meets_perform_alone {α : Type} {pre : Effect → World × Trace → Prop} {effect : Effect}
    {next : effect.Response → Code α} {post : α → World × Trace → Prop} {s : World × Trace}
    (hpre : pre effect s)
    (hnext : ∀ input, s.1.clock ≤ input.clock → (next (perform effect input s.1).1).Meets
      (courier.alone forward pre) post
      ((perform effect input s.1).2, s.2 ++ [⟨effect, (perform effect input s.1).1⟩])) :
    (Prog.perform effect next).Meets (courier.alone forward pre) post s := by
  refine ⟨hpre, ?_⟩
  rintro response ⟨world, trace⟩ ⟨⟨input, hforward, hexec⟩, htrace⟩
  obtain ⟨rfl, rfl⟩ := Prod.mk.inj (Option.some.inj hexec)
  obtain rfl : trace = s.2 ++ [⟨effect, (perform effect input s.1).1⟩] := htrace
  exact hnext input hforward

/-! ## Calls that record no outcome -/

namespace Accounted

variable {message : Message} {t : Tally}

omit [Sha256] in
theorem close (h : Accounted message t) : Accounted message { t with closed := true } :=
  ⟨h.policy, h.created, h.recorded, h.bounded, h.awaiting, h.retried, fun h => nomatch h⟩

omit [Sha256] in
/-- A message in a final status needs no deadline and no due retries. -/
theorem ended (h : Accounted message t) {message' : Message} {t' : Tally}
    (horigin : message'.policy = message.policy ∧ message'.createdAt = message.createdAt)
    (hattempts : message'.attempts = t'.recorded)
    (hbounded : (message'.attempts : Int) ≤ message.policy.maxAttempts)
    (hfinal : message'.status ≠ .pending ∧ message'.status ≠ .sent)
    (hlive : t'.closed = false → message'.status = .failed) : Accounted message' t' where
  policy := horigin.1 ▸ h.policy
  created := horigin.2 ▸ h.created
  recorded := hattempts
  bounded := horigin.1 ▸ hbounded
  awaiting hsent := absurd hsent hfinal.2
  retried hopen := by
    rcases hopen with hpending | ⟨hsent, -⟩
    · exact absurd hpending hfinal.1
    · exact absurd hsent hfinal.2
  live hclosed := .inr (.inr (hlive hclosed))

end Accounted

/-- The calls that neither create nor requeue a message nor record an outcome. -/
def StoreCall.Plain : StoreCall → Prop
  | .saveWithCapacity .. | .requeueWithCapacity .. | .markSent .. | .markAttemptFailed ..
  | .markFailed .. => False
  | _ => True

omit [Sha256] in
/-- The events of plain calls at most close a tally. -/
theorem Accounted.plain {message : Message} {t : Tally} {id : GoString} {call : StoreCall}
    {response : Except StoreError call.Value} (h : Accounted message t) (hplain : call.Plain) :
    Accounted message (t.next id ⟨.store call, response⟩) := by
  cases call with
  | saveWithCapacity | requeueWithCapacity | markSent | markAttemptFailed | markFailed =>
    exact hplain.elim
  | markDelivered | discard =>
    simp only [Tally.next]
    split
    · exact h.close
    · exact h
  | get | listDueRetry | listDueRetryFair | claimDueRetryFair | listPendingByClientDevice
  | claimDueTerminal | markTerminalPublished | markTerminalPublishFailed | deleteExpired =>
    exact h

theorem SlotStep.accounted {env : StoreEnv} {s : MemoryStore} {id : GoString} {call : StoreCall}
    {slot : Option Message} {message' : Message} {t : Tally}
    {response : Except StoreError call.Value} (h : SlotStep env s id call slot (some message'))
    (hplain : call.Plain) (hslot : ∀ message, slot = some message → Accounted message t) :
    Accounted message' (t.next id ⟨.store call, response⟩) := by
  cases h with
  | same => exact (hslot message' rfl).plain hplain
  | created => exact hplain.elim
  | @edited _ message _ hid hedit =>
    have hbefore := hslot message rfl
    cases hedit with
    | refreshed | sent | attemptFailed | failed | requeued => exact hplain.elim
    | claimed | published | publishFailed =>
      exact ⟨hbefore.policy, hbefore.created, hbefore.recorded, hbefore.bounded,
        hbefore.awaiting, hbefore.retried, hbefore.live⟩
    | delivered =>
      simp only [Tally.next, if_pos hid]
      exact hbefore.ended ⟨rfl, rfl⟩ hbefore.recorded hbefore.bounded (by simp) (by simp)
    | discarded =>
      simp only [Tally.next, if_pos hid]
      refine hbefore.ended ⟨?_, ?_⟩ ?_ ?_ ?_ (by simp)
      · exact Message.Origin.policy_eq MemoryStore.terminalMessage_origin
      · exact congrArg Message.Origin.createdAt MemoryStore.terminalMessage_origin
      · rw [MemoryStore.terminalMessage_attempts]
        exact hbefore.recorded
      · rw [MemoryStore.terminalMessage_attempts]
        exact hbefore.bounded
      · simp

/-! ## Operations that do not deliver -/

/-- The effects that record the outcome of an attempt. -/
def Effect.marks : Effect → Bool
  | .store (.markSent ..) | .store (.markAttemptFailed ..) | .store (.markFailed ..) => true
  | _ => false

omit [Sha256] in
theorem accounted_start {message : Message} (hpolicy : validateDeliveryPolicy message.policy = none)
    (hcreated : message.createdAt ≠ 0) (hattempts : message.attempts = 0)
    (hpending : message.status = .pending) : Accounted message .start where
  policy := hpolicy
  created := hcreated
  recorded := hattempts
  bounded := by
    have hmax := (validate_delivery_policy_sound hpolicy).maxAttempts_pos
    simp only [hattempts]
    omega
  awaiting hsent := by simp [hpending] at hsent
  retried _ := Nat.zero_le _
  live _ := .inl hpending

omit [Sha256] in
/-- An accepted service gives every message a valid policy. -/
theorem Started.Accepted.submitted {started : Started} (h : started.Accepted) (req : PushRequest)
    (messageID : GoString) (now : Int) :
    validateDeliveryPolicy (started.service.submittedMessage req messageID now).policy = none := by
  obtain ⟨policies, hpolicies, haccepted⟩ := h
  have hpolicy : (started.service.submittedMessage req messageID now).policy =
      started.service.deliveryPolicy req.msgID := by
    unfold Service.submittedMessage
    dsimp only
    split <;> rfl
  rw [hpolicy, Service.deliveryPolicy, hpolicies]
  exact haccepted.resolve_valid req.msgID

omit [Sha256] in
theorem Service.submittedMessage_new (svc : Service) (req : PushRequest) (messageID : GoString)
    (now : Int) :
    (svc.submittedMessage req messageID now).attempts = 0 ∧
      (svc.submittedMessage req messageID now).status = .pending := by
  unfold Service.submittedMessage
  dsimp only
  split <;> exact ⟨rfl, rfl⟩

theorem Started.Accepted.prepared {started : Started} (h : started.Accepted) {req : PushRequest}
    {messageID : GoString} {now : Int} {env : StoreEnv} (hclock : 0 < env.clock) :
    Accounted (MemoryStore.prepareMessage (started.service.submittedMessage req messageID now) env)
      .start := by
  have hfields := started.service.submittedMessage_new req messageID now
  refine accounted_start (h.submitted req messageID now) ?_ hfields.1 ?_
  · simp only [MemoryStore.prepareMessage, StoreEnv.orClock]
    split
    · exact hclock.ne'
    · next hzero => simpa using hzero
  · simp [MemoryStore.prepareMessage, hfields.2]

namespace MemoryStore.Agrees

variable {s s' : MemoryStore} {trace : Trace} {env : StoreEnv}

omit [Sha256] in
theorem put {trace' : Trace} {message : Message} (h : s.Agrees trace)
    (hmessages : s'.messages = s.messages.put message)
    (hmessage : Accounted message (tally message.messageID trace'))
    (hother : ∀ id, id ≠ message.messageID → tally id trace' = tally id trace) :
    s'.Agrees trace' := by
  intro id stored hget
  rw [hmessages, Table.get?_put] at hget
  split at hget
  · next hid =>
    obtain rfl := Option.some.inj hget
    exact hid ▸ hmessage
  · next hid => exact hother id hid ▸ h id stored hget

/-- A save keeps the agreement if the submitted message can be new. -/
theorem save {message : Message} {capacity : QueueCapacity} {result : Except StoreError SaveResult}
    (hsaved : Saved env s message capacity result s') (h : s.Agrees trace)
    (hnew : Accounted (MemoryStore.prepareMessage message env) .start) :
    s'.Agrees (trace ++ [⟨.store (.saveWithCapacity message capacity), result⟩]) := by
  cases hsaved with
  | context | refused =>
    intro id stored hget
    rw [tally_concat]
    exact h id stored hget
  | @existing stored _ hstored =>
    have htally : ∀ id, tally id (trace ++ [⟨.store (.saveWithCapacity message capacity),
        .ok ⟨stored.fingerprinted, if messagesHaveSameIdentity stored.fingerprinted
          (MemoryStore.prepareMessage message env) then .existing else .conflict⟩⟩]) =
        tally id trace := by
      intro id
      rw [tally_concat]
      split <;> rfl
    split
    · intro id message hget
      rw [htally]
      exact h id message hget
    · next hstale =>
      have hkey : stored.fingerprinted.messageID = stored.messageID := by
        simp [Message.fingerprinted, hstale]
      have hbefore := h _ stored hstored
      rw [← show stored.messageID = _ from Table.key_of_get? hstored] at hbefore
      refine h.put rfl ?_ fun id _ => htally id
      rw [htally, hkey, Message.fingerprinted, if_neg hstale]
      exact ⟨hbefore.policy, hbefore.created, hbefore.recorded, hbefore.bounded,
        hbefore.awaiting, hbefore.retried, hbefore.live⟩
  | created _ hget =>
    refine h.put rfl ?_ fun id hid => ?_
    · rw [tally_concat]
      simpa [Tally.next] using hnew
    · rw [tally_concat]
      exact if_neg fun heq => hid heq.symm

omit [Sha256] in
/-- A requeue keeps the agreement: message and tally start again. -/
theorem requeue {messageID : GoString} {requeuedAt : Int} {capacity : QueueCapacity}
    {result : Except StoreError Unit}
    (hrequeued : Requeued env s messageID requeuedAt capacity result s') (h : s.Agrees trace) :
    s'.Agrees (trace ++ [⟨.store (.requeueWithCapacity messageID requeuedAt capacity), result⟩]) :=
    by
  cases hrequeued with
  | context | notFound | refused =>
    intro id stored hget
    rw [tally_concat]
    exact h id stored hget
  | @requeued message _ hget =>
    have hbefore := h _ message hget
    have hkey : message.messageID = messageID := Table.key_of_get? hget
    refine h.put rfl ?_ fun id hid => ?_
    · have htally : tally message.messageID (trace ++ [⟨.store (.requeueWithCapacity messageID
          requeuedAt capacity), .ok ()⟩]) = .start := by
        rw [tally_concat]
        exact if_pos hkey.symm
      exact htally ▸ accounted_start hbefore.policy hbefore.created rfl rfl
    · rw [tally_concat]
      exact if_neg fun heq => hid (heq.symm.trans hkey.symm)

theorem plain {call : StoreCall} {response : Except StoreError call.Value}
    (hstep : StoreStep env s call s') (hplain : call.Plain) (h : s.Agrees trace) :
    s'.Agrees (trace ++ [⟨.store call, response⟩]) := by
  intro id message hget
  rw [tally_concat]
  have hslot := hstep.slot id
  rw [hget] at hslot
  exact hslot.accounted hplain fun stored hstored => h id stored hstored

omit [Sha256] in
/-- Effects other than store calls keep the agreement. -/
theorem effect {effect : Effect} {response : effect.Response} (h : s.Agrees trace)
    (hstore : ∀ call, effect ≠ .store call) : s.Agrees (trace ++ [⟨effect, response⟩]) := by
  intro id message hget
  rw [tally_concat]
  have hbefore := h id message hget
  cases effect with
  | store call => exact absurd rfl (hstore call)
  | now | ctxErr | newMessageID | jitter | publish => exact hbefore
  | deliverOnline | retryMessage =>
    simp only [Tally.next]
    split
    · exact ⟨hbefore.policy, hbefore.created, hbefore.recorded, hbefore.bounded,
        hbefore.awaiting, hbefore.retried, hbefore.live⟩
    · exact hbefore

end MemoryStore.Agrees

/-- An effect of an accepted operation that records no outcome keeps the accounts. -/
theorem Accounts.perform {started : Started} {effect : Effect} {s : World × Trace}
    {input : Surroundings} (haccepted : started.Accepted) (hperforms : started.Performs effect)
    (hmarks : effect.marks = false) (h : Accounts s) (hforward : s.1.clock ≤ input.clock) :
    Accounts ((Downlink.perform effect input s.1).2,
      s.2 ++ [⟨effect, (Downlink.perform effect input s.1).1⟩]) := by
  have hclock : 0 < input.clock := lt_of_lt_of_le h.1 hforward
  refine ⟨by simpa using hclock, ?_⟩
  cases effect with
  | now | ctxErr | newMessageID | jitter | publish | deliverOnline | retryMessage =>
    exact h.2.effect (by simp)
  | store call =>
    cases call with
    | saveWithCapacity message capacity =>
      obtain ⟨req, messageID, now, -, -, rfl, -⟩ := hperforms
      exact h.2.save (MemoryStore.saveWithCapacity_saved ..) (haccepted.prepared hclock)
    | requeueWithCapacity messageID requeuedAt capacity =>
      exact h.2.requeue (MemoryStore.requeueWithCapacity_requeued ..)
    | markSent | markAttemptFailed | markFailed => cases hmarks
    | get | listDueRetry | listDueRetryFair | claimDueRetryFair | listPendingByClientDevice
    | markDelivered | discard | claimDueTerminal | markTerminalPublished
    | markTerminalPublishFailed | deleteExpired =>
      exact h.2.plain (MemoryStore.call_step _) trivial

end ZCourier.Downlink
