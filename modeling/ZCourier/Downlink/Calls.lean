import ZCourier.Downlink.System

/-!
# The store calls of the service

`Service.Makes` says which store calls, with which arguments, a service makes, and
`run_performs` that its operations make no others. `store_invariant` is the resulting
rule: a property of the store that these calls keep holds in every interleaving.
-/

namespace ZCourier.Downlink

open Go Library

def Operation.delivers : Operation → Bool
  | .push _ | .retryDue _ | .flushClientDevice .. => true
  | _ => false

/-- The store calls an operation makes, as far as their arguments are restricted. -/
def Started.Makes (started : Started) : StoreCall → Prop
  | .saveWithCapacity message capacity => ∃ req messageID now,
      started.operation = .push req ∧ (req.messageID ≠ [] → messageID = req.messageID) ∧
        message = started.service.submittedMessage req messageID now ∧
        capacity = started.service.admission
  | .claimDueRetryFair _ _ _ _ owner _ => owner ≠ [] ∧ ∃ limit, started.operation = .retryDue limit
  | .markDelivered messageID clientID deviceID _ => ∃ req,
      started.operation = .ack clientID deviceID req ∧ req.messageID = messageID
  | .markSent .. | .markAttemptFailed .. => started.operation.delivers
  | .markFailed _ transition => started.operation.delivers ∧
      transition.publish = started.service.hasTerminalPublisher ∧ transition.reason ≠ []
  | .requeueWithCapacity messageID _ _ =>
    started.operation = .requeue messageID ∨ started.operation = .requeueFailed messageID
  | .discard messageID reason transition => started.operation = .discard messageID reason ∧
      transition.publish = started.service.hasTerminalPublisher ∧ transition.reason ≠ []
  | .claimDueTerminal .. | .markTerminalPublished .. | .markTerminalPublishFailed .. =>
    ∃ limit, started.operation = .publishTerminalDue limit
  | .deleteExpired _ _ _ => ∃ policy, started.operation = .cleanupExpired policy
  | _ => True

/-- The effects of an operation. -/
def Started.Performs (started : Started) : Effect → Prop
  | .store call => started.Makes call
  | .deliverOnline _ | .retryMessage _ => started.operation.delivers
  | _ => True

namespace Service

variable {svc : Service} {op : Operation}

theorem nextRetryJitter_performs (maxJitter : Int) :
    (nextRetryJitter maxJitter).Performs (Started.mk svc op).Performs := by
  unfold nextRetryJitter
  split
  · trivial
  · exact ⟨trivial, fun _ => trivial⟩

theorem nextRetryAt_performs (now : Int) (policy : DeliveryPolicy) (attempts : Nat) :
    (nextRetryAt now policy attempts).Performs (Started.mk svc op).Performs :=
  (nextRetryJitter_performs _).bind fun _ => trivial

theorem deliverCreated_performs (message : Message) (hop : op.delivers) :
    (deliverCreated message).Performs (Started.mk svc op).Performs := by
  refine .call_bind hop fun delivery => ?_
  cases delivery with
  | error err =>
    refine .call_bind trivial fun failedAt => (nextRetryAt_performs ..).bind fun next => ?_
    exact ⟨hop, fun marked => by cases marked <;> trivial⟩
  | ok sentResp =>
    exact ⟨trivial, fun sentAt => ⟨hop, fun marked => by cases marked <;> trivial⟩⟩

theorem chosenMessageID_bind_performs {α : Type} (req : PushRequest) {rest : GoString → Code α}
    (h : ∀ messageID, (req.messageID ≠ [] → messageID = req.messageID) →
      (rest messageID).Performs (Started.mk svc op).Performs) :
    (chosenMessageID req >>= rest).Performs (Started.mk svc op).Performs := by
  unfold chosenMessageID
  split
  · next hid => exact .call_bind trivial fun messageID => h messageID fun hne => absurd hid hne
  · exact h req.messageID fun _ => rfl

theorem pushReliable_performs (req : PushRequest) :
    (svc.pushReliable req).Performs (Started.mk svc (.push req)).Performs := by
  refine .call_bind trivial fun now => chosenMessageID_bind_performs req fun messageID hid => ?_
  refine .call_bind ⟨req, messageID, now, rfl, hid, rfl, rfl⟩ fun saved => ?_
  cases saved with
  | error err => cases err <;> trivial
  | ok saved =>
    obtain ⟨message, outcome⟩ := saved
    cases outcome with
    | created => exact deliverCreated_performs message rfl
    | existing | conflict => trivial

theorem push_performs (req : PushRequest) :
    (svc.push req).Performs (Started.mk svc (.push req)).Performs := by
  unfold push
  split
  · trivial
  · exact pushReliable_performs req

theorem giveUp_performs (message : Message) {reason : GoString} (hreason : reason ≠ [])
    (time : Int) (attempted : Bool) (hop : op.delivers) :
    (svc.giveUp message reason time attempted).Performs (Started.mk svc op).Performs :=
  ⟨⟨hop, rfl, hreason⟩, fun marked => by cases marked <;> trivial⟩

theorem redeliver_performs (message : Message) (policy : DeliveryPolicy) (hop : op.delivers) :
    (svc.redeliver message policy).Performs (Started.mk svc op).Performs := by
  refine .call_bind hop fun delivery => ?_
  cases delivery with
  | error err =>
    refine .call_bind trivial fun failedAt => ?_
    split
    · exact giveUp_performs _ (by decide) _ _ hop
    · split
      · exact giveUp_performs _ (by decide) _ _ hop
      · refine (nextRetryAt_performs ..).bind fun next => ?_
        exact ⟨hop, fun marked => by cases marked <;> trivial⟩
  | ok sentResp =>
    exact ⟨trivial, fun sentAt => ⟨hop, fun marked => by cases marked <;> trivial⟩⟩

theorem retryMessage_performs (message : Message) (hop : op.delivers) :
    (svc.retryMessage message).Performs (Started.mk svc op).Performs := by
  refine .call_bind hop fun _ => .call_bind trivial fun now => ?_
  split
  · exact giveUp_performs _ (by decide) _ _ hop
  · split
    · exact giveUp_performs _ (by decide) _ _ hop
    · split
      · trivial
      · exact redeliver_performs _ _ hop

theorem retryMessages_performs (result : RetryResult) (messages : List Message)
    (hop : op.delivers) :
    (svc.retryMessages result messages).Performs (Started.mk svc op).Performs := by
  induction messages generalizing result with
  | nil => trivial
  | cons message rest ih =>
    refine .call_bind trivial fun ctxErr => ?_
    cases ctxErr with
    | some err => trivial
    | none =>
      refine (retryMessage_performs message hop).bind fun status => ?_
      cases status with
      | error err => trivial
      | ok status => exact ih _

theorem listRetryMessages_performs (now limit : Int) :
    (svc.listRetryMessages now limit).Performs (Started.mk svc (.retryDue limit)).Performs := by
  unfold listRetryMessages
  split
  · split
    · next howner => exact ⟨⟨howner, limit, rfl⟩, fun _ => trivial⟩
    · exact ⟨trivial, fun _ => trivial⟩
  · exact ⟨trivial, fun listed => by cases listed <;> trivial⟩

theorem retryDue_performs (limit : Int) :
    (svc.retryDue limit).Performs (Started.mk svc (.retryDue limit)).Performs := by
  refine .call_bind trivial fun now =>
    (listRetryMessages_performs now limit).bind fun listed => ?_
  cases listed with
  | error err => trivial
  | ok selection => exact (retryMessages_performs _ _ rfl).bind fun _ => trivial

theorem flushClientDevice_performs (clientID deviceID : GoString) (limit : Int) :
    (svc.flushClientDevice clientID deviceID limit).Performs
      (Started.mk svc (.flushClientDevice clientID deviceID limit)).Performs := by
  unfold flushClientDevice
  split
  · trivial
  · split
    · trivial
    · refine .call_bind trivial fun listed => ?_
      cases listed with
      | error err => trivial
      | ok messages => exact retryMessages_performs _ _ rfl

theorem messageStatus_performs (messageID : GoString) :
    (svc.messageStatus messageID).Performs (Started.mk svc op).Performs := by
  unfold messageStatus
  split
  · trivial
  · exact ⟨trivial, fun found => by cases found <;> trivial⟩

theorem readBack_performs (messageID : GoString) :
    (svc.readBack messageID).Performs (Started.mk svc op).Performs := by
  refine .call_bind trivial fun found => ?_
  rcases found with err | found
  · trivial
  · cases found <;> trivial

theorem requeue_performs (messageID : GoString)
    (hop : op = .requeue messageID ∨ op = .requeueFailed messageID) :
    (svc.requeue messageID).Performs (Started.mk svc op).Performs := by
  unfold requeue
  split
  · trivial
  · refine .call_bind trivial fun found => ?_
    rcases found with err | found
    · trivial
    · cases found with
      | none => trivial
      | some message =>
        dsimp only
        split
        · trivial
        · refine .call_bind trivial fun requeuedAt => .call_bind hop fun requeued => ?_
          cases requeued with
          | error err => cases err <;> trivial
          | ok _ => exact readBack_performs messageID

theorem requeueFailed_performs (messageID : GoString) :
    (svc.requeueFailed messageID).Performs
      (Started.mk svc (.requeueFailed messageID)).Performs := by
  refine (messageStatus_performs messageID).bind fun found => ?_
  rcases found with err | found
  · trivial
  · cases found with
    | none => trivial
    | some message =>
      dsimp only
      split
      · trivial
      · refine (requeue_performs messageID (.inr rfl)).bind fun requeued => ?_
        cases requeued <;> trivial

theorem discard_performs (messageID reason : GoString) :
    (svc.discard messageID reason).Performs
      (Started.mk svc (.discard messageID reason)).Performs := by
  unfold discard
  split
  · trivial
  · refine .call_bind trivial fun found => ?_
    rcases found with err | found
    · trivial
    · cases found with
      | none => trivial
      | some message =>
        dsimp only
        split
        · trivial
        · refine .call_bind trivial fun now => ?_
          have hreason : terminalReasonOperatorDiscard ≠ [] := by decide
          refine .call_bind ⟨rfl, rfl, hreason⟩ fun discarded => ?_
          cases discarded with
          | error err => trivial
          | ok _ => exact readBack_performs messageID

theorem ack_performs (clientID deviceID : GoString) (req : ClientAckRequest) :
    (svc.ack clientID deviceID req).Performs
      (Started.mk svc (.ack clientID deviceID req)).Performs := by
  unfold ack
  split_ifs
  iterate 4 trivial
  refine .call_bind trivial fun found => ?_
  rcases found with err | found
  · trivial
  · cases found with
    | none => trivial
    | some message =>
      dsimp only
      split
      · trivial
      · exact ⟨trivial, fun _ => ⟨⟨req, rfl, rfl⟩, fun marked => by cases marked <;> trivial⟩⟩

theorem publishRecords_performs (result : TerminalPublishResult) (records : List TerminalRecord)
    {limit : Int} : (svc.publishRecords result records).Performs
      (Started.mk svc (.publishTerminalDue limit)).Performs := by
  induction records generalizing result with
  | nil => trivial
  | cons record rest ih =>
    refine .call_bind trivial fun ctxErr => ?_
    cases ctxErr with
    | some err => trivial
    | none =>
      refine .call_bind trivial fun published => ?_
      cases published with
      | some reason =>
        refine .call_bind trivial fun failedAt =>
          (nextRetryJitter_performs _).bind fun jitter => ?_
        refine .call_bind ⟨limit, rfl⟩ fun marked => ?_
        cases marked with
        | error err => trivial
        | ok _ => exact ih _
      | none =>
        refine .call_bind trivial fun publishedAt => .call_bind ⟨limit, rfl⟩ fun marked => ?_
        cases marked with
        | error err => trivial
        | ok _ => exact ih _

theorem publishTerminalDue_performs (limit : Int) :
    (svc.publishTerminalDue limit).Performs
      (Started.mk svc (.publishTerminalDue limit)).Performs := by
  unfold publishTerminalDue
  split
  · trivial
  · refine .call_bind trivial fun now => .call_bind ⟨limit, rfl⟩ fun claimed => ?_
    cases claimed with
    | error err => trivial
    | ok records => exact publishRecords_performs _ _

theorem cleanupTargets_performs (now limit : Int) (result : CleanupResult)
    (targets : List (MessageStatus × Int)) {policy : RetentionPolicy} :
    (cleanupTargets now limit result targets).Performs
      (Started.mk svc (.cleanupExpired policy)).Performs := by
  induction targets generalizing result with
  | nil => trivial
  | cons target rest ih =>
    obtain ⟨status, ttl⟩ := target
    unfold cleanupTargets
    split
    · exact ih result
    · refine .call_bind ⟨policy, rfl⟩ fun deleted => ?_
      cases deleted with
      | error err => trivial
      | ok count => exact ih _

/-- The operations of a service make only the calls of `Makes`. -/
theorem run_performs (started : Started) :
    (started.service.run started.operation).Performs started.Performs := by
  obtain ⟨svc, op⟩ := started
  cases op with
  | push req => exact (push_performs req).bind fun _ => trivial
  | retryDue limit => exact (retryDue_performs limit).bind fun _ => trivial
  | flushClientDevice clientID deviceID limit =>
    exact (flushClientDevice_performs clientID deviceID limit).bind fun _ => trivial
  | ack clientID deviceID req => exact (ack_performs clientID deviceID req).bind fun _ => trivial
  | requeue messageID => exact (requeue_performs messageID (.inl rfl)).bind fun _ => trivial
  | requeueFailed messageID => exact (requeueFailed_performs messageID).bind fun _ => trivial
  | discard messageID reason => exact (discard_performs messageID reason).bind fun _ => trivial
  | publishTerminalDue limit => exact (publishTerminalDue_performs limit).bind fun _ => trivial
  | cleanupExpired policy =>
    exact Prog.Performs.bind ⟨trivial, fun now => cleanupTargets_performs ..⟩ fun _ => trivial

end Service

/-- A transition only starts operations that satisfy `p`. -/
def CourierStep.Starts (p : Started → Prop) (t : CourierStep) : Prop :=
  ∀ started, t.choice = .start started → p started

/-- A property of the store that is kept by the calls of operations satisfying `p` holds in
every interleaving of such operations. -/
theorem store_invariant [Sha256] {p : Started → Prop} {inv : MemoryStore → Prop} {clock : Int}
    {history : List CourierStep} {after : Courier} (hinit : inv .new)
    (hstep : ∀ {s s' : MemoryStore} {env : StoreEnv} {call : StoreCall} {started : Started},
      inv s → p started → started.Makes call → StoreStep env s call s' → inv s')
    (h : Run courier (CourierStep.Starts p) (Courier.initial clock) history after) :
    inv after.state.store := by
  refine (h.protocol (fun started _ effect => p started ∧ started.Performs effect)
    (fun _ _ => True) (fun _ _ _ => True) (fun config => inv config.state.store) hinit ?_ ?_ ?_).1
  · intro before started after hok
    have hp := hok started rfl
    exact ((Service.run_performs started).mono fun _ h => And.intro hp h).meets []
  · intro before started state hinv hstart _
    obtain rfl := Option.some.inj hstart
    exact hinv
  · intro before i input started log effect next response state hinv _ hallowed hexec _
    obtain ⟨-, rfl⟩ := Prod.mk.inj (Option.some.inj hexec)
    refine ⟨trivial, ?_⟩
    cases effect with
    | store call => exact hstep hinv hallowed.1 hallowed.2 (MemoryStore.call_step call)
    | now | ctxErr | newMessageID | jitter | deliverOnline | publish | retryMessage => exact hinv

end ZCourier.Downlink
