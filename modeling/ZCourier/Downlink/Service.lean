import ZCourier.Library.Program
import ZCourier.Downlink.MemoryStore

/-!
# The delivery service

The operations of `Service` (`internal/downlink/service.go`) over a store, as programs. An
operation's effects are what it does beyond computing: it reads the clock and its context, draws
an id or a jitter, attempts a delivery, publishes an event, or calls the store. Each effect is one
atomic step. Deliveries and the publisher have arbitrary answers. The effect `retryMessage` does
nothing: it marks in a trace that a call of `Service.retryMessage` begins.
-/

namespace ZCourier.Downlink

open Go Library

/-! ## Requests and responses -/

/-- `SubmissionState`. -/
inductive SubmissionState where
  | unset
  | created
  | existing
  deriving DecidableEq

/-- `DeliveryState`. -/
inductive DeliveryState where
  | unset
  | sent
  | queued
  deriving DecidableEq

/-- `DeliveryPath`. -/
inductive DeliveryPath where
  | unset
  | «local»
  | clusterPeer
  deriving DecidableEq

/-- `PushResponse`, without the fields that only the HTTP handlers set. -/
structure PushResponse where
  code : GoString
  reason : GoString
  submissionState : SubmissionState
  messageStatus : MessageStatus
  deliveryState : DeliveryState
  deliveryPath : DeliveryPath
  originGatewayNode : GoString
  targetGatewayNode : GoString
  targetInternalAddr : GoString
  failureStage : GoString
  failureCode : GoString
  clientID : GoString
  deviceID : GoString
  sessionID : GoString
  connID : UInt64
  messageID : GoString
  traceID : GoString
  deriving DecidableEq

/-- `DeliveryFailure`, as `deliveryFailureFromError` extracts it from an error. -/
structure DeliveryFailure where
  stage : GoString
  code : GoString
  targetGatewayNode : GoString
  targetInternalAddr : GoString

/-- An error of `deliverOnline`: its text and the failure it carries. -/
structure DeliveryError where
  text : GoString
  failure : DeliveryFailure

inductive ServiceError where
  | missingClientID
  | missingDeviceID
  | invalidMsgID
  | missingMessageID
  | invalidAckCode
  | invalidTransition
  | messageNotFound
  | messageIDConflict (messageID : GoString)
  | capacity (err : QueueCapacityError)
  | store (err : StoreError)
  | context (err : ContextError)
  deriving DecidableEq

/-- `RetryResult`. -/
structure RetryResult where
  scanned : Nat
  sent : Nat
  queued : Nat
  failed : Nat
  selectionMode : Option RetrySelectionMode
  selectedDevices : Nat
  maxPerDevice : Nat
  deriving DecidableEq

/-- `TerminalPublishResult`. -/
structure TerminalPublishResult where
  scanned : Nat
  published : Nat
  failed : Nat
  deriving DecidableEq

/-- `RetentionPolicy`. -/
structure RetentionPolicy where
  deliveredTTL : Int
  failedTTL : Int
  discardedTTL : Int
  limit : Int
  deriving DecidableEq

/-- `CleanupResult`. -/
structure CleanupResult where
  delivered : Nat
  failed : Nat
  discarded : Nat
  deriving DecidableEq

/-- `ClientAckRequest`; only whether the code is `delivered` matters. -/
structure ClientAckRequest where
  messageID : GoString
  codeDelivered : Bool
  deriving DecidableEq

/-- `Service`: the fields its operations read. The clock, the jitter source, the sessions and
the store are effects. -/
structure Service where
  retryDelay : Int
  retryJitter : Int
  ackTimeout : Int
  retryClaimOwner : GoString
  retryClaimLease : Int
  retryFairness : RetryFairness
  maxAttempts : Int
  deliveryPolicies : Option DeliveryPolicySet
  queueCapacity : QueueCapacity
  hasTerminalPublisher : Bool
  terminalGatewayNode : GoString
  terminalRetryDelay : Int
  terminalRetryJitter : Int
  terminalBackoffMultiplier : Float64
  terminalMaxRetryDelay : Int
  terminalClaimOwner : GoString
  terminalClaimLease : Int
  deriving DecidableEq

/-- `NewService` without options. -/
def newService : Service where
  retryDelay := 30 * second
  retryJitter := 0
  ackTimeout := 30 * second
  retryClaimOwner := []
  retryClaimLease := 30 * second
  retryFairness := ⟨false, 0⟩
  maxAttempts := 5
  deliveryPolicies := none
  queueCapacity := ⟨0, 0⟩
  hasTerminalPublisher := false
  terminalGatewayNode := []
  terminalRetryDelay := 30 * second
  terminalRetryJitter := 0
  terminalBackoffMultiplier := .finite 2
  terminalMaxRetryDelay := 300 * second
  terminalClaimOwner := []
  terminalClaimLease := 30 * second

/-! ## Effects -/

/-- What an operation does beyond computing. -/
inductive Effect where
  | now
  | ctxErr
  | newMessageID
  | jitter (max : Int)
  | deliverOnline (req : PushRequest)
  | publish (event : TerminalEvent)
  | retryMessage (message : Message)
  | store (call : StoreCall)
  deriving DecidableEq

/-- What an effect is answered with. A failed publication is answered with the error's text. -/
@[reducible] def Effect.Response : Effect → Type
  | .now => Int
  | .ctxErr => Option ContextError
  | .newMessageID => GoString
  | .jitter _ => Int
  | .deliverOnline _ => Except DeliveryError PushResponse
  | .publish _ => Option GoString
  | .retryMessage _ => Unit
  | .store call => Except StoreError call.Value

/-- The code of an operation, or of a part of one, that returns an `α`. -/
abbrev Code (α : Type) := Prog Effect Effect.Response α

namespace Code

/-- `s.now()`. -/
abbrev now : Code Int := Prog.call Effect.now

/-- `ctx.Err()`. -/
abbrev ctxErr : Code (Option ContextError) := Prog.call Effect.ctxErr

/-- `NewMessageID()`. -/
abbrev newMessageID : Code GoString := Prog.call Effect.newMessageID

/-- `s.retryJitterFunc(max)`. -/
abbrev jitter (max : Int) : Code Int := Prog.call (Effect.jitter max)

/-- `s.deliverOnline(ctx, req)`. -/
abbrev deliverOnline (req : PushRequest) : Code (Except DeliveryError PushResponse) :=
  Prog.call (Effect.deliverOnline req)

/-- `s.terminalPublisher.Publish(ctx, event)`. -/
abbrev publish (event : TerminalEvent) : Code (Option GoString) :=
  Prog.call (Effect.publish event)

abbrev store (call : StoreCall) : Code (Except StoreError call.Value) :=
  Prog.call (Effect.store call)

/-- The beginning of a call of `retryMessage`. -/
abbrev beginRetry (message : Message) : Code Unit := Prog.call (Effect.retryMessage message)

end Code

namespace Service

/-! ## Policies and deadlines -/

/-- `DeliveryPolicy`. -/
def deliveryPolicy (svc : Service) (msgID : UInt32) : DeliveryPolicy :=
  match svc.deliveryPolicies with
  | some policies => policies.resolve msgID
  | none =>
    { name := defaultDeliveryPolicyName
      maxAttempts := svc.maxAttempts
      maxAge := 0
      ackTimeout := svc.ackTimeout
      initialRetryDelay := svc.retryDelay
      backoffMultiplier := .finite 1
      maxRetryDelay := svc.retryDelay
      retryJitter := svc.retryJitter }

/-- `policyForMessage`. -/
def policyForMessage (svc : Service) (message : Message) : DeliveryPolicy :=
  if message.policy.name ≠ [] && (validateDeliveryPolicy message.policy).isNone then
    message.policy
  else svc.deliveryPolicy message.msgID

/-- `attachResolvedPolicy`. -/
def attachResolvedPolicy (svc : Service) (message : Message) : Message :=
  { message with policy := svc.policyForMessage message }

/-- `terminalTransition`. -/
def terminalTransition (svc : Service) (reason : GoString) (time : Int) (attempted : Bool) :
    TerminalTransition :=
  ⟨reason, svc.terminalGatewayNode, time, attempted, svc.hasTerminalPublisher⟩

/-- The exponential delay of `retryDelayForAttempt` and `terminalRetryDelayForAttempt`. -/
def delayForAttempt (initial : Int) (multiplier : Float64) (max : Int) (attempts : Nat) : Int :=
  let delay := (Float64.finite initial).mul (multiplier.pow attempts)
  if delay.isInf || delay.isNaN || delay.ge (.finite max) then max
  else if (Float64.finite 0).ge delay then initial
  else delay.truncate

/-- `retryDelayForAttempt`. -/
def retryDelayForAttempt (policy : DeliveryPolicy) (attempts : Nat) : Int :=
  delayForAttempt policy.initialRetryDelay policy.backoffMultiplier policy.maxRetryDelay attempts

/-- `terminalRetryDelayForAttempt`. -/
def terminalRetryDelayForAttempt (svc : Service) (attempts : Nat) : Int :=
  delayForAttempt svc.terminalRetryDelay svc.terminalBackoffMultiplier svc.terminalMaxRetryDelay
    attempts

/-- `policyMaxAgeExceeded`. -/
def policyMaxAgeExceeded (message : Message) (policy : DeliveryPolicy) (now : Int) : Bool :=
  if policy.maxAge ≤ 0 || isZero message.createdAt then false
  else message.createdAt + policy.maxAge ≤ now

/-- `ackTimedOut`. -/
def ackTimedOut (message : Message) (policy : DeliveryPolicy) (now : Int) : Bool :=
  if message.status ≠ .sent || !message.ackRequired then false
  else if isZero message.nextRetryAt then
    if isZero message.sentAt || policy.ackTimeout ≤ 0 then false
    else message.sentAt + policy.ackTimeout ≤ now
  else message.nextRetryAt ≤ now

/-- `ackDeadline`. -/
def ackDeadline (message : Message) (policy : DeliveryPolicy) (sentAt : Int) : Int :=
  if !message.ackRequired || policy.ackTimeout ≤ 0 || isZero sentAt then 0
  else sentAt + policy.ackTimeout

/-- `nextRetryJitter`. -/
def nextRetryJitter (maxJitter : Int) : Code Int := do
  if maxJitter ≤ 0 then return 0
  else
    let jitter ← Code.jitter maxJitter
    return if jitter < 0 then 0 else if maxJitter < jitter then maxJitter else jitter

/-- `nextRetryAt`. The sum of the two durations is a 64-bit addition. -/
def nextRetryAt (now : Int) (policy : DeliveryPolicy) (attempts : Nat) : Code Int := do
  let jitter ← nextRetryJitter policy.retryJitter
  return now + int64 (retryDelayForAttempt policy attempts + jitter)

/-! ## Push -/

/-- `validatePushRequest`. -/
def validatePushRequest (req : PushRequest) : Option ServiceError :=
  if req.clientID = [] then some .missingClientID
  else if req.deviceID = [] then some .missingDeviceID
  else if req.msgID = 0 then some .invalidMsgID
  else none

/-- `pushResponseFromStoredMessage`. -/
def pushResponseFromStoredMessage (message : Message) (submissionState : SubmissionState) :
    PushResponse where
  code := ascii "ok"
  reason := []
  submissionState := submissionState
  messageStatus := message.status
  deliveryState :=
    match message.status with
    | .pending => .queued
    | .sent | .delivered => .sent
    | _ => .unset
  deliveryPath := .unset
  originGatewayNode := []
  targetGatewayNode := []
  targetInternalAddr := []
  failureStage := []
  failureCode := []
  clientID := message.clientID
  deviceID := message.deviceID
  sessionID := message.sessionID
  connID := 0
  messageID := message.messageID
  traceID := message.traceID

/-- The response `pushReliable` prepares for a created message, with the failure of its first
attempt as `annotatePushResponseFailure` adds it. -/
def queuedResponse (message : Message) (err : DeliveryError) : PushResponse where
  code := ascii "ok"
  reason := err.text
  submissionState := .created
  messageStatus := .pending
  deliveryState := .queued
  deliveryPath := .unset
  originGatewayNode := []
  targetGatewayNode := err.failure.targetGatewayNode
  targetInternalAddr := err.failure.targetInternalAddr
  failureStage := err.failure.stage
  failureCode := err.failure.code
  clientID := message.clientID
  deviceID := message.deviceID
  sessionID := []
  connID := 0
  messageID := message.messageID
  traceID := message.traceID

/-- The id `messageFromPushRequest` chooses. -/
def chosenMessageID (req : PushRequest) : Code GoString :=
  if req.messageID = [] then Code.newMessageID else pure req.messageID

/-- The message `pushReliable` submits. -/
def submittedMessage (svc : Service) (req : PushRequest) (messageID : GoString) (now : Int) :
    Message :=
  let message :=
    { messageFromPushRequest req messageID now with policy := svc.deliveryPolicy req.msgID }
  if svc.retryClaimOwner ≠ [] && 0 < svc.retryClaimLease then
    { message with
      claimOwner := svc.retryClaimOwner
      claimUntil := message.createdAt + svc.retryClaimLease }
  else message

/-- The capacity a save or requeue is called with: `Save` and `Requeue` pass the zero value. -/
def admission (svc : Service) : QueueCapacity :=
  if svc.queueCapacity.enabled then svc.queueCapacity else ⟨0, 0⟩

/-- The last part of `pushReliable`: the first delivery attempt of a created message. -/
def deliverCreated (message : Message) : Code (Except ServiceError PushResponse) := do
  match ← Code.deliverOnline (pushRequestFromMessage message) with
  | .error err =>
    let failedAt ← Code.now
    let next ← nextRetryAt failedAt message.policy message.attempts
    match ← Code.store (.markAttemptFailed message.messageID err.text next) with
    | .error err => return .error (.store err)
    | .ok () => return .ok (queuedResponse message err)
  | .ok sentResp =>
    let sentAt ← Code.now
    match ← Code.store (.markSent message.messageID sentResp.sessionID sentAt
      (ackDeadline message message.policy sentAt)) with
    | .error err => return .error (.store err)
    | .ok () =>
      return .ok
        { sentResp with
          submissionState := .created
          messageStatus := .sent
          deliveryState := .sent }

/-- `pushReliable`. -/
def pushReliable (svc : Service) (req : PushRequest) :
    Code (Except ServiceError PushResponse) := do
  let now ← Code.now
  let messageID ← chosenMessageID req
  match ← Code.store
    (.saveWithCapacity (svc.submittedMessage req messageID now) svc.admission) with
  | .error (.capacity err) => return .error (.capacity err)
  | .error err => return .error (.store err)
  | .ok saved =>
    match saved.outcome with
    | .existing => return .ok (pushResponseFromStoredMessage saved.message .existing)
    | .conflict => return .error (.messageIDConflict saved.message.messageID)
    | .created => deliverCreated saved.message

/-- `Push`. -/
def push (svc : Service) (req : PushRequest) : Code (Except ServiceError PushResponse) :=
  match validatePushRequest req with
  | some err => .ret (.error err)
  | none => svc.pushReliable req

/-! ## Retrying -/

/-- The store calls of `retryMessage` that end in `failed`. -/
def giveUp (svc : Service) (message : Message) (reason : GoString) (time : Int)
    (attempted : Bool) : Code (Except ServiceError MessageStatus) := do
  match ← Code.store (.markFailed message.messageID
    (svc.terminalTransition reason time attempted)) with
  | .error err => return .error (.store err)
  | .ok () => return .ok .failed

/-- The part of `retryMessage` that attempts a delivery. -/
def redeliver (svc : Service) (message : Message) (policy : DeliveryPolicy) :
    Code (Except ServiceError MessageStatus) := do
  match ← Code.deliverOnline (pushRequestFromMessage message) with
  | .error err =>
    let failedAt ← Code.now
    if policyMaxAgeExceeded message policy failedAt then
      svc.giveUp message terminalReasonMaxAge failedAt true
    else if policy.maxAttempts ≤ message.attempts + 1 then
      svc.giveUp message terminalReasonMaxAttempts failedAt true
    else
      let next ← nextRetryAt failedAt policy message.attempts
      match ← Code.store (.markAttemptFailed message.messageID err.text next) with
      | .error err => return .error (.store err)
      | .ok () => return .ok .pending
  | .ok sentResp =>
    let sentAt ← Code.now
    match ← Code.store (.markSent message.messageID sentResp.sessionID sentAt
      (ackDeadline message policy sentAt)) with
    | .error err => return .error (.store err)
    | .ok () => return .ok .sent

/-- `retryMessage`. -/
def retryMessage (svc : Service) (message : Message) :
    Code (Except ServiceError MessageStatus) := do
  Code.beginRetry message
  let policy := svc.policyForMessage message
  let now ← Code.now
  if policyMaxAgeExceeded message policy now then
    svc.giveUp message terminalReasonMaxAge now false
  else if policy.maxAttempts ≤ message.attempts then
    svc.giveUp message terminalReasonMaxAttempts now false
  else if message.status = .sent && !ackTimedOut message policy now then
    return .ok .sent
  else svc.redeliver message policy

def countRetry (result : RetryResult) (status : MessageStatus) : RetryResult :=
  match status with
  | .sent => { result with sent := result.sent + 1 }
  | .failed => { result with failed := result.failed + 1 }
  | _ => { result with queued := result.queued + 1 }

/-- `retryMessages`, from the given counts on. -/
def retryMessages (svc : Service) (result : RetryResult) :
    List Message → Code (RetryResult × Option ServiceError)
  | [] => .ret (result, none)
  | message :: rest => do
      match ← Code.ctxErr with
      | some err => return (result, some (.context err))
      | none =>
        let result := { result with scanned := result.scanned + 1 }
        match ← svc.retryMessage message with
        | .error err => return (result, some err)
        | .ok status => svc.retryMessages (countRetry result status) rest

/-- The store call of `listRetryMessages` and what it returns. The memory store does not
implement `ClaimStore`, so without fairness nothing is claimed. -/
def listRetryMessages (svc : Service) (now limit : Int) :
    Code (Except StoreError RetrySelection) :=
  if svc.retryFairness.enabled then
    let candidateLimit :=
      svc.retryFairness.candidateLimit limit svc.queueCapacity.maxPendingPerDevice
    if svc.retryClaimOwner ≠ [] then
      Code.store (.claimDueRetryFair now svc.ackTimeout limit candidateLimit
        svc.retryClaimOwner svc.retryClaimLease)
    else Code.store (.listDueRetryFair now svc.ackTimeout limit candidateLimit)
  else do
    match ← Code.store (.listDueRetry now svc.ackTimeout limit) with
    | .error err => return .error err
    | .ok messages => return .ok (retrySelectionFromMessages messages .fifo)

/-- The zero value of `RetryResult`. -/
def noRetries : RetryResult := ⟨0, 0, 0, 0, none, 0, 0⟩

/-- `RetryDue`. -/
def retryDue (svc : Service) (limit : Int) : Code (RetryResult × Option ServiceError) := do
  let now ← Code.now
  match ← svc.listRetryMessages now limit with
  | .error err => return (noRetries, some (.store err))
  | .ok selection =>
    let (result, err) ← svc.retryMessages noRetries selection.messages
    return ({ result with
      selectionMode := some selection.mode
      selectedDevices := selection.deviceCount
      maxPerDevice := selection.maxPerDevice }, err)

/-- `FlushClientDevice`. -/
def flushClientDevice (svc : Service) (clientID deviceID : GoString) (limit : Int) :
    Code (RetryResult × Option ServiceError) := do
  if clientID = [] then return (noRetries, some .missingClientID)
  else if deviceID = [] then return (noRetries, some .missingDeviceID)
  else
    match ← Code.store (.listPendingByClientDevice clientID deviceID limit) with
    | .error err => return (noRetries, some (.store err))
    | .ok messages => svc.retryMessages noRetries messages

/-! ## Operator actions and acknowledgements -/

/-- `MessageStatus`. -/
def messageStatus (svc : Service) (messageID : GoString) :
    Code (Except ServiceError (Option Message)) := do
  if messageID = [] then return .error .missingMessageID
  else
    match ← Code.store (.get messageID) with
    | .error err => return .error (.store err)
    | .ok found => return .ok (found.map svc.attachResolvedPolicy)

/-- The end of `Requeue` and `Discard`: read the message back. -/
def readBack (svc : Service) (messageID : GoString) : Code (Except ServiceError Message) := do
  match ← Code.store (.get messageID) with
  | .error err => return .error (.store err)
  | .ok none => return .error .messageNotFound
  | .ok (some message) => return .ok (svc.attachResolvedPolicy message)

/-- `Requeue`. -/
def requeue (svc : Service) (messageID : GoString) : Code (Except ServiceError Message) := do
  if messageID = [] then return .error .missingMessageID
  else
    match ← Code.store (.get messageID) with
    | .error err => return .error (.store err)
    | .ok none => return .error .messageNotFound
    | .ok (some message) =>
      if message.status = .delivered || message.status = .discarded then
        return .error .invalidTransition
      else
        let requeuedAt ← Code.now
        match ← Code.store (.requeueWithCapacity messageID requeuedAt svc.admission) with
        | .error (.capacity err) => return .error (.capacity err)
        | .error err => return .error (.store err)
        | .ok () => svc.readBack messageID

/-- `RequeueFailed`. The message it read comes back with the error where there is one. -/
def requeueFailed (svc : Service) (messageID : GoString) :
    Code (Option Message × Option ServiceError) := do
  match ← svc.messageStatus messageID with
  | .error err => return (none, some err)
  | .ok none => return (none, some .messageNotFound)
  | .ok (some message) =>
    if message.status ≠ .failed then return (some message, some .invalidTransition)
    else
      match ← svc.requeue messageID with
      | .error err => return (some message, some err)
      | .ok requeued => return (some requeued, none)

/-- `Discard`. -/
def discard (svc : Service) (messageID reason : GoString) :
    Code (Except ServiceError Message) := do
  if messageID = [] then return .error .missingMessageID
  else
    match ← Code.store (.get messageID) with
    | .error err => return .error (.store err)
    | .ok none => return .error .messageNotFound
    | .ok (some message) =>
      if message.status = .delivered then return .error .invalidTransition
      else
        let now ← Code.now
        match ← Code.store (.discard messageID reason
          (svc.terminalTransition terminalReasonOperatorDiscard now false)) with
        | .error err => return .error (.store err)
        | .ok () => svc.readBack messageID

/-- `Ack`. -/
def ack (svc : Service) (clientID deviceID : GoString) (req : ClientAckRequest) :
    Code (Except ServiceError Message) := do
  if clientID = [] then return .error .missingClientID
  else if deviceID = [] then return .error .missingDeviceID
  else if req.messageID = [] then return .error .missingMessageID
  else if !req.codeDelivered then return .error .invalidAckCode
  else
    match ← Code.store (.get req.messageID) with
    | .error err => return .error (.store err)
    | .ok none => return .error .messageNotFound
    | .ok (some message) =>
      if message.clientID ≠ clientID || message.deviceID ≠ deviceID then
        return .error .messageNotFound
      else
        let deliveredAt ← Code.now
        match ← Code.store
          (.markDelivered req.messageID clientID deviceID deliveredAt) with
        | .error err => return .error (.store err)
        | .ok () => return .ok (svc.attachResolvedPolicy (message.delivered deliveredAt))

/-! ## Publishing and retention -/

/-- The loop of `PublishTerminalDue`. -/
def publishRecords (svc : Service) (result : TerminalPublishResult) :
    List TerminalRecord → Code (TerminalPublishResult × Option ServiceError)
  | [] => .ret (result, none)
  | record :: rest => do
      match ← Code.ctxErr with
      | some err => return (result, some (.context err))
      | none =>
        match ← Code.publish record.event with
        | some reason =>
          let failedAt ← Code.now
          let jitter ← nextRetryJitter svc.terminalRetryJitter
          let delay := svc.terminalRetryDelayForAttempt record.publishAttempts
          match ← Code.store (.markTerminalPublishFailed record.event.messageID
            record.event.terminalStatus reason (failedAt + int64 (delay + jitter))) with
          | .error err => return (result, some (.store err))
          | .ok () =>
            svc.publishRecords { result with failed := result.failed + 1 } rest
        | none =>
          let publishedAt ← Code.now
          match ← Code.store (.markTerminalPublished record.event.messageID
            record.event.terminalStatus publishedAt) with
          | .error err => return (result, some (.store err))
          | .ok () =>
            svc.publishRecords { result with published := result.published + 1 } rest

/-- `PublishTerminalDue`. -/
def publishTerminalDue (svc : Service) (limit : Int) :
    Code (TerminalPublishResult × Option ServiceError) := do
  if !svc.hasTerminalPublisher then return (⟨0, 0, 0⟩, none)
  else
    let limit := if limit ≤ 0 then 100 else limit
    let now ← Code.now
    let owner :=
      if svc.terminalClaimOwner = [] then svc.terminalGatewayNode else svc.terminalClaimOwner
    match ← Code.store (.claimDueTerminal now limit owner svc.terminalClaimLease) with
    | .error err => return (⟨0, 0, 0⟩, some (.store err))
    | .ok records => svc.publishRecords ⟨records.length, 0, 0⟩ records

/-- Record how many messages of a status were removed. -/
def countDeleted (result : CleanupResult) (status : MessageStatus) (count : Nat) :
    CleanupResult :=
  match status with
  | .delivered => { result with delivered := count }
  | .failed => { result with failed := count }
  | .discarded => { result with discarded := count }
  | _ => result

/-- The loop of `CleanupExpired` over its targets, a status and a time to live each. -/
def cleanupTargets (now limit : Int) (result : CleanupResult) :
    List (MessageStatus × Int) → Code (CleanupResult × Option ServiceError)
  | [] => .ret (result, none)
  | (status, ttl) :: rest => do
      if ttl ≤ 0 then cleanupTargets now limit result rest
      else
        match ← Code.store (.deleteExpired status (now - ttl) limit) with
        | .error err => return (result, some (.store err))
        | .ok deleted => cleanupTargets now limit (countDeleted result status deleted) rest

/-- `CleanupExpired`. -/
def cleanupExpired (policy : RetentionPolicy) : Code (CleanupResult × Option ServiceError) := do
  let limit := if policy.limit ≤ 0 then 1000 else policy.limit
  let now ← Code.now
  cleanupTargets now limit ⟨0, 0, 0⟩
    [(.delivered, policy.deliveredTTL), (.failed, policy.failedTTL),
      (.discarded, policy.discardedTTL)]

end Service

/-! ## Operations -/

/-- A call of one of the service's operations. -/
inductive Operation where
  | push (req : PushRequest)
  | retryDue (limit : Int)
  | flushClientDevice (clientID deviceID : GoString) (limit : Int)
  | ack (clientID deviceID : GoString) (req : ClientAckRequest)
  | requeue (messageID : GoString)
  | requeueFailed (messageID : GoString)
  | discard (messageID reason : GoString)
  | publishTerminalDue (limit : Int)
  | cleanupExpired (policy : RetentionPolicy)
  deriving DecidableEq

inductive OperationResult where
  | pushed (result : Except ServiceError PushResponse)
  | retried (result : RetryResult × Option ServiceError)
  | message (result : Except ServiceError Message)
  | requeued (result : Option Message × Option ServiceError)
  | published (result : TerminalPublishResult × Option ServiceError)
  | cleaned (result : CleanupResult × Option ServiceError)
  deriving DecidableEq

/-- The code of an operation of a service. -/
def Service.run (svc : Service) : Operation → Code OperationResult
  | .push req => return .pushed (← svc.push req)
  | .retryDue limit => return .retried (← svc.retryDue limit)
  | .flushClientDevice clientID deviceID limit =>
    return .retried (← svc.flushClientDevice clientID deviceID limit)
  | .ack clientID deviceID req => return .message (← svc.ack clientID deviceID req)
  | .requeue messageID => return .message (← svc.requeue messageID)
  | .requeueFailed messageID => return .requeued (← svc.requeueFailed messageID)
  | .discard messageID reason => return .message (← svc.discard messageID reason)
  | .publishTerminalDue limit => return .published (← svc.publishTerminalDue limit)
  | .cleanupExpired policy => return .cleaned (← Service.cleanupExpired policy)

end ZCourier.Downlink
