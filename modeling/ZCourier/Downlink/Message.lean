import ZCourier.Go.Strconv
import ZCourier.Library.Sql
import ZCourier.Downlink.Policy

/-!
# Messages, outbox records and the values passed to a store

The data model of `internal/downlink` (`store.go`, `terminal.go`, `capacity.go`,
`errors.go` and the request type of `pkg/sdk/backend`). Field names are those of the
source in lower case. A byte slice that may be nil is an `Option`.
-/

namespace ZCourier.Downlink

open Go

/-- `MessageStatus`; `unset` is the empty string. -/
inductive MessageStatus where
  | unset
  | pending
  | sent
  | delivered
  | failed
  | discarded
  deriving DecidableEq

/-- The string a `MessageStatus` is. -/
def MessageStatus.text : MessageStatus → GoString
  | .unset => []
  | .pending => ascii "pending"
  | .sent => ascii "sent"
  | .delivered => ascii "delivered"
  | .failed => ascii "failed"
  | .discarded => ascii "discarded"

/-- `TerminalPublicationStatus`; `unset` is the empty string. -/
inductive TerminalPublicationStatus where
  | unset
  | disabled
  | pending
  | failed
  | published
  deriving DecidableEq

/-- `TerminalReasonMaxAttempts`. -/
def terminalReasonMaxAttempts : GoString := ascii "max_attempts_exceeded"

/-- `TerminalReasonMaxAge`. -/
def terminalReasonMaxAge : GoString := ascii "max_age_exceeded"

/-- `TerminalReasonOperatorDiscard`. -/
def terminalReasonOperatorDiscard : GoString := ascii "operator_discarded"

/-- `Message`. -/
structure Message where
  messageID : GoString
  clientID : GoString
  deviceID : GoString
  msgID : UInt32
  body : Option Bytes
  identityFingerprint : Bytes
  ackRequired : Bool
  traceID : GoString
  sessionID : GoString
  policy : DeliveryPolicy
  status : MessageStatus
  attempts : Nat
  nextRetryAt : Int
  lastError : GoString
  terminalReason : GoString
  terminalAt : Int
  terminalPublishStatus : TerminalPublicationStatus
  terminalPublishAttempts : Nat
  terminalNextPublishAt : Int
  terminalPublishError : GoString
  terminalPublishedAt : Int
  claimOwner : GoString
  claimUntil : Int
  createdAt : Int
  updatedAt : Int
  sentAt : Int
  deliveredAt : Int
  deriving DecidableEq

/-- `PushRequest`. -/
structure PushRequest where
  clientID : GoString
  deviceID : GoString
  msgID : UInt32
  messageID : GoString
  traceID : GoString
  ackRequired : Bool
  body : Option Bytes
  deriving DecidableEq

/-- The zero value of `DeliveryPolicy`. -/
def DeliveryPolicy.zero : DeliveryPolicy := ⟨[], 0, 0, 0, 0, .finite 0, 0, 0⟩

/-- `messageFromPushRequest` for a request whose message id has been chosen. -/
def messageFromPushRequest (req : PushRequest) (messageID : GoString) (now : Int) : Message where
  messageID := messageID
  clientID := req.clientID
  deviceID := req.deviceID
  msgID := req.msgID
  body := req.body
  identityFingerprint := []
  ackRequired := req.ackRequired
  traceID := req.traceID
  sessionID := []
  policy := .zero
  status := .pending
  attempts := 0
  nextRetryAt := 0
  lastError := []
  terminalReason := []
  terminalAt := 0
  terminalPublishStatus := .unset
  terminalPublishAttempts := 0
  terminalNextPublishAt := 0
  terminalPublishError := []
  terminalPublishedAt := 0
  claimOwner := []
  claimUntil := 0
  createdAt := now
  updatedAt := now
  sentAt := 0
  deliveredAt := 0

/-- `pushRequestFromMessage`. -/
def pushRequestFromMessage (message : Message) : PushRequest where
  clientID := message.clientID
  deviceID := message.deviceID
  msgID := message.msgID
  messageID := message.messageID
  traceID := message.traceID
  ackRequired := message.ackRequired
  body := message.body

/-! ## The terminal outbox -/

/-- `TerminalEvent`, without the constant `Version` and `Type`. -/
structure TerminalEvent where
  eventID : GoString
  messageID : GoString
  clientID : GoString
  deviceID : GoString
  msgID : UInt32
  traceID : GoString
  terminalStatus : MessageStatus
  terminalReason : GoString
  policyName : GoString
  attempts : Nat
  messageCreated : Int
  terminalAt : Int
  gatewayNode : GoString
  deriving DecidableEq

/-- `TerminalRecord`. -/
structure TerminalRecord where
  event : TerminalEvent
  status : TerminalPublicationStatus
  publishAttempts : Nat
  nextAttemptAt : Int
  lastError : GoString
  publishedAt : Int
  claimOwner : GoString
  claimUntil : Int
  deriving DecidableEq

/-- `TerminalTransition`; `time` is the source's `At`. -/
structure TerminalTransition where
  reason : GoString
  gatewayNode : GoString
  time : Int
  attempted : Bool
  publish : Bool
  deriving DecidableEq

/-- `terminalEventID`: the message id and the status, separated by a colon. -/
def terminalEventID (messageID : GoString) (status : MessageStatus) : GoString :=
  messageID ++ 0x3A :: status.text

theorem MessageStatus.colon_notMem_text (status : MessageStatus) : 0x3A ∉ status.text := by
  cases status <;> decide

theorem MessageStatus.text_injective : Function.Injective MessageStatus.text := by
  intro a b h
  cases a <;> cases b <;> first | rfl | exact absurd h (by decide)

theorem terminal_event_id_inj {id id' : GoString} {status status' : MessageStatus} :
    terminalEventID id status = terminalEventID id' status' ↔ id = id' ∧ status = status' := by
  constructor
  · intro h
    obtain ⟨hid, htext⟩ :=
      append_last_inj status.colon_notMem_text status'.colon_notMem_text h
    exact ⟨hid, MessageStatus.text_injective htext⟩
  · rintro ⟨rfl, rfl⟩
    rfl

/-- `newTerminalEvent`. -/
def newTerminalEvent (message : Message) (status : MessageStatus)
    (transition : TerminalTransition) : TerminalEvent where
  eventID := terminalEventID message.messageID status
  messageID := message.messageID
  clientID := message.clientID
  deviceID := message.deviceID
  msgID := message.msgID
  traceID := message.traceID
  terminalStatus := status
  terminalReason := transition.reason
  policyName :=
    if message.policy.name = [] then defaultDeliveryPolicyName else message.policy.name
  attempts := message.attempts
  messageCreated := message.createdAt
  terminalAt := transition.time
  gatewayNode := transition.gatewayNode

/-- `terminalPublicationStatus`. -/
def terminalPublicationStatus (publish : Bool) : TerminalPublicationStatus :=
  if publish then .pending else .disabled

/-- `applyTerminalRecord`: mirror a record's publication state on the message. -/
def applyTerminalRecord (message : Message) (record : TerminalRecord) : Message :=
  { message with
    terminalPublishStatus := record.status
    terminalPublishAttempts := record.publishAttempts
    terminalNextPublishAt := record.nextAttemptAt
    terminalPublishError := record.lastError
    terminalPublishedAt := record.publishedAt }

/-! ## Capacity and store results -/

/-- `QueueCapacity`; a limit that is not positive is disabled. -/
structure QueueCapacity where
  maxPendingGlobal : Int
  maxPendingPerDevice : Int
  deriving DecidableEq

/-- `QueueCapacity.Enabled`. -/
def QueueCapacity.enabled (capacity : QueueCapacity) : Bool :=
  0 < capacity.maxPendingGlobal || 0 < capacity.maxPendingPerDevice

/-- The `Scope` of a `QueueCapacityError`. -/
inductive QueueCapacityScope where
  | global
  | device
  deriving DecidableEq

/-- `QueueCapacityError`. -/
structure QueueCapacityError where
  scope : QueueCapacityScope
  limit : Int
  pending : Nat
  deriving DecidableEq

inductive StoreError where
  | context (err : ContextError)
  | messageNotFound
  | invalidTransition
  | capacity (err : QueueCapacityError)
  | database (err : Library.Sql.Error)
  deriving DecidableEq

/-- `SaveOutcome`. -/
inductive SaveOutcome where
  | created
  | existing
  | conflict

/-- `SaveResult`. -/
structure SaveResult where
  message : Message
  outcome : SaveOutcome

/-- `RetryResult` modes. -/
inductive RetrySelectionMode where
  | fifo
  | fair
  deriving DecidableEq

/-- `RetrySelection`. -/
structure RetrySelection where
  messages : List Message
  mode : RetrySelectionMode
  deviceCount : Nat
  maxPerDevice : Nat

end ZCourier.Downlink
