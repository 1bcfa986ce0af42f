import ZCourier.Library.Table
import ZCourier.Downlink.Fairness
import ZCourier.Downlink.Identity

/-!
# The in-memory store

The methods of `MemoryStore` (`internal/downlink/memory_store.go`). Every method takes the store's
mutex for its whole body, so each is one function from a store to a result and a store. `StoreEnv`
is what a method reads besides its arguments, `StoreCall` lists the calls and `MemoryStore.call`
runs one. The two Go maps are `Table`s: an entry under another key than its own id cannot be
built.
-/

namespace ZCourier.Downlink

open Go Library

/-- `MemoryStore`. -/
structure MemoryStore where
  messages : Table Message.messageID
  terminalEvents : Table fun record : TerminalRecord => record.event.eventID
  deriving DecidableEq

/-- `NewMemoryStore`. -/
def MemoryStore.new : MemoryStore := ⟨.empty, .empty⟩

/-- What a store method reads from its surroundings: `ctx.Err()`, `s.now()` and the result of
`NewMessageID`. -/
structure StoreEnv where
  ctxErr : Option ContextError
  clock : Int
  freshID : GoString

/-- The argument, or the store's clock where the argument is the zero time. -/
def StoreEnv.orClock (env : StoreEnv) (t : Int) : Int :=
  if isZero t then env.clock else t

/-! ## Predicates and orders on messages -/

/-- `claimActive`. -/
def claimActive (message : Message) (now : Int) : Bool :=
  !isZero message.claimUntil && now < message.claimUntil

/-- `messageDueForRetry`. -/
def messageDueForRetry (message : Message) (now ackTimeout : Int) : Bool :=
  if claimActive message now then false
  else
    match message.status with
    | .pending => isZero message.nextRetryAt || message.nextRetryAt ≤ now
    | .sent =>
      if !message.ackRequired then false
      else if !isZero message.nextRetryAt then message.nextRetryAt ≤ now
      else if ackTimeout ≤ 0 || isZero message.sentAt then false
      else message.sentAt + ackTimeout ≤ now
    | _ => false

/-- `retentionTime`. -/
def retentionTime (message : Message) : Int :=
  if !isZero message.updatedAt then message.updatedAt else message.createdAt

/-- The order of `limitMessages`: creation time, then id. -/
def createdLe (left right : Message) : Bool :=
  if left.createdAt = right.createdAt then left.messageID ≤ right.messageID
  else left.createdAt < right.createdAt

/-- The order of `DeleteExpired`: retention time, then id. -/
def retentionLe (left right : Message) : Bool :=
  if retentionTime left = retentionTime right then left.messageID ≤ right.messageID
  else retentionTime left < retentionTime right

/-- The order of `ClaimDueTerminal`: time of the terminal transition, then event id. -/
def terminalLe (left right : TerminalRecord) : Bool :=
  if left.event.terminalAt = right.event.terminalAt then left.event.eventID ≤ right.event.eventID
  else left.event.terminalAt < right.event.terminalAt

/-- `limitMessages`. -/
def limitMessages (messages : List Message) (limit : Int) : List Message :=
  let sorted := messages.mergeSort createdLe
  if 0 < limit then sorted.take limit.toNat else sorted

/-- The condition under which `ClaimDueTerminal` picks a record. -/
def terminalDue (record : TerminalRecord) (now : Int) : Bool :=
  (record.status = .pending || record.status = .failed) &&
    (isZero record.nextAttemptAt || record.nextAttemptAt ≤ now) &&
    (isZero record.claimUntil || record.claimUntil ≤ now)

/-- A record that `hasUnpublishedTerminalEvent` counts. -/
def TerminalRecord.unpublished (record : TerminalRecord) : Bool :=
  record.status = .pending || record.status = .failed

/-! ## What the methods write -/

/-- The assignments of `ClaimDueRetryFair`. -/
def Message.claimed (owner : GoString) (expiry now : Int) (message : Message) : Message :=
  { message with claimOwner := owner, claimUntil := expiry, updatedAt := now }

/-- The assignments of `MarkSent`. -/
def Message.sent (message : Message) (sessionID : GoString) (sentAt nextRetryAt now : Int) :
    Message :=
  { message with
    sessionID := sessionID
    status := .sent
    attempts := message.attempts + 1
    lastError := []
    nextRetryAt := nextRetryAt
    claimOwner := []
    claimUntil := 0
    sentAt := sentAt
    updatedAt := now }

/-- The assignments of `MarkDelivered`. -/
def Message.delivered (message : Message) (deliveredAt : Int) : Message :=
  { message with
    status := .delivered
    lastError := []
    nextRetryAt := 0
    claimOwner := []
    claimUntil := 0
    deliveredAt := deliveredAt
    updatedAt := deliveredAt }

/-- The assignments of `MarkAttemptFailed`. -/
def Message.attemptFailed (message : Message) (reason : GoString) (nextRetryAt now : Int) :
    Message :=
  { message with
    status := .pending
    attempts := message.attempts + 1
    lastError := reason
    nextRetryAt := nextRetryAt
    claimOwner := []
    claimUntil := 0
    updatedAt := now }

/-- The assignments of `RequeueWithCapacity`. -/
def Message.requeued (message : Message) (requeuedAt : Int) : Message :=
  { message with
    status := .pending
    attempts := 0
    lastError := []
    nextRetryAt := 0
    claimOwner := []
    claimUntil := 0
    sessionID := []
    sentAt := 0
    deliveredAt := 0
    terminalReason := []
    terminalAt := 0
    terminalPublishStatus := .unset
    terminalPublishAttempts := 0
    terminalNextPublishAt := 0
    terminalPublishError := []
    terminalPublishedAt := 0
    updatedAt := requeuedAt }

/-- The assignments `MarkFailed` and `Discard` always make. -/
def Message.ended (message : Message) (status : MessageStatus) (attempts : Nat)
    (lastError : GoString) (time : Int) : Message :=
  { message with
    status := status
    attempts := attempts
    lastError := lastError
    nextRetryAt := 0
    claimOwner := []
    claimUntil := 0
    updatedAt := time }

/-- The assignments `MarkFailed` and `Discard` make on the first transition. -/
def Message.entered (message : Message) (transition : TerminalTransition) : Message :=
  { message with
    terminalReason := transition.reason
    terminalAt := transition.time
    terminalPublishStatus := terminalPublicationStatus transition.publish
    terminalPublishAttempts := 0
    terminalNextPublishAt := 0
    terminalPublishError := []
    terminalPublishedAt := 0 }

/-- What `MarkTerminalPublished` mirrors on the message. -/
def Message.published (publishAttempts : Nat) (publishedAt : Int) (message : Message) : Message :=
  { message with
    terminalPublishStatus := .published
    terminalPublishAttempts := publishAttempts
    terminalNextPublishAt := 0
    terminalPublishError := []
    terminalPublishedAt := publishedAt }

/-- What `MarkTerminalPublishFailed` mirrors on the message. -/
def Message.publishFailed (publishAttempts : Nat) (reason : GoString) (nextAttemptAt : Int)
    (message : Message) : Message :=
  { message with
    terminalPublishStatus := .failed
    terminalPublishAttempts := publishAttempts
    terminalNextPublishAt := nextAttemptAt
    terminalPublishError := reason }

def TerminalRecord.new (event : TerminalEvent) : TerminalRecord :=
  ⟨event, .pending, 0, 0, [], 0, [], 0⟩

/-- The assignments of `ClaimDueTerminal`. -/
def TerminalRecord.claimed (owner : GoString) (expiry : Int) (record : TerminalRecord) :
    TerminalRecord :=
  { record with claimOwner := owner, claimUntil := expiry }

/-- The assignments of `MarkTerminalPublished`. -/
def TerminalRecord.published (record : TerminalRecord) (publishedAt : Int) : TerminalRecord :=
  { record with
    status := .published
    publishAttempts := record.publishAttempts + 1
    nextAttemptAt := 0
    lastError := []
    publishedAt := publishedAt
    claimOwner := []
    claimUntil := 0 }

/-- The assignments of `MarkTerminalPublishFailed`. -/
def TerminalRecord.publishFailed (record : TerminalRecord) (reason : GoString)
    (nextAttemptAt : Int) : TerminalRecord :=
  { record with
    status := .failed
    publishAttempts := record.publishAttempts + 1
    nextAttemptAt := nextAttemptAt
    lastError := reason
    claimOwner := []
    claimUntil := 0 }

@[simp] theorem Message.claimed_status (owner : GoString) (expiry now : Int) (message : Message) :
    (message.claimed owner expiry now).status = message.status := rfl

@[simp] theorem Message.sent_status (message : Message) (sessionID : GoString)
    (sentAt nextRetryAt now : Int) :
    (message.sent sessionID sentAt nextRetryAt now).status = .sent := rfl

@[simp] theorem Message.delivered_status (message : Message) (deliveredAt : Int) :
    (message.delivered deliveredAt).status = .delivered := rfl

@[simp] theorem Message.attemptFailed_status (message : Message) (reason : GoString)
    (nextRetryAt now : Int) :
    (message.attemptFailed reason nextRetryAt now).status = .pending := rfl

@[simp] theorem Message.requeued_status (message : Message) (requeuedAt : Int) :
    (message.requeued requeuedAt).status = .pending := rfl

namespace MemoryStore

/-- `retryCandidatesLocked`. -/
def retryCandidates (s : MemoryStore) (now ackTimeout : Int) : List Message :=
  s.messages.rows.filter fun message => messageDueForRetry message now ackTimeout

/-- `hasUnpublishedTerminalEvent`. -/
def hasUnpublishedTerminalEvent (s : MemoryStore) (messageID : GoString) : Bool :=
  s.terminalEvents.rows.any fun record =>
    record.event.messageID = messageID && record.unpublished

/-- The number of pending messages. -/
def globalPending (s : MemoryStore) : Nat :=
  s.messages.count fun message => message.status = .pending

def devicePending (s : MemoryStore) (clientID deviceID : GoString) : Nat :=
  s.messages.count fun message =>
    message.status = .pending && (message.clientID = clientID && message.deviceID = deviceID)

/-- `checkQueueCapacityLocked`. -/
def checkQueueCapacity (s : MemoryStore) (clientID deviceID : GoString)
    (capacity : QueueCapacity) : Option QueueCapacityError :=
  if !capacity.enabled then none
  else if 0 < capacity.maxPendingGlobal && capacity.maxPendingGlobal ≤ s.globalPending then
    some ⟨.global, capacity.maxPendingGlobal, s.globalPending⟩
  else if 0 < capacity.maxPendingPerDevice &&
      capacity.maxPendingPerDevice ≤ s.devicePending clientID deviceID then
    some ⟨.device, capacity.maxPendingPerDevice, s.devicePending clientID deviceID⟩
  else none

/-- `s.messages[message.MessageID] = message`. -/
def putMessage (s : MemoryStore) (message : Message) : MemoryStore :=
  { s with messages := s.messages.put message }

/-- `s.terminalEvents[record.Event.EventID] = record`. -/
def putRecord (s : MemoryStore) (record : TerminalRecord) : MemoryStore :=
  { s with terminalEvents := s.terminalEvents.put record }

/-! ## Saving and reading -/

/-- The defaults `SaveWithCapacity` fills in before it takes the lock. -/
def prepareMessage [Sha256] (message : Message) (env : StoreEnv) : Message :=
  let message :=
    { message with
      messageID := if message.messageID = [] then env.freshID else message.messageID
      status := if message.status = MessageStatus.unset then .pending else message.status
      createdAt := env.orClock message.createdAt
      updatedAt := env.orClock message.updatedAt }
  { message with identityFingerprint := messageIdentityFingerprint message }

/-- `SaveWithCapacity`. -/
def saveWithCapacity [Sha256] (s : MemoryStore) (env : StoreEnv) (message : Message)
    (capacity : QueueCapacity) : Except StoreError SaveResult × MemoryStore :=
  match env.ctxErr with
  | some err => (.error (.context err), s)
  | none =>
    let message := prepareMessage message env
    match s.messages.get? message.messageID with
    | some existing =>
      -- rows written before fingerprints existed get theirs on the first resubmission
      let stale := existing.identityFingerprint.length ≠ message.identityFingerprint.length
      let existing :=
        if stale then
          { existing with identityFingerprint := messageIdentityFingerprint existing }
        else existing
      let s := if stale then s.putMessage existing else s
      let outcome :=
        if messagesHaveSameIdentity existing message then SaveOutcome.existing
        else SaveOutcome.conflict
      (.ok ⟨existing, outcome⟩, s)
    | none =>
      match
        if message.status = .pending then
          s.checkQueueCapacity message.clientID message.deviceID capacity
        else none with
      | some err => (.error (.capacity err), s)
      | none => (.ok ⟨message, .created⟩, s.putMessage message)

/-- `Get`. -/
def get (s : MemoryStore) (env : StoreEnv) (messageID : GoString) :
    Except StoreError (Option Message) × MemoryStore :=
  match env.ctxErr with
  | some err => (.error (.context err), s)
  | none => (.ok (s.messages.get? messageID), s)

/-! ## Selecting messages to retry -/

/-- `ListDueRetry`. -/
def listDueRetry (s : MemoryStore) (env : StoreEnv) (now ackTimeout limit : Int) :
    Except StoreError (List Message) × MemoryStore :=
  match env.ctxErr with
  | some err => (.error (.context err), s)
  | none =>
    let now := env.orClock now
    (.ok (limitMessages (s.retryCandidates now ackTimeout) limit), s)

/-- The selection `ListDueRetryFair` and `ClaimDueRetryFair` make. -/
def selectDue (s : MemoryStore) (now ackTimeout limit candidateLimit : Int) : RetrySelection :=
  let (limit, candidateLimit) := normalizeRetrySelectionLimits limit candidateLimit
  fairRetrySelection (limitMessages (s.retryCandidates now ackTimeout) candidateLimit) limit

/-- `ListDueRetryFair`. -/
def listDueRetryFair (s : MemoryStore) (env : StoreEnv)
    (now ackTimeout limit candidateLimit : Int) :
    Except StoreError RetrySelection × MemoryStore :=
  match env.ctxErr with
  | some err => (.error (.context err), s)
  | none =>
    let now := env.orClock now
    (.ok (s.selectDue now ackTimeout limit candidateLimit), s)

/-- The loop of `ClaimDueRetryFair`. A selected message was read under the same lock, so it is
still stored. -/
def claimMessages (owner : GoString) (expiry now : Int) :
    MemoryStore → List Message → List Message × MemoryStore
  | s, [] => ([], s)
  | s, message :: rest =>
    let stored := ((s.messages.get? message.messageID).getD message).claimed owner expiry now
    let (messages, s) := claimMessages owner expiry now (s.putMessage stored) rest
    (stored :: messages, s)

/-- `ClaimDueRetryFair`. -/
def claimDueRetryFair (s : MemoryStore) (env : StoreEnv)
    (now ackTimeout limit candidateLimit : Int) (owner : GoString) (lease : Int) :
    Except StoreError RetrySelection × MemoryStore :=
  match env.ctxErr with
  | some err => (.error (.context err), s)
  | none =>
    if owner = [] then s.listDueRetryFair env now ackTimeout limit candidateLimit
    else
      let now := env.orClock now
      let lease := if lease ≤ 0 then 30 * second else lease
      let selection := s.selectDue now ackTimeout limit candidateLimit
      let (messages, s) := claimMessages owner (now + lease) now s selection.messages
      (.ok { selection with messages := messages }, s)

/-- `ListPendingByClientDevice`. -/
def listPendingByClientDevice (s : MemoryStore) (env : StoreEnv) (clientID deviceID : GoString)
    (limit : Int) : Except StoreError (List Message) × MemoryStore :=
  match env.ctxErr with
  | some err => (.error (.context err), s)
  | none =>
    let messages := s.messages.rows.filter fun message =>
      message.status = .pending && !claimActive message env.clock &&
        (message.clientID = clientID && message.deviceID = deviceID)
    (.ok (limitMessages messages limit), s)

/-! ## Marking outcomes -/

/-- The shape of the methods that change one message: find it and run `edit` on it. -/
def modifyMessage (s : MemoryStore) (env : StoreEnv) (messageID : GoString)
    (edit : Message → Except StoreError MemoryStore) : Except StoreError Unit × MemoryStore :=
  match env.ctxErr with
  | some err => (.error (.context err), s)
  | none =>
    match s.messages.get? messageID with
    | none => (.error .messageNotFound, s)
    | some message =>
      match edit message with
      | .error err => (.error err, s)
      | .ok s => (.ok (), s)

/-- `MarkSent`. -/
def markSent (s : MemoryStore) (env : StoreEnv) (messageID sessionID : GoString)
    (sentAt nextRetryAt : Int) : Except StoreError Unit × MemoryStore :=
  let sentAt := env.orClock sentAt
  s.modifyMessage env messageID fun message =>
    if message.status = .delivered then .ok s
    else if message.status = .discarded then .ok s
    else .ok (s.putMessage (message.sent sessionID sentAt nextRetryAt env.clock))

/-- `MarkDelivered`. -/
def markDelivered (s : MemoryStore) (env : StoreEnv) (messageID clientID deviceID : GoString)
    (deliveredAt : Int) : Except StoreError Unit × MemoryStore :=
  let deliveredAt := env.orClock deliveredAt
  s.modifyMessage env messageID fun message =>
    if message.clientID ≠ clientID || message.deviceID ≠ deviceID then .error .messageNotFound
    else .ok (s.putMessage (message.delivered deliveredAt))

/-- `MarkAttemptFailed`. -/
def markAttemptFailed (s : MemoryStore) (env : StoreEnv) (messageID reason : GoString)
    (nextRetryAt : Int) : Except StoreError Unit × MemoryStore :=
  s.modifyMessage env messageID fun message =>
    if message.status = .delivered || message.status = .discarded then .ok s
    else .ok (s.putMessage (message.attemptFailed reason nextRetryAt env.clock))

/-- What `MarkFailed` and `Discard` have in common: the message enters a terminal status with
the given attempts and last error and, the first time, gets its terminal fields and an outbox
record. A record that exists already is reused. -/
def enterTerminal (s : MemoryStore) (message : Message) (status : MessageStatus) (attempts : Nat)
    (lastError : GoString) (transition : TerminalTransition) : MemoryStore :=
  let ended := message.ended status attempts lastError transition.time
  if message.status ≠ status || message.terminalReason = [] then
    let entered := ended.entered transition
    if transition.publish then
      let event := newTerminalEvent entered status transition
      match s.terminalEvents.get? event.eventID with
      | some record => s.putMessage (applyTerminalRecord entered record)
      | none =>
        let record := TerminalRecord.new event
        (s.putRecord record).putMessage (applyTerminalRecord entered record)
    else s.putMessage entered
  else s.putMessage ended

/-- The time of a transition, supplied by the store's clock where it is zero. -/
def stamped (transition : TerminalTransition) (env : StoreEnv) : TerminalTransition :=
  { transition with time := env.orClock transition.time }

/-- `MarkFailed`. -/
def markFailed (s : MemoryStore) (env : StoreEnv) (messageID : GoString)
    (transition : TerminalTransition) : Except StoreError Unit × MemoryStore :=
  let transition := stamped transition env
  s.modifyMessage env messageID fun message =>
    if message.status = .delivered || message.status = .discarded then .ok s
    else
      let attempts := if transition.attempted then message.attempts + 1 else message.attempts
      .ok (s.enterTerminal message .failed attempts transition.reason transition)

/-- `RequeueWithCapacity`. -/
def requeueWithCapacity (s : MemoryStore) (env : StoreEnv) (messageID : GoString)
    (requeuedAt : Int) (capacity : QueueCapacity) : Except StoreError Unit × MemoryStore :=
  let requeuedAt := env.orClock requeuedAt
  s.modifyMessage env messageID fun message =>
    match
      if message.status ≠ .pending then
        s.checkQueueCapacity message.clientID message.deviceID capacity
      else none with
    | some err => .error (.capacity err)
    | none => .ok (s.putMessage (message.requeued requeuedAt))

/-- The transition `Discard` records: stamped, and with a reason. -/
def discardTransition (transition : TerminalTransition) (env : StoreEnv) : TerminalTransition :=
  let transition := stamped transition env
  { transition with
    reason :=
      if transition.reason = [] then terminalReasonOperatorDiscard else transition.reason }

/-- `Discard`. -/
def discard (s : MemoryStore) (env : StoreEnv) (messageID reason : GoString)
    (transition : TerminalTransition) : Except StoreError Unit × MemoryStore :=
  let transition := discardTransition transition env
  s.modifyMessage env messageID fun message =>
    .ok (s.enterTerminal message .discarded message.attempts reason transition)

/-! ## The outbox -/

/-- The records `ClaimDueTerminal` chooses. -/
def selectDueTerminal (s : MemoryStore) (now limit : Int) : List TerminalRecord :=
  let limit := if limit ≤ 0 then 100 else limit
  let due := s.terminalEvents.rows.filter fun record => terminalDue record now
  (due.mergeSort terminalLe).take limit.toNat

/-- The loop of `ClaimDueTerminal` over the chosen records. -/
def claimRecords (owner : GoString) (expiry : Int) :
    MemoryStore → List TerminalRecord → List TerminalRecord × MemoryStore
  | s, [] => ([], s)
  | s, record :: rest =>
    let record := record.claimed owner expiry
    let (records, s) := claimRecords owner expiry (s.putRecord record) rest
    (record :: records, s)

/-- `ClaimDueTerminal`. -/
def claimDueTerminal (s : MemoryStore) (env : StoreEnv) (now limit : Int) (owner : GoString)
    (lease : Int) : Except StoreError (List TerminalRecord) × MemoryStore :=
  match env.ctxErr with
  | some err => (.error (.context err), s)
  | none =>
    let now := env.orClock now
    let lease := if lease ≤ 0 then 30 * second else lease
    let (records, s) := claimRecords owner (now + lease) s (s.selectDueTerminal now limit)
    (.ok records, s)

/-- Change the message with the given id if its status is the given one. -/
def mirror (s : MemoryStore) (messageID : GoString) (status : MessageStatus)
    (edit : Message → Message) : MemoryStore :=
  match s.messages.get? messageID with
  | none => s
  | some message => if message.status = status then s.putMessage (edit message) else s

/-- The shape of the methods that report a publication: a record that is not yet published is
replaced, and the message that is still in its status mirrors the change. -/
def modifyRecord (s : MemoryStore) (env : StoreEnv) (messageID : GoString)
    (status : MessageStatus) (edit : TerminalRecord → TerminalRecord)
    (mirrored : TerminalRecord → Message → Message) : Except StoreError Unit × MemoryStore :=
  match env.ctxErr with
  | some err => (.error (.context err), s)
  | none =>
    match s.terminalEvents.get? (terminalEventID messageID status) with
    | none => (.error .messageNotFound, s)
    | some record =>
      if record.status = .published then (.ok (), s)
      else
        let record := edit record
        (.ok (), (s.putRecord record).mirror messageID status (mirrored record))

/-- `MarkTerminalPublished`. -/
def markTerminalPublished (s : MemoryStore) (env : StoreEnv) (messageID : GoString)
    (status : MessageStatus) (publishedAt : Int) : Except StoreError Unit × MemoryStore :=
  let publishedAt := env.orClock publishedAt
  s.modifyRecord env messageID status (fun record => record.published publishedAt)
    fun record => Message.published record.publishAttempts publishedAt

/-- `MarkTerminalPublishFailed`. -/
def markTerminalPublishFailed (s : MemoryStore) (env : StoreEnv) (messageID : GoString)
    (status : MessageStatus) (reason : GoString) (nextAttemptAt : Int) :
    Except StoreError Unit × MemoryStore :=
  s.modifyRecord env messageID status (fun record => record.publishFailed reason nextAttemptAt)
    fun record => Message.publishFailed record.publishAttempts reason nextAttemptAt

/-! ## Retention -/

/-- `delete` of one message and of both its outbox records. -/
def deleteMessage (s : MemoryStore) (messageID : GoString) : MemoryStore where
  messages := s.messages.erase messageID
  terminalEvents := (s.terminalEvents.erase (terminalEventID messageID .failed)).erase
    (terminalEventID messageID .discarded)

/-- The messages `DeleteExpired` removes. -/
def expired (s : MemoryStore) (status : MessageStatus) (before limit : Int) : List Message :=
  let limit := if limit ≤ 0 then 1000 else limit
  let messages := s.messages.rows.filter fun message =>
    message.status = status && !s.hasUnpublishedTerminalEvent message.messageID &&
      (!isZero (retentionTime message) && retentionTime message < before)
  (messages.mergeSort retentionLe).take limit.toNat

/-- `DeleteExpired`. -/
def deleteExpired (s : MemoryStore) (env : StoreEnv) (status : MessageStatus)
    (before limit : Int) : Except StoreError Nat × MemoryStore :=
  match env.ctxErr with
  | some err => (.error (.context err), s)
  | none =>
    if isZero before then (.ok 0, s)
    else
      let messages := s.expired status before limit
      (.ok messages.length, messages.foldl (fun s message => s.deleteMessage message.messageID) s)

end MemoryStore

/-! ## Calls -/

inductive StoreCall where
  | saveWithCapacity (message : Message) (capacity : QueueCapacity)
  | get (messageID : GoString)
  | listDueRetry (now ackTimeout limit : Int)
  | listDueRetryFair (now ackTimeout limit candidateLimit : Int)
  | claimDueRetryFair (now ackTimeout limit candidateLimit : Int) (owner : GoString) (lease : Int)
  | listPendingByClientDevice (clientID deviceID : GoString) (limit : Int)
  | markSent (messageID sessionID : GoString) (sentAt nextRetryAt : Int)
  | markDelivered (messageID clientID deviceID : GoString) (deliveredAt : Int)
  | markAttemptFailed (messageID reason : GoString) (nextRetryAt : Int)
  | markFailed (messageID : GoString) (transition : TerminalTransition)
  | requeueWithCapacity (messageID : GoString) (requeuedAt : Int) (capacity : QueueCapacity)
  | discard (messageID reason : GoString) (transition : TerminalTransition)
  | claimDueTerminal (now limit : Int) (owner : GoString) (lease : Int)
  | markTerminalPublished (messageID : GoString) (status : MessageStatus) (publishedAt : Int)
  | markTerminalPublishFailed (messageID : GoString) (status : MessageStatus) (reason : GoString)
      (nextAttemptAt : Int)
  | deleteExpired (status : MessageStatus) (before limit : Int)
  deriving DecidableEq

/-- What a call returns when it succeeds. -/
@[reducible] def StoreCall.Value : StoreCall → Type
  | .saveWithCapacity .. => SaveResult
  | .get .. => Option Message
  | .listDueRetry .. | .listPendingByClientDevice .. => List Message
  | .listDueRetryFair .. | .claimDueRetryFair .. => RetrySelection
  | .markSent .. | .markDelivered .. | .markAttemptFailed .. | .markFailed ..
  | .requeueWithCapacity .. | .discard .. | .markTerminalPublished ..
  | .markTerminalPublishFailed .. => Unit
  | .claimDueTerminal .. => List TerminalRecord
  | .deleteExpired .. => Nat

def MemoryStore.call [Sha256] (s : MemoryStore) (env : StoreEnv) :
    (call : StoreCall) → Except StoreError call.Value × MemoryStore
  | .saveWithCapacity message capacity => s.saveWithCapacity env message capacity
  | .get messageID => s.get env messageID
  | .listDueRetry now ackTimeout limit => s.listDueRetry env now ackTimeout limit
  | .listDueRetryFair now ackTimeout limit candidateLimit =>
    s.listDueRetryFair env now ackTimeout limit candidateLimit
  | .claimDueRetryFair now ackTimeout limit candidateLimit owner lease =>
    s.claimDueRetryFair env now ackTimeout limit candidateLimit owner lease
  | .listPendingByClientDevice clientID deviceID limit =>
    s.listPendingByClientDevice env clientID deviceID limit
  | .markSent messageID sessionID sentAt nextRetryAt =>
    s.markSent env messageID sessionID sentAt nextRetryAt
  | .markDelivered messageID clientID deviceID deliveredAt =>
    s.markDelivered env messageID clientID deviceID deliveredAt
  | .markAttemptFailed messageID reason nextRetryAt =>
    s.markAttemptFailed env messageID reason nextRetryAt
  | .markFailed messageID transition => s.markFailed env messageID transition
  | .requeueWithCapacity messageID requeuedAt capacity =>
    s.requeueWithCapacity env messageID requeuedAt capacity
  | .discard messageID reason transition => s.discard env messageID reason transition
  | .claimDueTerminal now limit owner lease => s.claimDueTerminal env now limit owner lease
  | .markTerminalPublished messageID status publishedAt =>
    s.markTerminalPublished env messageID status publishedAt
  | .markTerminalPublishFailed messageID status reason nextAttemptAt =>
    s.markTerminalPublishFailed env messageID status reason nextAttemptAt
  | .deleteExpired status before limit => s.deleteExpired env status before limit

end ZCourier.Downlink
