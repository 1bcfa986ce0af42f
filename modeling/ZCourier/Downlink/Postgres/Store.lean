import ZCourier.Library.Program
import ZCourier.Downlink.Cursor
import ZCourier.Downlink.Postgres.Schema

/-!
# The Postgres store

The methods of `PostgresStore` (`internal/downlink/postgres_store.go`), with each SQL statement read
as a function on table contents. A `Transaction` commits as a whole; an error rolls it back.
`PostgresStatement` lists the units of work, `PostgresStore.exec` runs one, and `postgresProgram` is
the sequence of them a store call makes. The order of `RETURNING` is that of the table here; nothing
about it is used.
-/

namespace ZCourier.Downlink

open Go Library Library.Sql

/-- The committed contents of the two tables. -/
structure PostgresStore where
  messages : Table fun row : MessageRow => row.messageID.val
  events : Table fun row : EventRow => row.eventID.val

/-- The tables right after the migration. -/
def PostgresStore.empty : PostgresStore := ⟨.empty, .empty⟩

theorem PostgresStore.messageID_of_get? {p : PostgresStore} {id : GoString} {row : MessageRow}
    (h : p.messages.get? id = some row) : row.messageID.val = id := by
  have hkey := Table.key_of_get? h
  exact hkey

/-- What a store method reads besides its arguments, and whether the driver sends a nil byte
slice as NULL. -/
structure PostgresEnv extends StoreEnv where
  nilAsNull : Bool

/-! ## Units of work -/

/-- A statement or a transaction: it commits as a whole or fails. -/
abbrev Transaction (α : Type) := StateT PostgresStore (Except StoreError) α

/-- A value the server or the driver may refuse. -/
def parameter {α : Type} (value : Except Sql.Error α) : Transaction α := fun p =>
  match value with
  | .ok a => .ok (a, p)
  | .error err => .error (.database err)

def textParameter (text : GoString) : Transaction Text :=
  parameter (Text.of text)

/-- `SELECT … FROM z_courier_downlink_messages WHERE message_id = $1`, scanned. -/
def selectMessage (messageID : GoString) : Transaction (Option Message) := do
  let id ← textParameter messageID
  match (← get).messages.get? id.val with
  | none => return none
  | some row => return some (← parameter (scanMessage.read row.columns))

/-- `insertPostgresMessage`: `ON CONFLICT (message_id) DO NOTHING` returns no row. -/
def insertPostgresMessage (nilAsNull : Bool) (message : Message) :
    Transaction (Option Message) := do
  let row ← parameter (insertMessage.read (insertMessageArgs nilAsNull message))
  let p ← get
  match p.messages.get? row.messageID.val with
  | some _ => return none
  | none =>
    set { p with messages := p.messages.put row }
    return some (← parameter (scanMessage.read row.columns))

/-- `UPDATE z_courier_downlink_messages SET … WHERE message_id = $1 AND …`, with the number of
rows affected. -/
def updateMessage (messageID : GoString) (condition : MessageRow → Bool)
    (assign : MessageRow → Except Sql.Error MessageRow) : Transaction Nat := do
  let id ← textParameter messageID
  let p ← get
  match p.messages.get? id.val with
  | none => return 0
  | some row =>
    if condition row then
      let row ← parameter (assign row)
      set { p with messages := p.messages.put row }
      return 1
    else return 0

/-- `requireAffected`. -/
def requireAffected (affected : Nat) : Transaction Unit :=
  if affected = 0 then throw .messageNotFound else return ()

theorem parameter_ok {α : Type} {a : α} {value : Except Sql.Error α} (h : value = .ok a)
    (p : PostgresStore) : parameter value p = .ok (a, p) := by
  rw [h]
  rfl

theorem text_parameter_ok {text : GoString} (h : validText text = true) (p : PostgresStore) :
    textParameter text p = .ok (⟨text, h⟩, p) :=
  parameter_ok (Text.of_valid h) p

/-- Going on after a unit of work that succeeds. -/
theorem transaction_bind_ok {α β : Type} {first : Transaction α} {rest : α → Transaction β}
    {p p' : PostgresStore} {a : α} (h : first p = .ok (a, p')) :
    (first >>= rest) p = rest a p' := by
  change (first p).bind (fun x => rest x.1 x.2) = _
  rw [h]
  rfl

theorem transaction_get {β : Type} {rest : PostgresStore → Transaction β} {p : PostgresStore} :
    ((get : Transaction PostgresStore) >>= rest) p = rest p p := rfl

theorem transaction_set {β : Type} {rest : PUnit → Transaction β} {p p' : PostgresStore} :
    ((set p' : Transaction PUnit) >>= rest) p = rest ⟨⟩ p' := rfl

/-! ## Saving -/

/-- `UPDATE … SET identity_fingerprint = $2 WHERE message_id = $1 AND
octet_length(identity_fingerprint) = 0`. -/
def refreshFingerprint (messageID : GoString) (fingerprint : Bytes) : Transaction Nat :=
  updateMessage messageID (fun row => row.identityFingerprint.length = 0) fun row =>
    .ok { row with identityFingerprint := fingerprint }

/-- `countPostgresPending`: without a client and a device, of all devices. -/
def countPostgresPending (clientID deviceID : GoString) : Transaction Nat := do
  if clientID = [] && deviceID = [] then
    return (← get).messages.count fun row => row.status = .pending
  else
    let client ← textParameter clientID
    let device ← textParameter deviceID
    return (← get).messages.count fun row =>
      row.status = .pending && (row.clientID = client && row.deviceID = device)

/-- `checkPostgresQueueCapacity`. -/
def checkPostgresQueueCapacity (clientID deviceID : GoString) (capacity : QueueCapacity) :
    Transaction Unit := do
  if 0 < capacity.maxPendingGlobal then
    let pending ← countPostgresPending [] []
    if capacity.maxPendingGlobal ≤ pending then
      throw (.capacity ⟨.global, capacity.maxPendingGlobal, pending⟩)
  if 0 < capacity.maxPendingPerDevice then
    let pending ← countPostgresPending clientID deviceID
    if capacity.maxPendingPerDevice ≤ pending then
      throw (.capacity ⟨.device, capacity.maxPendingPerDevice, pending⟩)

section

variable [Sha256]

/-- `saveResultForExisting`. -/
def saveResultForExisting (stored incoming : Message) : SaveResult :=
  ⟨stored, if messagesHaveSameIdentity stored incoming then .existing else .conflict⟩

/-- The stored message, with its fingerprint computed if it has none of the right size. -/
def withFingerprint (stored incoming : Message) : Message :=
  if stored.identityFingerprint.length ≠ incoming.identityFingerprint.length then
    { stored with identityFingerprint := messageIdentityFingerprint stored }
  else stored

/-- The transaction of `SaveWithCapacity` for a prepared message. -/
def saveTransaction (nilAsNull : Bool) (message : Message) (capacity : QueueCapacity) :
    Transaction SaveResult := do
  match ← selectMessage message.messageID with
  | some stored =>
    if stored.identityFingerprint.length ≠ message.identityFingerprint.length then
      let _ ← refreshFingerprint stored.messageID (messageIdentityFingerprint stored)
    return saveResultForExisting (withFingerprint stored message) message
  | none =>
    if message.status = .pending then
      checkPostgresQueueCapacity message.clientID message.deviceID capacity
    match ← insertPostgresMessage nilAsNull message with
    | some inserted => return ⟨inserted, .created⟩
    | none => throw .messageNotFound

end

/-! ## Selecting messages to retry -/

/-- The condition of the retry queries. -/
def MessageRow.dueForRetry (now : Timestamp) (includeAckTimeout : Bool) (ackDeadline : Timestamp)
    (row : MessageRow) : Bool :=
  ((row.status = .pending && row.nextRetryAt.all fun t => t.val ≤ now.val) ||
    (row.status = .sent && row.ackRequired &&
      ((row.nextRetryAt.any fun t => t.val ≤ now.val) ||
        (row.nextRetryAt.isNone && includeAckTimeout &&
          row.sentAt.any fun t => t.val ≤ ackDeadline.val)))) &&
  row.claimUntil.all fun t => t.val ≤ now.val

/-- `ORDER BY created_at ASC, message_id ASC`. -/
def MessageRow.createdLe (left right : MessageRow) : Bool :=
  if left.createdAt.val = right.createdAt.val then left.messageID.val ≤ right.messageID.val
  else left.createdAt.val < right.createdAt.val

/-- The rows of the retry queries: due, in order, at most `limit`. -/
def PostgresStore.dueRows (p : PostgresStore) (now ackTimeout limit : Int) : List MessageRow :=
  let due := p.messages.rows.filter
    (MessageRow.dueForRetry (.of now) (0 < ackTimeout) (.of (now - ackTimeout)))
  (due.mergeSort MessageRow.createdLe).take limit.toNat

/-- `ROW_NUMBER() OVER (PARTITION BY client_id, device_id ORDER BY created_at ASC,
message_id ASC)`. -/
def devicePosition (candidates : List MessageRow) (row : MessageRow) : Nat :=
  candidates.countP fun other =>
    (other.clientID = row.clientID && other.deviceID = row.deviceID) &&
      MessageRow.createdLe other row

/-- `ORDER BY device_position ASC, created_at ASC, message_id ASC`. -/
def rankedLe (candidates : List MessageRow) (left right : MessageRow) : Bool :=
  if devicePosition candidates left = devicePosition candidates right then
    MessageRow.createdLe left right
  else devicePosition candidates left < devicePosition candidates right

/-- The rows `ClaimDueRetryFair` updates. -/
def PostgresStore.selectedRows (p : PostgresStore) (now ackTimeout limit candidateLimit : Int) :
    List MessageRow :=
  let candidates := p.dueRows now ackTimeout candidateLimit
  (candidates.mergeSort (rankedLe candidates)).take limit.toNat

/-- The assignments of the claiming queries. -/
def MessageRow.claimed (owner : Text) (expiry now : Timestamp) (row : MessageRow) : MessageRow :=
  { row with claimOwner := owner, claimUntil := some expiry, updatedAt := now }

/-- `scanMessages`. -/
def scanMessages (rows : List MessageRow) : Transaction (List Message) :=
  rows.mapM fun row => parameter (scanMessage.read row.columns)

theorem scan_messages_ok (rows : List MessageRow) (p : PostgresStore) :
    scanMessages rows p = .ok (rows.map MessageRow.message, p) := by
  unfold scanMessages
  induction rows with
  | nil => rfl
  | cons row rest ih =>
    rw [List.mapM_cons, transaction_bind_ok (parameter_ok (scan_message_columns row) p),
      transaction_bind_ok ih]
    rfl

/-- `m.message_id = selected.message_id` for a selected row. -/
def MessageRow.among (selected : List MessageRow) (row : MessageRow) : Bool :=
  selected.any fun other => other.messageID = row.messageID

def MessageRow.claimedIf (selected : List MessageRow) (owner : Text) (expiry now : Timestamp)
    (row : MessageRow) : MessageRow :=
  if row.among selected then row.claimed owner expiry now else row

@[simp] theorem MessageRow.claimedIf_messageID (selected : List MessageRow) (owner : Text)
    (expiry now : Timestamp) (row : MessageRow) :
    (row.claimedIf selected owner expiry now).messageID.val = row.messageID.val := by
  unfold MessageRow.claimedIf
  split <;> rfl

/-- The `UPDATE … FROM selected … RETURNING` of the claiming queries. -/
def claimRows (selected : List MessageRow) (owner : Text) (expiry now : Timestamp) :
    Transaction (List Message) := do
  let p ← get
  let messages := p.messages.update (MessageRow.claimedIf selected owner expiry now)
    (MessageRow.claimedIf_messageID selected owner expiry now)
  set { p with messages }
  scanMessages (messages.rows.filter (MessageRow.among selected))

/-- `listDueRetry`. -/
def listDueRetryRows (now ackTimeout limit : Int) : Transaction (List Message) := do
  scanMessages ((← get).dueRows now ackTimeout limit)

/-- The query of `ClaimDueRetry`. -/
def claimDueRetry (now ackTimeout limit : Int) (owner : GoString) (lease : Int) :
    Transaction (List Message) := do
  let owner ← textParameter owner
  let p ← get
  claimRows (p.dueRows now ackTimeout limit) owner (.of (now + lease)) (.of now)

/-- The query of `ClaimDueRetryFair`. -/
def claimDueRetryFair (now ackTimeout limit candidateLimit : Int) (owner : GoString)
    (lease : Int) : Transaction (List Message) := do
  let owner ← textParameter owner
  let p ← get
  claimRows (p.selectedRows now ackTimeout limit candidateLimit) owner (.of (now + lease))
    (.of now)

/-- `ListPendingByClientDevice`. -/
def listPendingByClientDevice (clientID deviceID : GoString) (now limit : Int) :
    Transaction (List Message) := do
  let client ← textParameter clientID
  let device ← textParameter deviceID
  let pending := (← get).messages.rows.filter fun row =>
    row.status = .pending && (row.clientID = client && row.deviceID = device) &&
      row.claimUntil.all fun t => t.val ≤ (Timestamp.of now).val
  scanMessages ((pending.mergeSort MessageRow.createdLe).take limit.toNat)

/-! ## Listing -/

/-- The condition of `ListByStatusPage` on a row. -/
def MessageRow.listed (status : MessageStatus) (cursor : MessageListCursor) (row : MessageRow) :
    Bool :=
  row.status = status &&
    (messageListCursorIsZero cursor ||
      (row.updatedAt.val < (Timestamp.of cursor.updatedAt).val ||
        (row.updatedAt.val = (Timestamp.of cursor.updatedAt).val &&
          cursor.messageID < row.messageID.val)))

/-- `ORDER BY updated_at DESC, message_id ASC`. -/
def MessageRow.updatedDescLe (left right : MessageRow) : Bool :=
  if left.updatedAt.val = right.updatedAt.val then left.messageID.val ≤ right.messageID.val
  else right.updatedAt.val < left.updatedAt.val

/-- The first query of `ListByStatusPage`. -/
def countByStatus (status : MessageStatus) : Transaction Nat := do
  return (← get).messages.count fun row => row.status = status

/-- The second query of `ListByStatusPage`. -/
def listByStatus (status : MessageStatus) (cursor : MessageListCursor) (limit : Int) :
    Transaction (List Message) := do
  let _ ← textParameter cursor.messageID
  let listed := (← get).messages.rows.filter (MessageRow.listed status cursor)
  scanMessages ((listed.mergeSort MessageRow.updatedDescLe).take limit.toNat)

/-! ## Marking outcomes -/

/-- The assignments of `MarkSent`; its `CASE`s keep delivered and discarded rows. -/
def MessageRow.markSent (sessionID : Text) (sentAt : Timestamp) (nextRetryAt : Option Timestamp)
    (row : MessageRow) : Except Sql.Error MessageRow :=
  if row.status = .delivered || row.status = .discarded then .ok row
  else do
    let attempts ← Integer.of (row.attempts.val + 1)
    return { row with
      status := .sent
      sessionID
      attempts
      lastError := .empty
      nextRetryAt
      claimOwner := .empty
      claimUntil := none
      sentAt := some sentAt
      updatedAt := sentAt }

/-- `MarkSent`. -/
def markSent (messageID sessionID : GoString) (sentAt nextRetryAt : Int) : Transaction Unit := do
  let session ← textParameter sessionID
  let affected ← updateMessage messageID (fun _ => true)
    (MessageRow.markSent session (.of sentAt) (nullTimestamp nextRetryAt))
  requireAffected affected

/-- The assignments of `MarkDelivered`. -/
def MessageRow.markDelivered (deliveredAt : Timestamp) (row : MessageRow) : MessageRow :=
  { row with
    status := .delivered
    lastError := .empty
    nextRetryAt := none
    claimOwner := .empty
    claimUntil := none
    deliveredAt := some deliveredAt
    updatedAt := deliveredAt }

/-- `MarkDelivered`. -/
def markDelivered (messageID clientID deviceID : GoString) (deliveredAt : Int) :
    Transaction Unit := do
  let client ← textParameter clientID
  let device ← textParameter deviceID
  let affected ← updateMessage messageID
    (fun row => row.clientID = client && row.deviceID = device)
    fun row => .ok (row.markDelivered (.of deliveredAt))
  requireAffected affected

/-- The assignments of `MarkAttemptFailed`; its `CASE`s keep delivered and discarded rows. -/
def MessageRow.markAttemptFailed (reason : Text) (nextRetryAt : Option Timestamp)
    (now : Timestamp) (row : MessageRow) : Except Sql.Error MessageRow :=
  if row.status = .delivered || row.status = .discarded then .ok row
  else do
    let attempts ← Integer.of (row.attempts.val + 1)
    return { row with
      status := .pending
      attempts
      lastError := reason
      nextRetryAt
      claimOwner := .empty
      claimUntil := none
      updatedAt := now }

/-- `MarkAttemptFailed`. -/
def markAttemptFailed (messageID reason : GoString) (nextRetryAt now : Int) :
    Transaction Unit := do
  let reason ← textParameter reason
  let affected ← updateMessage messageID (fun _ => true)
    (MessageRow.markAttemptFailed reason (nullTimestamp nextRetryAt) (.of now))
  requireAffected affected

/-- The assignments of `requeuePostgresMessage`. -/
def MessageRow.requeue (requeuedAt : Timestamp) (row : MessageRow) : MessageRow :=
  { row with
    status := .pending
    attempts := .zero
    lastError := .empty
    nextRetryAt := none
    claimOwner := .empty
    claimUntil := none
    sessionID := .empty
    sentAt := none
    deliveredAt := none
    terminalReason := .empty
    terminalAt := none
    terminalPublishStatus := .disabled
    terminalPublishAttempts := .zero
    terminalNextPublishAt := none
    terminalPublishError := .empty
    terminalPublishedAt := none
    updatedAt := requeuedAt }

/-- `requeuePostgresMessage`. -/
def requeuePostgresMessage (messageID : GoString) (requeuedAt : Int) : Transaction Unit := do
  let affected ← updateMessage messageID (fun _ => true) fun row =>
    .ok (row.requeue (.of requeuedAt))
  requireAffected affected

/-- The transaction of `RequeueWithCapacity`. -/
def requeueTransaction (messageID : GoString) (requeuedAt : Int) (capacity : QueueCapacity) :
    Transaction Unit := do
  match ← selectMessage messageID with
  | none => throw .messageNotFound
  | some message =>
    if message.status = .delivered || message.status = .discarded then
      throw .invalidTransition
    if message.status ≠ .pending then
      checkPostgresQueueCapacity message.clientID message.deviceID capacity
    requeuePostgresMessage messageID requeuedAt

/-! ## Terminal transitions -/

/-- The row of a new terminal event; the columns the `INSERT` leaves out get their defaults. -/
def insertEventRow (event : TerminalEvent) : Except Sql.Error EventRow := do
  let eventID ← Text.of event.eventID
  let messageID ← Text.of event.messageID
  let clientID ← Text.of event.clientID
  let deviceID ← Text.of event.deviceID
  let msgID ← Integer.of event.msgID.toNat
  let traceID ← Text.of event.traceID
  let terminalReason ← Text.of event.terminalReason
  let policyName ← Text.of event.policyName
  let attempts ← Integer.of event.attempts
  let gatewayNode ← Text.of event.gatewayNode
  return {
    eventID, messageID, clientID, deviceID, msgID, traceID
    terminalStatus := event.terminalStatus
    terminalReason, policyName, attempts
    messageCreatedAt := .of event.messageCreated
    terminalAt := .of event.terminalAt
    gatewayNode
    publishStatus := .pending
    publishAttempts := .zero
    nextAttemptAt := none
    publishLastError := .empty
    publishedAt := none
    claimOwner := .empty
    claimUntil := none
    updatedAt := .of event.terminalAt }

/-- `scanTerminalRecord`. -/
def EventRow.record (row : EventRow) : TerminalRecord where
  event := {
    eventID := row.eventID.val
    messageID := row.messageID.val
    clientID := row.clientID.val
    deviceID := row.deviceID.val
    msgID := UInt32.ofInt row.msgID.val
    traceID := row.traceID.val
    terminalStatus := row.terminalStatus
    terminalReason := row.terminalReason.val
    policyName := row.policyName.val
    attempts := row.attempts.val.toNat
    messageCreated := row.messageCreatedAt.val
    terminalAt := row.terminalAt.val
    gatewayNode := row.gatewayNode.val }
  status := row.publishStatus
  publishAttempts := row.publishAttempts.val.toNat
  nextAttemptAt := nullableTime row.nextAttemptAt
  lastError := row.publishLastError.val
  publishedAt := nullableTime row.publishedAt
  claimOwner := row.claimOwner.val
  claimUntil := nullableTime row.claimUntil

/-- `INSERT INTO z_courier_downlink_terminal_events … ON CONFLICT (event_id) DO NOTHING`, under
the foreign key on the message and the unique index on message and status. -/
def insertEvent (event : TerminalEvent) : Transaction Unit := do
  let row ← parameter (insertEventRow event)
  let p ← get
  match p.events.get? row.eventID.val with
  | some _ => return ()
  | none =>
    if (p.messages.get? row.messageID.val).isNone ||
        (p.events.rows.any fun other =>
          other.messageID = row.messageID && other.terminalStatus = row.terminalStatus) then
      throw (.database .constraintViolated)
    else set { p with events := p.events.put row }

/-- `SELECT … FROM z_courier_downlink_terminal_events WHERE event_id = $1`, scanned; the
transaction fails where there is no row. -/
def selectRecord (eventID : GoString) : Transaction TerminalRecord := do
  let id ← textParameter eventID
  match (← get).events.get? id.val with
  | none => throw .messageNotFound
  | some row => return row.record

/-- The assignments of the last statement of `transitionTerminal`. -/
def MessageRow.writeTerminal (message : Message) (row : MessageRow) :
    Except Sql.Error MessageRow := do
  let attempts ← Integer.of message.attempts
  let lastError ← Text.of message.lastError
  let terminalReason ← Text.of message.terminalReason
  let terminalPublishAttempts ← Integer.of message.terminalPublishAttempts
  let terminalPublishError ← Text.of message.terminalPublishError
  return { row with
    status := message.status
    attempts
    lastError
    nextRetryAt := none
    claimOwner := .empty
    claimUntil := none
    terminalReason
    terminalAt := nullTimestamp message.terminalAt
    terminalPublishStatus := terminalPublicationStatusValue message.terminalPublishStatus
    terminalPublishAttempts
    terminalNextPublishAt := nullTimestamp message.terminalNextPublishAt
    terminalPublishError
    terminalPublishedAt := nullTimestamp message.terminalPublishedAt
    updatedAt := .of message.updatedAt }

/-- `transitionTerminal`. -/
def transitionTerminal (messageID : GoString) (status : MessageStatus) (lastError : GoString)
    (transition : TerminalTransition) (protectExistingTerminal : Bool) : Transaction Unit := do
  match ← selectMessage messageID with
  | none => throw .messageNotFound
  | some message =>
    if protectExistingTerminal &&
        (message.status = .delivered || message.status = .discarded) then
      return ()
    let firstTransition := message.status ≠ status || message.terminalReason = []
    let attempts := if transition.attempted then message.attempts + 1 else message.attempts
    let message := message.ended status attempts lastError transition.time
    let message := if firstTransition then message.entered transition else message
    let message ←
      if firstTransition && transition.publish then do
        let event := newTerminalEvent message status transition
        insertEvent event
        let record ← selectRecord event.eventID
        pure (applyTerminalRecord message record)
      else pure message
    let _ ← updateMessage messageID (fun _ => true) (MessageRow.writeTerminal message)

/-! ## The outbox -/

/-- The condition of `ClaimDueTerminal`. -/
def EventRow.due (now : Timestamp) (row : EventRow) : Bool :=
  (row.publishStatus = .pending || row.publishStatus = .failed) &&
    (row.nextAttemptAt.all fun t => t.val ≤ now.val) &&
    row.claimUntil.all fun t => t.val ≤ now.val

/-- `ORDER BY terminal_at ASC, event_id ASC`. -/
def EventRow.terminalLe (left right : EventRow) : Bool :=
  if left.terminalAt.val = right.terminalAt.val then left.eventID.val ≤ right.eventID.val
  else left.terminalAt.val < right.terminalAt.val

/-- The assignments of `ClaimDueTerminal`. -/
def EventRow.claimed (owner : Text) (expiry now : Timestamp) (row : EventRow) : EventRow :=
  { row with claimOwner := owner, claimUntil := some expiry, updatedAt := now }

/-- The rows `ClaimDueTerminal` updates. -/
def PostgresStore.dueEvents (p : PostgresStore) (now limit : Int) : List EventRow :=
  let due := p.events.rows.filter (EventRow.due (.of now))
  (due.mergeSort EventRow.terminalLe).take limit.toNat

/-- `event.event_id = claimed.event_id` for a claimed row. -/
def EventRow.among (claimed : List EventRow) (row : EventRow) : Bool :=
  claimed.any fun other => other.eventID = row.eventID

/-- What `ClaimDueTerminal` makes of a row. -/
def EventRow.claimedIf (claimed : List EventRow) (owner : Text) (expiry now : Timestamp)
    (row : EventRow) : EventRow :=
  if row.among claimed then row.claimed owner expiry now else row

@[simp] theorem EventRow.claimedIf_eventID (claimed : List EventRow) (owner : Text)
    (expiry now : Timestamp) (row : EventRow) :
    (row.claimedIf claimed owner expiry now).eventID.val = row.eventID.val := by
  unfold EventRow.claimedIf
  split <;> rfl

/-- `ClaimDueTerminal`. -/
def claimDueTerminal (now limit : Int) (owner : GoString) (lease : Int) :
    Transaction (List TerminalRecord) := do
  let owner ← textParameter owner
  let p ← get
  let claimed := p.dueEvents now limit
  let events := p.events.update (EventRow.claimedIf claimed owner (.of (now + lease)) (.of now))
    (EventRow.claimedIf_eventID claimed owner (.of (now + lease)) (.of now))
  set { p with events }
  return (events.rows.filter (EventRow.among claimed)).map EventRow.record

/-- `beginTerminalEventUpdate`. -/
def beginTerminalEventUpdate (messageID : GoString) : Transaction Unit := do
  let id ← textParameter messageID
  if ((← get).messages.get? id.val).isNone then throw .messageNotFound

/-- The common part of the two statements that report a publication. The unique index admits
one record of the message and the status; unless it is published it is changed, and so is the
message while it has that status. -/
def reportPublication (messageID : GoString) (status : MessageStatus)
    (assign : EventRow → Except Sql.Error EventRow) (mirror : EventRow → MessageRow → MessageRow) :
    Transaction Unit := do
  beginTerminalEventUpdate messageID
  let id ← textParameter messageID
  let p ← get
  let named := fun row : EventRow => row.messageID = id && row.terminalStatus = status
  match p.events.rows.find? fun row => named row && row.publishStatus ≠ .published with
  | none => if p.events.rows.any named then return () else throw .messageNotFound
  | some row =>
    let row ← parameter (assign row)
    set { p with events := p.events.put row }
    let _ ← updateMessage messageID (fun message => message.status = status) fun message =>
      .ok (mirror row message)

/-- The assignments of `MarkTerminalPublished`. -/
def EventRow.markPublished (publishedAt : Timestamp) (row : EventRow) :
    Except Sql.Error EventRow := do
  let publishAttempts ← Integer.of (row.publishAttempts.val + 1)
  return { row with
    publishStatus := .published
    publishAttempts
    nextAttemptAt := none
    publishLastError := .empty
    publishedAt := some publishedAt
    claimOwner := .empty
    claimUntil := none
    updatedAt := publishedAt }

/-- `MarkTerminalPublished`. -/
def markTerminalPublished (messageID : GoString) (status : MessageStatus) (publishedAt : Int) :
    Transaction Unit :=
  reportPublication messageID status (EventRow.markPublished (.of publishedAt))
    fun event row =>
      { row with
        terminalPublishStatus := .published
        terminalPublishAttempts := event.publishAttempts
        terminalNextPublishAt := none
        terminalPublishError := .empty
        terminalPublishedAt := event.publishedAt }

/-- The assignments of `MarkTerminalPublishFailed`. -/
def EventRow.markPublishFailed (reason : Text) (nextAttemptAt : Option Timestamp)
    (now : Timestamp) (row : EventRow) : Except Sql.Error EventRow := do
  let publishAttempts ← Integer.of (row.publishAttempts.val + 1)
  return { row with
    publishStatus := .failed
    publishAttempts
    nextAttemptAt
    publishLastError := reason
    claimOwner := .empty
    claimUntil := none
    updatedAt := now }

/-- `MarkTerminalPublishFailed`. -/
def markTerminalPublishFailed (messageID : GoString) (status : MessageStatus)
    (reason : GoString) (nextAttemptAt now : Int) : Transaction Unit := do
  let reason ← textParameter reason
  reportPublication messageID status
    (EventRow.markPublishFailed reason (nullTimestamp nextAttemptAt) (.of now))
    fun event row =>
      { row with
        terminalPublishStatus := .failed
        terminalPublishAttempts := event.publishAttempts
        terminalNextPublishAt := event.nextAttemptAt
        terminalPublishError := event.publishLastError }

/-! ## Retention -/

/-- `ORDER BY updated_at ASC, message_id ASC`. -/
def MessageRow.updatedLe (left right : MessageRow) : Bool :=
  if left.updatedAt.val = right.updatedAt.val then left.messageID.val ≤ right.messageID.val
  else left.updatedAt.val < right.updatedAt.val

/-- The condition of the CTE of `DeleteExpired`. -/
def PostgresStore.expiredRow (p : PostgresStore) (status : MessageStatus) (before : Timestamp)
    (row : MessageRow) : Bool :=
  row.status = status && row.updatedAt.val < before.val &&
    !p.events.rows.any fun event =>
      event.messageID = row.messageID &&
        (event.publishStatus = .pending || event.publishStatus = .failed)

/-- The CTE of `DeleteExpired`: message ids from a snapshot of committed rows. -/
def pickExpired (status : MessageStatus) (before limit : Int) : Transaction (List Text) := do
  let p ← get
  let expired := p.messages.rows.filter (p.expiredRow status (.of before))
  return ((expired.mergeSort MessageRow.updatedLe).take limit.toNat).map MessageRow.messageID

/-- The `DELETE` of `DeleteExpired`: rows with the picked ids, and by cascade their events. -/
def deletePicked (ids : List Text) : Transaction Nat := do
  let p ← get
  set (PostgresStore.mk (p.messages.keep fun row => !ids.contains row.messageID)
    (p.events.keep fun event => !ids.contains event.messageID))
  return p.messages.count fun row => ids.contains row.messageID

/-! ## Statements and programs -/

/-- The units of work of the store's methods, with their arguments. -/
inductive PostgresStatement where
  | insertMessage (message : Message)
  | selectMessage (messageID : GoString)
  | refreshFingerprint (messageID : GoString) (fingerprint : Bytes)
  | saveTransaction (message : Message) (capacity : QueueCapacity)
  | listDueRetry (now ackTimeout limit : Int)
  | claimDueRetry (now ackTimeout limit : Int) (owner : GoString) (lease : Int)
  | claimDueRetryFair (now ackTimeout limit candidateLimit : Int) (owner : GoString) (lease : Int)
  | listPendingByClientDevice (clientID deviceID : GoString) (limit : Int)
  | countByStatus (status : MessageStatus)
  | listByStatus (status : MessageStatus) (cursor : MessageListCursor) (limit : Int)
  | markSent (messageID sessionID : GoString) (sentAt nextRetryAt : Int)
  | markDelivered (messageID clientID deviceID : GoString) (deliveredAt : Int)
  | markAttemptFailed (messageID reason : GoString) (nextRetryAt : Int)
  | transitionTerminal (messageID : GoString) (status : MessageStatus) (lastError : GoString)
      (transition : TerminalTransition) (protectExistingTerminal : Bool)
  | requeue (messageID : GoString) (requeuedAt : Int)
  | requeueTransaction (messageID : GoString) (requeuedAt : Int) (capacity : QueueCapacity)
  | claimDueTerminal (now limit : Int) (owner : GoString) (lease : Int)
  | markTerminalPublished (messageID : GoString) (status : MessageStatus) (publishedAt : Int)
  | markTerminalPublishFailed (messageID : GoString) (status : MessageStatus) (reason : GoString)
      (nextAttemptAt : Int)
  | pickExpired (status : MessageStatus) (before limit : Int)
  | deletePicked (ids : List Text)
  deriving DecidableEq

/-- What a unit of work returns when it succeeds. Inserting also returns the message as
`prepareMessageForSave` filled it in. -/
@[reducible] def PostgresStatement.Value : PostgresStatement → Type
  | .insertMessage .. => Message × Option Message
  | .selectMessage .. => Option Message
  | .refreshFingerprint .. | .countByStatus .. | .deletePicked .. => Nat
  | .saveTransaction .. => SaveResult
  | .listDueRetry .. | .claimDueRetry .. | .claimDueRetryFair ..
  | .listPendingByClientDevice .. | .listByStatus .. => List Message
  | .markSent .. | .markDelivered .. | .markAttemptFailed .. | .transitionTerminal ..
  | .requeue .. | .requeueTransaction .. | .markTerminalPublished ..
  | .markTerminalPublishFailed .. => Unit
  | .claimDueTerminal .. => List TerminalRecord
  | .pickExpired .. => List Text

/-- The outcome of a unit of work. -/
abbrev PostgresStatement.Response (statement : PostgresStatement) : Type :=
  Except StoreError statement.Value

/-- The limit of a query, 100 unless it is positive. -/
def limitOr (default limit : Int) : Int :=
  if limit ≤ 0 then default else limit

/-- The lease of a claim, 30 s unless it is positive. -/
def leaseOr (lease : Int) : Int :=
  if lease ≤ 0 then 30 * second else lease

section

variable [Sha256]

/-- What a unit of work does. -/
def PostgresStatement.body (env : PostgresEnv) :
    (statement : PostgresStatement) → Transaction statement.Value
  | .insertMessage message => do
      let message := MemoryStore.prepareMessage message env.toStoreEnv
      return (message, ← insertPostgresMessage env.nilAsNull message)
  | .selectMessage messageID => Downlink.selectMessage messageID
  | .refreshFingerprint messageID fingerprint =>
    Downlink.refreshFingerprint messageID fingerprint
  | .saveTransaction message capacity =>
    Downlink.saveTransaction env.nilAsNull
      (MemoryStore.prepareMessage message env.toStoreEnv) capacity
  | .listDueRetry now ackTimeout limit => listDueRetryRows (env.orClock now) ackTimeout limit
  | .claimDueRetry now ackTimeout limit owner lease =>
    Downlink.claimDueRetry (env.orClock now) ackTimeout limit owner lease
  | .claimDueRetryFair now ackTimeout limit candidateLimit owner lease =>
    Downlink.claimDueRetryFair (env.orClock now) ackTimeout limit candidateLimit owner lease
  | .listPendingByClientDevice clientID deviceID limit =>
    Downlink.listPendingByClientDevice clientID deviceID env.clock limit
  | .countByStatus status => Downlink.countByStatus status
  | .listByStatus status cursor limit => Downlink.listByStatus status cursor limit
  | .markSent messageID sessionID sentAt nextRetryAt =>
    Downlink.markSent messageID sessionID (env.orClock sentAt) nextRetryAt
  | .markDelivered messageID clientID deviceID deliveredAt =>
    Downlink.markDelivered messageID clientID deviceID (env.orClock deliveredAt)
  | .markAttemptFailed messageID reason nextRetryAt =>
    Downlink.markAttemptFailed messageID reason nextRetryAt env.clock
  | .transitionTerminal messageID status lastError transition protectExistingTerminal =>
    Downlink.transitionTerminal messageID status lastError
      (MemoryStore.stamped transition env.toStoreEnv) protectExistingTerminal
  | .requeue messageID requeuedAt =>
    requeuePostgresMessage messageID (env.orClock requeuedAt)
  | .requeueTransaction messageID requeuedAt capacity =>
    Downlink.requeueTransaction messageID (env.orClock requeuedAt) capacity
  | .claimDueTerminal now limit owner lease =>
    Downlink.claimDueTerminal (env.orClock now) limit owner lease
  | .markTerminalPublished messageID status publishedAt =>
    Downlink.markTerminalPublished messageID status (env.orClock publishedAt)
  | .markTerminalPublishFailed messageID status reason nextAttemptAt =>
    Downlink.markTerminalPublishFailed messageID status reason nextAttemptAt env.clock
  | .pickExpired status before limit => Downlink.pickExpired status before limit
  | .deletePicked ids => Downlink.deletePicked ids

/-- Run a unit of work: a cancelled context or an error leaves the tables as they are. -/
def PostgresStore.exec (env : PostgresEnv) (statement : PostgresStatement) (p : PostgresStore) :
    statement.Response × PostgresStore :=
  match env.ctxErr with
  | some err => (.error (.context err), p)
  | none =>
    match statement.body env p with
    | .ok (value, p) => (.ok value, p)
    | .error err => (.error err, p)

/-- The code of a store method. -/
abbrev PostgresCode (α : Type) :=
  Prog PostgresStatement PostgresStatement.Response (Except StoreError α)

/-- A method that is one unit of work. -/
def PostgresCode.just (statement : PostgresStatement) : PostgresCode statement.Value :=
  .perform statement .ret

/-- Go on with the value of a unit of work, or return its error. -/
def PostgresCode.andThen {α : Type} (statement : PostgresStatement)
    (rest : statement.Value → PostgresCode α) : PostgresCode α :=
  .perform statement fun
    | .ok value => rest value
    | .error err => .ret (.error err)

/-- `Save`. -/
def savePostgres (message : Message) : PostgresCode SaveResult :=
  .andThen (.insertMessage message) fun
    | (_, some inserted) => .ret (.ok ⟨inserted, .created⟩)
    | (message, none) =>
      .andThen (.selectMessage message.messageID) fun
        | none => .ret (.error .messageNotFound)
        | some stored =>
          let result := saveResultForExisting (withFingerprint stored message) message
          if stored.identityFingerprint.length ≠ message.identityFingerprint.length then
            .andThen (.refreshFingerprint stored.messageID (messageIdentityFingerprint stored))
              fun _ => .ret (.ok result)
          else .ret (.ok result)

/-- `ListDueRetryFair`. -/
def listDueRetryFairPostgres (now ackTimeout limit candidateLimit : Int) :
    PostgresCode RetrySelection :=
  let (limit, candidateLimit) := normalizeRetrySelectionLimits limit candidateLimit
  .andThen (.listDueRetry now ackTimeout candidateLimit) fun candidates =>
    .ret (.ok (fairRetrySelection candidates limit))

/-- `ClaimDueRetry`. -/
def claimDueRetryPostgres (now ackTimeout limit : Int) (owner : GoString) (lease : Int) :
    PostgresCode (List Message) :=
  if owner = [] then .just (.listDueRetry now ackTimeout (limitOr 100 limit))
  else .just (.claimDueRetry now ackTimeout (limitOr 100 limit) owner (leaseOr lease))

/-- `ListByStatusPage`. -/
def listByStatusPagePostgres (query : MessageListQuery) : PostgresCode MessageListResult :=
  let query := normalizeMessageListQuery query
  .andThen (.countByStatus query.status) fun total =>
    .andThen (.listByStatus query.status query.cursor (query.limit + 1)) fun found =>
      let hasMore := query.limit < found.length
      let messages := if hasMore then found.take query.limit.toNat else found
      .ret (.ok {
        status := query.status
        limit := query.limit
        cursor := query.cursor
        nextCursor := nextCursorAfter messages hasMore
        hasMore
        total
        messages })

/-- The code of the method a call names. -/
def postgresProgram : (call : StoreCall) → PostgresCode call.Value
  | .saveWithCapacity message capacity =>
    if capacity.enabled then PostgresCode.just (.saveTransaction message capacity)
    else savePostgres message
  | .get messageID => PostgresCode.just (.selectMessage messageID)
  | .listDueRetry now ackTimeout limit =>
    PostgresCode.just (.listDueRetry now ackTimeout (limitOr 100 limit))
  | .listDueRetryFair now ackTimeout limit candidateLimit =>
    listDueRetryFairPostgres now ackTimeout limit candidateLimit
  | .claimDueRetryFair now ackTimeout limit candidateLimit owner lease =>
    let (limit, candidateLimit) := normalizeRetrySelectionLimits limit candidateLimit
    if owner = [] then listDueRetryFairPostgres now ackTimeout limit candidateLimit
    else
      .andThen
        (.claimDueRetryFair now ackTimeout limit candidateLimit owner (leaseOr lease))
        fun messages => .ret (.ok (retrySelectionFromMessages messages .fair))
  | .listPendingByClientDevice clientID deviceID limit =>
    PostgresCode.just (.listPendingByClientDevice clientID deviceID (limitOr 100 limit))
  | .markSent messageID sessionID sentAt nextRetryAt =>
    PostgresCode.just (.markSent messageID sessionID sentAt nextRetryAt)
  | .markDelivered messageID clientID deviceID deliveredAt =>
    PostgresCode.just (.markDelivered messageID clientID deviceID deliveredAt)
  | .markAttemptFailed messageID reason nextRetryAt =>
    PostgresCode.just (.markAttemptFailed messageID reason nextRetryAt)
  | .markFailed messageID transition =>
    PostgresCode.just (.transitionTerminal messageID .failed transition.reason transition true)
  | .requeueWithCapacity messageID requeuedAt capacity =>
    if capacity.enabled then
      PostgresCode.just (.requeueTransaction messageID requeuedAt capacity)
    else PostgresCode.just (.requeue messageID requeuedAt)
  | .discard messageID reason transition =>
    let transition := { transition with
      reason :=
        if transition.reason = [] then terminalReasonOperatorDiscard else transition.reason }
    PostgresCode.just (.transitionTerminal messageID .discarded reason transition false)
  | .claimDueTerminal now limit owner lease =>
    PostgresCode.just (.claimDueTerminal now (limitOr 100 limit) owner (leaseOr lease))
  | .markTerminalPublished messageID status publishedAt =>
    PostgresCode.just (.markTerminalPublished messageID status publishedAt)
  | .markTerminalPublishFailed messageID status reason nextAttemptAt =>
    PostgresCode.just (.markTerminalPublishFailed messageID status reason nextAttemptAt)
  | .deleteExpired status before limit =>
    if isZero before then .ret (.ok 0)
    else
      .andThen (.pickExpired status before (limitOr 1000 limit)) fun ids =>
        PostgresCode.just (.deletePicked ids)

/-- Run the code of a method with nothing in between. -/
def PostgresStore.run {α : Type} (env : PostgresEnv) :
    PostgresCode α → PostgresStore → Except StoreError α × PostgresStore
  | .ret value, p => (value, p)
  | .perform statement next, p =>
    PostgresStore.run env (next (PostgresStore.exec env statement p).1)
      (PostgresStore.exec env statement p).2

def PostgresStore.call (env : PostgresEnv) (call : StoreCall) (p : PostgresStore) :
    Except StoreError call.Value × PostgresStore :=
  p.run env (postgresProgram call)

/-! ## Running code -/

variable {env : PostgresEnv} {p p' : PostgresStore} {α : Type}

theorem exec_ok (henv : env.ctxErr = none) {statement : PostgresStatement}
    {value : statement.Value} (h : statement.body env p = .ok (value, p')) :
    p.exec env statement = (.ok value, p') := by
  rw [PostgresStore.exec, henv]
  simp only [h]

theorem run_and_then_ok (henv : env.ctxErr = none) {statement : PostgresStatement}
    {value : statement.Value} {rest : statement.Value → PostgresCode α}
    (h : statement.body env p = .ok (value, p')) :
    p.run env (.andThen statement rest) = p'.run env (rest value) := by
  simp only [PostgresCode.andThen, PostgresStore.run, exec_ok henv h]

end

end ZCourier.Downlink
