import ZCourier.Downlink.MemoryStore

/-!
# The tables of the Postgres store

The tables of `internal/downlink/migrations/v0.12.0.sql` and the positional encoding and decoding
of their rows in `postgres_store.go`. A `MessageRow` holds one value of each column's type, so a
row that violates a column's type, width or `NOT NULL` cannot be built. Read
`scan_message_columns` and `insert_message_args` first: scanning a row gives `MessageRow.message`,
and inserting a message the columns can hold gives `Message.row`.
-/

namespace ZCourier.Downlink

open Go Library Library.Sql

/-- A row of `z_courier_downlink_messages`, in the order of its columns. -/
structure MessageRow where
  messageID : Text
  clientID : Text
  deviceID : Text
  msgID : Integer
  body : Bytes
  identityFingerprint : Bytes
  ackRequired : Bool
  traceID : Text
  policyName : Text
  policyMaxAttempts : Integer
  policyMaxAgeNs : BigInt
  policyAckTimeoutNs : BigInt
  policyRetryDelayNs : BigInt
  policyBackoffMultiplier : Float64
  policyMaxRetryDelayNs : BigInt
  policyRetryJitterNs : BigInt
  sessionID : Text
  status : MessageStatus
  attempts : Integer
  nextRetryAt : Option Timestamp
  lastError : Text
  terminalReason : Text
  terminalAt : Option Timestamp
  terminalPublishStatus : TerminalPublicationStatus
  terminalPublishAttempts : Integer
  terminalNextPublishAt : Option Timestamp
  terminalPublishError : Text
  terminalPublishedAt : Option Timestamp
  createdAt : Timestamp
  updatedAt : Timestamp
  sentAt : Option Timestamp
  deliveredAt : Option Timestamp
  claimOwner : Text
  claimUntil : Option Timestamp

/-- A row of `z_courier_downlink_terminal_events`, in the order of its columns. -/
structure EventRow where
  eventID : Text
  messageID : Text
  clientID : Text
  deviceID : Text
  msgID : Integer
  traceID : Text
  terminalStatus : MessageStatus
  terminalReason : Text
  policyName : Text
  attempts : Integer
  messageCreatedAt : Timestamp
  terminalAt : Timestamp
  gatewayNode : Text
  publishStatus : TerminalPublicationStatus
  publishAttempts : Integer
  nextAttemptAt : Option Timestamp
  publishLastError : Text
  publishedAt : Option Timestamp
  claimOwner : Text
  claimUntil : Option Timestamp
  updatedAt : Timestamp

/-! ## Enumerations as text -/

/-- The string a `TerminalPublicationStatus` is. -/
def TerminalPublicationStatus.text : TerminalPublicationStatus → GoString
  | .unset => []
  | .disabled => ascii "disabled"
  | .pending => ascii "pending"
  | .failed => ascii "failed"
  | .published => ascii "published"

/-- The status a column's text stands for. -/
def statusOfValue (value : Value) : Except Error MessageStatus := do
  let text ← value.getText
  match [MessageStatus.unset, .pending, .sent, .delivered, .failed, .discarded].find?
      (·.text = text) with
  | some status => .ok status
  | none => .error .wrongType

/-- The publication status a column's text stands for. -/
def publicationOfValue (value : Value) : Except Error TerminalPublicationStatus := do
  let text ← value.getText
  match [TerminalPublicationStatus.unset, .disabled, .pending, .failed, .published].find?
      (·.text = text) with
  | some status => .ok status
  | none => .error .wrongType

@[simp] theorem status_of_text (status : MessageStatus) :
    statusOfValue (.text status.text) = .ok status := by
  cases status <;> rfl

@[simp] theorem publication_of_text (status : TerminalPublicationStatus) :
    publicationOfValue (.text status.text) = .ok status := by
  cases status <;> rfl

/-! ## Parameters -/

/-- `nullTime`. -/
def nullTime (t : Int) : Value :=
  if isZero t then .null else .time t

/-- What a nullable column keeps of `nullTime`. -/
def nullTimestamp (t : Int) : Option Timestamp :=
  if isZero t then none else some (Timestamp.of t)

/-- `terminalPublicationStatusValue`. -/
def terminalPublicationStatusValue (status : TerminalPublicationStatus) :
    TerminalPublicationStatus :=
  if status = .unset then .disabled else status

/-- The value a driver sends for a byte slice; drivers differ in whether nil is NULL. -/
def bytesParameter (nilAsNull : Bool) : Option Bytes → Value
  | some data => .bytes data
  | none => if nilAsNull then .null else .bytes []

@[simp] theorem of_nullable_null_time (t : Int) :
    Timestamp.ofNullable (nullTime t) = .ok (nullTimestamp t) := by
  unfold nullTime nullTimestamp
  split <;> rfl

@[simp] theorem null_timestamp_getD {t : Int} (h : 1000 ∣ t) :
    ((nullTimestamp t).map Timestamp.val).getD 0 = t := by
  unfold nullTimestamp
  split
  · next hzero => simp_all
  · simpa using Timestamp.of_val h

/-! ## Messages -/

/-- The parameters of `insertPostgresMessage`, `$1` to `$34`. -/
def insertMessageArgs (nilAsNull : Bool) (message : Message) : List Value :=
  [ .text message.messageID,
    .text message.clientID,
    .text message.deviceID,
    .integer message.msgID.toNat,
    bytesParameter nilAsNull message.body,
    .bytes message.identityFingerprint,
    .boolean message.ackRequired,
    .text message.traceID,
    .text message.policy.name,
    .integer message.policy.maxAttempts,
    .integer message.policy.maxAge,
    .integer message.policy.ackTimeout,
    .integer message.policy.initialRetryDelay,
    .double message.policy.backoffMultiplier,
    .integer message.policy.maxRetryDelay,
    .integer message.policy.retryJitter,
    .text message.sessionID,
    .text message.status.text,
    .integer message.attempts,
    nullTime message.nextRetryAt,
    .text message.lastError,
    .text message.terminalReason,
    nullTime message.terminalAt,
    .text (terminalPublicationStatusValue message.terminalPublishStatus).text,
    .integer message.terminalPublishAttempts,
    nullTime message.terminalNextPublishAt,
    .text message.terminalPublishError,
    nullTime message.terminalPublishedAt,
    .time message.createdAt,
    .time message.updatedAt,
    nullTime message.sentAt,
    nullTime message.deliveredAt,
    .text message.claimOwner,
    nullTime message.claimUntil ]

/-- The column list of `postgresInsertMessage`: the row the server stores for `$1` to `$34`. -/
def insertMessage : Sql.Reader MessageRow := do
  let messageID ← column Text.ofValue
  let clientID ← column Text.ofValue
  let deviceID ← column Text.ofValue
  let msgID ← column Integer.ofValue
  let body ← column bytesOfValue
  let identityFingerprint ← column bytesOfValue
  let ackRequired ← column booleanOfValue
  let traceID ← column Text.ofValue
  let policyName ← column Text.ofValue
  let policyMaxAttempts ← column Integer.ofValue
  let policyMaxAgeNs ← column BigInt.ofValue
  let policyAckTimeoutNs ← column BigInt.ofValue
  let policyRetryDelayNs ← column BigInt.ofValue
  let policyBackoffMultiplier ← column doubleOfValue
  let policyMaxRetryDelayNs ← column BigInt.ofValue
  let policyRetryJitterNs ← column BigInt.ofValue
  let sessionID ← column Text.ofValue
  let status ← column statusOfValue
  let attempts ← column Integer.ofValue
  let nextRetryAt ← column Timestamp.ofNullable
  let lastError ← column Text.ofValue
  let terminalReason ← column Text.ofValue
  let terminalAt ← column Timestamp.ofNullable
  let terminalPublishStatus ← column publicationOfValue
  let terminalPublishAttempts ← column Integer.ofValue
  let terminalNextPublishAt ← column Timestamp.ofNullable
  let terminalPublishError ← column Text.ofValue
  let terminalPublishedAt ← column Timestamp.ofNullable
  let createdAt ← column Timestamp.ofValue
  let updatedAt ← column Timestamp.ofValue
  let sentAt ← column Timestamp.ofNullable
  let deliveredAt ← column Timestamp.ofNullable
  let claimOwner ← column Text.ofValue
  let claimUntil ← column Timestamp.ofNullable
  return {
    messageID, clientID, deviceID, msgID, body, identityFingerprint, ackRequired, traceID,
    policyName, policyMaxAttempts, policyMaxAgeNs, policyAckTimeoutNs, policyRetryDelayNs,
    policyBackoffMultiplier, policyMaxRetryDelayNs, policyRetryJitterNs, sessionID, status,
    attempts, nextRetryAt, lastError, terminalReason, terminalAt, terminalPublishStatus,
    terminalPublishAttempts, terminalNextPublishAt, terminalPublishError, terminalPublishedAt,
    createdAt, updatedAt, sentAt, deliveredAt, claimOwner, claimUntil }

/-- `postgresMessageColumns`: a row as a query returns it. -/
def MessageRow.columns (row : MessageRow) : List Value :=
  [ .text row.messageID.val,
    .text row.clientID.val,
    .text row.deviceID.val,
    .integer row.msgID.val,
    .bytes row.body,
    .bytes row.identityFingerprint,
    .boolean row.ackRequired,
    .text row.traceID.val,
    .text row.policyName.val,
    .integer row.policyMaxAttempts.val,
    .integer row.policyMaxAgeNs.val,
    .integer row.policyAckTimeoutNs.val,
    .integer row.policyRetryDelayNs.val,
    .double row.policyBackoffMultiplier,
    .integer row.policyMaxRetryDelayNs.val,
    .integer row.policyRetryJitterNs.val,
    .text row.sessionID.val,
    .text row.status.text,
    .integer row.attempts.val,
    .nullable row.nextRetryAt,
    .text row.lastError.val,
    .text row.terminalReason.val,
    .nullable row.terminalAt,
    .text row.terminalPublishStatus.text,
    .integer row.terminalPublishAttempts.val,
    .nullable row.terminalNextPublishAt,
    .text row.terminalPublishError.val,
    .nullable row.terminalPublishedAt,
    .time row.createdAt.val,
    .time row.updatedAt.val,
    .nullable row.sentAt,
    .nullable row.deliveredAt,
    .text row.claimOwner.val,
    .nullable row.claimUntil ]

/-- A scanned `sql.NullTime`, the zero time where it is not valid. -/
def scanNullTime (value : Value) : Except Error Int :=
  value.getNullTime.map (·.getD 0)

/-- `scanMessage`. -/
def scanMessage : Sql.Reader Message := do
  let messageID ← column Value.getText
  let clientID ← column Value.getText
  let deviceID ← column Value.getText
  let msgID ← column Value.getInteger
  let body ← column bytesOfValue
  let identityFingerprint ← column bytesOfValue
  let ackRequired ← column booleanOfValue
  let traceID ← column Value.getText
  let policyName ← column Value.getText
  let policyMaxAttempts ← column Value.getInteger
  let policyMaxAge ← column Value.getInteger
  let policyAckTimeout ← column Value.getInteger
  let policyRetryDelay ← column Value.getInteger
  let policyBackoffMultiplier ← column doubleOfValue
  let policyMaxRetryDelay ← column Value.getInteger
  let policyRetryJitter ← column Value.getInteger
  let sessionID ← column Value.getText
  let status ← column statusOfValue
  let attempts ← column Value.getInteger
  let nextRetryAt ← column scanNullTime
  let lastError ← column Value.getText
  let terminalReason ← column Value.getText
  let terminalAt ← column scanNullTime
  let terminalPublishStatus ← column publicationOfValue
  let terminalPublishAttempts ← column Value.getInteger
  let terminalNextPublishAt ← column scanNullTime
  let terminalPublishError ← column Value.getText
  let terminalPublishedAt ← column scanNullTime
  let createdAt ← column Value.getTime
  let updatedAt ← column Value.getTime
  let sentAt ← column scanNullTime
  let deliveredAt ← column scanNullTime
  let claimOwner ← column Value.getText
  let claimUntil ← column scanNullTime
  return {
    messageID, clientID, deviceID
    msgID := UInt32.ofInt msgID
    body := some body
    identityFingerprint, ackRequired, traceID, sessionID
    policy := {
      name := policyName
      maxAttempts := policyMaxAttempts
      maxAge := policyMaxAge
      ackTimeout := policyAckTimeout
      initialRetryDelay := policyRetryDelay
      backoffMultiplier := policyBackoffMultiplier
      maxRetryDelay := policyMaxRetryDelay
      retryJitter := policyRetryJitter }
    status
    attempts := attempts.toNat
    nextRetryAt, lastError, terminalReason, terminalAt, terminalPublishStatus
    terminalPublishAttempts := terminalPublishAttempts.toNat
    terminalNextPublishAt, terminalPublishError, terminalPublishedAt, claimOwner, claimUntil
    createdAt, updatedAt, sentAt, deliveredAt }

def nullableTime (t : Option Timestamp) : Int :=
  (t.map Timestamp.val).getD 0

def MessageRow.message (row : MessageRow) : Message where
  messageID := row.messageID.val
  clientID := row.clientID.val
  deviceID := row.deviceID.val
  msgID := UInt32.ofInt row.msgID.val
  body := some row.body
  identityFingerprint := row.identityFingerprint
  ackRequired := row.ackRequired
  traceID := row.traceID.val
  sessionID := row.sessionID.val
  policy := {
    name := row.policyName.val
    maxAttempts := row.policyMaxAttempts.val
    maxAge := row.policyMaxAgeNs.val
    ackTimeout := row.policyAckTimeoutNs.val
    initialRetryDelay := row.policyRetryDelayNs.val
    backoffMultiplier := row.policyBackoffMultiplier
    maxRetryDelay := row.policyMaxRetryDelayNs.val
    retryJitter := row.policyRetryJitterNs.val }
  status := row.status
  attempts := row.attempts.val.toNat
  nextRetryAt := nullableTime row.nextRetryAt
  lastError := row.lastError.val
  terminalReason := row.terminalReason.val
  terminalAt := nullableTime row.terminalAt
  terminalPublishStatus := row.terminalPublishStatus
  terminalPublishAttempts := row.terminalPublishAttempts.val.toNat
  terminalNextPublishAt := nullableTime row.terminalNextPublishAt
  terminalPublishError := row.terminalPublishError.val
  terminalPublishedAt := nullableTime row.terminalPublishedAt
  claimOwner := row.claimOwner.val
  claimUntil := nullableTime row.claimUntil
  createdAt := row.createdAt.val
  updatedAt := row.updatedAt.val
  sentAt := nullableTime row.sentAt
  deliveredAt := nullableTime row.deliveredAt

@[simp] theorem scan_null_time_nullable (t : Option Timestamp) :
    scanNullTime (Value.nullable t) = .ok (nullableTime t) := by
  cases t <;> rfl

theorem scan_message_columns (row : MessageRow) :
    scanMessage.read row.columns = .ok row.message := by
  unfold Sql.Reader.read scanMessage MessageRow.columns
  simp only [column_bind, Value.getText, Value.getInteger, Value.getTime, bytesOfValue,
    booleanOfValue, doubleOfValue, status_of_text, publication_of_text, scan_null_time_nullable,
    Except.bind]
  rfl

/-- The fields of a message are values its columns can hold. -/
structure Message.Storable (message : Message) : Prop where
  messageID : validText message.messageID = true
  clientID : validText message.clientID = true
  deviceID : validText message.deviceID = true
  msgID : FitsInteger message.msgID.toNat
  traceID : validText message.traceID = true
  policyName : validText message.policy.name = true
  policyMaxAttempts : FitsInteger message.policy.maxAttempts
  policyMaxAge : FitsBigInt message.policy.maxAge
  policyAckTimeout : FitsBigInt message.policy.ackTimeout
  policyRetryDelay : FitsBigInt message.policy.initialRetryDelay
  policyMaxRetryDelay : FitsBigInt message.policy.maxRetryDelay
  policyRetryJitter : FitsBigInt message.policy.retryJitter
  sessionID : validText message.sessionID = true
  attempts : FitsInteger message.attempts
  lastError : validText message.lastError = true
  terminalReason : validText message.terminalReason = true
  terminalPublishAttempts : FitsInteger message.terminalPublishAttempts
  terminalPublishError : validText message.terminalPublishError = true
  claimOwner : validText message.claimOwner = true

def Message.row (message : Message) (h : message.Storable) : MessageRow where
  messageID := ⟨message.messageID, h.messageID⟩
  clientID := ⟨message.clientID, h.clientID⟩
  deviceID := ⟨message.deviceID, h.deviceID⟩
  msgID := ⟨message.msgID.toNat, h.msgID⟩
  body := bodyBytes message.body
  identityFingerprint := message.identityFingerprint
  ackRequired := message.ackRequired
  traceID := ⟨message.traceID, h.traceID⟩
  policyName := ⟨message.policy.name, h.policyName⟩
  policyMaxAttempts := ⟨message.policy.maxAttempts, h.policyMaxAttempts⟩
  policyMaxAgeNs := ⟨message.policy.maxAge, h.policyMaxAge⟩
  policyAckTimeoutNs := ⟨message.policy.ackTimeout, h.policyAckTimeout⟩
  policyRetryDelayNs := ⟨message.policy.initialRetryDelay, h.policyRetryDelay⟩
  policyBackoffMultiplier := message.policy.backoffMultiplier
  policyMaxRetryDelayNs := ⟨message.policy.maxRetryDelay, h.policyMaxRetryDelay⟩
  policyRetryJitterNs := ⟨message.policy.retryJitter, h.policyRetryJitter⟩
  sessionID := ⟨message.sessionID, h.sessionID⟩
  status := message.status
  attempts := ⟨message.attempts, h.attempts⟩
  nextRetryAt := nullTimestamp message.nextRetryAt
  lastError := ⟨message.lastError, h.lastError⟩
  terminalReason := ⟨message.terminalReason, h.terminalReason⟩
  terminalAt := nullTimestamp message.terminalAt
  terminalPublishStatus := terminalPublicationStatusValue message.terminalPublishStatus
  terminalPublishAttempts := ⟨message.terminalPublishAttempts, h.terminalPublishAttempts⟩
  terminalNextPublishAt := nullTimestamp message.terminalNextPublishAt
  terminalPublishError := ⟨message.terminalPublishError, h.terminalPublishError⟩
  terminalPublishedAt := nullTimestamp message.terminalPublishedAt
  createdAt := .of message.createdAt
  updatedAt := .of message.updatedAt
  sentAt := nullTimestamp message.sentAt
  deliveredAt := nullTimestamp message.deliveredAt
  claimOwner := ⟨message.claimOwner, h.claimOwner⟩
  claimUntil := nullTimestamp message.claimUntil

theorem bytes_parameter_accepted {nilAsNull : Bool} {body : Option Bytes}
    (h : body = none → nilAsNull = false) :
    bytesOfValue (bytesParameter nilAsNull body) = .ok (bodyBytes body) := by
  cases body with
  | some data => rfl
  | none => simp [bytesParameter, h rfl, bytesOfValue, bodyBytes]

theorem insert_message_args {nilAsNull : Bool} {message : Message} (h : message.Storable)
    (hbody : message.body = none → nilAsNull = false) :
    insertMessage.read (insertMessageArgs nilAsNull message) = .ok (message.row h) := by
  unfold Sql.Reader.read insertMessage insertMessageArgs
  rw [column_bind_ok (Text.of_text h.messageID), column_bind_ok (Text.of_text h.clientID),
    column_bind_ok (Text.of_text h.deviceID), column_bind_ok (Integer.of_integer h.msgID),
    column_bind_ok (bytes_parameter_accepted hbody), column_bind_ok (bytes_of_bytes _),
    column_bind_ok (boolean_of_boolean _),
    column_bind_ok (Text.of_text h.traceID), column_bind_ok (Text.of_text h.policyName),
    column_bind_ok (Integer.of_integer h.policyMaxAttempts),
    column_bind_ok (BigInt.of_integer h.policyMaxAge),
    column_bind_ok (BigInt.of_integer h.policyAckTimeout),
    column_bind_ok (BigInt.of_integer h.policyRetryDelay),
    column_bind_ok (double_of_double _),
    column_bind_ok (BigInt.of_integer h.policyMaxRetryDelay),
    column_bind_ok (BigInt.of_integer h.policyRetryJitter),
    column_bind_ok (Text.of_text h.sessionID), column_bind_ok (status_of_text _),
    column_bind_ok (Integer.of_integer h.attempts), column_bind_ok (of_nullable_null_time _),
    column_bind_ok (Text.of_text h.lastError), column_bind_ok (Text.of_text h.terminalReason),
    column_bind_ok (of_nullable_null_time _), column_bind_ok (publication_of_text _),
    column_bind_ok (Integer.of_integer h.terminalPublishAttempts),
    column_bind_ok (of_nullable_null_time _),
    column_bind_ok (Text.of_text h.terminalPublishError),
    column_bind_ok (of_nullable_null_time _), column_bind_ok (Timestamp.of_time _),
    column_bind_ok (Timestamp.of_time _),
    column_bind_ok (of_nullable_null_time _), column_bind_ok (of_nullable_null_time _),
    column_bind_ok (Text.of_text h.claimOwner), column_bind_ok (of_nullable_null_time _)]
  rfl

/-- The row is refused if an integer is too wide for its column or the body is NULL. -/
theorem insert_message_only_if {nilAsNull : Bool} {message : Message} {row : MessageRow}
    (h : insertMessage.read (insertMessageArgs nilAsNull message) = .ok row) :
    FitsInteger message.msgID.toNat ∧ FitsInteger message.policy.maxAttempts ∧
      (message.body = none → nilAsNull = false) := by
  unfold Sql.Reader.read at h
  split at h
  · next row' hread =>
    unfold insertMessage insertMessageArgs at hread
    obtain ⟨messageID, -, hread⟩ := column_bind_inv hread
    obtain ⟨clientID, -, hread⟩ := column_bind_inv hread
    obtain ⟨deviceID, -, hread⟩ := column_bind_inv hread
    obtain ⟨msgID, hmsgID, hread⟩ := column_bind_inv hread
    obtain ⟨body, hbody, hread⟩ := column_bind_inv hread
    obtain ⟨fingerprint, -, hread⟩ := column_bind_inv hread
    obtain ⟨ackRequired, -, hread⟩ := column_bind_inv hread
    obtain ⟨traceID, -, hread⟩ := column_bind_inv hread
    obtain ⟨policyName, -, hread⟩ := column_bind_inv hread
    obtain ⟨maxAttempts, hmaxAttempts, -⟩ := column_bind_inv hread
    refine ⟨Integer.fits_of_value hmsgID, Integer.fits_of_value hmaxAttempts, fun hnil => ?_⟩
    rw [hnil] at hbody
    cases nilAsNull with
    | false => rfl
    | true => cases hbody
  · cases h
  · cases h

structure Message.WholeTimes (message : Message) : Prop where
  nextRetryAt : 1000 ∣ message.nextRetryAt
  terminalAt : 1000 ∣ message.terminalAt
  terminalNextPublishAt : 1000 ∣ message.terminalNextPublishAt
  terminalPublishedAt : 1000 ∣ message.terminalPublishedAt
  createdAt : 1000 ∣ message.createdAt
  updatedAt : 1000 ∣ message.updatedAt
  sentAt : 1000 ∣ message.sentAt
  deliveredAt : 1000 ∣ message.deliveredAt
  claimUntil : 1000 ∣ message.claimUntil

/-- A message as a row keeps it: nil is an empty body and no publish status is `disabled`. -/
def Message.stored (message : Message) : Message :=
  { message with
    body := some (bodyBytes message.body)
    terminalPublishStatus := terminalPublicationStatusValue message.terminalPublishStatus }

@[simp] theorem nullable_null_timestamp {t : Int} (h : 1000 ∣ t) :
    nullableTime (nullTimestamp t) = t :=
  null_timestamp_getD h

@[simp] theorem uint32_of_toNat (n : UInt32) : UInt32.ofInt (n.toNat : Int) = n := by
  apply UInt32.toNat_inj.mp
  rw [UInt32.ofInt, UInt32.toNat_ofNat']
  have := n.toNat_lt_size
  have : UInt32.size = 4294967296 := rfl
  omega

theorem Message.row_message {message : Message} (h : message.Storable)
    (htimes : message.WholeTimes) : (message.row h).message = message.stored := by
  simp only [Message.row, MessageRow.message, Message.stored, uint32_of_toNat, Int.toNat_natCast,
    nullable_null_timestamp htimes.nextRetryAt, nullable_null_timestamp htimes.terminalAt,
    nullable_null_timestamp htimes.terminalNextPublishAt,
    nullable_null_timestamp htimes.terminalPublishedAt, nullable_null_timestamp htimes.sentAt,
    nullable_null_timestamp htimes.deliveredAt, nullable_null_timestamp htimes.claimUntil,
    Timestamp.of_val htimes.createdAt, Timestamp.of_val htimes.updatedAt]

end ZCourier.Downlink
