import ZCourier.Downlink.MemoryStore

/-!
# Pages of messages

`MemoryStore.ListByStatusPage` and the cursor of `internal/downlink/message_cursor.go`. The
cursor names the last message of a page by its time and its trimmed id; `parse_format_cursor` is the
round trip of its text.
-/

namespace ZCourier.Downlink

open Go Library

/-! ## Cursors -/

/-- `MessageListCursor`. -/
structure MessageListCursor where
  updatedAt : Int
  messageID : GoString
  deriving DecidableEq

def MessageListCursor.zero : MessageListCursor := ⟨0, []⟩

/-- `normalizeMessageListCursor`. -/
def normalizeMessageListCursor (cursor : MessageListCursor) : MessageListCursor :=
  let messageID := trimSpace cursor.messageID
  if messageID = [] || isZero cursor.updatedAt then .zero
  else { cursor with messageID }

/-- `messageListCursorFromMessage`. -/
def messageListCursorFromMessage (message : Message) : MessageListCursor :=
  normalizeMessageListCursor ⟨retentionTime message, message.messageID⟩

/-- `messageListCursorIsZero`. -/
def messageListCursorIsZero (cursor : MessageListCursor) : Bool :=
  cursor.messageID = [] || isZero cursor.updatedAt

/-- `messageAfterListCursor`. -/
def messageAfterListCursor (message : Message) (cursor : MessageListCursor) : Bool :=
  let cursor := normalizeMessageListCursor cursor
  if messageListCursorIsZero cursor then true
  else if retentionTime message < cursor.updatedAt then true
  else if cursor.updatedAt < retentionTime message then false
  else cursor.messageID < message.messageID

/-- `ErrInvalidCursor`. -/
inductive CursorError where
  | invalidCursor
  deriving DecidableEq

section Codec

variable [Base64]

/-- `formatMessageListCursor`. -/
def formatMessageListCursor (cursor : MessageListCursor) : GoString :=
  let cursor := normalizeMessageListCursor cursor
  if messageListCursorIsZero cursor then []
  else
    let messageID := Base64.encodeToString cursor.messageID
    formatInt (unixNano cursor.updatedAt) ++ 0x3A :: messageID

/-- `parseMessageListCursor`. -/
def parseMessageListCursor (raw : GoString) : Except CursorError MessageListCursor :=
  let raw := trimSpace raw
  if raw = [] then .ok .zero
  else
    match cut 0x3A raw with
    | none => .error .invalidCursor
    | some (updatedRaw, messageIDRaw) =>
      if updatedRaw = [] || messageIDRaw = [] then .error .invalidCursor
      else
        match parseInt updatedRaw with
        | none => .error .invalidCursor
        | some updatedUnixNano =>
          if updatedUnixNano ≤ 0 then .error .invalidCursor
          else
            match Base64.decodeString messageIDRaw with
            | none => .error .invalidCursor
            | some messageID =>
              if messageID = [] then .error .invalidCursor
              else .ok (normalizeMessageListCursor ⟨unixTime updatedUnixNano, messageID⟩)

end Codec

/-! ## Pages -/

/-- `MessageListQuery`. -/
structure MessageListQuery where
  status : MessageStatus
  limit : Int
  cursor : MessageListCursor

/-- `MessageListResult`. -/
structure MessageListResult where
  status : MessageStatus
  limit : Int
  cursor : MessageListCursor
  nextCursor : MessageListCursor
  hasMore : Bool
  total : Nat
  messages : List Message

/-- The limit of `normalizeMessageListQuery`. -/
def messageListLimit (limit : Int) : Int :=
  let limit := if limit ≤ 0 then 100 else limit
  if 1000 < limit then 1000 else limit

/-- `normalizeMessageListQuery`. -/
def normalizeMessageListQuery (query : MessageListQuery) : MessageListQuery :=
  { query with
    limit := messageListLimit query.limit
    cursor := normalizeMessageListCursor query.cursor }

/-- The order of `limitMessagesByUpdatedDesc`: the latest first, then by id. -/
def updatedDescLe (left right : Message) : Bool :=
  if retentionTime left = retentionTime right then left.messageID ≤ right.messageID
  else retentionTime right < retentionTime left

/-- `limitMessagesByUpdatedDesc`. -/
def limitMessagesByUpdatedDesc (messages : List Message) (limit : Int) : List Message :=
  let sorted := messages.mergeSort updatedDescLe
  if 0 < limit then sorted.take limit.toNat else sorted

/-- The `NextCursor` of a page: that of its last message if there is more. -/
def nextCursorAfter (messages : List Message) (hasMore : Bool) : MessageListCursor :=
  match messages.getLast? with
  | some message => if hasMore then messageListCursorFromMessage message else .zero
  | none => .zero

/-- `ListByStatusPage`. -/
def MemoryStore.listByStatusPage (s : MemoryStore) (env : StoreEnv) (query : MessageListQuery) :
    Except StoreError MessageListResult :=
  match env.ctxErr with
  | some err => .error (.context err)
  | none =>
    let query := normalizeMessageListQuery query
    let ofStatus := s.messages.rows.filter fun message => message.status = query.status
    let found := limitMessagesByUpdatedDesc
      (ofStatus.filter fun message => messageAfterListCursor message query.cursor)
      (query.limit + 1)
    let hasMore := query.limit < found.length
    let messages := if hasMore then found.take query.limit.toNat else found
    .ok {
      status := query.status
      limit := query.limit
      cursor := query.cursor
      nextCursor := nextCursorAfter messages hasMore
      hasMore
      total := ofStatus.length
      messages }

/-! ## Cursors as text -/

section RoundTrip

variable {message : Message}

theorem time_ne_zero {t : Int} (h : InUnixRange t) : t ≠ 0 := by
  have hafter := h.1
  have hepoch : 0 < unixEpoch := by decide
  omega

theorem cursor_blank (h : trimSpace message.messageID = []) :
    messageListCursorFromMessage message = .zero := by
  simp [messageListCursorFromMessage, normalizeMessageListCursor, h]

variable (htime : InUnixRange (retentionTime message)) (hid : trimSpace message.messageID ≠ [])

include htime hid

theorem cursor_eq :
    messageListCursorFromMessage message =
      ⟨retentionTime message, trimSpace message.messageID⟩ := by
  simp [messageListCursorFromMessage, normalizeMessageListCursor, hid, time_ne_zero htime]

theorem normalize_cursor :
    normalizeMessageListCursor ⟨retentionTime message, trimSpace message.messageID⟩ =
      ⟨retentionTime message, trimSpace message.messageID⟩ := by
  simp [normalizeMessageListCursor, trim_space_idempotent, hid, time_ne_zero htime]

theorem cursor_not_zero :
    messageListCursorIsZero ⟨retentionTime message, trimSpace message.messageID⟩ = false := by
  simp [messageListCursorIsZero, hid, time_ne_zero htime]

theorem parse_format_trimmed [Base64] :
    parseMessageListCursor (formatMessageListCursor
      ⟨retentionTime message, trimSpace message.messageID⟩) =
        .ok ⟨retentionTime message, trimSpace message.messageID⟩ := by
  have hnano : unixNano (retentionTime message) = retentionTime message - unixEpoch :=
    unix_nano_eq htime
  have hpos : 0 < unixNano (retentionTime message) := by
    have hafter := htime.1
    omega
  have hparse : parseInt (formatInt (unixNano (retentionTime message))) =
      some (unixNano (retentionTime message)) := by
    have hfits := htime.2
    exact parse_format_int (by omega) (by omega)
  have hnormal := normalize_cursor htime hid
  have hformat : formatMessageListCursor ⟨retentionTime message, trimSpace message.messageID⟩ =
      formatInt (unixNano (retentionTime message)) ++
        0x3A :: Base64.encodeToString (trimSpace message.messageID) := by
    rw [formatMessageListCursor, hnormal]
    simp only [cursor_not_zero htime hid, Bool.false_eq_true, if_false]
  have hdigits : (formatInt (unixNano (retentionTime message))).all isDigit = true := by
    rw [formatInt, if_neg (by omega)]
    exact format_nat_digits _
  have hnumber : formatInt (unixNano (retentionTime message)) ≠ [] := by
    rw [formatInt, if_neg (by omega)]
    exact format_nat_ne_nil _
  have hencoded := Base64.encode_ne_nil hid
  generalize trimSpace message.messageID = id at *
  set number := formatInt (unixNano (retentionTime message))
  set encoded := Base64.encodeToString id with hencode
  -- the text begins with a digit and ends with a letter of the alphabet
  have htrim : trimSpace (number ++ 0x3A :: encoded) = number ++ 0x3A :: encoded := by
    have hhead : (number ++ 0x3A :: encoded).head? = some (number.head hnumber) := by
      rw [List.head?_append_of_ne_nil _ hnumber, List.head?_eq_some_head hnumber]
    have hlast : (number ++ 0x3A :: encoded).getLast? = some (encoded.getLast hencoded) := by
      rw [List.getLast?_append_of_ne_nil _ (by simp), List.getLast?_cons,
        List.getLast?_eq_some_getLast hencoded]
      rfl
    refine trim_space_of_graphic hhead (graphic_of_digit _ ?_) hlast (graphic_of_url_safe _ ?_)
    · exact List.all_eq_true.mp hdigits _ (List.head_mem hnumber)
    · exact Base64.encode_url_safe _ _ (List.getLast_mem hencoded)
  have hcolon : (0x3A : UInt8) ∉ number := fun hmem =>
    absurd (List.all_eq_true.mp hdigits _ hmem) (by decide)
  have hback : unixTime (unixNano (retentionTime message)) = retentionTime message := by
    rw [unixTime, hnano]
    omega
  rw [hformat, parseMessageListCursor, htrim, if_neg (by simp)]
  simp only [cut_append hcolon, hparse, hencode, Base64.decode_encode, hback, hnormal]
  simp [hnumber, ← hencode, hencoded, hid, Int.not_le.mpr hpos]

omit hid

theorem parse_format_cursor [Base64] :
    parseMessageListCursor (formatMessageListCursor (messageListCursorFromMessage message)) =
      .ok (messageListCursorFromMessage message) := by
  by_cases hblank : trimSpace message.messageID = []
  · rw [cursor_blank hblank]
    rfl
  · rw [cursor_eq htime hblank]
    exact parse_format_trimmed htime hblank

theorem normalize_cursor_of_message :
    normalizeMessageListCursor (messageListCursorFromMessage message) =
      messageListCursorFromMessage message := by
  by_cases hblank : trimSpace message.messageID = []
  · rw [cursor_blank hblank]
    rfl
  · rw [cursor_eq htime hblank]
    exact normalize_cursor htime hblank

end RoundTrip

end ZCourier.Downlink
