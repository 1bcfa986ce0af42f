import ZCourier.Downlink.Service
import ZCourier.Downlink.Postgres.Store

/-!
# Storing an accepted push

What `pushReliable` submits for a request that passes `validatePushRequest` against the columns of
the messages table. Every field fits its column but two integers, which are unsigned or of 64 bits
in the source and `INTEGER` in the table, and a nil body where the driver sends it as NULL.
`accepted_push_round_trips` says that these are all; `wide_msg_id_refused` is an accepted push
that cannot be stored.
-/

namespace ZCourier.Downlink

open Go Library Library.Sql

/-! ## What a policy's columns hold -/

theorem ascii_of_policy_name_byte : ∀ byte, policyNameByte byte = true → byte ≠ 0 ∧ byte < 0x80 :=
  forall_byte (by decide +kernel)

theorem valid_text_of_policy_name {name : GoString} (h : validDeliveryPolicyName name = true) :
    validText name = true := by
  refine valid_text_of_ascii fun byte hbyte => ascii_of_policy_name_byte byte ?_
  cases name with
  | nil => cases hbyte
  | cons first rest =>
    simp only [validDeliveryPolicyName, Bool.and_eq_true, decide_eq_true_eq] at h
    rcases List.mem_cons.mp hbyte with rfl | hrest
    · simp [policyNameByte, h.1.1.2, h.1.2]
    · exact List.all_eq_true.mp h.2 byte hrest

theorem valid_name_of_valid_policy {policy : DeliveryPolicy}
    (h : validateDeliveryPolicy policy = none) : validDeliveryPolicyName policy.name = true := by
  unfold validateDeliveryPolicy at h
  split_ifs at h with hname
  simpa using hname

/-- The durations of a policy are values of `time.Duration`. -/
structure DeliveryPolicy.Machine (policy : DeliveryPolicy) : Prop where
  maxAge : FitsBigInt policy.maxAge
  ackTimeout : FitsBigInt policy.ackTimeout
  initialRetryDelay : FitsBigInt policy.initialRetryDelay
  maxRetryDelay : FitsBigInt policy.maxRetryDelay
  retryJitter : FitsBigInt policy.retryJitter

/-! ## The message of a push -/

structure PushRequest.ValidTexts (req : PushRequest) : Prop where
  clientID : validText req.clientID = true
  deviceID : validText req.deviceID = true
  traceID : validText req.traceID = true

/-- What a push under a policy hands to `insertPostgresMessage`. -/
def pushedMessage [Sha256] (svc : Service) (req : PushRequest) (policy : DeliveryPolicy)
    (messageID : GoString) (now : Int) (env : StoreEnv) : Message :=
  MemoryStore.prepareMessage { svc.submittedMessage req messageID now with policy := policy } env

section
variable [Sha256] {svc : Service} {req : PushRequest} {policy : DeliveryPolicy}
  {messageID : GoString} {now : Int} {env : StoreEnv}

/-- A pushed message is that of `messageFromPushRequest` with its policy, its clock's times, a
fingerprint and a claim that is none or the service's own. -/
theorem pushed_message_eq (hne : messageID ≠ []) :
    ∃ owner expiry,
      (owner = [] ∧ expiry = 0 ∨
        owner = svc.retryClaimOwner ∧ expiry = now + svc.retryClaimLease) ∧
      pushedMessage svc req policy messageID now env =
        { messageFromPushRequest req messageID now with
          policy := policy
          createdAt := env.orClock now
          updatedAt := env.orClock now
          claimOwner := owner
          claimUntil := expiry
          identityFingerprint :=
            (pushedMessage svc req policy messageID now env).identityFingerprint } := by
  unfold pushedMessage Service.submittedMessage
  split
  · refine ⟨svc.retryClaimOwner, now + svc.retryClaimLease, .inr ⟨rfl, rfl⟩, ?_⟩
    simp [MemoryStore.prepareMessage, messageFromPushRequest, hne]
  · refine ⟨[], 0, .inl ⟨rfl, rfl⟩, ?_⟩
    simp [MemoryStore.prepareMessage, messageFromPushRequest, hne]

theorem pushed_message_storable (hne : messageID ≠ []) (hid : validText messageID = true)
    (htexts : req.ValidTexts) (howner : validText svc.retryClaimOwner = true)
    (hname : validDeliveryPolicyName policy.name = true) (hmachine : policy.Machine)
    (hmsgID : FitsInteger req.msgID.toNat) (hattempts : FitsInteger policy.maxAttempts) :
    (pushedMessage svc req policy messageID now env).Storable := by
  obtain ⟨owner, expiry, hclaim, heq⟩ := @pushed_message_eq _ svc req policy messageID now env hne
  have hclaimOwner : validText owner = true := by
    rcases hclaim with ⟨rfl, -⟩ | ⟨rfl, -⟩
    · rfl
    · exact howner
  rw [heq]
  exact {
    messageID := hid
    clientID := htexts.clientID
    deviceID := htexts.deviceID
    msgID := hmsgID
    traceID := htexts.traceID
    policyName := valid_text_of_policy_name hname
    policyMaxAttempts := hattempts
    policyMaxAge := hmachine.maxAge
    policyAckTimeout := hmachine.ackTimeout
    policyRetryDelay := hmachine.initialRetryDelay
    policyMaxRetryDelay := hmachine.maxRetryDelay
    policyRetryJitter := hmachine.retryJitter
    sessionID := rfl
    attempts := Integer.zero.fits
    lastError := rfl
    terminalReason := rfl
    terminalPublishAttempts := Integer.zero.fits
    terminalPublishError := rfl
    claimOwner := hclaimOwner }

theorem pushed_message_times (hne : messageID ≠ []) (hnow : 1000 ∣ now)
    (hclock : 1000 ∣ env.clock) (hlease : 1000 ∣ svc.retryClaimLease) :
    (pushedMessage svc req policy messageID now env).WholeTimes := by
  obtain ⟨owner, expiry, hclaim, heq⟩ := @pushed_message_eq _ svc req policy messageID now env hne
  have hexpiry : 1000 ∣ expiry := by
    rcases hclaim with ⟨-, rfl⟩ | ⟨-, rfl⟩ <;> omega
  have hcreated : 1000 ∣ env.orClock now := by
    unfold StoreEnv.orClock
    split <;> assumption
  have hzero : (1000 : Int) ∣ 0 := by omega
  rw [heq]
  exact ⟨hzero, hzero, hzero, hzero, hcreated, hcreated, hzero, hzero, hexpiry⟩

end

/-! ## The insert -/

/-- A message the columns can hold is inserted and read back, apart from what a row does not
tell apart: a nil body is empty and no publish status is `disabled`. -/
theorem insert_postgres_message_ok {nilAsNull : Bool} {message : Message} {p : PostgresStore}
    (h : message.Storable) (htimes : message.WholeTimes)
    (hbody : message.body = none → nilAsNull = false)
    (hfresh : p.messages.get? message.messageID = none) :
    insertPostgresMessage nilAsNull message p =
      .ok (some message.stored, { p with messages := p.messages.put (message.row h) }) := by
  unfold insertPostgresMessage
  rw [transaction_bind_ok (parameter_ok (insert_message_args h hbody) p), transaction_get]
  have hnone : p.messages.get? (message.row h).messageID.val = none := hfresh
  simp only [hnone]
  rw [transaction_set, transaction_bind_ok (parameter_ok (scan_message_columns _) _),
    Message.row_message h htimes]
  rfl

/-- What is inserted has passed the checks of its columns. -/
theorem insert_postgres_message_row {nilAsNull : Bool} {message : Message} {p : PostgresStore}
    {result : Option Message × PostgresStore}
    (h : insertPostgresMessage nilAsNull message p = .ok result) :
    ∃ row, insertMessage.read (insertMessageArgs nilAsNull message) = .ok row := by
  cases hread : insertMessage.read (insertMessageArgs nilAsNull message) with
  | ok row => exact ⟨row, rfl⟩
  | error err =>
    rw [insertPostgresMessage, hread] at h
    cases h

/-- A push under any policy of an accepted set is stored and read back exactly if its `MsgID` and
its policy's `MaxAttempts` are below `2^31` and its body is not a nil that the driver sends as
NULL. -/
theorem accepted_push_round_trips [Sha256] {svc : Service} {set : DeliveryPolicySet}
    {req : PushRequest} {policy : DeliveryPolicy} {messageID : GoString} {now : Int}
    {env : PostgresEnv} {p : PostgresStore} (haccepted : set.Accepted)
    (hpolicy : set.Contains policy) (hmachine : policy.Machine)
    (htexts : req.ValidTexts) (hne : messageID ≠ []) (hid : validText messageID = true)
    (howner : validText svc.retryClaimOwner = true)
    (hnow : 1000 ∣ now) (hclock : 1000 ∣ env.clock) (hlease : 1000 ∣ svc.retryClaimLease)
    (hfresh : p.messages.get? messageID = none) :
    let message := pushedMessage svc req policy messageID now env.toStoreEnv
    (∃ row, insertPostgresMessage env.nilAsNull message p =
        .ok (some row.message, { p with messages := p.messages.put row }) ∧
      scanMessage.read row.columns = .ok row.message ∧
      row.message =
        { message with
          body := some (bodyBytes message.body)
          terminalPublishStatus := .disabled }) ↔
    req.msgID.toNat < 2 ^ 31 ∧ policy.maxAttempts < 2 ^ 31 ∧
      (req.body = none → env.nilAsNull = false) := by
  intro message
  have hvalid := haccepted.contains_valid hpolicy
  have hpos := (validate_delivery_policy_sound hvalid).maxAttempts_pos
  obtain ⟨owner, expiry, -, heq⟩ :=
    @pushed_message_eq _ svc req policy messageID now env.toStoreEnv hne
  have hsame : message.messageID = messageID ∧ message.body = req.body ∧
      message.terminalPublishStatus = .unset ∧ message.msgID = req.msgID ∧
      message.policy = policy := by
    rw [show message = _ from heq]
    exact ⟨rfl, rfl, rfl, rfl, rfl⟩
  obtain ⟨hmessageID, hsameBody, hstatus, hsameMsgID, hsamePolicy⟩ := hsame
  constructor
  · rintro ⟨row, hinsert, -⟩
    obtain ⟨stored, hread⟩ := insert_postgres_message_row hinsert
    obtain ⟨hmsgID, hattempts, hbody⟩ := insert_message_only_if hread
    rw [hsameMsgID] at hmsgID
    rw [hsamePolicy] at hattempts
    rw [hsameBody] at hbody
    exact ⟨by have := hmsgID.2; omega, hattempts.2, hbody⟩
  · rintro ⟨hmsgID, hattempts, hbody⟩
    have hstorable : message.Storable :=
      pushed_message_storable hne hid htexts howner (valid_name_of_valid_policy hvalid) hmachine
        ⟨by omega, by omega⟩ ⟨by omega, hattempts⟩
    have htimes : message.WholeTimes := pushed_message_times hne hnow hclock hlease
    refine ⟨message.row hstorable, ?_, scan_message_columns _, ?_⟩
    · rw [Message.row_message hstorable htimes]
      exact insert_postgres_message_ok hstorable htimes (hsameBody ▸ hbody) (hmessageID ▸ hfresh)
    · rw [Message.row_message hstorable htimes, Message.stored, hstatus]
      rfl

/-- A push of one byte with a given `MsgID`. -/
def oneByteRequest (msgID : UInt32) : PushRequest :=
  ⟨ascii "c", ascii "d", msgID, ascii "m", [], true, some [1]⟩

/-- Its message under a policy with five attempts. -/
def oneByteMessage (msgID : UInt32) : Message :=
  @pushedMessage Sha256.polynomial newService (oneByteRequest msgID) fiveAttempts (ascii "m") 1000
    ⟨none, 1000, []⟩

/-- The push with `MsgID` 7 is stored and read back. -/
theorem accepted_push_round_trips_seven :
    Service.validatePushRequest (oneByteRequest 7) = none ∧
    ∃ row, insertPostgresMessage true (oneByteMessage 7) .empty =
        .ok (some row.message,
          { PostgresStore.empty with messages := PostgresStore.empty.messages.put row }) ∧
      scanMessage.read row.columns = .ok row.message ∧
      row.message = { oneByteMessage 7 with
        body := some (bodyBytes (oneByteMessage 7).body), terminalPublishStatus := .disabled } :=
  ⟨by decide,
    (@accepted_push_round_trips Sha256.polynomial newService _ (oneByteRequest 7) fiveAttempts
      (ascii "m") 1000 ⟨⟨none, 1000, []⟩, true⟩ .empty five_attempts_accepted (.inl rfl)
      ⟨by decide, by decide, by decide, by decide, by decide⟩
      ⟨by decide, by decide, by decide⟩ (by decide) (by decide) (by decide) (by decide) (by decide)
      (by decide) rfl).mpr ⟨by decide, by decide, nofun⟩⟩

/-- The push with `MsgID` `2^31` passes `validatePushRequest`, its policy is that of an accepted
set, and the insert is refused. -/
theorem wide_msg_id_refused :
    Service.validatePushRequest (oneByteRequest 2147483648) = none ∧
    (oneByteRequest 2147483648).ValidTexts ∧
    (∃ set : DeliveryPolicySet, set.Accepted ∧ set.Contains fiveAttempts) ∧
    insertPostgresMessage false (oneByteMessage 2147483648) .empty =
      .error (.database .outOfRange) :=
  ⟨by decide, ⟨by decide, by decide, by decide⟩, ⟨_, five_attempts_accepted, .inl rfl⟩, rfl⟩

end ZCourier.Downlink
