import ZCourier.Downlink.MemoryStore

/-!
# What a store call can do

`StoreStep` lists every change a call of the in-memory store can make, with the conditions under
which it makes it, and `call_step` says that a call does nothing else. `StoreStep.slot` reads it for
one message id. Invariants of the store are proved from these two and never from the methods.
-/

namespace ZCourier.Downlink

open Go Library

/-- The part of a message that is fixed when it is created. -/
structure Message.Origin where
  messageID : GoString
  identity : Identity
  body : Option Bytes
  traceID : GoString
  policy : DeliveryPolicy
  createdAt : Int

/-- A message's fixed part. -/
def Message.origin (message : Message) : Message.Origin :=
  ⟨message.messageID, message.identity, message.body, message.traceID, message.policy,
    message.createdAt⟩

namespace Message.Origin

variable {a b : Message}

theorem messageID_eq (h : a.origin = b.origin) : a.messageID = b.messageID :=
  congrArg messageID h

theorem identity_eq (h : a.origin = b.origin) : a.identity = b.identity :=
  congrArg identity h

theorem policy_eq (h : a.origin = b.origin) : a.policy = b.policy :=
  congrArg policy h

end Message.Origin

/-! ## Selections -/

theorem mem_limit_messages {messages : List Message} {limit : Int} {message : Message}
    (h : message ∈ limitMessages messages limit) : message ∈ messages := by
  simp only [limitMessages] at h
  split at h
  · exact List.mem_mergeSort.mp (List.mem_of_mem_take h)
  · exact List.mem_mergeSort.mp h

theorem limit_messages_nodup {messages : List Message} (limit : Int) (h : messages.Nodup) :
    (limitMessages messages limit).Nodup := by
  have hsorted : (messages.mergeSort createdLe).Nodup :=
    (List.mergeSort_perm messages createdLe).nodup_iff.mpr h
  simp only [limitMessages]
  split
  · exact hsorted.sublist (List.take_sublist _ _)
  · exact hsorted

namespace MemoryStore

variable {s : MemoryStore}

variable {messages : List Message}

theorem ids_nodup (hnodup : messages.Nodup)
    (hstored : ∀ message ∈ messages, message ∈ s.messages.rows) :
    (messages.map Message.messageID).Nodup :=
  hnodup.map_on fun _ hleft _ hright => s.messages.eq_of_key_eq (hstored _ hleft) (hstored _ hright)

theorem select_due_nodup {now ackTimeout limit candidateLimit : Int} :
    (s.selectDue now ackTimeout limit candidateLimit).messages.Nodup :=
  fair_retry_messages_nodup
    (limit_messages_nodup _ ((List.Nodup.of_map _ s.messages.nodup).filter _))

theorem mem_select_due {now ackTimeout limit candidateLimit : Int} {message : Message}
    (h : message ∈ (s.selectDue now ackTimeout limit candidateLimit).messages) :
    message ∈ s.messages.rows ∧ messageDueForRetry message now ackTimeout = true := by
  simpa [retryCandidates] using mem_limit_messages (mem_fair_retry_messages h)

variable {record : TerminalRecord}

theorem mem_select_due_terminal {now limit : Int} (h : record ∈ s.selectDueTerminal now limit) :
    record ∈ s.terminalEvents.rows ∧ terminalDue record now = true := by
  simpa using List.mem_mergeSort.mp (List.mem_of_mem_take h)

theorem mem_expired {status : MessageStatus} {before limit : Int} {message : Message}
    (h : message ∈ s.expired status before limit) :
    message ∈ s.messages.rows ∧ message.status = status ∧
      s.hasUnpublishedTerminalEvent message.messageID = false := by
  have hmem := List.mem_mergeSort.mp (List.mem_of_mem_take h)
  simp only [List.mem_filter, Bool.and_eq_true, decide_eq_true_eq, Bool.not_eq_true'] at hmem
  exact ⟨hmem.1, hmem.2.1.1, hmem.2.1.2⟩

/-! ## Loops over the selected rows -/

@[simp] theorem putMessage_terminalEvents (message : Message) :
    (s.putMessage message).terminalEvents = s.terminalEvents := rfl

@[simp] theorem putRecord_messages (record : TerminalRecord) :
    (s.putRecord record).messages = s.messages := rfl

theorem get?_putMessage {message : Message} {id : GoString} :
    (s.putMessage message).messages.get? id =
      if id = message.messageID then some message else s.messages.get? id :=
  Table.get?_put

theorem get?_putRecord {key : GoString} : (s.putRecord record).terminalEvents.get? key =
      if key = record.event.eventID then some record else s.terminalEvents.get? key :=
  Table.get?_put

theorem eventID_of_get? {key : GoString} (h : s.terminalEvents.get? key = some record) :
    record.event.eventID = key := by
  have hkey := Table.key_of_get? h
  exact hkey

section Claims

variable {owner : GoString} {expiry now : Int}

@[simp] theorem claimMessages_terminalEvents (messages : List Message) :
    (claimMessages owner expiry now s messages).2.terminalEvents = s.terminalEvents := by
  induction messages generalizing s with
  | nil => rfl
  | cons message rest ih => exact ih

theorem claimMessages_fst {messages : List Message}
    (h : ∀ message ∈ messages, ∃ stored, s.messages.get? message.messageID = some stored ∧
      stored.claimed owner expiry now = message.claimed owner expiry now) :
    (claimMessages owner expiry now s messages).1 =
      messages.map (Message.claimed owner expiry now) := by
  induction messages generalizing s with
  | nil => rfl
  | cons message rest ih =>
    obtain ⟨stored, hstored, hclaimed⟩ := h message List.mem_cons_self
    simp only [claimMessages, hstored, Option.getD_some, List.map_cons, hclaimed,
      List.cons.injEq, true_and]
    apply ih
    intro later hlater
    obtain ⟨row, hrow, heq⟩ := h later (List.mem_cons_of_mem _ hlater)
    rw [get?_putMessage]
    split
    · next hid =>
      have hsame : message.messageID = later.messageID := hid.symm
      rw [hsame, hrow] at hstored
      obtain rfl := Option.some.inj hstored
      exact ⟨_, rfl, by rw [← heq, ← hclaimed]; rfl⟩
    · exact ⟨row, hrow, heq⟩

theorem get?_claimMessages {messages : List Message} {id : GoString}
    (h : ∀ message ∈ messages, ∃ stored, s.messages.get? message.messageID = some stored) :
    (claimMessages owner expiry now s messages).2.messages.get? id =
      if id ∈ messages.map Message.messageID then
        (s.messages.get? id).map (Message.claimed owner expiry now)
      else s.messages.get? id := by
  induction messages generalizing s with
  | nil => simp [claimMessages]
  | cons message rest ih =>
    obtain ⟨stored, hstored⟩ := h message List.mem_cons_self
    have hstoredID : stored.messageID = message.messageID := Table.key_of_get? hstored
    have hkey : (stored.claimed owner expiry now).messageID = message.messageID := hstoredID
    simp only [claimMessages, hstored, Option.getD_some]
    rw [ih]
    · rw [get?_putMessage, hkey]
      by_cases hid : id = message.messageID
      · subst hid
        simp [hstored, Message.claimed]
      · simp [hid]
    · intro later hlater
      rw [get?_putMessage]
      split
      · exact ⟨_, rfl⟩
      · exact h later (List.mem_cons_of_mem _ hlater)

@[simp] theorem claimRecords_messages (records : List TerminalRecord) :
    (claimRecords owner expiry s records).2.messages = s.messages := by
  induction records generalizing s with
  | nil => rfl
  | cons record rest ih => exact ih

@[simp] theorem claimRecords_fst (records : List TerminalRecord) :
    (claimRecords owner expiry s records).1 =
      records.map (TerminalRecord.claimed owner expiry) := by
  induction records generalizing s with
  | nil => rfl
  | cons record rest ih => simp [claimRecords, ih]

theorem get?_claimRecords {records : List TerminalRecord} {key : GoString}
    (h : ∀ record ∈ records, ∃ stored,
      s.terminalEvents.get? record.event.eventID = some stored ∧
        stored.claimed owner expiry = record.claimed owner expiry) :
    (claimRecords owner expiry s records).2.terminalEvents.get? key =
      if key ∈ records.map (fun record => record.event.eventID) then
        (s.terminalEvents.get? key).map (TerminalRecord.claimed owner expiry)
      else s.terminalEvents.get? key := by
  induction records generalizing s with
  | nil => simp [claimRecords]
  | cons record rest ih =>
    obtain ⟨stored, hstored, hclaimed⟩ := h record List.mem_cons_self
    simp only [claimRecords]
    rw [ih]
    · rw [get?_putRecord]
      have hkey : (record.claimed owner expiry).event.eventID = record.event.eventID := rfl
      rw [hkey]
      by_cases hid : key = record.event.eventID
      · subst hid
        simp only [List.map_cons, List.mem_cons, true_or, if_true, hstored, Option.map_some,
          hclaimed]
        split <;> rfl
      · simp [hid]
    · intro later hlater
      obtain ⟨row, hrow, heq⟩ := h later (List.mem_cons_of_mem _ hlater)
      rw [get?_putRecord]
      split
      · next hid =>
        have hsame : later.event.eventID = record.event.eventID := hid
        rw [hsame, hstored] at hrow
        obtain rfl := Option.some.inj hrow
        exact ⟨_, rfl, by rw [← heq, hclaimed]; rfl⟩
      · exact ⟨row, hrow, heq⟩

end Claims

/-! ## What the selecting calls return -/

/-- Different stored messages that are due. -/
def Due (s : MemoryStore) (now ackTimeout : Int) (messages : List Message) : Prop :=
  messages.Nodup ∧ ∀ message ∈ messages,
    message ∈ s.messages.rows ∧ messageDueForRetry message now ackTimeout = true

section Selecting

variable {s' : MemoryStore} {env : StoreEnv} {now ackTimeout limit candidateLimit : Int}
  {messages : List Message} {selection : RetrySelection}

theorem due_select_due :
    s.Due now ackTimeout (s.selectDue now ackTimeout limit candidateLimit).messages :=
  ⟨select_due_nodup, fun _ h => mem_select_due h⟩

theorem listDueRetry_ok (h : s.listDueRetry env now ackTimeout limit = (.ok messages, s')) :
    s' = s ∧ s.Due (env.orClock now) ackTimeout messages := by
  unfold listDueRetry at h
  split at h
  · cases h
  · obtain ⟨hmessages, rfl⟩ := Prod.mk.inj h
    obtain rfl := Except.ok.inj hmessages
    refine ⟨rfl, limit_messages_nodup _ ((List.Nodup.of_map _ s.messages.nodup).filter _),
      fun message hm => ?_⟩
    simpa [retryCandidates] using mem_limit_messages hm

theorem listDueRetryFair_ok
    (h : s.listDueRetryFair env now ackTimeout limit candidateLimit = (.ok selection, s')) :
    s' = s ∧ s.Due (env.orClock now) ackTimeout selection.messages := by
  unfold listDueRetryFair at h
  split at h
  · cases h
  · obtain ⟨hselection, rfl⟩ := Prod.mk.inj h
    obtain rfl := Except.ok.inj hselection
    exact ⟨rfl, due_select_due⟩

theorem claimDueRetryFair_ok {owner : GoString} {lease : Int} (howner : owner ≠ [])
    (h : s.claimDueRetryFair env now ackTimeout limit candidateLimit owner lease =
      (.ok selection, s')) :
    ∃ chosen expiry, expiry = env.orClock now + (if lease ≤ 0 then 30 * second else lease) ∧
      s.Due (env.orClock now) ackTimeout chosen ∧
      selection.messages = chosen.map (Message.claimed owner expiry (env.orClock now)) ∧
      ∀ id, s'.messages.get? id =
        if id ∈ chosen.map Message.messageID then
          (s.messages.get? id).map (Message.claimed owner expiry (env.orClock now))
        else s.messages.get? id := by
  unfold claimDueRetryFair at h
  split at h
  · cases h
  · rw [if_neg howner] at h
    obtain ⟨hselection, rfl⟩ := Prod.mk.inj h
    obtain rfl := Except.ok.inj hselection
    have hstored : ∀ message ∈ (s.selectDue (env.orClock now) ackTimeout limit
        candidateLimit).messages, s.messages.get? message.messageID = some message :=
      fun message hm => Table.get?_of_mem (mem_select_due hm).1
    exact ⟨_, _, rfl, due_select_due,
      claimMessages_fst fun message hm => ⟨message, hstored message hm, rfl⟩,
      fun id => get?_claimMessages fun message hm => ⟨message, hstored message hm⟩⟩

theorem listPendingByClientDevice_ok {clientID deviceID : GoString}
    (h : s.listPendingByClientDevice env clientID deviceID limit = (.ok messages, s')) :
    s' = s ∧ messages.Nodup ∧
      ∀ message ∈ messages, message ∈ s.messages.rows ∧ message.status = .pending := by
  unfold listPendingByClientDevice at h
  split at h
  · cases h
  · obtain ⟨hmessages, rfl⟩ := Prod.mk.inj h
    obtain rfl := Except.ok.inj hmessages
    refine ⟨rfl, limit_messages_nodup _ ((List.Nodup.of_map _ s.messages.nodup).filter _),
      fun message hm => ?_⟩
    have hm := mem_limit_messages hm
    simp only [List.mem_filter, Bool.and_eq_true, decide_eq_true_eq] at hm
    exact ⟨hm.1, hm.2.1.1⟩

theorem claimDueTerminal_ok {records : List TerminalRecord} {owner : GoString} {lease : Int}
    (h : s.claimDueTerminal env now limit owner lease = (.ok records, s')) :
    ∃ (chosen : List TerminalRecord) (expiry : Int), (chosen.Nodup ∧ ∀ record ∈ chosen,
        record ∈ s.terminalEvents.rows ∧ terminalDue record (env.orClock now) = true) ∧
      records = chosen.map (TerminalRecord.claimed owner expiry) ∧
      ∀ key, s'.terminalEvents.get? key =
        if key ∈ chosen.map (fun record => record.event.eventID) then
          (s.terminalEvents.get? key).map (TerminalRecord.claimed owner expiry)
        else s.terminalEvents.get? key := by
  unfold claimDueTerminal at h
  split at h
  · cases h
  · obtain ⟨hrecords, rfl⟩ := Prod.mk.inj h
    obtain rfl := Except.ok.inj hrecords
    have hnodup : (s.selectDueTerminal (env.orClock now) limit).Nodup := by
      refine List.Nodup.sublist (List.take_sublist _ _) ?_
      exact (List.mergeSort_perm _ _).nodup_iff.mpr
        ((List.Nodup.of_map _ s.terminalEvents.nodup).filter _)
    exact ⟨_, _, ⟨hnodup, fun record hm => mem_select_due_terminal hm⟩, claimRecords_fst _,
      fun key => get?_claimRecords fun record hm =>
        ⟨record, Table.get?_of_mem (mem_select_due_terminal hm).1, rfl⟩⟩

end Selecting

theorem get?_delete_messages {id : GoString} :
    (messages.foldl (fun s message => s.deleteMessage message.messageID) s).messages.get? id =
      if id ∈ messages.map Message.messageID then none else s.messages.get? id := by
  induction messages generalizing s with
  | nil => simp
  | cons message rest ih =>
    rw [List.foldl_cons, ih]
    simp only [deleteMessage, Table.get?_erase, List.map_cons, List.mem_cons]
    by_cases hid : id = message.messageID <;> simp [hid]

theorem get?_delete_records {key : GoString} :
    (messages.foldl (fun s message => s.deleteMessage message.messageID)
        s).terminalEvents.get? key =
      if ∃ message ∈ messages, key = terminalEventID message.messageID .failed ∨
          key = terminalEventID message.messageID .discarded then none
      else s.terminalEvents.get? key := by
  induction messages generalizing s with
  | nil => simp
  | cons message rest ih =>
    rw [List.foldl_cons, ih]
    simp only [deleteMessage, Table.get?_erase, List.mem_cons, exists_eq_or_imp]
    by_cases hfailed : key = terminalEventID message.messageID .failed
    · simp [hfailed]
    · by_cases hdiscarded : key = terminalEventID message.messageID .discarded
      · simp [hdiscarded]
      · simp [hfailed, hdiscarded]

/-! ## Terminal transitions -/

/-- The message `enterTerminal` stores. -/
def terminalMessage (s : MemoryStore) (message : Message) (status : MessageStatus)
    (attempts : Nat) (lastError : GoString) (transition : TerminalTransition) : Message :=
  let ended := message.ended status attempts lastError transition.time
  if message.status ≠ status || message.terminalReason = [] then
    let entered := ended.entered transition
    if transition.publish then
      let event := newTerminalEvent entered status transition
      applyTerminalRecord entered ((s.terminalEvents.get? event.eventID).getD (.new event))
    else entered
  else ended

section Terminal

variable {message : Message} {status : MessageStatus} {attempts : Nat} {lastError : GoString}
  {transition : TerminalTransition}

theorem enterTerminal_messages :
    (s.enterTerminal message status attempts lastError transition).messages =
      s.messages.put (s.terminalMessage message status attempts lastError transition) := by
  simp only [enterTerminal, terminalMessage]
  split
  · split
    · cases s.terminalEvents.get? (newTerminalEvent
        ((message.ended status attempts lastError transition.time).entered transition)
        status transition).eventID <;> rfl
    · rfl
  · rfl

theorem terminalMessage_origin :
    (s.terminalMessage message status attempts lastError transition).origin = message.origin := by
  simp only [terminalMessage]
  split
  · split <;> rfl
  · rfl

@[simp] theorem terminalMessage_messageID :
    (s.terminalMessage message status attempts lastError transition).messageID =
      message.messageID :=
  Message.Origin.messageID_eq terminalMessage_origin

@[simp] theorem terminalMessage_status :
    (s.terminalMessage message status attempts lastError transition).status = status := by
  simp only [terminalMessage]
  split
  · split <;> rfl
  · rfl

@[simp] theorem terminalMessage_attempts :
    (s.terminalMessage message status attempts lastError transition).attempts = attempts := by
  simp only [terminalMessage]
  split
  · split <;> rfl
  · rfl

@[simp] theorem terminalMessage_identityFingerprint :
    (s.terminalMessage message status attempts lastError transition).identityFingerprint =
      message.identityFingerprint := by
  simp only [terminalMessage]
  split
  · split <;> rfl
  · rfl

end Terminal

end MemoryStore

/-! ## The changes a call can make -/

/-- A change a call can make to the store. -/
inductive StoreStep [Sha256] (env : StoreEnv) (s : MemoryStore) : StoreCall → MemoryStore → Prop
  | same {call : StoreCall} : StoreStep env s call s
  | refreshed {message existing : Message} {capacity : QueueCapacity} :
      s.messages.get? (MemoryStore.prepareMessage message env).messageID = some existing →
      existing.identityFingerprint.length ≠ 32 →
      StoreStep env s (.saveWithCapacity message capacity)
        (s.putMessage
          { existing with identityFingerprint := messageIdentityFingerprint existing })
  | created {message : Message} {capacity : QueueCapacity} :
      s.messages.get? (MemoryStore.prepareMessage message env).messageID = none →
      ((MemoryStore.prepareMessage message env).status = .pending →
        s.checkQueueCapacity message.clientID message.deviceID capacity = none) →
      StoreStep env s (.saveWithCapacity message capacity)
        (s.putMessage (MemoryStore.prepareMessage message env))
  | claimed {now ackTimeout limit candidateLimit lease : Int} {owner : GoString} :
      owner ≠ [] →
      StoreStep env s (.claimDueRetryFair now ackTimeout limit candidateLimit owner lease)
        (MemoryStore.claimMessages owner
          (env.orClock now + if lease ≤ 0 then 30 * second else lease) (env.orClock now) s
          (s.selectDue (env.orClock now) ackTimeout limit candidateLimit).messages).2
  | sent {messageID sessionID : GoString} {sentAt nextRetryAt : Int} {message : Message} :
      s.messages.get? messageID = some message →
      message.status ≠ .delivered → message.status ≠ .discarded →
      StoreStep env s (.markSent messageID sessionID sentAt nextRetryAt)
        (s.putMessage (message.sent sessionID (env.orClock sentAt) nextRetryAt env.clock))
  | delivered {messageID clientID deviceID : GoString} {deliveredAt : Int} {message : Message} :
      s.messages.get? messageID = some message →
      StoreStep env s (.markDelivered messageID clientID deviceID deliveredAt)
        (s.putMessage (message.delivered (env.orClock deliveredAt)))
  | attemptFailed {messageID reason : GoString} {nextRetryAt : Int} {message : Message} :
      s.messages.get? messageID = some message →
      message.status ≠ .delivered → message.status ≠ .discarded →
      StoreStep env s (.markAttemptFailed messageID reason nextRetryAt)
        (s.putMessage (message.attemptFailed reason nextRetryAt env.clock))
  | failed {messageID : GoString} {transition : TerminalTransition} {message : Message} :
      s.messages.get? messageID = some message →
      message.status ≠ .delivered → message.status ≠ .discarded →
      StoreStep env s (.markFailed messageID transition)
        (s.enterTerminal message .failed
          (if transition.attempted then message.attempts + 1 else message.attempts)
          transition.reason (MemoryStore.stamped transition env))
  | requeued {messageID : GoString} {requeuedAt : Int} {capacity : QueueCapacity}
      {message : Message} :
      s.messages.get? messageID = some message →
      (message.status ≠ .pending →
        s.checkQueueCapacity message.clientID message.deviceID capacity = none) →
      StoreStep env s (.requeueWithCapacity messageID requeuedAt capacity)
        (s.putMessage (message.requeued (env.orClock requeuedAt)))
  | discarded {messageID reason : GoString} {transition : TerminalTransition}
      {message : Message} :
      s.messages.get? messageID = some message →
      StoreStep env s (.discard messageID reason transition)
        (s.enterTerminal message .discarded message.attempts reason
          (MemoryStore.discardTransition transition env))
  | claimedRecords {now limit lease : Int} {owner : GoString} :
      StoreStep env s (.claimDueTerminal now limit owner lease)
        (MemoryStore.claimRecords owner
          (env.orClock now + if lease ≤ 0 then 30 * second else lease) s
          (s.selectDueTerminal (env.orClock now) limit)).2
  | published {messageID : GoString} {status : MessageStatus} {publishedAt : Int}
      {record : TerminalRecord} :
      s.terminalEvents.get? (terminalEventID messageID status) = some record →
      record.status ≠ .published →
      StoreStep env s (.markTerminalPublished messageID status publishedAt)
        ((s.putRecord (record.published (env.orClock publishedAt))).mirror messageID status
          (Message.published (record.publishAttempts + 1) (env.orClock publishedAt)))
  | publishFailed {messageID reason : GoString} {status : MessageStatus} {nextAttemptAt : Int}
      {record : TerminalRecord} :
      s.terminalEvents.get? (terminalEventID messageID status) = some record →
      record.status ≠ .published →
      StoreStep env s (.markTerminalPublishFailed messageID status reason nextAttemptAt)
        ((s.putRecord (record.publishFailed reason nextAttemptAt)).mirror messageID status
          (Message.publishFailed (record.publishAttempts + 1) reason nextAttemptAt))
  | deleted {status : MessageStatus} {before limit : Int} :
      StoreStep env s (.deleteExpired status before limit)
        ((s.expired status before limit).foldl
          (fun s message => s.deleteMessage message.messageID) s)

/-- A message with a fingerprint; one that has none of the right length gets its own. -/
def Message.fingerprinted [Sha256] (message : Message) : Message :=
  if message.identityFingerprint.length = 32 then message
  else { message with identityFingerprint := messageIdentityFingerprint message }

/-- What `SaveWithCapacity` can do. -/
inductive Saved [Sha256] (env : StoreEnv) (s : MemoryStore) (message : Message)
    (capacity : QueueCapacity) : Except StoreError SaveResult → MemoryStore → Prop
  | context {err : ContextError} : env.ctxErr = some err →
      Saved env s message capacity (.error (.context err)) s
  | existing {stored : Message} : env.ctxErr = none →
      s.messages.get? (MemoryStore.prepareMessage message env).messageID = some stored →
      Saved env s message capacity
        (.ok ⟨stored.fingerprinted,
          if messagesHaveSameIdentity stored.fingerprinted
            (MemoryStore.prepareMessage message env) then .existing else .conflict⟩)
        (if stored.identityFingerprint.length = 32 then s else s.putMessage stored.fingerprinted)
  | refused {err : QueueCapacityError} : env.ctxErr = none →
      s.messages.get? (MemoryStore.prepareMessage message env).messageID = none →
      (MemoryStore.prepareMessage message env).status = .pending →
      s.checkQueueCapacity message.clientID message.deviceID capacity = some err →
      Saved env s message capacity (.error (.capacity err)) s
  | created : env.ctxErr = none →
      s.messages.get? (MemoryStore.prepareMessage message env).messageID = none →
      ((MemoryStore.prepareMessage message env).status = .pending →
        s.checkQueueCapacity message.clientID message.deviceID capacity = none) →
      Saved env s message capacity
        (.ok ⟨MemoryStore.prepareMessage message env, .created⟩)
        (s.putMessage (MemoryStore.prepareMessage message env))

theorem Saved.created_inv [Sha256] {env : StoreEnv} {s s' : MemoryStore} {message created : Message}
    {capacity : QueueCapacity} (h : Saved env s message capacity (.ok ⟨created, .created⟩) s') :
    created = MemoryStore.prepareMessage message env ∧
      s.messages.get? created.messageID = none ∧ s' = s.putMessage created := by
  generalize hanswer : (Except.ok ⟨created, .created⟩ : Except StoreError SaveResult) = answer at h
  cases h with
  | context | refused => cases hanswer
  | existing =>
    have houtcome := congrArg SaveResult.outcome (Except.ok.inj hanswer)
    dsimp only at houtcome
    split at houtcome <;> cases houtcome
  | created _ hget =>
    obtain rfl := congrArg SaveResult.message (Except.ok.inj hanswer)
    exact ⟨rfl, hget, rfl⟩

/-- What `RequeueWithCapacity` can do. -/
inductive Requeued (env : StoreEnv) (s : MemoryStore) (messageID : GoString) (requeuedAt : Int)
    (capacity : QueueCapacity) : Except StoreError Unit → MemoryStore → Prop
  | context {err : ContextError} : env.ctxErr = some err →
      Requeued env s messageID requeuedAt capacity (.error (.context err)) s
  | notFound : env.ctxErr = none → s.messages.get? messageID = none →
      Requeued env s messageID requeuedAt capacity (.error .messageNotFound) s
  | refused {message : Message} {err : QueueCapacityError} : env.ctxErr = none →
      s.messages.get? messageID = some message → message.status ≠ .pending →
      s.checkQueueCapacity message.clientID message.deviceID capacity = some err →
      Requeued env s messageID requeuedAt capacity (.error (.capacity err)) s
  | requeued {message : Message} : env.ctxErr = none →
      s.messages.get? messageID = some message →
      (message.status ≠ .pending →
        s.checkQueueCapacity message.clientID message.deviceID capacity = none) →
      Requeued env s messageID requeuedAt capacity (.ok ())
        (s.putMessage (message.requeued (env.orClock requeuedAt)))

namespace MemoryStore

variable {s : MemoryStore} {env : StoreEnv}

theorem modifyMessage_cases (s : MemoryStore) (env : StoreEnv) (messageID : GoString)
    (edit : Message → Except StoreError MemoryStore) :
    (s.modifyMessage env messageID edit).2 = s ∨
      ∃ message, s.messages.get? messageID = some message ∧
        edit message = .ok (s.modifyMessage env messageID edit).2 := by
  unfold modifyMessage
  split
  · exact .inl rfl
  · split
    · exact .inl rfl
    · next message hget =>
      split
      · exact .inl rfl
      · next after hedit => exact .inr ⟨message, hget, hedit⟩

theorem modifyMessage_step [Sha256] {call : StoreCall} {messageID : GoString}
    {edit : Message → Except StoreError MemoryStore}
    (h : ∀ message after, s.messages.get? messageID = some message → edit message = .ok after →
      StoreStep env s call after) :
    StoreStep env s call (s.modifyMessage env messageID edit).2 := by
  rcases modifyMessage_cases s env messageID edit with hsame | ⟨message, hget, hedit⟩
  · rw [hsame]
    exact .same
  · exact h message _ hget hedit

theorem modifyRecord_step [Sha256] {call : StoreCall} {messageID : GoString}
    {status : MessageStatus} {edit : TerminalRecord → TerminalRecord}
    {mirrored : TerminalRecord → Message → Message}
    (h : ∀ record, s.terminalEvents.get? (terminalEventID messageID status) = some record →
      record.status ≠ .published →
      StoreStep env s call
        ((s.putRecord (edit record)).mirror messageID status (mirrored (edit record)))) :
    StoreStep env s call (s.modifyRecord env messageID status edit mirrored).2 := by
  simp only [modifyRecord]
  split
  · exact .same
  · split
    · exact .same
    · next record hget =>
      split
      · exact .same
      · next hpublished => exact h record hget hpublished

section Step

variable [Sha256]

theorem saveWithCapacity_saved (s : MemoryStore) (env : StoreEnv) (message : Message)
    (capacity : QueueCapacity) :
    Saved env s message capacity (s.saveWithCapacity env message capacity).1
      (s.saveWithCapacity env message capacity).2 := by
  simp only [saveWithCapacity]
  split
  · next hctx => exact .context hctx
  · next hctx =>
    have hlength : (prepareMessage message env).identityFingerprint.length = 32 :=
      length_fingerprint _
    split
    · next stored hget =>
      have hexisting : Saved env s message capacity _ _ := .existing hctx hget
      by_cases hstale : stored.identityFingerprint.length = 32
      · simpa [Message.fingerprinted, hlength, hstale] using hexisting
      · simpa [Message.fingerprinted, hlength, hstale] using hexisting
    · next hget =>
      split
      · next hrefused =>
        split at hrefused
        · next hpending => exact .refused hctx hget hpending hrefused
        · cases hrefused
      · next hroom =>
        refine .created hctx hget fun hpending => ?_
        rwa [if_pos hpending] at hroom

theorem saveWithCapacity_step {message : Message} {capacity : QueueCapacity} :
    StoreStep env s (.saveWithCapacity message capacity)
      (s.saveWithCapacity env message capacity).2 := by
  have hsaved := saveWithCapacity_saved s env message capacity
  generalize (s.saveWithCapacity env message capacity).1 = result at hsaved
  generalize (s.saveWithCapacity env message capacity).2 = after at hsaved
  cases hsaved with
  | context | refused => exact .same
  | @existing stored _ hget =>
    by_cases hstale : stored.identityFingerprint.length = 32
    · rw [if_pos hstale]
      exact .same
    · rw [if_neg hstale, Message.fingerprinted, if_neg hstale]
      exact .refreshed hget hstale
  | created _ hget hroom => exact .created hget hroom

theorem claimDueRetryFair_step {now ackTimeout limit candidateLimit lease : Int}
    {owner : GoString} :
    StoreStep env s (.claimDueRetryFair now ackTimeout limit candidateLimit owner lease)
      (s.claimDueRetryFair env now ackTimeout limit candidateLimit owner lease).2 := by
  simp only [claimDueRetryFair]
  split
  · exact .same
  · split
    · simp only [listDueRetryFair]
      split <;> exact .same
    · next howner => exact .claimed howner

omit [Sha256] in
theorem requeueWithCapacity_requeued (s : MemoryStore) (env : StoreEnv) (messageID : GoString)
    (requeuedAt : Int) (capacity : QueueCapacity) :
    Requeued env s messageID requeuedAt capacity
      (s.requeueWithCapacity env messageID requeuedAt capacity).1
      (s.requeueWithCapacity env messageID requeuedAt capacity).2 := by
  simp only [requeueWithCapacity, modifyMessage]
  split
  · next hctx => exact .context hctx
  · next hctx =>
    split
    · next hget => exact .notFound hctx hget
    · next message hget =>
      cases hcheck : if message.status ≠ .pending then
          s.checkQueueCapacity message.clientID message.deviceID capacity else none with
      | some err =>
        split at hcheck
        · next hpending => exact .refused hctx hget hpending hcheck
        · cases hcheck
      | none =>
        refine .requeued hctx hget fun hpending => ?_
        rwa [if_pos hpending] at hcheck

theorem requeueWithCapacity_step {messageID : GoString} {requeuedAt : Int}
    {capacity : QueueCapacity} :
    StoreStep env s (.requeueWithCapacity messageID requeuedAt capacity)
      (s.requeueWithCapacity env messageID requeuedAt capacity).2 := by
  have hrequeued := requeueWithCapacity_requeued s env messageID requeuedAt capacity
  generalize (s.requeueWithCapacity env messageID requeuedAt capacity).1 = result at hrequeued
  generalize (s.requeueWithCapacity env messageID requeuedAt capacity).2 = after at hrequeued
  cases hrequeued with
  | context | notFound | refused => exact .same
  | requeued _ hget hroom => exact .requeued hget hroom

/-- A call makes one of the listed changes. -/
theorem call_step (call : StoreCall) : StoreStep env s call (s.call env call).2 := by
  cases call with
  | saveWithCapacity => exact saveWithCapacity_step
  | get => simp only [call, get]; split <;> exact .same
  | listDueRetry => simp only [call, listDueRetry]; split <;> exact .same
  | listDueRetryFair => simp only [call, listDueRetryFair]; split <;> exact .same
  | claimDueRetryFair => exact claimDueRetryFair_step
  | listPendingByClientDevice =>
    simp only [call, listPendingByClientDevice]; split <;> exact .same
  | markSent =>
    refine modifyMessage_step fun message after hget hedit => ?_
    split_ifs at hedit with hdelivered hdiscarded <;> obtain rfl := Except.ok.inj hedit
    · exact .same
    · exact .same
    · exact .sent hget hdelivered hdiscarded
  | markDelivered =>
    refine modifyMessage_step fun message after hget hedit => ?_
    split_ifs at hedit
    obtain rfl := Except.ok.inj hedit
    exact .delivered hget
  | markAttemptFailed =>
    refine modifyMessage_step fun message after hget hedit => ?_
    split_ifs at hedit with hfinal <;> obtain rfl := Except.ok.inj hedit
    · exact .same
    · simp only [Bool.or_eq_true, decide_eq_true_eq, not_or] at hfinal
      exact .attemptFailed hget hfinal.1 hfinal.2
  | markFailed =>
    refine modifyMessage_step fun message after hget hedit => ?_
    by_cases hfinal : message.status = .delivered ∨ message.status = .discarded
    · rw [if_pos (by simpa using hfinal)] at hedit
      obtain rfl := Except.ok.inj hedit
      exact .same
    · rw [if_neg (by simpa using hfinal)] at hedit
      obtain rfl := Except.ok.inj hedit
      exact .failed hget (fun h => hfinal (.inl h)) fun h => hfinal (.inr h)
  | requeueWithCapacity => exact requeueWithCapacity_step
  | discard =>
    refine modifyMessage_step fun message after hget hedit => ?_
    obtain rfl := Except.ok.inj hedit
    exact .discarded hget
  | claimDueTerminal =>
    simp only [call, claimDueTerminal]
    split
    · exact .same
    · exact .claimedRecords
  | markTerminalPublished => exact modifyRecord_step fun record hget hnew => .published hget hnew
  | markTerminalPublishFailed =>
    exact modifyRecord_step fun record hget hnew => .publishFailed hget hnew
  | deleteExpired =>
    simp only [call, deleteExpired]
    split
    · exact .same
    · split
      · exact .same
      · exact .deleted

end Step

end MemoryStore

/-! ## One message -/

/-- A change a call can make to a stored message. -/
inductive MessageEdit [Sha256] (env : StoreEnv) (s : MemoryStore) :
    StoreCall → Message → Message → Prop
  | refreshed {message submitted : Message} {capacity : QueueCapacity} :
      message.identityFingerprint.length ≠ 32 →
      MessageEdit env s (.saveWithCapacity submitted capacity) message
        { message with identityFingerprint := messageIdentityFingerprint message }
  | claimed {message : Message} {now ackTimeout limit candidateLimit lease : Int}
      {owner : GoString} :
      messageDueForRetry message (env.orClock now) ackTimeout = true → owner ≠ [] →
      MessageEdit env s (.claimDueRetryFair now ackTimeout limit candidateLimit owner lease)
        message
        (message.claimed owner (env.orClock now + if lease ≤ 0 then 30 * second else lease)
          (env.orClock now))
  | sent {message : Message} {sessionID : GoString} {sentAt nextRetryAt : Int} :
      message.status ≠ .delivered → message.status ≠ .discarded →
      MessageEdit env s (.markSent message.messageID sessionID sentAt nextRetryAt) message
        (message.sent sessionID (env.orClock sentAt) nextRetryAt env.clock)
  | delivered {message : Message} {clientID deviceID : GoString} {deliveredAt : Int} :
      MessageEdit env s (.markDelivered message.messageID clientID deviceID deliveredAt) message
        (message.delivered (env.orClock deliveredAt))
  | attemptFailed {message : Message} {reason : GoString} {nextRetryAt : Int} :
      message.status ≠ .delivered → message.status ≠ .discarded →
      MessageEdit env s (.markAttemptFailed message.messageID reason nextRetryAt) message
        (message.attemptFailed reason nextRetryAt env.clock)
  | failed {message : Message} {transition : TerminalTransition} :
      message.status ≠ .delivered → message.status ≠ .discarded →
      MessageEdit env s (.markFailed message.messageID transition) message
        (s.terminalMessage message .failed
          (if transition.attempted then message.attempts + 1 else message.attempts)
          transition.reason (MemoryStore.stamped transition env))
  | requeued {message : Message} {requeuedAt : Int} {capacity : QueueCapacity} :
      MessageEdit env s (.requeueWithCapacity message.messageID requeuedAt capacity) message
        (message.requeued (env.orClock requeuedAt))
  | discarded {message : Message} {reason : GoString} {transition : TerminalTransition} :
      MessageEdit env s (.discard message.messageID reason transition) message
        (s.terminalMessage message .discarded message.attempts reason
          (MemoryStore.discardTransition transition env))
  | published {message : Message} {publishedAt : Int} {attempts : Nat} :
      MessageEdit env s (.markTerminalPublished message.messageID message.status publishedAt)
        message (message.published attempts (env.orClock publishedAt))
  | publishFailed {message : Message} {reason : GoString} {nextAttemptAt : Int}
      {attempts : Nat} :
      MessageEdit env s
        (.markTerminalPublishFailed message.messageID message.status reason nextAttemptAt)
        message (message.publishFailed attempts reason nextAttemptAt)

theorem MessageEdit.origin_eq [Sha256] {env : StoreEnv} {s : MemoryStore} {call : StoreCall}
    {message message' : Message} (h : MessageEdit env s call message message') :
    message'.origin = message.origin := by
  cases h with
  | failed | discarded => exact MemoryStore.terminalMessage_origin
  | refreshed | claimed | sent | delivered | attemptFailed | requeued | published
  | publishFailed => rfl

/-- What can happen to the message with one id: it stays as it is or absent, it is created, it is
changed, or `DeleteExpired` removes it. -/
inductive SlotStep [Sha256] (env : StoreEnv) (s : MemoryStore) (id : GoString) :
    StoreCall → Option Message → Option Message → Prop
  | same {call : StoreCall} {slot : Option Message} : SlotStep env s id call slot slot
  | created {message : Message} {capacity : QueueCapacity} :
      (MemoryStore.prepareMessage message env).messageID = id →
      SlotStep env s id (.saveWithCapacity message capacity) none
        (some (MemoryStore.prepareMessage message env))
  | edited {call : StoreCall} {message message' : Message} :
      message.messageID = id → MessageEdit env s call message message' →
      SlotStep env s id call (some message) (some message')
  | removed {status : MessageStatus} {before limit : Int} {message : Message} :
      message.messageID = id → message.status = status →
      s.hasUnpublishedTerminalEvent id = false →
      SlotStep env s id (.deleteExpired status before limit) (some message) none

namespace StoreStep

variable [Sha256] {env : StoreEnv} {s s' : MemoryStore} {call : StoreCall}

/-- Storing an edited message changes one slot. -/
theorem slot_put {message message' : Message} {id messageID : GoString}
    (hget : s.messages.get? messageID = some message)
    (hid : message'.messageID = message.messageID)
    (hedit : MessageEdit env s call message message') :
    SlotStep env s id call (s.messages.get? id) ((s.messages.put message').get? id) := by
  have hkey : message.messageID = messageID := Table.key_of_get? hget
  rw [Table.get?_put, hid, hkey]
  split
  · next h =>
    subst h
    rw [hget]
    exact .edited hkey hedit
  · exact .same

theorem slot_mirror {messageID id : GoString} {status : MessageStatus} {record : TerminalRecord}
    {edit : Message → Message}
    (hid : ∀ message, (edit message).messageID = message.messageID)
    (hedit : ∀ message, message.messageID = messageID → message.status = status →
      MessageEdit env s call message (edit message)) :
    SlotStep env s id call (s.messages.get? id)
      (((s.putRecord record).mirror messageID status edit).messages.get? id) := by
  simp only [MemoryStore.mirror, MemoryStore.putRecord_messages]
  cases hget : s.messages.get? messageID with
  | none => exact .same
  | some message =>
    by_cases hstatus : message.status = status
    · simp only [hstatus, if_true]
      exact slot_put hget (hid _) (hedit message (Table.key_of_get? hget) hstatus)
    · simp only [hstatus, if_false]
      exact .same

/-- What a step does to the message with a given id. -/
theorem slot (h : StoreStep env s call s') (id : GoString) :
    SlotStep env s id call (s.messages.get? id) (s'.messages.get? id) := by
  cases h with
  | same => exact .same
  | refreshed hget hstale => exact slot_put hget rfl (.refreshed hstale)
  | created hget =>
    rw [MemoryStore.get?_putMessage]
    split
    · next hid =>
      subst hid
      rw [hget]
      exact .created rfl
    · exact .same
  | claimed howner =>
    rw [MemoryStore.get?_claimMessages fun message hmem =>
      ⟨message, Table.get?_of_mem (MemoryStore.mem_select_due hmem).1⟩]
    split
    · next hmem =>
      obtain ⟨message, hselected, rfl⟩ := List.mem_map.mp hmem
      obtain ⟨hrow, hdue⟩ := MemoryStore.mem_select_due hselected
      rw [Table.get?_of_mem hrow]
      exact .edited rfl (.claimed hdue howner)
    · exact .same
  | @sent messageID sessionID sentAt nextRetryAt message hget hdelivered hdiscarded =>
    obtain rfl : message.messageID = messageID := Table.key_of_get? hget
    exact slot_put hget rfl (.sent hdelivered hdiscarded)
  | @delivered messageID clientID deviceID deliveredAt message hget =>
    obtain rfl : message.messageID = messageID := Table.key_of_get? hget
    exact slot_put hget rfl .delivered
  | @attemptFailed messageID reason nextRetryAt message hget hdelivered hdiscarded =>
    obtain rfl : message.messageID = messageID := Table.key_of_get? hget
    exact slot_put hget rfl (.attemptFailed hdelivered hdiscarded)
  | @failed messageID transition message hget hdelivered hdiscarded =>
    obtain rfl : message.messageID = messageID := Table.key_of_get? hget
    rw [MemoryStore.enterTerminal_messages]
    exact slot_put hget MemoryStore.terminalMessage_messageID (.failed hdelivered hdiscarded)
  | @requeued messageID requeuedAt capacity message hget =>
    obtain rfl : message.messageID = messageID := Table.key_of_get? hget
    exact slot_put hget rfl .requeued
  | @discarded messageID reason transition message hget =>
    obtain rfl : message.messageID = messageID := Table.key_of_get? hget
    rw [MemoryStore.enterTerminal_messages]
    exact slot_put hget MemoryStore.terminalMessage_messageID .discarded
  | claimedRecords =>
    rw [MemoryStore.claimRecords_messages]
    exact .same
  | published =>
    refine slot_mirror (fun _ => rfl) ?_
    rintro message rfl rfl
    exact .published
  | publishFailed =>
    refine slot_mirror (fun _ => rfl) ?_
    rintro message rfl rfl
    exact .publishFailed
  | deleted =>
    rw [MemoryStore.get?_delete_messages]
    split
    · next hmem =>
      obtain ⟨message, hselected, rfl⟩ := List.mem_map.mp hmem
      obtain ⟨hrow, hstatus, hpublished⟩ := MemoryStore.mem_expired hselected
      rw [Table.get?_of_mem hrow]
      exact .removed rfl hstatus hpublished
    · exact .same

end StoreStep

/-! ## One outbox record -/

/-- What can happen to the outbox record under one key: it stays as it is or absent, it is
created, claimed, reported on while unpublished, or removed together with its message. -/
inductive RecordStep (env : StoreEnv) (s : MemoryStore) (key : GoString) :
    StoreCall → Option TerminalRecord → Option TerminalRecord → Prop
  | same {call : StoreCall} {slot : Option TerminalRecord} : RecordStep env s key call slot slot
  | created {call : StoreCall} {event : TerminalEvent} : event.eventID = key →
      event.eventID = terminalEventID event.messageID event.terminalStatus →
      RecordStep env s key call none (some (.new event))
  | claimed {record : TerminalRecord} {now limit lease : Int} {owner : GoString} :
      terminalDue record (env.orClock now) = true →
      RecordStep env s key (.claimDueTerminal now limit owner lease) (some record)
        (some (record.claimed owner
          (env.orClock now + if lease ≤ 0 then 30 * second else lease)))
  | published {record : TerminalRecord} {messageID : GoString} {status : MessageStatus}
      {publishedAt : Int} :
      key = terminalEventID messageID status → record.status ≠ .published →
      RecordStep env s key (.markTerminalPublished messageID status publishedAt) (some record)
        (some (record.published (env.orClock publishedAt)))
  | publishFailed {record : TerminalRecord} {messageID reason : GoString}
      {status : MessageStatus} {nextAttemptAt : Int} :
      key = terminalEventID messageID status → record.status ≠ .published →
      RecordStep env s key (.markTerminalPublishFailed messageID status reason nextAttemptAt)
        (some record) (some (record.publishFailed reason nextAttemptAt))
  | removed {record : TerminalRecord} {status : MessageStatus} {before limit : Int}
      {messageID : GoString} :
      (key = terminalEventID messageID .failed ∨ key = terminalEventID messageID .discarded) →
      s.hasUnpublishedTerminalEvent messageID = false →
      RecordStep env s key (.deleteExpired status before limit) (some record) none

namespace MemoryStore

variable {s : MemoryStore}

@[simp] theorem mirror_terminalEvents {messageID : GoString} {status : MessageStatus}
    {edit : Message → Message} :
    (s.mirror messageID status edit).terminalEvents = s.terminalEvents := by
  simp only [mirror]
  split
  · rfl
  · split <;> rfl

theorem enterTerminal_terminalEvents {message : Message} {status : MessageStatus}
    {attempts : Nat} {lastError : GoString} {transition : TerminalTransition} :
    (s.enterTerminal message status attempts lastError transition).terminalEvents =
        s.terminalEvents ∨
      ∃ event : TerminalEvent, s.terminalEvents.get? event.eventID = none ∧
        event.eventID = terminalEventID event.messageID event.terminalStatus ∧
        (s.enterTerminal message status attempts lastError transition).terminalEvents =
          s.terminalEvents.put (.new event) := by
  simp only [enterTerminal]
  split
  · split
    · split
      · exact .inl rfl
      · next hnone => exact .inr ⟨_, hnone, rfl, rfl⟩
    · exact .inl rfl
  · exact .inl rfl

end MemoryStore

namespace StoreStep

variable {env : StoreEnv} {s s' : MemoryStore} {call : StoreCall}

theorem record_enterTerminal {message : Message} {status : MessageStatus} {attempts : Nat}
    {lastError key : GoString} {transition : TerminalTransition} :
    RecordStep env s key call (s.terminalEvents.get? key)
      ((s.enterTerminal message status attempts lastError transition).terminalEvents.get? key) := by
  rcases @MemoryStore.enterTerminal_terminalEvents s message status attempts lastError transition
    with heq | ⟨event, hnone, hkeyed, heq⟩
  · rw [heq]
    exact .same
  · rw [heq, Table.get?_put]
    split
    · next hkey =>
      have hkey' : key = event.eventID := hkey
      rw [hkey', hnone]
      exact .created rfl hkeyed
    · exact .same

theorem record_mirror {messageID key : GoString} {status : MessageStatus}
    {record record' : TerminalRecord} {edit : Message → Message}
    (hget : s.terminalEvents.get? (terminalEventID messageID status) = some record)
    (hevent : record'.event = record.event)
    (hstep : RecordStep env s (terminalEventID messageID status) call (some record)
      (some record')) :
    RecordStep env s key call (s.terminalEvents.get? key)
      (((s.putRecord record').mirror messageID status edit).terminalEvents.get? key) := by
  have hkey := MemoryStore.eventID_of_get? hget
  rw [MemoryStore.mirror_terminalEvents, MemoryStore.get?_putRecord, hevent, hkey]
  split
  · next h =>
    subst h
    rw [hget]
    exact hstep
  · exact .same

/-- What a step does to the record under a given key. -/
theorem record [Sha256] (h : StoreStep env s call s') (key : GoString) :
    RecordStep env s key call (s.terminalEvents.get? key) (s'.terminalEvents.get? key) := by
  cases h with
  | same | refreshed | created | sent | delivered | attemptFailed | requeued => exact .same
  | claimed =>
    rw [MemoryStore.claimMessages_terminalEvents]
    exact .same
  | failed | discarded => exact record_enterTerminal
  | claimedRecords =>
    rw [MemoryStore.get?_claimRecords fun record hmem =>
      ⟨record, Table.get?_of_mem (MemoryStore.mem_select_due_terminal hmem).1, rfl⟩]
    split
    · next hmem =>
      obtain ⟨record, hselected, rfl⟩ := List.mem_map.mp hmem
      obtain ⟨hrow, hdue⟩ := MemoryStore.mem_select_due_terminal hselected
      have hget : s.terminalEvents.get? record.event.eventID = some record :=
        Table.get?_of_mem hrow
      rw [hget]
      exact .claimed hdue
    · exact .same
  | published hget hnew => exact record_mirror hget rfl (.published rfl hnew)
  | publishFailed hget hnew => exact record_mirror hget rfl (.publishFailed rfl hnew)
  | deleted =>
    rw [MemoryStore.get?_delete_records]
    split
    · next hex =>
      obtain ⟨message, hmem, hkey⟩ := hex
      cases s.terminalEvents.get? key with
      | none => exact .same
      | some record => exact .removed hkey (MemoryStore.mem_expired hmem).2.2
    · exact .same

end StoreStep

end ZCourier.Downlink
