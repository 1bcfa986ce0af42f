import ZCourier.Downlink.StoreStep

/-!
# Queue admission

How many messages are pending under a fixed `QueueCapacity`. The limits are checked where a
message is created or requeued; `MarkAttemptFailed` turns a sent or failed message pending without
a check. `Reached` therefore keeps the devices of these readmitted messages next to the store.
`admission_exact` is the result.
-/

namespace ZCourier.Downlink

open Go Library

/-- The number of pending messages in a scope. -/
def MemoryStore.pending (s : MemoryStore) (scope : Message → Bool) : Nat :=
  s.messages.count fun message => message.status = .pending && scope message

def everyMessage (_ : Message) : Bool := true

/-- The scope of one device's messages. -/
def ofDevice (device : GoString × GoString) (message : Message) : Bool :=
  message.clientID = device.1 && message.deviceID = device.2

def DeviceScope (scope : Message → Bool) : Prop :=
  ∀ {a b : Message}, a.device = b.device → scope a = scope b

theorem every_message_scope : DeviceScope everyMessage := fun _ => rfl

theorem of_device_scope (device : GoString × GoString) : DeviceScope (ofDevice device) := by
  intro a b h
  simp only [Message.device, Prod.mk.injEq] at h
  simp [ofDevice, h]

theorem device_eq_of_origin {a b : Message} (h : a.origin = b.origin) : a.device = b.device := by
  have hidentity := Message.Origin.identity_eq h
  exact Prod.ext (congrArg Identity.clientID hidentity) (congrArg Identity.deviceID hidentity)

/-- The refusal tells the truth: its scope's limit is enabled and reached, and the count it
reports is the real one. -/
def Justified (s : MemoryStore) (clientID deviceID : GoString) (capacity : QueueCapacity)
    (err : QueueCapacityError) : Prop :=
  match err.scope with
  | .global => 0 < capacity.maxPendingGlobal ∧ err.limit = capacity.maxPendingGlobal ∧
      err.pending = s.globalPending ∧ err.limit ≤ s.globalPending
  | .device => 0 < capacity.maxPendingPerDevice ∧ err.limit = capacity.maxPendingPerDevice ∧
      err.pending = s.devicePending clientID deviceID ∧
      err.limit ≤ s.devicePending clientID deviceID

namespace MemoryStore

variable {s : MemoryStore}

theorem globalPending_eq : s.globalPending = s.pending everyMessage := by
  simp [globalPending, pending, everyMessage]

section Check

variable {clientID deviceID : GoString} {capacity : QueueCapacity}

theorem checkQueueCapacity_none (h : s.checkQueueCapacity clientID deviceID capacity = none) :
    (0 < capacity.maxPendingGlobal → s.globalPending < capacity.maxPendingGlobal) ∧
    (0 < capacity.maxPendingPerDevice →
      s.devicePending clientID deviceID < capacity.maxPendingPerDevice) := by
  unfold checkQueueCapacity at h
  split at h
  · next henabled =>
    simp only [QueueCapacity.enabled, Bool.not_eq_true', Bool.or_eq_false_iff,
      decide_eq_false_iff_not] at henabled
    exact ⟨fun hpos => absurd hpos henabled.1, fun hpos => absurd hpos henabled.2⟩
  · split at h
    · cases h
    · next hglobal =>
      split at h
      · cases h
      · next hdevice =>
        simp only [Bool.and_eq_true, decide_eq_true_eq, not_and, Int.not_le] at hglobal hdevice
        exact ⟨hglobal, hdevice⟩

theorem checkQueueCapacity_some {err : QueueCapacityError}
    (h : s.checkQueueCapacity clientID deviceID capacity = some err) :
    Justified s clientID deviceID capacity err := by
  simp only [checkQueueCapacity] at h
  split_ifs at h with _ hglobal hdevice
  · obtain rfl := Option.some.inj h
    simp only [Bool.and_eq_true, decide_eq_true_eq] at hglobal
    exact ⟨hglobal.1, rfl, rfl, hglobal.2⟩
  · obtain rfl := Option.some.inj h
    simp only [Bool.and_eq_true, decide_eq_true_eq] at hdevice
    exact ⟨hdevice.1, rfl, rfl, hdevice.2⟩

end Check

/-! ## How a step changes the pending count -/

section Count

variable {scope : Message → Bool}

theorem pending_create {message : Message} (h : s.messages.get? message.messageID = none) :
    (s.putMessage message).pending scope =
      s.pending scope + (decide (message.status = .pending) && scope message).toNat := by
  have hcount := @Table.count_put _ _ Message.messageID _ s.messages message
    fun message => message.status = .pending && scope message
  simpa [h, pending, putMessage] using hcount

/-- Storing a message in the place of another one. -/
theorem pending_replace (hscope : DeviceScope scope) {message message' : Message} {id : GoString}
    (hget : s.messages.get? id = some message) (horigin : message'.origin = message.origin) :
    (s.putMessage message').pending scope +
        (decide (message.status = .pending) && scope message).toNat =
      s.pending scope + (decide (message'.status = .pending) && scope message).toNat := by
  have hid : message'.messageID = id := by
    rw [Message.Origin.messageID_eq horigin]
    exact Table.key_of_get? hget
  have hcount := @Table.count_put _ _ Message.messageID _ s.messages message'
    fun message => message.status = .pending && scope message
  rw [hid, hget] at hcount
  simpa [pending, putMessage, hscope (device_eq_of_origin horigin)] using hcount

theorem pending_claimMessages (hscope : DeviceScope scope) {owner : GoString} {expiry now : Int}
    {messages : List Message}
    (h : ∀ message ∈ messages, ∃ stored, s.messages.get? message.messageID = some stored) :
    (claimMessages owner expiry now s messages).2.pending scope = s.pending scope := by
  induction messages generalizing s with
  | nil => rfl
  | cons message rest ih =>
    obtain ⟨stored, hstored⟩ := h message List.mem_cons_self
    simp only [claimMessages, hstored, Option.getD_some]
    rw [ih]
    · have hcount := @pending_replace s scope hscope stored (stored.claimed owner expiry now)
        message.messageID hstored rfl
      have hstatus : (stored.claimed owner expiry now).status = stored.status := rfl
      rw [hstatus] at hcount
      exact Nat.add_right_cancel hcount
    · intro later hlater
      rw [get?_putMessage]
      split
      · exact ⟨_, rfl⟩
      · exact h later (List.mem_cons_of_mem _ hlater)

theorem pending_deleteMessages {messages : List Message} :
    (messages.foldl (fun s message => s.deleteMessage message.messageID) s).pending scope ≤
      s.pending scope := by
  induction messages generalizing s with
  | nil => exact le_rfl
  | cons message rest ih => exact ih.trans Table.count_keep_le

theorem pending_mirror (hscope : DeviceScope scope) {record : TerminalRecord}
    {messageID : GoString} {status : MessageStatus} {edit : Message → Message}
    (horigin : ∀ message, (edit message).origin = message.origin)
    (hstatus : ∀ message, (edit message).status = message.status) :
    ((s.putRecord record).mirror messageID status edit).pending scope = s.pending scope := by
  simp only [mirror]
  split
  · rfl
  · next message hget =>
    split
    · have hcount := @pending_replace (s.putRecord record) scope hscope message (edit message)
        messageID hget (horigin message)
      rw [hstatus] at hcount
      exact Nat.add_right_cancel hcount
    · rfl

end Count

end MemoryStore

/-- The pending messages of a scope after a step: no more than before, or one more because a
message was admitted under the limits, or one more because `MarkAttemptFailed` turned a message
pending. -/
inductive PendingStep (s : MemoryStore) (scope : Message → Bool) : StoreCall → Nat → Prop
  | kept {call : StoreCall} {count : Nat} : count ≤ s.pending scope →
      PendingStep s scope call count
  | admitted {call : StoreCall} {message : Message} {capacity : QueueCapacity} :
      (call = .saveWithCapacity message capacity ∨
        ∃ requeuedAt, call = .requeueWithCapacity message.messageID requeuedAt capacity) →
      s.checkQueueCapacity message.clientID message.deviceID capacity = none →
      PendingStep s scope call (s.pending scope + (scope message).toNat)
  | readmitted {message : Message} {reason : GoString} {nextRetryAt : Int} :
      s.messages.get? message.messageID = some message → message.status ≠ .pending →
      message.status ≠ .delivered → message.status ≠ .discarded →
      PendingStep s scope (.markAttemptFailed message.messageID reason nextRetryAt)
        (s.pending scope + (scope message).toNat)

/-- What a step does to the pending count of a scope. -/
theorem StoreStep.pending [Sha256] {env : StoreEnv} {s s' : MemoryStore} {call : StoreCall}
    {scope : Message → Bool} (hscope : DeviceScope scope) (h : StoreStep env s call s') :
    PendingStep s scope call (s'.pending scope) := by
  -- a message that leaves the pending status, or keeps it, does not add to the count
  have hreplace : ∀ {id message message'}, s.messages.get? id = some message →
      message'.origin = message.origin →
      (message'.status = .pending → message.status = .pending) →
      (s.putMessage message').pending scope ≤ s.pending scope := by
    intro id message message' hget horigin hstatus
    have hcount := MemoryStore.pending_replace hscope hget horigin
    by_cases hpending : message'.status = .pending
    · simp only [hpending, hstatus hpending] at hcount
      omega
    · simp only [hpending, decide_false, Bool.false_and, Bool.toNat_false] at hcount
      omega
  cases h with
  | same => exact .kept le_rfl
  | refreshed hget => exact .kept (hreplace hget rfl id)
  | @created message capacity hget hcapacity =>
    have hsame : scope (MemoryStore.prepareMessage message env) = scope message := hscope rfl
    rw [MemoryStore.pending_create hget, hsame]
    by_cases hpending : (MemoryStore.prepareMessage message env).status = .pending
    · simp only [hpending, decide_true, Bool.true_and]
      exact .admitted (.inl rfl) (hcapacity hpending)
    · simp only [hpending, decide_false, Bool.false_and, Bool.toNat_false, Nat.add_zero]
      exact .kept le_rfl
  | claimed =>
    refine .kept (MemoryStore.pending_claimMessages hscope ?_).le
    exact fun message hmem => ⟨message, Table.get?_of_mem (MemoryStore.mem_select_due hmem).1⟩
  | sent hget | delivered hget => exact .kept (hreplace hget rfl (by intro h; cases h))
  | @attemptFailed messageID reason nextRetryAt message hget hdelivered hdiscarded =>
    obtain rfl : message.messageID = messageID := Table.key_of_get? hget
    by_cases hpending : message.status = .pending
    · exact .kept (hreplace hget rfl fun _ => hpending)
    · have hcount := @MemoryStore.pending_replace s scope hscope message
        (message.attemptFailed reason nextRetryAt env.clock) _ hget rfl
      have hadded : (s.putMessage (message.attemptFailed reason nextRetryAt env.clock)).pending
          scope = s.pending scope + (scope message).toNat := by
        simpa [hpending] using hcount
      rw [hadded]
      exact .readmitted hget hpending hdelivered hdiscarded
  | failed hget | discarded hget =>
    refine .kept ?_
    simp only [MemoryStore.pending, MemoryStore.enterTerminal_messages]
    refine hreplace hget MemoryStore.terminalMessage_origin fun h => ?_
    rw [MemoryStore.terminalMessage_status] at h
    cases h
  | @requeued messageID requeuedAt capacity message hget hcapacity =>
    obtain rfl : message.messageID = messageID := Table.key_of_get? hget
    by_cases hpending : message.status = .pending
    · exact .kept (hreplace hget rfl fun _ => hpending)
    · have hcount := @MemoryStore.pending_replace s scope hscope message
        (message.requeued (env.orClock requeuedAt)) _ hget rfl
      have hadded : (s.putMessage (message.requeued (env.orClock requeuedAt))).pending
          scope = s.pending scope + (scope message).toNat := by
        simpa [hpending] using hcount
      rw [hadded]
      exact .admitted (.inr ⟨_, rfl⟩) (hcapacity hpending)
  | claimedRecords =>
    simp only [MemoryStore.pending, MemoryStore.claimRecords_messages]
    exact .kept le_rfl
  | published | publishFailed =>
    refine .kept (le_of_eq (MemoryStore.pending_mirror hscope ?_ ?_)) <;> exact fun _ => rfl
  | deleted => exact .kept MemoryStore.pending_deleteMessages

/-! ## Sequences of calls under one capacity -/

/-- A call that, where it takes a capacity, is given this one. -/
def StoreCall.Within (capacity : QueueCapacity) : StoreCall → Prop
  | .saveWithCapacity _ given => given = capacity
  | .requeueWithCapacity _ _ given => given = capacity
  | _ => True

section

variable [Sha256]

/-- The device of the message that a call of `MarkAttemptFailed` turns pending, if it was not
pending before. -/
def MemoryStore.readmits (s : MemoryStore) (env : StoreEnv) (call : StoreCall) :
    Option (GoString × GoString) :=
  match call with
  | .markAttemptFailed messageID reason nextRetryAt =>
    match s.messages.get? messageID,
      (s.markAttemptFailed env messageID reason nextRetryAt).2.messages.get? messageID with
    | some before, some after =>
      if before.status ≠ .pending && after.status = .pending then some before.device else none
    | _, _ => none
  | _ => none

/-- `Reached capacity s readmitted`: calls under `capacity` lead from the empty store to `s`, and
`readmitted` holds the devices of the messages that `MarkAttemptFailed` turned pending. -/
inductive Reached (capacity : QueueCapacity) : MemoryStore → List (GoString × GoString) → Prop
  | empty : Reached capacity .new []
  | call {s : MemoryStore} {readmitted : List (GoString × GoString)} (env : StoreEnv)
      (call : StoreCall) : Reached capacity s readmitted → call.Within capacity →
      Reached capacity (s.call env call).2 ((s.readmits env call).toList ++ readmitted)

variable {s s' : MemoryStore} {env : StoreEnv} {capacity : QueueCapacity}

omit [Sha256] in
theorem readmits_of_stored {message : Message} {reason : GoString} {nextRetryAt : Int}
    (hctx : env.ctxErr = none) (hget : s.messages.get? message.messageID = some message)
    (hpending : message.status ≠ .pending) (hdelivered : message.status ≠ .delivered)
    (hdiscarded : message.status ≠ .discarded) :
    s.readmits env (.markAttemptFailed message.messageID reason nextRetryAt) =
      some message.device := by
  have hafter : (s.markAttemptFailed env message.messageID reason nextRetryAt).2 =
      s.putMessage (message.attemptFailed reason nextRetryAt env.clock) := by
    simp [MemoryStore.markAttemptFailed, MemoryStore.modifyMessage, hctx, hget, hdelivered,
      hdiscarded]
  have hstored : (s.putMessage (message.attemptFailed reason nextRetryAt env.clock)).messages.get?
      message.messageID = some (message.attemptFailed reason nextRetryAt env.clock) := by
    rw [MemoryStore.get?_putMessage]
    exact if_pos rfl
  simp [MemoryStore.readmits, hafter, hget, hstored, hpending]

theorem call_of_context {err : ContextError} (hctx : env.ctxErr = some err) (call : StoreCall) :
    (s.call env call).2 = s := by
  cases call <;>
    simp [MemoryStore.call, MemoryStore.saveWithCapacity, MemoryStore.get,
      MemoryStore.listDueRetry, MemoryStore.listDueRetryFair, MemoryStore.claimDueRetryFair,
      MemoryStore.listPendingByClientDevice, MemoryStore.markSent, MemoryStore.markDelivered,
      MemoryStore.markAttemptFailed, MemoryStore.markFailed, MemoryStore.requeueWithCapacity,
      MemoryStore.discard, MemoryStore.claimDueTerminal, MemoryStore.markTerminalPublished,
      MemoryStore.markTerminalPublishFailed, MemoryStore.deleteExpired,
      MemoryStore.modifyMessage, MemoryStore.modifyRecord, hctx]

theorem pending_le_of_reached {scope : Message → Bool} (inScope : GoString × GoString → Bool)
    {limit : Int} (hscope : DeviceScope scope)
    (hinScope : ∀ message : Message, inScope message.device = scope message)
    (hpos : 0 < limit)
    (hlimit : ∀ {s : MemoryStore} {message : Message},
      s.checkQueueCapacity message.clientID message.deviceID capacity = none →
      scope message = true → s.pending scope < limit)
    {readmitted : List (GoString × GoString)} (h : Reached capacity s readmitted) :
    s.pending scope ≤ limit + readmitted.countP inScope := by
  induction h with
  | empty => simp [MemoryStore.pending, MemoryStore.new, Table.count, Table.empty]; omega
  | @call s readmitted env call _ hwithin ih =>
    rw [List.countP_append]
    cases hctx : env.ctxErr with
    | some err =>
      rw [call_of_context hctx]
      omega
    | none =>
      have hcall : StoreStep env s call (s.call env call).2 := MemoryStore.call_step call
      have hstep := hcall.pending hscope
      generalize hcount : (s.call env call).2.pending scope = count at hstep
      cases hstep with
      | kept hle => omega
      | @admitted _ message given hcall hadmitted =>
        have hgiven : given = capacity := by
          rcases hcall with rfl | ⟨_, rfl⟩ <;> exact hwithin
        subst hgiven
        cases hmem : scope message with
        | true =>
          have hroom := hlimit hadmitted hmem
          simp only [Bool.toNat_true, Nat.cast_add, Nat.cast_one]
          omega
        | false =>
          simp only [Bool.toNat_false, Nat.add_zero]
          omega
      | @readmitted message reason nextRetryAt hget hpending hdelivered hdiscarded =>
        rw [readmits_of_stored hctx hget hpending hdelivered hdiscarded]
        have hadded : [message.device].countP inScope = (scope message).toNat := by
          rw [List.countP_singleton, hinScope]
          cases scope message <;> rfl
        simp only [Option.toList_some, hadded, Nat.cast_add]
        omega

/-! ## Admission is exact -/

/-- The client and the device whose limits a call is checked against. -/
def StoreCall.AdmittedFor (s : MemoryStore) (clientID deviceID : GoString) : StoreCall → Prop
  | .saveWithCapacity message _ => message.clientID = clientID ∧ message.deviceID = deviceID
  | .requeueWithCapacity messageID _ _ => ∃ message, s.messages.get? messageID = some message ∧
      message.clientID = clientID ∧ message.deviceID = deviceID
  | _ => False

/-- The number of pending messages respects both limits. -/
def MemoryStore.Respects (s : MemoryStore) (capacity : QueueCapacity)
    (clientID deviceID : GoString) : Prop :=
  (0 < capacity.maxPendingGlobal → s.globalPending ≤ capacity.maxPendingGlobal) ∧
    (0 < capacity.maxPendingPerDevice →
      s.devicePending clientID deviceID ≤ capacity.maxPendingPerDevice)

omit [Sha256] in
theorem respects_of_admitted {clientID deviceID : GoString}
    (hroom : s.checkQueueCapacity clientID deviceID capacity = none)
    (hcount : ∀ {scope}, DeviceScope scope → s'.pending scope ≤ s.pending scope + 1) :
    s'.Respects capacity clientID deviceID := by
  obtain ⟨hglobal, hdevice⟩ := MemoryStore.checkQueueCapacity_none hroom
  have hall := hcount every_message_scope
  have hone : s'.devicePending clientID deviceID ≤ s.devicePending clientID deviceID + 1 :=
    hcount (of_device_scope (clientID, deviceID))
  rw [← MemoryStore.globalPending_eq, ← MemoryStore.globalPending_eq] at hall
  exact ⟨fun hpos => by have := hglobal hpos; omega, fun hpos => by have := hdevice hpos; omega⟩

theorem save_respects {message : Message} {result : SaveResult}
    (h : s.saveWithCapacity env message capacity = (.ok result, s'))
    (hcreated : result.outcome = .created) (hpending : result.message.status = .pending) :
    s'.Respects capacity result.message.clientID result.message.deviceID := by
  have hsaved := MemoryStore.saveWithCapacity_saved s env message capacity
  rw [h] at hsaved
  cases hsaved with
  | existing =>
    dsimp only at hcreated
    split at hcreated <;> cases hcreated
  | created _ hget hroom =>
    refine respects_of_admitted (hroom hpending) fun {scope} _ => ?_
    change (s.putMessage (MemoryStore.prepareMessage message env)).pending scope ≤ _
    rw [MemoryStore.pending_create hget]
    exact Nat.add_le_add_left (Bool.toNat_le _) _

variable {messageID : GoString}

omit [Sha256] in
theorem requeue_respects {requeuedAt : Int} {message : Message}
    (h : s.requeueWithCapacity env messageID requeuedAt capacity = (.ok (), s'))
    (hget : s.messages.get? messageID = some message) (hpending : message.status ≠ .pending) :
    s'.Respects capacity message.clientID message.deviceID := by
  have hrequeued := MemoryStore.requeueWithCapacity_requeued s env messageID requeuedAt capacity
  rw [h] at hrequeued
  generalize hresult : (Except.ok () : Except StoreError Unit) = result at hrequeued
  cases hrequeued with
  | context | notFound | refused => cases hresult
  | requeued _ hstored hroom =>
    obtain rfl := Option.some.inj (hget.symm.trans hstored)
    refine respects_of_admitted (hroom hpending) fun {scope} hscope => ?_
    have hcount := @MemoryStore.pending_replace s scope hscope message
      (message.requeued (env.orClock requeuedAt)) _ hget rfl
    have hone := Bool.toNat_le (decide ((message.requeued (env.orClock requeuedAt)).status =
      .pending) && scope message)
    change (s.putMessage (message.requeued (env.orClock requeuedAt))).pending scope ≤ _
    omega

variable {err : QueueCapacityError}

omit [Sha256] in
theorem modifyMessage_capacity {edit : Message → Except StoreError MemoryStore}
    (h : s.modifyMessage env messageID edit = (.error (.capacity err), s')) :
    ∃ message, edit message = .error (.capacity err) := by
  unfold MemoryStore.modifyMessage at h
  split at h
  · cases h
  · split at h
    · cases h
    · next message _ =>
      split at h
      · next hedit =>
        obtain rfl := Except.error.inj (Prod.mk.inj h).1
        exact ⟨message, hedit⟩
      · cases h

omit [Sha256] in
theorem modifyRecord_ne_capacity {status : MessageStatus} {edit : TerminalRecord → TerminalRecord}
    {mirrored : TerminalRecord → Message → Message} :
    s.modifyRecord env messageID status edit mirrored ≠ (.error (.capacity err), s') := by
  intro h
  unfold MemoryStore.modifyRecord at h
  split at h
  · cases h
  · split at h
    · cases h
    · split at h <;> cases h

theorem refusal_justified {call : StoreCall} (hwithin : call.Within capacity)
    (h : s.call env call = (.error (.capacity err), s')) :
    s' = s ∧ ∃ clientID deviceID, call.AdmittedFor s clientID deviceID ∧
      Justified s clientID deviceID capacity err := by
  cases call with
  | saveWithCapacity message given =>
    obtain rfl : given = capacity := hwithin
    have hsaved := MemoryStore.saveWithCapacity_saved s env message given
    rw [show s.saveWithCapacity env message given = _ from h] at hsaved
    cases hsaved with
    | refused _ _ _ hfull =>
      exact ⟨rfl, _, _, ⟨rfl, rfl⟩, MemoryStore.checkQueueCapacity_some hfull⟩
  | requeueWithCapacity messageID requeuedAt given =>
    obtain rfl : given = capacity := hwithin
    have hrequeued := MemoryStore.requeueWithCapacity_requeued s env messageID requeuedAt given
    rw [show s.requeueWithCapacity env messageID requeuedAt given = _ from h] at hrequeued
    cases hrequeued with
    | refused _ hget _ hfull =>
      exact ⟨rfl, _, _, ⟨_, hget, rfl, rfl⟩, MemoryStore.checkQueueCapacity_some hfull⟩
  | get => simp only [MemoryStore.call, MemoryStore.get] at h; split at h <;> cases h
  | listDueRetry =>
    simp only [MemoryStore.call, MemoryStore.listDueRetry] at h; split at h <;> cases h
  | listDueRetryFair =>
    simp only [MemoryStore.call, MemoryStore.listDueRetryFair] at h; split at h <;> cases h
  | claimDueRetryFair =>
    simp only [MemoryStore.call, MemoryStore.claimDueRetryFair, MemoryStore.listDueRetryFair]
      at h
    split at h
    · cases h
    · split at h
      · split at h <;> cases h
      · cases h
  | listPendingByClientDevice =>
    simp only [MemoryStore.call, MemoryStore.listPendingByClientDevice] at h
    split at h <;> cases h
  | markSent =>
    obtain ⟨message, hedit⟩ := modifyMessage_capacity h
    split_ifs at hedit
  | markDelivered =>
    obtain ⟨message, hedit⟩ := modifyMessage_capacity h
    split_ifs at hedit
    cases hedit
  | markAttemptFailed =>
    obtain ⟨message, hedit⟩ := modifyMessage_capacity h
    split_ifs at hedit
  | markFailed =>
    obtain ⟨message, hedit⟩ := modifyMessage_capacity h
    split_ifs at hedit
  | discard =>
    simp only [MemoryStore.call, MemoryStore.discard] at h
    obtain ⟨message, hedit⟩ := modifyMessage_capacity h
    cases hedit
  | claimDueTerminal =>
    simp only [MemoryStore.call, MemoryStore.claimDueTerminal] at h; split at h <;> cases h
  | markTerminalPublished =>
    simp only [MemoryStore.call, MemoryStore.markTerminalPublished] at h
    exact absurd h modifyRecord_ne_capacity
  | markTerminalPublishFailed =>
    simp only [MemoryStore.call, MemoryStore.markTerminalPublishFailed] at h
    exact absurd h modifyRecord_ne_capacity
  | deleteExpired =>
    simp only [MemoryStore.call, MemoryStore.deleteExpired] at h
    split at h
    · cases h
    · split at h <;> cases h

/-- Queue admission is exact, for every sequence of store calls under one capacity from the empty
store. A save that creates a pending message and a requeue that turns one pending respect the
limits; a refusal leaves the store alone and reports a limit that is reached with its real count;
and in between the counts exceed the limits at most by the readmitted messages. -/
theorem admission_exact {readmitted : List (GoString × GoString)}
    (h : Reached capacity s readmitted) :
    (∀ {env message result s'}, s.saveWithCapacity env message capacity = (.ok result, s') →
      result.outcome = .created → result.message.status = .pending →
      s'.Respects capacity result.message.clientID result.message.deviceID) ∧
    (∀ {env messageID requeuedAt message s'},
      s.requeueWithCapacity env messageID requeuedAt capacity = (.ok (), s') →
      s.messages.get? messageID = some message → message.status ≠ .pending →
      s'.Respects capacity message.clientID message.deviceID) ∧
    (∀ {env call err s'}, call.Within capacity →
      s.call env call = (.error (.capacity err), s') →
      s' = s ∧ ∃ clientID deviceID, call.AdmittedFor s clientID deviceID ∧
        Justified s clientID deviceID capacity err) ∧
    (0 < capacity.maxPendingGlobal →
      s.globalPending ≤ capacity.maxPendingGlobal + readmitted.length) ∧
    (0 < capacity.maxPendingPerDevice → ∀ device : GoString × GoString,
      s.devicePending device.1 device.2 ≤
        capacity.maxPendingPerDevice + readmitted.count device) := by
  refine ⟨save_respects, requeue_respects, refusal_justified, ?_, ?_⟩
  · intro hpos
    have hbound := pending_le_of_reached (fun _ => true) every_message_scope (fun _ => rfl) hpos
      (fun hroom _ => MemoryStore.globalPending_eq ▸
        (MemoryStore.checkQueueCapacity_none hroom).1 hpos) h
    rw [MemoryStore.globalPending_eq]
    simpa using hbound
  · intro hpos device
    have hbound := pending_le_of_reached (fun other => other == device)
      (of_device_scope device) ?_ hpos ?_ h
    · exact hbound
    · intro message
      rw [Bool.eq_iff_iff]
      simp [ofDevice, Message.device, Prod.ext_iff]
    · intro s message hroom hmem
      simp only [ofDevice, Bool.and_eq_true, decide_eq_true_eq] at hmem
      have hdevice := (MemoryStore.checkQueueCapacity_none hroom).2 hpos
      rw [hmem.1, hmem.2] at hdevice
      exact hdevice

end

/-- A message with the given id. -/
def messageNamed (messageID : GoString) : Message :=
  messageFromPushRequest ⟨ascii "c", ascii "d", 7, messageID, [], true, none⟩ messageID 1

/-- With room for one message: the first is sent, which makes room for the second, and then its
attempt is marked as failed. -/
def readmittingCalls : List StoreCall :=
  [.saveWithCapacity (messageNamed (ascii "a")) ⟨1, 0⟩, .markSent (ascii "a") [] 1 0,
    .saveWithCapacity (messageNamed (ascii "b")) ⟨1, 0⟩, .markAttemptFailed (ascii "a") [] 0]

/-- The bound is attained: one readmitted message makes two pending ones under a limit of one. -/
theorem admission_exact_attained :
    ∃ s readmitted, @Reached Sha256.polynomial ⟨1, 0⟩ s readmitted ∧ s.globalPending = 2 ∧
      readmitted.length = 1 ∧ s.globalPending ≤ (1 : Int) + readmitted.length := by
  let env : StoreEnv := ⟨none, 1, []⟩
  have hreached := readmittingCalls.foldlRecOn
    (motive := fun state => @Reached Sha256.polynomial ⟨1, 0⟩ state.1 state.2)
    (fun state call => ((@MemoryStore.call Sha256.polynomial state.1 env call).2,
      (state.1.readmits env call).toList ++ state.2)) (b := (MemoryStore.new, []))
    (@Reached.empty Sha256.polynomial _)
    (fun state h call hmem => @Reached.call Sha256.polynomial _ _ _ env call h
      (by simp [readmittingCalls] at hmem; rcases hmem with rfl | rfl | rfl | rfl <;> trivial))
  have hexact := @admission_exact Sha256.polynomial _ _ _ hreached
  exact ⟨_, _, hreached, by decide +kernel, by decide +kernel, hexact.2.2.2.1 (by decide)⟩

end ZCourier.Downlink
