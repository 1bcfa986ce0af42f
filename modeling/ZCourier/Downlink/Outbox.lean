import ZCourier.Downlink.Calls

/-!
# The terminal outbox

A message that fails or is discarded leaves an event in the outbox, and mirrors its publication
state. `Outbox` is the joint invariant of the two tables; `Outbox.step` shows that every call a
publishing service makes keeps it, through repeated failures that reuse a record, a discard on top
of a failure, late publication results and retention. `outbox_loses_nothing` is the result.
-/

namespace ZCourier.Downlink

open Go Library

/-- The state of a publication, as a record has it and as a message mirrors it. -/
structure Publication where
  status : TerminalPublicationStatus
  attempts : Nat
  nextAt : Int
  error : GoString
  publishedAt : Int

/-- The five mirrored fields of a message. -/
def Message.publication (message : Message) : Publication :=
  ⟨message.terminalPublishStatus, message.terminalPublishAttempts, message.terminalNextPublishAt,
    message.terminalPublishError, message.terminalPublishedAt⟩

/-- The five fields of a record that its message mirrors. -/
def TerminalRecord.publication (record : TerminalRecord) : Publication :=
  ⟨record.status, record.publishAttempts, record.nextAttemptAt, record.lastError,
    record.publishedAt⟩

def MessageStatus.Announced (status : MessageStatus) : Prop :=
  status = .failed ∨ status = .discarded

/-- The joint invariant of messages and outbox records. -/
structure Outbox (s : MemoryStore) : Prop where
  /-- A failed or discarded message has a record and mirrors it. -/
  recorded : ∀ {id message}, s.messages.get? id = some message → message.status.Announced →
    ∃ record, s.terminalEvents.get? (terminalEventID id message.status) = some record ∧
      message.publication = record.publication
  /-- A record's key is made from the message and the status of its event. -/
  keyed : ∀ {key record}, s.terminalEvents.get? key = some record →
    key = terminalEventID record.event.messageID record.event.terminalStatus
  /-- A record is unpublished or published, never disabled. -/
  live : ∀ {key record}, s.terminalEvents.get? key = some record →
    record.unpublished = true ∨ record.status = .published

namespace Outbox

variable {s : MemoryStore}

theorem new : Outbox .new where
  recorded h := by simp [MemoryStore.new] at h
  keyed h := by simp [MemoryStore.new] at h
  live h := by simp [MemoryStore.new] at h

/-- Storing a message that is not announced, or that mirrors its record, keeps the invariant. -/
theorem putMessage (h : Outbox s) {message : Message}
    (hmessage : message.status.Announced →
      ∃ record, s.terminalEvents.get? (terminalEventID message.messageID message.status) =
        some record ∧ message.publication = record.publication) :
    Outbox (s.putMessage message) where
  recorded := by
    intro id stored hget hannounced
    rw [MemoryStore.get?_putMessage] at hget
    split at hget
    · next hid =>
      obtain rfl := Option.some.inj hget
      subst hid
      exact hmessage hannounced
    · exact h.recorded hget hannounced
  keyed := h.keyed
  live := h.live

theorem putMessage_unannounced (h : Outbox s) {message : Message}
    (hmessage : ¬message.status.Announced) : Outbox (s.putMessage message) :=
  h.putMessage fun hannounced => absurd hannounced hmessage

theorem rewrite (h : Outbox s) {id : GoString} {message message' : Message}
    (hget : s.messages.get? id = some message) (hid : message'.messageID = message.messageID)
    (hstatus : message'.status = message.status)
    (hpublication : message'.publication = message.publication) :
    Outbox (s.putMessage message') := by
  refine h.putMessage fun hannounced => ?_
  obtain rfl : message.messageID = id := Table.key_of_get? hget
  rw [hid, hstatus, hpublication]
  exact h.recorded hget (hstatus ▸ hannounced)

theorem addRecord (h : Outbox s) {event : TerminalEvent}
    (hnew : s.terminalEvents.get? event.eventID = none)
    (hkey : event.eventID = terminalEventID event.messageID event.terminalStatus) :
    Outbox (s.putRecord (.new event)) where
  recorded := by
    intro id message hget hannounced
    obtain ⟨record, hrecord, hpublication⟩ := h.recorded hget hannounced
    refine ⟨record, ?_, hpublication⟩
    rw [MemoryStore.get?_putRecord]
    split
    · next hid =>
      have hid' : terminalEventID id message.status = event.eventID := hid
      rw [hid', hnew] at hrecord
      cases hrecord
    · exact hrecord
  keyed := by
    intro key record hget
    rw [MemoryStore.get?_putRecord] at hget
    split at hget
    · next hid =>
      obtain rfl := Option.some.inj hget
      rw [hid]
      exact hkey
    · exact h.keyed hget
  live := by
    intro key record hget
    rw [MemoryStore.get?_putRecord] at hget
    split at hget
    · obtain rfl := Option.some.inj hget
      exact .inl rfl
    · exact h.live hget

/-- Entering an announced status with publication: the message mirrors the record of that
status, which is there already or is added. -/
theorem enterTerminal (h : Outbox s) {id : GoString} {message : Message} {status : MessageStatus}
    {attempts : Nat} {lastError : GoString} {transition : TerminalTransition}
    (hget : s.messages.get? id = some message) (hpublish : transition.publish = true) :
    Outbox (s.enterTerminal message status attempts lastError transition) := by
  unfold MemoryStore.enterTerminal
  by_cases hfirst : message.status ≠ status ∨ message.terminalReason = []
  · rw [if_pos (by simpa using hfirst)]
    simp only [hpublish, if_true]
    split
    · next record hrecord =>
      exact h.putMessage fun _ => ⟨record, hrecord, rfl⟩
    · next hnone => exact (h.addRecord hnone rfl).putMessage fun _ => ⟨_, Table.get?_put_self, rfl⟩
  · rw [if_neg (by simpa using hfirst)]
    obtain ⟨hstatus, -⟩ := not_or.mp hfirst
    exact h.rewrite hget rfl (not_not.mp hstatus).symm rfl

/-- Reporting on an unpublished record and mirroring the report on its message. -/
theorem report (h : Outbox s) {messageID : GoString} {status : MessageStatus}
    {record record' : TerminalRecord} {edit : Message → Message}
    (hget : s.terminalEvents.get? (terminalEventID messageID status) = some record)
    (hevent : record'.event = record.event)
    (hlive : record'.unpublished = true ∨ record'.status = .published)
    (hid : ∀ message, (edit message).messageID = message.messageID)
    (hstatus : ∀ message, (edit message).status = message.status)
    (hedit : ∀ message, message.publication = record.publication →
      (edit message).publication = record'.publication) :
    Outbox ((s.putRecord record').mirror messageID status edit) := by
  have hkey : record'.event.eventID = terminalEventID messageID status := by
    rw [hevent]
    exact MemoryStore.eventID_of_get? hget
  have hrecords : ∀ key, ((s.putRecord record').mirror messageID status edit).terminalEvents.get?
      key = if key = terminalEventID messageID status then some record'
        else s.terminalEvents.get? key := by
    intro key
    rw [MemoryStore.mirror_terminalEvents, MemoryStore.get?_putRecord, hkey]
  -- a message with another id or another status mirrors a record that stays
  have hother : ∀ {id message}, s.messages.get? id = some message → message.status.Announced →
      ¬(id = messageID ∧ message.status = status) →
      ∃ mirrored, (if terminalEventID id message.status = terminalEventID messageID status
        then some record' else s.terminalEvents.get? (terminalEventID id message.status)) =
          some mirrored ∧ message.publication = mirrored.publication := by
    intro id message hmessage hannounced hne
    rw [if_neg (fun heq => hne (terminal_event_id_inj.mp heq))]
    exact h.recorded hmessage hannounced
  refine ⟨?_, ?_, ?_⟩
  · intro id message hmessage hannounced
    rw [hrecords]
    simp only [MemoryStore.mirror, MemoryStore.putRecord_messages] at hmessage
    cases hstored : s.messages.get? messageID with
    | none =>
      simp only [hstored, MemoryStore.putRecord_messages] at hmessage
      refine hother hmessage hannounced ?_
      rintro ⟨rfl, -⟩
      rw [hstored] at hmessage
      cases hmessage
    | some stored =>
      have hstoredID : stored.messageID = messageID := Table.key_of_get? hstored
      by_cases hsame : stored.status = status
      · simp only [hstored, hsame, if_true, MemoryStore.get?_putMessage, hid, hstoredID,
          MemoryStore.putRecord_messages] at hmessage
        split at hmessage
        · next heq =>
          obtain rfl := Option.some.inj hmessage
          subst heq
          have hmirrors := h.recorded hstored (by rw [hstatus] at hannounced; exact hannounced)
          rw [hsame, hget] at hmirrors
          obtain ⟨_, hrecord, hpublication⟩ := hmirrors
          obtain rfl := Option.some.inj hrecord
          exact ⟨record', by rw [hstatus, hsame, if_pos rfl], hedit stored hpublication⟩
        · next hne => exact hother hmessage hannounced fun hboth => hne hboth.1
      · simp only [hstored, hsame, if_false, MemoryStore.putRecord_messages] at hmessage
        refine hother hmessage hannounced ?_
        rintro ⟨rfl, heq⟩
        rw [hstored] at hmessage
        obtain rfl := Option.some.inj hmessage
        exact hsame heq
  · intro key stored hstored
    rw [hrecords] at hstored
    split at hstored
    · next heq =>
      obtain rfl := Option.some.inj hstored
      rw [heq, hevent]
      exact h.keyed hget
    · exact h.keyed hstored
  · intro key stored hstored
    rw [hrecords] at hstored
    split at hstored
    · obtain rfl := Option.some.inj hstored
      exact hlive
    · exact h.live hstored

theorem published_of_expired (h : Outbox s) {messageID key : GoString} {record : TerminalRecord}
    (hexpired : s.hasUnpublishedTerminalEvent messageID = false)
    (hkey : key = terminalEventID messageID .failed ∨ key = terminalEventID messageID .discarded)
    (hget : s.terminalEvents.get? key = some record) : record.status = .published := by
  have hid : record.event.messageID = messageID := by
    rcases hkey with hkey | hkey
    all_goals
      rw [h.keyed hget] at hkey
      exact (terminal_event_id_inj.mp hkey).1
  rcases h.live hget with hunpublished | hpublished
  · have hany : s.hasUnpublishedTerminalEvent messageID = true :=
      List.any_eq_true.mpr ⟨record, Table.mem_of_get? hget, by simp [hid, hunpublished]⟩
    rw [hexpired] at hany
    cases hany
  · exact hpublished

/-- Claiming messages changes neither statuses nor what is mirrored. -/
theorem claimMessages (h : Outbox s) {owner : GoString} {expiry now : Int}
    {messages : List Message}
    (hstored : ∀ message ∈ messages, ∃ stored,
      s.messages.get? message.messageID = some stored) :
    Outbox (MemoryStore.claimMessages owner expiry now s messages).2 where
  recorded := by
    intro id message hget hannounced
    rw [MemoryStore.claimMessages_terminalEvents]
    rw [MemoryStore.get?_claimMessages hstored] at hget
    split at hget
    · obtain ⟨stored, hbefore, rfl⟩ := Option.map_eq_some_iff.mp hget
      have hmirrors := @recorded _ h id stored hbefore hannounced
      exact hmirrors
    · exact h.recorded hget hannounced
  keyed := by
    rw [MemoryStore.claimMessages_terminalEvents]
    exact h.keyed
  live := by
    rw [MemoryStore.claimMessages_terminalEvents]
    exact h.live

/-- Claiming records changes neither their events nor their publication. -/
theorem claimRecords (h : Outbox s) {owner : GoString} {expiry : Int}
    {records : List TerminalRecord}
    (hstored : ∀ record ∈ records, ∃ stored,
      s.terminalEvents.get? record.event.eventID = some stored ∧
        stored.claimed owner expiry = record.claimed owner expiry) :
    Outbox (MemoryStore.claimRecords owner expiry s records).2 := by
  -- every record of the new table is a record of the old one up to its claim
  have hback : ∀ {key record},
      (MemoryStore.claimRecords owner expiry s records).2.terminalEvents.get? key = some record →
      ∃ stored, s.terminalEvents.get? key = some stored ∧ record.event = stored.event ∧
        record.publication = stored.publication := by
    intro key record hget
    rw [MemoryStore.get?_claimRecords hstored] at hget
    split at hget
    · obtain ⟨stored, hbefore, rfl⟩ := Option.map_eq_some_iff.mp hget
      exact ⟨stored, hbefore, rfl, rfl⟩
    · exact ⟨record, hget, rfl, rfl⟩
  refine ⟨?_, ?_, ?_⟩
  · intro id message hget hannounced
    rw [MemoryStore.claimRecords_messages] at hget
    obtain ⟨record, hrecord, hpublication⟩ := h.recorded hget hannounced
    rw [MemoryStore.get?_claimRecords hstored, hrecord]
    split
    · exact ⟨_, rfl, hpublication⟩
    · exact ⟨record, rfl, hpublication⟩
  · intro key record hget
    obtain ⟨stored, hstored, hevent, -⟩ := hback hget
    rw [hevent]
    exact h.keyed hstored
  · intro key record hget
    obtain ⟨stored, hstored, -, hpublication⟩ := hback hget
    have hstatus : record.status = stored.status := congrArg Publication.status hpublication
    simpa only [TerminalRecord.unpublished, hstatus] using h.live hstored

theorem deleteMessages (h : Outbox s) {messages : List Message} :
    Outbox (messages.foldl (fun s message => s.deleteMessage message.messageID) s) := by
  have hback : ∀ {key record},
      (messages.foldl (fun s message => s.deleteMessage message.messageID) s).terminalEvents.get?
        key = some record → s.terminalEvents.get? key = some record := by
    intro key record hget
    rw [MemoryStore.get?_delete_records] at hget
    split at hget
    · cases hget
    · exact hget
  refine ⟨?_, fun hget => h.keyed (hback hget), fun hget => h.live (hback hget)⟩
  intro id message hget hannounced
  rw [MemoryStore.get?_delete_messages] at hget
  split at hget
  · cases hget
  · next hkept =>
    obtain ⟨record, hrecord, hpublication⟩ := h.recorded hget hannounced
    refine ⟨record, ?_, hpublication⟩
    rw [MemoryStore.get?_delete_records, if_neg, hrecord]
    rintro ⟨deleted, hdeleted, hkey | hkey⟩
    all_goals
      have hid := (terminal_event_id_inj.mp hkey).1
      exact hkept (hid ▸ List.mem_map_of_mem hdeleted)

theorem step [Sha256] {s' : MemoryStore} {env : StoreEnv} {call : StoreCall} {started : Started}
    (h : Outbox s) (hpublisher : started.service.hasTerminalPublisher = true)
    (hcall : started.Makes call)
    (hstep : StoreStep env s call s') : Outbox s' := by
  cases hstep with
  | same => exact h
  | refreshed hget => exact h.rewrite hget rfl rfl rfl
  | created =>
    obtain ⟨req, messageID, now, -, -, rfl, -⟩ := hcall
    refine h.putMessage_unannounced ?_
    simp only [MemoryStore.prepareMessage, Service.submittedMessage, MessageStatus.Announced]
    split <;> simp [messageFromPushRequest]
  | claimed =>
    exact h.claimMessages fun message hmem =>
      ⟨message, Table.get?_of_mem (MemoryStore.mem_select_due hmem).1⟩
  | sent | delivered | attemptFailed | requeued =>
    exact h.putMessage_unannounced
      (by simp [Message.sent, Message.delivered, Message.attemptFailed, Message.requeued,
        MessageStatus.Announced])
  | failed hget => exact h.enterTerminal hget (hcall.2.1.trans hpublisher)
  | discarded hget => exact h.enterTerminal hget (hcall.2.1.trans hpublisher)
  | claimedRecords =>
    exact h.claimRecords fun record hmem =>
      ⟨record, Table.get?_of_mem (MemoryStore.mem_select_due_terminal hmem).1, rfl⟩
  | published hget =>
    exact h.report hget rfl (.inr rfl) (fun _ => rfl) (fun _ => rfl) fun _ _ => rfl
  | publishFailed hget =>
    refine h.report hget rfl (.inl rfl) (fun _ => rfl) (fun _ => rfl) ?_
    intro message hpublication
    have hpublishedAt : message.terminalPublishedAt = _ :=
      congrArg Publication.publishedAt hpublication
    simp [Message.publication, Message.publishFailed, TerminalRecord.publication,
      TerminalRecord.publishFailed, hpublishedAt]
  | deleted => exact h.deleteMessages

end Outbox

/-! ## What a step can do to a record -/

section

variable [Sha256] {env : StoreEnv} {s s' : MemoryStore} {call : StoreCall}

theorem unpublished_record_stays (h : Outbox s) (hstep : StoreStep env s call s')
    {key : GoString} {record : TerminalRecord} (hget : s.terminalEvents.get? key = some record)
    (hnew : record.status ≠ .published) :
    ∃ record', s'.terminalEvents.get? key = some record' := by
  have hrecord := hstep.record key
  rw [hget] at hrecord
  generalize s'.terminalEvents.get? key = slot at hrecord
  cases hrecord with
  | same | claimed | published | publishFailed => exact ⟨_, rfl⟩
  | removed hkey hexpired => exact absurd (h.published_of_expired hexpired hkey hget) hnew

theorem published_record_kept (hstep : StoreStep env s call s') {key : GoString}
    {record record' : TerminalRecord} (hget : s.terminalEvents.get? key = some record)
    (hpublished : record.status = .published)
    (hget' : s'.terminalEvents.get? key = some record') :
    record'.publication = record.publication := by
  have hrecord := hstep.record key
  rw [hget, hget'] at hrecord
  cases hrecord with
  | same | claimed => rfl
  | published _ hnew | publishFailed _ hnew => exact absurd hpublished hnew

theorem message_with_unpublished_record_stays (h : Outbox s) (hstep : StoreStep env s call s')
    {id : GoString} {status : MessageStatus} {message : Message} {record : TerminalRecord}
    (hmessage : s.messages.get? id = some message) (hannounced : status.Announced)
    (hget : s.terminalEvents.get? (terminalEventID id status) = some record)
    (hnew : record.unpublished = true) : (s'.messages.get? id).isSome := by
  have hslot := hstep.slot id
  rw [hmessage] at hslot
  generalize s'.messages.get? id = slot at hslot
  cases hslot with
  | same | edited => rfl
  | removed _ _ hexpired =>
    have hkey : terminalEventID id status = terminalEventID id .failed ∨
        terminalEventID id status = terminalEventID id .discarded :=
      hannounced.imp (congrArg _) (congrArg _)
    have hpublished := h.published_of_expired hexpired hkey hget
    simp [TerminalRecord.unpublished, hpublished] at hnew

end

/-! ## Every interleaving -/

/-- An operation of a service with a terminal publisher. -/
def Started.Publishing (started : Started) : Prop :=
  started.service.hasTerminalPublisher = true

theorem outbox_invariant [Sha256] {clock : Int} {history : List CourierStep} {after : Courier}
    (h : Run courier (CourierStep.Starts Started.Publishing) (Courier.initial clock) history
      after) : Outbox after.state.store :=
  store_invariant Outbox.new (fun hinv hp hmakes hstep => hinv.step hp hmakes hstep) h

/-- The outbox loses no event, in any interleaving of operations of services with a terminal
publisher: announced messages have a record they mirror, an unpublished record and its message
stay, a published record keeps its publication, and keys are distinct. -/
theorem outbox_loses_nothing [Sha256] {clock : Int} {history : List CourierStep} {after : Courier}
    (h : Run courier (CourierStep.Starts Started.Publishing) (Courier.initial clock) history
      after) :
    (∀ {id message}, after.state.store.messages.get? id = some message →
      message.status = .failed ∨ message.status = .discarded →
      ∃ record, after.state.store.terminalEvents.get? (terminalEventID id message.status) =
          some record ∧
        message.terminalPublishStatus = record.status ∧
        message.terminalPublishAttempts = record.publishAttempts ∧
        message.terminalNextPublishAt = record.nextAttemptAt ∧
        message.terminalPublishError = record.lastError ∧
        message.terminalPublishedAt = record.publishedAt) ∧
    (∀ t ∈ history, ∀ {key record},
      t.before.state.store.terminalEvents.get? key = some record →
      record.status ≠ .published →
      ∃ record', t.after.state.store.terminalEvents.get? key = some record') ∧
    (∀ t ∈ history, ∀ {id status message record},
      t.before.state.store.messages.get? id = some message →
      status = .failed ∨ status = .discarded →
      t.before.state.store.terminalEvents.get? (terminalEventID id status) = some record →
      record.status = .pending ∨ record.status = .failed →
      (t.after.state.store.messages.get? id).isSome) ∧
    (∀ t ∈ history, ∀ {key record record'},
      t.before.state.store.terminalEvents.get? key = some record →
      record.status = .published →
      t.after.state.store.terminalEvents.get? key = some record' →
      record'.status = .published ∧ record'.publishAttempts = record.publishAttempts ∧
        record'.publishedAt = record.publishedAt) ∧
    (∀ {id id' status status'}, terminalEventID id status = terminalEventID id' status' →
      id = id' ∧ status = status') := by
  -- a transition of the run leaves the store alone or makes one call, from a good store
  have hcalls : ∀ t ∈ history, Outbox t.before.state.store ∧
      ∃ call env, StoreStep env t.before.state.store call t.after.state.store := by
    intro t ht
    obtain ⟨⟨earlier, hearlier⟩, hstep, -⟩ := h.transition ht
    refine ⟨outbox_invariant hearlier, ?_⟩
    rcases step_store hstep with ⟨-, hstore⟩ | ⟨call, env, -, hstore⟩
    · exact ⟨.get [], ⟨none, 0, []⟩, by rw [hstore]; exact .same⟩
    · exact ⟨call, env, by rw [hstore]; exact MemoryStore.call_step call⟩
  refine ⟨?_, ?_, ?_, ?_, terminal_event_id_inj.mp⟩
  · intro id message hget hannounced
    obtain ⟨record, hrecord, hpublication⟩ := (outbox_invariant h).recorded hget hannounced
    simp only [Message.publication, TerminalRecord.publication, Publication.mk.injEq]
      at hpublication
    exact ⟨record, hrecord, hpublication⟩
  · intro t ht key record hget hnew
    obtain ⟨houtbox, call, env, hstep⟩ := hcalls t ht
    exact unpublished_record_stays houtbox hstep hget hnew
  · intro t ht id status message record hmessage hannounced hget hnew
    obtain ⟨houtbox, call, env, hstep⟩ := hcalls t ht
    exact message_with_unpublished_record_stays houtbox hstep hmessage hannounced hget
      (by simpa [TerminalRecord.unpublished] using hnew)
  · intro t ht key record record' hget hpublished hget'
    obtain ⟨-, call, env, hstep⟩ := hcalls t ht
    have hkept := published_record_kept hstep hget hpublished hget'
    simp only [TerminalRecord.publication, Publication.mk.injEq] at hkept
    exact ⟨hkept.1.trans hpublished, hkept.2.1, hkept.2.2.2.2⟩

/-- A push of `m` and a discard of it by a service with a publisher. -/
def pushAndDiscard : List (Choice Started Surroundings) :=
  let svc := { newService with hasTerminalPublisher := true }
  List.flatten [
    [.start ⟨svc, .push requestM⟩], Choice.turns 0 5 calm,
    [.start ⟨svc, .discard (ascii "m") []⟩], Choice.turns 1 4 calm]

/-- After a discard the message mirrors the record of its event. -/
theorem outbox_loses_nothing_after_discard :
    ∃ history after message record,
      Run (@courier Sha256.polynomial) (CourierStep.Starts Started.Publishing) (Courier.initial 1)
        history after ∧
      after.state.store.messages.get? (ascii "m") = some message ∧
      message.status = .discarded ∧
      after.state.store.terminalEvents.get? (terminalEventID (ascii "m") .discarded) =
        some record ∧
      message.terminalPublishStatus = record.status := by
  have hstatus : ((@courier Sha256.polynomial).replay (Courier.initial 1) pushAndDiscard).map
      statusOfM = some (some .discarded) := by decide +kernel
  obtain ⟨after, hafter, hstatus⟩ := Option.map_eq_some_iff.mp hstatus
  obtain ⟨message, hget, hdiscarded⟩ := Option.map_eq_some_iff.mp hstatus
  obtain ⟨history, hrun⟩ := System.replay_run
    (fun choice => ∀ started, choice = .start started → started.Publishing) hafter
    (by simp [pushAndDiscard, Choice.turns, Started.Publishing])
  have hlost := @outbox_loses_nothing Sha256.polynomial _ _ _ hrun
  obtain ⟨record, hrecord, hmirrors, -⟩ := hlost.1 hget (.inr hdiscarded)
  exact ⟨history, after, message, record, hrun, hget, hdiscarded, hdiscarded ▸ hrecord, hmirrors⟩

end ZCourier.Downlink
