import ZCourier.Downlink.Calls

/-!
# Final messages are inert

A message that is delivered, failed or discarded has no retry time and no claim, whatever the
operations that still hold an older copy of it do. `final_messages_inert` is the result.
-/

namespace ZCourier.Downlink

open Go Library

/-- The statuses after which no delivery is attempted. -/
def MessageStatus.Final (status : MessageStatus) : Prop :=
  status = .delivered ∨ status = .failed ∨ status = .discarded

/-- Neither a retry nor a claim is recorded for the message. -/
structure Message.Inert (message : Message) : Prop where
  nextRetryAt : message.nextRetryAt = 0
  claimOwner : message.claimOwner = []
  claimUntil : message.claimUntil = 0

def MemoryStore.FinalInert (s : MemoryStore) : Prop :=
  ∀ {id message}, s.messages.get? id = some message → message.status.Final → message.Inert

def StoreCall.selected : (call : StoreCall) → call.Value → List Message
  | .listDueRetry .., messages => messages
  | .listDueRetryFair .., selection => selection.messages
  | .claimDueRetryFair .., selection => selection.messages
  | .listPendingByClientDevice .., messages => messages
  | _, _ => []

theorem not_due_of_final {message : Message} (h : message.status.Final) (now ackTimeout : Int) :
    messageDueForRetry message now ackTimeout = false := by
  unfold messageDueForRetry
  split
  · rfl
  · rcases h with h | h | h <;> simp [h]

theorem MemoryStore.terminalMessage_inert {s : MemoryStore} {message : Message}
    {status : MessageStatus} {attempts : Nat} {lastError : GoString}
    {transition : TerminalTransition} :
    (s.terminalMessage message status attempts lastError transition).Inert := by
  simp only [terminalMessage]
  split
  · split <;> exact ⟨rfl, rfl, rfl⟩
  · exact ⟨rfl, rfl, rfl⟩

section

variable [Sha256] {env : StoreEnv} {s s' : MemoryStore} {call : StoreCall}

theorem MessageEdit.inert {message message' : Message}
    (h : MessageEdit env s call message message')
    (hinert : message.status.Final → message.Inert) :
    message'.status.Final → message'.Inert := by
  intro hfinal
  cases h with
  | refreshed | published | publishFailed =>
    have hbefore := hinert hfinal
    exact ⟨hbefore.nextRetryAt, hbefore.claimOwner, hbefore.claimUntil⟩
  | claimed hdue =>
    -- only due messages are claimed, and a final one is not due
    have hfinal : message.status.Final := hfinal
    rw [not_due_of_final hfinal] at hdue
    cases hdue
  | sent | attemptFailed | requeued => simp [MessageStatus.Final] at hfinal
  | delivered => exact ⟨rfl, rfl, rfl⟩
  | failed | discarded => exact MemoryStore.terminalMessage_inert

omit [Sha256] in
theorem Service.submittedMessage_status (svc : Service) (req : PushRequest) (messageID : GoString)
    (now : Int) : (svc.submittedMessage req messageID now).status = .pending := by
  unfold Service.submittedMessage
  split <;> rfl

/-- A call of the service keeps final messages inert. -/
theorem MemoryStore.FinalInert.step {started : Started} (hinert : s.FinalInert)
    (hmakes : started.Makes call) (h : StoreStep env s call s') : s'.FinalInert := by
  intro id message hget hfinal
  have hslot := h.slot id
  rw [hget] at hslot
  generalize hbefore : s.messages.get? id = slot at hslot
  cases hslot with
  | same => exact hinert hbefore hfinal
  | created =>
    obtain ⟨req, messageID, now, -, -, rfl, -⟩ := hmakes
    simp [prepareMessage, Service.submittedMessage_status, MessageStatus.Final] at hfinal
  | edited _ hedit => exact hedit.inert (hinert hbefore) hfinal

end

/-! ## What the selecting calls return -/

section

variable [Sha256] {env : StoreEnv} {s : MemoryStore}

omit [Sha256] in
theorem MemoryStore.Due.not_final {now ackTimeout : Int} {messages : List Message}
    (h : s.Due now ackTimeout messages) {message : Message} (hmem : message ∈ messages) :
    s.messages.get? message.messageID = some message ∧ ¬message.status.Final := by
  obtain ⟨hstored, hdue⟩ := h.2 message hmem
  refine ⟨Table.get?_of_mem hstored, ?_⟩
  intro hfinal
  rw [not_due_of_final hfinal] at hdue
  cases hdue

theorem selected_not_final {call : StoreCall} {value : call.Value}
    (h : (s.call env call).1 = .ok value) {message : Message}
    (hmem : message ∈ call.selected value) :
    ∃ stored, s.messages.get? message.messageID = some stored ∧ ¬stored.status.Final := by
  cases call with
  | listDueRetry now ackTimeout limit =>
    obtain ⟨-, hdue⟩ := MemoryStore.listDueRetry_ok (Prod.ext h rfl)
    exact ⟨message, hdue.not_final hmem⟩
  | listDueRetryFair now ackTimeout limit candidateLimit =>
    obtain ⟨-, hdue⟩ := MemoryStore.listDueRetryFair_ok (Prod.ext h rfl)
    exact ⟨message, hdue.not_final hmem⟩
  | claimDueRetryFair now ackTimeout limit candidateLimit owner lease =>
    by_cases howner : owner = []
    · -- without an owner the call only lists
      subst howner
      have hlisted : (s.listDueRetryFair env now ackTimeout limit candidateLimit).1 =
          .ok value := by
        simp only [MemoryStore.call, MemoryStore.claimDueRetryFair] at h
        split at h
        · cases h
        · simpa using h
      obtain ⟨-, hdue⟩ := MemoryStore.listDueRetryFair_ok (Prod.ext hlisted rfl)
      exact ⟨message, hdue.not_final hmem⟩
    · obtain ⟨chosen, expiry, -, hdue, hmessages, -⟩ :=
        MemoryStore.claimDueRetryFair_ok howner (Prod.ext h rfl)
      have hmem : message ∈ value.messages := hmem
      rw [hmessages] at hmem
      obtain ⟨before, hbefore, rfl⟩ := List.mem_map.mp hmem
      exact ⟨before, hdue.not_final hbefore⟩
  | listPendingByClientDevice clientID deviceID limit =>
    obtain ⟨-, -, hpending⟩ := MemoryStore.listPendingByClientDevice_ok (Prod.ext h rfl)
    obtain ⟨hstored, hstatus⟩ := hpending message hmem
    exact ⟨message, Table.get?_of_mem hstored, by simp [hstatus, MessageStatus.Final]⟩
  | saveWithCapacity | get | markSent | markDelivered | markAttemptFailed | markFailed
  | requeueWithCapacity | discard | claimDueTerminal | markTerminalPublished
  | markTerminalPublishFailed | deleteExpired => exact absurd hmem List.not_mem_nil

/-- In every interleaving of the service's operations, a message that is delivered, failed or
discarded has no retry time and no claim, is due at no time, and is returned by no call that
lists or claims messages. -/
theorem final_messages_inert {clock : Int} {history : List CourierStep} {after : Courier}
    (h : Run courier (fun _ => True) (Courier.initial clock) history after) {id : GoString}
    {message : Message} (hget : after.state.store.messages.get? id = some message)
    (hfinal : message.status.Final) :
    (message.nextRetryAt = 0 ∧ message.claimOwner = [] ∧ message.claimUntil = 0) ∧
    (∀ now ackTimeout, messageDueForRetry message now ackTimeout = false) ∧
    (∀ (env : StoreEnv) (call : StoreCall) (value : call.Value),
      (after.state.store.call env call).1 = .ok value →
      ∀ chosen ∈ call.selected value, chosen.messageID ≠ id) := by
  have hinert : after.state.store.FinalInert :=
    @store_invariant _ (fun _ => True) MemoryStore.FinalInert clock history after
      (fun hget => by simp [MemoryStore.new] at hget)
      (fun hinert _ hmakes hstep => hinert.step hmakes hstep) (h.mono fun _ _ _ _ => trivial)
  obtain ⟨hretry, howner, huntil⟩ := hinert hget hfinal
  refine ⟨⟨hretry, howner, huntil⟩, not_due_of_final hfinal, ?_⟩
  intro env call value hvalue chosen hmem hid
  obtain ⟨stored, hstored, hopen⟩ := selected_not_final hvalue hmem
  rw [hid, hget] at hstored
  obtain rfl := Option.some.inj hstored
  exact hopen hfinal

end

/-- A push of `m` and its acknowledgement. -/
def pushThenAck : List (Choice Started Surroundings) :=
  List.flatten [
    [.start ⟨newService, .push requestM⟩], Choice.turns 0 5 calm,
    [.start ⟨newService, .ack (ascii "c") (ascii "d") ⟨ascii "m", true⟩⟩], Choice.turns 1 3 calm]

/-- The acknowledged message is final, and no call selects it. -/
theorem final_messages_inert_acknowledged :
    ∃ (history : List CourierStep) (after : Courier) (message : Message),
      Run (@courier Sha256.polynomial) (fun _ => True) (Courier.initial 1) history after ∧
      after.state.store.messages.get? (ascii "m") = some message ∧ message.status = .delivered ∧
      message.nextRetryAt = 0 ∧ messageDueForRetry message 1 0 = false := by
  have hreplay : (((@courier Sha256.polynomial).replay (Courier.initial 1) pushThenAck).bind
      fun after : Courier => (after.state.store.messages.get? (ascii "m")).map Message.status) =
      some .delivered := by decide +kernel
  obtain ⟨after, hafter, hstatus⟩ := Option.bind_eq_some_iff.mp hreplay
  obtain ⟨message, hget, hstatus⟩ := Option.map_eq_some_iff.mp hstatus
  obtain ⟨history, hrun⟩ := System.replay_run (fun _ => True) hafter fun _ _ => trivial
  have hinert := @final_messages_inert Sha256.polynomial _ _ _ hrun _ _ hget (.inl hstatus)
  exact ⟨history, after, message, hrun, hget, hstatus, hinert.1.1, hinert.2.1 1 0⟩

end ZCourier.Downlink
