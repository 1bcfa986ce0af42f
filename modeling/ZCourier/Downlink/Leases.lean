import ZCourier.Library.Lease
import ZCourier.Downlink.Calls

/-!
# Claims

A push by a gateway with a claim owner saves its message with a claim, `RetryDue` claims the
messages it selects, and `PublishTerminalDue` claims outbox records. Any `Mark` call clears a
claim, whoever makes it. `claims_exclusive`: claims work as leases if every holder reports in
time, as operations report only on what they hold (`leased_run`) and the store grants no unexpired
claim again (`message_guard_kept`, `record_guard_kept`).
-/

namespace ZCourier.Downlink

open Go Library

/-- Claims on messages: a save that creates the message and `ClaimDueRetryFair` grant them, and a
report on the outcome gives them back. -/
def messageLeases : Leasing Effect Effect.Response GoString where
  acquires
    | ⟨.store (.saveWithCapacity _ _), .ok ⟨message, .created⟩⟩ =>
      [(message.messageID, message.claimUntil)]
    | ⟨.store (.claimDueRetryFair ..), .ok selection⟩ =>
      selection.messages.map fun message => (message.messageID, message.claimUntil)
    | _ => []
  releases
    | ⟨.store (.markSent messageID _ _ _), _⟩ => [messageID]
    | ⟨.store (.markAttemptFailed messageID _ _), _⟩ => [messageID]
    | ⟨.store (.markFailed messageID _), _⟩ => [messageID]
    | _ => []

/-- Claims on outbox records, which `ClaimDueTerminal` grants. -/
def recordLeases : Leasing Effect Effect.Response GoString where
  acquires
    | ⟨.store (.claimDueTerminal ..), .ok records⟩ =>
      records.map fun record => (record.event.eventID, record.claimUntil)
    | _ => []
  releases
    | ⟨.store (.markTerminalPublished messageID status _), _⟩ => [terminalEventID messageID status]
    | ⟨.store (.markTerminalPublishFailed messageID status _ _), _⟩ =>
      [terminalEventID messageID status]
    | _ => []

/-- The claim on a message is in the store, or the message needs no more deliveries. -/
def MemoryStore.guardsMessage (s : MemoryStore) (id : GoString) (expiry : Int) : Prop :=
  ∃ message, s.messages.get? id = some message ∧
    (message.claimUntil = expiry ∨ message.status = .delivered ∨ message.status = .discarded)

def MemoryStore.guardsRecord (s : MemoryStore) (key : GoString) (expiry : Int) : Prop :=
  ∃ record, s.terminalEvents.get? key = some record ∧ record.claimUntil = expiry

/-- The operations that work with claims: pushes by services with an owner and a lease,
`RetryDue` with fair selection and an owner, acknowledgements, discards and publications. -/
def Started.Claiming (started : Started) : Prop :=
  match started.operation with
  | .push _ => started.service.retryClaimOwner ≠ [] ∧ 0 < started.service.retryClaimLease
  | .retryDue _ =>
    started.service.retryFairness.enabled = true ∧ started.service.retryClaimOwner ≠ []
  | .ack .. | .discard .. | .publishTerminalDue _ => True
  | .flushClientDevice .. | .requeue _ | .requeueFailed _ | .cleanupExpired _ => False

instance (started : Started) : Decidable started.Claiming :=
  match started with
  | ⟨_, .push _⟩ | ⟨_, .retryDue _⟩ => inferInstanceAs (Decidable (_ ∧ _))
  | ⟨_, .ack ..⟩ | ⟨_, .discard ..⟩ | ⟨_, .publishTerminalDue _⟩ => .isTrue trivial
  | ⟨_, .flushClientDevice ..⟩ | ⟨_, .requeue _⟩ | ⟨_, .requeueFailed _⟩
  | ⟨_, .cleanupExpired _⟩ => .isFalse id

/-! ## What the code of an operation does -/

/-- An operation reports only on what it holds, and claims at a time it has read. -/
def Leased (log : List (Event Effect Effect.Response)) : Effect → Prop
  | .store (.markSent messageID _ _ _) | .store (.markAttemptFailed messageID _ _)
  | .store (.markFailed messageID _) => messageLeases.Holds messageID log
  | .store (.markTerminalPublished messageID status _)
  | .store (.markTerminalPublishFailed messageID status _ _) =>
    recordLeases.Holds (terminalEventID messageID status) log
  | .store (.claimDueRetryFair now ..) | .store (.claimDueTerminal now ..) =>
    ⟨.now, now⟩ ∈ log
  | _ => True

/-- The record's event has the id of its message and status. -/
def TerminalRecord.Keyed (record : TerminalRecord) : Prop :=
  record.event.eventID = terminalEventID record.event.messageID record.event.terminalStatus

/-- What claiming calls return: different messages, different records, and records under the key
of their event. -/
def ClaimAnswer : (effect : Effect) → effect.Response → Prop
  | .store (.claimDueRetryFair ..), .ok selection =>
    (selection.messages.map Message.messageID).Nodup
  | .store (.claimDueTerminal ..), .ok records =>
    (records.map fun record => record.event.eventID).Nodup ∧ ∀ record ∈ records, record.Keyed
  | _, _ => True

/-- Everything held after `log` except one message is held after `log'`. -/
def KeepsOthers (id : GoString) (log log' : List (Event Effect Effect.Response)) : Prop :=
  ∀ key, key ≠ id → messageLeases.Holds key log → messageLeases.Holds key log'

namespace Service

variable {svc : Service} {log log' : List (Event Effect Effect.Response)} {message : Message}

/-- The message is still held, and so is everything else. -/
structure Reporting (message : Message) (log log' : List (Event Effect Effect.Response)) :
    Prop where
  held : messageLeases.Holds message.messageID log'
  others : KeepsOthers message.messageID log log'

variable {e : Event Effect Effect.Response}

theorem Reporting.concat (h : Reporting message log log')
    (hreleases : messageLeases.releases e = []) : Reporting message log (log' ++ [e]) :=
  ⟨h.held.concat (by simp [hreleases]),
    fun key hne hkey => (h.others key hne hkey).concat (by simp [hreleases])⟩

/-- The report gives back the message only. -/
theorem Reporting.done (h : Reporting message log log')
    (hreleases : messageLeases.releases e = [message.messageID]) :
    KeepsOthers message.messageID log (log' ++ [e]) :=
  fun key hne hkey => (h.others key hne hkey).concat (by simpa [hreleases] using hne)

theorem nextRetryAt_leased {α : Type} {now : Int} {policy : DeliveryPolicy} {attempts : Nat}
    {rest : Int → Code α} {post : α → List (Event Effect Effect.Response) → Prop}
    (h : Reporting message log log')
    (hrest : ∀ next log', Reporting message log log' →
      (rest next).Meets (.protocol Leased ClaimAnswer) post log') :
    (nextRetryAt now policy attempts >>= rest).Meets (.protocol Leased ClaimAnswer) post log' := by
  unfold nextRetryAt nextRetryJitter
  split
  · exact hrest _ _ h
  · exact .call_bind trivial fun jitter _ => hrest _ _ (h.concat rfl)

theorem giveUp_leased {reason : GoString} {time : Int} {attempted : Bool}
    (h : Reporting message log log') :
    (svc.giveUp message reason time attempted).Meets (.protocol Leased ClaimAnswer)
      (fun _ => KeepsOthers message.messageID log) log' := by
  refine .call_bind h.held fun result _ => ?_
  cases result <;> exact h.done rfl

theorem redeliver_leased {policy : DeliveryPolicy} (h : Reporting message log log') :
    (svc.redeliver message policy).Meets (.protocol Leased ClaimAnswer)
      (fun _ => KeepsOthers message.messageID log) log' := by
  refine .call_bind trivial fun delivery _ => ?_
  have h := h.concat (e := ⟨.deliverOnline (pushRequestFromMessage message), delivery⟩) rfl
  cases delivery with
  | error err =>
    refine .call_bind trivial fun failedAt _ => ?_
    have h := h.concat (e := ⟨.now, failedAt⟩) rfl
    split
    · exact giveUp_leased h
    · split
      · exact giveUp_leased h
      · refine nextRetryAt_leased h fun next log' h => ?_
        refine .call_bind h.held fun result _ => ?_
        cases result <;> exact h.done rfl
  | ok sentResp =>
    refine .call_bind trivial fun sentAt _ => ?_
    have h := h.concat (e := ⟨.now, sentAt⟩) rfl
    refine .call_bind h.held fun result _ => ?_
    cases result <;> exact h.done rfl

theorem retryMessage_leased (h : messageLeases.Holds message.messageID log) :
    (svc.retryMessage message).Meets (.protocol Leased ClaimAnswer)
      (fun _ => KeepsOthers message.messageID log) log := by
  have h : Reporting message log log := ⟨h, fun _ _ h => h⟩
  refine .call_bind trivial fun _ _ => .call_bind trivial fun now _ => ?_
  have h := (h.concat (e := ⟨.retryMessage message, ()⟩) rfl).concat (e := ⟨.now, now⟩) rfl
  split
  · exact giveUp_leased h
  · split
    · exact giveUp_leased h
    · split
      · exact h.others
      · exact redeliver_leased h

theorem retryMessages_leased {result : RetryResult} {messages : List Message}
    (hnodup : (messages.map Message.messageID).Nodup)
    (h : ∀ message ∈ messages, messageLeases.Holds message.messageID log) :
    (svc.retryMessages result messages).Meets (.protocol Leased ClaimAnswer) (fun _ _ => True)
      log := by
  induction messages generalizing result log with
  | nil => trivial
  | cons message rest ih =>
    refine .call_bind trivial fun ctxErr _ => ?_
    cases ctxErr with
    | some err => trivial
    | none =>
      obtain ⟨hfresh, hnodup⟩ := List.nodup_cons.mp hnodup
      have hheld : ∀ other ∈ message :: rest,
          messageLeases.Holds other.messageID (log ++ [⟨.ctxErr, none⟩]) :=
        fun other hmem => (h other hmem).concat (by simp [messageLeases])
      refine (retryMessage_leased (hheld message List.mem_cons_self)).bind
        fun status log' hothers => ?_
      cases status with
      | error err => trivial
      | ok status =>
        refine ih hnodup fun other hmem => ?_
        refine hothers _ (fun heq => hfresh ?_) (hheld other (List.mem_cons_of_mem _ hmem))
        exact heq ▸ List.mem_map_of_mem hmem

theorem retryDue_leased {limit : Int} (hfair : svc.retryFairness.enabled = true)
    (howner : svc.retryClaimOwner ≠ []) :
    (svc.retryDue limit).Meets (.protocol Leased ClaimAnswer) (fun _ _ => True) [] := by
  refine .call_bind trivial fun now _ => ?_
  rw [listRetryMessages, if_pos hfair, if_pos howner]
  refine .call_bind List.mem_cons_self fun claimed hclaimed => ?_
  cases claimed with
  | error err => trivial
  | ok selection =>
    refine (retryMessages_leased hclaimed fun message hmem => ?_).bind fun _ _ _ => trivial
    exact Leasing.holds_of_acquired (List.mem_map_of_mem hmem)

theorem deliverCreated_leased (h : messageLeases.Holds message.messageID log) :
    (deliverCreated message).Meets (.protocol Leased ClaimAnswer) (fun _ _ => True) log := by
  have h : Reporting message log log := ⟨h, fun _ _ h => h⟩
  refine .call_bind trivial fun delivery _ => ?_
  have h := h.concat (e := ⟨.deliverOnline (pushRequestFromMessage message), delivery⟩) rfl
  cases delivery with
  | error err =>
    refine .call_bind trivial fun failedAt _ => ?_
    refine nextRetryAt_leased (h.concat rfl) fun next log' h => ?_
    exact .call_bind h.held fun result _ => by cases result <;> trivial
  | ok sentResp =>
    refine .call_bind trivial fun sentAt _ => ?_
    have h := h.concat (e := ⟨.now, sentAt⟩) rfl
    exact .call_bind h.held fun result _ => by cases result <;> trivial

theorem chosenMessageID_leased {α : Type} {req : PushRequest} {rest : GoString → Code α}
    {post : α → List (Event Effect Effect.Response) → Prop}
    (hrest : ∀ messageID log', (rest messageID).Meets (.protocol Leased ClaimAnswer) post log') :
    (chosenMessageID req >>= rest).Meets (.protocol Leased ClaimAnswer) post log := by
  unfold chosenMessageID
  split
  · exact .call_bind trivial fun messageID _ => hrest _ _
  · exact hrest _ _

theorem push_leased {req : PushRequest} :
    (svc.push req).Meets (.protocol Leased ClaimAnswer) (fun _ _ => True) [] := by
  unfold push
  split
  · trivial
  · refine .call_bind trivial fun now _ => chosenMessageID_leased fun messageID log => ?_
    refine .call_bind trivial fun saved _ => ?_
    rcases saved with err | ⟨message, outcome⟩
    · cases err <;> trivial
    · cases outcome with
      | existing | conflict => trivial
      | created =>
        exact deliverCreated_leased (Leasing.holds_of_acquired List.mem_cons_self)

/-- Every one of the records is held. -/
def HoldsRecords (records : List TerminalRecord) (log : List (Event Effect Effect.Response)) :
    Prop :=
  ∀ record ∈ records, recordLeases.Holds record.event.eventID log

variable {records : List TerminalRecord}

theorem HoldsRecords.concat (h : HoldsRecords records log)
    (hreleases : recordLeases.releases e = []) : HoldsRecords records (log ++ [e]) :=
  fun record hmem => (h record hmem).concat (by simp [hreleases])

theorem HoldsRecords.head {record : TerminalRecord} (h : HoldsRecords (record :: records) log)
    (hkeyed : record.Keyed) :
    recordLeases.Holds (terminalEventID record.event.messageID record.event.terminalStatus) log :=
  hkeyed ▸ h record List.mem_cons_self

/-- A report on the first record leaves the others held. -/
theorem HoldsRecords.rest {record : TerminalRecord} (h : HoldsRecords (record :: records) log)
    (hnodup : ((record :: records).map fun record => record.event.eventID).Nodup)
    (hreleases : recordLeases.releases e = [record.event.eventID]) :
    HoldsRecords records (log ++ [e]) := by
  intro other hmem
  refine (h other (List.mem_cons_of_mem _ hmem)).concat ?_
  rw [hreleases, List.mem_singleton]
  intro heq
  exact (List.nodup_cons.mp hnodup).1 (List.mem_map.mpr ⟨other, hmem, heq⟩)

theorem terminalJitter_leased {α : Type} {maxJitter : Int} {rest : Int → Code α}
    {post : α → List (Event Effect Effect.Response) → Prop} (h : HoldsRecords records log)
    (hrest : ∀ jitter log', HoldsRecords records log' →
      (rest jitter).Meets (.protocol Leased ClaimAnswer) post log') :
    (nextRetryJitter maxJitter >>= rest).Meets (.protocol Leased ClaimAnswer) post log := by
  unfold nextRetryJitter
  split
  · exact hrest _ _ h
  · exact .call_bind trivial fun jitter _ => hrest _ _ (h.concat rfl)

theorem publishRecords_leased {result : TerminalPublishResult}
    (hnodup : (records.map fun record => record.event.eventID).Nodup)
    (hkeyed : ∀ record ∈ records, record.Keyed) (h : HoldsRecords records log) :
    (svc.publishRecords result records).Meets (.protocol Leased ClaimAnswer) (fun _ _ => True)
      log := by
  induction records generalizing result log with
  | nil => trivial
  | cons record records ih =>
    have hkey : record.Keyed := hkeyed record List.mem_cons_self
    have ih := fun result log => @ih log result (List.nodup_cons.mp hnodup).2
      fun other hmem => hkeyed other (List.mem_cons_of_mem _ hmem)
    refine .call_bind trivial fun ctxErr _ => ?_
    have h := h.concat (e := ⟨.ctxErr, ctxErr⟩) rfl
    cases ctxErr with
    | some err => trivial
    | none =>
      refine .call_bind trivial fun published _ => ?_
      have h := h.concat (e := ⟨.publish record.event, published⟩) rfl
      cases published with
      | some reason =>
        refine .call_bind trivial fun failedAt _ => ?_
        refine terminalJitter_leased (h.concat rfl) fun jitter log' h => ?_
        refine .call_bind (h.head hkey) fun marked _ => ?_
        cases marked with
        | error err => trivial
        | ok _ => exact ih _ _ (h.rest hnodup (congrArg (fun key => [key]) hkey.symm))
      | none =>
        refine .call_bind trivial fun publishedAt _ => ?_
        have h := h.concat (e := ⟨.now, publishedAt⟩) rfl
        refine .call_bind (h.head hkey) fun marked _ => ?_
        cases marked with
        | error err => trivial
        | ok _ => exact ih _ _ (h.rest hnodup (congrArg (fun key => [key]) hkey.symm))

theorem publishTerminalDue_leased {limit : Int} :
    (svc.publishTerminalDue limit).Meets (.protocol Leased ClaimAnswer) (fun _ _ => True) [] := by
  unfold publishTerminalDue
  split
  · trivial
  · refine .call_bind trivial fun now _ => .call_bind List.mem_cons_self fun claimed hclaimed => ?_
    cases claimed with
    | error err => trivial
    | ok records =>
      refine publishRecords_leased hclaimed.1 hclaimed.2 fun record hmem => ?_
      exact Leasing.holds_of_acquired (List.mem_map_of_mem hmem)

theorem run_unleased {started : Started} (hdelivers : started.operation.delivers = false)
    (hpublishes : ∀ limit, started.operation ≠ .publishTerminalDue limit) {effect : Effect}
    (h : started.Performs effect) : Leased log effect := by
  cases effect with
  | store call =>
    cases call with
    | markSent | markAttemptFailed =>
      exact absurd h (by simp [Started.Performs, Started.Makes, hdelivers])
    | markFailed => exact absurd h.1 (by simp [hdelivers])
    | claimDueRetryFair =>
      obtain ⟨-, limit, hop⟩ := h
      simp [hop, Operation.delivers] at hdelivers
    | markTerminalPublished | markTerminalPublishFailed | claimDueTerminal =>
      obtain ⟨limit, hop⟩ := h
      exact absurd hop (hpublishes limit)
    | _ => trivial
  | _ => trivial

end Service

theorem leased_run {started : Started} (h : started.Claiming) :
    (started.service.run started.operation).Meets
      (.protocol (fun log effect => started.Performs effect ∧ Leased log effect) ClaimAnswer)
      (fun _ _ => True) [] := by
  refine Prog.Meets.performs ?_ (Service.run_performs started)
  obtain ⟨svc, op⟩ := started
  cases op with
  | push req => exact Service.push_leased.bind fun _ _ _ => trivial
  | retryDue limit => exact (Service.retryDue_leased h.1 h.2).bind fun _ _ _ => trivial
  | publishTerminalDue limit =>
    exact Service.publishTerminalDue_leased.bind fun _ _ _ => trivial
  | ack clientID deviceID req =>
    refine ((Service.run_performs ⟨svc, .ack clientID deviceID req⟩).meets []).weaken
      (fun effect log h => ?_) fun _ _ _ _ h => h
    exact Service.run_unleased rfl (by simp) h
  | discard messageID reason =>
    refine ((Service.run_performs ⟨svc, .discard messageID reason⟩).meets []).weaken
      (fun effect log h => ?_) fun _ _ _ _ h => h
    exact Service.run_unleased rfl (by simp) h
  | flushClientDevice | requeue | requeueFailed | cleanupExpired => exact h.elim

/-! ## What the store does -/

/-- The calls of claiming operations: no requeue and no deletion, and claims are made for an owner
and at a time that has been reached. -/
def StoreCall.Claiming (env : StoreEnv) : StoreCall → Prop
  | .claimDueRetryFair now _ _ _ owner _ => owner ≠ [] ∧ env.orClock now ≤ env.clock
  | .claimDueTerminal now _ _ _ => env.orClock now ≤ env.clock
  | .requeueWithCapacity .. | .deleteExpired .. => False
  | _ => True

/-- Every record in the store has the key of its message and status. -/
def MemoryStore.Keyed (s : MemoryStore) : Prop :=
  ∀ key record, s.terminalEvents.get? key = some record → record.Keyed

theorem not_due_of_guarded {message : Message} {now ackTimeout expiry : Int}
    (h : message.claimUntil = expiry ∨ message.status = .delivered ∨ message.status = .discarded)
    (hexpiry : 0 < expiry) (hlive : now < expiry) :
    messageDueForRetry message now ackTimeout = false := by
  rcases h with rfl | h | h
  · have hactive : claimActive message now = true := by
      simp only [claimActive, isZero, Bool.and_eq_true, Bool.not_eq_true', decide_eq_true_eq,
        decide_eq_false_iff_not]
      omega
    simp [messageDueForRetry, hactive]
  · simp [messageDueForRetry, h]
  · simp [messageDueForRetry, h]

theorem record_not_due_of_claimed {record : TerminalRecord} {now : Int}
    (hexpiry : 0 < record.claimUntil) (hlive : now < record.claimUntil) :
    terminalDue record now = false := by
  simp only [terminalDue, isZero, Bool.and_eq_false_iff, Bool.or_eq_false_iff,
    decide_eq_false_iff_not]
  omega

section

variable [Sha256] {env : StoreEnv} {s s' : MemoryStore} {call : StoreCall} {key : GoString}
  {expiry : Int}

theorem message_guard_kept (h : StoreStep env s call s') (hcall : call.Claiming env)
    (hclock : 0 ≤ env.clock) (hlive : env.clock < expiry) (hguards : s.guardsMessage key expiry)
    {response : (Effect.store call).Response}
    (hkept : key ∉ messageLeases.releases ⟨.store call, response⟩) :
    s'.guardsMessage key expiry := by
  obtain ⟨message, hget, hguarded⟩ := hguards
  have hslot := h.slot key
  rw [hget] at hslot
  generalize hafter : s'.messages.get? key = slot at hslot
  cases hslot with
  | same => exact ⟨message, hafter, hguarded⟩
  | removed => exact hcall.elim
  | edited hid hedit =>
    subst hid
    refine ⟨_, hafter, ?_⟩
    cases hedit with
    | refreshed | published | publishFailed => exact hguarded
    | claimed hdue =>
      have hnow := hcall.2
      rw [not_due_of_guarded hguarded (by omega) (by omega)] at hdue
      cases hdue
    | sent | attemptFailed | failed => exact absurd List.mem_cons_self hkept
    | delivered => exact .inr (.inl rfl)
    | discarded => exact .inr (.inr MemoryStore.terminalMessage_status)
    | requeued => exact hcall.elim

theorem record_guard_kept (h : StoreStep env s call s') (hcall : call.Claiming env)
    (hclock : 0 ≤ env.clock) (hlive : env.clock < expiry) (hguards : s.guardsRecord key expiry)
    {response : (Effect.store call).Response}
    (hkept : key ∉ recordLeases.releases ⟨.store call, response⟩) :
    s'.guardsRecord key expiry := by
  obtain ⟨record, hget, rfl⟩ := hguards
  have hrecord := h.record key
  rw [hget] at hrecord
  generalize hafter : s'.terminalEvents.get? key = slot at hrecord
  cases hrecord with
  | same => exact ⟨record, hafter, rfl⟩
  | claimed hdue =>
    have hnow : env.orClock _ ≤ env.clock := hcall
    rw [record_not_due_of_claimed (by omega) (by omega)] at hdue
    cases hdue
  | published hkey | publishFailed hkey =>
    exact absurd (hkey ▸ List.mem_cons_self) hkept
  | removed => exact hcall.elim

theorem message_granted {lease : GoString × Int} (hcall : call.Claiming env)
    (h : lease ∈ messageLeases.acquires ⟨.store call, (s.call env call).1⟩) :
    (∀ message, s.messages.get? lease.1 = some message →
      ∃ now ackTimeout, now ≤ env.clock ∧ messageDueForRetry message now ackTimeout = true) ∧
    (s.call env call).2.guardsMessage lease.1 lease.2 := by
  cases call with
  | saveWithCapacity message capacity =>
    have hsaved := MemoryStore.saveWithCapacity_saved s env message capacity
    simp only [MemoryStore.call] at h ⊢
    rcases hanswer : s.saveWithCapacity env message capacity with ⟨_ | ⟨created, outcome⟩, s'⟩
    · simp [messageLeases, hanswer] at h
    · rw [hanswer] at h hsaved
      cases outcome with
      | existing | conflict => simp [messageLeases] at h
      | created =>
        obtain rfl := List.mem_singleton.mp h
        obtain ⟨-, hnone, rfl⟩ := hsaved.created_inv
        refine ⟨fun message hget => absurd (hnone.symm.trans hget) (by simp), created, ?_, .inl rfl⟩
        simp [MemoryStore.get?_putMessage]
  | claimDueRetryFair now ackTimeout limit candidateLimit owner duration =>
    simp only [MemoryStore.call] at h ⊢
    rcases hanswer : s.claimDueRetryFair env now ackTimeout limit candidateLimit owner duration
      with ⟨_ | selection, s'⟩
    · simp [messageLeases, hanswer] at h
    · rw [hanswer] at h
      obtain ⟨chosen, expiry, -, ⟨-, hdue⟩, hselection, hget'⟩ :=
        MemoryStore.claimDueRetryFair_ok hcall.1 hanswer
      obtain ⟨claimed, hclaimed, rfl⟩ := List.mem_map.mp h
      rw [hselection] at hclaimed
      obtain ⟨message, hmem, rfl⟩ := List.mem_map.mp hclaimed
      have hstored : s.messages.get? message.messageID = some message :=
        Table.get?_of_mem (hdue message hmem).1
      refine ⟨fun stored hget => ?_, _, ?_, .inl rfl⟩
      · obtain rfl := Option.some.inj (hstored.symm.trans hget)
        exact ⟨_, ackTimeout, hcall.2, (hdue message hmem).2⟩
      · have hid : message.messageID ∈ chosen.map Message.messageID :=
          List.mem_map_of_mem hmem
        exact (hget' message.messageID).trans (by rw [if_pos hid, hstored]; rfl)
  | _ => exact absurd h List.not_mem_nil

theorem record_granted {lease : GoString × Int} (hcall : call.Claiming env)
    (h : lease ∈ recordLeases.acquires ⟨.store call, (s.call env call).1⟩) :
    (∀ record, s.terminalEvents.get? lease.1 = some record →
      ∃ now, now ≤ env.clock ∧ terminalDue record now = true) ∧
    (s.call env call).2.guardsRecord lease.1 lease.2 := by
  cases call with
  | claimDueTerminal now limit owner duration =>
    simp only [MemoryStore.call] at h ⊢
    rcases hanswer : s.claimDueTerminal env now limit owner duration with ⟨_ | records, s'⟩
    · simp [recordLeases, hanswer] at h
    · rw [hanswer] at h
      obtain ⟨chosen, expiry, ⟨-, hdue⟩, rfl, hget'⟩ := MemoryStore.claimDueTerminal_ok hanswer
      obtain ⟨claimed, hclaimed, rfl⟩ := List.mem_map.mp h
      obtain ⟨record, hmem, rfl⟩ := List.mem_map.mp hclaimed
      have hstored : s.terminalEvents.get? record.event.eventID = some record :=
        Table.get?_of_mem (hdue record hmem).1
      refine ⟨fun stored hget => ?_, _, ?_, rfl⟩
      · obtain rfl := Option.some.inj (hstored.symm.trans hget)
        exact ⟨_, hcall, (hdue record hmem).2⟩
      · have hkey : record.event.eventID ∈ chosen.map fun record => record.event.eventID :=
          List.mem_map.mpr ⟨record, hmem, rfl⟩
        exact (hget' record.event.eventID).trans (by rw [if_pos hkey, hstored]; rfl)
  | _ => exact absurd h List.not_mem_nil

/-- Records keep the keys they are created with. -/
theorem MemoryStore.Keyed.step (hkeyed : s.Keyed) (h : StoreStep env s call s') : s'.Keyed := by
  intro key record hget
  have hrecord := h.record key
  rw [hget] at hrecord
  generalize hbefore : s.terminalEvents.get? key = slot at hrecord
  cases hrecord with
  | same => exact hkeyed key record hbefore
  | created _ hevent => exact hevent
  | claimed | published | publishFailed =>
    have hold := hkeyed key _ hbefore
    exact hold

theorem claim_answer (hkeyed : s.Keyed) (hcall : call.Claiming env) :
    ClaimAnswer (.store call) (s.call env call).1 := by
  cases call with
  | claimDueRetryFair now ackTimeout limit candidateLimit owner duration =>
    simp only [MemoryStore.call]
    rcases hanswer : s.claimDueRetryFair env now ackTimeout limit candidateLimit owner duration
      with ⟨_ | selection, s'⟩
    · trivial
    · obtain ⟨chosen, expiry, -, ⟨hnodup, hdue⟩, hselection, -⟩ :=
        MemoryStore.claimDueRetryFair_ok hcall.1 hanswer
      have hids := MemoryStore.ids_nodup hnodup fun message hmem => (hdue message hmem).1
      simpa [ClaimAnswer, hselection, List.map_map, Function.comp_def, Message.claimed] using hids
  | claimDueTerminal now limit owner duration =>
    simp only [MemoryStore.call]
    rcases hanswer : s.claimDueTerminal env now limit owner duration with ⟨_ | records, s'⟩
    · trivial
    · obtain ⟨chosen, expiry, ⟨hnodup, hdue⟩, rfl, -⟩ := MemoryStore.claimDueTerminal_ok hanswer
      refine ⟨?_, fun record hmem => ?_⟩
      · rw [List.map_map]
        exact hnodup.map_on fun _ hleft _ hright =>
          s.terminalEvents.eq_of_key_eq (hdue _ hleft).1 (hdue _ hright).1
      · obtain ⟨stored, hstored, rfl⟩ := List.mem_map.mp hmem
        have hkey : stored.Keyed := hkeyed _ _ (Table.get?_of_mem (hdue stored hstored).1)
        exact hkey
  | _ => trivial

end

/-! ## Runs -/

/-- Only claiming operations start, the clock does not go back, and nobody holds a claim that has
expired. -/
structure CourierStep.InTime (t : CourierStep) : Prop where
  claiming : t.Starts Started.Claiming
  forward : ∀ i input, t.choice = .act i input → t.before.state.clock ≤ input.clock
  live : ∀ i input, t.choice = .act i input → ∀ thread ∈ t.before.threads,
    ∀ lease ∈ messageLeases.holds thread ++ recordLeases.holds thread, input.clock < lease.2

/-- The invariant of runs in time. -/
structure Courier.Claims (config : Courier) : Prop where
  clock : 0 ≤ config.state.clock
  read : ∀ thread ∈ config.threads, ∀ now, ⟨.now, now⟩ ∈ thread.log → now ≤ config.state.clock
  keyed : config.state.store.Keyed
  messages : messageLeases.Exclusive (fun world => world.store.guardsMessage) config
  records : recordLeases.Exclusive (fun world => world.store.guardsRecord) config

theorem claiming_call {started : Started} {log : List (Event Effect Effect.Response)}
    {call : StoreCall} {env : StoreEnv} (h : started.Claiming) (hmakes : started.Makes call)
    (hleased : Leased log (.store call))
    (hread : ∀ now, ⟨.now, now⟩ ∈ log → now ≤ env.clock) : call.Claiming env := by
  have horClock : ∀ now, ⟨.now, now⟩ ∈ log → env.orClock now ≤ env.clock := by
    intro now hmem
    have hle := hread now hmem
    simp only [StoreEnv.orClock]
    split <;> omega
  cases call with
  | claimDueRetryFair now => exact ⟨hmakes.1, horClock now hleased⟩
  | claimDueTerminal now => exact horClock now hleased
  | requeueWithCapacity =>
    simp only [Started.Claiming] at h
    rcases hmakes with hop | hop <;> simp [hop] at h
  | deleteExpired =>
    obtain ⟨policy, hop⟩ := hmakes
    simp [Started.Claiming, hop] at h
  | _ => trivial

theorem leased_releases {log : List (Event Effect Effect.Response)} {effect : Effect}
    (h : Leased log effect) (response : effect.Response) :
    (∀ key ∈ messageLeases.releases ⟨effect, response⟩, messageLeases.Holds key log) ∧
      ∀ key ∈ recordLeases.releases ⟨effect, response⟩, recordLeases.Holds key log := by
  cases effect with
  | store call =>
    cases call with
    | markSent | markAttemptFailed | markFailed =>
      refine ⟨fun key hmem => ?_, fun _ hmem => absurd hmem List.not_mem_nil⟩
      obtain rfl := List.mem_singleton.mp hmem
      exact h
    | markTerminalPublished | markTerminalPublishFailed =>
      refine ⟨fun _ hmem => absurd hmem List.not_mem_nil, fun key hmem => ?_⟩
      obtain rfl := List.mem_singleton.mp hmem
      exact h
    | _ => exact ⟨fun _ hmem => absurd hmem List.not_mem_nil,
        fun _ hmem => absurd hmem List.not_mem_nil⟩
  | _ => exact ⟨fun _ hmem => absurd hmem List.not_mem_nil,
      fun _ hmem => absurd hmem List.not_mem_nil⟩

section

variable [Sha256]

variable {input : Surroundings}

theorem message_lease_kept {effect : Effect} {world : World} {key : GoString} {expiry : Int}
    (hcall : ∀ call, effect = .store call → call.Claiming input.env) (hclock : 0 ≤ input.clock)
    (hguards : world.store.guardsMessage key expiry) (hlive : input.clock < expiry) :
    (key ∉ messageLeases.releases ⟨effect, (perform effect input world).1⟩ →
      (perform effect input world).2.store.guardsMessage key expiry) ∧
    ∀ lease ∈ messageLeases.acquires ⟨effect, (perform effect input world).1⟩, lease.1 ≠ key := by
  cases effect with
  | store call =>
    have hcall := hcall call rfl
    refine ⟨message_guard_kept (MemoryStore.call_step call) hcall hclock hlive hguards, ?_⟩
    rintro lease hmem rfl
    obtain ⟨message, hget, hguarded⟩ := hguards
    obtain ⟨now, ackTimeout, hnow, hdue⟩ := (message_granted hcall hmem).1 message hget
    have hnow : now ≤ input.clock := hnow
    rw [not_due_of_guarded hguarded (by omega) (by omega)] at hdue
    cases hdue
  | _ => exact ⟨fun _ => hguards, fun _ hmem => absurd hmem List.not_mem_nil⟩

theorem record_lease_kept {effect : Effect} {world : World} {key : GoString} {expiry : Int}
    (hcall : ∀ call, effect = .store call → call.Claiming input.env) (hclock : 0 ≤ input.clock)
    (hguards : world.store.guardsRecord key expiry) (hlive : input.clock < expiry) :
    (key ∉ recordLeases.releases ⟨effect, (perform effect input world).1⟩ →
      (perform effect input world).2.store.guardsRecord key expiry) ∧
    ∀ lease ∈ recordLeases.acquires ⟨effect, (perform effect input world).1⟩, lease.1 ≠ key := by
  cases effect with
  | store call =>
    have hcall := hcall call rfl
    refine ⟨record_guard_kept (MemoryStore.call_step call) hcall hclock hlive hguards, ?_⟩
    rintro lease hmem rfl
    obtain ⟨record, hget, rfl⟩ := hguards
    obtain ⟨now, hnow, hdue⟩ := (record_granted hcall hmem).1 record hget
    have hnow : now ≤ input.clock := hnow
    rw [record_not_due_of_claimed (by omega) (by omega)] at hdue
    cases hdue
  | _ => exact ⟨fun _ => hguards, fun _ hmem => absurd hmem List.not_mem_nil⟩

theorem lease_granted {effect : Effect} (world : World)
    (hcall : ∀ call, effect = .store call → call.Claiming input.env) :
    (∀ lease ∈ messageLeases.acquires ⟨effect, (perform effect input world).1⟩,
      (perform effect input world).2.store.guardsMessage lease.1 lease.2) ∧
    ∀ lease ∈ recordLeases.acquires ⟨effect, (perform effect input world).1⟩,
      (perform effect input world).2.store.guardsRecord lease.1 lease.2 := by
  cases effect with
  | store call =>
    exact ⟨fun _ hmem => (message_granted (hcall call rfl) hmem).2,
      fun _ hmem => (record_granted (hcall call rfl) hmem).2⟩
  | _ => exact ⟨fun _ hmem => absurd hmem List.not_mem_nil,
      fun _ hmem => absurd hmem List.not_mem_nil⟩

/-- A step of the invariant: an effect of a claiming operation that follows its protocol. -/
theorem Courier.Claims.act {config : Courier} (h : config.Claims) {i : Nat} {input : Surroundings}
    {started : Started} {log : List (Event Effect Effect.Response)} {effect : Effect}
    {next : effect.Response → Code OperationResult}
    (hthread : config.threads[i]? = some ⟨started, log, .perform effect next⟩)
    (hclaiming : started.Claiming) (hperforms : started.Performs effect)
    (hleased : Leased log effect) (hforward : config.state.clock ≤ input.clock)
    (hlive : ∀ thread ∈ config.threads,
      ∀ lease ∈ messageLeases.holds thread ++ recordLeases.holds thread, input.clock < lease.2) :
    ClaimAnswer effect (perform effect input config.state).1 ∧
      Courier.Claims ⟨(perform effect input config.state).2, config.threads.set i
        ⟨started, log ++ [⟨effect, (perform effect input config.state).1⟩],
          next (perform effect input config.state).1⟩⟩ := by
  have hclock := h.clock.trans hforward
  have hread : ∀ thread ∈ config.threads, ∀ now, ⟨.now, now⟩ ∈ thread.log → now ≤ input.clock :=
    fun thread hmem now hnow => (h.read thread hmem now hnow).trans hforward
  have hcall : ∀ call, effect = .store call → call.Claiming input.env := by
    rintro call rfl
    exact claiming_call hclaiming hperforms hleased (hread _ (List.mem_of_getElem? hthread))
  obtain ⟨hmessages, hrecords⟩ := leased_releases hleased
    (perform effect input config.state).1
  obtain ⟨hgranted, hgranted'⟩ := lease_granted config.state hcall
  refine ⟨?_, ?_, ?_, ?_, ?_, ?_⟩
  · cases effect with
    | store call => exact claim_answer h.keyed (hcall call rfl)
    | _ => trivial
  · simpa using hclock
  · intro thread hmem now hnow
    rw [perform_clock]
    rcases List.mem_or_eq_of_mem_set hmem with hmem | rfl
    · exact hread thread hmem now hnow
    · rcases List.mem_append.mp hnow with hnow | hnow
      · exact hread _ (List.mem_of_getElem? hthread) now hnow
      · cases List.mem_singleton.mp hnow
        exact le_refl _
  · cases effect with
    | store call => exact h.keyed.step (MemoryStore.call_step call)
    | _ => exact h.keyed
  · exact h.messages.act hthread
      (fun thread hmem lease hlease => hlive thread hmem lease (List.mem_append_left _ hlease))
      hmessages hgranted fun hguards hlt => message_lease_kept hcall hclock hguards hlt
  · exact h.records.act hthread
      (fun thread hmem lease hlease => hlive thread hmem lease (List.mem_append_right _ hlease))
      hrecords hgranted' fun hguards hlt => record_lease_kept hcall hclock hguards hlt

theorem claims_run {clock : Int} {history : List CourierStep} {after : Courier}
    (hclock : 0 ≤ clock)
    (h : Run courier CourierStep.InTime (Courier.initial clock) history after) : after.Claims := by
  refine (h.protocol (fun started log effect =>
      started.Claiming ∧ started.Performs effect ∧ Leased log effect) ClaimAnswer
    (fun _ _ _ => True) Courier.Claims ?_ ?_ ?_ ?_).1
  · exact ⟨hclock, by simp [Config.idle], (fun key record hget => by cases hget), .idle _, .idle _⟩
  · intro before started after hok
    have hclaiming := hok.claiming started rfl
    exact (leased_run hclaiming).weaken (fun _ _ hpre => ⟨hclaiming, hpre⟩) fun _ _ _ _ hs => hs
  · intro before started state hinv hstart _
    obtain rfl := Option.some.inj hstart
    refine ⟨hinv.clock, fun thread hmem now hnow => ?_, hinv.keyed, hinv.messages.start id,
      hinv.records.start id⟩
    rcases List.mem_append.mp hmem with hmem | hmem
    · exact hinv.read thread hmem now hnow
    · cases List.mem_singleton.mp hmem
      cases hnow
  · intro before i input started log effect next response state hinv hthread hallowed hexec hok
    obtain ⟨rfl, rfl⟩ := Prod.mk.inj (Option.some.inj hexec)
    exact hinv.act hthread hallowed.1 hallowed.2.1 hallowed.2.2 (hok.forward i input rfl)
      (hok.live i input rfl)

/-- In every interleaving of claiming operations in which reports are made in time, no two
operations hold a claim on the same message or on the same record. -/
theorem claims_exclusive {clock : Int} {history : List CourierStep} {after : Courier}
    (hclock : 0 ≤ clock) (h : Run courier CourierStep.InTime (Courier.initial clock) history after)
    {i j : Nat} (hij : i ≠ j) {left right : Thread Started Effect Effect.Response OperationResult}
    (hleft : after.threads[i]? = some left) (hright : after.threads[j]? = some right) :
    ((messageLeases.holds left).map Prod.fst).Disjoint
        ((messageLeases.holds right).map Prod.fst) ∧
      ((recordLeases.holds left).map Prod.fst).Disjoint
        ((recordLeases.holds right).map Prod.fst) := by
  have hclaims := claims_run hclock h
  refine ⟨fun key hl hr => ?_, fun key hl hr => ?_⟩
  · obtain ⟨lease, hlease, rfl⟩ := List.mem_map.mp hl
    obtain ⟨lease', hlease', heq⟩ := List.mem_map.mp hr
    exact hclaims.messages.disjoint hij hleft hright lease hlease lease' hlease' heq.symm
  · obtain ⟨lease, hlease, rfl⟩ := List.mem_map.mp hl
    obtain ⟨lease', hlease', heq⟩ := List.mem_map.mp hr
    exact hclaims.records.disjoint hij hleft hright lease hlease lease' hlease' heq.symm

end

/-- Whether a choice continues a run in time. -/
def inTimeCheck (config : Courier) : Choice Started Surroundings → Bool
  | .start started => started.Claiming
  | .act _ input => config.state.clock ≤ input.clock && config.threads.all fun thread =>
    (messageLeases.holds thread ++ recordLeases.holds thread).all fun lease =>
      input.clock < lease.2

theorem in_time_of_check {before after : Courier} {choice : Choice Started Surroundings}
    (h : inTimeCheck before choice = true) : CourierStep.InTime ⟨before, choice, after⟩ := by
  refine ⟨?_, ?_, ?_⟩
  · rintro started rfl
    simpa [inTimeCheck] using h
  · rintro i input rfl
    simp only [inTimeCheck, Bool.and_eq_true, decide_eq_true_eq] at h
    exact h.1
  · rintro i input rfl thread hthread lease hlease
    simp only [inTimeCheck, Bool.and_eq_true, List.all_eq_true, decide_eq_true_eq] at h
    exact h.2 thread hthread lease hlease

/-- A gateway that claims what it pushes and retries. -/
def claimingService : Service :=
  { newService with retryClaimOwner := ascii "g", retryFairness := ⟨true, 0⟩ }

/-- A push of `n` that cannot be delivered, a retry that has claimed `n` again, and a push that
has saved `m`. -/
def twoClaims : List (Choice Started Surroundings) :=
  List.flatten [
    [.start ⟨claimingService, .push { requestM with messageID := ascii "n" }⟩],
    Choice.turns 0 5 (offline 1),
    [.start ⟨claimingService, .retryDue 10⟩, .start ⟨claimingService, .push requestM⟩],
    Choice.turns 1 2 (offline (31 * second)), Choice.turns 2 2 (offline (31 * second))]

/-- Two operations that hold a claim each, on different messages. -/
theorem claims_exclusive_two_claims :
    ∃ history after left right,
      Run (@courier Sha256.polynomial) CourierStep.InTime (Courier.initial 1) history after ∧
      after.threads[1]? = some left ∧ after.threads[2]? = some right ∧
      (messageLeases.holds left).map Prod.fst = [ascii "n"] ∧
      (messageLeases.holds right).map Prod.fst = [ascii "m"] ∧
      ((messageLeases.holds left).map Prod.fst).Disjoint
        ((messageLeases.holds right).map Prod.fst) := by
  have hreplay : ((@courier Sha256.polynomial).replayIf inTimeCheck (Courier.initial 1)
      twoClaims).map (fun config : Courier => (
        config.threads[1]?.map fun thread => (messageLeases.holds thread).map Prod.fst,
        config.threads[2]?.map fun thread => (messageLeases.holds thread).map Prod.fst)) =
      some (some [ascii "n"], some [ascii "m"]) := by
    decide +kernel
  obtain ⟨after, hafter, hchecked⟩ := Option.map_eq_some_iff.mp hreplay
  obtain ⟨hleft, hright⟩ := Prod.mk.inj hchecked
  obtain ⟨left, hleft, hleftKeys⟩ := Option.map_eq_some_iff.mp hleft
  obtain ⟨right, hright, hrightKeys⟩ := Option.map_eq_some_iff.mp hright
  obtain ⟨history, hrun⟩ := System.replayIf_run in_time_of_check hafter
  exact ⟨history, after, left, right, hrun, hleft, hright, hleftKeys, hrightKeys,
    (@claims_exclusive Sha256.polynomial _ _ _ (by decide) hrun 1 2 (by decide) _ _ hleft
      hright).1⟩

end ZCourier.Downlink
