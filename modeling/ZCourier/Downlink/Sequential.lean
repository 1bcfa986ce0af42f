import ZCourier.Downlink.Retrying

/-!
# Operations run one at a time

Two results about executions in which operations of accepted services run one at a time and the
clock does not go back: `delivery_policy_obeyed` and `no_message_stuck`.
`refused_report_changes_nothing` shows why the calls of `retryMessage` that the latter counts have
to succeed.
-/

namespace ZCourier.Downlink

open Go Library

/-- Operations of accepted services run one at a time, and the clock does not go back. -/
def CourierStep.Orderly (t : CourierStep) : Prop :=
  Sequential t ∧ (∀ i input, t.choice = .act i input → t.before.state.clock ≤ input.clock) ∧
    ∀ started, t.choice = .start started → started.Accepted

section

variable [Sha256] {clock : Int} {history later : List CourierStep} {before after : Courier}

theorem orderly_alone (hclock : 0 < clock)
    (h : Run courier CourierStep.Orderly (Courier.initial clock) history after) :
    courier.Alone forward Started.Obeys Accounts after := by
  refine h.sequential ⟨hclock, fun id message hget => by simp [MemoryStore.new] at hget⟩
    (fun t ht => ht.1) (fun ht => ht.2.1 _ _ rfl) ?_
  intro before started state ht haccounts hstart
  obtain rfl := Option.some.inj hstart
  exact run_meets (ht.2.2 started rfl) haccounts

theorem orderly_accounts (hclock : 0 < clock)
    (h : Run courier CourierStep.Orderly (Courier.initial clock) history after) :
    Accounts (after.state, after.trace) :=
  (orderly_alone hclock h).inv_of_pre fun _ _ _ hobeys => hobeys.1

theorem orderly_obeys (hclock : 0 < clock)
    (h : Run courier CourierStep.Orderly (Courier.initial clock) history after) {i : Nat}
    {started : Started} {log : Trace} {effect : Effect}
    {next : effect.Response → Code OperationResult}
    (hthread : after.threads[i]? = some ⟨started, log, .perform effect next⟩) :
    started.Obeys effect (after.state, after.trace) := by
  obtain ⟨-, -, -, -, hmeets⟩ := (orderly_alone hclock h).last hthread
  exact hmeets.1

/-! ## The policy is obeyed -/

/-- Operations of accepted services run one at a time with a clock that does not go back, and
after `history` some more of them run. Then the message stored under an id keeps its policy and
its identity until it is removed; its attempts are the delivery attempts recorded since it was
created or last requeued and do not exceed the policy's limit; and a retry that is about to
attempt a delivery finds a stored message with attempts left, younger than the policy's age
limit, and not waiting for an acknowledgement whose deadline lies ahead. -/
theorem delivery_policy_obeyed (hclock : 0 < clock)
    (h : Run courier CourierStep.Orderly (Courier.initial clock) history before)
    (hlater : Run courier CourierStep.Orderly before later after) :
    (∀ {id message}, before.state.store.messages.get? id = some message →
      (∃ t ∈ later, t.Removes id) ∨ ∃ message', after.state.store.messages.get? id = some message' ∧
        message'.policy = message.policy ∧ message'.identity = message.identity) ∧
    (∀ {id message}, after.state.store.messages.get? id = some message →
      message.attempts = (tally id after.trace).recorded ∧
        (message.attempts : Int) ≤ message.policy.maxAttempts) ∧
    (∀ {i : Nat} {started : Started} {log : Trace} {req : PushRequest}
        {next : Except DeliveryError PushResponse → Code OperationResult},
      after.threads[i]? = some ⟨started, log, .perform (.deliverOnline req) next⟩ →
      started.operation.retries = true →
      ∃ message, after.state.store.messages.get? req.messageID = some message ∧
        (message.attempts : Int) < message.policy.maxAttempts ∧
        (0 < message.policy.maxAge →
          after.state.clock - message.createdAt < message.policy.maxAge) ∧
        (message.status = .sent →
          message.ackRequired = true ∧ message.nextRetryAt ≤ after.state.clock)) := by
  have hwhole := h.append hlater
  refine ⟨fun {id message} hget => ?_, fun {id message} hget => ?_,
    fun {i started log req next} hthread hretries => ?_⟩
  · rcases kept_until_removed (p := fun message' => message'.origin = message.origin)
      (fun _ _ _ hedit hsame => hedit.origin_eq.trans hsame) hlater hget rfl with
      hremoved | ⟨message', hget', horigin⟩
    · exact .inl hremoved
    · exact .inr ⟨message', hget', Message.Origin.policy_eq horigin,
        Message.Origin.identity_eq horigin⟩
  · have haccounted := (orderly_accounts hclock hwhole).2 id message hget
    exact ⟨haccounted.recorded, haccounted.bounded⟩
  · obtain ⟨message, hget, hdeliverable⟩ := (orderly_obeys hclock hwhole hthread).2 hretries
    exact ⟨message, hget, hdeliverable.attempts_lt, hdeliverable.young, hdeliverable.overdue⟩

/-! ## No message is stuck -/

omit [Sha256] in
theorem due_of_open {message : Message} {t : Tally} (h : Accounted message t)
    (hopen : message.Open) {now : Int} (hretry : message.nextRetryAt ≤ now)
    (hclaim : message.claimUntil ≤ now) (ackTimeout : Int) :
    messageDueForRetry message now ackTimeout = true := by
  have hfree : claimActive message now = false := by
    simp [claimActive]
    omega
  rcases hopen with hpending | ⟨hsent, hack⟩
  · simp [messageDueForRetry, hfree, hpending, hretry]
  · simp [messageDueForRetry, hfree, hsent, hack, h.awaiting hsent hack, hretry]

/-- The message is stored, and it is due or a call of `retryMessage` on it is about to begin. -/
def Courier.Retriable (config : Courier) (message : Message) : Prop :=
  (config.state.store.messages.get? message.messageID = some message ∧
    ∃ ackTimeout, messageDueForRetry message config.state.clock ackTimeout = true) ∨
  ∃ (i : Nat) (started : Started) (log : Trace) (next : Unit → Code OperationResult),
    config.threads[i]? = some ⟨started, log, .perform (.retryMessage message) next⟩

theorem ready_of_retriable (hclock : 0 < clock)
    (h : Run courier CourierStep.Orderly (Courier.initial clock) history after)
    {message : Message} (hretriable : after.Retriable message) :
    after.state.store.messages.get? message.messageID = some message ∧
      message.Ready after.state.clock := by
  rcases hretriable with ⟨hget, ackTimeout, hdue⟩ | ⟨i, started, log, next, hthread⟩
  · exact ⟨hget, ready_of_due ((orderly_accounts hclock h).2 _ _ hget) hdue⟩
  · exact (orderly_obeys hclock h hthread).2

/-- Operations of accepted services run one at a time with a clock that does not go back. Then a
message that is pending, or sent and waiting for its acknowledgement, is due at every time that is
not before its stored `NextRetryAt` and `ClaimUntil`. A call of `retryMessage` on a stored message
that is due, run to its end without interference, leaves it failed or with more attempts unless it
returns an error. And once `MaxAttempts + 1` such calls have recorded their outcome since the
message was created or last requeued, without an acknowledgement or a discard, the message is
failed, or sent and in need of no acknowledgement. -/
theorem no_message_stuck (hclock : 0 < clock)
    (h : Run courier CourierStep.Orderly (Courier.initial clock) history after) :
    (∀ {id message}, after.state.store.messages.get? id = some message → message.Open →
      ∀ now, max message.nextRetryAt message.claimUntil ≤ now →
        ∀ ackTimeout, messageDueForRetry message now ackTimeout = true) ∧
    (∀ {message}, after.Retriable message → ∀ svc : Service,
      after.state.store.messages.get? message.messageID = some message ∧
      (svc.retryMessage message).Meets (courier.alone forward fun _ _ => True)
        (fun result s => result.isOk = true → ∃ message',
          s.1.store.messages.get? message.messageID = some message' ∧
            (message'.status = .failed ∨ message.attempts < message'.attempts))
        (after.state, after.trace)) ∧
    (∀ {id message}, after.state.store.messages.get? id = some message →
      (tally id after.trace).closed = false →
      message.policy.maxAttempts + 1 ≤ (tally id after.trace).retried →
      message.status = .failed ∨ message.status = .sent ∧ message.ackRequired = false) := by
  have haccounts := orderly_accounts hclock h
  refine ⟨fun {id message} hget hopen now hnow ackTimeout => ?_, fun {message} hretriable svc => ?_,
    fun {id message} hget hclosed hretried => ?_⟩
  · exact due_of_open (haccounts.2 id message hget) hopen ((le_max_left _ _).trans hnow)
      ((le_max_right _ _).trans hnow) ackTimeout
  · obtain ⟨hget, hready⟩ := ready_of_retriable hclock h hretriable
    refine ⟨hget, ?_⟩
    have hmeets := @retryMessage_meets _ svc ⟨svc, .retryDue 0⟩ message _ haccounts hget hready
    exact (hmeets.mono fun result s hdone hok => hdone.progress hok).weaken
      (fun _ _ _ => trivial) fun _ _ _ _ hstep => hstep
  · have haccounted : Accounted message (tally id after.trace) := haccounts.2 id message hget
    have hbounded := haccounted.bounded
    have hclosed' : ¬message.Open := fun hopen => by
      have hretries := haccounted.retried hopen
      omega
    rcases haccounted.live hclosed with hpending | hsent | hfailed
    · exact absurd (.inl hpending) hclosed'
    · refine .inr ⟨hsent, ?_⟩
      cases hack : message.ackRequired with
      | false => rfl
      | true => exact absurd (.inr ⟨hsent, hack⟩) hclosed'
    · exact .inl hfailed

end

/-! ## An execution with one retry -/

def fiveAttemptsService : Service :=
  { newService with
    deliveryPolicies := some ⟨fiveAttempts, [], [(defaultDeliveryPolicyName, fiveAttempts)]⟩ }

/-- A step of operations of this service, one at a time, with a clock that does not go back. -/
def orderlyCheck (config : Courier) : Choice Started Surroundings → Bool
  | .start started =>
    config.threads.all (fun thread => thread.prog.result?.isSome) &&
      started.service = fiveAttemptsService
  | .act _ input => config.state.clock ≤ input.clock

theorem orderly_of_check {before after : Courier} {choice : Choice Started Surroundings}
    (h : orderlyCheck before choice = true) : CourierStep.Orderly ⟨before, choice, after⟩ := by
  refine ⟨?_, ?_, ?_⟩
  · rintro started rfl
    simp only [orderlyCheck, Bool.and_eq_true, List.all_eq_true] at h
    exact h.1
  · rintro i input rfl
    simpa [orderlyCheck] using h
  · rintro started rfl
    simp only [orderlyCheck, Bool.and_eq_true, decide_eq_true_eq] at h
    rw [Started.Accepted, h.2]
    exact ⟨_, rfl, five_attempts_accepted⟩

/-- A push of `m` that cannot be delivered, and a retry half a minute later that has selected
it. -/
def pushThenRetry : List (Choice Started Surroundings) :=
  List.flatten [
    [.start ⟨fiveAttemptsService, .push requestM⟩], Choice.turns 0 5 (offline 1),
    [.start ⟨fiveAttemptsService, .retryDue 10⟩], Choice.turns 1 3 (offline (31 * second))]

theorem pushThenRetry_selected :
    ∃ (history : List CourierStep) (after : Courier) (message : Message),
      Run (@courier Sha256.polynomial) CourierStep.Orderly (Courier.initial 1) history after ∧
      (@courier Sha256.polynomial).replayIf orderlyCheck (Courier.initial 1) pushThenRetry =
        some after ∧
      after.state.store.messages.get? (ascii "m") = some message ∧
      after.next? 1 = some (⟨fiveAttemptsService, .retryDue 10⟩, some (.retryMessage message)) := by
  have hreplay : (((@courier Sha256.polynomial).replayIf orderlyCheck (Courier.initial 1)
      pushThenRetry).map fun config : Courier =>
        decide ((config.state.store.messages.get? (ascii "m")).isSome ∧
          config.next? 1 = (config.state.store.messages.get? (ascii "m")).map fun message =>
            (⟨fiveAttemptsService, .retryDue 10⟩, some (.retryMessage message)))) = some true := by
    decide +kernel
  obtain ⟨after, hafter, hchecked⟩ := Option.map_eq_some_iff.mp hreplay
  obtain ⟨hsome, hnext⟩ := of_decide_eq_true hchecked
  obtain ⟨message, hget⟩ := Option.isSome_iff_exists.mp hsome
  obtain ⟨history, hrun⟩ := System.replayIf_run orderly_of_check hafter
  exact ⟨history, after, message, hrun, hafter, hget, by rw [hnext, hget]; rfl⟩

/-- The call that is about to begin gives `m` up or records an attempt, unless it fails. -/
theorem no_message_stuck_selected :
    ∃ (history : List CourierStep) (after : Courier) (message : Message),
      Run (@courier Sha256.polynomial) CourierStep.Orderly (Courier.initial 1) history after ∧
      after.Retriable message ∧
      (fiveAttemptsService.retryMessage message).Meets
        ((@courier Sha256.polynomial).alone forward fun _ _ => True)
        (fun result s => result.isOk = true → ∃ message',
          s.1.store.messages.get? message.messageID = some message' ∧
            (message'.status = .failed ∨ message.attempts < message'.attempts))
        (after.state, after.trace) := by
  obtain ⟨history, after, message, hrun, -, -, hnext⟩ := pushThenRetry_selected
  obtain ⟨log, next, hthread⟩ := Courier.thread_of_next? hnext
  have hretriable : after.Retriable message := .inr ⟨1, _, log, next, hthread⟩
  have hstuck := @no_message_stuck Sha256.polynomial _ _ _ (by decide) hrun
  exact ⟨history, after, message, hrun, hretriable,
    (hstuck.2.1 hretriable fiveAttemptsService).2⟩

/-- The rest of the retry, with a context that is cancelled before the report. -/
def cancelledRetry : List (Choice Started Surroundings) :=
  Choice.turns 1 4 (offline (31 * second)) ++
    [.act 1 { offline (31 * second) with ctxErr := some .canceled }]

/-- A call of `retryMessage` on a due message whose report the store refuses because the context
has been cancelled: the message is as before. -/
theorem refused_report_changes_nothing :
    ∃ (history later : List CourierStep) (before after : Courier) (message : Message),
      Run (@courier Sha256.polynomial) CourierStep.Orderly (Courier.initial 1) history before ∧
      before.Retriable message ∧
      Run (@courier Sha256.polynomial) CourierStep.Orderly before later after ∧
      after.outcome? 1 = some (⟨fiveAttemptsService, .retryDue 10⟩, some (.retried
        (⟨1, 0, 0, 0, some .fifo, 1, 1⟩, some (.store (.context .canceled))))) ∧
      after.state.store.messages.get? message.messageID = some message ∧
      message.status = .pending := by
  obtain ⟨history, before, message, hrun, hbefore, hget, hnext⟩ := pushThenRetry_selected
  have hreplay : (((@courier Sha256.polynomial).replayIf orderlyCheck (Courier.initial 1)
      pushThenRetry).bind fun before : Courier =>
        ((@courier Sha256.polynomial).replayIf orderlyCheck before cancelledRetry).map
          fun after : Courier => decide (
            after.state.store.messages.get? (ascii "m") =
              before.state.store.messages.get? (ascii "m") ∧ statusOfM before = some .pending ∧
            after.outcome? 1 = some (⟨fiveAttemptsService, .retryDue 10⟩, some (.retried
              (⟨1, 0, 0, 0, some .fifo, 1, 1⟩, some (.store (.context .canceled))))))) =
      some true := by
    decide +kernel
  rw [hbefore, Option.bind_some] at hreplay
  obtain ⟨after, hafter, hchecked⟩ := Option.map_eq_some_iff.mp hreplay
  obtain ⟨hsame, hstatus, houtcome⟩ := of_decide_eq_true hchecked
  obtain ⟨later, hlater⟩ := System.replayIf_run orderly_of_check hafter
  obtain ⟨log, next, hthread⟩ := Courier.thread_of_next? hnext
  have hkey : message.messageID = ascii "m" := Table.key_of_get? hget
  refine ⟨history, later, before, after, message, hrun, .inr ⟨1, _, log, next, hthread⟩, hlater,
    houtcome, by rw [hkey, hsame, hget], ?_⟩
  simpa [statusOfM, hget] using hstatus

/-- The retry reaches the point where it attempts a delivery. -/
theorem delivery_policy_obeyed_retrying :
    ∃ (history : List CourierStep) (after : Courier) (message : Message),
      Run (@courier Sha256.polynomial) CourierStep.Orderly (Courier.initial 1) history after ∧
      (∃ req, after.next? 1 =
        some (⟨fiveAttemptsService, .retryDue 10⟩, some (.deliverOnline req)) ∧
        after.state.store.messages.get? req.messageID = some message) ∧
      (message.attempts : Int) < message.policy.maxAttempts := by
  have hreplay : (((@courier Sha256.polynomial).replayIf orderlyCheck (Courier.initial 1)
      (pushThenRetry ++ Choice.turns 1 2 (offline (31 * second)))).bind
        fun config : Courier => config.next? 1) =
      some (⟨fiveAttemptsService, .retryDue 10⟩, some (.deliverOnline requestM)) := by
    decide +kernel
  obtain ⟨after, hafter, hnext⟩ := Option.bind_eq_some_iff.mp hreplay
  obtain ⟨history, hrun⟩ := System.replayIf_run orderly_of_check hafter
  obtain ⟨log, next, hthread⟩ := Courier.thread_of_next? hnext
  have hobeyed := @delivery_policy_obeyed Sha256.polynomial _ _ _ _ _ (by decide) hrun (.refl after)
  obtain ⟨message, hget, hlt, -⟩ := hobeyed.2.2 hthread rfl
  exact ⟨history, after, message, hrun, ⟨requestM, hnext, hget⟩, hlt⟩

end ZCourier.Downlink
