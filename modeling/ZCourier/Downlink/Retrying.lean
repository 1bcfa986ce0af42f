import ZCourier.Downlink.Attempts

/-!
# Retries, one operation at a time

What deliveries and retries do when operations run one at a time and the clock does not go back.
`Accounts` then holds throughout, and every call of `retryMessage` on a message that is due
records an attempt or gives the message up. `Holding` is the state of affairs inside such a call
and in the last part of a push: the store has not changed since the message was read.
-/

namespace ZCourier.Downlink

open Go Library

/-! ## Recording an outcome -/

/-- A trace that goes on with a report about one message. -/
def Reported (id : GoString) (ok : Bool) (trace trace' : Trace) : Prop :=
  ∀ other, tally other trace' =
    if id = other then (tally other trace).marked ok else tally other trace

namespace Accounted

variable {message message' : Message} {t : Tally}

theorem report_failed (h : Accounted message t) : Accounted message (t.marked false) :=
  ⟨h.policy, h.created, h.recorded, h.bounded, h.awaiting, h.retried, h.live⟩

/-- An attempt that leaves the message open counts once on both sides. -/
theorem attempt (h : Accounted message t) (hopen : message.Open) (hattempted : t.attempted = true)
    (hlt : (message.attempts : Int) < message.policy.maxAttempts)
    (horigin : message'.policy = message.policy ∧ message'.createdAt = message.createdAt)
    (hattempts : message'.attempts = message.attempts + 1)
    (hstatus : message'.status = .pending ∨ message'.status = .sent)
    (hawaiting : message'.status = .sent → message'.ackRequired = true →
      message'.nextRetryAt ≠ 0) : Accounted message' (t.marked true) where
  policy := horigin.1 ▸ h.policy
  created := horigin.2 ▸ h.created
  recorded := by simp [Tally.marked, hattempted, hattempts, h.recorded]
  bounded := by
    rw [horigin.1, hattempts]
    omega
  awaiting := hawaiting
  retried _ := by
    have hretried := h.retried hopen
    simp only [Tally.marked, hattempts]
    split <;> omega
  live _ := by
    rcases hstatus with h | h
    · exact .inl h
    · exact .inr (.inl h)

theorem give_up (h : Accounted message t) {attempted : Bool} (hattempted : t.attempted = attempted)
    (hlt : attempted = true → (message.attempts : Int) < message.policy.maxAttempts)
    (horigin : message'.policy = message.policy ∧ message'.createdAt = message.createdAt)
    (hattempts : message'.attempts =
      if attempted then message.attempts + 1 else message.attempts)
    (hstatus : message'.status = .failed) : Accounted message' (t.marked true) := by
  have hrecorded := h.recorded
  have hbounded := h.bounded
  refine h.ended horigin ?_ ?_ (by simp [hstatus]) fun _ => hstatus
  · cases attempted <;> simp_all [Tally.marked]
  · cases attempted with
    | false => simpa [hattempts] using hbounded
    | true =>
      have hlt := hlt rfl
      simp only [hattempts, if_true]
      omega

end Accounted

namespace MemoryStore

variable {s s' : MemoryStore} {trace trace' : Trace} {id : GoString} {message message' : Message}

theorem Agrees.report_failed (h : s.Agrees trace) (hreport : Reported id false trace trace') :
    s.Agrees trace' := by
  intro other stored hget
  rw [hreport other]
  split
  · exact (h other stored hget).report_failed
  · exact h other stored hget

/-- A report that replaces the message keeps the agreement. -/
theorem Agrees.report (h : s.Agrees trace) (hreport : Reported message.messageID true trace trace')
    (hmessages : s'.messages = s.messages.put message')
    (hid : message'.messageID = message.messageID)
    (hmessage : Accounted message' ((tally message.messageID trace).marked true)) :
    s'.Agrees trace' := by
  refine h.put hmessages ?_ fun other hother => ?_
  · rw [hid, hreport, if_pos rfl]
    exact hmessage
  · rw [hreport, if_neg fun heq => hother (heq.symm.trans hid.symm)]

variable {env : StoreEnv}

theorem modifyMessage_of_stored {edit : Message → Except StoreError MemoryStore}
    (hget : s.messages.get? id = some message) (hedit : edit message = .ok s') :
    (∃ err, s.modifyMessage env id edit = (.error err, s)) ∨
      s.modifyMessage env id edit = (.ok (), s') := by
  cases hctx : env.ctxErr with
  | some err => exact .inl ⟨.context err, by simp [modifyMessage, hctx]⟩
  | none => exact .inr (by simp [modifyMessage, hctx, hget, hedit])

theorem markSent_of_open (env : StoreEnv) (sessionID : GoString) (sentAt nextRetryAt : Int)
    (hget : s.messages.get? id = some message) (hopen : message.Open) :
    (∃ err, s.markSent env id sessionID sentAt nextRetryAt = (.error err, s)) ∨
      s.markSent env id sessionID sentAt nextRetryAt = (.ok (), s.putMessage
        (message.sent sessionID (env.orClock sentAt) nextRetryAt env.clock)) :=
  modifyMessage_of_stored hget (by rcases hopen with h | ⟨h, -⟩ <;> simp [h])

theorem markAttemptFailed_of_open (env : StoreEnv) (reason : GoString) (nextRetryAt : Int)
    (hget : s.messages.get? id = some message) (hopen : message.Open) :
    (∃ err, s.markAttemptFailed env id reason nextRetryAt = (.error err, s)) ∨
      s.markAttemptFailed env id reason nextRetryAt =
        (.ok (), s.putMessage (message.attemptFailed reason nextRetryAt env.clock)) :=
  modifyMessage_of_stored hget (by rcases hopen with h | ⟨h, -⟩ <;> simp [h])

theorem markFailed_of_open (env : StoreEnv) (transition : TerminalTransition)
    (hget : s.messages.get? id = some message) (hopen : message.Open) :
    (∃ err, s.markFailed env id transition = (.error err, s)) ∨
      s.markFailed env id transition = (.ok (), s.enterTerminal message .failed
        (if transition.attempted then message.attempts + 1 else message.attempts)
        transition.reason (stamped transition env)) :=
  modifyMessage_of_stored hget (by rcases hopen with h | ⟨h, -⟩ <;> (simp only [h]; rfl))

end MemoryStore

/-! ## Inside a call -/

/-- A message that is pending, or sent and past its acknowledgement deadline. -/
def Message.Ready (message : Message) (clock : Int) : Prop :=
  message.status = .pending ∨
    message.status = .sent ∧ message.ackRequired = true ∧ message.nextRetryAt ≤ clock

theorem Message.Ready.open {message : Message} {clock : Int} (h : message.Ready clock) :
    message.Open := by
  rcases h with h | ⟨hsent, hack, -⟩
  · exact .inl h
  · exact .inr ⟨hsent, hack⟩

theorem Message.Ready.later {message : Message} {clock clock' : Int} (h : message.Ready clock)
    (hle : clock ≤ clock') : message.Ready clock' := by
  rcases h with h | ⟨hsent, hack, hdeadline⟩
  · exact .inl h
  · exact .inr ⟨hsent, hack, hdeadline.trans hle⟩

/-- What a message's policy demands before it is delivered again. -/
structure Message.Deliverable (message : Message) (clock : Int) : Prop where
  attempts_lt : (message.attempts : Int) < message.policy.maxAttempts
  young : 0 < message.policy.maxAge → clock - message.createdAt < message.policy.maxAge
  overdue : message.status = .sent → message.ackRequired = true ∧ message.nextRetryAt ≤ clock

/-- The operations that call `retryMessage`. -/
def Operation.retries : Operation → Bool
  | .retryDue _ | .flushClientDevice .. => true
  | _ => false

/-- The state in which an operation may perform an effect: the accounts are right, a call of
`retryMessage` is on a stored message that is ready, and a retry delivers only what the policy
allows. -/
def Started.Obeys (started : Started) (effect : Effect) (s : World × Trace) : Prop :=
  Accounts s ∧
    match effect with
    | .retryMessage message =>
      s.1.store.messages.get? message.messageID = some message ∧ message.Ready s.1.clock
    | .deliverOnline req => started.operation.retries → ∃ message,
        s.1.store.messages.get? req.messageID = some message ∧ message.Deliverable s.1.clock
    | _ => True

/-- Inside a call for a message that was read from the store: nothing has changed since. -/
structure Holding (store : MemoryStore) (clock : Int) (message : Message)
    (attempted retrying : Bool) (s : World × Trace) : Prop where
  accounts : Accounts s
  clock_le : clock ≤ s.1.clock
  unchanged : s.1.store = store
  stored : store.messages.get? message.messageID = some message
  attempted_eq : (tally message.messageID s.2).attempted = attempted
  retrying_eq : (tally message.messageID s.2).retrying = retrying

/-- After such a call: other messages are as they were, and a call that succeeded has given the
message up or recorded an attempt. -/
structure Concluded (store : MemoryStore) (clock : Int) (message : Message) (ok : Bool)
    (s : World × Trace) : Prop where
  accounts : Accounts s
  clock_le : clock ≤ s.1.clock
  others : ∀ other, other ≠ message.messageID →
    s.1.store.messages.get? other = store.messages.get? other
  progress : ok = true → ∃ message',
    s.1.store.messages.get? message.messageID = some message' ∧
      (message'.status = .failed ∨ message.attempts < message'.attempts)

section

variable {store : MemoryStore} {clock : Int} {message : Message} {attempted retrying : Bool}
  {s : World × Trace} {world : World} {trace : Trace}

/-- The stored message agrees with its tally. -/
theorem Holding.accounted (h : Holding store clock message attempted retrying s) :
    Accounted message (tally message.messageID s.2) :=
  h.accounts.2 _ _ (h.unchanged ▸ h.stored)

/-- Effects that are not calls of the store, deliveries or retries keep everything in place. -/
theorem Holding.effect {effect : Effect} {response : effect.Response} {clock' : Int}
    (h : Holding store clock message attempted retrying s) (hclock : s.1.clock ≤ clock')
    (hstore : ∀ call, effect ≠ .store call)
    (htally : ∀ id, tally id (s.2 ++ [⟨effect, response⟩]) = tally id s.2) :
    Holding store clock message attempted retrying
      (⟨s.1.store, clock'⟩, s.2 ++ [⟨effect, response⟩])
    where
  accounts := ⟨lt_of_lt_of_le h.accounts.1 hclock, h.accounts.2.effect hstore⟩
  clock_le := h.clock_le.trans hclock
  unchanged := h.unchanged
  stored := h.stored
  attempted_eq := by rw [htally, h.attempted_eq]
  retrying_eq := by rw [htally, h.retrying_eq]

theorem Holding.report_failed (h : Holding store clock message attempted retrying s)
    {clock' : Int} (hclock : s.1.clock ≤ clock')
    (hreport : Reported message.messageID false s.2 trace) :
    Concluded store clock message false (⟨s.1.store, clock'⟩, trace) where
  accounts := ⟨lt_of_lt_of_le h.accounts.1 hclock, h.accounts.2.report_failed hreport⟩
  clock_le := h.clock_le.trans hclock
  others _ _ := by rw [h.unchanged]
  progress hok := by cases hok

/-- A report that replaces the message concludes the call. -/
theorem Holding.report (h : Holding store clock message attempted retrying s) {clock' : Int}
    {store' : MemoryStore} {message' : Message} (hclock : s.1.clock ≤ clock')
    (hreport : Reported message.messageID true s.2 trace)
    (hmessages : store'.messages = s.1.store.messages.put message')
    (hid : message'.messageID = message.messageID)
    (hmessage : Accounted message' ((tally message.messageID s.2).marked true))
    (hprogress : message'.status = .failed ∨ message.attempts < message'.attempts) :
    Concluded store clock message true (⟨store', clock'⟩, trace) where
  accounts := ⟨lt_of_lt_of_le h.accounts.1 hclock,
    h.accounts.2.report hreport hmessages hid hmessage⟩
  clock_le := h.clock_le.trans hclock
  others other hother := by
    rw [hmessages, Table.get?_put_ne (by rwa [hid]), h.unchanged]
  progress _ := ⟨message', by rw [hmessages, ← hid, Table.get?_put_self], hprogress⟩

end

/-! ## The parts of a call -/

section

variable [Sha256] {α : Type} {svc : Service} {started : Started} {store : MemoryStore}
  {clock : Int} {message : Message} {attempted retrying : Bool} {s : World × Trace}
  {post : α → World × Trace → Prop}

theorem Holding.now_meets {rest : Int → Code α}
    (h : Holding store clock message attempted retrying s)
    (hrest : ∀ now s', s.1.clock ≤ now → s'.1.clock = now →
      Holding store clock message attempted retrying s' →
      (rest now).Meets (courier.alone forward started.Obeys) post s') :
    (Code.now >>= rest).Meets (courier.alone forward started.Obeys) post s :=
  meets_perform_alone ⟨h.accounts, trivial⟩ fun input hforward =>
    hrest _ _ hforward rfl (h.effect hforward (by simp) fun id => tally_concat ..)

theorem Holding.nextRetryAt_meets {now : Int} {policy : DeliveryPolicy} {attempts : Nat}
    {rest : Int → Code α} (h : Holding store clock message attempted retrying s)
    (hrest : ∀ next s', Holding store clock message attempted retrying s' →
      (rest next).Meets (courier.alone forward started.Obeys) post s') :
    (Service.nextRetryAt now policy attempts >>= rest).Meets
      (courier.alone forward started.Obeys) post s := by
  unfold Service.nextRetryAt Service.nextRetryJitter
  split
  · exact hrest _ s h
  · exact meets_perform_alone ⟨h.accounts, trivial⟩ fun input hforward =>
      hrest _ _ (h.effect hforward (by simp) fun id => tally_concat ..)

theorem Holding.deliverOnline_meets {req : PushRequest}
    {rest : Except DeliveryError PushResponse → Code α}
    (h : Holding store clock message attempted retrying s)
    (hreq : req.messageID = message.messageID)
    (hdeliver : started.operation.retries → message.Deliverable s.1.clock)
    (hrest : ∀ delivery s', Holding store clock message true retrying s' →
      (rest delivery).Meets (courier.alone forward started.Obeys) post s') :
    (Code.deliverOnline req >>= rest).Meets (courier.alone forward started.Obeys) post s := by
  refine meets_perform_alone ⟨h.accounts, fun hretries => ?_⟩ fun input hforward => hrest _ _ ?_
  · exact ⟨message, by rw [hreq, h.unchanged, h.stored], hdeliver hretries⟩
  · exact
      { accounts := ⟨lt_of_lt_of_le h.accounts.1 hforward, h.accounts.2.effect (by simp)⟩
        clock_le := h.clock_le.trans hforward
        unchanged := h.unchanged
        stored := h.stored
        attempted_eq := by simp [Tally.next, hreq]
        retrying_eq := by simp [Tally.next, hreq, h.retrying_eq] }

variable {rest : Except StoreError Unit → Code α}

theorem Holding.markFailed_meets {reason : GoString} {time : Int}
    (h : Holding store clock message attempted retrying s) (hopen : message.Open)
    (hlt : attempted = true → (message.attempts : Int) < message.policy.maxAttempts)
    (hrest : ∀ result s', Concluded store clock message result.isOk s' →
      (rest result).Meets (courier.alone forward started.Obeys) post s') :
    (Code.store (.markFailed message.messageID (svc.terminalTransition reason time attempted)) >>=
      rest).Meets (courier.alone forward started.Obeys) post s := by
  refine meets_perform_alone ⟨h.accounts, trivial⟩ fun input hforward => hrest _ _ ?_
  rcases MemoryStore.markFailed_of_open input.env (svc.terminalTransition reason time attempted)
    (h.unchanged ▸ h.stored : s.1.store.messages.get? _ = _) hopen with ⟨err, hmark⟩ | hmark
  · simp only [perform, MemoryStore.call, hmark]
    exact h.report_failed hforward fun other => by rw [tally_concat]; rfl
  · simp only [perform, MemoryStore.call, hmark]
    refine h.report hforward (fun other => by rw [tally_concat]; rfl)
      MemoryStore.enterTerminal_messages MemoryStore.terminalMessage_messageID ?_
      (.inl MemoryStore.terminalMessage_status)
    refine h.accounted.give_up h.attempted_eq hlt ⟨?_, ?_⟩ MemoryStore.terminalMessage_attempts
      MemoryStore.terminalMessage_status
    · exact Message.Origin.policy_eq MemoryStore.terminalMessage_origin
    · exact congrArg Message.Origin.createdAt MemoryStore.terminalMessage_origin

theorem Holding.markAttemptFailed_meets {reason : GoString} {next : Int}
    (h : Holding store clock message true retrying s) (hopen : message.Open)
    (hlt : (message.attempts : Int) < message.policy.maxAttempts)
    (hrest : ∀ result s', Concluded store clock message result.isOk s' →
      (rest result).Meets (courier.alone forward started.Obeys) post s') :
    (Code.store (.markAttemptFailed message.messageID reason next) >>= rest).Meets
      (courier.alone forward started.Obeys) post s := by
  refine meets_perform_alone ⟨h.accounts, trivial⟩ fun input hforward => hrest _ _ ?_
  rcases MemoryStore.markAttemptFailed_of_open input.env reason next
    (h.unchanged ▸ h.stored : s.1.store.messages.get? _ = _) hopen with ⟨err, hmark⟩ | hmark
  · simp only [perform, MemoryStore.call, hmark]
    exact h.report_failed hforward fun other => by rw [tally_concat]; rfl
  · simp only [perform, MemoryStore.call, hmark]
    refine h.report hforward (fun other => by rw [tally_concat]; rfl) rfl rfl ?_
      (.inr (Nat.lt_succ_self _))
    exact h.accounted.attempt hopen h.attempted_eq hlt ⟨rfl, rfl⟩ rfl (.inl rfl) (by simp)

theorem Holding.markSent_meets {sessionID : GoString} {sentAt : Int}
    (h : Holding store clock message true retrying s) (hopen : message.Open)
    (hlt : (message.attempts : Int) < message.policy.maxAttempts) (hsentAt : sentAt = s.1.clock)
    (hrest : ∀ result s', Concluded store clock message result.isOk s' →
      (rest result).Meets (courier.alone forward started.Obeys) post s') :
    (Code.store (.markSent message.messageID sessionID sentAt
      (Service.ackDeadline message message.policy sentAt)) >>= rest).Meets
      (courier.alone forward started.Obeys) post s := by
  refine meets_perform_alone ⟨h.accounts, trivial⟩ fun input hforward => hrest _ _ ?_
  rcases MemoryStore.markSent_of_open input.env sessionID sentAt
    (Service.ackDeadline message message.policy sentAt)
    (h.unchanged ▸ h.stored : s.1.store.messages.get? _ = _) hopen with ⟨err, hmark⟩ | hmark
  · simp only [perform, MemoryStore.call, hmark]
    exact h.report_failed hforward fun other => by rw [tally_concat]; rfl
  · simp only [perform, MemoryStore.call, hmark]
    refine h.report hforward (fun other => by rw [tally_concat]; rfl) rfl rfl ?_
      (.inr (Nat.lt_succ_self _))
    refine h.accounted.attempt hopen h.attempted_eq hlt ⟨rfl, rfl⟩ rfl (.inr rfl) fun _ hack => ?_
    -- the deadline of a message that waits for its acknowledgement is a positive instant
    have htimeout := (validate_delivery_policy_sound h.accounted.policy).ackTimeout_pos
    have hclock := h.accounts.1
    have hack : message.ackRequired = true := hack
    have hdeadline : Service.ackDeadline message message.policy sentAt =
        sentAt + message.policy.ackTimeout := by
      simp only [Service.ackDeadline, hack]
      rw [if_neg]
      simp
      omega
    change Service.ackDeadline message message.policy sentAt ≠ 0
    omega

end

/-! ## Retries -/

section

variable [Sha256] {svc : Service} {started : Started} {store : MemoryStore} {clock : Int}
  {message : Message} {attempted retrying : Bool} {s : World × Trace}

theorem giveUp_meets {reason : GoString} {time : Int}
    (h : Holding store clock message attempted retrying s) (hopen : message.Open)
    (hlt : attempted = true → (message.attempts : Int) < message.policy.maxAttempts) :
    (svc.giveUp message reason time attempted).Meets (courier.alone forward started.Obeys)
      (fun result => Concluded store clock message result.isOk) s := by
  refine h.markFailed_meets hopen hlt fun result s' hdone => ?_
  cases result <;> exact hdone

theorem redeliver_meets (h : Holding store clock message attempted retrying s)
    (hopen : message.Open) (hdeliver : message.Deliverable s.1.clock) :
    (svc.redeliver message message.policy).Meets (courier.alone forward started.Obeys)
      (fun result => Concluded store clock message result.isOk) s := by
  have hlt := hdeliver.attempts_lt
  refine h.deliverOnline_meets rfl (fun _ => hdeliver) fun delivery s' h => ?_
  cases delivery with
  | error err =>
    refine h.now_meets fun failedAt s' _ _ h => ?_
    split
    · exact giveUp_meets h hopen fun _ => hlt
    · split
      · exact giveUp_meets h hopen fun _ => hlt
      · refine h.nextRetryAt_meets fun next s' h => ?_
        refine h.markAttemptFailed_meets hopen hlt fun result s' hdone => ?_
        cases result <;> exact hdone
  | ok sentResp =>
    refine h.now_meets fun sentAt s' _ hclock h => ?_
    refine h.markSent_meets hopen hlt hclock.symm fun result s' hdone => ?_
    cases result <;> exact hdone

omit [Sha256] in
theorem policyForMessage_of_valid (hvalid : validateDeliveryPolicy message.policy = none) :
    svc.policyForMessage message = message.policy := by
  have hname := (validate_delivery_policy_sound hvalid).name_ne
  simp [Service.policyForMessage, hvalid, hname]

omit [Sha256] in
theorem ackTimedOut_of_ready {t : Tally} {now : Int} (h : Accounted message t)
    (hready : message.Ready now) (hsent : message.status = .sent) :
    Service.ackTimedOut message message.policy now = true := by
  rcases hready with hpending | ⟨-, hack, hdeadline⟩
  · simp [hsent] at hpending
  · simp [Service.ackTimedOut, hsent, hack, h.awaiting hsent hack, hdeadline]

/-- A call of `retryMessage` on a stored message that is ready records an attempt or gives the
message up, unless the store refuses the report. -/
theorem retryMessage_meets (h : Accounts s)
    (hstored : s.1.store.messages.get? message.messageID = some message)
    (hready : message.Ready s.1.clock) :
    (svc.retryMessage message).Meets (courier.alone forward started.Obeys)
      (fun result => Concluded s.1.store s.1.clock message result.isOk) s := by
  have haccounted := h.2 _ _ hstored
  refine meets_perform_alone ⟨h, hstored, hready⟩ fun input hforward => ?_
  have hbegun : Holding s.1.store s.1.clock message false true
      ((perform (.retryMessage message) input s.1).2, s.2 ++ [⟨.retryMessage message, ()⟩]) :=
    { accounts := ⟨lt_of_lt_of_le h.1 hforward, h.2.effect (by simp)⟩
      clock_le := hforward
      unchanged := rfl
      stored := hstored
      attempted_eq := by simp [Tally.next]
      retrying_eq := by simp [Tally.next] }
  rw [policyForMessage_of_valid haccounted.policy]
  refine hbegun.now_meets fun now s' hnow hclock h => ?_
  have hready : message.Ready now := hready.later (hforward.trans hnow)
  have hopen := hready.open
  split
  · exact giveUp_meets h hopen (by simp)
  · next hage =>
    split
    · exact giveUp_meets h hopen (by simp)
    · next hattempts =>
      split
      · next hwaiting =>
        simp only [Bool.and_eq_true, decide_eq_true_eq, Bool.not_eq_true'] at hwaiting
        simp [ackTimedOut_of_ready haccounted hready hwaiting.1] at hwaiting
      · refine redeliver_meets h hopen ⟨by omega, fun hmaxAge => ?_, fun hsent => ?_⟩
        · rw [hclock]
          simp only [Service.policyMaxAgeExceeded, haccounted.created, isZero_iff, Bool.or_eq_true,
            decide_eq_true_eq, or_false] at hage
          rw [if_neg (by omega)] at hage
          simp only [decide_eq_true_eq] at hage
          omega
        · rcases hready with hpending | ⟨-, hack, hdeadline⟩
          · simp [hsent] at hpending
          · exact ⟨hack, hclock ▸ hdeadline⟩

end

/-! ## Selections -/

/-- Messages that can be retried one after the other. -/
def Selected (messages : List Message) (s : World × Trace) : Prop :=
  (messages.map Message.messageID).Nodup ∧ ∀ message ∈ messages,
    s.1.store.messages.get? message.messageID = some message ∧ message.Ready s.1.clock

section

variable [Sha256] {svc : Service} {started : Started} {s : World × Trace}

omit [Sha256] in
theorem ready_of_due {message : Message} {t : Tally} {now ackTimeout : Int}
    (h : Accounted message t) (hdue : messageDueForRetry message now ackTimeout = true) :
    message.Ready now := by
  unfold messageDueForRetry at hdue
  split at hdue
  · cases hdue
  · split at hdue
    · next hpending => exact .inl hpending
    · next hsent =>
      split at hdue
      · cases hdue
      · next hack =>
        have hack : message.ackRequired = true := by simpa using hack
        have hdeadline := h.awaiting hsent hack
        simp only [isZero_eq_false.mpr hdeadline, Bool.not_false, if_true,
          decide_eq_true_eq] at hdue
        exact .inr ⟨hsent, hack, hdue⟩
    · cases hdue

/-- A plain call of the store keeps the accounts. -/
theorem Accounts.plain {call : StoreCall} {input : Surroundings} (h : Accounts s)
    (hforward : s.1.clock ≤ input.clock) (hplain : call.Plain) :
    Accounts (⟨(s.1.store.call input.env call).2, input.clock⟩,
      s.2 ++ [⟨.store call, (s.1.store.call input.env call).1⟩]) :=
  ⟨lt_of_lt_of_le h.1 hforward, h.2.plain (MemoryStore.call_step call) hplain⟩

omit [Sha256] in
theorem selected_of_due {store : MemoryStore} {trace : Trace} {messages : List Message}
    {now ackTimeout : Int} {s' : World × Trace} (h : store.Agrees trace)
    (hdue : store.Due now ackTimeout messages) (hstore : s'.1.store = store)
    (hclock : now ≤ s'.1.clock) : Selected messages s' := by
  refine ⟨MemoryStore.ids_nodup hdue.1 fun message hm => (hdue.2 message hm).1, ?_⟩
  intro message hm
  have hget := Table.get?_of_mem (hdue.2 message hm).1
  exact ⟨hstore ▸ hget, (ready_of_due (h _ _ hget) (hdue.2 message hm).2).later hclock⟩

theorem listRetryMessages_meets {now limit : Int} (h : Accounts s) (hzero : now ≠ 0)
    (hnow : now ≤ s.1.clock) :
    (svc.listRetryMessages now limit).Meets (courier.alone forward started.Obeys)
      (fun result s => Accounts s ∧
        ∀ selection, result = .ok selection → Selected selection.messages s) s := by
  have horClock : ∀ input : Surroundings, input.env.orClock now = now := fun input => by
    simp [StoreEnv.orClock, hzero]
  unfold Service.listRetryMessages
  split
  · split
    · next howner =>
      refine meets_perform_alone ⟨h, trivial⟩ fun input hforward =>
        ⟨h.plain hforward (by trivial), fun selection hselection => ?_⟩
      obtain ⟨chosen, expiry, -, hdue, hmessages, hget⟩ :=
        MemoryStore.claimDueRetryFair_ok howner (Prod.ext hselection rfl)
      rw [horClock] at hdue hmessages hget
      have hchosen : Selected chosen (⟨s.1.store, input.clock⟩, s.2) :=
        selected_of_due h.2 hdue rfl (hnow.trans hforward)
      rw [hmessages]
      refine ⟨by simpa [Function.comp_def, Message.claimed] using hchosen.1, fun message hm => ?_⟩
      obtain ⟨before, hbefore, rfl⟩ := List.mem_map.mp hm
      obtain ⟨hstored, hready⟩ := hchosen.2 before hbefore
      refine ⟨?_, hready⟩
      have hstored : s.1.store.messages.get? before.messageID = some before := hstored
      have hid : before.messageID ∈ chosen.map Message.messageID :=
        List.mem_map_of_mem hbefore
      exact (hget before.messageID).trans (by rw [if_pos hid, hstored]; rfl)
    · refine meets_perform_alone ⟨h, trivial⟩ fun input hforward =>
        ⟨h.plain hforward (by trivial), fun selection hselection => ?_⟩
      obtain ⟨hsame, hdue⟩ := MemoryStore.listDueRetryFair_ok (Prod.ext hselection rfl)
      rw [horClock] at hdue
      exact selected_of_due h.2 hdue hsame (hnow.trans hforward)
  · refine meets_perform_alone ⟨h, trivial⟩ fun input hforward => ?_
    have hplain := @Accounts.plain _ _ (.listDueRetry now svc.ackTimeout limit) _ h hforward trivial
    rcases hlisted : s.1.store.listDueRetry input.env now svc.ackTimeout limit with
      ⟨_ | messages, store⟩
    · simp only [perform, MemoryStore.call, hlisted] at hplain ⊢
      exact ⟨hplain, fun selection hselection => by cases hselection⟩
    · obtain ⟨rfl, hdue⟩ := MemoryStore.listDueRetry_ok hlisted
      rw [horClock] at hdue
      simp only [perform, MemoryStore.call, hlisted] at hplain ⊢
      refine ⟨hplain, fun selection hselection => ?_⟩
      obtain rfl := Except.ok.inj hselection
      exact selected_of_due h.2 hdue rfl (hnow.trans hforward)

theorem retryMessages_meets {result : RetryResult} {messages : List Message} (h : Accounts s)
    (hselected : Selected messages s) :
    (svc.retryMessages result messages).Meets (courier.alone forward started.Obeys)
      (fun _ => Accounts) s := by
  induction messages generalizing s result with
  | nil => exact h
  | cons message rest ih =>
    refine meets_perform_alone ⟨h, trivial⟩ fun input hforward => ?_
    have haccounts : Accounts (⟨s.1.store, input.clock⟩, s.2 ++ [⟨.ctxErr, input.ctxErr⟩]) :=
      ⟨lt_of_lt_of_le h.1 hforward, h.2.effect (by simp)⟩
    cases hctx : input.ctxErr with
    | some err =>
      simp only [perform, hctx] at haccounts ⊢
      exact haccounts
    | none =>
      simp only [perform, hctx] at haccounts ⊢
      obtain ⟨hnodup, hmem⟩ := hselected
      obtain ⟨hstored, hready⟩ := hmem message List.mem_cons_self
      refine (retryMessage_meets haccounts hstored (hready.later hforward)).bind
        fun status s' hdone => ?_
      cases status with
      | error err => exact hdone.accounts
      | ok status =>
        -- the messages still to come have other ids, so they are as they were
        obtain ⟨hfresh, hnodup⟩ := List.nodup_cons.mp hnodup
        refine ih hdone.accounts ⟨hnodup, fun later hlater => ?_⟩
        obtain ⟨hstored, hready⟩ := hmem later (List.mem_cons_of_mem _ hlater)
        have hne : later.messageID ≠ message.messageID := fun heq =>
          hfresh (heq ▸ List.mem_map_of_mem hlater)
        exact ⟨(hdone.others _ hne).trans hstored,
          hready.later (hforward.trans hdone.clock_le)⟩

theorem retryDue_meets {limit : Int} (h : Accounts s) :
    (svc.retryDue limit).Meets (courier.alone forward started.Obeys) (fun _ => Accounts) s := by
  refine meets_perform_alone ⟨h, trivial⟩ fun input hforward => ?_
  have hclock : 0 < input.clock := lt_of_lt_of_le h.1 hforward
  refine (listRetryMessages_meets ⟨hclock, h.2.effect (by simp)⟩ hclock.ne' le_rfl).bind
    fun listed s' hlisted => ?_
  cases listed with
  | error err => exact hlisted.1
  | ok selection =>
    exact (retryMessages_meets hlisted.1 (hlisted.2 selection rfl)).bind fun _ _ h => h

theorem flushClientDevice_meets {clientID deviceID : GoString} {limit : Int} (h : Accounts s) :
    (svc.flushClientDevice clientID deviceID limit).Meets (courier.alone forward started.Obeys)
      (fun _ => Accounts) s := by
  unfold Service.flushClientDevice
  split
  · exact h
  · split
    · exact h
    · refine meets_perform_alone ⟨h, trivial⟩ fun input hforward => ?_
      have hplain := @Accounts.plain _ _ (.listPendingByClientDevice clientID deviceID limit) _ h
        hforward trivial
      rcases hlisted : s.1.store.listPendingByClientDevice input.env clientID deviceID limit with
        ⟨_ | messages, store⟩
      · simp only [perform, MemoryStore.call, hlisted] at hplain ⊢
        exact hplain
      · obtain ⟨rfl, hnodup, hpending⟩ := MemoryStore.listPendingByClientDevice_ok hlisted
        simp only [perform, MemoryStore.call, hlisted] at hplain ⊢
        refine retryMessages_meets hplain
          ⟨MemoryStore.ids_nodup hnodup fun message hm => (hpending message hm).1,
            fun message hm => ⟨Table.get?_of_mem (hpending message hm).1,
              .inl (hpending message hm).2⟩⟩

/-! ## Pushes -/

theorem deliverCreated_meets {message : Message} (h : Accounts s)
    (hop : started.operation.retries = false)
    (hstored : s.1.store.messages.get? message.messageID = some message)
    (hpending : message.status = .pending) (hattempts : message.attempts = 0) :
    (Service.deliverCreated message).Meets (courier.alone forward started.Obeys)
      (fun _ => Accounts) s := by
  have hopen : message.Open := .inl hpending
  have haccounted := h.2 _ _ hstored
  have hlt : (message.attempts : Int) < message.policy.maxAttempts := by
    have hmax := (validate_delivery_policy_sound haccounted.policy).maxAttempts_pos
    simp only [hattempts]
    omega
  have hholding : Holding s.1.store s.1.clock message _ _ s :=
    ⟨h, le_rfl, rfl, hstored, rfl, rfl⟩
  refine hholding.deliverOnline_meets rfl (by simp [hop]) fun delivery s' h => ?_
  cases delivery with
  | error err =>
    refine h.now_meets fun failedAt s' _ _ h => h.nextRetryAt_meets fun next s' h => ?_
    refine h.markAttemptFailed_meets hopen hlt fun result s' hdone => ?_
    cases result <;> exact hdone.accounts
  | ok sentResp =>
    refine h.now_meets fun sentAt s' _ hclock h => ?_
    refine h.markSent_meets hopen hlt hclock.symm fun result s' hdone => ?_
    cases result <;> exact hdone.accounts

theorem save_meets {α : Type} {req : PushRequest} {messageID : GoString} {now : Int}
    {capacity : QueueCapacity} {rest : Except StoreError SaveResult → Code α}
    {post : α → World × Trace → Prop} (h : Accounts s) (haccepted : started.Accepted)
    (hcreated : ∀ message s', Accounts s' →
      s'.1.store.messages.get? message.messageID = some message → message.status = .pending →
      message.attempts = 0 →
      (rest (.ok ⟨message, .created⟩)).Meets (courier.alone forward started.Obeys) post s')
    (hother : ∀ saved s', Accounts s' → (∀ message, saved ≠ .ok ⟨message, .created⟩) →
      (rest saved).Meets (courier.alone forward started.Obeys) post s') :
    (Code.store (.saveWithCapacity (started.service.submittedMessage req messageID now) capacity)
      >>= rest).Meets (courier.alone forward started.Obeys) post s := by
  refine meets_perform_alone ⟨h, trivial⟩ fun input hforward => ?_
  have hclock : 0 < input.clock := lt_of_lt_of_le h.1 hforward
  have hsaved := MemoryStore.saveWithCapacity_saved s.1.store input.env
    (started.service.submittedMessage req messageID now) capacity
  rcases hsave : s.1.store.saveWithCapacity input.env
    (started.service.submittedMessage req messageID now) capacity with ⟨saved, store⟩
  rw [hsave] at hsaved
  simp only [perform, MemoryStore.call, hsave]
  have haccounts : Accounts (⟨store, input.clock⟩, s.2 ++ [⟨.store (.saveWithCapacity
      (started.service.submittedMessage req messageID now) capacity), saved⟩]) :=
    ⟨hclock, h.2.save hsaved (haccepted.prepared hclock)⟩
  by_cases hnew : ∃ message, saved = .ok ⟨message, .created⟩
  · obtain ⟨message, rfl⟩ := hnew
    obtain ⟨rfl, -, rfl⟩ := hsaved.created_inv
    have hfields := started.service.submittedMessage_new req messageID now
    exact hcreated _ _ haccounts Table.get?_put_self
      (by simp [MemoryStore.prepareMessage, hfields.2]) hfields.1
  · exact hother _ _ haccounts fun message heq => hnew ⟨message, heq⟩

theorem chosenMessageID_meets {α : Type} {req : PushRequest} {rest : GoString → Code α}
    {post : α → World × Trace → Prop} (h : Accounts s)
    (hrest : ∀ messageID s', Accounts s' →
      (rest messageID).Meets (courier.alone forward started.Obeys) post s') :
    (Service.chosenMessageID req >>= rest).Meets (courier.alone forward started.Obeys) post s := by
  unfold Service.chosenMessageID
  split
  · exact meets_perform_alone ⟨h, trivial⟩ fun input hforward =>
      hrest _ _ ⟨lt_of_lt_of_le h.1 hforward, h.2.effect (by simp)⟩
  · exact hrest _ _ h

theorem push_meets {req : PushRequest} (h : Accounts s)
    (haccepted : (Started.mk svc (.push req)).Accepted) :
    (svc.push req).Meets (courier.alone forward (Started.mk svc (.push req)).Obeys)
      (fun _ => Accounts) s := by
  unfold Service.push
  split
  · exact h
  · refine meets_perform_alone ⟨h, trivial⟩ fun input hforward => ?_
    refine chosenMessageID_meets ⟨lt_of_lt_of_le h.1 hforward, h.2.effect (by simp)⟩
      fun messageID s' h => save_meets h haccepted ?_ ?_
    · intro message s' h hstored hpending hattempts
      exact deliverCreated_meets h rfl hstored hpending hattempts
    · intro saved s' h hother
      rcases saved with err | ⟨message, outcome⟩
      · cases err <;> exact h
      · cases outcome with
        | created => exact absurd rfl (hother message)
        | existing | conflict => exact h

theorem run_meets (haccepted : started.Accepted) (h : Accounts s) :
    (started.service.run started.operation).Meets (courier.alone forward started.Obeys)
      (fun _ => Accounts) s := by
  have hquiet : started.operation.delivers = false →
      (started.service.run started.operation).Meets (courier.alone forward started.Obeys)
        (fun _ => Accounts) s := by
    intro hop
    refine (Service.run_performs started).keeps ?_ h
    intro effect s hperforms haccounts
    have hmarks : effect.marks = false := by
      cases effect with
      | store call =>
        cases call <;> first | rfl | simp [Started.Performs, Started.Makes, hop] at hperforms
      | _ => rfl
    refine ⟨⟨haccounts, ?_⟩, ?_⟩
    · cases effect <;> first | trivial | simp [Started.Performs, hop] at hperforms
    · rintro response ⟨world, trace⟩ ⟨⟨input, hforward, hexec⟩, htrace⟩
      obtain ⟨rfl, rfl⟩ := Prod.mk.inj (Option.some.inj hexec)
      obtain rfl : trace = s.2 ++ [⟨effect, (perform effect input s.1).1⟩] := htrace
      exact haccounts.perform haccepted hperforms hmarks hforward
  obtain ⟨svc, op⟩ := started
  cases op with
  | push req => exact (push_meets h haccepted).bind fun _ _ h => h
  | retryDue limit => exact (retryDue_meets h).bind fun _ _ h => h
  | flushClientDevice clientID deviceID limit =>
    exact (flushClientDevice_meets h).bind fun _ _ h => h
  | ack | requeue | requeueFailed | discard | publishTerminalDue | cleanupExpired =>
    exact hquiet rfl

end

end ZCourier.Downlink
