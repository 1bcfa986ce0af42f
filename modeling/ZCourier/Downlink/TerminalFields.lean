import ZCourier.Downlink.Attempts
import ZCourier.Downlink.Inert
import ZCourier.Downlink.Outbox

/-!
# The terminal fields of a message

A message carries seven fields about the end of its delivery. In `acknowledged_keeps_reason` an
acknowledgement of a failed message clears none of them; `terminal_fields_describe_status` is what
holds otherwise, while operations run one at a time.
-/

namespace ZCourier.Downlink

open Go Library

/-! ## Reports of an operation that runs alone -/

/-- None of the messages has failed. -/
def MemoryStore.Unfailed (s : MemoryStore) (ids : List GoString) : Prop :=
  ∀ id ∈ ids, ∀ message, s.messages.get? id = some message → message.status ≠ .failed

/-- A delivery or a failed attempt is reported only for a message that has not failed. -/
def Effect.Careful (effect : Effect) (s : World × Trace) : Prop :=
  match effect with
  | .store (.markSent id ..) | .store (.markAttemptFailed id ..) => s.1.store.Unfailed [id]
  | _ => True

/-- The message a report is about. -/
def StoreCall.reported? : StoreCall → Option GoString
  | .markSent id .. | .markAttemptFailed id .. | .markFailed id _ => some id
  | _ => none

section

variable [Sha256] {α : Type} {svc : Service} {ids : List GoString} {s : World × Trace}
  {post : α → World × Trace → Prop}

/-- The effects of an operation that runs alone. -/
abbrev carefully : EffectSpec Effect Effect.Response (World × Trace) :=
  courier.alone (fun _ _ => True) Effect.Careful

theorem SlotStep.other_of_reported {env : StoreEnv} {store : MemoryStore} {id other : GoString}
    {call : StoreCall} {slot slot' : Option Message}
    (h : SlotStep env store other call slot slot') (hcall : call.reported? = some id)
    (hne : other ≠ id) : slot' = slot := by
  cases h with
  | same => rfl
  | created | removed => cases hcall
  | edited hid hedit =>
    cases hedit with
    | sent | attemptFailed | failed =>
      obtain rfl := Option.some.inj hcall
      exact absurd hid.symm hne
    | refreshed | claimed | delivered | requeued | discarded | published | publishFailed =>
      cases hcall

/-- An effect that is not a call of the store. -/
theorem elsewhere_meets {effect : Effect} {rest : effect.Response → Code α}
    (hstore : ∀ call, effect ≠ .store call)
    (hrest : ∀ response s', s'.1.store = s.1.store → (rest response).Meets carefully post s') :
    (Prog.call effect >>= rest).Meets carefully post s := by
  refine ⟨?_, ?_⟩
  · cases effect with
    | store call => exact absurd rfl (hstore call)
    | now | ctxErr | newMessageID | jitter | deliverOnline | publish | retryMessage => trivial
  · rintro response s' ⟨⟨input, -, hexec⟩, -⟩
    obtain ⟨-, hworld⟩ := Prod.mk.inj (Option.some.inj hexec)
    refine hrest response s' ?_
    rw [← hworld]
    cases effect with
    | store call => exact absurd rfl (hstore call)
    | now | ctxErr | newMessageID | jitter | deliverOnline | publish | retryMessage => rfl

theorem store_meets {call : StoreCall} {rest : Except StoreError call.Value → Code α}
    (hcareful : Effect.Careful (.store call) s)
    (hrest : ∀ env s', s'.1.store = (s.1.store.call env call).2 →
      (rest (s.1.store.call env call).1).Meets carefully post s') :
    (Code.store call >>= rest).Meets carefully post s := by
  refine ⟨hcareful, ?_⟩
  rintro response s' ⟨⟨input, -, hexec⟩, -⟩
  obtain ⟨rfl, hworld⟩ := Prod.mk.inj (Option.some.inj hexec)
  exact hrest input.env s' (by rw [← hworld])

theorem report_meets {id : GoString} {call : StoreCall}
    {rest : Except StoreError call.Value → Code α} (hcall : call.reported? = some id)
    (hunfailed : s.1.store.Unfailed (id :: ids)) (hfresh : id ∉ ids)
    (hrest : ∀ response s', s'.1.store.Unfailed ids →
      (rest response).Meets carefully post s') :
    (Code.store call >>= rest).Meets carefully post s := by
  refine store_meets ?_ fun env s' hstore => hrest _ s' ?_
  · -- the report is about `id`, which has not failed
    cases call with
    | markSent | markAttemptFailed =>
      obtain rfl := Option.some.inj hcall
      intro other hother
      obtain rfl := List.mem_singleton.mp hother
      exact hunfailed _ List.mem_cons_self
    | _ => trivial
  · intro other hother message hget
    have hne : other ≠ id := fun heq => hfresh (heq ▸ hother)
    have hstep : StoreStep env s.1.store call s'.1.store := hstore ▸ MemoryStore.call_step call
    rw [(hstep.slot other).other_of_reported hcall hne] at hget
    exact hunfailed other (List.mem_cons_of_mem _ hother) message hget

theorem nextRetryAt_carefully {now : Int} {policy : DeliveryPolicy} {attempts : Nat}
    {rest : Int → Code α}
    (hrest : ∀ next s', s'.1.store = s.1.store → (rest next).Meets carefully post s') :
    (Service.nextRetryAt now policy attempts >>= rest).Meets carefully post s := by
  unfold Service.nextRetryAt Service.nextRetryJitter
  split
  · exact hrest _ s rfl
  · exact elsewhere_meets (by simp) fun jitter s' hstore => hrest _ s' hstore

end

section

variable [Sha256] {svc : Service} {ids : List GoString} {s : World × Trace} {message : Message}

theorem giveUp_carefully {reason : GoString} {time : Int} {attempted : Bool}
    (h : s.1.store.Unfailed (message.messageID :: ids)) (hfresh : message.messageID ∉ ids) :
    (svc.giveUp message reason time attempted).Meets carefully
      (fun _ s' => s'.1.store.Unfailed ids) s := by
  refine report_meets rfl h hfresh fun response s' hrest => ?_
  cases response <;> exact hrest

theorem redeliver_carefully {policy : DeliveryPolicy}
    (h : s.1.store.Unfailed (message.messageID :: ids)) (hfresh : message.messageID ∉ ids) :
    (svc.redeliver message policy).Meets carefully (fun _ s' => s'.1.store.Unfailed ids) s := by
  refine elsewhere_meets (by simp) fun delivery s₁ hdelivered => ?_
  cases delivery with
  | error err =>
    refine elsewhere_meets (by simp) fun failedAt s₂ hread => ?_
    have h : s₂.1.store.Unfailed (message.messageID :: ids) := by rwa [hread, hdelivered]
    split
    · exact giveUp_carefully h hfresh
    · split
      · exact giveUp_carefully h hfresh
      · refine nextRetryAt_carefully fun next s₃ hnext => ?_
        refine report_meets rfl (by rwa [hnext]) hfresh fun response s' hrest => ?_
        cases response <;> exact hrest
  | ok sentResp =>
    refine elsewhere_meets (by simp) fun sentAt s₂ hread => ?_
    refine report_meets rfl (by rwa [hread, hdelivered]) hfresh fun response s' hrest => ?_
    cases response <;> exact hrest

theorem retryMessage_carefully (h : s.1.store.Unfailed (message.messageID :: ids))
    (hfresh : message.messageID ∉ ids) :
    (svc.retryMessage message).Meets carefully (fun _ s' => s'.1.store.Unfailed ids) s := by
  refine elsewhere_meets (by simp) fun _ s₁ hbegun => ?_
  refine elsewhere_meets (by simp) fun now s₂ hread => ?_
  have h : s₂.1.store.Unfailed (message.messageID :: ids) := by rwa [hread, hbegun]
  split
  · exact giveUp_carefully h hfresh
  · split
    · exact giveUp_carefully h hfresh
    · split
      · exact fun id hid => h id (List.mem_cons_of_mem _ hid)
      · exact redeliver_carefully h hfresh

theorem retryMessages_carefully {result : RetryResult} {messages : List Message}
    (hnodup : (messages.map Message.messageID).Nodup)
    (h : s.1.store.Unfailed (messages.map Message.messageID)) :
    (svc.retryMessages result messages).Meets carefully (fun _ _ => True) s := by
  induction messages generalizing s result with
  | nil => trivial
  | cons message rest ih =>
    obtain ⟨hfresh, hnodup⟩ := List.nodup_cons.mp hnodup
    refine elsewhere_meets (by simp) fun ctxErr s₁ hchecked => ?_
    cases ctxErr with
    | some err => trivial
    | none =>
      have h : s₁.1.store.Unfailed (message.messageID :: rest.map Message.messageID) := by
        rwa [hchecked]
      refine (retryMessage_carefully h hfresh).bind fun status s₂ hrest => ?_
      cases status with
      | error err => trivial
      | ok status => exact ih hnodup hrest

omit [Sha256] in
theorem unfailed_of_due {store : MemoryStore} {now ackTimeout : Int} {messages : List Message}
    (h : store.Due now ackTimeout messages) :
    (messages.map Message.messageID).Nodup ∧
      store.Unfailed (messages.map Message.messageID) := by
  refine ⟨MemoryStore.ids_nodup h.1 fun message hmem => (h.2 message hmem).1, ?_⟩
  intro id hid stored hget
  obtain ⟨message, hmem, rfl⟩ := List.mem_map.mp hid
  obtain ⟨hstored, hopen⟩ := h.not_final hmem
  rw [hstored] at hget
  obtain rfl := Option.some.inj hget
  exact fun hfailed => hopen (.inr (.inl hfailed))

theorem listRetryMessages_carefully {now limit : Int} :
    (svc.listRetryMessages now limit).Meets carefully
      (fun result s' => ∀ selection, result = .ok selection →
        (selection.messages.map Message.messageID).Nodup ∧
          s'.1.store.Unfailed (selection.messages.map Message.messageID)) s := by
  unfold Service.listRetryMessages
  split
  · split
    · next howner =>
      change (Code.store _ >>= .ret).Meets carefully _ s
      refine store_meets trivial fun env s' hstore selection hselection => ?_
      obtain ⟨chosen, expiry, -, hdue, hmessages, hget⟩ :=
        MemoryStore.claimDueRetryFair_ok howner (Prod.ext hselection rfl)
      obtain ⟨hnodup, hunfailed⟩ := unfailed_of_due hdue
      have hids : selection.messages.map Message.messageID = chosen.map Message.messageID := by
        rw [hmessages, List.map_map]
        rfl
      rw [hids, hstore]
      refine ⟨hnodup, fun id hid message hmessage => ?_⟩
      -- a claim leaves the status of the message alone
      have hclaimed := (hget id).symm.trans hmessage
      rw [if_pos hid] at hclaimed
      obtain ⟨before, hbefore, rfl⟩ := Option.map_eq_some_iff.mp hclaimed
      exact hunfailed id hid before hbefore
    · change (Code.store _ >>= .ret).Meets carefully _ s
      refine store_meets trivial fun env s' hstore selection hselection => ?_
      obtain ⟨hsame, hdue⟩ := MemoryStore.listDueRetryFair_ok (Prod.ext hselection rfl)
      rw [show s'.1.store = s.1.store from hstore.trans hsame]
      exact unfailed_of_due hdue
  · refine store_meets trivial fun env s' hstore => ?_
    rcases hlisted : s.1.store.listDueRetry env now svc.ackTimeout limit with
      ⟨_ | messages, store⟩
    · simp only [MemoryStore.call, hlisted]
      intro selection hselection
      cases hselection
    · obtain ⟨hsame, hdue⟩ := MemoryStore.listDueRetry_ok hlisted
      simp only [MemoryStore.call, hlisted] at hstore ⊢
      intro selection hselection
      obtain rfl := Except.ok.inj hselection
      rw [hstore, hsame]
      exact unfailed_of_due hdue

theorem retryDue_carefully {limit : Int} :
    (svc.retryDue limit).Meets carefully (fun _ _ => True) s := by
  refine elsewhere_meets (by simp) fun now s₁ _ => ?_
  refine listRetryMessages_carefully.bind fun listed s₂ hlisted => ?_
  cases listed with
  | error err => trivial
  | ok selection =>
    obtain ⟨hnodup, hunfailed⟩ := hlisted selection rfl
    exact (retryMessages_carefully hnodup hunfailed).bind fun _ _ _ => trivial

theorem flushClientDevice_carefully {clientID deviceID : GoString} {limit : Int} :
    (svc.flushClientDevice clientID deviceID limit).Meets carefully (fun _ _ => True) s := by
  unfold Service.flushClientDevice
  split
  · trivial
  · split
    · trivial
    · refine store_meets trivial fun env s' hstore => ?_
      rcases hlisted : s.1.store.listPendingByClientDevice env clientID deviceID limit with
        ⟨_ | messages, store⟩
      · simp only [MemoryStore.call, hlisted]
        trivial
      · obtain ⟨rfl, hnodup, hpending⟩ := MemoryStore.listPendingByClientDevice_ok hlisted
        simp only [MemoryStore.call, hlisted] at hstore ⊢
        refine retryMessages_carefully
          (MemoryStore.ids_nodup hnodup fun message hmem => (hpending message hmem).1) ?_
        intro id hid stored hget
        obtain ⟨message, hmem, rfl⟩ := List.mem_map.mp hid
        obtain ⟨hrow, hstatus⟩ := hpending message hmem
        rw [hstore, Table.get?_of_mem hrow] at hget
        obtain rfl := Option.some.inj hget
        simp [hstatus]

theorem deliverCreated_carefully (h : s.1.store.Unfailed [message.messageID]) :
    (Service.deliverCreated message).Meets carefully (fun _ _ => True) s := by
  refine elsewhere_meets (by simp) fun delivery s₁ hdelivered => ?_
  cases delivery with
  | error err =>
    refine elsewhere_meets (by simp) fun failedAt s₂ hread => ?_
    refine nextRetryAt_carefully fun next s₃ hnext => ?_
    refine report_meets rfl (by rwa [hnext, hread, hdelivered]) List.not_mem_nil
      fun response s' _ => ?_
    cases response <;> trivial
  | ok sentResp =>
    refine elsewhere_meets (by simp) fun sentAt s₂ hread => ?_
    refine report_meets rfl (by rwa [hread, hdelivered]) List.not_mem_nil fun response s' _ => ?_
    cases response <;> trivial

theorem save_carefully {α : Type} {submitted : Message} {capacity : QueueCapacity}
    {rest : Except StoreError SaveResult → Code α} {post : α → World × Trace → Prop}
    (hpending : submitted.status = .pending)
    (hcreated : ∀ message s', s'.1.store.Unfailed [message.messageID] →
      (rest (.ok ⟨message, .created⟩)).Meets carefully post s')
    (hother : ∀ saved s', (∀ message, saved ≠ .ok ⟨message, .created⟩) →
      (rest saved).Meets carefully post s') :
    (Code.store (.saveWithCapacity submitted capacity) >>= rest).Meets carefully post s := by
  refine store_meets trivial fun env s' hstore => ?_
  have hsaved := MemoryStore.saveWithCapacity_saved s.1.store env submitted capacity
  rcases hsave : s.1.store.saveWithCapacity env submitted capacity with ⟨saved, store⟩
  rw [hsave] at hsaved
  simp only [MemoryStore.call, hsave] at hstore ⊢
  by_cases hnew : ∃ message, saved = .ok ⟨message, .created⟩
  · obtain ⟨message, rfl⟩ := hnew
    obtain ⟨rfl, -, rfl⟩ := hsaved.created_inv
    refine hcreated _ s' fun id hid stored hget => ?_
    obtain rfl := List.mem_singleton.mp hid
    rw [hstore, MemoryStore.get?_putMessage, if_pos rfl] at hget
    obtain rfl := Option.some.inj hget
    simp [MemoryStore.prepareMessage, hpending]
  · exact hother _ s' fun message heq => hnew ⟨message, heq⟩

theorem chosenMessageID_carefully {α : Type} {req : PushRequest} {rest : GoString → Code α}
    {post : α → World × Trace → Prop}
    (hrest : ∀ messageID s', (rest messageID).Meets carefully post s') :
    (Service.chosenMessageID req >>= rest).Meets carefully post s := by
  unfold Service.chosenMessageID
  split
  · exact elsewhere_meets (by simp) fun messageID s' _ => hrest messageID s'
  · exact hrest _ s

theorem push_carefully {req : PushRequest} :
    (svc.push req).Meets carefully (fun _ _ => True) s := by
  unfold Service.push
  split
  · trivial
  · refine elsewhere_meets (by simp) fun now s₁ _ => ?_
    refine chosenMessageID_carefully fun messageID s₂ => ?_
    refine save_carefully (Service.submittedMessage_status ..) ?_ ?_
    · intro message s₃ hunfailed
      exact deliverCreated_carefully hunfailed
    · intro saved s₃ hother
      rcases saved with err | ⟨message, outcome⟩
      · cases err <;> trivial
      · cases outcome with
        | created => exact absurd rfl (hother message)
        | existing | conflict => trivial

theorem run_carefully (started : Started) (s : World × Trace) :
    (started.service.run started.operation).Meets carefully (fun _ _ => True) s := by
  have hquiet : started.operation.delivers = false →
      (started.service.run started.operation).Meets carefully (fun _ _ => True) s := by
    intro hop
    refine (Service.run_performs started).keeps ?_ trivial
    intro effect s hperforms _
    refine ⟨?_, fun _ _ _ => trivial⟩
    cases effect with
    | store call =>
      cases call with
      | markSent | markAttemptFailed => simp [Started.Performs, Started.Makes, hop] at hperforms
      | _ => trivial
    | _ => trivial
  obtain ⟨svc, op⟩ := started
  cases op with
  | push req => exact push_carefully.bind fun _ _ _ => trivial
  | retryDue limit => exact retryDue_carefully.bind fun _ _ _ => trivial
  | flushClientDevice clientID deviceID limit =>
    exact flushClientDevice_carefully.bind fun _ _ _ => trivial
  | ack | requeue | requeueFailed | discard | publishTerminalDue | cleanupExpired =>
    exact hquiet rfl

end

/-! ## The fields -/

/-- The seven terminal fields are empty. -/
structure Message.Unmarked (message : Message) : Prop where
  reason : message.terminalReason = []
  time : message.terminalAt = 0
  publishStatus : message.terminalPublishStatus = .unset
  publishAttempts : message.terminalPublishAttempts = 0
  nextPublishAt : message.terminalNextPublishAt = 0
  publishError : message.terminalPublishError = []
  publishedAt : message.terminalPublishedAt = 0

/-- The terminal fields are those of the message's status. -/
structure Message.Described (message : Message) : Prop where
  marked : message.status.Announced → message.terminalReason ≠ [] ∧ message.terminalAt ≠ 0
  unmarked : ¬message.status.Announced → message.Unmarked

/-- Outbox records belong to statuses that are announced. -/
def MemoryStore.AnnouncedKeys (s : MemoryStore) : Prop :=
  ∀ {id status record}, s.terminalEvents.get? (terminalEventID id status) = some record →
    status.Announced

structure MemoryStore.Described (s : MemoryStore) : Prop where
  message : ∀ {id message}, s.messages.get? id = some message → message.Described
  keys : s.AnnouncedKeys

theorem MemoryStore.described_new : MemoryStore.new.Described :=
  ⟨fun hget => by simp [MemoryStore.new] at hget, fun hget => by simp [MemoryStore.new] at hget⟩

theorem MemoryStore.terminalMessage_described {s : MemoryStore} {message : Message}
    {status : MessageStatus} {attempts : Nat} {lastError : GoString}
    {transition : TerminalTransition} (h : message.Described) (hstatus : status.Announced)
    (hreason : transition.reason ≠ []) (htime : transition.time ≠ 0) :
    (s.terminalMessage message status attempts lastError transition).Described := by
  refine ⟨fun _ => ?_, fun hother => ?_⟩
  · simp only [terminalMessage]
    split
    · split <;> exact ⟨hreason, htime⟩
    · next hfirst =>
      -- the message has been through this transition already, and its fields stay
      simp only [Bool.or_eq_true, decide_eq_true_eq, not_or, ne_eq, not_not] at hfirst
      exact h.marked (hfirst.1 ▸ hstatus)
  · rw [terminalMessage_status] at hother
    exact absurd hstatus hother

theorem MemoryStore.enterTerminal_record {s : MemoryStore} {message : Message}
    {status : MessageStatus} {attempts : Nat} {lastError key : GoString}
    {transition : TerminalTransition} {record : TerminalRecord}
    (h : (s.enterTerminal message status attempts lastError transition).terminalEvents.get? key =
      some record) :
    s.terminalEvents.get? key = some record ∨ key = terminalEventID message.messageID status := by
  simp only [enterTerminal] at h
  split at h
  · split at h
    · split at h
      · exact .inl h
      · rw [putMessage_terminalEvents, get?_putRecord] at h
        split at h
        · next hkey => exact .inr hkey
        · exact .inl h
    · exact .inl h
  · exact .inl h

section

variable [Sha256] {env : StoreEnv} {s s' : MemoryStore} {call : StoreCall}

/-- Calls of the store keep the keys of the outbox. -/
theorem MemoryStore.AnnouncedKeys.step (hkeys : s.AnnouncedKeys) (h : StoreStep env s call s') :
    s'.AnnouncedKeys := by
  intro id status record hget
  cases h with
  | same | refreshed | created | sent | delivered | attemptFailed | requeued => exact hkeys hget
  | claimed =>
    rw [claimMessages_terminalEvents] at hget
    exact hkeys hget
  | failed =>
    rcases enterTerminal_record hget with hget | hkey
    · exact hkeys hget
    · exact .inl (terminal_event_id_inj.mp hkey).2
  | discarded =>
    rcases enterTerminal_record hget with hget | hkey
    · exact hkeys hget
    · exact .inr (terminal_event_id_inj.mp hkey).2
  | claimedRecords =>
    rw [get?_claimRecords fun record hmem =>
      ⟨record, Table.get?_of_mem (mem_select_due_terminal hmem).1, rfl⟩] at hget
    split at hget
    · obtain ⟨before, hbefore, -⟩ := Option.map_eq_some_iff.mp hget
      exact hkeys hbefore
    · exact hkeys hget
  | published hstored | publishFailed hstored =>
    rw [mirror_terminalEvents, get?_putRecord] at hget
    split at hget
    · next hkey =>
      have hstoredKey := eventID_of_get? hstored
      have hsame := terminal_event_id_inj.mp (hkey.trans hstoredKey)
      exact hsame.2 ▸ hkeys hstored
    · exact hkeys hget
  | deleted =>
    rw [get?_delete_records] at hget
    split at hget
    · cases hget
    · exact hkeys hget

/-- What a call has to find so that the terminal fields of the message it changes stay right. -/
def StoreCall.Suits (message : Message) : StoreCall → Prop
  | .markSent .. | .markAttemptFailed .. => message.status ≠ .failed
  | .markDelivered .. => ¬message.status.Announced
  | .markFailed _ transition => transition.reason ≠ []
  | .markTerminalPublished _ status _ | .markTerminalPublishFailed _ status _ _ =>
    status.Announced
  | _ => True

/-- An acknowledgement that reaches a message that has neither failed nor been discarded. -/
def StoreCall.AcknowledgesOpen (s : MemoryStore) : StoreCall → Prop
  | .markDelivered id _ _ _ =>
    ∀ message, s.messages.get? id = some message → ¬message.status.Announced
  | _ => True

omit [Sha256] in
theorem StoreEnv.orClock_ne_zero (hclock : env.clock ≠ 0) (t : Int) : env.orClock t ≠ 0 := by
  unfold StoreEnv.orClock
  split
  · exact hclock
  · next ht => simpa using ht

omit [Sha256] in
theorem discardTransition_reason (transition : TerminalTransition) :
    (MemoryStore.discardTransition transition env).reason ≠ [] := by
  simp only [MemoryStore.discardTransition]
  split
  · decide
  · next hreason => exact hreason

omit [Sha256] in
theorem Message.Unmarked.described {message : Message} (h : message.Unmarked)
    (hstatus : ¬message.status.Announced) : message.Described :=
  ⟨fun hannounced => absurd hannounced hstatus, fun _ => h⟩

/-- A change of a message by a call that suits it. -/
theorem MessageEdit.described {message message' : Message}
    (h : MessageEdit env s call message message') (hdescribed : message.Described)
    (hclock : env.clock ≠ 0) (hsuits : call.Suits message) : message'.Described := by
  cases h with
  | refreshed | claimed =>
    exact ⟨fun hannounced => hdescribed.marked hannounced, fun hother =>
      let hunmarked := hdescribed.unmarked hother
      ⟨hunmarked.1, hunmarked.2, hunmarked.3, hunmarked.4, hunmarked.5, hunmarked.6,
        hunmarked.7⟩⟩
  | sent _ hdiscarded | attemptFailed _ hdiscarded =>
    have hopen : ¬message.status.Announced := by
      rintro (hfailed | hended)
      · exact hsuits hfailed
      · exact hdiscarded hended
    obtain ⟨h₁, h₂, h₃, h₄, h₅, h₆, h₇⟩ := hdescribed.unmarked hopen
    exact Message.Unmarked.described ⟨h₁, h₂, h₃, h₄, h₅, h₆, h₇⟩
      (by simp [MessageStatus.Announced])
  | delivered =>
    obtain ⟨h₁, h₂, h₃, h₄, h₅, h₆, h₇⟩ := hdescribed.unmarked hsuits
    exact Message.Unmarked.described ⟨h₁, h₂, h₃, h₄, h₅, h₆, h₇⟩
      (by simp [MessageStatus.Announced])
  | failed =>
    exact MemoryStore.terminalMessage_described hdescribed (.inl rfl) hsuits
      (StoreEnv.orClock_ne_zero hclock _)
  | discarded =>
    exact MemoryStore.terminalMessage_described hdescribed (.inr rfl)
      (discardTransition_reason _) (StoreEnv.orClock_ne_zero hclock _)
  | requeued =>
    exact Message.Unmarked.described ⟨rfl, rfl, rfl, rfl, rfl, rfl, rfl⟩
      (by simp [MessageStatus.Announced])
  | published | publishFailed =>
    -- only the publication fields of an announced message change
    exact ⟨fun _ => hdescribed.marked hsuits, fun hother => absurd hsuits hother⟩

omit [Sha256] in
theorem Service.submittedMessage_unmarked (svc : Service) (req : PushRequest)
    (messageID : GoString) (now : Int) : (svc.submittedMessage req messageID now).Unmarked := by
  unfold Service.submittedMessage
  split <;> exact ⟨rfl, rfl, rfl, rfl, rfl, rfl, rfl⟩

theorem StoreStep.reported_announced {id : GoString} {status : MessageStatus} {t : Int}
    (hkeys : s.AnnouncedKeys) (h : StoreStep env s (.markTerminalPublished id status t) s') :
    s' = s ∨ status.Announced := by
  cases h with
  | same => exact .inl rfl
  | published hget => exact .inr (hkeys hget)

theorem StoreStep.report_failed_announced {id reason : GoString} {status : MessageStatus}
    {t : Int} (hkeys : s.AnnouncedKeys)
    (h : StoreStep env s (.markTerminalPublishFailed id status reason t) s') :
    s' = s ∨ status.Announced := by
  cases h with
  | same => exact .inl rfl
  | publishFailed hget => exact .inr (hkeys hget)

/-- A call of the service that reports on messages that have not failed and acknowledges
messages that are not announced keeps the fields right. -/
theorem MemoryStore.Described.step {started : Started} (h : s.Described)
    (hmakes : started.Makes call) (hstep : StoreStep env s call s') (hclock : env.clock ≠ 0)
    (hreported : ∀ id, (call.reported? = some id ∧ ∀ t, call ≠ .markFailed id t) →
      s.Unfailed [id])
    (hacknowledged : call.AcknowledgesOpen s) : s'.Described := by
  refine ⟨fun {id message} hget => ?_, MemoryStore.AnnouncedKeys.step h.keys hstep⟩
  by_cases hsame : s' = s
  · exact h.message (hsame ▸ hget)
  · have hslot := hstep.slot id
    rw [hget] at hslot
    generalize hbefore : s.messages.get? id = slot at hslot
    cases hslot with
    | same => exact h.message hbefore
    | created =>
      obtain ⟨req, messageID, now, -, -, rfl, -⟩ := hmakes
      obtain ⟨h₁, h₂, h₃, h₄, h₅, h₆, h₇⟩ :=
        started.service.submittedMessage_unmarked req messageID now
      refine Message.Unmarked.described ⟨h₁, h₂, h₃, h₄, h₅, h₆, h₇⟩ ?_
      simp [prepareMessage, Service.submittedMessage_status, MessageStatus.Announced]
    | @edited _ before _ hid hedit =>
      subst hid
      refine hedit.described (h.message hbefore) hclock ?_
      cases hedit with
      | sent | attemptFailed =>
        exact hreported before.messageID ⟨rfl, fun t ht => by cases ht⟩ _
          (List.mem_singleton_self _) before hbefore
      | delivered => exact hacknowledged before hbefore
      | failed => exact hmakes.2.2
      | published => exact (hstep.reported_announced h.keys).resolve_left hsame
      | publishFailed => exact (hstep.report_failed_announced h.keys).resolve_left hsame
      | refreshed | claimed | requeued | discarded => trivial

end

/-! ## Executions -/

/-- Operations run one at a time, the clock does not show the zero time, and acknowledgements
reach messages that have neither failed nor been discarded. -/
structure CourierStep.Timely (t : CourierStep) : Prop where
  sequential : Sequential t
  clock : ∀ i input, t.choice = .act i input → input.clock ≠ 0
  acknowledged : ∀ call env, t.call? = some (call, env) →
    call.AcknowledgesOpen t.before.state.store

section

variable [Sha256] {clock : Int} {history : List CourierStep} {after : Courier}

theorem timely_alone (h : Run courier CourierStep.Timely (Courier.initial clock) history after) :
    courier.Alone (fun _ _ => True) (fun _ => Effect.Careful) (fun _ => True) after :=
  h.sequential trivial (fun _ ht => ht.sequential) (fun _ => trivial)
    fun {_ tag _} _ _ hstart => by
      obtain rfl := Option.some.inj hstart
      exact run_carefully tag _

theorem timely_described
    (h : Run courier CourierStep.Timely (Courier.initial clock) history after) :
    after.state.store.Described := by
  induction h with
  | refl => exact MemoryStore.described_new
  | snoc hrun hstep hok hdescribed =>
    cases hstep with
    | start hstart =>
      obtain rfl := Option.some.inj hstart
      exact hdescribed
    | @act i input tag log effect next response state hthread hexec =>
      obtain ⟨-, rfl⟩ := Prod.mk.inj (Option.some.inj hexec)
      have hperforms : tag.Performs effect :=
        (hrun.follows fun tag => (Service.run_performs tag).meets []).next_allowed hthread
      obtain ⟨-, -, -, -, hcareful, -⟩ := (timely_alone hrun).last hthread
      cases effect with
      | store call =>
        refine hdescribed.step hperforms (MemoryStore.call_step call)
          (hok.clock i input rfl) ?_ ?_
        · rintro id ⟨hreported, hother⟩
          cases call with
          | markSent | markAttemptFailed =>
            obtain rfl := Option.some.inj hreported
            exact hcareful
          | markFailed _ transition =>
            obtain rfl := Option.some.inj hreported
            exact absurd rfl (hother transition)
          | _ => cases hreported
        · exact hok.acknowledged call input.env (by simp [CourierStep.call?, hthread])
      | now | ctxErr | newMessageID | jitter | deliverOnline | publish | retryMessage =>
        exact hdescribed

/-- The service's operations run one at a time, and no acknowledgement reaches a failed or
discarded message. Then a stored message has a terminal reason and a terminal time exactly when
it is failed or discarded, and in every other status its seven terminal fields are empty. -/
theorem terminal_fields_describe_status
    (h : Run courier CourierStep.Timely (Courier.initial clock) history after) {id : GoString}
    {message : Message} (hget : after.state.store.messages.get? id = some message) :
    (message.terminalReason ≠ [] ∧ message.terminalAt ≠ 0 ↔
      message.status = .failed ∨ message.status = .discarded) ∧
    (¬(message.status = .failed ∨ message.status = .discarded) →
      message.terminalReason = [] ∧ message.terminalAt = 0 ∧
      message.terminalPublishStatus = .unset ∧ message.terminalPublishAttempts = 0 ∧
      message.terminalNextPublishAt = 0 ∧ message.terminalPublishError = [] ∧
      message.terminalPublishedAt = 0) := by
  have hdescribed := (timely_described h).message hget
  refine ⟨⟨fun hmarked => ?_, hdescribed.marked⟩, fun hother => ?_⟩
  · by_contra hother
    exact hmarked.1 (hdescribed.unmarked hother).reason
  · obtain ⟨h₁, h₂, h₃, h₄, h₅, h₆, h₇⟩ := hdescribed.unmarked hother
    exact ⟨h₁, h₂, h₃, h₄, h₅, h₆, h₇⟩

end

/-! ## A run of operations one at a time -/

/-- A push of `m` to a device that is offline. -/
def pushOffline : List (Choice Started Surroundings) :=
  .start ⟨newService, .push requestM⟩ :: Choice.turns 0 5 (offline 1)

/-- A step of such a run that makes no acknowledgement. -/
def timelyCheck (config : Courier) (choice : Choice Started Surroundings) : Bool :=
  sequentialCheck config choice &&
    match choice with
    | .start _ => true
    | .act i input => input.clock ≠ 0 &&
        match config.next? i with
        | some (_, some (.store (.markDelivered ..))) => false
        | _ => true

theorem timely_of_check {before after : Courier} {choice : Choice Started Surroundings}
    (h : timelyCheck before choice = true) : CourierStep.Timely ⟨before, choice, after⟩ where
  sequential := sequential_of_check (Bool.and_eq_true_iff.mp h).1
  clock := by
    intro i input hchoice
    obtain rfl : choice = .act i input := hchoice
    simp only [timelyCheck, Bool.and_eq_true, decide_eq_true_eq] at h
    exact h.2.1
  acknowledged := by
    intro call env hcall
    cases choice with
    | start started => cases hcall
    | act i input =>
      simp only [CourierStep.call?] at hcall
      split at hcall
      · next started log call' next hthread =>
        obtain ⟨rfl, -⟩ := Prod.mk.inj (Option.some.inj hcall)
        have hnext : before.next? i = some (started, some (.store call')) := by
          simp [Courier.next?, hthread, Prog.next?]
        cases call' with
        | markDelivered => simp [timelyCheck, hnext] at h
        | _ => trivial
      · cases hcall

/-- Once `m` is discarded, its terminal fields say so. -/
def pushThenDiscard : List (Choice Started Surroundings) :=
  pushOffline ++ .start ⟨newService, .discard (ascii "m") []⟩ :: Choice.turns 1 4 (offline 1)

theorem terminal_fields_describe_status_discarded :
    ∃ (history : List CourierStep) (after : Courier) (message : Message),
      Run (@courier Sha256.polynomial) CourierStep.Timely (Courier.initial 1) history after ∧
      after.state.store.messages.get? (ascii "m") = some message ∧ message.status = .discarded ∧
      message.terminalReason ≠ [] ∧ message.terminalAt ≠ 0 := by
  have hreplay : (((@courier Sha256.polynomial).replayIf timelyCheck (Courier.initial 1)
      pushThenDiscard).bind fun after : Courier =>
        (after.state.store.messages.get? (ascii "m")).map Message.status) = some .discarded := by
    decide +kernel
  obtain ⟨after, hafter, hstatus⟩ := Option.bind_eq_some_iff.mp hreplay
  obtain ⟨message, hget, hstatus⟩ := Option.map_eq_some_iff.mp hstatus
  obtain ⟨history, hrun⟩ := System.replayIf_run timely_of_check hafter
  have hdescribed := @terminal_fields_describe_status Sha256.polynomial _ _ _ hrun _ _ hget
  exact ⟨history, after, message, hrun, hget, hstatus, hdescribed.1.mpr (.inr hstatus)⟩

/-! ## An acknowledgement of a failed message -/

/-- A push of `m` by a service that gives up after one attempt, a retry that gives `m` up, and an
acknowledgement of `m`. -/
def lateAck : List (Choice Started Surroundings) :=
  List.flatten [
    [.start ⟨{ newService with maxAttempts := 1 }, .push requestM⟩], Choice.turns 0 5 (offline 1),
    [.start ⟨{ newService with maxAttempts := 1 }, .retryDue 10⟩],
    Choice.turns 1 6 (offline (31 * second)),
    [.start ⟨newService, .ack (ascii "c") (ascii "d") ⟨ascii "m", true⟩⟩],
    Choice.turns 2 3 (offline (32 * second))]

/-- Operations run one at a time, and in the end a delivered message has the reason for which it
was given up and the time of it. -/
theorem acknowledged_keeps_reason :
    ∃ (history : List CourierStep) (after : Courier) (message : Message),
      Run (@courier Sha256.polynomial) Sequential (Courier.initial 1) history after ∧
      after.Quiet ∧ after.state.store.messages.get? (ascii "m") = some message ∧
      message.status = .delivered ∧ message.terminalReason = terminalReasonMaxAttempts ∧
      message.terminalAt = 31 * second ∧ message.terminalPublishStatus = .disabled := by
  have hreplay : (((@courier Sha256.polynomial).replayIf sequentialCheck (Courier.initial 1)
      lateAck).bind fun after : Courier =>
        (after.state.store.messages.get? (ascii "m")).map fun message =>
          decide ((∀ thread ∈ after.threads, thread.prog.result?.isSome) ∧
            message.status = .delivered ∧ message.terminalReason = terminalReasonMaxAttempts ∧
            message.terminalAt = 31 * second ∧ message.terminalPublishStatus = .disabled)) =
      some true := by
    decide +kernel
  obtain ⟨after, hafter, hchecked⟩ := Option.bind_eq_some_iff.mp hreplay
  obtain ⟨message, hget, hchecked⟩ := Option.map_eq_some_iff.mp hchecked
  obtain ⟨hquiet, hfields⟩ := of_decide_eq_true hchecked
  obtain ⟨history, hrun⟩ := System.replayIf_run sequential_of_check hafter
  exact ⟨history, after, message, hrun, hquiet, hget, hfields⟩

end ZCourier.Downlink
