import ZCourier.Downlink.Calls
import ZCourier.Downlink.Finality

/-!
# Resubmitted messages

`Push` with a message id that is already stored creates nothing and delivers nothing, whatever the
queue capacity: `push_idempotent`. `conflicting_push_invalid` is a resubmission that is refused for
its missing client id instead. Fingerprints are compared, so SHA-256 is assumed to be injective on a
set that contains the hashed inputs of all pushes of the execution.
-/

namespace ZCourier.Downlink

open Go Library

/-! ## What a push does -/

/-- The answer of `pushReliable` to a save that created nothing. -/
def Service.savedAnswer : Except StoreError SaveResult → Option (Except ServiceError PushResponse)
  | .error (.capacity err) => some (.error (.capacity err))
  | .error err => some (.error (.store err))
  | .ok ⟨message, .existing⟩ =>
    some (.ok (Service.pushResponseFromStoredMessage message .existing))
  | .ok ⟨message, .conflict⟩ => some (.error (.messageIDConflict message.messageID))
  | .ok ⟨_, .created⟩ => none

namespace Service

theorem created_of_no_answer {saved : Except StoreError SaveResult}
    (h : savedAnswer saved = none) : ∃ message, saved = .ok ⟨message, .created⟩ := by
  rcases saved with err | ⟨message, outcome⟩
  · cases err <;> cases h
  · cases outcome with
    | created => exact ⟨message, rfl⟩
    | existing | conflict => cases h

theorem answer_not_created {saved : Except StoreError SaveResult} {resp : PushResponse}
    (h : savedAnswer saved = some (.ok resp)) : resp.submissionState ≠ .created := by
  rcases saved with err | ⟨message, outcome⟩
  · cases err <;> cases h
  · cases outcome <;> cases h
    simp [pushResponseFromStoredMessage]

end Service

def AttemptsDelivery (event : Event Effect Effect.Response) : Prop :=
  ∃ req, event.effect = .deliverOnline req

/-- The events of a finished push that passed validation and named a message id: it reads the
clock and saves, and stops there unless the save created the message. -/
def Service.PushLog (svc : Service) (req : PushRequest) (result : OperationResult)
    (log : List (Event Effect Effect.Response)) : Prop :=
  ∃ now saved rest,
    log = ⟨.now, now⟩ :: ⟨.store (.saveWithCapacity
      (svc.submittedMessage req req.messageID now) svc.admission), saved⟩ :: rest ∧
    ∀ answer, savedAnswer saved = some answer → rest = [] ∧ result = .pushed answer

namespace Service

variable {svc : Service} {req : PushRequest}

theorem pushReliable_log (hid : req.messageID ≠ []) :
    (svc.pushReliable req >>= fun result => pure (.pushed result)).Meets
      (.protocol (fun _ _ => True) fun _ _ => True) (svc.PushLog req) [] := by
  rw [pushReliable, chosenMessageID, if_neg hid]
  refine ⟨trivial, ?_⟩
  rintro now log ⟨-, rfl⟩
  refine ⟨trivial, ?_⟩
  rintro saved log ⟨-, rfl⟩
  have hdone : ∀ answer, savedAnswer saved = some answer →
      svc.PushLog req (.pushed answer) ([] ++ [⟨.now, now⟩] ++ [⟨.store (.saveWithCapacity
        (svc.submittedMessage req req.messageID now) svc.admission), saved⟩]) := by
    intro answer hanswer
    refine ⟨now, saved, [], rfl, fun answer' h => ⟨rfl, ?_⟩⟩
    rw [Option.some.inj (hanswer.symm.trans h)]
  rcases saved with err | ⟨message, outcome⟩
  · cases err <;> exact hdone _ rfl
  · cases outcome with
    | existing | conflict => exact hdone _ rfl
    | created =>
      refine (Prog.meets_extends _ _).mono ?_
      rintro result log ⟨rest, rfl⟩
      exact ⟨now, _, rest, rfl, fun answer h => by cases h⟩

theorem run_push_log (hid : req.messageID ≠ []) :
    (svc.run (.push req)).Meets (.protocol (fun _ _ => True) fun _ _ => True)
      (fun result log => (∃ err, validatePushRequest req = some err ∧ log = [] ∧
          result = .pushed (.error err)) ∨
        validatePushRequest req = none ∧ svc.PushLog req result log) [] := by
  rw [run, push]
  split
  · next err herr => exact .inl ⟨err, herr, rfl, rfl⟩
  · next hvalid => exact (pushReliable_log hid).mono fun _ _ h => .inr ⟨hvalid, h⟩

end Service

/-! ## Stored identities -/

section

variable [Sha256] {inputs : Set Bytes} {env : StoreEnv} {s s' : MemoryStore} {call : StoreCall}

/-- An identity the encoding is injective on, with its hashed inputs among `inputs`. -/
def Identity.Hashed (inputs : Set Bytes) (identity : Identity) : Prop :=
  identity.Fits ∧ hashedInputs identity ⊆ inputs

/-- The operation, if it is a push, has such an identity. -/
def Started.Hashed (inputs : Set Bytes) (started : Started) : Prop :=
  ∀ req, started.operation = .push req → req.identity.Hashed inputs

/-- Stored messages carry the fingerprint of such an identity. -/
def MemoryStore.Fingerprinted (inputs : Set Bytes) (s : MemoryStore) : Prop :=
  ∀ id message, s.messages.get? id = some message →
    message.identityFingerprint = messageIdentityFingerprint message ∧
      message.identity.Hashed inputs

omit [Sha256] in
@[simp] theorem submittedMessage_identity (svc : Service) (req : PushRequest)
    (messageID : GoString) (now : Int) :
    (svc.submittedMessage req messageID now).identity = req.identity := by
  unfold Service.submittedMessage
  dsimp only
  split <;> rfl

omit [Sha256] in
@[simp] theorem submittedMessage_messageID (svc : Service) (req : PushRequest)
    (messageID : GoString) (now : Int) :
    (svc.submittedMessage req messageID now).messageID = messageID := by
  unfold Service.submittedMessage
  dsimp only
  split <;> rfl

theorem fingerprint_congr {a b : Message} (h : a.identity = b.identity) :
    messageIdentityFingerprint a = messageIdentityFingerprint b := by
  rw [messageIdentityFingerprint, messageIdentityFingerprint, h]

/-- A change keeps the fingerprint, unless it computes it. -/
theorem MessageEdit.fingerprint {message message' : Message}
    (h : MessageEdit env s call message message')
    (hstored : message.identityFingerprint = messageIdentityFingerprint message) :
    message'.identityFingerprint = messageIdentityFingerprint message' := by
  rw [fingerprint_congr (Message.Origin.identity_eq h.origin_eq), ← hstored]
  cases h with
  | refreshed => exact hstored.symm
  | failed | discarded => exact MemoryStore.terminalMessage_identityFingerprint
  | claimed | sent | delivered | attemptFailed | requeued | published | publishFailed => rfl

/-- The calls of hashed operations keep the stored fingerprints right. -/
theorem MemoryStore.Fingerprinted.step {started : Started} (h : s.Fingerprinted inputs)
    (hstarted : started.Hashed inputs) (hmakes : started.Makes call)
    (hstep : StoreStep env s call s') : s'.Fingerprinted inputs := by
  intro id message hget
  have hslot := hstep.slot id
  generalize hbefore : s.messages.get? id = slot at hslot
  rw [hget] at hslot
  cases hslot with
  | same => exact h id message hbefore
  | created hid =>
    obtain ⟨req, messageID, now, hop, -, rfl, -⟩ := hmakes
    refine ⟨rfl, ?_⟩
    have hidentity : (MemoryStore.prepareMessage
        (started.service.submittedMessage req messageID now) env).identity = req.identity :=
      submittedMessage_identity ..
    exact hidentity ▸ hstarted req hop
  | edited hid hedit =>
    obtain ⟨hfingerprint, hhashed⟩ := h id _ hbefore
    exact ⟨hedit.fingerprint hfingerprint, Message.Origin.identity_eq hedit.origin_eq ▸ hhashed⟩

variable {capacity : QueueCapacity}

theorem save_of_stored {stored message : Message} (hinj : Set.InjOn Sha256.sum256 inputs)
    (h : s.Fingerprinted inputs) (hctx : env.ctxErr = none) (hid : message.messageID ≠ [])
    (hget : s.messages.get? message.messageID = some stored)
    (hhashed : message.identity.Hashed inputs) : s.saveWithCapacity env message capacity =
      (.ok ⟨stored, if stored.identity = message.identity then .existing else .conflict⟩, s) := by
  obtain ⟨hfingerprint, hstored⟩ := h _ _ hget
  have hlength : stored.identityFingerprint.length = 32 := by simp [hfingerprint]
  have hsame : messagesHaveSameIdentity stored (MemoryStore.prepareMessage message env) =
      decide (stored.identity = message.identity) := by
    have hprepared : identityFingerprint (MemoryStore.prepareMessage message env) =
        messageIdentityFingerprint message := by
      rw [identityFingerprint,
        if_pos (show (MemoryStore.prepareMessage message env).identityFingerprint.length = 32 from
          length_fingerprint _)]
      rfl
    rw [messagesHaveSameIdentity, hprepared, identityFingerprint, if_pos hlength, hfingerprint]
    exact decide_eq_decide.mpr
      (fingerprint_inj hinj hstored.1 hhashed.1 hstored.2 hhashed.2)
  have hprepared : (MemoryStore.prepareMessage message env).messageID = message.messageID := by
    simp [MemoryStore.prepareMessage, hid]
  have hsaved := MemoryStore.saveWithCapacity_saved s env message capacity
  generalize hanswer : (s.saveWithCapacity env message capacity).1 = answer at hsaved
  generalize hafter : (s.saveWithCapacity env message capacity).2 = after at hsaved
  suffices hboth : answer = .ok ⟨stored,
      if stored.identity = message.identity then .existing else .conflict⟩ ∧ after = s from
    Prod.ext (hanswer.trans hboth.1) (hafter.trans hboth.2)
  cases hsaved with
  | context hlive => simp [hctx] at hlive
  | @existing stored' _ hget' =>
    rw [hprepared, hget] at hget'
    obtain rfl := Option.some.inj hget'
    simp [Message.fingerprinted, hlength, hsame]
  | refused _ hnone | created _ hnone => simp [hprepared, hget] at hnone

theorem save_unchanged {saved : Except StoreError SaveResult} {message : Message}
    {answer : Except ServiceError PushResponse} (hstore : s.Fingerprinted inputs)
    (hanswer : Service.savedAnswer saved = some answer)
    (h : (saved, s') = s.saveWithCapacity env message capacity) : s' = s := by
  have hsaved := MemoryStore.saveWithCapacity_saved s env message capacity
  rw [← h] at hsaved
  generalize hafter : s' = after at hsaved
  cases hsaved with
  | context | refused => rfl
  | @existing stored _ hget =>
    have hlength : stored.identityFingerprint.length = 32 := by simp [(hstore _ _ hget).1]
    exact if_pos hlength
  | created => cases hanswer

theorem save_of_created {created message : Message} (hid : message.messageID ≠ [])
    (h : (.ok ⟨created, .created⟩, s') = s.saveWithCapacity env message capacity) :
    s.messages.get? message.messageID = none ∧
      s'.messages.get? message.messageID = some created := by
  have hprepared : (MemoryStore.prepareMessage message env).messageID = message.messageID := by
    simp [MemoryStore.prepareMessage, hid]
  have hsaved := MemoryStore.saveWithCapacity_saved s env message capacity
  rw [← h] at hsaved
  obtain ⟨rfl, hget, rfl⟩ := hsaved.created_inv
  rw [← hprepared]
  exact ⟨hget, Table.get?_put_self⟩

/-! ## Pushes in an execution -/

/-- Thread `i` is a push of `req` that has returned. -/
def Courier.Pushed (config : Courier) (i : Nat) (req : PushRequest)
    (log : List (Event Effect Effect.Response)) (result : Except ServiceError PushResponse) :
    Prop :=
  ∃ svc, config.threads[i]? = some ⟨⟨svc, .push req⟩, log, .ret (.pushed result)⟩

/-- The transition is a step of thread `i`. -/
def CourierStep.By (t : CourierStep) (i : Nat) : Prop :=
  ∃ input, t.choice = .act i input

/-- The transition is a save by thread `i`. -/
def CourierStep.Saves (t : CourierStep) (i : Nat) (env : StoreEnv) : Prop :=
  t.By i ∧ ∃ message capacity, t.call? = some (.saveWithCapacity message capacity, env)

/-- The transition is a save by thread `i` that stores a message under an id at which there was
none. -/
def CourierStep.Creates (t : CourierStep) (i : Nat) (id : GoString) : Prop :=
  (∃ env, t.Saves i env) ∧ t.before.state.store.messages.get? id = none ∧
    ∃ message, t.after.state.store.messages.get? id = some message

/-- Between two saves of the execution that create the message, one by each of two threads, the
message is removed. -/
def RemovedBetween (history : List CourierStep) (id : GoString) (i j : Nat) : Prop :=
  ∃ before first between second later,
    history = before ++ first :: (between ++ second :: later) ∧ first.Creates i id ∧
      second.Creates j id ∧ ∃ t ∈ between, t.Removes id

variable {ok : CourierStep → Prop} {clock : Int} {history : List CourierStep} {after : Courier}
  {i : Nat} {req : PushRequest} {log : List (Event Effect Effect.Response)}
  {result : Except ServiceError PushResponse} {id : GoString}

theorem pushed_log (h : Run courier ok (Courier.initial clock) history after) {svc : Service}
    (hthread : after.threads[i]? = some ⟨⟨svc, .push req⟩, log, .ret (.pushed result)⟩)
    (hid : req.messageID ≠ []) :
    (∃ err, Service.validatePushRequest req = some err ∧ log = [] ∧ result = .error err) ∨
      Service.validatePushRequest req = none ∧ svc.PushLog req (.pushed result) log := by
  have hfollows : after.Follows (fun _ _ _ => True) (fun _ _ => True)
      (fun started result log => ∀ req, started.operation = .push req → req.messageID ≠ [] →
        (∃ err, Service.validatePushRequest req = some err ∧ log = [] ∧
          result = .pushed (.error err)) ∨
        Service.validatePushRequest req = none ∧ started.service.PushLog req result log) := by
    refine h.follows ?_
    rintro ⟨svc, op⟩
    by_cases hpush : ∃ req, op = .push req ∧ req.messageID ≠ []
    · obtain ⟨req, rfl, hid⟩ := hpush
      refine (Service.run_push_log hid).mono ?_
      rintro result log hlog req' hop -
      obtain rfl := Operation.push.inj hop
      exact hlog
    · exact (Prog.meets_extends _ _).mono fun _ _ _ req hop hid =>
        absurd ⟨req, hop, hid⟩ hpush
  have hresult := hfollows _ (List.mem_of_getElem? hthread) req rfl hid
  rcases hresult with ⟨err, hinvalid, hnil, hreturned⟩ | hlog
  · exact .inl ⟨err, hinvalid, hnil, OperationResult.pushed.inj hreturned⟩
  · exact .inr hlog

theorem push_save {svc : Service} {now : Int} {saved : Except StoreError SaveResult}
    {message : Message} {rest : List (Event Effect Effect.Response)}
    (h : Run courier ok (Courier.initial clock) history after)
    (hthread : after.threads[i]? = some ⟨⟨svc, .push req⟩,
      ⟨.now, now⟩ :: ⟨.store (.saveWithCapacity message capacity), saved⟩ :: rest,
      .ret (.pushed result)⟩) : ∃ save ∈ history, ∃ env, save.Saves i env ∧
      (saved, save.after.state.store) =
        save.before.state.store.saveWithCapacity env message capacity := by
  obtain ⟨save, hmem, input, next, hchoice, hbefore, hexec⟩ := h.performed hthread
    (show _ = [⟨.now, now⟩] ++
    ⟨.store (.saveWithCapacity message capacity), saved⟩ :: rest from rfl)
  refine ⟨save, hmem, input.env, ⟨⟨input, hchoice⟩, message, capacity, ?_⟩, ?_⟩
  · simp only [CourierStep.call?, hchoice, hbefore]
  · obtain ⟨hsaved, hstate⟩ := Prod.mk.inj (Option.some.inj hexec)
    exact Prod.ext hsaved.symm (congrArg World.store hstate).symm

theorem created_by_transition (h : Run courier ok (Courier.initial clock) history after)
    {resp : PushResponse} (hpushed : after.Pushed i req log (.ok resp))
    (hid : req.messageID ≠ []) (hcreated : resp.submissionState = .created) :
    ∃ t ∈ history, t.Creates i req.messageID := by
  obtain ⟨svc, hthread⟩ := hpushed
  rcases pushed_log h hthread hid with ⟨err, -, -, herr⟩ | ⟨-, now, saved, rest, rfl, hanswer⟩
  · cases herr
  obtain ⟨save, hmem, env, hsaves, hsave⟩ := push_save h hthread
  cases hsome : Service.savedAnswer saved with
  | some answer =>
    obtain ⟨-, hresult⟩ := hanswer answer hsome
    cases hresult
    exact absurd hcreated (Service.answer_not_created hsome)
  | none =>
    obtain ⟨message, rfl⟩ := Service.created_of_no_answer hsome
    have hstored := save_of_created (by rwa [submittedMessage_messageID]) hsave
    rw [submittedMessage_messageID] at hstored
    exact ⟨save, hmem, ⟨env, hsaves⟩, hstored.1, message, hstored.2⟩

theorem removed_between {start : Courier} {earlier between later : List CourierStep}
    {first second : CourierStep} {j : Nat}
    (h : Run courier ok start (earlier ++ first :: (between ++ second :: later)) after)
    (hfirst : first.Creates i id) (hsecond : second.Creates j id) :
    ∃ t ∈ between, t.Removes id := by
  obtain ⟨-, -, message, hstored⟩ := hfirst
  obtain ⟨-, hmissing, -⟩ := hsecond
  obtain ⟨_, -, hrest⟩ := h.append_inv
  obtain ⟨_, hbetween, hlater⟩ := hrest.cons_inv.2.append_inv
  obtain ⟨rfl, -⟩ := hlater.cons_inv
  rcases kept_until_removed (p := fun _ => True) (fun _ _ _ _ h => h) hbetween hstored trivial with
    hremoved | ⟨message', hget, -⟩
  · exact hremoved
  · simp [hget] at hmissing

theorem created_once (h : Run courier ok (Courier.initial clock) history after) {j : Nat}
    {req' : PushRequest} {log' : List (Event Effect Effect.Response)} {resp resp' : PushResponse}
    (hid : id ≠ []) (hij : i ≠ j) (hfirst : after.Pushed i req log (.ok resp))
    (hsecond : after.Pushed j req' log' (.ok resp')) (hreq : req.messageID = id)
    (hreq' : req'.messageID = id) (hcreated : resp.submissionState = .created)
    (hcreated' : resp'.submissionState = .created) :
    RemovedBetween history id i j ∨ RemovedBetween history id j i := by
  obtain ⟨t, ht, hcreates⟩ := created_by_transition h hfirst (hreq ▸ hid) hcreated
  obtain ⟨u, hu, hcreates'⟩ := created_by_transition h hsecond (hreq' ▸ hid) hcreated'
  rw [hreq] at hcreates
  rw [hreq'] at hcreates'
  obtain ⟨front, back, rfl⟩ := List.append_of_mem ht
  rcases List.mem_append.mp hu with hu | hu
  · obtain ⟨earlier, between, rfl⟩ := List.append_of_mem hu
    simp only [List.append_assoc, List.cons_append] at h ⊢
    exact .inr ⟨earlier, u, between, t, back, rfl, hcreates', hcreates,
      removed_between h hcreates' hcreates⟩
  · rcases List.mem_cons.mp hu with rfl | hu
    · obtain ⟨⟨_, ⟨input, hinput⟩, -⟩, -⟩ := hcreates
      obtain ⟨⟨_, ⟨input', hinput'⟩, -⟩, -⟩ := hcreates'
      cases hinput.symm.trans hinput'
      exact absurd rfl hij
    · obtain ⟨between, later, rfl⟩ := List.append_of_mem hu
      exact .inl ⟨front, t, between, u, later, rfl, hcreates, hcreates',
        removed_between h hcreates hcreates'⟩

theorem fingerprinted_of_run
    (h : Run courier (CourierStep.Starts (Started.Hashed inputs)) (Courier.initial clock) history
      after) : after.state.store.Fingerprinted inputs :=
  store_invariant (by intro _ _ hget; simp [MemoryStore.new] at hget)
    (fun hinv hstarted hmakes hstep => hinv.step hstarted hmakes hstep) h

/-- A returned push that met a stored message changed nothing, delivered nothing, and answered by
comparing identities. -/
theorem pushed_stored (hinj : Set.InjOn Sha256.sum256 inputs)
    (h : Run courier (CourierStep.Starts (Started.Hashed inputs)) (Courier.initial clock) history
      after) (hpushed : after.Pushed i req log result) (hid : req.messageID ≠ [])
    (hvalid : Service.validatePushRequest req = none) :
    ∃ save ∈ history, ∃ env, save.Saves i env ∧ (env.ctxErr = none →
      ∀ stored, save.before.state.store.messages.get? req.messageID = some stored →
        (∀ t ∈ history, t.By i → t.after.state.store = t.before.state.store) ∧
        (∀ event ∈ log, ¬AttemptsDelivery event) ∧
        result = if stored.identity = req.identity then
            .ok (Service.pushResponseFromStoredMessage stored .existing)
          else .error (.messageIDConflict req.messageID)) := by
  obtain ⟨svc, hthread⟩ := hpushed
  rcases pushed_log h hthread hid with ⟨err, hinvalid, -⟩ | ⟨-, now, saved, rest, rfl, hanswer⟩
  · simp [hvalid] at hinvalid
  obtain ⟨save, hmem, env, hsaves, hsave⟩ := push_save h hthread
  refine ⟨save, hmem, env, hsaves, fun hctx stored hget => ?_⟩
  obtain ⟨⟨earlier, hearlier⟩, -⟩ := h.transition hmem
  have hhashed : req.identity.Hashed inputs :=
    h.started (fun hok => hok _ rfl) _ (List.mem_of_getElem? hthread) req rfl
  rw [save_of_stored hinj (fingerprinted_of_run hearlier) hctx (by rwa [submittedMessage_messageID])
    (by rwa [submittedMessage_messageID]) (by rwa [submittedMessage_identity]),
    submittedMessage_identity] at hsave
  obtain ⟨rfl, -⟩ := Prod.mk.inj hsave
  obtain ⟨answer, hsome⟩ : ∃ answer, Service.savedAnswer (.ok ⟨stored,
      if stored.identity = req.identity then .existing else .conflict⟩) = some answer := by
    split <;> exact ⟨_, rfl⟩
  obtain ⟨rfl, hresult⟩ := hanswer answer hsome
  refine ⟨fun t ht hby => ?_, ?_, ?_⟩
  · obtain ⟨input, hchoice⟩ := hby
    obtain ⟨thread, front, event, back, hthread', hlog, input', next, -, -, hexec⟩ :=
      h.logged ht hchoice
    obtain rfl := Option.some.inj (hthread.symm.trans hthread')
    obtain ⟨⟨earlier', hearlier'⟩, -⟩ := h.transition ht
    rcases front with _ | ⟨_, _ | ⟨_, front⟩⟩
    · obtain ⟨rfl, -⟩ := List.cons.inj hlog
      obtain ⟨-, hstate⟩ := Prod.mk.inj (Option.some.inj hexec)
      exact (congrArg World.store hstate).symm
    · obtain ⟨rfl, -⟩ := List.cons.inj (List.cons.inj hlog).2
      obtain ⟨hsaved, hstate⟩ := Prod.mk.inj (Option.some.inj hexec)
      exact save_unchanged (fingerprinted_of_run hearlier') hsome
        (Prod.ext hsaved.symm (congrArg World.store hstate).symm)
    · simp at hlog
  · simp [AttemptsDelivery]
  · rw [OperationResult.pushed.inj hresult]
    have hkey : stored.messageID = req.messageID := Table.key_of_get? hget
    split at hsome
    · next hsame =>
      rw [if_pos hsame]
      exact (Option.some.inj hsome).symm
    · next hdiffers =>
      rw [if_neg hdiffers, ← hkey]
      exact (Option.some.inj hsome).symm

/-- In every interleaving of operations, for every message id: between two removals of the id at
most one push with it is answered with `created`; and every push with it that passes validation,
has a live context at its save and meets a stored message changes nothing, delivers nothing, and is
answered with that message if the identities agree and with `ErrMessageIDConflict` otherwise. -/
theorem push_idempotent (hinj : Set.InjOn Sha256.sum256 inputs)
    (h : Run courier (CourierStep.Starts (Started.Hashed inputs)) (Courier.initial clock) history
      after) (hid : id ≠ []) :
    (∀ {i j req req' log log' resp resp'}, i ≠ j → after.Pushed i req log (.ok resp) →
      after.Pushed j req' log' (.ok resp') → req.messageID = id → req'.messageID = id →
      resp.submissionState = .created → resp'.submissionState = .created →
      RemovedBetween history id i j ∨ RemovedBetween history id j i) ∧
    (∀ {i req log result}, after.Pushed i req log result → req.messageID = id →
      Service.validatePushRequest req = none →
      ∃ save ∈ history, ∃ env, save.Saves i env ∧ (env.ctxErr = none →
        ∀ stored, save.before.state.store.messages.get? id = some stored →
          (∀ t ∈ history, t.By i → t.after.state.store = t.before.state.store) ∧
          (∀ event ∈ log, ¬AttemptsDelivery event) ∧
          result = if stored.identity = req.identity then
              .ok (Service.pushResponseFromStoredMessage stored .existing)
            else .error (.messageIDConflict id))) := by
  constructor
  · intro i j req req' log log' resp resp' hij hfirst hsecond hreq hreq' hcreated hcreated'
    exact created_once h hid hij hfirst hsecond hreq hreq' hcreated hcreated'
  · rintro i req log result hpushed rfl hvalid
    exact pushed_stored hinj h hpushed hid hvalid

end

/-- Two pushes of `m`, one after the other. -/
def pushTwice : List (Choice Started Surroundings) :=
  List.flatten [
    [.start ⟨newService, .push requestM⟩], Choice.turns 0 5 calm,
    [.start ⟨newService, .push requestM⟩], Choice.turns 1 2 calm]

theorem Courier.pushed_of_outcome? {config : Courier} {i : Nat} {svc : Service}
    {req : PushRequest} {result : Except ServiceError PushResponse}
    (h : config.outcome? i = some (⟨svc, .push req⟩, some (.pushed result))) :
    ∃ log, config.Pushed i req log result := by
  obtain ⟨⟨tag, log, prog⟩, hthread, hthread'⟩ := Option.map_eq_some_iff.mp h
  obtain ⟨rfl, hresult⟩ := Prod.mk.inj hthread'
  cases prog with
  | ret value =>
    obtain rfl := Option.some.inj hresult
    exact ⟨log, svc, hthread⟩
  | perform => cases hresult

/-- The second push of `m` has its save, and it is answered with the stored message. -/
theorem push_idempotent_twice :
    ∃ (history : List CourierStep) (after : Courier)
      (log : List (Event Effect Effect.Response)) (resp : PushResponse),
      Run (@courier Sha256.polynomial)
        (CourierStep.Starts (@Started.Hashed Sha256.polynomial
          (@hashedInputs Sha256.polynomial requestM.identity)))
        (Courier.initial 1) history after ∧
      after.Pushed 1 requestM log (.ok resp) ∧ resp.submissionState = .existing ∧
      ∃ save ∈ history, ∃ env, save.Saves 1 env := by
  have hreplay : (((@courier Sha256.polynomial).replay (Courier.initial 1) pushTwice).bind
      fun config : Courier => config.outcome? 1) =
      some (⟨newService, .push requestM⟩, some (.pushed (.ok
        (Service.pushResponseFromStoredMessage
          ((messageFromPushRequest requestM (ascii "m") 1).sent [] 1 0 1) .existing)))) := by
    decide +kernel
  obtain ⟨after, hafter, houtcome⟩ := Option.bind_eq_some_iff.mp hreplay
  obtain ⟨log, hpushed⟩ := Courier.pushed_of_outcome? houtcome
  obtain ⟨history, hrun⟩ := System.replay_run
    (fun choice => ∀ started, choice = .start started →
      @Started.Hashed Sha256.polynomial (@hashedInputs Sha256.polynomial requestM.identity) started)
    hafter (by
      rintro choice hchoice started rfl req hop
      have hpush : started = ⟨newService, .push requestM⟩ := by
        simpa [pushTwice, Choice.turns, List.mem_replicate] using hchoice
      subst hpush
      obtain rfl : requestM = req := Operation.push.inj hop
      exact ⟨⟨by decide, by decide⟩, subset_rfl⟩)
  have hinj : Set.InjOn (@Sha256.sum256 Sha256.polynomial)
      (@hashedInputs Sha256.polynomial requestM.identity) := by
    rintro a (rfl | rfl) b (rfl | rfl) hab
    · rfl
    · exact absurd hab (by decide +kernel)
    · exact absurd hab (by decide +kernel)
    · rfl
  have hidempotent := @push_idempotent Sha256.polynomial _ _ _ _ (ascii "m") hinj hrun (by decide)
  obtain ⟨save, hmem, env, hsaves, -⟩ := hidempotent.2 hpushed (by decide) (by decide)
  exact ⟨history, after, log, _, hrun, hpushed, rfl, save, hmem, env, hsaves⟩

/-- A request for the message `m` without a client id. -/
def requestWithoutClient : PushRequest := { requestM with clientID := [] }

/-- A push that differs from the stored message and is refused for its missing client id. -/
theorem conflicting_push_invalid :
    ∃ (history : List CourierStep) (before : Courier) (message : Message) (after : Courier),
      Run (@courier Sha256.polynomial) (fun _ => True) (Courier.initial 1) history before ∧
      before.state.store.messages.get? (ascii "m") = some message ∧
      requestWithoutClient.messageID = ascii "m" ∧
      message.identity ≠ requestWithoutClient.identity ∧
      Step (@courier Sha256.polynomial) before (.start ⟨newService, .push requestWithoutClient⟩)
        after ∧
      after.Pushed 1 requestWithoutClient [] (.error .missingClientID) := by
  have hreplay : (((@courier Sha256.polynomial).replay (Courier.initial 1)
      (.start ⟨newService, .push requestM⟩ :: Choice.turns 0 5 calm)).map
      fun config => ((config.state.store.messages.get? (ascii "m")).map Message.identity,
        config.threads.length)) = some (some requestM.identity, 1) := by
    decide +kernel
  obtain ⟨before, hbefore, hstate⟩ := Option.map_eq_some_iff.mp hreplay
  obtain ⟨hget, hthreads⟩ := Prod.mk.inj hstate
  obtain ⟨message, hget, hidentity⟩ := Option.map_eq_some_iff.mp hget
  obtain ⟨history, hrun⟩ := System.replay_run (fun _ => True) hbefore fun _ _ => trivial
  refine ⟨history, before, message, _, hrun, hget, rfl, ?_, .start rfl, newService, ?_⟩
  · rw [hidentity]
    decide
  · rw [← hthreads, List.getElem?_concat_length]
    rfl

end ZCourier.Downlink
