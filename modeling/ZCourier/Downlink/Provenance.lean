import ZCourier.Downlink.Idempotency
import ZCourier.Downlink.Inert

/-!
# Where stored messages come from

The store is written by nine operations whose calls interleave. `stored_messages_submitted` says
that none of them invents, readdresses or alters a message: what is stored is what one of the
pushes submitted, under the policy its service gives the message type.
-/

namespace ZCourier.Downlink

open Go Library

/-- What a message keeps of the push that submitted it. -/
structure Message.SubmittedBy (message : Message) (svc : Service) (req : PushRequest) : Prop where
  id : req.messageID ≠ [] → message.messageID = req.messageID
  identity : message.identity = req.identity
  body : message.body = req.body
  traceID : message.traceID = req.traceID
  policy : message.policy = svc.deliveryPolicy req.msgID

section

variable [Sha256] {p : Started → Prop} {env : StoreEnv}

theorem submittedBy_prepared {svc : Service} {req : PushRequest} {messageID : GoString} {now : Int}
    (hid : req.messageID ≠ [] → messageID = req.messageID) :
    (MemoryStore.prepareMessage (svc.submittedMessage req messageID now) env).SubmittedBy svc
      req := by
  refine ⟨fun hchosen => ?_, submittedMessage_identity svc req messageID now, ?_, ?_, ?_⟩
  · simp [MemoryStore.prepareMessage, hid hchosen, hchosen]
  all_goals
    unfold MemoryStore.prepareMessage Service.submittedMessage
    dsimp only
    split <;> rfl

omit [Sha256] in
theorem Message.SubmittedBy.kept {message message' : Message} {svc : Service} {req : PushRequest}
    (h : message.SubmittedBy svc req) (horigin : message'.origin = message.origin) :
    message'.SubmittedBy svc req where
  id hchosen := (Origin.messageID_eq horigin).trans (h.id hchosen)
  identity := (Origin.identity_eq horigin).trans h.identity
  body := (congrArg Origin.body horigin).trans h.body
  traceID := (congrArg Origin.traceID horigin).trans h.traceID
  policy := (Origin.policy_eq horigin).trans h.policy

/-- Every stored message was submitted by one of the pushes among the operations. -/
def MemoryStore.Submitted (p : Started → Prop) (s : MemoryStore) : Prop :=
  ∀ id message, s.messages.get? id = some message →
    ∃ svc req, p ⟨svc, .push req⟩ ∧ message.SubmittedBy svc req

theorem MemoryStore.Submitted.step {s s' : MemoryStore} {call : StoreCall} {started : Started}
    (h : s.Submitted p) (hp : p started) (hmakes : started.Makes call)
    (hstep : StoreStep env s call s') : s'.Submitted p := by
  intro id message hget
  have hslot := hstep.slot id
  rw [hget] at hslot
  generalize hbefore : s.messages.get? id = before at hslot
  generalize hafter : some message = after at hslot
  cases hslot with
  | same => exact h id message (hbefore.trans hafter.symm)
  | created =>
    obtain rfl := Option.some.inj hafter
    obtain ⟨req, messageID, now, hop, hid, rfl, -⟩ := hmakes
    obtain ⟨svc, op⟩ := started
    obtain rfl : op = .push req := hop
    exact ⟨svc, req, hp, submittedBy_prepared hid⟩
  | edited _ hedit =>
    obtain rfl := Option.some.inj hafter
    obtain ⟨svc, req, hpush, hsubmitted⟩ := h id _ hbefore
    exact ⟨svc, req, hpush, hsubmitted.kept hedit.origin_eq⟩
  | removed => cases hafter

/-- In every interleaving a stored message has the id, addressee, content, trace and policy with
which one of the started pushes submitted it. -/
theorem stored_messages_submitted {clock : Int} {history : List CourierStep} {after : Courier}
    (h : Run courier (CourierStep.Starts p) (Courier.initial clock) history after) {id : GoString}
    {message : Message} (hget : after.state.store.messages.get? id = some message) :
    ∃ svc req, p ⟨svc, .push req⟩ ∧ message.SubmittedBy svc req := by
  have hsubmitted : after.state.store.Submitted p :=
    store_invariant (by intro _ _ hget; simp [MemoryStore.new] at hget)
      (fun hinv hp hmakes hstep => hinv.step hp hmakes hstep) h
  exact hsubmitted id message hget

end

/-- After a push of `m` and its acknowledgement, what is stored is what was pushed. -/
theorem stored_messages_submitted_acknowledged :
    ∃ (history : List CourierStep) (after : Courier) (message : Message),
      Run (@courier Sha256.polynomial)
        (CourierStep.Starts fun started => ∀ req, started.operation = .push req → req = requestM)
        (Courier.initial 1) history after ∧
      after.state.store.messages.get? (ascii "m") = some message ∧
      message.status = .delivered ∧ message.identity = requestM.identity := by
  have hreplay : (((@courier Sha256.polynomial).replay (Courier.initial 1) pushThenAck).bind
      fun after : Courier => (after.state.store.messages.get? (ascii "m")).map Message.status) =
      some .delivered := by decide +kernel
  obtain ⟨after, hafter, hstatus⟩ := Option.bind_eq_some_iff.mp hreplay
  obtain ⟨message, hget, hstatus⟩ := Option.map_eq_some_iff.mp hstatus
  obtain ⟨history, hrun⟩ := System.replay_run
    (fun choice => ∀ started, choice = .start started →
      ∀ req, started.operation = .push req → req = requestM) hafter (by
        simp [pushThenAck, Choice.turns, eq_comm])
  obtain ⟨svc, req, hreq, hsubmitted⟩ :=
    @stored_messages_submitted Sha256.polynomial _ _ _ _ hrun _ _ hget
  exact ⟨history, after, message, hrun, hget, hstatus, hreq req rfl ▸ hsubmitted.identity⟩

end ZCourier.Downlink
