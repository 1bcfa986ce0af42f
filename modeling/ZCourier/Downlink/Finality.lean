import ZCourier.Downlink.System

/-!
# Delivered and discarded messages

`Requeue` and `Discard` of the service look at a message's status in one store call and change the
message in another, and the in-memory store does not look again. `requeue_overwrites_delivered` is
an execution in which an acknowledgement falls between the two; `final_status_kept` is what holds
otherwise.
-/

namespace ZCourier.Downlink

open Go Library

/-- A requeue or a discard that meets a status its service method would accept. -/
def StoreCall.RespectsFinal (s : MemoryStore) : StoreCall → Prop
  | .requeueWithCapacity messageID _ _ => ∀ message, s.messages.get? messageID = some message →
      message.status ≠ .delivered ∧ message.status ≠ .discarded
  | .discard messageID _ _ => ∀ message, s.messages.get? messageID = some message →
      message.status ≠ .delivered
  | _ => True

/-- Every requeue or discard among a transition's effects meets an acceptable status. -/
def CourierStep.RespectsFinal (t : CourierStep) : Prop :=
  ∀ call env, t.call? = some (call, env) → call.RespectsFinal t.before.state.store

def MessageStatus.FinalAfter (reached status : MessageStatus) : Prop :=
  status = .delivered ∨ reached = .discarded ∧ status = .discarded

section

variable [Sha256] {env : StoreEnv} {s : MemoryStore} {call : StoreCall}

theorem MessageEdit.final_after {message message' : Message} {reached : MessageStatus}
    (h : MessageEdit env s call message message') (hcall : call.RespectsFinal s)
    (hget : s.messages.get? message.messageID = some message)
    (hfinal : reached.FinalAfter message.status) : reached.FinalAfter message'.status := by
  cases h with
  | refreshed | claimed | published | publishFailed => exact hfinal
  | sent hdelivered hdiscarded | attemptFailed hdelivered hdiscarded
  | failed hdelivered hdiscarded =>
    rcases hfinal with h | ⟨-, h⟩
    · exact absurd h hdelivered
    · exact absurd h hdiscarded
  | delivered => exact .inl rfl
  | requeued =>
    obtain ⟨hdelivered, hdiscarded⟩ := hcall message hget
    rcases hfinal with h | ⟨-, h⟩
    · exact absurd h hdelivered
    · exact absurd h hdiscarded
  | discarded =>
    rcases hfinal with h | ⟨hreached, -⟩
    · exact absurd h (hcall message hget)
    · exact .inr ⟨hreached, MemoryStore.terminalMessage_status⟩

theorem final_status_run {before after : Courier} {history : List CourierStep} {id : GoString}
    {message : Message} {reached : MessageStatus}
    (h : Run courier CourierStep.RespectsFinal before history after)
    (hget : before.state.store.messages.get? id = some message)
    (hfinal : reached.FinalAfter message.status) :
    (∃ t ∈ history, t.Removes id) ∨
      ∃ message', after.state.store.messages.get? id = some message' ∧
        reached.FinalAfter message'.status :=
  kept_until_removed (p := fun message => reached.FinalAfter message.status)
    (fun hok hcall hget hedit => hedit.final_after (hok _ _ hcall) hget) h hget hfinal

/-- From any configuration, in every run in which requeues and discards meet acceptable
statuses: a delivered message stays delivered, and a discarded one stays discarded or becomes
delivered, until `DeleteExpired` removes it. -/
theorem final_status_kept {before after : Courier} {history : List CourierStep} {id : GoString}
    {message : Message} (h : Run courier CourierStep.RespectsFinal before history after)
    (hget : before.state.store.messages.get? id = some message)
    (hkept : ∀ t ∈ history, ¬t.Removes id) :
    (message.status = .delivered →
      ∃ message', after.state.store.messages.get? id = some message' ∧
        message'.status = .delivered) ∧
    (message.status = .discarded →
      ∃ message', after.state.store.messages.get? id = some message' ∧
        message'.status ≠ .pending ∧ message'.status ≠ .sent ∧ message'.status ≠ .failed) := by
  have hfinal : ∀ reached : MessageStatus, reached.FinalAfter message.status →
      ∃ message', after.state.store.messages.get? id = some message' ∧
        reached.FinalAfter message'.status := by
    intro reached hreached
    rcases final_status_run h hget hreached with ⟨t, ht, hremoves⟩ | hafter
    · exact absurd hremoves (hkept t ht)
    · exact hafter
  constructor
  · intro hstatus
    obtain ⟨message', hget', hafter⟩ := hfinal .delivered (.inl hstatus)
    rcases hafter with h | ⟨h, -⟩
    · exact ⟨message', hget', h⟩
    · cases h
  · intro hstatus
    obtain ⟨message', hget', hafter⟩ := hfinal .discarded (.inr ⟨rfl, hstatus⟩)
    rcases hafter with h | ⟨-, h⟩ <;> exact ⟨message', hget', by simp [h]⟩

end

/-- The message `m`, discarded, in a store of its own. -/
def discardedM : Courier :=
  .idle ⟨MemoryStore.new.putMessage
    { messageFromPushRequest requestM (ascii "m") 1 with status := .discarded }, 1⟩

/-- A step that removes nothing and whose requeue or discard meets an acceptable status. -/
def respectsFinalCheck (t : CourierStep) : Bool :=
  match t.call? with
  | some (.requeueWithCapacity id _ _, _) => (t.before.state.store.messages.get? id).all
      fun message => message.status ≠ .delivered ∧ message.status ≠ .discarded
  | some (.discard id _ _, _) => (t.before.state.store.messages.get? id).all
      fun message => message.status ≠ .delivered
  | some (.deleteExpired .., _) => false
  | _ => true

theorem respectsFinal_of_check {t : CourierStep} (h : respectsFinalCheck t = true) :
    t.RespectsFinal ∧ ∀ id, ¬ t.Removes id := by
  refine ⟨fun call env hcall => ?_, ?_⟩
  · rw [respectsFinalCheck, hcall] at h
    cases call with
    | requeueWithCapacity | discard =>
      intro message hget
      simpa [hget] using h
    | _ => trivial
  · rintro id ⟨⟨status, before, limit, env, hcall⟩, -⟩
    rw [respectsFinalCheck, hcall] at h
    contradiction

/-- The discarded `m` is discarded once more, acknowledged, and then requeued in vain. -/
def discardThenAck : List (Choice Started Surroundings) :=
  List.flatten [
    [.start ⟨newService, .discard (ascii "m") []⟩], Choice.turns 0 4 calm,
    [.start ⟨newService, .ack (ascii "c") (ascii "d") ⟨ascii "m", true⟩⟩], Choice.turns 1 3 calm,
    [.start ⟨newService, .requeue (ascii "m")⟩], Choice.turns 2 1 calm]

/-- The status of the message that an operation returns. -/
def OperationResult.status? : OperationResult → Option MessageStatus
  | .message (.ok found) => some found.status
  | _ => none

theorem final_status_kept_discard_ack :
    ∃ history after message,
      Run (@courier Sha256.polynomial) CourierStep.RespectsFinal discardedM history after ∧
      after.threads.map (·.prog.result?.map OperationResult.status?) =
        [some (some .discarded), some (some .delivered), some none] ∧
      after.state.store.messages.get? (ascii "m") = some message ∧
      message.status ≠ .pending ∧ message.status ≠ .sent ∧ message.status ≠ .failed := by
  have hreplay : (((@courier Sha256.polynomial).replayWhile respectsFinalCheck discardedM
      discardThenAck).map fun after : Courier =>
        after.threads.map (·.prog.result?.map OperationResult.status?)) =
      some [some (some .discarded), some (some .delivered), some none] := by
    decide +kernel
  obtain ⟨after, hafter, hresults⟩ := Option.map_eq_some_iff.mp hreplay
  obtain ⟨history, hrun⟩ := System.replayWhile_run respectsFinal_of_check hafter
  have hrespects := hrun.mono fun _ h => h.1
  have hkept := @final_status_kept Sha256.polynomial _ _ _ (ascii "m")
    { messageFromPushRequest requestM (ascii "m") 1 with status := .discarded } hrespects
    (by decide +kernel) fun t ht => (hrun.transition ht).2.2.2 _
  obtain ⟨message, hget, hstatus⟩ := hkept.2 rfl
  exact ⟨history, after, message, hrespects, hresults, hget, hstatus⟩

/-! ## An acknowledgement between the two calls of a requeue -/

/-- A push of `m`, the first call of a requeue of `m`, an acknowledgement of `m` and the
requeue's reading of the clock. -/
def lateRequeue : List (Choice Started Surroundings) :=
  List.flatten [
    [.start ⟨newService, .push requestM⟩], Choice.turns 0 5 calm,
    [.start ⟨newService, .requeue (ascii "m")⟩], Choice.turns 1 1 calm,
    [.start ⟨newService, .ack (ascii "c") (ascii "d") ⟨ascii "m", true⟩⟩], Choice.turns 2 3 calm,
    Choice.turns 1 1 calm]

/-- The store call of a requeue turns a message that has been delivered in the meantime back
into a pending one. -/
theorem requeue_overwrites_delivered :
    ∃ history delivered pending,
      Run (@courier Sha256.polynomial) (fun _ => True) (Courier.initial 1) history delivered ∧
      Step (@courier Sha256.polynomial) delivered (.act 1 calm) pending ∧
      statusOfM delivered = some .delivered ∧ statusOfM pending = some .pending := by
  have hreplay : (((@courier Sha256.polynomial).replay (Courier.initial 1) lateRequeue).bind
      fun before => ((@courier Sha256.polynomial).step before (.act 1 calm)).map
        fun after => (statusOfM before, statusOfM after)) =
      some (some .delivered, some .pending) := by decide +kernel
  obtain ⟨delivered, hdelivered, hstep⟩ := Option.bind_eq_some_iff.mp hreplay
  obtain ⟨pending, hpending, hstatus⟩ := Option.map_eq_some_iff.mp hstep
  obtain ⟨history, hrun⟩ := System.replay_run (fun _ => True) hdelivered fun _ _ => trivial
  obtain ⟨hbefore, hafter⟩ := Prod.mk.inj hstatus
  exact ⟨history, delivered, pending, hrun, System.step_sound hpending, hbefore, hafter⟩

end ZCourier.Downlink
