import ZCourier.Library.Interleaving
import ZCourier.Downlink.Service
import ZCourier.Downlink.StoreStep

/-!
# Service operations over one store

`courier` runs any number of service operations, of any number of differently configured services,
over one in-memory store. One step is one effect, so a store call is atomic and everything may
happen between two of them. `Surroundings` is what the world answers to an effect. `step_store` is
where every interleaving result starts: a step leaves the store alone or makes one call of it.
-/

namespace ZCourier.Downlink

open Go Library

/-- The shared state: the store and the time of the last step. -/
structure World where
  store : MemoryStore
  clock : Int

/-- What the surroundings supply to one step. -/
structure Surroundings where
  clock : Int
  ctxErr : Option ContextError
  messageID : GoString
  jitter : Int
  delivery : Except DeliveryError PushResponse
  publication : Option GoString

/-- What a store call reads from the surroundings. -/
def Surroundings.env (input : Surroundings) : StoreEnv :=
  ⟨input.ctxErr, input.clock, input.messageID⟩

/-- A started operation: the service it belongs to and its arguments. -/
structure Started where
  service : Service
  operation : Operation
  deriving DecidableEq

section

variable [Sha256]

def perform (effect : Effect) (input : Surroundings) (world : World) :
    effect.Response × World :=
  match effect with
  | .now => (input.clock, { world with clock := input.clock })
  | .ctxErr => (input.ctxErr, { world with clock := input.clock })
  | .newMessageID => (input.messageID, { world with clock := input.clock })
  | .jitter _ => (input.jitter, { world with clock := input.clock })
  | .deliverOnline _ => (input.delivery, { world with clock := input.clock })
  | .publish _ => (input.publication, { world with clock := input.clock })
  | .retryMessage _ => ((), { world with clock := input.clock })
  | .store call =>
    ((world.store.call input.env call).1, ⟨(world.store.call input.env call).2, input.clock⟩)

/-- Any number of operations over one store. -/
def courier : System World Started Effect Effect.Response Surroundings OperationResult where
  body started := started.service.run started.operation
  start _ world := some world
  exec effect input world := some (perform effect input world)

end

/-- A configuration of `courier`. -/
abbrev Courier := Config World Started Effect Effect.Response OperationResult

/-- A step of `courier` with the configurations around it. -/
abbrev CourierStep := Transition World Started Effect Effect.Response Surroundings OperationResult

/-- The store call a transition makes, with what it reads from the surroundings. -/
def CourierStep.call? (t : CourierStep) : Option (StoreCall × StoreEnv) :=
  match t.choice with
  | .start _ => none
  | .act i input =>
    match t.before.threads[i]? with
    | some ⟨_, _, .perform (.store call) _⟩ => some (call, input.env)
    | _ => none

/-- The transition is a call of `DeleteExpired` that removes the message. -/
def CourierStep.Removes (t : CourierStep) (id : GoString) : Prop :=
  (∃ status before limit env, t.call? = some (.deleteExpired status before limit, env)) ∧
    (t.before.state.store.messages.get? id).isSome ∧
    t.after.state.store.messages.get? id = none

/-- No operation has started and the store is empty. -/
def Courier.initial (clock : Int) : Courier := .idle ⟨.new, clock⟩

/-! A request and surroundings with which concrete executions are replayed. -/

/-- A request for the message `m` of device `d` of client `c`. -/
def requestM : PushRequest := ⟨ascii "c", ascii "d", 7, ascii "m", [], true, none⟩

/-- Surroundings in which the clock shows 1 and deliveries succeed. -/
def calm : Surroundings where
  clock := 1
  ctxErr := none
  messageID := []
  jitter := 0
  delivery := .ok (Service.pushResponseFromStoredMessage
    (messageFromPushRequest requestM (ascii "m") 1) .unset)
  publication := none

/-- Surroundings in which deliveries fail. -/
def offline (clock : Int) : Surroundings :=
  { calm with clock := clock, delivery := .error ⟨ascii "offline", ⟨[], [], [], []⟩⟩ }

/-- The status of `m`. -/
def statusOfM (config : Courier) : Option MessageStatus :=
  (config.state.store.messages.get? (ascii "m")).map Message.status

/-- What a thread runs and what it has returned. -/
def Courier.outcome? (config : Courier) (i : Nat) : Option (Started × Option OperationResult) :=
  config.threads[i]?.map fun thread => (thread.tag, thread.prog.result?)

/-- What a thread runs and the effect it performs next. -/
def Courier.next? (config : Courier) (i : Nat) : Option (Started × Option Effect) :=
  config.threads[i]?.map fun thread => (thread.tag, thread.prog.next?)

theorem Courier.thread_of_next? {config : Courier} {i : Nat} {started : Started} {effect : Effect}
    (h : config.next? i = some (started, some effect)) :
    ∃ log next, config.threads[i]? = some ⟨started, log, .perform effect next⟩ := by
  obtain ⟨⟨tag, log, prog⟩, hthread, hpair⟩ := Option.map_eq_some_iff.mp h
  obtain ⟨rfl, hnext⟩ := Prod.mk.inj hpair
  obtain ⟨next, rfl⟩ := Prog.eq_perform_of_next? hnext
  exact ⟨log, next, hthread⟩

variable [Sha256]

@[simp] theorem perform_clock (effect : Effect) (input : Surroundings) (world : World) :
    (perform effect input world).2.clock = input.clock := by
  cases effect <;> rfl

variable {before after : Courier}

theorem step_store {choice : Choice Started Surroundings} (h : Step courier before choice after) :
    (CourierStep.call? ⟨before, choice, after⟩ = none ∧
        after.state.store = before.state.store) ∨
      ∃ call env, CourierStep.call? ⟨before, choice, after⟩ = some (call, env) ∧
        after.state.store = (before.state.store.call env call).2 := by
  cases h with
  | start hstart =>
    obtain rfl := Option.some.inj hstart
    exact .inl ⟨rfl, rfl⟩
  | @act i input tag log effect next response state hthread hexec =>
    obtain ⟨-, rfl⟩ := Prod.mk.inj (Option.some.inj hexec)
    cases effect with
    | store call => exact .inr ⟨call, input.env, by simp [CourierStep.call?, hthread], rfl⟩
    | now | ctxErr | newMessageID | jitter | deliverOnline | publish | retryMessage =>
      exact .inl ⟨by simp [CourierStep.call?, hthread], rfl⟩

theorem step_slot {choice : Choice Started Surroundings} (h : Step courier before choice after)
    (id : GoString) : after.state.store.messages.get? id = before.state.store.messages.get? id ∨
      ∃ call env, CourierStep.call? ⟨before, choice, after⟩ = some (call, env) ∧
        SlotStep env before.state.store id call (before.state.store.messages.get? id)
          (after.state.store.messages.get? id) := by
  rcases step_store h with ⟨-, hstore⟩ | ⟨call, env, hcall, hstore⟩
  · exact .inl (by rw [hstore])
  · exact .inr ⟨call, env, hcall, by rw [hstore]; exact (MemoryStore.call_step call).slot id⟩

/-- A property of a message that every change of it keeps holds until `DeleteExpired` removes the
message. -/
theorem kept_until_removed {p : Message → Prop} {ok : CourierStep → Prop}
    (hedit : ∀ {t : CourierStep} {call env message message'}, ok t →
      t.call? = some (call, env) →
      t.before.state.store.messages.get? message.messageID = some message →
      MessageEdit env t.before.state.store call message message' → p message → p message')
    {history : List CourierStep} {id : GoString} {message : Message}
    (h : Run courier ok before history after)
    (hget : before.state.store.messages.get? id = some message) (hp : p message) :
    (∃ t ∈ history, t.Removes id) ∨
      ∃ message', after.state.store.messages.get? id = some message' ∧ p message' := by
  induction h with
  | refl => exact .inr ⟨message, hget, hp⟩
  | @snoc before after history choice _ hstep hok ih =>
    rcases ih with ⟨t, ht, hremoves⟩ | ⟨middle, hmiddle, hkept⟩
    · exact .inl ⟨t, List.mem_append_left _ ht, hremoves⟩
    · rcases step_slot hstep id with hsame | ⟨call, env, hcall, hslot⟩
      · exact .inr ⟨middle, hsame.trans hmiddle, hkept⟩
      · rw [hmiddle] at hslot
        generalize hafter : after.state.store.messages.get? id = slot at hslot
        cases hslot with
        | same => exact .inr ⟨middle, rfl, hkept⟩
        | edited hid hchange =>
          subst hid
          exact .inr ⟨_, rfl, hedit hok hcall hmiddle hchange hkept⟩
        | removed =>
          exact .inl ⟨_, by simp, ⟨_, _, _, _, hcall⟩, by simp [hmiddle], hafter⟩

end ZCourier.Downlink
