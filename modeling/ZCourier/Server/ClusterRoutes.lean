import Mathlib.Logic.Function.Basic
import ZCourier.Library.Interleaving
import ZCourier.Server.Registry

/-!
# Routes and sessions of a cluster

Any number of gateways with a session manager each share one registry of routes. Clients bind and
disconnect, and each gateway's `clusterRouteRefresher` renews the routes of the sessions it has seen
in a snapshot (`internal/server/cluster.go`). One step of `cluster` is one call of a session manager
or of the registry. `moved_connection_keeps_route` is a run outside the conditions of
`routes_name_bound_sessions`.
-/

namespace ZCourier.Server

open Go Library

structure ClusterNode where
  gatewayNode : GoString
  internalAddr : GoString

/-- What happens at a gateway. -/
inductive ClusterOperation where
  | bind (node : ClusterNode) (connID : UInt64) (clientID deviceID tokenID : GoString)
  | disconnect (node : ClusterNode) (connID : UInt64)
  | refresh (node : ClusterNode)

/-- The calls of session managers and of the registry, and what else a refresh reads. -/
inductive ClusterEffect where
  | sessionBind (node : GoString) (input : BindInput)
  | sessionUnbind (node : GoString) (connID : UInt64)
  | snapshot (node : GoString)
  | ctxErr
  | now
  | routeBind (entry : RouteEntry)
  | routeUnbind (key : RouteKey) (sessionID : GoString)
  | routeTouch (entry : RouteEntry)

abbrev ClusterEffect.Response : ClusterEffect → Type
  | .sessionBind .. => Except SessionError BindResult
  | .sessionUnbind .. => Option Session
  | .snapshot _ => List Session
  | .ctxErr => Option ContextError
  | .now => Int
  | .routeBind _ | .routeUnbind .. | .routeTouch _ => Except RegistryError Unit

abbrev ClusterCode (α : Type) := Prog ClusterEffect ClusterEffect.Response α

namespace ClusterCode

/-- `Manager.Bind` at a gateway. -/
def sessionBind (node : GoString) (input : BindInput) :
    ClusterCode (Except SessionError BindResult) :=
  Prog.call (ClusterEffect.sessionBind node input)

/-- `Manager.UnbindByConnID` at a gateway. -/
def sessionUnbind (node : GoString) (connID : UInt64) : ClusterCode (Option Session) :=
  Prog.call (ClusterEffect.sessionUnbind node connID)

/-- `Manager.Snapshot` at a gateway. -/
def snapshot (node : GoString) : ClusterCode (List Session) :=
  Prog.call (ClusterEffect.snapshot node)

/-- `ctx.Err()`. -/
def ctxErr : ClusterCode (Option ContextError) :=
  Prog.call ClusterEffect.ctxErr

/-- The refresher's clock. -/
def now : ClusterCode Int :=
  Prog.call ClusterEffect.now

/-- `OnlineRegistry.Bind`. -/
def routeBind (entry : RouteEntry) : ClusterCode (Except RegistryError Unit) :=
  Prog.call (ClusterEffect.routeBind entry)

/-- `OnlineRegistry.Unbind`. -/
def routeUnbind (key : RouteKey) (sessionID : GoString) :
    ClusterCode (Except RegistryError Unit) :=
  Prog.call (ClusterEffect.routeUnbind key sessionID)

/-- `OnlineRegistry.Touch`. -/
def routeTouch (entry : RouteEntry) : ClusterCode (Except RegistryError Unit) :=
  Prog.call (ClusterEffect.routeTouch entry)

end ClusterCode

namespace ClusterNode

/-- `SessionBindHandler.Handle` and `clusterBindHandler.Handle` for a BIND packet. -/
def bind (node : ClusterNode) (connID : UInt64) (clientID deviceID tokenID : GoString) :
    ClusterCode Unit := do
  match ← ClusterCode.sessionBind node.gatewayNode
    ⟨[], connID, clientID, deviceID, tokenID, node.gatewayNode, 0⟩ with
  | .error _ => return ()
  | .ok result =>
    let _ ← ClusterCode.routeBind
      (namedRouteEntry result.session node.gatewayNode node.internalAddr)
    return ()

/-- `onConnStop`. -/
def disconnect (node : ClusterNode) (connID : UInt64) : ClusterCode Unit := do
  match ← ClusterCode.sessionUnbind node.gatewayNode connID with
  | none => return ()
  | some removed =>
    let _ ← ClusterCode.routeUnbind ⟨removed.clientID, removed.deviceID⟩ removed.sessionID
    return ()

/-- `refreshSession`. -/
def refreshSession (node : ClusterNode) (found : Session) : ClusterCode Unit := do
  let now ← ClusterCode.now
  let entry :=
    { namedRouteEntry found node.gatewayNode node.internalAddr with updatedAt := now }
  match ← ClusterCode.routeTouch entry with
  | .error .routeNotFound =>
    let _ ← ClusterCode.routeBind entry
    return ()
  | _ => return ()

/-- The loop of `refresh`. -/
def refreshSessions (node : ClusterNode) : List Session → ClusterCode Unit
  | [] => .ret ()
  | found :: rest => do
      match ← ClusterCode.ctxErr with
      | some _ => return ()
      | none =>
        node.refreshSession found
        node.refreshSessions rest

/-- `refresh`. -/
def refresh (node : ClusterNode) : ClusterCode Unit := do
  let sessions ← ClusterCode.snapshot node.gatewayNode
  node.refreshSessions sessions

end ClusterNode

def ClusterOperation.body : ClusterOperation → ClusterCode Unit
  | .bind node connID clientID deviceID tokenID => node.bind connID clientID deviceID tokenID
  | .disconnect node connID => node.disconnect connID
  | .refresh node => node.refresh

/-- The session managers, by the names of their gateways, and the registry. -/
structure Cluster where
  managers : GoString → Manager
  registry : MemoryRegistry

/-- Replace the sessions of a gateway. -/
def Cluster.setManager (c : Cluster) (node : GoString) (m : Manager) : Cluster :=
  { c with managers := Function.update c.managers node m }

@[simp] theorem Cluster.manager_same (c : Cluster) (node : GoString) (m : Manager) :
    (c.setManager node m).managers node = m :=
  Function.update_self ..

theorem Cluster.manager_other (c : Cluster) {node other : GoString} (h : other ≠ node)
    (m : Manager) : (c.setManager node m).managers other = c.managers other :=
  Function.update_of_ne h ..

/-- What the surroundings supply to one step; `order` is the order of a map iteration. -/
structure ClusterInput where
  clock : Int
  ctxErr : Option ContextError
  newID : GoString
  order : List Session

def Cluster.perform (c : Cluster) (input : ClusterInput) :
    (effect : ClusterEffect) → Option (effect.Response × Cluster)
  | .sessionBind node bindInput =>
    let (result, m) := (c.managers node).bind ⟨input.clock, input.newID⟩ bindInput
    some (result, c.setManager node m)
  | .sessionUnbind node connID =>
    let (removed, m) := (c.managers node).unbindByConnID connID
    some (removed, c.setManager node m)
  | .snapshot node =>
    if input.order.isPerm (c.managers node).snapshot then some (input.order, c) else none
  | .ctxErr => some (input.ctxErr, c)
  | .now => some (input.clock, c)
  | .routeBind entry =>
    let (result, registry) := c.registry.bind ⟨input.ctxErr, input.clock⟩ entry
    some (result, { c with registry := registry })
  | .routeUnbind key sessionID =>
    let (result, registry) := c.registry.unbind ⟨input.ctxErr, input.clock⟩ key sessionID
    some (result, { c with registry := registry })
  | .routeTouch entry =>
    let (result, registry) := c.registry.touch ⟨input.ctxErr, input.clock⟩ entry
    some (result, { c with registry := registry })

/-- Any number of operations at any number of gateways. -/
def cluster : System Cluster ClusterOperation ClusterEffect ClusterEffect.Response ClusterInput
    Unit where
  body operation := operation.body
  start _ c := some c
  exec effect input c := c.perform input effect

/-- A configuration of `cluster`. -/
abbrev ClusterConfig := Config Cluster ClusterOperation ClusterEffect ClusterEffect.Response Unit

/-- A step of `cluster` with the configurations around it. -/
abbrev ClusterStep :=
  Transition Cluster ClusterOperation ClusterEffect ClusterEffect.Response ClusterInput Unit

/-- An operation under way. -/
abbrev ClusterThread := Thread ClusterOperation ClusterEffect ClusterEffect.Response Unit

/-- The events of an operation. -/
abbrev ClusterLog := List (Event ClusterEffect ClusterEffect.Response)

/-- No sessions and no routes. -/
def Cluster.initial (ttl : Int) : Cluster := ⟨fun _ => .new, .new ttl⟩

/-- The session a route names is bound for its client and device at its gateway. -/
def Cluster.Bound (c : Cluster) (entry : RouteEntry) : Prop :=
  ∃ session, (c.managers entry.gatewayNode).getByClientDevice entry.clientID entry.deviceID =
    some session ∧ session.sessionID = entry.sessionID

/-! ## The condition on steps -/

def ClusterStep.effect? (t : ClusterStep) : Option (ClusterInput × ClusterEffect) :=
  match t.choice with
  | .start _ => none
  | .act i input =>
    match t.before.threads[i]? with
    | some ⟨_, _, .perform effect _⟩ => some (input, effect)
    | _ => none

/-- No call of the registry fails: `Bind` and `Unbind` return no error. -/
structure ClusterStep.Answered (t : ClusterStep) : Prop where
  bind : ∀ input entry, t.effect? = some (input, .routeBind entry) →
    (t.before.state.registry.bind ⟨input.ctxErr, input.clock⟩ entry).1 = .ok ()
  unbind : ∀ input key sessionID, t.effect? = some (input, .routeUnbind key sessionID) →
    (t.before.state.registry.unbind ⟨input.ctxErr, input.clock⟩ key sessionID).1 = .ok ()

/-- The entry that a call of the registry is about to write. -/
def ClusterStep.written? (t : ClusterStep) : Option RouteEntry :=
  match t.effect? with
  | some (_, .routeBind entry) => some entry
  | some (input, .routeTouch entry) =>
    if (t.before.state.registry.touch ⟨input.ctxErr, input.clock⟩ entry).1 = .ok () then some entry
    else none
  | _ => none

/-- The registry is made to name a session only while the session is bound, and a connection is
bound for another client or device only while the registry does not name its session. -/
structure ClusterStep.Prompt (t : ClusterStep) : Prop where
  named : ∀ entry, t.written? = some entry →
    (∃ old, t.before.state.registry.entries.get? entry.key = some old ∧
      old.sessionID = entry.sessionID ∧ old.gatewayNode = entry.gatewayNode) ∨
    t.before.state.Bound entry
  moved : ∀ input node bindInput session entry,
    t.effect? = some (input, .sessionBind node bindInput) →
    (t.before.state.managers node).byConnID.get? bindInput.connID = some session →
    session.pair ≠ (bindInput.clientID, bindInput.deviceID) →
    t.before.state.registry.entries.get? ⟨session.clientID, session.deviceID⟩ = some entry →
    ¬ (entry.sessionID = session.sessionID ∧ entry.gatewayNode = node)

/-! ## What an operation still owes -/

/-- The operation has removed the session the route names and has yet to take the route back or
to write its own over it. -/
def Owes (log : ClusterLog) (entry : RouteEntry) : Prop :=
  match log.getLast? with
  | some ⟨.sessionBind _ input, .ok result⟩ =>
    entry.key = ⟨input.clientID, input.deviceID⟩ ∧ entry.sessionID ≠ result.session.sessionID
  | some ⟨.sessionUnbind _ _, some removed⟩ =>
    entry.key = ⟨removed.clientID, removed.deviceID⟩ ∧ entry.sessionID = removed.sessionID
  | _ => False

/-- The next effect of an operation settles what it owes. -/
def Settles (log : ClusterLog) : ClusterEffect → Prop
  | .routeBind entry => ∀ old, Owes log old →
      old.key = entry.key ∧ old.sessionID ≠ entry.sessionID
  | .routeUnbind key sessionID => ∀ old, Owes log old → old.key = key ∧ old.sessionID = sessionID
  | _ => ∀ old, ¬ Owes log old

/-- A session manager binds what it is asked to bind. -/
def Possible : (effect : ClusterEffect) → effect.Response → Prop
  | .sessionBind _ input, .ok result => result.session.pair = (input.clientID, input.deviceID)
  | _, _ => True

/-- The code settles what it owes at once, and owes nothing when it returns. -/
abbrev ClusterCode.Settling (code : ClusterCode Unit) (log : ClusterLog) : Prop :=
  code.Meets (.protocol Settles Possible) (fun _ log => ∀ old, ¬ Owes log old) log

theorem not_owes_concat {log : ClusterLog} {event : Event ClusterEffect ClusterEffect.Response}
    (hbind : ∀ node input result, event ≠ ⟨.sessionBind node input, .ok result⟩)
    (hunbind : ∀ node connID removed, event ≠ ⟨.sessionUnbind node connID, some removed⟩)
    (old : RouteEntry) : ¬ Owes (log ++ [event]) old := by
  unfold Owes
  rw [List.getLast?_concat]
  intro h
  split at h
  · next heq => exact hbind _ _ _ (Option.some.inj heq)
  · next heq => exact hunbind _ _ _ (Option.some.inj heq)
  · exact h

variable {node : ClusterNode}

theorem settling_bind {connID : UInt64} {clientID deviceID tokenID : GoString} :
    (node.bind connID clientID deviceID tokenID).Settling [] := by
  refine ⟨fun old h => h, ?_⟩
  intro response log' hlog
  obtain ⟨hpossible, rfl⟩ := hlog
  cases response with
  | error err => exact not_owes_concat (by simp) (by simp)
  | ok result =>
    refine ⟨?_, ?_⟩
    · intro old howes
      have hpair : result.session.pair = (clientID, deviceID) := hpossible
      obtain ⟨hkey, hne⟩ : old.key = ⟨clientID, deviceID⟩ ∧
          old.sessionID ≠ result.session.sessionID := by simpa [Owes] using howes
      obtain ⟨rfl, rfl⟩ := Prod.mk.inj hpair
      exact ⟨hkey, hne⟩
    · intro response log' hlog
      obtain ⟨-, rfl⟩ := hlog
      exact not_owes_concat (by simp) (by simp)

theorem settling_disconnect {connID : UInt64} : (node.disconnect connID).Settling [] := by
  refine ⟨fun old h => h, ?_⟩
  intro response log' hlog
  obtain ⟨-, rfl⟩ := hlog
  cases response with
  | none => exact not_owes_concat (by simp) (by simp)
  | some removed =>
    refine ⟨fun old howes => by simpa [Owes] using howes, ?_⟩
    intro response log' hlog
    obtain ⟨-, rfl⟩ := hlog
    exact not_owes_concat (by simp) (by simp)

theorem settling_refresh_session {found : Session} {log : ClusterLog}
    (hlog : ∀ old, ¬ Owes log old) :
    (node.refreshSession found).Settling log := by
  refine ⟨hlog, ?_⟩
  intro now log' hlog'
  obtain ⟨-, rfl⟩ := hlog'
  refine ⟨not_owes_concat (by simp) (by simp), ?_⟩
  intro response log' hlog'
  obtain ⟨-, rfl⟩ := hlog'
  have hnone : ∀ old, ¬ Owes (log ++ [⟨.now, now⟩] ++ [⟨.routeTouch _, response⟩]) old :=
    not_owes_concat (by simp) (by simp)
  cases response with
  | ok _ => exact hnone
  | error err =>
    cases err with
    | routeNotFound =>
      refine ⟨fun old howes => absurd howes (hnone old), ?_⟩
      intro response log' hlog'
      obtain ⟨-, rfl⟩ := hlog'
      exact not_owes_concat (by simp) (by simp)
    | context | closed | invalidRouteKey | invalidRouteEntry | sessionMismatch | unavailable =>
      exact hnone

theorem settling_refresh_sessions {sessions : List Session} {log : ClusterLog}
    (hlog : ∀ old, ¬ Owes log old) : (node.refreshSessions sessions).Settling log := by
  induction sessions generalizing log with
  | nil => exact hlog
  | cons found rest ih =>
    refine ⟨hlog, ?_⟩
    intro response log' hlog'
    obtain ⟨-, rfl⟩ := hlog'
    have hnone : ∀ old, ¬ Owes (log ++ [⟨.ctxErr, response⟩]) old :=
      not_owes_concat (by simp) (by simp)
    cases response with
    | some err => exact hnone
    | none => exact (settling_refresh_session hnone).bind fun _ _ h => ih h

theorem body_settling (operation : ClusterOperation) : operation.body.Settling [] := by
  cases operation with
  | bind node connID clientID deviceID tokenID => exact settling_bind
  | disconnect node connID => exact settling_disconnect
  | refresh node =>
    refine ⟨fun old h => h, ?_⟩
    intro sessions log' hlog
    obtain ⟨-, rfl⟩ := hlog
    exact settling_refresh_sessions (not_owes_concat (by simp) (by simp))

/-! ## What one call does to the routes -/

section Calls

variable {c : Cluster} {entry : RouteEntry} {node : GoString} {m : Manager}

theorem Cluster.Bound.other_node (h : c.Bound entry) (hnode : entry.gatewayNode ≠ node) :
    (c.setManager node m).Bound entry := by
  unfold Cluster.Bound at h ⊢
  rwa [c.manager_other hnode]

theorem bound_of_get {session : Session} (hnode : entry.gatewayNode = node)
    (hget : m.getByClientDevice entry.clientID entry.deviceID = some session)
    (hsession : session.sessionID = entry.sessionID) :
    (c.setManager node m).Bound entry := by
  refine ⟨session, ?_, hsession⟩
  rw [hnode, c.manager_same]
  exact hget

/-- After a `Bind` a good route is still good, or it is one of the client and device that were
bound, under another session. -/
theorem Cluster.Bound.session_bind (h : c.Bound entry) (hpaired : (c.managers node).Paired)
    {env : SessionEnv} {input : BindInput} {result : BindResult}
    (hbind : ((c.managers node).bind env input).1 = .ok result)
    (hmoved : ∀ session, (c.managers node).byConnID.get? input.connID = some session →
      session.pair ≠ (input.clientID, input.deviceID) →
      entry.key = ⟨session.clientID, session.deviceID⟩ →
      ¬ (entry.sessionID = session.sessionID ∧ entry.gatewayNode = node)) :
    (c.setManager node ((c.managers node).bind env input).2).Bound entry ∨
      entry.key = ⟨input.clientID, input.deviceID⟩ ∧
        entry.sessionID ≠ result.session.sessionID := by
  by_cases hnode : entry.gatewayNode = node
  · obtain ⟨-, hget⟩ := hpaired.bind_spec hbind
    have hafter := hget (entry.clientID, entry.deviceID)
    by_cases hpair : (entry.clientID, entry.deviceID) = (input.clientID, input.deviceID)
    · rw [if_pos hpair] at hafter
      by_cases hsession : result.session.sessionID = entry.sessionID
      · exact .inl (bound_of_get hnode hafter hsession)
      · obtain ⟨hclient, hdevice⟩ := Prod.mk.inj hpair
        exact .inr ⟨by rw [RouteEntry.key, hclient, hdevice], Ne.symm hsession⟩
    · rw [if_neg hpair] at hafter
      obtain ⟨session, hbefore, hsession⟩ := h
      rw [hnode] at hbefore
      obtain ⟨hconn, hsame⟩ : _ ∧ session.pair = (entry.clientID, entry.deviceID) :=
        hpaired.get_by_client_device.mp hbefore
      -- the connection of the route's session is another one, or it was moved
      by_cases hmine : session.connID = input.connID
      · rw [hmine] at hconn
        obtain ⟨hclient, hdevice⟩ := Prod.mk.inj hsame
        refine absurd ⟨hsession.symm, hnode⟩ (hmoved session hconn (hsame ▸ hpair) ?_)
        rw [RouteEntry.key, hclient, hdevice]
      · refine .inl (bound_of_get hnode ?_ hsession)
        rw [hafter, hbefore]
        simp [Option.filter, hmine]
  · exact .inl (h.other_node hnode)

theorem Cluster.Bound.session_unbind (h : c.Bound entry) (hpaired : (c.managers node).Paired)
    (connID : UInt64) :
    (c.setManager node ((c.managers node).unbindByConnID connID).2).Bound entry ∨
      ∃ removed, ((c.managers node).unbindByConnID connID).1 = some removed ∧
        entry.key = ⟨removed.clientID, removed.deviceID⟩ ∧
        entry.sessionID = removed.sessionID := by
  by_cases hnode : entry.gatewayNode = node
  · obtain ⟨-, hget⟩ := hpaired.unbind_spec connID
    obtain ⟨session, hbefore, hsession⟩ := h
    rw [hnode] at hbefore
    obtain ⟨hconn, hsame⟩ : _ ∧ session.pair = (entry.clientID, entry.deviceID) :=
      hpaired.get_by_client_device.mp hbefore
    by_cases hmine : session.connID = connID
    · obtain ⟨hclient, hdevice⟩ := Prod.mk.inj hsame
      refine .inr ⟨session, ?_, ?_, hsession.symm⟩
      · rw [Manager.unbind_removed, ← hmine, hconn]
      · rw [RouteEntry.key, hclient, hdevice]
    · refine .inl (bound_of_get hnode ?_ hsession)
      rw [hget (entry.clientID, entry.deviceID), hbefore]
      simp [Option.filter, hmine]
  · exact .inl (h.other_node hnode)

end Calls

/-! ## Every run -/

/-- Some operation owes the route. -/
def Owed (threads : List ClusterThread) (entry : RouteEntry) : Prop :=
  ∃ (i : Nat) (thread : ClusterThread), threads[i]? = some thread ∧ Owes thread.log entry

section Owed

variable {threads : List ClusterThread} {i : Nat} {tag : ClusterOperation} {log : ClusterLog}
  {prog prog' : ClusterCode Unit}
  {event : Event ClusterEffect ClusterEffect.Response} {entry : RouteEntry}

/-- What another operation owes, it still owes after a step. -/
theorem Owed.set (h : Owed threads entry) (hthread : threads[i]? = some ⟨tag, log, prog⟩)
    (hself : ¬ Owes log entry) : Owed (threads.set i ⟨tag, log ++ [event], prog'⟩) entry := by
  obtain ⟨j, thread, hj, howes⟩ := h
  have hij : i ≠ j := by
    rintro rfl
    obtain rfl := Option.some.inj (hthread.symm.trans hj)
    exact hself howes
  exact ⟨j, thread, by rw [List.getElem?_set_ne hij, hj], howes⟩

theorem Owed.self (hthread : threads[i]? = some ⟨tag, log, prog⟩)
    (howes : Owes (log ++ [event]) entry) :
    Owed (threads.set i ⟨tag, log ++ [event], prog'⟩) entry := by
  have hi := (List.getElem?_eq_some_iff.mp hthread).1
  exact ⟨i, _, List.getElem?_set_self hi, howes⟩

/-- A started operation changes nothing that others owe. -/
theorem Owed.append (h : Owed threads entry) (started : ClusterThread) :
    Owed (threads ++ [started]) entry := by
  obtain ⟨j, thread, hj, howes⟩ := h
  have hlt := (List.getElem?_eq_some_iff.mp hj).1
  exact ⟨j, thread, by rw [List.getElem?_append_left hlt, hj], howes⟩

end Owed

/-- The indexes are in order, and every route names a bound session or is owed. -/
structure ClusterConfig.Covered (config : ClusterConfig) : Prop where
  paired : ∀ node, (config.state.managers node).Paired
  routes : ∀ entry, config.state.registry.entries.get? entry.key = some entry →
    config.state.Bound entry ∨ Owed config.threads entry

theorem paired_set_manager {c : Cluster} (h : ∀ node, (c.managers node).Paired)
    {node : GoString} {m : Manager} (hm : m.Paired) :
    ∀ other, ((c.setManager node m).managers other).Paired := by
  intro other
  by_cases hother : other = node
  · rw [hother, c.manager_same]
    exact hm
  · rw [c.manager_other hother]
    exact h other

section Step

variable {before : ClusterConfig} {i : Nat} {input : ClusterInput} {tag : ClusterOperation}
  {log : ClusterLog}

theorem ClusterConfig.Covered.quiet (h : before.Covered) {effect : ClusterEffect}
    {next : effect.Response → ClusterCode Unit} {response : effect.Response}
    (hthread : before.threads[i]? = some ⟨tag, log, .perform effect next⟩)
    (hlog : ∀ old, ¬ Owes log old) :
    ClusterConfig.Covered ⟨before.state, before.threads.set i
      ⟨tag, log ++ [⟨effect, response⟩], next response⟩⟩ := by
  refine ⟨h.paired, fun entry hentry => ?_⟩
  rcases h.routes entry hentry with hbound | howed
  · exact .inl hbound
  · exact .inr (howed.set hthread (hlog entry))

theorem ClusterConfig.Covered.session_bind (h : before.Covered) {node : GoString}
    {bindInput : BindInput} {next : _ → ClusterCode Unit}
    (hthread : before.threads[i]? = some ⟨tag, log, .perform (.sessionBind node bindInput) next⟩)
    (hlog : ∀ old, ¬ Owes log old)
    (hmoved : ∀ session entry,
      (before.state.managers node).byConnID.get? bindInput.connID = some session →
      session.pair ≠ (bindInput.clientID, bindInput.deviceID) →
      before.state.registry.entries.get? ⟨session.clientID, session.deviceID⟩ = some entry →
      ¬ (entry.sessionID = session.sessionID ∧ entry.gatewayNode = node)) (env : SessionEnv) :
    ClusterConfig.Covered ⟨before.state.setManager node
        ((before.state.managers node).bind env bindInput).2,
      before.threads.set i ⟨tag, log ++ [⟨.sessionBind node bindInput,
        ((before.state.managers node).bind env bindInput).1⟩],
        next ((before.state.managers node).bind env bindInput).1⟩⟩ := by
  cases hresult : ((before.state.managers node).bind env bindInput).1 with
  | error err =>
    rw [Manager.bind_error hresult]
    have hsame : before.state.setManager node (before.state.managers node) = before.state := by
      simp [Cluster.setManager]
    rw [hsame]
    exact h.quiet hthread hlog
  | ok result =>
    refine ⟨paired_set_manager h.paired ((h.paired node).bind_spec hresult).1, ?_⟩
    intro entry hentry
    rcases h.routes entry hentry with hbound | howed
    · have hcall := hbound.session_bind (h.paired node) hresult fun session hconn hother hkey =>
        hmoved session entry hconn hother (hkey ▸ hentry)
      rcases hcall with hbound' | howes
      · exact .inl hbound'
      · exact .inr (.self hthread (by simpa [Owes] using howes))
    · exact .inr (howed.set hthread (hlog entry))

theorem ClusterConfig.Covered.session_unbind (h : before.Covered) {node : GoString}
    {connID : UInt64} {next : _ → ClusterCode Unit}
    (hthread : before.threads[i]? = some ⟨tag, log, .perform (.sessionUnbind node connID) next⟩)
    (hlog : ∀ old, ¬ Owes log old) :
    ClusterConfig.Covered ⟨before.state.setManager node
        ((before.state.managers node).unbindByConnID connID).2,
      before.threads.set i ⟨tag, log ++ [⟨.sessionUnbind node connID,
        ((before.state.managers node).unbindByConnID connID).1⟩],
        next ((before.state.managers node).unbindByConnID connID).1⟩⟩ := by
  refine ⟨paired_set_manager h.paired ((h.paired node).unbind_spec connID).1, ?_⟩
  intro entry hentry
  rcases h.routes entry hentry with hbound | howed
  · rcases hbound.session_unbind (h.paired node) connID with hbound' | ⟨removed, hremoved, howes⟩
    · exact .inl hbound'
    · refine .inr (.self hthread ?_)
      rw [hremoved]
      simpa [Owes] using howes
  · exact .inr (howed.set hthread (hlog entry))

/-- A call of the registry keeps the routes covered, if what it makes the registry name is bound
and it settles what its operation owed. -/
theorem ClusterConfig.Covered.registry (h : before.Covered) {effect : ClusterEffect}
    {next : effect.Response → ClusterCode Unit} {response : effect.Response}
    {registry : MemoryRegistry}
    (hthread : before.threads[i]? = some ⟨tag, log, .perform effect next⟩)
    (hnamed : ∀ entry, registry.entries.get? entry.key = some entry →
      (∃ old, before.state.registry.entries.get? entry.key = some old ∧
        old.sessionID = entry.sessionID ∧ old.gatewayNode = entry.gatewayNode) ∨
      before.state.Bound entry)
    (hsettled : ∀ entry, registry.entries.get? entry.key = some entry → ¬ Owes log entry) :
    ClusterConfig.Covered ⟨{ before.state with registry := registry }, before.threads.set i
      ⟨tag, log ++ [⟨effect, response⟩], next response⟩⟩ := by
  refine ⟨h.paired, fun entry hentry => ?_⟩
  rcases hnamed entry hentry with ⟨old, hold, hsession, hnode⟩ | hbound
  · have hkey : old.key = entry.key := Table.key_of_get? hold
    obtain ⟨hclient, hdevice⟩ := RouteKey.mk.inj hkey
    -- the route was there before, under the same session and gateway
    rcases h.routes old (hkey ▸ hold) with hbound | ⟨j, thread, hj, howes⟩
    · refine .inl ?_
      unfold Cluster.Bound at hbound ⊢
      rwa [hclient, hdevice, hsession, hnode] at hbound
    · have howes' : Owes thread.log entry := by
        unfold Owes at howes ⊢
        rwa [hkey, hsession] at howes
      exact .inr (Owed.set ⟨j, thread, hj, howes'⟩ hthread (hsettled entry hentry))
  · exact .inl hbound

end Step

theorem possible_session_bind (m : Manager) (env : SessionEnv) {node : GoString}
    (input : BindInput) : Possible (.sessionBind node input) (m.bind env input).1 := by
  cases hresult : (m.bind env input).1 with
  | error err => trivial
  | ok result => exact (Manager.bind_result hresult).2.1

variable {ttl : Int} {history : List ClusterStep} {after : ClusterConfig}

theorem routes_covered
    (h : Run cluster (fun t => ClusterStep.Answered t ∧ ClusterStep.Prompt t)
      (.idle (.initial ttl)) history after) :
    after.Covered ∧
      after.Follows (fun _ => Settles) Possible fun _ _ log => ∀ old, ¬ Owes log old := by
  refine h.protocol (fun _ => Settles) Possible (fun _ _ log => ∀ old, ¬ Owes log old)
    ClusterConfig.Covered ?_ (fun _ => body_settling _) ?_ ?_
  · refine ⟨fun node => Manager.paired_new, fun entry hentry => ?_⟩
    cases hentry
  · intro before tag state' hcovered hstart _
    obtain rfl := Option.some.inj hstart
    refine ⟨hcovered.paired, fun entry hentry => ?_⟩
    rcases hcovered.routes entry hentry with hbound | howed
    · exact .inl hbound
    · exact .inr (howed.append _)
  · intro before i input tag log effect next response state' hcovered hthread hsettles hexec hok
    obtain ⟨hanswered, hprompt⟩ := hok
    have heffect : ClusterStep.effect? ⟨before, .act i input, ⟨state', before.threads.set i
        ⟨tag, log ++ [⟨effect, response⟩], next response⟩⟩⟩ = some (input, effect) := by
      simp only [ClusterStep.effect?, hthread]
    cases effect with
    | sessionBind node bindInput =>
      obtain ⟨rfl, rfl⟩ := Prod.mk.inj (Option.some.inj hexec)
      exact ⟨possible_session_bind _ _ _, hcovered.session_bind hthread hsettles
        (fun session entry => hprompt.moved input node bindInput session entry heffect) _⟩
    | sessionUnbind node connID =>
      obtain ⟨rfl, rfl⟩ := Prod.mk.inj (Option.some.inj hexec)
      exact ⟨trivial, hcovered.session_unbind hthread hsettles⟩
    | snapshot node =>
      change (if _ then _ else none) = _ at hexec
      split at hexec
      · obtain ⟨rfl, rfl⟩ := Prod.mk.inj (Option.some.inj hexec)
        exact ⟨trivial, hcovered.quiet hthread hsettles⟩
      · cases hexec
    | ctxErr | now =>
      obtain ⟨rfl, rfl⟩ := Prod.mk.inj (Option.some.inj hexec)
      exact ⟨trivial, hcovered.quiet hthread hsettles⟩
    | routeBind entry =>
      obtain ⟨rfl, rfl⟩ := Prod.mk.inj (Option.some.inj hexec)
      have hnamed := hprompt.named entry (by simp only [ClusterStep.written?, heffect])
      refine ⟨trivial, hcovered.registry hthread (fun stored hstored => ?_)
        fun new hnew howes => ?_⟩
      · rcases MemoryRegistry.bind_stored hstored with hkept | rfl
        · exact .inl ⟨stored, hkept, rfl, rfl⟩
        · exact hnamed
      obtain ⟨hkey, hother⟩ := hsettles new howes
      have hput := MemoryRegistry.bind_get (hanswered.bind input entry heffect)
      rw [hkey] at hnew
      have hnew' := Option.some.inj (hput.symm.trans hnew)
      exact hother (congrArg RouteEntry.sessionID hnew').symm
    | routeUnbind key sessionID =>
      obtain ⟨rfl, rfl⟩ := Prod.mk.inj (Option.some.inj hexec)
      have hkept := hanswered.unbind input key sessionID heffect
      refine ⟨trivial, hcovered.registry hthread (fun stored hstored => ?_)
        fun stored hstored howes => ?_⟩
      · exact .inl ⟨stored, (MemoryRegistry.unbind_get hkept hstored).1, rfl, rfl⟩
      · exact (MemoryRegistry.unbind_get hkept hstored).2 (hsettles stored howes)
    | routeTouch entry =>
      obtain ⟨rfl, rfl⟩ := Prod.mk.inj (Option.some.inj hexec)
      refine ⟨trivial, hcovered.registry hthread (fun stored hstored => ?_)
        fun stored _ => hsettles stored⟩
      rcases MemoryRegistry.touch_stored hstored with hkept | ⟨hwritten, rfl⟩
      · exact .inl ⟨stored, hkept, rfl, rfl⟩
      · exact hprompt.named entry (by simp only [ClusterStep.written?, heffect, hwritten, if_true])

/-- Cluster routes name live sessions: once all started operations have finished, every route names
a session that is bound at its gateway for its client and device, in every run in which no call of
the registry fails and whose steps are prompt. -/
theorem routes_name_bound_sessions
    (h : Run cluster (fun t => ClusterStep.Answered t ∧ ClusterStep.Prompt t)
      (.idle (.initial ttl)) history after)
    (hquiet : after.Quiet) {entry : RouteEntry}
    (hentry : entry ∈ after.state.registry.entries.rows) : after.state.Bound entry := by
  obtain ⟨hcovered, hfollows⟩ := routes_covered h
  rcases hcovered.routes entry (Table.get?_of_mem hentry) with hbound | ⟨i, thread, hthread, howes⟩
  · exact hbound
  · -- an operation that has returned owes nothing
    have hmem := List.mem_of_getElem? hthread
    have hmeets := hfollows thread hmem
    have hdone := hquiet thread hmem
    cases hprog : thread.prog with
    | ret value =>
      rw [hprog] at hmeets
      exact absurd howes (hmeets entry)
    | perform effect next =>
      rw [hprog] at hdone
      cases hdone

/-! ## Runs of two gateways -/

/-- A gateway. -/
def nodeA : ClusterNode := ⟨ascii "gw-a", ascii "10.0.0.1"⟩

/-- Another gateway. -/
def nodeB : ClusterNode := ⟨ascii "gw-b", ascii "10.0.0.2"⟩

/-- A step at a time, with the id a created session gets. -/
def atTime (clock : Int) (newID : String) : ClusterInput := ⟨clock, none, ascii newID, []⟩

/-- Bind a device of client `c` on a connection. -/
def bindDevice (node : ClusterNode) (connID : UInt64) (device : String) :
    Choice ClusterOperation ClusterInput :=
  .start (.bind node connID (ascii "c") (ascii device) [])

/-- Connection 1 of the first gateway is bound for device `d1`, then for device `d2`. -/
def moveConnection : List (Choice ClusterOperation ClusterInput) :=
  List.flatten [
    [bindDevice nodeA 1 "d1"], Choice.turns 0 2 (atTime 1 "s1"),
    [bindDevice nodeA 1 "d2"], Choice.turns 1 2 (atTime 2 "s2")]

/-- The route of `d1` that the run leaves behind. -/
def strayRoute : RouteEntry :=
  ⟨ascii "c", ascii "d1", ascii "s1", ascii "gw-a", ascii "10.0.0.1", [], 1, 61⟩

instance (c : Cluster) (entry : RouteEntry) : Decidable (c.Bound entry) :=
  decidable_of_iff
    (((c.managers entry.gatewayNode).getByClientDevice entry.clientID entry.deviceID).any
      fun session => session.sessionID = entry.sessionID)
    (by simp [Cluster.Bound, Option.any_eq_true])

/-- The check of `Answered`. -/
def answeredCheck (t : ClusterStep) : Bool :=
  match t.effect? with
  | some (input, .routeBind entry) =>
    (t.before.state.registry.bind ⟨input.ctxErr, input.clock⟩ entry).1 = .ok ()
  | some (input, .routeUnbind key sessionID) =>
    (t.before.state.registry.unbind ⟨input.ctxErr, input.clock⟩ key sessionID).1 = .ok ()
  | _ => true

theorem answered_of_check {t : ClusterStep} (h : answeredCheck t = true) : t.Answered := by
  unfold answeredCheck at h
  constructor
  · intro input entry heffect
    rw [heffect] at h
    simpa using h
  · intro input key sessionID heffect
    rw [heffect] at h
    simpa using h

/-- A connection that is bound for another device leaves its old route in the registry: all calls
have succeeded and all operations have finished, the route has not expired, and its session is
not bound any more. -/
theorem moved_connection_keeps_route :
    ∃ (history : List ClusterStep) (after : ClusterConfig),
      Run cluster ClusterStep.Answered (.idle (.initial 60)) history after ∧ after.Quiet ∧
      strayRoute ∈ after.state.registry.entries.rows ∧ strayRoute.expired 2 = false ∧
      ¬ after.state.Bound strayRoute := by
  have hreplay : ((cluster.replayWhile answeredCheck (.idle (.initial 60)) moveConnection).map
      fun after : ClusterConfig =>
        (after.threads.all fun thread => thread.prog.result?.isSome) &&
          decide (strayRoute ∈ after.state.registry.entries.rows) &&
          !decide (after.state.Bound strayRoute)) = some true := by decide +kernel
  obtain ⟨after, hafter, hcheck⟩ := Option.map_eq_some_iff.mp hreplay
  obtain ⟨history, hrun⟩ := System.replayWhile_run answered_of_check hafter
  simp only [Bool.and_eq_true, List.all_eq_true, decide_eq_true_eq, Bool.not_eq_true',
    decide_eq_false_iff_not] at hcheck
  exact ⟨history, after, hrun, hcheck.1.1, hcheck.1.2, by decide, hcheck.2⟩

/-- The first gateway's sessions once `d1` is bound. -/
def snapshotD1 : List Session :=
  [⟨ascii "s1", 1, ascii "c", ascii "d1", [], ascii "gw-a", 1, 1⟩]

/-- The check of `Prompt`. -/
def promptCheck (t : ClusterStep) : Bool :=
  (t.written?.all fun entry =>
    ((t.before.state.registry.entries.get? entry.key).any fun old =>
      old.sessionID = entry.sessionID && old.gatewayNode = entry.gatewayNode) ||
    decide (t.before.state.Bound entry)) &&
  match t.effect? with
  | some (_, .sessionBind node bindInput) =>
    ((t.before.state.managers node).byConnID.get? bindInput.connID).all fun session =>
      session.pair = (bindInput.clientID, bindInput.deviceID)
  | _ => true

theorem prompt_of_check {t : ClusterStep} (h : promptCheck t = true) : t.Prompt := by
  obtain ⟨hnamed, hmoved⟩ := Bool.and_eq_true_iff.mp h
  constructor
  · intro entry hentry
    rw [hentry] at hnamed
    simpa [Option.any_eq_true] using hnamed
  · intro input node bindInput session entry heffect hconn hother
    rw [heffect] at hmoved
    simp only [hconn, Option.all_some, decide_eq_true_eq] at hmoved
    exact absurd hmoved hother

/-- Device `d1` is bound at the first gateway and its route refreshed; then it is bound at the
second gateway and its first connection closes. -/
def changeGateway : List (Choice ClusterOperation ClusterInput) :=
  List.flatten [
    [bindDevice nodeA 1 "d1"], Choice.turns 0 2 (atTime 1 "s1"),
    [.start (.refresh nodeA)], Choice.turns 1 4 { atTime 2 "" with order := snapshotD1 },
    [bindDevice nodeB 1 "d1"], Choice.turns 2 2 (atTime 3 "s2"),
    [.start (.disconnect nodeA 1)], Choice.turns 3 2 (atTime 4 "")]

/-- The route of `d1` then names its session at the second gateway. -/
def secondRoute : RouteEntry :=
  ⟨ascii "c", ascii "d1", ascii "s2", ascii "gw-b", ascii "10.0.0.2", [], 3, 63⟩

/-- All operations have finished and the route names a bound session. -/
theorem routes_name_bound_sessions_changed :
    ∃ (history : List ClusterStep) (after : ClusterConfig),
      Run cluster (fun t => ClusterStep.Answered t ∧ ClusterStep.Prompt t)
        (.idle (.initial 60)) history after ∧ after.Quiet ∧
      secondRoute ∈ after.state.registry.entries.rows ∧ after.state.Bound secondRoute := by
  have hreplay : ((cluster.replayWhile (fun t => answeredCheck t && promptCheck t)
      (.idle (.initial 60)) changeGateway).map fun after : ClusterConfig =>
        (after.threads.all fun thread => thread.prog.result?.isSome) &&
          decide (secondRoute ∈ after.state.registry.entries.rows)) = some true := by
    decide +kernel
  obtain ⟨after, hafter, hcheck⟩ := Option.map_eq_some_iff.mp hreplay
  have hok : ∀ {t : ClusterStep}, (answeredCheck t && promptCheck t) = true →
      t.Answered ∧ t.Prompt := by
    intro t ht
    obtain ⟨hanswered, hprompt⟩ := Bool.and_eq_true_iff.mp ht
    exact ⟨answered_of_check hanswered, prompt_of_check hprompt⟩
  obtain ⟨history, hrun⟩ := System.replayWhile_run hok hafter
  simp only [Bool.and_eq_true, List.all_eq_true, decide_eq_true_eq] at hcheck
  exact ⟨history, after, hrun, hcheck.1, hcheck.2,
    routes_name_bound_sessions hrun hcheck.1 hcheck.2⟩

end ZCourier.Server
