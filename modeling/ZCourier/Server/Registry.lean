import ZCourier.Server.Sessions

/-!
# The online registry

Which gateway holds the session of a client and device, after `internal/cluster`. Go's
interface `OnlineRegistry` is a class on the type that implements it; `MemoryRegistry` is
the implementation of `memory_registry.go`. A method reads the clock once.
-/

namespace ZCourier.Server

open Go Library

/-- `cluster.RouteKey`. -/
structure RouteKey where
  clientID : GoString
  deviceID : GoString
  deriving DecidableEq

/-- `cluster.RouteEntry`. -/
structure RouteEntry where
  clientID : GoString
  deviceID : GoString
  sessionID : GoString
  gatewayNode : GoString
  internalAddr : GoString
  tokenID : GoString
  updatedAt : Int
  expiresAt : Int
  deriving DecidableEq

/-- `Key`. -/
def RouteEntry.key (entry : RouteEntry) : RouteKey := ⟨entry.clientID, entry.deviceID⟩

/-- `Expired`. -/
def RouteEntry.expired (entry : RouteEntry) (now : Int) : Bool :=
  !isZero entry.expiresAt && entry.expiresAt ≤ now

inductive RegistryError where
  | context (err : ContextError)
  | closed
  | invalidRouteKey
  | invalidRouteEntry
  | routeNotFound
  | sessionMismatch
  | unavailable
  deriving DecidableEq

/-- `validateRouteKey`. -/
def validateRouteKey (key : RouteKey) : Option RegistryError :=
  if key.clientID = [] || key.deviceID = [] then some .invalidRouteKey else none

/-- `validateRouteEntry`. -/
def validateRouteEntry (entry : RouteEntry) : Option RegistryError :=
  match validateRouteKey entry.key with
  | some err => some err
  | none =>
    if entry.sessionID = [] || entry.gatewayNode = [] then some .invalidRouteEntry else none

/-- The checks of `Unbind` on its arguments. -/
def validateUnbind (key : RouteKey) (sessionID : GoString) : Option RegistryError :=
  match validateRouteKey key with
  | some err => some err
  | none => if sessionID = [] then some .invalidRouteEntry else none

/-- What a registry method reads besides its arguments. -/
structure RegistryEnv where
  ctxErr : Option ContextError
  now : Int

/-- The methods of `OnlineRegistry`, on the registry's own state. -/
class OnlineRegistry (R : Type) where
  bind : R → RegistryEnv → RouteEntry → Except RegistryError Unit × R
  unbind : R → RegistryEnv → RouteKey → GoString → Except RegistryError Unit × R
  lookup : R → RegistryEnv → RouteKey → Except RegistryError (Option RouteEntry) × R
  touch : R → RegistryEnv → RouteEntry → Except RegistryError Unit × R

/-- `cluster.MemoryRegistry`; `Close` drops the entries. -/
structure MemoryRegistry where
  entries : Table RouteEntry.key
  ttl : Int
  closed : Bool

namespace MemoryRegistry

/-- `NewMemoryRegistry`. -/
def new (ttl : Int) : MemoryRegistry := ⟨.empty, ttl, false⟩

/-- `Close`. -/
def close (r : MemoryRegistry) : MemoryRegistry :=
  { r with entries := .empty, closed := true }

/-- `normalizeEntry`. -/
def normalizeEntry (r : MemoryRegistry) (entry : RouteEntry) (now : Int) : RouteEntry :=
  { entry with
    updatedAt := if isZero entry.updatedAt then now else entry.updatedAt
    expiresAt := if 0 < r.ttl then now + r.ttl else entry.expiresAt }

/-- The checks of a method before it uses the entries. -/
def refusal (r : MemoryRegistry) (env : RegistryEnv) (invalid : Option RegistryError) :
    Option RegistryError :=
  match env.ctxErr with
  | some err => some (.context err)
  | none =>
    match invalid with
    | some err => some err
    | none => if r.closed then some .closed else none

/-- `Bind`. -/
def bind (r : MemoryRegistry) (env : RegistryEnv) (entry : RouteEntry) :
    Except RegistryError Unit × MemoryRegistry :=
  match r.refusal env (validateRouteEntry entry) with
  | some err => (.error err, r)
  | none => (.ok (), { r with entries := r.entries.put (r.normalizeEntry entry env.now) })

/-- `Unbind`. -/
def unbind (r : MemoryRegistry) (env : RegistryEnv) (key : RouteKey) (sessionID : GoString) :
    Except RegistryError Unit × MemoryRegistry :=
  match r.refusal env (validateUnbind key sessionID) with
  | some err => (.error err, r)
  | none =>
    match r.entries.get? key with
    | none => (.ok (), r)
    | some entry =>
      if entry.expired env.now then (.ok (), { r with entries := r.entries.erase key })
      else if entry.sessionID ≠ sessionID then (.ok (), r)
      else (.ok (), { r with entries := r.entries.erase key })

/-- `Lookup`. -/
def lookup (r : MemoryRegistry) (env : RegistryEnv) (key : RouteKey) :
    Except RegistryError (Option RouteEntry) × MemoryRegistry :=
  match r.refusal env (validateRouteKey key) with
  | some err => (.error err, r)
  | none =>
    match r.entries.get? key with
    | none => (.ok none, r)
    | some entry =>
      if entry.expired env.now then (.ok none, { r with entries := r.entries.erase key })
      else (.ok (some entry), r)

/-- `Touch`. -/
def touch (r : MemoryRegistry) (env : RegistryEnv) (entry : RouteEntry) :
    Except RegistryError Unit × MemoryRegistry :=
  match r.refusal env (validateRouteEntry entry) with
  | some err => (.error err, r)
  | none =>
    match r.entries.get? entry.key with
    | none => (.error .routeNotFound, r)
    | some current =>
      if current.expired env.now then
        (.error .routeNotFound, { r with entries := r.entries.erase entry.key })
      else if current.sessionID ≠ entry.sessionID then (.error .sessionMismatch, r)
      else (.ok (), { r with entries := r.entries.put (r.normalizeEntry entry env.now) })

instance : OnlineRegistry MemoryRegistry where
  bind := bind
  unbind := unbind
  lookup := lookup
  touch := touch

variable {env : RegistryEnv} {r : MemoryRegistry}

theorem bind_get {entry : RouteEntry} (h : (r.bind env entry).1 = .ok ()) :
    (r.bind env entry).2.entries.get? entry.key = some (r.normalizeEntry entry env.now) := by
  unfold bind at h ⊢
  split at h
  · cases h
  · exact Table.get?_put_self

/-- What is stored after a `Bind` was stored before or is the entry of the call. -/
theorem bind_stored {entry stored : RouteEntry} {key : RouteKey}
    (h : (r.bind env entry).2.entries.get? key = some stored) :
    r.entries.get? key = some stored ∨ stored = r.normalizeEntry entry env.now := by
  unfold bind at h
  split at h
  · exact .inl h
  · rw [Table.get?_put] at h
    split at h
    · exact .inr (Option.some.inj h).symm
    · exact .inl h

/-- What is stored after a `Touch` was stored before or is the entry of a call that succeeds. -/
theorem touch_stored {entry stored : RouteEntry} {key : RouteKey}
    (h : (r.touch env entry).2.entries.get? key = some stored) : r.entries.get? key = some stored ∨
      (r.touch env entry).1 = .ok () ∧ stored = r.normalizeEntry entry env.now := by
  unfold touch at h ⊢
  split at h
  · exact .inl h
  · split at h
    · exact .inl h
    · split at h
      · rw [Table.get?_erase] at h
        split at h
        · cases h
        · exact .inl h
      · next hfresh =>
        split at h
        · exact .inl h
        · next hsame =>
          rw [Table.get?_put] at h
          split at h
          · rw [if_neg hfresh, if_neg hsame]
            exact .inr ⟨rfl, (Option.some.inj h).symm⟩
          · exact .inl h

theorem unbind_get {key : RouteKey} {sessionID : GoString}
    (h : (r.unbind env key sessionID).1 = .ok ()) {k : RouteKey} {entry : RouteEntry}
    (hget : (r.unbind env key sessionID).2.entries.get? k = some entry) :
    r.entries.get? k = some entry ∧ ¬ (k = key ∧ entry.sessionID = sessionID) := by
  unfold unbind at h hget
  cases hrefusal : r.refusal env (validateUnbind key sessionID) with
  | some err =>
    rw [hrefusal] at h
    cases h
  | none =>
    rw [hrefusal] at hget
    dsimp only at hget
    split at hget
    · next hnone =>
      refine ⟨hget, ?_⟩
      rintro ⟨rfl, -⟩
      cases hnone.symm.trans hget
    · next current hcurrent =>
      split at hget
      · rw [Table.get?_erase] at hget
        split at hget
        · cases hget
        · next hk => exact ⟨hget, fun hsame => hk hsame.1⟩
      · split at hget
        · next hother =>
          refine ⟨hget, ?_⟩
          rintro ⟨rfl, hsession⟩
          obtain rfl := Option.some.inj (hcurrent.symm.trans hget)
          exact hother hsession
        · rw [Table.get?_erase] at hget
          split at hget
          · cases hget
          · next hk => exact ⟨hget, fun hsame => hk hsame.1⟩

end MemoryRegistry

/-- `routeEntryFromSession`. -/
def routeEntryFromSession (session : Session) (internalAddr : GoString) : RouteEntry where
  clientID := session.clientID
  deviceID := session.deviceID
  sessionID := session.sessionID
  gatewayNode := session.gatewayNode
  internalAddr := internalAddr
  tokenID := session.tokenID
  updatedAt := session.lastSeenAt
  expiresAt := 0

/-- The entry of a session, with the gateway's own name where the session has none. -/
def namedRouteEntry (session : Session) (gatewayNode internalAddr : GoString) : RouteEntry :=
  let entry := routeEntryFromSession session internalAddr
  { entry with
    gatewayNode := if entry.gatewayNode = [] then gatewayNode else entry.gatewayNode }

end ZCourier.Server
