import ZCourier.Library.Interleaving
import ZCourier.Go.Strconv
import ZCourier.Server.Registry

/-!
# The online registry on Redis

`cluster.RedisRegistry` of `redis_registry.go`: a route is a hash of strings under a key built
from the client and the device. One command, script or `MULTI` is one step. `Lookup` and `List`
read a hash with `HGETALL` and delete it with a later `DEL`, which looks at nothing.
`reads_spare_fresh` says when this removes no fresh hash; in `rebound_route_deleted` the device
binds again in between.
-/

namespace ZCourier.Server

open Go Library

/-! ## Hashes -/

/-- The fields of a route's hash; a field that is missing reads as the empty string. -/
structure RouteFields where
  clientID : GoString
  deviceID : GoString
  sessionID : GoString
  gatewayNode : GoString
  internalAddr : GoString
  tokenID : GoString
  updatedAtUnixNano : GoString
  expiresAtUnixNano : GoString
  deriving DecidableEq

inductive RedisRegistryError where
  | registry (err : RegistryError)
  | parseInt (raw : GoString)
  | redis
  | scanning
  deriving DecidableEq

/-- `formatUnixNano`. -/
def formatUnixNano (value : Int) : GoString :=
  if isZero value then ascii "0" else formatInt (unixNano value)

/-- `parseUnixNano`. -/
def parseUnixNano (raw : GoString) : Except RedisRegistryError Int :=
  if raw = [] || raw = ascii "0" then .ok 0
  else
    match parseInt raw with
    | none => .error (.parseInt raw)
    | some value => .ok (unixTime value)

/-- `routeEntryFields`. -/
def routeEntryFields (entry : RouteEntry) : RouteFields where
  clientID := entry.clientID
  deviceID := entry.deviceID
  sessionID := entry.sessionID
  gatewayNode := entry.gatewayNode
  internalAddr := entry.internalAddr
  tokenID := entry.tokenID
  updatedAtUnixNano := formatUnixNano entry.updatedAt
  expiresAtUnixNano := formatUnixNano entry.expiresAt

/-- `routeEntryFromFields`. -/
def routeEntryFromFields (fields : RouteFields) : Except RedisRegistryError RouteEntry := do
  let updatedAt ← parseUnixNano fields.updatedAtUnixNano
  let expiresAt ← parseUnixNano fields.expiresAtUnixNano
  return {
    clientID := fields.clientID
    deviceID := fields.deviceID
    sessionID := fields.sessionID
    gatewayNode := fields.gatewayNode
    internalAddr := fields.internalAddr
    tokenID := fields.tokenID
    updatedAt
    expiresAt }

theorem expiry_of_fields {fields : RouteFields} {entry : RouteEntry}
    (h : routeEntryFromFields fields = .ok entry) :
    parseUnixNano fields.expiresAtUnixNano = .ok entry.expiresAt := by
  unfold routeEntryFromFields at h
  cases hupdated : parseUnixNano fields.updatedAtUnixNano with
  | error err =>
    rw [hupdated] at h
    cases h
  | ok updatedAt =>
    cases hexpires : parseUnixNano fields.expiresAtUnixNano with
    | error err =>
      rw [hupdated, hexpires] at h
      cases h
    | ok expiresAt =>
      rw [hupdated, hexpires] at h
      cases h
      rfl

/-! ## The server -/

/-- A hash with the time, in milliseconds of the server's clock, at which it goes away. -/
structure RedisHash where
  key : GoString
  fields : RouteFields
  deadline : Option Int

/-- The hashes the server holds; one past its deadline counts as absent. -/
abbrev RedisStore := Table RedisHash.key

/-- Whether a command reaches the server and its answer the gateway. -/
inductive Delivery where
  | answered
  | lost
  | unanswered
  deriving DecidableEq

/-- What the surroundings supply to one step: what `ctx.Err` and `ensureOpen` report, the clocks
of the gateway and of the server, and what a `SCAN` finds. -/
structure RedisEnv where
  refusal : Option RegistryError
  now : Int
  serverMillis : Int
  delivery : Delivery
  scanned : List GoString × Nat

/-- Redis drops a key when its clock, in milliseconds, is past the key's deadline. -/
def alive (serverMillis : Int) (deadline : Option Int) : Bool :=
  deadline.all fun deadline => serverMillis ≤ deadline

/-- The hash under a key, if it is there and not past its deadline. -/
def RedisStore.hash? (s : RedisStore) (env : RedisEnv) (key : GoString) : Option RedisHash :=
  (s.get? key).filter fun hash => alive env.serverMillis hash.deadline

/-- The milliseconds `PEXPIRE` is sent for a positive duration. -/
def formatMs (ttl : Int) : Int :=
  if ttl < 1000000 then 1 else ttl / 1000000

/-- What a method does besides local computation. -/
inductive RedisCommand where
  | enter
  | now
  | hgetall (key : GoString)
  | del (key : GoString)
  | scan (cursor : Nat) (pattern : GoString)
  | bind (key : GoString) (fields : RouteFields) (ttl : Int)
  | unbind (key sessionID : GoString)
  | touch (key sessionID : GoString) (fields : RouteFields) (ttlMillis : Int)
  deriving DecidableEq

namespace RedisCommand

/-- What a command answers when it reaches the server. -/
abbrev Value : RedisCommand → Type
  | .enter | .now => Unit
  | .hgetall _ => Option RouteFields
  | .scan .. => List GoString × Nat
  | .del _ | .bind .. => Unit
  | .unbind .. | .touch .. => Int

/-- What the method gets. -/
abbrev Response : RedisCommand → Type
  | .enter => Option RegistryError
  | .now => Int
  | command => Except RedisRegistryError command.Value

end RedisCommand

namespace RedisStore

/-- `redisUnbindScript`. -/
def unbindScript (s : RedisStore) (env : RedisEnv) (key sessionID : GoString) : Int × RedisStore :=
  match s.hash? env key with
  | none => (0, s)
  | some hash => if hash.fields.sessionID ≠ sessionID then (0, s) else (1, s.erase key)

/-- `redisTouchScript`. -/
def touchScript (s : RedisStore) (env : RedisEnv) (key sessionID : GoString)
    (fields : RouteFields) (ttlMillis : Int) : Int × RedisStore :=
  match s.hash? env key with
  | none => (0, s)
  | some hash =>
    if hash.fields.sessionID ≠ sessionID then (-1, s)
    else
      (1, s.put ⟨key, fields, if 0 < ttlMillis then some (env.serverMillis + ttlMillis) else none⟩)

/-- What a command does on the server. -/
def command (s : RedisStore) (env : RedisEnv) : (command : RedisCommand) →
    command.Value × RedisStore
  | .enter | .now => ((), s)
  | .hgetall key => ((s.hash? env key).map RedisHash.fields, s)
  | .scan .. => (env.scanned, s)
  | .del key => ((), s.erase key)
  | .bind key fields ttl =>
    ((), s.put ⟨key, fields,
      if 0 < ttl then some (env.serverMillis + formatMs ttl) else none⟩)
  | .unbind key sessionID => s.unbindScript env key sessionID
  | .touch key sessionID fields ttlMillis => s.touchScript env key sessionID fields ttlMillis

/-- A command over the network. -/
def send {α : Type} (s : RedisStore) (delivery : Delivery) (result : α × RedisStore) :
    Except RedisRegistryError α × RedisStore :=
  match delivery with
  | .answered => (.ok result.1, result.2)
  | .lost => (.error .redis, s)
  | .unanswered => (.error .redis, result.2)

/-- One step of a method. -/
def exec (s : RedisStore) (env : RedisEnv) : (command : RedisCommand) →
    command.Response × RedisStore
  | .enter => (env.refusal, s)
  | .now => (env.now, s)
  | .hgetall key => s.send env.delivery (s.command env (.hgetall key))
  | .del key => s.send env.delivery (s.command env (.del key))
  | .scan cursor pattern => s.send env.delivery (s.command env (.scan cursor pattern))
  | .bind key fields ttl => s.send env.delivery (s.command env (.bind key fields ttl))
  | .unbind key sessionID => s.send env.delivery (s.command env (.unbind key sessionID))
  | .touch key sessionID fields ttlMillis =>
    s.send env.delivery (s.command env (.touch key sessionID fields ttlMillis))

end RedisStore

/-! ## The methods -/

/-- `RedisRegistry`: the settings of one gateway. -/
structure RedisRegistry where
  keyPrefix : GoString
  ttl : Int

/-- `RouteListFilter`. -/
structure RouteListFilter where
  sessionID : GoString
  clientID : GoString
  deviceID : GoString
  limit : Int

/-- `RouteListResult`. -/
structure RouteListResult where
  total : Nat
  uniqueClients : Nat
  routes : List RouteEntry

/-- `routeEntryMatchesFilter`. -/
def routeEntryMatchesFilter (entry : RouteEntry) (filter : RouteListFilter) : Bool :=
  (filter.sessionID = [] || entry.sessionID = filter.sessionID) &&
    (filter.clientID = [] || entry.clientID = filter.clientID) &&
    (filter.deviceID = [] || entry.deviceID = filter.deviceID)

/-- The order of `sortRouteEntries`. -/
def routeEntryLe (left right : RouteEntry) : Bool :=
  if left.clientID ≠ right.clientID then left.clientID < right.clientID
  else if left.deviceID ≠ right.deviceID then left.deviceID < right.deviceID
  else if left.gatewayNode ≠ right.gatewayNode then left.gatewayNode < right.gatewayNode
  else left.sessionID ≤ right.sessionID

/-- `uniqueRouteClientCount`. -/
def uniqueRouteClientCount (entries : List RouteEntry) : Nat :=
  ((entries.map RouteEntry.clientID).filter fun clientID => clientID ≠ []).dedup.length

abbrev RegistryCode (α : Type) :=
  Prog RedisCommand RedisCommand.Response (Except RedisRegistryError α)

/-- Go on unless the context is cancelled or the registry closed. -/
def RegistryCode.entered {α : Type} (rest : RegistryCode α) : RegistryCode α :=
  .perform .enter fun
    | some err => .ret (.error (.registry err))
    | none => rest

/-- Go on unless a check fails. -/
def RegistryCode.checked {α : Type} (invalid : Option RegistryError) (rest : RegistryCode α) :
    RegistryCode α :=
  match invalid with
  | some err => .ret (.error (.registry err))
  | none => rest

/-- Go on with the value of a part of the method, or return its error. -/
def RegistryCode.andThen {α β : Type} (code : RegistryCode α) (rest : α → RegistryCode β) :
    RegistryCode β :=
  Prog.bind code fun
    | .ok value => rest value
    | .error err => .ret (.error err)

namespace RedisRegistry

/-- `normalizeEntry`. -/
def normalizeEntry (r : RedisRegistry) (entry : RouteEntry) (now : Int) : RouteEntry :=
  { entry with
    updatedAt := if isZero entry.updatedAt then now else entry.updatedAt
    expiresAt := if 0 < r.ttl then now + r.ttl else entry.expiresAt }

/-- `onlineRoutePattern`. -/
def onlineRoutePattern (r : RedisRegistry) : GoString :=
  r.keyPrefix ++ ascii ":online:*"

section

variable [Base64]

/-- `routeKey`. -/
def routeKey (r : RedisRegistry) (key : RouteKey) : GoString :=
  r.keyPrefix ++ ascii ":online:" ++ Base64.encodeToString key.clientID ++ ascii ":" ++
    Base64.encodeToString key.deviceID

/-- `Bind`. -/
def bind (r : RedisRegistry) (entry : RouteEntry) : RegistryCode Unit :=
  .entered <| .checked (validateRouteEntry entry) <|
    .perform .now fun now =>
      let entry := r.normalizeEntry entry now
      .perform (.bind (r.routeKey entry.key) (routeEntryFields entry) r.ttl) fun
        | .ok () => .ret (.ok ())
        | .error err => .ret (.error err)

/-- `Unbind`. -/
def unbind (r : RedisRegistry) (key : RouteKey) (sessionID : GoString) : RegistryCode Unit :=
  .entered <| .checked (validateUnbind key sessionID) <|
    .perform (.unbind (r.routeKey key) sessionID) fun
      | .ok _ => .ret (.ok ())
      | .error err => .ret (.error err)

/-- `Lookup`. -/
def lookup (r : RedisRegistry) (key : RouteKey) : RegistryCode (Option RouteEntry) :=
  .entered <| .checked (validateRouteKey key) <|
    .perform (.hgetall (r.routeKey key)) fun
      | .error err => .ret (.error err)
      | .ok none => .ret (.ok none)
      | .ok (some fields) =>
        match routeEntryFromFields fields with
        | .error err => .ret (.error err)
        | .ok entry =>
          RegistryCode.checked (validateRouteEntry entry) <|
            if entry.key ≠ key then .ret (.error (.registry .invalidRouteEntry))
            else
              .perform .now fun now =>
                if entry.expired now then
                  .perform (.del (r.routeKey key)) fun _ => .ret (.ok none)
                else .ret (.ok (some entry))

/-- `Touch`. -/
def touch (r : RedisRegistry) (entry : RouteEntry) : RegistryCode Unit :=
  .entered <| .checked (validateRouteEntry entry) <|
    .perform .now fun now =>
      let entry := r.normalizeEntry entry now
      .perform
        (.touch (r.routeKey entry.key) entry.sessionID (routeEntryFields entry) (r.ttl / 1000000))
        fun
          | .error err => .ret (.error err)
          | .ok result =>
            if result = 1 then .ret (.ok ())
            else if result = -1 then .ret (.error (.registry .sessionMismatch))
            else .ret (.error (.registry .routeNotFound))

end

/-- The inner loop of `List`: the entries of the keys one `SCAN` found, after those in `routes`. -/
def readRoutes (filter : RouteListFilter) (now : Int) :
    List GoString → List RouteEntry → RegistryCode (List RouteEntry)
  | [], routes => .ret (.ok routes)
  | key :: keys, routes =>
    .perform (.hgetall key) fun
      | .error err => .ret (.error err)
      | .ok none => readRoutes filter now keys routes
      | .ok (some fields) =>
        match routeEntryFromFields fields with
        | .error err => .ret (.error err)
        | .ok entry =>
          RegistryCode.checked (validateRouteEntry entry) <|
            if entry.expired now then
              .perform (.del key) fun _ => readRoutes filter now keys routes
            else if routeEntryMatchesFilter entry filter then
              readRoutes filter now keys (routes ++ [entry])
            else readRoutes filter now keys routes

/-- The outer loop of `List`, for at most `rounds` rounds of `SCAN`. -/
def scanRoutes (pattern : GoString) (filter : RouteListFilter) (now : Int) :
    Nat → Nat → List RouteEntry → RegistryCode (List RouteEntry)
  | 0, _, _ => .ret (.error .scanning)
  | rounds + 1, cursor, routes =>
    .perform (.scan cursor pattern) fun
      | .error err => .ret (.error err)
      | .ok (keys, nextCursor) =>
        RegistryCode.andThen (readRoutes filter now keys routes) fun routes =>
          if nextCursor = 0 then .ret (.ok routes)
          else scanRoutes pattern filter now rounds nextCursor routes

/-- The answer of `List` to the entries it has read. -/
def listResult (filter : RouteListFilter) (routes : List RouteEntry) : RouteListResult where
  total := routes.length
  uniqueClients := uniqueRouteClientCount (routes.mergeSort routeEntryLe)
  routes :=
    if 0 < filter.limit && filter.limit < routes.length then
      (routes.mergeSort routeEntryLe).take filter.limit.toNat
    else routes.mergeSort routeEntryLe

/-- `List`; how many rounds `SCAN` takes is up to the server. -/
def list [Base64] (r : RedisRegistry) (filter : RouteListFilter) (rounds : Nat) :
    RegistryCode RouteListResult :=
  .entered <|
    if filter.clientID ≠ [] && filter.deviceID ≠ [] then
      .andThen (r.lookup ⟨filter.clientID, filter.deviceID⟩) fun
        | none => .ret (.ok ⟨0, 0, []⟩)
        | some entry =>
          if routeEntryMatchesFilter entry filter then .ret (.ok ⟨1, 1, [entry]⟩)
          else .ret (.ok ⟨0, 0, []⟩)
    else
      .perform .now fun now =>
        RegistryCode.andThen (scanRoutes r.onlineRoutePattern filter now rounds 0 []) fun routes =>
          .ret (.ok (listResult filter routes))

end RedisRegistry

/-! ## Gateways that share a server -/

inductive RegistryCall where
  | bind (entry : RouteEntry)
  | unbind (key : RouteKey) (sessionID : GoString)
  | lookup (key : RouteKey)
  | list (filter : RouteListFilter) (rounds : Nat)
  | touch (entry : RouteEntry)

/-- The code of a call; what it returns matters to nobody else. -/
def RegistryCall.body [Base64] (r : RedisRegistry) :
    RegistryCall → Prog RedisCommand RedisCommand.Response Unit
  | .bind entry => r.bind entry >>= fun _ => .ret ()
  | .unbind key sessionID => r.unbind key sessionID >>= fun _ => .ret ()
  | .lookup key => r.lookup key >>= fun _ => .ret ()
  | .list filter rounds => r.list filter rounds >>= fun _ => .ret ()
  | .touch entry => r.touch entry >>= fun _ => .ret ()

/-- Any number of gateways, each with its settings, on one server. -/
def redisGateways [Base64] : System RedisStore (RedisRegistry × RegistryCall) RedisCommand
    RedisCommand.Response RedisEnv Unit where
  body call := call.2.body call.1
  start _ s := some s
  exec command env s := some (s.exec env command)

/-- The events of one call. -/
abbrev RedisLog := List (Event RedisCommand RedisCommand.Response)

/-- A configuration of `redisGateways`. -/
abbrev RedisGateways :=
  Config RedisStore (RedisRegistry × RegistryCall) RedisCommand RedisCommand.Response Unit

/-- A step of `redisGateways` with the configurations around it. -/
abbrev RedisStep :=
  Transition RedisStore (RedisRegistry × RegistryCall) RedisCommand RedisCommand.Response
    RedisEnv Unit

/-- The hash a call has read, up to a look at the clock since. -/
def lastRead? (log : RedisLog) : Option (GoString × RouteFields) :=
  match log.reverse with
  | ⟨.hgetall key, .ok (some fields)⟩ :: _ => some (key, fields)
  | ⟨.now, _⟩ :: ⟨.hgetall key, .ok (some fields)⟩ :: _ => some (key, fields)
  | _ => none

/-- A `Lookup` or `List` between its `HGETALL` of a key and its verdict or its `DEL`. -/
def Judging (thread : Thread (RedisRegistry × RegistryCall) RedisCommand RedisCommand.Response Unit)
    (key : GoString) (fields : RouteFields) : Prop :=
  lastRead? thread.log = some (key, fields) ∧
    (thread.prog.next? = some .now ∨ thread.prog.next? = some (.del key))

/-- The step is a `DEL` of `Lookup` or `List`, at the given time of its gateway, that removes the
hash. -/
def RedisStep.Removes (t : RedisStep) (now : Int) (hash : RedisHash) : Prop :=
  ∃ i env tag log key next, t.choice = .act i env ∧ env.now = now ∧
    t.before.threads[i]? = some ⟨tag, log, .perform (.del key) next⟩ ∧
    t.before.state.get? hash.key = some hash ∧ t.after.state.get? hash.key = none

/-- No step stores another expiry under a key that a `Lookup` or `List` has read and not dealt
with, and the clock of a gateway does not go back during a call. -/
structure RedisStep.Undisturbed (t : RedisStep) : Prop where
  expiry : ∀ thread ∈ t.before.threads, ∀ key fields, Judging thread key fields →
    ∀ hash, t.after.state.get? key = some hash → ∃ hash', t.before.state.get? key = some hash' ∧
      hash'.fields.expiresAtUnixNano = hash.fields.expiresAtUnixNano
  clock : ∀ i env, t.choice = .act i env → ∀ thread, t.before.threads[i]? = some thread →
    ∀ readAt, ⟨.now, readAt⟩ ∈ thread.log → readAt ≤ env.now

/-! ## What the methods perform -/

/-- The call has read a hash under the key that was expired at a time it read. -/
def Condemned (log : RedisLog) (key : GoString) : Prop :=
  ∃ fields entry readAt, lastRead? log = some (key, fields) ∧
    routeEntryFromFields fields = .ok entry ∧ ⟨.now, readAt⟩ ∈ log ∧
    entry.expired readAt = true

/-- A command, given what the call has done before. -/
def RedisCommand.Allowed (log : RedisLog) : RedisCommand → Prop
  | .del key => Condemned log key
  | _ => True

/-- The code deletes only what it has found expired. -/
abbrev Considerate {α : Type} (code : Prog RedisCommand RedisCommand.Response α) (log : RedisLog) :
    Prop :=
  code.Meets (.protocol RedisCommand.Allowed fun _ _ => True) (fun _ log' => log <+: log') log

section Considerate

variable {α β : Type} {log : RedisLog}

theorem considerate_ret {value : α} :
    Considerate (.ret value : Prog RedisCommand RedisCommand.Response α) log :=
  List.prefix_refl log

/-- A command other than `DEL`, followed by considerate code. -/
theorem considerate_perform {command : RedisCommand}
    {next : command.Response → Prog RedisCommand RedisCommand.Response α}
    (hallowed : command.Allowed log)
    (hnext : ∀ response, Considerate (next response) (log ++ [⟨command, response⟩])) :
    Considerate (.perform command next) log := by
  refine ⟨hallowed, ?_⟩
  rintro response log' ⟨-, rfl⟩
  refine (hnext response).mono fun value log' hlog => ?_
  exact (List.prefix_append _ _).trans hlog

theorem considerate_checked {invalid : Option RegistryError} {rest : RegistryCode α}
    (h : Considerate rest log) : Considerate (RegistryCode.checked invalid rest) log := by
  cases invalid with
  | none => exact h
  | some err => exact considerate_ret

theorem considerate_entered {rest : RegistryCode α}
    (h : Considerate rest (log ++ [⟨.enter, none⟩])) :
    Considerate (RegistryCode.entered rest) log := by
  refine considerate_perform trivial fun response => ?_
  cases response with
  | none => exact h
  | some err => exact considerate_ret

theorem considerate_bind {code : Prog RedisCommand RedisCommand.Response α}
    {rest : α → Prog RedisCommand RedisCommand.Response β} (h : Considerate code log)
    (hrest : ∀ value log', log <+: log' → Considerate (rest value) log') :
    Considerate (code >>= rest) log := by
  refine Prog.Meets.bind h fun value log' hlog => ?_
  exact (hrest value log' hlog).mono fun _ _ hmore => hlog.trans hmore

theorem considerate_andThen {code : RegistryCode α} {rest : α → RegistryCode β}
    (h : Considerate code log)
    (hrest : ∀ value log', log <+: log' → Considerate (rest value) log') :
    Considerate (RegistryCode.andThen code rest) log := by
  refine considerate_bind h fun value log' hlog => ?_
  cases value with
  | ok value => exact hrest value log' hlog
  | error err => exact considerate_ret

end Considerate

theorem lookup_considerate [Base64] (r : RedisRegistry) (key : RouteKey) (log : RedisLog) :
    Considerate (r.lookup key) log := by
  refine considerate_entered (considerate_checked (considerate_perform trivial fun response => ?_))
  match response with
  | .error err => exact considerate_ret
  | .ok none => exact considerate_ret
  | .ok (some fields) =>
    dsimp only
    split
    · exact considerate_ret
    · next entry hentry =>
      refine considerate_checked ?_
      split
      · exact considerate_ret
      · refine considerate_perform trivial fun now => ?_
        split
        · next hexpired =>
          refine considerate_perform ⟨fields, entry, now, ?_, hentry, ?_, hexpired⟩ fun _ =>
            considerate_ret
          · simp [lastRead?]
          · simp
        · exact considerate_ret

theorem read_routes_considerate {filter : RouteListFilter} {now : Int} {keys : List GoString}
    {routes : List RouteEntry} {log : RedisLog} (hnow : ⟨.now, now⟩ ∈ log) :
    Considerate (RedisRegistry.readRoutes filter now keys routes) log := by
  induction keys generalizing routes log with
  | nil => exact considerate_ret
  | cons key keys ih =>
    refine considerate_perform trivial fun response => ?_
    have hread : (⟨.now, now⟩ : Event RedisCommand RedisCommand.Response) ∈
        log ++ [⟨.hgetall key, response⟩] := List.mem_append_left _ hnow
    match response with
    | .error err => exact considerate_ret
    | .ok none => exact ih hread
    | .ok (some fields) =>
      dsimp only
      split
      · exact considerate_ret
      · next entry hentry =>
        refine considerate_checked ?_
        split
        · next hexpired =>
          refine considerate_perform ⟨fields, entry, now, ?_, hentry, hread, hexpired⟩
            fun _ => ih (List.mem_append_left _ hread)
          simp [lastRead?]
        · split
          · exact ih hread
          · exact ih hread

theorem scan_routes_considerate {pattern : GoString} {filter : RouteListFilter} {now : Int}
    {rounds cursor : Nat} {routes : List RouteEntry} {log : RedisLog} (hnow : ⟨.now, now⟩ ∈ log) :
    Considerate (RedisRegistry.scanRoutes pattern filter now rounds cursor routes) log := by
  induction rounds generalizing cursor routes log with
  | zero => exact considerate_ret
  | succ rounds ih =>
    refine considerate_perform trivial fun response => ?_
    match response with
    | .error err => exact considerate_ret
    | .ok (keys, nextCursor) =>
      refine considerate_andThen (read_routes_considerate (List.mem_append_left _ hnow)) ?_
      intro routes log' hlog
      split
      · exact considerate_ret
      · exact ih (hlog.subset (List.mem_append_left _ hnow))

theorem list_considerate [Base64] (r : RedisRegistry) (filter : RouteListFilter) (rounds : Nat)
    (log : RedisLog) : Considerate (r.list filter rounds) log := by
  refine considerate_entered ?_
  split
  · refine considerate_andThen (lookup_considerate _ _ _) fun found log' _ => ?_
    cases found with
    | none => exact considerate_ret
    | some entry =>
      dsimp only
      split
      · exact considerate_ret
      · exact considerate_ret
  · refine considerate_perform trivial fun now => ?_
    refine considerate_andThen (scan_routes_considerate ?_) fun routes log' _ => considerate_ret
    simp

theorem registry_call_considerate [Base64] (r : RedisRegistry) (call : RegistryCall) :
    Considerate (call.body r) [] := by
  cases call with
  | bind entry =>
    refine considerate_bind (considerate_entered (considerate_checked
      (considerate_perform trivial fun now => considerate_perform trivial fun response => ?_)))
      fun _ _ _ => considerate_ret
    cases response <;> exact considerate_ret
  | unbind key sessionID =>
    refine considerate_bind (considerate_entered (considerate_checked
      (considerate_perform trivial fun response => ?_))) fun _ _ _ => considerate_ret
    cases response <;> exact considerate_ret
  | lookup key => exact considerate_bind (lookup_considerate r key []) fun _ _ _ => considerate_ret
  | list filter rounds =>
    exact considerate_bind (list_considerate r filter rounds []) fun _ _ _ => considerate_ret
  | touch entry =>
    refine considerate_bind (considerate_entered (considerate_checked
      (considerate_perform trivial fun now => considerate_perform trivial fun response => ?_)))
      fun _ _ _ => considerate_ret
    match response with
    | .error err => exact considerate_ret
    | .ok result =>
      dsimp only
      split
      · exact considerate_ret
      · split
        · exact considerate_ret
        · exact considerate_ret

/-! ## Every run -/

section Runs

variable {s : RedisStore} {env : RedisEnv}

theorem exec_hgetall {key : GoString} {fields : RouteFields}
    (h : (s.exec env (.hgetall key)).1 = .ok (some fields)) :
    (s.exec env (.hgetall key)).2 = s ∧
      ∃ hash, s.get? key = some hash ∧ hash.fields = fields := by
  unfold RedisStore.exec RedisStore.send at h ⊢
  cases hdelivery : env.delivery with
  | lost | unanswered =>
    rw [hdelivery] at h
    cases h
  | answered =>
    rw [hdelivery] at h
    obtain ⟨hash, hget, hfields⟩ := Option.map_eq_some_iff.mp (Except.ok.inj h)
    exact ⟨rfl, hash, (Option.filter_eq_some_iff.mp hget).1, hfields⟩

theorem exec_del {key : GoString} {hash : RedisHash} (hbefore : s.get? hash.key = some hash)
    (hafter : (s.exec env (.del key)).2.get? hash.key = none) : hash.key = key := by
  unfold RedisStore.exec RedisStore.send at hafter
  cases hdelivery : env.delivery with
  | lost =>
    rw [hdelivery] at hafter
    cases hbefore.symm.trans hafter
  | answered | unanswered =>
    rw [hdelivery] at hafter
    simp only [RedisStore.command] at hafter
    rw [Table.get?_erase] at hafter
    split at hafter
    · assumption
    · cases hbefore.symm.trans hafter

/-- What a call is judging is gone or has the expiry it has read. -/
def RedisGateways.Unrefreshed (config : RedisGateways) : Prop :=
  ∀ thread ∈ config.threads, ∀ key fields, Judging thread key fields →
    ∀ hash, config.state.get? key = some hash →
      hash.fields.expiresAtUnixNano = fields.expiresAtUnixNano

theorem last_read_concat {log : RedisLog} {command : RedisCommand} {response : command.Response}
    {key : GoString} {fields : RouteFields}
    (h : lastRead? (log ++ [⟨command, response⟩]) = some (key, fields)) :
    (∃ hcommand : command = .hgetall key,
      (hcommand ▸ response : RedisCommand.Response (.hgetall key)) = .ok (some fields)) ∨
      command = .now ∧ lastRead? log = some (key, fields) := by
  unfold lastRead? at h ⊢
  rw [List.reverse_append, List.reverse_singleton, List.singleton_append] at h
  split at h
  · next heq =>
    obtain ⟨hevent, -⟩ := List.cons.inj heq
    obtain ⟨rfl, hresponse⟩ := Event.mk.inj hevent
    obtain rfl := eq_of_heq hresponse
    obtain ⟨rfl, rfl⟩ := Prod.mk.inj (Option.some.inj h)
    exact .inl ⟨rfl, rfl⟩
  · next heq =>
    obtain ⟨hevent, hrest⟩ := List.cons.inj heq
    obtain ⟨rfl, -⟩ := Event.mk.inj hevent
    rw [hrest]
    exact .inr ⟨rfl, h⟩
  · cases h

variable [Base64] {history : List RedisStep} {after : RedisGateways}

theorem undisturbed_unrefreshed
    (h : Run redisGateways RedisStep.Undisturbed (.idle s) history after) :
    after.Unrefreshed ∧
      after.Follows (fun _ => RedisCommand.Allowed) (fun _ _ => True)
        fun _ _ log => [] <+: log := by
  refine h.protocol (fun _ => RedisCommand.Allowed) (fun _ _ => True) (fun _ _ log => [] <+: log)
    RedisGateways.Unrefreshed (by simp [RedisGateways.Unrefreshed, Config.idle]) ?_ ?_ ?_
  · intro before tag after _
    exact registry_call_considerate tag.1 tag.2
  · intro before tag state' hinv hstart _ thread hthread key fields hjudging
    obtain rfl := Option.some.inj hstart
    rcases List.mem_append.mp hthread with hthread | hthread
    · exact hinv thread hthread key fields hjudging
    · rw [List.mem_singleton] at hthread
      subst hthread
      cases hjudging.1
  · intro before i env tag log command next response state' hinv hthread _ hexec hok
    refine ⟨trivial, fun thread hmem key fields hjudging hash hget => ?_⟩
    obtain ⟨hresponse, hstate⟩ := Prod.mk.inj (Option.some.inj hexec)
    rcases List.mem_or_eq_of_mem_set hmem with hmem | rfl
    · obtain ⟨hash', hget', hsame⟩ := hok.expiry thread hmem key fields hjudging hash hget
      rw [← hsame]
      exact hinv thread hmem key fields hjudging hash' hget'
    · -- the acting thread has just read the hash, or the clock after it
      rcases last_read_concat hjudging.1 with ⟨rfl, hfields⟩ | ⟨rfl, hread⟩
      · obtain ⟨hsame, stored, hstored, rfl⟩ := exec_hgetall (hresponse.trans hfields)
        obtain rfl : state' = before.state := hstate.symm.trans hsame
        rw [Option.some.inj (hstored.symm.trans hget)]
      · obtain rfl : state' = before.state := hstate.symm
        exact hinv _ (List.mem_of_getElem? hthread) key fields ⟨hread, .inl rfl⟩ hash hget

/-- A `DEL` of `Lookup` or `List` removes no hash whose stored expiry is in the future, in every
run in which no step stores another expiry under a hash being judged and no gateway's clock goes
back during a call. -/
theorem reads_spare_fresh (h : Run redisGateways RedisStep.Undisturbed (.idle s) history after)
    {t : RedisStep} (ht : t ∈ history) {now : Int} {hash : RedisHash}
    (hremoves : t.Removes now hash) {expiresAt : Int}
    (hexpires : parseUnixNano hash.fields.expiresAtUnixNano = .ok expiresAt) :
    expiresAt ≤ now := by
  obtain ⟨⟨earlier, hrun⟩, hstep, hok⟩ := h.transition ht
  obtain ⟨hinv, hfollows⟩ := undisturbed_unrefreshed hrun
  obtain ⟨i, env, tag, log, key, next, hchoice, rfl, hthread, hbefore, hafter⟩ := hremoves
  have hcondemned : Condemned log key := hfollows.next_allowed hthread
  obtain ⟨fields, entry, readAt, hread, hentry, hclock, hexpired⟩ := hcondemned
  have hstate : t.after.state = (t.before.state.exec env (.del key)).2 := by
    rw [hchoice] at hstep
    generalize t.after = result at hstep
    cases hstep with
    | act hthread' hexec =>
      cases Option.some.inj (hthread.symm.trans hthread')
      exact (congrArg Prod.snd (Option.some.inj hexec)).symm
  rw [hstate] at hafter
  have hkey := exec_del hbefore hafter
  have hsame := hinv _ (List.mem_of_getElem? hthread) key fields ⟨hread, .inr rfl⟩ hash
    (hkey ▸ hbefore)
  have hstored : entry.expiresAt = expiresAt := by
    have hfields := expiry_of_fields hentry
    rw [← hsame, hexpires] at hfields
    exact (Except.ok.inj hfields).symm
  have hold : entry.expiresAt ≤ readAt := by
    simp only [RouteEntry.expired, Bool.and_eq_true, decide_eq_true_eq] at hexpired
    exact hexpired.2
  have hlater : readAt ≤ env.now := hok.clock i env hchoice _ hthread readAt hclock
  omega

end Runs

/-! ## A device that binds again between the two commands -/

/-- The hash under the key, if the thread's next step is a `DEL` that removes it. -/
def removedHash [Base64] (i : Nat) (env : RedisEnv) (key : GoString) (before : RedisGateways) :
    Option RedisHash :=
  match before.state.get? key, redisGateways.step before (.act i env) with
  | some hash, some after =>
    if before.threads[i]?.bind (fun thread => thread.prog.next?) = some (.del key) ∧
        after.state.get? key = none then some hash
    else none
  | _, _ => none

theorem removes_of_removed_hash [Base64] {i : Nat} {env : RedisEnv} {key : GoString}
    {before : RedisGateways} {hash : RedisHash} (h : removedHash i env key before = some hash) :
    ∃ after, redisGateways.step before (.act i env) = some after ∧
      RedisStep.Removes ⟨before, .act i env, after⟩ env.now hash := by
  unfold removedHash at h
  split at h
  · next stored after hget hstep =>
    split at h
    · next hdel =>
      obtain rfl := Option.some.inj h
      obtain ⟨⟨tag, log, prog⟩, hthread, hnext⟩ := Option.bind_eq_some_iff.mp hdel.1
      obtain ⟨next, rfl⟩ := Prog.eq_perform_of_next? hnext
      have hkey : stored.key = key := Table.key_of_get? hget
      refine ⟨after, hstep, i, env, tag, log, key, next, rfl, rfl, hthread, ?_, ?_⟩
      · rwa [hkey]
      · rw [hkey]
        exact hdel.2
    · cases h
  · cases h

/-- A gateway whose routes last ten seconds. -/
def tenSeconds : RedisRegistry := ⟨ascii "z", 10 * second⟩

/-- The route of device `d` of client `c` at gateway `a`. -/
def routeOfC (sessionID : GoString) : RouteEntry :=
  ⟨ascii "c", ascii "d", sessionID, ascii "a", [], [], 0, 0⟩

/-- A step at the given millisecond of 1970; both clocks agree. -/
def millis (n : Int) : RedisEnv := ⟨none, unixTime (n * 1000000), n, .answered, ([], 0)⟩

/-- The device binds at one second; just before eleven seconds another gateway's `Lookup` reads
the route, and at eleven seconds it finds it expired. -/
def judgeRoute : List (Choice (RedisRegistry × RegistryCall) RedisEnv) :=
  .start (tenSeconds, .bind (routeOfC (ascii "s1"))) :: Choice.turns 0 3 (millis 1000) ++
    [.start (tenSeconds, .lookup ⟨ascii "c", ascii "d"⟩), .act 1 (millis 10999),
      .act 1 (millis 10999), .act 1 (millis 11000)]

/-- Then the device binds again. -/
def rebindRoute : List (Choice (RedisRegistry × RegistryCall) RedisEnv) :=
  judgeRoute ++
    .start (tenSeconds, .bind (routeOfC (ascii "s2"))) :: Choice.turns 2 3 (millis 11000)

def keyOfC : GoString :=
  @RedisRegistry.routeKey Base64.letters tenSeconds ⟨ascii "c", ascii "d"⟩

/-- The `DEL` of the `Lookup` removes the new route, which expires ten seconds later. -/
theorem rebound_route_deleted :
    ∃ (history : List RedisStep) (t : RedisStep) (hash : RedisHash) (now expiresAt : Int),
      Run (@redisGateways Base64.letters) (fun _ => True) (.idle .empty) (history ++ [t]) t.after ∧
      t.Removes now hash ∧ parseUnixNano hash.fields.expiresAtUnixNano = .ok expiresAt ∧
      now + 10 * second = expiresAt := by
  have hreplay : (((@redisGateways Base64.letters).replay (.idle .empty) rebindRoute).bind
      (@removedHash Base64.letters 1 (millis 11000) keyOfC)).map
        (fun hash => parseUnixNano hash.fields.expiresAtUnixNano) =
      some (.ok ((millis 11000).now + 10 * second)) := by decide +kernel
  obtain ⟨hash, hremoved, hexpires⟩ := Option.map_eq_some_iff.mp hreplay
  obtain ⟨before, hbefore, hhash⟩ := Option.bind_eq_some_iff.mp hremoved
  obtain ⟨after, hstep, hremoves⟩ := @removes_of_removed_hash Base64.letters _ _ _ _ _ hhash
  obtain ⟨history, hrun⟩ := System.replay_run (fun _ => True) hbefore fun _ _ => trivial
  refine ⟨history, _, hash, _, _, hrun.snoc (System.step_sound hstep) trivial, hremoves,
    hexpires, rfl⟩

/-- No expiry is stored under what a call has read last, and the clock of the acting call has not
gone back. -/
def undisturbedCheck (t : RedisStep) : Bool :=
  (t.before.threads.all fun thread => (lastRead? thread.log).all fun read =>
    (t.after.state.get? read.1).all fun hash =>
      (t.before.state.get? read.1).any fun hash' =>
        hash'.fields.expiresAtUnixNano = hash.fields.expiresAtUnixNano) &&
    match t.choice with
    | .start _ => true
    | .act i env => t.before.threads[i]?.all fun thread => thread.log.all fun
        | ⟨.now, readAt⟩ => decide ((readAt : Int) ≤ env.now)
        | _ => true

theorem undisturbed_of_check {t : RedisStep} (h : undisturbedCheck t = true) : t.Undisturbed := by
  obtain ⟨hexpiry, hclock⟩ := Bool.and_eq_true_iff.mp h
  constructor
  · intro thread hthread key fields hjudging hash hget
    have hread := List.all_eq_true.mp hexpiry thread hthread
    rw [hjudging.1] at hread
    simp only [Option.all_some, hget] at hread
    obtain ⟨hash', hget', hsame⟩ := (Option.any_eq_true _ _).mp hread
    exact ⟨hash', hget', by simpa using hsame⟩
  · intro i env hchoice thread hthread readAt hevent
    rw [hchoice] at hclock
    simp only [hthread, Option.all_some] at hclock
    simpa using List.all_eq_true.mp hclock _ hevent

/-- Without the second bind the `DEL` removes the expired route. -/
theorem reads_spare_fresh_expired :
    ∃ (history : List RedisStep) (t : RedisStep) (hash : RedisHash) (now expiresAt : Int),
      Run (@redisGateways Base64.letters) RedisStep.Undisturbed (.idle .empty) (history ++ [t])
        t.after ∧
      t.Removes now hash ∧ parseUnixNano hash.fields.expiresAtUnixNano = .ok expiresAt ∧
      expiresAt ≤ now := by
  have hreplay : (((@redisGateways Base64.letters).replayWhile undisturbedCheck (.idle .empty)
      judgeRoute).bind (@removedHash Base64.letters 1 (millis 11000) keyOfC)).map
        (fun hash => parseUnixNano hash.fields.expiresAtUnixNano) =
      some (.ok (millis 11000).now) := by decide +kernel
  have hlast : ((@redisGateways Base64.letters).replayWhile undisturbedCheck (.idle .empty)
      judgeRoute).bind (fun before : RedisGateways =>
        ((@redisGateways Base64.letters).step before (.act 1 (millis 11000))).map fun after =>
          undisturbedCheck ⟨before, .act 1 (millis 11000), after⟩) = some true := by
    decide +kernel
  obtain ⟨hash, hremoved, hexpires⟩ := Option.map_eq_some_iff.mp hreplay
  obtain ⟨before, hbefore, hhash⟩ := Option.bind_eq_some_iff.mp hremoved
  obtain ⟨after, hstep, hremoves⟩ := @removes_of_removed_hash Base64.letters _ _ _ _ _ hhash
  obtain ⟨history, hrun⟩ := System.replayWhile_run undisturbed_of_check hbefore
  have hok : RedisStep.Undisturbed ⟨before, .act 1 (millis 11000), after⟩ := by
    rw [hbefore, Option.bind_some, hstep, Option.map_some] at hlast
    exact undisturbed_of_check (Option.some.inj hlast)
  have hall := hrun.snoc (System.step_sound hstep) hok
  exact ⟨history, _, hash, _, _, hall, hremoves, hexpires,
    @reads_spare_fresh _ Base64.letters _ _ hall _ (by simp) _ _ hremoves _ hexpires⟩

end ZCourier.Server
