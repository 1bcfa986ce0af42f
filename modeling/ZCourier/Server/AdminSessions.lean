import ZCourier.Go.Text
import ZCourier.Go.Time
import ZCourier.Server.RedisRegistry
import ZCourier.Signing.Canonical

/-!
# Admin sessions on Redis

`redisAdminSessionStore` of `internal/server/admin_session_redis.go`: a session is a hash under a
key made of the token's hash. `Lookup` reads the hash with `HGETALL` and writes the time of the
lookup back in a later `MULTI`, which looks at nothing. `logged_out_stays` holds while no such
write finds its hash gone; in `lookup_revives_session` one does.
-/

namespace ZCourier.Server

open Go Library Signing

/-! ## Sessions -/

/-- `adminSession`. -/
structure AdminSession where
  sessionID : GoString
  principal : GoString
  role : GoString
  createdAt : Int
  expiresAt : Int
  lastSeenAt : Int
  deriving DecidableEq

inductive AdminSessionError where
  | closed
  | ttlNotPositive
  | redis
  | fieldEmpty (field : GoString)
  | fieldInvalid (field : GoString)
  | sessionIDEmpty
  deriving DecidableEq

/-- `normalizeAdminRole`. -/
def normalizeAdminRole (role : GoString) : GoString :=
  let role := toLower (trimSpace role)
  if role = ascii "readonly" then ascii "readonly"
  else if role = ascii "operator" then ascii "operator"
  else ascii "admin"

abbrev SessionFields := Table (Prod.fst : GoString × GoString → GoString)

/-- A field; one that is missing reads as the empty string. -/
def SessionFields.field (fields : SessionFields) (name : GoString) : GoString :=
  ((fields.get? name).map Prod.snd).getD []

/-- `redisUnixNano`. -/
def redisUnixNano (fields : SessionFields) (field : GoString) : Except AdminSessionError Int :=
  let value := trimSpace (fields.field field)
  if value = [] then .error (.fieldEmpty field)
  else
    match parseInt value with
    | none => .error (.fieldInvalid field)
    | some nano => .ok (unixTime nano)

/-- `adminSessionFromRedisFields`. -/
def adminSessionFromRedisFields (fields : SessionFields) :
    Except AdminSessionError AdminSession := do
  let createdAt ← redisUnixNano fields (ascii "created_at_unix_nano")
  let expiresAt ← redisUnixNano fields (ascii "expires_at_unix_nano")
  let lastSeenAt ← redisUnixNano fields (ascii "last_seen_at_unix_nano")
  let sessionID := trimSpace (fields.field (ascii "session_id"))
  let principal := trimSpace (fields.field (ascii "principal"))
  let role := normalizeAdminRole (fields.field (ascii "role"))
  if sessionID = [] then .error .sessionIDEmpty
  else
    return {
      sessionID
      principal := if principal = [] then ascii "internal" else principal
      role
      createdAt
      expiresAt
      lastSeenAt }

/-- The fields `Save` writes. -/
def AdminSession.fields (session : AdminSession) : List (GoString × GoString) :=
  [(ascii "session_id", session.sessionID),
    (ascii "principal", session.principal),
    (ascii "role", normalizeAdminRole session.role),
    (ascii "created_at_unix_nano", formatInt (unixNano session.createdAt)),
    (ascii "expires_at_unix_nano", formatInt (unixNano session.expiresAt)),
    (ascii "last_seen_at_unix_nano", formatInt (unixNano session.lastSeenAt))]

/-! ## The server -/

/-- A hash with the time, in milliseconds of the server's clock, at which it goes away. -/
structure SessionHash where
  key : GoString
  fields : SessionFields
  deadline : Option Int

/-- The hashes the server holds; one past its deadline counts as absent. -/
abbrev SessionHashes := Table SessionHash.key

/-- What the surroundings supply to one step: whether the store is closed, the server's clock and
whether a command gets through. -/
structure AdminSessionEnv where
  closed : Bool
  serverMillis : Int
  delivery : Delivery

/-- What a method does besides local computation. -/
inductive SessionCommand where
  | ensureOpen
  | hgetall (key : GoString)
  | del (key : GoString)
  | hsetPExpire (key : GoString) (fields : List (GoString × GoString)) (ttl : Int)
  deriving DecidableEq

/-- What the method gets. -/
abbrev SessionCommand.Response : SessionCommand → Type
  | .ensureOpen => Option AdminSessionError
  | .hgetall _ => Except AdminSessionError SessionFields
  | .del _ => Except AdminSessionError Nat
  | .hsetPExpire .. => Except AdminSessionError Unit

namespace SessionHashes

/-- The hash under a key, if it is there and not past its deadline. -/
def hash? (s : SessionHashes) (env : AdminSessionEnv) (key : GoString) : Option SessionHash :=
  (s.get? key).filter fun hash => alive env.serverMillis hash.deadline

/-- `HSET` and `PEXPIRE` in a `MULTI`. -/
def hsetPExpire (s : SessionHashes) (env : AdminSessionEnv) (key : GoString)
    (fields : List (GoString × GoString)) (ttl : Int) : SessionHashes :=
  let stored := ((s.hash? env key).map SessionHash.fields).getD .empty
  s.put ⟨key, fields.foldl Table.put stored, some (env.serverMillis + formatMs ttl)⟩

/-- A command over the network. -/
def send {α : Type} (s : SessionHashes) (delivery : Delivery) (result : α × SessionHashes) :
    Except AdminSessionError α × SessionHashes :=
  match delivery with
  | .answered => (.ok result.1, result.2)
  | .lost => (.error .redis, s)
  | .unanswered => (.error .redis, result.2)

/-- One step of a method. -/
def exec (s : SessionHashes) (env : AdminSessionEnv) : (command : SessionCommand) →
    command.Response × SessionHashes
  | .ensureOpen => (if env.closed then some .closed else none, s)
  | .hgetall key => s.send env.delivery (((s.hash? env key).map SessionHash.fields).getD .empty, s)
  | .del key =>
    s.send env.delivery (if (s.hash? env key).isSome then 1 else 0, s.erase key)
  | .hsetPExpire key fields ttl => s.send env.delivery ((), s.hsetPExpire env key fields ttl)

end SessionHashes

/-! ## The methods -/

/-- `redisAdminSessionStore`. -/
structure RedisAdminSessionStore where
  keyPrefix : GoString

/-- `newRedisAdminSessionStore`, for settings it accepts. -/
def newRedisAdminSessionStore (keyPrefix : GoString) : RedisAdminSessionStore :=
  ⟨if trimSpace keyPrefix = [] then ascii "zcourier:admin-session" else trimSpace keyPrefix⟩

/-- What the methods return. -/
inductive AdminSessionResult where
  | failed (err : AdminSessionError)
  | saved
  | found (session : AdminSession)
  | missing
  | deleted (any : Bool)
  deriving DecidableEq

abbrev SessionCode := Prog SessionCommand SessionCommand.Response

namespace SessionCode

/-- `ensureOpen`. -/
def ensureOpen : SessionCode (Option AdminSessionError) := .call SessionCommand.ensureOpen

/-- `client.HGetAll`. -/
def hgetall (key : GoString) : SessionCode (Except AdminSessionError SessionFields) :=
  .call (SessionCommand.hgetall key)

/-- `client.Del`. -/
def del (key : GoString) : SessionCode (Except AdminSessionError Nat) :=
  .call (SessionCommand.del key)

/-- A `TxPipeline` with `HSet` and `PExpire`. -/
def hsetPExpire (key : GoString) (fields : List (GoString × GoString)) (ttl : Int) :
    SessionCode (Except AdminSessionError Unit) :=
  .call (SessionCommand.hsetPExpire key fields ttl)

end SessionCode

namespace RedisAdminSessionStore

/-- `sessionKey`. -/
def sessionKey (s : RedisAdminSessionStore) (tokenKey : Bytes) : GoString :=
  s.keyPrefix ++ ascii ":" ++ hexEncode tokenKey

/-- `Save`. -/
def save (s : RedisAdminSessionStore) (tokenKey : Bytes) (session : AdminSession) (ttl : Int) :
    SessionCode AdminSessionResult := do
  match ← SessionCode.ensureOpen with
  | some err => return .failed err
  | none =>
    if ttl ≤ 0 then return .failed .ttlNotPositive
    else
      match ← SessionCode.hsetPExpire (s.sessionKey tokenKey) session.fields ttl with
      | .error err => return .failed err
      | .ok () => return .saved

/-- `Lookup` after its `HGETALL`. -/
def found (s : RedisAdminSessionStore) (tokenKey : Bytes) (now : Int) (fields : SessionFields) :
    SessionCode AdminSessionResult :=
  match adminSessionFromRedisFields fields with
  | .error err => return .failed err
  | .ok session => do
      if !(now < session.expiresAt) then
        let _ ← SessionCode.del (s.sessionKey tokenKey)
        return .missing
      else
        let remaining := sub session.expiresAt now
        let lastSeen := (ascii "last_seen_at_unix_nano", formatInt (unixNano now))
        match ← SessionCode.hsetPExpire (s.sessionKey tokenKey) [lastSeen] remaining.toInt with
        | .error err => return .failed err
        | .ok () => return .found { session with lastSeenAt := now }

/-- `Lookup`. -/
def lookup (s : RedisAdminSessionStore) (tokenKey : Bytes) (now : Int) :
    SessionCode AdminSessionResult := do
  match ← SessionCode.ensureOpen with
  | some err => return .failed err
  | none =>
    match ← SessionCode.hgetall (s.sessionKey tokenKey) with
    | .error err => return .failed err
    | .ok fields => if fields.rows = [] then return .missing else s.found tokenKey now fields

/-- `Delete`. -/
def delete (s : RedisAdminSessionStore) (tokenKey : Bytes) : SessionCode AdminSessionResult := do
  match ← SessionCode.ensureOpen with
  | some err => return .failed err
  | none =>
    match ← SessionCode.del (s.sessionKey tokenKey) with
    | .error err => return .failed err
    | .ok deleted => return .deleted (0 < deleted)

end RedisAdminSessionStore

inductive AdminSessionCall where
  | save (tokenKey : Bytes) (session : AdminSession) (ttl : Int)
  | lookup (tokenKey : Bytes) (now : Int)
  | delete (tokenKey : Bytes)
  deriving DecidableEq

def AdminSessionCall.code (s : RedisAdminSessionStore) :
    AdminSessionCall → SessionCode AdminSessionResult
  | .save tokenKey session ttl => s.save tokenKey session ttl
  | .lookup tokenKey now => s.lookup tokenKey now
  | .delete tokenKey => s.delete tokenKey

/-- Any number of calls of the store, for any tokens. -/
def adminSessions (s : RedisAdminSessionStore) :
    System SessionHashes AdminSessionCall SessionCommand SessionCommand.Response AdminSessionEnv
      AdminSessionResult where
  body := AdminSessionCall.code s
  start _ hashes := some hashes
  exec command env hashes := some (hashes.exec env command)

abbrev SessionEvent := Event SessionCommand SessionCommand.Response

abbrev SessionStep := Transition SessionHashes AdminSessionCall SessionCommand
  SessionCommand.Response AdminSessionEnv AdminSessionResult

abbrev SessionCalls := Config SessionHashes AdminSessionCall SessionCommand
  SessionCommand.Response AdminSessionResult

/-! ## What a lookup makes of what it reads -/

/-- What `HGETALL` of a key has answered. -/
def reads (key : GoString) (log : List SessionEvent) : List SessionFields :=
  log.filterMap fun
    | ⟨.hgetall key', .ok fields⟩ => if key' = key then some fields else none
    | _ => none

@[simp] theorem reads_append (key : GoString) (log log' : List SessionEvent) :
    reads key (log ++ log') = reads key log ++ reads key log' := List.filterMap_append

theorem reads_hgetall (key key' : GoString) (fields : SessionFields) :
    reads key [⟨.hgetall key', .ok fields⟩] = if key' = key then [fields] else [] := by
  simp only [reads, List.filterMap_cons, List.filterMap_nil]
  split <;> simp_all

section Lookup

variable {s : RedisAdminSessionStore}

/-- A lookup that reads nothing finds nothing. -/
def MissesEmpty (s : RedisAdminSessionStore) (call : AdminSessionCall)
    (value : AdminSessionResult) (log : List SessionEvent) : Prop :=
  ∀ tokenKey now, call = .lookup tokenKey now →
    ∀ fields ∈ reads (s.sessionKey tokenKey) log, fields.rows = [] → value = .missing

def SessionCommand.isRead : SessionCommand → Bool
  | .hgetall _ => true
  | _ => false

theorem reads_other {command : SessionCommand} (h : command.isRead = false)
    (response : command.Response) (key : GoString) : reads key [⟨command, response⟩] = [] := by
  cases command with
  | hgetall key' => cases h
  | _ => rfl

theorem found_performs (tokenKey : Bytes) (now : Int) (fields : SessionFields) :
    (s.found tokenKey now fields).Performs (·.isRead = false) := by
  unfold RedisAdminSessionStore.found
  split
  · trivial
  · split
    · exact ⟨rfl, fun _ => trivial⟩
    · refine ⟨rfl, fun answer => ?_⟩
      cases answer <;> trivial

theorem found_meets (tokenKey : Bytes) (now : Int) (fields : SessionFields)
    {log : List SessionEvent} (hlog : reads (s.sessionKey tokenKey) log = [fields]) :
    (s.found tokenKey now fields).Meets (.protocol (fun _ _ => True) fun _ _ => True)
      (fun _ log => reads (s.sessionKey tokenKey) log = [fields]) log := by
  refine (found_performs tokenKey now fields).keeps ?_ hlog
  intro command log hread hlog
  refine ⟨trivial, ?_⟩
  rintro response log' ⟨-, rfl⟩
  rw [reads_append, reads_other hread, hlog, List.append_nil]

theorem code_meets (call : AdminSessionCall) :
    (call.code s).Meets (.protocol (fun _ _ => True) fun _ _ => True) (MissesEmpty s call) [] := by
  cases call with
  | lookup tokenKey now =>
    refine Prog.Meets.call_bind trivial fun closed _ => ?_
    cases closed with
    | some err =>
      rintro _ _ ⟨⟩ fields hmem
      exact absurd hmem List.not_mem_nil
    | none =>
      refine Prog.Meets.call_bind trivial fun answer _ => ?_
      cases answer with
      | error err =>
        rintro _ _ ⟨⟩ fields hmem
        exact absurd hmem List.not_mem_nil
      | ok fields =>
        simp only
        split
        · exact fun _ _ _ _ _ _ => rfl
        · next hfields =>
          refine (found_meets tokenKey now fields ?_).mono ?_
          · simp [reads]
          · intro value log hlog _ _ hcall found hmem hempty
            cases hcall
            rw [hlog] at hmem
            exact absurd (List.mem_singleton.mp hmem ▸ hempty) hfields
  | save tokenKey session ttl =>
    refine (Prog.meets_extends _ _).mono ?_
    rintro _ _ - _ _ ⟨⟩
  | delete tokenKey =>
    refine (Prog.meets_extends _ _).mono ?_
    rintro _ _ - _ _ ⟨⟩

end Lookup

/-! ## Every execution -/

section Runs

variable {s : RedisAdminSessionStore}

theorem sessionKey_injective : Function.Injective s.sessionKey :=
  fun _ _ h => hexEncode_injective (List.append_cancel_left h)

/-- A lookup's write-back that reaches the server finds its hash. -/
def keepsDeleted (calls : SessionCalls) : Choice AdminSessionCall AdminSessionEnv → Bool
  | .start _ => true
  | .act i env =>
    match calls.threads[i]? with
    | some ⟨.lookup .., _, .perform (.hsetPExpire key _ _) _⟩ =>
      env.delivery = .lost || (calls.state.hash? env key).isSome
    | _ => true

/-- A step in which `Save` writes the session of a token. -/
def SavesToken (s : RedisAdminSessionStore) (tokenKey : Bytes) (t : SessionStep) : Prop :=
  ∃ i session ttl log key fields ttl' answer,
    t.Performs (adminSessions s) i (.save tokenKey session ttl) log
      ⟨.hsetPExpire key fields ttl', answer⟩

variable {env : AdminSessionEnv}

variable {hashes : SessionHashes}

theorem exec_get? {command : SessionCommand} {key : GoString} (hnone : hashes.get? key = none)
    (hwrite : ∀ fields ttl, command = .hsetPExpire key fields ttl → env.delivery = .lost) :
    (hashes.exec env command).2.get? key = none := by
  have hsend : ∀ {α : Type} {value : α} {hashes' : SessionHashes},
      (env.delivery ≠ .lost → hashes'.get? key = none) →
      (hashes.send env.delivery (value, hashes')).2.get? key = none := by
    intro α value hashes' hreached
    cases hdelivery : env.delivery with
    | lost => exact hnone
    | _ => exact hreached (by simp [hdelivery])
  cases command with
  | ensureOpen => exact hnone
  | hgetall key' => exact hsend fun _ => hnone
  | del key' =>
    refine hsend fun _ => ?_
    rw [Table.get?_erase, hnone, ite_self]
  | hsetPExpire key' fields ttl =>
    refine hsend fun hreached => ?_
    rw [SessionHashes.hsetPExpire, Table.get?_put_ne, hnone]
    rintro rfl
    exact hreached (hwrite fields ttl rfl)

/-- Which calls write: `Save` under the key of its token, and `Lookup`. -/
def Writes (s : RedisAdminSessionStore) (call : AdminSessionCall) : SessionCommand → Prop
  | .hsetPExpire key _ _ =>
    (∃ tokenKey session ttl, call = .save tokenKey session ttl ∧ key = s.sessionKey tokenKey) ∨
      ∃ tokenKey now, call = .lookup tokenKey now
  | _ => True

theorem code_performs (call : AdminSessionCall) : (call.code s).Performs (Writes s call) := by
  cases call with
  | save tokenKey session ttl =>
    refine Prog.Performs.call_bind trivial fun closed => ?_
    cases closed with
    | some err => trivial
    | none =>
      simp only
      split
      · trivial
      · refine Prog.Performs.call_bind (.inl ⟨_, _, _, rfl, rfl⟩) fun answer => ?_
        cases answer <;> trivial
  | lookup tokenKey now =>
    refine Prog.Performs.call_bind trivial fun closed => ?_
    cases closed with
    | some err => trivial
    | none =>
      refine Prog.Performs.call_bind trivial fun answer => ?_
      cases answer with
      | error err => trivial
      | ok fields =>
        simp only
        split
        · trivial
        · refine (found_performs tokenKey now fields).mono fun command _ => ?_
          cases command with
          | hsetPExpire => exact .inr ⟨_, _, rfl⟩
          | _ => trivial
  | delete tokenKey =>
    refine Prog.Performs.call_bind trivial fun closed => ?_
    cases closed with
    | some err => trivial
    | none =>
      refine Prog.Performs.call_bind trivial fun answer => ?_
      cases answer <;> trivial

theorem sessions_follow {ok : SessionStep → Prop} {history : List SessionStep}
    {after : SessionCalls} (h : Run (adminSessions s) ok (.idle hashes) history after) :
    after.Follows (fun call _ command => Writes s call command ∧ True) (fun _ _ => True)
      (MissesEmpty s) :=
  h.follows fun call => (code_meets call).performs (code_performs call)

variable {before after : SessionCalls}

/-- No write under the key of a token: it is not `Save` that writes, and a lookup's write-back
would need the hash. -/
theorem no_write {i : Nat} {call : AdminSessionCall} {log : List SessionEvent} {tokenKey : Bytes}
    {fields : List (GoString × GoString)} {ttl : Int}
    {next : Except AdminSessionError Unit → SessionCode AdminSessionResult}
    (hthread : before.threads[i]? = some ⟨call, log,
      .perform (.hsetPExpire (s.sessionKey tokenKey) fields ttl) next⟩)
    (hwrites : Writes s call (.hsetPExpire (s.sessionKey tokenKey) fields ttl))
    (hexec : ∃ answer, (adminSessions s).exec (.hsetPExpire (s.sessionKey tokenKey) fields ttl) env
      before.state = some (answer, after.state)) (hkeeps : keepsDeleted before (.act i env) = true)
    (hsaves : ¬ SavesToken s tokenKey ⟨before, .act i env, after⟩)
    (hnone : before.state.get? (s.sessionKey tokenKey) = none) : env.delivery = .lost := by
  rcases hwrites with ⟨tokenKey', session, ttl', rfl, hkey⟩ | ⟨tokenKey', now, rfl⟩
  · obtain rfl := sessionKey_injective hkey
    obtain ⟨answer, hexec⟩ := hexec
    exact absurd ⟨i, session, ttl', log, _, fields, ttl, answer, env, next, rfl, hthread, hexec⟩
      hsaves
  · simp only [keepsDeleted, hthread, SessionHashes.hash?, hnone, Option.filter_none,
      Option.isSome_none, Bool.or_false, decide_eq_true_eq] at hkeeps
    exact hkeeps

theorem reads_none {hashes hashes' : SessionHashes} {event : SessionEvent} {key : GoString}
    (hnone : hashes.get? key = none)
    (hexec : (adminSessions s).exec event.effect env hashes = some (event.response, hashes')) :
    ∀ fields ∈ reads key [event], fields.rows = [] := by
  intro fields hmem
  obtain ⟨command, response⟩ := event
  obtain rfl : (hashes.exec env command).1 = response := congrArg Prod.fst (Option.some.inj hexec)
  cases command with
  | hgetall key' =>
    cases hanswer : (hashes.exec env (.hgetall key')).1 with
    | error err =>
      rw [hanswer] at hmem
      exact absurd hmem List.not_mem_nil
    | ok fields' =>
      rw [hanswer, reads_hgetall] at hmem
      split at hmem
      · next heq =>
        subst heq
        obtain rfl := List.mem_singleton.mp hmem
        simp only [SessionHashes.exec, SessionHashes.send, SessionHashes.hash?, hnone] at hanswer
        cases hdelivery : env.delivery with
        | answered =>
          rw [hdelivery] at hanswer
          cases hanswer
          rfl
        | _ =>
          rw [hdelivery] at hanswer
          cases hanswer
      · exact absurd hmem List.not_mem_nil
  | _ => exact absurd hmem List.not_mem_nil

/-- A hash that is gone stays away as long as `Save` does not write it, and lookups that are started
read nothing. -/
theorem gone_stays {tokenKey : Bytes} {front back : List SessionStep}
    (hfront : Run (adminSessions s) (fun t => keepsDeleted t.before t.choice = true)
      (.idle hashes) front before)
    (hback : Run (adminSessions s) (fun t => keepsDeleted t.before t.choice = true)
      before back after) (hsaves : ∀ t ∈ back, ¬ SavesToken s tokenKey t)
    (hnone : before.state.get? (s.sessionKey tokenKey) = none) :
    after.state.get? (s.sessionKey tokenKey) = none ∧
      ∀ i thread, before.threads.length ≤ i → after.threads[i]? = some thread →
        ∀ fields ∈ reads (s.sessionKey tokenKey) thread.log, fields.rows = [] := by
  induction hback with
  | refl =>
    refine ⟨hnone, fun i thread hi hthread => ?_⟩
    rw [List.getElem?_eq_none hi] at hthread
    cases hthread
  | snoc hmiddle hstep hkeeps ih =>
    obtain ⟨hgone, hreads⟩ := ih fun t ht => hsaves t (List.mem_append_left _ ht)
    have hlast := hsaves _ (List.mem_append_right _ (List.mem_singleton_self _))
    have hfollows := sessions_follow (hfront.append hmiddle)
    constructor
    · cases hstep with
      | start hstart => exact Option.some.inj hstart ▸ hgone
      | @act i env call log command next response hashes' hthread hexec =>
        obtain ⟨-, rfl⟩ := Prod.mk.inj (Option.some.inj hexec)
        refine exec_get? hgone ?_
        rintro fields ttl rfl
        exact no_write hthread (hfollows.next_allowed hthread).1 ⟨_, hexec⟩ hkeeps hlast hgone
    · intro i thread hi hthread fields hmem
      rcases hstep.thread_cases hthread with hnil | hsame | ⟨log, event, hlog, hperforms⟩
      · rw [hnil] at hmem
        exact absurd hmem List.not_mem_nil
      · exact hreads i thread hi hsame fields hmem
      · obtain ⟨env, next, -, hbefore, hexec⟩ := hperforms
        rw [hlog, reads_append] at hmem
        rcases List.mem_append.mp hmem with hmem | hmem
        · exact hreads i _ hi hbefore fields hmem
        · exact reads_none hgone hexec fields hmem

theorem del_get? {hashes hashes' : SessionHashes} {key : GoString} {deleted : Nat}
    (h : (adminSessions s).exec (.del key) env hashes = some (.ok deleted, hashes')) :
    hashes'.get? key = none := by
  replace h := Option.some.inj h
  simp only [SessionHashes.exec, SessionHashes.send] at h
  cases hdelivery : env.delivery with
  | answered =>
    rw [hdelivery] at h
    obtain ⟨-, rfl⟩ := Prod.mk.inj h
    rw [Table.get?_erase, if_pos rfl]
  | _ =>
    rw [hdelivery] at h
    cases h

/-- Logging out stays logged out, in executions in which no write-back of a lookup finds its hash
gone: after the `DEL` of a `Delete`, with no later `Save` of the token, the hash is gone, and every
`Lookup` of the token that starts later and whose `HGETALL` is answered returns not found. -/
theorem logged_out_stays (s : RedisAdminSessionStore) {hashes : SessionHashes}
    {front back : List SessionStep} {t : SessionStep} {after : SessionCalls}
    (h : Run (adminSessions s) (fun t => keepsDeleted t.before t.choice = true)
      (.idle hashes) (front ++ t :: back) after)
    {i : Nat} {tokenKey : Bytes} {log : List SessionEvent} {deleted : Nat}
    (hdelete : t.Performs (adminSessions s) i (.delete tokenKey) log
      ⟨.del (s.sessionKey tokenKey), .ok deleted⟩)
    (hsaves : ∀ u ∈ back, ¬ SavesToken s tokenKey u) :
    after.state.get? (s.sessionKey tokenKey) = none ∧
      ∀ j now thread, t.after.threads.length ≤ j → after.threads[j]? = some thread →
        thread.tag = .lookup tokenKey now → reads (s.sessionKey tokenKey) thread.log ≠ [] →
        ∀ value, thread.prog = .ret value → value = .missing := by
  obtain ⟨middle, hfront, hrest⟩ := h.append_inv
  obtain ⟨rfl, hback⟩ := hrest.cons_inv
  obtain ⟨-, hstep, hkeeps⟩ := h.transition (List.mem_append_right _ List.mem_cons_self)
  have hnone : t.after.state.get? (s.sessionKey tokenKey) = none := by
    obtain ⟨env, next, -, -, hexec⟩ := hdelete
    exact del_get? hexec
  obtain ⟨hgone, hreads⟩ := gone_stays (hfront.snoc hstep hkeeps) hback hsaves hnone
  refine ⟨hgone, fun j now thread hj hthread htag hread value hvalue => ?_⟩
  have hmisses := sessions_follow h thread (List.mem_of_getElem? hthread)
  rw [hvalue] at hmisses
  obtain ⟨fields, hfields⟩ := List.exists_mem_of_ne_nil _ hread
  exact hmisses tokenKey now htag fields hfields (hreads j thread hj hthread fields hfields)

theorem keepsDeleted_run {choices : List (Choice AdminSessionCall AdminSessionEnv)}
    (h : (adminSessions s).replayIf keepsDeleted before choices = some after) :
    ∃ history, Run (adminSessions s) (fun t => keepsDeleted t.before t.choice = true) before history
      after :=
  System.replayIf_run (fun hkeeps => hkeeps) h

end Runs

/-- The calls with what they have returned. -/
def sessionResults (calls : SessionCalls) :
    List (AdminSessionCall × Option AdminSessionResult) :=
  calls.threads.map fun thread => (thread.tag, thread.prog.result?)

/-- A session of 100 seconds and its token. -/
def sampleSession : AdminSession where
  sessionID := ascii "zas_1"
  principal := ascii "ops"
  role := ascii "admin"
  createdAt := unixEpoch + 1000
  expiresAt := unixEpoch + 1000 + 100 * second
  lastSeenAt := unixEpoch + 1000

def sampleToken : Bytes := List.replicate 32 7

/-- Everything is answered. -/
def reachable : AdminSessionEnv := ⟨false, 5, .answered⟩

/-- A server that holds the session. -/
def sampleHashes : SessionHashes :=
  SessionHashes.hsetPExpire .empty reachable
    ((newRedisAdminSessionStore []).sessionKey sampleToken) sampleSession.fields (100 * second)

/-- The session is looked up, and while it is being deleted the lookup writes back. -/
def deleteWithLookup : List (Choice AdminSessionCall AdminSessionEnv) :=
  .start (.lookup sampleToken (unixEpoch + 2000)) :: Choice.turns 0 2 reachable ++
  .start (.delete sampleToken) :: [.act 1 reachable, .act 0 reachable]

/-- What the calls have returned after a later lookup. -/
def loggedOut : List (AdminSessionCall × Option AdminSessionResult) :=
  [(.lookup sampleToken (unixEpoch + 2000),
      some (.found { sampleSession with lastSeenAt := unixEpoch + 2000 })),
    (.delete sampleToken, some (.deleted true)),
    (.lookup sampleToken (unixEpoch + 3000), some .missing)]

theorem logged_out_stays_sample :
    let s := newRedisAdminSessionStore []
    ∃ front t back after, Run (adminSessions s) (fun t => keepsDeleted t.before t.choice = true)
        (.idle sampleHashes) (front ++ t :: back) after ∧
      (∃ log deleted, t.Performs (adminSessions s) 1 (.delete sampleToken) log
        ⟨.del (s.sessionKey sampleToken), .ok deleted⟩) ∧
      sessionResults after = loggedOut ∧ after.state.get? (s.sessionKey sampleToken) = none := by
  intro s
  have hreplay : ((adminSessions s).replayIf keepsDeleted (.idle sampleHashes)
      deleteWithLookup).bind (fun before =>
        ((adminSessions s).step before (.act 1 reachable)).bind fun middle =>
        ((adminSessions s).replayIf keepsDeleted middle
          (.start (.lookup sampleToken (unixEpoch + 3000)) :: Choice.turns 2 2 reachable)).map
        fun after =>
          (before.threads[1]?.map fun thread => (thread.tag, thread.prog.next?),
            sessionResults after, keepsDeleted before (.act 1 reachable))) =
      some (some (.delete sampleToken, some (.del (s.sessionKey sampleToken))), loggedOut,
        true) := by
    decide +kernel
  obtain ⟨before, hbefore, hreplay⟩ := Option.bind_eq_some_iff.mp hreplay
  obtain ⟨middle, hstep, hreplay⟩ := Option.bind_eq_some_iff.mp hreplay
  obtain ⟨after, hafter, hchecked⟩ := Option.map_eq_some_iff.mp hreplay
  obtain ⟨hthreads, hchecked⟩ := Prod.mk.inj hchecked
  obtain ⟨hresults, hkeeps⟩ := Prod.mk.inj hchecked
  have hrun : ∃ front back, Run (adminSessions s) (fun t => keepsDeleted t.before t.choice = true)
      (.idle sampleHashes) (front ++ ⟨before, .act 1 reachable, middle⟩ :: back) after := by
    obtain ⟨front, hfront⟩ := keepsDeleted_run hbefore
    obtain ⟨back, hback⟩ := keepsDeleted_run hafter
    refine ⟨front, back, ?_⟩
    have hmiddle := hfront.snoc (System.step_sound hstep) hkeeps
    rw [List.append_cons]
    exact hmiddle.append hback
  obtain ⟨front, back, hrun⟩ := hrun
  obtain ⟨thread, hthread, hnext⟩ := Option.map_eq_some_iff.mp hthreads
  obtain ⟨htag, hnext⟩ := Prod.mk.inj hnext
  obtain ⟨response, hperforms⟩ := System.step_performs hstep hthread hnext
  rw [htag] at hperforms
  have hanswer : ∃ deleted, response = .ok deleted := by
    obtain ⟨env, next, hchoice, -, hexec⟩ := hperforms
    cases hchoice
    exact ⟨_, (congrArg Prod.fst (Option.some.inj hexec)).symm⟩
  obtain ⟨deleted, rfl⟩ := hanswer
  have hsaves : ∀ u ∈ back, ¬ SavesToken s sampleToken u := by
    rintro u hu ⟨i, session, ttl, log, key, fields, ttl', answer, hsaves⟩
    obtain ⟨saver, hsaver, htag⟩ :=
      hrun.performs_tag (List.mem_append_right _ (List.mem_cons_of_mem _ hu)) hsaves
    have hmem : (saver.tag, saver.prog.result?) ∈ sessionResults after :=
      List.mem_map_of_mem (List.mem_of_getElem? hsaver)
    rw [hresults, htag] at hmem
    simp [loggedOut] at hmem
  exact ⟨front, _, back, after, hrun, ⟨_, deleted, hperforms⟩, hresults,
    (logged_out_stays s hrun hperforms hsaves).1⟩

/-- The session is saved and looked up, and after the lookup has read it, it is deleted. -/
def overlappingDelete : List (Choice AdminSessionCall AdminSessionEnv) :=
  .start (.save sampleToken sampleSession (100 * second)) :: Choice.turns 0 2 reachable ++
  .start (.lookup sampleToken (unixEpoch + 2000)) :: Choice.turns 1 2 reachable ++
  .start (.delete sampleToken) :: Choice.turns 2 2 reachable ++
  Choice.turns 1 1 reachable

def laterLookup : List (Choice AdminSessionCall AdminSessionEnv) :=
  .start (.lookup sampleToken (unixEpoch + 3000)) :: Choice.turns 3 2 reachable

/-- What the calls have returned before the later lookup. -/
def overlapped : List (AdminSessionCall × Option AdminSessionResult) :=
  [(.save sampleToken sampleSession (100 * second), some .saved),
    (.lookup sampleToken (unixEpoch + 2000),
      some (.found { sampleSession with lastSeenAt := unixEpoch + 2000 })),
    (.delete sampleToken, some (.deleted true))]

/-- The write-back of a lookup revives a deleted session: the save, the lookup and the delete have
returned, the session is deleted, and yet a later lookup fails on the hash that is there again. -/
theorem lookup_revives_session :
    let s := newRedisAdminSessionStore []
    ∃ history middle later after,
      Run (adminSessions s) (fun _ => True) (.idle .empty) history middle ∧
      sessionResults middle = overlapped ∧
      Run (adminSessions s) (fun _ => True) middle later after ∧
      sessionResults after = overlapped ++ [(.lookup sampleToken (unixEpoch + 3000),
        some (.failed (.fieldEmpty (ascii "created_at_unix_nano"))))] ∧
      (after.state.hash? reachable (s.sessionKey sampleToken)).isSome = true := by
  intro s
  have hreplay : ((adminSessions s).replay (.idle .empty) overlappingDelete).bind (fun middle =>
      ((adminSessions s).replay middle laterLookup).map fun after =>
        (sessionResults middle, sessionResults after,
          (after.state.hash? reachable (s.sessionKey sampleToken)).isSome)) =
      some (overlapped, overlapped ++ [(.lookup sampleToken (unixEpoch + 3000),
        some (.failed (.fieldEmpty (ascii "created_at_unix_nano"))))], true) := by
    decide +kernel
  obtain ⟨middle, hmiddle, hlater⟩ := Option.bind_eq_some_iff.mp hreplay
  obtain ⟨after, hafter, hresults⟩ := Option.map_eq_some_iff.mp hlater
  obtain ⟨hbefore, hresults⟩ := Prod.mk.inj hresults
  obtain ⟨hlast, hhash⟩ := Prod.mk.inj hresults
  obtain ⟨history, hrun⟩ := System.replay_run (fun _ => True) hmiddle fun _ _ => trivial
  obtain ⟨later, hrun'⟩ := System.replay_run (fun _ => True) hafter fun _ _ => trivial
  exact ⟨history, middle, later, after, hrun, hbefore, hrun', hlast, hhash⟩

end ZCourier.Server
