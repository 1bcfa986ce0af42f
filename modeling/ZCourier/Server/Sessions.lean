import ZCourier.Go.Values
import ZCourier.Library.Index

/-!
# Sessions of a gateway

The session manager of `internal/session/manager.go` keeps the sessions by connection and two
indexes into them, by session id and by client and device. The source nests the second;
`SessionIndexes` shows that nothing else differs. `bind_spec` and `unbind_spec` say what the two
operations do to the session of a client and device, given `Manager.Paired`, which they keep.
-/

namespace ZCourier.Server

open Go Library

/-- `session.Session`. -/
structure Session where
  sessionID : GoString
  connID : UInt64
  clientID : GoString
  deviceID : GoString
  tokenID : GoString
  gatewayNode : GoString
  connectedAt : Int
  lastSeenAt : Int
  deriving DecidableEq

/-- The client and device of a session. -/
def Session.pair (session : Session) : GoString × GoString :=
  (session.clientID, session.deviceID)

/-- `session.BindInput`. -/
structure BindInput where
  sessionID : GoString
  connID : UInt64
  clientID : GoString
  deviceID : GoString
  tokenID : GoString
  gatewayNode : GoString
  now : Int

/-- `session.BindResult`. -/
structure BindResult where
  session : Session
  replaced : Option Session
  created : Bool

inductive SessionError where
  | invalidConnID
  | emptyClientID
  | emptyDeviceID
  | notFound
  deriving DecidableEq

/-- What the session manager reads besides its arguments: the clock and `NewID`. -/
structure SessionEnv where
  clock : Int
  newID : GoString

/-- `session.Manager`. -/
structure Manager where
  byConnID : Table Session.connID
  connIDBySessionID : Table (Prod.fst : GoString × UInt64 → GoString)
  connIDByClientPair : Table (Prod.fst : (GoString × GoString) × UInt64 → GoString × GoString)

namespace Manager

/-- `NewManager`. -/
def new : Manager := ⟨.empty, .empty, .empty⟩

/-- `removeConnLocked`. -/
def removeConnLocked (m : Manager) (connID : UInt64) : Option Session × Manager :=
  match m.byConnID.get? connID with
  | none => (none, m)
  | some found =>
    (some found,
      { byConnID := m.byConnID.erase connID
        connIDBySessionID := m.connIDBySessionID.erase found.sessionID
        connIDByClientPair := m.connIDByClientPair.erase found.pair })

/-- The connection on which the client's device is bound. -/
def connIDOf (m : Manager) (clientID deviceID : GoString) : Option UInt64 :=
  (m.connIDByClientPair.get? (clientID, deviceID)).map Prod.snd

/-- Store a session and its index entries. -/
def insert (m : Manager) (session : Session) : Manager where
  byConnID := m.byConnID.put session
  connIDBySessionID := m.connIDBySessionID.put (session.sessionID, session.connID)
  connIDByClientPair := m.connIDByClientPair.put (session.pair, session.connID)

/-- The session a connection keeps when it is bound again for the same client and device. -/
def existing? (m : Manager) (input : BindInput) : Option Session :=
  (m.byConnID.get? input.connID).filter fun session =>
    session.clientID = input.clientID && session.deviceID = input.deviceID

/-- The session of the same client and device on another connection is removed. -/
def removeReplaced (m : Manager) (input : BindInput) : Option Session × Manager :=
  match m.connIDOf input.clientID input.deviceID with
  | none => (none, m)
  | some oldConnID =>
    if oldConnID ≠ input.connID then m.removeConnLocked oldConnID else (none, m)

/-- The session `Bind` creates. -/
def createdSession (input : BindInput) (env : SessionEnv) (now : Int) : Session where
  sessionID := if input.sessionID = [] then env.newID else input.sessionID
  connID := input.connID
  clientID := input.clientID
  deviceID := input.deviceID
  tokenID := input.tokenID
  gatewayNode := input.gatewayNode
  connectedAt := now
  lastSeenAt := now

/-- `Bind` once its input has passed the checks and the lock is taken. -/
def bindLocked (m : Manager) (env : SessionEnv) (input : BindInput) (now : Int) :
    BindResult × Manager :=
  match m.existing? input with
  | some existing =>
    let existing :=
      { existing with
        tokenID := input.tokenID
        gatewayNode := input.gatewayNode
        lastSeenAt := now }
    (⟨existing, none, false⟩, { m with byConnID := m.byConnID.put existing })
  | none =>
    let m := (m.removeConnLocked input.connID).2
    let (replaced, m) := m.removeReplaced input
    let session := createdSession input env now
    (⟨session, replaced, true⟩, m.insert session)

/-- `Bind`. -/
def bind (m : Manager) (env : SessionEnv) (input : BindInput) :
    Except SessionError BindResult × Manager :=
  if input.connID = 0 then (.error .invalidConnID, m)
  else if input.clientID = [] then (.error .emptyClientID, m)
  else if input.deviceID = [] then (.error .emptyDeviceID, m)
  else
    let now := if isZero input.now then env.clock else input.now
    let (result, m) := m.bindLocked env input now
    (.ok result, m)

/-- `TouchByConnID`. -/
def touchByConnID (m : Manager) (env : SessionEnv) (connID : UInt64) (now : Int) :
    Except SessionError Session × Manager :=
  let now := if isZero now then env.clock else now
  match m.byConnID.get? connID with
  | none => (.error .notFound, m)
  | some found =>
    let found := { found with lastSeenAt := now }
    (.ok found, { m with byConnID := m.byConnID.put found })

/-- `UnbindByConnID`: the removed session, if there was one. -/
def unbindByConnID (m : Manager) (connID : UInt64) : Option Session × Manager :=
  m.removeConnLocked connID

/-- `GetByClientDevice`. -/
def getByClientDevice (m : Manager) (clientID deviceID : GoString) : Option Session :=
  (m.connIDOf clientID deviceID).bind m.byConnID.get?

/-- `Snapshot`, in the order in which the sessions happen to be kept. -/
def snapshot (m : Manager) : List Session := m.byConnID.rows

/-! ## The index by client and device -/

/-- The index by client and device agrees with the sessions. -/
def Paired (m : Manager) : Prop :=
  ∀ pair connID, m.connIDByClientPair.get? pair = some (pair, connID) ↔
    ∃ session, m.byConnID.get? connID = some session ∧ session.pair = pair

variable {m : Manager} {connID : UInt64} {session : Session} {pair : GoString × GoString}

theorem paired_new : new.Paired := by
  intro pair connID
  simp [new]

theorem Paired.indexed (h : m.Paired) :
    Indexed m.connIDByClientPair m.byConnID Session.pair := h

/-- The session of a client and device is the one that is kept with this pair. -/
theorem Paired.get_by_client_device (h : m.Paired) :
    m.getByClientDevice pair.1 pair.2 = some session ↔
      m.byConnID.get? session.connID = some session ∧ session.pair = pair := by
  rw [← h.indexed.lookup, getByClientDevice, connIDOf, Option.bind_map]
  rfl

theorem remove_conn_get (m : Manager) (connID k : UInt64) :
    (m.removeConnLocked connID).2.byConnID.get? k =
      if k = connID then none else m.byConnID.get? k := by
  unfold removeConnLocked
  split
  · next hnone =>
    split
    · next heq => rw [heq, hnone]
    · rfl
  · exact Table.get?_erase

/-- Removing a session takes its pair from the index. -/
theorem Paired.remove_conn (h : m.Paired) (connID : UInt64) :
    (m.removeConnLocked connID).2.Paired := by
  unfold removeConnLocked
  split
  · exact h
  · next found hfound => exact h.indexed.erase hfound

theorem insert_get (m : Manager) (session : Session) (k : UInt64) :
    (m.insert session).byConnID.get? k =
      if k = session.connID then some session else m.byConnID.get? k :=
  Table.get?_put

/-- A session is stored in a manager that has neither its connection nor its pair. -/
theorem Paired.insert (h : m.Paired) (hconn : m.byConnID.get? session.connID = none)
    (hpair : m.connIDByClientPair.get? session.pair = none) : (m.insert session).Paired :=
  h.indexed.put hconn hpair

theorem Paired.get_filter (h : m.Paired) {k : UInt64}
    (hk : m.connIDByClientPair.get? pair ≠ some (pair, k)) :
    (m.byConnID.get? k).filter (fun session => session.pair ≠ pair) = m.byConnID.get? k := by
  cases hget : m.byConnID.get? k with
  | none => rfl
  | some session =>
    have hne : session.pair ≠ pair := fun heq => hk ((h pair k).mpr ⟨session, hget, heq⟩)
    simp [Option.filter, hne]

variable {input : BindInput}

theorem Paired.remove_replaced (h : m.Paired) (hconn : m.byConnID.get? input.connID = none) :
    (m.removeReplaced input).2.Paired ∧
      (m.removeReplaced input).2.connIDByClientPair.get? (input.clientID, input.deviceID) = none ∧
      ∀ k, (m.removeReplaced input).2.byConnID.get? k =
        (m.byConnID.get? k).filter fun session =>
          session.pair ≠ (input.clientID, input.deviceID) := by
  unfold removeReplaced connIDOf
  cases hindex : m.connIDByClientPair.get? (input.clientID, input.deviceID) with
  | none =>
    refine ⟨h, hindex, fun k => (h.get_filter ?_).symm⟩
    rw [hindex]
    simp
  | some entry =>
    obtain ⟨pair, oldConnID⟩ := entry
    obtain rfl : pair = _ := Table.key_of_get? hindex
    obtain ⟨old, hold, hpair⟩ := (h _ _).mp hindex
    have hne : oldConnID ≠ input.connID := by
      rintro rfl
      cases hconn.symm.trans hold
    simp only [Option.map_some, if_pos hne]
    refine ⟨h.remove_conn oldConnID, ?_, fun k => ?_⟩
    · unfold removeConnLocked
      rw [hold]
      simp [Table.get?_erase, hpair]
    · rw [remove_conn_get]
      split
      · next heq =>
        subst heq
        simp [hold, Option.filter, hpair]
      · next hk =>
        refine (h.get_filter ?_).symm
        rw [hindex]
        intro heq
        exact hk (Prod.mk.inj (Option.some.inj heq)).2.symm

/-! ## What the operations do -/

theorem existing_eq_some (h : m.existing? input = some session) :
    m.byConnID.get? input.connID = some session ∧
      session.pair = (input.clientID, input.deviceID) := by
  obtain ⟨hget, hsame⟩ := Option.filter_eq_some_iff.mp h
  simp only [Bool.and_eq_true, decide_eq_true_eq] at hsame
  exact ⟨hget, Prod.ext hsame.1 hsame.2⟩

theorem bind_cases (m : Manager) (env : SessionEnv) (input : BindInput) :
    (∃ err, m.bind env input = (.error err, m)) ∨
      ∃ now, m.bind env input =
        (.ok (m.bindLocked env input now).1, (m.bindLocked env input now).2) := by
  unfold bind
  split
  · exact .inl ⟨_, rfl⟩
  · split
    · exact .inl ⟨_, rfl⟩
    · split
      · exact .inl ⟨_, rfl⟩
      · exact .inr ⟨_, rfl⟩

variable {env : SessionEnv}

theorem bind_error {err : SessionError} (h : (m.bind env input).1 = .error err) :
    (m.bind env input).2 = m := by
  rcases bind_cases m env input with ⟨err', heq⟩ | ⟨now, heq⟩
  · rw [heq]
  · rw [heq] at h
    cases h

theorem bind_ok {result : BindResult} (h : (m.bind env input).1 = .ok result) :
    ∃ now, m.bindLocked env input now = (result, (m.bind env input).2) := by
  rcases bind_cases m env input with ⟨err, heq⟩ | ⟨now, heq⟩
  · rw [heq] at h
    cases h
  · rw [heq] at h ⊢
    exact ⟨now, Prod.ext (Except.ok.inj h) rfl⟩

theorem bind_result {result : BindResult} (h : (m.bind env input).1 = .ok result) :
    (m.bind env input).2.byConnID.get? input.connID = some result.session ∧
      result.session.pair = (input.clientID, input.deviceID) ∧
      result.session.gatewayNode = input.gatewayNode := by
  obtain ⟨now, hlocked⟩ := bind_ok h
  unfold bindLocked at hlocked
  split at hlocked
  · next existing hexisting =>
    obtain ⟨rfl, hafter⟩ := Prod.mk.inj hlocked
    obtain ⟨hget, hpair⟩ := existing_eq_some hexisting
    have hconnID : existing.connID = input.connID := Table.key_of_get? hget
    refine ⟨?_, hpair, rfl⟩
    rw [← hafter, Table.get?_put]
    simp [hconnID]
  · obtain ⟨rfl, hafter⟩ := Prod.mk.inj hlocked
    refine ⟨?_, rfl, rfl⟩
    rw [← hafter]
    exact Table.get?_put_self

theorem Paired.put_session (h : m.Paired) {old : Session}
    (hold : m.byConnID.get? session.connID = some old) (hpair : session.pair = old.pair) :
    ({ m with byConnID := m.byConnID.put session } : Manager).Paired :=
  h.indexed.update hold hpair

theorem Paired.bind_locked (h : m.Paired) (env : SessionEnv) (input : BindInput) (now : Int) :
    (m.bindLocked env input now).2.Paired ∧ ∀ k,
      (m.bindLocked env input now).2.byConnID.get? k =
        if k = input.connID then some (m.bindLocked env input now).1.session
        else (m.byConnID.get? k).filter fun session =>
          session.pair ≠ (input.clientID, input.deviceID) := by
  unfold bindLocked
  split
  · next existing hexisting =>
    obtain ⟨hget, hpair⟩ := existing_eq_some hexisting
    have hconnID : existing.connID = input.connID := Table.key_of_get? hget
    rw [← hconnID] at hget
    refine ⟨h.put_session hget rfl, fun k => ?_⟩
    rw [Table.get?_put, ← hconnID]
    split
    · rfl
    · next hk =>
      refine (h.get_filter ?_).symm
      rw [(h _ existing.connID).mpr ⟨existing, hget, hpair⟩]
      intro heq
      exact hk (Prod.mk.inj (Option.some.inj heq)).2.symm
  · have hfree : (m.removeConnLocked input.connID).2.byConnID.get? input.connID = none := by
      rw [remove_conn_get, if_pos rfl]
    obtain ⟨hpaired, hindex, hget⟩ := (h.remove_conn input.connID).remove_replaced hfree
    refine ⟨hpaired.insert ?_ hindex, fun k => ?_⟩
    · rw [hget]
      change ((m.removeConnLocked input.connID).2.byConnID.get? input.connID).filter _ = none
      rw [hfree]
      rfl
    · rw [insert_get]
      by_cases hk : k = input.connID
      · rw [if_pos hk]
        exact if_pos hk
      · rw [if_neg hk, hget, remove_conn_get, if_neg hk]
        exact if_neg hk

/-- `Bind` keeps the index. It binds its client and device on its connection, and takes the
connection from any other pair that was bound on it. -/
theorem Paired.bind_spec (h : m.Paired) {result : BindResult}
    (hbind : (m.bind env input).1 = .ok result) :
    (m.bind env input).2.Paired ∧ ∀ pair : GoString × GoString,
      (m.bind env input).2.getByClientDevice pair.1 pair.2 =
        if pair = (input.clientID, input.deviceID) then some result.session
        else (m.getByClientDevice pair.1 pair.2).filter fun session =>
          session.connID ≠ input.connID := by
  obtain ⟨hconn, hpair, -⟩ := bind_result hbind
  obtain ⟨now, hlocked⟩ := bind_ok hbind
  obtain ⟨hpaired, hget⟩ := h.bind_locked env input now
  simp only [hlocked] at hpaired hget
  have hconnID : result.session.connID = input.connID := Table.key_of_get? hconn
  refine ⟨hpaired, fun pair => Option.ext fun session => ?_⟩
  rw [hpaired.get_by_client_device, hget]
  by_cases hsame : pair = (input.clientID, input.deviceID)
  · rw [if_pos hsame]
    -- only the bound session has this pair
    constructor
    · rintro ⟨hsession, hp⟩
      split at hsession
      · exact hsession
      · have hother := (Option.filter_eq_some_iff.mp hsession).2
        simp [hp, hsame] at hother
    · intro hsession
      obtain rfl := Option.some.inj hsession
      rw [if_pos hconnID]
      exact ⟨rfl, hpair.trans hsame.symm⟩
  · rw [if_neg hsame, Option.filter_eq_some_iff, h.get_by_client_device]
    constructor
    · rintro ⟨hsession, hp⟩
      split at hsession
      · obtain rfl := Option.some.inj hsession
        exact absurd (hp.symm.trans hpair) hsame
      · next hk => exact ⟨⟨(Option.filter_eq_some_iff.mp hsession).1, hp⟩, by simpa using hk⟩
    · rintro ⟨⟨hsession, hp⟩, hk⟩
      rw [if_neg (by simpa using hk), Option.filter_eq_some_iff]
      exact ⟨⟨hsession, by simpa [hp] using hsame⟩, hp⟩

theorem Paired.unbind_spec (h : m.Paired) (connID : UInt64) :
    (m.unbindByConnID connID).2.Paired ∧ ∀ pair : GoString × GoString,
      (m.unbindByConnID connID).2.getByClientDevice pair.1 pair.2 =
        (m.getByClientDevice pair.1 pair.2).filter fun session => session.connID ≠ connID := by
  have hpaired := h.remove_conn connID
  refine ⟨hpaired, fun pair => Option.ext fun session => ?_⟩
  rw [Option.filter_eq_some_iff, h.get_by_client_device]
  refine hpaired.get_by_client_device.trans ?_
  rw [remove_conn_get]
  by_cases hk : session.connID = connID
  · simp [hk]
  · simp [hk]

theorem unbind_removed (m : Manager) (connID : UInt64) :
    (m.unbindByConnID connID).1 = m.byConnID.get? connID := by
  unfold unbindByConnID removeConnLocked
  split <;> simp [*]

theorem touch_found {now : Int} (h : (m.touchByConnID env connID now).1 = .ok session) :
    ∃ before time, m.byConnID.get? connID = some before ∧
      session = { before with lastSeenAt := time } ∧
      (m.touchByConnID env connID now).2.byConnID.get? connID = some session := by
  unfold touchByConnID at h ⊢
  dsimp only at h ⊢
  split at h
  · cases h
  · next before hbefore =>
    obtain rfl := Except.ok.inj h
    have hconnID : before.connID = connID := Table.key_of_get? hbefore
    refine ⟨before, _, hbefore, rfl, ?_⟩
    rw [Table.get?_put]
    simp [hconnID]

end Manager

end ZCourier.Server
