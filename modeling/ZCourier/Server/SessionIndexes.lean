import ZCourier.Server.Sessions
import Mathlib.Data.List.Dedup

/-!
# The indexes of the session manager

`NestedManager` is `session.Manager` with the map of clients to their devices that the source has.
`Flattens` relates it to `Manager`, and every operation does the same on both (`Flattens.bind`,
`Flattens.unbind`, `Flattens.touch`). `session_indexes_inverse` is about every sequence of calls
that gives each new session an id no session has had.
-/

namespace ZCourier.Server

open Go Library

/-- `session.Manager`. -/
structure NestedManager where
  byConnID : Table Session.connID
  connIDBySessionID : Table (Prod.fst : GoString × UInt64 → GoString)
  connIDByClientPair : Nested GoString GoString UInt64

namespace NestedManager

/-- `NewManager`. -/
def new : NestedManager := ⟨.empty, .empty, .empty⟩

/-- `removeConnLocked`. -/
def removeConnLocked (n : NestedManager) (connID : UInt64) : Option Session × NestedManager :=
  match n.byConnID.get? connID with
  | none => (none, n)
  | some found =>
    (some found,
      { byConnID := n.byConnID.erase connID
        connIDBySessionID := n.connIDBySessionID.erase found.sessionID
        connIDByClientPair := n.connIDByClientPair.remove found.clientID found.deviceID })

/-- The session a connection keeps when it is bound again for the same client and device. -/
def existing? (n : NestedManager) (input : BindInput) : Option Session :=
  (n.byConnID.get? input.connID).filter fun session =>
    session.clientID = input.clientID && session.deviceID = input.deviceID

/-- The session of the same client and device on another connection is removed. -/
def removeReplaced (n : NestedManager) (input : BindInput) : Option Session × NestedManager :=
  match n.connIDByClientPair.find? input.clientID input.deviceID with
  | none => (none, n)
  | some oldConnID =>
    if oldConnID ≠ input.connID then n.removeConnLocked oldConnID else (none, n)

/-- Store a session and its index entries. -/
def insert (n : NestedManager) (session : Session) : NestedManager where
  byConnID := n.byConnID.put session
  connIDBySessionID := n.connIDBySessionID.put (session.sessionID, session.connID)
  connIDByClientPair :=
    n.connIDByClientPair.insert session.clientID session.deviceID session.connID

/-- `Bind` once its input has passed the checks and the lock is taken. -/
def bindLocked (n : NestedManager) (env : SessionEnv) (input : BindInput) (now : Int) :
    BindResult × NestedManager :=
  match n.existing? input with
  | some existing =>
    let existing :=
      { existing with
        tokenID := input.tokenID
        gatewayNode := input.gatewayNode
        lastSeenAt := now }
    (⟨existing, none, false⟩, { n with byConnID := n.byConnID.put existing })
  | none =>
    let n := (n.removeConnLocked input.connID).2
    let (replaced, n) := n.removeReplaced input
    let session := Manager.createdSession input env now
    (⟨session, replaced, true⟩, n.insert session)

/-- `Bind`. -/
def bind (n : NestedManager) (env : SessionEnv) (input : BindInput) :
    Except SessionError BindResult × NestedManager :=
  if input.connID = 0 then (.error .invalidConnID, n)
  else if input.clientID = [] then (.error .emptyClientID, n)
  else if input.deviceID = [] then (.error .emptyDeviceID, n)
  else
    let now := if isZero input.now then env.clock else input.now
    let (result, n) := n.bindLocked env input now
    (.ok result, n)

/-- `TouchByConnID`. -/
def touchByConnID (n : NestedManager) (env : SessionEnv) (connID : UInt64) (now : Int) :
    Except SessionError Session × NestedManager :=
  let now := if isZero now then env.clock else now
  match n.byConnID.get? connID with
  | none => (.error .notFound, n)
  | some found =>
    let found := { found with lastSeenAt := now }
    (.ok found, { n with byConnID := n.byConnID.put found })

/-- `UnbindByConnID`: the removed session, if there was one. -/
def unbindByConnID (n : NestedManager) (connID : UInt64) : Option Session × NestedManager :=
  n.removeConnLocked connID

/-- `GetByConnID`. -/
def getByConnID (n : NestedManager) (connID : UInt64) : Option Session × Bool :=
  (n.byConnID.get? connID, (n.byConnID.get? connID).isSome)

/-- `GetBySessionID`. -/
def getBySessionID (n : NestedManager) (sessionID : GoString) : Option Session × Bool :=
  match n.connIDBySessionID.get? sessionID with
  | none => (none, false)
  | some (_, connID) => (n.byConnID.get? connID, true)

/-- `GetByClientDevice`. -/
def getByClientDevice (n : NestedManager) (clientID deviceID : GoString) : Option Session × Bool :=
  match n.connIDByClientPair.find? clientID deviceID with
  | none => (none, false)
  | some connID => (n.byConnID.get? connID, true)

/-- `UniqueClientLen`. -/
def uniqueClientLen (n : NestedManager) : Nat := n.connIDByClientPair.rows.length

end NestedManager

/-! ## One map instead of a map of maps -/

/-- The flat manager has the sessions and the indexes of the nested one. -/
structure Flattens (n : NestedManager) (m : Manager) : Prop where
  byConnID : n.byConnID = m.byConnID
  sessions : n.connIDBySessionID = m.connIDBySessionID
  pairs : ∀ clientID deviceID,
    n.connIDByClientPair.find? clientID deviceID = m.connIDOf clientID deviceID

namespace Flattens

variable {n : NestedManager} {m : Manager}

theorem new : Flattens .new .new := ⟨rfl, rfl, fun _ _ => rfl⟩

theorem existing (h : Flattens n m) (input : BindInput) :
    n.existing? input = m.existing? input := by
  rw [NestedManager.existing?, h.byConnID]
  rfl

theorem put (h : Flattens n m) (session : Session) :
    Flattens { n with byConnID := n.byConnID.put session }
      { m with byConnID := m.byConnID.put session } :=
  ⟨congrArg (·.put session) h.byConnID, h.sessions, h.pairs⟩

theorem remove_conn (h : Flattens n m) (connID : UInt64) :
    (n.removeConnLocked connID).1 = (m.removeConnLocked connID).1 ∧
      Flattens (n.removeConnLocked connID).2 (m.removeConnLocked connID).2 := by
  unfold NestedManager.removeConnLocked Manager.removeConnLocked
  rw [h.byConnID]
  cases m.byConnID.get? connID with
  | none => exact ⟨rfl, h⟩
  | some found =>
    refine ⟨rfl, rfl, congrArg (·.erase found.sessionID) h.sessions, fun clientID deviceID => ?_⟩
    rw [Nested.find?_remove, h.pairs, Manager.connIDOf, Manager.connIDOf, Table.get?_erase]
    simp only [Session.pair, Prod.mk.injEq]
    split <;> rfl

theorem remove_replaced (h : Flattens n m) (input : BindInput) :
    (n.removeReplaced input).1 = (m.removeReplaced input).1 ∧
      Flattens (n.removeReplaced input).2 (m.removeReplaced input).2 := by
  unfold NestedManager.removeReplaced Manager.removeReplaced
  rw [h.pairs]
  cases m.connIDOf input.clientID input.deviceID with
  | none => exact ⟨rfl, h⟩
  | some oldConnID =>
    dsimp only
    split
    · exact h.remove_conn oldConnID
    · exact ⟨rfl, h⟩

theorem insert (h : Flattens n m) (session : Session) :
    Flattens (n.insert session) (m.insert session) := by
  refine ⟨congrArg (·.put session) h.byConnID,
    congrArg (·.put (session.sessionID, session.connID)) h.sessions, fun clientID deviceID => ?_⟩
  show (n.connIDByClientPair.insert _ _ _).find? _ _ =
    ((m.connIDByClientPair.put (session.pair, session.connID)).get? _).map Prod.snd
  rw [Nested.find?_insert, h.pairs, Manager.connIDOf, Table.get?_put]
  simp only [Session.pair, Prod.mk.injEq]
  split <;> rfl

theorem bind (h : Flattens n m) (env : SessionEnv) (input : BindInput) :
    (n.bind env input).1 = (m.bind env input).1 ∧
      Flattens (n.bind env input).2 (m.bind env input).2 := by
  have hlocked : ∀ now, (n.bindLocked env input now).1 = (m.bindLocked env input now).1 ∧
      Flattens (n.bindLocked env input now).2 (m.bindLocked env input now).2 := by
    intro now
    unfold NestedManager.bindLocked Manager.bindLocked
    rw [h.existing]
    cases m.existing? input with
    | some existing => exact ⟨rfl, h.put _⟩
    | none =>
      obtain ⟨hreplaced, hrest⟩ := (h.remove_conn input.connID).2.remove_replaced input
      dsimp only
      rw [hreplaced]
      exact ⟨rfl, hrest.insert _⟩
  unfold NestedManager.bind Manager.bind
  split
  · exact ⟨rfl, h⟩
  · split
    · exact ⟨rfl, h⟩
    · split
      · exact ⟨rfl, h⟩
      · obtain ⟨hresult, hafter⟩ := hlocked (if isZero input.now then env.clock else input.now)
        exact ⟨congrArg Except.ok hresult, hafter⟩

/-- `TouchByConnID` does the same on both. -/
theorem touch (h : Flattens n m) (env : SessionEnv) (connID : UInt64) (now : Int) :
    (n.touchByConnID env connID now).1 = (m.touchByConnID env connID now).1 ∧
      Flattens (n.touchByConnID env connID now).2 (m.touchByConnID env connID now).2 := by
  unfold NestedManager.touchByConnID Manager.touchByConnID
  rw [h.byConnID]
  cases m.byConnID.get? connID with
  | none => exact ⟨rfl, h⟩
  | some found => exact ⟨rfl, rfl, h.sessions, h.pairs⟩

/-- `UnbindByConnID` does the same on both. -/
theorem unbind (h : Flattens n m) (connID : UInt64) :
    (n.unbindByConnID connID).1 = (m.unbindByConnID connID).1 ∧
      Flattens (n.unbindByConnID connID).2 (m.unbindByConnID connID).2 :=
  h.remove_conn connID

end Flattens

/-! ## The index by session id -/

namespace Manager

variable {m : Manager} {input : BindInput} {env : SessionEnv}

/-- The index by session id agrees with the sessions. -/
def Identified (m : Manager) : Prop :=
  Indexed m.connIDBySessionID m.byConnID Session.sessionID

theorem Identified.remove_conn (h : m.Identified) (connID : UInt64) :
    (m.removeConnLocked connID).2.Identified := by
  unfold removeConnLocked
  split
  · exact h
  · next found hfound => exact Indexed.erase h hfound

theorem Identified.remove_replaced (h : m.Identified) (input : BindInput) :
    (m.removeReplaced input).2.Identified := by
  unfold removeReplaced
  split
  · exact h
  · split
    · exact h.remove_conn _
    · exact h

theorem remove_replaced_get {k : UInt64} {session : Session}
    (h : (m.removeReplaced input).2.byConnID.get? k = some session) :
    m.byConnID.get? k = some session := by
  unfold removeReplaced at h
  split at h
  · exact h
  · split at h
    · rw [remove_conn_get] at h
      split at h
      · cases h
      · exact h
    · exact h

/-- The id `Bind` gives to a session it creates. -/
def chosenID (env : SessionEnv) (input : BindInput) : GoString :=
  if input.sessionID = [] then env.newID else input.sessionID

/-- `Bind` keeps the index if it gives a new session an id that no session has. -/
theorem Identified.bind (h : m.Identified) (hpaired : m.Paired)
    (hfresh : m.existing? input = none → ∀ k session, m.byConnID.get? k = some session →
      session.sessionID ≠ chosenID env input) : (m.bind env input).2.Identified := by
  rcases bind_cases m env input with ⟨err, heq⟩ | ⟨now, heq⟩
  · rw [heq]
    exact h
  · rw [heq]
    unfold bindLocked
    split
    · next existing hexisting =>
      have hget := (existing_eq_some hexisting).1
      have hconnID : existing.connID = input.connID := Table.key_of_get? hget
      exact Indexed.update h (show m.byConnID.get? existing.connID = some existing by rwa [hconnID])
        rfl
    · next hnone =>
      have hfree : (m.removeConnLocked input.connID).2.byConnID.get? input.connID = none := by
        rw [remove_conn_get, if_pos rfl]
      have hremoved := (h.remove_conn input.connID).remove_replaced input
      obtain ⟨-, -, hget⟩ := (hpaired.remove_conn input.connID).remove_replaced hfree
      refine Indexed.put hremoved ?_ ?_
      · show ((m.removeConnLocked input.connID).2.removeReplaced input).2.byConnID.get?
          input.connID = none
        rw [hget, hfree]
        rfl
      · rw [← Option.not_isSome_iff_eq_none]
        intro hsome
        obtain ⟨entry, hentry⟩ := Option.isSome_iff_exists.mp hsome
        obtain ⟨session, hsession, hid⟩ := Indexed.row_of_entry hremoved hentry
        have hbefore := remove_replaced_get hsession
        rw [remove_conn_get] at hbefore
        split at hbefore
        · cases hbefore
        · exact hfresh hnone _ session hbefore hid

end Manager

/-! ## Sequences of calls -/

namespace NestedManager

/-- The ids that sessions have had, after a call of `Bind`. -/
def usedAfter (n : NestedManager) (env : SessionEnv) (input : BindInput) (used : List GoString) :
    List GoString :=
  match (n.bind env input).1 with
  | .ok result => if result.created then result.session.sessionID :: used else used
  | .error _ => used

/-- A manager after a sequence of calls, with the ids its sessions have had. A session that
`Bind` creates gets an id that is not among them. -/
inductive Reachable : NestedManager → List GoString → Prop
  | new : Reachable .new []
  | bind {n : NestedManager} {used : List GoString} {env : SessionEnv} {input : BindInput} :
      Reachable n used → (n.existing? input = none → Manager.chosenID env input ∉ used) →
      Reachable (n.bind env input).2 (n.usedAfter env input used)
  | touch {n : NestedManager} {used : List GoString} {env : SessionEnv} {connID : UInt64}
      {now : Int} : Reachable n used → Reachable (n.touchByConnID env connID now).2 used
  | unbind {n : NestedManager} {used : List GoString} {connID : UInt64} :
      Reachable n used → Reachable (n.unbindByConnID connID).2 used

/-- The three maps describe the same sessions. -/
structure Inverse (n : NestedManager) : Prop where
  bySession : ∀ session : Session, n.getBySessionID session.sessionID = (some session, true) ↔
    n.getByConnID session.connID = (some session, true)
  byPair : ∀ session : Session,
    n.getByClientDevice session.clientID session.deviceID = (some session, true) ↔
      n.getByConnID session.connID = (some session, true)
  foundByConn : ∀ connID, (n.getByConnID connID).2 = true →
    ∃ session, n.getByConnID connID = (some session, true) ∧ session.connID = connID
  foundBySession : ∀ sessionID, (n.getBySessionID sessionID).2 = true →
    ∃ session, n.getBySessionID sessionID = (some session, true) ∧ session.sessionID = sessionID
  foundByPair : ∀ clientID deviceID, (n.getByClientDevice clientID deviceID).2 = true →
    ∃ session, n.getByClientDevice clientID deviceID = (some session, true) ∧
      session.pair = (clientID, deviceID)
  noEmptyMap : ∀ branch ∈ n.connIDByClientPair.rows, branch.leaves.rows ≠ []
  clients : n.uniqueClientLen = (n.byConnID.rows.map Session.clientID).dedup.length

/-- What a `Bind` does to the sessions of other connections: it removes the one it reports as
replaced, which had its client and device, and no other. -/
structure BindExact (n : NestedManager) (input : BindInput) (result : BindResult)
    (after : NestedManager) : Prop where
  bound : after.getByConnID input.connID = (some result.session, true)
  replaced : ∀ session, result.replaced = some session →
    n.getByConnID session.connID = (some session, true) ∧ session.connID ≠ input.connID ∧
      session.pair = (input.clientID, input.deviceID) ∧
      after.getByConnID session.connID = (none, false)
  others : ∀ connID, connID ≠ input.connID →
    (∀ session, result.replaced = some session → session.connID ≠ connID) →
    after.getByConnID connID = n.getByConnID connID
  otherPairs : ∀ connID session, connID ≠ input.connID →
    session.pair ≠ (input.clientID, input.deviceID) →
    (after.getByConnID connID = (some session, true) ↔
      n.getByConnID connID = (some session, true))

variable {n : NestedManager}

theorem bind_error {env : SessionEnv} {input : BindInput} {err : SessionError}
    (h : (n.bind env input).1 = .error err) : (n.bind env input).2 = n := by
  unfold bind at h ⊢
  split_ifs at h ⊢ <;> rfl

/-! ### The map of maps -/

theorem full_remove_conn (h : n.connIDByClientPair.Full) (connID : UInt64) :
    (n.removeConnLocked connID).2.connIDByClientPair.Full := by
  unfold removeConnLocked
  split
  · exact h
  · exact Nested.Full.remove h

theorem full_bind (h : n.connIDByClientPair.Full) (env : SessionEnv) (input : BindInput) :
    (n.bind env input).2.connIDByClientPair.Full := by
  have hreplaced : ∀ {n : NestedManager}, n.connIDByClientPair.Full →
      (n.removeReplaced input).2.connIDByClientPair.Full := by
    intro n h
    unfold removeReplaced
    split
    · exact h
    · split
      · exact full_remove_conn h _
      · exact h
  have hlocked : ∀ now, (n.bindLocked env input now).2.connIDByClientPair.Full := by
    intro now
    unfold bindLocked
    split
    · exact h
    · exact Nested.Full.insert (hreplaced (full_remove_conn h _))
  unfold bind
  split
  · exact h
  · split
    · exact h
    · split
      · exact h
      · exact hlocked _

theorem full_touch (h : n.connIDByClientPair.Full) (env : SessionEnv) (connID : UInt64)
    (now : Int) : (n.touchByConnID env connID now).2.connIDByClientPair.Full := by
  unfold touchByConnID
  dsimp only
  split
  · exact h
  · exact h

end NestedManager

/-! ### The flat manager beside it -/

/-- What a flat manager keeps along the calls: both indexes are inverses, and every session has an
id that was used. -/
structure Manager.Kept (m : Manager) (used : List GoString) : Prop where
  paired : m.Paired
  identified : m.Identified
  used : ∀ k session, m.byConnID.get? k = some session → session.sessionID ∈ used

namespace Manager

variable {m : Manager} {used : List GoString} {env : SessionEnv} {input : BindInput}

theorem bind_locked_id (m : Manager) (env : SessionEnv) (input : BindInput) (now : Int) :
    (m.bindLocked env input now).1.created = true ∨
      ∃ old, m.byConnID.get? input.connID = some old ∧
        old.sessionID = (m.bindLocked env input now).1.session.sessionID := by
  unfold bindLocked
  split
  · next existing hexisting => exact .inr ⟨existing, (existing_eq_some hexisting).1, rfl⟩
  · exact .inl rfl

theorem Kept.bind (h : m.Kept used)
    (hfresh : m.existing? input = none → chosenID env input ∉ used) :
    (m.bind env input).2.Kept (match (m.bind env input).1 with
      | .ok result => if result.created then result.session.sessionID :: used else used
      | .error _ => used) := by
  have hidentified : (m.bind env input).2.Identified := by
    refine h.identified.bind h.paired fun hnone k session hget heq => ?_
    exact hfresh hnone (heq ▸ h.used k session hget)
  rcases bind_cases m env input with ⟨err, heq⟩ | ⟨now, heq⟩
  · rw [heq]
    exact h
  · rw [heq] at hidentified ⊢
    obtain ⟨hpaired, hget⟩ := h.paired.bind_locked env input now
    refine ⟨hpaired, hidentified, fun k session hsession => ?_⟩
    have hmono : ∀ {id}, id ∈ used → id ∈ if (m.bindLocked env input now).1.created = true then
        (m.bindLocked env input now).1.session.sessionID :: used else used := by
      intro id hid
      split
      · exact List.mem_cons_of_mem _ hid
      · exact hid
    rw [hget] at hsession
    split at hsession
    · obtain rfl := Option.some.inj hsession
      rcases bind_locked_id m env input now with hcreated | ⟨old, hold, hid⟩
      · simp [hcreated]
      · exact hmono (hid ▸ h.used _ _ hold)
    · exact hmono (h.used k session (Option.filter_eq_some_iff.mp hsession).1)

theorem Paired.bind_replaced (h : m.Paired) (env : SessionEnv) (input : BindInput) (now : Int) :
    (m.bindLocked env input now).1.replaced =
      (m.getByClientDevice input.clientID input.deviceID).filter fun session =>
        session.connID ≠ input.connID := by
  unfold bindLocked
  split
  · next existing hexisting =>
    obtain ⟨hget, hpair⟩ := existing_eq_some hexisting
    have hconnID : existing.connID = input.connID := Table.key_of_get? hget
    have hsession : m.getByClientDevice input.clientID input.deviceID = some existing :=
      (@Paired.get_by_client_device m existing (input.clientID, input.deviceID) h).mpr
        ⟨hconnID ▸ hget, hpair⟩
    rw [hsession]
    simp [Option.filter, hconnID]
  · have hremoved := (h.unbind_spec input.connID).2 (input.clientID, input.deviceID)
    rw [← hremoved]
    dsimp only
    unfold removeReplaced getByClientDevice
    show _ = ((m.removeConnLocked input.connID).2.connIDOf input.clientID input.deviceID).bind _
    cases hconn : (m.removeConnLocked input.connID).2.connIDOf input.clientID input.deviceID with
    | none => rfl
    | some oldConnID =>
      have hne : oldConnID ≠ input.connID := by
        rintro rfl
        obtain ⟨entry, hindex, hentry⟩ := Option.map_eq_some_iff.mp hconn
        obtain ⟨session, hsession, -⟩ := (h.remove_conn input.connID).indexed.row_of_entry hindex
        rw [hentry, remove_conn_get, if_pos rfl] at hsession
        cases hsession
      dsimp only
      rw [if_pos hne]
      exact unbind_removed _ oldConnID

theorem Kept.unbind (h : m.Kept used) (connID : UInt64) :
    (m.unbindByConnID connID).2.Kept used := by
  refine ⟨h.paired.remove_conn connID, h.identified.remove_conn connID, fun k session hget => ?_⟩
  have hbefore := (remove_conn_get m connID k).symm.trans hget
  split at hbefore
  · cases hbefore
  · exact h.used k session hbefore

theorem Kept.touch (h : m.Kept used) (env : SessionEnv) (connID : UInt64) (now : Int) :
    (m.touchByConnID env connID now).2.Kept used := by
  unfold touchByConnID
  dsimp only
  generalize (if isZero now = true then env.clock else now) = time
  split
  · exact h
  · next found hfound =>
    have hconnID : found.connID = connID := Table.key_of_get? hfound
    subst hconnID
    refine ⟨h.paired.put_session hfound rfl, Indexed.update h.identified hfound rfl, ?_⟩
    intro k session hget
    rw [Table.get?_put] at hget
    split at hget
    · obtain rfl := Option.some.inj hget
      exact h.used _ found hfound
    · exact h.used k session hget

end Manager

theorem NestedManager.Reachable.flattens {n : NestedManager} {used : List GoString}
    (h : n.Reachable used) :
    n.connIDByClientPair.Full ∧ ∃ m, Flattens n m ∧ Manager.Kept m used := by
  induction h with
  | new =>
    refine ⟨Nested.full_empty, .new, .new, Manager.paired_new, Indexed.empty, ?_⟩
    intro k session hget
    cases hget
  | @bind n used env input _ hfresh ih =>
    obtain ⟨hfull, m, hflat, hkept⟩ := ih
    obtain ⟨hresult, hafter⟩ := hflat.bind env input
    refine ⟨full_bind hfull env input, _, hafter, ?_⟩
    rw [NestedManager.usedAfter, hresult]
    exact hkept.bind (hflat.existing input ▸ hfresh)
  | @touch n used env connID now _ ih =>
    obtain ⟨hfull, m, hflat, hkept⟩ := ih
    exact ⟨full_touch hfull env connID now, _, (hflat.touch env connID now).2,
      hkept.touch env connID now⟩
  | @unbind n used connID _ ih =>
    obtain ⟨hfull, m, hflat, hkept⟩ := ih
    exact ⟨full_remove_conn hfull connID, _, (hflat.unbind connID).2, hkept.unbind connID⟩

/-! ## Lookups -/

namespace NestedManager

variable {n : NestedManager} {m : Manager} {used : List GoString}

theorem get_by_conn_eq {connID : UInt64} {session : Session} :
    n.getByConnID connID = (some session, true) ↔ n.byConnID.get? connID = some session := by
  unfold getByConnID
  cases n.byConnID.get? connID <;> simp

theorem get_by_session_eq (hflat : Flattens n m) (hkept : m.Kept used) {session : Session}
    {sessionID : GoString} : n.getBySessionID sessionID = (some session, true) ↔
      n.byConnID.get? session.connID = some session ∧ session.sessionID = sessionID := by
  have hlookup := Indexed.lookup hkept.identified (a := session) (k := sessionID)
  rw [← hflat.byConnID, ← hflat.sessions] at hlookup
  rw [← hlookup, getBySessionID]
  cases n.connIDBySessionID.get? sessionID <;> simp

theorem get_by_pair_eq (hflat : Flattens n m) (hkept : m.Kept used) {session : Session}
    (pair : GoString × GoString) : n.getByClientDevice pair.1 pair.2 = (some session, true) ↔
      n.byConnID.get? session.connID = some session ∧ session.pair = pair := by
  rw [hflat.byConnID, ← hkept.paired.get_by_client_device, getByClientDevice,
    Manager.getByClientDevice, hflat.pairs, hflat.byConnID]
  cases m.connIDOf pair.1 pair.2 <;> simp

theorem inverse_of_flattens (hfull : n.connIDByClientPair.Full) (hflat : Flattens n m)
    (hkept : m.Kept used) : n.Inverse where
  bySession session := by
    rw [get_by_session_eq hflat hkept, get_by_conn_eq]
    simp
  byPair session := by
    rw [get_by_conn_eq]
    refine (get_by_pair_eq hflat hkept session.pair).trans ?_
    simp
  foundByConn connID hfound := by
    obtain ⟨session, hget⟩ := Option.isSome_iff_exists.mp hfound
    exact ⟨session, get_by_conn_eq.mpr hget, Table.key_of_get? hget⟩
  foundBySession sessionID hfound := by
    unfold getBySessionID at hfound
    split at hfound
    · cases hfound
    · next id connID hentry =>
      obtain ⟨session, hsession, hid⟩ :=
        Indexed.row_of_entry hkept.identified (hflat.sessions ▸ hentry)
      refine ⟨session, (get_by_session_eq hflat hkept).mpr ⟨?_, hid⟩, hid⟩
      rw [hflat.byConnID, Table.key_of_get? hsession]
      exact hsession
  foundByPair clientID deviceID hfound := by
    unfold getByClientDevice at hfound
    split at hfound
    · cases hfound
    · next connID hentry =>
      rw [hflat.pairs] at hentry
      obtain ⟨entry, hindex, rfl⟩ := Option.map_eq_some_iff.mp hentry
      obtain ⟨session, hsession, hpair⟩ := hkept.paired.indexed.row_of_entry hindex
      refine ⟨session, (get_by_pair_eq hflat hkept (clientID, deviceID)).mpr ⟨?_, hpair⟩, hpair⟩
      rw [hflat.byConnID, Table.key_of_get? hsession]
      exact hsession
  noEmptyMap := hfull
  clients := by
    -- both lists have no duplicates and hold the clients with a session
    have hperm : (n.connIDByClientPair.rows.map Branch.key).Perm
        (n.byConnID.rows.map Session.clientID).dedup := by
      refine (List.perm_ext_iff_of_nodup n.connIDByClientPair.nodup (List.nodup_dedup _)).mpr ?_
      intro clientID
      rw [Nested.Full.mem_keys hfull, List.mem_dedup, List.mem_map]
      constructor
      · rintro ⟨deviceID, connID, hfind⟩
        rw [hflat.pairs] at hfind
        obtain ⟨entry, hindex, rfl⟩ := Option.map_eq_some_iff.mp hfind
        obtain ⟨session, hsession, hpair⟩ := hkept.paired.indexed.row_of_entry hindex
        exact ⟨session, hflat.byConnID ▸ Table.mem_of_get? hsession, congrArg Prod.fst hpair⟩
      · rintro ⟨session, hmem, rfl⟩
        rw [hflat.byConnID] at hmem
        refine ⟨session.deviceID, session.connID, ?_⟩
        have hindex : m.connIDByClientPair.get? (session.clientID, session.deviceID) = _ :=
          (hkept.paired session.pair session.connID).mpr ⟨session, Table.get?_of_mem hmem, rfl⟩
        rw [hflat.pairs, Manager.connIDOf, hindex]
        rfl
    have hlength := hperm.length_eq
    rwa [List.length_map] at hlength

theorem bind_exact (hflat : Flattens n m) (hpaired : m.Paired) {env : SessionEnv}
    {input : BindInput} {result : BindResult} (hbind : (n.bind env input).1 = .ok result) :
    n.BindExact input result (n.bind env input).2 := by
  obtain ⟨hresult, hafter⟩ := hflat.bind env input
  rw [hresult] at hbind
  obtain ⟨now, hlocked⟩ := Manager.bind_ok hbind
  have hget : ∀ k, (n.bind env input).2.byConnID.get? k =
      if k = input.connID then some result.session
      else (n.byConnID.get? k).filter fun session =>
        session.pair ≠ (input.clientID, input.deviceID) := by
    intro k
    have hbound := (hpaired.bind_locked env input now).2 k
    rw [hlocked] at hbound
    rw [hafter.byConnID, hflat.byConnID]
    exact hbound
  have hreplaced : ∀ session, result.replaced = some session ↔
      (n.byConnID.get? session.connID = some session ∧
        session.pair = (input.clientID, input.deviceID)) ∧ session.connID ≠ input.connID := by
    intro session
    have heq := hpaired.bind_replaced env input now
    rw [hlocked] at heq
    rw [heq, Option.filter_eq_some_iff, hflat.byConnID]
    have hlookup :=
      @Manager.Paired.get_by_client_device m session (input.clientID, input.deviceID) hpaired
    exact and_congr hlookup (by simp)
  refine ⟨?_, fun session hsession => ?_, fun connID hconn hnone => ?_,
    fun connID session hconn hpair => ?_⟩
  · rw [get_by_conn_eq, hget, if_pos rfl]
  · obtain ⟨⟨hold, hpair⟩, hne⟩ := (hreplaced session).mp hsession
    refine ⟨get_by_conn_eq.mpr hold, hne, hpair, ?_⟩
    rw [getByConnID, hget, if_neg hne, hold]
    simp [Option.filter, hpair]
  · rw [getByConnID, getByConnID, hget, if_neg hconn]
    cases hold : n.byConnID.get? connID with
    | none => rfl
    | some session =>
      have hconnID : session.connID = connID := Table.key_of_get? hold
      have hpair : session.pair ≠ (input.clientID, input.deviceID) := by
        intro hpair
        subst hconnID
        exact hnone session ((hreplaced session).mpr ⟨⟨hold, hpair⟩, hconn⟩) rfl
      simp [Option.filter, hpair]
  · rw [get_by_conn_eq, get_by_conn_eq, hget, if_neg hconn, Option.filter_eq_some_iff]
    simp [hpair]

end NestedManager

/-- After every sequence of calls in which each new session gets an id that no session has had,
the three maps describe the same sessions; `Bind` and `UnbindByConnID` then remove exactly the
sessions they report. -/
theorem session_indexes_inverse {n : NestedManager} {used : List GoString}
    (h : n.Reachable used) :
    n.Inverse ∧
      (∀ env input, match (n.bind env input).1 with
        | .ok result => n.BindExact input result (n.bind env input).2
        | .error _ => (n.bind env input).2 = n) ∧
      ∀ connID, (n.unbindByConnID connID).1 = (n.getByConnID connID).1 ∧
        ∀ k, (n.unbindByConnID connID).2.getByConnID k =
          if k = connID then (none, false) else n.getByConnID k := by
  obtain ⟨hfull, m, hflat, hkept⟩ := h.flattens
  refine ⟨NestedManager.inverse_of_flattens hfull hflat hkept, fun env input => ?_,
    fun connID => ⟨?_, fun k => ?_⟩⟩
  · split
    · next result hbind => exact NestedManager.bind_exact hflat hkept.paired hbind
    · next err hbind => exact NestedManager.bind_error hbind
  · rw [(hflat.unbind connID).1, Manager.unbind_removed, NestedManager.getByConnID, hflat.byConnID]
  · rw [NestedManager.getByConnID, NestedManager.getByConnID, (hflat.unbind connID).2.byConnID,
      hflat.byConnID]
    rw [show (m.unbindByConnID connID).2.byConnID.get? k = _ from
      Manager.remove_conn_get m connID k]
    split <;> rfl

/-- Client `c` binds its device `d` on a connection, with an id that the manager is to choose. -/
def bindC (connID : UInt64) : BindInput := ⟨[], connID, ascii "c", ascii "d", [], [], 1⟩

/-- The manager after the device has bound on connection 1 and then on connection 2. -/
def movedDevice : NestedManager :=
  ((NestedManager.new.bind ⟨1, ascii "s1"⟩ (bindC 1)).2.bind ⟨2, ascii "s2"⟩ (bindC 2)).2

/-- Its maps describe the session on connection 2. -/
theorem session_indexes_inverse_moved :
    movedDevice.Inverse ∧ movedDevice.uniqueClientLen = 1 ∧
      movedDevice.getByConnID 1 = (none, false) ∧
      (movedDevice.getByClientDevice (ascii "c") (ascii "d")).1.map Session.sessionID =
        some (ascii "s2") := by
  have hfirst : (NestedManager.new.bind ⟨1, ascii "s1"⟩ (bindC 1)).2.Reachable _ :=
    .bind .new (fun _ => by decide)
  have hsecond : movedDevice.Reachable _ := .bind hfirst (fun _ => by decide)
  exact ⟨(session_indexes_inverse hsecond).1, by decide, by decide, by decide⟩

end ZCourier.Server
