import ZCourier.Library.Interleaving
import ZCourier.Downlink.Postgres.Store

/-!
# Retention beside the other operations

Any number of gateways work on one database at READ COMMITTED. Each unit of work of `gateways` is
one step, and `DeleteExpired` takes two: its CTE picks ids from a snapshot, its `DELETE` then
removes the rows with these ids, whatever they have become since. `retention_spares_live` says
when no pending or sent row is removed; in `requeued_row_deleted` an operator's requeue comes in
between.
-/

namespace ZCourier.Downlink

open Go Library Library.Sql

/-- A status in which a message is still to be delivered or acknowledged. -/
def MessageStatus.Live (status : MessageStatus) : Prop :=
  status = .pending ∨ status = .sent

instance (status : MessageStatus) : Decidable status.Live :=
  inferInstanceAs (Decidable (_ ∨ _))

/-- The row with this id exists and is live. -/
def PostgresStore.Live (p : PostgresStore) (id : Text) : Prop :=
  ∃ row, p.messages.get? id.val = some row ∧ row.status.Live

/-- The methods of a `PostgresStore`; `Save`, `Requeue` and the `…Pending` methods are calls of
those below with fixed arguments. -/
inductive PostgresOperation where
  | call (storeCall : StoreCall)
  | claimDueRetry (now ackTimeout limit : Int) (owner : GoString) (lease : Int)
  | listByStatusPage (query : MessageListQuery)

/-- What a gateway runs; the result matters to nobody else. -/
abbrev GatewayCode := Prog PostgresStatement PostgresStatement.Response Unit

section

variable [Sha256]

/-- The code of a method. -/
def PostgresOperation.body : PostgresOperation → GatewayCode
  | .call storeCall => postgresProgram storeCall >>= fun _ => .ret ()
  | .claimDueRetry now ackTimeout limit owner lease =>
    claimDueRetryPostgres now ackTimeout limit owner lease >>= fun _ => .ret ()
  | .listByStatusPage query => listByStatusPagePostgres query >>= fun _ => .ret ()

/-- Any number of gateways on one database. -/
def gateways : System PostgresStore PostgresOperation PostgresStatement
    PostgresStatement.Response PostgresEnv Unit where
  body operation := operation.body
  start _ p := some p
  exec statement env p := some (p.exec env statement)

end

/-- A configuration of `gateways`. -/
abbrev Gateways :=
  Config PostgresStore PostgresOperation PostgresStatement PostgresStatement.Response Unit

/-- A step of `gateways` with the configurations around it. -/
abbrev GatewaysStep :=
  Transition PostgresStore PostgresOperation PostgresStatement PostgresStatement.Response
    PostgresEnv Unit

/-- The ids a thread has picked in its last step. -/
def picked? (log : List (Event PostgresStatement PostgresStatement.Response)) :
    Option (List Text) :=
  match log.getLast? with
  | some ⟨.pickExpired .., .ok ids⟩ => some ids
  | _ => none

/-- The step is a `DELETE` of `DeleteExpired` that removes the row. -/
def GatewaysStep.Deletes (t : GatewaysStep) (row : MessageRow) : Prop :=
  ∃ i env tag log ids next, t.choice = .act i env ∧
    t.before.threads[i]? = some ⟨tag, log, .perform (.deletePicked ids) next⟩ ∧
    t.before.state.messages.get? row.messageID.val = some row ∧
    t.after.state.messages.get? row.messageID.val = none

/-- `DeleteExpired` is started for a status that is not live, and no step makes a row live whose
id a `DeleteExpired` has picked and not yet deleted. -/
structure GatewaysStep.Undisturbed (t : GatewaysStep) : Prop where
  status : ∀ status before limit,
    t.choice = .start (.call (.deleteExpired status before limit)) → ¬ status.Live
  picked : ∀ thread ∈ t.before.threads, ∀ ids, picked? thread.log = some ids → ∀ id ∈ ids,
    t.after.state.Live id → t.before.state.Live id

/-! ## The two steps -/

section Steps

variable [Sha256] {env : PostgresEnv} {p : PostgresStore}

theorem exec_pick_expired {status : MessageStatus} {before limit : Int} {ids : List Text}
    (h : (p.exec env (.pickExpired status before limit)).1 = .ok ids)
    (hstatus : ¬ status.Live) :
    (p.exec env (.pickExpired status before limit)).2 = p ∧ ∀ id ∈ ids, ¬ p.Live id := by
  cases henv : env.ctxErr with
  | some err =>
    rw [PostgresStore.exec, henv] at h
    cases h
  | none =>
    have hexec : p.exec env (.pickExpired status before limit) =
        (.ok ((((p.messages.rows.filter (p.expiredRow status (.of before))).mergeSort
          MessageRow.updatedLe).take limit.toNat).map MessageRow.messageID), p) :=
      exec_ok henv rfl
    rw [hexec] at h ⊢
    refine ⟨rfl, fun id hid hlive => ?_⟩
    obtain rfl := Except.ok.inj h
    obtain ⟨row, hrow, rfl⟩ := List.mem_map.mp hid
    have hexpired := List.mem_filter.mp (List.mem_mergeSort.mp (List.mem_of_mem_take hrow))
    have hget : p.messages.get? row.messageID.val = some row := Table.get?_of_mem hexpired.1
    obtain ⟨row', hget', hlive⟩ := hlive
    obtain rfl := Option.some.inj (hget.symm.trans hget')
    have hsame : row.status = status := by
      have hcondition := hexpired.2
      simp only [PostgresStore.expiredRow, Bool.and_eq_true, decide_eq_true_eq] at hcondition
      exact hcondition.1.1
    exact hstatus (hsame ▸ hlive)

theorem exec_delete_picked {ids : List Text} {row : MessageRow}
    (hbefore : p.messages.get? row.messageID.val = some row)
    (hafter : (p.exec env (.deletePicked ids)).2.messages.get? row.messageID.val = none) :
    row.messageID ∈ ids := by
  cases henv : env.ctxErr with
  | some err =>
    rw [PostgresStore.exec, henv] at hafter
    exact absurd (hbefore.symm.trans hafter) (by simp)
  | none =>
    have hexec : (p.exec env (.deletePicked ids)).2.messages =
        p.messages.keep fun row => !ids.contains row.messageID := by
      rw [exec_ok henv rfl]
    rw [hexec, Table.get?_keep, hbefore] at hafter
    by_contra hout
    simp [Option.filter, hout] at hafter

end Steps

/-! ## What the methods perform -/

/-- Neither of the two steps of `DeleteExpired`. -/
def PostgresStatement.Plain : PostgresStatement → Prop
  | .pickExpired .. | .deletePicked .. => False
  | _ => True

/-- A unit of work, given what the thread has done before. -/
def Allowed (log : List (Event PostgresStatement PostgresStatement.Response)) :
    PostgresStatement → Prop
  | .pickExpired status _ _ => ¬ status.Live
  | .deletePicked ids => picked? log = some ids
  | _ => True

/-- The code only picks ids of statuses that are not live, and deletes what it has picked. -/
abbrev GatewayCode.Careful {α : Type}
    (code : Prog PostgresStatement PostgresStatement.Response α)
    (log : List (Event PostgresStatement PostgresStatement.Response)) : Prop :=
  code.Meets (.protocol Allowed fun _ _ => True) (fun _ _ => True) log

theorem careful_of_plain {α : Type} {code : Prog PostgresStatement PostgresStatement.Response α}
    (h : code.Performs PostgresStatement.Plain) :
    GatewayCode.Careful (code >>= fun _ => .ret ()) [] := by
  have hbody : (code >>= fun _ => (.ret () : GatewayCode)).Performs PostgresStatement.Plain :=
    h.bind fun _ => trivial
  refine (hbody.meets []).weaken ?_ fun _ _ _ _ hstep => hstep
  intro statement log hplain
  cases statement with
  | pickExpired | deletePicked => exact hplain.elim
  | _ => trivial

theorem PostgresCode.just_performs {statement : PostgresStatement} (h : statement.Plain) :
    (PostgresCode.just statement).Performs PostgresStatement.Plain :=
  ⟨h, fun _ => trivial⟩

theorem PostgresCode.andThen_performs {α : Type} {statement : PostgresStatement}
    {rest : statement.Value → PostgresCode α} (h : statement.Plain)
    (hrest : ∀ value, (rest value).Performs PostgresStatement.Plain) :
    (PostgresCode.andThen statement rest).Performs PostgresStatement.Plain := by
  refine ⟨h, fun response => ?_⟩
  cases response with
  | ok value => exact hrest value
  | error err => trivial

section Programs

variable [Sha256]

theorem save_performs (message : Message) :
    (savePostgres message).Performs PostgresStatement.Plain := by
  refine PostgresCode.andThen_performs trivial fun
    | (_, some _) => trivial
    | (prepared, none) => PostgresCode.andThen_performs trivial fun
      | none => trivial
      | some stored => ?_
  show (if _ then _ else _ : PostgresCode SaveResult).Performs _
  split
  · exact PostgresCode.andThen_performs trivial fun _ => trivial
  · trivial

omit [Sha256] in
theorem list_due_retry_fair_performs (now ackTimeout limit candidateLimit : Int) :
    (listDueRetryFairPostgres now ackTimeout limit candidateLimit).Performs
      PostgresStatement.Plain :=
  PostgresCode.andThen_performs trivial fun _ => trivial

theorem program_performs {call : StoreCall}
    (h : ∀ status before limit, call ≠ .deleteExpired status before limit) :
    (postgresProgram call).Performs PostgresStatement.Plain := by
  cases call with
  | saveWithCapacity message capacity =>
    simp only [postgresProgram]
    split
    · exact PostgresCode.just_performs trivial
    · exact save_performs message
  | requeueWithCapacity messageID requeuedAt capacity =>
    simp only [postgresProgram]
    split
    · exact PostgresCode.just_performs trivial
    · exact PostgresCode.just_performs trivial
  | claimDueRetryFair now ackTimeout limit candidateLimit owner lease =>
    simp only [postgresProgram]
    split
    · exact list_due_retry_fair_performs _ _ _ _
    · exact PostgresCode.andThen_performs trivial fun _ => trivial
  | listDueRetryFair now ackTimeout limit candidateLimit =>
    exact list_due_retry_fair_performs _ _ _ _
  | deleteExpired status before limit => exact absurd rfl (h status before limit)
  | get | listDueRetry | listPendingByClientDevice | markSent | markDelivered
  | markAttemptFailed | markFailed | discard | claimDueTerminal | markTerminalPublished
  | markTerminalPublishFailed => exact PostgresCode.just_performs trivial

theorem delete_expired_careful {status : MessageStatus} (hstatus : ¬ status.Live)
    (before limit : Int) :
    GatewayCode.Careful (postgresProgram (.deleteExpired status before limit)) [] := by
  simp only [postgresProgram]
  split
  · trivial
  · refine ⟨hstatus, ?_⟩
    intro response log' hlog
    obtain ⟨-, rfl⟩ := hlog
    cases response with
    | ok ids => exact ⟨rfl, fun _ _ _ => trivial⟩
    | error err => trivial

theorem body_careful (operation : PostgresOperation)
    (h : ∀ status before limit, operation = .call (.deleteExpired status before limit) →
      ¬ status.Live) : GatewayCode.Careful operation.body [] := by
  cases operation with
  | call storeCall =>
    by_cases hcall : ∃ status before limit, storeCall = .deleteExpired status before limit
    · obtain ⟨status, before, limit, rfl⟩ := hcall
      exact (delete_expired_careful (h status before limit rfl) before limit).bind
        fun _ _ _ => trivial
    · refine careful_of_plain (program_performs ?_)
      intro status before limit heq
      exact hcall ⟨status, before, limit, heq⟩
  | claimDueRetry now ackTimeout limit owner lease =>
    refine careful_of_plain ?_
    unfold claimDueRetryPostgres
    split
    · exact PostgresCode.just_performs trivial
    · exact PostgresCode.just_performs trivial
  | listByStatusPage query =>
    refine careful_of_plain ?_
    exact PostgresCode.andThen_performs trivial fun _ =>
      PostgresCode.andThen_performs trivial fun _ => trivial

/-! ## Every run -/

/-- No picked row is live. -/
def Gateways.PickedSettled (config : Gateways) : Prop :=
  ∀ thread ∈ config.threads, ∀ ids, picked? thread.log = some ids → ∀ id ∈ ids,
    ¬ config.state.Live id

variable {p : PostgresStore} {history : List GatewaysStep} {after : Gateways}

theorem undisturbed_settled (h : Run gateways GatewaysStep.Undisturbed (.idle p) history after) :
    after.PickedSettled ∧
      after.Follows (fun _ => Allowed) (fun _ _ => True) fun _ _ _ => True := by
  refine h.protocol (fun _ => Allowed) (fun _ _ => True) (fun _ _ _ => True)
    Gateways.PickedSettled (by simp [Gateways.PickedSettled, Config.idle]) ?_ ?_ ?_
  · intro before tag after hok
    refine body_careful tag fun status expiry limit htag => ?_
    exact hok.status status expiry limit (congrArg Choice.start htag)
  · intro before tag state' hsettled hstart _ thread hthread ids hpicked
    obtain rfl := Option.some.inj hstart
    rcases List.mem_append.mp hthread with hthread | hthread
    · exact hsettled thread hthread ids hpicked
    · rw [List.mem_singleton] at hthread
      subst hthread
      cases hpicked
  · intro before i env tag log statement next response state' hsettled hthread hallowed hexec hok
    refine ⟨trivial, fun thread hmem ids hpicked id hid hlive => ?_⟩
    rcases List.mem_or_eq_of_mem_set hmem with hmem | rfl
    · exact hsettled thread hmem ids hpicked id hid
        (hok.picked thread hmem ids hpicked id hid hlive)
    · -- the acting thread has just picked the ids
      obtain ⟨hresponse, hstate⟩ := Prod.mk.inj (Option.some.inj hexec)
      simp only [picked?, List.getLast?_concat] at hpicked
      split at hpicked
      · next status expiry limit ids' heq =>
          obtain rfl := Option.some.inj hpicked
          obtain ⟨rfl, heq⟩ := Event.mk.inj (Option.some.inj heq)
          obtain rfl := eq_of_heq heq
          obtain ⟨hsame, hnone⟩ := exec_pick_expired hresponse hallowed
          have hstate' : state' = before.state := hstate.symm.trans hsame
          subst hstate'
          exact hnone id hid hlive
      · cases hpicked

/-- Retention never deletes a live message, in every run in which `DeleteExpired` is called for
statuses that are not live and no step makes a picked row pending or sent. -/
theorem retention_spares_live
    (h : Run gateways GatewaysStep.Undisturbed (.idle p) history after) {t : GatewaysStep}
    (ht : t ∈ history) {row : MessageRow} (hdeletes : t.Deletes row) :
    row.status ≠ .pending ∧ row.status ≠ .sent := by
  obtain ⟨⟨earlier, hrun⟩, hstep, -⟩ := h.transition ht
  obtain ⟨hsettled, hfollows⟩ := undisturbed_settled hrun
  obtain ⟨i, env, tag, log, ids, next, hchoice, hthread, hbefore, hafter⟩ := hdeletes
  have hpicked : picked? log = some ids := hfollows.next_allowed hthread
  rw [hchoice] at hstep
  have hstate : t.after.state = (t.before.state.exec env (.deletePicked ids)).2 := by
    generalize hchoice' : t.after = result at hstep
    cases hstep with
    | act hthread' hexec =>
      obtain heq := Option.some.inj (hthread.symm.trans hthread')
      cases heq
      exact (congrArg Prod.snd (Option.some.inj hexec)).symm
  rw [hstate] at hafter
  have hid := exec_delete_picked hbefore hafter
  have hdead := hsettled _ (List.mem_of_getElem? hthread) ids hpicked _ hid
  refine ⟨fun hpending => hdead ⟨row, hbefore, .inl hpending⟩,
    fun hsent => hdead ⟨row, hbefore, .inr hsent⟩⟩

end Programs

/-! ## A requeue between the two steps -/

/-- The time of the example's steps, in microseconds, with nothing cancelled. -/
def micros (n : Int) : PostgresEnv := ⟨⟨none, n * 1000, []⟩, false⟩

/-- A pending message `m`. -/
def pendingM : Message :=
  messageFromPushRequest ⟨ascii "c", ascii "d", 7, ascii "m", [], true, some []⟩ (ascii "m") 1000

/-- Message `m` is saved and given up. -/
def failM : List (Choice PostgresOperation PostgresEnv) :=
  List.flatten [
    [.start (.call (.saveWithCapacity pendingM ⟨0, 0⟩)), .act 0 (micros 1)],
    [.start (.call (.markFailed (ascii "m") ⟨ascii "gone", [], 2000, false, false⟩)),
      .act 1 (micros 2)]]

/-- Then its id is picked by a `DeleteExpired`. -/
def pickM : List (Choice PostgresOperation PostgresEnv) :=
  failM ++ [.start (.call (.deleteExpired .failed 9000 10)), .act 2 (micros 9)]

/-- Before the `DELETE`, an operator requeues `m` on another gateway. -/
def requeueM : List (Choice PostgresOperation PostgresEnv) :=
  pickM ++ [.start (.call (.requeueWithCapacity (ascii "m") 9000 ⟨0, 0⟩)), .act 3 (micros 9)]

/-- The status of `m` before the third thread's next step, if that step deletes `m`. -/
def deletedStatus (before : Gateways) : Option MessageStatus :=
  match before.state.messages.get? (ascii "m"),
      (@gateways Sha256.polynomial).step before (.act 2 (micros 9)) with
  | some row, some after =>
    if before.threads[2]?.bind (fun thread => thread.prog.next?) =
          some (.deletePicked [row.messageID]) ∧
        after.state.messages.get? (ascii "m") = none then some row.status
    else none
  | _, _ => none

theorem deletes_of_deleted_status {before : Gateways} {status : MessageStatus}
    (h : deletedStatus before = some status) :
    ∃ row after, Step (@gateways Sha256.polynomial) before (.act 2 (micros 9)) after ∧
      GatewaysStep.Deletes ⟨before, .act 2 (micros 9), after⟩ row ∧ row.status = status ∧
      after.state.messages.get? (ascii "m") = none := by
  unfold deletedStatus at h
  split at h
  · next row after hget hstep =>
    split at h
    case isTrue hdelete =>
      obtain ⟨⟨tag, log, prog⟩, hthread, hnext⟩ := Option.bind_eq_some_iff.mp hdelete.1
      obtain ⟨next, rfl⟩ := Prog.eq_perform_of_next? hnext
      have hid := before.state.messageID_of_get? hget
      refine ⟨row, after, System.step_sound hstep,
        ⟨2, _, tag, log, _, next, rfl, hthread, ?_, ?_⟩, Option.some.inj h, hdelete.2⟩
      · rw [hid]
        exact hget
      · rw [hid]
        exact hdelete.2
    case isFalse => cases h
  · cases h

/-- An operator's requeue commits between the two steps of `DeleteExpired`: the pending row is
deleted. -/
theorem requeued_row_deleted :
    ∃ (history : List GatewaysStep) (t : GatewaysStep) (row : MessageRow),
      Run (@gateways Sha256.polynomial) (fun _ => True) (.idle .empty) (history ++ [t]) t.after ∧
      t.Deletes row ∧ row.status = .pending := by
  have hreplay : ((@gateways Sha256.polynomial).replay (.idle .empty) requeueM).bind
      deletedStatus = some .pending := by decide +kernel
  obtain ⟨before, hbefore, hdeleted⟩ := Option.bind_eq_some_iff.mp hreplay
  obtain ⟨row, after, hstep, hdeletes, hstatus, -⟩ := deletes_of_deleted_status hdeleted
  obtain ⟨history, hrun⟩ := System.replay_run (fun _ => True) hbefore fun _ _ => trivial
  exact ⟨history, ⟨before, _, after⟩, row, hrun.snoc hstep trivial, hdeletes, hstatus⟩

/-- No thread has picked ids, and no retention of live messages is started. -/
def nonePicked (config : Gateways) (choice : Choice PostgresOperation PostgresEnv) : Bool :=
  (config.threads.all fun thread => (picked? thread.log).isNone) &&
    match choice with
    | .start (.call (.deleteExpired status _ _)) => !decide status.Live
    | _ => true

theorem undisturbed_of_none_picked {before after : Gateways}
    {choice : Choice PostgresOperation PostgresEnv} (h : nonePicked before choice = true) :
    GatewaysStep.Undisturbed ⟨before, choice, after⟩ := by
  obtain ⟨hnone, hchoice⟩ := Bool.and_eq_true_iff.mp h
  constructor
  · intro status expiry limit heq
    obtain rfl : choice = .start (.call (.deleteExpired status expiry limit)) := heq
    simpa using hchoice
  · intro thread hthread ids hpicked
    have hthread' := List.all_eq_true.mp hnone thread hthread
    rw [hpicked] at hthread'
    cases hthread'

/-- Without the requeue the failed row is deleted, and it is not live. -/
theorem retention_spares_live_failed :
    ∃ (history : List GatewaysStep) (t : GatewaysStep) (row : MessageRow),
      Run (@gateways Sha256.polynomial) GatewaysStep.Undisturbed (.idle .empty) (history ++ [t])
        t.after ∧
      t.Deletes row ∧ row.status ≠ .pending ∧ row.status ≠ .sent := by
  have hreplay : ((@gateways Sha256.polynomial).replayIf nonePicked (.idle .empty) pickM).bind
      deletedStatus = some .failed := by decide +kernel
  obtain ⟨before, hbefore, hdeleted⟩ := Option.bind_eq_some_iff.mp hreplay
  obtain ⟨row, after, hstep, hdeletes, -, hgone⟩ := deletes_of_deleted_status hdeleted
  obtain ⟨history, hrun⟩ := System.replayIf_run undisturbed_of_none_picked hbefore
  have hpicked : (((@gateways Sha256.polynomial).replayIf nonePicked (.idle .empty) pickM).map
      fun before : Gateways => before.threads.all fun thread => (picked? thread.log).all fun ids =>
        ids.all fun id => id.val = ascii "m") = some true := by decide +kernel
  have hok : GatewaysStep.Undisturbed ⟨before, .act 2 (micros 9), after⟩ := by
    constructor
    · intro status expiry limit heq
      cases heq
    · intro thread hthread ids hids id hid hlive
      rw [hbefore, Option.map_some] at hpicked
      have hall := List.all_eq_true.mp (Option.some.inj hpicked) thread hthread
      rw [hids] at hall
      have hm : id.val = ascii "m" := by simpa using List.all_eq_true.mp hall id hid
      obtain ⟨row', hget, -⟩ := hlive
      rw [hm, hgone] at hget
      cases hget
  have hall := hrun.snoc hstep hok
  exact ⟨history, ⟨before, _, after⟩, row, hall, hdeletes,
    @retention_spares_live Sha256.polynomial _ _ _ hall _ (by simp) _ hdeletes⟩

end ZCourier.Downlink
