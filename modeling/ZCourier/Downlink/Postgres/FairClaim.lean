import ZCourier.Downlink.FairSelection
import ZCourier.Downlink.Postgres.Store
import ZCourier.Downlink.StoreStep

/-!
# The fair claim in SQL and in Go

`ClaimDueRetryFair` of the Postgres store ranks due rows with a window function, that of the
in-memory store deals due messages into rounds. `fair_claim_agrees` says that both choose the same
ones.
-/

namespace ZCourier.Downlink

open Go Library Library.Sql RoundRobin

/-! ## Tables and stores with the same messages -/

/-- No column the retry queries read holds the zero time; where the source has the zero time the
column is NULL. -/
structure MessageRow.NoZeroTime (row : MessageRow) : Prop where
  nextRetryAt : ∀ t ∈ row.nextRetryAt, t.val ≠ 0
  sentAt : ∀ t ∈ row.sentAt, t.val ≠ 0
  claimUntil : ∀ t ∈ row.claimUntil, t.val ≠ 0

instance (row : MessageRow) : Decidable row.NoZeroTime :=
  decidable_of_iff ((∀ t ∈ row.nextRetryAt, t.val ≠ 0) ∧ (∀ t ∈ row.sentAt, t.val ≠ 0) ∧
      ∀ t ∈ row.claimUntil, t.val ≠ 0)
    ⟨fun ⟨h₁, h₂, h₃⟩ => ⟨h₁, h₂, h₃⟩, fun ⟨h₁, h₂, h₃⟩ => ⟨h₁, h₂, h₃⟩⟩

structure PostgresStore.SameMessages (p : PostgresStore) (s : MemoryStore) : Prop where
  messages : (p.messages.rows.map MessageRow.message).Perm s.messages.rows
  noZeroTime : ∀ row ∈ p.messages.rows, row.NoZeroTime

section NullableTimes

variable {t : Option Timestamp} (h : ∀ u ∈ t, u.val ≠ 0)

include h

theorem null_or_le (now : Int) :
    (t.all fun u => u.val ≤ (Timestamp.of now).val) = true ↔
      nullableTime t = 0 ∨ nullableTime t ≤ now := by
  cases t with
  | none => simp [nullableTime]
  | some u =>
    have hzero : u.val ≠ 0 := h u rfl
    simp [nullableTime, hzero, Timestamp.le_of_iff u.whole]

theorem not_null_and_le (now : Int) :
    (t.any fun u => u.val ≤ (Timestamp.of now).val) = true ↔
      nullableTime t ≠ 0 ∧ nullableTime t ≤ now := by
  cases t with
  | none => simp [nullableTime]
  | some u =>
    have hzero : u.val ≠ 0 := h u rfl
    simp [nullableTime, hzero, Timestamp.le_of_iff u.whole]

theorem is_none_iff : t.isNone = true ↔ nullableTime t = 0 := by
  cases t with
  | none => simp [nullableTime]
  | some u => simpa [nullableTime] using h u rfl

end NullableTimes

theorem message_due_iff {message : Message} {now ackTimeout : Int} :
    messageDueForRetry message now ackTimeout = true ↔
      (message.claimUntil = 0 ∨ message.claimUntil ≤ now) ∧
        (message.status = .pending ∧ (message.nextRetryAt = 0 ∨ message.nextRetryAt ≤ now) ∨
          message.status = .sent ∧ message.ackRequired = true ∧
            (message.nextRetryAt ≠ 0 ∧ message.nextRetryAt ≤ now ∨
              message.nextRetryAt = 0 ∧ 0 < ackTimeout ∧
                message.sentAt ≠ 0 ∧ message.sentAt + ackTimeout ≤ now)) := by
  have hactive : claimActive message now = true ↔
      ¬(message.claimUntil = 0 ∨ message.claimUntil ≤ now) := by
    simp [claimActive]
  by_cases hclaim : message.claimUntil = 0 ∨ message.claimUntil ≤ now
  · rw [messageDueForRetry, if_neg (fun h => hactive.mp h hclaim)]
    cases hstatus : message.status with
    | pending => simp [hclaim]
    | sent =>
      by_cases hack : message.ackRequired = true
      · by_cases hnext : message.nextRetryAt = 0
        · by_cases hpos : 0 < ackTimeout
          · by_cases hsent : message.sentAt = 0 <;>
              simp [hclaim, hack, hnext, hpos, hsent]
          · simp [hclaim, hack, hnext, hpos, Int.not_lt.mp hpos]
        · simp [hclaim, hack, hnext]
      · simp [hack]
    | unset | delivered | failed | discarded => simp
  · rw [messageDueForRetry, if_pos (hactive.mpr hclaim)]
    simp [hclaim]

theorem due_row_eq {row : MessageRow} (h : row.NoZeroTime) (now ackTimeout : Int) :
    row.dueForRetry (.of now) (0 < ackTimeout) (.of (now - ackTimeout)) =
      messageDueForRetry row.message now ackTimeout := by
  have hdeadline : nullableTime row.sentAt ≤ now - ackTimeout ↔
      nullableTime row.sentAt + ackTimeout ≤ now := by omega
  rw [Bool.eq_iff_iff, message_due_iff]
  simp only [MessageRow.dueForRetry, MessageRow.message,
    Bool.and_eq_true, Bool.or_eq_true, decide_eq_true_eq, null_or_le h.nextRetryAt,
    null_or_le h.claimUntil, not_null_and_le h.nextRetryAt, not_null_and_le h.sentAt,
    is_none_iff h.nextRetryAt, hdeadline, and_assoc]
  exact and_comm

/-! ## The same rows -/

theorem created_le_eq : createdLe = byTime Message.createdAt Message.messageID := rfl

/-- A view of messages that shows all that the selection reads. -/
structure SelectionView (view : Message → Message) : Prop where
  messageID : ∀ message, (view message).messageID = message.messageID
  device : ∀ message, (view message).device = message.device
  createdAt : ∀ message, (view message).createdAt = message.createdAt
  due : ∀ message now ackTimeout,
    messageDueForRetry (view message) now ackTimeout = messageDueForRetry message now ackTimeout

theorem SelectionView.id : SelectionView id :=
  ⟨fun _ => rfl, fun _ => rfl, fun _ => rfl, fun _ _ _ => rfl⟩

variable {view : Message → Message}

theorem SelectionView.created_le (hview : SelectionView view) (a b : Message) :
    createdLe a b = byTime Message.createdAt Message.messageID (view a) (view b) := by
  rw [createdLe, byTime, hview.createdAt, hview.createdAt, hview.messageID, hview.messageID]

theorem pairwise_limit_messages (messages : List Message) (limit : Int) :
    (limitMessages messages limit).Pairwise fun a b =>
      byTime Message.createdAt Message.messageID a b = true := by
  have hsorted : (messages.mergeSort (byTime Message.createdAt Message.messageID)).Pairwise
      fun a b => byTime Message.createdAt Message.messageID a b = true := pairwise_by_time _
  simp only [limitMessages, created_le_eq]
  split
  · exact hsorted.sublist (List.take_sublist _ _)
  · exact hsorted

theorem device_position_eq (hview : SelectionView view) (candidates : List MessageRow)
    (row : MessageRow) : devicePosition candidates row =
      rowNumber Message.device Message.createdAt Message.messageID
        (candidates.map (view ∘ MessageRow.message)) (view row.message) := by
  rw [devicePosition, rowNumber, List.countP_map]
  refine List.countP_congr fun other _ => ?_
  have hdevice : (decide (other.clientID = row.clientID) &&
    decide (other.deviceID = row.deviceID)) =
      decide (other.message.device = row.message.device) := by
    rw [← Bool.decide_and]
    congr 1
    rw [Message.device, Message.device, Prod.mk.injEq]
    cases hother : other.clientID
    cases hother' : other.deviceID
    cases hrow : row.clientID
    cases hrow' : row.deviceID
    simp [MessageRow.message, hother, hother', hrow, hrow']
  simp only [Function.comp_apply, hdevice, hview.device,
    ← hview.created_le other.message row.message]
  rfl

theorem row_number_view (hview : SelectionView view) (messages : List Message) (message : Message) :
    rowNumber Message.device Message.createdAt Message.messageID messages message =
      rowNumber Message.device Message.createdAt Message.messageID (messages.map view)
        (view message) := by
  rw [rowNumber, rowNumber, List.countP_map]
  refine List.countP_congr fun other _ => ?_
  simp only [Function.comp_apply, hview.device, ← hview.created_le other message]
  rfl

section Views

variable {view : Message → Message} (hview : SelectionView view) {p : PostgresStore}
  {s : MemoryStore}
  (hmessages : (p.messages.rows.map (view ∘ MessageRow.message)).Perm (s.messages.rows.map view))
  (hzero : ∀ row ∈ p.messages.rows, row.NoZeroTime)

include hview hmessages hzero

theorem due_rows_view (now ackTimeout : Int) {limit : Int} (hlimit : 0 < limit) :
    (p.dueRows now ackTimeout limit).map (view ∘ MessageRow.message) =
      (limitMessages (s.retryCandidates now ackTimeout) limit).map view := by
  have hfilter : ((p.messages.rows.filter (MessageRow.dueForRetry (.of now) (0 < ackTimeout)
      (.of (now - ackTimeout)))).map (view ∘ MessageRow.message)).Perm
        ((s.retryCandidates now ackTimeout).map view) := by
    rw [List.filter_congr fun row hrow => due_row_eq (hzero row hrow) now ackTimeout,
      MemoryStore.retryCandidates]
    have hmap := hmessages.filter fun message => messageDueForRetry message now ackTimeout
    rw [List.filter_map, List.filter_map] at hmap
    simpa only [Function.comp_def, hview.due] using hmap
  have hids : (((s.retryCandidates now ackTimeout).map view).map Message.messageID).Nodup := by
    rw [List.map_map, show Message.messageID ∘ view = Message.messageID from
      funext hview.messageID]
    exact s.messages.nodup.sublist (List.filter_sublist.map _)
  simp only [PostgresStore.dueRows, limitMessages, if_pos hlimit]
  rw [List.map_take, List.map_take,
    List.map_mergeSort (s := byTime Message.createdAt Message.messageID)
      fun a _ b _ => hview.created_le a.message b.message,
    List.map_mergeSort (s := byTime Message.createdAt Message.messageID)
      fun a _ b _ => hview.created_le a b,
    merge_sort_eq_of_perm hids hfilter.symm]

theorem selected_rows_view (now ackTimeout : Int) {limit candidateLimit : Int}
    (hlimit : 0 < limit) (hcandidates : 0 < candidateLimit) :
    (p.selectedRows now ackTimeout limit candidateLimit).map (view ∘ MessageRow.message) =
      (fairRetryMessages (limitMessages (s.retryCandidates now ackTimeout) candidateLimit)
        limit).map view := by
  have hdue := due_rows_view hview hmessages hzero now ackTimeout hcandidates
  set candidates := p.dueRows now ackTimeout candidateLimit
  set messages := limitMessages (s.retryCandidates now ackTimeout) candidateLimit
  have hids : (messages.map Message.messageID).Nodup := by
    have hnodup : (s.retryCandidates now ackTimeout).Nodup :=
      (List.Nodup.of_map _ s.messages.nodup).filter _
    have hstored : ∀ message ∈ messages, message ∈ s.messages.rows := fun message hmem =>
      (List.mem_filter.mp (mem_limit_messages hmem)).1
    exact MemoryStore.ids_nodup (limit_messages_nodup _ hnodup) hstored
  have hranked : ∀ a ∈ candidates, ∀ b ∈ candidates, rankedLe candidates a b =
      byRowNumber Message.device Message.createdAt Message.messageID (messages.map view)
        (view a.message) (view b.message) := by
    intro a _ b _
    simp only [rankedLe, byRowNumber, device_position_eq hview, hdue,
      ← hview.created_le a.message b.message]
    rfl
  have hplaced : ∀ a ∈ messages, ∀ b ∈ messages,
      byRowNumber Message.device Message.createdAt Message.messageID messages a b =
        byRowNumber Message.device Message.createdAt Message.messageID (messages.map view)
          (view a) (view b) := by
    intro a _ b _
    simp only [byRowNumber, row_number_view hview messages, ← hview.created_le a b]
    rfl
  rw [fair_retry_messages_eq (hids.of_map _) hlimit, roundRobin,
    ← merge_sort_by_row_number hids (pairwise_limit_messages _ _), List.map_take,
    List.map_mergeSort hplaced, ← hdue]
  change ((candidates.mergeSort (rankedLe candidates)).take limit.toNat).map _ = _
  rw [List.map_take, List.map_mergeSort (f := view ∘ MessageRow.message) hranked, hdue]

end Views

variable {p : PostgresStore}

theorem PostgresStore.SameMessages.messages_id {s : MemoryStore} (h : p.SameMessages s) :
    (p.messages.rows.map (id ∘ MessageRow.message)).Perm (s.messages.rows.map id) := by
  simpa using h.messages

theorem due_rows_eq {s : MemoryStore} (h : p.SameMessages s) (now ackTimeout : Int) {limit : Int}
    (hlimit : 0 < limit) : (p.dueRows now ackTimeout limit).map MessageRow.message =
      limitMessages (s.retryCandidates now ackTimeout) limit := by
  simpa using due_rows_view .id h.messages_id h.noZeroTime now ackTimeout hlimit

theorem selected_rows_eq {s : MemoryStore} (h : p.SameMessages s) (now ackTimeout : Int)
    {limit candidateLimit : Int} (hlimit : 0 < limit) (hcandidates : 0 < candidateLimit) :
    (p.selectedRows now ackTimeout limit candidateLimit).map MessageRow.message =
      fairRetryMessages (limitMessages (s.retryCandidates now ackTimeout) candidateLimit)
        limit := by
  simpa using selected_rows_view .id h.messages_id h.noZeroTime now ackTimeout hlimit hcandidates

/-! ## The claiming query -/

theorem MessageRow.among_claimedIf (selected : List MessageRow) (owner : Text)
    (expiry now : Timestamp) (row : MessageRow) :
    (row.claimedIf selected owner expiry now).among selected = row.among selected := by
  unfold MessageRow.claimedIf
  split <;> rfl

/-- The tables after the claiming query. -/
def PostgresStore.claimed (p : PostgresStore) (selected : List MessageRow) (owner : Text)
    (expiry now : Timestamp) : PostgresStore :=
  ⟨p.messages.update (MessageRow.claimedIf selected owner expiry now)
    (MessageRow.claimedIf_messageID selected owner expiry now), p.events⟩

theorem PostgresStore.get?_claimed (p : PostgresStore) (selected : List MessageRow)
    (owner : Text) (expiry now : Timestamp) (id : GoString) :
    (p.claimed selected owner expiry now).messages.get? id =
      (p.messages.get? id).map (MessageRow.claimedIf selected owner expiry now) := by
  have hupdate : (p.messages.update (MessageRow.claimedIf selected owner expiry now)
      (MessageRow.claimedIf_messageID selected owner expiry now)).get? id = _ := Table.get?_update
  exact hupdate

theorem claim_rows_eq (selected : List MessageRow) (owner : Text) (expiry now : Timestamp)
    (p : PostgresStore) :
    claimRows selected owner expiry now p =
      .ok ((p.messages.rows.filter (MessageRow.among selected)).map fun row =>
          (row.claimed owner expiry now).message,
        p.claimed selected owner expiry now) := by
  have hscan : claimRows selected owner expiry now p = _ := scan_messages_ok _ _
  rw [hscan]
  congr 2
  show ((p.messages.rows.map (MessageRow.claimedIf selected owner expiry now)).filter
    (MessageRow.among selected)).map _ = _
  rw [List.filter_map, List.map_map, show MessageRow.among selected ∘
    MessageRow.claimedIf selected owner expiry now = MessageRow.among selected from
      funext (MessageRow.among_claimedIf selected owner expiry now)]
  refine List.map_congr_left fun row hrow => ?_
  rw [Function.comp_apply, MessageRow.claimedIf, if_pos (List.mem_filter.mp hrow).2]

theorem selected_rows_subset (p : PostgresStore) (now ackTimeout limit candidateLimit : Int) :
    p.selectedRows now ackTimeout limit candidateLimit ⊆ p.messages.rows := by
  intro row hrow
  have hcandidate := List.mem_mergeSort.mp (List.mem_of_mem_take hrow)
  have hdue := List.mem_mergeSort.mp (List.mem_of_mem_take hcandidate)
  exact (List.mem_filter.mp hdue).1

theorem among_iff {selected : List MessageRow} {row : MessageRow} :
    row.among selected = true ↔ row.messageID.val ∈ selected.map fun row => row.messageID.val := by
  simp only [MessageRow.among, List.any_eq_true, decide_eq_true_eq, List.mem_map]
  constructor
  · intro ⟨other, hother, heq⟩
    exact ⟨other, hother, congrArg Text.val heq⟩
  · intro ⟨other, hother, heq⟩
    refine ⟨other, hother, ?_⟩
    cases hid : other.messageID
    cases hid' : row.messageID
    simpa [hid, hid'] using heq

theorem mem_among_ids {selected : List MessageRow} (h : selected ⊆ p.messages.rows)
    {id : GoString} :
    id ∈ (p.messages.rows.filter (MessageRow.among selected)).map (fun row => row.messageID.val) ↔
      id ∈ selected.map fun row => row.messageID.val := by
  constructor
  · intro hmem
    obtain ⟨row, hrow, rfl⟩ := List.mem_map.mp hmem
    exact among_iff.mp (List.mem_filter.mp hrow).2
  · intro hmem
    obtain ⟨row, hrow, rfl⟩ := List.mem_map.mp hmem
    exact List.mem_map_of_mem (List.mem_filter.mpr ⟨h hrow, among_iff.mpr hmem⟩)

/-! ## Both stores -/

theorem normalized_candidates_pos {limit : Int} (h : 0 < limit) (candidateLimit : Int) :
    0 < (normalizeRetrySelectionLimits limit candidateLimit).2 := by
  simp only [normalizeRetrySelectionLimits]
  split <;> split <;> omega

theorem normalized_limit {limit : Int} (h : 0 < limit) (candidateLimit : Int) :
    (normalizeRetrySelectionLimits limit candidateLimit).1 = limit := by
  simp only [normalizeRetrySelectionLimits]
  exact if_neg (by omega)

section

variable [Sha256] {env : PostgresEnv} {p : PostgresStore} {s : MemoryStore}

theorem list_due_retry_fair_eq (henv : env.ctxErr = none) (hsame : p.SameMessages s)
    (now ackTimeout : Int) {limit : Int} (hlimit : 0 < limit) (candidateLimit : Int) :
    p.call env (.listDueRetryFair now ackTimeout limit candidateLimit) =
      ((s.listDueRetryFair env.toStoreEnv now ackTimeout limit candidateLimit).1, p) := by
  have hcandidates := normalized_candidates_pos hlimit candidateLimit
  set normal := normalizeRetrySelectionLimits limit candidateLimit with hnormal
  have hbody : (PostgresStatement.listDueRetry now ackTimeout normal.2).body env p =
      .ok ((p.dueRows (env.orClock now) ackTimeout normal.2).map MessageRow.message, p) :=
    scan_messages_ok _ p
  have hrun : p.call env (.listDueRetryFair now ackTimeout limit candidateLimit) =
      (.ok (fairRetrySelection ((p.dueRows (env.orClock now) ackTimeout normal.2).map
        MessageRow.message) normal.1), p) := run_and_then_ok henv hbody
  rw [hrun, due_rows_eq hsame _ _ hcandidates]
  simp only [MemoryStore.listDueRetryFair, henv, MemoryStore.selectDue]
  rfl

/-- The rows `ClaimDueRetryFair` claims, its limits normalised. -/
def PostgresStore.chosenRows (p : PostgresStore) (now ackTimeout limit candidateLimit : Int) :
    List MessageRow :=
  p.selectedRows now ackTimeout (normalizeRetrySelectionLimits limit candidateLimit).1
    (normalizeRetrySelectionLimits limit candidateLimit).2

section Claiming

variable (henv : env.ctxErr = none) (now ackTimeout limit candidateLimit lease : Int)

include henv

theorem call_claim_retry (owner : Text) (howner : owner.val ≠ []) :
    p.call env (.claimDueRetryFair now ackTimeout limit candidateLimit owner.val lease) =
      (.ok (retrySelectionFromMessages ((p.messages.rows.filter (MessageRow.among
          (p.chosenRows (env.orClock now) ackTimeout limit candidateLimit))).map fun row =>
            (row.claimed owner (.of (env.orClock now + leaseOr lease))
              (.of (env.orClock now))).message) .fair),
        p.claimed (p.chosenRows (env.orClock now) ackTimeout limit candidateLimit) owner
          (.of (env.orClock now + leaseOr lease)) (.of (env.orClock now))) := by
  have hbody : (PostgresStatement.claimDueRetryFair now ackTimeout
      (normalizeRetrySelectionLimits limit candidateLimit).1
      (normalizeRetrySelectionLimits limit candidateLimit).2 owner.val (leaseOr lease)).body env p =
        .ok _ :=
    (transaction_bind_ok (text_parameter_ok owner.valid p)).trans (claim_rows_eq _ owner _ _ p)
  simp only [PostgresStore.call, postgresProgram, if_neg howner]
  exact run_and_then_ok henv hbody

theorem memory_claim_retry {owner : GoString} (howner : owner ≠ []) :
    s.call env.toStoreEnv (.claimDueRetryFair now ackTimeout limit candidateLimit owner lease) =
      (.ok { s.selectDue (env.orClock now) ackTimeout limit candidateLimit with
        messages := (s.selectDue (env.orClock now) ackTimeout limit candidateLimit).messages.map
          (Message.claimed owner (env.orClock now + leaseOr lease) (env.orClock now)) },
        (MemoryStore.claimMessages owner (env.orClock now + leaseOr lease) (env.orClock now) s
          (s.selectDue (env.orClock now) ackTimeout limit candidateLimit).messages).2) := by
  have hstored : ∀ message ∈ (s.selectDue (env.orClock now) ackTimeout limit
      candidateLimit).messages, s.messages.get? message.messageID = some message :=
    fun message hmem => Table.get?_of_mem (MemoryStore.mem_select_due hmem).1
  simp only [MemoryStore.call, MemoryStore.claimDueRetryFair, henv, if_neg howner]
  rw [← MemoryStore.claimMessages_fst fun message hmem => ⟨message, hstored message hmem, rfl⟩]
  rfl

end Claiming

/-- The SQL of the fair claim selects what the in-memory store selects: with a live context and
an owner, `ClaimDueRetryFair` of both stores succeeds, returns messages with the same ids, and
the Postgres store has written the claim to exactly the rows with these ids; and
`ListDueRetryFair` returns the same selection. -/
theorem fair_claim_agrees (henv : env.ctxErr = none) (hsame : p.SameMessages s)
    (now ackTimeout : Int) {limit : Int} (hlimit : 0 < limit) (candidateLimit lease : Int)
    (owner : Text) (howner : owner.val ≠ []) :
    (∃ selection p' selection' s',
      p.call env (.claimDueRetryFair now ackTimeout limit candidateLimit owner.val lease) =
        (.ok selection, p') ∧
      s.call env.toStoreEnv
        (.claimDueRetryFair now ackTimeout limit candidateLimit owner.val lease) =
          (.ok selection', s') ∧
      (∀ id, id ∈ selection.messages.map Message.messageID ↔
        id ∈ selection'.messages.map Message.messageID) ∧
      ∀ id, p'.messages.get? id = (p.messages.get? id).map fun row =>
        if id ∈ selection'.messages.map Message.messageID then
          row.claimed owner (.of (env.orClock now + leaseOr lease)) (.of (env.orClock now))
        else row) ∧
    (p.call env (.listDueRetryFair now ackTimeout limit candidateLimit)).1 =
      (s.call env.toStoreEnv (.listDueRetryFair now ackTimeout limit candidateLimit)).1 := by
  have hcandidates := normalized_candidates_pos hlimit candidateLimit
  have hkept : 0 < (normalizeRetrySelectionLimits limit candidateLimit).1 := by
    rw [normalized_limit hlimit]
    exact hlimit
  refine ⟨?_, congrArg Prod.fst (list_due_retry_fair_eq henv hsame now ackTimeout hlimit _)⟩
  have hrun := @call_claim_retry _ env p henv now ackTimeout limit candidateLimit lease owner
    howner
  have hmemory := @memory_claim_retry _ env s henv now ackTimeout limit candidateLimit lease
    owner.val howner
  have hselected := selected_rows_eq hsame (env.orClock now) ackTimeout hkept hcandidates
  have hsubset : p.chosenRows (env.orClock now) ackTimeout limit candidateLimit ⊆ p.messages.rows :=
    selected_rows_subset p _ _ _ _
  have hrows := p.get?_claimed (p.chosenRows (env.orClock now) ackTimeout limit candidateLimit)
    owner (.of (env.orClock now + leaseOr lease)) (.of (env.orClock now))
  -- the ids of the messages the in-memory store returns are those of the selected rows
  have hids : ((s.selectDue (env.orClock now) ackTimeout limit candidateLimit).messages.map
      (Message.claimed owner.val (env.orClock now + leaseOr lease) (env.orClock now))).map
        Message.messageID =
      (p.chosenRows (env.orClock now) ackTimeout limit candidateLimit).map
        fun row => row.messageID.val := by
    have hchosen : (s.selectDue (env.orClock now) ackTimeout limit candidateLimit).messages =
        (p.chosenRows (env.orClock now) ackTimeout limit candidateLimit).map MessageRow.message :=
      hselected.symm
    rw [hchosen, List.map_map, List.map_map]
    rfl
  refine ⟨_, _, _, _, hrun, hmemory, fun id => ?_, fun id => ?_⟩
  · simp only [retry_selection_messages, hids, List.map_map]
    exact mem_among_ids hsubset
  · simp only [hids]
    rw [hrows]
    refine Option.map_congr fun row hrow => ?_
    have hkey := p.messageID_of_get? hrow
    simp only [MessageRow.claimedIf, among_iff, hkey]

end

/-! ## Two devices -/

/-- The clock of the example, with nothing cancelled. -/
def noon : PostgresEnv := ⟨⟨none, 5000000000, []⟩, false⟩

/-- A table with two messages for one device and one for another. -/
def threeRows : PostgresStore :=
  threeCandidates.foldl (fun p message =>
    (@PostgresStore.call Sha256.polynomial noon (.saveWithCapacity message ⟨0, 0⟩) p).2) .empty

/-- An in-memory store with the same messages. -/
def threeStored : MemoryStore :=
  threeCandidates.foldl (fun s message =>
    (@MemoryStore.call Sha256.polynomial s noon.toStoreEnv (.saveWithCapacity
      { message with body := some [], terminalPublishStatus := .disabled } ⟨0, 0⟩)).2) .new

/-- Of the three messages, two may be claimed: both stores claim the first of each device. -/
theorem fair_claim_agrees_two_devices :
    ∃ selection p' selection' s',
      @PostgresStore.call Sha256.polynomial noon
          (.claimDueRetryFair 6000000000 0 2 8 (ascii "gateway") 0) threeRows =
        (.ok selection, p') ∧
      @MemoryStore.call Sha256.polynomial threeStored noon.toStoreEnv
          (.claimDueRetryFair 6000000000 0 2 8 (ascii "gateway") 0) = (.ok selection', s') ∧
      (∀ id, id ∈ selection.messages.map Message.messageID ↔
        id ∈ selection'.messages.map Message.messageID) := by
  have hsame : threeRows.SameMessages threeStored := ⟨by decide +kernel, by decide +kernel⟩
  obtain ⟨⟨selection, p', selection', s', hp, hs, hids, -⟩, -⟩ :=
    @fair_claim_agrees Sha256.polynomial noon threeRows threeStored rfl hsame 6000000000 0 2
      (by decide) 8 0 ⟨ascii "gateway", by decide +kernel⟩ (by decide)
  exact ⟨selection, p', selection', s', hp, hs, hids⟩

/-- A message that is sent and to be retried at the zero time, which no statement of the store
writes. -/
def zeroTimeRows : PostgresStore :=
  let saved := (@PostgresStore.call Sha256.polynomial noon
    (.saveWithCapacity (messageFor "d" "m1") ⟨0, 0⟩) .empty).2
  ⟨saved.messages.update
    (fun row => { row with status := .sent, nextRetryAt := some (.of 0) }) fun _ => rfl,
    saved.events⟩

def zeroTimeStored : MemoryStore :=
  (zeroTimeRows.messages.rows.map MessageRow.message).foldl MemoryStore.putMessage .new

/-- For the query such a row is due. Read back it has no time of a retry, and the in-memory store
does not claim it. -/
theorem zero_time_claimed :
    (zeroTimeRows.messages.rows.map MessageRow.message).Perm zeroTimeStored.messages.rows ∧
    ((@PostgresStore.call Sha256.polynomial noon
        (.claimDueRetryFair 6000000000 0 1 8 (ascii "gateway") 0) zeroTimeRows).1.toOption.map
      fun selection => selection.messages.map Message.messageID) = some [ascii "m1"] ∧
    ((@MemoryStore.call Sha256.polynomial zeroTimeStored noon.toStoreEnv
        (.claimDueRetryFair 6000000000 0 1 8 (ascii "gateway") 0)).1.toOption.map
      fun selection => selection.messages.map Message.messageID) = some [] :=
  ⟨by decide +kernel, by decide +kernel, by decide +kernel⟩

end ZCourier.Downlink
