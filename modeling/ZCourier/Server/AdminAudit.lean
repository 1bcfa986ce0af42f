import Mathlib.Data.List.Infix
import Mathlib.Data.List.Induction
import Mathlib.Data.List.Perm.Subperm
import ZCourier.Go.Values
import ZCourier.Library.Recent
import ZCourier.Library.Table

/-!
# The audit trail of the admin API

`Store` of `internal/adminaudit/store.go`: a bounded buffer of entries with ascending ids, and
`List`, which gives the entries that match a filter in pages, from the newest to the oldest.
`audit_paging_stable` is the result about a whole walk over the pages with records made in
between. It needs fewer than `2 ^ 63` records, since `normalizeQuery` cuts greater cursors
(`cut_cursor_skips`).
-/

namespace ZCourier.Server

open Go Library

/-- `Entry`. -/
structure AuditEntry where
  id : UInt64
  recordedAt : Int
  action : GoString
  result : GoString
  httpStatus : Int
  gatewayNode : GoString
  authMode : GoString
  principal : GoString
  role : GoString
  adminSessionID : GoString
  authKeyID : GoString
  method : GoString
  path : GoString
  remoteAddr : GoString
  permission : GoString
  targetClientID : GoString
  targetDeviceID : GoString
  targetSessionID : GoString
  targetConnID : UInt64
  messageID : GoString
  traceID : GoString
  reason : GoString
  details : Table (Prod.fst : GoString × GoString → GoString)
  deriving DecidableEq

/-- `Query`. -/
structure AuditQuery where
  limit : Int
  cursor : UInt64
  action : GoString
  result : GoString
  principal : GoString
  clientID : GoString
  sessionID : GoString
  messageID : GoString

/-- `Result`. -/
structure AuditResult where
  limit : Int
  cursor : UInt64
  nextCursor : UInt64
  hasMore : Bool
  total : Nat
  entries : List AuditEntry

/-- `Store`. -/
structure AuditStore where
  capacity : Int
  nextID : UInt64
  entries : List AuditEntry
  deriving DecidableEq

/-- `DefaultCapacity`. -/
def defaultCapacity : Int := 1000

/-- `DefaultLimit`. -/
def defaultLimit : Int := 100

/-- `MaxLimit`. -/
def maxLimit : Int := 1000

/-- `maxCursor`. -/
def maxCursor : UInt64 := 9223372036854775807

/-- `nonEmpty`. -/
def nonEmpty (value fallback : GoString) : GoString := if value = [] then fallback else value

/-- `clampLimit`. -/
def clampLimit (limit : Int) : Int :=
  if limit ≤ 0 then defaultLimit else if maxLimit < limit then maxLimit else limit

/-- `NewStore`. -/
def newAuditStore (capacity : Int) : AuditStore :=
  ⟨if capacity ≤ 0 then defaultCapacity else capacity, 0, []⟩

/-- The loop over `Details` in `normalizeEntry`, in the order of the table. -/
def normalizeDetails (details : Table (Prod.fst : GoString × GoString → GoString)) :
    Table (Prod.fst : GoString × GoString → GoString) :=
  details.rows.foldl (fun kept detail =>
    if trimSpace detail.1 = [] then kept else kept.put (trimSpace detail.1, trimSpace detail.2))
    .empty

/-- `normalizeEntry`; details that are nil are empty. -/
def normalizeEntry (entry : AuditEntry) : AuditEntry :=
  { entry with
    action := nonEmpty (trimSpace entry.action) (ascii "unknown")
    result := nonEmpty (trimSpace entry.result) (ascii "unknown")
    gatewayNode := trimSpace entry.gatewayNode
    authMode := trimSpace entry.authMode
    principal := trimSpace entry.principal
    role := trimSpace entry.role
    adminSessionID := trimSpace entry.adminSessionID
    authKeyID := trimSpace entry.authKeyID
    method := trimSpace entry.method
    path := trimSpace entry.path
    remoteAddr := trimSpace entry.remoteAddr
    permission := trimSpace entry.permission
    targetClientID := trimSpace entry.targetClientID
    targetDeviceID := trimSpace entry.targetDeviceID
    targetSessionID := trimSpace entry.targetSessionID
    messageID := trimSpace entry.messageID
    traceID := trimSpace entry.traceID
    reason := trimSpace entry.reason
    details := normalizeDetails entry.details }

/-- `normalizeQuery`. -/
def normalizeQuery (query : AuditQuery) : AuditQuery where
  limit := clampLimit query.limit
  cursor := if maxCursor < query.cursor then maxCursor else query.cursor
  action := trimSpace query.action
  result := trimSpace query.result
  principal := trimSpace query.principal
  clientID := trimSpace query.clientID
  sessionID := trimSpace query.sessionID
  messageID := trimSpace query.messageID

/-- `entryMatches`. -/
def entryMatches (entry : AuditEntry) (query : AuditQuery) : Bool :=
  if query.action ≠ [] && entry.action ≠ query.action then false
  else if query.result ≠ [] && entry.result ≠ query.result then false
  else if query.principal ≠ [] && !decide (query.principal <:+: entry.principal) then false
  else if query.clientID ≠ [] && entry.targetClientID ≠ query.clientID then false
  else if query.sessionID ≠ [] && entry.targetSessionID ≠ query.sessionID &&
      entry.adminSessionID ≠ query.sessionID then false
  else if query.messageID ≠ [] && entry.messageID ≠ query.messageID then false
  else true

/-- A call of `RecordAdminAudit`: the entry, and the reading of the clock if it has no time. -/
structure Recording where
  entry : AuditEntry
  now : Int

/-- The entry a call stores under an id. -/
def Recording.stored (r : Recording) (id : UInt64) : AuditEntry :=
  let entry := normalizeEntry r.entry
  { entry with
    id
    recordedAt := if isZero entry.recordedAt then r.now else entry.recordedAt }

namespace AuditStore

/-- `RecordAdminAudit`; the stored entry is returned as well. -/
def recordAdminAudit (s : AuditStore) (r : Recording) : AuditStore :=
  let nextID := s.nextID + 1
  let entry := r.stored nextID
  if s.capacity ≤ s.entries.length then { s with nextID, entries := s.entries.tail ++ [entry] }
  else { s with nextID, entries := s.entries ++ [entry] }

/-- A number of calls of `RecordAdminAudit`. -/
def recordAll (s : AuditStore) (recordings : List Recording) : AuditStore :=
  recordings.foldl recordAdminAudit s

/-- One turn of the loop of `List`. -/
def listEntry (query : AuditQuery) (result : AuditResult) (entry : AuditEntry) : AuditResult :=
  if !entryMatches entry query then result
  else
    let result := { result with total := result.total + 1 }
    if 0 < query.cursor && query.cursor ≤ entry.id then result
    else if result.entries.length < query.limit then
      { result with entries := result.entries ++ [entry] }
    else if 0 < query.limit then { result with hasMore := true }
    else result

/-- `List`. -/
def list (s : AuditStore) (query : AuditQuery) : AuditResult :=
  let query := normalizeQuery query
  let result := s.entries.reverse.foldl (listEntry query)
    ⟨query.limit, query.cursor, 0, false, 0, []⟩
  if result.hasMore then
    match result.entries.getLast? with
    | some last => { result with nextCursor := last.id }
    | none => result
  else result

/-- A walk over the pages of a query from a cursor on, with the records made after each page but the
last. Each page comes with the store it was read from; there is no value if the walk is not
finished with these records. -/
def walk (query : AuditQuery) : List (List Recording) → AuditStore → UInt64 →
    Option (List (AuditStore × AuditResult))
  | [], s, cursor =>
    let page := s.list { query with cursor }
    if page.hasMore then none else some [(s, page)]
  | batch :: rest, s, cursor =>
    let page := s.list { query with cursor }
    if page.hasMore then
      (walk query rest (s.recordAll batch) page.nextCursor).map ((s, page) :: ·)
    else some [(s, page)]

end AuditStore

/-! ## What the store holds -/

/-- The entries that a list of calls stores, with the ids in their order. -/
def numbered (recorded : List Recording) : List AuditEntry :=
  recorded.mapIdx fun i r => r.stored (UInt64.ofNat (i + 1))

@[simp] theorem length_numbered (recorded : List Recording) :
    (numbered recorded).length = recorded.length := List.length_mapIdx

theorem numbered_append (recorded later : List Recording) :
    numbered (recorded ++ later) = numbered recorded ++
      later.mapIdx fun i r => r.stored (UInt64.ofNat (i + recorded.length + 1)) := by
  rw [numbered, List.mapIdx_append]
  rfl

/-- The store after a list of calls: the most recent entries. -/
structure HoldsRecent (capacity : Nat) (recorded : List Recording) (s : AuditStore) : Prop where
  pos : 0 < capacity
  capacity_eq : s.capacity = capacity
  next : s.nextID = UInt64.ofNat recorded.length
  entries : s.entries = recent capacity (numbered recorded)

section HoldsRecent

variable {capacity : Nat} {recorded later : List Recording} {s s' : AuditStore}

theorem HoldsRecent.new (capacity : Int) :
    HoldsRecent (if capacity ≤ 0 then defaultCapacity else capacity).toNat []
      (newAuditStore capacity) := by
  have hpos : 0 < (if capacity ≤ 0 then defaultCapacity else capacity) := by
    split
    · decide
    · omega
  refine ⟨by omega, ?_, rfl, ?_⟩
  · exact (Int.toNat_of_nonneg (Int.le_of_lt hpos)).symm
  · simp [newAuditStore, numbered, recent]

theorem HoldsRecent.record (h : HoldsRecent capacity recorded s) (r : Recording) :
    HoldsRecent capacity (recorded ++ [r]) (s.recordAdminAudit r) := by
  have hnext : s.nextID + 1 = UInt64.ofNat (recorded.length + 1) := by
    rw [h.next, UInt64.ofNat_add]
    rfl
  have hentries : (s.recordAdminAudit r).entries =
      push capacity s.entries (r.stored (s.nextID + 1)) := by
    unfold AuditStore.recordAdminAudit push
    rw [h.capacity_eq]
    simp only [Int.ofNat_le]
    split <;> rfl
  constructor
  case pos => exact h.pos
  case capacity_eq =>
    unfold AuditStore.recordAdminAudit
    simp only
    split <;> exact h.capacity_eq
  case next =>
    unfold AuditStore.recordAdminAudit
    simp only [List.length_append, List.length_singleton]
    split <;> exact hnext
  case entries =>
    rw [hentries, h.entries, push_recent h.pos, numbered_append, hnext]
    simp

theorem HoldsRecent.recordAll (h : HoldsRecent capacity recorded s) (later : List Recording) :
    HoldsRecent capacity (recorded ++ later) (s.recordAll later) := by
  induction later generalizing recorded s with
  | nil => simpa [AuditStore.recordAll] using h
  | cons r later ih =>
    rw [List.append_cons]
    exact ih (h.record r)

variable {entry : AuditEntry}

theorem HoldsRecent.mem_iff (h : HoldsRecent capacity recorded s) : entry ∈ s.entries ↔
      ∃ i, recorded.length ≤ i + capacity ∧ (numbered recorded)[i]? = some entry := by
  rw [h.entries, mem_recent_iff, length_numbered]

theorem id_numbered (hbound : recorded.length < 2 ^ 63) {i : Nat}
    (h : (numbered recorded)[i]? = some entry) : entry.id.toNat = i + 1 := by
  rw [numbered, List.getElem?_mapIdx] at h
  obtain ⟨r, hr, rfl⟩ := Option.map_eq_some_iff.mp h
  have hi := (List.getElem?_eq_some_iff.mp hr).1
  show (UInt64.ofNat (i + 1)).toNat = i + 1
  rw [UInt64.toNat_ofNat']
  omega

theorem HoldsRecent.mem_of_later (h : HoldsRecent capacity recorded s)
    (h' : HoldsRecent capacity (recorded ++ later) s')
    (hbound : (recorded ++ later).length < 2 ^ 63) (hmem : entry ∈ s'.entries)
    (hid : entry.id.toNat ≤ recorded.length) : entry ∈ s.entries := by
  obtain ⟨i, hrecent, hi⟩ := h'.mem_iff.mp hmem
  rw [List.length_append] at hrecent
  have hindex := id_numbered hbound hi
  refine h.mem_iff.mpr ⟨i, by omega, ?_⟩
  rwa [numbered_append, List.getElem?_append_left (by rw [length_numbered]; omega)] at hi

theorem HoldsRecent.mem_between {last : List Recording} {s'' : AuditStore}
    (h : HoldsRecent capacity recorded s) (h' : HoldsRecent capacity (recorded ++ later) s')
    (h'' : HoldsRecent capacity (recorded ++ later ++ last) s'')
    (hbound : (recorded ++ later ++ last).length < 2 ^ 63) (hmem : entry ∈ s.entries)
    (hmem'' : entry ∈ s''.entries) : entry ∈ s'.entries := by
  obtain ⟨i, -, hi⟩ := h.mem_iff.mp hmem
  refine h'.mem_of_later h'' hbound hmem'' ?_
  simp only [List.length_append] at hbound ⊢
  have hindex := id_numbered (by omega) hi
  have hlt := (List.getElem?_eq_some_iff.mp hi).1
  rw [length_numbered] at hlt
  omega

theorem HoldsRecent.ascending (h : HoldsRecent capacity recorded s)
    (hbound : recorded.length < 2 ^ 63) :
    s.entries.Pairwise fun left right => left.id < right.id := by
  rw [h.entries]
  refine List.Pairwise.sublist (List.drop_sublist ..) ?_
  rw [List.pairwise_iff_getElem]
  intro i j hi hj hij
  have hleft := id_numbered hbound (List.getElem?_eq_getElem hi)
  have hright := id_numbered hbound (List.getElem?_eq_getElem hj)
  rw [UInt64.lt_iff_toNat_lt]
  omega

end HoldsRecent

/-! ## One page -/

def AuditQuery.selects (query : AuditQuery) (entry : AuditEntry) : Prop :=
  entryMatches entry (normalizeQuery query) = true

/-- An entry comes after a cursor; zero stands for the start. -/
def Below (cursor : UInt64) (entry : AuditEntry) : Prop := cursor = 0 ∨ entry.id < cursor

instance (query : AuditQuery) (entry : AuditEntry) : Decidable (query.selects entry) :=
  inferInstanceAs (Decidable (_ = true))

instance (cursor : UInt64) (entry : AuditEntry) : Decidable (Below cursor entry) :=
  inferInstanceAs (Decidable (_ ∨ _))

/-- The entries a page is taken from, from the newest on. -/
def AuditStore.candidates (s : AuditStore) (query : AuditQuery) (cursor : UInt64) :
    List AuditEntry :=
  s.entries.reverse.filter fun entry => query.selects entry ∧ Below cursor entry

/-- The entries of a full page. -/
def AuditQuery.pageSize (query : AuditQuery) : Nat := (clampLimit query.limit).toNat

theorem clampLimit_pos (limit : Int) : 0 < clampLimit limit := by
  unfold clampLimit
  split
  · decide
  · split
    · decide
    · omega

theorem AuditQuery.pageSize_pos (query : AuditQuery) : 0 < query.pageSize := by
  have := clampLimit_pos query.limit
  unfold pageSize
  omega

section Page

variable {query : AuditQuery} {cursor : UInt64} {s : AuditStore}

theorem normalizeQuery_cursor (hcursor : cursor ≤ maxCursor) :
    (normalizeQuery { query with cursor }).cursor = cursor := by
  show (if maxCursor < cursor then maxCursor else cursor) = cursor
  rw [if_neg (UInt64.not_lt.mpr hcursor)]

theorem normalizeQuery_limit :
    (normalizeQuery { query with cursor }).limit = query.pageSize :=
  (Int.toNat_of_nonneg (Int.le_of_lt (clampLimit_pos query.limit))).symm

theorem not_below_iff {entry : AuditEntry} :
    (decide (0 < cursor) && decide (cursor ≤ entry.id)) = true ↔ ¬ Below cursor entry := by
  rw [Bool.and_eq_true, decide_eq_true_eq, decide_eq_true_eq, Below, not_or, UInt64.not_lt,
    UInt64.pos_iff_ne_zero]

theorem listEntry_skip (hcursor : cursor ≤ maxCursor) {entry : AuditEntry}
    (h : ¬ (query.selects entry ∧ Below cursor entry)) (result : AuditResult) :
    let turn := AuditStore.listEntry (normalizeQuery { query with cursor }) result entry
    turn.entries = result.entries ∧ turn.hasMore = result.hasMore := by
  simp only [AuditStore.listEntry, normalizeQuery_cursor hcursor]
  split
  · exact ⟨rfl, rfl⟩
  · next hselects =>
    rw [Bool.not_eq_true, Bool.not_eq_false'] at hselects
    rw [if_pos (not_below_iff.mpr fun hbelow => h ⟨hselects, hbelow⟩)]
    exact ⟨rfl, rfl⟩

theorem listEntry_take (hcursor : cursor ≤ maxCursor) {entry : AuditEntry}
    (h : query.selects entry ∧ Below cursor entry) (result : AuditResult) :
    let turn := AuditStore.listEntry (normalizeQuery { query with cursor }) result entry
    if result.entries.length < query.pageSize then
      turn.entries = result.entries ++ [entry] ∧ turn.hasMore = result.hasMore
    else turn.entries = result.entries ∧ turn.hasMore = true := by
  have hselects : entryMatches entry (normalizeQuery { query with cursor }) = true := h.1
  have hbelow := mt not_below_iff.mp (not_not_intro h.2)
  simp only [AuditStore.listEntry, normalizeQuery_cursor hcursor, normalizeQuery_limit, hselects,
    Bool.not_true, Bool.false_eq_true, if_false, if_neg hbelow, Int.ofNat_lt]
  by_cases hroom : result.entries.length < query.pageSize
  · simp only [if_pos hroom, and_self]
  · have hpos : (0 : Int) < query.pageSize := Int.ofNat_lt.mpr query.pageSize_pos
    rw [if_neg hroom, if_neg hroom, if_pos hpos]
    exact ⟨rfl, rfl⟩

theorem foldl_listEntry (query : AuditQuery) (hcursor : cursor ≤ maxCursor)
    (entries : List AuditEntry) (start : AuditResult) (hstart : start.entries = [])
    (hmore : start.hasMore = false) :
    let result := entries.foldl (AuditStore.listEntry (normalizeQuery { query with cursor })) start
    let found := entries.filter fun entry => query.selects entry ∧ Below cursor entry
    result.entries = found.take query.pageSize ∧
      result.hasMore = decide (query.pageSize < found.length) := by
  induction entries using List.reverseRecOn with
  | nil => simp [hstart, hmore]
  | append_singleton entries entry ih =>
    simp only [List.foldl_append, List.foldl_cons, List.foldl_nil, List.filter_append]
    simp only at ih
    generalize entries.foldl _ start = result at ih ⊢
    generalize (entries.filter fun entry => query.selects entry ∧ Below cursor entry) = found
      at ih ⊢
    obtain ⟨hentries, hmore⟩ := ih
    by_cases hcandidate : query.selects entry ∧ Below cursor entry
    · have hturn := listEntry_take hcursor hcandidate result
      have hone : [entry].filter (fun entry => query.selects entry ∧ Below cursor entry) =
          [entry] := by simp [hcandidate]
      rw [hone]
      by_cases hroom : found.length < query.pageSize
      · rw [if_pos (by rw [hentries, List.length_take]; omega)] at hturn
        rw [hturn.1, hturn.2, hentries, hmore, List.take_of_length_le (by omega),
          List.take_of_length_le (by simp; omega)]
        simp
        omega
      · rw [if_neg (by rw [hentries, List.length_take]; omega)] at hturn
        rw [hturn.1, hturn.2, hentries, List.take_append_of_le_length (by omega)]
        simp
        omega
    · have hturn := listEntry_skip hcursor hcandidate result
      have hnone : [entry].filter (fun entry => query.selects entry ∧ Below cursor entry) =
          [] := by simp [hcandidate]
      rw [hnone, List.append_nil, hturn.1, hturn.2]
      exact ⟨hentries, hmore⟩

theorem list_page (query : AuditQuery) (s : AuditStore) (hcursor : cursor ≤ maxCursor) :
    let page := s.list { query with cursor }
    page.entries = (s.candidates query cursor).take query.pageSize ∧
      page.hasMore = decide (query.pageSize < (s.candidates query cursor).length) ∧
      (page.hasMore = true →
        ∃ last, page.entries.getLast? = some last ∧ page.nextCursor = last.id) := by
  obtain ⟨hentries, hmore⟩ := foldl_listEntry query hcursor s.entries.reverse
    ⟨(normalizeQuery { query with cursor }).limit,
      (normalizeQuery { query with cursor }).cursor, 0, false, 0, []⟩ rfl rfl
  unfold AuditStore.list
  simp only
  generalize s.entries.reverse.foldl _ _ = result at hentries hmore ⊢
  replace hentries : result.entries = (s.candidates query cursor).take query.pageSize := hentries
  split
  · next hhas =>
    have hlong : query.pageSize < (s.candidates query cursor).length := by
      rw [hmore] at hhas
      exact of_decide_eq_true hhas
    have hne : result.entries ≠ [] := by
      rw [hentries]
      have := query.pageSize_pos
      exact List.ne_nil_of_length_pos (by rw [List.length_take]; omega)
    have hlast := List.getLast?_eq_getLast_of_ne_nil hne
    rw [hlast]
    exact ⟨hentries, hmore, fun _ => ⟨_, hlast, rfl⟩⟩
  · next hhas => exact ⟨hentries, hmore, fun h => absurd h hhas⟩

end Page

/-! ## A walk -/

theorem pairwise_take_last {α : Type} {r : α → α → Prop} {l : List α} (h : l.Pairwise r) {n : Nat}
    {last : α} (hlast : (l.take n).getLast? = some last) :
    (∀ a ∈ l.drop n, r last a) ∧ ∀ a ∈ l.take n, a = last ∨ r a last := by
  rw [← List.take_append_drop n l] at h
  obtain ⟨htake, -, hcross⟩ := List.pairwise_append.mp h
  refine ⟨fun a ha => hcross last (List.mem_of_getLast? hlast) a ha, fun a ha => ?_⟩
  obtain ⟨front, hfront⟩ := List.getLast?_eq_some_iff.mp hlast
  rw [hfront] at htake ha
  rcases List.mem_append.mp ha with ha | ha
  · exact .inr ((List.pairwise_append.mp htake).2.2 a ha last (List.mem_singleton_self _))
  · exact .inl (List.mem_singleton.mp ha)

section Walk

variable {capacity : Nat} {recorded later : List Recording} {s s' : AuditStore}
  {query : AuditQuery} {cursor : UInt64} {entry : AuditEntry}

theorem mem_candidates_iff :
    entry ∈ s.candidates query cursor ↔
      entry ∈ s.entries ∧ query.selects entry ∧ Below cursor entry := by
  simp [AuditStore.candidates]

theorem nodup_of_descending {entries : List AuditEntry}
    (h : entries.Pairwise fun left right => right.id < left.id) : entries.Nodup := by
  refine h.imp ?_
  rintro left right hlt rfl
  exact UInt64.lt_irrefl _ hlt

/-- Candidates come from the newest to the oldest. -/
theorem HoldsRecent.descending (h : HoldsRecent capacity recorded s)
    (hbound : recorded.length < 2 ^ 63)
    (query : AuditQuery) (cursor : UInt64) :
    (s.candidates query cursor).Pairwise fun left right => right.id < left.id :=
  (List.pairwise_reverse.mpr (h.ascending hbound)).sublist List.filter_sublist

theorem HoldsRecent.id_bounds (h : HoldsRecent capacity recorded s)
    (hbound : recorded.length < 2 ^ 63)
    (hmem : entry ∈ s.entries) : 0 < entry.id.toNat ∧ entry.id.toNat ≤ recorded.length := by
  obtain ⟨i, -, hi⟩ := h.mem_iff.mp hmem
  have hid := id_numbered hbound hi
  have hlt := (List.getElem?_eq_some_iff.mp hi).1
  rw [length_numbered] at hlt
  omega

theorem le_maxCursor (hbound : recorded.length < 2 ^ 63) (h : cursor.toNat ≤ recorded.length) :
    cursor ≤ maxCursor := by
  rw [UInt64.le_iff_toNat_le]
  show cursor.toNat ≤ 9223372036854775807
  omega

theorem candidates_later (h : HoldsRecent capacity recorded s)
    (h' : HoldsRecent capacity (recorded ++ later) s')
    (hbound : (recorded ++ later).length < 2 ^ 63)
    {last : AuditEntry}
    (hlast : ((s.candidates query cursor).take query.pageSize).getLast? = some last) :
    entry ∈ s'.candidates query last.id ↔
      entry ∈ s'.entries ∧ entry ∈ (s.candidates query cursor).drop query.pageSize := by
  have hshort : recorded.length < 2 ^ 63 := by
    rw [List.length_append] at hbound
    omega
  obtain ⟨hbehind, hbefore⟩ := pairwise_take_last (h.descending hshort query cursor) hlast
  obtain ⟨hstored, -, hbelow⟩ :=
    mem_candidates_iff.mp (List.mem_of_mem_take (List.mem_of_getLast? hlast))
  obtain ⟨hpos, hid⟩ := h.id_bounds hshort hstored
  rw [mem_candidates_iff]
  constructor
  · rintro ⟨hmem, hselects, hzero | hless⟩
    · rw [hzero] at hpos
      exact absurd hpos (Nat.lt_irrefl 0)
    · refine ⟨hmem, ?_⟩
      have hmem' : entry ∈ s.candidates query cursor := by
        refine mem_candidates_iff.mpr ⟨h.mem_of_later h' hbound hmem ?_, hselects, ?_⟩
        · rw [UInt64.lt_iff_toNat_lt] at hless
          omega
        · exact hbelow.imp_right (UInt64.lt_trans hless)
      rw [← List.take_append_drop query.pageSize (s.candidates query cursor)] at hmem'
      refine (List.mem_append.mp hmem').resolve_left fun htaken => ?_
      rcases hbefore entry htaken with rfl | hgreater
      · exact UInt64.lt_irrefl _ hless
      · exact UInt64.lt_irrefl _ (UInt64.lt_trans hless hgreater)
  · rintro ⟨hmem, hdropped⟩
    obtain ⟨-, hselects, -⟩ := mem_candidates_iff.mp (List.mem_of_mem_drop hdropped)
    exact ⟨hmem, hselects, .inr (hbehind entry hdropped)⟩

/-- The entries of all pages. -/
def walked (pages : List (AuditStore × AuditResult)) : List AuditEntry :=
  pages.flatMap fun page => page.2.entries

/-- What a finished walk has given: candidates of the first store only, in order, and all that were
still there at the end. -/
structure Walked (query : AuditQuery) (s : AuditStore) (cursor : UInt64)
    (pages : List (AuditStore × AuditResult)) : Prop where
  descending : (walked pages).Pairwise fun left right => right.id < left.id
  sound : ∀ entry ∈ walked pages, entry ∈ s.candidates query cursor
  complete : ∀ last, pages.getLast? = some last → ∀ entry ∈ s.candidates query cursor,
    entry ∈ last.1.entries → entry ∈ walked pages
  first : ∃ page, pages.head? = some (s, page)

theorem Walked.getLast?_cons {pages : List (AuditStore × AuditResult)}
    (h : Walked query s cursor pages) (page : AuditStore × AuditResult) :
    (page :: pages).getLast? = pages.getLast? := by
  obtain ⟨first, hfirst⟩ := h.first
  cases pages with
  | nil => cases hfirst
  | cons => exact List.getLast?_cons_cons

theorem Walked.single (hcursor : cursor ≤ maxCursor) (h : HoldsRecent capacity recorded s)
    (hbound : recorded.length < 2 ^ 63)
    (hdone : (s.list { query with cursor }).hasMore = false) :
    Walked query s cursor [(s, s.list { query with cursor })] := by
  obtain ⟨hentries, hmore, -⟩ := list_page query s hcursor
  have hall : walked [(s, s.list { query with cursor })] = s.candidates query cursor := by
    rw [hdone] at hmore
    have hshort := of_decide_eq_false hmore.symm
    rw [walked, List.flatMap_singleton, hentries, List.take_of_length_le (by omega)]
  constructor
  case descending => exact hall ▸ h.descending hbound query cursor
  case sound => exact hall ▸ fun _ => id
  case complete => exact fun _ _ entry hentry _ => hall ▸ hentry
  case first => exact ⟨_, rfl⟩

/-- A walk that goes on after its first page, in a later store. -/
theorem Walked.cons {pages : List (AuditStore × AuditResult)} (hcursor : cursor ≤ maxCursor)
    (h : HoldsRecent capacity recorded s) (h' : HoldsRecent capacity (recorded ++ later) s')
    (hbound : (recorded ++ later).length < 2 ^ 63)
    (hmore : (s.list { query with cursor }).hasMore = true)
    (hrest : Walked query s' (s.list { query with cursor }).nextCursor pages)
    (hkept : ∀ last, pages.getLast? = some last → ∀ entry ∈ s.entries, entry ∈ last.1.entries →
      entry ∈ s'.entries) :
    Walked query s cursor ((s, s.list { query with cursor }) :: pages) := by
  have hshort : recorded.length < 2 ^ 63 := by
    rw [List.length_append] at hbound
    omega
  obtain ⟨hentries, -, hnext⟩ := list_page query s hcursor
  obtain ⟨last, hlast, hcursor'⟩ := hnext hmore
  rw [hcursor'] at hrest
  rw [hentries] at hlast
  have hdescending := h.descending hshort query cursor
  have hlater : ∀ entry ∈ walked pages, entry ∈ (s.candidates query cursor).drop query.pageSize :=
    fun entry hentry => ((candidates_later h h' hbound hlast).mp (hrest.sound entry hentry)).2
  have hall : walked ((s, s.list { query with cursor }) :: pages) =
      (s.candidates query cursor).take query.pageSize ++ walked pages := by
    rw [← hentries]
    rfl
  constructor
  case descending =>
    rw [hall]
    refine List.pairwise_append.mpr ⟨hdescending.sublist (List.take_sublist ..),
      hrest.descending, fun left hleft right hright => ?_⟩
    rw [← List.take_append_drop query.pageSize (s.candidates query cursor)] at hdescending
    exact (List.pairwise_append.mp hdescending).2.2 left hleft right (hlater right hright)
  case sound =>
    intro entry hentry
    rw [hall] at hentry
    rcases List.mem_append.mp hentry with hentry | hentry
    · exact List.mem_of_mem_take hentry
    · exact List.mem_of_mem_drop (hlater entry hentry)
  case complete =>
    intro final hfinal entry hentry hstored
    rw [hrest.getLast?_cons] at hfinal
    rw [hall]
    rw [← List.take_append_drop query.pageSize (s.candidates query cursor)] at hentry
    rcases List.mem_append.mp hentry with htaken | hdropped
    · exact List.mem_append_left _ htaken
    · refine List.mem_append_right _ (hrest.complete final hfinal entry ?_ hstored)
      have hmem := (mem_candidates_iff.mp (List.mem_of_mem_drop hdropped)).1
      exact (candidates_later h h' hbound hlast).mpr
        ⟨hkept final hfinal entry hmem hstored, hdropped⟩
  case first => exact ⟨_, rfl⟩

/-- The number of records made during a walk. -/
def recordCount (batches : List (List Recording)) : Nat := (batches.map List.length).sum

theorem nextCursor_le (hcursor : cursor ≤ maxCursor) (h : HoldsRecent capacity recorded s)
    (hbound : recorded.length < 2 ^ 63) (hmore : (s.list { query with cursor }).hasMore = true) :
    (s.list { query with cursor }).nextCursor.toNat ≤ recorded.length := by
  obtain ⟨hentries, -, hnext⟩ := list_page query s hcursor
  obtain ⟨last, hlast, hcursor'⟩ := hnext hmore
  rw [hentries] at hlast
  have hmem := mem_candidates_iff.mp (List.mem_of_mem_take (List.mem_of_getLast? hlast))
  rw [hcursor']
  exact (h.id_bounds hbound hmem.1).2

theorem walk_walked {batches : List (List Recording)} (h : HoldsRecent capacity recorded s)
    (hbound : recorded.length + recordCount batches < 2 ^ 63)
    (hcursor : cursor.toNat ≤ recorded.length) {pages : List (AuditStore × AuditResult)}
    (hwalk : AuditStore.walk query batches s cursor = some pages) :
    Walked query s cursor pages ∧ ∀ last, pages.getLast? = some last →
      ∃ later : List Recording, later.length ≤ recordCount batches ∧
        HoldsRecent capacity (recorded ++ later) last.1 := by
  induction batches generalizing recorded s cursor pages with
  | nil =>
    have hmax := le_maxCursor (by omega) hcursor
    simp only [AuditStore.walk] at hwalk
    split at hwalk
    · cases hwalk
    · next hdone =>
      cases hwalk
      refine ⟨.single hmax h (by omega) (by simpa using hdone), ?_⟩
      rintro last ⟨⟩
      exact ⟨[], Nat.zero_le _, by simpa using h⟩
  | cons batch rest ih =>
    have hmax := le_maxCursor (by omega) hcursor
    have hcount : recordCount (batch :: rest) = batch.length + recordCount rest := rfl
    simp only [AuditStore.walk] at hwalk
    split at hwalk
    · next hmore =>
      obtain ⟨pages', hwalk', rfl⟩ := Option.map_eq_some_iff.mp hwalk
      have h' := h.recordAll batch
      have hnext := nextCursor_le hmax h (by omega) hmore
      obtain ⟨hwalked, hlast⟩ := ih h' (by rw [List.length_append]; omega)
        (by rw [List.length_append]; omega) hwalk'
      refine ⟨.cons hmax h h' (by rw [List.length_append]; omega) hmore hwalked ?_, ?_⟩
      · intro last hpages entry hmem hstored
        obtain ⟨final, hlength, hfinal⟩ := hlast last hpages
        refine h.mem_between h' hfinal ?_ hmem hstored
        simp only [List.length_append]
        omega
      · intro last hpages
        rw [hwalked.getLast?_cons] at hpages
        obtain ⟨final, hlength, hfinal⟩ := hlast last hpages
        refine ⟨batch ++ final, ?_, List.append_assoc .. ▸ hfinal⟩
        rw [List.length_append]
        omega
    · next hdone =>
      cases hwalk
      refine ⟨.single hmax h (by omega) (by simpa using hdone), ?_⟩
      rintro last ⟨⟩
      exact ⟨[], Nat.zero_le _, by simpa using h⟩

theorem walk_finishes {batches : List (List Recording)} (h : HoldsRecent capacity recorded s)
    (hbound : recorded.length + recordCount batches < 2 ^ 63)
    (hcursor : cursor.toNat ≤ recorded.length)
    (hpages : (s.candidates query cursor).length ≤ batches.length) :
    ∃ pages, AuditStore.walk query batches s cursor = some pages := by
  induction batches generalizing recorded s cursor with
  | nil =>
    have hmax := le_maxCursor (by omega) hcursor
    obtain ⟨-, hmore, -⟩ := list_page query s hmax
    have hdone : (s.list { query with cursor }).hasMore = false := by
      rw [hmore, decide_eq_false_iff_not]
      simp only [List.length_nil, Nat.le_zero] at hpages
      omega
    refine ⟨[(s, s.list { query with cursor })], ?_⟩
    simp only [AuditStore.walk, hdone, Bool.false_eq_true, if_false]
  | cons batch rest ih =>
    have hmax := le_maxCursor (by omega) hcursor
    have hcount : recordCount (batch :: rest) = batch.length + recordCount rest := rfl
    obtain ⟨hentries, hmore, hnext⟩ := list_page query s hmax
    simp only [AuditStore.walk]
    split
    · next hhas =>
      obtain ⟨last, hlast, hcursor'⟩ := hnext hhas
      have h' := h.recordAll batch
      have hnext := nextCursor_le hmax h (by omega) hhas
      rw [hentries] at hlast
      have hbound' : (recorded ++ batch).length < 2 ^ 63 := by
        rw [List.length_append]
        omega
      -- what is left for the next pages is less than what there was
      have hless : ((s.recordAll batch).candidates query last.id).length ≤
          ((s.candidates query cursor).drop query.pageSize).length := by
        refine (List.subperm_of_subset ?_ fun entry hentry => ?_).length_le
        · exact nodup_of_descending (h'.descending hbound' query last.id)
        · exact ((candidates_later h h' hbound' hlast).mp hentry).2
      have hsize := query.pageSize_pos
      rw [List.length_drop] at hless
      rw [hhas] at hmore
      have hlong := of_decide_eq_true hmore.symm
      simp only [List.length_cons] at hpages
      rw [hcursor'] at hnext ⊢
      have hnext' : last.id.toNat ≤ (recorded ++ batch).length := by
        rw [List.length_append]
        omega
      obtain ⟨pages, hrest⟩ := ih h' (by rw [List.length_append]; omega) hnext' (by omega)
      exact ⟨_, by rw [hrest]; rfl⟩
    · exact ⟨_, rfl⟩

end Walk

/-- Paging is stable under writes. For every capacity and query and fewer than `2 ^ 63` records,
made before the walk or between its pages: the store always holds the most recent entries, with
consecutive ids; a walk ends; its entries have descending ids; every entry that matches and is
stored at the first and at the last page comes exactly once; and nothing comes that was not stored
at the first page. -/
theorem audit_paging_stable (capacity : Int) (query : AuditQuery) (recorded : List Recording)
    (batches : List (List Recording)) (hbound : recorded.length + recordCount batches < 2 ^ 63) :
    let size := (if capacity ≤ 0 then defaultCapacity else capacity).toNat
    let s := (newAuditStore capacity).recordAll recorded
    s.entries = recent size (numbered recorded) ∧ s.entries.length = min size recorded.length ∧
      (∀ i entry, s.entries[i]? = some entry →
        entry.id.toNat = recorded.length - s.entries.length + i + 1) ∧
      (s.entries.length ≤ batches.length →
        ∃ pages, AuditStore.walk query batches s 0 = some pages) ∧
      ∀ pages, AuditStore.walk query batches s 0 = some pages →
        (walked pages).Pairwise (fun left right => right.id < left.id) ∧
        (∀ last, pages.getLast? = some last → ∀ entry ∈ s.entries, query.selects entry →
          entry ∈ last.1.entries → (walked pages).count entry = 1) ∧
        ∀ entry ∈ walked pages, entry ∈ s.entries ∧ entry.id.toNat ≤ recorded.length := by
  intro size s
  have h : HoldsRecent size recorded s := by
    simpa using (HoldsRecent.new capacity).recordAll recorded
  have hshort : recorded.length < 2 ^ 63 := by omega
  have hlength : s.entries.length = min size recorded.length := by
    rw [h.entries, length_recent, length_numbered]
  refine ⟨h.entries, hlength, ?_, ?_, ?_⟩
  · intro i entry hentry
    rw [h.entries, recent, List.getElem?_drop, length_numbered] at hentry
    rw [id_numbered hshort hentry, hlength]
    omega
  · intro hpages
    refine walk_finishes h hbound (Nat.zero_le _) (Nat.le_trans ?_ hpages)
    exact (List.length_filter_le ..).trans_eq List.length_reverse
  · intro pages hwalk
    obtain ⟨hwalked, -⟩ := walk_walked h hbound (Nat.zero_le _) hwalk
    refine ⟨hwalked.descending, ?_, ?_⟩
    · intro last hlast entry hmem hselects hstored
      refine List.count_eq_one_of_mem ?_ ?_
      · exact nodup_of_descending hwalked.descending
      · exact hwalked.complete last hlast entry
          (mem_candidates_iff.mpr ⟨hmem, hselects, .inl rfl⟩) hstored
    · intro entry hentry
      have hmem := (mem_candidates_iff.mp (hwalked.sound entry hentry)).1
      exact ⟨hmem, (h.id_bounds hshort hmem).2⟩

/-- An entry of which only the action is set. -/
def loginEntry : AuditEntry :=
  ⟨0, 1, ascii "login", [], 0, [], [], [], [], [], [], [], [], [], [], [], [], [], 0, [], [], [],
    .empty⟩

def onePerPage : AuditQuery := ⟨1, 0, [], [], [], [], [], []⟩

/-- A record after the first page drops the oldest of three entries; the second one still comes. -/
theorem audit_paging_stable_three :
    let recorded := List.replicate 3 (⟨loginEntry, 1⟩ : Recording)
    let batches := [[⟨loginEntry, 1⟩], [], []]
    let s := (newAuditStore 3).recordAll recorded
    recorded.length + recordCount batches < 2 ^ 63 ∧
      ∃ pages, AuditStore.walk onePerPage batches s 0 = some pages ∧
        (walked pages).map AuditEntry.id = [3, 2] ∧ ∀ entry ∈ walked pages, entry ∈ s.entries := by
  intro recorded batches s
  have hbound : recorded.length + recordCount batches < 2 ^ 63 := by decide
  have hwalk : (AuditStore.walk onePerPage batches s 0).map
      (fun pages => (walked pages).map AuditEntry.id) = some [3, 2] := by decide +kernel
  obtain ⟨pages, hpages, hids⟩ := Option.map_eq_some_iff.mp hwalk
  obtain ⟨-, -, -, -, hstable⟩ := audit_paging_stable 3 onePerPage recorded batches hbound
  exact ⟨hbound, pages, hpages, hids,
    fun entry hentry => ((hstable pages hpages).2.2 entry hentry).1⟩

theorem recordAll_replicate (r : Recording) (n : Nat) :
    (newAuditStore 3).recordAll (List.replicate (n + 3) r) =
      ⟨3, UInt64.ofNat (n + 3), [r.stored (UInt64.ofNat (n + 1)), r.stored (UInt64.ofNat (n + 2)),
        r.stored (UInt64.ofNat (n + 3))]⟩ := by
  have h := (HoldsRecent.new 3).recordAll (List.replicate (n + 3) r)
  rw [List.nil_append] at h
  have hlast : ∀ front back : List AuditEntry, back.length = 3 →
    recent 3 (front ++ back) = back := by
    intro front back hback
    rw [recent, List.length_append, hback, Nat.add_sub_cancel, List.drop_left]
  have hentries : recent 3 (numbered (List.replicate (n + 3) r)) =
      [r.stored (UInt64.ofNat (n + 1)), r.stored (UInt64.ofNat (n + 2)),
        r.stored (UInt64.ofNat (n + 3))] := by
    rw [← List.replicate_append_replicate, numbered_append, hlast _ _ rfl, List.length_replicate]
    show [r.stored (UInt64.ofNat (0 + n + 1)), r.stored (UInt64.ofNat (1 + n + 1)),
      r.stored (UInt64.ofNat (2 + n + 1))] = _
    rw [show 0 + n + 1 = n + 1 by omega, show 1 + n + 1 = n + 2 by omega,
      show 2 + n + 1 = n + 3 by omega]
  obtain ⟨-, hcapacity, hnext, hheld⟩ := h
  generalize (newAuditStore 3).recordAll (List.replicate (n + 3) r) = s at hcapacity hnext hheld ⊢
  obtain ⟨capacity, nextID, entries⟩ := s
  rw [List.length_replicate] at hnext
  replace hheld : entries = _ := hheld.trans hentries
  subst hheld
  subst hnext
  subst hcapacity
  rfl

/-- With `2 ^ 63` records the cursor of the second page is cut, and the entry before the newest one,
stored all the time, comes on no page. -/
theorem cut_cursor_skips :
    ∃ (recorded : List Recording) (s : AuditStore) (pages : List (AuditStore × AuditResult))
      (entry : AuditEntry), recorded.length = 2 ^ 63 ∧
      s = (newAuditStore 3).recordAll recorded ∧
      AuditStore.walk onePerPage [[]] s 0 = some pages ∧ (∀ page ∈ pages, page.1 = s) ∧
      entry ∈ s.entries ∧ onePerPage.selects entry ∧ entry ∉ walked pages := by
  let r : Recording := ⟨loginEntry, 1⟩
  let s : AuditStore := ⟨3, 9223372036854775808, [r.stored 9223372036854775806,
    r.stored 9223372036854775807, r.stored 9223372036854775808]⟩
  have hs : (newAuditStore 3).recordAll (List.replicate (9223372036854775805 + 3) r) = s :=
    recordAll_replicate r 9223372036854775805
  have hwalk : (AuditStore.walk onePerPage [[]] s 0).map (fun pages =>
      decide ((∀ page ∈ pages, page.1 = s) ∧ r.stored 9223372036854775807 ∉ walked pages)) =
        some true := by
    decide +kernel
  obtain ⟨pages, hpages, hchecked⟩ := Option.map_eq_some_iff.mp hwalk
  obtain ⟨hsame, hmissing⟩ := of_decide_eq_true hchecked
  refine ⟨_, s, pages, r.stored 9223372036854775807, List.length_replicate, hs.symm, hpages, hsame,
    ?_, ?_, hmissing⟩
  · exact List.mem_cons_of_mem _ List.mem_cons_self
  · decide +kernel

end ZCourier.Server
