import ZCourier.Library.Sorting
import ZCourier.Downlink.Cursor
import ZCourier.Downlink.System

/-!
# Listing messages page by page

The walk a client of the HTTP handler makes: it follows `NextCursor`, as text, while `HasMore` is
set. The cursor is trimmed, the ids are not. `listing_complete` says for which messages that makes
no difference, and in `listing_skips` it does.
-/

namespace ZCourier.Downlink

open Go Library

/-- Follow the cursors from page to page, for at most `fuel` pages. -/
def MemoryStore.walk [Base64] (s : MemoryStore) (env : StoreEnv) (status : MessageStatus)
    (limit : Int) : Nat → MessageListCursor → Option (List (List Message))
  | 0, _ => none
  | fuel + 1, cursor =>
    match s.listByStatusPage env ⟨status, limit, cursor⟩ with
    | .error _ => none
    | .ok page =>
      if page.hasMore then
        match parseMessageListCursor (formatMessageListCursor page.nextCursor) with
        | .error _ => none
        | .ok next => (walk s env status limit fuel next).map (page.messages :: ·)
      else some [page.messages]

/-! ## One page -/

theorem updated_desc_le_eq :
    updatedDescLe = byTime (fun message => -retentionTime message) Message.messageID := by
  funext left right
  simp only [updatedDescLe, byTime, Int.neg_inj, Int.neg_lt_neg_iff]

theorem after_list_cursor_iff (message : Message) (cursor : MessageListCursor) :
    messageAfterListCursor message cursor = true ↔
      messageListCursorIsZero (normalizeMessageListCursor cursor) = true ∨
        retentionTime message < (normalizeMessageListCursor cursor).updatedAt ∨
          retentionTime message = (normalizeMessageListCursor cursor).updatedAt ∧
            (normalizeMessageListCursor cursor).messageID < message.messageID := by
  rw [messageAfterListCursor]
  generalize normalizeMessageListCursor cursor = cursor
  split_ifs with hzero hless hmore
  · exact iff_of_true rfl (.inl hzero)
  · exact iff_of_true rfl (.inr (.inl hless))
  · refine iff_of_false id ?_
    rintro (h | h | ⟨h, -⟩)
    · exact hzero h
    · omega
    · omega
  · have heq : retentionTime message = cursor.updatedAt := by omega
    simp [hzero, heq]

theorem after_cursor_iff {message other : Message} (htime : InUnixRange (retentionTime message))
    (hid : trimSpace message.messageID ≠ []) :
    messageAfterListCursor other (messageListCursorFromMessage message) = true ↔
      retentionTime other < retentionTime message ∨
        retentionTime other = retentionTime message ∧
          trimSpace message.messageID < other.messageID := by
  rw [after_list_cursor_iff, cursor_eq htime hid, normalize_cursor htime hid,
    cursor_not_zero htime hid]
  simp

theorem not_updated_desc_le_iff {left right : Message} :
    (!updatedDescLe left right) = true ↔ retentionTime left < retentionTime right ∨
      retentionTime left = retentionTime right ∧ right.messageID < left.messageID := by
  rw [updatedDescLe]
  split_ifs with htime
  · simp [htime]
  · simp only [Bool.not_eq_true', decide_eq_false_iff_not]
    omega

/-- All messages of a status in the order of the listing. -/
def MemoryStore.ofStatus (s : MemoryStore) (status : MessageStatus) : List Message :=
  (s.messages.rows.filter fun message => message.status = status).mergeSort updatedDescLe

section Page

variable {s : MemoryStore} {env : StoreEnv} {status : MessageStatus}
  {cursor : MessageListCursor} {rest : List Message}

theorem message_list_limit_pos (limit : Int) : 0 < messageListLimit limit := by
  simp only [messageListLimit]
  split <;> split <;> omega

theorem MemoryStore.ids_of_status (s : MemoryStore) (status : MessageStatus) :
    ((s.messages.rows.filter fun message => message.status = status).map
      Message.messageID).Nodup :=
  s.messages.nodup.sublist (List.filter_sublist.map _)

theorem list_page_eq (henv : env.ctxErr = none)
    (hcursor : normalizeMessageListCursor cursor = cursor)
    (hrest : (s.ofStatus status).filter (fun message => messageAfterListCursor message cursor) =
      rest) (limit : Int) :
    ∃ page, s.listByStatusPage env ⟨status, limit, cursor⟩ = .ok page ∧
      page.messages = rest.take (messageListLimit limit).toNat ∧
      page.hasMore = decide (messageListLimit limit < rest.length) ∧
      page.nextCursor =
        nextCursorAfter (rest.take (messageListLimit limit).toNat) page.hasMore := by
  have hpos := message_list_limit_pos limit
  have hsorted : ((s.messages.rows.filter fun message => message.status = status).filter
      fun message => messageAfterListCursor message cursor).mergeSort updatedDescLe = rest := by
    rw [← hrest, MemoryStore.ofStatus, updated_desc_le_eq]
    exact merge_sort_filter (s.ids_of_status status) _
  have hfound : limitMessagesByUpdatedDesc
      ((s.messages.rows.filter fun message => message.status = status).filter
        fun message => messageAfterListCursor message cursor) (messageListLimit limit + 1) =
          rest.take (messageListLimit limit + 1).toNat := by
    simp only [limitMessagesByUpdatedDesc, hsorted]
    exact if_pos (by omega)
  have hmore : messageListLimit limit <
    ((rest.take (messageListLimit limit + 1).toNat).length : Int)
      ↔ messageListLimit limit < rest.length := by
    rw [List.length_take]
    omega
  have hmessages : (if messageListLimit limit <
      ((rest.take (messageListLimit limit + 1).toNat).length : Int) then
        (rest.take (messageListLimit limit + 1).toNat).take (messageListLimit limit).toNat
      else rest.take (messageListLimit limit + 1).toNat) =
        rest.take (messageListLimit limit).toNat := by
    split
    case isTrue =>
      rw [List.take_take]
      congr 1
      omega
    case isFalse hfew =>
      rw [hmore] at hfew
      rw [List.take_of_length_le (by omega), List.take_of_length_le (by omega)]
  have hpage : s.listByStatusPage env ⟨status, limit, cursor⟩ = .ok {
      status := status
      limit := messageListLimit limit
      cursor := cursor
      nextCursor := nextCursorAfter (rest.take (messageListLimit limit).toNat)
        (messageListLimit limit < (rest.take (messageListLimit limit + 1).toNat).length)
      hasMore := messageListLimit limit < (rest.take (messageListLimit limit + 1).toNat).length
      total := (s.messages.rows.filter fun message => message.status = status).length
      messages := rest.take (messageListLimit limit).toNat } := by
    simp only [MemoryStore.listByStatusPage, henv, normalizeMessageListQuery, hcursor, hfound,
      hmessages]
  exact ⟨_, hpage, rfl, decide_eq_decide.mpr hmore, rfl⟩

end Page

/-! ## The walk -/

section Walk

variable [Base64] {s : MemoryStore} {env : StoreEnv} {status : MessageStatus}

/-- A message that ends a page of a listing, though not the last page. -/
def EndsPage (limit : Int) (listed : List Message) (message : Message) : Prop :=
  ∃ front back, listed = front ++ message :: back ∧ back ≠ [] ∧
    (messageListLimit limit).toNat ∣ front.length + 1

/-- Trimming the id of a message leaves something of it, and puts it on the other side of no id of a
message with the same time. -/
def Message.TrimmedInPlace (listed : List Message) (message : Message) : Prop :=
  trimSpace message.messageID ≠ [] ∧
    ∀ other ∈ listed, retentionTime other = retentionTime message →
      (trimSpace message.messageID < other.messageID ↔ message.messageID < other.messageID)

omit [Base64] in
theorem of_status_sorted (s : MemoryStore) (status : MessageStatus) :
    (s.ofStatus status).Pairwise (fun a b => updatedDescLe a b = true) ∧
      ((s.ofStatus status).map Message.messageID).Nodup := by
  constructor
  · rw [MemoryStore.ofStatus, updated_desc_le_eq]
    exact pairwise_by_time _
  · exact ((List.mergeSort_perm _ _).map _).nodup_iff.mpr (s.ids_of_status status)

omit [Base64] in
/-- The first page of a listing ends with a message, and the others are pages of what is behind. -/
theorem ends_page_iff {limit : Int} {page back : List Message} {message other : Message}
    (hpage : page.length + 1 = (messageListLimit limit).toNat) (hback : back ≠ []) :
    EndsPage limit (page ++ message :: back) other ↔
      other = message ∨ EndsPage limit back other := by
  constructor
  · rintro ⟨front, behind, heq, hbehind, hends⟩
    rw [← hpage] at hends
    rcases List.append_eq_append_iff.mp heq with ⟨more, rfl, hmore⟩ | ⟨more, rfl, hmore⟩
    · rcases List.cons_eq_append_iff.mp hmore with ⟨-, hsame⟩ | ⟨more, rfl, rfl⟩
      · exact .inl (List.cons.inj hsame).1
      · refine .inr ⟨more, behind, rfl, hbehind, hpage ▸ (Nat.dvd_add_right (Nat.dvd_refl _)).mp ?_⟩
        refine hends.trans (dvd_of_eq ?_)
        simp only [List.length_append, List.length_cons]
        omega
    · -- a page that ends earlier would be shorter than the limit
      have hle := Nat.le_of_dvd (Nat.succ_pos _) hends
      rw [List.length_append] at hle
      obtain rfl := List.length_eq_zero_iff.mp (show more.length = 0 by omega)
      exact .inl (List.cons.inj hmore).1
  · rintro (rfl | ⟨front, behind, rfl, hbehind, hends⟩)
    · exact ⟨page, back, rfl, hback, hpage ▸ Nat.dvd_refl _⟩
    · refine ⟨page ++ message :: front, behind, by simp, hbehind, ?_⟩
      refine (Nat.dvd_add (Nat.dvd_refl _) hends).trans (dvd_of_eq ?_)
      simp only [← hpage, List.length_append, List.length_cons]
      omega

omit [Base64] in
/-- The cursor of a message comes before exactly the messages behind it. -/
theorem after_cursor_behind_iff {front back : List Message} {message : Message}
    (hlisted : s.ofStatus status = front ++ message :: back)
    (htime : InUnixRange (retentionTime message)) :
    (s.ofStatus status).filter (fun other =>
        messageAfterListCursor other (messageListCursorFromMessage message)) = back ↔
      message.TrimmedInPlace (s.ofStatus status) := by
  obtain ⟨hsorted, hids⟩ := of_status_sorted s status
  have hbehind : (s.ofStatus status).filter (fun other => !updatedDescLe other message) = back := by
    rw [hlisted, updated_desc_le_eq] at *
    exact filter_behind hids hsorted
  constructor
  · intro hafter
    have hid : trimSpace message.messageID ≠ [] := by
      intro hblank
      have hall : (s.ofStatus status).filter
          (fun other => messageAfterListCursor other .zero) = s.ofStatus status :=
        List.filter_eq_self.mpr fun _ _ => rfl
      rw [cursor_blank hblank, hall, hlisted] at hafter
      have hlength := congrArg List.length hafter
      rw [List.length_append, List.length_cons] at hlength
      omega
    refine ⟨hid, fun other hother hsame => ?_⟩
    have hmem : messageAfterListCursor other (messageListCursorFromMessage message) = true ↔
        (!updatedDescLe other message) = true := by
      have hboth := hafter.trans hbehind.symm
      constructor
      · intro h
        have := hboth ▸ List.mem_filter.mpr ⟨hother, h⟩
        exact (List.mem_filter.mp this).2
      · intro h
        have := hboth.symm ▸ List.mem_filter.mpr ⟨hother, h⟩
        exact (List.mem_filter.mp this).2
    rw [after_cursor_iff htime hid, not_updated_desc_le_iff] at hmem
    simpa [hsame] using hmem
  · rintro ⟨hid, hplace⟩
    rw [← hbehind]
    refine List.filter_congr fun other hother => Bool.eq_iff_iff.mpr ?_
    rw [after_cursor_iff htime hid, not_updated_desc_le_iff]
    exact or_congr_right (and_congr_right fun hsame => hplace other hother hsame)

omit [Base64] in
theorem after_cursor_suffix (s : MemoryStore) (status : MessageStatus)
    (cursor : MessageListCursor) :
    ∃ n, (s.ofStatus status).filter (fun message => messageAfterListCursor message cursor) =
      (s.ofStatus status).drop n := by
  refine filter_eq_drop ((of_status_sorted s status).1.imp fun {left right} hle hafter => ?_)
  rw [after_list_cursor_iff] at hafter ⊢
  rw [updatedDescLe] at hle
  rcases hafter with hzero | hless | ⟨hsame, hid⟩
  · exact .inl hzero
  · split at hle <;> simp only [decide_eq_true_iff] at hle <;> exact .inr (.inl (by omega))
  · split at hle
    · next htime =>
      refine .inr (.inr ⟨by omega, List.not_le.mp fun hge => ?_⟩)
      exact List.not_le.mpr hid (List.le_trans (of_decide_eq_true hle) hge)
    · rw [decide_eq_true_iff] at hle
      exact .inr (.inl (by omega))

/-- The first page of a walk. -/
theorem walk_first (henv : env.ctxErr = none) {cursor : MessageListCursor} {rest : List Message}
    (hcursor : normalizeMessageListCursor cursor = cursor)
    (hrest : (s.ofStatus status).filter (fun message => messageAfterListCursor message cursor) =
      rest) {limit : Int} {fuel : Nat} {pages : List (List Message)}
    (hwalk : s.walk env status limit fuel cursor = some pages) :
    pages.flatten.head? = rest.head? := by
  have hpos := message_list_limit_pos limit
  obtain ⟨page, hpage, hmessages, hmore, -⟩ := list_page_eq henv hcursor hrest limit
  have hhead : page.messages.head? = rest.head? := by
    rw [hmessages, List.head?_take, if_neg (by omega)]
  cases fuel with
  | zero => cases hwalk
  | succ fuel =>
    simp only [MemoryStore.walk, hpage] at hwalk
    split at hwalk
    · next hhas =>
      have hne : page.messages ≠ [] := by
        rw [hhas, eq_comm, decide_eq_true_iff] at hmore
        intro hnil
        rw [hmessages, List.take_eq_nil_iff] at hnil
        rcases hnil with hnil | rfl
        · omega
        · simp only [List.length_nil] at hmore
          omega
      split at hwalk
      · cases hwalk
      · obtain ⟨later, -, rfl⟩ := Option.map_eq_some_iff.mp hwalk
        rw [List.flatten_cons, List.head?_append_of_ne_nil _ hne, hhead]
    · obtain rfl := Option.some.inj hwalk
      rw [List.flatten_singleton, hhead]

omit [Base64] in
theorem first_page {limit : Int} {rest : List Message} (h : messageListLimit limit < rest.length) :
    ∃ page message back, rest = page ++ message :: back ∧
      page.length + 1 = (messageListLimit limit).toNat ∧ back ≠ [] := by
  have hpos := message_list_limit_pos limit
  obtain ⟨count, hcount⟩ : ∃ count, (messageListLimit limit).toNat = count + 1 :=
    ⟨(messageListLimit limit).toNat - 1, by omega⟩
  have hlt : count < rest.length := by omega
  refine ⟨rest.take count, rest[count], rest.drop (count + 1), ?_, ?_, ?_⟩
  · rw [← List.drop_eq_getElem_cons hlt, List.take_append_drop]
  · rw [hcount, List.length_take, Nat.min_eq_left (by omega)]
  · exact fun hnil => absurd (List.drop_eq_nil_iff.mp hnil) (by omega)

/-- A page that is not the last is followed by the walk from the cursor of its last message. -/
theorem walk_page (henv : env.ctxErr = none) {cursor : MessageListCursor} {page back : List Message}
    {message : Message} (hcursor : normalizeMessageListCursor cursor = cursor)
    (hrest : (s.ofStatus status).filter (fun message => messageAfterListCursor message cursor) =
      page ++ message :: back) {limit : Int}
    (hpage : page.length + 1 = (messageListLimit limit).toNat) (hback : back ≠ [])
    (htime : InUnixRange (retentionTime message)) (fuel : Nat) :
    s.walk env status limit (fuel + 1) cursor =
      (s.walk env status limit fuel (messageListCursorFromMessage message)).map
        ((page ++ [message]) :: ·) := by
  obtain ⟨found, hfound, hmessages, hmore, hnext⟩ := list_page_eq henv hcursor hrest limit
  have hback := List.length_pos_of_ne_nil hback
  have htake : (page ++ message :: back).take (messageListLimit limit).toNat =
      page ++ [message] := by
    rw [← hpage, List.append_cons]
    exact List.take_left' (by simp)
  rw [htake] at hmessages hnext
  have hmore' : found.hasMore = true := by
    rw [hmore, decide_eq_true_iff, List.length_append, List.length_cons]
    omega
  have hcursor' : found.nextCursor = messageListCursorFromMessage message := by
    rw [hnext, hmore', nextCursorAfter, List.getLast?_concat]
    rfl
  simp only [MemoryStore.walk, hfound, hmore', if_true, hcursor', parse_format_cursor htime,
    hmessages]

/-- A walk from the cursor of a message that lists what is behind the message goes on with the next
one only if the message is trimmed in place. -/
theorem trimmed_of_walk (henv : env.ctxErr = none) {front back : List Message} {message : Message}
    (hlisted : s.ofStatus status = front ++ message :: back) (hback : back ≠ [])
    (htime : InUnixRange (retentionTime message)) {limit : Int} {fuel : Nat}
    {pages : List (List Message)}
    (hwalk : s.walk env status limit fuel (messageListCursorFromMessage message) = some pages)
    (hflat : pages.flatten = back) : message.TrimmedInPlace (s.ofStatus status) := by
  have hcursor := normalize_cursor_of_message htime
  obtain ⟨position, hposition⟩ :=
    after_cursor_suffix s status (messageListCursorFromMessage message)
  have hhead := walk_first henv hcursor hposition hwalk
  have hdrop : back = (s.ofStatus status).drop (front.length + 1) := by
    rw [hlisted, List.append_cons]
    exact (List.drop_left' (by simp)).symm
  have hlong : front.length + 1 < (s.ofStatus status).length := by
    have := List.length_pos_of_ne_nil hback
    rw [hlisted, List.length_append, List.length_cons]
    omega
  -- no message is listed twice, so the walk goes on at one place only
  rw [hflat, hdrop, List.head?_drop, List.head?_drop] at hhead
  rw [← (List.getElem?_inj hlong (of_status_sorted s status).2.of_map).mp hhead, ← hdrop]
    at hposition
  exact (after_cursor_behind_iff hlisted htime).mp hposition

/-- The walk from a cursor lists what comes after it exactly if the messages that end its pages are
trimmed in place. By induction on what remains: a page that is not the last takes at least one
message. -/
theorem walk_lists_iff (henv : env.ctxErr = none)
    (htimes : ∀ message ∈ s.ofStatus status, InUnixRange (retentionTime message))
    {front rest : List Message} (hsplit : s.ofStatus status = front ++ rest)
    {cursor : MessageListCursor} (hcursor : normalizeMessageListCursor cursor = cursor)
    (hrest : (s.ofStatus status).filter (fun message => messageAfterListCursor message cursor) =
      rest) (limit : Int) :
    (∃ fuel pages, s.walk env status limit fuel cursor = some pages ∧ pages.flatten = rest) ↔
      ∀ message, EndsPage limit rest message → message.TrimmedInPlace (s.ofStatus status) := by
  induction hlength : rest.length using Nat.strong_induction_on generalizing front rest cursor with
  | _ n ih =>
    have hpos := message_list_limit_pos limit
    by_cases hlast : messageListLimit limit < rest.length
    · obtain ⟨page, message, back, rfl, hpage, hback⟩ := first_page hlast
      have hlisted : s.ofStatus status = (front ++ page) ++ message :: back := by
        rw [hsplit, List.append_assoc]
      have htime := htimes message (by rw [hlisted]; simp)
      have hstep := walk_page henv hcursor hrest hpage hback htime
      have hends : (∀ other, EndsPage limit (page ++ message :: back) other →
          other.TrimmedInPlace (s.ofStatus status)) ↔
          message.TrimmedInPlace (s.ofStatus status) ∧ ∀ other, EndsPage limit back other →
            other.TrimmedInPlace (s.ofStatus status) := by
        simp only [ends_page_iff hpage hback, or_imp, forall_and, forall_eq]
      have hwalks : (∃ fuel pages, s.walk env status limit fuel cursor = some pages ∧
          pages.flatten = page ++ message :: back) ↔
          ∃ fuel pages, s.walk env status limit fuel (messageListCursorFromMessage message) =
            some pages ∧ pages.flatten = back := by
        constructor
        · rintro ⟨_ | fuel, pages, hwalk, hflat⟩
          · cases hwalk
          · rw [hstep] at hwalk
            obtain ⟨later, hlater, rfl⟩ := Option.map_eq_some_iff.mp hwalk
            refine ⟨fuel, later, hlater, ?_⟩
            rw [List.flatten_cons, List.append_cons page message back] at hflat
            exact List.append_cancel_left hflat
        · rintro ⟨fuel, pages, hwalk, hflat⟩
          exact ⟨fuel + 1, (page ++ [message]) :: pages, by rw [hstep, hwalk]; rfl, by simp [hflat]⟩
      have hsplit' : s.ofStatus status = (front ++ page ++ [message]) ++ back := by
        rw [hlisted, List.append_cons]
      have hih : message.TrimmedInPlace (s.ofStatus status) → _ := fun htrimmed =>
        ih back.length (by rw [← hlength]; simp; omega) hsplit' (normalize_cursor_of_message htime)
          ((after_cursor_behind_iff hlisted htime).mpr htrimmed) rfl
      rw [hwalks, hends]
      constructor
      · rintro ⟨fuel, pages, hwalk, hflat⟩
        have htrimmed := trimmed_of_walk henv hlisted hback htime hwalk hflat
        exact ⟨htrimmed, (hih htrimmed).mp ⟨fuel, pages, hwalk, hflat⟩⟩
      · rintro ⟨htrimmed, hall⟩
        exact (hih htrimmed).mpr hall
    · obtain ⟨page, hpage, hmessages, hmore, -⟩ := list_page_eq henv hcursor hrest limit
      rw [decide_eq_false hlast] at hmore
      refine iff_of_true ⟨1, [page.messages], ?_, ?_⟩ ?_
      · simp only [MemoryStore.walk, hpage, hmore, Bool.false_eq_true, if_false]
      · rw [hmessages, List.take_of_length_le (by omega)]
        simp
      · rintro message ⟨front, back, rfl, hback, hdvd⟩
        have hle := Nat.le_of_dvd (Nat.succ_pos _) hdvd
        have hback := List.length_pos_of_ne_nil hback
        simp only [List.length_append, List.length_cons] at hlast
        omega

/-- Listing by status is complete exactly if trimming leaves the ids of the messages that end its
pages in place: then, and only then, the walk from the zero cursor ends after finitely many pages,
which together hold each message of the status once, ordered by retention time descending and then
by id. Times are between 1970 and 2262. -/
theorem listing_complete (henv : env.ctxErr = none)
    (htimes : ∀ message ∈ s.messages.rows, message.status = status →
      InUnixRange (retentionTime message)) (limit : Int) :
    (∃ fuel pages, s.walk env status limit fuel .zero = some pages ∧
      pages.flatten.Perm (s.messages.rows.filter fun message => message.status = status) ∧
      pages.flatten.Pairwise fun left right =>
        retentionTime right < retentionTime left ∨
          retentionTime left = retentionTime right ∧ left.messageID < right.messageID) ↔
    ∀ message, EndsPage limit (s.ofStatus status) message →
      message.TrimmedInPlace (s.ofStatus status) := by
  have hperm : (s.ofStatus status).Perm
      (s.messages.rows.filter fun message => message.status = status) :=
    List.mergeSort_perm _ _
  have htimes' : ∀ message ∈ s.ofStatus status, InUnixRange (retentionTime message) := by
    intro message hmem
    have hmem' := List.mem_filter.mp (hperm.mem_iff.mp hmem)
    exact htimes message hmem'.1 (by simpa using hmem'.2)
  have hall : (s.ofStatus status).filter
      (fun message => messageAfterListCursor message .zero) = s.ofStatus status :=
    List.filter_eq_self.mpr fun _ _ => rfl
  rw [← walk_lists_iff henv htimes' (List.nil_append _).symm rfl hall limit]
  refine exists_congr fun fuel => exists_congr fun pages => and_congr_right fun _ => ?_
  constructor
  · rintro ⟨hsame, hordered⟩
    rw [MemoryStore.ofStatus, updated_desc_le_eq]
    refine (merge_sort_eq_of_sorted (s.ids_of_status status) hsame.symm ?_).symm
    rw [← updated_desc_le_eq]
    refine hordered.imp fun {left right} h => ?_
    rw [updatedDescLe]
    rcases h with hlater | ⟨hsame, hid⟩
    · rw [if_neg (by omega)]
      exact decide_eq_true hlater
    · rw [if_pos hsame]
      exact decide_eq_true (List.le_of_lt hid)
  · intro hflat
    rw [hflat]
    refine ⟨hperm, ?_⟩
    obtain ⟨hsorted, hids⟩ := of_status_sorted s status
    refine (hsorted.and (List.pairwise_map.mp hids)).imp ?_
    intro left right ⟨hle, hne⟩
    unfold updatedDescLe at hle
    split at hle
    case isTrue htime =>
      refine .inr ⟨htime, ?_⟩
      have hid : left.messageID ≤ right.messageID := by simpa using hle
      by_contra hlt
      exact hne (List.le_antisymm hid (List.not_lt.mp hlt))
    case isFalse => exact .inl (by simpa using hle)

end Walk

/-! ## Two pushes -/

/-- One second after the beginning of 1970. -/
def secondOf1970 : Int := unixEpoch + second

/-- Two pushes with the given message ids to a device that is offline. -/
def pushTwo (first second : GoString) : List (Choice Started Surroundings) :=
  List.flatten [
    .start ⟨newService, .push { requestM with messageID := first }⟩ ::
      Choice.turns 0 5 (offline secondOf1970),
    .start ⟨newService, .push { requestM with messageID := second }⟩ ::
      Choice.turns 1 5 (offline secondOf1970)]

def storeAfterTwo (first second : GoString) : MemoryStore :=
  (((@courier Sha256.polynomial).replay (Courier.initial secondOf1970)
    (pushTwo first second)).map fun after : Courier => after.state.store).getD .new

/-- Nothing is cancelled. -/
def quietEnv : StoreEnv := ⟨none, secondOf1970, []⟩

/-- Pages of one message each list both of two pushed messages. -/
theorem listing_complete_two_pushes :
    ∃ fuel pages, @MemoryStore.walk Base64.letters (storeAfterTwo (ascii "m") (ascii "n")) quietEnv
        .pending 1 fuel .zero = some pages ∧
      pages.flatten.Perm ((storeAfterTwo (ascii "m") (ascii "n")).messages.rows.filter
        fun message => message.status = .pending) := by
  have htimes : ∀ message ∈ (storeAfterTwo (ascii "m") (ascii "n")).messages.rows,
      message.status = .pending → InUnixRange (retentionTime message) := by decide +kernel
  have hids : ∀ message ∈ (storeAfterTwo (ascii "m") (ascii "n")).messages.rows,
      trimSpace message.messageID = message.messageID ∧ message.messageID ≠ [] := by decide +kernel
  obtain ⟨fuel, pages, hwalk, hperm, -⟩ :=
    (@listing_complete Base64.letters _ quietEnv _ rfl htimes 1).mpr (by
      rintro message ⟨front, back, hlisted, -, -⟩
      have hmem : message ∈ (storeAfterTwo (ascii "m") (ascii "n")).ofStatus .pending := by
        rw [hlisted]
        simp
      obtain ⟨htrim, hne⟩ := hids message (List.mem_filter.mp (List.mem_mergeSort.mp hmem)).1
      exact ⟨by rwa [htrim], fun _ _ _ => by rw [htrim]⟩)
  exact ⟨fuel, pages, hwalk, hperm⟩

/-- The store after pushes of `" a"` and `"M"`. -/
def spacedStore : MemoryStore := storeAfterTwo (ascii " a") (ascii "M")

theorem walk_spaced :
    @MemoryStore.walk Base64.letters spacedStore quietEnv .pending 1 2 .zero =
      some [spacedStore.messages.rows.drop 1, []] := by
  have hsorted : spacedStore.ofStatus .pending = spacedStore.messages.rows.reverse := by
    rw [MemoryStore.ofStatus, updated_desc_le_eq]
    exact merge_sort_eq_of_sorted (spacedStore.ids_of_status _) (by decide +kernel)
      (by decide +kernel)
  have hfirst : (spacedStore.ofStatus .pending).filter
      (fun message => messageAfterListCursor message .zero) =
        spacedStore.messages.rows.reverse := by
    rw [hsorted]
    decide +kernel
  have hsecond : (spacedStore.ofStatus .pending).filter
      (fun message => messageAfterListCursor message ⟨secondOf1970, ascii "a"⟩) = [] := by
    rw [hsorted]
    decide +kernel
  have henv : quietEnv.ctxErr = none := rfl
  have hcursor : normalizeMessageListCursor ⟨secondOf1970, ascii "a"⟩ =
      ⟨secondOf1970, ascii "a"⟩ := by decide +kernel
  obtain ⟨page, hpage, hmessages, hmore, hnext⟩ := list_page_eq henv rfl hfirst 1
  obtain ⟨page', hpage', hmessages', hmore', -⟩ := list_page_eq henv hcursor hsecond 1
  have hhas : page.hasMore = true := hmore.trans (by decide +kernel)
  have hend : page'.hasMore = false := hmore'.trans (by decide +kernel)
  have hnext' : page.nextCursor = ⟨secondOf1970, ascii "a"⟩ := by
    rw [hnext, hhas]
    decide +kernel
  have hparse : @parseMessageListCursor Base64.letters
      (@formatMessageListCursor Base64.letters ⟨secondOf1970, ascii "a"⟩) =
        .ok ⟨secondOf1970, ascii "a"⟩ := by decide +kernel
  have htake : spacedStore.messages.rows.reverse.take (messageListLimit 1).toNat =
      spacedStore.messages.rows.drop 1 := by decide +kernel
  simp only [MemoryStore.walk, hpage, hpage', hhas, hend, hnext', hparse, hmessages, hmessages',
    htake, if_true, Bool.false_eq_true, if_false, Option.map_some, List.take_nil]

/-- The ids `" a"` and `"M"` are pushed and both messages are pending; the walk with pages of one
message ends without `"M"`. -/
theorem listing_skips :
    ∃ (history : List CourierStep) (after : Courier) (message : Message),
      Run (@courier Sha256.polynomial) Sequential (Courier.initial secondOf1970) history after ∧
      after.Quiet ∧
      after.state.store.messages.get? (ascii "M") = some message ∧ message.status = .pending ∧
      ∃ pages, @MemoryStore.walk Base64.letters after.state.store quietEnv .pending 1 2 .zero =
        some pages ∧ message ∉ pages.flatten := by
  have hreplay : ((@courier Sha256.polynomial).replayIf sequentialCheck
      (Courier.initial secondOf1970) (pushTwo (ascii " a") (ascii "M"))).map
        (fun after : Courier => decide (after.state.store = spacedStore ∧
          ∀ thread ∈ after.threads, thread.prog.result?.isSome)) = some true := by
    decide +kernel
  obtain ⟨after, hafter, hchecked⟩ := Option.map_eq_some_iff.mp hreplay
  obtain ⟨hstore, hquiet⟩ := of_decide_eq_true hchecked
  obtain ⟨history, hrun⟩ := System.replayIf_run sequential_of_check hafter
  have hmissing : ((spacedStore.messages.get? (ascii "M")).map fun message =>
      decide (message.status = .pending ∧
        message ∉ [spacedStore.messages.rows.drop 1, []].flatten)) = some true := by
    decide +kernel
  obtain ⟨message, hget, hfound⟩ := Option.map_eq_some_iff.mp hmissing
  obtain ⟨hstatus, hnotin⟩ := of_decide_eq_true hfound
  rw [← hstore] at hget
  refine ⟨history, after, message, hrun, hquiet, hget, hstatus, _, ?_, hnotin⟩
  rw [hstore]
  exact walk_spaced

end ZCourier.Downlink
