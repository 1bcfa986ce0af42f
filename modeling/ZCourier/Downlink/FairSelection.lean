import Mathlib.Data.Finset.Card
import ZCourier.Downlink.Fairness
import ZCourier.Library.RoundRobin

/-!
# Retry selection is fair

The two loops of `fairRetrySelection` deal the candidates' indices into rounds and empty the
rounds up to the limit. What they choose is the round-robin selection by device
(`fair_retry_messages_eq`), and fair (`fair_retry_selection_is_fair`).
-/

namespace ZCourier.Downlink

open Go Library RoundRobin

/-! ## Emptying the rounds -/

theorem drain_round_eq {candidates selected : List Message} {limit : Nat} {round : List Nat}
    (h : selected.length < limit) :
    drainRound candidates limit selected round =
      (selected ++ round.filterMap fun index => candidates[index]?).take limit := by
  induction round generalizing selected with
  | nil => rw [List.filterMap_nil, List.append_nil, List.take_of_length_le h.le, drainRound]
  | cons index rest ih =>
    have hcons : selected ++ (index :: rest).filterMap (fun index => candidates[index]?) =
        selected ++ candidates[index]?.toList ++
          rest.filterMap fun index => candidates[index]? := by
      rw [List.filterMap_cons]
      cases candidates[index]? <;> simp
    have hlength : (selected ++ candidates[index]?.toList).length ≤ limit := by
      have hone : candidates[index]?.toList.length ≤ 1 := by cases candidates[index]? <;> simp
      rw [List.length_append]
      omega
    rw [hcons]
    simp only [drainRound]
    split
    case isTrue hfull => rw [List.take_left' hfull]
    case isFalse hroom => exact ih (by omega)

theorem drain_rounds_eq {candidates selected : List Message} {limit : Nat}
    {rounds : List (List Nat)} (h : selected.length < limit) :
    drainRounds candidates limit selected rounds =
      (selected ++ rounds.flatten.filterMap fun index => candidates[index]?).take limit := by
  induction rounds generalizing selected with
  | nil => simp [drainRounds, List.take_of_length_le h.le]
  | cons round rest ih =>
    simp only [drainRounds, List.flatten_cons, List.filterMap_append, ← List.append_assoc]
    rw [drain_round_eq h]
    split
    case isTrue hfull =>
      rw [List.length_take] at hfull
      have hle : limit ≤ (selected ++ round.filterMap fun index => candidates[index]?).length := by
        omega
      exact (List.take_append_of_le_length hle).symm
    case isFalse hroom =>
      rw [List.length_take] at hroom
      have hshort : (selected ++ round.filterMap fun index => candidates[index]?).length <
          limit := by omega
      rw [List.take_of_length_le hshort.le]
      exact ih hshort

/-! ## Dealing the candidates -/

theorem place_next {done rest : List Message} {message : Message} (h : message ∉ done) :
    place Message.device (done ++ message :: rest) message =
      (fibre Message.device done message.device).length := by
  have hfresh : message ∉ fibre Message.device done message.device :=
    fun hmem => h (mem_fibre.mp hmem).1
  have hhead : fibre Message.device (message :: rest) message.device =
      message :: fibre Message.device rest message.device := by simp [fibre]
  rw [place, fibre_append, hhead, List.idxOf_append_of_notMem hfresh, List.idxOf_cons_self,
    Nat.add_zero]

theorem length_fibre_snoc {done : List Message} {message : Message}
    {device : GoString × GoString} :
    (fibre Message.device (done ++ [message]) device).length =
      if device = message.device then (fibre Message.device done device).length + 1
      else (fibre Message.device done device).length := by
  rw [fibre_append, List.length_append]
  split
  case isTrue h => simp [fibre, h]
  case isFalse h => simp [fibre, Ne.symm h]

theorem bump_eq_fibre {done : List Message} {counts : DeviceCounts}
    (h : ∀ device, counts device = (fibre Message.device done device).length)
    (message : Message) (device : GoString × GoString) :
    counts.bump message.device device =
      (fibre Message.device (done ++ [message]) device).length := by
  rw [length_fibre_snoc, DeviceCounts.bump, ← h]
  split
  case isTrue heq => rw [heq]
  case isFalse => rfl

theorem getD_modify_snoc {rounds : List (List Nat)} {position index : Nat}
    (h : position < rounds.length) (k : Nat) :
    (rounds.modify position (· ++ [index])).getD k [] =
      rounds.getD k [] ++ if k = position then [index] else [] := by
  rw [List.getD_eq_getElem?_getD, List.getD_eq_getElem?_getD, List.getElem?_modify]
  by_cases hk : k = position
  · subst hk
    simp [List.getElem?_eq_getElem h]
  · simp [hk, Ne.symm hk]

theorem getD_pad {rounds : List (List Nat)} {n k : Nat} :
    (rounds ++ List.replicate n []).getD k [] = rounds.getD k [] := by
  rw [List.getD_eq_getElem?_getD, List.getD_eq_getElem?_getD, List.getElem?_append]
  split
  · rfl
  case isFalse h =>
    rw [List.getElem?_eq_none (Nat.le_of_not_lt h), List.getElem?_replicate]
    split <;> rfl

/-- What the dealing loop has done after the candidates `done`. -/
structure Dealt (candidates : List Message) (limit : Nat) (done : List Message)
    (positions : DeviceCounts) (rounds : List (List Nat)) : Prop where
  positions : ∀ device, positions device = (fibre Message.device done device).length
  length : rounds.length ≤ limit
  round : ∀ k, k < limit → (rounds.getD k []).filterMap (fun index => candidates[index]?) =
    done.filter fun message => place Message.device candidates message = k

theorem Dealt.skip {candidates done : List Message} {limit : Nat} {positions : DeviceCounts}
    {rounds : List (List Nat)} {message : Message}
    (h : Dealt candidates limit done positions rounds)
    (hplace : place Message.device candidates message = positions message.device)
    (hlate : limit ≤ positions message.device) :
    Dealt candidates limit (done ++ [message]) (positions.bump message.device) rounds := by
  refine ⟨bump_eq_fibre h.positions message, h.length, ?_⟩
  intro k hk
  have hne : place Message.device candidates message ≠ k := by omega
  rw [h.round k hk, List.filter_append, List.filter_cons_of_neg (by simpa using hne),
    List.filter_nil, List.append_nil]

theorem Dealt.deal {candidates done : List Message} {limit : Nat} {positions : DeviceCounts}
    {rounds : List (List Nat)} {message : Message}
    (h : Dealt candidates limit done positions rounds)
    (hplace : place Message.device candidates message = positions message.device)
    (hget : candidates[done.length]? = some message)
    (hearly : positions message.device < limit) :
    Dealt candidates limit (done ++ [message]) (positions.bump message.device)
      ((rounds ++ List.replicate (positions message.device + 1 - rounds.length) []).modify
        (positions message.device) (· ++ [done.length])) := by
  set padded := rounds ++ List.replicate (positions message.device + 1 - rounds.length) []
  have hpadded : positions message.device < padded.length ∧ padded.length ≤ limit := by
    have hle := h.length
    simp only [padded, List.length_append, List.length_replicate]
    omega
  refine ⟨bump_eq_fibre h.positions message, ?_, ?_⟩
  · rw [List.length_modify]
    exact hpadded.2
  · intro k hk
    rw [getD_modify_snoc hpadded.1, getD_pad, List.filterMap_append, h.round k hk,
      List.filter_append]
    by_cases hround : k = positions message.device
    · simp [hround, hplace, hget]
    · simp [hround, hplace, Ne.symm hround]

theorem deal_rounds_dealt {candidates done rest : List Message} {limit : Nat}
    {positions : DeviceCounts} {rounds : List (List Nat)} (hnodup : candidates.Nodup)
    (hsplit : candidates = done ++ rest) (h : Dealt candidates limit done positions rounds) :
    ∃ counted, Dealt candidates limit candidates counted
      (dealRounds limit positions rounds done.length rest) := by
  induction rest generalizing done positions rounds with
  | nil =>
    rw [List.append_nil] at hsplit
    exact ⟨positions, hsplit ▸ h⟩
  | cons message rest ih =>
    have hfresh : message ∉ done := fun hmem =>
      (List.nodup_append.mp (hsplit ▸ hnodup)).2.2 message hmem message (by simp) rfl
    have hplace : place Message.device candidates message = positions message.device := by
      rw [hsplit, place_next hfresh, h.positions]
    have hget : candidates[done.length]? = some message := by simp [hsplit]
    have hnext : candidates = done ++ [message] ++ rest := by simp [hsplit]
    have hlength : (done ++ [message]).length = done.length + 1 := by simp
    simp only [dealRounds]
    rw [← hlength]
    split
    case isTrue hlate => exact ih hnext (h.skip hplace hlate)
    case isFalse hearly => exact ih hnext (h.deal hplace hget (Nat.lt_of_not_le hearly))

theorem flatten_eq_flatMap_range {α : Type} {lists : List (List α)} {n : Nat}
    (h : lists.length ≤ n) : lists.flatten = (List.range n).flatMap fun k => lists.getD k [] := by
  induction lists generalizing n with
  | nil => simp
  | cons first rest ih =>
    cases n with
    | zero => simp at h
    | succ n =>
      rw [List.range_succ_eq_map, List.flatMap_cons, List.flatMap_map, List.flatten_cons,
        ih (by simpa using h)]
      simp

/-- The dealt rounds, read as messages, are the rounds of the round-robin order. -/
theorem Dealt.messages {candidates : List Message} {limit : Nat} {positions : DeviceCounts}
    {dealt : List (List Nat)} (h : Dealt candidates limit candidates positions dealt) :
    dealt.flatten.filterMap (fun index => candidates[index]?) =
      rounds Message.device candidates limit := by
  rw [flatten_eq_flatMap_range h.length, List.filterMap_flatMap, rounds]
  refine List.flatMap_congr fun k hk => ?_
  exact h.round k (List.mem_range.mp hk)

theorem fair_retry_messages_eq {candidates : List Message} {limit : Int}
    (hnodup : candidates.Nodup) (hlimit : 0 < limit) :
    fairRetryMessages candidates limit =
      roundRobin Message.device candidates limit.toNat := by
  have hpos : ¬ limit ≤ 0 := by omega
  have hempty : Dealt candidates limit.toNat [] (fun _ => 0) [] :=
    ⟨fun _ => rfl, Nat.zero_le _, fun k _ => by simp⟩
  obtain ⟨positions, hdealt⟩ := deal_rounds_dealt hnodup (List.nil_append _).symm hempty
  rw [fairRetryMessages, if_neg hpos, drain_rounds_eq (by rw [List.length_nil]; omega),
    List.nil_append]
  rw [← take_rounds hnodup, ← hdealt.messages]
  rfl

/-! ## The reported numbers -/

/-- What the counting loop knows after the messages `done`. -/
structure Counted (done : List Message) (counts : DeviceCounts) (devices maxPerDevice : Nat) :
    Prop where
  counts : ∀ device, counts device = (fibre Message.device done device).length
  devices : devices = (done.map Message.device).toFinset.card
  bound : ∀ device, (fibre Message.device done device).length ≤ maxPerDevice
  attained : ∃ device, (fibre Message.device done device).length = maxPerDevice

theorem length_fibre_eq_zero {done : List Message} {device : GoString × GoString} :
    (fibre Message.device done device).length = 0 ↔
      device ∉ (done.map Message.device).toFinset := by
  rw [List.length_eq_zero_iff, List.eq_nil_iff_forall_not_mem]
  simp only [mem_fibre, List.mem_toFinset, List.mem_map]
  constructor
  · rintro h ⟨message, hmem, hdevice⟩
    exact h message ⟨hmem, hdevice⟩
  · intro h message hmem
    exact h ⟨message, hmem⟩

theorem Counted.snoc {done : List Message} {counts : DeviceCounts} {devices maxPerDevice : Nat}
    (h : Counted done counts devices maxPerDevice) (message : Message) :
    Counted (done ++ [message]) (counts.bump message.device)
      (if counts message.device = 0 then devices + 1 else devices)
      (max maxPerDevice (counts.bump message.device message.device)) := by
  have hcounts := bump_eq_fibre h.counts message
  refine ⟨hcounts, ?_, fun device => ?_, ?_⟩
  · have hset : ((done ++ [message]).map Message.device).toFinset =
        insert message.device (done.map Message.device).toFinset := by
      ext device
      simp
    rw [hset, h.counts, h.devices]
    split
    case isTrue hnew => rw [Finset.card_insert_of_notMem (length_fibre_eq_zero.mp hnew)]
    case isFalse hold =>
      rw [Finset.insert_eq_of_mem (not_not.mp (length_fibre_eq_zero.not.mp hold))]
  · have hbound := h.bound device
    by_cases heq : device = message.device
    · rw [heq, ← hcounts]
      exact Nat.le_max_right _ _
    · rw [length_fibre_snoc, if_neg heq]
      exact hbound.trans (Nat.le_max_left _ _)
  · rcases Nat.le_total (counts.bump message.device message.device) maxPerDevice with hle | hle
    · -- the old maximum stands; its device is not the new message's unless both are equal
      obtain ⟨device, hdevice⟩ := h.attained
      rw [Nat.max_eq_left hle]
      refine ⟨device, ?_⟩
      rw [length_fibre_snoc]
      split
      case isTrue heq =>
        rw [DeviceCounts.bump, if_pos rfl, h.counts, ← heq] at hle
        omega
      case isFalse => exact hdevice
    · rw [Nat.max_eq_right hle]
      exact ⟨message.device, (hcounts _).symm⟩

theorem count_devices_counted {done rest : List Message} {counts : DeviceCounts}
    {devices maxPerDevice : Nat} (h : Counted done counts devices maxPerDevice) :
    ∃ counts', Counted (done ++ rest) counts'
      (countDevices counts devices maxPerDevice rest).1
      (countDevices counts devices maxPerDevice rest).2 := by
  induction rest generalizing done counts devices maxPerDevice with
  | nil => exact ⟨counts, by rwa [List.append_nil]⟩
  | cons message rest ih =>
    have hnext := ih (h.snoc message)
    rwa [List.append_assoc] at hnext

theorem retry_selection_counted (messages : List Message) (mode : RetrySelectionMode) :
    ∃ counts, Counted messages counts (retrySelectionFromMessages messages mode).deviceCount
      (retrySelectionFromMessages messages mode).maxPerDevice :=
  have hempty : Counted [] (fun _ => 0) 0 0 :=
    ⟨fun _ => rfl, rfl, fun _ => Nat.le_refl _, ([], []), rfl⟩
  count_devices_counted hempty

/-! ## Fairness -/

/-- A fair selection of at most `limit` candidates. The messages of a device are
`fibre Message.device _ device`, and `Before` compares the positions of two messages among
the messages of their devices and, within one round, in the input. -/
structure FairlySelected (candidates : List Message) (limit : Nat) (selection : RetrySelection) :
    Prop where
  length : selection.messages.length = min limit candidates.length
  distinct : (selection.messages.map Message.messageID).Nodup
  candidate : ∀ message ∈ selection.messages, message ∈ candidates
  front : ∀ device, fibre Message.device selection.messages device <+:
    fibre Message.device candidates device
  share : ∀ message ∈ candidates, message ∉ selection.messages → ∀ device,
    (fibre Message.device selection.messages device).length - 1 ≤
      (fibre Message.device selection.messages message.device).length
  ordered : selection.messages.Pairwise (Before Message.device candidates)
  deviceCount : selection.deviceCount = (selection.messages.map Message.device).toFinset.card
  maxBound : ∀ device,
    (fibre Message.device selection.messages device).length ≤ selection.maxPerDevice
  maxAttained : ∃ device,
    (fibre Message.device selection.messages device).length = selection.maxPerDevice

/-- Retry selection is fair: it takes as many candidates as the limit allows, each device's
first ones, no device falls behind another by more than one while it has messages left out,
rounds come in order, and the reported numbers are those of the result. -/
theorem fair_retry_selection_is_fair {candidates : List Message} {limit : Int}
    (hids : (candidates.map Message.messageID).Nodup) (hlimit : 0 < limit) :
    FairlySelected candidates limit.toNat (fairRetrySelection candidates limit) := by
  have hnodup : candidates.Nodup := hids.of_map _
  obtain ⟨counts, hcounted⟩ :=
    retry_selection_counted (fairRetryMessages candidates limit) .fair
  have hmessages : (fairRetrySelection candidates limit).messages =
      roundRobin Message.device candidates limit.toNat := fair_retry_messages_eq hnodup hlimit
  have hsorted : (roundRobin Message.device candidates limit.toNat).Pairwise
      (Before Message.device candidates) := round_robin_sorted hnodup _
  refine
    { length := ?_, distinct := ?_, candidate := ?_, front := ?_, share := ?_, ordered := ?_,
      deviceCount := hcounted.devices, maxBound := hcounted.bound,
      maxAttained := hcounted.attained }
  all_goals rw [hmessages]
  · exact length_round_robin hnodup _
  · refine List.Nodup.map_on ?_ (nodup_of_sorted hsorted)
    intro a ha b hb
    exact List.inj_on_of_nodup_map hids (round_robin_subset hnodup _ ha)
      (round_robin_subset hnodup _ hb)
  · exact fun message h => round_robin_subset hnodup _ h
  · exact fibre_round_robin_prefix hnodup _
  · intro message hmem hout device
    have hfair := round_robin_fair hnodup hmem hout device
    omega
  · exact hsorted

/-- A message `id` for a device of client `c`. -/
def messageFor (device id : String) : Message :=
  messageFromPushRequest ⟨ascii "c", ascii device, 7, ascii id, [], true, none⟩ (ascii id) second

/-- Two messages for one device and one for another. -/
def threeCandidates : List Message :=
  [messageFor "d" "m1", messageFor "d" "m2", messageFor "e" "m3"]

/-- Of three candidates, two can be taken: each device gets its first message. -/
theorem fair_retry_selection_is_fair_two_devices :
    FairlySelected threeCandidates 2 (fairRetrySelection threeCandidates 2) ∧
      (fairRetrySelection threeCandidates 2).messages =
        [messageFor "d" "m1", messageFor "e" "m3"] := by
  have hids : (threeCandidates.map Message.messageID).Nodup := by decide +kernel
  exact ⟨fair_retry_selection_is_fair hids (by decide : (0 : Int) < 2), by decide +kernel⟩

end ZCourier.Downlink
