import Mathlib.Data.List.Nodup
import ZCourier.Downlink.Message

/-!
# Fair retry selection

After `internal/downlink/fairness.go`: due messages are dealt into rounds, the k-th
message of every device in round k, and the rounds are emptied in order until the limit
is reached.
-/

namespace ZCourier.Downlink

open Go

/-- `RetryFairness`. -/
structure RetryFairness where
  enabled : Bool
  candidateMultiplier : Int
  deriving DecidableEq

/-- The largest `int`. -/
def maxInt : Int := 2 ^ 63 - 1

/-- `RetryFairness.CandidateLimit`. -/
def RetryFairness.candidateLimit (fairness : RetryFairness)
    (scanLimit maxPendingPerDevice : Int) : Int :=
  let scanLimit := if scanLimit ≤ 0 then 100 else scanLimit
  let multiplier := if fairness.candidateMultiplier ≤ 0 then 4 else fairness.candidateMultiplier
  let candidateLimit := if scanLimit ≤ maxInt / multiplier then scanLimit * multiplier else maxInt
  let candidateLimit :=
    if 0 < maxPendingPerDevice then
      let capacityWindow :=
        if maxPendingPerDevice ≤ maxInt - scanLimit then maxPendingPerDevice + scanLimit
        else maxInt
      if capacityWindow > candidateLimit then capacityWindow else candidateLimit
    else candidateLimit
  if candidateLimit < scanLimit then scanLimit else candidateLimit

/-- `retryDeviceKey`: the client and the device of a message. -/
def Message.device (message : Message) : GoString × GoString :=
  (message.clientID, message.deviceID)

/-- A Go map from devices to counters, zero where it has no entry. -/
abbrev DeviceCounts := GoString × GoString → Nat

def DeviceCounts.bump (counts : DeviceCounts) (device : GoString × GoString) : DeviceCounts :=
  fun other => if other = device then counts device + 1 else counts other

/-- The first loop of `fairRetrySelection`: deal candidate indices into rounds. -/
def dealRounds (limit : Nat) : DeviceCounts → List (List Nat) → Nat → List Message →
    List (List Nat)
  | _, rounds, _, [] => rounds
  | positions, rounds, index, message :: rest =>
    let position := positions message.device
    let positions := positions.bump message.device
    if limit ≤ position then dealRounds limit positions rounds (index + 1) rest
    else
      let rounds := rounds ++ List.replicate (position + 1 - rounds.length) []
      dealRounds limit positions (rounds.modify position (· ++ [index])) (index + 1) rest

/-- The inner part of the second loop: empty one round, stopping at the limit. -/
def drainRound (candidates : List Message) (limit : Nat) : List Message → List Nat → List Message
  | selected, [] => selected
  | selected, index :: rest =>
    let selected := selected ++ candidates[index]?.toList
    if selected.length = limit then selected
    else drainRound candidates limit selected rest

/-- The second loop of `fairRetrySelection`. -/
def drainRounds (candidates : List Message) (limit : Nat) :
    List Message → List (List Nat) → List Message
  | selected, [] => selected
  | selected, round :: rest =>
    let selected := drainRound candidates limit selected round
    if selected.length = limit then selected
    else drainRounds candidates limit selected rest

/-- The loop of `retrySelectionFromMessages`: the number of devices and the largest number of
messages of one device. -/
def countDevices : DeviceCounts → Nat → Nat → List Message → Nat × Nat
  | _, devices, maxPerDevice, [] => (devices, maxPerDevice)
  | counts, devices, maxPerDevice, message :: rest =>
    let devices := if counts message.device = 0 then devices + 1 else devices
    let counts := counts.bump message.device
    countDevices counts devices (max maxPerDevice (counts message.device)) rest

/-- `retrySelectionFromMessages`. -/
def retrySelectionFromMessages (messages : List Message) (mode : RetrySelectionMode) :
    RetrySelection :=
  let (devices, maxPerDevice) := countDevices (fun _ => 0) 0 0 messages
  ⟨messages, mode, devices, maxPerDevice⟩

/-- The messages `fairRetrySelection` chooses. -/
def fairRetryMessages (candidates : List Message) (limit : Int) : List Message :=
  let limit := (if limit ≤ 0 then 100 else limit).toNat
  drainRounds candidates limit [] (dealRounds limit (fun _ => 0) [] 0 candidates)

/-- `fairRetrySelection`. -/
def fairRetrySelection (candidates : List Message) (limit : Int) : RetrySelection :=
  retrySelectionFromMessages (fairRetryMessages candidates limit) .fair

/-- `normalizeRetrySelectionLimits`. -/
def normalizeRetrySelectionLimits (limit candidateLimit : Int) : Int × Int :=
  let limit := if limit ≤ 0 then 100 else limit
  (limit, if candidateLimit < limit then limit else candidateLimit)

/-! ## The selected messages -/

theorem drain_round_sublist {candidates selected : List Message} {limit : Nat}
    {round : List Nat} :
    (drainRound candidates limit selected round).Sublist
      (selected ++ round.filterMap fun index => candidates[index]?) := by
  induction round generalizing selected with
  | nil => simp [drainRound]
  | cons index rest ih =>
    have hcons : selected ++ (index :: rest).filterMap (fun index => candidates[index]?) =
        selected ++ candidates[index]?.toList ++
          rest.filterMap fun index => candidates[index]? := by
      rw [List.filterMap_cons]
      cases candidates[index]? <;> simp
    rw [hcons]
    simp only [drainRound]
    split
    · exact List.sublist_append_left _ _
    · exact ih

variable {rounds : List (List Nat)}

theorem drain_rounds_sublist {candidates selected : List Message} {limit : Nat} :
    (drainRounds candidates limit selected rounds).Sublist
      (selected ++ rounds.flatten.filterMap fun index => candidates[index]?) := by
  induction rounds generalizing selected with
  | nil => simp [drainRounds]
  | cons round rest ih =>
    simp only [drainRounds, List.flatten_cons, List.filterMap_append, ← List.append_assoc]
    split
    · exact drain_round_sublist.trans (List.sublist_append_left _ _)
    · exact ih.trans (drain_round_sublist.append (List.Sublist.refl _))

theorem flatten_modify_perm {position : Nat} (index : Nat) (h : position < rounds.length) :
    (rounds.modify position (· ++ [index])).flatten.Perm (index :: rounds.flatten) := by
  induction rounds generalizing position with
  | nil => simp at h
  | cons round rest ih =>
    cases position with
    | zero => simp
    | succ position =>
      rw [List.modify_succ_cons, List.flatten_cons, List.flatten_cons]
      have hrest := ih (Nat.lt_of_succ_lt_succ h)
      exact (hrest.append_left round).trans List.perm_middle

theorem deal_rounds_nodup {limit : Nat} {positions : DeviceCounts} {index : Nat}
    {messages : List Message} (hnodup : rounds.flatten.Nodup)
    (hlt : ∀ i ∈ rounds.flatten, i < index) :
    (dealRounds limit positions rounds index messages).flatten.Nodup := by
  induction messages generalizing positions rounds index with
  | nil => exact hnodup
  | cons message rest ih =>
    simp only [dealRounds]
    split
    · exact ih hnodup fun i hi => Nat.lt_succ_of_lt (hlt i hi)
    · have hflatten : (rounds ++ List.replicate (positions message.device + 1 - rounds.length)
          []).flatten = rounds.flatten := by simp
      have hlength : positions message.device < (rounds ++ List.replicate
          (positions message.device + 1 - rounds.length) []).length := by
        rw [List.length_append, List.length_replicate]
        omega
      have hperm := flatten_modify_perm index hlength
      rw [hflatten] at hperm
      refine ih (hperm.nodup_iff.mpr ?_) fun i hi => ?_
      · exact List.nodup_cons.mpr ⟨fun hmem => Nat.lt_irrefl _ (hlt index hmem), hnodup⟩
      · rcases List.mem_cons.mp (hperm.mem_iff.mp hi) with rfl | hi
        · exact Nat.lt_succ_self _
        · exact Nat.lt_succ_of_lt (hlt i hi)

theorem mem_fair_retry_messages {candidates : List Message} {limit : Int} {message : Message}
    (h : message ∈ fairRetryMessages candidates limit) : message ∈ candidates := by
  have hmem := drain_rounds_sublist.subset h
  rw [List.nil_append, List.mem_filterMap] at hmem
  obtain ⟨index, -, hindex⟩ := hmem
  exact List.mem_of_getElem? hindex

theorem fair_retry_messages_nodup {candidates : List Message} {limit : Int}
    (h : candidates.Nodup) : (fairRetryMessages candidates limit).Nodup := by
  refine drain_rounds_sublist.nodup ?_
  rw [List.nil_append]
  refine List.Nodup.filterMap ?_ (deal_rounds_nodup .nil (by simp))
  intro i j message hi hj
  have hbound := (List.getElem?_eq_some_iff.mp (Option.mem_def.mp hi)).1
  exact (List.getElem?_inj hbound h).mp ((Option.mem_def.mp hi).trans (Option.mem_def.mp hj).symm)

@[simp] theorem retry_selection_messages (messages : List Message) (mode : RetrySelectionMode) :
    (retrySelectionFromMessages messages mode).messages = messages := rfl

end ZCourier.Downlink
