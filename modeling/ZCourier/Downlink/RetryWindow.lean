import ZCourier.Downlink.FairSelection
import ZCourier.Downlink.StoreStep

/-!
# The candidate window of a retry scan

`CandidateLimit` on 64-bit integers computes what it would on unbounded ones, and the
window it gives is longer than a full device queue. The first round of the fair selection
therefore reaches a second device whenever one has a due message
(`full_queue_hides_no_device`).
-/

namespace ZCourier.Downlink

open Go Library RoundRobin

/-- `RetryFairness.CandidateLimit` on Go's `int`: every operation wraps. -/
def candidateLimit64 (candidateMultiplier scanLimit maxPendingPerDevice : Int64) : Int64 :=
  let scanLimit := if scanLimit ≤ 0 then 100 else scanLimit
  let multiplier := if candidateMultiplier ≤ 0 then 4 else candidateMultiplier
  let maxInt := Int64.maxValue
  let candidateLimit := if scanLimit ≤ maxInt / multiplier then scanLimit * multiplier else maxInt
  let candidateLimit :=
    if maxPendingPerDevice > 0 then
      let capacityWindow :=
        if maxPendingPerDevice ≤ maxInt - scanLimit then maxPendingPerDevice + scanLimit
        else maxInt
      if capacityWindow > candidateLimit then capacityWindow else candidateLimit
    else candidateLimit
  if candidateLimit < scanLimit then scanLimit else candidateLimit

/-! ## The arithmetic -/

theorem toInt_maxValue : Int64.maxValue.toInt = maxInt := rfl

theorem toInt_le_maxInt (n : Int64) : n.toInt ≤ maxInt := by
  have hlt := n.toInt_lt
  unfold maxInt
  omega

theorem bmod_of_fits {n : Int} (hpos : 0 ≤ n) (hle : n ≤ maxInt) : n.bmod (2 ^ 64) = n := by
  unfold maxInt at hle
  exact Int.bmod_eq_of_le (by omega) (by omega)

theorem toInt_maxValue_div (multiplier : Int64) :
    (Int64.maxValue / multiplier).toInt = maxInt / multiplier.toInt := by
  rw [Int64.toInt_div_of_ne_left _ _ (by decide), toInt_maxValue,
    Int.tdiv_eq_ediv_of_nonneg (by decide)]

theorem toInt_choice {p q : Prop} [Decidable p] [Decidable q] {a b : Int64} {m n : Int}
    (hpq : p ↔ q) (ha : q → a.toInt = m) (hb : ¬ q → b.toInt = n) :
    (if p then a else b).toInt = if q then m else n := by
  by_cases hq : q
  · rw [if_pos (hpq.mpr hq), if_pos hq, ha hq]
  · rw [if_neg (hpq.not.mpr hq), if_neg hq, hb hq]

theorem toInt_oversampled {scanLimit multiplier : Int64} (hscan : 0 < scanLimit.toInt)
    (hmultiplier : 0 < multiplier.toInt) :
    (if scanLimit ≤ Int64.maxValue / multiplier then scanLimit * multiplier
      else Int64.maxValue).toInt =
      if scanLimit.toInt ≤ maxInt / multiplier.toInt then scanLimit.toInt * multiplier.toInt
      else maxInt := by
  refine toInt_choice ?_ (fun hguard => ?_) fun _ => rfl
  · rw [Int64.le_iff_toInt_le, toInt_maxValue_div]
  · rw [Int64.toInt_mul]
    refine bmod_of_fits (Int.mul_nonneg hscan.le hmultiplier.le) ?_
    exact (Int.le_ediv_iff_mul_le hmultiplier).mp hguard

theorem toInt_capacityWindow {scanLimit pending : Int64} (hscan : 0 < scanLimit.toInt)
    (hpending : 0 < pending.toInt) :
    (if pending ≤ Int64.maxValue - scanLimit then pending + scanLimit
      else Int64.maxValue).toInt =
      if pending.toInt ≤ maxInt - scanLimit.toInt then pending.toInt + scanLimit.toInt
      else maxInt := by
  have hle := toInt_le_maxInt scanLimit
  have hroom : (Int64.maxValue - scanLimit).toInt = maxInt - scanLimit.toInt := by
    rw [Int64.toInt_sub, toInt_maxValue]
    exact bmod_of_fits (by omega) (by omega)
  refine toInt_choice ?_ (fun hguard => ?_) fun _ => rfl
  · rw [Int64.le_iff_toInt_le, hroom]
  · rw [Int64.toInt_add]
    exact bmod_of_fits (by omega) (by omega)

theorem toInt_larger {a b : Int64} {m n : Int} (ha : a.toInt = m) (hb : b.toInt = n) :
    (if a > b then a else b).toInt = if m > n then m else n :=
  toInt_choice (by rw [gt_iff_lt, Int64.lt_iff_toInt_lt, ha, hb]) (fun _ => ha) fun _ => hb

theorem toInt_orDefault (n : Int64) {default : Int64} {m : Int} (hdefault : default.toInt = m) :
    (if n ≤ 0 then default else n).toInt = if n.toInt ≤ 0 then m else n.toInt :=
  toInt_choice Int64.le_iff_toInt_le (fun _ => hdefault) fun _ => rfl

/-- No operation of `CandidateLimit` overflows: on 64-bit integers it computes what it does on
unbounded ones. -/
theorem candidate_limit_exact (enabled : Bool)
    (multiplier scanLimit maxPendingPerDevice : Int64) :
    (candidateLimit64 multiplier scanLimit maxPendingPerDevice).toInt =
      RetryFairness.candidateLimit ⟨enabled, multiplier.toInt⟩ scanLimit.toInt
        maxPendingPerDevice.toInt := by
  have hscanEq := toInt_orDefault scanLimit (show (100 : Int64).toInt = 100 from rfl)
  have hfactorEq := toInt_orDefault multiplier (show (4 : Int64).toInt = 4 from rfl)
  simp only [candidateLimit64, RetryFairness.candidateLimit]
  rw [← hscanEq, ← hfactorEq]
  have hscan : 0 < (if scanLimit ≤ 0 then (100 : Int64) else scanLimit).toInt := by
    rw [hscanEq]
    split <;> omega
  have hfactor : 0 < (if multiplier ≤ 0 then (4 : Int64) else multiplier).toInt := by
    rw [hfactorEq]
    split <;> omega
  generalize (if scanLimit ≤ 0 then (100 : Int64) else scanLimit) = scan at hscan
  generalize (if multiplier ≤ 0 then (4 : Int64) else multiplier) = factor at hfactor
  have hover := toInt_oversampled hscan hfactor
  refine toInt_larger rfl (toInt_choice Int64.lt_iff_toInt_lt (fun hpending => ?_) fun _ => hover)
  exact toInt_larger (toInt_capacityWindow hscan hpending) hover

theorem scan_le_candidate_limit {scanLimit : Int} (fairness : RetryFairness) (pending : Int)
    (hscan : 0 < scanLimit) : scanLimit ≤ fairness.candidateLimit scanLimit pending := by
  simp only [RetryFairness.candidateLimit, if_neg (Int.not_le.mpr hscan)]
  split <;> omega

theorem pending_lt_candidate_limit {scanLimit pending : Int} (fairness : RetryFairness)
    (hscan : 0 < scanLimit) (hpending : 0 < pending) (hle : pending < maxInt) :
    pending < fairness.candidateLimit scanLimit pending := by
  simp only [RetryFairness.candidateLimit, if_neg (Int.not_le.mpr hscan), if_pos hpending]
  split_ifs <;> omega

theorem maxInt_le_candidate_limit {scanLimit : Int} (fairness : RetryFairness)
    (hscan : 0 < scanLimit) : maxInt ≤ fairness.candidateLimit scanLimit maxInt := by
  have hmax : 0 < maxInt := by decide
  simp only [RetryFairness.candidateLimit, if_neg (Int.not_le.mpr hscan), if_pos hmax]
  split_ifs <;> omega

/-! ## The selection -/

namespace MemoryStore

variable {s : MemoryStore}

theorem retry_candidates_nodup (s : MemoryStore) (now ackTimeout : Int) :
    (s.retryCandidates now ackTimeout).Nodup :=
  (List.Nodup.of_map _ s.messages.nodup).filter _

theorem length_fibre_sorted (messages : List Message) (device : GoString × GoString) :
    (fibre Message.device (messages.mergeSort createdLe) device).length =
      (fibre Message.device messages device).length :=
  ((List.mergeSort_perm messages createdLe).filter _).length_eq

theorem several_devices_limit_messages {messages : List Message} {limit : Int}
    (hlimit : 0 < limit) (hseveral : SeveralGroups Message.device messages)
    (hwindow : (messages.length : Int) ≤ limit ∨
      ∀ device, ((fibre Message.device messages device).length : Int) < limit) :
    SeveralGroups Message.device (limitMessages messages limit) := by
  simp only [limitMessages, if_pos hlimit]
  have hlength := (List.mergeSort_perm messages createdLe).length_eq
  by_cases hall : (messages.length : Int) ≤ limit
  · rw [List.take_of_length_le (by omega)]
    obtain ⟨a, ha, b, hb, hne⟩ := hseveral
    exact ⟨a, List.mem_mergeSort.mpr ha, b, List.mem_mergeSort.mpr hb, hne⟩
  · have hqueue : ∀ device, (fibre Message.device (messages.mergeSort createdLe) device).length ≤
        limit.toNat - 1 := by
      intro device
      have hdevice := hwindow.resolve_left hall device
      rw [length_fibre_sorted]
      omega
    refine several_groups_of_sublist (List.take_sublist _ _) hqueue ?_
    rw [List.length_take]
    omega

theorem several_devices_select_due {now ackTimeout limit candidateLimit : Int}
    (hlimit : 2 ≤ limit) (hcandidates : limit ≤ candidateLimit)
    (hseveral : SeveralGroups Message.device
      (limitMessages (s.retryCandidates now ackTimeout) candidateLimit)) :
    SeveralGroups Message.device
      (s.selectDue now ackTimeout limit candidateLimit).messages := by
  have hnodup := limit_messages_nodup candidateLimit (s.retry_candidates_nodup now ackTimeout)
  have hnormal : normalizeRetrySelectionLimits limit candidateLimit = (limit, candidateLimit) := by
    simp only [normalizeRetrySelectionLimits]
    rw [if_neg (by omega), if_neg (by omega)]
  rw [selectDue, hnormal]
  show SeveralGroups Message.device (fairRetryMessages _ limit)
  rw [fair_retry_messages_eq hnodup (by omega)]
  exact several_groups_round_robin hnodup (by omega) hseveral

theorem claim_due_retry_fair_fst (env : StoreEnv) (now ackTimeout limit candidateLimit : Int)
    {owner : GoString} (lease : Int) (hctx : env.ctxErr = none) (howner : owner ≠ []) :
    ∃ selection expiry,
      (s.claimDueRetryFair env now ackTimeout limit candidateLimit owner lease).1 =
        .ok selection ∧
      selection.messages =
        (s.selectDue (env.orClock now) ackTimeout limit candidateLimit).messages.map
          (Message.claimed owner expiry (env.orClock now)) := by
  simp only [claimDueRetryFair, hctx, if_neg howner]
  refine ⟨_, _, rfl, claimMessages_fst fun message hm => ⟨message, ?_, rfl⟩⟩
  exact Table.get?_of_mem (mem_select_due hm).1

end MemoryStore

/-- A full device queue hides no other device. The limit on pending messages is the bound on
the due messages of a device; where it is the largest `int`, that the number of stored
messages is an `int`, as the length of every Go map is, is used as well. -/
theorem full_queue_hides_no_device (multiplier scanLimit maxPendingPerDevice : Int64)
    (hscan : 2 ≤ scanLimit) (hpending : 0 < maxPendingPerDevice) :
    (candidateLimit64 multiplier scanLimit maxPendingPerDevice).toInt =
        RetryFairness.candidateLimit ⟨true, multiplier.toInt⟩ scanLimit.toInt
          maxPendingPerDevice.toInt ∧
      scanLimit ≤ candidateLimit64 multiplier scanLimit maxPendingPerDevice ∧
      ∀ (s : MemoryStore) (env : StoreEnv) (now ackTimeout : Int), env.ctxErr = none →
        (maxPendingPerDevice = Int64.maxValue → (s.messages.rows.length : Int) ≤ maxInt) →
        (∀ device, ((fibre Message.device
            (s.retryCandidates (env.orClock now) ackTimeout) device).length : Int) ≤
          maxPendingPerDevice.toInt) →
        SeveralGroups Message.device (s.retryCandidates (env.orClock now) ackTimeout) →
        (∃ selection, (s.listDueRetryFair env now ackTimeout scanLimit.toInt
            (candidateLimit64 multiplier scanLimit maxPendingPerDevice).toInt).1 =
              .ok selection ∧ SeveralGroups Message.device selection.messages) ∧
          ∀ owner lease, ∃ selection, (s.claimDueRetryFair env now ackTimeout scanLimit.toInt
            (candidateLimit64 multiplier scanLimit maxPendingPerDevice).toInt owner lease).1 =
              .ok selection ∧ SeveralGroups Message.device selection.messages := by
  have hscan' : 2 ≤ scanLimit.toInt := Int64.le_iff_toInt_le.mp hscan
  have hpending' : 0 < maxPendingPerDevice.toInt := Int64.lt_iff_toInt_lt.mp hpending
  have hexact := candidate_limit_exact true multiplier scanLimit maxPendingPerDevice
  have hle : scanLimit.toInt ≤
      (candidateLimit64 multiplier scanLimit maxPendingPerDevice).toInt := by
    rw [hexact]
    exact scan_le_candidate_limit _ _ (by omega)
  refine ⟨hexact, Int64.le_iff_toInt_le.mpr hle, ?_⟩
  intro s env now ackTimeout hctx hsize hqueue hseveral
  have hwindow : SeveralGroups Message.device
      (s.selectDue (env.orClock now) ackTimeout scanLimit.toInt
        (candidateLimit64 multiplier scanLimit maxPendingPerDevice).toInt).messages := by
    refine MemoryStore.several_devices_select_due hscan' hle ?_
    refine MemoryStore.several_devices_limit_messages (by omega) hseveral ?_
    rw [hexact]
    by_cases hmax : maxPendingPerDevice = Int64.maxValue
    · have hfits := hsize hmax
      have hshort : (s.retryCandidates (env.orClock now) ackTimeout).length ≤
          s.messages.rows.length := List.length_filter_le _ _
      have hall := maxInt_le_candidate_limit ⟨true, multiplier.toInt⟩ (show 0 < scanLimit.toInt by
        omega)
      rw [hmax, toInt_maxValue]
      exact .inl (by omega)
    · have hne : maxPendingPerDevice.toInt ≠ maxInt := fun h => hmax (Int64.toInt_inj.mp h)
      have hbound := toInt_le_maxInt maxPendingPerDevice
      have hlonger := pending_lt_candidate_limit ⟨true, multiplier.toInt⟩
        (show 0 < scanLimit.toInt by omega) hpending' (by omega)
      exact .inr fun device => (hqueue device).trans_lt hlonger
  have hlist : ∃ selection, (s.listDueRetryFair env now ackTimeout scanLimit.toInt
      (candidateLimit64 multiplier scanLimit maxPendingPerDevice).toInt).1 =
        .ok selection ∧ SeveralGroups Message.device selection.messages := by
    simp only [MemoryStore.listDueRetryFair, hctx]
    exact ⟨_, rfl, hwindow⟩
  refine ⟨hlist, fun owner lease => ?_⟩
  by_cases howner : owner = []
  · simpa only [MemoryStore.claimDueRetryFair, hctx, if_pos howner] using hlist
  · obtain ⟨selection, expiry, hok, hmessages⟩ := s.claim_due_retry_fair_fst env now ackTimeout
      scanLimit.toInt (candidateLimit64 multiplier scanLimit maxPendingPerDevice).toInt lease hctx
      howner
    obtain ⟨a, ha, b, hb, hne⟩ := hwindow
    refine ⟨selection, hok, ?_⟩
    rw [hmessages]
    exact ⟨_, List.mem_map_of_mem ha, _, List.mem_map_of_mem hb, hne⟩

/-- A store with two due messages of one device and one of another. -/
def twoDevices : MemoryStore := ⟨⟨threeCandidates, by decide +kernel⟩, .empty⟩

theorem three_candidates_queue (device : GoString × GoString) :
    (fibre Message.device threeCandidates device).length ≤ 2 := by
  have hdiffer : (messageFor "e" "m3").device ≠ (messageFor "d" "m1").device := by decide +kernel
  by_cases hlast : (messageFor "e" "m3").device = device
  · have hfirst : (messageFor "d" "m1").device ≠ device := fun h => hdiffer (hlast.trans h.symm)
    rw [threeCandidates, fibre, List.filter_cons_of_neg (by simpa using hfirst)]
    exact List.length_filter_le _ _
  · have hdrop : fibre Message.device threeCandidates device =
        fibre Message.device [messageFor "d" "m1", messageFor "d" "m2"] device := by
      rw [threeCandidates, fibre, fibre]
      simp only [List.filter_cons, List.filter_nil, decide_eq_true_eq, if_neg hlast]
    rw [hdrop]
    exact List.length_filter_le _ _

/-- Two messages fill the queue of the first device; the second device is selected too. -/
theorem full_queue_hides_no_device_two :
    (∃ selection, (twoDevices.listDueRetryFair ⟨none, second, []⟩ second 0 2
        (candidateLimit64 1 2 2).toInt).1 = .ok selection ∧
      SeveralGroups Message.device selection.messages) := by
  have hdue : twoDevices.retryCandidates second 0 = threeCandidates := by decide +kernel
  refine ((full_queue_hides_no_device 1 2 2 (by decide) (by decide)).2.2 twoDevices
    ⟨none, second, []⟩ second 0 rfl (fun h => absurd h (by decide)) ?_ ?_).1
  · show ∀ device, ((fibre Message.device (twoDevices.retryCandidates second 0) device).length :
      Int) ≤ 2
    intro device
    rw [hdue]
    exact Int.ofNat_le.mpr (three_candidates_queue device)
  · show SeveralGroups Message.device (twoDevices.retryCandidates second 0)
    rw [hdue]
    exact ⟨messageFor "d" "m1", by simp [threeCandidates], messageFor "e" "m3",
      by simp [threeCandidates], by decide +kernel⟩

end ZCourier.Downlink
