import ZCourier.Library.Ranges
import ZCourier.Server.Upstream

/-!
# What a gateway registers

The loops of `registeredMsgIDs` add the `MsgID`s of a range one by one and leave when they
have added its end, so that a range may end at the greatest word. No range has more than
10001 `MsgID`s, and with so much fuel the computation always returns
(`registered_ne_none`). `registered_ok` says what it returns if all ranges are valid.
-/

namespace ZCourier.Server

open Library

variable {H N : Type} {fuel : Nat}

/-- What a range must be to be registered. -/
def Registrable (msgIDMin msgIDMax : UInt32) : Prop :=
  msgIDMin ≠ 0 ∧ msgIDMin ≤ msgIDMax ∧ msgIDMax - msgIDMin ≤ 10000

/-! ## One range -/

theorem register_range_ok {msgIDMax msgID : UInt32} (hle : msgID ≤ msgIDMax)
    (hfuel : msgIDMax.toNat - msgID.toNat < fuel) (seen : List UInt32) :
    ∃ after, registerRange msgIDMax fuel msgID seen = some after ∧
      ∀ n, n ∈ after ↔ n ∈ seen ∨ msgID ≤ n ∧ n ≤ msgIDMax := by
  induction fuel generalizing msgID seen with
  | zero => omega
  | succ fuel ih =>
    rw [UInt32.le_iff_toNat_le] at hle
    unfold registerRange
    by_cases hend : msgID = msgIDMax
    · refine ⟨seen.insert msgID, if_pos hend, fun n => ?_⟩
      rw [List.mem_insert_iff, or_comm, hend]
      exact or_congr_right ⟨fun h => ⟨h.ge, h.le⟩, fun h => le_antisymm h.2 h.1⟩
    · have hne : msgID.toNat ≠ msgIDMax.toNat := fun h => hend (UInt32.toNat_inj.mp h)
      have hmax := msgIDMax.toNat_lt
      -- the end has not been reached, so the next word is no wrap
      have hnext : (msgID + 1).toNat = msgID.toNat + 1 := by
        rw [UInt32.toNat_add]
        show (msgID.toNat + 1) % 2 ^ 32 = _
        omega
      obtain ⟨after, hafter, hmem⟩ := @ih (msgID + 1)
        (by rw [UInt32.le_iff_toNat_le]; omega) (by omega) (seen.insert msgID)
      refine ⟨after, by rw [if_neg hend]; exact hafter, fun n => ?_⟩
      rw [hmem, List.mem_insert_iff, UInt32.le_iff_toNat_le, UInt32.le_iff_toNat_le,
        UInt32.le_iff_toNat_le, hnext, ← UInt32.toNat_inj]
      constructor
      · rintro ((heq | hseen) | hrange)
        · exact .inr ⟨by omega, by omega⟩
        · exact .inl hseen
        · exact .inr ⟨by omega, hrange.2⟩
      · rintro (hseen | hrange)
        · exact .inl (.inr hseen)
        · by_cases heq : n.toNat = msgID.toNat
          · exact .inl (.inl heq)
          · exact .inr ⟨by omega, hrange.2⟩

section Checked

variable {msgIDMin msgIDMax : UInt32}

theorem checked_range_ok (hfuel : 10001 ≤ fuel) (h : Registrable msgIDMin msgIDMax)
    (seen : List UInt32) :
    ∃ after, (∀ invalid tooLarge,
        checkedRange fuel invalid tooLarge msgIDMin msgIDMax seen = some (.ok after)) ∧
      ∀ n, n ∈ after ↔ n ∈ seen ∨ msgIDMin ≤ n ∧ n ≤ msgIDMax := by
  obtain ⟨hmin, hle, hwidth⟩ := h
  have hsub : (msgIDMax - msgIDMin).toNat = msgIDMax.toNat - msgIDMin.toNat :=
    UInt32.toNat_sub_of_le _ _ hle
  have hsmall : msgIDMax.toNat - msgIDMin.toNat ≤ 10000 := by
    rw [← hsub]
    exact UInt32.le_iff_toNat_le.mp hwidth
  obtain ⟨after, hafter, hmem⟩ := register_range_ok hle (by omega : _ < fuel) seen
  refine ⟨after, fun invalid tooLarge => ?_, hmem⟩
  unfold checkedRange
  rw [if_neg (by simp [hmin, not_lt.mpr hle]), if_neg (not_lt.mpr hwidth), hafter]
  rfl

theorem checked_range_ne_none (hfuel : 10001 ≤ fuel) (invalid tooLarge : RegistrationError)
    (seen : List UInt32) :
    checkedRange fuel invalid tooLarge msgIDMin msgIDMax seen ≠ none := by
  by_cases h : Registrable msgIDMin msgIDMax
  · obtain ⟨after, hafter, -⟩ := checked_range_ok hfuel h seen
    rw [hafter]
    simp
  · unfold checkedRange
    split
    · simp
    · next hvalid =>
      simp only [Bool.or_eq_true, decide_eq_true_eq, not_or, not_lt] at hvalid
      split
      · simp
      · next hwidth => exact absurd ⟨hvalid.1, hvalid.2, not_lt.mp hwidth⟩ h

end Checked

/-! ## All ranges -/

theorem register_routes_ne_none (hfuel : 10001 ≤ fuel) (routes : List (UpstreamRouteConfig H N))
    (seen : List UInt32) : registerRoutes fuel routes seen ≠ none := by
  induction routes generalizing seen with
  | nil => simp [registerRoutes]
  | cons route rest ih =>
    simp only [registerRoutes]
    generalize hchecked : checkedRange fuel _ _ _ _ seen = result
    cases result with
    | none => exact absurd hchecked (checked_range_ne_none hfuel _ _ seen)
    | some result =>
      cases result with
      | error err => simp
      | ok after => exact ih after

theorem register_accepted_ne_none (hfuel : 10001 ≤ fuel) (index : Nat) (ranges : List MsgIDRange)
    (seen : List UInt32) : registerAccepted fuel index ranges seen ≠ none := by
  induction ranges generalizing index seen with
  | nil => simp [registerAccepted]
  | cons accepted rest ih =>
    simp only [registerAccepted]
    generalize hchecked : checkedRange fuel _ _ _ _ seen = result
    cases result with
    | none => exact absurd hchecked (checked_range_ne_none hfuel _ _ seen)
    | some result =>
      cases result with
      | error err => simp
      | ok after => exact ih _ after

theorem registered_ne_none (hfuel : 10001 ≤ fuel) (config : RegistrationConfig H N) :
    registeredMsgIDs fuel config ≠ none := by
  simp only [registeredMsgIDs, ne_eq, Option.map_eq_none_iff, seenMsgIDs]
  generalize hroutes : registerRoutes fuel config.upstreamRoutes _ = result
  cases result with
  | none => exact absurd hroutes (register_routes_ne_none hfuel _ _)
  | some result =>
    cases result with
    | error err => simp
    | ok after =>
      show (if (!config.reload.enabled) = true then _ else _) ≠ none
      split
      · simp
      · split
        · simp
        · exact register_accepted_ne_none hfuel _ _ _

theorem register_routes_ok (hfuel : 10001 ≤ fuel) {routes : List (UpstreamRouteConfig H N)}
    (h : ∀ route ∈ routes, Registrable route.msgIDMin (rangeEnd route.msgIDMin route.msgIDMax))
    (seen : List UInt32) :
    ∃ after, registerRoutes fuel routes seen = some (.ok after) ∧ seen ⊆ after := by
  induction routes generalizing seen with
  | nil => exact ⟨seen, rfl, List.Subset.refl _⟩
  | cons route rest ih =>
    obtain ⟨hfirst, hothers⟩ := List.forall_mem_cons.mp h
    obtain ⟨between, hbetween, hmem⟩ := checked_range_ok hfuel hfirst seen
    obtain ⟨after, hafter, hsubset⟩ := ih hothers between
    refine ⟨after, ?_, fun n hn => hsubset ((hmem n).mpr (.inl hn))⟩
    simp only [registerRoutes, hbetween]
    exact hafter

theorem register_accepted_ok (hfuel : 10001 ≤ fuel) (index : Nat) {ranges : List MsgIDRange}
    (h : ∀ accepted ∈ ranges, Registrable accepted.min (rangeEnd accepted.min accepted.max))
    (seen : List UInt32) :
    ∃ after, registerAccepted fuel index ranges seen = some (.ok after) ∧ seen ⊆ after ∧
      ∀ accepted ∈ ranges, ∀ n, accepted.min ≤ n → n ≤ rangeEnd accepted.min accepted.max →
        n ∈ after := by
  induction ranges generalizing index seen with
  | nil => exact ⟨seen, rfl, List.Subset.refl _, by simp⟩
  | cons first rest ih =>
    obtain ⟨hfirst, hothers⟩ := List.forall_mem_cons.mp h
    obtain ⟨between, hbetween, hmem⟩ := checked_range_ok hfuel hfirst seen
    obtain ⟨after, hafter, hsubset, hranges⟩ := ih (index + 1) hothers between
    refine ⟨after, ?_, fun n hn => hsubset ((hmem n).mpr (.inl hn)),
      List.forall_mem_cons.mpr ⟨fun n hmin hmax => hsubset ((hmem n).mpr (.inr ⟨hmin, hmax⟩)),
        hranges⟩⟩
    simp only [registerAccepted, hbetween]
    exact hafter

/-- With reload enabled, valid routes and valid accepted ranges, the computation gives a list that
has every `MsgID` of the accepted ranges. -/
theorem registered_ok (hfuel : 10001 ≤ fuel) {config : RegistrationConfig H N}
    (hroutes : ∀ route ∈ config.upstreamRoutes,
      Registrable route.msgIDMin (rangeEnd route.msgIDMin route.msgIDMax))
    (henabled : config.reload.enabled = true)
    (hsome : config.reload.acceptedMsgIDRanges ≠ [])
    (hranges : ∀ accepted ∈ config.reload.acceptedMsgIDRanges,
      Registrable accepted.min (rangeEnd accepted.min accepted.max)) :
    ∃ msgIDs, registeredMsgIDs fuel config = some (.ok msgIDs) ∧
      ∀ accepted ∈ config.reload.acceptedMsgIDRanges, ∀ n, accepted.min ≤ n →
        n ≤ rangeEnd accepted.min accepted.max → n ∈ msgIDs := by
  obtain ⟨between, hbetween, -⟩ := register_routes_ok hfuel hroutes
    (config.routeMsgIDs.foldl (fun seen msgID => seen.insert msgID) [msgIDDownlinkAck, msgIDBind])
  obtain ⟨after, hafter, -, hmem⟩ := register_accepted_ok hfuel 0 hranges between
  refine ⟨after.mergeSort fun a b => a ≤ b, ?_, fun accepted haccepted n hmin hmax => ?_⟩
  · simp only [registeredMsgIDs, seenMsgIDs, hbetween, bind, Option.bind, henabled, Bool.not_true,
      Bool.false_eq_true, if_false, List.isEmpty_iff, hsome, hafter]
    rfl
  · rw [List.mem_mergeSort]
    exact hmem accepted haccepted n hmin hmax

end ZCourier.Server
