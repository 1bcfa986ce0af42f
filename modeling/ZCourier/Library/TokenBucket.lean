import Mathlib.Algebra.Order.Field.Basic
import Mathlib.Tactic.Linarith
import Mathlib.Tactic.Ring

/-!
# Token buckets

A bucket holds up to `capacity` tokens and gains `rate` tokens per unit of time; a request that
finds a whole token takes it. `level` is what a bucket holds at a later time. If every admitted
request of a machine lowers such a level by one and nothing but time raises it, then at most
`capacity + (t - s) * rate` requests are admitted between `s` and `t` (`admitted_le`).
-/

namespace ZCourier.Library

variable {𝕜 : Type} [Field 𝕜] [LinearOrder 𝕜]

/-- The tokens of a bucket, and when it had them. -/
structure Bucket (𝕜 : Type) where
  tokens : 𝕜
  since : 𝕜

namespace Bucket

/-- The tokens of the bucket at a later time. -/
def level (capacity rate : 𝕜) (bucket : Bucket 𝕜) (now : 𝕜) : 𝕜 :=
  min capacity (bucket.tokens + (now - bucket.since) * rate)

/-- A request at a given time: whether it is admitted, and the bucket afterwards. -/
def take (capacity rate : 𝕜) (bucket : Bucket 𝕜) (now : 𝕜) : Bool × Bucket 𝕜 :=
  if bucket.level capacity rate now < 1 then (false, ⟨bucket.level capacity rate now, now⟩)
  else (true, ⟨bucket.level capacity rate now - 1, now⟩)

/-- A bucket that is neither overdrawn nor overfull. -/
structure Valid (capacity : 𝕜) (bucket : Bucket 𝕜) : Prop where
  nonneg : 0 ≤ bucket.tokens
  le_capacity : bucket.tokens ≤ capacity

section Level

variable {capacity rate : 𝕜} {bucket : Bucket 𝕜} {now later : 𝕜}

theorem level_le_capacity : bucket.level capacity rate now ≤ capacity :=
  min_le_left _ _

/-- At the time the tokens were counted the level is their number. -/
theorem level_since (bucket : Bucket 𝕜) (h : bucket.tokens ≤ capacity) :
    bucket.level capacity rate bucket.since = bucket.tokens := by
  unfold level
  rw [sub_self, zero_mul, add_zero, min_eq_right h]

variable [IsStrictOrderedRing 𝕜]

theorem level_nonneg (hrate : 0 ≤ rate) (hvalid : bucket.Valid capacity)
    (hnow : bucket.since ≤ now) : 0 ≤ bucket.level capacity rate now := by
  have hgain : 0 ≤ (now - bucket.since) * rate := mul_nonneg (sub_nonneg.mpr hnow) hrate
  have htokens := hvalid.nonneg
  exact le_min (htokens.trans hvalid.le_capacity) (by linarith)

theorem level_grows (hrate : 0 ≤ rate) (hle : now ≤ later) :
    bucket.level capacity rate later ≤
      bucket.level capacity rate now + (later - now) * rate := by
  have hgain : 0 ≤ (later - now) * rate := mul_nonneg (sub_nonneg.mpr hle) hrate
  unfold level
  rcases min_cases capacity (bucket.tokens + (now - bucket.since) * rate) with ⟨heq, -⟩ | ⟨heq, -⟩
  · rw [heq]
    exact (min_le_left _ _).trans (by linarith)
  · rw [heq]
    refine (min_le_right _ _).trans (le_of_eq ?_)
    ring

theorem level_full (hvalid : bucket.Valid capacity)
    (hlong : capacity ≤ (now - bucket.since) * rate) :
    bucket.level capacity rate now = capacity := by
  have htokens := hvalid.nonneg
  exact min_eq_left (by linarith)

theorem level_take (hrate : 0 ≤ rate) (hvalid : bucket.Valid capacity)
    (hnow : bucket.since ≤ now) :
    (bucket.take capacity rate now).2.Valid capacity ∧
      (bucket.take capacity rate now).2.since = now ∧
      (bucket.take capacity rate now).2.level capacity rate now +
        (if (bucket.take capacity rate now).1 then 1 else 0) =
          bucket.level capacity rate now := by
  have hnonneg := level_nonneg hrate hvalid hnow
  have hcapacity : bucket.level capacity rate now ≤ capacity := level_le_capacity
  unfold take
  by_cases hone : bucket.level capacity rate now < 1
  · simp only [if_pos hone, Bool.false_eq_true, if_false]
    refine ⟨⟨hnonneg, hcapacity⟩, trivial, ?_⟩
    rw [add_zero]
    exact level_since ⟨_, now⟩ hcapacity
  · have hless : bucket.level capacity rate now - 1 ≤ capacity := by linarith
    simp only [if_neg hone, if_true]
    refine ⟨⟨by linarith, hless⟩, trivial, ?_⟩
    have hlevel := @level_since _ _ _ capacity rate
      ⟨bucket.level capacity rate now - 1, now⟩ hless
    rw [hlevel]
    exact sub_add_cancel _ _

end Level

end Bucket

/-! ## The rate a level enforces -/

section Rate

variable {σ κ : Type} (step : σ → κ → Bool × σ) (time : κ → 𝕜)

/-- The number of calls from `s` to `t` that are admitted. -/
def admitted (s t : 𝕜) : σ → List κ → Nat
  | _, [] => 0
  | state, call :: rest =>
    (if (step state call).1 ∧ s ≤ time call ∧ time call ≤ t then 1 else 0) +
      admitted s t (step state call).2 rest

/-- A level that governs the answers: it is bounded, only time raises it, and an admitted call
lowers it by one. `inv state now` is what holds of a state that was last called at `now`. -/
structure Governs (capacity rate : 𝕜) (level : σ → 𝕜 → 𝕜) (inv : σ → 𝕜 → Prop)
    (ok : κ → Prop) : Prop where
  nonneg : ∀ state now later, inv state now → now ≤ later → 0 ≤ level state later
  bounded : ∀ state now, level state now ≤ capacity
  grows : ∀ state now later, now ≤ later →
    level state later ≤ level state now + (later - now) * rate
  step : ∀ state now call, inv state now → ok call → now ≤ time call →
    inv (step state call).2 (time call) ∧
      level (step state call).2 (time call) + (if (step state call).1 then 1 else 0) ≤
        level state (time call)

variable {step time} {capacity rate : 𝕜} {level : σ → 𝕜 → 𝕜} {inv : σ → 𝕜 → Prop} {ok : κ → Prop}

/-- Calls in the order of their times, all after a given one. -/
def Ordered (time : κ → 𝕜) (now : 𝕜) (calls : List κ) : Prop :=
  (calls.Pairwise fun a b => time a ≤ time b) ∧ ∀ call ∈ calls, now ≤ time call

omit [Field 𝕜] in
theorem Ordered.tail {now : 𝕜} {call : κ} {rest : List κ}
    (h : Ordered time now (call :: rest)) : Ordered time (time call) rest := by
  obtain ⟨hhead, htail⟩ := List.pairwise_cons.mp h.1
  exact ⟨htail, hhead⟩

variable {s t now : 𝕜}

omit [Field 𝕜] in
theorem admitted_after {state : σ} {calls : List κ} (h : Ordered time now calls)
    (hafter : t < now) : admitted step time s t state calls = 0 := by
  induction calls generalizing state now with
  | nil => rfl
  | cons call rest ih =>
    have hcall := hafter.trans_le (h.2 call List.mem_cons_self)
    unfold admitted
    rw [ih h.tail hcall, if_neg fun hin => absurd hin.2.2 (not_le.mpr hcall)]

variable [IsStrictOrderedRing 𝕜]

theorem admitted_cons_le (h : Governs step time capacity rate level inv ok) {state : σ} {call : κ}
    {rest : List κ} (hinv : inv state now) (hok : ok call) (hnow : now ≤ time call)
    (hrest : (admitted step time s t (step state call).2 rest : 𝕜) ≤
      level (step state call).2 (time call) + (t - time call) * rate) :
    (admitted step time s t state (call :: rest) : 𝕜) ≤
      level state (time call) + (t - time call) * rate := by
  obtain ⟨-, hlevel⟩ := h.step state now call hinv hok hnow
  have hone : ((if (step state call).1 = true ∧ s ≤ time call ∧ time call ≤ t then 1
      else 0 : Nat) : 𝕜) ≤ if (step state call).1 then 1 else 0 := by
    by_cases hadmitted : (step state call).1 = true
    · simp only [hadmitted, true_and, if_true]
      split <;> simp
    · simp [hadmitted]
  unfold admitted
  rw [Nat.cast_add]
  linarith

theorem admitted_le_level (h : Governs step time capacity rate level inv ok) (hrate : 0 ≤ rate)
    {state : σ} (hinv : inv state now) {calls : List κ} (hok : ∀ call ∈ calls, ok call)
    (hordered : Ordered time now calls) (hnow : now ≤ t) :
    (admitted step time s t state calls : 𝕜) ≤ level state now + (t - now) * rate := by
  have hlevel := h.nonneg state now now hinv le_rfl
  have hgain : 0 ≤ (t - now) * rate := mul_nonneg (sub_nonneg.mpr hnow) hrate
  induction calls generalizing state now with
  | nil =>
    simp only [admitted, Nat.cast_zero]
    linarith
  | cons call rest ih =>
    have hcall := hordered.2 call List.mem_cons_self
    obtain ⟨hcallOk, hrestOk⟩ := List.forall_mem_cons.mp hok
    by_cases hend : time call ≤ t
    · obtain ⟨hinv', -⟩ := h.step state now call hinv hcallOk hcall
      have hrest := ih hinv' hrestOk hordered.tail hend (h.nonneg _ _ _ hinv' le_rfl)
        (mul_nonneg (sub_nonneg.mpr hend) hrate)
      calc (admitted step time s t state (call :: rest) : 𝕜)
          ≤ level state (time call) + (t - time call) * rate :=
            admitted_cons_le h hinv hcallOk hcall hrest
        _ ≤ level state now + (time call - now) * rate + (t - time call) * rate :=
            add_le_add_left (h.grows state now (time call) hcall) _
        _ = level state now + (t - now) * rate := by ring
    · have hfrom : Ordered time (time call) (call :: rest) :=
        ⟨hordered.1, List.forall_mem_cons.mpr ⟨le_rfl, hordered.tail.2⟩⟩
      rw [admitted_after hfrom (not_le.mp hend), Nat.cast_zero]
      linarith

theorem admitted_le (h : Governs step time capacity rate level inv ok) (hrate : 0 ≤ rate)
    (hcapacity : 0 ≤ capacity) {state : σ} (hinv : inv state now) {calls : List κ}
    (hok : ∀ call ∈ calls, ok call) (hordered : Ordered time now calls) (hst : s ≤ t) :
    (admitted step time s t state calls : 𝕜) ≤ capacity + (t - s) * rate := by
  have hgain : 0 ≤ (t - s) * rate := mul_nonneg (sub_nonneg.mpr hst) hrate
  induction calls generalizing state now with
  | nil =>
    simp only [admitted, Nat.cast_zero]
    linarith
  | cons call rest ih =>
    have hcall := hordered.2 call List.mem_cons_self
    obtain ⟨hcallOk, hrestOk⟩ := List.forall_mem_cons.mp hok
    obtain ⟨hinv', -⟩ := h.step state now call hinv hcallOk hcall
    by_cases hstart : s ≤ time call
    · by_cases hend : time call ≤ t
      · -- the first call of the interval finds at most a full bucket
        have hrest := admitted_le_level h hrate hinv' hrestOk hordered.tail hend (s := s)
        calc (admitted step time s t state (call :: rest) : 𝕜)
            ≤ level state (time call) + (t - time call) * rate :=
              admitted_cons_le h hinv hcallOk hcall hrest
          _ ≤ capacity + (t - s) * rate :=
              add_le_add (h.bounded state _)
                (mul_le_mul_of_nonneg_right (sub_le_sub_left hstart t) hrate)
      · have hfrom : Ordered time (time call) (call :: rest) :=
          ⟨hordered.1, List.forall_mem_cons.mpr ⟨le_rfl, hordered.tail.2⟩⟩
        rw [admitted_after hfrom (not_le.mp hend), Nat.cast_zero]
        linarith
    · have hrest := ih hinv' hrestOk hordered.tail
      unfold admitted
      rw [if_neg fun hin => hstart hin.2.1, zero_add]
      exact hrest

end Rate

end ZCourier.Library
