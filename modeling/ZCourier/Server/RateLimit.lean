import ZCourier.Library.Windows
import ZCourier.Server.Pipeline

/-!
# The fixed-window rate limit

The calls of one `RateLimitHandler` in the order in which they take its lock. For each key the
handler is a counter of fixed windows (`rate_limited_tracks`); `fixed_windows` is what follows for
all calls.
-/

namespace ZCourier.Server

open Go Library

/-- A call of `RateLimitHandler.Handle`: the clock, the context and the state besides the
buckets. -/
structure RateCall (V Q R : Type) where
  env : PipelineEnv
  ctx : Context
  state : PipelineState V Q R

variable {V Q R : Type}

namespace RateCall

/-- The clock reading of a call. -/
def now (call : RateCall V Q R) : Int := call.env.rateLimitNow

/-- The key a call is counted under. -/
def key (call : RateCall V Q R) : GoString := rateLimitKey call.ctx

/-- The call on the given buckets. -/
def handle (h : RateLimitConfig) (buckets : Table RateBucket.key) (call : RateCall V Q R) :
    Handled V Q R :=
  rateLimitHandler h call.env call.ctx { call.state with rateBuckets := buckets }

end RateCall

/-- Calls of one handler, each with whether it was accepted. -/
def rateLimited (h : RateLimitConfig) :
    Table RateBucket.key → List (RateCall V Q R) → List (RateCall V Q R × Bool)
  | _, [] => []
  | buckets, call :: rest =>
    let handled := call.handle h buckets
    (call, handled.refusal.isNone) :: rateLimited h handled.state.rateBuckets rest

section Key

variable {h : RateLimitConfig} {buckets : Table RateBucket.key} {key : GoString}
  {call : RateCall V Q R} {current : Option (Window Int)}

/-- The bucket of a key holds its current window. -/
def Holds (buckets : Table RateBucket.key) (key : GoString) (current : Option (Window Int)) :
    Prop :=
  buckets.get? key = current.map (fun w => ⟨key, w.start, w.count⟩) ∧ ∀ w ∈ current, w.start ≠ 0

theorem Holds.counted (hholds : Holds buckets key current)
    (hcount : ∀ w ∈ current, w.count + 1 < 2 ^ 63) (window : Int) (now : Int) :
    countedBucket buckets window now key =
      ⟨key, (Window.next window current now).start, (Window.next window current now).count⟩ := by
  unfold countedBucket
  rw [hholds.1]
  cases current with
  | none => rfl
  | some w =>
    have hnonzero : isZero w.start = false := isZero_eq_false.mpr (hholds.2 w rfl)
    simp only [Option.map_some, hnonzero, Bool.false_or, decide_eq_true_eq, Window.next]
    split
    · rfl
    · have hsmall := hcount w rfl
      rw [int64, Int.bmod_eq_of_le (by omega) (by omega)]
      rfl

theorem Holds.put (hholds : Holds buckets key current)
    (hcount : ∀ w ∈ current, w.count + 1 < 2 ^ 63) (window : Int) {now : Int} (hnow : now ≠ 0) :
    Holds (buckets.put (countedBucket buckets window now key)) key
      (some (Window.next window current now)) := by
  rw [hholds.counted hcount]
  refine ⟨?_, fun w hw => ?_⟩
  · rw [Table.get?_put, if_pos rfl]
    rfl
  · obtain rfl := Option.some.inj hw
    unfold Window.next
    split
    · next w =>
      split
      · exact hnow
      · exact hholds.2 w rfl
    · exact hnow

theorem handle_eq (buckets : Table RateBucket.key) (call : RateCall V Q R)
    (henabled : h.enabled = true) (hmax : 0 < h.maxRequests) (hwindow : 0 < h.window) :
    let bucket := countedBucket buckets h.window call.now call.key
    (call.handle h buckets).refusal.isNone = decide (bucket.count ≤ h.maxRequests) ∧
      (call.handle h buckets).state.rateBuckets = buckets.put bucket := by
  have hsettings : (decide (h.maxRequests ≤ 0) || decide (h.window ≤ 0)) = false := by
    simp [hmax, hwindow]
  simp only [RateCall.handle, rateLimitHandler, henabled, hsettings, RateCall.now, RateCall.key]
  simp only [Bool.not_true, Bool.false_eq_true, if_false]
  split
  · next hover => exact ⟨(decide_eq_false (not_le.mpr hover)).symm, rfl⟩
  · next hwithin => exact ⟨(decide_eq_true (not_lt.mp hwithin)).symm, rfl⟩

theorem handle_other (hne : call.key ≠ key) :
    (call.handle h buckets).state.rateBuckets.get? key = buckets.get? key := by
  have hkey : (countedBucket buckets h.window call.env.rateLimitNow call.key).key = call.key := by
    unfold countedBucket
    split
    · next bucket hbucket =>
      split
      · rfl
      · show bucket.key = call.key
        exact Table.key_of_get? hbucket
    · rfl
  unfold RateCall.handle rateLimitHandler
  simp only
  split
  · rfl
  · split
    · rfl
    · split <;> exact Table.get?_put_ne (hkey ▸ hne.symm)

theorem rate_limited_filter (h : RateLimitConfig) (key : GoString) (calls : List (RateCall V Q R))
    {buckets buckets' : Table RateBucket.key} (hsame : buckets.get? key = buckets'.get? key) :
    (rateLimited h buckets calls).filter (fun c => c.1.key = key) =
      rateLimited h buckets' (calls.filter fun c => c.key = key) := by
  induction calls generalizing buckets buckets' with
  | nil => rfl
  | cons call rest ih =>
    by_cases hkey : call.key = key
    · have hbucket : countedBucket buckets h.window call.env.rateLimitNow call.key =
          countedBucket buckets' h.window call.env.rateLimitNow call.key := by
        unfold countedBucket
        rw [hkey, hsame]
      obtain ⟨hrefusal, hstate⟩ : (call.handle h buckets).refusal =
          (call.handle h buckets').refusal ∧
          (call.handle h buckets).state.rateBuckets.get? key =
            (call.handle h buckets').state.rateBuckets.get? key := by
        unfold RateCall.handle rateLimitHandler
        simp only
        rw [show rateLimitKey call.ctx = call.key from rfl, hbucket]
        split
        · exact ⟨rfl, hsame⟩
        · split
          · exact ⟨rfl, hsame⟩
          · split <;> exact ⟨rfl, by rw [Table.get?_put, Table.get?_put, hsame]⟩
      rw [List.filter_cons_of_pos (by simp [hkey])]
      simp only [rateLimited]
      rw [List.filter_cons_of_pos (by simp [hkey]), hrefusal, ih hstate]
    · rw [List.filter_cons_of_neg (by simp [hkey])]
      simp only [rateLimited]
      rw [List.filter_cons_of_neg (by simp [hkey])]
      exact ih ((handle_other hkey).trans hsame)

theorem rate_limited_tracks (henabled : h.enabled = true) (hmax : 0 < h.maxRequests)
    (hwindow : 0 < h.window) (key : GoString) {calls : List (RateCall V Q R)}
    (hkey : ∀ call ∈ calls, call.key = key) (hnonzero : ∀ call ∈ calls, call.now ≠ 0)
    {past : List (RateCall V Q R × Bool)} (hpast : ∀ c ∈ past, ∀ call ∈ calls, c.1.now ≤ call.now)
    (hclock : calls.Pairwise fun a b => a.now ≤ b.now)
    (hbound : past.length + calls.length < 2 ^ 63) {windows} (hholds : Holds buckets key current)
    (htracks : Tracks (fun c => c.1.now) Prod.snd h.window h.maxRequests.toNat past current
      windows) :
    ∃ current' windows', Tracks (fun c => c.1.now) Prod.snd h.window h.maxRequests.toNat
      (past ++ rateLimited h buckets calls) current' windows' := by
  induction calls generalizing buckets current past windows with
  | nil => exact ⟨current, windows, by rwa [rateLimited, List.append_nil]⟩
  | cons call rest ih =>
    obtain ⟨hfirst, hrest⟩ := List.pairwise_cons.mp hclock
    have hown : call.key = key := hkey call List.mem_cons_self
    obtain ⟨hanswer, hstate⟩ := handle_eq buckets call henabled hmax hwindow
    rw [hown] at hanswer hstate
    have hcount : ∀ w ∈ current, w.count + 1 < 2 ^ 63 := by
      rintro w rfl
      have hle := htracks.count_le
      rw [List.length_cons] at hbound
      omega
    have haccepted : (call.handle h buckets).refusal.isNone = true ↔
        (Window.next h.window current call.now).count ≤ h.maxRequests.toNat := by
      rw [hanswer, hholds.counted hcount, decide_eq_true_eq]
      exact Int.le_toNat hmax.le |>.symm
    obtain ⟨windows', htracks'⟩ := htracks.concat
      (a := (call, (call.handle h buckets).refusal.isNone)) hwindow (by omega)
      (fun c hmem => hpast c hmem call List.mem_cons_self) haccepted
    have hholds' := hholds.put hcount h.window (hnonzero call List.mem_cons_self)
    rw [← hstate] at hholds'
    have hpast' : ∀ c ∈ past ++ [(call, (call.handle h buckets).refusal.isNone)],
        ∀ later ∈ rest, c.1.now ≤ later.now := by
      intro c hmem later hlater
      rcases List.mem_append.mp hmem with hmem | hmem
      · exact hpast c hmem later (List.mem_cons_of_mem _ hlater)
      · rw [List.mem_singleton.mp hmem]
        exact hfirst later hlater
    obtain ⟨current', windows'', hdone⟩ := ih
      (fun c hmem => hkey c (List.mem_cons_of_mem _ hmem))
      (fun c hmem => hnonzero c (List.mem_cons_of_mem _ hmem)) hpast' hrest
      (by rw [List.length_append, List.length_singleton]; rw [List.length_cons] at hbound; omega)
      hholds' htracks'
    rw [List.append_assoc] at hdone
    exact ⟨current', windows'', hdone⟩

end Key

/-- The fixed-window limiter bounds bursts: with positive settings, non-decreasing non-zero clock
readings and fewer than `2 ^ 63` calls, the calls for a key form windows that start at an accepted
call and whose first `max` calls are accepted, all of them less than a window length later; in an
interval shorter than a window at most `2 * max` calls are accepted, and the calls for other keys
have no effect. -/
theorem fixed_windows {h : RateLimitConfig} (henabled : h.enabled = true)
    (hmax : 0 < h.maxRequests) (hwindow : 0 < h.window) (calls : List (RateCall V Q R))
    (hnonzero : ∀ call ∈ calls, call.now ≠ 0) (hclock : calls.Pairwise fun a b => a.now ≤ b.now)
    (hbound : calls.length < 2 ^ 63) (key : GoString) :
    let answers := (rateLimited h .empty calls).filter fun c => c.1.key = key
    (∃ windows : List ((RateCall V Q R × Bool) × List (RateCall V Q R × Bool)),
      windows.flatMap (fun w => w.1 :: w.2) = answers ∧
      (∀ w ∈ windows, w.1.2 = true ∧
        (∀ c ∈ w.1 :: w.2, w.1.1.now ≤ c.1.now ∧ c.1.now - w.1.1.now < h.window) ∧
        ∀ (i : Nat) c, (w.1 :: w.2)[i]? = some c → (c.2 = true ↔ (i : Int) < h.maxRequests)) ∧
      windows.Pairwise fun w later => h.window ≤ later.1.1.now - w.1.1.now) ∧
    (∀ lo hi : Int, hi - lo < h.window →
      ((answers.filter fun c => c.2 && (lo ≤ c.1.now && c.1.now ≤ hi)).length : Int) ≤
        2 * h.maxRequests) ∧
    answers = rateLimited h .empty (calls.filter fun c => c.key = key) := by
  intro answers
  have hfilter : answers = rateLimited h .empty (calls.filter fun c => c.key = key) :=
    rate_limited_filter h key calls (Eq.refl (Table.empty.get? key))
  have hmem : ∀ call ∈ calls.filter (fun c => decide (c.key = key)),
      call ∈ calls ∧ call.key = key := fun call hcall => by simpa using hcall
  have hempty : Holds .empty key none := ⟨rfl, nofun⟩
  obtain ⟨current, windows, htracks⟩ := rate_limited_tracks henabled hmax hwindow key
    (fun call hcall => (hmem call hcall).2) (fun call hcall => hnonzero call (hmem call hcall).1)
    (fun c hc => absurd hc List.not_mem_nil) (hclock.filter _)
    (by simpa using Nat.lt_of_le_of_lt (List.length_filter_le _ _) hbound) hempty .nil
  rw [List.nil_append, ← hfilter] at htracks
  refine ⟨⟨windows, htracks.items_eq, fun w hw => ⟨?_, ?_, ?_⟩, htracks.apart⟩, ?_, hfilter⟩
  · exact ((htracks.each w hw).decided 0 w.1 rfl).mpr (by omega)
  · exact (htracks.each w hw).within
  · intro i c hi
    rw [(htracks.each w hw).decided i c hi]
    omega
  · intro lo hi hshort
    have hle := htracks.accepted_le hshort
    rw [htracks.items_eq, acceptedIn, List.countP_eq_length_filter] at hle
    omega

/-- A call at the given time for the client `a`. -/
def rateCallAt (now : Int) : RateCall Unit Unit Unit :=
  ⟨⟨now, 0, 0, ⟨0, []⟩, 0⟩, newContext 1 none { newPacket 7 [] with clientID := ascii "a" },
    ⟨none, .empty, none, .new, none⟩⟩

/-- One request in ten time units: the second call is refused, a later one starts a new window. -/
theorem fixed_windows_three :
    let answers := (rateLimited ⟨true, 1, 10⟩ .empty [rateCallAt 1, rateCallAt 5, rateCallAt 12]
      ).filter fun c => c.1.key = ascii "client:a"
    answers.map Prod.snd = [true, false, true] ∧
      ∀ lo hi : Int, hi - lo < 10 →
        ((answers.filter fun c => c.2 && (lo ≤ c.1.now && c.1.now ≤ hi)).length : Int) ≤ 2 * 1 := by
  have hnonzero : ∀ call ∈ [rateCallAt 1, rateCallAt 5, rateCallAt 12], call.now ≠ 0 := by decide
  exact ⟨by decide, (fixed_windows (h := ⟨true, 1, 10⟩) rfl (by decide) (by decide) _ hnonzero
    (by decide) (by decide) (ascii "client:a")).2.1⟩

/-- A handler that is not enabled accepts every call, whatever its settings are: here three calls
within two time units, with one request in ten time units as the limit. -/
theorem disabled_limit_unbounded :
    let h : RateLimitConfig := ⟨false, 1, 10⟩
    let answers := (rateLimited h .empty [rateCallAt 1, rateCallAt 2, rateCallAt 3]).filter
      fun c => c.1.key = ascii "client:a"
    0 < h.maxRequests ∧ 0 < h.window ∧ (3 : Int) - 1 < h.window ∧
      2 * h.maxRequests <
        (answers.filter fun c => c.2 && (1 ≤ c.1.now && c.1.now ≤ 3)).length := by
  decide

end ZCourier.Server
