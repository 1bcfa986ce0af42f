import Mathlib.Data.Rat.Cast.Order
import ZCourier.Library.TokenBucket
import ZCourier.Server.TrafficPolicy

/-!
# The local quota store as token buckets

What a call of `Admit` does to the bucket of one policy and client. A call for the key is a
request to its bucket (`admit_own`); other calls leave the bucket alone or drop it after it has
been idle (`admit_other`). A bucket that is created again is full, so dropping one is harmless if
it would be full by then: the level of the bucket, where no bucket counts as a full one, then
governs the answers (`local_governs`).
-/

namespace ZCourier.Server

open Go Library

/-! ## The bucket of a key -/

def TokenBucketConfig.rate (config : TokenBucketConfig) : Rat :=
  (config.refillTokens : Rat) / config.refillInterval

def TokenBucketConfig.level (config : TokenBucketConfig) (bucket : Bucket Rat) (now : Rat) : Rat :=
  bucket.level (config.capacity : Rat) config.rate now

def TokenBucketConfig.take (config : TokenBucketConfig) (bucket : Bucket Rat) (now : Rat) :
    Bool × Bucket Rat :=
  bucket.take (config.capacity : Rat) config.rate now

/-- The bucket as tokens at a time. -/
def LocalQuotaBucket.bucket (b : LocalQuotaBucket) : Bucket Rat := ⟨b.tokens, b.lastRefill⟩

/-- What a call for a key finds: its bucket, or the full one it creates. -/
def TokenBucketConfig.held (config : TokenBucketConfig) (b? : Option LocalQuotaBucket)
    (now : Rat) : Bucket Rat :=
  match b? with
  | some b => b.bucket
  | none => ⟨config.capacity, now⟩

def QuotaRequest.key (request : QuotaRequest) : LocalQuotaKey :=
  ⟨request.policyName, request.keyScope, request.keyValue⟩

/-- What holds of the bucket of a key that was last touched at `now` or before. -/
structure LocalQuotaBucket.Kept (config : TokenBucketConfig) (now : Rat) (b : LocalQuotaBucket) :
    Prop where
  valid : b.bucket.Valid (config.capacity : Rat)
  refilled : b.lastRefill = b.lastSeen
  past : (b.lastSeen : Rat) ≤ now

namespace LocalQuotaStore

variable {config : TokenBucketConfig} {b : LocalQuotaBucket} {now : Int} {key : LocalQuotaKey}

theorem refill_key (b : LocalQuotaBucket) (config : TokenBucketConfig) (now : Int) :
    (refill b config now).key = b.key := by
  simp only [refill]
  split <;> rfl

theorem refill_eq (hkept : b.Kept config now) :
    (refill b config now).bucket = ⟨config.level b.bucket now, now⟩ := by
  have hpast : b.lastRefill ≤ now := by
    rw [hkept.refilled]
    exact_mod_cast hkept.past
  unfold refill
  by_cases helapsed : now - b.lastRefill ≤ 0
  · have hsame : b.lastRefill = now := by omega
    rw [if_pos helapsed]
    have hlevel : config.level b.bucket b.lastRefill = b.tokens :=
      Bucket.level_since b.bucket hkept.valid.le_capacity
    rw [← hsame, hlevel]
    rfl
  · rw [if_neg helapsed]
    simp only [LocalQuotaBucket.bucket, TokenBucketConfig.level, Bucket.level,
      TokenBucketConfig.rate]
    congr 2
    push_cast
    ring

theorem spend_get? (s : LocalQuotaStore) (b : LocalQuotaBucket) {key : LocalQuotaKey}
    (h : key ≠ b.key) : (s.spend b).2.buckets.get? key = s.buckets.get? key := by
  unfold spend
  split <;> exact Table.get?_put_ne h

theorem spend_eq (s : LocalQuotaStore) {level : Rat} (hb : b.bucket = ⟨level, now⟩)
    {before : Bucket Rat} (hlevel : config.level before now = level) :
    (s.spend b).1 = .ok (if (config.take before now).1 then .allowed else .rateLimited) ∧
      ∃ after, (s.spend b).2.buckets.get? b.key = some after ∧
        after.bucket = (config.take before now).2 ∧
        after.lastSeen = b.lastSeen := by
  have htokens : b.tokens = level := congrArg Bucket.tokens hb
  have hsince : (b.lastRefill : Rat) = now := congrArg Bucket.since hb
  have htake : config.take before now =
      if level < 1 then (false, ⟨level, now⟩) else (true, ⟨level - 1, now⟩) := by
    rw [← hlevel]
    rfl
  unfold spend
  rw [htake, htokens]
  by_cases hone : level < 1
  · simp only [if_pos hone]
    exact ⟨rfl, b, Table.get?_put_self, hb, rfl⟩
  · simp only [if_neg hone]
    refine ⟨rfl, { b with tokens := level - 1 }, ?_, ?_, rfl⟩
    · exact @Table.get?_put_self _ _ _ _ s.buckets { b with tokens := level - 1 }
    · simp [LocalQuotaBucket.bucket, hsince]

/-! ## Idle buckets -/

theorem drop_idle_get? (idleTTL now : Int) (keys : List LocalQuotaKey)
    (buckets : Table LocalQuotaBucket.key) (key : LocalQuotaKey) :
    (dropIdle idleTTL now keys buckets).2.get? key = buckets.get? key ∨
      (dropIdle idleTTL now keys buckets).2.get? key = none ∧
        ∃ b, buckets.get? key = some b ∧ idleTTL ≤ now - b.lastSeen := by
  induction keys generalizing buckets with
  | nil => exact .inl rfl
  | cons first rest ih =>
    unfold dropIdle
    cases hfirst : buckets.get? first with
    | none => exact .inl rfl
    | some b =>
      show (if now - b.lastSeen < idleTTL then (first :: rest, buckets)
        else dropIdle idleTTL now rest (buckets.erase first)).2.get? key = _ ∨ _
      by_cases hrecent : now - b.lastSeen < idleTTL
      · rw [if_pos hrecent]
        exact .inl rfl
      · simp only [if_neg hrecent]
        by_cases hkey : key = first
        · subst hkey
          refine .inr ⟨?_, b, hfirst, not_lt.mp hrecent⟩
          rcases ih (buckets.erase key) with h | ⟨h, -⟩
          · rw [h, Table.get?_erase, if_pos rfl]
          · exact h
        · have herase : (buckets.erase first).get? key = buckets.get? key := by
            rw [Table.get?_erase, if_neg hkey]
          rw [← herase]
          exact ih (buckets.erase first)

theorem remove_idle_get? (s : LocalQuotaStore) (now : Int) (key : LocalQuotaKey) :
    (s.removeIdleBuckets now).buckets.get? key = s.buckets.get? key ∨
      (s.removeIdleBuckets now).buckets.get? key = none ∧
        ∃ b, s.buckets.get? key = some b ∧ s.idleTTL ≤ now - b.lastSeen :=
  drop_idle_get? s.idleTTL now s.lru.reverse s.buckets key

/-! ## One call -/

section Call

variable {s : LocalQuotaStore} {request : QuotaRequest}

theorem admit_other (s : LocalQuotaStore) (now : Int) (h : request.key ≠ key) :
    (s.admitLocked now request).2.buckets.get? key =
      (s.removeIdleBuckets now).buckets.get? key := by
  unfold admitLocked
  simp only
  split
  · split
    · rfl
    · exact spend_get? _ _ (Ne.symm h)
  · next b hb =>
    refine spend_get? _ _ ?_
    have hown : (refill b request.tokenBucket now).key = request.key :=
      (refill_key b _ now).trans (Table.key_of_get? hb)
    exact fun hsame => h (hsame.trans hown).symm

theorem admit_own (hconfig : request.tokenBucket = config)
    (hkept : ∀ b, (s.removeIdleBuckets now).buckets.get? request.key = some b →
      b.Kept config now) :
    s.admitLocked now request = (.ok .overloaded, s.removeIdleBuckets now) ∧
      (s.removeIdleBuckets now).buckets.get? request.key = none ∧
      s.maxKeys ≤ (s.removeIdleBuckets now).buckets.rows.length ∨
    let before := config.held ((s.removeIdleBuckets now).buckets.get? request.key) now
    (s.admitLocked now request).1 =
        .ok (if (config.take before now).1 then .allowed else .rateLimited) ∧
      ∃ after, (s.admitLocked now request).2.buckets.get? request.key = some after ∧
        after.bucket = (config.take before now).2 ∧ after.lastSeen = now := by
  subst hconfig
  unfold admitLocked
  simp only
  rw [show (⟨request.policyName, request.keyScope, request.keyValue⟩ : LocalQuotaKey) =
    request.key from rfl]
  cases hb : (s.removeIdleBuckets now).buckets.get? request.key with
  | none =>
    simp only [true_and]
    split
    · next hroom => exact .inl ⟨rfl, hroom⟩
    · right
      refine @spend_eq request.tokenBucket ⟨request.key, request.tokenBucket.capacity, now, now⟩
        now _ request.tokenBucket.capacity rfl ⟨request.tokenBucket.capacity, now⟩ ?_
      exact Bucket.level_since _ le_rfl
  | some b =>
    right
    have hkept' := hkept b hb
    have hkey : request.key = (refill b request.tokenBucket now).key :=
      (Table.key_of_get? hb).symm.trans (refill_key b _ now).symm
    have hspend := @spend_eq request.tokenBucket
      { refill b request.tokenBucket now with lastSeen := now } now
      { s.removeIdleBuckets now with
        lru := request.key :: (s.removeIdleBuckets now).lru.erase request.key }
      _ (refill_eq hkept') b.bucket rfl
    rw [← hkey] at hspend
    exact hspend

theorem admit_quota_cases (s : LocalQuotaStore) (env : QuotaEnv) (request : QuotaRequest) :
    (∃ err, s.admitQuota env request = (.error err, s)) ∨
      s.admitQuota env request = s.admitLocked env.now request := by
  unfold admitQuota
  cases env.ctxErr with
  | some err => exact .inl ⟨_, rfl⟩
  | none =>
    simp only
    split
    · exact .inl ⟨_, rfl⟩
    · split
      · exact .inl ⟨_, rfl⟩
      · cases validateQuotaRequest request with
        | some err => exact .inl ⟨_, rfl⟩
        | none => exact .inr rfl

theorem admit_locked_settings (s : LocalQuotaStore) (now : Int) (request : QuotaRequest) :
    (s.admitLocked now request).2.maxKeys = s.maxKeys ∧
      (s.admitLocked now request).2.idleTTL = s.idleTTL := by
  have hspend : ∀ (s : LocalQuotaStore) (b : LocalQuotaBucket),
      (s.spend b).2.maxKeys = s.maxKeys ∧ (s.spend b).2.idleTTL = s.idleTTL := by
    intro s b
    unfold spend
    split <;> exact ⟨rfl, rfl⟩
  unfold admitLocked
  simp only
  split
  · split
    · exact ⟨rfl, rfl⟩
    · exact hspend _ _
  · exact hspend _ _

end Call

end LocalQuotaStore

/-! ## The rate of a key -/

/-- A call of `Admit`. -/
structure QuotaCall where
  env : QuotaEnv
  request : QuotaRequest

def QuotaCall.time (call : QuotaCall) : Rat := call.env.now

/-- Whether the answer is `QuotaDecisionAllowed`. -/
def isAllowed : Except QuotaError QuotaDecision → Bool
  | .ok .allowed => true
  | _ => false

theorem is_allowed_ok (taken : Bool) :
    isAllowed (.ok (if taken then .allowed else .rateLimited)) = taken := by
  cases taken <;> rfl

/-- A call as a step: whether it is for the key and allowed, and the store afterwards. -/
def LocalQuotaStore.call (key : LocalQuotaKey) (s : LocalQuotaStore) (call : QuotaCall) :
    Bool × LocalQuotaStore :=
  let (answer, after) := s.admitQuota call.env call.request
  (call.request.key = key && isAllowed answer, after)

/-- A bucket that takes no longer than the idle time to become full. -/
def TokenBucketConfig.FullWhenIdle (config : TokenBucketConfig) (idleTTL : Int) : Prop :=
  config.capacity * config.refillInterval ≤ idleTTL * config.refillTokens

section Rate

variable {config : TokenBucketConfig} {idleTTL : Int} {key : LocalQuotaKey}

/-- What is kept of a key by a store that was last called at `now`. -/
def KeptInStore (config : TokenBucketConfig) (idleTTL : Int) (key : LocalQuotaKey)
    (s : LocalQuotaStore) (now : Rat) : Prop :=
  s.idleTTL = idleTTL ∧ ∀ b, s.buckets.get? key = some b → b.Kept config now

/-- The level of the key's bucket; where there is none, that of a full one. -/
def keyLevel (config : TokenBucketConfig) (key : LocalQuotaKey) (s : LocalQuotaStore)
    (now : Rat) : Rat :=
  config.level (config.held (s.buckets.get? key) now) now

theorem LocalQuotaBucket.Kept.mono {b : LocalQuotaBucket} {now later : Rat}
    (h : b.Kept config now) (hle : now ≤ later) : b.Kept config later :=
  ⟨h.valid, h.refilled, h.past.trans hle⟩

theorem LocalQuotaBucket.Kept.since_le {b : LocalQuotaBucket} {now : Rat} (h : b.Kept config now) :
    b.bucket.since ≤ now := by
  show (b.lastRefill : Rat) ≤ now
  rw [h.refilled]
  exact h.past

/-- A configuration `validateQuotaRequest` accepts. -/
structure TokenBucketConfig.Positive (config : TokenBucketConfig) : Prop where
  capacity : 0 < config.capacity
  refillTokens : 0 < config.refillTokens
  refillInterval : 0 < config.refillInterval

theorem rate_pos (hpos : config.Positive) : 0 < config.rate := by
  have htokens : (0 : Rat) < config.refillTokens := by exact_mod_cast hpos.refillTokens
  have hinterval : (0 : Rat) < config.refillInterval := by exact_mod_cast hpos.refillInterval
  exact div_pos htokens hinterval

theorem capacity_le_gain (hpos : config.Positive) (hidle : config.FullWhenIdle idleTTL)
    {elapsed : Int} (helapsed : idleTTL ≤ elapsed) :
    (config.capacity : Rat) ≤ elapsed * config.rate := by
  have hinterval : (0 : Rat) < config.refillInterval := by exact_mod_cast hpos.refillInterval
  have hproduct : config.capacity * config.refillInterval ≤ elapsed * config.refillTokens :=
    hidle.trans (Int.mul_le_mul_of_nonneg_right helapsed hpos.refillTokens.le)
  unfold TokenBucketConfig.rate
  rw [← mul_div_assoc, le_div_iff₀ hinterval]
  exact_mod_cast hproduct

theorem removed_level (hpos : config.Positive) (hidle : config.FullWhenIdle idleTTL)
    {s : LocalQuotaStore} {last : Rat} (hkept : KeptInStore config idleTTL key s last)
    {now : Int} (hnow : last ≤ now) :
    keyLevel config key (s.removeIdleBuckets now) now = keyLevel config key s now ∧
      KeptInStore config idleTTL key (s.removeIdleBuckets now) now := by
  unfold keyLevel
  rcases s.remove_idle_get? now key with h | ⟨h, b, hb, hlong⟩
  · rw [h]
    exact ⟨rfl, hkept.1, fun b hb => (hkept.2 b (h ▸ hb)).mono hnow⟩
  · have hkept' := hkept.2 b hb
    have hfull : config.level b.bucket now = config.capacity := by
      refine Bucket.level_full hkept'.valid ?_
      show (config.capacity : Rat) ≤ ((now : Rat) - b.lastRefill) * config.rate
      have hgain := capacity_le_gain hpos hidle (hkept.1 ▸ hlong)
      rw [hkept'.refilled]
      exact_mod_cast hgain
    rw [h, hb]
    refine ⟨?_, hkept.1, fun b hb => by rw [h] at hb; cases hb⟩
    show config.level ⟨config.capacity, now⟩ now = config.level b.bucket now
    rw [hfull]
    exact Bucket.level_since ⟨_, (now : Rat)⟩ le_rfl

theorem held_valid (hpos : config.Positive) {b? : Option LocalQuotaBucket} {now : Rat}
    (hkept : ∀ b, b? = some b → b.Kept config now) :
    (config.held b? now).Valid (config.capacity : Rat) ∧ (config.held b? now).since ≤ now := by
  cases b? with
  | none =>
    have hcapacity : (0 : Rat) ≤ config.capacity := by exact_mod_cast hpos.capacity.le
    exact ⟨⟨hcapacity, le_rfl⟩, le_rfl⟩
  | some b => exact ⟨(hkept b rfl).valid, (hkept b rfl).since_le⟩

theorem locked_level (hpos : config.Positive) (hidle : config.FullWhenIdle idleTTL)
    {s : LocalQuotaStore} {last : Rat} (hkept : KeptInStore config idleTTL key s last)
    {now : Int} (hnow : last ≤ now) {request : QuotaRequest}
    (hrequest : request.key = key → request.tokenBucket = config) :
    KeptInStore config idleTTL key (s.admitLocked now request).2 now ∧
      keyLevel config key (s.admitLocked now request).2 now +
        (if (request.key = key && isAllowed (s.admitLocked now request).1) = true then 1 else 0) ≤
          keyLevel config key s now := by
  obtain ⟨hlevel, hremoved⟩ := removed_level hpos hidle hkept hnow
  rw [← hlevel]
  have hidleTTL : (s.admitLocked now request).2.idleTTL = idleTTL :=
    (s.admit_locked_settings now request).2.trans hkept.1
  by_cases hkey : request.key = key
  · subst hkey
    rcases LocalQuotaStore.admit_own (hrequest rfl) hremoved.2 with
      ⟨hanswer, -⟩ | ⟨hanswer, after, hafter, hbucket, hseen⟩
    · rw [hanswer]
      exact ⟨hremoved, by simp [isAllowed]⟩
    · obtain ⟨hvalid, hsince⟩ := held_valid hpos hremoved.2
      obtain ⟨htaken, htime, hspent⟩ := Bucket.level_take (rate_pos hpos).le hvalid hsince
      refine ⟨⟨hidleTTL, fun b hb => ?_⟩, ?_⟩
      · obtain rfl : after = b := Option.some.inj (hafter.symm.trans hb)
        have hrefill : (after.lastRefill : Rat) = now :=
          (congrArg Bucket.since hbucket).trans htime
        refine ⟨hbucket ▸ htaken, ?_, ?_⟩
        · rw [hseen]
          exact_mod_cast hrefill
        · rw [hseen]
      · unfold keyLevel
        rw [hafter, hanswer]
        refine le_of_eq (Eq.trans ?_ hspent)
        show config.level after.bucket now + _ = _
        rw [hbucket]
        simp only [decide_true, Bool.true_and, is_allowed_ok]
        rfl
  · have hsame := LocalQuotaStore.admit_other s now hkey
    refine ⟨⟨hidleTTL, fun b hb => hremoved.2 b (hsame ▸ hb)⟩, ?_⟩
    unfold keyLevel
    rw [hsame]
    simp [hkey]

theorem local_governs (hpos : config.Positive) (hidle : config.FullWhenIdle idleTTL) :
    Governs (LocalQuotaStore.call key) QuotaCall.time (config.capacity : Rat) config.rate
      (keyLevel config key) (KeptInStore config idleTTL key)
      (fun call => call.request.key = key → call.request.tokenBucket = config) where
  nonneg s now later hkept hle := by
    obtain ⟨hvalid, hsince⟩ := held_valid hpos fun b hb => (hkept.2 b hb).mono hle
    exact Bucket.level_nonneg (rate_pos hpos).le hvalid hsince
  bounded _ _ := Bucket.level_le_capacity
  grows s now later hle := by
    have hgain : 0 ≤ (later - now) * config.rate :=
      mul_nonneg (sub_nonneg.mpr hle) (rate_pos hpos).le
    unfold keyLevel
    cases s.buckets.get? key with
    | some b => exact Bucket.level_grows (rate_pos hpos).le hle
    | none =>
      have hfull : ∀ time, config.level (config.held none time) time = config.capacity :=
        fun time => Bucket.level_since ⟨_, time⟩ le_rfl
      rw [hfull, hfull]
      linarith
  step s last call hkept hrequest hnow := by
    unfold LocalQuotaStore.call
    rcases s.admit_quota_cases call.env call.request with ⟨err, h⟩ | h
    · rw [h]
      refine ⟨⟨hkept.1, fun b hb => (hkept.2 b hb).mono hnow⟩, ?_⟩
      simp [isAllowed]
    · rw [h]
      exact locked_level hpos hidle hkept hnow hrequest

end Rate

end ZCourier.Server
