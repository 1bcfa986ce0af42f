import ZCourier.Server.LocalQuota
import ZCourier.Server.RedisRegistry

/-!
# The Redis quota store

After `internal/pipeline/quota_store_redis.go`: `Admit` runs a Lua script that keeps the bucket of
a policy and client in a hash. The script is atomic and reads the time of the server once, in
whole microseconds; token counts are exact rationals. Redis drops a key when its clock, in
milliseconds, is past the deadline that `PEXPIRE` has set. The script is a request to the bucket
the hash stands for (`script_take`).
-/

namespace ZCourier.Server

open Go Library

/-! ## The script -/

/-- The hash of a key as the script reads it: a field is missing, not a number, or a number. -/
structure QuotaHash where
  tokens : Option (Option Rat)
  lastRefillUs : Option (Option Int)
  deadline : Int

/-- `ARGV`. -/
structure ScriptArgs where
  capacity : Int
  refillTokens : Int
  refillIntervalUs : Int
  idleTTLMs : Int

inductive ScriptError where
  | arguments
  | state

/-- The hash that is still there. -/
def liveHash (serverUs : Int) (stored : Option QuotaHash) : Option QuotaHash :=
  stored.filter fun hash => alive (serverUs / 1000) (some hash.deadline)

/-- The tokens and the time of the last refill the script starts from. -/
def scriptState (args : ScriptArgs) (serverUs : Int) (stored : Option QuotaHash) :
    Except ScriptError (Rat × Int) :=
  match stored with
  | none => .ok (args.capacity, serverUs)
  | some hash =>
    match hash.tokens, hash.lastRefillUs with
    | none, none => .ok (args.capacity, serverUs)
    | some (some tokens), some (some lastRefillUs) => .ok (tokens, lastRefillUs)
    | _, _ => .error .state

/-- `redisQuotaAdmitScript`. -/
def redisQuotaAdmitScript (args : ScriptArgs) (serverUs : Int) (stored : Option QuotaHash) :
    Except ScriptError Int × Option QuotaHash :=
  if args.capacity ≤ 0 || args.refillTokens ≤ 0 || args.refillIntervalUs ≤ 0 ||
      args.idleTTLMs ≤ 0 then
    (.error .arguments, stored)
  else
    match scriptState args serverUs (liveHash serverUs stored) with
    | .error err => (.error err, stored)
    | .ok (tokens, lastRefillUs) =>
      let nowUs := if serverUs < lastRefillUs then lastRefillUs else serverUs
      let tokens := min (args.capacity : Rat) tokens
      let elapsedUs := nowUs - lastRefillUs
      let tokens :=
        if 0 < elapsedUs then
          min (args.capacity : Rat)
            (tokens + (elapsedUs : Rat) * args.refillTokens / args.refillIntervalUs)
        else tokens
      let allowed : Bool := 1 ≤ tokens
      let tokens := if allowed then tokens - 1 else tokens
      (.ok (if allowed then 1 else 0),
        some ⟨some (some tokens), some (some nowUs), serverUs / 1000 + args.idleTTLMs⟩)

/-! ## The store -/

/-- `ceilDuration`. -/
def ceilDuration (duration unit : Int) : Int :=
  let value := duration.tdiv unit
  let value := if duration.tmod unit ≠ 0 then value + 1 else value
  max value 1

/-- The errors of `RedisQuotaStore.Admit`. -/
inductive RedisQuotaError where
  | closed
  | request (err : QuotaError)
  | exactRange
  | script (err : ScriptError)
  | connection
  | decision

/-- `pipeline.RedisQuotaStore`. -/
structure RedisQuotaStore where
  closed : Bool
  idleTTL : Int

namespace RedisQuotaStore

/-- The arguments `Admit` passes to the script. -/
def scriptArgs (store : RedisQuotaStore) (request : QuotaRequest) : ScriptArgs :=
  ⟨request.tokenBucket.capacity, request.tokenBucket.refillTokens,
    ceilDuration request.tokenBucket.refillInterval 1000, ceilDuration store.idleTTL 1000000⟩

/-- The script as `Admit` runs it. -/
def runScript (store : RedisQuotaStore) (request : QuotaRequest) (serverUs : Int)
    (stored : Option QuotaHash) : Except ScriptError Int × Option QuotaHash :=
  redisQuotaAdmitScript (store.scriptArgs request) serverUs stored

/-- What `Admit` makes of the script's answer. -/
def decision : Except ScriptError Int → Except RedisQuotaError QuotaDecision
  | .error err => .error (.script err)
  | .ok 0 => .ok .rateLimited
  | .ok 1 => .ok .allowed
  | .ok _ => .error .decision

/-- `Admit`, on the hash of the request's key. -/
def admitQuota (store : RedisQuotaStore) (delivery : Delivery) (request : QuotaRequest)
    (serverUs : Int) (stored : Option QuotaHash) :
    Except RedisQuotaError QuotaDecision × Option QuotaHash :=
  if store.closed then (.error .closed, stored)
  else
    match validateQuotaRequest request with
    | some err => (.error (.request err), stored)
    | none =>
      if 2 ^ 53 - 1 < request.tokenBucket.capacity ||
          2 ^ 53 - 1 < request.tokenBucket.refillTokens then
        (.error .exactRange, stored)
      else
        match delivery with
        | .lost => (.error .connection, stored)
        | .unanswered => (.error .connection, (store.runScript request serverUs stored).2)
        | .answered =>
          let (answer, stored) := store.runScript request serverUs stored
          (decision answer, stored)

/-- What an answered `Admit` decides on is the script's answer, unless a count is too large for the
script to compute with. -/
theorem redis_admit_eq {store : RedisQuotaStore} {request : QuotaRequest}
    (hopen : store.closed = false) (hvalid : validateQuotaRequest request = none)
    (hcapacity : request.tokenBucket.capacity ≤ 2 ^ 53 - 1)
    (hrefill : request.tokenBucket.refillTokens ≤ 2 ^ 53 - 1) (serverUs : Int)
    (stored : Option QuotaHash) :
    store.admitQuota .answered request serverUs stored =
      (decision (store.runScript request serverUs stored).1,
        (store.runScript request serverUs stored).2) := by
  have hexact : ¬(decide (2 ^ 53 - 1 < request.tokenBucket.capacity) ||
      decide (2 ^ 53 - 1 < request.tokenBucket.refillTokens)) = true := by
    simp only [Bool.or_eq_true, decide_eq_true_eq, not_or, not_lt]
    exact ⟨hcapacity, hrefill⟩
  simp only [admitQuota, hopen, hvalid, if_neg hexact, Bool.false_eq_true, if_false]

end RedisQuotaStore

/-! ## The script as a request -/

section Script

variable {config : TokenBucketConfig} {args : ScriptArgs} {serverUs : Int}
  {stored : Option QuotaHash} {tokens : Rat} {lastRefillUs : Int}

/-- The arguments of the script for a bucket, with its refill interval in whole microseconds. -/
structure ArgsFor (config : TokenBucketConfig) (idleTTL : Int) (args : ScriptArgs) : Prop where
  capacity : args.capacity = config.capacity
  refillTokens : args.refillTokens = config.refillTokens
  refillInterval : 1000 * args.refillIntervalUs = config.refillInterval
  idleTTL : idleTTL ≤ 1000000 * args.idleTTLMs

theorem script_level {idleTTL : Int} (hpos : config.Positive)
    (hargs : ArgsFor config idleTTL args) (htokens : tokens ≤ config.capacity)
    (hpast : lastRefillUs ≤ serverUs) :
    (if 0 < serverUs - lastRefillUs then
        min (args.capacity : Rat) (min (args.capacity : Rat) tokens +
          ((serverUs - lastRefillUs : Int) : Rat) * args.refillTokens / args.refillIntervalUs)
      else min (args.capacity : Rat) tokens) =
      config.level ⟨tokens, ((1000 * lastRefillUs : Int) : Rat)⟩
        ((1000 * serverUs : Int) : Rat) := by
  rw [hargs.capacity, hargs.refillTokens, min_eq_right htokens]
  by_cases helapsed : 0 < serverUs - lastRefillUs
  · have hinterval : (args.refillIntervalUs : Rat) ≠ 0 := by
      have hne : args.refillIntervalUs ≠ 0 := by
        have := hargs.refillInterval
        have := hpos.refillInterval
        omega
      exact_mod_cast hne
    rw [if_pos helapsed]
    unfold TokenBucketConfig.level Bucket.level TokenBucketConfig.rate
    rw [← hargs.refillInterval]
    congr 2
    push_cast
    field_simp
  · obtain rfl : lastRefillUs = serverUs := by omega
    rw [if_neg helapsed]
    exact (Bucket.level_since ⟨tokens, ((1000 * lastRefillUs : Int) : Rat)⟩ htokens).symm

theorem script_take {idleTTL : Int} (hpos : config.Positive) (hargs : ArgsFor config idleTTL args)
    (hidle : 0 < args.idleTTLMs)
    (hstate : scriptState args serverUs (liveHash serverUs stored) = .ok (tokens, lastRefillUs))
    (htokens : tokens ≤ config.capacity) (hpast : lastRefillUs ≤ serverUs) :
    let taken := config.take ⟨tokens, ((1000 * lastRefillUs : Int) : Rat)⟩
      ((1000 * serverUs : Int) : Rat)
    redisQuotaAdmitScript args serverUs stored =
      (.ok (if taken.1 then 1 else 0), some ⟨some (some taken.2.tokens), some (some serverUs),
        serverUs / 1000 + args.idleTTLMs⟩) := by
  have hlevel := script_level hpos hargs htokens hpast
  have hvalid : ¬(args.capacity ≤ 0 || args.refillTokens ≤ 0 || args.refillIntervalUs ≤ 0 ||
      args.idleTTLMs ≤ 0) = true := by
    have hcapacity := hargs.capacity ▸ hpos.capacity
    have hrefill := hargs.refillTokens ▸ hpos.refillTokens
    have hinterval := hargs.refillInterval
    have hpositive := hpos.refillInterval
    simp only [Bool.or_eq_true, decide_eq_true_eq, not_or, not_le]
    exact ⟨⟨⟨hcapacity, hrefill⟩, by omega⟩, hidle⟩
  unfold redisQuotaAdmitScript
  rw [if_neg hvalid, hstate]
  simp only [if_neg (not_lt.mpr hpast)]
  rw [hlevel]
  generalize hL : config.level ⟨tokens, ((1000 * lastRefillUs : Int) : Rat)⟩
    ((1000 * serverUs : Int) : Rat) = level
  have htake : config.take ⟨tokens, ((1000 * lastRefillUs : Int) : Rat)⟩
      ((1000 * serverUs : Int) : Rat) =
      if level < 1 then (false, ⟨level, ((1000 * serverUs : Int) : Rat)⟩)
      else (true, ⟨level - 1, ((1000 * serverUs : Int) : Rat)⟩) := by
    rw [← hL]
    rfl
  rw [htake]
  by_cases hone : level < 1
  · simp [hone, not_le.mpr hone]
  · simp [hone, not_lt.mp hone]

end Script

end ZCourier.Server
