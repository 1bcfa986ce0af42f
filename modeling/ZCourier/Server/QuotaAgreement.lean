import ZCourier.Server.RedisQuota

/-!
# Local and Redis quotas decide alike

The requests for one policy and client, sent to a local store and to the Redis store. The local
store serves other keys in between, which may drop an idle bucket; the hash in Redis has a
deadline of its own. `Holding` relates the two until then: they hold the same tokens since the
same time. `quotas_agree` is the result.
-/

namespace ZCourier.Server

open Go Library

/-! ## Both stores side by side -/

/-- What both stores answer to a request for the key, and the tokens they hold afterwards. -/
structure QuotaObservation where
  localAnswer : Except QuotaError QuotaDecision
  redisAnswer : Except RedisQuotaError QuotaDecision
  localTokens : Option Rat
  redisTokens : Option Rat

/-- The requests for the key are sent to both stores, all others to the local one. -/
def observe (store : RedisQuotaStore) (key : LocalQuotaKey) :
    LocalQuotaStore → Option QuotaHash → List QuotaCall → List QuotaObservation
  | _, _, [] => []
  | s, stored, call :: rest =>
    let (answer, after) := s.admitQuota call.env call.request
    if call.request.key = key then
      let (scriptAnswer, storedAfter) :=
        store.runScript call.request (call.env.now / 1000) stored
      ⟨answer, RedisQuotaStore.decision scriptAnswer,
        (after.buckets.get? key).map LocalQuotaBucket.tokens,
        storedAfter.bind fun hash => hash.tokens.join⟩ ::
          observe store key after storedAfter rest
    else observe store key after stored rest

/-- Both stores decide alike and hold the same tokens. -/
def QuotaObservation.Alike (seen : QuotaObservation) : Prop :=
  ∃ decision tokens, (decision = .allowed ∨ decision = .rateLimited) ∧
    seen.localAnswer = .ok decision ∧ seen.redisAnswer = .ok decision ∧
    seen.localTokens = some tokens ∧ seen.redisTokens = some tokens

/-- No request for the key comes the idle time after the one before it, or later. -/
def NoLongGap (idleTTL : Int) (key : LocalQuotaKey) : Option Int → List QuotaCall → Prop
  | _, [] => True
  | last, call :: rest =>
    if call.request.key = key then
      (∀ before, last = some before → call.env.now - before < idleTTL) ∧
        NoLongGap idleTTL key (some call.env.now) rest
    else NoLongGap idleTTL key last rest

/-! ## Arguments of the script -/

theorem ceil_duration_spec {duration unit : Int} (hduration : 0 < duration) (hunit : 0 < unit) :
    duration ≤ unit * ceilDuration duration unit ∧ 0 < ceilDuration duration unit ∧
      (unit ∣ duration → unit * ceilDuration duration unit = duration) := by
  have hsplit := Int.mul_ediv_add_emod duration unit
  have hrest := Int.emod_lt_of_pos duration hunit
  have hnonneg := Int.emod_nonneg duration hunit.ne'
  unfold ceilDuration
  rw [Int.tdiv_eq_ediv_of_nonneg hduration.le, Int.tmod_eq_emod_of_nonneg hduration.le]
  have hquotient : 0 ≤ duration / unit := Int.ediv_nonneg hduration.le hunit.le
  by_cases hwhole : duration % unit = 0
  · have hpositive : 1 ≤ duration / unit := by
      by_contra hzero
      have : duration / unit = 0 := by omega
      rw [this, hwhole] at hsplit
      omega
    simp only [hwhole, ne_eq, not_true_eq_false, if_false, max_eq_left hpositive]
    refine ⟨by linarith, by omega, fun _ => by linarith⟩
  · simp only [hwhole, ne_eq, not_false_eq_true, if_true,
      max_eq_left (show (1 : Int) ≤ duration / unit + 1 by omega)]
    refine ⟨by linarith, by omega, fun hdvd => absurd (Int.emod_eq_zero_of_dvd hdvd) hwhole⟩

section Agreement

variable {config : TokenBucketConfig} {key : LocalQuotaKey} {store : RedisQuotaStore}

/-- The request for the policy and client. -/
def requestFor (config : TokenBucketConfig) (key : LocalQuotaKey) : QuotaRequest :=
  ⟨key.policyName, key.keyScope, key.keyValue, config⟩

theorem script_args_for (hpos : config.Positive) (hmicros : 1000 ∣ config.refillInterval)
    (hidle : 0 < store.idleTTL) :
    ArgsFor config store.idleTTL (store.scriptArgs (requestFor config key)) ∧
      0 < (store.scriptArgs (requestFor config key)).idleTTLMs := by
  obtain ⟨hle, hpositive, -⟩ := ceil_duration_spec hidle (show (0 : Int) < 1000000 by decide)
  refine ⟨⟨rfl, rfl, ?_, hle⟩, hpositive⟩
  exact (ceil_duration_spec hpos.refillInterval (by decide)).2.2 hmicros

/-! ## The relation -/

/-- The bucket and the hash: absent in both, the same in both, or idle for too long. -/
inductive Holding (config : TokenBucketConfig) (key : LocalQuotaKey) (store : RedisQuotaStore)
    (s : LocalQuotaStore) (stored : Option QuotaHash) (now : Int) : Option Int → Prop
  | absent (hbucket : s.buckets.get? key = none) (hstored : stored = none) :
      Holding config key store s stored now none
  | held (b : LocalQuotaBucket) (us : Int) (hbucket : s.buckets.get? key = some b)
      (hkept : b.Kept config now) (hseen : b.lastSeen = 1000 * us)
      (hstored : stored = some ⟨some (some b.tokens), some (some us),
        us / 1000 + (store.scriptArgs (requestFor config key)).idleTTLMs⟩) :
      Holding config key store s stored now (some b.lastSeen)
  | idle (last : Int) (hlong : store.idleTTL ≤ now - last) :
      Holding config key store s stored now (some last)

variable {s : LocalQuotaStore} {stored : Option QuotaHash} {now later : Int} {last : Option Int}

theorem holding_other (h : Holding config key store s stored now last)
    (hidle : s.idleTTL = store.idleTTL) (hlater : now ≤ later) {after : LocalQuotaStore}
    (hafter : after.buckets.get? key = s.buckets.get? key ∨
      after.buckets.get? key = (s.removeIdleBuckets later).buckets.get? key) :
    Holding config key store after stored later last := by
  have hdropped : after.buckets.get? key = s.buckets.get? key ∨
      after.buckets.get? key = none ∧
        ∃ b, s.buckets.get? key = some b ∧ s.idleTTL ≤ later - b.lastSeen := by
    rcases hafter with hsame | hremoved
    · exact .inl hsame
    · rw [hremoved]
      exact s.remove_idle_get? later key
  cases h with
  | absent hbucket hstored =>
    rcases hdropped with hsame | ⟨-, b, hb, -⟩
    · exact .absent (hsame.trans hbucket) hstored
    · rw [hbucket] at hb
      cases hb
  | held b us hbucket hkept hseen hstored =>
    rcases hdropped with hsame | ⟨-, other, hother, hlong⟩
    · exact .held b us (hsame.trans hbucket) (hkept.mono (by exact_mod_cast hlater)) hseen hstored
    · obtain rfl : b = other := Option.some.inj (hbucket.symm.trans hother)
      exact .idle b.lastSeen (hidle ▸ hlong)
  | idle last hlong => exact .idle last (by omega)

theorem holding_before (h : Holding config key store s stored now last)
    (hargs : ArgsFor config store.idleTTL (store.scriptArgs (requestFor config key)))
    (hidle : s.idleTTL = store.idleTTL) {us : Int} (hlater : now ≤ 1000 * us)
    (hgap : ∀ before, last = some before → 1000 * us - before < store.idleTTL) :
    ∃ tokens lastRefillUs,
      (∀ b, (s.removeIdleBuckets (1000 * us)).buckets.get? key = some b →
        b.Kept config ((1000 * us : Int) : Rat)) ∧
      config.held ((s.removeIdleBuckets (1000 * us)).buckets.get? key)
        ((1000 * us : Int) : Rat) = ⟨tokens, ((1000 * lastRefillUs : Int) : Rat)⟩ ∧
      scriptState (store.scriptArgs (requestFor config key)) us (liveHash us stored) =
        .ok (tokens, lastRefillUs) ∧
      tokens ≤ config.capacity ∧ lastRefillUs ≤ us := by
  cases h with
  | absent hbucket hstored =>
    have hfound : (s.removeIdleBuckets (1000 * us)).buckets.get? key = none := by
      rcases s.remove_idle_get? (1000 * us) key with hsame | ⟨hnone, -⟩
      · exact hsame.trans hbucket
      · exact hnone
    rw [hfound, hstored]
    exact ⟨config.capacity, us, by simp, rfl, rfl, le_rfl, le_rfl⟩
  | held b lastUs hbucket hkept hseen hstored =>
    have hrecent := hgap b.lastSeen rfl
    have hfound : (s.removeIdleBuckets (1000 * us)).buckets.get? key = some b := by
      rcases s.remove_idle_get? (1000 * us) key with hsame | ⟨-, other, hother, hlong⟩
      · exact hsame.trans hbucket
      · obtain rfl : b = other := Option.some.inj (hbucket.symm.trans hother)
        omega
    have hkept' : b.Kept config ((1000 * us : Int) : Rat) :=
      hkept.mono (by exact_mod_cast hlater)
    have hpast : b.lastSeen ≤ 1000 * us := by exact_mod_cast hkept'.past
    have hlive : liveHash us stored = stored := by
      have hdeadline : us / 1000 ≤ lastUs / 1000 +
          (store.scriptArgs (requestFor config key)).idleTTLMs := by
        have hlong := hargs.idleTTL
        omega
      rw [hstored]
      simp [liveHash, alive, Option.filter, hdeadline]
    rw [hfound, hlive, hstored]
    refine ⟨b.tokens, lastUs, fun other hother => ?_, ?_, rfl, hkept.valid.le_capacity, by omega⟩
    · obtain rfl : b = other := Option.some.inj hother
      exact hkept'
    · show b.bucket = _
      rw [← hseen, ← hkept.refilled]
      rfl
  | idle before hlong =>
    have hrecent := hgap before rfl
    omega

theorem holding_own (hpos : config.Positive) (hmicros : 1000 ∣ config.refillInterval)
    (hpositive : 0 < store.idleTTL) (h : Holding config key store s stored now last)
    (hidle : s.idleTTL = store.idleTTL) {us : Int} (hlater : now ≤ 1000 * us)
    (hgap : ∀ before, last = some before → 1000 * us - before < store.idleTTL)
    (hroom : (s.admitLocked (1000 * us) (requestFor config key)).1 ≠ .ok .overloaded) :
    ∃ (taken : Bool) (b : LocalQuotaBucket),
      (s.admitLocked (1000 * us) (requestFor config key)).1 =
        .ok (if taken then .allowed else .rateLimited) ∧
      (s.admitLocked (1000 * us) (requestFor config key)).2.buckets.get? key = some b ∧
      (store.runScript (requestFor config key) us stored).1 = .ok (if taken then 1 else 0) ∧
      (store.runScript (requestFor config key) us stored).2.bind (fun hash => hash.tokens.join) =
        some b.tokens ∧
      Holding config key store (s.admitLocked (1000 * us) (requestFor config key)).2
        (store.runScript (requestFor config key) us stored).2 (1000 * us) (some (1000 * us)) := by
  obtain ⟨hargs, hms⟩ := @script_args_for config key store hpos hmicros hpositive
  obtain ⟨tokens, lastUs, hkept, hheld, hstate, htokens, hpast⟩ :=
    holding_before h hargs hidle hlater hgap
  have hscript := script_take hpos hargs hms hstate htokens hpast
  rcases @LocalQuotaStore.admit_own config (1000 * us) s (requestFor config key) rfl hkept with
    ⟨hanswer, -⟩ | ⟨hanswer, after, hafter, hbucket, hseen⟩
  · rw [hanswer] at hroom
    exact absurd rfl hroom
  · obtain ⟨hvalid, hsince⟩ := held_valid hpos hkept
    obtain ⟨htaken, htime, -⟩ := Bucket.level_take (rate_pos hpos).le hvalid hsince
    have hrefill : (after.lastRefill : Rat) = ((1000 * us : Int) : Rat) :=
      (congrArg Bucket.since hbucket).trans htime
    have hkept' : after.Kept config ((1000 * us : Int) : Rat) := by
      refine ⟨hbucket ▸ htaken, ?_, ?_⟩
      · rw [hseen]
        exact_mod_cast hrefill
      · rw [hseen]
    have hsame : (requestFor config key).key = key := rfl
    rw [hsame] at hanswer hafter hbucket
    rw [hheld] at hanswer hbucket
    have htokens' : (config.take ⟨tokens, ((1000 * lastUs : Int) : Rat)⟩
        ((1000 * us : Int) : Rat)).2.tokens = after.tokens :=
      (congrArg Bucket.tokens hbucket).symm
    simp only [htokens'] at hscript
    refine ⟨_, after, hanswer, hafter, ?_, ?_, ?_⟩
    · exact congrArg Prod.fst hscript
    · rw [show (store.runScript (requestFor config key) us stored).2 = _ from
        congrArg Prod.snd hscript]
      rfl
    · have hholding := Holding.held after us hafter hkept' hseen (congrArg Prod.snd hscript)
      rw [hseen] at hholding
      exact hholding

/-! ## Runs -/

theorem valid_request_for (hpos : config.Positive) (hname : key.policyName ≠ [])
    (hscope : key.keyScope ≠ []) (hvalue : key.keyValue ≠ []) :
    validateQuotaRequest (requestFor config key) = none := by
  unfold validateQuotaRequest requestFor
  rw [if_neg hname, if_neg hscope, if_neg hvalue, if_neg (not_le.mpr hpos.capacity),
    if_neg (not_le.mpr hpos.refillTokens), if_neg (not_le.mpr hpos.refillInterval)]

theorem admit_request_for (hpos : config.Positive) (hname : key.policyName ≠ [])
    (hscope : key.keyScope ≠ []) (hvalue : key.keyValue ≠ []) (hkeys : 0 < s.maxKeys)
    (hidle : 0 < s.idleTTL) {env : QuotaEnv} (hctx : env.ctxErr = none) :
    s.admitQuota env (requestFor config key) =
      s.admitLocked env.now (requestFor config key) := by
  unfold LocalQuotaStore.admitQuota
  rw [hctx]
  simp only [if_neg (not_le.mpr hkeys), if_neg (not_le.mpr hidle),
    valid_request_for hpos hname hscope hvalue]

/-- What the run of both stores assumes of the calls. -/
structure Comparable (config : TokenBucketConfig) (key : LocalQuotaKey) (calls : List QuotaCall) :
    Prop where
  ordered : calls.Pairwise fun a b => a.env.now ≤ b.env.now
  own : ∀ call ∈ calls, call.request.key = key →
    call.env.ctxErr = none ∧ call.request.tokenBucket = config ∧ 1000 ∣ call.env.now

theorem Comparable.tail {call : QuotaCall} {rest : List QuotaCall}
    (h : Comparable config key (call :: rest)) : Comparable config key rest :=
  ⟨(List.pairwise_cons.mp h.ordered).2, fun c hc => h.own c (List.mem_cons_of_mem _ hc)⟩

theorem observe_alike (hpos : config.Positive) (hmicros : 1000 ∣ config.refillInterval)
    (hpositive : 0 < store.idleTTL) (hname : key.policyName ≠ []) (hscope : key.keyScope ≠ [])
    (hvalue : key.keyValue ≠ []) {calls : List QuotaCall} (hcalls : Comparable config key calls)
    (hnow : ∀ call ∈ calls, now ≤ call.env.now) (hkeys : 0 < s.maxKeys)
    (hidle : s.idleTTL = store.idleTTL) (h : Holding config key store s stored now last)
    (hgaps : NoLongGap store.idleTTL key last calls)
    (hroom : ∀ seen ∈ observe store key s stored calls, seen.localAnswer ≠ .ok .overloaded) :
    ∀ seen ∈ observe store key s stored calls, seen.Alike := by
  induction calls generalizing s stored now last with
  | nil => simp [observe]
  | cons call rest ih =>
    have hcall := hnow call List.mem_cons_self
    have hrest : ∀ c ∈ rest, call.env.now ≤ c.env.now := (List.pairwise_cons.mp hcalls.ordered).1
    by_cases hkey : call.request.key = key
    · obtain ⟨hctx, hbucket, us, hus⟩ := hcalls.own call List.mem_cons_self hkey
      have hrequest : call.request = requestFor config key := by
        rw [← hkey, ← hbucket]
        rfl
      have hdiv : call.env.now / 1000 = us := by omega
      have hlocked := admit_request_for hpos hname hscope hvalue hkeys (hidle ▸ hpositive) hctx
      simp only [NoLongGap, hkey, if_true] at hgaps
      simp only [observe, if_pos hkey, hdiv] at hroom ⊢
      simp only [hrequest, hlocked, hus] at hroom ⊢
      rw [hus] at hgaps hcall hrest
      obtain ⟨hfirst, hothers⟩ := List.forall_mem_cons.mp hroom
      obtain ⟨taken, b, hlocal, hafter, hredis, htokens, hholding⟩ :=
        holding_own hpos hmicros hpositive h hidle hcall hgaps.1 hfirst
      obtain ⟨hmax, hidle'⟩ := s.admit_locked_settings (1000 * us) (requestFor config key)
      refine List.forall_mem_cons.mpr ⟨?_, ?_⟩
      · refine ⟨if taken then .allowed else .rateLimited, b.tokens, ?_, hlocal, ?_, ?_, htokens⟩
        · cases taken <;> simp
        · rw [hredis]
          cases taken <;> rfl
        · rw [hafter]
          rfl
      · exact ih hcalls.tail hrest (hmax ▸ hkeys) (hidle'.trans hidle) hholding hgaps.2 hothers
    · simp only [NoLongGap, hkey, if_false] at hgaps
      simp only [observe, hkey, if_false] at hroom ⊢
      rcases s.admit_quota_cases call.env call.request with ⟨err, hanswer⟩ | hanswer
      · rw [hanswer] at hroom ⊢
        exact ih hcalls.tail hrest hkeys hidle (holding_other h hidle hcall (.inl rfl)) hgaps hroom
      · obtain ⟨hmax, hidle'⟩ := s.admit_locked_settings call.env.now call.request
        rw [hanswer] at hroom ⊢
        exact ih hcalls.tail hrest (hmax ▸ hkeys) (hidle'.trans hidle)
          (holding_other h hidle hcall (.inr (LocalQuotaStore.admit_other s _ hkey))) hgaps hroom

/-- A local and a Redis store with the same idle time answer the requests for one policy and client
alike and hold the same tokens after each, as long as no gap between them reaches the idle time
and the local store has room. -/
theorem quotas_agree (hpos : config.Positive) (hmicros : 1000 ∣ config.refillInterval)
    {idleTTL maxKeys : Int} (hidle : 0 < idleTTL) (hkeys : 0 < maxKeys)
    (hname : key.policyName ≠ []) (hscope : key.keyScope ≠ []) (hvalue : key.keyValue ≠ [])
    {calls : List QuotaCall} (hcalls : Comparable config key calls)
    (hgaps : NoLongGap idleTTL key none calls)
    (hroom : ∀ seen ∈ observe ⟨false, idleTTL⟩ key (.new maxKeys idleTTL) none calls,
      seen.localAnswer ≠ .ok .overloaded) :
    ∀ seen ∈ observe ⟨false, idleTTL⟩ key (.new maxKeys idleTTL) none calls, seen.Alike := by
  cases calls with
  | nil => simp [observe]
  | cons call rest =>
    have hnow : ∀ c ∈ call :: rest, call.env.now ≤ c.env.now :=
      List.forall_mem_cons.mpr ⟨le_rfl, (List.pairwise_cons.mp hcalls.ordered).1⟩
    exact observe_alike hpos hmicros hidle hname hscope hvalue hcalls hnow hkeys rfl
      (.absent rfl rfl) hgaps hroom

end Agreement

/-- Two tokens and one more each millisecond. -/
def smallBucket : TokenBucketConfig := ⟨2, 1, 1000000⟩

/-- The key of a policy and client. -/
def smallKey : LocalQuotaKey := ⟨ascii "p", ascii "client_id", ascii "c"⟩

/-- A request for the key at a time in microseconds. -/
def smallCall (us : Int) : QuotaCall := ⟨⟨none, 1000 * us⟩, requestFor smallBucket smallKey⟩

theorem quotas_agree_small :
    (observe ⟨false, second⟩ smallKey (.new 1 second) none
      ([0, 1, 2, 1500].map smallCall)).length = 4 ∧
    ∀ seen ∈ observe ⟨false, second⟩ smallKey (.new 1 second) none ([0, 1, 2, 1500].map smallCall),
      seen.Alike := by
  have hpos : smallBucket.Positive := ⟨by decide, by decide, by decide⟩
  refine ⟨rfl, quotas_agree hpos (by decide) (by decide) (by decide) (by decide) (by decide)
    (by decide) ⟨by decide, by decide⟩ ?_ ?_⟩
  · simp [NoLongGap, smallCall, requestFor, QuotaRequest.key, smallKey, second]
  · decide +kernel

end ZCourier.Server
