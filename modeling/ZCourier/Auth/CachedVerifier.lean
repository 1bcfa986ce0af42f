import ZCourier.Downlink.Identity
import ZCourier.Library.Interleaving
import ZCourier.Server.Pipeline

/-!
# The cache of verified tokens

`CachedVerifier` of `internal/auth/cache.go`. A call of `Verify` looks the token's hash up, asks the
delegate if there is no entry that is still valid, and stores what the delegate said. The clock
readings and the delegate's answers are inputs, and calls interleave between these steps.
`cached_grants_bounded` is the result about every execution.
-/

namespace ZCourier.Auth

open Go Library Downlink Server

/-- What `Verify` of a verifier returns: a principal and an error, either of which may be nil. An
error that wraps `ErrInvalidToken` is `invalidToken`. -/
abbrev Verified := Option Principal × Option AuthError

/-- `cacheEntry`. -/
structure CacheEntry where
  principal : Option Principal
  err : Option AuthError
  expiresAt : Int
  sequence : UInt64
  deriving DecidableEq

/-- `CacheConfig`. -/
structure CacheConfig where
  maxEntries : Int
  positiveTTL : Int
  negativeTTL : Int

/-- The settings of a `CachedVerifier`. -/
structure CachedVerifier where
  maxEntries : Int
  positiveTTL : Int
  negativeTTL : Int

/-- The part of a `CachedVerifier` behind its mutex. -/
structure Cache where
  sequence : UInt64
  entries : Table (Prod.fst : Bytes × CacheEntry → Bytes)

/-- The cache of a new verifier. -/
def Cache.empty : Cache := ⟨0, .empty⟩

/-- `NewCachedVerifier` with a delegate. -/
def newCachedVerifier (config : CacheConfig) : Except AuthError CachedVerifier :=
  if config.maxEntries ≤ 0 then .error .misconfigured
  else if config.positiveTTL ≤ 0 then .error .misconfigured
  else if config.negativeTTL ≤ 0 then .error .misconfigured
  else .ok ⟨config.maxEntries, config.positiveTTL, config.negativeTTL⟩

/-- How long a principal stored now may be served. -/
def CachedVerifier.positiveExpiry (v : CachedVerifier) (principal : Principal) (now : Int) : Int :=
  if !isZero principal.expiresAt && principal.expiresAt < now + v.positiveTTL then
    principal.expiresAt
  else now + v.positiveTTL

/-- `newEntry`; its sequence number is not set yet. -/
def CachedVerifier.newEntry (v : CachedVerifier) (verified : Verified) (now : Int) :
    Option CacheEntry :=
  match verified with
  | (some principal, none) =>
    if now < v.positiveExpiry principal now then
      some ⟨some principal, none, v.positiveExpiry principal now, 0⟩
    else none
  | (_, err) =>
    if err = some .invalidToken then
      some ⟨none, some .invalidToken, now + v.negativeTTL, 0⟩
    else none

namespace Cache

/-- `load`. -/
def load (c : Cache) (key : Bytes) (now : Int) : Option CacheEntry × Cache :=
  match c.entries.get? key with
  | none => (none, c)
  | some (_, entry) =>
    if !(now < entry.expiresAt) then (none, { c with entries := c.entries.erase key })
    else (some entry, c)

/-- One turn of the loop of `evictOldest`. -/
def older (found : Option (Bytes × CacheEntry)) (row : Bytes × CacheEntry) :
    Option (Bytes × CacheEntry) :=
  match found with
  | none => some row
  | some best => if row.2.sequence < best.2.sequence then some row else some best

/-- The loop of `evictOldest`: the entry with the least sequence number, the first of them if
there are several. -/
def oldest (rows : List (Bytes × CacheEntry)) : Option (Bytes × CacheEntry) := rows.foldl older none

/-- `evictOldest`. -/
def evictOldest (c : Cache) : Cache :=
  match oldest c.entries.rows with
  | none => c
  | some (key, _) => { c with entries := c.entries.erase key }

/-- `store`. -/
def store (v : CachedVerifier) (c : Cache) (key : Bytes) (verified : Verified) (now : Int) :
    Cache :=
  match v.newEntry verified now with
  | none => c
  | some entry =>
    let c :=
      if (c.entries.get? key).isNone && v.maxEntries ≤ c.entries.rows.length then c.evictOldest
      else c
    let sequence := c.sequence + 1
    { sequence, entries := c.entries.put (key, { entry with sequence }) }

end Cache

/-! ## The code -/

/-- What `Verify` does outside its own variables. -/
inductive CacheEffect where
  | clock
  | load (key : Bytes) (now : Int)
  | delegate (token : GoString)
  | store (key : Bytes) (verified : Verified) (now : Int)

abbrev CacheEffect.Response : CacheEffect → Type
  | .clock => Int
  | .load .. => Option CacheEntry
  | .delegate _ => Verified
  | .store .. => Unit

abbrev CacheCode := Prog CacheEffect CacheEffect.Response

namespace CacheCode

/-- `v.clock()`. -/
def clock : CacheCode Int := .call CacheEffect.clock

/-- `v.load`. -/
def load (key : Bytes) (now : Int) : CacheCode (Option CacheEntry) :=
  .call (CacheEffect.load key now)

/-- `v.delegate.Verify`. -/
def delegate (token : GoString) : CacheCode Verified := .call (CacheEffect.delegate token)

/-- `v.store`. -/
def store (key : Bytes) (verified : Verified) (now : Int) : CacheCode Unit :=
  .call (CacheEffect.store key verified now)

end CacheCode

def CacheEntry.served (entry : CacheEntry) : Verified :=
  match entry.err with
  | some err => (none, some err)
  | none => (entry.principal, none)

section Verify

variable [Sha256]

/-- `Verify`. -/
def verify (token : GoString) : CacheCode Verified := do
  let key := Sha256.sum256 token
  let now ← CacheCode.clock
  match ← CacheCode.load key now with
  | some entry => return entry.served
  | none =>
    let verified ← CacheCode.delegate token
    let now ← CacheCode.clock
    CacheCode.store key verified now
    return verified

/-- What the surroundings supply to one step: a clock reading, and the delegate's answer. -/
structure CacheInput where
  now : Int
  verified : Verified

/-- What an effect does to the cache. -/
def Cache.perform (v : CachedVerifier) (input : CacheInput) (c : Cache) :
    (effect : CacheEffect) → effect.Response × Cache
  | .clock => (input.now, c)
  | .load key now => c.load key now
  | .delegate _ => (input.verified, c)
  | .store key verified now => ((), c.store v key verified now)

/-- Any number of calls of `Verify`, each for its token. -/
def verifications (v : CachedVerifier) :
    System Cache GoString CacheEffect CacheEffect.Response CacheInput Verified where
  body := verify
  start _ c := some c
  exec effect input c := some (c.perform v input effect)

end Verify

abbrev CacheEvent := Event CacheEffect CacheEffect.Response

abbrev CacheStep := Transition Cache GoString CacheEffect CacheEffect.Response CacheInput Verified

abbrev CacheCalls := Config Cache GoString CacheEffect CacheEffect.Response Verified

theorem newCachedVerifier_ok {config : CacheConfig} {v : CachedVerifier}
    (h : newCachedVerifier config = .ok v) :
    0 < config.maxEntries ∧ v = ⟨config.maxEntries, config.positiveTTL, config.negativeTTL⟩ := by
  unfold newCachedVerifier at h
  split at h
  · cases h
  · next hmax =>
    split at h
    · cases h
    · split at h
      · cases h
      · cases h
        exact ⟨Int.not_le.mp hmax, rfl⟩

/-! ## The size of the cache -/

namespace Cache

variable {c : Cache} {v : CachedVerifier}

theorem foldl_older_mem (first : Bytes × CacheEntry) (rows : List (Bytes × CacheEntry)) :
    ∃ row ∈ first :: rows, rows.foldl older (some first) = some row := by
  induction rows generalizing first with
  | nil => exact ⟨first, List.mem_singleton_self _, rfl⟩
  | cons row rows ih =>
    by_cases hless : row.2.sequence < first.2.sequence
    · obtain ⟨found, hmem, hfound⟩ := ih row
      refine ⟨found, List.mem_cons_of_mem _ hmem, ?_⟩
      rw [List.foldl_cons, older, if_pos hless, hfound]
    · obtain ⟨found, hmem, hfound⟩ := ih first
      refine ⟨found, ?_, ?_⟩
      · exact List.mem_cons.mpr ((List.mem_cons.mp hmem).imp_right (List.mem_cons_of_mem _))
      · rw [List.foldl_cons, older, if_neg hless, hfound]

theorem length_evictOldest_lt (h : c.entries.rows ≠ []) :
    c.evictOldest.entries.rows.length < c.entries.rows.length := by
  obtain ⟨row, hmem, hrow⟩ : ∃ row ∈ c.entries.rows, oldest c.entries.rows = some row := by
    unfold oldest
    cases hrows : c.entries.rows with
    | nil => exact absurd hrows h
    | cons first rows => exact foldl_older_mem first rows
  have hkey : row.1 ∈ c.entries.rows.map Prod.fst := List.mem_map_of_mem hmem
  simpa only [evictOldest, hrow] using Table.length_erase_lt hkey

theorem mem_of_mem_evictOldest {row : Bytes × CacheEntry} (h : row ∈ c.evictOldest.entries.rows) :
    row ∈ c.entries.rows := by
  unfold evictOldest at h
  split at h
  · exact h
  · exact List.mem_of_mem_filter h

theorem length_load_le (key : Bytes) (now : Int) :
    (c.load key now).2.entries.rows.length ≤ c.entries.rows.length := by
  unfold load
  split
  · exact Nat.le_refl _
  · split
    · exact List.length_filter_le ..
    · exact Nat.le_refl _

theorem length_store_le (hmax : 0 < v.maxEntries) (h : c.entries.rows.length ≤ v.maxEntries)
    (key : Bytes) (verified : Verified) (now : Int) :
    (c.store v key verified now).entries.rows.length ≤ v.maxEntries := by
  unfold store
  cases v.newEntry verified now with
  | none => exact h
  | some entry =>
    simp only
    split
    · next hfull =>
      simp only [Bool.and_eq_true, decide_eq_true_eq] at hfull
      have hrows : c.entries.rows ≠ [] := by
        intro hnil
        rw [hnil] at hfull
        exact absurd hfull.2 (by simpa using hmax)
      have hlt := length_evictOldest_lt hrows
      have hput := Table.length_put_le (t := c.evictOldest.entries)
        (a := (key, { entry with sequence := c.evictOldest.sequence + 1 }))
      omega
    · next hroom =>
      simp only [Bool.and_eq_true, decide_eq_true_eq, not_and, Int.not_le] at hroom
      have hput := Table.length_put_le (t := c.entries)
        (a := (key, { entry with sequence := c.sequence + 1 }))
      cases hget : c.entries.get? key with
      | none =>
        have hlt := hroom (by rw [hget]; rfl)
        omega
      | some row =>
        obtain ⟨hmem, hkey⟩ := Table.get?_eq_some.mp hget
        have hkeys : key ∈ c.entries.rows.map Prod.fst := hkey ▸ List.mem_map_of_mem hmem
        have hsame := Table.length_put_of_mem (t := c.entries)
          (a := (key, { entry with sequence := c.sequence + 1 })) hkeys
        omega

end Cache

/-! ## What entries stand for -/

/-- An entry carries what the delegate said, and how long it may be served. -/
inductive Grants (v : CachedVerifier) (t₀ : Int) : Verified → CacheEntry → Prop where
  | positive {principal : Principal} {entry : CacheEntry} :
      entry.served = (some principal, none) → entry.expiresAt ≤ t₀ + v.positiveTTL →
      (principal.expiresAt ≠ 0 → entry.expiresAt ≤ principal.expiresAt) →
      Grants v t₀ (some principal, none) entry
  | negative {principal : Option Principal} {entry : CacheEntry} :
      entry.served = (none, some .invalidToken) → entry.expiresAt = t₀ + v.negativeTTL →
      Grants v t₀ (principal, some .invalidToken) entry

theorem positiveExpiry_le (v : CachedVerifier) (principal : Principal) (now : Int) :
    v.positiveExpiry principal now ≤ now + v.positiveTTL ∧
      (principal.expiresAt ≠ 0 → v.positiveExpiry principal now ≤ principal.expiresAt) := by
  unfold CachedVerifier.positiveExpiry
  split
  · next hcapped =>
    simp only [Bool.and_eq_true, decide_eq_true_eq] at hcapped
    exact ⟨Int.le_of_lt hcapped.2, fun _ => Int.le_refl _⟩
  · next hfree =>
    simp only [Bool.and_eq_true, Bool.not_eq_true', isZero_eq_false, decide_eq_true_eq, not_and,
      Int.not_lt] at hfree
    exact ⟨Int.le_refl _, hfree⟩

theorem newEntry_grants {v : CachedVerifier} {verified : Verified} {now : Int} {entry : CacheEntry}
    (h : v.newEntry verified now = some entry) (sequence : UInt64) :
    Grants v now verified { entry with sequence } := by
  unfold CachedVerifier.newEntry at h
  split at h
  · next principal =>
    split at h
    · cases h
      obtain ⟨httl, hexpiry⟩ := positiveExpiry_le v principal now
      exact .positive rfl httl hexpiry
    · cases h
  · split at h
    · next herr =>
      cases h
      subst herr
      exact .negative rfl rfl
    · cases h

theorem Cache.mem_store {v : CachedVerifier} {c : Cache} {key : Bytes} {verified : Verified}
    {now : Int} {row : Bytes × CacheEntry}
    (h : row ∈ (c.store v key verified now).entries.rows) :
    row ∈ c.entries.rows ∨ row.1 = key ∧ Grants v now verified row.2 := by
  unfold store at h
  cases hentry : v.newEntry verified now with
  | none =>
    rw [hentry] at h
    exact .inl h
  | some entry =>
    simp only [hentry] at h
    rcases Table.mem_put.mp h with rfl | ⟨hmem, -⟩
    · exact .inr ⟨rfl, newEntry_grants hentry _⟩
    · refine .inl ?_
      split at hmem
      · exact mem_of_mem_evictOldest hmem
      · exact hmem

theorem Cache.mem_load {c : Cache} {key : Bytes} {now : Int} {row : Bytes × CacheEntry}
    (h : row ∈ (c.load key now).2.entries.rows) : row ∈ c.entries.rows := by
  unfold load at h
  split at h
  · exact h
  · split at h
    · exact List.mem_of_mem_filter h
    · exact h

theorem Cache.load_some {c : Cache} {key : Bytes} {now : Int} {entry : CacheEntry}
    (h : (c.load key now).1 = some entry) :
    (key, entry) ∈ c.entries.rows ∧ now < entry.expiresAt := by
  unfold load at h
  split at h
  · cases h
  · next key' entry' hget =>
    obtain ⟨hmem, rfl⟩ := Table.get?_eq_some.mp hget
    split at h
    · cases h
    · next hvalid =>
      cases h
      exact ⟨hmem, by simpa using hvalid⟩

/-! ## Every execution -/

section Runs

variable [Sha256]

/-- The steps before a call stores what the delegate said. -/
def storeLog (token : GoString) (now₀ : Int) (verified : Verified) (t₀ : Int) : List CacheEvent :=
  [⟨.clock, now₀⟩, ⟨.load (Sha256.sum256 token) now₀, none⟩, ⟨.delegate token, verified⟩,
    ⟨.clock, t₀⟩]

/-- The entries a call has been given. -/
def hits (log : List CacheEvent) : List CacheEntry :=
  log.filterMap fun
    | ⟨.load .., found⟩ => found
    | _ => none

/-- What a call does up to its load, and when it stores. It does nothing after a hit. -/
def CacheAllowed (token : GoString) (log : List CacheEvent) : CacheEffect → Prop
  | .load key now => log = [⟨.clock, now⟩] ∧ key = Sha256.sum256 token
  | .store key verified now =>
    key = Sha256.sum256 token ∧ ∃ now₀, log = storeLog token now₀ verified now
  | _ => hits log = []

/-- A call that is given an entry returns it. -/
def CacheReturns (value : Verified) (log : List CacheEvent) : Prop :=
  ∀ entry ∈ hits log, value = entry.served

theorem verify_meets (token : GoString) :
    (verify token).Meets (.protocol (CacheAllowed token) fun _ _ => True) CacheReturns [] := by
  refine Prog.Meets.call_bind rfl fun now _ => ?_
  refine Prog.Meets.call_bind ⟨rfl, rfl⟩ fun found _ => ?_
  cases found with
  | some entry =>
    intro found hfound
    rw [List.mem_singleton.mp hfound]
  | none =>
    refine Prog.Meets.call_bind rfl fun verified _ => ?_
    refine Prog.Meets.call_bind rfl fun now _ => ?_
    refine Prog.Meets.call_bind ⟨rfl, _, rfl⟩ fun _ _ => ?_
    exact fun found hfound => absurd hfound List.not_mem_nil

variable {v : CachedVerifier} {history : List CacheStep} {after : CacheCalls}

/-- A step in which a call stores what the delegate has told it about its token. -/
def StoredBy (v : CachedVerifier) (s : CacheStep) (token : GoString) (verified : Verified)
    (t₀ : Int) : Prop :=
  ∃ i now₀, s.Performs (verifications v) i token (storeLog token now₀ verified t₀)
    ⟨.store (Sha256.sum256 token) verified t₀, ()⟩

/-- A step in which an entry of the cache is stored. -/
def GrantedBy (v : CachedVerifier) (s : CacheStep) (row : Bytes × CacheEntry) : Prop :=
  ∃ token verified t₀, row.1 = Sha256.sum256 token ∧ StoredBy v s token verified t₀ ∧
    Grants v t₀ verified row.2

theorem entries_granted (h : Run (verifications v) (fun _ => True) (.idle .empty) history after)
    {row : Bytes × CacheEntry} (hrow : row ∈ after.state.entries.rows) :
    ∃ s ∈ history, GrantedBy v s row := by
  refine (h.provenance (fun c row => row ∈ c.entries.rows) (GrantedBy v)
    (fun hbefore hstep row hrow => ?_) hrow).resolve_left List.not_mem_nil
  cases hstep with
  | start hstart => exact .inl (Option.some.inj hstart ▸ hrow)
  | @act i input token log effect next response c' hthread hexec =>
    obtain ⟨-, rfl⟩ := Prod.mk.inj (Option.some.inj hexec)
    cases effect with
    | load key now => exact .inl (Cache.mem_load hrow)
    | store key verified now =>
      refine (Cache.mem_store hrow).imp_right ?_
      rintro ⟨hkey, hgrants⟩
      obtain ⟨rfl, now₀, rfl⟩ := (hbefore.follows verify_meets).next_allowed hthread
      exact ⟨token, verified, now, hkey, ⟨i, now₀, input, next, rfl, hthread, hexec⟩, hgrants⟩
    | _ => exact .inl hrow

theorem entries_bounded (hmax : 0 < v.maxEntries)
    (h : Run (verifications v) (fun _ => True) (.idle .empty) history after) :
    after.state.entries.rows.length ≤ v.maxEntries := by
  refine h.invariant (fun config => (config.state.entries.rows.length : Int) ≤ v.maxEntries)
    (Int.le_of_lt hmax) ?_
  intro before choice after hbefore hstep _
  cases hstep with
  | start hstart => exact Option.some.inj hstart ▸ hbefore
  | @act i input token log effect next response c' hthread hexec =>
    obtain ⟨-, rfl⟩ := Prod.mk.inj (Option.some.inj hexec)
    cases effect with
    | load key now =>
      exact Int.le_trans (Int.ofNat_le.mpr (Cache.length_load_le key now)) hbefore
    | store key verified now => exact Cache.length_store_le hmax hbefore key verified now
    | _ => exact hbefore

theorem load_returns {t : CacheStep}
    (h : Run (verifications v) (fun _ => True) (.idle .empty) history t.before)
    (hstep : Step (verifications v) t.before t.choice t.after) {i : Nat} {token : GoString}
    {log : List CacheEvent} {key : Bytes} {now : Int} {entry : CacheEntry}
    (hperforms : t.Performs (verifications v) i token log ⟨.load key now, some entry⟩) :
    log = [⟨.clock, now⟩] ∧ key = Sha256.sum256 token ∧
      t.after.threads[i]? =
        some ⟨token, log ++ [⟨.load key now, some entry⟩], .ret entry.served⟩ := by
  have hfollows := h.follows verify_meets
  obtain ⟨next, hbefore, hafter⟩ := hstep.performs_next hperforms
  obtain ⟨rfl, rfl⟩ := hfollows.next_allowed hbefore
  refine ⟨rfl, rfl, hafter.trans ?_⟩
  have hnext := (hfollows _ (List.mem_of_getElem? hbefore)).2 (some entry) _ ⟨trivial, rfl⟩
  cases hprog : next (some entry) with
  | ret value =>
    rw [hprog] at hnext
    have hvalue : value = entry.served := hnext entry (List.mem_singleton_self entry)
    rw [hvalue]
  | perform effect rest =>
    rw [hprog] at hnext
    cases effect with
    | load key' now' => cases hnext.1.1
    | store key' verified now' =>
      obtain ⟨-, now₀, hlog⟩ := hnext.1
      cases hlog
    | _ => cases hnext.1

/-- Cached authentication never outlives its grant. In every execution of calls of `Verify`, what a
call is served from the cache at a reading `now` was stored by an earlier call for the same token:
a principal the delegate had returned, less than `positiveTTL` before and before its expiry, or
`ErrInvalidToken` that the delegate had returned less than `negativeTTL` before. The cache never
has more than `maxEntries` entries. No two of the tokens have the same hash. -/
theorem cached_grants_bounded {config : CacheConfig} (hnew : newCachedVerifier config = .ok v)
    (h : Run (verifications v) (fun _ => True) (.idle .empty) history after)
    (hcollision : ∀ thread ∈ after.threads, ∀ thread' ∈ after.threads,
      Sha256.sum256 thread.tag = Sha256.sum256 thread'.tag → thread.tag = thread'.tag) :
    (∀ front t back, history = front ++ t :: back → ∀ i token log key now entry,
      t.Performs (verifications v) i token log ⟨.load key now, some entry⟩ →
      log = [⟨.clock, now⟩] ∧
      ∃ served, t.after.threads[i]? =
          some ⟨token, log ++ [⟨.load key now, some entry⟩], .ret served⟩ ∧
        ((∃ principal, served = (some principal, none) ∧
            ∃ s ∈ front, ∃ t₀, StoredBy v s token (some principal, none) t₀ ∧
              now < t₀ + config.positiveTTL ∧
              (isZero principal.expiresAt = false → now < principal.expiresAt)) ∨
          served = (none, some .invalidToken) ∧
            ∃ s ∈ front, ∃ principal t₀, StoredBy v s token (principal, some .invalidToken) t₀ ∧
              now < t₀ + config.negativeTTL)) ∧
    after.state.entries.rows.length ≤ config.maxEntries := by
  obtain ⟨hmax, rfl⟩ := newCachedVerifier_ok hnew
  refine ⟨?_, entries_bounded hmax h⟩
  intro front t back hhistory i token log key now entry hperforms
  obtain ⟨hrun, hstep⟩ := h.split hhistory
  obtain ⟨rfl, rfl, hreturned⟩ := load_returns hrun hstep hperforms
  refine ⟨rfl, entry.served, hreturned, ?_⟩
  have ht : t ∈ history := hhistory ▸ List.mem_append_right _ List.mem_cons_self
  -- the entry in the cache, and the call it comes from
  have hread := hperforms
  obtain ⟨input, next, -, -, hexec⟩ := hread
  obtain ⟨hmem, hvalid⟩ := Cache.load_some (congrArg Prod.fst (Option.some.inj hexec))
  obtain ⟨s, hs, token', verified, t₀, hkey, hstored, hgrants⟩ := entries_granted hrun hmem
  obtain rfl : token' = token := by
    obtain ⟨j, now₀, hperforms'⟩ := hstored
    obtain ⟨thread, hthread, rfl⟩ := h.performs_tag ht hperforms
    obtain ⟨thread', hthread', rfl⟩ :=
      h.performs_tag (hhistory ▸ List.mem_append_left _ hs) hperforms'
    exact hcollision thread' (List.mem_of_getElem? hthread') thread (List.mem_of_getElem? hthread)
      hkey.symm
  cases hgrants with
  | positive hserved httl hexpiry =>
    refine .inl ⟨_, hserved, s, hs, t₀, hstored, ?_, fun hexpires => ?_⟩
    · exact Int.lt_of_lt_of_le hvalid httl
    · exact Int.lt_of_lt_of_le hvalid (hexpiry (isZero_eq_false.mp hexpires))
  | negative hserved httl =>
    refine .inr ⟨hserved, s, hs, _, t₀, hstored, ?_⟩
    exact httl ▸ hvalid

end Runs

/-- Two calls for one token: the first asks the delegate, the second is served from the cache. -/
def askedOnce : List (Choice GoString CacheInput) :=
  let granted : CacheInput := ⟨100, (some ⟨ascii "c", ascii "t", [], [], 105⟩, none)⟩
  .start (ascii "token") :: Choice.turns 0 5 granted ++
    .start (ascii "token") :: Choice.turns 1 2 ⟨104, (none, some .invalidToken)⟩

/-- The tokens of the calls with what they were served from the cache. -/
def servedHits (config : CacheCalls) : List (GoString × List CacheEntry) :=
  config.threads.map fun thread => (thread.tag, hits thread.log)

theorem cached_grants_bounded_twice :
    ∃ v history after, newCachedVerifier ⟨1, 10, 5⟩ = .ok v ∧
      Run (@verifications .polynomial v) (fun _ => True) (.idle .empty) history after ∧
      servedHits after = [(ascii "token", []), (ascii "token",
        [⟨some ⟨ascii "c", ascii "t", [], [], 105⟩, none, 105, 1⟩])] ∧
      after.state.entries.rows.length ≤ (1 : Int) := by
  have hreplay : ((@verifications .polynomial ⟨1, 10, 5⟩).replay (.idle .empty) askedOnce).map
      servedHits = some [(ascii "token", []), (ascii "token",
        [⟨some ⟨ascii "c", ascii "t", [], [], 105⟩, none, 105, 1⟩])] := by decide +kernel
  obtain ⟨after, hafter, hserved⟩ := Option.map_eq_some_iff.mp hreplay
  obtain ⟨history, hrun⟩ := System.replay_run (fun _ => True) hafter fun _ _ => trivial
  have htags : ∀ thread ∈ after.threads, thread.tag = ascii "token" := by
    intro thread hthread
    have hmem : (thread.tag, hits thread.log) ∈ servedHits after := List.mem_map_of_mem hthread
    rw [hserved] at hmem
    rcases List.mem_cons.mp hmem with heq | hmem
    · exact congrArg Prod.fst heq
    · exact congrArg Prod.fst (List.mem_singleton.mp hmem)
  refine ⟨_, history, after, rfl, hrun, hserved, ?_⟩
  refine (@cached_grants_bounded .polynomial _ _ _ ⟨1, 10, 5⟩ rfl hrun ?_).2
  exact fun thread hthread thread' hthread' _ =>
    (htags thread hthread).trans (htags thread' hthread').symm

end ZCourier.Auth
