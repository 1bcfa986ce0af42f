import ZCourier.Library.Interleaving
import ZCourier.Server.Pipeline

/-!
# Missing keys of the JWT verifier

`JWTVerifier` of `internal/auth/jwt.go`: a call of `Verify` that does not find the key of its token
waits for a forced refresh, unless one is under way or was forced less than a second ago; then it
returns the error of the last refresh. Calls, refreshes and the ends of contexts interleave at every
lock, snapshot and fetch. What `golang-jwt` makes of a token and the decoding of a key set are
parameters. `cancellation_is_own` is the result, `other_cancellation_returned` what it excludes.
-/

namespace ZCourier.Auth

open Go Library Server

/-! ## Tokens and keys -/

/-- `jwtVerificationKey`; the key itself is any data. -/
structure JwtVerificationKey where
  key : Bytes
  algorithm : GoString
  keyType : GoString
  curve : GoString

abbrev JwtKeys := Table (Prod.fst : GoString × JwtVerificationKey → GoString)

/-- `jwtHeader`. -/
structure JwtHeader where
  algorithm : GoString
  keyID : GoString

/-- Why `ParseWithClaims` fails. -/
inductive JwtParseError where
  | tokenExpired
  | other

/-- What the JWT library makes of a token: its algorithm and key id before it is verified, and the
principal in its claims, if there is a complete one, when it is valid under a key at some time. -/
class JwtLibrary where
  parseUnverified : GoString → Option (GoString × Option GoString)
  parseWithClaims : GoString → Bytes → Int → Except JwtParseError (Option Principal)

/-- A library for evaluation: the key id is the token, and no token is valid. -/
@[reducible] def JwtLibrary.plain : JwtLibrary where
  parseUnverified token := some (ascii "RS256", some token)
  parseWithClaims _ _ _ := .error .other

/-- The errors of `Verify`. -/
inductive JwtError where
  | context (err : ContextError)
  | auth (err : AuthError)
  deriving DecidableEq

/-- The error as the handlers see it: none of the errors of `auth` is a context's. -/
def JwtError.toAuthError : JwtError → AuthError
  | .context _ => .other
  | .auth err => err

/-- The errors of `fetchJWKS`, as far as they are told apart. -/
inductive FetchError where
  | canceled
  | deadlineExceeded
  | netTimeout
  | other

/-- `classifyJWKSFetchError`. -/
def classifyJWKSFetchError : FetchError → JwtError
  | .canceled => .context .canceled
  | .deadlineExceeded => .auth .providerTimeout
  | .netTimeout => .auth .providerTimeout
  | .other => .auth .providerUnavailable

/-- `classifyJWTError`. -/
def classifyJWTError : JwtParseError → JwtError
  | .tokenExpired => .auth .expiredToken
  | .other => .auth .invalidToken

/-- `keyForAlgorithm`. -/
def keyForAlgorithm (key : JwtVerificationKey) (algorithm : GoString) : Option Bytes :=
  let rsa := ["RS256", "RS384", "RS512", "PS256", "PS384", "PS512"].map ascii
  if key.algorithm ≠ [] && key.algorithm ≠ algorithm then none
  else if rsa.contains algorithm then
    if key.keyType ≠ ascii "RSA" then none else some key.key
  else if algorithm = ascii "ES256" then
    if key.keyType ≠ ascii "EC" || key.curve ≠ ascii "P-256" then none else some key.key
  else if algorithm = ascii "ES384" then
    if key.keyType ≠ ascii "EC" || key.curve ≠ ascii "P-384" then none else some key.key
  else if algorithm = ascii "ES512" then
    if key.keyType ≠ ascii "EC" || key.curve ≠ ascii "P-521" then none else some key.key
  else if algorithm = ascii "EdDSA" then
    if key.keyType ≠ ascii "OKP" || key.curve ≠ ascii "Ed25519" then none else some key.key
  else none

/-- `defaultJWTMaxTokenSize`. -/
def defaultJWTMaxTokenSize : Nat := 65536

/-- `defaultJWKSRefreshCooldown`. -/
def defaultJWKSRefreshCooldown : Int := second

/-! ## The verifier -/

/-- The part of a `JWTVerifier` that changes, and the contexts that have ended. -/
structure JwtState where
  keys : JwtKeys
  refreshVersion : UInt64
  lastRefreshError : Option JwtError
  refreshMu : Bool
  lastForcedRefresh : Int
  ended : Table (Prod.fst : Nat × ContextError → Nat)

/-- What `keySnapshot` returns. -/
structure KeySnapshot where
  keys : JwtKeys
  refreshVersion : UInt64
  lastRefreshError : Option JwtError

/-- What the code does outside its own variables; a context is given by its number, and `none` is
one that never ends. -/
inductive JwtEffect where
  | contextErr (ctx : Nat)
  | keySnapshot
  | lockRefresh
  | unlockRefresh
  | sinceForcedRefresh
  | setForcedRefresh
  | startFetch (ctx : Option Nat)
  | awaitFetch (ctx : Option Nat)
  | storeFetch (fetched : Except FetchError JwtKeys)
  | clock

abbrev JwtEffect.Response : JwtEffect → Type
  | .contextErr _ => Option ContextError
  | .keySnapshot => KeySnapshot
  | .sinceForcedRefresh => Int
  | .startFetch _ => Option ContextError
  | .awaitFetch _ => Except FetchError JwtKeys
  | .clock => Int
  | _ => Unit

abbrev JwtCode := Prog JwtEffect JwtEffect.Response

namespace JwtCode

/-- `ctx.Err`. -/
def contextErr (ctx : Nat) : JwtCode (Option ContextError) := .call (JwtEffect.contextErr ctx)

/-- `keySnapshot`. -/
def keySnapshot : JwtCode KeySnapshot := .call JwtEffect.keySnapshot

/-- `refreshMu.Lock`. -/
def lockRefresh : JwtCode Unit := .call JwtEffect.lockRefresh

/-- `refreshMu.Unlock`. -/
def unlockRefresh : JwtCode Unit := .call JwtEffect.unlockRefresh

/-- `time.Since(v.lastForcedRefresh)`. -/
def sinceForcedRefresh : JwtCode Int := .call JwtEffect.sinceForcedRefresh

/-- `v.lastForcedRefresh = time.Now()`. -/
def setForcedRefresh : JwtCode Unit := .call JwtEffect.setForcedRefresh

/-- The context of a fetch that is about to be made. -/
def startFetch (ctx : Option Nat) : JwtCode (Option ContextError) :=
  .call (JwtEffect.startFetch ctx)

/-- What a fetch gives in the end. -/
def awaitFetch (ctx : Option Nat) : JwtCode (Except FetchError JwtKeys) :=
  .call (JwtEffect.awaitFetch ctx)

/-- The part of `fetchAndStore` under `keysMu`. -/
def storeFetch (fetched : Except FetchError JwtKeys) : JwtCode Unit :=
  .call (JwtEffect.storeFetch fetched)

/-- The parser's clock. -/
def clock : JwtCode Int := .call JwtEffect.clock

/-- `fetchJWKS`. A fetch with a context that has ended fails with the context's error. -/
def fetchJWKS (ctx : Option Nat) : JwtCode (Except FetchError JwtKeys) := do
  match ← startFetch ctx with
  | some .canceled => return .error .canceled
  | some .deadlineExceeded => return .error .deadlineExceeded
  | none => awaitFetch ctx

/-- The error `fetchAndStore` keeps and returns. -/
def classified : Except FetchError JwtKeys → Option JwtError
  | .ok _ => none
  | .error err => some (classifyJWKSFetchError err)

/-- `fetchAndStore`. -/
def fetchAndStore (ctx : Option Nat) : JwtCode (Option JwtError) := do
  let fetched ← fetchJWKS ctx
  storeFetch fetched
  return classified fetched

/-- `refresh`. -/
def refresh (ctx : Option Nat) : JwtCode (Option JwtError) := do
  lockRefresh
  let err ← fetchAndStore ctx
  unlockRefresh
  return err

/-- `refreshMissingKey` with the lock held. -/
def refreshLocked (ctx : Nat) (keyID : GoString) (observedVersion : UInt64) :
    JwtCode (Option JwtError) := do
  let current ← keySnapshot
  if current.refreshVersion ≠ observedVersion then
    if (current.keys.get? keyID).isSome then return none else return current.lastRefreshError
  else
    let since ← sinceForcedRefresh
    if since < defaultJWKSRefreshCooldown then return current.lastRefreshError
    else
      setForcedRefresh
      fetchAndStore (some ctx)

/-- `refreshMissingKey`. -/
def refreshMissingKey (ctx : Nat) (keyID : GoString) (observedVersion : UInt64) :
    JwtCode (Option JwtError) := do
  lockRefresh
  let err ← refreshLocked ctx keyID observedVersion
  unlockRefresh
  return err

end JwtCode

/-- What `Verify` returns. -/
abbrev JwtVerified := Except JwtError Principal

section Verify

variable [JwtLibrary]

/-- `parseHeader`, for the accepted algorithms. -/
def parseHeader (algorithms : List GoString) (token : GoString) : Option JwtHeader :=
  match JwtLibrary.parseUnverified token with
  | some (algorithm, some keyID) =>
    if !algorithms.contains algorithm || trimSpace keyID = [] then none
    else some ⟨algorithm, keyID⟩
  | _ => none

/-- `Verify` once the keys hold the key of the token. -/
def verifyWith (ctx : Nat) (token : GoString) (header : JwtHeader) (key : JwtVerificationKey) :
    JwtCode JwtVerified := do
  match keyForAlgorithm key header.algorithm with
  | none => return .error (.auth .invalidToken)
  | some key =>
    let now ← JwtCode.clock
    match JwtLibrary.parseWithClaims token key now with
    | .error err => return .error (classifyJWTError err)
    | .ok principal =>
      match ← JwtCode.contextErr ctx with
      | some err => return .error (.context err)
      | none =>
        match principal with
        | none => return .error (.auth .invalidToken)
        | some principal => return .ok principal

/-- `Verify`, for the accepted algorithms. -/
def verifyJwt (algorithms : List GoString) (ctx : Nat) (token : GoString) :
    JwtCode JwtVerified := do
  if token = [] || defaultJWTMaxTokenSize < token.length || token.count 0x2E ≠ 2 then
    return .error (.auth .invalidToken)
  else
    match ← JwtCode.contextErr ctx with
    | some err => return .error (.context err)
    | none =>
      match parseHeader algorithms token with
      | none => return .error (.auth .invalidToken)
      | some header =>
        let observed ← JwtCode.keySnapshot
        match observed.keys.get? header.keyID with
        | some (_, key) => verifyWith ctx token header key
        | none =>
          match ← JwtCode.refreshMissingKey ctx header.keyID observed.refreshVersion with
          | some err => return .error err
          | none =>
            let refreshed ← JwtCode.keySnapshot
            match refreshed.keys.get? header.keyID with
            | none => return .error (.auth .invalidToken)
            | some (_, key) => verifyWith ctx token header key

/-- What can be started: a call of `Verify`, a periodic refresh, and the end of a context, which is
over as soon as it has happened. -/
inductive JwtCall where
  | verify (ctx : Nat) (token : GoString)
  | refresh
  | endContext (ctx : Nat) (err : ContextError)
  deriving DecidableEq

/-- What an activity returns. -/
inductive JwtOutcome where
  | verified (result : JwtVerified)
  | done
  deriving DecidableEq

def JwtCall.code (algorithms : List GoString) : JwtCall → JwtCode JwtOutcome
  | .verify ctx token => do return .verified (← verifyJwt algorithms ctx token)
  | .refresh => do
      let _ ← JwtCode.refresh none
      return .done
  | .endContext .. => return .done

/-- What the surroundings supply to one step: a clock reading and what a fetch gives. -/
structure JwtInput where
  now : Int
  fetched : Except FetchError JwtKeys

namespace JwtState

/-- The state of a verifier after its first refresh. -/
def new (keys : JwtKeys) : JwtState := ⟨keys, 1, none, false, 0, .empty⟩

def contextErr (s : JwtState) (ctx : Nat) : Option ContextError :=
  (s.ended.get? ctx).map Prod.snd

/-- The error of a context that may be one that never ends. -/
def fetchErr (s : JwtState) : Option Nat → Option ContextError
  | none => none
  | some ctx => s.contextErr ctx

def endContext (s : JwtState) (ctx : Nat) (err : ContextError) : JwtState :=
  if (s.ended.get? ctx).isSome then s else { s with ended := s.ended.put (ctx, err) }

/-- What an effect does. A taken lock has to be waited for, and a fetch fails with
`context.Canceled` only if its context was cancelled. -/
def exec (s : JwtState) (input : JwtInput) : (effect : JwtEffect) →
    Option (effect.Response × JwtState)
  | .contextErr ctx => some (s.contextErr ctx, s)
  | .keySnapshot => some (⟨s.keys, s.refreshVersion, s.lastRefreshError⟩, s)
  | .lockRefresh => if s.refreshMu then none else some ((), { s with refreshMu := true })
  | .unlockRefresh => some ((), { s with refreshMu := false })
  | .sinceForcedRefresh => some (input.now - s.lastForcedRefresh, s)
  | .setForcedRefresh => some ((), { s with lastForcedRefresh := input.now })
  | .startFetch ctx => some (s.fetchErr ctx, s)
  | .awaitFetch ctx =>
    match input.fetched with
    | .error .canceled =>
      if s.fetchErr ctx = some .canceled then some (.error .canceled, s) else none
    | fetched => some (fetched, s)
  | .storeFetch fetched =>
    some ((), { s with
      refreshVersion := s.refreshVersion + 1
      lastRefreshError := JwtCode.classified fetched
      keys := fetched.toOption.getD s.keys })
  | .clock => some (input.now, s)

end JwtState

/-- The calls of a verifier with the given algorithms, and what goes on around them. -/
def jwtCalls (algorithms : List GoString) :
    System JwtState JwtCall JwtEffect JwtEffect.Response JwtInput JwtOutcome where
  body := JwtCall.code algorithms
  start call s :=
    match call with
    | .endContext ctx err => some (s.endContext ctx err)
    | _ => some s
  exec effect input s := s.exec input effect

end Verify

abbrev JwtEvent := Event JwtEffect JwtEffect.Response

abbrev JwtStep := Transition JwtState JwtCall JwtEffect JwtEffect.Response JwtInput JwtOutcome

/-- The verifier and what has been started. -/
abbrev JwtConfig := Config JwtState JwtCall JwtEffect JwtEffect.Response JwtOutcome

/-! ## Where `context.Canceled` comes from -/

/-- An event that shows a call that its context was cancelled. -/
inductive OwnCancellation (ctx : Nat) : JwtEvent → Prop where
  | checked : OwnCancellation ctx ⟨.contextErr ctx, some .canceled⟩
  | unsent : OwnCancellation ctx ⟨.startFetch (some ctx), some .canceled⟩
  | fetching : OwnCancellation ctx ⟨.awaitFetch (some ctx), .error .canceled⟩

/-- A call has found `context.Canceled` as the error of the last refresh, right after it took the
lock for a refresh of its own. -/
def Handed (log : List JwtEvent) : Prop :=
  ∃ front snapshot back, log = front ++ ⟨.lockRefresh, ()⟩ :: ⟨.keySnapshot, snapshot⟩ :: back ∧
    snapshot.lastRefreshError = some (.context .canceled)

/-- Why a call may return `context.Canceled`. -/
def Excused (ctx : Nat) (log : List JwtEvent) : Prop :=
  (∃ event ∈ log, OwnCancellation ctx event) ∨ Handed log

section Code

variable {ctx : Nat} {log : List JwtEvent}

theorem Excused.append (h : Excused ctx log) (later : List JwtEvent) :
    Excused ctx (log ++ later) := by
  rcases h with ⟨event, hmem, hevent⟩ | ⟨front, snapshot, back, rfl, hcanceled⟩
  · exact .inl ⟨event, List.mem_append_left _ hmem, hevent⟩
  · refine .inr ⟨front, snapshot, back ++ later, ?_, hcanceled⟩
    simp only [List.append_assoc, List.cons_append]

theorem Excused.own {event : JwtEvent} (h : OwnCancellation ctx event) :
    Excused ctx (log ++ [event]) :=
  .inl ⟨event, List.mem_append_right _ (List.mem_singleton_self _), h⟩

/-- Anything may be done and answered. -/
abbrev anything : EffectSpec JwtEffect JwtEffect.Response (List JwtEvent) :=
  .protocol (fun _ _ => True) fun _ _ => True

theorem fetchJWKS_meets :
    (JwtCode.fetchJWKS (some ctx)).Meets anything
      (fun fetched log => fetched = .error .canceled → Excused ctx log) log := by
  refine Prog.Meets.call_bind trivial fun err _ => ?_
  cases err with
  | some err =>
    cases err with
    | canceled => exact fun _ => .own .unsent
    | deadlineExceeded => exact nofun
  | none =>
    refine ⟨trivial, ?_⟩
    rintro fetched _ ⟨-, rfl⟩ rfl
    exact .own .fetching

theorem classified_eq_canceled {fetched : Except FetchError JwtKeys}
    (h : JwtCode.classified fetched = some (.context .canceled)) : fetched = .error .canceled := by
  cases fetched with
  | ok keys => cases h
  | error err =>
    cases err with
    | canceled => rfl
    | _ => cases h

theorem fetchAndStore_meets :
    (JwtCode.fetchAndStore (some ctx)).Meets anything
      (fun err log => err = some (.context .canceled) → Excused ctx log) log := by
  refine fetchJWKS_meets.bind fun fetched log hfetched => ?_
  refine Prog.Meets.call_bind trivial fun _ _ hcanceled => ?_
  exact (hfetched (classified_eq_canceled hcanceled)).append _

theorem refreshLocked_meets (keyID : GoString) (observedVersion : UInt64) :
    (JwtCode.refreshLocked ctx keyID observedVersion).Meets anything
      (fun err log => err = some (.context .canceled) → Excused ctx log)
      (log ++ [⟨.lockRefresh, ()⟩]) := by
  refine Prog.Meets.call_bind trivial fun current _ => ?_
  have hhanded : ∀ later, current.lastRefreshError = some (.context .canceled) →
      Excused ctx (log ++ [⟨.lockRefresh, ()⟩] ++ [⟨.keySnapshot, current⟩] ++ later) := by
    intro later hcanceled
    refine .inr ⟨log, current, later, ?_, hcanceled⟩
    simp
  split
  · split
    · rintro ⟨⟩
    · rw [← List.append_nil (_ ++ _)]
      exact hhanded []
  · refine Prog.Meets.call_bind trivial fun since _ => ?_
    split
    · exact hhanded _
    · exact Prog.Meets.call_bind trivial fun _ _ => fetchAndStore_meets

theorem refreshMissingKey_meets (keyID : GoString) (observedVersion : UInt64) :
    (JwtCode.refreshMissingKey ctx keyID observedVersion).Meets anything
      (fun err log => err = some (.context .canceled) → Excused ctx log) log := by
  refine Prog.Meets.call_bind trivial fun _ _ => ?_
  refine (refreshLocked_meets keyID observedVersion).bind fun err log hcanceled => ?_
  exact Prog.Meets.call_bind trivial fun _ _ heq => (hcanceled heq).append _

variable [JwtLibrary]

theorem verifyWith_meets (token : GoString) (header : JwtHeader) (key : JwtVerificationKey) :
    (verifyWith ctx token header key).Meets anything
      (fun value log => value = .error (.context .canceled) → Excused ctx log) log := by
  unfold verifyWith
  split
  · exact nofun
  · refine Prog.Meets.call_bind trivial fun now _ => ?_
    split
    · next err _ => cases err <;> exact nofun
    · next principal _ =>
      refine Prog.Meets.call_bind trivial fun err _ => ?_
      cases err with
      | some err =>
        rintro ⟨⟩
        exact .own .checked
      | none => cases principal <;> exact nofun

/-- `Verify` returns `context.Canceled` for its own context's sake, or because it was handed the
error of another call's refresh. -/
theorem verifyJwt_meets (algorithms : List GoString) (token : GoString) :
    (verifyJwt algorithms ctx token).Meets anything
      (fun value log => value = .error (.context .canceled) → Excused ctx log) log := by
  unfold verifyJwt
  split
  · rintro ⟨⟩
  · refine Prog.Meets.call_bind trivial fun err _ => ?_
    cases err with
    | some err =>
      rintro ⟨⟩
      exact .own .checked
    | none =>
      simp only
      split
      · rintro ⟨⟩
      · refine Prog.Meets.call_bind trivial fun observed _ => ?_
        split
        · exact verifyWith_meets ..
        · refine (refreshMissingKey_meets ..).bind fun err log hcanceled => ?_
          cases err with
          | some err =>
            rintro ⟨⟩
            exact hcanceled rfl
          | none =>
            refine Prog.Meets.call_bind trivial fun refreshed _ => ?_
            split
            · rintro ⟨⟩
            · exact verifyWith_meets ..

def JwtReturns (call : JwtCall) (value : JwtOutcome) (log : List JwtEvent) : Prop :=
  ∀ ctx token, call = .verify ctx token →
    value = .verified (.error (.context .canceled)) → Excused ctx log

theorem jwtCode_meets (algorithms : List GoString) (call : JwtCall) :
    (call.code algorithms).Meets anything (JwtReturns call) [] := by
  cases call with
  | verify ctx token =>
    refine (verifyJwt_meets algorithms token).bind fun value log hcanceled => ?_
    rintro _ _ ⟨⟩ ⟨⟩
    exact hcanceled rfl
  | refresh =>
    refine (Prog.meets_extends _ _).mono fun value log _ => ?_
    rintro _ _ ⟨⟩
  | endContext => exact nofun

end Code

/-! ## Executions -/

theorem JwtState.exec_ended {s s' : JwtState} {input : JwtInput} {effect : JwtEffect}
    {response : effect.Response} (h : s.exec input effect = some (response, s')) :
    s'.ended = s.ended := by
  cases effect with
  | lockRefresh =>
    simp only [JwtState.exec] at h
    split at h
    · cases h
    · obtain ⟨-, rfl⟩ := Prod.mk.inj (Option.some.inj h)
      rfl
  | awaitFetch fetchCtx =>
    simp only [JwtState.exec] at h
    split at h
    · split at h
      · obtain ⟨-, rfl⟩ := Prod.mk.inj (Option.some.inj h)
        rfl
      · cases h
    · obtain ⟨-, rfl⟩ := Prod.mk.inj (Option.some.inj h)
      rfl
  | _ =>
    obtain ⟨-, rfl⟩ := Prod.mk.inj (Option.some.inj h)
    rfl

theorem JwtState.endContext_keeps {s : JwtState} {ctx : Nat} {err : ContextError}
    (h : s.contextErr ctx = some err) (other : Nat) (err' : ContextError) :
    (s.endContext other err').contextErr ctx = some err := by
  unfold JwtState.endContext
  split
  · exact h
  · next hlive =>
    have hne : ctx ≠ other := by
      rintro rfl
      obtain ⟨row, hrow, -⟩ := Option.map_eq_some_iff.mp h
      exact hlive (hrow ▸ rfl)
    unfold JwtState.contextErr
    rw [Table.get?_put_ne hne]
    exact h

section Runs

variable [JwtLibrary] {algorithms : List GoString} {keys : JwtKeys} {ctx : Nat}
  {ok : JwtStep → Prop} {history : List JwtStep} {after : JwtConfig}

theorem contextErr_stays {before : JwtConfig} {choice : Choice JwtCall JwtInput}
    {err : ContextError} (hstep : Step (jwtCalls algorithms) before choice after)
    (h : before.state.contextErr ctx = some err) : after.state.contextErr ctx = some err := by
  cases hstep with
  | @start call state' hstart =>
    cases call with
    | endContext other err' =>
      obtain rfl := Option.some.inj hstart
      exact JwtState.endContext_keeps h other err'
    | _ =>
      obtain rfl := Option.some.inj hstart
      exact h
  | @act i input tag log effect next response state' hthread hexec =>
    unfold JwtState.contextErr at h ⊢
    rwa [JwtState.exec_ended hexec]

theorem run_contextErr_stays {later : List JwtStep} {before : JwtConfig} {err : ContextError}
    (hrun : Run (jwtCalls algorithms) ok before later after)
    (h : before.state.contextErr ctx = some err) : after.state.contextErr ctx = some err :=
  hrun.invariant (fun config => config.state.contextErr ctx = some err) h
    fun hinv hstep _ => contextErr_stays hstep hinv

/-- What a call sees of its context is true. -/
theorem OwnCancellation.canceled {t : JwtStep} {i : Nat} {call : JwtCall} {log : List JwtEvent}
    {event : JwtEvent} (h : OwnCancellation ctx event)
    (hperforms : t.Performs (jwtCalls algorithms) i call log event) :
    t.after.state.contextErr ctx = some .canceled := by
  obtain ⟨input, next, -, -, hexec⟩ := hperforms
  suffices hbefore : t.before.state.contextErr ctx = some .canceled by
    unfold JwtState.contextErr at hbefore ⊢
    rwa [JwtState.exec_ended hexec]
  cases h with
  | checked => exact (Prod.mk.inj (Option.some.inj hexec)).1
  | unsent => exact (Prod.mk.inj (Option.some.inj hexec)).1
  | fetching =>
    simp only [jwtCalls, JwtState.exec] at hexec
    split at hexec
    · split at hexec
      · assumption
      · cases hexec
    · next hother =>
      exact absurd (Prod.mk.inj (Option.some.inj hexec)).1 hother

/-- A call that has taken the lock for a refresh does not find `context.Canceled` as the error of
the last one. -/
def FindsNoCancellation (algorithms : List GoString) (t : JwtStep) : Prop :=
  ∀ i call front snapshot,
    t.Performs (jwtCalls algorithms) i call (front ++ [⟨.lockRefresh, ()⟩])
      ⟨.keySnapshot, snapshot⟩ →
    snapshot.lastRefreshError ≠ some (.context .canceled)

/-- Cancellation is a call's own. In every execution in which no call that has just taken
`refreshMu` finds `context.Canceled` as the error of the last refresh, a call of `Verify` that has
returned `context.Canceled`, which is answered with the code `unauthorized`, was given a context
that has been cancelled. -/
theorem cancellation_is_own
    (h : Run (jwtCalls algorithms) (FindsNoCancellation algorithms) (.idle (.new keys)) history
      after)
    {i : Nat} {ctx : Nat} {token : GoString} {log : List JwtEvent}
    (hreturned : after.threads[i]? =
      some ⟨.verify ctx token, log, .ret (.verified (.error (.context .canceled)))⟩) :
    authAckCode (JwtError.context .canceled).toAuthError = .unauthorized ∧
      after.state.contextErr ctx = some .canceled := by
  refine ⟨rfl, ?_⟩
  have hexcused : Excused ctx log :=
    h.follows (jwtCode_meets algorithms) _ (List.mem_of_getElem? hreturned) ctx token rfl rfl
  rcases hexcused with ⟨event, hmem, hevent⟩ | ⟨front, snapshot, back, rfl, hcanceled⟩
  · -- the call saw it, and its context has stayed cancelled since
    obtain ⟨front, back, rfl⟩ := List.append_of_mem hmem
    obtain ⟨t, ht, hperforms⟩ := h.performed hreturned rfl
    obtain ⟨before, later, rfl⟩ := List.append_of_mem ht
    obtain ⟨middle, -, hrun⟩ := h.append_inv
    obtain ⟨-, hrest⟩ := hrun.cons_inv
    exact run_contextErr_stays hrest (hevent.canceled hperforms)
  · have hlog : front ++ ⟨.lockRefresh, ()⟩ :: ⟨.keySnapshot, snapshot⟩ :: back =
        (front ++ [⟨.lockRefresh, ()⟩]) ++ ⟨.keySnapshot, snapshot⟩ :: back := by
      simp only [List.append_assoc, List.cons_append, List.nil_append]
    obtain ⟨t, ht, hperforms⟩ := h.performed hreturned hlog
    obtain ⟨-, -, hfinds⟩ := h.transition ht
    exact absurd hcanceled (hfinds i _ front snapshot hperforms)

end Runs

/-- Whether a step takes no snapshot of a cancelled refresh. -/
def findsNoCancellation (config : JwtConfig) : Choice JwtCall JwtInput → Bool
  | .start _ => true
  | .act i _ =>
    match config.threads[i]? with
    | some ⟨_, _, .perform .keySnapshot _⟩ =>
      config.state.lastRefreshError ≠ some (.context .canceled)
    | _ => true

theorem findsNoCancellation_sound [JwtLibrary] {algorithms : List GoString}
    {before after : JwtConfig} {choice : Choice JwtCall JwtInput}
    (h : findsNoCancellation before choice = true) :
    FindsNoCancellation algorithms ⟨before, choice, after⟩ := by
  rintro i call front snapshot ⟨input, next, rfl, hthread, hexec⟩
  replace hthread : before.threads[i]? = some ⟨call, _, .perform .keySnapshot next⟩ := hthread
  simp only [findsNoCancellation, hthread, decide_eq_true_eq] at h
  obtain rfl : _ = snapshot := (Prod.mk.inj (Option.some.inj hexec)).1
  exact h

/-- What has been started, with what it returned. -/
def jwtResults (config : JwtConfig) : List (JwtCall × Option JwtOutcome) :=
  config.threads.map fun thread => (thread.tag, thread.prog.result?)

theorem returned_of_jwtResults {config : JwtConfig} {i : Nat} {call : JwtCall} {value : JwtOutcome}
    (h : (jwtResults config)[i]? = some (call, some value)) :
    ∃ log, config.threads[i]? = some ⟨call, log, .ret value⟩ := by
  rw [jwtResults, List.getElem?_map] at h
  obtain ⟨⟨tag, log, prog⟩, hthread, hresult⟩ := Option.map_eq_some_iff.mp h
  obtain ⟨rfl, hvalue⟩ := Prod.mk.inj hresult
  obtain rfl : prog = .ret value := Prog.eq_ret_of_result? hvalue
  exact ⟨log, hthread⟩

/-- A token with a key that no key set has. -/
def sampleJwt : GoString := ascii "a.b.c"

/-- A call fetches the key set five seconds after the start, and its context is cancelled before an
answer has come. -/
def canceledFetch : List (Choice JwtCall JwtInput) :=
  .start (.verify 0 sampleJwt) :: Choice.turns 0 7 ⟨5 * second, .error .canceled⟩ ++
  .start (.endContext 0 .canceled) :: Choice.turns 0 3 ⟨5 * second, .error .canceled⟩

theorem cancellation_is_own_fetching :
    ∃ history after,
      Run (@jwtCalls .plain [ascii "RS256"]) (@FindsNoCancellation .plain [ascii "RS256"])
        (.idle (.new .empty)) history after ∧
      jwtResults after = [(.verify 0 sampleJwt, some (.verified (.error (.context .canceled)))),
        (.endContext 0 .canceled, some .done)] ∧
      after.state.contextErr 0 = some .canceled := by
  have hreplay : ((@jwtCalls .plain [ascii "RS256"]).replayIf findsNoCancellation
      (.idle (.new .empty)) canceledFetch).map jwtResults =
      some [(.verify 0 sampleJwt, some (.verified (.error (.context .canceled)))),
        (.endContext 0 .canceled, some .done)] := by
    decide +kernel
  obtain ⟨after, hafter, hresults⟩ := Option.map_eq_some_iff.mp hreplay
  obtain ⟨history, hrun⟩ := System.replayIf_run
    (fun hcheck => @findsNoCancellation_sound .plain [ascii "RS256"] _ _ _ hcheck) hafter
  obtain ⟨log, hreturned⟩ := returned_of_jwtResults (congrArg (·[0]?) hresults)
  refine ⟨history, after, hrun, hresults, ?_⟩
  exact (@cancellation_is_own .plain _ _ _ _ hrun _ _ _ _ hreturned).2

/-- After that, a second call with a context that nobody ends asks for the same key. -/
def anotherCall : List (Choice JwtCall JwtInput) :=
  .start (.verify 1 sampleJwt) :: Choice.turns 2 6 ⟨5 * second, .error .other⟩

/-- The cancellation of one call fails another. The first call's context is cancelled during its
fetch, which leaves `context.Canceled` as the error of the last refresh. The second call, less than
a second later, does not fetch and returns that error, though its own context has not ended. -/
theorem other_cancellation_returned :
    ∃ history after,
      Run (@jwtCalls .plain [ascii "RS256"]) (fun _ => True) (.idle (.new .empty)) history after ∧
      jwtResults after = [(.verify 0 sampleJwt, some (.verified (.error (.context .canceled)))),
        (.endContext 0 .canceled, some .done),
        (.verify 1 sampleJwt, some (.verified (.error (.context .canceled))))] ∧
      after.state.contextErr 1 = none := by
  have hreplay : ((@jwtCalls .plain [ascii "RS256"]).replay (.idle (.new .empty))
      (canceledFetch ++ anotherCall)).map (fun after =>
        (jwtResults after, after.state.contextErr 1)) =
      some ([(.verify 0 sampleJwt, some (.verified (.error (.context .canceled)))),
        (.endContext 0 .canceled, some .done),
        (.verify 1 sampleJwt, some (.verified (.error (.context .canceled))))], none) := by
    decide +kernel
  obtain ⟨after, hafter, hresults⟩ := Option.map_eq_some_iff.mp hreplay
  obtain ⟨history, hrun⟩ := System.replay_run (fun _ => True) hafter fun _ _ => trivial
  exact ⟨history, after, hrun, (Prod.mk.inj hresults).1, (Prod.mk.inj hresults).2⟩

end ZCourier.Auth
