import ZCourier.Go.Time
import ZCourier.Signing.NonceStore

/-!
# Verifying signed requests

`NewVerifier` and `Verify` of `pkg/sdk/signing/signing.go`. `Verifier.check` is everything
`Verify` does before it calls `Consume`; it reads the clock once, which is part of a `Call`.
`freshness_exact` says when a request is too old or too far ahead. Its two exceptions come from
the int64 arithmetic of durations: `far_times_pass`.
-/

namespace ZCourier.Signing

open Go Library Downlink

/-- `DefaultMaxClockSkew`. -/
def defaultMaxClockSkew : Int64 := 30000000000

/-- `DefaultNonceTTL`. -/
def defaultNonceTTL : Int64 := 60000000000

/-- `DefaultMaxNonceEntries`. -/
def defaultMaxNonceEntries : Int := 10000

/-- `minimumSecretSize`. -/
def minimumSecretSize : Nat := 32

/-- `VerifierConfig`. The keys stand in the order in which the map is iterated; `ownStore` says
whether the configuration brings a `NonceStore` of its own. -/
structure VerifierConfig where
  keys : List (GoString × Bytes)
  maxClockSkew : Int64
  nonceTTL : Int64
  maxNonceEntries : Int
  ownStore : Bool
  keys_nodup : (keys.map Prod.fst).Nodup

/-- `Verifier`, without its nonce store and its clock. -/
structure Verifier where
  keys : List (GoString × Bytes)
  maxClockSkew : Int64
  nonceTTL : Int64

/-- The errors of `NewVerifier`, by their texts. -/
inductive ConfigError where
  | noKeys
  | invalidKeyID (rawKeyID : GoString)
  | shortSecret (keyID : GoString)
  | duplicateKeyID (keyID : GoString)
  | negativeClockSkew
  | negativeNonceTTL
  | shortNonceTTL
  | negativeNonceEntries
  | noNonceEntries

/-- `validKeyID`. -/
def validKeyID (keyID : GoString) : Bool :=
  keyID.length ≠ 0 && keyID.length ≤ 128 && keyID.all fun byte => 0x21 ≤ byte && byte ≤ 0x7E

/-- The loop of `NewVerifier` over the configured keys. -/
def acceptKeys : List (GoString × Bytes) → List (GoString × Bytes) →
    Except ConfigError (List (GoString × Bytes))
  | keys, [] => .ok keys
  | keys, (rawKeyID, secret) :: rest =>
    let keyID := trimSpace rawKeyID
    if validKeyID keyID = false then .error (.invalidKeyID rawKeyID)
    else if secret.length < minimumSecretSize then .error (.shortSecret keyID)
    else if (keys.lookup keyID).isSome then .error (.duplicateKeyID keyID)
    else acceptKeys ((keyID, secret) :: keys) rest

def VerifierConfig.clockSkew (config : VerifierConfig) : Int64 :=
  if config.maxClockSkew = 0 then defaultMaxClockSkew else config.maxClockSkew

/-- The time a nonce is kept. -/
def VerifierConfig.lifetime (config : VerifierConfig) : Int64 :=
  if config.nonceTTL = 0 then defaultNonceTTL else config.nonceTTL

/-- The number of entries of the default store. -/
def VerifierConfig.entryLimit (config : VerifierConfig) : Int :=
  if config.maxNonceEntries = 0 then defaultMaxNonceEntries else config.maxNonceEntries

/-- The nonce store of a new verifier; `none` is the one the configuration brings. -/
def VerifierConfig.newStore (config : VerifierConfig) :
    Except ConfigError (Option MemoryNonceStore) :=
  if config.ownStore then .ok none
  else if config.maxNonceEntries < 0 then .error .negativeNonceEntries
  else
    match MemoryNonceStore.new config.entryLimit with
    | none => .error .noNonceEntries
    | some store => .ok (some store)

/-- `NewVerifier`. The product with 2 is one of int64 values. -/
def newVerifier (config : VerifierConfig) :
    Except ConfigError (Verifier × Option MemoryNonceStore) :=
  if config.keys.length = 0 then .error .noKeys
  else
    match acceptKeys [] config.keys with
    | .error err => .error err
    | .ok keys =>
      if config.maxClockSkew < 0 then .error .negativeClockSkew
      else if config.nonceTTL < 0 then .error .negativeNonceTTL
      else if config.lifetime < 2 * config.clockSkew then .error .shortNonceTTL
      else
        match config.newStore with
        | .error err => .error err
        | .ok store => .ok (⟨keys, config.clockSkew, config.lifetime⟩, store)

/-- `validNonce`. -/
def validNonce [Base64] (nonce : GoString) : Bool :=
  match Base64.decodeString nonce with
  | none => false
  | some decoded => 16 ≤ decoded.length && decoded.length ≤ 64

/-- The key of an HMAC, filled up to a block of 64 bytes. -/
def blockKey [Sha256] (secret : Bytes) : Bytes :=
  let key := if 64 < secret.length then Sha256.sum256 secret else secret
  key ++ List.replicate (64 - key.length) 0

/-- `signatureFor`: the HMAC of the canonical string. -/
def signatureFor [Sha256] (secret : Bytes) (canonical : GoString) : Bytes :=
  let key := blockKey secret
  Sha256.sum256 (key.map (· ^^^ 0x5C) ++ Sha256.sum256 (key.map (· ^^^ 0x36) ++ canonical))

/-- A call of `Verify`: its arguments, what the clock reads, and the order in which the query's map
is iterated. -/
structure Call where
  order : MapOrder
  request : Option Request
  body : Bytes
  now : Int

/-- The arguments of `Consume` apart from the time. -/
structure Checked where
  keyID : GoString
  nonce : GoString
  expiresAt : Int

section

variable [Sha256] [Base64]

/-- The part of `Verify` about the signature. -/
def Verifier.checkSignature (v : Verifier) (secret : Bytes) (request : Request) (call : Call)
    (signedAt : Int) : Except SigningError Checked :=
  match Base64.decodeString request.signature with
  | none => .error .invalidSignature
  | some providedSignature =>
    if providedSignature.length ≠ 32 then .error .invalidSignature
    else
      match canonicalString call.order (some request) call.body request.timestamp
          request.nonce with
      | .error err => .error err
      | .ok canonical =>
        if providedSignature ≠ signatureFor secret canonical then .error .invalidSignature
        else .ok ⟨request.keyID, request.nonce, add signedAt v.nonceTTL⟩

/-- `Verify` up to the call of `Consume`. -/
def Verifier.check (v : Verifier) (call : Call) : Except SigningError Checked :=
  match call.request with
  | none => .error .invalidRequest
  | some request =>
    if request.keyID = [] ∨ request.timestamp = [] ∨ request.nonce = [] ∨
        request.signature = [] then .error .missingSignature
    else
      match v.keys.lookup request.keyID with
      | none => .error .unknownKey
      | some secret =>
        match parseInt request.timestamp with
        | none => .error .invalidTimestamp
        | some signedUnix =>
          if v.maxClockSkew < absDuration (sub call.now (unix signedUnix)) then
            .error .expired
          else if validNonce request.nonce = false then .error .invalidNonce
          else v.checkSignature secret request call (unix signedUnix)

/-- `Verify` with a memory store. -/
def Verifier.verify (v : Verifier) (store : MemoryNonceStore) (call : Call) :
    Option SigningError × MemoryNonceStore :=
  match v.check call with
  | .error err => (some err, store)
  | .ok checked => store.consume checked.keyID checked.nonce call.now checked.expiresAt

end

/-! ## What `NewVerifier` accepts -/

theorem newVerifier_ok {config : VerifierConfig} {v : Verifier} {store : Option MemoryNonceStore}
    (h : newVerifier config = .ok (v, store)) :
    0 < v.maxClockSkew.toInt ∧ config.newStore = .ok store := by
  rw [newVerifier] at h
  split at h
  · cases h
  split at h
  · cases h
  split at h
  · cases h
  next hskew =>
  split at h
  · cases h
  split at h
  · cases h
  split at h
  · cases h
  next hstore =>
  cases h
  refine ⟨?_, hstore⟩
  show 0 < config.clockSkew.toInt
  rw [VerifierConfig.clockSkew]
  split
  · decide
  · next hne =>
    have hnonneg : ¬ config.maxClockSkew.toInt < 0 :=
      fun hlt => hskew (Int64.lt_iff_toInt_lt.mpr hlt)
    have hzero : config.maxClockSkew.toInt ≠ 0 := fun heq => hne (Int64.toInt_inj.mp heq)
    omega

theorem sound_newStore {config : VerifierConfig} {store : MemoryNonceStore}
    (h : config.newStore = .ok (some store)) :
    store.Sound ∧ store.maxEntries = config.entryLimit := by
  rw [VerifierConfig.newStore] at h
  split at h
  · cases h
  split at h
  · cases h
  split at h
  · cases h
  · next hnew =>
    cases h
    exact MemoryNonceStore.sound_new hnew

/-! ## Freshness -/

theorem unix_eq_or_wrapped {seconds : Int} (hlow : -2 ^ 63 ≤ seconds) (hhigh : seconds < 2 ^ 63) :
    unix seconds = unixEpoch + seconds * second ∨
      unix seconds < 0 ∧ 2 ^ 63 * second ≤ unixEpoch + seconds * second := by
  rw [unix, int64, unixEpoch, second]
  rcases lt_or_ge (seconds + 62135596800) (2 ^ 63) with hlt | hge
  · refine .inl ?_
    rw [Int.bmod_eq_of_le (by omega) (by omega)]
    omega
  · refine .inr ?_
    have hwrapped : (seconds + 62135596800).bmod (2 ^ 64) = seconds + 62135596800 - 2 ^ 64 := by
      rw [← Int.sub_bmod_right, Int.bmod_eq_of_le] <;> omega
    rw [hwrapped]
    omega

theorem skew_lt_iff {skew : Int64} {difference : Int} {now signedAt : Int}
    (hskew : 0 < skew.toInt) (h : now - signedAt = difference) (hfuture : -2 ^ 63 < difference)
    (hpast : difference < 2 ^ 63 ∨ skew.toInt < 2 ^ 63 - 1) :
    skew < absDuration (sub now signedAt) ↔ skew.toInt < |difference| := by
  rw [Int64.lt_iff_toInt_lt, toInt_absDuration, toInt_sub, h]
  have hmax := skew.toInt_lt
  rw [if_neg (by omega : ¬ difference < -2 ^ 63)]
  split
  · next hfar =>
    rw [if_neg (by omega), abs_of_nonneg (by omega), abs_of_nonneg (by omega)]
    omega
  · rw [if_neg (by omega)]

/-- Beyond the range of `skew_lt_iff` the saturated difference is never greater than the skew. -/
theorem saturated_passes {skew : Int64} {now signedAt : Int} (hskew : 0 < skew.toInt)
    (h : ¬ (-2 ^ 63 < now - signedAt ∧ (now - signedAt < 2 ^ 63 ∨ skew.toInt < 2 ^ 63 - 1))) :
    ¬ skew < absDuration (sub now signedAt) := by
  rw [Int64.lt_iff_toInt_lt, toInt_absDuration, toInt_sub]
  have hmax := skew.toInt_lt
  by_cases hfuture : -2 ^ 63 < now - signedAt
  · have hpast : 2 ^ 63 ≤ now - signedAt := by omega
    rw [if_neg (by omega : ¬ now - signedAt < -2 ^ 63), if_pos hpast, if_neg (by omega),
      abs_of_nonneg (by omega)]
    omega
  · split_ifs <;> omega

theorem canonicalString_ne_expired [Sha256] {order : MapOrder} {request : Request} {body : Bytes}
    {timestamp nonce : GoString} :
    canonicalString order (some request) body timestamp nonce ≠ .error .expired := by
  intro h
  rw [canonicalString] at h
  split at h
  · cases h
  · split at h <;> cases h

section

variable [Sha256] [Base64]

theorem checkSignature_ne_expired {v : Verifier} {secret : Bytes} {request : Request} {call : Call}
    {signedAt : Int} : v.checkSignature secret request call signedAt ≠ .error .expired := by
  intro h
  rw [Verifier.checkSignature] at h
  split at h
  · cases h
  split at h
  · cases h
  split at h
  · next hcanonical =>
    cases h
    exact canonicalString_ne_expired hcanonical
  · split at h <;> cases h

theorem check_expired_iff {v : Verifier} {call : Call} {request : Request} {secret : Bytes}
    {seconds : Int} (hrequest : call.request = some request)
    (hheaders : request.keyID ≠ [] ∧ request.timestamp ≠ [] ∧ request.nonce ≠ [] ∧
      request.signature ≠ [])
    (hkey : v.keys.lookup request.keyID = some secret)
    (htimestamp : parseInt request.timestamp = some seconds) :
    v.check call = .error .expired ↔
      v.maxClockSkew < absDuration (sub call.now (unix seconds)) := by
  rw [Verifier.check, hrequest]
  dsimp only
  rw [if_neg (by tauto), hkey, htimestamp]
  dsimp only
  constructor
  · intro h
    by_contra hfresh
    rw [if_neg hfresh] at h
    split at h
    · cases h
    · exact checkSignature_ne_expired h
  · intro hlate
    rw [if_pos hlate]

/-- The clock-skew check is exact if and only if the signed time is less than `2 ^ 63` nanoseconds
ahead and, under the greatest skew there is, also less than `2 ^ 63` nanoseconds old. -/
theorem freshness_exact {config : VerifierConfig} {v : Verifier} {store : Option MemoryNonceStore}
    (hnew : newVerifier config = .ok (v, store)) {call : Call} {request : Request} {secret : Bytes}
    {seconds : Int} (hnow : unixEpoch ≤ call.now ∧ call.now < unixEpoch + 2 ^ 63)
    (hrequest : call.request = some request)
    (hheaders : request.keyID ≠ [] ∧ request.timestamp ≠ [] ∧ request.nonce ≠ [] ∧
      request.signature ≠ [])
    (hkey : v.keys.lookup request.keyID = some secret)
    (htimestamp : parseInt request.timestamp = some seconds) :
    (v.check call ≠ .error .expired ↔
      |call.now - (unixEpoch + seconds * second)| ≤ v.maxClockSkew.toInt) ↔
    -2 ^ 63 < call.now - unix seconds ∧
      (call.now - unix seconds < 2 ^ 63 ∨ v.maxClockSkew.toInt < 2 ^ 63 - 1) := by
  have hskew := (newVerifier_ok hnew).1
  obtain ⟨hlow, hhigh⟩ := parseInt_bounds htimestamp
  have hreal := unix_eq_or_wrapped hlow hhigh
  have hmax := v.maxClockSkew.toInt_lt
  rw [ne_eq, check_expired_iff hrequest hheaders hkey htimestamp]
  constructor
  · intro hexact
    by_contra hfar
    -- the request passes, and the real difference is greater than any skew
    have hclose := hexact.mp (saturated_passes hskew hfar)
    rw [abs_le] at hclose
    rw [unixEpoch, second] at *
    omega
  · rintro ⟨hfuture, hpast⟩
    rw [skew_lt_iff hskew rfl hfuture hpast, not_lt]
    rcases hreal with hexact | ⟨hwrapped, hreal⟩
    · rw [hexact]
    · -- Both differences are beyond any duration, in opposite directions.
      rw [unixEpoch, second] at *
      rw [abs_of_nonneg (by omega), abs_of_neg (by omega)]
      constructor <;> intro h <;> omega

end

/-- One key and every default. -/
def sampleConfig : VerifierConfig :=
  ⟨[(ascii "backend", List.replicate 32 0x61)], 0, 0, 0, false, by decide⟩

/-- The verifier of `sampleConfig`. -/
def sampleVerifier : Verifier :=
  ⟨[(ascii "backend", List.replicate 32 0x61)], defaultMaxClockSkew, defaultNonceTTL⟩

/-- A request with the given timestamp, signed with the sample key. -/
def sampleRequest (timestamp : GoString) : Request :=
  let nonce := @Base64.encodeToString Base64.letters (List.replicate 16 0)
  let canonical := @canonicalString Sha256.polynomial .inserted
    (some ⟨ascii "POST", ascii "/push", [], [], [], [], [], rfl, by decide⟩) [] timestamp nonce
  { method := ascii "POST"
    escapedPath := ascii "/push"
    rawQuery := []
    keyID := ascii "backend"
    timestamp
    nonce
    signature := @Base64.encodeToString Base64.letters
      (@signatureFor Sha256.polynomial (List.replicate 32 0x61) (canonical.toOption.getD []))
    method_ascii := rfl
    path_line := by decide }

/-- The sample request, verified when the Unix clock reads the given number of seconds. -/
def sampleCall (timestamp : GoString) (seconds : Int) : Call :=
  ⟨.inserted, some (sampleRequest timestamp), [], unixEpoch + seconds * second⟩

theorem freshness_exact_half_minute :
    @Verifier.check Sha256.polynomial Base64.letters sampleVerifier
        (sampleCall (ascii "1790000000") 1790000030) ≠ .error .expired :=
  (@freshness_exact Sha256.polynomial Base64.letters sampleConfig sampleVerifier
    (MemoryNonceStore.new defaultMaxNonceEntries) rfl
    (sampleCall (ascii "1790000000") 1790000030) (sampleRequest (ascii "1790000000"))
    (List.replicate 32 0x61) 1790000000 (by decide +kernel) rfl (by decide +kernel) rfl
    (by decide +kernel)).mpr (by decide +kernel) |>.mpr (by decide +kernel)

/-- `sampleConfig` with the greatest clock skew there is. -/
def greatestSkewConfig : VerifierConfig := { sampleConfig with maxClockSkew := Int64.maxValue }

/-- The verifier of `greatestSkewConfig`. -/
def greatestSkewVerifier : Verifier := { sampleVerifier with maxClockSkew := Int64.maxValue }

/-- In the year 2026 a request signed for the year 2603 passes with a skew of 30 seconds, and one
signed for the year 1684 passes with the greatest skew. -/
theorem far_times_pass :
    (newVerifier sampleConfig =
        .ok (sampleVerifier, MemoryNonceStore.new defaultMaxNonceEntries) ∧
      parseInt (ascii "20000000000") = some 20000000000 ∧
      (@Verifier.check Sha256.polynomial Base64.letters sampleVerifier
        (sampleCall (ascii "20000000000") 1790000000)).toOption.isSome = true ∧
      sampleVerifier.maxClockSkew.toInt <
        |(sampleCall (ascii "20000000000") 1790000000).now - (unixEpoch + 20000000000 * second)|) ∧
    newVerifier greatestSkewConfig =
        .ok (greatestSkewVerifier, MemoryNonceStore.new defaultMaxNonceEntries) ∧
      parseInt (ascii "-9000000000") = some (-9000000000) ∧
      (@Verifier.check Sha256.polynomial Base64.letters greatestSkewVerifier
        (sampleCall (ascii "-9000000000") 1790000000)).toOption.isSome = true ∧
      greatestSkewVerifier.maxClockSkew.toInt <
        |(sampleCall (ascii "-9000000000") 1790000000).now -
          (unixEpoch + -9000000000 * second)| := by
  refine ⟨⟨rfl, ?_, ?_, ?_⟩, rfl, ?_, ?_, ?_⟩ <;> decide +kernel

end ZCourier.Signing
