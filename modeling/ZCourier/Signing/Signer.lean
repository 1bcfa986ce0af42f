import ZCourier.Signing.Replay

/-!
# What is signed is accepted

`NewSigner` and `Sign` of `pkg/sdk/signing/signing.go`, on the other side of `Verify`.
`signed_requests_accepted` says what becomes of a request that was signed with a key of the
verifier: after whatever calls, it is refused only because of the clock, its nonce or a full
store.
-/

namespace ZCourier.Signing

open Go Library Downlink

/-- `nonceBytes`. -/
def nonceBytes : Nat := 18

/-- `SignerConfig`. -/
structure SignerConfig where
  keyID : GoString
  secret : Bytes

/-- `Signer`, with the real clock and `randomNonce`. -/
structure Signer where
  keyID : GoString
  secret : Bytes

/-- The errors of `NewSigner`, by what they are about. -/
inductive SignerConfigError where
  | keyID
  | secret

/-- `NewSigner`. -/
def newSigner (config : SignerConfig) : Except SignerConfigError Signer :=
  let keyID := trimSpace config.keyID
  if validKeyID keyID = false then .error .keyID
  else if config.secret.length < minimumSecretSize then .error .secret
  else .ok ⟨keyID, config.secret⟩

/-- `Time.Unix`. -/
def unixSeconds (t : Int) : Int := (t - unixEpoch) / second

/-- What a call of `Sign` reads besides its arguments: the order in which the query's map is
iterated, the bytes of `rand.Read` unless it fails, and the clock. -/
structure SignEnv where
  order : MapOrder
  random : Option { data : Bytes // data.length = nonceBytes }
  now : Int

/-- The errors of `Sign`. -/
inductive SignError where
  | generateNonce
  | signing (err : SigningError)

/-- `Sign`, with the request as it leaves it. -/
def Signer.sign [Sha256] [Base64] (s : Signer) (env : SignEnv) (request : Option Request)
    (body : Bytes) : Except SignError Request :=
  match request with
  | none => .error (.signing .invalidRequest)
  | some request =>
    match env.random with
    | none => .error .generateNonce
    | some data =>
      let nonce := Base64.encodeToString data.1
      if validNonce nonce = false then .error (.signing .invalidNonce)
      else
        let timestamp := formatInt (unixSeconds env.now)
        match canonicalString env.order (some request) body timestamp nonce with
        | .error err => .error (.signing err)
        | .ok canonical =>
          .ok { request with
            keyID := s.keyID
            timestamp := timestamp
            nonce := nonce
            signature := Base64.encodeToString (signatureFor s.secret canonical) }

/-! ## The two configurations -/

theorem acceptKeys_lookup {keys rest accepted : List (GoString × Bytes)}
    (h : acceptKeys keys rest = .ok accepted) :
    (∀ keyID secret, keys.lookup keyID = some secret → accepted.lookup keyID = some secret) ∧
      ∀ entry ∈ rest, accepted.lookup (trimSpace entry.1) = some entry.2 := by
  induction rest generalizing keys with
  | nil =>
    cases h
    exact ⟨fun _ _ hold => hold, by simp⟩
  | cons entry rest ih =>
    obtain ⟨rawKeyID, secret⟩ := entry
    rw [acceptKeys] at h
    split_ifs at h with _ _ hnew
    obtain ⟨hkept, hrest⟩ := ih h
    refine ⟨fun keyID secret' hold => hkept keyID secret' ?_, ?_⟩
    · have hne : (keyID == trimSpace rawKeyID) = false := by
        rw [beq_eq_false_iff_ne]
        rintro rfl
        exact hnew (Option.isSome_iff_exists.mpr ⟨_, hold⟩)
      rw [List.lookup_cons, hne, hold]
    · intro entry hentry
      rcases List.mem_cons.mp hentry with rfl | hmem
      · exact hkept _ _ List.lookup_cons_self
      · exact hrest entry hmem

theorem newSigner_keyID {config : SignerConfig} {s : Signer} (h : newSigner config = .ok s) :
    s.keyID ≠ [] := by
  rw [newSigner] at h
  split_ifs at h with hvalid
  cases h
  intro hempty
  replace hempty : trimSpace config.keyID = [] := hempty
  rw [hempty] at hvalid
  exact hvalid rfl

theorem newVerifier_keys {config : VerifierConfig} {v : Verifier} {store : Option MemoryNonceStore}
    (h : newVerifier config = .ok (v, store)) :
    acceptKeys [] config.keys = .ok v.keys ∧ ¬ v.nonceTTL < 2 * v.maxClockSkew := by
  rw [newVerifier] at h
  split at h
  · cases h
  split at h
  · cases h
  next hkeys =>
  split_ifs at h with _ _ hlong
  split at h <;> cases h
  exact ⟨hkeys, hlong⟩

/-! ## Times -/

/-- The whole second of a time, as `Sign` writes it and `Verify` reads it back. -/
theorem unix_unixSeconds {t : Int} (h : InUnixRange t) :
    parseInt (formatInt (unixSeconds t)) = some (unixSeconds t) ∧
      unix (unixSeconds t) ≤ t ∧ t < unix (unixSeconds t) + second ∧
      unixEpoch ≤ unix (unixSeconds t) := by
  obtain ⟨hlow, hhigh⟩ := h
  have hseconds : unixSeconds t = (t - unixEpoch) / second := rfl
  rw [unixEpoch, second] at *
  refine ⟨parse_format_int (by omega) (by omega), ?_⟩
  rw [unix, int64, Int.bmod_eq_of_le (by omega) (by omega), second]
  omega

theorem add_eq {t : Int} {d : Int64} (hlow : 0 ≤ t + d.toInt)
    (hhigh : t + d.toInt < 2 ^ 63 * second) :
    add t d = t + d.toInt := by
  rw [add]
  rw [Int.fdiv_eq_ediv_of_nonneg _ (by decide)]
  rw [second] at *
  rw [if_neg (by omega), if_neg (by omega)]

/-! ## Consuming a nonce -/

/-- What `Consume` answers: expired entries do not count. -/
theorem MemoryNonceStore.consume_fst {store : MemoryNonceStore} (h : store.Sound)
    (keyID nonce : GoString) (now expiresAt : Int) :
    (store.consume keyID nonce now expiresAt).1 =
      if ∃ entry ∈ store.entries.rows, now < entry.expiresAt ∧ entry.key = cacheKey keyID nonce then
        some .replay
      else if store.maxEntries ≤ (store.entries.rows.filter (now < ·.expiresAt)).length then
        some .nonceStoreFull
      else if now < expiresAt then none else some .expired := by
  obtain ⟨-, hmax, hmem⟩ := evict_spec now h (Nat.le_refl store.expirations.size)
  rw [consume]
  generalize evict now store.expirations.size store = kept at hmax hmem
  have hkept : kept.entries.rows.Perm (store.entries.rows.filter (now < ·.expiresAt)) := by
    refine (List.perm_ext_iff_of_nodup (.of_map _ kept.entries.nodup)
      ((List.Nodup.of_map _ store.entries.nodup).filter _)).mpr fun entry => ?_
    rw [hmem, List.mem_filter, decide_eq_true_eq]
  have hfound : (kept.entries.get? (cacheKey keyID nonce)).isSome = true ↔
      ∃ entry ∈ store.entries.rows, now < entry.expiresAt ∧ entry.key = cacheKey keyID nonce := by
    rw [← not_iff_not, Option.not_isSome_iff_eq_none, Table.get?_eq_none]
    simp only [hmem, not_exists, not_and, and_imp, ne_eq]
  dsimp only
  rw [hmax, hkept.length_eq]
  simp only [hfound]
  split_ifs <;> rfl

/-! ## What `Sign` leaves -/

theorem canonicalQuery_order (order order' : MapOrder) (raw : GoString) :
    canonicalQuery order raw = canonicalQuery order' raw := by
  have hperm : ∀ values, (encodedPairs (order.arrange values)).Perm
      (encodedPairs (order'.arrange values)) :=
    fun values => ((order.perm values).trans (order'.perm values).symm).flatMap_right _
  rw [canonicalQuery, canonicalQuery]
  cases parseQuery raw with
  | error err => rfl
  | ok pairs => simp only [sorted_eq_iff.mpr (hperm _)]

section

variable [Sha256] [Base64]

/-- The headers of a signed request, and the canonical string that its signature covers, which the
verifier computes in whatever order it iterates the query. -/
theorem sign_ok {s : Signer} {env : SignEnv} {request : Option Request} {body : Bytes}
    {signed : Request} (h : s.sign env request body = .ok signed) :
    ∃ canonical, signed.keyID = s.keyID ∧ signed.timestamp = formatInt (unixSeconds env.now) ∧
      validNonce signed.nonce = true ∧
      signed.signature = Base64.encodeToString (signatureFor s.secret canonical) ∧
      ∀ order, canonicalString order (some signed) body signed.timestamp signed.nonce =
        .ok canonical := by
  unfold Signer.sign at h
  split at h
  · cases h
  split at h
  · cases h
  dsimp only at h
  split_ifs at h with hnonce
  split at h
  · cases h
  next canonical hcanonical =>
  cases h
  refine ⟨canonical, rfl, rfl, (Bool.not_eq_false _).mp hnonce, rfl, fun order => ?_⟩
  rw [canonicalString, canonicalQuery_order order env.order]
  rw [canonicalString] at hcanonical
  exact hcanonical

/-- The checks on a signed request: they all pass but for the clock. -/
theorem check_signed {v : Verifier} {s : Signer} (hname : s.keyID ≠ [])
    (hkey : v.keys.lookup s.keyID = some s.secret) {env : SignEnv} {request : Option Request}
    {body : Bytes} {signed : Request} (hsign : s.sign env request body = .ok signed)
    (hsigned : InUnixRange env.now) (order : MapOrder) (now : Int) :
    v.check ⟨order, some signed, body, now⟩ =
      if v.maxClockSkew < absDuration (sub now (unix (unixSeconds env.now))) then .error .expired
      else .ok ⟨s.keyID, signed.nonce, add (unix (unixSeconds env.now)) v.nonceTTL⟩ := by
  obtain ⟨canonical, hkeyID, htimestamp, hnonce, hsignature, hcanonical⟩ := sign_ok hsign
  have hparse := (unix_unixSeconds hsigned).1
  have hlength : (signatureFor s.secret canonical).length = 32 := Sha256.length_sum256 _
  have hheaders : ¬ (signed.keyID = [] ∨ signed.timestamp = [] ∨ signed.nonce = [] ∨
      signed.signature = []) := by
    rintro (hempty | hempty | hempty | hempty)
    · exact hname (hkeyID.symm.trans hempty)
    · rw [← htimestamp, hempty] at hparse
      cases hparse
    · rw [hempty, validNonce, Base64.decode_empty] at hnonce
      cases hnonce
    · refine Base64.encode_ne_nil (fun hnil => ?_) (hsignature.symm.trans hempty)
      rw [hnil] at hlength
      cases hlength
  have hpassed : v.checkSignature s.secret signed ⟨order, some signed, body, now⟩
      (unix (unixSeconds env.now)) =
        .ok ⟨s.keyID, signed.nonce, add (unix (unixSeconds env.now)) v.nonceTTL⟩ := by
    rw [Verifier.checkSignature, hsignature, Base64.decode_encode]
    dsimp only
    rw [if_neg (not_not.mpr hlength), hcanonical order]
    dsimp only
    rw [if_neg (not_not.mpr rfl), hkeyID]
  rw [Verifier.check]
  dsimp only
  rw [if_neg hheaders, hkeyID, hkey, htimestamp, hparse]
  dsimp only
  rw [if_neg (by rw [hnonce]; decide : ¬ validNonce signed.nonce = false), hpassed]

/-- What `Verify` answers to a request that was signed with one of its keys, after any calls. A
signature made less than the clock skew ago is accepted once, as long as there is room. -/
theorem signed_requests_accepted {verifierConfig : VerifierConfig} {v : Verifier}
    {store : MemoryNonceStore} (hverifier : newVerifier verifierConfig = .ok (v, some store))
    (hskew : v.maxClockSkew.toInt < 2 ^ 62) {signerConfig : SignerConfig} {s : Signer}
    (hsigner : newSigner signerConfig = .ok s)
    (hkey : ∃ rawKeyID, trimSpace rawKeyID = s.keyID ∧ (rawKeyID, s.secret) ∈ verifierConfig.keys)
    {env : SignEnv} {request : Option Request} {body : Bytes} {signed : Request}
    (hsign : s.sign env request body = .ok signed) (hsigned : InUnixRange env.now)
    (calls : List Call) (order : MapOrder) {now : Int} (hnow : InUnixRange now) :
    (v.verify (v.run store calls) ⟨order, some signed, body, now⟩).1 =
      if v.maxClockSkew.toInt < |now - unix (unixSeconds env.now)| then some .expired
      else if ∃ entry ∈ (v.run store calls).entries.rows, now < entry.expiresAt ∧
          entry.key = MemoryNonceStore.cacheKey s.keyID signed.nonce then some .replay
      else if verifierConfig.entryLimit ≤
          ((v.run store calls).entries.rows.filter (now < ·.expiresAt)).length then
        some .nonceStoreFull
      else none := by
  obtain ⟨hpositive, hstore⟩ := newVerifier_ok hverifier
  obtain ⟨hkeys, hlong⟩ := newVerifier_keys hverifier
  obtain ⟨rawKeyID, htrimmed, hconfigured⟩ := hkey
  have hlookup := (acceptKeys_lookup hkeys).2 _ hconfigured
  rw [htrimmed] at hlookup
  obtain ⟨hsound, hlimit⟩ := sound_newStore hstore
  obtain ⟨hrun, hmax, -⟩ := run_spec v hsound calls
  obtain ⟨-, hbefore, hafter, hepoch⟩ := unix_unixSeconds hsigned
  have hlate : v.maxClockSkew < absDuration (sub now (unix (unixSeconds env.now))) ↔
      v.maxClockSkew.toInt < |now - unix (unixSeconds env.now)| := by
    obtain ⟨hlow, hhigh⟩ := hnow
    obtain ⟨hlow', hhigh'⟩ := hsigned
    exact skew_lt_iff hpositive rfl (by omega) (.inl (by omega))
  -- twice the skew does not overflow, so that a nonce is kept for as long as its request is fresh
  have hkept : ¬ v.maxClockSkew.toInt < |now - unix (unixSeconds env.now)| →
      now < add (unix (unixSeconds env.now)) v.nonceTTL := by
    intro hfresh
    have hdouble : (2 * v.maxClockSkew).toInt = 2 * v.maxClockSkew.toInt := by
      rw [Int64.toInt_mul, show Int64.toInt 2 = 2 from rfl]
      exact Int.bmod_eq_of_le (by omega) (by omega)
    rw [Int64.lt_iff_toInt_lt, hdouble] at hlong
    have httl := v.nonceTTL.toInt_lt
    obtain ⟨-, hhigh⟩ := hsigned
    have hzero : 0 ≤ unixEpoch := by decide
    rw [add_eq (by omega) (by rw [unixEpoch, second] at *; omega)]
    have := le_abs_self (now - unix (unixSeconds env.now))
    omega
  rw [Verifier.verify, check_signed (newSigner_keyID hsigner) hlookup hsign hsigned]
  simp only [hlate]
  by_cases hexpired : v.maxClockSkew.toInt < |now - unix (unixSeconds env.now)|
  · rw [if_pos hexpired, if_pos hexpired]
  · rw [if_neg hexpired, if_neg hexpired]
    dsimp only
    rw [MemoryNonceStore.consume_fst hrun, if_pos (hkept hexpired), hmax, hlimit]

end

/-- A call of `Sign` at the given time. -/
def sampleSignEnv (now : Int) : SignEnv := ⟨.inserted, some ⟨List.replicate 18 0, rfl⟩, now⟩

/-- A request that is not signed yet. -/
def unsignedRequest : Request :=
  ⟨ascii "PUT", ascii "/messages", ascii "b=x+y&a=1", [], [], [], [], rfl, by decide⟩

/-- What `Sign` makes of it at the given time. -/
def signedPush (now : Int) : Except SignError Request :=
  @Signer.sign Sha256.polynomial Base64.letters ⟨ascii "backend", List.replicate 32 0x61⟩
    (sampleSignEnv now) (some unsignedRequest) (ascii "body")

/-- The store of `sampleVerifier` after the sample request. -/
def usedStore : MemoryNonceStore :=
  @Verifier.run Sha256.polynomial Base64.letters sampleVerifier sampleStore
    [sampleCall (ascii "1790000000") 1790000000]

theorem signed_requests_accepted_second :
    let now := unixEpoch + 1790000010 * second
    usedStore.entries.rows.length = 1 ∧ ∃ signed, signedPush now = .ok signed ∧
      (@Verifier.verify Sha256.polynomial Base64.letters sampleVerifier usedStore
        ⟨.inserted, some signed, ascii "body", now⟩).1 = none := by
  intro now
  have hone : usedStore.entries.rows.length = 1 := by decide +kernel
  have hroom : ¬ sampleConfig.entryLimit ≤
      (usedStore.entries.rows.filter (now < ·.expiresAt)).length := by
    have hle := List.length_filter_le (fun entry => decide (now < entry.expiresAt))
      usedStore.entries.rows
    have hlimit : sampleConfig.entryLimit = defaultMaxNonceEntries := rfl
    rw [hlimit, defaultMaxNonceEntries]
    omega
  refine ⟨hone, ?_⟩
  have hfresh : ((signedPush now).toOption.any fun signed => usedStore.entries.rows.all fun entry =>
      entry.key ≠ MemoryNonceStore.cacheKey (ascii "backend") signed.nonce) = true := by
    decide +kernel
  cases hsign : signedPush now with
  | error err =>
    rw [hsign] at hfresh
    cases hfresh
  | ok signed =>
    simp only [hsign, Except.toOption, Option.any_some, List.all_eq_true, decide_eq_true_eq]
      at hfresh
    have hanswer := @signed_requests_accepted Sha256.polynomial Base64.letters sampleConfig
      sampleVerifier sampleStore rfl (by decide) ⟨ascii " backend", List.replicate 32 0x61⟩ _ rfl
      ⟨ascii "backend", rfl, by decide⟩ _ _ _ signed hsign (by decide)
      [sampleCall (ascii "1790000000") 1790000000] .inserted now (by decide)
    rw [← usedStore] at hanswer
    refine ⟨signed, rfl, hanswer.trans ?_⟩
    rw [if_neg (by decide +kernel), if_neg, if_neg hroom]
    rintro ⟨entry, hentry, -, hsame⟩
    exact hfresh entry hentry hsame

end ZCourier.Signing
