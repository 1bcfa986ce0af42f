import ZCourier.Signing.Verifier

/-!
# A signed request is accepted at most once

`Consume` runs under a mutex, so the calls of `Verify` on one verifier take effect one after
another. `Verifier.run` is the store after such a sequence and `accepted_once` the result: the
entry of an accepted request stays for as long as the same request could be accepted again.
-/

namespace ZCourier.Signing

open Go Library Downlink

/-- The headers of a call that tell signed requests apart. -/
def Call.headers (call : Call) : Option (GoString × GoString × GoString) :=
  call.request.map fun request => (request.keyID, request.nonce, request.timestamp)

section

variable [Sha256] [Base64]

/-- The call gets as far as `Consume`. -/
def Verifier.Reaches (v : Verifier) (call : Call) : Prop := ∃ checked, v.check call = .ok checked

/-- The store after a sequence of calls. -/
def Verifier.run (v : Verifier) (store : MemoryNonceStore) (calls : List Call) : MemoryNonceStore :=
  calls.foldl (fun store call => (v.verify store call).2) store

variable {v : Verifier} {store : MemoryNonceStore} {call : Call} {calls : List Call}

theorem run_append (calls' : List Call) :
    v.run store (calls ++ calls') = v.run (v.run store calls) calls' :=
  List.foldl_append

theorem check_ok {checked : Checked} (h : v.check call = .ok checked) :
    ∃ timestamp seconds, call.headers = some (checked.keyID, checked.nonce, timestamp) ∧
      parseInt timestamp = some seconds ∧ checked.expiresAt = add (unix seconds) v.nonceTTL := by
  rw [Verifier.check] at h
  split at h
  · cases h
  next request hrequest =>
  split at h
  · cases h
  split at h
  · cases h
  split at h
  · cases h
  next seconds hseconds =>
  split at h
  · cases h
  split at h
  · cases h
  rw [Verifier.checkSignature] at h
  split at h
  · cases h
  split at h
  · cases h
  split at h
  · cases h
  split at h
  · cases h
  cases h
  refine ⟨request.timestamp, seconds, ?_, hseconds, rfl⟩
  rw [Call.headers, hrequest]
  rfl

theorem checked_eq_of_headers {call' : Call} {checked checked' : Checked}
    (h : v.check call = .ok checked) (h' : v.check call' = .ok checked')
    (hheaders : call.headers = call'.headers) : checked = checked' := by
  obtain ⟨timestamp, seconds, hcall, hseconds, hexpires⟩ := check_ok h
  obtain ⟨timestamp', seconds', hcall', hseconds', hexpires'⟩ := check_ok h'
  rw [hcall, hcall', Option.some.injEq, Prod.mk.injEq, Prod.mk.injEq] at hheaders
  obtain ⟨hkey, hnonce, rfl⟩ := hheaders
  obtain rfl : seconds = seconds' := Option.some.inj (hseconds.symm.trans hseconds')
  cases checked
  cases checked'
  exact congr (congr (congrArg Checked.mk hkey) hnonce) (hexpires.trans hexpires'.symm)

theorem verify_spec (v : Verifier) (call : Call) (h : store.Sound) :
    (v.verify store call).2.Sound ∧ (v.verify store call).2.maxEntries = store.maxEntries ∧
      ∀ entry ∈ store.entries.rows, (v.Reaches call → call.now < entry.expiresAt) →
        entry ∈ (v.verify store call).2.entries.rows := by
  rw [Verifier.verify]
  cases hcheck : v.check call with
  | error err => exact ⟨h, rfl, fun entry hentry _ => hentry⟩
  | ok checked =>
    obtain ⟨hsound, hmax, hkept, -⟩ :=
      MemoryNonceStore.consume_spec h checked.keyID checked.nonce call.now checked.expiresAt
    exact ⟨hsound, hmax, fun entry hentry hlater => hkept entry hentry (hlater ⟨checked, hcheck⟩)⟩

theorem verify_accepted (h : store.Sound) (haccepted : (v.verify store call).1 = none) :
    ∃ checked, v.check call = .ok checked ∧ call.now < checked.expiresAt ∧
      ⟨MemoryNonceStore.cacheKey checked.keyID checked.nonce, checked.expiresAt⟩ ∈
        (v.verify store call).2.entries.rows ∧
      ∀ entry ∈ store.entries.rows, call.now < entry.expiresAt →
        entry.key ≠ MemoryNonceStore.cacheKey checked.keyID checked.nonce := by
  rw [Verifier.verify] at haccepted ⊢
  cases hcheck : v.check call with
  | error err =>
    rw [hcheck] at haccepted
    cases haccepted
  | ok checked =>
    rw [hcheck] at haccepted
    exact ⟨checked, rfl,
      (MemoryNonceStore.consume_spec h checked.keyID checked.nonce call.now
        checked.expiresAt).2.2.2 haccepted⟩

/-- What a sequence of calls does to a sound store, by induction on the calls. -/
theorem run_spec (v : Verifier) (h : store.Sound) (calls : List Call) :
    (v.run store calls).Sound ∧ (v.run store calls).maxEntries = store.maxEntries ∧
      ∀ entry ∈ store.entries.rows, (∀ call ∈ calls, v.Reaches call → call.now < entry.expiresAt) →
        entry ∈ (v.run store calls).entries.rows := by
  induction calls generalizing store with
  | nil => exact ⟨h, rfl, fun entry hentry _ => hentry⟩
  | cons call calls ih =>
    obtain ⟨hsound, hmax, hkept⟩ := verify_spec v call h
    obtain ⟨hrun, hrunMax, hrunKept⟩ := ih hsound
    refine ⟨hrun, hrunMax.trans hmax, ?_⟩
    intro entry hentry hlater
    have hnext := hkept entry hentry (hlater call List.mem_cons_self)
    exact hrunKept entry hnext fun later hmem => hlater later (List.mem_cons_of_mem _ hmem)

theorem accepted_headers_ne {a b : Call} {middle : List Call} (h : store.Sound)
    (hclock : (a :: (middle ++ [b])).Pairwise
      fun earlier later => v.Reaches earlier → v.Reaches later → earlier.now ≤ later.now)
    (ha : (v.verify store a).1 = none)
    (hb : (v.verify (v.run (v.verify store a).2 middle) b).1 = none) : a.headers ≠ b.headers := by
  intro hheaders
  obtain ⟨hsound, -, -⟩ := verify_spec v a h
  obtain ⟨hrun, -, hkept⟩ := run_spec v hsound middle
  obtain ⟨checked, hcheck, -, hentry, -⟩ := verify_accepted h ha
  obtain ⟨checked', hcheck', hfresh, -, habsent⟩ := verify_accepted hrun hb
  obtain rfl := checked_eq_of_headers hcheck hcheck' hheaders
  have hstays : ∀ call ∈ middle, v.Reaches call → call.now < checked.expiresAt := by
    intro call hcall hreaches
    have hmiddle := (List.pairwise_append.mp (List.pairwise_cons.mp hclock).2).2.2 call hcall b
      (List.mem_singleton_self b) hreaches ⟨checked, hcheck'⟩
    omega
  exact habsent _ (hkept _ hentry hstays) hfresh rfl

/-- A signed request is accepted at most once: two accepted calls differ in key id, nonce or
timestamp. Map and heap hold the same entries, at most as many as configured, and an
entry is dropped only by a call that reads a time at which it has expired. -/
theorem accepted_once {config : VerifierConfig}
    (hnew : newVerifier config = .ok (v, some store)) (calls : List Call)
    (hclock : calls.Pairwise
      fun earlier later => v.Reaches earlier → v.Reaches later → earlier.now ≤ later.now) :
    (∀ front a middle b back, calls = front ++ a :: (middle ++ b :: back) →
      (v.verify (v.run store front) a).1 = none →
      (v.verify (v.run store (front ++ a :: middle)) b).1 = none → a.headers ≠ b.headers) ∧
    (∀ front back, calls = front ++ back →
      (v.run store front).entries.rows.Perm (v.run store front).expirations.toList ∧
      ((v.run store front).entries.rows.length : Int) ≤ config.entryLimit) ∧
    (∀ front call back, calls = front ++ call :: back →
      ∀ entry ∈ (v.run store front).entries.rows,
        entry ∉ (v.run store (front ++ [call])).entries.rows → entry.expiresAt ≤ call.now) := by
  obtain ⟨hsound, hlimit⟩ := sound_newStore (newVerifier_ok hnew).2
  refine ⟨?_, ?_, ?_⟩
  · rintro front a middle b back rfl ha hb
    rw [run_append] at hb
    refine accepted_headers_ne (run_spec v hsound front).1 (hclock.sublist ?_) ha hb
    refine List.Sublist.trans ?_ (List.sublist_append_right front _)
    exact ((List.Sublist.refl middle).append
      (List.singleton_sublist.mpr List.mem_cons_self)).cons_cons a
  · rintro front back -
    obtain ⟨hrun, hmax, -⟩ := run_spec v hsound front
    have hbounded := hrun.bounded
    rw [hmax, hlimit] at hbounded
    exact ⟨hrun.paired, hbounded⟩
  · rintro front call back - entry hentry hdropped
    by_contra hlater
    rw [run_append] at hdropped
    have hkept := (verify_spec v call (run_spec v hsound front).1).2.2 entry hentry
    exact hdropped (hkept fun _ => by omega)

end

/-- The store of `sampleVerifier`. -/
def sampleStore : MemoryNonceStore := ⟨defaultMaxNonceEntries, .empty, #[]⟩

theorem accepted_once_repeated :
    (@Verifier.verify Sha256.polynomial Base64.letters sampleVerifier sampleStore
        (sampleCall (ascii "1790000000") 1790000000)).1 = none ∧
      (@Verifier.verify Sha256.polynomial Base64.letters sampleVerifier
        (@Verifier.run Sha256.polynomial Base64.letters sampleVerifier sampleStore
          [sampleCall (ascii "1790000000") 1790000000])
        (sampleCall (ascii "1790000000") 1790000020)).1 ≠ none := by
  have haccepted : (@Verifier.verify Sha256.polynomial Base64.letters sampleVerifier sampleStore
      (sampleCall (ascii "1790000000") 1790000000)).1 = none := by decide +kernel
  have hclock : (sampleCall (ascii "1790000000") 1790000000).now ≤
      (sampleCall (ascii "1790000000") 1790000020).now := by decide +kernel
  refine ⟨haccepted, fun hagain => ?_⟩
  exact (@accepted_once Sha256.polynomial Base64.letters sampleVerifier sampleStore sampleConfig rfl
    [sampleCall (ascii "1790000000") 1790000000, sampleCall (ascii "1790000000") 1790000020]
    (List.pairwise_pair.mpr fun _ _ => hclock)).1 [] _ [] _ [] rfl haccepted hagain rfl

end ZCourier.Signing
