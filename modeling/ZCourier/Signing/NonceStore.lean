import ZCourier.Library.Heap
import ZCourier.Library.Table
import ZCourier.Signing.Canonical

/-!
# The nonce store

`MemoryNonceStore` of `pkg/sdk/signing/nonce.go`: a bounded map of the nonces in use, and a
heap of the same entries by the time they expire. `Consume` first drops the expired entries,
then refuses a nonce it holds. The clock is an argument. `Sound` says what holds of a store
between calls and `consume_spec` what a call does.
-/

namespace ZCourier.Signing

open Go Library

/-- `nonceEntry`. -/
structure NonceEntry where
  key : GoString
  expiresAt : Int
  deriving DecidableEq

/-- `MemoryNonceStore`. -/
structure MemoryNonceStore where
  maxEntries : Int
  entries : Table NonceEntry.key
  expirations : Array NonceEntry

namespace MemoryNonceStore

/-- `NewMemoryNonceStore`; `none` is the error for a limit that is not positive. -/
def new (maxEntries : Int) : Option MemoryNonceStore :=
  if maxEntries ≤ 0 then none else some ⟨maxEntries, .empty, #[]⟩

/-- The loop of `Consume` that drops expired entries. -/
def evict (now : Int) : Nat → MemoryNonceStore → MemoryNonceStore
  | 0, store => store
  | fuel + 1, store =>
    match store.expirations[0]? with
    | none => store
    | some first =>
      if now < first.expiresAt then store
      else
        match Heap.pop NonceEntry.expiresAt store.expirations with
        | none => store
        | some (entry, rest) =>
          evict now fuel
            { store with entries := store.entries.erase entry.key, expirations := rest }

/-- The key of a nonce in the map. -/
def cacheKey (keyID nonce : GoString) : GoString := keyID ++ 0x00 :: nonce

/-- `Consume`: the error, if any, and the store afterwards. -/
def consume (store : MemoryNonceStore) (keyID nonce : GoString) (now expiresAt : Int) :
    Option SigningError × MemoryNonceStore :=
  let store := evict now store.expirations.size store
  if (store.entries.get? (cacheKey keyID nonce)).isSome then (some .replay, store)
  else if store.maxEntries ≤ store.entries.rows.length then (some .nonceStoreFull, store)
  else if ¬ now < expiresAt then (some .expired, store)
  else
    let entry : NonceEntry := ⟨cacheKey keyID nonce, expiresAt⟩
    (none, { store with
      entries := store.entries.put entry
      expirations := Heap.push NonceEntry.expiresAt store.expirations entry })

/-- What holds of a store between calls: map and heap hold the same entries, no more than allowed,
and the heap is in order. -/
structure Sound (store : MemoryNonceStore) : Prop where
  paired : store.entries.rows.Perm store.expirations.toList
  ordered : Heap.IsHeap NonceEntry.expiresAt store.expirations
  bounded : (store.entries.rows.length : Int) ≤ store.maxEntries

variable {store : MemoryNonceStore}

theorem sound_new {maxEntries : Int} (h : new maxEntries = some store) :
    store.Sound ∧ store.maxEntries = maxEntries := by
  rw [new] at h
  split at h
  · contradiction
  · next hpos =>
    cases h
    refine ⟨⟨.refl _, ?_, ?_⟩, rfl⟩
    · intro c _ hsize
      exact absurd hsize (Nat.not_lt_zero c)
    · show (0 : Int) ≤ maxEntries
      omega

theorem rows_erase {entries : Table NonceEntry.key} {entry : NonceEntry} {rest : List NonceEntry}
    (h : entries.rows.Perm (entry :: rest)) : (entries.erase entry.key).rows.Perm rest := by
  have hnodup : ((entry :: rest).map NonceEntry.key).Nodup := (h.map _).nodup_iff.mp entries.nodup
  rw [List.map_cons, List.nodup_cons] at hnodup
  refine (h.filter _).trans ?_
  rw [List.filter_cons_of_neg (by simp), List.filter_eq_self.mpr]
  intro other hother
  rw [decide_eq_true_eq]
  rintro hkey
  exact hnodup.1 (hkey ▸ List.mem_map_of_mem hother)

/-- What dropping the expired entries does, by induction on the rounds. -/
theorem evict_spec (now : Int) {fuel : Nat} (h : store.Sound)
    (hfuel : store.expirations.size ≤ fuel) :
    (evict now fuel store).Sound ∧ (evict now fuel store).maxEntries = store.maxEntries ∧
      ∀ entry, entry ∈ (evict now fuel store).entries.rows ↔
        entry ∈ store.entries.rows ∧ now < entry.expiresAt := by
  induction fuel generalizing store with
  | zero =>
    refine ⟨h, rfl, fun entry => ⟨fun hentry => ?_, And.left⟩⟩
    have hmem : entry ∈ store.expirations.toList := h.paired.subset hentry
    have hnil : store.expirations.toList = [] :=
      List.eq_nil_of_length_eq_zero (by rw [Array.length_toList]; omega)
    rw [hnil] at hmem
    cases hmem
  | succ fuel ih =>
    rw [evict]
    cases hfirst : store.expirations[0]? with
    | none =>
      refine ⟨h, rfl, fun entry => ⟨fun hentry => ?_, And.left⟩⟩
      have hmem : entry ∈ store.expirations.toList := h.paired.subset hentry
      obtain ⟨i, hi, -⟩ := List.mem_iff_getElem.mp hmem
      rw [Array.length_toList] at hi
      rw [Array.getElem?_eq_none_iff] at hfirst
      omega
    | some first =>
      dsimp only
      split
      · next hlater =>
        refine ⟨h, rfl, fun entry => ⟨fun hentry => ⟨hentry, ?_⟩, And.left⟩⟩
        have hle := h.ordered.head_le hfirst (h.paired.subset hentry)
        omega
      · next hexpired =>
        obtain ⟨rest, hpop, hperm⟩ := Heap.pop_spec NonceEntry.expiresAt hfirst
        rw [hpop]
        have hsplit := h.paired.trans hperm
        have hrows := rows_erase hsplit
        have hlength := hsplit.length_eq
        have hbounded := h.bounded
        rw [List.length_cons] at hlength
        have hsound : ({ store with
            entries := store.entries.erase first.key, expirations := rest } :
            MemoryNonceStore).Sound := by
          refine ⟨hrows, h.ordered.pop hpop, ?_⟩
          have herased := hrows.length_eq
          dsimp only
          omega
        have hsize : rest.size ≤ fuel := by
          have hheap := hperm.length_eq
          rw [List.length_cons, Array.length_toList, Array.length_toList] at hheap
          omega
        obtain ⟨hdone, hmax, hmem⟩ := ih hsound hsize
        refine ⟨hdone, hmax, fun entry => (hmem entry).trans ?_⟩
        dsimp only
        rw [hrows.mem_iff, hsplit.mem_iff, List.mem_cons]
        constructor
        · rintro ⟨hentry, hlater⟩
          exact ⟨.inr hentry, hlater⟩
        · rintro ⟨rfl | hentry, hlater⟩
          · exact absurd hlater hexpired
          · exact ⟨hentry, hlater⟩

/-- What `Consume` does to a sound store: it drops exactly the expired entries, adds the nonce if it
succeeds, and refuses a nonce that has not expired. -/
theorem consume_spec (h : store.Sound) (keyID nonce : GoString) (now expiresAt : Int) :
    (store.consume keyID nonce now expiresAt).2.Sound ∧
      (store.consume keyID nonce now expiresAt).2.maxEntries = store.maxEntries ∧
      (∀ entry ∈ store.entries.rows, now < entry.expiresAt →
        entry ∈ (store.consume keyID nonce now expiresAt).2.entries.rows) ∧
      ((store.consume keyID nonce now expiresAt).1 = none →
        now < expiresAt ∧
          ⟨cacheKey keyID nonce, expiresAt⟩ ∈
            (store.consume keyID nonce now expiresAt).2.entries.rows ∧
          ∀ entry ∈ store.entries.rows, now < entry.expiresAt →
            entry.key ≠ cacheKey keyID nonce) := by
  obtain ⟨hsound, hmax, hmem⟩ := evict_spec now h (Nat.le_refl store.expirations.size)
  rw [consume]
  generalize evict now store.expirations.size store = kept at hsound hmax hmem
  dsimp only
  have hkept : ∀ entry ∈ store.entries.rows, now < entry.expiresAt → entry ∈ kept.entries.rows :=
    fun entry hentry hlater => (hmem entry).mpr ⟨hentry, hlater⟩
  split
  · exact ⟨hsound, hmax, hkept, fun hnone => by contradiction⟩
  next hfresh =>
  split
  · exact ⟨hsound, hmax, hkept, fun hnone => by contradiction⟩
  next hroom =>
  split
  · exact ⟨hsound, hmax, hkept, fun hnone => by contradiction⟩
  next hlater =>
  rw [not_not] at hlater
  have habsent : ∀ entry ∈ kept.entries.rows, entry.key ≠ cacheKey keyID nonce := by
    rw [Option.not_isSome_iff_eq_none, Table.get?_eq_none] at hfresh
    exact hfresh
  have hrows : (kept.entries.put ⟨cacheKey keyID nonce, expiresAt⟩).rows =
      ⟨cacheKey keyID nonce, expiresAt⟩ :: kept.entries.rows := by
    refine congrArg (_ :: ·) (List.filter_eq_self.mpr ?_)
    intro entry hentry
    exact decide_eq_true (habsent entry hentry)
  dsimp only
  refine ⟨⟨?_, hsound.ordered.push _, ?_⟩, hmax, ?_, fun _ => ⟨hlater, ?_, ?_⟩⟩
  · rw [hrows]
    exact (hsound.paired.cons _).trans (Heap.push_perm _ _ _).symm
  · rw [hrows, List.length_cons]
    push_cast
    omega
  · intro entry hentry hlate
    rw [hrows]
    exact List.mem_cons_of_mem _ (hkept entry hentry hlate)
  · rw [hrows]
    exact List.mem_cons_self
  · intro entry hentry hlate
    exact habsent entry (hkept entry hentry hlate)

end MemoryNonceStore

end ZCourier.Signing
