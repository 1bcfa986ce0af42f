import Mathlib.Data.List.Nodup
import Mathlib.Data.Nat.ModEq
import Mathlib.Data.UInt
import ZCourier.Go.Values

/-!
# Publishing to NSQ in rotation

`Forwarder.publish` of `internal/adapter/nsqforwarder`. Each call takes the next value of a counter
and tries the endpoints from there on. The counter is a `uint64`, but the start is computed as an
`int`, whose size is a parameter here: a counter from half its range on becomes negative, and so
does the remainder (`negative_start_panics`). `publish_rotates` is what holds otherwise.
-/

namespace ZCourier.Adapter

open Go

/-- The sizes of Go's `int`. -/
inductive IntSize where
  | bits32
  | bits64

namespace IntSize

def bits : IntSize → Nat
  | bits32 => 32
  | bits64 => 64

/-- The result of `int` arithmetic and of conversions to `int`. -/
def int (size : IntSize) (n : Int) : Int := n.bmod (2 ^ size.bits)

end IntSize

/-- `Forwarder`, with the addresses of its endpoints. `New` refuses negative retry attempts; an
endpoint takes at least four bytes, so that no more of them can be in memory. -/
structure NsqForwarder (size : IntSize) where
  endpoints : List GoString
  retryAttempts : Int
  next : UInt64
  accepted : 0 ≤ retryAttempts ∧ retryAttempts < 2 ^ (size.bits - 1)
  addressable : endpoints.length < 2 ^ (size.bits - 2)

/-- What a call meets: the context before each attempt, and the error of each attempt. -/
structure PublishEnv where
  ctxErr : Nat → Option ContextError
  publishErr : Nat → Option GoString

/-- How `publish` ends. -/
inductive PublishOutcome where
  | published
  | noProducers
  | contextEnded (err : ContextError)
  | failed (attempts : Int) (joined : List (GoString × GoString))
  | indexOutOfRange (index : Int)
  deriving DecidableEq

namespace NsqForwarder

variable {size : IntSize}

/-- The endpoint at an index, which has to be in range. -/
def endpointAt (f : NsqForwarder size) (index : Int) : Option GoString :=
  if index < 0 then none else f.endpoints[index.toNat]?

/-- The loop of `publish`: the endpoints tried, by their positions, and how it ends. -/
def attempt (f : NsqForwarder size) (env : PublishEnv) (attempts start : Int) :
    Nat → Nat → List (GoString × GoString) → List Nat × PublishOutcome
  | 0, _, joined => ([], .failed attempts joined)
  | left + 1, i, joined =>
    match env.ctxErr i with
    | some err => ([], .contextEnded err)
    | none =>
      let index := (size.int (start + i)).tmod f.endpoints.length
      match f.endpointAt index with
      | none => ([], .indexOutOfRange index)
      | some address =>
        match env.publishErr i with
        | none => ([index.toNat], .published)
        | some err =>
          let (tried, outcome) :=
            f.attempt env attempts start left (i + 1) (joined ++ [(address, err)])
          (index.toNat :: tried, outcome)

/-- The number of attempts of a call. -/
def attempts (f : NsqForwarder size) : Int :=
  min (size.int (f.retryAttempts + 1)) f.endpoints.length

/-- Where a call starts. -/
def start (f : NsqForwarder size) : Int :=
  (size.int (f.next + 1 - 1).toNat).tmod f.endpoints.length

/-- `publish`: the endpoints tried, how it ends, and the forwarder afterwards. -/
def publish (f : NsqForwarder size) (env : PublishEnv) :
    (List Nat × PublishOutcome) × NsqForwarder size :=
  if f.endpoints.length = 0 then (([], .noProducers), f)
  else (f.attempt env f.attempts f.start f.attempts.toNat 0 [], { f with next := f.next + 1 })

/-! ## Calls that start at an endpoint -/

/-- The counter, converted to an `int`, is not negative or a multiple of the number of endpoints. -/
def Safe (f : NsqForwarder size) : Prop :=
  0 ≤ size.int f.next.toNat ∨ (f.endpoints.length : Int) ∣ size.int f.next.toNat

/-- A small number is itself as an `int`. -/
theorem int_of_natAbs_lt {n : Int} (h : n.natAbs < 2 ^ (size.bits - 1)) : size.int n = n := by
  unfold IntSize.int
  cases size with
  | bits32 =>
    simp only [IntSize.bits] at *
    exact Int.bmod_eq_of_le (by omega) (by omega)
  | bits64 =>
    simp only [IntSize.bits] at *
    exact Int.bmod_eq_of_le (by omega) (by omega)

/-- Twice as many endpoints as there are can still be counted. -/
theorem twice_length_lt (f : NsqForwarder size) :
    2 * f.endpoints.length < 2 ^ (size.bits - 1) := by
  have haddressable := f.addressable
  have hpow : 2 ^ (size.bits - 1) = 2 * 2 ^ (size.bits - 2) := by
    cases size <;> rfl
  omega

theorem start_bounds (f : NsqForwarder size) (hpos : 0 < f.endpoints.length) :
    -(f.endpoints.length : Int) < f.start ∧ f.start < f.endpoints.length :=
  ⟨Int.lt_tmod_of_pos _ (by omega), Int.tmod_lt_of_pos _ (by omega)⟩

/-- Go's remainder has the sign of the counter. -/
theorem start_nonneg_iff (f : NsqForwarder size) (hpos : 0 < f.endpoints.length) :
    0 ≤ f.start ↔ f.Safe := by
  have hlow := Int.emod_nonneg (size.int f.next.toNat) (b := f.endpoints.length) (by omega)
  have hhigh := Int.emod_lt_of_pos (size.int f.next.toNat) (b := f.endpoints.length) (by omega)
  rw [start, UInt64.add_sub_cancel, Int.tmod_eq_emod, Safe]
  split <;> simp only [*, iff_true, iff_false] <;> omega

/-- The indices of a call follow its start. -/
theorem index_eq (f : NsqForwarder size) (hpos : 0 < f.endpoints.length) (h : 0 ≤ f.start) {i : Nat}
    (hi : i < f.endpoints.length) :
    (size.int (f.start + i)).tmod f.endpoints.length =
      ((f.start.toNat + i) % f.endpoints.length : Nat) := by
  have hstart := (f.start_bounds hpos).2
  have hlength := f.twice_length_lt
  rw [int_of_natAbs_lt (by omega), Int.tmod_eq_emod_of_nonneg (by omega)]
  push_cast
  rw [Int.toNat_of_nonneg h]

/-- A negative start is the first index. -/
theorem first_index_eq (f : NsqForwarder size) (hpos : 0 < f.endpoints.length) (h : f.start < 0) :
    (size.int (f.start + (0 : Nat))).tmod f.endpoints.length = f.start := by
  have hstart := (f.start_bounds hpos).1
  have hlength := f.twice_length_lt
  rw [Int.natCast_zero, Int.add_zero, int_of_natAbs_lt (by omega), start, Int.tmod_tmod]

/-- What the end of the loop says about the attempts made from the `i`-th on. -/
def Explains (env : PublishEnv) (i made left : Nat) : PublishOutcome → Prop
  | .published => ∃ failed, made = failed + 1 ∧ env.publishErr (i + failed) = none ∧
      ∀ k < failed, env.publishErr (i + k) ≠ none
  | .contextEnded err => env.ctxErr (i + made) = some err ∧
      ∀ k < made, env.publishErr (i + k) ≠ none
  | .failed _ _ => made = left ∧ ∀ k < made, env.publishErr (i + k) ≠ none
  | .noProducers => False
  | .indexOutOfRange _ => False

theorem Explains.cons {env : PublishEnv} {i made left : Nat} {outcome : PublishOutcome}
    (h : Explains env (i + 1) made left outcome) (hfailed : env.publishErr i ≠ none) :
    Explains env i (made + 1) (left + 1) outcome := by
  have hall : ∀ {n}, (∀ k < n, env.publishErr (i + 1 + k) ≠ none) →
      ∀ k < n + 1, env.publishErr (i + k) ≠ none := by
    intro n hlater k hk
    cases k with
    | zero => exact hfailed
    | succ k =>
      rw [show i + (k + 1) = i + 1 + k by omega]
      exact hlater k (by omega)
  cases outcome with
  | published =>
    obtain ⟨failed, rfl, hsuccess, hbefore⟩ := h
    refine ⟨failed + 1, rfl, ?_, hall hbefore⟩
    rw [show i + (failed + 1) = i + 1 + failed by omega]
    exact hsuccess
  | contextEnded err =>
    refine ⟨?_, hall h.2⟩
    rw [show i + (made + 1) = i + 1 + made by omega]
    exact h.1
  | failed attempts joined => exact ⟨congrArg (· + 1) h.1, hall h.2⟩
  | noProducers => exact h
  | indexOutOfRange index => exact h

/-- A loop ends with a success, or with every attempt failed. -/
theorem Explains.cases {env : PublishEnv} {made left : Nat} {outcome : PublishOutcome}
    (h : Explains env 0 made left outcome) :
    (outcome = .published ∧ ∃ failed, made = failed + 1 ∧ env.publishErr failed = none ∧
      ∀ k < failed, env.publishErr k ≠ none) ∨
    (outcome ≠ .published ∧ (∀ k < made, env.publishErr k ≠ none) ∧
      (made = left ∨ ∃ err, outcome = .contextEnded err ∧ env.ctxErr made = some err)) := by
  unfold Explains at h
  simp only [Nat.zero_add] at h
  cases outcome with
  | published => exact .inl ⟨rfl, h⟩
  | contextEnded err => exact .inr ⟨nofun, h.2, .inr ⟨err, rfl, h.1⟩⟩
  | failed attempts joined => exact .inr ⟨nofun, h.2, .inl h.1⟩
  | noProducers => exact h.elim
  | indexOutOfRange index => exact h.elim

theorem attempt_spec (f : NsqForwarder size) (env : PublishEnv) (hpos : 0 < f.endpoints.length)
    (attempts : Int) {left i : Nat} (h : left ≠ 0 → 0 ≤ f.start)
    (hle : i + left ≤ f.endpoints.length)
    (joined : List (GoString × GoString)) :
    let (tried, outcome) := f.attempt env attempts f.start left i joined
    tried = (List.range' i tried.length).map (fun k => (f.start.toNat + k) % f.endpoints.length) ∧
      tried.length ≤ left ∧ Explains env i tried.length left outcome := by
  induction left generalizing i joined with
  | zero => exact ⟨rfl, le_rfl, rfl, nofun⟩
  | succ left ih =>
    have hstart := h (Nat.succ_ne_zero left)
    have hindex := f.index_eq hpos hstart (show i < f.endpoints.length by omega)
    have hlt := Nat.mod_lt (f.start.toNat + i) hpos
    have hat : f.endpointAt ((f.start.toNat + i) % f.endpoints.length : Nat) =
        some (f.endpoints.get ⟨_, hlt⟩) := by
      rw [endpointAt, if_neg (by omega), Int.toNat_natCast]
      exact List.getElem?_eq_getElem hlt
    simp only [attempt]
    cases hctx : env.ctxErr i with
    | some err => exact ⟨rfl, Nat.zero_le _, hctx, nofun⟩
    | none =>
      simp only [hindex, hat]
      cases hpublish : env.publishErr i with
      | none => exact ⟨rfl, by simp, 0, rfl, hpublish, nofun⟩
      | some err =>
        obtain ⟨htried, hlen, hexplains⟩ :=
          ih (fun _ => hstart) (show i + 1 + left ≤ f.endpoints.length by omega)
            (joined ++ [(_, err)])
        refine ⟨?_, Nat.succ_le_succ hlen, hexplains.cons (by rw [hpublish]; nofun)⟩
        rw [List.length_cons, List.range'_succ, List.map_cons, Int.toNat_natCast]
        exact congrArg _ htried

theorem attempts_le (f : NsqForwarder size) :
    f.attempts ≤ min (f.retryAttempts + 1) f.endpoints.length := by
  obtain ⟨hnonneg, hlt⟩ := f.accepted
  refine min_le_min_right _ ?_
  have hbmod : size.int (f.retryAttempts + 1) ≤ (f.retryAttempts + 1) % (2 ^ size.bits : Nat) := by
    rw [IntSize.int, Int.bmod]
    split
    · exact le_rfl
    · omega
  refine hbmod.trans ?_
  cases size with
  | bits32 =>
    simp only [IntSize.bits]
    omega
  | bits64 =>
    simp only [IntSize.bits]
    omega

/-- A call makes an attempt unless `retryAttempts + 1` overflows. -/
theorem attempts_pos_iff (f : NsqForwarder size) (hpos : 0 < f.endpoints.length) :
    0 < f.attempts ↔ f.retryAttempts + 1 ≠ 2 ^ (size.bits - 1) := by
  obtain ⟨hnonneg, hlt⟩ := f.accepted
  rw [attempts, lt_min_iff, IntSize.int, Int.bmod]
  cases size <;> simp only [IntSize.bits] at * <;> split_ifs <;> omega

/-- The next value of the counter is the next `int`, or the least one after the greatest. -/
theorem int_next (c : UInt64) :
    size.int (c + 1).toNat = size.int c.toNat + 1 ∨
      size.int (c + 1).toNat = -2 ^ (size.bits - 1) ∧
        size.int c.toNat + 1 = 2 ^ (size.bits - 1) := by
  have hlt := c.toNat_lt
  rw [UInt64.toNat_add, IntSize.int, IntSize.int, Int.bmod, Int.bmod]
  cases size <;> simp only [IntSize.bits, UInt64.toNat_one] <;> split_ifs <;> omega

/-- A safe start comes right after the start of the call before. -/
theorem next_start {f after : NsqForwarder size} (hendpoints : after.endpoints = f.endpoints)
    (hnext : after.next = f.next + 1) (h : after.Safe) :
    after.start = (f.start + 1) % f.endpoints.length := by
  have hbefore : f.start % f.endpoints.length = size.int f.next.toNat % f.endpoints.length := by
    rw [start, UInt64.add_sub_cancel, Int.tmod_eq_emod]
    split <;> simp
  rw [Safe, hendpoints, hnext] at h
  rw [start, UInt64.add_sub_cancel, hendpoints, hnext, Int.tmod_eq_emod, if_pos h, Int.natCast_zero,
    Int.sub_zero, ← Int.emod_add_emod, hbefore, Int.emod_add_emod]
  rcases int_next f.next with hsucc | ⟨hleast, hgreatest⟩
  · rw [hsucc]
  · -- the counter wraps to a multiple of the length, which then divides the size of the jump
    rw [hleast] at h
    have hdvd : (f.endpoints.length : Int) ∣ 2 ^ (size.bits - 1) :=
      Int.dvd_neg.mp (h.resolve_left (by cases size <;> decide))
    rw [hleast, hgreatest, Int.emod_eq_zero_of_dvd hdvd,
      Int.emod_eq_zero_of_dvd (Int.dvd_neg.mpr hdvd)]

end NsqForwarder

/-- What publishing promises of one call: no index is out of range; at most
`min (retryAttempts + 1) n` different endpoints are tried, in cyclic order from the start on, and
the next call starts right after; the call stops at the first success, and reports an error only if
every tried endpoint failed or the context ended. -/
structure NsqForwarder.Rotates {size : IntSize} (f : NsqForwarder size) (env : PublishEnv)
    (tried : List Nat) (outcome : PublishOutcome) (after : NsqForwarder size) : Prop where
  in_range : ∀ index, outcome ≠ .indexOutOfRange index
  bounded : (tried.length : Int) ≤ min (f.retryAttempts + 1) f.endpoints.length
  endpoints : ∀ position ∈ tried, position < f.endpoints.length
  distinct : tried.Nodup
  cyclic : tried =
    (List.range tried.length).map fun i => (f.start.toNat + i) % f.endpoints.length
  kept : after.endpoints = f.endpoints
  next : after.Safe → after.start = (f.start + 1) % f.endpoints.length
  stops : ∀ i, i + 1 < tried.length → env.publishErr i ≠ none
  published : outcome = .published ↔ ∃ i, tried.length = i + 1 ∧ env.publishErr i = none
  reported : outcome ≠ .published → (∀ i < tried.length, env.publishErr i ≠ none) ∧
    (tried.length = f.attempts.toNat ∨
      ∃ err, outcome = .contextEnded err ∧ env.ctxErr tried.length = some err)

theorem NsqForwarder.rotates_of_spec {size : IntSize} {f : NsqForwarder size} {env : PublishEnv}
    (hpos : 0 < f.endpoints.length) {result : List Nat × PublishOutcome}
    (h : result.1 = (List.range' 0 result.1.length).map
        (fun k => (f.start.toNat + k) % f.endpoints.length) ∧
      result.1.length ≤ f.attempts.toNat ∧
      Explains env 0 result.1.length f.attempts.toNat result.2) :
    f.Rotates env result.1 result.2 { f with next := f.next + 1 } := by
  obtain ⟨tried, outcome⟩ := result
  obtain ⟨htried, hlength, hexplains⟩ := h
  have hattempts := f.attempts_le
  have haccepted := f.accepted.1
  dsimp only at *
  rw [← List.range_eq_range'] at htried
  refine ⟨?_, by omega, ?_, ?_, htried, rfl, next_start rfl rfl, ?_, ?_, ?_⟩
  · rintro index rfl
    exact hexplains
  · intro position hmem
    rw [htried] at hmem
    obtain ⟨i, -, rfl⟩ := List.mem_map.mp hmem
    exact Nat.mod_lt _ hpos
  · rw [htried]
    refine List.Nodup.map_on (fun i hi j hj heq => ?_) List.nodup_range
    rw [List.mem_range] at hi hj
    exact Nat.ModEq.eq_of_lt_of_lt (Nat.ModEq.add_left_cancel' f.start.toNat heq) (by omega)
      (by omega)
  · intro i hi
    rcases hexplains.cases with ⟨-, failed, hmade, -, hbefore⟩ | ⟨-, hall, -⟩
    · exact hbefore i (by omega)
    · exact hall i (by omega)
  · rcases hexplains.cases with ⟨hsuccess, failed, hmade, hlast, -⟩ | ⟨hnot, hall, -⟩
    · exact iff_of_true hsuccess ⟨failed, hmade, hlast⟩
    · refine iff_of_false hnot ?_
      rintro ⟨i, hmade, hlast⟩
      exact hall i (by omega) hlast
  · intro hnot
    rcases hexplains.cases with ⟨hsuccess, -⟩ | ⟨-, hall⟩
    · exact absurd hsuccess hnot
    · exact hall

/-- NSQ publishing rotates safely if and only if the converted counter is not negative or a multiple
of the number of endpoints, or no attempt is made because `retryAttempts + 1` overflows. -/
theorem publish_rotates {size : IntSize} (f : NsqForwarder size) (hendpoints : f.endpoints ≠ []) :
    (∀ env, f.Rotates env (f.publish env).1.1 (f.publish env).1.2 (f.publish env).2) ↔
      f.Safe ∨ f.retryAttempts + 1 = 2 ^ (size.bits - 1) := by
  have hpos := List.length_pos_of_ne_nil hendpoints
  have hpublish : ∀ env, f.publish env =
      (f.attempt env f.attempts f.start f.attempts.toNat 0 [], { f with next := f.next + 1 }) :=
    fun env => if_neg (Nat.ne_of_gt hpos)
  constructor
  · intro hall
    by_contra hunsafe
    obtain ⟨hstart, hretry⟩ := not_or.mp hunsafe
    rw [← f.start_nonneg_iff hpos, not_le] at hstart
    have hattempts := (f.attempts_pos_iff hpos).mpr hretry
    obtain ⟨left, hleft⟩ := Nat.exists_eq_succ_of_ne_zero (show f.attempts.toNat ≠ 0 by omega)
    -- the first attempt of a call whose context is live
    refine (hall ⟨fun _ => none, fun _ => none⟩).in_range f.start ?_
    simp only [hpublish, hleft, NsqForwarder.attempt, f.first_index_eq hpos hstart,
      NsqForwarder.endpointAt, if_pos hstart]
  · intro hsafe env
    have hstart : f.attempts.toNat ≠ 0 → 0 ≤ f.start := by
      intro hattempts
      rw [f.start_nonneg_iff hpos]
      exact hsafe.resolve_right ((f.attempts_pos_iff hpos).mp (by omega))
    have hle : 0 + f.attempts.toNat ≤ f.endpoints.length := by
      have hattempts : f.attempts ≤ f.endpoints.length := min_le_right _ _
      omega
    rw [hpublish]
    exact NsqForwarder.rotates_of_spec hpos (f.attempt_spec env hpos f.attempts hstart hle [])

/-- The second of three producers fails at first: two are tried, and the next call starts at the
third. -/
theorem publish_rotates_three :
    let f : NsqForwarder .bits64 :=
      ⟨[ascii "a:4150", ascii "b:4150", ascii "c:4150"], 1, 4, by decide, by decide⟩
    let env : PublishEnv :=
      ⟨fun _ => none, fun i => if i = 0 then some (ascii "E_TIMEOUT") else none⟩
    (f.publish env).1 = ([1, 2], .published) ∧ (f.publish env).2.start = 2 := by
  intro f env
  have hsafe : f.Safe := .inl (by decide)
  have hafter : NsqForwarder.Safe (f.publish env).2 := .inl (by decide +kernel)
  refine ⟨by decide +kernel, ?_⟩
  exact (((publish_rotates f (by decide)).mpr (.inl hsafe) env).next hafter).trans
    (by decide +kernel)

/-- A counter of half the range of an `int` starts at a negative index, with either size. -/
theorem negative_start_panics :
    let env : PublishEnv := ⟨fun _ => none, fun _ => none⟩
    let endpoints := [ascii "a:4150", ascii "b:4150", ascii "c:4150"]
    let f64 : NsqForwarder .bits64 := ⟨endpoints, 0, 2 ^ 63, by decide, by decide⟩
    let f32 : NsqForwarder .bits32 := ⟨endpoints, 0, 2 ^ 31, by decide, by decide⟩
    (f64.publish env).1 = ([], .indexOutOfRange (-2)) ∧
      (f32.publish env).1 = ([], .indexOutOfRange (-2)) := by
  decide +kernel

end ZCourier.Adapter
