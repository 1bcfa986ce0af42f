import Mathlib.Data.List.GetD
import Mathlib.Data.List.Induction
import Mathlib.Data.List.Rotate
import ZCourier.Go.Values
import ZCourier.Library.Table

/-!
# Endpoint selection of the HTTP forwarder

`endpointSelector` of `internal/adapter/httpforwarder/resolver.go`: the endpoints of a snapshot are
tried in turn, skipping the excluded ones and those that failed less than a cooldown ago. What the
resolver answers and the clock readings are inputs; the observer is left out. `select_complete` is
about one selection, `selection_exact` about any sequence of calls.
-/

namespace ZCourier.Adapter

open Go Library

inductive ResolveError where
  | context (err : ContextError)
  | noAvailableEndpoint
  | other

/-- `endpointSelector`. -/
structure EndpointSelector where
  cooldown : Int
  next : Nat
  unhealthyUntil : Table (Prod.fst : GoString × Int → GoString)

namespace EndpointSelector

/-- `newEndpointSelector`. -/
def new (cooldown : Int) : EndpointSelector := ⟨cooldown, 0, .empty⟩

/-- Whether an endpoint is in cooldown at the given time. -/
def cooling (s : EndpointSelector) (now : Int) (endpoint : GoString) : Bool :=
  match s.unhealthyUntil.get? endpoint with
  | some (_, until_) => now < until_
  | none => false

/-- The loop over `unhealthyUntil` in `Select`: only endpoints of the snapshot that are still in
cooldown stay. -/
def dropHealthy (s : EndpointSelector) (endpoints : List GoString) (now : Int) :
    EndpointSelector :=
  { s with unhealthyUntil := s.unhealthyUntil.keep fun entry =>
      endpoints.contains entry.1 && now < entry.2 }

/-- The loop over the snapshot in `Select`, from `next` on: the index it stops at. -/
def scan (s : EndpointSelector) (endpoints excluded : List GoString) (now : Int) :
    Option (Nat × GoString) :=
  let start := s.next % endpoints.length
  (List.range endpoints.length).findSome? fun offset =>
    let index := (start + offset) % endpoints.length
    let endpoint := endpoints.getD index []
    if excluded.contains endpoint then none
    else if s.cooling now endpoint then none
    else some (index, endpoint)

/-- `Select`, given what the resolver answers. -/
def select (s : EndpointSelector) (resolved : Except ResolveError (List GoString))
    (excluded : List GoString) (now : Int) : Except ResolveError GoString × EndpointSelector :=
  match resolved with
  | .error err => (.error err, s)
  | .ok endpoints =>
    if endpoints = [] then (.error .noAvailableEndpoint, s)
    else
      let s := s.dropHealthy endpoints now
      match s.scan endpoints excluded now with
      | none => (.error .noAvailableEndpoint, s)
      | some (index, endpoint) =>
        let s := { s with next := (index + 1) % endpoints.length }
        -- an empty name stops the loop, but counts as nothing selected
        if endpoint ≠ [] then (.ok endpoint, s) else (.error .noAvailableEndpoint, s)

/-- `MarkFailure`. -/
def markFailure (s : EndpointSelector) (endpoint : GoString) (now : Int) : EndpointSelector :=
  if endpoint = [] || s.cooldown ≤ 0 then s
  else { s with unhealthyUntil := s.unhealthyUntil.put (endpoint, now + s.cooldown) }

/-- `MarkSuccess`. -/
def markSuccess (s : EndpointSelector) (endpoint : GoString) : EndpointSelector :=
  if endpoint = [] then s
  else { s with unhealthyUntil := s.unhealthyUntil.erase endpoint }

/-! ## One selection -/

section Select

variable {s : EndpointSelector} {endpoints excluded : List GoString} {now : Int}

theorem cooling_iff {endpoint : GoString} : s.cooling now endpoint = true ↔
    ∃ until_, s.unhealthyUntil.get? endpoint = some (endpoint, until_) ∧ now < until_ := by
  unfold cooling
  cases h : s.unhealthyUntil.get? endpoint with
  | none => simp
  | some entry =>
    obtain ⟨name, until_⟩ := entry
    obtain rfl : name = endpoint := Table.key_of_get? h
    simp

theorem cooling_dropHealthy {endpoint : GoString} (hmem : endpoint ∈ endpoints) :
    (s.dropHealthy endpoints now).cooling now endpoint = s.cooling now endpoint := by
  unfold cooling dropHealthy
  simp only [Table.get?_keep]
  cases h : s.unhealthyUntil.get? endpoint with
  | none => rfl
  | some entry =>
    obtain ⟨name, until_⟩ := entry
    obtain rfl : name = endpoint := Table.key_of_get? h
    by_cases hnow : now < until_
    · simp [hmem, hnow, Option.filter]
    · simp [hnow, Option.filter]

/-- An endpoint that `Select` may choose. -/
def Eligible (s : EndpointSelector) (endpoints excluded : List GoString) (now : Int)
    (endpoint : GoString) : Prop :=
  endpoint ∈ endpoints ∧ endpoint ∉ excluded ∧ s.cooling now endpoint = false

theorem getD_mem {index : Nat} (h : index < endpoints.length) :
    endpoints.getD index [] ∈ endpoints := by
  rw [List.getD_eq_getElem _ _ h]
  exact List.getElem_mem h

theorem scan_eq_some {index : Nat} {endpoint : GoString}
    (h : s.scan endpoints excluded now = some (index, endpoint)) :
    index < endpoints.length ∧ endpoints.getD index [] = endpoint ∧
      s.Eligible endpoints excluded now endpoint := by
  obtain ⟨offset, hoffset, hchosen⟩ := List.exists_of_findSome?_eq_some h
  have hpos : 0 < endpoints.length := Nat.zero_lt_of_lt (List.mem_range.mp hoffset)
  simp only at hchosen
  split at hchosen
  · cases hchosen
  · next hexcluded =>
    split at hchosen
    · cases hchosen
    · next hcooling =>
      obtain ⟨rfl, rfl⟩ := Prod.mk.inj (Option.some.inj hchosen)
      have hindex := Nat.mod_lt (s.next % endpoints.length + offset) hpos
      exact ⟨hindex, rfl, getD_mem hindex, by simpa using hexcluded, by simpa using hcooling⟩

theorem scan_eq_none (h : s.scan endpoints excluded now = none) (endpoint : GoString) :
    ¬ s.Eligible endpoints excluded now endpoint := by
  rintro ⟨hmem, hexcluded, hcooling⟩
  obtain ⟨index, hindex, rfl⟩ := List.getElem_of_mem hmem
  -- the offset at which the scan is at this endpoint
  have hstart := Nat.mod_lt s.next (Nat.zero_lt_of_lt hindex)
  generalize hs : s.next % endpoints.length = start at *
  have hoffset : ∃ offset < endpoints.length, (start + offset) % endpoints.length = index := by
    rcases Nat.lt_or_ge index start with hlt | hge
    · refine ⟨index + endpoints.length - start, by omega, ?_⟩
      rw [show start + (index + endpoints.length - start) = index + endpoints.length by omega,
        Nat.add_mod_right, Nat.mod_eq_of_lt hindex]
    · exact ⟨index - start, by omega, by rw [Nat.add_sub_of_le hge, Nat.mod_eq_of_lt hindex]⟩
  obtain ⟨offset, hlt, rfl⟩ := hoffset
  have hnone := List.findSome?_eq_none_iff.mp h offset (List.mem_range.mpr hlt)
  simp only [hs] at hnone
  rw [List.getD_eq_getElem _ _ hindex] at hnone
  simp [hexcluded, hcooling] at hnone

theorem select_complete (hendpoints : endpoints ≠ []) (hnames : ∀ e ∈ endpoints, e ≠ []) :
    (∃ e, (s.select (.ok endpoints) excluded now).1 = .ok e ∧ s.Eligible endpoints excluded now e) ∨
      (s.select (.ok endpoints) excluded now).1 = .error .noAvailableEndpoint ∧
        ∀ e, ¬ s.Eligible endpoints excluded now e := by
  have heligible : ∀ e, (s.dropHealthy endpoints now).Eligible endpoints excluded now e ↔
      s.Eligible endpoints excluded now e := by
    intro e
    refine and_congr_right fun hmem => ?_
    rw [cooling_dropHealthy hmem]
  simp only [select, if_neg hendpoints]
  cases hscan : (s.dropHealthy endpoints now).scan endpoints excluded now with
  | none => exact .inr ⟨rfl, fun e he => scan_eq_none hscan e ((heligible e).mpr he)⟩
  | some found =>
    obtain ⟨index, endpoint⟩ := found
    obtain ⟨-, -, hchosen⟩ := scan_eq_some hscan
    refine .inl ⟨endpoint, ?_, (heligible endpoint).mp hchosen⟩
    simp only [if_pos (hnames endpoint hchosen.1)]

theorem select_unhealthy (s : EndpointSelector) (resolved : Except ResolveError (List GoString))
    (excluded : List GoString) (now : Int) :
    (s.select resolved excluded now).2.cooldown = s.cooldown ∧
      ∀ entry : GoString × Int,
        (s.select resolved excluded now).2.unhealthyUntil.get? entry.1 = some entry ↔
          s.unhealthyUntil.get? entry.1 = some entry ∧
            ∀ endpoints, resolved = .ok endpoints → endpoints ≠ [] →
              entry.1 ∈ endpoints ∧ now < entry.2 := by
  cases resolved with
  | error err => exact ⟨rfl, fun entry => ⟨fun h => ⟨h, nofun⟩, And.left⟩⟩
  | ok endpoints =>
    by_cases hempty : endpoints = []
    · subst hempty
      refine ⟨rfl, fun entry => ⟨fun h => ⟨h, ?_⟩, And.left⟩⟩
      intro endpoints heq hne
      cases heq
      exact absurd rfl hne
    · have hsame : (s.select (.ok endpoints) excluded now).2.cooldown = s.cooldown ∧
          (s.select (.ok endpoints) excluded now).2.unhealthyUntil =
            (s.dropHealthy endpoints now).unhealthyUntil := by
        simp only [select, if_neg hempty]
        split
        · exact ⟨rfl, rfl⟩
        · split <;> exact ⟨rfl, rfl⟩
      refine ⟨hsame.1, fun entry => ?_⟩
      rw [hsame.2, dropHealthy, Table.get?_keep, Option.filter_eq_some_iff]
      refine and_congr_right fun _ => ?_
      simp [hempty]

end Select

end EndpointSelector

/-! ## Sequences of calls -/

/-- A call of a selector, with what the resolver answers and the clock reading. -/
inductive SelectorCall where
  | select (resolved : Except ResolveError (List GoString)) (excluded : List GoString) (now : Int)
  | markFailure (endpoint : GoString) (now : Int)
  | markSuccess (endpoint : GoString)

namespace SelectorCall

/-- The selector after a call. -/
def after (s : EndpointSelector) : SelectorCall → EndpointSelector
  | .select resolved excluded now => (s.select resolved excluded now).2
  | .markFailure endpoint now => s.markFailure endpoint now
  | .markSuccess endpoint => s.markSuccess endpoint

def answer? (s : EndpointSelector) : SelectorCall → Option (Except ResolveError GoString)
  | .select resolved excluded now => some (s.select resolved excluded now).1
  | _ => none

/-- The clock reading of a call. -/
def now? : SelectorCall → Option Int
  | .select _ _ now => some now
  | .markFailure _ now => some now
  | .markSuccess _ => none

/-- Whether a call marks an endpoint. -/
def marks (endpoint : GoString) : SelectorCall → Bool
  | .select _ _ _ => false
  | .markFailure marked _ => marked = endpoint
  | .markSuccess marked => marked = endpoint

/-- Whether a call selects from a snapshot that does not have the endpoint. -/
def misses (endpoint : GoString) : SelectorCall → Bool
  | .select (.ok endpoints) _ _ => endpoints ≠ [] && !endpoints.contains endpoint
  | _ => false

end SelectorCall

/-- The clock readings of some calls. -/
def readings (calls : List SelectorCall) : List Int := calls.filterMap SelectorCall.now?

/-- The latest mark of the endpoint was a failure at time `t`, and the endpoint has been in every
snapshot selected from since. -/
def FailedAt (endpoint : GoString) (calls : List SelectorCall) (t : Int) : Prop :=
  ∃ before after, calls = before ++ .markFailure endpoint t :: after ∧
    (∀ call ∈ after, call.marks endpoint = false) ∧ ∀ call ∈ after, call.misses endpoint = false

namespace EndpointSelector

/-- The selector after some calls. -/
def serve (s : EndpointSelector) (calls : List SelectorCall) : EndpointSelector :=
  calls.foldl SelectorCall.after s

/-- What the selections among some calls answer. -/
def answers : EndpointSelector → List SelectorCall → List (Except ResolveError GoString)
  | _, [] => []
  | s, call :: rest => (call.answer? s).toList ++ answers (call.after s) rest

end EndpointSelector

section Cooling

variable {endpoint : GoString} {calls : List SelectorCall} {t : Int}

theorem failedAt_concat {call : SelectorCall} : FailedAt endpoint (calls ++ [call]) t ↔
    call = .markFailure endpoint t ∨
      FailedAt endpoint calls t ∧ call.marks endpoint = false ∧ call.misses endpoint = false := by
  constructor
  · rintro ⟨before, after, heq, hmarks, hmisses⟩
    rcases List.eq_nil_or_concat after with rfl | ⟨after, last, rfl⟩
    · exact .inl (List.singleton_inj.mp (List.append_inj' heq rfl).2)
    · rw [List.concat_eq_append] at *
      rw [← List.cons_append, ← List.append_assoc] at heq
      obtain ⟨hcalls, hlast⟩ := List.append_inj' heq rfl
      obtain rfl := List.singleton_inj.mp hlast
      exact .inr ⟨⟨before, after, hcalls, fun c hc => hmarks c (by simp [hc]),
        fun c hc => hmisses c (by simp [hc])⟩, hmarks call (by simp), hmisses call (by simp)⟩
  · rintro (rfl | ⟨⟨before, after, rfl, hmarks, hmisses⟩, hmark, hmiss⟩)
    · exact ⟨calls, [], rfl, nofun, nofun⟩
    · refine ⟨before, after ++ [call], by simp, fun c hc => ?_, fun c hc => ?_⟩
      · rcases List.mem_append.mp hc with hc | hc
        · exact hmarks c hc
        · rwa [List.mem_singleton.mp hc]
      · rcases List.mem_append.mp hc with hc | hc
        · exact hmisses c hc
        · rwa [List.mem_singleton.mp hc]

/-- What a selector remembers of the calls so far: the endpoints that failed and have not been
marked or missed since, unless their cooldown is over. -/
structure Remembers (calls : List SelectorCall) (s : EndpointSelector) : Prop where
  entries : ∀ e until_, s.unhealthyUntil.get? e = some (e, until_) →
    e ≠ [] ∧ ∃ t, until_ = t + s.cooldown ∧ FailedAt e calls t
  kept : ∀ e t, e ≠ [] → FailedAt e calls t →
    s.unhealthyUntil.get? e = some (e, t + s.cooldown) ∨
      ∃ now ∈ readings calls, t + s.cooldown ≤ now

theorem Remembers.new (cooldown : Int) : Remembers [] (.new cooldown) where
  entries := nofun
  kept e t _ h := by
    obtain ⟨before, after, heq, -⟩ := h
    cases before <;> cases heq

theorem readings_concat (calls : List SelectorCall) (call : SelectorCall) :
    readings (calls ++ [call]) = readings calls ++ call.now?.toList := by
  rw [readings, readings, List.filterMap_append]
  cases h : call.now? <;> simp [h]

variable {s : EndpointSelector}

theorem Remembers.kept_concat (h : Remembers calls s) {call : SelectorCall} (hname : endpoint ≠ [])
    (hfailed : FailedAt endpoint calls t) :
    s.unhealthyUntil.get? endpoint = some (endpoint, t + s.cooldown) ∨
      ∃ now ∈ readings (calls ++ [call]), t + s.cooldown ≤ now := by
  refine (h.kept endpoint t hname hfailed).imp_right ?_
  rintro ⟨now, hmem, hover⟩
  exact ⟨now, readings_concat calls call ▸ List.mem_append_left _ hmem, hover⟩

/-- A call that leaves the entries alone keeps what a selector remembers, if it neither marks nor
misses a named endpoint. -/
theorem Remembers.other (h : Remembers calls s) {call : SelectorCall}
    (hcall : ∀ e, e ≠ [] → call.marks e = false ∧ call.misses e = false ∧
      ∀ t, call ≠ .markFailure e t) : Remembers (calls ++ [call]) s where
  entries e until_ hentry := by
    obtain ⟨hname, t, hts, hfailed⟩ := h.entries e until_ hentry
    obtain ⟨hmarks, hmisses, -⟩ := hcall e hname
    exact ⟨hname, t, hts, failedAt_concat.mpr (.inr ⟨hfailed, hmarks, hmisses⟩)⟩
  kept e t hname hfailed := by
    rcases failedAt_concat.mp hfailed with heq | ⟨hfailed, -⟩
    · exact absurd heq ((hcall e hname).2.2 t)
    · exact h.kept_concat hname hfailed

/-- Every call keeps what a selector remembers. -/
theorem Remembers.step (h : Remembers calls s) (hcooldown : 0 < s.cooldown) (call : SelectorCall) :
    Remembers (calls ++ [call]) (call.after s) ∧
      (call.after s).cooldown = s.cooldown := by
  cases call with
  | select resolved excluded now =>
    obtain ⟨hsame, hget⟩ := s.select_unhealthy resolved excluded now
    refine ⟨⟨fun e until_ hentry => ?_, fun e t hname hfailed => ?_⟩, hsame⟩
    · obtain ⟨hentry, hpresent⟩ := (hget (e, until_)).mp hentry
      obtain ⟨hname, t, hts, hfailed⟩ := h.entries e until_ hentry
      refine ⟨hname, t, hts.trans (congrArg (t + ·) hsame.symm), failedAt_concat.mpr
        (.inr ⟨hfailed, rfl, ?_⟩)⟩
      cases resolved with
      | error err => rfl
      | ok endpoints =>
        simp only [SelectorCall.misses]
        by_cases hempty : endpoints = []
        · simp [hempty]
        · simp [(hpresent endpoints rfl hempty).1]
    · obtain ⟨hfailed, -, hmiss⟩ := (failedAt_concat.mp hfailed).resolve_left (by rintro ⟨⟩)
      show (s.select resolved excluded now).2.unhealthyUntil.get? e = some (e, t + _) ∨ _
      rw [show (SelectorCall.after s (.select resolved excluded now)).cooldown = s.cooldown
        from hsame, readings_concat]
      rcases h.kept e t hname hfailed with hentry | ⟨earlier, hmem, hover⟩
      · by_cases hover : t + s.cooldown ≤ now
        · exact .inr ⟨now, by simp [SelectorCall.now?], hover⟩
        · refine .inl ((hget (e, t + s.cooldown)).mpr ⟨hentry, ?_⟩)
          rintro endpoints rfl hne
          refine ⟨?_, not_le.mp hover⟩
          simpa [SelectorCall.misses, hne] using hmiss
      · exact .inr ⟨earlier, List.mem_append_left _ hmem, hover⟩
  | markFailure endpoint now =>
    show Remembers _ (s.markFailure endpoint now) ∧ (s.markFailure endpoint now).cooldown = _
    by_cases hempty : endpoint = []
    · rw [EndpointSelector.markFailure, if_pos (by simp [hempty])]
      refine ⟨h.other fun e hname => ?_, rfl⟩
      subst hempty
      exact ⟨decide_eq_false hname.symm, rfl, fun t heq => hname (by cases heq; rfl)⟩
    · rw [EndpointSelector.markFailure, if_neg (by simp [hempty, hcooldown])]
      refine ⟨⟨fun e until_ hentry => ?_, fun e t hname hfailed => ?_⟩, rfl⟩
      · replace hentry : (s.unhealthyUntil.put (endpoint, now + s.cooldown)).get? e =
          some (e, until_) := hentry
        rw [Table.get?_put] at hentry
        split at hentry
        · cases hentry
          exact ⟨hempty, now, rfl, failedAt_concat.mpr (.inl rfl)⟩
        · next hne =>
          obtain ⟨hname, t, hts, hfailed⟩ := h.entries e until_ hentry
          exact ⟨hname, t, hts, failedAt_concat.mpr
            (.inr ⟨hfailed, decide_eq_false (Ne.symm hne), rfl⟩)⟩
      · show (s.unhealthyUntil.put (endpoint, now + s.cooldown)).get? e = some (e, t + _) ∨ _
        rcases failedAt_concat.mp hfailed with heq | ⟨hfailed, hmark, -⟩
        · cases heq
          exact .inl Table.get?_put_self
        · have hne : e ≠ endpoint := Ne.symm (of_decide_eq_false hmark)
          rw [Table.get?_put_ne hne]
          exact h.kept_concat hname hfailed
  | markSuccess endpoint =>
    show Remembers _ (s.markSuccess endpoint) ∧ (s.markSuccess endpoint).cooldown = _
    by_cases hempty : endpoint = []
    · rw [EndpointSelector.markSuccess, if_pos hempty]
      refine ⟨h.other fun e hname => ?_, rfl⟩
      subst hempty
      exact ⟨decide_eq_false hname.symm, rfl, fun t heq => by cases heq⟩
    · rw [EndpointSelector.markSuccess, if_neg hempty]
      refine ⟨⟨fun e until_ hentry => ?_, fun e t hname hfailed => ?_⟩, rfl⟩
      · replace hentry : (s.unhealthyUntil.erase endpoint).get? e = some (e, until_) := hentry
        rw [Table.get?_erase] at hentry
        split at hentry
        · cases hentry
        · next hne =>
          obtain ⟨hname, t, hts, hfailed⟩ := h.entries e until_ hentry
          exact ⟨hname, t, hts, failedAt_concat.mpr
            (.inr ⟨hfailed, decide_eq_false (Ne.symm hne), rfl⟩)⟩
      · show (s.unhealthyUntil.erase endpoint).get? e = some (e, t + _) ∨ _
        obtain ⟨hfailed, hmark, -⟩ := (failedAt_concat.mp hfailed).resolve_left (by rintro ⟨⟩)
        have hne : e ≠ endpoint := Ne.symm (of_decide_eq_false hmark)
        rw [Table.get?_erase, if_neg hne]
        exact h.kept_concat hname hfailed

theorem EndpointSelector.serve_remembers {cooldown : Int} (hcooldown : 0 < cooldown)
    (calls : List SelectorCall) :
    Remembers calls ((EndpointSelector.new cooldown).serve calls) ∧
      ((EndpointSelector.new cooldown).serve calls).cooldown = cooldown := by
  induction calls using List.reverseRecOn with
  | nil => exact ⟨.new cooldown, rfl⟩
  | append_singleton calls call ih =>
    obtain ⟨hremembers, hsame⟩ := ih
    rw [EndpointSelector.serve, List.foldl_concat]
    obtain ⟨hstep, hkept⟩ := hremembers.step (hcooldown.trans_eq hsame.symm) call
    exact ⟨hstep, hkept.trans hsame⟩

/-- The endpoints in cooldown are those whose latest mark was a failure less than a cooldown ago and
that have been in every snapshot since. -/
theorem EndpointSelector.cooling_serve {cooldown : Int} (hcooldown : 0 < cooldown)
    (calls : List SelectorCall) {now : Int} (hnow : ∀ earlier ∈ readings calls, earlier ≤ now)
    (hname : endpoint ≠ []) :
    ((EndpointSelector.new cooldown).serve calls).cooling now endpoint = true ↔
      ∃ t, FailedAt endpoint calls t ∧ now - t < cooldown := by
  obtain ⟨hremembers, hsame⟩ := EndpointSelector.serve_remembers hcooldown calls
  generalize (EndpointSelector.new cooldown).serve calls = s at *
  rw [cooling_iff]
  constructor
  · rintro ⟨until_, hentry, hlt⟩
    obtain ⟨-, t, rfl, hfailed⟩ := hremembers.entries endpoint until_ hentry
    exact ⟨t, hfailed, by omega⟩
  · rintro ⟨t, hfailed, hlt⟩
    rcases hremembers.kept endpoint t hname hfailed with hentry | ⟨earlier, hmem, hover⟩
    · exact ⟨_, hentry, by omega⟩
    · have hle := hnow earlier hmem
      omega

end Cooling

/-! ## Going round -/

/-- Every selection among the calls is from this snapshot, with nothing of it excluded or in
cooldown at that moment. -/
def Undisturbed (endpoints : List GoString) : EndpointSelector → List SelectorCall → Prop
  | _, [] => True
  | s, call :: rest =>
    (∀ resolved excluded now, call = .select resolved excluded now → resolved = .ok endpoints ∧
      ∀ e ∈ endpoints, e ∉ excluded ∧ s.cooling now e = false) ∧
    Undisturbed endpoints (call.after s) rest

namespace EndpointSelector

variable {endpoints : List GoString} {s : EndpointSelector}

theorem select_next (hendpoints : endpoints ≠ []) (hnames : ∀ e ∈ endpoints, e ≠ [])
    {excluded : List GoString} {now : Int}
    (hfree : ∀ e ∈ endpoints, e ∉ excluded ∧ s.cooling now e = false) :
    (s.select (.ok endpoints) excluded now).1 =
        .ok (endpoints.getD (s.next % endpoints.length) []) ∧
      (s.select (.ok endpoints) excluded now).2.next =
        (s.next % endpoints.length + 1) % endpoints.length := by
  have hindex := Nat.mod_lt s.next (List.length_pos_of_ne_nil hendpoints)
  have hmem := getD_mem hindex
  have hscan : (s.dropHealthy endpoints now).scan endpoints excluded now =
      some (s.next % endpoints.length, endpoints.getD (s.next % endpoints.length) []) := by
    obtain ⟨rest, hrange⟩ : ∃ rest, List.range endpoints.length = 0 :: rest := by
      obtain ⟨n, hn⟩ := Nat.exists_eq_succ_of_ne_zero
        (Nat.ne_zero_of_lt (List.length_pos_of_ne_nil hendpoints))
      exact ⟨_, by rw [hn, List.range_succ_eq_map]⟩
    have hnext : (s.dropHealthy endpoints now).next = s.next := rfl
    have hexcluded : excluded.contains (endpoints.getD (s.next % endpoints.length) []) = false := by
      simpa using (hfree _ hmem).1
    simp only [scan, hrange, List.findSome?_cons, hnext, Nat.add_zero, Nat.mod_mod,
      cooling_dropHealthy hmem, (hfree _ hmem).2, hexcluded, Bool.false_eq_true, if_false]
  simp only [select, if_neg hendpoints, hscan, if_pos (hnames _ hmem)]
  exact ⟨trivial, trivial⟩

theorem mark_next (s : EndpointSelector) (endpoint : GoString) (now : Int) :
    (s.markFailure endpoint now).next = s.next ∧ (s.markSuccess endpoint).next = s.next := by
  unfold markFailure markSuccess
  constructor <;> split <;> rfl

theorem answers_undisturbed (hendpoints : endpoints ≠ []) (hnames : ∀ e ∈ endpoints, e ≠ [])
    {calls : List SelectorCall} (hfree : Undisturbed endpoints s calls) :
    s.answers calls = (List.range (s.answers calls).length).map fun i =>
      .ok (endpoints.getD ((s.next + i) % endpoints.length) []) := by
  induction calls generalizing s with
  | nil => rfl
  | cons call rest ih =>
    obtain ⟨hcall, hrest⟩ := hfree
    cases call with
    | select resolved excluded now =>
      obtain ⟨rfl, hnothing⟩ := hcall resolved excluded now rfl
      obtain ⟨hanswer, hnext⟩ := select_next hendpoints hnames hnothing
      have hlater := ih hrest
      rw [show (SelectorCall.after s (.select (.ok endpoints) excluded now)).next = _ from hnext]
        at hlater
      simp only [answers, SelectorCall.answer?, hanswer, Option.toList_some,
        List.singleton_append, List.length_cons]
      rw [List.range_succ_eq_map, List.map_cons, List.map_map]
      refine congrArg₂ List.cons rfl (hlater.trans (List.map_congr_left ?_))
      intro i _
      show _ = Except.ok (endpoints.getD ((s.next + (i + 1)) % endpoints.length) [])
      rw [Nat.mod_add_mod, Nat.add_assoc, Nat.mod_add_mod, Nat.add_comm 1 i]
    | markFailure endpoint now =>
      have hlater := ih hrest
      rw [show (SelectorCall.after s (.markFailure endpoint now)).next = s.next from
        (s.mark_next endpoint now).1] at hlater
      exact hlater
    | markSuccess endpoint =>
      have hlater := ih hrest
      rw [show (SelectorCall.after s (.markSuccess endpoint)).next = s.next from
        (s.mark_next endpoint 0).2] at hlater
      exact hlater

theorem answers_round (hendpoints : endpoints ≠ []) (hnames : ∀ e ∈ endpoints, e ≠ [])
    {calls : List SelectorCall} (hfree : Undisturbed endpoints s calls)
    (hcount : (s.answers calls).length = endpoints.length) :
    s.answers calls = (endpoints.rotate s.next).map .ok := by
  rw [answers_undisturbed hendpoints hnames hfree, hcount]
  refine List.ext_getElem (by simp) fun i hi _ => ?_
  rw [List.length_map, List.length_range] at hi
  have hindex := Nat.mod_lt (s.next + i) (Nat.zero_lt_of_lt hi)
  rw [List.getElem_map, List.getElem_map, List.getElem_range, List.getElem_rotate,
    List.getD_eq_getElem _ _ hindex]
  simp only [Nat.add_comm s.next i]

end EndpointSelector

/-- Endpoint selection is complete and round-robin. A selection from a non-empty snapshot returns
an endpoint that is in the snapshot, not excluded and not cooling whenever one exists, and
`ErrNoAvailableEndpoint` otherwise. After any calls that are not in the future, the cooling
endpoints are those whose latest mark was a failure less than a cooldown ago and that have been in
every snapshot selected from since. From any cursor, as many selections from the same distinct
endpoints as there are, with nothing excluded or cooling, return each exactly once. -/
theorem selection_exact (endpoints : List GoString) (hendpoints : endpoints ≠ [])
    (hnames : ∀ e ∈ endpoints, e ≠ []) :
    (∀ (s : EndpointSelector) (excluded : List GoString) (now : Int),
      ((∃ e ∈ endpoints, e ∉ excluded ∧ s.cooling now e = false) →
        ∃ e ∈ endpoints, e ∉ excluded ∧ s.cooling now e = false ∧
          (s.select (.ok endpoints) excluded now).1 = .ok e) ∧
      ((¬ ∃ e ∈ endpoints, e ∉ excluded ∧ s.cooling now e = false) →
        (s.select (.ok endpoints) excluded now).1 = .error .noAvailableEndpoint)) ∧
    (∀ (cooldown : Int) (calls : List SelectorCall) (now : Int), 0 < cooldown →
      (readings calls ++ [now]).Pairwise (· ≤ ·) →
      ∀ e ∈ endpoints, ((EndpointSelector.new cooldown).serve calls).cooling now e = true ↔
        ∃ t, FailedAt e calls t ∧ now - t < cooldown) ∧
    (endpoints.Nodup → ∀ (s : EndpointSelector) (calls : List SelectorCall),
      Undisturbed endpoints s calls → (s.answers calls).length = endpoints.length →
      s.answers calls = (endpoints.rotate s.next).map .ok ∧ (s.answers calls).Nodup ∧
        ∀ e, .ok e ∈ s.answers calls ↔ e ∈ endpoints) := by
  refine ⟨fun s excluded now => ?_, fun cooldown calls now hcooldown hclock e he => ?_,
    fun hnodup s calls hfree hcount => ?_⟩
  · rcases EndpointSelector.select_complete hendpoints hnames with
      ⟨e, hanswer, hmem, hexcluded, hcooling⟩ | ⟨hanswer, hnone⟩
    · exact ⟨fun _ => ⟨e, hmem, hexcluded, hcooling, hanswer⟩,
        fun h => absurd ⟨e, hmem, hexcluded, hcooling⟩ h⟩
    · exact ⟨fun ⟨e, he⟩ => absurd he (hnone e), fun _ => hanswer⟩
  · refine EndpointSelector.cooling_serve hcooldown calls (fun earlier hmem => ?_) (hnames e he)
    exact (List.pairwise_append.mp hclock).2.2 earlier hmem now (by simp)
  · have hround := EndpointSelector.answers_round hendpoints hnames hfree hcount
    refine ⟨hround, ?_, fun e => ?_⟩
    · rw [hround]
      exact (List.nodup_rotate.mpr hnodup).map fun _ _ h => Except.ok.inj h
    · rw [hround, List.mem_map_of_injective (fun _ _ h => Except.ok.inj h), List.mem_rotate]

/-- Three endpoints of which the second has just failed, and a cursor left by a longer snapshot. -/
theorem selection_exact_three :
    let endpoints := [ascii "http://a", ascii "http://b", ascii "http://c"]
    let failed : List SelectorCall := [.markFailure (ascii "http://b") 5]
    let s : EndpointSelector := ⟨10, 7, .empty⟩
    let calls : List SelectorCall := [.select (.ok endpoints) [] 0, .markSuccess (ascii "http://a"),
      .select (.ok endpoints) [] 0, .select (.ok endpoints) [] 1]
    (∃ t, FailedAt (ascii "http://b") failed t ∧ 14 - t < 10) ∧
      s.answers calls =
        [.ok (ascii "http://b"), .ok (ascii "http://c"), .ok (ascii "http://a")] := by
  intro endpoints failed s calls
  obtain ⟨-, hcooling, hround⟩ := selection_exact endpoints (by decide) (by decide)
  refine ⟨(hcooling 10 failed 14 (by decide) (by decide) _ (by decide)).mp (by decide), ?_⟩
  have hrotate : endpoints.rotate s.next =
      [ascii "http://b", ascii "http://c", ascii "http://a"] := by decide
  refine (hround (by decide) s calls ⟨?_, ⟨nofun, ?_, ?_, trivial⟩⟩ (by decide)).1.trans
    (congrArg (List.map Except.ok) hrotate)
  · rintro _ _ _ ⟨⟩
    exact ⟨rfl, by decide⟩
  · rintro _ _ _ ⟨⟩
    exact ⟨rfl, by decide⟩
  · rintro _ _ _ ⟨⟩
    exact ⟨rfl, by decide⟩

end ZCourier.Adapter
