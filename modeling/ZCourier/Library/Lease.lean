import ZCourier.Library.Interleaving

/-!
# Leases with an expiry time

Threads acquire leases on keys and give them back; a lease carries the time until which it is
valid. `Leasing` reads what a thread holds off its log; the state only *guards* keys.
`Leasing.Exclusive.act` is the rule for exclusion: if a guarded key whose lease has not expired is
neither granted again nor loses its guard unless it is given back, and threads give back only what
they hold, no two threads ever hold the same key.
-/

namespace ZCourier.Library

/-- Which leases an event grants and which keys it gives back. -/
structure Leasing (E : Type) (R : E → Type) (κ : Type) where
  acquires : Event E R → List (κ × Int)
  releases : Event E R → List κ

variable {σ ι E : Type} {R : E → Type} {α κ : Type} [DecidableEq κ]

namespace Leasing

variable (leasing : Leasing E R κ)

/-- The leases after one more event. -/
def next (held : List (κ × Int)) (event : Event E R) : List (κ × Int) :=
  held.filter (fun lease => lease.1 ∉ leasing.releases event) ++ leasing.acquires event

/-- The leases a thread with this log holds. -/
def held (log : List (Event E R)) : List (κ × Int) :=
  log.foldl leasing.next []

/-- The leases of a thread; one that has returned has none. -/
def holds (thread : Thread ι E R α) : List (κ × Int) :=
  match thread.prog with
  | .ret _ => []
  | .perform _ _ => leasing.held thread.log

/-- The key is held after these events. -/
def Holds (key : κ) (log : List (Event E R)) : Prop :=
  ∃ expiry, (key, expiry) ∈ leasing.held log

variable {leasing}

@[simp] theorem held_nil : leasing.held [] = [] := rfl

variable {log : List (Event E R)}

theorem mem_held_concat {event : Event E R} {lease : κ × Int} :
    lease ∈ leasing.held (log ++ [event]) ↔
      (lease ∈ leasing.held log ∧ lease.1 ∉ leasing.releases event) ∨
        lease ∈ leasing.acquires event := by
  simp [held, next]

theorem Holds.concat {key : κ} {event : Event E R} (h : leasing.Holds key log)
    (hkept : key ∉ leasing.releases event) : leasing.Holds key (log ++ [event]) := by
  obtain ⟨expiry, hmem⟩ := h
  exact ⟨expiry, mem_held_concat.mpr (.inl ⟨hmem, hkept⟩)⟩

theorem holds_of_acquired {key : κ} {expiry : Int} {event : Event E R}
    (h : (key, expiry) ∈ leasing.acquires event) : leasing.Holds key (log ++ [event]) :=
  ⟨expiry, mem_held_concat.mpr (.inr h)⟩

theorem mem_holds {thread : Thread ι E R α} {lease : κ × Int} (h : lease ∈ leasing.holds thread) :
    lease ∈ leasing.held thread.log := by
  unfold holds at h
  split at h
  · simp at h
  · exact h

variable (leasing) in
/-- Every lease is guarded by the state, and no key is held by two threads. -/
structure Exclusive (guards : σ → κ → Int → Prop) (config : Config σ ι E R α) : Prop where
  guarded : ∀ thread ∈ config.threads, ∀ lease ∈ leasing.holds thread,
    guards config.state lease.1 lease.2
  disjoint : ∀ {i j : Nat}, i ≠ j → ∀ {left right : Thread ι E R α},
    config.threads[i]? = some left → config.threads[j]? = some right →
    ∀ lease ∈ leasing.holds left, ∀ lease' ∈ leasing.holds right, lease.1 ≠ lease'.1

namespace Exclusive

variable {guards : σ → κ → Int → Prop} {config : Config σ ι E R α}

theorem idle (state : σ) :
    leasing.Exclusive guards (Config.idle state : Config σ ι E R α) where
  guarded := by simp [Config.idle]
  disjoint := by simp [Config.idle]

theorem start (h : leasing.Exclusive guards config) {state : σ} {tag : ι} {prog : Prog E R α}
    (hstate : ∀ {key expiry}, guards config.state key expiry → guards state key expiry) :
    leasing.Exclusive guards ⟨state, config.threads ++ [⟨tag, [], prog⟩]⟩ := by
  have hnew : ∀ {lease}, lease ∉ leasing.holds (⟨tag, [], prog⟩ : Thread ι E R α) :=
    fun hmem => by simpa using mem_holds hmem
  have hold : ∀ {i : Nat} {thread : Thread ι E R α},
      (config.threads ++ [⟨tag, [], prog⟩])[i]? = some thread →
      (∃ lease, lease ∈ leasing.holds thread) → config.threads[i]? = some thread := by
    rintro i thread hthread ⟨lease, hmem⟩
    rw [List.getElem?_append] at hthread
    split at hthread
    · exact hthread
    · rw [List.getElem?_singleton] at hthread
      split at hthread
      · obtain rfl := Option.some.inj hthread
        exact absurd hmem hnew
      · cases hthread
  refine ⟨fun thread hthread lease hmem => ?_, ?_⟩
  · rcases List.mem_append.mp hthread with hthread | hthread
    · exact hstate (h.guarded thread hthread lease hmem)
    · rw [List.mem_singleton] at hthread
      subst hthread
      exact absurd hmem hnew
  · intro i j hij left right hleft hright l hl r hr
    exact h.disjoint hij (hold hleft ⟨l, hl⟩) (hold hright ⟨r, hr⟩) l hl r hr

/-- A thread acts: what it gives back it held, what it is granted is guarded and was not held,
and leases that have not expired stay guarded. -/
theorem act (h : leasing.Exclusive guards config) {i : Nat} {tag : ι} {log : List (Event E R)}
    {effect : E} {next : R effect → Prog E R α} {response : R effect} {state : σ} {now : Int}
    (hthread : config.threads[i]? = some ⟨tag, log, .perform effect next⟩)
    (hlive : ∀ thread ∈ config.threads, ∀ lease ∈ leasing.holds thread, now < lease.2)
    (hreleases : ∀ key ∈ leasing.releases ⟨effect, response⟩, leasing.Holds key log)
    (hacquires : ∀ lease ∈ leasing.acquires ⟨effect, response⟩, guards state lease.1 lease.2)
    (hkeeps : ∀ {key expiry}, guards config.state key expiry → now < expiry →
      (key ∉ leasing.releases ⟨effect, response⟩ → guards state key expiry) ∧
        ∀ lease ∈ leasing.acquires ⟨effect, response⟩, lease.1 ≠ key) :
    leasing.Exclusive guards
      ⟨state, config.threads.set i ⟨tag, log ++ [⟨effect, response⟩], next response⟩⟩ := by
  -- the leases of the acting thread are old ones it keeps, or granted now
  have hacting : ∀ lease ∈ leasing.holds
      (⟨tag, log ++ [⟨effect, response⟩], next response⟩ : Thread ι E R α),
      (lease ∈ leasing.holds (⟨tag, log, .perform effect next⟩ : Thread ι E R α) ∧
        lease.1 ∉ leasing.releases ⟨effect, response⟩) ∨
      lease ∈ leasing.acquires ⟨effect, response⟩ :=
    fun lease hmem => mem_held_concat.mp (mem_holds hmem)
  -- what another thread holds is not given back
  have hother : ∀ {j : Nat} {thread : Thread ι E R α}, i ≠ j →
      config.threads[j]? = some thread → ∀ lease ∈ leasing.holds thread,
      lease.1 ∉ leasing.releases ⟨effect, response⟩ := by
    intro j thread hij hj lease hmem hreleased
    obtain ⟨expiry, hheld⟩ := hreleases _ hreleased
    exact h.disjoint hij hthread hj (lease.1, expiry) hheld lease hmem rfl
  have hguarded : ∀ {j : Nat} {thread : Thread ι E R α}, config.threads[j]? = some thread →
      ∀ lease ∈ leasing.holds thread, guards config.state lease.1 lease.2 ∧ now < lease.2 :=
    fun hj lease hmem => ⟨h.guarded _ (List.mem_of_getElem? hj) lease hmem,
      hlive _ (List.mem_of_getElem? hj) lease hmem⟩
  have hi := (List.getElem?_eq_some_iff.mp hthread).1
  refine ⟨fun thread hmem lease hlease => ?_, ?_⟩
  · obtain ⟨j, hj⟩ := List.getElem?_of_mem hmem
    rw [List.getElem?_set] at hj
    split at hj
    · obtain rfl := Option.some.inj hj
      rcases hacting lease hlease with ⟨hold, hkept⟩ | hnew
      · obtain ⟨hguards, hlt⟩ := hguarded hthread lease hold
        exact (hkeeps hguards hlt).1 hkept
      · exact hacquires lease hnew
    · next hij =>
      obtain ⟨hguards, hlt⟩ := hguarded hj lease hlease
      exact (hkeeps hguards hlt).1 (hother hij hj lease hlease)
  · -- the acting thread against any other, in either order
    have hpair : ∀ {j : Nat} {thread : Thread ι E R α}, i ≠ j →
        config.threads[j]? = some thread → ∀ lease ∈ leasing.holds
          (⟨tag, log ++ [⟨effect, response⟩], next response⟩ : Thread ι E R α),
        ∀ lease' ∈ leasing.holds thread, lease.1 ≠ lease'.1 := by
      intro j thread hij hj lease hlease lease' hlease'
      rcases hacting lease hlease with ⟨hold, -⟩ | hnew
      · exact h.disjoint hij hthread hj lease hold lease' hlease'
      · obtain ⟨hguards, hlt⟩ := hguarded hj lease' hlease'
        exact (hkeeps hguards hlt).2 lease hnew
    intro j k hjk left right hleft hright l hl r hr
    rw [List.getElem?_set] at hleft hright
    split at hleft
    · next hij =>
      subst hij
      obtain rfl := Option.some.inj hleft
      rw [if_neg hjk] at hright
      exact hpair hjk hright l hl r hr
    · next hij =>
      split at hright
      · next hik =>
        subst hik
        obtain rfl := Option.some.inj hright
        exact (hpair hij hleft r hr l hl).symm
      · exact h.disjoint hjk hleft hright l hl r hr

end Exclusive

end Leasing

end ZCourier.Library
