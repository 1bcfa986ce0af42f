import ZCourier.Library.Program

/-!
# Interleaved execution of programs over a shared state

A `System` runs any number of threads over one shared state, each executing a `Prog`. One step
starts a thread or lets one perform its next effect, so an effect is the unit of atomicity. `Step`
is the relation, `System.step` computes it and `System.replay` runs a whole schedule.

The rules are `Run.invariant` for a property of configurations, `Run.protocol` where the proof needs
to know what a thread did before, and `Run.sequential` where one thread runs at a time.
-/

namespace ZCourier.Library

/-- What a shared-state system runs: the code of the thread started for a tag, what
starting it does to the state, and what an effect does. `none` means that the state does
not permit it; `In` is what the surroundings supply to one effect. -/
structure System (σ ι E : Type) (R : E → Type) (In α : Type) where
  body : ι → Prog E R α
  start : ι → σ → Option σ
  exec : (effect : E) → In → σ → Option (R effect × σ)

/-- A started activity: what was started, the events so far and the code still to run. -/
structure Thread (ι E : Type) (R : E → Type) (α : Type) where
  tag : ι
  log : List (Event E R)
  prog : Prog E R α

/-- The shared state and the threads in the order in which they were started. -/
structure Config (σ ι E : Type) (R : E → Type) (α : Type) where
  state : σ
  threads : List (Thread ι E R α)

/-- What happens next: a thread starts, or an existing one performs an effect. -/
inductive Choice (ι In : Type) where
  | start (tag : ι)
  | act (thread : Nat) (input : In)

/-- Some steps of one thread. -/
def Choice.turns {ι In : Type} (thread steps : Nat) (input : In) : List (Choice ι In) :=
  List.replicate steps (.act thread input)

/-- One step of a system with the configurations before and after it. -/
structure Transition (σ ι E : Type) (R : E → Type) (In α : Type) where
  before : Config σ ι E R α
  choice : Choice ι In
  after : Config σ ι E R α

variable {σ ι E : Type} {R : E → Type} {In α : Type}

/-- The configuration in which nothing has been started. -/
def Config.idle (state : σ) : Config σ ι E R α := ⟨state, []⟩

/-- All events, thread by thread. Where one thread runs at a time this is their order. -/
def Config.trace (config : Config σ ι E R α) : List (Event E R) :=
  config.threads.flatMap Thread.log

/-- Nothing is running: every thread has returned. -/
def Config.Quiet (config : Config σ ι E R α) : Prop :=
  ∀ thread ∈ config.threads, thread.prog.result?.isSome

/-- The step relation of a system. -/
inductive Step (sys : System σ ι E R In α) :
    Config σ ι E R α → Choice ι In → Config σ ι E R α → Prop where
  | start {config : Config σ ι E R α} {tag : ι} {state : σ} :
      sys.start tag config.state = some state →
      Step sys config (.start tag) ⟨state, config.threads ++ [⟨tag, [], sys.body tag⟩]⟩
  | act {config : Config σ ι E R α} {i : Nat} {input : In} {tag : ι}
      {log : List (Event E R)} {effect : E} {next : R effect → Prog E R α}
      {response : R effect} {state : σ} :
      config.threads[i]? = some ⟨tag, log, .perform effect next⟩ →
      sys.exec effect input config.state = some (response, state) →
      Step sys config (.act i input)
        ⟨state, config.threads.set i ⟨tag, log ++ [⟨effect, response⟩], next response⟩⟩

def System.step (sys : System σ ι E R In α) (config : Config σ ι E R α) :
    Choice ι In → Option (Config σ ι E R α)
  | .start tag =>
    match sys.start tag config.state with
    | none => none
    | some state => some ⟨state, config.threads ++ [⟨tag, [], sys.body tag⟩]⟩
  | .act i input =>
    match config.threads[i]? with
    | some ⟨tag, log, .perform effect next⟩ =>
      match sys.exec effect input config.state with
      | none => none
      | some (response, state) =>
        some ⟨state, config.threads.set i
          ⟨tag, log ++ [⟨effect, response⟩], next response⟩⟩
    | _ => none

theorem System.step_sound {sys : System σ ι E R In α} {config after : Config σ ι E R α}
    {choice : Choice ι In} (h : sys.step config choice = some after) :
    Step sys config choice after := by
  cases choice with
  | start tag =>
    cases hstart : sys.start tag config.state with
    | none => simp [System.step, hstart] at h
    | some state =>
      simp only [System.step, hstart, Option.some.injEq] at h
      exact h ▸ .start hstart
  | act i input =>
    simp only [System.step] at h
    split at h
    · split at h
      · cases h
      · next hthread _ _ _ hexec =>
        cases h
        exact .act hthread hexec
    · cases h

/-- `Run sys ok start history finish`: a finite execution whose steps all satisfy `ok`. -/
inductive Run (sys : System σ ι E R In α) (ok : Transition σ ι E R In α → Prop) :
    Config σ ι E R α → List (Transition σ ι E R In α) → Config σ ι E R α → Prop where
  | refl (config) : Run sys ok config [] config
  | snoc {start before after : Config σ ι E R α} {history : List (Transition σ ι E R In α)}
      {choice : Choice ι In} :
      Run sys ok start history before → Step sys before choice after →
      ok ⟨before, choice, after⟩ →
      Run sys ok start (history ++ [⟨before, choice, after⟩]) after

variable {sys : System σ ι E R In α} {ok : Transition σ ι E R In α → Prop} {state : σ}
  {start before after : Config σ ι E R α} {history : List (Transition σ ι E R In α)}
  {t : Transition σ ι E R In α}

namespace Run

theorem append {later : List (Transition σ ι E R In α)} (h : Run sys ok start history before)
    (hlater : Run sys ok before later after) : Run sys ok start (history ++ later) after := by
  induction hlater with
  | refl => simpa using h
  | snoc _ hstep hok ih => simpa only [List.append_assoc] using ih.snoc hstep hok

/-- A weaker condition on the steps admits the same execution. -/
theorem mono {ok' : Transition σ ι E R In α → Prop} (h : Run sys ok start history after)
    (hok : ∀ t, ok t → ok' t) : Run sys ok' start history after := by
  induction h with
  | refl => exact .refl _
  | snoc _ hstep ht ih => exact ih.snoc hstep (hok _ ht)

/-- A property kept by every step that satisfies the condition holds after every execution. -/
theorem invariant (inv : Config σ ι E R α → Prop) (hinit : inv start)
    (hstep : ∀ {before choice after}, inv before → Step sys before choice after →
      ok ⟨before, choice, after⟩ → inv after)
    (h : Run sys ok start history after) : inv after := by
  induction h with
  | refl => exact hinit
  | snoc _ hs hok ih => exact hstep ih hs hok

theorem append_inv {front back : List (Transition σ ι E R In α)}
    (h : Run sys ok start (front ++ back) after) :
    ∃ middle, Run sys ok start front middle ∧ Run sys ok middle back after := by
  generalize hhistory : front ++ back = history at h
  induction h generalizing back with
  | refl =>
    obtain ⟨rfl, rfl⟩ := List.append_eq_nil_iff.mp hhistory
    exact ⟨_, .refl _, .refl _⟩
  | snoc hrun hstep hok ih =>
    rcases List.eq_nil_or_concat back with rfl | ⟨back', last, rfl⟩
    · rw [List.append_nil] at hhistory
      exact ⟨_, hhistory ▸ hrun.snoc hstep hok, .refl _⟩
    · rw [List.concat_eq_append, ← List.append_assoc] at hhistory
      obtain ⟨hfront, hlast⟩ := List.append_inj' hhistory rfl
      obtain ⟨middle, hstart, hback⟩ := ih hfront
      obtain rfl := List.head_eq_of_cons_eq hlast
      exact ⟨middle, hstart, List.concat_eq_append ▸ hback.snoc hstep hok⟩

theorem nil_inv (h : Run sys ok start [] after) : start = after := by
  generalize hhistory : [] = history at h
  cases h with
  | refl => rfl
  | snoc => simp at hhistory

theorem cons_inv (h : Run sys ok start (t :: history) after) :
    start = t.before ∧ Run sys ok t.after history after := by
  generalize hhistory : t :: history = whole at h
  induction h generalizing history with
  | refl => cases hhistory
  | @snoc _ _ earlier _ hrun hstep hok ih =>
    cases earlier with
    | nil =>
      obtain ⟨rfl, rfl⟩ := List.cons.inj hhistory
      exact ⟨hrun.nil_inv, .refl _⟩
    | cons first rest =>
      obtain ⟨rfl, rfl⟩ := List.cons.inj hhistory
      obtain ⟨hstart, hrest⟩ := ih rfl
      exact ⟨hstart, hrest.snoc hstep hok⟩

/-- Every transition of an execution is a step from a configuration that an initial part of
the execution reaches. -/
theorem transition (h : Run sys ok start history after) (ht : t ∈ history) :
    (∃ earlier, Run sys ok start earlier t.before) ∧ Step sys t.before t.choice t.after ∧ ok t := by
  induction h with
  | refl => simp at ht
  | snoc hrun hstep hok ih =>
    rcases List.mem_append.mp ht with ht | ht
    · exact ih ht
    · rw [List.mem_singleton] at ht
      subst ht
      exact ⟨⟨_, hrun⟩, hstep, hok⟩

/-- A transition of an execution, with the execution before it. -/
theorem split {front back : List (Transition σ ι E R In α)}
    (h : Run sys ok start history after) (hhistory : history = front ++ t :: back) :
    Run sys ok start front t.before ∧ Step sys t.before t.choice t.after := by
  subst hhistory
  obtain ⟨middle, hfront, hback⟩ := h.append_inv
  obtain ⟨rfl, -⟩ := hback.cons_inv
  exact ⟨hfront, (h.transition (List.mem_append_right _ List.mem_cons_self)).2.1⟩

/-- What a state holds was held at the start or granted by a step, if every step grants what is
new after it. -/
theorem provenance {β : Type} (held : σ → β → Prop) (grants : Transition σ ι E R In α → β → Prop)
    (hstep : ∀ {earlier before choice after}, Run sys ok start earlier before →
      Step sys before choice after → ∀ item, held after.state item →
        held before.state item ∨ grants ⟨before, choice, after⟩ item)
    (h : Run sys ok start history after) {item : β} (hheld : held after.state item) :
    held start.state item ∨ ∃ t ∈ history, grants t item := by
  induction h with
  | refl => exact .inl hheld
  | snoc hbefore hlast _ ih =>
    rcases hstep hbefore hlast item hheld with hearlier | hgrants
    · refine (ih hearlier).imp_right ?_
      rintro ⟨t, ht, hgrants⟩
      exact ⟨t, List.mem_append_left _ ht, hgrants⟩
    · exact .inr ⟨_, List.mem_append_right _ (List.mem_singleton_self _), hgrants⟩

end Run

/-- Run a schedule as long as every step, with what it leads to, passes a check. A choice the
system does not permit stops it. -/
def System.replayWhile (sys : System σ ι E R In α) (check : Transition σ ι E R In α → Bool)
    (config : Config σ ι E R α) : List (Choice ι In) → Option (Config σ ι E R α)
  | [] => some config
  | choice :: rest =>
    match sys.step config choice with
    | none => none
    | some after =>
      if check ⟨config, choice, after⟩ then sys.replayWhile check after rest else none

/-- Run a schedule. -/
def System.replay (sys : System σ ι E R In α) :
    Config σ ι E R α → List (Choice ι In) → Option (Config σ ι E R α) :=
  sys.replayWhile fun _ => true

section Replay

variable {check : Transition σ ι E R In α → Bool} {choices : List (Choice ι In)}

/-- Such a schedule is an execution, all of whose steps have a choice of the schedule and pass the
check. -/
theorem System.replayWhile_choices
    (hcheck : ∀ {t}, t.choice ∈ choices → check t = true → ok t)
    (h : sys.replayWhile check before choices = some after) :
    ∃ history, Run sys ok before history after := by
  induction choices generalizing before with
  | nil =>
    obtain rfl := Option.some.inj h
    exact ⟨[], .refl _⟩
  | cons choice rest ih =>
    cases hs : sys.step before choice with
    | none => simp [System.replayWhile, hs] at h
    | some middle =>
      simp only [System.replayWhile, hs] at h
      split at h
      · next hc =>
        obtain ⟨history, hrest⟩ := ih (fun hmem => hcheck (List.mem_cons_of_mem _ hmem)) h
        have hfirst : Run sys ok before _ middle :=
          (Run.refl before).snoc (step_sound hs) (hcheck List.mem_cons_self hc)
        exact ⟨_, hfirst.append hrest⟩
      · cases h

theorem System.replayWhile_run (hcheck : ∀ {t}, check t = true → ok t)
    (h : sys.replayWhile check before choices = some after) :
    ∃ history, Run sys ok before history after :=
  System.replayWhile_choices (fun _ => hcheck) h

/-- A replayed schedule is an execution, all of whose choices are in the schedule. -/
theorem System.replay_run (p : Choice ι In → Prop)
    (h : sys.replay before choices = some after) (hchoices : ∀ choice ∈ choices, p choice) :
    ∃ history, Run sys (fun t => p t.choice) before history after :=
  System.replayWhile_choices (fun hmem _ => hchoices _ hmem) h

/-- Run a schedule as long as every step passes a check of the configuration before it. -/
def System.replayIf (sys : System σ ι E R In α) (check : Config σ ι E R α → Choice ι In → Bool) :
    Config σ ι E R α → List (Choice ι In) → Option (Config σ ι E R α) :=
  sys.replayWhile fun t => check t.before t.choice

/-- A checked schedule is an execution whose steps satisfy what the check implies. -/
theorem System.replayIf_run {check : Config σ ι E R α → Choice ι In → Bool}
    (hcheck : ∀ {before choice after}, check before choice = true → ok ⟨before, choice, after⟩)
    (h : sys.replayIf check before choices = some after) :
    ∃ history, Run sys ok before history after :=
  System.replayWhile_run (fun hc => hcheck hc) h

end Replay

/-- Every thread was started by a step that satisfies the condition. -/
theorem Run.started {p : ι → Prop}
    (hp : ∀ {before tag after}, ok ⟨before, .start tag, after⟩ → p tag)
    (h : Run sys ok (.idle state) history after) : ∀ thread ∈ after.threads, p thread.tag := by
  refine h.invariant (fun config => ∀ thread ∈ config.threads, p thread.tag)
    (by simp [Config.idle]) ?_
  intro before choice after hinv hstep hok thread hmem
  cases hstep with
  | start =>
    rcases List.mem_append.mp hmem with hmem | hmem
    · exact hinv thread hmem
    · rw [List.mem_singleton] at hmem
      exact hmem ▸ hp hok
  | act hthread =>
    rcases List.mem_or_eq_of_mem_set hmem with hmem | rfl
    · exact hinv thread hmem
    · have hacting := hinv _ (List.mem_of_getElem? hthread)
      exact hacting

/-! ## Transitions and logs -/

/-- In the transition, thread `i` takes part in `event` after the events `front`. -/
def Transition.Performs (sys : System σ ι E R In α) (t : Transition σ ι E R In α) (i : Nat)
    (tag : ι) (front : List (Event E R)) (event : Event E R) : Prop :=
  ∃ input next, t.choice = .act i input ∧
    t.before.threads[i]? = some ⟨tag, front, .perform event.effect next⟩ ∧
    sys.exec event.effect input t.before.state = some (event.response, t.after.state)

section Logs

variable {i : Nat} {thread : Thread ι E R α} {tag : ι} {front : List (Event E R)}
  {event : Event E R}

theorem Step.thread_cases {choice : Choice ι In} (h : Step sys before choice after)
    (hthread : after.threads[i]? = some thread) :
    thread.log = [] ∨ before.threads[i]? = some thread ∨
      ∃ front event, thread.log = front ++ [event] ∧
        Transition.Performs sys ⟨before, choice, after⟩ i thread.tag front event := by
  cases h with
  | start hs =>
    rw [List.getElem?_append] at hthread
    split at hthread
    · exact .inr (.inl hthread)
    · rw [List.getElem?_singleton] at hthread
      split at hthread
      · obtain rfl := Option.some.inj hthread
        exact .inl rfl
      · cases hthread
  | @act j input tag log effect next response state' hacting hexec =>
    rw [List.getElem?_set] at hthread
    split at hthread
    · next hij =>
      subst hij
      split at hthread
      · obtain rfl := Option.some.inj hthread
        exact .inr (.inr ⟨log, ⟨effect, response⟩, rfl, input, next, rfl, hacting, hexec⟩)
      · cases hthread
    · exact .inr (.inl hthread)

theorem Step.thread_grows {choice : Choice ι In} (h : Step sys before choice after)
    (hthread : before.threads[i]? = some thread) :
    ∃ thread', after.threads[i]? = some thread' ∧ thread'.tag = thread.tag ∧
      thread.log <+: thread'.log := by
  cases h with
  | start hs =>
    have hi := (List.getElem?_eq_some_iff.mp hthread).1
    exact ⟨thread, by rw [List.getElem?_append_left hi, hthread], rfl, List.prefix_refl _⟩
  | @act j input tag log effect next response state' hacting hexec =>
    rcases eq_or_ne j i with rfl | hij
    · have hi := (List.getElem?_eq_some_iff.mp hthread).1
      obtain rfl := Option.some.inj (hacting.symm.trans hthread)
      exact ⟨_, List.getElem?_set_self hi, rfl, List.prefix_append _ _⟩
    · exact ⟨thread, by rw [List.getElem?_set_ne hij, hthread], rfl, List.prefix_refl _⟩

/-- Every event in a thread's log has its transition. -/
theorem Run.performed (h : Run sys ok (.idle state) history after)
    (hthread : after.threads[i]? = some thread) {back : List (Event E R)}
    (hlog : thread.log = front ++ event :: back) :
    ∃ t ∈ history, t.Performs sys i thread.tag front event := by
  induction h generalizing thread back with
  | refl => simp [Config.idle] at hthread
  | snoc _ hstep _ ih =>
    rcases hstep.thread_cases hthread with hnil | hsame | ⟨front', event', hlast, hperforms⟩
    · simp [hnil] at hlog
    · obtain ⟨t, ht, htp⟩ := ih hsame hlog
      exact ⟨t, List.mem_append_left _ ht, htp⟩
    · rcases List.eq_nil_or_concat back with rfl | ⟨back', last, rfl⟩
      · obtain ⟨rfl, hevent⟩ := List.append_inj' (hlast.symm.trans hlog) rfl
        obtain rfl := List.head_eq_of_cons_eq hevent
        exact ⟨_, by simp, hperforms⟩
      · rw [hlast, List.concat_eq_append, ← List.cons_append, ← List.append_assoc] at hlog
        obtain ⟨hfront, -⟩ := List.append_inj' hlog rfl
        obtain ⟨_, _, -, hbefore, -⟩ := hperforms
        obtain ⟨t, ht, htp⟩ := ih hbefore hfront
        exact ⟨t, List.mem_append_left _ ht, htp⟩

theorem Run.logged (h : Run sys ok (.idle state) history after) (ht : t ∈ history) {input : In}
    (hchoice : t.choice = .act i input) :
    ∃ thread front event back, after.threads[i]? = some thread ∧
      thread.log = front ++ event :: back ∧ t.Performs sys i thread.tag front event := by
  induction h with
  | refl => simp at ht
  | snoc _ hstep _ ih =>
    rcases List.mem_append.mp ht with ht | ht
    · obtain ⟨thread, front, event, back, hthread, hlog, hperforms⟩ := ih ht
      obtain ⟨thread', hthread', htag, rest, hrest⟩ := hstep.thread_grows hthread
      refine ⟨thread', front, event, back ++ rest, hthread', ?_, htag ▸ hperforms⟩
      simp [← hrest, hlog]
    · rw [List.mem_singleton] at ht
      subst ht
      cases hchoice
      cases hstep with
      | @act _ _ tag log effect next response state' hacting hexec =>
        have hi := (List.getElem?_eq_some_iff.mp hacting).1
        exact ⟨_, log, ⟨effect, response⟩, [], List.getElem?_set_self hi, rfl, input, next, rfl,
          hacting, hexec⟩

/-- The thread that acts in a transition of a run is still there, with its tag. -/
theorem Run.performs_tag (h : Run sys ok (.idle state) history after) (ht : t ∈ history)
    (hperforms : t.Performs sys i tag front event) :
    ∃ thread, after.threads[i]? = some thread ∧ thread.tag = tag := by
  obtain ⟨input, next, hchoice, hbefore, -⟩ := hperforms
  obtain ⟨thread, _, _, _, hthread, -, _, _, -, hbefore', -⟩ := h.logged ht hchoice
  obtain ⟨htag, -⟩ := Thread.mk.inj (Option.some.inj (hbefore'.symm.trans hbefore))
  exact ⟨thread, hthread, htag⟩

theorem Step.performs_next (h : Step sys t.before t.choice t.after)
    (hperforms : t.Performs sys i tag front event) :
    ∃ next, t.before.threads[i]? = some ⟨tag, front, .perform event.effect next⟩ ∧
      t.after.threads[i]? = some ⟨tag, front ++ [event], next event.response⟩ := by
  obtain ⟨before, choice, after⟩ := t
  obtain ⟨input, next, rfl, hthread, hexec⟩ := hperforms
  replace h : Step sys before (.act i input) after := h
  refine ⟨next, hthread, ?_⟩
  cases h with
  | act hthread' hexec' =>
    cases hthread'.symm.trans hthread
    cases hexec'.symm.trans hexec
    exact List.getElem?_set_self (List.getElem?_eq_some_iff.mp hthread).1

theorem System.step_performs {input : In} (h : sys.step before (.act i input) = some after)
    (hthread : before.threads[i]? = some thread) {effect : E}
    (hnext : thread.prog.next? = some effect) :
    ∃ response, Transition.Performs sys ⟨before, .act i input, after⟩ i thread.tag thread.log
      ⟨effect, response⟩ := by
  obtain ⟨tag, log, prog⟩ := thread
  obtain ⟨next, rfl⟩ := Prog.eq_perform_of_next? hnext
  cases System.step_sound h with
  | act hthread' hexec =>
    cases hthread.symm.trans hthread'
    exact ⟨_, input, next, rfl, hthread, hexec⟩

end Logs

/-! ## Threads that obey a protocol -/

/-- Every thread, after the events in its log, performs only effects that are allowed, and
returns only values that fit its log. -/
def Config.Follows (allowed : ι → List (Event E R) → E → Prop)
    (possible : (effect : E) → R effect → Prop) (post : ι → α → List (Event E R) → Prop)
    (config : Config σ ι E R α) : Prop :=
  ∀ thread ∈ config.threads,
    thread.prog.Meets (.protocol (allowed thread.tag) possible) (post thread.tag) thread.log

section Protocol

variable {allowed : ι → List (Event E R) → E → Prop} {possible : (effect : E) → R effect → Prop}
  {post : ι → α → List (Event E R) → Prop}

/-- The next effect of a thread is allowed. -/
theorem Config.Follows.next_allowed {config : Config σ ι E R α}
    (h : config.Follows allowed possible post) {i : Nat} {tag : ι} {log : List (Event E R)}
    {effect : E} {next : R effect → Prog E R α}
    (hthread : config.threads[i]? = some ⟨tag, log, .perform effect next⟩) :
    allowed tag log effect :=
  (h _ (List.mem_of_getElem? hthread)).1

/-- An invariant may rely on every performed effect being allowed by a protocol on the
acting thread's own log, once the code of each started thread obeys that protocol. -/
theorem Run.protocol (allowed : ι → List (Event E R) → E → Prop)
    (possible : (effect : E) → R effect → Prop) (post : ι → α → List (Event E R) → Prop)
    (inv : Config σ ι E R α → Prop) (hinit : inv (.idle state))
    (hbody : ∀ {before tag after}, ok ⟨before, .start tag, after⟩ →
      (sys.body tag).Meets (.protocol (allowed tag) possible) (post tag) [])
    (hstart : ∀ {before : Config σ ι E R α} {tag state'}, inv before →
      sys.start tag before.state = some state' →
      ok ⟨before, .start tag, ⟨state', before.threads ++ [⟨tag, [], sys.body tag⟩]⟩⟩ →
      inv ⟨state', before.threads ++ [⟨tag, [], sys.body tag⟩]⟩)
    (hact : ∀ {before : Config σ ι E R α} {i input tag log effect next response state'},
      inv before → before.threads[i]? = some ⟨tag, log, .perform effect next⟩ →
      allowed tag log effect →
      sys.exec effect input before.state = some (response, state') →
      ok ⟨before, .act i input, ⟨state', before.threads.set i
        ⟨tag, log ++ [⟨effect, response⟩], next response⟩⟩⟩ →
      possible effect response ∧
        inv ⟨state', before.threads.set i ⟨tag, log ++ [⟨effect, response⟩], next response⟩⟩)
    (h : Run sys ok (.idle state) history after) :
    inv after ∧ after.Follows allowed possible post := by
  refine h.invariant (fun config => inv config ∧ config.Follows allowed possible post)
    ⟨hinit, by simp [Config.Follows, Config.idle]⟩ ?_
  rintro before choice after ⟨hinv, hfollows⟩ hstep hok
  cases hstep with
  | start hs =>
    refine ⟨hstart hinv hs hok, ?_⟩
    intro thread hthread
    rcases List.mem_append.mp hthread with hthread | hthread
    · exact hfollows thread hthread
    · rw [List.mem_singleton] at hthread
      subst hthread
      exact hbody hok
  | act hthread hexec =>
    have hmeets := hfollows _ (List.mem_of_getElem? hthread)
    obtain ⟨hpossible, hinv'⟩ := hact hinv hthread hmeets.1 hexec hok
    refine ⟨hinv', ?_⟩
    intro thread hmem
    rcases List.mem_or_eq_of_mem_set hmem with hmem | rfl
    · exact hfollows thread hmem
    · exact hmeets.2 _ _ ⟨hpossible, rfl⟩

/-- In every execution of threads whose code obeys a protocol, the threads follow it. -/
theorem Run.follows
    (hbody : ∀ tag, (sys.body tag).Meets (.protocol (allowed tag) fun _ _ => True) (post tag) [])
    (h : Run sys ok (.idle state) history after) :
    after.Follows allowed (fun _ _ => True) post :=
  (h.protocol allowed (fun _ _ => True) post (fun _ => True) trivial (fun _ => hbody _)
    (fun _ _ _ => trivial) fun _ _ _ _ _ => ⟨trivial, trivial⟩).2

end Protocol

/-! ## Logs that obey a protocol -/

/-- Every event of a log was allowed after the events before it, and its response was possible. -/
def Obeys (allowed : List (Event E R) → E → Prop) (possible : (effect : E) → R effect → Prop)
    (log : List (Event E R)) : Prop :=
  ∀ front event back, log = front ++ event :: back →
    allowed front event.effect ∧ possible event.effect event.response

section Obeys

variable {allowed : List (Event E R) → E → Prop} {possible : (effect : E) → R effect → Prop}
  {log : List (Event E R)}

theorem Obeys.nil : Obeys allowed possible [] := by
  intro front event back h
  cases front <;> cases h

theorem Obeys.concat (h : Obeys allowed possible log) {event : Event E R}
    (hallowed : allowed log event.effect) (hpossible : possible event.effect event.response) :
    Obeys allowed possible (log ++ [event]) := by
  intro front event' back heq
  rcases List.eq_nil_or_concat back with rfl | ⟨back', last, rfl⟩
  · obtain ⟨rfl, hevent⟩ := List.append_inj' heq rfl
    cases List.singleton_inj.mp hevent
    exact ⟨hallowed, hpossible⟩
  · rw [List.concat_eq_append, ← List.cons_append, ← List.append_assoc] at heq
    exact h front event' back' (List.append_inj' heq rfl).1

end Obeys

/-! ## One thread at a time -/

/-- Threads are started only while nothing is running. -/
def Sequential (t : Transition σ ι E R In α) : Prop :=
  ∀ tag, t.choice = .start tag → t.before.Quiet

/-- The check of `Sequential` on a schedule. -/
def sequentialCheck (config : Config σ ι E R α) : Choice ι In → Bool
  | .start _ => config.threads.all fun thread => thread.prog.result?.isSome
  | .act .. => true

theorem sequential_of_check {choice : Choice ι In}
    (h : sequentialCheck before choice = true) : Sequential ⟨before, choice, after⟩ := by
  intro tag hchoice
  obtain rfl : choice = .start tag := hchoice
  exact fun thread hthread => List.all_eq_true.mp h thread hthread

/-- Effects as they act on the shared state and the trace when nothing interferes and the
surroundings supply what `allow` admits. -/
def System.alone (sys : System σ ι E R In α) (allow : In → σ → Prop)
    (pre : E → σ × List (Event E R) → Prop) : EffectSpec E R (σ × List (Event E R)) where
  pre := pre
  step effect s response s' :=
    (∃ input, allow input s.1 ∧ sys.exec effect input s.1 = some (response, s'.1)) ∧
      s'.2 = s.2 ++ [⟨effect, response⟩]

/-- A configuration of a sequential execution: idle, or with one thread at the end that,
left alone, performs its remaining effects under `pre` and re-establishes `inv`. -/
def System.Alone (sys : System σ ι E R In α) (allow : In → σ → Prop)
    (pre : ι → E → σ × List (Event E R) → Prop) (inv : σ × List (Event E R) → Prop)
    (config : Config σ ι E R α) : Prop :=
  (config.threads = [] ∧ inv (config.state, [])) ∨
    ∃ front thread, config.threads = front ++ [thread] ∧
      (∀ earlier ∈ front, earlier.prog.result?.isSome) ∧
      thread.prog.Meets (sys.alone allow (pre thread.tag)) (fun _ s => inv s)
        (config.state, config.trace)

section Alone

variable {allow : In → σ → Prop} {pre : ι → E → σ × List (Event E R) → Prop}
  {inv : σ × List (Event E R) → Prop} {config : Config σ ι E R α}

theorem System.Alone.inv_of_pre (h : sys.Alone allow pre inv config)
    (hpre : ∀ tag effect s, pre tag effect s → inv s) : inv (config.state, config.trace) := by
  rcases h with ⟨hthreads, hinv⟩ | ⟨front, thread, hthreads, _, hmeets⟩
  · simpa [Config.trace, hthreads] using hinv
  · cases hprog : thread.prog with
    | ret value => simpa only [hprog, Prog.meets_ret] using hmeets
    | perform effect next =>
      rw [hprog] at hmeets
      exact hpre _ _ _ hmeets.1

theorem System.Alone.inv_of_quiet (h : sys.Alone allow pre inv config) (hquiet : config.Quiet) :
    inv (config.state, config.trace) := by
  rcases h with ⟨hthreads, hinv⟩ | ⟨front, thread, hthreads, _, hmeets⟩
  · simpa [Config.trace, hthreads] using hinv
  · have hdone := hquiet thread (by simp [hthreads])
    cases hprog : thread.prog with
    | ret value => simpa only [hprog, Prog.meets_ret] using hmeets
    | perform effect next => simp [hprog] at hdone

/-- A thread about to perform an effect is the last one, and its precondition holds. -/
theorem System.Alone.last (h : sys.Alone allow pre inv config) {i : Nat} {tag : ι}
    {log : List (Event E R)} {effect : E} {next : R effect → Prog E R α}
    (hthread : config.threads[i]? = some ⟨tag, log, .perform effect next⟩) :
    ∃ front, config.threads = front ++ [⟨tag, log, .perform effect next⟩] ∧
      i = front.length ∧ (∀ earlier ∈ front, earlier.prog.result?.isSome) ∧
      (Prog.perform effect next).Meets (sys.alone allow (pre tag)) (fun _ s => inv s)
        (config.state, config.trace) := by
  rcases h with ⟨hnil, _⟩ | ⟨front, thread, happend, hfront, hmeets⟩
  · simp [hnil] at hthread
  · rw [happend] at hthread
    rcases Nat.lt_trichotomy i front.length with hlt | heq | hgt
    · rw [List.getElem?_append_left hlt] at hthread
      have hdone := hfront _ (List.mem_of_getElem? hthread)
      simp at hdone
    · subst heq
      simp only [List.getElem?_concat_length, Option.some.injEq] at hthread
      subst hthread
      exact ⟨front, happend, rfl, hfront, hmeets⟩
    · rw [List.getElem?_eq_none (by simp; omega)] at hthread
      cases hthread

/-- The rule for executions in which one thread runs at a time: a thread's code is verified
as if it had the state to itself. -/
theorem Run.sequential (hinit : inv (state, []))
    (hok : ∀ t, ok t → Sequential t)
    (hallow : ∀ {before i input after}, ok ⟨before, .act i input, after⟩ →
      allow input before.state)
    (hbody : ∀ {before : Config σ ι E R α} {tag state'},
      ok ⟨before, .start tag, ⟨state', before.threads ++ [⟨tag, [], sys.body tag⟩]⟩⟩ →
      inv (before.state, before.trace) → sys.start tag before.state = some state' →
      (sys.body tag).Meets (sys.alone allow (pre tag)) (fun _ s => inv s) (state', before.trace))
    (h : Run sys ok (.idle state) history config) : sys.Alone allow pre inv config := by
  refine h.invariant (sys.Alone allow pre inv) (.inl ⟨rfl, hinit⟩) ?_
  intro before choice after halone hstep hokt
  cases hstep with
  | @start tag state' hs =>
    have hquiet := hok _ hokt tag rfl
    refine .inr ⟨before.threads, _, rfl, hquiet, ?_⟩
    simpa [Config.trace] using hbody hokt (halone.inv_of_quiet hquiet) hs
  | @act i input tag log effect next response state' hthread hexec =>
    obtain ⟨front, happend, rfl, hfront, hmeets⟩ := halone.last hthread
    refine .inr ⟨front, ⟨tag, log ++ [⟨effect, response⟩], next response⟩,
      by simp [happend], hfront, ?_⟩
    refine hmeets.2 _ _ ⟨⟨input, hallow hokt, hexec⟩, ?_⟩
    simp [Config.trace, happend]

end Alone

end ZCourier.Library
