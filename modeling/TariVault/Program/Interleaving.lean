import TariVault.Program.Basic

namespace TariVault

open Program

/-! # Interleaved programs

Any number of calls run at once over one shared state.  A step of the whole
system starts a call, performs the next operation of one call atomically, or
changes the surroundings.  Every schedule is allowed, and nothing forces a call
to go on, so a call may also be abandoned at any of its operations.
-/

/-- Calls with their programs, and what one operation may do to the shared
state.  `act` says which answer call number `tid` may receive; `drift` is a change
nobody asked for, described by an `Env`. -/
structure System (Op : Type) (Answer : Op → Type) where
  Call : Type
  Result : Type
  State : Type
  Env : Type
  code : Call → Program Op Answer Result
  act : Nat → State → Event Answer → State → Prop
  drift : State → Env → State → Prop

namespace System

variable {Op : Type} {Answer : Op → Type} (sys : System Op Answer)

/-- A call in flight: what it has done so far and what is left of it. -/
structure Thread where
  call : sys.Call
  past : List (Event Answer)
  rest : Program Op Answer sys.Result

structure Config where
  shared : sys.State
  threads : Nat → Option sys.Thread

inductive Label where
  | invoke (tid : Nat) (call : sys.Call)
  | act (tid : Nat) (event : Event Answer)
  | drift (env : sys.Env)

variable {sys}

def Thread.Returned (thread : sys.Thread) (result : sys.Result) : Prop :=
  thread.rest = .done result

/-- `result` is the only answer the call can still give. -/
def Thread.WillReturn (thread : sys.Thread) (result : sys.Result) : Prop :=
  ∀ events final, Leads thread.rest events (.done final) → final = result

def Thread.Did (thread : sys.Thread) (event : Event Answer) : Prop := event ∈ thread.past

def Config.start (shared : sys.State) : sys.Config := { shared, threads := fun _ => none }

inductive Step : sys.Config → sys.Label → sys.Config → Prop where
  | invoke {config : sys.Config} {tid : Nat} {call : sys.Call} (free : config.threads tid = none) :
      Step config (.invoke tid call)
        { config with threads :=
            Function.update config.threads tid (some ⟨call, [], sys.code call⟩) }
  | act {config : sys.Config} {tid : Nat} {call : sys.Call} {past : List (Event Answer)} {op : Op}
      {next : Answer op → Program Op Answer sys.Result} {answer : Answer op} {shared : sys.State}
      (running : config.threads tid = some ⟨call, past, .step op next⟩)
      (performed : sys.act tid config.shared ⟨op, answer⟩ shared) :
      Step config (.act tid ⟨op, answer⟩)
        { shared, threads :=
            Function.update config.threads tid (some ⟨call, past ++ [⟨op, answer⟩], next answer⟩) }
  | drift {config : sys.Config} {env : sys.Env} {shared : sys.State}
      (changed : sys.drift config.shared env shared) :
      Step config (.drift env) { config with shared }

/-- Runs whose every step satisfies `ok`, a condition on the state before the
step and on the step itself. -/
inductive RunWhere (ok : sys.Config → sys.Label → Prop) :
    sys.Config → List sys.Label → sys.Config → Prop where
  | refl (config) : RunWhere ok config [] config
  | snoc {first labels config label last} (run : RunWhere ok first labels config)
      (allowed : ok config label) (step : Step config label last) :
      RunWhere ok first (labels ++ [label]) last

/-- Every interleaving. -/
abbrev Run : sys.Config → List sys.Label → sys.Config → Prop := RunWhere fun _ _ => True

variable {ok : sys.Config → sys.Label → Prop} {first middle last config : sys.Config}
  {labels labels' : List sys.Label}

theorem RunWhere.weaken {ok' : sys.Config → sys.Label → Prop}
    (weaker : ∀ config label, ok config label → ok' config label)
    (run : RunWhere ok first labels last) : RunWhere ok' first labels last := by
  induction run with
  | refl => exact .refl _
  | snoc _ allowed step ih => exact .snoc ih (weaker _ _ allowed) step

theorem RunWhere.run (run : RunWhere ok first labels last) : Run first labels last :=
  run.weaken fun _ _ _ => trivial

theorem RunWhere.trans (front : RunWhere ok first labels middle)
    (back : RunWhere ok middle labels' last) : RunWhere ok first (labels ++ labels') last := by
  induction back with
  | refl => simpa using front
  | snoc _ allowed step ih =>
      rw [← List.append_assoc]
      exact .snoc ih allowed step

/-- In every run that goes on as `ok` says, call `tid` returns `result` if it returns. -/
def Config.WillReturn (ok : sys.Config → sys.Label → Prop) (config : sys.Config) (tid : Nat)
    (result : sys.Result) : Prop :=
  ∀ labels last thread answer, RunWhere ok config labels last → last.threads tid = some thread →
    thread.Returned answer → answer = result

/-- A run can be continued by nothing. -/
theorem RunWhere.stay (_run : RunWhere ok first labels last) : RunWhere ok last [] last := .refl last

/-- A call found after another call moved is that call or was there before. -/
theorem find_update {threads : Nat → Option sys.Thread} {tid other : Nat} {moved thread : sys.Thread}
    (found : Function.update threads tid (some moved) other = some thread) :
    other = tid ∧ thread = moved ∨ other ≠ tid ∧ threads other = some thread := by
  by_cases same : other = tid
  · subst same
    rw [Function.update_self, Option.some.injEq] at found
    exact .inl ⟨rfl, found.symm⟩
  · rw [Function.update_of_ne same] at found
    exact .inr ⟨same, found⟩

/-- Where a call stands after a step: untouched, just invoked, or one operation
further. -/
theorem Step.thread {label : sys.Label} (step : Step config label last) {tid : Nat}
    {thread : sys.Thread} (found : last.threads tid = some thread) :
    config.threads tid = some thread ∨
    (label = .invoke tid thread.call ∧ config.threads tid = none ∧
      thread.past = [] ∧ thread.rest = sys.code thread.call) ∨
    (∃ before op next answer, label = .act tid ⟨op, answer⟩ ∧
      config.threads tid = some before ∧ before.rest = .step op next ∧
      sys.act tid config.shared ⟨op, answer⟩ last.shared ∧ thread.call = before.call ∧
      thread.past = before.past ++ [⟨op, answer⟩] ∧ thread.rest = next answer) := by
  cases step with
  | @invoke other call free =>
      rcases find_update found with ⟨rfl, rfl⟩ | ⟨same, found⟩
      · exact .inr (.inl ⟨rfl, free, rfl, rfl⟩)
      · exact .inl found
  | @act other call past op next answer shared running performed =>
      rcases find_update found with ⟨rfl, rfl⟩ | ⟨same, found⟩
      · exact .inr (.inr ⟨_, op, next, answer, rfl, running, rfl, performed, rfl, rfl, rfl⟩)
      · exact .inl found
  | drift => exact .inl found

/-- A call never disappears, keeps its identity, and only adds to its past. -/
theorem Step.thread_stable {label : sys.Label} (step : Step config label last) {tid : Nat}
    {thread : sys.Thread} (found : config.threads tid = some thread) :
    ∃ later events, last.threads tid = some later ∧ later.call = thread.call ∧
      later.past = thread.past ++ events ∧ Leads thread.rest events later.rest := by
  cases step with
  | @invoke other call free =>
      have different : tid ≠ other := by
        intro same
        rw [same, free] at found
        contradiction
      exact ⟨thread, [], (Function.update_of_ne different ..).trans found, rfl, by simp, .refl _⟩
  | @act other call past op next answer shared running performed =>
      by_cases same : tid = other
      · subst same
        rw [running, Option.some.injEq] at found
        subst found
        exact ⟨_, [⟨op, answer⟩], Function.update_self .., rfl, rfl, .step (.refl _)⟩
      · exact ⟨thread, [], (Function.update_of_ne same ..).trans found, rfl, by simp, .refl _⟩
  | drift => exact ⟨thread, [], found, rfl, by simp, .refl _⟩

theorem Step.past_subset {label : sys.Label} (step : Step config label last) {tid : Nat}
    {before after : sys.Thread} (found : config.threads tid = some before)
    (found' : last.threads tid = some after) : before.past ⊆ after.past := by
  obtain ⟨later, events, foundLater, _, grown, _⟩ := step.thread_stable found
  rw [found'] at foundLater
  cases foundLater
  rw [grown]
  exact List.subset_append_left _ _

theorem RunWhere.thread_stable (run : RunWhere ok first labels last) {tid : Nat}
    {thread : sys.Thread} (found : first.threads tid = some thread) :
    ∃ later events, last.threads tid = some later ∧ later.call = thread.call ∧
      later.past = thread.past ++ events ∧ Leads thread.rest events later.rest := by
  induction run with
  | refl => exact ⟨thread, [], found, rfl, by simp, .refl _⟩
  | snoc _ _ step ih =>
      obtain ⟨middle, events, foundMiddle, callMiddle, pastMiddle, leadsMiddle⟩ := ih
      obtain ⟨later, events', foundLater, callLater, pastLater, leadsLater⟩ :=
        step.thread_stable foundMiddle
      exact ⟨later, events ++ events', foundLater, callLater.trans callMiddle,
        by rw [pastLater, pastMiddle, List.append_assoc], leadsMiddle.trans leadsLater⟩

theorem Step.did {label : sys.Label} (step : Step config label last) {tid : Nat}
    {thread : sys.Thread} {event : Event Answer} (found : last.threads tid = some thread)
    (did : thread.Did event) :
    ∃ before, config.threads tid = some before ∧ before.call = thread.call ∧
      (before.Did event ∨
        label = .act tid event ∧ sys.act tid config.shared event last.shared ∧
          ∃ next, before.rest = .step event.op next) := by
  rcases step.thread found with unchanged | ⟨_, _, noPast, _⟩ |
    ⟨before, op, next, answer, rfl, foundBefore, head, performed, sameCall, grown, _⟩
  · exact ⟨thread, unchanged, rfl, .inl did⟩
  · rw [Thread.Did, noPast] at did
    contradiction
  · refine ⟨before, foundBefore, sameCall.symm, ?_⟩
    rw [Thread.Did, grown, List.mem_append, List.mem_singleton] at did
    rcases did with old | rfl
    · exact .inl old
    · exact .inr ⟨rfl, performed, next, head⟩

theorem Step.keeps_did {label : sys.Label} (step : Step config label last) {tid : Nat}
    {thread : sys.Thread} {event : Event Answer} (found : config.threads tid = some thread)
    (did : thread.Did event) :
    ∃ later, last.threads tid = some later ∧ later.call = thread.call ∧ later.Did event := by
  obtain ⟨later, events, foundLater, sameCall, grown, _⟩ := step.thread_stable found
  exact ⟨later, foundLater, sameCall, by rw [Thread.Did, grown]; exact List.mem_append_left _ did⟩

/-- Every call in flight has followed its own program, and its past is recorded
in the labels. -/
theorem RunWhere.history {shared : sys.State}
    (run : RunWhere ok (Config.start shared) labels last) {tid : Nat} {thread : sys.Thread}
    (found : last.threads tid = some thread) :
    Leads (sys.code thread.call) thread.past thread.rest ∧
      Label.invoke tid thread.call ∈ labels ∧
      ∀ event ∈ thread.past, Label.act tid event ∈ labels := by
  induction run generalizing thread with
  | refl => simp [Config.start] at found
  | @snoc labels config label last run allowed step ih =>
      rcases step.thread found with unchanged | ⟨rfl, _, noPast, fresh⟩ |
        ⟨before, op, next, answer, rfl, foundBefore, head, _, sameCall, grown, further⟩
      · obtain ⟨leads, invoked, recorded⟩ := ih unchanged
        exact ⟨leads, by simp [invoked], fun event member => by simp [recorded event member]⟩
      · rw [noPast, fresh]
        exact ⟨.refl _, by simp, by simp⟩
      · obtain ⟨leads, invoked, recorded⟩ := ih foundBefore
        rw [sameCall, grown, further]
        rw [head] at leads
        refine ⟨leads.snoc answer, by simp [invoked], ?_⟩
        intro event member
        rcases List.mem_append.mp member with old | new
        · simp [recorded event old]
        · rw [List.mem_singleton] at new
          simp [new]

/-- What a call did, the shared state let it do. -/
theorem RunWhere.did_performed {shared : sys.State}
    (run : RunWhere ok (Config.start shared) labels last) {tid : Nat} {thread : sys.Thread}
    (found : last.threads tid = some thread) {event : Event Answer} (did : thread.Did event) :
    ∃ state state', sys.act tid state event state' := by
  induction run generalizing thread with
  | refl => cases found
  | snoc run allowed step ih =>
      obtain ⟨before, foundBefore, _, old | ⟨_, performed, _⟩⟩ := step.did found did
      · exact ih foundBefore old
      · exact ⟨_, _, performed⟩

/-- Call `tid` may perform `events` one after another. -/
inductive Acts (tid : Nat) : sys.State → List (Event Answer) → sys.State → Prop where
  | nil {shared} : Acts tid shared [] shared
  | cons {shared middle last event events} (performed : sys.act tid shared event middle)
      (tail : Acts tid middle events last) : Acts tid shared (event :: events) last

theorem Acts.nil_inv {tid : Nat} {state state' : sys.State} (acts : Acts tid state [] state') :
    state' = state := by
  cases acts
  rfl

theorem Acts.cons_inv {tid : Nat} {state state' : sys.State} {event : Event Answer} {events : List (Event Answer)}
    (acts : Acts tid state (event :: events) state') :
    ∃ middle, sys.act tid state event middle ∧ Acts tid middle events state' := by
  cases acts with
  | cons performed tail => exact ⟨_, performed, tail⟩

theorem Acts.performed {tid : Nat} {state state' : sys.State} {events : List (Event Answer)}
    (acts : Acts tid state events state') {event : Event Answer} (member : event ∈ events) :
    ∃ before after, sys.act tid before event after := by
  induction acts with
  | nil => contradiction
  | cons performed _ ih =>
      rcases List.mem_cons.mp member with rfl | later
      · exact ⟨_, _, performed⟩
      · exact ih later

theorem Acts.cut {tid : Nat} {state state' : sys.State} {front back : List (Event Answer)}
    (acts : Acts tid state (front ++ back) state') :
    ∃ middle, Acts tid state front middle ∧ Acts tid middle back state' := by
  induction front generalizing state with
  | nil => exact ⟨state, .nil, acts⟩
  | cons event front ih =>
      obtain ⟨next, performed, tail⟩ := Acts.cons_inv acts
      obtain ⟨middle, first, second⟩ := ih tail
      exact ⟨middle, .cons performed first, second⟩

/-- What a handler does that follows `act`, as long as an invariant holds, the calls
may do. -/
theorem acts_of_run {α : Type} {tid : Nat} {handle : sys.State → (op : Op) → Option (Answer op × sys.State)}
    {invariant : sys.State → Prop}
    (follows : ∀ {state op answer state'}, invariant state → handle state op = some (answer, state') →
      sys.act tid state ⟨op, answer⟩ state' ∧ invariant state')
    {program : Program Op Answer α} {state state' : sys.State} {value : α} (holds : invariant state)
    (ran : program.run handle state = some (value, state')) :
    ∃ events, Leads program events (.done value) ∧ Acts tid state events state' := by
  induction program generalizing state with
  | done other =>
      cases ran
      exact ⟨[], .refl _, .nil⟩
  | step op next ih =>
      simp only [Program.run] at ran
      cases answered : handle state op with
      | none =>
          rw [answered] at ran
          contradiction
      | some result =>
          rw [answered] at ran
          obtain ⟨performed, kept⟩ := follows holds answered
          obtain ⟨events, leads, acts⟩ := ih result.1 kept ran
          exact ⟨⟨op, result.1⟩ :: events, .step leads, .cons performed acts⟩

/-- A call left to itself performs its operations in a run. -/
theorem RunWhere.perform {tid : Nat} {call : sys.Call} {past events : List (Event Answer)}
    {rest final : Program Op Answer sys.Result} {shared : sys.State}
    (found : config.threads tid = some ⟨call, past, rest⟩) (leads : Leads rest events final)
    (acts : Acts tid config.shared events shared)
    (allowed : ∀ (config : sys.Config) past rest event, config.threads tid = some ⟨call, past, rest⟩ →
      event ∈ events → ok config (.act tid event)) :
    RunWhere ok config (events.map (.act tid))
      ⟨shared, Function.update config.threads tid (some ⟨call, past ++ events, final⟩)⟩ := by
  induction leads generalizing past config with
  | refl rest =>
      cases acts
      rw [List.append_nil, Function.update_eq_self_iff.mpr found.symm]
      exact .refl _
  | @step op next answer events rest tail ih =>
      cases acts with
      | @cons _ middle _ _ _ performed tailActs =>
          let advanced : sys.Config := ⟨middle, Function.update config.threads tid
            (some ⟨call, past ++ [⟨op, answer⟩], next answer⟩)⟩
          have first : Step config (.act tid ⟨op, answer⟩) advanced := .act found performed
          have later := @ih advanced _ (Function.update_self ..) tailActs
            fun config past rest event here member =>
              allowed config past rest event here (List.mem_cons_of_mem _ member)
          rw [List.append_assoc, Function.update_idem] at later
          exact RunWhere.trans (.snoc (.refl _) (allowed _ _ _ _ found List.mem_cons_self) first) later

/-- A fresh call is invoked and performs its first operations. -/
theorem RunWhere.alone {tid : Nat} {call : sys.Call} {events : List (Event Answer)}
    {final : Program Op Answer sys.Result} {shared : sys.State}
    (free : config.threads tid = none) (leads : Leads (sys.code call) events final)
    (acts : Acts tid config.shared events shared) (invokes : ok config (.invoke tid call))
    (allowed : ∀ (config : sys.Config) past rest event, config.threads tid = some ⟨call, past, rest⟩ →
      event ∈ events → ok config (.act tid event)) :
    RunWhere ok config (.invoke tid call :: events.map (.act tid))
      ⟨shared, Function.update config.threads tid (some ⟨call, events, final⟩)⟩ := by
  let invoked : sys.Config :=
    ⟨config.shared, Function.update config.threads tid (some ⟨call, [], sys.code call⟩)⟩
  have performed := @RunWhere.perform _ _ _ ok invoked _ _ _ _ _ _ _ (Function.update_self ..) leads acts allowed
  rw [List.nil_append, Function.update_idem] at performed
  exact RunWhere.trans (.snoc (.refl _) invokes (.invoke free)) performed

end System

end TariVault
