import TariVault.Program.Locking

namespace TariVault

open Program TariVault.System

/-! # Programs guarded by a lock

When the lock guards some data, then however such calls interleave, their bodies
have run on the data one after another, in the order in which the calls entered.
-/

variable {Op : Type} {Answer : Op → Type} {sys : System Op Answer}

/-- What a lock ensures that guards data: outside it nothing touches the data, and
inside it the data answers alone. -/
structure Guarding (sys : System Op Answer) extends Locking sys where
  Data : Type
  data : sys.State → Data
  handle : Nat → Data → (op : Op) → Option (Answer op × Data)
  outer_data : ∀ {tid state op answer state'}, outer op → sys.act tid state ⟨op, answer⟩ state' →
    data state' = data state
  enter_data : ∀ {tid state answer state'}, sys.act tid state ⟨enter, answer⟩ state' →
    data state' = data state
  leave_data : ∀ {tid state answer state'}, sys.act tid state ⟨leave, answer⟩ state' →
    data state' = data state
  inner_data : ∀ {tid state op answer state'}, inner op → sys.act tid state ⟨op, answer⟩ state' →
    handle tid (data state) op = some (answer, data state')
  drift_data : ∀ {state env state'}, sys.drift state env state' → data state' = data state

namespace Guarding

variable (guarding : Guarding sys)

structure Job where
  tid : Nat
  call : sys.Call
  captured : guarding.Captured
  outcome : guarding.Outcome

/-- The bodies of the jobs run alone, one after another. -/
inductive Serial (initial : guarding.Data) : List guarding.Job → guarding.Data → Prop where
  | nil : Serial initial [] initial
  | snoc {jobs job data data'} (earlier : Serial initial jobs data)
      (ran : (guarding.body job.call job.captured).run (guarding.handle job.tid) data =
        some (job.outcome, data')) :
      Serial initial (jobs ++ [job]) data'

/-- The calls in the order in which they entered. -/
def entries [DecidableEq Op] (labels : List sys.Label) : List Nat :=
  labels.filterMap fun label =>
    match label with
    | .act tid event => if event.op = guarding.enter then some tid else none
    | _ => none

variable [DecidableEq Op] {guarding}

theorem entries_snoc (labels : List sys.Label) (label : sys.Label) :
    guarding.entries (labels ++ [label]) = guarding.entries labels ++ guarding.entries [label] := by
  simp [entries]

theorem entries_act {tid : Nat} {op : Op} {answer : Answer op} (other : op ≠ guarding.enter) :
    guarding.entries [Label.act tid ⟨op, answer⟩] = [] := by
  simp [entries, other]

/-- The jobs that have left, and the data they left behind, explain the
configuration. -/
structure Explains (initial : guarding.Data) (labels : List sys.Label) (config : sys.Config)
    (jobs : List guarding.Job) (data : guarding.Data) : Prop where
  serial : guarding.Serial initial jobs data
  finished : ∀ job ∈ jobs, ∃ thread, config.threads job.tid = some thread ∧
    thread.call = job.call ∧ guarding.Left thread job.captured job.outcome
  free : guarding.holder config.shared = none →
    guarding.entries labels = jobs.map Job.tid ∧ guarding.data config.shared = data
  held : ∀ tid, guarding.holder config.shared = some tid →
    guarding.entries labels = jobs.map Job.tid ++ [tid] ∧ tid ∉ jobs.map Job.tid ∧
    ∃ thread captured middle, config.threads tid = some thread ∧
      guarding.Inside thread captured middle ∧
      middle.run (guarding.handle tid) (guarding.data config.shared) =
        (guarding.body thread.call captured).run (guarding.handle tid) data
  others : ∀ tid thread, config.threads tid = some thread → tid ∉ jobs.map Job.tid →
    guarding.holder config.shared ≠ some tid → guarding.Waiting thread

variable {ok : sys.Config → sys.Label → Prop} {shared : sys.State} {labels : List sys.Label}
  {config last : sys.Config} {label : sys.Label} {initial data : guarding.Data}
  {jobs : List guarding.Job}

theorem explains_start (free : guarding.holder shared = none) :
    Explains (guarding.data shared) [] (Config.start shared) [] (guarding.data shared) where
  serial := .nil
  finished := by simp
  free := fun _ => ⟨rfl, rfl⟩
  held := by
    intro tid held
    rw [Config.start, free] at held
    contradiction
  others := by
    intro tid thread found
    cases found

section Step

variable {tid : Nat} {after : sys.Thread}

theorem Explains.outside (explains : Explains initial labels config jobs data)
    (unchanged : guarding.holder shared = guarding.holder config.shared ∧
      guarding.data shared = guarding.data config.shared)
    (silent : guarding.entries [label] = [])
    (unheld : guarding.holder config.shared ≠ some tid)
    (finished : ∀ job ∈ jobs, job.tid = tid →
      after.call = job.call ∧ guarding.Left after job.captured job.outcome)
    (waiting : tid ∉ jobs.map Job.tid → guarding.Waiting after) :
    Explains initial (labels ++ [label])
      ⟨shared, Function.update config.threads tid (some after)⟩ jobs data where
  serial := explains.serial
  finished := by
    intro job member
    by_cases same : job.tid = tid
    · exact ⟨after, by rw [same]; exact Function.update_self .., finished job member same⟩
    · obtain ⟨thread, found, left⟩ := explains.finished job member
      exact ⟨thread, (Function.update_of_ne same ..).trans found, left⟩
  free := by
    simp only [unchanged.1, unchanged.2, entries_snoc, silent, List.append_nil]
    exact explains.free
  held := by
    simp only [unchanged.1, unchanged.2, entries_snoc, silent, List.append_nil]
    intro other held
    obtain ⟨order, fresh, thread, captured, middle, found, inside⟩ := explains.held other held
    have different : other ≠ tid := by
      intro equal
      subst equal
      exact unheld held
    exact ⟨order, fresh, thread, captured, middle, (Function.update_of_ne different ..).trans found,
      inside⟩
  others := by
    intro other thread found unfinished unheldOther
    rcases find_update found with ⟨rfl, rfl⟩ | ⟨same, found⟩
    · exact waiting unfinished
    · rw [unchanged.1] at unheldOther
      exact explains.others other thread found unfinished unheldOther

theorem Explains.enters (explains : Explains initial labels config jobs data)
    (free : guarding.holder config.shared = none) (held : guarding.holder shared = some tid)
    (unchanged : guarding.data shared = guarding.data config.shared)
    (entered : guarding.entries [label] = [tid]) (unfinished : tid ∉ jobs.map Job.tid)
    {captured : guarding.Captured}
    (inside : guarding.Inside after captured (guarding.body after.call captured)) :
    Explains initial (labels ++ [label])
      ⟨shared, Function.update config.threads tid (some after)⟩ jobs data where
  serial := explains.serial
  finished := by
    intro job member
    have different : job.tid ≠ tid := by
      intro equal
      subst equal
      exact unfinished (List.mem_map_of_mem member)
    obtain ⟨thread, found, left⟩ := explains.finished job member
    exact ⟨thread, (Function.update_of_ne different ..).trans found, left⟩
  free := by
    intro impossible
    simp only at impossible
    rw [held] at impossible
    contradiction
  held := by
    intro other heldOther
    simp only at heldOther
    rw [held, Option.some.injEq] at heldOther
    subst heldOther
    obtain ⟨order, same⟩ := explains.free free
    rw [entries_snoc, entered, order]
    refine ⟨rfl, unfinished, after, captured, _, Function.update_self .., inside, ?_⟩
    rw [unchanged, same]
  others := by
    intro other thread found unfinishedOther unheld
    simp only at unheld
    have different : other ≠ tid := by
      intro equal
      subst equal
      exact unheld held
    simp only [Function.update_of_ne different] at found
    exact explains.others other thread found unfinishedOther (by rw [free]; simp)

theorem Explains.goesOn (explains : Explains initial labels config jobs data)
    (held : guarding.holder config.shared = some tid)
    (unchanged : guarding.holder shared = guarding.holder config.shared)
    (silent : guarding.entries [label] = []) {captured : guarding.Captured}
    {middle : Program Op Answer guarding.Outcome} (inside : guarding.Inside after captured middle)
    (same : middle.run (guarding.handle tid) (guarding.data shared) =
      (guarding.body after.call captured).run (guarding.handle tid) data) :
    Explains initial (labels ++ [label])
      ⟨shared, Function.update config.threads tid (some after)⟩ jobs data where
  serial := explains.serial
  finished := by
    intro job member
    have different : job.tid ≠ tid := by
      intro equal
      subst equal
      exact (explains.held _ held).2.1 (List.mem_map_of_mem member)
    obtain ⟨thread, found, left⟩ := explains.finished job member
    exact ⟨thread, (Function.update_of_ne different ..).trans found, left⟩
  free := by
    intro impossible
    simp only [unchanged, held] at impossible
    contradiction
  held := by
    intro other heldOther
    simp only [unchanged, held, Option.some.injEq] at heldOther
    subst heldOther
    obtain ⟨order, fresh, _⟩ := explains.held tid held
    exact ⟨by rw [entries_snoc, silent, List.append_nil, order], fresh, after, captured, middle,
      Function.update_self .., inside, same⟩
  others := by
    intro other thread found unfinished unheld
    simp only [unchanged] at unheld
    have different : other ≠ tid := by
      intro equal
      subst equal
      exact unheld held
    simp only [Function.update_of_ne different] at found
    exact explains.others other thread found unfinished unheld

theorem Explains.leaves (explains : Explains initial labels config jobs data)
    (held : guarding.holder config.shared = some tid) (released : guarding.holder shared = none)
    (unchanged : guarding.data shared = guarding.data config.shared)
    (silent : guarding.entries [label] = []) {captured : guarding.Captured}
    {outcome : guarding.Outcome} (left : guarding.Left after captured outcome)
    (ran : (guarding.body after.call captured).run (guarding.handle tid) data =
      some (outcome, guarding.data config.shared)) :
    Explains initial (labels ++ [label])
      ⟨shared, Function.update config.threads tid (some after)⟩
      (jobs ++ [⟨tid, after.call, captured, outcome⟩]) (guarding.data config.shared) where
  serial := .snoc explains.serial ran
  finished := by
    intro job member
    rcases List.mem_append.mp member with old | new
    · have different : job.tid ≠ tid := by
        intro same
        subst same
        exact (explains.held _ held).2.1 (List.mem_map_of_mem old)
      obtain ⟨thread, found, leftThread⟩ := explains.finished job old
      exact ⟨thread, (Function.update_of_ne different ..).trans found, leftThread⟩
    · rw [List.mem_singleton] at new
      subst new
      exact ⟨after, Function.update_self .., rfl, left⟩
  free := by
    intro _
    refine ⟨?_, unchanged⟩
    rw [entries_snoc, silent, List.append_nil, (explains.held tid held).1, List.map_append]
    rfl
  held := by
    intro other impossible
    simp only [released] at impossible
    contradiction
  others := by
    intro other thread found unfinished _
    have different : other ≠ tid := by
      intro same
      subst same
      simp at unfinished
    simp only [Function.update_of_ne different] at found
    refine explains.others other thread found (fun member => ?_) (fun heldOther => ?_)
    · exact unfinished (by rw [List.map_append]; exact List.mem_append_left _ member)
    · rw [held, Option.some.injEq] at heldOther
      exact different heldOther.symm

end Step

/-- Every step keeps the explanation, and adds a job when a call leaves. -/
theorem Explains.step (explains : Explains initial labels config jobs data)
    (step : Step config label last) :
    ∃ jobs' data', Explains initial (labels ++ [label]) last jobs' data' := by
  cases step with
  | @invoke tid call fresh =>
      have unheld : ∀ other, guarding.holder config.shared = some other → other ≠ tid := by
        intro other held equal
        subst equal
        obtain ⟨_, _, thread, _, _, found, _⟩ := explains.held other held
        rw [fresh] at found
        contradiction
      refine ⟨jobs, data, explains.serial, ?_, ?_, ?_, ?_⟩
      · intro job member
        obtain ⟨thread, found, sameCall, left⟩ := explains.finished job member
        have different : job.tid ≠ tid := by
          intro equal
          subst equal
          rw [fresh] at found
          contradiction
        exact ⟨thread, (Function.update_of_ne different ..).trans found, sameCall, left⟩
      · intro free
        rw [entries_snoc]
        simpa [entries] using explains.free free
      · intro other held
        obtain ⟨order, fresh, thread, captured, middle, found, inside, same⟩ :=
          explains.held other held
        rw [entries_snoc]
        refine ⟨by simpa [entries] using order, fresh, thread, captured, middle, ?_, inside, same⟩
        exact (Function.update_of_ne (unheld other held) ..).trans found
      · intro other thread found unfinished unheldHere
        rcases find_update found with ⟨rfl, rfl⟩ | ⟨same, found⟩
        · exact .of_code call
        · exact explains.others other thread found unfinished unheldHere
  | @drift env shared changed =>
      have sameHolder := guarding.drift_holder changed
      have sameData := guarding.drift_data changed
      refine ⟨jobs, data, explains.serial, explains.finished, ?_, ?_, ?_⟩
      · simp only [sameHolder, sameData, entries_snoc]
        simpa [entries] using explains.free
      · simp only [sameHolder, sameData, entries_snoc]
        simpa [entries] using explains.held
      · simp only [sameHolder]
        exact explains.others
  | @act tid call past op next answer shared running performed =>
      by_cases finishedHere : tid ∈ jobs.map Job.tid
      · -- The call has left: it performs what is left outside the lock.
        obtain ⟨job, member, rfl⟩ := List.mem_map.mp finishedHere
        have standing : ∀ other ∈ jobs, other.tid = job.tid → call = other.call ∧
            guarding.Left ⟨call, past, .step op next⟩ other.captured other.outcome := by
          intro other inJobs sameTid
          obtain ⟨thread, found, sameCall, left⟩ := explains.finished other inJobs
          rw [sameTid, running, Option.some.injEq] at found
          subst found
          exact ⟨sameCall, left⟩
        have outer := ((standing job member rfl).2.advance answer).1
        have unheld : guarding.holder config.shared ≠ some job.tid := by
          intro held
          exact (explains.held _ held).2.1 finishedHere
        refine ⟨jobs, data, explains.outside
          ⟨guarding.outer_holder outer performed, guarding.outer_data outer performed⟩
          (entries_act fun same => guarding.enter_not_outer (same ▸ outer)) unheld ?_
          fun unfinished => absurd finishedHere unfinished⟩
        intro other inJobs sameTid
        exact ⟨(standing other inJobs sameTid).1, ((standing other inJobs sameTid).2.advance answer).2⟩
      · by_cases held : guarding.holder config.shared = some tid
        · obtain ⟨_, _, thread, captured, middle, found, inside, same⟩ := explains.held tid held
          rw [running, Option.some.injEq] at found
          subst found
          rcases inside.advance answer with ⟨inner, next', rfl, insideNow⟩ | ⟨rfl, outcome, rfl, left⟩
          · have sameRun := @run_step _ _ _ _ (guarding.handle tid) _ next' _ _ _
              (guarding.inner_data inner performed)
            exact ⟨jobs, data, explains.goesOn held (guarding.inner_holder inner performed)
              (entries_act fun isEnter => guarding.enter_not_inner (isEnter ▸ inner)) insideNow
              (sameRun.symm.trans same)⟩
          · exact ⟨_, _, explains.leaves held (guarding.leave_holder performed)
              (guarding.leave_data performed) (entries_act guarding.enter_ne_leave.symm) left same.symm⟩
        · rcases (explains.others tid _ running finishedHere held).advance performed with
            ⟨outer, waiting⟩ | ⟨rfl, free, heldNow, captured, inside⟩
          · exact ⟨jobs, data, explains.outside
              ⟨guarding.outer_holder outer performed, guarding.outer_data outer performed⟩
              (entries_act fun same => guarding.enter_not_outer (same ▸ outer)) held
              (fun job member same => absurd (same ▸ List.mem_map_of_mem member) finishedHere)
              fun _ => waiting⟩
          · exact ⟨jobs, data, explains.enters free heldNow (guarding.enter_data performed)
              (by simp [entries]) finishedHere inside⟩

/-- Every reachable configuration is explained by running the bodies one after
another, in the order in which the calls entered. -/
theorem serialisable (run : RunWhere ok (Config.start shared) labels last)
    (free : guarding.holder shared = none) :
    ∃ jobs data, Explains (guarding.data shared) labels last jobs data := by
  induction run with
  | refl => exact ⟨_, _, explains_start free⟩
  | snoc _ _ step ih =>
      obtain ⟨jobs, data, explains⟩ := ih
      exact explains.step step

end Guarding

end TariVault
