import TariVault.Program.Guarded
import TariVault.Storage.FileRefinement

namespace TariVault

open Program TariVault.System

/-! # File operations one after another

Whatever the schedule, and whichever futures are dropped on the way, the closures
run one after another in the order in which they took the sidecar lock.
-/

variable (serde : Serde)

namespace FileCall

variable (call : FileCall)

/-- Only a sweep reads the clock, before it spawns its closure. -/
def capture : BackendOp → Host FileOp.Answer (Option DateTime)
  | .deleteExpired => some <$> Host.now
  | _ => pure none

/-- What the closure does between taking and releasing the sidecar lock. -/
def closure (captured : Option DateTime) : Host FileOp.Answer BackendResult :=
  match call.op with
  | .insert recordId record =>
      (fun answer => ⟨.insert recordId record, answer⟩) <$>
        (call.store.insertBody serde recordId record).run
  | .fetch recordId =>
      (fun answer => ⟨.fetch recordId, answer⟩) <$> (LocalFileStore.fetchBody serde recordId).run
  | .delete recordId =>
      (fun answer => ⟨.delete recordId, answer⟩) <$> (call.store.deleteBody serde recordId).run
  | .deleteExpired =>
      (fun answer => ⟨.deleteExpired, answer⟩) <$>
        (call.store.deleteExpiredBody serde (captured.getD .epoch)).run

/-- The answer when the sidecar file cannot be opened or locked. -/
def refusal (message : String) : BackendResult := ⟨call.op, call.op.failure (.io message)⟩

/-- Releasing the mutex is the last thing a call does. -/
def finish (result : BackendResult) : Host FileOp.Answer BackendResult :=
  .step (.storage (.unlockProcess call.store.processLock)) fun _ => .done result

/-- Up to the sidecar lock. -/
def before : Host FileOp.Answer (Except BackendResult (Option DateTime)) :=
  .step (.storage (.lockProcess call.store.processLock)) fun _ =>
    capture call.op >>= fun captured =>
      .step (.storage .openLockFile) fun opened =>
        match opened with
        | .ok _ => .done (.ok captured)
        | .error message => Except.error <$> call.finish (call.refusal message)

def onEnter (captured : Option DateTime) :
    Except String Unit → Host FileOp.Answer BackendResult
  | .ok _ => call.closure serde captured >>= fun result => .step (.storage .unlock) fun _ =>
      call.finish result
  | .error message => call.finish (call.refusal message)

/-- An operation under both locks, step by step. -/
theorem map_withProcessLock {κ α Reply : Type} (store : LocalFileStore)
    (capture : Host FileOp.Answer κ) (body : κ → FileM α) (reply : Except StorageError α → Reply) :
    reply <$> store.withProcessLock capture body =
      .step (.storage (.lockProcess store.processLock)) fun _ => capture >>= fun captured =>
        .step (.storage .openLockFile) fun opened =>
          match opened with
          | .error message => .step (.storage (.unlockProcess store.processLock)) fun _ =>
              .done (reply (.error (.io message)))
          | .ok _ => .step (.storage .lockExclusive) fun locked =>
              match locked with
              | .error message => .step (.storage (.unlockProcess store.processLock)) fun _ =>
                  .done (reply (.error (.io message)))
              | .ok _ => (reply <$> (body captured).run) >>= fun result =>
                  .step (.storage .unlock) fun _ =>
                    .step (.storage (.unlockProcess store.processLock)) fun _ => .done result := by
  refine congrArg (Program.step _) (funext fun _ => ?_)
  change reply <$> (capture >>= _) = _
  rw [map_bind]
  refine congrArg (capture >>= ·) (funext fun captured => ?_)
  refine congrArg (Program.step _) (funext fun opened => ?_)
  cases opened with
  | error message => rfl
  | ok opened =>
      refine congrArg (Program.step _) (funext fun locked => ?_)
      cases locked with
      | error message => rfl
      | ok locked =>
          change reply <$> (((body captured).run >>= fun result =>
              Host.storage FileOp.unlock >>= fun _ => pure result) >>= fun result =>
              Host.storage (FileOp.unlockProcess store.processLock) >>= fun _ => pure result) = _
          simp only [bind_assoc, map_eq_pure_bind]
          rfl

theorem code_eq : call.code serde =
    call.before >>= entering (.storage .lockExclusive) (call.onEnter serde) := by
  have both {κ α : Type} (body : κ → FileM α) (reply : Except StorageError α → BackendResult)
      (source : Host FileOp.Answer κ) (convert : κ → Option DateTime)
      (same : capture call.op = convert <$> source)
      (closes : ∀ captured, call.closure serde (convert captured) = reply <$> (body captured).run)
      (refuses : ∀ message, call.refusal message = reply (.error (.io message))) :
      reply <$> call.store.withProcessLock source body =
        call.before >>= entering (.storage .lockExclusive) (call.onEnter serde) := by
    refine (map_withProcessLock ..).trans (congrArg (Program.step _) (funext fun _ => ?_))
    change _ = (capture call.op >>= _) >>= _
    rw [same, map_eq_pure_bind, bind_assoc, bind_assoc]
    refine congrArg (source >>= ·) (funext fun captured => ?_)
    refine congrArg (Program.step _) (funext fun opened => ?_)
    cases opened with
    | error message => exact congrArg call.finish (refuses message).symm
    | ok opened =>
        refine congrArg (Program.step _) (funext fun locked => ?_)
        cases locked with
        | error message => exact congrArg call.finish (refuses message).symm
        | ok locked =>
            rw [onEnter, closes]
            rfl
  obtain ⟨store, op⟩ := call
  cases op with
  | insert recordId record =>
      exact both (fun _ => store.insertBody serde recordId record) _ (pure ()) (fun _ => none) rfl
        (fun _ => rfl) (fun _ => rfl)
  | fetch recordId =>
      exact both (fun _ => LocalFileStore.fetchBody serde recordId) _ (pure ()) (fun _ => none) rfl
        (fun _ => rfl) (fun _ => rfl)
  | delete recordId =>
      exact both (fun _ => store.deleteBody serde recordId) _ (pure ()) (fun _ => none) rfl
        (fun _ => rfl) (fun _ => rfl)
  | deleteExpired =>
      exact both (store.deleteExpiredBody serde) _ Host.now some rfl (fun _ => rfl) (fun _ => rfl)

section Within

variable {serde}

theorem within_bind {α β : Type} {allowed : HostOp FileOp → Prop} {first : FileM α}
    {rest : α → FileM β} (firstWithin : first.run.Within allowed)
    (restWithin : ∀ value, (rest value).run.Within allowed) :
    (first >>= rest).run.Within allowed := by
  rw [ExceptT.run_bind]
  refine firstWithin.bind fun result => ?_
  cases result with
  | ok value => exact restWithin value
  | error error => exact .done _

theorem storage_within {op : FileOp} {allowed : HostOp FileOp → Prop}
    (here : allowed (.storage op)) :
    (Host.storage op : Host FileOp.Answer op.Answer).Within allowed :=
  .step here fun _ => .done _

theorem io_within {α : Type} {program : Host FileOp.Answer (Except String α)}
    {allowed : HostOp FileOp → Prop} (within : program.Within allowed) :
    (FileM.io program).run.Within allowed :=
  within.map _

theorem readState_within : (LocalFileStore.readState serde).run.Within OnFiles :=
  within_bind (io_within (@storage_within .read _ trivial)) fun _ => .done _

theorem writeAtomic_within (hasParent : Bool) (state : DiskState) :
    (writeAtomic serde hasParent state).run.Within Writing := by
  unfold writeAtomic
  split
  · refine within_bind (io_within (storage_within trivial)) fun _ => ?_
    refine within_bind ?_ fun _ => io_within (storage_within trivial)
    refine Within.bind ?_ fun result => ?_
    · refine within_bind (.done _) fun bytes => ?_
      refine within_bind (io_within (storage_within trivial)) fun _ => ?_
      refine within_bind (io_within (storage_within trivial)) fun _ => ?_
      exact io_within (storage_within trivial)
    · cases result with
      | ok value => exact .done _
      | error error => exact (storage_within trivial).bind fun _ => .done _
  · exact .done _

theorem closure_within (call : FileCall) (captured : Option DateTime) :
    (call.closure serde captured).Within OnFiles := by
  unfold closure
  split
  · exact (within_bind readState_within fun _ =>
      (writeAtomic_within ..).mono fun _ => Writing.onFiles).map _
  · refine (within_bind readState_within fun state => ?_).map _
    split <;> exact .done _
  · refine (within_bind readState_within fun state => ?_).map _
    dsimp only
    split
    · exact within_bind ((writeAtomic_within ..).mono fun _ => Writing.onFiles) fun _ => .done _
    · exact .done _
  · refine (within_bind readState_within fun state => ?_).map _
    dsimp only
    split
    · exact within_bind ((writeAtomic_within ..).mono fun _ => Writing.onFiles) fun _ => .done _
    · exact .done _

theorem before_within (call : FileCall) : call.before.Within Outside := by
  refine .step trivial fun _ => Within.bind ?_ fun captured => .step trivial fun opened => ?_
  · unfold capture
    split
    · exact Within.map _ (.step trivial fun _ => .done _)
    · exact .done _
  · cases opened with
    | ok opened => exact .done _
    | error message => exact Within.map _ (.step trivial fun _ => .done _)

end Within

/-- The sidecar lock guards the files. -/
def guarding : Guarding (fileSystem (FileCall.code serde)) where
  Captured := Option DateTime
  Outcome := BackendResult
  enter := .storage .lockExclusive
  granted := .ok ()
  leave := .storage .unlock
  outer := Outside
  inner := OnFiles
  before := before
  body := closure serde
  after := finish
  onEnter := onEnter serde
  holder := FileState.sidecar
  code_eq := code_eq serde
  onEnter_granted _ _ := rfl
  before_within := before_within
  body_within := closure_within
  after_within call result := .step trivial fun _ => .done _
  enter_not_outer := id
  enter_not_inner := OnFiles.not_lockExclusive
  enter_ne_leave := FileOp.lockExclusive_ne_unlock
  outer_holder outside performed := (FileState.respond_outside outside performed).1
  enter_holder performed := by
    obtain ⟨granted, free, held, _⟩ := FileState.respond_lockExclusive performed
    exact ⟨granted, free, held⟩
  leave_holder performed := by
    cases performed
    rfl
  inner_holder onFiles performed := (FileState.respond_onFiles onFiles performed).1
  drift_holder := by
    intro state env _ equal
    subst equal
    cases env <;> rfl
  Data := Disk
  data := FileState.disk
  handle := Disk.handle
  outer_data outside performed := (FileState.respond_outside outside performed).2
  enter_data performed := (FileState.respond_lockExclusive performed).2.2.2
  leave_data performed := by
    cases performed
    rfl
  inner_data onFiles performed := (FileState.respond_onFiles onFiles performed).2
  drift_data := by
    intro state env _ equal
    subst equal
    cases env <;> rfl

/-- A whole call run by itself, with the clock at `now`. -/
def alone (tid : Nat) (now : DateTime) (disk : Disk) : Option (BackendResult × Disk) :=
  ((call.code serde).run (FileState.respond tid) (.idle disk now)).map fun result =>
    (result.1, result.2.disk)

/-- What a call with this operation captures when the clock shows `now`. -/
def captureAt (now : DateTime) : BackendOp → Option DateTime
  | .deleteExpired => some now
  | _ => none

variable {serde call}

/-- A call whose mutex is free gets to the sidecar lock. -/
theorem before_run {tid : Nat} {state : FileState} (free : state.mutexes call.store.processLock = none) :
    call.before.run (FileState.respond tid) state =
      some (.ok (captureAt state.clock call.op),
        { state with mutexes := Function.update state.mutexes call.store.processLock (some tid) }) := by
  have taken : state.respond tid (.storage (.lockProcess call.store.processLock)) = some ((),
      { state with mutexes := Function.update state.mutexes call.store.processLock (some tid) }) := by
    simp only [FileState.respond, free]
  unfold before capture captureAt
  rw [run_step taken]
  split <;> rfl

/-- A call that holds the sidecar lock runs its closure, and gives back the lock and
what mutex it still holds. -/
theorem onEnter_run {tid : Nat} (state : FileState) {captured : Option DateTime} {result : BackendResult}
    {disk' : Disk} (ran : (call.closure serde captured).run (Disk.handle tid) state.disk =
      some (result, disk')) :
    (call.onEnter serde captured (.ok ())).run (FileState.respond tid) state =
      some (result, { state with
        disk := disk'
        sidecar := none
        mutexes := if state.mutexes call.store.processLock = some tid then
          Function.update state.mutexes call.store.processLock none else state.mutexes }) := by
  have closed : (call.closure serde captured).run (FileState.respond tid) state =
      some (result, { state with disk := disk' }) := by
    rw [FileState.run_onFiles (closure_within call _), ran]
    rfl
  simp only [onEnter]
  rw [run_bind_of_eq closed]
  simp only [run, finish, FileState.respond]
  split <;> rfl

/-- Running a call by itself is running its closure. It leaves no lock held. -/
theorem code_run {tid : Nat} {now : DateTime} {disk disk' : Disk} {result : BackendResult}
    (ran : (call.closure serde (captureAt now call.op)).run (Disk.handle tid) disk =
      some (result, disk')) :
    (call.code serde).run (FileState.respond tid) (.idle disk now) =
      some (result, .idle disk' now) := by
  let locked : FileState :=
    { FileState.idle disk now with mutexes := Function.update (fun _ => none) call.store.processLock (some tid) }
  have prepared : call.before.run (FileState.respond tid) (.idle disk now) =
      some (.ok (captureAt now call.op), locked) := before_run rfl
  have entered : locked.respond tid (.storage .lockExclusive) =
      some (.ok (), { locked with sidecar := some tid }) := rfl
  rw [code_eq, run_bind_of_eq prepared]
  simp only [entering]
  rw [run_step entered, onEnter_run { locked with sidecar := some tid } ran]
  simp [locked, FileState.idle]

theorem alone_of_closure {tid : Nat} {now : DateTime} {disk disk' : Disk} {result : BackendResult}
    (ran : (call.closure serde (captureAt now call.op)).run (Disk.handle tid) disk =
      some (result, disk')) : call.alone serde tid now disk = some (result, disk') := by
  rw [alone, code_run ran]
  rfl

theorem closure_eq (call : FileCall) (now : DateTime) :
    call.closure serde (captureAt now call.op) =
      (fun answer => ⟨call.op, answer⟩) <$> transact serde call.store.hasParent call.op now := by
  obtain ⟨store, op⟩ := call
  cases op with
  | insert recordId record => simp only [closure, store.insertBody_run now]
  | fetch recordId => simp only [closure, store.fetchBody_run now]
  | delete recordId => simp only [closure, store.deleteBody_run now]
  | deleteExpired =>
      simp only [closure, captureAt, Option.getD_some, store.deleteExpiredBody_run now]

/-- The closure of a call does to a file that holds some contents what its operation
does to them. -/
theorem closure_refines (tid : Nat) (now : DateTime) {disk : Disk} {contents : Contents}
    (readsBack : serde.ReadsBack) (hasParent : call.store.hasParent = true)
    (holds : Holds serde disk contents) :
    ∃ disk', (call.closure serde (captureAt now call.op)).run (Disk.handle tid) disk =
        some (⟨call.op, (contents.apply now call.op).1⟩, disk') ∧
      Holds serde disk' (contents.apply now call.op).2 := by
  obtain ⟨disk', ran, left⟩ := @transact_refines _ tid _ _ now readsBack call.op holds
  refine ⟨disk', ?_, left⟩
  rw [closure_eq, run_map, hasParent, ran]
  rfl

/-- A whole call on a file that holds some contents, run by itself, is its operation
on the map. -/
theorem code_refines {tid : Nat} {now : DateTime} {disk : Disk} {contents : Contents}
    (readsBack : serde.ReadsBack) (hasParent : call.store.hasParent = true)
    (holds : Holds serde disk contents) :
    ∃ disk', (call.code serde).run (FileState.respond tid) (.idle disk now) =
        some (⟨call.op, (contents.apply now call.op).1⟩, .idle disk' now) ∧
      Holds serde disk' (contents.apply now call.op).2 := by
  obtain ⟨disk', ran, left⟩ := closure_refines tid now readsBack hasParent holds
  exact ⟨disk', code_run ran, left⟩

theorem alone_refines {tid : Nat} {now : DateTime} {disk : Disk} {contents : Contents}
    (readsBack : serde.ReadsBack) (hasParent : call.store.hasParent = true)
    (holds : Holds serde disk contents) :
    ∃ disk', call.alone serde tid now disk = some (⟨call.op, (contents.apply now call.op).1⟩, disk') ∧
      Holds serde disk' (contents.apply now call.op).2 := by
  obtain ⟨disk', ran, left⟩ := @code_refines serde call tid now _ _ readsBack hasParent holds
  refine ⟨disk', ?_, left⟩
  rw [alone, ran]
  rfl

theorem capture_leads {op : BackendOp} {events : List (Event (HostOp.Answer FileOp.Answer))}
    {captured : Option DateTime} (leads : Leads (capture op) events (.done captured)) :
    ∃ now, captured = captureAt now op ∧ (op = .deleteExpired → ⟨.now, now⟩ ∈ events) := by
  unfold capture at leads
  split at leads
  · rcases leads.step_inv with ⟨_, impossible⟩ | ⟨now, tail, rfl, tailLeads⟩
    · contradiction
    · obtain ⟨rfl, finished⟩ := tailLeads.done_inv
      cases finished
      exact ⟨now, rfl, fun _ => List.mem_cons_self⟩
  · rename_i notSweep
    obtain ⟨rfl, finished⟩ := leads.done_inv
    cases finished
    cases op with
    | deleteExpired => exact absurd rfl notSweep
    | insert recordId record => exact ⟨.epoch, rfl, nofun⟩
    | fetch recordId => exact ⟨.epoch, rfl, nofun⟩
    | delete recordId => exact ⟨.epoch, rfl, nofun⟩

/-- A call reaches the sidecar lock with what it captured, or ends because the
sidecar file could not be opened. -/
theorem before_leads {events : List (Event (HostOp.Answer FileOp.Answer))}
    {reached : Except BackendResult (Option DateTime)}
    (leads : Leads call.before events (.done reached)) :
    (∃ now, reached = .ok (captureAt now call.op) ∧
      (call.op = .deleteExpired → ⟨.now, now⟩ ∈ events)) ∨
    ∃ message, reached = .error (call.refusal message) ∧
      (⟨.storage .openLockFile, .error message⟩ : Event (HostOp.Answer FileOp.Answer)) ∈ events := by
  rcases leads.step_inv with ⟨_, impossible⟩ | ⟨_, tail, rfl, tailLeads⟩
  · contradiction
  rcases tailLeads.bind_inv with ⟨_, _, _, impossible⟩ | ⟨captured, front, back, rfl, captures, opens⟩
  · contradiction
  rcases opens.step_inv with ⟨_, impossible⟩ | ⟨opened, rest, rfl, openedLeads⟩
  · contradiction
  cases opened with
  | error message =>
      obtain ⟨middle, finishes, mapped⟩ := openedLeads.map_inv
      obtain ⟨result, rfl, same⟩ := map_eq_done mapped.symm
      rcases finishes.step_inv with ⟨_, impossible⟩ | ⟨_, _, _, finished⟩
      · contradiction
      · rw [← same, Program.done.inj finished.done_inv.2]
        exact .inr ⟨message, rfl, by simp⟩
  | ok opened =>
      obtain ⟨rfl, finished⟩ := openedLeads.done_inv
      cases finished
      obtain ⟨now, rfl, read⟩ := capture_leads captures
      exact .inl ⟨now, rfl, fun sweep => by simp [read sweep]⟩

end FileCall

/-- A call that was run, with the clock value it captured and what it returned. -/
structure Executed where
  tid : Nat
  call : FileCall
  now : DateTime
  result : BackendResult

inductive OneByOne (initial : Disk) : List Executed → Disk → Prop where
  | nil : OneByOne initial [] initial
  | snoc {calls executed disk disk'} (earlier : OneByOne initial calls disk)
      (ran : executed.call.alone serde executed.tid executed.now disk =
        some (executed.result, disk')) :
      OneByOne initial (calls ++ [executed]) disk'

/-- The calls in the order in which they took the sidecar lock. -/
def lockOrder {Call Result : Type} {code : Call → Host FileOp.Answer Result}
    (labels : List (Label (fileSystem code))) : List Nat :=
  labels.filterMap fun label =>
    match label with
    | .act tid event => if event.op = .storage .lockExclusive then some tid else none
    | _ => none

variable {serde} {disk : Disk} {clock : DateTime}
  {labels : List (Label (fileSystem (FileCall.code serde)))}
  {config : Config (fileSystem (FileCall.code serde))}

theorem entries_eq : (FileCall.guarding serde).entries labels = lockOrder labels := by
  refine List.filterMap_congr fun label _ => ?_
  cases label <;> rfl

/-- A call that has left the sidecar lock: what it captured, and what it returns. -/
theorem left_inv {thread : Thread (fileSystem (FileCall.code serde))} {captured : Option DateTime}
    {outcome : BackendResult} (left : (FileCall.guarding serde).Left thread captured outcome) :
    ∃ now, captured = FileCall.captureAt now thread.call.op ∧
      (thread.call.op = .deleteExpired → thread.Did ⟨.now, now⟩) ∧
      ∀ result, thread.Returned result → result = outcome := by
  obtain ⟨front, back, answer, tail, order, captures, _, finishes⟩ := left
  rcases FileCall.before_leads captures with ⟨now, same, read⟩ | ⟨_, impossible, _⟩
  · refine ⟨now, Except.ok.inj same, fun sweep => ?_, fun result returned => ?_⟩
    · rw [Thread.Did, order]
      exact List.mem_append_left _ (read sweep)
    · rw [Thread.Returned] at returned
      rw [returned] at finishes
      rcases finishes.step_inv with ⟨_, impossible⟩ | ⟨_, rest, _, restLeads⟩
      · contradiction
      · exact Program.done.inj restLeads.done_inv.2
  · contradiction

/-- The jobs of the lock, as calls run alone. -/
theorem one_by_one {jobs : List (FileCall.guarding serde).Job} {final : Disk}
    (serial : (FileCall.guarding serde).Serial disk jobs final)
    (finished : ∀ job ∈ jobs, ∃ thread, config.threads job.tid = some thread ∧
      thread.call = job.call ∧ (FileCall.guarding serde).Left thread job.captured job.outcome) :
    ∃ calls, calls.map Executed.tid = jobs.map Guarding.Job.tid ∧ OneByOne serde disk calls final ∧
      ∀ executed ∈ calls, ∃ thread, config.threads executed.tid = some thread ∧
        thread.call = executed.call ∧
        (executed.call.op = .deleteExpired → thread.Did ⟨.now, executed.now⟩) ∧
        ∀ result, thread.Returned result → result = executed.result := by
  induction serial with
  | nil => exact ⟨[], rfl, .nil, by simp⟩
  | @snoc jobs job data data' earlier ran ih =>
      obtain ⟨calls, sameTids, oneByOne, explained⟩ := ih fun job member =>
        finished job (List.mem_append_left _ member)
      obtain ⟨thread, found, sameCall, left⟩ := finished job (by simp)
      obtain ⟨now, captured, read, returns⟩ := left_inv left
      rw [sameCall] at captured read
      rw [captured] at ran
      have alone : job.call.alone serde job.tid now data = some (job.outcome, data') :=
        FileCall.alone_of_closure ran
      refine ⟨calls ++ [⟨job.tid, job.call, now, job.outcome⟩], by simp [sameTids],
        .snoc oneByOne alone, fun executed member => ?_⟩
      rcases List.mem_append.mp member with old | new
      · exact explained executed old
      · rw [List.mem_singleton] at new
        subst new
        exact ⟨thread, found, sameCall, read, returns⟩

/-- A call that returned took the sidecar lock: nothing failed before. -/
theorem returned_not_waiting (run : Run (Config.start (FileState.idle disk clock)) labels config)
    {tid : Nat} {thread : Thread (fileSystem (FileCall.code serde))}
    (found : config.threads tid = some thread) {result : BackendResult}
    (returned : thread.Returned result) : ¬ (FileCall.guarding serde).Waiting thread := by
  intro holds
  obtain ⟨middle, leads, rest⟩ := holds
  rw [returned] at rest
  cases middle with
  | step op next => contradiction
  | done reached =>
      rcases FileCall.before_leads leads with ⟨now, rfl, _⟩ | ⟨message, _, failed⟩
      · contradiction
      · obtain ⟨state, state', performed⟩ := run.did_performed found failed
        cases performed

/-- Calls run one at a time do to the map what their operations do, in that order. -/
theorem OneByOne.refines {contents : Contents} (readsBack : serde.ReadsBack) {calls : List Executed}
    {final : Disk}
    (oneByOne : OneByOne serde disk calls final) (holds : Holds serde disk contents)
    (parents : ∀ executed ∈ calls, executed.call.store.hasParent = true) :
    Holds serde final (calls.foldl (fun contents executed =>
      (contents.apply executed.now executed.call.op).2) contents) := by
  induction oneByOne with
  | nil => exact holds
  | @snoc calls executed disk disk' earlier ran ih =>
      have before := ih fun other member => parents other (List.mem_append_left _ member)
      obtain ⟨after, ran', left⟩ := @FileCall.alone_refines _ executed.call executed.tid executed.now _ _
        readsBack (parents executed (by simp)) before
      rw [ran, Option.some.injEq, Prod.mk.injEq] at ran'
      rw [List.foldl_append, ran'.2]
      exact left

/-- Whatever the interleaving, the results returned and the files are those of the
calls run one at a time in the order in which they took the sidecar lock, each
sweep at the clock value it captured. So the file ends with what the operations make
of its contents in that order, none of them lost. -/
theorem operations_serialise
    (run : Run (Config.start (FileState.idle disk clock)) labels config) :
    ∃ calls final, OneByOne serde disk calls final ∧
      (∀ executed ∈ calls, ∃ thread, config.threads executed.tid = some thread ∧
        thread.call = executed.call ∧
        (executed.call.op = .deleteExpired → thread.Did ⟨.now, executed.now⟩) ∧
        ∀ result, thread.Returned result → result = executed.result) ∧
      (∀ tid thread result, config.threads tid = some thread → thread.Returned result →
        tid ∈ calls.map Executed.tid) ∧
      (config.shared.sidecar = none →
        lockOrder labels = calls.map Executed.tid ∧ config.shared.disk = final) ∧
      (∀ tid, config.shared.sidecar = some tid →
        lockOrder labels = calls.map Executed.tid ++ [tid]) ∧
      ∀ contents, serde.ReadsBack → Holds serde disk contents →
        (∀ executed ∈ calls, executed.call.store.hasParent = true) →
          Holds serde final (calls.foldl (fun contents executed =>
            (contents.apply executed.now executed.call.op).2) contents) := by
  obtain ⟨jobs, final, explains⟩ := (FileCall.guarding serde).serialisable run rfl
  obtain ⟨calls, sameTids, oneByOne, explained⟩ := one_by_one explains.serial explains.finished
  refine ⟨calls, final, oneByOne, explained, fun tid thread result found returned => ?_,
    fun free => ?_, fun tid held => ?_, fun contents readsBack holds parents =>
      oneByOne.refines readsBack holds parents⟩
  · rw [sameTids]
    by_contra unfinished
    refine returned_not_waiting run found returned (explains.others tid thread found unfinished ?_)
    intro held
    obtain ⟨_, _, other, captured, middle, foundOther, inside, _⟩ := explains.held tid held
    rw [found, Option.some.injEq] at foundOther
    subst foundOther
    have rest := inside.rest
    rw [returned] at rest
    cases middle <;> contradiction
  · rw [sameTids, ← entries_eq]
    exact explains.free free
  · rw [sameTids, ← entries_eq]
    exact (explains.held tid held).1

section Parts

variable {Call Result α : Type} {code : Call → Host FileOp.Answer Result}
  {ok : Config (fileSystem code) → Label (fileSystem code) → Prop}
  {start config : Config (fileSystem code)} {labels : List (Label (fileSystem code))} {tid : Nat}
  {call : Call} {past : List (Event (HostOp.Answer FileOp.Answer))} {program : Host FileOp.Answer α}
  {next : α → Host FileOp.Answer Result} {value : α} {shared : FileState}

/-- A call goes through the next part of its program while the others wait. -/
theorem part_runs (front : RunWhere ok start labels config)
    (found : config.threads tid = some ⟨call, past, program >>= next⟩)
    (ran : program.run (FileState.respond tid) config.shared = some (value, shared))
    (allowed : ∀ (config : Config (fileSystem code)) past rest event,
      config.threads tid = some ⟨call, past, rest⟩ → ok config (.act tid event)) :
    ∃ later events, RunWhere ok start (labels ++ later)
      ⟨shared, Function.update config.threads tid (some ⟨call, past ++ events, next value⟩)⟩ := by
  obtain ⟨events, leads, acts⟩ :=
    @acts_of_run _ _ (fileSystem code) _ tid (FileState.respond tid) (fun _ => True)
      (fun _ performed => ⟨performed, trivial⟩) _ _ _ _ trivial ran
  have performed := RunWhere.perform found (leads.bind next) acts fun config past rest event found _ =>
    allowed config past rest event found
  exact ⟨_, events, front.trans performed⟩

/-- A call goes on to its end while the others wait. -/
theorem rest_runs {rest : Host FileOp.Answer Result} {result : Result} (front : RunWhere ok start labels config)
    (found : config.threads tid = some ⟨call, past, rest⟩)
    (ran : rest.run (FileState.respond tid) config.shared = some (result, shared))
    (allowed : ∀ (config : Config (fileSystem code)) past rest event,
      config.threads tid = some ⟨call, past, rest⟩ → ok config (.act tid event)) :
    ∃ later events, RunWhere ok start (labels ++ later)
      ⟨shared, Function.update config.threads tid (some ⟨call, past ++ events, .done result⟩)⟩ := by
  have split : config.threads tid = some ⟨call, past, rest >>= Program.done⟩ := by
    rw [found, bind_done]
  exact part_runs front split ran allowed

/-- A new call goes through the first part of its program. -/
theorem first_part_runs (front : RunWhere ok start labels config) (free : config.threads tid = none)
    (split : code call = program >>= next)
    (ran : program.run (FileState.respond tid) config.shared = some (value, shared))
    (invokes : ok config (.invoke tid call))
    (allowed : ∀ (config : Config (fileSystem code)) past rest event,
      config.threads tid = some ⟨call, past, rest⟩ → ok config (.act tid event)) :
    ∃ later events, RunWhere ok start (labels ++ later)
      ⟨shared, Function.update config.threads tid (some ⟨call, events, next value⟩)⟩ := by
  have invoked := front.snoc invokes (.invoke free)
  have found : Function.update config.threads tid (some ⟨call, [], (fileSystem code).code call⟩) tid =
      some ⟨call, [], program >>= next⟩ := by
    rw [Function.update_self, ← split]
  obtain ⟨later, events, went⟩ := part_runs invoked found ran allowed
  rw [Function.update_idem, List.append_assoc] at went
  exact ⟨_, events, went⟩

end Parts

/-- Two inserts of one process. The future of the first is dropped while its closure
holds the sidecar lock, so the second takes their mutex and waits at the lock. -/
theorem inserts_overlap :
    ∃ labels, ∃ config : Config (fileSystem (FileCall.code .concrete)), ∃ past past',
      Run (Config.start (FileState.idle ⟨some (Json.toBytes (Json.print [])), fun _ => none⟩ .epoch))
        labels config ∧
      .drift (.dropFuture 0) ∈ labels ∧
      config.shared.disk = ⟨some (Json.toBytes (Json.print [])), fun _ => none⟩ ∧
      config.shared.sidecar = some 0 ∧ config.shared.mutexes 0 = some 1 ∧
      config.threads = Function.update (Function.update (fun _ => none)
        0 (some ⟨⟨⟨true, 0⟩, .insert (.replicate 16 0) ⟨⟨[], []⟩, .epoch, none⟩⟩, past,
          FileCall.onEnter .concrete ⟨⟨true, 0⟩, .insert (.replicate 16 0) ⟨⟨[], []⟩, .epoch, none⟩⟩ none (.ok ())⟩))
        1 (some ⟨⟨⟨true, 0⟩, .insert (.replicate 16 1) ⟨⟨[], []⟩, .epoch, none⟩⟩, past',
          .step (.storage .lockExclusive) (FileCall.onEnter .concrete
            ⟨⟨true, 0⟩, .insert (.replicate 16 1) ⟨⟨[], []⟩, .epoch, none⟩⟩ none)⟩) := by
  let first : FileCall := ⟨⟨true, 0⟩, .insert (.replicate 16 0) ⟨⟨[], []⟩, .epoch, none⟩⟩
  let second : FileCall := ⟨⟨true, 0⟩, .insert (.replicate 16 1) ⟨⟨[], []⟩, .epoch, none⟩⟩
  obtain ⟨_, past, begun⟩ := @first_part_runs _ _ _ (FileCall.code .concrete) (fun _ _ => True) _ _ _ 0 first
    _ _ _ _ (.refl (Config.start (FileState.idle ⟨some (Json.toBytes (Json.print [])), fun _ => none⟩ .epoch)))
    rfl (FileCall.code_eq _ _) (FileCall.before_run rfl) trivial fun _ _ _ _ _ => trivial
  have entered := begun.snoc trivial (@Step.act _ _ (fileSystem (FileCall.code .concrete)) _ 0 first past
    (.storage .lockExclusive) _ (Except.ok ()) _ rfl rfl)
  have dropped := entered.snoc trivial
    (@Step.drift _ _ (fileSystem (FileCall.code .concrete)) _ (.dropFuture 0) _ rfl)
  obtain ⟨_, past', waiting⟩ := @first_part_runs _ _ _ (FileCall.code .concrete) (fun _ _ => True) _ _ _ 1 second
    _ _ _ _ dropped rfl (FileCall.code_eq _ _) (FileCall.before_run rfl) trivial fun _ _ _ _ _ => trivial
  refine ⟨_, _, past ++ [⟨.storage .lockExclusive, Except.ok ()⟩], past', waiting, by simp, rfl, rfl, rfl, ?_⟩
  simp only [Function.update_idem]
  rfl

/-- Of the overlapping inserts the first goes on to its end, and then the second,
which reads what the first has written. -/
theorem operations_serialise_overlapping :
    ∃ earlier labels, ∃ middle config : Config (fileSystem (FileCall.code .concrete)), ∃ thread thread' calls,
      Run (Config.start (FileState.idle ⟨some (Json.toBytes (Json.print [])), fun _ => none⟩ .epoch))
        earlier middle ∧
      .drift (.dropFuture 0) ∈ earlier ∧ middle.shared.sidecar = some 0 ∧ middle.shared.mutexes 0 = some 1 ∧
      Run middle labels config ∧
      config.threads 0 = some thread ∧
      thread.Returned ⟨.insert (.replicate 16 0) ⟨⟨[], []⟩, .epoch, none⟩, .ok ()⟩ ∧
      config.threads 1 = some thread' ∧
      thread'.Returned ⟨.insert (.replicate 16 1) ⟨⟨[], []⟩, .epoch, none⟩, .ok ()⟩ ∧
      OneByOne .concrete ⟨some (Json.toBytes (Json.print [])), fun _ => none⟩ calls config.shared.disk ∧
      calls.map Executed.tid = lockOrder (earlier ++ labels) ∧ 0 ∈ calls.map Executed.tid ∧
      1 ∈ calls.map Executed.tid ∧
      Holds .concrete config.shared.disk (((∅ : Contents).insert (.replicate 16 0) ⟨⟨[], []⟩, .epoch, none⟩).insert
        (.replicate 16 1) ⟨⟨[], []⟩, .epoch, none⟩) := by
  let first : FileCall := ⟨⟨true, 0⟩, .insert (.replicate 16 0) ⟨⟨[], []⟩, .epoch, none⟩⟩
  let second : FileCall := ⟨⟨true, 0⟩, .insert (.replicate 16 1) ⟨⟨[], []⟩, .epoch, none⟩⟩
  have empty : Holds .concrete ⟨some (Json.toBytes (Json.print [])), fun _ => none⟩ ∅ :=
    ⟨_, ∅, rfl, DiskState.fromSlice_concrete_empty, .empty⟩
  obtain ⟨earlier, middle, past, past', front, dropped, files, held, waiting, threads⟩ := inserts_overlap
  obtain ⟨disk, ran, holds⟩ := @FileCall.closure_refines _ first 0 .epoch _ _ Serde.concrete_readsBack rfl empty
  obtain ⟨disk', ran', holds'⟩ := @FileCall.closure_refines _ second 1 .epoch _ _ Serde.concrete_readsBack rfl holds
  obtain ⟨shared, threads'⟩ := middle
  simp only at files held waiting threads
  -- The first does not give back the mutex: it is no longer its own.
  have closes := @FileCall.onEnter_run _ first 0 shared none _ disk (by rw [files]; exact ran)
  rw [if_neg (by simp [first, waiting])] at closes
  obtain ⟨_, events, one⟩ := @rest_runs _ _ (FileCall.code .concrete) (fun _ _ => True) ⟨shared, threads'⟩ _ _ 0 first
    past _ _ _ (.refl _) (by rw [threads]; rfl) closes fun _ _ _ _ _ => trivial
  have enters : (Program.step (HostOp.storage FileOp.lockExclusive)
      (FileCall.onEnter .concrete second none)).run (FileState.respond 1)
        { shared with disk := disk, sidecar := none } = _ :=
    (run_step rfl).trans (@FileCall.onEnter_run _ second 1 { shared with disk := disk, sidecar := some 1 } none _
      disk' ran')
  obtain ⟨_, events', two⟩ := @rest_runs _ _ (FileCall.code .concrete) (fun _ _ => True) _
    ⟨{ shared with disk := disk, sidecar := none }, _⟩ _ 1 second past' _ _ _ one (by rw [threads]; rfl) enters
    fun _ _ _ _ _ => trivial
  obtain ⟨calls, final, oneByOne, _, finished, free, _⟩ := operations_serialise (front.trans two)
  obtain ⟨order, same⟩ := free rfl
  rw [← same] at oneByOne
  exact ⟨earlier, _, _, _, _, _, calls, front, dropped, held, waiting, two, rfl, rfl, rfl, rfl, oneByOne,
    order.symm, finished 0 _ _ rfl rfl, finished 1 _ _ rfl rfl, holds'⟩

end TariVault
