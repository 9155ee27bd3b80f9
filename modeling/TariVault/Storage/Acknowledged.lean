import TariVault.Storage.Opening

namespace TariVault

open Program TariVault.System

/-! # Acknowledged records

A record whose insert has returned stays in the vault file until a delete of its id
or a sweep that finds it expired, as long as no open renames its empty file over
records. Two opens of a path without a vault file can do just that.
-/

variable {serde : Serde} {vault : Option Bytes} {clock : DateTime}
  {labels : List (Label (taskSystem serde))} {config last : Config (taskSystem serde)}
  {label : Label (taskSystem serde)} {ok : Config (taskSystem serde) → Label (taskSystem serde) → Prop}
  {tid : Nat} {recordId : RecordId} {record : StoredRecord}

def DistinctInserts (config : Config (taskSystem serde)) : Prop :=
  ∀ tid tid' thread thread' store store' recordId record record',
    config.threads tid = some thread → config.threads tid' = some thread' →
    thread.call = .operate ⟨store, .insert recordId record⟩ →
    thread'.call = .operate ⟨store', .insert recordId record'⟩ → tid = tid'

/-- A delete of the id, or a sweep at a clock value at which the record has expired. -/
def Removes (recordId : RecordId) (record : StoredRecord) (thread : Thread (taskSystem serde)) : Prop :=
  ∃ call, thread.call = .operate call ∧
    (call.op = .delete recordId ∨ call.op = .deleteExpired ∧ ∃ now expiry,
      thread.Did ⟨.now, now⟩ ∧ record.expiresAt = some expiry ∧ expiry ≤ now)

/-- Call `tid` has put its record into the vault file, where it is, unless a delete of
its id or a sweep that found it expired has rewritten the file since. -/
def Kept (labels : List (Label (taskSystem serde))) (config : Config (taskSystem serde)) (tid : Nat)
    (recordId : RecordId) (record : StoredRecord) : Prop :=
  ∃ earlier later, labels = earlier ++ .act tid renamed :: later ∧
    ((config.shared.disk.records serde)[Uuid.hyphenated recordId]? = some record ∨
      ∃ tid' thread, .act tid' renamed ∈ later ∧ config.threads tid' = some thread ∧
        Removes recordId record thread)

theorem DistinctInserts.of_step (distinct : DistinctInserts last) (step : Step config label last) :
    DistinctInserts config := by
  intro tid tid' thread thread' store store' recordId record record' found found' inserts inserts'
  obtain ⟨later, _, foundLater, sameCall, _⟩ := step.thread_stable found
  obtain ⟨later', _, foundLater', sameCall', _⟩ := step.thread_stable found'
  exact distinct tid tid' later later' store store' recordId record record' foundLater foundLater'
    (sameCall.trans inserts) (sameCall'.trans inserts')

/-- What an operation leaves of a stored record. -/
theorem rewrite_keeps {op : BackendOp} {now : DateTime} {state next : DiskState}
    (rewritten : op.rewrite now state = some next)
    (stored : state[Uuid.hyphenated recordId]? = some record) :
    next[Uuid.hyphenated recordId]? = some record ∨ (∃ record', op = .insert recordId record') ∨
      op = .delete recordId ∨
      op = .deleteExpired ∧ ∃ expiry, record.expiresAt = some expiry ∧ expiry ≤ now := by
  cases op with
  | insert other record' =>
      cases rewritten
      by_cases same : recordId = other
      · exact .inr (.inl ⟨record', same ▸ rfl⟩)
      · left
        rw [Std.ExtTreeMap.getElem?_insert, if_neg]
        · exact stored
        · rw [Std.compare_eq_iff_eq]
          exact fun sameKey => same (Uuid.hyphenated_injective sameKey).symm
  | fetch other => contradiction
  | delete other =>
      by_cases same : recordId = other
      · exact .inr (.inr (.inl (same ▸ rfl)))
      · left
        simp only [BackendOp.rewrite] at rewritten
        split at rewritten
        · cases rewritten
          rw [Std.ExtTreeMap.getElem?_erase, if_neg]
          · exact stored
          · rw [Std.compare_eq_iff_eq]
            exact fun sameKey => same (Uuid.hyphenated_injective sameKey).symm
        · contradiction
  | deleteExpired =>
      simp only [BackendOp.rewrite] at rewritten
      split at rewritten
      · cases rewritten
        rw [Std.ExtTreeMap.getElem?_filter', stored]
        cases retained : record.retainedAt now with
        | true => exact .inl (by simp [retained])
        | false => exact .inr (.inr (.inr ⟨rfl, StoredRecord.retainedAt_eq_false retained⟩))
      · contradiction

/-- A record that is kept stays kept through a step that renames nothing of a
call, and through one of another call. -/
theorem Kept.step (kept : Kept labels config tid recordId record) (readsBack : serde.ReadsBack)
    (run : RunWhere OpensEmpty (taskStart serde vault clock) labels config)
    (allowed : OpensEmpty config label) (step : Step config label last)
    (distinct : DistinctInserts last) {thread : Thread (taskSystem serde)} {store : LocalFileStore}
    (found : config.threads tid = some thread)
    (inserts : thread.call = .operate ⟨store, .insert recordId record⟩) (other : label ≠ .act tid renamed) :
    Kept (labels ++ [label]) last tid recordId record := by
  obtain ⟨earlier, later, rfl, standing⟩ := kept
  refine ⟨earlier, later ++ [label], by simp, ?_⟩
  rcases standing with stored | ⟨tid', thread', acted, found', removes⟩
  · by_cases operates : ∃ tid' thread' call, label = .act tid' renamed ∧
        config.threads tid' = some thread' ∧ thread'.call = .operate call
    · obtain ⟨tid', thread', call, rfl, found', operates⟩ := operates
      have different : tid' ≠ tid := by
        intro equal
        subst equal
        exact other rfl
      obtain ⟨after, _, foundAfter, sameCall, grown, _⟩ := step.thread_stable found'
      cases step with
      | @act _ task past op next answer shared running performed =>
          rw [running, Option.some.injEq] at found'
          subst found'
          simp only at operates
          subst operates
          obtain ⟨now, captures, rewritten⟩ := operate_renames readsBack run running performed
          rcases rewrite_keeps rewritten stored with still | ⟨record', same⟩ | same | ⟨same, expired⟩
          · exact .inl still
          · obtain ⟨store', op⟩ := call
            cases same
            obtain ⟨after', _, foundAfter', sameCall', _⟩ :=
              Step.thread_stable (Step.act running performed) found
            exact absurd (distinct tid' tid after after' store' store recordId record' record foundAfter
              foundAfter' sameCall (sameCall'.trans inserts)) different
          · refine .inr ⟨tid', after, by simp, foundAfter, call, sameCall, .inl same⟩
          · obtain ⟨expiry, expires, passed⟩ := expired
            refine .inr ⟨tid', after, by simp, foundAfter, call, sameCall,
              .inr ⟨same, now, expiry, ?_, expires, passed⟩⟩
            rw [Thread.Did, grown]
            exact List.mem_append_left _ (captures same)
    · rw [records_unchanged readsBack run allowed step fun tid' thread' call same found' operates' =>
        operates ⟨tid', thread', call, same, found', operates'⟩]
      exact .inl stored
  · obtain ⟨after, _, foundAfter, sameCall, grown, _⟩ := step.thread_stable found'
    obtain ⟨call, operates, removal⟩ := removes
    refine .inr ⟨tid', after, by simp [acted], foundAfter, call, sameCall.trans operates, ?_⟩
    rcases removal with same | ⟨same, now, expiry, did, expires⟩
    · exact .inl same
    · refine .inr ⟨same, now, expiry, ?_, expires⟩
      rw [Thread.Did, grown]
      exact List.mem_append_left _ did

/-- The rename of an insert puts its record into the vault file. -/
theorem kept_of_rename (readsBack : serde.ReadsBack)
    (run : RunWhere OpensEmpty (taskStart serde vault clock) labels config)
    (step : Step config (.act tid renamed) last) {thread : Thread (taskSystem serde)}
    {store : LocalFileStore} (found : config.threads tid = some thread)
    (inserts : thread.call = .operate ⟨store, .insert recordId record⟩) :
    Kept (labels ++ [.act tid renamed]) last tid recordId record := by
  refine ⟨labels, [], rfl, .inl ?_⟩
  cases step with
  | @act _ task past op next answer shared running performed =>
      rw [running, Option.some.injEq] at found
      subst found
      simp only at inserts
      subst inserts
      obtain ⟨now, _, rewritten⟩ := operate_renames readsBack run running performed
      rw [← Option.some.inj rewritten, Std.ExtTreeMap.getElem?_insert_self]

theorem kept_of_did (readsBack : serde.ReadsBack)
    (run : RunWhere OpensEmpty (taskStart serde vault clock) labels config)
    (distinct : DistinctInserts config) {thread : Thread (taskSystem serde)} {store : LocalFileStore}
    (found : config.threads tid = some thread)
    (inserts : thread.call = .operate ⟨store, .insert recordId record⟩) (did : thread.Did renamed) :
    Kept labels config tid recordId record := by
  induction run generalizing thread with
  | refl => cases found
  | @snoc labels config label last run allowed step ih =>
      obtain ⟨before, foundBefore, sameCall, old | ⟨rfl, _⟩⟩ := step.did found did
      · have kept := ih (distinct.of_step step) foundBefore (sameCall.trans inserts) old
        by_cases again : label = .act tid renamed
        · subst again
          exact kept_of_rename readsBack run step foundBefore (sameCall.trans inserts)
        · exact kept.step readsBack run allowed step distinct foundBefore (sameCall.trans inserts) again
      · exact kept_of_rename readsBack run step foundBefore (sameCall.trans inserts)

theorem renamed_of_returned (run : RunWhere ok (taskStart serde vault clock) labels config)
    {thread : Thread (taskSystem serde)} (found : config.threads tid = some thread)
    (returned : thread.Returned (.answered ⟨.insert recordId record, .ok ()⟩)) :
    (∃ store, thread.call = .operate ⟨store, .insert recordId record⟩) ∧ thread.Did renamed := by
  have answered := past_answered run found
  have leads := (run.history found).1
  rw [returned] at leads
  obtain ⟨task, past, rest⟩ := thread
  simp only [Thread.Did] at answered leads ⊢
  cases task with
  | new hasParent =>
      obtain ⟨middle, _, same⟩ := leads.map_inv
      obtain ⟨result, _, impossible⟩ := map_eq_done same.symm
      contradiction
  | operate call =>
      obtain ⟨middle, inside, same⟩ := leads.map_inv
      obtain ⟨result, rfl, isAnswer⟩ := map_eq_done same.symm
      cases isAnswer
      obtain ⟨store, op⟩ := call
      cases call_stage inside fun event member => (answered event member).tolerated with
      | before _ _ skipped =>
          obtain ⟨sameOp, ⟨error, failed⟩ | ⟨now, _, _, _, _, _, unwritten⟩⟩ := skipped _ rfl
          · contradiction
          · cases sameOp
            contradiction
      | after _ _ _ _ landed =>
          cases (landed _ rfl).1
          exact ⟨⟨store, rfl⟩, by simp⟩

/-- In every run in which opens rename their empty file into place only while nothing
is stored, a record whose insert returned `Ok` is kept. -/
theorem acknowledged_insert_kept (readsBack : serde.ReadsBack)
    (run : RunWhere OpensEmpty (taskStart serde vault clock) labels config)
    (distinct : DistinctInserts config) {thread : Thread (taskSystem serde)}
    (found : config.threads tid = some thread)
    (returned : thread.Returned (.answered ⟨.insert recordId record, .ok ()⟩)) :
    Kept labels config tid recordId record := by
  obtain ⟨⟨store, inserts⟩, did⟩ := renamed_of_returned run found returned
  exact kept_of_did readsBack run distinct found inserts did

section Alone

variable {first : Config (taskSystem serde)} {shared : FileState} {result : TaskResult}

/-- A task runs from its invocation to its end while the others wait. -/
theorem task_runs (front : RunWhere ok first labels config) {task : FileTask}
    (free : config.threads tid = none)
    (ran : (task.code serde).run (FileState.respond tid) config.shared = some (result, shared))
    (invokes : ok config (.invoke tid task))
    (allowed : ∀ (config : Config (taskSystem serde)) past rest event,
      config.threads tid = some ⟨task, past, rest⟩ → ok config (.act tid event)) :
    ∃ labels thread, RunWhere ok first labels
        ⟨shared, Function.update config.threads tid (some thread)⟩ ∧
      thread.call = task ∧ thread.Returned result := by
  obtain ⟨_, _, run⟩ := first_part_runs front free (bind_done _).symm ran invokes allowed
  exact ⟨_, _, run, rfl, rfl⟩

/-- A task goes on to its end while the others wait. -/
theorem task_resumes (front : RunWhere ok first labels config) {task : FileTask}
    {past : List FileEvent} {rest : Host FileOp.Answer TaskResult}
    (found : config.threads tid = some ⟨task, past, rest⟩)
    (ran : rest.run (FileState.respond tid) config.shared = some (result, shared))
    (allowed : ∀ (config : Config (taskSystem serde)) past rest event,
      config.threads tid = some ⟨task, past, rest⟩ → ok config (.act tid event)) :
    ∃ later thread, RunWhere ok first (labels ++ later)
        ⟨shared, Function.update config.threads tid (some thread)⟩ ∧
      thread.call = task ∧ thread.Returned result := by
  obtain ⟨_, _, run⟩ := rest_runs front found ran allowed
  exact ⟨_, _, run, rfl, rfl⟩

end Alone

theorem opensEmpty_of_operate {call : FileCall} {past : List FileEvent}
    {rest : Host FileOp.Answer TaskResult} (found : config.threads tid = some ⟨.operate call, past, rest⟩)
    (event : FileEvent) : OpensEmpty config (.act tid event) := by
  intro _ thread hasParent found' opens
  rw [found, Option.some.injEq] at found'
  subst found'
  contradiction

/-- Creating the empty file, up to its rename and after it. -/
theorem create_leads : ∃ next,
    Leads (TaskResult.opened <$> (writeAtomic .concrete true ∅).run)
      (createdTemp :: filling (Json.toBytes (Json.print []))) (.step (.storage .persist) next) ∧
    Leads (next (.ok ())) [⟨.storage .setPermissions, .ok ()⟩] (.done (.opened (.ok ()))) :=
  ⟨_, .step (.step (.step (.refl _))), .step (.refl _)⟩

/-- An open that has found no file renames its empty one into place while nothing is
stored. -/
theorem create_runs (tid : Nat) {first config : Config (taskSystem .concrete)}
    {labels : List (Label (taskSystem .concrete))} {past : List FileEvent}
    (front : RunWhere OpensEmpty first labels config)
    (found : config.threads tid =
      some ⟨.new true, past, TaskResult.opened <$> (writeAtomic .concrete true ∅).run⟩)
    (nothing : config.shared.disk.records .concrete = ∅) :
    ∃ later thread, RunWhere OpensEmpty first (labels ++ later)
        ⟨{ config.shared with disk := { config.shared.disk.setTemp tid none with
            vault := some (Json.toBytes (Json.print [])) } },
          Function.update config.threads tid (some thread)⟩ ∧
      thread.call = .new true ∧ thread.Returned (.opened (.ok ())) ∧ .act tid renamed ∈ later := by
  let text : Bytes := Json.toBytes (Json.print [])
  let full : FileState := { config.shared with disk := config.shared.disk.setTemp tid (some text) }
  have wrote : ({ config.shared with disk := config.shared.disk.setTemp tid (some []) } : FileState).respond tid
      (.storage (.writeAll text)) = some (.ok (), full) := by
    simp [FileState.respond, Disk.apply, Disk.setTemp, full]
  have fills : @Acts _ _ (taskSystem .concrete) tid config.shared (createdTemp :: filling text) full :=
    .cons rfl (.cons wrote (.cons rfl .nil))
  have persisted : full.respond tid (.storage .persist) = some (.ok (), { config.shared with
      disk := { config.shared.disk.setTemp tid none with vault := some text } }) := by
    simp [FileState.respond, Disk.apply, Disk.setTemp, full]
  obtain ⟨next, opens, closes⟩ := create_leads
  have filled := front.trans (RunWhere.perform found opens fills fun config past rest event _ member => by
    have keeps : event.op ≠ .storage .persist := by
      simp only [filling, List.mem_cons, List.not_mem_nil, or_false] at member
      rcases member with rfl | rfl | rfl <;> simp
    exact fun persists => absurd persists keeps)
  have empty {threads} : @OpensEmpty .concrete ⟨full, threads⟩ (.act tid renamed) := fun _ _ _ _ _ => nothing
  have moved := filled.snoc empty
    (@Step.act _ _ (taskSystem .concrete) _ tid _ _ (.storage .persist) next (Except.ok ()) _
      (Function.update_self ..) persisted)
  have ended := moved.trans (RunWhere.perform (Function.update_self ..) closes (.cons rfl .nil)
    fun config past rest event _ member => by
      cases List.mem_singleton.mp member
      intro persists
      cases persists)
  rw [Function.update_idem, Function.update_idem, List.append_assoc, List.append_assoc] at ended
  exact ⟨_, _, ended, rfl, rfl, by simp [renamed]⟩

/-- Where all calls but one are opens, no two insert the same id. -/
theorem distinctInserts_of_opens {only : Nat}
    (opens : ∀ tid thread, config.threads tid = some thread → thread.call = .new true ∨ tid = only) :
    DistinctInserts config := by
  have inserter {tid thread store recordId record} (found : config.threads tid = some thread)
      (inserts : thread.call = .operate ⟨store, .insert recordId record⟩) : tid = only := by
    rcases opens tid thread found with opened | same
    · rw [opened] at inserts
      contradiction
    · exact same
  intro tid tid' _ _ _ _ _ _ _ found found' inserts inserts'
  rw [inserter found inserts, inserter found' inserts']

theorem operate_before_run {call : FileCall} {tid : Nat} {state : FileState}
    (free : state.mutexes call.store.processLock = none) :
    (FileTask.before serde (.operate call)).run (FileState.respond tid) state =
      some (.ok (call, FileCall.captureAt state.clock call.op),
        { state with mutexes := Function.update state.mutexes call.store.processLock (some tid) }) := by
  rw [FileTask.before, run_map, FileCall.before_run free]
  rfl

/-- Two opens find no vault file. One creates it, and an insert takes the sidecar lock;
then the other open renames its own empty file into place. -/
theorem open_beside_insert :
    ∃ labels, ∃ config : Config (taskSystem .concrete), ∃ opening opener past,
      RunWhere OpensEmpty (taskStart .concrete none .epoch) labels config ∧
      config.shared.sidecar = some 2 ∧ config.shared.disk.records .concrete = ∅ ∧
      config.threads = Function.update (Function.update (Function.update (fun _ => none)
        0 (some ⟨.new true, opening, TaskResult.opened <$> (writeAtomic .concrete true ∅).run⟩))
        1 (some opener))
        2 (some ⟨.operate ⟨⟨true, 0⟩, .insert (.replicate 16 0) ⟨⟨[], []⟩, .epoch, none⟩⟩, past,
          TaskResult.answered <$> FileCall.onEnter .concrete
            ⟨⟨true, 0⟩, .insert (.replicate 16 0) ⟨⟨[], []⟩, .epoch, none⟩⟩ none (.ok ())⟩) ∧
      opener.call = .new true := by
  let call : FileCall := ⟨⟨true, 0⟩, .insert (.replicate 16 0) ⟨⟨[], []⟩, .epoch, none⟩⟩
  let nothing : FileState := .idle ⟨none, fun _ => none⟩ .epoch
  have looks (tid : Nat) : Leads ((FileTask.new true).code .concrete)
      [⟨.storage .createDirAll, .ok ()⟩, ⟨.storage .pathExists, false⟩]
      (TaskResult.opened <$> (writeAtomic .concrete true ∅).run) ∧
      @Acts _ _ (taskSystem .concrete) tid nothing
        [⟨.storage .createDirAll, .ok ()⟩, ⟨.storage .pathExists, false⟩] nothing :=
    ⟨.step (.step (.refl _)), .cons rfl (.cons rfl .nil)⟩
  have calm {config : Config (taskSystem .concrete)} {tid : Nat} {event : FileEvent}
      (member : event ∈ ([⟨.storage .createDirAll, .ok ()⟩, ⟨.storage .pathExists, false⟩] : List FileEvent)) :
      OpensEmpty config (.act tid event) := by
    simp only [List.mem_cons, List.not_mem_nil, or_false] at member
    rcases member with rfl | rfl <;> exact fun persists => nomatch persists
  have looked := @RunWhere.alone _ _ (taskSystem .concrete) OpensEmpty (taskStart .concrete none .epoch) 0
    (.new true) _ _ nothing rfl (looks 0).1 (looks 0).2 trivial fun _ _ _ _ _ member => calm member
  have looked' := looked.trans (@RunWhere.alone _ _ (taskSystem .concrete) OpensEmpty ⟨nothing, _⟩ 1
    (.new true) _ _ nothing rfl (looks 1).1 (looks 1).2 trivial fun _ _ _ _ _ member => calm member)
  obtain ⟨_, opener, created, openerCall, _⟩ := create_runs 1 looked' rfl rfl
  obtain ⟨_, past, waits⟩ := @first_part_runs _ _ _ (FileTask.code .concrete) OpensEmpty _ _ _ 2
    (.operate call) _ _ _ _ created rfl (FileTask.code_eq _ _) (operate_before_run rfl) trivial
    fun config past rest event found => opensEmpty_of_operate found event
  have entered := waits.snoc (opensEmpty_of_operate rfl _)
    (@Step.act _ _ (taskSystem .concrete) _ 2 (.operate call) past (.storage .lockExclusive) _ (Except.ok ()) _
      rfl rfl)
  refine ⟨_, _, [⟨.storage .createDirAll, .ok ()⟩, ⟨.storage .pathExists, false⟩], opener,
    past ++ [(⟨.storage .lockExclusive, Except.ok ()⟩ : FileEvent)], entered, rfl,
    records_of_vault rfl DiskState.fromSlice_concrete_empty, ?_, openerCall⟩
  simp only [Function.update_idem]
  rfl

/-- The late open renames its empty file beside the insert, which then goes on, and
its record is kept. -/
theorem acknowledged_insert_kept_beside_open :
    ∃ earlier later, ∃ middle config : Config (taskSystem .concrete), ∃ waiting opener thread,
      RunWhere OpensEmpty (taskStart .concrete none .epoch) earlier middle ∧
      middle.threads 2 = some waiting ∧ middle.shared.sidecar = some 2 ∧
      RunWhere OpensEmpty (taskStart .concrete none .epoch) (earlier ++ later) config ∧
      config.threads 0 = some opener ∧ opener.call = .new true ∧ opener.Returned (.opened (.ok ())) ∧
      .act 0 renamed ∈ later ∧ config.threads 2 = some thread ∧
      thread.Returned (.answered ⟨.insert (.replicate 16 0) ⟨⟨[], []⟩, .epoch, none⟩, .ok ()⟩) ∧
      Kept (earlier ++ later) config 2 (.replicate 16 0) ⟨⟨[], []⟩, .epoch, none⟩ := by
  let call : FileCall := ⟨⟨true, 0⟩, .insert (.replicate 16 0) ⟨⟨[], []⟩, .epoch, none⟩⟩
  obtain ⟨earlier, middle, opening, other, past, front, held, nothing, threads, otherCall⟩ := open_beside_insert
  obtain ⟨later, opener, created, openerCall, opened, renames⟩ := create_runs 0 front (by rw [threads]; rfl) nothing
  have empty : Holds .concrete { middle.shared.disk.setTemp 0 none with
      vault := some (Json.toBytes (Json.print [])) } ∅ :=
    ⟨_, ∅, rfl, DiskState.fromSlice_concrete_empty, .empty⟩
  obtain ⟨disk, ran, _⟩ := @FileCall.closure_refines _ call 2 .epoch _ _ Serde.concrete_readsBack rfl empty
  obtain ⟨_, events, inserted⟩ := @rest_runs _ _ (FileTask.code .concrete) OpensEmpty _ _ _ 2
    (.operate call) past _ _ _ created (by rw [threads]; rfl)
    ((run_map ..).trans (congrArg _ (FileCall.onEnter_run _ ran)))
    fun config past rest event found => opensEmpty_of_operate found event
  let thread : Thread (taskSystem .concrete) :=
    ⟨.operate call, past ++ events, .done (.answered ⟨call.op, .ok ()⟩)⟩
  have returned : thread.Returned (.answered ⟨.insert (.replicate 16 0) ⟨⟨[], []⟩, .epoch, none⟩, .ok ()⟩) := rfl
  have opens (tid : Nat) (other : Thread (taskSystem .concrete))
      (found : Function.update (Function.update middle.threads 0 (some opener)) 2 (some thread) tid = some other) :
      other.call = .new true ∨ tid = 2 := by
    rw [threads] at found
    simp only [Function.update_apply] at found
    grind
  rw [List.append_assoc] at inserted
  have kept := acknowledged_insert_kept Serde.concrete_readsBack inserted (distinctInserts_of_opens opens)
    (Function.update_self ..) returned
  exact ⟨earlier, _, middle, _, _, opener, thread, front, by rw [threads]; rfl, held, inserted, rfl, openerCall,
    opened, List.mem_append_left _ renames, rfl, returned, kept⟩

/-- Two processes open a path without a vault file. One looks, finds nothing, and
waits; the other creates the file and has an insert acknowledged; then the first
renames its empty file over it. -/
theorem acknowledged_insert_lost :
    ∃ labels, ∃ config : Config (taskSystem .concrete), ∃ thread,
      Run (taskStart .concrete none .epoch) labels config ∧ DistinctInserts config ∧
      config.threads 2 = some thread ∧
      thread.Returned (.answered ⟨.insert (.replicate 16 0) ⟨⟨[], []⟩, .epoch, none⟩, .ok ()⟩) ∧
      ¬ Kept labels config 2 (.replicate 16 0) ⟨⟨[], []⟩, .epoch, none⟩ := by
  let record : StoredRecord := ⟨⟨[], []⟩, .epoch, none⟩
  let nothing : FileState := .idle ⟨none, fun _ => none⟩ .epoch
  -- The first open stops after its existence check.
  have looked := @RunWhere.alone _ _ (taskSystem .concrete) (fun _ _ => True)
    (taskStart .concrete none .epoch) 0 (.new true)
    [⟨.storage .createDirAll, .ok ()⟩, ⟨.storage .pathExists, false⟩]
    (TaskResult.opened <$> (writeAtomic .concrete true ∅).run) nothing rfl
    (.step (.step (.refl _))) (.cons rfl (.cons rfl .nil)) trivial fun _ _ _ _ _ _ => trivial
  -- The second open creates the file.
  obtain ⟨created, ranOpen, present⟩ := @open_task_run .concrete _ rfl 1 ⟨none, fun _ => none⟩ rfl .epoch
  obtain ⟨_, opener, opened, openerCall, _⟩ := task_runs looked rfl ranOpen trivial
    fun _ _ _ _ _ => trivial
  -- An insert is acknowledged.
  have empty : Holds .concrete created ∅ :=
    ⟨_, ∅, present, DiskState.fromSlice_concrete_empty, .empty⟩
  obtain ⟨inserted, ranInsert, _⟩ := insert_task_run Serde.concrete_readsBack empty 2 0 .epoch
    (.replicate 16 0) record
  obtain ⟨_, thread, acknowledged, threadCall, returned⟩ := task_runs opened rfl ranInsert trivial
    fun _ _ _ _ _ => trivial
  -- The first open goes on.
  obtain ⟨final, ranFinal, replaced, _⟩ := @create_run .concrete _ rfl 0 (.idle inserted .epoch)
  obtain ⟨_, late, run, lateCall, _⟩ := task_resumes acknowledged rfl ranFinal fun _ _ _ _ _ => trivial
  have calls (tid : Nat) (other waiting : Thread (taskSystem .concrete))
      (found : Function.update (Function.update (Function.update (Function.update (fun _ => none) 0
        (some waiting)) 1 (some opener)) 2 (some thread)) 0 (some late) tid = some other) :
      other.call = .new true ∨
        tid = 2 ∧ other.call = .operate ⟨⟨true, 0⟩, .insert (.replicate 16 0) record⟩ := by
    simp only [Function.update_apply] at found
    split at found
    · cases found
      exact .inl lateCall
    · split at found
      · rename_i isInsert
        cases found
        exact .inr ⟨isInsert, threadCall⟩
      · split at found
        · cases found
          exact .inl openerCall
        · simp at found
  refine ⟨_, _, thread, run, ?_, rfl, returned, ?_⟩
  · exact distinctInserts_of_opens fun tid other found => (calls tid other _ found).imp_right And.left
  · intro holds
    obtain ⟨earlier, later, _, stored | ⟨tid, other, _, found, call, operates, removal⟩⟩ := holds
    · simp only [records_of_vault replaced DiskState.fromSlice_concrete_empty] at stored
      simp at stored
    · rcases calls tid other _ found with opens | ⟨_, inserts⟩
      · rw [opens] at operates
        contradiction
      · rw [inserts] at operates
        cases operates
        rcases removal with same | ⟨same, _⟩ <;> contradiction

end TariVault
