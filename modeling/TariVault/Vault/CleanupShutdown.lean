import Mathlib.Data.Fintype.EquivFin
import TariVault.Vault.CleanupStops
import TariVault.Vault.Progress

namespace TariVault

open Program TariVault.System Daemon

/-! # The cleanup of a shared vault file

A cancelled task comes to its end: the sweep it waits for does not wait for ever.
-/

variable {serde : Serde} {aead : Aead} {store : LocalFileStore} {runtime : Runtime} {state : HostState}
  {forest : runtime.tokens.State → TokenForest runtime.tokens.Token}
  {first middle last : Daemon (fileVaults serde aead).low runtime}
  {labels labels' : List (Daemon.Label (fileVaults serde aead).low runtime)}
  {task : CleanupTask runtime.tokens.Token} {id : Nat}

/-- The cleanup of one `LocalFileStore` of the process. -/
def fileCleaning (serde : Serde) (aead : Aead) (store : LocalFileStore) : Cleaning (fileVaults serde aead).low where
  cleanup := ⟨store, .cleanup⟩
  removed := removedOf
  panics := isPanic
  last := by
    intro tid state op answer state' panics _
    obtain ⟨message, rfl⟩ := isPanic_inv panics
    exact answer.elim

theorem cleaning_over {thread : System.Thread (fileVaults serde aead).low} :
    (fileCleaning serde aead store).Over thread ↔ TariVault.Over thread := by
  refine or_congr_right ⟨fun holds => ?_, fun holds => ?_⟩
  · obtain ⟨op, next, here, panics⟩ := holds
    obtain ⟨message, rfl⟩ := isPanic_inv panics
    exact ⟨message, next, here⟩
  · obtain ⟨message, next, here⟩ := holds
    exact ⟨_, next, here, rfl⟩

/-- A task that cannot go on waits for a sweep that is not over. -/
theorem sweeping_of_waits {Op : Type} {Answer : Op → Type} {sys : System Op Answer} {cleaning : Cleaning sys}
    {daemon : Daemon sys runtime} (free : ∃ tid, daemon.vaults.threads tid = none)
    (waits : ∀ tid, daemon.poll cleaning tid task = none) (goesOn : task.phase ≠ .ended) :
    ∃ sweep, task.phase = .sweeping sweep ∧ ∀ thread, daemon.vaults.threads sweep = some thread →
      ¬ cleaning.Over thread := by
  obtain ⟨tid, free⟩ := free
  have waits := waits tid
  cases phase : task.phase with
  | ended => contradiction
  | sweeping sweep =>
      refine ⟨sweep, rfl, fun thread found done => ?_⟩
      obtain ⟨call, past, rest⟩ := thread
      rcases done with ⟨result, returned⟩ | ⟨op, next, here, panics⟩
      · cases returned
        simp [poll, phase, found] at waits
      · cases here
        simp [poll, phase, found, panics] at waits
  | spawned =>
      simp only [poll, phase] at waits
      split at waits <;> contradiction
  | selecting =>
      simp only [poll, phase] at waits
      split at waits <;> contradiction
  | parked => simp [poll, phase] at waits
  | ticking =>
      simp only [poll, phase, free] at waits
      split at waits <;> contradiction

/-- When no call of the vault can go on, a task that was not killed with its sweep and
cannot go on has ended. -/
theorem ended_of_stuck {tolerance : Nat} (skips : Skips tolerance runtime.next) (atRest : state.AtRest)
    (start : first.vaults = Config.start state) (fresh : ∀ id, first.tasks id = none)
    (run : Daemon.Run (fileCleaning serde aead store) first labels last) (found : last.tasks id = some task)
    (unused : ∃ recordId, recordId ∉ last.vaults.shared.drawn) (stuck : ∀ tid, ¬ Proceeds last.vaults tid)
    (alive : ∀ sweep ∈ task.begun, sweep.tid ∉ last.vaults.shared.stopped)
    (waits : ∀ tid, last.poll (fileCleaning serde aead store) tid task = none) : task.phase = .ended := by
  have kept := tasks_kept skips fresh run id task found
  obtain ⟨vaultLabels, vaultRun⟩ := run.vault_run
  rw [start] at vaultRun
  have locks := kept_of_run atRest vaultRun
  by_contra goesOn
  obtain ⟨_, made, counted⟩ := counted_of_run (fileVaultCall_costs serde aead) vaultRun
  obtain ⟨tid, free⟩ := Infinite.exists_notMem_finset made
  obtain ⟨sweep, phase, unfinished⟩ := sweeping_of_waits ⟨tid, (counted.roster tid).mp free⟩ waits goesOn
  obtain ⟨latest, earlier, begun, same⟩ := kept.latest sweep phase
  have member : latest ∈ task.begun := by simp [begun]
  obtain ⟨thread, present, _⟩ := kept.made latest member
  have living := alive latest member
  rw [same] at present living
  have ongoing : ¬ TariVault.Over thread := fun done => unfinished thread present (cleaning_over.mpr done)
  rcases progress_of_kept locks unused present living ongoing with mine | ⟨holder, _, theirs | ⟨inner, _, last⟩⟩
  · exact stuck sweep mine
  · exact stuck holder theirs
  · exact stuck inner last

/-- A task whose token is cancelled takes three steps more at most. When neither it nor a
call of the vault can go on, it has ended and its sweeps are over. -/
theorem cleanup_shutdown {tolerance : Nat} (skips : Skips tolerance runtime.next)
    (documented : runtime.tokens.Documented forest) (atRest : state.AtRest) (start : first.vaults = Config.start state)
    (fresh : ∀ id, first.tasks id = none) (hosts : ∀ token ∈ first.hosts, (forest first.tokens).There token)
    (before : Daemon.Run (fileCleaning serde aead store) first labels middle) (found : middle.tasks id = some task)
    (cancelled : runtime.tokens.isCancelled middle.tokens task.cancel = true)
    (after : Daemon.Run (fileCleaning serde aead store) middle labels' last) :
    ∃ task', last.tasks id = some task' ∧ labels'.countP (Daemon.Label.isPoll id) ≤ 3 ∧
      ((∃ recordId, recordId ∉ last.vaults.shared.drawn) → (∀ tid, ¬ Proceeds last.vaults tid) →
        (∀ sweep ∈ task'.begun, sweep.tid ∉ last.vaults.shared.stopped) →
        (∀ tid, last.poll (fileCleaning serde aead store) tid task' = none) →
        task'.phase = .ended ∧ ∀ sweep ∈ task'.begun, ∃ thread, last.vaults.threads sweep.tid = some thread ∧
          thread.call = ⟨store, .cleanup⟩ ∧ TariVault.Over thread) := by
  have whole := before.trans after
  obtain ⟨owned, _⟩ := asked_of_run documented fresh hosts before
  obtain ⟨_, _, task', found', stopping⟩ := stopping_of_run documented owned found cancelled after
  have kept := tasks_kept skips fresh whole id task' found'
  refine ⟨task', found', stopping.polls_le, fun unused stuck alive waits => ?_⟩
  have ended := ended_of_stuck skips atRest start fresh whole found' unused stuck alive waits
  refine ⟨ended, fun sweep member => ?_⟩
  obtain ⟨thread, present, called, done⟩ := kept.over_of_ended ended sweep member
  exact ⟨thread, present, called, cleaning_over.mp done⟩

/-- A proof is stored after a cleanup was called and before it sweeps. -/
theorem stored_before_sweep (may : DateTime → DateTime → Prop) :
    ∃ last : Config (vaultSystem .keyed), ∃ storing sweeping,
      Turns may
        ⟨.initial .epoch, Function.update (fun _ => none) 0 (some ⟨.cleanup, [], VaultCall.cleanup.code .keyed⟩)⟩
        last ∧
      last.threads 0 = some ⟨.cleanup, sweeping, .done (.ok (.removed 0))⟩ ∧
      last.threads 1 = some ⟨.storeProof ⟨[7]⟩ none, storing,
        .done (.ok (.claimId (ClaimId.encode ⟨.replicate 16 0, .replicate 32 1⟩)))⟩ ∧
      (∀ tid thread, last.threads tid = some thread → ∃ result, thread.Returned result) ∧
      last.shared.drawn = [.replicate 16 0] := by
  let machine : Machine := ⟨.replicate 32 1, .replicate 12 0, .replicate 16 0, fun _ => none⟩
  let stored : VaultState := { VaultState.initial .epoch with
    records := (∅ : Contents).insert machine.recordId ⟨⟨machine.nonce.bytes, machine.key.bytes ++ [7]⟩, .epoch, none⟩
    drawn := [machine.recordId] }
  obtain ⟨_, stores, answersStore⟩ := @store_answers .keyed machine (.initial .epoch) ⟨[7]⟩ rfl
    (by simp [VaultState.initial]) _ rfl
  obtain ⟨_, cleans, answersSweep, noInsert⟩ := @cleanup_answers .keyed machine stored rfl
  have nothing : (stored.records.due stored.clock).size = 0 := by
    rw [Contents.due, ← Std.ExtTreeMap.length_toList, Std.ExtTreeMap.toList_filter]
    rfl
  rw [nothing] at cleans
  let invoked : Config (vaultSystem .keyed) :=
    ⟨.initial .epoch, Function.update (fun _ => none) 0 (some ⟨.cleanup, [], VaultCall.cleanup.code .keyed⟩)⟩
  have start : Turns may invoked invoked := .refl
  have first := start.call 1 _ rfl rfl stores answersStore (by simp [InsertsPlain]; decide)
  have second := first.turn 0 rfl rfl cleans answersSweep fun event member => insertsPlain_of_ne (noInsert event member)
  refine ⟨_, _, _, second, rfl, rfl, fun tid thread found => ?_, rfl⟩
  rcases find_update found with ⟨_, same⟩ | ⟨notFirst, found⟩
  · exact ⟨_, congrArg Thread.rest same⟩
  rcases find_update found with ⟨_, same⟩ | ⟨_, found⟩
  · exact ⟨_, congrArg Thread.rest same⟩
  · simp [invoked, Function.update_of_ne notFirst] at found

/-- The host application shuts down when a sweep is about to begin. A proof is stored,
the sweep comes to its end, and then the task does. -/
theorem cleanup_shutdown_late :
    ∃ bytes labels labels', ∃ middle last : Daemon (fileVaults .concrete .keyed).low .concrete,
      ∃ task task' : CleanupTask Nat, ∃ storing,
      Daemon.Run (fileCleaning .concrete .keyed ⟨true, 0⟩) (opened _ (.opened bytes .epoch)) labels middle ∧
      middle.tasks 0 = some task ∧ Runtime.concrete.tokens.isCancelled middle.tokens task.cancel = true ∧
      Daemon.Run (fileCleaning .concrete .keyed ⟨true, 0⟩) middle labels' last ∧
      labels'.countP (Daemon.Label.isPoll 0) ≤ 3 ∧
      last.vaults.threads 1 = some storing ∧
      storing.Returned (.ok (.claimId (ClaimId.encode ⟨.replicate 16 0, .replicate 32 1⟩))) ∧
      last.tasks 0 = some task' ∧ task'.begun = [⟨0, 0⟩] ∧ task'.phase = .ended ∧
      ∀ sweep ∈ task'.begun, ∃ thread, last.vaults.threads sweep.tid = some thread ∧
        thread.call = ⟨⟨true, 0⟩, .cleanup⟩ ∧ TariVault.Over thread := by
  let cleaning := fileCleaning .concrete .keyed ⟨true, 0⟩
  let bytes := Json.toBytes (Json.print [])
  have empty : DiskState.fromSlice .concrete bytes = .ok ∅ := DiskState.fromSlice_concrete_empty
  obtain ⟨_, daemon, run, found, vaults, now, tokens, held⟩ := opened_ticking cleaning (.opened bytes .epoch)
  have cancelled : ∃ labels, ∃ middle : Daemon (fileVaults .concrete .keyed).low .concrete,
      Daemon.Run cleaning (opened _ (.opened bytes .epoch)) labels middle ∧ middle.tasks 0 = daemon.tasks 0 ∧
      middle.vaults = daemon.vaults ∧ middle.now = daemon.now ∧
      Runtime.concrete.tokens.isCancelled middle.tokens (1 : Nat) = true :=
    ⟨_, _, .snoc run (@Daemon.Step.cancel _ _ _ _ _ _ (0 : Nat) (by rw [held]; exact List.mem_cons_self)), rfl, rfl,
      rfl, by simp only [tokens]; rfl⟩
  obtain ⟨_, middle, run, same, vaults', now', cancelled⟩ := cancelled
  rw [found] at same
  have due : ¬ middle.now < 0 := Nat.not_lt_zero _
  have free : middle.vaults.threads 0 = none := by
    rw [vaults', vaults]
    rfl
  have again : Daemon.Run cleaning middle [] middle := .refl middle
  obtain ⟨_, sweeping, after, found, vaults'', _, tokens', _⟩ := @Daemon.Run.poll_to _ _ _ _ _ _ _ _ _ 0 0 _ _ _ again
    same (by simp only [poll, due, if_false, free]; rfl)
  -- The sweep is called, and a proof is stored first.
  obtain ⟨high, _, _, turns, swept, stored, returned, drawn⟩ := stored_before_sweep fun _ _ => True
  have start := @file_plays _ .keyed _ .epoch empty
  have called := start.update start.rests 0 .cleanup [] [] (VaultCall.cleanup.code .keyed)
  obtain ⟨_, reached, vaultRun, plays⟩ := turns.played (file_takesTurns Serde.concrete_readsBack) called
  have here : sweeping.vaults = ⟨.opened bytes .epoch, Function.update (fun _ => none) 0 (some ⟨⟨⟨true, 0⟩, .cleanup⟩,
      [], (VaultCall.cleanup.code .keyed).interpret (LocalFileStore.backend .concrete ⟨true, 0⟩).lower⟩)⟩ := by
    rw [vaults'', vaults', vaults, ← VaultCall.program_eq]
    rfl
  have ran : System.RunWhere (Considered .concrete .keyed fun _ _ => True) sweeping.vaults _ reached := here ▸ vaultRun
  obtain ⟨_, after⟩ := after.vaults_run ran
  obtain ⟨_, foundSweep⟩ := plays.present 0 _ swept
  obtain ⟨_, foundStore⟩ := plays.present 1 _ stored
  obtain ⟨_, selecting, after, found, vaults''', _, tokens'', _⟩ :=
    @Daemon.Run.poll_to _ _ _ _ _ _ _ _ _ 0 0 _ _ _ after found (by simp only [poll, foundSweep]; rfl)
  obtain ⟨_, last, after, found, vaults'''', _⟩ :=
    @Daemon.Run.poll_to _ _ _ _ _ _ _ _ _ 0 0 _ _ _ after found
      (if_pos (by rw [tokens'', tokens']; exact cancelled))
  have ended : last.vaults = reached := vaults''''.trans vaults'''
  have stuck : ∀ tid, ¬ Proceeds last.vaults tid := by
    rw [ended]
    refine not_proceeds_of_returned fun tid thread found => ?_
    obtain ⟨result, returned⟩ := plays.returned returned found
    exact ⟨result, returned⟩
  have unused : ∃ recordId, recordId ∉ last.vaults.shared.drawn := by
    rw [ended, ← plays.rests.drawn, drawn]
    exact ⟨.replicate 16 1, by decide⟩
  obtain ⟨task', foundTask, few, ends⟩ := cleanup_shutdown skipMissed_skips Cancellation.concrete_documented
    (atRest_opened bytes .epoch) rfl (fun _ => rfl) opened_hosts run same cancelled after
  rw [found, Option.some.injEq] at foundTask
  subst foundTask
  obtain ⟨finished, sweeps⟩ := ends unused stuck (by simp [ended, plays.rests.running]) fun _ => rfl
  rw [← ended] at foundStore
  refine ⟨bytes, _, _, middle, last, _, _, _, run, same, cancelled, after, few, foundStore, rfl, found, ?_, finished,
    sweeps⟩
  rw [now', now]

end TariVault
