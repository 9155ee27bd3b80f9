import TariVault.Vault.Turns
import TariVault.Vault.OverFiles

namespace TariVault

open Program TariVault.System

/-! # A vault call by itself over the vault file

Nothing fails and nobody interferes. The call answers as it does over single
operations, so it always comes to an end.
-/

variable {serde : Serde} {aead : Aead} {machine : Machine} {tid : Nat} {state state' : HostState}
  {vault : VaultState} {store : LocalFileStore}

def HostState.respond (machine : Machine) (tid : Nat) (state : HostState) :
    (op : HostOp FileOp) → Option (HostOp.Answer FileOp.Answer op × HostState)
  | .generateKey => some (machine.key, state)
  | .generateNonce => some (machine.nonce, state)
  | .newV4 =>
      if state.drawn.contains machine.recordId then none
      else some (machine.recordId, { state with drawn := machine.recordId :: state.drawn })
  | op => (state.files.respond tid op).map fun result => (result.1, { state with files := result.2 })

theorem HostState.respond_of_files {op : HostOp FileOp} {answer : HostOp.Answer FileOp.Answer op}
    {files : FileState} (performed : state.files.respond tid op = some (answer, files)) :
    state.respond machine tid op = some (answer, { state with files }) := by
  cases op with
  | generateKey => contradiction
  | generateNonce => contradiction
  | newV4 => contradiction
  | _ =>
      rw [respond, performed]
      · rfl
      all_goals simp

/-- A program that the file system answers alone is answered the same. -/
theorem exec_files {α : Type} {program : Host FileOp.Answer α} {files : FileState} {value : α}
    (ran : program.run (FileState.respond tid) state.files = some (value, files)) :
    program.exec (HostState.respond machine tid) state = (some value, { state with files }) := by
  induction program generalizing state with
  | done other =>
      cases ran
      rfl
  | step op next ih =>
      simp only [run] at ran
      cases answered : state.files.respond tid op with
      | none =>
          rw [answered] at ran
          contradiction
      | some result =>
          rw [answered] at ran
          rw [exec_step (HostState.respond_of_files answered)]
          exact ih result.1 ran

/-- Nothing is in flight, and nothing was killed. -/
structure Resting (serde : Serde) (state : HostState) (vault : VaultState) : Prop extends
    Agrees serde state vault where
  idle : state.files = .idle state.files.disk state.files.clock
  running : state.stopped = []

theorem Resting.tick (resting : Resting serde state vault) (now : DateTime) :
    Resting serde (state.drift (.tick now)) { vault with clock := now, readings := now :: vault.readings } where
  holds := resting.holds
  clock := rfl
  readings := congrArg _ resting.readings
  drawn := resting.drawn
  shown := List.mem_cons_self
  idle := by
    rw [HostState.drift, FileState.drift, resting.idle]
    rfl
  running := resting.running

theorem lower_alone (readsBack : serde.ReadsBack) (hasParent : store.hasParent = true)
    (healthy : machine.fault = fun _ => none) (op : HostOp BackendOp) (state : HostState) (vault : VaultState)
    (resting : Resting serde state vault) :
    SameOutcome (Resting serde) (((store.backend serde).lower op).exec (HostState.respond machine tid) state)
      ((perform op).exec (VaultState.respond machine) vault) := by
  obtain ⟨agrees, idle, running⟩ := resting
  cases op with
  | now => exact ⟨congrArg some agrees.clock.symm, agrees, idle, running⟩
  | log line => exact ⟨rfl, agrees, idle, running⟩
  | panic message => exact ⟨rfl, agrees, idle, running⟩
  | generateKey => exact ⟨rfl, agrees, idle, running⟩
  | generateNonce => exact ⟨rfl, agrees, idle, running⟩
  | newV4 =>
      change SameOutcome (Resting serde) (exec (HostState.respond machine tid) (perform .newV4) state) _
      simp only [perform, exec, HostState.respond, VaultState.respond, agrees.drawn, List.contains_iff_mem]
      by_cases drawn : machine.recordId ∈ state.drawn
      · simp only [drawn, if_true]
        exact ⟨rfl, agrees, idle, running⟩
      · simp only [drawn, if_false]
        exact ⟨rfl, ⟨agrees.holds, agrees.clock, agrees.readings, rfl, agrees.shown⟩, idle, running⟩
  | storage op =>
      obtain ⟨disk', ran, left⟩ := @FileCall.code_refines serde ⟨store, op⟩ tid state.files.clock _ _ readsBack
        hasParent agrees.holds
      rw [← idle, FileCall.code, run_map] at ran
      obtain ⟨⟨answer, files⟩, performed, same⟩ := Option.map_eq_some_iff.mp ran
      cases same
      have whole := @exec_files machine tid state _ _ _ _ performed
      rw [StorageBackend.lower, whole]
      simp only [perform, exec, VaultState.respond, healthy, agrees.clock]
      exact ⟨rfl, ⟨left, rfl, agrees.readings, agrees.drawn, agrees.shown⟩, rfl, running⟩

section Runs

variable {may : DateTime → DateTime → Prop}

theorem HostState.respond_act {op : HostOp FileOp} {answer : HostOp.Answer FileOp.Answer op}
    (alive : tid ∉ state.stopped) (responded : state.respond machine tid op = some (answer, state')) :
    HostAct tid state ⟨op, answer⟩ state' ∧ state'.stopped = state.stopped ∧
      ∀ message, (⟨op, answer⟩ : Event (HostOp.Answer FileOp.Answer)) ≠
        ⟨.storage .setPermissions, .error message⟩ := by
  cases op with
  | generateKey =>
      cases responded
      exact ⟨.generateKey _ alive, rfl, by simp⟩
  | generateNonce =>
      cases responded
      exact ⟨.generateNonce _ alive, rfl, by simp⟩
  | newV4 =>
      simp only [respond] at responded
      split at responded
      · contradiction
      · rename_i drawn
        have fresh : machine.recordId ∉ state.drawn := fun member => drawn (List.contains_iff_mem.mpr member)
        cases responded
        exact ⟨.newV4 alive fresh, rfl, by simp⟩
  | panic message => exact answer.elim
  | now =>
      cases responded
      exact ⟨.respond alive rfl, rfl, by simp⟩
  | log line =>
      cases responded
      exact ⟨.respond alive rfl, rfl, by simp⟩
  | storage op =>
      simp only [respond] at responded
      obtain ⟨⟨other, files⟩, performed, same⟩ := Option.map_eq_some_iff.mp responded
      cases same
      refine ⟨.respond alive performed, rfl, fun message same => ?_⟩
      cases same
      simp [FileState.respond, Disk.apply] at performed

/-- The answers of a turn in which nothing fails are those of a run. -/
theorem HostState.acts_of_answers {events : List (Event (HostOp.Answer FileOp.Answer))}
    (alive : tid ∉ state.stopped) (answers : Answers (HostState.respond machine tid) state events state') :
    @Acts _ _ (fileVaults serde aead).low tid state events state' ∧
      ∀ event ∈ events, ∀ message, event ≠ ⟨.storage .setPermissions, .error message⟩ := by
  induction answers with
  | nil => exact ⟨.nil, by simp⟩
  | cons answered _ ih =>
      obtain ⟨act, same, permitted⟩ := HostState.respond_act alive answered
      obtain ⟨later, permittedLater⟩ := ih (by rw [same]; exact alive)
      exact ⟨.cons act later, List.forall_mem_cons.mpr ⟨permitted, permittedLater⟩⟩

/-- Every call is made by a process of its own. -/
abbrev fileHome (tid : Nat) (call : VaultCall) : FileVaultCall := ⟨⟨true, tid⟩, call⟩

/-- A turn of a call over the vault file, in which nothing fails. -/
theorem file_turn {config : Config (fileVaults serde aead).low} {call : FileVaultCall}
    {past : List (Event (HostOp.Answer FileOp.Answer))} {rest final : VaultProgram (Except VaultError Reply)}
    {events : List VaultEvent} {vault' : VaultState} (readsBack : serde.ReadsBack)
    (hasParent : call.store.hasParent = true) (resting : Resting serde config.shared vault)
    (healthy : machine.fault = fun _ => none)
    (found : config.threads tid = some ⟨call, past, rest.interpret (call.store.backend serde).lower⟩)
    (leads : Leads rest events final) (answers : Answers (VaultState.respond machine) vault events vault') :
    ∃ labels shared events', RunWhere (Considered serde aead may) config labels
        ⟨shared, Function.update config.threads tid
          (some ⟨call, past ++ events', final.interpret (call.store.backend serde).lower⟩)⟩ ∧
      Resting serde shared vault' := by
  have faithful (op : HostOp BackendOp) (answer : HostOp.Answer BackendOp.Answer op) (state : HostState)
      (vault next : VaultState) (resting : Resting serde state vault)
      (responded : vault.respond machine op = some (answer, next)) (_ : True) :
      ∃ after, ((call.store.backend serde).lower op).exec (HostState.respond machine tid) state = (some answer, after) ∧
        Resting serde after next := by
    obtain ⟨answered, rests⟩ := @lower_alone _ _ tid _ readsBack hasParent healthy op state vault resting
    rw [perform, exec_step responded] at answered rests
    exact ⟨_, Prod.ext answered rfl, rests⟩
  obtain ⟨events', shared, leads', answers', rests⟩ :=
    interpret_answers faithful leads answers (fun _ _ => trivial) resting
  obtain ⟨acts, permitted⟩ := @HostState.acts_of_answers serde aead _ _ _ _ _ (by simp [resting.running]) answers'
  refine ⟨_, shared, events', RunWhere.perform found leads' acts fun config _ _ event _ member => ?_, rests⟩
  refine ⟨fun other message same => ?_, by simp⟩
  injection same with _ same
  exact permitted event member message same

/-- A call alone, in a run over the vault file, answers as over single operations. -/
theorem file_call_rests {first config : Config (fileVaults serde aead).low}
    {labels : List (Label (fileVaults serde aead).low)}
    (front : RunWhere (Considered serde aead may) first labels config) (readsBack : serde.ReadsBack)
    (resting : Resting serde config.shared vault) (machine : Machine)
    (healthy : machine.fault = fun _ => none) (tid mutex : Nat)
    (call : VaultCall) (free : config.threads tid = none) {result : Except VaultError Reply}
    {events : List VaultEvent} {vault' : VaultState} (leads : Leads (call.code aead) events (.done result))
    (answers : Answers (VaultState.respond machine) vault events vault') :
    ∃ labels' shared events, RunWhere (Considered serde aead may) first labels'
        ⟨shared, Function.update config.threads tid (some ⟨⟨⟨true, mutex⟩, call⟩, events, .done result⟩)⟩ ∧
      Resting serde shared vault' := by
  let made : FileVaultCall := ⟨⟨true, mutex⟩, call⟩
  let invoked : Config (fileVaults serde aead).low := ⟨config.shared, Function.update config.threads tid
    (some ⟨made, [], (fileVaults serde aead).low.code made⟩)⟩
  have begun := front.snoc (⟨by simp, by simp⟩ : Considered serde aead may config (.invoke tid made)) (.invoke free)
  have found : invoked.threads tid =
      some ⟨made, [], (call.code aead).interpret (made.store.backend serde).lower⟩ := by
    rw [← call.program_eq]
    exact Function.update_self ..
  obtain ⟨labels', shared, events', goesOn, rests⟩ := @file_turn _ _ _ _ _ may invoked _ _ _ _ _ _
    readsBack rfl resting healthy found leads answers
  rw [Function.update_idem] at goesOn
  exact ⟨_, shared, _, begun.trans goesOn, rests⟩

/-- Calls take their turns over the vault file, too. -/
theorem file_takesTurns (readsBack : serde.ReadsBack) :
    @TakesTurns aead _ _ (fileVaults serde aead) may fileHome (Considered serde aead may) (Resting serde) where
  abstract _ _ := rfl
  invokes _ _ _ := ⟨by simp, by simp⟩
  turn resting healthy found leads answers _ := file_turn readsBack rfl resting healthy found leads answers
  tick := by
    intro config vault now resting moves _
    have considered : Considered serde aead may config (.drift (.tick now)) := by
      refine ⟨by simp, fun other same => ?_⟩
      cases same
      exact resting.clock ▸ moves
    exact ⟨_, _, .snoc (.refl config) considered (.drift rfl), resting.tick now⟩

end Runs

end TariVault
