import TariVault.Vault.Accounting
import TariVault.Vault.Sequential

namespace TariVault

open Program VaultEvent Session TariVault.System

/-! # A sequential run is a run of the system

One call after another is one schedule among all of them, so what holds of every
run of the system holds of sequential runs over the map.
-/

variable {aead : Aead} {supply : Supply} {session session' : Session Contents}
  {shared : VaultState}

def VaultState.at (shared : VaultState) (now : DateTime) : VaultState :=
  { shared with clock := now, readings := now :: shared.readings }

/-- The state of the system in a session. -/
structure Shows (supply : Supply) (session : Session Contents) (shared : VaultState) : Prop where
  records : shared.records = session.storage
  drawn : shared.drawn = session.drawn
  clock : shared.clock ≤ supply.now session.taken

/-- Each operation happens in the system at the time of the session. -/
theorem respond_act (monotone : Monotone supply.now) (shows : Shows supply session shared)
    {op : HostOp BackendOp} {answer : HostOp.Answer BackendOp.Answer op}
    (answered : respond supply (onContents supply) session op = some (answer, session'))
    (fresh : session'.drawn.Nodup) :
    ∃ shared', VaultAct (shared.at (supply.now session.taken)) ⟨op, answer⟩ shared' ∧
      Shows supply session' shared' := by
  obtain ⟨records, drawn, clock⟩ := shows
  have later : supply.now session.taken ≤ supply.now (session.taken + 1) := monotone (Nat.le_succ _)
  cases op with
  | now =>
      cases answered
      exact ⟨_, .now, records, drawn, later⟩
  | generateKey =>
      cases answered
      exact ⟨_, .generateKey _, records, drawn, later⟩
  | generateNonce =>
      cases answered
      exact ⟨_, .generateNonce _, records, drawn, later⟩
  | newV4 =>
      cases answered
      refine ⟨_, .newV4 ?_, records, congrArg _ drawn, later⟩
      have unseen := (List.nodup_cons.mp fresh).1
      rw [← drawn] at unseen
      exact unseen
  | log line =>
      cases answered
      exact ⟨_, .log line, records, drawn, le_refl _⟩
  | panic message => exact answer.elim
  | storage op =>
      cases answered
      have performed := @VaultAct.perform (shared.at (supply.now session.taken)) op (supply.now session.taken)
        List.mem_cons_self
      rw [show (shared.at (supply.now session.taken)).records = session.storage from records] at performed
      refine ⟨_, performed, rfl, drawn, ?_⟩
      simp only [VaultState.at]
      split
      · exact later
      · exact le_refl _

theorem respond_drawn {op : HostOp BackendOp} {answer : HostOp.Answer BackendOp.Answer op}
    (answered : respond supply (onContents supply) session op = some (answer, session')) :
    session.drawn <:+ session'.drawn := by
  cases op with
  | newV4 =>
      cases answered
      exact List.suffix_cons _ _
  | panic message => exact answer.elim
  | _ =>
      cases answered
      exact List.suffix_refl _

theorem exec_drawn {α : Type} (program : VaultProgram α) (session : Session Contents) :
    session.drawn <:+ (program.exec (respond supply (onContents supply)) session).2.drawn := by
  induction program generalizing session with
  | done value => exact List.suffix_refl _
  | step op next ih =>
      cases answered : respond supply (onContents supply) session op with
      | none => rw [exec_stuck answered]
      | some result =>
          rw [exec_step answered]
          exact (respond_drawn answered).trans (ih result.1 result.2)

/-- A call that has answered, or has panicked. -/
structure Halted (outcome : Option (Except VaultError Reply)) (rest : VaultProgram (Except VaultError Reply)) :
    Prop where
  answered : ∀ result, outcome = some result ↔ rest = .done result
  panicked : outcome = none → ∃ message next, rest = .step (.panic message) next

/-- A call in a session runs in the system. -/
theorem exec_runs (monotone : Monotone supply.now) {program : VaultProgram (Except VaultError Reply)}
    {config : Config (vaultSystem aead)} {tid : Nat} {call : VaultCall} {past : List VaultEvent}
    (found : config.threads tid = some ⟨call, past, program⟩) (shows : Shows supply session config.shared)
    (fresh : (program.exec (respond supply (onContents supply)) session).2.drawn.Nodup) :
    ∃ labels shared events rest, RunWhere MonotoneClock config labels
        ⟨shared, Function.update config.threads tid (some ⟨call, past ++ events, rest⟩)⟩ ∧
      Shows supply (program.exec (respond supply (onContents supply)) session).2 shared ∧
      Halted (program.exec (respond supply (onContents supply)) session).1 rest := by
  induction program generalizing session config past with
  | done value =>
      refine ⟨[], config.shared, [], .done value, ?_, shows, ?_, nofun⟩
      · rw [List.append_nil, Function.update_eq_self_iff.mpr found.symm]
        exact .refl _
      · simp [exec]
  | step op next ih =>
      cases answered : respond supply (onContents supply) session op with
      | none =>
          rw [exec_stuck answered]
          refine ⟨[], config.shared, [], .step op next, ?_, shows, by simp, fun _ => ?_⟩
          · rw [List.append_nil, Function.update_eq_self_iff.mpr found.symm]
            exact .refl _
          · cases op with
            | panic message => exact ⟨message, next, rfl⟩
            | _ => contradiction
      | some result =>
          obtain ⟨answer, after⟩ := result
          rw [exec_step answered] at fresh ⊢
          have freshHere : after.drawn.Nodup := fresh.sublist (exec_drawn (next answer) after).sublist
          obtain ⟨shared, act, showsAfter⟩ := respond_act monotone shows answered freshHere
          let now := supply.now session.taken
          have ticked : RunWhere MonotoneClock config [.drift now] { config with shared := config.shared.at now } :=
            .snoc (.refl _) (fun _ same => by cases same; exact shows.clock) (.drift rfl)
          have acted := ticked.snoc (by simp [MonotoneClock]) (Step.act found act)
          obtain ⟨labels, last, events, rest, run, showsLast, outcome⟩ :=
            @ih answer after ⟨shared, Function.update config.threads tid (some ⟨call, past ++ [⟨op, answer⟩],
              next answer⟩)⟩ _ (Function.update_self ..) showsAfter fresh
          rw [List.append_assoc, Function.update_idem] at run
          exact ⟨_, last, _, rest, acted.trans run, showsLast, outcome⟩

theorem Served.drawn {exchanges : List Exchange}
    (served : Served (Contents.serve aead supply) session exchanges session') :
    session.drawn <:+ session'.drawn := by
  induction served with
  | nil => exact List.suffix_refl _
  | snoc _ call ih => exact ih.trans (exec_drawn _ _)

/-- The calls of a sequential run, as calls of the system: the first is number 0. -/
structure Scheduled (supply : Supply) (exchanges : List Exchange) (session : Session Contents)
    (config : Config (vaultSystem aead)) : Prop where
  shows : Shows supply session config.shared
  free : ∀ tid, exchanges.length ≤ tid → config.threads tid = none
  served : ∀ tid exchange, exchanges[tid]? = some exchange → ∃ thread, config.threads tid = some thread ∧
    thread.call = exchange.call ∧ Halted exchange.outcome thread.rest

theorem scheduled_start (drawn : session.drawn = []) (storage : session.storage = ∅) :
    Scheduled supply [] session (vaultStart aead (supply.now session.taken)) :=
  ⟨⟨storage.symm, drawn.symm, le_refl _⟩, fun _ _ => rfl, by simp⟩

theorem Scheduled.serve (monotone : Monotone supply.now) {exchanges : List Exchange}
    {config : Config (vaultSystem aead)} (scheduled : Scheduled supply exchanges session config)
    (call : VaultCall) (fresh : (Contents.serve aead supply session call).2.drawn.Nodup) :
    ∃ labels last, RunWhere MonotoneClock config labels last ∧
      Scheduled supply (exchanges ++ [⟨call, (Contents.serve aead supply session call).1⟩])
        (Contents.serve aead supply session call).2 last ∧
      ∀ tid, tid ≠ exchanges.length → last.threads tid = config.threads tid := by
  let tid := exchanges.length
  let invoked : Config (vaultSystem aead) := { config with
    threads := Function.update config.threads tid (some ⟨call, [], call.code aead⟩) }
  have started : RunWhere MonotoneClock config [.invoke tid call] invoked :=
    .snoc (.refl _) (by simp [MonotoneClock]) (.invoke (scheduled.free tid (le_refl _)))
  obtain ⟨labels, shared, events, rest, run, shows, outcome⟩ :=
    @exec_runs _ _ session monotone (call.code aead) invoked tid call [] (Function.update_self ..)
      scheduled.shows fresh
  rw [Function.update_idem] at run
  refine ⟨_, _, started.trans run, ⟨shows, fun other beyond => ?_, fun other exchange here => ?_⟩,
    fun other different => Function.update_of_ne different ..⟩
  · rw [List.length_append, List.length_singleton] at beyond
    have different : other ≠ tid := by omega
    exact (Function.update_of_ne different ..).trans (scheduled.free other (by omega))
  · by_cases same : other = tid
    · subst same
      rw [List.getElem?_concat_length, Option.some.injEq] at here
      subst here
      exact ⟨_, Function.update_self .., rfl, outcome⟩
    · have within := (List.getElem?_eq_some_iff.mp here).1
      rw [List.length_append, List.length_singleton] at within
      have earlier : other < exchanges.length := by omega
      rw [List.getElem?_append_left earlier] at here
      obtain ⟨thread, found, rest⟩ := scheduled.served other exchange here
      exact ⟨thread, (Function.update_of_ne same ..).trans found, rest⟩

theorem Scheduled.run (monotone : Monotone supply.now) {exchanges later : List Exchange}
    {config : Config (vaultSystem aead)} (scheduled : Scheduled supply exchanges session config)
    (served : Served (Contents.serve aead supply) session later session') (fresh : session'.drawn.Nodup) :
    ∃ labels last, RunWhere MonotoneClock config labels last ∧
      Scheduled supply (exchanges ++ later) session' last ∧
      ∀ tid < exchanges.length, last.threads tid = config.threads tid := by
  induction served with
  | nil =>
      rw [List.append_nil]
      exact ⟨[], config, .refl _, scheduled, fun _ _ => rfl⟩
  | @snoc later middle earlier call ih =>
      have freshHere : middle.drawn.Nodup := fresh.sublist (exec_drawn _ _).sublist
      obtain ⟨labels, before, run, reached, kept⟩ := ih freshHere
      obtain ⟨labels', last, run', reached', kept'⟩ := reached.serve monotone call fresh
      rw [List.append_assoc] at reached'
      refine ⟨_, last, run.trans run', reached', fun tid here => ?_⟩
      have different : tid ≠ (exchanges ++ later).length := by
        rw [List.length_append]
        omega
      exact (kept' tid different).trans (kept tid here)

end TariVault
