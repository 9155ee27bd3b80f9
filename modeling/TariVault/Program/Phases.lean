import TariVault.Program.Interleaving
import TariVault.Program.Interpretation

namespace TariVault

open Program TariVault.System

/-! # Programs in phases

In each phase only some operations are due, and the answer to one leads to the next
phase. A program that obeys its phases can be followed by looking at its next
operation only.
-/

namespace Program

variable {Op Op' : Type} {Answer : Op → Type} {Answer' : Op' → Type} {Phase α β ε : Type}

/-- From `phase` on, the program performs only what is due, whatever it is answered,
and ends as `ends` says. -/
inductive Obeys (due : Phase → Op → Prop) (after : Phase → Event Answer → Phase) (ends : α → Phase → Prop) :
    Phase → Program Op Answer α → Prop where
  | done {phase value} (good : ends value phase) : Obeys due after ends phase (.done value)
  | step {phase op next} (here : due phase op)
      (goesOn : ∀ answer, Obeys due after ends (after phase ⟨op, answer⟩) (next answer)) :
      Obeys due after ends phase (.step op next)

namespace Obeys

variable {due : Phase → Op → Prop} {after : Phase → Event Answer → Phase} {ends ends' : α → Phase → Prop}
  {phase : Phase} {program : Program Op Answer α} {op : Op} {next : Answer op → Program Op Answer α}

theorem head (obeys : (Program.step op next).Obeys due after ends phase) : due phase op := by
  cases obeys with
  | step here _ => exact here

theorem tail (obeys : (Program.step op next).Obeys due after ends phase) (answer : Answer op) :
    (next answer).Obeys due after ends (after phase ⟨op, answer⟩) := by
  cases obeys with
  | step _ goesOn => exact goesOn answer

theorem result {value : α} (obeys : (Program.done value).Obeys due after ends phase) : ends value phase := by
  cases obeys with
  | done good => exact good

theorem perform {ends : Answer op → Phase → Prop} (here : due phase op)
    (answered : ∀ answer, ends answer (after phase ⟨op, answer⟩)) :
    (Program.perform op).Obeys due after ends phase :=
  .step here fun answer => .done (answered answer)

theorem weaken (obeys : program.Obeys due after ends phase)
    (weaker : ∀ value phase, ends value phase → ends' value phase) :
    program.Obeys due after ends' phase := by
  induction obeys with
  | done good => exact .done (weaker _ _ good)
  | step here _ ih => exact .step here ih

theorem bind {rest : α → Program Op Answer β} {final : β → Phase → Prop}
    (first : program.Obeys due after ends phase)
    (later : ∀ value phase, ends value phase → (rest value).Obeys due after final phase) :
    (program >>= rest).Obeys due after final phase := by
  induction first with
  | done good => exact later _ _ good
  | step here _ ih => exact .step here ih

theorem map {f : α → β} {final : β → Phase → Prop}
    (obeys : program.Obeys due after (fun value => final (f value)) phase) :
    (f <$> program).Obeys due after final phase :=
  obeys.bind fun _ _ good => .done good

theorem bind_ok {first : ExceptT ε (Program Op Answer) α} {rest : α → ExceptT ε (Program Op Answer) β}
    {final : Except ε β → Phase → Prop} (good : α → Phase → Prop) (bad : ε → Phase → Prop)
    (obeys : first.run.Obeys due after (Either good bad) phase)
    (fails : ∀ error phase, bad error phase → final (.error error) phase)
    (later : ∀ value phase, good value phase → (rest value).run.Obeys due after final phase) :
    (first >>= rest).run.Obeys due after final phase := by
  rw [ExceptT.run_bind]
  refine obeys.bind fun result phase ends => ?_
  cases result with
  | ok value => exact later value phase ends
  | error error => exact .done (fails error phase ends)

/-- A program made of operations that each lead from `phase` back to it does so too. -/
theorem interpret {lower : (op : Op') → Program Op Answer (Answer' op)}
    (each : ∀ op, (lower op).Obeys due after (fun _ reached => reached = phase) phase)
    (program : Program Op' Answer' α) :
    (program.interpret lower).Obeys due after (fun _ reached => reached = phase) phase := by
  induction program with
  | done value => exact .done rfl
  | step op next ih =>
      refine (each op).bind fun answer reached same => ?_
      rw [same]
      exact ih answer

end Obeys

end Program

variable {Op : Type} {Answer : Op → Type}

/-- A phase for each call, and what the shared state has to do with it. -/
structure Protocol (sys : System Op Answer) where
  Phase : Type
  idle : Phase
  due : Phase → Op → Prop
  after : Phase → Event Answer → Phase
  stands : sys.State → Nat → Phase → Prop
  obeys : ∀ call, (sys.code call).Obeys due after (fun _ phase => phase = idle) idle
  performed : ∀ {state tid phase op answer state'}, stands state tid phase → due phase op →
    sys.act tid state ⟨op, answer⟩ state' → stands state' tid (after phase ⟨op, answer⟩)
  others : ∀ {state tid other phase theirs op answer state'}, stands state tid phase → due phase op →
    sys.act tid state ⟨op, answer⟩ state' → other ≠ tid → stands state other theirs →
    stands state' other theirs
  drifts : ∀ {state tid phase env state'}, stands state tid phase → sys.drift state env state' →
    stands state' tid phase

namespace Protocol

variable {sys : System Op Answer} (protocol : Protocol sys)

/-- The call obeys from `phase` on, if it is there at all. -/
def Follows (phase : protocol.Phase) : Option sys.Thread → Prop
  | none => phase = protocol.idle
  | some thread => thread.rest.Obeys protocol.due protocol.after (fun _ reached => reached = protocol.idle) phase

/-- Every call is in a phase. -/
def Kept (config : sys.Config) : Prop :=
  ∀ tid, ∃ phase, protocol.stands config.shared tid phase ∧ protocol.Follows phase (config.threads tid)

variable {protocol} {config first last : sys.Config} {label : sys.Label} {labels : List sys.Label}
  {ok : sys.Config → sys.Label → Prop}

theorem kept_start {state : sys.State} (idle : ∀ tid, protocol.stands state tid protocol.idle) :
    protocol.Kept (Config.start state) :=
  fun tid => ⟨protocol.idle, idle tid, rfl⟩

/-- Only call `tid` has moved. -/
theorem kept_update {shared : sys.State} {threads : Nat → Option sys.Thread} {tid : Nat} {thread : sys.Thread}
    (mine : ∃ phase, protocol.stands shared tid phase ∧ protocol.Follows phase (some thread))
    (theirs : ∀ other, other ≠ tid →
      ∃ phase, protocol.stands shared other phase ∧ protocol.Follows phase (threads other)) :
    protocol.Kept ⟨shared, Function.update threads tid (some thread)⟩ := by
  intro other
  by_cases same : other = tid
  · subst same
    simpa only [Function.update_self] using mine
  · simpa only [Function.update_of_ne same] using theirs other same

theorem Kept.step (kept : protocol.Kept config) (step : Step config label last) : protocol.Kept last := by
  cases step with
  | @invoke tid call free =>
      obtain ⟨phase, stands, follows⟩ := kept tid
      rw [free] at follows
      cases follows
      exact kept_update ⟨protocol.idle, stands, protocol.obeys call⟩ fun other _ => kept other
  | @act tid call past op next answer shared running performed =>
      obtain ⟨phase, stands, follows⟩ := kept tid
      rw [running] at follows
      have due : protocol.due phase op := follows.head
      refine kept_update ⟨_, protocol.performed stands due performed, follows.tail answer⟩ fun other different => ?_
      obtain ⟨theirs, standing, following⟩ := kept other
      exact ⟨theirs, protocol.others stands due performed different standing, following⟩
  | drift changed =>
      intro tid
      obtain ⟨phase, stands, follows⟩ := kept tid
      exact ⟨phase, protocol.drifts stands changed, follows⟩

/-- Whatever the schedule, every call is in a phase at any time. -/
theorem Kept.run (kept : protocol.Kept first) (run : RunWhere ok first labels last) : protocol.Kept last := by
  induction run with
  | refl => exact kept
  | snoc _ _ step ih => exact ih.step step

/-- A call that is not idle is at an operation that is due. -/
theorem Follows.due_of_busy {phase : protocol.Phase} {thread : sys.Thread}
    (follows : protocol.Follows phase (some thread)) (busy : phase ≠ protocol.idle) :
    ∃ op next, thread.rest = .step op next ∧ protocol.due phase op := by
  obtain ⟨call, past, rest⟩ := thread
  cases rest with
  | done result => exact absurd follows.result busy
  | step op next => exact ⟨op, next, rfl, follows.head⟩

end Protocol

end TariVault
