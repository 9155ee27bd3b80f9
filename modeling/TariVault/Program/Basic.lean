import Mathlib.Logic.Function.Basic

namespace TariVault

/-! # Programs over an interface of operations

A program is a tree: it is finished, or it performs one operation of its
interface and continues with the answer.  Nothing here says what the operations
do.  The same tree is run alone by a handler, followed along a recorded history,
or interleaved with other programs, so one translation of a source function
serves every semantics built on it.
-/

universe u

/-- A computation that performs operations `op : Op` and is answered in
`Answer op`. -/
inductive Program (Op : Type) (Answer : Op → Type) (α : Type) where
  | done (value : α)
  | step (op : Op) (next : Answer op → Program Op Answer α)

/-- One performed operation together with its answer. -/
structure Event {Op : Type} (Answer : Op → Type) where
  op : Op
  answer : Answer op

namespace Program

variable {Op : Type} {Answer : Op → Type} {α β γ σ : Type}

protected def bind : Program Op Answer α → (α → Program Op Answer β) → Program Op Answer β
  | .done value, rest => rest value
  | .step op next, rest => .step op fun answer => (next answer).bind rest

instance : Monad (Program Op Answer) where
  pure := .done
  bind := Program.bind

def perform (op : Op) : Program Op Answer (Answer op) := .step op .done

@[simp] theorem pure_eq (value : α) : (pure value : Program Op Answer α) = .done value := rfl

@[simp] theorem done_bind (value : α) (rest : α → Program Op Answer β) :
    (Program.done value >>= rest) = rest value := rfl

@[simp] theorem step_bind (op : Op) (next : Answer op → Program Op Answer α)
    (rest : α → Program Op Answer β) :
    (Program.step op next >>= rest) = .step op fun answer => next answer >>= rest := rfl

@[simp] theorem perform_bind (op : Op) (rest : Answer op → Program Op Answer β) :
    (perform op >>= rest) = .step op rest := rfl

theorem bind_done (program : Program Op Answer α) : program >>= Program.done = program := by
  induction program with
  | done value => rfl
  | step op next ih => exact congrArg (Program.step op) (funext ih)

theorem bind_bind (program : Program Op Answer α) (first : α → Program Op Answer β)
    (second : β → Program Op Answer γ) :
    (program >>= first) >>= second = program >>= fun value => first value >>= second := by
  induction program with
  | done value => rfl
  | step op next ih => exact congrArg (Program.step op) (funext ih)

instance : LawfulMonad (Program Op Answer) :=
  LawfulMonad.mk' _ bind_done (fun _ _ => rfl) bind_bind

/-- `program.Leads events rest`: having performed exactly `events`, in order,
`program` has become `rest`. -/
inductive Leads : Program Op Answer α → List (Event Answer) → Program Op Answer α → Prop where
  | refl (program) : Leads program [] program
  | step {op next answer events rest} (tail : Leads (next answer) events rest) :
      Leads (.step op next) (⟨op, answer⟩ :: events) rest

theorem Leads.trans {first second third : Program Op Answer α} {events events' : List (Event Answer)}
    (front : Leads first events second) (back : Leads second events' third) :
    Leads first (events ++ events') third := by
  induction front with
  | refl => exact back
  | step _ ih => exact .step (ih back)

theorem Leads.snoc {program : Program Op Answer α} {events : List (Event Answer)}
    {op : Op} {next : Answer op → Program Op Answer α}
    (front : Leads program events (.step op next)) (answer : Answer op) :
    Leads program (events ++ [⟨op, answer⟩]) (next answer) :=
  front.trans (.step (.refl _))

theorem Leads.done_inv {value : α} {events : List (Event Answer)} {rest : Program Op Answer α}
    (leads : Leads (.done value) events rest) : events = [] ∧ rest = .done value := by
  cases leads
  exact ⟨rfl, rfl⟩

theorem Leads.step_inv {op : Op} {next : Answer op → Program Op Answer α}
    {events : List (Event Answer)} {rest : Program Op Answer α}
    (leads : Leads (.step op next) events rest) :
    (events = [] ∧ rest = .step op next) ∨
      ∃ answer tail, events = ⟨op, answer⟩ :: tail ∧ Leads (next answer) tail rest := by
  cases leads with
  | refl => exact .inl ⟨rfl, rfl⟩
  | step tail => exact .inr ⟨_, _, rfl, tail⟩

/-- A sequence is still inside its first part, or has finished it and gone on. -/
theorem Leads.bind_inv {program : Program Op Answer α} {rest : α → Program Op Answer β}
    {events : List (Event Answer)} {final : Program Op Answer β}
    (leads : Leads (program >>= rest) events final) :
    (∃ op next, Leads program events (.step op next) ∧ final = .step op next >>= rest) ∨
      ∃ value front back, events = front ++ back ∧ Leads program front (.done value) ∧
        Leads (rest value) back final := by
  induction program generalizing events with
  | done value => exact .inr ⟨value, [], events, rfl, .refl _, leads⟩
  | step op next ih =>
      rcases leads.step_inv with ⟨rfl, rfl⟩ | ⟨answer, tail, rfl, tailLeads⟩
      · exact .inl ⟨op, next, .refl _, rfl⟩
      · rcases ih answer tailLeads with ⟨op', next', inside, rfl⟩ |
          ⟨value, front, back, rfl, finished, continued⟩
        · exact .inl ⟨op', next', .step inside, rfl⟩
        · exact .inr ⟨value, ⟨op, answer⟩ :: front, back, rfl, .step finished, continued⟩

/-- A history can be cut anywhere. -/
theorem Leads.cut {program rest : Program Op Answer α} {front back : List (Event Answer)}
    (leads : Leads program (front ++ back) rest) :
    ∃ middle, Leads program front middle ∧ Leads middle back rest := by
  induction front generalizing program with
  | nil => exact ⟨program, .refl _, leads⟩
  | cons event front ih =>
      cases leads with
      | step tail =>
          obtain ⟨middle, first, second⟩ := ih tail
          exact ⟨middle, .step first, second⟩

/-- A sequence goes on where its first part is done. -/
theorem Leads.bind {program : Program Op Answer α} {events : List (Event Answer)} {value : α}
    (leads : Leads program events (.done value)) (rest : α → Program Op Answer β) :
    Leads (program >>= rest) events (rest value) := by
  induction program generalizing events with
  | done other =>
      obtain ⟨rfl, same⟩ := leads.done_inv
      cases same
      exact .refl _
  | step op next ih =>
      rcases leads.step_inv with ⟨_, impossible⟩ | ⟨answer, tail, rfl, tailLeads⟩
      · contradiction
      · exact .step (ih answer tailLeads)

theorem map_done (f : α → β) (value : α) :
    (f <$> (.done value : Program Op Answer α)) = .done (f value) := rfl

theorem map_step (f : α → β) (op : Op) (next : Answer op → Program Op Answer α) :
    f <$> Program.step op next = .step op fun answer => f <$> next answer := rfl

/-- Mapping the result changes nothing about the operations. -/
theorem Leads.map_inv {f : α → β} {program : Program Op Answer α} {events : List (Event Answer)}
    {final : Program Op Answer β} (leads : Leads (f <$> program) events final) :
    ∃ middle, Leads program events middle ∧ final = f <$> middle := by
  induction program generalizing events with
  | done value =>
      obtain ⟨rfl, rfl⟩ := leads.done_inv
      exact ⟨_, .refl _, rfl⟩
  | step op next ih =>
      rcases leads.step_inv with ⟨rfl, rfl⟩ | ⟨answer, tail, rfl, tailLeads⟩
      · exact ⟨_, .refl _, rfl⟩
      · obtain ⟨middle, inside, rfl⟩ := ih answer tailLeads
        exact ⟨middle, .step inside, rfl⟩

theorem Leads.map {program middle : Program Op Answer α} {events : List (Event Answer)} (f : α → β)
    (leads : Leads program events middle) : Leads (f <$> program) events (f <$> middle) := by
  induction leads with
  | refl => exact .refl _
  | step _ ih => exact .step ih

theorem step_ne {op op' : Op} {next : Answer op → Program Op Answer α}
    {next' : Answer op' → Program Op Answer α} (different : op ≠ op') :
    Program.step op next ≠ .step op' next' := by
  intro same
  injection same with sameOp
  exact different sameOp

theorem map_eq_done {f : α → β} {program : Program Op Answer α} {result : β}
    (finished : f <$> program = .done result) : ∃ value, program = .done value ∧ f value = result := by
  cases program with
  | done value => exact ⟨value, rfl, Program.done.inj finished⟩
  | step op next => contradiction

/-- What holds after a success, and what after a failure. -/
def Either {ε τ : Type} (good : α → τ) (bad : ε → τ) : Except ε α → τ
  | .ok value => good value
  | .error error => bad error

/-- Every operation the program can ever perform is `allowed`. -/
inductive Within (allowed : Op → Prop) : Program Op Answer α → Prop where
  | done (value) : Within allowed (.done value)
  | step {op next} (here : allowed op) (after : ∀ answer, Within allowed (next answer)) :
      Within allowed (.step op next)

variable {allowed : Op → Prop}

theorem Within.mono {wider : Op → Prop} (included : ∀ op, allowed op → wider op)
    {program : Program Op Answer α} (within : program.Within allowed) : program.Within wider := by
  induction within with
  | done value => exact .done value
  | step here _ ih => exact .step (included _ here) ih

theorem Within.bind {program : Program Op Answer α} {rest : α → Program Op Answer β}
    (front : program.Within allowed) (back : ∀ value, (rest value).Within allowed) :
    (program >>= rest).Within allowed := by
  induction front with
  | done value => exact back value
  | step here _ ih => exact .step here ih

theorem Within.map {program : Program Op Answer α} (f : α → β) (front : program.Within allowed) :
    (f <$> program).Within allowed :=
  front.bind fun value => .done (f value)

theorem Within.leads {program rest : Program Op Answer α} {events : List (Event Answer)}
    (within : program.Within allowed) (leads : Leads program events rest) :
    (∀ event ∈ events, allowed event.op) ∧ rest.Within allowed := by
  induction leads with
  | refl => exact ⟨by simp, within⟩
  | step _ ih =>
      cases within with
      | step here after =>
          obtain ⟨performed, remaining⟩ := ih (after _)
          refine ⟨fun event member => ?_, remaining⟩
          rcases List.mem_cons.mp member with rfl | later
          · exact here
          · exact performed event later

theorem Within.head {op : Op} {next : Answer op → Program Op Answer α}
    (within : (Program.step op next).Within allowed) : allowed op := by
  cases within with
  | step here _ => exact here

/-- Run a program alone.  The handler answers each operation from the state, or
stops the program there. -/
def run (handle : σ → (op : Op) → Option (Answer op × σ)) :
    Program Op Answer α → σ → Option (α × σ)
  | .done value, state => some (value, state)
  | .step op next, state =>
      match handle state op with
      | none => none
      | some (answer, state') => (next answer).run handle state'

variable {handle : σ → (op : Op) → Option (Answer op × σ)}

@[simp] theorem run_done (value : α) (state : σ) :
    (Program.done value : Program Op Answer α).run handle state = some (value, state) := rfl

theorem run_step {op : Op} {next : Answer op → Program Op Answer α} {state state' : σ}
    {answer : Answer op} (answered : handle state op = some (answer, state')) :
    (Program.step op next).run handle state = (next answer).run handle state' := by
  simp only [run, answered]

theorem run_bind (program : Program Op Answer α) (rest : α → Program Op Answer β) (state : σ) :
    (program >>= rest).run handle state =
      (program.run handle state).bind fun result => (rest result.1).run handle result.2 := by
  induction program generalizing state with
  | done value => rfl
  | step op next ih =>
      simp only [step_bind, run]
      cases handle state op with
      | none => rfl
      | some result => exact ih result.1 result.2

theorem run_map (f : α → β) (program : Program Op Answer α) (state : σ) :
    (f <$> program).run handle state =
      (program.run handle state).map fun result => (f result.1, result.2) := by
  rw [map_eq_pure_bind, run_bind]
  cases program.run handle state <;> rfl

theorem run_bind_of_eq {program : Program Op Answer α} {rest : α → Program Op Answer β}
    {state state' : σ} {value : α} (ran : program.run handle state = some (value, state')) :
    (program >>= rest).run handle state = (rest value).run handle state' := by
  rw [run_bind, ran]
  rfl

/-! Programs that may fail go on only after a success. -/

theorem run_ok_bind {ε : Type} {program : ExceptT ε (Program Op Answer) α}
    {rest : α → ExceptT ε (Program Op Answer) β} {state state' : σ} {value : α}
    (ran : program.run.run handle state = some (.ok value, state')) :
    (program >>= rest).run.run handle state = (rest value).run.run handle state' := by
  rw [ExceptT.run_bind, run_bind_of_eq ran]

theorem run_error_bind {ε : Type} {program : ExceptT ε (Program Op Answer) α}
    {rest : α → ExceptT ε (Program Op Answer) β} {state state' : σ} {error : ε}
    (ran : program.run.run handle state = some (.error error, state')) :
    (program >>= rest).run.run handle state = some (.error error, state') := by
  rw [ExceptT.run_bind, run_bind_of_eq ran]
  rfl

end Program

end TariVault
