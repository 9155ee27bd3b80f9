import TariVault.Program.Basic

namespace TariVault

/-! # Programs over another interface

Each operation of one interface is carried out by a program over another. When
that program answers as the operation does, so does every program made of them,
also one that gets stuck.
-/

namespace Program

variable {Op Op' : Type} {Answer : Op → Type} {Answer' : Op' → Type} {α β σ τ : Type}

def interpret (lower : (op : Op) → Program Op' Answer' (Answer op)) :
    Program Op Answer α → Program Op' Answer' α
  | .done value => .done value
  | .step op next => lower op >>= fun answer => (next answer).interpret lower

section Interpret

variable (lower : (op : Op) → Program Op' Answer' (Answer op))

theorem interpret_bind (program : Program Op Answer α) (rest : α → Program Op Answer β) :
    (program >>= rest).interpret lower =
      program.interpret lower >>= fun value => (rest value).interpret lower := by
  induction program with
  | done value => rfl
  | step op next ih =>
      simp only [step_bind, interpret, bind_assoc]
      exact congrArg (lower op >>= ·) (funext ih)

theorem interpret_map (f : α → β) (program : Program Op Answer α) :
    (f <$> program).interpret lower = f <$> program.interpret lower := by
  rw [map_eq_pure_bind, interpret_bind, map_eq_pure_bind]
  rfl

theorem interpret_perform (op : Op) : (perform op).interpret lower = lower op :=
  bind_done (lower op)

end Interpret

/-- Run a program alone, up to its value or to an operation nobody answers. -/
def exec (handle : σ → (op : Op) → Option (Answer op × σ)) :
    Program Op Answer α → σ → Option α × σ
  | .done value, state => (some value, state)
  | .step op next, state =>
      match handle state op with
      | none => (none, state)
      | some (answer, state') => (next answer).exec handle state'

variable {handle : σ → (op : Op) → Option (Answer op × σ)} {handle' : τ → (op : Op') → Option (Answer' op × τ)}

theorem exec_step {op : Op} {next : Answer op → Program Op Answer α} {state state' : σ}
    {answer : Answer op} (answered : handle state op = some (answer, state')) :
    (Program.step op next).exec handle state = (next answer).exec handle state' := by
  simp only [exec, answered]

theorem exec_stuck {op : Op} {next : Answer op → Program Op Answer α} {state : σ}
    (unanswered : handle state op = none) : (Program.step op next).exec handle state = (none, state) := by
  simp only [exec, unanswered]

theorem exec_of_run {program : Program Op Answer α} {state state' : σ} {value : α}
    (ran : program.run handle state = some (value, state')) :
    program.exec handle state = (some value, state') := by
  induction program generalizing state with
  | done other =>
      cases ran
      rfl
  | step op next ih =>
      simp only [run] at ran
      cases answered : handle state op with
      | none =>
          rw [answered] at ran
          contradiction
      | some result =>
          rw [answered] at ran
          rw [exec_step answered]
          exact ih _ ran

theorem exec_bind_stuck {program : Program Op Answer α} {rest : α → Program Op Answer β} {state : σ}
    (stuck : (program.exec handle state).1 = none) :
    (program >>= rest).exec handle state = (none, (program.exec handle state).2) := by
  induction program generalizing state with
  | done value => contradiction
  | step op next ih =>
      cases answered : handle state op with
      | none => rw [step_bind, exec_stuck answered, exec_stuck answered]
      | some result =>
          rw [exec_step answered] at stuck ⊢
          rw [step_bind, exec_step answered]
          exact ih _ stuck

theorem exec_bind_of_eq {program : Program Op Answer α} {rest : α → Program Op Answer β}
    {state : σ} {value : α} (finished : (program.exec handle state).1 = some value) :
    (program >>= rest).exec handle state = (rest value).exec handle (program.exec handle state).2 := by
  induction program generalizing state with
  | done other =>
      cases finished
      rfl
  | step op next ih =>
      cases answered : handle state op with
      | none =>
          rw [exec_stuck answered] at finished
          contradiction
      | some result =>
          rw [exec_step answered] at finished ⊢
          rw [step_bind, exec_step answered]
          exact ih _ finished

theorem exec_map (f : α → β) (program : Program Op Answer α) (state : σ) :
    (f <$> program).exec handle state =
      ((program.exec handle state).1.map f, (program.exec handle state).2) := by
  rw [map_eq_pure_bind]
  cases finished : (program.exec handle state).1 with
  | none => rw [exec_bind_stuck finished, Option.map_none]
  | some value =>
      rw [exec_bind_of_eq finished, Option.map_some]
      rfl

/-- The handler gives these answers, one after another. -/
inductive Answers (handle : σ → (op : Op) → Option (Answer op × σ)) : σ → List (Event Answer) → σ → Prop where
  | nil {state} : Answers handle state [] state
  | cons {state op answer middle events last} (answered : handle state op = some (answer, middle))
      (later : Answers handle middle events last) : Answers handle state (⟨op, answer⟩ :: events) last

theorem Answers.append {state middle last : σ} {front back : List (Event Answer)}
    (first : Answers handle state front middle) (second : Answers handle middle back last) :
    Answers handle state (front ++ back) last := by
  induction first with
  | nil => exact second
  | cons answered _ ih => exact .cons answered (ih second)

theorem Answers.append_inv {state last : σ} {front back : List (Event Answer)}
    (answers : Answers handle state (front ++ back) last) :
    ∃ middle, Answers handle state front middle ∧ Answers handle middle back last := by
  induction front generalizing state with
  | nil => exact ⟨state, .nil, answers⟩
  | cons event front ih =>
      cases answers with
      | cons answered later =>
          obtain ⟨middle, first, second⟩ := ih later
          exact ⟨middle, .cons answered first, second⟩

theorem exec_of_leads {program rest : Program Op Answer α} {events : List (Event Answer)} {state last : σ}
    (leads : Leads program events rest) (answers : Answers handle state events last) :
    program.exec handle state = rest.exec handle last := by
  induction leads generalizing state with
  | refl =>
      cases answers
      rfl
  | step _ ih =>
      cases answers with
      | cons answered later =>
          rw [exec_step answered]
          exact ih later

theorem leads_of_exec {program : Program Op Answer α} {state : σ} {value : α}
    (finished : (program.exec handle state).1 = some value) :
    ∃ events, Leads program events (.done value) ∧
      Answers handle state events (program.exec handle state).2 := by
  induction program generalizing state with
  | done other =>
      cases finished
      exact ⟨[], .refl _, .nil⟩
  | step op next ih =>
      cases answered : handle state op with
      | none =>
          rw [exec_stuck answered] at finished
          contradiction
      | some result =>
          rw [exec_step answered] at finished ⊢
          obtain ⟨events, leads, answers⟩ := ih _ finished
          exact ⟨_, .step leads, .cons answered answers⟩

def SameOutcome (related : τ → σ → Prop) (left : Option α × τ) (right : Option α × σ) : Prop :=
  left.1 = right.1 ∧ related left.2 right.2

/-- When each operation is carried out faithfully, so is every program. -/
theorem exec_interpret {lower : (op : Op) → Program Op' Answer' (Answer op)}
    {related : τ → σ → Prop}
    (faithful : ∀ op lowState state, related lowState state →
      SameOutcome related ((lower op).exec handle' lowState) ((perform op).exec handle state))
    (program : Program Op Answer α) {lowState : τ} {state : σ} (start : related lowState state) :
    SameOutcome related ((program.interpret lower).exec handle' lowState) (program.exec handle state) := by
  induction program generalizing lowState state with
  | done value => exact ⟨rfl, start⟩
  | step op next ih =>
      have here := faithful op lowState state start
      cases answered : handle state op with
      | none =>
          rw [perform, exec_stuck answered] at here
          rw [interpret, exec_bind_stuck here.1, exec_stuck answered]
          exact ⟨rfl, here.2⟩
      | some result =>
          rw [perform, exec_step answered] at here
          rw [interpret, exec_bind_of_eq here.1, exec_step answered]
          exact ih _ here.2

/-- A part of a program, whose operations are all valid, is carried out by a part of what
it is interpreted by, if those are carried out faithfully. -/
theorem interpret_answers {lower : (op : Op) → Program Op' Answer' (Answer op)}
    {related : τ → σ → Prop} {valid : Event Answer → Prop}
    (faithful : ∀ op answer lowState state next, related lowState state →
      handle state op = some (answer, next) → valid ⟨op, answer⟩ →
      ∃ lowNext, (lower op).exec handle' lowState = (some answer, lowNext) ∧ related lowNext next)
    {program rest : Program Op Answer α} {events : List (Event Answer)} {lowState : τ} {state last : σ}
    (leads : Leads program events rest) (answers : Answers handle state events last)
    (all : ∀ event ∈ events, valid event) (start : related lowState state) :
    ∃ lowEvents lowLast, Leads (program.interpret lower) lowEvents (rest.interpret lower) ∧
      Answers handle' lowState lowEvents lowLast ∧ related lowLast last := by
  induction leads generalizing lowState state with
  | refl =>
      cases answers
      exact ⟨[], lowState, .refl _, .nil, start⟩
  | step _ ih =>
      obtain ⟨here, later⟩ := List.forall_mem_cons.mp all
      cases answers with
      | cons answered further =>
          obtain ⟨lowNext, ran, stays⟩ := faithful _ _ lowState state _ start answered here
          obtain ⟨first, opens, answersFirst⟩ := leads_of_exec (congrArg Prod.fst ran)
          rw [ran] at answersFirst
          obtain ⟨second, lowLast, goesOn, answersSecond, ends⟩ := ih further later stays
          exact ⟨first ++ second, lowLast, (opens.bind _).trans goesOn, answersFirst.append answersSecond, ends⟩

end Program

end TariVault
