import Mathlib.Data.List.Forall2

namespace TariVault

/-! # Sequences of inputs

A machine answers each input and goes to its next state. Two machines are compared
along the whole sequence, step by step.
-/

variable {σ τ ι α : Type}

/-- The answers to a sequence of inputs, each with the state it left; `none` when
an input gets no answer. -/
def trace (step : σ → ι → Option (α × σ)) (state : σ) : List ι → Option (List (α × σ))
  | [] => some []
  | input :: rest =>
      match step state input with
      | none => none
      | some (answer, next) => (trace step next rest).map ((answer, next) :: ·)

/-- Every input meets a condition in the state it finds. -/
def Throughout (meets : σ → ι → Prop) (step : σ → ι → Option (α × σ)) (state : σ) : List ι → Prop
  | [] => True
  | input :: rest => meets state input ∧
      ∀ answer next, step state input = some (answer, next) → Throughout meets step next rest

theorem throughout_true (step : σ → ι → Option (α × σ)) (state : σ) (inputs : List ι) :
    Throughout (fun _ _ => True) step state inputs := by
  induction inputs generalizing state with
  | nil => trivial
  | cons input rest ih => exact ⟨trivial, fun _ next _ => ih next⟩

theorem trace_cons {step : σ → ι → Option (α × σ)} {state next : σ} {input : ι} {answer : α}
    {rest : List ι} {later : List (α × σ)} (stepped : step state input = some (answer, next))
    (ran : trace step next rest = some later) :
    trace step state (input :: rest) = some ((answer, next) :: later) := by
  simp only [trace, stepped, ran, Option.map_some]

theorem Throughout.and_inputs {meets : σ → ι → Prop} {valid : ι → Prop}
    {step : σ → ι → Option (α × σ)} {state : σ} {inputs : List ι}
    (throughout : Throughout meets step state inputs) (all : ∀ input ∈ inputs, valid input) :
    Throughout (fun state input => meets state input ∧ valid input) step state inputs := by
  induction inputs generalizing state with
  | nil => trivial
  | cons input rest ih =>
      refine ⟨⟨throughout.1, all input List.mem_cons_self⟩, fun answer next stepped => ?_⟩
      exact ih (throughout.2 answer next stepped) fun other member =>
        all other (List.mem_cons_of_mem _ member)

/-- Two machines that give the same answer in related states, and stay related,
give the same answers to every sequence. -/
theorem trace_agrees {step : σ → ι → Option (α × σ)} {step' : τ → ι → Option (α × τ)}
    {related : σ → τ → Prop} {meets : τ → ι → Prop}
    (agrees : ∀ state state' input, related state state' → meets state' input →
      ∃ answer next next', step state input = some (answer, next) ∧
        step' state' input = some (answer, next') ∧ related next next')
    {state : σ} {state' : τ} (start : related state state') {inputs : List ι}
    (throughout : Throughout meets step' state' inputs) :
    ∃ steps steps', trace step state inputs = some steps ∧ trace step' state' inputs = some steps' ∧
      List.Forall₂ (fun left right => left.1 = right.1 ∧ related left.2 right.2) steps steps' := by
  induction inputs generalizing state state' with
  | nil => exact ⟨[], [], rfl, rfl, .nil⟩
  | cons input rest ih =>
      obtain ⟨here, later⟩ := throughout
      obtain ⟨answer, next, next', stepped, stepped', stays⟩ := agrees _ _ _ start here
      obtain ⟨steps, steps', ran, ran', same⟩ := ih stays (later _ _ stepped')
      exact ⟨_, _, trace_cons stepped ran, trace_cons stepped' ran', .cons ⟨rfl, stays⟩ same⟩

theorem answers_eq {related : σ → τ → Prop} {left : List (α × σ)} {right : List (α × τ)}
    (agree : List.Forall₂ (fun left right => left.1 = right.1 ∧ related left.2 right.2) left right) :
    left.map Prod.fst = right.map Prod.fst := by
  induction agree with
  | nil => rfl
  | cons here _ ih => rw [List.map_cons, List.map_cons, here.1, ih]

end TariVault
