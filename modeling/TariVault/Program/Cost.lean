import Mathlib.Algebra.Order.BigOperators.Group.Finset
import TariVault.Program.Interpretation
import TariVault.Program.Tally

namespace TariVault

open Program TariVault.System

/-! # How many operations a program performs

A program whose operations cost at most so much in all, whatever it is answered. In a
system whose calls all have such a bound, the steps are bounded by the calls.
-/

namespace Program

variable {Op Op' : Type} {Answer : Op → Type} {Answer' : Op' → Type} {α β ε : Type}

/-- The operations on any way through the program cost at most `total`. -/
inductive Costs (cost : Op → Nat) : Nat → Program Op Answer α → Prop where
  | done {total} (value) : Costs cost total (.done value)
  | step {op next rest total} (enough : cost op + rest ≤ total)
      (goesOn : ∀ answer, Costs cost rest (next answer)) : Costs cost total (.step op next)

namespace Costs

variable {cost : Op → Nat} {total larger : Nat} {program : Program Op Answer α}

theorem mono (costs : program.Costs cost total) (least : total ≤ larger) : program.Costs cost larger := by
  cases costs with
  | done value => exact .done value
  | step enough goesOn => exact .step (enough.trans least) goesOn

theorem perform (op : Op) : (Program.perform op : Program Op Answer (Answer op)).Costs cost (cost op) :=
  @step _ _ _ _ _ _ 0 _ (Nat.le_refl _) fun answer => .done answer

theorem bind {continued : α → Program Op Answer β} (rest : Nat) (first : program.Costs cost total)
    (later : ∀ value, (continued value).Costs cost rest) :
    (program >>= continued).Costs cost (total + rest) := by
  induction first with
  | done value => exact (later value).mono (Nat.le_add_left ..)
  | step enough _ ih => exact .step (by omega) ih

theorem map {f : α → β} (costs : program.Costs cost total) : (f <$> program).Costs cost total :=
  bind 0 costs fun value => .done (f value)

/-- After a failure nothing more is performed. -/
theorem bind_ok (rest : Nat) {first : ExceptT ε (Program Op Answer) α} {continued : α → ExceptT ε (Program Op Answer) β}
    (costs : first.run.Costs cost total) (later : ∀ value, (continued value).run.Costs cost rest) :
    (first >>= continued).run.Costs cost (total + rest) := by
  rw [ExceptT.run_bind]
  refine bind rest costs fun result => ?_
  cases result with
  | ok value => exact later value
  | error error => exact .done _

theorem interpret {cost' : Op' → Nat} {lower : (op : Op) → Program Op' Answer' (Answer op)}
    (each : ∀ op, (lower op).Costs cost' (cost op)) (costs : program.Costs cost total) :
    (program.interpret lower).Costs cost' total := by
  induction costs with
  | done value => exact .done value
  | step enough _ ih => exact ((each _).bind _ ih).mono enough

end Costs

end Program

variable {Op : Type} {Answer : Op → Type} {sys : System Op Answer} {ok : sys.Config → sys.Label → Prop}
  {config last : sys.Config} {labels : List sys.Label} {limit : Nat}

def System.Label.isInvoke : sys.Label → Bool
  | .invoke _ _ => true
  | _ => false

def System.Label.isAct : sys.Label → Bool
  | .act _ _ => true
  | _ => false

/-- How many operations a call has performed. -/
def System.Thread.performed (thread : sys.Thread) : Nat := thread.past.length

/-- What a call has performed and what it still can stay within the limit. -/
def Affordable (limit : Nat) (config : sys.Config) : Prop :=
  ∀ tid thread, config.threads tid = some thread →
    ∃ left, thread.past.length + left ≤ limit ∧ thread.rest.Costs (fun _ => 1) left

theorem Affordable.step {label : sys.Label} (bounded : ∀ call, (sys.code call).Costs (fun _ => 1) limit)
    (affordable : Affordable limit config) (step : Step config label last) : Affordable limit last := by
  cases step with
  | @invoke tid call free =>
      intro other thread found
      rcases find_update found with ⟨_, rfl⟩ | ⟨_, before⟩
      · exact ⟨limit, by simp, bounded call⟩
      · exact affordable other thread before
  | @act tid call past op next answer shared running performed =>
      intro other thread found
      rcases find_update found with ⟨_, rfl⟩ | ⟨_, before⟩
      · obtain ⟨left, within, costs⟩ := affordable tid _ running
        cases costs with
        | @step _ _ rest _ enough goesOn =>
            refine ⟨rest, ?_, goesOn answer⟩
            simp only [List.length_append, List.length_singleton] at within ⊢
            omega
      · exact affordable other thread before
  | drift changed => exact affordable

/-- The calls that were made, and the operations they have performed, as the labels
have them. -/
structure Counted (labels : List sys.Label) (config : sys.Config) (made : Finset Nat) : Prop where
  calls : made.card = labels.countP Label.isInvoke
  roster : Roster made config.threads
  acts : labels.countP Label.isAct = ∑ tid ∈ made, tally Thread.performed config.threads tid

theorem Counted.step {label : sys.Label} {made : Finset Nat} (counted : Counted labels config made)
    (step : Step config label last) : ∃ made', Counted (labels ++ [label]) last made' := by
  cases step with
  | @invoke tid call free =>
      refine ⟨insert tid made, ?_, counted.roster.enter, ?_⟩
      · have fresh : tid ∉ made := (counted.roster tid).mpr free
        simp [Finset.card_insert_of_notMem fresh, counted.calls, Label.isInvoke]
      · rw [counted.roster.sum_enter free, List.countP_append, counted.acts]
        simp [Label.isAct, Thread.performed]
  | @act tid call past op next answer shared running performed =>
      refine ⟨made, ?_, counted.roster.move running, ?_⟩
      · simp [counted.calls, Label.isInvoke]
      · have moved := @Roster.sum_move _ _ _ Thread.performed _ _ _
          ⟨call, past ++ [⟨op, answer⟩], next answer⟩ _ counted.roster running
        rw [List.countP_append, counted.acts]
        simp only [Thread.performed, List.length_append, List.length_singleton] at moved
        simp [Label.isAct]
        omega
  | drift changed =>
      refine ⟨made, ?_, counted.roster, ?_⟩
      · simp [counted.calls, Label.isInvoke]
      · rw [List.countP_append, counted.acts]
        simp [Label.isAct]

/-- What is counted along a run from the start. -/
theorem counted_of_run {state : sys.State} (bounded : ∀ call, (sys.code call).Costs (fun _ => 1) limit)
    (run : RunWhere ok (Config.start state) labels last) :
    Affordable limit last ∧ ∃ made, Counted labels last made := by
  induction run with
  | refl => exact ⟨fun tid thread found => (Option.some_ne_none _ found.symm).elim, ∅, rfl, .start state, rfl⟩
  | snoc _ _ step ih =>
      obtain ⟨affordable, made, counted⟩ := ih
      exact ⟨affordable.step bounded step, counted.step step⟩

/-- When every call has a limit, a run has at most that many steps for each call that
was made. -/
theorem acts_le_of_costs {state : sys.State} (bounded : ∀ call, (sys.code call).Costs (fun _ => 1) limit)
    (run : RunWhere ok (Config.start state) labels last) :
    labels.countP Label.isAct ≤ limit * labels.countP Label.isInvoke := by
  obtain ⟨affordable, made, counted⟩ := counted_of_run bounded run
  have each : ∀ tid ∈ made, tally Thread.performed last.threads tid ≤ limit := by
    intro tid _
    cases found : last.threads tid with
    | none => simp [found]
    | some thread =>
        obtain ⟨left, within, _⟩ := affordable tid thread found
        rw [tally_of_some found, Thread.performed]
        omega
  rw [counted.acts, ← counted.calls, Nat.mul_comm]
  exact Finset.sum_le_card_nsmul made _ limit each

end TariVault
