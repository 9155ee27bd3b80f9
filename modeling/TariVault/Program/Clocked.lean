import Mathlib.Order.Defs.PartialOrder
import TariVault.Program.Interleaving

namespace TariVault

open Program TariVault.System

/-! # Systems with a clock

A clock that does not go back shows every call a value that is not before its
invocation.
-/

variable {Op : Type} {Answer : Op → Type} {τ : Type} [Preorder τ]

namespace System.RunWhere

variable {sys : System Op Answer} {ok : sys.Config → sys.Label → Prop} {first last : sys.Config}
  {labels : List sys.Label}

/-- Whoever acts in a run is there at its end. -/
theorem actors {there : Nat → Prop} (run : RunWhere ok first labels last)
    (ends : ∀ tid thread, last.threads tid = some thread → there tid) :
    RunWhere (fun config label => ok config label ∧ ∀ tid event, label = .act tid event → there tid)
      first labels last := by
  induction run with
  | refl => exact .refl _
  | @snoc labels config label last run allowed step ih =>
      have before : ∀ tid thread, config.threads tid = some thread → there tid := by
        intro tid thread found
        obtain ⟨later, _, foundLater, _⟩ := step.thread_stable found
        exact ends tid later foundLater
      refine .snoc (ih before) ⟨allowed, fun tid event same => ?_⟩ step
      cases step with
      | act running _ =>
          cases same
          exact before _ _ running
      | _ => contradiction

/-- What every step keeps holds throughout, and may be used at every step. -/
theorem along {ok' : sys.Config → sys.Label → Prop} {property : sys.Config → Prop}
    (run : RunWhere ok first labels last) (initial : property first)
    (kept : ∀ config label last, property config → ok config label → Step config label last →
      property last ∧ ok' config label) : property last ∧ RunWhere ok' first labels last := by
  induction run with
  | refl => exact ⟨initial, .refl _⟩
  | snoc _ allowed step ih =>
      obtain ⟨holds, ran⟩ := ih
      obtain ⟨holds', allowed'⟩ := kept _ _ _ holds allowed step
      exact ⟨holds', .snoc ran allowed' step⟩

end System.RunWhere

/-- The allowed steps do not move the clock back, and whoever reads it is shown its
value. -/
structure Clocked (sys : System Op Answer) (clock : sys.State → τ) (reading : τ → Event Answer)
    (ok : sys.Config → sys.Label → Prop) : Prop where
  forward : ∀ config label last, ok config label → Step config label last → clock config.shared ≤ clock last.shared
  shows : ∀ tid state now state', sys.act tid state (reading now) state' → now = clock state

/-- A call that was not there at `middle` is shown the clock of then or later. -/
def Since {sys : System Op Answer} (clock : sys.State → τ) (middle : sys.Config) (tid : Nat) (now : τ) : Prop :=
  middle.threads tid = none → clock middle.shared ≤ now

namespace Clocked

variable {sys : System Op Answer} {clock : sys.State → τ} {reading : τ → Event Answer}
  {ok ok' : sys.Config → sys.Label → Prop} {first middle last : sys.Config} {labels : List sys.Label}

/-- Up to `middle` only calls that are there have read the clock. -/
theorem before (run : RunWhere ok first labels middle)
    (enough : ∀ config label, ok config label →
      (∀ tid now, label = .act tid (reading now) → Since clock middle tid now) → ok' config label) :
    RunWhere ok' first labels middle := by
  have there : ∀ tid thread, middle.threads tid = some thread → middle.threads tid ≠ none := by simp_all
  refine (run.actors there).weaken fun config label allowed => ?_
  exact enough config label allowed.1 fun tid now same free => absurd free (allowed.2 tid _ same)

/-- From then on the clock is what it was then, or later. -/
theorem after (clocked : Clocked sys clock reading ok) (run : RunWhere ok middle labels last)
    (enough : ∀ config label, ok config label →
      (∀ tid now, label = .act tid (reading now) → Since clock middle tid now) → ok' config label) :
    RunWhere ok' middle labels last := by
  refine (@RunWhere.along _ _ _ _ _ _ _ _ (fun config : sys.Config => clock middle.shared ≤ clock config.shared)
    run (le_refl _) ?_).2
  intro config label last reached allowed step
  refine ⟨le_trans reached (clocked.forward _ _ _ allowed step), enough config label allowed fun tid now same _ => ?_⟩
  cases step with
  | act running performed =>
      injection same with _ shown
      rw [shown] at performed
      rw [clocked.shows _ _ _ _ performed]
      exact reached
  | _ => contradiction

end Clocked

end TariVault
