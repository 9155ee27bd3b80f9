import Mathlib.Algebra.BigOperators.Group.Finset.Basic
import Mathlib.Algebra.BigOperators.Group.Finset.Piecewise
import TariVault.Program.Interleaving

namespace TariVault

open Program TariVault.System

/-! # Sums over the calls of a run

At any time finitely many calls have been made. What each of them counts for adds up,
and the sum changes only by the call that moves.
-/

variable {Op : Type} {Answer : Op → Type} {sys : System Op Answer} {weight : sys.Thread → Nat}
  {threads : Nat → Option sys.Thread} {made : Finset Nat} {tid : Nat} {thread before : sys.Thread}

/-- `made` are the calls that are there. -/
def Roster (made : Finset Nat) (threads : Nat → Option sys.Thread) : Prop :=
  ∀ tid, tid ∉ made ↔ threads tid = none

/-- What each call counts for. -/
def tally (weight : sys.Thread → Nat) (threads : Nat → Option sys.Thread) : Nat → Nat :=
  (fun thread => thread.elim 0 weight) ∘ threads

@[simp] theorem tally_of_some (found : threads tid = some thread) : tally weight threads tid = weight thread := by
  simp [tally, found]

@[simp] theorem tally_of_none (free : threads tid = none) : tally weight threads tid = 0 := by
  simp [tally, free]

theorem tally_update :
    tally weight (Function.update threads tid (some thread)) =
      Function.update (tally weight threads) tid (weight thread) :=
  Function.comp_update ..

namespace Roster

theorem start (state : sys.State) : Roster ∅ (Config.start state).threads := by
  simp [Roster, Config.start]

theorem member (roster : Roster made threads) (found : threads tid = some thread) : tid ∈ made := by
  by_contra absent
  rw [(roster tid).mp absent] at found
  contradiction

theorem enter (roster : Roster made threads) :
    Roster (insert tid made) (Function.update threads tid (some thread)) := by
  intro other
  by_cases same : other = tid
  · simp [same]
  · simp [same, roster other]

theorem move (roster : Roster made threads) (found : threads tid = some before) :
    Roster made (Function.update threads tid (some thread)) := by
  have entered := @enter _ _ _ _ _ tid thread roster
  rwa [Finset.insert_eq_of_mem (roster.member found)] at entered

theorem sum_enter (roster : Roster made threads) (free : threads tid = none) :
    ∑ other ∈ insert tid made, tally weight (Function.update threads tid (some thread)) other =
      weight thread + ∑ other ∈ made, tally weight threads other := by
  have fresh : tid ∉ made := (roster tid).mpr free
  rw [tally_update, Finset.sum_insert fresh, Finset.sum_update_of_notMem fresh, Function.update_self]

theorem sum_move (roster : Roster made threads) (found : threads tid = some before) :
    ∑ other ∈ made, tally weight (Function.update threads tid (some thread)) other + weight before =
      ∑ other ∈ made, tally weight threads other + weight thread := by
  have member := roster.member found
  rw [tally_update, Finset.sum_update_of_mem member, ← Finset.add_sum_erase made _ member,
    Finset.sdiff_singleton_eq_erase, tally_of_some found]
  omega

end Roster

end TariVault
