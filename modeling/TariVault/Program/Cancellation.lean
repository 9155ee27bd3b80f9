import Mathlib.Data.Set.Insert
import Mathlib.Logic.Function.Basic

namespace TariVault

/-! # Cancellation that is handed down

A token is made from another one, or from none. Cancelling a token cancels the tokens
made from it, those made from these, and no others, also the ones that are made later.
-/

/-- Tokens with their ancestors. -/
structure TokenForest (Token : Type) where
  /-- The token itself and all that it was made from; nothing when there is no such token. -/
  lineage : Token → Set Token
  cancelled : Set Token
  closed : ∀ {token ancestor}, ancestor ∈ lineage token → ancestor ∈ lineage ancestor
  cancelled_there : ∀ {token}, token ∈ cancelled → token ∈ lineage token

namespace TokenForest

variable {Token : Type} {forest : TokenForest Token} {token other parent new : Token}

/-- There is such a token. -/
def There (forest : TokenForest Token) (token : Token) : Prop := token ∈ forest.lineage token

def IsCancelled (forest : TokenForest Token) (token : Token) : Prop :=
  ∃ ancestor ∈ forest.lineage token, ancestor ∈ forest.cancelled

/-- `after` has one more token, made from `parent`. -/
structure Child (forest : TokenForest Token) (parent new : Token) (after : TokenForest Token) : Prop where
  fresh : ∀ token, new ∉ forest.lineage token
  lineage_new : after.lineage new = insert new (forest.lineage parent)
  lineage_of_ne : ∀ token, token ≠ new → after.lineage token = forest.lineage token
  cancelled : after.cancelled = forest.cancelled

/-- In `after`, `token` is cancelled. -/
structure Cancels (forest : TokenForest Token) (token : Token) (after : TokenForest Token) : Prop where
  lineage : after.lineage = forest.lineage
  cancelled : after.cancelled = insert token forest.cancelled

variable {after : TokenForest Token}

theorem Cancels.isCancelled_iff (cancels : forest.Cancels token after) :
    after.IsCancelled other ↔ token ∈ forest.lineage other ∨ forest.IsCancelled other := by
  rw [IsCancelled, cancels.lineage, cancels.cancelled]
  constructor
  · intro holds
    obtain ⟨ancestor, member, same | old⟩ := holds
    · rw [same] at member
      exact .inl member
    · exact .inr ⟨ancestor, member, old⟩
  · intro holds
    rcases holds with here | ⟨ancestor, member, old⟩
    · exact ⟨token, here, Set.mem_insert ..⟩
    · exact ⟨ancestor, member, Set.mem_insert_of_mem _ old⟩

theorem Child.ne_of_there (child : forest.Child parent new after) (there : forest.There token) : token ≠ new := by
  intro same
  rw [same] at there
  exact child.fresh _ there

theorem Child.isCancelled_of_ne (child : forest.Child parent new after) (different : token ≠ new) :
    after.IsCancelled token ↔ forest.IsCancelled token := by
  rw [IsCancelled, child.lineage_of_ne token different, child.cancelled]
  rfl

end TokenForest

end TariVault
