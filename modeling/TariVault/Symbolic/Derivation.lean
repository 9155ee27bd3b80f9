import Mathlib.Data.Set.Insert

namespace TariVault.Symbolic

/-! # Terms and what an observer derives from them

Terms are built from atoms by pairing and authenticated encryption. An observer splits
pairs, and opens an encryption when it derives the key. Secret atoms that stand only
under encryptions with secret keys are never derived.
-/

inductive Term (α : Type) where
  | atom (value : α)
  | pair (left right : Term α)
  | enc (key nonce message : Term α)
deriving DecidableEq

inductive Derivable {α : Type} (known : Set (Term α)) : Term α → Prop where
  | known {term} (member : term ∈ known) : Derivable known term
  | pair {left right} (first : Derivable known left) (second : Derivable known right) :
      Derivable known (.pair left right)
  | left {left right} (whole : Derivable known (.pair left right)) : Derivable known left
  | right {left right} (whole : Derivable known (.pair left right)) : Derivable known right
  | enc {key nonce message} (withKey : Derivable known key) (withNonce : Derivable known nonce)
      (plain : Derivable known message) : Derivable known (.enc key nonce message)
  | opened {key nonce message} (withKey : Derivable known key)
      (sealed : Derivable known (.enc key nonce message)) : Derivable known message

variable {α : Type} {known known' : Set (Term α)} {term : Term α} {secret : Set α}

theorem Derivable.mono (grows : known ⊆ known') (derivable : Derivable known term) : Derivable known' term := by
  induction derivable with
  | known member => exact .known (grows member)
  | pair _ _ first second => exact .pair first second
  | left _ whole => exact whole.left
  | right _ whole => exact whole.right
  | enc _ _ _ withKey withNonce plain => exact .enc withKey withNonce plain
  | opened _ _ withKey sealed => exact .opened withKey sealed

namespace Term

/-- Some atom of the term is in `atoms`. -/
def Mentions (atoms : Set α) : Term α → Prop
  | .atom value => value ∈ atoms
  | .pair left right => left.Mentions atoms ∨ right.Mentions atoms
  | .enc key nonce message => key.Mentions atoms ∨ nonce.Mentions atoms ∨ message.Mentions atoms

theorem mentions_iff {atoms : Set α} : term.Mentions atoms ↔ ∃ value ∈ atoms, term.Mentions {value} := by
  induction term with
  | atom value => simp [Mentions]
  | pair left right first second => simp [Mentions, first, second, and_or_left, exists_or]
  | enc key nonce message withKey withNonce plain =>
      simp [Mentions, withKey, withNonce, plain, and_or_left, exists_or]

def IsSecretKey (secret : Set α) (key : Term α) : Prop := ∃ value ∈ secret, key = .atom value

/-- Every secret of the term is sealed under a secret key. -/
def Guards (secret : Set α) : Term α → Prop
  | .atom value => value ∉ secret
  | .pair left right => left.Guards secret ∧ right.Guards secret
  | .enc key _ message => key.IsSecretKey secret ∨ message.Guards secret

theorem guards_of_not_mentions (unmentioned : ¬ term.Mentions secret) : term.Guards secret := by
  induction term with
  | atom value => exact unmentioned
  | pair left right first second =>
      exact ⟨first fun mentioned => unmentioned (.inl mentioned),
        second fun mentioned => unmentioned (.inr mentioned)⟩
  | enc key nonce message _ _ plain =>
      exact .inr (plain fun mentioned => unmentioned (.inr (.inr mentioned)))

/-- A guarded key is not a secret one, so what it opens is guarded. -/
theorem Guards.opened {key nonce message : Term α} (withKey : key.Guards secret)
    (sealed : (Term.enc key nonce message).Guards secret) : message.Guards secret := by
  rcases sealed with ⟨value, isSecret, rfl⟩ | plain
  · exact absurd isSecret withKey
  · exact plain

end Term

theorem Derivable.guards (safe : ∀ term ∈ known, term.Guards secret) (derivable : Derivable known term) :
    term.Guards secret := by
  induction derivable with
  | known member => exact safe _ member
  | pair _ _ first second => exact ⟨first, second⟩
  | left _ whole => exact whole.1
  | right _ whole => exact whole.2
  | enc _ _ _ _ _ plain => exact .inr plain
  | opened _ _ withKey sealed => exact withKey.opened sealed

/-- No secret is derived from guarded terms. -/
theorem not_derivable_of_secret (safe : ∀ term ∈ known, term.Guards secret) {value : α}
    (isSecret : value ∈ secret) : ¬ Derivable known (.atom value) :=
  fun derivable => derivable.guards safe isSecret

end TariVault.Symbolic
