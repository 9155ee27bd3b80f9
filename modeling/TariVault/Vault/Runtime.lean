import TariVault.Program.Cancellation
import TariVault.Program.Ticks

namespace TariVault

/-! # What the periodic cleanup uses of its runtime

Cancellation tokens and a timer with `MissedTickBehavior::Skip`.
-/

/-- What is used of `CancellationToken`. -/
structure Cancellation where
  Token : Type
  State : Type
  childToken : State → Token → Token × State
  cancel : State → Token → State
  isCancelled : State → Token → Bool

/-- Tokens are cancelled with the tokens they were made from. -/
structure Cancellation.Documented (tokens : Cancellation) (forest : tokens.State → TokenForest tokens.Token) :
    Prop where
  childToken : ∀ {state parent}, (forest state).There parent →
    (forest state).Child parent (tokens.childToken state parent).1 (forest (tokens.childToken state parent).2)
  cancel : ∀ {state token}, (forest state).There token →
    (forest state).Cancels token (forest (tokens.cancel state token))
  isCancelled : ∀ {state token}, tokens.isCancelled state token = true ↔ (forest state).IsCancelled token

/-- What is used of the runtime: `next` is `MissedTickBehavior::Skip`. -/
structure Runtime where
  tokens : Cancellation
  next : (period deadline now : Nat) → Nat

/-- The tokens made so far, each with its ancestors. -/
structure TokenTable where
  count : Nat
  lineage : Nat → List Nat
  cancelled : List Nat
  bounded : ∀ {token ancestor}, ancestor ∈ lineage token → ancestor < count ∧ token < count
  closed : ∀ {token ancestor}, ancestor ∈ lineage token → ancestor ∈ lineage ancestor
  cancelled_there : ∀ {token}, token ∈ cancelled → token ∈ lineage token

namespace TokenTable

variable {table : TokenTable} {token ancestor : Nat}

/-- One token. -/
def root : TokenTable where
  count := 1
  lineage token := if token = 0 then [0] else []
  cancelled := []
  bounded := by
    intro token ancestor member
    by_cases same : token = 0 <;> simp_all
  closed := by
    intro token ancestor member
    by_cases same : token = 0 <;> simp_all
  cancelled_there := by simp

theorem mem_child (parent : Nat) :
    ancestor ∈ Function.update table.lineage table.count (table.count :: table.lineage parent) token ↔
      token = table.count ∧ (ancestor = table.count ∨ ancestor ∈ table.lineage parent) ∨
        ancestor ∈ table.lineage token := by
  by_cases same : token = table.count
  · subst same
    have unused : ancestor ∉ table.lineage table.count := fun member =>
      Nat.lt_irrefl _ (table.bounded member).2
    simp [unused]
  · simp [same]

def childToken (table : TokenTable) (parent : Nat) : TokenTable where
  count := table.count + 1
  lineage := Function.update table.lineage table.count (table.count :: table.lineage parent)
  cancelled := table.cancelled
  bounded := by
    intro token ancestor member
    rcases (mem_child parent).mp member with ⟨rfl, rfl | old⟩ | old
    · exact ⟨Nat.lt_succ_self _, Nat.lt_succ_self _⟩
    · exact ⟨Nat.lt_succ_of_lt (table.bounded old).1, Nat.lt_succ_self _⟩
    · exact ⟨Nat.lt_succ_of_lt (table.bounded old).1, Nat.lt_succ_of_lt (table.bounded old).2⟩
  closed := by
    intro token ancestor member
    rcases (mem_child parent).mp member with ⟨rfl, rfl | old⟩ | old
    · exact (mem_child parent).mpr (.inl ⟨rfl, .inl rfl⟩)
    · exact (mem_child parent).mpr (.inr (table.closed old))
    · exact (mem_child parent).mpr (.inr (table.closed old))
  cancelled_there member := (mem_child parent).mpr (.inr (table.cancelled_there member))

def cancel (table : TokenTable) (token : Nat) : TokenTable :=
  if there : token ∈ table.lineage token then
    { table with
      cancelled := token :: table.cancelled
      cancelled_there := fun member => by
        rcases List.mem_cons.mp member with rfl | old
        · exact there
        · exact table.cancelled_there old }
  else table

def isCancelled (table : TokenTable) (token : Nat) : Bool :=
  (table.lineage token).any fun ancestor => table.cancelled.contains ancestor

def forest (table : TokenTable) : TokenForest Nat where
  lineage token := { ancestor | ancestor ∈ table.lineage token }
  cancelled := { token | token ∈ table.cancelled }
  closed := table.closed
  cancelled_there := table.cancelled_there

theorem forest_child (table : TokenTable) (parent : Nat) :
    table.forest.Child parent table.count (table.childToken parent).forest where
  fresh _ member := Nat.lt_irrefl _ (table.bounded member).1
  lineage_new := by
    refine Set.ext fun ancestor => (mem_child parent).trans ?_
    have unused : ancestor ∉ table.lineage table.count := fun member => Nat.lt_irrefl _ (table.bounded member).2
    simp [unused, forest]
  lineage_of_ne token different := by
    refine Set.ext fun ancestor => (mem_child parent).trans ?_
    simp [different, forest]
  cancelled := rfl

theorem forest_cancels (there : token ∈ table.lineage token) :
    table.forest.Cancels token (table.cancel token).forest := by
  rw [cancel, dif_pos there]
  exact ⟨rfl, Set.ext fun other => List.mem_cons⟩

theorem isCancelled_iff : table.isCancelled token = true ↔ table.forest.IsCancelled token := by
  simp [isCancelled, TokenForest.IsCancelled, forest]

end TokenTable

def Cancellation.concrete : Cancellation where
  Token := Nat
  State := TokenTable
  childToken table parent := (table.count, table.childToken parent)
  cancel := TokenTable.cancel
  isCancelled := TokenTable.isCancelled

theorem Cancellation.concrete_documented : Cancellation.concrete.Documented TokenTable.forest where
  childToken _ := TokenTable.forest_child ..
  cancel there := TokenTable.forest_cancels there
  isCancelled := TokenTable.isCancelled_iff

/-- A delay of up to five milliseconds is no missed tick. -/
def skipMissed (period deadline now : Nat) : Nat :=
  if now ≤ deadline + 5000000 then deadline + period else now + period - (now - deadline) % period

theorem skipMissed_skips : Skips 5000000 skipMissed where
  multiple {period deadline now} positive due := by
    rw [skipMissed]
    split
    · exact ⟨1, Nat.one_pos, by rw [Nat.one_mul]⟩
    · refine ⟨(now - deadline) / period + 1, Nat.succ_pos _, ?_⟩
      have divided := Nat.div_add_mod (now - deadline) period
      rw [Nat.add_mul, Nat.one_mul, Nat.mul_comm]
      omega
  caughtUp {period deadline now} enough due := by
    rw [skipMissed]
    split
    · omega
    · have below := Nat.mod_lt (now - deadline) (Nat.lt_of_lt_of_le (by decide : 0 < 5000000) enough)
      omega

def Runtime.concrete : Runtime where
  tokens := .concrete
  next := skipMissed

end TariVault
