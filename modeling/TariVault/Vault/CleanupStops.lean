import TariVault.Vault.CleanupTask

namespace TariVault

open Program

/-! # What stops a cleanup task

Its `stop`, or a token of the host application above its own. Stopping it cancels no
other token.
-/

namespace Daemon

variable {Op : Type} {Answer : Op → Type} {sys : System Op Answer} {runtime : Runtime} {cleaning : Cleaning sys}
  {daemon first middle last : Daemon sys runtime} {task task' : CleanupTask runtime.tokens.Token}
  {id tid : Nat} {vaults : sys.Config} {label : Label sys runtime} {labels labels' : List (Label sys runtime)}
  {forest : runtime.tokens.State → TokenForest runtime.tokens.Token}

/-- The token a task was given, and its own. -/
def bond (daemon : Daemon sys runtime) (id : Nat) : Option (runtime.tokens.Token × runtime.tokens.Token) :=
  (daemon.tasks id).map fun task => (task.parent, task.cancel)

/-- What a step does to the tokens and to those who have them. -/
inductive Hands (daemon : Daemon sys runtime) : Label sys runtime → Daemon sys runtime → Prop where
  | nothing {label : Label sys runtime} {last : Daemon sys runtime}
      (other : (∀ token, label ≠ .cancel token) ∧ ∀ id, label ≠ .stop id) (tokens : last.tokens = daemon.tokens)
      (hosts : last.hosts = daemon.hosts) (bond : last.bond = daemon.bond) :
      Hands daemon label last
  | childToken {parent} {last : Daemon sys runtime} (held : parent ∈ daemon.hosts)
      (tokens : last.tokens = (runtime.tokens.childToken daemon.tokens parent).2)
      (hosts : last.hosts = (runtime.tokens.childToken daemon.tokens parent).1 :: daemon.hosts)
      (bond : last.bond = daemon.bond) : Hands daemon (.childToken parent) last
  | cancel {token} {last : Daemon sys runtime} (held : token ∈ daemon.hosts)
      (tokens : last.tokens = runtime.tokens.cancel daemon.tokens token) (hosts : last.hosts = daemon.hosts)
      (bond : last.bond = daemon.bond) : Hands daemon (.cancel token) last
  | spawn {id interval parent} {last : Daemon sys runtime} (held : parent ∈ daemon.hosts) (free : daemon.bond id = none)
      (tokens : last.tokens = (runtime.tokens.childToken daemon.tokens parent).2)
      (hosts : last.hosts = daemon.hosts)
      (bond : last.bond = Function.update daemon.bond id
        (some (parent, (runtime.tokens.childToken daemon.tokens parent).1))) :
      Hands daemon (.spawn id interval parent) last
  | stop {id parent token} {last : Daemon sys runtime} (found : daemon.bond id = some (parent, token))
      (tokens : last.tokens = runtime.tokens.cancel daemon.tokens token) (hosts : last.hosts = daemon.hosts)
      (bond : last.bond = daemon.bond) : Hands daemon (.stop id) last

theorem Polled.bond_eq (polled : Polled cleaning daemon tid task task' vaults) :
    (task'.parent, task'.cancel) = (task.parent, task.cancel) := by
  cases polled <;> rfl

theorem bond_update {tasks : Nat → Option (CleanupTask runtime.tokens.Token)} :
    (fun other => (Function.update tasks id (some task) other).map fun task => (task.parent, task.cancel)) =
      Function.update (fun other => (tasks other).map fun task => (task.parent, task.cancel)) id
        (some (task.parent, task.cancel)) := by
  refine funext fun other => ?_
  by_cases same : other = id
  · subst same
    simp
  · simp [same]

theorem Step.hands (step : Step cleaning daemon label last) : Hands daemon label last := by
  cases step with
  | vault step => exact .nothing (by simp) rfl rfl rfl
  | pass later => exact .nothing (by simp) rfl rfl rfl
  | childToken held => exact .childToken held rfl rfl rfl
  | cancel held => exact .cancel held rfl rfl rfl
  | spawn interval free held => exact .spawn held (by rw [bond, free]; rfl) rfl rfl bond_update
  | stop found => exact .stop (by rw [bond, found]; rfl) rfl rfl rfl
  | @poll id task tid task' vaults logs found polled =>
      refine .nothing (by simp) rfl rfl ?_
      have same : daemon.bond = Function.update daemon.bond id (some (task.parent, task.cancel)) := by
        refine (Function.update_eq_self_iff.mpr ?_).symm
        rw [bond, found]
        rfl
      rw [same, ← (poll_inv polled).bond_eq]
      exact bond_update

/-- The host application and the tasks have tokens of their own, and nothing is made from
the token of a task. -/
structure Owned (forest : runtime.tokens.State → TokenForest runtime.tokens.Token) (first daemon : Daemon sys runtime) :
    Prop where
  hosts : ∀ token ∈ daemon.hosts, (forest daemon.tokens).There token
  parent : ∀ {id parent token}, daemon.bond id = some (parent, token) → parent ∈ daemon.hosts
  lineage : ∀ {id parent token}, daemon.bond id = some (parent, token) →
    (forest daemon.tokens).lineage token = insert token ((forest daemon.tokens).lineage parent)
  leaf : ∀ {id parent token}, daemon.bond id = some (parent, token) →
    ∀ other, token ∈ (forest daemon.tokens).lineage other → other = token
  own : ∀ {id parent token}, daemon.bond id = some (parent, token) → token ∉ daemon.hosts
  distinct : ∀ {id id' parent parent' token}, daemon.bond id = some (parent, token) →
    daemon.bond id' = some (parent', token) → id = id'
  old : ∀ token, (forest first.tokens).There token → (forest daemon.tokens).There token
  new : ∀ {id parent token}, daemon.bond id = some (parent, token) → ¬ (forest first.tokens).There token

theorem owned_start (fresh : ∀ id, first.tasks id = none)
    (hosts : ∀ token ∈ first.hosts, (forest first.tokens).There token) : Owned forest first first where
  hosts := hosts
  parent := by simp [bond, fresh]
  lineage := by simp [bond, fresh]
  leaf := by simp [bond, fresh]
  own := by simp [bond, fresh]
  distinct := by simp [bond, fresh]
  old _ := id
  new := by simp [bond, fresh]

theorem Owned.there (owned : Owned forest first daemon) {parent token : runtime.tokens.Token}
    (bound : daemon.bond id = some (parent, token)) : (forest daemon.tokens).There token := by
  rw [TokenForest.There, owned.lineage bound]
  exact Set.mem_insert ..

/-- No token is made. -/
theorem Owned.same (owned : Owned forest first daemon)
    (lineage : (forest last.tokens).lineage = (forest daemon.tokens).lineage) (hosts : last.hosts = daemon.hosts)
    (bond : last.bond = daemon.bond) : Owned forest first last := by
  have there (token) : (forest last.tokens).There token ↔ (forest daemon.tokens).There token := by
    rw [TokenForest.There, lineage]
    rfl
  constructor
  all_goals simp only [there, lineage, hosts, bond]
  · exact owned.hosts
  · exact owned.parent
  · exact owned.lineage
  · exact owned.leaf
  · exact owned.own
  · exact owned.distinct
  · exact owned.old
  · exact owned.new

/-- What is there already keeps its lineage, and a new token is nobody's ancestor but its
own. -/
structure Extends (forest : runtime.tokens.State → TokenForest runtime.tokens.Token) (daemon last : Daemon sys runtime)
    (parent new : runtime.tokens.Token) : Prop where
  there : ∀ token, (forest daemon.tokens).There token → (forest last.tokens).There token
  lineage : ∀ token, (forest daemon.tokens).There token →
    (forest last.tokens).lineage token = (forest daemon.tokens).lineage token
  ancestor : ∀ token other, (forest daemon.tokens).There token → token ∈ (forest last.tokens).lineage other →
    token ∈ (forest daemon.tokens).lineage other ∨ other = new ∧ token ∈ (forest daemon.tokens).lineage parent
  made : (forest last.tokens).lineage new = insert new ((forest daemon.tokens).lineage parent)
  leaf : ∀ other, new ∈ (forest last.tokens).lineage other → other = new
  fresh : ¬ (forest daemon.tokens).There new

theorem extends_of_child {parent new : runtime.tokens.Token}
    (child : (forest daemon.tokens).Child parent new (forest last.tokens)) : Extends forest daemon last parent new where
  there token there := by
    rw [TokenForest.There, child.lineage_of_ne token (child.ne_of_there there)]
    exact there
  lineage token there := child.lineage_of_ne token (child.ne_of_there there)
  ancestor token other there member := by
    by_cases same : other = new
    · subst same
      rw [child.lineage_new] at member
      exact .inr ⟨rfl, (Set.mem_insert_iff.mp member).resolve_left (child.ne_of_there there)⟩
    · rw [child.lineage_of_ne other same] at member
      exact .inl member
  made := child.lineage_new
  leaf other member := by
    by_contra different
    rw [child.lineage_of_ne other different] at member
    exact child.fresh other member
  fresh := child.fresh new

/-- The host application makes a token. -/
theorem Owned.childToken (owned : Owned forest first daemon) {parent new : runtime.tokens.Token}
    (held : parent ∈ daemon.hosts) (extends' : Extends forest daemon last parent new)
    (hosts : last.hosts = new :: daemon.hosts) (bond : last.bond = daemon.bond) : Owned forest first last where
  hosts := by
    rw [hosts]
    refine List.forall_mem_cons.mpr ⟨?_, fun token member => extends'.there token (owned.hosts token member)⟩
    rw [TokenForest.There, extends'.made]
    exact Set.mem_insert ..
  parent bound := by
    rw [bond] at bound
    rw [hosts]
    exact List.mem_cons_of_mem _ (owned.parent bound)
  lineage bound := by
    rw [bond] at bound
    rw [extends'.lineage _ (owned.there bound), extends'.lineage _ (owned.hosts _ (owned.parent bound))]
    exact owned.lineage bound
  leaf bound other member := by
    rw [bond] at bound
    rcases extends'.ancestor _ other (owned.there bound) member with old | ⟨_, above⟩
    · exact owned.leaf bound other old
    · have same := owned.leaf bound parent above
      rw [same] at held
      exact absurd held (owned.own bound)
  own bound := by
    rw [bond] at bound
    rw [hosts, List.mem_cons, not_or]
    refine ⟨fun same => ?_, owned.own bound⟩
    have there := owned.there bound
    rw [same] at there
    exact extends'.fresh there
  distinct bound bound' := by
    rw [bond] at bound bound'
    exact owned.distinct bound bound'
  old token there := extends'.there token (owned.old token there)
  new bound := by
    rw [bond] at bound
    exact owned.new bound

/-- A task is spawned with a token. -/
theorem Owned.spawn (owned : Owned forest first daemon) {parent new : runtime.tokens.Token}
    (held : parent ∈ daemon.hosts) (extends' : Extends forest daemon last parent new)
    (hosts : last.hosts = daemon.hosts)
    (bond : last.bond = Function.update daemon.bond id (some (parent, new))) : Owned forest first last := by
  have bound_inv {other : Nat} {parent' token : runtime.tokens.Token}
      (bound : last.bond other = some (parent', token)) :
      other = id ∧ parent' = parent ∧ token = new ∨ other ≠ id ∧ daemon.bond other = some (parent', token) := by
    rw [bond] at bound
    by_cases same : other = id
    · rw [same, Function.update_self, Option.some.injEq, Prod.mk.injEq] at bound
      exact .inl ⟨same, bound.1.symm, bound.2.symm⟩
    · rw [Function.update_of_ne same] at bound
      exact .inr ⟨same, bound⟩
  have unbound {other : Nat} {parent' : runtime.tokens.Token} : daemon.bond other ≠ some (parent', new) :=
    fun bound => extends'.fresh (owned.there bound)
  constructor
  · rw [hosts]
    exact fun token member => extends'.there token (owned.hosts token member)
  · intro other parent' token bound
    rw [hosts]
    rcases bound_inv bound with ⟨_, rfl, _⟩ | ⟨_, before⟩
    · exact held
    · exact owned.parent before
  · intro other parent' token bound
    rcases bound_inv bound with ⟨_, rfl, rfl⟩ | ⟨_, before⟩
    · rw [extends'.made, extends'.lineage _ (owned.hosts _ held)]
    · rw [extends'.lineage _ (owned.there before), extends'.lineage _ (owned.hosts _ (owned.parent before))]
      exact owned.lineage before
  · intro other parent' token bound above member
    rcases bound_inv bound with ⟨_, _, rfl⟩ | ⟨_, before⟩
    · exact extends'.leaf above member
    · rcases extends'.ancestor _ above (owned.there before) member with old | ⟨_, old⟩
      · exact owned.leaf before above old
      · have same := owned.leaf before parent old
        rw [same] at held
        exact absurd held (owned.own before)
  · intro other parent' token bound member
    rw [hosts] at member
    rcases bound_inv bound with ⟨_, _, rfl⟩ | ⟨_, before⟩
    · exact extends'.fresh (owned.hosts _ member)
    · exact owned.own before member
  · intro other other' parent' parent'' token bound bound'
    rcases bound_inv bound with ⟨same, _, rfl⟩ | ⟨_, before⟩
    · rcases bound_inv bound' with ⟨same', _⟩ | ⟨_, before'⟩
      · exact same.trans same'.symm
      · exact absurd before' unbound
    · rcases bound_inv bound' with ⟨_, _, rfl⟩ | ⟨_, before'⟩
      · exact absurd before unbound
      · exact owned.distinct before before'
  · exact fun token there => extends'.there token (owned.old token there)
  · intro other parent' token bound there
    rcases bound_inv bound with ⟨_, _, rfl⟩ | ⟨_, before⟩
    · exact extends'.fresh (owned.old _ there)
    · exact owned.new before there

theorem Owned.step (documented : runtime.tokens.Documented forest) (owned : Owned forest first daemon)
    (hands : Hands daemon label last) : Owned forest first last := by
  cases hands with
  | nothing other tokens hosts bond => exact owned.same (by rw [tokens]) hosts bond
  | childToken held tokens hosts bond =>
      have child := documented.childToken (owned.hosts _ held)
      rw [← tokens] at child
      exact owned.childToken held (extends_of_child child) hosts bond
  | cancel held tokens hosts bond =>
      have cancels := documented.cancel (owned.hosts _ held)
      rw [← tokens] at cancels
      exact owned.same cancels.lineage hosts bond
  | spawn held free tokens hosts bond =>
      have child := documented.childToken (owned.hosts _ held)
      rw [← tokens] at child
      exact owned.spawn held (extends_of_child child) hosts bond
  | stop found tokens hosts bond =>
      have cancels := documented.cancel (owned.there found)
      rw [← tokens] at cancels
      exact owned.same cancels.lineage hosts bond

/-- What was cancelled in the run, and no more. -/
structure Asked (forest : runtime.tokens.State → TokenForest runtime.tokens.Token) (first : Daemon sys runtime)
    (labels : List (Label sys runtime)) (daemon : Daemon sys runtime) : Prop where
  hosts : ∀ token, .cancel token ∈ labels → token ∈ daemon.hosts
  tasks : ∀ id, .stop id ∈ labels → ∃ parent token, daemon.bond id = some (parent, token)
  cancelled : ∀ token, token ∈ (forest daemon.tokens).cancelled ↔ token ∈ (forest first.tokens).cancelled ∨
    .cancel token ∈ labels ∨ ∃ id parent, .stop id ∈ labels ∧ daemon.bond id = some (parent, token)

theorem asked_start : Asked forest first [] first where
  hosts := by simp
  tasks := by simp
  cancelled := by simp

/-- A step that cancels nothing. -/
theorem Asked.quiet (asked : Asked forest first labels daemon)
    (other : (∀ token, label ≠ .cancel token) ∧ ∀ id, label ≠ .stop id)
    (cancelled : (forest last.tokens).cancelled = (forest daemon.tokens).cancelled)
    (hosts : ∀ token ∈ daemon.hosts, token ∈ last.hosts)
    (bonds : ∀ id, daemon.bond id ≠ none → last.bond id = daemon.bond id) :
    Asked forest first (labels ++ [label]) last := by
  have cancels (token) : .cancel token ∈ labels ++ [label] ↔ .cancel token ∈ labels := by
    simp [(other.1 token).symm]
  have stops (id) : .stop id ∈ labels ++ [label] ↔ .stop id ∈ labels := by
    simp [(other.2 id).symm]
  have bound (id) (stopped : .stop id ∈ labels) : last.bond id = daemon.bond id := by
    obtain ⟨parent, token, found⟩ := asked.tasks id stopped
    exact bonds id (by simp [found])
  constructor
  · intro token member
    exact hosts token (asked.hosts token ((cancels token).mp member))
  · intro id member
    have stopped := (stops id).mp member
    rw [bound id stopped]
    exact asked.tasks id stopped
  · intro token
    rw [cancelled, asked.cancelled token, cancels]
    refine or_congr_right (or_congr_right (exists_congr fun id => exists_congr fun parent => ?_))
    rw [stops]
    exact and_congr_right fun stopped => by rw [bound id stopped]

theorem Asked.step (documented : runtime.tokens.Documented forest) (owned : Owned forest first daemon)
    (asked : Asked forest first labels daemon) (hands : Hands daemon label last) :
    Asked forest first (labels ++ [label]) last := by
  cases hands with
  | nothing other tokens hosts bond => exact asked.quiet other (by rw [tokens]) (by simp [hosts]) (by simp [bond])
  | childToken held tokens hosts bond =>
      have child := documented.childToken (owned.hosts _ held)
      rw [← tokens] at child
      exact asked.quiet (by simp) child.cancelled (fun token member => by simp [hosts, member]) (by simp [bond])
  | @spawn id interval parent _ held free tokens hosts bond =>
      have child := documented.childToken (owned.hosts _ held)
      rw [← tokens] at child
      refine asked.quiet (by simp) child.cancelled (by simp [hosts]) fun other bound => ?_
      have different : other ≠ id := by
        intro same
        rw [same] at bound
        exact bound free
      rw [bond, Function.update_of_ne different]
  | @cancel token _ held tokens hosts bond =>
      have cancels := documented.cancel (owned.hosts _ held)
      rw [← tokens] at cancels
      constructor
      · intro other member
        rw [hosts]
        rcases List.mem_append.mp member with old | new
        · exact asked.hosts other old
        · rw [List.mem_singleton, Label.cancel.injEq] at new
          rw [new]
          exact held
      · intro id member
        rw [bond]
        exact asked.tasks id (by simpa using member)
      · intro other
        rw [cancels.cancelled, Set.mem_insert_iff, asked.cancelled other, bond]
        simp only [List.mem_append, List.mem_singleton, Label.cancel.injEq, reduceCtorEq, or_false]
        tauto
  | @stop id parent token _ found tokens hosts bond =>
      have cancels := documented.cancel (owned.there found)
      rw [← tokens] at cancels
      constructor
      · intro other member
        rw [hosts]
        exact asked.hosts other (by simpa using member)
      · intro other member
        rw [bond]
        rcases List.mem_append.mp member with old | new
        · exact asked.tasks other old
        · rw [List.mem_singleton, Label.stop.injEq] at new
          rw [new]
          exact ⟨parent, token, found⟩
      · intro other
        rw [cancels.cancelled, Set.mem_insert_iff, asked.cancelled other, bond]
        simp only [List.mem_append, List.mem_singleton, Label.stop.injEq, reduceCtorEq, or_false]
        constructor
        · intro holds
          rcases holds with rfl | before | host | ⟨id', parent', stopped, bound⟩
          · exact .inr (.inr ⟨id, parent, .inr rfl, found⟩)
          · exact .inl before
          · exact .inr (.inl host)
          · exact .inr (.inr ⟨id', parent', .inl stopped, bound⟩)
        · intro holds
          rcases holds with before | host | ⟨id', parent', stopped | rfl, bound⟩
          · exact .inr (.inl before)
          · exact .inr (.inr (.inl host))
          · exact .inr (.inr (.inr ⟨id', parent', stopped, bound⟩))
          · rw [found, Option.some.injEq, Prod.mk.injEq] at bound
            exact .inl bound.2.symm

theorem asked_of_run (documented : runtime.tokens.Documented forest) (fresh : ∀ id, first.tasks id = none)
    (hosts : ∀ token ∈ first.hosts, (forest first.tokens).There token) (run : Run cleaning first labels last) :
    Owned forest first last ∧ Asked forest first labels last := by
  induction run with
  | refl => exact ⟨owned_start fresh hosts, asked_start⟩
  | snoc _ step ih => exact ⟨ih.1.step documented step.hands, ih.2.step documented ih.1 step.hands⟩

theorem bond_of_task (found : daemon.tasks id = some task) : daemon.bond id = some (task.parent, task.cancel) := by
  rw [bond, found]
  rfl

/-- What cancels a token of the host application. -/
theorem host_cancelled_iff (documented : runtime.tokens.Documented forest) (owned : Owned forest first last)
    (asked : Asked forest first labels last) {token : runtime.tokens.Token} (held : token ∈ last.hosts) :
    runtime.tokens.isCancelled last.tokens token = true ↔ ∃ ancestor ∈ (forest last.tokens).lineage token,
      ancestor ∈ (forest first.tokens).cancelled ∨ .cancel ancestor ∈ labels := by
  rw [documented.isCancelled, TokenForest.IsCancelled]
  refine exists_congr fun ancestor => and_congr_right fun above => (asked.cancelled ancestor).trans ?_
  refine or_congr_right (or_iff_left fun stopped => ?_)
  obtain ⟨id, parent, _, bound⟩ := stopped
  have same := owned.leaf bound token above
  rw [same] at held
  exact owned.own bound held

/-- A token of the host application is cancelled by nothing but cancelling it or one that
it was made from; that of a task is cancelled by its `stop`, and with the token that the
task was given. -/
theorem cleanup_cancelled_iff (documented : runtime.tokens.Documented forest) (fresh : ∀ id, first.tasks id = none)
    (hosts : ∀ token ∈ first.hosts, (forest first.tokens).There token) (run : Run cleaning first labels last) :
    (∀ token ∈ last.hosts, runtime.tokens.isCancelled last.tokens token = true ↔
      ∃ ancestor ∈ (forest last.tokens).lineage token,
        ancestor ∈ (forest first.tokens).cancelled ∨ .cancel ancestor ∈ labels) ∧
    ∀ id task, last.tasks id = some task → (runtime.tokens.isCancelled last.tokens task.cancel = true ↔
      .stop id ∈ labels ∨ runtime.tokens.isCancelled last.tokens task.parent = true) := by
  obtain ⟨owned, asked⟩ := asked_of_run documented fresh hosts run
  refine ⟨fun token held => host_cancelled_iff documented owned asked held, fun id task found => ?_⟩
  have bound := bond_of_task found
  rw [documented.isCancelled, documented.isCancelled, TokenForest.IsCancelled, owned.lineage bound]
  constructor
  · intro holds
    obtain ⟨ancestor, same | above, cancelled⟩ := holds
    · rw [same] at cancelled
      rcases (asked.cancelled _).mp cancelled with before | host | ⟨id', parent, stopped, bound'⟩
      · exact absurd ((forest first.tokens).cancelled_there before) (owned.new bound)
      · exact absurd (asked.hosts _ host) (owned.own bound)
      · rw [owned.distinct bound bound']
        exact .inl stopped
    · exact .inr ⟨ancestor, above, cancelled⟩
  · intro holds
    rcases holds with stopped | ⟨ancestor, above, cancelled⟩
    · exact ⟨task.cancel, Set.mem_insert .., (asked.cancelled _).mpr (.inr (.inr ⟨id, task.parent, stopped, bound⟩))⟩
    · exact ⟨ancestor, Set.mem_insert_of_mem _ above, cancelled⟩

theorem opened_hosts {state : sys.State} : ∀ token ∈ (opened sys state).hosts,
    (TokenTable.forest TokenTable.root).There token := by
  intro token held
  cases List.mem_singleton.mp held
  exact List.mem_singleton_self _

/-- A task is stopped, and the token of the host application stays as it is. -/
theorem cleanup_cancelled_iff_stopped :
    ∃ last : Daemon (vaultSystem .keyed) .concrete, ∃ task, last.tasks 0 = some task ∧
      Runtime.concrete.tokens.isCancelled last.tokens task.cancel = true ∧
      Runtime.concrete.tokens.isCancelled last.tokens (0 : Nat) = false := by
  obtain ⟨labels, daemon, run, found, _, _, tokens, _⟩ := opened_selecting (vaultCleaning .keyed) (.initial .epoch)
  let last : Daemon (vaultSystem .keyed) .concrete :=
    { daemon with tokens := Runtime.concrete.tokens.cancel daemon.tokens (1 : Nat) }
  have stopped : Run (vaultCleaning .keyed) (opened _ _) (labels ++ [.stop 0]) last := .snoc run (.stop found)
  have cancelled :=
    (cleanup_cancelled_iff Cancellation.concrete_documented (fun _ => rfl) opened_hosts stopped).2 0 _ found
  refine ⟨last, _, found, cancelled.mpr (.inl (by simp)), ?_⟩
  simp only [last, tokens]
  rfl

/-- Cancelled is cancelled for ever. -/
theorem Hands.stays (documented : runtime.tokens.Documented forest) (owned : Owned forest first daemon)
    (hands : Hands daemon label last) {token : runtime.tokens.Token} (there : (forest daemon.tokens).There token)
    (cancelled : (forest daemon.tokens).IsCancelled token) : (forest last.tokens).IsCancelled token := by
  cases hands with
  | nothing other tokens hosts bond =>
      rw [tokens]
      exact cancelled
  | childToken held tokens hosts bond =>
      have child := documented.childToken (owned.hosts _ held)
      rw [tokens]
      exact (child.isCancelled_of_ne (child.ne_of_there there)).mpr cancelled
  | cancel held tokens hosts bond =>
      rw [tokens]
      exact (documented.cancel (owned.hosts _ held)).isCancelled_iff.mpr (.inr cancelled)
  | spawn held free tokens hosts bond =>
      have child := documented.childToken (owned.hosts _ held)
      rw [tokens]
      exact (child.isCancelled_of_ne (child.ne_of_there there)).mpr cancelled
  | stop found tokens hosts bond =>
      rw [tokens]
      exact (documented.cancel (owned.there found)).isCancelled_iff.mpr (.inr cancelled)

/-- How many steps a cancelled task still takes. -/
def stepsLeft : CleanupPhase → Nat
  | .ended => 0
  | .selecting => 1
  | .ticking => 3
  | _ => 2

theorem ticking_of_stepsLeft {phase : CleanupPhase} (three : 3 ≤ stepsLeft phase) : phase = .ticking := by
  cases phase with
  | ticking => rfl
  | _ => simp [stepsLeft] at three

def Label.isPoll (id : Nat) : Label sys runtime → Bool
  | .poll other => other == id
  | _ => false

/-- What a cancelled task has done since. -/
structure Stopping (task task' : CleanupTask runtime.tokens.Token) (polls : Nat) : Prop where
  polls : polls + stepsLeft task'.phase ≤ stepsLeft task.phase
  begun : task'.begun = task.begun ∨ task.phase = .ticking ∧ task'.phase ≠ .ticking ∧
    ∃ sweep, task'.begun = sweep :: task.begun
  cancel : task'.cancel = task.cancel

theorem Stopping.polled {moved : CleanupTask runtime.tokens.Token} {polls : Nat} (stopping : Stopping task task' polls)
    (cancelled : runtime.tokens.isCancelled daemon.tokens task.cancel = true)
    (polled : Polled cleaning daemon tid task' moved vaults) : Stopping task moved (polls + 1) := by
  obtain ⟨bound, begun, same⟩ := stopping
  have moves {phase : CleanupPhase} (fewer : stepsLeft phase < stepsLeft task'.phase) (other : phase ≠ .ticking) :
      Stopping task { task' with phase } (polls + 1) := by
    refine ⟨?_, begun.imp_right fun later => ⟨later.1, other, later.2.2⟩, same⟩
    simp only
    omega
  cases polled with
  | panics phase zero => exact moves (by simp [phase, stepsLeft]) (by simp)
  | ends phase _ => exact moves (by simp [phase, stepsLeft]) (by simp)
  | parks phase early => exact moves (by simp [phase, stepsLeft]) (by simp)
  | wakes phase => exact moves (by simp [phase, stepsLeft]) (by simp)
  | swept phase found returned => exact moves (by simp [phase, stepsLeft]) (by simp)
  | dies phase found panicked panics => exact moves (by simp [phase, stepsLeft]) (by simp)
  | goesOn phase running =>
      rw [same, cancelled] at running
      contradiction
  | starts phase positive =>
      obtain ⟨bound, begun, same⟩ : Stopping task { task' with phase := .selecting } (polls + 1) :=
        moves (by simp [phase, stepsLeft]) (by simp)
      exact ⟨bound, begun, same⟩
  | begins phase due free =>
      rw [phase] at bound
      have unbegun := begun.resolve_right fun later => later.2.1 phase
      have three : 3 ≤ stepsLeft task.phase := (Nat.le_add_left 3 polls).trans bound
      refine ⟨Nat.le_trans (Nat.le_refl (polls + 3)) bound, .inr ⟨ticking_of_stepsLeft three, by simp,
        ⟨tid, daemon.now⟩, ?_⟩, same⟩
      rw [unbegun]

/-- A task stays, and moves only when it is polled. -/
theorem Step.task_next (step : Step cleaning daemon label last) (found : daemon.tasks id = some task) :
    ∃ task', last.tasks id = some task' ∧ (task' = task ∧ label.isPoll id = false ∨
      label.isPoll id = true ∧ ∃ tid, Polled cleaning daemon tid task task' last.vaults) := by
  cases step with
  | @spawn other parent interval free held =>
      have different : id ≠ other := by
        intro same
        rw [same, free] at found
        contradiction
      exact ⟨task, (Function.update_of_ne different ..).trans found, .inl ⟨rfl, rfl⟩⟩
  | @poll other moving tid moved _ _ foundOther polled =>
      by_cases same : id = other
      · subst same
        rw [found, Option.some.injEq] at foundOther
        subst foundOther
        exact ⟨moved, Function.update_self .., .inr ⟨by simp [Label.isPoll], tid, poll_inv polled⟩⟩
      · refine ⟨task, (Function.update_of_ne same ..).trans found, .inl ⟨rfl, ?_⟩⟩
        exact beq_false_of_ne (Ne.symm same)
  | _ => exact ⟨task, found, .inl ⟨rfl, rfl⟩⟩

theorem stopping_of_run (documented : runtime.tokens.Documented forest) (owned : Owned forest first middle)
    (found : middle.tasks id = some task) (cancelled : runtime.tokens.isCancelled middle.tokens task.cancel = true)
    (after : Run cleaning middle labels' last) :
    Owned forest first last ∧ runtime.tokens.isCancelled last.tokens task.cancel = true ∧
      ∃ task', last.tasks id = some task' ∧ Stopping task task' (labels'.countP (Label.isPoll id)) := by
  induction after with
  | refl => exact ⟨owned, cancelled, task, found, by simp, .inl rfl, rfl⟩
  | @snoc labels daemon label last _ step ih =>
      obtain ⟨owned, cancelled, task', found, stopping⟩ := ih
      have there := owned.there (bond_of_task found)
      rw [stopping.cancel] at there
      have stays := step.hands.stays documented owned there (documented.isCancelled.mp cancelled)
      refine ⟨owned.step documented step.hands, documented.isCancelled.mpr stays, ?_⟩
      obtain ⟨moved, foundLater, ⟨same, other⟩ | ⟨polls, tid, polled⟩⟩ := step.task_next found
      · refine ⟨moved, foundLater, ?_⟩
        rw [same]
        simpa [List.countP_append, other] using stopping
      · refine ⟨moved, foundLater, ?_⟩
        simpa [List.countP_append, polls] using stopping.polled cancelled polled

theorem Stopping.polls_le {polls : Nat} (stopping : Stopping task task' polls) : polls ≤ 3 := by
  have most : stepsLeft task.phase ≤ 3 := by cases task.phase <;> simp [stepsLeft]
  exact (Nat.le_of_add_right_le stopping.polls).trans most

/-- The sweeps of a task that has ended are over. -/
theorem Kept.over_of_ended {tolerance : Nat} (kept : Kept cleaning tolerance daemon task)
    (ended : task.phase = .ended) :
    ∀ sweep ∈ task.begun, ∃ thread, daemon.vaults.threads sweep.tid = some thread ∧
      thread.call = cleaning.cleanup ∧ cleaning.Over thread := by
  intro sweep member
  obtain ⟨thread, called, same, sweeping | done⟩ := kept.made sweep member
  · rw [ended] at sweeping
    contradiction
  · exact ⟨thread, called, same, done⟩

/-- After its token is cancelled, a task takes three steps at most, and begins at most one
sweep more, if it was about to. When it has ended its sweeps are over. -/
theorem cleanup_stops {tolerance : Nat} (skips : Skips tolerance runtime.next)
    (documented : runtime.tokens.Documented forest) (fresh : ∀ id, first.tasks id = none)
    (hosts : ∀ token ∈ first.hosts, (forest first.tokens).There token) (before : Run cleaning first labels middle)
    (found : middle.tasks id = some task) (cancelled : runtime.tokens.isCancelled middle.tokens task.cancel = true)
    (after : Run cleaning middle labels' last) :
    ∃ task', last.tasks id = some task' ∧ labels'.countP (Label.isPoll id) ≤ 3 ∧
      (task'.begun = task.begun ∨ task.phase = .ticking ∧ ∃ sweep, task'.begun = sweep :: task.begun) ∧
      (task'.phase = .ended → ∀ sweep ∈ task'.begun, ∃ thread,
        last.vaults.threads sweep.tid = some thread ∧ thread.call = cleaning.cleanup ∧ cleaning.Over thread) := by
  obtain ⟨owned, _⟩ := asked_of_run documented fresh hosts before
  obtain ⟨_, _, task', found', stopping⟩ := stopping_of_run documented owned found cancelled after
  have kept := tasks_kept skips fresh (before.trans after) id task' found'
  refine ⟨task', found', stopping.polls_le, stopping.begun.imp_right fun later => ⟨later.1, later.2.2⟩, ?_⟩
  exact kept.over_of_ended

/-- The token is cancelled when the task has just looked at it, and the task sweeps once
more. -/
theorem cleanup_stops_late :
    ∃ last : Daemon (vaultSystem .keyed) .concrete, ∃ task task' : CleanupTask Nat,
      last.tasks 0 = some task' ∧ task'.begun = [⟨0, 0⟩] ∧ (task'.begun = task.begun ∨ task.phase = .ticking ∧
        ∃ sweep, task'.begun = sweep :: task.begun) ∧
      (task'.phase = .ended → ∀ sweep ∈ task'.begun, ∃ thread, last.vaults.threads sweep.tid = some thread ∧
        thread.call = .cleanup ∧ (vaultCleaning .keyed).Over thread) := by
  obtain ⟨labels, daemon, run, found, vaults, now, tokens, held⟩ :=
    opened_ticking (vaultCleaning .keyed) (.initial .epoch)
  have cancelled : ∃ labels, ∃ middle : Daemon (vaultSystem .keyed) .concrete,
      Run (vaultCleaning .keyed) (opened _ (.initial .epoch)) labels middle ∧ middle.tasks 0 = daemon.tasks 0 ∧
      middle.vaults = daemon.vaults ∧ middle.now = daemon.now ∧
      Runtime.concrete.tokens.isCancelled middle.tokens (1 : Nat) = true :=
    ⟨_, _, .snoc run (@Step.cancel _ _ _ _ _ _ (0 : Nat) (by rw [held]; exact List.mem_cons_self)), rfl, rfl, rfl,
      by simp only [tokens]; rfl⟩
  obtain ⟨_, middle, run, same, vaults', now', cancelled⟩ := cancelled
  rw [found] at same
  have due : ¬ middle.now < 0 := Nat.not_lt_zero _
  have free : middle.vaults.threads 0 = none := by rw [vaults', vaults]; rfl
  have again : Run (vaultCleaning .keyed) middle [] middle := .refl middle
  obtain ⟨_, last, after, foundLast, _⟩ := @Run.poll_to _ _ _ _ _ _ _ _ _ 0 0 _ _ _ again same
    (by simp only [poll, due, if_false, free]; rfl)
  rw [now', now] at foundLast
  obtain ⟨task', foundTask, _, begun, done⟩ := cleanup_stops skipMissed_skips Cancellation.concrete_documented
    (fun _ => rfl) opened_hosts run same cancelled after
  rw [foundLast, Option.some.injEq] at foundTask
  subst foundTask
  exact ⟨last, _, _, foundLast, rfl, begun, done⟩

end Daemon

end TariVault
