import TariVault.Storage.Crash
import TariVault.Vault.Mirrored
import TariVault.Vault.Processes

namespace TariVault

open Program TariVault.System FileCall Correspondence

/-! # Vault calls over the vault file are vault calls over single operations

A storage operation lands at the rename when it writes, at the read when it has
nothing to write, and at the step that fails when one does. The one failure left out
is that of setting permissions, which is reported for a change that was made.
-/

variable {serde : Serde} {aead : Aead} {may : DateTime → DateTime → Prop} {timely : Nat → DateTime → Prop} {tid : Nat}

/-- The vault file holds the records, and the rest is the same. -/
structure Agrees (serde : Serde) (state : HostState) (vault : VaultState) : Prop where
  holds : Holds serde state.files.disk vault.records
  clock : vault.clock = state.files.clock
  readings : vault.readings = state.readings
  drawn : vault.drawn = state.drawn
  shown : state.files.clock ∈ state.readings

/-- What a call has to expect of everything else: while it holds the sidecar lock
nobody else replaces the vault file, nobody takes the lock for it, and its temporary
file is its own. When it is killed it loses the lock. -/
structure Others (tid : Nat) (before after : HostState) : Prop where
  readings : before.readings ⊆ after.readings
  stopped : tid ∈ before.stopped → tid ∈ after.stopped
  held : before.files.sidecar = some tid → tid ∉ after.stopped →
    after.files.sidecar = some tid ∧ after.files.disk.vault = before.files.disk.vault
  free : before.files.sidecar ≠ some tid → after.files.sidecar ≠ some tid
  temp : after.files.disk.temps tid = before.files.disk.temps tid

theorem Others.refl (tid : Nat) (state : HostState) : Others tid state state :=
  ⟨List.Subset.refl _, id, fun held _ => ⟨held, rfl⟩, id, rfl⟩

theorem Others.trans {first second third : HostState} (front : Others tid first second)
    (back : Others tid second third) : Others tid first third where
  readings := List.Subset.trans front.readings back.readings
  stopped := back.stopped ∘ front.stopped
  held := by
    intro held alive
    obtain ⟨held', same⟩ := front.held held fun dead => alive (back.stopped dead)
    obtain ⟨held'', same'⟩ := back.held held' alive
    exact ⟨held'', same'.trans same⟩
  free := back.free ∘ front.free
  temp := back.temp.trans front.temp

/-- Over the vault file, with a clock that moves as `may` says and shows a call only what
is `timely`. -/
abbrev overFiles (serde : Serde) (aead : Aead) (may : DateTime → DateTime → Prop)
    (timely : Nat → DateTime → Prop) : Correspondence (fileVaults serde aead) where
  agrees := Agrees serde
  others := Others
  idle tid state := state.files.sidecar ≠ some tid
  permits tid event := (∀ message, event ≠ ⟨.storage .setPermissions, .error message⟩) ∧
    ∀ now, event = ⟨.now, now⟩ → timely tid now
  permitsDrift state env := ∀ now, env = .tick now → may state.files.clock now
  landing tid := TimelyAct (timely tid)
  landing_act := @TimelyAct.acts timely
  others_refl := Others.refl
  others_trans := Others.trans
  idle_others free others := others.free free

namespace Unnoticed

variable {before after : HostState} {vault : VaultState}

theorem agrees (unnoticed : Unnoticed tid before after) (agrees : Agrees serde before vault) :
    Agrees serde after vault where
  holds := agrees.holds.of_vault unnoticed.vault
  clock := agrees.clock.trans unnoticed.clock.symm
  readings := agrees.readings.trans unnoticed.readings.symm
  drawn := agrees.drawn.trans unnoticed.drawn.symm
  shown := by
    rw [unnoticed.clock, unnoticed.readings]
    exact agrees.shown

theorem others (unnoticed : Unnoticed tid before after) (other : Nat) (different : other ≠ tid) :
    Others other before after where
  readings := by
    rw [unnoticed.readings]
    exact List.Subset.refl _
  stopped dead := by
    rw [unnoticed.stopped]
    exact dead
  held held _ := ⟨(unnoticed.sidecar other different).mpr held, unnoticed.vault⟩
  free free held := free ((unnoticed.sidecar other different).mp held)
  temp := unnoticed.temps other different

end Unnoticed

/-- A step of a call that was not killed, and that keeps its lock. -/
structure Untouched (tid : Nat) (before after : HostState) : Prop extends Unnoticed tid before after where
  keeps : after.files.sidecar = before.files.sidecar
  alive : tid ∉ before.stopped

section Rules

variable {α : Type} {op : BackendOp} {small : HostOp FileOp}
  {next : HostOp.Answer FileOp.Answer small → Program (HostOp FileOp) (HostOp.Answer FileOp.Answer) α}
  {post : α → Option op.Answer → HostState → Prop} {landed : Option op.Answer} {state : HostState}

/-- A step nobody notices: after it the operation goes on as before, or fails. -/
theorem lands_unnoticed
    (steps : ∀ before after answer, Others tid state before → before.files.clock ∈ before.readings →
      (overFiles serde aead may timely).permits tid ⟨small, answer⟩ → HostAct tid before ⟨small, answer⟩ after →
      Unnoticed tid before after ∧
        ((overFiles serde aead may timely).Lands tid (.storage op) post (next answer) landed after ∨
          landed = none ∧ ∃ error, (overFiles serde aead may timely).Lands tid (.storage op) post (next answer)
            (some (op.failure error)) after)) :
    (overFiles serde aead may timely).Lands tid (.storage op) post (.step small next) landed state := by
  intro before moved vault answer after agrees permitted performed
  obtain ⟨unnoticed, goesOn⟩ := steps before after answer moved agrees.shown permitted performed
  refine ⟨unnoticed.others, ?_⟩
  rcases goesOn with rest | ⟨fresh, error, rest⟩
  · exact .inl ⟨unnoticed.agrees agrees, rest⟩
  · exact .inr ⟨fresh, op.failure error, vault, .fail op error, unnoticed.agrees agrees, rest⟩

/-- A step on the files, short of the rename. It may fail, and then the operation
does. -/
theorem lands_onFiles {file : FileOp}
    {next : file.Answer → Program (HostOp FileOp) (HostOp.Answer FileOp.Answer) α}
    (onFiles : OnFiles (.storage file)) (keeping : file ≠ .persist)
    (happens : ∀ before after answer, Others tid state before →
      before.files.respond tid (.storage file) = some (answer, after.files) → Untouched tid before after →
      (overFiles serde aead may timely).Lands tid (.storage op) post (next answer) landed after)
    (fails : ∀ before after message answer, Others tid state before →
      (overFiles serde aead may timely).permits tid ⟨.storage file, answer⟩ → file.failed message = some answer →
      Untouched tid before after → landed = none ∧
        ∃ error, (overFiles serde aead may timely).Lands tid (.storage op) post (next answer)
          (some (op.failure error)) after) :
    (overFiles serde aead may timely).Lands tid (.storage op) post (.step (.storage file) next) landed state := by
  refine lands_unnoticed fun before after answer moved _ permitted performed => ?_
  have alive := performed.alive
  rcases performed.storage_inv with ⟨files, responded, rfl⟩ | ⟨message, length, failed, rfl⟩
  · have untouched : Untouched tid before { before with files } :=
      ⟨HostAct.unnoticed_of_onFiles onFiles keeping responded,
        (FileState.respond_onFiles onFiles responded).1, alive⟩
    exact ⟨untouched.toUnnoticed, .inl (happens before _ answer moved responded untouched)⟩
  · have unnoticed := @HostAct.unnoticed_of_failed tid before file length
    exact ⟨unnoticed, .inr (fails before _ message answer moved permitted failed ⟨unnoticed, rfl, alive⟩)⟩

end Rules

/-- Call `tid` holds the lock, unless it was killed, and captured a clock value that
was shown. -/
structure Holding (tid : Nat) (captured : DateTime) (state : HostState) : Prop where
  held : tid ∉ state.stopped → state.files.sidecar = some tid
  shown : captured ∈ state.readings

/-- It has read these bytes, and its temporary file is as it left it. -/
structure Rewriting (tid : Nat) (captured : DateTime) (bytes : Bytes) (temp : Option Bytes) (state : HostState) :
    Prop extends Holding tid captured state where
  vault : tid ∉ state.stopped → state.files.disk.vault = some bytes
  written : temp = none ∨ state.files.disk.temps tid = temp

section Stable

variable {captured : DateTime} {bytes : Bytes} {temp : Option Bytes} {before after : HostState}

theorem Holding.stable (holding : Holding tid captured before) (others : Others tid before after) :
    Holding tid captured after where
  held alive := (others.held (holding.held fun dead => alive (others.stopped dead)) alive).1
  shown := others.readings holding.shown

theorem Rewriting.stable (writing : Rewriting tid captured bytes temp before)
    (others : Others tid before after) : Rewriting tid captured bytes temp after where
  toHolding := writing.toHolding.stable others
  vault alive := by
    have alive' : tid ∉ before.stopped := fun dead => alive (others.stopped dead)
    rw [(others.held (writing.held alive') alive).2]
    exact writing.vault alive'
  written := by
    rw [others.temp]
    exact writing.written

end Stable

section Touched

variable {captured : DateTime} {bytes : Bytes} {temp temp' : Option Bytes} {before after : HostState}

theorem Holding.untouched (holding : Holding tid captured before) (untouched : Untouched tid before after) :
    Holding tid captured after where
  held _ := untouched.keeps.trans (holding.held untouched.alive)
  shown := by
    rw [untouched.readings]
    exact holding.shown

/-- A call that holds the lock may write to its temporary file. -/
theorem Rewriting.untouched (rewriting : Rewriting tid captured bytes temp before)
    (untouched : Untouched tid before after) (written : after.files.disk.temps tid = temp') :
    Rewriting tid captured bytes temp' after where
  toHolding := rewriting.toHolding.untouched untouched
  vault _ := untouched.vault.trans (rewriting.vault untouched.alive)
  written := .inr written

end Touched

section Transact

variable {op : BackendOp} {captured : DateTime} {bytes text : Bytes} {state : HostState}

/-- The operation has failed. -/
def FailedWith (tid : Nat) (captured : DateTime) (op : BackendOp) (error : StorageError)
    (landed : Option op.Answer) (state : HostState) : Prop :=
  landed = some (op.failure error) ∧ Holding tid captured state

theorem FailedWith.stable {error : StorageError} {landed : Option op.Answer} {now : HostState}
    (failed : FailedWith tid captured op error landed state) (others : Others tid state now) :
    FailedWith tid captured op error landed now :=
  ⟨failed.1, failed.2.stable others⟩

theorem io_step (file : FileOp) (reply : file.Answer → Except String Unit) :
    (FileM.io (.step (.storage file) fun answer => .done (reply answer))).run =
      .step (.storage file) fun answer => .done ((reply answer).mapError .io) := rfl

/-- A step on the temporary file that answers `reply`. -/
theorem lands_io (file : FileOp) {temp : Option Bytes} (temp' : Option Bytes) (reply : file.Answer → Except String Unit)
    (onFiles : OnFiles (.storage file)) (keeping : file ≠ .persist)
    (rewriting : Rewriting tid captured bytes temp state)
    (happens : ∀ (before after : FileState) answer, temp = none ∨ before.disk.temps tid = temp →
      before.respond tid (.storage file) = some (answer, after) →
      reply answer = .ok () ∧ after.disk.temps tid = temp')
    (fails : ∀ message answer, file.failed message = some answer → reply answer = .error message) :
    (overFiles serde aead may timely).Lands tid (.storage op)
      (Either (fun _ landed state => landed = none ∧ Rewriting tid captured bytes temp' state)
        (FailedWith tid captured op))
      (FileM.io (.step (.storage file) fun answer => .done (reply answer))).run none state := by
  rw [io_step]
  refine lands_onFiles onFiles keeping ?_ ?_
  · intro before after answer moved responded untouched
    have here := rewriting.stable moved
    obtain ⟨answered, written⟩ := happens before.files after.files answer here.written responded
    rw [answered]
    exact fun now later => ⟨rfl, (here.untouched untouched written).stable later⟩
  · intro before after message answer moved _ failed untouched
    refine ⟨rfl, .io message, ?_⟩
    rw [fails message answer failed]
    exact fun now later => ⟨rfl, ((rewriting.toHolding.stable moved).untouched untouched).stable later⟩

variable {read next : DiskState}

/-- What the operation does with what it read. -/
structure Replaces (serde : Serde) (captured : DateTime) (op : BackendOp) (bytes : Bytes)
    (read next : DiskState) (text : Bytes) : Prop where
  parsed : DiskState.fromSlice serde bytes = .ok read
  rewrites : op.rewrite captured read = some next
  written : next.toVecPretty serde = .ok text
  readBack : DiskState.fromSlice serde text = .ok next

/-- The rename is where a write lands. -/
theorem lands_persist (replaces : Replaces serde captured op bytes read next text)
    (onTime : op = .deleteExpired → timely tid captured) (rewriting : Rewriting tid captured bytes (some text) state) :
    (overFiles serde aead may timely).Lands tid (.storage op)
      (Either (fun _ landed state => landed = some (op.outcome captured read) ∧ Holding tid captured state)
        (FailedWith tid captured op))
      (FileM.io (Host.storage FileOp.persist)).run none state := by
  intro before moved vault answer after agrees permitted performed
  have here := rewriting.stable moved
  have alive := performed.alive
  have held := here.held alive
  rcases performed.storage_inv with ⟨files, responded, rfl⟩ | ⟨message, length, failed, rfl⟩
  · obtain ⟨text', written, answered, replaced⟩ := FileState.respond_persist responded
    have onFiles : OnFiles (.storage .persist) := trivial
    obtain ⟨sidecar, handled⟩ := FileState.respond_onFiles onFiles responded
    have mine : text' = text := by
      rcases here.written with impossible | same
      · contradiction
      · exact Option.some.inj (written.symm.trans same)
    subst mine
    have shown : captured ∈ vault.readings := by
      rw [agrees.readings]
      exact here.shown
    obtain ⟨bytes', read', present, parsed, mirrors⟩ := agrees.holds.parses
    cases present.symm.trans (here.vault alive)
    cases parsed.symm.trans replaces.parsed
    have left := @rewrite_mirrors _ captured _ op mirrors
    rw [replaces.rewrites] at left
    refine ⟨fun other different => ?_, .inr ⟨rfl, _, _, .perform op shown onTime, ?_, ?_⟩⟩
    · exact ⟨List.Subset.refl _, id, fun holds _ => absurd (Option.some.inj (holds.symm.trans held)) different,
        fun free => by rw [sidecar]; exact free, @Disk.apply_temps_of_ne tid _ .persist _ _ _ different handled⟩
    · exact ⟨⟨text', next, replaced, replaces.readBack, left⟩,
        agrees.clock.trans (FileState.respond_keepsClock responded).symm, agrees.readings, agrees.drawn,
        by rw [FileState.respond_keepsClock responded]; exact agrees.shown⟩
    · rw [answered, ← outcome_eq mirrors]
      have holding : Holding tid captured { before with files } := ⟨fun _ => sidecar.trans held, here.shown⟩
      exact fun now later => ⟨rfl, holding.stable later⟩
  · have untouched : Untouched tid before _ := ⟨@HostAct.unnoticed_of_failed tid before .persist length, rfl, alive⟩
    refine ⟨untouched.others, .inr ⟨rfl, op.failure (.io message), vault, .fail op _, untouched.agrees agrees, ?_⟩⟩
    cases failed
    exact fun now later => ⟨rfl, (here.toHolding.untouched untouched).stable later⟩

theorem Rewriting.holding {temp : Option Bytes} {now : HostState}
    (rewriting : Rewriting tid captured bytes temp state) (others : Others tid state now) :
    Holding tid captured now :=
  rewriting.toHolding.stable others

theorem lands_newTemp (rewriting : Rewriting tid captured bytes none state) :
    (overFiles serde aead may timely).Lands tid (.storage op)
      (Either (fun _ landed state => landed = none ∧ Rewriting tid captured bytes (some []) state)
        (FailedWith tid captured op))
      (FileM.io (Host.storage FileOp.newTemp)).run none state := by
  refine lands_io .newTemp (some []) id trivial (by simp) rewriting ?_ ?_
  · intro before after answer _ responded
    cases responded
    exact ⟨rfl, Function.update_self ..⟩
  · intro message answer failed
    cases failed
    rfl

theorem lands_writeAll (text : Bytes) (rewriting : Rewriting tid captured bytes (some []) state) :
    (overFiles serde aead may timely).Lands tid (.storage op)
      (Either (fun _ landed state => landed = none ∧ Rewriting tid captured bytes (some text) state)
        (FailedWith tid captured op))
      (FileM.io (Host.storage (FileOp.writeAll text))).run none state := by
  refine lands_io (.writeAll text) (some text) id trivial (by simp) rewriting ?_ ?_
  · intro before after answer empty responded
    rcases empty with impossible | empty
    · contradiction
    · simp only [FileState.respond, Disk.apply, empty, List.nil_append, Option.map_some] at responded
      cases responded
      exact ⟨rfl, Function.update_self ..⟩
  · intro message answer failed
    cases failed
    rfl

theorem lands_flush (rewriting : Rewriting tid captured bytes (some text) state) :
    (overFiles serde aead may timely).Lands tid (.storage op)
      (Either (fun _ landed state => landed = none ∧ Rewriting tid captured bytes (some text) state)
        (FailedWith tid captured op))
      (FileM.io (Host.storage FileOp.flush)).run none state := by
  refine lands_io .flush (some text) id trivial (by simp) rewriting ?_ ?_
  · intro before after answer written responded
    rcases written with impossible | written
    · contradiction
    · cases responded
      exact ⟨rfl, written⟩
  · intro message answer failed
    cases failed
    rfl

theorem lands_fill (replaces : Replaces serde captured op bytes read next text)
    (onTime : op = .deleteExpired → timely tid captured) (rewriting : Rewriting tid captured bytes (some []) state) :
    (overFiles serde aead may timely).Lands tid (.storage op)
      (Either (fun _ landed state => landed = some (op.outcome captured read) ∧ Holding tid captured state)
        (FailedWith tid captured op))
      (fillAndPersist serde next).run none state := by
  have failsOn : ∀ error landed state now, FailedWith tid captured op error landed state →
      Others tid state now → FailedWith tid captured op error landed now :=
    fun _ _ _ _ failed others => failed.stable others
  refine Lands.bind_ok (fun value landed state => value = text ∧ landed = none ∧
    Rewriting tid captured bytes (some []) state) _ ?_ failsOn ?_
  · rw [FileM.json, ExceptT.run_mk, replaces.written]
    exact fun now later => ⟨rfl, rfl, rewriting.stable later⟩
  · intro value landed state holds
    obtain ⟨rfl, rfl, rewriting⟩ := holds
    refine Lands.bind_ok _ _ (lands_writeAll value rewriting) failsOn ?_
    intro _ landed state holds
    obtain ⟨rfl, rewriting⟩ := holds
    refine Lands.bind_ok _ _ (lands_flush rewriting) failsOn ?_
    intro _ landed state holds
    obtain ⟨rfl, rewriting⟩ := holds
    exact lands_persist replaces onTime rewriting

/-- What is left of a temporary file is removed after the operation has failed. -/
theorem lands_dropTemp {error : StorageError} {landed : Option op.Answer}
    (failed : FailedWith tid captured op error landed state) :
    (overFiles serde aead may timely).Lands tid (.storage op)
      (Either (fun (_ : Unit) landed state => landed = some (op.outcome captured read) ∧
        Holding tid captured state) (FailedWith tid captured op))
      (.step (.storage .dropTemp) fun _ => .done (.error error)) landed state := by
  refine lands_onFiles trivial (by simp) ?_ ?_
  · intro before after answer moved _ untouched now later
    exact ⟨failed.1, ((failed.2.stable moved).untouched untouched).stable later⟩
  · intro before after message answer _ _ impossible
    contradiction

theorem lands_setPermissions {landed : Option op.Answer} (holding : Holding tid captured state)
    (happened : landed = some (op.outcome captured read)) :
    (overFiles serde aead may timely).Lands tid (.storage op)
      (Either (fun _ landed state => landed = some (op.outcome captured read) ∧ Holding tid captured state)
        (FailedWith tid captured op))
      (FileM.io (Host.storage FileOp.setPermissions)).run landed state := by
  have onFiles : OnFiles (.storage .setPermissions) := trivial
  refine lands_onFiles onFiles (by simp) ?_ ?_
  · intro before after answer moved responded untouched
    simp only [FileState.respond, Disk.apply, Option.map_some, Option.some.injEq, Prod.mk.injEq] at responded
    obtain ⟨rfl, _⟩ := responded
    exact fun now later => ⟨happened, ((holding.stable moved).untouched untouched).stable later⟩
  · intro before after message answer _ permitted failed
    cases failed
    exact absurd rfl (permitted.1 message)

theorem lands_writeAtomic (replaces : Replaces serde captured op bytes read next text)
    (onTime : op = .deleteExpired → timely tid captured) (rewriting : Rewriting tid captured bytes none state) :
    (overFiles serde aead may timely).Lands tid (.storage op)
      (Either (fun _ landed state => landed = some (op.outcome captured read) ∧ Holding tid captured state)
        (FailedWith tid captured op))
      (writeAtomic serde true next).run none state := by
  have failsOn : ∀ error landed state now, FailedWith tid captured op error landed state →
      Others tid state now → FailedWith tid captured op error landed now :=
    fun _ _ _ _ failed others => failed.stable others
  rw [writeAtomic, if_pos rfl]
  refine Lands.bind_ok _ _ (lands_newTemp rewriting) failsOn ?_
  intro _ landed state holds
  obtain ⟨rfl, rewriting⟩ := holds
  have renames : (overFiles serde aead may timely).Lands tid (.storage op)
      (Either (fun _ landed state => landed = some (op.outcome captured read) ∧ Holding tid captured state)
        (FailedWith tid captured op))
      (FileM.orDropTemp (fillAndPersist serde next)).run none state := by
    rw [FileM.orDropTemp, ExceptT.run_mk]
    refine (lands_fill replaces onTime rewriting).bind fun result landed state ends => ?_
    cases result with
    | ok value => exact fun now later => ⟨ends.1, ends.2.stable later⟩
    | error error => exact lands_dropTemp ends
  exact Lands.bind_ok _ _ renames failsOn fun _ landed state ends => lands_setPermissions ends.2 ends.1

theorem lands_transition (replaces : Replaces serde captured op bytes read next text)
    (onTime : op = .deleteExpired → timely tid captured) (rewriting : Rewriting tid captured bytes none state) :
    (overFiles serde aead may timely).Lands tid (.storage op)
      (fun answer landed state => landed = some answer ∧ Holding tid captured state)
      (transition serde true op captured read) none state := by
  rw [transition]
  simp only [replaces.rewrites]
  refine (lands_writeAtomic replaces onTime rewriting).bind fun result landed state ends => ?_
  cases result with
  | ok value => exact fun now later => ⟨ends.1, ends.2.stable later⟩
  | error error => exact fun now later => ⟨ends.1, ends.2.stable later⟩

/-- How an operation goes on after the read. -/
def afterRead (serde : Serde) (hasParent : Bool) (op : BackendOp) (now : DateTime) :
    Except String Bytes → Host FileOp.Answer op.Answer
  | .error message => return op.failure (.io message)
  | .ok bytes =>
      match DiskState.fromSlice serde bytes with
      | .error message => return op.failure (.json message)
      | .ok state => transition serde hasParent op now state

theorem transact_step (hasParent : Bool) (op : BackendOp) (now : DateTime) :
    transact serde hasParent op now = .step (.storage .read) (afterRead serde hasParent op now) := by
  refine congrArg (Program.step (HostOp.storage FileOp.read)) (funext fun answer => ?_)
  cases answer with
  | error message => rfl
  | ok bytes =>
      change Program.bind (.done ((DiskState.fromSlice serde bytes).mapError StorageError.json)) _ = _
      rw [afterRead]
      cases DiskState.fromSlice serde bytes <;> rfl

theorem afterRead_ok {hasParent : Bool} {now : DateTime} (parsed : DiskState.fromSlice serde bytes = .ok read) :
    afterRead serde hasParent op now (.ok bytes) = transition serde hasParent op now read := by
  rw [afterRead, parsed]

/-- Under the lock an operation lands whatever fails. -/
theorem lands_transact (readsBack : serde.ReadsBack) (hasParent : Bool)
    (onTime : op = .deleteExpired → timely tid captured) (holding : Holding tid captured state) :
    (overFiles serde aead may timely).Lands tid (.storage op)
      (fun answer landed state => landed = some answer ∧ Holding tid captured state)
      (transact serde hasParent op captured) none state := by
  rw [transact_step]
  intro before moved vault answer after agrees permitted performed
  have here := holding.stable moved
  have alive := performed.alive
  rcases performed.storage_inv with ⟨files, responded, rfl⟩ | ⟨message, length, failed, rfl⟩
  · have onFiles : OnFiles (.storage .read) := trivial
    have untouched : Untouched tid before { before with files } :=
      ⟨HostAct.unnoticed_of_onFiles onFiles (by simp) responded,
        (FileState.respond_onFiles onFiles responded).1, alive⟩
    refine ⟨untouched.others, ?_⟩
    obtain ⟨bytes, read, present, parsed, mirrors⟩ := agrees.holds.parses
    have left := @rewrite_mirrors _ captured _ op mirrors
    simp only [FileState.respond, Disk.apply, present, Option.map_some, Option.some.injEq,
      Prod.mk.injEq] at responded
    obtain ⟨rfl, same⟩ := responded
    have holding' : Holding tid captured { before with files } := here.untouched untouched
    have agrees' := untouched.agrees agrees
    rw [afterRead_ok parsed]
    cases rewritten : op.rewrite captured read with
    | none =>
        -- Nothing to write: the operation is over with the read.
        have shown : captured ∈ vault.readings := by
          rw [agrees.readings]
          exact here.shown
        rw [rewritten] at left
        refine .inr ⟨rfl, _, _, .perform op shown onTime, ⟨⟨bytes, read, untouched.vault.trans present, parsed, left⟩,
          agrees'.clock, agrees'.readings, agrees'.drawn, agrees'.shown⟩, ?_⟩
        simp only [transition, rewritten]
        rw [← outcome_eq mirrors]
        exact fun now later => ⟨rfl, holding'.stable later⟩
    | some next =>
        cases hasParent with
        | false =>
            refine .inr ⟨rfl, _, vault, .fail op (.io "vault path has no parent"), agrees', ?_⟩
            simp only [transition, rewritten]
            exact fun now later => ⟨rfl, holding'.stable later⟩
        | true =>
            obtain ⟨text, written, readBack⟩ := DiskState.readsBack readsBack next
            refine .inl ⟨agrees', lands_transition ⟨parsed, rewritten, written, readBack⟩ onTime
              ⟨holding', fun _ => untouched.vault.trans present, .inl rfl⟩⟩
  · have untouched : Untouched tid before _ := ⟨@HostAct.unnoticed_of_failed tid before .read length, rfl, alive⟩
    refine ⟨untouched.others, .inr ⟨rfl, op.failure (.io message), vault, .fail op _, untouched.agrees agrees, ?_⟩⟩
    cases failed
    exact fun now later => ⟨rfl, (here.untouched untouched).stable later⟩

end Transact

section Locked

variable {α : Type} {op : BackendOp} {state : HostState} {landed : Option op.Answer}
  {post : α → Option op.Answer → HostState → Prop}

/-- A step outside the sidecar lock that cannot fail. -/
theorem lands_outside {small : HostOp FileOp}
    {next : HostOp.Answer FileOp.Answer small → Program (HostOp FileOp) (HostOp.Answer FileOp.Answer) α}
    (outside : Outside small) (sure : ∀ file message, small = .storage file → file.failed message = none)
    (happens : ∀ before after answer, Others tid state before → before.files.clock ∈ before.readings →
      (overFiles serde aead may timely).permits tid ⟨small, answer⟩ →
      before.files.respond tid small = some (answer, after.files) → Untouched tid before after →
      (overFiles serde aead may timely).Lands tid (.storage op) post (next answer) landed after) :
    (overFiles serde aead may timely).Lands tid (.storage op) post (.step small next) landed state := by
  refine lands_unnoticed fun before after answer moved shown permitted performed => ?_
  cases performed with
  | respond alive responded =>
      have untouched : Untouched tid before _ :=
        ⟨HostAct.unnoticed_of_outside outside responded, (FileState.respond_outside outside responded).1, alive⟩
      exact ⟨untouched.toUnnoticed, .inl (happens before _ answer moved shown permitted responded untouched)⟩
  | fail length alive fails =>
      rw [sure _ _ rfl] at fails
      contradiction
  | generateKey key alive => exact outside.elim
  | generateNonce nonce alive => exact outside.elim
  | newV4 alive fresh => exact outside.elim

theorem failed_unlockProcess (mutex : Nat) (file : FileOp) (message : String)
    (same : (HostOp.storage (FileOp.unlockProcess mutex)) = .storage file) : file.failed message = none := by
  cases same
  rfl

theorem failed_lockProcess (mutex : Nat) (file : FileOp) (message : String)
    (same : (HostOp.storage (FileOp.lockProcess mutex)) = .storage file) : file.failed message = none := by
  cases same
  rfl

/-- The operation is over, and its call is idle again. -/
def Finished (tid : Nat) (op : BackendOp) (result : BackendResult) (landed : Option op.Answer)
    (state : HostState) : Prop :=
  ∃ answer, result = ⟨op, answer⟩ ∧ landed = some answer ∧ state.files.sidecar ≠ some tid

theorem Finished.stable {result : BackendResult} {now : HostState}
    (finished : Finished tid op result landed state) (others : Others tid state now) :
    Finished tid op result landed now := by
  obtain ⟨answer, same, happened, free⟩ := finished
  exact ⟨answer, same, happened, others.free free⟩

theorem lands_finish {call : FileCall} {landed : Option call.op.Answer} {result : BackendResult}
    (finished : Finished tid call.op result landed state) :
    (overFiles serde aead may timely).Lands tid (.storage call.op) (Finished tid call.op) (call.finish result)
      landed state := by
  refine lands_outside trivial (failed_unlockProcess _) fun before after _ moved _ _ _ untouched now later => ?_
  obtain ⟨answer, same, happened, free⟩ := finished.stable moved
  exact ⟨answer, same, happened, later.free (by rw [untouched.keeps]; exact free)⟩

/-- A call without the lock that captured what it needs. -/
def Ready (timely : Nat → DateTime → Prop) (tid : Nat) (op : BackendOp) (captured : Option DateTime)
    (landed : Option op.Answer) (state : HostState) : Prop :=
  landed = none ∧ state.files.sidecar ≠ some tid ∧
    ∃ now ∈ state.readings, captured = captureAt now op ∧ (op = .deleteExpired → timely tid now)

theorem Ready.stable {captured : Option DateTime} {now : HostState}
    (ready : Ready timely tid op captured landed state) (others : Others tid state now) :
    Ready timely tid op captured landed now := by
  obtain ⟨fresh, free, shown, member, kept⟩ := ready
  exact ⟨fresh, others.free free, shown, others.readings member, kept⟩

theorem Ready.untouched {captured : Option DateTime} {after : HostState}
    (ready : Ready timely tid op captured landed state) (untouched : Untouched tid state after) :
    Ready timely tid op captured landed after := by
  obtain ⟨fresh, free, shown, member, kept⟩ := ready
  exact ⟨fresh, by rw [untouched.keeps]; exact free, shown, by rw [untouched.readings]; exact member, kept⟩

theorem lands_capture (free : state.files.sidecar ≠ some tid) (shown : state.files.clock ∈ state.readings) :
    (overFiles serde aead may timely).Lands tid (.storage op) (Ready timely tid op) (capture op) none state := by
  cases op with
  | deleteExpired =>
      refine lands_outside trivial (by simp) fun before after answer moved shown permitted responded untouched => ?_
      simp only [FileState.respond, Option.some.injEq, Prod.mk.injEq] at responded
      obtain ⟨rfl, _⟩ := responded
      have ready : Ready timely tid .deleteExpired (some before.files.clock) none before :=
        ⟨rfl, moved.free free, before.files.clock, shown, rfl, fun _ => permitted.2 _ rfl⟩
      exact fun now later => (ready.untouched untouched).stable later
  | insert recordId record => exact fun now later => Ready.stable ⟨rfl, free, _, shown, rfl, by simp⟩ later
  | fetch recordId => exact fun now later => Ready.stable ⟨rfl, free, _, shown, rfl, by simp⟩ later
  | delete recordId => exact fun now later => Ready.stable ⟨rfl, free, _, shown, rfl, by simp⟩ later

/-- Up to the sidecar lock. -/
theorem lands_before (call : FileCall) (free : state.files.sidecar ≠ some tid) :
    (overFiles serde aead may timely).Lands tid (.storage call.op)
      (Either (Ready timely tid call.op) (Finished tid call.op)) call.before none state := by
  refine lands_outside trivial (failed_lockProcess _) fun before after _ moved shown _ responded untouched => ?_
  have freeAfter : after.files.sidecar ≠ some tid := by
    rw [untouched.keeps]
    exact moved.free free
  have shownAfter : after.files.clock ∈ after.readings := by
    rw [untouched.clock, untouched.readings]
    exact shown
  refine (lands_capture freeAfter shownAfter).bind fun captured landed state ready => ?_
  have fresh := ready.1
  subst fresh
  refine lands_unnoticed fun before after opened moved _ _ performed => ?_
  have alive := performed.alive
  rcases performed.storage_inv with ⟨files, responded, rfl⟩ | ⟨message, length, failed, rfl⟩
  · have outside : Outside (.storage .openLockFile) := trivial
    have untouched : Untouched tid before { before with files } :=
      ⟨HostAct.unnoticed_of_outside outside responded,
        (FileState.respond_outside outside responded).1, alive⟩
    simp only [FileState.respond, Option.some.injEq, Prod.mk.injEq] at responded
    obtain ⟨rfl, _⟩ := responded
    exact ⟨untouched.toUnnoticed, .inl fun now later => ((ready.stable moved).untouched untouched).stable later⟩
  · have untouched : Untouched tid before _ :=
      ⟨@HostAct.unnoticed_of_failed tid before .openLockFile length, rfl, alive⟩
    cases failed
    refine ⟨untouched.toUnnoticed, .inr ⟨rfl, .io message, ?_⟩⟩
    have finished : Finished tid call.op (call.refusal message) (some (call.op.failure (.io message))) _ :=
      ⟨_, rfl, rfl, ((ready.stable moved).untouched untouched).2.1⟩
    exact (lands_finish finished).map fun ends others => ends.stable others

/-- The operation has happened, and its call still has the sidecar lock. -/
def Closed (tid : Nat) (captured : DateTime) (op : BackendOp) (result : BackendResult)
    (landed : Option op.Answer) (state : HostState) : Prop :=
  ∃ answer, result = ⟨op, answer⟩ ∧ landed = some answer ∧ Holding tid captured state

theorem Closed.stable {result : BackendResult} {now : HostState}
    (closed : Closed tid captured op result landed state) (others : Others tid state now) :
    Closed tid captured op result landed now := by
  obtain ⟨answer, same, happened, holding⟩ := closed
  exact ⟨answer, same, happened, holding.stable others⟩

/-- What a call does with the sidecar lock, and after it. -/
theorem lands_onEnter (readsBack : serde.ReadsBack) (call : FileCall) {captured : DateTime}
    (onTime : call.op = .deleteExpired → timely tid captured) (holding : Holding tid captured state) :
    (overFiles serde aead may timely).Lands tid (.storage call.op) (Finished tid call.op)
      (call.onEnter serde (captureAt captured call.op) (.ok ())) none state := by
  rw [onEnter, closure_eq]
  have closed : (overFiles serde aead may timely).Lands tid (.storage call.op) (Closed tid captured call.op)
      ((fun answer => ⟨call.op, answer⟩) <$> transact serde call.store.hasParent call.op captured) none state := by
    refine Lands.map ?_ fun ends others => ends.stable others
    exact (lands_transact readsBack call.store.hasParent onTime holding).weaken fun answer landed state ends =>
      ⟨answer, rfl, ends⟩
  refine closed.bind fun result landed state ends => ?_
  obtain ⟨answer, same, happened, holding⟩ := ends
  refine lands_unnoticed fun before after unlocked moved _ _ performed => ?_
  have held := (holding.stable moved).held performed.alive
  rcases performed.storage_inv with ⟨files, responded, rfl⟩ | ⟨message, length, impossible, rfl⟩
  · simp only [FileState.respond, Option.some.injEq, Prod.mk.injEq] at responded
    obtain ⟨_, rfl⟩ := responded
    refine ⟨⟨rfl, rfl, rfl, rfl, rfl, fun _ _ => rfl, fun other different => ?_⟩, .inl ?_⟩
    · simp [held, different.symm]
    · exact lands_finish ⟨answer, same, happened, by simp⟩
  · contradiction

theorem lands_code (readsBack : serde.ReadsBack) (call : FileCall) (free : state.files.sidecar ≠ some tid) :
    (overFiles serde aead may timely).Lands tid (.storage call.op) (Finished tid call.op) (call.code serde) none
      state := by
  rw [code_eq]
  refine (lands_before call free).bind fun entry landed state ends => ?_
  cases entry with
  | error result => exact fun now later => Finished.stable ends later
  | ok captured =>
      have ready : Ready timely tid call.op captured landed state := ends
      have fresh := ready.1
      subst fresh
      refine lands_unnoticed fun before after locked moved _ _ performed => ?_
      have alive := performed.alive
      obtain ⟨_, free, captured', shown, same, onTime⟩ := ready.stable moved
      subst same
      rcases performed.storage_inv with ⟨files, responded, rfl⟩ | ⟨message, length, failed, rfl⟩
      · obtain ⟨granted, nobody, taken, disk⟩ := FileState.respond_lockExclusive responded
        subst granted
        refine ⟨⟨FileState.respond_keepsClock responded, rfl, rfl, rfl, by rw [disk], fun _ _ => by rw [disk],
          fun other different => ?_⟩, .inl ?_⟩
        · simp [taken, nobody, different.symm]
        · exact lands_onEnter readsBack call onTime ⟨fun _ => taken, shown⟩
      · have untouched : Untouched tid before _ :=
          ⟨@HostAct.unnoticed_of_failed tid before .lockExclusive length, rfl, alive⟩
        cases failed
        exact ⟨untouched.toUnnoticed, .inr ⟨rfl, .io message, lands_finish ⟨_, rfl, rfl, free⟩⟩⟩

theorem lands_perform (readsBack : serde.ReadsBack) (store : LocalFileStore) (op : BackendOp)
    (free : state.files.sidecar ≠ some tid) :
    (overFiles serde aead may timely).Lands tid (.storage op)
      (fun answer landed state => landed = some answer ∧ state.files.sidecar ≠ some tid)
      ((store.backend serde).perform op) none state := by
  have lands := @lands_code serde aead may timely tid state readsBack ⟨store, op⟩ free
  rw [FileCall.code] at lands
  refine lands.of_map.weaken fun answer landed state ends => ?_
  obtain ⟨other, same, happened, free⟩ := ends
  cases same
  exact ⟨happened, free⟩

end Locked

section Refinement

variable {state : HostState}

/-- What a call asks of its machine happens at one step. -/
theorem lands_host {op : HostOp BackendOp} {small : HostOp FileOp}
    {next : HostOp.Answer FileOp.Answer small → Host FileOp.Answer (HostOp.Answer BackendOp.Answer op)}
    (machine : ∀ store, op ≠ .storage store) (free : state.files.sidecar ≠ some tid)
    (happens : ∀ before after vault answer, Agrees serde before vault →
      HostAct tid before ⟨small, answer⟩ after → after = { before with drawn := after.drawn } ∧
        ∃ result vault', next answer = .done result ∧ VaultAct vault ⟨op, result⟩ vault' ∧
          Agrees serde after vault') :
    (overFiles serde aead may timely).Lands tid op
      (fun answer landed state => landed = some answer ∧ state.files.sidecar ≠ some tid)
      (.step small next) none state := by
  intro before moved vault answer after agrees _ performed
  obtain ⟨same, result, vault', returns, act, agrees'⟩ := happens before after vault answer agrees performed
  rw [returns]
  rw [same] at agrees' ⊢
  exact ⟨fun other _ => ⟨List.Subset.refl _, id, fun held _ => ⟨held, rfl⟩, id, rfl⟩,
    .inr ⟨rfl, result, vault', .machine act machine, agrees', fun now later => ⟨rfl, later.free (moved.free free)⟩⟩⟩

theorem lands_lower (readsBack : serde.ReadsBack) (store : LocalFileStore) (op : HostOp BackendOp)
    (free : state.files.sidecar ≠ some tid) :
    (overFiles serde aead may timely).Lands tid op
      (fun answer landed state => landed = some answer ∧ state.files.sidecar ≠ some tid)
      ((store.backend serde).lower op) none state := by
  cases op with
  | storage op => exact lands_perform readsBack store op free
  | panic message => exact lands_host (by simp) free fun _ _ _ answer => answer.elim
  | now =>
      refine lands_host (by simp) free fun before after vault answer agrees performed => ?_
      cases performed with
      | respond alive responded =>
          cases responded
          refine ⟨rfl, _, vault, rfl, ?_, agrees⟩
          rw [← agrees.clock]
          exact .now
  | log line =>
      refine lands_host (by simp) free fun before after vault answer agrees performed => ?_
      cases performed with
      | respond alive responded =>
          cases responded
          exact ⟨rfl, _, vault, rfl, .log line, agrees⟩
  | generateKey =>
      refine lands_host (by simp) free fun before after vault answer agrees performed => ?_
      cases performed with
      | respond alive responded => contradiction
      | generateKey key alive => exact ⟨rfl, answer, vault, rfl, .generateKey answer, agrees⟩
  | generateNonce =>
      refine lands_host (by simp) free fun before after vault answer agrees performed => ?_
      cases performed with
      | respond alive responded => contradiction
      | generateNonce nonce alive => exact ⟨rfl, answer, vault, rfl, .generateNonce answer, agrees⟩
  | newV4 =>
      refine lands_host (by simp) free fun before after vault answer agrees performed => ?_
      cases performed with
      | respond alive responded => contradiction
      | newV4 alive fresh =>
          rw [← agrees.drawn] at fresh
          exact ⟨rfl, _, _, rfl, .newV4 fresh, agrees.holds, agrees.clock, agrees.readings,
            congrArg _ agrees.drawn, agrees.shown⟩

/-- The surroundings move the clock, or change nothing that single operations see. -/
theorem drift_agrees {env : HostEnv} {vault : VaultState} (agrees : Agrees serde state vault)
    (permitted : (overFiles serde aead may timely).permitsDrift state env) :
    (∀ tid, Others tid state (state.drift env)) ∧
      (Agrees serde (state.drift env) vault ∨ ∃ now vault', may vault.clock now ∧
        vault' = { vault with clock := now, readings := now :: vault.readings } ∧
        Agrees serde (state.drift env) vault') := by
  cases env with
  | tick now =>
      refine ⟨fun tid => ⟨List.subset_cons_self _ _, id, fun held _ => ⟨held, rfl⟩, id, rfl⟩,
        .inr ⟨now, _, ?_, rfl, agrees.holds, rfl, congrArg _ agrees.readings, agrees.drawn,
          List.mem_cons_self⟩⟩
      rw [agrees.clock]
      exact permitted now rfl
  | dropFuture tid =>
      exact ⟨fun tid => ⟨List.Subset.refl _, id, fun held _ => ⟨held, rfl⟩, id, rfl⟩,
        .inl ⟨agrees.holds, agrees.clock, agrees.readings, agrees.drawn, agrees.shown⟩⟩
  | kill victims =>
      refine ⟨fun tid => ⟨List.Subset.refl _, List.mem_append_right _, fun held alive => ⟨?_, rfl⟩,
          fun free held => ?_, rfl⟩,
        .inl ⟨agrees.holds, agrees.clock, agrees.readings, agrees.drawn, agrees.shown⟩⟩
      · have spared : tid ∉ victims := fun victim => alive (List.mem_append_left _ victim)
        simp [HostState.drift, held, spared]
      · obtain ⟨held, _⟩ := Option.filter_eq_some_iff.mp held
        exact free held

/-- Vault calls over the vault file refine vault calls over single operations. -/
def fileRefinement (readsBack : serde.ReadsBack) (aead : Aead) (may : DateTime → DateTime → Prop)
    (timely : Nat → DateTime → Prop) : Refinement (fileVaults serde aead) where
  toCorrespondence := overFiles serde aead may timely
  drifts vault now := may vault.clock now
  lands call _ op _ free := lands_lower readsBack call.store op free
  drift := by
    intro state env state' vault permitted changed agrees
    obtain ⟨undisturbed, goesOn⟩ := drift_agrees agrees permitted
    simp only at changed
    subst changed
    refine ⟨undisturbed, ?_⟩
    rcases goesOn with agrees' | ⟨now, vault', moves, drifted, agrees'⟩
    · exact .inl agrees'
    · exact .inr ⟨now, vault', moves, drifted, agrees'⟩

end Refinement

/-- A run in which permissions can always be set and the clock moves as `may` says. -/
def Considered (serde : Serde) (aead : Aead) (may : DateTime → DateTime → Prop)
    (config : Config (fileVaults serde aead).low) (label : Label (fileVaults serde aead).low) : Prop :=
  (∀ tid message, label ≠ .act tid ⟨.storage .setPermissions, .error message⟩) ∧
    ∀ now, label = .drift (.tick now) → may config.shared.files.clock now

/-- A configuration of single operations explains one of file steps: the vault file
holds its records, the same calls are there, and what has returned has returned the
same. -/
structure Explained (serde : Serde) {aead : Aead} (config : Config (fileVaults serde aead).low)
    (config' : Config (vaultSystem aead)) : Prop extends Refinement.Mirrored config config' where
  holds : Holds serde config.shared.files.disk config'.shared.records
  clock : config'.shared.clock = config.shared.files.clock

section Runs

variable {config : Config (fileVaults serde aead).low} {config' : Config (vaultSystem aead)}

theorem explained_of_related {readsBack : serde.ReadsBack}
    (related : (fileRefinement readsBack aead may timely).Related config config') :
    Explained serde config config' where
  toMirrored := related.mirrored
  holds := related.agrees.holds
  clock := related.agrees.clock

theorem meets_of_considered {readsBack : serde.ReadsBack} {label : Label (fileVaults serde aead).low}
    (considered : Considered serde aead may config label)
    (onTime : ∀ tid now, label = .act tid ⟨.now, now⟩ → timely tid now) :
    (fileRefinement readsBack aead may timely).Meets config label := by
  cases label with
  | invoke tid call => trivial
  | act tid event =>
      exact ⟨fun message same => considered.1 tid message (congrArg _ same),
        fun now same => onTime tid now (congrArg _ same)⟩
  | drift env => exact fun now same => considered.2 now (congrArg _ same)

theorem clockMay_of_explains {readsBack : serde.ReadsBack} {label : Label (vaultSystem aead)}
    {last' : Config (vaultSystem aead)}
    (explains : (fileRefinement readsBack aead may timely).Explains config' label last') :
    ClockMay may config' label := by
  intro now same
  subst same
  exact explains

theorem explained_alongside {readsBack : serde.ReadsBack} {last : Config (fileVaults serde aead).low}
    {steps : List (Label (fileVaults serde aead).low × Config (fileVaults serde aead).low)}
    (related : (fileRefinement readsBack aead may fun _ _ => True).Related config config')
    (run : Passage (Considered serde aead may) config steps last) :
    ∃ ops last', Alongside (fun config op _ => ClockMay may config op)
      (fileRefinement readsBack aead may fun _ _ => True).Related config config' steps last ops last' := by
  obtain ⟨ops, last', along⟩ := related.alongside
    (run.weaken fun _ _ considered => meets_of_considered considered fun _ _ _ => trivial)
  exact ⟨ops, last', along.mono (fun _ _ _ => clockMay_of_explains) fun _ _ => id⟩

theorem explained_run {readsBack : serde.ReadsBack} {labels : List (Label (fileVaults serde aead).low)}
    {last : Config (fileVaults serde aead).low}
    (related : (fileRefinement readsBack aead may fun _ _ => True).Related config config')
    (run : RunWhere (Considered serde aead may) config labels last) :
    ∃ ops last', RunWhere (ClockMay may) config' ops last' ∧
      (fileRefinement readsBack aead may fun _ _ => True).Related last last' := by
  obtain ⟨_, passage⟩ := Passage.of_run run
  obtain ⟨ops, last', along⟩ := explained_alongside related passage
  exact ⟨ops, last', along.runThrough.runWhere fun _ _ _ => id, along.related⟩

theorem related_start {readsBack : serde.ReadsBack} {state : HostState} {vault : VaultState}
    (agrees : Agrees serde state vault) (free : state.files.sidecar = none) :
    (fileRefinement readsBack aead may timely).Related (Config.start state) (Config.start vault) :=
  Refinement.related_start agrees fun tid held => by
    rw [free] at held
    contradiction

end Runs

end TariVault
