import TariVault.Storage.Sequence
import TariVault.Vault.Lowering

namespace TariVault

open Program TariVault.System

/-! # A vault over the file store, one call after another

The calls take their clock values and random draws from a supply. Over the file
store they do what they do over the map.
-/

/-- What the surroundings give out, one value at a time. -/
structure Supply where
  now : Nat → DateTime
  key : Nat → EncryptionKey
  nonce : Nat → Nonce
  recordId : Nat → RecordId

/-- The storage under the calls, how much of the supply they have taken, and the
record ids they drew. -/
structure Session (σ : Type) where
  storage : σ
  taken : Nat
  drawn : List RecordId

namespace Session

variable {β σ : Type} {A : β → Type}

def take (session : Session σ) : Session σ := { session with taken := session.taken + 1 }

def respond (supply : Supply) (store : Session σ → (op : β) → Option (A op × Session σ))
    (session : Session σ) : (op : HostOp β) → Option (HostOp.Answer A op × Session σ)
  | .now => some (supply.now session.taken, session.take)
  | .generateKey => some (supply.key session.taken, session.take)
  | .generateNonce => some (supply.nonce session.taken, session.take)
  | .newV4 => some (supply.recordId session.taken,
      { session.take with drawn := supply.recordId session.taken :: session.drawn })
  | .log _ => some ((), session)
  | .panic _ => none
  | .storage op => store session op

/-- One step of the file store. -/
def onFiles (tid : Nat) (session : Session FileState) (op : FileOp) :
    Option (op.Answer × Session FileState) :=
  (session.storage.respond tid (.storage op)).map fun result =>
    (result.1, { session with storage := result.2 })

/-- A whole operation on the map. Only a sweep looks at the clock. -/
def onContents (supply : Supply) (session : Session Contents) (op : BackendOp) :
    Option (op.Answer × Session Contents) :=
  let result := session.storage.apply (supply.now session.taken) op
  some (result.1, { session with
    storage := result.2
    taken := if op = .deleteExpired then session.taken + 1 else session.taken })

end Session

open Session

/-- A call to a vault over an open store: its answer, unless it panics. -/
def LocalFileStore.serve (serde : Serde) (store : LocalFileStore) (aead : Aead) (supply : Supply)
    (tid : Nat) (session : Session FileState) (call : VaultCall) :
    Option (Except VaultError Reply) × Session FileState :=
  (call.program (store.backend serde) aead).exec (respond supply (onFiles tid)) session

/-- A call to a vault over the map. -/
def Contents.serve (aead : Aead) (supply : Supply) (session : Session Contents) (call : VaultCall) :
    Option (Except VaultError Reply) × Session Contents :=
  (call.code aead).exec (respond supply (onContents supply)) session

/-- What works on the lock files and the vault file. -/
def OnStore : HostOp FileOp → Prop
  | .storage _ => True
  | _ => False

theorem FileState.respond_clock (tid : Nat) (state : FileState) (now : DateTime) (op : FileOp) :
    ({ state with clock := now } : FileState).respond tid (.storage op) =
      (state.respond tid (.storage op)).map fun result => (result.1, { result.2 with clock := now }) := by
  cases op with
  | lockProcess mutex =>
      simp only [respond]
      cases state.mutexes mutex <;> rfl
  | unlockProcess mutex =>
      simp only [respond, Option.map_some]
      split <;> rfl
  | lockExclusive =>
      simp only [respond]
      cases state.sidecar <;> rfl
  | openLockFile => rfl
  | unlock => rfl
  | _ =>
      simp only [respond, Option.map_map]
      rfl

theorem OnFiles.onStore {op : HostOp FileOp} (onFiles : OnFiles op) : OnStore op := by
  cases op with
  | storage op => trivial
  | _ => exact onFiles.elim

section Store

variable {supply : Supply} {tid : Nat} {α : Type} {program : Host FileOp.Answer α}

/-- What works on the store runs in a session as it does at any time. -/
theorem run_onStore (within : program.Within OnStore) (session : Session FileState) (now : DateTime) :
    program.run (respond supply (onFiles tid)) session =
      (program.run (FileState.respond tid) { session.storage with clock := now }).map fun result =>
        (result.1, { session with storage := { result.2 with clock := session.storage.clock } }) := by
  induction within generalizing session with
  | done value => rfl
  | @step op next here _ ih =>
      cases op with
      | storage op =>
          simp only [run, FileState.respond_clock, respond, onFiles]
          cases answered : session.storage.respond tid (.storage op) with
          | none => rfl
          | some result =>
              have kept := FileState.respond_clock tid session.storage session.storage.clock op
              have same : some result = some (result.1, { result.2 with clock := session.storage.clock }) :=
                answered.symm.trans (kept.trans (congrArg _ answered))
              have sameClock : result.2.clock = session.storage.clock :=
                congrArg (fun result => result.2.clock) (Option.some.inj same)
              simp only [Option.map_some]
              rw [ih]
              simp [sameClock]
      | _ => exact here.elim

/-- Once it has the mutex, and the clock value if it is a sweep, a call works on the
store only. -/
theorem FileCall.code_reads (serde : Serde) (call : FileCall) :
    ∃ rest, (∀ captured, (rest captured).Within OnStore) ∧
      call.code serde = .step (.storage (.lockProcess call.store.processLock)) fun _ =>
        capture call.op >>= rest := by
  apply Exists.intro
  apply And.intro
  case right =>
    rw [code_eq, before, step_bind]
    simp only [bind_assoc]
    rfl
  case left =>
    intro captured
    refine .step trivial fun opened => ?_
    have finishes (result : BackendResult) : (call.finish result).Within OnStore :=
      .step trivial fun _ => .done _
    cases opened with
    | error message => exact .step trivial fun _ => .done _
    | ok opened =>
        refine .step trivial fun locked => ?_
        cases locked with
        | error message => exact finishes _
        | ok locked =>
            refine ((closure_within call captured).mono fun _ => OnFiles.onStore).bind fun result => ?_
            exact .step trivial fun _ => finishes result

variable {serde : Serde} {store : LocalFileStore} {contents : Contents}

/-- An operation of the store in a session is its operation on the map. -/
theorem perform_run (readsBack : serde.ReadsBack) (hasParent : store.hasParent = true)
    (session : Session FileState) (represents : session.storage.Represents serde contents)
    (op : BackendOp) :
    ∃ next, ((store.backend serde).perform op).run (respond supply (onFiles tid)) session =
        some ((contents.apply (supply.now session.taken) op).1, { session with
          storage := next
          taken := if op = .deleteExpired then session.taken + 1 else session.taken }) ∧
      next.Represents serde (contents.apply (supply.now session.taken) op).2 := by
  obtain ⟨disk, clock, idle, holds⟩ := represents
  let now := supply.now session.taken
  obtain ⟨disk', ran, left⟩ := @FileCall.code_refines serde ⟨store, op⟩ tid now _ _ readsBack hasParent holds
  obtain ⟨rest, within, shape⟩ := FileCall.code_reads serde ⟨store, op⟩
  let locked : FileState :=
    { session.storage with mutexes := Function.update (fun _ => none) store.processLock (some tid) }
  have answered : respond supply (onFiles tid) session (.storage (.lockProcess store.processLock)) =
      some ((), { session with storage := locked }) := by
    simp only [respond, onFiles, idle, FileState.idle, FileState.respond, locked, Option.map_some]
  have captured : (FileCall.capture op).run (respond supply (onFiles tid)) { session with storage := locked } =
      some (FileCall.captureAt now op, { session with
        storage := locked
        taken := if op = .deleteExpired then session.taken + 1 else session.taken }) := by
    cases op <;> rfl
  have alone : (rest (FileCall.captureAt now op)).run (FileState.respond tid) { locked with clock := now } =
      some (⟨op, (contents.apply now op).1⟩, .idle disk' now) := by
    have capturedAlone : (FileCall.capture op).run (FileState.respond tid) { locked with clock := now } =
        some (FileCall.captureAt now op, { locked with clock := now }) := by
      cases op <;> rfl
    have lockedAlone : (FileState.idle disk now).respond tid (.storage (.lockProcess store.processLock)) =
        some ((), { locked with clock := now }) := by
      simp only [FileState.idle, FileState.respond, locked, idle]
    rw [shape, run_step lockedAlone, run_bind_of_eq capturedAlone] at ran
    exact ran
  have whole : ((FileCall.mk store op).code serde).run (respond supply (onFiles tid)) session =
      some (⟨op, (contents.apply now op).1⟩, { session with
        storage := .idle disk' clock
        taken := if op = .deleteExpired then session.taken + 1 else session.taken }) := by
    rw [shape, run_step answered, run_bind_of_eq captured, run_onStore (within _) _ now, alone]
    simp only [Option.map_some, locked, idle, FileState.idle]
  rw [FileCall.code, run_map] at whole
  obtain ⟨⟨answer, after⟩, performed, same⟩ := Option.map_eq_some_iff.mp whole
  cases same
  exact ⟨_, performed, disk', clock, rfl, left⟩

/-- The vault file is the map, and the same things were drawn. -/
structure Abstracts (serde : Serde) (low : Session FileState) (high : Session Contents) : Prop where
  represents : low.storage.Represents serde high.storage
  taken : low.taken = high.taken
  drawn : low.drawn = high.drawn

variable {low : Session FileState} {high : Session Contents}

theorem lower_faithful (readsBack : serde.ReadsBack) (hasParent : store.hasParent = true)
    (op : HostOp BackendOp) (low : Session FileState) (high : Session Contents)
    (abstracts : Abstracts serde low high) :
    SameOutcome (Abstracts serde)
      (((store.backend serde).lower op).exec (respond supply (onFiles tid)) low)
      ((perform op).exec (respond supply (onContents supply)) high) := by
  obtain ⟨storage, taken, drawn⟩ := low
  obtain ⟨contents, _, _⟩ := high
  obtain ⟨represents, rfl, rfl⟩ := abstracts
  cases op with
  | storage op =>
      obtain ⟨next, ran, left⟩ := @perform_run supply tid _ _ _ readsBack hasParent
        ⟨storage, taken, drawn⟩ represents op
      have lowered := exec_of_run ran
      rw [StorageBackend.lower, lowered]
      exact ⟨rfl, left, rfl, rfl⟩
  | _ => exact ⟨rfl, represents, rfl, rfl⟩

/-- A call answers over the file as it does over the map. -/
theorem serve_agrees (readsBack : serde.ReadsBack) (hasParent : store.hasParent = true) {aead : Aead}
    (call : VaultCall) (abstracts : Abstracts serde low high) :
    SameOutcome (Abstracts serde) (store.serve serde aead supply tid low call)
      (Contents.serve aead supply high call) := by
  rw [LocalFileStore.serve, VaultCall.program_eq]
  exact exec_interpret (lower_faithful readsBack hasParent) _ abstracts

end Store

/-- A call with what it answered; `none` when it panicked. -/
structure Exchange where
  call : VaultCall
  outcome : Option (Except VaultError Reply)

inductive Served {σ : Type} (serve : Session σ → VaultCall → Option (Except VaultError Reply) × Session σ)
    (start : Session σ) : List Exchange → Session σ → Prop where
  | nil : Served serve start [] start
  | snoc {exchanges session} (earlier : Served serve start exchanges session) (call : VaultCall) :
      Served serve start (exchanges ++ [⟨call, (serve session call).1⟩]) (serve session call).2

theorem Served.agrees {serde : Serde} {store : LocalFileStore} {aead : Aead} {supply : Supply} {tid : Nat}
    (readsBack : serde.ReadsBack) (hasParent : store.hasParent = true)
    {low last : Session FileState} {high : Session Contents} {exchanges : List Exchange}
    (abstracts : Abstracts serde low high)
    (served : Served (store.serve serde aead supply tid) low exchanges last) :
    ∃ last', Served (Contents.serve aead supply) high exchanges last' ∧ Abstracts serde last last' := by
  induction served with
  | nil => exact ⟨high, .nil, abstracts⟩
  | snoc _ call ih =>
      obtain ⟨middle, ran, related⟩ := ih
      obtain ⟨same, stays⟩ := @serve_agrees supply tid _ _ _ _ readsBack hasParent aead call
        related
      exact ⟨_, by rw [same]; exact ran.snoc call, stays⟩

end TariVault
