import TariVault.Storage.LocalFile

namespace TariVault

open Program

/-! # Read, decide, write

Under the locks the four operations are one program: read the state, compute the
answer and perhaps a new state from it, and write the new state if there is one.
-/

namespace BackendOp

/-- The answer of an operation on the state it read. -/
def outcome (now : DateTime) : (op : BackendOp) → DiskState → op.Answer
  | .insert _ _, _ => .ok ()
  | .fetch recordId, state =>
      match state[Uuid.hyphenated recordId]? with
      | some record => .ok record
      | none => .error .notFound
  | .delete recordId, state => .ok (state.contains (Uuid.hyphenated recordId))
  | .deleteExpired, state =>
      .ok (state.size - (state.filter fun _ record => record.retainedAt now).size)

/-- The state an operation writes over the one it read, if it writes at all. -/
def rewrite (now : DateTime) : BackendOp → DiskState → Option DiskState
  | .insert recordId record, state => some (state.insert (Uuid.hyphenated recordId) record)
  | .fetch _, _ => none
  | .delete recordId, state =>
      if state.contains (Uuid.hyphenated recordId) then some (state.erase (Uuid.hyphenated recordId))
      else none
  | .deleteExpired, state =>
      let kept := state.filter fun _ record => record.retainedAt now
      if 0 < state.size - kept.size then some kept else none

def Failed (op : BackendOp) (answer : op.Answer) : Prop := ∃ error, answer = op.failure error

theorem not_failed_of_rewrite {op : BackendOp} {now : DateTime} {read next : DiskState}
    (rewritten : op.rewrite now read = some next) : ¬ op.Failed (op.outcome now read) := by
  intro holds
  obtain ⟨error, failed⟩ := holds
  cases op with
  | fetch recordId => contradiction
  | _ => contradiction

end BackendOp

variable (serde : Serde)

/-- What an operation does with the state it could read. -/
def transition (hasParent : Bool) (op : BackendOp) (now : DateTime) (state : DiskState) :
    Host FileOp.Answer op.Answer :=
  match op.rewrite now state with
  | none => return op.outcome now state
  | some next => do
      match ← (writeAtomic serde hasParent next).run with
      | .ok _ => return op.outcome now state
      | .error error => return op.failure error

def transact (hasParent : Bool) (op : BackendOp) (now : DateTime) : Host FileOp.Answer op.Answer := do
  match ← (LocalFileStore.readState serde).run with
  | .ok state => transition serde hasParent op now state
  | .error error => return op.failure error

variable {serde}

theorem bind_return {α β : Type} {program : Host FileOp.Answer α} {rest : α → Host FileOp.Answer β}
    {returns : α → β} (same : ∀ value, rest value = .done (returns value)) :
    program >>= rest = returns <$> program := by
  rw [map_eq_pure_bind]
  exact congrArg (program >>= ·) (funext same)

namespace LocalFileStore

variable (store : LocalFileStore) (now : DateTime)

theorem insertBody_run (recordId : RecordId) (record : StoredRecord) :
    (store.insertBody serde recordId record).run =
      transact serde store.hasParent (.insert recordId record) now := by
  refine congrArg ((readState serde).run >>= ·) (funext fun read => ?_)
  cases read with
  | error error => rfl
  | ok state =>
      refine ((bind_return fun result => ?_).trans (id_map _)).symm
      cases result <;> rfl

theorem fetchBody_run (recordId : RecordId) :
    (fetchBody serde recordId).run = transact serde store.hasParent (.fetch recordId) now := by
  refine congrArg ((readState serde).run >>= ·) (funext fun read => ?_)
  cases read with
  | error error => rfl
  | ok state =>
      simp only [ExceptT.bindCont, transition, BackendOp.rewrite, BackendOp.outcome]
      cases state[Uuid.hyphenated recordId]? <;> rfl

theorem deleteBody_run (recordId : RecordId) :
    (store.deleteBody serde recordId).run =
      transact serde store.hasParent (.delete recordId) now := by
  refine congrArg ((readState serde).run >>= ·) (funext fun read => ?_)
  cases read with
  | error error => rfl
  | ok state =>
      simp only [ExceptT.bindCont, transition, BackendOp.rewrite, BackendOp.outcome]
      cases state.contains (Uuid.hyphenated recordId) with
      | false => rfl
      | true =>
          let erased := state.erase (Uuid.hyphenated recordId)
          refine congrArg ((writeAtomic serde store.hasParent erased).run >>= ·) (funext fun result => ?_)
          cases result <;> rfl

theorem deleteExpiredBody_run :
    (store.deleteExpiredBody serde now).run = transact serde store.hasParent .deleteExpired now := by
  refine congrArg ((readState serde).run >>= ·) (funext fun read => ?_)
  cases read with
  | error error => rfl
  | ok state =>
      simp only [ExceptT.bindCont, transition, BackendOp.rewrite, BackendOp.outcome]
      let kept := state.filter fun _ record => record.retainedAt now
      by_cases removed : 0 < state.size - kept.size
      · simp only [kept, removed, if_true]
        refine congrArg ((writeAtomic serde store.hasParent kept).run >>= ·) (funext fun result => ?_)
        cases result <;> rfl
      · simp only [kept, removed, if_false]
        rfl

end LocalFileStore

end TariVault
