import TariVault.Program.Interleaving
import TariVault.Storage.Contents
import TariVault.Vault.Calls

namespace TariVault

open Program VaultEvent TariVault.System

/-! # A vault under concurrent calls

Any number of calls run over one backend whose operations are single steps, as
the backends' locks make them, and may fail leaving the contents unchanged. The
clock moves between the steps. Record ids are never drawn twice.
-/

structure VaultState where
  records : Contents
  clock : DateTime
  /-- Every value the clock has shown. -/
  readings : List DateTime
  drawn : List RecordId

def VaultState.initial (clock : DateTime) : VaultState :=
  { records := ∅, clock, readings := [clock], drawn := [] }

inductive VaultAct : VaultState → VaultEvent → VaultState → Prop where
  | now {state} : VaultAct state (clockRead state.clock) state
  | generateKey {state} (key : EncryptionKey) : VaultAct state ⟨.generateKey, key⟩ state
  | generateNonce {state} (nonce : Nonce) : VaultAct state ⟨.generateNonce, nonce⟩ state
  | newV4 {state : VaultState} {recordId : RecordId} (fresh : recordId ∉ state.drawn) :
      VaultAct state (drewId recordId) { state with drawn := recordId :: state.drawn }
  | log {state} (line : String) : VaultAct state (logged line) state
  -- A sweep compares with a clock value it captured earlier.
  | perform {state : VaultState} (op : BackendOp) {captured : DateTime}
      (shown : captured ∈ state.readings) :
      VaultAct state ⟨.storage op, (state.records.apply captured op).1⟩
        { state with records := (state.records.apply captured op).2 }
  | fail {state} (op : BackendOp) (error : StorageError) :
      VaultAct state ⟨.storage op, op.failure error⟩ state

/-- The whole system: vault calls over shared storage, and a clock. -/
abbrev vaultSystem (aead : Aead) : System (HostOp BackendOp) (HostOp.Answer BackendOp.Answer) where
  Call := VaultCall
  Result := Except VaultError Reply
  State := VaultState
  Env := DateTime
  code := VaultCall.code aead
  act _ := VaultAct
  drift state clock state' := state' = { state with clock, readings := clock :: state.readings }

abbrev vaultStart (aead : Aead) (clock : DateTime) : Config (vaultSystem aead) :=
  Config.start (VaultState.initial clock)

namespace VaultAct

variable {state state' : VaultState} {recordId : RecordId} {record : StoredRecord}

/-- A storage operation either happens, at some value of the clock, or fails and
changes nothing. -/
theorem storage_inv {op : BackendOp} {answer : op.Answer}
    (act : VaultAct state ⟨.storage op, answer⟩ state') :
    (∃ captured ∈ state.readings, answer = (state.records.apply captured op).1 ∧
      state' = { state with records := (state.records.apply captured op).2 }) ∨
    (∃ error, answer = op.failure error) ∧ state' = state := by
  cases act with
  | perform op shown => exact .inl ⟨_, shown, rfl, rfl⟩
  | fail op error => exact .inr ⟨⟨error, rfl⟩, rfl⟩

theorem fetched_inv {result : Except StorageError StoredRecord}
    (act : VaultAct state (fetched recordId result) state') :
    state' = state ∧ ∀ record, result = .ok record → state.records[recordId]? = some record := by
  rcases act.storage_inv with ⟨captured, _, answered, rfl⟩ | ⟨⟨error, failed⟩, rfl⟩
  · refine ⟨rfl, fun record found => ?_⟩
    simp only [Contents.apply, found] at answered
    cases stored : state.records[recordId]? with
    | none =>
        rw [stored] at answered
        contradiction
    | some other =>
        rw [stored] at answered
        cases answered
        rfl
  · refine ⟨rfl, fun record found => ?_⟩
    rw [failed] at found
    contradiction

theorem deleted_inv {result : Except StorageError Bool}
    (act : VaultAct state (deleted recordId result) state') :
    (result = .ok (state.records.contains recordId) ∧
      state' = { state with records := state.records.erase recordId }) ∨
    (∃ error, result = .error error) ∧ state' = state := by
  rcases act.storage_inv with ⟨captured, _, answered, rfl⟩ | failed
  · exact .inl ⟨answered, rfl⟩
  · exact .inr failed

/-- What an act does to the contents it may do only as a storage operation. -/
theorem records_inv {event : VaultEvent} (act : VaultAct state event state') :
    state'.records = state.records ∨ ∃ op answer captured, event = ⟨.storage op, answer⟩ ∧
      captured ∈ state.readings ∧ answer = (state.records.apply captured op).1 ∧
      state'.records = (state.records.apply captured op).2 := by
  cases act with
  | perform op shown => exact .inr ⟨op, _, _, rfl, shown, rfl, rfl⟩
  | _ => exact .inl rfl

theorem clock_eq {event : VaultEvent} (act : VaultAct state event state') :
    state'.clock = state.clock ∧ state'.readings = state.readings := by
  cases act <;> exact ⟨rfl, rfl⟩

theorem drawn_inv {event : VaultEvent} (act : VaultAct state event state') :
    state.drawn ⊆ state'.drawn ∧ ∀ recordId, event = drewId recordId →
      recordId ∉ state.drawn ∧ recordId ∈ state'.drawn := by
  cases act with
  | newV4 fresh =>
      refine ⟨List.subset_cons_self _ _, fun other same => ?_⟩
      cases same
      exact ⟨fresh, List.mem_cons_self⟩
  | _ => exact ⟨List.Subset.refl _, by simp⟩

theorem now_inv {now : DateTime} (act : VaultAct state (clockRead now) state') :
    now = state.clock := by
  cases act
  rfl

end VaultAct

section Invariants

variable {aead : Aead} {clock : DateTime} {labels : List (Label (vaultSystem aead))}
  {config last : Config (vaultSystem aead)} {label : Label (vaultSystem aead)}
  {ok : Config (vaultSystem aead) → Label (vaultSystem aead) → Prop}
  {recordId : RecordId} {record other : StoredRecord}

def Happened (config : Config (vaultSystem aead)) (event : VaultEvent) : Prop :=
  ∃ tid thread, config.threads tid = some thread ∧ thread.Did event

theorem Happened.step {event : VaultEvent} (happened : Happened config event)
    (step : Step config label last) : Happened last event := by
  obtain ⟨tid, thread, found, did⟩ := happened
  obtain ⟨later, foundLater, _, didLater⟩ := step.keeps_did found did
  exact ⟨tid, later, foundLater, didLater⟩

/-- An event of the new configuration is an old one, or is the act of this step. -/
theorem Happened.of_step {event : VaultEvent} (happened : Happened last event)
    (step : Step config label last) :
    Happened config event ∨ ∃ tid, label = .act tid event ∧ VaultAct config.shared event last.shared := by
  obtain ⟨tid, thread, found, did⟩ := happened
  obtain ⟨before, foundBefore, _, old | ⟨isAct, performed, _⟩⟩ := step.did found did
  · exact .inl ⟨tid, before, foundBefore, old⟩
  · exact .inr ⟨tid, isAct, performed⟩

/-- Every drawn id is remembered, and only one call has drawn it. -/
structure DrawnOnce (config : Config (vaultSystem aead)) : Prop where
  remembered : ∀ recordId, Happened config (drewId recordId) → recordId ∈ config.shared.drawn
  byOne : ∀ tid tid' thread thread' recordId, config.threads tid = some thread →
    config.threads tid' = some thread' → thread.Did (drewId recordId) →
    thread'.Did (drewId recordId) → tid = tid'

theorem drawn_subset (step : Step config label last) :
    config.shared.drawn ⊆ last.shared.drawn := by
  cases step with
  | invoke free => exact List.Subset.refl _
  | act running performed => exact (VaultAct.drawn_inv performed).1
  | drift changed =>
      simp only at changed
      subst changed
      exact List.Subset.refl _

theorem DrawnOnce.step (once : DrawnOnce config) (step : Step config label last) :
    DrawnOnce last := by
  constructor
  · intro recordId happened
    rcases happened.of_step step with old | ⟨tid, _, performed⟩
    · exact drawn_subset step (once.remembered recordId old)
    · exact (performed.drawn_inv.2 recordId rfl).2
  · intro tid tid' thread thread' recordId found found' drew drew'
    obtain ⟨before, foundBefore, _, old | ⟨isAct, performed, _⟩⟩ := step.did found drew
    · obtain ⟨before', foundBefore', _, old' | ⟨_, performed', _⟩⟩ := step.did found' drew'
      · exact once.byOne tid tid' before before' recordId foundBefore foundBefore' old old'
      · exact absurd (once.remembered recordId ⟨tid, before, foundBefore, old⟩)
          ((VaultAct.drawn_inv performed').2 recordId rfl).1
    · obtain ⟨before', foundBefore', _, old' | ⟨isAct', _, _⟩⟩ := step.did found' drew'
      · exact absurd (once.remembered recordId ⟨tid', before', foundBefore', old'⟩)
          ((VaultAct.drawn_inv performed).2 recordId rfl).1
      · rw [isAct] at isAct'
        injection isAct'

theorem drawnOnce (run : RunWhere ok (vaultStart aead clock) labels config) :
    DrawnOnce config := by
  induction run with
  | refl =>
      refine ⟨?_, ?_⟩
      · intro recordId holds
        obtain ⟨tid, thread, found, _⟩ := holds
        cases found
      · intro tid _ thread _ _ found
        cases found
  | snoc _ _ step ih => exact ih.step step

def Followed (config : Config (vaultSystem aead)) : Prop :=
  ∀ tid thread, config.threads tid = some thread →
    Leads (thread.call.code aead) thread.past thread.rest

theorem followed (run : RunWhere ok (vaultStart aead clock) labels config) :
    Followed config :=
  fun _ _ found => (run.history found).1

/-- A call that is about to insert is the only one that ever has, or will have,
inserted under its id. -/
theorem not_inserted_before (once : DrawnOnce config) (followed : Followed config)
    {tid : Nat} {thread : Thread (vaultSystem aead)} (found : config.threads tid = some thread)
    {next : Except StorageError Unit → VaultProgram (Except VaultError Reply)}
    (inserting : thread.rest = .step (.storage (.insert recordId record)) next)
    {result : Except StorageError Unit} : ¬ Happened config (inserted recordId other result) := by
  intro holds
  obtain ⟨tid', thread', found', did'⟩ := holds
  have leads := followed tid thread found
  rw [inserting] at leads
  obtain ⟨drew, untouched⟩ := untouched_of_inserting leads
  obtain ⟨proof, draft, ttl, front, logs, insertion, rfl, rfl⟩ :=
    insertion_of_mem (followed tid' thread' found') did'
  have same := once.byOne tid tid' thread thread' draft.recordId found found' drew insertion.drew
  subst same
  rw [found] at found'
  cases found'
  exact untouched _ did' _ rfl

theorem inserted_unique (once : DrawnOnce config) (followed : Followed config)
    {result result' : Except StorageError Unit}
    (first : Happened config (inserted recordId record result))
    (second : Happened config (inserted recordId other result')) : record = other := by
  obtain ⟨tid, thread, found, did⟩ := first
  obtain ⟨tid', thread', found', did'⟩ := second
  obtain ⟨proof, draft, ttl, front, logs, insertion, sameId, rfl⟩ :=
    insertion_of_mem (followed tid thread found) did
  obtain ⟨proof', draft', ttl', front', logs', insertion', sameId', rfl⟩ :=
    insertion_of_mem (followed tid' thread' found') did'
  have same := once.byOne tid tid' thread thread' recordId found found'
    (sameId ▸ insertion.drew) (sameId' ▸ insertion'.drew)
  subst same
  rw [found] at found'
  cases found'
  have same := insertion.storage_mem did' rfl
  injection same with sameOp
  injection sameOp with sameStorage
  injection sameStorage with _ sameRecord
  exact sameRecord.symm

/-- The record was inserted and is no longer stored. -/
structure Gone (config : Config (vaultSystem aead)) (recordId : RecordId) : Prop where
  inserted : ∃ record, Happened config (inserted recordId record (.ok ()))
  absent : config.shared.records[recordId]? = none

theorem Gone.step (gone : Gone config recordId) (once : DrawnOnce config)
    (followed : Followed config) (step : Step config label last) : Gone last recordId := by
  obtain ⟨⟨record, happened⟩, absent⟩ := gone
  refine ⟨⟨record, happened.step step⟩, ?_⟩
  cases step with
  | invoke free => exact absent
  | drift changed =>
      simp only at changed
      subst changed
      exact absent
  | @act tid call past op next answer shared running performed =>
      rcases VaultAct.records_inv performed with same | ⟨op', answer', captured, isStorage, _, _, after⟩
      · rw [same]
        exact absent
      · cases present : shared.records[recordId]? with
        | none => rfl
        | some back =>
            rw [after] at present
            rcases Contents.apply_brings present with old | rfl
            · rw [absent] at old
              contradiction
            · -- Inserting again would take a second call that drew the same id.
              cases isStorage
              exact absurd happened (not_inserted_before once followed running rfl)

/-- Where records come from and go to, in every reachable configuration. -/
structure Coherent (config : Config (vaultSystem aead)) : Prop where
  once : DrawnOnce config
  followed : Followed config
  stored : ∀ recordId record, config.shared.records[recordId]? = some record →
    Happened config (inserted recordId record (.ok ()))
  fetched : ∀ recordId record, Happened config (fetched recordId (.ok record)) →
    Happened config (inserted recordId record (.ok ()))
  removed : ∀ recordId found, Happened config (deleted recordId (.ok found)) → Gone config recordId
  removedOnce : ∀ tid tid' thread thread' recordId, config.threads tid = some thread →
    config.threads tid' = some thread' → thread.Did (deleted recordId (.ok true)) →
    thread'.Did (deleted recordId (.ok true)) → tid = tid'

theorem stored_step (stored : ∀ recordId record, config.shared.records[recordId]? = some record →
      Happened config (inserted recordId record (.ok ())))
    (step : Step config label last) (present : last.shared.records[recordId]? = some record) :
    Happened last (inserted recordId record (.ok ())) := by
  cases step with
  | invoke free => exact (stored recordId record present).step (.invoke free)
  | drift changed =>
      simp only at changed
      subst changed
      exact (stored recordId record present).step (.drift rfl)
  | @act tid call past op next answer shared running performed =>
      rcases VaultAct.records_inv performed with same |
        ⟨op', answer', captured, isStorage, _, answered, after⟩
      · rw [same] at present
        exact (stored recordId record present).step (.act running performed)
      · rw [after] at present
        rcases Contents.apply_brings present with old | rfl
        · exact (stored recordId record old).step (.act running performed)
        · cases isStorage
          subst answered
          exact ⟨tid, _, Function.update_self .., by simp [Thread.Did, Contents.apply]⟩

theorem fetched_step (coherent : Coherent config) (step : Step config label last)
    (happened : Happened last (fetched recordId (.ok record))) :
    Happened last (inserted recordId record (.ok ())) := by
  rcases happened.of_step step with old | ⟨tid, _, performed⟩
  · exact (coherent.fetched recordId record old).step step
  · exact (coherent.stored recordId record (performed.fetched_inv.2 record rfl)).step step

theorem Coherent.step (coherent : Coherent config) (followedLast : Followed last)
    (step : Step config label last) : Coherent last where
  once := coherent.once.step step
  followed := followedLast
  stored := fun _ _ present => stored_step coherent.stored step present
  fetched := fun _ _ happened => fetched_step coherent step happened
  removed := by
    intro recordId wasThere happened
    rcases id happened with ⟨tid, thread, found, did⟩
    rcases happened.of_step step with old | ⟨_, _, performed⟩
    · exact (coherent.removed recordId wasThere old).step coherent.once coherent.followed step
    · obtain ⟨record, fetchedIt⟩ := fetched_of_deleted (followedLast tid thread found) did
      refine ⟨⟨record, fetched_step coherent step ⟨tid, thread, found, fetchedIt⟩⟩, ?_⟩
      rcases performed.deleted_inv with ⟨_, after⟩ | ⟨⟨error, impossible⟩, _⟩
      · rw [after]
        exact Contents.getElem?_erase_self
      · contradiction
  removedOnce := by
    have second {tid tid' thread thread' recordId} (found : last.threads tid = some thread)
        (did : thread.Did (deleted recordId (.ok true)))
        (found' : last.threads tid' = some thread')
        (did' : thread'.Did (deleted recordId (.ok true)))
        {before : Thread (vaultSystem aead)} (foundBefore : config.threads tid = some before)
        (old : before.Did (deleted recordId (.ok true))) : tid = tid' := by
      have gone := coherent.removed recordId true ⟨tid, before, foundBefore, old⟩
      obtain ⟨before', foundBefore', _, old' | ⟨_, performed, _⟩⟩ := step.did found' did'
      · exact coherent.removedOnce tid tid' before before' recordId foundBefore foundBefore' old old'
      · rcases VaultAct.deleted_inv performed with ⟨present, _⟩ | ⟨⟨error, impossible⟩, _⟩
        · have absent : recordId ∉ config.shared.records := by
            rw [← Std.ExtTreeMap.isSome_getElem?_iff_mem, gone.absent]
            simp
          simp [absent] at present
        · contradiction
    intro tid tid' thread thread' recordId found found' did did'
    obtain ⟨before, foundBefore, _, old | ⟨isAct, _, _⟩⟩ := step.did found did
    · exact second found did found' did' foundBefore old
    · obtain ⟨before', foundBefore', _, old' | ⟨isAct', _, _⟩⟩ := step.did found' did'
      · exact (second found' did' found did foundBefore' old').symm
      · rw [isAct] at isAct'
        injection isAct'

theorem coherent (run : RunWhere ok (vaultStart aead clock) labels config) :
    Coherent config := by
  induction run with
  | refl =>
      constructor
      · exact @drawnOnce _ _ _ _ ok (.refl _)
      · exact @followed _ _ _ _ ok (.refl _)
      · intro recordId record present
        simp [vaultStart, Config.start, VaultState.initial] at present
      · intro _ _ holds
        obtain ⟨_, _, found, _⟩ := holds
        cases found
      · intro _ _ holds
        obtain ⟨_, _, found, _⟩ := holds
        cases found
      · intro _ _ _ _ _ found
        cases found
  | snoc run allowed step ih => exact ih.step (followed (.snoc run allowed step)) step

theorem Gone.run {middle : Config (vaultSystem aead)} {labels' : List (Label (vaultSystem aead))}
    (gone : Gone middle recordId) (before : Run (vaultStart aead clock) labels middle)
    (after : Run middle labels' last) : Gone last recordId := by
  induction after with
  | refl => exact gone
  | snoc run allowed step ih =>
      exact ih.step (drawnOnce (before.trans run)) (followed (before.trans run)) step

section Alone

variable {first : Config (vaultSystem aead)} {captured : DateTime}

/-- Steps of calls that delete nothing. -/
structure Harmless (label : Label (vaultSystem aead)) : Prop where
  keeps : ∀ tid recordId result, label ≠ .act tid (deleted recordId result)
  byCall : ∀ now, label ≠ .drift now

theorem harmless_invoke (tid : Nat) (call : VaultCall) :
    Harmless (Label.invoke tid call : Label (vaultSystem aead)) := ⟨by simp, by simp⟩

theorem harmless_act (tid : Nat) {event : VaultEvent}
    (keeps : ∀ recordId result, event ≠ deleted recordId result) :
    Harmless (Label.act tid event : Label (vaultSystem aead)) := by
  refine ⟨fun other recordId result same => ?_, by simp⟩
  injection same with _ same
  exact keeps recordId result same

theorem store_alone (front : RunWhere ok first labels config) (tid : Nat) (recordId : RecordId)
    (free : config.threads tid = none) {proof : PlaintextProof}
    {key : EncryptionKey} {nonce : Nonce} {ciphertext : Bytes}
    (encrypted : aead.encrypt key nonce proof.data = some ciphertext)
    (fresh : recordId ∉ config.shared.drawn) (shown : captured ∈ config.shared.readings)
    (allowed : ∀ config label, Harmless label → ok config label) :
    ∃ labels thread, RunWhere ok first labels
        { shared := { config.shared with
            records := config.shared.records.insert recordId
              ⟨⟨nonce.bytes, ciphertext⟩, config.shared.clock, none⟩
            drawn := recordId :: config.shared.drawn }
          threads := Function.update config.threads tid (some thread) } ∧
      thread.call = .storeProof proof none ∧
      thread.Returned (.ok (.claimId (ClaimId.encode ⟨recordId, key⟩))) ∧
      thread.Did ⟨.generateKey, key⟩ ∧
      thread.Did (inserted recordId ⟨⟨nonce.bytes, ciphertext⟩, config.shared.clock, none⟩ (.ok ())) := by
  obtain ⟨line, leads⟩ := store_completes encrypted recordId config.shared.clock
  refine ⟨_, _, front.trans (RunWhere.alone free leads ?_ (allowed _ _ (harmless_invoke ..)) ?_),
    rfl, rfl, by simp [Thread.Did], by simp [Thread.Did]⟩
  · exact .cons (.generateKey key) (.cons (.generateNonce nonce) (.cons (.newV4 fresh) (.cons .now
      (.cons (.perform _ shown) (.cons (.log line) .nil)))))
  · intro config _ _ event _ member
    refine allowed config _ (harmless_act tid ?_)
    intro _ _ equal
    subst equal
    simp at member

/-- A call that fetches a stored record comes as far as its program says. -/
theorem lookup_begins (front : RunWhere ok first labels config) (tid : Nat) {call : VaultCall}
    {rest : VaultProgram (Except VaultError Reply)} (free : config.threads tid = none)
    (leads : Leads (call.code aead) [fetched recordId (.ok record)] rest)
    (stored : config.shared.records[recordId]? = some record)
    (shown : captured ∈ config.shared.readings)
    (allowed : ∀ config label, Harmless label → ok config label) :
    RunWhere ok first (labels ++ [.invoke tid call, .act tid (fetched recordId (.ok record))])
      { shared := config.shared
        threads := Function.update config.threads tid
          (some ⟨call, [fetched recordId (.ok record)], rest⟩) } := by
  refine front.trans (RunWhere.alone free leads ?_ (allowed _ _ (harmless_invoke ..)) ?_)
  · have performed := @VaultAct.perform config.shared (.fetch recordId) captured shown
    simp only [Contents.apply, stored] at performed
    exact .cons performed .nil
  · intro config _ _ event _ member
    refine allowed config _ (harmless_act tid ?_)
    intro _ _ equal
    subst equal
    simp at member

theorem call_begins (front : RunWhere ok first labels config) (tid : Nat) (call : VaultCall)
    (free : config.threads tid = none) (allowed : ∀ config label, Harmless label → ok config label) :
    RunWhere ok first (labels ++ [.invoke tid call])
      { config with threads := Function.update config.threads tid (some ⟨call, [], call.code aead⟩) } :=
  .snoc front (allowed _ _ (harmless_invoke ..)) (.invoke free)

/-- A call that fetches what is not there ends. -/
theorem lookup_misses (front : RunWhere ok first labels config) (tid : Nat) {call : VaultCall}
    {result : Except VaultError Reply} (found : config.threads tid = some ⟨call, [], call.code aead⟩)
    (leads : Leads (call.code aead) [fetched recordId (.error .notFound)] (.done result))
    (absent : config.shared.records[recordId]? = none)
    (shown : captured ∈ config.shared.readings)
    (allowed : ∀ config label, Harmless label → ok config label) :
    ∃ labels thread, RunWhere ok first labels
        { config with threads := Function.update config.threads tid (some thread) } ∧
      thread.call = call ∧ thread.Returned result ∧ ∀ event, thread.Did event →
        event = fetched recordId (.error .notFound) := by
  refine ⟨_, _, front.trans (RunWhere.perform found leads ?_ ?_), rfl, rfl, by simp [Thread.Did]⟩
  · have performed := @VaultAct.perform config.shared (.fetch recordId) captured shown
    simp only [Contents.apply, absent] at performed
    exact .cons performed .nil
  · intro config _ _ event _ member
    refine allowed config _ (harmless_act tid ?_)
    intro _ _ equal
    subst equal
    simp at member

/-- From there it deletes, logs and returns. -/
theorem deletion_ends (front : RunWhere ok first labels config) (tid : Nat) {call : VaultCall} {past : List VaultEvent}
    {next : Except StorageError Bool → VaultProgram (Except VaultError Reply)}
    (running : config.threads tid = some ⟨call, past, .step (.storage (.delete recordId)) next⟩)
    {line : String} {result : Except VaultError Reply}
    (returns : Leads (next (.ok (config.shared.records.contains recordId))) [logged line]
      (.done result))
    (shown : captured ∈ config.shared.readings)
    (allowed : ∀ config label, Harmless label → ok config label)
    (deletes : ok config
      (.act tid (deleted recordId (.ok (config.shared.records.contains recordId))))) :
    ∃ labels thread, RunWhere ok first labels
        { shared := { config.shared with records := config.shared.records.erase recordId }
          threads := Function.update config.threads tid (some thread) } ∧
      thread.call = call ∧ thread.Returned result := by
  let deleting : Config (vaultSystem aead) :=
    { shared := { config.shared with records := config.shared.records.erase recordId }
      threads := Function.update config.threads tid (some ⟨call, past ++
        [deleted recordId (.ok (config.shared.records.contains recordId))],
        next (.ok (config.shared.records.contains recordId))⟩) }
  have middle : RunWhere ok first _ deleting :=
    .snoc front deletes (.act running (.perform (.delete recordId) shown))
  have last := @RunWhere.perform _ _ _ ok deleting tid _ _ _ _ _ _ (Function.update_self ..)
    returns (.cons (.log line) .nil) fun config _ _ event _ member => by
      refine allowed config _ (harmless_act tid ?_)
      intro _ _ equal
      subst equal
      simp at member
  rw [Function.update_idem] at last
  exact ⟨_, _, middle.trans last, rfl, rfl⟩

/-- A store, then a cancellation of its record. -/
theorem cancellation_alone {proof : PlaintextProof} {key : EncryptionKey} {nonce : Nonce}
    {ciphertext : Bytes} (encrypted : aead.encrypt key nonce proof.data = some ciphertext)
    (recordId : RecordId) (clock : DateTime)
    (allowed : ∀ config label, Harmless label → ok config label)
    (deletes : ∀ config, recordId ∈ config.shared.records →
      ok config (.act 1 (deleted recordId (.ok true)))) :
    ∃ labels, ∃ config : Config (vaultSystem aead), ∃ cancelling,
      RunWhere ok (vaultStart aead clock) labels config ∧
      config.threads 1 = some cancelling ∧ config.threads 2 = none ∧
      config.shared.clock ∈ config.shared.readings ∧
      config.shared.records[recordId]? = none ∧
      Happened config (inserted recordId ⟨⟨nonce.bytes, ciphertext⟩, clock, none⟩ (.ok ())) ∧
      cancelling.call = .deleteProof (ClaimId.encode ⟨recordId, key⟩) ∧
      cancelling.Returned (.ok .deleted) := by
  obtain ⟨_, storing, stored, _, _, _, did⟩ :=
    store_alone (.refl (vaultStart aead clock)) 0 recordId rfl encrypted List.not_mem_nil
      (List.mem_singleton_self clock) allowed
  obtain ⟨next, line, opening, cancels⟩ := delete_completes
    ⟨⟨nonce.bytes, ciphertext⟩, clock, none⟩ (ClaimId.decode_encode ⟨recordId, key⟩) (.never rfl)
  have begun := lookup_begins stored 1 rfl opening Contents.getElem?_insert_self
    (List.mem_singleton_self clock) allowed
  obtain ⟨_, cancelling, cancelled, called, returned⟩ := deletion_ends begun 1 rfl
    (by rw [Std.ExtTreeMap.contains_insert_self]; exact cancels) (List.mem_singleton_self clock)
    allowed (by
      rw [Std.ExtTreeMap.contains_insert_self]
      exact deletes _ Std.ExtTreeMap.mem_insert_self)
  exact ⟨_, _, cancelling, cancelled, rfl, rfl, List.mem_singleton_self clock,
    Contents.getElem?_erase_self, ⟨0, storing, rfl, did⟩, called, returned⟩

end Alone

end Invariants

end TariVault
