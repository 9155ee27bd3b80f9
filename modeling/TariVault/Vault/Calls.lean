import TariVault.Vault.Histories

namespace TariVault

open Program VaultM StandardVault VaultEvent

/-! # The calls of a vault

The four methods become one type of calls, so that many of them can run at once.
For each call in flight its past decides what it can still answer; the lemmas
below read that off the histories.
-/

inductive VaultCall where
  | storeProof (proof : PlaintextProof) (expiresInSecs : Option UInt64)
  | retrieveProof (claimIdStr : String)
  | deleteProof (claimIdStr : String)
  | cleanup

inductive Reply where
  | claimId (claimIdStr : String)
  | proof (proof : PlaintextProof)
  | deleted
  | removed (count : Nat)
deriving DecidableEq

namespace VaultCall

def program {β : Type} {A : β → Type} (storage : StorageBackend A) (aead : Aead) :
    VaultCall → Host A (Except VaultError Reply)
  | .storeProof proof expiresInSecs =>
      Except.map .claimId <$> (StandardVault.storeProof storage aead proof expiresInSecs).run
  | .retrieveProof claimIdStr =>
      Except.map .proof <$> (StandardVault.retrieveProof storage aead claimIdStr).run
  | .deleteProof claimIdStr =>
      Except.map (fun _ => .deleted) <$> (StandardVault.deleteProof storage claimIdStr).run
  | .cleanup => Except.map .removed <$> (StandardVault.cleanup storage).run

/-- The call as it runs over a backend of single steps. -/
def code (aead : Aead) (call : VaultCall) : VaultProgram (Except VaultError Reply) :=
  call.program atomicBackend aead

def Retrieves (call : VaultCall) (recordId : RecordId) : Prop :=
  ∃ claimIdStr claimId, call = .retrieveProof claimIdStr ∧
    ClaimId.decode claimIdStr = .ok claimId ∧ claimId.recordId = recordId

def Deletes (call : VaultCall) (recordId : RecordId) : Prop :=
  ∃ claimIdStr claimId, call = .deleteProof claimIdStr ∧
    ClaimId.decode claimIdStr = .ok claimId ∧ claimId.recordId = recordId

/-- The call carries a claim string with this record id. -/
def Claims (call : VaultCall) (recordId : RecordId) : Prop :=
  call.Retrieves recordId ∨ call.Deletes recordId

theorem Retrieves.not_deletes {call : VaultCall} {recordId other : RecordId}
    (retrieves : call.Retrieves recordId) : ¬ call.Deletes other := by
  obtain ⟨_, _, rfl, _, _⟩ := retrieves
  intro holds
  obtain ⟨_, _, impossible, _, _⟩ := holds
  contradiction

end VaultCall

variable {aead : Aead} {call : VaultCall} {past : List VaultEvent}
  {rest : VaultProgram (Except VaultError Reply)} {recordId : RecordId} {record : StoredRecord}

/-- The expiry check of the call found its record expired. -/
def SawExpiry (past : List VaultEvent) (recordId : RecordId) : Prop :=
  ∃ record now, fetched recordId (.ok record) ∈ past ∧ clockRead now ∈ past ∧ record.ExpiredAt now

theorem SawExpiry.mono {later : List VaultEvent} (saw : SawExpiry past recordId)
    (grown : past ⊆ later) : SawExpiry later recordId := by
  obtain ⟨record, now, fetchedIt, read, expired⟩ := saw
  exact ⟨record, now, grown fetchedIt, grown read, expired⟩

/-- A call whose record passed its check, and which has since neither fetched nor
read the clock, saw no expiry. -/
theorem LiveReading.not_sawExpiry {clock tail : List VaultEvent} (reading : LiveReading record clock)
    (noFetch : ∀ other result, fetched other result ∉ tail) (noClock : ∀ now, clockRead now ∉ tail) :
    ¬ SawExpiry (fetched recordId (.ok record) :: (clock ++ tail)) recordId := by
  intro holds
  obtain ⟨other, now, fetchedIt, read, expiry, expires, passed⟩ := holds
  have same : other = record := by
    cases reading <;> simpa [noFetch] using fetchedIt
  subst same
  cases reading with
  | never noExpiry =>
      rw [noExpiry] at expires
      contradiction
  | @before expiry' now' expires' notPassed =>
      have sameNow : now = now' := by simpa [noClock] using read
      rw [expires', Option.some.injEq] at expires
      exact notPassed (expires ▸ sameNow ▸ passed)

theorem onlyLogs_not_mem {logs : List VaultEvent} {event : VaultEvent}
    (onlyLogs : ∀ event ∈ logs, ∃ line, event = logged line)
    (notLog : ∀ line, event ≠ logged line) : event ∉ logs := by
  intro member
  obtain ⟨line, same⟩ := onlyLogs event member
  exact notLog line same

/-- The operations a call may perform: only stores draw ids and insert, only
claims on a record fetch and delete it, only cleanups sweep. -/
def VaultCall.Footprint (call : VaultCall) : HostOp BackendOp → Prop
  | .newV4 => ∃ proof expiresInSecs, call = .storeProof proof expiresInSecs
  | .storage (.insert _ _) => ∃ proof expiresInSecs, call = .storeProof proof expiresInSecs
  | .storage (.fetch recordId) => call.Claims recordId
  | .storage (.delete recordId) => call.Claims recordId
  | .storage .deleteExpired => call = .cleanup
  | _ => True

section Footprint

variable {α : Type} {allowed : HostOp BackendOp → Prop}

theorem expiryAfter_within {expiresInSecs : Option UInt64} (now : allowed .now)
    (panic : ∀ message, allowed (.panic message)) :
    (expiryAfter (A := BackendOp.Answer) expiresInSecs).run.Within allowed := by
  unfold expiryAfter
  split
  · exact .done _
  · split
    · exact .done _
    · simp only [run_host_bind, Host.now, perform_bind]
      refine .step now fun answer => ?_
      split
      · exact .step (panic _) fun impossible => Empty.elim impossible
      · split
        · exact .step (panic _) fun impossible => Empty.elim impossible
        · exact .done _

theorem withLiveRecord_within {notice : String} {use : StoredRecord → VaultM BackendOp.Answer α}
    (now : allowed .now) (log : ∀ line, allowed (.log line))
    (fetch : allowed (.storage (.fetch recordId))) (delete : allowed (.storage (.delete recordId)))
    (useWithin : ∀ record, (use record).run.Within allowed) :
    (withLiveRecord atomicBackend recordId notice use).run.Within allowed := by
  simp only [withLiveRecord, run_attempt_bind, run_host_bind, atomicBackend_fetch, perform_bind]
  refine .step fetch fun answer => ?_
  cases answer with
  | error error => exact .done _
  | ok record =>
      refine Within.bind ?_ fun expired => ?_
      · unfold StoredRecord.isExpired
        split
        · exact .step now fun _ => .done _
        · exact .done _
      · split
        · simp only [refuseExpired, run_host_bind, atomicBackend_delete, perform_bind]
          refine .step delete fun result => ?_
          cases result with
          | ok removed => exact .step (log _) fun _ => .done _
          | error error => exact .step (log _) fun _ => .step (log _) fun _ => .done _
        · exact useWithin record

end Footprint

theorem code_within (call : VaultCall) : (call.code aead).Within call.Footprint := by
  unfold VaultCall.code VaultCall.program
  split
  · rename_i proof expiresInSecs
    refine Within.map _ ?_
    unfold StandardVault.storeProof
    split
    · exact .done _
    · simp only [run_host_bind, Host.generateKey, Host.generateNonce, perform_bind]
      refine .step trivial fun key => .step trivial fun nonce => ?_
      split
      · exact .done _
      · simp only [run_host_bind, Host.newV4, perform_bind]
        refine .step ⟨proof, expiresInSecs, rfl⟩ fun recordId => ?_
        rw [ExceptT.run_bind]
        refine Within.bind (expiryAfter_within trivial fun _ => trivial) fun expiry => ?_
        cases expiry with
        | error error => exact .done _
        | ok expiresAt =>
            simp only [run_host_bind, run_attempt_bind, atomicBackend_insert, Host.now, perform_bind]
            refine .step trivial fun storedAt => .step ⟨proof, expiresInSecs, rfl⟩ fun result => ?_
            cases result with
            | error error => exact .done _
            | ok stored => exact .step trivial fun _ => .done _
  · rename_i claimIdStr
    refine Within.map _ ?_
    unfold StandardVault.retrieveProof
    split
    · exact .done _
    · rename_i claimId decoded
      have claims : (VaultCall.retrieveProof claimIdStr).Claims claimId.recordId :=
        .inl ⟨claimIdStr, claimId, rfl, decoded, rfl⟩
      refine withLiveRecord_within trivial (fun _ => trivial) claims claims fun record => ?_
      unfold consume
      split
      · exact .done _
      · split
        · exact .step trivial fun impossible => Empty.elim impossible
        · split
          · exact .done _
          · simp only [run_attempt_bind, run_host_bind, atomicBackend_delete, perform_bind]
            refine .step claims fun result => ?_
            cases result with
            | error error => exact .done _
            | ok removed => exact .step trivial fun _ => .done _
  · rename_i claimIdStr
    refine Within.map _ ?_
    unfold StandardVault.deleteProof
    split
    · exact .done _
    · rename_i claimId decoded
      have claims : (VaultCall.deleteProof claimIdStr).Claims claimId.recordId :=
        .inr ⟨claimIdStr, claimId, rfl, decoded, rfl⟩
      refine withLiveRecord_within trivial (fun _ => trivial) claims claims fun record => ?_
      simp only [cancel, run_attempt_bind, atomicBackend_delete, perform_bind]
      refine .step claims fun result => ?_
      cases result with
      | error error => exact .done _
      | ok removed =>
          cases removed with
          | false => exact .done _
          | true => exact .step trivial fun _ => .done _
  · refine Within.map _ ?_
    simp only [StandardVault.cleanup, run_attempt_bind, atomicBackend_deleteExpired, perform_bind]
    refine .step rfl fun result => ?_
    cases result with
    | error error => exact .done _
    | ok removed =>
        by_cases some_ : 0 < removed
        · simp only [some_, if_true, run_host_bind, Host.log, perform_bind]
          exact .step trivial fun _ => .done _
        · simp only [some_, if_false]
          exact .done _

theorem footprint_of_mem (leads : Leads (call.code aead) past rest) {event : VaultEvent}
    (member : event ∈ past) : call.Footprint event.op :=
  ((code_within call).leads leads).1 event member

theorem footprint_of_next {op : HostOp BackendOp}
    {next : HostOp.Answer BackendOp.Answer op → VaultProgram (Except VaultError Reply)}
    (leads : Leads (call.code aead) past (.step op next)) : call.Footprint op :=
  ((code_within call).leads leads).2.head

/-- A store call that has performed its insert, with what it had settled before. -/
structure Insertion {proof : PlaintextProof} (draft : Draft aead proof)
    (expiresInSecs : Option UInt64) (clock logs : List VaultEvent) (call : VaultCall)
    (past : List VaultEvent) (result : Except StorageError Unit) : Prop where
  stores : call = .storeProof proof expiresInSecs
  reading : ExpiryReading expiresInSecs clock draft.expiresAt
  order : past = draft.events clock ++ inserted draft.recordId draft.record result :: logs
  onlyLogs : ∀ event ∈ logs, ∃ line, event = logged line

theorem Draft.events_untouched {proof : PlaintextProof} {expiresInSecs : Option UInt64}
    {clock : List VaultEvent} {draft : Draft aead proof}
    (reading : ExpiryReading expiresInSecs clock draft.expiresAt) :
    ∀ event ∈ draft.events clock, ∀ op, event.op ≠ .storage op := by
  intro event member
  simp only [Draft.events, List.mem_cons, List.mem_append, List.not_mem_nil, or_false] at member
  rcases member with rfl | rfl | rfl | inClock | rfl
  · simp
  · simp
  · simp
  · exact reading.untouched event inClock
  · simp

theorem Insertion.storage_mem {proof : PlaintextProof} {draft : Draft aead proof}
    {expiresInSecs : Option UInt64} {clock logs : List VaultEvent}
    {result : Except StorageError Unit}
    (insertion : Insertion draft expiresInSecs clock logs call past result) {event : VaultEvent}
    (member : event ∈ past) {op : BackendOp} (touches : event.op = .storage op) :
    event = inserted draft.recordId draft.record result := by
  rw [insertion.order, List.mem_append, List.mem_cons] at member
  rcases member with early | same | late
  · exact absurd touches (Draft.events_untouched insertion.reading event early op)
  · exact same
  · obtain ⟨line, rfl⟩ := insertion.onlyLogs event late
    contradiction

theorem Insertion.drew {proof : PlaintextProof} {draft : Draft aead proof}
    {expiresInSecs : Option UInt64} {clock logs : List VaultEvent}
    {result : Except StorageError Unit}
    (insertion : Insertion draft expiresInSecs clock logs call past result) :
    drewId draft.recordId ∈ past := by
  simp [insertion.order, Draft.events]

theorem Insertion.drewKey {proof : PlaintextProof} {draft : Draft aead proof}
    {expiresInSecs : Option UInt64} {clock logs : List VaultEvent}
    {result : Except StorageError Unit}
    (insertion : Insertion draft expiresInSecs clock logs call past result) :
    ⟨.generateKey, draft.claimId.encryptionKey⟩ ∈ past := by
  simp [insertion.order, Draft.events, Draft.claimId]

theorem Storing.of_code {proof : PlaintextProof} {expiresInSecs : Option UInt64}
    (leads : Leads ((VaultCall.storeProof proof expiresInSecs).code aead) past rest) :
    ∃ middle, Storing aead proof expiresInSecs past middle ∧ rest = Except.map .claimId <$> middle := by
  obtain ⟨middle, inside, rfl⟩ := leads.map_inv
  exact ⟨middle, storeProof_leads inside, rfl⟩

/-- A store that returned a claim string has performed its insert. -/
theorem insertion_of_returned {proof : PlaintextProof} {expiresInSecs : Option UInt64}
    {claimIdStr : String} (leads : Leads ((VaultCall.storeProof proof expiresInSecs).code aead) past
      (.done (.ok (.claimId claimIdStr)))) :
    ∃ draft : Draft aead proof, ∃ clock logs, claimIdStr = draft.claimId.encode ∧
      Insertion draft expiresInSecs clock logs (.storeProof proof expiresInSecs) past (.ok ()) := by
  obtain ⟨middle, storing, mapped⟩ := Storing.of_code leads
  obtain ⟨value, rfl, converted⟩ := map_eq_done mapped.symm
  cases value with
  | error error => contradiction
  | ok answer =>
      have same : answer = claimIdStr := by
        simpa [Except.map] using converted
      cases storing with
      | preparing quiet => exact absurd rfl (quiet.unfinished answer)
      | stored draft reading onlyLogs ends =>
          have returned : answer = draft.claimId.encode := Except.ok.inj (ends.endsIn.returned rfl)
          exact ⟨draft, _, _, same.symm.trans returned, rfl, reading, rfl, onlyLogs⟩

/-- A call with an insert in its past is a store call past its insert. -/
theorem insertion_of_mem (leads : Leads (call.code aead) past rest)
    {result : Except StorageError Unit} (member : inserted recordId record result ∈ past) :
    ∃ proof, ∃ draft : Draft aead proof, ∃ expiresInSecs clock logs,
      Insertion draft expiresInSecs clock logs call past result ∧ draft.recordId = recordId ∧
        draft.record = record := by
  obtain ⟨proof, expiresInSecs, rfl⟩ := footprint_of_mem leads member
  obtain ⟨middle, storing, rfl⟩ := Storing.of_code leads
  have exact_ {draft : Draft aead proof} {clock logs result'}
      (insertion : Insertion draft expiresInSecs clock logs (.storeProof proof expiresInSecs)
        past result') : ∃ proof', ∃ draft : Draft aead proof', ∃ expiresInSecs' clock logs,
      Insertion draft expiresInSecs' clock logs (.storeProof proof expiresInSecs) past result ∧
        draft.recordId = recordId ∧ draft.record = record := by
    have same := insertion.storage_mem member rfl
    injection same with sameOp sameAnswer
    injection sameOp with sameStorage
    injection sameStorage with sameId sameRecord
    subst sameId
    subst sameRecord
    cases sameAnswer
    exact ⟨proof, draft, expiresInSecs, clock, logs, insertion, rfl, rfl⟩
  cases storing with
  | preparing quiet => exact absurd rfl (quiet.untouched _ member _)
  | inserting draft reading =>
      exact absurd rfl (Draft.events_untouched reading _ member _)
  | refused draft error reading => exact exact_ ⟨rfl, reading, rfl, by simp⟩
  | stored draft reading onlyLogs ends => exact exact_ ⟨rfl, reading, rfl, onlyLogs⟩

/-- A call about to insert has drawn the id and has not touched storage. -/
theorem untouched_of_inserting
    {next : Except StorageError Unit → VaultProgram (Except VaultError Reply)}
    (leads : Leads (call.code aead) past (.step (.storage (.insert recordId record)) next)) :
    drewId recordId ∈ past ∧ ∀ event ∈ past, ∀ op, event.op ≠ .storage op := by
  obtain ⟨proof, expiresInSecs, rfl⟩ := footprint_of_next leads
  obtain ⟨middle, storing, next_eq⟩ := Storing.of_code leads
  cases storing with
  | preparing quiet =>
      cases middle with
      | done value => contradiction
      | step op next' =>
          injection next_eq with sameOp
          subst sameOp
          exact absurd rfl (quiet.elsewhere _ next')
  | inserting draft reading =>
      injection next_eq with sameOp
      injection sameOp with sameStorage
      injection sameStorage with sameId
      subst sameId
      exact ⟨by simp [Draft.events], Draft.events_untouched reading⟩
  | refused => contradiction
  | stored draft reading onlyLogs ends =>
      cases ends with
      | done => contradiction
      | log => 
          injection next_eq with sameOp
          contradiction

/-- What a delete in the past of a call says about the answer of the call. -/
inductive DeleteOutcome (call : VaultCall) (recordId : RecordId) (past : List VaultEvent)
    (rest : VaultProgram (Except VaultError Reply)) : Except StorageError Bool → Prop where
  | expired {result} (saw : SawExpiry past recordId) (ends : EndsIn rest (.error .proofExpired)) :
      DeleteOutcome call recordId past rest result
  | failed (error) (live : ¬ SawExpiry past recordId)
      (ended : rest = .done (.error (.storage error))) :
      DeleteOutcome call recordId past rest (.error error)
  | released {removed} (plaintext : PlaintextProof) (live : ¬ SawExpiry past recordId)
      (retrieves : call.Retrieves recordId) (ends : EndsIn rest (.ok (.proof plaintext))) :
      DeleteOutcome call recordId past rest (.ok removed)
  | absent (live : ¬ SawExpiry past recordId) (deletes : call.Deletes recordId)
      (ended : rest = .done (.error .proofNotFound)) :
      DeleteOutcome call recordId past rest (.ok false)
  | cancelled (live : ¬ SawExpiry past recordId) (deletes : call.Deletes recordId)
      (ends : EndsIn rest (.ok .deleted)) : DeleteOutcome call recordId past rest (.ok true)

section Lookup

variable {α : Type} {use : StoredRecord → VaultM BackendOp.Answer α} {f : α → Reply}
  {middle : VaultProgram (Except VaultError α)}

/-- A delete in a lookup belongs to the expired branch, or to the use of a live
record. -/
theorem Lookup.deleted_mem (lookup : Lookup recordId use past middle)
    {result : Except StorageError Bool} {target : RecordId} (member : deleted target result ∈ past) :
    (target = recordId ∧ SawExpiry past recordId ∧ EndsIn middle (.error .proofExpired)) ∨
    ∃ record clock tail, past = fetched recordId (.ok record) :: (clock ++ tail) ∧
      LiveReading record clock ∧ Leads (use record).run tail middle ∧
      deleted target result ∈ tail := by
  cases lookup with
  | fetching => simp at member
  | missing error => simp at member
  | timing record => simp at member
  | @expired record expiry now tail rest expires passed touched ends =>
      have inTail : deleted target result ∈ tail := by simpa using member
      have saw : SawExpiry (fetched recordId (.ok record) :: clockRead now :: tail) recordId :=
        ⟨record, now, by simp, by simp, expiry, expires, passed⟩
      rcases touched with rfl | ⟨result', logs, rfl, onlyLogs⟩
      · contradiction
      · rcases List.mem_cons.mp inTail with same | late
        · injection same with sameOp
          injection sameOp with sameStorage
          injection sameStorage with sameId
          exact .inl ⟨sameId, saw, ends⟩
        · exact absurd late (onlyLogs_not_mem onlyLogs (by simp))
  | @live record clock tail rest reading inside =>
      refine .inr ⟨record, clock, tail, rfl, reading, inside, ?_⟩
      cases reading <;> simpa using member

end Lookup

/-- Nothing after a live record's expiry check counts as seeing an expiry. -/
theorem not_sawExpiry_of_delete {clock logs : List VaultEvent} {result : Except StorageError Bool}
    (reading : LiveReading record clock)
    (onlyLogs : ∀ event ∈ logs, ∃ line, event = logged line) :
    ¬ SawExpiry (fetched recordId (.ok record) :: (clock ++ deleted recordId result :: logs))
      recordId := by
  refine reading.not_sawExpiry (fun other answer member => ?_) fun now member => ?_
  · rcases List.mem_cons.mp member with same | late
    · simp at same
    · exact onlyLogs_not_mem onlyLogs (by simp) late
  · rcases List.mem_cons.mp member with same | late
    · simp at same
    · exact onlyLogs_not_mem onlyLogs (by simp) late

theorem deleteOutcome_of_retrieve {claimIdStr : String} {claimId : ClaimId}
    (decoded : ClaimId.decode claimIdStr = .ok claimId)
    (leads : Leads ((VaultCall.retrieveProof claimIdStr).code aead) past rest)
    {result : Except StorageError Bool} (member : deleted claimId.recordId result ∈ past) :
    DeleteOutcome (.retrieveProof claimIdStr) claimId.recordId past rest result := by
  obtain ⟨middle, inside, rfl⟩ := leads.map_inv
  simp only [StandardVault.retrieveProof, decoded] at inside
  rcases (withLiveRecord_leads inside).deleted_mem member with ⟨_, saw, ends⟩ |
    ⟨record, clock, tail, rfl, reading, using_, inTail⟩
  · exact .expired saw ends.map
  · cases consume_leads using_ with
    | rejected => contradiction
    | panicked => contradiction
    | deleting => contradiction
    | refused error =>
        have same : result = .error error := by simpa using inTail
        subst same
        exact .failed error (not_sawExpiry_of_delete reading (by simp)) rfl
    | @released nonce plaintext removed logs rest nonceBytes decrypted onlyLogs ends =>
        have same : result = .ok removed := by
          rcases List.mem_cons.mp inTail with same | late
          · simpa using same
          · exact absurd late (onlyLogs_not_mem onlyLogs (by simp))
        subst same
        exact .released (.fromBytes plaintext) (not_sawExpiry_of_delete reading onlyLogs)
          ⟨claimIdStr, claimId, rfl, decoded, rfl⟩ ends.endsIn.map

theorem deleteOutcome_of_delete {claimIdStr : String} {claimId : ClaimId}
    (decoded : ClaimId.decode claimIdStr = .ok claimId)
    (leads : Leads ((VaultCall.deleteProof claimIdStr).code aead) past rest)
    {result : Except StorageError Bool} (member : deleted claimId.recordId result ∈ past) :
    DeleteOutcome (.deleteProof claimIdStr) claimId.recordId past rest result := by
  obtain ⟨middle, inside, rfl⟩ := leads.map_inv
  simp only [StandardVault.deleteProof, decoded] at inside
  have deletes : (VaultCall.deleteProof claimIdStr).Deletes claimId.recordId :=
    ⟨claimIdStr, claimId, rfl, decoded, rfl⟩
  rcases (withLiveRecord_leads inside).deleted_mem member with ⟨_, saw, ends⟩ |
    ⟨record, clock, tail, rfl, reading, using_, inTail⟩
  · exact .expired saw ends.map
  · cases cancel_leads using_ with
    | deleting => contradiction
    | refused error =>
        have same : result = .error error := by simpa using inTail
        subst same
        exact .failed error (not_sawExpiry_of_delete reading (by simp)) rfl
    | absent =>
        have same : result = .ok false := by simpa using inTail
        subst same
        exact .absent (not_sawExpiry_of_delete reading (by simp)) deletes rfl
    | @removed logs rest onlyLogs ends =>
        have same : result = .ok true := by
          rcases List.mem_cons.mp inTail with same | late
          · simpa using same
          · exact absurd late (onlyLogs_not_mem onlyLogs (by simp))
        subst same
        exact .cancelled (not_sawExpiry_of_delete reading onlyLogs) deletes ends.endsIn.map

theorem deleteOutcome_of_mem (leads : Leads (call.code aead) past rest)
    {result : Except StorageError Bool} (member : deleted recordId result ∈ past) :
    call.Claims recordId ∧ DeleteOutcome call recordId past rest result := by
  have claims : call.Claims recordId := footprint_of_mem leads member
  refine ⟨claims, ?_⟩
  rcases claims with ⟨claimIdStr, claimId, rfl, decoded, rfl⟩ | ⟨claimIdStr, claimId, rfl, decoded, rfl⟩
  · exact deleteOutcome_of_retrieve decoded leads member
  · exact deleteOutcome_of_delete decoded leads member

theorem fetched_of_deleted (leads : Leads (call.code aead) past rest)
    {result : Except StorageError Bool} (member : deleted recordId result ∈ past) :
    ∃ record, fetched recordId (.ok record) ∈ past := by
  have of_lookup {α : Type} {use : StoredRecord → VaultM BackendOp.Answer α} {claimId : ClaimId}
      {middle : VaultProgram (Except VaultError α)} (lookup : Lookup claimId.recordId use past middle)
      (same : claimId.recordId = recordId) : ∃ record, fetched recordId (.ok record) ∈ past := by
    subst same
    rcases lookup.deleted_mem member with ⟨_, ⟨record, now, fetchedIt, _⟩, _⟩ |
      ⟨record, clock, tail, rfl, _⟩
    · exact ⟨record, fetchedIt⟩
    · exact ⟨record, by simp⟩
  have claims : call.Claims recordId := footprint_of_mem leads member
  rcases claims with ⟨claimIdStr, claimId, rfl, decoded, same⟩ |
    ⟨claimIdStr, claimId, rfl, decoded, same⟩
  · obtain ⟨middle, inside, rfl⟩ := leads.map_inv
    simp only [StandardVault.retrieveProof, decoded] at inside
    exact of_lookup (withLiveRecord_leads inside) same
  · obtain ⟨middle, inside, rfl⟩ := leads.map_inv
    simp only [StandardVault.deleteProof, decoded] at inside
    exact of_lookup (withLiveRecord_leads inside) same

theorem Lookup.returned {α : Type} {use : StoredRecord → VaultM BackendOp.Answer α} {value : α}
    (lookup : Lookup recordId use past (.done (.ok value))) :
    ∃ record clock tail, past = fetched recordId (.ok record) :: (clock ++ tail) ∧
      LiveReading record clock ∧ Leads (use record).run tail (.done (.ok value)) := by
  cases lookup with
  | expired expires passed touched ends => exact absurd (ends.returned rfl) (by simp)
  | live reading using_ => exact ⟨_, _, _, rfl, reading, using_⟩

/-- A retrieval that succeeds found a live record, opened it, and had its delete
answered before. -/
theorem retrieve_returned {claimIdStr : String} {claimId : ClaimId}
    (decoded : ClaimId.decode claimIdStr = .ok claimId) {reply : Reply}
    (leads : Leads ((VaultCall.retrieveProof claimIdStr).code aead) past (.done (.ok reply))) :
    ¬ SawExpiry past claimId.recordId ∧
      ∃ record nonce plaintext removed, fetched claimId.recordId (.ok record) ∈ past ∧
        deleted claimId.recordId (.ok removed) ∈ past ∧
        nonce.bytes = record.encrypted.nonce ∧
        aead.decrypt claimId.encryptionKey nonce record.encrypted.ciphertext = some plaintext ∧
        reply = .proof { data := plaintext } := by
  obtain ⟨middle, inside, mapped⟩ := leads.map_inv
  obtain ⟨value, rfl, converted⟩ := map_eq_done mapped.symm
  cases value with
  | error error => contradiction
  | ok plaintext =>
      simp only [StandardVault.retrieveProof, decoded] at inside
      obtain ⟨record, clock, tail, rfl, reading, using_⟩ := (withLiveRecord_leads inside).returned
      cases consume_leads using_ with
      | @released nonce opened removed logs rest nonceBytes decrypted onlyLogs ends =>
          have answer := ends.endsIn.returned rfl
          simp only [Except.ok.injEq] at answer
          subst answer
          exact ⟨not_sawExpiry_of_delete reading onlyLogs, record, nonce, opened, removed,
            by simp, by simp, nonceBytes, decrypted, (Except.ok.inj converted).symm⟩

/-- A cancellation that succeeds had its own delete remove the record. -/
theorem delete_returned {claimIdStr : String} {claimId : ClaimId}
    (decoded : ClaimId.decode claimIdStr = .ok claimId) {reply : Reply}
    (leads : Leads ((VaultCall.deleteProof claimIdStr).code aead) past (.done (.ok reply))) :
    ¬ SawExpiry past claimId.recordId ∧
      (∃ record, fetched claimId.recordId (.ok record) ∈ past) ∧
      deleted claimId.recordId (.ok true) ∈ past := by
  obtain ⟨middle, inside, mapped⟩ := leads.map_inv
  obtain ⟨value, rfl, converted⟩ := map_eq_done mapped.symm
  cases value with
  | error error => contradiction
  | ok done_ =>
      simp only [StandardVault.deleteProof, decoded] at inside
      obtain ⟨record, clock, tail, rfl, reading, using_⟩ := (withLiveRecord_leads inside).returned
      cases cancel_leads using_ with
      | removed onlyLogs ends =>
          exact ⟨not_sawExpiry_of_delete reading onlyLogs, ⟨record, by simp⟩, by simp⟩

theorem Lookup.without_record {α : Type} {use : StoredRecord → VaultM BackendOp.Answer α}
    {middle : VaultProgram (Except VaultError α)} (lookup : Lookup recordId use past middle)
    (absent : ∀ record, fetched recordId (.ok record) ∉ past) :
    (∃ op next, middle = .step op next) ∨
      ∃ error, fetched recordId (.error error) ∈ past ∧ middle = .done (.error (.ofFetch error)) := by
  cases lookup with
  | fetching => exact .inl ⟨_, _, rfl⟩
  | missing error => exact .inr ⟨error, by simp, rfl⟩
  | timing record => exact absurd (by simp) (absent record)
  | @expired record => exact absurd (by simp) (absent record)
  | @live record => exact absurd (by simp) (absent record)

/-- A call on a record that its fetch did not find can only report that. -/
theorem returned_without_record (leads : Leads (call.code aead) past rest)
    (claims : call.Claims recordId) (absent : ∀ record, fetched recordId (.ok record) ∉ past)
    {result : Except VaultError Reply} (returned : rest = .done result) :
    ∃ error, fetched recordId (.error error) ∈ past ∧ result = .error (.ofFetch error) := by
  subst returned
  rcases claims with ⟨claimIdStr, claimId, rfl, decoded, rfl⟩ |
    ⟨claimIdStr, claimId, rfl, decoded, rfl⟩
  · obtain ⟨middle, inside, mapped⟩ := leads.map_inv
    simp only [StandardVault.retrieveProof, decoded] at inside
    rcases (withLiveRecord_leads inside).without_record absent with ⟨op, next, rfl⟩ |
      ⟨error, reported, rfl⟩
    · contradiction
    · exact ⟨error, reported, Program.done.inj mapped⟩
  · obtain ⟨middle, inside, mapped⟩ := leads.map_inv
    simp only [StandardVault.deleteProof, decoded] at inside
    rcases (withLiveRecord_leads inside).without_record absent with ⟨op, next, rfl⟩ |
      ⟨error, reported, rfl⟩
    · contradiction
    · exact ⟨error, reported, Program.done.inj mapped⟩

def Calm : HostOp BackendOp → Prop
  | .panic _ => False
  | _ => True

/-- The length guard stands before the conversion that would panic. -/
theorem consume_calm (claimId : ClaimId) (stored : StoredRecord) :
    (StandardVault.consume atomicBackend aead claimId stored).run.Within Calm := by
  unfold StandardVault.consume
  split
  · exact .done _
  · rename_i guarded
    have length : stored.encrypted.nonce.length = 12 := not_not.mp guarded
    have converted : FixedBytes.ofBytes? 12 stored.encrypted.nonce = some ⟨_, length⟩ := dif_pos length
    rw [converted]
    simp only
    split
    · exact .done _
    · simp only [run_attempt_bind, run_host_bind, atomicBackend_delete, perform_bind]
      refine .step trivial fun result => ?_
      cases result with
      | error error => exact .done _
      | ok removed => exact .step trivial fun _ => .done _

theorem retrieve_calm (claimIdStr : String) :
    ((VaultCall.retrieveProof claimIdStr).code aead).Within Calm := by
  refine Within.map _ ?_
  unfold StandardVault.retrieveProof
  split
  · exact .done _
  · exact withLiveRecord_within trivial (fun _ => trivial) trivial trivial
      fun record => consume_calm _ record

theorem store_completes {proof : PlaintextProof} {key : EncryptionKey} {nonce : Nonce}
    {ciphertext : Bytes} (encrypted : aead.encrypt key nonce proof.data = some ciphertext)
    (recordId : RecordId) (storedAt : DateTime) :
    ∃ line, Leads ((VaultCall.storeProof proof none).code aead)
      [⟨.generateKey, key⟩, ⟨.generateNonce, nonce⟩, drewId recordId, clockRead storedAt,
        inserted recordId ⟨⟨nonce.bytes, ciphertext⟩, storedAt, none⟩ (.ok ()), logged line]
      (.done (.ok (.claimId (ClaimId.encode ⟨recordId, key⟩)))) := by
  refine ⟨"Proof stored; record_id=" ++ Uuid.simple recordId, ?_⟩
  change Leads (Except.map Reply.claimId <$> (StandardVault.storeProof ..).run) _
    (Except.map Reply.claimId <$> .done (.ok (ClaimId.encode ⟨recordId, key⟩)))
  apply Leads.map
  unfold StandardVault.storeProof
  rw [if_neg (by simp)]
  simp only [run_host_bind, Host.generateKey, Host.generateNonce, perform_bind]
  apply Leads.step
  apply Leads.step
  rw [encrypted]
  simp only [run_host_bind, Host.newV4, perform_bind]
  apply Leads.step
  exact .step (.step (.step (.refl _)))

theorem withLiveRecord_completes {α : Type} {notice : String}
    {use : StoredRecord → VaultM BackendOp.Answer α} {clock : List VaultEvent}
    (reading : LiveReading record clock) :
    Leads (withLiveRecord atomicBackend recordId notice use).run
      (fetched recordId (.ok record) :: clock) (use record).run := by
  simp only [withLiveRecord, run_attempt_bind, run_host_bind, atomicBackend_fetch, perform_bind]
  apply Leads.step
  cases reading with
  | never noExpiry =>
      simp only [StoredRecord.isExpired, noExpiry]
      exact .refl _
  | before expires notPassed =>
      simp only [StoredRecord.isExpired, expires, Host.now, perform_bind, step_bind]
      apply Leads.step
      simp only [notPassed, decide_false]
      exact .refl _

/-- A retrieval that found a live record it can open is about to delete, and
releases the plaintext whatever the delete found. -/
theorem retrieve_completes (record : StoredRecord) {claimIdStr : String} {claimId : ClaimId}
    (decoded : ClaimId.decode claimIdStr = .ok claimId) {clock : List VaultEvent}
    (reading : LiveReading record clock) {nonce : Nonce} {plaintext : Bytes}
    (nonceBytes : nonce.bytes = record.encrypted.nonce)
    (decrypted : aead.decrypt claimId.encryptionKey nonce record.encrypted.ciphertext =
      some plaintext) :
    ∃ next line, Leads ((VaultCall.retrieveProof claimIdStr).code aead)
        (fetched claimId.recordId (.ok record) :: clock)
        (.step (.storage (.delete claimId.recordId)) next) ∧
      ∀ removed, Leads (next (.ok removed)) [logged line]
        (.done (.ok (.proof { data := plaintext }))) := by
  have opening : (consume atomicBackend aead claimId record).run =
      .step (.storage (.delete claimId.recordId)) fun result =>
        match result with
        | .ok _ => .step (.log ("Proof retrieved and consumed; record_id=" ++
            Uuid.simple claimId.recordId)) fun _ => .done (.ok { data := plaintext })
        | .error error => .done (.error (.storage error)) := by
    have length : record.encrypted.nonce.length = 12 := nonceBytes ▸ nonce.length_eq
    unfold consume
    rw [if_neg (by simp [length]), ← nonceBytes, FixedBytes.ofBytes?_bytes]
    simp only [decrypted, run_attempt_bind, atomicBackend_delete, perform_bind]
    congr 1
    funext result
    cases result <;> rfl
  have live : Leads (StandardVault.retrieveProof atomicBackend aead claimIdStr).run
      (fetched claimId.recordId (.ok record) :: clock)
      (consume atomicBackend aead claimId record).run := by
    simp only [StandardVault.retrieveProof, decoded]
    exact withLiveRecord_completes reading
  rw [opening] at live
  refine ⟨_, "Proof retrieved and consumed; record_id=" ++ Uuid.simple claimId.recordId,
    live.map (Except.map Reply.proof), fun removed => ?_⟩
  apply Leads.step
  exact .refl _

/-- A cancellation that found a live record deletes it, and succeeds if the delete
found it too. -/
theorem delete_completes (record : StoredRecord) {claimIdStr : String} {claimId : ClaimId}
    (decoded : ClaimId.decode claimIdStr = .ok claimId) {clock : List VaultEvent}
    (reading : LiveReading record clock) :
    ∃ next line, Leads ((VaultCall.deleteProof claimIdStr).code aead)
        (fetched claimId.recordId (.ok record) :: clock)
        (.step (.storage (.delete claimId.recordId)) next) ∧
      Leads (next (.ok true)) [logged line] (.done (.ok .deleted)) := by
  have live : Leads (StandardVault.deleteProof atomicBackend claimIdStr).run
      (fetched claimId.recordId (.ok record) :: clock)
      (cancel atomicBackend claimId record).run := by
    simp only [StandardVault.deleteProof, decoded]
    exact withLiveRecord_completes reading
  refine ⟨_, "Proof explicitly deleted by holder; record_id=" ++ Uuid.simple claimId.recordId,
    live.map (Except.map fun _ => Reply.deleted), ?_⟩
  apply Leads.step
  exact .refl _

/-- A retrieval whose record cannot be used ends there. -/
theorem refused_completes {record : StoredRecord} {claimIdStr : String} {claimId : ClaimId} {error : VaultError}
    (decoded : ClaimId.decode claimIdStr = .ok claimId) {clock : List VaultEvent}
    (reading : LiveReading record clock)
    (refuses : (consume atomicBackend aead claimId record).run = .done (.error error)) :
    Leads ((VaultCall.retrieveProof claimIdStr).code aead) (fetched claimId.recordId (.ok record) :: clock)
      (.done (.error error)) := by
  have live : Leads (StandardVault.retrieveProof atomicBackend aead claimIdStr).run
      (fetched claimId.recordId (.ok record) :: clock) (.done (.error error)) := by
    simp only [StandardVault.retrieveProof, decoded]
    rw [← refuses]
    exact withLiveRecord_completes reading
  exact live.map (Except.map Reply.proof)

/-- A retrieval that found an expired record deletes it, and is refused whatever the
delete found. -/
theorem expired_completes {record : StoredRecord} {claimIdStr : String} {claimId : ClaimId} {expiry now : DateTime}
    (decoded : ClaimId.decode claimIdStr = .ok claimId) (expires : record.expiresAt = some expiry)
    (passed : expiry < now) (removed : Bool) :
    ∃ line, Leads ((VaultCall.retrieveProof claimIdStr).code aead)
      [fetched claimId.recordId (.ok record), clockRead now, ⟨.storage (.delete claimId.recordId), .ok removed⟩,
        logged line] (.done (.error .proofExpired)) := by
  have refuses : ∃ line, Leads (StandardVault.retrieveProof atomicBackend aead claimIdStr).run
      [fetched claimId.recordId (.ok record), clockRead now, ⟨.storage (.delete claimId.recordId), .ok removed⟩,
        logged line] (.done (.error .proofExpired)) := by
    simp only [StandardVault.retrieveProof, decoded, withLiveRecord, run_attempt_bind, run_host_bind,
      atomicBackend_fetch, perform_bind]
    refine ⟨"Expired proof access attempt; record_id=" ++ Uuid.simple claimId.recordId, ?_⟩
    apply Leads.step
    simp only [StoredRecord.isExpired, expires, Host.now, perform_bind, step_bind, pure_eq, done_bind]
    apply Leads.step
    simp only [passed, decide_true, if_true, refuseExpired, run_host_bind, atomicBackend_delete, perform_bind]
    exact .step (.step (.refl _))
  obtain ⟨line, leads⟩ := refuses
  exact ⟨line, leads.map (Except.map Reply.proof)⟩

theorem missing_completes {claimIdStr : String} {claimId : ClaimId}
    (decoded : ClaimId.decode claimIdStr = .ok claimId) :
    Leads ((VaultCall.retrieveProof claimIdStr).code aead)
      [fetched claimId.recordId (.error .notFound)] (.done (.error .proofNotFound)) := by
  change Leads (Except.map Reply.proof <$> (StandardVault.retrieveProof ..).run) _
    (Except.map Reply.proof <$> .done (.error .proofNotFound))
  apply Leads.map
  simp only [StandardVault.retrieveProof, decoded]
  exact .step (.refl _)

end TariVault
