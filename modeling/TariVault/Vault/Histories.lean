import TariVault.Vault.ProofVault

namespace TariVault

open Program VaultM StandardVault

variable {α γ : Type}

/-! # What a call can have done

Each call runs over the backend whose operations are single steps. The lemmas say
once, for each call, which operations it can have performed and with which
outcome; everything about interleaved calls rests on them.
-/

section Composition

variable {β : Type} {A : β → Type}

@[simp] theorem run_host_bind (program : Host A α) (rest : α → VaultM A γ) :
    (host program >>= rest).run = program >>= fun value => (rest value).run := by
  simp only [host, ExceptT.run_bind_lift]

@[simp] theorem run_host (program : Host A α) :
    (host program).run = program >>= fun value => .done (.ok value) := rfl

theorem run_attempt (convert : StorageError → VaultError)
    (program : Host A (Except StorageError α)) :
    (attempt convert program).run = program >>= fun result => .done (result.mapError convert) := rfl

@[simp] theorem run_pure (value : α) : (pure value : VaultM A α).run = .done (.ok value) := rfl

theorem run_attempt_bind (convert : StorageError → VaultError)
    (program : Host A (Except StorageError α)) (rest : α → VaultM A γ) :
    (attempt convert program >>= rest).run = program >>= fun result =>
      match result with
      | .ok value => (rest value).run
      | .error error => .done (.error (convert error)) := by
  rw [ExceptT.run_bind, run_attempt, bind_assoc]
  congr 1
  funext result
  cases result <;> rfl

end Composition

abbrev VaultEvent := Event (HostOp.Answer BackendOp.Answer)

abbrev VaultProgram (α : Type) := Program (HostOp BackendOp) (HostOp.Answer BackendOp.Answer) α

namespace VaultEvent

abbrev clockRead (now : DateTime) : VaultEvent := ⟨.now, now⟩

abbrev drewId (recordId : RecordId) : VaultEvent := ⟨.newV4, recordId⟩

abbrev logged (line : String) : VaultEvent := ⟨.log line, ()⟩

abbrev inserted (recordId : RecordId) (record : StoredRecord)
    (result : Except StorageError Unit) : VaultEvent := ⟨.storage (.insert recordId record), result⟩

abbrev fetched (recordId : RecordId) (result : Except StorageError StoredRecord) : VaultEvent :=
  ⟨.storage (.fetch recordId), result⟩

abbrev deleted (recordId : RecordId) (result : Except StorageError Bool) : VaultEvent :=
  ⟨.storage (.delete recordId), result⟩

abbrev swept (result : Except StorageError Nat) : VaultEvent := ⟨.storage .deleteExpired, result⟩

end VaultEvent

open VaultEvent

/-- Every completion of `program` returns `result`. -/
def EndsIn (program : VaultProgram α) (result : α) : Prop :=
  ∀ events final, Leads program events (.done final) → final = result

theorem EndsIn.returned {program : VaultProgram α} {result final : α}
    (ends : EndsIn program result) (returned : program = .done final) : final = result :=
  ends [] final (returned ▸ .refl _)

theorem EndsIn.map {f : α → γ} {program : VaultProgram α} {result : α}
    (ends : EndsIn program result) : EndsIn (f <$> program) (f result) := by
  intro events final leads
  obtain ⟨middle, inside, finished⟩ := leads.map_inv
  obtain ⟨value, rfl, rfl⟩ := map_eq_done finished.symm
  rw [ends _ _ inside]

/-- A program that only logs before it returns `result`. -/
inductive LogsThen (result : α) : VaultProgram α → Prop where
  | done : LogsThen result (.done result)
  | log {line next} (rest : LogsThen result (next ())) : LogsThen result (.step (.log line) next)

theorem LogsThen.leads {result : α} {program rest : VaultProgram α} {events : List VaultEvent}
    (logs : LogsThen result program) (leads : Leads program events rest) :
    (∀ event ∈ events, ∃ line, event = logged line) ∧ LogsThen result rest := by
  induction logs generalizing events with
  | done =>
      obtain ⟨rfl, rfl⟩ := leads.done_inv
      exact ⟨by simp, .done⟩
  | @log line next logs ih =>
      rcases leads.step_inv with ⟨rfl, rfl⟩ | ⟨answer, tail, rfl, tailLeads⟩
      · exact ⟨by simp, .log logs⟩
      · obtain ⟨onlyLogs, logsAfter⟩ := ih tailLeads
        refine ⟨fun event member => ?_, logsAfter⟩
        rcases List.mem_cons.mp member with rfl | later
        · exact ⟨line, rfl⟩
        · exact onlyLogs event later

theorem LogsThen.endsIn {result : α} {program : VaultProgram α} (logs : LogsThen result program) :
    EndsIn program result := by
  intro events final leads
  cases (logs.leads leads).2
  rfl

theorem leads_log {line : String} {next : Unit → VaultProgram α} {result : α}
    {events : List VaultEvent} {rest : VaultProgram α}
    (leads : Leads (.step (.log line) next) events rest) (returns : next () = .done result) :
    (∀ event ∈ events, ∃ line, event = logged line) ∧ LogsThen result rest :=
  LogsThen.leads (.log (returns ▸ .done)) leads

/-- What refusing has done: perhaps its delete, then perhaps some logging. It can
only end with the expiry error. -/
theorem refuseExpired_leads {recordId : RecordId} {notice : String} {events : List VaultEvent}
    {rest : VaultProgram (Except VaultError α)}
    (leads : Leads (refuseExpired atomicBackend recordId notice).run events rest) :
    EndsIn rest (.error .proofExpired) ∧
      (events = [] ∨ ∃ result logs, events = deleted recordId result :: logs ∧
        ∀ event ∈ logs, ∃ line, event = logged line) := by
  simp only [refuseExpired, run_host_bind, atomicBackend_delete, perform_bind] at leads
  have logs {message : String} {next : VaultProgram (Except VaultError α)}
      (logsNext : LogsThen (.error .proofExpired) next) :
      LogsThen (.error .proofExpired) (.step (.log message) fun _ => next) := .log logsNext
  rcases leads.step_inv with ⟨rfl, rfl⟩ | ⟨result, tail, rfl, tailLeads⟩
  · refine ⟨fun more final completed => ?_, .inl rfl⟩
    rcases completed.step_inv with ⟨_, impossible⟩ | ⟨result, tail, _, tailLeads⟩
    · contradiction
    · cases result with
      | ok removed => exact (logs .done).endsIn _ _ tailLeads
      | error error => exact (logs (logs .done)).endsIn _ _ tailLeads
  · have after : (∀ event ∈ tail, ∃ line, event = logged line) ∧
        LogsThen (.error .proofExpired) rest := by
      cases result with
      | ok removed => exact (logs .done).leads tailLeads
      | error error => exact (logs (logs .done)).leads tailLeads
    exact ⟨after.2.endsIn, .inr ⟨result, tail, rfl, after.1⟩⟩

/-- The clock readings with which a record passes its expiry check. -/
inductive LiveReading (record : StoredRecord) : List VaultEvent → Prop where
  | never (noExpiry : record.expiresAt = none) : LiveReading record []
  | before {expiry now : DateTime} (expires : record.expiresAt = some expiry)
      (notPassed : ¬ expiry < now) : LiveReading record [clockRead now]

/-- Where a lookup stands: before its fetch, refused by it, about to read the
clock, refusing an expired record, or using a live one. -/
inductive Lookup (recordId : RecordId) (use : StoredRecord → VaultM BackendOp.Answer α) :
    List VaultEvent → VaultProgram (Except VaultError α) → Prop where
  | fetching {op next} : Lookup recordId use [] (.step op next)
  | missing (error : StorageError) :
      Lookup recordId use [fetched recordId (.error error)] (.done (.error (.ofFetch error)))
  | timing (record : StoredRecord) {next} :
      Lookup recordId use [fetched recordId (.ok record)] (.step .now next)
  | expired {record : StoredRecord} {expiry now : DateTime} {tail rest}
      (expires : record.expiresAt = some expiry) (passed : expiry < now)
      (touched : tail = [] ∨ ∃ result logs, tail = deleted recordId result :: logs ∧
        ∀ event ∈ logs, ∃ line, event = logged line)
      (ends : EndsIn rest (.error .proofExpired)) :
      Lookup recordId use (fetched recordId (.ok record) :: clockRead now :: tail) rest
  | live {record : StoredRecord} {clock tail rest} (reading : LiveReading record clock)
      (using_ : Leads (use record).run tail rest) :
      Lookup recordId use (fetched recordId (.ok record) :: (clock ++ tail)) rest

theorem withLiveRecord_leads {recordId : RecordId} {notice : String}
    {use : StoredRecord → VaultM BackendOp.Answer α} {events : List VaultEvent}
    {rest : VaultProgram (Except VaultError α)}
    (leads : Leads (withLiveRecord atomicBackend recordId notice use).run events rest) :
    Lookup recordId use events rest := by
  simp only [withLiveRecord, run_attempt_bind, run_host_bind, atomicBackend_fetch,
    perform_bind] at leads
  rcases leads.step_inv with ⟨rfl, rfl⟩ | ⟨answer, tail, rfl, tailLeads⟩
  · exact .fetching
  cases answer with
  | error error =>
      obtain ⟨rfl, rfl⟩ := tailLeads.done_inv
      exact .missing error
  | ok record =>
      cases expires : record.expiresAt with
      | none =>
          simp only [StoredRecord.isExpired, expires, pure_eq, done_bind, Bool.false_eq_true,
            if_false] at tailLeads
          exact .live (.never expires) tailLeads
      | some expiry =>
          simp only [StoredRecord.isExpired, expires, Host.now, perform_bind, step_bind, pure_eq,
            done_bind] at tailLeads
          rcases tailLeads.step_inv with ⟨rfl, rfl⟩ | ⟨now, tail, rfl, checked⟩
          · exact .timing record
          · by_cases passed : expiry < now
            · simp only [passed, decide_true, if_true] at checked
              obtain ⟨ends, touched⟩ := refuseExpired_leads checked
              exact .expired expires passed touched ends
            · simp only [passed, decide_false, Bool.false_eq_true, if_false] at checked
              have reading : LiveReading record [clockRead now] := .before expires passed
              exact Lookup.live reading checked

section LiveRecord

variable {aead : Aead} {claimId : ClaimId} {record : StoredRecord}

/-- Where a retrieval stands once its record passed the expiry check: still before
its delete, refused by it, or past it with whatever answer. -/
inductive Consuming (aead : Aead) (claimId : ClaimId) (record : StoredRecord) :
    List VaultEvent → VaultProgram (Except VaultError PlaintextProof) → Prop where
  | rejected : Consuming aead claimId record [] (.done (.error .decryptionFailed))
  | panicked {message next} : Consuming aead claimId record [] (.step (.panic message) next)
  | deleting {next} : Consuming aead claimId record []
      (.step (.storage (.delete claimId.recordId)) next)
  | refused (error : StorageError) : Consuming aead claimId record
      [deleted claimId.recordId (.error error)] (.done (.error (.storage error)))
  | released {nonce : Nonce} {plaintext : Bytes} {removed : Bool} {logs rest}
      (nonceBytes : nonce.bytes = record.encrypted.nonce)
      (decrypted : aead.decrypt claimId.encryptionKey nonce record.encrypted.ciphertext =
        some plaintext)
      (onlyLogs : ∀ event ∈ logs, ∃ line, event = logged line)
      (ends : LogsThen (.ok (.fromBytes plaintext)) rest) :
      Consuming aead claimId record (deleted claimId.recordId (.ok removed) :: logs) rest

theorem consume_leads {events : List VaultEvent}
    {rest : VaultProgram (Except VaultError PlaintextProof)}
    (leads : Leads (consume atomicBackend aead claimId record).run events rest) :
    Consuming aead claimId record events rest := by
  unfold consume at leads
  split at leads
  · obtain ⟨rfl, rfl⟩ := leads.done_inv
    exact .rejected
  · split at leads
    · rcases leads.step_inv with ⟨rfl, rfl⟩ | ⟨answer, _, _, _⟩
      · exact .panicked
      · exact answer.elim
    · rename_i nonce made
      split at leads
      · obtain ⟨rfl, rfl⟩ := leads.done_inv
        exact .rejected
      · rename_i plaintext decrypted
        simp only [run_attempt_bind, run_host_bind, atomicBackend_delete, Host.log,
          perform_bind, run_pure] at leads
        rcases leads.step_inv with ⟨rfl, rfl⟩ | ⟨answer, tail, rfl, tailLeads⟩
        · exact .deleting
        cases answer with
        | error error =>
            obtain ⟨rfl, rfl⟩ := tailLeads.done_inv
            exact .refused error
        | ok removed =>
            obtain ⟨onlyLogs, ends⟩ := leads_log tailLeads rfl
            exact .released (FixedBytes.ofBytes?_eq_some made) decrypted onlyLogs ends

/-- Where a cancellation stands once its record passed the expiry check. -/
inductive Cancelling (recordId : RecordId) :
    List VaultEvent → VaultProgram (Except VaultError Unit) → Prop where
  | deleting {next} : Cancelling recordId [] (.step (.storage (.delete recordId)) next)
  | refused (error : StorageError) : Cancelling recordId
      [deleted recordId (.error error)] (.done (.error (.storage error)))
  | absent : Cancelling recordId [deleted recordId (.ok false)] (.done (.error .proofNotFound))
  | removed {logs rest} (onlyLogs : ∀ event ∈ logs, ∃ line, event = logged line)
      (ends : LogsThen (.ok ()) rest) :
      Cancelling recordId (deleted recordId (.ok true) :: logs) rest

theorem cancel_leads {events : List VaultEvent} {rest : VaultProgram (Except VaultError Unit)}
    (leads : Leads (cancel atomicBackend claimId record).run events rest) :
    Cancelling claimId.recordId events rest := by
  simp only [cancel, run_attempt_bind, atomicBackend_delete, perform_bind] at leads
  rcases leads.step_inv with ⟨rfl, rfl⟩ | ⟨answer, tail, rfl, tailLeads⟩
  · exact .deleting
  cases answer with
  | error error =>
      obtain ⟨rfl, rfl⟩ := tailLeads.done_inv
      exact .refused error
  | ok removed =>
      cases removed with
      | false =>
          obtain ⟨rfl, rfl⟩ := tailLeads.done_inv
          exact .absent
      | true =>
          simp only [if_true, run_host, Host.log, perform_bind] at tailLeads
          obtain ⟨onlyLogs, ends⟩ := leads_log tailLeads rfl
          exact .removed onlyLogs ends

end LiveRecord

variable {aead : Aead}

/-- The clock readings behind a computed expiry. -/
inductive ExpiryReading : Option UInt64 → List VaultEvent → Option DateTime → Prop where
  | never : ExpiryReading none [] none
  | after {secs : UInt64} {now expiry : DateTime} (small : secs.toNat ≤ i64Max)
      (exact : expiry.nanos = now.nanos + secs.toNat * nanosPerSecond) :
      ExpiryReading (some secs) [clockRead now] (some expiry)

theorem ExpiryReading.untouched {expiresInSecs : Option UInt64} {clock : List VaultEvent}
    {expiresAt : Option DateTime} (reading : ExpiryReading expiresInSecs clock expiresAt) :
    ∀ event ∈ clock, ∀ op, event.op ≠ .storage op := by
  cases reading <;> simp

/-- A call that has not touched storage, is not about to, and has not
succeeded. -/
structure Quiet (events : List VaultEvent) (rest : VaultProgram (Except VaultError α)) : Prop where
  untouched : ∀ event ∈ events, ∀ op, event.op ≠ .storage op
  elsewhere : ∀ op next, rest ≠ .step (.storage op) next
  unfinished : ∀ value, rest ≠ .done (.ok value)

theorem Quiet.cons {event : VaultEvent} {events : List VaultEvent}
    {rest : VaultProgram (Except VaultError α)} (quiet : Quiet events rest)
    (untouched : ∀ op, event.op ≠ .storage op) : Quiet (event :: events) rest :=
  { quiet with
    untouched := by
      intro other member
      rcases List.mem_cons.mp member with rfl | later
      · exact untouched
      · exact quiet.untouched other later }

theorem Quiet.failed {events : List VaultEvent} (error : VaultError)
    (untouched : ∀ event ∈ events, ∀ op, event.op ≠ .storage op) :
    Quiet events (.done (.error error) : VaultProgram (Except VaultError α)) :=
  ⟨untouched, by simp, by simp⟩

theorem Quiet.host {events : List VaultEvent} {op : HostOp BackendOp}
    {next : HostOp.Answer BackendOp.Answer op → VaultProgram (Except VaultError α)}
    (local_ : ∀ storageOp, op ≠ .storage storageOp)
    (untouched : ∀ event ∈ events, ∀ op, event.op ≠ .storage op) : Quiet events (.step op next) := by
  refine ⟨untouched, fun storageOp next' same => ?_, by simp⟩
  injection same with sameOp
  exact local_ storageOp sameOp

/-- A sequence whose first part is unfinished is as quiet as that part. -/
theorem Quiet.bind {events : List VaultEvent} {op : HostOp BackendOp}
    {next : HostOp.Answer BackendOp.Answer op → VaultProgram (Except VaultError α)}
    (quiet : Quiet events (.step op next))
    (rest : Except VaultError α → VaultProgram (Except VaultError γ)) :
    Quiet events (.step op next >>= rest) := by
  refine ⟨quiet.untouched, fun storageOp next' same => ?_, by simp⟩
  injection same with sameOp
  subst sameOp
  exact quiet.elsewhere _ _ rfl

theorem expiryAfter_leads {expiresInSecs : Option UInt64} {events : List VaultEvent}
    {rest : VaultProgram (Except VaultError (Option DateTime))}
    (leads : Leads (expiryAfter expiresInSecs).run events rest) :
    Quiet events rest ∨
      ∃ expiresAt, ExpiryReading expiresInSecs events expiresAt ∧ rest = .done (.ok expiresAt) := by
  unfold expiryAfter at leads
  split at leads
  · obtain ⟨rfl, rfl⟩ := leads.done_inv
    exact .inr ⟨none, .never, rfl⟩
  · rename_i secs
    split at leads
    · obtain ⟨rfl, rfl⟩ := leads.done_inv
      exact .inl (.failed _ (by simp))
    rename_i small
    simp only [run_host_bind, Host.now, perform_bind] at leads
    rcases leads.step_inv with ⟨rfl, rfl⟩ | ⟨now, tail, rfl, tailLeads⟩
    · exact .inl (.host (by simp) (by simp))
    split at tailLeads
    · rcases tailLeads.step_inv with ⟨rfl, rfl⟩ | ⟨answer, _, _, _⟩
      · exact .inl ((Quiet.host (by simp) (by simp)).cons (by simp))
      · exact answer.elim
    · rename_i duration made
      split at tailLeads
      · rcases tailLeads.step_inv with ⟨rfl, rfl⟩ | ⟨answer, _, _, _⟩
        · exact .inl ((Quiet.host (by simp) (by simp)).cons (by simp))
        · exact answer.elim
      · rename_i expiry added
        obtain ⟨rfl, rfl⟩ := tailLeads.done_inv
        refine .inr ⟨some expiry, .after (by omega) ?_, rfl⟩
        unfold Duration.seconds? at made
        split at made
        · cases made
          exact DateTime.ofNanos?_eq_some.mp added
        · contradiction

/-- Everything a store call has settled when it inserts its record. -/
structure Draft (aead : Aead) (proof : PlaintextProof) where
  key : EncryptionKey
  nonce : Nonce
  ciphertext : Bytes
  encrypted : aead.encrypt key nonce proof.data = some ciphertext
  recordId : RecordId
  storedAt : DateTime
  expiresAt : Option DateTime

namespace Draft

variable {proof : PlaintextProof} (draft : Draft aead proof)

def claimId : ClaimId := { recordId := draft.recordId, encryptionKey := draft.key }

def record : StoredRecord where
  encrypted := { nonce := draft.nonce.bytes, ciphertext := draft.ciphertext }
  storedAt := draft.storedAt
  expiresAt := draft.expiresAt

/-- What the call did to settle it, given the clock readings of its expiry. -/
def events (clock : List VaultEvent) : List VaultEvent :=
  ⟨.generateKey, draft.key⟩ :: ⟨.generateNonce, draft.nonce⟩ :: drewId draft.recordId ::
    (clock ++ [clockRead draft.storedAt])

end Draft

/-- Where a store call stands: preparing, about to insert, refused, or done but
for its log line. -/
inductive Storing (aead : Aead) (proof : PlaintextProof) (expiresInSecs : Option UInt64) :
    List VaultEvent → VaultProgram (Except VaultError String) → Prop where
  | preparing {events rest} (quiet : Quiet events rest) : Storing aead proof expiresInSecs events rest
  | inserting (draft : Draft aead proof) {clock next}
      (reading : ExpiryReading expiresInSecs clock draft.expiresAt) :
      Storing aead proof expiresInSecs (draft.events clock)
        (.step (.storage (.insert draft.recordId draft.record)) next)
  | refused (draft : Draft aead proof) {clock} (error : StorageError)
      (reading : ExpiryReading expiresInSecs clock draft.expiresAt) :
      Storing aead proof expiresInSecs
        (draft.events clock ++ [inserted draft.recordId draft.record (.error error)])
        (.done (.error (.storage error)))
  | stored (draft : Draft aead proof) {clock logs rest}
      (reading : ExpiryReading expiresInSecs clock draft.expiresAt)
      (onlyLogs : ∀ event ∈ logs, ∃ line, event = logged line)
      (ends : LogsThen (.ok draft.claimId.encode) rest) :
      Storing aead proof expiresInSecs
        (draft.events clock ++ inserted draft.recordId draft.record (.ok ()) :: logs) rest

theorem storeProof_leads {proof : PlaintextProof} {expiresInSecs : Option UInt64}
    {events : List VaultEvent} {rest : VaultProgram (Except VaultError String)}
    (leads : Leads (storeProof atomicBackend aead proof expiresInSecs).run events rest) :
    Storing aead proof expiresInSecs events rest := by
  unfold storeProof at leads
  split at leads
  · obtain ⟨rfl, rfl⟩ := leads.done_inv
    exact .preparing (.failed _ (by simp))
  simp only [run_host_bind, Host.generateKey, Host.generateNonce, perform_bind] at leads
  rcases leads.step_inv with ⟨rfl, rfl⟩ | ⟨key, tail, rfl, keyed⟩
  · exact .preparing (.host (by simp) (by simp))
  rcases keyed.step_inv with ⟨rfl, rfl⟩ | ⟨nonce, tail, rfl, drawn⟩
  · exact .preparing ((Quiet.host (by simp) (by simp)).cons (by simp))
  split at drawn
  · obtain ⟨rfl, rfl⟩ := drawn.done_inv
    exact .preparing (((Quiet.failed _ (by simp)).cons (by simp)).cons (by simp))
  rename_i ciphertext encrypted
  simp only [run_host_bind, Host.newV4, perform_bind] at drawn
  rcases drawn.step_inv with ⟨rfl, rfl⟩ | ⟨recordId, tail, rfl, named⟩
  · exact .preparing (((Quiet.host (by simp) (by simp)).cons (by simp)).cons (by simp))
  rw [ExceptT.run_bind] at named
  rcases named.bind_inv with ⟨op, next, inside, rfl⟩ |
    ⟨expiry, clock, tail, rfl, finished, dated⟩
  · rcases expiryAfter_leads inside with quiet | ⟨_, _, impossible⟩
    · exact .preparing ((((quiet.bind _).cons (by simp)).cons (by simp)).cons (by simp))
    · contradiction
  rcases expiryAfter_leads finished with quiet | ⟨expiresAt, reading, returned⟩
  · cases expiry with
    | ok value => exact absurd rfl (quiet.unfinished value)
    | error error =>
        obtain ⟨rfl, rfl⟩ := dated.done_inv
        rw [List.append_nil]
        exact .preparing ((((Quiet.failed error quiet.untouched).cons (by simp)).cons
          (by simp)).cons (by simp))
  cases returned
  simp only [run_host_bind, run_attempt_bind, Host.now, perform_bind, atomicBackend_insert] at dated
  rcases dated.step_inv with ⟨rfl, rfl⟩ | ⟨storedAt, tail, rfl, inserting⟩
  · rw [List.append_nil]
    exact .preparing ((((Quiet.host (by simp) reading.untouched).cons (by simp)).cons
      (by simp)).cons (by simp))
  let draft : Draft aead proof :=
    { key, nonce, ciphertext, encrypted, recordId, storedAt, expiresAt }
  rcases inserting.step_inv with ⟨rfl, rfl⟩ | ⟨result, tail, rfl, answered⟩
  · exact .inserting draft reading
  suffices Storing aead proof expiresInSecs
      (draft.events clock ++ inserted recordId draft.record result :: tail) rest by
    simpa [Draft.events, draft, Draft.record] using this
  cases result with
  | error error =>
      obtain ⟨rfl, rfl⟩ := answered.done_inv
      exact .refused draft error reading
  | ok stored =>
      obtain ⟨onlyLogs, ends⟩ := leads_log answered rfl
      exact .stored draft reading onlyLogs ends

end TariVault
