import TariVault.Program.Discipline
import TariVault.Symbolic.Vault

namespace TariVault.Symbolic

open Program SymbolicM

/-! # What the functions of the vault give away

Some keys and one payload are hidden. A function that receives only guarded terms
writes, logs and reports only guarded terms.
-/

/-- The atoms that must not be revealed. -/
def hidden (keys : Set EncryptionKey) (data : Bytes) : Set Atom :=
  {atom | (∃ key ∈ keys, atom = .key key) ∨ atom = .payload data}

variable {keys : Set EncryptionKey} {data : Bytes} {draws : EncryptionKey → Prop}

@[simp] theorem text_guards (value : String) : (text value).Guards (hidden keys data) := by
  intro holds
  rcases holds with ⟨_, _, impossible⟩ | impossible <;> contradiction

@[simp] theorem simple_guards (recordId : RecordId) : (simple recordId).Guards (hidden keys data) := by
  intro holds
  rcases holds with ⟨_, _, impossible⟩ | impossible <;> contradiction

@[simp] theorem time_guards (time : DateTime) : (Term.atom (Atom.time time)).Guards (hidden keys data) := by
  intro holds
  rcases holds with ⟨_, _, impossible⟩ | impossible <;> contradiction

@[simp] theorem nonce_guards (nonce : Nonce) : (Term.atom (Atom.nonce nonce)).Guards (hidden keys data) := by
  intro holds
  rcases holds with ⟨_, _, impossible⟩ | impossible <;> contradiction

theorem key_guards_iff {key : EncryptionKey} :
    (Term.atom (Atom.key key)).Guards (hidden keys data) ↔ key ∉ keys := by
  simp [Term.Guards, hidden]

@[simp] theorem expiry_guards (expiresAt : Option DateTime) : (expiryMessage expiresAt).Guards (hidden keys data) := by
  cases expiresAt with
  | none => exact text_guards _
  | some expiry => exact time_guards expiry

theorem record_guards_iff {record : SealedRecord} : record.message.Guards (hidden keys data) ↔
    record.nonce.Guards (hidden keys data) ∧ record.ciphertext.Guards (hidden keys data) :=
  ⟨fun guarded => guarded.1, fun guarded => ⟨guarded, time_guards _, expiry_guards _⟩⟩

def Sends (keys : Set EncryptionKey) (data : Bytes) (op : HostOp Request) : Prop :=
  (outgoing op).Guards (hidden keys data)

/-- Drawn keys are as they should be, and what the backend returns is guarded. -/
def Receives (keys : Set EncryptionKey) (data : Bytes) (draws : EncryptionKey → Prop) :
    Event (HostOp.Answer Request.Answer) → Prop
  | ⟨.generateKey, key⟩ => draws key
  | ⟨.storage request, answer⟩ =>
      (∀ failure, failureOf request answer = some failure → failure.message.Guards (hidden keys data)) ∧
        match request, answer with
        | .fetch _, .ok record => record.message.Guards (hidden keys data)
        | _, _ => True
  | _ => True

/-- What a result is, whether it is a value or an error. -/
def Outcome {ε α : Type} (good : α → Prop) (bad : ε → Prop) : Except ε α → Prop
  | .ok value => good value
  | .error error => bad error

/-- The program sends guarded terms, fails with a guarded error, and succeeds with
what is good. -/
def Discreet (keys : Set EncryptionKey) (data : Bytes) (draws : EncryptionKey → Prop) {α : Type} (good : α → Prop)
    (program : SymbolicM α) : Prop :=
  program.run.Keeps (Sends keys data) (Receives keys data draws)
    (Outcome good fun failure => failure.message.Guards (hidden keys data))

namespace Discreet

variable {α γ : Type} {good : α → Prop} {good' : γ → Prop}

theorem pure {value : α} (isGood : good value) : Discreet keys data draws good (pure value) := .done isGood

theorem throw {failure : VaultFailure} (guarded : failure.message.Guards (hidden keys data)) :
    Discreet keys data draws good (throw failure) := .done guarded

theorem bind {program : SymbolicM α} {rest : α → SymbolicM γ} (first : Discreet keys data draws good program)
    (later : ∀ value, good value → Discreet keys data draws good' (rest value)) :
    Discreet keys data draws good' (program >>= rest) := by
  apply Keeps.bind first
  intro result returned
  cases result with
  | ok value => exact later value returned
  | error failure => exact .done returned

theorem host {program : Host Request.Answer α}
    (keeps : program.Keeps (Sends keys data) (Receives keys data draws) good) :
    Discreet keys data draws good (SymbolicM.host program) := keeps.map fun _ isGood => isGood

theorem generateKey : Discreet keys data draws draws (SymbolicM.host Host.generateKey) :=
  host (.step (text_guards "") fun _ drawn => .done drawn)

theorem generateNonce : Discreet keys data draws (fun _ => True) (SymbolicM.host Host.generateNonce) :=
  host (.step (text_guards "") fun _ _ => .done trivial)

theorem newV4 : Discreet keys data draws (fun _ => True) (SymbolicM.host Host.newV4) :=
  host (.step (text_guards "") fun _ _ => .done trivial)

theorem now : Discreet keys data draws (fun _ => True) (SymbolicM.host Host.now) :=
  host (.step (text_guards "") fun _ _ => .done trivial)

theorem panic (message : String) : Discreet keys data draws good (SymbolicM.host (Host.panic message)) :=
  host (.step (text_guards message) fun impossible => impossible.elim)

theorem log {line : Message} (guarded : line.Guards (hidden keys data)) :
    Discreet keys data draws (fun _ => True) (SymbolicM.log line) :=
  host (.step guarded fun _ _ => .done trivial)

/-- A storage operation, with a conversion of its failure that reveals nothing. -/
theorem attempt {convert : StorageFailure → VaultFailure}
    {operation : Host Request.Answer (Except StorageFailure α)}
    (converts : ∀ failure : StorageFailure, failure.message.Guards (hidden keys data) →
      (convert failure).message.Guards (hidden keys data))
    (keeps : operation.Keeps (Sends keys data) (Receives keys data draws)
      (Outcome good fun failure => failure.message.Guards (hidden keys data))) :
    Discreet keys data draws good (SymbolicM.attempt convert operation) := by
  refine keeps.map fun result returned => ?_
  cases result with
  | ok value => exact returned
  | error failure => exact converts failure returned

end Discreet

theorem storage_guards (failure : StorageFailure) (guarded : failure.message.Guards (hidden keys data)) :
    (VaultFailure.storage failure).message.Guards (hidden keys data) := ⟨text_guards _, guarded⟩

theorem ofFetch_guards (failure : StorageFailure) (guarded : failure.message.Guards (hidden keys data)) :
    (VaultFailure.ofFetch failure).message.Guards (hidden keys data) := by
  cases failure with
  | notFound => exact text_guards _
  | _ => exact storage_guards _ guarded

namespace SymbolicVault

variable {α : Type} {good : α → Prop}

theorem delete_keeps (recordId : RecordId) :
    (Host.storage (Request.delete recordId)).Keeps (Sends keys data) (Receives keys data draws)
      (Outcome (fun _ => True) fun failure => failure.message.Guards (hidden keys data)) := by
  refine .step (simple_guards recordId) fun answer received => .done ?_
  cases answer with
  | ok found => trivial
  | error failure => exact received.1 failure rfl

theorem isExpired_keeps (record : SealedRecord) :
    record.isExpired.Keeps (Sends keys data) (Receives keys data draws) fun _ => True := by
  unfold SealedRecord.isExpired
  split
  · exact .step (text_guards "") fun _ _ => .done trivial
  · exact .done trivial

theorem expiryAfter_discreet (expiresInSecs : Option UInt64) :
    Discreet keys data draws (fun _ => True) (expiryAfter expiresInSecs) := by
  unfold expiryAfter
  split
  · exact .pure trivial
  · split
    · exact .throw ⟨text_guards _, text_guards _⟩
    · refine Discreet.now.bind fun now _ => ?_
      split
      · exact .panic _
      · split
        · exact .panic _
        · exact .pure trivial

theorem refuseExpired_discreet (recordId : RecordId) (notice : String) :
    Discreet keys data draws good (refuseExpired recordId notice) := by
  refine .bind (.host (delete_keeps recordId)) fun result returned => ?_
  have refuses : Discreet keys data draws good (do
      log (.pair (text notice) (simple recordId))
      throw .proofExpired) :=
    .bind (.log ⟨text_guards _, simple_guards _⟩) fun _ _ => .throw (text_guards _)
  cases result with
  | ok found => exact refuses
  | error failure =>
      exact .bind (.log ⟨text_guards _, simple_guards _, text_guards _, returned⟩) fun _ _ => refuses

theorem withLiveRecord_discreet (recordId : RecordId) (notice : String) {use : SealedRecord → SymbolicM α}
    (uses : ∀ record : SealedRecord, record.message.Guards (hidden keys data) →
      Discreet keys data draws good (use record)) :
    Discreet keys data draws good (withLiveRecord recordId notice use) := by
  have fetches : (Host.storage (Request.fetch recordId)).Keeps (Sends keys data) (Receives keys data draws)
      (Outcome (fun record => record.message.Guards (hidden keys data))
        fun failure => failure.message.Guards (hidden keys data)) := by
    refine .step (simple_guards recordId) fun answer received => .done ?_
    cases answer with
    | ok record => exact received.2
    | error failure => exact received.1 failure rfl
  have fetched : Discreet keys data draws (fun record : SealedRecord => record.message.Guards (hidden keys data))
      (attempt .ofFetch (Host.storage (Request.fetch recordId))) := .attempt ofFetch_guards fetches
  refine fetched.bind fun record guarded => ?_
  refine .bind (.host (isExpired_keeps record)) fun expired _ => ?_
  cases expired with
  | true => exact refuseExpired_discreet recordId notice
  | false => exact uses record guarded

/-- Storing is discreet when the payload is guarded by every key that may be drawn. -/
theorem storeProof_discreet (accepts : Message → Bool) {proof : Message} {good : Message → Prop}
    (expiresInSecs : Option UInt64)
    (sealed : ∀ key nonce, draws key →
      (Term.enc (.atom (.key key)) (.atom (.nonce nonce)) proof).Guards (hidden keys data))
    (claims : ∀ claimId : ClaimId, draws claimId.encryptionKey → good (encodeClaim claimId)) :
    Discreet keys data draws good (storeProof accepts proof expiresInSecs) := by
  unfold storeProof
  split
  · exact .throw ⟨text_guards _, text_guards _⟩
  · refine Discreet.generateKey.bind fun key drawn => ?_
    refine Discreet.generateNonce.bind fun nonce _ => ?_
    have ciphertexts : ∀ ciphertext, encrypt accepts key nonce proof = some ciphertext →
        ciphertext.Guards (hidden keys data) := fun ciphertext encrypted => by
      obtain ⟨_, same⟩ := Option.ite_none_right_eq_some.mp encrypted
      cases same
      exact sealed key nonce drawn
    split
    · exact .throw (text_guards _)
    · next ciphertext encrypted =>
        refine Discreet.newV4.bind fun recordId _ => ?_
        refine (expiryAfter_discreet expiresInSecs).bind fun expiresAt _ => ?_
        refine Discreet.now.bind fun storedAt _ => ?_
        have inserts : Discreet keys data draws (fun _ : Unit => True) (attempt .storage (Host.storage
            (Request.insert recordId { nonce := .atom (.nonce nonce), ciphertext, storedAt, expiresAt }))) := by
          refine .attempt storage_guards (.step ?_ fun answer received => .done ?_)
          · exact ⟨simple_guards _, record_guards_iff.mpr ⟨nonce_guards _, ciphertexts _ encrypted⟩⟩
          · cases answer with
            | ok done => trivial
            | error failure => exact received.1 failure rfl
        refine inserts.bind fun _ _ => ?_
        refine .bind (.log ⟨text_guards _, simple_guards _⟩) fun _ _ => ?_
        exact .pure (claims _ drawn)

theorem decodeClaim_guards {claim : Message} {failure : VaultFailure} (undecoded : decodeClaim claim = .error failure) :
    failure.message.Guards (hidden keys data) := by
  unfold decodeClaim at undecoded
  split at undecoded
  · contradiction
  · cases undecoded
    exact text_guards _

/-- A retrieval releases what is good when every guarded ciphertext opens to it. -/
theorem retrieveProof_discreet {claim : Message} {good : Message → Prop}
    (releases : ∀ claimId nonce ciphertext plaintext, decodeClaim claim = .ok claimId →
      ciphertext.Guards (hidden keys data) →
        decrypt claimId.encryptionKey nonce ciphertext = some plaintext → good plaintext) :
    Discreet keys data draws good (retrieveProof claim) := by
  unfold retrieveProof
  split
  · next failure undecoded => exact .throw (decodeClaim_guards undecoded)
  · next claimId decoded =>
      refine withLiveRecord_discreet _ _ fun record guarded => ?_
      unfold consume
      split
      · split
        · exact .throw (text_guards _)
        · next nonce _ plaintext decrypted =>
            refine (Discreet.attempt storage_guards (delete_keeps _)).bind fun _ _ => ?_
            refine .bind (.log ⟨text_guards _, simple_guards _⟩) fun _ _ => ?_
            exact .pure (releases _ _ _ _ decoded (record_guards_iff.mp guarded).2 decrypted)
      · exact .throw (text_guards _)

theorem cleanup_discreet : Discreet keys data draws (fun _ => True) cleanup := by
  have sweeps : Discreet keys data draws (fun _ : Nat => True)
      (attempt .storage (Host.storage Request.deleteExpired)) := by
    refine .attempt storage_guards (.step (text_guards _) fun answer received => .done ?_)
    cases answer with
    | ok removed => trivial
    | error failure => exact received.1 failure rfl
  refine sweeps.bind fun removed _ => ?_
  split
  · exact .bind (.log ⟨text_guards _, text_guards _, text_guards _⟩) fun _ _ => .pure trivial
  · exact .pure trivial

theorem deleteProof_discreet (claim : Message) : Discreet keys data draws (fun _ => True) (deleteProof claim) := by
  unfold deleteProof
  split
  · next failure undecoded => exact .throw (decodeClaim_guards undecoded)
  · refine withLiveRecord_discreet _ _ fun record guarded => ?_
    refine .bind (.attempt storage_guards (delete_keeps _)) fun deleted _ => ?_
    split
    · exact .log ⟨text_guards _, simple_guards _⟩
    · exact .throw (text_guards _)

end SymbolicVault

section Calls

variable (accepts : Message → Bool)

/-- What a caller may be told: an error, or a result that is guarded. -/
def Guarded (keys : Set EncryptionKey) (data : Bytes) : Except VaultFailure Reply → Prop :=
  Outcome (fun reply => reply.message.Guards (hidden keys data))
    fun failure => failure.message.Guards (hidden keys data)

/-- What a caller may be told who keeps a good result: an error that is guarded. -/
def ErrorGuarded (keys : Set EncryptionKey) (data : Bytes) (good : Reply → Prop) : Except VaultFailure Reply → Prop :=
  Outcome good fun failure => failure.message.Guards (hidden keys data)

theorem Discreet.keeps {α : Type} {good : α → Prop} {good' : Reply → Prop} {convert : α → Reply}
    {program : SymbolicM α} (discreet : Discreet keys data draws good program)
    (converts : ∀ value, good value → good' (convert value)) :
    (Except.map convert <$> program.run).Keeps (Sends keys data) (Receives keys data draws)
      (Outcome good' fun failure => failure.message.Guards (hidden keys data)) := by
  refine discreet.map fun result returned => ?_
  cases result with
  | ok value => exact converts value returned
  | error failure => exact returned

/-- A call with a guarded argument is told guarded terms only. -/
theorem code_guarded {call : Call} (guarded : call.message.Guards (hidden keys data))
    (fresh : ∀ key, draws key → key ∉ keys) :
    (call.code accepts).Keeps (Sends keys data) (Receives keys data draws) (Guarded keys data) := by
  cases call with
  | storeProof proof expiresInSecs =>
      refine Discreet.keeps (SymbolicVault.storeProof_discreet accepts expiresInSecs (fun _ _ _ => .inr guarded)
        fun claimId drawn => ?_) fun _ good => good
      exact ⟨simple_guards _, key_guards_iff.mpr (fresh _ drawn)⟩
  | retrieveProof claim =>
      refine Discreet.keeps (SymbolicVault.retrieveProof_discreet fun claimId nonce ciphertext plaintext decoded
        sealed decrypted => ?_) fun _ good => good
      cases eq_encodeClaim decoded
      cases decrypt_eq_some decrypted
      exact Term.Guards.opened guarded.2 sealed
  | deleteProof claim => exact Discreet.keeps (SymbolicVault.deleteProof_discreet claim) fun _ _ => text_guards _
  | cleanup => exact Discreet.keeps SymbolicVault.cleanup_discreet fun _ _ => text_guards _

/-- Retrievals, cancellations and sweeps reveal nothing to others, and return no claim
string. -/
theorem code_errorGuarded {call : Call} (stores : ∀ proof expiresInSecs, call ≠ .storeProof proof expiresInSecs) :
    (call.code accepts).Keeps (Sends keys data) (Receives keys data draws)
      (ErrorGuarded keys data fun reply => ∀ token, reply ≠ .claim token) := by
  cases call with
  | storeProof proof expiresInSecs => exact absurd rfl (stores proof expiresInSecs)
  | retrieveProof claim =>
      have discreet : Discreet keys data draws (fun _ => True) (SymbolicVault.retrieveProof claim) :=
        SymbolicVault.retrieveProof_discreet fun _ _ _ _ _ _ _ => trivial
      exact discreet.keeps fun _ _ => nofun
  | deleteProof claim => exact Discreet.keeps (SymbolicVault.deleteProof_discreet claim) fun _ _ => nofun
  | cleanup => exact Discreet.keeps SymbolicVault.cleanup_discreet fun _ _ => nofun

/-- A store call seals whatever it is given under hidden keys. -/
theorem store_errorGuarded (proof : Message) (expiresInSecs : Option UInt64) (hides : ∀ key, draws key → key ∈ keys) :
    ((Call.storeProof proof expiresInSecs).code accepts).Keeps (Sends keys data) (Receives keys data draws)
      (ErrorGuarded keys data fun _ => True) := by
  have discreet : Discreet keys data draws (fun _ => True) (SymbolicVault.storeProof accepts proof expiresInSecs) :=
    SymbolicVault.storeProof_discreet accepts expiresInSecs
      (fun key _ drawn => .inl ⟨_, .inl ⟨key, hides key drawn, rfl⟩, rfl⟩) fun _ _ => trivial
  exact discreet.keeps fun _ _ => trivial

end Calls

end TariVault.Symbolic
