import TariVault.Symbolic.Vault
import TariVault.Vault.Calls

namespace TariVault.Symbolic

open Program

/-! # Reading bytes as terms

When the bytes of payloads and ciphertexts are read as terms, what a call of the vault
does on bytes is what the call on terms does.
-/

/-- How bytes are read. Encryption and decryption do to the bytes what they do to the
terms. -/
structure Reading (aead : Aead) (accepts : Message → Bool) where
  message : Bytes → Message
  encrypts : ∀ key nonce plaintext,
    (aead.encrypt key nonce plaintext).map message = encrypt accepts key nonce (message plaintext)
  decrypts : ∀ key nonce ciphertext,
    (aead.decrypt key nonce ciphertext).map message = decrypt key nonce (message ciphertext)

/-- How a log line, or a message, is written. -/
def render? : Message → Option String
  | .atom (.text value) => some value
  | .atom (.recordId recordId) => some (Uuid.simple recordId)
  | .pair left right => do return (← render? left) ++ (← render? right)
  | _ => none

def readNonce (bytes : Bytes) : Message :=
  match FixedBytes.ofBytes? 12 bytes with
  | some nonce => .atom (.nonce nonce)
  | none => text "not a nonce"

theorem readNonce_bytes (nonce : Nonce) : readNonce nonce.bytes = .atom (.nonce nonce) := by
  rw [readNonce, FixedBytes.ofBytes?_bytes]

def readFailure : StorageError → StorageFailure
  | .io message => .io (text message)
  | .json message => .json (text message)
  | .notFound => .notFound

def readError : VaultError → VaultFailure
  | .proofNotFound => .proofNotFound
  | .proofExpired => .proofExpired
  | .decryptionFailed => .decryptionFailed
  | .invalidClaimId => .invalidClaimId
  | .invalidParameter message => .invalidParameter (text message)
  | .storage error => .storage (readFailure error)
  | .serialization message => .serialization (text message)

/-- A claim string is read by decoding it. -/
def ClaimReads (claimIdStr : String) (claim : Message) : Prop :=
  (ClaimId.decode claimIdStr).mapError readError = decodeClaim claim

theorem claimReads_encode (claimId : ClaimId) : ClaimReads claimId.encode (encodeClaim claimId) := by
  rw [ClaimReads, ClaimId.decode_encode]
  rfl

namespace Reading

variable {aead : Aead} {accepts : Message → Bool} (reading : Reading aead accepts) {α α' γ γ' : Type}

def record (record : StoredRecord) : SealedRecord where
  nonce := readNonce record.encrypted.nonce
  ciphertext := reading.message record.encrypted.ciphertext
  storedAt := record.storedAt
  expiresAt := record.expiresAt

def request : BackendOp → Request
  | .insert recordId record => .insert recordId (reading.record record)
  | .fetch recordId => .fetch recordId
  | .delete recordId => .delete recordId
  | .deleteExpired => .deleteExpired

def answer : (op : BackendOp) → op.Answer → (reading.request op).Answer
  | .insert _ _, result => result.mapError readFailure
  | .fetch _, result => (result.map reading.record).mapError readFailure
  | .delete _, result => result.mapError readFailure
  | .deleteExpired, result => result.mapError readFailure

/-- The second program does on terms what the first does on bytes. -/
inductive Reads (same : α → α' → Prop) : Host BackendOp.Answer α → Host Request.Answer α' → Prop where
  | done {value value'} (result : same value value') : Reads same (.done value) (.done value')
  | now {next next'} (rest : ∀ time, Reads same (next time) (next' time)) :
      Reads same (.step .now next) (.step .now next')
  | generateKey {next next'} (rest : ∀ key, Reads same (next key) (next' key)) :
      Reads same (.step .generateKey next) (.step .generateKey next')
  | generateNonce {next next'} (rest : ∀ nonce, Reads same (next nonce) (next' nonce)) :
      Reads same (.step .generateNonce next) (.step .generateNonce next')
  | newV4 {next next'} (rest : ∀ recordId, Reads same (next recordId) (next' recordId)) :
      Reads same (.step .newV4 next) (.step .newV4 next')
  | panic {message next next'} : Reads same (.step (.panic message) next) (.step (.panic message) next')
  | log {line message next next'} (written : render? message = some line) (rest : Reads same (next ()) (next' ())) :
      Reads same (.step (.log line) next) (.step (.storage (.log message)) next')
  | storage {op next next'} (rest : ∀ result, Reads same (next result) (next' (reading.answer op result))) :
      Reads same (.step (.storage op) next) (.step (.storage (reading.request op)) next')

theorem Reads.bind {same : α → α' → Prop} {same' : γ → γ' → Prop} {program : Host BackendOp.Answer α}
    {program' : Host Request.Answer α'} {rest : α → Host BackendOp.Answer γ} {rest' : α' → Host Request.Answer γ'}
    (first : reading.Reads same program program')
    (later : ∀ value value', same value value' → reading.Reads same' (rest value) (rest' value')) :
    reading.Reads same' (program >>= rest) (program' >>= rest') := by
  induction first with
  | done result => exact later _ _ result
  | now _ ih => exact .now ih
  | generateKey _ ih => exact .generateKey ih
  | generateNonce _ ih => exact .generateNonce ih
  | newV4 _ ih => exact .newV4 ih
  | panic => exact .panic
  | log written _ ih => exact .log written ih
  | storage _ ih => exact .storage ih

/-- Results that agree: values that are the same, or an error and its reading. -/
def Agree {ε ε' : Type} (read : ε → ε') (same : α → α' → Prop) : Except ε α → Except ε' α' → Prop
  | .ok value, .ok value' => same value value'
  | .error error, .error error' => read error = error'
  | _, _ => False

def Mirrors (same : α → α' → Prop) (program : VaultM BackendOp.Answer α) (program' : SymbolicM α') : Prop :=
  reading.Reads (Agree readError same) program.run program'.run

namespace Mirrors

variable {reading} {same : α → α' → Prop} {same' : γ → γ' → Prop}

theorem pure {value : α} {value' : α'} (result : same value value') :
    reading.Mirrors same (pure value) (Pure.pure value') := .done result

theorem throw {error : VaultError} {failure : VaultFailure} (read : readError error = failure) :
    reading.Mirrors same (throw error) (MonadExcept.throw failure) := .done read

theorem bind {program : VaultM BackendOp.Answer α} {program' : SymbolicM α'} {rest : α → VaultM BackendOp.Answer γ}
    {rest' : α' → SymbolicM γ'} (first : reading.Mirrors same program program')
    (later : ∀ value value', same value value' → reading.Mirrors same' (rest value) (rest' value')) :
    reading.Mirrors same' (program >>= rest) (program' >>= rest') := by
  refine Reads.bind reading first fun result result' agree => ?_
  match result, result', agree with
  | .ok value, .ok value', agree => exact later value value' agree
  | .error error, .error failure, agree => exact .done agree

theorem host {program : Host BackendOp.Answer α} {program' : Host Request.Answer α'}
    (reads : reading.Reads same program program') :
    reading.Mirrors same (VaultM.host program) (SymbolicM.host program') :=
  Reads.bind reading reads fun _ _ result => .done result

theorem attempt {convert : StorageError → VaultError} {convert' : StorageFailure → VaultFailure}
    {program : Host BackendOp.Answer (Except StorageError α)}
    {program' : Host Request.Answer (Except StorageFailure α')}
    (converts : ∀ error, readError (convert error) = convert' (readFailure error))
    (reads : reading.Reads (Agree readFailure same) program program') :
    reading.Mirrors same (VaultM.attempt convert program) (SymbolicM.attempt convert' program') := by
  refine Reads.bind reading reads fun result result' agree => .done ?_
  match result, result', agree with
  | .ok value, .ok value', agree => exact agree
  | .error error, .error failure, agree =>
      cases agree
      exact converts error

theorem now : reading.Mirrors Eq (VaultM.host Host.now) (SymbolicM.host Host.now) :=
  host (.now fun _ => .done rfl)

theorem generateKey : reading.Mirrors Eq (VaultM.host Host.generateKey) (SymbolicM.host Host.generateKey) :=
  host (.generateKey fun _ => .done rfl)

theorem generateNonce : reading.Mirrors Eq (VaultM.host Host.generateNonce) (SymbolicM.host Host.generateNonce) :=
  host (.generateNonce fun _ => .done rfl)

theorem newV4 : reading.Mirrors Eq (VaultM.host Host.newV4) (SymbolicM.host Host.newV4) :=
  host (.newV4 fun _ => .done rfl)

theorem panic (message : String) :
    reading.Mirrors same (VaultM.host (Host.panic message)) (SymbolicM.host (Host.panic message)) := host .panic

theorem log {line : String} {message : Message} (written : render? message = some line) :
    reading.Mirrors Eq (VaultM.host (Host.log line)) (SymbolicM.log message) :=
  host (.log written (.done rfl))

end Mirrors

theorem readError_ofFetch (error : StorageError) :
    readError (VaultError.ofFetch error) = VaultFailure.ofFetch (readFailure error) := by
  cases error <;> rfl

theorem render_failure (error : StorageError) : render? (readFailure error).message = some error.toString := by
  cases error <;> rfl

theorem render_pair {left right : Message} {first second : String} (written : render? left = some first)
    (written' : render? right = some second) : render? (.pair left right) = some (first ++ second) := by
  rw [render?, written, written']
  rfl

section Functions

theorem delete_reads (recordId : RecordId) : reading.Reads (Agree readFailure Eq)
    (Host.storage (BackendOp.delete recordId)) (Host.storage (Request.delete recordId)) := by
  refine @Reads.storage _ _ reading _ _ _ (.delete recordId) _ _ fun result => .done ?_
  cases result <;> rfl

theorem isExpired_reads (record : StoredRecord) :
    reading.Reads Eq (StoredRecord.isExpired record) (reading.record record).isExpired := by
  obtain ⟨encrypted, storedAt, expiresAt⟩ := record
  cases expiresAt with
  | none => exact .done rfl
  | some expiry => exact .now fun _ => .done rfl

theorem expiryAfter_mirrors (expiresInSecs : Option UInt64) :
    reading.Mirrors Eq (expiryAfter expiresInSecs) (SymbolicVault.expiryAfter expiresInSecs) := by
  unfold expiryAfter SymbolicVault.expiryAfter
  cases expiresInSecs with
  | none => exact .pure rfl
  | some secs =>
      by_cases large : i64Max < secs.toNat
      · simp only [large, if_true]
        exact .throw rfl
      · simp only [large, if_false]
        refine Mirrors.now.bind fun now _ same => ?_
        cases same
        cases Duration.seconds? secs.toNat with
        | none => exact .panic _
        | some duration =>
            simp only
            cases now.add? duration with
            | none => exact .panic _
            | some expiry => exact .pure rfl

theorem refuseExpired_mirrors {same : α → α' → Prop} (recordId : RecordId) (notice : String) :
    reading.Mirrors same (refuseExpired atomicBackend recordId notice)
      (SymbolicVault.refuseExpired recordId notice) := by
  have refuses : reading.Mirrors same (do
      VaultM.host (Host.log (notice ++ Uuid.simple recordId))
      throw .proofExpired) (do
      SymbolicM.log (.pair (text notice) (simple recordId))
      throw .proofExpired) :=
    .bind (.log (render_pair rfl rfl)) fun _ _ _ => .throw rfl
  refine .bind (.host (reading.delete_reads recordId)) fun result result' agree => ?_
  match result, result', agree with
  | .ok found, .ok found', _ => exact refuses
  | .error error, .error failure, agree =>
      cases agree
      refine .bind (.log ?_) fun _ _ _ => refuses
      rw [render_pair rfl (render_pair rfl (render_pair rfl (render_failure error)))]
      simp only [String.append_assoc]

theorem withLiveRecord_mirrors {same : α → α' → Prop} (recordId : RecordId) (notice : String)
    {use : StoredRecord → VaultM BackendOp.Answer α} {use' : SealedRecord → SymbolicM α'}
    (uses : ∀ record, reading.Mirrors same (use record) (use' (reading.record record))) :
    reading.Mirrors same (withLiveRecord atomicBackend recordId notice use)
      (SymbolicVault.withLiveRecord recordId notice use') := by
  have fetches : reading.Reads (Agree readFailure fun record sealed => sealed = reading.record record)
      (Host.storage (BackendOp.fetch recordId)) (Host.storage (Request.fetch recordId)) := by
    refine @Reads.storage _ _ reading _ _ _ (.fetch recordId) _ _ fun result => .done ?_
    cases result <;> rfl
  refine .bind (.attempt readError_ofFetch fetches) fun record sealed same => ?_
  subst same
  refine .bind (.host (reading.isExpired_reads record)) fun expired _ same => ?_
  subst same
  cases expired with
  | true => exact reading.refuseExpired_mirrors recordId notice
  | false => exact uses record

theorem storeProof_mirrors (proof : PlaintextProof) (expiresInSecs : Option UInt64) :
    reading.Mirrors ClaimReads (StandardVault.storeProof atomicBackend aead proof expiresInSecs)
      (SymbolicVault.storeProof accepts (reading.message proof.data) expiresInSecs) := by
  unfold StandardVault.storeProof SymbolicVault.storeProof
  by_cases zero : expiresInSecs = some 0
  · simp only [zero, if_true]
    exact .throw rfl
  simp only [zero, if_false]
  refine Mirrors.generateKey.bind fun key _ same => ?_
  subst same
  refine Mirrors.generateNonce.bind fun nonce _ same => ?_
  subst same
  rw [← reading.encrypts]
  cases aead.encrypt key nonce proof.data with
  | none => exact .throw rfl
  | some ciphertext =>
      refine Mirrors.newV4.bind fun recordId _ same => ?_
      subst same
      refine (reading.expiryAfter_mirrors expiresInSecs).bind fun expiresAt _ same => ?_
      subst same
      refine Mirrors.now.bind fun storedAt _ same => ?_
      subst same
      have inserts : reading.Reads (Agree readFailure Eq)
          (Host.storage (BackendOp.insert recordId ⟨⟨nonce.bytes, ciphertext⟩, storedAt, expiresAt⟩))
          (Host.storage (Request.insert recordId
            ⟨.atom (.nonce nonce), reading.message ciphertext, storedAt, expiresAt⟩)) := by
        rw [← readNonce_bytes nonce]
        refine @Reads.storage _ _ reading _ _ _ (.insert recordId _) _ _ fun result => .done ?_
        cases result <;> rfl
      refine .bind (.attempt (fun _ => rfl) inserts) fun _ _ _ => ?_
      refine .bind (.log (render_pair rfl rfl)) fun _ _ _ => ?_
      exact .pure (claimReads_encode ⟨recordId, key⟩)

theorem consume_mirrors (claimId : ClaimId) (record : StoredRecord) :
    reading.Mirrors (fun proof message => message = reading.message proof.data)
      (StandardVault.consume atomicBackend aead claimId record)
      (SymbolicVault.consume claimId (reading.record record)) := by
  obtain ⟨⟨bytes, ciphertext⟩, storedAt, expiresAt⟩ := record
  unfold StandardVault.consume SymbolicVault.consume
  by_cases length : bytes.length = 12
  · obtain ⟨nonce, rfl⟩ : ∃ nonce : Nonce, nonce.bytes = bytes := ⟨⟨bytes, length⟩, rfl⟩
    have sealed : (reading.record ⟨⟨nonce.bytes, ciphertext⟩, storedAt, expiresAt⟩).nonce = .atom (.nonce nonce) :=
      readNonce_bytes nonce
    rw [if_neg (not_not_intro length), FixedBytes.ofBytes?_bytes, sealed]
    simp only
    rw [show (reading.record ⟨⟨nonce.bytes, ciphertext⟩, storedAt, expiresAt⟩).ciphertext =
      reading.message ciphertext from rfl, ← reading.decrypts]
    cases aead.decrypt claimId.encryptionKey nonce ciphertext with
    | none => exact .throw rfl
    | some plaintext =>
        refine .bind (.attempt (fun _ => rfl) (reading.delete_reads _)) fun _ _ _ => ?_
        exact .bind (.log (render_pair rfl rfl)) fun _ _ _ => .pure rfl
  · have unread : FixedBytes.ofBytes? 12 bytes = none := dif_neg length
    have sealed : (reading.record ⟨⟨bytes, ciphertext⟩, storedAt, expiresAt⟩).nonce = text "not a nonce" := by
      rw [record, readNonce, unread]
    rw [if_pos length, sealed]
    exact .throw rfl

/-- A claim string that does not decode is refused, and one that does is used. -/
theorem decoded_mirrors {same : α → α' → Prop} {claimIdStr : String} {claim : Message}
    (reads : ClaimReads claimIdStr claim) {use : ClaimId → VaultM BackendOp.Answer α} {use' : ClaimId → SymbolicM α'}
    (uses : ∀ claimId, reading.Mirrors same (use claimId) (use' claimId)) :
    reading.Mirrors same
      (match ClaimId.decode claimIdStr with
        | .error error => throw error
        | .ok claimId => use claimId)
      (match decodeClaim claim with
        | .error failure => throw failure
        | .ok claimId => use' claimId) := by
  rw [← (show _ = decodeClaim claim from reads)]
  cases ClaimId.decode claimIdStr with
  | error error => exact .throw rfl
  | ok claimId => exact uses claimId

theorem retrieveProof_mirrors {claimIdStr : String} {claim : Message} (reads : ClaimReads claimIdStr claim) :
    reading.Mirrors (fun proof message => message = reading.message proof.data)
      (StandardVault.retrieveProof atomicBackend aead claimIdStr) (SymbolicVault.retrieveProof claim) :=
  reading.decoded_mirrors reads fun claimId =>
    reading.withLiveRecord_mirrors _ _ (reading.consume_mirrors claimId)

theorem deleteProof_mirrors {claimIdStr : String} {claim : Message} (reads : ClaimReads claimIdStr claim) :
    reading.Mirrors Eq (StandardVault.deleteProof atomicBackend claimIdStr) (SymbolicVault.deleteProof claim) := by
  refine reading.decoded_mirrors reads fun claimId => reading.withLiveRecord_mirrors _ _ fun record => ?_
  refine .bind (.attempt (fun _ => rfl) (reading.delete_reads _)) fun deleted _ same => ?_
  subst same
  cases deleted with
  | true => exact .log (render_pair rfl rfl)
  | false => exact .throw rfl

theorem cleanup_mirrors : reading.Mirrors Eq (StandardVault.cleanup atomicBackend) SymbolicVault.cleanup := by
  have sweeps : reading.Reads (Agree readFailure Eq)
      (Host.storage BackendOp.deleteExpired) (Host.storage Request.deleteExpired) := by
    refine @Reads.storage _ _ reading _ _ _ .deleteExpired _ _ fun result => .done ?_
    cases result <;> rfl
  refine .bind (.attempt (fun _ => rfl) sweeps) fun removed _ same => ?_
  subst same
  by_cases some : 0 < removed
  · simp only [some, if_true]
    refine .bind (.log ?_) fun _ _ _ => .pure rfl
    rw [render_pair rfl (render_pair rfl rfl)]
    simp only [String.append_assoc]
  · simp only [some, if_false]
    exact .pure rfl

end Functions

def CallReads : VaultCall → Call → Prop
  | .storeProof proof expiresInSecs, .storeProof message expiresInSecs' =>
      message = reading.message proof.data ∧ expiresInSecs' = expiresInSecs
  | .retrieveProof claimIdStr, .retrieveProof claim => ClaimReads claimIdStr claim
  | .deleteProof claimIdStr, .deleteProof claim => ClaimReads claimIdStr claim
  | .cleanup, .cleanup => True
  | _, _ => False

def ReplyReads : TariVault.Reply → Reply → Prop
  | .claimId claimIdStr, .claim claim => ClaimReads claimIdStr claim
  | .proof proof, .proof message => message = reading.message proof.data
  | .deleted, .deleted => True
  | .removed count, .removed count' => count = count'
  | _, _ => False

theorem Mirrors.map {same : α → α' → Prop} {same' : γ → γ' → Prop} {program : VaultM BackendOp.Answer α}
    {program' : SymbolicM α'} {f : α → γ} {f' : α' → γ'} (mirrors : reading.Mirrors same program program')
    (maps : ∀ value value', same value value' → same' (f value) (f' value')) :
    reading.Reads (Agree readError same') (Except.map f <$> program.run) (Except.map f' <$> program'.run) := by
  refine Reads.bind reading mirrors fun result result' agree => .done ?_
  match result, result', agree with
  | .ok value, .ok value', agree => exact maps value value' agree
  | .error error, .error failure, agree => exact agree

/-- A call does on bytes what the call does on their terms. -/
theorem code_reads {call : VaultCall} {call' : Call} (reads : reading.CallReads call call') :
    reading.Reads (Agree readError reading.ReplyReads) (call.code aead) (call'.code accepts) := by
  match call, call', reads with
  | .storeProof proof expiresInSecs, .storeProof _ _, ⟨rfl, rfl⟩ =>
      exact (reading.storeProof_mirrors proof expiresInSecs).map reading fun _ _ read => read
  | .retrieveProof _, .retrieveProof _, reads =>
      exact (reading.retrieveProof_mirrors reads).map reading fun _ _ read => read
  | .deleteProof _, .deleteProof _, reads => exact (reading.deleteProof_mirrors reads).map reading fun _ _ _ => trivial
  | .cleanup, .cleanup, _ => exact reading.cleanup_mirrors.map reading fun _ _ same => same

/-- An event and what it is on terms. -/
inductive EventReads : VaultEvent → Event (HostOp.Answer Request.Answer) → Prop where
  | now (time) : EventReads ⟨.now, time⟩ ⟨.now, time⟩
  | generateKey (key) : EventReads ⟨.generateKey, key⟩ ⟨.generateKey, key⟩
  | generateNonce (nonce) : EventReads ⟨.generateNonce, nonce⟩ ⟨.generateNonce, nonce⟩
  | newV4 (recordId) : EventReads ⟨.newV4, recordId⟩ ⟨.newV4, recordId⟩
  | log {line message} (written : render? message = some line) :
      EventReads ⟨.log line, ()⟩ ⟨.storage (.log message), ()⟩
  | storage (op) (result : op.Answer) :
      EventReads ⟨.storage op, result⟩ ⟨.storage (reading.request op), reading.answer op result⟩

/-- Every history on bytes is one on terms. -/
theorem Reads.history {same : α → α' → Prop} {program rest : Host BackendOp.Answer α}
    {program' : Host Request.Answer α'} {events : List VaultEvent} (reads : reading.Reads same program program')
    (leads : Leads program events rest) :
    ∃ events' rest', List.Forall₂ reading.EventReads events events' ∧ Leads program' events' rest' ∧
      reading.Reads same rest rest' := by
  induction leads generalizing program' with
  | refl => exact ⟨[], program', .nil, .refl _, reads⟩
  | @step op next answer events rest _ ih =>
      cases reads with
      | now rest =>
          obtain ⟨events', rest', read, leads, reads⟩ := ih (rest _)
          exact ⟨_, rest', .cons (.now _) read, .step leads, reads⟩
      | generateKey rest =>
          obtain ⟨events', rest', read, leads, reads⟩ := ih (rest _)
          exact ⟨_, rest', .cons (.generateKey _) read, .step leads, reads⟩
      | generateNonce rest =>
          obtain ⟨events', rest', read, leads, reads⟩ := ih (rest _)
          exact ⟨_, rest', .cons (.generateNonce _) read, .step leads, reads⟩
      | newV4 rest =>
          obtain ⟨events', rest', read, leads, reads⟩ := ih (rest _)
          exact ⟨_, rest', .cons (.newV4 _) read, .step leads, reads⟩
      | panic => exact Empty.elim answer
      | log written rest =>
          obtain ⟨events', rest', read, leads, reads⟩ := ih rest
          exact ⟨_, rest', .cons (.log written) read, .step leads, reads⟩
      | storage rest =>
          obtain ⟨events', rest', read, leads, reads⟩ := ih (rest _)
          exact ⟨_, rest', .cons (.storage _ _) read, .step leads, reads⟩

/-- What a call of the code did on bytes, the symbolic call can do on terms. -/
theorem call_history {call : VaultCall} {call' : Call} (reads : reading.CallReads call call') {events : List VaultEvent}
    {rest : Host BackendOp.Answer (Except VaultError TariVault.Reply)} (leads : Leads (call.code aead) events rest) :
    ∃ events' rest', List.Forall₂ reading.EventReads events events' ∧ Leads (call'.code accepts) events' rest' ∧
      reading.Reads (Agree readError reading.ReplyReads) rest rest' :=
  (reading.code_reads reads).history reading leads

end Reading

/-- A stand-in: the ciphertext names its key and its nonce. -/
def named : Aead where
  encrypt key nonce plaintext := some (key.bytes ++ (nonce.bytes ++ plaintext))
  decrypt key nonce ciphertext :=
    if ciphertext.take 44 = key.bytes ++ nonce.bytes then some (ciphertext.drop 44) else none

/-- Bytes that are long enough are a ciphertext. -/
def namedMessage (bytes : Bytes) : Message :=
  if long : 44 ≤ bytes.length then
    .enc (.atom (.key ⟨bytes.take 32, by rw [List.length_take]; omega⟩))
      (.atom (.nonce ⟨(bytes.drop 32).take 12, by rw [List.length_take, List.length_drop]; omega⟩))
      (namedMessage (bytes.drop 44))
  else .atom (.payload bytes)
termination_by bytes.length
decreasing_by
  rw [List.length_drop]
  omega

theorem namedMessage_sealed (key : EncryptionKey) (nonce : Nonce) (plaintext : Bytes) :
    namedMessage (key.bytes ++ (nonce.bytes ++ plaintext)) =
      .enc (.atom (.key key)) (.atom (.nonce nonce)) (namedMessage plaintext) := by
  have keyLength := key.length_eq
  have nonceLength := nonce.length_eq
  have long : 44 ≤ (key.bytes ++ (nonce.bytes ++ plaintext)).length := by
    simp only [List.length_append]
    omega
  have first : (key.bytes ++ (nonce.bytes ++ plaintext)).take 32 = key.bytes := List.take_left' keyLength
  have later : (key.bytes ++ (nonce.bytes ++ plaintext)).drop 32 = nonce.bytes ++ plaintext := List.drop_left' keyLength
  have second : (nonce.bytes ++ plaintext).take 12 = nonce.bytes := List.take_left' nonceLength
  have last : (key.bytes ++ (nonce.bytes ++ plaintext)).drop 44 = plaintext := by
    rw [show 44 = 32 + 12 from rfl, ← List.drop_drop, later, List.drop_left' nonceLength]
  rw [namedMessage, dif_pos long]
  simp only [first, later, second, last]

def namedReading : Reading named fun _ => true where
  message := namedMessage
  encrypts key nonce plaintext := by
    rw [named, Option.map_some, namedMessage_sealed]
    rfl
  decrypts key nonce ciphertext := by
    by_cases same : ciphertext.take 44 = key.bytes ++ nonce.bytes
    · have whole : key.bytes ++ (nonce.bytes ++ ciphertext.drop 44) = ciphertext := by
        rw [← List.append_assoc, ← same, List.take_append_drop]
      have sealed := namedMessage_sealed key nonce (ciphertext.drop 44)
      rw [whole] at sealed
      rw [sealed, decrypt, if_pos ⟨rfl, rfl⟩, named]
      simp only [same, if_true, Option.map_some]
    · rw [named]
      simp only [same, if_false, Option.map_none]
      rw [namedMessage]
      split
      · rw [decrypt, if_neg]
        intro holds
        obtain ⟨sameKey, sameNonce⟩ := holds
        simp only [Term.atom.injEq, Atom.key.injEq, Atom.nonce.injEq] at sameKey sameNonce
        rw [← sameKey, ← sameNonce] at same
        exact same (by rw [show 44 = 32 + 12 from rfl, List.take_add])
      · rfl

end TariVault.Symbolic
