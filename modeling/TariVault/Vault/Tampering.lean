import TariVault.Vault.Concurrent

namespace TariVault

open Program VaultM VaultEvent TariVault.System

/-! # Tampered storage

Between any two steps somebody may replace everything that is stored. What a
retrieval can be made to return is then decided by the key in its claim.
-/

inductive Tampering where
  | tick (now : DateTime)
  | replace (records : Contents)

/-- Vault calls over storage that is not trusted. -/
abbrev tamperedSystem (aead : Aead) : System (HostOp BackendOp) (HostOp.Answer BackendOp.Answer) where
  Call := VaultCall
  Result := Except VaultError Reply
  State := VaultState
  Env := Tampering
  code := VaultCall.code aead
  act _ := VaultAct
  drift state tampering state' :=
    match tampering with
    | .tick now => state' = { state with clock := now, readings := now :: state.readings }
    | .replace records => state' = { state with records }

abbrev tamperedStart (aead : Aead) (clock : DateTime) : Config (tamperedSystem aead) :=
  Config.start (VaultState.initial clock)

variable {aead : Aead} {clock : DateTime} {labels : List (Label (tamperedSystem aead))}
  {config : Config (tamperedSystem aead)}

/-- A store call of the run encrypted `plaintext` under this key and nonce. -/
def Encrypted (config : Config (tamperedSystem aead)) (tid : Nat) (key : EncryptionKey)
    (nonce : Nonce) (plaintext ciphertext : Bytes) : Prop :=
  ∃ thread proof expiresInSecs, config.threads tid = some thread ∧
    thread.call = .storeProof proof expiresInSecs ∧ thread.Did ⟨.generateKey, key⟩ ∧
    thread.Did ⟨.generateNonce, nonce⟩ ∧ proof.data = plaintext ∧
    aead.encrypt key nonce plaintext = some ciphertext

/-- Under a key that a store call drew, only what a store call encrypted under that
key decrypts. -/
def Authentic (config : Config (tamperedSystem aead)) : Prop :=
  ∀ tid thread key nonce ciphertext plaintext, config.threads tid = some thread →
    thread.Did ⟨.generateKey, key⟩ → aead.decrypt key nonce ciphertext = some plaintext →
    ∃ tid encryptedText, Encrypted config tid key nonce encryptedText ciphertext

/-- What a store call encrypted decrypts to its payload. -/
def Inverts (config : Config (tamperedSystem aead)) : Prop :=
  ∀ tid key nonce plaintext ciphertext, Encrypted config tid key nonce plaintext ciphertext →
    aead.decrypt key nonce ciphertext = some plaintext

/-- No two store calls drew the same key. -/
def FreshKeys (config : Config (tamperedSystem aead)) : Prop :=
  ∀ tid tid' thread thread' key, config.threads tid = some thread → config.threads tid' = some thread' →
    thread.Did ⟨.generateKey, key⟩ → thread'.Did ⟨.generateKey, key⟩ → tid = tid'

/-- Whatever is done to the stored records, the claim string of a proof retrieves
that proof or nothing, and no retrieval panics. -/
theorem tampered_retrieval_safe (run : Run (tamperedStart aead clock) labels config)
    (authentic : Authentic config) (inverts : Inverts config) (freshKeys : FreshKeys config)
    {tid tid' : Nat} {storing retrieving : Thread (tamperedSystem aead)}
    (found : config.threads tid = some storing) {proof : PlaintextProof}
    {expiresInSecs : Option UInt64} (stores : storing.call = .storeProof proof expiresInSecs)
    {claimIdStr : String} (stored : storing.Returned (.ok (.claimId claimIdStr)))
    (found' : config.threads tid' = some retrieving)
    (retrieves : retrieving.call = .retrieveProof claimIdStr) :
    (∀ message next, retrieving.rest ≠ .step (.panic message) next) ∧
      ∀ result, retrieving.Returned result → (∃ error, result = .error error) ∨
        result = .ok (.proof proof) := by
  have leads := (run.history found).1
  have leads' := (run.history found').1
  change Leads (storing.call.code aead) _ _ at leads
  change Leads (retrieving.call.code aead) _ _ at leads'
  rw [stores, stored] at leads
  rw [retrieves] at leads'
  obtain ⟨draft, clock, logs, rfl, insertion⟩ := insertion_of_returned leads
  have drew := insertion.drewKey
  constructor
  · intro message next panics
    have calm := ((retrieve_calm draft.claimId.encode).leads leads').2
    rw [panics] at calm
    exact calm.head
  · intro result returned
    cases result with
    | error error => exact .inl ⟨error, rfl⟩
    | ok reply =>
        refine .inr (congrArg Except.ok ?_)
        rw [returned] at leads'
        obtain ⟨_, record, nonce, plaintext, _, _, _, _, decrypted, rfl⟩ :=
          retrieve_returned (ClaimId.decode_encode draft.claimId) leads'
        obtain ⟨other, encryptedText, encrypted⟩ := authentic tid storing _ _ _ _ found drew decrypted
        obtain ⟨thread, otherProof, _, foundOther, storesOther, drewOther, _, rfl, _⟩ := id encrypted
        -- The key was drawn once, so it is the same call.
        have sameTid := freshKeys tid other storing thread _ found foundOther drew drewOther
        subst sameTid
        rw [found] at foundOther
        cases foundOther
        rw [stores] at storesOther
        cases storesOther
        have opened := inverts tid _ _ _ _ encrypted
        rw [decrypted, Option.some.injEq] at opened
        rw [opened]

/-- A cipher that was used once. -/
def Aead.once (key : EncryptionKey) (nonce : Nonce) (plaintext ciphertext : Bytes) : Aead where
  encrypt key' nonce' plaintext' :=
    if key' = key ∧ nonce' = nonce ∧ plaintext' = plaintext then some ciphertext else none
  decrypt key' nonce' ciphertext' :=
    if key' = key ∧ nonce' = nonce ∧ ciphertext' = ciphertext then some plaintext else none

section Once

variable {key : EncryptionKey} {nonce : Nonce} {plaintext ciphertext : Bytes}

theorem Aead.once_encrypt :
    (Aead.once key nonce plaintext ciphertext).encrypt key nonce plaintext = some ciphertext := by
  simp [once]

theorem Aead.once_decrypt :
    (Aead.once key nonce plaintext ciphertext).decrypt key nonce ciphertext = some plaintext := by
  simp [once]

theorem once_authentic {config : Config (tamperedSystem (.once key nonce plaintext ciphertext))} {tid : Nat}
    (encrypted : Encrypted config tid key nonce plaintext ciphertext) : Authentic config := by
  intro _ _ key' nonce' ciphertext' plaintext' _ _ decrypted
  simp only [Aead.once] at decrypted
  split at decrypted
  · rename_i same
    rw [same.1, same.2.1, same.2.2]
    exact ⟨tid, plaintext, encrypted⟩
  · contradiction

theorem once_inverts {config : Config (tamperedSystem (.once key nonce plaintext ciphertext))} :
    Inverts config := by
  intro tid key' nonce' plaintext' ciphertext' holds
  obtain ⟨_, _, _, _, _, _, _, _, encrypts⟩ := holds
  simp only [Aead.once] at encrypts
  split at encrypts
  · rename_i same
    cases encrypts
    rw [same.1, same.2.1, same.2.2]
    exact Aead.once_decrypt
  · contradiction

/-- Somebody replaces the records, and then a call runs by itself. -/
theorem replaced_alone {start config : Config (tamperedSystem aead)} {tid : Nat} {call : VaultCall}
    {events : List VaultEvent} {result : Except VaultError Reply} {after : VaultState}
    (front : Run start labels config) (records : Contents) (free : config.threads tid = none)
    (leads : Leads (call.code aead) events (.done result))
    (acts : @Acts _ _ (tamperedSystem aead) tid { config.shared with records } events after) :
    ∃ labels', Run start labels'
      ⟨after, Function.update config.threads tid (some ⟨call, events, .done result⟩)⟩ := by
  have replaced : Run start _ ⟨{ config.shared with records }, config.threads⟩ :=
    front.snoc trivial (@Step.drift _ _ (tamperedSystem aead) config (Tampering.replace records) _ rfl)
  exact ⟨_, replaced.trans (@RunWhere.alone _ _ (tamperedSystem aead) (fun _ _ => True)
    ⟨{ config.shared with records }, config.threads⟩ tid call _ _ _ free leads acts trivial
    fun _ _ _ _ _ _ => trivial)⟩

/-- A record whose nonce has been cut is refused before anything is decrypted. -/
theorem cut_completes {record : StoredRecord} {claimId : ClaimId} (noExpiry : record.expiresAt = none)
    (cut : record.encrypted.nonce.length ≠ 12) :
    Leads ((VaultCall.retrieveProof claimId.encode).code aead) [fetched claimId.recordId (.ok record)]
      (.done (.error .decryptionFailed)) := by
  have opening : (StandardVault.consume atomicBackend aead claimId record).run =
      .done (.error .decryptionFailed) := by
    unfold StandardVault.consume
    rw [if_pos cut]
    rfl
  exact refused_completes (ClaimId.decode_encode claimId) (.never noExpiry) opening

/-- What a fetch finds where one record is stored. -/
theorem fetch_act {state : VaultState} (shown : .epoch ∈ state.readings) (recordId : RecordId)
    (record : StoredRecord) :
    VaultAct { state with records := (∅ : Contents).insert recordId record } (fetched recordId (.ok record))
      { state with records := (∅ : Contents).insert recordId record } := by
  have performed := @VaultAct.perform { state with records := (∅ : Contents).insert recordId record }
    (.fetch recordId) .epoch shown
  have present : ((∅ : Contents).insert recordId record)[recordId]? = some record :=
    Contents.getElem?_insert_self
  simp only [Contents.apply, present] at performed
  exact performed

/-- A proof is stored. Its record is replaced by one whose nonce is cut, and a
retrieval is refused. Then it is replaced by one with another time, and a retrieval
returns the proof. -/
theorem tampered_run (key : EncryptionKey) (nonce : Nonce) (plaintext ciphertext : Bytes) (claimId : ClaimId)
    (sameKey : claimId.encryptionKey = key) (other : DateTime) :
    ∃ labels, ∃ config : Config (tamperedSystem (.once key nonce plaintext ciphertext)),
      ∃ storing refused retrieving, Run (tamperedStart _ .epoch) labels config ∧
        config.threads = Function.update (Function.update (Function.update (fun _ => none) 0 (some storing))
          1 (some refused)) 2 (some retrieving) ∧
        storing.call = .storeProof ⟨plaintext⟩ none ∧
        storing.Returned (.ok (.claimId claimId.encode)) ∧ storing.Did ⟨.generateKey, key⟩ ∧
        storing.Did ⟨.generateNonce, nonce⟩ ∧
        storing.Did (inserted claimId.recordId ⟨⟨nonce.bytes, ciphertext⟩, .epoch, none⟩ (.ok ())) ∧
        refused.call = .retrieveProof claimId.encode ∧ refused.Returned (.error .decryptionFailed) ∧
        refused.Did (fetched claimId.recordId (.ok ⟨⟨[], ciphertext⟩, .epoch, none⟩)) ∧
        retrieving.call = .retrieveProof claimId.encode ∧ retrieving.Returned (.ok (.proof ⟨plaintext⟩)) ∧
        retrieving.Did (fetched claimId.recordId (.ok ⟨⟨nonce.bytes, ciphertext⟩, other, none⟩)) ∧
        ∀ drawn, ¬ refused.Did ⟨.generateKey, drawn⟩ ∧ ¬ retrieving.Did ⟨.generateKey, drawn⟩ := by
  subst sameKey
  let aead : Aead := .once claimId.encryptionKey nonce plaintext ciphertext
  let cut : StoredRecord := ⟨⟨[], ciphertext⟩, .epoch, none⟩
  let redated : StoredRecord := ⟨⟨nonce.bytes, ciphertext⟩, other, none⟩
  obtain ⟨line, stores⟩ := @store_completes _ ⟨plaintext⟩ claimId.encryptionKey nonce ciphertext
    Aead.once_encrypt claimId.recordId .epoch
  have stored := @RunWhere.alone _ _ (tamperedSystem aead) (fun _ _ => True)
    (tamperedStart aead .epoch) 0 (.storeProof ⟨plaintext⟩ none) _ _ _ rfl stores (.cons (.generateKey _)
      (.cons (.generateNonce _) (.cons (.newV4 List.not_mem_nil) (.cons .now
        (.cons (.perform _ (List.mem_singleton_self _)) (.cons (.log line) .nil)))))) trivial
    fun _ _ _ _ _ _ => trivial
  obtain ⟨_, denied⟩ := @replaced_alone aead _ _ _ 1 (.retrieveProof claimId.encode) _ _ _
    (RunWhere.trans (.refl _) stored) ((∅ : Contents).insert claimId.recordId cut) rfl
    (@cut_completes _ cut claimId rfl (by simp [cut]))
    (.cons (fetch_act (List.mem_singleton_self _) claimId.recordId cut) .nil)
  obtain ⟨next, line', opens, closes⟩ := @retrieve_completes _ redated claimId.encode claimId
    (ClaimId.decode_encode claimId) [] (.never rfl) nonce plaintext rfl
    (@Aead.once_decrypt claimId.encryptionKey _ _ _)
  obtain ⟨_, retrieved⟩ := @replaced_alone aead _ _ _ 2 (.retrieveProof claimId.encode) _ _ _
    denied ((∅ : Contents).insert claimId.recordId redated) rfl
    (opens.trans (.step (closes _)))
    (.cons (fetch_act (List.mem_singleton_self _) claimId.recordId redated)
      (.cons (.perform (.delete claimId.recordId) (List.mem_singleton_self _)) (.cons (.log line') .nil)))
  exact ⟨_, _, _, _, _, retrieved, rfl, rfl, rfl, by simp [Thread.Did], by simp [Thread.Did],
    by simp [Thread.Did], rfl, rfl, by simp [Thread.Did, cut], rfl, rfl, by simp [Thread.Did, redated],
    by simp [Thread.Did]⟩

/-- A proof whose record was tampered with twice: with its nonce cut it is refused,
and with another time it comes back. -/
theorem tampered_retrieval_safe_once :
    ∃ labels, ∃ config : Config (tamperedSystem (.once (.replicate 32 1) (.replicate 12 0) [7] [9])),
      ∃ refused retrieving, Run (tamperedStart _ .epoch) labels config ∧
        config.threads 1 = some refused ∧ refused.Returned (.error .decryptionFailed) ∧
        refused.Did (fetched (.replicate 16 0) (.ok ⟨⟨[], [9]⟩, .epoch, none⟩)) ∧
        config.threads 2 = some retrieving ∧ retrieving.Returned (.ok (.proof ⟨[7]⟩)) ∧
        retrieving.Did (fetched (.replicate 16 0)
          (.ok ⟨⟨(FixedBytes.replicate 12 0).bytes, [9]⟩, ⟨1000000000, by decide, by decide⟩, none⟩)) ∧
        (∀ message next, refused.rest ≠ .step (.panic message) next) ∧
        (∀ message next, retrieving.rest ≠ .step (.panic message) next) ∧
        ∀ result, retrieving.Returned result → (∃ error, result = .error error) ∨ result = .ok (.proof ⟨[7]⟩) := by
  obtain ⟨labels, config, storing, refused, retrieving, run, threads, stores, stored, drewKey, drewNonce, _,
    refusedCall, denied, cut, retrieves, retrieved, redated, noKey⟩ := tampered_run (.replicate 32 1)
      (.replicate 12 0) [7] [9] ⟨.replicate 16 0, .replicate 32 1⟩ rfl ⟨1000000000, by decide, by decide⟩
  have found : config.threads 0 = some storing := by rw [threads]; rfl
  have foundRefused : config.threads 1 = some refused := by rw [threads]; rfl
  have foundRetrieving : config.threads 2 = some retrieving := by rw [threads]; rfl
  have encrypted : Encrypted config 0 (.replicate 32 1) (.replicate 12 0) [7] [9] :=
    ⟨storing, ⟨[7]⟩, none, found, stores, drewKey, drewNonce, rfl, Aead.once_encrypt⟩
  have drewBy {tid : Nat} {thread : Thread (tamperedSystem _)} {key : EncryptionKey}
      (here : config.threads tid = some thread) (drew : thread.Did ⟨.generateKey, key⟩) : tid = 0 := by
    rw [threads, Function.update_apply, Function.update_apply, Function.update_apply] at here
    split at here
    · cases here
      exact absurd drew (noKey key).2
    · split at here
      · cases here
        exact absurd drew (noKey key).1
      · split at here
        · assumption
        · contradiction
  have freshKeys : FreshKeys config := fun tid tid' thread thread' key here here' drew drew' => by
    rw [drewBy here drew, drewBy here' drew']
  have safe := tampered_retrieval_safe run (once_authentic encrypted) once_inverts freshKeys found stores stored
    foundRetrieving retrieves
  exact ⟨labels, config, refused, retrieving, run, foundRefused, denied, cut, foundRetrieving, retrieved, redated,
    (tampered_retrieval_safe run (once_authentic encrypted) once_inverts freshKeys found stores stored
      foundRefused refusedCall).1, safe.1, safe.2⟩

end Once

end TariVault
