import TariVault.Rpc.Server
import TariVault.Vault.RoundTrip

namespace TariVault

open Program Session

/-! # What a retrieval over RPC consumes

The record is deleted before the payload is read as JSON. So the payload is lost
exactly when it cannot be read.
-/

variable {json : SerdeJson} {aead : Aead} {supply : Supply} {maxProofSizeBytes : UInt64}
  {before stored session after : Session Contents} {claimIdStr : String} {proof : PlaintextProof}

/-- A program over the map, run as far as it goes. -/
def Contents.exec {α : Type} (supply : Supply) (session : Session Contents)
    (program : Host BackendOp.Answer α) : Option α × Session Contents :=
  Program.exec (respond supply (onContents supply)) program session

/-- A server on the vault that library code shares. -/
def rpcServer (aead : Aead) (maxProofSizeBytes : UInt64) : VaultRpcImpl BackendOp.Answer where
  vault := StandardVault.vault atomicBackend aead
  maxProofSizeBytes := maxProofSizeBytes

/-- The ways to store a payload under a claim string: the RPC method, and the library
call with bytes or with a JSON value. -/
inductive StoredThrough (json : SerdeJson) (aead : Aead) (supply : Supply) (maxProofSizeBytes : UInt64)
    (before : Session Contents) (claimIdStr : String) : PlaintextProof → Session Contents → Prop where
  | rpc {params : StoreProofParams json} {stored}
      (answered : Contents.exec supply before ((rpcServer aead maxProofSizeBytes).storeProof params).run =
        (some (.ok claimIdStr), stored)) :
      StoredThrough json aead supply maxProofSizeBytes before claimIdStr ⟨params.proofJson.toVec⟩ stored
  | bytes {data : Bytes} {expiresInSecs stored}
      (answered : Contents.exec supply before
        (StandardVault.storeProof atomicBackend aead (.fromBytes data) expiresInSecs).run =
          (some (.ok claimIdStr), stored)) :
      StoredThrough json aead supply maxProofSizeBytes before claimIdStr (.fromBytes data) stored
  | value {value : JsonValue json} {proof expiresInSecs stored} (made : PlaintextProof.fromJson value = .ok proof)
      (answered : Contents.exec supply before
        (StandardVault.storeProof atomicBackend aead proof expiresInSecs).run = (some (.ok claimIdStr), stored)) :
      StoredThrough json aead supply maxProofSizeBytes before claimIdStr proof stored

/-- A store over RPC that succeeds is a library store of the text of the value. -/
theorem rpc_stores {params : StoreProofParams json}
    (answered : Contents.exec supply before ((rpcServer aead maxProofSizeBytes).storeProof params).run =
      (some (.ok claimIdStr), stored)) :
    Contents.exec supply before
        (StandardVault.storeProof atomicBackend aead ⟨params.proofJson.toVec⟩ params.expiresInSecs).run =
      (some (.ok claimIdStr), stored) := by
  have silent := respond_logsSilently supply (onContents supply)
  obtain ⟨_, _, checked, answered⟩ := exec_bind_succeeded answered
  obtain ⟨_, rfl⟩ := Prod.mk.inj (exec_attempt_succeeded silent checked)
  obtain ⟨_, _, converted, answered⟩ := exec_bind_succeeded answered
  cases exec_attempt_succeeded silent converted
  exact exec_attempt_succeeded silent answered

theorem Contents.serve_storeProof {expiresInSecs : Option UInt64}
    (answered : Contents.exec supply before
      (StandardVault.storeProof atomicBackend aead proof expiresInSecs).run = (some (.ok claimIdStr), stored)) :
    Contents.serve aead supply before (.storeProof proof expiresInSecs) =
      (some (.ok (.claimId claimIdStr)), stored) := by
  change Contents.exec supply before (_ <$> _) = _
  rw [Contents.exec, exec_map, ← Contents.exec, answered]
  rfl

theorem Contents.exec_retrieveProof
    (served : Contents.serve aead supply session (.retrieveProof claimIdStr) = (some (.ok (.proof proof)), after)) :
    Contents.exec supply session (StandardVault.retrieveProof atomicBackend aead claimIdStr).run =
      (some (.ok proof), after) := by
  change Contents.exec supply session (_ <$> _) = _ at served
  rw [Contents.exec, exec_map, ← Contents.exec] at served
  obtain ⟨mapped, rfl⟩ := Prod.mk.inj served
  obtain ⟨result, finished, converted⟩ := Option.map_eq_some_iff.mp mapped
  cases result with
  | ok other =>
      cases converted
      exact Prod.ext finished rfl
  | error error => contradiction

/-- Whatever the way, the vault sealed the payload and inserted it. -/
theorem StoredThrough.sealed
    (through : StoredThrough json aead supply maxProofSizeBytes before claimIdStr proof stored) :
    ∃ draft : Draft aead proof, claimIdStr = draft.claimId.encode ∧
      stored.storage = before.storage.insert draft.recordId draft.record := by
  obtain ⟨expiresInSecs, answered⟩ : ∃ expiresInSecs, Contents.exec supply before
      (StandardVault.storeProof atomicBackend aead proof expiresInSecs).run = (some (.ok claimIdStr), stored) := by
    cases through with
    | rpc answered => exact ⟨_, rpc_stores answered⟩
    | bytes answered => exact ⟨_, answered⟩
    | value _ answered => exact ⟨_, answered⟩
  have served := Contents.serve_storeProof answered
  obtain ⟨draft, same, inserts, _⟩ := store_serves (congrArg Prod.fst served)
  rw [served] at inserts
  exact ⟨draft, same, inserts⟩

/-- The retrieval takes the payload out of the storage and reads it as JSON. -/
theorem rpc_retrieves (opens : aead.Opens)
    (through : StoredThrough json aead supply maxProofSizeBytes before claimIdStr proof stored)
    {claimId : ClaimId} (decoded : ClaimId.decode claimIdStr = .ok claimId) {record : StoredRecord}
    (inserted : stored.storage[claimId.recordId]? = some record)
    (present : session.storage[claimId.recordId]? = some record)
    (live : ¬ record.ExpiredAt (supply.now session.taken)) :
    ∃ after, after.storage = session.storage.erase claimId.recordId ∧
      Contents.exec supply session ((rpcServer aead maxProofSizeBytes).retrieveProof json claimIdStr).run =
        (some (((proof.intoJson json).map ProofObject.mk).mapError VaultError.errorObject), after) := by
  obtain ⟨draft, rfl, inserts⟩ := through.sealed
  cases (ClaimId.decode_encode draft.claimId).symm.trans decoded
  have sealed : draft.record = record := by
    rw [inserts] at inserted
    exact Option.some.inj (Contents.getElem?_insert_self.symm.trans inserted)
  subst sealed
  have silent := respond_logsSilently supply (onContents supply)
  obtain ⟨after, served, erased⟩ := @retrieve_serves aead supply session draft.claimId draft.record draft.nonce
    proof.data present live rfl (opens _ _ _ _ draft.encrypted)
  refine ⟨after, erased, ?_⟩
  have retrieved : (RpcM.attempt (StandardVault.retrieveProof atomicBackend aead draft.claimId.encode).run).run.exec
      (respond supply (onContents supply)) session = (some (.ok proof), after) := by
    rw [exec_attempt silent, ← Contents.exec, Contents.exec_retrieveProof served]
    rfl
  refine (exec_bind_ok retrieved).trans ?_
  cases read : proof.intoJson json with
  | ok value => exact exec_bind_ok (exec_attempt_pure silent _)
  | error error => exact exec_bind_error (exec_attempt_pure silent _)

/-- When the retrieval fails, the record is still there, and a later retrieval
returns it unless it expires before. -/
def KeepsOnError (json : SerdeJson) (aead : Aead) (supply : Supply) (maxProofSizeBytes : UInt64)
    (session : Session Contents) (claimIdStr : String) : Prop :=
  ∀ error after, Contents.exec supply session
      ((rpcServer aead maxProofSizeBytes).retrieveProof json claimIdStr).run = (some (.error error), after) →
    ∀ claimId record, ClaimId.decode claimIdStr = .ok claimId →
      session.storage[claimId.recordId]? = some record →
        after.storage[claimId.recordId]? = some record ∧
          (¬ record.ExpiredAt (supply.now after.taken) → ∃ proof,
            (Contents.serve aead supply after (.retrieveProof claimIdStr)).1 = some (.ok (.proof proof)))

section Kept

variable {claimId : ClaimId} {record : StoredRecord}

theorem lost_of_unreadable (opens : aead.Opens)
    (through : StoredThrough json aead supply maxProofSizeBytes before claimIdStr proof stored)
    (decoded : ClaimId.decode claimIdStr = .ok claimId) (inserted : stored.storage[claimId.recordId]? = some record)
    (present : session.storage[claimId.recordId]? = some record)
    (live : ¬ record.ExpiredAt (supply.now session.taken)) {message : String}
    (unreadable : JsonValue.fromSlice json proof.data = .error message) :
    ¬ KeepsOnError json aead supply maxProofSizeBytes session claimIdStr := by
  intro keeps
  obtain ⟨after, erased, retrieved⟩ := rpc_retrieves opens through decoded inserted present live
  rw [PlaintextProof.intoJson, unreadable] at retrieved
  obtain ⟨still, _⟩ := keeps _ after retrieved claimId record decoded present
  rw [erased, Contents.getElem?_erase_self] at still
  contradiction

/-- The method keeps what it cannot return if and only if the payload is a JSON text,
so that it can return it. -/
theorem keepsOnError_iff (opens : aead.Opens)
    (through : StoredThrough json aead supply maxProofSizeBytes before claimIdStr proof stored)
    (decoded : ClaimId.decode claimIdStr = .ok claimId) (inserted : stored.storage[claimId.recordId]? = some record)
    (present : session.storage[claimId.recordId]? = some record)
    (live : ¬ record.ExpiredAt (supply.now session.taken)) :
    KeepsOnError json aead supply maxProofSizeBytes session claimIdStr ↔
      ∃ value, JsonValue.fromSlice json proof.data = .ok value := by
  constructor
  · intro keeps
    cases read : JsonValue.fromSlice json proof.data with
    | ok value => exact ⟨value, rfl⟩
    | error message => exact absurd keeps (lost_of_unreadable opens through decoded inserted present live read)
  · intro holds error other failed
    obtain ⟨value, readable⟩ := holds
    obtain ⟨after, _, retrieved⟩ := rpc_retrieves opens through decoded inserted present live
    rw [PlaintextProof.intoJson, readable] at retrieved
    rw [retrieved] at failed
    exact absurd (congrArg Prod.fst failed) nofun

end Kept

section Texts

def textProof (text : String) : PlaintextProof := .fromBytes (Json.toBytes text)

def textClaim : ClaimId := ⟨.replicate 16 0, .replicate 32 1⟩

def textRecord (text : String) : StoredRecord :=
  ⟨⟨(FixedBytes.replicate 12 0).bytes, (FixedBytes.replicate 32 1).bytes ++ Json.toBytes text⟩, .epoch, none⟩

def textStored (text : String) : Session Contents :=
  ⟨(∅ : Contents).insert textClaim.recordId (textRecord text), 4, [textClaim.recordId]⟩

variable (text : String)

theorem text_stored :
    StoredThrough .decimal .keyed .still 1024 ⟨∅, 0, []⟩ textClaim.encode (textProof text) (textStored text) := by
  have answered : Contents.exec .still ⟨∅, 0, []⟩
      (StandardVault.storeProof atomicBackend .keyed (textProof text) none).run =
        (some (.ok textClaim.encode), textStored text) := rfl
  exact .bytes answered

theorem text_present : (textStored text).storage[textClaim.recordId]? = some (textRecord text) :=
  Contents.getElem?_insert_self

theorem text_live (now : DateTime) : ¬ (textRecord text).ExpiredAt now := by
  intro holds
  obtain ⟨expiry, impossible, _⟩ := holds
  contradiction

end Texts

/-- A word that is not JSON is stored by library code, and lost when it is retrieved
over RPC. -/
theorem word_lost :
    StoredThrough .decimal .keyed .still 1024 ⟨∅, 0, []⟩ textClaim.encode (textProof "proof") (textStored "proof") ∧
      (textStored "proof").storage[textClaim.recordId]? = some (textRecord "proof") ∧
      (∀ now, ¬ (textRecord "proof").ExpiredAt now) ∧
      ¬ KeepsOnError .decimal .keyed .still 1024 (textStored "proof") textClaim.encode := by
  have rejected : Json.readDocument Json.recursionLimit "proof".toList = none := by decide
  have unreadable : JsonValue.fromSlice .decimal (textProof "proof").data =
      .error "expected value at line 1 column 1" := by
    rw [JsonValue.fromSlice, textProof, PlaintextProof.fromBytes, Json.ofBytes?_toBytes, Option.bind_some, rejected]
    rfl
  exact ⟨text_stored _, text_present _, text_live _, lost_of_unreadable Aead.keyed_opens (text_stored _)
    (ClaimId.decode_encode _) (text_present _) (text_present _) (text_live _ _) unreadable⟩

theorem null_kept : KeepsOnError .decimal .keyed .still 1024 (textStored "null") textClaim.encode := by
  have readable : JsonValue.fromSlice .decimal (textProof "null").data = .ok ⟨.null, trivial⟩ := by
    have read : Json.readDocument Json.recursionLimit "null".toList = some .null := rfl
    rw [JsonValue.fromSlice, textProof, PlaintextProof.fromBytes, Json.ofBytes?_toBytes, Option.bind_some, read]
    rfl
  exact (keepsOnError_iff Aead.keyed_opens (text_stored "null") (ClaimId.decode_encode _) (text_present _)
    (text_present _) (text_live _ _)).mpr ⟨_, readable⟩

end TariVault
