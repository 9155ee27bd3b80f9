import TariVault.Data.DateTime
import TariVault.Data.FixedBytes

namespace TariVault

abbrev RecordId := FixedBytes 16

instance RecordId.transOrd : Std.TransOrd RecordId := inferInstanceAs (Std.TransOrd (FixedBytes 16))

abbrev EncryptionKey := FixedBytes 32

abbrev Nonce := FixedBytes 12

/-- The cryptographic payload of a record. A record read back from storage may
hold a nonce of any length. -/
structure EncryptedRecord where
  nonce : Bytes
  ciphertext : Bytes
deriving DecidableEq

structure StoredRecord where
  encrypted : EncryptedRecord
  storedAt : DateTime
  expiresAt : Option DateTime
deriving DecidableEq

namespace StoredRecord

/-- Whether the record counts as expired at `now`. A record without expiry never
does. -/
def ExpiredAt (record : StoredRecord) (now : DateTime) : Prop :=
  ∃ expiry, record.expiresAt = some expiry ∧ expiry < now

/-- The predicate with which a sweep at `now` keeps a record:
`expires_at.map(|t| t > now).unwrap_or(true)`. -/
def retainedAt (now : DateTime) (record : StoredRecord) : Bool :=
  match record.expiresAt with
  | some expiry => decide (now < expiry)
  | none => true

theorem retainedAt_eq_false {record : StoredRecord} {now : DateTime}
    (swept : record.retainedAt now = false) :
    ∃ expiry, record.expiresAt = some expiry ∧ expiry ≤ now := by
  unfold retainedAt at swept
  split at swept
  · exact ⟨_, by assumption, by simpa using swept⟩
  · contradiction

end StoredRecord

/-- The plaintext container, a wrapper of raw bytes. -/
structure PlaintextProof where
  data : Bytes
deriving DecidableEq

def PlaintextProof.fromBytes (data : Bytes) : PlaintextProof := { data }

end TariVault
