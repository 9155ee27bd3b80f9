import TariVault.Data.Base64
import TariVault.Domain.Record
import TariVault.Error

namespace TariVault

def recordIdLen : Nat := 16

def encryptionKeyLen : Nat := 32

def claimIdBytes : Nat := recordIdLen + encryptionKeyLen

structure ClaimId where
  recordId : RecordId
  encryptionKey : EncryptionKey
deriving DecidableEq

namespace ClaimId

def encode (claim : ClaimId) : String :=
  String.ofList (Base64.encode Base64.urlSafe (claim.recordId.bytes ++ claim.encryptionKey.bytes))

/-- Split 48 decoded bytes into the two fields. -/
def ofBytes (bytes : Bytes) : Except VaultError ClaimId :=
  if length : bytes.length = claimIdBytes then
    .ok { recordId := ⟨bytes.take recordIdLen, by rw [List.length_take, length]; rfl⟩,
          encryptionKey := ⟨bytes.drop recordIdLen, by rw [List.length_drop, length]; rfl⟩ }
  else .error .invalidClaimId

def decode (text : String) : Except VaultError ClaimId :=
  match Base64.decode Base64.urlSafe text.toList with
  | none => .error .invalidClaimId
  | some bytes => ofBytes bytes

theorem ofBytes_append (claim : ClaimId) :
    ofBytes (claim.recordId.bytes ++ claim.encryptionKey.bytes) = .ok claim := by
  have front := claim.recordId.length_eq
  have back := claim.encryptionKey.length_eq
  have length : (claim.recordId.bytes ++ claim.encryptionKey.bytes).length = claimIdBytes := by
    rw [List.length_append, front, back]
    rfl
  have taken : (claim.recordId.bytes ++ claim.encryptionKey.bytes).take recordIdLen =
      claim.recordId.bytes := List.take_left' front
  have dropped : (claim.recordId.bytes ++ claim.encryptionKey.bytes).drop recordIdLen =
      claim.encryptionKey.bytes := List.drop_left' front
  simp only [ofBytes, dif_pos length, taken, dropped]

theorem append_of_ofBytes {bytes : Bytes} {claim : ClaimId} (made : ofBytes bytes = .ok claim) :
    claim.recordId.bytes ++ claim.encryptionKey.bytes = bytes := by
  unfold ofBytes at made
  split at made
  · cases made
    exact List.take_append_drop ..
  · contradiction

@[simp] theorem decode_encode (claim : ClaimId) : decode claim.encode = .ok claim := by
  simp only [decode, encode, String.toList_ofList, Base64.decode_encode]
  exact ofBytes_append claim

theorem encode_of_decode {text : String} {claim : ClaimId} (decoded : decode text = .ok claim) :
    claim.encode = text := by
  unfold decode at decoded
  split at decoded
  · contradiction
  · rename_i bytes read
    rw [encode, append_of_ofBytes decoded, Base64.encode_decode _ read, String.ofList_toList]

/-- `A-Z`, `a-z`, `0-9`, `-` and `_`. -/
def TokenChar (c : Char) : Prop :=
  ('A' ≤ c ∧ c ≤ 'Z') ∨ ('a' ≤ c ∧ c ≤ 'z') ∨ ('0' ≤ c ∧ c ≤ '9') ∨ c = '-' ∨ c = '_'

instance : DecidablePred TokenChar := fun c => inferInstanceAs (Decidable
  (('A' ≤ c ∧ c ≤ 'Z') ∨ ('a' ≤ c ∧ c ≤ 'z') ∨ ('0' ≤ c ∧ c ≤ '9') ∨ c = '-' ∨ c = '_'))

/-- The pattern of the interface description. -/
def Token (text : String) : Prop := text.toList.length = 64 ∧ ∀ c ∈ text.toList, TokenChar c

theorem tokenChar_of_mem : ∀ c ∈ Base64.urlSafe.symbols, TokenChar c := by
  have all : Base64.urlSafe.symbols.all (fun c => decide (TokenChar c)) = true := rfl
  exact fun c member => of_decide_eq_true (List.all_eq_true.mp all c member)

theorem mem_of_tokenChar {c : Char} (token : TokenChar c) : c ∈ Base64.urlSafe.symbols := by
  have below : c.toNat < 128 := by
    have bounded {last : Char} (le : c ≤ last) (ascii : last.toNat < 128) : c.toNat < 128 :=
      (UInt32.le_iff_toNat_le.mp le).trans_lt ascii
    rcases token with ⟨_, le⟩ | ⟨_, le⟩ | ⟨_, le⟩ | rfl | rfl
    · exact bounded le (by decide)
    · exact bounded le (by decide)
    · exact bounded le (by decide)
    · decide
    · decide
  have listed : ∀ code < 128, TokenChar (Char.ofNat code) → Char.ofNat code ∈ Base64.urlSafe.symbols := by
    decide +kernel
  have found := listed c.toNat below
  rw [Char.ofNat_toNat] at found
  exact found token

theorem token_encode (claim : ClaimId) : Token claim.encode := by
  have front := claim.recordId.length_eq
  have back := claim.encryptionKey.length_eq
  constructor
  · rw [encode, String.toList_ofList, Base64.length_encode, List.length_append, front, back]
  · intro c member
    rw [encode, String.toList_ofList] at member
    exact tokenChar_of_mem c (Base64.mem_symbols_of_mem_encode _ member)

theorem decode_token {text : String} (token : Token text) : ∃ claim, decode text = .ok claim := by
  obtain ⟨length, chars⟩ := token
  have decodes : (Base64.decode Base64.urlSafe text.toList).isSome :=
    Base64.isSome_decode _ (by rw [length]) fun c member => mem_of_tokenChar (chars c member)
  obtain ⟨bytes, read⟩ := Option.isSome_iff_exists.mp decodes
  have whole : bytes.length = claimIdBytes := by
    have encoded := congrArg List.length (Base64.encode_decode _ read)
    rw [Base64.length_encode, length] at encoded
    rw [claimIdBytes, recordIdLen, encryptionKeyLen]
    omega
  simp [decode, read, ofBytes, whole]

theorem token_of_decode {text : String} (accepted : ∃ claim, decode text = .ok claim) : Token text := by
  obtain ⟨claim, decoded⟩ := accepted
  rw [← encode_of_decode decoded]
  exact token_encode claim

theorem decode_eq_error {text : String} {error : VaultError} (refused : decode text = .error error) :
    error = .invalidClaimId := by
  unfold decode at refused
  split at refused
  · cases refused
    rfl
  · unfold ofBytes at refused
    split at refused
    · contradiction
    · cases refused
      rfl

/-- Decoding accepts exactly the tokens, and is inverse to encoding on them. -/
theorem decode_bijective :
    (∀ text, (∃ claim, decode text = .ok claim) ↔ Token text) ∧
      (∀ text, ¬ Token text → decode text = .error .invalidClaimId) ∧
      (∀ claim : ClaimId, decode claim.encode = .ok claim) ∧
      (∀ text claim, decode text = .ok claim → claim.encode = text) ∧
      ∀ text other claim, decode text = .ok claim → decode other = .ok claim → text = other := by
  refine ⟨fun text => ⟨token_of_decode, decode_token⟩, fun text foreign => ?_, decode_encode,
    fun text claim => encode_of_decode, fun text other claim decoded decoded' => ?_⟩
  · cases outcome : decode text with
    | ok claim => exact absurd (token_of_decode ⟨claim, outcome⟩) foreign
    | error error => rw [decode_eq_error outcome]
  · exact (encode_of_decode decoded).symm.trans (encode_of_decode decoded')

end ClaimId

end TariVault
