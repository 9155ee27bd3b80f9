import TariVault.Data.Base64
import TariVault.Data.JsonPretty
import TariVault.Data.Mirror
import TariVault.Data.Rfc3339
import TariVault.Data.Uuid
import TariVault.Domain.Record

namespace TariVault

/-! # The disk format

A JSON object keyed by hyphenated UUID strings. Every value below the top level is
an object whose values are strings or `null`. The JSON text itself and the texts
of timestamps are read and written by libraries.
-/

abbrev DiskState := Std.ExtTreeMap String StoredRecord

/-- An object of the file, as its fields in order. `none` is `null`. -/
abbrev Fields := List (String × Option String)

abbrev Document := List (String × Fields)

/-- The libraries: `serde_json` on documents, and chrono's serde form of a
timestamp. -/
structure Serde where
  toVecPretty : Document → Except String Bytes
  fromSlice : Bytes → Except String Document
  serializeTime : DateTime → String
  deserializeTime : String → Except String DateTime

/-- Both libraries read back what they write. -/
structure Serde.ReadsBack (serde : Serde) : Prop where
  document : ∀ document, ∃ bytes, serde.toVecPretty document = .ok bytes ∧
    serde.fromSlice bytes = .ok document
  time : ∀ time, serde.deserializeTime (serde.serializeTime time) = .ok time

/-- The libraries on the documents and timestamps of a vault file. -/
def Serde.concrete : Serde where
  toVecPretty document := .ok (Json.toBytes (Json.print document))
  fromSlice bytes :=
    match (Json.ofBytes? bytes).bind Json.read with
    | some document => .ok document
    | none => .error "expected value"
  serializeTime := Rfc3339.text ['Z']
  deserializeTime text :=
    match Rfc3339.ofText? text with
    | some time => .ok time
    | none => .error "input contains invalid characters"

theorem Serde.concrete_readsBack : Serde.concrete.ReadsBack where
  document document := by
    refine ⟨_, rfl, ?_⟩
    simp only [Serde.concrete, Json.ofBytes?_toBytes, Option.bind_some, Json.read_print]
  time time := by
    simp only [Serde.concrete, Rfc3339.ofText?_text (.inl rfl)]

variable (serde : Serde)

namespace Base64Field

def serialize (bytes : Bytes) : Option String :=
  some (String.ofList (Base64.encodePadded Base64.standard bytes))

def deserialize : Option String → Except String Bytes
  | none => .error "invalid type: null, expected a string"
  | some text =>
      match Base64.decodePadded Base64.standard text.toList with
      | some bytes => .ok bytes
      | none => .error "invalid base64"

@[simp] theorem deserialize_serialize (bytes : Bytes) : deserialize (serialize bytes) = .ok bytes := by
  simp only [deserialize, serialize, String.toList_ofList]
  rw [Base64.decodePadded_encodePadded _ Base64.pad_not_mem_standard]

end Base64Field

namespace StoredRecord

/-- The derived `Serialize`, with the payload's fields flattened into the record. -/
def serialize (record : StoredRecord) : Fields :=
  [("nonce", Base64Field.serialize record.encrypted.nonce),
    ("ciphertext", Base64Field.serialize record.encrypted.ciphertext),
    ("stored_at", some (serde.serializeTime record.storedAt)),
    ("expires_at", record.expiresAt.map serde.serializeTime)]

end StoredRecord

namespace Fields

def lookup? (fields : Fields) (name : String) : Except String (Option (Option String)) :=
  match fields.filter (·.1 = name) with
  | [] => .ok none
  | [field] => .ok (some field.2)
  | _ => .error ("duplicate field `" ++ name ++ "`")

def lookup (fields : Fields) (name : String) : Except String (Option String) := do
  match ← fields.lookup? name with
  | some value => return value
  | none => throw ("missing field `" ++ name ++ "`")

end Fields

namespace StoredRecord

def deserializeTime (serde : Serde) : Option String → Except String DateTime
  | none => .error "invalid type: null, expected an RFC 3339 formatted date and time string"
  | some text => serde.deserializeTime text

/-- The derived `Deserialize`. Unknown fields are ignored, and an absent
`expires_at` reads like `null`. -/
def deserialize (fields : Fields) : Except String StoredRecord := do
  let storedAt ← deserializeTime serde (← fields.lookup "stored_at")
  let expiresAt ← match ← fields.lookup? "expires_at" with
    | some (some text) => some <$> serde.deserializeTime text
    | _ => pure none
  let nonce ← Base64Field.deserialize (← fields.lookup "nonce")
  let ciphertext ← Base64Field.deserialize (← fields.lookup "ciphertext")
  return { encrypted := { nonce, ciphertext }, storedAt, expiresAt }

variable {serde}

theorem deserialize_serialize (readsBack : serde.ReadsBack) (record : StoredRecord) :
    deserialize serde (record.serialize serde) = .ok record := by
  obtain ⟨⟨nonce, ciphertext⟩, storedAt, expiresAt⟩ := record
  cases expiresAt with
  | none =>
      simp [deserialize, serialize, Fields.lookup, Fields.lookup?, deserializeTime, readsBack.time,
        bind, Except.bind, pure, Except.pure]
  | some expiry =>
      simp [deserialize, serialize, Fields.lookup, Fields.lookup?, deserializeTime, readsBack.time,
        bind, Except.bind, pure, Except.pure, Functor.map, Except.map]

end StoredRecord

namespace DiskState

def toDocument (state : DiskState) : Document :=
  state.toList.map fun entry => (entry.1, entry.2.serialize serde)

/-- A later entry of the same key replaces an earlier one. -/
def ofDocument (document : Document) : Except String DiskState := do
  let entries ← document.mapM fun entry => do
    return (entry.1, ← StoredRecord.deserialize serde entry.2)
  return Std.ExtTreeMap.ofList entries

def toVecPretty (state : DiskState) : Except String Bytes := serde.toVecPretty (state.toDocument serde)

def fromSlice (bytes : Bytes) : Except String DiskState := do
  ofDocument serde (← serde.fromSlice bytes)

variable {serde}

theorem ofList_toList (state : DiskState) : Std.ExtTreeMap.ofList state.toList = state := by
  refine Std.ExtTreeMap.ext_getElem? fun key => ?_
  cases found : state[key]? with
  | some record =>
      exact Std.ExtTreeMap.getElem?_ofList_of_mem Std.ReflCmp.compare_self
        Std.ExtTreeMap.distinct_keys_toList
        (Std.ExtTreeMap.mem_toList_iff_getElem?_eq_some.mpr found)
  | none =>
      refine Std.ExtTreeMap.getElem?_ofList_of_contains_eq_false ?_
      rw [Std.ExtTreeMap.map_fst_toList_eq_keys]
      have absent : key ∉ state := by
        rw [Std.ExtTreeMap.mem_iff_isSome_getElem?, found]
        simp
      simpa using absent

theorem ofDocument_toDocument (readsBack : serde.ReadsBack) (state : DiskState) :
    ofDocument serde (state.toDocument serde) = .ok state := by
  have entries : (state.toDocument serde).mapM (fun entry => do
      return (entry.1, ← StoredRecord.deserialize serde entry.2)) = Except.ok state.toList := by
    unfold toDocument
    induction state.toList with
    | nil => rfl
    | cons entry rest ih =>
        rw [List.map_cons, List.mapM_cons, ih, StoredRecord.deserialize_serialize readsBack]
        rfl
  rw [ofDocument, entries]
  exact congrArg Except.ok (ofList_toList state)

theorem readsBack (readsBack : serde.ReadsBack) (state : DiskState) :
    ∃ bytes, state.toVecPretty serde = .ok bytes ∧ fromSlice serde bytes = .ok state := by
  obtain ⟨bytes, written, read⟩ := readsBack.document (state.toDocument serde)
  refine ⟨bytes, written, ?_⟩
  rw [fromSlice, read]
  exact ofDocument_toDocument readsBack state

theorem fromSlice_of_toVecPretty (readsBack : serde.ReadsBack) {state : DiskState} {bytes : Bytes}
    (written : state.toVecPretty serde = .ok bytes) : fromSlice serde bytes = .ok state := by
  obtain ⟨bytes', written', read⟩ := DiskState.readsBack readsBack state
  rw [written, Except.ok.injEq] at written'
  rwa [written']

theorem fromSlice_concrete_empty :
    fromSlice .concrete (Json.toBytes (Json.print [])) = .ok (∅ : DiskState) :=
  fromSlice_of_toVecPretty Serde.concrete_readsBack rfl

end DiskState

end TariVault
