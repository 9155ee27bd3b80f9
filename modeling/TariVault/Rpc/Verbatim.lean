import TariVault.Rpc.Consumption

namespace TariVault

open Program Session Json SerdeJson

/-! # What comes back over RPC

A document becomes a value, its text, and a value again. Texts, structure and the
integers of 64 bits survive; an integer beyond them is a float twice, and an object
that begins with the reserved key is read for another value.
-/

variable {json : SerdeJson} {document : Json.Document}

/-- The literal is read, written and read again, and written as what it was. -/
def Returns (json : SerdeJson) (literal : Numeral) : Prop :=
  ∃ first second, json.readNumber literal = some first ∧
    json.readNumber (json.printNumber first) = some second ∧ (json.printNumber second).value = literal.value

theorem returns_of_fits {literal : Numeral} (fits : Fits literal) : Returns json literal := by
  obtain ⟨number, read, printed⟩ := @readNumber_fits json literal fits
  exact ⟨number, number, read, by rw [printed, read], by rw [printed]⟩

theorem prints_of_returns {literal : Numeral} (integer : IsInteger literal) (large : ¬ Fits literal)
    (returns : Returns json literal) : json.Prints literal.value := by
  obtain ⟨negative, magnitude, rfl, read⟩ := @readNumber_float json literal integer large
  obtain ⟨first, second, readFirst, readSecond, same⟩ := returns
  rw [read] at readFirst
  obtain ⟨float, _, rfl⟩ := Option.map_eq_some_iff.mp readFirst
  obtain ⟨float', _, rfl⟩ := Option.map_eq_some_iff.mp readSecond
  exact ⟨float', same⟩

theorem returns_of_rereads {literal : Numeral} (rereads : json.Rereads literal.value) : Returns json literal := by
  obtain ⟨first, readFirst, printed⟩ := rereads literal rfl
  obtain ⟨second, readSecond, same⟩ := rereads (json.printNumber first) printed
  exact ⟨first, second, readFirst, readSecond, same⟩

/-- The number of a literal, where it has one. -/
def numberOf (json : SerdeJson) (literal : Numeral) : Number json := (json.readNumber literal).getD (.posInt 0)

theorem readNumber_eq {literal : Numeral} (reads : (json.readNumber literal).isSome) :
    json.readNumber literal = some (numberOf json literal) := by
  obtain ⟨number, read⟩ := Option.isSome_iff_exists.mp reads
  rw [numberOf, read, Option.getD_some]

theorem returns_iff_numberOf {literal : Numeral} (reads : (json.readNumber literal).isSome)
    (again : (json.readNumber (json.printNumber (numberOf json literal))).isSome) :
    Returns json literal ↔ (json.printNumber (numberOf json
      (json.printNumber (numberOf json literal)))).value = literal.value := by
  have first := readNumber_eq reads
  have second := readNumber_eq again
  constructor
  · intro holds
    obtain ⟨number, number', read, read', same⟩ := holds
    cases first.symm.trans read
    cases second.symm.trans read'
    exact same
  · exact fun same => ⟨_, _, first, second, same⟩

/-- Neither as written nor sorted by key does an object begin with the reserved key. -/
def Unreserved (document : Json.Document) : Prop := document.Plain ∧ document.normal.Plain

section Returned

variable {value again : JsonValue json}

theorem JsonValue.document_eq (plain : document.Plain) (read : JsonValue.ofDocument document = some value) :
    value.document = document.normal.map fun literal => json.printNumber (numberOf json literal) := by
  obtain ⟨value', read', tree⟩ := JsonValue.ofDocument_eq plain fun literal member =>
    readNumber_eq (JsonValue.reads_of_ofDocument plain read literal member)
  cases read.symm.trans read'
  rw [JsonValue.document, tree, Tree.map_map]

theorem JsonValue.depth_le (plain : document.Plain) (read : JsonValue.ofDocument document = some value) :
    value.tree.depth ≤ document.depth := by
  rw [← Tree.depth_map json.printNumber, ← JsonValue.document, JsonValue.document_eq plain read, Tree.depth_map]
  exact document.depth_normal

theorem JsonValue.meaning_document (value : JsonValue json) :
    meaning value.document = value.document.map Numeral.value := by
  have sorted : value.document.Sorted := value.sorted.map
  rw [meaning, Tree.normal_of_sorted sorted.map]

/-- What a value says after it was written and read again. -/
theorem meaning_again (plain : document.Plain) (read : JsonValue.ofDocument document = some value)
    (plainAgain : value.document.Plain) (readAgain : JsonValue.ofDocument value.document = some again) :
    meaning again.document = document.normal.map fun literal =>
      (json.printNumber (numberOf json (json.printNumber (numberOf json literal)))).value := by
  have sorted : value.document.Sorted := value.sorted.map
  rw [JsonValue.meaning_document, JsonValue.document_eq plainAgain readAgain, Tree.normal_of_sorted sorted,
    JsonValue.document_eq plain read, Tree.map_map, Tree.map_map]

/-- A raw value that is read leaves less than what was written, so a document that
comes back had none. -/
theorem unreserved_of_meaning (read : JsonValue.ofDocument document = some value) (distinct : document.DistinctKeys)
    (readAgain : JsonValue.ofDocument value.document = some again)
    (same : meaning again.document = meaning document) : Unreserved document := by
  have widths : again.tree.width = document.width := by
    have whole := congrArg Tree.width same
    rwa [JsonValue.meaning_document, Tree.width_map, JsonValue.document, Tree.width_map, meaning,
      Tree.normal_map, Tree.width_map, Tree.width_normal distinct] at whole
  have written : value.document.width = value.tree.width := Tree.width_map _ _
  obtain ⟨narrower, plain⟩ := JsonValue.width_ofDocument read
  obtain ⟨narrowerAgain, plainAgain⟩ := JsonValue.width_ofDocument readAgain
  have first : document.Plain := plain (by omega)
  have second := plainAgain (by omega)
  rw [JsonValue.document_eq first read, Tree.plain_map] at second
  exact ⟨first, second⟩

/-- A document comes back with its meaning if and only if it has no raw values and all
its literals come back. -/
theorem returned_iff (read : JsonValue.ofDocument document = some value) (distinct : document.DistinctKeys)
    (shallow : document.depth < recursionLimit) :
    (∃ again, JsonValue.fromSlice json value.toVec = .ok again ∧ meaning again.document = meaning document) ↔
      Unreserved document ∧ ∀ literal ∈ document.numbers, Returns json literal := by
  have member_iff {literal : Numeral} : literal ∈ document.normal.numbers ↔ literal ∈ document.numbers :=
    Tree.mem_numbers_normal distinct
  have meant : meaning document = document.normal.map Numeral.value := Tree.normal_map _ _
  have written (plain : document.Plain) : value.document.numbers =
      document.normal.numbers.map fun literal => json.printNumber (numberOf json literal) := by
    rw [JsonValue.document_eq plain read, Tree.numbers_map]
  constructor
  · intro holds
    obtain ⟨again, returned, same⟩ := holds
    obtain ⟨_, readAgain⟩ := JsonValue.fromSlice_toVec.mp returned
    have unreserved := unreserved_of_meaning read distinct readAgain same
    obtain ⟨plain, plainSorted⟩ := unreserved
    have plainAgain : value.document.Plain := by
      rwa [JsonValue.document_eq plain read, Tree.plain_map]
    refine ⟨⟨plain, plainSorted⟩, fun literal member => ?_⟩
    rw [meaning_again plain read plainAgain readAgain, meant, Tree.map_eq_map_iff] at same
    have reads := JsonValue.reads_of_ofDocument plain read
    have readsAgain := JsonValue.reads_of_ofDocument plainAgain readAgain
    rw [written plain, List.forall_mem_map] at readsAgain
    have here := member_iff.mpr member
    exact (returns_iff_numberOf (reads literal member) (readsAgain literal here)).mpr (same literal here)
  · intro holds
    obtain ⟨⟨plain, plainSorted⟩, returns⟩ := holds
    have reads := JsonValue.reads_of_ofDocument plain read
    have readsAgain : ∀ literal ∈ document.normal.numbers,
        (json.readNumber (json.printNumber (numberOf json literal))).isSome := fun literal here => by
      obtain ⟨first, second, readFirst, readSecond, _⟩ := returns literal (member_iff.mp here)
      cases (readNumber_eq (reads literal (member_iff.mp here))).symm.trans readFirst
      exact Option.isSome_of_eq_some readSecond
    have plainAgain : value.document.Plain := by
      rwa [JsonValue.document_eq plain read, Tree.plain_map]
    have readable : ∀ literal ∈ value.document.numbers, (json.readNumber literal).isSome :=
      written plain ▸ List.forall_mem_map.mpr readsAgain
    obtain ⟨again, readAgain, _⟩ := JsonValue.ofDocument_eq plainAgain fun literal member =>
      readNumber_eq (readable literal member)
    refine ⟨again, JsonValue.fromSlice_toVec.mpr ⟨(JsonValue.depth_le plain read).trans_lt shallow, readAgain⟩, ?_⟩
    rw [meaning_again plain read plainAgain readAgain, meant, Tree.map_eq_map_iff]
    intro literal here
    have member := member_iff.mp here
    exact (returns_iff_numberOf (reads literal member) (readsAgain literal here)).mp (returns literal member)

end Returned

variable {aead : Aead} {supply : Supply} {maxProofSizeBytes : UInt64}
  {before stored session : Session Contents} {claimIdStr : String}

/-- The retrieval returns what the document says. -/
def Verbatim (json : SerdeJson) (aead : Aead) (supply : Supply) (maxProofSizeBytes : UInt64)
    (session : Session Contents) (claimIdStr : String) (document : Json.Document) : Prop :=
  ∃ object after, Contents.exec supply session
      ((rpcServer aead maxProofSizeBytes).retrieveProof json claimIdStr).run = (some (.ok object), after) ∧
    meaning object.proofJson.document = meaning document

/-- A document comes back verbatim if and only if it has no raw values and all its
literals come back. -/
theorem verbatim_iff_returns (opens : aead.Opens) {enclosing : Nat} {text : List Char}
    (read : readDocument (recursionLimit - enclosing) text = some document)
    (distinct : document.DistinctKeys)
    {params : StoreProofParams json} (received : JsonValue.receive enclosing text = some params.proofJson)
    (answered : Contents.exec supply before ((rpcServer aead maxProofSizeBytes).storeProof params).run =
      (some (.ok claimIdStr), stored))
    {claimId : ClaimId} (decoded : ClaimId.decode claimIdStr = .ok claimId) {record : StoredRecord}
    (inserted : stored.storage[claimId.recordId]? = some record)
    (present : session.storage[claimId.recordId]? = some record)
    (live : ¬ record.ExpiredAt (supply.now session.taken)) :
    Verbatim json aead supply maxProofSizeBytes session claimIdStr document ↔
      Unreserved document ∧ ∀ literal ∈ document.numbers, Returns json literal := by
  have made : JsonValue.ofDocument document = some params.proofJson := by
    rw [JsonValue.receive, read, Option.bind_some] at received
    exact received
  rw [← returned_iff made distinct
    (depth_of_readDocument (by decide) (readDocument_mono (Nat.sub_le _ enclosing) read))]
  obtain ⟨after, _, retrieved⟩ :=
    rpc_retrieves opens (.rpc answered) decoded inserted present live
  rw [PlaintextProof.intoJson] at retrieved
  cases again : JsonValue.fromSlice json params.proofJson.toVec with
  | error message =>
      rw [again] at retrieved
      constructor
      · intro verbatim
        obtain ⟨object, other, returned, _⟩ := verbatim
        cases returned.symm.trans retrieved
      · intro found
        obtain ⟨other, impossible, _⟩ := found
        cases impossible
  | ok value =>
      rw [again] at retrieved
      constructor
      · intro holds
        obtain ⟨object, other, returned, same⟩ := holds
        cases returned.symm.trans retrieved
        exact ⟨value, rfl, same⟩
      · intro holds
        obtain ⟨other, same, meant⟩ := holds
        cases same
        exact ⟨_, after, retrieved, meant⟩

/-- Integers beyond 64 bits that the library writes for a float are read as that
integer again. -/
def RoundTrips (json : SerdeJson) (document : Json.Document) : Prop :=
  ∀ literal ∈ document.numbers, ¬ Fits literal → json.Prints literal.value → json.Rereads literal.value

theorem value_stored (value : JsonValue .decimal) (small : value.toString.utf8ByteSize ≤ 1024) :
    Contents.exec .still ⟨∅, 0, []⟩ ((rpcServer .keyed 1024).storeProof ⟨value, none⟩).run =
      (some (.ok textClaim.encode), textStored value.toString) := by
  have checked : (rpcServer .keyed 1024).checkSize value = .ok () := if_neg (not_lt_of_ge small)
  rw [VaultRpcImpl.storeProof, checked]
  rfl

def bigDocument : Json.Document := .number (.integer false 18446744073709551616)

def bigValue : JsonValue .decimal := ⟨.number (.float (SerdeJson.scientific false 18446744073709551616)), trivial⟩

/-- Two small integers, and one that the library writes for a float. -/
def pathDocument : Json.Document :=
  .object (.member "path" (.array (.item (.number (.integer false 7)) (.item (.number (.integer true 3))
    (.item (.number (.integer false 18446744073709552000)) .noItems)))) .noMembers)

def pathValue : JsonValue .decimal where
  tree := .object (.member "path" (.array (.item (.number (.posInt 7)) (.item (.number (.negInt (-3)))
    (.item (.number (.float (SerdeJson.scientific false 18446744073709552000))) .noItems)))) .noMembers)
  sorted := by simp [Tree.Sorted, Tree.keys]

theorem rereads_total : SerdeJson.decimal.Rereads 18446744073709552000 := by
  have written : (SerdeJson.scientific false 18446744073709552000).value = 18446744073709552000 := by
    decide +kernel
  intro literal same
  cases literal with
  | integer negative magnitude =>
      cases negative with
      | false =>
          have exact : magnitude = 18446744073709552000 := Nat.cast_injective same
          subst exact
          exact ⟨_, rfl, written⟩
      | true =>
          have negative : -(magnitude : ℚ) ≤ 0 := neg_nonpos.mpr (Nat.cast_nonneg magnitude)
          rw [show -(magnitude : ℚ) = 18446744073709552000 from same] at negative
          exact absurd negative (by decide +kernel)
  | fractional literal => exact ⟨.float literal, rfl, same⟩

end TariVault
