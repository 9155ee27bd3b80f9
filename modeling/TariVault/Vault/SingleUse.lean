import TariVault.Vault.Concurrent

namespace TariVault

open Program VaultEvent TariVault.System

/-! # Single use

A retrieval deletes its record and drops the answer of the delete. So a retrieval
whose record was removed between its fetch and its delete releases the plaintext
all the same. As long as no retrieval deletes what is already gone, a record is
released at most once, and never after a cancellation.
-/

variable {aead : Aead} {clock : DateTime} {labels : List (Label (vaultSystem aead))}
  {config last : Config (vaultSystem aead)} {label : Label (vaultSystem aead)}
  {recordId : RecordId}

/-- A retrieval that passed its expiry check performs its delete only while the
record is still stored. -/
def FindsRecord (config : Config (vaultSystem aead)) (label : Label (vaultSystem aead)) : Prop :=
  ∀ tid recordId removed thread, label = .act tid (deleted recordId (.ok removed)) →
    config.threads tid = some thread → thread.call.Retrieves recordId →
    ¬ SawExpiry thread.past recordId → recordId ∈ config.shared.records

theorem findsRecord_of_harmless (config : Config (vaultSystem aead))
    (label : Label (vaultSystem aead)) (harmless : Harmless label) : FindsRecord config label :=
  fun tid recordId removed _ same => absurd same (harmless.keeps tid recordId (.ok removed))

theorem findsRecord_of_stored {tid : Nat} {result : Except StorageError Bool}
    (stored : recordId ∈ config.shared.records) :
    FindsRecord config (.act tid (deleted recordId result)) := by
  intro _ _ _ _ same _ _ _
  injection same with _ sameEvent
  injection sameEvent with sameOp
  injection sameOp with sameStorage
  injection sameStorage with sameId
  exact sameId ▸ stored

/-- Under the condition, a retrieval's delete that finds nothing follows an expired
check. -/
theorem sawExpiry_of_absent (run : RunWhere FindsRecord (vaultStart aead clock) labels config)
    {tid : Nat} {thread : Thread (vaultSystem aead)} (found : config.threads tid = some thread)
    (retrieves : thread.call.Retrieves recordId)
    (absent : thread.Did (deleted recordId (.ok false))) : SawExpiry thread.past recordId := by
  induction run generalizing thread with
  | refl => cases found
  | @snoc labels config label last run allowed step ih =>
      obtain ⟨before, foundBefore, sameCall, old | ⟨rfl, performed, _⟩⟩ := step.did found absent
      · rw [← sameCall] at retrieves
        exact (ih foundBefore retrieves old).mono (step.past_subset foundBefore found)
      · rw [← sameCall] at retrieves
        by_contra unseen
        have live : ¬ SawExpiry before.past recordId := fun saw =>
          unseen (saw.mono (step.past_subset foundBefore found))
        have stored := allowed tid recordId false before rfl foundBefore retrieves live
        rw [Std.ExtTreeMap.mem_iff_contains] at stored
        rcases VaultAct.deleted_inv performed with ⟨answered, _⟩ | ⟨⟨error, impossible⟩, _⟩
        · simp [stored] at answered
        · contradiction

/-- Under the condition, a retrieval that succeeds removed its record itself. -/
theorem removed_of_retrieve_ok
    (run : RunWhere FindsRecord (vaultStart aead clock) labels config) {tid : Nat}
    {thread : Thread (vaultSystem aead)} (found : config.threads tid = some thread)
    (retrieves : thread.call.Retrieves recordId) {reply : Reply}
    (returned : thread.Returned (.ok reply)) : thread.Did (deleted recordId (.ok true)) := by
  have leads := followed run tid thread found
  obtain ⟨claimIdStr, claimId, called, decoded, rfl⟩ := id retrieves
  rw [called, returned] at leads
  obtain ⟨unseen, record, nonce, plaintext, removed, _, did, _⟩ := retrieve_returned decoded leads
  cases removed with
  | true => exact did
  | false => exact absurd (sawExpiry_of_absent run found retrieves did) unseen

section Schedules

variable {proof : PlaintextProof} {key : EncryptionKey} {nonce : Nonce} {ciphertext : Bytes}

/-- A second retrieval begins before the first one deletes, but fetches after it. -/
theorem retrievals_in_order (opens : aead.Opens)
    (encrypted : aead.encrypt key nonce proof.data = some ciphertext) (recordId : RecordId)
    (clock : DateTime) :
    ∃ labels, ∃ config : Config (vaultSystem aead), ∃ first second,
      RunWhere FindsRecord (vaultStart aead clock) labels config ∧ config.threads 1 = some first ∧
      config.threads 2 = some second ∧ first.call = .retrieveProof (ClaimId.encode ⟨recordId, key⟩) ∧
      first.Returned (.ok (.proof proof)) ∧ second.call = .retrieveProof (ClaimId.encode ⟨recordId, key⟩) ∧
      second.Returned (.error .proofNotFound) := by
  obtain ⟨_, storing, stored, _⟩ :=
    store_alone (.refl (vaultStart aead clock)) 0 recordId rfl encrypted List.not_mem_nil
      (List.mem_singleton_self clock) findsRecord_of_harmless
  obtain ⟨next, line, opening, releases⟩ := retrieve_completes
    ⟨⟨nonce.bytes, ciphertext⟩, clock, none⟩ (ClaimId.decode_encode ⟨recordId, key⟩) (.never rfl) rfl
    (opens key nonce proof.data ciphertext encrypted)
  have begun := lookup_begins stored 1 rfl opening Contents.getElem?_insert_self
    (List.mem_singleton_self clock) findsRecord_of_harmless
  have both := call_begins begun 2 (.retrieveProof (ClaimId.encode ⟨recordId, key⟩)) rfl findsRecord_of_harmless
  obtain ⟨_, first, firstEnded, firstCall, firstReturned⟩ := deletion_ends both 1 rfl
    (releases _) (List.mem_singleton_self clock) findsRecord_of_harmless
    (findsRecord_of_stored Std.ExtTreeMap.mem_insert_self)
  obtain ⟨_, second, ended, secondCall, secondReturned, _⟩ := lookup_misses firstEnded 2 rfl
    (missing_completes (ClaimId.decode_encode ⟨recordId, key⟩)) Contents.getElem?_erase_self
    (List.mem_singleton_self clock) findsRecord_of_harmless
  exact ⟨_, _, first, second, ended, rfl, rfl, firstCall, firstReturned, secondCall, secondReturned⟩

/-- A retrieval begins before a cancellation deletes, but fetches after it, while a
retrieval of another record goes on between them. -/
theorem cancellation_in_order (opens : aead.Opens)
    (encrypted : aead.encrypt key nonce proof.data = some ciphertext) {recordId other : RecordId}
    (different : recordId ≠ other) (clock : DateTime) :
    ∃ labels, ∃ config : Config (vaultSystem aead), ∃ cancelling releasing retrieving,
      RunWhere FindsRecord (vaultStart aead clock) labels config ∧
      config.threads 2 = some cancelling ∧ config.threads 3 = some releasing ∧ config.threads 4 = some retrieving ∧
      cancelling.call = .deleteProof (ClaimId.encode ⟨recordId, key⟩) ∧
      cancelling.Returned (.ok .deleted) ∧
      releasing.call = .retrieveProof (ClaimId.encode ⟨other, key⟩) ∧
      releasing.Returned (.ok (.proof proof)) ∧
      retrieving.call = .retrieveProof (ClaimId.encode ⟨recordId, key⟩) ∧
      retrieving.Returned (.error .proofNotFound) := by
  have shown : clock ∈ (VaultState.initial clock).readings := List.mem_singleton_self clock
  obtain ⟨_, _, stored, _⟩ :=
    store_alone (.refl (vaultStart aead clock)) 0 recordId rfl encrypted List.not_mem_nil shown
      findsRecord_of_harmless
  obtain ⟨_, _, storedBoth, _⟩ := store_alone stored 1 other rfl encrypted
    (List.not_mem_cons_of_ne_of_not_mem different.symm List.not_mem_nil) shown findsRecord_of_harmless
  let record : StoredRecord := ⟨⟨nonce.bytes, ciphertext⟩, clock, none⟩
  let both : Contents := ((∅ : Contents).insert recordId record).insert other record
  have here : both[recordId]? = some record :=
    (Contents.getElem?_insert_ne different).trans Contents.getElem?_insert_self
  obtain ⟨next, line, deleting, cancels⟩ := delete_completes record
    (ClaimId.decode_encode ⟨recordId, key⟩) (.never rfl)
  obtain ⟨next', line', opening, releases⟩ := retrieve_completes record
    (ClaimId.decode_encode ⟨other, key⟩) (.never rfl) rfl (opens key nonce proof.data ciphertext encrypted)
  have oneFetched := lookup_begins storedBoth 2 rfl deleting here shown findsRecord_of_harmless
  have bothFetched := lookup_begins oneFetched 3 rfl opening Contents.getElem?_insert_self shown
    findsRecord_of_harmless
  have begun := call_begins bothFetched 4 (.retrieveProof (ClaimId.encode ⟨recordId, key⟩)) rfl
    findsRecord_of_harmless
  have present : both.contains recordId = true := by
    rw [Std.ExtTreeMap.contains_eq_isSome_getElem?, here]
    rfl
  obtain ⟨_, cancelling, cancelled, cancelCall, cancelReturned⟩ := deletion_ends begun 2 rfl
    (present ▸ cancels) shown findsRecord_of_harmless
    (findsRecord_of_stored (Std.ExtTreeMap.mem_iff_contains.mpr present))
  have otherStays : other ∈ both.erase recordId := by
    rw [← Std.ExtTreeMap.isSome_getElem?_iff_mem, Contents.getElem?_erase_ne different.symm,
      Contents.getElem?_insert_self]
    rfl
  obtain ⟨_, releasing, released, releaseCall, releaseReturned⟩ := deletion_ends cancelled 3 rfl
    (releases _) shown findsRecord_of_harmless (findsRecord_of_stored otherStays)
  have gone : ((both.erase recordId).erase other)[recordId]? = none :=
    (Contents.getElem?_erase_ne different).trans Contents.getElem?_erase_self
  obtain ⟨_, retrieving, ended, retrieveCall, retrieveReturned, _⟩ := lookup_misses released 4 rfl
    (missing_completes (ClaimId.decode_encode ⟨recordId, key⟩)) gone shown findsRecord_of_harmless
  exact ⟨_, _, cancelling, releasing, retrieving, ended, rfl, rfl, rfl, cancelCall, cancelReturned,
    releaseCall, releaseReturned, retrieveCall, retrieveReturned⟩

/-- Two retrievals that both fetch before either deletes both succeed. -/
theorem overlapping_retrievals (opens : aead.Opens)
    (encrypted : aead.encrypt key nonce proof.data = some ciphertext) (recordId : RecordId)
    (clock : DateTime) :
    ∃ labels, ∃ config : Config (vaultSystem aead), ∃ storing first second,
      Run (vaultStart aead clock) labels config ∧ config.threads 0 = some storing ∧
      config.threads 1 = some first ∧ config.threads 2 = some second ∧
      storing.call = .storeProof proof none ∧
      storing.Returned (.ok (.claimId (ClaimId.encode ⟨recordId, key⟩))) ∧
      first.call = .retrieveProof (ClaimId.encode ⟨recordId, key⟩) ∧
      first.Returned (.ok (.proof proof)) ∧
      second.call = .retrieveProof (ClaimId.encode ⟨recordId, key⟩) ∧
      second.Returned (.ok (.proof proof)) := by
  obtain ⟨_, storing, stored, storeCall, storeReturned, _, _⟩ :=
    store_alone (.refl (vaultStart aead clock)) 0 recordId rfl encrypted List.not_mem_nil
      (List.mem_singleton_self clock) fun _ _ _ => trivial
  obtain ⟨next, line, opening, releases⟩ := retrieve_completes
    ⟨⟨nonce.bytes, ciphertext⟩, clock, none⟩ (ClaimId.decode_encode ⟨recordId, key⟩) (.never rfl) rfl
    (opens key nonce proof.data ciphertext encrypted)
  have oneFetched := lookup_begins stored 1 rfl opening Contents.getElem?_insert_self
    (List.mem_singleton_self clock) fun _ _ _ => trivial
  have bothFetched := lookup_begins oneFetched 2 rfl opening Contents.getElem?_insert_self
    (List.mem_singleton_self clock) fun _ _ _ => trivial
  obtain ⟨_, second, secondEnded, secondCall, secondReturned⟩ := deletion_ends bothFetched 2 rfl
    (releases _) (List.mem_singleton_self clock) (fun _ _ _ => trivial) trivial
  obtain ⟨_, first, bothEnded, firstCall, firstReturned⟩ := deletion_ends secondEnded 1 rfl
    (releases _) (List.mem_singleton_self clock) (fun _ _ _ => trivial) trivial
  exact ⟨_, _, storing, first, second, bothEnded, rfl, rfl, rfl, storeCall, storeReturned,
    firstCall, firstReturned, secondCall, secondReturned⟩

/-- A retrieval that has fetched before a cancellation deletes succeeds after it. -/
theorem retrieval_overlaps_cancellation (opens : aead.Opens)
    (encrypted : aead.encrypt key nonce proof.data = some ciphertext) (recordId : RecordId)
    (clock : DateTime) :
    ∃ labels, ∃ config : Config (vaultSystem aead), ∃ storing retrieving cancelling,
      Run (vaultStart aead clock) labels config ∧ config.threads 0 = some storing ∧
      config.threads 1 = some retrieving ∧ config.threads 2 = some cancelling ∧
      storing.call = .storeProof proof none ∧
      storing.Returned (.ok (.claimId (ClaimId.encode ⟨recordId, key⟩))) ∧
      retrieving.call = .retrieveProof (ClaimId.encode ⟨recordId, key⟩) ∧
      retrieving.Returned (.ok (.proof proof)) ∧
      cancelling.call = .deleteProof (ClaimId.encode ⟨recordId, key⟩) ∧
      cancelling.Returned (.ok .deleted) := by
  obtain ⟨_, storing, stored, storeCall, storeReturned, _, _⟩ :=
    store_alone (.refl (vaultStart aead clock)) 0 recordId rfl encrypted List.not_mem_nil
      (List.mem_singleton_self clock) fun _ _ _ => trivial
  obtain ⟨next, line, opening, releases⟩ := retrieve_completes
    ⟨⟨nonce.bytes, ciphertext⟩, clock, none⟩ (ClaimId.decode_encode ⟨recordId, key⟩) (.never rfl) rfl
    (opens key nonce proof.data ciphertext encrypted)
  obtain ⟨next', line', deleting, cancels⟩ := delete_completes
    ⟨⟨nonce.bytes, ciphertext⟩, clock, none⟩ (ClaimId.decode_encode ⟨recordId, key⟩) (.never rfl)
  have oneFetched := lookup_begins stored 1 rfl opening Contents.getElem?_insert_self
    (List.mem_singleton_self clock) fun _ _ _ => trivial
  have bothFetched := lookup_begins oneFetched 2 rfl deleting Contents.getElem?_insert_self
    (List.mem_singleton_self clock) fun _ _ _ => trivial
  obtain ⟨_, cancelling, cancelled, cancelCall, cancelReturned⟩ := deletion_ends bothFetched 2 rfl
    (by rw [Std.ExtTreeMap.contains_insert_self]; exact cancels)
    (List.mem_singleton_self clock) (fun _ _ _ => trivial) trivial
  obtain ⟨_, retrieving, ended, called, returned⟩ := deletion_ends cancelled 1 rfl
    (releases _) (List.mem_singleton_self clock) (fun _ _ _ => trivial) trivial
  exact ⟨_, _, storing, retrieving, cancelling, ended, rfl, rfl, rfl, storeCall, storeReturned,
    called, returned, cancelCall, cancelReturned⟩

end Schedules

/-- In every run in which no retrieval deletes what is already gone, at most one
retrieval of a record succeeds. -/
theorem released_at_most_once
    (run : RunWhere FindsRecord (vaultStart aead clock) labels config) {tid tid' : Nat}
    {thread thread' : Thread (vaultSystem aead)} (found : config.threads tid = some thread)
    (found' : config.threads tid' = some thread') (retrieves : thread.call.Retrieves recordId)
    (retrieves' : thread'.call.Retrieves recordId) {reply reply' : Reply}
    (returned : thread.Returned (.ok reply)) (returned' : thread'.Returned (.ok reply')) :
    tid = tid' :=
  (coherent run).removedOnce tid tid' thread thread' recordId found found'
    (removed_of_retrieve_ok run found retrieves returned)
    (removed_of_retrieve_ok run found' retrieves' returned')

/-- Two retrievals overlap: the first one releases the record, the second one does not. -/
theorem released_at_most_once_overlapping :
    ∃ labels, ∃ config : Config (vaultSystem .keyed), ∃ first second,
      RunWhere FindsRecord (vaultStart .keyed .epoch) labels config ∧
      config.threads 1 = some first ∧ first.Returned (.ok (.proof ⟨[7]⟩)) ∧
      config.threads 2 = some second ∧ second.call.Retrieves (.replicate 16 0) ∧
      second.Returned (.error .proofNotFound) ∧
      ∀ tid thread reply, config.threads tid = some thread →
        thread.call.Retrieves (.replicate 16 0) → thread.Returned (.ok reply) → 1 = tid := by
  obtain ⟨labels, config, first, second, run, found, found', called, returned, called', returned'⟩ :=
    @retrievals_in_order .keyed ⟨[7]⟩ (.replicate 32 1) (.replicate 12 0) _ Aead.keyed_opens rfl
      (.replicate 16 0) .epoch
  refine ⟨labels, config, first, second, run, found, returned, found', ⟨_, _, called', ClaimId.decode_encode _, rfl⟩,
    returned', fun tid thread reply there retrieves releases => ?_⟩
  exact released_at_most_once run found there
    ⟨_, _, called, ClaimId.decode_encode _, rfl⟩ retrieves returned releases

/-- Two retrievals of one record overlap and both return its plaintext. -/
theorem released_twice :
    Aead.keyed.Opens ∧ ∃ labels, ∃ config : Config (vaultSystem .keyed), ∃ storing first second,
      Run (vaultStart .keyed .epoch) labels config ∧ config.threads 0 = some storing ∧
      config.threads 1 = some first ∧ config.threads 2 = some second ∧
      storing.call = .storeProof ⟨[7]⟩ none ∧
      storing.Returned (.ok (.claimId (ClaimId.encode ⟨.replicate 16 0, .replicate 32 1⟩))) ∧
      first.call = .retrieveProof (ClaimId.encode ⟨.replicate 16 0, .replicate 32 1⟩) ∧
      first.Returned (.ok (.proof ⟨[7]⟩)) ∧
      second.call = .retrieveProof (ClaimId.encode ⟨.replicate 16 0, .replicate 32 1⟩) ∧
      second.Returned (.ok (.proof ⟨[7]⟩)) :=
  ⟨Aead.keyed_opens, @overlapping_retrievals _ _ _ (.replicate 12 0) _ Aead.keyed_opens rfl _ _⟩

/-- In every such run, a cancelled record is not released. -/
theorem cancelled_not_released
    (run : RunWhere FindsRecord (vaultStart aead clock) labels config) {tid tid' : Nat}
    {thread thread' : Thread (vaultSystem aead)} (found : config.threads tid = some thread)
    (found' : config.threads tid' = some thread') (deletes : thread.call.Deletes recordId)
    (retrieves : thread'.call.Retrieves recordId) {reply reply' : Reply}
    (cancelled : thread.Returned (.ok reply)) : ¬ thread'.Returned (.ok reply') := by
  intro released
  have leads := followed run tid thread found
  obtain ⟨claimIdStr, claimId, called, decoded, rfl⟩ := id deletes
  rw [called, cancelled] at leads
  have removedHere := (delete_returned decoded leads).2.2
  have removedThere := removed_of_retrieve_ok run found' retrieves released
  have same := (coherent run).removedOnce tid tid' thread thread' _ found found'
    removedHere removedThere
  subst same
  rw [found] at found'
  cases found'
  exact retrieves.not_deletes deletes

/-- A cancellation and a retrieval of its record overlap, beside a retrieval that
deletes another record. -/
theorem cancelled_not_released_overlapping :
    ∃ labels, ∃ config : Config (vaultSystem .keyed), ∃ cancelling releasing retrieving,
      RunWhere FindsRecord (vaultStart .keyed .epoch) labels config ∧
      config.threads 2 = some cancelling ∧ config.threads 3 = some releasing ∧
      config.threads 4 = some retrieving ∧ cancelling.Returned (.ok .deleted) ∧
      releasing.call.Retrieves (.replicate 16 1) ∧ releasing.Returned (.ok (.proof ⟨[7]⟩)) ∧
      retrieving.call.Retrieves (.replicate 16 0) ∧ ∀ reply, ¬ retrieving.Returned (.ok reply) := by
  have different : FixedBytes.replicate 16 0 ≠ FixedBytes.replicate 16 1 := by decide
  obtain ⟨labels, config, cancelling, releasing, retrieving, run, found, other, found', called, returned,
      otherCalled, otherReturned, called', _⟩ :=
    @cancellation_in_order .keyed ⟨[7]⟩ (.replicate 32 1) (.replicate 12 0) _ Aead.keyed_opens rfl _ _ different
      .epoch
  refine ⟨labels, config, cancelling, releasing, retrieving, run, found, other, found', returned,
    ⟨_, _, otherCalled, ClaimId.decode_encode _, rfl⟩, otherReturned,
    ⟨_, _, called', ClaimId.decode_encode _, rfl⟩, fun reply => ?_⟩
  exact cancelled_not_released run found found' ⟨_, _, called, ClaimId.decode_encode _, rfl⟩
    ⟨_, _, called', ClaimId.decode_encode _, rfl⟩ returned

/-- A cancellation is acknowledged, and the retrieval it overlaps still returns the
plaintext. -/
theorem released_after_cancellation :
    ∃ labels, ∃ config : Config (vaultSystem .keyed), ∃ storing retrieving cancelling,
      Run (vaultStart .keyed .epoch) labels config ∧ config.threads 0 = some storing ∧
      config.threads 1 = some retrieving ∧ config.threads 2 = some cancelling ∧
      storing.call = .storeProof ⟨[7]⟩ none ∧
      storing.Returned (.ok (.claimId (ClaimId.encode ⟨.replicate 16 0, .replicate 32 1⟩))) ∧
      retrieving.call = .retrieveProof (ClaimId.encode ⟨.replicate 16 0, .replicate 32 1⟩) ∧
      retrieving.Returned (.ok (.proof ⟨[7]⟩)) ∧
      cancelling.call = .deleteProof (ClaimId.encode ⟨.replicate 16 0, .replicate 32 1⟩) ∧
      cancelling.Returned (.ok .deleted) :=
  @retrieval_overlaps_cancellation _ _ _ (.replicate 12 0) _ Aead.keyed_opens rfl _ _

end TariVault
