import TariVault.Vault.Accounting
import TariVault.Vault.Alone

namespace TariVault

open Program VaultEvent TariVault.System

/-! # Expired records

With a clock that is never set back, a claim that is used after the expiry of its
record gets nothing, and a record without expiry never expires.
-/

variable {aead : Aead} {call : VaultCall} {past : List VaultEvent} {recordId : RecordId}
  {record : StoredRecord}

/-- A finished lookup did not find its record, refused it, or used it. -/
theorem Lookup.finished {α : Type} {use : StoredRecord → VaultM BackendOp.Answer α}
    {result : Except VaultError α} (lookup : Lookup recordId use past (.done result)) :
    (∃ error, result = .error (.ofFetch error)) ∨
    (SawExpiry past recordId ∧ result = .error .proofExpired) ∨
    ∃ record clock tail, past = fetched recordId (.ok record) :: (clock ++ tail) ∧
      LiveReading record clock ∧ Leads (use record).run tail (.done result) := by
  cases lookup with
  | missing error => exact .inl ⟨error, rfl⟩
  | @expired record expiry now tail _ expires passed touched ends =>
      exact .inr (.inl ⟨⟨record, now, by simp, by simp, expiry, expires, passed⟩, ends.returned rfl⟩)
  | live reading using_ => exact .inr (.inr ⟨_, _, _, rfl, reading, using_⟩)

theorem consume_unexpired {claimId : ClaimId} {result : Except VaultError PlaintextProof}
    (leads : Leads (StandardVault.consume atomicBackend aead claimId record).run past (.done result)) :
    result ≠ .error .proofExpired := by
  cases consume_leads leads with
  | rejected => simp
  | refused error => simp
  | released nonceBytes decrypted onlyLogs ends => simp [ends.endsIn.returned rfl]

theorem cancel_unexpired {claimId : ClaimId} {result : Except VaultError Unit}
    (leads : Leads (StandardVault.cancel atomicBackend claimId record).run past (.done result)) :
    result ≠ .error .proofExpired := by
  cases cancel_leads leads with
  | refused error => simp
  | absent => simp
  | removed onlyLogs ends => simp [ends.endsIn.returned rfl]

/-- How a claim on a record is answered. -/
inductive ClaimAnswer (recordId : RecordId) (past : List VaultEvent) :
    Except VaultError Reply → Prop where
  | missing (error : StorageError) : ClaimAnswer recordId past (.error (.ofFetch error))
  | expired (saw : SawExpiry past recordId) : ClaimAnswer recordId past (.error .proofExpired)
  | used {record clock result} (fetchedIt : fetched recordId (.ok record) ∈ past)
      (reading : LiveReading record clock) (read : ∀ event ∈ clock, event ∈ past)
      (unexpired : result ≠ .error .proofExpired) : ClaimAnswer recordId past result

theorem claim_answer {result : Except VaultError Reply}
    (leads : Leads (call.code aead) past (.done result)) (claims : call.Claims recordId) :
    ClaimAnswer recordId past result := by
  rcases claims with ⟨claimIdStr, claimId, rfl, decoded, rfl⟩ | ⟨claimIdStr, claimId, rfl, decoded, rfl⟩
  · obtain ⟨middle, inside, mapped⟩ := leads.map_inv
    obtain ⟨value, rfl, rfl⟩ := map_eq_done mapped.symm
    simp only [StandardVault.retrieveProof, decoded] at inside
    rcases (withLiveRecord_leads inside).finished with ⟨error, rfl⟩ | ⟨saw, rfl⟩ |
      ⟨record, clock, tail, rfl, reading, using_⟩
    · exact .missing error
    · exact .expired saw
    · refine .used (by simp) reading (fun event member => by simp [member]) fun same => ?_
      refine consume_unexpired using_ ?_
      cases value with
      | error error => exact congrArg Except.error (Except.error.inj same)
      | ok plaintext => contradiction
  · obtain ⟨middle, inside, mapped⟩ := leads.map_inv
    obtain ⟨value, rfl, rfl⟩ := map_eq_done mapped.symm
    simp only [StandardVault.deleteProof, decoded] at inside
    rcases (withLiveRecord_leads inside).finished with ⟨error, rfl⟩ | ⟨saw, rfl⟩ |
      ⟨record, clock, tail, rfl, reading, using_⟩
    · exact .missing error
    · exact .expired saw
    · refine .used (by simp) reading (fun event member => by simp [member]) fun same => ?_
      refine cancel_unexpired using_ ?_
      cases value with
      | error error => exact congrArg Except.error (Except.error.inj same)
      | ok done_ => contradiction

variable {clock : DateTime} {labels labels' : List (Label (vaultSystem aead))}
  {config middle next last : Config (vaultSystem aead)}

/-- A call reads the clock no earlier than when it is invoked. -/
structure ReadsFrom (start : DateTime) (tid : Nat) (config : Config (vaultSystem aead)) : Prop where
  later : start ≤ config.shared.clock
  read : ∀ thread now, config.threads tid = some thread → thread.Did (clockRead now) → start ≤ now

theorem ReadsFrom.step {start : DateTime} {tid : Nat} (reads : ReadsFrom start tid config)
    {label : Label (vaultSystem aead)} (forward : MonotoneClock config label)
    (step : Step config label last) : ReadsFrom start tid last where
  later := by
    cases step with
    | invoke free => exact reads.later
    | act running performed => rw [(VaultAct.clock_eq performed).1]; exact reads.later
    | drift changed =>
        simp only at changed
        subst changed
        exact reads.later.trans (forward _ rfl)
  read := by
    intro thread now found did
    obtain ⟨before, foundBefore, _, old | ⟨_, performed, _⟩⟩ := step.did found did
    · exact reads.read before now foundBefore old
    · exact (VaultAct.now_inv performed) ▸ reads.later

theorem readsFrom {tid : Nat} (invoked : Step middle (.invoke tid call) next)
    (after : RunWhere MonotoneClock next labels last) :
    ReadsFrom middle.shared.clock tid last := by
  induction after with
  | refl =>
      cases invoked with
      | invoke free =>
          refine ⟨le_refl _, fun thread now found did => ?_⟩
          simp only [Function.update_self, Option.some.injEq] at found
          subst found
          contradiction
  | snoc _ forward step ih => exact ih.step forward step

/-- The expiry of a record is the clock value its store call read plus the requested
seconds. -/
def ExpiryOf (expiresInSecs : Option UInt64) (past : List VaultEvent) (record : StoredRecord) : Prop :=
  match expiresInSecs with
  | none => record.expiresAt = none
  | some secs => ∃ now expiry, clockRead now ∈ past ∧ record.expiresAt = some expiry ∧
      expiry.nanos = now.nanos + secs.toNat * nanosPerSecond

theorem expiryOf_reading {expiresInSecs : Option UInt64} {clock : List VaultEvent}
    (reading : ExpiryReading expiresInSecs clock record.expiresAt)
    (read : ∀ event ∈ clock, event ∈ past) : ExpiryOf expiresInSecs past record := by
  generalize expires : record.expiresAt = expiresAt at reading
  cases reading with
  | never => exact expires
  | @after secs now expiry small exact => exact ⟨now, expiry, read _ (by simp), expires, exact⟩

theorem expiry_of_insertion (followed : Followed config) {tid : Nat}
    {storing : Thread (vaultSystem aead)} (found : config.threads tid = some storing)
    {proof : PlaintextProof} {expiresInSecs : Option UInt64}
    (stores : storing.call = .storeProof proof expiresInSecs) {result : Except StorageError Unit}
    (did : storing.Did (inserted recordId record result)) :
    ExpiryOf expiresInSecs storing.past record := by
  obtain ⟨_, draft, _, clock, logs, insertion, rfl, rfl⟩ :=
    insertion_of_mem (followed tid storing found) did
  have same := insertion.stores
  rw [stores] at same
  injection same with sameProof sameSecs
  subst sameSecs
  refine expiryOf_reading insertion.reading fun event member => ?_
  rw [insertion.order]
  simp [Draft.events, member]

/-- No claim that is invoked after the expiry of its record gets anything. -/
def LateClaimsRefused (clock : DateTime) (config : Config (vaultSystem aead)) (recordId : RecordId)
    (record : StoredRecord) : Prop :=
  ∀ {labels labels' : List (Label (vaultSystem aead))} {middle next : Config (vaultSystem aead)}
    {tid : Nat} {call : VaultCall},
    RunWhere MonotoneClock (vaultStart aead clock) labels middle →
    Step middle (.invoke tid call) next → RunWhere MonotoneClock next labels' config →
    call.Claims recordId → record.ExpiredAt middle.shared.clock →
    ∀ thread result, config.threads tid = some thread → thread.Returned result →
      result = .error .proofExpired ∨ result = .error .proofNotFound ∨
        ∃ error, result = .error (.storage error)

/-- No call sees the record expired, and no sweep removes it. -/
structure NeverExpires (config : Config (vaultSystem aead)) (recordId : RecordId)
    (record : StoredRecord) : Prop where
  unseen : ∀ tid thread, config.threads tid = some thread → ¬ SawExpiry thread.past recordId
  unreported : ∀ tid thread, config.threads tid = some thread → thread.call.Claims recordId →
    ¬ thread.Returned (.error .proofExpired)
  kept : ∀ tid removed last, Step config (.act tid (swept removed)) last →
    config.shared.records[recordId]? = some record → last.shared.records[recordId]? = some record

section Stored

variable {tid : Nat} {storing : Thread (vaultSystem aead)} {proof : PlaintextProof}
  {expiresInSecs : Option UInt64} {result : Except StorageError Unit}

/-- Whoever fetches the id of an inserted record fetches that record. -/
theorem fetched_inserted (run : RunWhere MonotoneClock (vaultStart aead clock) labels config)
    (found : config.threads tid = some storing) (did : storing.Did (inserted recordId record result))
    {tid' : Nat} {thread : Thread (vaultSystem aead)} (found' : config.threads tid' = some thread)
    {other : StoredRecord} (did' : thread.Did (fetched recordId (.ok other))) : other = record :=
  inserted_unique (drawnOnce run) (followed run)
    ((coherent run).fetched recordId other ⟨tid', thread, found', did'⟩) ⟨tid, storing, found, did⟩

theorem lateClaimsRefused (run : RunWhere MonotoneClock (vaultStart aead clock) labels config)
    (found : config.threads tid = some storing)
    (did : storing.Did (inserted recordId record result)) :
    LateClaimsRefused clock config recordId record := by
  intro labels₁ labels₂ middle next tid' call before invoked after claims late thread answer found' returned
  obtain ⟨expiry, expires, passed⟩ := late
  have invokedThread : next.threads tid' = some ⟨call, [], call.code aead⟩ := by
    cases invoked
    exact Function.update_self ..
  obtain ⟨later, events, foundLater, sameCall, _⟩ := after.thread_stable invokedThread
  rw [found'] at foundLater
  cases foundLater
  have leads := followed run tid' thread found'
  rw [returned, sameCall] at leads
  cases claim_answer leads claims with
  | missing error =>
      cases error with
      | notFound => exact .inr (.inl rfl)
      | io message => exact .inr (.inr ⟨_, rfl⟩)
      | json message => exact .inr (.inr ⟨_, rfl⟩)
  | expired saw => exact .inl rfl
  | @used other clock _ fetchedIt reading read unexpired =>
      have same := fetched_inserted run found did found' fetchedIt
      subst same
      cases reading with
      | never noExpiry =>
          rw [noExpiry] at expires
          contradiction
      | @before expiry' now expires' notPassed =>
          rw [expires, Option.some.injEq] at expires'
          subst expires'
          have from_ := (readsFrom invoked after).read thread now found' (read _ (by simp))
          exact absurd (passed.trans_le from_) notPassed

theorem neverExpires (run : RunWhere MonotoneClock (vaultStart aead clock) labels config)
    (found : config.threads tid = some storing) (did : storing.Did (inserted recordId record result))
    (noExpiry : record.expiresAt = none) : NeverExpires config recordId record := by
  have unseen : ∀ tid thread, config.threads tid = some thread → ¬ SawExpiry thread.past recordId := by
    intro tid' thread found' holds
    obtain ⟨other, now, fetchedIt, _, expiry, expires, _⟩ := holds
    rw [fetched_inserted run found did found' fetchedIt, noExpiry] at expires
    contradiction
  refine ⟨unseen, fun tid' thread found' claims returned => ?_, ?_⟩
  · have leads := followed run tid' thread found'
    rw [returned] at leads
    generalize answer : (Except.error VaultError.proofExpired : Except VaultError Reply) = result at leads
    cases claim_answer leads claims with
    | missing error => cases error <;> simp [VaultError.ofFetch] at answer
    | expired saw => exact unseen tid' thread found' saw
    | used fetchedIt reading read unexpired => exact unexpired answer.symm
  · intro tid' removed last step stored
    have performed : VaultAct config.shared (swept removed) last.shared := by
      cases step with
      | act running performed => exact performed
    rcases performed.storage_inv with ⟨captured, _, _, after⟩ | ⟨_, after⟩
    · rw [after]
      rcases Contents.getElem?_sweep_of_some stored with kept | ⟨_, expiry, expires, _⟩
      · exact kept
      · rw [noExpiry] at expires
        contradiction
    · rw [after]
      exact stored

end Stored

/-- A claim invoked after the expiry of its record is refused, whatever happens in
between, and a record stored without a lifetime never expires. -/
theorem ttl_safe (run : RunWhere MonotoneClock (vaultStart aead clock) labels config) {tid : Nat}
    {storing : Thread (vaultSystem aead)} (found : config.threads tid = some storing)
    {proof : PlaintextProof} {expiresInSecs : Option UInt64}
    (stores : storing.call = .storeProof proof expiresInSecs) {result : Except StorageError Unit}
    (did : storing.Did (inserted recordId record result)) :
    ExpiryOf expiresInSecs storing.past record ∧ LateClaimsRefused clock config recordId record ∧
      (expiresInSecs = none → NeverExpires config recordId record) := by
  have expiry := expiry_of_insertion (followed run) found stores did
  refine ⟨expiry, lateClaimsRefused run found did, ?_⟩
  intro same
  subst same
  exact neverExpires run found did expiry

/-- A record with a lifetime of one second, claimed two seconds later. -/
theorem ttl_safe_late :
    ∃ labels, ∃ config : Config (vaultSystem .keyed), ∃ thread result,
      RunWhere MonotoneClock (vaultStart .keyed .epoch) labels config ∧
      config.threads 1 = some thread ∧ thread.call.Retrieves (.replicate 16 0) ∧
      thread.Returned result ∧ (result = .error .proofExpired ∨ result = .error .proofNotFound ∨
        ∃ error, result = .error (.storage error)) := by
  let machine : Machine := ⟨.replicate 32 1, .replicate 12 0, .replicate 16 0, fun _ => none⟩
  let expiry : DateTime := ⟨1000000000, by decide, by decide⟩
  let late : DateTime := ⟨2000000000, by decide, by decide⟩
  let claimId : ClaimId := ⟨.replicate 16 0, .replicate 32 1⟩
  let record : StoredRecord := ⟨⟨(FixedBytes.replicate 12 0).bytes,
    (FixedBytes.replicate 32 1).bytes ++ [7]⟩, .epoch, some expiry⟩
  obtain ⟨state, ranStore, present⟩ : ∃ state : VaultState,
      ((VaultCall.storeProof ⟨[7]⟩ (some 1)).code .keyed).run (VaultState.respond machine)
        (.initial .epoch) = some (.ok (.claimId claimId.encode), state) ∧
      state.records[FixedBytes.replicate 16 0]? = some record ∧ state.clock = .epoch :=
    ⟨_, rfl, Contents.getElem?_insert_self, rfl⟩
  obtain ⟨stored, clock⟩ := present
  have calm (config : Config (vaultSystem .keyed)) (label : Label (vaultSystem .keyed))
      (still : ∀ now, label ≠ .drift now) : MonotoneClock config label :=
    fun now drifts => absurd drifts (still now)
  obtain ⟨_, events, run⟩ := @call_alone _ _ _ _ _ (.refl (vaultStart .keyed .epoch)) machine 0 _ rfl
    (List.mem_singleton_self _) _ _ ranStore calm
  obtain ⟨tid, storing, found, did⟩ := (coherent run).stored _ record stored
  obtain ⟨proof, _, expiresInSecs, _, _, insertion, _⟩ :=
    insertion_of_mem (followed run tid storing found) did
  -- The clock moves, and the claim is used.
  let moved : VaultState := { state with clock := late, readings := late :: state.readings }
  let threads : Nat → Option (Thread (vaultSystem .keyed)) := Function.update (fun _ => none) 0
    (some ⟨.storeProof ⟨[7]⟩ (some 1), events, .done (.ok (.claimId claimId.encode))⟩)
  have forward : @MonotoneClock .keyed ⟨state, threads⟩ (.drift late) := by
    intro now equal
    cases equal
    rw [clock]
    decide
  have waited := RunWhere.snoc run forward (.drift rfl)
  have passed : expiry < late := by decide
  have expired : record.ExpiredAt moved.clock := ⟨expiry, rfl, passed⟩
  have ranClaim : ((VaultCall.retrieveProof claimId.encode).code .keyed).run (VaultState.respond machine)
      moved = some (.error .proofExpired,
        { moved with records := moved.records.erase (.replicate 16 0) }) := by
    simp only [VaultCall.code, VaultCall.program, run_map, StandardVault.retrieveProof,
      ClaimId.decode_encode]
    rw [@withLiveRecord_refuses record _ machine moved _ _ _ rfl rfl stored expired]
    rfl
  obtain ⟨claiming, leads, acts⟩ := @acts_alone .keyed machine 1 _ _ _ _ List.mem_cons_self ranClaim
  let claimed : Config (vaultSystem .keyed) := ⟨moved, Function.update threads 1
    (some ⟨.retrieveProof claimId.encode, [], (VaultCall.retrieveProof claimId.encode).code .keyed⟩)⟩
  have invoked : Step ⟨moved, threads⟩ (.invoke 1 (.retrieveProof claimId.encode)) claimed :=
    .invoke rfl
  have running : claimed.threads 1 = some ⟨.retrieveProof claimId.encode, [],
      (VaultCall.retrieveProof claimId.encode).code .keyed⟩ := by simp [claimed]
  have after := @RunWhere.perform _ _ _ MonotoneClock claimed 1 _ _ _ _ _ _ running leads acts
    fun _ _ _ _ _ _ => calm _ _ (by simp)
  have whole := RunWhere.trans (.snoc waited (calm _ _ (by simp)) invoked) after
  obtain ⟨later, _, foundLater, sameCall, grown, _⟩ := RunWhere.thread_stable
    (RunWhere.trans (.snoc (.snoc (.refl _) forward (.drift rfl)) (calm _ _ (by simp)) invoked) after) found
  have didLater : later.Did (inserted (.replicate 16 0) record (.ok ())) := by
    rw [Thread.Did, grown]
    exact List.mem_append_left _ did
  have safe := ttl_safe whole foundLater (sameCall.trans insertion.stores) didLater
  have claims : VaultCall.Retrieves (.retrieveProof claimId.encode) (.replicate 16 0) :=
    ⟨_, claimId, rfl, ClaimId.decode_encode _, rfl⟩
  let thread : Thread (vaultSystem .keyed) :=
    ⟨.retrieveProof claimId.encode, [] ++ claiming, .done (.error .proofExpired)⟩
  have finished : Function.update claimed.threads 1 (some thread) 1 = some thread := by simp
  exact ⟨_, _, thread, _, whole, finished, claims, rfl,
    safe.2.1 waited invoked after (.inl claims) expired thread _ finished rfl⟩

end TariVault
