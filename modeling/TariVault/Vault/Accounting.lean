import TariVault.Vault.Concurrent

namespace TariVault

open Program VaultEvent TariVault.System

/-! # Consumption is final, and every removal is accounted for -/

variable {aead : Aead} {clock : DateTime} {labels labels' : List (Label (vaultSystem aead))}
  {config middle last : Config (vaultSystem aead)} {label : Label (vaultSystem aead)}
  {recordId : RecordId} {record : StoredRecord}

/-- A call that claimed a record and succeeded leaves it gone. -/
theorem gone_of_ok (run : Run (vaultStart aead clock) labels config) {tid : Nat}
    {thread : Thread (vaultSystem aead)} (found : config.threads tid = some thread)
    (claims : thread.call.Claims recordId) {reply : Reply}
    (returned : thread.Returned (.ok reply)) : Gone config recordId := by
  have leads := followed run tid thread found
  rw [returned] at leads
  rcases claims with ⟨claimIdStr, claimId, called, decoded, rfl⟩ |
    ⟨claimIdStr, claimId, called, decoded, rfl⟩
  · rw [called] at leads
    obtain ⟨_, _, _, _, removed, _, did, _⟩ := retrieve_returned decoded leads
    exact (coherent run).removed _ removed ⟨tid, thread, found, did⟩
  · rw [called] at leads
    exact (coherent run).removed _ true ⟨tid, thread, found, (delete_returned decoded leads).2.2⟩

/-- A call invoked once the record is gone never fetches it. -/
theorem never_fetches (gone : Gone middle recordId)
    (before : Run (vaultStart aead clock) labels middle) (after : Run middle labels' last)
    {tid : Nat} (later : middle.threads tid = none) {thread : Thread (vaultSystem aead)}
    (found : last.threads tid = some thread) (record : StoredRecord) :
    ¬ thread.Did (fetched recordId (.ok record)) := by
  induction after generalizing thread with
  | refl =>
      rw [later] at found
      contradiction
  | snoc run allowed step ih =>
      intro did
      obtain ⟨before', foundBefore, _, old | ⟨_, performed, _⟩⟩ := step.did found did
      · exact ih foundBefore old
      · have stored := (VaultAct.fetched_inv performed).2 record rfl
        rw [(gone.run before run).absent] at stored
        contradiction

/-- The backend failed at this operation, rather than reporting an absence. -/
def BackendFailed (event : VaultEvent) : Prop :=
  ∃ op error, event = ⟨.storage op, op.failure error⟩ ∧ error ≠ .notFound

/-- Once a retrieval or cancellation has succeeded, no call on the record that is
invoked later succeeds, and unless the backend fails it reports the record as not
found. -/
theorem consumption_is_final (before : Run (vaultStart aead clock) labels middle)
    (after : Run middle labels' last) {tid tid' : Nat} {thread thread' : Thread (vaultSystem aead)}
    (found : middle.threads tid = some thread) (claims : thread.call.Claims recordId)
    {reply : Reply} (succeeded : thread.Returned (.ok reply)) (later : middle.threads tid' = none)
    (found' : last.threads tid' = some thread') (claims' : thread'.call.Claims recordId)
    {result : Except VaultError Reply} (returned : thread'.Returned result) :
    (∀ reply', result ≠ .ok reply') ∧
      ((∀ event ∈ thread'.past, ¬ BackendFailed event) → result = .error .proofNotFound) := by
  have gone := gone_of_ok before found claims succeeded
  have unfetched := never_fetches gone before after later found'
  obtain ⟨error, reported, rfl⟩ := returned_without_record
    (followed (before.trans after) tid' thread' found') claims' unfetched returned
  refine ⟨by simp, fun healthy => ?_⟩
  have absent : error = .notFound := by
    by_contra failed
    exact healthy _ reported ⟨.fetch recordId, error, rfl, failed⟩
  rw [absent]
  rfl

/-- A cancellation succeeds, and the retrieval after it finds nothing. -/
theorem consumption_is_final_in_order :
    ∃ labels labels', ∃ middle last : Config (vaultSystem .keyed), ∃ thread thread',
      Run (vaultStart .keyed .epoch) labels middle ∧ Run middle labels' last ∧
      middle.threads 1 = some thread ∧ thread.Returned (.ok .deleted) ∧
      last.threads 2 = some thread' ∧ thread'.Returned (.error .proofNotFound) ∧
      ∀ result, thread'.Returned result → result = .error .proofNotFound := by
  obtain ⟨_, middle, cancelling, cancelled, found, free, shown, absent, _, called, returned⟩ :=
    @cancellation_alone .keyed (fun _ _ => True) ⟨[7]⟩ (.replicate 32 1) (.replicate 12 0) _ rfl
      (.replicate 16 0) .epoch (fun _ _ _ => trivial) fun _ _ => trivial
  have begun := call_begins cancelled.stay 2 (.retrieveProof (ClaimId.encode ⟨.replicate 16 0, .replicate 32 1⟩))
    free fun _ _ _ => trivial
  obtain ⟨_, retrieving, ended, called', returned', onlyFetched⟩ := lookup_misses begun 2
    rfl (missing_completes (ClaimId.decode_encode ⟨.replicate 16 0, .replicate 32 1⟩))
    absent shown fun _ _ _ => trivial
  refine ⟨_, _, middle, _, cancelling, retrieving, cancelled, ended, found, returned,
    rfl, returned', fun result also => ?_⟩
  have final := @consumption_is_final .keyed .epoch _ _ _ _ (.replicate 16 0) cancelled ended 1 2
    _ _ found (.inr ⟨_, _, called, ClaimId.decode_encode _, rfl⟩) _ returned free rfl
    (.inl ⟨_, _, called', ClaimId.decode_encode _, rfl⟩) _ also
  refine final.2 ?_
  intro event member holds
  obtain ⟨op, error, rfl, failed⟩ := holds
  have same := onlyFetched _ member
  injection same with sameOp sameAnswer
  injection sameOp with sameStorage
  subst sameStorage
  cases sameAnswer
  exact failed rfl

/-- The clock is never set back. -/
def MonotoneClock (config : Config (vaultSystem aead)) (label : Label (vaultSystem aead)) : Prop :=
  ∀ now, label = .drift now → config.shared.clock ≤ now

/-- Every clock value shown or read so far has been reached. -/
structure ClockReached (config : Config (vaultSystem aead)) : Prop where
  shown : ∀ now ∈ config.shared.readings, now ≤ config.shared.clock
  read : ∀ now, Happened config (clockRead now) → now ≤ config.shared.clock

theorem clock_le (allowed : MonotoneClock config label) (step : Step config label last) :
    config.shared.clock ≤ last.shared.clock := by
  cases step with
  | invoke free => exact le_refl config.shared.clock
  | act running performed => exact le_of_eq (VaultAct.clock_eq performed).1.symm
  | drift changed =>
      simp only at changed
      subst changed
      exact allowed _ rfl

theorem ClockReached.step (reached : ClockReached config) (allowed : MonotoneClock config label)
    (step : Step config label last) : ClockReached last := by
  have later := clock_le allowed step
  constructor
  · intro now shown
    cases step with
    | invoke free => exact reached.shown now shown
    | act running performed =>
        rw [(VaultAct.clock_eq performed).2] at shown
        exact (reached.shown now shown).trans later
    | drift changed =>
        simp only at changed
        subst changed
        rcases List.mem_cons.mp shown with rfl | old
        · exact le_refl now
        · exact (reached.shown now old).trans later
  · intro now happened
    rcases happened.of_step step with old | ⟨tid, _, performed⟩
    · exact (reached.read now old).trans later
    · rw [performed.now_inv]
      exact later

/-- An inserted record that is not stored was deleted by a call, or its expiry has
come. -/
def Accounted (config : Config (vaultSystem aead)) : Prop :=
  ∀ recordId record, Happened config (inserted recordId record (.ok ())) →
    config.shared.records[recordId]? = none →
    Happened config (deleted recordId (.ok true)) ∨
      ∃ expiry, record.expiresAt = some expiry ∧ expiry ≤ config.shared.clock

/-- A step that takes a record away deletes it, or sweeps it once expired. -/
theorem taken (reached : ClockReached config) (step : Step config label last)
    (before : config.shared.records[recordId]? = some record)
    (after : last.shared.records[recordId]? = none) :
    Happened last (deleted recordId (.ok true)) ∨
      ∃ expiry, record.expiresAt = some expiry ∧ expiry ≤ config.shared.clock := by
  cases step with
  | invoke free =>
      rw [before] at after
      contradiction
  | drift changed =>
      simp only at changed
      subst changed
      rw [before] at after
      contradiction
  | @act tid call past op next answer shared running performed =>
      rcases VaultAct.records_inv performed with same |
        ⟨op', answer', captured, isStorage, shown, answered, left⟩
      · rw [same, before] at after
        contradiction
      · rw [left] at after
        rcases Contents.apply_takes before after with rfl | ⟨rfl, expiry, expires, passed⟩
        · cases isStorage
          have present : config.shared.records.contains recordId = true := by
            rw [← Std.ExtTreeMap.mem_iff_contains, ← Std.ExtTreeMap.isSome_getElem?_iff_mem, before]
            rfl
          simp only [Contents.apply, present] at answered
          subst answered
          exact .inl ⟨tid, _, Function.update_self .., by simp [Thread.Did]⟩
        · exact .inr ⟨expiry, expires, passed.trans (reached.shown captured shown)⟩

theorem Accounted.step (accounted : Accounted config) (coherent : Coherent config)
    (reached : ClockReached config) (allowed : MonotoneClock config label)
    (step : Step config label last) : Accounted last := by
  intro recordId record happened absent
  have later := clock_le allowed step
  rcases happened.of_step step with old | ⟨tid, _, performed⟩
  · cases stored : config.shared.records[recordId]? with
    | none =>
        rcases accounted recordId record old stored with removed | ⟨expiry, expires, passed⟩
        · exact .inl (removed.step step)
        · exact .inr ⟨expiry, expires, passed.trans later⟩
    | some other =>
        have same := inserted_unique coherent.once coherent.followed old
          (coherent.stored recordId other stored)
        subst same
        rcases taken reached step stored absent with removed | ⟨expiry, expires, passed⟩
        · exact .inl removed
        · exact .inr ⟨expiry, expires, passed.trans later⟩
  · -- The record inserted by this very step is there.
    rcases VaultAct.storage_inv performed with ⟨captured, _, _, after⟩ | ⟨⟨error, impossible⟩, _⟩
    · rw [after] at absent
      simp only [Contents.apply, Contents.getElem?_insert_self] at absent
      contradiction
    · contradiction

theorem accounted (run : RunWhere MonotoneClock (vaultStart aead clock) labels config) :
    ClockReached config ∧ Accounted config := by
  induction run with
  | refl =>
      refine ⟨⟨?_, ?_⟩, ?_⟩
      · intro now shown
        exact le_of_eq (List.mem_singleton.mp shown)
      · intro _ holds
        obtain ⟨_, _, found, _⟩ := holds
        cases found
      · intro _ _ holds
        obtain ⟨_, _, found, _⟩ := holds
        cases found
  | snoc run allowed step ih =>
      obtain ⟨reached, accounted⟩ := ih
      exact ⟨reached.step allowed step, accounted.step (coherent run) reached allowed step⟩

/-- What the answers of finished calls say about the records they removed. -/
structure AnswersAccount (config : Config (vaultSystem aead)) : Prop where
  /-- A call that removed a record it saw unexpired succeeded. -/
  live : ∀ tid thread recordId result, config.threads tid = some thread →
    thread.Did (deleted recordId (.ok true)) → ¬ SawExpiry thread.past recordId →
    thread.Returned result → ∃ reply, result = .ok reply
  /-- A retrieval that failed, other than by expiry, removed nothing. -/
  failed : ∀ tid thread claimIdStr error, config.threads tid = some thread →
    thread.call = .retrieveProof claimIdStr → thread.Returned (.error error) →
    error ≠ .proofExpired → ∀ recordId, ¬ thread.Did (deleted recordId (.ok true))
  /-- A cancellation that succeeded removed the record itself. -/
  cancelled : ∀ tid thread recordId reply, config.threads tid = some thread →
    thread.call.Deletes recordId → thread.Returned (.ok reply) →
    thread.Did (deleted recordId (.ok true))
  cancelledOnce : ∀ tid tid' thread thread' recordId reply reply',
    config.threads tid = some thread → config.threads tid' = some thread' →
    thread.call.Deletes recordId → thread'.call.Deletes recordId →
    thread.Returned (.ok reply) → thread'.Returned (.ok reply') → tid = tid'

theorem answersAccount (run : Run (vaultStart aead clock) labels config) :
    AnswersAccount config := by
  have cancelled : ∀ tid thread recordId reply, config.threads tid = some thread →
      thread.call.Deletes recordId → thread.Returned (.ok reply) →
      thread.Did (deleted recordId (.ok true)) := by
    intro tid thread _ reply found holds returned
    obtain ⟨claimIdStr, claimId, called, decoded, rfl⟩ := holds
    have leads := followed run tid thread found
    rw [called, returned] at leads
    exact (delete_returned decoded leads).2.2
  constructor
  · intro tid thread recordId result found did unseen returned
    have outcome := (deleteOutcome_of_mem (followed run tid thread found) did).2
    rw [Thread.Returned] at returned
    cases outcome with
    | expired saw ends => exact absurd saw unseen
    | released plaintext live retrieves ends => exact ⟨_, ends.returned returned⟩
    | cancelled live deletes ends => exact ⟨_, ends.returned returned⟩
  · intro tid thread claimIdStr error found called returned notExpired recordId did
    have outcome := (deleteOutcome_of_mem (followed run tid thread found) did).2
    rw [Thread.Returned] at returned
    cases outcome with
    | expired saw ends =>
        have same := ends.returned returned
        simp only [Except.error.injEq] at same
        exact notExpired same
    | released plaintext live retrieves ends =>
        have impossible := ends.returned returned
        contradiction
    | cancelled live deletes ends =>
        have impossible := ends.returned returned
        contradiction
  · exact cancelled
  · intro tid tid' thread thread' recordId reply reply' found found' deletes deletes' ok ok'
    exact (coherent run).removedOnce tid tid' thread thread' recordId found found'
      (cancelled tid thread recordId reply found deletes ok)
      (cancelled tid' thread' recordId reply' found' deletes' ok')

/-- An inserted record that is missing before its expiry was removed by a retrieval
or cancellation that has succeeded, or can only succeed. -/
def NoneVanished (config : Config (vaultSystem aead)) : Prop :=
  ∀ recordId record, Happened config (inserted recordId record (.ok ())) →
    config.shared.records[recordId]? = none →
    (∀ expiry, record.expiresAt = some expiry → config.shared.clock < expiry) →
    ∃ tid thread reply, config.threads tid = some thread ∧ thread.call.Claims recordId ∧
      thread.Did (deleted recordId (.ok true)) ∧ thread.WillReturn (.ok reply)

theorem noneVanished (run : RunWhere MonotoneClock (vaultStart aead clock) labels config) :
    NoneVanished config := by
  intro recordId record happened absent unexpired
  obtain ⟨reached, accounted⟩ := accounted run
  rcases accounted recordId record happened absent with ⟨tid, thread, found, did⟩ |
    ⟨expiry, expires, passed⟩
  · obtain ⟨claims, outcome⟩ := deleteOutcome_of_mem (followed run tid thread found) did
    cases outcome with
    | expired saw ends =>
        -- The call would have read the clock after the expiry.
        obtain ⟨other, now, fetchedIt, read, expiry, expires, passed⟩ := saw
        have same := inserted_unique (drawnOnce run) (followed run) happened
          ((coherent run).fetched recordId other ⟨tid, thread, found, fetchedIt⟩)
        subst same
        have shown := reached.read now ⟨tid, thread, found, read⟩
        exact absurd (passed.trans_le shown) (lt_asymm (unexpired expiry expires))
    | released plaintext live retrieves ends => exact ⟨tid, thread, _, found, claims, did, ends⟩
    | cancelled live deletes ends => exact ⟨tid, thread, _, found, claims, did, ends⟩
  · exact absurd passed (not_le_of_gt (unexpired expiry expires))

/-- Every removal is accounted for by the answers of the calls; with a clock that
is never set back, so is every record that is missing before its expiry. -/
theorem removals_accounted (run : Run (vaultStart aead clock) labels config) :
    AnswersAccount config ∧
      (RunWhere MonotoneClock (vaultStart aead clock) labels config → NoneVanished config) :=
  ⟨answersAccount run, noneVanished⟩

/-- A cancelled record is missing, and a call that was told so accounts for it. -/
theorem removals_accounted_cancelled :
    ∃ labels, ∃ config : Config (vaultSystem .keyed),
      RunWhere MonotoneClock (vaultStart .keyed .epoch) labels config ∧
      config.shared.records[FixedBytes.replicate 16 0]? = none ∧
      ∃ tid thread reply, config.threads tid = some thread ∧
        thread.call.Claims (.replicate 16 0) ∧ thread.WillReturn (.ok reply) := by
  obtain ⟨labels, config, cancelling, cancelled, found, free, shown, absent, stored, _⟩ :=
    @cancellation_alone .keyed MonotoneClock ⟨[7]⟩ (.replicate 32 1) (.replicate 12 0) _ rfl
      (.replicate 16 0) .epoch
      (fun config label harmless now drifts => absurd drifts (harmless.byCall now)) (by simp [MonotoneClock])
  obtain ⟨tid, thread, reply, foundThread, claims, _, returns⟩ :=
    (removals_accounted cancelled.run).2 cancelled _ _ stored absent
      fun expiry expires => nomatch expires
  exact ⟨labels, config, cancelled, absent, tid, thread, reply, foundThread, claims, returns⟩

end TariVault
