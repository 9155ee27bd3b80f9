import TariVault.Program.Landing
import TariVault.Vault.Expiry
import TariVault.Vault.RoundTrip

namespace TariVault

open Program VaultEvent TariVault.System

/-! # What single operations guarantee, smaller steps guarantee

Whatever carries out the storage operations, a call has answered what its counterpart
over single operations has answered. So the guarantees about answers carry over.
-/

variable {Op' : Type} {Answer' : Op' → Type} {aead : Aead}
  {real : Realisation (vaultSystem aead) Op' Answer'} {clock : DateTime}
  {labels labels' : List (Label (vaultSystem aead))} {middle last : real.low.Config}
  {middle' last' : Config (vaultSystem aead)} {recordId : RecordId} {tid tid' : Nat}
  {thread thread' : real.low.Thread}

/-- A run of single operations whose clock moves as `may` says. -/
def ClockMay (may : DateTime → DateTime → Prop) (config : Config (vaultSystem aead))
    (label : Label (vaultSystem aead)) : Prop :=
  ∀ now, label = .drift now → may config.shared.clock now

/-- An act of a call whose sweeps compare with values of the clock that are `timely`. -/
structure TimelyAct (timely : DateTime → Prop) (state : VaultState) (event : VaultEvent) (state' : VaultState) :
    Prop where
  act : VaultAct state event state'
  onTime : ∀ removed, event = swept (.ok removed) →
    ∃ captured, timely captured ∧ state'.records = (state.records.apply captured .deleteExpired).2

theorem TimelyAct.acts (timely : Nat → DateTime → Prop) {tid : Nat} {state : VaultState} {event : VaultEvent}
    {state' : VaultState} (timelyAct : TimelyAct (timely tid) state event state') : VaultAct state event state' :=
  timelyAct.act

namespace TimelyAct

variable {timely : DateTime → Prop} {state state' : VaultState}

theorem perform (op : BackendOp) {captured : DateTime} (shown : captured ∈ state.readings)
    (onTime : op = .deleteExpired → timely captured) :
    TimelyAct timely state ⟨.storage op, (state.records.apply captured op).1⟩
      { state with records := (state.records.apply captured op).2 } where
  act := .perform op shown
  onTime removed same := by
    have sweeps : op = .deleteExpired := HostOp.storage.inj (congrArg Event.op same)
    subst sweeps
    exact ⟨captured, onTime rfl, rfl⟩

theorem fail (op : BackendOp) (error : StorageError) :
    TimelyAct timely state ⟨.storage op, op.failure error⟩ state where
  act := .fail op error
  onTime removed same := by
    have sweeps : op = .deleteExpired := HostOp.storage.inj (congrArg Event.op same)
    subst sweeps
    cases same

/-- An act that is no storage operation. -/
theorem machine {event : VaultEvent} (act : VaultAct state event state') (other : ∀ op, event.op ≠ .storage op) :
    TimelyAct timely state event state' where
  act := act
  onTime _ same := absurd (congrArg Event.op same) (other _)

end TimelyAct

/-- A call that was not there at first was invoked on the way. -/
theorem System.RunWhere.invocation {Op : Type} {Answer : Op → Type} {sys : System Op Answer}
    {ok : sys.Config → sys.Label → Prop} {labels : List sys.Label} {first last : sys.Config}
    (run : RunWhere ok first labels last) (free : first.threads tid = none) {thread : sys.Thread}
    (found : last.threads tid = some thread) :
    ∃ labels₁ labels₂ before after, RunWhere ok first labels₁ before ∧
      Step before (.invoke tid thread.call) after ∧ RunWhere ok after labels₂ last := by
  induction run generalizing thread with
  | refl =>
      rw [free] at found
      contradiction
  | @snoc labels config label last run allowed step ih =>
      rcases step.thread found with unchanged | ⟨rfl, _, _, _⟩ |
        ⟨before, op, next, answer, rfl, foundBefore, _, _, sameCall, _⟩
      · obtain ⟨labels₁, labels₂, before, after, ran, invoked, ran'⟩ := ih unchanged
        exact ⟨labels₁, _, before, after, ran, invoked, .snoc ran' allowed step⟩
      · exact ⟨labels, [], config, last, run, step, .refl _⟩
      · obtain ⟨labels₁, labels₂, before', after, ran, invoked, ran'⟩ := ih foundBefore
        rw [sameCall]
        exact ⟨labels₁, _, before', after, ran, invoked, .snoc ran' allowed step⟩

namespace Refinement.Mirrored

/-- Once a claim has succeeded, its record is gone for good, and a call that claims it
later finds nothing or meets a failure of the storage. -/
theorem final (mirrored : Mirrored middle middle') (mirrored' : Mirrored last last')
    (before : Run (vaultStart aead clock) labels middle') (after : Run middle' labels' last')
    (found : middle.threads tid = some thread) (claims : (real.abstract thread.call).Claims recordId)
    {reply : Reply} (succeeded : thread.Returned (.ok reply)) :
    last'.shared.records[recordId]? = none ∧ ∀ tid' thread' result, middle.threads tid' = none →
      last.threads tid' = some thread' → (real.abstract thread'.call).Claims recordId →
      thread'.Returned result →
      result = .error .proofNotFound ∨ ∃ error, result = .error (.storage error) := by
  obtain ⟨counterpart, foundHigh, called, returns⟩ := mirrored.present tid thread found
  rw [← called] at claims
  have gone := gone_of_ok before foundHigh claims (returns _ succeeded)
  refine ⟨(gone.run before after).absent, ?_⟩
  intro tid' thread' result free found' claims' returned
  obtain ⟨counterpart', foundHigh', called', returns'⟩ := mirrored'.present tid' thread' found'
  rw [← called'] at claims'
  have unfetched := never_fetches gone before after (mirrored.absent tid' free) foundHigh'
  obtain ⟨error, _, same⟩ := returned_without_record (followed (before.trans after) tid' counterpart' foundHigh')
    claims' unfetched (returns' result returned)
  subst same
  cases error with
  | notFound => exact .inl rfl
  | io message => exact .inr ⟨_, rfl⟩
  | json message => exact .inr ⟨_, rfl⟩

variable {proof : PlaintextProof} {expiresInSecs : Option UInt64} {claimIdStr : String}

/-- A store that has returned a claim string has inserted its record. -/
theorem stored (mirrored : Mirrored last last') (run : Run (vaultStart aead clock) labels last')
    (found : last.threads tid = some thread)
    (stores : real.abstract thread.call = .storeProof proof expiresInSecs)
    (returned : thread.Returned (.ok (.claimId claimIdStr))) :
    ∃ draft : Draft aead proof, ∃ storing, claimIdStr = draft.claimId.encode ∧
      last'.threads tid = some storing ∧ storing.call = .storeProof proof expiresInSecs ∧
      storing.Did (inserted draft.recordId draft.record (.ok ())) := by
  obtain ⟨storing, foundHigh, called, returns⟩ := mirrored.present tid thread found
  have leads := followed run tid storing foundHigh
  rw [returns _ returned, called, stores] at leads
  obtain ⟨draft, reading, logs, same, insertion⟩ := insertion_of_returned leads
  refine ⟨draft, storing, same, foundHigh, called.trans stores, ?_⟩
  rw [Thread.Did, insertion.order]
  simp

/-- Whoever presents the claim string of a store and is given a payload is given the
payload that was stored. -/
theorem exact (opens : aead.Opens) (mirrored : Mirrored last last')
    (run : Run (vaultStart aead clock) labels last') (found : last.threads tid = some thread)
    (stores : real.abstract thread.call = .storeProof proof expiresInSecs)
    (returned : thread.Returned (.ok (.claimId claimIdStr))) (found' : last.threads tid' = some thread')
    (retrieves : real.abstract thread'.call = .retrieveProof claimIdStr) {reply : Reply}
    (returned' : thread'.Returned (.ok reply)) : reply = .proof proof := by
  obtain ⟨draft, storing, rfl, foundHigh, _, did⟩ := mirrored.stored run found stores returned
  obtain ⟨retrieving, foundHigh', called', returns'⟩ := mirrored.present tid' thread' found'
  have leads := followed run tid' retrieving foundHigh'
  rw [returns' _ returned', called', retrieves] at leads
  obtain ⟨_, record, nonce, plaintext, _, fetchedIt, _, nonceBytes, decrypted, answer⟩ :=
    retrieve_returned (ClaimId.decode_encode draft.claimId) leads
  have same : record = draft.record := inserted_unique (drawnOnce run) (followed run)
    ((coherent run).fetched _ record ⟨tid', retrieving, foundHigh', fetchedIt⟩) ⟨tid, storing, foundHigh, did⟩
  subst same
  have sameNonce : nonce = draft.nonce := FixedBytes.ext nonceBytes
  subst sameNonce
  have opened := (opens _ _ _ _ draft.encrypted).symm.trans decrypted
  cases opened
  exact answer

/-- A call that claims a record after its expiry gets nothing. -/
theorem late (mirrored : Mirrored middle middle') (mirrored' : Mirrored last last')
    (before : RunWhere MonotoneClock (vaultStart aead clock) labels middle')
    (after : RunWhere MonotoneClock middle' labels' last') {record : StoredRecord}
    (present : middle'.shared.records[recordId]? = some record)
    (expired : record.ExpiredAt middle'.shared.clock) (free : middle.threads tid = none)
    (found : last.threads tid = some thread) (claims : (real.abstract thread.call).Claims recordId)
    {result : Except VaultError Reply} (returned : thread.Returned result) :
    result = .error .proofExpired ∨ result = .error .proofNotFound ∨
      ∃ error, result = .error (.storage error) := by
  have whole := before.trans after
  obtain ⟨storer, storing, foundStore, did⟩ := (coherent before).stored recordId record present
  obtain ⟨later, _, foundLater, _, grown, _⟩ := after.thread_stable foundStore
  have didLater : later.Did (inserted recordId record (.ok ())) := by
    rw [Thread.Did, grown]
    exact List.mem_append_left _ did
  obtain ⟨counterpart, foundHigh, called, returns⟩ := mirrored'.present tid thread found
  obtain ⟨labels₁, labels₂, invoking, next, ran, invoked, ran'⟩ :=
    after.invocation (mirrored.absent tid free) foundHigh
  rw [← called] at claims
  have reached : middle'.shared.clock ≤ invoking.shared.clock := by
    clear invoked ran'
    induction ran with
    | refl => exact le_refl _
    | snoc _ allowed step ih => exact ih.trans (clock_le allowed step)
  obtain ⟨expiry, expires, passed⟩ := expired
  exact lateClaimsRefused whole foundLater didLater (before.trans ran) invoked ran' claims
    ⟨expiry, expires, passed.trans_le reached⟩ counterpart result foundHigh (returns result returned)

end Refinement.Mirrored

/-- A call that claims the record: in the run that explains this one its delete has
taken the record out, and however this run goes on as `ok` says, the call succeeds if it
returns. -/
structure TakenBy (ok : real.low.Config → real.low.Label → Prop) (config : real.low.Config)
    (config' : Config (vaultSystem aead)) (recordId : RecordId) (tid : Nat) : Prop where
  claims : ∃ thread, config.threads tid = some thread ∧ (real.abstract thread.call).Claims recordId
  taken : ∃ thread, config'.threads tid = some thread ∧ thread.Did (deleted recordId (.ok true))
  succeeds : ∃ reply, config.WillReturn ok tid (.ok reply)

/-- The record of a store that has returned stays, until a call that claims it takes it
out, or until the clock has reached its expiry. -/
theorem Refinement.Related.kept {refines : Refinement real} {ok : real.low.Config → real.low.Label → Prop}
    {proof : PlaintextProof} {expiresInSecs : Option UInt64} {claimIdStr : String}
    (related : refines.Related last last') (weaker : ∀ config label, ok config label → refines.Meets config label)
    (run : RunWhere MonotoneClock (vaultStart aead clock) labels last')
    (found : last.threads tid = some thread)
    (stores : real.abstract thread.call = .storeProof proof expiresInSecs)
    (returned : thread.Returned (.ok (.claimId claimIdStr))) :
    ∃ draft : Draft aead proof, claimIdStr = draft.claimId.encode ∧
      (expiresInSecs = none → draft.expiresAt = none) ∧
      (last'.shared.records[draft.recordId]? = some draft.record ∨
        (∃ tid', TakenBy ok last last' draft.recordId tid') ∨
        ∃ expiry, draft.expiresAt = some expiry ∧ expiry ≤ last'.shared.clock) := by
  obtain ⟨draft, storing, same, foundHigh, called, did⟩ := related.mirrored.stored run.run found stores returned
  have happened : Happened last' (inserted draft.recordId draft.record (.ok ())) :=
    ⟨tid, storing, foundHigh, did⟩
  refine ⟨draft, same, ?_, ?_⟩
  · intro never
    subst never
    exact expiry_of_insertion (followed run) foundHigh called did
  · cases present : last'.shared.records[draft.recordId]? with
    | some record =>
        have same := inserted_unique (drawnOnce run) (followed run)
          ((coherent run).stored _ record present) happened
        exact .inl (congrArg some same)
    | none =>
        by_cases expired : ∃ expiry, draft.expiresAt = some expiry ∧ expiry ≤ last'.shared.clock
        · exact .inr (.inr expired)
        · have unexpired : ∀ expiry, draft.record.expiresAt = some expiry → last'.shared.clock < expiry :=
            fun expiry expires => not_le.mp fun passed => expired ⟨expiry, expires, passed⟩
          obtain ⟨tid', claiming, reply, foundClaim, claims, took, will⟩ :=
            noneVanished run _ _ happened present unexpired
          refine .inr (.inl ⟨tid', ?_, ⟨claiming, foundClaim, took⟩, reply, related.willReturn weaker foundClaim will⟩)
          cases foundLow : last.threads tid' with
          | none =>
              have absent := (related.absent tid' foundLow).1
              rw [foundClaim] at absent
              contradiction
          | some thread' =>
              obtain ⟨counterpart, foundHigh', called', _⟩ := related.mirrored.present tid' thread' foundLow
              rw [foundClaim] at foundHigh'
              cases foundHigh'
              rw [called'] at claims
              exact ⟨thread', rfl, claims⟩

end TariVault
