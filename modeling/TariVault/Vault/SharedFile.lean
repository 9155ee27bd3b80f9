import TariVault.Vault.AloneOverFiles
import TariVault.Vault.Mirrored
import TariVault.Vault.OverFiles

namespace TariVault

open Program TariVault.System Refinement

/-! # What processes that share a vault file can rely on

The guarantees hold for calls that interleave step by step over the file system, also
when steps fail and processes are killed.
-/

variable {serde : Serde} {aead : Aead} {may : DateTime → DateTime → Prop} {bytes : Bytes} {clock : DateTime}
  {labels labels' : List (Label (fileVaults serde aead).low)}
  {middle last : Config (fileVaults serde aead).low} {recordId : RecordId}

theorem agrees_opened (empty : DiskState.fromSlice serde bytes = .ok ∅) :
    Agrees serde (.opened bytes clock) (.initial clock) where
  holds := ⟨bytes, ∅, rfl, empty, .empty⟩
  clock := rfl
  readings := rfl
  drawn := rfl
  shown := List.mem_singleton_self clock

theorem file_start (readsBack : serde.ReadsBack) {timely : Nat → DateTime → Prop}
    (empty : DiskState.fromSlice serde bytes = .ok ∅) :
    (fileRefinement readsBack aead may timely).Related (Config.start (.opened bytes clock)) (vaultStart aead clock) :=
  related_start (agrees_opened empty) rfl

theorem explained_runs {readsBack : serde.ReadsBack} {first : Config (fileVaults serde aead).low}
    {first' : Config (vaultSystem aead)}
    (start : (fileRefinement readsBack aead may fun _ _ => True).Related first first')
    (before : RunWhere (Considered serde aead may) first labels middle)
    (after : RunWhere (Considered serde aead may) middle labels' last) :
    ∃ ops ops' middle' last', RunWhere (ClockMay may) first' ops middle' ∧ Explained serde middle middle' ∧
      RunWhere (ClockMay may) middle' ops' last' ∧ Explained serde last last' := by
  obtain ⟨ops, middle', ran, related⟩ := explained_run start before
  obtain ⟨ops', last', ran', related'⟩ := explained_run related after
  exact ⟨ops, ops', middle', last', ran, explained_of_related related, ran', explained_of_related related'⟩

theorem file_plays (empty : DiskState.fromSlice serde bytes = .ok ∅) :
    @Plays aead _ _ (fileVaults serde aead) fileHome (Resting serde) (Config.start (.opened bytes clock))
      (vaultStart aead clock) where
  rests := ⟨agrees_opened empty, rfl, rfl⟩
  absent _ _ := rfl
  present _ _ found := by cases found

/-- The calls of any number of processes take turns over an empty vault file. -/
theorem file_turns {high high' : Config (vaultSystem .keyed)} (before : Turns may (vaultStart .keyed .epoch) high)
    (after : Turns may high high') :
    ∃ bytes labels labels', ∃ middle last : Config (fileVaults .concrete .keyed).low,
      DiskState.fromSlice .concrete bytes = .ok ∅ ∧
      RunWhere (Considered .concrete .keyed may) (Config.start (.opened bytes .epoch)) labels middle ∧
      RunWhere (Considered .concrete .keyed may) middle labels' last ∧
      Plays fileHome (Resting .concrete) middle high ∧ Plays fileHome (Resting .concrete) last high' := by
  let bytes := Json.toBytes (Json.print [])
  have empty : DiskState.fromSlice .concrete bytes = .ok ∅ := DiskState.fromSlice_concrete_empty
  obtain ⟨labels, middle, run, plays⟩ :=
    before.played (file_takesTurns Serde.concrete_readsBack) (file_plays empty)
  obtain ⟨labels', last, run', plays'⟩ := after.played (file_takesTurns Serde.concrete_readsBack) plays
  exact ⟨bytes, labels, labels', middle, last, empty, run, run', plays, plays'⟩

/-- However the calls of any number of processes interleave over the file system,
whichever steps fail, futures are dropped and processes are killed, one run of single
storage operations goes along: after every step it has the same calls and the same
answers, and the vault file holds its records. What has returned at a point of the one
has returned at that point of the other, and what starts afterwards starts afterwards. -/
theorem file_vaults_linearise (readsBack : serde.ReadsBack) {state : HostState} {vault : VaultState}
    (agrees : Agrees serde state vault) (free : state.files.sidecar = none)
    {steps : List (Label (fileVaults serde aead).low × Config (fileVaults serde aead).low)}
    (run : Passage (Considered serde aead may) (Config.start state) steps last) :
    ∃ ops last', Alongside (fun config op _ => ClockMay may config op) (Explained serde) (Config.start state)
      (Config.start vault) steps last ops last' := by
  obtain ⟨ops, last', along⟩ := explained_alongside (@related_start _ aead may _ readsBack _ _ agrees free) run
  exact ⟨ops, last', along.mono (fun _ _ _ => id) fun _ _ => explained_of_related⟩

/-- Two processes claim a proof at once, and both are given it. -/
theorem file_vaults_linearise_claimed :
    ∃ bytes steps steps', ∃ middle last : Config (fileVaults .concrete .keyed).low,
      ∃ started started' claiming claiming',
      Passage (Considered .concrete .keyed (· ≤ ·)) (Config.start (.opened bytes .epoch)) steps middle ∧
      Passage (Considered .concrete .keyed (· ≤ ·)) middle steps' last ∧
      middle.threads 1 = some started ∧ (∀ result, ¬ started.Returned result) ∧
      middle.threads 2 = some started' ∧ (∀ result, ¬ started'.Returned result) ∧
      last.threads 1 = some claiming ∧ claiming.Returned (.ok (.proof ⟨[7]⟩)) ∧
      last.threads 2 = some claiming' ∧ claiming'.Returned (.ok (.proof ⟨[7]⟩)) ∧
      ∃ ops last', Alongside (fun config op _ => ClockMay (· ≤ ·) config op) (Explained .concrete)
        (Config.start (.opened bytes .epoch)) (vaultStart .keyed .epoch) (steps ++ steps') last ops last' := by
  obtain ⟨_, _, _, _, _, _, _, _, before, after, inFlight, inFlight', given, given', _⟩ := claimed_together
  obtain ⟨bytes, _, _, middle, last, empty, run, run', plays, plays'⟩ := file_turns before after
  obtain ⟨steps, passage⟩ := Passage.of_run run
  obtain ⟨steps', passage'⟩ := Passage.of_run run'
  obtain ⟨_, found⟩ := plays.present 1 _ inFlight
  obtain ⟨_, found'⟩ := plays.present 2 _ inFlight'
  obtain ⟨_, ended⟩ := plays'.present 1 _ given
  obtain ⟨_, ended'⟩ := plays'.present 2 _ given'
  exact ⟨bytes, steps, steps', middle, last, _, _, _, _, passage, passage', found, (fun _ returned => by cases returned),
    found', (fun _ returned => by cases returned), ended, rfl, ended', rfl,
    file_vaults_linearise Serde.concrete_readsBack (agrees_opened empty) rfl (passage.trans passage')⟩

/-- Any clock. -/
abbrev FileRun (serde : Serde) (aead : Aead) (bytes : Bytes) (clock : DateTime)
    (labels : List (Label (fileVaults serde aead).low)) (config : Config (fileVaults serde aead).low) : Prop :=
  RunWhere (Considered serde aead fun _ _ => True) (Config.start (.opened bytes clock)) labels config

/-- A claim that has succeeded is final: the record is never in the vault file again,
and a call of any process that claims it afterwards finds nothing or meets a failure
of the file system. -/
theorem file_consumption_final (readsBack : serde.ReadsBack)
    (empty : DiskState.fromSlice serde bytes = .ok ∅) (before : FileRun serde aead bytes clock labels middle)
    (after : RunWhere (Considered serde aead fun _ _ => True) middle labels' last) {tid : Nat}
    {thread : Thread (fileVaults serde aead).low} (found : middle.threads tid = some thread)
    (claims : thread.call.call.Claims recordId) {reply : Reply} (succeeded : thread.Returned (.ok reply)) :
    (∃ contents, Holds serde last.shared.files.disk contents ∧ contents[recordId]? = none) ∧
      ∀ tid' thread' result, middle.threads tid' = none → last.threads tid' = some thread' →
        thread'.call.call.Claims recordId → thread'.Returned result →
        result = .error .proofNotFound ∨ ∃ error, result = .error (.storage error) := by
  obtain ⟨ops, ops', middle', last', ran, explained, ran', explained'⟩ :=
    explained_runs (file_start readsBack empty) before after
  obtain ⟨absent, refused⟩ := explained.toMirrored.final explained'.toMirrored ran.run ran'.run found claims succeeded
  exact ⟨⟨_, explained'.holds, absent⟩, refused⟩

/-- The second claim finds nothing. -/
theorem file_consumption_final_twice :
    ∃ bytes labels labels', ∃ middle last : Config (fileVaults .concrete .keyed).low, ∃ claiming missing result,
      FileRun .concrete .keyed bytes .epoch labels middle ∧
      RunWhere (Considered .concrete .keyed fun _ _ => True) middle labels' last ∧
      middle.threads 1 = some claiming ∧ claiming.Returned (.ok (.proof ⟨[7]⟩)) ∧
      (∃ contents, Holds .concrete last.shared.files.disk contents ∧
        contents[(FixedBytes.replicate 16 0 : RecordId)]? = none) ∧
      last.threads 2 = some missing ∧ missing.Returned result ∧
      (result = .error .proofNotFound ∨ ∃ error, result = .error (.storage error)) := by
  obtain ⟨_, _, _, _, _, before, after, _, claims, free, misses⟩ := @claimed_in_turn fun _ _ => True
  obtain ⟨bytes, labels, labels', middle, last, empty, run, run', plays, plays'⟩ := file_turns before after
  obtain ⟨_, found⟩ := plays.present 1 _ claims
  obtain ⟨_, found'⟩ := plays'.present 2 _ misses
  obtain ⟨absent, refused⟩ := file_consumption_final Serde.concrete_readsBack empty run run' found
    (.inl ⟨_, _, rfl, ClaimId.decode_encode ⟨.replicate 16 0, .replicate 32 1⟩, rfl⟩) rfl
  exact ⟨bytes, labels, labels', middle, last, _, _, .error .proofNotFound, run, run', found, rfl, absent, found', rfl,
    refused 2 _ _ (plays.absent 2 free) found'
      (.inl ⟨_, _, rfl, ClaimId.decode_encode ⟨.replicate 16 0, .replicate 32 1⟩, rfl⟩) rfl⟩

/-- Whoever presents the claim string of a store is given the payload that was stored,
or none. -/
theorem file_payload_exact (readsBack : serde.ReadsBack) (opens : aead.Opens)
    (empty : DiskState.fromSlice serde bytes = .ok ∅) (run : FileRun serde aead bytes clock labels last)
    {tid tid' : Nat} {storing retrieving : Thread (fileVaults serde aead).low}
    {proof : PlaintextProof} {expiresInSecs : Option UInt64} {claimIdStr : String}
    (found : last.threads tid = some storing) (stores : storing.call.call = .storeProof proof expiresInSecs)
    (stored : storing.Returned (.ok (.claimId claimIdStr)))
    (found' : last.threads tid' = some retrieving) (retrieves : retrieving.call.call = .retrieveProof claimIdStr)
    {reply : Reply} (returned : retrieving.Returned (.ok reply)) : reply = .proof proof := by
  obtain ⟨ops, last', ran, related⟩ := explained_run (file_start readsBack empty) run
  exact related.mirrored.exact opens ran.run found stores stored found' retrieves returned

/-- One process stores a proof, and another is given it. -/
theorem file_payload_exact_claimed :
    ∃ bytes labels, ∃ config : Config (fileVaults .concrete .keyed).low, ∃ claiming reply,
      FileRun .concrete .keyed bytes .epoch labels config ∧ config.threads 1 = some claiming ∧
      claiming.call = ⟨⟨true, 1⟩, .retrieveProof (ClaimId.encode ⟨.replicate 16 0, .replicate 32 1⟩)⟩ ∧
      claiming.Returned (.ok reply) ∧ reply = .proof ⟨[7]⟩ := by
  obtain ⟨_, _, _, _, _, before, after, stores, claims, _⟩ := @claimed_in_turn fun _ _ => True
  obtain ⟨bytes, labels, _, config, _, empty, run, _, plays, _⟩ := file_turns before after
  obtain ⟨_, found⟩ := plays.present 0 _ stores
  obtain ⟨_, found'⟩ := plays.present 1 _ claims
  exact ⟨bytes, labels, config, _, .proof ⟨[7]⟩, run, found', rfl, rfl,
    file_payload_exact Serde.concrete_readsBack Aead.keyed_opens empty run found rfl rfl found' rfl rfl⟩

/-- The clock does not go back. -/
abbrev FileRunForward (serde : Serde) (aead : Aead) (bytes : Bytes) (clock : DateTime)
    (labels : List (Label (fileVaults serde aead).low)) (config : Config (fileVaults serde aead).low) : Prop :=
  RunWhere (Considered serde aead (· ≤ ·)) (Config.start (.opened bytes clock)) labels config

/-- The record of a store that has returned is in the vault file at every moment from
then on, whatever fails or is killed, until a call that claims it takes it out and
succeeds if it returns, or until the clock has reached its expiry. -/
theorem file_acknowledged_kept (readsBack : serde.ReadsBack)
    (empty : DiskState.fromSlice serde bytes = .ok ∅) (run : FileRunForward serde aead bytes clock labels last)
    {tid : Nat} {storing : Thread (fileVaults serde aead).low} {proof : PlaintextProof}
    {expiresInSecs : Option UInt64} {claimIdStr : String} (found : last.threads tid = some storing)
    (stores : storing.call.call = .storeProof proof expiresInSecs)
    (stored : storing.Returned (.ok (.claimId claimIdStr))) :
    ∃ ops last', ∃ draft : Draft aead proof, RunWhere (ClockMay (· ≤ ·)) (vaultStart aead clock) ops last' ∧
      Explained serde last last' ∧ claimIdStr = draft.claimId.encode ∧
      (expiresInSecs = none → draft.expiresAt = none) ∧
      (last'.shared.records[draft.recordId]? = some draft.record ∨
        (∃ tid', TakenBy (Considered serde aead (· ≤ ·)) last last' draft.recordId tid') ∨
        ∃ expiry, draft.expiresAt = some expiry ∧ expiry ≤ last.shared.files.clock) := by
  obtain ⟨ops, last', ran, related⟩ := explained_run (file_start readsBack empty) run
  have explained := explained_of_related related
  obtain ⟨draft, same, never, kept⟩ := related.kept
    (fun _ _ considered => meets_of_considered considered fun _ _ _ => trivial) ran found stores stored
  rw [explained.clock] at kept
  exact ⟨ops, last', draft, ran, explained, same, never, kept⟩

/-- A proof is stored, another one expires and is swept, and a retrieval with another
key is refused. The record of the first is there. -/
theorem file_acknowledged_kept_swept :
    ∃ bytes labels, ∃ last : Config (fileVaults .concrete .keyed).low, ∃ storing sweeping refused,
      FileRunForward .concrete .keyed bytes .epoch labels last ∧
      last.threads 0 = some storing ∧
      storing.Returned (.ok (.claimId (ClaimId.encode ⟨.replicate 16 0, .replicate 32 1⟩))) ∧
      last.threads 2 = some sweeping ∧ sweeping.Returned (.ok (.removed 1)) ∧
      last.threads 3 = some refused ∧ refused.Returned (.error .decryptionFailed) ∧
      ∃ ops last', ∃ draft : Draft .keyed ⟨[7]⟩, RunWhere (ClockMay (· ≤ ·)) (vaultStart .keyed .epoch) ops last' ∧
        Explained .concrete last last' ∧ draft.expiresAt = none ∧
        (last'.shared.records[draft.recordId]? = some draft.record ∨
          (∃ tid, TakenBy (Considered .concrete .keyed (· ≤ ·)) last last' draft.recordId tid) ∨
          ∃ expiry, draft.expiresAt = some expiry ∧ expiry ≤ last.shared.files.clock) := by
  have forward : DateTime.epoch ≤ ⟨2000000000, by decide, by decide⟩ := by decide
  obtain ⟨_, _, _, _, _, _, before, after, stores, sweeps, refuses, _⟩ := swept_and_cancelled forward
  obtain ⟨bytes, labels, _, last, _, empty, run, _, plays, _⟩ := file_turns before after
  obtain ⟨_, found⟩ := plays.present 0 _ stores
  obtain ⟨_, found'⟩ := plays.present 2 _ sweeps
  obtain ⟨_, found''⟩ := plays.present 3 _ refuses
  obtain ⟨ops, last', draft, ran, explained, _, never, kept⟩ :=
    file_acknowledged_kept Serde.concrete_readsBack empty run found rfl rfl
  exact ⟨bytes, labels, last, _, _, _, run, found, rfl, found', rfl, found'', rfl, ops, last', draft, ran, explained,
    never rfl, kept⟩

/-- A call of any process that claims a record after its expiry gets nothing. -/
theorem file_late_claims_refused (readsBack : serde.ReadsBack)
    (empty : DiskState.fromSlice serde bytes = .ok ∅) (before : FileRunForward serde aead bytes clock labels middle)
    (after : RunWhere (Considered serde aead (· ≤ ·)) middle labels' last) {contents : Contents}
    {record : StoredRecord} (holds : Holds serde middle.shared.files.disk contents)
    (present : contents[recordId]? = some record) (expired : record.ExpiredAt middle.shared.files.clock)
    {tid : Nat} {thread : Thread (fileVaults serde aead).low} (free : middle.threads tid = none)
    (found : last.threads tid = some thread) (claims : thread.call.call.Claims recordId)
    {result : Except VaultError Reply} (returned : thread.Returned result) :
    result = .error .proofExpired ∨ result = .error .proofNotFound ∨
      ∃ error, result = .error (.storage error) := by
  obtain ⟨ops, ops', middle', last', ran, explained, ran', explained'⟩ :=
    explained_runs (file_start readsBack empty) before after
  rw [holds.unique explained.holds] at present
  rw [← explained.clock] at expired
  exact explained.toMirrored.late explained'.toMirrored ran ran' present expired free found claims returned

/-- A record with a lifetime of one second, claimed two seconds later. -/
theorem file_late_claims_refused_late :
    ∃ bytes labels labels', ∃ middle last : Config (fileVaults .concrete .keyed).low, ∃ thread result,
      FileRunForward .concrete .keyed bytes .epoch labels middle ∧
      RunWhere (Considered .concrete .keyed (· ≤ ·)) middle labels' last ∧
      last.threads 1 = some thread ∧ thread.call.call.Retrieves (.replicate 16 0) ∧ thread.Returned result ∧
      (result = .error .proofExpired ∨ result = .error .proofNotFound ∨ ∃ error, result = .error (.storage error)) := by
  have forward : DateTime.epoch ≤ ⟨2000000000, by decide, by decide⟩ := by decide
  obtain ⟨_, _, _, _, expiry, _, _, before, _, after, free, stored, expires, passed, _, claims⟩ :=
    expired_in_turn forward
  obtain ⟨bytes, labels, labels', middle, last, empty, run, run', plays, plays'⟩ := file_turns before after
  obtain ⟨_, found⟩ := plays'.present 1 _ claims
  have retrieves : (VaultCall.retrieveProof (ClaimId.encode ⟨.replicate 16 0, .replicate 32 1⟩)).Retrieves
      (.replicate 16 0) := ⟨_, _, rfl, ClaimId.decode_encode _, rfl⟩
  have expired : expiry < middle.shared.files.clock := by
    rw [← plays.rests.clock]
    exact passed
  exact ⟨bytes, labels, labels', middle, last, _, .error .proofExpired, run, run', found, retrieves, rfl,
    file_late_claims_refused Serde.concrete_readsBack empty run run' plays.rests.holds stored ⟨expiry, expires, expired⟩
      (plays.absent 1 free) found (.inl retrieves) rfl⟩

end TariVault
