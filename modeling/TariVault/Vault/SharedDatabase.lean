import TariVault.Vault.AloneOverSqlite

namespace TariVault

open Program VaultEvent TariVault.System Refinement

/-! # What processes that share a database can rely on

The guarantees hold for calls that interleave statement by statement, also when
statements fail and processes are killed.
-/

/-- An empty table. -/
def DatabaseState.opened (clock : DateTime) : DatabaseState where
  table := ∅
  mutexes _ := none
  clock := clock
  readings := [clock]
  drawn := []
  stopped := []

variable {chrono : Chrono} {connection : Nat → Nat} {aead : Aead} {may : DateTime → DateTime → Prop} {clock : DateTime}
  {labels labels' : List (Label (sqliteVaults chrono connection aead).low)}
  {middle last : Config (sqliteVaults chrono connection aead).low} {recordId : RecordId}

theorem databaseAgrees_opened (fourDigits : clock.FourDigits) :
    DatabaseAgrees chrono (.opened clock) (.initial clock) where
  tabulates := .empty
  clock := rfl
  readings := rfl
  drawn := rfl
  shown := List.mem_singleton_self clock
  fourDigits := List.forall_mem_singleton.mpr fourDigits

theorem database_start (documented : chrono.Documented) {state : DatabaseState} {vault : VaultState}
    {timely : Nat → DateTime → Prop} (agrees : DatabaseAgrees chrono state vault) :
    (sqliteRefinement documented connection aead may timely).Related (Config.start state) (Config.start vault) :=
  Refinement.related_start agrees fun _ => trivial

/-- The calls of any number of processes take turns over an empty table. -/
theorem database_turns {high high' : Config (vaultSystem .keyed)} (before : Turns may (vaultStart .keyed .epoch) high)
    (after : Turns may high high') :
    ∃ labels labels', ∃ middle last : Config (sqliteVaults .concrete id .keyed).low,
      RunWhere (Readable .concrete id .keyed may) (Config.start (.opened .epoch)) labels middle ∧
      RunWhere (Readable .concrete id .keyed may) middle labels' last ∧
      Plays (fun _ => id) (Settled .concrete) middle high ∧ Plays (fun _ => id) (Settled .concrete) last high' := by
  have start : @Plays .keyed _ _ (sqliteVaults .concrete id .keyed) (fun _ => id) (Settled .concrete)
      (Config.start (.opened .epoch)) (vaultStart .keyed .epoch) :=
    ⟨⟨databaseAgrees_opened (by decide), fun _ => rfl, rfl⟩, fun _ _ => rfl, fun _ _ found => by cases found⟩
  obtain ⟨labels, middle, run, plays⟩ := before.played (database_takesTurns Chrono.concrete_documented) start
  obtain ⟨labels', last, run', plays'⟩ := after.played (database_takesTurns Chrono.concrete_documented) plays
  exact ⟨labels, labels', middle, last, run, run', plays, plays'⟩

/-- However the calls of any number of processes interleave over the database, whichever
statements fail and processes are killed, one run of single storage operations goes
along: after every step it has the same calls and the same answers, and the table has
the rows of its records. What has returned at a point of the one has returned at that
point of the other, and what starts afterwards starts afterwards. -/
theorem database_vaults_linearise (documented : chrono.Documented) {state : DatabaseState} {vault : VaultState}
    (agrees : DatabaseAgrees chrono state vault)
    {steps : List (Label (sqliteVaults chrono connection aead).low × Config (sqliteVaults chrono connection aead).low)}
    (run : Passage (Readable chrono connection aead may) (Config.start state) steps last) :
    ∃ ops last', Alongside (fun config op _ => ClockMay may config op) (Tabulated chrono) (Config.start state)
      (Config.start vault) steps last ops last' := by
  obtain ⟨ops, last', along⟩ := tabulated_alongside (database_start documented agrees) run
  exact ⟨ops, last', along.mono (fun _ _ _ => id) fun _ _ => tabulated_of_related⟩

/-- Two processes claim a proof at once, and both are given it. -/
theorem database_vaults_linearise_claimed :
    ∃ steps steps', ∃ middle last : Config (sqliteVaults .concrete id .keyed).low,
      ∃ started started' claiming claiming',
      Passage (Readable .concrete id .keyed (· ≤ ·)) (Config.start (.opened .epoch)) steps middle ∧
      Passage (Readable .concrete id .keyed (· ≤ ·)) middle steps' last ∧
      middle.threads 1 = some started ∧ (∀ result, ¬ started.Returned result) ∧
      middle.threads 2 = some started' ∧ (∀ result, ¬ started'.Returned result) ∧
      last.threads 1 = some claiming ∧ claiming.Returned (.ok (.proof ⟨[7]⟩)) ∧
      last.threads 2 = some claiming' ∧ claiming'.Returned (.ok (.proof ⟨[7]⟩)) ∧
      ∃ ops last', Alongside (fun config op _ => ClockMay (· ≤ ·) config op) (Tabulated .concrete)
        (Config.start (.opened .epoch)) (vaultStart .keyed .epoch) (steps ++ steps') last ops last' := by
  obtain ⟨_, _, _, _, _, _, _, _, before, after, inFlight, inFlight', given, given', _⟩ := claimed_together
  obtain ⟨_, _, middle, last, run, run', plays, plays'⟩ := database_turns before after
  obtain ⟨steps, passage⟩ := Passage.of_run run
  obtain ⟨steps', passage'⟩ := Passage.of_run run'
  obtain ⟨_, found⟩ := plays.present 1 _ inFlight
  obtain ⟨_, found'⟩ := plays.present 2 _ inFlight'
  obtain ⟨_, ended⟩ := plays'.present 1 _ given
  obtain ⟨_, ended'⟩ := plays'.present 2 _ given'
  exact ⟨steps, steps', middle, last, _, _, _, _, passage, passage', found, (fun _ returned => by cases returned),
    found', (fun _ returned => by cases returned), ended, rfl, ended', rfl,
    database_vaults_linearise Chrono.concrete_documented (databaseAgrees_opened (by decide)) (passage.trans passage')⟩

/-- Any clock whose years have four digits. -/
abbrev DatabaseRun (chrono : Chrono) (connection : Nat → Nat) (aead : Aead) (clock : DateTime)
    (labels : List (Label (sqliteVaults chrono connection aead).low))
    (config : Config (sqliteVaults chrono connection aead).low) : Prop :=
  clock.FourDigits ∧
    RunWhere (Readable chrono connection aead fun _ _ => True) (Config.start (.opened clock)) labels config

/-- A claim that has succeeded is final: the row is never in the table again, and a call
of any process that claims it afterwards finds nothing or meets a failure of the
database. -/
theorem database_consumption_final (documented : chrono.Documented)
    (before : DatabaseRun chrono connection aead clock labels middle)
    (after : RunWhere (Readable chrono connection aead fun _ _ => True) middle labels' last) {tid : Nat}
    {thread : Thread (sqliteVaults chrono connection aead).low} (found : middle.threads tid = some thread)
    (claims : thread.call.Claims recordId) {reply : Reply} (succeeded : thread.Returned (.ok reply)) :
    last.shared.table[recordId]? = none ∧
      ∀ tid' thread' result, middle.threads tid' = none → last.threads tid' = some thread' →
        thread'.call.Claims recordId → thread'.Returned result →
        result = .error .proofNotFound ∨ ∃ error, result = .error (.storage error) := by
  obtain ⟨fourDigits, ran⟩ := before
  obtain ⟨ops, ops', middle', last', ran, tabulated, ran', tabulated'⟩ :=
    tabulated_runs (database_start documented (databaseAgrees_opened fourDigits)) ran after
  obtain ⟨absent, refused⟩ := tabulated.toMirrored.final tabulated'.toMirrored ran.run ran'.run found claims succeeded
  refine ⟨?_, refused⟩
  have row := tabulated'.represents.lookup recordId
  rw [absent] at row
  exact row

/-- The second claim finds nothing. -/
theorem database_consumption_final_twice :
    ∃ labels labels', ∃ middle last : Config (sqliteVaults .concrete id .keyed).low, ∃ claiming missing result,
      DatabaseRun .concrete id .keyed .epoch labels middle ∧
      RunWhere (Readable .concrete id .keyed fun _ _ => True) middle labels' last ∧
      middle.threads 1 = some claiming ∧ claiming.Returned (.ok (.proof ⟨[7]⟩)) ∧
      last.shared.table[(FixedBytes.replicate 16 0 : RecordId)]? = none ∧
      last.threads 2 = some missing ∧ missing.Returned result ∧
      (result = .error .proofNotFound ∨ ∃ error, result = .error (.storage error)) := by
  obtain ⟨_, _, _, _, _, before, after, _, claims, free, misses⟩ := @claimed_in_turn fun _ _ => True
  obtain ⟨labels, labels', middle, last, run, run', plays, plays'⟩ := database_turns before after
  obtain ⟨_, found⟩ := plays.present 1 _ claims
  obtain ⟨_, found'⟩ := plays'.present 2 _ misses
  have started : DatabaseRun .concrete id .keyed .epoch labels middle := ⟨by decide, run⟩
  obtain ⟨absent, refused⟩ := database_consumption_final Chrono.concrete_documented started run' found
    (.inl ⟨_, _, rfl, ClaimId.decode_encode ⟨.replicate 16 0, .replicate 32 1⟩, rfl⟩) rfl
  exact ⟨labels, labels', middle, last, _, _, .error .proofNotFound, started, run', found, rfl, absent, found', rfl,
    refused 2 _ _ (plays.absent 2 free) found'
      (.inl ⟨_, _, rfl, ClaimId.decode_encode ⟨.replicate 16 0, .replicate 32 1⟩, rfl⟩) rfl⟩

/-- Whoever presents the claim string of a store is given the payload that was stored,
or none. -/
theorem database_payload_exact (documented : chrono.Documented) (opens : aead.Opens)
    (run : DatabaseRun chrono connection aead clock labels last) {tid tid' : Nat}
    {storing retrieving : Thread (sqliteVaults chrono connection aead).low}
    {proof : PlaintextProof} {expiresInSecs : Option UInt64} {claimIdStr : String}
    (found : last.threads tid = some storing) (stores : storing.call = .storeProof proof expiresInSecs)
    (stored : storing.Returned (.ok (.claimId claimIdStr)))
    (found' : last.threads tid' = some retrieving) (retrieves : retrieving.call = .retrieveProof claimIdStr)
    {reply : Reply} (returned : retrieving.Returned (.ok reply)) : reply = .proof proof := by
  obtain ⟨fourDigits, ran⟩ := run
  obtain ⟨ops, last', ran, related⟩ :=
    tabulated_run (database_start documented (databaseAgrees_opened fourDigits)) ran
  exact related.mirrored.exact opens ran.run found stores stored found' retrieves returned

/-- One process stores a proof, and another is given it. -/
theorem database_payload_exact_claimed :
    ∃ labels, ∃ config : Config (sqliteVaults .concrete id .keyed).low, ∃ claiming reply,
      DatabaseRun .concrete id .keyed .epoch labels config ∧ config.threads 1 = some claiming ∧
      claiming.call = .retrieveProof (ClaimId.encode ⟨.replicate 16 0, .replicate 32 1⟩) ∧
      claiming.Returned (.ok reply) ∧ reply = .proof ⟨[7]⟩ := by
  obtain ⟨_, _, _, _, _, before, after, stores, claims, _⟩ := @claimed_in_turn fun _ _ => True
  obtain ⟨labels, _, config, _, run, _, plays, _⟩ := database_turns before after
  obtain ⟨_, found⟩ := plays.present 0 _ stores
  obtain ⟨_, found'⟩ := plays.present 1 _ claims
  have started : DatabaseRun .concrete id .keyed .epoch labels config := ⟨by decide, run⟩
  exact ⟨labels, config, _, .proof ⟨[7]⟩, started, found', rfl, rfl,
    database_payload_exact Chrono.concrete_documented Aead.keyed_opens started found rfl rfl found' rfl rfl⟩

/-- The row of a store that has returned is in the table at every moment from then on,
whatever fails or is killed, until a call that claims it takes it out and succeeds if it
returns, or until a clock that does not go back has reached its expiry. -/
theorem database_acknowledged_kept (documented : chrono.Documented) (fourDigits : clock.FourDigits)
    (run : RunWhere (Readable chrono connection aead (· ≤ ·)) (Config.start (.opened clock)) labels last)
    {tid : Nat} {storing : Thread (sqliteVaults chrono connection aead).low} {proof : PlaintextProof}
    {expiresInSecs : Option UInt64} {claimIdStr : String} (found : last.threads tid = some storing)
    (stores : storing.call = .storeProof proof expiresInSecs) (stored : storing.Returned (.ok (.claimId claimIdStr))) :
    ∃ ops last', ∃ draft : Draft aead proof, RunWhere (ClockMay (· ≤ ·)) (vaultStart aead clock) ops last' ∧
      Tabulated chrono last last' ∧ claimIdStr = draft.claimId.encode ∧
      (expiresInSecs = none → draft.expiresAt = none) ∧
      (last.shared.table[draft.recordId]? = some (SqliteStore.rowOf chrono draft.record) ∨
        (∃ tid', TakenBy (Readable chrono connection aead (· ≤ ·)) last last' draft.recordId tid') ∨
        ∃ expiry, draft.expiresAt = some expiry ∧ expiry ≤ last.shared.clock) := by
  obtain ⟨ops, last', ran, related⟩ :=
    tabulated_run (database_start documented (databaseAgrees_opened fourDigits)) run
  have tabulated := tabulated_of_related related
  obtain ⟨draft, same, never, kept⟩ := related.kept
    (fun _ _ readable => meets_of_readable readable fun _ _ _ => trivial) ran found stores stored
  refine ⟨ops, last', draft, ran, tabulated, same, never, ?_⟩
  rw [tabulated.clock] at kept
  refine kept.imp_left fun present => ?_
  have row := tabulated.represents.lookup draft.recordId
  rw [present] at row
  exact row

/-- A proof is stored, another one expires and is swept, and a retrieval with another
key is refused. The row of the first is there. -/
theorem database_acknowledged_kept_swept :
    ∃ labels, ∃ last : Config (sqliteVaults .concrete id .keyed).low, ∃ storing sweeping refused,
      RunWhere (Readable .concrete id .keyed (· ≤ ·)) (Config.start (.opened .epoch)) labels last ∧
      last.threads 0 = some storing ∧
      storing.Returned (.ok (.claimId (ClaimId.encode ⟨.replicate 16 0, .replicate 32 1⟩))) ∧
      last.threads 2 = some sweeping ∧ sweeping.Returned (.ok (.removed 1)) ∧
      last.threads 3 = some refused ∧ refused.Returned (.error .decryptionFailed) ∧
      ∃ ops last', ∃ draft : Draft .keyed ⟨[7]⟩, RunWhere (ClockMay (· ≤ ·)) (vaultStart .keyed .epoch) ops last' ∧
        Tabulated .concrete last last' ∧ draft.expiresAt = none ∧
        (last.shared.table[draft.recordId]? = some (SqliteStore.rowOf .concrete draft.record) ∨
          (∃ tid, TakenBy (Readable .concrete id .keyed (· ≤ ·)) last last' draft.recordId tid) ∨
          ∃ expiry, draft.expiresAt = some expiry ∧ expiry ≤ last.shared.clock) := by
  have forward : DateTime.epoch ≤ ⟨2000000000, by decide, by decide⟩ := by decide
  obtain ⟨_, _, _, _, _, _, before, after, stores, sweeps, refuses, _⟩ := swept_and_cancelled forward
  obtain ⟨labels, _, last, _, run, _, plays, _⟩ := database_turns before after
  obtain ⟨_, found⟩ := plays.present 0 _ stores
  obtain ⟨_, found'⟩ := plays.present 2 _ sweeps
  obtain ⟨_, found''⟩ := plays.present 3 _ refuses
  have start : DateTime.epoch.FourDigits := by decide
  obtain ⟨ops, last', draft, ran, tabulated, _, never, kept⟩ :=
    database_acknowledged_kept Chrono.concrete_documented start run found rfl rfl
  exact ⟨labels, last, _, _, _, run, found, rfl, found', rfl, found'', rfl, ops, last', draft, ran, tabulated,
    never rfl, kept⟩

end TariVault
