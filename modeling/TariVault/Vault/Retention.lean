import TariVault.Program.Clocked
import TariVault.Vault.SharedDatabase
import TariVault.Vault.SharedFile

namespace TariVault

open Program VaultEvent TariVault.System

/-! # What a cleanup leaves behind

A cleanup that has succeeded has removed every record that had expired when it was
invoked, whatever happened in the meantime. It compares with a value of the clock that
it captured itself, so that with a clock that does not go back nothing escapes it.
-/

variable {aead : Aead} {clock : DateTime} {recordId : RecordId} {record : StoredRecord} {expiry : DateTime}
  {tid : Nat}

section Single

variable {may : DateTime → DateTime → Prop} {timely : Nat → DateTime → Prop}
  {labels labels' : List (Label (vaultSystem aead))} {middle last : Config (vaultSystem aead)}

/-- The clock moves as `may` says, and the sweeps of a call compare with what is timely
for it. -/
def OnTime (may : DateTime → DateTime → Prop) (timely : Nat → DateTime → Prop)
    (config : Config (vaultSystem aead)) : Label (vaultSystem aead) → Config (vaultSystem aead) → Prop
  | .invoke _ _, _ => True
  | .act tid event, last => TimelyAct (timely tid) config.shared event last.shared
  | .drift now, _ => may config.shared.clock now

/-- A cleanup that succeeds has swept, and reports what the sweep removed. -/
theorem cleanup_returned {past : List VaultEvent} {reply : Reply}
    (leads : Leads (VaultCall.cleanup.code aead) past (.done (.ok reply))) :
    ∃ removed, reply = .removed removed ∧ swept (.ok removed) ∈ past := by
  obtain ⟨middle, inside, mapped⟩ := leads.map_inv
  obtain ⟨value, rfl, converted⟩ := map_eq_done mapped.symm
  simp only [StandardVault.cleanup, run_attempt_bind, atomicBackend_deleteExpired, perform_bind] at inside
  rcases inside.step_inv with ⟨_, impossible⟩ | ⟨answer, tail, rfl, rest⟩
  · contradiction
  · cases answer with
    | error error =>
        obtain ⟨_, same⟩ := rest.done_inv
        cases same
        contradiction
    | ok removed =>
        refine ⟨removed, ?_, List.mem_cons_self⟩
        by_cases some_ : 0 < removed
        · simp only [some_, if_true, run_host_bind, Host.log, perform_bind] at rest
          rcases rest.step_inv with ⟨_, impossible⟩ | ⟨_, _, _, finished⟩
          · contradiction
          · obtain ⟨_, same⟩ := finished.done_inv
            cases same
            exact (Except.ok.inj converted).symm
        · simp only [some_, if_false] at rest
          obtain ⟨_, same⟩ := rest.done_inv
          cases same
          exact (Except.ok.inj converted).symm

theorem getElem?_sweep_due {contents : Contents} {captured : DateTime}
    (stored : contents[recordId]? = some record) (expires : record.expiresAt = some expiry)
    (due : expiry ≤ captured) : (contents.sweep captured)[recordId]? = none := by
  rw [Contents.getElem?_sweep, stored]
  simp [StoredRecord.retainedAt, expires, due]

/-- Once a timely sweep has happened, a record that was due before it is gone. -/
theorem swept_away (before : Run (vaultStart aead clock) labels middle)
    (after : RunThrough (OnTime may timely) middle labels' last)
    (present : middle.shared.records[recordId]? = some record) (expires : record.expiresAt = some expiry)
    (due : ∀ captured, timely tid captured → expiry ≤ captured) (free : middle.threads tid = none)
    {thread : Thread (vaultSystem aead)} (found : last.threads tid = some thread) {removed : Nat}
    (did : thread.Did (swept (.ok removed))) : Gone last recordId := by
  have inserted := (coherent before).stored recordId record present
  induction after generalizing thread removed with
  | refl =>
      rw [free] at found
      contradiction
  | @snoc labels' config label last ran step onTime ih =>
      have ranHere : Run middle labels' config := ran.runWhere fun _ _ _ _ => trivial
      have sofar := before.trans ranHere
      have happened : Happened config (VaultEvent.inserted recordId record (.ok ())) := by
        obtain ⟨storer, storing, foundStore, did⟩ := inserted
        obtain ⟨later, events, foundLater, _, grown, _⟩ := ranHere.thread_stable foundStore
        exact ⟨storer, later, foundLater, by rw [Thread.Did, grown]; exact List.mem_append_left _ did⟩
      obtain ⟨earlier, foundEarlier, _, old | ⟨rfl, performed, _⟩⟩ := step.did found did
      · exact (ih foundEarlier old).step (drawnOnce sofar) (followed sofar) step
      · refine ⟨⟨record, happened.step step⟩, ?_⟩
        obtain ⟨captured, timely, swept⟩ := onTime.onTime removed rfl
        rw [swept]
        cases stored : config.shared.records[recordId]? with
        | none => rw [Contents.apply, Contents.getElem?_sweep, stored]; rfl
        | some other =>
            have same := inserted_unique (drawnOnce sofar) (followed sofar)
              ((coherent sofar).stored recordId other stored) happened
            subst same
            exact getElem?_sweep_due stored expires (due captured timely)

/-- What has returned to a caller whose cleanup began when a record was due. -/
theorem Refinement.Mirrored.sweptAway {Op' : Type} {Answer' : Op' → Type}
    {real : Realisation (vaultSystem aead) Op' Answer'} {middle' last' : real.low.Config}
    (mirrored : Mirrored middle' middle) (mirrored' : Mirrored last' last)
    (before : Run (vaultStart aead clock) labels middle)
    (after : RunThrough (OnTime may timely) middle labels' last)
    (present : middle.shared.records[recordId]? = some record) (expires : record.expiresAt = some expiry)
    (due : ∀ captured, timely tid captured → expiry ≤ captured) (free : middle'.threads tid = none)
    {thread : real.low.Thread} (found : last'.threads tid = some thread)
    (cleans : real.abstract thread.call = .cleanup) {reply : Reply} (returned : thread.Returned (.ok reply)) :
    last.shared.records[recordId]? = none := by
  obtain ⟨counterpart, foundHigh, called, returns⟩ := mirrored'.present tid thread found
  have whole := before.trans (after.runWhere fun _ _ _ _ => trivial)
  have leads := followed whole tid counterpart foundHigh
  rw [returns _ returned, called, cleans] at leads
  obtain ⟨removed, _, did⟩ := cleanup_returned leads
  exact (swept_away before after present expires due (mirrored.absent tid free) foundHigh did).absent

end Single

section File

variable {serde : Serde} {bytes : Bytes} {labels labels' : List (Label (fileVaults serde aead).low)}
  {middle last : Config (fileVaults serde aead).low}

theorem HostAct.keepsClock {tid : Nat} {state state' : HostState} {event : Event (HostOp.Answer FileOp.Answer)}
    (act : HostAct tid state event state') : state'.files.clock = state.files.clock := by
  cases act with
  | respond alive performed => exact FileState.respond_keepsClock performed
  | _ => rfl

theorem fileClocked : Clocked (fileVaults serde aead).low (fun state => state.files.clock) (fun now => ⟨.now, now⟩)
    (Considered serde aead (· ≤ ·)) where
  forward config label last considered step := by
    cases step with
    | invoke free => exact le_refl _
    | act running performed =>
        have same := HostAct.keepsClock performed
        exact le_of_eq same.symm
    | @drift env shared changed =>
        simp only at changed
        subst changed
        cases env with
        | tick now => exact considered.2 now rfl
        | _ => exact le_refl _
  shows tid state now state' performed := by
    cases performed with
    | respond alive responded =>
        cases responded
        rfl

/-- A cleanup of any process that succeeds has removed every record that had expired in
the vault file before it was invoked, whatever interleaves with it, fails or is
killed. -/
theorem file_cleanup_complete (readsBack : serde.ReadsBack)
    (empty : DiskState.fromSlice serde bytes = .ok ∅) (before : FileRunForward serde aead bytes clock labels middle)
    (after : RunWhere (Considered serde aead (· ≤ ·)) middle labels' last) {contents : Contents}
    (holds : Holds serde middle.shared.files.disk contents) (present : contents[recordId]? = some record)
    (expires : record.expiresAt = some expiry) (due : expiry ≤ middle.shared.files.clock)
    (free : middle.threads tid = none) {thread : Thread (fileVaults serde aead).low}
    (found : last.threads tid = some thread) (cleans : thread.call.call = .cleanup) {reply : Reply}
    (returned : thread.Returned (.ok reply)) :
    ∃ contents', Holds serde last.shared.files.disk contents' ∧ contents'[recordId]? = none := by
  have meets {config : Config (fileVaults serde aead).low} {label : Label (fileVaults serde aead).low}
      (considered : Considered serde aead (· ≤ ·) config label)
      (since : ∀ tid now, label = .act tid ⟨.now, now⟩ →
        Since (fun state : HostState => state.files.clock) middle tid now) :
      (fileRefinement readsBack aead (· ≤ ·) (Since (fun state : HostState => state.files.clock) middle)).Meets
        config label :=
    meets_of_considered considered since
  obtain ⟨ops, middle', ran, related⟩ := (file_start readsBack empty).run (Clocked.before before fun _ _ => meets)
  obtain ⟨ops', last', ran', related'⟩ := related.run (fileClocked.after after fun _ _ => meets)
  have onTime : RunThrough (OnTime (· ≤ ·) (Since (fun state : HostState => state.files.clock) middle))
      middle' ops' last' := by
    refine ran'.weaken fun config label last explains => ?_
    cases label <;> exact explains
  rw [holds.unique related.agrees.holds] at present
  exact ⟨_, related'.agrees.holds, related.mirrored.sweptAway related'.mirrored
    (ran.runWhere fun _ _ _ _ => trivial) onTime present expires (fun captured since => due.trans (since free)) free
    found cleans returned⟩

/-- A record that has expired, and a cleanup. -/
theorem file_cleanup_complete_expired :
    ∃ bytes labels labels', ∃ middle last : Config (fileVaults .concrete .keyed).low, ∃ thread contents contents',
      FileRunForward .concrete .keyed bytes .epoch labels middle ∧
      RunWhere (Considered .concrete .keyed (· ≤ ·)) middle labels' last ∧
      Holds .concrete middle.shared.files.disk contents ∧ (.replicate 16 0 : RecordId) ∈ contents ∧
      last.threads 1 = some thread ∧ thread.call.call = .cleanup ∧ thread.Returned (.ok (.removed 1)) ∧
      Holds .concrete last.shared.files.disk contents' ∧ contents'[(FixedBytes.replicate 16 0 : RecordId)]? = none := by
  have forward : DateTime.epoch ≤ ⟨2000000000, by decide, by decide⟩ := by decide
  obtain ⟨_, _, _, _, _, _, _, before, after, _, free, stored, expires, passed, cleans, _⟩ := expired_in_turn forward
  obtain ⟨bytes, labels, labels', middle, last, empty, run, run', plays, plays'⟩ := file_turns before after
  obtain ⟨_, found⟩ := plays'.present 1 _ cleans
  rw [plays.rests.clock] at passed
  obtain ⟨contents', holds, absent⟩ := file_cleanup_complete Serde.concrete_readsBack empty run run' plays.rests.holds
    stored expires passed.le (plays.absent 1 free) found rfl rfl
  exact ⟨bytes, labels, labels', middle, last, _, _, contents', run, run', plays.rests.holds,
    Std.ExtTreeMap.mem_iff_isSome_getElem?.mpr (Option.isSome_of_eq_some stored), found, rfl, rfl, holds, absent⟩

end File

section Database

variable {chrono : Chrono} {connection : Nat → Nat}
  {labels labels' : List (Label (sqliteVaults chrono connection aead).low)}
  {middle last : Config (sqliteVaults chrono connection aead).low}

theorem DatabaseState.respond_keepsClock {state state' : DatabaseState} {connection : Nat} {op : HostOp SqlOp}
    {answer : HostOp.Answer SqlOp.Answer op} (performed : state.respond connection tid op = some (answer, state')) :
    state'.clock = state.clock := by
  unfold respond at performed
  split at performed
  · cases performed
    rfl
  · cases performed
    rfl
  · split at performed <;> cases performed
    rfl
  · cases performed
    rfl
  · cases performed
    rfl
  · contradiction

theorem databaseClocked : Clocked (sqliteVaults chrono connection aead).low DatabaseState.clock (fun now => ⟨.now, now⟩)
    (Readable chrono connection aead (· ≤ ·)) where
  forward config label last readable step := by
    cases step with
    | invoke free => exact le_refl _
    | act running performed =>
        cases performed with
        | respond alive responded => exact le_of_eq (DatabaseState.respond_keepsClock responded).symm
        | _ => exact le_refl _
    | @drift env shared changed =>
        simp only at changed
        subst changed
        cases env with
        | tick now => exact (readable.2 now rfl).2
        | kill victims => exact le_refl _
  shows tid state now state' performed := by
    cases performed with
    | respond alive responded =>
        cases responded
        rfl

/-- Whether a sweep of now removes a row is whether its record is due. -/
theorem DatabaseAgrees.dueBy_iff (documented : chrono.Documented) {state : DatabaseState} {vault : VaultState}
    (agrees : DatabaseAgrees chrono state vault) (stored : vault.records[recordId]? = some record) :
    (SqliteStore.rowOf chrono record).dueBy (chrono.toRfc3339 state.clock) ↔
      ∃ expiry, record.expiresAt = some expiry ∧ expiry ≤ state.clock := by
  have inOrder : ∀ expiry, record.expiresAt = some expiry → Rfc3339.YearsInOrder expiry.year state.clock.year :=
    fun expiry expires => Rfc3339.yearsInOrder_of_plain
      ⟨(agrees.tabulates.years recordId record stored).expiresAt expiry expires,
        agrees.tabulates.plain recordId record expiry stored expires⟩ (agrees.fourDigits _ agrees.shown)
  rw [dueBy_rowOf documented inOrder, Bool.not_eq_true']
  refine ⟨StoredRecord.retainedAt_eq_false, fun due => ?_⟩
  obtain ⟨expiry, expires, passed⟩ := due
  simp [StoredRecord.retainedAt, expires, passed]

/-- A cleanup of any process that succeeds has removed every row that had expired before
it was invoked, whatever interleaves with it, fails or is killed. -/
theorem database_cleanup_complete (documented : chrono.Documented) (fourDigits : clock.FourDigits)
    (before : RunWhere (Readable chrono connection aead (· ≤ ·)) (Config.start (.opened clock)) labels middle)
    (after : RunWhere (Readable chrono connection aead (· ≤ ·)) middle labels' last) {row : Row}
    (present : middle.shared.table[recordId]? = some row) (due : row.dueBy (chrono.toRfc3339 middle.shared.clock))
    (free : middle.threads tid = none) {thread : Thread (sqliteVaults chrono connection aead).low}
    (found : last.threads tid = some thread) (cleans : thread.call = .cleanup) {reply : Reply}
    (returned : thread.Returned (.ok reply)) : last.shared.table[recordId]? = none := by
  have meets {config : Config (sqliteVaults chrono connection aead).low}
      {label : Label (sqliteVaults chrono connection aead).low}
      (readable : Readable chrono connection aead (· ≤ ·) config label)
      (since : ∀ tid now, label = .act tid ⟨.now, now⟩ → Since DatabaseState.clock middle tid now) :
      (sqliteRefinement documented connection aead (· ≤ ·) (Since DatabaseState.clock middle)).Meets config label :=
    meets_of_readable readable since
  obtain ⟨ops, middle', ran, related⟩ :=
    (database_start documented (databaseAgrees_opened fourDigits)).run (Clocked.before before fun _ _ => meets)
  obtain ⟨ops', last', ran', related'⟩ := related.run (databaseClocked.after after fun _ _ => meets)
  have onTime : RunThrough (OnTime (· ≤ ·) (Since DatabaseState.clock middle)) middle' ops' last' := by
    refine ran'.weaken fun config label last explains => ?_
    cases label <;> exact explains
  have lookup := related.agrees.tabulates.represents.lookup recordId
  rw [id, present] at lookup
  obtain ⟨record, stored, same⟩ := Option.map_eq_some_iff.mp lookup.symm
  subst same
  obtain ⟨expiry, expires, passed⟩ := (related.agrees.dueBy_iff documented stored).mp due
  have gone := related.mirrored.sweptAway related'.mirrored (ran.runWhere fun _ _ _ _ => trivial) onTime stored expires
    (fun captured since => passed.trans (since free)) free found cleans returned
  have lookup' := related'.agrees.tabulates.represents.lookup recordId
  rw [gone] at lookup'
  exact lookup'

/-- A row that has expired, and a cleanup. -/
theorem database_cleanup_complete_expired :
    ∃ labels labels', ∃ middle last : Config (sqliteVaults .concrete id .keyed).low, ∃ thread row,
      RunWhere (Readable .concrete id .keyed (· ≤ ·)) (Config.start (.opened .epoch)) labels middle ∧
      RunWhere (Readable .concrete id .keyed (· ≤ ·)) middle labels' last ∧
      middle.shared.table[(FixedBytes.replicate 16 0 : RecordId)]? = some row ∧
      last.threads 1 = some thread ∧ thread.call = .cleanup ∧ thread.Returned (.ok (.removed 1)) ∧
      last.shared.table[(FixedBytes.replicate 16 0 : RecordId)]? = none := by
  have forward : DateTime.epoch ≤ ⟨2000000000, by decide, by decide⟩ := by decide
  obtain ⟨_, _, _, _, expiry, _, _, before, after, _, free, stored, expires, passed, cleans, _⟩ :=
    expired_in_turn forward
  obtain ⟨labels, labels', middle, last, run, run', plays, plays'⟩ := database_turns before after
  obtain ⟨_, found⟩ := plays'.present 1 _ cleans
  rw [plays.rests.clock] at passed
  have present := plays.rests.tabulates.represents.lookup (.replicate 16 0)
  rw [stored] at present
  have due := (plays.rests.toDatabaseAgrees.dueBy_iff Chrono.concrete_documented stored).mpr
    ⟨expiry, expires, passed.le⟩
  exact ⟨labels, labels', middle, last, _, _, run, run', present, found, rfl, rfl,
    database_cleanup_complete Chrono.concrete_documented (by decide) run run' present due (plays.absent 1 free) found
      rfl rfl⟩

end Database

end TariVault
