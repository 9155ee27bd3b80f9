import TariVault.Vault.Sweeps

namespace TariVault

open Program Rfc3339

/-! # The two backends on the same sequence

The file store and the SQLite store answer alike as long as SQLite can read back
the expiries it is asked for and compares them with the clock as they are.
-/

/-- A record as `store_proof` builds it from clock readings with four-digit years. -/
structure BuiltByStoreProof (record : StoredRecord) : Prop where
  storedAt : record.storedAt.FourDigits
  expiresAt : ∃ (expiresInSecs : Option UInt64) (now : DateTime), expiresInSecs ≠ some 0 ∧
    now.FourDigits ∧ (expiryAfter expiresInSecs : VaultM BackendOp.Answer _).run.run (clockAt now) () =
      some (.ok record.expiresAt, ())

/-- An expiry that is fetched has a four-digit year, and every expiry that a sweep
compares has a year whose text compares with the year of the clock as the number
does. -/
def Comparable (contents : Contents) (timed : TimedOp) : Prop :=
  match timed.op with
  | .fetch recordId => ∀ (record : StoredRecord) (expiry : DateTime),
      contents[recordId]? = some record → record.expiresAt = some expiry → expiry.year ≤ 9999
  | .deleteExpired => YearsComparable contents timed.now
  | _ => True

/-- Only records that `store_proof` builds are inserted. -/
def InsertsBuilt (timed : TimedOp) : Prop :=
  ∀ (recordId : RecordId) (record : StoredRecord), timed.op = .insert recordId record →
    BuiltByStoreProof record

/-- The years of a stored record start at 0. -/
structure StoredRecord.AfterYearZero (record : StoredRecord) : Prop where
  storedAt : record.storedAt.FourDigits
  expiresAt : ∀ expiry, record.expiresAt = some expiry → 0 ≤ expiry.year

theorem le_of_expiryAfter {expiresInSecs : Option UInt64} {now expiry : DateTime}
    (computed : (expiryAfter expiresInSecs : VaultM BackendOp.Answer _).run.run (clockAt now) () =
      some (.ok (some expiry), ())) : now ≤ expiry := by
  unfold expiryAfter at computed
  split at computed
  · cases computed
  split at computed
  · cases computed
  rename_i secs _
  simp only [VaultM.host, Host.now, ExceptT.run_bind, ExceptT.run_lift, Program.perform, map_step,
    map_done, step_bind, done_bind, run, clockAt] at computed
  split at computed
  · cases computed
  rename_i duration lasts
  split at computed
  · cases computed
  rename_i reached added
  cases computed
  have exact := DateTime.ofNanos?_eq_some.mp added
  unfold Duration.seconds? at lasts
  split at lasts <;> cases lasts
  rw [DateTime.le_iff, exact]
  have later : (0 : Int) ≤ secs.toNat * nanosPerSecond := Int.mul_nonneg (by omega) (by decide)
  exact le_add_of_nonneg_right later

theorem BuiltByStoreProof.afterYearZero {record : StoredRecord} (built : BuiltByStoreProof record) :
    record.AfterYearZero where
  storedAt := built.storedAt
  expiresAt := by
    intro expiry expires
    obtain ⟨expiresInSecs, now, _, fourDigits, computed⟩ := built.expiresAt
    rw [expires] at computed
    exact fourDigits.1.trans (year_le (le_of_expiryAfter computed))

/-- The table has the rows of `contents`, whose records `store_proof` built. -/
structure Tabulates (chrono : Chrono) (table : Table) (contents : Contents) : Prop where
  represents : Table.Represents chrono table contents
  years : ∀ (recordId : RecordId) (record : StoredRecord), contents[recordId]? = some record →
    record.AfterYearZero

section Steps

variable {chrono : Chrono} {table : Table} {contents : Contents} {record : StoredRecord} {now : DateTime}

theorem recordOf_rowOf (documented : chrono.Documented) (years : record.AfterYearZero)
    (readable : ∀ expiry, record.expiresAt = some expiry → expiry.year ≤ 9999) :
    SqliteStore.recordOf chrono (SqliteStore.rowOf chrono record) = .ok record := by
  obtain ⟨⟨nonce, ciphertext⟩, storedAt, expiresAt⟩ := record
  have stored := documented.reads storedAt years.storedAt
  cases expiresAt with
  | none =>
      simp [SqliteStore.recordOf, SqliteStore.rowOf, SqliteStore.parseDatetime, stored, bind,
        Except.bind, pure, Except.pure]
  | some expiry =>
      have expires := documented.reads expiry ⟨years.expiresAt expiry rfl, readable expiry rfl⟩
      simp [SqliteStore.recordOf, SqliteStore.rowOf, SqliteStore.parseDatetime, stored, expires, bind,
        Except.bind, pure, Except.pure, Functor.map, Except.map]

/-- The statement of the sweep removes what the file sweep removes. -/
theorem dueBy_rowOf (documented : chrono.Documented)
    (inOrder : ∀ expiry, record.expiresAt = some expiry → YearsInOrder expiry.year now.year) :
    (SqliteStore.rowOf chrono record).dueBy (chrono.toRfc3339 now) = !record.retainedAt now := by
  cases expires : record.expiresAt with
  | none => simp [SqliteStore.rowOf, Row.dueBy, StoredRecord.retainedAt, expires]
  | some expiry =>
      have le := utf8_text_le_iff.mpr (inOrder expiry expires)
      simp [SqliteStore.rowOf, Row.dueBy, StoredRecord.retainedAt, expires, documented.prints, le,
        ← decide_not]

theorem SqliteStore.step_agrees (documented : chrono.Documented)
    (tabulates : Tabulates chrono table contents) {timed : TimedOp}
    (comparable : Comparable contents timed) (built : InsertsBuilt timed) :
    ∃ answer next next', step chrono table timed = some (answer, next) ∧
      contents.step timed = some (answer, next') ∧ Tabulates chrono next next' := by
  obtain ⟨represents, years⟩ := tabulates
  have kept {recordId : RecordId} {record : StoredRecord}
      (present : (contents.apply timed.now timed.op).2[recordId]? = some record) :
      record.AfterYearZero := by
    rcases Contents.apply_brings present with old | inserts
    · exact years recordId record old
    · exact (built recordId record inserts).afterYearZero
  obtain ⟨now, op⟩ := timed
  cases op with
  | insert recordId record =>
      exact ⟨_, _, _, step_insert, rfl, represents.insert Function.injective_id recordId record,
        fun _ _ => kept⟩
  | fetch recordId =>
      refine ⟨_, table, contents, step_fetch, ?_, represents, years⟩
      have row := represents.lookup recordId
      rw [id] at row
      rw [row, Contents.step, Contents.apply]
      cases stored : contents[recordId]? with
      | none => rfl
      | some record =>
          simp only [Option.map_some]
          rw [recordOf_rowOf documented (years _ _ stored) fun expiry => comparable record expiry stored]
  | delete recordId =>
      refine ⟨_, _, _, step_delete, ?_, represents.erase Function.injective_id recordId, fun _ _ => kept⟩
      have same : table.contains recordId = contents.contains recordId := represents.contains_eq recordId
      rw [Contents.step, Contents.apply, same]
  | deleteExpired =>
      have due (recordId : RecordId) (record : StoredRecord) (stored : contents[recordId]? = some record) :=
        @dueBy_rowOf _ record _ documented fun expiry => comparable recordId record expiry stored
      have removed : Table.Represents chrono
          (table.filter fun _ row => row.dueBy (chrono.toRfc3339 now)) (contents.due now) :=
        represents.filter due
      have swept : Table.Represents chrono
          (table.filter fun _ row => !row.dueBy (chrono.toRfc3339 now)) (contents.sweep now) :=
        represents.filter fun recordId record stored => by
          rw [due recordId record stored, Bool.not_not]
      refine ⟨_, _, _, step_deleteExpired, ?_, swept, fun _ _ => kept⟩
      rw [Contents.step, Contents.apply_deleteExpired, removed.size_eq Function.injective_id]

end Steps

section Sequences

variable {serde : Serde} {chrono : Chrono}

theorem backends_agree (readsBack : serde.ReadsBack) (documented : chrono.Documented) (mutex tid : Nat)
    (clock : DateTime) {ops : List TimedOp} (built : ∀ timed ∈ ops, InsertsBuilt timed)
    (comparable : Throughout Comparable Contents.step ∅ ops) :
    ∃ opened files tables,
      (LocalFileStore.new serde true).run.run (FileState.respond tid) (.fresh clock) =
        some (.ok (), opened) ∧
      trace ((LocalFileStore.mk true mutex).step serde tid) opened ops = some files ∧
      trace (SqliteStore.step chrono) ∅ ops = some tables ∧
      files.map Prod.fst = tables.map Prod.fst := by
  obtain ⟨opened, ran, empty⟩ := LocalFileStore.new_fresh readsBack tid clock
  have fileAgrees (state : FileState) (contents : Contents) (timed : TimedOp)
      (represents : state.Represents serde contents) (_ : True) :=
    @LocalFileStore.step_agrees serde readsBack ⟨true, mutex⟩ rfl tid _ _ represents timed
  have sqliteAgrees (table : Table) (contents : Contents) (timed : TimedOp)
      (tabulates : Tabulates chrono table contents)
      (meets : Comparable contents timed ∧ InsertsBuilt timed) :=
    SqliteStore.step_agrees documented tabulates meets.1 meets.2
  obtain ⟨files, maps, filesRan, mapsRan, filesSame⟩ :=
    trace_agrees fileAgrees empty (throughout_true Contents.step ∅ ops)
  have noRows : Tabulates chrono ∅ ∅ := ⟨.empty, fun _ _ => by simp⟩
  obtain ⟨tables, maps', tablesRan, mapsRan', tablesSame⟩ :=
    trace_agrees sqliteAgrees noRows (comparable.and_inputs built)
  cases mapsRan.symm.trans mapsRan'
  exact ⟨opened, files, tables, ran, filesRan, tablesRan,
    (answers_eq filesSame).trans (answers_eq tablesSame).symm⟩

/-- Where all years have four digits, everything is comparable. -/
theorem throughout_comparable {ops : List TimedOp} (clocks : ∀ timed ∈ ops, timed.now.FourDigits)
    (inserts : ∀ timed ∈ ops, ∀ recordId record expiry, timed.op = .insert recordId record →
      record.expiresAt = some expiry → expiry.FourDigits) {contents : Contents}
    (years : ∀ (recordId : RecordId) (record : StoredRecord) (expiry : DateTime),
      contents[recordId]? = some record → record.expiresAt = some expiry → expiry.FourDigits) :
    Throughout Comparable Contents.step contents ops := by
  induction ops generalizing contents with
  | nil => trivial
  | cons timed ops ih =>
      refine ⟨?_, fun answer next stepped => ?_⟩
      · obtain ⟨now, op⟩ := timed
        cases op with
        | fetch recordId => exact fun record expiry stored expires => (years recordId record expiry stored expires).2
        | deleteExpired =>
            intro recordId record expiry stored expires
            exact yearsInOrder_of_plain (years recordId record expiry stored expires) (clocks _ List.mem_cons_self)
        | _ => trivial
      · cases stepped
        refine ih (fun other member => clocks other (.tail _ member))
          (fun other member => inserts other (.tail _ member)) fun recordId record expiry present expires => ?_
        rcases Contents.apply_brings present with old | inserted
        · exact years recordId record expiry old expires
        · exact inserts timed List.mem_cons_self recordId record expiry inserted expires

/-- A record with a lifetime of a second and one without are inserted, fetched, swept
and deleted. -/
theorem backends_agree_swept :
    ∃ opened files tables,
      (LocalFileStore.new .concrete true).run.run (FileState.respond 0) (.fresh .epoch) =
        some (.ok (), opened) ∧
      trace ((LocalFileStore.mk true 0).step .concrete 0) opened sweptAndDeleted = some files ∧
      trace (SqliteStore.step .concrete) ∅ sweptAndDeleted = some tables ∧
      files.map Prod.fst = tables.map Prod.fst := by
  refine backends_agree Serde.concrete_readsBack Chrono.concrete_documented 0 0 .epoch ?_
    (throughout_comparable ?_ ?_ ?_)
  · intro timed member recordId record inserts
    simp only [sweptAndDeleted, List.mem_cons, List.not_mem_nil, or_false] at member
    rcases member with rfl | rfl | rfl | rfl | rfl | rfl | rfl | rfl <;> cases inserts
    · exact ⟨by decide, some 1, .epoch, by decide, by decide, rfl⟩
    · exact ⟨by decide, none, .epoch, by decide, by decide, rfl⟩
  · decide
  · intro timed member recordId record expiry inserts expires
    simp only [sweptAndDeleted, List.mem_cons, List.not_mem_nil, or_false] at member
    rcases member with rfl | rfl | rfl | rfl | rfl | rfl | rfl | rfl <;> cases inserts <;> cases expires
    decide
  · intro recordId record expiry stored
    simp at stored

/-- The year 11476. -/
def farExpiry : DateTime := ⟨300000000000000000000, by decide, by decide⟩

theorem farExpiry_year : farExpiry.year = 11476 := by decide +kernel

/-- A record that `store_proof` builds for `expires_in_secs = 300000000000` is read
back from the file and refused by SQLite. -/
theorem backends_disagree :
    ∃ (record : StoredRecord) (opened : FileState) (files : List (BackendResult × FileState))
      (tables : List (BackendResult × Table)),
      BuiltByStoreProof record ∧
      (LocalFileStore.new .concrete true).run.run (FileState.respond 0) (.fresh .epoch) =
        some (.ok (), opened) ∧
      trace ((LocalFileStore.mk true 0).step .concrete 0) opened
        [⟨.epoch, .insert (.replicate 16 0) record⟩, ⟨.epoch, .fetch (.replicate 16 0)⟩] =
          some files ∧
      trace (SqliteStore.step .concrete) ∅
        [⟨.epoch, .insert (.replicate 16 0) record⟩, ⟨.epoch, .fetch (.replicate 16 0)⟩] =
          some tables ∧
      files.map Prod.fst ≠ tables.map Prod.fst := by
  let record : StoredRecord := ⟨⟨[], []⟩, .epoch, some farExpiry⟩
  have built : BuiltByStoreProof record :=
    ⟨by decide, some 300000000000, .epoch, by decide, by decide, rfl⟩
  obtain ⟨opened, ran, empty⟩ := LocalFileStore.new_fresh Serde.concrete_readsBack 0 .epoch
  have fileAgrees (state : FileState) (contents : Contents) (timed : TimedOp)
      (represents : state.Represents .concrete contents) (_ : True) :=
    @LocalFileStore.step_agrees _ Serde.concrete_readsBack ⟨true, 0⟩ rfl 0 _ _ represents timed
  obtain ⟨files, maps, filesRan, mapsRan, filesSame⟩ := trace_agrees fileAgrees empty
    (throughout_true Contents.step ∅
      [⟨.epoch, .insert (.replicate 16 0) record⟩, ⟨.epoch, .fetch (.replicate 16 0)⟩])
  refine ⟨record, opened, files, _, built, ran, filesRan,
    trace_cons SqliteStore.step_insert (trace_cons SqliteStore.step_fetch rfl), ?_⟩
  have signed : ¬ farExpiry.FourDigits := by
    rw [DateTime.FourDigits, farExpiry_year]
    decide
  obtain ⟨message, refused⟩ := Chrono.concrete_documented.refuses farExpiry signed
  rw [answers_eq filesSame]
  cases mapsRan
  intro same
  simp only [Contents.apply, List.map_cons, List.map_nil, List.cons.injEq,
    Sigma.mk.injEq, heq_eq_eq, true_and, and_true, Std.ExtTreeMap.getElem?_insert_self] at same
  have stored := Chrono.concrete_documented.reads .epoch (by decide)
  simp [record, SqliteStore.recordOf, SqliteStore.rowOf, SqliteStore.parseDatetime, stored, refused, bind,
    Except.bind, Functor.map, Except.map] at same

end Sequences

end TariVault
