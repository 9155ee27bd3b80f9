import TariVault.Storage.Chronology
import TariVault.Vault.ProofVault

namespace TariVault

open Program Rfc3339

/-! # Sweeps against the check on access

An access refuses a record whose expiry is before the clock; a sweep removes a
record whose expiry is not after it, and in SQLite compares texts.
-/

/-- A machine of which only the clock is used. -/
def clockAt {β : Type} {A : β → Type} (now : DateTime) (state : Unit) :
    (op : HostOp β) → Option (HostOp.Answer A op × Unit)
  | .now => some (now, state)
  | _ => none

/-- The check on access finds the record expired when the clock shows `now`. -/
def StoredRecord.RefusedAt (record : StoredRecord) (now : DateTime) : Prop :=
  (record.isExpired : Host BackendOp.Answer Bool).run (clockAt now) () = some (true, ())

theorem StoredRecord.refusedAt_iff {record : StoredRecord} {now : DateTime} :
    record.RefusedAt now ↔ record.ExpiredAt now := by
  cases expires : record.expiresAt with
  | none => simp [RefusedAt, ExpiredAt, isExpired, expires]
  | some expiry =>
      simp [RefusedAt, ExpiredAt, isExpired, expires, Host.now, run, clockAt]

instance (record : StoredRecord) (now : DateTime) : Decidable (record.RefusedAt now) :=
  inferInstanceAs (Decidable (_ = _))

/-- A sweep at `now` removed the records an access refuses at `now`, counted them,
and kept all others. -/
structure SweepsRefused (contents : Contents) (now : DateTime) (removed : Nat) (swept : Contents) :
    Prop where
  counted : removed = (contents.filter fun _ record => decide (record.RefusedAt now)).size
  kept : swept = contents.filter fun _ record => !decide (record.RefusedAt now)

def NoTie (contents : Contents) (now : DateTime) : Prop :=
  ∀ (recordId : RecordId) (record : StoredRecord), contents[recordId]? = some record →
    record.expiresAt ≠ some now

/-- Every stored expiry has a year that compares with the year of the clock as text
the way the numbers do. -/
def YearsComparable (contents : Contents) (now : DateTime) : Prop :=
  ∀ (recordId : RecordId) (record : StoredRecord) (expiry : DateTime),
    contents[recordId]? = some record → record.expiresAt = some expiry →
      YearsInOrder expiry.year now.year

variable {record : StoredRecord} {now : DateTime} {contents : Contents}

/-- The file sweep keeps what an access does not refuse, except for a tie. -/
theorem retainedAt_iff : record.retainedAt now = !decide (record.RefusedAt now) ↔
    record.expiresAt ≠ some now := by
  have refused := @record.refusedAt_iff now
  cases expires : record.expiresAt with
  | none =>
      have never : ¬ record.RefusedAt now := by simp [refused, StoredRecord.ExpiredAt, expires]
      simp [StoredRecord.retainedAt, expires, never]
  | some expiry =>
      have before : record.RefusedAt now ↔ expiry < now := by
        simp [refused, StoredRecord.ExpiredAt, expires]
      simp only [StoredRecord.retainedAt, expires, before, ne_eq, Option.some.injEq]
      rw [← decide_not, decide_eq_decide, not_lt, le_iff_lt_or_eq]
      constructor
      · intro same tie
        exact absurd (same.mpr (.inr tie.symm)) (by simp [tie])
      · exact fun distinct => ⟨.inl, fun le => le.resolve_right (Ne.symm distinct)⟩

/-- The statement of the sweep removes what an access refuses, except for a tie and
for years that compare differently as text. -/
theorem dueBy_rowOf_iff {chrono : Chrono} (documented : chrono.Documented) :
    (SqliteStore.rowOf chrono record).dueBy (chrono.toRfc3339 now) = decide (record.RefusedAt now) ↔
      ∀ expiry, record.expiresAt = some expiry → expiry ≠ now ∧ YearsInOrder expiry.year now.year := by
  have refused := @record.refusedAt_iff now
  cases expires : record.expiresAt with
  | none =>
      have never : ¬ record.RefusedAt now := by simp [refused, StoredRecord.ExpiredAt, expires]
      simp [SqliteStore.rowOf, Row.dueBy, expires, never]
  | some expiry =>
      have before : record.RefusedAt now ↔ expiry < now := by
        simp [refused, StoredRecord.ExpiredAt, expires]
      have due : (SqliteStore.rowOf chrono record).dueBy (chrono.toRfc3339 now) =
          decide (utf8 (text utc expiry) ≤ utf8 (text utc now)) := by
        simp [SqliteStore.rowOf, Row.dueBy, expires, documented.prints]
      rw [due, decide_eq_decide, before]
      simp only [Option.some.injEq, forall_eq']
      by_cases tie : expiry = now
      · subst tie
        simp
      · rw [← utf8_text_le_iff, lt_iff_le_and_ne]
        simp [tie]

theorem filter_eq_filter_iff {V : Type} {map : Std.ExtTreeMap RecordId V} {keep keep' : V → Bool} :
    (map.filter fun _ value => keep value) = (map.filter fun _ value => keep' value) ↔
      ∀ (recordId : RecordId) (value : V), map[recordId]? = some value → keep value = keep' value := by
  constructor
  · intro same recordId value stored
    have both := congrArg (·[recordId]?) same
    simp only [Std.ExtTreeMap.getElem?_filter', stored, Option.filter_some] at both
    cases kept : keep value <;> cases kept' : keep' value <;> simp [kept, kept'] at both <;> rfl
  · intro agree
    refine Std.ExtTreeMap.ext_getElem? fun recordId => ?_
    rw [Std.ExtTreeMap.getElem?_filter', Std.ExtTreeMap.getElem?_filter']
    cases stored : map[recordId]? with
    | none => rfl
    | some value => rw [Option.filter_some, Option.filter_some, agree recordId value stored]

theorem sweep_kept_iff : contents.sweep now =
    (contents.filter fun _ record => !decide (record.RefusedAt now)) ↔ NoTie contents now := by
  rw [Contents.sweep, filter_eq_filter_iff]
  exact forall₃_congr fun _ record _ => retainedAt_iff

theorem due_counted (noTie : NoTie contents now) : (contents.due now) =
    contents.filter fun _ record => decide (record.RefusedAt now) := by
  refine filter_eq_filter_iff.mpr fun recordId record stored => ?_
  rw [retainedAt_iff.mpr (noTie recordId record stored), Bool.not_not]

variable {serde : Serde} {chrono : Chrono}

/-- The sweep of a file store whose file is `contents`. -/
def LocalFileStore.SweepsExactly (serde : Serde) (store : LocalFileStore) (tid : Nat)
    (state : FileState) (contents : Contents) (now : DateTime) : Prop :=
  ∃ removed next swept,
    store.step serde tid state ⟨now, .deleteExpired⟩ = some (⟨.deleteExpired, .ok removed⟩, next) ∧
      next.Represents serde swept ∧ SweepsRefused contents now removed swept

/-- The table has one row for each record of `contents`. -/
abbrev Table.Represents (chrono : Chrono) (table : Table) (contents : Contents) : Prop :=
  Mirrors id (SqliteStore.rowOf chrono) table contents

/-- The sweep of a table that represents `contents`. -/
def SqliteStore.SweepsExactly (chrono : Chrono) (table : Table) (contents : Contents)
    (now : DateTime) : Prop :=
  ∃ removed next swept,
    SqliteStore.step chrono table ⟨now, .deleteExpired⟩ =
      some (⟨.deleteExpired, .ok removed⟩, next) ∧
      Table.Represents chrono next swept ∧ SweepsRefused contents now removed swept

theorem LocalFileStore.sweepsExactly_iff (readsBack : serde.ReadsBack) {store : LocalFileStore}
    (hasParent : store.hasParent = true) (tid : Nat) {state : FileState}
    (represents : state.Represents serde contents) :
    store.SweepsExactly serde tid state contents now ↔ NoTie contents now := by
  obtain ⟨answer, next, next', stepped, stepped', left⟩ :=
    LocalFileStore.step_agrees readsBack hasParent tid represents ⟨now, .deleteExpired⟩
  rw [Contents.step, Contents.apply_deleteExpired] at stepped'
  cases stepped'
  constructor
  · intro holds
    obtain ⟨removed, next', swept, ran, represents', sweeps⟩ := holds
    cases stepped.symm.trans ran
    have same : contents.sweep now = swept := left.unique represents'
    exact sweep_kept_iff.mp (same.trans sweeps.kept)
  · intro noTie
    exact ⟨_, next, _, stepped, left, by rw [due_counted noTie], sweep_kept_iff.mpr noTie⟩

theorem SqliteStore.sweepsExactly_iff (documented : chrono.Documented) {table : Table}
    (represents : Table.Represents chrono table contents) :
    SqliteStore.SweepsExactly chrono table contents now ↔
      NoTie contents now ∧ YearsComparable contents now := by
  -- Both sides say that the statement removes exactly the refused records.
  have agrees : (∀ (recordId : RecordId) (record : StoredRecord), contents[recordId]? = some record →
      (rowOf chrono record).dueBy (chrono.toRfc3339 now) = decide (record.RefusedAt now)) ↔
        NoTie contents now ∧ YearsComparable contents now := by
    constructor
    · intro agree
      refine ⟨fun recordId record stored tie => ?_, fun recordId record expiry stored expires => ?_⟩
      · exact ((dueBy_rowOf_iff documented).mp (agree recordId record stored) now tie).1 rfl
      · exact ((dueBy_rowOf_iff documented).mp (agree recordId record stored) expiry expires).2
    · intro holds recordId record stored
      obtain ⟨noTie, comparable⟩ := holds
      refine (dueBy_rowOf_iff documented).mpr fun expiry expires => ⟨?_, ?_⟩
      · intro same
        subst same
        exact noTie recordId record stored expires
      · exact comparable recordId record expiry stored expires
  rw [← agrees]
  constructor
  · intro holds recordId record stored
    obtain ⟨removed, next, swept, ran, represents', sweeps⟩ := holds
    rw [step_deleteExpired] at ran
    cases ran
    have left := represents'.lookup recordId
    have row := represents.lookup recordId
    rw [id, stored, Option.map_some] at row
    rw [sweeps.kept, id, Std.ExtTreeMap.getElem?_filter', Std.ExtTreeMap.getElem?_filter', row, stored,
      Option.filter_some, Option.filter_some] at left
    cases due : (rowOf chrono record).dueBy (chrono.toRfc3339 now) <;>
      cases refused : decide (record.RefusedAt now) <;> simp [due, refused] at left <;> rfl
  · intro agree
    have kept : Table.Represents chrono
        (table.filter fun _ row => !row.dueBy (chrono.toRfc3339 now))
        (contents.filter fun _ record => !decide (record.RefusedAt now)) :=
      represents.filter fun recordId record stored => by rw [agree recordId record stored]
    have removed : Table.Represents chrono
        (table.filter fun _ row => row.dueBy (chrono.toRfc3339 now))
        (contents.filter fun _ record => decide (record.RefusedAt now)) :=
      represents.filter agree
    exact ⟨_, _, _, step_deleteExpired, kept, removed.size_eq Function.injective_id, rfl⟩

theorem sweeps_exactly_iff (readsBack : serde.ReadsBack) (documented : chrono.Documented)
    (contents : Contents) (now : DateTime) :
    (∀ (store : LocalFileStore) (tid : Nat) (state : FileState), store.hasParent = true →
      state.Represents serde contents →
      (store.SweepsExactly serde tid state contents now ↔ NoTie contents now)) ∧
    ∀ table : Table, Table.Represents chrono table contents →
      (SqliteStore.SweepsExactly chrono table contents now ↔
        NoTie contents now ∧ YearsComparable contents now) :=
  ⟨fun _ tid _ hasParent represents =>
      LocalFileStore.sweepsExactly_iff readsBack hasParent tid represents,
    fun _ represents => SqliteStore.sweepsExactly_iff documented represents⟩

section Tie

theorem represents_inserted {state : FileState} (represents : state.Represents .concrete contents)
    (recordId : RecordId) (record : StoredRecord) :
    ∃ next : FileState, next.Represents .concrete (contents.insert recordId record) := by
  obtain ⟨_, next, _, _, inserted, left⟩ := @LocalFileStore.step_agrees _ Serde.concrete_readsBack
    ⟨true, 0⟩ rfl 0 _ _ represents ⟨.epoch, .insert recordId record⟩
  cases inserted
  exact ⟨next, left⟩

theorem represents_one (recordId : RecordId) (record : StoredRecord) :
    ∃ state : FileState, state.Represents .concrete ((∅ : Contents).insert recordId record) := by
  obtain ⟨_, _, empty⟩ := LocalFileStore.new_fresh Serde.concrete_readsBack 0 .epoch
  exact represents_inserted empty recordId record

/-- One record expired two seconds ago, one expires in two seconds, and one never. -/
def mixedContents : Contents :=
  (((∅ : Contents).insert (.replicate 16 0) ⟨⟨[], [1]⟩, .epoch, some .epoch⟩).insert (.replicate 16 1)
    ⟨⟨[], [2]⟩, .epoch, some ⟨4000000000, by decide, by decide⟩⟩).insert (.replicate 16 2)
    ⟨⟨[], [3]⟩, .epoch, none⟩

theorem mixedContents_cases {recordId : RecordId} {record : StoredRecord}
    (stored : mixedContents[recordId]? = some record) :
    record = ⟨⟨[], [1]⟩, .epoch, some .epoch⟩ ∨
      record = ⟨⟨[], [2]⟩, .epoch, some ⟨4000000000, by decide, by decide⟩⟩ ∨
      record = ⟨⟨[], [3]⟩, .epoch, none⟩ := by
  simp only [mixedContents, Std.ExtTreeMap.getElem?_insert, Std.ExtTreeMap.getElem?_empty] at stored
  split at stored
  · exact .inr (.inr (Option.some.inj stored).symm)
  · split at stored
    · exact .inr (.inl (Option.some.inj stored).symm)
    · split at stored
      · exact .inl (Option.some.inj stored).symm
      · contradiction

/-- The sweeps of both stores at two seconds take the expired record and leave the
live ones. -/
theorem sweeps_exactly_mixed :
    ∃ (state : FileState) (table : Table), state.Represents .concrete mixedContents ∧
      Table.Represents .concrete table mixedContents ∧
      (∃ record, mixedContents[FixedBytes.replicate 16 0]? = some record ∧
        record.RefusedAt ⟨2000000000, by decide, by decide⟩) ∧
      (∃ record, mixedContents[FixedBytes.replicate 16 1]? = some record ∧
        ¬ record.RefusedAt ⟨2000000000, by decide, by decide⟩) ∧
      LocalFileStore.SweepsExactly .concrete ⟨true, 0⟩ 0 state mixedContents ⟨2000000000, by decide, by decide⟩ ∧
      SqliteStore.SweepsExactly .concrete table mixedContents ⟨2000000000, by decide, by decide⟩ := by
  obtain ⟨_, _, empty⟩ := LocalFileStore.new_fresh Serde.concrete_readsBack 0 .epoch
  obtain ⟨_, one⟩ := represents_inserted empty (.replicate 16 0) ⟨⟨[], [1]⟩, .epoch, some .epoch⟩
  obtain ⟨_, two⟩ := represents_inserted one (.replicate 16 1)
    ⟨⟨[], [2]⟩, .epoch, some ⟨4000000000, by decide, by decide⟩⟩
  obtain ⟨state, three⟩ := represents_inserted two (.replicate 16 2) ⟨⟨[], [3]⟩, .epoch, none⟩
  have rows : Table.Represents .concrete _ mixedContents :=
    ((Mirrors.empty.insert Function.injective_id _ _).insert Function.injective_id _ _).insert
      Function.injective_id _ _
  have noTie : NoTie mixedContents ⟨2000000000, by decide, by decide⟩ := by
    intro recordId record stored
    rcases mixedContents_cases stored with rfl | rfl | rfl <;> decide
  have comparable : YearsComparable mixedContents ⟨2000000000, by decide, by decide⟩ := by
    intro recordId record expiry stored expires
    rcases mixedContents_cases stored with rfl | rfl | rfl
    · cases expires
      decide
    · cases expires
      decide
    · contradiction
  have exactly := sweeps_exactly_iff Serde.concrete_readsBack Chrono.concrete_documented mixedContents
    ⟨2000000000, by decide, by decide⟩
  exact ⟨state, _, three, rows, ⟨_, rfl, by decide⟩, ⟨_, rfl, by decide⟩,
    (exactly.1 ⟨true, 0⟩ 0 state rfl three).mpr noTie, (exactly.2 _ rows).mpr ⟨noTie, comparable⟩⟩

/-- A record that an access still releases at the instant of its expiry is swept at
that instant. -/
theorem sweep_takes_live_record :
    ∃ (state : FileState) (contents : Contents) (record : StoredRecord),
      state.Represents .concrete contents ∧ contents[FixedBytes.replicate 16 0]? = some record ∧
      ¬ record.RefusedAt .epoch ∧
      ¬ LocalFileStore.SweepsExactly .concrete ⟨true, 0⟩ 0 state contents .epoch := by
  let record : StoredRecord := ⟨⟨[], []⟩, .epoch, some .epoch⟩
  obtain ⟨state, represents⟩ := represents_one (.replicate 16 0) record
  have stored : ((∅ : Contents).insert (.replicate 16 0) record)[FixedBytes.replicate 16 0]? =
      some record := Contents.getElem?_insert_self
  refine ⟨state, _, record, represents, stored, by decide, fun exact => ?_⟩
  have noTie := (LocalFileStore.sweepsExactly_iff Serde.concrete_readsBack rfl 0 represents).mp exact
  exact noTie _ record stored rfl

end Tie

end TariVault
