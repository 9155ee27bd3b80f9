import TariVault.Storage.Sqlite

namespace TariVault

/-! # Text order is chronological order

On timestamps with four-digit years the comparison in the sweep's statement is the
comparison of instants, whatever fractions the two texts have.
-/

variable {chrono : Chrono}

/-- The format of a timestamp in the domain of RFC 3339. -/
def Chrono.PrintsFourDigits (chrono : Chrono) : Prop :=
  ∀ time : DateTime, time.FourDigits → chrono.toRfc3339 time = Rfc3339.text Rfc3339.utc time

theorem utf8_le_of_fourDigits (prints : chrono.PrintsFourDigits) {left right : DateTime}
    (plainLeft : left.FourDigits) (plainRight : right.FourDigits) :
    utf8 (chrono.toRfc3339 left) ≤ utf8 (chrono.toRfc3339 right) ↔ left ≤ right := by
  rw [prints left plainLeft, prints right plainRight]
  exact Rfc3339.utf8_text_le_iff.mpr (Rfc3339.yearsInOrder_of_plain plainLeft plainRight)

theorem utf8_lt_of_fourDigits (prints : chrono.PrintsFourDigits) {left right : DateTime}
    (plainLeft : left.FourDigits) (plainRight : right.FourDigits) :
    utf8 (chrono.toRfc3339 left) < utf8 (chrono.toRfc3339 right) ↔ left < right := by
  rw [← List.not_le, utf8_le_of_fourDigits prints plainRight plainLeft, not_le]

theorem utf8_eq_of_fourDigits (prints : chrono.PrintsFourDigits) {left right : DateTime}
    (plainLeft : left.FourDigits) (plainRight : right.FourDigits) :
    utf8 (chrono.toRfc3339 left) = utf8 (chrono.toRfc3339 right) ↔ left = right := by
  constructor
  · intro same
    refine le_antisymm ((utf8_le_of_fourDigits prints plainLeft plainRight).mp ?_)
      ((utf8_le_of_fourDigits prints plainRight plainLeft).mp ?_)
    · rw [same]
      exact List.le_refl _
    · rw [same]
      exact List.le_refl _
  · intro equal
    subst equal
    rfl

/-- Every expiry in the table is a timestamp with a four-digit year. -/
def Table.Plain (chrono : Chrono) (table : Table) : Prop :=
  ∀ (recordId : RecordId) (row : Row), table[recordId]? = some row → row.expiresAt = none ∨
    ∃ expiry : DateTime, expiry.FourDigits ∧ row.expiresAt = some (chrono.toRfc3339 expiry)

/-- The row has an expiry, and it is not later than `now`. -/
def Row.ExpiresBy (chrono : Chrono) (now : DateTime) (row : Row) : Prop :=
  ∃ expiry : DateTime, expiry.FourDigits ∧ row.expiresAt = some (chrono.toRfc3339 expiry) ∧ expiry ≤ now

theorem Row.dueBy_iff (prints : chrono.PrintsFourDigits) {now : DateTime} (plainNow : now.FourDigits)
    {row : Row} (plain : row.expiresAt = none ∨
      ∃ expiry : DateTime, expiry.FourDigits ∧ row.expiresAt = some (chrono.toRfc3339 expiry)) :
    row.dueBy (chrono.toRfc3339 now) = true ↔ row.ExpiresBy chrono now := by
  rcases plain with never | ⟨expiry, plainExpiry, expires⟩
  · simp [dueBy, ExpiresBy, never]
  · rw [dueBy, expires, decide_eq_true_eq, utf8_le_of_fourDigits prints plainExpiry plainNow]
    constructor
    · exact fun le => ⟨expiry, plainExpiry, expires, le⟩
    · intro holds
      obtain ⟨other, plainOther, expires', le⟩ := holds
      have sameText : chrono.toRfc3339 expiry = chrono.toRfc3339 other := by
        rw [expires, Option.some.injEq] at expires'
        exact expires'
      have same : expiry = other :=
        (utf8_eq_of_fourDigits prints plainExpiry plainOther).mp (congrArg utf8 sameText)
      exact same ▸ le

theorem Table.size_dueBy (table : Table) (now : String) :
    (table.filter fun _ row => row.dueBy now).size + (table.filter fun _ row => !row.dueBy now).size =
      table.size := by
  have split := List.length_eq_countP_add_countP (fun entry => entry.2.dueBy now) (l := table.toList)
  rw [List.countP_eq_length_filter, List.countP_eq_length_filter] at split
  simpa [← Std.ExtTreeMap.length_toList, Std.ExtTreeMap.toList_filter] using split.symm

theorem sweep_chronological (prints : chrono.PrintsFourDigits) :
    (∀ left right : DateTime, left.FourDigits → right.FourDigits →
      (utf8 (chrono.toRfc3339 left) < utf8 (chrono.toRfc3339 right) ↔ left < right) ∧
      (utf8 (chrono.toRfc3339 left) = utf8 (chrono.toRfc3339 right) ↔ left = right) ∧
      (utf8 (chrono.toRfc3339 right) < utf8 (chrono.toRfc3339 left) ↔ right < left)) ∧
    ∀ (table : Table) (now : DateTime), now.FourDigits → table.Plain chrono →
      ∃ removed swept,
        SqliteStore.step chrono table ⟨now, .deleteExpired⟩ =
          some (⟨.deleteExpired, .ok removed⟩, swept) ∧
        (∀ (recordId : RecordId) (row : Row), swept[recordId]? = some row ↔
          table[recordId]? = some row ∧ ¬ row.ExpiresBy chrono now) ∧
        removed + swept.size = table.size := by
  refine ⟨fun left right plainLeft plainRight => ⟨utf8_lt_of_fourDigits prints plainLeft plainRight,
    utf8_eq_of_fourDigits prints plainLeft plainRight,
    utf8_lt_of_fourDigits prints plainRight plainLeft⟩, fun table now plainNow plain => ?_⟩
  refine ⟨_, _, SqliteStore.step_deleteExpired, fun recordId row => ?_, table.size_dueBy _⟩
  rw [Std.ExtTreeMap.getElem?_filter', Option.filter_eq_some_iff]
  refine and_congr_right fun stored => ?_
  rw [← Row.dueBy_iff prints plainNow (plain recordId row stored)]
  simp

/-- One row, swept at its expiry. -/
theorem sweep_chronological_concrete :
    ∃ removed swept,
      SqliteStore.step .concrete ((∅ : Table).insert (.replicate 16 0)
        (SqliteStore.rowOf .concrete ⟨⟨[], []⟩, .epoch, some .epoch⟩)) ⟨.epoch, .deleteExpired⟩ =
          some (⟨.deleteExpired, .ok removed⟩, swept) ∧ removed + swept.size = 1 := by
  have plainNow : DateTime.epoch.FourDigits := by decide
  have plain : Table.Plain .concrete ((∅ : Table).insert (.replicate 16 0)
      (SqliteStore.rowOf .concrete ⟨⟨[], []⟩, .epoch, some .epoch⟩)) := by
    intro recordId row stored
    rw [Std.ExtTreeMap.getElem?_insert] at stored
    split at stored
    · cases stored
      exact .inr ⟨.epoch, plainNow, rfl⟩
    · simp at stored
  obtain ⟨removed, swept, ran, _, counted⟩ :=
    (@sweep_chronological .concrete fun _ _ => rfl).2 _ .epoch plainNow plain
  exact ⟨removed, swept, ran, counted.trans rfl⟩

end TariVault
