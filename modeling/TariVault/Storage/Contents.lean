import TariVault.Storage.Backend

namespace TariVault

/-! # What a backend is for

The contents of a backend are a map from record ids to records, and each of the
four operations is one function on it. Both backends are compared with these
functions; the vault calls run over them.
-/

abbrev Contents := Std.ExtTreeMap RecordId StoredRecord

namespace Contents

/-- What is left after removing every record whose expiry is not after `now`. -/
def sweep (now : DateTime) (contents : Contents) : Contents :=
  contents.filter fun _ record => record.retainedAt now

/-- The answer of one operation and the contents it leaves. Only a sweep looks at
the clock value it captured. -/
def apply (now : DateTime) : (op : BackendOp) → Contents → BackendOp.Answer op × Contents
  | .insert recordId record, contents => (.ok (), contents.insert recordId record)
  | .fetch recordId, contents =>
      (match contents[recordId]? with
        | some record => .ok record
        | none => .error .notFound, contents)
  | .delete recordId, contents => (.ok (contents.contains recordId), contents.erase recordId)
  | .deleteExpired, contents =>
      (.ok (contents.size - (contents.sweep now).size), contents.sweep now)

def due (now : DateTime) (contents : Contents) : Contents :=
  contents.filter fun _ record => !record.retainedAt now

theorem size_sweep_add_due (now : DateTime) (contents : Contents) :
    (contents.sweep now).size + (contents.due now).size = contents.size := by
  have split := List.length_eq_countP_add_countP (fun entry => entry.2.retainedAt now)
    (l := contents.toList)
  rw [List.countP_eq_length_filter, List.countP_eq_length_filter] at split
  simpa [sweep, due, ← Std.ExtTreeMap.length_toList, Std.ExtTreeMap.toList_filter] using split.symm

variable {contents : Contents} {recordId other : RecordId} {record : StoredRecord} {now : DateTime}

theorem apply_deleteExpired :
    contents.apply now .deleteExpired = (.ok (contents.due now).size, contents.sweep now) := by
  have whole := size_sweep_add_due now contents
  rw [apply, show contents.size - (contents.sweep now).size = (contents.due now).size by omega]

theorem getElem?_insert_self : (contents.insert recordId record)[recordId]? = some record := by
  simp

theorem getElem?_insert_ne (different : other ≠ recordId) :
    (contents.insert recordId record)[other]? = contents[other]? := by
  rw [Std.ExtTreeMap.getElem?_insert, if_neg]
  rw [Std.compare_eq_iff_eq]
  exact Ne.symm different

theorem getElem?_erase_self : (contents.erase recordId)[recordId]? = none := by
  simp

theorem getElem?_erase_ne (different : other ≠ recordId) :
    (contents.erase recordId)[other]? = contents[other]? := by
  rw [Std.ExtTreeMap.getElem?_erase, if_neg]
  rw [Std.compare_eq_iff_eq]
  exact Ne.symm different

theorem erase_of_absent (absent : contents.contains recordId = false) :
    contents.erase recordId = contents := by
  refine Std.ExtTreeMap.ext_getElem? fun other => ?_
  by_cases same : other = recordId
  · subst same
    rw [getElem?_erase_self, Std.ExtTreeMap.getElem?_eq_none_of_contains_eq_false absent]
  · exact getElem?_erase_ne same

theorem getElem?_sweep :
    (contents.sweep now)[recordId]? = contents[recordId]?.filter (·.retainedAt now) :=
  Std.ExtTreeMap.getElem?_filter'

theorem getElem?_sweep_of_some (stored : contents[recordId]? = some record) :
    (contents.sweep now)[recordId]? = some record ∨
      (contents.sweep now)[recordId]? = none ∧
        ∃ expiry, record.expiresAt = some expiry ∧ expiry ≤ now := by
  rw [getElem?_sweep, stored]
  cases kept : record.retainedAt now with
  | true => exact .inl (by simp [kept])
  | false => exact .inr ⟨by simp [kept], StoredRecord.retainedAt_eq_false kept⟩

theorem of_getElem?_sweep (kept : (contents.sweep now)[recordId]? = some record) :
    contents[recordId]? = some record := by
  rw [getElem?_sweep, Option.filter_eq_some_iff] at kept
  exact kept.1

/-- Only an insert brings a record in. -/
theorem apply_brings {op : BackendOp} (present : (contents.apply now op).2[recordId]? = some record) :
    contents[recordId]? = some record ∨ op = .insert recordId record := by
  cases op with
  | insert target written =>
      by_cases same : recordId = target
      · subst same
        rw [apply, getElem?_insert_self, Option.some.injEq] at present
        exact .inr (present ▸ rfl)
      · rw [apply, getElem?_insert_ne same] at present
        exact .inl present
  | fetch target => exact .inl present
  | delete target =>
      by_cases same : recordId = target
      · subst same
        rw [apply, getElem?_erase_self] at present
        contradiction
      · rw [apply, getElem?_erase_ne same] at present
        exact .inl present
  | deleteExpired => exact .inl (of_getElem?_sweep present)

/-- A record leaves by a deletion of its id or by a sweep that finds it expired;
an insert of its id only replaces it. -/
theorem apply_takes {op : BackendOp} (before : contents[recordId]? = some record)
    (after : (contents.apply now op).2[recordId]? = none) :
    op = .delete recordId ∨
      op = .deleteExpired ∧ ∃ expiry, record.expiresAt = some expiry ∧ expiry ≤ now := by
  cases op with
  | insert target written =>
      by_cases same : recordId = target
      · subst same
        rw [apply, getElem?_insert_self] at after
        contradiction
      · rw [apply, getElem?_insert_ne same, before] at after
        contradiction
  | fetch target =>
      rw [apply, before] at after
      contradiction
  | delete target =>
      by_cases same : recordId = target
      · exact .inl (same ▸ rfl)
      · rw [apply, getElem?_erase_ne same, before] at after
        contradiction
  | deleteExpired =>
      rcases @getElem?_sweep_of_some _ _ _ now before with kept | ⟨_, expired⟩
      · rw [apply, kept] at after
        contradiction
      · exact .inr ⟨rfl, expired⟩

end Contents

end TariVault
