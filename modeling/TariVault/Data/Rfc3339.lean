import Mathlib.Data.Nat.Log
import TariVault.Data.ByteOrder
import TariVault.Data.DateTime
import TariVault.Data.Decimal

namespace TariVault.Rfc3339

open Decimal

/-! # Timestamps as text

An instant is written as its date and time of day with 0, 3, 6 or 9 digits of
fraction. Years beyond four digits have a sign. For instants whose years compare as text
the way they compare as numbers, so do the timestamps.
-/

structure Fields where
  date : Calendar.Date
  hour : Nat
  minute : Nat
  second : Nat
  nanos : Nat
deriving DecidableEq, Repr

def fields (time : DateTime) : Fields where
  date := time.date
  hour := (time.secondOfDay / 3600).toNat
  minute := (time.secondOfDay / 60 % 60).toNat
  second := (time.secondOfDay % 60).toNat
  nanos := time.subsecNanos.toNat

def ofFields? (fields : Fields) : Option DateTime :=
  DateTime.ofNanos? ((Calendar.dayOf fields.date - epochDay) * nanosPerDay +
    (fields.hour * 3600 + fields.minute * 60 + fields.second : Nat) * nanosPerSecond + fields.nanos)

theorem secondOfDay_bounds (time : DateTime) : 0 ≤ time.secondOfDay ∧ time.secondOfDay < 86400 := by
  unfold DateTime.secondOfDay nanosPerDay nanosPerSecond
  omega

theorem subsecNanos_bounds (time : DateTime) :
    0 ≤ time.subsecNanos ∧ time.subsecNanos < 1000000000 := by
  unfold DateTime.subsecNanos nanosPerSecond
  omega

theorem nanos_eq (time : DateTime) : time.nanos =
    (time.day - epochDay) * nanosPerDay + time.secondOfDay * nanosPerSecond + time.subsecNanos := by
  unfold DateTime.day DateTime.secondOfDay DateTime.subsecNanos nanosPerDay nanosPerSecond
  omega

theorem ofFields?_fields (time : DateTime) : ofFields? (fields time) = some time := by
  have second := secondOfDay_bounds time
  have nanos := subsecNanos_bounds time
  have seconds : (((time.secondOfDay / 3600).toNat * 3600 + (time.secondOfDay / 60 % 60).toNat * 60 +
      (time.secondOfDay % 60).toNat : Nat) : Int) = time.secondOfDay := by
    omega
  have subsec : (time.subsecNanos.toNat : Int) = time.subsecNanos := by omega
  rw [ofFields?, DateTime.ofNanos?_eq_some, nanos_eq time]
  simp only [fields, DateTime.date, Calendar.dayOf_date, seconds, subsec]

structure Fields.InRange (fields : Fields) : Prop where
  month : fields.date.month < 100
  day : fields.date.day < 100
  hour : fields.hour < 100
  minute : fields.minute < 100
  second : fields.second < 100
  nanos : fields.nanos < 1000000000

theorem fields_inRange (time : DateTime) : (fields time).InRange := by
  have second := secondOfDay_bounds time
  have nanos := subsecNanos_bounds time
  have date := Calendar.date_bounds time.day
  constructor <;> simp only [fields, DateTime.date] <;> omega

def yearText (year : Int) : List Char :=
  if 0 ≤ year ∧ year ≤ 9999 then fixed 4 year.toNat
  else (if 0 ≤ year then '+' else '-') :: fixed (max 4 (Nat.log 10 year.natAbs + 1)) year.natAbs

def fraction (nanos : Nat) : List Char :=
  if nanos = 0 then []
  else if nanos % 1000000 = 0 then '.' :: fixed 3 (nanos / 1000000)
  else if nanos % 1000 = 0 then '.' :: fixed 6 (nanos / 1000)
  else '.' :: fixed 9 nanos

def Fields.tail (fields : Fields) (offset : List Char) : List Char :=
  '-' :: (fixed 2 fields.date.month ++ '-' :: (fixed 2 fields.date.day ++ 'T' :: (fixed 2 fields.hour ++
    ':' :: (fixed 2 fields.minute ++ ':' :: (fixed 2 fields.second ++
      (fraction fields.nanos ++ offset))))))

def Fields.print (fields : Fields) (offset : List Char) : List Char :=
  yearText fields.date.year ++ fields.tail offset

def readYear : List Char → Option (Int × List Char)
  | '+' :: rest =>
      (value? (rest.takeWhile isDigit)).map fun (year : Nat) => ((year : Int), rest.dropWhile isDigit)
  | '-' :: rest =>
      (value? (rest.takeWhile isDigit)).map fun (year : Nat) => (-(year : Int), rest.dropWhile isDigit)
  | text => (value? (text.take 4)).map fun (year : Nat) => ((year : Int), text.drop 4)

/-- A separator and a number of two digits. -/
def readPart (separator : Char) : List Char → Option (Nat × List Char)
  | c :: rest => if c = separator then (value? (rest.take 2)).map fun part => (part, rest.drop 2) else none
  | [] => none

def readFraction : List Char → Option (Nat × List Char)
  | '.' :: rest =>
      let digits := rest.takeWhile isDigit
      (value? digits).map fun part => (part * 10 ^ (9 - digits.length), rest.dropWhile isDigit)
  | text => some (0, text)

def Fields.read (text : List Char) : Option (Fields × List Char) := do
  let (year, text) ← readYear text
  let (month, text) ← readPart '-' text
  let (day, text) ← readPart '-' text
  let (hour, text) ← readPart 'T' text
  let (minute, text) ← readPart ':' text
  let (second, text) ← readPart ':' text
  let (nanos, text) ← readFraction text
  some ({ date := { year, month, day }, hour, minute, second, nanos }, text)

/-- What does not go on with a digit. -/
def Stops (text : List Char) : Prop := text.takeWhile isDigit = []

theorem stops_of_head {c : Char} (notDigit : isDigit c = false) (rest : List Char) :
    Stops (c :: rest) := by
  rw [Stops, List.takeWhile_cons, notDigit]
  rfl

theorem takeWhile_fixed {rest : List Char} (stops : Stops rest) (width number : Nat) :
    (fixed width number ++ rest).takeWhile isDigit = fixed width number := by
  rw [List.takeWhile_append_of_pos fun c member => isDigit_of_mem_fixed member, stops, List.append_nil]

theorem dropWhile_fixed {rest : List Char} (stops : Stops rest) (width number : Nat) :
    (fixed width number ++ rest).dropWhile isDigit = rest := by
  have whole := List.takeWhile_append_dropWhile (p := isDigit) (l := fixed width number ++ rest)
  rw [takeWhile_fixed stops] at whole
  exact List.append_cancel_left whole

theorem readPart_fixed {separator : Char} {number : Nat} (fits : number < 100) (rest : List Char) :
    readPart separator (separator :: (fixed 2 number ++ rest)) = some (number, rest) := by
  have taken : (fixed 2 number ++ rest).take 2 = fixed 2 number := List.take_left' (length_fixed ..)
  have dropped : (fixed 2 number ++ rest).drop 2 = rest := List.drop_left' (length_fixed ..)
  have value : value? (fixed 2 number) = some number := value?_fixed fits
  simp only [readPart, if_true, taken, dropped, value, Option.map_some]

theorem readYear_unsigned {c : Char} (digit : isDigit c = true) (rest : List Char) :
    readYear (c :: rest) =
      (value? ((c :: rest).take 4)).map fun (year : Nat) => ((year : Int), (c :: rest).drop 4) := by
  unfold readYear
  split
  · rename_i same
    cases same
    contradiction
  · rename_i same
    cases same
    contradiction
  · rfl

theorem natAbs_lt_pow (year : Int) : year.natAbs < 10 ^ max 4 (Nat.log 10 year.natAbs + 1) :=
  (Nat.lt_pow_succ_log_self (by decide) _).trans_le
    (Nat.pow_le_pow_right (by decide) (Nat.le_max_right ..))

theorem readYear_yearText (year : Int) {rest : List Char} (stops : Stops rest) :
    readYear (yearText year ++ rest) = some (year, rest) := by
  unfold yearText
  split
  · rename_i plain
    have fits : year.toNat < 10 ^ 4 := by omega
    have value : value? (fixed 4 year.toNat) = some year.toNat := value?_fixed fits
    have taken : (fixed 4 year.toNat ++ rest).take 4 = fixed 4 year.toNat :=
      List.take_left' (length_fixed ..)
    have dropped : (fixed 4 year.toNat ++ rest).drop 4 = rest := List.drop_left' (length_fixed ..)
    have starts : readYear (fixed 4 year.toNat ++ rest) =
        (value? ((fixed 4 year.toNat ++ rest).take 4)).map fun (number : Nat) =>
          ((number : Int), (fixed 4 year.toNat ++ rest).drop 4) :=
      readYear_unsigned (isDigit_digit _ (Nat.mod_lt _ (by decide))) _
    rw [starts, taken, value, dropped]
    simp only [Option.map_some, Option.some.injEq, Prod.mk.injEq, and_true]
    omega
  · rename_i signed
    have value := value?_fixed (natAbs_lt_pow year)
    split
    · simp only [List.cons_append, readYear, takeWhile_fixed stops, dropWhile_fixed stops, value,
        Option.map_some, Option.some.injEq, Prod.mk.injEq, and_true]
      omega
    · simp only [List.cons_append, readYear, takeWhile_fixed stops, dropWhile_fixed stops, value,
        Option.map_some, Option.some.injEq, Prod.mk.injEq, and_true]
      omega

/-- What may follow a fraction. -/
structure Ends (offset : List Char) : Prop where
  stops : Stops offset
  noPoint : ∀ rest, offset ≠ '.' :: rest

theorem readFraction_fixed {width number : Nat} (fits : number < 10 ^ width) {rest : List Char}
    (stops : Stops rest) :
    readFraction ('.' :: (fixed width number ++ rest)) = some (number * 10 ^ (9 - width), rest) := by
  simp only [readFraction, takeWhile_fixed stops, dropWhile_fixed stops, value?_fixed fits,
    Option.map_some, length_fixed]

theorem readFraction_fraction {nanos : Nat} (fits : nanos < 1000000000) {offset : List Char}
    (ends : Ends offset) : readFraction (fraction nanos ++ offset) = some (nanos, offset) := by
  unfold fraction
  split
  · rename_i zero
    subst zero
    unfold readFraction
    split
    · rename_i same
      exact absurd same (ends.noPoint _)
    · rfl
  split
  · have read := readFraction_fixed (show nanos / 1000000 < 10 ^ 3 by omega) ends.stops
    rw [List.cons_append, read, Option.some.injEq, Prod.mk.injEq]
    exact ⟨by omega, rfl⟩
  split
  · have read := readFraction_fixed (show nanos / 1000 < 10 ^ 6 by omega) ends.stops
    rw [List.cons_append, read, Option.some.injEq, Prod.mk.injEq]
    exact ⟨by omega, rfl⟩
  · have read := readFraction_fixed (show nanos < 10 ^ 9 by omega) ends.stops
    rw [List.cons_append, read, Nat.sub_self, Nat.pow_zero, Nat.mul_one]

theorem Fields.read_print {fields : Fields} (inRange : fields.InRange) {offset : List Char}
    (ends : Ends offset) : Fields.read (fields.print offset) = some (fields, offset) := by
  have year := readYear_yearText fields.date.year
    (stops_of_head (c := '-') (by decide) ((fields.tail offset).tail))
  simp only [Fields.print, Fields.read, Fields.tail, List.tail_cons] at year ⊢
  simp only [year, readPart_fixed inRange.month, readPart_fixed inRange.day,
    readPart_fixed inRange.hour, readPart_fixed inRange.minute, readPart_fixed inRange.second,
    readFraction_fraction inRange.nanos ends, Option.bind_eq_bind, Option.bind_some]

/-- The timestamp of an instant, in UTC. -/
def text (offset : List Char) (time : DateTime) : String := String.ofList ((fields time).print offset)

def ofText? (text : String) : Option DateTime := do
  let (fields, offset) ← Fields.read text.toList
  if offset = ['Z'] ∨ offset = ['+', '0', '0', ':', '0', '0'] then ofFields? fields else none

theorem ofText?_text {offset : List Char}
    (utc : offset = ['Z'] ∨ offset = ['+', '0', '0', ':', '0', '0']) (time : DateTime) :
    ofText? (text offset time) = some time := by
  have ends : Ends offset := by
    rcases utc with rfl | rfl
    · exact ⟨stops_of_head (by decide) _, nofun⟩
    · exact ⟨stops_of_head (by decide) _, nofun⟩
  simp only [ofText?, text, String.toList_ofList, Fields.read_print (fields_inRange time) ends,
    Option.bind_eq_bind, Option.bind_some, if_pos utc, ofFields?_fields]

/-- A numeric offset comes before any digit, and before the point. -/
def utc : List Char := ['+', '0', '0', ':', '0', '0']

section Order

variable {left right : List Char} {number number' : Nat}

theorem part_lt (separator : Char) (lt : number < number') (fits : number' < 100) :
    separator :: (fixed 2 number ++ left) < separator :: (fixed 2 number' ++ right) :=
  List.cons_lt_cons_iff.mpr (.inr ⟨rfl, append_lt_append (fixed_lt lt fits) (by simp) _ _⟩)

theorem part_eq (separator : Char) (lt : left < right) :
    separator :: (fixed 2 number ++ left) < separator :: (fixed 2 number ++ right) :=
  List.cons_lt_cons_iff.mpr (.inr ⟨rfl, List.append_left_lt lt⟩)

/-- The fraction in groups of three digits, without zeros at the end. -/
theorem fraction_eq {nanos : Nat} (nonzero : nanos ≠ 0) : fraction nanos =
    '.' :: (fixed 3 (nanos / 1000000) ++
      if nanos % 1000000 = 0 then [] else fixed 3 (nanos / 1000 % 1000) ++
        if nanos % 1000 = 0 then [] else fixed 3 (nanos % 1000)) := by
  unfold fraction
  rw [if_neg nonzero]
  split
  · simp
  have high : fixed 6 (nanos / 1000) =
      fixed 3 (nanos / 1000000) ++ fixed 3 (nanos / 1000 % 1000) := by
    have grouped := fixed_add 3 3 (nanos / 1000000) (nanos / 1000 % 1000) (by omega)
    rwa [show nanos / 1000000 * 10 ^ 3 + nanos / 1000 % 1000 = nanos / 1000 by omega] at grouped
  split
  · rw [high, List.append_nil]
  · have low := fixed_add 6 3 (nanos / 1000) (nanos % 1000) (by omega)
    rw [show nanos / 1000 * 10 ^ 3 + nanos % 1000 = nanos by omega, high, List.append_assoc] at low
    exact congrArg ('.' :: ·) low

theorem utc_lt_fixed (number : Nat) (rest : List Char) : utc < fixed 3 number ++ rest := by
  have before : ∀ value < 10, '+' < digit value := by decide
  exact List.cons_lt_cons_iff.mpr (.inl (before _ (Nat.mod_lt _ (by decide))))

theorem fraction_lt (lt : number < number') (fits : number' < 1000000000) :
    fraction number ++ utc < fraction number' ++ utc := by
  rw [fraction_eq (show number' ≠ 0 by omega)]
  by_cases zero : number = 0
  · subst zero
    exact List.cons_lt_cons_iff.mpr (.inl (by decide))
  rw [fraction_eq zero, List.cons_append, List.cons_append, List.append_assoc, List.append_assoc]
  refine List.cons_lt_cons_iff.mpr (.inr ⟨rfl, ?_⟩)
  rcases Nat.lt_or_eq_of_le (show number / 1000000 ≤ number' / 1000000 by omega) with first | first
  · exact append_lt_append (fixed_lt first (by omega)) (by simp) _ _
  rw [first, if_neg (show number' % 1000000 ≠ 0 by omega)]
  refine List.append_left_lt ?_
  split
  · rw [List.append_assoc]
    exact utc_lt_fixed ..
  rw [List.append_assoc, List.append_assoc]
  rcases Nat.lt_or_eq_of_le (show number / 1000 % 1000 ≤ number' / 1000 % 1000 by omega) with
    second | second
  · exact append_lt_append (fixed_lt second (by omega)) (by simp) _ _
  rw [second, if_neg (show number' % 1000 ≠ 0 by omega)]
  refine List.append_left_lt ?_
  split
  · exact utc_lt_fixed ..
  · exact append_lt_append (fixed_lt (by omega) (by omega)) (by simp) _ _

end Order

/-- An earlier date and time of day, whatever the year. -/
def Fields.Before (left right : Fields) : Prop :=
  left.date.month < right.date.month ∨ left.date.month = right.date.month ∧
    (left.date.day < right.date.day ∨ left.date.day = right.date.day ∧
      (left.hour < right.hour ∨ left.hour = right.hour ∧
        (left.minute < right.minute ∨ left.minute = right.minute ∧
          (left.second < right.second ∨ left.second = right.second ∧ left.nanos < right.nanos))))

theorem Fields.tail_lt {left right : Fields} (inRange : right.InRange) (before : left.Before right) :
    left.tail utc < right.tail utc := by
  unfold Fields.tail
  rcases before with month | ⟨month, before⟩
  · exact part_lt _ month inRange.month
  rw [month]
  refine part_eq _ ?_
  rcases before with day | ⟨day, before⟩
  · exact part_lt _ day inRange.day
  rw [day]
  refine part_eq _ ?_
  rcases before with hour | ⟨hour, before⟩
  · exact part_lt _ hour inRange.hour
  rw [hour]
  refine part_eq _ ?_
  rcases before with minute | ⟨minute, before⟩
  · exact part_lt _ minute inRange.minute
  rw [minute]
  refine part_eq _ ?_
  rcases before with second | ⟨second, nanos⟩
  · exact part_lt _ second inRange.second
  rw [second]
  exact part_eq _ (fraction_lt nanos inRange.nanos)

theorem before_of_lt {left right : DateTime} (lt : left < right) (sameYear : left.year = right.year) :
    (fields left).Before (fields right) := by
  have nanosLt : left.nanos < right.nanos := lt
  have leftNanos := nanos_eq left
  have rightNanos := nanos_eq right
  have leftSecond := secondOfDay_bounds left
  have rightSecond := secondOfDay_bounds right
  have leftSub := subsecNanos_bounds left
  have rightSub := subsecNanos_bounds right
  unfold nanosPerDay nanosPerSecond at leftNanos rightNanos
  unfold Fields.Before
  simp only [fields, DateTime.date]
  rcases Int.lt_or_eq_of_le (show left.day ≤ right.day by omega) with earlier | sameDay
  · rcases Calendar.date_lt earlier with year | ⟨_, month | ⟨month, day⟩⟩
    · exact absurd year (by simp only [Calendar.date]; exact not_lt_of_ge sameYear.ge)
    · exact .inl month
    · exact .inr ⟨month, .inl day⟩
  · rw [sameDay]
    refine .inr ⟨rfl, .inr ⟨rfl, ?_⟩⟩
    rcases Int.lt_or_eq_of_le (show left.secondOfDay ≤ right.secondOfDay by omega) with earlier | same
    · omega
    · rw [same]
      refine .inr ⟨rfl, .inr ⟨rfl, .inr ⟨rfl, ?_⟩⟩⟩
      omega

/-- The two years compare as text the way they compare as numbers. -/
def YearsInOrder (left right : Int) : Prop := yearText left ≤ yearText right ↔ left ≤ right

instance (left right : Int) : Decidable (YearsInOrder left right) :=
  inferInstanceAs (Decidable (_ ↔ _))

theorem yearText_injective : Function.Injective yearText := by
  intro left right same
  have stops := stops_of_head (show isDigit '-' = false by decide) []
  have read := readYear_yearText left stops
  rw [same, readYear_yearText right stops, Option.some.injEq, Prod.mk.injEq] at read
  exact read.1.symm

theorem isDigit_of_mem_tail {year : Int} {c : Char} (member : c ∈ (yearText year).tail) :
    isDigit c = true := by
  unfold yearText at member
  split at member
  · exact isDigit_of_mem_fixed (List.mem_of_mem_tail member)
  · exact isDigit_of_mem_fixed member

theorem yearText_ne_nil (year : Int) : yearText year ≠ [] := by
  intro empty
  have read := readYear_yearText year (stops_of_head (show isDigit '-' = false by decide) [])
  have value : readYear ['-'] = some (0, []) := rfl
  rw [empty, List.nil_append, value] at read
  cases read

/-- A smaller text stays smaller before a character below the rest of the larger. -/
theorem append_stop_lt {left right : List Char} {stop : Char} (lt : left < right)
    (above : ∀ c ∈ right.drop left.length, stop < c) (after after' : List Char) :
    left ++ stop :: after < right ++ after' := by
  induction left generalizing right with
  | nil =>
      cases right with
      | nil => exact absurd lt (List.lt_irrefl [])
      | cons c right => exact List.cons_lt_cons_iff.mpr (.inl (above c (by simp)))
  | cons c left ih =>
      cases right with
      | nil => contradiction
      | cons c' right =>
          rcases List.cons_lt_cons_iff.mp lt with first | ⟨rfl, later⟩
          · exact List.cons_lt_cons_iff.mpr (.inl first)
          · exact List.cons_lt_cons_iff.mpr (.inr ⟨rfl, ih later (by simpa using above)⟩)

theorem year_lt {left right : Int} (lt : yearText left < yearText right) (after after' : List Char) :
    yearText left ++ '-' :: after < yearText right ++ after' := by
  refine append_stop_lt lt (fun c member => ?_) _ _
  obtain ⟨first, more, starts⟩ := List.exists_cons_of_ne_nil (yearText_ne_nil left)
  rw [starts, List.length_cons, ← List.drop_tail] at member
  have digit := isDigit_of_mem_tail (List.mem_of_mem_drop member)
  unfold isDigit at digit
  simp only [decide_eq_true_eq] at digit
  exact lt_of_lt_of_le (by decide) digit.1

theorem year_le {left right : DateTime} (le : left ≤ right) : left.year ≤ right.year := by
  refine Calendar.yearOf_mono ?_
  have nanos : left.nanos ≤ right.nanos := le
  unfold DateTime.day nanosPerDay nanosPerSecond
  omega

theorem text_lt_of_year {left right : DateTime}
    (lt : yearText left.year < yearText right.year) : text utc left < text utc right := by
  rw [String.lt_iff, text, text, String.toList_ofList, String.toList_ofList]
  exact year_lt lt _ _

theorem text_lt_of_lt {left right : DateTime} (lt : left < right) (same : left.year = right.year) :
    text utc left < text utc right := by
  have sameText : yearText (fields left).date.year = yearText (fields right).date.year :=
    congrArg yearText same
  rw [String.lt_iff, text, text, String.toList_ofList, String.toList_ofList, Fields.print,
    Fields.print, sameText]
  exact List.append_left_lt (Fields.tail_lt (fields_inRange right) (before_of_lt lt same))

/-- Two timestamps compare as text the way the instants compare if and only if the
years do. -/
theorem text_le_iff {left right : DateTime} :
    (text utc left ≤ text utc right ↔ left ≤ right) ↔ YearsInOrder left.year right.year := by
  by_cases same : left.year = right.year
  · have years : YearsInOrder left.year right.year := by simp [YearsInOrder, same]
    refine iff_of_true ⟨fun le => ?_, fun le => ?_⟩ years
    · by_contra later
      exact not_lt_of_ge le (text_lt_of_lt (lt_of_not_ge later) same.symm)
    · rcases lt_or_eq_of_le le with lt | rfl
      · exact (text_lt_of_lt lt same).le
      · exact le_refl _
  · have texts : text utc left ≤ text utc right ↔ yearText left.year ≤ yearText right.year := by
      rcases lt_trichotomy (yearText left.year) (yearText right.year) with lt | eq | gt
      · exact iff_of_true (text_lt_of_year lt).le lt.le
      · exact absurd (yearText_injective eq) same
      · exact iff_of_false (text_lt_of_year gt).not_ge gt.not_ge
    have instants : left ≤ right ↔ left.year ≤ right.year := by
      refine ⟨year_le, fun le => le_of_not_gt fun gt => ?_⟩
      exact same (le_antisymm le (year_le gt.le))
    rw [texts, instants, YearsInOrder]

theorem yearsInOrder_of_plain {left right : Int} (plainLeft : 0 ≤ left ∧ left ≤ 9999)
    (plainRight : 0 ≤ right ∧ right ≤ 9999) : YearsInOrder left right := by
  have text_lt {early late : Int} (plainEarly : 0 ≤ early ∧ early ≤ 9999)
      (plainLate : 0 ≤ late ∧ late ≤ 9999) (lt : early < late) : yearText early < yearText late := by
    rw [yearText, yearText, if_pos plainEarly, if_pos plainLate]
    exact fixed_lt (by omega) (show late.toNat < 10 ^ 4 by omega)
  rcases lt_trichotomy left right with lt | rfl | gt
  · exact iff_of_true (text_lt plainLeft plainRight lt).le lt.le
  · exact iff_of_true (le_refl _) (le_refl _)
  · exact iff_of_false (text_lt plainRight plainLeft gt).not_ge gt.not_ge

theorem ascii_fixed (width number : Nat) : Ascii (fixed width number) := by
  intro c member
  have digit := isDigit_of_mem_fixed member
  rw [isDigit, decide_eq_true_eq] at digit
  exact lt_of_le_of_lt digit.2 (show ('9' : Char).toNat < 128 by decide)

theorem ascii_fraction (nanos : Nat) : Ascii (fraction nanos) := by
  unfold fraction
  split
  · exact .nil
  split
  · exact .cons (by decide) (ascii_fixed _ _)
  split
  · exact .cons (by decide) (ascii_fixed _ _)
  · exact .cons (by decide) (ascii_fixed _ _)

theorem ascii_yearText (year : Int) : Ascii (yearText year) := by
  unfold yearText
  split
  · exact ascii_fixed _ _
  · refine .cons ?_ (ascii_fixed _ _)
    split <;> decide

theorem ascii_part {separator : Char} (first : separator.toNat < 128) (number : Nat) {rest : List Char}
    (after : Ascii rest) : Ascii (separator :: (fixed 2 number ++ rest)) :=
  .cons first ((ascii_fixed _ _).append after)

theorem ascii_text (time : DateTime) : Ascii (text utc time).toList := by
  have offset : utc.all (fun c => decide (c.toNat < 128)) = true := rfl
  rw [text, String.toList_ofList, Fields.print, Fields.tail]
  exact (ascii_yearText _).append <| ascii_part (by decide) _ <| ascii_part (by decide) _ <|
    ascii_part (by decide) _ <| ascii_part (by decide) _ <| ascii_part (by decide) _ <|
    (ascii_fraction _).append fun c member => of_decide_eq_true (List.all_eq_true.mp offset c member)

/-- The bytes of two timestamps compare the way the instants do if and only if their
years compare as text the way they do as numbers. -/
theorem utf8_text_le_iff {left right : DateTime} :
    (utf8 (text utc left) ≤ utf8 (text utc right) ↔ left ≤ right) ↔
      YearsInOrder left.year right.year := by
  rw [utf8_le_iff (ascii_text left) (ascii_text right)]
  exact text_le_iff

end TariVault.Rfc3339
