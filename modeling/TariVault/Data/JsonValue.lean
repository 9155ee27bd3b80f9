import TariVault.Data.RawValue

namespace TariVault

open Json

/-! # The JSON values of the library

Integers of 64 bits are kept as they are, every other number becomes a float. How
floats are read and written is left open.
-/

/-- What the library does with floats, and how it words the error for bytes that it
does not read. -/
structure SerdeJson where
  Float : Type
  /-- The float of an integer literal; `none` when it is out of range. -/
  ofInteger (negative : Bool) (magnitude : Nat) : Option Float
  ofFractional (literal : Fractional) : Option Float
  print (float : Float) : Fractional
  describe (bytes : Bytes) : String

namespace SerdeJson

/-- A long integer in scientific form, with seventeen digits. -/
def scientific (negative : Bool) (magnitude : Nat) : Fractional where
  negative := negative
  whole := (leading magnitude) / 10 ^ 16
  fraction := (List.range 16).map fun place => Fin.ofNat 10 (leading magnitude / 10 ^ (15 - place))
  exponent := some (excess magnitude + 16)
  marked := .inr nofun
where
  excess (magnitude : Nat) : Nat := (Nat.toDigits 10 magnitude).length - 17
  leading (magnitude : Nat) : Nat := (magnitude + 10 ^ excess magnitude / 2) / 10 ^ excess magnitude

/-- A stand-in for concrete runs: a float is what it is written as. -/
def decimal : SerdeJson where
  Float := Fractional
  ofInteger negative magnitude :=
    if magnitude < 10 ^ 16 then some ⟨negative, magnitude, [0], none, .inl nofun⟩
    else some (scientific negative magnitude)
  ofFractional := some
  print float := float
  describe _ := "expected value at line 1 column 1"

end SerdeJson

inductive Number (json : SerdeJson) where
  | posInt (value : UInt64)
  | negInt (value : Int64)
  | float (value : json.Float)

namespace SerdeJson

variable (json : SerdeJson)

/-- Minus zero is a float. -/
def readNumber : Numeral → Option (Number json)
  | .integer false magnitude =>
      if magnitude < 2 ^ 64 then some (.posInt (UInt64.ofNat magnitude))
      else (json.ofInteger false magnitude).map .float
  | .integer true magnitude =>
      if 0 < magnitude ∧ magnitude ≤ 2 ^ 63 then some (.negInt (Int64.ofInt (-magnitude)))
      else (json.ofInteger true magnitude).map .float
  | .fractional literal => (json.ofFractional literal).map .float

def printNumber : Number json → Numeral
  | .posInt value => .integer false value.toNat
  | .negInt value => .integer (value < 0) value.toInt.natAbs
  | .float value => .fractional (json.print value)

end SerdeJson

/-- A value of the library. Its objects are maps sorted by key. -/
structure JsonValue (json : SerdeJson) where
  tree : Tree (Number json) .value
  sorted : tree.Sorted

namespace JsonValue

variable {json : SerdeJson}

/-- Raw values are read, literals become numbers and objects maps. -/
def ofDocument (document : Document) : Option (JsonValue json) :=
  (unwrapRaw recursionLimit document).bind fun document =>
    (document.mapM json.readNumber).map fun tree => ⟨tree.normal, tree.sorted_normal⟩

def document (value : JsonValue json) : Document := value.tree.map json.printNumber

protected def toString (value : JsonValue json) : String := String.ofList value.document.print

/-- A value that stands inside `enclosing` arrays and objects of a request. -/
def receive (enclosing : Nat) (text : List Char) : Option (JsonValue json) :=
  (readDocument (recursionLimit - enclosing) text).bind ofDocument

def toVec (value : JsonValue json) : Bytes := toBytes value.toString

def fromSlice (json : SerdeJson) (bytes : Bytes) : Except String (JsonValue json) :=
  match (ofBytes? bytes).bind fun text => (readDocument recursionLimit text.toList).bind ofDocument with
  | some value => .ok value
  | none => .error (json.describe bytes)

end JsonValue

/-- What a document says: its structure, its texts and the numbers its literals
denote. The order of the members of an object says nothing. -/
def Json.meaning (document : Document) : Tree ℚ .value := (document.map Numeral.value).normal

namespace SerdeJson

variable {json : SerdeJson} {literal : Numeral}

/-- Integers that the library keeps as integers. -/
def Fits : Numeral → Prop
  | .integer false magnitude => magnitude < 2 ^ 64
  | .integer true magnitude => 0 < magnitude ∧ magnitude ≤ 2 ^ 63
  | .fractional _ => False

def IsInteger : Numeral → Prop
  | .integer _ _ => True
  | .fractional _ => False

instance : DecidablePred Fits
  | .integer false magnitude => inferInstanceAs (Decidable (magnitude < 2 ^ 64))
  | .integer true magnitude => inferInstanceAs (Decidable (0 < magnitude ∧ magnitude ≤ 2 ^ 63))
  | .fractional _ => inferInstanceAs (Decidable False)

instance : DecidablePred IsInteger
  | .integer _ _ => inferInstanceAs (Decidable True)
  | .fractional _ => inferInstanceAs (Decidable False)

/-- The library writes the decimal for one of its floats. -/
def Prints (json : SerdeJson) (decimal : ℚ) : Prop := ∃ float, (json.print float).value = decimal

/-- However the decimal is spelled, the library reads a number that it writes as this
decimal. -/
def Rereads (json : SerdeJson) (decimal : ℚ) : Prop :=
  ∀ literal : Numeral, literal.value = decimal →
    ∃ number, json.readNumber literal = some number ∧ (json.printNumber number).value = decimal

theorem readNumber_fits (fits : Fits literal) :
    ∃ number, json.readNumber literal = some number ∧ json.printNumber number = literal := by
  match literal, fits with
  | .integer false magnitude, small =>
      refine ⟨_, if_pos small, ?_⟩
      rw [printNumber, UInt64.toNat_ofNat_of_lt' small]
  | .integer true magnitude, within =>
      obtain ⟨positive, small⟩ := within
      have exact : (Int64.ofInt (-magnitude)).toInt = -magnitude :=
        Int64.toInt_ofInt_of_le (by omega) (by omega)
      have negative : Int64.ofInt (-magnitude) < 0 := by
        rw [Int64.lt_iff_toInt_lt, exact]
        simpa using positive
      refine ⟨_, if_pos ⟨positive, small⟩, ?_⟩
      rw [printNumber, exact, decide_eq_true negative, Int.natAbs_neg, Int.natAbs_natCast]

theorem readNumber_float (integer : IsInteger literal) (large : ¬ Fits literal) :
    ∃ negative magnitude, literal = .integer negative magnitude ∧
      json.readNumber literal = (json.ofInteger negative magnitude).map .float := by
  match literal, integer, large with
  | .integer false magnitude, _, large => exact ⟨false, magnitude, rfl, if_neg large⟩
  | .integer true magnitude, _, large => exact ⟨true, magnitude, rfl, if_neg large⟩

end SerdeJson

namespace JsonValue

variable {json : SerdeJson} {value again : JsonValue json} {document : Document}

/-- Reading a plain document replaces its literals and sorts its objects. -/
theorem ofDocument_eq (plain : document.Plain) {number : Numeral → Number json}
    (reads : ∀ literal ∈ document.numbers, json.readNumber literal = some (number literal)) :
    ∃ value, ofDocument document = some value ∧ value.tree = document.normal.map number := by
  refine ⟨⟨_, Tree.sorted_normal _⟩, ?_, Tree.normal_map _ _⟩
  rw [ofDocument, unwrapRaw_plain plain, Option.bind_some, Tree.mapM_eq_some_map reads, Option.map_some]

theorem reads_of_ofDocument (plain : document.Plain) (made : ofDocument document = some value) :
    ∀ literal ∈ document.numbers, (json.readNumber literal).isSome := by
  rw [ofDocument, unwrapRaw_plain plain, Option.bind_some] at made
  obtain ⟨tree, read, _⟩ := Option.map_eq_some_iff.mp made
  exact Tree.isSome_of_mapM read

/-- A value is no wider than its document, and narrower if raw values were read. -/
theorem width_ofDocument (made : ofDocument document = some value) :
    value.tree.width ≤ document.width ∧ (document.width ≤ value.tree.width → document.Plain) := by
  obtain ⟨inside, unwrapped, mapped⟩ := Option.bind_eq_some_iff.mp made
  obtain ⟨tree, read, rfl⟩ := Option.map_eq_some_iff.mp mapped
  obtain ⟨narrower, plain⟩ := width_unwrapRaw unwrapped
  have same := Tree.width_mapM read
  have sorted : tree.normal.width ≤ tree.width := tree.width_normal_le
  exact ⟨(sorted.trans_eq same).trans narrower, fun wide => plain ((wide.trans sorted).trans_eq same)⟩

/-- The text of a value is read unless it is nested too deep, or its document is not
taken for a value again. -/
theorem fromSlice_toVec : fromSlice json value.toVec = .ok again ↔
    value.tree.depth < recursionLimit ∧ ofDocument value.document = some again := by
  have depth : value.tree.depth = value.document.depth := (Tree.depth_map json.printNumber value.tree).symm
  have text : fromSlice json value.toVec =
      match (readDocument recursionLimit value.document.print).bind ofDocument with
      | some value => .ok value
      | none => .error (json.describe value.toVec) := by
    rw [fromSlice, toVec, ofBytes?_toBytes, Option.bind_some, JsonValue.toString, String.toList_ofList]
  rw [depth, ← @readDocument_print_iff recursionLimit value.document (by decide), text]
  constructor
  · intro readable
    cases read : readDocument recursionLimit value.document.print with
    | none =>
        rw [read] at readable
        contradiction
    | some document =>
        have shallow := (readDocument_print_iff (by decide)).mp (Option.isSome_of_eq_some read)
        cases (readDocument_print shallow).symm.trans read
        rw [read, Option.bind_some] at readable
        split at readable
        · rename_i made
          cases readable
          exact ⟨rfl, made⟩
        · contradiction
  · intro holds
    obtain ⟨readable, made⟩ := holds
    rw [readDocument_print ((readDocument_print_iff (by decide)).mp readable), Option.bind_some, made]

end JsonValue

end TariVault
