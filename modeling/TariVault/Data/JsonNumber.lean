import Mathlib.Algebra.Field.Rat
import Mathlib.Data.Rat.Defs

namespace TariVault.Json

/-! # Number literals of JSON

What a literal denotes, how it is written, and a reader that gets it back.
-/

/-- A literal with a fraction or an exponent. -/
structure Fractional where
  negative : Bool
  whole : Nat
  fraction : List (Fin 10)
  exponent : Option Int
  marked : fraction ≠ [] ∨ exponent ≠ none
deriving DecidableEq

inductive Numeral where
  | integer (negative : Bool) (magnitude : Nat)
  | fractional (literal : Fractional)
deriving DecidableEq

def signed (negative : Bool) (magnitude : ℚ) : ℚ := if negative then -magnitude else magnitude

instance ten_ne_zero : NeZero (10 : Nat) := ⟨by decide⟩

def digitsValue (digits : List (Fin 10)) : Nat := digits.foldl (fun value digit => value * 10 + digit.val) 0

def Fractional.value (literal : Fractional) : ℚ :=
  signed literal.negative
    ((literal.whole + digitsValue literal.fraction / 10 ^ literal.fraction.length) *
      10 ^ literal.exponent.getD 0)

def Numeral.value : Numeral → ℚ
  | .integer negative magnitude => signed negative magnitude
  | .fractional literal => literal.value

def sign (negative : Bool) : List Char := if negative then ['-'] else []

def fractionChars : List (Fin 10) → List Char
  | [] => []
  | digits => '.' :: digits.map fun digit => digit.val.digitChar

/-- An exponent has a sign even when it is positive. -/
def exponentChars : Option Int → List Char
  | none => []
  | some exponent => 'e' :: (if exponent < 0 then '-' else '+') :: Nat.toDigits 10 exponent.natAbs

def Numeral.chars : Numeral → List Char
  | .integer negative magnitude => sign negative ++ Nat.toDigits 10 magnitude
  | .fractional literal => sign literal.negative ++ (Nat.toDigits 10 literal.whole ++
      (fractionChars literal.fraction ++ exponentChars literal.exponent))

def readSign : List Char → Bool × List Char
  | '-' :: rest => (true, rest)
  | rest => (false, rest)

/-- The integer part, without superfluous zeros in front. -/
def readWhole (text : List Char) : Option (Nat × List Char) :=
  let digits := text.takeWhile Char.isDigit
  if digits = [] ∨ (digits.head? = some '0' ∧ digits ≠ ['0']) then none
  else some (Nat.ofDigitChars 10 digits 0, text.dropWhile Char.isDigit)

def readFraction : List Char → Option (List (Fin 10) × List Char)
  | '.' :: rest =>
      let digits := rest.takeWhile Char.isDigit
      if digits = [] then none
      else some (digits.map fun digit => Fin.ofNat 10 (digit.toNat - 48), rest.dropWhile Char.isDigit)
  | rest => some ([], rest)

def readExponent : List Char → Option (Option Int)
  | [] => some none
  | mark :: rest =>
      let (negative, digits) := match rest with
        | '+' :: digits => (false, digits)
        | rest => readSign rest
      if (mark = 'e' ∨ mark = 'E') ∧ digits ≠ [] ∧ digits.all Char.isDigit then
        some (some (if negative then -(Nat.ofDigitChars 10 digits 0) else Nat.ofDigitChars 10 digits 0))
      else none

def Numeral.read? (text : List Char) : Option Numeral := do
  let (negative, text) := readSign text
  let (whole, text) ← readWhole text
  let (fraction, text) ← readFraction text
  let exponent ← readExponent text
  return if marked : fraction ≠ [] ∨ exponent ≠ none then
    .fractional { negative, whole, fraction, exponent, marked } else .integer negative whole

section RoundTrip

variable {rest : List Char}

/-- No digit follows. -/
def Stops (rest : List Char) : Prop := ∀ c ∈ rest.head?, c.isDigit = false

theorem split_digits {digits : List Char} (all : ∀ c ∈ digits, c.isDigit = true) (stops : Stops rest) :
    (digits ++ rest).takeWhile Char.isDigit = digits ∧ (digits ++ rest).dropWhile Char.isDigit = rest := by
  induction digits with
  | nil =>
      cases rest with
      | nil => exact ⟨rfl, rfl⟩
      | cons c rest =>
          have stop : c.isDigit = false := stops c rfl
          simp [stop]
  | cons digit digits ih =>
      obtain ⟨taken, dropped⟩ := ih fun c member => all c (List.mem_cons_of_mem _ member)
      have here := all digit List.mem_cons_self
      simp [here, taken, dropped]

theorem isDigit_toDigits (number : Nat) : ∀ c ∈ Nat.toDigits 10 number, c.isDigit = true :=
  fun _ member => Nat.isDigit_of_mem_toDigits (by decide) (by decide) member

theorem digitChar_ne_zero : ∀ digit < 10, 0 < digit → digit.digitChar ≠ '0' := by decide

theorem isDigit_digitChar : ∀ digit : Fin 10, digit.val.digitChar.isDigit = true := by decide

theorem ofNat_digitChar : ∀ digit : Fin 10, Fin.ofNat 10 (digit.val.digitChar.toNat - 48) = digit := by
  decide

theorem head_toDigits_ne_zero {number : Nat} (positive : 0 < number) :
    (Nat.toDigits 10 number).head? ≠ some '0' := by
  induction number using Nat.strongRecOn with
  | ind number ih =>
      rw [Nat.toDigits_eq_if (by decide)]
      split
      · rename_i small
        simpa using digitChar_ne_zero number small positive
      · have front := ih (number / 10) (by omega) (by omega)
        rw [List.head?_append, Option.or_of_isSome (by simp [Nat.toDigits_ne_nil])]
        exact front

theorem readWhole_toDigits (number : Nat) (stops : Stops rest) :
    readWhole (Nat.toDigits 10 number ++ rest) = some (number, rest) := by
  obtain ⟨taken, dropped⟩ := split_digits (isDigit_toDigits number) stops
  have regular : ¬ (Nat.toDigits 10 number = [] ∨
      ((Nat.toDigits 10 number).head? = some '0' ∧ Nat.toDigits 10 number ≠ ['0'])) := by
    intro holds
    rcases holds with empty | ⟨zero, more⟩
    · exact Nat.toDigits_ne_nil empty
    · rcases Nat.eq_zero_or_pos number with rfl | positive
      · exact more (Nat.toDigits_zero 10)
      · exact head_toDigits_ne_zero positive zero
  simp only [readWhole, taken, dropped, regular, if_false, Nat.ofDigitChars_ten_toDigits]

theorem readFraction_chars (digits : List (Fin 10)) (stops : Stops rest)
    (noPoint : ∀ c ∈ rest.head?, c ≠ '.') :
    readFraction (fractionChars digits ++ rest) = some (digits, rest) := by
  cases digits with
  | nil =>
      cases rest with
      | nil => rfl
      | cons c rest =>
          have notPoint := noPoint c rfl
          simp only [fractionChars, List.nil_append]
          unfold readFraction
          split
          · rename_i same
            injection same with first
            exact absurd first notPoint
          · rfl
  | cons digit digits =>
      have all : ∀ c ∈ (digit :: digits).map (fun digit => digit.val.digitChar), c.isDigit = true := by
        intro c member
        obtain ⟨digit, _, rfl⟩ := List.mem_map.mp member
        exact isDigit_digitChar digit
      obtain ⟨taken, dropped⟩ := split_digits all stops
      have back : ((digit :: digits).map (fun digit => digit.val.digitChar)).map
          (fun c => Fin.ofNat 10 (c.toNat - 48)) = digit :: digits := by
        rw [List.map_map]
        exact (List.map_congr_left fun digit _ => ofNat_digitChar digit).trans (List.map_id _)
      simp only [fractionChars, List.cons_append, readFraction]
      rw [taken, dropped, if_neg (by simp), back]

theorem toDigits_eq_cons (number : Nat) :
    ∃ c rest, Nat.toDigits 10 number = c :: rest ∧ c.isDigit = true := by
  obtain ⟨c, rest, digits⟩ := List.exists_cons_of_ne_nil (Nat.toDigits_ne_nil (b := 10) (n := number))
  exact ⟨c, rest, digits, isDigit_toDigits number c (digits ▸ List.mem_cons_self)⟩

theorem readSign_sign (negative : Bool) {text : List Char} (unsigned : ∀ c ∈ text.head?, c ≠ '-') :
    readSign (sign negative ++ text) = (negative, text) := by
  cases negative with
  | true => rfl
  | false =>
      simp only [sign, Bool.false_eq_true, if_false, List.nil_append]
      unfold readSign
      split
      · exact absurd rfl (unsigned '-' rfl)
      · rfl

theorem readExponent_chars (exponent : Option Int) : readExponent (exponentChars exponent) = some exponent := by
  cases exponent with
  | none => rfl
  | some exponent =>
      have all : (Nat.toDigits 10 exponent.natAbs).all Char.isDigit = true :=
        List.all_eq_true.mpr (isDigit_toDigits exponent.natAbs)
      by_cases below : exponent < 0
      · have magnitude : -(exponent.natAbs : Int) = exponent := by omega
        refine Eq.trans ?_ (congrArg (some ∘ some) magnitude)
        simp [exponentChars, below, readExponent, readSign, all, Nat.toDigits_ne_nil]
      · have magnitude : (exponent.natAbs : Int) = exponent := by omega
        refine Eq.trans ?_ (congrArg (some ∘ some) magnitude)
        simp [exponentChars, below, readExponent, all, Nat.toDigits_ne_nil]

theorem unsigned_toDigits (number : Nat) (rest : List Char) :
    ∀ c ∈ (Nat.toDigits 10 number ++ rest).head?, c ≠ '-' := by
  obtain ⟨first, more, digits, isDigit⟩ := toDigits_eq_cons number
  rw [digits]
  intro c equal equal'
  cases equal
  subst equal'
  contradiction

theorem stops_exponentChars (exponent : Option Int) : Stops (exponentChars exponent) := by
  cases exponent with
  | none => simp [Stops, exponentChars]
  | some exponent =>
      intro c equal
      cases equal
      rfl

theorem stops_fractionChars (fraction : List (Fin 10)) (stops : Stops rest) :
    Stops (fractionChars fraction ++ rest) := by
  cases fraction with
  | nil => exact stops
  | cons digit digits =>
      intro c equal
      cases equal
      rfl

theorem Numeral.read?_chars (numeral : Numeral) : Numeral.read? numeral.chars = some numeral := by
  cases numeral with
  | integer negative magnitude =>
      have unsigned := unsigned_toDigits magnitude []
      have whole := @readWhole_toDigits [] magnitude (by simp [Stops])
      rw [List.append_nil] at unsigned whole
      simp only [read?, chars, readSign_sign negative unsigned, whole, Option.bind_eq_bind, Option.bind_some,
        readFraction, readExponent]
      rfl
  | fractional literal =>
      obtain ⟨negative, whole, fraction, exponent, marked⟩ := literal
      have noPoint : ∀ c ∈ (exponentChars exponent).head?, c ≠ '.' := by
        cases exponent with
        | none => simp [exponentChars]
        | some exponent =>
            intro c equal
            cases equal
            decide
      have stops := stops_exponentChars exponent
      simp only [read?, chars, readSign_sign negative (unsigned_toDigits whole _), Option.bind_eq_bind,
        readWhole_toDigits whole (stops_fractionChars fraction stops), Option.bind_some,
        readFraction_chars fraction stops noPoint, readExponent_chars, dif_pos marked]
      rfl

/-- What may stand in a literal. -/
def isWord (c : Char) : Bool := c.isAlphanum || c = '-' || c = '+' || c = '.'

theorem isWord_of_isDigit {c : Char} (digit : c.isDigit = true) : isWord c = true := by
  simp [isWord, Char.isAlphanum, digit]

theorem Numeral.isWord_chars (numeral : Numeral) : ∀ c ∈ numeral.chars, isWord c = true := by
  have signs (negative : Bool) : ∀ c ∈ sign negative, isWord c = true := by
    cases negative <;> simp [sign, isWord]
  have digits (number : Nat) : ∀ c ∈ Nat.toDigits 10 number, isWord c = true :=
    fun c member => isWord_of_isDigit (isDigit_toDigits number c member)
  have fractions (fraction : List (Fin 10)) : ∀ c ∈ fractionChars fraction, isWord c = true := by
    cases fraction with
    | nil => simp [fractionChars]
    | cons digit fraction =>
        intro c member
        rcases List.mem_cons.mp member with rfl | member
        · rfl
        · obtain ⟨digit, _, rfl⟩ := List.mem_map.mp member
          exact isWord_of_isDigit (isDigit_digitChar digit)
  have exponents (exponent : Option Int) : ∀ c ∈ exponentChars exponent, isWord c = true := by
    cases exponent with
    | none => simp [exponentChars]
    | some exponent =>
        intro c member
        rcases List.mem_cons.mp member with rfl | member
        · rfl
        · rcases List.mem_cons.mp member with rfl | member
          · split <;> rfl
          · exact digits _ c member
  intro c member
  cases numeral with
  | integer negative magnitude =>
      rcases List.mem_append.mp member with member | member
      · exact signs negative c member
      · exact digits magnitude c member
  | fractional literal =>
      simp only [chars, List.mem_append] at member
      rcases member with member | member | member | member
      · exact signs _ c member
      · exact digits _ c member
      · exact fractions _ c member
      · exact exponents _ c member

theorem Numeral.chars_ne_nil (numeral : Numeral) : numeral.chars ≠ [] := by
  cases numeral <;> simp [chars, Nat.toDigits_ne_nil]

end RoundTrip

end TariVault.Json
