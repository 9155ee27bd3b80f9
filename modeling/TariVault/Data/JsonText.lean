import TariVault.Data.Json
import TariVault.Data.JsonNumber
import TariVault.Data.JsonTree

namespace TariVault.Json

/-! # JSON text

Compact printing of any document, and a reader of every JSON text: two machines,
from characters to lexemes and from lexemes to a document, neither of which looks
ahead.
-/

inductive Lexeme where
  | openArray
  | closeArray
  | openObject
  | closeObject
  | colon
  | comma
  | null
  | bool (value : Bool)
  | number (value : Numeral)
  | text (value : String)
deriving DecidableEq

abbrev Document := Tree Numeral .value

/-- Where the lexer stands. What it has read is carried last character first. -/
inductive LexMode where
  | outside
  | word (read : List Char)
  | inside (read : List Char)
  | escape (read : List Char)
  /-- Inside `\u`, after a leading surrogate or without one. -/
  | code (read : List Char) (leading : Option Nat) (digits : List Nat)
  /-- After a leading surrogate. -/
  | pair (read : List Char) (leading : Nat)
  | pairEscape (read : List Char) (leading : Nat)

def wordLexeme (word : List Char) : Option Lexeme :=
  if word = ['n', 'u', 'l', 'l'] then some .null
  else if word = ['t', 'r', 'u', 'e'] then some (.bool true)
  else if word = ['f', 'a', 'l', 's', 'e'] then some (.bool false)
  else (Numeral.read? word).map .number

/-- The mode after a character outside texts and words, and the lexeme that it is. -/
def lexOutside (c : Char) : Option (LexMode × List Lexeme) :=
  if c = '[' then some (.outside, [.openArray])
  else if c = ']' then some (.outside, [.closeArray])
  else if c = '{' then some (.outside, [.openObject])
  else if c = '}' then some (.outside, [.closeObject])
  else if c = ':' then some (.outside, [.colon])
  else if c = ',' then some (.outside, [.comma])
  else if c = '"' then some (.inside [], [])
  else if c = ' ' ∨ c = '\n' ∨ c = '\r' ∨ c = '\t' then some (.outside, [])
  else if isWord c then some (.word [c], [])
  else none

/-- The mode after the four digits of a `\u` escape. -/
def lexCode (read : List Char) (leading : Option Nat) (code : Nat) : Option LexMode :=
  match leading with
  | some high =>
      if 0xDC00 ≤ code ∧ code < 0xE000 then
        some (.inside (Char.ofNat (0x10000 + (high - 0xD800) * 0x400 + (code - 0xDC00)) :: read))
      else none
  | none =>
      if 0xD800 ≤ code ∧ code < 0xDC00 then some (.pair read code)
      else if 0xDC00 ≤ code ∧ code < 0xE000 then none
      else some (.inside (Char.ofNat code :: read))

def lexStep : LexMode → Char → Option (LexMode × List Lexeme)
  | .outside, c => lexOutside c
  | .word read, c =>
      if isWord c then some (.word (c :: read), [])
      else do
        let lexeme ← wordLexeme read.reverse
        let (mode, lexemes) ← lexOutside c
        return (mode, lexeme :: lexemes)
  | .inside read, c =>
      if c = '"' then some (.outside, [.text (String.ofList read.reverse)])
      else if c = '\\' then some (.escape read, [])
      else if c.toNat < 32 then none
      else some (.inside (c :: read), [])
  | .escape read, c =>
      if c = 'u' then some (.code read none [], [])
      else (unescape? c).map fun c => (.inside (c :: read), [])
  | .code read leading digits, c => do
      let digit ← hexValue? c
      match digits with
      | [first, second, third] =>
          let mode ← lexCode read leading (first * 4096 + second * 256 + third * 16 + digit)
          return (mode, [])
      | digits => return (.code read leading (digits ++ [digit]), [])
  | .pair read leading, c => if c = '\\' then some (.pairEscape read leading, []) else none
  | .pairEscape read leading, c => if c = 'u' then some (.code read (some leading) [], []) else none

def lexEnd : LexMode → Option (List Lexeme)
  | .outside => some []
  | .word read => (wordLexeme read.reverse).map fun lexeme => [lexeme]
  | _ => none

def lexFrom : LexMode → List Char → Option (List Lexeme)
  | mode, [] => lexEnd mode
  | mode, c :: rest => (lexStep mode c).bind fun result => (lexFrom result.1 rest).map (result.2 ++ ·)

/-- An array or object around the value that is being read, with what it holds so
far, last first. -/
inductive Frame where
  | array (before : List Document)
  | object (before : List (String × Document)) (key : String)

/-- Where the parser stands: what comes next, and what is open around it. -/
inductive ParseState where
  | value (stack : List Frame)
  | firstItem (stack : List Frame)
  | afterItem (before : List Document) (stack : List Frame)
  | firstKey (stack : List Frame)
  | nextKey (before : List (String × Document)) (stack : List Frame)
  | colon (before : List (String × Document)) (key : String) (stack : List Frame)
  | afterMember (before : List (String × Document)) (stack : List Frame)
  | finished (document : Document)

namespace Tree

variable {ν : Type}

def ofItems : List (Tree ν .value) → Tree ν .items
  | [] => .noItems
  | head :: rest => .item head (ofItems rest)

def ofMembers : List (String × Tree ν .value) → Tree ν .members
  | [] => .noMembers
  | (key, value) :: rest => .member key value (ofMembers rest)

end Tree

def ParseState.complete (document : Document) : List Frame → ParseState
  | [] => .finished document
  | .array before :: stack => .afterItem (document :: before) stack
  | .object before key :: stack => .afterMember ((key, document) :: before) stack

/-- A value begins. Opening the array or object that reaches the limit is an error. -/
def beginValue (limit : Nat) (stack : List Frame) : Lexeme → Option ParseState
  | .null => some (.complete .null stack)
  | .bool value => some (.complete (.bool value) stack)
  | .number value => some (.complete (.number value) stack)
  | .text value => some (.complete (.text value) stack)
  | .openArray => if stack.length + 1 < limit then some (.firstItem stack) else none
  | .openObject => if stack.length + 1 < limit then some (.firstKey stack) else none
  | _ => none

def parseStep (limit : Nat) : ParseState → Lexeme → Option ParseState
  | .value stack, lexeme => beginValue limit stack lexeme
  | .firstItem stack, .closeArray => some (.complete (.array .noItems) stack)
  | .firstItem stack, lexeme => beginValue limit (.array [] :: stack) lexeme
  | .afterItem before stack, .comma => some (.value (.array before :: stack))
  | .afterItem before stack, .closeArray => some (.complete (.array (.ofItems before.reverse)) stack)
  | .firstKey stack, .closeObject => some (.complete (.object .noMembers) stack)
  | .firstKey stack, .text key => some (.colon [] key stack)
  | .nextKey before stack, .text key => some (.colon before key stack)
  | .colon before key stack, .colon => some (.value (.object before key :: stack))
  | .afterMember before stack, .comma => some (.nextKey before stack)
  | .afterMember before stack, .closeObject =>
      some (.complete (.object (.ofMembers before.reverse)) stack)
  | _, _ => none

def ParseState.document? : ParseState → Option Document
  | .finished document => some document
  | _ => none

def parse (limit : Nat) (lexemes : List Lexeme) : Option Document :=
  (lexemes.foldlM (parseStep limit) (.value [])).bind ParseState.document?

def recursionLimit : Nat := 128

/-- The document of a text, unless it is nested `limit` deep. -/
def readDocument (limit : Nat) (text : List Char) : Option Document :=
  (lexFrom .outside text).bind (parse limit)

namespace Tree

variable {ν : Type} {kind : Kind}

def isEmpty : {kind : Kind} → Tree ν kind → Bool
  | _, .noItems => true
  | _, .noMembers => true
  | _, _ => false

def separator (rest : Tree ν kind) : List Char := if rest.isEmpty then [] else [',']

def print : {kind : Kind} → Tree Numeral kind → List Char
  | _, .null => ['n', 'u', 'l', 'l']
  | _, .bool true => ['t', 'r', 'u', 'e']
  | _, .bool false => ['f', 'a', 'l', 's', 'e']
  | _, .number value => value.chars
  | _, .text value => quote value
  | _, .array items => '[' :: (items.print ++ [']'])
  | _, .object members => '{' :: (members.print ++ ['}'])
  | _, .noItems => []
  | _, .item head rest => head.print ++ (rest.separator ++ rest.print)
  | _, .noMembers => []
  | _, .member key value rest => quote key ++ (':' :: (value.print ++ (rest.separator ++ rest.print)))

def lexemes : {kind : Kind} → Tree Numeral kind → List Lexeme
  | _, .null => [.null]
  | _, .bool value => [.bool value]
  | _, .number value => [.number value]
  | _, .text value => [.text value]
  | _, .array items => .openArray :: (items.lexemes ++ [.closeArray])
  | _, .object members => .openObject :: (members.lexemes ++ [.closeObject])
  | _, .noItems => []
  | _, .item head rest => head.lexemes ++ ((if rest.isEmpty then [] else [.comma]) ++ rest.lexemes)
  | _, .noMembers => []
  | _, .member key value rest => .text key :: .colon ::
      (value.lexemes ++ ((if rest.isEmpty then [] else [.comma]) ++ rest.lexemes))

end Tree

/-- No character follows that could belong to a word. -/
def EndsWord (rest : List Char) : Prop := ∀ c ∈ rest.head?, isWord c = false

/-- Before such a rest, the text reads as these lexemes. -/
def LexesAs (text : List Char) (lexemes : List Lexeme) : Prop :=
  ∀ rest, EndsWord rest → lexFrom .outside (text ++ rest) = (lexemes ++ ·) <$> lexFrom .outside rest

section Lexing

variable {read rest : List Char}

theorem lexFrom_cons (mode : LexMode) (c : Char) : lexFrom mode (c :: rest) =
    (lexStep mode c).bind fun result => (lexFrom result.1 rest).map (result.2 ++ ·) := rfl

/-- The mode after a text that goes on, and the lexemes read so far. -/
def lexThrough : LexMode → List Char → Option (LexMode × List Lexeme)
  | mode, [] => some (mode, [])
  | mode, c :: rest => (lexStep mode c).bind fun result =>
      (lexThrough result.1 rest).map fun after => (after.1, result.2 ++ after.2)

theorem lexFrom_append {mode mode' : LexMode} {front : List Char} {lexemes : List Lexeme}
    (reads : lexThrough mode front = some (mode', lexemes)) :
    lexFrom mode (front ++ rest) = (lexFrom mode' rest).map (lexemes ++ ·) := by
  induction front generalizing mode lexemes with
  | nil =>
      cases reads
      exact (Option.map_id' ..).symm
  | cons c front ih =>
      obtain ⟨result, stepped, mapped⟩ := Option.bind_eq_some_iff.mp reads
      obtain ⟨after, continued, same⟩ := Option.map_eq_some_iff.mp mapped
      obtain ⟨rfl, rfl⟩ := Prod.mk.inj same
      rw [List.cons_append, lexFrom_cons, stepped, Option.bind_some, ih continued, Option.map_map]
      simp only [Function.comp_def, List.append_assoc]

theorem lexThrough_blanks (count : Nat) :
    lexThrough .outside (List.replicate count ' ') = some (.outside, []) := by
  induction count with
  | zero => rfl
  | succ count ih =>
      have blank : lexStep .outside ' ' = some (.outside, []) := rfl
      rw [List.replicate_succ, lexThrough, blank, Option.bind_some, ih]
      rfl

theorem lexFrom_silent {mode mode' : LexMode} {c : Char} (stepped : lexStep mode c = some (mode', [])) :
    lexFrom mode (c :: rest) = lexFrom mode' rest := by
  rw [lexFrom_cons, stepped]
  exact Option.map_id' ..

theorem lexFrom_word {word : List Char} (words : ∀ c ∈ word, isWord c = true) (ends : EndsWord rest) :
    lexFrom (.word read) (word ++ rest) =
      (wordLexeme (read.reverse ++ word)).bind fun lexeme => (lexFrom .outside rest).map (lexeme :: ·) := by
  induction word generalizing read with
  | nil =>
      cases rest with
      | nil =>
          simp only [List.append_nil, lexFrom, lexEnd]
          cases wordLexeme read.reverse <;> rfl
      | cons c rest =>
          have ended : isWord c = false := ends c rfl
          simp only [List.nil_append, lexFrom_cons, lexStep, ended, List.append_nil, Bool.false_eq_true,
            if_false]
          cases wordLexeme read.reverse with
          | none => rfl
          | some lexeme =>
              cases lexOutside c with
              | none => rfl
              | some result =>
                  simp only [Option.bind_eq_bind, Option.bind_some, pure, Option.map_map]
                  rfl
  | cons c word ih =>
      have here := words c List.mem_cons_self
      simp only [List.cons_append, lexFrom_cons, lexStep, here, if_true, Option.bind_some]
      rw [ih fun c member => words c (List.mem_cons_of_mem _ member)]
      simp

theorem lexesAs_word {word : List Char} {lexeme : Lexeme} (words : ∀ c ∈ word, isWord c = true)
    (nonempty : word ≠ []) (reads : wordLexeme word = some lexeme) : LexesAs word [lexeme] := by
  intro rest ends
  cases word with
  | nil => exact absurd rfl nonempty
  | cons c word =>
      have here := words c List.mem_cons_self
      have apart {d : Char} (notWord : isWord d = false) : c ≠ d := by
        intro same
        subst same
        rw [here] at notWord
        contradiction
      have starts : lexOutside c = some (.word [c], []) := by
        have blank : ¬ (c = ' ' ∨ c = '\n' ∨ c = '\r' ∨ c = '\t') := by
          simp [@apart ' ' rfl, @apart '\n' rfl, @apart '\r' rfl, @apart '\t' rfl]
        simp [lexOutside, @apart '[' rfl, @apart ']' rfl, @apart '{' rfl, @apart '}' rfl, @apart ':' rfl,
          @apart ',' rfl, @apart '"' rfl, blank, here]
      rw [List.cons_append, lexFrom_cons, lexStep, starts]
      have continued := @lexFrom_word [c] rest word (fun c member => words c (List.mem_cons_of_mem _ member)) ends
      simp only [Option.bind_some, continued, List.reverse_singleton, List.singleton_append, reads, List.nil_append]
      cases lexFrom .outside rest <;> rfl

theorem hexValue?_hexDigit : ∀ digit < 16, hexValue? (hexDigit digit) = some digit := by decide

theorem lexFrom_escape (c : Char) :
    lexFrom (.inside read) (Json.escape c ++ rest) = lexFrom (.inside (c :: read)) rest := by
  have plain {d : Char} (escaped : unescape? d = some c) (notUnicode : d ≠ 'u') :
      lexFrom (.inside read) ('\\' :: d :: rest) = lexFrom (.inside (c :: read)) rest := by
    have opened : lexStep (.inside read) '\\' = some (.escape read, []) := rfl
    have closed : lexStep (.escape read) d = some (.inside (c :: read), []) := by
      simp [lexStep, escaped, notUnicode]
    rw [lexFrom_silent opened, lexFrom_silent closed]
  unfold Json.escape
  split
  · subst c
    exact plain rfl (by decide)
  split
  · subst c
    exact plain rfl (by decide)
  split
  · subst c
    exact plain rfl (by decide)
  split
  · subst c
    exact plain rfl (by decide)
  split
  · subst c
    exact plain rfl (by decide)
  split
  · subst c
    exact plain rfl (by decide)
  split
  · subst c
    exact plain rfl (by decide)
  split
  · rename_i control
    have high := hexValue?_hexDigit (c.toNat / 16) (by omega)
    have low := hexValue?_hexDigit (c.toNat % 16) (by omega)
    have code : c.toNat / 16 * 16 + c.toNat % 16 = c.toNat := by omega
    have last : lexStep (.code read none [0, 0, c.toNat / 16]) (hexDigit (c.toNat % 16)) =
        some (.inside (c :: read), []) := by
      simp only [lexStep, low, Option.bind_eq_bind, Option.bind_some, Nat.zero_mul, Nat.zero_add, code, lexCode]
      rw [if_neg (by omega), if_neg (by omega), Char.ofNat_toNat]
      rfl
    have third : lexStep (.code read none [0, 0]) (hexDigit (c.toNat / 16)) =
        some (.code read none [0, 0, c.toNat / 16], []) := by
      simp only [lexStep, high, Option.bind_eq_bind, Option.bind_some]
      rfl
    have opened : lexStep (.inside read) '\\' = some (.escape read, []) := rfl
    have unicode : lexStep (.escape read) 'u' = some (.code read none [], []) := rfl
    have first : lexStep (.code read none []) '0' = some (.code read none [0], []) := rfl
    have second : lexStep (.code read none [0]) '0' = some (.code read none [0, 0], []) := rfl
    simp only [List.cons_append, List.nil_append]
    rw [lexFrom_silent opened, lexFrom_silent unicode, lexFrom_silent first, lexFrom_silent second,
      lexFrom_silent third, lexFrom_silent last]
  · rename_i notQuote notBackslash _ _ _ _ _ printable
    refine lexFrom_silent ?_
    simp [lexStep, notQuote, notBackslash, printable]

theorem lexFrom_quoted (text : List Char) :
    lexFrom (.inside read) (text.flatMap Json.escape ++ '"' :: rest) =
      (lexFrom .outside rest).map (.text (String.ofList (read.reverse ++ text)) :: ·) := by
  induction text generalizing read with
  | nil => simp [lexFrom_cons, lexStep]
  | cons c text ih =>
      rw [List.flatMap_cons, List.append_assoc, lexFrom_escape, ih]
      simp

theorem lexesAs_quote (text : String) : LexesAs (quote text) [.text text] := by
  intro rest _
  have inside : lexStep .outside '"' = some (.inside [], []) := rfl
  rw [quote, List.cons_append, List.cons_append, lexFrom_silent inside, List.append_assoc]
  exact (lexFrom_quoted text.toList).trans (by simp)

theorem LexesAs.cons {c : Char} {lexeme : Lexeme} {text : List Char} {lexemes : List Lexeme}
    (starts : lexOutside c = some (.outside, [lexeme])) (back : LexesAs text lexemes) :
    LexesAs (c :: text) (lexeme :: lexemes) := by
  intro rest ends
  rw [List.cons_append, lexFrom_cons, lexStep, starts]
  simp only [Option.bind_some, back rest ends]
  cases lexFrom .outside rest <;> rfl

theorem LexesAs.append {first second : List Char} {lexemes lexemes' : List Lexeme}
    (front : LexesAs first lexemes) (back : LexesAs second lexemes')
    (between : ∀ rest, EndsWord rest → EndsWord (second ++ rest)) :
    LexesAs (first ++ second) (lexemes ++ lexemes') := by
  intro rest ends
  rw [List.append_assoc, front _ (between rest ends), back rest ends]
  cases lexFrom .outside rest <;> simp

theorem endsWord_cons {c : Char} {text : List Char} (delimits : isWord c = false) : EndsWord (c :: text) := by
  intro other equal
  cases equal
  exact delimits

theorem lexesAs_number (numeral : Numeral) : LexesAs numeral.chars [.number numeral] := by
  have reads := numeral.read?_chars
  -- The literal names are no numbers.
  have apart {word : List Char} (unreadable : Numeral.read? word = none) : numeral.chars ≠ word := by
    intro same
    rw [same, unreadable] at reads
    contradiction
  refine lexesAs_word numeral.isWord_chars numeral.chars_ne_nil ?_
  rw [wordLexeme, if_neg (apart rfl), if_neg (apart rfl), if_neg (apart rfl), reads]
  rfl

/-- What follows an item or a member: nothing, or a comma and the rest. -/
theorem lexesAs_rest {kind : Kind} {tree : Tree Numeral kind} {text : List Char}
    (lexes : LexesAs text tree.lexemes) :
    LexesAs (tree.separator ++ text) ((if tree.isEmpty then [] else [.comma]) ++ tree.lexemes) := by
  unfold Tree.separator
  split
  · exact lexes
  · exact .cons rfl lexes

theorem endsWord_rest {kind : Kind} {tree : Tree Numeral kind} {text rest : List Char}
    (blank : tree.isEmpty = true → text = []) (ends : EndsWord rest) :
    EndsWord (tree.separator ++ text ++ rest) := by
  unfold Tree.separator
  split
  · rename_i empty
    rw [blank empty]
    exact ends
  · exact endsWord_cons rfl

theorem print_of_isEmpty {kind : Kind} {tree : Tree Numeral kind} (empty : tree.isEmpty = true) :
    tree.print = [] := by
  cases tree <;> first | rfl | contradiction

theorem lexesAs_print {kind : Kind} (tree : Tree Numeral kind) : LexesAs tree.print tree.lexemes := by
  induction tree with
  | null => exact lexesAs_word (List.all_eq_true.mp rfl) (List.cons_ne_nil _ _) rfl
  | bool value =>
      cases value with
      | true => exact lexesAs_word (List.all_eq_true.mp rfl) (List.cons_ne_nil _ _) rfl
      | false => exact lexesAs_word (List.all_eq_true.mp rfl) (List.cons_ne_nil _ _) rfl
  | number value => exact lexesAs_number value
  | text value => exact lexesAs_quote value
  | array items ih => exact .cons rfl (ih.append (.cons rfl fun _ _ => by simp) fun _ _ => endsWord_cons rfl)
  | object members ih => exact .cons rfl (ih.append (.cons rfl fun _ _ => by simp) fun _ _ => endsWord_cons rfl)
  | noItems => exact fun _ _ => by simp [Tree.print, Tree.lexemes]
  | noMembers => exact fun _ _ => by simp [Tree.print, Tree.lexemes]
  | item head rest headIH restIH =>
      exact headIH.append (lexesAs_rest restIH) fun _ ends => endsWord_rest print_of_isEmpty ends
  | member key value rest valueIH restIH =>
      refine (lexesAs_quote key).append ?_ fun _ _ => endsWord_cons rfl
      exact .cons rfl (valueIH.append (lexesAs_rest restIH) fun _ ends => endsWord_rest print_of_isEmpty ends)

end Lexing

section Parsing

variable {limit : Nat} {kind : Kind}

def Tree.itemList {ν : Type} : {kind : Kind} → Tree ν kind → List (Tree ν .value)
  | _, .item head rest => head :: rest.itemList
  | _, _ => []

def Tree.memberList {ν : Type} : {kind : Kind} → Tree ν kind → List (String × Tree ν .value)
  | _, .member key value rest => (key, value) :: rest.memberList
  | _, _ => []

/-- What the parser does with the lexemes of a value, or with those between the
brackets of an array or object that is not empty. -/
def ParsesBack (limit : Nat) : {kind : Kind} → Tree Numeral kind → Prop
  | .value, tree => ∀ stack, stack.length + tree.depth < limit →
      tree.lexemes.foldlM (parseStep limit) (.value stack) = some (.complete tree stack)
  | .items, tree => tree.isEmpty = false → ∀ before stack, stack.length + 1 + tree.depth < limit →
      tree.lexemes.foldlM (parseStep limit) (.value (.array before :: stack)) =
        some (.afterItem (tree.itemList.reverse ++ before) stack)
  | .members, tree => tree.isEmpty = false → ∀ before stack, stack.length + 1 + tree.depth < limit →
      tree.lexemes.foldlM (parseStep limit) (.nextKey before stack) =
        some (.afterMember (tree.memberList.reverse ++ before) stack)

theorem ofItems_itemList {ν : Type} {tree : Tree ν kind} (isItems : kind = .items) :
    isItems ▸ tree = .ofItems tree.itemList := by
  induction tree with
  | noItems => rfl
  | item head rest _ ih => exact congrArg (Tree.item head) (ih rfl)
  | _ => contradiction

theorem ofMembers_memberList {ν : Type} {tree : Tree ν kind} (isMembers : kind = .members) :
    isMembers ▸ tree = .ofMembers tree.memberList := by
  induction tree with
  | noMembers => rfl
  | member key value rest _ ih => exact congrArg (Tree.member key value) (ih rfl)
  | _ => contradiction

/-- No value begins with a closing bracket. -/
theorem lexemes_eq_cons (value : Document) : ∃ first rest, value.lexemes = first :: rest ∧
    first ≠ .closeArray := by
  cases value <;> exact ⟨_, _, rfl, nofun⟩

theorem firstItem_step {stack : List Frame} {lexeme : Lexeme} (value : lexeme ≠ .closeArray) :
    parseStep limit (.firstItem stack) lexeme = parseStep limit (.value (.array [] :: stack)) lexeme := by
  cases lexeme <;> first | rfl | contradiction

theorem parsesBack {kind : Kind} (tree : Tree Numeral kind) : ParsesBack limit tree := by
  induction tree with
  | null => exact fun _ _ => rfl
  | bool value => exact fun _ _ => rfl
  | number value => exact fun _ _ => rfl
  | text value => exact fun _ _ => rfl
  | array items ih =>
      intro stack deep
      simp only [Tree.depth] at deep
      have opens : parseStep limit (.value stack) .openArray = some (.firstItem stack) := if_pos (by omega)
      simp only [Tree.lexemes, List.foldlM_cons, opens, List.foldlM_append, Option.bind_eq_bind, Option.bind_some]
      cases items with
      | noItems => rfl
      | item head rest =>
          obtain ⟨first, more, starts, value⟩ := lexemes_eq_cons head
          have inside := ih rfl [] stack (by omega)
          have sameStart : (head.item rest).lexemes.foldlM (parseStep limit) (.firstItem stack) =
              (head.item rest).lexemes.foldlM (parseStep limit) (.value (.array [] :: stack)) := by
            simp only [Tree.lexemes, starts, List.cons_append, List.foldlM_cons, firstItem_step value]
          have whole := @ofItems_itemList _ _ (head.item rest) rfl
          rw [sameStart, inside]
          simp only [Option.bind_some, List.foldlM_nil, parseStep, List.append_nil, List.reverse_reverse,
            ← whole]
          rfl
  | object members ih =>
      intro stack deep
      simp only [Tree.depth] at deep
      have opens : parseStep limit (.value stack) .openObject = some (.firstKey stack) := if_pos (by omega)
      simp only [Tree.lexemes, List.foldlM_cons, opens, List.foldlM_append, Option.bind_eq_bind, Option.bind_some]
      cases members with
      | noMembers => rfl
      | member key value rest =>
          have inside := ih rfl [] stack (by omega)
          have whole := @ofMembers_memberList _ _ (Tree.member key value rest) rfl
          have sameStart : (Tree.member key value rest).lexemes.foldlM (parseStep limit) (.firstKey stack) =
              (Tree.member key value rest).lexemes.foldlM (parseStep limit) (.nextKey [] stack) := rfl
          rw [sameStart, inside]
          simp only [Option.bind_some, List.foldlM_nil, parseStep, List.append_nil, List.reverse_reverse,
            ← whole]
          rfl
  | noItems => exact fun impossible => absurd impossible (by decide)
  | noMembers => exact fun impossible => absurd impossible (by decide)
  | item head rest headIH restIH =>
      intro _ before stack deep
      simp only [Tree.depth] at deep
      have first := headIH (.array before :: stack) (by rw [List.length_cons]; omega)
      simp only [Tree.lexemes, List.foldlM_append, first, Option.bind_eq_bind, Option.bind_some,
        ParseState.complete]
      cases rest with
      | noItems => rfl
      | item next rest =>
          have later := restIH rfl (head :: before) stack (by omega)
          have after : (Tree.item head (.item next rest)).itemList.reverse ++ before =
              (Tree.item next rest).itemList.reverse ++ (head :: before) := by
            simp [Tree.itemList]
          rw [after, ← later]
          rfl
  | member key value rest valueIH restIH =>
      intro _ before stack deep
      simp only [Tree.depth] at deep
      have first := valueIH (.object before key :: stack) (by rw [List.length_cons]; omega)
      have named : parseStep limit (.nextKey before stack) (.text key) = some (.colon before key stack) := rfl
      have begins : parseStep limit (.colon before key stack) .colon =
          some (.value (.object before key :: stack)) := rfl
      simp only [Tree.lexemes, List.foldlM_cons, named, begins, List.foldlM_append, first, Option.bind_eq_bind,
        Option.bind_some, ParseState.complete]
      cases rest with
      | noMembers => rfl
      | member next value' rest =>
          have later := restIH rfl ((key, value) :: before) stack (by omega)
          have after : (Tree.member key value (.member next value' rest)).memberList.reverse ++ before =
              (Tree.member next value' rest).memberList.reverse ++ ((key, value) :: before) := by
            simp [Tree.memberList]
          rw [after, ← later]
          rfl

/-- Any text of the lexemes of a document reads as it, unless it is nested too deep. -/
theorem readDocument_of_lexesAs {limit : Nat} {document : Document} {text : List Char}
    (lexes : LexesAs text document.lexemes) (deep : document.depth < limit) :
    readDocument limit text = some document := by
  have lexed := lexes [] (by simp [EndsWord])
  have parsed := parsesBack document [] (by simpa using deep)
  rw [List.append_nil] at lexed
  have whole : lexFrom .outside text = some document.lexemes := by
    rw [lexed]
    simp [lexFrom, lexEnd]
  simp only [readDocument, whole, Option.bind_some, parse, parsed]
  rfl

/-- A printed document reads back, unless it is nested too deep. -/
theorem readDocument_print {limit : Nat} {document : Document} (deep : document.depth < limit) :
    readDocument limit document.print = some document :=
  readDocument_of_lexesAs (lexesAs_print document) deep

end Parsing

end TariVault.Json
