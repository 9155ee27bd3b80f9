import TariVault.Data.JsonText

namespace TariVault.Json

/-! # Indented JSON text

Every item and member on a line of its own. The reader of JSON texts gets the document
back, and with it objects whose members are objects of texts and `null`.
-/

def newline (indent : Nat) : List Char := '\n' :: List.replicate indent ' '

namespace Tree

variable {kind : Kind}

/-- What stands between the brackets of an array or object, if anything does. -/
def lines (rest : Tree Numeral kind) (indent : Nat) (text : List Char) : List Char :=
  if rest.isEmpty then [] else text ++ newline indent

def pretty : {kind : Kind} → Nat → Tree Numeral kind → List Char
  | _, indent, .array items => '[' :: (items.lines indent (items.pretty (indent + 2)) ++ [']'])
  | _, indent, .object members => '{' :: (members.lines indent (members.pretty (indent + 2)) ++ ['}'])
  | _, indent, .item head rest => newline indent ++ (head.pretty indent ++ (rest.separator ++ rest.pretty indent))
  | _, indent, .member key value rest => newline indent ++
      (quote key ++ (':' :: ' ' :: (value.pretty indent ++ (rest.separator ++ rest.pretty indent))))
  | _, _, tree => tree.print

end Tree

section Lexing

variable {text : List Char} {lexemes : List Lexeme} {kind : Kind}

theorem LexesAs.blank {c : Char} (skips : lexOutside c = some (.outside, [])) (back : LexesAs text lexemes) :
    LexesAs (c :: text) lexemes := by
  intro rest ends
  have stepped : lexStep .outside c = some (.outside, []) := skips
  rw [List.cons_append, lexFrom_silent stepped]
  exact back rest ends

theorem LexesAs.newline (indent : Nat) (back : LexesAs text lexemes) : LexesAs (newline indent ++ text) lexemes := by
  have blanks : LexesAs (List.replicate indent ' ' ++ text) lexemes := by
    intro rest ends
    rw [List.append_assoc, lexFrom_append (lexThrough_blanks indent), back rest ends]
    exact Option.map_id' ..
  exact .blank rfl blanks

theorem pretty_of_isEmpty {tree : Tree Numeral kind} (indent : Nat) (empty : tree.isEmpty = true) :
    tree.pretty indent = [] := by
  cases tree <;> first | rfl | contradiction

/-- The lines of an array or object and the bracket that closes it. -/
theorem lexesAs_lines {tree : Tree Numeral kind} {indent : Nat} {c : Char} {closing : Lexeme}
    (closes : lexOutside c = some (.outside, [closing]))
    (lexes : LexesAs text tree.lexemes) (blank : tree.isEmpty = true → tree.lexemes = []) :
    LexesAs (tree.lines indent text ++ [c]) (tree.lexemes ++ [closing]) := by
  have bracket : LexesAs [c] [closing] := .cons closes fun _ _ => by simp
  unfold Tree.lines
  split
  · rename_i empty
    rw [blank empty]
    exact bracket
  · rw [List.append_assoc]
    exact lexes.append (.newline indent bracket) fun _ _ => endsWord_cons rfl

theorem lexemes_of_isEmpty {tree : Tree Numeral kind} (empty : tree.isEmpty = true) : tree.lexemes = [] := by
  cases tree <;> first | rfl | contradiction

theorem lexesAs_pretty (tree : Tree Numeral kind) (indent : Nat) : LexesAs (tree.pretty indent) tree.lexemes := by
  induction tree generalizing indent with
  | null => exact lexesAs_print .null
  | bool value => exact lexesAs_print (.bool value)
  | number value => exact lexesAs_print (.number value)
  | text value => exact lexesAs_print (.text value)
  | array items ih => exact .cons rfl (lexesAs_lines rfl (ih _) lexemes_of_isEmpty)
  | object members ih => exact .cons rfl (lexesAs_lines rfl (ih _) lexemes_of_isEmpty)
  | noItems => exact lexesAs_print .noItems
  | noMembers => exact lexesAs_print .noMembers
  | item head rest headIH restIH =>
      exact .newline indent ((headIH indent).append (lexesAs_rest (restIH indent)) fun _ ends =>
        endsWord_rest (pretty_of_isEmpty indent) ends)
  | member key value rest valueIH restIH =>
      have behind := (valueIH indent).append (lexesAs_rest (restIH indent)) fun _ ends =>
        endsWord_rest (pretty_of_isEmpty indent) ends
      exact .newline indent ((lexesAs_quote key).append (.cons rfl (.blank rfl behind)) fun _ _ => endsWord_cons rfl)

theorem readDocument_pretty {limit : Nat} {document : Document} (indent : Nat) (deep : document.depth < limit) :
    readDocument limit (document.pretty indent) = some document :=
  readDocument_of_lexesAs (lexesAs_pretty document indent) deep

end Lexing

namespace Tree

def ofScalar : Option String → Document
  | some value => .text value
  | none => .null

def toScalar : Document → Option (Option String)
  | .text value => some (some value)
  | .null => some none
  | _ => none

/-- An object, each value of it given by `tree`. -/
def ofObject (tree : α → Document) (members : List (String × α)) : Document :=
  .object (ofMembers (members.map fun member => (member.1, tree member.2)))

def toObject (value : Document → Option α) : Document → Option (List (String × α))
  | .object members => members.memberList.mapM fun member => (value member.2).map (member.1, ·)
  | _ => none

theorem memberList_ofMembers (members : List (String × Document)) : (ofMembers members).memberList = members := by
  induction members with
  | nil => rfl
  | cons member members ih => exact congrArg (member :: ·) ih

theorem toScalar_ofScalar (value : Option String) : toScalar (ofScalar value) = some value := by
  cases value <;> rfl

theorem toObject_ofObject {tree : α → Document} {value : Document → Option α}
    (reads : ∀ content, value (tree content) = some content) (members : List (String × α)) :
    toObject value (ofObject tree members) = some members := by
  simp only [toObject, ofObject, memberList_ofMembers]
  induction members with
  | nil => rfl
  | cons member members ih =>
      rw [List.map_cons, List.mapM_cons, ih, reads]
      rfl

theorem depth_ofScalar (value : Option String) : (ofScalar value).depth = 0 := by
  cases value <;> rfl

theorem depth_ofObject {tree : α → Document} {bound : Nat} (shallow : ∀ content, (tree content).depth ≤ bound)
    (members : List (String × α)) : (ofObject tree members).depth ≤ bound + 1 := by
  rw [ofObject, depth]
  induction members with
  | nil => exact Nat.succ_le_succ (Nat.zero_le _)
  | cons member members ih => exact Nat.succ_le_succ (max_le (shallow _) (Nat.le_of_succ_le_succ ih))

end Tree

def print (document : List (String × List (String × Option String))) : String :=
  String.ofList ((Tree.ofObject (.ofObject .ofScalar) document).pretty 0)

def read (text : String) : Option (List (String × List (String × Option String))) :=
  (readDocument recursionLimit text.toList).bind (Tree.toObject (Tree.toObject Tree.toScalar))

/-- A printed document reads back. -/
theorem read_print (document : List (String × List (String × Option String))) :
    read (print document) = some document := by
  have scalars (value : Option String) : (Tree.ofScalar value).depth ≤ 0 := (Tree.depth_ofScalar value).le
  have shallow : (Tree.ofObject (.ofObject .ofScalar) document).depth ≤ 2 :=
    Tree.depth_ofObject (Tree.depth_ofObject scalars) document
  have reads : readDocument recursionLimit (print document).toList =
      some (.ofObject (.ofObject .ofScalar) document) := by
    rw [print, String.toList_ofList]
    exact readDocument_pretty 0 (lt_of_le_of_lt shallow (by decide))
  rw [read, reads, Option.bind_some]
  exact Tree.toObject_ofObject (Tree.toObject_ofObject Tree.toScalar_ofScalar) document

end TariVault.Json
