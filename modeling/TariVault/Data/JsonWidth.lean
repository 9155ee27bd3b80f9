import TariVault.Data.JsonDepth

namespace TariVault.Json

/-! # How wide a document is

The texts and keys of a document have no more characters than the text it is read
from: each character of them takes at least one of the text.
-/

variable {limit : Nat} {mode mode' : LexMode} {state state' : ParseState} {lexeme : Lexeme}
  {lexemes : List Lexeme} {document : Document} {stack : List Frame} {text : List Char}

def Lexeme.width : Lexeme → Nat
  | .text value => value.length
  | _ => 0

def lexemesWidth (lexemes : List Lexeme) : Nat := (lexemes.map Lexeme.width).sum

/-- The characters of an unfinished text. -/
def LexMode.width : LexMode → Nat
  | .outside | .word _ => 0
  | .inside read | .escape read | .code read _ _ | .pair read _ | .pairEscape read _ => read.length

theorem width_wordLexeme {word : List Char} (reads : wordLexeme word = some lexeme) : lexeme.width = 0 := by
  unfold wordLexeme at reads
  split at reads
  · cases reads
    rfl
  split at reads
  · cases reads
    rfl
  split at reads
  · cases reads
    rfl
  · obtain ⟨numeral, _, rfl⟩ := Option.map_eq_some_iff.mp reads
    rfl

theorem width_lexOutside {c : Char} (stepped : lexOutside c = some (mode', lexemes)) :
    mode'.width + lexemesWidth lexemes = 0 := by
  unfold lexOutside at stepped
  split at stepped
  all_goals first
    | cases stepped
      rfl
    | skip
  repeat' split at stepped
  all_goals first
    | cases stepped
      rfl
    | contradiction

theorem width_lexCode {read : List Char} {leading : Option Nat} {code : Nat}
    (stepped : lexCode read leading code = some mode') : mode'.width ≤ read.length + 1 := by
  unfold lexCode at stepped
  repeat' split at stepped
  all_goals first
    | contradiction
    | cases stepped
      simp [LexMode.width]

theorem width_lexStep {c : Char} (stepped : lexStep mode c = some (mode', lexemes)) :
    mode'.width + lexemesWidth lexemes ≤ mode.width + 1 := by
  cases mode with
  | outside =>
      have silent := width_lexOutside stepped
      omega
  | word read =>
      rw [lexStep] at stepped
      split at stepped
      · cases stepped
        exact Nat.zero_le _
      · obtain ⟨lexeme, word, stepped⟩ := Option.bind_eq_some_iff.mp stepped
        obtain ⟨result, outside, stepped⟩ := Option.bind_eq_some_iff.mp stepped
        cases stepped
        have silent := width_lexOutside outside
        have flat := width_wordLexeme word
        simp only [lexemesWidth, List.map_cons, List.sum_cons, flat] at silent ⊢
        omega
  | inside read =>
      rw [lexStep] at stepped
      split at stepped
      · cases stepped
        simp [lexemesWidth, Lexeme.width, LexMode.width]
      split at stepped
      · cases stepped
        exact Nat.le_succ _
      split at stepped
      · contradiction
      · cases stepped
        exact Nat.le_refl _
  | escape read =>
      rw [lexStep] at stepped
      split at stepped
      · cases stepped
        exact Nat.le_succ _
      · obtain ⟨c, _, stepped⟩ := Option.map_eq_some_iff.mp stepped
        cases stepped
        exact Nat.le_refl _
  | code read leading digits =>
      obtain ⟨digit, _, stepped⟩ := Option.bind_eq_some_iff.mp stepped
      split at stepped
      · obtain ⟨mode, coded, stepped⟩ := Option.bind_eq_some_iff.mp stepped
        cases stepped
        exact width_lexCode coded
      · cases stepped
        exact Nat.le_succ _
  | pair read leading =>
      obtain ⟨_, stepped⟩ := Option.ite_none_right_eq_some.mp stepped
      cases stepped
      exact Nat.le_succ _
  | pairEscape read leading =>
      obtain ⟨_, stepped⟩ := Option.ite_none_right_eq_some.mp stepped
      cases stepped
      exact Nat.le_succ _

theorem width_lexFrom (lexed : lexFrom mode text = some lexemes) :
    lexemesWidth lexemes ≤ mode.width + text.length := by
  induction text generalizing mode lexemes with
  | nil =>
      cases mode with
      | outside =>
          cases lexed
          exact Nat.le_refl _
      | word read =>
          obtain ⟨lexeme, word, rfl⟩ := Option.map_eq_some_iff.mp lexed
          have flat := width_wordLexeme word
          simp [lexemesWidth, flat]
      | _ => contradiction
  | cons c text ih =>
      obtain ⟨result, stepped, lexed⟩ := Option.bind_eq_some_iff.mp lexed
      obtain ⟨later, continued, rfl⟩ := Option.map_eq_some_iff.mp lexed
      have here := width_lexStep stepped
      have rest := ih continued
      simp only [lexemesWidth, List.map_append, List.sum_append, List.length_cons] at here rest ⊢
      omega

def itemsWidth (items : List Document) : Nat := (items.map Tree.width).sum

def membersWidth (members : List (String × Document)) : Nat :=
  (members.map fun member => member.1.length + member.2.width).sum

def Frame.width : Frame → Nat
  | .array before => itemsWidth before
  | .object before key => membersWidth before + key.length

def stackWidth (stack : List Frame) : Nat := (stack.map Frame.width).sum

/-- The characters of what is open, or of the document. -/
def ParseState.width : ParseState → Nat
  | .value stack | .firstItem stack | .firstKey stack => stackWidth stack
  | .afterItem before stack => itemsWidth before + stackWidth stack
  | .nextKey before stack | .afterMember before stack => membersWidth before + stackWidth stack
  | .colon before key stack => membersWidth before + key.length + stackWidth stack
  | .finished document => document.width

theorem width_ofItems (items : List Document) : (Tree.ofItems items).width = itemsWidth items := by
  induction items with
  | nil => rfl
  | cons head rest ih => simp [Tree.ofItems, Tree.width, itemsWidth, ih]

theorem width_ofMembers (members : List (String × Document)) :
    (Tree.ofMembers members).width = membersWidth members := by
  induction members with
  | nil => rfl
  | cons head rest ih => simp [Tree.ofMembers, Tree.width, membersWidth, ih]

theorem width_complete (document : Document) (stack : List Frame) :
    (ParseState.complete document stack).width = document.width + stackWidth stack := by
  match stack with
  | [] => rfl
  | .array before :: stack =>
      simp only [ParseState.complete, ParseState.width, stackWidth, itemsWidth, List.map_cons, List.sum_cons,
        Frame.width]
      omega
  | .object before key :: stack =>
      simp only [ParseState.complete, ParseState.width, stackWidth, membersWidth, List.map_cons, List.sum_cons,
        Frame.width]
      omega

theorem width_beginValue (began : beginValue limit stack lexeme = some state') :
    state'.width = stackWidth stack + lexeme.width := by
  cases lexeme with
  | openArray | openObject =>
      obtain ⟨_, began⟩ := Option.ite_none_right_eq_some.mp began
      cases began
      rfl
  | null | bool | number | text =>
      cases began
      rw [width_complete, Nat.add_comm]
      rfl
  | _ => contradiction

theorem width_parseStep (stepped : parseStep limit state lexeme = some state') :
    state'.width = state.width + lexeme.width := by
  cases state with
  | value stack => exact width_beginValue stepped
  | firstItem stack =>
      by_cases closes : lexeme = .closeArray
      · subst closes
        cases stepped
        rw [width_complete, Nat.add_comm]
        rfl
      · rw [firstItem_step closes] at stepped
        rw [width_beginValue stepped]
        simp [stackWidth, Frame.width, itemsWidth, ParseState.width]
  | afterItem before stack =>
      cases lexeme with
      | comma =>
          cases stepped
          rfl
      | closeArray =>
          cases stepped
          rw [width_complete, Tree.width, width_ofItems, itemsWidth, List.map_reverse, List.sum_reverse]
          rfl
      | _ => contradiction
  | firstKey stack =>
      cases lexeme with
      | closeObject =>
          cases stepped
          rw [width_complete, Nat.add_comm]
          rfl
      | text key =>
          cases stepped
          simp only [ParseState.width, membersWidth, List.map_nil, List.sum_nil, Lexeme.width]
          omega
      | _ => contradiction
  | nextKey before stack =>
      cases lexeme with
      | text key =>
          cases stepped
          simp only [ParseState.width, Lexeme.width]
          omega
      | _ => contradiction
  | colon before key stack =>
      cases lexeme with
      | colon =>
          cases stepped
          rfl
      | _ => contradiction
  | afterMember before stack =>
      cases lexeme with
      | comma =>
          cases stepped
          rfl
      | closeObject =>
          cases stepped
          rw [width_complete, Tree.width, width_ofMembers, membersWidth, List.map_reverse, List.sum_reverse]
          rfl
      | _ => contradiction
  | finished document => cases lexeme <;> contradiction

theorem width_foldlM (parsed : lexemes.foldlM (parseStep limit) state = some state') :
    state'.width = state.width + lexemesWidth lexemes := by
  induction lexemes generalizing state with
  | nil =>
      cases parsed
      rfl
  | cons lexeme lexemes ih =>
      obtain ⟨middle, stepped, parsed⟩ := Option.bind_eq_some_iff.mp parsed
      rw [ih parsed, width_parseStep stepped, Nat.add_assoc]
      rfl

/-- A document is no wider than the text it is read from. -/
theorem width_of_readDocument (read : readDocument limit text = some document) :
    document.width ≤ text.length := by
  obtain ⟨lexemes, lexed, parsed⟩ := Option.bind_eq_some_iff.mp read
  obtain ⟨state, ran, finished⟩ := Option.bind_eq_some_iff.mp parsed
  have width := width_foldlM ran
  have lexemesShort := width_lexFrom lexed
  cases state with
  | finished other =>
      cases finished
      simp only [ParseState.width, stackWidth, List.map_nil, List.sum_nil, LexMode.width] at width lexemesShort
      omega
  | _ => contradiction

end TariVault.Json
