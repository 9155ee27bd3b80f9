import TariVault.Data.JsonText

namespace TariVault.Json

/-! # The depth limit of the parser

What is read is nested less deep than the limit, and what is nested less deep is
read. So a printed document reads back if and only if it is shallow enough.
-/

variable {limit limit' : Nat} {state state' : ParseState} {lexeme : Lexeme} {document : Document}
  {stack : List Frame}

def Frame.held : Frame → List Document
  | .array before => before
  | .object before _ => before.map Prod.snd

/-- What is open, and what it holds, leaves the limit unreached. -/
def StackWithin (limit : Nat) : List Frame → Prop
  | [] => 0 < limit
  | frame :: stack => stack.length + 1 < limit ∧
      (∀ value ∈ frame.held, stack.length + 1 + value.depth < limit) ∧ StackWithin limit stack

def ParseState.Within (limit : Nat) : ParseState → Prop
  | .value stack => StackWithin limit stack
  | .firstItem stack => StackWithin limit (.array [] :: stack)
  | .afterItem before stack => StackWithin limit (.array before :: stack)
  | .firstKey stack => StackWithin limit (.object [] "" :: stack)
  | .nextKey before stack => StackWithin limit (.object before "" :: stack)
  | .colon before key stack => StackWithin limit (.object before key :: stack)
  | .afterMember before stack => StackWithin limit (.object before "" :: stack)
  | .finished document => document.depth < limit

theorem StackWithin.length_lt (within : StackWithin limit stack) : stack.length < limit := by
  cases stack with
  | nil => exact within
  | cons frame stack => exact within.1

theorem depth_ofItems {items : List Document} {bound : Nat} (positive : 0 < bound)
    (shallow : ∀ value ∈ items, value.depth < bound) : (Tree.ofItems items).depth < bound := by
  induction items with
  | nil => exact positive
  | cons head rest ih =>
      exact max_lt (shallow head List.mem_cons_self) (ih fun value member => shallow value (.tail _ member))

theorem depth_ofMembers {members : List (String × Document)} {bound : Nat} (positive : 0 < bound)
    (shallow : ∀ value ∈ members.map Prod.snd, value.depth < bound) : (Tree.ofMembers members).depth < bound := by
  induction members with
  | nil => exact positive
  | cons head rest ih =>
      exact max_lt (shallow head.2 List.mem_cons_self) (ih fun value member => shallow value (.tail _ member))

theorem complete_within (within : StackWithin limit stack) (shallow : stack.length + document.depth < limit) :
    (ParseState.complete document stack).Within limit := by
  match stack, within with
  | [], _ => simpa [ParseState.complete, ParseState.Within] using shallow
  | .array before :: stack, ⟨room, held, rest⟩ =>
      exact ⟨room, List.forall_mem_cons.mpr ⟨shallow, held⟩, rest⟩
  | .object before key :: stack, ⟨room, held, rest⟩ =>
      exact ⟨room, List.forall_mem_cons.mpr ⟨shallow, held⟩, rest⟩

theorem beginValue_within (within : StackWithin limit stack)
    (began : beginValue limit stack lexeme = some state') : state'.Within limit := by
  have flat : stack.length + 0 < limit := within.length_lt
  cases lexeme with
  | openArray =>
      obtain ⟨room, began⟩ := Option.ite_none_right_eq_some.mp began
      cases began
      exact ⟨room, nofun, within⟩
  | openObject =>
      obtain ⟨room, began⟩ := Option.ite_none_right_eq_some.mp began
      cases began
      exact ⟨room, nofun, within⟩
  | null | bool | number | text =>
      cases began
      exact complete_within within flat
  | _ => contradiction

theorem parseStep_within (within : state.Within limit) (stepped : parseStep limit state lexeme = some state') :
    state'.Within limit := by
  cases state with
  | value stack => exact beginValue_within within stepped
  | firstItem stack =>
      by_cases closes : lexeme = .closeArray
      · subst closes
        cases stepped
        exact complete_within within.2.2 within.1
      · rw [firstItem_step closes] at stepped
        exact beginValue_within within stepped
  | afterItem before stack =>
      obtain ⟨room, held, rest⟩ := within
      cases lexeme with
      | comma =>
          cases stepped
          exact ⟨room, held, rest⟩
      | closeArray =>
          cases stepped
          have shallow : (Tree.ofItems before.reverse).depth < limit - (stack.length + 1) :=
            depth_ofItems (by omega) fun value member => by
              have := held value (List.mem_reverse.mp member)
              omega
          exact complete_within rest (by rw [Tree.depth]; omega)
      | _ => contradiction
  | firstKey stack =>
      cases lexeme with
      | closeObject =>
          cases stepped
          exact complete_within within.2.2 within.1
      | text key =>
          cases stepped
          exact within
      | _ => contradiction
  | nextKey before stack =>
      cases lexeme with
      | text key =>
          cases stepped
          exact within
      | _ => contradiction
  | colon before key stack =>
      cases lexeme with
      | colon =>
          cases stepped
          exact within
      | _ => contradiction
  | afterMember before stack =>
      obtain ⟨room, held, rest⟩ := within
      cases lexeme with
      | comma =>
          cases stepped
          exact ⟨room, held, rest⟩
      | closeObject =>
          cases stepped
          have shallow : (Tree.ofMembers before.reverse).depth < limit - (stack.length + 1) :=
            depth_ofMembers (by omega) fun value member => by
              have := held value (by simpa [Frame.held] using member)
              omega
          exact complete_within rest (by rw [Tree.depth]; omega)
      | _ => contradiction
  | finished document => cases lexeme <;> contradiction

theorem foldlM_within {lexemes : List Lexeme} (within : state.Within limit)
    (parsed : lexemes.foldlM (parseStep limit) state = some state') : state'.Within limit := by
  induction lexemes generalizing state with
  | nil =>
      cases parsed
      exact within
  | cons lexeme lexemes ih =>
      obtain ⟨middle, stepped, parsed⟩ := Option.bind_eq_some_iff.mp parsed
      exact ih (parseStep_within within stepped) parsed

/-- What is read is nested less deep than the limit. -/
theorem depth_of_readDocument {text : List Char} (positive : 0 < limit)
    (read : readDocument limit text = some document) : document.depth < limit := by
  obtain ⟨lexemes, _, parsed⟩ := Option.bind_eq_some_iff.mp read
  obtain ⟨state, ran, finished⟩ := Option.bind_eq_some_iff.mp parsed
  have within : state.Within limit := foldlM_within (show ParseState.Within limit (.value []) from positive) ran
  cases state with
  | finished other =>
      cases finished
      exact within
  | _ => contradiction

theorem beginValue_mono (grows : limit ≤ limit') (began : beginValue limit stack lexeme = some state') :
    beginValue limit' stack lexeme = some state' := by
  cases lexeme with
  | openArray | openObject =>
      obtain ⟨room, began⟩ := Option.ite_none_right_eq_some.mp began
      exact (if_pos (room.trans_le grows)).trans began
  | _ => exact began

theorem parseStep_mono (grows : limit ≤ limit') (stepped : parseStep limit state lexeme = some state') :
    parseStep limit' state lexeme = some state' := by
  cases state with
  | value stack => exact beginValue_mono grows stepped
  | firstItem stack =>
      by_cases closes : lexeme = .closeArray
      · subst closes
        exact stepped
      · rw [firstItem_step closes] at stepped ⊢
        exact beginValue_mono grows stepped
  | _ => cases lexeme <;> exact stepped

theorem readDocument_mono (grows : limit ≤ limit') {text : List Char}
    (read : readDocument limit text = some document) : readDocument limit' text = some document := by
  obtain ⟨lexemes, lexed, parsed⟩ := Option.bind_eq_some_iff.mp read
  obtain ⟨state, ran, finished⟩ := Option.bind_eq_some_iff.mp parsed
  have higher : ∀ (lexemes : List Lexeme) (start : ParseState),
      lexemes.foldlM (parseStep limit) start = some state →
        lexemes.foldlM (parseStep limit') start = some state := by
    intro lexemes
    induction lexemes with
    | nil => exact fun _ ran => ran
    | cons lexeme lexemes ih =>
        intro start ran
        obtain ⟨middle, stepped, ran⟩ := Option.bind_eq_some_iff.mp ran
        exact Option.bind_eq_some_iff.mpr ⟨middle, parseStep_mono grows stepped, ih middle ran⟩
  rw [readDocument, lexed, Option.bind_some, parse, higher lexemes _ ran, Option.bind_some, finished]

/-- A printed document reads back if and only if it is shallow enough. -/
theorem readDocument_print_iff (positive : 0 < limit) :
    (readDocument limit document.print).isSome ↔ document.depth < limit := by
  constructor
  · intro readable
    obtain ⟨other, read⟩ := Option.isSome_iff_exists.mp readable
    have shallow := depth_of_readDocument positive read
    have whole := @readDocument_print (max limit (document.depth + 1)) document (by omega)
    cases (readDocument_mono (Nat.le_max_left limit (document.depth + 1)) read).symm.trans whole
    exact shallow
  · intro shallow
    rw [readDocument_print shallow]
    rfl

end TariVault.Json
