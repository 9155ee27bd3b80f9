import TariVault.Data.JsonWidth

namespace TariVault.Json

/-! # Raw values

An object that begins with one reserved key is none for the library: it stands for the
value of the text beside the key, and anything else in it is an error.
-/

def rawValueKey : String := "$serde_json::private::RawValue"

namespace Tree

variable {ν μ : Type} {kind : Kind}

/-- The members begin with the reserved key. -/
def isRaw : {kind : Kind} → Tree ν kind → Bool
  | _, .member key _ _ => key = rawValueKey
  | _, _ => false

def rawText : {kind : Kind} → Tree ν kind → Option String
  | _, .member _ (.text value) .noMembers => some value
  | _, _ => none

/-- Each object that stands for a text, replaced by what `inner` finds there. -/
def unwrap (inner : String → Option (Tree ν .value)) : {kind : Kind} → Tree ν kind → Option (Tree ν kind)
  | _, .array items => (items.unwrap inner).map .array
  | _, .object members =>
      if members.isRaw then members.rawText.bind inner else (members.unwrap inner).map .object
  | _, .item head rest => do return .item (← head.unwrap inner) (← rest.unwrap inner)
  | _, .member key value rest => do return .member key (← value.unwrap inner) (← rest.unwrap inner)
  | _, tree => some tree

/-- No object begins with the reserved key. -/
def Plain : {kind : Kind} → Tree ν kind → Prop
  | _, .array items => items.Plain
  | _, .object members => members.isRaw = false ∧ members.Plain
  | _, .item head rest => head.Plain ∧ rest.Plain
  | _, .member _ value rest => value.Plain ∧ rest.Plain
  | _, _ => True

attribute [local simp] map width isRaw unwrap Plain

@[simp] theorem isRaw_map (f : ν → μ) (tree : Tree ν kind) : (tree.map f).isRaw = tree.isRaw := by
  cases tree <;> rfl

theorem plain_map (f : ν → μ) (tree : Tree ν kind) : (tree.map f).Plain ↔ tree.Plain := by
  induction tree with
  | object members ih => rw [map, Plain, Plain, isRaw_map, ih]
  | _ => simp_all [map, Plain]

theorem width_rawText {members : Tree ν kind} (raw : members.isRaw) {text : String}
    (found : members.rawText = some text) : text.length < members.width := by
  unfold rawText at found
  split at found
  · rename_i key value
    cases found
    have reserved : key = rawValueKey := by simpa using raw
    have long : rawValueKey.length = 30 := rfl
    simp only [width, reserved, long]
    omega
  · contradiction

theorem unwrap_plain {inner : String → Option (Tree ν .value)} {tree : Tree ν kind} (plain : tree.Plain) :
    tree.unwrap inner = some tree := by
  induction tree <;> simp_all [unwrap, Plain]

theorem unwrap_congr {inner inner' : String → Option (Tree ν .value)} {tree : Tree ν kind}
    (same : ∀ text, text.length < tree.width → inner text = inner' text) :
    tree.unwrap inner = tree.unwrap inner' := by
  induction tree with
  | array items ih => exact congrArg (Option.map Tree.array) (ih same)
  | object members ih =>
      rw [unwrap, unwrap]
      split
      · rename_i raw
        cases found : members.rawText with
        | none => rfl
        | some text => exact same text (width_rawText raw found)
      · exact congrArg (Option.map Tree.object) (ih same)
  | item head rest headIH restIH =>
      rw [unwrap, unwrap, headIH fun text short => same text (by simp only [width]; omega),
        restIH fun text short => same text (by simp only [width]; omega)]
  | member key value rest valueIH restIH =>
      rw [unwrap, unwrap, valueIH fun text short => same text (by simp only [width]; omega),
        restIH fun text short => same text (by simp only [width]; omega)]
  | _ => rfl

/-- What stands for a text is wider than what is found there. So only a plain tree
stays as wide as it was. -/
theorem width_unwrap {inner : String → Option (Tree ν .value)}
    (narrow : ∀ text tree, inner text = some tree → tree.width ≤ text.length) {tree tree' : Tree ν kind}
    (unwrapped : tree.unwrap inner = some tree') :
    tree'.width ≤ tree.width ∧ (tree.width ≤ tree'.width → tree.Plain) := by
  induction tree with
  | array items ih =>
      obtain ⟨items', inside, rfl⟩ := Option.map_eq_some_iff.mp unwrapped
      exact ih inside
  | object members ih =>
      rw [unwrap] at unwrapped
      split at unwrapped
      · rename_i raw
        obtain ⟨text, found, inside⟩ := Option.bind_eq_some_iff.mp unwrapped
        have shorter := (narrow text tree' inside).trans_lt (width_rawText raw found)
        exact ⟨shorter.le, fun wide => absurd (wide.trans_lt shorter) (lt_irrefl _)⟩
      · rename_i notRaw
        obtain ⟨members', inside, rfl⟩ := Option.map_eq_some_iff.mp unwrapped
        obtain ⟨narrower, plain⟩ := ih inside
        exact ⟨narrower, fun wide => ⟨Bool.eq_false_iff.mpr notRaw, plain wide⟩⟩
  | item head rest headIH restIH =>
      obtain ⟨head', unwrappedHead, unwrapped⟩ := Option.bind_eq_some_iff.mp unwrapped
      obtain ⟨rest', unwrappedRest, unwrapped⟩ := Option.bind_eq_some_iff.mp unwrapped
      cases unwrapped
      obtain ⟨headNarrower, headPlain⟩ := headIH unwrappedHead
      obtain ⟨restNarrower, restPlain⟩ := restIH unwrappedRest
      simp only [width]
      exact ⟨by omega, fun wide => ⟨headPlain (by omega), restPlain (by omega)⟩⟩
  | member key value rest valueIH restIH =>
      obtain ⟨value', unwrappedValue, unwrapped⟩ := Option.bind_eq_some_iff.mp unwrapped
      obtain ⟨rest', unwrappedRest, unwrapped⟩ := Option.bind_eq_some_iff.mp unwrapped
      cases unwrapped
      obtain ⟨valueNarrower, valuePlain⟩ := valueIH unwrappedValue
      obtain ⟨restNarrower, restPlain⟩ := restIH unwrappedRest
      simp only [width]
      exact ⟨by omega, fun wide => ⟨valuePlain (by omega), restPlain (by omega)⟩⟩
  | _ =>
      cases unwrapped
      exact ⟨Nat.le_refl _, fun _ => trivial⟩

end Tree

variable {limit fuel fuel' : Nat} {document document' : Document}

/-- A text that an object stands for is read afresh, and may hold such objects again. -/
def unwrapTexts (limit : Nat) : Nat → Document → Option Document
  | 0 => Tree.unwrap fun _ => none
  | fuel + 1 => Tree.unwrap fun text => (readDocument limit text.toList).bind (unwrapTexts limit fuel)

def unwrapRaw (limit : Nat) (document : Document) : Option Document := unwrapTexts limit document.width document

theorem unwrapTexts_fuel (enough : document.width ≤ fuel) (enough' : document.width ≤ fuel') :
    unwrapTexts limit fuel document = unwrapTexts limit fuel' document := by
  induction fuel generalizing document fuel' with
  | zero =>
      have shallow (text : String) : ¬ text.length < document.width := by omega
      cases fuel' with
      | zero => rfl
      | succ fuel' => exact Tree.unwrap_congr fun text short => absurd short (shallow text)
  | succ fuel ih =>
      cases fuel' with
      | zero => exact Tree.unwrap_congr fun text short => absurd short (by omega)
      | succ fuel' =>
          refine Tree.unwrap_congr fun text short => ?_
          refine Option.bind_congr fun inside read => ?_
          have narrow := width_of_readDocument read
          rw [String.length_toList] at narrow
          exact ih (by omega) (by omega)

/-- The texts are shorter and shorter, so all of them are read. -/
theorem unwrapRaw_eq (document : Document) : unwrapRaw limit document =
    document.unwrap fun text => (readDocument limit text.toList).bind (unwrapRaw limit) := by
  rw [unwrapRaw, unwrapTexts_fuel (Nat.le_refl _) (Nat.le_succ _), unwrapTexts]
  refine Tree.unwrap_congr fun text short => Option.bind_congr fun inside read => ?_
  have narrow := width_of_readDocument read
  rw [String.length_toList] at narrow
  exact unwrapTexts_fuel (by omega) (Nat.le_refl _)

theorem width_unwrapTexts (unwrapped : unwrapTexts limit fuel document = some document') :
    document'.width ≤ document.width ∧ (document.width ≤ document'.width → document.Plain) := by
  induction fuel generalizing document document' with
  | zero => exact Tree.width_unwrap (fun _ _ found => absurd found (by simp)) unwrapped
  | succ fuel ih =>
      refine Tree.width_unwrap (fun text tree found => ?_) unwrapped
      obtain ⟨inside, read, found⟩ := Option.bind_eq_some_iff.mp found
      have narrow := width_of_readDocument read
      rw [String.length_toList] at narrow
      exact (ih found).1.trans narrow

/-- A document gets narrower, unless it is plain. -/
theorem width_unwrapRaw (unwrapped : unwrapRaw limit document = some document') :
    document'.width ≤ document.width ∧ (document.width ≤ document'.width → document.Plain) :=
  width_unwrapTexts unwrapped

theorem unwrapRaw_plain (plain : document.Plain) : unwrapRaw limit document = some document := by
  rw [unwrapRaw_eq, Tree.unwrap_plain plain]

end TariVault.Json
