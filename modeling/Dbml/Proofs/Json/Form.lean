import Dbml.Json.Codec
import Dbml.Proofs.Json.Lexemes

/-!
# Written forms of values

A form is a value as it is written, but for white space: its strings in strokes, its numbers in
digits. Whatever white space a text has between the words of a form, the form is what is read from
it. Main statement: `Codec.read_spaced`.
-/

namespace Dbml.Json

open Outline

inductive Form
  | null
  | bool (b : Bool)
  | number (n : Numeral)
  | string (strokes : List Stroke)
  | array (items : List Form)
  | object (members : List (List Stroke × Form))

namespace Form

mutual

def lexemes : Form → List Lexeme
  | .null => [.null]
  | .bool b => [.bool b]
  | .number n => [.number n]
  | .string strokes => [.string strokes]
  | .array [] => [.openArray, .closeArray]
  | .array (item :: items) => .openArray :: (item.lexemes ++ (itemLexemes items ++ [.closeArray]))
  | .object [] => [.openObject, .closeObject]
  | .object ((name, value) :: members) =>
    .openObject :: .string name :: .colon
      :: (value.lexemes ++ (memberLexemes members ++ [.closeObject]))

/-- The words of the items after the first, each with a comma before it. -/
def itemLexemes : List Form → List Lexeme
  | [] => []
  | item :: items => .comma :: (item.lexemes ++ itemLexemes items)

/-- The words of the members after the first, each with a comma before it. -/
def memberLexemes : List (List Stroke × Form) → List Lexeme
  | [] => []
  | (name, value) :: members =>
    .comma :: .string name :: .colon :: (value.lexemes ++ memberLexemes members)

end

mutual

/-- What the value is read as. -/
def outline : Form → Outline
  | .null => .null
  | .bool b => .bool b
  | .number n => .number n.number
  | .string strokes => .string (readStrokes strokes)
  | .array items => .array (outlines items)
  | .object members => .object (memberOutlines members)

def outlines : List Form → List Outline
  | [] => []
  | item :: items => item.outline :: outlines items

def memberOutlines : List (List Stroke × Form) → List (Option String × Outline)
  | [] => []
  | (name, value) :: members => (readStrokes name, value.outline) :: memberOutlines members

end

theorem memberOutlines_eq_map (members : List (List Stroke × Form)) :
    memberOutlines members =
      members.map fun member => (readStrokes member.1, member.2.outline) := by
  induction members with
  | nil => rfl
  | cons member members ih => rw [memberOutlines, ih, List.map_cons]

mutual

/-- Nothing in a form breaks off. -/
theorem isWhole_outline : ∀ form : Form, form.outline.isWhole = true
  | .null | .bool _ | .number _ | .string _ => rfl
  | .array items => by rw [outline, isWhole, areWhole_outlines items]
  | .object members => by rw [outline, isWhole, areWholeMembers_memberOutlines members]

theorem areWhole_outlines : ∀ items : List Form, areWhole (outlines items) = true
  | [] => rfl
  | item :: items => by
    rw [outlines, areWhole, isWhole_outline item, areWhole_outlines items, Bool.and_true]

theorem areWholeMembers_memberOutlines :
    ∀ members : List (List Stroke × Form), areWholeMembers (memberOutlines members) = true
  | [] => rfl
  | (_, value) :: members => by
    rw [memberOutlines, areWholeMembers, isWhole_outline value,
      areWholeMembers_memberOutlines members, Bool.and_true]

end

/-! ## The words of a form -/

/-- A value may stand before the words, and before it the end of another. -/
def MayFollow (words : List Lexeme) : Prop :=
  words.IsChain Lexeme.Parted ∧ ∀ word ∈ words.head?, word.isScalar = false

theorem mayFollow_cons {word : Lexeme} {words : List Lexeme} (mark : word.isScalar = false)
    (parted : words.IsChain Lexeme.Parted) : MayFollow (word :: words) := by
  refine ⟨List.isChain_cons.2 ⟨fun _ _ both => ?_, parted⟩, ?_⟩
  · exact Bool.false_ne_true (mark.symm.trans both.1)
  · rintro _ ⟨⟩
    exact mark

/-- A scalar value before the words. -/
theorem MayFollow.scalar {word : Lexeme} {words : List Lexeme} (follow : MayFollow words) :
    (word :: words).IsChain Lexeme.Parted :=
  List.isChain_cons.2 ⟨fun next first both =>
    Bool.false_ne_true ((follow.2 next first).symm.trans both.2), follow.1⟩

mutual

theorem parted_lexemes : ∀ (form : Form) {words : List Lexeme}, MayFollow words →
    (form.lexemes ++ words).IsChain Lexeme.Parted
  | .null, _, follow | .bool _, _, follow | .number _, _, follow | .string _, _, follow =>
    follow.scalar
  | .array [], _, follow | .object [], _, follow =>
    (mayFollow_cons rfl (mayFollow_cons rfl follow.1).1).1
  | .array (item :: items), words, follow => by
    have close : MayFollow (.closeArray :: words) := mayFollow_cons rfl follow.1
    rw [lexemes, List.cons_append, List.append_assoc, List.append_assoc, List.singleton_append]
    exact (mayFollow_cons rfl (parted_lexemes item (mayFollow_itemLexemes items close))).1
  | .object ((name, value) :: members), words, follow => by
    have close : MayFollow (.closeObject :: words) := mayFollow_cons rfl follow.1
    have value := parted_lexemes value (mayFollow_memberLexemes members close)
    rw [lexemes, List.cons_append, List.cons_append, List.cons_append, List.append_assoc,
      List.append_assoc, List.singleton_append]
    exact (mayFollow_cons rfl (mayFollow_cons rfl value).scalar).1

theorem mayFollow_itemLexemes : ∀ (items : List Form) {words : List Lexeme}, MayFollow words →
    MayFollow (itemLexemes items ++ words)
  | [], _, follow => follow
  | item :: items, words, follow => by
    rw [itemLexemes, List.cons_append, List.append_assoc]
    exact mayFollow_cons rfl (parted_lexemes item (mayFollow_itemLexemes items follow))

theorem mayFollow_memberLexemes : ∀ (members : List (List Stroke × Form)) {words : List Lexeme},
    MayFollow words → MayFollow (memberLexemes members ++ words)
  | [], _, follow => follow
  | (name, value) :: members, words, follow => by
    have value := parted_lexemes value (mayFollow_memberLexemes members follow)
    rw [memberLexemes, List.cons_append, List.cons_append, List.cons_append, List.append_assoc]
    exact mayFollow_cons rfl (mayFollow_cons rfl value).scalar

end

/-! ## Reading -/

/-- The first item of an array is read like any other. -/
theorem foldl_step_firstItem (form : Form) (outer : Context) :
    (form.lexemes.map Lexeme.symbol).foldl step (.firstItem outer) =
      (form.lexemes.map Lexeme.symbol).foldl step (.value (.item [] outer)) := by
  match form with
  | .null | .bool _ | .number _ | .string _ => rfl
  | .array [] | .array (_ :: _) | .object [] | .object (_ :: _) => rfl

mutual

theorem foldl_step_lexemes : ∀ (form : Form) (context : Context),
    (form.lexemes.map Lexeme.symbol).foldl step (.value context) = .complete form.outline context
  | .null, _ | .bool _, _ | .number _, _ | .string _, _ => rfl
  | .array [], _ | .object [], _ => rfl
  | .array (item :: items), context => by
    have first : step (.value context) .openArray = .firstItem context := rfl
    rw [lexemes, List.map_cons, List.map_append, List.foldl_cons, Lexeme.symbol, first,
      List.foldl_append, foldl_step_firstItem, foldl_step_lexemes item, foldl_step_itemLexemes]
    rfl
  | .object ((name, value) :: members), context => by
    have first : step (step (step (.value context) .openObject) (.string (readStrokes name)))
        .colon = .value (.member [] (readStrokes name) context) := rfl
    rw [lexemes, List.map_cons, List.map_cons, List.map_cons, List.map_append, List.foldl_cons,
      List.foldl_cons, List.foldl_cons, Lexeme.symbol, Lexeme.symbol, Lexeme.symbol, first,
      List.foldl_append, foldl_step_lexemes value, foldl_step_memberLexemes]
    rfl

theorem foldl_step_itemLexemes : ∀ (items : List Form) (value : Outline)
    (before : List Outline) (outer : Context),
    ((itemLexemes items ++ [Lexeme.closeArray]).map Lexeme.symbol).foldl step
        (.complete value (.item before outer)) =
      .complete (.array (before.reverse ++ value :: outlines items)) outer
  | [], _, _, _ => rfl
  | item :: items, value, before, outer => by
    have next : step (.complete value (.item before outer)) .comma =
        .value (.item (value :: before) outer) := rfl
    rw [itemLexemes, List.cons_append, List.append_assoc, List.map_cons, List.map_append,
      List.foldl_cons, Lexeme.symbol, next, List.foldl_append, foldl_step_lexemes item,
      foldl_step_itemLexemes items, outlines, List.reverse_cons, List.append_assoc,
      List.singleton_append]

theorem foldl_step_memberLexemes : ∀ (members : List (List Stroke × Form)) (value : Outline)
    (before : List (Option String × Outline)) (name : Option String) (outer : Context),
    ((memberLexemes members ++ [Lexeme.closeObject]).map Lexeme.symbol).foldl step
        (.complete value (.member before name outer)) =
      .complete (.object (before.reverse ++ (name, value) :: memberOutlines members)) outer
  | [], _, _, _, _ => rfl
  | (key, value) :: members, last, before, name, outer => by
    have next : step (step (step (.complete last (.member before name outer)) .comma)
        (.string (readStrokes key))) .colon =
        .value (.member ((name, last) :: before) (readStrokes key) outer) := rfl
    rw [memberLexemes, List.cons_append, List.cons_append, List.cons_append, List.append_assoc,
      List.map_cons, List.map_cons, List.map_cons, List.map_append, List.foldl_cons,
      List.foldl_cons, List.foldl_cons, Lexeme.symbol, Lexeme.symbol, Lexeme.symbol, next,
      List.foldl_append, foldl_step_lexemes value, foldl_step_memberLexemes members,
      memberOutlines, List.reverse_cons, List.append_assoc, List.singleton_append]

end

/-- Whatever white space a text of a form has, its outline is that of the form. -/
theorem ofSymbols_spaced {form : Form} {text : List Char} (spaced : Spaced form.lexemes text) :
    ofSymbols (Symbol.symbols text) = (form.outline, true) := by
  have nothing : MayFollow [] := ⟨.nil, nofun⟩
  have parted := form.parted_lexemes nothing
  rw [List.append_nil] at parted
  rw [ofSymbols, spaced.symbols_eq parted, foldl_step_lexemes, finish]

end Form

theorem Codec.read_spaced {α : Type} (codec : Codec α) {form : Form} {text : String}
    (spaced : Spaced form.lexemes text.toList) : codec.read text = codec.decode form.outline := by
  simp only [Codec.read, Form.ofSymbols_spaced spaced]
  cases codec.decode form.outline <;> rfl

end Dbml.Json
