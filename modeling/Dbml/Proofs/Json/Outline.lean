import Dbml.Proofs.Json.Form

/-!
# The outline of a written value

A value is written in one form, whatever the layout, and the outline of that form is the outline of
the value. Main statement: `Codec.read_text`.
-/

namespace Dbml.Json

mutual

/-- What a value looks like to a reader of its text. -/
def outline : Json → Outline
  | .null => .null
  | .bool b => .bool b
  | .num n => .number (.ofCount n)
  | .str s => .string (some s)
  | .arr items => .array (outlines items)
  | .obj members => .object (memberOutlines members)

def outlines : List Json → List Outline
  | [] => []
  | item :: items => item.outline :: outlines items

def memberOutlines : List (String × Json) → List (Option String × Outline)
  | [] => []
  | (key, value) :: members => (some key, value.outline) :: memberOutlines members

end

/-! ## The form that is written -/

mutual

/-- A value in the form that it is written in, in either layout. -/
def form : Json → Form
  | .null => .null
  | .bool b => .bool b
  | .num n => .number (.ofCount n)
  | .str s => .string (s.toList.map Stroke.ofChar)
  | .arr items => .array (forms items)
  | .obj members => .object (memberForms members)

def forms : List Json → List Form
  | [] => []
  | item :: items => item.form :: forms items

def memberForms : List (String × Json) → List (List Stroke × Form)
  | [] => []
  | (key, value) :: members => (key.toList.map Stroke.ofChar, value.form) :: memberForms members

end

theorem forms_eq_map (items : List Json) : forms items = items.map form := by
  induction items with
  | nil => rfl
  | cons item items ih => rw [forms, ih, List.map_cons]

theorem memberForms_append (members others : List (String × Json)) :
    memberForms (members ++ others) = memberForms members ++ memberForms others := by
  induction members with
  | nil => rfl
  | cons member members ih =>
    rw [List.cons_append, memberForms, memberForms, ih, List.cons_append]

section Layouts

variable (layout : Layout)

theorem spaced_lineBreak (level : Nat) {words : List Lexeme} {text : List Char}
    (spaced : Spaced words text) : Spaced words (layout.lineBreak level ++ text) := by
  refine spaced.indent fun c listed => ?_
  cases layout with
  | compact => exact absurd listed List.not_mem_nil
  | pretty =>
    rcases List.mem_cons.1 listed with rfl | listed
    · decide
    · rw [(List.mem_replicate.1 listed).2]
      decide

theorem spaced_colon {words : List Lexeme} {text : List Char} (spaced : Spaced words text) :
    Spaced (.colon :: words) (layout.colon ++ text) := by
  cases layout with
  | compact => exact spaced.word .colon
  | pretty =>
    have blank : ∀ c ∈ [' '], Symbol.isSpace c = true := List.forall_mem_singleton.2 rfl
    exact (spaced.indent blank).word .colon

theorem spaced_quote (s : String) {words : List Lexeme} {text : List Char}
    (spaced : Spaced words text) :
    Spaced (.string (s.toList.map Stroke.ofChar) :: words) (quote s ++ text) := by
  have written := spaced.word (.string (s.toList.map Stroke.ofChar))
  rwa [Lexeme.chars, strokeChars_map_ofChar] at written

mutual

theorem spaced_write : ∀ (level : Nat) (value : Json) {words : List Lexeme} {text : List Char},
    Spaced words text → Spaced (value.form.lexemes ++ words) (write layout level value ++ text)
  | _, .null, _, _, spaced => spaced.word .null
  | _, .bool true, _, _, spaced => spaced.word (.bool true)
  | _, .bool false, _, _, spaced => spaced.word (.bool false)
  | _, .num n, _, _, spaced => by
    rw [write, ← Numeral.chars_ofCount]
    exact spaced.word (.number (.ofCount n))
  | _, .str s, _, _, spaced => spaced_quote s spaced
  | _, .arr [], _, _, spaced => (spaced.word .closeArray).word .openArray
  | level, .arr (item :: items), words, text, spaced => by
    have close := spaced_lineBreak layout level (spaced.word .closeArray)
    have items := spaced_writeItems (level + 1) items close
    have items := spaced_lineBreak layout (level + 1) (spaced_write (level + 1) item items)
    simpa only [form, forms, Form.lexemes, write, List.cons_append, List.append_assoc,
      List.nil_append, Lexeme.chars] using items.word .openArray
  | _, .obj [], _, _, spaced => (spaced.word .closeObject).word .openObject
  | level, .obj ((key, value) :: members), words, text, spaced => by
    have close := spaced_lineBreak layout level (spaced.word .closeObject)
    have members := spaced_writeMembers (level + 1) members close
    have value := spaced_colon layout (spaced_write (level + 1) value members)
    have members := spaced_lineBreak layout (level + 1) (spaced_quote key value)
    simpa only [form, memberForms, Form.lexemes, write, List.cons_append, List.append_assoc,
      List.nil_append, Lexeme.chars] using members.word .openObject

theorem spaced_writeItems : ∀ (level : Nat) (items : List Json) {words : List Lexeme}
    {text : List Char}, Spaced words text →
    Spaced (Form.itemLexemes (forms items) ++ words) (writeItems layout level items ++ text)
  | _, [], _, _, spaced => spaced
  | level, item :: items, words, text, spaced => by
    have item := spaced_write level item (spaced_writeItems level items spaced)
    simpa only [forms, Form.itemLexemes, writeItems, List.cons_append, List.append_assoc,
      List.nil_append, Lexeme.chars] using (spaced_lineBreak layout level item).word .comma

theorem spaced_writeMembers : ∀ (level : Nat) (members : List (String × Json))
    {words : List Lexeme} {text : List Char}, Spaced words text →
    Spaced (Form.memberLexemes (memberForms members) ++ words)
      (writeMembers layout level members ++ text)
  | _, [], _, _, spaced => spaced
  | level, (key, value) :: members, words, text, spaced => by
    have value := spaced_write level value (spaced_writeMembers level members spaced)
    have member := spaced_quote key (spaced_colon layout value)
    simpa only [memberForms, Form.memberLexemes, writeMembers, List.cons_append,
      List.append_assoc, List.nil_append, Lexeme.chars] using
      (spaced_lineBreak layout level member).word .comma

end

theorem spaced_text (value : Json) : Spaced value.form.lexemes (value.text layout).toList := by
  have nothing : Spaced [] [] := .nil fun _ listed => absurd listed List.not_mem_nil
  have written := spaced_write layout 0 value nothing
  rwa [List.append_nil, List.append_nil, ← String.toList_ofList (l := write layout 0 value)]
    at written

end Layouts

/-! ## Reading what is written -/

mutual

theorem outline_form : ∀ value : Json, value.form.outline = value.outline
  | .null | .bool _ | .num _ => rfl
  | .str s => by rw [form, Form.outline, (Spells.map_ofChar s.toList).readStrokes, outline]
  | .arr items => by rw [form, Form.outline, outlines_forms items, outline]
  | .obj members => by rw [form, Form.outline, memberOutlines_memberForms members, outline]

theorem outlines_forms : ∀ items : List Json, Form.outlines (forms items) = outlines items
  | [] => rfl
  | item :: items => by
    rw [forms, Form.outlines, outline_form item, outlines_forms items, outlines]

theorem memberOutlines_memberForms : ∀ members : List (String × Json),
    Form.memberOutlines (memberForms members) = memberOutlines members
  | [] => rfl
  | (key, value) :: members => by
    rw [memberForms, Form.memberOutlines, (Spells.map_ofChar key.toList).readStrokes,
      outline_form value, memberOutlines_memberForms members, memberOutlines]

end

/-- A written value is read from its outline, in either layout. -/
theorem Codec.read_text {α : Type} (codec : Codec α) (value : Json) (layout : Layout) :
    codec.read (value.text layout) = codec.decode value.outline := by
  rw [codec.read_spaced (value.spaced_text layout), outline_form]

/-- Nothing in a written value breaks off. -/
@[simp] theorem isWhole_outline (value : Json) : value.outline.isWhole = true := by
  rw [← outline_form]
  exact value.form.isWhole_outline

end Dbml.Json
