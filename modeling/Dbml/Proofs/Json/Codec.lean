import Dbml.Proofs.Json.Schema

/-!
# Codecs and their schemas

A codec follows a schema at a value when it reads the value from every form that presents what it
writes for the value. A record follows the schema of its members if each of them does and no two
have the same key. Main statement: `record_follows`.
-/

namespace Dbml.Json

namespace Number

/-- The digits are taken up as long as the number they make is a count. -/
theorem accumulate_eq {cs : List Char} {n : Nat} (taken : Nat)
    (small : Nat.ofDigitChars 10 cs n ≤ countLimit) :
    accumulate n taken cs = (Nat.ofDigitChars 10 cs n, taken + cs.length) := by
  induction cs generalizing n taken with
  | nil => rfl
  | cons c cs ih =>
    rw [Nat.ofDigitChars_cons, Nat.mul_comm] at small
    have next : n * 10 + (c.toNat - '0'.toNat) ≤ countLimit := by
      rw [Nat.ofDigitChars_eq_ofDigitChars_zero] at small
      have := Nat.le_mul_of_pos_left (n * 10 + (c.toNat - '0'.toNat))
        (Nat.pow_pos (n := cs.length) (show 0 < 10 by decide))
      omega
    rw [accumulate, if_neg (Nat.not_lt.2 next), ih _ small, Nat.ofDigitChars_cons, Nat.mul_comm 10,
      List.length_cons, Nat.add_assoc, Nat.add_comm 1]

theorem ofCount_eq {n : Nat} (small : n ≤ countLimit) : ofCount n = .count n := by
  have digits : accumulate 0 0 (Nat.toDigits 10 n) = (n, (Nat.toDigits 10 n).length) := by
    have value : Nat.ofDigitChars 10 (Nat.toDigits 10 n) 0 = n := Nat.ofDigitChars_ten_toDigits
    rw [accumulate_eq 0 (value.symm ▸ small), value, Nat.zero_add]
  simp [ofCount, ofSpelling, digits]

end Number

namespace Codec

variable {α σ : Type}

/-- What is written for the value is read as the value. -/
def Restores (codec : Codec α) (a : α) : Prop :=
  codec.decode (codec.encode a).outline = .ok a

theorem Restores.read {codec : Codec α} {a : α} (restores : codec.Restores a) (layout : Layout) :
    codec.read ((codec.encode a).text layout) = .ok a :=
  (codec.read_text _ layout).trans restores

/-- What the codec writes for the value is presented in the form that it is written in, and
whatever else presents it is read as the value. -/
structure Follows (codec : Codec α) (schema : Schema) (a : α) : Prop where
  written : ∀ admitted, Presents admitted schema (codec.encode a) (codec.encode a).form
  read : ∀ form, Presents Legible schema (codec.encode a) form → codec.decode form.outline = .ok a

theorem Follows.restores {codec : Codec α} {schema : Schema} {a : α}
    (follows : codec.Follows schema a) : codec.Restores a := by
  rw [Restores, ← outline_form]
  exact follows.read _ (follows.written Legible)

/-! ## Scalars and containers -/

theorem string_follows (s : String) : string.Follows .scalar s where
  written _ := .str (.map_ofChar s.toList)
  read form presents := by
    cases presents with
    | str spells => simp only [Form.outline, spells.readStrokes, string]

theorem bool_follows (b : Bool) : bool.Follows .scalar b where
  written _ := .bool
  read form presents := by
    cases presents with
    | bool => rfl

/-- A count of at most 64 bits is read as it was written. -/
theorem count_follows {n : Nat} (small : n ≤ Number.countLimit) : count.Follows .scalar n where
  written _ := .num
  read form presents := by
    cases presents with
    | num =>
      have number : (Numeral.ofCount n).number = .count n := Number.ofCount_eq small
      simp only [Form.outline, number, count]

theorem named_follows {nameOf : α → String} {ofName? : String → Option α} {a : α}
    (found : ofName? (nameOf a) = some a) : (named nameOf ofName?).Follows .scalar a where
  written _ := .str (.map_ofChar (nameOf a).toList)
  read form presents := by
    cases presents with
    | str spells => simp only [Form.outline, spells.readStrokes, named, found, Option.elim_some]

theorem decodeItems_of_presents {codec : Codec α} {item : Schema} {values : List α}
    {forms : List Form} (follows : ∀ a ∈ values, codec.Follows item a)
    (items : List.Forall₂ (Presents Legible item) (values.map codec.encode) forms) :
    codec.decodeItems (Form.outlines forms) = .ok values := by
  induction values generalizing forms with
  | nil =>
    cases items
    rfl
  | cons a values ih =>
    cases items with
    | cons first rest =>
      rw [Form.outlines, decodeItems, (follows a List.mem_cons_self).read _ first,
        ih (fun b listed => follows b (List.mem_cons_of_mem _ listed)) rest]
      rfl

theorem list_follows {codec : Codec α} {item : Schema} {values : List α}
    (follows : ∀ a ∈ values, codec.Follows item a) : codec.list.Follows (.list item) values where
  written admitted := by
    rw [list, form, forms_eq_map, List.map_map, presents_arr_iff, List.forall₂_map_left_iff,
      List.forall₂_map_right_iff, List.forall₂_same]
    exact fun a listed => (follows a listed).written admitted
  read form presents := by
    cases presents with
    | arr length items =>
      exact decodeItems_of_presents follows (List.forall₂_iff_zip.2 ⟨length, items⟩)

/-- A value that is present is told from one that is absent, unless it is written as null. -/
theorem option_follows {codec : Codec α} {schema : Schema} {value : Option α}
    (present : ∀ a, codec.encode a ≠ .null) (follows : ∀ a ∈ value, codec.Follows schema a) :
    codec.option.Follows schema value := by
  cases value with
  | none =>
    refine ⟨fun _ => .null, fun form presents => ?_⟩
    cases presents
    rfl
  | some a =>
    refine ⟨(follows a rfl).written, fun form presents => ?_⟩
    have decode : codec.option.decode form.outline = some <$> codec.decode form.outline := by
      cases shape : form.outline with
      | null => exact absurd shape (presents.outline_ne_null (present a))
      | _ => rfl
    rw [decode, (follows a rfl).read form presents]
    rfl

/-! ## Members -/

/-- The member is written and read as the field says. -/
structure Member.Follows (member : Member α) (field : FieldSchema Schema) (value : α) : Prop where
  key : field.key = member.key
  codec : member.codec.Follows field.schema value
  missing : field.missing = some (member.codec.encode value) → member.missing = some value
  omitted : member.isOmitted value = true → field.missing = some (member.codec.encode value)

theorem required_follows {key : String} {codec : Codec α} {schema : Schema} {value : α}
    (follows : codec.Follows schema value) :
    (required key codec).Follows (.required key schema) value where
  key := rfl
  codec := follows
  missing := nofun
  omitted := nofun

theorem optional_follows {key : String} {codec : Codec α} {schema : Schema} {value : Option α}
    (present : ∀ a, codec.encode a ≠ .null) (follows : ∀ a ∈ value, codec.Follows schema a) :
    (optional key codec).Follows (.optional key schema) value where
  key := rfl
  codec := option_follows present follows
  missing null := by
    cases value with
    | none => rfl
    | some a => exact absurd (Option.some.inj null).symm (present a)
  omitted absent := by
    obtain rfl := Option.isNone_iff_eq_none.1 absent
    rfl

namespace Members

/-- Each member follows its field. -/
inductive Follows : {σ : Type} → Members σ → List (FieldSchema Schema) → σ → Prop
  | none : Follows .none [] ()
  | more {α β : Type} {member : Member α} {members : Members β} {field : FieldSchema Schema}
    {fields : List (FieldSchema Schema)} {value : α} {values : β}
    (first : member.Follows field value) (rest : Follows members fields values) :
    Follows (.more member members) (field :: fields) (value, values)

theorem Follows.written {members : Members σ} {fields : List (FieldSchema Schema)} {values : σ}
    (follows : members.Follows fields values) (admitted : List Stroke → Prop) :
    PresentsMembers (Presents admitted) fields (members.encode values)
      (memberForms (members.encode values)) := by
  induction follows with
  | none => exact .nil
  | more first rest ih =>
    rw [encode, ← first.key]
    split
    next omitted => exact .absent (first.omitted omitted) ih
    next => exact .kept (.map_ofChar _) (first.codec.written admitted) ih

/-- The slots of a record whose first member has the slot. -/
def Slots.cons {β : Type} {member : Member α} {members : Members β} (slot : Option α)
    (slots : members.Slots) : (Members.more member members).Slots :=
  (slot, slots)

section More

variable {β : Type} {member : Member α} {members : Members β} {slots : members.Slots}
  {pairs : List (Option String × Outline)} {value : α} {values : β}

theorem fill_of_ne {key : String} (different : key ≠ member.key) (outline : Outline)
    (slot : Option α) (slots : members.Slots) :
    (Members.more member members).fill key outline (Slots.cons slot slots) =
      (Option.map (Slots.cons slot)) <$> members.fill key outline slots := by
  have other : ¬ member.key = key := fun same => different same.symm
  cases slot <;>
  · simp only [Slots.cons, fill, if_neg other]
    cases members.fill key outline slots <;> rfl

theorem fill_same (member : Member α) (members : Members β) (outline : Outline)
    (slots : members.Slots) :
    (Members.more member members).fill member.key outline (Slots.cons Option.none slots) =
      (fun value => some (Slots.cons (some value) slots)) <$> member.codec.decode outline := by
  simp only [Slots.cons, fill, if_pos]
  cases member.codec.decode outline <;> rfl

/-- A member with another key than the first does the same whether the first is there or not. -/
theorem exists_slots {pair : Option String × Outline}
    (other : ∃ key ≠ member.key, pair.1 = some key)
    (read : members.decodeMembers slots (pair :: pairs) = .ok values) :
    ∃ after, members.decodeMembers after pairs = .ok values ∧ ∀ slot later,
      (Members.more member members).decodeMembers (Slots.cons slot slots) (pair :: later) =
        (Members.more member members).decodeMembers (Slots.cons slot after) later := by
  obtain ⟨name, outline⟩ := pair
  obtain ⟨key, different, rfl⟩ := other
  simp only [decodeMembers, fill_of_ne different] at read ⊢
  cases filled : members.fill key outline slots with
  | error fault => simp [filled, Bind.bind, Except.bind] at read
  | ok found =>
    simp only [filled, Functor.map, Except.map, Bind.bind, Except.bind] at read ⊢
    cases found with
    | some after => exact ⟨after, read, fun _ _ => rfl⟩
    | none =>
      simp only [Option.map_none] at read ⊢
      split at read
      next whole => exact ⟨slots, read, fun _ _ => if_pos whole⟩
      · cases read

/-- Members with other keys are read as if the first member were not there. -/
theorem decodeMembers_more {slot : Option α}
    (others : ∀ pair ∈ pairs, ∃ key ≠ member.key, pair.1 = some key)
    (given : slot.or member.missing = some value)
    (read : members.decodeMembers slots pairs = .ok values) :
    (Members.more member members).decodeMembers (Slots.cons slot slots) pairs =
      .ok (value, values) := by
  induction pairs generalizing slots with
  | nil =>
    simp only [decodeMembers] at read ⊢
    simp only [Slots.cons, close, given, read]
    rfl
  | cons pair pairs ih =>
    obtain ⟨after, read, same⟩ := exists_slots (others _ List.mem_cons_self) read
    rw [same]
    exact ih (fun pair listed => others pair (List.mem_cons_of_mem _ listed)) read

/-- The first member is read wherever it stands. -/
theorem decodeMembers_insert {front back : List (Option String × Outline)} {outline : Outline}
    (others : ∀ pair ∈ front ++ back, ∃ key ≠ member.key, pair.1 = some key)
    (decoded : member.codec.decode outline = .ok value)
    (read : members.decodeMembers slots (front ++ back) = .ok values) :
    (Members.more member members).decodeMembers (Slots.cons Option.none slots)
      (front ++ (some member.key, outline) :: back) = .ok (value, values) := by
  induction front generalizing slots with
  | nil =>
    simp only [List.nil_append, decodeMembers, fill_same, decoded]
    exact decodeMembers_more others rfl read
  | cons pair front ih =>
    rw [List.cons_append] at others read
    obtain ⟨after, read, same⟩ := exists_slots (others _ List.mem_cons_self) read
    rw [List.cons_append, same]
    exact ih (fun pair listed => others pair (List.mem_cons_of_mem _ listed)) read

end More

/-- Members that nobody knows are passed over, if they have names and are not broken. -/
theorem decodeMembers_none {pairs : List (Option String × Outline)}
    (named : ∀ pair ∈ pairs, ∃ key, pair.1 = some key)
    (whole : ∀ pair ∈ pairs, pair.2.isWhole = true) :
    Members.none.decodeMembers () pairs = .ok () := by
  induction pairs with
  | nil => rfl
  | cons pair pairs ih =>
    obtain ⟨name, outline⟩ := pair
    obtain ⟨key, rfl⟩ := named _ List.mem_cons_self
    have passed : outline.isWhole = true := whole _ List.mem_cons_self
    have rest := ih (fun pair listed => named pair (List.mem_cons_of_mem _ listed))
      fun pair listed => whole pair (List.mem_cons_of_mem _ listed)
    simp only [decodeMembers, fill, Bind.bind, Except.bind, if_pos passed]
    exact rest

variable {fields : List (FieldSchema Schema)} {values : σ}
  {given others shown : List (List Stroke × Form)}

/-- Only members that have fields are written. -/
theorem Follows.exists_field {members : Members σ} (follows : members.Follows fields values) :
    ∀ member ∈ members.encode values, ∃ field ∈ fields, field.key = member.1 :=
  (follows.written Legible).exists_field

/-- The first member is given, or may be missing; the others are given as without it. -/
theorem Follows.first_cases {β : Type} {member : Member α} {members : Members β}
    {field : FieldSchema Schema} {value : α} {values : β} (first : member.Follows field value)
    (rest : members.Follows fields values) (alone : field.key ∉ fields.map (·.key))
    (known : PresentsMembers (Presents Legible) (field :: fields)
      ((Members.more member members).encode (value, values)) given) :
    (∃ name form others, given = (name, form) :: others ∧ Spells field.key.toList name ∧
      member.codec.decode form.outline = .ok value ∧
      PresentsMembers (Presents Legible) fields (members.encode values) others) ∨
    (member.missing = some value ∧
      PresentsMembers (Presents Legible) fields (members.encode values) given) := by
  have single {key : String} {shown : Json} {written : List (String × Json)}
      {given : List (List Stroke × Form)} (same : key = field.key)
      (others : PresentsMembers (Presents Legible) fields ((key, shown) :: written) given) :
      False := by
    obtain ⟨other, listed, eq⟩ := others.exists_field _ List.mem_cons_self
    exact alone (List.mem_map.2 ⟨other, listed, eq.trans same⟩)
  have unwritten {shown : Json} {written : List (String × Json)}
      (eq : members.encode values = (field.key, shown) :: written) : False := by
    obtain ⟨other, listed, same⟩ := rest.exists_field (field.key, shown) (eq ▸ List.mem_cons_self)
    exact alone (List.mem_map.2 ⟨other, listed, same⟩)
  rw [encode] at known
  split at known
  next omitted =>
    rw [List.nil_append] at known
    generalize written : members.encode values = later at known
    have missing := first.omitted omitted
    cases known with
    | kept | leftOut => exact (unwritten written).elim
    | filledIn is_missing spells shown rest =>
      obtain rfl := Option.some.inj (missing.symm.trans is_missing)
      exact .inl ⟨_, _, _, rfl, spells, first.codec.read _ shown, rest⟩
    | absent _ rest => exact .inr ⟨first.missing missing, rest⟩
  next =>
    rw [List.singleton_append, ← first.key] at known
    cases known with
    | kept spells shown rest =>
      exact .inl ⟨_, _, _, rfl, spells, first.codec.read _ shown, rest⟩
    | leftOut missing rest => exact .inr ⟨first.missing missing, rest⟩
    | filledIn _ _ _ rest | absent _ rest => exact (single rfl rest).elim

/-- The members are read in whatever order they stand, among others that have names. -/
theorem Follows.decodeMembers {members : Members σ} (follows : members.Follows fields values)
    (nodup : (fields.map (·.key)).Nodup)
    (known : PresentsMembers (Presents Legible) fields (members.encode values) given)
    (unknown : ∀ member ∈ others, Legible member.1 ∧ Unknown fields member.1)
    (order : shown.Perm (given ++ others)) :
    members.decodeMembers members.noSlots (Form.memberOutlines shown) = .ok values := by
  rw [Form.memberOutlines_eq_map]
  induction follows generalizing given shown with
  | none =>
    cases known
    refine decodeMembers_none (fun pair listed => ?_) fun pair listed => ?_
    · obtain ⟨member, is_shown, rfl⟩ := List.mem_map.1 listed
      obtain ⟨⟨key, spells⟩, -⟩ := unknown member (order.subset is_shown)
      exact ⟨key, spells.readStrokes⟩
    · obtain ⟨member, -, rfl⟩ := List.mem_map.1 listed
      exact member.2.isWhole_outline
  | @more _ _ member members field fields value values first rest ih =>
    obtain ⟨alone, nodup⟩ := List.nodup_cons.1 nodup
    have unknown_rest : ∀ other ∈ others, Legible other.1 ∧ Unknown fields other.1 :=
      fun other listed => ⟨(unknown other listed).1,
        fun field known => (unknown other listed).2 field (List.mem_cons_of_mem _ known)⟩
    -- Whatever else is given has another name than the first member.
    have different {given : List (List Stroke × Form)}
        (known : PresentsMembers (Presents Legible) fields (members.encode values) given) :
        ∀ other ∈ given ++ others, ∃ key ≠ member.key, readStrokes other.1 = some key := by
      intro other listed
      rcases List.mem_append.1 listed with listed | listed
      · obtain ⟨known_field, known, spells⟩ := known.exists_spells other listed
        refine ⟨known_field.key, fun same => alone ?_, spells.readStrokes⟩
        exact List.mem_map.2 ⟨known_field, known, same.trans first.key.symm⟩
      · obtain ⟨⟨key, spells⟩, unlisted⟩ := unknown other listed
        refine ⟨key, fun same => unlisted field List.mem_cons_self ?_, spells.readStrokes⟩
        rwa [first.key, ← same]
    have start : (Members.more member members).noSlots =
        Slots.cons Option.none members.noSlots := rfl
    rw [start]
    rcases Follows.first_cases first rest alone known with
      ⟨name, form, later, rfl, spells, decoded, known⟩ | ⟨missing, known⟩
    · obtain ⟨front, back, rfl⟩ :=
        List.append_of_mem (order.symm.subset (List.mem_append_left _ List.mem_cons_self))
      have order : (front ++ back).Perm (later ++ others) :=
        (List.perm_middle.symm.trans order).cons_inv
      have read := ih nodup known unknown_rest order
      rw [List.map_append] at read
      rw [List.map_append, List.map_cons, spells.readStrokes, first.key]
      refine decodeMembers_insert (fun pair listed => ?_) decoded read
      rw [← List.map_append] at listed
      obtain ⟨other, is_shown, rfl⟩ := List.mem_map.1 listed
      exact different known other (order.subset is_shown)
    · refine decodeMembers_more (fun pair listed => ?_) ?_ (ih nodup known unknown_rest order)
      · obtain ⟨other, is_shown, rfl⟩ := List.mem_map.1 listed
        exact different known other (order.subset is_shown)
      · rwa [Option.none_or]

end Members

/-! ## Records -/

theorem record_follows {members : Members σ} {values : α → σ} {ofValues : σ → α}
    {fields : List (FieldSchema Schema)} {a : α} (nodup : (fields.map (·.key)).Nodup)
    (follows : members.Follows fields (values a)) (same : ofValues (values a) = a) :
    (record members values ofValues).Follows (.record fields) a where
  written admitted := .of_perm (follows.written admitted) (.refl _)
  read form presents := by
    cases presents with
    | obj known unknown order =>
      have decoded := follows.decodeMembers nodup known unknown order
      simp only [record, Form.outline, decoded]
      exact congrArg Except.ok same

end Codec

end Dbml.Json
