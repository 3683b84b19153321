import Dbml.Proofs.Respacing.Lines
import Dbml.Proofs.Table.Items
import Mathlib.Data.Multiset.MapFold

/-!
# Settings in another order

A line of a name, a type and a list of settings declares a column that is changed by one setting
after the other. So the order of the settings does not matter, neither for the column nor for what
is noted about it. Main statement: `column_perm`.
-/

namespace Dbml

open Source

/-! ## The front of a line -/

namespace Source

variable {p l : Source} {place : Nat → Nat} {j k stop : Nat} {name type : String}

/-- A bracket that is closed in the front has the same partner in the line. -/
theorem matching_of_front (copied : Copied p l place 0 p.all) (order : p.size ≤ stop)
    {left right : Mark} (closes : p.matching j p.size left right = some k) :
    l.matching j stop left right = some k := by
  have moved := copied.matching left right (Nat.zero_le j)
  rw [show p.all.stop = p.size from rfl, closes] at moved
  exact matchingFrom_longer (Nat.sub_le_sub_right order j) moved

/-- A bracket closes the token in front of it in the line where it does so in the front, unless it
is the first token behind the front. -/
theorem closes_next_of_front (copied : Copied p l place 0 p.all) (order : p.size ≤ stop)
    (apart : l.isMark p.size .closeBracket = false) (high : j < p.size) :
    l.isMark (j + 1) .closeBracket = true ∧ j + 1 < stop ↔
      p.isMark (j + 1) .closeBracket = true ∧ j + 1 < p.size := by
  by_cases more : j + 1 < p.size
  · have next : l.isMark (j + 1) .closeBracket = p.isMark (j + 1) .closeBracket :=
      copied.isMark _ (Nat.zero_le _) more
    rw [next]
    exact and_congr_right fun _ => iff_of_true (Nat.lt_of_lt_of_le more order) more
  · have last : j + 1 = p.size := by omega
    rw [last, apart]
    simp

/-- A type that ends before the end of the front ends there as well when more tokens follow the
front, unless they close a bracket that is its last token. -/
theorem typeEnd_of_front (copied : Copied p l place 0 p.all) (order : p.size ≤ stop)
    (apart : l.isMark p.size .closeBracket = false) (low : 0 < j)
    (found : p.typeEnd j p.size = k) (inside : k < p.size) : l.typeEnd j stop = k := by
  induction size : p.size - j using Nat.strongRecOn generalizing j with
  | ind n ih =>
  have high : j < p.size := by
    have := @typeEnd_ge p j p.size
    omega
  have adjacent : l.isAdjacent j = p.isAdjacent j := copied.adjacent j low high
  have mark (mark : Mark) : l.isMark j mark = p.isMark j mark :=
    copied.isMark mark (Nat.zero_le j) high
  have pair := closes_next_of_front copied order apart high
  rw [typeEnd] at found ⊢
  by_cases near : p.isAdjacent j = true
  · rw [if_pos ⟨high, near⟩] at found
    rw [if_pos ⟨by omega, adjacent.trans near⟩]
    by_cases paren : p.isMark j .openParen = true
    · rw [if_pos paren] at found
      rw [if_pos ((mark _).trans paren)]
      split at found
      next close closes =>
        have bounds := matching_bounds closes
        have partner := matching_of_front copied order closes
        split
        next close' closes' =>
          cases partner.symm.trans closes'
          exact ih _ (by omega) (by omega) found rfl
        next none =>
          rw [partner] at none
          cases none
      · omega
    · rw [if_neg paren] at found
      rw [if_neg (fun here => paren ((mark _).symm.trans here))]
      by_cases bracket : p.isMark j .openBracket = true
      · rw [if_pos bracket] at found
        rw [if_pos ((mark _).trans bracket)]
        by_cases closed : p.isMark (j + 1) .closeBracket = true ∧ j + 1 < p.size
        · rw [if_pos closed] at found
          rw [if_pos (pair.2 closed)]
          exact ih _ (by omega) (by omega) found rfl
        · rw [if_neg closed] at found
          rw [if_neg (mt pair.1 closed)]
          exact found
      · rw [if_neg bracket] at found
        rw [if_neg (fun here => bracket ((mark _).symm.trans here))]
        exact ih _ (by omega) (by omega) found rfl
  · rw [if_neg (fun both => near both.2)] at found
    rw [if_neg (fun both => near (adjacent.symm.trans both.2))]
    exact found

theorem columnType?_of_front (copied : Copied p l place 0 p.all) (order : p.size ≤ stop)
    (apart : l.isMark p.size .closeBracket = false)
    (found : p.columnType? j p.size = some (type, k)) (inside : k < p.size) :
    l.columnType? j stop = some (type, k) := by
  have high : j < p.size := Nat.lt_trans (columnType?_gt found) inside
  have token : l.token? j = p.token? j := copied.token j (Nat.zero_le j) high
  have behind (ends : p.typeEnd (j + 1) p.size = k) :
      l.typeEnd (j + 1) stop = p.typeEnd (j + 1) p.size ∧
        l.text ⟨j, p.typeEnd (j + 1) p.size⟩ = p.text ⟨j, p.typeEnd (j + 1) p.size⟩ := by
    rw [ends]
    constructor
    · exact typeEnd_of_front copied order apart (Nat.succ_pos j) ends inside
    · exact copied.text ⟨j, k⟩ (Nat.zero_le j) (Nat.le_of_lt inside)
  unfold columnType? at found ⊢
  rw [if_pos high] at found
  rw [if_pos (Nat.lt_of_lt_of_le high order), token]
  split at found
  · exact found
  · obtain ⟨-, ends⟩ := Prod.mk.inj (Option.some.inj found)
    obtain ⟨same, text⟩ := behind ends
    simp only [same, text]
    exact found
  · obtain ⟨-, ends⟩ := Prod.mk.inj (Option.some.inj found)
    obtain ⟨same, text⟩ := behind ends
    simp only [same, text]
    exact found
  · cases found

/-- The name and the type of a front are those of a line that begins with it. -/
theorem columnHead?_of_front (copied : Copied p l place 0 p.all) (order : p.size ≤ l.size)
    (apart : l.isMark p.size .closeBracket = false)
    (head : p.columnHead? p.all = some (name, type, k)) (inside : k < p.size) :
    l.columnHead? l.all = some (name, type, k) := by
  unfold columnHead? at head ⊢
  obtain ⟨word, named, head⟩ := Option.bind_eq_some_iff.1 head
  obtain ⟨⟨kind, behind⟩, typed, same⟩ := Option.bind_eq_some_iff.1 head
  cases same
  have first : l.token? 0 = p.token? 0 :=
    copied.token 0 (Nat.zero_le 0) (Nat.zero_lt_of_lt inside)
  have second := columnType?_of_front copied order apart typed inside
  refine Option.bind_eq_some_iff.2 ⟨name, ?_, ?_⟩
  · exact (congrArg (Option.bind · Token.name?) first).trans named
  · exact Option.bind_eq_some_iff.2 ⟨(type, k), second, rfl⟩

/-- A line has a name and a type if it begins with a front that has them. -/
theorem columnHead?_isSome (copied : Copied p l place 0 p.all) (order : p.size ≤ l.size)
    (head : p.columnHead? p.all = some (name, type, k)) :
    (l.columnHead? l.all).isSome = true := by
  unfold columnHead? at head ⊢
  obtain ⟨word, named, head⟩ := Option.bind_eq_some_iff.1 head
  obtain ⟨found, typed, -⟩ := Option.bind_eq_some_iff.1 head
  change p.columnType? 1 p.size = some found at typed
  unfold columnType? at typed
  obtain ⟨high, typed⟩ := Option.ite_none_right_eq_some.1 typed
  have first : l.token? 0 = p.token? 0 :=
    copied.token 0 (Nat.zero_le 0) (Nat.zero_lt_of_lt high)
  have next : l.token? 1 = p.token? 1 := copied.token 1 (Nat.zero_le 1) high
  have second : (l.columnType? 1 l.size).isSome = true := by
    unfold columnType?
    rw [if_pos (Nat.lt_of_lt_of_le high order), next]
    split at typed
    · rfl
    · rfl
    · rfl
    · cases typed
  obtain ⟨found', typed'⟩ := Option.isSome_iff_exists.1 second
  refine Option.isSome_iff_exists.2 ⟨(word, found'), Option.bind_eq_some_iff.2 ⟨word, ?_, ?_⟩⟩
  · exact (congrArg (Option.bind · Token.name?) first).trans named
  · exact Option.bind_eq_some_iff.2 ⟨found', typed', rfl⟩

end Source

/-! ## Lines -/

namespace Noted

variable {α : Type} {place : Nat → Nat} {x y : Noted α}

/-- The same causes are noted at other tokens. -/
theorem Moves.told (moves : Moves place (· = ·) x y) : y.told = x.told := by
  obtain ⟨value, findings⟩ := moves
  rw [Noted.told, Noted.told, value, findings, List.map_map]
  rfl

/-- From the same causes come the same reasons. -/
theorem reasons_of_told (s s' : Source) (same : x.told = y.told) :
    ((x.findings.map fun finding => (s.diagnose finding).reason : List String) :
      Multiset String) = (y.findings.map fun finding => (s'.diagnose finding).reason) := by
  have causes : ((x.findings.map (·.cause) : List Cause) : Multiset Cause) =
      (y.findings.map (·.cause) : List Cause) := congrArg Prod.snd same
  have messages := congrArg (Multiset.map Cause.message) causes
  rw [Multiset.map_coe, Multiset.map_coe, List.map_map, List.map_map] at messages
  exact messages

end Noted

namespace Source

/-- A line is read as it is by itself wherever it stands. -/
theorem Embedded.told_column? {l s : Source} {before : List Char} {d : Nat}
    (embedded : Embedded l s before d) (some_token : 0 < l.size) (table : String) :
    (s.column? table (l.all.shift d)).told = (l.column? table l.all).told :=
  (embedded.copied.column? some_token table).told

end Source

namespace Piece

variable {front : Piece} {opened : Source} {name type : String} {items items' : List Piece}

/-- Items have a token. -/
theorem tokens_ne_nil (each : ∀ item ∈ items, item.IsItem) (nonempty : items ≠ []) :
    Listed.tokens items ≠ [] := by
  obtain ⟨item, rest, rfl⟩ := List.exists_cons_of_ne_nil nonempty
  have some_token : item.tokens ≠ [] := by
    rw [← List.length_pos_iff, item.tokens_length]
    exact (each item List.mem_cons_self).nonempty
  by_cases last : rest = []
  · rw [last]
    simpa [Listed.tokens] using some_token
  · rw [Listed.tokens_cons item last]
    exact List.append_ne_nil_of_left_ne_nil some_token _

/-- What the settings of a line do to its column. -/
theorem exists_told (readOpened : ofString (front.text ++ "[") = .ok opened)
    (head : opened.columnHead? opened.all = some (name, type, front.source.size))
    (each : ∀ item ∈ items, item.IsItem) (nonempty : items ≠ []) :
    ∃ l, ofString (front.line items) = .ok l ∧ 0 < l.size ∧ ∀ table,
      (l.column? table l.all).told =
        let changed := ColumnChange.run table { column := { name, type } } (items.map change)
        (some changed.1, changed.2) := by
  obtain ⟨l, stop, read, embedded, listed, size⟩ := exists_line readOpened nonempty
  obtain ⟨-, tokens⟩ := opened_spec readOpened
  have count : opened.size = front.source.size + 1 := by
    rw [Source.size, ← Array.length_toList, tokens, List.length_append, Array.length_toList]
    rfl
  obtain ⟨reads, behind⟩ := listed.reads
  have balanced := Listed.balanced each
  have opens : l.token? front.source.size = some (.mark .openBracket) := by
    have here := embedded.copied.token front.source.size (Nat.zero_le _)
      (show front.source.size < opened.size by omega)
    have bracket : opened.token? front.source.lexemes.toList.length = some (.mark .openBracket) :=
      token?_of_lexemes tokens
    exact here.trans bracket
  have apart : l.isMark opened.size .closeBracket = false := by
    rw [count]
    exact not_isMark_of_balanced (by decide) reads balanced (tokens_ne_nil each nonempty)
  have headed : l.columnHead? l.all = some (name, type, front.source.size) :=
    columnHead?_of_front embedded.copied (by omega) apart head (by omega)
  have reads' : l.Reads front.source.size ([] ++ [.mark .openBracket]) := ⟨opens, trivial⟩
  have first : l.find? ⟨front.source.size, l.size⟩ (·.isMark .openBracket) =
      some front.source.size :=
    find?_eq_some reads' (by simp) (by simp) (by simp; omega)
  have closes : l.matching front.source.size l.size .openBracket .closeBracket = some stop := by
    have found := matching_eq_some (by decide) (reads_cons.2 ⟨opens, reads⟩) balanced
      (show front.source.size + (Listed.tokens items).length + 1 < l.size by omega)
    rw [found, behind]
    congr 1
    omega
  refine ⟨l, read, by omega, fun table => ?_⟩
  have settings : l.columnSettings name ⟨front.source.size, l.all.stop⟩ =
      pure (l.settings ⟨front.source.size + 1, stop⟩) := by
    show l.columnSettings name ⟨front.source.size, l.size⟩ = _
    rw [columnSettings, first]
    dsimp only
    rw [closes]
  rw [column?, headed]
  dsimp only
  have folded := foldlM_applyColumnSetting l table { column := { name, type } }
    (l.settings ⟨front.source.size + 1, stop⟩)
  rw [listed.changes each] at folded
  rw [settings, pure_bind, Noted.told_bind, folded]
  have value := congrArg (fun told : DeclaredColumn × Multiset Cause => some told.1) folded
  exact Prod.ext value (Multiset.add_zero _)

/-- No two changes give the same part a value if no two settings have the same key of one. -/
theorem countP_change_le
    (single : ∀ key ∈ ["default", "note", "ref"], items.countP (·.setting.key? = some key) ≤ 1)
    (key : String) : (items.map change).countP (·.key? = some key) ≤ 1 := by
  rw [List.countP_map]
  by_cases known : key ∈ ["default", "note", "ref"]
  · refine Nat.le_trans (List.countP_mono_left fun item _ given => ?_) (single key known)
    have given' : item.change.key? = some key := by simpa using given
    simpa using Source.key?_of_columnChange given'
  · have none : items.countP ((fun x => decide (x.key? = some key)) ∘ change) = 0 := by
      refine List.countP_eq_zero.2 fun item _ given => known ?_
      have given' : item.change.key? = some key := by simpa using given
      exact ColumnChange.key?_mem given'
    rw [none]
    exact Nat.zero_le 1

/-- A line without settings declares a column. -/
theorem exists_declared_nil (readOpened : ofString (front.text ++ "[") = .ok opened)
    (head : opened.columnHead? opened.all = some (name, type, front.source.size)) :
    ∃ l, ofString (front.line []) = .ok l ∧ 0 < l.size ∧ ∀ table,
      ∃ declared, (l.column? table l.all).value = some declared := by
  obtain ⟨l, read, embedded⟩ := exists_line_nil readOpened
  have order := embedded.size_le
  obtain ⟨found, headed⟩ :=
    Option.isSome_iff_exists.1 (columnHead?_isSome embedded.copied order head)
  have some_token : 0 < opened.size := by
    obtain ⟨-, tokens⟩ := opened_spec readOpened
    rw [Source.size, ← Array.length_toList, tokens]
    simp
  refine ⟨l, read, by omega, fun table => ?_⟩
  rw [column?, headed]
  exact ⟨_, rfl⟩

/-- A line of a name, a type and settings declares the same column with the same relationship
whatever the order of its settings, wherever it stands, and diagnostics with the same reasons come
of it, if no two settings have the key of a default value, of a note or of a reference. -/
theorem column_perm (readOpened : ofString (front.text ++ "[") = .ok opened)
    (head : opened.columnHead? opened.all = some (name, type, front.source.size))
    (each : ∀ item ∈ items, item.IsItem)
    (single : ∀ key ∈ ["default", "note", "ref"], items.countP (·.setting.key? = some key) ≤ 1)
    (perm : items.Perm items') :
    ∃ l l', ofString (front.line items) = .ok l ∧ ofString (front.line items') = .ok l' ∧
      ∀ s s' before before' d d' table, Embedded l s before d → Embedded l' s' before' d' →
        ∃ declared, (s.column? table (l.all.shift d)).value = some declared ∧
          (s'.column? table (l'.all.shift d')).value = some declared ∧
          ((s.column? table (l.all.shift d)).findings.map (fun f => (s.diagnose f).reason) :
            Multiset String) =
          (s'.column? table (l'.all.shift d')).findings.map fun f => (s'.diagnose f).reason := by
  by_cases empty : items = []
  · subst empty
    obtain rfl := perm.nil_eq
    obtain ⟨l, read, some_token, declares⟩ := exists_declared_nil readOpened head
    refine ⟨l, l, read, read, fun s s' before before' d d' table embedded embedded' => ?_⟩
    obtain ⟨declared, value⟩ := declares table
    have told := embedded.told_column? some_token table
    have told' := embedded'.told_column? some_token table
    refine ⟨declared, ?_, ?_, Noted.reasons_of_told s s' (told.trans told'.symm)⟩
    · exact (congrArg Prod.fst told).trans value
    · exact (congrArg Prod.fst told').trans value
  · have empty' : items' ≠ [] := fun same => empty (perm.trans (by rw [same])).eq_nil
    have each' : ∀ item ∈ items', item.IsItem :=
      fun item listed => each item (perm.mem_iff.2 listed)
    obtain ⟨l, read, some_token, result⟩ := exists_told readOpened head each empty
    obtain ⟨l', read', some_token', result'⟩ := exists_told readOpened head each' empty'
    refine ⟨l, l', read, read', fun s s' before before' d d' table embedded embedded' => ?_⟩
    have same (table : String) :
        ColumnChange.run table { column := { name, type } } (items.map change) =
          ColumnChange.run table { column := { name, type } } (items'.map change) :=
      ColumnChange.run_perm (perm.map change) (countP_change_le single)
    have told := (embedded.told_column? some_token table).trans (result table)
    have told' := (embedded'.told_column? some_token' table).trans (result' table)
    rw [← same] at told'
    refine ⟨_, congrArg Prod.fst told, congrArg Prod.fst told', ?_⟩
    exact Noted.reasons_of_told s s' (told.trans told'.symm)

/-- A name and a type with brackets of its own. -/
def arrayFront : Piece :=
  (ofText? "id int[] ").get (by decide +kernel)

/-- A flag, a reference, two values with commas in them, and a word that is no setting. -/
def mixedItems : List Piece :=
  ["pk", " ref: > t.c", " default: f(1, 2)", " note: 'a, b'", " nil"].filterMap ofText?

theorem column_perm_mixed :
    ∃ l l', ofString "id int[] [pk, ref: > t.c, default: f(1, 2), note: 'a, b', nil]" = .ok l ∧
      ofString "id int[] [ nil, note: 'a, b', default: f(1, 2), ref: > t.c,pk]" = .ok l' ∧
      ∃ declared, (l.column? "x" l.all).value = some declared ∧
        (l'.column? "x" l'.all).value = some declared ∧
        ((l.column? "x" l.all).findings.map (fun f => (l.diagnose f).reason) : Multiset String) =
          (l'.column? "x" l'.all).findings.map fun f => (l'.diagnose f).reason := by
  have evaluated : (ofString (arrayFront.text ++ "[")).toOption.bind
      (fun opened => opened.columnHead? opened.all) =
        some ("id", "int[]", arrayFront.source.size) := by
    decide +kernel
  obtain ⟨opened, read, head⟩ := Option.bind_eq_some_iff.1 evaluated
  have each : ∀ item ∈ mixedItems, item.IsItem := by decide +kernel
  have perm : mixedItems.Perm mixedItems.reverse := (List.reverse_perm mixedItems).symm
  obtain ⟨l, l', readLine, readLine', same⟩ :=
    column_perm (eq_ok_of_toOption read) head each (by decide +kernel) perm
  have line : arrayFront.line mixedItems =
      "id int[] [pk, ref: > t.c, default: f(1, 2), note: 'a, b', nil]" := by
    decide +kernel
  have line' : arrayFront.line mixedItems.reverse =
      "id int[] [ nil, note: 'a, b', default: f(1, 2), ref: > t.c,pk]" := by
    decide +kernel
  rw [line] at readLine
  rw [line'] at readLine'
  exact ⟨l, l', readLine, readLine', same l l' [] [] 0 0 "x" (.refl readLine) (.refl readLine')⟩

end Piece

end Dbml
