import Dbml.DeclaredTable
import Dbml.Proofs.Canonical.Writing
import Dbml.Proofs.Segment.Layout

/-!
# The segments of a canonical document

A canonical document falls into one segment for each of its items, and so do the bodies of its
groups and tables. Main statement: `scan_written`.
-/

namespace Dbml.Canonical

open Source
open Token (Written)

variable {s : Source} {limit : Option Nat} {depth i stop : Nat}

/-! ## What stands on a line -/

/-- The tokens that hold lines, blocks and lists together. -/
def structural : List Token :=
  [.newline, .mark .openBrace, .mark .closeBrace, .mark .openParen, .mark .closeParen,
    .mark .openBracket, .mark .closeBracket, .mark .comma]

theorem ne_of_structural {t mark : Token} (listed : mark ∈ structural) (plain : t ∉ structural) :
    t ≠ mark :=
  (ne_of_mem_of_not_mem listed plain).symm

theorem token_writtenNames (names : List String) :
    (writtenNames names).map (·.token) = dottedTokens names := by
  cases names with
  | nil => rfl
  | cons name rest => simp [writtenNames, dottedTokens, List.map_flatMap, lit, sign]

theorem dottedTokens_plain (names : List String) : ∀ t ∈ dottedTokens names, t ∉ structural := by
  intro t listed
  cases names with
  | nil => cases listed
  | cons name rest =>
    simp only [dottedTokens, List.mem_cons, List.mem_flatMap, List.not_mem_nil, or_false] at listed
    rcases listed with rfl | ⟨next, -, rfl | rfl⟩ <;> simp [structural]

theorem writtenNames_plain (names : List String) :
    ∀ w ∈ writtenNames names, w.token ∉ structural := by
  intro w listed
  refine dottedTokens_plain names w.token ?_
  rw [← token_writtenNames]
  exact List.mem_map_of_mem listed

theorem Setting.plain (setting : Setting) : ∀ w ∈ setting.written, w.token ∉ structural := by
  cases setting with
  | ref kind target =>
    intro w listed
    simp only [written, List.cons_append, List.nil_append, List.mem_cons] at listed
    rcases listed with rfl | rfl | rfl | listed
    · simp [word, structural]
    · simp [sign, structural]
    · cases kind <;> simp [sign, operatorMark, structural]
    · exact writtenNames_plain target.names w listed
  | _ => simp [written, word, sign, lit, structural]

theorem writtenSettings_plain (settings : List Setting) :
    ∀ w ∈ writtenSettings settings, w.token = .mark .comma ∨ w.token ∉ structural := by
  intro w listed
  cases settings with
  | nil => cases listed
  | cons setting rest =>
    simp only [writtenSettings, List.mem_append, List.mem_flatMap, List.mem_cons] at listed
    rcases listed with here | ⟨next, -, rfl | here⟩
    · exact .inr (setting.plain w here)
    · exact .inl rfl
    · exact .inr (next.plain w here)

/-- No line of a table holds a line end or a brace. -/
theorem Line.inline (line : Line) :
    ∀ w ∈ line.written,
      w.token ≠ .newline ∧ w.token ≠ .mark .openBrace ∧ w.token ≠ .mark .closeBrace := by
  cases line with
  | note text => simp [written, word, sign, lit]
  | column c =>
    intro w listed
    simp only [written, List.mem_cons] at listed
    rcases listed with rfl | rfl | listed
    · simp [lit]
    · simp [lit]
    · cases settings : c.settings with
      | nil => rw [settings] at listed; cases listed
      | cons setting rest =>
        rw [settings] at listed
        simp only [writtenBracketed, List.cons_append, List.mem_cons, List.mem_append,
          List.not_mem_nil, or_false] at listed
        rcases listed with rfl | here | rfl
        · simp [sign]
        · rcases writtenSettings_plain _ w here with comma | plain
          · simp [comma]
          · refine ⟨?_, ?_, ?_⟩
            · exact ne_of_structural (by simp [structural]) plain
            · exact ne_of_structural (by simp [structural]) plain
            · exact ne_of_structural (by simp [structural]) plain
        · simp [sign]

/-! ## Segments and what they are written for -/

def Line.In (s : Source) (line : Line) (segment : Segment) : Prop :=
  ∃ i, s.Writes i line.written ∧ segment = .line ⟨i, i + line.written.length⟩

def Table.In (s : Source) (table : Table) (segment : Segment) : Prop :=
  ∃ block children, segment = .block block children ∧ block.kind = .table ∧
    block.header = ⟨table.names, none, none⟩ ∧ s.hasEmptyBody block = false ∧
    List.Forall₂ (Line.In s) table.lines children

def Item.In (s : Source) : Item → Segment → Prop
  | .table t => t.In s
  | .group name tables => fun segment =>
    ∃ block children, segment = .block block children ∧ block.kind = .tableGroup ∧
      block.header = ⟨[name], none, none⟩ ∧ List.Forall₂ (Table.In s) tables children

/-! ## The scan -/

theorem Line.scan (line : Line) (writes : s.Writes i (line.written ++ [lineEnd]))
    (inside : i + (line.written ++ [lineEnd]).length ≤ stop) :
    ∃ segment, line.In s segment ∧ s.scanFrom limit depth i stop =
      (s.scanFrom limit depth (i + (line.written ++ [lineEnd]).length) stop).map (segment :: ·) := by
  have here := (writes_append writes).1
  have reads := reads_of_writes writes
  rw [List.map_append] at reads
  have inline : ∀ t ∈ line.written.map (·.token), t ≠ .newline ∧ t ≠ .mark .openBrace := by
    intro t listed
    obtain ⟨w, written, rfl⟩ := List.mem_map.1 listed
    exact ⟨(line.inline w written).1, (line.inline w written).2.1⟩
  refine ⟨_, ⟨i, here, rfl⟩, ?_⟩
  have step : s.scanFrom limit depth i stop = _ := scanFrom_statement reads
    (by cases line <;> simp [written]) (fun listed => (inline _ listed).1 rfl)
    (fun listed => (inline _ listed).2 rfl) ?_ (by simp at inside ⊢; omega)
  · simpa [Nat.add_assoc] using step
  · cases line with
    | note text =>
      right
      have front : s.Reads i ([.ident "Note"] ++ [.mark .colon]) :=
        ⟨reads.1, reads.2.1, trivial⟩
      have colon : s.findOutside? .openBracket .closeBracket ⟨i, i + 3⟩ (·.isMark .colon) =
          some (i + 1) :=
        findOutside?_eq_some _ _ front (by simp [Token.isMark]) (by decide) (by decide) (by decide)
          (by simp)
      rw [outsideSettings]
      simp only [written, List.map_cons, List.map_nil, List.length_cons, List.length_nil]
      rw [colon]
      rfl
    | column c =>
      left
      rw [kindAt_of_token? reads.1]
      rfl

/-- A line end between the braces is enough for a body. -/
theorem hasEmptyBody_blockAt {body : List Written} {opening closing : Nat}
    (writes : s.Writes opening
      (sign .openBrace [' '] :: lineEnd :: body ++ [sign .closeBrace, lineEnd]))
    (closingAt : closing = opening + 2 + body.length) :
    s.hasEmptyBody (s.blockAt i opening closing) = false := by
  have framed : s.Writes opening
      ((sign .openBrace [' '] :: (lineEnd :: body) ++ [sign .closeBrace]) ++ [lineEnd]) := by
    simpa using writes
  have solid : 0 < Text.byteSize (Written.chars (lineEnd :: body)) := by
    have newline : 0 < ('\n' : Char).utf8Size := by decide
    simp only [Written.chars_cons, lineEnd, List.nil_append, Text.byteSize_append,
      Text.byteSize_cons]
    omega
  obtain ⟨a, b, first, last, apart⟩ := span?_apart (writes_append framed).1 solid
  have position : opening + (lineEnd :: body).length + 1 = closing := by
    rw [List.length_cons, closingAt]
    omega
  rw [position] at last
  have differ : (a.stop == b.start) = false := by
    simp only [beq_eq_false_iff_ne]
    omega
  simp only [hasEmptyBody, blockAt, first, last, differ]

/-- A block that is written with its keyword, names and body is one segment. -/
theorem scan_block {keyword : String} {names : List String} {body : List Written}
    {kind : BlockKind} {P : List Segment → Prop}
    (keywords : BlockKind.ofToken (.ident keyword) = kind) (known : kind.isOther = false)
    (nonempty : names ≠ []) (balanced : Balanced .openBrace .closeBrace (body.map (·.token)))
    (shallow : limit.any (· < depth + 1) = false)
    (within : ∀ j, s.Writes j body → ∃ children, P children ∧
      s.scanFrom limit (depth + 1) j (j + body.length) = .ok children)
    (writes : s.Writes i (writtenBlock keyword names body))
    (inside : i + (writtenBlock keyword names body).length ≤ stop) :
    ∃ block children, block.kind = kind ∧ block.header = ⟨names, none, none⟩ ∧
      s.hasEmptyBody block = false ∧ P children ∧ s.scanFrom limit depth i stop =
        (s.scanFrom limit depth (i + (writtenBlock keyword names body).length) stop).map
          (.block block children :: ·) := by
  obtain ⟨opening, openingAt⟩ : ∃ opening, opening = i + 1 + (writtenNames names).length := ⟨_, rfl⟩
  obtain ⟨closing, closingAt⟩ : ∃ closing, closing = opening + 2 + body.length := ⟨_, rfl⟩
  have length : i + (writtenBlock keyword names body).length = closing + 2 := by
    simp [writtenBlock]
    omega
  have split : writtenBlock keyword names body = (word keyword [' '] :: writtenNames names) ++
      (sign .openBrace [' '] :: lineEnd :: body ++ [sign .closeBrace, lineEnd]) := by
    simp [writtenBlock]
  rw [split] at writes
  obtain ⟨head, framed⟩ := writes_append writes
  rw [List.length_cons, show i + ((writtenNames names).length + 1) = opening by omega] at framed
  obtain ⟨front, closes⟩ := writes_append framed
  obtain ⟨opens, inner⟩ :=
    writes_append (show s.Writes opening ([sign .openBrace [' '], lineEnd] ++ body) from front)
  have closesAt : opening + (sign .openBrace [' '] :: lineEnd :: body).length = closing := by
    simp only [List.length_cons]
    omega
  rw [closesAt] at closes
  obtain ⟨children, holds, scanned⟩ := within (opening + 2) inner
  rw [← closingAt] at scanned
  have headReads := reads_of_writes head
  have kinds : s.kindAt i = kind := by
    rw [kindAt_of_token? headReads.1]
    exact keywords
  have nameReads := headReads.2
  rw [token_writtenNames] at nameReads
  have namesAt : i + 1 + (dottedTokens names).length = opening := by
    rw [openingAt, ← token_writtenNames, List.length_map]
  refine ⟨s.blockAt i opening closing, children, kinds, ?_, hasEmptyBody_blockAt framed closingAt,
    holds, ?_⟩
  · have read := header_of_reads known nonempty nameReads
    rw [namesAt] at read
    rw [blockAt, kinds]
    exact read
  · rw [length]
    refine scanFrom_framed headReads (reads_of_writes opens) (reads_of_writes inner)
      (reads_of_writes closes) ?_ ?_ (by omega) (by simp) ?_ balanced (by rw [kinds]; exact known)
      shallow ?_
    · simp
      omega
    · simpa using closingAt
    · intro t listed
      rw [List.map_cons, token_writtenNames] at listed
      rcases List.mem_cons.1 listed with rfl | listed
      · simp [word]
      · have plain := dottedTokens_plain names t listed
        refine ⟨?_, ?_, ?_, ?_⟩
        · exact ne_of_structural (by simp [structural]) plain
        · exact ne_of_structural (by simp [structural]) plain
        · exact ne_of_structural (by simp [structural]) plain
        · exact ne_of_structural (by simp [structural]) plain
    · rw [scanFrom_newline (by omega) (reads_of_writes opens).2.1]
      exact scanned

theorem balanced_block {keyword : String} {names : List String} {body : List Written}
    (balanced : Balanced .openBrace .closeBrace (body.map (·.token))) :
    Balanced .openBrace .closeBrace ((writtenBlock keyword names body).map (·.token)) := by
  have front : Balanced .openBrace .closeBrace (.ident keyword :: dottedTokens names) := by
    refine balanced_of_others fun t listed => ?_
    rcases List.mem_cons.1 listed with rfl | listed
    · simp
    · have plain := dottedTokens_plain names t listed
      constructor
      · exact ne_of_structural (by simp [structural]) plain
      · exact ne_of_structural (by simp [structural]) plain
  have newline : Balanced .openBrace .closeBrace [Token.newline] := balanced_of_others (by simp)
  have inner := balanced_wrap (by decide) (balanced_append newline balanced)
  have whole := balanced_append (balanced_append front inner) newline
  have tokens : (writtenBlock keyword names body).map (·.token) =
      (.ident keyword :: dottedTokens names) ++
        (.mark .openBrace :: ([.newline] ++ body.map (·.token)) ++ [.mark .closeBrace]) ++
        [.newline] := by
    simp [writtenBlock, token_writtenNames, word, sign, lineEnd]
  rw [tokens]
  exact whole

theorem Table.balanced_body (table : Table) :
    Balanced .openBrace .closeBrace
      ((table.lines.flatMap fun line => line.written ++ [lineEnd]).map (·.token)) := by
  refine balanced_of_others fun t listed => ?_
  obtain ⟨w, written, rfl⟩ := List.mem_map.1 listed
  obtain ⟨line, -, here⟩ := List.mem_flatMap.1 written
  rcases List.mem_append.1 here with here | ending
  · exact (line.inline w here).2
  · rw [List.mem_singleton.1 ending]
    simp [lineEnd]

theorem Table.scan (table : Table) (shallow : limit.any (· < depth + 1) = false)
    (writes : s.Writes i table.written) (inside : i + table.written.length ≤ stop) :
    ∃ segment, table.In s segment ∧ s.scanFrom limit depth i stop =
      (s.scanFrom limit depth (i + table.written.length) stop).map (segment :: ·) := by
  have keyword : BlockKind.ofToken (.ident "Table") = .table := by decide
  obtain ⟨block, children, kind, header, body, lines, step⟩ :=
    scan_block (P := List.Forall₂ (Line.In s) table.lines) keyword rfl
      (by simp [names]) table.balanced_body shallow
      (fun j inner => scanFrom_flatMap inner (fun line _ k here bound => line.scan here bound) rfl)
      writes inside
  exact ⟨.block block children, ⟨block, children, rfl, kind, header, body, lines⟩, step⟩

theorem Item.scan (item : Item) (shallow : limit.any (· < depth + 2) = false)
    (writes : s.Writes i item.written) (inside : i + item.written.length ≤ stop) :
    ∃ segment, item.In s segment ∧ s.scanFrom limit depth i stop =
      (s.scanFrom limit depth (i + item.written.length) stop).map (segment :: ·) := by
  have upper : limit.any (· < depth + 1) = false := by
    cases limit with
    | none => rfl
    | some most => simp at shallow ⊢; omega
  cases item with
  | table t => exact t.scan upper writes inside
  | group name tables =>
    have balanced : Balanced .openBrace .closeBrace
        ((tables.flatMap Table.written).map (·.token)) := by
      rw [List.map_flatMap]
      exact balanced_flatMap fun t _ => balanced_block t.balanced_body
    have keyword : BlockKind.ofToken (.ident "TableGroup") = .tableGroup := by decide
    obtain ⟨block, children, kind, header, -, members, step⟩ :=
      scan_block (P := List.Forall₂ (Table.In s) tables) keyword rfl
        (by simp) balanced upper
        (fun j inner => scanFrom_flatMap inner (fun t _ k here bound => t.scan shallow here bound) rfl)
        writes inside
    exact ⟨.block block children, ⟨block, children, rfl, kind, header, members⟩, step⟩

/-- A canonical document has one segment for each item. -/
theorem scan_written (items : List Item) :
    ∃ segments, (ofWritten (written items)).scan = .ok segments ∧
      List.Forall₂ (Item.In (ofWritten (written items))) items segments := by
  have shallow : (some depthLimit).any (· < 0 + 2) = false := by decide
  obtain ⟨segments, related, scanned⟩ :=
    scanFrom_flatMap (writes_ofWritten (written items))
      (fun item _ j here bound => item.scan shallow here bound) rfl
  refine ⟨segments, scan_eq_ok.2 ?_, related⟩
  rw [scanWithin, size_ofWritten]
  simpa [written] using scanned

end Dbml.Canonical
