import Dbml.Proofs.Joining.Headings
import Dbml.Proofs.Respacing.Document
import Dbml.Proofs.Segment.Layout
import Dbml.Proofs.Segment.Unclosed
import Dbml.Proofs.Statement.Found

/-!
# The two forms of a reference

A reference may be written on one line behind its name and a colon, or on a line of a block with
that name. The first is recognised as a statement, the second is scanned as a block with a header
and a body. Main statement: `Reference.forms_agree`, both make the same database, and what is noted
about them has the same reasons.
-/

namespace Dbml

open Reference (headingTokens)
open Token (Names SpellsName)

/-- The database with the relationship, if there is one, and nothing else. -/
def Database.ofRelationship (relationship : Option Relationship) : Database :=
  { tables := [], relationships := relationship.toList, tableGroups := [], project := none }

theorem Database.length_ofRelationship (relationship : Option Relationship) :
    (ofRelationship relationship).relationships.length ≤ 1 := by
  cases relationship with
  | none => exact Nat.zero_le 1
  | some _ => exact Nat.le_refl 1

namespace Source

variable {s t : Source} {limit : Option Nat} {depth i k stop : Nat} {ts : List Token}
  {token : Token} {named : Option Token} {name : Option String}

/-! ## Scanning one line -/

/-- A line without braces that has nothing but line ends behind it is the only segment. -/
theorem scanFrom_onlyLine (reads : s.Reads i ts) (solid : ts ≠ []) (inline : .newline ∉ ts)
    (noBrace : .mark .openBrace ∉ ts) (behind : s.Newlines (i + ts.length) stop)
    (bound : i + ts.length ≤ stop) :
    s.scanFrom limit depth i stop = .ok [.line ⟨i, i + ts.length⟩] := by
  have ends : s.lineEnd i stop = i + ts.length := by
    rcases Nat.lt_or_eq_of_le bound with before | rfl
    · have newline := behind _ (Nat.le_refl _) before
      exact lineEnd_eq (reads_append.2 ⟨reads, newline, trivial⟩) inline before
    · have none : s.find? ⟨i, i + ts.length⟩ (· == .newline) = none :=
        find?_eq_none reads fun t listed => by simpa using ne_of_mem_of_not_mem listed inline
      rw [lineEnd, none]
      rfl
  have inside : i < i + ts.length := by
    have size := List.length_pos_iff.2 solid
    omega
  have opens : s.openingBrace ⟨i, s.lineEnd i stop⟩ stop = none := by
    cases found : s.openingBrace ⟨i, s.lineEnd i stop⟩ stop with
    | none => rfl
    | some opening =>
      have brace := isMark_iff_token?.1 (openingBrace_isMark found)
      have low : i ≤ opening := openingBrace_ge (by rw [ends]; exact Nat.le_of_lt inside) found
      have high := openingBrace_lt found lineEnd_le
      by_cases first : opening < i + ts.length
      · exact absurd (mem_of_reads reads low first brace) noBrace
      · rw [behind opening (Nat.not_lt.1 first) high] at brace
        cases brace
  rw [scanFrom_line (by omega) (not_holds_newline reads solid inline) opens, ends,
    scanFrom_newlines behind bound (Nat.le_refl stop), scanFrom_end (Nat.lt_irrefl stop)]
  rfl

/-- A line without braces on its own, between two line ends. -/
theorem scanFrom_ownLine (first : s.token? i = some .newline) (reads : s.Reads (i + 1) ts)
    (last : s.token? (i + 1 + ts.length) = some .newline) (solid : ts ≠ [])
    (inline : .newline ∉ ts) (noBrace : .mark .openBrace ∉ ts) :
    s.scanFrom limit depth i (i + 1 + ts.length + 1) = .ok [.line ⟨i + 1, i + 1 + ts.length⟩] := by
  have behind : s.Newlines (i + 1 + ts.length) (i + 1 + ts.length + 1) := by
    intro k low high
    rw [show k = i + 1 + ts.length by omega]
    exact last
  rw [scanFrom_newline (by omega) first]
  exact scanFrom_onlyLine reads solid inline noBrace behind (Nat.le_succ _)

/-! ## The segments of both forms -/

/-- The tokens of a text that is one line of a reference. -/
structure OneLine (t : Source) : Prop where
  nonempty : 0 < t.size
  plain : ∀ token ∈ t.tokens t.all,
    token ≠ .newline ∧ token ≠ .mark .openBrace ∧ token ≠ .mark .closeBrace

theorem length_tokens_all : (t.tokens t.all).length = t.size := by
  simp [tokens_all, size]

theorem tokens_all_ne_nil (nonempty : 0 < t.size) : t.tokens t.all ≠ [] := by
  rw [← List.length_pos_iff, length_tokens_all]
  exact nonempty

/-- All tokens of a source, where they stand behind `d` others. -/
theorem shift_all (d : Nat) : t.all.shift d = ⟨d, d + t.size⟩ := by
  simp only [TokenRange.shift, all, Nat.zero_add, Nat.add_comm t.size]

/-- A heading is made of words and quoted texts. -/
theorem headingTokens_plain (names : Names named name) :
    ∀ token ∈ headingTokens named, token ≠ .newline ∧ token ≠ .mark .openBrace ∧
      token ≠ .mark .openBracket ∧ token ≠ .mark .closeBracket := by
  intro token listed
  cases names with
  | none =>
    obtain rfl : token = .ident "Ref" := by simpa [headingTokens] using listed
    simp
  | @some first name spells =>
    have parts : token = .ident "Ref" ∨ token = first := by
      simpa [headingTokens] using listed
    rcases parts with rfl | rfl
    · simp
    · cases token with
      | ident word => simp
      | str text => simp
      | _ => cases spells

/-- On one line, the whole document is that line. -/
theorem scan_short (enclosed : Enclosed t s (headingTokens named ++ [.mark .colon]) [])
    (names : Names named name) (inline : t.OneLine) : s.scan = .ok [.line s.all] := by
  obtain ⟨-, reads, size⟩ := enclosed
  rw [List.append_nil] at reads size
  have plain : ∀ token ∈ headingTokens named ++ [Token.mark .colon] ++ t.tokens t.all,
      token ≠ .newline ∧ token ≠ .mark .openBrace := by
    intro token listed
    rw [List.mem_append, List.mem_append, List.mem_singleton] at listed
    rcases listed with (head | rfl) | behind
    · obtain ⟨noNewline, noBrace, -⟩ := headingTokens_plain names token head
      exact ⟨noNewline, noBrace⟩
    · simp
    · obtain ⟨noNewline, noBrace, -⟩ := inline.plain token behind
      exact ⟨noNewline, noBrace⟩
  generalize listed : headingTokens named ++ [Token.mark .colon] ++ t.tokens t.all = ts at *
  have solid : ts ≠ [] := by
    rw [← listed]
    simp
  have behind : s.Newlines (0 + ts.length) s.size := by
    intro k low high
    omega
  have scanned := @scanFrom_onlyLine s (some depthLimit) 0 0 s.size ts reads solid
    (fun newline => (plain _ newline).1 rfl) (fun brace => (plain _ brace).2 rfl) behind (by omega)
  rw [scan_eq_ok, scanWithin, scanned, Nat.zero_add, ← size]
  rfl

/-- The header of a block behind a heading has the name of the heading. -/
theorem name?_heading (names : Names named name) (reads : s.Reads 0 (headingTokens named)) :
    (s.header .ref ⟨1, (headingTokens named).length⟩).name? = name := by
  have known : ¬ BlockKind.ref = .other "" := by decide
  cases names with
  | none =>
    have noName : s.dottedName 1 1 = ([], 1) := by rw [dottedName]; rfl
    have length : (headingTokens none).length = 1 := rfl
    simp [length, header, known, noName, Header.name?]
  | @some token name spells =>
    have here : s.nameAt? 1 2 = some name := by
      rw [nameAt?, if_pos (by decide), show s.token? 1 = some token from reads.2.1]
      exact spells
    have named : s.dottedName 1 2 = ([name], 2) := by
      rw [dottedName, here]
      rfl
    have length : (headingTokens (some token)).length = 2 := rfl
    simp [length, header, known, named, Header.name?]

/-- In a block, the document is that block, with the line in it. -/
theorem scan_long
    (enclosed : Enclosed t s (headingTokens named ++ [.mark .openBrace, .newline])
      [.newline, .mark .closeBrace])
    (names : Names named name) (inline : t.OneLine) :
    ∃ b, s.scan = .ok [.block b [.line (t.all.shift ((headingTokens named).length + 2))]] ∧
      b.kind = .ref ∧ b.header.name? = name := by
  obtain ⟨-, reads, size⟩ := enclosed
  obtain ⟨front, behind⟩ := reads_append.1 reads
  obtain ⟨head, opens⟩ := reads_append.1 front
  rw [← List.singleton_append (l := [Token.mark .closeBrace]), ← List.append_assoc] at behind
  obtain ⟨inner, closer, -⟩ := reads_append.1 behind
  obtain ⟨line, newline, -⟩ := reads_append.1 inner
  simp only [List.length_append, List.length_cons, List.length_nil, Nat.zero_add,
    length_tokens_all] at opens inner closer line newline size
  have header := name?_heading names head
  have plain := headingTokens_plain names
  have solid : headingTokens named ≠ [] := List.cons_ne_nil _ _
  have kind : s.kindAt 0 = .ref := by
    rw [kindAt_of_token? head.1]
    decide
  generalize headingTokens named = heading at *
  have within : s.scanFrom (some depthLimit) 1 (heading.length + 1)
      (heading.length + 2 + (t.size + 1)) = .ok [.line (t.all.shift (heading.length + 2))] := by
    have own := @scanFrom_ownLine s (some depthLimit) 1 _ _ opens.2.1 line
    rw [length_tokens_all] at own
    rw [shift_all]
    exact own newline (tokens_all_ne_nil inline.nonempty)
      (fun listed => (inline.plain _ listed).1 rfl) fun listed => (inline.plain _ listed).2.1 rfl
  have balanced : Balanced .openBrace .closeBrace (t.tokens t.all ++ [.newline]) := by
    have line : Balanced .openBrace .closeBrace (t.tokens t.all) :=
      balanced_of_others fun token listed => (inline.plain token listed).2
    exact balanced_append line (balanced_of_others (by simp))
  have scanned := @scanFrom_braced s (some depthLimit) 0 0 s.size heading _ heading.length
    (heading.length + 2 + (t.size + 1)) _ head opens inner closer (Nat.zero_add _).symm
    (by simp [length_tokens_all]) (by omega) solid plain balanced (by rw [kind]; rfl) (by decide)
    within
  refine ⟨s.blockAt 0 heading.length (heading.length + 2 + (t.size + 1)), ?_, kind, ?_⟩
  · rw [scan_eq_ok, scanWithin, scanned, scanFrom_end (by omega)]
    rfl
  · rw [blockAt, kind]
    exact header

/-! ## The statement of both forms -/

/-- A line that begins with a heading and a colon states the tokens behind them. -/
theorem shortForm?_heading (names : Names named name)
    (reads : s.Reads 0 (headingTokens named ++ [.mark .colon]))
    (inside : (headingTokens named ++ [Token.mark .colon]).length ≤ stop) :
    s.shortForm? ⟨0, stop⟩ =
      some (name, ⟨(headingTokens named ++ [Token.mark .colon]).length, stop⟩) := by
  have keyword : s.isKeyword 0 "Ref" = true := by
    rw [isKeyword_of_token? reads.1]
    decide
  cases names with
  | none =>
    obtain ⟨-, colon, -⟩ := reads
    have inside : 1 < stop := inside
    have mark : s.isMark 1 .colon = true := isMark_iff_token?.2 colon
    simp [shortForm?, keyword, inside, show s.token? 1 = _ from colon, mark, Token.name?,
      headingTokens]
  | @some token name spells =>
    obtain ⟨-, here, colon, -⟩ := reads
    have inside : 2 < stop := inside
    have mark : s.isMark 2 .colon = true := isMark_iff_token?.2 colon
    have second : 1 < stop := by omega
    simp [shortForm?, keyword, inside, second, show s.token? 1 = _ from here, mark, spells,
      headingTokens]

theorem statements_short (enclosed : Enclosed t s (headingTokens named ++ [.mark .colon]) [])
    (names : Names named name) :
    s.statements [] true [.line s.all] = [.reference 0
      (t.all.shift (headingTokens named ++ [Token.mark .colon]).length) name] := by
  obtain ⟨-, reads, size⟩ := enclosed
  obtain ⟨front, -⟩ := reads_append.1 reads
  rw [List.append_nil, List.length_append, length_tokens_all] at size
  have stated : s.shortForm? s.all =
      some (name, t.all.shift (headingTokens named ++ [Token.mark .colon]).length) := by
    rw [shift_all, ← size]
    exact shortForm?_heading names front (by omega)
  simp only [statements, segmentStatements, lineStatement, stated]
  rfl

theorem statements_long {b : Block} {line : TokenRange} (kind : b.kind = .ref) :
    s.statements [] true [.block b [.line line]] =
      [.reference line.start line b.header.name?] := by
  simp only [statements, segmentStatements, kind]
  rfl

variable {segments : List Segment} {statement : Statement}

theorem ofSegments_line (line : TokenRange) :
    Assembly.ofSegments s [.line line] = pure {} := rfl

theorem ofSegments_reference {b : Block} {children : List Segment} (kind : b.kind = .ref) :
    Assembly.ofSegments s [.block b children] = pure {} := by
  simp [Assembly.ofSegments, Assembly.applyGroup, Assembly.applyBlock, kind]

theorem resolve_nil (relationship : Relationship) : relationship.resolve [] = relationship := rfl

/-- A document of one statement makes what the statement makes, and nothing else. -/
theorem assemble_of_statement (nothing : Assembly.ofSegments s segments = pure {})
    (states : s.statements [] true segments = [statement]) :
    s.assemble segments = do
      let relationship ← s.statedRelationship statement
      return .ofRelationship relationship := by
  rw [assemble, nothing, pure_bind]
  dsimp only
  rw [states]
  simp [statedRelationships, resolve_nil, Database.ofRelationship]

variable {text : String}

/-- What is read in the text by itself is read wherever it stands, but for the place. -/
theorem statedRelationship_enclosed {front back : List Token} (enclosed : Enclosed t s front back)
    (position : Nat) (name : Option String) :
    s.statedRelationship (.reference position (t.all.shift front.length) name) =
      ⟨(t.statedRelationship (.reference 0 t.all name)).value,
        (t.statedRelationship (.reference 0 t.all name)).findings.map
          fun finding => ⟨position, finding.cause⟩⟩ := by
  obtain ⟨before, embedded⟩ := enclosed.embedded
  rw [statedRelationship, embedded.copied.reference, statedRelationship]
  cases t.reference t.all name with
  | error fault => rfl
  | ok reference =>
    dsimp only
    split <;> rfl

/-- What is noted at one token keeps its order. -/
theorem sort_at (position : Nat) (findings : List Finding) :
    Diagnostic.sort ((findings.map fun finding => (⟨position, finding.cause⟩ : Finding)).map
        s.diagnose) =
      findings.map fun finding => s.diagnostic position finding.cause.message := by
  rw [List.map_map]
  refine List.mergeSort_of_pairwise (List.pairwise_of_forall_mem_list fun a first b second => ?_)
  obtain ⟨_, -, rfl⟩ := List.mem_map.1 first
  obtain ⟨_, -, rfl⟩ := List.mem_map.1 second
  exact Location.isAtMost_self

/-- A text whose only statement is the enclosed one is parsed to what that one says. -/
theorem parse_enclosed {front back : List Token} {position : Nat} (read : ofString text = .ok s)
    (scanned : s.scan = .ok segments) (enclosed : Enclosed t s front back)
    (nothing : Assembly.ofSegments s segments = pure {})
    (states : s.statements [] true segments =
      [.reference position (t.all.shift front.length) name]) :
    ∃ diagnostics, parse text =
        .ok (.ofRelationship (t.statedRelationship (.reference 0 t.all name)).value) ∧
      parseReport text false =
        .ok ⟨.ofRelationship (t.statedRelationship (.reference 0 t.all name)).value, diagnostics⟩ ∧
      diagnostics.map (·.reason) =
        (t.statedRelationship (.reference 0 t.all name)).findings.map (·.cause.message) := by
  have assembled := assemble_of_statement nothing states
  rw [statedRelationship_enclosed enclosed] at assembled
  have value : (s.assemble segments).value =
      .ofRelationship (t.statedRelationship (.reference 0 t.all name)).value := by
    rw [assembled]
    rfl
  have findings : (s.assemble segments).findings =
      (t.statedRelationship (.reference 0 t.all name)).findings.map
        fun finding => ⟨position, finding.cause⟩ := by
    rw [assembled, Noted.bind_findings, Noted.pure_findings, List.append_nil]
  have report := parseReport_false read scanned
  rw [value, findings, sort_at] at report
  refine ⟨_, ?_, report, ?_⟩
  · rw [parse_eq_map, report]
    rfl
  · rw [List.map_map]
    rfl

end Source

namespace Reference

variable {t : Source} {text : String} {literal name : Option String}

/-- A reference on one line and the same reference in a block make the same database, with at most
one relationship, for the same reasons. -/
theorem forms_agree (read : Source.ofString text = .ok t) (nonempty : 0 < t.size)
    (inline : ∀ token ∈ t.tokens t.all, token ≠ .newline ∧ token ≠ .mark .openBrace ∧
      token ≠ .mark .closeBrace)
    (closed : ¬ t.EndsInComment) (spelled : Option.Rel SpellsName literal name) :
    ∃ database short long,
      parse (shortForm literal text) = .ok database ∧
      parse (longForm literal text) = .ok database ∧
      parseReport (shortForm literal text) false = .ok ⟨database, short⟩ ∧
      parseReport (longForm literal text) false = .ok ⟨database, long⟩ ∧
      short.map (·.reason) = long.map (·.reason) ∧
      database = .ofRelationship ((t.reference t.all name).toOption.map (·.relationship)) ∧
      database.relationships.length ≤ 1 := by
  obtain ⟨s, named, readShort, names, enclosed⟩ := Source.short_ofString read spelled
  obtain ⟨s', named', readLong, names', enclosed'⟩ := Source.long_ofString read closed spelled
  have shape : t.OneLine := ⟨nonempty, inline⟩
  have scanned := Source.scan_short enclosed names shape
  obtain ⟨b, scanned', kind, header⟩ := Source.scan_long enclosed' names' shape
  have states := Source.statements_short enclosed names
  have states' : s'.statements [] true
      [.block b [.line (t.all.shift ((headingTokens named').length + 2))]] = _ :=
    Source.statements_long kind
  rw [header] at states'
  obtain ⟨short, parsed, report, reasons⟩ :=
    Source.parse_enclosed readShort scanned enclosed (Source.ofSegments_line s.all) states
  obtain ⟨long, parsed', report', reasons'⟩ :=
    Source.parse_enclosed readLong scanned' enclosed' (Source.ofSegments_reference kind)
      (by simpa using states')
  rw [Source.statedRelationship_value] at parsed parsed' report report'
  exact ⟨_, short, long, parsed, parsed', report, report', reasons.trans reasons'.symm, rfl,
    Database.length_ofRelationship _⟩

/-- A reference with an action and a comment behind it. -/
def actionText : String :=
  "posts.author > users.id [delete: cascade] // not their comments"

theorem forms_agree_actionText :
    ∃ t database short long, Source.ofString actionText = .ok t ∧ 0 < t.size ∧
      (∀ token ∈ t.tokens t.all, token ≠ .newline ∧ token ≠ .mark .openBrace ∧
        token ≠ .mark .closeBrace) ∧
      ¬ t.EndsInComment ∧ SpellsName "'written by'" "written by" ∧
      parse (shortForm (some "'written by'") actionText) = .ok database ∧
      parse (longForm (some "'written by'") actionText) = .ok database ∧
      parseReport (shortForm (some "'written by'") actionText) false = .ok ⟨database, short⟩ ∧
      parseReport (longForm (some "'written by'") actionText) false = .ok ⟨database, long⟩ ∧
      short.map (·.reason) = long.map (·.reason) ∧
      database = .ofRelationship (some ⟨"posts", "author", "users", "id", .manyToOne,
        some "written by", some "cascade", none⟩) := by
  have evaluated : (Source.ofString actionText).toOption.map (fun t =>
      (decide (0 < t.size), (t.tokens t.all).all (fun token =>
        decide (token ≠ .newline ∧ token ≠ .mark .openBrace ∧ token ≠ .mark .closeBrace)),
        Token.behindLast 0 t.lexemes.toList t.chars,
        (t.reference t.all (some "written by")).toOption.map (·.relationship))) =
      some (true, true, " // not their comments".toList, some ⟨"posts", "author", "users", "id",
        .manyToOne, some "written by", some "cascade", none⟩) := by
    decide +kernel
  obtain ⟨t, read, same⟩ := Option.map_eq_some_iff.1 evaluated
  simp only [Prod.mk.injEq, decide_eq_true_eq, List.all_eq_true] at same
  obtain ⟨nonempty, inline, last, made⟩ := same
  have read := eq_ok_of_toOption read
  have closed : ¬ t.EndsInComment := by
    rintro ⟨gap, body, parts, -, -⟩
    have star : '*' ∈ " // not their comments".toList := by rw [← last, parts]; simp
    exact absurd star (by decide)
  have spelled : SpellsName "'written by'" "written by" :=
    ⟨.str "written by", by decide +kernel, rfl⟩
  obtain ⟨database, short, long, parsed, parsed', report, report', reasons, same, -⟩ :=
    forms_agree read nonempty inline closed (.some spelled)
  rw [made] at same
  exact ⟨t, database, short, long, read, nonempty, inline, closed, spelled, parsed, parsed', report,
    report', reasons, same⟩

end Reference

end Dbml
