/-
# Texts one below the other

A line feed ends whatever is being read, just as the end of the text does: no lexeme goes on
behind it, and what is read in front of it does not depend on what follows.  So a text that
stands on top of another one keeps its lexemes, and so does the other one, some lines further
down.  A text is read line by line, and two programs, one below the other, make a program.

* `Position.down`, `Lexeme.down`, `Located.down` : the same, some lines further down;
* `scan_append_feed` : a scan stops at a line feed as it does at the end of the text, with one
  lemma for each kind of scan;
* `Cursor.exists_lexemes_append_feed` : the lexemes of a text with another one below it;
* `Cursor.lexemes_down` : a text is read alike wherever it starts;
* `innerLexemes_lines` : the lexemes of a text are those of its lines;
* `lexemes_line_by_line` : all this together, for two texts and for the lines of one;
* `Spells.append`, `Spells.down` : programs that are spelt one after the other;
* `parse_append_feed` : programs compose.
-/
import QueryPipeline.Proofs.Findings
import QueryPipeline.Proofs.Grammar
import QueryPipeline.Proofs.Partition

namespace QueryPipeline

/-! ## Further down -/

/-- The position in the same column, some lines further down. -/
def Position.down (lines : Nat) (p : Position) : Position :=
  ⟨p.line + lines, p.column⟩

/-- The lexeme some lines further down: it starts there, and its error is about a place there. -/
def Lexeme.down (lines : Nat) (l : Lexeme) : Lexeme :=
  ⟨l.result.mapError fun e => ⟨e.cause, e.position.down lines⟩, l.start.down lines⟩

/-- The same item, some lines further down. -/
def Located.down {α : Type} (lines : Nat) (x : Located α) : Located α :=
  ⟨x.line + lines, x.item⟩

namespace Position

theorem step_down (lines : Nat) (p : Position) (c : Char) :
    (p.down lines).step c = (p.step c).down lines := by
  unfold step
  split
  · show Position.mk (p.line + lines + 1) 0 = ⟨p.line + 1 + lines, 0⟩
    rw [Nat.add_right_comm]
  · rfl

/-- Positions advance alike wherever they start. -/
theorem advance_down (lines : Nat) (p : Position) (cs : List Char) :
    (p.down lines).advance cs = (p.advance cs).down lines := by
  induction cs generalizing p with
  | nil => rfl
  | cons c cs ih =>
    show ((p.down lines).step c).advance cs = ((p.step c).advance cs).down lines
    rw [step_down, ih]

/-- Behind a text and a line feed a line starts. -/
theorem advance_append_feed (cs : List Char) :
    first.advance (cs ++ ['\n']) = first.down (1 + cs.count '\n') := by
  have hline := line_advance first cs
  rw [advance_concat]
  show Position.mk ((first.advance cs).line + 1) 0 = ⟨first.line + (1 + cs.count '\n'), 0⟩
  rw [hline, Nat.add_assoc, Nat.add_comm (cs.count '\n')]

end Position

theorem LexicalCause.locate_down (cause : LexicalCause) (lines : Nat) (start : Position)
    (taken : List Char) :
    cause.locate (start.down lines) taken = (cause.locate start taken).down lines := by
  cases cause with
  | missingFieldName => exact Position.advance_down lines start taken.dropLast
  | unexpectedChar c => rfl
  | unterminatedString => rfl

theorem Scan.lexeme_down (s : Scan) (lines : Nat) (start : Position) :
    s.lexeme (start.down lines) = (s.lexeme start).down lines := by
  obtain ⟨result, taken, rest⟩ := s
  cases result with
  | ok t => rfl
  | error cause =>
    show Lexeme.mk (.error ⟨cause, cause.locate (start.down lines) taken⟩) _ = _
    rw [LexicalCause.locate_down]
    rfl

/-- **A text is read alike wherever it starts**, only further down. -/
theorem Cursor.lexemes_down (lines : Nat) (c : Cursor) :
    (Cursor.mk c.rest (c.position.down lines)).lexemes = c.lexemes.map (Lexeme.down lines) := by
  refine lexemes_induction_at (motive := fun c lexemes =>
    (Cursor.mk c.rest (c.position.down lines)).lexemes = lexemes.map (Lexeme.down lines)) ?_ ?_ c
  · intro cs p hblank
    rw [lexemes_blank hblank, Position.advance_down]
    rfl
  · intro gap c cs p lexemes hgap hc ih
    rw [lexemes_scan hgap hc, Position.advance_down, Position.advance_down, Scan.lexeme_down, ih]
    rfl

/-! ## Scanning in front of a line feed -/

/-- A run of characters of a class ends in front of a character that is not of the class, whatever
stands behind that one. -/
theorem Text.span_append_cons {p : Char → Bool} {d : Char} (hd : p d = false) (cs ds : List Char) :
    (cs ++ d :: ds).takeWhile p = cs.takeWhile p ∧
      (cs ++ d :: ds).dropWhile p = cs.dropWhile p ++ d :: ds := by
  induction cs with
  | nil => simp [hd]
  | cons c cs ih =>
    by_cases hc : p c
    · simp [hc, ih]
    · simp [hc]

namespace Scan

/-- The scan with more characters behind those that it leaves. -/
def followedBy (s : Scan) (more : List Char) : Scan :=
  ⟨s.result, s.taken, s.rest ++ more⟩

theorem operator_append_feed (c : Char) (cs : List Char) (alone : Except LexicalCause Token)
    (extended : Comparison) (more : List Char) :
    operator c (cs ++ '\n' :: more) alone extended =
      (operator c cs alone extended).followedBy ('\n' :: more) := by
  cases cs with
  | nil => rfl
  | cons d cs =>
    by_cases hd : d = '='
    · subst hd
      rfl
    · simp [operator, single, followedBy, hd]

/-- A string literal does not go on in the next line: it is closed before, or it is not closed. -/
theorem string_append_feed (cs more : List Char) :
    string (cs ++ '\n' :: more) = (string cs).followedBy ('\n' :: more) := by
  have hfeed : ('\n' != '"' && '\n' != '\n') = false := by decide
  obtain ⟨htake, hdrop⟩ := Text.span_append_cons (p := fun c => c != '"' && c != '\n') hfeed cs more
  rw [string, htake, hdrop, string]
  cases hrest : cs.dropWhile fun c => c != '"' && c != '\n' with
  | nil => simp [followedBy]
  | cons c rest =>
    by_cases hc : c = '"'
    · subst hc
      simp [followedBy]
    · simp [followedBy, hc]

/-- A dot in front of a line feed lacks its field name, as a dot at the end does. -/
theorem fields_append_feed (afterDot : Bool) (cs more : List Char) :
    fields afterDot (cs ++ '\n' :: more) =
      ((fields afterDot cs).1, (fields afterDot cs).2.1 ++ '\n' :: more,
        (fields afterDot cs).2.2) := by
  induction cs generalizing afterDot with
  | nil => cases afterDot <;> rfl
  | cons c cs ih =>
    rw [List.cons_append, fields, fields]
    split
    · split
      · rw [ih]
      · rfl
    · split
      · rw [ih]
      · rfl

theorem path_append_feed (cs more : List Char) :
    path (cs ++ '\n' :: more) = (path cs).followedBy ('\n' :: more) := by
  rw [path, fields_append_feed, path]
  dsimp only
  split
  · rfl
  · rfl

/-- A point in front of a line feed belongs to no number, as a point at the end does not. -/
theorem digits_append_feed (cs more : List Char) :
    digits (cs ++ '\n' :: more) = ((digits cs).1, (digits cs).2 ++ '\n' :: more) := by
  have hfeed : Char.isDigit '\n' = false := by decide
  obtain ⟨htake, hdrop⟩ := Text.span_append_cons hfeed cs more
  rw [digits, htake, hdrop, digits]
  cases hrest : cs.dropWhile Char.isDigit with
  | nil => simp
  | cons c rest =>
    by_cases hc : c = '.'
    · subst hc
      -- The point is taken only with a digit behind it, which a line feed is not.
      cases rest with
      | nil => simp [hfeed]
      | cons d rest =>
        by_cases hd : d.isDigit
        · obtain ⟨htake', hdrop'⟩ := Text.span_append_cons hfeed rest more
          simp [hd, htake', hdrop']
        · simp [hd]
    · simp [hc]

theorem number_append_feed (sign cs more : List Char) :
    number sign (cs ++ '\n' :: more) = (number sign cs).followedBy ('\n' :: more) := by
  rw [number_eq_mk, digits_append_feed, number_eq_mk]
  rfl

theorem word_append_feed (c : Char) (cs more : List Char) :
    word c (cs ++ '\n' :: more) = (word c cs).followedBy ('\n' :: more) := by
  have hfeed : Text.isWordChar '\n' = false := by decide
  obtain ⟨htake, hdrop⟩ := Text.span_append_cons hfeed cs more
  rw [word, htake, hdrop]
  rfl

end Scan

/-- A minus in front of a line feed stands alone, as a minus at the end does. -/
theorem head?_append_feed (cs more : List Char) :
    (cs ++ '\n' :: more).head?.any Char.isDigit = cs.head?.any Char.isDigit := by
  cases cs with
  | nil => rfl
  | cons c cs => rfl

/-- **A scan stops at a line feed as it does at the end of the text**: it reads the same, takes the
same characters, and leaves the line feed and what stands behind it. -/
theorem scan_append_feed (c : Char) (cs more : List Char) :
    scan c (cs ++ '\n' :: more) = (scan c cs).followedBy ('\n' :: more) := by
  by_cases hmark : c ∈ marks
  · -- In the order of `marks`: comma, dot, quote, the four operators, minus.
    simp only [marks, List.mem_cons, List.not_mem_nil, or_false] at hmark
    rcases hmark with rfl | rfl | rfl | rfl | rfl | rfl | rfl | rfl
    · rfl
    · exact Scan.path_append_feed cs more
    · exact Scan.string_append_feed cs more
    · exact Scan.operator_append_feed ..
    · exact Scan.operator_append_feed ..
    · exact Scan.operator_append_feed ..
    · exact Scan.operator_append_feed ..
    · show (if _ then Scan.number ['-'] _ else _) = (if _ then _ else _ : Scan).followedBy _
      rw [head?_append_feed]
      split
      · exact Scan.number_append_feed ..
      · rfl
  · rw [scan_of_not_mem_marks hmark, scan_of_not_mem_marks hmark]
    split
    · exact Scan.number_append_feed [] (c :: cs) more
    split
    · exact Scan.word_append_feed c cs more
    · rfl

/-! ## Lexemes above and below a line feed -/

namespace Cursor

/-- Blanks in front of a text make no lexeme. -/
theorem lexemes_append_blank {gap : List Char} (hgap : ∀ c ∈ gap, Text.isBlank c) (cs : List Char)
    (p : Position) :
    (Cursor.mk (gap ++ cs) p).lexemes = (Cursor.mk cs (p.advance gap)).lexemes := by
  have hboth : ∀ {gap' : List Char}, (∀ c ∈ gap', Text.isBlank c) →
      ∀ c ∈ gap ++ gap', Text.isBlank c := by
    intro gap' hgap' c hc
    rcases List.mem_append.1 hc with hc | hc
    · exact hgap c hc
    · exact hgap' c hc
  rcases Text.blank_or_head cs with hblank | ⟨gap', c, rest, rfl, hgap', hc⟩
  · rw [lexemes_blank (hboth hblank), lexemes_blank hblank, Position.advance_append]
  · rw [← List.append_assoc, lexemes_scan (hboth hgap') hc, lexemes_scan hgap' hc,
      Position.advance_append]

/-- **The lexemes of a text with another one below it**: those of the text without the end token,
and then those of the other.  The induction is on the lexemes of the text; each scan is the same
with the other text behind it, and blanks at the end of the text are passed with the line feed. -/
theorem exists_lexemes_append_feed (c : Cursor) (more : List Char) :
    ∃ front, c.lexemes = front ++ [⟨.ok .eof, c.position.advance c.rest⟩] ∧
      (Cursor.mk (c.rest ++ '\n' :: more) c.position).lexemes =
        front ++ (Cursor.mk more (c.position.advance (c.rest ++ ['\n']))).lexemes := by
  refine lexemes_induction_at (motive := fun c lexemes =>
    ∃ front, lexemes = front ++ [⟨.ok .eof, c.position.advance c.rest⟩] ∧
      (Cursor.mk (c.rest ++ '\n' :: more) c.position).lexemes =
        front ++ (Cursor.mk more (c.position.advance (c.rest ++ ['\n']))).lexemes) ?_ ?_ c
  · intro cs p hblank
    refine ⟨[], rfl, ?_⟩
    -- The line feed is one more blank, so the next lexeme is the first one below it.
    have hgap : ∀ c ∈ cs ++ ['\n'], Text.isBlank c := by
      intro c hc
      rcases List.mem_append.1 hc with hc | hc
      · exact hblank c hc
      · obtain rfl := List.mem_singleton.1 hc
        decide
    have hskip := lexemes_append_blank hgap more p
    rwa [List.append_assoc] at hskip
  · rintro gap c cs p _ hgap hc ⟨front, rfl, hmore⟩
    refine ⟨(scan c cs).lexeme (p.advance gap) :: front, ?_, ?_⟩
    · rw [Position.advance_scan]
      rfl
    · have hend : p.advance (gap ++ c :: cs ++ ['\n']) =
          ((p.advance gap).advance (scan c cs).taken).advance ((scan c cs).rest ++ ['\n']) := by
        rw [Position.advance_append, Position.advance_scan, ← Position.advance_append]
      dsimp only at hmore ⊢
      rw [hend, List.cons_append, ← hmore, List.append_assoc, List.cons_append,
        lexemes_scan hgap hc, scan_append_feed]
      rfl

end Cursor

/-- The lexemes of a text without its end token. -/
def innerLexemes (cs : List Char) : List Lexeme :=
  (Cursor.mk cs .first).lexemes.dropLast

theorem lexemes_eq_inner (cs : List Char) :
    (Cursor.mk cs .first).lexemes = innerLexemes cs ++ [⟨.ok .eof, Position.first.advance cs⟩] := by
  obtain ⟨front, hfront, -⟩ := Cursor.exists_lexemes_append_feed ⟨cs, .first⟩ []
  rw [innerLexemes, hfront, List.dropLast_concat]

/-- Two texts, one below the other: the first has its lexemes, and the second has its own further
down. -/
theorem lexemes_append_feed (cs ds : List Char) :
    (Cursor.mk (cs ++ '\n' :: ds) .first).lexemes =
      innerLexemes cs ++ (Cursor.mk ds .first).lexemes.map (Lexeme.down (1 + cs.count '\n')) := by
  obtain ⟨front, hfront, hlexemes⟩ := Cursor.exists_lexemes_append_feed ⟨cs, .first⟩ ds
  have hbelow := Cursor.lexemes_down (1 + cs.count '\n') ⟨ds, .first⟩
  rw [← hbelow, ← Position.advance_append_feed, innerLexemes, hfront, List.dropLast_concat]
  exact hlexemes

theorem Position.down_down (k m : Nat) (p : Position) : (p.down k).down m = p.down (k + m) := by
  show Position.mk (p.line + k + m) p.column = ⟨p.line + (k + m), p.column⟩
  rw [Nat.add_assoc]

theorem Lexeme.down_down (k m : Nat) (l : Lexeme) : (l.down k).down m = l.down (k + m) := by
  obtain ⟨result, start⟩ := l
  cases result with
  | ok t => exact congrArg (Lexeme.mk (.ok t)) (Position.down_down k m start)
  | error e =>
    show Lexeme.mk (.error ⟨e.cause, (e.position.down k).down m⟩) ((start.down k).down m) = _
    rw [Position.down_down, Position.down_down]
    rfl

theorem Lexeme.down_zero (l : Lexeme) : l.down 0 = l := by
  obtain ⟨result, start⟩ := l
  cases result with
  | ok t => rfl
  | error e => rfl

/-- A first line has its lexemes, and the text below it has its own. -/
theorem innerLexemes_append_feed {line : List Char} (hline : '\n' ∉ line) (cs : List Char) :
    innerLexemes (line ++ '\n' :: cs) = innerLexemes line ++ (innerLexemes cs).map (Lexeme.down 1) := by
  have hlexemes := lexemes_append_feed line cs
  rw [List.count_eq_zero_of_not_mem hline, lexemes_eq_inner cs, List.map_append,
    ← List.append_assoc, List.map_singleton] at hlexemes
  rw [innerLexemes, hlexemes, List.dropLast_concat]

/-- **A text is read line by line.**  Its lexemes are those of its lines, each read by itself and put
where the line stands; `k` counts the lines above. -/
theorem innerLexemes_lines (cs : List Char) (k : Nat) :
    (innerLexemes cs).map (Lexeme.down k) =
      ((cs.splitOn '\n').zipIdx k).flatMap fun line =>
        (innerLexemes line.1).map (Lexeme.down line.2) := by
  by_cases hfeed : '\n' ∈ cs
  · -- The first line is read by itself; the recursion is on what stands below it.
    obtain ⟨line, rest, hcs, hline⟩ := List.eq_append_cons_of_mem hfeed
    have hlength : rest.length < cs.length := by
      rw [hcs, List.length_append, List.length_cons]
      omega
    have hsplit : cs.splitOn '\n' = line :: rest.splitOn '\n' := by
      rw [hcs, List.splitOn_append_cons_self_of_not_mem hline]
    have hbelow : Lexeme.down k ∘ Lexeme.down 1 = Lexeme.down (k + 1) := by
      funext l
      rw [Function.comp_apply, Lexeme.down_down, Nat.add_comm]
    rw [hsplit, List.zipIdx_cons, List.flatMap_cons, ← innerLexemes_lines rest (k + 1), hcs,
      innerLexemes_append_feed hline, List.map_append, List.map_map, hbelow]
  · rw [List.splitOn_eq_singleton hfeed]
    simp
termination_by cs.length

/-- The characters of two texts with a line feed between them. -/
theorem toList_append_feed (before behind : String) :
    (before ++ "\n" ++ behind).toList = before.toList ++ '\n' :: behind.toList := by
  simp

/-- **A line feed is a boundary for every lexeme.**  Of two texts with a line feed between them, the
first one has its lexemes, tokens and errors, all but its end token, and the second one has its own,
each in its column and as many lines further down as there are above.  So a text is read line by line:
what is wrong in a line neither changes nor hides nor moves a lexeme of another one. -/
theorem lexemes_line_by_line (before behind : String) :
    (Cursor.ofString before).lexemes =
        innerLexemes before.toList ++ [⟨.ok .eof, Position.first.advance before.toList⟩] ∧
    (Cursor.ofString (before ++ "\n" ++ behind)).lexemes =
        innerLexemes before.toList ++ (Cursor.ofString behind).lexemes.map
          (Lexeme.down (1 + before.toList.count '\n')) ∧
    ∀ source : String, innerLexemes source.toList =
        (source.toList.splitOn '\n').zipIdx.flatMap fun line =>
          (innerLexemes line.1).map (Lexeme.down line.2) := by
  refine ⟨lexemes_eq_inner before.toList, ?_, ?_⟩
  · rw [Cursor.ofString, toList_append_feed]
    exact lexemes_append_feed before.toList behind.toList
  · intro source
    have hlines := innerLexemes_lines source.toList 0
    rwa [funext Lexeme.down_zero, List.map_id'] at hlines

/-! ## Programs one below the other -/

/-- The keywords stand further down. -/
theorem keywordLines_down (lines : Nat) (lexemes : List Lexeme) :
    keywordLines (lexemes.map (Lexeme.down lines)) = (keywordLines lexemes).map (· + lines) := by
  have hkeyword : Lexeme.isKeyword ∘ Lexeme.down lines = Lexeme.isKeyword := by
    funext l
    obtain ⟨result, start⟩ := l
    cases result <;> rfl
  rw [keywordLines, keywordLines, List.filter_map, hkeyword, List.map_map, List.map_map]
  rfl

/-- Lexemes spell the same program further down: there is no error among them that would move. -/
theorem Spells.down {program : List Statement} {lexemes : List Lexeme} (h : Spells program lexemes)
    (lines : Nat) :
    Spells (program.map (Located.down lines)) (lexemes.map (Lexeme.down lines)) := by
  refine ⟨?_, ?_, ?_⟩
  · have hresult : Lexeme.result ∘ Lexeme.down lines =
        (Except.mapError fun e => ⟨e.cause, e.position.down lines⟩) ∘ Lexeme.result := rfl
    rw [List.map_map, hresult, ← List.map_map, h.results, List.map_append, List.map_flatMap,
      List.flatMap_map]
    simp only [List.map_map]
    rfl
  · rw [keywordLines_down, h.lines, List.map_map, List.map_map]
    rfl
  · intro s hs
    obtain ⟨s', hs', rfl⟩ := List.mem_map.1 hs
    exact h.complete s' hs'

/-- Lexemes that spell a program, without the end token, and lexemes that spell another one. -/
theorem Spells.append {program program' : List Statement} {front lexemes : List Lexeme}
    {stop : Position} (h : Spells program (front ++ [⟨.ok .eof, stop⟩]))
    (h' : Spells program' lexemes) : Spells (program ++ program') (front ++ lexemes) := by
  obtain ⟨hresults, hlines, hcomplete⟩ := h
  rw [List.map_append] at hresults
  have hfront := List.append_cancel_right hresults
  have heof : keywordLines [⟨.ok .eof, stop⟩] = [] := rfl
  rw [keywordLines_append, heof, List.append_nil] at hlines
  refine ⟨?_, ?_, ?_⟩
  · rw [List.map_append, hfront, h'.results, List.flatMap_append, List.append_assoc]
  · rw [keywordLines_append, hlines, h'.lines, List.map_append]
  · intro s hs
    rcases List.mem_append.1 hs with hs | hs
    · exact hcomplete s hs
    · exact h'.complete s hs

/-- **Programs compose.**  Two texts that parse, one below the other, parse to the statements of the
first and then those of the second, as many lines further down as there are above. -/
theorem parse_append_feed {before behind : String} {program program' : List Statement}
    (h : parse before = .ok program) (h' : parse behind = .ok program') :
    parse (before ++ "\n" ++ behind) =
      .ok (program ++ program'.map (Located.down (1 + before.toList.count '\n'))) := by
  -- What lexemes spell does not depend on lookahead, so a list of fields at the end of the first text
  -- needs no case of its own.
  have hspells := (parseLexemes_eq_ok_iff (Cursor.terminated_lexemes _) program).1 h
  have hspells' := (parseLexemes_eq_ok_iff (Cursor.terminated_lexemes _) program').1 h'
  refine (parseLexemes_eq_ok_iff (Cursor.terminated_lexemes _) _).2 ?_
  rw [Cursor.ofString, lexemes_eq_inner] at hspells
  rw [Cursor.ofString, toList_append_feed, lexemes_append_feed]
  exact hspells.append (hspells'.down _)

/-- A list of fields ends with its text, although the text below starts with a SELECT of its own. -/
theorem parse_append_feed_select :
    parse "LOAD \"a\"\nSELECT .x" = .ok [⟨1, .load "\"a\""⟩, ⟨2, .select [".x"]⟩] ∧
      parse "SELECT .y,\n.z SAVE\nAS \"b\"" =
        .ok [⟨1, .select [".y", ".z"]⟩, ⟨2, .save "\"b\""⟩] ∧
      parse ("LOAD \"a\"\nSELECT .x" ++ "\n" ++ "SELECT .y,\n.z SAVE\nAS \"b\"") =
        .ok [⟨1, .load "\"a\""⟩, ⟨2, .select [".x"]⟩, ⟨3, .select [".y", ".z"]⟩, ⟨4, .save "\"b\""⟩] := by
  have h : parse "LOAD \"a\"\nSELECT .x" = .ok [⟨1, .load "\"a\""⟩, ⟨2, .select [".x"]⟩] :=
    eq_ok_of_toOption (by decide +kernel)
  have h' : parse "SELECT .y,\n.z SAVE\nAS \"b\"" =
      .ok [⟨1, .select [".y", ".z"]⟩, ⟨2, .save "\"b\""⟩] :=
    eq_ok_of_toOption (by decide +kernel)
  have hcount : 1 + "LOAD \"a\"\nSELECT .x".toList.count '\n' = 2 := by decide +kernel
  have hboth := parse_append_feed h h'
  rw [hcount] at hboth
  exact ⟨h, h', hboth⟩

end QueryPipeline
