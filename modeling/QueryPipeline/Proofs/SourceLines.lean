/-
# Statements on the lines of their keywords

A statement is on the line of its keyword, wherever its other words stand: it may reach over many
lines, and a line may hold many statements.  Keywords are read one behind the other, so lines
never go back, neither from statement to statement nor from finding to finding.

* `Text.HasAt` : a text has a word at a place, told by its lines;
* `Text.hasAt_append` : a word is found at the place that is counted up to it;
* `Cursor.exists_append_of_mem_lexemes` : a token that is read stands where its lexeme starts;
* `Ascending.pairwise_start` : lexemes start one behind the other;
* `Spells.keywords` : the keywords among the lexemes are those of the statements;
* `exists_places` : a place in the text for the keyword of every statement;
* `lines_point_at_source` : all this together, for a text that parses.
-/
import Mathlib.Data.List.Forall2
import QueryPipeline.Proofs.Concatenation
import QueryPipeline.Proofs.ReadingOrder

namespace QueryPipeline

/-! ## Words in the lines of a text -/

namespace Text

/-- The text has the word at a place: on that line, behind as many characters as the column says. -/
def HasAt (text : List Char) (p : Position) (word : List Char) : Prop :=
  ∃ before behind, (text.splitOn '\n')[p.line - 1]? = some (before ++ word ++ behind) ∧
    before.length = p.column

/-- The first line of a text goes at least up to the first line feed. -/
theorem exists_head_splitOn {line : List Char} (hline : '\n' ∉ line) (rest : List Char) :
    ∃ behind, ((line ++ rest).splitOn '\n')[0]? = some (line ++ behind) := by
  by_cases hfeed : '\n' ∈ rest
  · obtain ⟨behind, below, rfl, hbehind⟩ := List.eq_append_cons_of_mem hfeed
    have hfirst : '\n' ∉ line ++ behind := by
      rw [List.mem_append, not_or]
      exact ⟨hline, hbehind⟩
    refine ⟨behind, ?_⟩
    rw [← List.append_assoc, List.splitOn_append_cons_self_of_not_mem hfirst]
    rfl
  · refine ⟨rest, ?_⟩
    rw [List.splitOn_eq_singleton (by simp [hline, hfeed])]
    rfl

/-- Without a line feed the position stays on its line. -/
theorem advance_first_line {line : List Char} (hline : '\n' ∉ line) :
    Position.first.advance line = ⟨1, line.length⟩ := by
  have hall : ∀ c ∈ line.reverse, (c != '\n') = true := by
    intro c hc
    rw [bne_iff_ne]
    rintro rfl
    exact hline (List.mem_reverse.1 hc)
  have hspan := (span_boundary hall [] (by simp)).1
  rw [List.append_nil] at hspan
  have hrow := Position.line_advance Position.first line
  have hcolumn := Position.column_advance_first line
  rw [List.count_eq_zero_of_not_mem hline] at hrow
  rw [hspan, List.length_reverse] at hcolumn
  show Position.mk (Position.first.advance line).line (Position.first.advance line).column = _
  rw [hrow, hcolumn]
  rfl

/-- **A word is found where it stands**: at the place that is counted up to it. -/
theorem hasAt_append {word : List Char} (hword : '\n' ∉ word) (pre rest : List Char) :
    HasAt (pre ++ word ++ rest) (Position.first.advance pre) word := by
  by_cases hfeed : '\n' ∈ pre
  · -- Below the first line stands a text of its own, and the recursion is on that one.
    obtain ⟨line, below, hpre, hline⟩ := List.eq_append_cons_of_mem hfeed
    have hlength : below.length < pre.length := by
      rw [hpre, List.length_append, List.length_cons]
      omega
    have hplace : Position.first.advance pre = (Position.first.advance below).down 1 := by
      rw [hpre, List.append_cons, Position.advance_append, Position.advance_append_feed,
        List.count_eq_zero_of_not_mem hline, Position.advance_down]
    have hlines : (pre ++ word ++ rest).splitOn '\n' =
        line :: (below ++ word ++ rest).splitOn '\n' := by
      rw [hpre, List.append_assoc, List.append_assoc, List.cons_append,
        List.splitOn_append_cons_self_of_not_mem hline, List.append_assoc]
    obtain ⟨before, behind, hfound, hcolumn⟩ := hasAt_append hword below rest
    have hrow := Position.line_advance Position.first below
    refine ⟨before, behind, ?_, by rw [hplace]; exact hcolumn⟩
    rw [hplace, hlines, ← hfound]
    show (line :: _)[(Position.first.advance below).line + 1 - 1]? = _
    rw [hrow, Nat.add_sub_cancel]
    show (line :: _)[1 + below.count '\n']? = _[1 + below.count '\n' - 1]?
    rw [Nat.add_comm, List.getElem?_cons_succ, Nat.add_sub_cancel]
  · have hline : '\n' ∉ pre ++ word := by
      rw [List.mem_append, not_or]
      exact ⟨hfeed, hword⟩
    obtain ⟨behind, hfound⟩ := exists_head_splitOn hline rest
    rw [advance_first_line hfeed]
    exact ⟨pre, behind, hfound, rfl⟩
termination_by pre.length

end Text

/-! ## Places of tokens -/

/-- **A token stands where its lexeme starts.**  The cursor stands behind `pre`, and every token that
it reads is found behind some more characters. -/
theorem Cursor.exists_append_of_mem_lexemes {text pre : List Char} {c : Cursor}
    (h : c.Stands text pre) : ∀ l ∈ c.lexemes, ∀ t, l.result = .ok t →
      ∃ before behind, text = before ++ t.spelling.toList ++ behind ∧
        l.start = Position.first.advance before := by
  refine lexemes_induction_at (motive := fun c lexemes => ∀ pre, c.Stands text pre →
    ∀ l ∈ lexemes, ∀ t, l.result = .ok t → ∃ before behind,
      text = before ++ t.spelling.toList ++ behind ∧ l.start = Position.first.advance before)
    ?_ ?_ c pre h
  · rintro cs p _ pre ⟨rfl, rfl⟩ l hl t ht
    obtain rfl := List.mem_singleton.1 hl
    obtain rfl := Except.ok.inj ht
    refine ⟨pre ++ cs, [], by simp [Token.spelling], ?_⟩
    rw [Position.advance_append]
  · rintro gap c cs p lexemes _ _ ih pre ⟨rfl, rfl⟩ l hl t ht
    rcases List.mem_cons.1 hl with rfl | hl
    · have hspelling := (scan_wellFormed c cs t (Scan.result_of_lexeme ht)).2
      refine ⟨pre ++ gap, (scan c cs).rest, ?_, ?_⟩
      · rw [hspelling, List.append_assoc _ (scan c cs).taken, scan_eq, List.append_assoc]
      · rw [Position.advance_append]
        rfl
    · refine ih (pre ++ gap ++ (scan c cs).taken) ⟨?_, ?_⟩ l hl t ht
      · rw [List.append_assoc _ (scan c cs).taken, scan_eq, List.append_assoc]
      · rw [Position.advance_append, Position.advance_append]

/-- Lexemes start one behind the other. -/
theorem Ascending.pairwise_start {p : Position} {lexemes : List Lexeme} (h : Ascending p lexemes) :
    (∀ l ∈ lexemes, p.le l.start) ∧ lexemes.Pairwise fun a b => a.start.lt b.start := by
  induction h with
  | last t start =>
    refine ⟨?_, List.pairwise_singleton _ _⟩
    intro l hl
    obtain rfl := List.mem_singleton.1 hl
    exact start
  | cons start stop _ _ ih =>
    obtain ⟨hbehind, hpairwise⟩ := ih
    refine ⟨?_, List.pairwise_cons.2 ⟨?_, hpairwise⟩⟩
    · intro l hl
      rcases List.mem_cons.1 hl with rfl | hl
      · exact start
      · exact Position.le_trans start (Position.le_trans (Position.le_of_lt stop) (hbehind l hl))
    · intro l hl
      exact Position.lt_of_lt_of_le stop (hbehind l hl)

/-! ## Places of statements -/

/-- The keyword of a clause. -/
def Clause.keyword : Clause → Token
  | load _ => .load
  | filter _ _ _ => .filter
  | select _ => .select
  | save _ => .save

/-- The keyword is spelt as the stage is called. -/
theorem Clause.spelling_keyword (clause : Clause) :
    clause.keyword.spelling = clause.stage.keyword := by
  cases clause <;> rfl

/-- A keyword stands on one line. -/
theorem Clause.feed_not_mem_keyword (clause : Clause) :
    '\n' ∉ clause.keyword.spelling.toList := by
  cases clause <;> simp [keyword, Token.spelling]

/-- The keyword is the only token of a clause that opens a statement. -/
theorem Clause.filter_tokens (clause : Clause) :
    clause.tokens.filter Token.startsCommand = [clause.keyword] := by
  cases clause with
  | load path => rfl
  | filter left op right => cases left <;> cases right <;> rfl
  | select fields =>
    have hnone : (fieldTokens fields).filter Token.startsCommand = [] := by
      rw [List.filter_eq_nil_iff]
      intro t ht
      rw [startsCommand_fieldTokens fields t ht]
      exact Bool.false_ne_true
    rw [tokens, List.filter_cons_of_pos rfl, hnone]
    rfl
  | save path => rfl

/-- **The keywords among the lexemes** of a program are those of its statements, in order. -/
theorem Spells.keywords {program : List Statement} {lexemes : List Lexeme}
    (h : Spells program lexemes) : (lexemes.filter Lexeme.isKeyword).map Lexeme.result =
      program.map fun s => .ok s.item.keyword := by
  -- Whether a lexeme is a keyword is told from its result, wherever it starts.
  let isKeyword (r : Except LexicalError Token) : Bool := Lexeme.isKeyword ⟨r, Position.first⟩
  have hresult : isKeyword ∘ Lexeme.result = Lexeme.isKeyword := rfl
  have htoken : isKeyword ∘ Except.ok = Token.startsCommand := rfl
  have hclause : ∀ s : Statement, (s.item.tokens.map Except.ok).filter isKeyword =
      [.ok s.item.keyword] := by
    intro s
    rw [List.filter_map, htoken, s.item.filter_tokens]
    rfl
  have heof : [Except.ok Token.eof].filter isKeyword = [] := rfl
  rw [← hresult, ← List.filter_map, h.results, List.filter_append, List.filter_flatMap, heof,
    List.append_nil]
  simp only [hclause]
  exact List.flatMap_pure_eq_map _ _

/-- **A place for every statement.**  The keywords of the statements stand in the text one behind the
other, each on the line of its statement. -/
theorem exists_places {source : String} {program : List Statement}
    (h : parse source = .ok program) :
    ∃ places : List Position, places.Pairwise Position.lt ∧
      List.Forall₂ (fun s p => p.line = s.line ∧ ∃ before behind,
        source.toList = before ++ s.item.keyword.spelling.toList ++ behind ∧
          p = Position.first.advance before) program places := by
  have hspells := (parse_eq_ok_iff_spells source program).1 h
  have hascending := (Cursor.ascending_lexemes (Cursor.ofString source)).pairwise_start.2
  have hpairs := congrArg₂ List.zip hspells.keywords hspells.lines
  rw [keywordLines, List.zip_map', List.zip_map', ← List.forall₂_eq_eq_eq,
    List.forall₂_map_left_iff, List.forall₂_map_right_iff] at hpairs
  have hread := (List.forall₂_and_left _ _).2
    ⟨fun l (hl : l ∈ (Cursor.ofString source).lexemes.filter Lexeme.isKeyword) =>
      (List.mem_filter.1 hl).1, hpairs⟩
  refine ⟨((Cursor.ofString source).lexemes.filter Lexeme.isKeyword).map Lexeme.start, ?_, ?_⟩
  · rw [List.pairwise_map]
    exact hascending.filter _
  · rw [List.forall₂_map_right_iff]
    refine (hread.imp ?_).flip
    rintro l s ⟨hl, hpair⟩
    obtain ⟨hkeyword, hline⟩ := Prod.mk.inj hpair
    have hstands : (Cursor.ofString source).Stands source.toList [] := ⟨rfl, rfl⟩
    exact ⟨hline, Cursor.exists_append_of_mem_lexemes hstands l hl _ hkeyword⟩

/-- A statement with a place in the text is on one of its lines, and that line contains its
keyword. -/
theorem hasAt_of_place {source : String} {s : Statement} {p : Position} (hline : p.line = s.line)
    (hplace : ∃ before behind, source.toList =
      before ++ s.item.keyword.spelling.toList ++ behind ∧ p = Position.first.advance before) :
    Text.HasAt source.toList p s.item.stage.keyword.toList ∧
      1 ≤ s.line ∧ s.line ≤ 1 + source.toList.count '\n' := by
  obtain ⟨before, behind, hsource, rfl⟩ := hplace
  have hrow := Position.line_advance Position.first before
  have hfirst : Position.first.line = 1 := rfl
  refine ⟨?_, by omega, ?_⟩
  · rw [← s.item.spelling_keyword, hsource]
    exact Text.hasAt_append s.item.feed_not_mem_keyword before behind
  · rw [hsource, List.count_append, List.count_append]
    omega

/-- **Lines point at the source and come in order.**  The lines of the statements of a text never go
back.  Each of them is a line of the text, and that line contains the keyword of the statement; two
statements on one line have two keywords there, since the places of all keywords ascend.  What a
review finds, under any rules, is told in the order of lines too, and on the line of a statement. -/
theorem lines_point_at_source {source : String} {program : List Statement}
    (h : parse source = .ok program) :
    (program.map Located.line).Pairwise (· ≤ ·) ∧
      (∀ s ∈ program, 1 ≤ s.line ∧ s.line ≤ 1 + source.toList.count '\n' ∧
        ∃ line, (source.toList.splitOn '\n')[s.line - 1]? = some line ∧
          s.item.stage.keyword.toList <:+: line) ∧
      (∃ places : List Position, places.Pairwise Position.lt ∧
        List.Forall₂ (fun s p => p.line = s.line ∧
          Text.HasAt source.toList p s.item.stage.keyword.toList) program places) ∧
      ∀ rules, ((review rules program).findings.map Located.line).Pairwise (· ≤ ·) ∧
        ∀ f ∈ (review rules program).findings, ∃ s ∈ program, f.line = s.line := by
  obtain ⟨places, hascending, hplaces⟩ := exists_places h
  have hlines : program.map Located.line = places.map Position.line := by
    rw [← List.forall₂_eq_eq_eq, List.forall₂_map_left_iff, List.forall₂_map_right_iff]
    exact hplaces.imp fun s p hp => hp.1.symm
  have hordered : (program.map Located.line).Pairwise (· ≤ ·) := by
    rw [hlines, List.pairwise_map]
    refine hascending.imp ?_
    intro p q hpq
    rw [Position.lt] at hpq
    omega
  refine ⟨hordered, ?_, ⟨places, hascending, ?_⟩, ?_⟩
  · -- What holds of a statement by its place holds of every statement.
    refine ((List.forall₂_and_left (R := fun _ _ => True) program places).1 (hplaces.imp ?_)).1
    rintro s p ⟨hline, hplace⟩
    obtain ⟨⟨before, behind, hfound, -⟩, hlow, hhigh⟩ := hasAt_of_place hline hplace
    rw [hline] at hfound
    exact ⟨⟨hlow, hhigh, _, hfound, before, behind, rfl⟩, trivial⟩
  · exact hplaces.imp fun s p hp => ⟨hp.1, (hasAt_of_place hp.1 hp.2).1⟩
  · intro rules
    rw [findings_review, List.pairwise_map]
    refine ⟨pairwise_line_findingsAfter ?_, ?_⟩
    · rw [List.pairwise_map] at hordered ⊢
      exact hordered
    · intro f hf
      obtain ⟨c, hc, hline, -⟩ := exists_command_of_mem_findingsAfter hf
      obtain ⟨s, hs, rfl⟩ := List.mem_map.1 hc
      exact ⟨s, hs, hline⟩

/-- Three statements over three lines: the first one goes on behind a line feed, and so does the last
of the two that stand on the second line. -/
def spreadSource : String :=
  "LOAD\n\"\" FILTER .x < 1 FILTER\n.nome > 2"

/-- The statements of that text. -/
def spreadProgram : List Statement :=
  [⟨1, .load "\"\""⟩, ⟨2, .filter (.path ".x") .lt (.number "1")⟩,
    ⟨2, .filter (.path ".nome") .gt (.number "2")⟩]

theorem lines_point_at_source_spread :
    parse spreadSource = .ok spreadProgram ∧
      (∃ line, (spreadSource.toList.splitOn '\n')[1]? = some line ∧
        "FILTER".toList <:+: line) ∧
      (∃ p q : Position, p.line = 2 ∧ q.line = 2 ∧ p.lt q ∧
        Text.HasAt spreadSource.toList p "FILTER".toList ∧
        Text.HasAt spreadSource.toList q "FILTER".toList) ∧
      ((review {} spreadProgram).findings.map Located.line).Pairwise (· ≤ ·) := by
  have hparse : parse spreadSource = .ok spreadProgram := eq_ok_of_toOption (by decide +kernel)
  obtain ⟨-, hlines, ⟨places, hascending, hplaces⟩, hfindings⟩ := lines_point_at_source hparse
  obtain ⟨-, -, hline⟩ := hlines ⟨2, .filter (.path ".x") .lt (.number "1")⟩ (by simp [spreadProgram])
  refine ⟨hparse, hline, ?_, (hfindings {}).1⟩
  rw [spreadProgram] at hplaces
  obtain ⟨o, _, -, htwo, rfl⟩ := List.forall₂_cons_left_iff.1 hplaces
  obtain ⟨p, _, ⟨hp, hfirst⟩, hone, rfl⟩ := List.forall₂_cons_left_iff.1 htwo
  obtain ⟨q, _, ⟨hq, hsecond⟩, -, rfl⟩ := List.forall₂_cons_left_iff.1 hone
  have hpq : p.lt q := by
    simp only [List.pairwise_cons] at hascending
    exact hascending.2.1 q List.mem_cons_self
  exact ⟨p, q, hp, hq, hpq, hfirst, hsecond⟩

end QueryPipeline
