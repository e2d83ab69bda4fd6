/-
# Tokens and the blanks between them

A text that is made of tokens with blanks between them is read as these tokens and nothing
else, whichever blanks they are, and whatever the string literals hold.  The form of a token is
said here by the patterns of the lexical grammar and not by the lexer's own loops, and it is the
weakest condition: a token that does not match its pattern is not read back.

* `Token.Matches` : the text of a token matches the pattern of its kind;
* `Token.wellFormed_iff_matches` : these are the well-formed tokens;
* `Terminated.not_mem_of_map` : no end token stands before the last lexeme;
* `spaced_tokens_read_back_iff` : which tokens are read back from a text with blanks between them.
-/
import QueryPipeline.Proofs.OperandExpressions

namespace QueryPipeline

/-! ## Tokens by the lexical grammar -/

/-- The text of the token matches the pattern of its kind.  An identifier is a word that is no
keyword; the end of the text is not written. -/
def Token.Matches : Token → Prop
  | string text => text.toList ∈ LexicalGrammar.string
  | number text => text.toList ∈ LexicalGrammar.number
  | path text => text.toList ∈ LexicalGrammar.path
  | identifier text => text.toList ∈ LexicalGrammar.word ∧ text ∉ keywords.map Prod.fst
  | eof => False
  | _ => True

/-- The texts of string literals are those in quotes. -/
theorem mem_string_iff_quote {text : String} :
    text.toList ∈ LexicalGrammar.string ↔
      ∃ body : String, Text.isPlain body.toList ∧ text = quote body := by
  rw [LexicalGrammar.mem_string_iff]
  constructor
  · rintro ⟨body, htext, hplain⟩
    refine ⟨String.ofList body, by rwa [String.toList_ofList], ?_⟩
    rw [← String.toList_inj, toList_quote, String.toList_ofList, htext]
  · rintro ⟨body, hplain, rfl⟩
    exact ⟨body.toList, toList_quote body, hplain⟩

/-- A word is an identifier if and only if it is none of the keywords. -/
theorem Token.ofWord_eq_identifier_iff (text : String) :
    ofWord text = identifier text ↔ text ∉ keywords.map Prod.fst := by
  simp only [ofWord, keywords, List.map_cons, List.map_nil, List.mem_cons, List.not_mem_nil]
  grind

/-- **The well-formed tokens are those that match their pattern.** -/
theorem Token.wellFormed_iff_matches (t : Token) : t.WellFormed ↔ t.Matches := by
  cases t with
  | string text => exact mem_string_iff_quote.symm
  | number text => exact mem_number_iff_isNumberOver.symm
  | path text => exact mem_path_iff_isPath.symm
  | identifier text =>
    exact and_congr LexicalGrammar.mem_word_iff.symm (ofWord_eq_identifier_iff text)
  | _ => exact Iff.rfl

/-! ## Texts with blanks between the tokens -/

/-- No end token stands before the last lexeme. -/
theorem Terminated.not_mem_of_map {lexemes : List Lexeme} (h : Terminated lexemes)
    {results : List (Except LexicalError Token)}
    (hresults : lexemes.map Lexeme.result = results ++ [.ok .eof]) : .ok .eof ∉ results := by
  induction h generalizing results with
  | eof p =>
    have hnil : results = [] := by
      have hlength := congrArg List.length hresults
      simp only [List.length_map, List.length_append, List.length_cons, List.length_nil] at hlength
      apply List.eq_nil_of_length_eq_zero
      omega
    rw [hnil]
    exact List.not_mem_nil
  | @cons l lexemes hl hrest ih =>
    cases results with
    | nil => exact List.not_mem_nil
    | cons result results =>
      obtain ⟨hhead, htail⟩ := List.cons.inj hresults
      rw [List.mem_cons, not_or, ← hhead]
      exact ⟨Ne.symm hl, ih htail⟩

/-- **Tokens survive any spacing.**  Take any tokens, blanks between consecutive ones (before a comma
there may be none) and perhaps blanks at both ends.  The text is read without error as these tokens,
in order, and then its end, if and only if every token matches the pattern of its kind.  Each lexeme
then starts behind its blanks, and the end token behind the last ones. -/
theorem spaced_tokens_read_back_iff {layout : List Placed} (hspaced : Layout.Spaced layout)
    {trail : List Char} (htrail : ∀ c ∈ trail, Text.isBlank c) :
    ((Cursor.ofString (String.ofList (Layout.text layout ++ trail))).lexemes.map Lexeme.result =
        (layout.map Placed.token).map Except.ok ++ [.ok .eof] ↔
      ∀ x ∈ layout, x.token.Matches) ∧
    ((∀ x ∈ layout, x.token.Matches) →
      (Cursor.ofString (String.ofList (Layout.text layout ++ trail))).lexemes =
        Layout.lexemes Position.first layout ++
          [⟨.ok .eof, Position.first.advance (Layout.text layout ++ trail)⟩]) := by
  rw [Cursor.ofString, String.toList_ofList]
  have hread : (∀ x ∈ layout, x.token.Matches) →
      (Cursor.mk (Layout.text layout ++ trail) Position.first).lexemes =
        Layout.lexemes Position.first layout ++
          [⟨.ok .eof, Position.first.advance (Layout.text layout ++ trail)⟩] := by
    intro hmatches
    have hform : ∀ x ∈ layout, x.token.WellFormed := fun x hx =>
      x.token.wellFormed_iff_matches.2 (hmatches x hx)
    have hboundary : Text.IsBoundary trail := fun c hc =>
      Or.inl (htrail c (List.mem_of_mem_head? hc))
    rw [Layout.lexemes_layout hspaced hform hboundary, Cursor.lexemes_blank htrail,
      Position.advance_append]
  refine ⟨⟨?_, ?_⟩, hread⟩
  · intro hresults x hx
    have hmem : (.ok x.token : Except LexicalError Token) ∈
        (layout.map Placed.token).map Except.ok := List.mem_map_of_mem (List.mem_map_of_mem hx)
    have heof : x.token ≠ .eof := by
      intro heof
      rw [heof] at hmem
      exact (Cursor.terminated_lexemes _).not_mem_of_map hresults hmem
    have hread := List.mem_append_left [.ok .eof] hmem
    rw [← hresults] at hread
    exact x.token.wellFormed_iff_matches.1 (Cursor.wellFormed_lexemes _ x.token hread heof)
  · intro hmatches
    rw [hread hmatches, List.map_append, Layout.result_lexemes]
    rfl

/-- Tokens whose texts hold blanks, a keyword and an operator, with an ideographic space, a line
feed and a no-break space between them. -/
def packedLayout : List Placed :=
  [⟨['\u3000'], .string "\"LOAD >=  .x\""⟩, ⟨['\n', ' '], .number "-0.50"⟩, ⟨[' '], .operator .lt⟩,
    ⟨['\u00A0'], .path ".a._1"⟩, ⟨[], .comma⟩, ⟨['\t'], .identifier "LOADS"⟩, ⟨['\u2028'], .load⟩]

/-- The case of these tokens, with blanks behind them. -/
theorem spaced_tokens_read_back_packed :
    Layout.Spaced packedLayout ∧ (∀ x ∈ packedLayout, x.token.Matches) ∧
      (Cursor.ofString (String.ofList (Layout.text packedLayout ++ ['\r', '\n']))).lexemes.map
          Lexeme.result =
        (packedLayout.map Placed.token).map Except.ok ++ [.ok .eof] := by
  have hblank : packedLayout.all fun x => x.gap.all Text.isBlank := by decide
  have hspaced : Layout.Spaced packedLayout :=
    ⟨fun x hx => List.all_eq_true.1 (List.all_eq_true.1 hblank x hx), by decide⟩
  have htrail : ['\r', '\n'].all Text.isBlank := by decide
  have hmatches : ∀ x ∈ packedLayout, x.token.Matches := by
    intro x hx
    apply x.token.wellFormed_iff_matches.1
    simp only [packedLayout, List.mem_cons, List.not_mem_nil, or_false] at hx
    rcases hx with rfl | rfl | rfl | rfl | rfl | rfl | rfl
    · exact ⟨"LOAD >=  .x", by decide, by decide⟩
    · exact (by decide : isNumberOver Char.isDigit "-0.50".toList)
    · trivial
    · exact (by decide : isPath ".a._1")
    · trivial
    · exact ⟨by decide, by decide⟩
    · trivial
  exact ⟨hspaced, hmatches,
    (spaced_tokens_read_back_iff hspaced (List.all_eq_true.1 htrail)).1.2 hmatches⟩

end QueryPipeline
