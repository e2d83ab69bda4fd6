/-
# Operands that are printed bare

The printer decides by the form of a text whether it writes it without quotes; the lexer decides
with loops of its own what is a path and what is a number.  On paths they agree about every text.
On numbers they agree about every text of ASCII characters: a digit of another script makes a
number for the printer, and is a character out of place for the lexer.

* `LexesAs` : a text is read as one token and nothing else;
* `lexesAs_spelling_iff` : a token is read back from its spelling if and only if it is well-formed;
* `lexesAs_number_iff`, `hasError_of_isForeignNumber` : numbers with other digits are not read back;
* `printed_bare_iff` : which texts are printed bare;
* `digit_outside_ascii_is_printed_bare` : one that is not read back.
-/
import QueryPipeline.Proofs.OperandExpressions

namespace QueryPipeline

/-- The text is read as one token, and then its end. -/
def LexesAs (s : String) (t : Token) : Prop :=
  (Cursor.ofString s).lexemes.map Lexeme.result = [.ok t, .ok .eof]

/-! ## Tokens by themselves -/

/-- A well-formed token, all by itself, is read back. -/
theorem lexesAs_spelling {t : Token} (h : t.WellFormed) : LexesAs t.spelling t := by
  have hread := Layout.lexemes_placed (x := ⟨[], t⟩) (by simp) h Text.isBoundary_nil Position.first
  have hchars : Placed.chars ⟨[], t⟩ ++ [] = t.spelling.toList := by
    rw [Placed.chars, List.nil_append, List.append_nil]
  rw [hchars, Cursor.lexemes_nil] at hread
  rw [LexesAs, Cursor.ofString, hread]
  rfl

/-- **A token is read back from its spelling if and only if it is well-formed.** -/
theorem lexesAs_spelling_iff (t : Token) : LexesAs t.spelling t ↔ t.WellFormed := by
  constructor
  · intro h
    by_cases heof : t = .eof
    · -- The end token has no spelling, and an empty text has one end only.
      subst heof
      rw [LexesAs, Cursor.ofString, show Token.eof.spelling.toList = [] from rfl,
        Cursor.lexemes_nil] at h
      cases h
    · exact Cursor.wellFormed_lexemes _ t (by rw [h]; simp) heof
  · exact lexesAs_spelling

theorem isPath_iff_lexesAs (s : String) : isPath s ↔ LexesAs s (.path s) :=
  (lexesAs_spelling_iff (.path s)).symm

/-- A number token has ASCII digits only. -/
theorem lexesAs_number_iff (s : String) :
    LexesAs s (.number s) ↔ isNumber s ∧ isForeignNumber s = false := by
  have hform : LexesAs s (.number s) ↔ isNumberOver Char.isDigit s.toList :=
    lexesAs_spelling_iff (.number s)
  rw [hform]
  constructor
  · exact isNumber_of_isNumberOver
  · rintro ⟨hnumber, hforeign⟩
    exact isNumberOver_of_not_foreign hnumber hforeign

/-! ## Operands -/

/-- An operand is printed bare if it has the form of a path or of a number: quotes make it longer. -/
theorem printOperand_eq_self_iff (s : String) : printOperand s = s ↔ isPath s ∨ isNumber s := by
  have hlonger : quote s ≠ s := by
    intro heq
    have hlength := congrArg (fun t => t.toList.length) heq
    simp only [toList_quote, List.length_cons, List.length_append] at hlength
    omega
  rw [printOperand, ← Bool.or_eq_true]
  by_cases hform : (isPath s || isNumber s) = true
  · rw [if_pos hform]
    exact iff_of_true rfl hform
  · rw [if_neg hform]
    exact iff_of_false hlonger hform

/-- A number with a digit outside ASCII is read with an error. -/
theorem hasError_of_isForeignNumber {s : String} (h : isForeignNumber s) :
    HasError (Cursor.ofString s).lexemes := by
  have hbare : printOperand s = s :=
    (printOperand_eq_self_iff s).2 (Or.inr (Bool.and_eq_true_iff.1 h).1)
  obtain ⟨hquote, c, hc, hstray⟩ := isStray_operandValue h
  rw [spelling_operandValue, hbare] at hquote hc
  obtain ⟨before, behind, hsplit⟩ := List.append_of_mem hc
  have hbefore : ∀ d ∈ before, d ≠ '"' := by
    intro d hd
    apply hquote d
    rw [hsplit]
    exact List.mem_append_left _ hd
  rw [Cursor.ofString, hsplit]
  exact hasError_of_stray hstray behind before hbefore _

/-- **Which texts are printed bare.**  A text has the form of a path if and only if it is read as that
path and nothing else.  It is read as a number and nothing else if and only if it has the form of a
number and no digit outside ASCII.  So a text is printed bare if and only if it is read as a path or a
number, or has the form of a number with such a digit; then it is read with an error. -/
theorem printed_bare_iff (s : String) :
    (isPath s ↔ LexesAs s (.path s)) ∧
      (LexesAs s (.number s) ↔ isNumber s ∧ isForeignNumber s = false) ∧
      (printOperand s = s ↔ LexesAs s (.path s) ∨ LexesAs s (.number s) ∨
        isForeignNumber s ∧ HasError (Cursor.ofString s).lexemes) := by
  refine ⟨isPath_iff_lexesAs s, lexesAs_number_iff s, ?_⟩
  rw [printOperand_eq_self_iff, isPath_iff_lexesAs]
  refine or_congr_right ?_
  constructor
  · intro hnumber
    cases hforeign : isForeignNumber s with
    | false => exact Or.inl ((lexesAs_number_iff s).2 ⟨hnumber, hforeign⟩)
    | true => exact Or.inr ⟨rfl, hasError_of_isForeignNumber hforeign⟩
  · rintro (hlexes | ⟨hforeign, -⟩)
    · exact ((lexesAs_number_iff s).1 hlexes).1
    · exact (Bool.and_eq_true_iff.1 hforeign).1

/-- **A digit outside ASCII is printed bare**, and is read neither as a number nor as a path. -/
theorem digit_outside_ascii_is_printed_bare :
    isNumber "٣" ∧ printOperand "٣" = "٣" ∧ ¬ LexesAs "٣" (.number "٣") ∧
      ¬ LexesAs "٣" (.path "٣") := by
  have hnumber : isNumber "٣" ∧ isForeignNumber "٣" ∧ ¬ isPath "٣" := by decide
  obtain ⟨hform, hforeign, hpath⟩ := hnumber
  refine ⟨hform, (printOperand_eq_self_iff _).2 (Or.inr hform), ?_, ?_⟩
  · rw [lexesAs_number_iff, hforeign]
    simp
  · rwa [← isPath_iff_lexesAs]

end QueryPipeline
