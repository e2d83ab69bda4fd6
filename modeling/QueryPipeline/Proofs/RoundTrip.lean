/-
# Printing and parsing back

A program that was parsed is printed, one command on each line, and parsed again.
This gives the same commands, up to their lines, with one exception: an operand that
reads as a number but has a digit outside ASCII is printed bare, and no token starts
with such a digit.

* `stage_clause` : a stage, written as a clause, stands for itself;
* `text_programLayout` : the printed program is a layout of the tokens of its clauses;
* `parse_printProgram` : without such an operand, the print parses to those clauses;
* `hasError_printProgram` : with one, it is read with a lexical error;
* `reprint_parses_back_iff` : both, for a program that was parsed, and what follows for
  compiling.
-/
import QueryPipeline.Proofs.Findings
import QueryPipeline.Proofs.Grammar

namespace QueryPipeline

/-! ## Numbers with digits outside ASCII -/

namespace Text

/-- A decimal digit outside ASCII. -/
def isForeignDigit (c : Char) : Bool :=
  isDecimalDigit c && !c.isDigit

/-- No range of decimal digits but the first meets ASCII, and none holds a blank. -/
theorem decimalDigitRanges_apart : ∀ r ∈ decimalDigitRanges, r = (0x30, 0x39) ∨ (128 ≤ r.1 ∧
    ∀ b ∈ [(0x85, 0x85), (0xA0, 0xA0), (0x1680, 0x1680), (0x2000, 0x200A), (0x2028, 0x2029),
      (0x202F, 0x202F), (0x205F, 0x205F), (0x3000, 0x3000)], r.2 < b.1 ∨ b.2 < r.1) := by
  decide

/-- A digit outside ASCII is a stray character. -/
theorem isStray_of_isForeignDigit {c : Char} (h : isForeignDigit c) : isStray c := by
  rw [isForeignDigit, Bool.and_eq_true, Bool.not_eq_true'] at h
  obtain ⟨hdecimal, hascii⟩ := h
  obtain ⟨r, hr, hc⟩ := List.any_eq_true.1 hdecimal
  simp only [Bool.and_eq_true, decide_eq_true_eq] at hc
  rcases decimalDigitRanges_apart r hr with rfl | ⟨hlow, hblank⟩
  · rw [isDigit_iff.2 hc] at hascii
    cases hascii
  · simp only [List.forall_mem_cons, List.not_mem_nil, false_implies, implies_true, and_true]
      at hblank
    have hnot : isBlank c = false := by
      rw [Bool.eq_false_iff]
      intro hb
      simp only [isBlank, Bool.or_eq_true, Bool.and_eq_true, decide_eq_true_eq, beq_iff_eq] at hb
      omega
    exact isStray_iff.2 ⟨by omega, hnot⟩

end Text

/-- A text that reads as a number and has a digit outside ASCII. -/
def isForeignNumber (s : String) : Bool :=
  isNumber s && s.toList.any Text.isForeignDigit

/-- The stage compares with such a number. -/
def Stage.hasForeignNumber : Stage → Bool
  | filter left _ right => isForeignNumber left || isForeignNumber right
  | _ => false

/-- Without digits outside ASCII, a number has the form of a token. -/
theorem isNumberOver_of_not_foreign {s : String} (h : isNumber s) (hs : isForeignNumber s = false) :
    isNumberOver Char.isDigit s.toList := by
  rw [isForeignNumber, h, Bool.true_and, List.any_eq_false] at hs
  refine isNumberOver_of_subclass (by decide) (by decide) h ?_
  intro c hc hdecimal
  have hforeign := hs c hc
  simpa [Text.isForeignDigit, hdecimal] using hforeign

/-! ## Stages as clauses -/

/-- The value that a printed operand reads as. -/
def operandValue (s : String) : Value :=
  if isPath s then .path s else if isNumber s then .number s else .string (quote s)

/-- The clause that a printed stage reads as. -/
def Stage.clause : Stage → Clause
  | load file => .load (quote file)
  | filter left op right => .filter (operandValue left) op (operandValue right)
  | select fields => .select fields
  | save file => .save (quote file)

/-- Quotes come off as they were put on. -/
@[simp] theorem stripQuotes_quote (s : String) : stripQuotes (quote s) = s := by
  simp [stripQuotes, toList_quote]

@[simp] theorem operand_operandValue (s : String) : (operandValue s).operand = s := by
  unfold operandValue
  split
  · rfl
  split
  · rfl
  · exact stripQuotes_quote s

/-- A stage, written as a clause, stands for itself. -/
@[simp] theorem stage_clause (stage : Stage) : stage.clause.stage = stage := by
  cases stage <;> simp [Stage.clause, Clause.stage]

/-- The token of a printed operand is spelt as it is printed. -/
theorem spelling_operandValue (s : String) : (operandValue s).token.spelling = printOperand s := by
  unfold operandValue printOperand
  by_cases hpath : isPath s
  · simp [hpath, Value.token, Token.spelling]
  · by_cases hnumber : isNumber s
    · simp [hpath, hnumber, Value.token, Token.spelling]
    · simp [hpath, hnumber, Value.token, Token.spelling]

/-- The stage can be written down: its texts fit between quotes, and it selects one or more
paths. -/
def Stage.IsWritable : Stage → Prop
  | load file => Text.isPlain file.toList
  | filter left _ right => Text.isPlain left.toList ∧ Text.isPlain right.toList
  | select fields => fields ≠ [] ∧ ∀ field ∈ fields, isPath field
  | save file => Text.isPlain file.toList

/-- The token of an operand is well-formed, unless it is a number with digits outside ASCII. -/
theorem wellFormed_operandValue {s : String} (hplain : Text.isPlain s.toList)
    (hs : isForeignNumber s = false) : (operandValue s).token.WellFormed := by
  unfold operandValue
  split
  next hpath => exact hpath
  split
  next hnumber => exact isNumberOver_of_not_foreign hnumber hs
  next => exact ⟨s, hplain, rfl⟩

/-- The token of a number with digits outside ASCII is stray. -/
theorem isStray_operandValue {s : String} (hs : isForeignNumber s) :
    (operandValue s).token.IsStray := by
  rw [isForeignNumber, Bool.and_eq_true, List.any_eq_true] at hs
  obtain ⟨hnumber, c, hc, hforeign⟩ := hs
  -- It is no path, since paths are made of ASCII: it is printed bare, as a number.
  have hstray := Text.isStray_of_isForeignDigit hforeign
  have hpath : ¬ isPath s := fun hpath =>
    Text.not_isBare_of_isStray hstray (isBare_of_isPath hpath c hc)
  rw [operandValue, if_neg hpath, if_pos hnumber]
  refine ⟨?_, c, hc, hstray⟩
  rintro d hd rfl
  rcases mem_of_isNumberOver hnumber _ hd with hq | hq | hq
  · revert hq; decide
  · revert hq; decide
  · revert hq; decide

/-! ## A printed program is a layout -/

/-- Tokens on one line: a gap in front of the first, a space in front of every other but a comma. -/
def lineLayout (gap : List Char) : List Token → List Placed
  | [] => []
  | t :: tokens => ⟨gap, t⟩ :: tokens.map fun u => ⟨if u = .comma then [] else [' '], u⟩

/-- The tokens of some stages, each stage on a line of its own. -/
def programLayout : List Stage → List Placed
  | [] => []
  | stage :: stages =>
    lineLayout [] stage.clause.tokens ++
      stages.flatMap fun s => lineLayout ['\n'] s.clause.tokens

theorem token_lineLayout (gap : List Char) (tokens : List Token) :
    (lineLayout gap tokens).map Placed.token = tokens := by
  cases tokens with
  | nil => rfl
  | cons t tokens => simp [lineLayout, Function.comp_def]

theorem token_programLayout (stages : List Stage) :
    (programLayout stages).map Placed.token = stages.flatMap fun s => s.clause.tokens := by
  cases stages with
  | nil => rfl
  | cons stage stages =>
    simp only [programLayout, List.map_append, List.map_flatMap, token_lineLayout,
      List.flatMap_cons]

/-- Texts joined by a separator: it stands in front of every text but the first. -/
theorem toList_intercalate_cons (separator s : String) (texts : List String) :
    (separator.intercalate (s :: texts)).toList =
      s.toList ++ texts.flatMap fun t => separator.toList ++ t.toList := by
  induction texts generalizing s with
  | nil => simp
  | cons t texts ih =>
    rw [String.intercalate_cons_cons, String.toList_append, String.toList_append, ih]
    simp

/-- A stage is printed as its tokens on one line. -/
theorem text_lineLayout (gap : List Char) {stage : Stage} (h : stage.IsWritable) :
    Layout.text (lineLayout gap stage.clause.tokens) = gap ++ stage.print.toList := by
  cases stage with
  | load file | save file =>
    simp [Layout.text, lineLayout, Placed.chars, Stage.clause, Clause.tokens, Token.spelling,
      Stage.print]
  | filter left op right =>
    have hcomma : ∀ v : Value, v.token ≠ .comma := by
      intro v
      cases v <;> exact Token.noConfusion
    simp [Layout.text, lineLayout, Placed.chars, Stage.clause, Clause.tokens, Token.spelling,
      Stage.print, hcomma, ← spelling_operandValue]
  | select fields =>
    obtain ⟨field, fields, rfl⟩ := List.exists_cons_of_ne_nil h.1
    rw [Stage.print, String.toList_append, toList_intercalate_cons]
    simp [Layout.text, lineLayout, Placed.chars, Stage.clause, Clause.tokens, fieldTokens,
      Token.spelling, List.map_flatMap, List.flatMap_assoc]

/-- The printed program is a layout of the tokens of its stages. -/
theorem text_programLayout {stages : List Stage} (h : ∀ s ∈ stages, s.IsWritable) :
    Layout.text (programLayout stages) = (printProgram stages).toList := by
  cases stages with
  | nil => rfl
  | cons stage stages =>
    have hrest : ∀ s ∈ stages, Layout.text (lineLayout ['\n'] s.clause.tokens) =
        "\n".toList ++ s.print.toList :=
      fun s hs => text_lineLayout ['\n'] (h s (by simp [hs]))
    rw [programLayout, Layout.text, List.flatMap_append, ← Layout.text,
      text_lineLayout [] (h stage (by simp)), List.nil_append, printProgram, List.map_cons,
      toList_intercalate_cons, List.flatMap_assoc, List.flatMap_map]
    congr 1
    rw [List.flatMap_def, List.flatMap_def]
    exact congrArg List.flatten (List.map_congr_left hrest)

/-- The token stands apart from the one before: behind a line feed or a space, or as a comma. -/
def Placed.IsApart (x : Placed) : Prop :=
  x.gap = ['\n'] ∨ x.gap = [' '] ∨ (x.gap = [] ∧ x.token = .comma)

theorem spaced_of_isApart {x : Placed} {layout : List Placed} (hx : x.gap = [])
    (h : ∀ y ∈ layout, y.IsApart) : Layout.Spaced (x :: layout) := by
  constructor
  · intro y hy c hc
    rcases List.mem_cons.1 hy with rfl | hy
    · rw [hx] at hc
      cases hc
    · rcases h y hy with hgap | hgap | ⟨hgap, -⟩
      · obtain rfl : c = '\n' := by simpa [hgap] using hc
        decide
      · obtain rfl : c = ' ' := by simpa [hgap] using hc
        decide
      · rw [hgap] at hc
        cases hc
  · intro y hy
    rcases h y hy with hgap | hgap | ⟨-, hcomma⟩
    · exact Or.inl (by simp [hgap])
    · exact Or.inl (by simp [hgap])
    · exact Or.inr hcomma

/-- On a line, every token but the first stands apart. -/
theorem isApart_of_mem_tail {tokens : List Token} {x : Placed}
    (hx : x ∈ tokens.map fun u => (⟨if u = .comma then [] else [' '], u⟩ : Placed)) :
    x.IsApart := by
  obtain ⟨u, -, rfl⟩ := List.mem_map.1 hx
  by_cases hu : u = .comma
  · exact Or.inr (Or.inr ⟨if_pos hu, hu⟩)
  · exact Or.inr (Or.inl (if_neg hu))

/-- Only the first token of a printed program does not stand apart. -/
theorem spaced_programLayout (stages : List Stage) : Layout.Spaced (programLayout stages) := by
  cases stages with
  | nil => exact ⟨by simp [programLayout], by simp [programLayout]⟩
  | cons stage stages =>
    obtain ⟨keyword, tail, htokens, -, -⟩ := stage.clause.exists_keyword
    rw [programLayout, htokens]
    refine spaced_of_isApart rfl ?_
    intro x hx
    rcases List.mem_append.1 hx with hx | hx
    · exact isApart_of_mem_tail hx
    · obtain ⟨s, -, hx⟩ := List.mem_flatMap.1 hx
      obtain ⟨keyword', tail', htokens', -, -⟩ := s.clause.exists_keyword
      rw [htokens'] at hx
      rcases List.mem_cons.1 hx with rfl | hx
      · exact Or.inl rfl
      · exact isApart_of_mem_tail hx

/-! ## The tokens of a printed program -/

/-- The tokens of a writable stage are well-formed, if it has no number with digits outside
ASCII. -/
theorem wellFormed_of_isWritable {stage : Stage} (h : stage.IsWritable)
    (hforeign : stage.hasForeignNumber = false) :
    ∀ t ∈ stage.clause.tokens, t.WellFormed := by
  cases stage with
  | load file =>
    simp only [Stage.clause, Clause.tokens, List.forall_mem_cons]
    exact ⟨trivial, ⟨file, h, rfl⟩, by simp⟩
  | filter left op right =>
    rw [Stage.hasForeignNumber, Bool.or_eq_false_iff] at hforeign
    simp only [Stage.clause, Clause.tokens, List.forall_mem_cons]
    exact ⟨trivial, wellFormed_operandValue h.1 hforeign.1, trivial,
      wellFormed_operandValue h.2 hforeign.2, by simp⟩
  | select fields =>
    obtain ⟨field, fields, rfl⟩ := List.exists_cons_of_ne_nil h.1
    simp only [Stage.clause, Clause.tokens, fieldTokens, List.forall_mem_cons]
    refine ⟨trivial, h.2 field (by simp), ?_⟩
    intro t ht
    obtain ⟨f, hf, ht⟩ := List.mem_flatMap.1 ht
    simp only [List.mem_cons, List.not_mem_nil, or_false] at ht
    rcases ht with rfl | rfl
    · trivial
    · exact h.2 f (by simp [hf])
  | save file =>
    simp only [Stage.clause, Clause.tokens, List.forall_mem_cons]
    exact ⟨trivial, trivial, ⟨file, h, rfl⟩, by simp⟩

/-- With such a number, one of its tokens is stray, and the others are well-formed or stray too. -/
theorem isStray_of_hasForeignNumber {stage : Stage} (h : stage.IsWritable)
    (hforeign : stage.hasForeignNumber) :
    (∀ t ∈ stage.clause.tokens, t.WellFormed ∨ t.IsStray) ∧
      ∃ t ∈ stage.clause.tokens, t.IsStray := by
  cases stage with
  | filter left op right =>
    have side : ∀ s, Text.isPlain s.toList →
        (operandValue s).token.WellFormed ∨ (operandValue s).token.IsStray := by
      intro s hs
      cases hnumber : isForeignNumber s with
      | false => exact Or.inl (wellFormed_operandValue hs hnumber)
      | true => exact Or.inr (isStray_operandValue hnumber)
    rw [Stage.hasForeignNumber, Bool.or_eq_true] at hforeign
    constructor
    · simp only [Stage.clause, Clause.tokens, List.forall_mem_cons]
      exact ⟨Or.inl trivial, side left h.1, Or.inl trivial, side right h.2, by simp⟩
    · rcases hforeign with hleft | hright
      · exact ⟨_, by simp [Stage.clause, Clause.tokens], isStray_operandValue hleft⟩
      · exact ⟨_, by simp [Stage.clause, Clause.tokens], isStray_operandValue hright⟩
  | _ => cases hforeign

/-! ## The lines of a printed program -/

/-- Items on consecutive lines, from line `n` on. -/
def numberFrom {α : Type} (n : Nat) : List α → List (Located α)
  | [] => []
  | x :: xs => ⟨n, x⟩ :: numberFrom (n + 1) xs

theorem item_numberFrom {α : Type} (n : Nat) (xs : List α) :
    (numberFrom n xs).map Located.item = xs := by
  induction xs generalizing n with
  | nil => rfl
  | cons x xs ih => rw [numberFrom, List.map_cons, ih]

theorem flatMap_numberFrom {α β : Type} (f : α → List β) (n : Nat) (xs : List α) :
    ((numberFrom n xs).flatMap fun x => f x.item) = xs.flatMap f := by
  rw [← List.flatMap_map Located.item f, item_numberFrom]

theorem map_numberFrom {α β : Type} (f : α → β) (n : Nat) (xs : List α) :
    (numberFrom n xs).map (Located.map f) = numberFrom n (xs.map f) := by
  induction xs generalizing n with
  | nil => rfl
  | cons x xs ih => rw [numberFrom, List.map_cons, ih, List.map_cons, numberFrom, Located.map]

theorem feed_not_mem_of_isPlain {cs : List Char} (h : Text.isPlain cs) : '\n' ∉ cs := by
  intro hmem
  have := List.all_eq_true.1 h _ hmem
  revert this
  decide

/-- A stage is printed on one line. -/
theorem count_feed_print {stage : Stage} (h : stage.IsWritable) :
    stage.print.toList.count '\n' = 0 := by
  rw [List.count_eq_zero]
  have hoperand : ∀ s : String, Text.isPlain s.toList → '\n' ∉ (printOperand s).toList := by
    intro s hs
    have := feed_not_mem_of_isPlain hs
    unfold printOperand
    split
    · exact this
    · simpa [toList_quote] using this
  cases stage with
  | load file | save file =>
    simpa [Stage.print, toList_quote] using feed_not_mem_of_isPlain h
  | filter left op right =>
    have hop : '\n' ∉ op.spelling.toList := by cases op <;> decide
    simp [Stage.print, hoperand left h.1, hoperand right h.2, hop]
  | select fields =>
    obtain ⟨field, fields, rfl⟩ := List.exists_cons_of_ne_nil h.1
    have hfield : ∀ f ∈ field :: fields, '\n' ∉ f.toList := fun f hf =>
      feed_not_mem_of_isPlain (Text.isPlain_of_isBare (isBare_of_isPath (h.2 f hf)))
    rw [Stage.print, String.toList_append, toList_intercalate_cons]
    simp only [List.mem_append, List.mem_flatMap, not_or]
    refine ⟨by decide, hfield field (by simp), ?_⟩
    rintro ⟨f, hf, hfeed | hfeed⟩
    · revert hfeed
      decide
    · exact hfield f (by simp [hf]) hfeed

/-- The only keyword on a line is the first token. -/
theorem keywordLines_lineLayout (p : Position) (gap : List Char) (clause : Clause) :
    keywordLines (Layout.lexemes p (lineLayout gap clause.tokens)) = [(p.advance gap).line] := by
  obtain ⟨keyword, tail, htokens, hkeyword, htail⟩ := clause.exists_keyword
  rw [htokens, lineLayout, Layout.lexemes, keywordLines_ok, hkeyword,
    keywordLines_eq_nil htail]
  · rfl
  · rw [Layout.result_lexemes, List.map_map]
    simp [Function.comp_def]

/-- Stages that start on new lines stand on consecutive lines. -/
theorem keywordLines_lines {stages : List Stage} (h : ∀ s ∈ stages, s.IsWritable) (p : Position) :
    keywordLines (Layout.lexemes p (stages.flatMap fun s => lineLayout ['\n'] s.clause.tokens)) =
      (numberFrom (p.line + 1) stages).map Located.line := by
  induction stages generalizing p with
  | nil => rfl
  | cons stage stages ih =>
    have hline : (p.advance (Layout.text (lineLayout ['\n'] stage.clause.tokens))).line =
        p.line + 1 := by
      rw [text_lineLayout ['\n'] (h stage (by simp)), Position.line_advance, List.count_append,
        count_feed_print (h stage (by simp))]
      rfl
    rw [List.flatMap_cons, Layout.lexemes_append, keywordLines_append, keywordLines_lineLayout,
      ih (fun s hs => h s (by simp [hs])), hline, Position.line_advance]
    rfl

/-- The stages of a printed program stand on the lines from the first on. -/
theorem keywordLines_programLayout {stages : List Stage} (h : ∀ s ∈ stages, s.IsWritable) :
    keywordLines (Layout.lexemes Position.first (programLayout stages)) =
      (numberFrom 1 stages).map Located.line := by
  cases stages with
  | nil => rfl
  | cons stage stages =>
    have hline : (Position.first.advance
        (Layout.text (lineLayout [] stage.clause.tokens))).line = 1 := by
      rw [text_lineLayout [] (h stage (by simp)), List.nil_append, Position.line_advance,
        count_feed_print (h stage (by simp))]
      rfl
    rw [programLayout, Layout.lexemes_append, keywordLines_append, keywordLines_lineLayout,
      keywordLines_lines (fun s hs => h s (by simp [hs])), hline]
    rfl

/-! ## Parsing what was printed -/

/-- The lexemes of a printed program whose tokens are well-formed. -/
theorem lexemes_printProgram {stages : List Stage} (h : ∀ s ∈ stages, s.IsWritable)
    (hforeign : ∀ s ∈ stages, s.hasForeignNumber = false) :
    ∃ p, (Cursor.ofString (printProgram stages)).lexemes =
      Layout.lexemes Position.first (programLayout stages) ++ [⟨.ok .eof, p⟩] := by
  have hform : ∀ x ∈ programLayout stages, x.token.WellFormed := by
    intro x hx
    have ht : x.token ∈ (programLayout stages).map Placed.token := List.mem_map_of_mem hx
    rw [token_programLayout] at ht
    obtain ⟨s, hs, ht⟩ := List.mem_flatMap.1 ht
    exact wellFormed_of_isWritable (h s hs) (hforeign s hs) _ ht
  have hlexemes := Layout.lexemes_layout (spaced_programLayout stages) hform Text.isBoundary_nil
    Position.first
  rw [List.append_nil, text_programLayout h, Cursor.lexemes_nil] at hlexemes
  exact ⟨_, hlexemes⟩

/-- Writable stages are complete clauses. -/
theorem isComplete_clause {stage : Stage} (h : stage.IsWritable) : stage.clause.isComplete := by
  cases stage with
  | select fields => simpa [Stage.clause, Clause.isComplete] using h.1
  | _ => rfl

/-- **Without a number with digits outside ASCII, the print parses** to the clauses of its stages,
one on each line. -/
theorem parse_printProgram {stages : List Stage} (h : ∀ s ∈ stages, s.IsWritable)
    (hforeign : ∀ s ∈ stages, s.hasForeignNumber = false) :
    parse (printProgram stages) = .ok (numberFrom 1 (stages.map Stage.clause)) := by
  obtain ⟨p, hlexemes⟩ := lexemes_printProgram h hforeign
  refine (parseLexemes_eq_ok_iff (Cursor.terminated_lexemes _) _).2 ?_
  rw [hlexemes]
  refine ⟨?_, ?_, ?_⟩
  · rw [List.map_append, Layout.result_lexemes, token_programLayout, List.map_flatMap,
      flatMap_numberFrom (fun clause : Clause => clause.tokens.map Except.ok), List.flatMap_map]
    rfl
  · rw [keywordLines_append, keywordLines_programLayout h, ← map_numberFrom, List.map_map]
    exact List.append_nil _
  · intro s hs
    have hitem : s.item ∈ stages.map Stage.clause := by
      rw [← item_numberFrom 1 (stages.map Stage.clause)]
      exact List.mem_map_of_mem hs
    obtain ⟨stage, hstage, heq⟩ := List.mem_map.1 hitem
    rw [← heq]
    exact isComplete_clause (h stage hstage)

/-- **With such a number, the print is read with a lexical error.** -/
theorem hasError_printProgram {stages : List Stage} (h : ∀ s ∈ stages, s.IsWritable)
    (hforeign : ∃ s ∈ stages, s.hasForeignNumber) :
    HasError (Cursor.ofString (printProgram stages)).lexemes := by
  have htoken : ∀ t ∈ stages.flatMap (fun s => s.clause.tokens), t.WellFormed ∨ t.IsStray := by
    intro t ht
    obtain ⟨s, hs, ht⟩ := List.mem_flatMap.1 ht
    cases hnumber : s.hasForeignNumber with
    | false => exact Or.inl (wellFormed_of_isWritable (h s hs) hnumber t ht)
    | true => exact (isStray_of_hasForeignNumber (h s hs) hnumber).1 t ht
  have hform : ∀ x ∈ programLayout stages, x.token.WellFormed ∨ x.token.IsStray := by
    intro x hx
    apply htoken
    rw [← token_programLayout]
    exact List.mem_map_of_mem hx
  have hstray : ∃ x ∈ programLayout stages, x.token.IsStray := by
    obtain ⟨s, hs, hnumber⟩ := hforeign
    obtain ⟨t, ht, hstray⟩ := (isStray_of_hasForeignNumber (h s hs) hnumber).2
    have hmem : t ∈ (programLayout stages).map Placed.token := by
      rw [token_programLayout]
      exact List.mem_flatMap.2 ⟨s, hs, ht⟩
    obtain ⟨x, hx, rfl⟩ := List.mem_map.1 hmem
    exact ⟨x, hx, hstray⟩
  have herror := Layout.hasError_of_isStray (spaced_programLayout stages) hform hstray
    Text.isBoundary_nil Position.first
  rw [List.append_nil, text_programLayout h] at herror
  exact herror

/-- A text that is read with a lexical error does not parse. -/
theorem not_parse_of_hasError {source : String} (h : HasError (Cursor.ofString source).lexemes)
    (program : List Statement) : parse source ≠ .ok program := by
  intro hparse
  have hspells := (parseLexemes_eq_ok_iff (Cursor.terminated_lexemes _) _).1 hparse
  obtain ⟨l, hl, e, he⟩ := h
  have hresult : (.error e : Except LexicalError Token) ∈
      (Cursor.ofString source).lexemes.map Lexeme.result := by
    rw [← he]
    exact List.mem_map_of_mem hl
  rw [hspells.results] at hresult
  simp at hresult

/-! ## The stages of a program that was parsed -/

theorem isPlain_of_wellFormed_value {v : Value} (h : v.token.WellFormed) :
    Text.isPlain v.operand.toList := by
  cases v with
  | string text =>
    obtain ⟨body, hbody, rfl⟩ := h
    rw [Value.operand, stripQuotes_quote]
    exact hbody
  | number text => exact Text.isPlain_of_isBare (isBare_of_isNumberOver h)
  | path text => exact Text.isPlain_of_isBare (isBare_of_isPath h)

theorem isPlain_of_wellFormed_string {text : String} (h : (Token.string text).WellFormed) :
    Text.isPlain (stripQuotes text).toList := by
  obtain ⟨body, hbody, rfl⟩ := h
  rw [stripQuotes_quote]
  exact hbody

/-- A complete clause of well-formed tokens stands for a writable stage. -/
theorem isWritable_stage {clause : Clause} (hcomplete : clause.isComplete)
    (h : ∀ t ∈ clause.tokens, t.WellFormed) : clause.stage.IsWritable := by
  cases clause with
  | load path => exact isPlain_of_wellFormed_string (h (.string path) (by simp [Clause.tokens]))
  | filter left op right =>
    exact ⟨isPlain_of_wellFormed_value (h left.token (by simp [Clause.tokens])),
      isPlain_of_wellFormed_value (h right.token (by simp [Clause.tokens]))⟩
  | select fields =>
    refine ⟨by simpa [Clause.isComplete] using hcomplete, ?_⟩
    intro field hfield
    exact h (.path field) (List.mem_cons_of_mem _ (path_mem_fieldTokens hfield))
  | save path => exact isPlain_of_wellFormed_string (h (.string path) (by simp [Clause.tokens]))

/-- The tokens of a program that was parsed are well-formed. -/
theorem wellFormed_of_parse {source : String} {program : List Statement}
    (h : parse source = .ok program) {s : Statement} (hs : s ∈ program) :
    ∀ t ∈ s.item.tokens, t.WellFormed := by
  have hspells := (parseLexemes_eq_ok_iff (Cursor.terminated_lexemes _) _).1 h
  intro t ht
  refine Cursor.wellFormed_lexemes (Cursor.ofString source) t ?_ ?_
  · rw [hspells.results]
    exact List.mem_append_left _ (List.mem_flatMap.2 ⟨s, hs, List.mem_map_of_mem ht⟩)
  · exact Clause.ne_eof_of_mem_tokens ht

/-- The stages of a program that was parsed are writable. -/
theorem isWritable_of_parse {source : String} {program : List Statement}
    (h : parse source = .ok program) : ∀ stage ∈ stagesOf program, stage.IsWritable := by
  have hspells := (parseLexemes_eq_ok_iff (Cursor.terminated_lexemes _) _).1 h
  intro stage hstage
  obtain ⟨s, hs, rfl⟩ := List.mem_map.1 hstage
  exact isWritable_stage (hspells.complete s hs) (wellFormed_of_parse h hs)

/-! ## The round trip -/

/-- The print of the commands of a program. -/
def reprint (program : List Statement) : String :=
  printProgram ((Pipeline.ofProgram program).commands.map Located.item)

theorem item_ofProgram (program : List Statement) :
    (Pipeline.ofProgram program).commands.map Located.item = stagesOf program := by
  rw [commands_ofProgram, item_commands]

/-- The commands of printed stages are the stages, one on each line. -/
theorem commands_numberFrom {stages : List Stage} :
    (Pipeline.ofProgram (numberFrom 1 (stages.map Stage.clause))).commands =
      numberFrom 1 stages := by
  rw [commands_ofProgram]
  show (numberFrom 1 (stages.map Stage.clause)).map (Located.map Clause.stage) = _
  rw [map_numberFrom, List.map_map]
  congr 1
  exact (List.map_congr_left fun stage _ => stage_clause stage).trans (List.map_id _)

/-- **Printing undoes parsing, except for numbers with digits outside ASCII.**  The print of the
commands of a program parses back to the same commands, one on each line from the first on, if and
only if no FILTER among them compares such a number.  A text that parses back to the same commands
also compiles to the same code, or fails with the same messages, under any rules. -/
theorem reprint_parses_back_iff {source : String} {program : List Statement}
    (h : parse source = .ok program) :
    ((∃ reparsed, parse (reprint program) = .ok reparsed ∧
        (Pipeline.ofProgram reparsed).commands =
          numberFrom 1 ((Pipeline.ofProgram program).commands.map Located.item)) ↔
      ∀ c ∈ (Pipeline.ofProgram program).commands, c.item.hasForeignNumber = false) ∧
    ∀ reparsed, parse (reprint program) = .ok reparsed →
      (Pipeline.ofProgram reparsed).commands.map Located.item =
        (Pipeline.ofProgram program).commands.map Located.item →
      ∀ rules, SameOutcome (compile rules (reprint program)) (compile rules source) := by
  have hwritable := isWritable_of_parse h
  have hforeign : (∀ c ∈ (Pipeline.ofProgram program).commands,
      c.item.hasForeignNumber = false) ↔
      ∀ stage ∈ stagesOf program, stage.hasForeignNumber = false := by
    rw [← item_ofProgram, List.forall_mem_map]
  rw [hforeign, reprint, item_ofProgram]
  refine ⟨⟨?_, ?_⟩, ?_⟩
  · -- A number with such a digit would leave a lexical error in the print.
    rintro ⟨reparsed, hparse, -⟩ stage hstage
    rw [Bool.eq_false_iff]
    intro hnumber
    exact not_parse_of_hasError (hasError_printProgram hwritable ⟨stage, hstage, hnumber⟩) _ hparse
  · intro hnone
    exact ⟨_, parse_printProgram hwritable hnone, commands_numberFrom⟩
  · intro reparsed hparse hitems rules
    rw [item_ofProgram] at hitems
    rw [compile_of_parse hparse, compile_of_parse h]
    exact sameOutcome_of_stages hitems rules

/-- A quoted number is printed bare and comes back; one in Arabic digits does not. -/
theorem reprint_parses_back_ascii_only :
    (∃ reparsed, parse (reprint [⟨1, .load "\"é.json\""⟩,
        ⟨1, .filter (.string "\"18\"") .le (.path ".a.b")⟩, ⟨3, .select [".a", ".b"]⟩]) =
        .ok reparsed ∧ (Pipeline.ofProgram reparsed).commands =
        [⟨1, .load "é.json"⟩, ⟨2, .filter "18" .le ".a.b"⟩, ⟨3, .select [".a", ".b"]⟩]) ∧
    ¬∃ reparsed, parse (reprint [⟨1, .filter (.path ".a") .gt (.string "\"٣\"")⟩]) =
        .ok reparsed ∧ (Pipeline.ofProgram reparsed).commands = [⟨1, .filter ".a" .gt "٣"⟩] := by
  have hascii : parse "LOAD \"é.json\" FILTER \"18\" <= .a.b\n\nSELECT .a ,.b" =
      .ok [⟨1, .load "\"é.json\""⟩, ⟨1, .filter (.string "\"18\"") .le (.path ".a.b")⟩,
        ⟨3, .select [".a", ".b"]⟩] :=
    eq_ok_of_toOption (by decide +kernel)
  have harabic : parse "FILTER .a > \"٣\"" =
      .ok [⟨1, .filter (.path ".a") .gt (.string "\"٣\"")⟩] :=
    eq_ok_of_toOption (by decide +kernel)
  constructor
  · exact (reprint_parses_back_iff hascii).1.2 (by decide +kernel)
  · intro hback
    exact absurd ((reprint_parses_back_iff harabic).1.1 hback) (by decide +kernel)

end QueryPipeline
