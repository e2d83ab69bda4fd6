/-
# The lines of a report

Messages and code hold texts of the program: operands, file names, characters that no
token starts with.  None of them brings a line feed along, and around them every line of a
report ends in a character of its own.  So a report is a list of lines, and trimming it
takes nothing away but the line feeds behind the code.

* `Text.IsTrimmed`, `Text.trimChars_append` : what trimming leaves;
* `IsTight` : a line without a line feed that ends in a character that is not blank;
* `isTight_display_of_mem_faults`, `isTight_display_of_mem_findings`, `isTight_text` : a
  fault, a finding and an instruction are each shown on a tight line;
* `CompilesTo` : how the compilation of a text comes out;
* `reportLines` : the lines of the report on an outcome; `isReport_reportLines` : they are
  tight, but for the empty ones between them;
* `text_verdict` : the text of a verdict consists of them and of `feedsBehind`;
* `reportOn_eq` : the report consists of them.
-/
import QueryPipeline.Proofs.Constants
import QueryPipeline.Proofs.Diagnosis
import QueryPipeline.Proofs.Partition
import QueryPipeline.Proofs.ReadingOrder

namespace QueryPipeline

/-! ## Trimming -/

namespace Text

/-- There is no blank at either end. -/
structure IsTrimmed (cs : List Char) : Prop where
  head : ∀ c ∈ cs.head?, isBlank c = false
  last : ∀ c ∈ cs.getLast?, isBlank c = false

theorem dropWhile_isBlank_append {gap cs : List Char} (hgap : ∀ c ∈ gap, isBlank c)
    (hcs : ∀ c ∈ cs.head?, isBlank c = false) : (gap ++ cs).dropWhile isBlank = cs := by
  rw [List.dropWhile_append_of_pos hgap]
  cases cs with
  | nil => rfl
  | cons c cs => rw [List.dropWhile_cons_of_neg (by simp [hcs c rfl])]

theorem trimRight_append {cs gap : List Char} (hcs : ∀ c ∈ cs.getLast?, isBlank c = false)
    (hgap : ∀ c ∈ gap, isBlank c) : trimRight (cs ++ gap) = cs := by
  have hreverse : ∀ c ∈ gap.reverse, isBlank c := fun c hc => hgap c (List.mem_reverse.1 hc)
  have hhead : ∀ c ∈ cs.reverse.head?, isBlank c = false := by
    rw [List.head?_reverse]
    exact hcs
  rw [trimRight, List.reverse_append, dropWhile_isBlank_append hreverse hhead, List.reverse_reverse]

/-- Trimming takes the blanks around a trimmed text away, and nothing else. -/
theorem trimChars_append {before cs behind : List Char} (hbefore : ∀ c ∈ before, isBlank c)
    (hcs : IsTrimmed cs) (hbehind : ∀ c ∈ behind, isBlank c) :
    trimChars (before ++ cs ++ behind) = cs := by
  cases cs with
  | nil =>
    have hall : ∀ c ∈ before ++ behind, isBlank c := by
      intro c hc
      rcases List.mem_append.1 hc with hc | hc
      · exact hbefore c hc
      · exact hbehind c hc
    have hnone : (before ++ behind ++ []).dropWhile isBlank = [] :=
      dropWhile_isBlank_append hall hcs.head
    rw [List.append_nil] at hnone ⊢
    rw [trimChars, hnone]
    rfl
  | cons c cs =>
    have hhead : ∀ d ∈ (c :: cs ++ behind).head?, isBlank d = false := hcs.head
    rw [List.append_assoc, trimChars, dropWhile_isBlank_append hbefore hhead,
      trimRight_append hcs.last hbehind]

end Text

/-! ## Tight lines -/

/-- The text stands on one line and ends in a character that is not blank. -/
structure IsTight (line : String) : Prop where
  feed : '\n' ∉ line.toList
  last : ∃ c, line.toList.getLast? = some c ∧ Text.isBlank c = false

theorem isTight_iff {line : String} : IsTight line ↔
    '\n' ∉ line.toList ∧ line.toList.getLast?.any fun c => !Text.isBlank c := by
  constructor
  · rintro ⟨hfeed, c, hlast, hc⟩
    rw [hlast]
    simp [hfeed, hc]
  · rintro ⟨hfeed, hlast⟩
    refine ⟨hfeed, ?_⟩
    cases hc : line.toList.getLast? with
    | none =>
      rw [hc] at hlast
      cases hlast
    | some c =>
      rw [hc] at hlast
      exact ⟨c, rfl, by simpa using hlast⟩

instance (line : String) : Decidable (IsTight line) :=
  decidable_of_iff' _ isTight_iff

theorem getLast?_append {front line : String} {c : Char} (h : line.toList.getLast? = some c) :
    (front ++ line).toList.getLast? = some c := by
  rw [String.toList_append, List.getLast?_append, h]
  rfl

/-- What stands in front of a tight line may be anything without a line feed. -/
theorem IsTight.append {front line : String} (hfront : '\n' ∉ front.toList) (h : IsTight line) :
    IsTight (front ++ line) := by
  obtain ⟨c, hlast, hc⟩ := h.last
  refine ⟨?_, c, getLast?_append hlast, hc⟩
  rw [String.toList_append, List.mem_append, not_or]
  exact ⟨hfront, h.feed⟩

/-- A numeral has no line feed. -/
theorem feed_not_mem_toDigits (n : Nat) : '\n' ∉ Nat.toDigits 10 n := by
  intro hmem
  have hdigit := Nat.isDigit_of_mem_toDigits (by decide) (by decide) hmem
  revert hdigit
  decide

/-! ## Faults -/

/-- The character that no token starts with is the first one scanned. -/
theorem eq_of_scan_unexpectedChar {c d : Char} {cs : List Char}
    (h : (scan c cs).result = .error (.unexpectedChar d)) : d = c := by
  have htaken : (scan c cs).taken = [d] := scan_takes c cs _ h
  have hsplit := scan_eq c cs
  rw [htaken] at hsplit
  exact (List.cons.inj hsplit).1

/-- No lexical error is about a blank. -/
theorem Cursor.isBlank_of_error_lexemes (c : Cursor) : ∀ l ∈ c.lexemes, ∀ e d,
    l.result = .error e → e.cause = .unexpectedChar d → Text.isBlank d = false := by
  refine lexemes_induction (motive := fun ls => ∀ l ∈ ls, ∀ e d,
    l.result = .error e → e.cause = .unexpectedChar d → Text.isBlank d = false) ?_ ?_ c
  · intro p l hl e d he
    obtain rfl := List.mem_singleton.1 hl
    cases he
  · intro c cs p lexemes hc ih l hl e d he hcause
    rcases List.mem_cons.1 hl with rfl | hl
    · obtain ⟨cause, hresult, rfl⟩ := Scan.error_of_lexeme he
      obtain rfl : cause = .unexpectedChar d := hcause
      rw [eq_of_scan_unexpectedChar hresult]
      exact hc
    · exact ih l hl e d he hcause

/-- The fault is about what was read: a lexical error, or a token where something else is
expected. -/
def Fault.Concerns (f : Fault) : Except LexicalError Token → Prop
  | .error e => f.cause = .lexical e.cause
  | .ok t => ∃ x, f.cause = .unexpected x t

/-- Every fault is about a lexeme. -/
theorem Parser.exists_concerns {s : State} {lexemes : List Lexeme} {f : Fault}
    (h : f ∈ wrong (events s lexemes)) : ∃ l ∈ lexemes, f.Concerns l.result := by
  induction lexemes generalizing s with
  | nil => cases h
  | cons l lexemes ih =>
    have hlater : ∀ s', f ∈ wrong (events s' lexemes) →
        ∃ l' ∈ l :: lexemes, f.Concerns l'.result := by
      intro s' hf
      obtain ⟨l', hl', hconcerns⟩ := ih hf
      exact ⟨l', List.mem_cons_of_mem l hl', hconcerns⟩
    obtain ⟨result, start⟩ := l
    cases result with
    | error e =>
      rw [events, wrong_fault] at h
      rcases List.mem_cons.1 h with rfl | hf
      · exact ⟨_, List.mem_cons_self, rfl⟩
      · exact hlater s hf
    | ok t =>
      rw [events, wrong_append] at h
      rcases List.mem_append.1 h with hf | hf
      · rcases wrong_step s t start with hnone | ⟨x, hone⟩
        · rw [hnone] at hf
          cases hf
        · rw [hone] at hf
          obtain rfl := List.mem_singleton.1 hf
          exact ⟨_, List.mem_cons_self, x, rfl⟩
      · exact hlater _ hf

/-- The spelling of a well-formed token has no line feed. -/
theorem Token.WellFormed.feed_not_mem {t : Token} (h : t.WellFormed) :
    '\n' ∉ t.spelling.toList := by
  by_cases hs : ∃ text, t = .string text
  · obtain ⟨text, rfl⟩ := hs
    obtain ⟨body, hplain, rfl⟩ := h
    rw [Token.spelling, toList_quote]
    simp [feed_not_mem_of_isPlain hplain]
  · have hbare := h.isBare fun text ht => hs ⟨text, ht⟩
    exact feed_not_mem_of_isPlain (Text.isPlain_of_isBare hbare)

/-- A token is shown on a tight line. -/
theorem Token.isTight_describe {t : Token} (h : '\n' ∉ t.spelling.toList) : IsTight t.describe := by
  have hquote : IsTight "'" := by decide +kernel
  have hspelling : IsTight ("'" ++ t.spelling ++ "'") := by
    refine IsTight.append ?_ hquote
    rw [String.toList_append, List.mem_append, not_or]
    exact ⟨by decide +kernel, h⟩
  cases t with
  | eof => decide +kernel
  | _ => exact hspelling

theorem FaultCause.isTight_message_lexical {cause : LexicalCause}
    (h : cause ≠ .unexpectedChar '\n') : IsTight (FaultCause.lexical cause).message := by
  cases cause with
  | unexpectedChar c =>
    have hquote : IsTight "'" := by decide +kernel
    have hc : '\n' ≠ c := by
      rintro rfl
      exact h rfl
    refine IsTight.append ?_ hquote
    simp [hc]
  | unterminatedString => decide +kernel
  | missingFieldName => decide +kernel

theorem FaultCause.isTight_message_unexpected (x : Expectation) {t : Token}
    (h : '\n' ∉ t.spelling.toList) : IsTight (FaultCause.unexpected x t).message := by
  have hx : '\n' ∉ x.text.toList := by
    cases x <;> decide +kernel
  refine IsTight.append ?_ (Token.isTight_describe h)
  simp [hx]

/-- **A fault is shown on a tight line.** -/
theorem isTight_display_of_mem_faults {source : String} {f : Fault}
    (h : f ∈ faults (Cursor.ofString source).lexemes) : IsTight f.display := by
  have hplace : '\n' ∉ ("Line " ++ f.position.text ++ " - ").toList := by
    simp [Position.text, feed_not_mem_toDigits]
  refine IsTight.append hplace ?_
  obtain ⟨l, hl, hconcerns⟩ := Parser.exists_concerns h
  cases hresult : l.result with
  | error e =>
    rw [hresult] at hconcerns
    rw [Fault.message, hconcerns]
    apply FaultCause.isTight_message_lexical
    intro hfeed
    have hblank := Cursor.isBlank_of_error_lexemes _ l hl e '\n' hresult hfeed
    revert hblank
    decide
  | ok t =>
    rw [hresult] at hconcerns
    obtain ⟨x, hcause⟩ := hconcerns
    rw [Fault.message, hcause]
    apply FaultCause.isTight_message_unexpected
    by_cases heof : t = .eof
    · subst heof
      exact List.not_mem_nil
    · have hmem : .ok t ∈ (Cursor.ofString source).lexemes.map Lexeme.result :=
        hresult ▸ List.mem_map_of_mem hl
      exact (Cursor.wellFormed_lexemes _ t hmem heof).feed_not_mem

/-! ## Findings -/

/-- A problem of a writable stage is told on a tight line. -/
theorem Problem.isTight_message {rules : Rules} {p : Progress} {stage : Stage} {problem : Problem}
    (hstage : stage.IsWritable) (h : problem.Holds rules p stage) : IsTight problem.message := by
  cases problem with
  | repeatedLoad => decide +kernel
  | loadMissing keyword =>
    obtain ⟨-, -, -, rfl⟩ := h
    have hend : IsTight " requires a preceding LOAD" := by decide +kernel
    refine IsTight.append ?_ hend
    cases stage <;> simp [Stage.keyword]
  | filterAfterSelect => decide +kernel
  | emptyLoadPath => decide +kernel
  | emptySavePath => decide +kernel
  | typeMismatch left leftType right rightType =>
    obtain ⟨⟨op, rfl⟩, -⟩ := h
    have hleft := feed_not_mem_of_isPlain hstage.1
    have hright := feed_not_mem_of_isPlain hstage.2
    have hname : ∀ t : FieldType, IsTight t.name := by
      intro t
      cases t <;> decide +kernel
    refine IsTight.append ?_ (hname rightType)
    simp [hleft, hright, (hname leftType).feed]
  | stringOperator op =>
    have hend : IsTight "' is invalid for strings. Use '==' or '!='." := by decide +kernel
    refine IsTight.append ?_ hend
    cases op <;> decide +kernel

/-- **A finding is shown on a tight line.** -/
theorem isTight_display_of_mem_findings {rules : Rules} {source : String} {program : List Statement}
    (hparse : parse source = .ok program) {f : Finding}
    (h : f ∈ (review rules program).findings) : IsTight f.display := by
  rw [findings_review] at h
  obtain ⟨c, hc, -, q, hproblem⟩ := exists_command_of_mem_findingsAfter h
  have hmem : c.item ∈ stagesOf program := by
    rw [← item_commands]
    exact List.mem_map_of_mem hc
  have hline : '\n' ∉ ("ERROR (Line " ++ toString f.line ++ "): ").toList := by
    simp [feed_not_mem_toDigits]
  exact IsTight.append hline
    (Problem.isTight_message (isWritable_of_parse hparse _ hmem) (mem_problems_iff.1 hproblem))

/-! ## Instructions -/

theorem getLast?_text (i : Script.Instruction) : i.text.toList.getLast? = some ';' := by
  unfold Script.Instruction.text
  cases i <;> exact getLast?_append (by decide +kernel)

/-- **The line of an instruction is tight.** -/
theorem isTight_text {stage : Stage} (h : stage.IsWritable) (s : Script.Scope) :
    IsTight (s.instruction stage).text :=
  ⟨Script.feed_not_mem_text h s, ';', getLast?_text _, by decide⟩

/-! ## The lines of a report -/

/-- The lines of a script. -/
def scriptLines (stages : List Stage) : List String :=
  ["// Generated automatically", "const fs = require('fs');", ""] ++
    (Script.Scope.instructions {} stages).map Script.Instruction.text

/-- The lines of the report on an outcome.  Without commands the script ends in an empty line, and the
report ends before it. -/
def reportLines : Except Failure Compiled → List String
  | .ok compiled =>
    let lines := scriptLines (compiled.commands.map Located.item)
    Verdict.successBanner :: "" :: if compiled.commands.isEmpty then lines.dropLast else lines
  | .error (.malformed faults) => faults.map fun f => "SYNTAX ERROR: " ++ f.display
  | .error (.invalid findings) => Verdict.invalidBanner :: findings.map Finding.display
  | .error (.internal message) => [Verdict.internalBanner, message]

theorem intercalate_feed_cons (line : String) {lines : List String} (h : lines ≠ []) :
    "\n".intercalate (line :: lines) = line ++ "\n" ++ "\n".intercalate lines := by
  obtain ⟨next, lines, rfl⟩ := List.exists_cons_of_ne_nil h
  exact String.intercalate_cons_cons

/-- One more line that is empty adds a line feed. -/
theorem intercalate_concat_empty (line : String) (lines : List String) :
    "\n".intercalate (line :: lines ++ [""]) = "\n".intercalate (line :: lines) ++ "\n" := by
  induction lines generalizing line with
  | nil => simp
  | cons next lines ih =>
    rw [List.cons_append, List.cons_append, String.intercalate_cons_cons, ← List.cons_append, ih,
      String.intercalate_cons_cons]
    simp only [String.append_assoc]

/-- Lines that each end in a line feed. -/
theorem join_map_append_feed (lines : List String) :
    String.join (lines.map fun line => line ++ "\n") = "\n".intercalate (lines ++ [""]) := by
  induction lines with
  | nil => simp
  | cons line lines ih =>
    have hne : lines ++ [""] ≠ [] :=
      List.append_ne_nil_of_right_ne_nil lines (List.cons_ne_nil "" [])
    rw [List.map_cons, String.join_cons, ih, List.cons_append, intercalate_feed_cons line hne]

/-- Lines behind a first one, each in a new line. -/
theorem append_join_feed (line : String) (lines : List String) :
    line ++ String.join (lines.map fun next => "\n" ++ next) = "\n".intercalate (line :: lines) := by
  induction lines generalizing line with
  | nil => simp
  | cons next lines ih =>
    rw [List.map_cons, String.join_cons, String.intercalate_cons_cons, ← ih, String.append_assoc,
      String.append_assoc]

/-- A script consists of its lines. -/
theorem scriptOf_eq (stages : List Stage) :
    scriptOf stages = "\n".intercalate (scriptLines stages) ++ "\n" := by
  have hprologue : Script.prologue = String.join
      (["// Generated automatically", "const fs = require('fs');", ""].map fun l => l ++ "\n") := by
    decide +kernel
  have hinstructions : Script.lines stages = ((Script.Scope.instructions {} stages).map
      Script.Instruction.text).map fun l => l ++ "\n" := by
    rw [Script.lines, List.map_map]
    rfl
  rw [scriptOf, hprologue, hinstructions, ← String.join_append, ← List.map_append,
    join_map_append_feed, ← scriptLines]
  exact intercalate_concat_empty _ _

/-- The lines are those of a report: each is tight or empty, the first one starts with a character that
is not blank, and the last one is tight. -/
structure IsReport (lines : List String) : Prop where
  line : ∀ l ∈ lines, l = "" ∨ IsTight l
  first : ∃ l rest c, lines = l :: rest ∧ l.toList.head? = some c ∧ Text.isBlank c = false
  last : ∀ l ∈ lines.getLast?, IsTight l

/-- Lines that are all tight are those of a report, if the first one starts as it should. -/
theorem isReport_of_isTight {line : String} {lines : List String}
    (hline : ∀ l ∈ line :: lines, IsTight l) {c : Char} (hhead : line.toList.head? = some c)
    (hc : Text.isBlank c = false) : IsReport (line :: lines) where
  line := fun l hl => Or.inr (hline l hl)
  first := ⟨line, lines, c, rfl, hhead, hc⟩
  last := fun l hl => hline l (List.mem_of_getLast? hl)

/-- Lines that end tightly end so when they are joined. -/
theorem exists_getLast?_intercalate {lines : List String} (hne : lines ≠ [])
    (h : ∀ l ∈ lines.getLast?, IsTight l) :
    ∃ c, ("\n".intercalate lines).toList.getLast? = some c ∧ Text.isBlank c = false := by
  induction lines with
  | nil => exact absurd rfl hne
  | cons line lines ih =>
    by_cases hlines : lines = []
    · subst hlines
      rw [String.intercalate_singleton]
      exact (h line rfl).last
    · rw [List.getLast?_cons, List.getLast?_eq_some_getLast hlines] at h
      obtain ⟨c, hlast, hc⟩ := ih hlines (by rw [List.getLast?_eq_some_getLast hlines]; exact h)
      rw [intercalate_feed_cons line hlines]
      exact ⟨c, getLast?_append hlast, hc⟩

/-- There is nothing to trim at the lines of a report. -/
theorem IsReport.isTrimmed {lines : List String} (h : IsReport lines) :
    Text.IsTrimmed ("\n".intercalate lines).toList := by
  obtain ⟨line, rest, c, rfl, hhead, hc⟩ := h.first
  constructor
  · rw [toList_intercalate_cons, List.head?_append, hhead]
    intro d hd
    obtain rfl := Option.some.inj hd
    exact hc
  · obtain ⟨d, hlast, hd⟩ := exists_getLast?_intercalate (List.cons_ne_nil line rest) h.last
    rw [hlast]
    intro e he
    obtain rfl := Option.some.inj he
    exact hd

/-! ## Outcomes of a compilation -/

/-- How the compilation of a text comes out: it has faults, or its program has findings, or it yields
a script. -/
inductive CompilesTo (rules : Rules) (source : String) : Except Failure Compiled → Prop where
  | malformed (h : faults (Cursor.ofString source).lexemes ≠ []) :
    CompilesTo rules source (.error (.malformed (faults (Cursor.ofString source).lexemes)))
  | invalid {program : List Statement} (hparse : parse source = .ok program)
      (h : (review rules program).findings ≠ []) :
    CompilesTo rules source (.error (.invalid (review rules program).findings))
  | success {program : List Statement} (hparse : parse source = .ok program)
      (h : (review rules program).findings = []) :
    CompilesTo rules source (.ok ⟨program.map commandOf, scriptOf (stagesOf program)⟩)

/-- **Every compilation comes out in one of the three ways**, and no step breaks down. -/
theorem compilesTo_compile (rules : Rules) (source : String) :
    CompilesTo rules source (compile rules source) := by
  have hparse := parse_eq_recorded source
  split at hparse
  next hnone =>
    rw [compile_of_parse hparse, compileProgram]
    split
    next hvalid =>
      rw [Review.isValid, List.isEmpty_iff] at hvalid
      rw [commands_review, item_commands]
      exact .success hparse hvalid
    next hinvalid =>
      refine .invalid hparse ?_
      rwa [Review.isValid, List.isEmpty_iff] at hinvalid
  next hfaults =>
    have hcompile : compile rules source =
        .error (.malformed (faults (Cursor.ofString source).lexemes)) := by
      rw [compile, Attempt.settle, compileStages, hparse]
    rw [hcompile]
    exact .malformed hfaults

/-- The lines of instructions are tight. -/
theorem isTight_instructions {stages : List Stage} (h : ∀ stage ∈ stages, stage.IsWritable)
    (s : Script.Scope) :
    ∀ l ∈ (s.instructions stages).map Script.Instruction.text, IsTight l := by
  induction stages generalizing s with
  | nil => simp [Script.Scope.instructions]
  | cons stage stages ih =>
    rw [List.forall_mem_cons] at h
    rw [Script.Scope.instructions, List.map_cons, List.forall_mem_cons]
    exact ⟨isTight_text h.1 s, ih h.2 _⟩

/-- The first lines of a report on a success, up to the first instruction. -/
def openingLines : List String :=
  [Verdict.successBanner, "", "// Generated automatically", "const fs = require('fs');", ""]

theorem isTight_openingLines : ∀ l ∈ openingLines, l = "" ∨ IsTight l := by
  simp only [openingLines, List.forall_mem_cons]
  refine ⟨Or.inr ?_, Or.inl trivial, Or.inr ?_, Or.inr ?_, Or.inl trivial, by simp⟩
  · decide +kernel
  · decide +kernel
  · decide +kernel

/-- The report on a success without commands. -/
theorem isReport_openingLines : IsReport openingLines.dropLast where
  line := fun l hl => isTight_openingLines l (List.dropLast_subset _ hl)
  first := ⟨Verdict.successBanner, _, '✔', rfl, by decide +kernel, by decide⟩
  last := by
    intro l hl
    obtain rfl : "const fs = require('fs');" = l := Option.some.inj hl
    decide +kernel

/-- The report on a success with some commands. -/
theorem isReport_append {lines : List String} (hne : lines ≠ []) (h : ∀ l ∈ lines, IsTight l) :
    IsReport (openingLines ++ lines) where
  line := by
    intro l hl
    rcases List.mem_append.1 hl with hl | hl
    · exact isTight_openingLines l hl
    · exact Or.inr (h l hl)
  first := ⟨Verdict.successBanner, _, '✔', rfl, by decide +kernel, by decide⟩
  last := by
    intro l hl
    rw [List.getLast?_append, List.getLast?_eq_some_getLast hne] at hl
    obtain rfl := Option.some.inj hl
    exact h _ (List.getLast_mem hne)

/-- **The lines of a report are tight, but for the empty ones**, and those at its two ends are not
empty. -/
theorem isReport_reportLines {rules : Rules} {source : String} {outcome : Except Failure Compiled}
    (h : CompilesTo rules source outcome) : IsReport (reportLines outcome) := by
  cases h with
  | malformed hne =>
    have hline : ∀ l ∈ reportLines (.error (.malformed (faults (Cursor.ofString source).lexemes))),
        IsTight l := by
      intro l hl
      obtain ⟨f, hf, rfl⟩ := List.mem_map.1 hl
      exact IsTight.append (by decide +kernel) (isTight_display_of_mem_faults hf)
    obtain ⟨f, fs, hfaults⟩ := List.exists_cons_of_ne_nil hne
    rw [hfaults] at hline ⊢
    refine isReport_of_isTight hline (c := 'S') ?_ (by decide)
    simp
  | invalid hparse hne =>
    refine isReport_of_isTight (c := '✖') ?_ (by decide +kernel) (by decide)
    rw [List.forall_mem_cons]
    refine ⟨by decide +kernel, ?_⟩
    intro l hl
    obtain ⟨f, hf, rfl⟩ := List.mem_map.1 hl
    exact isTight_display_of_mem_findings hparse hf
  | @success program hparse hnone =>
    have htight := isTight_instructions (isWritable_of_parse hparse) {}
    rw [← item_commands] at htight
    cases program with
    | nil => exact isReport_openingLines
    | cons s program => exact isReport_append (List.cons_ne_nil _ _) htight

/-- The text of a success consists of the lines of the script behind the banner, each of them ended by a
line feed. -/
theorem text_success (stages : List Stage) : (Verdict.success (scriptOf stages)).text =
    "\n".intercalate (Verdict.successBanner :: "" :: scriptLines stages) ++ "\n" := by
  have hfeeds : "\n\n" = "\n" ++ ("" ++ "\n") := by decide +kernel
  have hlines : scriptLines stages ≠ [] := List.cons_ne_nil _ _
  rw [Verdict.text, scriptOf_eq, hfeeds, intercalate_feed_cons _ (List.cons_ne_nil "" _),
    intercalate_feed_cons "" hlines]
  simp only [String.append_assoc]

/-- What trimming takes away behind the report on an outcome: the line feed that ends a script, and
the one before it if the script ends in an empty line. -/
def feedsBehind : Except Failure Compiled → String
  | .ok compiled => if compiled.commands.isEmpty then "\n\n" else "\n"
  | .error _ => ""

theorem isBlank_feedsBehind (outcome : Except Failure Compiled) :
    ∀ c ∈ (feedsBehind outcome).toList, Text.isBlank c := by
  cases outcome with
  | error failure => simp [feedsBehind]
  | ok compiled =>
    rw [feedsBehind]
    split
    · simp [Text.isBlank]
    · simp [Text.isBlank]

/-- **The text of a verdict consists of the lines of the report**, and the line feeds behind them. -/
theorem text_verdict {rules : Rules} {source : String} {outcome : Except Failure Compiled}
    (h : CompilesTo rules source outcome) :
    (verdict outcome).text = "\n".intercalate (reportLines outcome) ++ feedsBehind outcome := by
  cases h with
  | malformed =>
    rw [feedsBehind, String.append_empty, verdict, Failure.verdict, Verdict.text, List.map_map]
    rfl
  | invalid =>
    rw [feedsBehind, String.append_empty, verdict, Failure.verdict, Verdict.text, append_join_feed]
    rfl
  | @success program hparse hnone =>
    cases program with
    | nil =>
      -- The last line is empty, and its line feed is trimmed too.
      have hfeeds : "\n\n" = "\n" ++ "\n" := by decide +kernel
      have hempty := intercalate_concat_empty Verdict.successBanner
        ["", "// Generated automatically", "const fs = require('fs');"]
      rw [feedsBehind, if_pos (by rfl), hfeeds, ← String.append_assoc]
      exact (text_success []).trans (congrArg (· ++ "\n") hempty)
    | cons s program =>
      rw [verdict, text_success, ← item_commands]
      rfl

/-- **A report consists of its lines.** -/
theorem reportOn_eq (rules : Rules) (source : String) :
    reportOn rules source = "\n".intercalate (reportLines (compile rules source)) := by
  have h := compilesTo_compile rules source
  have htrim : Text.trimChars ([] ++ ("\n".intercalate (reportLines (compile rules source))).toList ++
      (feedsBehind (compile rules source)).toList) = _ :=
    Text.trimChars_append (by simp) (isReport_reportLines h).isTrimmed (isBlank_feedsBehind _)
  rw [List.nil_append] at htrim
  rw [reportOn, Verdict.report, Text.trim, text_verdict h, String.toList_append, htrim,
    String.ofList_toList]

end QueryPipeline
