/-
# The report of all faults

A text that does not parse is reported with all that is wrong with it: the lexical
errors, each of which the lexer would find by itself, and the faults of the grammar
between them.  The report is in reading order without being sorted, and names no place
twice.

* `lexicalErrors` : what the lexer alone finds wrong with a text;
* `fault_mem_wrong_events` : the parser passes on each of these errors, whatever its state;
* `parse_reports_all` : all of it, for a text.
-/
import QueryPipeline.Proofs.ReadingOrder

namespace QueryPipeline

/-- The lexical error that a lexeme is, if it is one. -/
def Lexeme.error? (l : Lexeme) : Option LexicalError :=
  match l.result with
  | .ok _ => none
  | .error e => some e

/-- What the lexer alone finds wrong with a text, up to its end. -/
def lexicalErrors (source : String) : List LexicalError :=
  (Cursor.ofString source).lexemes.filterMap Lexeme.error?

/-- The fault that a lexical error is to the parser. -/
def LexicalError.fault (e : LexicalError) : Fault :=
  ⟨e.position, .lexical e.cause⟩

namespace Parser

/-- **No lexical error is lost.**  The parser notes it, in whatever state it is. -/
theorem fault_mem_wrong_events {e : LexicalError} {lexemes : List Lexeme}
    (h : e ∈ lexemes.filterMap Lexeme.error?) (s : State) : e.fault ∈ wrong (events s lexemes) := by
  induction lexemes generalizing s with
  | nil => cases h
  | cons l lexemes ih =>
    obtain ⟨result, p⟩ := l
    cases result with
    | ok t =>
      rw [events, wrong_append]
      exact List.mem_append_right _ (ih h _)
    | error e' =>
      rw [events, wrong_fault]
      rcases List.mem_cons.1 h with rfl | h
      · exact List.mem_cons_self
      · exact List.mem_cons_of_mem _ (ih h s)

end Parser

/-- Among faults at different places, one that is told by its place occurs once. -/
theorem countP_eq_one_of_pairwise {fs : List Fault}
    (h : fs.Pairwise fun a b => a.position.lt b.position) {f : Fault} (hf : f ∈ fs)
    {P : Fault → Bool} (hP : P f) (hplace : ∀ g, P g → g.position = f.position) :
    fs.countP P = 1 := by
  induction fs with
  | nil => cases hf
  | cons g fs ih =>
    obtain ⟨hg, hfs⟩ := List.pairwise_cons.1 h
    rcases List.mem_cons.1 hf with rfl | hf
    · have hrest : fs.countP P = 0 := by
        rw [List.countP_eq_zero]
        intro g' hg' hPg
        apply Position.lt_irrefl f.position
        have hlt := hg g' hg'
        rwa [hplace g' hPg] at hlt
      rw [List.countP_cons_of_pos hP, hrest]
    · have hPg : ¬ P g := by
        intro hPg
        apply Position.lt_irrefl f.position
        have hlt := hg f hf
        rwa [hplace g hPg] at hlt
      rw [List.countP_cons_of_neg hPg]
      exact ih hfs hf

/-- **A failed parse reports everything, once and in order.**  The faults of a text are each strictly
before the next one, already as they are noticed, so that putting them in order changes nothing.
Each error that the lexer alone finds occurs exactly once among them, at its place and in its words,
and a single such error makes the parse fail. -/
theorem parse_reports_all (source : String) :
    let noticed := faults (Cursor.ofString source).lexemes
    (∀ fs, parse source = .error fs →
      fs ≠ [] ∧ (fs.Pairwise fun a b => a.position.lt b.position) ∧
        fs = (noticed.mergeSort fun a b => a.position.le b.position) ∧ fs = noticed ∧
        ∀ e ∈ lexicalErrors source, fs.countP
          (fun f => f.position = e.position ∧ f.message = e.cause.message) = 1) ∧
      (lexicalErrors source ≠ [] → ∃ fs, parse source = .error fs) := by
  intro noticed
  have hordered : noticed.Pairwise fun a b => a.position.lt b.position := pairwise_faults source
  have hsorted : (noticed.mergeSort fun a b => a.position.le b.position) = noticed :=
    List.mergeSort_of_pairwise (hordered.imp Position.le_of_lt)
  have hnoticed : ∀ e ∈ lexicalErrors source, e.fault ∈ noticed := by
    intro e he
    exact Parser.fault_mem_wrong_events he .ready
  rw [parse_eq_recorded]
  constructor
  · intro fs hfs
    split at hfs
    · cases hfs
    next hne =>
      obtain rfl := Except.error.inj hfs
      refine ⟨hne, hordered, hsorted.symm, rfl, ?_⟩
      intro e he
      refine countP_eq_one_of_pairwise hordered (hnoticed e he) ?_ ?_
      · exact decide_eq_true ⟨rfl, rfl⟩
      · intro g hg
        exact (of_decide_eq_true hg).1
  · intro herrors
    obtain ⟨e, he⟩ := List.exists_mem_of_ne_nil _ herrors
    exact ⟨noticed, if_neg (List.ne_nil_of_mem (hnoticed e he))⟩

/-- A stray character before and after a word out of place: the three faults come in the order of
their places. -/
theorem parse_reports_all_stray :
    ∃ fs, parse "LOAD @ 5 #" = .error fs ∧
      fs = [⟨⟨1, 5⟩, .lexical (.unexpectedChar '@')⟩,
        ⟨⟨1, 7⟩, .unexpected .loadPath (.number "5")⟩,
        ⟨⟨1, 9⟩, .lexical (.unexpectedChar '#')⟩] ∧
      ⟨.unexpectedChar '#', ⟨1, 9⟩⟩ ∈ lexicalErrors "LOAD @ 5 #" ∧
      fs.countP (fun f => f.position = ⟨1, 9⟩ ∧ f.message = "unexpected character '#'") = 1 := by
  have herror : ⟨.unexpectedChar '#', ⟨1, 9⟩⟩ ∈ lexicalErrors "LOAD @ 5 #" := by decide +kernel
  obtain ⟨hreport, hfails⟩ := parse_reports_all "LOAD @ 5 #"
  obtain ⟨fs, hfs⟩ := hfails (List.ne_nil_of_mem herror)
  obtain ⟨-, -, -, hnoticed, hcount⟩ := hreport fs hfs
  refine ⟨fs, hfs, ?_, herror, hcount _ herror⟩
  rw [hnoticed]
  decide +kernel

end QueryPipeline
