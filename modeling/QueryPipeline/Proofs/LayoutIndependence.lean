/-
# Layout does not matter

Two texts with the same lexemes, places apart, compile alike: to the same code and the
same stages, or to the same messages in the same order.  Places enter every lexeme,
statement and fault, but they decide nothing.

* `Parser.State.Similar` : two states that differ in lines only;
* `Parser.step_similar`, `Parser.events_similar` : from similar states, the same token, or
  the same lexemes, yield the same events, places apart;
* `compileProgram_agree` : programs of the same clauses have the same outcome;
* `compile_agree_of_contents` : texts of the same lexemes have the same outcome.

The messages of a text that does not parse come in the order of their places.  That this
is the same order for both texts rests on `parse_eq_recorded`.
-/
import QueryPipeline.Proofs.Findings
import QueryPipeline.Proofs.ReadingOrder

namespace QueryPipeline

/-! ## Parsing without places -/

namespace Parser

/-- What an event settles, apart from its place. -/
def Event.content : Event → Clause ⊕ FaultCause
  | statement s => .inl s.item
  | fault e => .inr e.cause

/-- The states differ at most in the line of the open statement. -/
inductive State.Similar : State → State → Prop where
  | ready : Similar .ready .ready
  | skipping : Similar .skipping .skipping
  | drafting (line line' : Nat) (draft : Draft) :
      Similar (.drafting line draft) (.drafting line' draft)
  | listing (line line' : Nat) (fields : List String) :
      Similar (.listing line fields) (.listing line' fields)

/-- The results of a step differ at most in places. -/
def StepSimilar (next next' : List Event × State) : Prop :=
  next.1.map Event.content = next'.1.map Event.content ∧ next.2.Similar next'.2

theorem resume_similar (t : Token) (p p' : Position) : (resume t p).Similar (resume t p') := by
  unfold resume
  split
  next draft _ => exact .drafting p.line p'.line draft
  next => exact .skipping

theorem stepReady_similar (t : Token) (p p' : Position) :
    StepSimilar (stepReady t p) (stepReady t p') := by
  unfold stepReady
  split
  next draft _ => exact ⟨rfl, .drafting p.line p'.line draft⟩
  split
  next => exact ⟨rfl, .ready⟩
  next => exact ⟨rfl, .skipping⟩

/-- Whether a token fits a draft does not depend on lines, nor does what comes of it. -/
theorem stepDraft_similar (line line' : Nat) (draft : Draft) (t : Token) (p p' : Position) :
    StepSimilar (stepDraft line draft t p) (stepDraft line' draft t p') := by
  cases draft.reading t with
  | refused hextend =>
    rw [stepDraft, stepDraft, hextend, hextend]
    exact ⟨rfl, resume_similar t p p'⟩
  | completed clause _ _ _ hextend =>
    rw [stepDraft, stepDraft, hextend, hextend]
    exact ⟨rfl, .ready⟩
  | continued next _ _ hextend =>
    rw [stepDraft, stepDraft, hextend, hextend]
    exact ⟨rfl, .drafting line line' next⟩
  | listed fields _ _ _ hextend =>
    rw [stepDraft, stepDraft, hextend, hextend]
    exact ⟨rfl, .listing line line' fields⟩

/-- **A step does not look at places.** -/
theorem step_similar {s s' : State} (h : s.Similar s') (t : Token) (p p' : Position) :
    StepSimilar (step s t p) (step s' t p') := by
  cases h with
  | ready => exact stepReady_similar t p p'
  | skipping => exact ⟨rfl, resume_similar t p p'⟩
  | drafting line line' draft => exact stepDraft_similar line line' draft t p p'
  | listing line line' fields =>
    by_cases hcomma : t = .comma
    · subst hcomma
      exact ⟨rfl, .drafting line line' (.select fields)⟩
    · obtain ⟨hevents, hstate⟩ := stepReady_similar t p p'
      rw [step_listing hcomma, step_listing hcomma]
      refine ⟨?_, hstate⟩
      rw [List.map_cons, List.map_cons, hevents]
      rfl

/-- **A run does not look at places.**  The induction is on the lexemes of one text; those of the
other follow them in step. -/
theorem events_similar {lexemes lexemes' : List Lexeme}
    (h : lexemes.map Lexeme.content = lexemes'.map Lexeme.content) {s s' : State}
    (hs : s.Similar s') :
    (events s lexemes).map Event.content = (events s' lexemes').map Event.content := by
  induction lexemes generalizing lexemes' s s' with
  | nil =>
    obtain rfl := List.map_eq_nil_iff.1 h.symm
    rfl
  | cons l lexemes ih =>
    obtain ⟨l', lexemes', rfl, hcontent, hrest⟩ := List.map_eq_cons_iff.1 h.symm
    obtain ⟨result, p⟩ := l
    obtain ⟨result', p'⟩ := l'
    cases result with
    | error e =>
      cases result' with
      | ok t' => cases hcontent
      | error e' =>
        have hcause : e'.cause = e.cause := Sum.inr.inj hcontent
        rw [events, events, List.map_cons, List.map_cons, ih hrest.symm hs]
        simp only [Event.content, hcause]
    | ok t =>
      cases result' with
      | error e' => cases hcontent
      | ok t' =>
        obtain rfl : t' = t := Sum.inl.inj hcontent
        obtain ⟨hevents, hstate⟩ := step_similar hs t' p p'
        rw [events, events, List.map_append, List.map_append, hevents, ih hrest.symm hstate]

/-- The clauses among some events. -/
theorem item_found (es : List Event) :
    (found es).map Located.item = (es.map Event.content).filterMap Sum.getLeft? := by
  induction es with
  | nil => rfl
  | cons e es ih =>
    cases e with
    | statement s => exact congrArg (s.item :: ·) ih
    | fault f => exact ih

/-- The causes among some events. -/
theorem cause_wrong (es : List Event) :
    (wrong es).map Fault.cause = (es.map Event.content).filterMap Sum.getRight? := by
  induction es with
  | nil => rfl
  | cons e es ih =>
    cases e with
    | statement s => exact ih
    | fault f => exact congrArg (f.cause :: ·) ih

end Parser

/-- Lexemes of the same contents hold the same clauses. -/
theorem item_statements_of_contents {lexemes lexemes' : List Lexeme}
    (h : lexemes.map Lexeme.content = lexemes'.map Lexeme.content) :
    (statements lexemes).map Located.item = (statements lexemes').map Located.item := by
  have hevents := Parser.events_similar h .ready
  show (Parser.found _).map Located.item = (Parser.found _).map Located.item
  rw [Parser.item_found, Parser.item_found, hevents]

/-- Lexemes of the same contents have the same faults, in the same order. -/
theorem cause_faults_of_contents {lexemes lexemes' : List Lexeme}
    (h : lexemes.map Lexeme.content = lexemes'.map Lexeme.content) :
    (faults lexemes).map Fault.cause = (faults lexemes').map Fault.cause := by
  have hevents := Parser.events_similar h .ready
  show (Parser.wrong _).map Fault.cause = (Parser.wrong _).map Fault.cause
  rw [Parser.cause_wrong, Parser.cause_wrong, hevents]

/-! ## Compiling without places -/

/-- The outcomes differ at most in places: both texts do not parse, or both programs are invalid,
with the same messages in the same order; or both compile to the same code and the same stages. -/
def Agree : Except Failure Compiled → Except Failure Compiled → Prop
  | .error (.malformed fs), .error (.malformed gs) => fs.map Fault.message = gs.map Fault.message
  | .error (.invalid fs), .error (.invalid gs) => fs.map Finding.message = gs.map Finding.message
  | .ok a, .ok b => a.code = b.code ∧ a.commands.map Located.item = b.commands.map Located.item
  | _, _ => False

/-- Programs of the same clauses have the same outcome. -/
theorem compileProgram_agree {program program' : List Statement}
    (h : program.map Located.item = program'.map Located.item) (rules : Rules) :
    Agree (compileProgram rules program) (compileProgram rules program') := by
  have hstages : stagesOf program = stagesOf program' := by
    have hmap := congrArg (List.map Clause.stage) h
    rw [List.map_map, List.map_map] at hmap
    exact hmap
  rw [compileProgram_eq, compileProgram_eq, hstages]
  split
  · refine ⟨rfl, ?_⟩
    rw [item_commands, item_commands, hstages]
  · show List.map _ _ = List.map _ _
    rw [message_findings, message_findings, hstages]

/-- **Layout does not matter.**  Two texts whose lexemes up to the end are the same, places apart,
have the same outcome under any rules. -/
theorem compile_agree_of_contents {source source' : String}
    (h : (Cursor.ofString source).lexemes.map Lexeme.content =
      (Cursor.ofString source').lexemes.map Lexeme.content) (rules : Rules) :
    Agree (compile rules source) (compile rules source') := by
  have hitems := item_statements_of_contents h
  have hcauses := cause_faults_of_contents h
  have hnil : faults (Cursor.ofString source).lexemes = [] ↔
      faults (Cursor.ofString source').lexemes = [] := by
    rw [← List.map_eq_nil_iff (f := Fault.cause), hcauses, List.map_eq_nil_iff]
  rw [compile, compile, Attempt.settle, Attempt.settle, compileStages, compileStages,
    parse_eq_recorded, parse_eq_recorded]
  by_cases hfaults : faults (Cursor.ofString source).lexemes = []
  · rw [if_pos hfaults, if_pos (hnil.1 hfaults)]
    exact compileProgram_agree hitems rules
  · rw [if_neg hfaults, if_neg fun hfaults' => hfaults (hnil.2 hfaults')]
    have hmessages := congrArg (List.map FaultCause.message) hcauses
    rw [List.map_map, List.map_map] at hmessages
    exact hmessages

/-- Two lexical errors, a statement that breaks off at a keyword and one that breaks off at the end,
on three lines and on five. -/
theorem compile_agree_across_lines :
    (Cursor.ofString "FILTER .x\n  <\n= @LOAD").lexemes.map Lexeme.content =
      (Cursor.ofString "\n\nFILTER\n.x < =@\nLOAD ").lexemes.map Lexeme.content ∧
    Agree (compile {} "FILTER .x\n  <\n= @LOAD") (compile {} "\n\nFILTER\n.x < =@\nLOAD ") := by
  have h : (Cursor.ofString "FILTER .x\n  <\n= @LOAD").lexemes.map Lexeme.content =
      (Cursor.ofString "\n\nFILTER\n.x < =@\nLOAD ").lexemes.map Lexeme.content := by
    decide +kernel
  exact ⟨h, compile_agree_of_contents h {}⟩

end QueryPipeline
