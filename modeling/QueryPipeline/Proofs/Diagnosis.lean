/-
# Findings without state

A review goes through one or several programs and carries its state from statement to
statement.  What it yields can be told without that state: the commands are those
that the programs describe, the file is the one that the last LOAD names, and what is
wrong with a command depends on the command and on whether a LOAD and a SELECT stand
before it.

* `Progress.ofStages` : what some stages have brought about;
* `Problem.Holds` : when each problem arises; `Problem.rank` : their order on one command;
* `mem_problems_iff`, `pairwise_rank_problems` : a stage has the problems that hold of
  it, in that order;
* `findingsAfter_ofStages` : the run lemma; the state is what the stages before have
  brought about;
* `walk_review` : all of it, for a review of several programs.
-/
import QueryPipeline.Proofs.Findings

namespace QueryPipeline

/-! ## What the stages before a command have brought about -/

namespace Stage

/-- The stage is a LOAD. -/
def isLoad : Stage → Bool
  | load _ => true
  | _ => false

/-- The stage is a SELECT. -/
def isSelect : Stage → Bool
  | select _ => true
  | _ => false

/-- The file that the stage loads. -/
def loadedFile? : Stage → Option String
  | load file => some file
  | _ => none

end Stage

/-- What some stages have brought about: a LOAD is among them, a SELECT is among them. -/
def Progress.ofStages (stages : List Stage) : Progress where
  loaded := stages.any Stage.isLoad
  selected := stages.any Stage.isSelect

/-- One more stage. -/
theorem Progress.after_ofStages (stages : List Stage) (stage : Stage) :
    (ofStages stages).after stage = ofStages (stages ++ [stage]) := by
  cases stage <;> simp [after, ofStages, Stage.isLoad, Stage.isSelect]

/-! ## The problems of one stage -/

namespace Problem

/-- The problem arises with a stage, when the stages before it have brought about `p`.  Problems of
order arise in strict mode only, and a type counts only once there is data. -/
def Holds (rules : Rules) (p : Progress) (stage : Stage) : Problem → Prop
  | repeatedLoad => rules.strictOrder ∧ p.loaded ∧ stage.isLoad
  | loadMissing keyword =>
    rules.strictOrder ∧ p.loaded = false ∧ stage.isLoad = false ∧ keyword = stage.keyword
  | filterAfterSelect =>
    rules.strictOrder ∧ p.selected ∧ ∃ left op right, stage = .filter left op right
  | emptyLoadPath => ∃ file, stage = .load file ∧ Text.trim file = ""
  | emptySavePath => ∃ file, stage = .save file ∧ Text.trim file = ""
  | typeMismatch left leftType right rightType =>
    (∃ op, stage = .filter left op right) ∧ p.loaded ∧ rules.fieldTypes[left]? = some leftType ∧
      operandType? rules.fieldTypes right = some rightType ∧ leftType ≠ rightType
  | stringOperator op =>
    op.appliesToStrings = false ∧ p.loaded ∧
      ∃ left right, stage = .filter left op right ∧ rules.fieldTypes[left]? = some .string

/-- The order of the problems of one stage: first its place, then what it says. -/
def rank : Problem → Nat
  | repeatedLoad | loadMissing _ => 0
  | filterAfterSelect => 1
  | emptyLoadPath | emptySavePath | typeMismatch _ _ _ _ => 2
  | stringOperator _ => 3

/-- Problems of order rank below the others. -/
theorem rank_lt_two_iff {problem : Problem} : problem.rank < 2 ↔ problem.isOrdering := by
  cases problem <;> simp [rank, isOrdering]

end Problem

/-- No type is declared in the empty table. -/
theorem FieldTable.getElem?_empty (path : String) : FieldTable.empty[path]? = none :=
  Std.ExtTreeMap.getElem?_empty

/-- In strict mode, the problems of order that hold of a stage. -/
theorem mem_orderProblems_iff {rules : Rules} (strict : rules.strictOrder = true) {p : Progress}
    {stage : Stage} {problem : Problem} :
    problem ∈ orderProblems p stage ↔ problem.isOrdering ∧ problem.Holds rules p stage := by
  obtain ⟨loaded, selected⟩ := p
  cases stage <;> cases problem <;>
    simp [orderProblems, Problem.isOrdering, Problem.Holds, strict, Stage.isLoad]

/-- The sides of a comparison have two known types, and they differ. -/
theorem mem_mismatchProblems_iff {types : FieldTable} {left right : String} {problem : Problem} :
    problem ∈ mismatchProblems types left right ↔
      ∃ l r, types[left]? = some l ∧ operandType? types right = some r ∧ l ≠ r ∧
        problem = .typeMismatch left l right r := by
  unfold mismatchProblems
  split
  next l r hl hr =>
    rw [hl, hr]
    by_cases heq : l = r <;> simp [heq]
  next hunknown =>
    simp only [List.not_mem_nil, false_iff]
    rintro ⟨l, r, hl, hr, -⟩
    exact hunknown l r hl hr

/-- The left side is a text, and the operator is not for texts. -/
theorem mem_operatorProblems_iff {types : FieldTable} {left : String} {op : Comparison}
    {problem : Problem} :
    problem ∈ operatorProblems types left op ↔
      types[left]? = some .string ∧ op.appliesToStrings = false ∧ problem = .stringOperator op := by
  unfold operatorProblems
  split
  next h =>
    obtain ⟨hstring, hop⟩ := h
    simp only [Bool.not_eq_true'] at hop
    simp [hstring, hop]
  next h =>
    simp only [List.not_mem_nil, false_iff]
    rintro ⟨hstring, hop, -⟩
    exact h ⟨hstring, by simp [hop]⟩

/-- The other problems that hold of a stage. -/
theorem mem_contentProblems_iff {rules : Rules} {p : Progress} {stage : Stage} {problem : Problem} :
    problem ∈ contentProblems (if p.loaded then rules.fieldTypes else FieldTable.empty) stage ↔
      problem.isOrdering = false ∧ problem.Holds rules p stage := by
  cases stage with
  | filter left op right =>
    rw [contentProblems, List.mem_append, mem_mismatchProblems_iff, mem_operatorProblems_iff]
    cases hloaded : p.loaded with
    | false =>
      -- Without data no type is known, and a FILTER is wrong in its place at most.
      cases problem <;>
        simp [FieldTable.getElem?_empty, Problem.isOrdering, Problem.Holds, hloaded]
    | true =>
      cases problem with
      | typeMismatch field fieldType operand operandType =>
        simp only [Problem.isOrdering, Problem.Holds, hloaded]
        constructor
        · rintro (⟨l, r, hl, hr, hne, ⟨⟩⟩ | ⟨-, -, ⟨⟩⟩)
          exact ⟨trivial, ⟨op, rfl⟩, trivial, hl, hr, hne⟩
        · rintro ⟨-, ⟨_, ⟨⟩⟩, -, hl, hr, hne⟩
          exact Or.inl ⟨fieldType, operandType, hl, hr, hne, rfl⟩
      | stringOperator op' =>
        simp only [Problem.isOrdering, Problem.Holds, hloaded]
        constructor
        · rintro (⟨l, r, -, -, -, ⟨⟩⟩ | ⟨hstring, hop, ⟨⟩⟩)
          exact ⟨trivial, hop, trivial, left, right, rfl, hstring⟩
        · rintro ⟨-, hop, -, _, _, ⟨⟩, hstring⟩
          exact Or.inr ⟨hstring, hop, rfl⟩
      | _ => simp [Problem.isOrdering, Problem.Holds]
  | _ => cases problem <;> simp [contentProblems, Problem.isOrdering, Problem.Holds]

/-- **The problems of a stage are those that hold of it.** -/
theorem mem_problems_iff {rules : Rules} {p : Progress} {stage : Stage} {problem : Problem} :
    problem ∈ problems rules p stage ↔ problem.Holds rules p stage := by
  rw [problems, List.mem_append, mem_contentProblems_iff]
  cases strict : rules.strictOrder with
  | true =>
    rw [if_pos rfl, mem_orderProblems_iff strict]
    cases problem.isOrdering <;> simp
  | false =>
    cases problem <;> simp [Problem.isOrdering, Problem.Holds, strict]

theorem pairwise_rank_orderProblems (p : Progress) (stage : Stage) :
    (orderProblems p stage).Pairwise fun a b => a.rank < b.rank := by
  obtain ⟨loaded, selected⟩ := p
  cases stage <;> cases loaded <;> cases selected <;> simp [orderProblems, Problem.rank]

theorem pairwise_rank_contentProblems (types : FieldTable) (stage : Stage) :
    (contentProblems types stage).Pairwise fun a b => a.rank < b.rank := by
  cases stage with
  | load file | save file =>
    rw [contentProblems]
    split <;> simp
  | select fields => exact List.Pairwise.nil
  | filter left op right =>
    rw [contentProblems, List.pairwise_append]
    refine ⟨?_, ?_, ?_⟩
    · unfold mismatchProblems
      split
      · split <;> simp
      · exact List.Pairwise.nil
    · unfold operatorProblems
      split <;> simp
    · intro a ha b hb
      obtain ⟨l, r, -, -, -, rfl⟩ := mem_mismatchProblems_iff.1 ha
      obtain ⟨-, -, rfl⟩ := mem_operatorProblems_iff.1 hb
      exact Nat.lt_succ_self 2

/-- **The problems of a stage come in the order of their ranks.** -/
theorem pairwise_rank_problems (rules : Rules) (p : Progress) (stage : Stage) :
    (problems rules p stage).Pairwise fun a b => a.rank < b.rank := by
  have horder : (if rules.strictOrder then orderProblems p stage else []).Pairwise
      fun a b => a.rank < b.rank := by
    split
    · exact pairwise_rank_orderProblems p stage
    · exact List.Pairwise.nil
  rw [problems, List.pairwise_append]
  refine ⟨horder, pairwise_rank_contentProblems _ stage, ?_⟩
  intro a ha b hb
  have hordering : a.isOrdering := by
    split at ha
    · exact isOrdering_of_mem_orderProblems ha
    · cases ha
  have hcontent : b.isOrdering = false := (mem_contentProblems_iff.1 hb).1
  have hlow := Problem.rank_lt_two_iff.2 hordering
  have hhigh : ¬ b.rank < 2 := by
    rw [Problem.rank_lt_two_iff, hcontent]
    exact Bool.false_ne_true
  omega

/-! ## The run of a review -/

/-- The findings of some commands, each with its place among them: what is wrong with a command
depends on what the stages before it have brought about. -/
def indexedFindings (rules : Rules) (commands : List Command) : List Finding :=
  commands.zipIdx.flatMap fun x =>
    (problems rules (Progress.ofStages ((commands.take x.2).map Located.item)) x.1.item).map
      fun problem => ⟨x.1.line, problem⟩

/-- **The state of a review is what the stages before have brought about.**  The commands `before`
have been checked, and the induction is on those still to come. -/
theorem findingsAfter_ofStages (rules : Rules) (before commands : List Command) :
    findingsAfter rules (Progress.ofStages (before.map Located.item)) commands =
      (commands.zipIdx before.length).flatMap fun x =>
        (problems rules
          (Progress.ofStages (((before ++ commands).take x.2).map Located.item)) x.1.item).map
          fun problem => ⟨x.1.line, problem⟩ := by
  induction commands generalizing before with
  | nil => rfl
  | cons c commands ih =>
    have hnext := ih (before ++ [c])
    rw [List.map_append, List.map_singleton, List.length_append, List.length_singleton,
      List.append_assoc, List.singleton_append] at hnext
    rw [findingsAfter, Progress.after_ofStages, hnext, List.zipIdx_cons, List.flatMap_cons,
      List.take_left]

theorem findings_review_indexed (rules : Rules) (program : List Statement) :
    (review rules program).findings = indexedFindings rules (program.map commandOf) := by
  rw [findings_review]
  exact findingsAfter_ofStages rules [] (program.map commandOf)

/-- The file of a pipeline is the one that the last LOAD names. -/
theorem currentFile_ofProgram (program : List Statement) :
    (Pipeline.ofProgram program).currentFile =
      ((program.map commandOf).filterMap fun c => c.item.loadedFile?).getLast? := by
  have general : ∀ p : Pipeline, (program.foldl Pipeline.add p).currentFile =
      ((program.map commandOf).filterMap fun c => c.item.loadedFile?).getLast?.or
        p.currentFile := by
    induction program with
    | nil =>
      intro p
      rfl
    | cons s program ih =>
      intro p
      rw [List.foldl_cons, ih, List.map_cons, List.filterMap_cons]
      cases hitem : (commandOf s).item with
      | load file => simp [Pipeline.add, hitem, Stage.loadedFile?, List.getLast?_cons]
      | _ => simp [Pipeline.add, hitem, Stage.loadedFile?]
  rw [Pipeline.ofProgram, general, Option.or_none]

/-- A review collects the pipeline of its program. -/
theorem pipeline_review (rules : Rules) (program : List Statement) :
    (review rules program).pipeline = Pipeline.ofProgram program := by
  have general : ∀ r : Review,
      (r.extend rules program).pipeline = program.foldl Pipeline.add r.pipeline := by
    induction program with
    | nil =>
      intro r
      rfl
    | cons s program ih =>
      intro r
      exact ih (r.add rules s)
  exact general {}

/-- Programs in turn are reviewed as one. -/
theorem foldl_extend (rules : Rules) (programs : List (List Statement)) :
    programs.foldl (Review.extend rules) {} = review rules programs.flatten := by
  rw [review, Review.extend, List.foldl_flatten]
  rfl

/-- **A review can be told without its state.**  One review of several programs in turn yields the
commands that their statements, taken together, describe, the file that the last LOAD among them
names, and for each command, in order and on its line, the problems that hold of it.  These depend
on the command and on whether a LOAD and a SELECT stand before it, and come in the order of their
ranks. -/
theorem walk_review (rules : Rules) (programs : List (List Statement)) :
    let r := programs.foldl (Review.extend rules) {}
    let commands := (Pipeline.ofProgram programs.flatten).commands
    r.commands = commands ∧
      r.currentFile = (commands.filterMap fun c => c.item.loadedFile?).getLast? ∧
      r.findings = indexedFindings rules commands ∧
      (∀ p stage, (∀ problem, problem ∈ problems rules p stage ↔ problem.Holds rules p stage) ∧
        (problems rules p stage).Pairwise fun a b => a.rank < b.rank) ∧
      ∀ program, programs = [program] → r = review rules program := by
  intro r commands
  have hr : r = review rules programs.flatten := foldl_extend rules programs
  have hcommands : commands = programs.flatten.map commandOf := commands_ofProgram _
  refine ⟨?_, ?_, ?_, ?_, ?_⟩
  · rw [hr, hcommands, commands_review]
  · rw [hr, hcommands, Review.currentFile, pipeline_review, currentFile_ofProgram]
  · rw [hr, hcommands, findings_review_indexed]
  · intro p stage
    exact ⟨fun _ => mem_problems_iff, pairwise_rank_problems rules p stage⟩
  · rintro program rfl
    rfl

end QueryPipeline
