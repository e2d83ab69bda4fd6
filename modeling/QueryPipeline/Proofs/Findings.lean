/-
# What a review finds

A review carries its state from statement to statement.  Here it is opened once:
what it finds is a function of the commands alone (`findingsAfter`), and the
problems, without their lines, are a function of the stages alone
(`problemsAfter`).

* `findings_review` : the findings of a program;
* `pairwise_line_findingsAfter` : findings are in the order of their commands;
* `ordered_of_findings` : without an ordering problem, the stages are in order;
* `compile_eq_ok_iff` : when a text compiles, and to what;
* `sameOutcome_of_stages` : programs of the same stages compile to the same code, or
  fail with the same messages.
-/
import QueryPipeline.Compilation

namespace QueryPipeline

/-- The stages of a program. -/
def stagesOf (program : List Statement) : List Stage :=
  program.map fun s => s.item.stage

/-- The commands of a program are those of its statements. -/
theorem commands_ofProgram (program : List Statement) :
    (Pipeline.ofProgram program).commands = program.map commandOf := by
  have general : ∀ p : Pipeline, (program.foldl Pipeline.add p).commands =
      p.commands ++ program.map commandOf := by
    induction program with
    | nil => simp
    | cons s program ih =>
      intro p
      rw [List.foldl_cons, ih]
      simp [Pipeline.add]
  exact general {}

theorem item_commands (program : List Statement) :
    (program.map commandOf).map Located.item = stagesOf program := by
  simp [stagesOf, commandOf, Located.map]

/-! ## Findings as a function of the commands -/

/-- What is wrong with some commands, after others have brought about `p`. -/
def findingsAfter (rules : Rules) (p : Progress) : List Command → List Finding
  | [] => []
  | c :: commands =>
    (problems rules p c.item).map (fun problem => ⟨c.line, problem⟩) ++
      findingsAfter rules (p.after c.item) commands

/-- What is wrong with some stages, after others have brought about `p`. -/
def problemsAfter (rules : Rules) (p : Progress) : List Stage → List Problem
  | [] => []
  | stage :: stages => problems rules p stage ++ problemsAfter rules (p.after stage) stages

theorem item_findingsAfter (rules : Rules) (p : Progress) (commands : List Command) :
    (findingsAfter rules p commands).map Located.item =
      problemsAfter rules p (commands.map Located.item) := by
  induction commands generalizing p with
  | nil => rfl
  | cons c commands ih =>
    rw [findingsAfter, List.map_append, ih, List.map_map, List.map_cons, problemsAfter]
    congr 1
    exact List.map_id _

/-- Every finding is about a command, and on its line. -/
theorem exists_command_of_mem_findingsAfter {rules : Rules} {p : Progress} {commands : List Command}
    {f : Finding} (h : f ∈ findingsAfter rules p commands) :
    ∃ c ∈ commands, f.line = c.line ∧ ∃ q, f.item ∈ problems rules q c.item := by
  induction commands generalizing p with
  | nil => cases h
  | cons c commands ih =>
    rcases List.mem_append.1 h with hf | hf
    · obtain ⟨problem, hproblem, rfl⟩ := List.mem_map.1 hf
      exact ⟨c, List.mem_cons_self, rfl, p, hproblem⟩
    · obtain ⟨d, hd, hline, q, hproblem⟩ := ih hf
      exact ⟨d, List.mem_cons_of_mem c hd, hline, q, hproblem⟩

/-- Findings are in the order of their commands. -/
theorem pairwise_line_findingsAfter {rules : Rules} {p : Progress} {commands : List Command}
    (h : commands.Pairwise fun c d => c.line ≤ d.line) :
    (findingsAfter rules p commands).Pairwise fun f g => f.line ≤ g.line := by
  induction commands generalizing p with
  | nil => exact List.Pairwise.nil
  | cons c commands ih =>
    obtain ⟨hfirst, hothers⟩ := List.pairwise_cons.1 h
    rw [findingsAfter, List.pairwise_append, List.pairwise_map]
    refine ⟨List.pairwise_of_forall fun _ _ => Nat.le_refl _, ih hothers, ?_⟩
    intro f hf g hg
    obtain ⟨problem, -, rfl⟩ := List.mem_map.1 hf
    obtain ⟨d, hd, hline, -⟩ := exists_command_of_mem_findingsAfter hg
    rw [hline]
    exact hfirst d hd

/-- The account of a review: its commands and findings grow by those of the statements. -/
theorem review_extend (rules : Rules) (r : Review) (program : List Statement) :
    (r.extend rules program).commands = r.commands ++ program.map commandOf ∧
      (r.extend rules program).findings =
        r.findings ++ findingsAfter rules r.progress (program.map commandOf) := by
  induction program generalizing r with
  | nil => simp [Review.extend, findingsAfter]
  | cons s program ih =>
    obtain ⟨hcommands, hfindings⟩ := ih (r.add rules s)
    constructor
    · rw [Review.extend, List.foldl_cons, ← Review.extend, hcommands]
      simp [Review.commands, Review.add, Pipeline.add]
    · rw [Review.extend, List.foldl_cons, ← Review.extend, hfindings]
      simp [Review.add, Review.examine, findingsAfter, commandOf, Located.map]

/-- The review of a program collects its commands. -/
theorem commands_review (rules : Rules) (program : List Statement) :
    (review rules program).commands = program.map commandOf :=
  (review_extend rules {} program).1

/-- The findings of a program, command by command. -/
theorem findings_review (rules : Rules) (program : List Statement) :
    (review rules program).findings = findingsAfter rules {} (program.map commandOf) :=
  (review_extend rules {} program).2

/-- The problems of a program are those of its stages. -/
theorem item_findings_review (rules : Rules) (program : List Statement) :
    (review rules program).findings.map Located.item =
      problemsAfter rules {} (stagesOf program) := by
  rw [findings_review, item_findingsAfter, item_commands]

/-! ## Stages in order -/

/-- No stage is out of place, after others have brought about `p`. -/
def Ordered (p : Progress) : List Stage → Prop
  | [] => True
  | stage :: stages => orderProblems p stage = [] ∧ Ordered (p.after stage) stages

theorem isOrdering_of_mem_orderProblems {p : Progress} {stage : Stage} {problem : Problem}
    (h : problem ∈ orderProblems p stage) : problem.isOrdering := by
  obtain ⟨loaded, selected⟩ := p
  cases stage <;> cases loaded <;> cases selected <;>
    simp [orderProblems] at h <;> rcases h with rfl | rfl <;> rfl

/-- Without an ordering problem, in strict mode, the stages are in order. -/
theorem ordered_of_problems {rules : Rules} (strict : rules.strictOrder = true) {p : Progress}
    {stages : List Stage}
    (h : ∀ problem ∈ problemsAfter rules p stages, problem.isOrdering = false) :
    Ordered p stages := by
  induction stages generalizing p with
  | nil => trivial
  | cons stage stages ih =>
    refine ⟨List.eq_nil_iff_forall_not_mem.2 ?_, ih fun problem hmem => h problem ?_⟩
    · intro problem hmem
      have hordering := isOrdering_of_mem_orderProblems hmem
      rw [h problem (by simp [problemsAfter, problems, strict, hmem])] at hordering
      cases hordering
    · simp [problemsAfter, hmem]

/-- Without an ordering problem among the findings of a strict review, the stages are in order. -/
theorem ordered_of_findings {rules : Rules} (strict : rules.strictOrder = true)
    {program : List Statement}
    (h : ∀ f ∈ (review rules program).findings, f.item.isOrdering = false) :
    Ordered {} (stagesOf program) := by
  apply ordered_of_problems strict
  intro problem hmem
  rw [← item_findings_review] at hmem
  obtain ⟨f, hf, rfl⟩ := List.mem_map.1 hmem
  exact h f hf

/-! ## Compilation as a function of the stages -/

/-- A result that is not an error, known as an option. -/
theorem eq_ok_of_toOption {ε α : Type} {x : Except ε α} {a : α} (h : x.toOption = some a) :
    x = .ok a := by
  cases x with
  | error e => cases h
  | ok b =>
    cases h
    rfl

/-- A text that parses is compiled as its program. -/
theorem compile_of_parse {source : String} {program : List Statement}
    (h : parse source = .ok program) (rules : Rules) :
    compile rules source = compileProgram rules program := by
  rw [compile, Attempt.settle, compileStages, h]

/-- A program compiles to the script of its stages, unless something is wrong with them. -/
theorem compileProgram_eq (rules : Rules) (program : List Statement) :
    compileProgram rules program =
      if (problemsAfter rules {} (stagesOf program)).isEmpty then
        .ok ⟨program.map commandOf, scriptOf (stagesOf program)⟩
      else .error (.invalid (review rules program).findings) := by
  rw [compileProgram, ← item_findings_review, List.isEmpty_map, commands_review, item_commands]
  rfl

/-- Compiling succeeds on a text that parses to a program without a problem, with the script of its
stages. -/
theorem compile_eq_ok_iff {rules : Rules} {source : String} {compiled : Compiled} :
    compile rules source = .ok compiled ↔
      ∃ program, parse source = .ok program ∧ problemsAfter rules {} (stagesOf program) = [] ∧
        compiled = ⟨program.map commandOf, scriptOf (stagesOf program)⟩ := by
  constructor
  · intro h
    cases hparse : parse source with
    | error faults =>
      rw [compile, Attempt.settle, compileStages, hparse] at h
      cases h
    | ok program =>
      rw [compile_of_parse hparse, compileProgram_eq] at h
      split at h
      next hempty =>
        cases h
        exact ⟨program, rfl, List.isEmpty_iff.1 hempty, rfl⟩
      next => cases h
  · rintro ⟨program, hparse, hproblems, rfl⟩
    rw [compile_of_parse hparse, compileProgram_eq, hproblems]
    rfl

/-- The two outcomes differ at most in lines: both succeed with the same code, or both fail with the
same messages in the same order. -/
def SameOutcome : Except Failure Compiled → Except Failure Compiled → Prop
  | .ok a, .ok b => a.code = b.code
  | .error (.invalid f), .error (.invalid g) => f.map Finding.message = g.map Finding.message
  | _, _ => False

/-- The messages of a program are those of its problems. -/
theorem message_findings (rules : Rules) (program : List Statement) :
    (review rules program).findings.map Finding.message =
      (problemsAfter rules {} (stagesOf program)).map Problem.message := by
  rw [← item_findings_review, List.map_map]
  rfl

/-- Programs of the same stages have the same outcome. -/
theorem sameOutcome_of_stages {program program' : List Statement}
    (h : stagesOf program = stagesOf program') (rules : Rules) :
    SameOutcome (compileProgram rules program) (compileProgram rules program') := by
  rw [compileProgram_eq, compileProgram_eq, h]
  split
  · rfl
  · show List.map _ _ = List.map _ _
    rw [message_findings, message_findings, h]

end QueryPipeline
