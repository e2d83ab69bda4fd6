/-
# A script without its scope

A script is written stage by stage, with a scope that says which variable is current and whether
the filters have been declared.  What is written for a stage can be told without the scope, from
the stages before it, for any stages in any order.

* `Script.statement` : the statement of a stage behind some others;
* `Script.Scope.ofStages_eq` : the scope is a function of the stages so far;
* `Script.text_instruction_ofStages` : the instruction of one more stage is its statement;
* `Script.exists_scriptOf_append` : the script of more stages goes on from that of the first ones;
* `Script.count_filter_assignments` : what a run makes of the variable of the filters;
* `scriptOf_eq_statements` : all of it, for a list of commands.
-/
import QueryPipeline.Proofs.ReportReading

namespace QueryPipeline

/-- The stage is a FILTER. -/
def Stage.isFilter : Stage → Bool
  | filter _ _ _ => true
  | _ => false

namespace Script

/-! ## Statements -/

/-- The name of the records that are current behind some stages: those of the last LOAD, FILTER or
SELECT among them, if there is one. -/
def currentName (before : List Stage) : String :=
  match (before.filterMap target?).getLast? with
  | none => "null"
  | some v => v.name

/-- The statement of a stage behind some others. -/
def statement (before : List Stage) : Stage → String
  | .load file => "const input = JSON.parse(fs.readFileSync('" ++ file ++ "', 'utf-8'));"
  | .filter left op right =>
    (if before.any Stage.isFilter then "filteredData = filteredData"
      else "const filteredData = " ++ currentName before) ++
    ".filter(item => item" ++ fieldAccess left ++ " " ++ op.scriptSpelling ++ " " ++
      operandExpr right ++ ");"
  | .select fields =>
    "const result = " ++ currentName before ++ ".map(item => (" ++ object fields ++ "));"
  | .save file =>
    "fs.writeFileSync('" ++ file ++ "', JSON.stringify(" ++ currentName before ++ ", null, 2));"

/-- The statements of some stages: that of the `i`-th depends on the stage and on the `i` stages
before it. -/
def statements (stages : List Stage) : List String :=
  stages.zipIdx.map fun x => statement (stages.take x.2) x.1

/-! ## The scope -/

theorem isFilter_eq_writes : Stage.isFilter = writes .filteredData := by
  funext stage
  cases stage <;> rfl

/-- One more stage makes its variable the current one, if it writes one. -/
theorem current_after (s : Scope) (stage : Stage) :
    (s.after stage).current = (target? stage).or s.current := by
  cases stage <;> rfl

/-- The scope behind some stages: the last variable that they write is the current one, and the
filters are declared if they were before or one of the stages is a FILTER. -/
theorem Scope.foldl_after_eq (s : Scope) (before : List Stage) :
    before.foldl after s =
      ⟨(before.filterMap target?).getLast?.or s.current,
        s.filtered || before.any Stage.isFilter⟩ := by
  induction before generalizing s with
  | nil => simp
  | cons stage before ih =>
    rw [List.foldl_cons, ih, current_after, filtered_after, ← isFilter_eq_writes,
      List.filterMap_cons, List.any_cons, Bool.or_assoc]
    cases htarget : target? stage with
    | none => simp
    | some v => simp [List.getLast?_cons]

/-- **The scope is a function of the stages so far.** -/
theorem Scope.ofStages_eq (before : List Stage) :
    ofStages before = ⟨(before.filterMap target?).getLast?, before.any Stage.isFilter⟩ := by
  rw [ofStages, foldl_after_eq]
  simp

/-- **One more stage.**  Its instruction, in the scope of the stages before, is its statement. -/
theorem text_instruction_ofStages (before : List Stage) (stage : Stage) :
    ((Scope.ofStages before).instruction stage).text = statement before stage := by
  have hname : sourceName (before.filterMap target?).getLast? = currentName before := by
    rw [currentName]
    cases (before.filterMap target?).getLast? <;> rfl
  have hchain : "filteredData = filteredData" = "filteredData = " ++ "filteredData" := by decide
  have hdeclare : "const filteredData = " = "const " ++ "filteredData = " := by decide
  rw [Scope.ofStages_eq]
  cases stage with
  | load file => rfl
  | filter left op right =>
    simp only [Scope.instruction]
    unfold statement
    rw [hchain, hdeclare, ← hname]
    cases before.any Stage.isFilter with
    | false =>
      unfold Instruction.text
      simp only [String.append_assoc]
      rfl
    | true =>
      unfold Instruction.text
      simp only [String.append_assoc]
      rfl
  | select fields =>
    unfold statement
    rw [← hname]
    rfl
  | save file =>
    unfold statement
    rw [← hname]
    rfl

/-- The instructions of some stages are their statements. -/
theorem text_instructions (stages : List Stage) :
    (Scope.instructions {} stages).map Instruction.text = statements stages := by
  apply List.ext_getElem?
  intro i
  rw [statements, List.getElem?_map, List.getElem?_map, getElem?_instructions,
    List.getElem?_zipIdx, Option.map_map, Option.map_map]
  congr 1
  funext stage
  rw [Function.comp_apply, Function.comp_apply, ← text_instruction_ofStages, Nat.zero_add]
  rfl

theorem lines_eq (stages : List Stage) :
    lines stages = (statements stages).map fun s => s ++ "\n" := by
  rw [← text_instructions, lines, List.map_map]
  rfl

/-! ## More stages -/

theorem instructions_append (s : Scope) (stages others : List Stage) :
    s.instructions (stages ++ others) =
      s.instructions stages ++ (stages.foldl Scope.after s).instructions others := by
  induction stages generalizing s with
  | nil => rfl
  | cons stage stages ih =>
    rw [List.cons_append, Scope.instructions, ih]
    rfl

/-- The script of more stages goes on from that of the first ones. -/
theorem exists_scriptOf_append (stages others : List Stage) :
    ∃ more, scriptOf (stages ++ others) = scriptOf stages ++ more := by
  refine ⟨String.join (((Scope.ofStages stages).instructions others).map fun i => i.text ++ "\n"), ?_⟩
  rw [scriptOf, lines, instructions_append, List.map_append, String.join_append, scriptOf, lines,
    String.append_assoc]
  rfl

/-! ## Filters -/

theorem assignment_of_isFilter {stage : Stage} (h : stage.isFilter) (s : Scope) :
    (s.instruction stage).assignment = some ⟨!s.filtered, .filteredData⟩ := by
  have htarget : target? stage = some .filteredData := by
    rw [isFilter_eq_writes] at h
    exact of_decide_eq_true h
  rw [assignment_instruction, htarget]
  simp

theorem assignment_of_not_isFilter {stage : Stage} (h : stage.isFilter = false) (s : Scope)
    (declares : Bool) : (s.instruction stage).assignment ≠ some ⟨declares, .filteredData⟩ := by
  cases stage with
  | filter left op right => cases h
  | _ => simp [Scope.instruction, Instruction.assignment]

/-- **The filters of a run.**  Of the statements that give the variable of the filters a value, the
first one declares it, unless it is declared already, and each of the others assigns to it. -/
theorem count_filter_assignments (s : Scope) (stages : List Stage) :
    ((s.instructions stages).map Instruction.assignment).count (some ⟨true, .filteredData⟩) =
        (if s.filtered then 0 else min 1 (stages.countP Stage.isFilter)) ∧
      ((s.instructions stages).map Instruction.assignment).count (some ⟨false, .filteredData⟩) =
        (if s.filtered then stages.countP Stage.isFilter
          else stages.countP Stage.isFilter - 1) := by
  induction stages generalizing s with
  | nil => simp [Scope.instructions]
  | cons stage stages ih =>
    obtain ⟨hdeclared, hassigned⟩ := ih (s.after stage)
    rw [filtered_after, ← isFilter_eq_writes] at hdeclared hassigned
    rw [Scope.instructions, List.map_cons, List.countP_cons, List.count_cons, List.count_cons,
      hdeclared, hassigned]
    cases hfilter : stage.isFilter with
    | false =>
      have hother := assignment_of_not_isFilter hfilter s
      simp [hother]
    | true =>
      rw [assignment_of_isFilter hfilter s]
      cases s.filtered <;> simp

theorem count_filter_statements (stages : List Stage) :
    ((statements stages).map assignment?).count (some ⟨true, .filteredData⟩) =
        min 1 (stages.countP Stage.isFilter) ∧
      ((statements stages).map assignment?).count (some ⟨false, .filteredData⟩) =
        stages.countP Stage.isFilter - 1 := by
  have hreads : (statements stages).map assignment? =
      (Scope.instructions {} stages).map Instruction.assignment := by
    rw [← text_instructions, List.map_map]
    congr 1
    funext i
    rw [Function.comp_apply, ← assignment?_text i "", String.append_empty]
  rw [hreads]
  exact count_filter_assignments {} stages

end Script

/-- **A script can be told without its scope.**  The script of any commands consists of the prologue
and of a statement for each command, ended by a line feed; it depends on what the command says and on
the commands before it, but on none of their lines.  So the script of the first commands is the front of
the script of all; and of the statements of the filters, one declares their variable, if there is any,
and all others assign to it. -/
theorem scriptOf_eq_statements (commands : List Command) :
    let stages := commands.map Located.item
    let filters := stages.countP Stage.isFilter
    scriptOf stages = Script.prologue ++
        String.join ((Script.statements stages).map fun s => s ++ "\n") ∧
      (∀ n, ∃ more, scriptOf stages = scriptOf (stages.take n) ++ more) ∧
      ((Script.statements stages).map Script.assignment?).count (some ⟨true, .filteredData⟩) =
        min 1 filters ∧
      ((Script.statements stages).map Script.assignment?).count (some ⟨false, .filteredData⟩) =
        filters - 1 := by
  intro stages filters
  obtain ⟨hdeclared, hassigned⟩ := Script.count_filter_statements stages
  refine ⟨?_, ?_, hdeclared, hassigned⟩
  · rw [scriptOf, Script.lines_eq]
  · intro n
    obtain ⟨more, hmore⟩ := Script.exists_scriptOf_append (stages.take n) (stages.drop n)
    rw [List.take_append_drop] at hmore
    exact ⟨more, hmore⟩

end QueryPipeline
