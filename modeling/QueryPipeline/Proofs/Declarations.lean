/-
# More declarations, more findings

Two reviews of one program, against tables of which one holds all declarations of the other, go
through the same states.  What the smaller table finds, the larger one finds too, in the same
order; and what a table finds beyond the empty one, it finds where it declares a type.

* `FieldTable.IsPartOf` : one table holds all declarations of the other;
* `problems_sublist` : the step, for one stage in any state;
* `findingsAfter_sublist` : the run, from any state on;
* `Problem.RestsOn` : the types that a problem is about are known;
* `review_of_isPartOf` : all of it, for a program.
-/
import QueryPipeline.Proofs.Diagnosis

open scoped List

namespace QueryPipeline

namespace FieldTable

/-- Every declaration of the first table is one of the second. -/
def IsPartOf (types more : FieldTable) : Prop :=
  ∀ (path : String) (type : FieldType), types[path]? = some type → more[path]? = some type

/-- A path that is not declared yet may be declared in any way. -/
theorem isPartOf_insert {types : FieldTable} {path : String} (h : types[path]? = none)
    (type : FieldType) : types.IsPartOf (types.insert path type) := by
  intro other otherType hother
  have hne : path ≠ other := by
    rintro rfl
    rw [h] at hother
    cases hother
  rw [Std.ExtTreeMap.getElem?_insert, if_neg (by simpa using hne)]
  exact hother

end FieldTable

/-! ## One stage -/

/-- A type that is known stays known: an operand that is no field has its type from its look. -/
theorem operandType?_of_isPartOf {types more : FieldTable} (h : types.IsPartOf more) {s : String}
    {type : FieldType} (hs : operandType? types s = some type) :
    operandType? more s = some type := by
  unfold operandType? at hs ⊢
  cases hoperand : Operand.ofText s with
  | path path =>
    rw [hoperand] at hs
    exact h path type hs
  | number text =>
    rw [hoperand] at hs
    exact hs
  | text text =>
    rw [hoperand] at hs
    exact hs

/-- Two known types that differ still differ; where one is unknown, nothing is found. -/
theorem mismatchProblems_sublist {types more : FieldTable} (h : types.IsPartOf more)
    (left right : String) :
    mismatchProblems types left right <+ mismatchProblems more left right := by
  cases hleft : types[left]? with
  | none => simp [mismatchProblems, hleft]
  | some l =>
    cases hright : operandType? types right with
    | none => simp [mismatchProblems, hleft, hright]
    | some r =>
      have hleft' := h left l hleft
      have hright' := operandType?_of_isPartOf h hright
      simp [mismatchProblems, hleft, hright, hleft', hright']

theorem operatorProblems_sublist {types more : FieldTable} (h : types.IsPartOf more)
    (left : String) (op : Comparison) :
    operatorProblems types left op <+ operatorProblems more left op := by
  by_cases hleft : types[left]? = some .string
  · have hleft' := h left .string hleft
    simp [operatorProblems, hleft, hleft']
  · simp [operatorProblems, hleft]

theorem contentProblems_sublist {types more : FieldTable} (h : types.IsPartOf more)
    (stage : Stage) : contentProblems types stage <+ contentProblems more stage := by
  cases stage with
  | filter left op right =>
    exact (mismatchProblems_sublist h left right).append (operatorProblems_sublist h left op)
  | load file => exact List.Sublist.refl _
  | select fields => exact List.Sublist.refl _
  | save file => exact List.Sublist.refl _

/-- **One stage.**  In any state, the smaller table finds a part of what the larger one finds. -/
theorem problems_sublist {types more : FieldTable} (h : types.IsPartOf more) (strict : Bool)
    (p : Progress) (stage : Stage) :
    problems ⟨types, strict⟩ p stage <+ problems ⟨more, strict⟩ p stage := by
  -- Before a LOAD neither table is in effect, after it both are.
  have hcontent : contentProblems (if p.loaded then types else FieldTable.empty) stage <+
      contentProblems (if p.loaded then more else FieldTable.empty) stage := by
    cases p.loaded with
    | false => exact List.Sublist.refl _
    | true => exact contentProblems_sublist h stage
  exact (List.Sublist.refl _).append hcontent

/-! ## A whole review -/

/-- **The run.**  The two reviews are in the same state throughout, since it depends on the stages
alone. -/
theorem findingsAfter_sublist {types more : FieldTable} (h : types.IsPartOf more) (strict : Bool)
    (p : Progress) (commands : List Command) :
    findingsAfter ⟨types, strict⟩ p commands <+ findingsAfter ⟨more, strict⟩ p commands := by
  induction commands generalizing p with
  | nil => exact List.Sublist.refl _
  | cons c commands ih =>
    exact ((problems_sublist h strict p c.item).map _).append (ih (p.after c.item))

/-- The problem is about types, and they are known: the field of the FILTER is declared, and so is
the other side, if the problem is about it and it is a field too. -/
def Problem.RestsOn (types : FieldTable) (stage : Stage) : Problem → Prop
  | typeMismatch left leftType right rightType =>
    (∃ op, stage = .filter left op right) ∧ types[left]? = some leftType ∧
      operandType? types right = some rightType
  | stringOperator op => ∃ left right, stage = .filter left op right ∧ types[left]? = some .string
  | _ => False

/-- A problem is there without any declaration, or rests on declared types. -/
theorem mem_problems_empty_or_restsOn {types : FieldTable} {strict : Bool} {p : Progress}
    {stage : Stage} {problem : Problem} (h : problem ∈ problems ⟨types, strict⟩ p stage) :
    problem ∈ problems ⟨.empty, strict⟩ p stage ∨ problem.RestsOn types stage := by
  rw [mem_problems_iff] at h ⊢
  cases problem with
  | typeMismatch left leftType right rightType =>
    obtain ⟨hstage, -, hleft, hright, -⟩ := h
    exact Or.inr ⟨hstage, hleft, hright⟩
  | stringOperator op =>
    obtain ⟨-, -, hstage⟩ := h
    exact Or.inr hstage
  | _ => exact Or.inl h

theorem mem_findingsAfter_empty_or_restsOn {types : FieldTable} {strict : Bool} {p : Progress}
    {commands : List Command} {f : Finding} (h : f ∈ findingsAfter ⟨types, strict⟩ p commands) :
    f ∈ findingsAfter ⟨.empty, strict⟩ p commands ∨
      ∃ c ∈ commands, c.line = f.line ∧ f.item.RestsOn types c.item := by
  induction commands generalizing p with
  | nil => cases h
  | cons c commands ih =>
    rw [findingsAfter, List.mem_append] at h ⊢
    rcases h with hf | hf
    · obtain ⟨problem, hproblem, rfl⟩ := List.mem_map.1 hf
      rcases mem_problems_empty_or_restsOn hproblem with hempty | hrests
      · exact Or.inl (Or.inl (List.mem_map_of_mem hempty))
      · exact Or.inr ⟨c, List.mem_cons_self, rfl, hrests⟩
    · rcases ih hf with hempty | ⟨d, hd, hrests⟩
      · exact Or.inl (Or.inr hempty)
      · exact Or.inr ⟨d, List.mem_cons_of_mem c hd, hrests⟩

/-- **Declaring more types can only add findings.**  Against a table that holds all declarations of
another, a review yields the same commands and the same file, and finds what the other finds, in the
same order, and perhaps more; so a program that is valid against the larger table is valid against the
smaller one.  Whatever is found beyond the findings of the empty table rests on known types: a path
that is not declared is never held against a program. -/
theorem review_of_isPartOf {types more : FieldTable} (h : types.IsPartOf more) (strict : Bool)
    (program : List Statement) :
    let r := review ⟨types, strict⟩ program
    let r' := review ⟨more, strict⟩ program
    r.findings <+ r'.findings ∧ r.commands = r'.commands ∧ r.currentFile = r'.currentFile ∧
      (r'.isValid → r.isValid) ∧
      ∀ f ∈ r'.findings, f ∈ (review ⟨.empty, strict⟩ program).findings ∨
        ∃ c ∈ r'.commands, c.line = f.line ∧ f.item.RestsOn more c.item := by
  intro r r'
  have hsublist : r.findings <+ r'.findings := by
    rw [findings_review, findings_review]
    exact findingsAfter_sublist h strict {} _
  refine ⟨hsublist, ?_, ?_, ?_, ?_⟩
  · rw [commands_review, commands_review]
  · rw [Review.currentFile, Review.currentFile, pipeline_review, pipeline_review]
  · intro hvalid
    rw [Review.isValid, List.isEmpty_iff] at hvalid ⊢
    rw [hvalid] at hsublist
    exact List.sublist_nil.1 hsublist
  · intro f hf
    rw [findings_review] at hf ⊢
    rw [commands_review]
    exact mem_findingsAfter_empty_or_restsOn hf

/-- A program that compares texts with an order, and ages with texts. -/
def ageAndName : List Statement :=
  [⟨1, .load "\"a\""⟩, ⟨2, .filter (.path ".nome") .gt (.number "1")⟩,
    ⟨3, .filter (.path ".idade") .eq (.string "\"x\"")⟩, ⟨4, .save "\"\""⟩]

/-- One more declaration makes one of its filters wrong in two ways, in front of what was found
before. -/
theorem review_of_isPartOf_ageAndName :
    let types := FieldTable.ofEntries [(".idade", .number)]
    let more := types.insert ".nome" .string
    types.IsPartOf more ∧
      (review ⟨types, true⟩ ageAndName).findings =
        [⟨3, .typeMismatch ".idade" .number "x" .string⟩, ⟨4, .emptySavePath⟩] ∧
      (review ⟨more, true⟩ ageAndName).findings =
        [⟨2, .typeMismatch ".nome" .string "1" .number⟩, ⟨2, .stringOperator .gt⟩,
          ⟨3, .typeMismatch ".idade" .number "x" .string⟩, ⟨4, .emptySavePath⟩] ∧
      (review ⟨types, true⟩ ageAndName).findings <+ (review ⟨more, true⟩ ageAndName).findings := by
  intro types more
  have hpart : types.IsPartOf more := FieldTable.isPartOf_insert (by decide) .string
  exact ⟨hpart, by decide, by decide, (review_of_isPartOf hpart true ageAndName).1⟩

end QueryPipeline
