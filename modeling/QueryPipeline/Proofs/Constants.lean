/-
# Constants of a script

A script declares its variables as constants.  Which of them it then leaves alone is
read off its text: the script of a program keeps to a constant if and only if at most
one of the stages writes that variable.  In strict mode `input` is written once, but
a second FILTER assigns to the constant `filteredData`, and a second SELECT declares
the constant `result` again.

* `Script.assignments` : the assignments of a code, line by line;
* `assignments_scriptOf` : those of a script are those of its instructions;
* `respectsConstant_iff` : when the instructions of some stages keep to a constant;
* `respectsConstant_code_iff` : when the code of a strict compilation does.
-/
import QueryPipeline.Proofs.RoundTrip
import QueryPipeline.Proofs.ScriptReading

namespace QueryPipeline

namespace Script

/-- The lines of a text, a code or a report: what stands between its line feeds. -/
def codeLines (code : String) : List String :=
  (code.toList.splitOn '\n').map String.ofList

/-- The assignments that the lines of a code make, in order. -/
def assignments (code : String) : List Assignment :=
  (codeLines code).filterMap assignment?

/-- A variable is declared as a constant at most once, and nothing is assigned to it after that. -/
structure RespectsConstant (v : Variable) (as : List Assignment) : Prop where
  once : as.countP (· = ⟨true, v⟩) ≤ 1
  kept : as.Pairwise fun a later => a = ⟨true, v⟩ → later ≠ ⟨false, v⟩

/-! ## The lines of a script -/

/-- A line of a code ends at its line feed. -/
theorem codeLines_append {line : String} (h : '\n' ∉ line.toList) (rest : String) :
    codeLines (line ++ "\n" ++ rest) = line :: codeLines rest := by
  have hlist : (line ++ "\n" ++ rest).toList = line.toList ++ '\n' :: rest.toList := by
    simp
  rw [codeLines, hlist, List.splitOn_append_cons_self_of_not_mem h, List.map_cons,
    String.ofList_toList, ← codeLines]

theorem feed_not_mem_fieldAccess {s : String} (h : '\n' ∉ s.toList) :
    '\n' ∉ (fieldAccess s).toList := by
  unfold fieldAccess
  split
  next rest hs =>
    rw [hs, List.mem_cons, not_or] at h
    intro hmem
    rw [String.toList_ofList, List.mem_cons, List.mem_flatMap] at hmem
    rcases hmem with hdot | ⟨c, hc, hmem⟩
    · revert hdot
      decide
    · split at hmem
      · revert hmem
        decide
      · rw [List.mem_singleton] at hmem
        exact h.2 (hmem ▸ hc)
  next => exact h

theorem feed_not_mem_columnName {s : String} (h : '\n' ∉ s.toList) :
    '\n' ∉ (columnName s).toList := by
  have hmap : ∀ {path : List Char}, '\n' ∉ path →
      '\n' ∉ path.map fun c => if c = '.' then '_' else c := by
    intro path hpath hmem
    obtain ⟨c, hc, heq⟩ := List.mem_map.1 hmem
    split at heq
    · revert heq
      decide
    · exact hpath (heq ▸ hc)
  rw [columnName, String.toList_ofList]
  apply hmap
  split
  next rest hs =>
    rw [hs] at h
    exact fun hmem => h (List.mem_cons_of_mem _ hmem)
  next => exact h

theorem feed_not_mem_operandExpr {s : String} (h : '\n' ∉ s.toList) :
    '\n' ∉ (operandExpr s).toList := by
  have haccess := feed_not_mem_fieldAccess h
  unfold operandExpr Operand.ofText
  by_cases hpath : s.toList.head? = some '.'
  · simp [hpath, haccess]
  · by_cases hnumber : isNumber s
    · simp [hpath, hnumber, h]
    · simp [hpath, hnumber, h, toList_quote]

theorem feed_not_mem_object {fields : List String} (h : ∀ field ∈ fields, '\n' ∉ field.toList) :
    '\n' ∉ (object fields).toList := by
  have hproperty : ∀ field ∈ fields, '\n' ∉ (property field).toList := by
    intro field hfield
    simp [property, feed_not_mem_columnName (h field hfield),
      feed_not_mem_fieldAccess (h field hfield)]
  cases fields with
  | nil => decide +kernel
  | cons field fields =>
    rw [List.forall_mem_cons] at hproperty
    have hjoined : '\n' ∉ (", ".intercalate ((field :: fields).map property)).toList := by
      rw [List.map_cons, toList_intercalate_cons, List.mem_append, not_or, List.flatMap_map]
      refine ⟨hproperty.1, ?_⟩
      intro hmem
      obtain ⟨f, hf, hmem⟩ := List.mem_flatMap.1 hmem
      rcases List.mem_append.1 hmem with hcomma | hmem
      · revert hcomma
        decide +kernel
      · exact hproperty.2 f hf hmem
    rw [object, if_neg (by simp), String.toList_append, String.toList_append, List.mem_append,
      List.mem_append, not_or, not_or]
    exact ⟨⟨by decide +kernel, hjoined⟩, by decide +kernel⟩

/-- The line of a stage that can be written down has no line feed. -/
theorem feed_not_mem_text {stage : Stage} (h : stage.IsWritable) (s : Scope) :
    '\n' ∉ (s.instruction stage).text.toList := by
  have hsource : ∀ source, '\n' ∉ (sourceName source).toList := by
    intro source hmem
    have hword := isWordChar_sourceName source _ hmem
    revert hword
    decide
  cases stage with
  | load file =>
    have hfile := feed_not_mem_of_isPlain h
    simp only [Scope.instruction]
    unfold Instruction.text
    simp [hfile]
  | filter left op right =>
    have hleft := feed_not_mem_fieldAccess (feed_not_mem_of_isPlain h.1)
    have hright := feed_not_mem_operandExpr (feed_not_mem_of_isPlain h.2)
    have hop : '\n' ∉ op.scriptSpelling.toList := by
      cases op <;> decide +kernel
    cases hfiltered : s.filtered <;> simp only [Scope.instruction, hfiltered] <;>
      unfold Instruction.text <;> simp [hsource, hleft, hop, hright]
  | select fields =>
    have hobject : '\n' ∉ (object fields).toList :=
      feed_not_mem_object fun field hfield => feed_not_mem_of_isPlain
        (Text.isPlain_of_isBare (isBare_of_isPath (h.2 field hfield)))
    simp only [Scope.instruction]
    unfold Instruction.text
    simp [hsource, hobject]
  | save file =>
    have hfile := feed_not_mem_of_isPlain h
    simp only [Scope.instruction]
    unfold Instruction.text
    simp [hsource, hfile]

/-- The lines of instructions without line feeds, each ended by one. -/
theorem codeLines_join {stages : List Stage} (h : ∀ stage ∈ stages, stage.IsWritable) (s : Scope) :
    codeLines (String.join ((s.instructions stages).map fun i => i.text ++ "\n")) =
      (s.instructions stages).map Instruction.text ++ [""] := by
  induction stages generalizing s with
  | nil =>
    have hempty : codeLines "" = [""] := by decide +kernel
    exact hempty
  | cons stage stages ih =>
    rw [List.forall_mem_cons] at h
    rw [Scope.instructions, List.map_cons, String.join_cons,
      codeLines_append (feed_not_mem_text h.1 s), ih h.2, List.map_cons, List.cons_append]

/-- **A script assigns what its instructions assign.** -/
theorem assignments_scriptOf {stages : List Stage} (h : ∀ stage ∈ stages, stage.IsWritable) :
    assignments (scriptOf stages) =
      (Scope.instructions {} stages).filterMap Instruction.assignment := by
  have hprologue : scriptOf stages = "// Generated automatically" ++ "\n" ++
      ("const fs = require('fs');" ++ "\n" ++ ("" ++ "\n" ++ String.join (lines stages))) := by
    have hsplit : prologue = "// Generated automatically" ++ "\n" ++
        ("const fs = require('fs');" ++ "\n" ++ ("" ++ "\n")) := by
      decide +kernel
    rw [scriptOf, hsplit]
    simp only [String.append_assoc]
  have htext : assignment? ∘ Instruction.text = Instruction.assignment := by
    funext i
    rw [Function.comp_apply, ← assignment?_text i "", String.append_empty]
  -- None of the three lines in front assigns to a variable, nor does the empty one at the end.
  have hfront : ["// Generated automatically", "const fs = require('fs');", ""].filterMap
      assignment? = [] := by
    decide +kernel
  have hback : [""].filterMap assignment? = [] := by
    decide +kernel
  rw [assignments, hprologue, codeLines_append (by decide +kernel),
    codeLines_append (by decide +kernel), codeLines_append (by decide +kernel), lines,
    codeLines_join h]
  calc (["// Generated automatically", "const fs = require('fs');", ""] ++
        ((Scope.instructions {} stages).map Instruction.text ++ [""])).filterMap assignment?
      = (Scope.instructions {} stages).filterMap (assignment? ∘ Instruction.text) := by
        rw [List.filterMap_append, List.filterMap_append, hfront, hback, List.nil_append,
          List.append_nil, List.filterMap_map]
    _ = (Scope.instructions {} stages).filterMap Instruction.assignment := by rw [htext]

/-! ## When a constant is respected -/

/-- A constant is respected if nothing gives it a value after it is declared. -/
theorem respectsConstant_cons (v : Variable) (a : Assignment) (as : List Assignment) :
    RespectsConstant v (a :: as) ↔
      (a = ⟨true, v⟩ → ∀ later ∈ as, later.target ≠ v) ∧ RespectsConstant v as := by
  constructor
  · rintro ⟨once, kept⟩
    rw [List.countP_cons] at once
    rw [List.pairwise_cons] at kept
    refine ⟨?_, by omega, kept.2⟩
    rintro rfl later hlater htarget
    obtain ⟨declares, target⟩ := later
    have htarget : target = v := htarget
    subst htarget
    cases declares with
    | false => exact kept.1 _ hlater rfl rfl
    | true =>
      have hcount : 0 < as.countP (· = ⟨true, target⟩) :=
        List.countP_pos_iff.2 ⟨_, hlater, by simp⟩
      rw [if_pos (by simp)] at once
      omega
  · rintro ⟨hfirst, once, kept⟩
    constructor
    · rw [List.countP_cons]
      split
      next ha =>
        have hzero : as.countP (· = ⟨true, v⟩) = 0 := by
          rw [List.countP_eq_zero]
          intro later hlater heq
          exact hfirst (by simpa using ha) later hlater (by rw [of_decide_eq_true heq])
        omega
      next => omega
    · rw [List.pairwise_cons]
      refine ⟨?_, kept⟩
      intro later hlater ha heq
      exact hfirst ha later hlater (by rw [heq])

theorem respectsConstant_of_ne {v : Variable} {as : List Assignment}
    (h : ∀ a ∈ as, a.target ≠ v) : RespectsConstant v as := by
  induction as with
  | nil => exact ⟨by simp, .nil⟩
  | cons a as ih =>
    rw [List.forall_mem_cons] at h
    exact (respectsConstant_cons v a as).2 ⟨fun _ => h.2, ih h.2⟩

/-- The instructions of some stages give values to the variables of the stages. -/
theorem target_assignments (s : Scope) (stages : List Stage) :
    ((s.instructions stages).filterMap Instruction.assignment).map Assignment.target =
      stages.filterMap target? := by
  induction stages generalizing s with
  | nil => rfl
  | cons stage stages ih =>
    rw [Scope.instructions, List.filterMap_cons, List.filterMap_cons, assignment_instruction]
    cases target? stage with
    | none => exact ih (s.after stage)
    | some v => exact congrArg _ (ih (s.after stage))

theorem forall_target_ne_iff (v : Variable) (s : Scope) (stages : List Stage) :
    (∀ a ∈ (s.instructions stages).filterMap Instruction.assignment, a.target ≠ v) ↔
      stages.countP (writes v) = 0 := by
  have hmem : (∀ a ∈ (s.instructions stages).filterMap Instruction.assignment, a.target ≠ v) ↔
      v ∉ stages.filterMap target? := by
    rw [← target_assignments s, List.mem_map, not_exists]
    exact forall_congr' fun a => not_and.symm
  rw [hmem, List.countP_eq_zero, List.mem_filterMap, not_exists]
  refine forall_congr' fun stage => ?_
  rw [not_and, writes, decide_eq_true_eq]

/-- A stage that does not write `v` leaves it undeclared, if it is the variable of the filters. -/
theorem filtered_after_of_not_writes {v : Variable} {s : Scope} {stage : Stage}
    (hs : v = .filteredData → s.filtered = false) (hv : writes v stage = false) :
    v = .filteredData → (s.after stage).filtered = false := by
  rintro rfl
  rw [filtered_after, hs rfl, hv]
  rfl

/-- **A constant is respected if and only if at most one stage writes it.**  The scope says whether
a filter has come before. -/
theorem respectsConstant_iff (v : Variable) (stages : List Stage) {s : Scope}
    (hs : v = .filteredData → s.filtered = false) :
    RespectsConstant v ((s.instructions stages).filterMap Instruction.assignment) ↔
      stages.countP (writes v) ≤ 1 := by
  induction stages generalizing s with
  | nil => exact ⟨fun _ => by simp, fun _ => ⟨by simp [Scope.instructions], .nil⟩⟩
  | cons stage stages ih =>
    rw [Scope.instructions, List.filterMap_cons, assignment_instruction, List.countP_cons, writes]
    cases htarget : target? stage with
    | none =>
      simpa using ih (filtered_after_of_not_writes hs (by simp [writes, htarget]))
    | some w =>
      rw [Option.map_some]
      dsimp only
      rw [respectsConstant_cons]
      by_cases hw : w = v
      · -- The stage declares `v`: no later one may write it.
        subst hw
        have hdeclares : (!(w = .filteredData && s.filtered)) = true := by
          by_cases hv : w = .filteredData
          · simp [hs hv]
          · simp [hv]
        have hlater := forall_target_ne_iff w (s.after stage) stages
        rw [hdeclares, if_pos (by simp)]
        constructor
        · rintro ⟨hfirst, -⟩
          have hzero := hlater.1 (hfirst rfl)
          omega
        · intro hcount
          have hnone := hlater.2 (by omega)
          exact ⟨fun _ => hnone, respectsConstant_of_ne hnone⟩
      · have hother : writes v stage = false := by simpa [writes, htarget] using hw
        have hs' := filtered_after_of_not_writes hs hother
        rw [ih hs', if_neg (by simpa using hw), Nat.add_zero]
        constructor
        · exact And.right
        · intro hcount
          refine ⟨?_, hcount⟩
          intro ha
          exact absurd (congrArg Assignment.target ha) hw

end Script

/-! ## The code of a strict compilation -/

open Script

/-- Stages in order load once, and not again after they have loaded. -/
theorem countP_load_le {p : Progress} {stages : List Stage} (h : Ordered p stages) :
    stages.countP (writes .input) ≤ if p.loaded then 0 else 1 := by
  induction stages generalizing p with
  | nil => simp
  | cons stage stages ih =>
    have hrest := ih h.2
    rw [List.countP_cons]
    cases stage with
    | load file =>
      have hloaded : p.loaded = false := by simpa [orderProblems] using h.1
      rw [Progress.after, if_pos rfl] at hrest
      rw [hloaded, if_pos (by rfl), if_neg Bool.false_ne_true]
      omega
    | filter left op right => exact hrest
    | select fields => exact hrest
    | save file => exact hrest

/-- The script of a program that was parsed respects a constant if and only if at most one of its
stages writes it. -/
theorem respectsConstant_scriptOf_iff {source : String} {program : List Statement}
    (h : parse source = .ok program) (v : Variable) :
    RespectsConstant v (assignments (scriptOf (stagesOf program))) ↔
      (stagesOf program).countP (writes v) ≤ 1 := by
  rw [assignments_scriptOf (isWritable_of_parse h)]
  exact respectsConstant_iff v _ fun _ => rfl

/-- **When the code of a strict compilation respects its constants.**  The constant `input` is
respected; `filteredData` is if and only if there is at most one FILTER, and `result` if and only if
there is at most one SELECT. -/
theorem respectsConstant_code_iff {rules : Rules} (strict : rules.strictOrder = true)
    {source : String} {compiled : Compiled} (h : compile rules source = .ok compiled) :
    RespectsConstant .input (assignments compiled.code) ∧
      (RespectsConstant .filteredData (assignments compiled.code) ↔
        compiled.commands.countP (fun c => c.item.keyword = "FILTER") ≤ 1) ∧
      (RespectsConstant .result (assignments compiled.code) ↔
        compiled.commands.countP (fun c => c.item.keyword = "SELECT") ≤ 1) := by
  obtain ⟨program, hparse, hproblems, rfl⟩ := compile_eq_ok_iff.1 h
  have horder : Ordered {} (stagesOf program) := ordered_of_problems strict (by simp [hproblems])
  have hfilter : (fun s : Stage => decide (s.keyword = "FILTER")) = writes .filteredData := by
    funext s
    cases s <;> rfl
  have hselect : (fun s : Stage => decide (s.keyword = "SELECT")) = writes .result := by
    funext s
    cases s <;> rfl
  have hcount : ∀ q : Stage → Bool, (program.map commandOf).countP (fun c => q c.item) =
      (stagesOf program).countP q := by
    intro q
    rw [← item_commands]
    exact List.countP_map.symm
  refine ⟨(respectsConstant_scriptOf_iff hparse .input).2 (countP_load_le horder), ?_, ?_⟩
  · rw [respectsConstant_scriptOf_iff hparse, hcount fun s => decide (s.keyword = "FILTER"),
      hfilter]
  · rw [respectsConstant_scriptOf_iff hparse, hcount fun s => decide (s.keyword = "SELECT"),
      hselect]

/-- With one FILTER and one SELECT, all constants are respected. -/
theorem respectsConstant_code_once :
    ∃ compiled, compile ⟨.empty, true⟩ "LOAD \"a\" FILTER .x > 1 SELECT .x SAVE AS \"b\"" =
        .ok compiled ∧
      ∀ v, RespectsConstant v (assignments compiled.code) := by
  have hparse : parse "LOAD \"a\" FILTER .x > 1 SELECT .x SAVE AS \"b\"" =
      .ok [⟨1, .load "\"a\""⟩, ⟨1, .filter (.path ".x") .gt (.number "1")⟩, ⟨1, .select [".x"]⟩,
        ⟨1, .save "\"b\""⟩] :=
    eq_ok_of_toOption (by decide +kernel)
  have hcompile := compile_eq_ok_iff.2 ⟨_, hparse,
    (by decide +kernel : problemsAfter ⟨.empty, true⟩ {} _ = []), rfl⟩
  obtain ⟨hinput, hfiltered, hresult⟩ := respectsConstant_code_iff rfl hcompile
  refine ⟨_, hcompile, ?_⟩
  intro v
  cases v with
  | input => exact hinput
  | filteredData => exact hfiltered.2 (by decide +kernel)
  | result => exact hresult.2 (by decide +kernel)

/-- A second FILTER assigns to the constant `filteredData`, and a second SELECT declares `result`
again, in code that strict compilation yields. -/
theorem not_respectsConstant_code :
    (∃ compiled, compile ⟨.empty, true⟩ "LOAD \"a.json\"\nFILTER .x > 1\nFILTER .x < 9" =
        .ok compiled ∧ ¬RespectsConstant .filteredData (assignments compiled.code)) ∧
    ∃ compiled, compile ⟨.empty, true⟩ "LOAD \"a.json\"\nSELECT .x\nSELECT .x" =
        .ok compiled ∧ ¬RespectsConstant .result (assignments compiled.code) := by
  have hfilters : parse "LOAD \"a.json\"\nFILTER .x > 1\nFILTER .x < 9" =
      .ok [⟨1, .load "\"a.json\""⟩, ⟨2, .filter (.path ".x") .gt (.number "1")⟩,
        ⟨3, .filter (.path ".x") .lt (.number "9")⟩] :=
    eq_ok_of_toOption (by decide +kernel)
  have hselects : parse "LOAD \"a.json\"\nSELECT .x\nSELECT .x" =
      .ok [⟨1, .load "\"a.json\""⟩, ⟨2, .select [".x"]⟩, ⟨3, .select [".x"]⟩] :=
    eq_ok_of_toOption (by decide +kernel)
  constructor
  · refine ⟨_, compile_eq_ok_iff.2 ⟨_, hfilters, by decide +kernel, rfl⟩, ?_⟩
    rw [respectsConstant_scriptOf_iff hfilters]
    decide +kernel
  · refine ⟨_, compile_eq_ok_iff.2 ⟨_, hselects, by decide +kernel, rfl⟩, ?_⟩
    rw [respectsConstant_scriptOf_iff hselects]
    decide +kernel

end QueryPipeline
