/-
# Reading a code and a report line by line

Codes and reports paste in texts of the program as they are: file names, fields, operands,
characters out of place.  Whatever these are, a text that is split at its line feeds falls into the
lines that were put together.  A code has a line for each command, and a report tells its
outcome and all its notes; nothing is lost by trimming but the line feeds behind a code.

* `codeLines_intercalate` : lines without line feeds are read back;
* `Script.Scope.ofStages`, `Script.getElem?_instructions` : the instruction of each stage, in the
  scope that the stages before it leave; `Script.getElem?_codeLines` : its line;
* `codeLines_code` : the lines of a code;
* `codeLines_reportOn` : the lines of a report;
* `Verdict.ofReport` : the verdict that a report tells;
* `report_tells_outcome` : the whole law.
-/
import QueryPipeline.Proofs.ReportLines

namespace QueryPipeline

open Script

/-! ## Splitting at line feeds -/

/-- **Lines are read back**, if none of them has a line feed. -/
theorem codeLines_intercalate {lines : List String} (hne : lines ≠ [])
    (h : ∀ l ∈ lines, '\n' ∉ l.toList) : codeLines ("\n".intercalate lines) = lines := by
  have hfeed : "\n".toList = ['\n'] := by decide
  have hlists : ∀ l ∈ lines.map String.toList, '\n' ∉ l := by
    intro l hl
    obtain ⟨line, hline, rfl⟩ := List.mem_map.1 hl
    exact h line hline
  have hlists_ne : lines.map String.toList ≠ [] := fun hnil => hne (List.map_eq_nil_iff.1 hnil)
  rw [codeLines, String.toList_intercalate, hfeed,
    List.splitOn_intercalate '\n' hlists hlists_ne, List.map_map]
  exact List.map_id'' (fun _ => String.ofList_toList) lines

/-! ## The lines of a code -/

namespace Script

/-- The variables after some stages. -/
def Scope.ofStages (stages : List Stage) : Scope :=
  stages.foldl Scope.after {}

/-- Each stage has its instruction, in the scope that the stages before it leave. -/
theorem getElem?_instructions (s : Scope) (stages : List Stage) (i : Nat) :
    (s.instructions stages)[i]? =
      stages[i]?.map ((stages.take i).foldl Scope.after s).instruction := by
  induction stages generalizing s i with
  | nil => simp [Scope.instructions]
  | cons stage stages ih =>
    rw [Scope.instructions]
    cases i with
    | zero => rfl
    | succ i => exact ih (s.after stage) i

theorem length_instructions (s : Scope) (stages : List Stage) :
    (s.instructions stages).length = stages.length := by
  induction stages generalizing s with
  | nil => rfl
  | cons stage stages ih => exact congrArg (· + 1) (ih (s.after stage))

/-- The lines of a script have no line feed of their own. -/
theorem feed_not_mem_scriptLines {stages : List Stage} (h : ∀ stage ∈ stages, stage.IsWritable) :
    ∀ l ∈ scriptLines stages, '\n' ∉ l.toList := by
  intro l hl
  rcases List.mem_append.1 hl with hfront | hline
  · have hall : ["// Generated automatically", "const fs = require('fs');", ""].all
        (fun l => '\n' ∉ l.toList) := by
      decide
    exact of_decide_eq_true (List.all_eq_true.1 hall l hfront)
  · exact (isTight_instructions h {} l hline).feed

/-- A script is split into its lines, and nothing stands behind the last line feed. -/
theorem codeLines_scriptOf {stages : List Stage} (h : ∀ stage ∈ stages, stage.IsWritable) :
    codeLines (scriptOf stages) = scriptLines stages ++ [""] := by
  have hfeed : ∀ l ∈ scriptLines stages ++ [""], '\n' ∉ l.toList := by
    intro l hl
    rcases List.mem_append.1 hl with hl | hl
    · exact feed_not_mem_scriptLines h l hl
    · obtain rfl := List.mem_singleton.1 hl
      exact List.not_mem_nil
  have hempty : "\n".intercalate (scriptLines stages ++ [""]) = scriptOf stages :=
    (intercalate_concat_empty _ _).trans (scriptOf_eq stages).symm
  rw [← hempty]
  exact codeLines_intercalate (List.append_ne_nil_of_right_ne_nil _ (List.cons_ne_nil _ _)) hfeed

/-- The line of a stage comes behind the three lines of the prologue and those of the stages before. -/
theorem getElem?_codeLines {stages : List Stage} (h : ∀ stage ∈ stages, stage.IsWritable) {i : Nat}
    {stage : Stage} (hi : stages[i]? = some stage) :
    (codeLines (scriptOf stages))[i + 3]? =
      some ((Scope.ofStages (stages.take i)).instruction stage).text := by
  have hline : ((Scope.instructions {} stages).map Instruction.text)[i]? =
      some ((Scope.ofStages (stages.take i)).instruction stage).text := by
    rw [List.getElem?_map, getElem?_instructions, hi]
    rfl
  obtain ⟨hlength, -⟩ := List.getElem?_eq_some_iff.1 hline
  rw [codeLines_scriptOf h]
  exact (List.getElem?_append_left hlength).trans hline

end Script

/-- **One command, one line of code.**  The code of a text that compiles consists of the three lines of
the prologue and of one line for each statement of the program, all of them ended by a line feed: the
line of a statement is what is emitted for its command, after the commands before it. -/
theorem codeLines_code {rules : Rules} {source : String} {compiled : Compiled}
    (h : compile rules source = .ok compiled) :
    ∃ program emitted, parse source = .ok program ∧ compiled.commands = program.map commandOf ∧
      emitted.length = compiled.commands.length ∧
      codeLines compiled.code =
        ["// Generated automatically", "const fs = require('fs');", ""] ++ emitted ++ [""] ∧
      ∀ i, emitted[i]? = compiled.commands[i]?.map fun command =>
        ((Scope.ofStages ((compiled.commands.take i).map Located.item)).instruction
          command.item).text := by
  obtain ⟨program, hparse, -, rfl⟩ := compile_eq_ok_iff.1 h
  refine ⟨program, (Scope.instructions {} (stagesOf program)).map Instruction.text, hparse, rfl, ?_,
    codeLines_scriptOf (isWritable_of_parse hparse), ?_⟩
  · rw [List.length_map, length_instructions, ← item_commands, List.length_map]
  · intro i
    rw [List.getElem?_map, getElem?_instructions, ← item_commands, ← List.map_take,
      List.getElem?_map, Option.map_map, Option.map_map]
    rfl

/-- File names with characters that end a line elsewhere. -/
theorem codeLines_code_separators :
    ∃ compiled, compile {} "LOAD \"a\u2028b\" SAVE AS \"c\rd\"" = .ok compiled ∧
      compiled.commands.length = 2 ∧ (codeLines compiled.code).length = 6 := by
  have hparse : parse "LOAD \"a\u2028b\" SAVE AS \"c\rd\"" =
      .ok [⟨1, .load "\"a\u2028b\""⟩, ⟨1, .save "\"c\rd\""⟩] :=
    eq_ok_of_toOption (by decide +kernel)
  have hcompile := compile_eq_ok_iff.2 ⟨_, hparse,
    (by decide +kernel : problemsAfter {} {} _ = []), rfl⟩
  obtain ⟨program, emitted, -, -, hlength, hlines, -⟩ := codeLines_code hcompile
  refine ⟨_, hcompile, rfl, ?_⟩
  rw [hlines, List.length_append, List.length_append, hlength]
  rfl

/-! ## The lines of a report -/

theorem feed_not_mem_reportLines {rules : Rules} {source : String} {outcome : Except Failure Compiled}
    (h : CompilesTo rules source outcome) : ∀ l ∈ reportLines outcome, '\n' ∉ l.toList := by
  intro l hl
  rcases (isReport_reportLines h).line l hl with rfl | htight
  · exact List.not_mem_nil
  · exact htight.feed

/-- **A report is split into its lines.** -/
theorem codeLines_reportOn (rules : Rules) (source : String) :
    codeLines (reportOn rules source) = reportLines (compile rules source) := by
  have h := compilesTo_compile rules source
  -- No line at all and one empty line would be the same text, but a report has a first line.
  obtain ⟨l, rest, c, hlines, -⟩ := (isReport_reportLines h).first
  rw [reportOn_eq]
  exact codeLines_intercalate (by simp [hlines]) (feed_not_mem_reportLines h)

/-- The report tells the outcome, line by line: each fault behind the words `SYNTAX ERROR`; or the
banner and each finding; or the banner, an empty line and the code, without the line feeds behind it.
There is no other outcome. -/
def TellsOutcome (report : String) : Except Failure Compiled → Prop
  | .error (.malformed faults) =>
    codeLines report = faults.map fun f => "SYNTAX ERROR: " ++ f.display
  | .error (.invalid findings) =>
    codeLines report = Verdict.invalidBanner :: findings.map Finding.display
  | .error (.internal _) => False
  | .ok compiled => ∃ body,
    compiled.code = body ++ (if compiled.commands.isEmpty then "\n\n" else "\n") ∧
      codeLines report = Verdict.successBanner :: "" :: codeLines body

/-- The lines of a code that a report shows: all but an empty one at the end. -/
def bodyLines (compiled : Compiled) : List String :=
  let lines := scriptLines (compiled.commands.map Located.item)
  if compiled.commands.isEmpty then lines.dropLast else lines

theorem reportLines_ok (compiled : Compiled) :
    reportLines (.ok compiled) = Verdict.successBanner :: "" :: bodyLines compiled := rfl

theorem length_bodyLines (compiled : Compiled) :
    (bodyLines compiled).length =
      if compiled.commands.isEmpty then 2 else 3 + compiled.commands.length := by
  obtain ⟨commands, code⟩ := compiled
  cases commands with
  | nil => rfl
  | cons c commands =>
    show (scriptLines ((c :: commands).map Located.item)).length = 3 + (commands.length + 1)
    rw [scriptLines, List.length_append, List.length_map, length_instructions, List.length_map]
    rfl

theorem bodyLines_ne_nil (compiled : Compiled) : bodyLines compiled ≠ [] := by
  intro hnil
  have hlength := length_bodyLines compiled
  rw [hnil, List.length_nil] at hlength
  split at hlength <;> omega

/-- A code consists of the lines that the report shows, and of the line feeds behind it. -/
theorem code_eq_body {rules : Rules} {source : String} {compiled : Compiled}
    (h : CompilesTo rules source (.ok compiled)) :
    compiled.code = "\n".intercalate (bodyLines compiled) ++ feedsBehind (.ok compiled) := by
  have htext : Verdict.successBanner ++ "\n\n" ++ compiled.code = _ := text_verdict h
  have hfeeds : "\n" ++ ("" ++ "\n") = "\n\n" := by decide
  have hlines : "\n".intercalate (reportLines (.ok compiled)) =
      Verdict.successBanner ++ "\n\n" ++ "\n".intercalate (bodyLines compiled) := by
    rw [reportLines_ok, intercalate_feed_cons _ (List.cons_ne_nil _ _),
      intercalate_feed_cons _ (bodyLines_ne_nil compiled), ← hfeeds]
    simp only [String.append_assoc]
  rw [hlines] at htext
  -- The banner and the empty line stand in front of both sides.
  exact (String.append_right_inj _).1 (htext.trans String.append_assoc)

/-- The lines of a report tell the outcome. -/
theorem tellsOutcome_reportOn (rules : Rules) (source : String) :
    TellsOutcome (reportOn rules source) (compile rules source) := by
  have h := compilesTo_compile rules source
  have hlines := codeLines_reportOn rules source
  cases hcompile : compile rules source with
  | error failure =>
    rw [hcompile] at h hlines
    cases failure with
    | malformed faults => exact hlines
    | invalid findings => exact hlines
    | internal message => cases h
  | ok compiled =>
    rw [hcompile] at h hlines
    have hfeed : ∀ l ∈ bodyLines compiled, '\n' ∉ l.toList := by
      intro l hl
      exact feed_not_mem_reportLines h l (List.mem_cons_of_mem _ (List.mem_cons_of_mem _ hl))
    refine ⟨"\n".intercalate (bodyLines compiled), code_eq_body h, ?_⟩
    rw [hlines, codeLines_intercalate (bodyLines_ne_nil compiled) hfeed, reportLines_ok]

/-! ## Reading a report back -/

/-- The verdict that the lines of a report tell.  The first one says what the others are.  A code with
commands has more than two lines behind the banner and the empty line; only a code without any ends in
two line feeds. -/
def Verdict.ofLines (lines : List String) : Verdict :=
  if lines.head? = some successBanner then
    success ("\n".intercalate (lines.drop 2) ++ if lines.length ≤ 4 then "\n\n" else "\n")
  else if lines.head? = some invalidBanner then invalid lines.tail
  else malformed (lines.map fun line => String.ofList (line.toList.drop "SYNTAX ERROR: ".length))

/-- The verdict that a report tells. -/
def Verdict.ofReport (report : String) : Verdict :=
  ofLines (codeLines report)

/-- A line about a fault is no banner. -/
theorem syntaxError_ne_banner (note : String) :
    "SYNTAX ERROR: " ++ note ≠ Verdict.successBanner ∧
      "SYNTAX ERROR: " ++ note ≠ Verdict.invalidBanner := by
  have hhead : ("SYNTAX ERROR: " ++ note).toList.head? = some 'S' := by
    simp
  constructor
  · intro heq
    rw [heq] at hhead
    revert hhead
    decide
  · intro heq
    rw [heq] at hhead
    revert hhead
    decide

theorem ofLines_malformed (notes : List String) :
    Verdict.ofLines (notes.map fun note => "SYNTAX ERROR: " ++ note) = .malformed notes := by
  have hhead : ∀ {banner}, (∀ note, "SYNTAX ERROR: " ++ note ≠ banner) →
      (notes.map fun note => "SYNTAX ERROR: " ++ note).head? ≠ some banner := by
    intro banner hbanner hsome
    rw [List.head?_map] at hsome
    obtain ⟨note, -, heq⟩ := Option.map_eq_some_iff.1 hsome
    exact hbanner note heq
  have hnote : ∀ note : String,
      String.ofList (("SYNTAX ERROR: " ++ note).toList.drop "SYNTAX ERROR: ".length) = note := by
    intro note
    rw [String.toList_append, ← String.length_toList, List.drop_left, String.ofList_toList]
  rw [Verdict.ofLines, if_neg (hhead fun note => (syntaxError_ne_banner note).1),
    if_neg (hhead fun note => (syntaxError_ne_banner note).2), List.map_map]
  exact congrArg Verdict.malformed (List.map_id'' hnote notes)

theorem ofLines_invalid (notes : List String) :
    Verdict.ofLines (Verdict.invalidBanner :: notes) = .invalid notes := by
  have hbanner : some Verdict.invalidBanner ≠ some Verdict.successBanner := by decide
  rw [Verdict.ofLines, List.head?_cons, if_neg hbanner, if_pos rfl, List.tail_cons]

/-- The number of lines tells how many line feeds there are behind the code. -/
theorem ofLines_success (compiled : Compiled) :
    Verdict.ofLines (Verdict.successBanner :: "" :: bodyLines compiled) =
      .success ("\n".intercalate (bodyLines compiled) ++ feedsBehind (.ok compiled)) := by
  have hcount : (Verdict.successBanner :: "" :: bodyLines compiled).length ≤ 4 ↔
      compiled.commands.isEmpty := by
    rw [List.length_cons, List.length_cons, length_bodyLines]
    by_cases hempty : compiled.commands.isEmpty
    · simp [hempty]
    · rw [if_neg hempty]
      exact ⟨fun hle => by omega, fun htrue => absurd htrue hempty⟩
  rw [Verdict.ofLines, List.head?_cons, if_pos rfl, feedsBehind]
  simp only [hcount]
  rfl

/-- **The verdict is read back from the report.** -/
theorem ofReport_reportOn (rules : Rules) (source : String) :
    Verdict.ofReport (reportOn rules source) = verdict (compile rules source) := by
  have h := compilesTo_compile rules source
  rw [Verdict.ofReport, codeLines_reportOn]
  cases hcompile : compile rules source with
  | error failure =>
    rw [hcompile] at h
    cases failure with
    | malformed faults =>
      have hnotes : reportLines (.error (.malformed faults)) =
          (faults.map Fault.display).map fun note => "SYNTAX ERROR: " ++ note := by
        rw [List.map_map]
        rfl
      rw [hnotes, ofLines_malformed]
      rfl
    | invalid findings => exact ofLines_invalid _
    | internal message => cases h
  | ok compiled =>
    rw [hcompile] at h
    rw [reportLines_ok, ofLines_success, ← code_eq_body h]
    rfl

/-- **A report is faithful, line by line.**  Split at its line feeds, it tells the outcome; trimming has
taken nothing away but the line feeds behind a code; and the verdict, with all its notes or its code, is
read back from it, so that no two verdicts have the same report. -/
theorem report_tells_outcome (rules : Rules) (source : String) :
    TellsOutcome (reportOn rules source) (compile rules source) ∧
      (verdict (compile rules source)).text =
        reportOn rules source ++ feedsBehind (compile rules source) ∧
      Verdict.ofReport (reportOn rules source) = verdict (compile rules source) := by
  refine ⟨tellsOutcome_reportOn rules source, ?_, ofReport_reportOn rules source⟩
  rw [text_verdict (compilesTo_compile rules source), reportOn_eq]

end QueryPipeline
