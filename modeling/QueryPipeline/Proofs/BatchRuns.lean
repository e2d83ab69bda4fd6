/-
# A batch is a map over its programs

A batch reads programs and expected reports, and writes results in between.  The three
directories may be one, but a result file never bears the name of a program or of an expected
report, so that each case comes out as if it were the only one.

* `Batch.caseIn` : the case of a program in a tree of files; `run_runCase` : a run computes it;
* `run_runCases_cons` : one step of a run; `footprint_runCases`, `agreesBut_runCases` : what a whole
  run changes;
* `caseIn_eq` : result files make no difference to a case;
* `cases_runCases` : the cases of a run are those of its first tree;
* `batch_maps_programs` : the whole law.
-/
import QueryPipeline.Proofs.ByteOrder
import QueryPipeline.Proofs.FileChanges
import QueryPipeline.Proofs.GoldenFiles

namespace QueryPipeline

open FileTree

/-! ## One case -/

namespace Batch

/-- Whether a report agrees with the expected one in a tree of files. -/
def agreesIn (b : Batch) (t : FileTree) (name output : String) : Bool :=
  match t.text (b.expectedPath name) with
  | .ok expected => Case.passes output expected
  | .error _ => false

/-- The case of a program in a tree of files. -/
def caseIn (b : Batch) (t : FileTree) (file : String) : Case :=
  match t.text (b.programPath file) with
  | .error e => .unreadable (Text.stem file) e
  | .ok input =>
    ⟨Text.stem file, input, reportOn b.rules input,
      b.agreesIn t (Text.stem file) (reportOn b.rules input)⟩

theorem name_caseIn (b : Batch) (t : FileTree) (file : String) :
    (b.caseIn t file).name = Text.stem file := by
  rw [caseIn]
  split <;> rfl

/-- A note goes to the standard error alone. -/
theorem log_eq (w : World) (e : LogEntry) : ∃ errors, w.log e = { w with errors := errors } := by
  rw [World.log]
  split
  · exact ⟨_, rfl⟩
  · exact ⟨w.errors, rfl⟩

theorem run_logAll (es : List LogEntry) (w : World) :
    ∃ errors, ((Host.logAll es : StateM World PUnit).run w).2 = { w with errors := errors } := by
  induction es generalizing w with
  | nil => exact ⟨w.errors, rfl⟩
  | cons e es ih =>
    obtain ⟨errors, hlog⟩ := log_eq w e
    obtain ⟨errors', hall⟩ := ih (w.log e)
    refine ⟨errors', hall.trans ?_⟩
    rw [hlog]

theorem run_judge (b : Batch) (name output : String) (w : World) :
    ∃ errors, (b.judge name output : StateM World Bool).run w =
      (b.agreesIn w.files name output, { w with errors := errors }) := by
  rw [judge, run_bind, run_readText, agreesIn]
  cases w.files.text (b.expectedPath name) with
  | ok expected => exact ⟨w.errors, rfl⟩
  | error e =>
    obtain ⟨errors, hlog⟩ :=
      log_eq w ⟨.debug, "cli::batch", "no expected output at " ++ b.expectedPath name⟩
    exact ⟨errors, congrArg (Prod.mk false) hlog⟩

/-- **A case is computed from the files**, and leaves them as they are. -/
theorem run_runCase (b : Batch) (file : String) (w : World) :
    ∃ errors, (b.runCase file : StateM World Case).run w =
      (b.caseIn w.files file, { w with errors := errors }) := by
  rw [runCase, run_bind, run_readText, caseIn]
  cases w.files.text (b.programPath file) with
  | error e => exact ⟨w.errors, rfl⟩
  | ok input =>
    obtain ⟨errors, hlog⟩ := run_logAll (Trace.compilation b.rules input) w
    obtain ⟨errors', hjudge⟩ := run_judge b (Text.stem file) (reportOn b.rules input)
      { w with errors := errors }
    refine ⟨errors', ?_⟩
    dsimp only
    rw [run_bind, hlog, run_bind, hjudge]
    rfl

theorem fst_runCase (b : Batch) (file : String) (w : World) :
    ((b.runCase file : StateM World Case).run w).1 = b.caseIn w.files file := by
  obtain ⟨errors, hrun⟩ := run_runCase b file w
  rw [hrun]

/-! ## One step of a run -/

theorem run_write_ok (w : World) {path text : String} {t : FileTree}
    (h : w.files.write path text = .ok t) :
    (Host.write path text : StateM World (Except FileError Unit)).run w =
      (.ok (), { w with files := t }) := by
  show w.write path text = _
  rw [World.write, h]

theorem run_write_error (w : World) {path text : String} {e : FileError}
    (h : w.files.write path text = .error e) :
    (Host.write path text : StateM World (Except FileError Unit)).run w = (.error e, w) := by
  show w.write path text = _
  rw [World.write, h]

/-- Puts a case in front of those that were run. -/
def addCase (c : Case) (r : Except RunError (List Case) × World) :
    Except RunError (List Case) × World :=
  (r.1.map fun cases => c :: cases, r.2)

/-- **One step of a run**: the case of the first program is written, and then the other programs are
run, unless it cannot be written. -/
theorem run_runCases_cons (b : Batch) (file : String) (w : World) : ∃ errors, ∀ files,
    (b.runCases (file :: files) : StateM World (Except RunError (List Case))).run w =
      match w.files.write (b.resultPath (Text.stem file)) (b.caseIn w.files file).text with
      | .error e => (.error (.file (b.resultPath (Text.stem file)) e), { w with errors := errors })
      | .ok t => addCase (b.caseIn w.files file)
          ((b.runCases files : StateM World (Except RunError (List Case))).run
            { w with files := t, errors := errors }) := by
  obtain ⟨errors, hcase⟩ := run_runCase b file w
  obtain ⟨errors', hlog⟩ := log_eq { w with errors := errors } (b.caseIn w.files file).logEntry
  have hnote : (Host.log (b.caseIn w.files file).logEntry : StateM World Unit).run
      { w with errors := errors } = ((), { w with errors := errors' }) :=
    congrArg (Prod.mk ()) hlog
  refine ⟨errors', ?_⟩
  intro files
  rw [runCases, run_bind, hcase]
  dsimp only
  rw [run_bind, hnote]
  dsimp only
  rw [run_bind, name_caseIn]
  cases hwrite : w.files.write (b.resultPath (Text.stem file)) (b.caseIn w.files file).text with
  | error e =>
    rw [run_write_error { w with errors := errors' } hwrite]
    rfl
  | ok t =>
    rw [run_write_ok { w with errors := errors' } hwrite]
    rfl

/-- A run that succeeds, by its first step. -/
theorem runCases_cons {b : Batch} {file : String} {files : List String} {w w' : World}
    {cases : List Case}
    (h : (b.runCases (file :: files) : StateM World (Except RunError (List Case))).run w =
      (.ok cases, w')) :
    ∃ errors t others,
      w.files.write (b.resultPath (Text.stem file)) (b.caseIn w.files file).text = .ok t ∧
      cases = b.caseIn w.files file :: others ∧
      (b.runCases files : StateM World (Except RunError (List Case))).run
        { w with files := t, errors := errors } = (.ok others, w') := by
  obtain ⟨errors, hstep⟩ := run_runCases_cons b file w
  rw [hstep] at h
  cases hwrite : w.files.write (b.resultPath (Text.stem file)) (b.caseIn w.files file).text with
  | error e =>
    rw [hwrite] at h
    cases h
  | ok t =>
    rw [hwrite] at h
    dsimp only at h
    cases hothers : (b.runCases files : StateM World (Except RunError (List Case))).run
      { w with files := t, errors := errors } with
    | mk outcome w'' =>
      rw [hothers] at h
      cases outcome with
      | error e => cases h
      | ok others =>
        obtain ⟨hcases, rfl⟩ := Prod.mk.inj h
        exact ⟨errors, t, others, rfl, (Except.ok.inj hcases).symm, hothers⟩

/-- The world of a batch once there is a directory for its results. -/
def start (b : Batch) (w : World) : World :=
  (w.createDirectories b.results).2

/-- The programs of a batch, in order. -/
def files (b : Batch) (w : World) : List String :=
  programNames ((b.start w).files.names b.programDirectory)

/-- **The counts of the report** are those of the summary. -/
theorem report_counts (date : String) (s : Summary) :
    report date (s.cases.filter Case.passed).length s.cases.length s.cases =
      report date s.passed s.total s.cases := by
  rw [Summary.passed, Summary.total, List.countP_eq_length_filter]

/-- The report on a run that is over. -/
theorem run_finish (b : Batch) (cases : List Case) (w : World) :
    (b.finish cases : StateM World (Except RunError Summary)).run w =
      match w.files.write b.reportPath
        (report w.date (cases.filter Case.passed).length cases.length cases) with
      | .error e => (.error (.file b.reportPath e), w)
      | .ok t => (.ok ⟨cases, b.reportPath⟩, { w with files := t }) := by
  have hdate : (Host.date : StateM World String).run w = (w.date, w) := rfl
  rw [finish, run_bind, hdate]
  dsimp only
  rw [run_bind]
  cases hwrite : w.files.write b.reportPath
    (report w.date (cases.filter Case.passed).length cases.length cases) with
  | error e =>
    rw [run_write_error w hwrite]
    rfl
  | ok t =>
    rw [run_write_ok w hwrite]
    rfl

theorem finish_eq_ok {b : Batch} {cases : List Case} {w w' : World} {summary : Summary}
    (h : (b.finish cases : StateM World (Except RunError Summary)).run w = (.ok summary, w')) :
    summary = ⟨cases, b.reportPath⟩ ∧
      w.files.write b.reportPath (report w.date summary.passed summary.total summary.cases) =
        .ok w'.files := by
  rw [run_finish] at h
  split at h
  next => cases h
  next t hwrite =>
    obtain ⟨hsummary, rfl⟩ := Prod.mk.inj h
    obtain rfl := Except.ok.inj hsummary
    rw [← report_counts]
    exact ⟨rfl, hwrite⟩

/-- Runs some programs and reports on them. -/
def runOn (b : Batch) (files : List String) : StateM World (Except RunError Summary) := do
  match ← b.runCases files with
  | .error e => return .error e
  | .ok cases => b.finish cases

/-- A batch with a directory for its results runs its programs. -/
theorem run_of_start {b : Batch} {w : World} (h : (w.createDirectories b.results).1 = .ok ()) :
    (b.run : StateM World (Except RunError Summary)).run w =
      (b.runOn (b.files w)).run (b.start w) := by
  have hcreate : (Host.createDirectories b.results : StateM World (Except FileError Unit)).run w =
      (.ok (), b.start w) := by
    rw [← h]
    rfl
  rw [run, run_bind, hcreate]
  rfl

/-- A batch without a directory for its results runs nothing. -/
theorem run_of_start_error {b : Batch} {w : World} {e : FileError}
    (h : (w.createDirectories b.results).1 = .error e) :
    (b.run : StateM World (Except RunError Summary)).run w =
      (.error (.file b.results e), b.start w) := by
  have hcreate : (Host.createDirectories b.results : StateM World (Except FileError Unit)).run w =
      (.error e, b.start w) := by
    rw [← h]
    rfl
  rw [run, run_bind, hcreate]
  rfl

/-- A batch succeeds if it does so on the list of its programs. -/
theorem exists_run_eq_ok {b : Batch} {w : World}
    (hmade : (w.createDirectories b.results).1 = .ok ()) {names : List String}
    (hnames : b.files w = names) (h : ((b.runOn names).run (b.start w)).1.isOk = true) :
    ∃ summary w', (b.run : StateM World (Except RunError Summary)).run w = (.ok summary, w') := by
  rw [← hnames, ← run_of_start hmade] at h
  cases hrun : (b.run : StateM World (Except RunError Summary)).run w with
  | mk outcome w' =>
    rw [hrun] at h
    cases outcome with
    | error e => cases h
    | ok summary => exact ⟨summary, w', rfl⟩

/-- **The steps of a batch** that succeeds: its cases, and the report on them. -/
theorem run_eq_ok {b : Batch} {w w' : World} {summary : Summary}
    (h : (b.run : StateM World (Except RunError Summary)).run w = (.ok summary, w')) :
    ∃ w₁, (b.runCases (b.files w) : StateM World (Except RunError (List Case))).run (b.start w) =
        (.ok summary.cases, w₁) ∧
      summary.reportPath = b.reportPath ∧
      w₁.files.write b.reportPath
        (report w₁.date summary.passed summary.total summary.cases) = .ok w'.files := by
  cases hmade : (w.createDirectories b.results).1 with
  | error e =>
    rw [run_of_start_error hmade] at h
    cases h
  | ok made =>
    rw [run_of_start hmade, runOn, run_bind] at h
    cases hcases : (b.runCases (b.files w) : StateM World (Except RunError (List Case))).run
      (b.start w) with
    | mk outcome w₁ =>
      rw [hcases] at h
      cases outcome with
      | error e => cases h
      | ok cases =>
        obtain ⟨rfl, hwrite⟩ := finish_eq_ok h
        exact ⟨w₁, rfl, rfl, hwrite⟩

/-! ## Names of files -/

/-- Programs are told by the end of their names. -/
theorem isProgram_iff {file : String} : isProgram file ↔ ∃ front, file = front ++ ".mq" := by
  rw [isProgram, List.isSuffixOf_iff_suffix]
  constructor
  · rintro ⟨front, hfront⟩
    refine ⟨String.ofList front, String.toList_inj.1 ?_⟩
    rw [String.toList_append, String.toList_ofList]
    exact hfront.symm
  · rintro ⟨front, rfl⟩
    rw [String.toList_append]
    exact List.suffix_append _ _

theorem isNameChar_stem {file : String} (h : file.toList.all isNameChar) :
    (Text.stem file).toList.all isNameChar := by
  unfold Text.stem
  split
  next => exact h
  next =>
    rw [List.all_eq_true] at h ⊢
    intro c hc
    rw [String.toList_ofList, List.mem_reverse] at hc
    have hreverse := (List.dropWhile_suffix _).subset (List.mem_of_mem_drop hc)
    exact h c (List.mem_reverse.1 hreverse)

theorem isName_append {name ending : String} (hname : name.toList.all isNameChar)
    (hending : ending.toList.all isNameChar) (hlength : 2 < ending.toList.length) :
    IsName (name ++ ending) := by
  refine isName_of_length ?_ ?_
  · rw [String.toList_append, List.all_append, hname, hending]
    rfl
  · rw [String.toList_append, List.length_append]
    omega

theorem isName_result {file : String} (h : IsName file) :
    IsName (Text.stem file ++ ".result.txt") :=
  isName_append (isNameChar_stem h.chars) (by decide) (by decide)

theorem isName_expected {file : String} (h : IsName file) :
    IsName (Text.stem file ++ ".expected.txt") :=
  isName_append (isNameChar_stem h.chars) (by decide) (by decide)

theorem isName_report : IsName "REPORT.txt" := by
  decide

/-- A location with the name of a result. -/
def IsResult (l : Location) : Prop :=
  ∃ here name, l = here ++ [name ++ ".result.txt"]

/-- A name with another ending is no result. -/
theorem not_isResult {here : Location} {name ending : String}
    (hends : ¬ (ending.toList <:+ ".result.txt".toList ∨ ".result.txt".toList <:+ ending.toList)) :
    ¬ IsResult (here ++ [name ++ ending]) := by
  rintro ⟨here', name', heq⟩
  have hname : name ++ ending = name' ++ ".result.txt" := by
    simpa using congrArg List.getLast? heq
  have hending : ending.toList <:+ (name ++ ending).toList := by
    rw [String.toList_append]
    exact List.suffix_append _ _
  have hresult : ".result.txt".toList <:+ (name ++ ending).toList := by
    rw [hname, String.toList_append]
    exact List.suffix_append _ _
  exact hends (List.suffix_or_suffix_of_suffix hending hresult)

/-! ## Results make no difference -/

theorem agreesIn_eq {b : Batch} {t t' : FileTree} (h : AgreesBut IsResult t t') {file : String}
    (hfile : IsName file) (output : String) :
    b.agreesIn t' (Text.stem file) output = b.agreesIn t (Text.stem file) output := by
  have hread : ∀ bytes, t'.read (b.expectedPath (Text.stem file)) = .ok bytes ↔
      t.read (b.expectedPath (Text.stem file)) = .ok bytes := fun bytes =>
    h.read_eq_ok_iff (isName_expected hfile) fun here => not_isResult (by decide)
  have htext : ∀ text, t'.text (b.expectedPath (Text.stem file)) = .ok text ↔
      t.text (b.expectedPath (Text.stem file)) = .ok text := by
    intro text
    rw [FileTree.text, FileTree.text, bind_eq_ok_iff, bind_eq_ok_iff]
    exact exists_congr fun bytes => and_congr_left fun _ => hread bytes
  rw [agreesIn, agreesIn]
  cases hexpected : t.text (b.expectedPath (Text.stem file)) with
  | ok expected => rw [(htext expected).2 hexpected]
  | error e =>
    cases hexpected' : t'.text (b.expectedPath (Text.stem file)) with
    | ok expected =>
      rw [(htext expected).1 hexpected'] at hexpected
      cases hexpected
    | error e' => rfl

/-- A program of a batch in a tree of files: its name, and the directory that it stands in. -/
structure IsListed (b : Batch) (t : FileTree) (file : String) : Prop where
  program : isProgram file
  isName : IsName file
  directory : ∃ here, t.directory b.programDirectory = .ok here

/-- **A case is the same in a tree with other results.** -/
theorem caseIn_eq {b : Batch} {t t' : FileTree} (h : AgreesBut IsResult t t') {file : String}
    (hfile : b.IsListed t file) : b.caseIn t' file = b.caseIn t file := by
  obtain ⟨here, hhere⟩ := hfile.directory
  have hresult : ¬ IsResult (here ++ [file]) := by
    obtain ⟨front, rfl⟩ := isProgram_iff.1 hfile.program
    exact not_isResult (by decide)
  have hread : t'.read (b.programPath file) = t.read (b.programPath file) :=
    h.read_eq hfile.isName hhere hresult
  rw [caseIn, caseIn, FileTree.text, hread, ← FileTree.text]
  cases t.text (b.programPath file) with
  | error e => rfl
  | ok input =>
    dsimp only
    rw [agreesIn_eq h hfile.isName]

/-! ## A whole run -/

/-- The location of the result of one of some cases, in a tree of files. -/
def IsResultOf (b : Batch) (t : FileTree) (cases : List Case) (l : Location) : Prop :=
  ∃ here, t.directory b.results = .ok here ∧ ∃ c ∈ cases, l = here ++ [c.name ++ ".result.txt"]

/-- The location of the result of one of some programs, in a tree of files. -/
def IsResultFor (b : Batch) (t : FileTree) (files : List String) (l : Location) : Prop :=
  ∃ here, t.directory b.results = .ok here ∧
    ∃ file ∈ files, l = here ++ [Text.stem file ++ ".result.txt"]

/-- **What a run leaves**, also if it stops: results of its programs, and nothing else. -/
theorem footprint_runCases (b : Batch) {files : List String}
    (hfiles : ∀ file ∈ files, IsName file) (w : World) :
    Footprint (fun _ => False) (b.IsResultFor w.files files) w.files
        ((b.runCases files : StateM World (Except RunError (List Case))).run w).2.files ∧
      ((b.runCases files : StateM World (Except RunError (List Case))).run w).2.date = w.date := by
  induction files generalizing w with
  | nil => exact ⟨Footprint.refl _ _ _, rfl⟩
  | cons file files ih =>
    obtain ⟨hfile, hfiles⟩ := List.forall_mem_cons.1 hfiles
    obtain ⟨errors, hstep⟩ := run_runCases_cons b file w
    rw [hstep]
    cases hwrite : w.files.write (b.resultPath (Text.stem file)) (b.caseIn w.files file).text with
    | error e => exact ⟨Footprint.refl _ _ _, rfl⟩
    | ok t =>
      obtain ⟨here, hhere, hwritten⟩ :=
        footprint_write (isName_result hfile) hwrite
      obtain ⟨hrest, hdate⟩ := ih hfiles { w with files := t, errors := errors }
      refine ⟨Footprint.trans (hwritten.mono (fun _ => id) ?_) (hrest.mono (fun _ => id) ?_), hdate⟩
      · rintro l rfl
        exact ⟨here, hhere, file, List.mem_cons_self, rfl⟩
      · rintro l ⟨here', hhere', other, hother, rfl⟩
        exact ⟨here', hwritten.agreesBut.directory_eq_ok_iff.1 hhere', other,
          List.mem_cons_of_mem _ hother, rfl⟩

/-- The cases of a run have the names of its programs. -/
theorem names_runCases {b : Batch} {files : List String} {w w' : World} {cases : List Case}
    (h : (b.runCases files : StateM World (Except RunError (List Case))).run w = (.ok cases, w')) :
    cases.map Case.name = files.map Text.stem := by
  induction files generalizing w cases with
  | nil =>
    obtain ⟨hcases, -⟩ := Prod.mk.inj h
    obtain rfl := Except.ok.inj hcases
    rfl
  | cons file files ih =>
    obtain ⟨errors, t, others, -, rfl, hothers⟩ := runCases_cons h
    rw [List.map_cons, List.map_cons, name_caseIn, ih hothers]

/-- **What a run changes**: the results of its cases, and nothing else. -/
theorem agreesBut_runCases {b : Batch} {files : List String} {w w' : World} {cases : List Case}
    (hfiles : ∀ file ∈ files, IsName file)
    (h : (b.runCases files : StateM World (Except RunError (List Case))).run w = (.ok cases, w')) :
    AgreesBut (b.IsResultOf w.files cases) w.files w'.files ∧ w'.date = w.date := by
  obtain ⟨hfootprint, hdate⟩ := footprint_runCases b hfiles w
  rw [h] at hfootprint hdate
  refine ⟨hfootprint.agreesBut.mono ?_, hdate⟩
  rintro l ⟨here, hhere, file, hfile, rfl⟩
  have hname : Text.stem file ∈ cases.map Case.name := by
    rw [names_runCases h]
    exact List.mem_map_of_mem hfile
  obtain ⟨c, hc, heq⟩ := List.mem_map.1 hname
  exact ⟨here, hhere, c, hc, by rw [heq]⟩

/-- **The cases of a run are those of its first tree.** -/
theorem cases_runCases {b : Batch} {t : FileTree} {files : List String} {w w' : World}
    {cases : List Case} (hfiles : ∀ file ∈ files, b.IsListed t file)
    (hagree : AgreesBut IsResult t w.files)
    (h : (b.runCases files : StateM World (Except RunError (List Case))).run w = (.ok cases, w')) :
    cases = files.map (b.caseIn t) := by
  induction files generalizing w cases with
  | nil =>
    obtain ⟨hcases, -⟩ := Prod.mk.inj h
    exact (Except.ok.inj hcases).symm
  | cons file files ih =>
    obtain ⟨hfile, hfiles⟩ := List.forall_mem_cons.1 hfiles
    obtain ⟨errors, t', others, hwrite, rfl, hothers⟩ := runCases_cons h
    obtain ⟨here, -, hstep⟩ := footprint_write (isName_result hfile.isName) hwrite
    have hresult : AgreesBut IsResult w.files t' := by
      refine hstep.agreesBut.mono ?_
      rintro l rfl
      exact ⟨here, _, rfl⟩
    rw [List.map_cons, caseIn_eq hagree hfile, ih hfiles (hagree.trans hresult) hothers]

/-! ## The programs of a batch -/

/-- The programs come in the order of the bytes of their names, and none comes twice. -/
theorem pairwise_files (b : Batch) (w : World) :
    (b.files w).Pairwise fun f g => Text.bytes f < Text.bytes g := by
  have hsorted : (b.files w).Pairwise fun f g => decide (f ≤ g) = true := by
    refine List.pairwise_mergeSort ?_ ?_ _
    · intro f g h hfg hgh
      exact decide_eq_true (String.le_trans (of_decide_eq_true hfg) (of_decide_eq_true hgh))
    · intro f g
      simpa using String.le_total f g
  have hnodup : (b.files w).Pairwise (· ≠ ·) :=
    (List.mergeSort_perm _ _).nodup_iff.2 ((nodup_names _ _).filter _)
  refine (hsorted.and hnodup).imp ?_
  rintro f g ⟨hle, hne⟩
  exact (Text.lt_iff_bytes_lt f g).1 (Std.lt_of_le_of_ne (of_decide_eq_true hle) hne)

/-- Programs that are listed in order stay in order. -/
theorem files_eq_of_names {b : Batch} {w : World} {names : List String}
    (hnames : ((b.start w).files.names b.programDirectory).filter isProgram = names)
    (hsorted : names.Pairwise fun f g => decide (f ≤ g)) : b.files w = names := by
  rw [files, programNames, hnames]
  exact List.mergeSort_of_pairwise hsorted

/-- The programs are the entries of the directory with names that end in `.mq`. -/
theorem mem_files_iff {b : Batch} {w : World} {file : String} :
    file ∈ b.files w ↔ (∃ front, file = front ++ ".mq") ∧
      ∃ here, (b.start w).files.find b.programDirectory = .ok here ∧
        ((b.start w).files.lookup (here ++ [file])).isSome := by
  rw [files, programNames, List.mem_mergeSort, List.mem_filter, isProgram_iff, mem_names_iff,
    and_comm]

theorem isProgram_of_mem_files {b : Batch} {w : World} {file : String} (h : file ∈ b.files w) :
    isProgram file :=
  isProgram_iff.2 (mem_files_iff.1 h).1

theorem isListed_of_mem_files {b : Batch} {w : World} {file : String} (h : file ∈ b.files w) :
    b.IsListed (b.start w).files file := by
  obtain ⟨-, here, hhere, hmem⟩ := mem_files_iff.1 h
  exact ⟨isProgram_of_mem_files h, (isName_of_lookup hmem).1, here, directory_of_find hhere⟩

theorem date_start (b : Batch) (w : World) : (b.start w).date = w.date := by
  rw [start, World.createDirectories]
  split
  · rfl
  · split <;> rfl

/-- **A run that succeeds**, in terms of the tree it starts from: its cases, and its report. -/
theorem cases_run {b : Batch} {w w' : World} {summary : Summary}
    (h : (b.run : StateM World (Except RunError Summary)).run w = (.ok summary, w')) :
    summary.cases = (b.files w).map (b.caseIn (b.start w).files) ∧
      summary.reportPath = b.reportPath ∧
      w'.files.stored b.reportPath =
        some (report w.date summary.passed summary.total summary.cases).toUTF8 := by
  obtain ⟨w₁, hcases, hpath, hwrite⟩ := run_eq_ok h
  have hlisted : ∀ file ∈ b.files w, b.IsListed (b.start w).files file :=
    fun file hfile => isListed_of_mem_files hfile
  obtain ⟨-, hdate⟩ := agreesBut_runCases (fun file hfile => (hlisted file hfile).isName) hcases
  rw [hdate, date_start] at hwrite
  exact ⟨cases_runCases hlisted (AgreesBut.refl _ _) hcases, hpath, stored_of_write hwrite⟩

end Batch

end QueryPipeline
