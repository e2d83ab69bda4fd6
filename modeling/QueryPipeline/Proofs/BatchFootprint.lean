/-
# What a batch leaves behind

A batch makes the directory of its results, writes one result after the other, and at last the
report.  Whether it succeeds or fails on the way, these are its only traces: a result that cannot be
written ends the run, with the results before it in place and no report.

* `Batch.footprint_start` : which directories are made;
* `Batch.run_runCases_of_blocked` : a run stops at the first result that cannot be written;
* `Batch.footprint_results` : the traces of some programs;
* `Batch.footprint_run` : the traces of a whole batch;
* `batch_leaves_results_only` : the whole law;
* `earlier_result_overwritten` : a batch that loses a result before it stops.
-/
import QueryPipeline.Proofs.ResultFiles

namespace QueryPipeline

open FileTree

namespace Batch

/-! ## The directory of the results -/

/-- The location of the directory of the results, or of one on the way to it. -/
def IsMadeFor (b : Batch) (t : FileTree) (l : Location) : Prop :=
  ∃ route, Route.ofPath b.results = .ok route ∧ t.IsOnTheWay route l

/-- The location of the report. -/
def IsReportAt (b : Batch) (t : FileTree) (l : Location) : Prop :=
  ∃ here, t.directory b.results = .ok here ∧ l = here ++ ["REPORT.txt"]

theorem IsMadeFor.of_keeps {b : Batch} {t t' : FileTree} {l : Location} (hl : b.IsMadeFor t l)
    (h : KeepsDirectories t t') : b.IsMadeFor t' l := by
  obtain ⟨route, hroute, hl⟩ := hl
  exact ⟨route, hroute, hl.of_keeps h⟩

theorem IsResultFor.of_keeps {b : Batch} {t t' : FileTree} {files : List String} {l : Location}
    (hl : b.IsResultFor t files l) (h : KeepsDirectories t t') : b.IsResultFor t' files l := by
  obtain ⟨here, hhere, hl⟩ := hl
  exact ⟨here, h.directory_eq_ok hhere, hl⟩

/-- **Which directories are made**: that of the results, and those on the way to it. -/
theorem footprint_start (b : Batch) (w : World) :
    Footprint (b.IsMadeFor (b.start w).files) (fun _ => False) w.files (b.start w).files := by
  rw [start, World.createDirectories]
  split
  next => exact Footprint.refl _ _ _
  next =>
    cases hroute : Route.ofPath b.results with
    | error e => exact Footprint.refl _ _ _
    | ok route =>
      exact (footprint_createDirectories w.files route).mono (fun l hl => ⟨route, hroute, hl⟩)
        fun _ => id

/-- A result has another name than the report. -/
theorem not_isResultFor_report {b : Batch} {t : FileTree} {files : List String} {l : Location}
    (h : b.IsReportAt t l) : ¬ b.IsResultFor t files l := by
  obtain ⟨here, -, rfl⟩ := h
  have hother : ¬ IsResult (here ++ ["" ++ "REPORT.txt"]) := not_isResult (by decide)
  rintro ⟨here', -, file, -, heq⟩
  exact hother ⟨here', _, heq⟩

/-- Without a step up, no directory is made in place of the report. -/
theorem not_isMadeFor_report {b : Batch} {t : FileTree} {l : Location} (h : b.IsReportAt t l)
    (hdown : ∀ route, Route.ofPath b.results = .ok route → ".." ∉ route.steps) :
    ¬ b.IsMadeFor t l := by
  rintro ⟨route, hroute, front, ⟨behind, hsteps⟩, hfront⟩
  obtain ⟨here, hhere, rfl⟩ := h
  have hne : b.results ≠ "" := by
    intro hempty
    rw [hempty] at hroute
    cases hroute
  rw [directory, if_neg hne, hroute] at hhere
  have hwalk := walk_filter hhere
  rw [← hsteps, walk_append, hfront] at hwalk
  have hbehind : ".." ∉ behind := by
    intro hmem
    have hfilter : ".." ∈ route.steps.filter (· ≠ ".") := hsteps ▸ List.mem_append_right _ hmem
    exact hdown route hroute (List.mem_filter.1 hfilter).1
  have hlength := (prefix_of_walk hbehind hwalk).length_le
  rw [List.length_append, List.length_singleton] at hlength
  omega

/-! ## A run that stops -/

/-- **A run stops at the first result that cannot be written**, and leaves what the programs before
it have left.  Writing some results makes no difference to whether the others can be written. -/
theorem run_runCases_of_blocked {b : Batch} {before : List String} {file : String} {e : FileError}
    (after : List String) {w : World} (hnames : ∀ f ∈ before ++ [file], IsName f)
    (hbefore : ∀ f ∈ before, ∃ l, w.files.writable (b.resultPath (Text.stem f)) = .ok l)
    (hfile : w.files.writable (b.resultPath (Text.stem file)) = .error e) :
    ∃ cases w₁ w',
      (b.runCases before : StateM World (Except RunError (List Case))).run w = (.ok cases, w₁) ∧
      (b.runCases (before ++ file :: after) : StateM World (Except RunError (List Case))).run w =
        (.error (.file (b.resultPath (Text.stem file)) e), w') ∧
      w'.files = w₁.files := by
  induction before generalizing w with
  | nil =>
    obtain ⟨errors, hstep⟩ := run_runCases_cons b file w
    have hwrite : w.files.write (b.resultPath (Text.stem file)) (b.caseIn w.files file).text =
        .error e := by
      rw [FileTree.write, hfile]
      rfl
    have hrun := hstep after
    rw [hwrite] at hrun
    exact ⟨[], w, { w with errors := errors }, rfl, hrun, rfl⟩
  | cons f before ih =>
    obtain ⟨⟨l, hl⟩, hbefore⟩ := List.forall_mem_cons.1 hbefore
    obtain ⟨hf, hnames⟩ := List.forall_mem_cons.1 hnames
    obtain ⟨t, hwrite⟩ : ∃ t, w.files.write (b.resultPath (Text.stem f)) (b.caseIn w.files f).text =
        .ok t := by
      rw [FileTree.write, hl]
      exact ⟨_, rfl⟩
    have hsame : ∀ g ∈ before ++ [file], t.writable (b.resultPath (Text.stem g)) =
        w.files.writable (b.resultPath (Text.stem g)) := fun g hg =>
      writable_of_write (isName_result hf) (isName_result (hnames g hg)) hwrite
    have hothers : ∀ g ∈ before, ∃ l, t.writable (b.resultPath (Text.stem g)) = .ok l := by
      intro g hg
      rw [hsame g (List.mem_append_left _ hg)]
      exact hbefore g hg
    have hblocked : t.writable (b.resultPath (Text.stem file)) = .error e := by
      rw [hsame file (List.mem_append_right _ List.mem_cons_self), hfile]
    obtain ⟨errors, hstep⟩ := run_runCases_cons b f w
    rw [hwrite] at hstep
    dsimp only at hstep
    obtain ⟨cases, w₁, w', hrun, hstop, hfiles⟩ :=
      ih (w := { w with files := t, errors := errors }) hnames hothers hblocked
    refine ⟨b.caseIn w.files f :: cases, w₁, w', ?_, ?_, hfiles⟩
    · rw [hstep, hrun]
      rfl
    · rw [List.cons_append, hstep, hstop]
      rfl

/-! ## The traces of a run -/

/-- **The traces of some programs**, from the start of the batch: directories on the way to their
results, and the results. -/
theorem footprint_results (b : Batch) {files : List String} (hnames : ∀ file ∈ files, IsName file)
    {w w₁ : World} {outcome : Except RunError (List Case)}
    (h : (b.runCases files : StateM World (Except RunError (List Case))).run (b.start w) =
      (outcome, w₁)) :
    Footprint (b.IsMadeFor w₁.files) (b.IsResultFor w₁.files files) w.files w₁.files := by
  obtain ⟨hrun, -⟩ := footprint_runCases b hnames (b.start w)
  rw [h] at hrun
  refine Footprint.trans ((b.footprint_start w).mono ?_ fun _ => False.elim)
    (hrun.mono (fun _ => False.elim) ?_)
  · exact fun l hl => hl.of_keeps hrun.keeps
  · exact fun l hl => hl.of_keeps hrun.keeps

/-- **The traces of a batch**, whether it succeeds or fails: the report is one of them only if it
succeeds. -/
theorem footprint_run {b : Batch} {w w' : World} {outcome : Except RunError Summary}
    (h : (b.run : StateM World (Except RunError Summary)).run w = (outcome, w')) :
    Footprint (b.IsMadeFor w'.files)
      (fun l => b.IsResultFor w'.files (b.files w) l ∨ outcome.isOk ∧ b.IsReportAt w'.files l)
      w.files w'.files := by
  cases hmade : (w.createDirectories b.results).1 with
  | error e =>
    rw [run_of_start_error hmade] at h
    obtain ⟨-, rfl⟩ := Prod.mk.inj h
    exact (b.footprint_start w).mono (fun _ => id) fun _ => False.elim
  | ok made =>
    rw [run_of_start hmade, runOn, run_bind] at h
    cases hrun : (b.runCases (b.files w) : StateM World (Except RunError (List Case))).run
      (b.start w) with
    | mk result w₁ =>
      have hnames : ∀ file ∈ b.files w, IsName file :=
        fun file hfile => (isListed_of_mem_files hfile).isName
      have hresults := b.footprint_results hnames hrun
      rw [hrun] at h
      cases result with
      | error e =>
        obtain ⟨-, rfl⟩ := Prod.mk.inj h
        exact hresults.mono (fun _ => id) fun _ => Or.inl
      | ok cases =>
        dsimp only at h
        rw [run_finish] at h
        split at h
        next =>
          obtain ⟨-, rfl⟩ := Prod.mk.inj h
          exact hresults.mono (fun _ => id) fun _ => Or.inl
        next t hwrite =>
          obtain ⟨rfl, rfl⟩ := Prod.mk.inj h
          obtain ⟨here, hhere, hreport⟩ := footprint_write isName_report hwrite
          refine Footprint.trans (hresults.mono ?_ ?_) (hreport.mono (fun _ => False.elim) ?_)
          · exact fun l hl => hl.of_keeps hreport.keeps
          · exact fun l hl => Or.inl (hl.of_keeps hreport.keeps)
          · rintro l rfl
            exact Or.inr ⟨rfl, here, hreport.keeps.directory_eq_ok hhere, rfl⟩

theorem isListed_of_mem_before {b : Batch} {w : World} {before behind : List String}
    (hfiles : b.files w = before ++ behind) :
    ∀ file ∈ before, b.IsListed (b.start w).files file := by
  intro file hfile
  refine isListed_of_mem_files ?_
  rw [hfiles]
  exact List.mem_append_left _ hfile

/-- **A batch fails at the first result that cannot be written**, and names it.  The tree is as the
programs before it have left it. -/
theorem run_of_blocked {b : Batch} {w : World}
    (hmade : (w.createDirectories b.results).1 = .ok ()) {before after : List String} {file : String}
    {e : FileError} (hfiles : b.files w = before ++ file :: after)
    (hbefore : ∀ f ∈ before, ∃ l,
      (b.start w).files.writable (b.resultPath (Text.stem f)) = .ok l)
    (hfile : (b.start w).files.writable (b.resultPath (Text.stem file)) = .error e) :
    ∃ cases w₁ w',
      (b.runCases before : StateM World (Except RunError (List Case))).run (b.start w) =
        (.ok cases, w₁) ∧
      (b.run : StateM World (Except RunError Summary)).run w =
        (.error (.file (b.resultPath (Text.stem file)) e), w') ∧
      w'.files = w₁.files := by
  have hnames : ∀ f ∈ before ++ [file], IsName f := fun f hf =>
    (isListed_of_mem_before (hfiles.trans (List.append_cons ..)) f hf).isName
  obtain ⟨cases, w₁, w', hrun, hstop, hsame⟩ :=
    run_runCases_of_blocked after hnames hbefore hfile
  refine ⟨cases, w₁, w', hrun, ?_, hsame⟩
  rw [run_of_start hmade, hfiles, runOn, run_bind, hstop]
  rfl

/-- What a run of the first few programs of a batch has written. -/
theorem stored_of_mem_before {b : Batch} {w w₁ : World} {before behind : List String}
    {cases : List Case} (hfiles : b.files w = before ++ behind)
    (h : (b.runCases before : StateM World (Except RunError (List Case))).run (b.start w) =
      (.ok cases, w₁))
    {file : String} (hfile : file ∈ before) (hlast : file = ".mq" → ".mq.mq" ∉ before) :
    w₁.files.stored (b.resultPath (Text.stem file)) =
      some (b.caseIn (b.start w).files file).text.toUTF8 := by
  have hsorted := b.pairwise_files w
  rw [hfiles] at hsorted
  exact stored_of_mem_runCases (isListed_of_mem_before hfiles)
    (List.pairwise_append.1 hsorted).1 h hfile hlast

end Batch

/-- **A batch leaves its results only.**  Whether it succeeds or fails, directories are made on the way
to the results alone, files are written as results of its programs alone, and the report is written
only if it succeeds.  If the result of some program is the first that cannot be written, the batch fails
and names it; nothing of a later program is written, and the results of the programs before it are in
place, but for that of `.mq` if `.mq.mq` is one of them too.  The report has its place, and one that
was there is as it was; only a path to the results that steps up can have put a directory where there
was none. -/
theorem batch_leaves_results_only {b : Batch} {w w' : World} {outcome : Except RunError Summary}
    (h : (b.run : StateM World (Except RunError Summary)).run w = (outcome, w')) :
    Footprint (b.IsMadeFor w'.files)
      (fun l => b.IsResultFor w'.files (b.files w) l ∨ outcome.isOk ∧ b.IsReportAt w'.files l)
      w.files w'.files ∧
    ∀ before file after e, (w.createDirectories b.results).1 = .ok () →
      b.files w = before ++ file :: after →
      (∀ f ∈ before, ∃ l, (b.start w).files.writable (b.resultPath (Text.stem f)) = .ok l) →
      (b.start w).files.writable (b.resultPath (Text.stem file)) = .error e →
      outcome = .error (.file (b.resultPath (Text.stem file)) e) ∧
      Footprint (b.IsMadeFor w'.files) (b.IsResultFor w'.files before) w.files w'.files ∧
      (∃ l, b.IsReportAt w'.files l) ∧
      (∀ l, b.IsReportAt w'.files l →
        (∀ bytes access, w'.files.lookup l = some (.file bytes access) ↔
          w.files.lookup l = some (.file bytes access)) ∧
        ((∀ route, Route.ofPath b.results = .ok route → ".." ∉ route.steps) →
          w'.files.lookup l = w.files.lookup l)) ∧
      ∀ f ∈ before, (f = ".mq" → ".mq.mq" ∉ before) →
        w'.files.stored (b.resultPath (Text.stem f)) =
          some ((b.runCase f : StateM World Case).run (b.start w)).1.text.toUTF8 := by
  refine ⟨Batch.footprint_run h, ?_⟩
  intro before file after e hmade hfiles hbefore hfile
  obtain ⟨cases, w₁, w'', hrun, hstop, hsame⟩ := Batch.run_of_blocked hmade hfiles hbefore hfile
  obtain ⟨rfl, rfl⟩ := Prod.mk.inj (h.symm.trans hstop)
  have hnames : ∀ f ∈ before, IsName f := fun f hf =>
    (Batch.isListed_of_mem_before hfiles f hf).isName
  have hfootprint := b.footprint_results hnames hrun
  rw [← hsame] at hfootprint
  refine ⟨rfl, hfootprint, ?_, ?_, ?_⟩
  · obtain ⟨here, hhere⟩ := World.exists_directory_createDirectories hmade
    obtain ⟨hwritten, -⟩ := Batch.footprint_runCases b hnames (b.start w)
    rw [hrun, ← hsame] at hwritten
    exact ⟨_, here, hwritten.keeps.directory_eq_ok hhere, rfl⟩
  · intro l hreport
    have hresult : ¬ b.IsResultFor w'.files before l := Batch.not_isResultFor_report hreport
    exact ⟨hfootprint.file_iff hresult, fun hdown =>
      hfootprint.lookup_eq (Batch.not_isMadeFor_report hreport hdown) hresult⟩
  · intro f hf hlast
    rw [Batch.fst_runCase, ← Batch.stored_of_mem_before hfiles hrun hf hlast, ← hsame]

/-- The programs `.mq`, `.mq.mq` and `a.mq`, and something where the result of the last would be. -/
def blockedWorld (e : Entry) : World where
  files := ((twinWorld.files.put ["p", "a.mq"] (.file "".toUTF8)).put ["r"] .directory).put
    ["r", "a.result.txt"] e

/-- The results of `.mq` and `.mq.mq` can be written, and that of `a.mq` cannot. -/
structure IsBlocked (w : World) (e : FileError) : Prop where
  files_eq : twinBatch.files w = [".mq", ".mq.mq"] ++ "a.mq" :: []
  made : (w.createDirectories twinBatch.results).1 = .ok ()
  before : ∀ f ∈ [".mq", ".mq.mq"],
    ∃ l, (twinBatch.start w).files.writable (twinBatch.resultPath (Text.stem f)) = .ok l
  blocked : (twinBatch.start w).files.writable (twinBatch.resultPath (Text.stem "a.mq")) = .error e

/-- Both `.mq` and `.mq.mq` have the same result file. -/
theorem isBlocked_of_writable {w : World} {e : FileError} {l : Location}
    (hnames : ((twinBatch.start w).files.names twinBatch.programDirectory).filter
      Batch.isProgram = [".mq", ".mq.mq", "a.mq"])
    (hmade : (w.createDirectories twinBatch.results).1 = .ok ())
    (hwritable : (twinBatch.start w).files.writable (twinBatch.resultPath ".mq") = .ok l)
    (hblocked : (twinBatch.start w).files.writable
      (twinBatch.resultPath (Text.stem "a.mq")) = .error e) : IsBlocked w e := by
  refine ⟨Batch.files_eq_of_names hnames (by decide), hmade, ?_, hblocked⟩
  intro f hf
  have hstem : Text.stem f = ".mq" := by
    revert f
    decide
  exact ⟨l, hstem ▸ hwritable⟩

/-- A directory bars the way, or a file that may not be written. -/
theorem isBlocked_blockedWorld :
    IsBlocked (blockedWorld .directory) .isDirectory ∧
      IsBlocked (blockedWorld (.file "".toUTF8 { write := false })) .denied :=
  ⟨isBlocked_of_writable (l := ["r", ".mq.result.txt"]) (by decide +kernel) (by decide +kernel)
      (by decide +kernel) (by decide +kernel),
    isBlocked_of_writable (l := ["r", ".mq.result.txt"]) (by decide +kernel) (by decide +kernel)
      (by decide +kernel) (by decide +kernel)⟩

/-- The path of the result that cannot be written. -/
theorem resultPath_blocked : twinBatch.resultPath (Text.stem "a.mq") = "r/a.result.txt" := by
  decide

theorem batch_leaves_results_only_blocked :
    let w := blockedWorld (.file "".toUTF8 { write := false })
    ∃ w', (twinBatch.run : StateM World (Except RunError Summary)).run w =
        (.error (.file "r/a.result.txt" .denied), w') ∧
      Footprint (twinBatch.IsMadeFor w'.files)
        (twinBatch.IsResultFor w'.files [".mq", ".mq.mq"]) w.files w'.files ∧
      w'.files.stored (twinBatch.resultPath (Text.stem ".mq.mq")) =
        some ((twinBatch.runCase ".mq.mq" : StateM World Case).run
          (twinBatch.start w)).1.text.toUTF8 := by
  intro w
  obtain ⟨hfiles, hmade, hbefore, hfile⟩ := isBlocked_blockedWorld.2
  cases hrun : (twinBatch.run : StateM World (Except RunError Summary)).run w with
  | mk outcome w' =>
    obtain ⟨-, hstops⟩ := batch_leaves_results_only hrun
    obtain ⟨rfl, hfootprint, -, -, hkept⟩ := hstops _ _ _ _ hmade hfiles hbefore hfile
    refine ⟨w', by rw [resultPath_blocked], hfootprint, ?_⟩
    exact hkept ".mq.mq" (by decide) fun h => absurd h (by decide)

/-- **A result is lost before the batch stops**: the first two of the three programs have the same
result file, and it holds the case of the second one only. -/
theorem earlier_result_overwritten :
    twinBatch.files (blockedWorld .directory) = [".mq", ".mq.mq", "a.mq"] ∧
      ∃ w', (twinBatch.run : StateM World (Except RunError Summary)).run
          (blockedWorld .directory) = (.error (.file "r/a.result.txt" .isDirectory), w') ∧
        w'.files.stored (twinBatch.resultPath (Text.stem ".mq")) ≠
          some ((twinBatch.runCase ".mq" : StateM World Case).run
            (twinBatch.start (blockedWorld .directory))).1.text.toUTF8 := by
  obtain ⟨hfiles, hmade, hbefore, hfile⟩ := isBlocked_blockedWorld.1
  refine ⟨hfiles, ?_⟩
  obtain ⟨cases, w₁, w', hrun, hstop, hsame⟩ :=
    Batch.run_of_blocked hmade hfiles hbefore hfile
  rw [resultPath_blocked] at hstop
  refine ⟨w', hstop, ?_⟩
  have hstem : Text.stem ".mq" = Text.stem ".mq.mq" := by decide
  have hmem : ".mq.mq" ∈ [".mq", ".mq.mq"] := by decide
  have hlong := Batch.stored_of_mem_before hfiles hrun hmem fun h => absurd h (by decide)
  have hdiffer : (twinBatch.caseIn (twinBatch.start (blockedWorld .directory)).files ".mq.mq").text ≠
      (twinBatch.caseIn (twinBatch.start (blockedWorld .directory)).files ".mq").text := by
    decide +kernel
  rw [← hsame, ← hstem] at hlong
  intro hkept
  rw [Batch.fst_runCase] at hkept
  exact hdiffer (String.toByteArray_inj.1 (Option.some.inj (hlong.symm.trans hkept)))

end QueryPipeline
