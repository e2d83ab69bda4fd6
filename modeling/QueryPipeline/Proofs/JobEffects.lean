/-
# What a job leaves behind

A job has many exits: there is no program, the form of the text is all that is asked for, the field
types cannot be loaded, the compilation fails, the script cannot be written.  All of them leave the
files as they are, and so does a success that no file is named for.  At the one exit that is left,
that file holds the script, and nothing else changes.

* `Job.Exits` : the exits of a job, each with its outcome and the files that it leaves;
* `Job.exits_run` : a run takes one of them;
* `Job.Exits.files_eq`, `Job.Exits.exists_written` : what the files are afterwards;
* `checkForm_of_malformed`, `checkForm_of_not_malformed` : a check of the form agrees with
  compilation;
* `job_writes_code_only` : the whole law.
-/
import QueryPipeline.Proofs.BatchRuns
import QueryPipeline.Proofs.DescriptorRoundTrip

namespace QueryPipeline

open FileTree

/-! ## Loading the rules -/

theorem World.files_log (w : World) (e : LogEntry) : (w.log e).files = w.files := by
  obtain ⟨errors, hlog⟩ := Batch.log_eq w e
  rw [hlog]

/-- Loading field types leaves the files as they are. -/
theorem FieldTable.files_load (schema : Option String) (w : World) :
    ((load schema : StateM World (Except RunError FieldTable)).run w).2.files = w.files := by
  cases schema with
  | none => rfl
  | some path =>
    rw [load, run_bind, run_readText]
    dsimp only
    cases w.files.text path with
    | error e => rfl
    | ok text =>
      dsimp only
      cases ofDescriptor text with
      | error e => rfl
      | ok table => exact w.files_log _

theorem Rules.files_load (schema : Option String) (strict : Bool) (w : World) :
    ((load schema strict : StateM World (Except RunError Rules)).run w).2.files = w.files :=
  FieldTable.files_load schema w

namespace Job

/-- The rules that a job finds in a world. -/
def rulesIn (job : Job) (w : World) : Except RunError Rules :=
  ((Rules.load job.schema job.strict : StateM World (Except RunError Rules)).run w).1

theorem rulesIn_of_load {job : Job} {w : World} {table : FieldTable}
    (h : ((FieldTable.load job.schema : StateM World (Except RunError FieldTable)).run w).1 =
      .ok table) : job.rulesIn w = .ok ⟨table, job.strict⟩ := by
  rw [rulesIn, Rules.load, run_bind, h]
  rfl

/-- The outcome of a job in a world. -/
def outcomeIn (job : Job) (w : World) : Except RunError JobOutcome :=
  ((job.run : StateM World (Except RunError JobOutcome)).run w).1

/-- The files that a job leaves. -/
def filesAfter (job : Job) (w : World) : FileTree :=
  ((job.run : StateM World (Except RunError JobOutcome)).run w).2.files

/-! ## The exits of a job -/

/-- The job comes to compile a text, by some rules. -/
structure Compiles (job : Job) (w : World) (source : String) (rules : Rules) : Prop where
  source_eq : job.source = some source
  full : job.formOnly = false
  rules_eq : job.rulesIn w = .ok rules

/-- The exits of a job in a world: its outcome, and the files that it leaves. -/
inductive Exits (job : Job) (w : World) : Except RunError JobOutcome → FileTree → Prop where
  | noInput (hsource : job.source = none) : Exits job w (.error .noInput) w.files
  | checked {source : String} (hsource : job.source = some source) (hform : job.formOnly = true) :
    Exits job w (.ok (checkForm source)) w.files
  | unloaded {source : String} {e : RunError} (hsource : job.source = some source)
      (hform : job.formOnly = false) (hrules : job.rulesIn w = .error e) :
    Exits job w (.error e) w.files
  | failed {source : String} {rules : Rules} {failure : Failure} (h : job.Compiles w source rules)
      (hcompile : compile rules source = .error failure) :
    Exits job w (.ok (.failed failure.verdict.report)) w.files
  | shown {source : String} {rules : Rules} {c : Compiled} (h : job.Compiles w source rules)
      (hcompile : compile rules source = .ok c) (houtput : job.output = none) :
    Exits job w (.ok (.compiled (Verdict.success c.code).report c.code)) w.files
  | unwritten {source path : String} {rules : Rules} {c : Compiled} {e : FileError}
      (h : job.Compiles w source rules) (hcompile : compile rules source = .ok c)
      (houtput : job.output = some path) (hwrite : w.files.write path c.code = .error e) :
    Exits job w (.error (.file path e)) w.files
  | written {source path : String} {rules : Rules} {c : Compiled} {t : FileTree}
      (h : job.Compiles w source rules) (hcompile : compile rules source = .ok c)
      (houtput : job.output = some path) (hwrite : w.files.write path c.code = .ok t) :
    Exits job w (.ok (.compiled (Verdict.success c.code).report c.code)) t

/-- Handing over a script to a file. -/
theorem run_deliver {job : Job} {path : String} (h : job.output = some path) (c : Compiled)
    (w : World) :
    ∃ errors, (job.deliver c : StateM World (Except RunError JobOutcome)).run w =
      match w.files.write path c.code with
      | .error e => (.error (.file path e), w)
      | .ok t => (.ok (.compiled (Verdict.success c.code).report c.code),
          { w with files := t, errors := errors }) := by
  rw [deliver, h]
  dsimp only
  rw [run_bind]
  cases hwrite : w.files.write path c.code with
  | error e =>
    rw [Batch.run_write_error w hwrite]
    exact ⟨w.errors, rfl⟩
  | ok t =>
    rw [Batch.run_write_ok w hwrite]
    obtain ⟨errors, hlog⟩ := Batch.log_eq { w with files := t }
      ⟨.debug, "cli::compile", "wrote generated code to " ++ path⟩
    exact ⟨errors, congrArg (Prod.mk _) hlog⟩

/-- A job that comes to compile its text has noted its progress, and changed no file so far. -/
theorem run_of_compiles {job : Job} {w : World} {source : String} {rules : Rules}
    (h : job.Compiles w source rules) :
    ∃ w₁ : World, w₁.files = w.files ∧
      (job.run : StateM World (Except RunError JobOutcome)).run w =
        match compile rules source with
        | .error failure => (.ok (.failed failure.verdict.report), w₁)
        | .ok c => (job.deliver c : StateM World (Except RunError JobOutcome)).run w₁ := by
  have hrules := h.rules_eq
  rw [rulesIn] at hrules
  rw [run, h.source_eq]
  dsimp only
  rw [if_neg (by rw [h.full]; exact Bool.false_ne_true), compileSource, run_bind, hrules]
  dsimp only
  rw [run_bind]
  refine ⟨_, (files_logAll (Trace.compilation rules source) _).trans
    (Rules.files_load job.schema job.strict w), ?_⟩
  cases compile rules source with
  | error failure => rfl
  | ok c => rfl

/-- **A run takes one of the exits.** -/
theorem exits_run (job : Job) (w : World) :
    job.Exits w (job.outcomeIn w) (job.filesAfter w) := by
  rw [outcomeIn, filesAfter]
  cases hsource : job.source with
  | none =>
    rw [run, hsource]
    exact .noInput hsource
  | some source =>
    cases hform : job.formOnly with
    | true =>
      rw [run, hsource, hform]
      exact .checked hsource hform
    | false =>
      cases hrules : job.rulesIn w with
      | error e =>
        have hexit := Exits.unloaded hsource hform hrules
        rw [← Rules.files_load job.schema job.strict w] at hexit
        rw [rulesIn] at hrules
        rw [run, hsource, hform]
        dsimp only
        rw [if_neg Bool.false_ne_true, compileSource, run_bind, hrules]
        exact hexit
      | ok rules =>
        have h : job.Compiles w source rules := ⟨hsource, hform, hrules⟩
        obtain ⟨w₁, hfiles, hrun⟩ := run_of_compiles h
        rw [hrun]
        cases hcompile : compile rules source with
        | error failure => exact hfiles ▸ .failed h hcompile
        | ok c =>
          dsimp only
          cases houtput : job.output with
          | none =>
            rw [deliver, houtput]
            exact hfiles ▸ .shown h hcompile houtput
          | some path =>
            obtain ⟨errors, hdeliver⟩ := run_deliver houtput c w₁
            rw [hdeliver, hfiles]
            cases hwrite : w.files.write path c.code with
            | error e => exact hfiles ▸ .unwritten h hcompile houtput hwrite
            | ok t => exact .written h hcompile houtput hwrite

/-- A job that hands over no script, or has no file for it, leaves the files as they are. -/
theorem Exits.files_eq {job : Job} {w : World} {outcome : Except RunError JobOutcome} {t : FileTree}
    (h : job.Exits w outcome t)
    (hnone : ∀ report code, outcome = .ok (.compiled report code) → job.output = none) :
    t = w.files := by
  cases h with
  | written _ _ houtput _ =>
    rw [hnone _ _ rfl] at houtput
    cases houtput
  | _ => rfl

/-- **A job that hands over a script to a file** has compiled its program, and has written the
script at the location that the path names. -/
theorem Exits.exists_written {job : Job} {w : World} {t : FileTree} {report code path : String}
    (h : job.Exits w (.ok (.compiled report code)) t) (houtput : job.output = some path) :
    ∃ source rules c, job.Compiles w source rules ∧ compile rules source = .ok c ∧ code = c.code ∧
      report = reportOn rules source ∧ w.files.write path code = .ok t := by
  generalize houtcome : Except.ok (JobOutcome.compiled report code) = outcome at h
  cases h with
  | written h hcompile hpath hwrite =>
    obtain ⟨rfl, rfl⟩ := JobOutcome.compiled.inj (Except.ok.inj houtcome)
    obtain rfl := Option.some.inj (hpath.symm.trans houtput)
    refine ⟨_, _, _, h, hcompile, rfl, ?_, hwrite⟩
    rw [reportOn, hcompile]
    rfl
  | shown _ _ hnone =>
    rw [hnone] at houtput
    cases houtput
  | @checked source hsource _ =>
    rw [checkForm] at houtcome
    split at houtcome
    · cases houtcome
    · cases houtcome
  | _ => cases houtcome

/-- A job with a file for the script succeeds if its program compiles and the file can be
written. -/
theorem outcomeIn_of_writable {job : Job} {w : World} {source path : String} {rules : Rules}
    {c : Compiled} (h : job.Compiles w source rules) (hcompile : compile rules source = .ok c)
    (houtput : job.output = some path) {l : Location} (hl : w.files.writable path = .ok l) :
    job.outcomeIn w = .ok (.compiled (reportOn rules source) c.code) := by
  obtain ⟨w₁, hfiles, hrun⟩ := run_of_compiles h
  obtain ⟨errors, hdeliver⟩ := run_deliver houtput c w₁
  have hwrite : w.files.write path c.code = .ok _ := write_eq_ok_iff.2 ⟨l, hl, rfl⟩
  rw [hfiles, hwrite] at hdeliver
  rw [hcompile] at hrun
  dsimp only at hrun
  rw [outcomeIn, hrun, hdeliver, reportOn, hcompile]
  rfl

end Job

/-! ## The form of a program -/

/-- A compilation finds a text malformed if and only if it does not parse. -/
theorem compile_eq_malformed_iff {rules : Rules} {source : String} {faults : List Fault} :
    compile rules source = .error (.malformed faults) ↔ parse source = .error faults := by
  rw [compile, Attempt.settle, compileStages]
  cases parse source with
  | error found => simp
  | ok program =>
    dsimp only
    rw [compileProgram]
    split <;> simp

theorem checkForm_of_malformed {rules : Rules} {source : String} {faults : List Fault}
    (h : compile rules source = .error (.malformed faults)) :
    checkForm source = .failed (reportOn rules source) := by
  rw [checkForm, compile_eq_malformed_iff.1 h, reportOn, h]
  rfl

theorem checkForm_of_not_malformed {rules : Rules} {source : String}
    (h : ∀ faults, compile rules source ≠ .error (.malformed faults)) :
    checkForm source = .wellFormed := by
  rw [checkForm]
  split
  next => rfl
  next faults hparse => exact absurd (compile_eq_malformed_iff.2 hparse) (h faults)

namespace Job

/-- **A check of the form** looks at the text alone. -/
theorem outcomeIn_formOnly {job : Job} {source : String} (h : job.source = some source)
    (w : World) : { job with formOnly := true }.outcomeIn w = .ok (checkForm source) := by
  rw [outcomeIn, run, h]
  rfl

/-- A job that compiles a malformed text fails as a check of its form does. -/
theorem outcomeIn_of_malformed {job : Job} {w : World} {source : String} {rules : Rules}
    (h : job.Compiles w source rules) {faults : List Fault}
    (hcompile : compile rules source = .error (.malformed faults)) :
    job.outcomeIn w = .ok (checkForm source) := by
  obtain ⟨w₁, -, hrun⟩ := run_of_compiles h
  rw [hcompile] at hrun
  rw [outcomeIn, hrun, checkForm_of_malformed hcompile, reportOn, hcompile]
  rfl

end Job

/-- **A job writes its script only.**  Unless it hands over a script and a file is named for it, the
files are as they were.  If both is the case, the only change is at the location that the path
names: it holds the script, without the report around it.  And whatever the field types, the order
and the file, a check of the form fails if and only if the compilation finds the text malformed, with
the same report, and finds the text well-formed otherwise. -/
theorem job_writes_code_only (job : Job) (w : World) :
    ((∀ report code, job.outcomeIn w = .ok (.compiled report code) → job.output = none) →
      job.filesAfter w = w.files) ∧
    (∀ report code path, job.outcomeIn w = .ok (.compiled report code) → job.output = some path →
      ∃ l, w.files.writable path = .ok l ∧ AgreesBut (· = l) w.files (job.filesAfter w) ∧
        (job.filesAfter w).lookup l = some (.file code.toUTF8 (w.files.accessAt l)) ∧
        ((w.files.accessAt l).read → (job.filesAfter w).text path = .ok code) ∧
        ∃ source rules c, job.Compiles w source rules ∧ compile rules source = .ok c ∧
          code = c.code ∧ report = reportOn rules source) ∧
    ∀ source, job.source = some source →
      (∀ rules, job.rulesIn w = .ok rules →
        ((∃ report, { job with formOnly := true }.outcomeIn w = .ok (.failed report)) ↔
          ∃ faults, compile rules source = .error (.malformed faults)) ∧
        (∀ faults, compile rules source = .error (.malformed faults) →
          { job with formOnly := true }.outcomeIn w = .ok (.failed (reportOn rules source)) ∧
          { job with formOnly := false }.outcomeIn w = .ok (.failed (reportOn rules source))) ∧
        ((∀ faults, compile rules source ≠ .error (.malformed faults)) →
          { job with formOnly := true }.outcomeIn w = .ok .wellFormed)) ∧
      ∀ (other : Job) (w₁ : World), other.source = some source →
        { other with formOnly := true }.outcomeIn w₁ = { job with formOnly := true }.outcomeIn w := by
  have hexit := job.exits_run w
  refine ⟨hexit.files_eq, ?_, ?_⟩
  · intro report code path houtcome houtput
    rw [houtcome] at hexit
    obtain ⟨source, rules, c, hcompiles, hcompile, hcode, hreport, hwrite⟩ :=
      hexit.exists_written houtput
    obtain ⟨l, hl, hfiles⟩ := write_eq_ok_iff.1 hwrite
    have hfootprint := footprint_put hl code.toUTF8
    have hlookup := lookup_put_self (admits_of_writable hl code.toUTF8 (w.files.accessAt l))
    rw [← hfiles] at hfootprint hlookup
    have hresolve := hfootprint.keeps.resolve_eq_ok (writable_eq_ok_iff.1 hl).1
    exact ⟨l, hl, hfootprint.agreesBut, hlookup, text_of_lookup hresolve hlookup,
      source, rules, c, hcompiles, hcompile, hcode, hreport⟩
  · intro source hsource
    refine ⟨?_, ?_⟩
    · intro rules hrules
      have hfull : { job with formOnly := false }.Compiles w source rules := ⟨hsource, rfl, hrules⟩
      rw [Job.outcomeIn_formOnly hsource]
      refine ⟨⟨?_, ?_⟩, ?_, ?_⟩
      · rintro ⟨report, hreport⟩
        by_contra hnone
        rw [checkForm_of_not_malformed (not_exists.1 hnone)] at hreport
        cases hreport
      · rintro ⟨faults, hfaults⟩
        exact ⟨_, congrArg Except.ok (checkForm_of_malformed hfaults)⟩
      · intro faults hfaults
        rw [Job.outcomeIn_of_malformed hfull hfaults, checkForm_of_malformed hfaults]
        exact ⟨rfl, rfl⟩
      · intro hnone
        exact congrArg Except.ok (checkForm_of_not_malformed hnone)
    · intro other w₁ hother
      rw [Job.outcomeIn_formOnly hsource, Job.outcomeIn_formOnly hother]

/-- A job whose script goes to the very file that describes the field types, by another path. -/
def overwritingJob : Job where
  source := some "LOAD \"a.json\""
  output := some "/types.json"
  schema := some "types.json"
  strict := true

theorem compiles_overwritingJob :
    overwritingJob.Compiles (descriptorWorld FieldTable.standard.pretty) "LOAD \"a.json\""
      ⟨FieldTable.standard, true⟩ := by
  have hback := (FieldTable.ofDescriptor_of_object _ FieldTable.standard.toList_pretty).2
    FieldTable.isDotted_standard
  have hload := FieldTable.load_eq_ok_iff.2
    ⟨_, text_descriptorWorld FieldTable.standard.pretty, hback⟩
  exact ⟨rfl, rfl, Job.rulesIn_of_load hload⟩

theorem job_writes_code_only_overwriting :
    let w := descriptorWorld FieldTable.standard.pretty
    ∃ report code, overwritingJob.outcomeIn w = .ok (.compiled report code) ∧
      (overwritingJob.filesAfter w).text "/types.json" = .ok code ∧
      AgreesBut (· = ["types.json"]) w.files (overwritingJob.filesAfter w) ∧
      { overwritingJob with formOnly := true }.outcomeIn w = .ok .wellFormed := by
  intro w
  have hparse : parse "LOAD \"a.json\"" = .ok [⟨1, .load "\"a.json\""⟩] :=
    eq_ok_of_toOption (by decide +kernel)
  have hcompile := compile_eq_ok_iff.2
    ⟨_, hparse, (by decide : problemsAfter ⟨FieldTable.standard, true⟩ {} _ = []), rfl⟩
  have hwritable : w.files.writable "/types.json" = .ok ["types.json"] := rfl
  have hcompiled := Job.outcomeIn_of_writable compiles_overwritingJob hcompile rfl hwritable
  obtain ⟨-, hwritten, hform⟩ := job_writes_code_only overwritingJob w
  obtain ⟨l, hl, hagree, -, htext, -⟩ := hwritten _ _ _ hcompiled rfl
  obtain rfl := Except.ok.inj (hwritable.symm.trans hl)
  obtain ⟨-, -, hwell⟩ := (hform _ rfl).1 _ compiles_overwritingJob.rules_eq
  refine ⟨_, _, hcompiled, htext rfl, hagree, hwell ?_⟩
  intro faults hfaults
  rw [hcompile] at hfaults
  cases hfaults

end QueryPipeline
