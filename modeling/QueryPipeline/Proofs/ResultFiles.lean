/-
# Result files after a batch

Every case of a batch is written to a file of its own name, and the name of a case is that of its
program without the ending.  A file named just `.mq` has no ending to lose, and so shares the name
of its case with `.mq.mq`.  There is no other pair like that: all results but one are sure to be
kept.

* `Text.stem_program`, `stem_eq_stem_iff` : the names of cases, and which programs share one;
* `stored_runCases` : the last result written under a name stays;
* `stored_of_mem_runCases`, `stored_result` : what the result file of a program holds;
* `results_kept_iff` : when all results are kept;
* `result_overwritten` : a batch that loses one.
-/
import Mathlib.Data.List.Nodup
import QueryPipeline.Proofs.BatchRuns

namespace QueryPipeline

open FileTree

/-! ## Names of cases -/

/-- The name of a program without its ending. -/
theorem Text.stem_program (front : String) :
    Text.stem (front ++ ".mq") = if front = "" then ".mq" else front := by
  have hreverse : (front ++ ".mq").toList.reverse = ['q', 'm', '.'] ++ front.toList.reverse := by
    rw [String.toList_append, List.reverse_append]
    rfl
  have hdrop : (((front ++ ".mq").toList.reverse.dropWhile (· != '.')).drop 1) =
      front.toList.reverse := by
    rw [hreverse]
    rfl
  rw [Text.stem, hdrop]
  by_cases hfront : front = ""
  · subst hfront
    rfl
  · have hne : front.toList.reverse ≠ [] := by
      rw [ne_eq, List.reverse_eq_nil_iff, String.toList_eq_nil_iff]
      exact hfront
    rw [if_neg hfront]
    split
    next hnil => exact absurd hnil hne
    next => rw [List.reverse_reverse, String.ofList_toList]

namespace Batch

/-- **Two programs share the name of their case** only if they are `.mq` and `.mq.mq`. -/
theorem stem_eq_stem_iff {f g : String} (hf : isProgram f) (hg : isProgram g) :
    Text.stem f = Text.stem g ↔
      f = g ∨ (f = ".mq" ∧ g = ".mq.mq") ∨ (f = ".mq.mq" ∧ g = ".mq") := by
  constructor
  · intro h
    obtain ⟨x, rfl⟩ := isProgram_iff.1 hf
    obtain ⟨y, rfl⟩ := isProgram_iff.1 hg
    rw [Text.stem_program, Text.stem_program] at h
    by_cases hx : x = ""
    · by_cases hy : y = ""
      · exact Or.inl (by rw [hx, hy])
      · rw [if_pos hx, if_neg hy] at h
        subst hx h
        exact Or.inr (Or.inl ⟨rfl, rfl⟩)
    · by_cases hy : y = ""
      · rw [if_neg hx, if_pos hy] at h
        subst hy h
        exact Or.inr (Or.inr ⟨rfl, rfl⟩)
      · rw [if_neg hx, if_neg hy] at h
        exact Or.inl (by rw [h])
  · rintro (rfl | ⟨rfl, rfl⟩ | ⟨rfl, rfl⟩)
    · rfl
    · decide
    · decide

/-! ## The last result under a name -/

theorem result_injective {here here' : Location} {name name' : String}
    (h : here ++ [name ++ ".result.txt"] = here' ++ [name' ++ ".result.txt"]) : name = name' := by
  have hlast : name ++ ".result.txt" = name' ++ ".result.txt" := by
    simpa using congrArg List.getLast? h
  exact String.append_left_inj _ |>.1 hlast

/-- A result is still there in a tree that differs in others only. -/
theorem stored_of_agreesBut {changed : Location → Prop} {t t' : FileTree}
    (h : AgreesBut changed t t') {b : Batch} {file : String} (hfile : IsName file)
    (hunchanged : ∀ here, ¬ changed (here ++ [Text.stem file ++ ".result.txt"])) {bytes : ByteArray}
    (hstored : t.stored (b.resultPath (Text.stem file)) = some bytes) :
    t'.stored (b.resultPath (Text.stem file)) = some bytes := by
  refine h.stored_eq_some hstored ?_
  intro l hl
  obtain ⟨here, -, rfl⟩ := exists_of_resolve_joinPath (isName_result hfile) hl
  exact hunchanged here

/-- **The last result written under a name stays.** -/
theorem stored_runCases {b : Batch} {files : List String} {w w' : World}
    {before after : List Case} {c : Case} (hfiles : ∀ file ∈ files, IsName file)
    (h : (b.runCases files : StateM World (Except RunError (List Case))).run w =
      (.ok (before ++ c :: after), w'))
    (hlast : ∀ c' ∈ after, c'.name ≠ c.name) :
    w'.files.stored (b.resultPath c.name) = some c.text.toUTF8 := by
  induction files generalizing w before with
  | nil =>
    obtain ⟨hcases, -⟩ := Prod.mk.inj h
    have hnil : [] = before ++ c :: after := Except.ok.inj hcases
    simp at hnil
  | cons file files ih =>
    obtain ⟨hfile, hfiles⟩ := List.forall_mem_cons.1 hfiles
    obtain ⟨errors, t, others, hwrite, hcases, hothers⟩ := runCases_cons h
    cases before with
    | nil =>
      obtain ⟨rfl, rfl⟩ := List.cons.inj hcases
      obtain ⟨hrest, -⟩ := agreesBut_runCases hfiles hothers
      rw [name_caseIn] at hlast ⊢
      refine stored_of_agreesBut hrest hfile ?_ (stored_of_write hwrite)
      rintro here ⟨here', -, c', hc', heq⟩
      exact hlast c' hc' (result_injective heq).symm
    | cons first before =>
      obtain ⟨rfl, rfl⟩ := List.cons.inj hcases
      exact ih hfiles hothers

/-- Among programs in order, only `.mq.mq` can follow one with the same name of its case. -/
theorem stem_ne_of_after {before after : List String} {file : String}
    (hprograms : ∀ f ∈ before ++ file :: after, isProgram f)
    (hsorted : (before ++ file :: after).Pairwise fun f g => Text.bytes f < Text.bytes g)
    (hlast : file = ".mq" → ".mq.mq" ∉ before ++ file :: after) :
    ∀ g ∈ after, Text.stem g ≠ Text.stem file := by
  intro g hg hstem
  have hgmem : g ∈ before ++ file :: after := by simp [hg]
  have hlt : Text.bytes file < Text.bytes g :=
    (List.pairwise_cons.1 (List.pairwise_append.1 hsorted).2.1).1 g hg
  rcases (stem_eq_stem_iff (hprograms g hgmem) (hprograms file (by simp))).1 hstem
    with rfl | ⟨rfl, rfl⟩ | ⟨rfl, rfl⟩
  · exact List.lt_irrefl _ hlt
  · exact absurd hlt (by decide)
  · exact hlast rfl hgmem

/-- **The result file of a program that was run** holds its case, unless the program is `.mq` and
`.mq.mq` was run too. -/
theorem stored_of_mem_runCases {b : Batch} {files : List String} {w w' : World} {cases : List Case}
    (hlisted : ∀ file ∈ files, b.IsListed w.files file)
    (hsorted : files.Pairwise fun f g => Text.bytes f < Text.bytes g)
    (h : (b.runCases files : StateM World (Except RunError (List Case))).run w = (.ok cases, w'))
    {file : String} (hfile : file ∈ files) (hlast : file = ".mq" → ".mq.mq" ∉ files) :
    w'.files.stored (b.resultPath (Text.stem file)) =
      some (b.caseIn w.files file).text.toUTF8 := by
  rw [cases_runCases hlisted (AgreesBut.refl _ _) h] at h
  obtain ⟨before, after, rfl⟩ := List.append_of_mem hfile
  rw [List.map_append, List.map_cons] at h
  have hstored := stored_runCases (fun f hf => (hlisted f hf).isName) h ?_
  · rwa [name_caseIn] at hstored
  · intro c hc
    obtain ⟨g, hg, rfl⟩ := List.mem_map.1 hc
    rw [name_caseIn, name_caseIn]
    exact stem_ne_of_after (fun f hf => (hlisted f hf).program) hsorted hlast g hg

/-- **The result file of a program** holds its case, unless the program is `.mq` and there is a
`.mq.mq` too. -/
theorem stored_result {b : Batch} {w w' : World} {summary : Summary}
    (h : (b.run : StateM World (Except RunError Summary)).run w = (.ok summary, w'))
    {file : String} (hfile : file ∈ b.files w) (hlast : file = ".mq" → ".mq.mq" ∉ b.files w) :
    w'.files.stored (b.resultPath (Text.stem file)) =
      some (b.caseIn (b.start w).files file).text.toUTF8 := by
  obtain ⟨w₁, hrun, -, hreport⟩ := run_eq_ok h
  have hlisted : ∀ file ∈ b.files w, b.IsListed (b.start w).files file :=
    fun file hfile => isListed_of_mem_files hfile
  have hwritten := stored_of_mem_runCases hlisted (pairwise_files b w) hrun hfile hlast
  -- The report has a name of its own.
  obtain ⟨there, -, hfootprint⟩ := footprint_write isName_report hreport
  have hother : ¬ IsResult (there ++ ["" ++ "REPORT.txt"]) := not_isResult (by decide)
  refine stored_of_agreesBut hfootprint.agreesBut (hlisted file hfile).isName ?_ hwritten
  intro here heq
  exact hother ⟨here, _, heq.symm⟩

/-- The names of the cases are all different unless `.mq` and `.mq.mq` are both there. -/
theorem nodup_names_iff {b : Batch} {w : World} {t : FileTree} :
    (((b.files w).map (b.caseIn t)).map Case.name).Nodup ↔
      ¬ (".mq" ∈ b.files w ∧ ".mq.mq" ∈ b.files w) := by
  have hnodup : (b.files w).Nodup := by
    refine (pairwise_files b w).imp ?_
    rintro f g hlt rfl
    exact List.lt_irrefl _ hlt
  have hnames : ((b.files w).map (b.caseIn t)).map Case.name = (b.files w).map Text.stem := by
    rw [List.map_map]
    exact List.map_congr_left fun file _ => name_caseIn b t file
  rw [hnames, List.nodup_map_iff_inj_on hnodup]
  constructor
  · rintro h ⟨hshort, hlong⟩
    exact absurd (h _ hshort _ hlong (by decide)) (by decide)
  · intro h f hf g hg hstem
    rcases (stem_eq_stem_iff (isProgram_of_mem_files hf) (isProgram_of_mem_files hg)).1 hstem with
      heq | ⟨rfl, rfl⟩ | ⟨rfl, rfl⟩
    · exact heq
    · exact absurd ⟨hf, hg⟩ h
    · exact absurd ⟨hg, hf⟩ h

end Batch

/-- **Which results of a batch are kept.**  The cases have different names unless the programs `.mq`
and `.mq.mq` are both there.  The result file of any other program holds its case; that of `.mq`
then holds the case of `.mq.mq`, so that all results are kept only if the two cases read the same. -/
theorem results_kept_iff {b : Batch} {w w' : World} {summary : Summary}
    (h : (b.run : StateM World (Except RunError Summary)).run w = (.ok summary, w')) :
    ((summary.cases.map Case.name).Nodup ↔ ¬ (".mq" ∈ b.files w ∧ ".mq.mq" ∈ b.files w)) ∧
      (∀ c ∈ summary.cases, c.name ≠ ".mq" →
        w'.files.stored (b.resultPath c.name) = some c.text.toUTF8) ∧
      ((∀ c ∈ summary.cases, w'.files.stored (b.resultPath c.name) = some c.text.toUTF8) ↔
        (".mq" ∈ b.files w → ".mq.mq" ∈ b.files w →
          ((b.runCase ".mq" : StateM World Case).run (b.start w)).1.text =
            ((b.runCase ".mq.mq" : StateM World Case).run (b.start w)).1.text)) := by
  obtain ⟨hcases, -, -⟩ := Batch.cases_run h
  -- The result file of the longer name is written last, and stands for both programs.
  have hlong : ".mq.mq" ∈ b.files w →
      w'.files.stored (b.resultPath (Text.stem ".mq")) =
        some (b.caseIn (b.start w).files ".mq.mq").text.toUTF8 := by
    intro hmem
    have hstem : Text.stem ".mq" = Text.stem ".mq.mq" := by decide
    have hne : ".mq.mq" ≠ ".mq" := by decide
    rw [hstem]
    exact Batch.stored_result h hmem fun heq => absurd heq hne
  rw [hcases]
  refine ⟨Batch.nodup_names_iff, ?_, ?_⟩
  · intro c hc hname
    obtain ⟨file, hfile, rfl⟩ := List.mem_map.1 hc
    rw [Batch.name_caseIn] at hname ⊢
    refine Batch.stored_result h hfile ?_
    rintro rfl
    exact absurd rfl hname
  · rw [Batch.fst_runCase, Batch.fst_runCase]
    constructor
    · intro hkept hshort hmem
      have hstored := hkept _ (List.mem_map_of_mem hshort)
      rw [Batch.name_caseIn, hlong hmem, Option.some.injEq] at hstored
      exact (String.toByteArray_inj.1 hstored).symm
    · intro hsame c hc
      obtain ⟨file, hfile, rfl⟩ := List.mem_map.1 hc
      rw [Batch.name_caseIn]
      by_cases hlast : file = ".mq" → ".mq.mq" ∉ b.files w
      · exact Batch.stored_result h hfile hlast
      · obtain ⟨rfl, hmem⟩ := Classical.not_imp.1 hlast
        rw [hsame hfile (not_not.1 hmem)]
        exact hlong (not_not.1 hmem)

/-- A directory `p` with the programs `.mq` and `.mq.mq`. -/
def twinWorld : World where
  files := (((∅ : FileTree).put ["p"] .directory).put ["p", ".mq"] (.file "".toUTF8)).put
    ["p", ".mq.mq"] (.file "X".toUTF8)

/-- A batch on that directory, with two others that are not there yet. -/
def twinBatch : Batch :=
  ⟨"p", "e", "r", {}⟩

/-- The two programs are run, and have different cases. -/
theorem run_twinWorld :
    twinBatch.files twinWorld = [".mq", ".mq.mq"] ∧
      (∃ summary w', (twinBatch.run : StateM World (Except RunError Summary)).run twinWorld =
        (.ok summary, w')) ∧
      (twinBatch.caseIn (twinBatch.start twinWorld).files ".mq.mq").text ≠
        (twinBatch.caseIn (twinBatch.start twinWorld).files ".mq").text := by
  have hfiles : twinBatch.files twinWorld = [".mq", ".mq.mq"] :=
    Batch.files_eq_of_names (by decide +kernel) (by decide)
  have hmade : (twinWorld.createDirectories twinBatch.results).1 = .ok () :=
    eq_ok_of_toOption (by decide +kernel)
  exact ⟨hfiles, Batch.exists_run_eq_ok hmade hfiles (by decide +kernel), by decide +kernel⟩

theorem results_kept_iff_twin :
    ∃ summary w',
      (twinBatch.run : StateM World (Except RunError Summary)).run twinWorld = (.ok summary, w') ∧
      ¬ (summary.cases.map Case.name).Nodup := by
  obtain ⟨hfiles, ⟨summary, w', hrun⟩, -⟩ := run_twinWorld
  obtain ⟨hnodup, -, -⟩ := results_kept_iff hrun
  refine ⟨summary, w', hrun, ?_⟩
  rw [hnodup, hfiles]
  decide

/-- **A result is lost**: the two programs have the same result file, and it holds the case of the
second one only. -/
theorem result_overwritten :
    ∃ summary w',
      (twinBatch.run : StateM World (Except RunError Summary)).run twinWorld = (.ok summary, w') ∧
      ∃ c ∈ summary.cases,
        w'.files.stored (twinBatch.resultPath c.name) ≠ some c.text.toUTF8 := by
  obtain ⟨hfiles, ⟨summary, w', hrun⟩, hdiffer⟩ := run_twinWorld
  have hcases := (Batch.cases_run hrun).1
  have hlong : ".mq.mq" ∈ twinBatch.files twinWorld := by
    rw [hfiles]
    decide
  have hstored := Batch.stored_result hrun hlong fun h => absurd h (by decide)
  refine ⟨summary, w', hrun, twinBatch.caseIn (twinBatch.start twinWorld).files ".mq", ?_, ?_⟩
  · rw [hcases, hfiles]
    exact List.mem_cons_self
  · intro hkept
    rw [Batch.name_caseIn] at hkept
    exact hdiffer (String.toByteArray_inj.1 (Option.some.inj (hstored.symm.trans hkept)))

end QueryPipeline
