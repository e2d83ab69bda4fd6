/-
# Golden files

A case of a batch passes if the report agrees with an expected text.  Neither the style of the
line ends nor blanks at the two ends count, and everything else does: a report has no pair of
carriage return and line feed in it, so that bringing texts into their canonical form leaves
it as it is.

* `Text.HasNoPair`, `Text.Respelt` : texts without such a pair, and texts with some more of
  them;
* `Text.unifyLineEnds_respelt`, `Text.respelt_unifyLineEnds` : unifying line ends undoes a
  respelling, and nothing else;
* `hasNoPair_intercalate` : tight lines make no pair;
* `canonical_eq_reportOn_iff` : which expected texts a report agrees with;
* `passed_runCase_iff` : what a batch makes of it;
* `golden_iff_respelling` : the whole law.
-/
import Mathlib.Data.List.Chain
import QueryPipeline.Batch
import QueryPipeline.Proofs.FileAccess
import QueryPipeline.Proofs.ReportLines

namespace QueryPipeline

namespace Text

/-! ## Line ends -/

/-- No carriage return stands right before a line feed. -/
def HasNoPair (cs : List Char) : Prop :=
  cs.IsChain fun c d => ¬ (c = '\r' ∧ d = '\n')

/-- The first text with some of its line feeds, or none, written as a pair of carriage return and line
feed. -/
inductive Respelt : List Char → List Char → Prop where
  | nil : Respelt [] []
  | keep (c : Char) {cs ds : List Char} (h : Respelt cs ds) : Respelt (c :: cs) (c :: ds)
  | pair {cs ds : List Char} (h : Respelt cs ds) : Respelt ('\n' :: cs) ('\r' :: '\n' :: ds)

theorem unifyLineEnds_cons {c : Char} {cs : List Char} (h : ¬ (c = '\r' ∧ cs.head? = some '\n')) :
    unifyLineEnds (c :: cs) = c :: unifyLineEnds cs := by
  rw [unifyLineEnds]
  intro rest hc hcs
  exact h ⟨hc, congrArg List.head? hcs⟩

/-- A respelling starts with a line feed only if the text does. -/
theorem Respelt.head?_eq {cs ds : List Char} (h : Respelt cs ds) (hds : ds.head? = some '\n') :
    cs.head? = some '\n' := by
  cases h with
  | nil => cases hds
  | keep c h => exact hds
  | pair h => rfl

theorem Respelt.refl (cs : List Char) : Respelt cs cs := by
  induction cs with
  | nil => exact .nil
  | cons c cs ih => exact .keep c ih

/-- A carriage return before every line feed. -/
def paired (cs : List Char) : List Char :=
  cs.flatMap fun c => if c = '\n' then ['\r', '\n'] else [c]

theorem respelt_paired (cs : List Char) : Respelt cs (paired cs) := by
  induction cs with
  | nil => exact .nil
  | cons c cs ih =>
    rw [paired, List.flatMap_cons]
    split
    next hc =>
      subst hc
      exact .pair ih
    next => exact .keep c ih

/-- **Unifying the line ends undoes a respelling** of a text without a pair. -/
theorem unifyLineEnds_respelt {cs ds : List Char} (h : Respelt cs ds) (hcs : HasNoPair cs) :
    unifyLineEnds ds = cs := by
  induction h with
  | nil => rfl
  | @keep c cs ds h ih =>
    obtain ⟨hfirst, hrest⟩ := List.isChain_cons.1 hcs
    -- A pair across the two parts would be one of the text itself.
    have hpair : ¬ (c = '\r' ∧ ds.head? = some '\n') := by
      rintro ⟨hc, hds⟩
      exact hfirst '\n' (h.head?_eq hds) ⟨hc, rfl⟩
    rw [unifyLineEnds_cons hpair, ih hrest]
  | @pair cs ds h ih =>
    show '\n' :: unifyLineEnds ds = _
    rw [ih (List.isChain_cons.1 hcs).2]

/-- **Unifying the line ends does nothing else.** -/
theorem respelt_unifyLineEnds (cs : List Char) : Respelt (unifyLineEnds cs) cs := by
  fun_induction unifyLineEnds cs with
  | case1 rest ih => exact .pair ih
  | case2 c rest hpair ih => exact .keep c ih
  | case3 => exact .nil

theorem Respelt.getLast?_eq {cs ds : List Char} (h : Respelt cs ds) :
    ds.getLast? = cs.getLast? := by
  induction h with
  | nil => rfl
  | keep c h ih => rw [List.getLast?_cons, List.getLast?_cons, ih]
  | pair h ih => rw [List.getLast?_cons, List.getLast?_cons, List.getLast?_cons, ih]; rfl

/-- A respelling of a trimmed text is trimmed: neither of its ends is a line end. -/
theorem Respelt.isTrimmed {cs ds : List Char} (h : Respelt cs ds) (hcs : IsTrimmed cs) :
    IsTrimmed ds := by
  constructor
  · cases h with
    | nil => exact hcs.head
    | keep c h => exact hcs.head
    | pair h =>
      have hfeed : isBlank '\n' = false := hcs.head '\n' rfl
      exact absurd hfeed (by decide)
  · rw [h.getLast?_eq]
    exact hcs.last

/-! ## Canonical texts -/

/-- Every text is what trimming leaves of it, with blanks around. -/
theorem exists_trimChars (cs : List Char) : ∃ before behind, (∀ c ∈ before, isBlank c) ∧
    (∀ c ∈ behind, isBlank c) ∧ cs = before ++ trimChars cs ++ behind := by
  refine ⟨cs.takeWhile isBlank, ((cs.dropWhile isBlank).reverse.takeWhile isBlank).reverse,
    ?_, ?_, ?_⟩
  · exact List.all_eq_true.1 List.all_takeWhile
  · intro c hc
    exact List.all_eq_true.1 List.all_takeWhile c (List.mem_reverse.1 hc)
  · rw [List.append_assoc, trimChars, trimRight, ← List.reverse_append,
      List.takeWhile_append_dropWhile, List.reverse_reverse, List.takeWhile_append_dropWhile]

/-- The second text is the first one with blanks around it, and with some of its line feeds written as
pairs. -/
def IsRespelling (text other : String) : Prop :=
  ∃ before body behind, (∀ c ∈ before, isBlank c) ∧ (∀ c ∈ behind, isBlank c) ∧
    Respelt text.toList body ∧ other.toList = before ++ body ++ behind

/-- **A trimmed text without a pair is the canonical form of its respellings**, and of nothing
else. -/
theorem canonical_eq_iff {text : String} (htrimmed : IsTrimmed text.toList)
    (hpair : HasNoPair text.toList) (other : String) :
    canonical other = text ↔ IsRespelling text other := by
  constructor
  · intro h
    obtain ⟨before, behind, hbefore, hbehind, hother⟩ := exists_trimChars other.toList
    refine ⟨before, trimChars other.toList, behind, hbefore, hbehind, ?_, hother⟩
    rw [← h, canonical, String.toList_ofList]
    exact respelt_unifyLineEnds _
  · rintro ⟨before, body, behind, hbefore, hbehind, hbody, hother⟩
    rw [canonical, hother, trimChars_append hbefore (hbody.isTrimmed htrimmed) hbehind,
      unifyLineEnds_respelt hbody hpair, String.ofList_toList]

end Text

/-! ## Reports are canonical -/

theorem hasNoPair_of_feed_not_mem {cs : List Char} (h : '\n' ∉ cs) : Text.HasNoPair cs := by
  induction cs with
  | nil => exact List.isChain_nil
  | cons c cs ih =>
    rw [List.mem_cons, not_or] at h
    refine List.isChain_cons.2 ⟨?_, ih h.2⟩
    rintro d hd ⟨-, rfl⟩
    exact h.2 (List.mem_of_mem_head? hd)

/-- Lines that are tight or empty make no pair: what stands before a line feed is not blank, or is
another line feed. -/
theorem hasNoPair_intercalate {lines : List String} (h : ∀ l ∈ lines, l = "" ∨ IsTight l) :
    Text.HasNoPair ("\n".intercalate lines).toList := by
  induction lines with
  | nil => exact List.isChain_nil
  | cons line lines ih =>
    rw [List.forall_mem_cons] at h
    have hline : Text.HasNoPair line.toList := by
      rcases h.1 with rfl | htight
      · exact List.isChain_nil
      · exact hasNoPair_of_feed_not_mem htight.feed
    by_cases hlines : lines = []
    · subst hlines
      rw [String.intercalate_singleton]
      exact hline
    · have hsplit : ("\n".intercalate (line :: lines)).toList =
          line.toList ++ '\n' :: ("\n".intercalate lines).toList := by
        rw [intercalate_feed_cons line hlines, String.toList_append, String.toList_append,
          List.append_assoc]
        rfl
      rw [hsplit]
      refine List.isChain_append.2 ⟨hline, List.isChain_cons.2 ⟨?_, ih h.2⟩, ?_⟩
      · rintro d - ⟨hreturn, -⟩
        revert hreturn
        decide
      · rintro c hc d - ⟨rfl, -⟩
        rcases h.1 with rfl | htight
        · cases hc
        · obtain ⟨e, hlast, he⟩ := htight.last
          rw [hlast] at hc
          obtain rfl := Option.some.inj hc
          revert he
          decide

/-- **A report is the canonical form of its respellings**, and of nothing else. -/
theorem canonical_eq_reportOn_iff (rules : Rules) (source expected : String) :
    Text.canonical expected = reportOn rules source ↔
      Text.IsRespelling (reportOn rules source) expected := by
  have hreport := isReport_reportLines (compilesTo_compile rules source)
  rw [reportOn_eq]
  exact Text.canonical_eq_iff hreport.isTrimmed (hasNoPair_intercalate hreport.line) expected

/-- A report is in canonical form. -/
theorem canonical_reportOn (rules : Rules) (source : String) :
    Text.canonical (reportOn rules source) = reportOn rules source := by
  rw [canonical_eq_reportOn_iff]
  exact ⟨[], _, [], by simp, by simp, Text.Respelt.refl _, by simp⟩

theorem passes_reportOn_iff (rules : Rules) (source expected : String) :
    Case.passes (reportOn rules source) expected ↔
      Text.canonical expected = reportOn rules source := by
  rw [Case.passes, canonical_reportOn, beq_iff_eq]
  exact eq_comm

/-! ## A case of a batch -/

theorem run_bind {α β : Type} (x : StateM World α) (f : α → StateM World β) (w : World) :
    (x >>= f).run w = (f (x.run w).1).run (x.run w).2 :=
  rfl

theorem run_readText (path : String) (w : World) :
    (Host.readText path : StateM World (Except FileError String)).run w = (w.files.text path, w) :=
  rfl

/-- Notes leave the files as they are. -/
theorem files_logAll (es : List LogEntry) (w : World) :
    ((Host.logAll es : StateM World PUnit).run w).2.files = w.files := by
  induction es generalizing w with
  | nil => rfl
  | cons e es ih =>
    show ((Host.logAll es : StateM World PUnit).run (w.log e)).2.files = w.files
    rw [ih, World.log]
    split <;> rfl

/-- A report is judged by the expected text, if there is one. -/
theorem judge_iff (b : Batch) (name output : String) (w : World) :
    ((b.judge name output : StateM World Bool).run w).1 ↔
      ∃ expected, w.files.text (b.expectedPath name) = .ok expected ∧ Case.passes output expected := by
  rw [Batch.judge, StateT.run_bind, run_readText]
  cases htext : w.files.text (b.expectedPath name) with
  | ok expected =>
    show Case.passes output expected = true ↔ _
    simp
  | error e =>
    show false = true ↔ _
    simp

/-- A case of a program that can be read passes if the expected text can be read too, and the report
agrees with it. -/
theorem passed_runCase_iff (b : Batch) (file : String) (w : World) {source : String}
    (hsource : w.files.text (b.programPath file) = .ok source) :
    ((b.runCase file : StateM World Case).run w).1.passed ↔
      ∃ expected, w.files.text (b.expectedPath (Text.stem file)) = .ok expected ∧
        Case.passes (reportOn b.rules source) expected := by
  have hfiles := files_logAll (Trace.compilation b.rules source) w
  have hjudge := judge_iff b (Text.stem file) (reportOn b.rules source)
    ((Host.logAll (Trace.compilation b.rules source) : StateM World PUnit).run w).2
  rw [hfiles] at hjudge
  rw [Batch.runCase, StateT.run_bind, run_readText, hsource]
  exact hjudge

/-- **Golden files are about the text, not about its line ends and the blanks around it.**  For every
text and all rules, the report is in canonical form, so that it agrees with an expected text if and only
if the canonical form of that text is the report; and this holds of the respellings of the report, with
any blanks around it and any of its line feeds written as pairs, and of nothing else.  A case that a
batch runs passes by that measure. -/
theorem golden_iff_respelling (rules : Rules) (source : String) :
    Text.canonical (reportOn rules source) = reportOn rules source ∧
    (∀ expected, Case.passes (reportOn rules source) expected ↔
      Text.canonical expected = reportOn rules source) ∧
    (∀ expected, Case.passes (reportOn rules source) expected ↔
      Text.IsRespelling (reportOn rules source) expected) ∧
    ∀ (b : Batch) (file : String) (w : World), b.rules = rules →
      w.files.text (b.programPath file) = .ok source →
      (((b.runCase file : StateM World Case).run w).1.passed ↔
        ∃ expected, w.files.text (b.expectedPath (Text.stem file)) = .ok expected ∧
          Text.IsRespelling (reportOn rules source) expected) := by
  have hpasses : ∀ expected, Case.passes (reportOn rules source) expected ↔
      Text.IsRespelling (reportOn rules source) expected := by
    intro expected
    rw [passes_reportOn_iff, canonical_eq_reportOn_iff]
  refine ⟨canonical_reportOn rules source, passes_reportOn_iff rules source, hpasses, ?_⟩
  rintro b file w rfl hsource
  rw [passed_runCase_iff b file w hsource]
  simp only [hpasses]

/-- A directory `p` with a program `a.mq` and the text that is expected of it. -/
def goldenWorld (source expected : String) : World where
  files := (((∅ : FileTree).put ["p"] .directory).put ["p", "a.mq"] (.file source.toUTF8)).put
    ["p", "a.expected.txt"] (.file expected.toUTF8)

theorem text_goldenWorld (source expected : String) :
    (goldenWorld source expected).files.text "p/a.mq" = .ok source ∧
      (goldenWorld source expected).files.text "p/a.expected.txt" = .ok expected := by
  constructor
  · show decodeText source.toUTF8 = .ok source
    exact decodeText_toUTF8 source
  · show decodeText expected.toUTF8 = .ok expected
    exact decodeText_toUTF8 expected

/-- The report on a program, with blanks around it and a carriage return before every line feed. -/
def pairedReport (source : String) : String :=
  String.ofList (['\t'] ++ Text.paired (reportOn {} source).toList ++ [' ', '\n'])

/-- A batch on that directory. -/
def goldenBatch : Batch :=
  ⟨"p", "p", "out", {}⟩

theorem golden_iff_respelling_paired :
    (goldenWorld "LOAD \"b\"" (pairedReport "LOAD \"b\"")).files.text
        (goldenBatch.programPath "a.mq") = .ok "LOAD \"b\"" ∧
      ((goldenBatch.runCase "a.mq" : StateM World Case).run
        (goldenWorld "LOAD \"b\"" (pairedReport "LOAD \"b\""))).1.passed := by
  obtain ⟨hsource, hexpected⟩ := text_goldenWorld "LOAD \"b\"" (pairedReport "LOAD \"b\"")
  obtain ⟨-, -, -, hcase⟩ := golden_iff_respelling {} "LOAD \"b\""
  have hprogram : goldenBatch.programPath "a.mq" = "p/a.mq" := by decide +kernel
  have hpath : goldenBatch.expectedPath (Text.stem "a.mq") = "p/a.expected.txt" := by
    decide +kernel
  rw [← hprogram] at hsource
  refine ⟨hsource, (hcase goldenBatch "a.mq" _ rfl hsource).2 ?_⟩
  rw [hpath]
  refine ⟨_, hexpected, ['\t'], _, [' ', '\n'], ?_, ?_, Text.respelt_paired _, String.toList_ofList⟩
  · simp [Text.isBlank]
  · simp [Text.isBlank]

end QueryPipeline
