/-
# The order of stages

A strict review also checks the order of the stages.  It does so with two flags that it
carries along; what it accepts is a regular language of stage kinds, and otherwise it
finds what a permissive review finds.

* `StageOrder.orderly` : the sequences of kinds in order, as a regular expression;
* `StageOrder.allowed` : what may still come, when the stages so far have brought about
  some progress; `cons_mem_allowed_iff` : what one stage makes of it;
* `ordered_iff` : the run lemma, from any progress on;
* `filter_problems_strict`, `findingsAfter_permissive` : the two modes differ in the findings
  about order only;
* `strict_valid_iff_orderly` : all of it, for a program.
-/
import Mathlib.Computability.RegularExpressions
import QueryPipeline.Proofs.Diagnosis

open scoped Computability

namespace QueryPipeline

/-- The kinds of stages. -/
inductive Kind where
  | load
  | filter
  | select
  | save
  deriving DecidableEq

/-- The kind of a stage. -/
def Stage.kind : Stage → Kind
  | load _ => .load
  | filter _ _ _ => .filter
  | select _ => .select
  | save _ => .save

namespace StageOrder

open RegularExpression (char)

/-! ## Sequences of kinds in order -/

/-- Behind a SELECT: `(SELECT | SAVE)*`. -/
def afterSelect : RegularExpression Kind :=
  (char Kind.select + char Kind.save).star

/-- Behind the LOAD: `(FILTER | SAVE)*`, and optionally a SELECT and what may follow it. -/
def afterLoad : RegularExpression Kind :=
  (char Kind.filter + char Kind.save).star * (1 + char Kind.select * afterSelect)

/-- No stage at all, or a LOAD and what may follow it. -/
def orderly : RegularExpression Kind :=
  1 + char Kind.load * afterLoad

theorem cons_mem_singleton_mul_iff {k a : Kind} {ks : List Kind} {l : Language Kind} :
    k :: ks ∈ ({[a]} : Language Kind) * l ↔ k = a ∧ ks ∈ l := by
  constructor
  · rintro ⟨_, rfl, rest, hrest, heq⟩
    obtain ⟨rfl, rfl⟩ := List.cons.inj heq
    exact ⟨rfl, hrest⟩
  · rintro ⟨rfl, hks⟩
    exact ⟨[k], rfl, ks, hks, rfl⟩

/-- Behind a SELECT, what may come next. -/
theorem cons_mem_afterSelect_iff {k : Kind} {ks : List Kind} :
    k :: ks ∈ afterSelect.matches' ↔
      k = .select ∧ ks ∈ afterSelect.matches' ∨ k = .save ∧ ks ∈ afterSelect.matches' := by
  have hunfold : afterSelect.matches' = 1 + ({[.select]} * afterSelect.matches' +
      {[.save]} * afterSelect.matches') := by
    rw [← add_mul]
    exact (Language.one_add_self_mul_kstar_eq_kstar _).symm
  nth_rewrite 1 [hunfold]
  rw [Language.mem_add, Language.mem_add, cons_mem_singleton_mul_iff, cons_mem_singleton_mul_iff,
    Language.mem_one]
  simp only [List.cons_ne_nil, false_or]

/-- Behind the LOAD and before a SELECT, what may come next. -/
theorem cons_mem_afterLoad_iff {k : Kind} {ks : List Kind} :
    k :: ks ∈ afterLoad.matches' ↔ k = .select ∧ ks ∈ afterSelect.matches' ∨
      k = .filter ∧ ks ∈ afterLoad.matches' ∨ k = .save ∧ ks ∈ afterLoad.matches' := by
  have hunfold : afterLoad.matches' = (1 + {[.select]} * afterSelect.matches') +
      ({[.filter]} * afterLoad.matches' + {[.save]} * afterLoad.matches') := by
    show ({[.filter]} + {[.save]})∗ * (1 + {[.select]} * afterSelect.matches') = _
    rw [← add_mul]
    nth_rewrite 1 [← Language.one_add_self_mul_kstar_eq_kstar]
    rw [add_mul, one_mul, mul_assoc]
    rfl
  nth_rewrite 1 [hunfold]
  rw [Language.mem_add, Language.mem_add, Language.mem_add, cons_mem_singleton_mul_iff,
    cons_mem_singleton_mul_iff, cons_mem_singleton_mul_iff, Language.mem_one]
  simp only [List.cons_ne_nil, false_or]

theorem nil_mem_afterSelect : [] ∈ afterSelect.matches' :=
  Language.nil_mem_kstar _

theorem nil_mem_afterLoad : [] ∈ afterLoad.matches' :=
  ⟨[], Language.nil_mem_kstar _, [], Or.inl rfl, rfl⟩

/-! ## The flags of a review -/

/-- What may come once there is data, by whether there was a SELECT. -/
def onceLoaded : Bool → RegularExpression Kind
  | true => afterSelect
  | false => afterLoad

/-- What may still come, when the stages so far have brought about `p`. -/
def allowed (p : Progress) : RegularExpression Kind :=
  if p.loaded then onceLoaded p.selected else 1 + char Kind.load * onceLoaded p.selected

theorem nil_mem_allowed (p : Progress) : [] ∈ (allowed p).matches' := by
  obtain ⟨loaded, selected⟩ := p
  cases loaded with
  | false => exact Or.inl rfl
  | true =>
    cases selected with
    | false => exact nil_mem_afterLoad
    | true => exact nil_mem_afterSelect

/-- Before the LOAD, what may come next. -/
theorem cons_mem_load_iff {k : Kind} {ks : List Kind} {r : RegularExpression Kind} :
    k :: ks ∈ (1 + char Kind.load * r).matches' ↔ k = .load ∧ ks ∈ r.matches' := by
  show k :: ks ∈ 1 + {[.load]} * r.matches' ↔ _
  rw [Language.mem_add, cons_mem_singleton_mul_iff, Language.mem_one]
  simp only [List.cons_ne_nil, false_or]

/-- **One stage.**  It is allowed if it raises no problem of order, and what may come then is what its
progress allows. -/
theorem cons_mem_allowed_iff (p : Progress) (stage : Stage) (ks : List Kind) :
    stage.kind :: ks ∈ (allowed p).matches' ↔
      orderProblems p stage = [] ∧ ks ∈ (allowed (p.after stage)).matches' := by
  obtain ⟨loaded, selected⟩ := p
  cases loaded with
  | false =>
    -- Only a LOAD is in order, whatever the other flag says.
    rw [allowed, if_neg Bool.false_ne_true, cons_mem_load_iff]
    cases stage <;> simp [Stage.kind, orderProblems, Progress.after, allowed]
  | true =>
    cases selected with
    | false =>
      rw [allowed, if_pos rfl, onceLoaded, cons_mem_afterLoad_iff]
      cases stage <;> simp [Stage.kind, orderProblems, Progress.after, allowed, onceLoaded]
    | true =>
      rw [allowed, if_pos rfl, onceLoaded, cons_mem_afterSelect_iff]
      cases stage <;> simp [Stage.kind, orderProblems, Progress.after, allowed, onceLoaded]

/-- **A run of stages.** -/
theorem ordered_iff (p : Progress) (stages : List Stage) :
    Ordered p stages ↔ stages.map Stage.kind ∈ (allowed p).matches' := by
  induction stages generalizing p with
  | nil => exact iff_of_true trivial (nil_mem_allowed p)
  | cons stage stages ih => rw [Ordered, List.map_cons, cons_mem_allowed_iff, ih]

end StageOrder

/-! ## The two modes of a review -/

theorem problems_strict (types : FieldTable) (p : Progress) (stage : Stage) :
    problems ⟨types, true⟩ p stage = orderProblems p stage ++ problems ⟨types, false⟩ p stage :=
  rfl

/-- Stages without a problem in strict mode are those in order without a problem in permissive
mode. -/
theorem problemsAfter_strict_eq_nil_iff (types : FieldTable) (p : Progress) (stages : List Stage) :
    problemsAfter ⟨types, true⟩ p stages = [] ↔
      problemsAfter ⟨types, false⟩ p stages = [] ∧ Ordered p stages := by
  induction stages generalizing p with
  | nil => simp [problemsAfter, Ordered]
  | cons stage stages ih =>
    rw [problemsAfter, problemsAfter, problems_strict, Ordered, List.append_eq_nil_iff,
      List.append_eq_nil_iff, List.append_eq_nil_iff, ih]
    tauto

/-- Without those about order, the problems of a stage are the same in both modes. -/
theorem filter_problems_strict (types : FieldTable) (p : Progress) (stage : Stage) :
    (problems ⟨types, true⟩ p stage).filter (fun problem => !problem.isOrdering) =
      problems ⟨types, false⟩ p stage := by
  have horder : (orderProblems p stage).filter (fun problem => !problem.isOrdering) = [] := by
    rw [List.filter_eq_nil_iff]
    intro problem hmem
    simp [isOrdering_of_mem_orderProblems hmem]
  have hother : (problems ⟨types, false⟩ p stage).filter (fun problem => !problem.isOrdering) =
      problems ⟨types, false⟩ p stage := by
    rw [List.filter_eq_self]
    intro problem hmem
    have hcontent := (@mem_contentProblems_iff ⟨types, false⟩ p stage problem).1 hmem
    rw [hcontent.1]
    rfl
  rw [problems_strict, List.filter_append, horder, hother, List.nil_append]

/-- **Permissive findings are the strict ones without those about order.** -/
theorem findingsAfter_permissive (types : FieldTable) (p : Progress) (commands : List Command) :
    findingsAfter ⟨types, false⟩ p commands =
      (findingsAfter ⟨types, true⟩ p commands).filter fun f => !f.item.isOrdering := by
  induction commands generalizing p with
  | nil => rfl
  | cons c commands ih =>
    rw [findingsAfter, findingsAfter, List.filter_append, ← ih, List.filter_map,
      ← filter_problems_strict]
    rfl

theorem isValid_review_iff (rules : Rules) (program : List Statement) :
    (review rules program).isValid ↔ problemsAfter rules {} (stagesOf program) = [] := by
  rw [← item_findings_review, List.map_eq_nil_iff, Review.isValid, List.isEmpty_iff]

/-- **Strict acceptance is permissive acceptance in order.**  For every program and every table of field
types, a strict review is valid if a permissive one is and the kinds of the stages form a word of
`orderly`, and only then.  For every program, valid or not, the permissive findings are the strict ones
without those about order, one after the other as they were. -/
theorem strict_valid_iff_orderly (types : FieldTable) (program : List Statement) :
    ((review ⟨types, true⟩ program).isValid ↔ (review ⟨types, false⟩ program).isValid ∧
      (stagesOf program).map Stage.kind ∈ StageOrder.orderly.matches') ∧
    (review ⟨types, false⟩ program).findings =
      (review ⟨types, true⟩ program).findings.filter fun f => !f.item.isOrdering := by
  constructor
  · rw [isValid_review_iff, isValid_review_iff, problemsAfter_strict_eq_nil_iff,
      StageOrder.ordered_iff]
    -- Before the first stage, what is allowed is `orderly`.
    exact Iff.rfl
  · rw [findings_review, findings_review]
    exact findingsAfter_permissive types {} _

end QueryPipeline
