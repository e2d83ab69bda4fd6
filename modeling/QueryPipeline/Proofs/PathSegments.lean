/-
# The segments of a path

A path leads along field names, each behind a dot.  Access to its field goes along the same names:
every step but the first is guarded by a question mark, and nothing else is added.  The name of its
column has the same names with underscores between them.  A text is told by the access to its field,
be it a path or not, and by its expression on either side of a comparison.

* `pathOf` : the path along some names;
* `fieldAccess_pathOf`, `columnName_pathOf` : access and column go along the same names;
* `filter_fieldAccess` : without its question marks, an access is the path;
* `Script.operandExpr_injective` : an operand is told by its expression;
* `access_keeps_segments` : the whole law.
-/
import QueryPipeline.Proofs.SelectedColumns

namespace QueryPipeline

/-! ## Paths along names -/

/-- The path along some field names. -/
def pathOf (names : List String) : String :=
  String.join (names.map fun name => "." ++ name)

theorem toList_pathOf (names : List String) :
    (pathOf names).toList = dotted (names.map String.toList) := by
  rw [pathOf, String.toList_join, List.flatMap_map, dotted, List.flatMap_map]
  exact List.flatMap_congr fun name _ => String.toList_append

/-- Behind its first dot, a path has its first name and then the others, each behind a dot. -/
theorem toList_pathOf_cons (name : String) (names : List String) :
    (pathOf (name :: names)).toList = '.' :: (name.toList ++ dotted (names.map String.toList)) := by
  rw [toList_pathOf, List.map_cons, Scan.dotted_cons]
  rfl

theorem isWord_of_mem_map {names : List String} (h : ∀ name ∈ names, Text.isWord name.toList) :
    ∀ name ∈ names.map String.toList, Text.isWord name := by
  intro cs hcs
  obtain ⟨name, hname, rfl⟩ := List.mem_map.1 hcs
  exact h name hname

theorem isPath_pathOf {names : List String} (hne : names ≠ [])
    (h : ∀ name ∈ names, Text.isWord name.toList) : isPath (pathOf names) := by
  rw [← mem_path_iff_isPath, LexicalGrammar.mem_path_iff]
  exact ⟨names.map String.toList, by simpa using hne, toList_pathOf names, isWord_of_mem_map h⟩

/-! ## Access along the same names -/

/-- **Access goes along the names of a path.** -/
theorem fieldAccess_pathOf {names : List String} (hne : names ≠ [])
    (h : ∀ name ∈ names, Text.isWord name.toList) :
    fieldAccess (pathOf names) = "." ++ "?.".intercalate names := by
  obtain ⟨name, names, rfl⟩ := List.exists_cons_of_ne_nil hne
  obtain ⟨hname, hnames⟩ := List.forall_mem_cons.1 h
  rw [← String.toList_inj, toList_fieldAccess (toList_pathOf_cons name names), chained_append,
    chained_of_isWord hname, chained_dotted (isWord_of_mem_map hnames), String.toList_append,
    toList_intercalate_cons, List.flatMap_map]
  rfl

/-- Without its question marks, an access has the characters of the path. -/
theorem filter_chained {cs : List Char} (h : '?' ∉ cs) : (chained cs).filter (· ≠ '?') = cs := by
  induction cs with
  | nil => rfl
  | cons c cs ih =>
    rw [List.mem_cons, not_or] at h
    rw [chained_cons, List.filter_append, ih h.2]
    by_cases hdot : c = '.'
    · subst hdot
      rfl
    · rw [if_neg hdot, List.filter_singleton]
      simp [Ne.symm h.1]

/-- **Access adds question marks only.** -/
theorem filter_fieldAccess {s : String} (h : isPath s) :
    (fieldAccess s).toList.filter (· ≠ '?') = s.toList := by
  obtain ⟨rest, hrest, htail⟩ := exists_tail_of_isPath h
  have hmark : '?' ∉ rest := by
    intro hmem
    rcases mem_of_isPathTail htail _ hmem with hdot | hword
    · exact absurd hdot (by decide)
    · exact absurd hword (by decide)
  rw [toList_fieldAccess hrest, hrest, List.filter_cons_of_pos (by decide), filter_chained hmark]

/-! ## Columns of the same names -/

theorem map_of_isWord {name : List Char} (h : Text.isWord name) :
    (name.map fun c => if c = '.' then '_' else c) = name := by
  have hsame : ∀ c ∈ name, (if c = '.' then '_' else c) = id c := by
    intro c hc
    refine if_neg ?_
    rintro rfl
    exact absurd (isWordChar_of_isWord h _ hc) (by decide)
  rw [List.map_congr_left hsame, List.map_id]

theorem map_dotted {names : List (List Char)} (h : ∀ name ∈ names, Text.isWord name) :
    ((dotted names).map fun c => if c = '.' then '_' else c) =
      names.flatMap fun name => "_".toList ++ name := by
  induction names with
  | nil => rfl
  | cons name names ih =>
    obtain ⟨hname, hnames⟩ := List.forall_mem_cons.1 h
    rw [Scan.dotted_cons, List.map_append, List.map_cons, map_of_isWord hname, ih hnames,
      List.flatMap_cons]
    rfl

/-- **A column is named after the names of its path.** -/
theorem columnName_pathOf {names : List String} (hne : names ≠ [])
    (h : ∀ name ∈ names, Text.isWord name.toList) :
    columnName (pathOf names) = "_".intercalate names := by
  obtain ⟨name, names, rfl⟩ := List.exists_cons_of_ne_nil hne
  obtain ⟨hname, hnames⟩ := List.forall_mem_cons.1 h
  rw [← String.toList_inj, toList_columnName (toList_pathOf_cons name names), List.map_append,
    map_of_isWord hname, map_dotted (isWord_of_mem_map hnames), toList_intercalate_cons,
    List.flatMap_map]

/-! ## Operands told by their expressions -/

namespace Script

theorem operandExpr_of_dot {s : String} (h : s.toList.head? = some '.') :
    operandExpr s = "item" ++ fieldAccess s := by
  rw [operandExpr_eq, if_pos h]

/-- A number has no letter and no quote in it. -/
theorem not_mem_of_isNumber {s : String} (h : isNumber s) : 'i' ∉ s.toList ∧ '"' ∉ s.toList := by
  constructor
  · intro hmem
    exact absurd (mem_of_isNumberOver h _ hmem) (by decide)
  · intro hmem
    exact absurd (mem_of_isNumberOver h _ hmem) (by decide)

/-- **The two sides of a comparison tell their operands**: access to a field on the left is the
expression of the same field on the right. -/
theorem eq_of_item_eq_operandExpr {s t : String} (h : "item" ++ fieldAccess s = operandExpr t) :
    s = t := by
  by_cases hdot : t.toList.head? = some '.'
  · rw [operandExpr_of_dot hdot] at h
    exact fieldAccess_injective ((String.append_right_inj _).1 h)
  · -- Neither a number nor a text in quotes starts like an access.
    have hchars := (toList_item_append _).symm.trans (congrArg String.toList h)
    rw [operandExpr_eq, if_neg hdot] at hchars
    split at hchars
    next hnumber =>
      have hletter : 'i' ∈ t.toList := hchars ▸ List.mem_cons_self
      exact absurd hletter (not_mem_of_isNumber hnumber).1
    next =>
      rw [toList_quote] at hchars
      exact absurd (List.cons.inj hchars).1 (by decide)

/-- **An operand is told by its expression.** -/
theorem operandExpr_injective : Function.Injective operandExpr := by
  intro s t h
  by_cases hs : s.toList.head? = some '.'
  · rw [operandExpr_of_dot hs] at h
    exact eq_of_item_eq_operandExpr h
  by_cases ht : t.toList.head? = some '.'
  · rw [operandExpr_of_dot ht] at h
    exact (eq_of_item_eq_operandExpr h.symm).symm
  have hquote : ∀ s : String, '"' ∈ (quote s).toList := by
    intro s
    rw [toList_quote]
    exact List.mem_cons_self
  rw [operandExpr_eq, operandExpr_eq, if_neg hs, if_neg ht] at h
  by_cases hsnumber : isNumber s
  · by_cases htnumber : isNumber t
    · rwa [if_pos hsnumber, if_pos htnumber] at h
    · rw [if_pos hsnumber, if_neg htnumber] at h
      exact absurd (h ▸ hquote t) (not_mem_of_isNumber hsnumber).2
  · by_cases htnumber : isNumber t
    · rw [if_neg hsnumber, if_pos htnumber] at h
      exact absurd (h ▸ hquote s) (not_mem_of_isNumber htnumber).2
    · rw [if_neg hsnumber, if_neg htnumber] at h
      rw [← stripQuotes_quote s, h, stripQuotes_quote]

end Script

/-- **Access keeps every segment of a path.**  Access to the field at a path goes along its names,
with a question mark before every dot but the first, and is the path again without these marks; the
column is named after the same names.  And all texts, paths or not, are told by the access to their
fields, so that neither side of a comparison is written in the same way for two different operands. -/
theorem access_keeps_segments :
    (∀ names : List String, names ≠ [] → (∀ name ∈ names, Text.isWord name.toList) →
      fieldAccess (pathOf names) = "." ++ "?.".intercalate names ∧
      columnName (pathOf names) = "_".intercalate names ∧
      (fieldAccess (pathOf names)).toList.filter (· ≠ '?') = (pathOf names).toList) ∧
    Function.Injective fieldAccess ∧
    Function.Injective Script.operandExpr ∧
    ∀ s t, "item" ++ fieldAccess s = Script.operandExpr t → s = t := by
  refine ⟨?_, fieldAccess_injective, Script.operandExpr_injective,
    fun _ _ => Script.eq_of_item_eq_operandExpr⟩
  intro names hne hwords
  exact ⟨fieldAccess_pathOf hne hwords, columnName_pathOf hne hwords,
    filter_fieldAccess (isPath_pathOf hne hwords)⟩

theorem access_keeps_segments_three :
    fieldAccess ".cliente._id2.a_b" = ".cliente?._id2?.a_b" ∧
      columnName ".cliente._id2.a_b" = "cliente__id2_a_b" ∧
      (fieldAccess ".cliente._id2.a_b").toList.filter (· ≠ '?') = ".cliente._id2.a_b".toList := by
  obtain ⟨haccess, hcolumn, hfilter⟩ := access_keeps_segments.1 ["cliente", "_id2", "a_b"]
    (List.cons_ne_nil _ _) (by decide)
  have hpath : pathOf ["cliente", "_id2", "a_b"] = ".cliente._id2.a_b" := by decide
  rw [hpath] at haccess hcolumn hfilter
  exact ⟨haccess.trans (by decide), hcolumn.trans (by decide), hfilter⟩

end QueryPipeline
