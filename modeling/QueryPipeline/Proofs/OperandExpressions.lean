/-
# The operands of an emitted comparison

A filter is emitted as a comparison of two expressions.  On the right, an operand is taken for a
field, a number or a text by the look of it; on the left it is always taken for a field.  So a
field is emitted as such on either side, a number on the right only, and a text on the right only
if it looks like nothing else.

* `ScriptGrammar.operand` : the expressions that an operand can be;
* `chained_injective` : a path is told by the access to its field;
* `item_fieldAccess_mem_operand_iff` : what is emitted on the left, `operandExpr_mem_operand_iff` :
  what is emitted on the right;
* `filter_operands_iff` : the two sides of every filter of a program;
* `number_on_left_is_no_operand` : a program with an undefined name in its code.
-/
import QueryPipeline.Proofs.MaximalMunch
import QueryPipeline.Proofs.ReportReading

open scoped Computability

namespace QueryPipeline

/-! ## Expressions -/

namespace ScriptGrammar

open LexicalGrammar

/-- Access to a field of a record: `item\.word(\?\.word)*`. -/
def access : Language Char := literal "item." * word * (literal "?." * word)∗

/-- An operand: access to a field, a number, or a text in quotes. -/
def operand : Language Char := access + number + string

end ScriptGrammar

/-- The expression of a value by its own kind: access to the field, the number, or the text in its
quotes. -/
def Value.expr : Value → String
  | path text => "item" ++ fieldAccess text
  | number text => text
  | string text => text

/-! ## Access to fields -/

/-- A path behind its first dot, as it is accessed. -/
def chained (cs : List Char) : List Char :=
  cs.flatMap fun c => if c = '.' then ['?', '.'] else [c]

theorem chained_cons (c : Char) (cs : List Char) :
    chained (c :: cs) = (if c = '.' then ['?', '.'] else [c]) ++ chained cs :=
  List.flatMap_cons

theorem head?_chained (cs : List Char) : (chained cs).head? ≠ some '.' := by
  cases cs with
  | nil => exact nofun
  | cons c cs =>
    rw [chained_cons]
    split
    next => simp
    next hc => simpa using hc

/-- **A path is told by the access to its field**: a dot is never the first character of a step. -/
theorem chained_injective : Function.Injective chained := by
  intro cs
  induction cs with
  | nil =>
    intro ds h
    cases ds with
    | nil => rfl
    | cons d ds =>
      rw [chained_cons] at h
      split at h <;> cases h
  | cons c cs ih =>
    intro ds h
    cases ds with
    | nil =>
      rw [chained_cons] at h
      split at h <;> cases h
    | cons d ds =>
      rw [chained_cons, chained_cons] at h
      by_cases hc : c = '.'
      · by_cases hd : d = '.'
        · rw [if_pos hc, if_pos hd] at h
          rw [hc, hd, ih (List.append_cancel_left h)]
        · rw [if_pos hc, if_neg hd] at h
          have htail : '.' :: chained cs = chained ds := (List.cons.inj h).2
          exact absurd (congrArg List.head? htail.symm) (head?_chained ds)
      · by_cases hd : d = '.'
        · rw [if_neg hc, if_pos hd] at h
          have htail : chained cs = '.' :: chained ds := (List.cons.inj h).2
          exact absurd (congrArg List.head? htail) (head?_chained cs)
        · rw [if_neg hc, if_neg hd] at h
          obtain ⟨rfl, htail⟩ := List.cons.inj h
          rw [ih htail]

theorem chained_append (cs ds : List Char) : chained (cs ++ ds) = chained cs ++ chained ds :=
  List.flatMap_append

theorem chained_of_isWord {name : List Char} (h : Text.isWord name) : chained name = name := by
  have hdot : ∀ c ∈ name, c ≠ '.' := by
    rintro c hc rfl
    exact absurd (isWordChar_of_isWord h _ hc) (by decide)
  rw [chained, List.flatMap_congr fun c hc => if_neg (hdot c hc)]
  exact List.flatMap_singleton' name

/-- Names behind dots are accessed one after the other. -/
theorem chained_dotted {names : List (List Char)} (h : ∀ name ∈ names, Text.isWord name) :
    chained (dotted names) = names.flatMap fun name => "?.".toList ++ name := by
  induction names with
  | nil => rfl
  | cons name names ih =>
    obtain ⟨hname, hnames⟩ := List.forall_mem_cons.1 h
    rw [Scan.dotted_cons, List.cons_append, chained_cons, chained_append,
      chained_of_isWord hname, ih hnames, List.flatMap_cons]
    rfl

theorem toList_fieldAccess {s : String} {rest : List Char} (h : s.toList = '.' :: rest) :
    (fieldAccess s).toList = '.' :: chained rest := by
  rw [fieldAccess, h]
  exact String.toList_ofList

theorem fieldAccess_of_head?_ne {s : String} (h : s.toList.head? ≠ some '.') :
    fieldAccess s = s := by
  unfold fieldAccess
  split
  next rest hrest =>
    rw [hrest] at h
    exact absurd rfl h
  next => rfl

/-- **A text is told by the access to its field**, be it a path or not. -/
theorem fieldAccess_injective : Function.Injective fieldAccess := by
  -- Access to a text starts with a dot if and only if the text does.
  have hhead : ∀ s : String, (fieldAccess s).toList.head? = some '.' ↔ s.toList.head? = some '.' := by
    intro s
    by_cases hdot : s.toList.head? = some '.'
    · obtain ⟨rest, hrest⟩ := List.head?_eq_some_iff.1 hdot
      rw [toList_fieldAccess hrest, hrest]
      rfl
    · rw [fieldAccess_of_head?_ne hdot]
  intro s t h
  by_cases hs : s.toList.head? = some '.'
  · have ht : t.toList.head? = some '.' := by
      rwa [← hhead, ← h, hhead]
    obtain ⟨rest, hrest⟩ := List.head?_eq_some_iff.1 hs
    obtain ⟨rest', hrest'⟩ := List.head?_eq_some_iff.1 ht
    have hchars := congrArg String.toList h
    rw [toList_fieldAccess hrest, toList_fieldAccess hrest'] at hchars
    rw [← String.toList_inj, hrest, hrest', chained_injective (List.cons.inj hchars).2]
  · have ht : t.toList.head? ≠ some '.' := by
      rwa [ne_eq, ← hhead, ← h, hhead]
    rwa [fieldAccess_of_head?_ne hs, fieldAccess_of_head?_ne ht] at h

namespace ScriptGrammar

open LexicalGrammar

/-- The texts of accesses: those of the paths. -/
theorem mem_access_iff {cs : List Char} :
    cs ∈ access ↔ ∃ rest, isPathTail true rest ∧ cs = "item.".toList ++ chained rest := by
  -- A path falls into names, and is accessed name by name.
  have hnames : ∀ {name : List Char} {names : List (List Char)}, Text.isWord name →
      (∀ other ∈ names, Text.isWord other) →
      "item.".toList ++ name ++ names.flatMap (fun other => "?.".toList ++ other) =
        "item.".toList ++ chained (name ++ dotted names) := by
    intro name names hname hothers
    rw [chained_append, chained_of_isWord hname, chained_dotted hothers, List.append_assoc]
  rw [access, Language.mem_mul]
  constructor
  · rintro ⟨first, hfirst, others, hothers, rfl⟩
    obtain ⟨name, rfl, hname⟩ := mem_literal_mul_word_iff.1 hfirst
    obtain ⟨names, rfl, hwords⟩ := mem_kstar_literal_mul_word_iff.1 hothers
    obtain ⟨rest, hrest, htail⟩ := Scan.mem_path_iff_isPathTail.1
      (mem_path_iff.2 ⟨name :: names, by simp, rfl, List.forall_mem_cons.2 ⟨hname, hwords⟩⟩)
    obtain rfl : name ++ dotted names = rest := (List.cons.inj hrest).2
    exact ⟨_, htail, hnames hname hwords⟩
  · rintro ⟨rest, htail, rfl⟩
    obtain ⟨words, hne, hrest, hwords⟩ := Scan.exists_names_of_isPathTail htail [] rfl
    obtain ⟨name, names, rfl⟩ := List.exists_cons_of_ne_nil hne
    obtain ⟨hname, hothers⟩ := List.forall_mem_cons.1 hwords
    obtain rfl : rest = name ++ dotted names := (List.cons.inj hrest).2
    exact ⟨_, mem_literal_mul_word_iff.2 ⟨name, rfl, hname⟩, _,
      mem_kstar_literal_mul_word_iff.2 ⟨names, rfl, hothers⟩, hnames hname hothers⟩

/-- Neither a number nor a text in quotes starts like an access. -/
theorem not_mem_literals (cs : List Char) : 'i' :: cs ∉ number ∧ 'i' :: cs ∉ string := by
  constructor
  · intro h
    obtain ⟨c, rest, heq, hopens⟩ := Form.exists_opens_of_mem (f := .number) h
    obtain ⟨rfl, -⟩ := List.cons.inj heq
    have hno : ¬ ('i' = '-' ∨ 'i'.isDigit) := by decide
    exact hno hopens
  · intro h
    obtain ⟨body, heq, -⟩ := mem_string_iff.1 h
    exact absurd (List.cons.inj heq).1 (by decide)

end ScriptGrammar

open ScriptGrammar

theorem toList_item_append (s : String) :
    ("item" ++ s).toList = 'i' :: 't' :: 'e' :: 'm' :: s.toList := by
  rw [String.toList_append]
  rfl

/-- **What is emitted on the left** is an operand if it stems from a path. -/
theorem item_fieldAccess_mem_operand_iff {s : String} :
    ("item" ++ fieldAccess s).toList ∈ operand ↔ isPath s := by
  have haccess : ("item" ++ fieldAccess s).toList ∈ operand ↔
      ("item" ++ fieldAccess s).toList ∈ access := by
    rw [toList_item_append]
    constructor
    · rintro ((h | h) | h)
      · exact h
      · exact absurd h (not_mem_literals _).1
      · exact absurd h (not_mem_literals _).2
    · intro h
      exact Or.inl (Or.inl h)
  rw [haccess, mem_access_iff]
  constructor
  · rintro ⟨rest, htail, heq⟩
    rw [toList_item_append] at heq
    have hfield : (fieldAccess s).toList = '.' :: chained rest := by
      simpa using heq
    by_cases hdot : s.toList.head? = some '.'
    · obtain ⟨cs, hcs⟩ := List.head?_eq_some_iff.1 hdot
      rw [toList_fieldAccess hcs] at hfield
      obtain rfl := chained_injective (List.cons.inj hfield).2
      rw [isPath, hcs]
      exact htail
    · rw [fieldAccess_of_head?_ne hdot] at hfield
      rw [hfield] at hdot
      exact absurd rfl hdot
  · intro h
    obtain ⟨rest, hrest, htail⟩ := exists_tail_of_isPath h
    refine ⟨rest, htail, ?_⟩
    rw [toList_item_append, toList_fieldAccess hrest]
    rfl

theorem mem_path_iff_isPath {text : String} : text.toList ∈ LexicalGrammar.path ↔ isPath text := by
  have htail : text.toList ∈ LexicalGrammar.path ↔
      ∃ cs, text.toList = '.' :: cs ∧ isPathTail true cs := Scan.mem_path_iff_isPathTail
  rw [htail]
  constructor
  · rintro ⟨cs, hcs, htail⟩
    rw [isPath, hcs]
    exact htail
  · exact exists_tail_of_isPath

/-! ## Numbers and texts -/

theorem mem_number_iff_isNumberOver {cs : List Char} :
    cs ∈ LexicalGrammar.number ↔ isNumberOver Char.isDigit cs := by
  rw [LexicalGrammar.mem_number_iff]
  constructor
  · rintro ⟨sign, whole, fraction, rfl, hsign, hparts⟩
    exact hparts.isNumberOver (by decide) (by decide) hsign
  · exact exists_parts_of_isNumberOver

/-- A number in ASCII digits reads as a number, and has no other digits. -/
theorem isNumber_of_isNumberOver {s : String} (h : isNumberOver Char.isDigit s.toList) :
    isNumber s ∧ isForeignNumber s = false := by
  constructor
  · refine isNumberOver_of_subclass (by decide) (by decide) h ?_
    intro c _ hc
    have hrange := Text.isDigit_iff.1 hc
    exact List.any_eq_true.2 ⟨(0x30, 0x39), by decide, by simpa using hrange⟩
  · rw [isForeignNumber, Bool.and_eq_false_iff]
    refine Or.inr (List.any_eq_false.2 ?_)
    intro c hc
    rcases mem_of_isNumberOver h c hc with rfl | rfl | hdigit
    · decide
    · decide
    · simp [Text.isForeignDigit, hdigit]

/-- A number is neither an access nor a text in quotes. -/
theorem isNumber_mem_operand_iff {s : String} (h : isNumber s) :
    s.toList ∈ operand ↔ isForeignNumber s = false := by
  have hchars : ∀ c ∈ s.toList, c = '-' ∨ c = '.' ∨ Text.isDecimalDigit c := mem_of_isNumberOver h
  constructor
  · rintro ((haccess | hnumber) | hstring)
    · obtain ⟨rest, -, heq⟩ := mem_access_iff.1 haccess
      have hletter := hchars 'i' (by simp [heq])
      exact absurd hletter (by decide)
    · exact (isNumber_of_isNumberOver (mem_number_iff_isNumberOver.1 hnumber)).2
    · obtain ⟨body, heq, -⟩ := LexicalGrammar.mem_string_iff.1 hstring
      have hquote := hchars '"' (by simp [heq])
      exact absurd hquote (by decide)
  · intro hforeign
    exact Or.inl (Or.inr (mem_number_iff_isNumberOver.2 (isNumberOver_of_not_foreign h hforeign)))

/-- The right side of a comparison, by the look of the operand. -/
theorem operandExpr_eq (s : String) :
    Script.operandExpr s =
      if s.toList.head? = some '.' then "item" ++ fieldAccess s
      else if isNumber s then s else quote s := by
  rw [Script.operandExpr, Operand.ofText]
  split_ifs <;> rfl

/-- **What is emitted on the right** is an operand if it stems from a path, or does not start with a
dot and is no number with digits outside ASCII. -/
theorem operandExpr_mem_operand_iff {s : String} (hplain : Text.isPlain s.toList) :
    (Script.operandExpr s).toList ∈ operand ↔
      isPath s ∨ s.toList.head? ≠ some '.' ∧ isForeignNumber s = false := by
  rw [operandExpr_eq]
  by_cases hdot : s.toList.head? = some '.'
  · rw [if_pos hdot, item_fieldAccess_mem_operand_iff]
    simp [hdot]
  · have hpath : ¬ isPath s := by
      intro h
      obtain ⟨rest, hrest, -⟩ := exists_tail_of_isPath h
      rw [hrest] at hdot
      exact hdot rfl
    have hright : (isPath s ∨ s.toList.head? ≠ some '.' ∧ isForeignNumber s = false) ↔
        isForeignNumber s = false := by
      simp [hpath, hdot]
    rw [if_neg hdot, hright]
    by_cases hnumber : isNumber s
    · rw [if_pos hnumber, isNumber_mem_operand_iff hnumber]
    · rw [if_neg hnumber]
      have hquoted : (quote s).toList ∈ operand :=
        Or.inr (LexicalGrammar.mem_string_iff.2 ⟨s.toList, toList_quote s, hplain⟩)
      have hforeign : isForeignNumber s = false := by
        simp [isForeignNumber, hnumber]
      exact iff_of_true hquoted hforeign

/-! ## Values of their own kind -/

/-- On the left, only fields are emitted by their own kind. -/
theorem item_fieldAccess_eq_expr_iff {v : Value} (h : v.token.WellFormed) :
    "item" ++ fieldAccess v.operand = v.expr ↔ ∃ text, v = .path text := by
  cases v with
  | path text => exact iff_of_true rfl ⟨text, rfl⟩
  | number text =>
    refine iff_of_false ?_ ?_
    · intro heq
      have hnumber : text.toList ∈ LexicalGrammar.number := mem_number_iff_isNumberOver.2 h
      have hchars : text.toList = _ :=
        (congrArg String.toList heq).symm.trans (toList_item_append _)
      rw [hchars] at hnumber
      exact (not_mem_literals _).1 hnumber
    · rintro ⟨path, hpath⟩
      cases hpath
  | string text =>
    obtain ⟨body, -, rfl⟩ := h
    refine iff_of_false ?_ ?_
    · intro heq
      have hchars := (toList_item_append _).symm.trans (congrArg String.toList heq)
      rw [Value.expr, toList_quote] at hchars
      exact absurd (List.cons.inj hchars).1 (by decide)
    · rintro ⟨path, hpath⟩
      cases hpath

/-- On the right, a text is emitted by its own kind if it looks like nothing else. -/
theorem operandExpr_eq_expr_iff {v : Value} (h : v.token.WellFormed) :
    Script.operandExpr v.operand = v.expr ↔ ∀ text, v = .string text →
      v.operand.toList.head? ≠ some '.' ∧ isNumber v.operand = false := by
  cases v with
  | path text =>
    obtain ⟨rest, hrest, -⟩ := exists_tail_of_isPath h
    refine iff_of_true ?_ fun text h => by cases h
    rw [Value.operand, operandExpr_eq, if_pos (by rw [hrest]; rfl)]
    rfl
  | number text =>
    have hnumber : isNumberOver Char.isDigit text.toList := h
    have hdot : text.toList.head? ≠ some '.' := by
      intro hdot
      obtain ⟨rest, hrest⟩ := List.head?_eq_some_iff.1 hdot
      rw [hrest] at hnumber
      cases hnumber
    refine iff_of_true ?_ fun text h => by cases h
    rw [Value.operand, operandExpr_eq, if_neg hdot, if_pos (isNumber_of_isNumberOver hnumber).1]
    rfl
  | string text =>
    obtain ⟨body, -, rfl⟩ := h
    have hvalue : (Value.string (quote body)).operand = body := stripQuotes_quote body
    rw [hvalue, operandExpr_eq, Value.expr]
    constructor
    · intro heq text _
      split_ifs at heq with hdot hnumber
      · have hchars := (toList_item_append _).symm.trans (congrArg String.toList heq)
        rw [toList_quote] at hchars
        exact absurd (List.cons.inj hchars).1 (by decide)
      · have hlength := congrArg (fun s => s.toList.length) heq
        simp only [toList_quote, List.length_cons, List.length_append] at hlength
        omega
      · exact ⟨hdot, by simpa using hnumber⟩
    · intro hlooks
      obtain ⟨hdot, hnumber⟩ := hlooks _ rfl
      rw [if_neg hdot, if_neg (by simp [hnumber])]

/-! ## Every filter of a program -/

namespace Script

theorem exists_text_filter (s : Scope) (left : String) (op : Comparison) (right : String) :
    ∃ receiver, (s.instruction (.filter left op right)).text =
      receiver ++ ".filter(item => " ++ ("item" ++ fieldAccess left) ++ " " ++
        op.scriptSpelling ++ " " ++ operandExpr right ++ ");" := by
  have hitem : ".filter(item => item" = ".filter(item => " ++ "item" := by decide
  have htext : ∀ declares source, ∃ receiver,
      (Instruction.filter declares source left op right).text =
        receiver ++ ".filter(item => " ++ ("item" ++ fieldAccess left) ++ " " ++
          op.scriptSpelling ++ " " ++ operandExpr right ++ ");" := by
    intro declares source
    refine ⟨(if declares then "const " else "") ++ "filteredData = " ++ sourceName source, ?_⟩
    unfold Instruction.text
    rw [hitem]
    simp only [String.append_assoc]
  rw [Scope.instruction]
  split
  · exact htext _ _
  · exact htext _ _

/-- **The line of a filter** in the code of a program. -/
theorem exists_line_filter {source : String} {program : List Statement}
    (h : parse source = .ok program) {i line : Nat} {l r : Value} {op : Comparison}
    (hfilter : program[i]? = some ⟨line, .filter l op r⟩) :
    ∃ receiver, (codeLines (scriptOf (stagesOf program)))[i + 3]? =
      some (receiver ++ ".filter(item => " ++ ("item" ++ fieldAccess l.operand) ++ " " ++
        op.scriptSpelling ++ " " ++ operandExpr r.operand ++ ");") := by
  obtain ⟨receiver, htext⟩ := exists_text_filter
    (Scope.ofStages ((stagesOf program).take i)) l.operand op r.operand
  have hstage : (stagesOf program)[i]? = some (.filter l.operand op r.operand) := by
    rw [stagesOf, List.getElem?_map, hfilter]
    rfl
  exact ⟨receiver, htext ▸ getElem?_codeLines (isWritable_of_parse h) hstage⟩

end Script

/-- **The two sides of an emitted comparison.**  The left side is always emitted as a field: it is of
its own kind only if it was written as a path, and an operand at all only if it reads as one.  The
right side is of its own kind unless it was written as a text that starts with a dot or reads as a
number; it is no operand if that text is neither a path nor a number in ASCII digits. -/
theorem filter_operands_iff {rules : Rules} {source : String} {compiled : Compiled}
    (h : compile rules source = .ok compiled) :
    ∃ program, parse source = .ok program ∧
      ∀ (i line : Nat) (l r : Value) (op : Comparison),
        program[i]? = some ⟨line, .filter l op r⟩ →
        ∃ receiver left right,
          (Script.codeLines compiled.code)[i + 3]? =
            some (receiver ++ ".filter(item => " ++ left ++ " " ++ op.scriptSpelling ++ " " ++ right ++
              ");") ∧
          left = "item" ++ fieldAccess l.operand ∧
          right = Script.operandExpr r.operand ∧
          (left = l.expr ↔ ∃ text, l = .path text) ∧
          (left.toList ∈ operand ↔ isPath l.operand) ∧
          (right = r.expr ↔ ∀ text, r = .string text →
            r.operand.toList.head? ≠ some '.' ∧ isNumber r.operand = false) ∧
          (right.toList ∈ operand ↔ isPath r.operand ∨
            r.operand.toList.head? ≠ some '.' ∧ isForeignNumber r.operand = false) := by
  obtain ⟨program, hparse, -, rfl⟩ := compile_eq_ok_iff.1 h
  refine ⟨program, hparse, ?_⟩
  intro i line l r op hfilter
  obtain ⟨receiver, hline⟩ := Script.exists_line_filter hparse hfilter
  have htokens := wellFormed_of_parse hparse (List.mem_of_getElem? hfilter)
  have hl : l.token.WellFormed := htokens l.token (by simp [Clause.tokens])
  have hr : r.token.WellFormed := htokens r.token (by simp [Clause.tokens])
  exact ⟨receiver, _, _, hline, rfl, rfl, item_fieldAccess_eq_expr_iff hl,
    item_fieldAccess_mem_operand_iff, operandExpr_eq_expr_iff hr,
    operandExpr_mem_operand_iff (isPlain_of_wellFormed_value hr)⟩

/-- A program with a number on the left. -/
theorem compile_number_on_left :
    ∃ program compiled,
      parse "LOAD \"a.json\"\nFILTER 18 <= .idade" = .ok program ∧
      program[1]? = some ⟨2, .filter (.number "18") .le (.path ".idade")⟩ ∧
      compile ⟨.empty, true⟩ "LOAD \"a.json\"\nFILTER 18 <= .idade" = .ok compiled ∧
      (Script.codeLines compiled.code)[4]? =
        some "const filteredData = input.filter(item => item18 <= item.idade);" := by
  have hparse : parse "LOAD \"a.json\"\nFILTER 18 <= .idade" =
      .ok [⟨1, .load "\"a.json\""⟩, ⟨2, .filter (.number "18") .le (.path ".idade")⟩] :=
    eq_ok_of_toOption (by decide +kernel)
  refine ⟨_, _, hparse, rfl, compile_eq_ok_iff.2 ⟨_, hparse, by decide +kernel, rfl⟩, ?_⟩
  rw [Script.codeLines_scriptOf (isWritable_of_parse hparse)]
  decide +kernel

theorem filter_operands_iff_number_on_left :
    ∃ compiled, compile ⟨.empty, true⟩ "LOAD \"a.json\"\nFILTER 18 <= .idade" = .ok compiled ∧
      ∃ receiver left right,
        (Script.codeLines compiled.code)[4]? =
          some (receiver ++ ".filter(item => " ++ left ++ " " ++ "<=" ++ " " ++ right ++ ");") ∧
        left.toList ∉ operand ∧ right.toList ∈ operand := by
  obtain ⟨program, compiled, hparse, hfilter, hcompile, -⟩ := compile_number_on_left
  obtain ⟨program', hparse', hsides⟩ := filter_operands_iff hcompile
  obtain rfl := Except.ok.inj (hparse.symm.trans hparse')
  obtain ⟨receiver, left, right, hline, -, -, -, hleft, -, hright⟩ := hsides 1 2 _ _ _ hfilter
  refine ⟨compiled, hcompile, receiver, left, right, hline, ?_, ?_⟩
  · rw [hleft]
    decide
  · rw [hright]
    decide

/-- **A number on the left becomes an undefined name.** -/
theorem number_on_left_is_no_operand :
    ∃ compiled, compile ⟨.empty, true⟩ "LOAD \"a.json\"\nFILTER 18 <= .idade" = .ok compiled ∧
      (Script.codeLines compiled.code)[4]? =
        some "const filteredData = input.filter(item => item18 <= item.idade);" ∧
      "item18".toList ∉ operand := by
  obtain ⟨program, compiled, -, -, hcompile, hline⟩ := compile_number_on_left
  have hname : "item18" = "item" ++ fieldAccess "18" := by decide
  refine ⟨compiled, hcompile, hline, ?_⟩
  rw [hname, item_fieldAccess_mem_operand_iff]
  decide

end QueryPipeline
