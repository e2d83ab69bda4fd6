/-
# Reading the lines of a script

A script is text.  Here the text of a line is read back: the variable that it gives a
value to, whether it declares that variable, and the variable whose records it reads.
The readings look at the text alone, and whatever names of files and fields stand in
a line, they find what its instruction says.

* `Script.assignment?` : the variable that a line gives a value to;
* `Script.source?` : the variable that a line reads;
* `Script.target?` : the variable that the line of a stage should give a value to;
* `assignment?_text`, `source?_text` : both, for the line of an instruction.
-/
import QueryPipeline.Script
import QueryPipeline.Token.Lexer

namespace QueryPipeline.Script

/-! ## The readings -/

/-- The variable of a name. -/
def Variable.ofName? (name : List Char) : Option Variable :=
  [input, filteredData, result].find? fun v => v.name.toList == name

@[simp] theorem Variable.ofName?_name (v : Variable) : ofName? v.name.toList = some v := by
  cases v <;> decide +kernel

/-- A line gives a variable a value, and may declare it as a constant. -/
structure Assignment where
  declares : Bool
  target : Variable
  deriving DecidableEq

/-- The assignment of what stands in front of an equals sign: a name and a blank, and the word
`const` before them if the name is declared. -/
def Assignment.ofLeft? (left : List Char) : Option Assignment :=
  if "const ".toList.isPrefixOf left then
    (Variable.ofName? (left.drop 6).dropLast).map (Assignment.mk true)
  else (Variable.ofName? left.dropLast).map (Assignment.mk false)

/-- The assignment that a line makes, read in front of its first equals sign. -/
def assignment? (line : String) : Option Assignment :=
  Assignment.ofLeft? (line.toList.takeWhile (· != '='))

/-- The word after the first equals sign of a text and a blank. -/
def wordAfterEquals (cs : List Char) : List Char :=
  ((cs.dropWhile (· != '=')).drop 2).takeWhile Text.isWordChar

/-- The word before the last comma of a text but one. -/
def wordBeforeCommas (cs : List Char) : List Char :=
  let beforeLast := (cs.reverse.dropWhile (· != ',')).drop 1
  (((beforeLast.dropWhile (· != ',')).drop 1).takeWhile Text.isWordChar).reverse

/-- The variable whose records a line reads: an assignment names it behind its equals sign, any
other line as the first of the last three arguments. -/
def source? (line : String) : Option Variable :=
  Variable.ofName? <|
    if (assignment? line).isSome then wordAfterEquals line.toList else wordBeforeCommas line.toList

namespace Instruction

/-- The assignment that an instruction makes. -/
def assignment : Instruction → Option Assignment
  | read _ => some ⟨true, .input⟩
  | filter declares _ _ _ _ => some ⟨declares, .filteredData⟩
  | project _ _ => some ⟨true, .result⟩
  | write _ _ => none

/-- The variable that an instruction reads. -/
def source : Instruction → Option Variable
  | read _ => none
  | filter _ source _ _ _ => source
  | project source _ => source
  | write _ source => source

end Instruction

/-! ## The variable of a stage -/

/-- The variable that the line of a stage gives a value to. -/
def target? : Stage → Option Variable
  | .load _ => some .input
  | .filter _ _ _ => some .filteredData
  | .select _ => some .result
  | .save _ => none

/-- The line of the stage gives a variable a value. -/
def writes (v : Variable) (stage : Stage) : Bool :=
  target? stage = some v

/-- The instruction of a stage declares the variable of the stage, unless it is one more filter. -/
theorem assignment_instruction (s : Scope) (stage : Stage) :
    (s.instruction stage).assignment =
      (target? stage).map fun v => ⟨!(v = .filteredData && s.filtered), v⟩ := by
  cases stage with
  | filter left op right =>
    cases hfiltered : s.filtered <;>
      simp [Scope.instruction, hfiltered, Instruction.assignment, target?]
  | _ => rfl

theorem filtered_after (s : Scope) (stage : Stage) :
    (s.after stage).filtered = (s.filtered || writes .filteredData stage) := by
  cases stage <;> simp [Scope.after, writes, target?]

/-! ## Words in a text -/

theorem takeWhile_equals {left : List Char} (h : '=' ∉ left) (rest : List Char) :
    (left ++ '=' :: rest).takeWhile (· != '=') = left := by
  rw [List.takeWhile_append_of_pos (by simpa using fun c hc => ne_of_mem_of_not_mem hc h)]
  simp

/-- The word behind an equals sign ends at the first character that is not of a word. -/
theorem wordAfterEquals_append {left word : List Char} {c : Char} (hleft : '=' ∉ left)
    (hword : ∀ x ∈ word, Text.isWordChar x) (hc : Text.isWordChar c = false) (rest : List Char) :
    wordAfterEquals (left ++ '=' :: ' ' :: (word ++ c :: rest)) = word := by
  have hdrop : (left ++ '=' :: ' ' :: (word ++ c :: rest)).dropWhile (· != '=') =
      '=' :: ' ' :: (word ++ c :: rest) := by
    rw [List.dropWhile_append_of_pos (by simpa using fun x hx => ne_of_mem_of_not_mem hx hleft)]
    simp
  rw [wordAfterEquals, hdrop, List.drop_succ_cons, List.drop_succ_cons, List.drop_zero,
    List.takeWhile_append_of_pos hword, List.takeWhile_cons_of_neg (by simp [hc]), List.append_nil]

/-- The word before the last comma but one starts behind the last character before it that is not
of a word. -/
theorem wordBeforeCommas_append {before word middle last : List Char} {c : Char}
    (hc : Text.isWordChar c = false) (hword : ∀ x ∈ word, Text.isWordChar x)
    (hmiddle : ',' ∉ middle) (hlast : ',' ∉ last) :
    wordBeforeCommas (before ++ c :: (word ++ ',' :: (middle ++ ',' :: last))) = word := by
  have hskip : ∀ {xs : List Char}, ',' ∉ xs → ∀ rest : List Char,
      ((xs.reverse ++ ',' :: rest).dropWhile (· != ',')).drop 1 = rest := by
    intro xs hxs rest
    rw [List.dropWhile_append_of_pos (by simpa using fun x hx => ne_of_mem_of_not_mem hx hxs)]
    simp
  have hreverse : (before ++ c :: (word ++ ',' :: (middle ++ ',' :: last))).reverse =
      last.reverse ++ ',' :: (middle.reverse ++ ',' :: (word.reverse ++ c :: before.reverse)) := by
    simp
  rw [wordBeforeCommas, hreverse, hskip hlast, hskip hmiddle,
    List.takeWhile_append_of_pos (by simpa using hword),
    List.takeWhile_cons_of_neg (by simp [hc]), List.append_nil, List.reverse_reverse]

/-! ## The readings of an instruction -/

/-- A name is a word. -/
theorem isWordChar_sourceName (source : Option Variable) :
    ∀ c ∈ (sourceName source).toList, Text.isWordChar c := by
  rw [← List.all_eq_true]
  rcases source with _ | v
  · decide +kernel
  · cases v <;> decide +kernel

@[simp] theorem ofName?_sourceName (source : Option Variable) :
    Variable.ofName? (sourceName source).toList = source := by
  rcases source with _ | v
  · decide +kernel
  · exact v.ofName?_name

/-- What stands in front of the equals sign of an assignment. -/
def Assignment.left (a : Assignment) : String :=
  (if a.declares then "const " else "") ++ a.target.name ++ " "

theorem Assignment.ofLeft?_left (a : Assignment) : ofLeft? a.left.toList = some a := by
  obtain ⟨declares, target⟩ := a
  cases declares <;> cases target <;> decide +kernel

theorem Assignment.equals_not_mem_left (a : Assignment) : '=' ∉ a.left.toList := by
  obtain ⟨declares, target⟩ := a
  cases declares <;> cases target <;> decide +kernel

/-- The line of an assignment: its left side, an equals sign, a word that names its source, and
something that does not belong to the word. -/
theorem exists_text_of_assignment {i : Instruction} {a : Assignment} (h : i.assignment = some a) :
    ∃ word c tail, i.text.toList = a.left.toList ++ '=' :: ' ' :: (word ++ c :: tail) ∧
      (∀ x ∈ word, Text.isWordChar x) ∧ Text.isWordChar c = false ∧
      Variable.ofName? word = i.source := by
  cases i with
  | read file =>
    cases h
    have hsource : Variable.ofName? "JSON".toList = none := by decide +kernel
    refine ⟨"JSON".toList, '.', ("parse(fs.readFileSync('" ++ file ++ "', 'utf-8'));").toList,
      ?_, List.all_eq_true.1 (by decide +kernel), by decide, hsource⟩
    unfold Instruction.text
    simp [Assignment.left, Variable.name]
  | filter declares source left op right =>
    cases h
    refine ⟨(sourceName source).toList, '.', ("filter(item => item" ++ fieldAccess left ++ " " ++
      op.scriptSpelling ++ " " ++ operandExpr right ++ ");").toList, ?_,
      isWordChar_sourceName source, by decide, ofName?_sourceName source⟩
    unfold Instruction.text
    cases declares <;> simp [Assignment.left, Variable.name]
  | project source fields =>
    cases h
    refine ⟨(sourceName source).toList, '.', ("map(item => (" ++ object fields ++ "));").toList,
      ?_, isWordChar_sourceName source, by decide, ofName?_sourceName source⟩
    unfold Instruction.text
    simp [Assignment.left, Variable.name]
  | write file source => cases h

/-- The line of an instruction that makes no assignment starts as a call, which no left side does,
and names its source before two more arguments. -/
theorem exists_text_of_no_assignment {i : Instruction} (h : i.assignment = none) :
    ∃ call before, i.text.toList = "fs.".toList ++ call ∧
      i.text.toList = before ++ '(' :: ((sourceName i.source).toList ++
        ',' :: (" null".toList ++ ',' :: " 2));".toList)) := by
  cases i with
  | write file source =>
    refine ⟨("writeFileSync('" ++ file ++ "', JSON.stringify(" ++ sourceName source ++
      ", null, 2));").toList, ("fs.writeFileSync('" ++ file ++ "', JSON.stringify").toList, ?_, ?_⟩
    · unfold Instruction.text
      simp
    · unfold Instruction.text
      simp [Instruction.source]
  | _ => cases h

theorem ofLeft?_call (call : List Char) :
    Assignment.ofLeft? (("fs.".toList ++ call).takeWhile (· != '=')) = none := by
  have hhead : ∃ rest, ("fs.".toList ++ call).takeWhile (· != '=') = 'f' :: 's' :: '.' :: rest :=
    ⟨call.takeWhile (· != '='), rfl⟩
  obtain ⟨rest, hrest⟩ := hhead
  rw [hrest, Assignment.ofLeft?, if_neg (by simp [List.isPrefixOf])]
  cases rest <;> simp [Variable.ofName?, Variable.name]

/-- A line makes the assignment of its instruction, whatever is behind it. -/
theorem assignment?_text (i : Instruction) (rest : String) :
    assignment? (i.text ++ rest) = i.assignment := by
  cases h : i.assignment with
  | some a =>
    obtain ⟨word, c, tail, htext, -, -, -⟩ := exists_text_of_assignment h
    rw [assignment?, String.toList_append, htext, List.append_assoc, List.cons_append,
      takeWhile_equals a.equals_not_mem_left, a.ofLeft?_left]
  | none =>
    obtain ⟨call, -, htext, -⟩ := exists_text_of_no_assignment h
    rw [assignment?, String.toList_append, htext, List.append_assoc, ofLeft?_call]

/-- A line reads the source of its instruction, if no comma is behind it. -/
theorem source?_text (i : Instruction) {rest : String} (hrest : ',' ∉ rest.toList) :
    source? (i.text ++ rest) = i.source := by
  rw [source?, assignment?_text]
  cases h : i.assignment with
  | some a =>
    obtain ⟨word, c, tail, htext, hword, hc, hsource⟩ := exists_text_of_assignment h
    have hassoc : (i.text ++ rest).toList =
        a.left.toList ++ '=' :: ' ' :: (word ++ c :: (tail ++ rest.toList)) := by
      simp [htext]
    rw [Option.isSome_some, if_pos rfl, hassoc,
      wordAfterEquals_append a.equals_not_mem_left hword hc, hsource]
  | none =>
    -- A file name may hold commas and brackets: the line is read from its end.
    obtain ⟨-, before, -, htext⟩ := exists_text_of_no_assignment h
    have hassoc : (i.text ++ rest).toList = before ++ '(' :: ((sourceName i.source).toList ++
        ',' :: (" null".toList ++ ',' :: (" 2));".toList ++ rest.toList))) := by
      simp [htext]
    have hlast : ',' ∉ " 2));".toList ++ rest.toList := by
      simp [hrest]
    rw [Option.isSome_none, if_neg (by simp), hassoc,
      wordBeforeCommas_append (by decide) (isWordChar_sourceName i.source) (by decide +kernel)
        hlast, ofName?_sourceName]

end QueryPipeline.Script
