/-
# The columns of a selection

A SELECT is emitted as an object with a property for each field, whose name is the path with
underscores for its dots.  An underscore may also stand inside a field name, so that two paths can
get the same name; then the object keeps the last of the two and the other field is lost.

* `Script.properties` : the properties of the object in a line, read from its text;
* `Script.properties_text` : those of a selection are its columns;
* `pieces` : a path, cut at dots and underscores; `columnName_eq_iff` : which paths share a name;
* `Script.recordField` : the field of a record that an object makes;
* `selected_columns_iff` : when the names are distinct, and when no field is lost;
* `column_is_lost` : a selection of two fields that makes records with one.
-/
import QueryPipeline.Proofs.OperandExpressions

namespace QueryPipeline

namespace Script

/-! ## Reading an object -/

/-- The name and the expression of a property that is written behind a blank. -/
def readProperty (cs : List Char) : String × String :=
  (String.ofList ((cs.drop 1).takeWhile (· != ':')),
    String.ofList (((cs.drop 1).dropWhile (· != ':')).drop 2))

/-- The properties of the object in a line: what stands between its braces, cut at the commas. -/
def properties (line : String) : List (String × String) :=
  let inner := ((line.toList.dropWhile (· != '\x7b')).drop 1).takeWhile (· != '\x7d')
  (inner.dropLast.splitOn ',').map readProperty

/-- A field of the record that an object makes: the last property of that name counts.  A property
named `__proto__` sets the prototype of the record, and makes no field. -/
def recordField (properties : List (String × String)) (name : String) : Option String :=
  if name = "__proto__" then none
  else (properties.filter fun p => p.1 = name).getLast?.map Prod.snd

end Script

/-- A path behind its first dot, cut at its dots and underscores. -/
def pieces (s : String) : List (List Char) :=
  (s.toList.drop 1).splitOnP fun c => c == '.' || c == '_'

/-- No two different fields have the same pieces. -/
def AreApart (fields : List String) : Prop :=
  ∀ f ∈ fields, ∀ g ∈ fields, pieces f = pieces g → f = g

/-! ## The characters of a property -/

/-- A column name of a path, character by character. -/
theorem toList_columnName {s : String} {rest : List Char} (h : s.toList = '.' :: rest) :
    (columnName s).toList = rest.map fun c => if c = '.' then '_' else c := by
  rw [columnName, h]
  exact String.toList_ofList

theorem isWordChar_columnName {s : String} (h : isPath s) :
    ∀ c ∈ (columnName s).toList, Text.isWordChar c := by
  obtain ⟨rest, hrest, htail⟩ := exists_tail_of_isPath h
  intro c hc
  rw [toList_columnName hrest] at hc
  obtain ⟨d, hd, rfl⟩ := List.mem_map.1 hc
  split
  · decide
  next hdot => exact (mem_of_isPathTail htail d hd).resolve_left hdot

theorem mem_fieldAccess {s : String} (h : isPath s) :
    ∀ c ∈ (fieldAccess s).toList, c = '?' ∨ c = '.' ∨ Text.isWordChar c := by
  obtain ⟨rest, hrest, htail⟩ := exists_tail_of_isPath h
  intro c hc
  rw [toList_fieldAccess hrest] at hc
  rcases List.mem_cons.1 hc with rfl | hc
  · exact Or.inr (Or.inl rfl)
  · obtain ⟨d, hd, hc⟩ := List.mem_flatMap.1 hc
    split at hc
    next =>
      rcases List.mem_cons.1 hc with rfl | hc
      · exact Or.inl rfl
      · exact Or.inr (Or.inl (List.mem_singleton.1 hc))
    next hdot =>
      obtain rfl := List.mem_singleton.1 hc
      exact Or.inr (mem_of_isPathTail htail c hd)

namespace Script

theorem toList_property (s : String) :
    (property s).toList = (columnName s).toList ++ ':' :: ' ' :: ("item" ++ fieldAccess s).toList := by
  simp [property]

/-- A property has neither a comma nor a brace. -/
theorem mem_property {s : String} (h : isPath s) :
    ∀ c ∈ (property s).toList, c = ':' ∨ c = ' ' ∨ c = '?' ∨ c = '.' ∨ Text.isWordChar c := by
  intro c hc
  rw [toList_property, toList_item_append] at hc
  simp only [List.mem_append, List.mem_cons] at hc
  rcases hc with hc | rfl | rfl | rfl | rfl | rfl | rfl | hc
  · simp [isWordChar_columnName h c hc]
  · decide
  · decide
  · decide
  · decide
  · decide
  · decide
  · exact Or.inr (Or.inr (mem_fieldAccess h c hc))

/-- A field is that of a property, if all properties of its name say the same. -/
theorem recordField_eq_some {properties : List (String × String)} {name value : String}
    (hname : name ≠ "__proto__") (hmem : (name, value) ∈ properties)
    (hsame : ∀ p ∈ properties, p.1 = name → p.2 = value) :
    recordField properties name = some value := by
  have hown : (name, value) ∈ properties.filter fun p => p.1 = name :=
    List.mem_filter.2 ⟨hmem, by simp⟩
  rw [recordField, if_neg hname, List.getLast?_eq_some_getLast (List.ne_nil_of_mem hown)]
  obtain ⟨hlast, hlastname⟩ := List.mem_filter.1 (List.getLast_mem (List.ne_nil_of_mem hown))
  exact congrArg some (hsame _ hlast (of_decide_eq_true hlastname))

/-! ## The properties of a selection -/

/-- A property is read back. -/
theorem readProperty_property {s : String} (h : isPath s) :
    readProperty (' ' :: (property s).toList) = (columnName s, "item" ++ fieldAccess s) := by
  have hname : ∀ c ∈ (columnName s).toList, (c != ':') = true := by
    intro c hc
    rw [bne_iff_ne]
    rintro rfl
    exact absurd (isWordChar_columnName h _ hc) (by decide)
  obtain ⟨htake, hdrop⟩ := Text.span_boundary hname
    (':' :: ' ' :: ("item" ++ fieldAccess s).toList) (by simp)
  rw [readProperty, List.drop_succ_cons, List.drop_zero, toList_property, htake, hdrop,
    List.drop_succ_cons, List.drop_succ_cons, List.drop_zero, String.ofList_toList,
    String.ofList_toList]

/-- Texts joined by commas and blanks, with a blank in front: each is behind a blank. -/
theorem blank_cons_intercalate {texts : List String} (h : texts ≠ []) :
    ' ' :: (", ".intercalate texts).toList =
      [','].intercalate (texts.map fun t => ' ' :: t.toList) := by
  induction texts with
  | nil => exact absurd rfl h
  | cons t texts ih =>
    cases texts with
    | nil => simp
    | cons u texts =>
      have hrest := ih (List.cons_ne_nil u texts)
      rw [List.map_cons] at hrest
      rw [String.intercalate_cons_cons, List.map_cons, List.map_cons, List.intercalate_cons_cons,
        ← hrest]
      simp

/-- A character of joined properties is one of a property, if it is none of what joins them. -/
theorem exists_mem_of_mem_intercalate {fields : List String} {c : Char} (hc : c ≠ ',' ∧ c ≠ ' ')
    (h : c ∈ (", ".intercalate (fields.map property)).toList) :
    ∃ f ∈ fields, c ∈ (property f).toList := by
  cases fields with
  | nil => cases h
  | cons f fields =>
    rw [List.map_cons, toList_intercalate_cons, List.flatMap_map] at h
    rcases List.mem_append.1 h with hmem | hmem
    · exact ⟨f, List.mem_cons_self, hmem⟩
    · obtain ⟨g, hg, hmem⟩ := List.mem_flatMap.1 hmem
      have hmem : c ∈ (property g).toList := by simpa [hc] using hmem
      exact ⟨g, List.mem_cons_of_mem f hg, hmem⟩

/-- The line of a selection: its properties stand between the first two braces, with a blank at
each end. -/
theorem exists_text_select {fields : List String} (hne : fields ≠ []) (s : Scope) :
    ∃ before inner behind, (s.instruction (.select fields)).text.toList =
        before ++ '\x7b' :: (inner ++ '\x7d' :: behind) ∧
      '\x7b' ∉ before ∧
      inner = ' ' :: (", ".intercalate (fields.map property)).toList ++ [' '] := by
  have hobject : object fields =
      "\x7b " ++ ", ".intercalate (fields.map property) ++ " \x7d" := by
    rw [object, if_neg (by simpa using hne)]
  have hname : '\x7b' ∉ (sourceName s.current).toList := by
    intro hmem
    exact absurd (isWordChar_sourceName s.current _ hmem) (by decide)
  refine ⟨("const result = " ++ sourceName s.current ++ ".map(item => (").toList, _, "));".toList,
    ?_, ?_, rfl⟩
  · simp only [Scope.instruction]
    unfold Instruction.text
    dsimp only
    rw [hobject]
    simp
  · simp [hname]

/-- **The properties of a selection are its columns.** -/
theorem properties_text {fields : List String} (hne : fields ≠ []) (h : ∀ f ∈ fields, isPath f)
    (s : Scope) :
    properties (s.instruction (.select fields)).text =
      fields.map fun f => (columnName f, "item" ++ fieldAccess f) := by
  obtain ⟨before, inner, behind, htext, hbefore, hproperties⟩ := exists_text_select hne s
  have hopen : ∀ c ∈ before, (c != '\x7b') = true := by
    intro c hc
    simpa using ne_of_mem_of_not_mem hc hbefore
  have hinner : ∀ c ∈ inner, (c != '\x7d') = true := by
    intro c hc
    rw [bne_iff_ne]
    rintro rfl
    have hjoined : '\x7d' ∈ (", ".intercalate (fields.map property)).toList := by
      simpa [hproperties] using hc
    obtain ⟨f, hf, hmem⟩ := exists_mem_of_mem_intercalate (by decide) hjoined
    exact absurd (mem_property (h f hf) _ hmem) (by decide)
  have hcomma : ∀ part ∈ (fields.map property).map fun t => ' ' :: t.toList, ',' ∉ part := by
    intro part hpart hmem
    rw [List.map_map] at hpart
    obtain ⟨f, hf, rfl⟩ := List.mem_map.1 hpart
    rcases List.mem_cons.1 hmem with hblank | hmem
    · exact absurd hblank (by decide)
    · exact absurd (mem_property (h f hf) _ hmem) (by decide)
  obtain ⟨-, hdrop⟩ := Text.span_boundary hopen ('\x7b' :: (inner ++ '\x7d' :: behind)) (by simp)
  obtain ⟨htake, -⟩ := Text.span_boundary hinner ('\x7d' :: behind) (by simp)
  have hne' : fields.map property ≠ [] := by simpa using hne
  rw [properties, htext, hdrop, List.drop_succ_cons, List.drop_zero, htake, hproperties,
    List.dropLast_concat, blank_cons_intercalate hne',
    List.splitOn_intercalate ',' hcomma (by simpa using hne), List.map_map, List.map_map]
  exact List.map_congr_left fun f hf => readProperty_property (h f hf)

end Script

/-! ## Names -/

theorem splitOn_columnName (cs : List Char) :
    (cs.map fun c => if c = '.' then '_' else c).splitOn '_' =
      cs.splitOnP fun c => c == '.' || c == '_' := by
  induction cs with
  | nil => rfl
  | cons c cs ih =>
    rw [List.map_cons, List.splitOn_cons_eq_if_modifyHead, List.splitOnP_cons_eq_if_modifyHead, ih]
    by_cases hdot : c = '.'
    · simp [hdot]
    · simp [hdot]

/-- **Which paths share a name**: those that differ at most in dots for underscores. -/
theorem columnName_eq_iff {f g : String} (hf : isPath f) (hg : isPath g) :
    columnName f = columnName g ↔ pieces f = pieces g := by
  obtain ⟨rest, hrest, -⟩ := exists_tail_of_isPath hf
  obtain ⟨rest', hrest', -⟩ := exists_tail_of_isPath hg
  rw [← String.toList_inj, toList_columnName hrest, toList_columnName hrest', pieces, pieces, hrest,
    hrest', List.drop_succ_cons, List.drop_zero, List.drop_succ_cons, List.drop_zero,
    ← splitOn_columnName, ← splitOn_columnName]
  constructor
  · intro h
    rw [h]
  · intro h
    -- A name is put together again from its pieces.
    have hjoined := congrArg (['_'].intercalate ·) h
    simpa only [List.intercalate_splitOn] using hjoined

/-- A path without underscores is told by its name: the dots are put back for the underscores. -/
theorem toList_of_columnName {f : String} (h : isPath f) (hno : '_' ∉ f.toList) :
    f.toList = '.' :: (columnName f).toList.map fun c => if c = '_' then '.' else c := by
  obtain ⟨rest, hrest, -⟩ := exists_tail_of_isPath h
  rw [toList_columnName hrest, hrest, List.map_map]
  rw [hrest, List.mem_cons, not_or] at hno
  have hback : ∀ c ∈ rest, ((fun c => if c = '_' then '.' else c) ∘
      fun c => if c = '.' then '_' else c) c = id c := by
    intro c hc
    have hne : c ≠ '_' := ne_of_mem_of_not_mem hc hno.2
    by_cases hdot : c = '.'
    · simp [hdot]
    · simp [hdot, hne]
  rw [List.map_congr_left hback, List.map_id]

theorem areApart_of_no_underscore {fields : List String} (h : ∀ f ∈ fields, isPath f)
    (hno : ∀ f ∈ fields, '_' ∉ f.toList) : AreApart fields := by
  intro f hf g hg hpieces
  have hname := (columnName_eq_iff (h f hf) (h g hg)).2 hpieces
  rw [← String.toList_inj, toList_of_columnName (h f hf) (hno f hf), hname,
    ← toList_of_columnName (h g hg) (hno g hg)]

theorem nodup_columns_iff {fields : List String} (h : ∀ f ∈ fields, isPath f) :
    (fields.map columnName).Nodup ↔ fields.Nodup ∧ AreApart fields := by
  have hapart : AreApart fields ↔
      ∀ f ∈ fields, ∀ g ∈ fields, columnName f = columnName g → f = g := by
    refine forall₂_congr fun f hf => forall₂_congr fun g hg => ?_
    rw [columnName_eq_iff (h f hf) (h g hg)]
  rw [hapart]
  constructor
  · intro hnodup
    have hfields := hnodup.of_map
    exact ⟨hfields, (List.nodup_map_iff_inj_on hfields).1 hnodup⟩
  · rintro ⟨hfields, hinjective⟩
    exact (List.nodup_map_iff_inj_on hfields).2 hinjective

/-- **When no field is lost.**  Fields that share a name would need the same access. -/
theorem forall_recordField_iff {fields : List String} (h : ∀ f ∈ fields, isPath f) :
    (∀ f ∈ fields, Script.recordField (fields.map fun f => (columnName f, "item" ++ fieldAccess f))
        (columnName f) = some ("item" ++ fieldAccess f)) ↔
      AreApart fields ∧ "__proto__" ∉ fields.map columnName := by
  constructor
  · intro hkept
    constructor
    · intro f hf g hg hpieces
      have hname := (columnName_eq_iff (h f hf) (h g hg)).2 hpieces
      have hsame := (hkept f hf).symm.trans (hname ▸ hkept g hg)
      exact fieldAccess_injective ((String.append_right_inj _).1 (Option.some.inj hsame))
    · intro hmem
      obtain ⟨f, hf, hname⟩ := List.mem_map.1 hmem
      have hfield := hkept f hf
      rw [Script.recordField, if_pos hname] at hfield
      cases hfield
  · rintro ⟨hapart, hproto⟩ f hf
    have hname : columnName f ≠ "__proto__" := fun heq => hproto (heq ▸ List.mem_map_of_mem hf)
    refine Script.recordField_eq_some hname (List.mem_map_of_mem hf) ?_
    intro p hp hpname
    -- Another property of that name is that of a field with the same pieces.
    obtain ⟨g, hg, rfl⟩ := List.mem_map.1 hp
    have hpieces := (columnName_eq_iff (h g hg) (h f hf)).1 hpname
    rw [hapart g hg f hf hpieces]

/-- **When a selection keeps its fields.**  In the code of a text that compiles, the line of a SELECT
has a property for each of its fields, in their order.  The names of the properties are distinct if and
only if the fields are and no two of them have the same pieces; and every field is in the records that
are made, under its own name, if and only if no two different ones have the same pieces and none is
named `__proto__`.  Fields without underscores never have the same pieces. -/
theorem selected_columns_iff {rules : Rules} {source : String} {compiled : Compiled}
    (h : compile rules source = .ok compiled) {i line : Nat} {fields : List String}
    (hselect : compiled.commands[i]? = some ⟨line, .select fields⟩) :
    ∃ text, (Script.codeLines compiled.code)[i + 3]? = some text ∧
      Script.properties text = fields.map (fun f => (columnName f, "item" ++ fieldAccess f)) ∧
      (((Script.properties text).map Prod.fst).Nodup ↔ fields.Nodup ∧ AreApart fields) ∧
      ((∀ f ∈ fields, Script.recordField (Script.properties text) (columnName f) =
          some ("item" ++ fieldAccess f)) ↔
        AreApart fields ∧ "__proto__" ∉ (Script.properties text).map Prod.fst) ∧
      ((∀ f ∈ fields, '_' ∉ f.toList) → AreApart fields) := by
  obtain ⟨program, hparse, -, rfl⟩ := compile_eq_ok_iff.1 h
  have hstage : (stagesOf program)[i]? = some (.select fields) := by
    rw [← item_commands, List.getElem?_map, hselect]
    rfl
  have hwritable := isWritable_of_parse hparse
  obtain ⟨hne, hpaths⟩ := hwritable _ (List.mem_of_getElem? hstage)
  have hproperties := Script.properties_text hne hpaths
    (Script.Scope.ofStages ((stagesOf program).take i))
  have hnames : (fields.map fun f => (columnName f, "item" ++ fieldAccess f)).map Prod.fst =
      fields.map columnName := by
    rw [List.map_map]
    rfl
  refine ⟨_, Script.getElem?_codeLines hwritable hstage, hproperties, ?_, ?_, ?_⟩
  · rw [hproperties, hnames, nodup_columns_iff hpaths]
  · rw [hproperties, hnames, forall_recordField_iff hpaths]
  · exact areApart_of_no_underscore hpaths

/-- A text that selects two fields of one name. -/
theorem compile_one_name :
    ∃ compiled, compile ⟨.empty, true⟩ "LOAD \"a.json\"\nSELECT .a.b, .a_b" = .ok compiled ∧
      compiled.commands[1]? = some ⟨2, .select [".a.b", ".a_b"]⟩ ∧
      (Script.codeLines compiled.code)[4]? = some
        "const result = input.map(item => (\x7b a_b: item.a?.b, a_b: item.a_b \x7d));" := by
  have hparse : parse "LOAD \"a.json\"\nSELECT .a.b, .a_b" =
      .ok [⟨1, .load "\"a.json\""⟩, ⟨2, .select [".a.b", ".a_b"]⟩] :=
    eq_ok_of_toOption (by decide +kernel)
  refine ⟨_, compile_eq_ok_iff.2 ⟨_, hparse, by decide, rfl⟩, rfl, ?_⟩
  exact (Script.getElem?_codeLines (i := 1) (isWritable_of_parse hparse) rfl).trans (by decide)

theorem selected_columns_iff_one_name :
    ∃ compiled, compile ⟨.empty, true⟩ "LOAD \"a.json\"\nSELECT .a.b, .a_b" = .ok compiled ∧
      compiled.commands[1]? = some ⟨2, .select [".a.b", ".a_b"]⟩ ∧
      ∃ text, (Script.codeLines compiled.code)[4]? = some text ∧
        ¬ ∀ f ∈ [".a.b", ".a_b"], Script.recordField (Script.properties text) (columnName f) =
          some ("item" ++ fieldAccess f) := by
  obtain ⟨compiled, hcompile, hselect, -⟩ := compile_one_name
  obtain ⟨text, hline, -, -, hkept, -⟩ := selected_columns_iff hcompile hselect
  refine ⟨compiled, hcompile, hselect, text, hline, ?_⟩
  rw [hkept]
  rintro ⟨hapart, -⟩
  have hsame := hapart ".a.b" (by simp) ".a_b" (by simp) (by decide)
  revert hsame
  decide

/-- **Two fields of one name**: the names in the object are not distinct, and the records have the
second field in place of the first. -/
theorem column_is_lost :
    ∃ compiled text, compile ⟨.empty, true⟩ "LOAD \"a.json\"\nSELECT .a.b, .a_b" = .ok compiled ∧
      compiled.commands[1]? = some ⟨2, .select [".a.b", ".a_b"]⟩ ∧ [".a.b", ".a_b"].Nodup ∧
      (Script.codeLines compiled.code)[4]? = some text ∧
      ¬ ((Script.properties text).map Prod.fst).Nodup ∧
      Script.recordField (Script.properties text) (columnName ".a.b") = some "item.a_b" := by
  obtain ⟨compiled, hcompile, hselect, hline⟩ := compile_one_name
  exact ⟨compiled, _, hcompile, hselect, by decide, hline, by decide, by decide⟩

end QueryPipeline
