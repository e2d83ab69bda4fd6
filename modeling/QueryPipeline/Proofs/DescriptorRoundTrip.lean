/-
# Descriptors are read back

A field table that is written as JSON is read back as the same table, whatever characters its
paths hold.  Both ways of writing a table are one layout with different blanks, and reading
passes over the blanks.

* `Descriptor.readString_closed` : escaped characters are read back;
* `Descriptor.Spacing`, `Descriptor.Spacing.object` : the layout of a written table;
* `Descriptor.readMembers_object` : the members of a written table are read back, in order;
* `FieldTable.toList_pretty`, `FieldTable.toList_compact` : both printers use that layout;
* `FieldTable.ofDescriptor_eq_ok_iff` : which texts describe a table;
* `written_table_loads_back` : the whole law.
-/
import QueryPipeline.Proofs.GoldenFiles

namespace QueryPipeline

namespace Descriptor

/-! ## Escapes -/

/-- A hexadecimal digit has the value it was written for. -/
theorem hexValue?_digitChar {n : Nat} (h : n < 16) : hexValue? (Nat.digitChar n) = some n := by
  have hall : ∀ n < 16, hexValue? (Nat.digitChar n) = some n := by decide
  exact hall n h

/-- Puts a character in front of the text that was read. -/
def addChar (c : Char) (r : List Char × List Char) : List Char × List Char :=
  (c :: r.1, r.2)

theorem readString_backslash {c : Char} {cs rest : List Char} (h : readEscape cs = .ok (c, rest)) :
    readString ('\\' :: cs) = (readString rest).map (addChar c) := by
  rw [readString]
  split
  next e he =>
    rw [h] at he
    cases he
  next d tail hd =>
    rw [h] at hd
    cases hd
    rfl

theorem readString_plain {c : Char} (hquote : c ≠ '"') (hslash : c ≠ '\\')
    (hcontrol : ¬ c.toNat < 0x20) (rest : List Char) :
    readString (c :: rest) = (readString rest).map (addChar c) := by
  rw [readString]
  · rw [if_neg hcontrol]
    rfl
  · exact hquote
  · exact hslash

/-- The escape by code unit of a control character. -/
theorem readEscape_control {c : Char} (h : c.toNat < 0x20) (rest : List Char) :
    readEscape ('u' :: '0' :: '0' :: Nat.digitChar (c.toNat / 16) :: Nat.digitChar (c.toNat % 16) ::
      rest) = .ok (c, rest) := by
  have hzero : hexValue? '0' = some 0 := by decide
  have hquad : hexQuad? '0' '0' (Nat.digitChar (c.toNat / 16)) (Nat.digitChar (c.toNat % 16)) =
      some c.toNat := by
    rw [hexQuad?, hzero, hexValue?_digitChar (by omega), hexValue?_digitChar (by omega)]
    show some (((0 * 16 + 0) * 16 + c.toNat / 16) * 16 + c.toNat % 16) = some c.toNat
    congr 1
    omega
  have hread : readHexQuad ('0' :: '0' :: Nat.digitChar (c.toNat / 16) ::
      Nat.digitChar (c.toNat % 16) :: rest) = .ok (c.toNat, rest) := by
    simp only [readHexQuad, hquad, Option.map_some]
  -- A control character lies far below the surrogates.
  have hlow : isLowSurrogate c.toNat = false := by
    simp only [isLowSurrogate, Bool.and_eq_false_iff, decide_eq_false_iff_not]
    omega
  have hhigh : isHighSurrogate c.toNat = false := by
    simp only [isHighSurrogate, Bool.and_eq_false_iff, decide_eq_false_iff_not]
    omega
  rw [readEscape, if_pos rfl, readCodeUnit, hread]
  simp [hlow, hhigh, Char.ofNat_toNat]

/-- **A character is read back as it was written.** -/
theorem readString_escapeChar (c : Char) (rest : List Char) :
    readString (escapeChar c ++ rest) = (readString rest).map (addChar c) := by
  unfold escapeChar
  split
  · exact readString_backslash rfl
  · exact readString_backslash rfl
  · exact readString_backslash rfl
  · exact readString_backslash rfl
  · exact readString_backslash rfl
  · exact readString_backslash rfl
  · exact readString_backslash rfl
  next hquote hslash _ _ _ _ _ =>
    split
    next hcontrol => exact readString_backslash (readEscape_control hcontrol rest)
    next hcontrol => exact readString_plain hquote hslash hcontrol rest

/-- The characters of a string behind its opening quote, up to its closing one. -/
def closed (s : String) : List Char :=
  s.toList.flatMap escapeChar ++ ['"']

/-- **A text is read back as it was written**, with anything behind it. -/
theorem readString_closed (s : String) (rest : List Char) :
    readString (closed s ++ rest) = .ok (s.toList, rest) := by
  rw [closed]
  induction s.toList with
  | nil =>
    show readString ('"' :: rest) = _
    rw [readString]
  | cons c cs ih =>
    rw [List.flatMap_cons, List.append_assoc, List.append_assoc, readString_escapeChar,
      ← List.append_assoc, ih]
    rfl

theorem toList_jsonString (s : String) : (jsonString s).toList = '"' :: closed s := by
  rw [jsonString, String.toList_ofList, closed, List.cons_append]

/-! ## Blanks -/

/-- Blanks in front are passed over. -/
theorem skipSpace_append {gap : List Char} (hgap : ∀ c ∈ gap, isSpace c) {c : Char}
    (hc : isSpace c = false) (rest : List Char) : skipSpace (gap ++ c :: rest) = c :: rest := by
  rw [skipSpace, List.dropWhile_append_of_pos hgap, List.dropWhile_cons_of_neg (by simp [hc])]

/-! ## Members -/

theorem ofName?_name (type : FieldType) : FieldType.ofName? type.name = some type := by
  cases type <;> decide

/-- The blanks of a written table: before each member, behind each colon, and before the closing
brace. -/
structure Spacing where
  lead : List Char
  gap : List Char
  trail : List Char
  lead_blank : ∀ c ∈ lead, isSpace c
  gap_blank : ∀ c ∈ gap, isSpace c
  trail_blank : ∀ c ∈ trail, isSpace c

namespace Spacing

/-- No blanks at all. -/
def compact : Spacing :=
  ⟨[], [], [], by simp, by simp, by simp⟩

/-- Each member on a line of its own. -/
def pretty : Spacing :=
  ⟨['\n', ' ', ' '], [' '], ['\n'], by simp [isSpace], by simp [isSpace], by simp [isSpace]⟩

/-- A member, behind the opening quote of its key. -/
def member (s : Spacing) (entry : String × FieldType) : List Char :=
  closed entry.1 ++ ':' :: (s.gap ++ '"' :: closed entry.2.name)

/-- The members of a table, behind the first one. -/
def others (s : Spacing) (entries : List (String × FieldType)) : List Char :=
  entries.flatMap fun entry => ',' :: (s.lead ++ '"' :: s.member entry)

/-- A table with some entries.  An empty table holds no blanks. -/
def object (s : Spacing) : List (String × FieldType) → List Char
  | [] => ['\x7b', '\x7d']
  | entry :: entries =>
    '\x7b' :: (s.lead ++ '"' :: (s.member entry ++ (s.others entries ++ (s.trail ++ ['\x7d']))))

end Spacing

theorem bind_of_eq_ok {ε α β : Type} {x : Except ε α} {a : α} (h : x = .ok a)
    (f : α → Except ε β) : (x >>= f) = f a := by
  rw [h]
  rfl

theorem readTypeName_closed (type : FieldType) (rest : List Char) :
    readTypeName (closed type.name ++ rest) = .ok (type, rest) := by
  rw [readTypeName, bind_of_eq_ok (readString_closed _ _)]
  dsimp only
  rw [String.ofList_toList, ofName?_name]

/-- **A member is read back.** -/
theorem readMember_member (s : Spacing) (entry : String × FieldType) (rest : List Char) :
    readMember (s.member entry ++ rest) = .ok (entry, rest) := by
  have hcolon : readColon (':' :: (s.gap ++ '"' :: closed entry.2.name) ++ rest) =
      .ok (s.gap ++ '"' :: (closed entry.2.name ++ rest)) := by
    rw [readColon, List.cons_append, skipSpace, List.dropWhile_cons_of_neg (by decide),
      List.append_assoc]
    rfl
  have htype : readType (s.gap ++ '"' :: (closed entry.2.name ++ rest)) = .ok (entry.2, rest) := by
    rw [readType, skipSpace_append s.gap_blank (by decide)]
    exact readTypeName_closed entry.2 rest
  rw [readMember, Spacing.member, List.append_assoc, bind_of_eq_ok (readString_closed _ _)]
  dsimp only
  rw [bind_of_eq_ok hcolon, bind_of_eq_ok htype]
  dsimp only
  rw [String.ofList_toList]

/-! ## Objects -/

/-- Reading goes on behind a member. -/
theorem readObject_member {first : Bool} {cs : List Char} {s : Spacing}
    {entry : String × FieldType} {rest : List Char}
    (h : readNext first cs = .ok (.member (s.member entry ++ rest))) :
    readObject first cs =
      (readObject false rest).map fun r => (entry :: r.1, r.2) := by
  rw [readObject]
  split
  next e he =>
    rw [h] at he
    cases he
  next tail hclose =>
    rw [h] at hclose
    cases hclose
  next tail hmember =>
    rw [h] at hmember
    cases hmember
    split
    next e he =>
      rw [readMember_member] at he
      cases he
    next found tail hfound =>
      rw [readMember_member] at hfound
      cases hfound
      rfl

theorem readObject_close {first : Bool} {cs rest : List Char}
    (h : readNext first cs = .ok (.close rest)) : readObject first cs = .ok ([], rest) := by
  rw [readObject]
  split
  next e he =>
    rw [h] at he
    cases he
  next tail hclose =>
    rw [h] at hclose
    cases hclose
    rfl
  next tail hmember =>
    rw [h] at hmember
    cases hmember

theorem readNext_close (first : Bool) (s : Spacing) (rest : List Char) :
    readNext first (s.trail ++ '\x7d' :: rest) = .ok (.close rest) := by
  rw [readNext, skipSpace_append s.trail_blank (by decide)]
  rfl

theorem readNext_first (s : Spacing) (rest : List Char) :
    readNext true (s.lead ++ '"' :: rest) = .ok (.member rest) := by
  rw [readNext, skipSpace_append s.lead_blank (by decide)]
  rfl

theorem readNext_comma (s : Spacing) (rest : List Char) :
    readNext false (',' :: (s.lead ++ '"' :: rest)) = .ok (.member rest) := by
  have hkey : readKeyStart (s.lead ++ '"' :: rest) = .ok (.member rest) := by
    rw [readKeyStart, skipSpace_append s.lead_blank (by decide)]
    rfl
  rw [readNext, skipSpace, List.dropWhile_cons_of_neg (by decide)]
  exact hkey

/-- The members behind the first one are read back. -/
theorem readObject_others (s : Spacing) (entries : List (String × FieldType)) (rest : List Char) :
    readObject false (s.others entries ++ (s.trail ++ '\x7d' :: rest)) = .ok (entries, rest) := by
  induction entries with
  | nil => exact readObject_close (readNext_close false s rest)
  | cons entry entries ih =>
    have hnext : readNext false (s.others (entry :: entries) ++ (s.trail ++ '\x7d' :: rest)) =
        .ok (.member (s.member entry ++ (s.others entries ++ (s.trail ++ '\x7d' :: rest)))) := by
      rw [← readNext_comma s]
      simp [Spacing.others]
    rw [readObject_member hnext, ih]
    rfl

/-- **The members of a written table are read back**, in order. -/
theorem readMembers_object (s : Spacing) (entries : List (String × FieldType)) :
    readMembers (s.object entries) = .ok entries := by
  have hobject : ∃ body, s.object entries = '\x7b' :: body ∧
      readObject true body = .ok (entries, []) := by
    cases entries with
    | nil => exact ⟨['\x7d'], rfl, readObject_close rfl⟩
    | cons entry entries =>
      refine ⟨_, rfl, ?_⟩
      rw [readObject_member (readNext_first s _), readObject_others]
      rfl
  obtain ⟨body, hbody, hread⟩ := hobject
  rw [hbody, readMembers, skipSpace, List.dropWhile_cons_of_neg (by decide)]
  dsimp only
  rw [if_pos rfl, bind_of_eq_ok hread]
  rfl

end Descriptor

/-! ## Tables -/

namespace FieldTable

/-- Every declared path starts with a dot. -/
def IsDotted (table : FieldTable) : Prop :=
  ∀ key ∈ table, startsWithDot key

theorem toList_entryText (s : Descriptor.Spacing) {colon : String} (h : colon.toList = ':' :: s.gap)
    (entry : String × FieldType) :
    (Descriptor.entryText colon entry).toList = '"' :: s.member entry := by
  rw [Descriptor.entryText, String.toList_append, String.toList_append, h,
    Descriptor.toList_jsonString, Descriptor.toList_jsonString, Descriptor.Spacing.member]
  simp

/-- A table on one line, by its characters. -/
theorem toList_compact (table : FieldTable) :
    table.compact.toList = Descriptor.Spacing.compact.object table.toList := by
  have hentry := toList_entryText .compact (by decide : ":".toList = ':' :: [])
  rw [compact, String.toList_append, String.toList_append]
  cases table.toList with
  | nil => decide
  | cons entry entries =>
    rw [List.map_cons, toList_intercalate_cons, hentry, List.flatMap_map]
    simp [hentry, Descriptor.Spacing.object, Descriptor.Spacing.others,
      Descriptor.Spacing.compact]

/-- A table with one entry on each line, by its characters. -/
theorem toList_pretty (table : FieldTable) :
    table.pretty.toList = Descriptor.Spacing.pretty.object table.toList := by
  have hentry := toList_entryText .pretty (by decide : ": ".toList = ':' :: [' '])
  rw [pretty, ← Std.ExtTreeMap.isEmpty_toList]
  cases table.toList with
  | nil => decide
  | cons entry entries =>
    rw [List.isEmpty_cons, if_neg Bool.false_ne_true, List.map_cons, String.toList_append,
      String.toList_append, toList_intercalate_cons, List.flatMap_map]
    simp [hentry, Descriptor.Spacing.object, Descriptor.Spacing.others,
      Descriptor.Spacing.pretty]

/-- A table is the table of its entries. -/
theorem ofEntries_toList (table : FieldTable) : ofEntries table.toList = table := by
  have hlist : ofEntries table.toList = Std.ExtTreeMap.ofList table.toList compare :=
    Std.ExtTreeMap.ofList_eq_foldl.symm
  rw [hlist]
  apply Std.ExtTreeMap.ext_getElem?
  intro key
  cases htype : table[key]? with
  | some type =>
    exact Std.ExtTreeMap.getElem?_ofList_of_mem Std.ReflCmp.compare_self
      Std.ExtTreeMap.distinct_keys_toList
      (Std.ExtTreeMap.mem_toList_iff_getElem?_eq_some.2 htype)
  | none =>
    apply Std.ExtTreeMap.getElem?_ofList_of_contains_eq_false
    rw [Std.ExtTreeMap.map_fst_toList_eq_keys, Std.ExtTreeMap.contains_keys,
      Std.ExtTreeMap.contains_eq_isSome_getElem?, htype, Option.isSome_none]

/-- The keys of a table pass the check if and only if they all start with a dot. -/
theorem find?_keys_eq_none_iff (table : FieldTable) :
    (table.keys.find? fun key => !startsWithDot key) = none ↔ table.IsDotted := by
  rw [List.find?_eq_none]
  constructor
  · intro h key hkey
    simpa using h key (Std.ExtTreeMap.mem_keys.2 hkey)
  · intro h key hkey
    simpa using h key (Std.ExtTreeMap.mem_keys.1 hkey)

/-- **Which texts describe a table**: those whose members can be read, make up the table, and are all
paths. -/
theorem ofDescriptor_eq_ok_iff {text : String} {table : FieldTable} :
    ofDescriptor text = .ok table ↔
      ∃ members, Descriptor.readMembers text.toList = .ok members ∧ ofEntries members = table ∧
        table.IsDotted := by
  rw [ofDescriptor]
  cases hmembers : Descriptor.readMembers text.toList with
  | error e => simp
  | ok members =>
    have hdotted := find?_keys_eq_none_iff (ofEntries members)
    dsimp only
    constructor
    · intro h
      split at h
      · cases h
      next hnone =>
        obtain rfl := Except.ok.inj h
        exact ⟨members, rfl, rfl, hdotted.1 hnone⟩
    · rintro ⟨found, hfound, rfl, hkeys⟩
      obtain rfl := Except.ok.inj hfound
      rw [hdotted.2 hkeys]

/-- The keys of a table are those of its declarations. -/
theorem mem_ofEntries_iff (entries : List (String × FieldType)) (key : String) :
    key ∈ ofEntries entries ↔ key ∈ entries.map Prod.fst := by
  have hlist : ofEntries entries = Std.ExtTreeMap.ofList entries compare :=
    Std.ExtTreeMap.ofList_eq_foldl.symm
  rw [hlist, Std.ExtTreeMap.mem_ofList, List.contains_iff_mem]

theorem isDotted_ofEntries {entries : List (String × FieldType)}
    (h : ∀ entry ∈ entries, startsWithDot entry.1) : (ofEntries entries).IsDotted := by
  intro key hkey
  rw [mem_ofEntries_iff] at hkey
  obtain ⟨entry, hentry, rfl⟩ := List.mem_map.1 hkey
  exact h entry hentry

theorem isDotted_standard : standard.IsDotted := by
  apply isDotted_ofEntries
  have hall : [(".idade", FieldType.number), (".nome", .string), (".email", .string),
      (".cliente.idade", .number), (".cliente.nome", .string), (".valor", .number)].all
      fun entry => startsWithDot entry.1 := by
    decide
  exact List.all_eq_true.1 hall

/-- A written table describes itself, if its keys are paths. -/
theorem ofDescriptor_of_object {table : FieldTable} {text : String} (s : Descriptor.Spacing)
    (htext : text.toList = s.object table.toList) :
    ofDescriptor text = .ok table ↔ table.IsDotted := by
  have hread := Descriptor.readMembers_object s table.toList
  rw [← htext] at hread
  rw [ofDescriptor_eq_ok_iff]
  constructor
  · rintro ⟨-, -, -, hdotted⟩
    exact hdotted
  · intro hdotted
    exact ⟨table.toList, hread, ofEntries_toList table, hdotted⟩

/-! ## Files -/

/-- **What a descriptor file must hold to be loaded.** -/
theorem load_eq_ok_iff {w : World} {path : String} {table : FieldTable} :
    ((load (some path) : StateM World (Except RunError FieldTable)).run w).1 = .ok table ↔
      ∃ text, w.files.text path = .ok text ∧ ofDescriptor text = .ok table := by
  rw [load, run_bind, run_readText]
  dsimp only
  cases hfile : w.files.text path with
  | error e =>
    constructor
    · intro h
      cases h
    · rintro ⟨text, htext, -⟩
      cases htext
  | ok text =>
    dsimp only
    cases htable : ofDescriptor text with
    | error e =>
      constructor
      · intro h
        cases h
      · rintro ⟨found, hfound, h⟩
        obtain rfl := Except.ok.inj hfound
        rw [htable] at h
        cases h
    | ok found =>
      show Except.ok found = Except.ok table ↔ _
      rw [Except.ok.injEq]
      constructor
      · rintro rfl
        exact ⟨text, rfl, htable⟩
      · rintro ⟨other, hother, h⟩
        obtain rfl := Except.ok.inj hother
        exact Except.ok.inj (htable.symm.trans h)

/-- A table that is loaded has paths for keys. -/
theorem isDotted_of_load {w : World} {schema : Option String} {table : FieldTable}
    (h : ((load schema : StateM World (Except RunError FieldTable)).run w).1 = .ok table) :
    table.IsDotted := by
  cases schema with
  | none =>
    obtain rfl : standard = table := Except.ok.inj h
    exact isDotted_standard
  | some path =>
    obtain ⟨text, -, htable⟩ := load_eq_ok_iff.1 h
    obtain ⟨-, -, -, hdotted⟩ := ofDescriptor_eq_ok_iff.1 htable
    exact hdotted

end FieldTable

/-- The text of a schema is that of the table that is loaded. -/
theorem run_schemaText (schema : Option String) (w : World) :
    ((schemaText schema : StateM World (Except RunError String)).run w).1 =
      ((FieldTable.load schema : StateM World (Except RunError FieldTable)).run w).1.map
        FieldTable.pretty := by
  rw [schemaText, run_bind]
  rfl

/-- **A described schema loads back as itself.**  Written on one line or on several, a table is read
back as itself if and only if all its keys start with a dot; what stands behind the dot does not matter.
So a file that holds the description of some schema, itself from a file or built in, is described by the
same text again. -/
theorem written_table_loads_back (table : FieldTable) :
    (FieldTable.ofDescriptor table.pretty = .ok table ↔ table.IsDotted) ∧
    (FieldTable.ofDescriptor table.compact = .ok table ↔ table.IsDotted) ∧
    ∀ (w w' : World) (schema : Option String) (path text : String),
      ((schemaText schema : StateM World (Except RunError String)).run w).1 = .ok text →
      w'.files.text path = .ok text →
      ((schemaText (some path) : StateM World (Except RunError String)).run w').1 = .ok text := by
  refine ⟨FieldTable.ofDescriptor_of_object _ table.toList_pretty,
    FieldTable.ofDescriptor_of_object _ table.toList_compact, ?_⟩
  intro w w' schema path text hdescribed hfile
  rw [run_schemaText] at hdescribed
  obtain ⟨loaded, hload, rfl⟩ := Descriptor.map_eq_ok hdescribed
  have hdotted := FieldTable.isDotted_of_load hload
  have hback := (FieldTable.ofDescriptor_of_object _ loaded.toList_pretty).2 hdotted
  rw [run_schemaText, FieldTable.load_eq_ok_iff.2 ⟨_, hfile, hback⟩]
  rfl

/-- Paths with quotes, backslashes, control characters and more. -/
def awkwardTable : FieldTable :=
  .ofEntries [(".\"\\/ \n", .number), (".\x01\x1f\x7fé\u2028😀", .string), (".", .number)]

/-- A descriptor file with some text. -/
def descriptorWorld (text : String) : World where
  files := (∅ : FileTree).put ["types.json"] (.file text.toUTF8)

theorem text_descriptorWorld (text : String) :
    (descriptorWorld text).files.text "types.json" = .ok text :=
  decodeText_toUTF8 text

theorem written_table_loads_back_awkward :
    awkwardTable.IsDotted ∧
    FieldTable.ofDescriptor awkwardTable.pretty = .ok awkwardTable ∧
    FieldTable.ofDescriptor awkwardTable.compact = .ok awkwardTable ∧
    (descriptorWorld FieldTable.standard.pretty).files.text "types.json" =
      .ok FieldTable.standard.pretty ∧
    ((schemaText (some "types.json") : StateM World (Except RunError String)).run
      (descriptorWorld FieldTable.standard.pretty)).1 = .ok FieldTable.standard.pretty := by
  have hdotted : awkwardTable.IsDotted := by
    apply FieldTable.isDotted_ofEntries
    have hall : [(".\"\\/ \n", FieldType.number), (".\x01\x1f\x7fé\u2028😀", .string),
        (".", .number)].all fun entry => startsWithDot entry.1 := by
      decide
    exact List.all_eq_true.1 hall
  have hfile := text_descriptorWorld FieldTable.standard.pretty
  obtain ⟨hpretty, hcompact, hagain⟩ := written_table_loads_back awkwardTable
  exact ⟨hdotted, hpretty.2 hdotted, hcompact.2 hdotted, hfile,
    hagain {} _ none "types.json" _ rfl hfile⟩

end QueryPipeline
