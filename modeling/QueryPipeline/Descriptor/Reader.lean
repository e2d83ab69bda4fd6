/-
# Reading descriptors

A descriptor is a JSON object whose members are paths with a type name each.  A
type is written `"number"` or, as an object of its own, `{"number": null}`.

* `readMembers` : the members of a descriptor, in the order of the text.
* `FieldTable.ofDescriptor` : the table of a descriptor.  All keys must be paths, and
  of a repeated key the last member counts.
-/
import QueryPipeline.Descriptor.Literal
import QueryPipeline.FieldTable

namespace QueryPipeline.Descriptor

/-- The blanks of JSON. -/
def isSpace (c : Char) : Bool :=
  c == ' ' || c == '\n' || c == '\t' || c == '\r'

/-- The characters behind the blanks at the front. -/
def skipSpace (cs : List Char) : List Char :=
  cs.dropWhile isSpace

/-- Reads the characters of a word one by one. -/
def readWord (word cs : List Char) : Except ReadError (List Char) :=
  match word, cs with
  | [], cs => .ok cs
  | _ :: _, [] => failHere .valueEnds []
  | w :: word, c :: cs =>
    if c = w then readWord word cs else failNext .identifierExpected (c :: cs)

/-- Reads a value that has no place where it stands, as far as the message needs. -/
def readMisplaced (cs : List Char) : Except ReadError (Misplaced × List Char) :=
  match cs with
  | 'n' :: rest => (readWord ['u', 'l', 'l'] rest).map fun rest => (.null, rest)
  | 't' :: rest => (readWord ['r', 'u', 'e'] rest).map fun rest => (.boolean true, rest)
  | 'f' :: rest => (readWord ['a', 'l', 's', 'e'] rest).map fun rest => (.boolean false, rest)
  | '-' :: rest => readNumber true rest
  | '"' :: rest => (readString rest).map fun (text, rest) => (.string text, rest)
  | '[' :: _ => .ok (.sequence, cs)
  | '\x7b' :: _ => .ok (.map, cs)
  | [] => failNext .valueExpected []
  | c :: _ => if c.isDigit then readNumber false cs else failNext .valueExpected cs

/-- The error of a value that stands where another kind is expected. -/
def misplacedError (expected : String) (cs : List Char) : ReadError :=
  match readMisplaced cs with
  | .error e => e
  | .ok (found, rest) => ⟨.misplaced found expected, byteSize rest⟩

/-- Reads the colon behind a key. -/
def readColon (cs : List Char) : Except ReadError (List Char) :=
  match skipSpace cs with
  | [] => failNext .objectEnds []
  | c :: rest => if c = ':' then .ok rest else failNext .colonExpected (c :: rest)

/-- Reads the name of a type, after its opening quote. -/
def readTypeName (cs : List Char) : Except ReadError (FieldType × List Char) := do
  let (name, rest) ← readString cs
  match FieldType.ofName? (String.ofList name) with
  | some type => .ok (type, rest)
  | none => failHere (.unknownType name) rest

/-- Reads the value null. -/
def readNull (cs : List Char) : Except ReadError (List Char) :=
  match skipSpace cs with
  | [] => failNext .valueEnds []
  | c :: rest =>
    if c = 'n' then readWord ['u', 'l', 'l'] rest else .error (misplacedError "unit" (c :: rest))

/-- Reads the closing brace of a type written as an object. -/
def readTypeEnd (cs : List Char) : Except ReadError (List Char) :=
  match skipSpace cs with
  | [] => failHere .objectEnds []
  | c :: rest => if c = '\x7d' then .ok rest else failHere .valueExpected (c :: rest)

/-- Reads a type written as an object, after its opening brace. -/
def readTypeObject (cs : List Char) : Except ReadError (FieldType × List Char) :=
  match skipSpace cs with
  | [] => failNext .objectEnds []
  | c :: rest =>
    if c = '"' then do
      let (type, rest) ← readTypeName rest
      let rest ← readColon rest
      let rest ← readNull rest
      let rest ← readTypeEnd rest
      .ok (type, rest)
    else if c = '\x7d' then failNext .valueExpected (c :: rest)
    else failNext .keyExpected (c :: rest)

/-- Reads a type. -/
def readType (cs : List Char) : Except ReadError (FieldType × List Char) :=
  match skipSpace cs with
  | [] => failNext .valueEnds []
  | c :: rest =>
    if c = '"' then readTypeName rest
    else if c = '\x7b' then readTypeObject rest
    else failNext .valueExpected (c :: rest)

/-- Reads a member, after the opening quote of its key. -/
def readMember (cs : List Char) : Except ReadError ((String × FieldType) × List Char) := do
  let (key, rest) ← readString cs
  let rest ← readColon rest
  let (type, rest) ← readType rest
  .ok ((String.ofList key, type), rest)

/-- What follows in an object. -/
inductive Next where
  /-- A member; its key has been opened. -/
  | member (rest : List Char)
  /-- The end of the object. -/
  | close (rest : List Char)

/-- Reads the opening quote of the key behind a comma. -/
def readKeyStart (cs : List Char) : Except ReadError Next :=
  match skipSpace cs with
  | [] => failNext .valueEnds []
  | c :: rest =>
    if c = '"' then .ok (.member rest)
    else if c = '\x7d' then failNext .trailingComma (c :: rest)
    else failNext .keyExpected (c :: rest)

/-- Reads up to the next key, or to the end of the object.  Before all members but the first there
is a comma. -/
def readNext (first : Bool) (cs : List Char) : Except ReadError Next :=
  match skipSpace cs with
  | [] => failNext .objectEnds []
  | c :: rest =>
    if c = '\x7d' then .ok (.close rest)
    else if first then
      if c = '"' then .ok (.member rest) else failNext .keyExpected (c :: rest)
    else if c = ',' then readKeyStart rest
    else failNext .commaOrBraceExpected (c :: rest)

/-! ## Reading leaves fewer characters -/

theorem bind_eq_ok {ε α β : Type} {x : Except ε α} {f : α → Except ε β} {b : β}
    (h : (x >>= f) = .ok b) : ∃ a, x = .ok a ∧ f a = .ok b := by
  cases x with
  | error e => exact absurd h (by simp [bind, Except.bind])
  | ok a => exact ⟨a, rfl, h⟩

theorem map_eq_ok {ε α β : Type} {x : Except ε α} {f : α → β} {b : β} (h : x.map f = .ok b) :
    ∃ a, x = .ok a ∧ f a = b := by
  cases x with
  | error e => exact absurd h (by simp [Except.map])
  | ok a => exact ⟨a, rfl, by simpa [Except.map] using h⟩

theorem skipSpace_length (cs : List Char) : (skipSpace cs).length ≤ cs.length :=
  (List.dropWhile_suffix _).length_le

theorem readString_length {cs text rest : List Char} (h : readString cs = .ok (text, rest)) :
    rest.length < cs.length := by
  fun_induction readString cs generalizing text rest with
  | case1 => exact absurd h (by simp [failHere])
  | case2 tail =>
    cases h
    simp
  | case3 tail e he => exact absurd h (by simp)
  | case4 tail c tail' he shorter ih =>
    obtain ⟨⟨text', rest'⟩, hr, e⟩ := map_eq_ok h
    cases e
    have := ih hr
    simp only [List.length_cons]
    omega
  | case5 c tail => exact absurd h (by simp [failNext])
  | case6 c tail _ _ _ ih =>
    obtain ⟨⟨text', rest'⟩, hr, e⟩ := map_eq_ok h
    cases e
    have := ih hr
    simp only [List.length_cons]
    omega

theorem readWord_length {word cs rest : List Char} (h : readWord word cs = .ok rest) :
    rest.length ≤ cs.length := by
  fun_induction readWord word cs with
  | case1 cs => cases h; simp
  | case2 => exact absurd h (by simp [failHere])
  | case3 w word cs ih =>
    have := ih h
    simp only [List.length_cons]
    omega
  | case4 => exact absurd h (by simp [failNext])

theorem readColon_length {cs rest : List Char} (h : readColon cs = .ok rest) :
    rest.length < cs.length := by
  have space := skipSpace_length cs
  unfold readColon at h
  split at h
  · exact absurd h (by simp [failNext])
  next c tail e =>
    rw [e, List.length_cons] at space
    split at h
    · cases h
      omega
    · exact absurd h (by simp [failNext])

theorem readTypeName_length {cs rest : List Char} {type : FieldType}
    (h : readTypeName cs = .ok (type, rest)) : rest.length < cs.length := by
  obtain ⟨⟨name, tail⟩, hs, h⟩ := bind_eq_ok h
  have := readString_length hs
  dsimp only at h
  split at h
  · cases h
    exact this
  · exact absurd h (by simp [failHere])

theorem readNull_length {cs rest : List Char} (h : readNull cs = .ok rest) :
    rest.length < cs.length := by
  have space := skipSpace_length cs
  unfold readNull at h
  split at h
  · exact absurd h (by simp [failNext])
  next c tail e =>
    rw [e, List.length_cons] at space
    split at h
    · have := readWord_length h
      omega
    · exact absurd h (by simp)

theorem readTypeEnd_length {cs rest : List Char} (h : readTypeEnd cs = .ok rest) :
    rest.length < cs.length := by
  have space := skipSpace_length cs
  unfold readTypeEnd at h
  split at h
  · exact absurd h (by simp [failHere])
  next c tail e =>
    rw [e, List.length_cons] at space
    split at h
    · cases h
      omega
    · exact absurd h (by simp [failHere])

theorem readTypeObject_length {cs rest : List Char} {type : FieldType}
    (h : readTypeObject cs = .ok (type, rest)) : rest.length < cs.length := by
  have space := skipSpace_length cs
  unfold readTypeObject at h
  split at h
  · exact absurd h (by simp [failNext])
  next c tail e =>
    rw [e, List.length_cons] at space
    split at h
    · obtain ⟨⟨type', rest₁⟩, h₁, h⟩ := bind_eq_ok h
      obtain ⟨rest₂, h₂, h⟩ := bind_eq_ok h
      obtain ⟨rest₃, h₃, h⟩ := bind_eq_ok h
      obtain ⟨rest₄, h₄, h⟩ := bind_eq_ok h
      cases h
      have := readTypeName_length h₁
      have := readColon_length h₂
      have := readNull_length h₃
      have := readTypeEnd_length h₄
      omega
    · split at h <;> exact absurd h (by simp [failNext])

theorem readType_length {cs rest : List Char} {type : FieldType}
    (h : readType cs = .ok (type, rest)) : rest.length < cs.length := by
  have space := skipSpace_length cs
  unfold readType at h
  split at h
  · exact absurd h (by simp [failNext])
  next c tail e =>
    rw [e, List.length_cons] at space
    split at h
    · have := readTypeName_length h
      omega
    · split at h
      · have := readTypeObject_length h
        omega
      · exact absurd h (by simp [failNext])

theorem readMember_length {cs rest : List Char} {member : String × FieldType}
    (h : readMember cs = .ok (member, rest)) : rest.length < cs.length := by
  obtain ⟨⟨key, rest₁⟩, h₁, h⟩ := bind_eq_ok h
  obtain ⟨rest₂, h₂, h⟩ := bind_eq_ok h
  obtain ⟨⟨type, rest₃⟩, h₃, h⟩ := bind_eq_ok h
  cases h
  have := readString_length h₁
  have := readColon_length h₂
  have := readType_length h₃
  omega

theorem readKeyStart_length {cs rest : List Char} (h : readKeyStart cs = .ok (.member rest)) :
    rest.length < cs.length := by
  have space := skipSpace_length cs
  unfold readKeyStart at h
  split at h
  · exact absurd h (by simp [failNext])
  next c tail e =>
    rw [e, List.length_cons] at space
    split at h
    · cases h
      omega
    · split at h <;> exact absurd h (by simp [failNext])

theorem readNext_length {first : Bool} {cs rest : List Char}
    (h : readNext first cs = .ok (.member rest)) : rest.length < cs.length := by
  have space := skipSpace_length cs
  unfold readNext at h
  split at h
  · exact absurd h (by simp [failNext])
  next c tail e =>
    rw [e, List.length_cons] at space
    split at h
    · exact absurd h (by simp)
    · split at h
      · split at h
        · cases h
          omega
        · exact absurd h (by simp [failNext])
      · split at h
        · have := readKeyStart_length h
          omega
        · exact absurd h (by simp [failNext])

/-! ## Descriptors -/

/-- Reads the members of an object, after its opening brace, and its closing brace. -/
def readObject (first : Bool) (cs : List Char) :
    Except ReadError (List (String × FieldType) × List Char) :=
  match h : readNext first cs with
  | .error e => .error e
  | .ok (.close rest) => .ok ([], rest)
  | .ok (.member rest) =>
    match h' : readMember rest with
    | .error e => .error e
    | .ok (member, tail) =>
      have := readNext_length h
      have := readMember_length h'
      (readObject false tail).map fun (members, rest) => (member :: members, rest)
termination_by cs.length

/-- Nothing but blanks is left. -/
def readEnd (cs : List Char) : Except ReadError Unit :=
  match skipSpace cs with
  | [] => .ok ()
  | rest => failNext .trailingCharacters rest

/-- The members of a descriptor, in the order of the text. -/
def readMembers (cs : List Char) : Except ReadError (List (String × FieldType)) :=
  match skipSpace cs with
  | [] => failNext .valueEnds []
  | c :: rest =>
    if c = '\x7b' then do
      let (members, rest) ← readObject true rest
      readEnd rest
      .ok members
    else .error (misplacedError "a map" (c :: rest))

end Descriptor

/-- A key that can be a field path: it starts with a dot. -/
def startsWithDot (s : String) : Bool :=
  s.toList.head? == some '.'

/-- The table that a text describes.  A key that is no path is reported only if the whole text can be
read; of several, the first in order is. -/
def FieldTable.ofDescriptor (text : String) : Except SchemaError FieldTable :=
  match Descriptor.readMembers text.toList with
  | .error e => .error (.unreadable e.cause (e.position text.toList))
  | .ok members =>
    let table := FieldTable.ofEntries members
    match table.keys.find? fun key => !startsWithDot key with
    | some key => .error (.invalidPath key)
    | none => .ok table

end QueryPipeline
