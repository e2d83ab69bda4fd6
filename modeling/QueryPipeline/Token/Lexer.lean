/-
# Lexing

A text is read one lexeme at a time.  `scan` reads the lexeme at the front of the
remaining characters, without regard to positions: it says what was read (a token
or a lexical error), which characters it took and which are left.  A `Cursor`
adds the position, skips blanks, and answers `Token.eof` at the end of the text,
as often as it is asked.

* `scan_eq` : a scan splits its input.
* `Cursor.lexemes` : everything up to the first end of text.  An error takes its
  characters like a token does, so reading always goes on behind it.
-/
import QueryPipeline.Text.Blank
import QueryPipeline.Text.Digit
import QueryPipeline.Token

namespace QueryPipeline

/-- What was read at the front of some characters. -/
structure Scan where
  /-- The token, or what is wrong. -/
  result : Except LexicalCause Token
  /-- The characters taken. -/
  taken : List Char
  /-- The characters left. -/
  rest : List Char

namespace Scan

/-- Reads a single character as a given result. -/
def single (result : Except LexicalCause Token) (c : Char) (cs : List Char) : Scan :=
  ⟨result, [c], cs⟩

/-- An operator that an equals sign may extend. -/
def operator (c : Char) (cs : List Char) (alone : Except LexicalCause Token) (extended : Comparison) :
    Scan :=
  match cs with
  | '=' :: rest => ⟨.ok (.operator extended), [c, '='], rest⟩
  | _ => single alone c cs

/-- A string literal, after its opening quote: it runs to the next quote on the same line. -/
def string (cs : List Char) : Scan :=
  let body := cs.takeWhile fun c => c != '"' && c != '\n'
  match cs.dropWhile fun c => c != '"' && c != '\n' with
  | '"' :: rest => ⟨.ok (.string (String.ofList ('"' :: body ++ ['"']))), '"' :: body ++ ['"'], rest⟩
  | rest => ⟨.error .unterminatedString, '"' :: body, rest⟩

/-- The characters of a path behind its first dot, those left, and whether every dot has its field
name.  `afterDot` says that the last character read is a dot. -/
def fields (afterDot : Bool) : List Char → List Char × List Char × Bool
  | [] => ([], [], !afterDot)
  | c :: cs =>
    if afterDot then
      if Text.isWordStart c then
        let (taken, rest, complete) := fields false cs
        (c :: taken, rest, complete)
      else ([], c :: cs, false)
    else if Text.isWordChar c || c == '.' then
      let (taken, rest, complete) := fields (c == '.') cs
      (c :: taken, rest, complete)
    else ([], c :: cs, true)

/-- A path, after its first dot. -/
def path (cs : List Char) : Scan :=
  let (taken, rest, complete) := fields true cs
  if complete then ⟨.ok (.path (String.ofList ('.' :: taken))), '.' :: taken, rest⟩
  else ⟨.error .missingFieldName, '.' :: taken, rest⟩

/-- The characters of a number at the front, without a sign, and those left: digits, and a point
only if a digit follows it. -/
def digits (cs : List Char) : List Char × List Char :=
  let whole := cs.takeWhile Char.isDigit
  match cs.dropWhile Char.isDigit with
  | '.' :: d :: rest =>
    if d.isDigit then
      (whole ++ '.' :: d :: rest.takeWhile Char.isDigit, rest.dropWhile Char.isDigit)
    else (whole, '.' :: d :: rest)
  | rest => (whole, rest)

/-- A number whose sign, if it has one, is given apart. -/
def number (sign : List Char) (cs : List Char) : Scan :=
  let (taken, rest) := digits cs
  ⟨.ok (.number (String.ofList (sign ++ taken))), sign ++ taken, rest⟩

/-- A keyword or an identifier. -/
def word (c : Char) (cs : List Char) : Scan :=
  let taken := c :: cs.takeWhile Text.isWordChar
  ⟨.ok (Token.ofWord (String.ofList taken)), taken, cs.dropWhile Text.isWordChar⟩

end Scan

/-- Reads one lexeme at the front of `c :: cs`, where `c` is not blank. -/
def scan (c : Char) (cs : List Char) : Scan :=
  match c with
  | ',' => .single (.ok .comma) c cs
  | '.' => .path cs
  | '"' => .string cs
  | '=' => .operator c cs (.error (.unexpectedChar c)) .eq
  | '!' => .operator c cs (.error (.unexpectedChar c)) .ne
  | '<' => .operator c cs (.ok (.operator .lt)) .le
  | '>' => .operator c cs (.ok (.operator .gt)) .ge
  | '-' =>
    if cs.head?.any Char.isDigit then .number [c] cs
    else .single (.error (.unexpectedChar c)) c cs
  | c =>
    if c.isDigit then .number [] (c :: cs)
    else if Text.isWordStart c then .word c cs
    else .single (.error (.unexpectedChar c)) c cs

/-! ## A scan splits its input -/

theorem Scan.fields_eq (afterDot : Bool) (cs : List Char) :
    (fields afterDot cs).1 ++ (fields afterDot cs).2.1 = cs := by
  induction cs generalizing afterDot with
  | nil => rfl
  | cons c cs ih =>
    simp only [fields]
    split <;> split <;> simp [ih]

theorem Scan.digits_eq (cs : List Char) : (digits cs).1 ++ (digits cs).2 = cs := by
  unfold digits
  have whole := List.takeWhile_append_dropWhile (p := Char.isDigit) (l := cs)
  split
  next d rest h =>
    rw [h] at whole
    split
    · simpa using whole
    · exact whole
  next => exact whole

theorem Scan.string_eq (cs : List Char) : (string cs).taken ++ (string cs).rest = '"' :: cs := by
  unfold string
  have body := List.takeWhile_append_dropWhile (p := fun c => c != '"' && c != '\n') (l := cs)
  dsimp only
  split
  next rest h => rw [h] at body; simp [body]
  next => simp

theorem Scan.operator_eq (c : Char) (cs : List Char) (alone : Except LexicalCause Token)
    (extended : Comparison) :
    (operator c cs alone extended).taken ++ (operator c cs alone extended).rest = c :: cs := by
  unfold operator
  split <;> simp [single]

theorem Scan.path_eq (cs : List Char) : (path cs).taken ++ (path cs).rest = '.' :: cs := by
  have h := fields_eq true cs
  unfold path
  dsimp only
  split <;> simp [h]

theorem Scan.number_eq (sign cs : List Char) :
    (number sign cs).taken ++ (number sign cs).rest = sign ++ cs := by
  have h := digits_eq cs
  simp [number, h]

theorem Scan.word_eq (c : Char) (cs : List Char) : (word c cs).taken ++ (word c cs).rest = c :: cs := by
  simp [word]

/-- The characters taken and the characters left are the characters given. -/
theorem scan_eq (c : Char) (cs : List Char) : (scan c cs).taken ++ (scan c cs).rest = c :: cs := by
  unfold scan
  split
  · rfl
  · exact Scan.path_eq cs
  · exact Scan.string_eq cs
  · exact Scan.operator_eq ..
  · exact Scan.operator_eq ..
  · exact Scan.operator_eq ..
  · exact Scan.operator_eq ..
  · split
    · exact Scan.number_eq ..
    · rfl
  · split
    · exact Scan.number_eq ..
    · split
      · exact Scan.word_eq ..
      · rfl

theorem Scan.operator_taken_ne_nil (c : Char) (cs : List Char) (alone : Except LexicalCause Token)
    (extended : Comparison) : (operator c cs alone extended).taken ≠ [] := by
  unfold operator
  split <;> simp [single]

theorem Scan.digits_ne_nil {c : Char} (h : c.isDigit) (cs : List Char) : (digits (c :: cs)).1 ≠ [] := by
  unfold digits
  split
  · split <;> simp [h]
  · simp [h]

/-- A scan takes at least one character. -/
theorem scan_taken_ne_nil (c : Char) (cs : List Char) : (scan c cs).taken ≠ [] := by
  unfold scan
  split
  · simp [Scan.single]
  · unfold Scan.path; dsimp only; split <;> simp
  · unfold Scan.string; dsimp only; split <;> simp
  · apply Scan.operator_taken_ne_nil
  · apply Scan.operator_taken_ne_nil
  · apply Scan.operator_taken_ne_nil
  · apply Scan.operator_taken_ne_nil
  · split <;> simp [Scan.number, Scan.single]
  · split
    next h => simpa [Scan.number] using Scan.digits_ne_nil h cs
    next => split <;> simp [Scan.word, Scan.single]

/-- A scan leaves fewer characters than it was given. -/
theorem scan_rest_length (c : Char) (cs : List Char) : (scan c cs).rest.length < cs.length + 1 := by
  have split := congrArg List.length (scan_eq c cs)
  have taken := List.length_pos_iff.2 (scan_taken_ne_nil c cs)
  simp only [List.length_append, List.length_cons] at split
  omega

/-! ## Cursors -/

/-- A token or a lexical error, and where it starts. -/
structure Lexeme where
  result : Except LexicalError Token
  start : Position

/-- The place of reading: the characters to come and the position of the first of them. -/
structure Cursor where
  rest : List Char
  position : Position

/-- The character that an error is about, when the lexeme starts at `start`: for a missing field name
the last character taken, otherwise the first. -/
def LexicalCause.locate (cause : LexicalCause) (start : Position) (taken : List Char) : Position :=
  match cause with
  | .missingFieldName => start.advance taken.dropLast
  | _ => start

/-- The lexeme that a scan found at `start`. -/
def Scan.lexeme (s : Scan) (start : Position) : Lexeme :=
  ⟨s.result.mapError fun cause => ⟨cause, cause.locate start s.taken⟩, start⟩

namespace Cursor

/-- The start of a text. -/
def ofString (source : String) : Cursor :=
  ⟨source.toList, Position.first⟩

/-- Skips blanks. -/
def skipBlanks (c : Cursor) : Cursor :=
  ⟨c.rest.dropWhile Text.isBlank, c.position.advance (c.rest.takeWhile Text.isBlank)⟩

/-- Reads the next lexeme.  At the end of the text it is the end token, each time. -/
def next (c : Cursor) : Lexeme × Cursor :=
  let start := c.skipBlanks.position
  match c.skipBlanks.rest with
  | [] => (⟨.ok .eof, start⟩, ⟨[], start⟩)
  | ch :: cs => ((scan ch cs).lexeme start, ⟨(scan ch cs).rest, start.advance (scan ch cs).taken⟩)

/-- The cursor after `n` lexemes. -/
def drop : Nat → Cursor → Cursor
  | 0, c => c
  | n + 1, c => drop n c.next.2

/-- The results of `n` readings. -/
def take : Nat → Cursor → List Lexeme
  | 0, _ => []
  | n + 1, c => c.next.1 :: take n c.next.2

theorem skipBlanks_rest_length (c : Cursor) : c.skipBlanks.rest.length ≤ c.rest.length :=
  (List.dropWhile_suffix _).length_le

/-- Before the end of the text, reading leaves fewer characters. -/
theorem next_rest_length {c : Cursor} (h : c.skipBlanks.rest ≠ []) :
    c.next.2.rest.length < c.rest.length := by
  have blanks := c.skipBlanks_rest_length
  unfold next
  split
  next e => exact absurd e h
  next ch cs e =>
    rw [e, List.length_cons] at blanks
    exact Nat.lt_of_lt_of_le (scan_rest_length ch cs) blanks

/-- All lexemes up to the first end of text, which is the last of them. -/
def lexemes (c : Cursor) : List Lexeme :=
  if h : c.skipBlanks.rest = [] then [c.next.1]
  else
    have := next_rest_length h
    c.next.1 :: lexemes c.next.2
termination_by c.rest.length

end Cursor

end QueryPipeline
