/-
# Lexemes partition their text

A text is read call by call.  Each call skips the blanks in front of it and takes the
characters of one lexeme, and the next call starts where it stopped: nothing is lost
and nothing is read twice.  Offsets and positions are told from the text alone.

* `Position.atOffset` : the line and the column of an offset;
* `LexicalCause.Takes` : the characters that a lexical error takes;
* `scan_takes` : a scan without a token takes what its error says;
* `Reads` : all that is true of one call; `Cursor.Stands.reads_next` : it is true of the
  next call of a cursor that stands somewhere in a text;
* `calls_partition_source` : it is true of every call on a text, and after the end of the text
  nothing changes any more.
-/
import QueryPipeline.Proofs.Lexing

namespace QueryPipeline

/-! ## Offsets and positions -/

namespace Position

/-- The position of an offset in a text: its line counts the line feeds before it, its column the
characters since the last of them. -/
def atOffset (text : List Char) (n : Nat) : Position where
  line := 1 + (text.take n).count '\n'
  column := ((text.take n).reverse.takeWhile (· != '\n')).length

theorem advance_concat (p : Position) (cs : List Char) (c : Char) :
    p.advance (cs ++ [c]) = (p.advance cs).step c := by
  rw [advance_append]
  rfl

/-- The column counts the characters since the last line feed. -/
theorem column_advance_first (cs : List Char) :
    (first.advance cs).column = (cs.reverse.takeWhile (· != '\n')).length := by
  -- The column is decided at the end of the text, so that is where the induction adds characters.
  obtain ⟨ds, rfl⟩ : ∃ ds, cs = ds.reverse := ⟨cs.reverse, by simp⟩
  induction ds with
  | nil => rfl
  | cons d ds ih =>
    rw [List.reverse_reverse] at ih ⊢
    rw [List.reverse_cons, advance_concat, List.takeWhile_cons]
    by_cases hd : d = '\n'
    · simp [step, hd]
    · simp [step, hd, ih]

/-- The position behind the first characters of a text. -/
theorem atOffset_length (pre rest : List Char) :
    atOffset (pre ++ rest) pre.length = first.advance pre := by
  have hline := line_advance first pre
  have hcolumn := column_advance_first pre
  rw [atOffset, List.take_left, ← hcolumn]
  show Position.mk (first.line + pre.count '\n') _ = _
  rw [← hline]

end Position

/-! ## What a lexical error takes -/

/-- Some names, each behind a dot. -/
def dotted (names : List (List Char)) : List Char :=
  names.flatMap fun name => '.' :: name

/-- The characters that an error takes, with `rest` behind them: a single character; an opening quote
and the rest of its line, without another quote; a path and a dot that no name follows. -/
def LexicalCause.Takes (cause : LexicalCause) (taken rest : List Char) : Prop :=
  match cause with
  | unexpectedChar c => taken = [c]
  | unterminatedString =>
    ∃ body, taken = '"' :: body ∧ Text.isPlain body ∧ ∀ c ∈ rest.head?, c = '\n'
  | missingFieldName =>
    ∃ names, taken = dotted names ++ ['.'] ∧ (∀ name ∈ names, Text.isWord name) ∧
      ∀ c ∈ rest.head?, Text.isWordStart c = false

namespace Scan

/-- The scan took what its error says, if it read no token. -/
def IsExplained (s : Scan) : Prop :=
  ∀ cause, s.result = .error cause → cause.Takes s.taken s.rest

theorem isExplained_ok (t : Token) (taken rest : List Char) : IsExplained ⟨.ok t, taken, rest⟩ := by
  intro cause hcause
  cases hcause

theorem isExplained_unexpectedChar (c : Char) (cs : List Char) :
    (single (.error (.unexpectedChar c)) c cs).IsExplained := by
  rintro cause ⟨⟩
  rfl

theorem isExplained_operator {c : Char} {cs : List Char} {alone : Except LexicalCause Token}
    {extended : Comparison} (halone : (single alone c cs).IsExplained) :
    (operator c cs alone extended).IsExplained := by
  unfold operator
  split
  · exact isExplained_ok _ _ _
  · exact halone

/-- A string literal without its second quote takes the rest of its line. -/
theorem isExplained_string (cs : List Char) : (string cs).IsExplained := by
  unfold string
  dsimp only
  split
  · exact isExplained_ok _ _ _
  next hquote =>
    rintro cause ⟨⟩
    refine ⟨_, rfl, List.all_takeWhile, ?_⟩
    intro c hc
    -- What stopped the literal is a quote or a line feed, and a quote would have closed it.
    have hstop := List.head?_dropWhile_not (fun c => c != '"' && c != '\n') cs
    obtain ⟨rest, hrest⟩ := List.head?_eq_some_iff.1 hc
    rw [hc] at hstop
    have hne : c ≠ '"' := by
      rintro rfl
      exact hquote rest hrest
    simpa [hne] using hstop

theorem dotted_cons (name : List Char) (names : List (List Char)) :
    dotted (name :: names) = '.' :: name ++ dotted names := rfl

/-- A dot without a name ends a chain of names.  `name` is what has been read of the present one. -/
theorem exists_names_fields {afterDot : Bool} {cs : List Char}
    (h : (fields afterDot cs).2.2 = false) (name : List Char)
    (hname : if afterDot then name = [] else Text.isWord name) :
    (∃ names, '.' :: (name ++ (fields afterDot cs).1) = dotted names ++ ['.'] ∧
        ∀ name ∈ names, Text.isWord name) ∧
      ∀ c ∈ (fields afterDot cs).2.1.head?, Text.isWordStart c = false := by
  induction cs generalizing afterDot name with
  | nil =>
    obtain rfl : afterDot = true := by simpa [fields] using h
    obtain rfl : name = [] := hname
    exact ⟨⟨[], rfl, by simp⟩, by simp [fields]⟩
  | cons c cs ih =>
    cases afterDot with
    | true =>
      obtain rfl : name = [] := hname
      by_cases hc : Text.isWordStart c
      · simp only [fields, if_pos hc, if_true] at h ⊢
        exact ih h [c] (by simp [Text.isWord, hc])
      · simp only [fields, if_neg hc, if_true]
        exact ⟨⟨[], rfl, by simp⟩, by simpa using hc⟩
    | false =>
      by_cases hdot : c = '.'
      · -- The present name is complete, and another has to start.
        subst hdot
        simp only [fields, beq_self_eq_true, Bool.or_true, if_true, Bool.false_eq_true,
          if_false] at h ⊢
        obtain ⟨⟨names, heq, hnames⟩, hhead⟩ := ih h [] rfl
        refine ⟨⟨name :: names, ?_, ?_⟩, hhead⟩
        · rw [dotted_cons, List.append_assoc, ← heq]
          rfl
        · exact List.forall_mem_cons.2 ⟨hname, hnames⟩
      · by_cases hc : Text.isWordChar c
        · have hbeq : (c == '.') = false := by simpa using hdot
          simp only [fields, hc, hbeq, Bool.true_or, if_true, Bool.false_eq_true, if_false] at h ⊢
          have hword : Text.isWord (name ++ [c]) := by
            cases name with
            | nil => cases hname
            | cons d ds => simpa [Text.isWord, hc] using hname
          simpa using ih h (name ++ [c]) hword
        · simp [fields, hc, hdot] at h

/-- A path that breaks off takes its names and the dot behind them. -/
theorem isExplained_path (cs : List Char) : (path cs).IsExplained := by
  unfold path
  dsimp only
  split
  · exact isExplained_ok _ _ _
  next hcomplete =>
    rintro cause ⟨⟩
    obtain ⟨⟨names, heq, hnames⟩, hhead⟩ :=
      exists_names_fields (Bool.eq_false_iff.2 hcomplete) [] rfl
    exact ⟨names, heq, hnames, hhead⟩

end Scan

/-- **A lexical error takes what it is about.** -/
theorem scan_takes (c : Char) (cs : List Char) : (scan c cs).IsExplained := by
  unfold scan
  split
  · exact Scan.isExplained_ok _ _ _
  · exact Scan.isExplained_path cs
  · exact Scan.isExplained_string cs
  · exact Scan.isExplained_operator (Scan.isExplained_unexpectedChar _ cs)
  · exact Scan.isExplained_operator (Scan.isExplained_unexpectedChar _ cs)
  · exact Scan.isExplained_operator (Scan.isExplained_ok _ _ _)
  · exact Scan.isExplained_operator (Scan.isExplained_ok _ _ _)
  · split
    · exact Scan.isExplained_ok _ _ _
    · exact Scan.isExplained_unexpectedChar _ cs
  · split
    · exact Scan.isExplained_ok _ _ _
    split
    · exact Scan.isExplained_ok _ _ _
    · exact Scan.isExplained_unexpectedChar _ cs

/-! ## One call -/

/-- The offset that an error is about, when its characters stand from `q` to `r`: for a missing field
name the last of them, otherwise the first. -/
def LexicalCause.offset (cause : LexicalCause) (q r : Nat) : Nat :=
  match cause with
  | missingFieldName => r - 1
  | _ => q

/-- What a call on a text does that starts at offset `p`: it skips blanks to `q`, as many as there
are, and takes the characters from `q` to `r` for the lexeme. -/
structure Reads (text : List Char) (p q r : Nat) (l : Lexeme) : Prop where
  start_le : p ≤ q
  skip_le : q ≤ r
  stop_le : r ≤ text.length
  blank : ∀ c ∈ text.extract p q, Text.isBlank c
  maximal : ∀ c ∈ text[q]?, Text.isBlank c = false
  start : l.start = Position.atOffset text q
  eof_iff : l.result = .ok .eof ↔ q = text.length
  progress : q ≠ text.length → q < r
  token : ∀ t, l.result = .ok t → text.extract q r = t.spelling.toList
  wellFormed : ∀ t, l.result = .ok t → t ≠ .eof → t.WellFormed
  error : ∀ e, l.result = .error e → e.cause.Takes (text.extract q r) (text.drop r) ∧
    e.position = Position.atOffset text (e.cause.offset q r)

/-- The cursor stands behind the characters `pre` of a text. -/
structure Cursor.Stands (text pre : List Char) (c : Cursor) : Prop where
  split : text = pre ++ c.rest
  position : c.position = Position.first.advance pre

/-- The characters of a text between two offsets. -/
theorem extract_append (as bs cs : List Char) :
    (as ++ bs ++ cs).extract as.length (as ++ bs).length = bs := by
  rw [List.extract_eq_take_drop, List.append_assoc, List.drop_left, List.length_append,
    Nat.add_sub_cancel_left, List.take_left]

/-- The character at an offset is the first of those behind it. -/
theorem getElem?_length_append (as bs : List Char) : (as ++ bs)[as.length]? = bs.head? := by
  rw [← List.head?_drop, List.drop_left]

/-- At the end of a text the call reads the end token. -/
theorem reads_blank (pre : List Char) {gap : List Char} (hgap : ∀ c ∈ gap, Text.isBlank c) :
    Reads (pre ++ gap) pre.length (pre ++ gap).length (pre ++ gap).length
      ⟨.ok .eof, Position.first.advance (pre ++ gap)⟩ := by
  have hextract := extract_append pre gap []
  have hnone := getElem?_length_append (pre ++ gap) []
  have hposition := Position.atOffset_length (pre ++ gap) []
  rw [List.append_nil] at hextract hnone hposition
  refine ⟨by simp, Nat.le_refl _, Nat.le_refl _, ?_, ?_, hposition.symm, by simp, ?_, ?_, ?_, ?_⟩
  · rw [hextract]
    exact hgap
  · rw [hnone]
    simp
  · intro hne
    exact absurd rfl hne
  · rintro t ⟨⟩
    simp [Token.spelling]
  · rintro t ⟨⟩ hne
    exact absurd rfl hne
  · rintro e ⟨⟩

/-- The place of an error, told from the text: `taken` stands behind `before` in it. -/
theorem locate_eq_atOffset (cause : LexicalCause) (before : List Char) {taken : List Char}
    (htaken : taken ≠ []) (rest : List Char) :
    cause.locate (Position.first.advance before) taken =
      Position.atOffset (before ++ taken ++ rest)
        (cause.offset before.length (before ++ taken).length) := by
  cases cause with
  | missingFieldName =>
    -- The last character taken is the dot, so the error stands behind all the others.
    obtain ⟨front, last, rfl⟩ := (List.eq_nil_or_concat taken).resolve_left htaken
    have hoffset : (before ++ front.concat last).length - 1 = (before ++ front).length := by
      simp only [List.concat_eq_append, List.length_append, List.length_singleton]
      omega
    have htext : before ++ front.concat last ++ rest = before ++ front ++ (last :: rest) := by
      simp
    rw [LexicalCause.locate, LexicalCause.offset, hoffset, htext, Position.atOffset_length,
      List.concat_eq_append, List.dropLast_concat, Position.advance_append]
  | unexpectedChar c =>
    show Position.first.advance before = Position.atOffset _ before.length
    rw [List.append_assoc, Position.atOffset_length]
  | unterminatedString =>
    show Position.first.advance before = Position.atOffset _ before.length
    rw [List.append_assoc, Position.atOffset_length]

/-- Before the end of a text the call reads what is scanned behind the blanks. -/
theorem reads_scan (pre : List Char) {gap : List Char} (hgap : ∀ c ∈ gap, Text.isBlank c) {c : Char}
    (hc : Text.isBlank c = false) (cs : List Char) :
    Reads (pre ++ gap ++ c :: cs) pre.length (pre ++ gap).length
      (pre ++ gap ++ (scan c cs).taken).length
      ((scan c cs).lexeme (Position.first.advance (pre ++ gap))) := by
  have htaken := scan_taken_ne_nil c cs
  have htext : pre ++ gap ++ c :: cs = pre ++ gap ++ (scan c cs).taken ++ (scan c cs).rest := by
    rw [List.append_assoc _ (scan c cs).taken, scan_eq]
  have hlt : (pre ++ gap).length < (pre ++ gap ++ (scan c cs).taken).length := by
    have := List.length_pos_iff.2 htaken
    simp only [List.length_append]
    omega
  have hend : (pre ++ gap).length ≠ (pre ++ gap ++ c :: cs).length := by
    simp only [List.length_append, List.length_cons]
    omega
  have hextract : (pre ++ gap ++ c :: cs).extract (pre ++ gap).length
      (pre ++ gap ++ (scan c cs).taken).length = (scan c cs).taken := by
    rw [htext, extract_append]
  refine ⟨by simp, Nat.le_of_lt hlt, ?_, ?_, ?_, ?_, ⟨?_, ?_⟩, fun _ => hlt, ?_, ?_, ?_⟩
  · rw [htext]
    exact (List.prefix_append _ _).length_le
  · rw [extract_append]
    exact hgap
  · rw [getElem?_length_append]
    simpa using hc
  · rw [Position.atOffset_length]
    rfl
  · intro heof
    exact (scan_wellFormed c cs .eof (Scan.result_of_lexeme heof)).1.elim
  · intro heq
    exact absurd heq hend
  · intro t ht
    rw [hextract, (scan_wellFormed c cs t (Scan.result_of_lexeme ht)).2]
  · intro t ht _
    exact (scan_wellFormed c cs t (Scan.result_of_lexeme ht)).1
  · intro e he
    obtain ⟨cause, hcause, rfl⟩ := Scan.error_of_lexeme he
    rw [hextract]
    constructor
    · rw [htext, List.drop_left]
      exact scan_takes c cs cause hcause
    · rw [htext]
      exact locate_eq_atOffset cause (pre ++ gap) htaken (scan c cs).rest

namespace Cursor

/-- **What the next call does.**  It reads from where the cursor stands, and the cursor then stands
behind what was read. -/
theorem Stands.reads_next {text pre : List Char} {c : Cursor} (h : c.Stands text pre) :
    ∃ gap taken, c.next.2.Stands text (pre ++ gap ++ taken) ∧
      Reads text pre.length (pre ++ gap).length (pre ++ gap ++ taken).length c.next.1 := by
  obtain ⟨rest, p⟩ := c
  obtain ⟨rfl, rfl⟩ := h
  rcases Text.blank_or_head rest with hblank | ⟨gap, d, cs, rfl, hgap, hd⟩
  · refine ⟨rest, [], ?_, ?_⟩
    · rw [(next_blank hblank _).2, ← Position.advance_append]
      exact ⟨by simp, by simp⟩
    · rw [(next_blank hblank _).2, ← Position.advance_append, List.append_nil]
      exact reads_blank pre hblank
  · refine ⟨gap, (scan d cs).taken, ?_, ?_⟩
    · rw [(next_scan hgap hd cs _).2, ← Position.advance_append, ← Position.advance_append]
      exact ⟨by simp [scan_eq], rfl⟩
    · rw [(next_scan hgap hd cs _).2, ← Position.advance_append, ← List.append_assoc]
      exact reads_scan pre hgap hd cs

theorem drop_succ (n : Nat) (c : Cursor) : c.drop (n + 1) = (c.drop n).next.2 := by
  induction n generalizing c with
  | zero => rfl
  | succ n ih => exact ih c.next.2

/-- After any number of calls the cursor stands somewhere in the text. -/
theorem exists_stands_drop (source : String) (n : Nat) :
    ∃ pre, ((ofString source).drop n).Stands source.toList pre := by
  induction n with
  | zero => exact ⟨[], rfl, rfl⟩
  | succ n ih =>
    obtain ⟨pre, hpre⟩ := ih
    obtain ⟨gap, taken, hnext, -⟩ := hpre.reads_next
    rw [drop_succ]
    exact ⟨_, hnext⟩

/-- Where no character is left, a call changes nothing. -/
theorem next_of_rest_nil {c : Cursor} (h : c.rest = []) : c.next = (⟨.ok .eof, c.position⟩, c) := by
  obtain ⟨rest, p⟩ := c
  obtain rfl : rest = [] := h
  exact (next_blank (by simp) p).2

/-- Once no character is left, the cursor stays as it is. -/
theorem drop_add_of_rest_nil {c : Cursor} {n : Nat} (h : (c.drop n).rest = []) (k : Nat) :
    c.drop (n + k) = c.drop n := by
  induction k with
  | zero => rfl
  | succ k ih => rw [← Nat.add_assoc, drop_succ, ih, next_of_rest_nil h]

end Cursor

/-- The number of characters that the first calls on a text have passed. -/
def offsetAfter (source : String) (calls : Nat) : Nat :=
  source.toList.length - ((Cursor.ofString source).drop calls).rest.length

theorem offsetAfter_eq_of_stands {source : String} {n : Nat} {pre : List Char}
    (h : ((Cursor.ofString source).drop n).Stands source.toList pre) :
    offsetAfter source n = pre.length := by
  have hlength := congrArg List.length h.split
  rw [List.length_append] at hlength
  rw [offsetAfter, hlength]
  omega

/-- **Lexing partitions the text.**  Each call starts where the one before it stopped, the first at
the beginning of the text, and the cursor's position is that of the offset where it stands.  A call
that finds the end of the text is repeated by all later ones, which leave the cursor as it is. -/
theorem calls_partition_source (source : String) (i : Nat) :
    offsetAfter source 0 = 0 ∧
      ((Cursor.ofString source).drop i).rest = source.toList.drop (offsetAfter source i) ∧
      ((Cursor.ofString source).drop i).position =
        Position.atOffset source.toList (offsetAfter source i) ∧
      ∃ q, Reads source.toList (offsetAfter source i) q (offsetAfter source (i + 1))
          ((Cursor.ofString source).drop i).next.1 ∧
        (q = source.toList.length → ∀ j, i < j → ((Cursor.ofString source).drop j).next =
          (((Cursor.ofString source).drop i).next.1, (Cursor.ofString source).drop j)) := by
  obtain ⟨pre, hpre⟩ := Cursor.exists_stands_drop source i
  obtain ⟨gap, taken, hnext, hreads⟩ := hpre.reads_next
  rw [← Cursor.drop_succ] at hnext
  have hrest : (pre ++ ((Cursor.ofString source).drop i).rest).drop pre.length =
      ((Cursor.ofString source).drop i).rest := List.drop_left
  have hposition := Position.atOffset_length pre ((Cursor.ofString source).drop i).rest
  rw [← hpre.split] at hrest hposition
  rw [offsetAfter_eq_of_stands hpre, offsetAfter_eq_of_stands hnext]
  refine ⟨Nat.sub_self _, hrest.symm, hpre.position.trans hposition.symm, _, hreads, ?_⟩
  intro hend j hj
  -- The call took no character, and left none: the cursor stands at the end from then on.
  have hlength := congrArg List.length hnext.split
  have hskip := hreads.skip_le
  rw [List.length_append] at hlength
  have hnil : ((Cursor.ofString source).drop (i + 1)).rest = [] :=
    List.length_eq_zero_iff.1 (by omega)
  obtain rfl : taken = [] := by
    rw [List.length_append] at hskip hlength
    exact List.length_eq_zero_iff.1 (by omega)
  have hlexeme : ((Cursor.ofString source).drop i).next.1 =
      ⟨.ok .eof, ((Cursor.ofString source).drop (i + 1)).position⟩ := by
    have hstart := Position.atOffset_length (pre ++ gap)
      ([] ++ ((Cursor.ofString source).drop (i + 1)).rest)
    rw [← List.append_assoc, ← hnext.split, ← hreads.start] at hstart
    rw [hnext.position, List.append_nil, ← hstart, ← hreads.eof_iff.2 hend]
  obtain ⟨k, rfl⟩ := Nat.exists_eq_add_of_le (Nat.succ_le_of_lt hj)
  rw [Cursor.drop_add_of_rest_nil hnil, Cursor.next_of_rest_nil hnil, hlexeme]

end QueryPipeline
