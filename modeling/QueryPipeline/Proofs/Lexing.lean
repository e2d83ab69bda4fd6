/-
# Lexing a text

What a cursor reads, lexeme after lexeme.

* `Cursor.terminated_lexemes` : the end token comes last, and once;
* `Cursor.wellFormed_lexemes` : every other token that is read is well-formed;
* `Layout.lexemes_layout` : tokens that are laid out with blanks between them are read back;
* `Layout.hasError_of_isStray` : a token that has no quotes, and a character outside
  ASCII, is read with an error.

A layout is a list of tokens, each with the gap in front of it.
-/
import QueryPipeline.Proofs.Spelling

namespace QueryPipeline

/-! ## Reading from a cursor -/

/-- What a lexeme is, apart from its place: a token, or what is wrong. -/
def Lexeme.content (l : Lexeme) : Token ⊕ LexicalCause :=
  match l.result with
  | .ok t => .inl t
  | .error e => .inr e.cause

theorem Position.advance_append (p : Position) (cs ds : List Char) :
    p.advance (cs ++ ds) = (p.advance cs).advance ds :=
  List.foldl_append

/-- Each line feed starts a new line. -/
theorem Position.line_advance (p : Position) (cs : List Char) :
    (p.advance cs).line = p.line + cs.count '\n' := by
  induction cs generalizing p with
  | nil => rfl
  | cons c cs ih =>
    rw [advance, List.foldl_cons, ← advance, ih, List.count_cons]
    by_cases hc : c = '\n'
    · simp only [step, hc, if_true, beq_self_eq_true]
      omega
    · simp [step, hc]

/-- Where a blank run ends, the rest is empty or starts with a character that is no blank. -/
theorem Text.blank_or_head (cs : List Char) :
    (∀ c ∈ cs, isBlank c) ∨
      ∃ gap c rest, cs = gap ++ c :: rest ∧ (∀ c ∈ gap, isBlank c) ∧ isBlank c = false := by
  cases hdrop : cs.dropWhile isBlank with
  | nil =>
    refine Or.inl (List.all_eq_true.1 ?_)
    have hall := List.takeWhile_append_dropWhile (p := isBlank) (l := cs)
    rw [hdrop, List.append_nil] at hall
    rw [← hall]
    exact List.all_takeWhile
  | cons c rest =>
    refine Or.inr ⟨cs.takeWhile isBlank, c, rest, ?_, List.all_eq_true.1 List.all_takeWhile, ?_⟩
    · rw [← hdrop, List.takeWhile_append_dropWhile]
    · have hhead := List.head?_dropWhile_not isBlank cs
      rw [hdrop] at hhead
      simpa using hhead

namespace Cursor

/-- Nothing but blanks is left: the call reads the end token and stands at the end. -/
theorem next_blank {cs : List Char} (h : ∀ c ∈ cs, Text.isBlank c) (p : Position) :
    (Cursor.mk cs p).skipBlanks = ⟨[], p.advance cs⟩ ∧
      (Cursor.mk cs p).next = (⟨.ok .eof, p.advance cs⟩, ⟨[], p.advance cs⟩) := by
  obtain ⟨htake, hdrop⟩ := Text.span_boundary h [] (by simp)
  rw [List.append_nil] at htake hdrop
  have hskip : (Cursor.mk cs p).skipBlanks = ⟨[], p.advance cs⟩ := by
    rw [skipBlanks, htake, hdrop]
  exact ⟨hskip, by rw [next, hskip]⟩

/-- Behind blanks, the call scans a lexeme and stands behind it. -/
theorem next_scan {gap : List Char} (hgap : ∀ c ∈ gap, Text.isBlank c) {c : Char}
    (hc : Text.isBlank c = false) (cs : List Char) (p : Position) :
    (Cursor.mk (gap ++ c :: cs) p).skipBlanks = ⟨c :: cs, p.advance gap⟩ ∧
      (Cursor.mk (gap ++ c :: cs) p).next = ((scan c cs).lexeme (p.advance gap),
        ⟨(scan c cs).rest, (p.advance gap).advance (scan c cs).taken⟩) := by
  obtain ⟨htake, hdrop⟩ := Text.span_boundary hgap (c :: cs) (by simpa using hc)
  have hskip : (Cursor.mk (gap ++ c :: cs) p).skipBlanks = ⟨c :: cs, p.advance gap⟩ := by
    rw [skipBlanks, htake, hdrop]
  exact ⟨hskip, by rw [next, hskip]⟩

/-- Nothing but blanks is left: only the end token is read. -/
theorem lexemes_blank {cs : List Char} (h : ∀ c ∈ cs, Text.isBlank c) (p : Position) :
    (Cursor.mk cs p).lexemes = [⟨.ok .eof, p.advance cs⟩] := by
  obtain ⟨hskip, hnext⟩ := next_blank h p
  rw [lexemes, dif_pos (by rw [hskip]), hnext]

theorem lexemes_nil (p : Position) : (Cursor.mk [] p).lexemes = [⟨.ok .eof, p⟩] :=
  lexemes_blank (fun _ hc => absurd hc List.not_mem_nil) p

/-- Behind blanks, a lexeme is scanned, and reading goes on behind it. -/
theorem lexemes_scan {gap : List Char} (hgap : ∀ c ∈ gap, Text.isBlank c) {c : Char}
    (hc : Text.isBlank c = false) (cs : List Char) (p : Position) :
    (Cursor.mk (gap ++ c :: cs) p).lexemes =
      (scan c cs).lexeme (p.advance gap) ::
        (Cursor.mk (scan c cs).rest ((p.advance gap).advance (scan c cs).taken)).lexemes := by
  obtain ⟨hskip, hnext⟩ := next_scan hgap hc cs p
  rw [lexemes, dif_neg (by rw [hskip]; exact List.cons_ne_nil _ _)]
  dsimp only
  rw [hnext]

end Cursor

/-- The end token stands last among the lexemes, and nowhere else. -/
inductive Terminated : List Lexeme → Prop where
  | eof (p : Position) : Terminated [⟨.ok .eof, p⟩]
  | cons {l : Lexeme} {lexemes : List Lexeme} (h : l.result ≠ .ok .eof)
      (rest : Terminated lexemes) : Terminated (l :: lexemes)

/-- The result of a lexeme is that of its scan. -/
theorem Scan.result_of_lexeme {s : Scan} {start : Position} {t : Token}
    (h : (s.lexeme start).result = .ok t) : s.result = .ok t := by
  obtain ⟨result, taken, rest⟩ := s
  cases result with
  | ok t' => exact congrArg Except.ok (Except.ok.inj h)
  | error cause => cases h

/-- The error of a lexeme is that of its scan, in its place. -/
theorem Scan.error_of_lexeme {s : Scan} {start : Position} {e : LexicalError}
    (h : (s.lexeme start).result = .error e) :
    ∃ cause, s.result = .error cause ∧ e = ⟨cause, cause.locate start s.taken⟩ := by
  obtain ⟨result, taken, rest⟩ := s
  cases result with
  | ok t => cases h
  | error cause => exact ⟨cause, rfl, (Except.error.inj h).symm⟩

theorem Scan.exists_error_of_result {s : Scan} {cause : LexicalCause} (h : s.result = .error cause)
    (start : Position) : ∃ e, (s.lexeme start).result = .error e := by
  rw [lexeme, h]
  exact ⟨_, rfl⟩

/-- Behind blanks, the characters that a scan takes and those that it leaves lead to the end. -/
theorem Position.advance_scan (p : Position) (gap : List Char) (c : Char) (cs : List Char) :
    p.advance (gap ++ c :: cs) =
      ((p.advance gap).advance (scan c cs).taken).advance (scan c cs).rest := by
  rw [← scan_eq c cs, advance_append, advance_append]

/-- Induction over the lexemes of a text, together with the cursor that reads them: nothing but blanks
is left, or it scans a lexeme behind the blanks `gap`, from a character `c` that is not blank, and goes
on behind it. -/
theorem Cursor.lexemes_induction_at {motive : Cursor → List Lexeme → Prop}
    (blank : ∀ cs p, (∀ c ∈ cs, Text.isBlank c) → motive ⟨cs, p⟩ [⟨.ok .eof, p.advance cs⟩])
    (scanned : ∀ gap c cs p lexemes, (∀ d ∈ gap, Text.isBlank d) → Text.isBlank c = false →
      motive ⟨(scan c cs).rest, (p.advance gap).advance (scan c cs).taken⟩ lexemes →
      motive ⟨gap ++ c :: cs, p⟩ ((scan c cs).lexeme (p.advance gap) :: lexemes))
    (c : Cursor) : motive c c.lexemes := by
  obtain ⟨cs, p⟩ := c
  rcases Text.blank_or_head cs with hblank | ⟨gap, c, rest, hcs, hgap, hc⟩
  · rw [lexemes_blank hblank]
    exact blank cs p hblank
  · -- A scan takes at least one character, so what is left is shorter.
    have hlength : (scan c rest).rest.length < cs.length := by
      have := scan_rest_length c rest
      rw [hcs, List.length_append, List.length_cons]
      omega
    rw [hcs, lexemes_scan hgap hc]
    exact scanned gap c rest p _ hgap hc (lexemes_induction_at blank scanned _)
termination_by c.rest.length

/-- Induction over the lexemes of a text. -/
theorem Cursor.lexemes_induction {motive : List Lexeme → Prop}
    (blank : ∀ p, motive [⟨.ok .eof, p⟩])
    (scanned : ∀ c cs p lexemes, Text.isBlank c = false → motive lexemes →
      motive ((scan c cs).lexeme p :: lexemes))
    (c : Cursor) : motive c.lexemes :=
  lexemes_induction_at (motive := fun _ lexemes => motive lexemes) (fun _ _ _ => blank _)
    (fun _ c cs _ lexemes _ hc ih => scanned c cs _ lexemes hc ih) c

/-- The lexemes of a text end with the end token, the only one among them. -/
theorem Cursor.terminated_lexemes (c : Cursor) : Terminated c.lexemes := by
  refine lexemes_induction Terminated.eof ?_ c
  intro c cs p lexemes _ ih
  refine Terminated.cons ?_ ih
  intro heof
  exact (scan_wellFormed c cs .eof (Scan.result_of_lexeme heof)).1

/-- Every token of a text but the end token is well-formed. -/
theorem Cursor.wellFormed_lexemes (c : Cursor) :
    ∀ t, .ok t ∈ c.lexemes.map Lexeme.result → t ≠ .eof → t.WellFormed := by
  refine lexemes_induction (motive := fun ls =>
    ∀ t, .ok t ∈ ls.map Lexeme.result → t ≠ .eof → t.WellFormed) ?_ ?_ c
  · intro p t ht hne
    obtain rfl : t = .eof := by simpa using ht
    exact absurd rfl hne
  · intro c cs p lexemes _ ih t ht hne
    rcases List.mem_cons.1 ht with ht | ht
    · exact (scan_wellFormed c cs t (Scan.result_of_lexeme ht.symm)).1
    · exact ih t ht hne

/-! ## Layouts -/

/-- A token and the characters between it and the token before it. -/
structure Placed where
  gap : List Char
  token : Token

/-- The characters of a token together with the gap in front of it. -/
def Placed.chars (x : Placed) : List Char :=
  x.gap ++ x.token.spelling.toList

namespace Layout

/-- The text of a layout. -/
def text (layout : List Placed) : List Char :=
  layout.flatMap Placed.chars

/-- The lexemes of a layout that starts at a position. -/
def lexemes (p : Position) : List Placed → List Lexeme
  | [] => []
  | x :: layout => ⟨.ok x.token, p.advance x.gap⟩ :: lexemes (p.advance x.chars) layout

/-- Gaps are blank, and only in front of a comma, or of the first token, may a gap be empty. -/
structure Spaced (layout : List Placed) : Prop where
  blank : ∀ x ∈ layout, ∀ c ∈ x.gap, Text.isBlank c
  apart : ∀ x ∈ layout.tail, x.gap ≠ [] ∨ x.token = .comma

theorem text_cons (x : Placed) (layout : List Placed) :
    text (x :: layout) = x.chars ++ text layout := rfl

theorem Spaced.tail {x : Placed} {layout : List Placed} (h : Spaced (x :: layout)) :
    Spaced layout :=
  ⟨fun y hy => h.blank y (by simp [hy]), fun y hy => h.apart y (List.mem_of_mem_tail hy)⟩

theorem lexemes_append (p : Position) (layout layout' : List Placed) :
    lexemes p (layout ++ layout') =
      lexemes p layout ++ lexemes (p.advance (text layout)) layout' := by
  induction layout generalizing p with
  | nil => rfl
  | cons x layout ih =>
    rw [List.cons_append, lexemes, ih, lexemes, text_cons, Position.advance_append]
    rfl

theorem result_lexemes (p : Position) (layout : List Placed) :
    (lexemes p layout).map Lexeme.result = (layout.map Placed.token).map Except.ok := by
  induction layout generalizing p with
  | nil => rfl
  | cons x layout ih => simp [lexemes, ih]

/-- What follows the first token of a layout is a boundary. -/
theorem Spaced.isBoundary {x : Placed} {layout : List Placed} (h : Spaced (x :: layout))
    {rest : List Char} (hrest : Text.IsBoundary rest) : Text.IsBoundary (text layout ++ rest) := by
  cases layout with
  | nil => exact hrest
  | cons y layout =>
    have hblank := h.blank y (by simp)
    obtain ⟨gap, token⟩ := y
    cases gap with
    | cons c gap => exact Text.isBoundary_cons (Or.inl (hblank c (by simp))) _
    | nil =>
      -- Without a gap the next token is a comma, and a comma ends every token too.
      obtain rfl : token = .comma := by simpa using h.apart ⟨[], token⟩ (by simp)
      exact Text.isBoundary_cons (Or.inr rfl) _

/-- One token of a layout is read. -/
theorem lexemes_placed {x : Placed} (hgap : ∀ c ∈ x.gap, Text.isBlank c)
    (hform : x.token.WellFormed) {rest : List Char} (hrest : Text.IsBoundary rest) (p : Position) :
    (Cursor.mk (x.chars ++ rest) p).lexemes =
      ⟨.ok x.token, p.advance x.gap⟩ :: (Cursor.mk rest (p.advance x.chars)).lexemes := by
  obtain ⟨c, cs, hspelling, hc⟩ := hform.exists_head
  have hscan := scan_spelling hform hspelling hrest
  rw [Placed.chars, hspelling, List.append_assoc, List.cons_append, Cursor.lexemes_scan hgap hc,
    hscan, Position.advance_append]
  rfl

/-- **Tokens survive their layout.**  Well-formed tokens with blanks between them are read back, and
reading goes on behind them. -/
theorem lexemes_layout {layout : List Placed} (hspaced : Spaced layout)
    (hform : ∀ x ∈ layout, x.token.WellFormed) {rest : List Char} (hrest : Text.IsBoundary rest)
    (p : Position) :
    (Cursor.mk (text layout ++ rest) p).lexemes =
      lexemes p layout ++ (Cursor.mk rest (p.advance (text layout))).lexemes := by
  induction layout generalizing p with
  | nil => rfl
  | cons x layout ih =>
    rw [text_cons, List.append_assoc,
      lexemes_placed (hspaced.blank x (by simp)) (hform x (by simp)) (hspaced.isBoundary hrest),
      ih hspaced.tail (fun y hy => hform y (by simp [hy])), Position.advance_append]
    rfl

end Layout

/-! ## Stray characters -/

/-- A character that no token but a string literal may hold: it is neither blank nor ASCII. -/
def Text.isStray (c : Char) : Bool :=
  128 ≤ c.toNat && !isBlank c

theorem Text.isStray_iff {c : Char} : isStray c ↔ 128 ≤ c.toNat ∧ isBlank c = false := by
  simp [isStray]

theorem Text.not_isBare_of_isStray {c : Char} (h : isStray c) : ¬ isBare c := by
  rw [isStray_iff] at h
  rw [isBare_iff]
  omega

theorem scan_stray {c : Char} (hc : Text.isStray c) (cs : List Char) :
    scan c cs = .single (.error (.unexpectedChar c)) c cs := by
  have hn : 128 ≤ c.toNat := (Text.isStray_iff.1 hc).1
  have hd : ¬ c.isDigit := by
    rw [Text.isDigit_iff]
    omega
  have hw : ¬ Text.isWordStart c := by
    rw [Text.isWordStart_iff]
    omega
  rw [scan_of_not_mem_marks (not_mem_marks (by decide) hc), if_neg hd, if_neg hw]

/-- A token that does not start with a quote takes no stray character. -/
theorem scan_taken_of_stray {c d : Char} (hc : Text.isStray c) (hd : d ≠ '"') {cs : List Char}
    {t : Token} (ht : (scan d cs).result = .ok t) : c ∉ (scan d cs).taken := by
  obtain ⟨hform, hspelling⟩ := scan_wellFormed d cs t ht
  have hstring : ∀ text, t ≠ .string text := by
    rintro text rfl
    obtain ⟨body, -, rfl⟩ := hform
    have hsplit := scan_eq d cs
    rw [← hspelling, Token.spelling, toList_quote] at hsplit
    exact hd (List.cons.inj hsplit).1.symm
  intro hmem
  rw [← hspelling] at hmem
  exact Text.not_isBare_of_isStray hc (hform.isBare hstring c hmem)

/-- What is read stops before the first character that it may not hold. -/
theorem exists_before_of_append {α : Type} {taken rest pre post : List α} {c : α}
    (h : taken ++ rest = pre ++ c :: post) (hc : c ∉ taken) :
    ∃ pre', pre = taken ++ pre' ∧ rest = pre' ++ c :: post := by
  rcases List.append_eq_append_iff.1 h with ⟨pre', hpre, hrest⟩ | ⟨more, htaken, hpost⟩
  · exact ⟨pre', hpre, hrest⟩
  · cases more with
    | nil => exact ⟨[], by simpa using htaken.symm, by simpa using hpost.symm⟩
    | cons d more =>
      obtain ⟨rfl, -⟩ := List.cons.inj hpost
      exact absurd (by simp [htaken]) hc

/-- The lexemes hold a lexical error. -/
def HasError (lexemes : List Lexeme) : Prop :=
  ∃ l ∈ lexemes, ∃ e, l.result = .error e

theorem HasError.cons {lexemes : List Lexeme} (h : HasError lexemes) (l : Lexeme) :
    HasError (l :: lexemes) := by
  obtain ⟨l', hmem, he⟩ := h
  exact ⟨l', List.mem_cons_of_mem l hmem, he⟩

/-- **A stray character outside quotes is an error.**  The induction is on the characters in front
of it: each lexeme that is a token stops before it. -/
theorem hasError_of_stray {c : Char} (hc : Text.isStray c) (post : List Char) (pre : List Char)
    (hpre : ∀ d ∈ pre, d ≠ '"') (p : Position) :
    HasError (Cursor.mk (pre ++ c :: post) p).lexemes := by
  have hblank : Text.isBlank c = false := (Text.isStray_iff.1 hc).2
  rcases Text.blank_or_head pre with hgap | ⟨gap, d, tail, hcs, hgap, hd⟩
  · rw [Cursor.lexemes_scan hgap hblank, scan_stray hc]
    exact ⟨_, List.mem_cons_self .., _, rfl⟩
  rw [hcs, List.append_assoc, List.cons_append, Cursor.lexemes_scan hgap hd]
  cases hresult : (scan d (tail ++ c :: post)).result with
  | error cause =>
    exact ⟨_, List.mem_cons_self .., Scan.exists_error_of_result hresult _⟩
  | ok t =>
    have hfree := scan_taken_of_stray hc (hpre d (by simp [hcs])) hresult
    have hsplit : _ ++ (scan d (tail ++ c :: post)).rest = (d :: tail) ++ c :: post :=
      scan_eq d (tail ++ c :: post)
    obtain ⟨tail', htail, hrest⟩ := exists_before_of_append hsplit hfree
    have hlength : tail'.length < pre.length := by
      have htaken := List.length_pos_iff.2 (scan_taken_ne_nil d (tail ++ c :: post))
      have := congrArg List.length htail
      simp only [hcs, List.length_append, List.length_cons] at this ⊢
      omega
    have hpre' : ∀ e ∈ tail', e ≠ '"' := by
      intro e he
      exact hpre e (by rw [hcs, htail]; simp [he])
    rw [hrest]
    exact (hasError_of_stray hc post tail' hpre' _).cons _
termination_by pre.length

/-- The spelling of the token has no quotes but a stray character. -/
def Token.IsStray (t : Token) : Prop :=
  (∀ c ∈ t.spelling.toList, c ≠ '"') ∧ ∃ c ∈ t.spelling.toList, Text.isStray c

/-- A layout with a stray token is read with an error, if its other tokens are well-formed. -/
theorem Layout.hasError_of_isStray {layout : List Placed} (hspaced : Spaced layout)
    (hform : ∀ x ∈ layout, x.token.WellFormed ∨ x.token.IsStray)
    (hstray : ∃ x ∈ layout, x.token.IsStray) {rest : List Char} (hrest : Text.IsBoundary rest)
    (p : Position) : HasError (Cursor.mk (text layout ++ rest) p).lexemes := by
  induction layout generalizing p with
  | nil =>
    obtain ⟨x, hx, -⟩ := hstray
    cases hx
  | cons x layout ih =>
    have hgap := hspaced.blank x (by simp)
    by_cases hx : x.token.IsStray
    · -- The tokens before were read; this one has its stray character outside quotes.
      obtain ⟨hquote, c, hmem, hc⟩ := hx
      obtain ⟨before, after, hspelling⟩ := List.append_of_mem hmem
      have hpre : ∀ d ∈ x.gap ++ before, d ≠ '"' := by
        intro d hd
        rcases List.mem_append.1 hd with hd | hd
        · rintro rfl
          exact absurd (hgap _ hd) (by decide)
        · exact hquote d (by rw [hspelling]; simp [hd])
      have h := hasError_of_stray hc (after ++ (text layout ++ rest)) (x.gap ++ before) hpre p
      rw [text_cons, Placed.chars, hspelling]
      simpa using h
    · have hx' : x.token.WellFormed := (hform x (by simp)).resolve_right hx
      rw [text_cons, List.append_assoc, lexemes_placed hgap hx' (hspaced.isBoundary hrest)]
      refine (ih hspaced.tail (fun y hy => hform y (by simp [hy])) ?_ _).cons _
      obtain ⟨y, hy, hstrayed⟩ := hstray
      rcases List.mem_cons.1 hy with rfl | hy
      · exact absurd hstrayed hx
      · exact ⟨y, hy, hstrayed⟩

end QueryPipeline
