/-
# Tokens and their spelling

Every token has a form: a string literal holds neither a quote nor a line feed, a
number is written in ASCII digits, a path is a chain of words.  Scanning yields
tokens of the right form only, and takes exactly their spelling:

* `scan_wellFormed` : a token that was scanned is well-formed, and the characters
  taken are its spelling;
* `scan_spelling` : the spelling of a well-formed token, with a boundary behind it,
  is scanned as that token.

A boundary is what may follow a token without joining it: the end of the text, a
blank or a comma.
-/
import QueryPipeline.Command.Printer
import QueryPipeline.Token.Lexer

namespace QueryPipeline

namespace Text

/-! ## Characters of words and boundaries -/

/-- ASCII letters by their code points. -/
theorem isAlpha_iff {c : Char} : c.isAlpha ↔
    (65 ≤ c.toNat ∧ c.toNat ≤ 90) ∨ (97 ≤ c.toNat ∧ c.toNat ≤ 122) := by
  show (decide (c.val ≥ 'A'.val ∧ c.val ≤ 'Z'.val) ||
    (decide (c.val ≥ 'a'.val) && decide (c.val ≤ 'z'.val))) = true ↔ _
  rw [Bool.or_eq_true, Bool.and_eq_true, decide_eq_true_eq, decide_eq_true_eq, decide_eq_true_eq]
  rfl

/-- ASCII digits by their code points. -/
theorem isDigit_iff {c : Char} : c.isDigit ↔ 48 ≤ c.toNat ∧ c.toNat ≤ 57 :=
  Char.isDigit_iff_toNat

theorem beq_underscore_iff {c : Char} : c == '_' ↔ c.toNat = 95 := by
  rw [beq_iff_eq, ← Char.toNat_inj]
  rfl

/-- Word starts by their code points. -/
theorem isWordStart_iff {c : Char} : isWordStart c ↔
    (65 ≤ c.toNat ∧ c.toNat ≤ 90) ∨ c.toNat = 95 ∨ (97 ≤ c.toNat ∧ c.toNat ≤ 122) := by
  rw [isWordStart, Bool.or_eq_true, isAlpha_iff, beq_underscore_iff]
  omega

/-- Word characters by their code points. -/
theorem isWordChar_iff {c : Char} : isWordChar c ↔
    (48 ≤ c.toNat ∧ c.toNat ≤ 57) ∨ (65 ≤ c.toNat ∧ c.toNat ≤ 90) ∨ c.toNat = 95 ∨
      (97 ≤ c.toNat ∧ c.toNat ≤ 122) := by
  have halphanum : c.isAlphanum = (c.isAlpha || c.isDigit) := rfl
  rw [isWordChar, halphanum, Bool.or_eq_true, Bool.or_eq_true, isAlpha_iff, isDigit_iff,
    beq_underscore_iff]
  omega

/-- Blanks lie below and above the printable ASCII characters. -/
theorem toNat_of_isBlank {c : Char} (h : isBlank c) : c.toNat ≤ 32 ∨ 133 ≤ c.toNat := by
  simp only [isBlank, Bool.or_eq_true, Bool.and_eq_true, decide_eq_true_eq, beq_iff_eq] at h
  omega

/-- A character of a token other than a string literal. -/
def isBare (c : Char) : Bool :=
  c.toNat == 33 || (44 ≤ c.toNat && c.toNat ≤ 122)

theorem isBare_iff {c : Char} : isBare c ↔ c.toNat = 33 ∨ (44 ≤ c.toNat ∧ c.toNat ≤ 122) := by
  simp [isBare]

/-- A bare character is no blank. -/
theorem isBlank_of_isBare {c : Char} (h : isBare c) : isBlank c = false := by
  rw [isBare_iff] at h
  rw [Bool.eq_false_iff]
  intro hb
  have := toNat_of_isBlank hb
  omega

theorem isBare_of_isWordChar {c : Char} (h : isWordChar c) : isBare c := by
  rw [isWordChar_iff] at h
  rw [isBare_iff]
  omega

theorem isWordChar_of_isWordStart {c : Char} (h : isWordStart c) : isWordChar c := by
  rw [isWordStart_iff] at h
  rw [isWordChar_iff]
  omega

theorem isBare_of_isDigit {c : Char} (h : c.isDigit) : isBare c := by
  rw [isDigit_iff] at h
  rw [isBare_iff]
  omega

/-- The characters that may stand between the quotes of a string literal. -/
def isPlain (cs : List Char) : Bool :=
  cs.all fun c => c != '"' && c != '\n'

/-- Bare characters may stand in a string literal. -/
theorem isPlain_of_isBare {cs : List Char} (h : ∀ c ∈ cs, isBare c) : isPlain cs := by
  rw [isPlain, List.all_eq_true]
  intro c hc
  have := isBare_iff.1 (h c hc)
  have hquote : c ≠ '"' := by rintro rfl; revert this; decide
  have hfeed : c ≠ '\n' := by rintro rfl; revert this; decide
  simp [hquote, hfeed]

/-- What may follow a token without joining it: the end, a blank or a comma. -/
def IsBoundary (rest : List Char) : Prop :=
  ∀ c ∈ rest.head?, isBlank c ∨ c = ','

theorem isBoundary_nil : IsBoundary [] := by
  intro c hc
  cases hc

theorem isBoundary_cons {c : Char} (h : isBlank c ∨ c = ',') (cs : List Char) :
    IsBoundary (c :: cs) := by
  intro d hd
  obtain rfl : c = d := by simpa using hd
  exact h

/-- The first character of a boundary lies outside the words, digits, dots and operators. -/
theorem IsBoundary.toNat {rest : List Char} (h : IsBoundary rest) {c : Char} (hc : c ∈ rest.head?) :
    c.toNat ≤ 32 ∨ c.toNat = 44 ∨ 133 ≤ c.toNat := by
  rcases h c hc with hb | rfl
  · have := toNat_of_isBlank hb
    omega
  · exact Or.inr (Or.inl rfl)

theorem IsBoundary.not_isWordChar {rest : List Char} (h : IsBoundary rest) :
    ∀ c ∈ rest.head?, isWordChar c = false := by
  intro c hc
  have hn := h.toNat hc
  rw [Bool.eq_false_iff]
  intro hw
  have := isWordChar_iff.1 hw
  omega

theorem IsBoundary.not_isDigit {rest : List Char} (h : IsBoundary rest) :
    ∀ c ∈ rest.head?, c.isDigit = false := by
  intro c hc
  have hn := h.toNat hc
  rw [Bool.eq_false_iff]
  intro hd
  have := isDigit_iff.1 hd
  omega

theorem IsBoundary.ne_of_toNat {rest : List Char} (h : IsBoundary rest) {d : Char}
    (hd : 45 ≤ d.toNat ∧ d.toNat ≤ 122) : ∀ c ∈ rest.head?, c ≠ d := by
  rintro c hc rfl
  have := h.toNat hc
  omega

/-- A run of characters of a class ends where the class does. -/
theorem span_boundary {p : Char → Bool} {cs : List Char} (h : ∀ c ∈ cs, p c) (rest : List Char)
    (hrest : ∀ c ∈ rest.head?, p c = false) :
    (cs ++ rest).takeWhile p = cs ∧ (cs ++ rest).dropWhile p = rest := by
  rw [List.takeWhile_append_of_pos h, List.dropWhile_append_of_pos h]
  cases rest with
  | nil => simp
  | cons c rest =>
    have hc : p c = false := hrest c (by simp)
    simp [hc]

end Text

/-! ## The forms of tokens -/

/-- The text of the token has the form of its kind.  The end of the text has no spelling and does
not count. -/
def Token.WellFormed : Token → Prop
  | string text => ∃ body : String, Text.isPlain body.toList ∧ text = quote body
  | number text => isNumberOver Char.isDigit text.toList
  | path text => isPath text
  | identifier text => Text.isWord text.toList ∧ ofWord text = identifier text
  | eof => False
  | _ => True

theorem isNumberOver_minus (digit : Char → Bool) (cs : List Char) :
    isNumberOver digit ('-' :: cs) = isUnsignedOver digit cs := rfl

theorem isNumberOver_unsigned (digit : Char → Bool) {cs : List Char} (h : cs.head? ≠ some '-') :
    isNumberOver digit cs = isUnsignedOver digit cs := by
  unfold isNumberOver
  split
  · exact absurd rfl h
  · rfl

/-- The parts of a number without a sign: digits, and perhaps a point with digits behind it. -/
structure UnsignedParts (digit : Char → Bool) (whole fraction : List Char) : Prop where
  ne_nil : whole ≠ []
  digits : ∀ c ∈ whole, digit c
  point : fraction = [] ∨ ∃ ds, fraction = '.' :: ds ∧ ds ≠ [] ∧ ∀ c ∈ ds, digit c

theorem exists_parts_of_isUnsignedOver {digit : Char → Bool} {cs : List Char}
    (h : isUnsignedOver digit cs) :
    ∃ whole fraction, cs = whole ++ fraction ∧ UnsignedParts digit whole fraction := by
  refine ⟨cs.takeWhile digit, cs.dropWhile digit, by simp, ?_, ?_, ?_⟩
  · intro hnil
    simp [isUnsignedOver, hnil] at h
  · exact List.all_eq_true.1 List.all_takeWhile
  · unfold isUnsignedOver at h
    split at h
    · cases h
    next hd => exact Or.inl hd
    next c fraction _ hd =>
      simp only [Bool.and_eq_true, beq_iff_eq, List.all_eq_true] at h
      obtain ⟨⟨rfl, hne⟩, hall⟩ := h
      exact Or.inr ⟨fraction, hd, by simpa using hne, hall⟩

/-- A fraction starts behind the last digit. -/
theorem UnsignedParts.not_digit_head {digit : Char → Bool} {whole fraction : List Char}
    (h : UnsignedParts digit whole fraction) (hdot : digit '.' = false) :
    ∀ c ∈ fraction.head?, digit c = false := by
  intro c hc
  rcases h.point with rfl | ⟨ds, rfl, -, -⟩
  · cases hc
  · obtain rfl : '.' = c := by simpa using hc
    exact hdot

theorem UnsignedParts.isUnsignedOver {digit : Char → Bool} {whole fraction : List Char}
    (h : UnsignedParts digit whole fraction) (hdot : digit '.' = false) :
    isUnsignedOver digit (whole ++ fraction) := by
  obtain ⟨htake, hdrop⟩ := Text.span_boundary h.digits fraction (h.not_digit_head hdot)
  rw [QueryPipeline.isUnsignedOver, htake, hdrop]
  obtain ⟨d, ds, hwhole⟩ := List.exists_cons_of_ne_nil h.ne_nil
  rw [hwhole]
  rcases h.point with rfl | ⟨es, rfl, hne, hall⟩
  · rfl
  · simpa [hne] using hall

/-- The parts of a number: those of a number without a sign, perhaps behind a minus. -/
theorem exists_parts_of_isNumberOver {digit : Char → Bool} {cs : List Char}
    (h : isNumberOver digit cs) :
    ∃ sign whole fraction, cs = sign ++ (whole ++ fraction) ∧ (sign = [] ∨ sign = ['-']) ∧
      UnsignedParts digit whole fraction := by
  by_cases hminus : cs.head? = some '-'
  · obtain ⟨rest, rfl⟩ := List.head?_eq_some_iff.1 hminus
    rw [isNumberOver_minus] at h
    obtain ⟨whole, fraction, rfl, hparts⟩ := exists_parts_of_isUnsignedOver h
    exact ⟨['-'], whole, fraction, rfl, Or.inr rfl, hparts⟩
  · rw [isNumberOver_unsigned digit hminus] at h
    obtain ⟨whole, fraction, rfl, hparts⟩ := exists_parts_of_isUnsignedOver h
    exact ⟨[], whole, fraction, rfl, Or.inl rfl, hparts⟩

/-- Parts make a number. -/
theorem UnsignedParts.isNumberOver {digit : Char → Bool} {whole fraction : List Char}
    (h : UnsignedParts digit whole fraction) (hdot : digit '.' = false) (hminus : digit '-' = false)
    {sign : List Char} (hsign : sign = [] ∨ sign = ['-']) :
    isNumberOver digit (sign ++ (whole ++ fraction)) := by
  rcases hsign with rfl | rfl
  · obtain ⟨d, ds, hwhole⟩ := List.exists_cons_of_ne_nil h.ne_nil
    have hd : digit d := h.digits d (by simp [hwhole])
    rw [List.nil_append, isNumberOver_unsigned]
    · exact h.isUnsignedOver hdot
    · rw [hwhole]
      rintro ⟨⟩
      rw [hminus] at hd
      cases hd
  · exact h.isUnsignedOver hdot

/-- The characters of a number. -/
theorem mem_of_isNumberOver {digit : Char → Bool} {cs : List Char} (h : isNumberOver digit cs) :
    ∀ c ∈ cs, c = '-' ∨ c = '.' ∨ digit c := by
  obtain ⟨sign, whole, fraction, rfl, hsign, hparts⟩ := exists_parts_of_isNumberOver h
  intro c hc
  rcases List.mem_append.1 hc with hc | hc
  · rcases hsign with rfl | rfl
    · cases hc
    · exact Or.inl (by simpa using hc)
  rcases List.mem_append.1 hc with hc | hc
  · exact Or.inr (Or.inr (hparts.digits c hc))
  rcases hparts.point with rfl | ⟨ds, rfl, -, hds⟩
  · cases hc
  · rcases List.mem_cons.1 hc with rfl | hc
    · exact Or.inr (Or.inl rfl)
    · exact Or.inr (Or.inr (hds c hc))

/-- A number stays one over a smaller class of digits that holds all its digits. -/
theorem isNumberOver_of_subclass {digit digit' : Char → Bool} {cs : List Char}
    (hdot : digit' '.' = false) (hminus : digit' '-' = false) (h : isNumberOver digit cs)
    (hdigits : ∀ c ∈ cs, digit c → digit' c) : isNumberOver digit' cs := by
  obtain ⟨sign, whole, fraction, rfl, hsign, hne, hwhole, hpoint⟩ := exists_parts_of_isNumberOver h
  refine UnsignedParts.isNumberOver ⟨hne, ?_, ?_⟩ hdot hminus hsign
  · intro c hc
    exact hdigits c (by simp [hc]) (hwhole c hc)
  · rcases hpoint with rfl | ⟨ds, rfl, hds, hall⟩
    · exact Or.inl rfl
    · exact Or.inr ⟨ds, rfl, hds, fun c hc => hdigits c (by simp [hc]) (hall c hc)⟩

/-- The characters of a path behind its first dot. -/
theorem mem_of_isPathTail {afterDot : Bool} {cs : List Char} (h : isPathTail afterDot cs) :
    ∀ c ∈ cs, c = '.' ∨ Text.isWordChar c := by
  induction cs generalizing afterDot with
  | nil => simp
  | cons d cs ih =>
    intro c hc
    rw [isPathTail] at h
    rcases List.mem_cons.1 hc with rfl | hc
    · split at h
      · exact Or.inr (Text.isWordChar_of_isWordStart (Bool.and_eq_true_iff.1 h).1)
      split at h
      next hdot => exact Or.inl (by simpa using hdot)
      next => exact Or.inr (Bool.and_eq_true_iff.1 h).1
    · split at h
      · exact ih (Bool.and_eq_true_iff.1 h).2 c hc
      split at h
      · exact ih h c hc
      · exact ih (Bool.and_eq_true_iff.1 h).2 c hc

/-- A path is a dot and what may follow it. -/
theorem exists_tail_of_isPath {s : String} (h : isPath s) :
    ∃ cs, s.toList = '.' :: cs ∧ isPathTail true cs := by
  unfold isPath at h
  split at h
  next cs hcs => exact ⟨cs, hcs, h⟩
  next => cases h

/-! ## The characters of a spelling -/

theorem toList_quote (s : String) : (quote s).toList = '"' :: (s.toList ++ ['"']) := by
  simp [quote]

theorem isBare_of_isPath {s : String} (h : isPath s) : ∀ c ∈ s.toList, Text.isBare c := by
  obtain ⟨cs, hcs, htail⟩ := exists_tail_of_isPath h
  intro c hc
  rw [hcs] at hc
  rcases List.mem_cons.1 hc with rfl | hc
  · decide
  rcases mem_of_isPathTail htail c hc with rfl | hw
  · decide
  · exact Text.isBare_of_isWordChar hw

theorem isBare_of_isNumberOver {cs : List Char} (h : isNumberOver Char.isDigit cs) :
    ∀ c ∈ cs, Text.isBare c := by
  intro c hc
  rcases mem_of_isNumberOver h c hc with rfl | rfl | hd
  · decide
  · decide
  · exact Text.isBare_of_isDigit hd

theorem isWordChar_of_isWord {cs : List Char} (h : Text.isWord cs) : ∀ c ∈ cs, Text.isWordChar c := by
  cases cs with
  | nil => simp
  | cons d cs =>
    simp only [Text.isWord, Bool.and_eq_true, List.all_eq_true] at h
    intro c hc
    rcases List.mem_cons.1 hc with rfl | hc
    · exact Text.isWordChar_of_isWordStart h.1
    · exact h.2 c hc

theorem isBare_of_isWord {cs : List Char} (h : Text.isWord cs) : ∀ c ∈ cs, Text.isBare c :=
  fun c hc => Text.isBare_of_isWordChar (isWordChar_of_isWord h c hc)

/-- Outside string literals, a spelling is made of bare characters. -/
theorem Token.WellFormed.isBare {t : Token} (h : t.WellFormed) (hs : ∀ text, t ≠ .string text) :
    ∀ c ∈ t.spelling.toList, Text.isBare c := by
  cases t with
  | string text => exact absurd rfl (hs text)
  | number text => exact isBare_of_isNumberOver h
  | path text => exact isBare_of_isPath h
  | identifier text => exact isBare_of_isWord h.1
  | operator op => exact List.all_eq_true.1 (by cases op <;> decide)
  | eof => exact h.elim
  | _ => exact List.all_eq_true.1 (by decide)

/-- A well-formed token has a spelling, and the spelling does not start with a blank. -/
theorem Token.WellFormed.exists_head {t : Token} (h : t.WellFormed) :
    ∃ c cs, t.spelling.toList = c :: cs ∧ Text.isBlank c = false := by
  by_cases hs : ∃ text, t = .string text
  · obtain ⟨text, rfl⟩ := hs
    obtain ⟨body, -, rfl⟩ := h
    exact ⟨'"', body.toList ++ ['"'], toList_quote body, by decide⟩
  · have hbare := h.isBare fun text ht => hs ⟨text, ht⟩
    cases hspelling : t.spelling.toList with
    | cons c cs =>
      exact ⟨c, cs, rfl, Text.isBlank_of_isBare (hbare c (by simp [hspelling]))⟩
    | nil =>
      -- Every kind of token has at least one character.
      exfalso
      cases t with
      | string text => exact hs ⟨text, rfl⟩
      | number text =>
        have hn : isNumberOver Char.isDigit text.toList := h
        rw [show text.toList = [] from hspelling] at hn
        cases hn
      | path text =>
        obtain ⟨cs, hcs, -⟩ := exists_tail_of_isPath h
        exact List.cons_ne_nil _ _ (hcs.symm.trans hspelling)
      | identifier text =>
        have hw : Text.isWord text.toList := h.1
        rw [show text.toList = [] from hspelling] at hw
        cases hw
      | operator op => cases op <;> cases hspelling
      | eof => exact h
      | _ => cases hspelling

/-! ## What is scanned is well-formed -/

/-- The scan read a well-formed token, if it read one, and took its spelling. -/
def Scan.IsFaithful (s : Scan) : Prop :=
  ∀ t, s.result = .ok t → t.WellFormed ∧ t.spelling.toList = s.taken

theorem Scan.isFaithful_error (cause : LexicalCause) (taken rest : List Char) :
    IsFaithful ⟨.error cause, taken, rest⟩ := by
  intro t ht
  cases ht

theorem Scan.isFaithful_ok {t : Token} {taken rest : List Char} (h : t.WellFormed)
    (htaken : t.spelling.toList = taken) : IsFaithful ⟨.ok t, taken, rest⟩ := by
  intro t' ht'
  obtain rfl := Except.ok.inj ht'
  exact ⟨h, htaken⟩

theorem Scan.isFaithful_operator {c : Char} {cs : List Char} {alone : Except LexicalCause Token}
    {extended : Comparison} (halone : ∀ t, alone = .ok t → t.WellFormed ∧ t.spelling.toList = [c])
    (hextended : extended.spelling.toList = [c, '=']) :
    (operator c cs alone extended).IsFaithful := by
  unfold operator
  split
  · exact isFaithful_ok trivial hextended
  · exact halone

theorem Scan.isFaithful_string (cs : List Char) : (string cs).IsFaithful := by
  unfold string
  dsimp only
  split
  · refine isFaithful_ok ⟨String.ofList (cs.takeWhile fun c => c != '"' && c != '\n'), ?_, ?_⟩ ?_
    · rw [String.toList_ofList]
      exact List.all_takeWhile
    · rw [← String.toList_inj, toList_quote]
      simp
    · simp [Token.spelling]
  · exact isFaithful_error _ _ _

/-- What is read of a complete path has the form of a path. -/
theorem Scan.isPathTail_fields {afterDot : Bool} {cs : List Char}
    (h : (fields afterDot cs).2.2 = true) : isPathTail afterDot (fields afterDot cs).1 := by
  induction cs generalizing afterDot with
  | nil => exact h
  | cons c cs ih =>
    cases afterDot with
    | true =>
      by_cases hc : Text.isWordStart c
      · simp only [fields, if_pos hc, if_true] at h ⊢
        simpa [isPathTail, hc] using ih h
      · simp [fields, hc] at h
    | false =>
      by_cases hc : Text.isWordChar c || c == '.'
      · simp only [fields, if_pos hc, Bool.false_eq_true, if_false] at h ⊢
        have htail := ih h
        by_cases hdot : c = '.'
        · simpa [isPathTail, hdot] using htail
        · have hw : Text.isWordChar c := by simpa [hdot] using hc
          have hdot' : (c == '.') = false := by simpa using hdot
          rw [hdot'] at htail ⊢
          simpa [isPathTail, hdot, hw] using htail
      · simp [fields, hc, isPathTail]

theorem Scan.isFaithful_path (cs : List Char) : (path cs).IsFaithful := by
  unfold path
  dsimp only
  split
  next hcomplete =>
    refine isFaithful_ok ?_ (by simp [Token.spelling])
    simpa [Token.WellFormed, isPath] using isPathTail_fields hcomplete
  next => exact isFaithful_error _ _ _

/-- The digits of a number, and perhaps a point with digits behind it, are the parts of a number. -/
theorem Scan.exists_parts_digits {c : Char} (hc : c.isDigit) (cs : List Char) :
    ∃ whole fraction, (digits (c :: cs)).1 = whole ++ fraction ∧
      UnsignedParts Char.isDigit whole fraction := by
  have hne : (c :: cs).takeWhile Char.isDigit ≠ [] := by simp [hc]
  have hwhole : ∀ d ∈ (c :: cs).takeWhile Char.isDigit, d.isDigit :=
    List.all_eq_true.1 List.all_takeWhile
  have plain : ∃ whole fraction, (c :: cs).takeWhile Char.isDigit = whole ++ fraction ∧
      UnsignedParts Char.isDigit whole fraction :=
    ⟨_, [], (List.append_nil _).symm, hne, hwhole, Or.inl rfl⟩
  unfold digits
  split
  next d rest _ =>
    split
    next hd =>
      refine ⟨_, '.' :: d :: rest.takeWhile Char.isDigit, rfl, hne, hwhole, Or.inr ?_⟩
      refine ⟨_, rfl, List.cons_ne_nil _ _, ?_⟩
      intro e he
      rcases List.mem_cons.1 he with rfl | he
      · exact hd
      · exact List.all_eq_true.1 List.all_takeWhile e he
    next => exact plain
  next => exact plain

theorem Scan.number_eq_mk (sign cs : List Char) :
    number sign cs =
      ⟨.ok (.number (String.ofList (sign ++ (digits cs).1))), sign ++ (digits cs).1,
        (digits cs).2⟩ := rfl

theorem Scan.isFaithful_number {sign : List Char} (hsign : sign = [] ∨ sign = ['-']) {c : Char}
    (hc : c.isDigit) (cs : List Char) : (number sign (c :: cs)).IsFaithful := by
  obtain ⟨whole, fraction, htaken, hparts⟩ := exists_parts_digits hc cs
  rw [number_eq_mk, htaken]
  refine isFaithful_ok ?_ (by simp [Token.spelling])
  rw [Token.WellFormed, String.toList_ofList]
  exact hparts.isNumberOver (by decide) (by decide) hsign

theorem Token.ofWord_wellFormed {word : String} (h : Text.isWord word.toList) :
    (ofWord word).WellFormed ∧ (ofWord word).spelling = word := by
  unfold ofWord
  split
  next heq => exact ⟨trivial, heq.symm⟩
  split
  next heq => exact ⟨trivial, heq.symm⟩
  split
  next heq => exact ⟨trivial, heq.symm⟩
  split
  next heq => exact ⟨trivial, heq.symm⟩
  split
  next heq => exact ⟨trivial, heq.symm⟩
  next => exact ⟨⟨h, by simp [ofWord, *]⟩, rfl⟩

theorem Scan.isFaithful_word {c : Char} (hc : Text.isWordStart c) (cs : List Char) :
    (word c cs).IsFaithful := by
  have hword : Text.isWord (String.ofList (c :: cs.takeWhile Text.isWordChar)).toList := by
    simp [Text.isWord, hc]
  obtain ⟨hform, hspelling⟩ := Token.ofWord_wellFormed hword
  refine isFaithful_ok hform ?_
  rw [hspelling, String.toList_ofList]

/-- **What is scanned is well-formed.**  A token that was scanned has the form of its kind, and the
characters taken are its spelling. -/
theorem scan_wellFormed (c : Char) (cs : List Char) : (scan c cs).IsFaithful := by
  unfold scan
  split
  · exact Scan.isFaithful_ok trivial rfl
  · exact Scan.isFaithful_path cs
  · exact Scan.isFaithful_string cs
  · exact Scan.isFaithful_operator (fun t ht => by cases ht) rfl
  · exact Scan.isFaithful_operator (fun t ht => by cases ht) rfl
  · exact Scan.isFaithful_operator (fun t ht => by cases ht; exact ⟨trivial, rfl⟩) rfl
  · exact Scan.isFaithful_operator (fun t ht => by cases ht; exact ⟨trivial, rfl⟩) rfl
  · split
    next hd =>
      obtain ⟨d, hhead, hdigit⟩ := (Option.any_eq_true ..).1 hd
      obtain ⟨rest, rfl⟩ := List.head?_eq_some_iff.1 hhead
      exact Scan.isFaithful_number (Or.inr rfl) hdigit rest
    next => exact Scan.isFaithful_error _ _ _
  next d _ _ _ _ _ _ _ _ =>
    split
    next hd => exact Scan.isFaithful_number (Or.inl rfl) hd cs
    split
    next hw => exact Scan.isFaithful_word hw cs
    next => exact Scan.isFaithful_error _ _ _

/-! ## The spelling of a well-formed token is scanned as that token -/

/-- The characters that say by themselves what kind of token they start. -/
def marks : List Char :=
  [',', '.', '"', '=', '!', '<', '>', '-']

/-- No mark is in a class of characters, if that can be checked mark by mark. -/
theorem not_mem_marks {inClass : Char → Bool} (h : marks.all fun d => !inClass d) {c : Char}
    (hc : inClass c) : c ∉ marks := by
  intro hmem
  have hnot := List.all_eq_true.1 h c hmem
  simp [hc] at hnot

/-- Any other character starts a number or a word, or is out of place. -/
theorem scan_of_not_mem_marks {c : Char} (hc : c ∉ marks) (cs : List Char) :
    scan c cs =
      if c.isDigit then .number [] (c :: cs)
      else if Text.isWordStart c then .word c cs
      else .single (.error (.unexpectedChar c)) c cs := by
  unfold scan
  split
  all_goals try exact absurd (by decide) hc
  rfl

theorem scan_digit {c : Char} (hc : c.isDigit) (cs : List Char) :
    scan c cs = .number [] (c :: cs) := by
  rw [scan_of_not_mem_marks (not_mem_marks (by decide) hc), if_pos hc]

theorem scan_wordStart {c : Char} (hc : Text.isWordStart c) (cs : List Char) :
    scan c cs = .word c cs := by
  have hd : ¬ c.isDigit := by
    rw [Text.isWordStart_iff] at hc
    rw [Text.isDigit_iff]
    omega
  rw [scan_of_not_mem_marks (not_mem_marks (by decide) hc), if_neg hd, if_pos hc]

/-- The fields of a path end at a boundary. -/
theorem Scan.fields_boundary {afterDot : Bool} {cs rest : List Char} (h : isPathTail afterDot cs)
    (hrest : Text.IsBoundary rest) : fields afterDot (cs ++ rest) = (cs, rest, true) := by
  induction cs generalizing afterDot with
  | nil =>
    obtain rfl : afterDot = false := by simpa [isPathTail] using h
    cases rest with
    | nil => rfl
    | cons c rest =>
      have hw : Text.isWordChar c = false := hrest.not_isWordChar c (by simp)
      have hdot : c ≠ '.' := hrest.ne_of_toNat (by decide) c (by simp)
      simp [fields, hw, hdot]
  | cons c cs ih =>
    cases afterDot with
    | true =>
      simp only [isPathTail, if_true, Bool.and_eq_true] at h
      simp [fields, h.1, ih h.2]
    | false =>
      by_cases hdot : c = '.'
      · have htail : isPathTail true cs := by simpa [isPathTail, hdot] using h
        simp [fields, hdot, ih htail]
      · have htail : Text.isWordChar c ∧ isPathTail false cs := by
          simpa [isPathTail, hdot] using h
        have hdot' : (c == '.') = false := by simpa using hdot
        simp [fields, hdot', htail.1, ih htail.2]

/-- The digits of a number end at a boundary. -/
theorem Scan.digits_boundary {whole fraction rest : List Char}
    (h : UnsignedParts Char.isDigit whole fraction) (hrest : Text.IsBoundary rest) :
    digits (whole ++ fraction ++ rest) = (whole ++ fraction, rest) := by
  rcases h.point with rfl | ⟨ds, rfl, hne, hds⟩
  · obtain ⟨htake, hdrop⟩ := Text.span_boundary h.digits rest hrest.not_isDigit
    have hdot : ∀ d ds, rest ≠ '.' :: d :: ds := by
      rintro d ds rfl
      exact hrest.ne_of_toNat (by decide) '.' (by simp) rfl
    rw [List.append_nil, digits, htake, hdrop]
    split
    · exact absurd rfl (hdot _ _)
    · rfl
  · obtain ⟨d, ds, rfl⟩ := List.exists_cons_of_ne_nil hne
    obtain ⟨htake, hdrop⟩ :=
      Text.span_boundary h.digits ('.' :: d :: ds ++ rest) (by simp)
    have htail : ∀ c ∈ ds, c.isDigit := fun c hc => hds c (by simp [hc])
    obtain ⟨htake', hdrop'⟩ := Text.span_boundary htail rest hrest.not_isDigit
    -- `digits` looks one character past the point, so the first digit behind it is split off.
    rw [List.append_assoc, digits, htake, hdrop]
    simp [hds d (by simp), htake', hdrop']

/-- A string literal ends at its second quote. -/
theorem Scan.string_quote {body : String} (h : Text.isPlain body.toList) (rest : List Char) :
    string (body.toList ++ '"' :: rest) =
      ⟨.ok (.string (quote body)), '"' :: (body.toList ++ ['"']), rest⟩ := by
  obtain ⟨htake, hdrop⟩ :=
    Text.span_boundary (List.all_eq_true.1 h) ('"' :: rest) (by simp)
  rw [string, htake, hdrop]
  have htext : String.ofList ('"' :: body.toList ++ ['"']) = quote body := by
    rw [← String.toList_inj, toList_quote, String.toList_ofList, List.cons_append]
  simp [← htext]

theorem scan_number {text : String} (h : isNumberOver Char.isDigit text.toList) {c : Char}
    {cs : List Char} (hspelling : text.toList = c :: cs) {rest : List Char}
    (hrest : Text.IsBoundary rest) :
    scan c (cs ++ rest) = ⟨.ok (.number text), c :: cs, rest⟩ := by
  obtain ⟨sign, whole, fraction, hcs, hsign, hparts⟩ := exists_parts_of_isNumberOver h
  have hdigits := Scan.digits_boundary hparts hrest
  have htext : text = String.ofList (sign ++ (whole ++ fraction)) := by
    rw [← hcs, String.ofList_toList]
  obtain ⟨d, ds, rfl⟩ := List.exists_cons_of_ne_nil hparts.ne_nil
  have hd : d.isDigit := hparts.digits d (by simp)
  rw [hspelling] at hcs
  rcases hsign with rfl | rfl
  · simp only [List.nil_append, List.cons_append, List.cons.injEq] at hcs hdigits htext
    obtain ⟨rfl, rfl⟩ := hcs
    rw [scan_digit hd, Scan.number_eq_mk, hdigits, htext]
    rfl
  · simp only [List.cons_append, List.nil_append, List.cons.injEq] at hcs hdigits htext
    obtain ⟨rfl, rfl⟩ := hcs
    have hscan : scan '-' (d :: (ds ++ fraction ++ rest)) =
        .number ['-'] (d :: (ds ++ fraction ++ rest)) := by
      simp [scan, hd]
    rw [List.cons_append, hscan, Scan.number_eq_mk, hdigits, htext]
    rfl

theorem scan_path {text : String} (h : isPath text) {c : Char} {cs : List Char}
    (hspelling : text.toList = c :: cs) {rest : List Char} (hrest : Text.IsBoundary rest) :
    scan c (cs ++ rest) = ⟨.ok (.path text), c :: cs, rest⟩ := by
  obtain ⟨tail, htail, hform⟩ := exists_tail_of_isPath h
  obtain ⟨rfl, rfl⟩ := List.cons.inj (hspelling.symm.trans htail)
  have htext : text = String.ofList ('.' :: cs) := by
    rw [← hspelling, String.ofList_toList]
  show Scan.path (cs ++ rest) = _
  rw [Scan.path, Scan.fields_boundary hform hrest, htext]
  rfl

theorem scan_word {text : String} (h : Text.isWord text.toList) {c : Char} {cs : List Char}
    (hspelling : text.toList = c :: cs) {rest : List Char} (hrest : Text.IsBoundary rest) :
    scan c (cs ++ rest) = ⟨.ok (Token.ofWord text), c :: cs, rest⟩ := by
  rw [hspelling, Text.isWord, Bool.and_eq_true] at h
  obtain ⟨htake, hdrop⟩ := Text.span_boundary (List.all_eq_true.1 h.2) rest hrest.not_isWordChar
  rw [scan_wordStart h.1, Scan.word, htake, hdrop, ← hspelling, String.ofList_toList]

/-- An operator that no equals sign extends. -/
theorem Scan.operator_boundary {rest : List Char} (hrest : Text.IsBoundary rest) (c : Char)
    (alone : Except LexicalCause Token) (extended : Comparison) :
    operator c rest alone extended = ⟨alone, [c], rest⟩ := by
  unfold operator
  split
  · exact absurd rfl (hrest.ne_of_toNat (by decide) '=' (by simp))
  · rfl

/-- **The spelling of a token is scanned as that token**, where a boundary stands behind it. -/
theorem scan_spelling {t : Token} (h : t.WellFormed) {c : Char} {cs : List Char}
    (hspelling : t.spelling.toList = c :: cs) {rest : List Char} (hrest : Text.IsBoundary rest) :
    scan c (cs ++ rest) = ⟨.ok t, c :: cs, rest⟩ := by
  cases t with
  | load | filter | select | save | asWord =>
    exact scan_word (by decide) hspelling hrest
  | string text =>
    obtain ⟨body, hbody, rfl⟩ := h
    rw [Token.spelling, toList_quote] at hspelling
    obtain ⟨rfl, rfl⟩ := List.cons.inj hspelling
    rw [List.append_assoc]
    exact Scan.string_quote hbody rest
  | number text => exact scan_number h hspelling hrest
  | path text => exact scan_path h hspelling hrest
  | identifier text =>
    rw [← h.2]
    exact scan_word h.1 hspelling hrest
  | comma =>
    obtain ⟨rfl, rfl⟩ := List.cons.inj hspelling
    rfl
  | operator op =>
    -- Only `<` and `>` might be extended by what stands behind them.
    cases op <;> obtain ⟨rfl, rfl⟩ := List.cons.inj hspelling
    case lt | gt => exact Scan.operator_boundary hrest ..
    all_goals rfl
  | eof => exact h.elim

end QueryPipeline
