/-
# Maximal munch

A call reads the longest text in front of it that has the form of a token.  There is
one exception: a path with a dot behind it is not read, since the dot asks for another
name.  Where no text in front has the form of a token, the first character tells what
is wrong.

* `IsLongest` : the longest text in front of an input, and its form;
* `Munches` : what a scan should read; `scan_munches` : it does, one lemma for each
  kind of scan;
* `next_reads_longest` : the same of a call.
-/
import QueryPipeline.Proofs.LexicalGrammar

namespace QueryPipeline

/-! ## The longest text in front -/

/-- Some text in front of the input has the form of a token. -/
def HasMatch (input : List Char) : Prop :=
  ∃ (f : Form) (text : List Char), text <+: input ∧ text ∈ f.texts

/-- The text stands in front of the input and has the form `f`, and no longer text in front has the
form of a token. -/
structure IsLongest (input : List Char) (f : Form) (text : List Char) : Prop where
  front : text <+: input
  form : text ∈ f.texts
  longest : ∀ (g : Form) (other : List Char), other <+: input → other ∈ g.texts →
    other.length ≤ text.length

theorem IsLongest.hasMatch {input text : List Char} {f : Form} (h : IsLongest input f text) :
    HasMatch input :=
  ⟨f, text, h.front, h.form⟩

/-- There is at most one longest text, and it has one form. -/
theorem IsLongest.unique {input text other : List Char} {f g : Form} (h : IsLongest input f text)
    (h' : IsLongest input g other) : f = g ∧ text = other := by
  have hle : text.length ≤ other.length := h'.longest f text h.front h.form
  have hge : other.length ≤ text.length := h.longest g other h'.front h'.form
  have htext : text = other :=
    (List.prefix_of_prefix_length_le h.front h'.front hle).eq_of_length (by omega)
  subst htext
  exact ⟨Form.eq_of_mem h.form h'.form, rfl⟩

/-- A text in front of the input starts with the first character of the input. -/
theorem Form.opens_of_front {g : Form} {c : Char} {cs text : List Char} (hfront : text <+: c :: cs)
    (hform : text ∈ g.texts) : g.Opens c := by
  obtain ⟨d, ds, rfl, hd⟩ := exists_opens_of_mem hform
  obtain rfl : d = c := (List.cons_prefix_cons.1 hfront).1
  exact hd

/-- Among the texts in front that start like the form `f`, only those of this form are to be
considered, unless it is an operator. -/
theorem Form.eq_of_front {f g : Form} {c : Char} {cs text : List Char} (hf : f.Opens c)
    (hop : ∀ op, f ≠ operator op) (hfront : text <+: c :: cs) (hform : text ∈ g.texts) : g = f := by
  rcases eq_of_opens hf (opens_of_front hfront hform) with rfl | ⟨op, -, rfl, -⟩
  · rfl
  · exact absurd rfl (hop op)

theorem isLongest_of_opens {f : Form} {c : Char} {cs text : List Char} (hf : f.Opens c)
    (hop : ∀ op, f ≠ .operator op) (hfront : text <+: c :: cs) (hform : text ∈ f.texts)
    (hlongest : ∀ other, other <+: c :: cs → other ∈ f.texts → other.length ≤ text.length) :
    IsLongest (c :: cs) f text := by
  refine ⟨hfront, hform, ?_⟩
  intro g other hother hg
  obtain rfl := Form.eq_of_front hf hop hother hg
  exact hlongest other hother hg

theorem not_hasMatch_of_opens {f : Form} {c : Char} {cs : List Char} (hf : f.Opens c)
    (hop : ∀ op, f ≠ .operator op) (hnone : ∀ text, text <+: c :: cs → text ∉ f.texts) :
    ¬ HasMatch (c :: cs) := by
  rintro ⟨g, text, hfront, hg⟩
  obtain rfl := Form.eq_of_front hf hop hfront hg
  exact hnone text hfront hg

/-- What is wrong where no text in front has the form of a token: it starts with this character. -/
def LexicalCause.ofUnmatched (c : Char) : LexicalCause :=
  if c = '.' then missingFieldName
  else if c = '"' then unterminatedString
  else unexpectedChar c

/-- What a scan of `c :: cs` should read. -/
inductive Munches (c : Char) (cs : List Char) (s : Scan) : Prop where
  /-- The longest text, unless it is a path with a dot behind it. -/
  | token (f : Form) (longest : IsLongest (c :: cs) f s.taken)
      (closed : f = .path → s.rest.head? ≠ some '.') (result : s.result = .ok (f.token s.taken))
  /-- A path with a dot behind it. -/
  | dangling (text : List Char) (longest : IsLongest (c :: cs) .path text)
      (taken : s.taken = text ++ ['.']) (result : s.result = .error .missingFieldName)
  | unmatched (none : ¬ HasMatch (c :: cs)) (result : s.result = .error (.ofUnmatched c))

namespace Scan

/-! ## Operators -/

/-- An operator is a single `<` or `>`, or has an equals sign as its second character. -/
theorem exists_spelling (op : Comparison) :
    ∃ d, (op.spelling.toList = [d] ∧ (d = '<' ∨ d = '>')) ∨ op.spelling.toList = [d, '='] := by
  cases op with
  | eq => exact ⟨'=', Or.inr rfl⟩
  | ne => exact ⟨'!', Or.inr rfl⟩
  | lt => exact ⟨'<', Or.inl ⟨rfl, Or.inl rfl⟩⟩
  | gt => exact ⟨'>', Or.inl ⟨rfl, Or.inr rfl⟩⟩
  | le => exact ⟨'<', Or.inr rfl⟩
  | ge => exact ⟨'>', Or.inr rfl⟩

/-- What starts like an operator can only be one. -/
theorem exists_operator_of_front {g : Form} {c : Char} (hc : (Form.operator .eq).Opens c)
    {cs text : List Char} (hfront : text <+: c :: cs) (hform : text ∈ g.texts) :
    ∃ op, g = .operator op ∧ text = op.spelling.toList := by
  rcases Form.eq_of_opens hc (Form.opens_of_front hfront hform) with rfl | ⟨-, op, -, rfl⟩
  · exact ⟨.eq, rfl, hform⟩
  · exact ⟨op, rfl, hform⟩

/-- An operator with an equals sign is the longest text there is. -/
theorem isLongest_extended {c : Char} (hc : (Form.operator .eq).Opens c) {extended : Comparison}
    (hextended : extended.spelling.toList = [c, '=']) (rest : List Char) :
    IsLongest (c :: '=' :: rest) (.operator extended) [c, '='] := by
  refine ⟨⟨rest, rfl⟩, hextended.symm, ?_⟩
  intro g other hfront hg
  obtain ⟨op, -, rfl⟩ := exists_operator_of_front hc hfront hg
  obtain ⟨d, ⟨hop, -⟩ | hop⟩ := exists_spelling op
  · simp [hop]
  · simp [hop]

/-- Without an equals sign behind its first character, an operator is that character alone. -/
theorem eq_singleton_of_front {g : Form} {c : Char} (hc : (Form.operator .eq).Opens c)
    {cs text : List Char} (hcs : ∀ rest, cs ≠ '=' :: rest) (hfront : text <+: c :: cs)
    (hform : text ∈ g.texts) : text = [c] ∧ (c = '<' ∨ c = '>') := by
  obtain ⟨op, -, rfl⟩ := exists_operator_of_front hc hfront hform
  obtain ⟨d, ⟨hop, hd⟩ | hop⟩ := exists_spelling op
  · rw [hop] at hfront ⊢
    obtain ⟨rfl, -⟩ := List.cons_prefix_cons.1 hfront
    exact ⟨rfl, hd⟩
  · rw [hop] at hfront
    obtain ⟨-, rest, hrest⟩ := List.cons_prefix_cons.1 hfront
    exact absurd hrest.symm (hcs rest)

/-- The scan of an operator that may stand alone. -/
theorem munches_operator {c : Char} {op extended : Comparison} (hop : op.spelling.toList = [c])
    (hextended : extended.spelling.toList = [c, '=']) (cs : List Char) :
    Munches c cs (operator c cs (.ok (.operator op)) extended) := by
  have hc : (Form.operator .eq).Opens c := by
    have hfront : [c] <+: c :: cs := ⟨cs, rfl⟩
    exact Form.opens_of_front (g := .operator op) hfront hop.symm
  unfold operator
  split
  · exact .token (.operator extended) (isLongest_extended hc hextended _) (by simp) rfl
  next hcs =>
    refine .token (.operator op) ⟨⟨cs, rfl⟩, hop.symm, ?_⟩ (by simp) rfl
    intro g other hfront hg
    obtain ⟨rfl, -⟩ := eq_singleton_of_front hc hcs hfront hg
    exact Nat.le_refl _

/-- The scan of an operator that needs its equals sign. -/
theorem munches_operator_error {c : Char} {extended : Comparison} (hc : c = '=' ∨ c = '!')
    (hextended : extended.spelling.toList = [c, '=']) (cs : List Char) :
    Munches c cs (operator c cs (.error (.unexpectedChar c)) extended) := by
  have hopens : (Form.operator .eq).Opens c := by
    rcases hc with rfl | rfl
    · exact Or.inl rfl
    · exact Or.inr (Or.inl rfl)
  unfold operator
  split
  · exact .token (.operator extended) (isLongest_extended hopens hextended _) (by simp) rfl
  next hcs =>
    refine .unmatched ?_ ?_
    · rintro ⟨g, text, hfront, hg⟩
      obtain ⟨-, hsingle⟩ := eq_singleton_of_front hopens hcs hfront hg
      rcases hc with rfl | rfl <;> revert hsingle <;> decide
    · rcases hc with rfl | rfl <;> rfl

/-! ## String literals -/

/-- The scan of a string literal. -/
theorem munches_string (cs : List Char) : Munches '"' cs (string cs) := by
  -- A literal in front ends at the first quote on its line, so there is only one.
  have hunique : ∀ text, text <+: '"' :: cs → text ∈ Form.string.texts →
      text = '"' :: cs.takeWhile (fun c => c != '"' && c != '\n') ++ ['"'] ∧
        ∃ rest, cs.dropWhile (fun c => c != '"' && c != '\n') = '"' :: rest := by
    intro text hfront hform
    obtain ⟨body, rfl, hbody⟩ := LexicalGrammar.mem_string_iff.1 hform
    obtain ⟨rest, hrest⟩ := (List.cons_prefix_cons.1 hfront).2
    obtain rfl : cs = body ++ '"' :: rest := by simpa using hrest.symm
    obtain ⟨htake, hdrop⟩ := Text.span_boundary (List.all_eq_true.1 hbody) ('"' :: rest) (by simp)
    exact ⟨by rw [htake]; rfl, rest, hdrop⟩
  have hsplit := string_eq cs
  revert hsplit
  unfold string
  dsimp only
  split
  next rest hdrop =>
    intro hsplit
    refine .token .string (isLongest_of_opens rfl (by simp) ⟨rest, hsplit⟩ ?_ ?_) (by simp) rfl
    · exact LexicalGrammar.mem_string_iff.2 ⟨_, rfl, List.all_takeWhile⟩
    · intro other hfront hform
      rw [(hunique other hfront hform).1]
  next hopen =>
    intro hsplit
    refine .unmatched (not_hasMatch_of_opens (f := .string) rfl (by simp) ?_) rfl
    intro text hfront hform
    obtain ⟨-, rest, hrest⟩ := hunique text hfront hform
    exact hopen rest hrest

/-! ## Numbers -/

theorem takeWhile_front_digits (cs : List Char) :
    cs.takeWhile Char.isDigit <+: (digits cs).1 := by
  unfold digits
  split
  · split
    · exact ⟨_, rfl⟩
    · exact List.prefix_rfl
  · exact List.prefix_rfl

/-- A number without a sign that stands in front is part of the digits that are read. -/
theorem parts_front_digits {whole fraction cs : List Char}
    (h : UnsignedParts Char.isDigit whole fraction) (hfront : whole ++ fraction <+: cs) :
    whole ++ fraction <+: (digits cs).1 := by
  obtain ⟨rest, rfl⟩ := hfront
  rcases h.point with rfl | ⟨ds, rfl, hne, hds⟩
  · refine List.IsPrefix.trans ?_ (takeWhile_front_digits _)
    rw [List.append_nil, List.takeWhile_append_of_pos h.digits]
    exact List.prefix_append _ _
  · -- The digits in front of the point end there, and those behind it are read on.
    obtain ⟨d, ds, rfl⟩ := List.exists_cons_of_ne_nil hne
    obtain ⟨hd, hds⟩ := List.forall_mem_cons.1 hds
    obtain ⟨htake, hdrop⟩ := Text.span_boundary h.digits ('.' :: d :: ds ++ rest) (by simp)
    rw [List.append_assoc, digits, htake, hdrop]
    simp only [List.cons_append, hd, if_true]
    rw [List.takeWhile_append_of_pos hds]
    exact ⟨rest.takeWhile Char.isDigit, by simp⟩

/-- A number in front of another one has a sign if and only if that one has: no digit is a minus. -/
theorem sign_eq_of_front {sign sign' ds es : List Char} (hsign : sign = [] ∨ sign = ['-'])
    (hsign' : sign' = [] ∨ sign' = ['-']) (hds : ∃ d ∈ ds.head?, d.isDigit)
    (hes : ∃ e ∈ es.head?, e.isDigit) (hfront : sign' ++ es <+: sign ++ ds) : sign' = sign := by
  obtain ⟨d, hd, hdigit⟩ := hds
  obtain ⟨e, he, hdigit'⟩ := hes
  obtain ⟨ds, rfl⟩ := List.head?_eq_some_iff.1 hd
  obtain ⟨es, rfl⟩ := List.head?_eq_some_iff.1 he
  rcases hsign with rfl | rfl <;> rcases hsign' with rfl | rfl
  · rfl
  · obtain rfl := (List.cons_prefix_cons.1 hfront).1
    exact absurd hdigit (by decide)
  · obtain rfl := (List.cons_prefix_cons.1 hfront).1
    exact absurd hdigit' (by decide)
  · rfl

/-- The first digit of a number without a sign. -/
theorem head_isDigit_of_parts {whole fraction : List Char}
    (h : UnsignedParts Char.isDigit whole fraction) :
    ∃ d ∈ (whole ++ fraction).head?, d.isDigit := by
  obtain ⟨d, ds, rfl⟩ := List.exists_cons_of_ne_nil h.ne_nil
  exact ⟨d, rfl, h.digits d (by simp)⟩

/-- What is read of a number is the longest text in front. -/
theorem isLongest_number {c : Char} {cs sign ds : List Char} (hinput : c :: cs = sign ++ ds)
    (hsign : sign = [] ∨ sign = ['-']) (hds : ∃ d ∈ ds.head?, d.isDigit) :
    IsLongest (c :: cs) .number (number sign ds).taken := by
  have htaken : ∃ whole fraction, (number sign ds).taken = sign ++ (whole ++ fraction) ∧
      UnsignedParts Char.isDigit whole fraction := by
    obtain ⟨d, hhead, hd⟩ := hds
    obtain ⟨tail, rfl⟩ := List.head?_eq_some_iff.1 hhead
    obtain ⟨whole, fraction, heq, hparts⟩ := exists_parts_digits hd tail
    exact ⟨whole, fraction, by rw [number_eq_mk, heq], hparts⟩
  obtain ⟨whole, fraction, htaken, hparts⟩ := htaken
  have hfront : (number sign ds).taken <+: c :: cs := by
    rw [hinput, ← number_eq sign ds]
    exact List.prefix_append _ _
  have hform : (number sign ds).taken ∈ Form.number.texts :=
    LexicalGrammar.mem_number_iff.2 ⟨sign, whole, fraction, htaken, hsign, hparts⟩
  refine isLongest_of_opens (Form.opens_of_front hfront hform) (by simp) hfront hform ?_
  intro other hother hnumber
  obtain ⟨sign', whole', fraction', rfl, hsign', hparts'⟩ :=
    LexicalGrammar.mem_number_iff.1 hnumber
  rw [hinput] at hother
  obtain rfl := sign_eq_of_front hsign hsign' hds (head_isDigit_of_parts hparts') hother
  rw [List.prefix_append_right_inj] at hother
  exact ((List.prefix_append_right_inj sign').2 (parts_front_digits hparts' hother)).length_le

/-- The scan of a number. -/
theorem munches_number {c : Char} {cs sign ds : List Char} (hinput : c :: cs = sign ++ ds)
    (hsign : sign = [] ∨ sign = ['-']) (hds : ∃ d ∈ ds.head?, d.isDigit) :
    Munches c cs (number sign ds) :=
  .token .number (isLongest_number hinput hsign hds) (by simp) rfl

/-- A minus without a digit behind it starts no token. -/
theorem not_hasMatch_minus {cs : List Char} (h : ¬ ∃ d ∈ cs.head?, d.isDigit) :
    ¬ HasMatch ('-' :: cs) := by
  refine not_hasMatch_of_opens (f := .number) (Or.inl rfl) (by simp) ?_
  intro text hfront hform
  obtain ⟨sign, whole, fraction, rfl, hsign, hparts⟩ := LexicalGrammar.mem_number_iff.1 hform
  obtain ⟨d, hhead, hd⟩ := head_isDigit_of_parts hparts
  obtain ⟨ds, hds⟩ := List.head?_eq_some_iff.1 hhead
  rw [hds] at hfront
  rcases hsign with rfl | rfl
  · obtain ⟨rfl, -⟩ := List.cons_prefix_cons.1 hfront
    exact absurd hd (by decide)
  · obtain ⟨-, rest, rfl⟩ := List.cons_prefix_cons.1 hfront
    exact h ⟨d, rfl, hd⟩

/-! ## Words -/

/-- The scan of a word. -/
theorem munches_word {c : Char} (hc : Text.isWordStart c) (cs : List Char) :
    Munches c cs (word c cs) := by
  refine .token .word (isLongest_of_opens hc (by simp) ⟨_, word_eq c cs⟩ ?_ ?_) (by simp)
    (congrArg Except.ok (Form.token_word _).symm)
  · exact LexicalGrammar.mem_word_iff.2 (Bool.and_eq_true_iff.2 ⟨hc, List.all_takeWhile⟩)
  · intro other hfront hform
    have hword := LexicalGrammar.mem_word_iff.1 hform
    cases other with
    | nil => cases hword
    | cons d ds =>
      obtain ⟨-, hall⟩ := Bool.and_eq_true_iff.1 hword
      obtain ⟨-, rest, rfl⟩ := List.cons_prefix_cons.1 hfront
      show ds.length + 1 ≤ ((ds ++ rest).takeWhile Text.isWordChar).length + 1
      rw [List.takeWhile_append_of_pos (List.all_eq_true.1 hall), List.length_append]
      omega

/-! ## Paths -/

/-- The names of a path, from inside it: `name` is what has been read of the present one. -/
theorem exists_names_of_isPathTail {afterDot : Bool} {cs : List Char} (h : isPathTail afterDot cs)
    (name : List Char) (hname : if afterDot then name = [] else Text.isWord name) :
    ∃ names, names ≠ [] ∧ '.' :: (name ++ cs) = dotted names ∧ ∀ name ∈ names, Text.isWord name := by
  induction cs generalizing afterDot name with
  | nil =>
    obtain rfl : afterDot = false := by simpa [isPathTail] using h
    exact ⟨[name], by simp, by simp [dotted], by simpa using hname⟩
  | cons c cs ih =>
    cases afterDot with
    | true =>
      obtain rfl : name = [] := hname
      obtain ⟨hc, htail⟩ := Bool.and_eq_true_iff.1 h
      exact ih htail [c] (by simp [Text.isWord, hc])
    | false =>
      by_cases hdot : c = '.'
      · subst hdot
        have htail : isPathTail true cs := h
        obtain ⟨names, -, heq, hnames⟩ := ih htail [] rfl
        refine ⟨name :: names, by simp, ?_, List.forall_mem_cons.2 ⟨hname, hnames⟩⟩
        rw [dotted_cons, ← heq]
        rfl
      · have htail : Text.isWordChar c ∧ isPathTail false cs := by
          simpa [isPathTail, hdot] using h
        have hword : Text.isWord (name ++ [c]) := by
          cases name with
          | nil => cases hname
          | cons d ds => simpa [Text.isWord, htail.1] using hname
        simpa using ih htail.2 (name ++ [c]) hword

theorem isPathTail_append {cs rest : List Char} (hcs : ∀ c ∈ cs, Text.isWordChar c)
    (hrest : isPathTail false rest) : isPathTail false (cs ++ rest) := by
  induction cs with
  | nil => exact hrest
  | cons c cs ih =>
    obtain ⟨hc, hcs⟩ := List.forall_mem_cons.1 hcs
    have hdot : c ≠ '.' := by
      rintro rfl
      exact absurd hc (by decide)
    simpa [isPathTail, hdot, hc] using ih hcs

/-- Names behind dots continue a path. -/
theorem isPathTail_dotted {names : List (List Char)} (h : ∀ name ∈ names, Text.isWord name) :
    isPathTail false (dotted names) := by
  induction names with
  | nil => rfl
  | cons name names ih =>
    obtain ⟨hname, hnames⟩ := List.forall_mem_cons.1 h
    cases name with
    | nil => cases hname
    | cons c cs =>
      obtain ⟨hc, hcs⟩ := Bool.and_eq_true_iff.1 hname
      have htail := isPathTail_append (List.all_eq_true.1 hcs) (ih hnames)
      simpa [dotted_cons, isPathTail, hc] using htail

theorem mem_path_iff_isPathTail {text : List Char} :
    text ∈ Form.path.texts ↔ ∃ cs, text = '.' :: cs ∧ isPathTail true cs := by
  constructor
  · intro h
    obtain ⟨names, hne, rfl, hnames⟩ := LexicalGrammar.mem_path_iff.1 h
    obtain ⟨name, names, rfl⟩ := List.exists_cons_of_ne_nil hne
    exact ⟨name ++ dotted names, rfl, by simpa [dotted_cons, isPathTail] using isPathTail_dotted hnames⟩
  · rintro ⟨cs, rfl, htail⟩
    exact LexicalGrammar.mem_path_iff.2 (exists_names_of_isPathTail htail [] rfl)

/-- A path that stands in front is part of what is read. -/
theorem isPathTail_front_fields {afterDot : Bool} {cs text : List Char} (hfront : text <+: cs)
    (h : isPathTail afterDot text) : text <+: (fields afterDot cs).1 := by
  induction cs generalizing afterDot text with
  | nil =>
    obtain rfl := List.prefix_nil.1 hfront
    exact List.nil_prefix
  | cons c cs ih =>
    cases text with
    | nil => exact List.nil_prefix
    | cons d text =>
      obtain ⟨rfl, hcs⟩ := List.cons_prefix_cons.1 hfront
      cases afterDot with
      | true =>
        obtain ⟨hd, htail⟩ := Bool.and_eq_true_iff.1 h
        simpa [fields, hd] using ih hcs htail
      | false =>
        by_cases hdot : d = '.'
        · have htail : isPathTail true text := by simpa [isPathTail, hdot] using h
          simpa [fields, hdot] using ih hcs htail
        · have htail : Text.isWordChar d ∧ isPathTail false text := by
            simpa [isPathTail, hdot] using h
          have hbeq : (d == '.') = false := by simpa using hdot
          simpa [fields, htail.1, hbeq] using ih hcs htail.2

theorem not_isPathTail_concat (afterDot : Bool) (cs : List Char) :
    isPathTail afterDot (cs ++ ['.']) = false := by
  induction cs generalizing afterDot with
  | nil => cases afterDot <;> rfl
  | cons c cs ih =>
    rw [List.cons_append, isPathTail, ih, ih, Bool.and_false, Bool.and_false]
    simp

/-- A path does not end with a dot. -/
theorem ne_concat_of_mem_path {text front : List Char} (h : text ∈ Form.path.texts) :
    text ≠ front ++ ['.'] := by
  obtain ⟨cs, rfl, htail⟩ := mem_path_iff_isPathTail.1 h
  intro heq
  cases front with
  | nil =>
    obtain rfl : cs = [] := (List.cons.inj heq).2
    cases htail
  | cons d front =>
    obtain rfl : cs = front ++ ['.'] := (List.cons.inj heq).2
    rw [not_isPathTail_concat] at htail
    cases htail

/-- Behind a complete path no dot follows. -/
theorem head_ne_dot_of_complete {afterDot : Bool} {cs : List Char}
    (h : (fields afterDot cs).2.2 = true) : (fields afterDot cs).2.1.head? ≠ some '.' := by
  induction cs generalizing afterDot with
  | nil => simp [fields]
  | cons c cs ih =>
    cases afterDot with
    | true =>
      by_cases hc : Text.isWordStart c
      · simp only [fields, if_pos hc, if_true] at h ⊢
        exact ih h
      · simp [fields, hc] at h
    | false =>
      by_cases hc : Text.isWordChar c || c == '.'
      · simp only [fields, if_pos hc, Bool.false_eq_true, if_false] at h ⊢
        exact ih h
      · have hdot : c ≠ '.' := by
          rintro rfl
          exact hc (by decide)
        simpa [fields, hc] using hdot

/-- The scan of a path. -/
theorem munches_path (cs : List Char) : Munches '.' cs (path cs) := by
  have hread : ∀ text, text <+: '.' :: cs → text ∈ Form.path.texts →
      ∃ tail, text = '.' :: tail ∧ isPathTail true tail ∧ tail <+: (fields true cs).1 := by
    intro text hfront hform
    obtain ⟨tail, rfl, htail⟩ := mem_path_iff_isPathTail.1 hform
    exact ⟨tail, rfl, htail, isPathTail_front_fields (List.cons_prefix_cons.1 hfront).2 htail⟩
  have hsplit : '.' :: (fields true cs).1 ++ (fields true cs).2.1 = '.' :: cs :=
    congrArg (List.cons '.') (fields_eq true cs)
  cases hcomplete : (fields true cs).2.2 with
  | true =>
    have hpath : path cs = ⟨.ok (.path (String.ofList ('.' :: (fields true cs).1))),
        '.' :: (fields true cs).1, (fields true cs).2.1⟩ := if_pos hcomplete
    rw [hpath]
    refine .token .path (isLongest_of_opens rfl (by simp) ⟨_, hsplit⟩ ?_ ?_)
      (fun _ => head_ne_dot_of_complete hcomplete) rfl
    · exact mem_path_iff_isPathTail.2 ⟨_, rfl, isPathTail_fields hcomplete⟩
    · intro other hfront hform
      obtain ⟨tail, rfl, -, htail⟩ := hread other hfront hform
      exact Nat.succ_le_succ htail.length_le
  | false =>
    have hpath : path cs = ⟨.error .missingFieldName, '.' :: (fields true cs).1,
        (fields true cs).2.1⟩ := if_neg (by simp [hcomplete])
    obtain ⟨⟨names, heq, hnames⟩, -⟩ := exists_names_fields hcomplete [] rfl
    rw [List.nil_append] at heq
    -- What is read ends with a dot, and a path does not: a path in front is shorter.
    have hshort : ∀ other, other <+: '.' :: cs → other ∈ Form.path.texts →
        other.length ≤ (dotted names).length := by
      intro other hfront hform
      obtain ⟨tail, rfl, -, hle⟩ := hread other hfront hform
      have hlead : '.' :: tail <+: dotted names ++ ['.'] := by
        rw [← heq]
        exact List.cons_prefix_cons.2 ⟨rfl, hle⟩
      rcases List.prefix_concat_iff.1 hlead with hend | hlead
      · exact absurd hend (ne_concat_of_mem_path hform)
      · exact hlead.length_le
    rw [hpath]
    cases names with
    | nil =>
      refine .unmatched (not_hasMatch_of_opens (f := .path) rfl (by simp) ?_) rfl
      intro text hfront hform
      obtain ⟨tail, rfl, -⟩ := hread text hfront hform
      exact absurd (hshort _ hfront hform) (by simp [dotted])
    | cons name names =>
      refine .dangling (dotted (name :: names)) (isLongest_of_opens rfl (by simp) ?_ ?_ hshort) heq rfl
      · rw [← hsplit, heq, List.append_assoc]
        exact List.prefix_append _ _
      · exact LexicalGrammar.mem_path_iff.2 ⟨name :: names, by simp, rfl, hnames⟩

end Scan

/-! ## Scans and calls -/

/-- A character that is no mark, no digit and no letter starts no token. -/
theorem not_hasMatch_of_stray {c : Char} (hmark : c ∉ marks) (hdigit : ¬ c.isDigit)
    (hword : ¬ Text.isWordStart c) (cs : List Char) : ¬ HasMatch (c :: cs) := by
  rintro ⟨g, text, hfront, hform⟩
  have hopens := Form.opens_of_front hfront hform
  cases g with
  | word => exact hword hopens
  | number =>
    rcases hopens with rfl | hd
    · exact hmark (by decide)
    · exact hdigit hd
  | operator op => rcases hopens with rfl | rfl | rfl | rfl <;> exact hmark (by decide)
  | _ =>
    obtain rfl := hopens
    exact hmark (by decide)

theorem LexicalCause.ofUnmatched_of_not_mem_marks {c : Char} (hmark : c ∉ marks) :
    ofUnmatched c = unexpectedChar c := by
  have hdot : c ≠ '.' := by
    rintro rfl
    exact hmark (by decide)
  have hquote : c ≠ '"' := by
    rintro rfl
    exact hmark (by decide)
  rw [ofUnmatched, if_neg hdot, if_neg hquote]

/-- **A scan reads the longest text.**  The first character says which lemma applies. -/
theorem scan_munches (c : Char) (cs : List Char) : Munches c cs (scan c cs) := by
  by_cases hmark : c ∈ marks
  · simp only [marks, List.mem_cons, List.not_mem_nil, or_false] at hmark
    rcases hmark with rfl | rfl | rfl | rfl | rfl | rfl | rfl | rfl
    · refine .token .comma (isLongest_of_opens rfl (by simp) ⟨cs, rfl⟩ rfl ?_) (by simp) rfl
      rintro other - ⟨⟩
      exact Nat.le_refl _
    · exact Scan.munches_path cs
    · exact Scan.munches_string cs
    · exact Scan.munches_operator_error (Or.inl rfl) rfl cs
    · exact Scan.munches_operator_error (Or.inr rfl) rfl cs
    · exact Scan.munches_operator rfl rfl cs
    · exact Scan.munches_operator rfl rfl cs
    · by_cases hdigit : ∃ d ∈ cs.head?, d.isDigit
      · have hscan : scan '-' cs = .number ['-'] cs := if_pos ((Option.any_eq_true ..).2 hdigit)
        rw [hscan]
        exact Scan.munches_number rfl (Or.inr rfl) hdigit
      · have hscan : scan '-' cs = .single (.error (.unexpectedChar '-')) '-' cs :=
          if_neg fun hany => hdigit ((Option.any_eq_true ..).1 hany)
        rw [hscan]
        exact .unmatched (Scan.not_hasMatch_minus hdigit) rfl
  · rw [scan_of_not_mem_marks hmark]
    split
    next hdigit => exact Scan.munches_number rfl (Or.inl rfl) ⟨c, rfl, hdigit⟩
    next hdigit =>
      split
      next hword => exact Scan.munches_word hword cs
      next hword =>
        refine .unmatched (not_hasMatch_of_stray hmark hdigit hword cs) ?_
        rw [LexicalCause.ofUnmatched_of_not_mem_marks hmark]
        rfl

/-- What a call on `c :: cs` reads is what is scanned there. -/
theorem Cursor.next_eq_scan {c : Char} (hc : Text.isBlank c = false) (cs : List Char)
    (p : Position) :
    (∀ t, (scan c cs).result = .ok t → (Cursor.mk (c :: cs) p).next.1.content = .inl t) ∧
      (∀ cause, (scan c cs).result = .error cause →
        (Cursor.mk (c :: cs) p).next.1.content = .inr cause) ∧
      (Cursor.mk (c :: cs) p).next.2.rest = (scan c cs).rest := by
  have hgap : ∀ d ∈ ([] : List Char), Text.isBlank d := by simp
  have hnext : (Cursor.mk (c :: cs) p).next = _ := (next_scan hgap hc cs p).2
  rw [hnext]
  refine ⟨fun t ht => ?_, fun cause hcause => ?_, rfl⟩
  · rw [Lexeme.content, Scan.lexeme, ht]
    rfl
  · rw [Lexeme.content, Scan.lexeme, hcause]
    rfl

/-- **A call reads the longest text** in front that has the form of a token, and leaves what stands
behind it.  Only a path with a dot behind it is not read: a field name is missing there.  Where no
text in front has the form of a token, the first character tells what is wrong. -/
theorem next_reads_longest {c : Char} (hc : Text.isBlank c = false) (cs : List Char)
    (p : Position) :
    (HasMatch (c :: cs) → (∃ f text, IsLongest (c :: cs) f text) ∧
      ∀ f text, IsLongest (c :: cs) f text →
        if f = .path ∧ text ++ ['.'] <+: c :: cs then
          (Cursor.mk (c :: cs) p).next.1.content = .inr .missingFieldName
        else (Cursor.mk (c :: cs) p).next.1.content = .inl (f.token text) ∧
          (Cursor.mk (c :: cs) p).next.2.rest = (c :: cs).drop text.length) ∧
    (¬ HasMatch (c :: cs) → (Cursor.mk (c :: cs) p).next.1.content =
      .inr (if c = '.' then .missingFieldName else if c = '"' then .unterminatedString
        else .unexpectedChar c)) := by
  obtain ⟨hok, herror, hrest⟩ := Cursor.next_eq_scan hc cs p
  have hsplit := scan_eq c cs
  cases scan_munches c cs with
  | token f hlongest hclosed hresult =>
    refine ⟨fun _ => ⟨⟨f, _, hlongest⟩, ?_⟩, fun hnone => absurd hlongest.hasMatch hnone⟩
    intro g text htext
    obtain ⟨rfl, rfl⟩ := htext.unique hlongest
    have hdot : ¬ (g = .path ∧ (scan c cs).taken ++ ['.'] <+: c :: cs) := by
      rintro ⟨hpath, hfront⟩
      rw [← hsplit, List.prefix_append_right_inj] at hfront
      obtain ⟨rest, hdot⟩ := hfront
      exact hclosed hpath (by rw [← hdot]; rfl)
    have hdrop : (c :: cs).drop (scan c cs).taken.length = (scan c cs).rest := by
      rw [← hsplit, List.drop_left]
    rw [if_neg hdot, hrest, hdrop]
    exact ⟨hok _ hresult, rfl⟩
  | dangling text hlongest htaken hresult =>
    refine ⟨fun _ => ⟨⟨.path, text, hlongest⟩, ?_⟩, fun hnone => absurd hlongest.hasMatch hnone⟩
    intro g other hother
    obtain ⟨rfl, rfl⟩ := hother.unique hlongest
    have hdot : other ++ ['.'] <+: c :: cs := by
      rw [← htaken, ← hsplit]
      exact List.prefix_append _ _
    rw [if_pos ⟨rfl, hdot⟩]
    exact herror _ hresult
  | unmatched hnone hresult =>
    exact ⟨fun hmatch => absurd hmatch hnone, fun _ => herror _ hresult⟩

/-- A second point ends a number, and an equals sign alone is no operator. -/
theorem next_reads_longest_decimal :
    (Text.isBlank '1' = false ∧ IsLongest ['1', '.', '2', '.', '3'] .number ['1', '.', '2'] ∧
      (Cursor.mk ['1', '.', '2', '.', '3'] .first).next.1.content = .inl (.number "1.2") ∧
      (Cursor.mk ['1', '.', '2', '.', '3'] .first).next.2.rest = ['.', '3']) ∧
    (Text.isBlank '=' = false ∧ ¬ HasMatch ['=', 'x'] ∧
      (Cursor.mk ['=', 'x'] .first).next.1.content = .inr (.unexpectedChar '=')) := by
  have hlongest : IsLongest ['1', '.', '2', '.', '3'] .number ['1', '.', '2'] := by
    have hinput : ['1', '.', '2', '.', '3'] = [] ++ ['1', '.', '2', '.', '3'] := rfl
    exact Scan.isLongest_number hinput (Or.inl rfl) ⟨'1', rfl, by decide⟩
  have hnone : ¬ HasMatch ['=', 'x'] := by
    rintro ⟨g, text, hfront, hform⟩
    have hsingle := (Scan.eq_singleton_of_front (Or.inl rfl) (by simp) hfront hform).2
    revert hsingle
    decide
  constructor
  · have hread := (next_reads_longest (by decide) ['.', '2', '.', '3'] .first).1 hlongest.hasMatch
    exact ⟨by decide, hlongest, (hread.2 .number _ hlongest).1, (hread.2 .number _ hlongest).2⟩
  · exact ⟨by decide, hnone, (next_reads_longest (by decide) ['x'] .first).2 hnone⟩

end QueryPipeline
