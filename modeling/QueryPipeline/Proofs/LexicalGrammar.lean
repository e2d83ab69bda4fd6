/-
# The lexical grammar

The forms of tokens as regular languages, said without the lexer: classes of
characters, put together by union, concatenation and repetition.

* `Form.texts` : the texts of a form; `Form.token` : the token that such a text is;
* `mem_word_iff`, `mem_string_iff`, `mem_number_iff`, `mem_path_iff` : the texts of a form
  as the other modules know them;
* `Form.Opens` : how the texts of a form start; `Form.eq_of_mem` : no text has two forms.
-/
import Mathlib.Computability.Language
import QueryPipeline.Proofs.Partition

open scoped Computability

namespace QueryPipeline

namespace LexicalGrammar

/-! ## Patterns -/

/-- A single character of a class. -/
def one (p : Char → Prop) : Language Char := {cs | ∃ c, cs = [c] ∧ p c}

/-- A single character between two others, which are included. -/
def between (a b : Char) : Language Char := one fun c => a ≤ c ∧ c ≤ b

/-- A fixed text. -/
def literal (s : String) : Language Char := {s.toList}

/-- One or more texts of a language, one after the other. -/
def oneOrMore (l : Language Char) : Language Char := l * l∗

/-- A digit: `[0-9]`. -/
def digit : Language Char := between '0' '9'

/-- A letter: `[A-Za-z_]`. -/
def letter : Language Char := between 'A' 'Z' + between 'a' 'z' + literal "_"

/-- Words: `[A-Za-z_][A-Za-z0-9_]*`. -/
def word : Language Char := letter * (letter + digit)∗

/-- A quote, characters other than a quote and a line feed, a quote. -/
def string : Language Char := literal "\"" * (one fun c => c ≠ '"' ∧ c ≠ '\n')∗ * literal "\""

/-- Numbers: `-?[0-9]+(\.[0-9]+)?`. -/
def number : Language Char :=
  (1 + literal "-") * oneOrMore digit * (1 + literal "." * oneOrMore digit)

/-- Paths: `(\.word)+`. -/
def path : Language Char := oneOrMore (literal "." * word)

/-! ## Classes of characters -/

/-- A repeated class is a text of characters of that class. -/
theorem mem_kstar_one_iff {p : Char → Prop} {cs : List Char} : cs ∈ (one p)∗ ↔ ∀ c ∈ cs, p c := by
  constructor
  · rintro ⟨parts, rfl, hparts⟩ c hc
    obtain ⟨part, hpart, hc⟩ := List.mem_flatten.1 hc
    obtain ⟨d, rfl, hd⟩ := hparts part hpart
    obtain rfl := List.mem_singleton.1 hc
    exact hd
  · intro h
    refine ⟨cs.map fun c => [c], ?_, ?_⟩
    · rw [← List.flatMap_def, List.flatMap_singleton']
    · intro part hpart
      obtain ⟨c, hc, rfl⟩ := List.mem_map.1 hpart
      exact ⟨c, rfl, h c hc⟩

theorem mem_oneOrMore_one_iff {p : Char → Prop} {cs : List Char} :
    cs ∈ oneOrMore (one p) ↔ cs ≠ [] ∧ ∀ c ∈ cs, p c := by
  rw [oneOrMore, Language.mem_mul]
  constructor
  · rintro ⟨_, ⟨c, rfl, hc⟩, ds, hds, rfl⟩
    refine ⟨by simp, List.forall_mem_cons.2 ⟨hc, mem_kstar_one_iff.1 hds⟩⟩
  · rintro ⟨hne, hall⟩
    obtain ⟨c, ds, rfl⟩ := List.exists_cons_of_ne_nil hne
    obtain ⟨hc, hds⟩ := List.forall_mem_cons.1 hall
    exact ⟨[c], ⟨c, rfl, hc⟩, ds, mem_kstar_one_iff.2 hds, rfl⟩

theorem digit_eq : digit = one fun c => c.isDigit := by
  ext cs
  refine exists_congr fun c => and_congr_right fun _ => ?_
  exact Text.isDigit_iff.symm

theorem letter_eq : letter = one fun c => Text.isWordStart c := by
  have hunderscore : ∀ c : Char, c = '_' ↔ c.toNat = 95 := fun c => Char.toNat_inj.symm
  ext cs
  constructor
  · rintro ((⟨c, rfl, hc⟩ | ⟨c, rfl, hc⟩) | rfl)
    · exact ⟨c, rfl, Text.isWordStart_iff.2 (Or.inl hc)⟩
    · exact ⟨c, rfl, Text.isWordStart_iff.2 (Or.inr (Or.inr hc))⟩
    · exact ⟨'_', rfl, by decide⟩
  · rintro ⟨c, rfl, hc⟩
    rcases Text.isWordStart_iff.1 hc with hc | hc | hc
    · exact Or.inl (Or.inl ⟨c, rfl, hc⟩)
    · obtain rfl := (hunderscore c).2 hc
      exact Or.inr rfl
    · exact Or.inl (Or.inr ⟨c, rfl, hc⟩)

theorem letter_add_digit_eq : letter + digit = one fun c => Text.isWordChar c := by
  rw [letter_eq, digit_eq]
  ext cs
  have hclass : ∀ c, Text.isWordChar c ↔ Text.isWordStart c ∨ c.isDigit := by
    intro c
    rw [Text.isWordChar_iff, Text.isWordStart_iff, Text.isDigit_iff]
    omega
  constructor
  · rintro (⟨c, rfl, hc⟩ | ⟨c, rfl, hc⟩)
    · exact ⟨c, rfl, (hclass c).2 (Or.inl hc)⟩
    · exact ⟨c, rfl, (hclass c).2 (Or.inr hc)⟩
  · rintro ⟨c, rfl, hc⟩
    rcases (hclass c).1 hc with hc | hc
    · exact Or.inl ⟨c, rfl, hc⟩
    · exact Or.inr ⟨c, rfl, hc⟩

/-! ## The texts of the patterns -/

theorem mem_word_iff {cs : List Char} : cs ∈ word ↔ Text.isWord cs := by
  rw [word, letter_add_digit_eq, letter_eq, Language.mem_mul]
  constructor
  · rintro ⟨_, ⟨c, rfl, hc⟩, ds, hds, rfl⟩
    have hall : ds.all Text.isWordChar := List.all_eq_true.2 (mem_kstar_one_iff.1 hds)
    simp [Text.isWord, hc, hall]
  · intro h
    cases cs with
    | nil => cases h
    | cons c ds =>
      obtain ⟨hc, hds⟩ := Bool.and_eq_true_iff.1 h
      exact ⟨[c], ⟨c, rfl, hc⟩, ds, mem_kstar_one_iff.2 (List.all_eq_true.1 hds), rfl⟩

theorem mem_string_iff {cs : List Char} :
    cs ∈ string ↔ ∃ body, cs = '"' :: (body ++ ['"']) ∧ Text.isPlain body := by
  have hplain : ∀ body : List Char,
      Text.isPlain body ↔ ∀ c ∈ body, c ≠ '"' ∧ c ≠ '\n' := by
    intro body
    simp [Text.isPlain]
  rw [string, Language.mem_mul]
  constructor
  · rintro ⟨_, ⟨_, rfl, body, hbody, rfl⟩, _, rfl, rfl⟩
    exact ⟨body, rfl, (hplain body).2 (mem_kstar_one_iff.1 hbody)⟩
  · rintro ⟨body, rfl, hbody⟩
    have hstar := mem_kstar_one_iff.2 ((hplain body).1 hbody)
    exact ⟨'"' :: body, ⟨['"'], rfl, body, hstar, rfl⟩, ['"'], rfl, rfl⟩

theorem mem_number_iff {cs : List Char} :
    cs ∈ number ↔ ∃ sign whole fraction, cs = sign ++ (whole ++ fraction) ∧
      (sign = [] ∨ sign = ['-']) ∧ UnsignedParts Char.isDigit whole fraction := by
  rw [number, digit_eq, Language.mem_mul]
  constructor
  · rintro ⟨_, ⟨sign, hsign, whole, hwhole, rfl⟩, fraction, hfraction, rfl⟩
    obtain ⟨hne, hdigits⟩ := mem_oneOrMore_one_iff.1 hwhole
    refine ⟨sign, whole, fraction, List.append_assoc .., hsign, hne, hdigits, ?_⟩
    rcases hfraction with hnil | ⟨_, rfl, ds, hds, rfl⟩
    · exact Or.inl hnil
    · exact Or.inr ⟨ds, rfl, mem_oneOrMore_one_iff.1 hds⟩
  · rintro ⟨sign, whole, fraction, rfl, hsign, hparts⟩
    have hwhole := mem_oneOrMore_one_iff.2 ⟨hparts.ne_nil, hparts.digits⟩
    refine ⟨sign ++ whole, ⟨sign, hsign, whole, hwhole, rfl⟩, fraction, ?_, List.append_assoc ..⟩
    rcases hparts.point with hnil | ⟨ds, rfl, hds⟩
    · exact Or.inl hnil
    · exact Or.inr ⟨['.'], rfl, ds, mem_oneOrMore_one_iff.2 hds, rfl⟩

/-- A name behind a mark. -/
theorem mem_literal_mul_word_iff {mark : String} {cs : List Char} :
    cs ∈ literal mark * word ↔ ∃ name, cs = mark.toList ++ name ∧ Text.isWord name := by
  constructor
  · rintro ⟨_, rfl, name, hname, rfl⟩
    exact ⟨name, rfl, mem_word_iff.1 hname⟩
  · rintro ⟨name, rfl, hname⟩
    exact ⟨mark.toList, rfl, name, mem_word_iff.2 hname, rfl⟩

/-- The texts of repeated names behind marks. -/
theorem mem_kstar_literal_mul_word_iff {mark : String} {cs : List Char} :
    cs ∈ (literal mark * word)∗ ↔ ∃ names : List (List Char),
      cs = names.flatMap (fun name => mark.toList ++ name) ∧ ∀ name ∈ names, Text.isWord name := by
  constructor
  · rintro ⟨parts, rfl, hparts⟩
    induction parts with
    | nil => exact ⟨[], rfl, by simp⟩
    | cons part parts ih =>
      rw [List.forall_mem_cons] at hparts
      obtain ⟨name, rfl, hname⟩ := mem_literal_mul_word_iff.1 hparts.1
      obtain ⟨names, heq, hnames⟩ := ih hparts.2
      refine ⟨name :: names, ?_, List.forall_mem_cons.2 ⟨hname, hnames⟩⟩
      rw [List.flatten_cons, heq, List.flatMap_cons]
  · rintro ⟨names, rfl, hnames⟩
    refine ⟨names.map fun name => mark.toList ++ name, List.flatMap_def, ?_⟩
    intro part hpart
    obtain ⟨name, hname, rfl⟩ := List.mem_map.1 hpart
    exact mem_literal_mul_word_iff.2 ⟨name, rfl, hnames name hname⟩

theorem mem_path_iff {cs : List Char} :
    cs ∈ path ↔ ∃ names, names ≠ [] ∧ cs = dotted names ∧ ∀ name ∈ names, Text.isWord name := by
  rw [path, oneOrMore, Language.mem_mul]
  constructor
  · rintro ⟨first, hfirst, rest, hrest, rfl⟩
    obtain ⟨name, rfl, hname⟩ := mem_literal_mul_word_iff.1 hfirst
    obtain ⟨names, rfl, hnames⟩ := mem_kstar_literal_mul_word_iff.1 hrest
    exact ⟨name :: names, by simp, rfl, List.forall_mem_cons.2 ⟨hname, hnames⟩⟩
  · rintro ⟨names, hne, rfl, hnames⟩
    obtain ⟨name, names, rfl⟩ := List.exists_cons_of_ne_nil hne
    obtain ⟨hname, hnames⟩ := List.forall_mem_cons.1 hnames
    exact ⟨'.' :: name, mem_literal_mul_word_iff.2 ⟨name, rfl, hname⟩, dotted names,
      mem_kstar_literal_mul_word_iff.2 ⟨names, rfl, hnames⟩, rfl⟩

end LexicalGrammar

/-! ## Forms -/

/-- The forms of tokens.  Each operator is a form of its own. -/
inductive Form where
  | string
  | number
  | word
  | path
  | operator (op : Comparison)
  | comma
  deriving DecidableEq

/-- The words that are no identifiers. -/
def keywords : List (String × Token) :=
  [("LOAD", .load), ("FILTER", .filter), ("SELECT", .select), ("SAVE", .save), ("AS", .asWord)]

/-- Operators are told apart by their spelling. -/
theorem Comparison.spelling_injective : Function.Injective spelling := by
  intro op op' h
  cases op <;> cases op' <;> revert h <;> decide

namespace Form

/-- The texts of a form. -/
def texts : Form → Language Char
  | string => LexicalGrammar.string
  | number => LexicalGrammar.number
  | word => LexicalGrammar.word
  | path => LexicalGrammar.path
  | operator op => LexicalGrammar.literal op.spelling
  | comma => LexicalGrammar.literal ","

/-- The token that a text of a form is.  A word is a keyword or an identifier. -/
def token (f : Form) (text : List Char) : Token :=
  match f with
  | string => .string (String.ofList text)
  | number => .number (String.ofList text)
  | word => (keywords.lookup (String.ofList text)).getD (.identifier (String.ofList text))
  | path => .path (String.ofList text)
  | operator op => .operator op
  | comma => .comma

theorem token_word (text : List Char) : word.token text = Token.ofWord (String.ofList text) := by
  simp only [token, keywords, List.lookup_cons, List.lookup_nil, Token.ofWord]
  grind

/-- A text of the form may start with the character. -/
def Opens : Form → Char → Prop
  | string, c => c = '"'
  | number, c => c = '-' ∨ c.isDigit
  | word, c => Text.isWordStart c
  | path, c => c = '.'
  | operator _, c => c = '=' ∨ c = '!' ∨ c = '<' ∨ c = '>'
  | comma, c => c = ','

/-- A text of a form is not empty, and starts with a character that may open it. -/
theorem exists_opens_of_mem {f : Form} {text : List Char} (h : text ∈ f.texts) :
    ∃ c cs, text = c :: cs ∧ f.Opens c := by
  cases f with
  | string =>
    obtain ⟨body, rfl, -⟩ := LexicalGrammar.mem_string_iff.1 h
    exact ⟨'"', _, rfl, rfl⟩
  | number =>
    obtain ⟨sign, whole, fraction, rfl, hsign, hparts⟩ := LexicalGrammar.mem_number_iff.1 h
    obtain ⟨d, ds, rfl⟩ := List.exists_cons_of_ne_nil hparts.ne_nil
    rcases hsign with rfl | rfl
    · exact ⟨d, _, rfl, Or.inr (hparts.digits d (by simp))⟩
    · exact ⟨'-', _, rfl, Or.inl rfl⟩
  | word =>
    have hword : Text.isWord text := LexicalGrammar.mem_word_iff.1 h
    cases text with
    | nil => cases hword
    | cons c cs => exact ⟨c, cs, rfl, (Bool.and_eq_true_iff.1 hword).1⟩
  | path =>
    obtain ⟨names, hne, rfl, -⟩ := LexicalGrammar.mem_path_iff.1 h
    obtain ⟨name, names, rfl⟩ := List.exists_cons_of_ne_nil hne
    exact ⟨'.', _, rfl, rfl⟩
  | operator op =>
    obtain rfl : text = op.spelling.toList := h
    cases op with
    | eq => exact ⟨'=', ['='], rfl, Or.inl rfl⟩
    | ne => exact ⟨'!', ['='], rfl, Or.inr (Or.inl rfl)⟩
    | lt => exact ⟨'<', [], rfl, Or.inr (Or.inr (Or.inl rfl))⟩
    | gt => exact ⟨'>', [], rfl, Or.inr (Or.inr (Or.inr rfl))⟩
    | le => exact ⟨'<', ['='], rfl, Or.inr (Or.inr (Or.inl rfl))⟩
    | ge => exact ⟨'>', ['='], rfl, Or.inr (Or.inr (Or.inr rfl))⟩
  | comma =>
    obtain rfl : text = [','] := h
    exact ⟨',', [], rfl, rfl⟩

/-- The first character tells the form, operators apart. -/
theorem eq_of_opens {f g : Form} {c : Char} (hf : f.Opens c) (hg : g.Opens c) :
    f = g ∨ ∃ op op', f = operator op ∧ g = operator op' := by
  -- By their code points, the classes have no character in common.
  cases f <;> cases g <;>
    simp [Opens, ← Char.toNat_inj, Text.isDigit_iff, Text.isWordStart_iff] at hf hg ⊢ <;> omega

/-- **No text has two forms.** -/
theorem eq_of_mem {f g : Form} {text : List Char} (hf : text ∈ f.texts) (hg : text ∈ g.texts) :
    f = g := by
  obtain ⟨c, cs, rfl, hopens⟩ := exists_opens_of_mem hf
  obtain ⟨d, ds, heq, hopens'⟩ := exists_opens_of_mem hg
  obtain ⟨rfl, rfl⟩ := List.cons.inj heq
  rcases eq_of_opens hopens hopens' with rfl | ⟨op, op', rfl, rfl⟩
  · rfl
  · have hspelling : op.spelling.toList = op'.spelling.toList := hf.symm.trans hg
    rw [Comparison.spelling_injective (String.toList_inj.1 hspelling)]

end Form

end QueryPipeline
