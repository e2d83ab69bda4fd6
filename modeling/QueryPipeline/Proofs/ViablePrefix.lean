/-
# Beginnings of a clause

Some tokens are viable if a clause can still come of them: they are the first tokens of
some complete clause.  Whether they are can be decided by looking at one clause only,
the one whose missing words are filled in (`Clause.completing`).

* `isViable_iff`, `isClause_iff` : the tokens of a clause, and beginnings of them, are
  told from the completed clause;
* `expectedAfter` : what the grammar asks for behind a beginning;
* `Parser.Draft.isViable_append_iff` : a draft of the parser is taken further by the
  tokens that it expects, and by no other.
-/
import QueryPipeline.Proofs.Grammar

namespace QueryPipeline

/-! ## Viable beginnings -/

/-- The tokens are exactly those of a clause. -/
def IsClause (tokens : List Token) : Prop :=
  ∃ clause : Clause, clause.isComplete ∧ tokens = clause.tokens

/-- The tokens can be continued to a clause. -/
def IsViable (tokens : List Token) : Prop :=
  ∃ clause : Clause, clause.isComplete ∧ tokens <+: clause.tokens

theorem IsClause.isViable {tokens : List Token} (h : IsClause tokens) : IsViable tokens := by
  obtain ⟨clause, hclause, rfl⟩ := h
  exact ⟨clause, hclause, List.prefix_rfl⟩

theorem isClause_of_closed {clause : Clause} (h : ∀ fields, clause ≠ .select fields) :
    IsClause clause.tokens :=
  ⟨clause, Clause.isComplete_of_closed h, rfl⟩

theorem isClause_select {fields : List String} (h : fields ≠ []) :
    IsClause (.select :: fieldTokens fields) :=
  ⟨.select fields, by simpa [Clause.isComplete] using h, rfl⟩

theorem IsViable.of_front {tokens front : List Token} (h : IsViable tokens)
    (hfront : front <+: tokens) : IsViable front := by
  obtain ⟨clause, hclause, hbegins⟩ := h
  exact ⟨clause, hclause, hfront.trans hbegins⟩

/-- A clause opens with a keyword. -/
theorem IsViable.startsCommand {t : Token} {tokens : List Token} (h : IsViable (t :: tokens)) :
    t.startsCommand := by
  obtain ⟨clause, -, hbegins⟩ := h
  obtain ⟨keyword, tail, htokens, hkeyword, -⟩ := clause.exists_keyword
  rw [htokens, List.cons_prefix_cons] at hbegins
  rw [hbegins.1]
  exact hkeyword

/-- What continues a clause is neither a keyword nor the end of the text. -/
theorem IsViable.plain {read : List Token} (hread : read ≠ []) {t : Token}
    (h : IsViable (read ++ [t])) : t.startsCommand = false ∧ t ≠ .eof := by
  obtain ⟨clause, -, hbegins⟩ := h
  have hmem : t ∈ clause.tokens := hbegins.subset (by simp)
  refine ⟨?_, Clause.ne_eof_of_mem_tokens hmem⟩
  obtain ⟨keyword, tail, htokens, -, htail⟩ := clause.exists_keyword
  obtain ⟨first, read, rfl⟩ := List.exists_cons_of_ne_nil hread
  rw [htokens, List.cons_append, List.cons_prefix_cons] at hbegins
  exact htail t (hbegins.2.subset (by simp))

/-! ## Viability is decidable -/

/-- The value that a token is, or any. -/
def valueOr (t? : Option Token) : Value := (t?.bind Token.value?).getD (.path "")

/-- The operator that a token is, or any. -/
def operatorOr : Option Token → Comparison
  | some (.operator op) => op
  | _ => .eq

/-- The string that a token is, or any. -/
def stringOr : Option Token → String
  | some (.string text) => text
  | _ => ""

/-- The fields that some tokens list, with the one that is still due. -/
def fieldsDue : List Token → List String
  | .path field :: .comma :: rest => field :: fieldsDue rest
  | .path field :: _ => [field]
  | _ => [""]

/-- The clause that some tokens begin, with its missing words filled in. -/
def Clause.completing : List Token → Clause
  | .filter :: rest => .filter (valueOr rest[0]?) (operatorOr rest[1]?) (valueOr rest[2]?)
  | .select :: rest => .select (fieldsDue rest)
  | .save :: rest => .save (stringOr rest[1]?)
  | tokens => .load (stringOr tokens[1]?)

@[simp] theorem valueOr_token (v : Value) : valueOr (some v.token) = v := by
  simp [valueOr]

theorem fieldTokens_cons_cons (f g : String) (fields : List String) :
    fieldTokens (f :: g :: fields) = .path f :: .comma :: fieldTokens (g :: fields) := rfl

theorem fieldsDue_ne_nil (tokens : List Token) : fieldsDue tokens ≠ [] := by
  unfold fieldsDue
  split <;> simp

/-- Filling in makes a complete clause. -/
theorem Clause.isComplete_completing (tokens : List Token) : (completing tokens).isComplete := by
  unfold completing
  split
  · rfl
  · simpa [isComplete] using fieldsDue_ne_nil _
  · rfl
  · rfl

theorem fieldsDue_fieldTokens {fields : List String} (h : fields ≠ []) :
    fieldsDue (fieldTokens fields) = fields := by
  induction fields with
  | nil => exact absurd rfl h
  | cons f fields ih =>
    cases fields with
    | nil => rfl
    | cons g fields =>
      rw [fieldTokens_cons_cons, fieldsDue, ih (by simp)]

/-- A beginning of some fields begins the fields that it lists. -/
theorem prefix_fieldTokens_fieldsDue {fields : List String} {tokens : List Token}
    (h : tokens <+: fieldTokens fields) : tokens <+: fieldTokens (fieldsDue tokens) := by
  induction fields generalizing tokens with
  | nil =>
    obtain rfl := List.prefix_nil.1 h
    exact List.nil_prefix
  | cons f fields ih =>
    cases fields with
    | nil =>
      rcases List.prefix_cons_iff.1 h with rfl | ⟨rest, rfl, hrest⟩
      · exact List.nil_prefix
      · obtain rfl := List.prefix_nil.1 hrest
        exact List.prefix_rfl
    | cons g fields =>
      rw [fieldTokens_cons_cons] at h
      rcases List.prefix_cons_iff.1 h with rfl | ⟨_, rfl, hcomma⟩
      · exact List.nil_prefix
      rcases List.prefix_cons_iff.1 hcomma with rfl | ⟨rest, rfl, hrest⟩
      · exact List.prefix_rfl
      · obtain ⟨due, dues, hdue⟩ := List.exists_cons_of_ne_nil (fieldsDue_ne_nil rest)
        have htail := ih hrest
        rw [hdue] at htail
        rw [fieldsDue, hdue, fieldTokens_cons_cons]
        exact (List.cons_prefix_cons).2 ⟨rfl, (List.cons_prefix_cons).2 ⟨rfl, htail⟩⟩

namespace Clause

/-- The tokens of a complete clause are completed to that clause. -/
theorem completing_tokens {clause : Clause} (h : clause.isComplete) :
    completing clause.tokens = clause := by
  cases clause with
  | load path => rfl
  | filter left op right => simp [tokens, completing, operatorOr]
  | select fields =>
    have hfields : fields ≠ [] := by simpa [isComplete] using h
    rw [tokens, completing, fieldsDue_fieldTokens hfields]
  | save path => rfl

/-- A beginning of a clause begins the clause that it is completed to. -/
theorem prefix_tokens_completing {clause : Clause} {read : List Token}
    (h : read <+: clause.tokens) : read <+: (completing read).tokens := by
  cases clause with
  | load path =>
    simp only [tokens, List.prefix_cons_iff, List.prefix_nil] at h
    rcases h with rfl | ⟨_, rfl, rfl | ⟨_, rfl, rfl⟩⟩
    · exact List.nil_prefix
    · exact ⟨_, rfl⟩
    · exact List.prefix_rfl
  | filter left op right =>
    simp only [tokens, List.prefix_cons_iff, List.prefix_nil] at h
    rcases h with rfl | ⟨_, rfl, rfl | ⟨_, rfl, rfl | ⟨_, rfl, rfl | ⟨_, rfl, rfl⟩⟩⟩⟩
    · exact List.nil_prefix
    · exact ⟨_, rfl⟩
    · simp [completing, tokens]
    · simp [completing, tokens, operatorOr]
    · simp [completing, tokens, operatorOr]
  | select fields =>
    rcases List.prefix_cons_iff.1 h with rfl | ⟨rest, rfl, hrest⟩
    · exact List.nil_prefix
    · exact (List.cons_prefix_cons).2 ⟨rfl, prefix_fieldTokens_fieldsDue hrest⟩
  | save path =>
    simp only [tokens, List.prefix_cons_iff, List.prefix_nil] at h
    rcases h with rfl | ⟨_, rfl, rfl | ⟨_, rfl, rfl | ⟨_, rfl, rfl⟩⟩⟩
    · exact List.nil_prefix
    · exact ⟨_, rfl⟩
    · exact ⟨_, rfl⟩
    · exact List.prefix_rfl

end Clause

/-- Tokens are viable if they begin the clause that they are completed to. -/
theorem isViable_iff (tokens : List Token) :
    IsViable tokens ↔ tokens <+: (Clause.completing tokens).tokens := by
  constructor
  · rintro ⟨clause, -, hbegins⟩
    exact Clause.prefix_tokens_completing hbegins
  · intro hbegins
    exact ⟨_, Clause.isComplete_completing tokens, hbegins⟩

/-- Tokens are a clause if nothing was missing. -/
theorem isClause_iff (tokens : List Token) :
    IsClause tokens ↔ tokens = (Clause.completing tokens).tokens := by
  constructor
  · rintro ⟨clause, hclause, rfl⟩
    rw [Clause.completing_tokens hclause]
  · intro heq
    exact ⟨_, Clause.isComplete_completing tokens, heq⟩

instance (tokens : List Token) : Decidable (IsViable tokens) :=
  decidable_of_iff _ (isViable_iff tokens).symm

instance (tokens : List Token) : Decidable (IsClause tokens) :=
  decidable_of_iff _ (isClause_iff tokens).symm

/-! ## What is expected -/

/-- The token is of the kind that is expected. -/
def Expectation.admits : Expectation → Token → Bool
  | keyword, t => t.startsCommand
  | value, t => t.value?.isSome
  | loadPath, .string _ => true
  | savePath, .string _ => true
  | comparison, .operator _ => true
  | field, .path _ => true
  | asWord, .asWord => true
  | _, _ => false

/-- What the grammar asks for behind the beginning of a clause.  In a SELECT it is a field, unless
the last token is one; then the clause is complete, as in all cases that are not listed, and a
keyword is due. -/
def expectedAfter : List Token → Expectation
  | [.load] => .loadPath
  | [.filter] => .value
  | [.filter, _] => .comparison
  | [.filter, _, _] => .value
  | .select :: fields =>
    match fields.getLast? with
    | some (.path _) => .keyword
    | _ => .field
  | [.save] => .asWord
  | [.save, _] => .savePath
  | _ => .keyword

/-- Behind a complete clause a keyword is due. -/
theorem expectedAfter_of_isClause {tokens : List Token} (h : IsClause tokens) :
    expectedAfter tokens = .keyword := by
  obtain ⟨clause, hclause, rfl⟩ := h
  cases clause with
  | load path => rfl
  | filter left op right => rfl
  | select fields =>
    have hfields : fields ≠ [] := by simpa [Clause.isComplete] using hclause
    obtain ⟨front, last, rfl⟩ := (List.eq_nil_or_concat fields).resolve_left hfields
    simp [Clause.tokens, expectedAfter, fieldTokens_concat]
  | save path => rfl

/-- Fields and commas alternate. -/
theorem getElem?_fieldTokens {fields : List String} {i : Nat} {t : Token}
    (h : (fieldTokens fields)[i]? = some t) :
    (i % 2 = 0 ∧ ∃ field, t = .path field) ∨ (i % 2 = 1 ∧ t = .comma) := by
  induction fields generalizing i with
  | nil => simp [fieldTokens] at h
  | cons f fields ih =>
    rcases i with _ | _ | i
    · exact Or.inl ⟨rfl, f, by simpa [fieldTokens] using h.symm⟩
    · cases fields with
      | nil => simp [fieldTokens] at h
      | cons g fields => exact Or.inr ⟨rfl, by simpa [fieldTokens_cons_cons] using h.symm⟩
    · -- Behind a field and its comma the alternation starts again.
      cases fields with
      | nil => simp [fieldTokens] at h
      | cons g fields =>
        rw [fieldTokens_cons_cons] at h
        have hmod : (i + 1 + 1) % 2 = i % 2 := Nat.add_mod_right i 2
        rw [hmod]
        exact ih h

/-- Each field with its comma is two tokens. -/
theorem length_fields_commas (fields : List String) :
    (fields.flatMap fun f => [Token.path f, Token.comma]).length = 2 * fields.length := by
  induction fields with
  | nil => rfl
  | cons f fields ih =>
    rw [List.flatMap_cons, List.length_append, ih, List.length_cons, List.length_cons,
      List.length_cons, List.length_nil]
    omega

theorem length_fieldTokens {fields : List String} (h : fields ≠ []) :
    (fieldTokens fields).length + 1 = 2 * fields.length := by
  rw [← length_fields_commas, ← fieldTokens_comma h, List.length_append, List.length_singleton]

/-- The token behind some tokens of a SELECT has its place among the fields. -/
theorem IsViable.getElem?_fieldTokens {tokens : List Token} {t : Token}
    (h : IsViable (.select :: tokens ++ [t])) :
    ∃ fields, (fieldTokens fields)[tokens.length]? = some t := by
  obtain ⟨clause, -, hbegins⟩ := h
  cases clause with
  | select fields =>
    refine ⟨fields, ?_⟩
    obtain ⟨rest, hrest⟩ := ((List.cons_prefix_cons).1 hbegins).2
    rw [← hrest]
    simp
  | _ => simp [Clause.tokens] at hbegins

namespace Parser

/-! ## The parser's drafts -/

/-- A draft is viable. -/
theorem Draft.isViable_read (draft : Draft) : IsViable draft.read := by
  rw [isViable_iff]
  cases draft with
  | load => exact ⟨_, rfl⟩
  | filter => exact ⟨_, rfl⟩
  | filterLeft left => simp [read, Clause.completing, Clause.tokens]
  | filterOp left op => simp [read, Clause.completing, Clause.tokens, operatorOr]
  | select fields =>
    rw [← isViable_iff]
    refine ⟨.select (fields ++ [""]), by simp [Clause.isComplete], ?_⟩
    rw [Clause.tokens, fieldTokens_concat]
    exact (List.cons_prefix_cons).2 ⟨rfl, List.prefix_append _ _⟩
  | save => exact ⟨_, rfl⟩
  | saveAs => exact ⟨_, rfl⟩

/-- A list of fields with a comma behind it is a draft. -/
theorem Draft.read_select {fields : List String} (h : fields ≠ []) :
    (Draft.select fields).read = .select :: fieldTokens fields ++ [.comma] := by
  rw [List.cons_append, fieldTokens_comma h]
  rfl

theorem Draft.read_ne_nil (draft : Draft) : draft.read ≠ [] := by
  cases draft <;> simp [read]

/-- A draft takes the tokens that it expects. -/
theorem Draft.isSome_extend? (draft : Draft) (line : Nat) (t : Token) :
    (draft.extend? line t).isSome = draft.expects.admits t := by
  cases draft <;> cases t <;> rfl

/-- What the grammar asks for behind a draft is what the draft expects. -/
theorem Draft.expectedAfter_read (draft : Draft) : expectedAfter draft.read = draft.expects := by
  cases draft with
  | select fields =>
    rcases List.eq_nil_or_concat fields with rfl | ⟨front, last, rfl⟩
    · rfl
    · simp [read, expectedAfter, expects]
  | _ => rfl

/-- **What takes a draft further is what it expects.** -/
theorem Draft.isViable_append_iff (draft : Draft) (t : Token) :
    IsViable (draft.read ++ [t]) ↔ draft.expects.admits t := by
  constructor
  · intro h
    cases draft with
    | select fields =>
      -- A field stands behind an even number of tokens.
      obtain ⟨fields', ht⟩ := h.getElem?_fieldTokens
      rcases QueryPipeline.getElem?_fieldTokens ht with ⟨-, field, rfl⟩ | ⟨hodd, -⟩
      · rfl
      · rw [length_fields_commas] at hodd
        omega
    | _ =>
      obtain ⟨clause, -, hbegins⟩ := h
      cases clause <;> simp [read, Clause.tokens, List.cons_prefix_cons] at hbegins
      all_goals simp [expects, Expectation.admits, hbegins]
  · intro h
    rw [← draft.isSome_extend? 0 t] at h
    cases draft.reading t with
    | refused hextend =>
      rw [hextend] at h
      cases h
    | completed clause hclosed _ htokens _ =>
      rw [htokens]
      exact (isClause_of_closed hclosed).isViable
    | continued next _ htokens _ =>
      rw [htokens]
      exact next.isViable_read
    | listed fields _ htokens hne _ =>
      rw [htokens]
      exact (isClause_select hne).isViable

/-- A draft is no clause yet. -/
theorem Draft.not_isClause_read (draft : Draft) : ¬ IsClause draft.read := by
  intro h
  have hkeyword := expectedAfter_of_isClause h
  rw [draft.expectedAfter_read] at hkeyword
  cases draft <;> cases hkeyword

end Parser

end QueryPipeline
