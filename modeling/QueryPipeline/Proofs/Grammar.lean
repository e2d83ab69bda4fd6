/-
# The grammar of programs

The grammar, said without the parser: each clause has its tokens, and a program is
spelt by the tokens of its clauses, one after the other, with the end token behind
them.  The parser accepts exactly the lexemes that spell a program, and yields the
one program that they spell:

* `spells_of_faultless` : lexemes without a fault spell the statements found in them;
* `events_of_spells` : lexemes that spell a program yield its statements and nothing
  else;
* `parse_eq_ok_iff_spells` : the two together, for a text.

The first is an invariant of the machine: the tokens read so far are those of the
statements completed so far and of the statement that is open (`State.read`).
-/
import QueryPipeline.Proofs.Lexing
import QueryPipeline.Statement.Parser

namespace QueryPipeline

/-! ## The tokens of a program -/

/-- The token of a value. -/
def Value.token : Value → Token
  | string text => .string text
  | number text => .number text
  | path text => .path text

/-- The tokens of some fields, with a comma between each two. -/
def fieldTokens : List String → List Token
  | [] => []
  | field :: fields => .path field :: fields.flatMap fun f => [.comma, .path f]

/-- The tokens of a clause, its keyword first. -/
def Clause.tokens : Clause → List Token
  | load path => [.load, .string path]
  | filter left op right => [.filter, left.token, .operator op, right.token]
  | select fields => .select :: fieldTokens fields
  | save path => [.save, .asWord, .string path]

/-- The grammar has no SELECT without a field. -/
def Clause.isComplete : Clause → Bool
  | select fields => !fields.isEmpty
  | _ => true

/-- Only a SELECT can lack something. -/
theorem Clause.isComplete_of_closed {clause : Clause} (h : ∀ fields, clause ≠ .select fields) :
    clause.isComplete := by
  cases clause with
  | select fields => exact absurd rfl (h fields)
  | _ => rfl

/-- The lexeme is a keyword that opens a statement. -/
def Lexeme.isKeyword (l : Lexeme) : Bool :=
  match l.result with
  | .ok t => t.startsCommand
  | .error _ => false

/-- The lines of the keywords among some lexemes. -/
def keywordLines (lexemes : List Lexeme) : List Nat :=
  (lexemes.filter Lexeme.isKeyword).map fun l => l.start.line

/-- The lexemes spell the program: no error is among them, their tokens are those of the statements
in order and then the end token, and the keywords stand on the lines of the statements. -/
structure Spells (program : List Statement) (lexemes : List Lexeme) : Prop where
  results : lexemes.map Lexeme.result =
    (program.flatMap fun s => s.item.tokens.map Except.ok) ++ [.ok .eof]
  lines : keywordLines lexemes = program.map Located.line
  complete : ∀ s ∈ program, s.item.isComplete

theorem keywordLines_ok (t : Token) (p : Position) (lexemes : List Lexeme) :
    keywordLines (⟨.ok t, p⟩ :: lexemes) =
      (if t.startsCommand then [p.line] else []) ++ keywordLines lexemes := by
  unfold keywordLines
  rw [List.filter_cons]
  cases h : t.startsCommand <;> simp [Lexeme.isKeyword, h]

theorem keywordLines_append (ls ms : List Lexeme) :
    keywordLines (ls ++ ms) = keywordLines ls ++ keywordLines ms := by
  simp [keywordLines]

/-- A list of lexemes whose results start with a token starts with the lexeme of that token. -/
theorem exists_lexeme_of_results {lexemes : List Lexeme} {t : Token}
    {results : List (Except LexicalError Token)}
    (h : lexemes.map Lexeme.result = .ok t :: results) :
    ∃ p rest, lexemes = ⟨.ok t, p⟩ :: rest ∧ rest.map Lexeme.result = results := by
  obtain ⟨⟨_, p⟩, rest, rfl, rfl, hrest⟩ := List.map_eq_cons_iff.1 h
  exact ⟨p, rest, rfl, hrest⟩

theorem keywordLines_eq_nil {tokens : List Token} (h : ∀ t ∈ tokens, t.startsCommand = false)
    {lexemes : List Lexeme} (hl : lexemes.map Lexeme.result = tokens.map Except.ok) :
    keywordLines lexemes = [] := by
  induction tokens generalizing lexemes with
  | nil =>
    obtain rfl := List.map_eq_nil_iff.1 hl
    rfl
  | cons t tokens ih =>
    obtain ⟨p, rest, rfl, htail⟩ := exists_lexeme_of_results hl
    rw [keywordLines_ok, h t (by simp), ih (fun t ht => h t (by simp [ht])) htail]
    rfl

/-- No keyword stands among fields. -/
theorem startsCommand_fieldTokens (fields : List String) :
    ∀ t ∈ fieldTokens fields, t.startsCommand = false := by
  cases fields with
  | nil => simp [fieldTokens]
  | cons f fs =>
    intro t ht
    simp only [fieldTokens, List.mem_cons, List.mem_flatMap, List.not_mem_nil, or_false] at ht
    rcases ht with rfl | ⟨g, -, rfl | rfl⟩ <;> rfl

theorem path_mem_fieldTokens {field : String} {fields : List String} (h : field ∈ fields) :
    .path field ∈ fieldTokens fields := by
  cases fields with
  | nil => simp at h
  | cons f fs => simpa [fieldTokens] using h

/-- The end of the text belongs to no clause. -/
theorem Clause.ne_eof_of_mem_tokens {clause : Clause} {t : Token} (h : t ∈ clause.tokens) :
    t ≠ .eof := by
  have hvalue : ∀ v : Value, v.token ≠ .eof := by
    intro v
    cases v <;> simp [Value.token]
  rintro rfl
  cases clause with
  | load path => simp [Clause.tokens] at h
  | filter left op right =>
    simp only [Clause.tokens, List.mem_cons, List.not_mem_nil, or_false] at h
    rcases h with h | h | h | h
    · cases h
    · exact hvalue left h.symm
    · cases h
    · exact hvalue right h.symm
  | select fields => cases fields <;> simp [Clause.tokens, fieldTokens] at h
  | save path => simp [Clause.tokens] at h

/-- A clause opens with its keyword and has no other. -/
theorem Clause.exists_keyword (clause : Clause) :
    ∃ keyword tail, clause.tokens = keyword :: tail ∧ keyword.startsCommand ∧
      ∀ t ∈ tail, t.startsCommand = false := by
  cases clause with
  | load path => exact ⟨.load, [.string path], rfl, rfl, by simp [Token.startsCommand]⟩
  | filter left op right =>
    refine ⟨.filter, [left.token, .operator op, right.token], rfl, rfl, ?_⟩
    cases left <;> cases right <;> simp [Token.startsCommand, Value.token]
  | select fields =>
    exact ⟨.select, fieldTokens fields, rfl, rfl, startsCommand_fieldTokens fields⟩
  | save path => exact ⟨.save, [.asWord, .string path], rfl, rfl, by simp [Token.startsCommand]⟩

/-- Some fields, and one more: every field but the last has a comma behind it. -/
theorem fieldTokens_concat (fields : List String) (field : String) :
    fieldTokens (fields ++ [field]) =
      (fields.flatMap fun f => [.path f, .comma]) ++ [.path field] := by
  have shift : ∀ fs : List String,
      Token.comma :: ((fs.flatMap fun f => [.path f, .comma]) ++ [.path field]) =
        (fs ++ [field]).flatMap fun f => [.comma, .path f] := by
    intro fs
    induction fs with
    | nil => rfl
    | cons f fs ih => simpa using ih
  cases fields with
  | nil => rfl
  | cons f fs => simpa [fieldTokens] using (shift fs).symm

/-- A comma after some fields announces another one. -/
theorem fieldTokens_comma {fields : List String} (h : fields ≠ []) :
    fieldTokens fields ++ [.comma] = fields.flatMap fun f => [.path f, .comma] := by
  obtain ⟨fs, field, rfl⟩ := List.eq_nil_or_concat fields |>.resolve_left h
  simp [fieldTokens_concat]

/-- The token of a value opens no statement. -/
@[simp] theorem Value.startsCommand_token (v : Value) : v.token.startsCommand = false := by
  cases v <;> rfl

/-- The value of a token is spelt by that token. -/
theorem Token.token_of_value? {t : Token} {v : Value} (h : t.value? = some v) : v.token = t := by
  cases t <;> simp [Token.value?] at h <;> subst h <;> rfl

/-- A value is read back from its token. -/
@[simp] theorem Value.value?_token (v : Value) : v.token.value? = some v := by
  cases v <;> rfl

namespace Parser

/-! ## Lexemes without a fault spell their statements -/

/-- The tokens of a draft that have been read. -/
def Draft.read : Draft → List Token
  | load => [.load]
  | filter => [.filter]
  | filterLeft left => [.filter, left.token]
  | filterOp left op => [.filter, left.token, .operator op]
  | select fields => .select :: fields.flatMap fun f => [.path f, .comma]
  | save => [.save]
  | saveAs => [.save, .asWord]

/-- The tokens of the open statement that have been read. -/
def State.read : State → List Token
  | ready | skipping => []
  | drafting _ draft => draft.read
  | listing _ fields => .select :: fieldTokens fields

/-- The line of the open statement. -/
def State.openLines : State → List Nat
  | ready | skipping => []
  | drafting line _ | listing line _ => [line]

/-- Nothing that was read is lost: no token is being skipped, and a list of fields has a field. -/
def State.IsIntact : State → Prop
  | skipping => False
  | listing _ fields => fields ≠ []
  | _ => True

/-- The statements among some events. -/
def found (es : List Event) : List Statement := es.filterMap Event.statement?

/-- The errors among some events. -/
def wrong (es : List Event) : List Fault := es.filterMap Event.fault?

@[simp] theorem found_nil : found [] = [] := rfl

@[simp] theorem found_statement (s : Statement) (es : List Event) :
    found (.statement s :: es) = s :: found es := rfl

@[simp] theorem found_append (es fs : List Event) : found (es ++ fs) = found es ++ found fs :=
  List.filterMap_append

@[simp] theorem wrong_nil : wrong [] = [] := rfl

@[simp] theorem wrong_statement (s : Statement) (es : List Event) :
    wrong (.statement s :: es) = wrong es := rfl

@[simp] theorem wrong_fault (e : Fault) (es : List Event) :
    wrong (.fault e :: es) = e :: wrong es := rfl

@[simp] theorem wrong_append (es fs : List Event) : wrong (es ++ fs) = wrong es ++ wrong fs :=
  List.filterMap_append

/-- Reading `t` in state `s` keeps account of it: what was open together with `t` is what is now
complete together with what is now open. -/
structure Accounts (s : State) (t : Token) (p : Position) (next : List Event × State) : Prop where
  intact : next.2.IsIntact
  tokens : s.read ++ [t] = ((found next.1).flatMap fun st => st.item.tokens) ++ next.2.read
  lines : s.openLines ++ (if t.startsCommand then [p.line] else []) =
    (found next.1).map Located.line ++ next.2.openLines
  complete : ∀ st ∈ found next.1, st.item.isComplete

/-- Between two statements, a token that is no fault opens a statement. -/
theorem stepReady_accounts {t : Token} {p : Position} (ht : t ≠ .eof)
    (h : wrong (stepReady t p).1 = []) : Accounts .ready t p (stepReady t p) := by
  cases t with
  | load | filter | select | save =>
    exact ⟨trivial, rfl, rfl, by simp [stepReady, Draft.open?]⟩
  | eof => exact absurd rfl ht
  | _ => simp [stepReady, Draft.open?, unexpected] at h

/-- What a token makes of a draft, on whatever line the statement opened. -/
inductive Draft.Reading (draft : Draft) (t : Token) : Prop where
  /-- The token does not fit. -/
  | refused (extend : ∀ line, draft.extend? line t = none)
  /-- The statement is complete, and nothing can be added to it. -/
  | completed (clause : Clause) (closed : ∀ fields, clause ≠ .select fields)
      (plain : t.startsCommand = false) (tokens : draft.read ++ [t] = clause.tokens)
      (extend : ∀ line, draft.extend? line t = some ([.statement ⟨line, clause⟩], .ready))
  /-- Other words are still to come. -/
  | continued (next : Draft) (plain : t.startsCommand = false)
      (tokens : draft.read ++ [t] = next.read)
      (extend : ∀ line, draft.extend? line t = some ([], .drafting line next))
  /-- The token is a field, and other fields may follow. -/
  | listed (fields : List String) (plain : t.startsCommand = false)
      (tokens : draft.read ++ [t] = .select :: fieldTokens fields) (ne_nil : fields ≠ [])
      (extend : ∀ line, draft.extend? line t = some ([], .listing line fields))

/-- A draft refuses a token, or the token takes it one word further. -/
theorem Draft.reading (draft : Draft) (t : Token) : draft.Reading t := by
  cases draft with
  | load =>
    cases t with
    | string path => exact .completed (.load path) (by simp) rfl rfl fun _ => rfl
    | _ => exact .refused fun _ => rfl
  | filter =>
    cases hvalue : t.value? with
    | none => exact .refused fun line => by rw [extend?, hvalue, Option.map_none]
    | some left =>
      obtain rfl := Token.token_of_value? hvalue
      exact .continued (.filterLeft left) (by simp) rfl fun line => by simp [extend?]
  | filterLeft left =>
    cases t with
    | operator op => exact .continued (.filterOp left op) rfl rfl fun _ => rfl
    | _ => exact .refused fun _ => rfl
  | filterOp left op =>
    cases hvalue : t.value? with
    | none => exact .refused fun line => by rw [extend?, hvalue, Option.map_none]
    | some right =>
      obtain rfl := Token.token_of_value? hvalue
      exact .completed (.filter left op right) (by simp) (by simp) rfl fun line => by simp [extend?]
  | select fields =>
    cases t with
    | path path =>
      refine .listed (fields ++ [path]) rfl ?_ (by simp) fun _ => rfl
      simp [read, fieldTokens_concat]
    | _ => exact .refused fun _ => rfl
  | save =>
    cases t with
    | asWord => exact .continued .saveAs rfl rfl fun _ => rfl
    | _ => exact .refused fun _ => rfl
  | saveAs =>
    cases t with
    | string path => exact .completed (.save path) (by simp) rfl rfl fun _ => rfl
    | _ => exact .refused fun _ => rfl

/-- A token that fits a draft is accounted for. -/
theorem extend?_accounts {line : Nat} {draft : Draft} {t : Token} {p : Position}
    {next : List Event × State} (h : draft.extend? line t = some next) :
    Accounts (.drafting line draft) t p next := by
  cases draft.reading t with
  | refused hextend =>
    rw [hextend] at h
    cases h
  | completed clause hclosed hplain htokens hextend =>
    rw [hextend] at h
    cases h
    exact ⟨trivial, by simp [State.read, htokens], by simp [State.openLines, hplain],
      by simp [Clause.isComplete_of_closed hclosed]⟩
  | continued draft' hplain htokens hextend =>
    rw [hextend] at h
    cases h
    exact ⟨trivial, by simp [State.read, htokens], by simp [State.openLines, hplain], by simp⟩
  | listed fields hplain htokens hne hextend =>
    rw [hextend] at h
    cases h
    exact ⟨hne, by simp [State.read, htokens], by simp [State.openLines, hplain], by simp⟩

/-- After the last field of a SELECT, any token but a comma completes it and is read afresh. -/
theorem step_listing {t : Token} (ht : t ≠ .comma) (line : Nat) (fields : List String)
    (p : Position) : step (.listing line fields) t p =
      (.statement ⟨line, .select fields⟩ :: (stepReady t p).1, (stepReady t p).2) := by
  cases t <;> first | rfl | exact absurd rfl ht

/-- The machine keeps account of every token that is no fault. -/
theorem step_accounts {s : State} {t : Token} {p : Position} (hs : s.IsIntact) (ht : t ≠ .eof)
    (h : wrong (step s t p).1 = []) : Accounts s t p (step s t p) := by
  cases s with
  | ready => exact stepReady_accounts ht h
  | skipping => exact hs.elim
  | drafting line draft =>
    cases hnext : draft.extend? line t with
    | some next =>
      rw [step, stepDraft, hnext]
      exact extend?_accounts hnext
    | none => simp [step, stepDraft, hnext, unexpected] at h
  | listing line fields =>
    -- A comma goes on with the list; any other token completes it and is read afresh.
    by_cases hcomma : t = .comma
    · subst hcomma
      refine ⟨trivial, ?_, rfl, by simp [step, stepListing]⟩
      simpa [step, stepListing, State.read, Draft.read] using fieldTokens_comma hs
    · rw [step_listing hcomma] at h ⊢
      obtain ⟨hintact, htokens, hlines, hcomplete⟩ := stepReady_accounts ht h
      refine ⟨hintact, ?_, ?_, ?_⟩
      · simpa [State.read, Clause.tokens] using htokens
      · simpa [State.openLines] using hlines
      · intro st hst
        rcases List.mem_cons.1 hst with rfl | hst
        · simpa [Clause.isComplete, State.IsIntact] using hs
        · exact hcomplete st hst

/-- At the end of the text, without a fault, the open statement is complete or there is none. -/
theorem step_eof {s : State} {p : Position} (hs : s.IsIntact) (h : wrong (step s .eof p).1 = []) :
    s.read = ((found (step s .eof p).1).flatMap fun st => st.item.tokens) ∧
      s.openLines = (found (step s .eof p).1).map Located.line ∧
      ∀ st ∈ found (step s .eof p).1, st.item.isComplete := by
  cases s with
  | ready => exact ⟨rfl, rfl, by simp [step, stepReady, Draft.open?]⟩
  | skipping => exact hs.elim
  | drafting line draft =>
    cases draft <;> simp [step, stepDraft, Draft.extend?, Token.value?, unexpected] at h
  | listing line fields =>
    refine ⟨by simp [State.read, step, stepListing, stepReady, Draft.open?, Clause.tokens],
      rfl, ?_⟩
    simpa [step, stepListing, stepReady, Draft.open?, Clause.isComplete, State.IsIntact] using hs

/-- What is open in a state, followed by the lexemes, spells the program. -/
structure Continues (s : State) (program : List Statement) (lexemes : List Lexeme) : Prop where
  results : s.read.map Except.ok ++ lexemes.map Lexeme.result =
    (program.flatMap fun st => st.item.tokens.map Except.ok) ++ [.ok .eof]
  lines : s.openLines ++ keywordLines lexemes = program.map Located.line
  complete : ∀ st ∈ program, st.item.isComplete

/-- **The account of a whole run.**  Lexemes without a fault continue what is open to the statements
that are found in them. -/
theorem events_account {lexemes : List Lexeme} (hend : Terminated lexemes) :
    ∀ s : State, s.IsIntact → wrong (events s lexemes) = [] →
      Continues s (found (events s lexemes)) lexemes := by
  induction hend with
  | eof p =>
    intro s hs h
    rw [events, events, List.append_nil] at h ⊢
    obtain ⟨htokens, hlines, hcomplete⟩ := step_eof hs h
    refine ⟨?_, ?_, hcomplete⟩
    · rw [htokens, List.map_flatMap]
      rfl
    · rw [hlines]
      exact List.append_nil _
  | @cons l lexemes hl _ ih =>
    intro s hs h
    obtain ⟨result, p⟩ := l
    cases result with
    | error e => simp [events] at h
    | ok t =>
      have ht : t ≠ .eof := fun heq => hl (by rw [heq])
      rw [events, wrong_append, List.append_eq_nil_iff] at h
      obtain ⟨hintact, htokens, hlines, hcomplete⟩ := step_accounts hs ht h.1
      obtain ⟨htokens', hlines', hcomplete'⟩ := ih (step s t p).2 hintact h.2
      -- What the step leaves open is where the rest of the run starts, and cancels out.
      rw [events, found_append]
      refine ⟨?_, ?_, ?_⟩
      · have hmap := congrArg (List.map (Except.ok (ε := LexicalError))) htokens
        simp only [List.map_append, List.map_flatMap, List.map_cons, List.map_nil] at hmap
        rw [List.flatMap_append, List.append_assoc, ← htokens', ← List.append_assoc, ← hmap]
        simp
      · rw [List.map_append, ← hlines', ← List.append_assoc, ← hlines, keywordLines_ok]
        simp
      · intro st hst
        rcases List.mem_append.1 hst with hst | hst
        · exact hcomplete st hst
        · exact hcomplete' st hst

/-! ## Lexemes that spell a program yield its statements -/

/-- After the last field of a SELECT, reading any token but a comma starts afresh. -/
theorem events_listing {t : Token} (ht : t ≠ .comma) (line : Nat) (fields : List String)
    (p : Position) (rest : List Lexeme) :
    events (.listing line fields) (⟨.ok t, p⟩ :: rest) =
      .statement ⟨line, .select fields⟩ :: events .ready (⟨.ok t, p⟩ :: rest) := by
  rw [events, step_listing ht]
  rfl

/-- The fields of a SELECT, after those in `done`, up to a token that is no comma. -/
theorem events_fields {t : Token} (ht : t ≠ .comma) (line : Nat) (p : Position)
    (rest : List Lexeme) (fields : List String) (hfields : fields ≠ []) :
    ∀ (done : List String) (segment : List Lexeme),
      segment.map Lexeme.result = (fieldTokens fields).map Except.ok →
      events (.drafting line (.select done)) (segment ++ ⟨.ok t, p⟩ :: rest) =
        .statement ⟨line, .select (done ++ fields)⟩ :: events .ready (⟨.ok t, p⟩ :: rest) := by
  induction fields with
  | nil => exact absurd rfl hfields
  | cons field fields ih =>
    intro done segment hsegment
    cases fields with
    | nil =>
      obtain ⟨q, _, rfl, hnil⟩ := exists_lexeme_of_results hsegment
      obtain rfl := List.map_eq_nil_iff.1 hnil
      exact events_listing ht line (done ++ [field]) p rest
    | cons field' fields =>
      obtain ⟨q, _, rfl, hcomma⟩ := exists_lexeme_of_results hsegment
      obtain ⟨q', segment, rfl, hfields⟩ := exists_lexeme_of_results hcomma
      have h := ih (by simp) (done ++ [field]) segment hfields
      rw [List.append_assoc] at h
      exact h

/-- The tokens of a clause, up to a token that is no comma, yield its statement. -/
theorem events_clause {t : Token} (ht : t ≠ .comma) (p : Position) (rest : List Lexeme)
    {clause : Clause} (hclause : clause.isComplete) {segment : List Lexeme}
    (hsegment : segment.map Lexeme.result = clause.tokens.map Except.ok) :
    ∃ line, keywordLines segment = [line] ∧
      events .ready (segment ++ ⟨.ok t, p⟩ :: rest) =
        .statement ⟨line, clause⟩ :: events .ready (⟨.ok t, p⟩ :: rest) := by
  cases clause with
  | load path =>
    obtain ⟨q, _, rfl, hpath⟩ := exists_lexeme_of_results hsegment
    obtain ⟨_, _, rfl, hnil⟩ := exists_lexeme_of_results hpath
    obtain rfl := List.map_eq_nil_iff.1 hnil
    exact ⟨q.line, rfl, rfl⟩
  | filter left op right =>
    obtain ⟨q, _, rfl, hleft⟩ := exists_lexeme_of_results hsegment
    obtain ⟨_, _, rfl, hop⟩ := exists_lexeme_of_results hleft
    obtain ⟨_, _, rfl, hright⟩ := exists_lexeme_of_results hop
    obtain ⟨_, _, rfl, hnil⟩ := exists_lexeme_of_results hright
    obtain rfl := List.map_eq_nil_iff.1 hnil
    refine ⟨q.line, ?_, ?_⟩
    · cases left <;> cases right <;> rfl
    · cases left <;> cases right <;> rfl
  | select fields =>
    obtain ⟨q, _, rfl, hlist⟩ := exists_lexeme_of_results hsegment
    have hfields : fields ≠ [] := by simpa [Clause.isComplete] using hclause
    refine ⟨q.line, ?_, ?_⟩
    · rw [keywordLines_ok, keywordLines_eq_nil (startsCommand_fieldTokens fields) hlist]
      rfl
    · exact events_fields ht q.line p rest fields hfields [] _ hlist
  | save path =>
    obtain ⟨q, _, rfl, has⟩ := exists_lexeme_of_results hsegment
    obtain ⟨_, _, rfl, hpath⟩ := exists_lexeme_of_results has
    obtain ⟨_, _, rfl, hnil⟩ := exists_lexeme_of_results hpath
    obtain rfl := List.map_eq_nil_iff.1 hnil
    exact ⟨q.line, rfl, rfl⟩

/-- The tokens of a program start with one that is no comma: a keyword or the end token. -/
theorem exists_head_of_results {program : List Statement} {lexemes : List Lexeme}
    (hresults : lexemes.map Lexeme.result =
      (program.flatMap fun s => s.item.tokens.map Except.ok) ++ [.ok .eof]) :
    ∃ t p rest, lexemes = ⟨.ok t, p⟩ :: rest ∧ t ≠ .comma := by
  cases program with
  | nil =>
    obtain ⟨p, rest, rfl, -⟩ := exists_lexeme_of_results hresults
    exact ⟨_, p, rest, rfl, by decide⟩
  | cons s program =>
    obtain ⟨line, clause⟩ := s
    cases clause <;>
    · obtain ⟨p, rest, rfl, -⟩ := exists_lexeme_of_results hresults
      exact ⟨_, p, rest, rfl, by decide⟩

/-- **Completeness.**  Lexemes that spell a program yield its statements and nothing else. -/
theorem events_of_spells {program : List Statement} {lexemes : List Lexeme}
    (h : Spells program lexemes) : events .ready lexemes = program.map Event.statement := by
  induction program generalizing lexemes with
  | nil =>
    obtain ⟨p, _, rfl, hnil⟩ := exists_lexeme_of_results h.results
    obtain rfl := List.map_eq_nil_iff.1 hnil
    rfl
  | cons s program ih =>
    obtain ⟨hresults, hlines, hcomplete⟩ := h
    rw [List.flatMap_cons, List.append_assoc] at hresults
    obtain ⟨segment, rest, rfl, hsegment, hrest⟩ := List.map_eq_append_iff.1 hresults
    -- A SELECT ends where the next statement starts, so that one is looked at first.
    obtain ⟨t, p, rest', rfl, ht⟩ := exists_head_of_results hrest
    obtain ⟨line, hline, hevents⟩ := events_clause ht p rest' (hcomplete s (by simp)) hsegment
    rw [keywordLines_append, hline, List.map_cons, List.cons_append, List.cons.injEq] at hlines
    obtain ⟨rfl, hlines⟩ := hlines
    rw [hevents, ih ⟨hrest, hlines, fun s hs => hcomplete s (by simp [hs])⟩]
    rfl

end Parser

/-! ## The parser accepts the grammar -/

/-- **Soundness.**  Lexemes without a fault spell the statements that are found in them. -/
theorem spells_of_faultless {lexemes : List Lexeme} (hend : Terminated lexemes)
    (h : faults lexemes = []) : Spells (statements lexemes) lexemes := by
  obtain ⟨hresults, hlines, hcomplete⟩ := Parser.events_account hend .ready trivial h
  exact ⟨hresults, hlines, hcomplete⟩

/-- The parser's verdict on lexemes that end: it accepts those that spell a program. -/
theorem parseLexemes_eq_ok_iff {lexemes : List Lexeme} (hend : Terminated lexemes)
    (program : List Statement) : parseLexemes lexemes = .ok program ↔ Spells program lexemes := by
  constructor
  · intro h
    unfold parseLexemes at h
    split at h
    next hfaults =>
      obtain rfl := Except.ok.inj h
      exact spells_of_faultless hend hfaults
    next => cases h
  · intro h
    have hevents := Parser.events_of_spells h
    have hfaults : faults lexemes = [] := by
      simp [faults, hevents, List.filterMap_map, Function.comp_def, Parser.Event.fault?]
    have hstatements : statements lexemes = program := by
      simp [statements, hevents, List.filterMap_map, Function.comp_def, Parser.Event.statement?]
    rw [parseLexemes, hfaults, hstatements]

/-- **The parser accepts exactly the grammar.**  A text parses to a program if and only if its
lexemes, up to the first end token, spell that program. -/
theorem parse_eq_ok_iff_spells (source : String) (program : List Statement) :
    parse source = .ok program ↔ Spells program (Cursor.ofString source).lexemes :=
  parseLexemes_eq_ok_iff (Cursor.terminated_lexemes _) program

end QueryPipeline
