/-
# Recovery

The words of a text fall into segments: those in front of the first keyword, and then
each keyword with the words up to the next one.  Segments do not disturb each other.
One that is a clause has no fault, and any other has exactly one, at the first word that
takes the clause no further.  That word may be the first one behind the segment.

* `splits_words` : the words of a text are those of its segments;
* `segmentFaults`, `textFaults` : the faults that a segment, and a text, should have;
* `Parser.Inside` : the tokens that the machine has read of a clause, which is its
  invariant inside a segment; `Parser.Inside.step_viable` and `Parser.Inside.step_stuck`
  say what one token makes of it;
* `Parser.wordFaults_segment` : the run over one segment, from inside it to the next;
* `parse_recovers_by_segment` : the parser reports the faults that a text should have.
-/
import QueryPipeline.Proofs.ReadingOrder
import QueryPipeline.Proofs.ViablePrefix

namespace QueryPipeline

/-! ## The segments of a text -/

/-- A token and where it starts. -/
structure Word where
  token : Token
  start : Position
  deriving DecidableEq

/-- The word that a lexeme is; an error is none. -/
def Lexeme.word? (l : Lexeme) : Option Word :=
  match l.result with
  | .ok t => some ⟨t, l.start⟩
  | .error _ => none

/-- The word opens a statement. -/
def Word.isKeyword (w : Word) : Bool := w.token.startsCommand

/-- The words of a text, without its end. -/
def wordsOf (source : String) : List Word :=
  ((Cursor.ofString source).lexemes.filterMap Lexeme.word?).filter fun w => w.token ≠ .eof

/-- The end of a text, as a word. -/
def endOf (source : String) : Word := ⟨.eof, Position.first.advance source.toList⟩

/-- The words in front of the first keyword. -/
def leading (words : List Word) : List Word := words.takeWhile fun w => !w.isKeyword

/-- Each keyword with the words up to the next one. -/
def segments : List Word → List (List Word)
  | [] => []
  | w :: rest => if w.isKeyword then (w :: leading rest) :: segments rest else segments rest

/-- The words open with a keyword, and have no other. -/
def IsSegment (words : List Word) : Prop :=
  ∃ keyword body, words = keyword :: body ∧ keyword.isKeyword ∧ ∀ w ∈ body, w.isKeyword = false

/-- The words are those in `front`, without a keyword, and those of some segments. -/
structure Splits (words front : List Word) (parts : List (List Word)) : Prop where
  join : front ++ parts.flatten = words
  front_plain : ∀ w ∈ front, w.isKeyword = false
  segment : ∀ part ∈ parts, IsSegment part

/-- **Splitting loses nothing.** -/
theorem splits_words (words : List Word) : Splits words (leading words) (segments words) := by
  induction words with
  | nil => exact ⟨rfl, by simp [leading], by simp [segments]⟩
  | cons w words ih =>
    obtain ⟨hjoin, hfront, hparts⟩ := ih
    by_cases hw : w.isKeyword
    · have hleading : leading (w :: words) = [] := by simp [leading, hw]
      rw [hleading, segments, if_pos hw]
      refine ⟨congrArg (w :: ·) hjoin, by simp, ?_⟩
      intro part hpart
      rcases List.mem_cons.1 hpart with rfl | hpart
      · exact ⟨w, leading words, rfl, hw, hfront⟩
      · exact hparts part hpart
    · have hplain : w.isKeyword = false := Bool.eq_false_iff.2 hw
      have hleading : leading (w :: words) = w :: leading words := by simp [leading, hplain]
      rw [hleading, segments, if_neg hw]
      refine ⟨congrArg (w :: ·) hjoin, ?_, hparts⟩
      exact List.forall_mem_cons.2 ⟨hplain, hfront⟩

/-! ## The faults that a text should have -/

/-- The fault that a word does not fit behind the tokens `read` of a clause. -/
def misfit (read : List Token) (w : Word) : Fault :=
  ⟨w.start, .unexpected (expectedAfter read) w.token⟩

/-- The fault at the first word that takes the clause no further, after the tokens `read` of it.  If
all words do, it is at the word behind them. -/
def firstMisfit (read : List Token) (next : Word) : List Word → Fault
  | [] => misfit read next
  | w :: words =>
    if IsViable (read ++ [w.token]) then firstMisfit (read ++ [w.token]) next words
    else misfit read w

/-- Words that all fit leave the fault to the one behind them. -/
theorem firstMisfit_of_isViable (read : List Token) (next : Word) {words : List Word}
    (h : IsViable (read ++ words.map Word.token)) :
    firstMisfit read next words = misfit (read ++ words.map Word.token) next := by
  induction words generalizing read with
  | nil => simp [firstMisfit]
  | cons w words ih =>
    rw [List.map_cons, List.append_cons] at h ⊢
    rw [firstMisfit, if_pos (h.of_front (List.prefix_append _ _)), ih _ h]

/-- Otherwise the fault is at the first one that does not fit. -/
theorem firstMisfit_of_not_isViable (read : List Token) (next : Word) {front : List Word} {w : Word}
    (rest : List Word) (h : IsViable (read ++ front.map Word.token))
    (hw : ¬ IsViable (read ++ front.map Word.token ++ [w.token])) :
    firstMisfit read next (front ++ w :: rest) = misfit (read ++ front.map Word.token) w := by
  induction front generalizing read with
  | nil =>
    rw [List.map_nil, List.append_nil] at hw ⊢
    rw [List.nil_append, firstMisfit, if_neg hw]
  | cons v front ih =>
    rw [List.map_cons, List.append_cons read] at h hw ⊢
    rw [List.cons_append, firstMisfit, if_pos (h.of_front (List.prefix_append _ _)),
      ih _ h hw]

/-- The faults of a segment with `next` behind it: none if it is a clause, otherwise one. -/
def segmentFaults (segment : List Word) (next : Word) : List Fault :=
  if IsClause (segment.map Word.token) then [] else [firstMisfit [] next segment]

/-- The faults of words in front of the first keyword. -/
def leadingFaults : List Word → List Fault
  | [] => []
  | w :: _ => [misfit [] w]

/-- The faults of some segments with `stop` behind them. -/
def segmentsFaults (stop : Word) : List (List Word) → List Fault
  | [] => []
  | segment :: rest =>
    segmentFaults segment (rest.flatten.head?.getD stop) ++ segmentsFaults stop rest

/-- The faults of some words with `stop` behind them. -/
def textFaults (words : List Word) (stop : Word) : List Fault :=
  leadingFaults (leading words) ++ segmentsFaults stop (segments words)

namespace Parser

/-! ## Inside a clause -/

/-- The state of the machine after the tokens `read` of a clause, when all of them fit. -/
inductive Inside : State → List Token → Prop where
  | drafting (line : Nat) (draft : Draft) : Inside (.drafting line draft) draft.read
  | listing (line : Nat) {fields : List String} (ne_nil : fields ≠ []) :
      Inside (.listing line fields) (.select :: fieldTokens fields)
  | closed {clause : Clause} (h : ∀ fields, clause ≠ .select fields) : Inside .ready clause.tokens

/-- Nothing can be added to a clause that is no SELECT. -/
theorem not_isViable_of_closed {clause : Clause} (h : ∀ fields, clause ≠ .select fields)
    (t : Token) : ¬ IsViable (clause.tokens ++ [t]) := by
  rintro ⟨other, -, hbegins⟩
  cases clause with
  | select fields => exact h fields rfl
  | _ => cases other <;> simp [Clause.tokens, List.cons_prefix_cons] at hbegins

/-- What goes on with a list of fields is a comma. -/
theorem eq_comma_of_isViable {fields : List String} (hne : fields ≠ []) {t : Token}
    (h : IsViable (.select :: fieldTokens fields ++ [t])) : t = .comma := by
  obtain ⟨fields', ht⟩ := h.getElem?_fieldTokens
  rcases getElem?_fieldTokens ht with ⟨heven, -⟩ | ⟨-, ht⟩
  · have hlength := length_fieldTokens hne
    omega
  · exact ht

/-- **A token that fits** takes the machine one token further inside the clause. -/
theorem Inside.step_viable {s : State} {read : List Token} (h : Inside s read) {t : Token}
    (ht : IsViable (read ++ [t])) (p : Position) :
    wrong (step s t p).1 = [] ∧ Inside (step s t p).2 (read ++ [t]) := by
  cases h with
  | drafting line draft =>
    cases draft.reading t with
    | refused hextend =>
      rw [draft.isViable_append_iff, ← draft.isSome_extend? line, hextend] at ht
      cases ht
    | completed clause hclosed _ htokens hextend =>
      rw [step, stepDraft, hextend, htokens]
      exact ⟨rfl, .closed hclosed⟩
    | continued next _ htokens hextend =>
      rw [step, stepDraft, hextend, htokens]
      exact ⟨rfl, .drafting line next⟩
    | listed fields _ htokens hne hextend =>
      rw [step, stepDraft, hextend, htokens]
      exact ⟨rfl, .listing line hne⟩
  | @listing line fields hne =>
    obtain rfl := eq_comma_of_isViable hne ht
    rw [← Draft.read_select hne]
    exact ⟨rfl, .drafting line (.select fields)⟩
  | closed hclosed => exact absurd ht (not_isViable_of_closed hclosed t)

/-- **A token that does not fit** is read afresh if the clause is complete, and otherwise is at
fault. -/
theorem Inside.step_stuck {s : State} {read : List Token} (h : Inside s read) {t : Token}
    (ht : ¬ IsViable (read ++ [t])) (p : Position) :
    (IsClause read ∧ wrong (step s t p).1 = wrong (stepReady t p).1 ∧
      (step s t p).2 = (stepReady t p).2) ∨
    (¬ IsClause read ∧ wrong (step s t p).1 = [misfit read ⟨t, p⟩] ∧
      (step s t p).2 = resume t p) := by
  cases h with
  | drafting line draft =>
    have hextend : draft.extend? line t = none := by
      rw [draft.isViable_append_iff, ← draft.isSome_extend? line] at ht
      simpa using ht
    refine Or.inr ⟨draft.not_isClause_read, ?_, ?_⟩
    · rw [step, stepDraft, hextend, misfit, draft.expectedAfter_read]
      rfl
    · rw [step, stepDraft, hextend]
  | @listing line fields hne =>
    -- A comma would have announced another field.
    have hcomma : t ≠ .comma := by
      rintro rfl
      apply ht
      rw [← Draft.read_select hne]
      exact (Draft.select fields).isViable_read
    rw [step_listing hcomma]
    exact Or.inl ⟨isClause_select hne, rfl, rfl⟩
  | closed hclosed => exact Or.inl ⟨isClause_of_closed hclosed, rfl, rfl⟩

theorem Inside.ne_nil {s : State} {read : List Token} (h : Inside s read) : read ≠ [] := by
  cases h with
  | drafting line draft => exact draft.read_ne_nil
  | listing line hne => exact List.cons_ne_nil _ _
  | @closed clause hclosed =>
    obtain ⟨keyword, tail, htokens, -⟩ := clause.exists_keyword
    rw [htokens]
    exact List.cons_ne_nil _ _

/-- Tokens that continue a clause keep the machine inside it. -/
theorem Inside.exists_append {s : State} {read : List Token} (h : Inside s read)
    {tokens : List Token} (htokens : IsViable (read ++ tokens)) :
    ∃ s', Inside s' (read ++ tokens) := by
  induction tokens generalizing s read with
  | nil => exact ⟨s, by rwa [List.append_nil]⟩
  | cons t tokens ih =>
    rw [List.append_cons] at htokens ⊢
    have ht : IsViable (read ++ [t]) := htokens.of_front (List.prefix_append _ _)
    exact ih (h.step_viable ht Position.first).2 htokens

theorem exists_open?_of_startsCommand {t : Token} (h : t.startsCommand) :
    ∃ draft, Draft.open? t = some draft ∧ draft.read = [t] := by
  cases t with
  | load | filter | select | save => exact ⟨_, rfl, rfl⟩
  | _ => cases h

/-- The machine can be inside every beginning of a clause. -/
theorem exists_inside {read : List Token} (h : IsViable read) (hne : read ≠ []) :
    ∃ s, Inside s read := by
  obtain ⟨keyword, tokens, rfl⟩ := List.exists_cons_of_ne_nil hne
  obtain ⟨draft, -, hread⟩ := exists_open?_of_startsCommand h.startsCommand
  have hinside : Inside (.drafting 0 draft) [keyword] := hread ▸ .drafting 0 draft
  exact hinside.exists_append h

/-- **What is expected takes the clause further**, and nothing else does. -/
theorem isViable_append_iff {read : List Token} (h : IsViable read) (hclause : ¬ IsClause read)
    (t : Token) : IsViable (read ++ [t]) ↔ (expectedAfter read).admits t := by
  by_cases hnil : read = []
  · subst hnil
    constructor
    · intro ht
      exact ht.startsCommand
    · intro ht
      obtain ⟨draft, -, hread⟩ := exists_open?_of_startsCommand ht
      rw [List.nil_append, ← hread]
      exact draft.isViable_read
  · obtain ⟨s, hinside⟩ := exists_inside h hnil
    cases hinside with
    | drafting line draft => rw [draft.isViable_append_iff, draft.expectedAfter_read]
    | listing line hne => exact absurd (isClause_select hne) hclause
    | closed hclosed => exact absurd (isClause_of_closed hclosed) hclause

/-! ## Runs over words -/

/-- The faults that are noticed while some words are read. -/
def wordFaults (s : State) : List Word → List Fault
  | [] => []
  | w :: words =>
    wrong (step s w.token w.start).1 ++ wordFaults (step s w.token w.start).2 words

/-- The word ends a segment: it is a keyword, or the end of the text. -/
def EndsSegment (w : Word) (rest : List Word) : Prop :=
  w.isKeyword ∨ (w.token = .eof ∧ rest = [])

theorem open?_eq_none {t : Token} (h : t.startsCommand = false) : Draft.open? t = none := by
  cases t with
  | load | filter | select | save => cases h
  | _ => rfl

/-- Between two statements a keyword is never at fault. -/
theorem stepReady_keyword {t : Token} (h : t.startsCommand) (p : Position) :
    stepReady t p = ([], resume t p) := by
  obtain ⟨draft, hdraft, -⟩ := exists_open?_of_startsCommand h
  rw [stepReady, resume, hdraft]

/-- A word that is neither a keyword nor the end is passed over. -/
theorem resume_plain {t : Token} (h : t.startsCommand = false) (p : Position) :
    resume t p = .skipping := by
  rw [resume, open?_eq_none h]

theorem stepReady_plain {t : Token} (h : t.startsCommand = false) (hend : t ≠ .eof) (p : Position) :
    stepReady t p = ([unexpected .keyword t p], .skipping) := by
  rw [stepReady, open?_eq_none h]
  exact if_neg hend

/-- Where a segment ends, reading is resumed as if nothing had been before. -/
theorem wordFaults_resume {next : Word} {rest : List Word} (hnext : EndsSegment next rest) :
    wordFaults (resume next.token next.start) rest = wordFaults .ready (next :: rest) := by
  rcases hnext with hkeyword | ⟨heof, rfl⟩
  · rw [wordFaults, step, stepReady_keyword hkeyword]
    rfl
  · obtain ⟨token, start⟩ := next
    obtain rfl : token = .eof := heof
    rfl

/-- Skipping stops where a segment ends. -/
theorem wordFaults_skipping {junk : List Word} (hjunk : ∀ w ∈ junk, w.isKeyword = false)
    {next : Word} {rest : List Word} (hnext : EndsSegment next rest) :
    wordFaults .skipping (junk ++ next :: rest) = wordFaults .ready (next :: rest) := by
  induction junk with
  | nil =>
    rw [List.nil_append, wordFaults, step]
    exact wordFaults_resume hnext
  | cons w junk ih =>
    obtain ⟨hw, hjunk⟩ := List.forall_mem_cons.1 hjunk
    rw [List.cons_append, wordFaults, step, resume_plain hw]
    exact ih hjunk

/-- Where a segment ends, the open clause is complete or at fault, and reading goes on afresh. -/
theorem Inside.wordFaults_end {s : State} {read : List Token} (h : Inside s read) {next : Word}
    {rest : List Word} (hnext : EndsSegment next rest) :
    wordFaults s (next :: rest) =
      (if IsClause read then [] else [misfit read next]) ++ wordFaults .ready (next :: rest) := by
  -- No clause goes on with a keyword or with the end of the text.
  have hstuck : ¬ IsViable (read ++ [next.token]) := by
    intro hviable
    obtain ⟨hplain, hend⟩ := hviable.plain h.ne_nil
    rcases hnext with hkeyword | ⟨heof, -⟩
    · exact absurd hkeyword (Bool.eq_false_iff.1 hplain)
    · exact hend heof
  rcases h.step_stuck hstuck next.start with ⟨hclause, hwrong, hstate⟩ | ⟨hclause, hwrong, hstate⟩
  · rw [if_pos hclause, wordFaults, hwrong, hstate]
    rfl
  · rw [if_neg hclause, wordFaults, hwrong, hstate, wordFaults_resume hnext]

/-- A word inside a segment that takes the clause no further is at fault, and what follows is
skipped. -/
theorem Inside.step_misfit {s : State} {read : List Token} (h : Inside s read) {w : Word}
    (hviable : ¬ IsViable (read ++ [w.token])) (hplain : w.isKeyword = false)
    (hend : w.token ≠ .eof) :
    wrong (step s w.token w.start).1 = [misfit read w] ∧
      (step s w.token w.start).2 = .skipping := by
  rcases h.step_stuck hviable w.start with ⟨hclause, hwrong, hstate⟩ | ⟨-, hwrong, hstate⟩
  · -- Behind a complete clause the word is read as the first of a statement, which it is not.
    rw [hwrong, hstate, stepReady_plain hplain hend, misfit, expectedAfter_of_isClause hclause]
    exact ⟨rfl, rfl⟩
  · exact ⟨hwrong, hstate.trans (resume_plain hplain w.start)⟩

/-- **The run over a segment.**  The induction is on the words of the segment that are still to be
read; `read` are the tokens of those that have been. -/
theorem wordFaults_segment {body : List Word} (hbody : ∀ w ∈ body, w.isKeyword = false)
    (hend : ∀ w ∈ body, w.token ≠ .eof) {next : Word} {rest : List Word}
    (hnext : EndsSegment next rest) :
    ∀ (s : State) (read : List Token), Inside s read →
      wordFaults s (body ++ next :: rest) =
        (if IsClause (read ++ body.map Word.token) then [] else [firstMisfit read next body]) ++
          wordFaults .ready (next :: rest) := by
  induction body with
  | nil =>
    intro s read hinside
    rw [List.map_nil, List.append_nil]
    exact hinside.wordFaults_end hnext
  | cons w body ih =>
    intro s read hinside
    obtain ⟨hplain, hbody⟩ := List.forall_mem_cons.1 hbody
    obtain ⟨hw, hend⟩ := List.forall_mem_cons.1 hend
    have hread : read ++ (w :: body).map Word.token =
        (read ++ [w.token]) ++ body.map Word.token := by simp
    rw [List.cons_append, wordFaults, hread, firstMisfit]
    by_cases hviable : IsViable (read ++ [w.token])
    · obtain ⟨hwrong, hinside⟩ := hinside.step_viable hviable w.start
      rw [hwrong, if_pos hviable, List.nil_append]
      exact ih hbody hend _ _ hinside
    · -- The segment cannot be a clause any more, and the rest of it is skipped.
      have hclause : ¬ IsClause ((read ++ [w.token]) ++ body.map Word.token) := by
        intro hclause
        exact hviable (hclause.isViable.of_front (List.prefix_append _ _))
      obtain ⟨hwrong, hstate⟩ := hinside.step_misfit hviable hplain hw
      rw [hwrong, hstate, if_neg hclause, if_neg hviable, wordFaults_skipping hbody hnext]

/-- A word that ends a segment stands behind each of them: the keyword of the next one, or `stop`. -/
theorem exists_next {parts : List (List Word)} (hparts : ∀ part ∈ parts, IsSegment part)
    {stop : Word} (hstop : stop.token = .eof) :
    ∃ rest, parts.flatten ++ [stop] = parts.flatten.head?.getD stop :: rest ∧
      EndsSegment (parts.flatten.head?.getD stop) rest := by
  cases parts with
  | nil => exact ⟨[], rfl, Or.inr ⟨hstop, rfl⟩⟩
  | cons part parts =>
    obtain ⟨keyword, body, rfl, hkeyword, -⟩ := hparts part List.mem_cons_self
    exact ⟨body ++ parts.flatten ++ [stop], by simp, Or.inl hkeyword⟩

/-- **The run over the segments of a text.** -/
theorem wordFaults_segments {parts : List (List Word)} (hparts : ∀ part ∈ parts, IsSegment part)
    (hend : ∀ w ∈ parts.flatten, w.token ≠ .eof) {stop : Word} (hstop : stop.token = .eof) :
    wordFaults .ready (parts.flatten ++ [stop]) = segmentsFaults stop parts := by
  induction parts with
  | nil =>
    obtain ⟨token, start⟩ := stop
    obtain rfl : token = .eof := hstop
    rfl
  | cons part parts ih =>
    obtain ⟨⟨keyword, body, rfl, hkeyword, hbody⟩, hrests⟩ := List.forall_mem_cons.1 hparts
    rw [List.flatten_cons, List.forall_mem_append, List.forall_mem_cons] at hend
    obtain ⟨⟨-, hend⟩, htail⟩ := hend
    obtain ⟨rest, hrest, hnext⟩ := exists_next hrests hstop
    obtain ⟨draft, hdraft, hread⟩ := exists_open?_of_startsCommand hkeyword
    -- The keyword opens a draft, and the run over its segment starts inside it.
    have hinside : Inside (resume keyword.token keyword.start) [keyword.token] := by
      rw [resume, hdraft, ← hread]
      exact .drafting keyword.start.line draft
    have hviable : IsViable ([] ++ [keyword.token]) := hread ▸ draft.isViable_read
    have hrun := wordFaults_segment hbody hend hnext _ _ hinside
    rw [← hrest, ih hrests htail] at hrun
    rw [List.flatten_cons, List.append_assoc, List.cons_append, wordFaults, step,
      stepReady_keyword hkeyword, segmentsFaults, segmentFaults, firstMisfit, if_pos hviable]
    exact hrun

/-- **The run over a text.** -/
theorem wordFaults_text {words : List Word} (hend : ∀ w ∈ words, w.token ≠ .eof) {stop : Word}
    (hstop : stop.token = .eof) :
    wordFaults .ready (words ++ [stop]) = textFaults words stop := by
  obtain ⟨hjoin, hfront, hparts⟩ := splits_words words
  have hend' : ∀ w ∈ (segments words).flatten, w.token ≠ .eof := by
    intro w hw
    apply hend
    rw [← hjoin]
    exact List.mem_append_right _ hw
  rw [textFaults, ← wordFaults_segments hparts hend' hstop]
  cases hleading : leading words with
  | nil =>
    rw [hleading, List.nil_append] at hjoin
    rw [hjoin]
    rfl
  | cons w junk =>
    rw [hleading] at hjoin hfront
    obtain ⟨hplain, hjunk⟩ := List.forall_mem_cons.1 hfront
    have hw : w.token ≠ .eof := by
      apply hend
      rw [← hjoin]
      exact List.mem_cons_self
    -- The first of them is at fault, and the others are skipped up to the first segment.
    obtain ⟨rest, hrest, hnext⟩ := exists_next hparts hstop
    have hwords : words ++ [stop] = w :: (junk ++ ((segments words).flatten ++ [stop])) := calc
      words ++ [stop] = w :: junk ++ (segments words).flatten ++ [stop] :=
        congrArg (· ++ [stop]) hjoin.symm
      _ = w :: (junk ++ ((segments words).flatten ++ [stop])) := by simp
    rw [hwords, wordFaults, step, stepReady_plain hplain hw, hrest,
      wordFaults_skipping hjunk hnext]
    rfl

end Parser

/-! ## The faults of a text -/

/-- The fault is about the grammar, not about the characters of a word. -/
def Fault.isGrammatical (f : Fault) : Bool :=
  match f.cause with
  | .lexical _ => false
  | .unexpected _ _ => true

/-- The faults that the parser reports. -/
def reported : Except (List Fault) (List Statement) → List Fault
  | .ok _ => []
  | .error faults => faults

/-- Lexical errors do not disturb the reading of the words around them. -/
theorem Parser.grammatical_events (s : Parser.State) (lexemes : List Lexeme) :
    (Parser.wrong (Parser.events s lexemes)).filter Fault.isGrammatical =
      Parser.wordFaults s (lexemes.filterMap Lexeme.word?) := by
  induction lexemes generalizing s with
  | nil => rfl
  | cons l lexemes ih =>
    obtain ⟨result, p⟩ := l
    cases result with
    | error e => exact ih s
    | ok t =>
      have hstep : (wrong (step s t p).1).filter Fault.isGrammatical = wrong (step s t p).1 := by
        rcases wrong_step s t p with hnone | ⟨x, hone⟩
        · rw [hnone]
          rfl
        · rw [hone]
          rfl
      rw [events, wrong_append, List.filter_append, hstep, ih]
      rfl

/-- The last lexeme of a text is its end, and no other is. -/
theorem Cursor.exists_lexemes_concat (c : Cursor) :
    ∃ front, c.lexemes = front ++ [⟨.ok .eof, c.position.advance c.rest⟩] ∧
      ∀ l ∈ front, l.result ≠ .ok .eof := by
  refine lexemes_induction_at (motive := fun c lexemes =>
    ∃ front, lexemes = front ++ [⟨.ok .eof, c.position.advance c.rest⟩] ∧
      ∀ l ∈ front, l.result ≠ .ok .eof) ?_ ?_ c
  · intro cs p _
    exact ⟨[], rfl, by simp⟩
  · rintro gap c cs p _ _ _ ⟨front, rfl, hend⟩
    refine ⟨(scan c cs).lexeme (p.advance gap) :: front, ?_, ?_⟩
    · rw [Position.advance_scan]
      rfl
    · refine List.forall_mem_cons.2 ⟨?_, hend⟩
      intro heof
      exact (scan_wellFormed c cs .eof (Scan.result_of_lexeme heof)).1

/-- The words of a text, and behind them its end. -/
theorem words_lexemes (source : String) :
    (Cursor.ofString source).lexemes.filterMap Lexeme.word? = wordsOf source ++ [endOf source] := by
  obtain ⟨front, hlexemes, hfront⟩ := (Cursor.ofString source).exists_lexemes_concat
  have hwords : ∀ w ∈ front.filterMap Lexeme.word?, w.token ≠ .eof := by
    intro w hw
    obtain ⟨⟨result, p⟩, hl, hword⟩ := List.mem_filterMap.1 hw
    cases result with
    | error e => cases hword
    | ok t =>
      cases hword
      intro heof
      exact hfront _ hl (congrArg Except.ok heof)
  have hkeep : (front.filterMap Lexeme.word?).filter (fun w => w.token ≠ .eof) =
      front.filterMap Lexeme.word? :=
    List.filter_eq_self.2 fun w hw => decide_eq_true (hwords w hw)
  rw [wordsOf, hlexemes, List.filterMap_append, List.filter_append, hkeep]
  simp [Lexeme.word?, endOf, Cursor.ofString]

/-- What the parser reports is what was noticed. -/
theorem reported_parse (source : String) :
    reported (parse source) = faults (Cursor.ofString source).lexemes := by
  rw [parse_eq_recorded]
  split
  next hnil => exact hnil.symm
  next => rfl

/-- **Recovery is local to a segment.**  Lexical errors apart, the parser reports for each text the
faults of its segments, in order: at the first word in front of the first keyword, if there is one,
and in each segment that is no clause at the first word that takes the clause no further.  The
message says what would have, or that a keyword is due if the clause was complete, and shows the
word. -/
theorem parse_recovers_by_segment (source : String) :
    (reported (parse source)).filter Fault.isGrammatical =
        textFaults (wordsOf source) (endOf source) ∧
      Splits (wordsOf source) (leading (wordsOf source)) (segments (wordsOf source)) ∧
      (∀ (segment : List Word) (next : Word), IsViable (segment.map Word.token) →
        firstMisfit [] next segment = misfit (segment.map Word.token) next) ∧
      (∀ (front : List Word) (w : Word) (rest : List Word) (next : Word),
        IsViable (front.map Word.token) → ¬ IsViable (front.map Word.token ++ [w.token]) →
        firstMisfit [] next (front ++ w :: rest) = misfit (front.map Word.token) w) ∧
      (∀ (read : List Token) (w : Word), (misfit read w).position = w.start ∧
        (misfit read w).message =
          "expected " ++ (expectedAfter read).text ++ ", found " ++ w.token.describe) ∧
      ∀ read, IsViable read → (IsClause read → expectedAfter read = .keyword) ∧
        (¬ IsClause read → ∀ t, IsViable (read ++ [t]) ↔ (expectedAfter read).admits t) := by
  refine ⟨?_, splits_words _, ?_, ?_, fun read w => ⟨rfl, rfl⟩, ?_⟩
  · have hend : ∀ w ∈ wordsOf source, w.token ≠ .eof := by
      intro w hw
      simpa using (List.mem_filter.1 hw).2
    have hgrammatical :=
      Parser.grammatical_events .ready (Cursor.ofString source).lexemes
    rw [words_lexemes, Parser.wordFaults_text hend rfl] at hgrammatical
    rw [reported_parse]
    exact hgrammatical
  · intro segment next hviable
    exact firstMisfit_of_isViable [] next hviable
  · intro front w rest next hviable hstuck
    exact firstMisfit_of_not_isViable [] next rest hviable hstuck
  · intro read hviable
    exact ⟨expectedAfter_of_isClause, Parser.isViable_append_iff hviable⟩

end QueryPipeline
