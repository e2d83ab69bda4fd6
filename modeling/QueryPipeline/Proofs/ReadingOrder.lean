/-
# Faults in reading order

The parser notices at most one fault with each lexeme, and no lexeme reaches into the
next one.  So no two faults stand at the same place, and faults are in reading order as
they are noticed: putting them in order, as `parse` does at last, changes nothing.

* `Ascending` : the lexemes follow each other in reading order;
* `Cursor.ascending_lexemes` : those of a text do;
* `Parser.pairwise_wrong_events` : the faults among ascending lexemes ascend too, each
  one strictly before the next;
* `parse_eq_recorded` : a text parses to its statements, or to its faults as they were
  noticed.
-/
import QueryPipeline.Proofs.Grammar

namespace QueryPipeline

/-! ## The reading order -/

namespace Position

theorem le_iff {p q : Position} :
    p.le q ↔ p.line < q.line ∨ (p.line = q.line ∧ p.column ≤ q.column) := by
  simp [le]

theorem le_refl (p : Position) : p.le p := by
  rw [le_iff]
  omega

theorem le_trans {p q r : Position} (hpq : p.le q) (hqr : q.le r) : p.le r := by
  rw [le_iff] at hpq hqr ⊢
  omega

/-- The reading order, strictly: an earlier line, or an earlier column of the same line. -/
def lt (p q : Position) : Prop :=
  p.line < q.line ∨ (p.line = q.line ∧ p.column < q.column)

theorem le_of_lt {p q : Position} (h : p.lt q) : p.le q := by
  rw [lt] at h
  rw [le_iff]
  omega

theorem lt_of_lt_of_le {p q r : Position} (hpq : p.lt q) (hqr : q.le r) : p.lt r := by
  rw [le_iff] at hqr
  rw [lt] at hpq ⊢
  omega

theorem lt_irrefl (p : Position) : ¬ p.lt p := by
  rw [lt]
  omega

theorem lt_step (p : Position) (c : Char) : p.lt (p.step c) := by
  rw [lt, step]
  by_cases hc : c = '\n'
  · rw [if_pos hc]
    exact Or.inl (Nat.lt_succ_self _)
  · rw [if_neg hc]
    exact Or.inr ⟨rfl, Nat.lt_succ_self _⟩

/-- Reading goes forward. -/
theorem le_advance (p : Position) (cs : List Char) : p.le (p.advance cs) := by
  induction cs generalizing p with
  | nil => exact le_refl p
  | cons c cs ih => exact le_trans (le_of_lt (lt_step p c)) (ih (p.step c))

/-- A part of some characters ends before their end. -/
theorem advance_lt_advance (p : Position) {cs ds : List Char} (h : cs <+: ds) (hne : cs ≠ ds) :
    (p.advance cs).lt (p.advance ds) := by
  obtain ⟨es, rfl⟩ := h
  rw [advance_append]
  cases es with
  | nil => exact absurd (List.append_nil cs).symm hne
  | cons c es => exact lt_of_lt_of_le (lt_step _ c) (le_advance _ es)

end Position

/-- The lexemes follow each other in reading order, from `p` on: each ends, at some `r`, before the
next one starts, and an error among them is about a place inside its lexeme.  The last one is a
token. -/
inductive Ascending : Position → List Lexeme → Prop where
  | last {p q : Position} (t : Token) (start : p.le q) : Ascending p [⟨.ok t, q⟩]
  | cons {p r : Position} {l : Lexeme} {lexemes : List Lexeme} (start : p.le l.start)
      (stop : l.start.lt r)
      (error : ∀ e, l.result = .error e → l.start.le e.position ∧ e.position.lt r)
      (rest : Ascending r lexemes) : Ascending p (l :: lexemes)

/-- The place of an error lies inside its lexeme. -/
theorem LexicalCause.locate_between (cause : LexicalCause) (start : Position) {taken : List Char}
    (htaken : taken ≠ []) : start.le (cause.locate start taken) ∧
      (cause.locate start taken).lt (start.advance taken) := by
  have hstart : start.lt (start.advance taken) :=
    start.advance_lt_advance List.nil_prefix htaken.symm
  cases cause with
  | missingFieldName =>
    refine ⟨start.le_advance _, start.advance_lt_advance (List.dropLast_prefix taken) ?_⟩
    intro heq
    have hlength := congrArg List.length heq
    have hpos := List.length_pos_iff.2 htaken
    rw [List.length_dropLast] at hlength
    omega
  | unexpectedChar c => exact ⟨start.le_refl, hstart⟩
  | unterminatedString => exact ⟨start.le_refl, hstart⟩

/-- The lexemes of a text follow each other in reading order. -/
theorem Cursor.ascending_lexemes (c : Cursor) : Ascending c.position c.lexemes := by
  refine lexemes_induction_at (motive := fun c lexemes => Ascending c.position lexemes) ?_ ?_ c
  · intro cs p _
    exact .last .eof (p.le_advance cs)
  · intro gap c cs p lexemes _ _ ih
    have htaken := scan_taken_ne_nil c cs
    refine .cons (p.le_advance gap) ?_ ?_ ih
    · exact Position.advance_lt_advance _ List.nil_prefix htaken.symm
    · intro e he
      obtain ⟨cause, -, rfl⟩ := Scan.error_of_lexeme he
      exact cause.locate_between _ htaken

/-! ## Faults ascend -/

namespace Parser

/-- Reading a token between two statements yields no fault, or one about the token. -/
theorem wrong_stepReady (t : Token) (p : Position) :
    wrong (stepReady t p).1 = [] ∨ ∃ x, wrong (stepReady t p).1 = [⟨p, .unexpected x t⟩] := by
  unfold stepReady
  split
  · exact Or.inl rfl
  split
  · exact Or.inl rfl
  · exact Or.inr ⟨.keyword, rfl⟩

/-- Reading a token yields no fault, or one about the token. -/
theorem wrong_step (s : State) (t : Token) (p : Position) :
    wrong (step s t p).1 = [] ∨ ∃ x, wrong (step s t p).1 = [⟨p, .unexpected x t⟩] := by
  cases s with
  | ready => exact wrong_stepReady t p
  | skipping => exact Or.inl rfl
  | drafting line draft =>
    cases draft.reading t with
    | refused hextend =>
      rw [step, stepDraft, hextend]
      exact Or.inr ⟨draft.expects, rfl⟩
    | completed clause _ _ _ hextend => simp [step, stepDraft, hextend]
    | continued next _ _ hextend => simp [step, stepDraft, hextend]
    | listed fields _ _ _ hextend => simp [step, stepDraft, hextend]
  | listing line fields =>
    by_cases hcomma : t = .comma
    · subst hcomma
      exact Or.inl rfl
    · rw [step_listing hcomma, wrong_statement]
      exact wrong_stepReady t p

/-- Reading a token yields no fault, or one at its place. -/
theorem position_wrong_step (s : State) (t : Token) (p : Position) :
    (wrong (step s t p).1).length ≤ 1 ∧ ∀ f ∈ wrong (step s t p).1, f.position = p := by
  rcases wrong_step s t p with hnone | ⟨x, hone⟩
  · rw [hnone]
    simp
  · rw [hone]
    simp

/-- Reading a lexeme yields at most one fault, inside the lexeme. -/
theorem exists_wrong_events_cons {l : Lexeme} {r : Position} (stop : l.start.lt r)
    (error : ∀ e, l.result = .error e → l.start.le e.position ∧ e.position.lt r)
    (s : State) (lexemes : List Lexeme) :
    ∃ fs s', wrong (events s (l :: lexemes)) = fs ++ wrong (events s' lexemes) ∧
      fs.length ≤ 1 ∧ ∀ f ∈ fs, l.start.le f.position ∧ f.position.lt r := by
  obtain ⟨result, start⟩ := l
  cases result with
  | error e =>
    refine ⟨[⟨e.position, .lexical e.cause⟩], s, by simp [events], Nat.le_refl _, ?_⟩
    intro f hf
    obtain rfl := List.mem_singleton.1 hf
    exact error e rfl
  | ok t =>
    obtain ⟨hlength, hposition⟩ := position_wrong_step s t start
    refine ⟨_, (step s t start).2, by rw [events, wrong_append], hlength, ?_⟩
    intro f hf
    rw [hposition f hf]
    exact ⟨start.le_refl, stop⟩

theorem pairwise_of_length_le_one {fs : List Fault} (h : fs.length ≤ 1) :
    fs.Pairwise fun a b => a.position.lt b.position := by
  cases fs with
  | nil => exact List.Pairwise.nil
  | cons f fs =>
    obtain rfl : fs = [] := by
      rw [List.length_cons] at h
      exact List.length_eq_zero_iff.1 (by omega)
    exact List.pairwise_singleton _ f

/-- **Faults are noticed in reading order**, and no two stand at the same place.  The invariant of the
run is that what is still to come lies behind the place reached so far. -/
theorem pairwise_wrong_events {p : Position} {lexemes : List Lexeme} (h : Ascending p lexemes)
    (s : State) :
    (∀ f ∈ wrong (events s lexemes), p.le f.position) ∧
      (wrong (events s lexemes)).Pairwise fun a b => a.position.lt b.position := by
  induction h generalizing s with
  | @last p q t start =>
    obtain ⟨hlength, hposition⟩ := position_wrong_step s t q
    rw [events, events, List.append_nil]
    refine ⟨?_, pairwise_of_length_le_one hlength⟩
    intro f hf
    rw [hposition f hf]
    exact start
  | @cons p r l lexemes start stop error rest ih =>
    obtain ⟨fs, s', hevents, hlength, hinside⟩ := exists_wrong_events_cons stop error s lexemes
    obtain ⟨hbehind, hpairwise⟩ := ih s'
    rw [hevents]
    constructor
    · intro f hf
      rcases List.mem_append.1 hf with hf | hf
      · exact Position.le_trans start (hinside f hf).1
      · have hle := Position.le_trans (Position.le_of_lt stop) (hbehind f hf)
        exact Position.le_trans start hle
    · rw [List.pairwise_append]
      refine ⟨pairwise_of_length_le_one hlength, hpairwise, ?_⟩
      intro f hf g hg
      exact Position.lt_of_lt_of_le (hinside f hf).2 (hbehind g hg)

end Parser

/-- The faults of a text as they are noticed, each strictly before the next. -/
theorem pairwise_faults (source : String) :
    (faults (Cursor.ofString source).lexemes).Pairwise fun a b => a.position.lt b.position :=
  (Parser.pairwise_wrong_events (Cursor.ascending_lexemes (Cursor.ofString source)) .ready).2

/-- **A text parses to its statements, or to its faults as they were noticed.** -/
theorem parse_eq_recorded (source : String) :
    parse source =
      if faults (Cursor.ofString source).lexemes = [] then
        .ok (statements (Cursor.ofString source).lexemes)
      else .error (faults (Cursor.ofString source).lexemes) := by
  have hpairwise := (pairwise_faults source).imp Position.le_of_lt
  rw [parse, parseLexemes]
  split
  next hnil => rw [hnil, if_pos rfl]
  next hne =>
    rw [if_neg hne]
    exact congrArg Except.error (List.mergeSort_of_pairwise hpairwise)

end QueryPipeline
