/-
# Recursive descent

A program can also be parsed by loops that move over the text, with one token in view: pass
over what is no token, read one clause, skip to the next keyword after an error, and so on
to the end of the text.  Nothing in these loops says that they end, so they are written as
computations that may have no result.

* `iterate` : a loop, which has a result only if it ends;
* `advance`, `synchronize`, `moreFields`, `program` : the loops;
* `command`, `round` : one statement, and one round of the outer loop;
* `descend` : the parser that consists of the loops;
* `exists_iterate` : a loop ends if each of its rounds makes something smaller.

The other theorems say how each part goes on from a reader, given how the parts end that it
runs.
-/
import Mathlib.Data.PFun
import QueryPipeline.Proofs.FaultReport

namespace QueryPipeline

namespace Token

/-- The text of a string literal. -/
def string? : Token → Option String
  | string text => some text
  | _ => none

/-- The text of a field path. -/
def path? : Token → Option String
  | path text => some text
  | _ => none

/-- The comparison that an operator stands for. -/
def operator? : Token → Option Comparison
  | operator op => some op
  | _ => none

/-- Whether the token is the word AS. -/
def asWord? : Token → Option Unit
  | asWord => some ()
  | _ => none

end Token

namespace Descent

/-! ## The loops -/

/-- A reader of a text: the token in view, where it starts, the text behind it, and the faults noted
so far. -/
structure Reader where
  cursor : Cursor
  token : Token
  place : Position
  faults : List Fault

namespace Reader

/-- The reader before it has looked at a text. -/
def ofString (source : String) : Reader := ⟨.ofString source, .eof, .first, []⟩

/-- Notes a fault. -/
def note (r : Reader) (f : Fault) : Reader := { r with faults := r.faults ++ [f] }

/-- The fault that something else was expected than the token in view. -/
def unexpected (r : Reader) (expected : Expectation) : Fault :=
  ⟨r.place, .unexpected expected r.token⟩

/-- The token in view ends the skipping after an error. -/
def Stops (r : Reader) : Prop := r.token.startsCommand ∨ r.token = .eof

instance (r : Reader) : Decidable r.Stops := inferInstanceAs (Decidable (_ ∨ _))

end Reader

/-- A computation that moves a reader, and need not end. -/
abbrev Move := StateT Reader Part

/-- A move that may come upon a fault. -/
abbrev Phrase := ExceptT Fault Move

/-- Repeats a move until it gives a result; `b` is what the rounds hand on. -/
def iterate {α β : Type} (body : β → Move (α ⊕ β)) (b : β) : Move α := fun r =>
  PFun.fix (fun x : β × Reader =>
    ((body x.1).run x.2).map fun y => y.1.map (fun a => (a, y.2)) (fun b => (b, y.2))) (b, r)

/-- Reads a lexeme: a token comes into view, an error is noted and passed over. -/
def passLexeme : Move (Unit ⊕ Unit) := do
  let r ← get
  match r.cursor.next with
  | (⟨.ok t, p⟩, c) =>
    set { r with cursor := c, token := t, place := p }
    return .inl ()
  | (⟨.error e, _⟩, c) =>
    set { r.note e.fault with cursor := c }
    return .inr ()

/-- Moves to the next token. -/
def advance : Move Unit := iterate (fun _ => passLexeme) ()

/-- Skips the token in view, unless the skipping ends there. -/
def skipToken : Move (Unit ⊕ Unit) := do
  if (← get).Stops then return .inl ()
  else
    advance
    return .inr ()

/-- Skips tokens up to the next one that opens a statement. -/
def synchronize : Move Unit := iterate (fun _ => skipToken) ()

/-- Takes the token in view, which has to be of one kind. -/
def expect {α : Type} (expected : Expectation) (accepts : Token → Option α) : Phrase α := do
  let r ← get
  match accepts r.token with
  | some a =>
    advance
    return a
  | none => throw (r.unexpected expected)

/-- Adds a field to those of a SELECT, if a comma announces one. -/
def addField (fields : List String) : Move (Except Fault (List String) ⊕ List String) := do
  if (← get).token = .comma then
    advance
    match ← (expect .field Token.path?).run with
    | .ok field => return .inr (fields ++ [field])
    | .error e => return .inl (.error e)
  else return .inl (.ok fields)

/-- The fields of a SELECT behind those already read, as long as a comma announces one. -/
def moreFields (fields : List String) : Phrase (List String) :=
  ExceptT.mk (iterate addField fields)

/-- How the clause goes on that a keyword opens. -/
def clause? : Token → Option (Phrase Clause)
  | .load => some do
    let path ← expect .loadPath Token.string?
    return .load path
  | .filter => some do
    let left ← expect .value Token.value?
    let op ← expect .comparison Token.operator?
    let right ← expect .value Token.value?
    return .filter left op right
  | .select => some do
    let field ← expect .field Token.path?
    let fields ← moreFields [field]
    return .select fields
  | .save => some do
    expect .asWord Token.asWord?
    let path ← expect .savePath Token.string?
    return .save path
  | _ => none

/-- Reads a statement, which has to start with a keyword. -/
def command : Phrase Statement := do
  let r ← get
  match clause? r.token with
  | some clause =>
    advance
    let c ← clause
    return ⟨r.place.line, c⟩
  | none => throw (r.unexpected .keyword)

/-- One round of the outer loop: a statement, or a fault and the way to the next keyword. -/
def round : Move (Option Statement) := do
  match ← command.run with
  | .ok s => return some s
  | .error e =>
    modify fun r => r.note e
    synchronize
    return none

/-- Adds what a round yields to the statements read, unless the text is at its end. -/
def addStatement (read : List Statement) : Move (List Statement ⊕ List Statement) := do
  if (← get).token = .eof then return .inl read
  else
    let s? ← round
    return .inr (read ++ s?.toList)

/-- The outer loop: the statements up to the end of the text, behind those already read. -/
def program (read : List Statement) : Move (List Statement) := iterate addStatement read

/-- All moves over a text: to its first token, and on to its end. -/
def readAll : Move (List Statement) := do
  advance
  program []

/-- What a reader makes of the statements that it has read: they count if there is no fault. -/
def Reader.outcome (r : Reader) (read : List Statement) : Except (List Fault) (List Statement) :=
  match r.faults with
  | [] => .ok read
  | errors => .error (errors.mergeSort fun a b => a.position.le b.position)

/-- The program that a text holds, or all that is wrong with it, in reading order. -/
def descend (source : String) : Part (Except (List Fault) (List Statement)) :=
  (readAll.run (.ofString source)).map fun x => x.2.outcome x.1

/-! ## How the parts go on -/

section Run

variable {α β : Type} {r r' : Reader}

theorem run_get_bind (f : Reader → Move α) : (do let r ← get; f r : Move α).run r = (f r).run r :=
  Part.bind_some (r, r) fun y => f y.1 y.2

/-- What follows a move that ends goes on from where it has led. -/
theorem run_bind_some {x : Move α} {a : α} (h : x.run r = .some (a, r')) (f : α → Move β) :
    (x >>= f).run r = (f a).run r' := by
  rw [StateT.run_bind, h]
  exact Part.bind_some (a, r') fun y => (f y.1).run y.2

theorem run_bind_ok {x : Phrase α} {a : α} (h : x.run.run r = .some (.ok a, r'))
    (f : α → Phrase β) : (x >>= f).run.run r = (f a).run.run r' := by
  rw [ExceptT.run_bind]
  exact run_bind_some h _

/-- A fault ends a phrase, whatever would follow. -/
theorem run_bind_error {x : Phrase α} {e : Fault} (h : x.run.run r = .some (.error e, r'))
    (f : α → Phrase β) : (x >>= f).run.run r = .some (.error e, r') := by
  rw [ExceptT.run_bind]
  exact run_bind_some h _

theorem run_liftM {x : Move α} {a : α} (h : x.run r = .some (a, r')) :
    (liftM x : Phrase α).run.run r = .some (.ok a, r') := by
  rw [ExceptT.run_liftM, StateT.run_map, h]
  exact Part.map_some _ _

theorem run_get (r : Reader) : (get : Phrase Reader).run.run r = .some (.ok r, r) :=
  run_liftM (x := get) rfl

theorem run_advance_bind (h : advance.run r = .some ((), r')) (x : Phrase α) :
    (do advance; x : Phrase α).run.run r = x.run.run r' :=
  run_bind_ok (run_liftM h) _

/-- A token comes into view, and no further lexeme is read. -/
theorem run_passLexeme_ok {t : Token} {p : Position} {c : Cursor}
    (h : r.cursor.next = (⟨.ok t, p⟩, c)) :
    passLexeme.run r = .some (.inl (), { r with cursor := c, token := t, place := p }) := by
  rw [passLexeme, run_get_bind, h]
  exact run_bind_some rfl _

/-- What is no token is noted as a fault, and the next lexeme is due. -/
theorem run_passLexeme_error {e : LexicalError} {p : Position} {c : Cursor}
    (h : r.cursor.next = (⟨.error e, p⟩, c)) :
    passLexeme.run r = .some (.inr (), { r.note e.fault with cursor := c }) := by
  rw [passLexeme, run_get_bind, h]
  exact run_bind_some rfl _

/-- The skipping ends before a keyword, and at the end of the text. -/
theorem run_skipToken_of_stops (h : r.Stops) : skipToken.run r = .some (.inl (), r) := by
  rw [skipToken, run_get_bind, if_pos h]
  rfl

theorem run_skipToken_of_not_stops (h : ¬ r.Stops) (hadvance : advance.run r = .some ((), r')) :
    skipToken.run r = .some (.inr (), r') := by
  rw [skipToken, run_get_bind, if_neg h]
  exact run_bind_some hadvance _

/-- A token of the kind that is due is taken, and the next one comes into view. -/
theorem run_expect_some {expected : Expectation} {accepts : Token → Option α} {a : α}
    (h : accepts r.token = some a) (hadvance : advance.run r = .some ((), r')) :
    (expect expected accepts).run.run r = .some (.ok a, r') := by
  rw [expect, run_bind_ok (run_get r), h]
  exact run_advance_bind hadvance (pure a)

/-- Any other token stays in view, and the fault tells what was due in its place. -/
theorem run_expect_none {expected : Expectation} {accepts : Token → Option α}
    (h : accepts r.token = none) :
    (expect expected accepts).run.run r = .some (.error (r.unexpected expected), r) := by
  rw [expect, run_bind_ok (run_get r), h]
  rfl

/-- Without a comma the fields are complete. -/
theorem run_addField_stop (h : r.token ≠ .comma) (fields : List String) :
    (addField fields).run r = .some (.inl (.ok fields), r) := by
  rw [addField, run_get_bind, if_neg h]
  rfl

/-- A comma and a path behind it add one field. -/
theorem run_addField_ok {r₁ : Reader} {field : String} (h : r.token = .comma)
    (hadvance : advance.run r = .some ((), r₁))
    (hfield : (expect .field Token.path?).run.run r₁ = .some (.ok field, r'))
    (fields : List String) : (addField fields).run r = .some (.inr (fields ++ [field]), r') := by
  rw [addField, run_get_bind, if_pos h, run_bind_some hadvance, run_bind_some hfield]
  rfl

/-- A comma without a path behind it ends the fields with a fault. -/
theorem run_addField_error {r₁ : Reader} {e : Fault} (h : r.token = .comma)
    (hadvance : advance.run r = .some ((), r₁))
    (hfield : (expect .field Token.path?).run.run r₁ = .some (.error e, r'))
    (fields : List String) : (addField fields).run r = .some (.inl (.error e), r') := by
  rw [addField, run_get_bind, if_pos h, run_bind_some hadvance, run_bind_some hfield]
  rfl

/-- Behind its keyword a statement is read as its clause; it stands on the line of the keyword. -/
theorem run_command_some {clause : Phrase Clause} (h : clause? r.token = some clause)
    (hadvance : advance.run r = .some ((), r')) : command.run.run r =
      (do let c ← clause; return ⟨r.place.line, c⟩ : Phrase Statement).run.run r' := by
  rw [command, run_bind_ok (run_get r), h]
  exact run_advance_bind hadvance _

/-- No statement is read without a keyword, and the token in view stays there. -/
theorem run_command_none (h : clause? r.token = none) :
    command.run.run r = .some (.error (r.unexpected .keyword), r) := by
  rw [command, run_bind_ok (run_get r), h]
  rfl

theorem run_round_ok {s : Statement} (h : command.run.run r = .some (.ok s, r')) :
    round.run r = .some (some s, r') := by
  rw [round, run_bind_some h]
  rfl

/-- After a fault a round yields no statement: the fault is noted, and all is skipped up to the
next keyword. -/
theorem run_round_error {r₁ : Reader} {e : Fault} (h : command.run.run r = .some (.error e, r₁))
    (hskip : synchronize.run (r₁.note e) = .some ((), r')) : round.run r = .some (none, r') := by
  have hnote : (modify fun r => r.note e : Move Unit).run r₁ = .some ((), r₁.note e) := rfl
  rw [round, run_bind_some h]
  dsimp only
  rw [run_bind_some hnote, run_bind_some hskip]
  rfl

theorem run_addStatement_eof (h : r.token = .eof) (read : List Statement) :
    (addStatement read).run r = .some (.inl read, r) := by
  rw [addStatement, run_get_bind, if_pos h]
  rfl

/-- Before the end of the text, one more round is run, and what it yields is kept. -/
theorem run_addStatement_round (h : r.token ≠ .eof) {s? : Option Statement}
    (hround : round.run r = .some (s?, r')) (read : List Statement) :
    (addStatement read).run r = .some (.inr (read ++ s?.toList), r') := by
  rw [addStatement, run_get_bind, if_neg h]
  exact run_bind_some hround _

end Run

/-! ## Loops that end -/

section Iterate

variable {α β : Type} {body : β → Move (α ⊕ β)}

/-- A loop ends as soon as a round gives a result. -/
theorem run_iterate_stop {a : α} {b : β} {r r' : Reader}
    (h : (body b).run r = .some (.inl a, r')) : (iterate body b).run r = .some (a, r') := by
  refine Part.eq_some_iff.2 (PFun.fix_stop ?_)
  rw [h]
  exact Part.mem_map _ (Part.mem_some _)

/-- A loop whose round gives no result goes on from where the round has led. -/
theorem run_iterate_again {b b' : β} {r r' : Reader} (h : (body b).run r = .some (.inr b', r')) :
    (iterate body b).run r = (iterate body b').run r' := by
  refine PFun.fix_fwd_eq ?_
  rw [h]
  exact Part.mem_map _ (Part.mem_some _)

/-- One round of a loop whose results should be as `P` says: it gives such a result, or it goes on,
smaller in `size`, from where such a result is enough. -/
inductive Proceeds (body : β → Move (α ⊕ β)) (size : β → Reader → Nat)
    (P : β → Reader → α → Reader → Prop) (b : β) (r : Reader) : Prop where
  | stop (a : α) (r' : Reader) (run : (body b).run r = .some (.inl a, r')) (holds : P b r a r')
  | again (b' : β) (r₁ : Reader) (run : (body b).run r = .some (.inr b', r₁))
      (less : size b' r₁ < size b r) (enough : ∀ a r', P b' r₁ a r' → P b r a r')

/-- **A loop ends** if each of its rounds proceeds. -/
theorem exists_iterate {size : β → Reader → Nat} {P : β → Reader → α → Reader → Prop}
    (h : ∀ b r, Proceeds body size P b r) (b : β) (r : Reader) :
    ∃ a r', (iterate body b).run r = .some (a, r') ∧ P b r a r' := by
  induction hsize : size b r using Nat.strongRecOn generalizing b r with
  | ind n ih =>
    cases h b r with
    | stop a r' run holds => exact ⟨a, r', run_iterate_stop run, holds⟩
    | again b' r₁ run less enough =>
      obtain ⟨a, r', hrun, hholds⟩ := ih (size b' r₁) (hsize ▸ less) b' r₁ rfl
      exact ⟨a, r', (run_iterate_again run).trans hrun, enough a r' hholds⟩

end Iterate

end Descent

end QueryPipeline
