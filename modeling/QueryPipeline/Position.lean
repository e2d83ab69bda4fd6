/-
# Positions in a text

A position is a line, counted from 1, and a column, counted from 0 in characters.
Only a line feed starts a new line.

* `Position.advance` : where a position stands after some characters.
* `Position.le` : the reading order.
-/

namespace QueryPipeline

/-- A place in a source text. -/
structure Position where
  line : Nat
  column : Nat
  deriving DecidableEq

namespace Position

/-- The first position of a text. -/
def first : Position := ⟨1, 0⟩

/-- The position after one more character. -/
def step (p : Position) (c : Char) : Position :=
  if c = '\n' then ⟨p.line + 1, 0⟩ else ⟨p.line, p.column + 1⟩

/-- The position after some more characters. -/
def advance (p : Position) (cs : List Char) : Position :=
  cs.foldl step p

/-- The reading order: by line, then by column. -/
def le (p q : Position) : Bool :=
  p.line < q.line || (p.line == q.line && p.column ≤ q.column)

/-- Written `line:column`. -/
def text (p : Position) : String :=
  toString p.line ++ ":" ++ toString p.column

end Position

/-- Something that stands on a line of a source text. -/
structure Located (α : Type) where
  line : Nat
  item : α
  deriving DecidableEq

/-- Changes the item and keeps its line. -/
def Located.map {α β : Type} (f : α → β) (x : Located α) : Located β :=
  ⟨x.line, f x.item⟩

end QueryPipeline
