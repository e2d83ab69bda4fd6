/-
# Strings and numbers of a descriptor

Readers for the JSON literals.  Each takes the characters to come and yields what
it read and the characters left, or an error.  An error stands at the end of what
has been read, or one byte further where the next byte is the one at fault.

* `readString` : a string, with escapes and pairs of surrogates.
* `readNumber` : a number.  No number has a place in a descriptor, so all that
  counts is how a message shows it.
-/
import QueryPipeline.Decimal.Shortest
import QueryPipeline.Descriptor

namespace QueryPipeline.Descriptor

/-- The error at the end of what has been read. -/
def failHere {α : Type} (cause : DescriptorCause) (rest : List Char) : Except ReadError α :=
  .error ⟨cause, byteSize rest⟩

/-- The error one byte further, unless the text ends before. -/
def failNext {α : Type} (cause : DescriptorCause) (rest : List Char) : Except ReadError α :=
  .error ⟨cause, byteSize rest - 1⟩

/-! ## Strings -/

/-- The value of a hexadecimal digit. -/
def hexValue? (c : Char) : Option Nat :=
  if c.isDigit then some (c.toNat - '0'.toNat)
  else if 'a' ≤ c ∧ c ≤ 'f' then some (c.toNat - 'a'.toNat + 10)
  else if 'A' ≤ c ∧ c ≤ 'F' then some (c.toNat - 'A'.toNat + 10)
  else none

/-- The number of four hexadecimal digits. -/
def hexQuad? (a b c d : Char) : Option Nat := do
  return (((← hexValue? a) * 16 + (← hexValue? b)) * 16 + (← hexValue? c)) * 16 + (← hexValue? d)

/-- Reads four hexadecimal digits.  If they are not there, the four bytes are still passed over. -/
def readHexQuad (cs : List Char) : Except ReadError (Nat × List Char) :=
  let quad := match cs with
    | a :: b :: c :: d :: rest => (hexQuad? a b c d).map fun n => (n, rest)
    | _ => none
  match quad with
  | some result => .ok result
  | none =>
    if byteSize cs < 4 then .error ⟨.stringEnds, 0⟩
    else .error ⟨.invalidEscape, byteSize cs - 4⟩

/-- The first half of a pair of surrogates. -/
def isHighSurrogate (n : Nat) : Bool :=
  0xD800 ≤ n && n ≤ 0xDBFF

/-- The second half of a pair of surrogates. -/
def isLowSurrogate (n : Nat) : Bool :=
  0xDC00 ≤ n && n ≤ 0xDFFF

/-- The character of a pair of surrogates. -/
def surrogatePair (high low : Nat) : Char :=
  Char.ofNat ((high - 0xD800) * 0x400 + (low - 0xDC00) + 0x10000)

/-- Reads the second half of a pair of surrogates, after the first. -/
def readLowSurrogate (high : Nat) (cs : List Char) : Except ReadError (Char × List Char) :=
  match cs with
  | [] => failHere .stringEnds []
  | '\\' :: [] => failHere .stringEnds []
  | '\\' :: 'u' :: rest =>
    match readHexQuad rest with
    | .error e => .error e
    | .ok (low, rest) =>
      if isLowSurrogate low then .ok (surrogatePair high low, rest)
      else failHere .loneSurrogate rest
  | '\\' :: rest => failNext .hexEscapeEnds rest
  | rest => failNext .hexEscapeEnds rest

/-- Reads an escape by code unit, after its `u`. -/
def readCodeUnit (cs : List Char) : Except ReadError (Char × List Char) :=
  match readHexQuad cs with
  | .error e => .error e
  | .ok (n, rest) =>
    if isLowSurrogate n then failHere .loneSurrogate rest
    else if isHighSurrogate n then readLowSurrogate n rest
    else .ok (Char.ofNat n, rest)

/-- The character of an escape of one letter. -/
def shortEscape? (c : Char) : Option Char :=
  [('"', '"'), ('\\', '\\'), ('/', '/'), ('b', '\x08'), ('f', '\x0c'), ('n', '\n'), ('r', '\r'),
    ('t', '\t')].lookup c

/-- Reads an escape, after its backslash. -/
def readEscape (cs : List Char) : Except ReadError (Char × List Char) :=
  match cs with
  | [] => failHere .stringEnds []
  | e :: rest =>
    if e = 'u' then readCodeUnit rest
    else
      match shortEscape? e with
      | some c => .ok (c, rest)
      | none => failNext .invalidEscape (e :: rest)

theorem readHexQuad_length {cs rest : List Char} {n : Nat} (h : readHexQuad cs = .ok (n, rest)) :
    rest.length < cs.length := by
  unfold readHexQuad at h
  dsimp only at h
  split at h
  next quad hq =>
    cases h
    split at hq
    next a b c d tail =>
      obtain ⟨m, -, e⟩ := Option.map_eq_some_iff.1 hq
      cases e
      simp only [List.length_cons]
      omega
    next => exact absurd hq (by simp)
  next => split at h <;> exact absurd h (by simp)

theorem readLowSurrogate_length {high : Nat} {cs rest : List Char} {c : Char}
    (h : readLowSurrogate high cs = .ok (c, rest)) : rest.length < cs.length := by
  unfold readLowSurrogate at h
  split at h
  · exact absurd h (by simp [failHere])
  · exact absurd h (by simp [failHere])
  next tail =>
    split at h
    · exact absurd h (by simp)
    next low tail' hq =>
      have := readHexQuad_length hq
      split at h
      · simp only [Except.ok.injEq, Prod.mk.injEq] at h
        rw [← h.2]
        simp only [List.length_cons]
        omega
      · exact absurd h (by simp [failHere])
  · exact absurd h (by simp [failNext])
  · exact absurd h (by simp [failNext])

theorem readCodeUnit_length {cs rest : List Char} {c : Char} (h : readCodeUnit cs = .ok (c, rest)) :
    rest.length < cs.length := by
  unfold readCodeUnit at h
  split at h
  · exact absurd h (by simp)
  next n tail hq =>
    have quad := readHexQuad_length hq
    split at h
    · exact absurd h (by simp [failHere])
    · split at h
      · have := readLowSurrogate_length h
        omega
      · cases h
        exact quad

/-- An escape leaves fewer characters. -/
theorem readEscape_length {cs rest : List Char} {c : Char} (h : readEscape cs = .ok (c, rest)) :
    rest.length < cs.length := by
  unfold readEscape at h
  split at h
  · exact absurd h (by simp [failHere])
  · split at h
    · have := readCodeUnit_length h
      simp only [List.length_cons]
      omega
    · split at h
      · cases h
        simp
      · exact absurd h (by simp [failNext])

/-- Reads a string, after its opening quote. -/
def readString (cs : List Char) : Except ReadError (List Char × List Char) :=
  match cs with
  | [] => failHere .stringEnds []
  | '"' :: rest => .ok ([], rest)
  | '\\' :: rest =>
    match h : readEscape rest with
    | .error e => .error e
    | .ok (c, tail) =>
      have := readEscape_length h
      (readString tail).map fun (text, rest) => (c :: text, rest)
  | c :: rest =>
    if c.toNat < 0x20 then failNext .controlCharacter (c :: rest)
    else (readString rest).map fun (text, rest) => (c :: text, rest)
termination_by cs.length
decreasing_by
  · simp only [List.length_cons]
    omega
  · simp

/-! ## Numbers -/

/-- The value of a run of digits after the digits of `n`, as long as it stays within `limit`, and how
many digits are left out. -/
def appendDigits (limit n : Nat) : List Char → Nat × Nat
  | [] => (n, 0)
  | c :: cs =>
    let next := n * 10 + (c.toNat - '0'.toNat)
    if next ≤ limit then appendDigits limit next cs else (n, cs.length + 1)

/-- The number `x * 10 ^ e`, by one multiplication or division where the power is in range; `none` if
it is too large. -/
def scaleByTen (x : Float) (e : Int) : Option Float :=
  if 308 < e then (if x == 0 then some x else none)
  else if 0 ≤ e then
    let y := x * Float.ofScientific 1 false e.toNat
    if y.isInf then none else some y
  else if -308 ≤ e then some (x / Float.ofScientific 1 false (-e).toNat)
  else if x == 0 then some x
  else scaleByTen (x / Float.ofScientific 1 false 308) (e + 308)
termination_by (-e).toNat
decreasing_by omega

/-- The part of a number read so far: its sign, its leading digits as far as they fit 64 bits, and a
power of ten. -/
structure Mantissa where
  negative : Bool
  digits : Nat
  exponent : Int

/-- A number that is shown as a floating-point number. -/
def Mantissa.float (m : Mantissa) (rest : List Char) : Except ReadError (Misplaced × List Char) :=
  match scaleByTen m.digits.toUInt64.toFloat m.exponent with
  | none => failHere .numberOutOfRange rest
  | some x => .ok (.float (Decimal.textOf (if m.negative then -x else x)), rest)

/-- A zero that is shown as a floating-point number. -/
def Mantissa.zero (m : Mantissa) : Misplaced :=
  .float (Decimal.textOf (if m.negative then -0.0 else 0.0))

/-- The largest exponent that is read; further digits only say that it is larger. -/
def exponentLimit : Nat := Nat.pow 2 31 - 1

/-- The largest integer of 64 bits. -/
def integerLimit : Nat := Nat.pow 2 64 - 1

/-- Reads the digits of an exponent, after its sign. -/
def readExponentDigits (m : Mantissa) (negative : Bool) (cs : List Char) :
    Except ReadError (Misplaced × List Char) :=
  match cs with
  | [] => failHere .valueEnds []
  | c :: _ =>
    if c.isDigit then
      let digits := cs.takeWhile Char.isDigit
      let rest := cs.dropWhile Char.isDigit
      match appendDigits exponentLimit 0 digits with
      | (e, 0) =>
        let shift : Int := if negative then -e else e
        { m with exponent := m.exponent + shift }.float rest
      | (_, dropped + 1) =>
        if m.digits ≠ 0 ∧ !negative then .error ⟨.numberOutOfRange, byteSize rest + dropped⟩
        else .ok (m.zero, rest)
    else failNext .invalidNumber cs

/-- Reads an exponent, after its mark. -/
def readExponent (m : Mantissa) (cs : List Char) : Except ReadError (Misplaced × List Char) :=
  match cs with
  | '+' :: rest => readExponentDigits m false rest
  | '-' :: rest => readExponentDigits m true rest
  | rest => readExponentDigits m false rest

/-- Reads the digits after a decimal point. -/
def readFraction (m : Mantissa) (cs : List Char) : Except ReadError (Misplaced × List Char) :=
  let digits := cs.takeWhile Char.isDigit
  let (value, dropped) := appendDigits integerLimit m.digits digits
  let m' := { m with digits := value, exponent := m.exponent - (digits.length - dropped : Nat) }
  match digits, cs.dropWhile Char.isDigit with
  | [], [] => failHere .valueEnds []
  | [], rest => failNext .invalidNumber rest
  | _, 'e' :: rest => readExponent m' rest
  | _, 'E' :: rest => readExponent m' rest
  | _, rest => m'.float rest

/-- An integer, if it fits 64 bits.  Zero has no negative. -/
def Mantissa.integer (m : Mantissa) (rest : List Char) : Except ReadError (Misplaced × List Char) :=
  if !m.negative then .ok (.integer m.digits, rest)
  else if 0 < m.digits ∧ m.digits ≤ Nat.pow 2 63 then .ok (.integer (-(m.digits : Int)), rest)
  else m.float rest

/-- Reads a number, after its minus sign if it is negative. -/
def readNumber (negative : Bool) (cs : List Char) : Except ReadError (Misplaced × List Char) :=
  match cs with
  | [] => failHere .valueEnds []
  | '0' :: d :: rest =>
    if d.isDigit then failNext .invalidNumber (d :: rest) else continueNumber ['0'] (d :: rest)
  | c :: rest =>
    if c.isDigit then
      continueNumber (c :: rest.takeWhile Char.isDigit) (rest.dropWhile Char.isDigit)
    else failNext .invalidNumber (c :: rest)
where
  /-- Reads on after the digits before the point. -/
  continueNumber (digits rest : List Char) : Except ReadError (Misplaced × List Char) :=
    let (value, dropped) := appendDigits integerLimit 0 digits
    let m : Mantissa := ⟨negative, value, dropped⟩
    match rest with
    | '.' :: rest => readFraction m rest
    | 'e' :: rest => readExponent m rest
    | 'E' :: rest => readExponent m rest
    | rest => if dropped = 0 then m.integer rest else m.float rest

end QueryPipeline.Descriptor
