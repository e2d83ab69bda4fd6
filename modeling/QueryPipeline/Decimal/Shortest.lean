/-
# Shortest decimals

The text of a double-precision number: the fewest digits that read back as the
same number, and among those the nearest.  The digits are found on the decimal
grids of 1, 2, … 17 digits in exact arithmetic: on each grid only the two
neighbours of the number can round to it.

* `Binary.shortest` : the digits and the exponent of the first of them.
* `Binary.text` : positional from 10⁻⁵ up to below 10¹⁶, with an exponent otherwise.
-/

namespace QueryPipeline.Decimal

/-- The number `mantissa * 2 ^ exponent`, as it is stored in double precision. -/
structure Binary where
  mantissa : Nat
  exponent : Int

/-- Takes a finite number apart, without its sign. -/
def Binary.ofFloat (x : Float) : Binary :=
  let bits := x.toBits.toNat % Nat.pow 2 63
  let fraction := bits % Nat.pow 2 52
  match bits / Nat.pow 2 52 with
  | 0 => ⟨fraction, -1074⟩
  | e => ⟨Nat.pow 2 52 + fraction, (e : Int) - 1075⟩

/-- A decimal number: digits `d₁ d₂ … dₙ` for `d₁.d₂…dₙ * 10 ^ exponent`. -/
structure Digits where
  digits : List Char
  exponent : Int

namespace Binary

/-- The number, and the two ends of the interval of numbers that round to it, in quarters of its
unit in the last place.  Below a power of two the numbers lie twice as dense. -/
def quarters (b : Binary) : Nat × Nat × Nat :=
  let low := if b.mantissa = Nat.pow 2 52 ∧ -1074 < b.exponent then 1 else 2
  (4 * b.mantissa, 4 * b.mantissa - low, 4 * b.mantissa + 2)

/-- The factors that turn quarters into multiples of `10 ^ scale`: numerator and denominator. -/
def ratio (b : Binary) (scale : Int) : Nat × Nat :=
  let e := b.exponent - 2
  (Nat.pow 2 e.toNat * Nat.pow 10 (-scale).toNat, Nat.pow 2 (-e).toNat * Nat.pow 10 scale.toNat)

/-- The exponent of the first decimal digit. -/
def leading (b : Binary) : Int :=
  let candidates := (List.range 634).map fun (i : Nat) => (309 : Int) - i
  (candidates.find? fun scale =>
    (b.ratio scale).2 ≤ b.quarters.1 * (b.ratio scale).1).getD 0

/-- The multiple of `10 ^ scale` that rounds to the number, if there is one: the nearest, and of two
equally near the even one. -/
def onGrid? (b : Binary) (scale : Int) : Option Nat :=
  let (num, den) := b.ratio scale
  let (value, low, high) := b.quarters
  let closed := b.mantissa % 2 = 0
  let below := value * num / den
  let above := below + 1
  let belowFits := low * num < below * den ∨ (closed ∧ low * num = below * den)
  let aboveFits := above * den < high * num ∨ (closed ∧ above * den = high * num)
  let toBelow := value * num - below * den
  let toAbove := above * den - value * num
  if belowFits ∧ aboveFits then
    some (if toBelow < toAbove ∨ (toBelow = toAbove ∧ below % 2 = 0) then below else above)
  else if belowFits then some below
  else if aboveFits then some above
  else none

/-- The fewest digits that read back.  Seventeen always do. -/
def shortest (b : Binary) : Digits :=
  let lead := b.leading
  let hit := (List.range 17).findSome? fun (n : Nat) => (b.onGrid? (lead - n)).map fun k => (n, k)
  match hit with
  | none => ⟨['0'], 0⟩
  | some (n, k) =>
    let digits := Nat.toDigits 10 k
    let carried := digits.length - (n + 1)
    ⟨(digits.reverse.dropWhile (· == '0')).reverse, lead + carried⟩

end Binary

namespace Digits

/-- Written without an exponent, always with a point. -/
def positional (d : Digits) : List Char :=
  if d.exponent < 0 then
    '0' :: '.' :: (List.replicate (-d.exponent - 1).toNat '0' ++ d.digits)
  else
    let whole := d.digits.take (d.exponent.toNat + 1)
    let padding := List.replicate (d.exponent.toNat + 1 - d.digits.length) '0'
    match d.digits.drop (d.exponent.toNat + 1) with
    | [] => whole ++ padding ++ ['.', '0']
    | fraction => whole ++ '.' :: fraction

/-- Written with an exponent, which has a sign. -/
def scientific (d : Digits) : List Char :=
  let fraction := match d.digits.drop 1 with
    | [] => []
    | rest => '.' :: rest
  let sign := if d.exponent < 0 then '-' else '+'
  d.digits.take 1 ++ fraction ++ 'e' :: sign :: Nat.toDigits 10 d.exponent.natAbs

/-- Positional from `10 ^ -5` up to below `10 ^ 16`. -/
def text (d : Digits) : List Char :=
  if -5 ≤ d.exponent ∧ d.exponent ≤ 15 then d.positional else d.scientific

end Digits

/-- The text of a finite number. -/
def textOf (x : Float) : String :=
  let b := Binary.ofFloat x
  let sign := if x.toBits.toNat / Nat.pow 2 63 = 1 then ['-'] else []
  let digits := if b.mantissa = 0 then ['0', '.', '0'] else b.shortest.text
  String.ofList (sign ++ digits)

end QueryPipeline.Decimal
