import LineCalc.Decimal.Binary

/-!
# Shortest decimal text

The shortest decimal that reads back as a given double. A double stands for the interval of reals
that round to it; of the decimals with the fewest digits inside that interval the nearest to the
double is chosen. If any point of a decimal grid lies in the interval then so does one of the
double's two neighbours on that grid, so only these two are tried for each count of digits.

`DecimalLayout` then says how the digits are set out.
-/

namespace LineCalc.Decimal

/-- The decimal `digits · 10^exponent`. -/
structure Scientific where
  digits : Nat
  exponent : Int
deriving DecidableEq, Repr

/-- The interval that rounds to a positive double, in quarters of the unit `2^exponent`. -/
structure Rounding where
  low : Nat
  middle : Nat
  high : Nat
  exponent : Int
  closed : Bool

/-- The least exponent of a double, at which the doubles below a power of two are not denser. -/
def leastExponent : Int := -1074

/-- The interval around `m · 2^e`. Below a power of two the doubles lie twice as dense. -/
def Rounding.around (m : Nat) (e : Int) : Rounding where
  low := if m == twoTo 52 && e > leastExponent then 4 * m - 1 else 4 * m - 2
  middle := 4 * m
  high := 4 * m + 2
  exponent := e - 2
  closed := m % 2 == 0

/-- The scale factors that compare `c · 10^k` with `x · 2^e` as `c * fst` with `x * snd`. -/
def scales (k e : Int) : Nat × Nat :=
  (tenTo k.toNat * twoTo (-e).toNat, twoTo e.toNat * tenTo (-k).toNat)

/-- The nearest to the middle among the two neighbours of it on the grid of `10^k` that lie in the
interval; of two equally near ones the even. -/
def Rounding.onGrid (r : Rounding) (k : Int) : Option Nat :=
  let (decimalUnit, binaryUnit) := scales k r.exponent
  let middle := r.middle * binaryUnit
  let below := middle / decimalUnit
  let inside (c : Nat) : Bool :=
    let x := c * decimalUnit
    if r.closed then r.low * binaryUnit ≤ x && x ≤ r.high * binaryUnit
    else r.low * binaryUnit < x && x < r.high * binaryUnit
  let rest := 2 * (middle % decimalUnit)
  let belowNearer := rest < decimalUnit || rest == decimalUnit && below % 2 == 0
  if inside below && (belowNearer || !inside (below + 1)) then some below
  else if inside (below + 1) then some (below + 1)
  else none

/-- The number of decimal digits of `n`; zero has none. -/
def digitCount (n : Nat) : Nat :=
  if n == 0 then 0 else (Nat.toDigits 10 n).length

/-- The place of the first digit of a positive number: `10^(p-1) ≤ x < 10^p`. -/
def leadingPlace (b : Binary) : Int :=
  let (num, den) := b.fraction
  if num ≥ den then digitCount (num / den)
  else digitCount (num * tenTo 400 / den) - 400

/-- Seventeen digits always tell doubles apart. -/
def enoughDigits : Nat := 17

/-- The shortest decimal that reads back as the magnitude of the double. -/
def shortest (b : Binary) : Scientific :=
  if b.mantissa == 0 then ⟨0, 0⟩
  else
    let r := Rounding.around b.mantissa b.exponent
    let p := leadingPlace b
    let found := (List.range enoughDigits).findSome? fun n =>
      let k := p - (n + 1 : Nat)
      (r.onGrid k).map fun c => (⟨c, k⟩ : Scientific)
    found.getD ⟨0, 0⟩

/-- How a number is set out: positional between two places of the first digit, else with a power
of ten of at least two digits. -/
structure DecimalLayout where
  leastPlace : Int
  mostPlace : Int

/-- The decimal digits of `n`. -/
def digitChars (n : Nat) : List Char := Nat.toDigits 10 n

/-- Without the zeros at the end. -/
def dropTrailingZeros (ds : List Char) : List Char :=
  (ds.reverse.dropWhile (· == '0')).reverse

/-- A signed power of ten, its magnitude by at least two digits. -/
def exponentChars (e : Int) : List Char :=
  let ds := digitChars e.natAbs
  'e' :: (if e < 0 then '-' else '+') :: (if ds.length < 2 then '0' :: ds else ds)

/-- Digits `ds` with the decimal point before the place `p`, counted from the first digit. -/
def DecimalLayout.setOut (layout : DecimalLayout) (ds : List Char) (p : Int) : List Char :=
  if p < layout.leastPlace || p > layout.mostPlace then
    let tail := ds.drop 1
    ds.take 1 ++ (if tail.isEmpty then [] else '.' :: tail) ++ exponentChars (p - 1)
  else if p ≤ 0 then
    '0' :: '.' :: List.replicate (-p).toNat '0' ++ ds
  else if ds.length ≤ p.toNat then
    ds ++ List.replicate (p.toNat - ds.length) '0' ++ ['.', '0']
  else
    ds.take p.toNat ++ '.' :: ds.drop p.toNat

/-- Numbers are positional from `0.0001` up to, not including, `10^16`. -/
def plainLayout : DecimalLayout := ⟨-3, 16⟩

/-- The magnitude of a finite double in its shortest form. -/
def magnitudeChars (b : Binary) : List Char :=
  let s := shortest b
  if s.digits == 0 then ['0', '.', '0']
  else
    let ds := digitChars s.digits
    plainLayout.setOut (dropTrailingZeros ds) (ds.length + s.exponent)

/-- The shortest text that reads back as the double: always with a point or a power of ten, and
`inf`, `-inf` or `nan` for the others. -/
def shortestText (x : Float) : String :=
  match binary? x with
  | some b => String.ofList ((if b.negative then ['-'] else []) ++ magnitudeChars b)
  | none => if x.isNaN then "nan" else if x < 0 then "-inf" else "inf"

end LineCalc.Decimal
