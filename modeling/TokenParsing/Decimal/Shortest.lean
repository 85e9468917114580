/-!
# Writing decimals

The decimal written for a floating-point number: of the decimals that read back as the number, one with the fewest
digits, and of those the nearest to the number. It is written without an exponent, however large or small the number.

A positive number is `m * 2 ^ q`. The reals that round to it form an interval around it, whose ends belong to it
exactly when `m` is even. On the grid of multiples of `10 ^ k` only the two neighbours of the number need to be tried:
if any point of the grid lies in the interval, one of them does.
-/

namespace TokenParsing.Decimal

/-- A positive number as `m * 2 ^ q`. -/
structure Binary where
  /-- The whole number `m`. -/
  mantissa : Nat
  /-- The exponent `q`. -/
  exponent : Int
  deriving DecidableEq, Repr

namespace Binary

/-- The size of a finite number, read off its bits: 52 bits of fraction below eleven bits of exponent. An exponent
field of zero marks the numbers without a leading bit. -/
def ofBits (bits : Nat) : Binary :=
  let fraction := bits % Nat.pow 2 52
  let field : Nat := bits / Nat.pow 2 52 % Nat.pow 2 11
  if field = 0 then ⟨fraction, -1074⟩ else ⟨Nat.pow 2 52 + fraction, (field : Int) - 1075⟩

/-- Whether the next smaller number is nearer than the next larger one: at a power of two, where the spacing halves,
the least exponent excepted. -/
def isNarrowBelow (b : Binary) : Bool :=
  b.mantissa == Nat.pow 2 52 && b.exponent != -1074

/-- The grid point nearest to the number among those that read back as it, on the grid of multiples of `10 ^ k`, as a
multiple. All lengths are in units of a quarter of `2 ^ q`, over a common denominator; of two equally near points the
larger is taken. -/
def gridPoint? (b : Binary) (k : Int) : Option Nat :=
  let scale := Nat.pow 2 b.exponent.toNat * Nat.pow 10 (-k).toNat
  let spacing := 4 * Nat.pow 2 (-b.exponent).toNat * Nat.pow 10 k.toNat
  let value := 4 * b.mantissa * scale
  let low := (4 * b.mantissa - if b.isNarrowBelow then 1 else 2) * scale
  let high := (4 * b.mantissa + 2) * scale
  let inside (d : Nat) : Bool :=
    if b.mantissa % 2 = 0 then low ≤ d * spacing && d * spacing ≤ high
    else low < d * spacing && d * spacing < high
  let below := value / spacing
  match inside below, inside (below + 1) with
  | true, true => some (if 2 * (value % spacing) < spacing then below else below + 1)
  | true, false => some below
  | false, true => some (below + 1)
  | false, false => none

/-- An exponent of ten whose power exceeds the number, and at most two above the least such. Since `log 2 / log 10` is
just below `30103 / 100000`, rounding its multiple up bounds the exponent. -/
def topExponent (b : Binary) : Int :=
  ((b.mantissa.log2 : Int) + 1 + b.exponent) * 30103 / 100000 + 2

/-- The digits of the number itself and the exponent of ten they are scaled by: a power of two below one is as many
powers of five over a power of ten. -/
def exact (b : Binary) : Nat × Int :=
  if 0 ≤ b.exponent then (b.mantissa * Nat.pow 2 b.exponent.toNat, 0)
  else (b.mantissa * Nat.pow 5 (-b.exponent).toNat, b.exponent)

/-- The digits of the shortest decimal and the exponent of ten they are scaled by: the point on the coarsest grid that
has one. Numbers are told apart by seventeen digits, so the search is over before its twenty-second grid; the number's
own digits would read back too. -/
def shortest (b : Binary) : Nat × Int :=
  ((List.range 22).findSome? fun (i : Nat) =>
    (b.gridPoint? (b.topExponent - i)).map fun d => (d, b.topExponent - i)).getD b.exact

end Binary

/-- The decimal digits of a whole number. -/
def digits (n : Nat) : List Char :=
  Nat.toDigits 10 n

/-- The digits after the point of `n / 10 ^ places`, for `n` below `10 ^ places`, without trailing zeros. -/
def fractionDigits (n places : Nat) : List Char :=
  let ds := digits n
  ((List.replicate (places - ds.length) '0' ++ ds).reverse.dropWhile (· == '0')).reverse

/-- The decimal `d * 10 ^ k` without an exponent; a whole number has no point. -/
def positional (d : Nat) (k : Int) : List Char :=
  let whole := d * Nat.pow 10 k.toNat / Nat.pow 10 (-k).toNat
  let fraction := fractionDigits (d % Nat.pow 10 (-k).toNat) (-k).toNat
  if fraction = [] then digits whole else digits whole ++ '.' :: fraction

/-- The text of a number. Zero keeps its sign; infinity and not-a-number have names, and the latter has no sign. -/
def render (x : Float) : String :=
  let bits := x.toBits.toNat
  let sign := if Nat.pow 2 63 ≤ bits then "-" else ""
  let magnitude := bits % Nat.pow 2 63
  if x.isNaN then "NaN"
  else if magnitude = 0x7ff0000000000000 then sign ++ "inf"
  else if magnitude = 0 then sign ++ "0"
  else
    let (d, k) := (Binary.ofBits magnitude).shortest
    sign ++ String.ofList (positional d k)

end TokenParsing.Decimal
