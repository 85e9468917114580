/-!
# Reading decimals

The floating-point number nearest to a decimal, and the decimals that texts can write. A quotient is rounded once, in
exact arithmetic, to the grid of the numbers of its size; a tie goes to the even neighbour. Powers are written with
`Nat.pow`, which means the same whatever algebra is in scope.
-/

namespace TokenParsing.Decimal

/-- The whole number nearest to `n / d`; of two equally near, the even one. -/
def roundHalfEven (n d : Nat) : Nat :=
  let q := n / d
  let r := n % d
  if 2 * r < d then q
  else if d < 2 * r then q + 1
  else if q % 2 = 0 then q
  else q + 1

/-- The exponent of the greatest power of two that is at most `n / d`, for positive `n` and `d`. -/
def binaryExponent (n d : Nat) : Int :=
  let b : Int := (n.log2 : Int) - d.log2
  if d * Nat.pow 2 b.toNat ≤ n * Nat.pow 2 (-b).toNat then b else b - 1

/-- The exponent of the smallest positive number. -/
def leastExponent : Int := -1074

/-- The bits of infinity; those of every finite positive number are below. -/
def infinityBits : Nat := 0x7ff0000000000000

/-- The bits of the number nearest to `n / d`, for positive `n` and `d`. The grid of numbers near `n / d` has spacing
`2 ^ q` and at most 53 bits per number; counting the bits of a positive number as a whole number counts the grids'
points in order, so a value rounded up to the next power of two needs no correction. -/
def nearestBits (n d : Nat) : Nat :=
  let q := max (binaryExponent n d - 52) leastExponent
  let points := roundHalfEven (n * Nat.pow 2 (-q).toNat) (d * Nat.pow 2 q.toNat)
  min ((q - leastExponent).toNat * Nat.pow 2 52 + points) infinityBits

/-- The number nearest to `n * 10 ^ e`, where `n` is below `10 ^ digits`. The two guards answer for sizes so far out
of range that the power of ten need not be computed. -/
def nearest (n digits : Nat) (e : Int) : Float :=
  if n = 0 then 0.0
  else if 400 < e then Float.ofBits infinityBits.toUInt64
  else if e + digits < -400 then 0.0
  else Float.ofBits (nearestBits (n * Nat.pow 10 e.toNat) (Nat.pow 10 (-e).toNat)).toUInt64

/-- The number that ASCII digits write. -/
def ofDigits (ds : List Char) : Nat :=
  ds.foldl (fun n c => 10 * n + (c.toNat - '0'.toNat)) 0

/-- The whole number after an exponent mark: an optional sign and at least one digit. -/
def exponent? : List Char → Option Int
  | '-' :: ds => magnitude? ds |>.map Int.neg
  | '+' :: ds => magnitude? ds
  | ds => magnitude? ds
where
  /-- At least one digit, and digits only. -/
  magnitude? (ds : List Char) : Option Int :=
    if ds ≠ [] ∧ ds.all Char.isDigit then some (ofDigits ds) else none

/-- The number that digits write: digits with an optional point, at least one digit in all, and an optional exponent.
-/
def digits? (cs : List Char) : Option Float :=
  let whole := cs.takeWhile Char.isDigit
  let afterWhole := cs.dropWhile Char.isDigit
  let pointed := if afterWhole.head? = some '.' then afterWhole.drop 1 else []
  let fraction := pointed.takeWhile Char.isDigit
  let tail := if afterWhole.head? = some '.' then pointed.dropWhile Char.isDigit else afterWhole
  let ds := whole ++ fraction
  let exponent : Option Int :=
    match tail with
    | [] => some 0
    | c :: rest => if c = 'e' ∨ c = 'E' then exponent? rest else none
  if ds = [] then none
  else exponent.map fun e => nearest (ofDigits ds) ds.length (e - fraction.length)

/-- The number that an unsigned text writes: digits, or infinity or not-a-number by name, in either case. -/
def magnitude? (cs : List Char) : Option Float :=
  let word := String.ofList (cs.map Char.toLower)
  if word = "inf" ∨ word = "infinity" then some (Float.ofBits infinityBits.toUInt64)
  else if word = "nan" then some (0.0 / 0.0)
  else digits? cs

/-- The number that a text writes, if it writes one: an optional sign and a magnitude, with nothing around them. -/
def read? (text : String) : Option Float :=
  match text.toList with
  | '-' :: cs => (magnitude? cs).map Float.neg
  | '+' :: cs => magnitude? cs
  | cs => magnitude? cs

end TokenParsing.Decimal
