/-!
# Shortest decimals of binary numbers

`Double` is a binary64 number by its bits; `significand`, `power` and `isNegative` take it apart.

`shortest` gives the fewest decimal digits that still read back as the number, the nearest such
digits when several qualify, and the even ones on a tie:

* The numbers that read back form an interval around the value. Its ends are half way to the
  neighbours, nearer below a power of two, and belong to it iff the significand is even.
* `digitsAt` looks for a point of the grid of multiples of `10 ^ k` in that interval.
* The first grid with a hit decides, from the coarsest that can have one (`coarsest`) to finer ones.

`Layout` says how digits and exponent are laid out: from where on an exponent is written, and how.
`Double.render` puts digits and layout together. `Double.same` is equality of numbers, in which the
two zeros are one.

Out of scope: infinities and what is no number, which no message can hold, and reading a number
back.
-/

namespace Troupe.Decimal

/-- A binary64 number, by its bits (`UInt64`). -/
structure Double where
  bits : UInt64
  deriving DecidableEq, Inhabited

/-- The bit of the significand that is not stored, above the fifty-two that are (`significand`). -/
def hiddenBit : Nat := 1 <<< 52

namespace Double

/-- Whether the sign bit is set. -/
def isNegative (x : Double) : Bool :=
  x.bits >>> 63 == 1

/-- The eleven stored bits of the exponent (`bits`). -/
def exponentField (x : Double) : Nat :=
  x.bits.toNat / hiddenBit % 2048

/-- The significand: fifty-two stored bits, with the `hiddenBit` unless the number is subnormal. -/
def significand (x : Double) : Nat :=
  let fraction := x.bits.toNat % hiddenBit
  if x.exponentField = 0 then fraction else fraction + hiddenBit

/-- The power of two that the `significand` is multiplied by. -/
def power (x : Double) : Int :=
  if x.exponentField = 0 then -1074 else (x.exponentField : Int) - 1075

/-- Whether the number is a zero, of either sign. -/
def isZero (x : Double) : Bool :=
  x.significand == 0

/-- Numeric equality: equal bits, or two zeros (`isZero`). -/
def same (x y : Double) : Bool :=
  x.bits == y.bits || (x.isZero && y.isZero)

end Double

/-- The point `d * 10 ^ k` nearest to `m * 2 ^ q`, if one of the two neighbours of that value on the
grid of multiples of `10 ^ k` reads back as it. All quantities are scaled to whole numbers: `value`,
`low` and `high` stand for the value and the ends of its interval, `unit` for one step of the
grid. -/
def digitsAt (m : Nat) (q k : Int) : Option Nat :=
  let scale := Nat.pow 2 q.toNat * Nat.pow 10 (-k).toNat
  let unit := 4 * Nat.pow 2 (-q).toNat * Nat.pow 10 k.toNat
  let value := 4 * m * scale
  let low := value - (if m = hiddenBit ∧ -1074 < q then scale else 2 * scale)
  let high := value + 2 * scale
  let within (d : Nat) : Bool :=
    if m % 2 = 0 then low ≤ d * unit && d * unit ≤ high
    else low < d * unit && d * unit < high
  let below := value / unit
  let above := below + 1
  if within below then
    if within above then
      let down := value - below * unit
      let up := above * unit - value
      if down < up || (down = up && below % 2 = 0) then some below else some above
    else some below
  else if within above then some above
  else none

/-- An exponent from which on no grid is coarser than needed for `m * 2 ^ q`. -/
def coarsest (m : Nat) (q : Int) : Int :=
  (Nat.log2 m + 1 + q) * 30103 / 100000 + 2

/-- The fewest digits `d` and the exponent `k` such that `d * 10 ^ k` reads back as `m * 2 ^ q`.
Seventeen digits always do, so the search meets a hit well before its end. -/
def shortest (m : Nat) (q : Int) : Nat × Int :=
  let top := coarsest m q
  let grids := (List.range 24).map fun (i : Nat) => top - (i : Int)
  (grids.findSome? fun k => (digitsAt m q k).map (·, k)).getD (0, 0)

/-- Where positional notation ends and how an exponent is written, for `Double.render`. -/
structure Layout where
  /-- Most digits before the point in positional notation. -/
  maxWhole : Nat
  /-- Most zeros between the point and the first digit in positional notation. -/
  maxZeros : Nat
  /-- What a whole number ends in. -/
  wholeEnd : String
  /-- The mark before a negative exponent, which brings its sign. -/
  mark : String
  /-- The mark before any other exponent. -/
  plusMark : String

/-- Lays out the number `digits * 10 ^ k`. -/
def Layout.write (n : Layout) (digits : List Char) (k : Int) : String :=
  let point := digits.length + k
  let zeros (i : Int) := List.replicate i.toNat '0'
  if 0 ≤ k ∧ point ≤ n.maxWhole then String.ofList (digits ++ zeros k) ++ n.wholeEnd
  else if 0 < point ∧ point ≤ n.maxWhole then
    String.ofList (digits.take point.toNat ++ '.' :: digits.drop point.toNat)
  else if -(n.maxZeros : Int) ≤ point ∧ point ≤ 0 then
    String.ofList ('0' :: '.' :: zeros (-point) ++ digits)
  else
    let tail := match digits.drop 1 with
      | [] => []
      | rest => '.' :: rest
    let e := point - 1
    String.ofList (digits.take 1 ++ tail) ++ (if e < 0 then n.mark else n.plusMark) ++ toString e

/-- The shortest decimal text of `x` in the given layout. -/
def Double.render (n : Layout) (x : Double) : String :=
  let sign := if x.isNegative then "-" else ""
  if x.isZero then sign ++ "0" ++ n.wholeEnd
  else
    let (d, k) := shortest x.significand x.power
    sign ++ n.write (Nat.toDigits 10 d) k

end Troupe.Decimal
