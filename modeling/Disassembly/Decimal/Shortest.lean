/-!
# The shortest decimal text of a double

A finite double stands for an interval of reals: those that round to it. Its
text has the fewest digits of any decimal in that interval, the nearest such
decimal where there are several, and the larger one where two are equally near.
The value and the ends of the interval are fractions of natural numbers, so the
search is exact.

* `Double` takes a bit pattern apart.
* `Grid` is the set of decimals with a given last digit; `Grid.best` picks the
  decimal of a grid that stands for the double, if there is one.
* `shortest` is the first hit over grids of one, two, … digits.
* `Double.text` writes it without an exponent.
-/

namespace Disassembly.Decimal

/-- A bit pattern of a double, taken apart; a finite one has the value `m * 2 ^ e / 2 ^ 1074`. -/
inductive Double where
  | nan
  | infinite (negative : Bool)
  | finite (negative : Bool) (m e : Nat)
  deriving DecidableEq, Repr

namespace Double

def ofBits (bits : UInt64) : Double :=
  let n := bits.toNat
  let negative := n / Nat.pow 2 63 == 1
  let exponent := n / Nat.pow 2 52 % Nat.pow 2 11
  let fraction := n % Nat.pow 2 52
  if exponent = 2047 then
    if fraction = 0 then .infinite negative else .nan
  else if exponent = 0 then .finite negative fraction 0
  else .finite negative (Nat.pow 2 52 + fraction) (exponent - 1)

end Double

/-- The reals that round to a double, as numerators over one denominator: those between `low` and
`high`, the ends among them when `closed`; the double itself is `value`. -/
structure Interval where
  low : Nat
  value : Nat
  high : Nat
  denominator : Nat
  closed : Bool

namespace Interval

/-- The interval of the positive double `m * 2 ^ e / 2 ^ 1074`. The gap below a power of two is
half the gap above it, except below the smallest normal number. -/
def ofFinite (m e : Nat) : Interval :=
  let half := if m = Nat.pow 2 52 ∧ 0 < e then 1 else 2
  { low := (4 * m - half) * Nat.pow 2 e
    value := 4 * m * Nat.pow 2 e
    high := (4 * m + 2) * Nat.pow 2 e
    denominator := Nat.pow 2 1076
    closed := m % 2 = 0 }

def holds (i : Interval) (n d : Nat) : Bool :=
  if i.closed then i.low * d ≤ n * i.denominator && n * i.denominator ≤ i.high * d
  else i.low * d < n * i.denominator && n * i.denominator < i.high * d

end Interval

/-- The decimals whose last digit has the weight `10 ^ up / 10 ^ down`. -/
structure Grid where
  up : Nat
  down : Nat

namespace Grid

/-- The grid on which a number whose leading digit has weight `10 ^ (lead - 1) / 10 ^ 400` has
`digits` digits. -/
def ofDigits (lead digits : Nat) : Grid :=
  ⟨lead - digits - 400, 400 + digits - lead⟩

/-- The numerator of the decimal with a count of grid steps, over `10 ^ down`. -/
def scaled (g : Grid) (count : Nat) : Nat :=
  count * Nat.pow 10 g.up

/-- The count of the grid's decimal next to the value that lies in the interval, the nearer of two,
the larger of two equally near. -/
def best (g : Grid) (i : Interval) : Option Nat :=
  let step := Nat.pow 10 g.up * i.denominator
  let below := i.value * Nat.pow 10 g.down / step
  let rest := i.value * Nat.pow 10 g.down % step
  let holds (count : Nat) := i.holds (g.scaled count) (Nat.pow 10 g.down)
  match holds below, holds (below + 1) with
  | true, true => some (if 2 * rest < step then below else below + 1)
  | true, false => some below
  | false, true => some (below + 1)
  | false, false => none

end Grid

/-- The number of decimal digits before the point of `n / d * 10 ^ 400`. -/
def leadDigits (n d : Nat) : Nat :=
  (Nat.toDigits 10 (n * Nat.pow 10 400 / d)).length

/-- The first of the grids with `digits`, `digits + 1`, … digits that has a decimal in the
interval, together with that decimal. -/
def search (i : Interval) (lead : Nat) : (fuel digits : Nat) → Option (Nat × Grid)
  | 0, _ => none
  | fuel + 1, digits =>
    let g := Grid.ofDigits lead digits
    match g.best i with
    | some count => some (count, g)
    | none => search i lead fuel (digits + 1)

/-- The shortest decimal that stands for a positive double; seventeen digits are always enough. -/
def shortest (m e : Nat) : Nat × Grid :=
  let i := Interval.ofFinite m e
  (search i (leadDigits i.value i.denominator) 17 1).getD (0, ⟨0, 0⟩)

/-- Digits after the point, without the zeros at their end, behind the point. -/
def fraction (digits : List Char) : List Char :=
  match (digits.reverse.dropWhile (· = '0')).reverse with
  | [] => []
  | ds => '.' :: ds

/-- A decimal written with a point and no exponent. -/
def positional (count : Nat) (g : Grid) : String :=
  let digits := List.leftpad (g.down + 1) '0' (Nat.toDigits 10 (g.scaled count))
  let point := digits.length - g.down
  String.ofList (digits.take point ++ fraction (digits.drop point))

namespace Double

def sign (negative : Bool) : String :=
  if negative then "-" else ""

/-- The text of a double: shortest digits, never an exponent. -/
def text : Double → String
  | .nan => "NaN"
  | .infinite negative => sign negative ++ "inf"
  | .finite negative m e =>
    sign negative ++ (if m = 0 then "0" else let (count, g) := shortest m e; positional count g)

end Double

end Disassembly.Decimal
