import DocQuery.Double

/-!
# Shortest decimal text of a double

A finite double stands for an interval of reals, those that round to it. `shortest` finds the
coarsest power-of-ten grid with a point in that interval, and on it the point nearest to the
double, in exact arithmetic; which of two points at the same distance counts as nearest is up to
the format. `Double.text` writes those digits positionally, without an exponent and without a
fraction on whole numbers.
-/

namespace DocQuery

/-- The decimal `digits * 10 ^ exponent`. -/
structure Decimal where
  digits : Nat
  exponent : Int
deriving DecidableEq

namespace Decimal

/-- Compare `a * 10 ^ i` with `n * 2 ^ j` by clearing the negative exponents. -/
def compareBinary (a : Nat) (i : Int) (n : Nat) (j : Int) : Ordering :=
  compare (a * Nat.pow 10 i.toNat * Nat.pow 2 (-j).toNat)
    (n * Nat.pow 2 j.toNat * Nat.pow 10 (-i).toNat)

/-- The digits of a decimal, with as many zeros as its exponent asks for. -/
def text (d : Decimal) : String :=
  let ds := Nat.toDigits 10 d.digits
  if 0 ≤ d.exponent then String.ofList (ds ++ List.replicate d.exponent.toNat '0')
  else
    let places := (-d.exponent).toNat
    if places < ds.length then
      String.ofList (ds.take (ds.length - places) ++ '.' :: ds.drop (ds.length - places))
    else String.ofList ('0' :: '.' :: List.replicate (places - ds.length) '0' ++ ds)

end Decimal

namespace Double

/-- The exponent field of the bits. -/
def exponentField (d : Double) : Nat := d.magnitude / leadingBit

/-- The fraction field of the bits. -/
def fractionField (d : Double) : Nat := d.magnitude % leadingBit

/-- The integer significand `m` of a finite magnitude `m * 2 ^ q`. -/
def significand (d : Double) : Nat :=
  if d.exponentField = 0 then d.fractionField else leadingBit + d.fractionField

/-- The binary exponent `q` of a finite magnitude `m * 2 ^ q`. -/
def scale (d : Double) : Int :=
  if d.exponentField = 0 then -1074 else (d.exponentField : Int) - 1075

/-- At a power of two the double below is half as far away as the double above. -/
def narrowBelow (d : Double) : Bool := d.fractionField == 0 && 1 < d.exponentField

/-- Whether a decimal lies among the reals that round to the magnitude of `d`: the ends of the
interval belong to it when the significand is even. -/
def readsBack (d : Double) (x : Decimal) : Bool :=
  let m := d.significand
  let low := if d.narrowBelow then 4 * m - 1 else 4 * m - 2
  let atLow := Decimal.compareBinary x.digits x.exponent low (d.scale - 2)
  let atHigh := Decimal.compareBinary x.digits x.exponent (4 * m + 2) (d.scale - 2)
  let closed := m % 2 == 0
  (atLow == .gt || (closed && atLow == .eq)) && (atHigh == .lt || (closed && atHigh == .eq))

/-- The grid point below the magnitude of `d` on the grid of multiples of `10 ^ k`. -/
def gridFloor (d : Double) (k : Int) : Nat :=
  (d.significand * Nat.pow 2 d.scale.toNat * Nat.pow 10 (-k).toNat) /
    (Nat.pow 10 k.toNat * Nat.pow 2 (-d.scale).toNat)

/-- Which of two decimals at the same distance is chosen. -/
inductive Tie where
  /-- The greater one. -/
  | up
  /-- The one with an even last digit. -/
  | even
deriving DecidableEq

/-- The point of the grid `10 ^ k` that reads back as `d`, and the nearer one if two do. -/
def onGrid? (tie : Tie) (d : Double) (k : Int) : Option Decimal :=
  let n := d.gridFloor k
  let below : Decimal := ⟨n, k⟩
  let above : Decimal := ⟨n + 1, k⟩
  match d.readsBack below, d.readsBack above with
  | true, true =>
    match Decimal.compareBinary (2 * n + 1) k (2 * d.significand) d.scale with
    | .gt => some below
    | .eq => if tie = .even ∧ n % 2 = 0 then some below else some above
    | .lt => some above
  | true, false => some below
  | false, true => some above
  | false, false => none

/-- A power of ten above the magnitude of `d`. -/
def topExponent (d : Double) : Int :=
  ((d.significand.log2 : Int) + 1 + d.scale) * 30103 / 100000 + 2

/-- The shortest decimal that reads back as the magnitude of a finite `d`, tried on ever finer
grids; failing all of them, the exact value of `d` on a fine enough grid. -/
def shortest (tie : Tie) (d : Double) : Decimal :=
  if d.significand = 0 then ⟨0, 0⟩
  else
    match (List.range 22).findSome? fun (i : Nat) => d.onGrid? tie (d.topExponent - (i : Int)) with
    | some x => x
    | none => ⟨d.gridFloor (-1074), -1074⟩

/-- The text of a double: its sign, then the shortest digits that read back, the greater ones on a
tie. -/
def text (d : Double) : String :=
  if d.isNaN then "NaN"
  else
    let body := if d.magnitude = infiniteMagnitude then "inf" else (d.shortest .up).text
    if d.isNegative then "-" ++ body else body

end Double

end DocQuery
