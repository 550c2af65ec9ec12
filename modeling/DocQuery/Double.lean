/-!
# Double-precision numbers

A double is kept as its 64 bits, so that two doubles are the same value of this type exactly when
they are the same number in storage. The order and the conversion from integers are computed on
the bits in exact integer arithmetic: `Double.key?` places every number on the integers in the
order of the reals (both zeros at `0`) and has no place for a NaN. Only addition and division use
the machine's arithmetic.
-/

namespace DocQuery

/-- A binary64 number, given by its bits. -/
structure Double where
  bits : UInt64
deriving DecidableEq, Inhabited

namespace Double

/-- The number as a machine float. -/
def toFloat (d : Double) : Float := Float.ofBits d.bits

/-- The bits of a machine float. -/
def ofFloat (f : Float) : Double := ⟨f.toBits⟩

/-- The value of the bit that holds the sign. -/
def signBit : Nat := 0x8000000000000000

/-- The value of the lowest bit of the exponent, which is also that of the leading bit of a
significand. -/
def leadingBit : Nat := 0x10000000000000

/-- The bits without the sign: the magnitudes of numbers are ordered as these are. -/
def magnitude (d : Double) : Nat := d.bits.toNat % signBit

/-- Whether the sign bit is set. -/
def isNegative (d : Double) : Bool := signBit ≤ d.bits.toNat

/-- The magnitude bits of infinity; larger magnitudes are NaNs. -/
def infiniteMagnitude : Nat := 0x7FF0000000000000

/-- Whether the bits stand for no number. -/
def isNaN (d : Double) : Bool := infiniteMagnitude < d.magnitude

/-- The place of a number in the order of the reals; a NaN has none. -/
def key? (d : Double) : Option Int :=
  if d.isNaN then none
  else if d.isNegative then some (-(d.magnitude : Int))
  else some d.magnitude

/-- Compare two numbers; a NaN compares with nothing. -/
def compare? (a b : Double) : Option Ordering :=
  match a.key?, b.key? with
  | some x, some y => some (compare x y)
  | _, _ => none

/-- Numeric equality: the zeros are equal, a NaN equals nothing. -/
def numEq (a b : Double) : Bool := a.compare? b == some .eq

/-- The number zero. -/
def zero : Double := ⟨0⟩

/-- Zero with the sign bit set, which leaves every number unchanged when added to it. -/
def negZero : Double := ⟨0x8000000000000000⟩

/-- Whether the number is one of the two zeros. -/
def isZero (d : Double) : Bool := d.magnitude == 0

/-- The bits of the double nearest to a natural number, ties to an even last bit. -/
def bitsOfNat (n : Nat) : Nat :=
  if n = 0 then 0
  else
    let e := n.log2
    if e ≤ 52 then (e + 1023) * leadingBit + (n * Nat.pow 2 (52 - e) - leadingBit)
    else
      let unit := Nat.pow 2 (e - 52)
      let q := n / unit
      let r := n % unit
      let up := unit < 2 * r || (2 * r == unit && q % 2 == 1)
      (e + 1023) * leadingBit + (q - leadingBit) + (if up then 1 else 0)

/-- The double nearest to an integer, ties to an even last bit. -/
def ofInt (n : Int) : Double :=
  let b := bitsOfNat n.natAbs
  ⟨UInt64.ofNat (if n < 0 then b + signBit else b)⟩

/-- Sum, rounded to nearest. -/
def add (a b : Double) : Double := ofFloat (a.toFloat + b.toFloat)

/-- Quotient, rounded to nearest. -/
def div (a b : Double) : Double := ofFloat (a.toFloat / b.toFloat)

/-- Product, rounded to nearest. -/
def mul (a b : Double) : Double := ofFloat (a.toFloat * b.toFloat)

/-- The number with its sign reversed. -/
def neg (d : Double) : Double := ⟨d.bits ^^^ 0x8000000000000000⟩

/-- Exactly the numbers have a place. -/
theorem key?_eq_none_iff {d : Double} : d.key? = none ↔ d.isNaN = true := by
  unfold key?
  cases d.isNaN <;> cases d.isNegative <;> simp

/-- Two doubles compare exactly when neither is a NaN. -/
theorem compare?_eq_none_iff {a b : Double} :
    a.compare? b = none ↔ a.isNaN = true ∨ b.isNaN = true := by
  rw [← key?_eq_none_iff, ← key?_eq_none_iff, compare?]
  cases a.key? <;> cases b.key? <;> simp

end Double

end DocQuery
