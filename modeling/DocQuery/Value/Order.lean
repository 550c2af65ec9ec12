import DocQuery.Value

/-!
# Equality and order of values

Three comparisons are used by a store. `Value.equal` is the equality of queries: numbers are equal
across widths, arrays element by element, documents key by key in order. `Value.same` is the
equality of storage, by which an update decides whether it changed anything: numbers keep their
width, and the order of keys does not matter. `Value.compare?` orders values of one kind, and
`Value.order` extends it to all values and to absence by ranking the kinds; values of one kind
that do not compare count as level.
-/

namespace DocQuery

namespace Atom

/-- The integer held by an integer of either width. -/
def int? : Atom → Option Int
  | .int32 n => some n.toInt
  | .int64 n => some n.toInt
  | _ => none

/-- The double nearest to a number of any kind. -/
def double? : Atom → Option Double
  | .int32 n => some (.ofInt n.toInt)
  | .int64 n => some (.ofInt n.toInt)
  | .double d => some d
  | _ => none

/-- Compare two numbers: integers exactly, otherwise as doubles. -/
def numericOrder? (a b : Atom) : Option Ordering :=
  match a.int?, b.int? with
  | some m, some n => some (compare m n)
  | _, _ =>
    match a.double?, b.double? with
    | some x, some y => x.compare? y
    | _, _ => none

/-- Equality of storage: doubles by value, everything else by kind and content. -/
def same : Atom → Atom → Bool
  | .double x, .double y => x.numEq y
  | a, b => a == b

/-- Equality of queries. -/
def equal (a b : Atom) : Bool :=
  match a.numericOrder? b with
  | some o => o == .eq
  | none => a.same b

/-- The bytes of a text in order of position; texts are ordered as these are. -/
def compareBytes (a b : List UInt8) : Ordering :=
  match a, b with
  | [], [] => .eq
  | [], _ :: _ => .lt
  | _ :: _, [] => .gt
  | x :: xs, y :: ys => (compare x.toNat y.toNat).then (compareBytes xs ys)

/-- Compare two texts by their characters, which orders them as their bytes do. -/
def compareText (a b : List Char) : Ordering :=
  match a, b with
  | [], [] => .eq
  | [], _ :: _ => .lt
  | _ :: _, [] => .gt
  | x :: xs, y :: ys => (compare x.toNat y.toNat).then (compareText xs ys)

/-- The order within one kind of atom; `none` where the kind has no order. -/
def compare? (a b : Atom) : Option Ordering :=
  match a.numericOrder? b with
  | some o => some o
  | none =>
    match a, b with
    | .null, .null => some .eq
    | .string s, .string t => some (compareText s.toList t.toList)
    | .bool x, .bool y => some (compare x.toNat y.toNat)
    | .dateTime s, .dateTime t => some (compare s.toInt t.toInt)
    | .objectId x, .objectId y => some (compareBytes x.bytes y.bytes)
    | .binary _ x, .binary _ y => some (compareBytes x y)
    | _, _ => none

/-- The place of an atom's kind in the order of kinds. -/
def rank : Atom → Nat
  | .null => 1
  | .undefined => 1
  | .int32 _ => 2
  | .int64 _ => 2
  | .double _ => 2
  | .string _ => 3
  | .symbol _ => 3
  | .binary _ _ => 6
  | .objectId _ => 7
  | .bool _ => 8
  | .dateTime _ => 9
  | .regex _ _ => 10
  | .timestamp _ _ => 10
  | .javascript _ => 10
  | .minKey => 10
  | .maxKey => 10

/-- Whether an atom counts as true: null, undefined, false and the zeros do not. -/
def countsAsTrue : Atom → Bool
  | .null => false
  | .undefined => false
  | .bool b => b
  | .int32 n => n != 0
  | .int64 n => n != 0
  | .double d => !d.isZero
  | _ => true

end Atom

namespace Value

mutual

/-- Equality of queries. -/
def equal : Value → Value → Bool
  | .atom a, .atom b => a.equal b
  | .array xs, .array ys => equalItems xs ys
  | .document d, .document e => equalEntries d e
  | _, _ => false

/-- Two arrays are equal when they are as long and equal element by element. -/
def equalItems : List Value → List Value → Bool
  | [], [] => true
  | x :: xs, y :: ys => equal x y && equalItems xs ys
  | _, _ => false

/-- Two documents are equal when they have the same keys in the same order, with equal values. -/
def equalEntries : List (String × Value) → List (String × Value) → Bool
  | [], [] => true
  | (k, v) :: d, (l, w) :: e => k == l && equal v w && equalEntries d e
  | _, _ => false

end

mutual

/-- Equality of storage: the order of keys does not matter. -/
def same : Value → Value → Bool
  | .atom a, .atom b => a.same b
  | .array xs, .array ys => sameItems xs ys
  | .document d, .document e => d.length == e.length && sameEntries d e
  | _, _ => false

/-- Two arrays are the same when they are as long and the same element by element. -/
def sameItems : List Value → List Value → Bool
  | [], [] => true
  | x :: xs, y :: ys => same x y && sameItems xs ys
  | _, _ => false

/-- Every entry of the first document stands, with the same value, in the second. -/
def sameEntries : List (String × Value) → Document → Bool
  | [], _ => true
  | (k, v) :: d, e =>
    (match e.value? k with
    | some w => same v w
    | none => false) && sameEntries d e

end

/-- The order within one kind of value. -/
def compare? : Value → Value → Option Ordering
  | .atom a, .atom b => a.compare? b
  | _, _ => none

/-- The place of a value's kind in the order of kinds. -/
def rank : Value → Nat
  | .atom a => a.rank
  | .document _ => 4
  | .array _ => 5

/-- The place of a kind in the order of kinds; absence ranks with null. -/
def rank? : Option Value → Nat
  | none => 1
  | some v => v.rank

/-- The order across all kinds of values and absence. -/
def order (a b : Option Value) : Ordering :=
  (compare (rank? a) (rank? b)).then
    (match a, b with
    | some v, some w => (v.compare? w).getD .eq
    | _, _ => .eq)

/-- Whether a value counts as true. -/
def countsAsTrue : Value → Bool
  | .atom a => a.countsAsTrue
  | _ => true

end Value

/-- Whether two documents are the same in storage. -/
def Document.same (d e : Document) : Bool := (Value.document d).same (.document e)

end DocQuery
