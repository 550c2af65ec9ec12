import DocQuery.Row
import DocQuery.SortedMap
import DocQuery.Value.Order

/-!
# Typed values of rows

`OfValue` says which values have a counterpart in a type. Integers of either width are read as any
integer type whose range holds them, numbers of every kind as doubles; a value that may be missing
is missing when it is null.
-/

namespace DocQuery

/-- Types whose values can be read from stored values. -/
class OfValue (α : Type) where
  ofValue? : Value → Option α

namespace OfValue

/-- The integer held by a value. -/
def int? : Value → Option Int
  | .atom a => a.int?
  | _ => none

/-- The integer held by a value, if it lies between two bounds, the upper one excluded. -/
def intBetween? (low high : Int) (v : Value) : Option Int :=
  (int? v).filter fun n => low ≤ n && n < high

/-- Read every item of a list. -/
def each? {α : Type} [OfValue α] : List Value → Option (List α)
  | [] => some []
  | v :: vs =>
    match ofValue? v, each? vs with
    | some x, some xs => some (x :: xs)
    | _, _ => none

/-- Read the value of every entry. -/
def entries? {α : Type} [OfValue α] : Document → Option (List (String × α))
  | [] => some []
  | (k, v) :: d =>
    match ofValue? v, entries? d with
    | some x, some xs => some ((k, x) :: xs)
    | _, _ => none

instance : OfValue Bool where
  ofValue?
    | .bool b => some b
    | _ => none

instance : OfValue Int32 where
  ofValue? v := (intBetween? (-0x80000000) 0x80000000 v).map Int32.ofInt

instance : OfValue UInt8 where
  ofValue? v := (intBetween? 0 UInt8.size v).map fun n => UInt8.ofNat n.toNat

instance : OfValue Int64 where
  ofValue? v := (int? v).map Int64.ofInt

instance : OfValue UInt64 where
  ofValue? v := (intBetween? 0 UInt64.size v).map fun n => UInt64.ofNat n.toNat

instance : OfValue Double where
  ofValue?
    | .atom a => a.double?
    | _ => none

instance : OfValue String where
  ofValue?
    | .string s => some s
    | _ => none

instance {α : Type} [OfValue α] : OfValue (Option α) where
  ofValue?
    | .null => some none
    | v => (ofValue? v).map some

instance {α : Type} [OfValue α] : OfValue (List α) where
  ofValue?
    | .array items => each? items
    | _ => none

end OfValue

/-- Entries of text keys, sorted by key. -/
structure Dictionary (α : Type) where
  entries : List (String × α)

instance {α : Type} [OfValue α] : OfValue (Dictionary α) where
  ofValue?
    | .document d => (OfValue.entries? d).map fun es => ⟨SortedMap.ofList es⟩
    | _ => none

/-- The value of a field, read as a type. -/
def Row.decode (α : Type) [OfValue α] (row : Row) (f : Field) : Except Error α := do
  let v ← row.value f
  match OfValue.ofValue? v with
  | some x => pure x
  | none => .error .undecodable

end DocQuery
