import DocQuery.Error
import DocQuery.SortedMap
import DocQuery.Value

/-!
# Operands

A query carries its values as operands: bound scalars, lists and dictionaries of operands, and a
few markers. `Operand.encode` turns an operand into the value to be stored or compared with;
`Operand.decode?` is the way back, for the values that have one. Dictionaries are kept sorted by
key.
-/

namespace DocQuery

/-- A sixteen-byte universal identifier. -/
structure Uuid where
  bytes : List UInt8
  length_eq : bytes.length = 16
deriving DecidableEq

/-- The identifier with the given bytes, if there are sixteen. -/
def Uuid.ofBytes? (bytes : List UInt8) : Option Uuid :=
  if h : bytes.length = 16 then some ⟨bytes, h⟩ else none

@[simp] theorem Uuid.ofBytes?_bytes (u : Uuid) : ofBytes? u.bytes = some u := dif_pos u.length_eq

/-- A bound value without parts. -/
inductive Scalar where
  | null
  | bool (b : Bool)
  | int32 (n : Int32)
  | int64 (n : Int64)
  | double (d : Double)
  | string (s : String)
  | bytes (b : List UInt8)
  | dateTime (millis : Int64)
  | uuid (u : Uuid)
  | objectId (id : ObjectId)
deriving DecidableEq, Inhabited

/-- A value as it appears in a query. -/
inductive Operand where
  | bind (s : Scalar)
  | array (items : List Operand)
  | dictionary (entries : List (String × Operand))
  | null
  /-- A case of an enumeration backed by text. -/
  | enumCase (name : String)
  /-- The default of the database, which documents do not have. -/
  | default
  /-- A value built ahead of time. -/
  | primitive (v : Value)
  /-- A value meant for some other backend. -/
  | otherBackend (text : String)

namespace Operand

section Induction

variable {p : Operand → Prop} (bind : ∀ s, p (.bind s))
  (array : ∀ items : List Operand, (∀ q ∈ items, p q) → p (.array items))
  (dictionary : ∀ entries : List (String × Operand), (∀ e ∈ entries, p e.2) →
    p (.dictionary entries))
  (null : p .null) (enumCase : ∀ name, p (.enumCase name)) (default : p .default)
  (primitive : ∀ v, p (.primitive v)) (otherBackend : ∀ text, p (.otherBackend text))

include bind array dictionary null enumCase default primitive otherBackend

/-- What holds of lists and dictionaries whenever it holds of their members, and of operands without
members, holds of all operands. -/
@[elab_as_elim]
theorem induction (q : Operand) : p q :=
  @Operand.rec p (fun qs => ∀ q ∈ qs, p q) (fun es => ∀ e ∈ es, p e.2) (fun e => p e.2)
    bind array dictionary null enumCase default primitive otherBackend
    nofun (fun _ _ hq hqs => List.forall_mem_cons.mpr ⟨hq, hqs⟩)
    nofun (fun _ _ he hes => List.forall_mem_cons.mpr ⟨he, hes⟩) (fun _ _ hq => hq) q

end Induction

end Operand

namespace Scalar

/-- The subtype of binary values without further meaning. -/
def genericSubtype : UInt8 := 0

/-- The subtype of binary values that are universal identifiers. -/
def uuidSubtype : UInt8 := 4

/-- A scalar that may be missing; it is null when it is. -/
def ofOption (s : Option Scalar) : Scalar := s.getD .null

def isNull : Scalar → Bool
  | .null => true
  | _ => false

def bool? : Scalar → Option Bool
  | .bool b => some b
  | _ => none

/-- The integer held by an integer of either width. -/
def int64? : Scalar → Option Int64
  | .int64 n => some n
  | .int32 n => some n.toInt64
  | _ => none

def double? : Scalar → Option Double
  | .double d => some d
  | _ => none

def string? : Scalar → Option String
  | .string s => some s
  | _ => none

/-- The stored form of a scalar. -/
def encode : Scalar → Atom
  | .null => .null
  | .bool b => .bool b
  | .int32 n => .int32 n
  | .int64 n => .int64 n
  | .double d => .double d
  | .string s => .string s
  | .bytes b => .binary genericSubtype b
  | .dateTime millis => .dateTime millis
  | .uuid u => .binary uuidSubtype u.bytes
  | .objectId id => .objectId id

/-- The scalar that an atom stands for, if there is one. A binary value marked as an identifier
needs sixteen bytes. -/
def decode? : Atom → Option Scalar
  | .null => some .null
  | .bool b => some (.bool b)
  | .int32 n => some (.int32 n)
  | .int64 n => some (.int64 n)
  | .double d => some (.double d)
  | .string s => some (.string s)
  | .dateTime millis => some (.dateTime millis)
  | .objectId id => some (.objectId id)
  | .binary subtype b =>
    if subtype = uuidSubtype then (Uuid.ofBytes? b).map .uuid else some (.bytes b)
  | .regex _ _ => none
  | .timestamp _ _ => none
  | .symbol _ => none
  | .javascript _ => none
  | .undefined => none
  | .minKey => none
  | .maxKey => none

/-- What was encoded decodes to itself. -/
theorem decode?_encode (s : Scalar) : decode? s.encode = some s := by
  cases s with
  | uuid u => simp [encode, decode?, Uuid.ofBytes?, u.length_eq]
  | bytes b => simp [encode, decode?, genericSubtype, uuidSubtype]
  | _ => rfl

end Scalar

/-- The scalar that a value stands for, if there is one. -/
def Value.scalar? : Value → Option Scalar
  | .atom a => Scalar.decode? a
  | _ => none

namespace Operand

instance : Inhabited Operand := ⟨.null⟩

/-- A list of bound scalars. -/
def ofScalars (scalars : List Scalar) : Operand := .array (scalars.map .bind)

/-- The dictionary of a list of entries; the last entry of a key wins. -/
def dictionaryOf (entries : List (String × Operand)) : Operand :=
  .dictionary (SortedMap.ofList entries)

mutual

/-- The value of an operand; the first operand without one decides the error. -/
def encode : Operand → Except Error Value
  | .bind s => .ok (.atom s.encode)
  | .array items => do
    let vs ← encodeItems items
    pure (.array vs)
  | .dictionary entries => do
    let d ← encodeEntries entries
    pure (.document d)
  | .null => .ok .null
  | .enumCase name => .ok (.string name)
  | .default => .error .unsupportedDefaultValue
  | .primitive v => .ok v
  | .otherBackend _ => .error .unsupportedCustomValue

/-- The values of several operands. -/
def encodeItems : List Operand → Except Error (List Value)
  | [] => .ok []
  | q :: qs => do
    let v ← encode q
    let vs ← encodeItems qs
    pure (v :: vs)

/-- The entries of a dictionary with their values. -/
def encodeEntries : List (String × Operand) → Except Error Document
  | [] => .ok []
  | (k, q) :: es => do
    let v ← encode q
    let d ← encodeEntries es
    pure ((k, v) :: d)

end

theorem encodeItems_eq_mapM (items : List Operand) : encodeItems items = items.mapM encode :=
  eq_mapM_of_cons (g := encodeItems) rfl (fun _ _ => rfl) items

mutual

/-- The operand that a value stands for, if every part of it has one. -/
def decode? : Value → Option Operand
  | .atom .null => some .null
  | .atom a => (Scalar.decode? a).map .bind
  | .array xs => (decodeItems? xs).map .array
  | .document d => (decodeEntries? d).map dictionaryOf

/-- The operands of several values. -/
def decodeItems? : List Value → Option (List Operand)
  | [] => some []
  | v :: vs =>
    match decode? v, decodeItems? vs with
    | some q, some qs => some (q :: qs)
    | _, _ => none

/-- The entries of a document as operands. -/
def decodeEntries? : List (String × Value) → Option (List (String × Operand))
  | [] => some []
  | (k, v) :: d =>
    match decode? v, decodeEntries? d with
    | some q, some es => some ((k, q) :: es)
    | _, _ => none

end

end Operand

end DocQuery
