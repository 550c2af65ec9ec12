import DocQuery.Double

/-!
# Documents and their values

A value is an atom, an array of values, or a document: an ordered list of keys with their values.
`Document.value?` reads a key, `Document.put` writes one (in place when it is there, at the end
otherwise) and `Document.without` takes one out, leaving the order of the others. The small lemmas
beside them say what each does to `value?` and to the keys.
-/

namespace DocQuery

/-- A twelve-byte object identifier. -/
structure ObjectId where
  bytes : List UInt8
  length_eq : bytes.length = 12
deriving DecidableEq

namespace ObjectId

/-- The identifier with the given bytes, if there are twelve. -/
def ofBytes? (bytes : List UInt8) : Option ObjectId :=
  if h : bytes.length = 12 then some ⟨bytes, h⟩ else none

@[simp] theorem ofBytes?_bytes (id : ObjectId) : ofBytes? id.bytes = some id := dif_pos id.length_eq

/-- The twelve big-endian bytes of a number below `2 ^ 96`. -/
def ofNat (n : Nat) : ObjectId where
  bytes := (List.range 12).map fun i => UInt8.ofNat (n / Nat.pow 256 (11 - i))
  length_eq := by simp

instance : Inhabited ObjectId := ⟨ofNat 0⟩

end ObjectId

/-- A value without parts. Decimals of 128 bits, pointers to documents and code with a scope are
left out: nothing here has a case for them, as it has none for regular expressions, timestamps, code
and the keys below and above all others. -/
inductive Atom where
  | null
  | bool (b : Bool)
  | int32 (n : Int32)
  | int64 (n : Int64)
  | double (d : Double)
  | string (s : String)
  | binary (subtype : UInt8) (bytes : List UInt8)
  | dateTime (millis : Int64)
  | objectId (id : ObjectId)
  | regex (pattern options : String)
  | timestamp (time increment : UInt32)
  | symbol (s : String)
  | javascript (code : String)
  | undefined
  | minKey
  | maxKey
deriving DecidableEq, Inhabited

/-- A stored value. -/
inductive Value where
  | atom (a : Atom)
  | array (items : List Value)
  | document (entries : List (String × Value))

/-- An ordered list of keys with their values. -/
abbrev Document := List (String × Value)

namespace Value

instance : Inhabited Value := ⟨.atom .null⟩

@[match_pattern] abbrev null : Value := .atom .null
@[match_pattern] abbrev bool (b : Bool) : Value := .atom (.bool b)
@[match_pattern] abbrev int32 (n : Int32) : Value := .atom (.int32 n)
@[match_pattern] abbrev int64 (n : Int64) : Value := .atom (.int64 n)
@[match_pattern] abbrev double (d : Double) : Value := .atom (.double d)
@[match_pattern] abbrev string (s : String) : Value := .atom (.string s)
@[match_pattern] abbrev objectId (id : ObjectId) : Value := .atom (.objectId id)

mutual

/-- Values have decidable equality. -/
def decEq : (v w : Value) → Decidable (v = w)
  | .atom a, .atom b =>
    if h : a = b then isTrue (by rw [h]) else isFalse (by simpa using h)
  | .array xs, .array ys =>
    match decEqItems xs ys with
    | isTrue h => isTrue (by rw [h])
    | isFalse h => isFalse (by simpa using h)
  | .document d, .document e =>
    match decEqEntries d e with
    | isTrue h => isTrue (by rw [h])
    | isFalse h => isFalse (by simpa using h)
  | .atom _, .array _ => isFalse nofun
  | .atom _, .document _ => isFalse nofun
  | .array _, .atom _ => isFalse nofun
  | .array _, .document _ => isFalse nofun
  | .document _, .atom _ => isFalse nofun
  | .document _, .array _ => isFalse nofun

/-- Decide the equality of two lists of values. -/
def decEqItems : (xs ys : List Value) → Decidable (xs = ys)
  | [], [] => isTrue rfl
  | [], _ :: _ => isFalse nofun
  | _ :: _, [] => isFalse nofun
  | x :: xs, y :: ys =>
    match decEq x y, decEqItems xs ys with
    | isTrue h, isTrue h' => isTrue (by rw [h, h'])
    | isFalse h, _ => isFalse (by simp [h])
    | _, isFalse h => isFalse (by simp [h])

/-- Decide the equality of two lists of entries. -/
def decEqEntries : (d e : List (String × Value)) → Decidable (d = e)
  | [], [] => isTrue rfl
  | [], _ :: _ => isFalse nofun
  | _ :: _, [] => isFalse nofun
  | (k, x) :: d, (l, y) :: e =>
    if hk : k = l then
      match decEq x y, decEqEntries d e with
      | isTrue h, isTrue h' => isTrue (by rw [hk, h, h'])
      | isFalse h, _ => isFalse (by simp [h])
      | _, isFalse h => isFalse (by simp [h])
    else isFalse (by simp [hk])

end

instance : DecidableEq Value := decEq

/-- Whether the value is a document. -/
def isDocument : Value → Bool
  | .document _ => true
  | _ => false

/-- The entries of a document value. -/
def document? : Value → Option Document
  | .document d => some d
  | _ => none

end Value

namespace Document

/-- The keys, in order. -/
def keys (d : Document) : List String := d.map (·.1)

/-- The value under a key. -/
def value? : Document → String → Option Value
  | [], _ => none
  | (k, v) :: d, key => if k = key then some v else value? d key

/-- Whether a key is present. -/
def has (d : Document) (key : String) : Bool := (d.value? key).isSome

/-- Write a value under a key: in place when the key is present, as the last entry otherwise. -/
def put : Document → String → Value → Document
  | [], key, v => [(key, v)]
  | (k, w) :: d, key, v => if k = key then (k, v) :: d else (k, w) :: put d key v

/-- Take a key out; the other entries keep their order. -/
def without : Document → String → Document
  | [], _ => []
  | (k, v) :: d, key => if k = key then d else (k, v) :: without d key

/-- The document written entry by entry; a repeated key replaces its value in place. -/
def ofEntries (entries : List (String × Value)) : Document :=
  entries.foldl (fun d e => d.put e.1 e.2) []

@[simp] theorem value?_nil (key : String) : value? [] key = none := rfl

theorem value?_cons (k key : String) (v : Value) (d : Document) :
    value? ((k, v) :: d) key = if k = key then some v else value? d key := rfl

@[simp] theorem value?_put_self (d : Document) (key : String) (v : Value) :
    (d.put key v).value? key = some v := by
  fun_induction put d key v <;> simp_all [value?]

theorem value?_put_of_ne (d : Document) {key other : String} (v : Value) (h : key ≠ other) :
    (d.put key v).value? other = d.value? other := by
  fun_induction put d key v <;> simp_all [value?]

/-- Writing to a present key moves nothing. -/
theorem keys_put_of_mem {d : Document} {key : String} (v : Value) (h : key ∈ d.keys) :
    (d.put key v).keys = d.keys := by
  fun_induction put d key v with
  | case1 key v => cases h
  | case2 k w d v => rfl
  | case3 k w d key v hne ih =>
    rcases List.mem_cons.mp h with rfl | h
    · exact absurd rfl hne
    · exact congrArg (k :: ·) (ih h)

/-- A new key goes to the end. -/
theorem keys_put_of_not_mem {d : Document} {key : String} (v : Value) (h : key ∉ d.keys) :
    (d.put key v).keys = d.keys ++ [key] := by
  fun_induction put d key v <;> simp_all [keys]

theorem value?_without_of_ne (d : Document) {key other : String} (h : key ≠ other) :
    (d.without key).value? other = d.value? other := by
  fun_induction without d key <;> simp_all [value?]

theorem value?_eq_none_iff {d : Document} {key : String} :
    d.value? key = none ↔ key ∉ d.keys := by
  fun_induction value? d key with
  | case1 key => simp [keys]
  | case2 v d key => simp [keys]
  | case3 k v d key hne ih => simp [keys, ih, Ne.symm hne]

end Document

end DocQuery
