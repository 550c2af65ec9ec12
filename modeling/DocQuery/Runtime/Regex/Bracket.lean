import DocQuery.Runtime.Regex.Escape
import DocQuery.Runtime.Regex.Nested

/-!
# Bracketed sets in patterns

The items of brackets: characters, ranges, escapes, named sets, nested brackets, and the operations
`&&`, `--` and `~~` between what stands before and after them. Every function takes the characters
that remain and returns those it leaves.
-/

namespace DocQuery.Runtime.Regex

/-- The named sets that a bracket may hold. -/
def namedSet? (name : String) : Option CharSet :=
  let lower : CharSet := .range 'a' 'z'
  let upper : CharSet := .range 'A' 'Z'
  let decimal : CharSet := .range '0' '9'
  let alpha : CharSet := .union lower upper
  match name with
  | "alnum" => some (.union alpha decimal)
  | "alpha" => some alpha
  | "ascii" => some (.range '\x00' '\x7f')
  | "blank" => some (.union (.single '\t') (.single ' '))
  | "cntrl" => some (.union (.range '\x00' '\x1f') (.single '\x7f'))
  | "digit" => some decimal
  | "graph" => some (.range '!' '~')
  | "lower" => some lower
  | "print" => some (.range ' ' '~')
  | "punct" =>
    some (.union (.union (.range '!' '/') (.range ':' '@'))
      (.union (.range '[' (Char.ofNat 96)) (.range '\x7b' '~')))
  | "space" => some (.union (.range '\t' '\r') (.single ' '))
  | "upper" => some upper
  | "word" => some (.union (.union alpha decimal) (.single '_'))
  | "xdigit" => some (.union decimal (.union (.range 'a' 'f') (.range 'A' 'F')))
  | _ => none

/-- The name of a named set, up to its colon. -/
def setName : List Char → List Char × List Char
  | [] => ([], [])
  | c :: cs =>
    if c = ':' then ([], c :: cs)
    else
      let (name, rest) := setName cs
      (c :: name, rest)

/-- A named set after its opening bracket, if there is one. -/
def namedSet (fl : Flags) (cs : List Char) : Option (CharSet × List Char) :=
  match cs with
  | ':' :: rest =>
    let (negated, rest) :=
      match rest with
      | '^' :: rest => (true, rest)
      | rest => (false, rest)
    match setName rest with
    | (name, ':' :: ']' :: rest) => do
      let s ← namedSet? (String.ofList name)
      let s := folded fl s
      pure (if negated then .compl s else s, rest)
    | _ => none
  | _ => none

/-- One item of a bracket: a character or a set of several. -/
def bracketItem (fl : Flags) : List Char → Option (Escape × List Char)
  | [] => none
  | '\\' :: rest => escape fl rest
  | c :: rest => some (.char c, rest)

/-- An item as a set; an anchor is no set. -/
def Escape.set? : Escape → Option CharSet
  | .char c => some (.single c)
  | .set s => some s
  | .anchor _ => none

/-- The next character that is neither white space nor the first number sign, if these are ignored;
a comment that begins here is looked into. -/
def glance (fl : Flags) (cs : List Char) : Option Char :=
  if fl.extended then within false cs else cs.head?
where
  within : Bool → List Char → Option Char
    | _, [] => none
    | seen, c :: cs =>
      if Text.isBlank c then within seen cs
      else if c = '#' ∧ !seen then within true cs
      else some c

/-- One item of a bracket, or a range between two characters. A hyphen stands for itself before a
closing bracket or another hyphen. -/
def bracketRange (fl : Flags) (cs : List Char) : Option (CharSet × List Char) := do
  let (first, rest) ← bracketItem fl cs
  match skip fl rest with
  | [] => none
  | '-' :: after =>
    if glance fl after = some ']' ∨ glance fl after = some '-' then
      pure (← first.set?, '-' :: after)
    else
      let (last, rest) ← bracketItem fl (skip fl after)
      match first, last with
      | .char a, .char b => if a ≤ b then some (.range a b, rest) else none
      | _, _ => none
  | after => pure (← first.set?, after)

/-- Operations between the sets of a bracket. -/
inductive SetOp where
  | inter
  | diff
  | symmDiff

/-- The set that an operation makes of two. -/
def SetOp.apply : SetOp → CharSet → CharSet → CharSet
  | .inter, s, t => .inter s t
  | .diff, s, t => s.diff t
  | .symmDiff, s, t => s.symmDiff t

/-- The part of a bracket that is being read: the items since the last operation, the last first,
and what stands before that operation. -/
structure Operand where
  before : Option (Nested CharSet × SetOp)
  items : List (Nested CharSet)

namespace Operand

/-- The set of a part that is complete, the operation before it applied. -/
def close (fl : Flags) (o : Operand) : Nested CharSet :=
  let here := Nested.join .unions o.items.reverse
  match o.before with
  | none => here
  | some (left, op) => .combine (fun s t => op.apply (folded fl s) (folded fl t)) left here

/-- Take in another item. -/
def add (x : Nested CharSet) (o : Operand) : Operand := { o with items := x :: o.items }

/-- The part after an operation. -/
def next (fl : Flags) (op : SetOp) (o : Operand) : Operand := ⟨some (o.close fl, op), []⟩

end Operand

/-- The hyphens and the closing bracket that stand for themselves at the start of a bracket. -/
def bracketStart (fl : Flags) (items : List (Nested CharSet)) (hyphens : Bool) :
    List Char → List (Nested CharSet) × List Char
  | [] => (items, [])
  | '-' :: rest => bracketStart fl (.leaf (.single '-') :: items) true (skip fl rest)
  | ']' :: rest =>
    if hyphens then (items, ']' :: rest) else (.leaf (.single ']') :: items, rest)
  | cs => (items, cs)
termination_by cs => cs.length
decreasing_by exact Nat.lt_succ_of_le (length_skip_le fl rest)

mutual

/-- A bracketed set, after its opening bracket. The number bounds the characters that remain. -/
def bracket (fl : Flags) : Nat → List Char → Option (Nested CharSet × List Char)
  | 0, _ => none
  | n + 1, cs =>
    let (negated, cs) :=
      match skip fl cs with
      | '^' :: rest => (true, skip fl rest)
      | cs => (false, cs)
    let (items, cs) := bracketStart fl [] false cs
    match bracketBody fl n ⟨none, items⟩ cs with
    | some (s, rest) =>
      some (s.wrap fun s => if negated then .compl (folded fl s) else folded fl s, rest)
    | none => none

/-- The items of a bracket up to its end, after what was read so far. -/
def bracketBody (fl : Flags) :
    Nat → Operand → List Char → Option (Nested CharSet × List Char)
  | 0, _, _ => none
  | n + 1, o, cs =>
    match skip fl cs with
    | [] => none
    | ']' :: rest => some (o.close fl, rest)
    | '[' :: rest =>
      match namedSet fl rest with
      | some (s, rest) => bracketBody fl n (o.add (.leaf s)) rest
      | none =>
        match bracket fl n rest with
        | some (s, rest) => bracketBody fl n (o.add s) rest
        | none => none
    | '&' :: '&' :: rest => bracketBody fl n (o.next fl .inter) rest
    | '-' :: '-' :: rest => bracketBody fl n (o.next fl .diff) rest
    | '~' :: '~' :: rest => bracketBody fl n (o.next fl .symmDiff) rest
    | cs =>
      match bracketRange fl cs with
      | some (s, rest) => bracketBody fl n (o.add (.leaf s)) rest
      | none => none

end

end DocQuery.Runtime.Regex
