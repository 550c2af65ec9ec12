import DocQuery.Runtime.Regex.Bracket

/-!
# Reading patterns

The concrete syntax of patterns: literals, `.`, bracketed sets, escapes, anchors, groups with
flags, alternation and repetition. `Regex.parse?` reads a whole text and has no answer for one
that is no pattern. The flags are `i` (ignore case), `m` (anchors match at lines), `s` (the dot
matches line feeds too), `R` (carriage returns end lines too), `x` (white space and comments are
ignored), and `U` and `u`, which do not change whether a pattern occurs. Properties of characters
(`\p`) and matching by bytes (`-u`) are not supported; a pattern with them is refused.

Every function takes the characters that remain and returns those it leaves. The readers that
recurse through groups or brackets carry a bound on the characters that remain; each step consumes
one.
-/

namespace DocQuery.Runtime.Regex

/-! ### Repetition -/

/-- Decimal digits after a value read so far; `seen` says whether there was a digit. -/
def decimalDigits (fl : Flags) (seen : Bool) (n : Nat) : List Char → Option (Nat × List Char)
  | [] => if seen then some (n, []) else none
  | c :: cs =>
    if c.isDigit then decimalDigits fl true (10 * n + (c.toNat - '0'.toNat)) (skip fl cs)
    else if seen then some (n, c :: cs)
    else none
termination_by cs => cs.length
decreasing_by exact Nat.lt_succ_of_le (length_skip_le fl cs)

/-- A count, which fits 32 bits and may stand between blanks. -/
def count (fl : Flags) (cs : List Char) : Option (Nat × List Char) := do
  let (n, rest) ← decimalDigits fl false 0 (cs.dropWhile Text.isBlank)
  if n < UInt32.size then pure (n, rest.dropWhile Text.isBlank) else none

/-- A counted repetition, after its opening brace: the bounds, and what follows the brace. -/
def counted (fl : Flags) (cs : List Char) : Option ((Nat × Option Nat) × List Char) := do
  let (least, rest) ← count fl (skip fl cs)
  match rest with
  | '\x7d' :: rest => pure ((least, some least), rest)
  | ',' :: rest =>
    match skip fl rest with
    | '\x7d' :: rest => pure ((least, none), rest)
    | rest =>
      let (most, rest) ← count fl rest
      match rest with
      | '\x7d' :: rest => if least ≤ most then pure ((least, some most), rest) else none
      | _ => none
  | _ => none

/-- Drop the mark of a reluctant repetition. -/
def dropReluctant : List Char → List Char
  | '?' :: rest => rest
  | cs => cs

/-- A pattern under a repetition operator. -/
def Nested.times (least : Nat) (most : Option Nat) (r : Nested Regex) : Nested Regex :=
  r.wrap fun r => r.repeated least most

/-- The repetition operators that follow a pattern, applied from the inside out. The number bounds
the characters that remain. -/
def repetitions (fl : Flags) : Nat → Nested Regex → List Char → Option (Nested Regex × List Char)
  | 0, _, _ => none
  | n + 1, r, cs =>
    match skip fl cs with
    | '*' :: rest => repetitions fl n (r.times 0 none) (dropReluctant rest)
    | '+' :: rest => repetitions fl n (r.times 1 none) (dropReluctant rest)
    | '?' :: rest => repetitions fl n (r.times 0 (some 1)) (dropReluctant rest)
    | '\x7b' :: rest =>
      match counted fl rest with
      | some ((least, most), rest) =>
        repetitions fl n (r.times least most) (dropReluctant (skip fl rest))
      | none => none
    | cs => some (r, cs)

/-! ### Groups -/

/-- Set or clear one flag. -/
def Flags.assign (fl : Flags) (on : Bool) : Char → Option Flags
  | 'i' => some { fl with ignoreCase := on }
  | 'm' => some { fl with multiLine := on }
  | 's' => some { fl with dotAll := on }
  | 'x' => some { fl with extended := on }
  | 'R' => some { fl with returns := on }
  | 'U' => some fl
  | 'u' => if on then some fl else none
  | _ => none

/-- The flags of a group, up to the colon or parenthesis that ends them. No flag is named twice,
there is at most one minus sign, and a flag follows it. -/
def groupFlags (fl : Flags) (on : Bool) (seen : List Char) :
    List Char → Option (Flags × List Char × List Char)
  | [] => none
  | c :: rest =>
    if c = ':' ∨ c = ')' then
      if seen.head? = some '-' then none else some (fl, seen, c :: rest)
    else if c ∈ seen then none
    else if c = '-' then groupFlags fl false ('-' :: seen) rest
    else
      match fl.assign on c with
      | some fl => groupFlags fl on (c :: seen) rest
      | none => none

/-- Whether a character may stand in the name of a group, or at its start. -/
def isNameChar (first : Bool) (c : Char) : Bool :=
  c == '_' || Text.isAlphabetic c ||
    (!first && (Text.isNumeric c || c == '.' || c == '[' || c == ']'))

/-- The name of a group, up to its closing angle bracket. -/
def groupName (first : Bool) : List Char → Option (List Char × List Char)
  | [] => none
  | c :: rest =>
    if c = '>' then (if first then none else some ([], rest))
    else if isNameChar first c then do
      let (name, rest) ← groupName false rest
      pure (c :: name, rest)
    else none

/-- How a parenthesis opens. -/
inductive Opening where
  /-- Flags for the rest of the enclosing group. -/
  | flags (fl : Flags)
  /-- A group with flags of its own whose match is not remembered. -/
  | group (fl : Flags)
  /-- A group whose match is remembered, by a name if it has one. -/
  | capture (name : Option (List Char))

/-- What follows an opening parenthesis. Assertions that look around are not supported. -/
def opening (fl : Flags) (cs : List Char) : Option (Opening × List Char) :=
  match skip fl cs with
  | '?' :: '=' :: _ => none
  | '?' :: '!' :: _ => none
  | '?' :: '<' :: '=' :: _ => none
  | '?' :: '<' :: '!' :: _ => none
  | '?' :: 'P' :: '<' :: rest => do
    let (name, rest) ← groupName true rest
    pure (.capture (some name), rest)
  | '?' :: '<' :: rest => do
    let (name, rest) ← groupName true rest
    pure (.capture (some name), rest)
  | '?' :: rest =>
    match groupFlags fl true [] rest with
    | some (inner, _, ':' :: rest) => some (.group inner, rest)
    | some (inner, _ :: _, ')' :: rest) => some (.flags inner, rest)
    | _ => none
  | cs => some (.capture none, cs)

/-- What a reader of patterns passes on: the flags in force, the names of groups so far, and the
number of groups that are open. -/
structure Scan where
  flags : Flags
  names : List (List Char)
  openGroups : Nat

/-- The greatest depth to which the constructs of a pattern may be nested. -/
def depthLimit : Nat := 250

/-- The state of the reader inside a group, unless groups are nested too deep or the name is taken.
-/
def Scan.enter? (sc : Scan) (o : Opening) : Option Scan :=
  if depthLimit ≤ sc.openGroups then none
  else
    let sc := { sc with openGroups := sc.openGroups + 1 }
    match o with
    | .flags fl => some { sc with flags := fl }
    | .group fl => some { sc with flags := fl }
    | .capture none => some sc
    | .capture (some name) =>
      if name ∈ sc.names then none else some { sc with names := name :: sc.names }

/-- The pattern of a group. -/
def Opening.around (o : Opening) (r : Nested Regex) : Nested Regex :=
  match o with
  | .capture _ => r.wrap .capture
  | _ => r.wrap id

/-- The anchor of a caret. -/
def Flags.caret (fl : Flags) : Anchor :=
  if fl.multiLine then (if fl.returns then .lineStartReturns else .lineStart) else .textStart

/-- The anchor of a dollar sign. -/
def Flags.dollar (fl : Flags) : Anchor :=
  if fl.multiLine then (if fl.returns then .lineEndReturns else .lineEnd) else .textEnd

/-- The pattern of one unescaped character outside brackets. -/
def plain (fl : Flags) (c : Char) : Regex :=
  match c with
  | '.' => .set (dot fl)
  | '^' => .anchor fl.caret
  | '$' => .anchor fl.dollar
  | c => .set (literal fl c)

/-- The pattern of an escape outside brackets. -/
def Escape.regex (fl : Flags) : Escape → Regex
  | .char c => .set (literal fl c)
  | .set s => .set s
  | .anchor a => .anchor a

/-- The pattern that a character begins outside brackets and groups, with the repetitions of it. A
repetition operator begins none. -/
def part (fl : Flags) (n : Nat) (c : Char) (cs : List Char) :
    Option (Nested Regex × List Char) := do
  let (r, rest) ←
    match c with
    | '*' => none
    | '+' => none
    | '?' => none
    | '\x7b' => none
    | '[' => do
      let (s, rest) ← bracket fl n cs
      pure ((⟨.set s.value, s.depth⟩ : Nested Regex), rest)
    | '\\' => do
      let (e, rest) ← escape fl cs
      pure (.leaf (e.regex fl), rest)
    | c => some (.leaf (plain fl c), cs)
  repetitions fl n r rest

mutual

/-- Alternatives, up to the end of the text or a closing parenthesis, after alternatives read so
far, the last of which comes first. -/
def alternatives :
    Nat → Scan → List (Nested Regex) → List Char → Option (Nested Regex × Scan × List Char)
  | 0, _, _, _ => none
  | n + 1, sc, read, cs =>
    match sequence n sc [] cs with
    | some (r, sc, '|' :: rest) => alternatives n sc (r :: read) rest
    | some (r, sc, rest) => some (.join .choice (r :: read).reverse, sc, rest)
    | none => none

/-- One part after another, up to the end of an alternative, after parts read so far, the last of
which comes first. Flags count as a part that matches the empty text. -/
def sequence :
    Nat → Scan → List (Nested Regex) → List Char → Option (Nested Regex × Scan × List Char)
  | 0, _, _, _ => none
  | n + 1, sc, read, cs =>
    match skip sc.flags cs with
    | [] => some (.join .concat read.reverse, sc, [])
    | '|' :: rest => some (.join .concat read.reverse, sc, '|' :: rest)
    | ')' :: rest => some (.join .concat read.reverse, sc, ')' :: rest)
    | '(' :: rest =>
      match opening sc.flags rest with
      | some (.flags fl, rest) => sequence n { sc with flags := fl } (.leaf .empty :: read) rest
      | some (o, rest) =>
        match group n sc o rest with
        | some (r, sc, rest) => sequence n sc (r :: read) rest
        | none => none
      | none => none
    | c :: rest =>
      match part sc.flags n c rest with
      | some (r, rest) => sequence n sc (r :: read) rest
      | none => none

/-- A group after its opening, with the repetitions of it; the flags from before it apply again. -/
def group : Nat → Scan → Opening → List Char → Option (Nested Regex × Scan × List Char)
  | 0, _, _, _ => none
  | n + 1, outer, o, cs =>
    match outer.enter? o with
    | none => none
    | some inner =>
      match alternatives n inner [] cs with
      | some (r, sc, ')' :: rest) =>
        match repetitions outer.flags n (o.around r) rest with
        | some (r, rest) => some (r, ⟨outer.flags, sc.names, outer.openGroups⟩, rest)
        | none => none
      | _ => none

end

/-- The pattern written by a text, if it is one. -/
def parse? (pattern : String) : Option Regex :=
  let cs := pattern.toList
  match alternatives (4 * cs.length + 4) ⟨{}, [], 0⟩ [] cs with
  | some (r, _, []) => if r.depth ≤ depthLimit then some r.value else none
  | _ => none

end DocQuery.Runtime.Regex
