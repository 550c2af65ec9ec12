import DocQuery.Bytes
import DocQuery.Runtime.Regex.Syntax

/-!
# Characters and escapes in patterns

What a pattern says about a single position outside brackets, under the flags in force: a literal
character, the dot, or an escape. Every function takes the characters that remain and returns those
it leaves. White space and comments, where the flags ask to ignore them, are ignored between the
characters of an escape as well.
-/

namespace DocQuery.Runtime.Regex

/-- The switches that a pattern can set for the part that follows. -/
structure Flags where
  ignoreCase : Bool := false
  multiLine : Bool := false
  dotAll : Bool := false
  extended : Bool := false
  /-- A carriage return ends a line, alone or with the line feed after it. -/
  returns : Bool := false
deriving DecidableEq

/-! ### Blanks and comments -/

/-- Drop white space and comments; the switch says whether a comment is open. -/
def dropIgnored : Bool → List Char → List Char
  | _, [] => []
  | true, c :: cs => dropIgnored (c != '\n') cs
  | false, c :: cs =>
    if Text.isBlank c then dropIgnored false cs
    else if c = '#' then dropIgnored true cs
    else c :: cs

/-- Drop what the extended syntax ignores, if it is on. -/
def skip (fl : Flags) (cs : List Char) : List Char :=
  if fl.extended then dropIgnored false cs else cs

/-- Nothing is added by dropping. -/
private theorem length_dropIgnored_le (b : Bool) (cs : List Char) :
    (dropIgnored b cs).length ≤ cs.length := by
  fun_induction dropIgnored b cs with
  | case1 => exact Nat.le_refl _
  | case2 _ _ ih => exact Nat.le_succ_of_le ih
  | case3 _ _ _ ih => exact Nat.le_succ_of_le ih
  | case4 _ _ ih => exact Nat.le_succ_of_le ih
  | case5 => exact Nat.le_refl _

/-- Nothing is added by skipping. -/
theorem length_skip_le (fl : Flags) (cs : List Char) : (skip fl cs).length ≤ cs.length := by
  unfold skip
  split
  · exact length_dropIgnored_le false cs
  · exact Nat.le_refl _

/-! ### Characters -/

/-- The set that a literal character stands for. -/
def literal (fl : Flags) (c : Char) : CharSet :=
  if fl.ignoreCase then .ignoringCase (.single c) else .single c

/-- A set as a bracket takes it in. -/
def folded (fl : Flags) (s : CharSet) : CharSet := if fl.ignoreCase then .ignoringCase s else s

/-- The set that the dot stands for. -/
def dot (fl : Flags) : CharSet :=
  if fl.dotAll then .any
  else if fl.returns then .compl (.union (.single '\r') (.single '\n'))
  else .compl (.single '\n')

/-- Whether a character may be escaped to stand for itself: all of ASCII but letters, digits and
angle brackets. -/
def isEscapable (c : Char) : Bool :=
  c.toNat < 128 && !c.isAlphanum && c != '<' && c != '>'

/-- The character with a code point, if there is one. -/
def charOfCode? (n : Nat) : Option Char :=
  if n < 0xD800 ∨ (0xDFFF < n ∧ n < 0x110000) then some (Char.ofNat n) else none

/-- Exactly that many hexadecimal digits, after a value read so far. -/
def hexDigits (fl : Flags) : Nat → Nat → List Char → Option (Nat × List Char)
  | 0, n, cs => some (n, cs)
  | k + 1, n, cs =>
    match skip fl cs with
    | [] => none
    | c :: rest => do
      let v ← Bytes.hexValue? c
      hexDigits fl k (16 * n + v) rest

/-- Hexadecimal digits up to a closing brace, after a value read so far; `seen` says whether there
was a digit. -/
def hexBraced (fl : Flags) (seen : Bool) (n : Nat) (cs : List Char) : Option (Nat × List Char) :=
  match _h : skip fl cs with
  | [] => none
  | c :: rest =>
    if c = '\x7d' then (if seen then some (n, rest) else none)
    else
      match Bytes.hexValue? c with
      | some v => hexBraced fl true (16 * n + v) rest
      | none => none
termination_by cs.length
decreasing_by
  have := length_skip_le fl cs
  rw [_h] at this
  exact this

/-- What an escape stands for. -/
inductive Escape where
  | char (c : Char)
  | set (s : CharSet)
  | anchor (a : Anchor)

/-- A character given by its code point, as many digits as the letter of the escape asks for or
any number of them between braces. -/
def hexEscape (fl : Flags) (width : Nat) (cs : List Char) : Option (Escape × List Char) := do
  let (n, rest) ←
    match skip fl cs with
    | '\x7b' :: rest => hexBraced fl false 0 rest
    | cs => hexDigits fl width 0 cs
  let c ← charOfCode? n
  pure (.char c, rest)

/-- Whether a character may stand in the name of a boundary. -/
def isBoundaryNameChar (c : Char) : Bool := c.isAlpha || c = '-'

/-- The name of a boundary, with what follows it. -/
def boundaryName (fl : Flags) : List Char → List Char × List Char
  | [] => ([], [])
  | c :: cs =>
    if isBoundaryNameChar c then
      let (name, rest) := boundaryName fl (skip fl cs)
      (c :: name, rest)
    else ([], c :: cs)
termination_by cs => cs.length
decreasing_by exact Nat.lt_succ_of_le (length_skip_le fl cs)

/-- The boundary of a name. -/
def boundaryNamed? (name : List Char) : Option Anchor :=
  match String.ofList name with
  | "start" => some .wordStart
  | "end" => some .wordEnd
  | "start-half" => some .wordStartHalf
  | "end-half" => some .wordEndHalf
  | _ => none

/-- A word boundary, which may be narrowed to a side by a name between braces. Braces that begin
otherwise say how often the boundary is repeated. -/
def boundaryEscape (fl : Flags) (cs : List Char) : Option (Escape × List Char) :=
  match cs with
  | '\x7b' :: rest =>
    match boundaryName fl (skip fl rest) with
    | ([], _) => some (.anchor .wordBoundary, cs)
    | (name, '\x7d' :: rest) => do
      let a ← boundaryNamed? name
      pure (.anchor a, rest)
    | _ => none
  | _ => some (.anchor .wordBoundary, cs)

/-- What follows a backslash. -/
def escape (fl : Flags) : List Char → Option (Escape × List Char)
  | [] => none
  | c :: rest =>
    if isEscapable c then some (.char c, rest)
    else
      match c with
      | 'd' => some (.set .digit, rest)
      | 'D' => some (.set (.compl .digit), rest)
      | 's' => some (.set .blank, rest)
      | 'S' => some (.set (.compl .blank), rest)
      | 'w' => some (.set .word, rest)
      | 'W' => some (.set (.compl .word), rest)
      | 'a' => some (.char '\x07', rest)
      | 'f' => some (.char '\x0c', rest)
      | 't' => some (.char '\t', rest)
      | 'n' => some (.char '\n', rest)
      | 'r' => some (.char '\r', rest)
      | 'v' => some (.char '\x0b', rest)
      | 'x' => hexEscape fl 2 rest
      | 'u' => hexEscape fl 4 rest
      | 'U' => hexEscape fl 8 rest
      | 'A' => some (.anchor .textStart, rest)
      | 'z' => some (.anchor .textEnd, rest)
      | 'b' => boundaryEscape fl rest
      | 'B' => some (.anchor .notWordBoundary, rest)
      | '<' => some (.anchor .wordStart, rest)
      | '>' => some (.anchor .wordEnd, rest)
      | _ => none

end DocQuery.Runtime.Regex
