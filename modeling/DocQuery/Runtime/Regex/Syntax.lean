import DocQuery.Runtime.Regex.CharSet

/-!
# Regular expressions

The abstract syntax of patterns. An `Anchor` says which positions an assertion admits, and `Regex`
combines sets of characters and anchors. Greediness leaves no trace here: only whether a pattern
occurs in a text is ever asked.

Patterns are put together by `Regex.concat`, `Regex.choice` and `Regex.repeated`, which keep them in
a normal form: no sequence stands directly in a sequence and no choice in a choice, empty parts of
sequences are left out, a choice between characters is a set, and what can only match the empty
text is repeated at most once.
-/

namespace DocQuery.Runtime

/-- Conditions on a position of a text. -/
inductive Anchor where
  | textStart
  | textEnd
  | lineStart
  | lineEnd
  /-- The start of a line where a carriage return ends one as well. -/
  | lineStartReturns
  /-- The end of a line where a carriage return ends one as well. -/
  | lineEndReturns
  | wordBoundary
  | notWordBoundary
  | wordStart
  | wordEnd
  | wordStartHalf
  | wordEndHalf
deriving DecidableEq

/-- A pattern. -/
inductive Regex where
  /-- The empty text. -/
  | empty
  /-- One character of a set. -/
  | set (s : CharSet)
  /-- The empty text, where the anchor holds. -/
  | anchor (a : Anchor)
  /-- A pattern whose match is remembered. -/
  | capture (r : Regex)
  /-- Patterns one after another. -/
  | seq (rs : List Regex)
  /-- One of several patterns. -/
  | alt (rs : List Regex)
  /-- A pattern at least `least` times, and at most `most` times if there is a bound. -/
  | times (r : Regex) (least : Nat) (most : Option Nat)

namespace Regex

mutual

/-- Whether a pattern can match the empty text only. -/
def matchesOnlyEmpty : Regex → Bool
  | .empty => true
  | .set _ => false
  | .anchor _ => true
  | .capture r => matchesOnlyEmpty r
  | .seq rs => allMatchOnlyEmpty rs
  | .alt rs => allMatchOnlyEmpty rs
  | .times r _ most => matchesOnlyEmpty r || most == some 0

/-- Whether each of several patterns can match the empty text only. -/
def allMatchOnlyEmpty : List Regex → Bool
  | [] => true
  | r :: rs => matchesOnlyEmpty r && allMatchOnlyEmpty rs

end

/-- The patterns that a pattern puts one after another. -/
def factors : Regex → List Regex
  | .empty => []
  | .seq rs => rs
  | r => [r]

/-- The patterns that a pattern chooses from. -/
def branches : Regex → List Regex
  | .alt rs => rs
  | r => [r]

/-- The set of a pattern that matches one character. -/
def set? : Regex → Option CharSet
  | .set s => some s
  | _ => none

/-- Several patterns one after another. -/
def concat (rs : List Regex) : Regex :=
  match rs.flatMap factors with
  | [] => .empty
  | [r] => r
  | rs => .seq rs

/-- One of several patterns. -/
def choice (rs : List Regex) : Regex :=
  match rs.flatMap branches with
  | [r] => r
  | rs =>
    match rs.mapM set? with
    | some sets => .set (.unions sets)
    | none => .alt rs

/-- A pattern over and over again, within bounds on how often. -/
def repeated (r : Regex) (least : Nat) (most : Option Nat) : Regex :=
  let (least, most) :=
    if r.matchesOnlyEmpty then (min least 1, some (min (most.getD 1) 1)) else (least, most)
  if most = some 0 then .empty
  else if least = 1 ∧ most = some 1 then r
  else .times r least most

end Regex

end DocQuery.Runtime
