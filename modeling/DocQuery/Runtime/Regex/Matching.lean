import DocQuery.Runtime.Regex.Syntax

/-!
# Occurrence of a pattern in a text

A `Cursor` is a position in a text: the character before it and the characters after it. A pattern
takes a set of cursors to the set of those at which a match can end; `Regex.run` computes that
set, and `Regex.occursIn` asks whether it is inhabited when a match may begin anywhere.

Sets of cursors are lists with the last position first, each position once. What is new in a round
of a repetition mostly lies behind what was found before, and so at the front of the list.
-/

namespace DocQuery.Runtime

/-- A position in a text. -/
structure Cursor where
  /-- The number of characters before the position. -/
  index : Nat
  before : Option Char
  rest : List Char
deriving DecidableEq

namespace Cursor

/-- Move past the next character if the set has it. -/
def step? (s : CharSet) (p : Cursor) : Option Cursor :=
  match p.rest with
  | [] => none
  | c :: rest => if s.mem c then some ⟨p.index + 1, some c, rest⟩ else none

/-- Whether a word character stands before the position. -/
def wordBefore (p : Cursor) : Bool := p.before.any Text.isWord

/-- Whether a word character follows the position. -/
def wordAfter (p : Cursor) : Bool := p.rest.head?.any Text.isWord

/-- The positions after one that stands before some characters, in front of given positions. -/
def positionsOnto (ps : List Cursor) (index : Nat) (before : Option Char) :
    List Char → List Cursor
  | [] => ⟨index, before, []⟩ :: ps
  | c :: rest => positionsOnto (⟨index, before, c :: rest⟩ :: ps) (index + 1) (some c) rest

/-- Every position of a text. -/
def ofText (s : String) : List Cursor := positionsOnto [] 0 none s.toList

/-- The positions of two lists, in front of positions already taken from both, the first of which
comes first. -/
def mergeOnto (taken : List Cursor) : List Cursor → List Cursor → List Cursor
  | [], qs => taken.reverse ++ qs
  | ps, [] => taken.reverse ++ ps
  | p :: ps, q :: qs =>
    if q.index < p.index then mergeOnto (p :: taken) ps (q :: qs)
    else if p.index < q.index then mergeOnto (q :: taken) (p :: ps) qs
    else mergeOnto (p :: taken) ps qs
termination_by ps qs => ps.length + qs.length

/-- The positions that are in one of two lists. -/
def merge (ps qs : List Cursor) : List Cursor := mergeOnto [] ps qs

/-- The positions of the first list that are not in the second, after those already kept, the first
of which comes first. -/
def lessOnto (kept : List Cursor) : List Cursor → List Cursor → List Cursor
  | [], _ => kept.reverse
  | ps, [] => kept.reverse ++ ps
  | p :: ps, q :: qs =>
    if q.index < p.index then lessOnto (p :: kept) ps (q :: qs)
    else if p.index < q.index then lessOnto kept (p :: ps) qs
    else lessOnto kept ps qs
termination_by ps qs => ps.length + qs.length

/-- The positions of the first list that are not in the second. -/
def less (ps qs : List Cursor) : List Cursor := lessOnto [] ps qs

/-- Whether two lists hold the same positions. -/
def same : List Cursor → List Cursor → Bool
  | [], [] => true
  | p :: ps, q :: qs => p.index == q.index && same ps qs
  | _, _ => false

/-- The number of positions from the first of a list to the end of the text. -/
def span (ps : List Cursor) : Nat :=
  match ps.getLast? with
  | none => 0
  | some p => p.rest.length + 1

end Cursor

/-- Whether an anchor holds at a position. -/
def Anchor.holds (a : Anchor) (p : Cursor) : Bool :=
  match a with
  | .textStart => p.before.isNone
  | .textEnd => p.rest.isEmpty
  | .lineStart => p.before.isNone || p.before == some '\n'
  | .lineEnd => p.rest.isEmpty || p.rest.head? == some '\n'
  | .lineStartReturns =>
    p.before.isNone || p.before == some '\n' ||
      (p.before == some '\r' && p.rest.head? != some '\n')
  | .lineEndReturns =>
    p.rest.isEmpty || p.rest.head? == some '\r' ||
      (p.rest.head? == some '\n' && p.before != some '\r')
  | .wordBoundary => p.wordBefore != p.wordAfter
  | .notWordBoundary => p.wordBefore == p.wordAfter
  | .wordStart => !p.wordBefore && p.wordAfter
  | .wordEnd => p.wordBefore && !p.wordAfter
  | .wordStartHalf => !p.wordBefore
  | .wordEndHalf => !p.wordAfter

namespace Regex

/-- Apply a step a fixed number of times, or until it changes nothing. -/
def iterate (f : List Cursor → List Cursor) : Nat → List Cursor → List Cursor
  | 0, ps => ps
  | n + 1, ps =>
    let qs := f ps
    if Cursor.same ps qs then qs else iterate f n qs

/-- The positions reached by applying a step at most that many times. Each round starts from what
the round before found first, and the search ends when a round finds nothing new. -/
def spread (f : List Cursor → List Cursor) : Nat → List Cursor → List Cursor → List Cursor
  | 0, found, _ => found
  | n + 1, found, latest =>
    match Cursor.less (f latest) found with
    | [] => found
    | p :: ps => spread f n (Cursor.merge found (p :: ps)) (p :: ps)

mutual

/-- The cursors at which a match that begins at one of the given cursors can end. A text with that
many positions bounds the rounds of a repetition: a match with more rounds has one that does not
move, which can be left out or doubled, and an unbounded search finds a new position in each. -/
def run : Regex → List Cursor → List Cursor
  | .empty, ps => ps
  | .set s, ps => ps.filterMap (·.step? s)
  | .anchor a, ps => ps.filter a.holds
  | .capture r, ps => run r ps
  | .seq rs, ps => runAll rs ps
  | .alt rs, ps => runAny rs ps
  | .times r least most, ps =>
    let first := iterate (run r) (min least (Cursor.span ps)) ps
    spread (run r) (most.elim (Cursor.span first) (· - least)) first first

/-- The cursors at which a match of several patterns one after another can end. -/
def runAll : List Regex → List Cursor → List Cursor
  | [], ps => ps
  | r :: rs, ps => runAll rs (run r ps)

/-- The cursors at which a match of one of several patterns can end. -/
def runAny : List Regex → List Cursor → List Cursor
  | [], _ => []
  | r :: rs, ps => Cursor.merge (run r ps) (runAny rs ps)

end

/-- Whether the pattern matches some part of the text. -/
def occursIn (r : Regex) (s : String) : Bool := !(r.run (Cursor.ofText s)).isEmpty

end Regex

end DocQuery.Runtime
