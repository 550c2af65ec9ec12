import DocQuery.Runtime.Regex.Syntax
import DocQuery.Runtime.Text.Utf8

/-!
# Size of a pattern

A pattern stands for two automata over bytes, one that reads a text forward and one that reads it
backward. `Regex.automatonSize` is the memory that the states of either take, and a pattern is
admitted by `Regex.isCompact` if neither takes more than `Regex.sizeLimit` bytes. A counted
repetition has a copy of what it repeats for every time.
-/

namespace DocQuery.Runtime

/-- The direction in which an automaton reads a text. -/
inductive ReadingOrder where
  | forward
  | backward
deriving DecidableEq

/-! ### States -/

/-- The size of a state with at most one way on. -/
def stateSize : Nat := 32

/-- The size of a state that goes on in several ways without reading. -/
def splitSize (ways : Nat) : Nat := stateSize + 4 * ways

/-- The size of a state that goes on by ranges of bytes. -/
def rangesSize (ranges : Nat) : Nat := stateSize + 8 * ranges

/-! ### Sets of characters -/

namespace CharSet

/-- Sequences in groups that begin alike: what they begin with, and how they go on. -/
def grouped {α : Type} [DecidableEq α] : List (List α) → List (α × List (List α))
  | [] => []
  | [] :: rest => grouped rest
  | (x :: xs) :: rest =>
    match grouped rest with
    | (y, tails) :: groups =>
      if x = y then (x, xs :: tails) :: groups else (x, [xs]) :: (y, tails) :: groups
    | [] => [(x, [xs])]

/-- The ways in which sequences go on that begin alike, where they do go on. -/
def suffixes {α : Type} [DecidableEq α] (sequences : List (List α)) : List (List (List α)) :=
  ((grouped sequences).map (·.2)).filter fun tails => tails.any (!·.isEmpty)

/-- The states of a reader of sequences, each given by the sequences it still accepts, level by
level. Sequences of that many items are followed to their ends. -/
def readers {α : Type} [DecidableEq α] : Nat → List (List (List α)) → List (List (List α))
  | 0, _ => []
  | n + 1, level => level ++ readers n (level.flatMap suffixes).eraseDups

/-- The number of non-empty beginnings of sequences of at most that many items. -/
def beginnings {α : Type} [DecidableEq α] : Nat → List (List α) → Nat
  | 0, _ => 0
  | n + 1, sequences => (grouped sequences).foldl (fun k g => k + 1 + beginnings n g.2) 0

/-- The size of an automaton for the characters in several ranges. Forward, states that accept the
same bytes are shared; backward, the bytes of a character are read from the last to the first, and
the states for what is left to read are shared. -/
def rangesAutomatonSize (d : ReadingOrder) (ranges : List (Nat × Nat)) : Nat :=
  if ranges.all fun r => r.2 < 0x80 then stateSize + rangesSize ranges.length
  else
    let sequences := ranges.flatMap Text.byteSequences
    match d with
    | .forward =>
      let states := (readers 4 [sequences]).eraseDups
      states.foldl (fun n s => n + rangesSize (grouped s).length) stateSize
    | .backward =>
      splitSize sequences.length + stateSize + stateSize * beginnings 4 sequences

/-- The only member of a set that has just one. -/
def only? (s : CharSet) : Option Char :=
  match s.ranges.list with
  | [(first, last)] => if first = last then some (Char.ofNat first) else none
  | _ => none

/-- The sizes, forward and backward, for the characters of words and for all others, which are
asked for often and have many ranges. -/
def wordSizes : List (CharSet × Nat × Nat) :=
  [word, word.compl].map fun s =>
    (s, rangesAutomatonSize .forward s.ranges.list, rangesAutomatonSize .backward s.ranges.list)

/-- The size of an automaton for a set. -/
def automatonSize (d : ReadingOrder) (s : CharSet) : Nat :=
  match s.only? with
  | some c => stateSize * c.utf8Size
  | none =>
    match wordSizes.lookup s, d with
    | some sizes, .forward => sizes.1
    | some sizes, .backward => sizes.2
    | none, d => rangesAutomatonSize d s.ranges.list

end CharSet

/-! ### Patterns -/

namespace Regex

/-- The text of a pattern that matches just one, and not the empty one. -/
def literal? : Regex → Option (List Char)
  | .set s => s.only?.map ([·])
  | .seq rs => rs.mapM fun r => r.set?.bind (·.only?)
  | _ => none

/-- The size of an automaton for a choice between texts, given as bytes, of which none is longer
than a bound. What begins alike is shared. -/
def textsSize : Nat → List (List UInt8) → Nat
  | 0, _ => 0
  | n + 1, texts =>
    match (texts.filterMap (·.head?)).eraseDups with
    | [] => 0
    | heads =>
      let here :=
        (if heads.length = 1 then stateSize else rangesSize heads.length) +
          (if texts.any (·.isEmpty) then splitSize 2 else 0)
      let after (b : UInt8) : List (List UInt8) :=
        texts.filterMap fun t => if t.head? = some b then t.tail? else none
      heads.foldl (fun k b => k + textsSize n (after b)) here

/-- The size of an automaton for a choice between texts. -/
def choiceSize (d : ReadingOrder) (texts : List (List Char)) : Nat :=
  let texts := texts.map fun t =>
    let bytes := (String.ofList t).toUTF8.toList
    match d with
    | .forward => bytes
    | .backward => bytes.reverse
  let longest := (texts.map (·.length)).foldl max 0
  stateSize + textsSize longest texts

mutual

/-- Whether every match of a pattern takes a character. -/
def consumes : Regex → Bool
  | .empty => false
  | .set _ => true
  | .anchor _ => false
  | .capture r => consumes r
  | .seq rs => oneConsumes rs
  | .alt rs => allConsume rs
  | .times r least _ => least != 0 && consumes r

/-- Whether every match of one of several patterns takes a character. -/
def oneConsumes : List Regex → Bool
  | [] => false
  | r :: rs => consumes r || oneConsumes rs

/-- Whether every match of each of several patterns takes a character. -/
def allConsume : List Regex → Bool
  | [] => true
  | r :: rs => consumes r && allConsume rs

end

mutual

/-- Whether a match can only begin at an anchor, or, backward, only end at it. -/
def isPinned (d : ReadingOrder) (a : Anchor) : Regex → Bool
  | .empty => false
  | .set _ => false
  | .anchor b => a = b
  | .capture r => isPinned d a r
  | .seq rs =>
    match d with
    | .forward => firstPinned d a rs
    | .backward => lastPinned d a rs
  | .alt rs => allPinned d a rs
  | .times r least _ => least != 0 && isPinned d a r

/-- Whether a match of patterns one after another can only begin at an anchor. -/
def firstPinned (d : ReadingOrder) (a : Anchor) : List Regex → Bool
  | [] => false
  | r :: rs => isPinned d a r || (r.matchesOnlyEmpty && firstPinned d a rs)

/-- Whether a match of patterns one after another can only end at an anchor. -/
def lastPinned (d : ReadingOrder) (a : Anchor) : List Regex → Bool
  | [] => false
  | r :: rs => lastPinned d a rs || (allMatchOnlyEmpty rs && isPinned d a r)

/-- Whether matches of each of several patterns are pinned. -/
def allPinned (d : ReadingOrder) (a : Anchor) : List Regex → Bool
  | [] => true
  | r :: rs => isPinned d a r && allPinned d a rs

end

/-- The size of a repetition of what takes a size and may or may not always take a character. -/
def timesSize (size : Nat) (consuming : Bool) (least : Nat) (most : Option Nat) : Nat :=
  match most with
  | none =>
    if least ≠ 0 then least * size + splitSize 2
    else if consuming then size + splitSize 2
    else size + 2 * splitSize 2 + stateSize
  | some most =>
    if least = most then most * size
    else if least = 0 ∧ most = 1 then size + splitSize 2 + stateSize
    else
      (if least = 0 then stateSize else least * size) + stateSize +
        (most - least) * (splitSize 2 + size)

mutual

/-- The size of the states for a pattern. Forward, the ends of a captured match are marked by
states of their own. -/
def statesSize (d : ReadingOrder) : Regex → Nat
  | .empty => stateSize
  | .set s => s.automatonSize d
  | .anchor _ => stateSize
  | .capture r =>
    match d with
    | .forward => 2 * stateSize + statesSize d r
    | .backward => statesSize d r
  | .seq rs => totalSize d rs
  | .alt rs =>
    match rs.mapM literal? with
    | some texts => choiceSize d texts
    | none => splitSize rs.length + stateSize + totalSize d rs
  | .times r least most => timesSize (statesSize d r) r.consumes least most

/-- The size of the states for several patterns. -/
def totalSize (d : ReadingOrder) : List Regex → Nat
  | [] => 0
  | r :: rs => statesSize d r + totalSize d rs

end

/-- The size of an automaton that finds a match of a pattern anywhere in a text: before the pattern
it passes over bytes, unless a match can only begin where the text does. -/
def automatonSize (d : ReadingOrder) (r : Regex) : Nat :=
  let passing := 2 * stateSize + splitSize 2 + 8
  match d with
  | .forward =>
    (if r.isPinned d .textStart then stateSize else passing) + 3 * stateSize + r.statesSize d
  | .backward => (if r.isPinned d .textEnd then stateSize else passing) + stateSize + r.statesSize d

/-- The greatest size of an automaton, ten mebibytes. -/
def sizeLimit : Nat := 10485760

/-- Whether the automata of a pattern are within the limit. -/
def isCompact (r : Regex) : Bool :=
  r.automatonSize .forward ≤ sizeLimit && r.automatonSize .backward ≤ sizeLimit

end Regex

end DocQuery.Runtime
