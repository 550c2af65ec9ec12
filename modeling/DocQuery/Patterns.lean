/-!
# Engines for patterns

What regular expressions mean is left to an engine, which the program brings along. A store asks it
only to read patterns, and then whether a text contains a match. Every result on queries holds for
any engine, unless it says what it asks of one.
-/

namespace DocQuery

/-- Why a pattern is refused. -/
inductive PatternFault where
  /-- It is not written as patterns are. -/
  | malformed
  /-- It takes too much memory. -/
  | tooLarge
deriving DecidableEq

/-- An engine for regular expressions. -/
class RegexEngine where
  /-- Read a pattern: how to tell whether a text contains a match, or why there is none to look
  for. -/
  read (pattern : String) : Except PatternFault (String → Bool)

end DocQuery
