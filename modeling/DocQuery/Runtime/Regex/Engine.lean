import DocQuery.Patterns
import DocQuery.Runtime.Regex.Matching
import DocQuery.Runtime.Regex.Parser
import DocQuery.Runtime.Regex.Size

/-!
# The engine that the program runs with

`Runtime.engine` reads the usual syntax of regular expressions, but for properties of characters and
for matching by bytes. No result on queries rests on it; it runs them, and it is the engine of the
queries on given documents that show a result at work.
-/

namespace DocQuery.Runtime

/-- The engine that the program runs with. -/
@[reducible] def engine : RegexEngine where
  read pattern :=
    match Regex.parse? pattern with
    | none => .error .malformed
    | some r => if r.isCompact then .ok r.occursIn else .error .tooLarge

end DocQuery.Runtime
