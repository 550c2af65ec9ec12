/-!
# Nesting of constructs

What is read from a pattern, together with the depth to which its constructs are nested. Groups,
repetitions, brackets and operations between sets count, and so does a sequence or a choice of
more than one part.
-/

namespace DocQuery.Runtime.Regex

/-- Something read from a pattern, and the depth of its constructs. -/
structure Nested (α : Type) where
  value : α
  depth : Nat

namespace Nested

variable {α β : Type}

/-- Something that holds no construct. -/
def leaf (x : α) : Nested α := ⟨x, 0⟩

/-- A construct around another one. -/
def wrap (f : α → β) (x : Nested α) : Nested β := ⟨f x.value, x.depth + 1⟩

/-- A construct of two others. -/
def combine (f : α → α → β) (x y : Nested α) : Nested β :=
  ⟨f x.value y.value, max x.depth y.depth + 1⟩

/-- Several constructs side by side; one alone stands for itself. -/
def join (f : List α → α) : List (Nested α) → Nested α
  | [] => leaf (f [])
  | [x] => x
  | xs => ⟨f (xs.map (·.value)), (xs.map (·.depth)).foldl max 0 + 1⟩

end Nested

end DocQuery.Runtime.Regex
