import DocQuery.Field
import DocQuery.Operand

/-!
# Filters

Predicates on documents as a query describes them: comparisons of a field with an operand or with
another field, and groups of filters.
-/

namespace DocQuery

/-- Where a text has to occur for a containment to hold. -/
inductive Location where
  | anywhere
  | atStart
  | atEnd
deriving DecidableEq

/-- How a field is compared. -/
inductive FieldTest where
  /-- Equal, or unequal when inverted. -/
  | equality (inverse : Bool)
  /-- Greater, or less when inverted; `orEqual` admits equal values. -/
  | order (inverse orEqual : Bool)
  /-- One of a list, or none of it when inverted. -/
  | subset (inverse : Bool)
  /-- Containing a text, or not when inverted. -/
  | contains (inverse : Bool) (location : Location)
  /-- An operator of some other backend. -/
  | custom (name : String)
deriving DecidableEq

/-- How the members of a group combine. -/
inductive Relation where
  | all
  | any
  | custom (name : String)
deriving DecidableEq

/-- A predicate on documents. -/
inductive Filter where
  /-- A field compared with an operand. -/
  | value (field : Field) (test : FieldTest) (operand : Operand)
  /-- A field compared with another field of the same document. -/
  | fields (lhs : Field) (test : FieldTest) (rhs : Field)
  | group (filters : List Filter) (relation : Relation)
  /-- A query document, taken as it is. -/
  | raw (document : Document)
  /-- A filter meant for some other backend. -/
  | otherBackend (text : String)

namespace Filter

instance : Inhabited Filter := ⟨.raw []⟩

section Induction

variable {p : Filter → Prop} (value : ∀ field test operand, p (.value field test operand))
  (fields : ∀ lhs test rhs, p (.fields lhs test rhs))
  (group : ∀ (filters : List Filter) (relation : Relation), (∀ f ∈ filters, p f) →
    p (.group filters relation))
  (raw : ∀ document, p (.raw document)) (otherBackend : ∀ text, p (.otherBackend text))

include value fields group raw otherBackend

/-- What holds of a group whenever it holds of its members, and of filters that are no groups, holds
of all filters. -/
@[elab_as_elim]
theorem induction (f : Filter) : p f :=
  @Filter.rec p (fun fs => ∀ f ∈ fs, p f) value fields group raw otherBackend
    nofun (fun _ _ hf hfs => List.forall_mem_cons.mpr ⟨hf, hfs⟩) f

end Induction

def eq (f : Field) (s : Scalar) : Filter := .value f (.equality false) (.bind s)
def ne (f : Field) (s : Scalar) : Filter := .value f (.equality true) (.bind s)
def gt (f : Field) (s : Scalar) : Filter := .value f (.order false false) (.bind s)
def gte (f : Field) (s : Scalar) : Filter := .value f (.order false true) (.bind s)
def lt (f : Field) (s : Scalar) : Filter := .value f (.order true false) (.bind s)
def lte (f : Field) (s : Scalar) : Filter := .value f (.order true true) (.bind s)

/-- The field is one of the scalars. -/
def isIn (f : Field) (scalars : List Scalar) : Filter :=
  .value f (.subset false) (.ofScalars scalars)

/-- The field is none of the scalars. -/
def isNotIn (f : Field) (scalars : List Scalar) : Filter :=
  .value f (.subset true) (.ofScalars scalars)

/-- The field contains a text at a location. -/
def containing (f : Field) (location : Location) (needle : String) : Filter :=
  .value f (.contains false location) (.bind (.string needle))

/-- All of the filters hold. -/
def allOf (filters : List Filter) : Filter := .group filters .all

/-- One of the filters holds. -/
def anyOf (filters : List Filter) : Filter := .group filters .any

end Filter

end DocQuery
