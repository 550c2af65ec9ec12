import DocQuery.Command
import DocQuery.Field
import DocQuery.Sort

/-!
# Schema operations

Collections have no declared columns. Of a schema operation only the uniqueness constraints, which
become unique indexes, and the removal of the collection have an effect.
-/

namespace DocQuery

/-- What a schema operation does to its collection. -/
inductive SchemaAction where
  | create
  | update
  | delete
deriving DecidableEq

/-- A field named by a constraint. -/
inductive IndexedField where
  | key (k : FieldKey)
  /-- A name meant for some other backend. -/
  | custom (text : String)
deriving DecidableEq

/-- What a constraint demands. -/
inductive ConstraintKind where
  | unique (fields : List IndexedField)
  | compositeIdentifier (fields : List IndexedField)
  | foreignKey (fields : List IndexedField) (foreignSchema : String)
      (foreignFields : List IndexedField)
  | custom (text : String)
deriving DecidableEq

/-- A constraint to create. -/
inductive Constraint where
  | standard (kind : ConstraintKind) (name : Option String)
  /-- A constraint meant for some other backend. -/
  | custom (text : String)
deriving DecidableEq

/-- A schema operation on one collection. -/
structure SchemaOperation where
  action : SchemaAction
  schema : String
  constraints : List Constraint
deriving DecidableEq

/-- What a schema operation asks of a store. -/
inductive SchemaPlan where
  /-- One submission for each constraint. -/
  | createIndexes (commands : List IndexCommand)
  | drop (collection : String)
deriving DecidableEq

namespace Constraint

/-- An unnamed constraint that the fields be unique together. -/
def unique (fields : List IndexedField) : Constraint := .standard (.unique fields) none

/-- The constraint under a name; one of some other backend has none. -/
def named (name : String) : Constraint → Constraint
  | .standard kind _ => .standard kind (some name)
  | .custom text => .custom text

/-- The name of the index of a constraint that has none. -/
def unnamedIndexName : String := "unique"

/-- The fields that must be unique together, and the name of the index, if the constraint demands
any. -/
def uniqueness? : Constraint → Option (List IndexedField × String)
  | .standard (.unique fields) name => some (fields, name.getD unnamedIndexName)
  | .standard (.compositeIdentifier fields) name => some (fields, name.getD unnamedIndexName)
  | .standard (.foreignKey _ _ _) _ => none
  | .standard (.custom _) _ => none
  | .custom _ => none

end Constraint

/-- The key of an index on a named field. -/
def IndexedField.indexKey : IndexedField → Except Error String
  | .key k => k.resolve
  | .custom _ => .error .invalidIndexKey

/-- The keys of an index on several fields, ascending. -/
def IndexedField.indexKeys (keys : Document) : List IndexedField → Except Error Document
  | [] => .ok keys
  | f :: fs => do
    let key ← f.indexKey
    indexKeys (keys.put key Direction.ascending.toValue) fs

namespace SchemaOperation

/-- An operation without constraints. -/
def bare (action : SchemaAction) (schema : String) : SchemaOperation := ⟨action, schema, []⟩

def withConstraint (c : Constraint) (o : SchemaOperation) : SchemaOperation :=
  { o with constraints := o.constraints ++ [c] }

/-- The unique indexes of a list of constraints. -/
def indexCommands (schema : String) : List Constraint → Except Error (List IndexCommand)
  | [] => .ok []
  | c :: cs =>
    match c.uniqueness? with
    | none => indexCommands schema cs
    | some (fields, name) => do
      let keys ← IndexedField.indexKeys [] fields
      let others ← indexCommands schema cs
      pure (⟨schema, [⟨name, keys, true⟩]⟩ :: others)

/-- The commands of a schema operation. -/
def compile (o : SchemaOperation) : Except Error SchemaPlan :=
  match o.action with
  | .delete => .ok (.drop o.schema)
  | _ => do
    let commands ← indexCommands o.schema o.constraints
    pure (.createIndexes commands)

end SchemaOperation

end DocQuery
