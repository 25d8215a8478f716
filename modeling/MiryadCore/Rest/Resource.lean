import MiryadCore.Users.Database
import Mathlib.Data.Fintype.Basic

/-!
# Resources

A resource is an entity with its access policies, its owner and filter columns
and its hooks.  A row is a function of the columns.  `resourceRouter` refuses
three kinds of declaration; a `Mounted` resource is one that it accepts.
-/

namespace MiryadCore.Rest

inductive AccessPolicy where
  | publicAccess
  | ownerOnly
  | group (name : String)
  | adminOnly
  deriving DecidableEq, Repr

structure HookError where
  code : Option String
  message : String
  deriving DecidableEq, Repr

inductive PrincipalSource where
  | session (idToken : String)
  | apiToken (tokenId : ℤ)
  | bearer (jwt : String)
  | agent
  deriving DecidableEq, Repr

structure AuthPrincipal where
  subject : String
  email : Option String
  preferredUsername : Option String
  source : PrincipalSource
  deriving DecidableEq, Repr

/-- The column types that the mount distinguishes. -/
inductive ColumnType where
  | integer
  | bigInteger
  | string
  | text
  | other (name : String)
  deriving DecidableEq, Repr

/-- A value of a column, or its null. -/
inductive SeaValue where
  | int (value : Option ℤ)
  | bigInt (value : Option ℤ)
  | string (value : Option String)
  | other (kind : String) (value : Option String)
  deriving DecidableEq, Repr

/-- `Value::from(user.id)`. -/
def SeaValue.ofId (id : ℤ) : SeaValue :=
  .int (some id)

/-- `=` in SQL: numbers of any width compare, and a null equals nothing. -/
def SeaValue.sqlEq : SeaValue → SeaValue → Bool
  | .int (some left), .int (some right) => left = right
  | .int (some left), .bigInt (some right) => left = right
  | .bigInt (some left), .int (some right) => left = right
  | .bigInt (some left), .bigInt (some right) => left = right
  | .string (some left), .string (some right) => left = right
  | .other kind (some left), .other kind' (some right) =>
      kind = kind' && left = right
  | _, _ => false

/-- The values that a column of a type may hold, null included. -/
def ColumnType.admits : ColumnType → SeaValue → Bool
  | .integer, .int _ => true
  | .bigInteger, .bigInt _ => true
  | .string, .string _ => true
  | .text, .string _ => true
  | .other name, .other kind _ => name = kind
  | _, _ => false

/-- The null of a type. -/
def ColumnType.null : ColumnType → SeaValue
  | .integer => .int none
  | .bigInteger => .bigInt none
  | .string => .string none
  | .text => .string none
  | .other name => .other name none

theorem ColumnType.admits_null (type : ColumnType) :
    type.admits type.null = true := by
  cases type
  all_goals simp [admits, null]

inductive ActiveValue where
  | set (value : SeaValue)
  | unchanged (value : SeaValue)
  | notSet
  deriving DecidableEq, Repr

def ActiveValue.intoValue : ActiveValue → Option SeaValue
  | .set value => some value
  | .unchanged value => some value
  | .notSet => none

abbrev Model (Column : Type) : Type :=
  Column → SeaValue

abbrev ActiveModel (Column : Type) : Type :=
  Column → ActiveValue

/-- `DeriveEntityModel` marks every field of a model as `Unchanged`. -/
def Model.intoActiveModel {Column : Type} (model : Model Column) :
    ActiveModel Column :=
  fun column => .unchanged (model column)

/-- The columns of a table, with its unique indexes.  There is one primary
key, an `i32`. -/
structure Schema (Column : Type) where
  primaryKey : Column
  columnType : Column → ColumnType
  keyInteger : columnType primaryKey = .integer
  uniques : List (List Column)

/-- The business hooks.  They may return any active model. -/
structure Hooks (Column : Type) where
  beforeCreate : ActiveModel Column → AuthPrincipal →
    Except HookError (ActiveModel Column)
  beforeUpdate : ActiveModel Column → Model Column → AuthPrincipal →
    Except HookError (ActiveModel Column)
  beforeDelete : Model Column → AuthPrincipal → Except HookError Unit

/-- The hooks of an entity that declares none. -/
def Hooks.default {Column : Type} : Hooks Column where
  beforeCreate active _ := .ok active
  beforeUpdate active _ _ := .ok active
  beforeDelete _ _ := .ok ()

structure Resource (Column : Type) extends Schema Column where
  resourceName : String
  readPolicy : AccessPolicy
  writePolicy : AccessPolicy
  ownerColumn : Option Column
  filterColumn : Option Column
  labelColumn : Option Column
  hooks : Hooks Column

/-- The paths that a resource is mounted on, or the message of the refusal. -/
def resourceRouter {Column : Type} (resource : Resource Column) :
    Except String (List String) := do
  if (resource.readPolicy = .ownerOnly ∨ resource.writePolicy = .ownerOnly) ∧
      resource.ownerColumn.isNone then
    throw ("`" ++ resource.resourceName ++ "` declares `AccessPolicy::OwnerOnly` with `owner_column` None — invalid MiryadResource declaration, refusing to mount its router")
  if let some column := resource.filterColumn then
    if resource.columnType column ≠ .string ∧
        resource.columnType column ≠ .text then
      throw ("`" ++ resource.resourceName ++ "` declares `filter_column` on a non-textual column — `filter` is reserved for text columns, refusing to mount its router")
  if let some column := resource.ownerColumn then
    if resource.columnType column ≠ .integer then
      throw ("`" ++ resource.resourceName ++ "` declares `owner_column` on a non-`i32` column — `owner_column` must be `i32`, refusing to mount its router")
  return ["/api/v1/" ++ resource.resourceName,
    "/api/v1/" ++ resource.resourceName ++ "/\x7bid\x7d"]

/-- A resource that is mounted. -/
structure Mounted (Column : Type) extends Resource Column where
  mounts : (resourceRouter toResource).isOk = true

variable {Column : Type}

theorem resourceRouter_ok {resource : Resource Column}
    (mounts : (resourceRouter resource).isOk = true) :
    (resource.readPolicy = .ownerOnly ∨ resource.writePolicy = .ownerOnly →
      resource.ownerColumn.isSome = true) ∧
    ∀ column, resource.ownerColumn = some column →
      resource.columnType column = .integer := by
  rw [resourceRouter] at mounts
  split at mounts
  · cases mounts
  · rename_i owned
    refine ⟨?_, ?_⟩
    · intro ownerOnly
      by_contra absent
      exact owned ⟨ownerOnly, by simpa using absent⟩
    · intro column declared
      by_contra other
      simp only [declared, ne_eq, other, not_false_eq_true, if_true] at mounts
      split at mounts
      · split at mounts
        · cases mounts
        · cases mounts
      · cases mounts

theorem Mounted.owner_declared (mounted : Mounted Column)
    (ownerOnly : mounted.readPolicy = .ownerOnly) :
    ∃ column, mounted.ownerColumn = some column :=
  Option.isSome_iff_exists.mp
    ((resourceRouter_ok mounted.mounts).1 (Or.inl ownerOnly))

theorem Mounted.owner_integer (mounted : Mounted Column) {column : Column}
    (declared : mounted.ownerColumn = some column) :
    mounted.columnType column = .integer :=
  (resourceRouter_ok mounted.mounts).2 column declared

end MiryadCore.Rest
