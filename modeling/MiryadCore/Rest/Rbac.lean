import MiryadCore.Rest.Store

/-!
# Access rules

The functions of `rbac.rs`.  An admin always passes; `ownerOnly` needs the
record, unless no owner column is declared.
-/

namespace MiryadCore.Rest

open Users (Db UserRow isAdmin isMember)

variable {Column : Type}

/-- The verdict that needs no record. -/
def staticVerdict (policy : AccessPolicy) (user : UserRow) :
    Db (Option Bool) := do
  if policy = .publicAccess then
    return some true
  else if ← isAdmin user.id then
    return some true
  else
    match policy with
    | .publicAccess => return some true
    | .adminOnly => return some false
    | .group name =>
        let member ← isMember user.id name
        return some member
    | .ownerOnly => return none

def evaluate (policy : AccessPolicy) (ownerColumn : Option Column)
    (user : UserRow) (record : Model Column) : Db Bool := do
  match ← staticVerdict policy user with
  | some verdict => return verdict
  | none =>
      match ownerColumn with
      | none => return false
      | some column => return record column = .ofId user.id

def canRead (resource : Resource Column) (user : UserRow)
    (record : Model Column) : Db Bool :=
  evaluate resource.readPolicy resource.ownerColumn user record

def canWrite (resource : Resource Column) (user : UserRow)
    (record : Model Column) : Db Bool :=
  evaluate resource.writePolicy resource.ownerColumn user record

def canCreate (resource : Resource Column) (user : UserRow) : Db Bool := do
  match resource.writePolicy with
  | .publicAccess => return true
  | .ownerOnly =>
      if resource.ownerColumn.isSome then
        return true
      else
        isAdmin user.id
  | .adminOnly => isAdmin user.id
  | .group name =>
      if ← isAdmin user.id then
        return true
      else
        isMember user.id name

inductive ListAccess (Column : Type) where
  | unrestricted
  | filterByOwner (condition : Condition Column)
  | forbidden

def listAccess (resource : Resource Column) (user : UserRow) :
    Db (ListAccess Column) := do
  if resource.readPolicy = .publicAccess then
    return .unrestricted
  else if ← isAdmin user.id then
    return .unrestricted
  else
    match resource.readPolicy with
    | .publicAccess => return .unrestricted
    | .adminOnly => return .forbidden
    | .group name =>
        if ← isMember user.id name then
          return .unrestricted
        else
          return .forbidden
    | .ownerOnly =>
        match resource.ownerColumn with
        | some column => return .filterByOwner [(column, .ofId user.id)]
        | none => return .forbidden

end MiryadCore.Rest
