import MiryadCore.Users.Database

/-!
# Users, groups and the reconciliation of memberships from a claim

The functions of `user.rs`, `group.rs` and `membership.rs`, as scripts of
statements.
-/

namespace MiryadCore.Users

def adminGroupName : String := "admin"

/-- Get-or-create by subject. -/
def resolveUser (subject : String) (email : Option String) : Db UserRow := do
  match ← statement (.selectUser subject) with
  | some existing => return existing
  | none =>
      match ← (statement (.insertUser subject email)).attempt with
      | .ok model => return model
      | .error insertErr =>
          match ← statement (.selectUser subject) with
          | some user => return user
          | none => Query.fail insertErr

/-- Get-or-create by name. -/
def ensureGroup (name : String) : Db ℤ := do
  match ← statement (.selectGroup name) with
  | some existing => return existing.id
  | none =>
      match ← (statement (.insertGroup name)).attempt with
      | .ok model => return model.id
      | .error insertErr =>
          match ← statement (.selectGroup name) with
          | some group => return group.id
          | none => Query.fail insertErr

def isMember (userId : ℤ) (groupName : String) : Db Bool := do
  match ← statement (.selectGroup groupName) with
  | none => return false
  | some group =>
      let membership ← statement (.selectMembership userId group.id)
      return membership.isSome

def isAdmin (userId : ℤ) : Db Bool :=
  isMember userId adminGroupName

/-- The Unicode property `White_Space`, as in `char::is_whitespace`. -/
def isWhitespace (char : Char) : Bool :=
  let code := char.toNat
  (9 ≤ code && code ≤ 13) || code == 0x20 || code == 0x85 || code == 0xA0 ||
    code == 0x1680 || (0x2000 ≤ code && code ≤ 0x200A) || code == 0x2028 ||
    code == 0x2029 || code == 0x202F || code == 0x205F || code == 0x3000

/-- `str::trim`. -/
def trim (text : List Char) : List Char :=
  ((text.dropWhile isWhitespace).reverse.dropWhile isWhitespace).reverse

def isBlank (name : String) : Bool :=
  (trim name.toList).isEmpty

/-- The names of a claim that count. -/
def wantedNames (groups : List String) : List String :=
  groups.filter fun name => ¬ isBlank name

/-- `ensure_group` for each wanted name, in order and with repetitions. -/
def ensureGroups : List String → Db (List ℤ)
  | [] => return []
  | name :: names => do
      let id ← ensureGroup name
      let ids ← ensureGroups names
      return id :: ids

def deleteStale : List MembershipRow → Db Unit
  | [] => return ()
  | membership :: stale => do
      statement (.deleteMembership membership.id)
      deleteStale stale

def insertMissing (userId : ℤ) : List ℤ → Db Unit
  | [] => return ()
  | groupId :: missing => do
      statement (.insertMembership userId groupId)
      insertMissing userId missing

def staleRows (current : List MembershipRow) (wantedGroupIds : List ℤ) :
    List MembershipRow :=
  current.filter fun membership => membership.groupId ∉ wantedGroupIds

def missingIds (current : List MembershipRow) (wantedGroupIds : List ℤ) :
    List ℤ :=
  wantedGroupIds.filter fun groupId =>
    groupId ∉ current.map MembershipRow.groupId

/-- The body of the transaction, with the counts of additions and removals. -/
def reconcileGroupMemberships (userId : ℤ) (names : List String) :
    Db (ℕ × ℕ) := do
  let wantedGroupIds ← ensureGroups names
  let current ← statement (.selectMemberships userId)
  deleteStale (staleRows current wantedGroupIds)
  insertMissing userId (missingIds current wantedGroupIds)
  return ((missingIds current wantedGroupIds).length,
    (staleRows current wantedGroupIds).length)

def syncGroupMemberships (userId : ℤ) (groups : List String) : Db Unit := do
  statement .begin
  match ← (reconcileGroupMemberships userId (wantedNames groups)).attempt with
  | .ok _ => statement .commit
  | .error err => do
      statement .rollback
      Query.fail err

end MiryadCore.Users
