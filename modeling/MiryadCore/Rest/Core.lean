import MiryadCore.Rest.Rbac

/-!
# The operations of the generic routes

The functions of `query.rs` and of `rest/core.rs`.
-/

namespace MiryadCore.Rest

open Users (DbErr resolveUser)

variable {Column : Type}

def defaultPerPage : ℕ := 100

def maxPerPage : ℕ := 1000

/-- `u64::MAX / MAX_PER_PAGE`. -/
def maxPage : ℕ := (2 ^ 64 - 1) / maxPerPage

structure Pagination where
  page : ℕ
  perPage : ℕ
  deriving DecidableEq, Repr

/-- `Ord::clamp`. -/
def clamp (low high value : ℕ) : ℕ :=
  max low (min high value)

def Pagination.fromRaw (page perPage : Option ℕ) : Pagination where
  page := clamp 1 maxPage (page.getD 1)
  perPage := clamp 1 maxPerPage (perPage.getD defaultPerPage)

structure PagedResult (α : Type) where
  items : List α
  page : ℕ
  perPage : ℕ
  totalItems : ℕ
  totalPages : ℕ
  deriving DecidableEq

/-- The number of pages, as the paginator rounds it up. -/
def pagesNumber (items perPage : ℕ) : ℕ :=
  items / perPage + if items % perPage > 0 then 1 else 0

/-- The offset of a page, in the `u64` of the paginator. -/
def pageOffset (pagination : Pagination) : ℕ :=
  pagination.perPage * (pagination.page - 1) % 2 ^ 64

def markAllSet (active : ActiveModel Column) : ActiveModel Column :=
  fun column =>
    match (active column).intoValue with
    | some value => .set value
    | none => active column

/-- `?` on the result of a hook. -/
def ofHook {α : Type} : Except HookError α → Api Column α
  | .ok value => pure value
  | .error error => Query.fail (.application error)

/-- The query of a list, once its access is known. -/
def fetchList (resource : Resource Column) (condition : Condition Column)
    (page perPage : Option ℕ) (filter : Option String) :
    Api Column (PagedResult (Model Column)) := do
  let condition :=
    match resource.filterColumn, filter with
    | some column, some value => condition ++ [(column, .string (some value))]
    | _, _ => condition
  let pagination := Pagination.fromRaw page perPage
  let total ← request (.count condition)
  let items ← request
    (.page condition pagination.perPage (pageOffset pagination))
  return {
    items
    page := pagination.page
    perPage := pagination.perPage
    totalItems := total
    totalPages := pagesNumber total pagination.perPage }

def list (resource : Resource Column) (principal : AuthPrincipal)
    (page perPage : Option ℕ) (filter : Option String) :
    Api Column (PagedResult (Model Column)) := do
  let user ← ofUsers (resolveUser principal.subject principal.email)
  match ← ofUsers (listAccess resource user) with
  | .unrestricted => fetchList resource [] page perPage filter
  | .filterByOwner condition =>
      fetchList resource condition page perPage filter
  | .forbidden => Query.fail .forbidden

/-- The row of an operation on an id: it is read only when no verdict refuses
the caller without it, and `check` decides when no verdict accepts them. -/
def authorized (resource : Resource Column) (policy : AccessPolicy)
    (user : Users.UserRow) (id : ℤ) : Api Column (Model Column) := do
  match ← ofUsers (staticVerdict policy user) with
  | some false => Query.fail .forbidden
  | some true =>
      match ← request (.find id) with
      | none => Query.fail .notFound
      | some record => return record
  | none =>
      match ← request (.find id) with
      | none => Query.fail .notFound
      | some record =>
          if ← ofUsers (evaluate policy resource.ownerColumn user record) then
            return record
          else
            Query.fail .forbidden

def get (resource : Resource Column) (principal : AuthPrincipal) (id : ℤ) :
    Api Column (Model Column) := do
  let user ← ofUsers (resolveUser principal.subject principal.email)
  authorized resource resource.readPolicy user id

/-- The owner of the row is not for the body nor the hook to choose. -/
def setOwner [DecidableEq Column] (resource : Resource Column)
    (owner : Column → SeaValue) (active : ActiveModel Column) :
    ActiveModel Column :=
  match resource.ownerColumn with
  | some column => Function.update active column (.set (owner column))
  | none => active

variable [DecidableEq Column]

/-- The primary key is that of the database, whatever the hook answers. -/
def create (resource : Resource Column) (principal : AuthPrincipal)
    (body : Model Column) : Api Column (Model Column) := do
  let user ← ofUsers (resolveUser principal.subject principal.email)
  if ← ofUsers (canCreate resource user) then
    let active := markAllSet body.intoActiveModel
    let active ← ofHook (resource.hooks.beforeCreate active principal)
    let active := Function.update active resource.primaryKey .notSet
    let active := setOwner resource (fun _ => .ofId user.id) active
    request (.insert principal.subject active)
  else
    Query.fail .forbidden

/-- A row that has disappeared is not found. -/
def updateError : DbErr → RestError
  | .recordNotUpdated => .notFound
  | .recordNotFound _ => .notFound
  | other => .database other

def update (resource : Resource Column) (principal : AuthPrincipal) (id : ℤ)
    (body : Model Column) : Api Column (Model Column) := do
  let user ← ofUsers (resolveUser principal.subject principal.email)
  let existing ← authorized resource resource.writePolicy user id
  let active := markAllSet body.intoActiveModel
  let active ← ofHook (resource.hooks.beforeUpdate active existing principal)
  let active := Function.update active resource.primaryKey (.set (.ofId id))
  let active := setOwner resource existing active
  Query.askWith updateError (Request.update active)

def delete (resource : Resource Column) (principal : AuthPrincipal) (id : ℤ) :
    Api Column Unit := do
  let user ← ofUsers (resolveUser principal.subject principal.email)
  let existing ← authorized resource resource.writePolicy user id
  ofHook (resource.hooks.beforeDelete existing principal)
  let affected : ℕ ← request (.delete id)
  if affected = 0 then
    Query.fail .notFound
  else
    return ()

end MiryadCore.Rest
