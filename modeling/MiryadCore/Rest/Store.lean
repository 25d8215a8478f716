import MiryadCore.Rest.Table
import MiryadCore.Users.Membership

/-!
# Requests to the database

The database holds the tables of users and the table of one resource.  A
request on users is a statement of theirs; the others are on the resource.
-/

namespace MiryadCore.Rest

open Users (DbErr)

variable {Column : Type} [DecidableEq Column] [Fintype Column]

inductive RestError where
  | notFound
  | forbidden
  | database (cause : DbErr)
  | application (cause : HookError)
  | internal (cause : String)
  | invalidInput (cause : String)
  | conflict
  deriving DecidableEq, Repr

@[ext]
structure Store (schema : Schema Column) where
  users : Users.Session
  table : Table schema

inductive Request (Column : Type) where
  | users (statement : Users.Statement)
  | find (id : ℤ)
  | count (condition : Condition Column)
  | page (condition : Condition Column) (limit offset : ℕ)
  | insert (creator : String) (active : ActiveModel Column)
  | update (active : ActiveModel Column)
  | delete (id : ℤ)

/-- What a successful request returns. -/
@[reducible]
def Request.Reply : Request Column → Type
  | .users statement => statement.Reply
  | .find _ => Option (Model Column)
  | .count _ => ℕ
  | .page _ _ _ => List (Model Column)
  | .insert _ _ => Model Column
  | .update _ => Model Column
  | .delete _ => ℕ

variable {schema : Schema Column}

/-- The effect of a request on the table, when the database accepts it. -/
def Store.perform (conditions : Conditions Column) (store : Store schema) :
    (request : Request Column) → Except DbErr (request.Reply × Store schema)
  | .users statement =>
      (store.users.perform .left conditions.toConditions statement).map
        fun (reply, users) => (reply, { store with users })
  | .find id => .ok ((store.table.find id).map StoredRow.values, store)
  | .count condition => .ok ((store.table.select condition).length, store)
  | .page condition limit offset => .ok
      ((((store.table.select condition).drop offset).take limit).map
        StoredRow.values, store)
  | .insert creator active =>
      (store.table.insert conditions creator active).map fun (row, table) =>
        (row.values, { store with table })
  | .update active =>
      (store.table.update active).map fun (row, table) =>
        (row.values, { store with table })
  | .delete id =>
      let (affected, table) := store.table.delete id
      .ok (affected, { store with table })

/-- One request.  A request that fails changes nothing. -/
def exec : Script.Service (Request Column)
    (fun request => Except DbErr request.Reply) (Conditions Column)
    (Store schema) :=
  fun conditions store request =>
    match conditions.fault with
    | some error => (.error error, store)
    | none =>
        match store.perform conditions request with
        | .error error => (.error error, store)
        | .ok (reply, after) => (.ok reply, after)

/-- Code of the routes, which asks the database for requests. -/
abbrev Api (Column α : Type) : Type :=
  Query (Request Column) (fun request => Except DbErr request.Reply) RestError
    α

def request (asked : Request Column) : Api Column asked.Reply :=
  Query.askWith .database asked

/-- The `?` on a function of users. -/
def ofUsers {α : Type} (query : Users.Db α) : Api Column α :=
  Query.lift .users (fun _ answer => answer) .database query

end MiryadCore.Rest
