import MiryadCore.Json.Text
import MiryadCore.Rest.Core

/-!
# The database of an application

The tables of users, one table for each entity of the application, and the
journal of the writes of batch steps.  An entity comes with the names of its
columns and the JSON form of its rows, which the application derives.
-/

namespace MiryadCore.Lymaille

open Users (DbErr)

structure Entity where
  Column : Type
  decidable : DecidableEq Column
  fintype : Fintype Column
  resource : Rest.Resource Column
  columnName : Column → String
  toValue : Rest.Model Column → Except String Value
  fromValue : Value → Except String (Rest.Model Column)

attribute [instance] Entity.decidable Entity.fintype

/-- The schema of the table of an entity. -/
abbrev Entity.schema (entity : Entity) : Rest.Schema entity.Column :=
  entity.resource.toSchema

/-- The run and the step whose writes are journaled. -/
structure WriteScope where
  runKey : String
  stepKey : String
  deriving DecidableEq, Repr

/-- The primary key is the scope with the operation key. -/
structure JournalRow where
  scope : WriteScope
  opKey : String
  result : Value
  deriving DecidableEq

variable {ι : Type}

@[ext]
structure Store (entities : ι → Entity) where
  users : Users.Session
  tables : (i : ι) → Rest.Table (entities i).schema
  journal : List JournalRow

/-- The conditions of a statement, with the defaults of every table. -/
structure Conditions (entities : ι → Entity) extends Users.Conditions where
  id : ℤ
  defaults : (i : ι) → Rest.Model (entities i).Column

variable {entities : ι → Entity}

def Conditions.at (conditions : Conditions entities) (i : ι) :
    Rest.Conditions (entities i).Column where
  toConditions := conditions.toConditions
  id := conditions.id
  defaults := conditions.defaults i

/-- The database as the routes of one entity see it. -/
def Store.part (store : Store entities) (i : ι) :
    Rest.Store (entities i).schema where
  users := store.users
  table := store.tables i

def Store.lookup (store : Store entities) (scope : WriteScope)
    (opKey : String) : Option Value :=
  (store.journal.find? fun row =>
    row.scope = scope ∧ row.opKey = opKey).map JournalRow.result

/-- `INSERT … ON CONFLICT DO NOTHING`. -/
def Store.insertResult (store : Store entities) (row : JournalRow) :
    Store entities :=
  if (store.lookup row.scope row.opKey).isSome then store
  else { store with journal := store.journal ++ [row] }

inductive Request (entities : ι → Entity) where
  | users (statement : Users.Statement)
  | resource (i : ι) (request : Rest.Request (entities i).Column)
  | rows (i : ι) (condition : Rest.Condition (entities i).Column)
  | selectResult (scope : WriteScope) (opKey : String)
  | insertResult (row : JournalRow)

@[reducible]
def Request.Reply : Request entities → Type
  | .users statement => statement.Reply
  | .resource _ request => request.Reply
  | .rows i _ => List (Rest.Model (entities i).Column)
  | .selectResult _ _ => Option Value
  | .insertResult _ => Unit

variable [DecidableEq ι]

def Store.put (store : Store entities) (i : ι)
    (part : Rest.Store (entities i).schema) : Store entities :=
  { store with
    users := part.users
    tables := Function.update store.tables i part.table }

/-- One request.  A request that fails changes nothing. -/
def exec : Script.Service (Request entities)
    (fun request => Except DbErr request.Reply) (Conditions entities)
    (Store entities) :=
  fun conditions store request =>
    match request with
    | .users statement =>
        let (answer, users) :=
          Users.exec .left conditions.toConditions store.users statement
        (answer, { store with users })
    | .resource i request =>
        let (answer, after) :=
          Rest.exec (conditions.at i) (store.part i) request
        (answer, store.put i after)
    | .rows i condition =>
        match conditions.fault with
        | some error => (.error error, store)
        | none => (.ok (((store.tables i).rows.filter fun row =>
            condition.holds row.values).map Rest.StoredRow.values), store)
    | .selectResult scope opKey =>
        match conditions.fault with
        | some error => (.error error, store)
        | none => (.ok (store.lookup scope opKey), store)
    | .insertResult row =>
        match conditions.fault with
        | some error => (.error error, store)
        | none => (.ok (), store.insertResult row)

/-- Code that asks the database of the application. -/
abbrev Code (entities : ι → Entity) (ε α : Type) : Type :=
  Query (Request entities) (fun request => Except DbErr request.Reply) ε α

def request {ε : Type} (translate : DbErr → ε) (asked : Request entities) :
    Code entities ε asked.Reply :=
  Query.askWith translate asked

/-- Code of the routes of an entity. -/
def ofRest {ε α : Type} (i : ι) (translate : Rest.RestError → ε)
    (query : Rest.Api (entities i).Column α) : Code entities ε α :=
  Query.lift (.resource i) (fun _ answer => answer) translate query

/-- Code on users. -/
def ofUsers {ε α : Type} (translate : DbErr → ε) (query : Users.Db α) :
    Code entities ε α :=
  Query.lift .users (fun _ answer => answer) translate query

section Runs

variable {env ε α : Type} {conditions : env → Conditions entities} {i : ι}
  (e : env) (store : Store entities)

theorem Store.part_put (part : Rest.Store (entities i).schema) :
    (store.put i part).part i = part := by
  simp [Store.part, Store.put]

theorem Store.put_put (part other : Rest.Store (entities i).schema) :
    (store.put i part).put i other = store.put i other := by
  simp [Store.put]

theorem Store.put_part : store.put i (store.part i) = store := by
  simp [Store.part, Store.put]

theorem run_ofRest (translate : Rest.RestError → ε)
    (query : Rest.Api (entities i).Column α) :
    (ofRest i translate query).run (fun e => exec (conditions e)) e store =
      ((query.run (fun e => Rest.exec ((conditions e).at i)) e
          (store.part i)).1.mapError translate,
        store.put i (query.run (fun e => Rest.exec ((conditions e).at i)) e
          (store.part i)).2) := by
  apply Query.run_lift (fun store : Store entities => store.part i)
    (fun (store : Store entities) part => store.put i part) (fun e : env => e)
  case part_put => exact fun store part => store.part_put part
  case put_put => exact fun store part other => store.put_put part other
  case put_part => exact fun store => store.put_part
  case answers => exact fun _ _ _ => ⟨rfl, rfl⟩

theorem run_ofUsers (translate : DbErr → ε) (query : Users.Db α) :
    (ofUsers translate query : Code entities ε α).run
        (fun e => exec (conditions e)) e store =
      ((query.run (fun e => Users.exec .left (conditions e).toConditions) e
          store.users).1.mapError translate,
        { store with users :=
          (query.run (fun e => Users.exec .left (conditions e).toConditions) e
            store.users).2 }) := by
  apply Query.run_lift Store.users (fun store users => { store with users })
    (fun e : env => e)
  case part_put => exact fun _ _ => rfl
  case put_put => exact fun _ _ _ => rfl
  case put_part => exact fun _ => rfl
  case answers => exact fun _ _ _ => ⟨rfl, rfl⟩

end Runs

end MiryadCore.Lymaille
