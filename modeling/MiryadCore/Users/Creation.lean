import MiryadCore.Control.Lanes
import MiryadCore.Users.Membership

/-!
# Any number of calls that create the same users and groups

Each call has a connection of its own.  What it writes outside of a transaction
is committed at once.  Inside of one it is committed at the end, unless a
statement fails: every later statement of the transaction then fails as well.
An `INSERT` waits while another transaction has inserted a row with its key.
-/

namespace MiryadCore.Users.Creation

/-- What is `UNIQUE` in the tables of users and groups. -/
inductive Key where
  | subject (subject : String)
  | name (name : String)
  deriving DecidableEq

inductive Row where
  | user (user : UserRow)
  | group (group : GroupRow)
  deriving DecidableEq

namespace Row

def key : Row → Key
  | .user row => .subject row.subject
  | .group row => .name row.name

def id : Row → ℤ
  | .user row => row.id
  | .group row => row.id

end Row

def keyedRows (users : List UserRow) (groups : List GroupRow) : List Row :=
  users.map .user ++ groups.map .group

/-- The committed rows. -/
def stored (db : Database) : List Row :=
  keyedRows db.users db.groups

/-- The key of the row that a statement inserts. -/
def inserts : Statement → Option Key
  | .insertUser subject _ => some (.subject subject)
  | .insertGroup name => some (.name name)
  | _ => none

/-- The rows with a key in the reply to a statement. -/
def noted : (request : Statement) → request.Reply → List Row
  | .selectUser _, found => found.toList.map .user
  | .insertUser _ _, user => [.user user]
  | .selectGroup _, found => found.toList.map .group
  | .insertGroup _, group => [.group group]
  | _, _ => []

/-- Why a statement has failed. -/
inductive Failure where
  | fault (error : DbErr)
  /-- The database gives up a statement that waits for a row of another
  transaction, as to break a deadlock. -/
  | waiting (request : Statement) (error : DbErr)
  /-- A constraint or a sequence forbids the statement. -/
  | refused (inside : Bool) (request : Statement) (error : DbErr)
  /-- An earlier statement of the transaction has failed. -/
  | aborted
  deriving DecidableEq

/-- The row of another call has nothing to do with the failure. -/
def Failure.independent : Failure → Bool
  | .fault _ => true
  | .refused _ _ (.uniqueViolation _) => false
  | .refused _ _ _ => true
  | _ => false

/-- The row of another call is in the way, where the call does not go on with
that row. -/
def Failure.rival : Failure → Bool
  | .waiting _ _ => true
  | .refused true _ (.uniqueViolation _) => true
  | _ => false

structure Connection where
  pending : Option Pending
  aborted : Bool
  failures : List Failure
  /-- The rows with a key that the statements have returned. -/
  told : List Row
  deriving DecidableEq

namespace Connection

def fresh : Connection :=
  { pending := none, aborted := false, failures := [], told := [] }

/-- The rows that only the transaction sees. -/
def held (own : Connection) : List Row :=
  keyedRows (own.pending.getD .empty).users (own.pending.getD .empty).groups

/-- A failure aborts the transaction, whose rows are lost. -/
def fail (own : Connection) (request : Statement) (failure : Failure) :
    Connection :=
  let ended := request = .commit ∨ request = .rollback
  { own with
    pending := if ended then none else own.pending.map fun _ => .empty
    aborted := ¬ ended ∧ own.pending.isSome
    failures := own.failures ++ [failure] }

end Connection

def session (s : Database × Connection) : Session :=
  { db := s.1, pending := s.2.pending, log := [] }

/-- How the database takes a statement. -/
structure Moment where
  rival : Bool
  conditions : Conditions

def abortedTransaction : DbErr :=
  .other ("current transaction is aborted, " ++
    "commands ignored until end of transaction block")

/-- One statement of a call.  The side of a statement is noted in the log
alone, which is not kept here. -/
def exec : Script.Service Statement
    (fun statement => Except DbErr statement.Reply) Moment
    (Database × Connection) :=
  fun moment s request =>
    match moment.conditions.fault with
    | some error =>
        let failure :=
          if moment.rival then .waiting request error else .fault error
        (.error error, s.1, s.2.fail request failure)
    | none =>
        if s.2.aborted ∧ request ≠ .commit ∧ request ≠ .rollback then
          (.error abortedTransaction, s.1, s.2.fail request .aborted)
        else
          match (session s).perform .left moment.conditions request with
          | .error error =>
              (.error error, s.1, s.2.fail request
                (.refused s.2.pending.isSome request error))
          | .ok (reply, after) =>
              (.ok reply, after.db,
                { s.2 with
                  pending := after.pending
                  aborted := false
                  told := s.2.told ++ noted request reply })

/-- The transaction has inserted the row that the statement inserts. -/
def hasInserted (pending : Pending) : Statement → Bool
  | .insertUser subject _ =>
      pending.users.any fun user => user.subject = subject
  | .insertGroup name => pending.groups.any fun group => group.name = name
  | .insertMembership userId groupId =>
      pending.inserted.any fun row =>
        row.userId = userId ∧ row.groupId = groupId
  | _ => false

/-- The transaction has deleted the row that the statement deletes, or inserts
again. -/
def hasDeleted (db : Database) (pending : Pending) : Statement → Bool
  | .deleteMembership id => id ∈ pending.deleted
  | .insertMembership userId groupId =>
      db.memberships.any fun row =>
        row.id ∈ pending.deleted ∧ row.userId = userId ∧ row.groupId = groupId
  | _ => false

/-- Another transaction has inserted the row. -/
def rivals (others : List Connection) (request : Statement) : Bool :=
  others.any fun other => hasInserted (other.pending.getD .empty) request

/-- A statement waits for the end of a transaction, unless the database gives
it up. -/
def ready (db : Database) (others : List Connection) (conditions : Conditions)
    (request : Statement) : Option Moment :=
  let rival := rivals others request
  let waits := rival || others.any fun other =>
    hasDeleted db (other.pending.getD .empty) request
  if waits ∧ conditions.fault = none then none
  else some { rival, conditions }

inductive Call where
  | resolveUser (subject : String) (email : Option String)
  | ensureGroup (name : String)
  | syncGroupMemberships (userId : ℤ) (groups : List String)
  deriving DecidableEq

inductive Answer where
  | user (user : UserRow)
  | group (id : ℤ)
  | synced
  deriving DecidableEq

def program : Call → Db Answer
  | .resolveUser subject email =>
      resolveUser subject email >>= fun user => pure (.user user)
  | .ensureGroup name => ensureGroup name >>= fun id => pure (.group id)
  | .syncGroupMemberships userId groups =>
      syncGroupMemberships userId groups >>= fun _ => pure .synced

def course : Course Call Connection Statement
    (fun statement => Except DbErr statement.Reply) Conditions Moment Database
    (Except DbErr Answer) where
  program := program
  fresh := .fresh
  exec := exec
  ready := ready

abbrev Road : Type :=
  Lanes Call Connection Statement
    (fun statement => Except DbErr statement.Reply) Database
    (Except DbErr Answer)

/-- The keys of a call. -/
def Call.keys : Call → List Key
  | .resolveUser subject _ => [.subject subject]
  | .ensureGroup name => [.name name]
  | .syncGroupMemberships _ groups => (wantedNames groups).map .name

/-- The call has this id for the key: it returns it, or it uses it in its
transaction. -/
def Gives (told : List Row) : Call → Answer → Key → ℤ → Prop
  | .resolveUser subject _, .user user, key, id =>
      key = .subject subject ∧ id = user.id
  | .ensureGroup name, .group group, key, id => key = .name name ∧ id = group
  | .syncGroupMemberships _ _, .synced, key, id =>
      ∃ row ∈ told, row.key = key ∧ row.id = id
  | _, _, _, _ => False

/-- No call has failed because another one inserted the same row first, all
calls have the same id for a key, and there is one row with the key. -/
structure Converged (road : Road) : Prop where
  calm : ∀ lane ∈ road.lanes, ∀ error, lane.script = .done (.error error) →
    (∃ failure ∈ lane.own.failures, failure.independent = true) ∧
      ∀ failure ∈ lane.own.failures, failure.rival = false
  given : ∀ lane ∈ road.lanes, ∀ answer, lane.script = .done (.ok answer) →
    ∀ key ∈ lane.call.keys, ∃ id, Gives lane.own.told lane.call answer key id
  alone : ∀ lane ∈ road.lanes, ∀ answer, lane.script = .done (.ok answer) →
    ∀ key id, Gives lane.own.told lane.call answer key id →
      ((stored road.shared).filter fun row => row.key = key).map Row.id = [id]
  agree : ∀ lane ∈ road.lanes, ∀ answer, lane.script = .done (.ok answer) →
    ∀ other ∈ road.lanes, ∀ answer', other.script = .done (.ok answer') →
      ∀ key id id', Gives lane.own.told lane.call answer key id →
        Gives other.own.told other.call answer' key id' → id = id'

/-- The database gives up no statement that waits for a row, and no
transaction inserts a row whose key has been committed. -/
def spares (road : Road) : Move Call Conditions → Bool
  | .start _ => true
  | .step index conditions =>
      match road.lanes[index]? with
      | some { own, script := .call request _, .. } =>
          if conditions.fault = none then
            own.pending = none ∨ ∀ key ∈ inserts request,
              ∀ row ∈ stored road.shared, row.key ≠ key
          else ¬ rivals (Course.others road index) request
      | _ => true

abbrev Spared (db : Database) (moves : List (Move Call Conditions)) : Prop :=
  course.Always (fun road move => spares road move = true)
    { shared := db, lanes := [] } moves

end MiryadCore.Users.Creation
