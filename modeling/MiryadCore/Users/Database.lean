import MiryadCore.Control.Script
import Mathlib.Algebra.Group.Int.Defs
import Mathlib.Algebra.Group.Nat.Defs
import Mathlib.Data.Finset.Basic
import Mathlib.Data.Int.Order.Basic
import Mathlib.Order.Lattice

/-!
# The tables of users and groups, and the statements on them

A statement runs under conditions that the database alone decides: whether it
fails, the time, and how far the sequence of an `id` column advances.  Inside
a transaction it sees the committed rows, less those that the transaction has
deleted, and those that the transaction has inserted.
-/

namespace MiryadCore.Users

structure UserRow where
  id : ℤ
  subject : String
  email : Option String
  displayName : Option String
  createdAt : ℤ
  deriving DecidableEq, Repr

structure GroupRow where
  id : ℤ
  name : String
  createdAt : ℤ
  deriving DecidableEq, Repr

structure MembershipRow where
  id : ℤ
  userId : ℤ
  groupId : ℤ
  deriving DecidableEq, Repr

/-- The committed rows, with the sequences of the `id` columns.  A sequence is
outside of any transaction. -/
structure Database where
  users : List UserRow
  groups : List GroupRow
  memberships : List MembershipRow
  nextUser : ℤ
  nextGroup : ℤ
  nextMembership : ℤ
  deriving DecidableEq

/-- What a transaction has done and not yet committed. -/
structure Pending where
  users : List UserRow
  groups : List GroupRow
  deleted : List ℤ
  inserted : List MembershipRow
  deriving DecidableEq

inductive DbErr where
  | uniqueViolation (constraint : String)
  | foreignKeyViolation (constraint : String)
  | recordNotUpdated
  | recordNotFound (message : String)
  | other (message : String)
  deriving DecidableEq, Repr

inductive Statement where
  | begin
  | commit
  | rollback
  | selectUser (subject : String)
  | insertUser (subject : String) (email : Option String)
  | selectGroup (name : String)
  | insertGroup (name : String)
  | selectMemberships (userId : ℤ)
  | selectMembership (userId groupId : ℤ)
  | deleteMembership (id : ℤ)
  | insertMembership (userId groupId : ℤ)
  deriving DecidableEq

/-- What a successful statement returns. -/
@[reducible]
def Statement.Reply : Statement → Type
  | .begin => Unit
  | .commit => Unit
  | .rollback => Unit
  | .selectUser _ => Option UserRow
  | .insertUser _ _ => UserRow
  | .selectGroup _ => Option GroupRow
  | .insertGroup _ => GroupRow
  | .selectMemberships _ => List MembershipRow
  | .selectMembership _ _ => Option MembershipRow
  | .deleteMembership _ => Unit
  | .insertMembership _ _ => Unit

/-- The conditions of one statement. -/
structure Conditions where
  fault : Option DbErr
  now : ℤ
  gap : ℕ

/-- The caller of a statement. -/
inductive Side where
  | left
  | right
  deriving DecidableEq, Repr

def Side.other : Side → Side
  | .left => .right
  | .right => .left

/-- What the log keeps: the moments at which a caller read the memberships or
committed, with the rows and the transaction of the commit. -/
inductive Event where
  | selected (side : Side)
  | committed (side : Side) (before : Database) (pending : Pending)
  deriving DecidableEq

def Event.side : Event → Side
  | .selected side => side
  | .committed side _ _ => side

/-- A connection to the database: the rows, the transaction that is open, and
the log. -/
structure Session where
  db : Database
  pending : Option Pending
  log : List Event

def Pending.empty : Pending :=
  { users := [], groups := [], deleted := [], inserted := [] }

/-- The rows that a transaction sees. -/
def Database.overlay (db : Database) (pending : Pending) : Database :=
  { db with
    users := db.users ++ pending.users
    groups := db.groups ++ pending.groups
    memberships :=
      db.memberships.filter (fun row => row.id ∉ pending.deleted) ++
        pending.inserted }

/-- A connection on which nothing has been done. -/
def Session.start (db : Database) : Session :=
  { db, pending := none, log := [] }

def Session.pendingOrEmpty (session : Session) : Pending :=
  session.pending.getD .empty

def Session.view (session : Session) : Database :=
  session.db.overlay session.pendingOrEmpty

/-- A change made outside of a transaction is committed at once. -/
def Session.write (session : Session) (pending : Pending) : Session :=
  match session.pending with
  | some _ => { session with pending := some pending }
  | none => { session with db := session.db.overlay pending }

/-- The `i32` columns are integers here; only a sequence meets their limit. -/
def maxId : ℤ := 2 ^ 31 - 1

def nextval (next : ℤ) (gap : ℕ) : Except DbErr ℤ :=
  if next + gap > maxId then
    .error (.other "nextval: reached maximum value of sequence")
  else
    .ok (next + gap)

/-- The `INSERT` of a user, whose subject is `UNIQUE`. -/
def Session.insertUser (conditions : Conditions) (session : Session)
    (subject : String) (email : Option String) :
    Except DbErr (UserRow × Session) := do
  let id ← nextval session.db.nextUser conditions.gap
  if session.view.users.any fun user => user.subject = subject then
    throw (.uniqueViolation "miryad_users_subject_key")
  let user : UserRow :=
    { id, subject, email, displayName := none, createdAt := conditions.now }
  let pending := session.pendingOrEmpty
  let session := { session with
    db := { session.db with nextUser := id + 1 } }
  return (user, session.write { pending with users := pending.users ++ [user] })

/-- The `INSERT` of a group, whose name is `UNIQUE`. -/
def Session.insertGroup (conditions : Conditions) (session : Session)
    (name : String) : Except DbErr (GroupRow × Session) := do
  let id ← nextval session.db.nextGroup conditions.gap
  if session.view.groups.any fun group => group.name = name then
    throw (.uniqueViolation "miryad_groups_name_key")
  let group : GroupRow := { id, name, createdAt := conditions.now }
  let pending := session.pendingOrEmpty
  let session := { session with
    db := { session.db with nextGroup := id + 1 } }
  return (group, session.write
    { pending with groups := pending.groups ++ [group] })

/-- The `INSERT` of a membership, `ON CONFLICT DO NOTHING` on its pair. -/
def Session.insertMembership (conditions : Conditions) (session : Session)
    (userId groupId : ℤ) : Except DbErr Session := do
  let id ← nextval session.db.nextMembership conditions.gap
  if session.view.memberships.any fun row =>
      row.userId = userId ∧ row.groupId = groupId then
    return session
  if ¬ session.view.users.any fun user => user.id = userId then
    throw (.foreignKeyViolation "fk_group_memberships_user_id")
  if ¬ session.view.groups.any fun group => group.id = groupId then
    throw (.foreignKeyViolation "fk_group_memberships_group_id")
  let pending := session.pendingOrEmpty
  let session := { session with
    db := { session.db with nextMembership := id + 1 } }
  return session.write
    { pending with inserted := pending.inserted ++ [⟨id, userId, groupId⟩] }

def Session.deleteMembership (session : Session) (id : ℤ) : Session :=
  let pending := session.pendingOrEmpty
  session.write
    { pending with
      deleted := id :: pending.deleted
      inserted := pending.inserted.filter fun row => row.id ≠ id }

def Session.record (session : Session) (event : Event) : Session :=
  { session with log := session.log ++ [event] }

/-- The effect of a statement that the database accepts. -/
def Session.perform (side : Side) (conditions : Conditions)
    (session : Session) :
    (statement : Statement) → Except DbErr (statement.Reply × Session)
  | .begin => .ok ((), { session with pending := some .empty })
  | .commit => .ok ((),
      ({ session with db := session.view, pending := none } : Session).record
        (.committed side session.db session.pendingOrEmpty))
  | .rollback => .ok ((), { session with pending := none })
  | .selectUser subject => .ok
      (session.view.users.find? fun user => user.subject = subject, session)
  | .insertUser subject email => session.insertUser conditions subject email
  | .selectGroup name => .ok
      (session.view.groups.find? fun group => group.name = name, session)
  | .insertGroup name => session.insertGroup conditions name
  | .selectMemberships userId => .ok
      (session.view.memberships.filter fun row => row.userId = userId,
        session.record (.selected side))
  | .selectMembership userId groupId => .ok
      (session.view.memberships.find? fun row =>
        row.userId = userId ∧ row.groupId = groupId, session)
  | .deleteMembership id => .ok ((), session.deleteMembership id)
  | .insertMembership userId groupId =>
      (session.insertMembership conditions userId groupId).map fun session =>
        ((), session)

/-- One statement of a caller.  A statement that fails changes nothing. -/
def exec (side : Side) : Script.Service Statement
    (fun statement => Except DbErr statement.Reply) Conditions Session :=
  fun conditions session statement =>
    match conditions.fault with
    | some error => (.error error, session)
    | none =>
        match session.perform side conditions statement with
        | .error error => (.error error, session)
        | .ok (reply, after) => (.ok reply, after)

section

variable {side : Side} {conditions : Conditions} {s after : Session}

theorem exec_error {request : Statement} {error : DbErr}
    (refused : exec side conditions s request = (.error error, after)) :
    after = s := by
  rw [exec] at refused
  cases fault : conditions.fault with
  | some _ =>
      simp only [fault, Prod.mk.injEq] at refused
      exact refused.2.symm
  | none =>
      simp only [fault] at refused
      cases result : s.perform side conditions request with
      | error _ =>
          simp only [result, Prod.mk.injEq] at refused
          exact refused.2.symm
      | ok _ => simp [result] at refused

theorem exec_ok {request : Statement} {reply : request.Reply}
    (replied : exec side conditions s request = (.ok reply, after)) :
    s.perform side conditions request = .ok (reply, after) := by
  rw [exec] at replied
  cases fault : conditions.fault with
  | some _ => simp [fault] at replied
  | none =>
      simp only [fault] at replied
      cases result : s.perform side conditions request with
      | error _ => simp [result] at replied
      | ok answer =>
          simp only [result, Prod.mk.injEq, Except.ok.injEq] at replied
          rw [← replied.1, ← replied.2]

end

/-- Code that asks the database for statements. -/
abbrev Db (α : Type) : Type :=
  Query Statement (fun statement => Except DbErr statement.Reply) DbErr α

def statement (request : Statement) : Db request.Reply :=
  Query.ask request

/-- The constraints of the schema. -/
structure Database.Consistent (db : Database) : Prop where
  userSubjects : (db.users.map UserRow.subject).Nodup
  userIds : (db.users.map UserRow.id).Nodup
  userSequence : ∀ user ∈ db.users, user.id < db.nextUser
  userRange : ∀ user ∈ db.users, -2 ^ 31 ≤ user.id ∧ user.id ≤ maxId
  groupNames : (db.groups.map GroupRow.name).Nodup
  groupIds : (db.groups.map GroupRow.id).Nodup
  groupSequence : ∀ group ∈ db.groups, group.id < db.nextGroup
  pairs : (db.memberships.map fun row => (row.userId, row.groupId)).Nodup
  membershipIds : (db.memberships.map MembershipRow.id).Nodup
  membershipSequence : ∀ row ∈ db.memberships, row.id < db.nextMembership
  userKeys : ∀ row ∈ db.memberships,
    ∃ user ∈ db.users, user.id = row.userId
  groupKeys : ∀ row ∈ db.memberships,
    ∃ group ∈ db.groups, group.id = row.groupId

end MiryadCore.Users
