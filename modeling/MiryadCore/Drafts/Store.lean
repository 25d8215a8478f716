import Mathlib.Data.List.AList
import MiryadCore.Control.Script
import MiryadCore.Interactive.Identity

/-!
# The tables of the drafts

A row of the toolsets, of the catalog or private, or of the context types has
an active version and a draft.  The statements of the calls on them run one at
a time; what a transaction has written is not seen by the others before its
commit, and its rows wait for its end.
-/

namespace MiryadCore.Drafts

open Interactive

/-- `lymaille::ToolsetsError`; another error is known by its text. -/
inductive ToolsetsError where
  | store (text : String)
  | invalidContextType (name reason : String)
  | other (text : String)
  deriving DecidableEq, Repr

/-- What is checked of a `lymaille::Skill`. -/
structure Skill where
  name : String
  description : String
  body : String
  deriving DecidableEq, Repr

/-- The parts of the library `lymaille` that the calls use. -/
structure Lymaille where
  Toolset : Type
  name : Toolset → String
  version : Toolset → String
  source : Toolset → String
  skills : Toolset → List Skill
  /-- `serde_json::to_value` -/
  toValue : Toolset → Option Value
  /-- `serde_json::from_value` -/
  fromValue : Value → Option Toolset
  extractContract : String → Except ToolsetsError Unit
  checkSize : Skill → ℕ → Except ToolsetsError Unit
  checkTemplate : String → String → Except ToolsetsError Unit
  display : ToolsetsError → String
  version_toValue : ∀ {toolset value}, toValue toolset = some value →
    (value.get? "version").bind Value.asString = some (version toolset)
  version_ne_empty : ∀ toolset, version toolset ≠ ""

/-- The version that a stored form carries. -/
def versionOf (value : Value) : Option String :=
  (value.get? "version").bind Value.asString

inductive TableName where
  | catalogToolsets
  | toolsets
  | catalogContextTypes
  deriving DecidableEq, Repr

/-- The table and the unique key of a row. -/
inductive Key where
  | catalog (toolsetId : String)
  | owned (ownerId : ℤ) (toolsetId : String)
  | type (name : String)
  deriving DecidableEq, Repr

def Key.table : Key → TableName
  | .catalog _ => .catalogToolsets
  | .owned _ _ => .toolsets
  | .type _ => .catalogContextTypes

/-- A row; `allowed_agents` is a column of the context types only. -/
structure Row where
  id : ℤ
  version : String
  allowedAgents : Value
  active : Option Value
  draft : Option Value
  deriving DecidableEq, Repr

/-- A row as a transaction has written it. -/
structure Write where
  tx : ℕ
  key : Key
  row : Row
  deriving DecidableEq, Repr

/-- The rows that are committed, by their unique keys, and what the open
transactions have written, the latest first. -/
structure Database where
  rows : AList fun _ : Key => Row
  writes : List Write
  transactions : ℕ

namespace Database

def empty : Database :=
  { rows := ∅, writes := [], transactions := 0 }

/-- The row that a transaction sees. -/
def seen (db : Database) (tx : ℕ) (key : Key) : Option Row :=
  ((db.writes.find? fun write => write.tx = tx ∧ write.key = key).map
    Write.row).or (db.rows.lookup key)

/-- Another transaction has written the row. -/
def locked (db : Database) (tx : Option ℕ) (key : Key) : Bool :=
  db.writes.any fun write => write.key = key && some write.tx ≠ tx

def write (db : Database) (tx : ℕ) (key : Key) (row : Row) : Database :=
  { db with writes := { tx, key, row } :: db.writes }

def modify (db : Database) (key : Key) (change : Row → Row) : Database :=
  match db.rows.lookup key with
  | some row => { db with rows := db.rows.insert key (change row) }
  | none => db

def rollback (db : Database) (tx : ℕ) : Database :=
  { db with writes := db.writes.filter fun write => write.tx ≠ tx }

def commit (db : Database) (tx : ℕ) : Database :=
  { db.rollback tx with
    rows := (db.writes.filter fun write => write.tx = tx).foldr
      (fun write rows => rows.insert write.key write.row) db.rows }

/-- The name and the row of a context type by its primary key. -/
def findType (db : Database) (id : ℤ) : Option (String × Row) :=
  db.rows.entries.findSome? fun entry =>
    match entry with
    | ⟨.type name, row⟩ => if row.id = id then some (name, row) else none
    | _ => none

end Database

inductive Statement where
  | account (subject : String)
  | resolveUser (subject : String)
  | admin (userId : ℤ)
  | probeActive (key : Key)
  | probeRow (key : Key)
  | readRow (key : Key)
  | setDraft (key : Key) (draft : Value)
  | upsertDraft (key : Key) (version : String) (draft : Value)
  | clearDraft (key : Key)
  | delete (key : Key)
  | begin
  | promote (tx : ℕ) (key : Key) (draft : Value) (version : String)
  | clearPromoted (tx : ℕ) (key : Key)
  | commit (tx : ℕ)
  | rollback (tx : ℕ)
  | upsertType (name version : String) (active : Value)
  | upsertTypeDraft (name version : String) (draft : Value)
  | findType (id : ℤ)
  | insertType (name : String) (row : Row)
  | updateType (id : ℤ) (name : String) (row : Row)

namespace Statement

/-- What a statement that succeeds returns. -/
@[reducible]
def Reply : Statement → Type
  | .account _ => Option ℤ
  | .resolveUser _ => ℤ
  | .admin _ => Bool
  | .probeActive _ => Option Value
  | .probeRow _ => Option (Option Value × Option Value)
  | .readRow _ => Option (Option Value × String)
  | .setDraft _ _ => Unit
  | .upsertDraft _ _ _ => Unit
  | .clearDraft _ => Unit
  | .delete _ => Unit
  | .begin => ℕ
  | .promote _ _ _ _ => ℕ
  | .clearPromoted _ _ => ℕ
  | .commit _ => Unit
  | .rollback _ => Unit
  | .upsertType _ _ _ => Unit
  | .upsertTypeDraft _ _ _ => Unit
  | .findType _ => Option (String × Row)
  | .insertType _ _ => Unit
  | .updateType _ _ _ => Unit

end Statement

/-- What the database decides: whether a statement fails, the accounts and
their rights, and the primary key of a new row. -/
structure Conditions where
  fault : Option String := none
  account : Option ℤ := some 1
  admin : Bool := false
  id : ℤ := 1

namespace Database

/-- A new row, whose primary key no row of the table has. -/
def insert (db : Database) (key : Key) (row : Row) : Except String Database :=
  if db.rows.entries.any fun entry =>
      entry.1.table = key.table && entry.2.id = row.id then
    .error "duplicate primary key"
  else .ok { db with rows := db.rows.insert key row }

/-- `INSERT … ON CONFLICT`: the row is new, or the one there changes. -/
def upsert (db : Database) (key : Key) (fresh : Row) (change : Row → Row) :
    Except String (Unit × Database) :=
  match db.rows.lookup key with
  | some row =>
      .ok ((), { db with rows := db.rows.insert key (change row) })
  | none => (db.insert key fresh).map fun after => ((), after)

theorem upsert_cases {db after : Database} {key : Key} {fresh : Row}
    {change : Row → Row} {reply : Unit}
    (upserts : db.upsert key fresh change = .ok (reply, after)) :
    (db.rows.lookup key = none ∧
      after = { db with rows := db.rows.insert key fresh }) ∨
    ∃ row, db.rows.lookup key = some row ∧
      after = { db with rows := db.rows.insert key (change row) } := by
  unfold upsert at upserts
  cases found : db.rows.lookup key with
  | none =>
      rw [found] at upserts
      simp only [insert] at upserts
      split at upserts
      next => cases upserts
      next =>
        cases upserts
        exact Or.inl ⟨rfl, rfl⟩
  | some row =>
      rw [found] at upserts
      cases upserts
      exact Or.inr ⟨row, rfl, rfl⟩

/-- The effect of a statement that the database accepts. -/
def perform (conditions : Conditions) (db : Database) :
    (statement : Statement) → Except String (statement.Reply × Database)
  | .account _ => .ok (conditions.account, db)
  | .resolveUser _ => .ok (conditions.account.getD 1, db)
  | .admin _ => .ok (conditions.admin, db)
  | .probeActive key => .ok ((db.rows.lookup key).bind Row.active, db)
  | .probeRow key =>
      .ok ((db.rows.lookup key).map fun row => (row.active, row.draft), db)
  | .readRow key =>
      .ok ((db.rows.lookup key).map fun row => (row.draft, row.version), db)
  | .setDraft key draft =>
      .ok ((), db.modify key fun row => { row with draft := some draft })
  | .upsertDraft key version draft =>
      db.upsert key
        { id := conditions.id, version, allowedAgents := .array []
          active := none, draft := some draft }
        fun row => { row with version, draft := some draft }
  | .clearDraft key => .ok ((), db.modify key fun row => { row with draft := none })
  | .delete key => .ok ((), { db with rows := db.rows.erase key })
  | .begin =>
      .ok (db.transactions, { db with transactions := db.transactions + 1 })
  | .promote tx key draft version =>
      match db.seen tx key with
      | some row =>
          if row.draft = some draft then
            .ok (1, db.write tx key { row with active := some draft, version })
          else .ok (0, db)
      | none => .ok (0, db)
  | .clearPromoted tx key =>
      match db.seen tx key with
      | some row =>
          if row.draft.isSome then
            .ok (1, db.write tx key { row with draft := none })
          else .ok (0, db)
      | none => .ok (0, db)
  | .commit tx => .ok ((), db.commit tx)
  | .rollback tx => .ok ((), db.rollback tx)
  | .upsertType name version active =>
      db.upsert (.type name)
        { id := conditions.id, version, allowedAgents := .array []
          active := some active, draft := none }
        fun row => { row with active := some active, version }
  | .upsertTypeDraft name version draft =>
      db.upsert (.type name)
        { id := conditions.id, version, allowedAgents := .array []
          active := none, draft := some draft }
        fun row => { row with draft := some draft }
  | .findType id => .ok (db.findType id, db)
  | .insertType name row =>
      match db.rows.lookup (.type name) with
      | some _ => .error "unique violation"
      | none =>
          (db.insert (.type name) { row with id := conditions.id }).map
            fun after => ((), after)
  | .updateType id name row =>
      match db.findType id with
      | none => .error "none of the records are updated"
      | some (before, _) =>
          if before = name then
            .ok ((), { db with
              rows := db.rows.insert (.type name) { row with id } })
          else
            match db.rows.lookup (.type name) with
            | some _ => .error "unique violation"
            | none =>
                .ok ((), { db with
                  rows := (db.rows.erase (.type before)).insert (.type name)
                    { row with id } })

/-- A statement that fails changes nothing; a transaction whose commit fails is
rolled back, and one that is dropped is, whatever happens. -/
def fail (db : Database) : Statement → Database
  | .commit tx => db.rollback tx
  | .rollback tx => db.rollback tx
  | _ => db

end Database

def exec : Script.Service Statement
    (fun statement => Except String statement.Reply) Conditions Database :=
  fun conditions db statement =>
    match conditions.fault with
    | some text => (.error text, db.fail statement)
    | none =>
        match db.perform conditions statement with
        | .error text => (.error text, db)
        | .ok (reply, after) => (.ok reply, after)

/-- A statement on a row that another transaction has written waits. -/
def ready (db : Database) : Statement → Bool
  | .setDraft key _ => !db.locked none key
  | .upsertDraft key _ _ => !db.locked none key
  | .clearDraft key => !db.locked none key
  | .delete key => !db.locked none key
  | .promote tx key _ _ => !db.locked (some tx) key
  | .clearPromoted tx key => !db.locked (some tx) key
  | .upsertType name _ _ => !db.locked none (.type name)
  | .upsertTypeDraft name _ _ => !db.locked none (.type name)
  | .insertType name _ => !db.locked none (.type name)
  | .updateType _ name _ => !db.locked none (.type name)
  | _ => true

end MiryadCore.Drafts
