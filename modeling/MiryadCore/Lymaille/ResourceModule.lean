import MiryadCore.Lymaille.WriteJournal

/-!
# The writes of the module `resources`

The functions of `resource_module.rs` that write for an agent.  In a batch step
a write is first looked up in the journal, and its result is recorded there; in
an interactive session there is no journal.
-/

namespace MiryadCore.Lymaille

open Users (DbErr)
open Rest (AuthPrincipal RestError)

inductive Failure where
  | unknownResource (name : String)
  | unknownSubject
  | notFound
  | forbidden
  | invalidBody
  | conflict
  | uniqueViolation
  | hookRefused (message : String)
  | writeLimit
  | internal
  deriving DecidableEq, Repr

namespace Failure

/-- What the script reads. -/
def message : Failure → String
  | unknownResource name => "unknown resource: " ++ name
  | unknownSubject => "no account for this session"
  | notFound => "not found"
  | forbidden => "forbidden"
  | invalidBody => "invalid body"
  | conflict => "conflict"
  | uniqueViolation => "conflict"
  | hookRefused message => "hook refused: " ++ message
  | writeLimit => "write limit reached"
  | internal => "internal error"

def ofRest : RestError → Failure
  | .notFound => notFound
  | .forbidden => forbidden
  | .application hook => hookRefused hook.message
  | _ => internal

/-- A creation tells a unique violation from the other errors. -/
def ofCreate : RestError → Failure
  | .database (.uniqueViolation _) => uniqueViolation
  | other => ofRest other

def ofLymaille : LymailleError → Failure
  | .unknownSubject => unknownSubject
  | .store _ => internal

def ofDb (_ : DbErr) : Failure :=
  internal

end Failure

inductive Dynamic (F64 : Type) where
  | unit
  | bool (value : Bool)
  | int (value : ℤ)
  | float (value : F64)
  | string (value : String)
  | array (items : List (Dynamic F64))
  | map (members : List (String × Dynamic F64))

/-- `Number::as_i64`. -/
def asI64 : Number → Option ℤ
  | .posInt value =>
      if value.toNat < 2 ^ 63 then some (value.toNat : ℤ) else none
  | .negInt value => some value.toInt
  | .float _ => none

section

variable {F64 : Type}

mutual

def jsonToDynamic (crates : Crates F64) : Value → Dynamic F64
  | .null => .unit
  | .bool value => .bool value
  | .number value =>
      match asI64 value with
      | some number => .int number
      | none =>
          match crates.asF64 value with
          | some number => .float number
          | none => .unit
  | .string value => .string value
  | .array items => .array (jsonToDynamicItems crates items)
  | .object members => .map (jsonToDynamicMembers crates members)

def jsonToDynamicItems (crates : Crates F64) :
    List Value → List (Dynamic F64)
  | [] => []
  | item :: items =>
      jsonToDynamic crates item :: jsonToDynamicItems crates items

def jsonToDynamicMembers (crates : Crates F64) :
    List (String × Value) → List (String × Dynamic F64)
  | [] => []
  | (key, item) :: members =>
      (key, jsonToDynamic crates item) :: jsonToDynamicMembers crates members

end

end

section Registry

variable {ι : Type}

/-- An entity of the registry; `writes` tells whether it has a writer. -/
structure Entry (ι : Type) where
  index : ι
  writes : Bool
  deriving DecidableEq

structure ResourceRegistry (entities : ι → Entity) where
  entries : List (Entry ι)
  distinct : (entries.map fun entry =>
    (entities entry.index).resource.resourceName).Nodup

variable {entities : ι → Entity}

def ResourceRegistry.new : ResourceRegistry entities where
  entries := []
  distinct := by simp

/-- The common part of the two registrations. -/
def ResourceRegistry.add (registry : ResourceRegistry entities) (index : ι)
    (writes : Bool) : Except String (ResourceRegistry entities) :=
  let name := (entities index).resource.resourceName
  if fresh : name ∉ registry.entries.map fun entry =>
      (entities entry.index).resource.resourceName then
    .ok {
      entries := { index, writes } :: registry.entries
      distinct := List.nodup_cons.mpr ⟨fresh, registry.distinct⟩ }
  else
    .error ("`" ++ name ++ "` is already registered in the agent resource registry — duplicate `resource_name` (the same entity type registered twice counts) is a programming error, refusing to register it a second time")

def ResourceRegistry.register (registry : ResourceRegistry entities)
    (index : ι) : Except String (ResourceRegistry entities) :=
  registry.add index true

def ResourceRegistry.registerReadOnly (registry : ResourceRegistry entities)
    (index : ι) : Except String (ResourceRegistry entities) :=
  registry.add index false

end Registry

variable {F64 ι : Type} [DecidableEq ι] {entities : ι → Entity}

def modelFromJson (entity : Entity) (body : Value) :
    Except Failure (Rest.Model entity.Column) :=
  match body.asObject with
  | none => .error .invalidBody
  | some object =>
      if ∀ member ∈ object, ∃ column, entity.columnName column = member.1 then
        (entity.fromValue body).mapError fun _ => .invalidBody
      else
        .error .invalidBody

/-- `serde_json::to_value` of a row. -/
def rowValue (entity : Entity) (row : Rest.Model entity.Column) :
    Except Failure Value :=
  (entity.toValue row).mapError fun _ => .internal

namespace Writer

def create (i : ι) (principal : AuthPrincipal) (body : Value) :
    Code entities Failure Value := do
  let model ← Query.ofExcept (modelFromJson (entities i) body)
  let created ← ofRest i Failure.ofCreate
    (Rest.create (entities i).resource principal model)
  Query.ofExcept (rowValue (entities i) created)

def update (i : ι) (principal : AuthPrincipal) (id : ℤ) (body : Value) :
    Code entities Failure Value := do
  let model ← Query.ofExcept (modelFromJson (entities i) body)
  let updated ← ofRest i Failure.ofRest
    (Rest.update (entities i).resource principal id model)
  Query.ofExcept (rowValue (entities i) updated)

def delete (i : ι) (principal : AuthPrincipal) (id : ℤ) :
    Code entities Failure Value := do
  ofRest i Failure.ofRest (Rest.delete (entities i).resource principal id)
  return .object [("deleted", .bool true)]

/-- The value of the label in a body. -/
def labelValue (object : Members) (name : String) : Option Rest.SeaValue :=
  match object.lookup name with
  | some (.string text) => some (.string (some text))
  | some (.number number) => (asI64 number).map fun n => .bigInt (some n)
  | _ => none

/-- The fields of the body are those of the row, the primary key apart. -/
def matchesRow (entity : Entity) (object : Members) (row : Value) : Bool :=
  object.all fun member =>
    member.1 = entity.columnName entity.resource.primaryKey ||
      row.get? member.1 = some member.2

def firstMatching (entity : Entity) (object : Members) :
    List (Rest.Model entity.Column) → Except Failure (Option Value)
  | [] => .ok none
  | row :: rows => do
      let value ← rowValue entity row
      if matchesRow entity object value then
        return some value
      else
        firstMatching entity object rows

/-- The row that has the label of the body, and the rest of it. -/
def rereadMatching (i : ι) (body : Value) :
    Code entities Failure (Option Value) :=
  match (entities i).resource.labelColumn with
  | none => return none
  | some column =>
      match body.asObject with
      | none => return none
      | some object =>
          match labelValue object ((entities i).columnName column) with
          | none => return none
          | some value => do
              let rows : List (Rest.Model (entities i).Column) ←
                request Failure.ofDb (.rows i [(column, value)])
              Query.ofExcept (firstMatching (entities i) object rows)

end Writer

structure CallerPrincipal where
  userId : ℤ
  subject : String
  isAdmin : Bool
  deriving DecidableEq, Repr

/-- `Identity::resolve`, which creates no account. -/
def Identity.resolve (crates : Crates F64) (subject : String) :
    Code entities LymailleError CallerPrincipal := do
  let found : Option Users.UserRow ← ofUsers (storeError crates)
    (Users.statement (.selectUser subject))
  match found with
  | none => Query.fail .unknownSubject
  | some account =>
      let isAdmin ← ofUsers (storeError crates) (Users.isAdmin account.id)
      return { userId := account.id, subject := account.subject, isAdmin }

def maxWritesPerRun : ℕ := 100

structure Handle (entities : ι → Entity) (F64 : Type) where
  crates : Crates F64
  registry : ResourceRegistry entities
  subject : String
  scope : Option WriteScope

namespace Handle

/-- The counter of the writes, an `AtomicUsize`, after a call. -/
def charged (writes : ℕ) : ℕ :=
  (writes + 1) % 2 ^ 64

def chargeWrite (writes : ℕ) : Except Failure Unit :=
  if writes ≥ maxWritesPerRun then .error .writeLimit else .ok ()

def writerOf (handle : Handle entities F64) (resource : String) :
    Except Failure ι :=
  match handle.registry.entries.find? fun entry =>
      (entities entry.index).resource.resourceName = resource with
  | some entry =>
      if entry.writes then .ok entry.index
      else .error (.unknownResource resource)
  | none => .error (.unknownResource resource)

/-- The principal of an agent for a subject. -/
def agent (subject : String) : AuthPrincipal where
  subject
  email := none
  preferredUsername := none
  source := .agent

def resolvePrincipal (handle : Handle entities F64) :
    Code entities Failure AuthPrincipal := do
  let caller ← (Identity.resolve handle.crates handle.subject).mapError
    Failure.ofLymaille
  return agent caller.subject

def i32TryFrom (id : ℤ) : Except Failure Unit :=
  if Rest.IsI32 id then .ok () else .error .internal

def recordWrite (handle : Handle entities F64) (key : String)
    (result : Value) : Code entities Failure Unit :=
  match handle.scope with
  | none => return ()
  | some scope =>
      (record handle.crates scope key result).mapError Failure.ofLymaille

/-- The result that the journal of the step has under a key. -/
def replayed (handle : Handle entities F64) (key : String) :
    Code entities Failure (Option Value) :=
  match handle.scope with
  | none => return none
  | some scope =>
      (replay handle.crates scope key).mapError Failure.ofLymaille

/-- The order of the journal: replay; otherwise write, then record. -/
def journaled (handle : Handle entities F64) (key : String)
    (write : Code entities Failure Value) :
    Code entities Failure (Dynamic F64) := do
  match ← handle.replayed key with
  | some journaled => return jsonToDynamic handle.crates journaled
  | none =>
      let value ← write
      handle.recordWrite key value
      return jsonToDynamic handle.crates value

/-- The steps that the three verbs share: `write` is what each does to its
entity, and `check` what it asks of its id. -/
def write (handle : Handle entities F64) (writes : ℕ)
    (check : Except Failure Unit) (resource key : String)
    (write : ι → AuthPrincipal → Code entities Failure Value) :
    Code entities Failure (Dynamic F64) := do
  Query.ofExcept (chargeWrite writes)
  let principal ← handle.resolvePrincipal
  Query.ofExcept check
  let i ← Query.ofExcept (handle.writerOf resource)
  handle.journaled key (write i principal)

/-- In a batch step, a unique violation may come from a creation that was
interrupted before its record. -/
def createRow (handle : Handle entities F64) (body : Value) (i : ι)
    (principal : AuthPrincipal) : Code entities Failure Value := do
  match ← (Writer.create i principal body).attempt with
  | .ok value => return value
  | .error .uniqueViolation =>
      if handle.scope.isSome then
        match ← Writer.rereadMatching i body with
        | some row => return row
        | none => Query.fail .conflict
      else
        Query.fail .conflict
  | .error other => Query.fail other

def create (handle : Handle entities F64) (writes : ℕ) (resource : String)
    (body : Value) : Code entities Failure (Dynamic F64) :=
  handle.write writes (.ok ()) resource
    (opKey handle.crates .create resource none body) (handle.createRow body)

def update (handle : Handle entities F64) (writes : ℕ) (resource : String)
    (id : ℤ) (body : Value) : Code entities Failure (Dynamic F64) :=
  handle.write writes (i32TryFrom id) resource
    (opKey handle.crates .update resource (some id) body) fun i principal =>
      Writer.update i principal id body

def delete (handle : Handle entities F64) (writes : ℕ) (resource : String)
    (id : ℤ) : Code entities Failure (Dynamic F64) :=
  handle.write writes (i32TryFrom id) resource
    (opKey handle.crates .delete resource (some id) .null) fun i principal =>
      Writer.delete i principal id

end Handle

end MiryadCore.Lymaille
