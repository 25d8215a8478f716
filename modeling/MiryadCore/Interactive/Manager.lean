import Mathlib.Data.List.Nodup
import MiryadCore.Interactive.Hub
import MiryadCore.Interactive.Identity

/-!
# The manager of the sessions

The manager keeps the table of the sessions in memory, the gate of the active
turns and an entry for each session in memory, with the handle that cancels
its turn.  A call is a script of the sections in which it holds one of the
locks; what it reads in the database, and what the engine of a turn does, are
replies of the service.
-/

namespace MiryadCore.Interactive

def SESSION_NOT_FOUND : String := "session not found"

def CONTEXT_NOT_FOUND : String := "context not found"

def AGENT_NOT_ALLOWED : String := "agent not allowed for this context type"

/-- `lymaille::SessionError`. -/
inductive SessionError where
  | turnActive (id : SessionId)
  | store (text : String)
  | other (text : String)
  deriving DecidableEq, Repr

/-- A gate of the active turns, such as `lymaille::TurnGate`.  A permit is
given while the session has none, and its drop frees the session. -/
structure TurnGate where
  State : Type
  new : State
  tryBegin : SessionId → State → Except SessionError Unit × State
  isActive : SessionId → State → Bool
  release : SessionId → State → State
  isActive_new : ∀ id, isActive id new = false
  tryBegin_ok : ∀ id s, (tryBegin id s).1 = .ok () → isActive id s = false ∧
    ∀ other, isActive other (tryBegin id s).2 =
      (decide (other = id) || isActive other s)
  tryBegin_error : ∀ id s error, (tryBegin id s).1 = .error error →
    ∀ other, isActive other (tryBegin id s).2 = isActive other s
  isActive_release : ∀ id s other, isActive other (release id s) =
    (isActive other s && !decide (other = id))

/-- A gate that lists the sessions with a permit. -/
def TurnGate.listed : TurnGate where
  State := List SessionId
  new := []
  tryBegin id active :=
    if id ∈ active then (.error (.turnActive id), active)
    else (.ok (), id :: active)
  isActive id active := decide (id ∈ active)
  release id active := active.filter fun other => other ≠ id
  isActive_new id := by simp
  tryBegin_ok id active given := by
    split at given
    next => cases given
    next free =>
      refine ⟨decide_eq_false free, fun other => ?_⟩
      rw [if_neg free]
      simp
  tryBegin_error id active error refused other := by
    split at refused
    next taken => rw [if_pos taken]
    next => cases refused
  isActive_release id active other := by
    simp only [List.mem_filter, Bool.decide_and, decide_not]
    by_cases same : other = id <;> simp [same]

inductive SessionKind where
  | work
  | config
  | sub
  deriving DecidableEq, Repr

inductive AgentKind where
  | work
  | config
  | sub
  deriving DecidableEq, Repr

/-- What the manager reads of a `lymaille::AgentDefinition`. -/
structure AgentDefinition where
  id : String
  kind : AgentKind
  fingerprint : String
  toolsets : List String
  deriving DecidableEq, Repr

/-- What the manager reads of a `lymaille::ContextType`. -/
structure ContextType where
  defaultAgent : Option String
  sessionKind : Option SessionKind
  deriving DecidableEq, Repr

/-- What the manager reads and writes of a `lymaille::SessionState`. -/
structure SessionState where
  id : SessionId
  kind : SessionKind
  agentName : String
  fingerprint : String
  context : String
  versions : List (String × String)
  createdAt : ℕ
  deriving DecidableEq, Repr

/-- `AgentsError` and `ToolsetsError`: a failure of the store, or another. -/
inductive CatalogError where
  | store (text : String)
  | other (text : String)
  deriving DecidableEq, Repr

structure SessionHandle where
  id : SessionId
  kind : SessionKind
  agentId : String
  context : String
  notices : List String
  deriving DecidableEq, Repr

/-- `AssembledSession`: its handle is the root of the cancellations of its
turns. -/
structure Assembled where
  cancel : ℕ
  notices : List String
  deriving DecidableEq, Repr

structure Limits where
  maxOpenPerUser : ℕ
  idleTtlMs : ℕ
  deriving DecidableEq, Repr

/-- The memory of an open session. -/
structure Entry where
  cancel : Option ℕ
  cancelRequested : Bool
  lastUsed : ℕ
  deriving DecidableEq, Repr

/-- The sessions in memory, each with its subject and its entry, and the marks
of those closed. -/
structure Table where
  byId : List (SessionId × String × ℕ)
  closed : SessionId → Bool
  nodup : (byId.map Prod.fst).Nodup

namespace Table

def new : Table :=
  { byId := [], closed := fun _ => false, nodup := List.nodup_nil }

/-- `by_id.get`. -/
def get (table : Table) (id : SessionId) : Option (String × ℕ) :=
  (table.byId.find? fun entry => entry.1 = id).map Prod.snd

/-- `by_id.entry(id).or_insert`. -/
def insert (table : Table) (id : SessionId) (value : String × ℕ) : Table :=
  if absent : id ∈ table.byId.map Prod.fst then table
  else
    { table with
      byId := (id, value) :: table.byId
      nodup := List.nodup_cons.mpr ⟨absent, table.nodup⟩ }

/-- `by_id.retain`. -/
def retain (table : Table) (keep : SessionId → ℕ → Bool) : Table :=
  { table with
    byId := table.byId.filter fun entry => keep entry.1 entry.2.2
    nodup := table.nodup.sublist (List.filter_sublist.map Prod.fst) }

def count (table : Table) (subject : String) : ℕ :=
  table.byId.countP fun entry => entry.2.1 = subject

def close (table : Table) (id : SessionId) : Table :=
  { table.retain (fun other _ => other ≠ id) with
    closed := Function.update table.closed id true }

def isClosed (table : Table) (id : SessionId) : Bool :=
  table.closed id

def reopen (table : Table) (id : SessionId) : Table :=
  { table with closed := Function.update table.closed id false }

theorem get_eq_none {table : Table} {id : SessionId} :
    table.get id = none ↔ id ∉ table.byId.map Prod.fst := by
  unfold get
  rw [Option.map_eq_none_iff, List.find?_eq_none]
  simp only [decide_eq_true_eq, List.mem_map, not_exists, not_and]

theorem get_eq_some {table : Table} {id : SessionId} {value : String × ℕ} :
    table.get id = some value ↔ (id, value) ∈ table.byId := by
  unfold get
  rw [Option.map_eq_some_iff]
  constructor
  · intro found
    obtain ⟨entry, found, same⟩ := found
    have named := List.find?_some found
    rw [decide_eq_true_eq] at named
    rw [← named, ← same]
    exact List.mem_of_find?_eq_some found
  · intro member
    have unique : ∀ entry ∈ table.byId, entry.1 = id → entry = (id, value) := by
      intro entry other same
      exact List.inj_on_of_nodup_map table.nodup other member same
    cases found : table.byId.find? fun entry => entry.1 = id with
    | none =>
        have absent := List.find?_eq_none.mp found _ member
        simp at absent
    | some entry =>
        have named := List.find?_some found
        rw [decide_eq_true_eq] at named
        exact ⟨entry, rfl, congrArg Prod.snd
          (unique entry (List.mem_of_find?_eq_some found) named)⟩

theorem get_of_retain {table : Table} {keep : SessionId → ℕ → Bool}
    {id : SessionId} {value : String × ℕ}
    (found : (table.retain keep).get id = some value) :
    table.get id = some value := by
  rw [get_eq_some] at found ⊢
  exact List.mem_of_mem_filter found

theorem get_of_close {table : Table} {id other : SessionId}
    {value : String × ℕ} (found : (table.close other).get id = some value) :
    table.get id = some value := by
  rw [get_eq_some] at found ⊢
  exact List.mem_of_mem_filter found

theorem get_of_insert {table : Table} {id other : SessionId}
    {value given : String × ℕ}
    (found : (table.insert other given).get id = some value) :
    (id = other ∧ value = given) ∨ table.get id = some value := by
  rw [get_eq_some] at found ⊢
  unfold insert at found
  split at found
  next => exact .inr found
  next =>
    rcases List.mem_cons.mp found with new | old
    · cases new
      exact .inl ⟨rfl, rfl⟩
    · exact .inr old

theorem get_insert_self (table : Table) (id : SessionId)
    (value : String × ℕ) : (table.insert id value).get id ≠ none := by
  rw [Ne, get_eq_none, not_not]
  unfold insert
  split
  next present => exact present
  next => exact List.mem_cons_self

theorem get_insert_of_ne {table : Table} {id other : SessionId}
    (different : other ≠ id) (value : String × ℕ) :
    (table.insert id value).get other = table.get other := by
  unfold insert get
  split
  next => rfl
  next => rw [List.find?_cons_of_neg (by simpa using Ne.symm different)]

theorem get_retain_eq_none {table : Table} {keep : SessionId → ℕ → Bool}
    {id : SessionId} (absent : table.get id = none) :
    (table.retain keep).get id = none := by
  rw [get_eq_none] at absent ⊢
  exact fun present => absent (List.Sublist.subset
    (List.filter_sublist.map Prod.fst) present)

theorem get_close_self (table : Table) (id : SessionId) :
    (table.close id).get id = none := by
  rw [get_eq_none]
  intro present
  obtain ⟨entry, member, same⟩ := List.mem_map.mp present
  have kept := (List.mem_filter.mp member).2
  simp only [same, ne_eq, not_true_eq_false, decide_false,
    Bool.false_eq_true] at kept

theorem get_close_eq_none {table : Table} {id : SessionId} (other : SessionId)
    (absent : table.get id = none) : (table.close other).get id = none := by
  have kept : (table.retain fun given _ => given ≠ other).get id = none :=
    get_retain_eq_none absent
  exact kept

theorem count_retain_le (table : Table) (keep : SessionId → ℕ → Bool)
    (subject : String) :
    (table.retain keep).count subject ≤ table.count subject :=
  List.filter_sublist.countP_le

theorem count_close_le (table : Table) (id : SessionId) (subject : String) :
    (table.close id).count subject ≤ table.count subject :=
  table.count_retain_le (fun other _ => other ≠ id) subject

theorem count_insert {table : Table} {id : SessionId}
    (absent : table.get id = none) (value : String × ℕ) (subject : String) :
    (table.insert id value).count subject =
      table.count subject + if value.1 = subject then 1 else 0 := by
  unfold insert
  rw [dif_neg (get_eq_none.mp absent)]
  simp [count, List.countP_cons]

end Table

/-- The parts of the system that are not in the repository. -/
structure Parts where
  channels : Broadcast SessionEvent
  gate : TurnGate

/-- The state that the calls share.  Entries, permits and handles are named in
the order in which they are made. -/
structure Manager (parts : Parts) where
  limits : Limits
  /-- The subjects that the database has in the group of the administrators. -/
  admins : String → Bool
  hub : Hub parts.channels
  gate : parts.gate.State
  permits : ℕ
  table : Table
  entries : List Entry
  handles : ℕ
  cancelled : ℕ → Bool

namespace Manager

/-- What a turn is started with. -/
structure Turn where
  permit : ℕ
  entry : ℕ
  caller : CallerPrincipal
  kind : SessionKind
  agentId : String
  session : SessionId
  token : Option String
  text : String

/-- The sections of the calls, and their requests to the other services. -/
inductive Section where
  | account (subject : String)
  | admin (subject : String)
  | load (subject : String) (id : SessionId)
  | hostContext (context : String) (caller : CallerPrincipal)
  | agent (subject : String) (name : String)
  | visibleContextType (kind : IdKind) (context : String) (userId : ℤ)
  | contextType (name : String)
  | resolveStart (subject : String) (type : ContextType)
  | activeToolset (subject : String) (name : String)
  | uuid
  | now
  | save (subject : String) (state : SessionState)
  | stampContext (subject : String) (id : SessionId) (context : String)
  | readContextColumn (subject : String) (id : SessionId)
  | assemble (caller : CallerPrincipal) (kind : SessionKind) (agentId : String)
      (session : SessionId) (token : Option String)
  | hub (request : Hub.Section)
  | count (subject : String)
  | isClosed (id : SessionId)
  | reopen (id : SessionId)
  | closeTable (id : SessionId)
  | touch (subject : String) (id : SessionId) (now : ℕ)
  | entryOf (id : SessionId)
  | tryBegin (id : SessionId)
  | isActive (id : SessionId)
  | release (id : SessionId) (permit : ℕ)
  | forget (entry : ℕ)
  | lower (entry : ℕ)
  | spawn (turn : Turn)
  | publish (entry handle : ℕ)
  | requested (entry : ℕ)
  | cancelHandle (handle : ℕ)
  | signal (entry : ℕ)
  | runTurn (handle : ℕ) (text : String)
  | turnEnded (turn : Turn) (handle : ℕ)

namespace Section

@[reducible]
def Reply : Section → Type
  | .account _ => Except String (Option ℤ)
  | .admin _ => Except String Bool
  | .load _ _ => Except SessionError (Option SessionState)
  | .hostContext _ _ => Bool
  | .agent _ _ => Except CatalogError (Option AgentDefinition)
  | .visibleContextType _ _ _ => Except String (Option (Option String))
  | .contextType _ => Except String (Option (ContextType × List String))
  | .resolveStart _ _ => Except CatalogError (Option AgentDefinition)
  | .activeToolset _ _ => Except CatalogError (Option String)
  | .uuid => SessionId
  | .now => ℕ
  | .save _ _ => Except SessionError Unit
  | .stampContext _ _ _ => Except String Unit
  | .readContextColumn _ _ => Except String (Option String)
  | .assemble _ _ _ _ _ => Except LymailleError Assembled
  | .hub request => request.Reply
  | .count _ => ℕ
  | .isClosed _ => Bool
  | .reopen _ => Unit
  | .closeTable _ => Unit
  | .touch _ _ _ => ℕ
  | .entryOf _ => Option ℕ
  | .tryBegin _ => Except SessionError ℕ
  | .isActive _ => Bool
  | .release _ _ => Unit
  | .forget _ => Unit
  | .lower _ => Unit
  | .spawn _ => Unit
  | .publish _ _ => Unit
  | .requested _ => Bool
  | .cancelHandle _ => Unit
  | .signal _ => Unit
  | .runTurn _ _ => List EventKind
  | .turnEnded _ _ => Unit

end Section

/-- What the clock, the database, the host and the engine reply. -/
structure Conditions where
  now : ℕ := 0
  uuid : SessionId := "s"
  account : Except String (Option ℤ) := .ok (some 1)
  admin : Except String Unit := .ok ()
  session : Except SessionError (Option SessionState) := .ok (some
    { id := "s", kind := .work, agentName := "agent", fingerprint := ""
      context := "context", versions := [], createdAt := 0 })
  hostContext : Bool := true
  agent : Except CatalogError (Option AgentDefinition) := .ok (some
    { id := "agent", kind := .work, fingerprint := "", toolsets := [] })
  visibleContextType : Except String (Option (Option String)) :=
    .ok (some (some "type"))
  contextType : Except String (Option (ContextType × List String)) :=
    .ok (some ({ defaultAgent := some "agent", sessionKind := none }, ["agent"]))
  resolveStart : Except CatalogError (Option AgentDefinition) := .ok (some
    { id := "agent", kind := .work, fingerprint := "", toolsets := [] })
  activeToolset : Except CatalogError (Option String) := .ok (some "1.0.0")
  save : Except SessionError Unit := .ok ()
  stampContext : Except String Unit := .ok ()
  contextColumn : Except String (Option String) := .ok (some "context")
  assembled : Except LymailleError (List String) := .ok []
  events : List EventKind := []

variable {parts : Parts}

/-- `SessionManager::new`. -/
def new (parts : Parts) (limits : Limits) (admins : String → Bool)
    (hub : Hub parts.channels) : Manager parts :=
  { limits, admins, hub
    gate := parts.gate.new
    permits := 0
    table := Table.new
    entries := []
    handles := 0
    cancelled := fun _ => false }

/-- `Table::sweep`: the idle sessions go, never one with an active turn. -/
def sweep (now : ℕ) (manager : Manager parts) : Manager parts :=
  { manager with
    table := manager.table.retain fun id entry =>
      let idleMs := now - ((manager.entries[entry]?).elim now Entry.lastUsed)
      idleMs < manager.limits.idleTtlMs || parts.gate.isActive id manager.gate }

/-- `Table::touch`: the entry of the session, made if need be, is used now. -/
def touchTable (subject : String) (id : SessionId) (now : ℕ)
    (manager : Manager parts) : ℕ × Manager parts :=
  match manager.table.get id with
  | some (_, entry) =>
      (entry, { manager with
        entries := manager.entries.modify entry fun entry =>
          { entry with lastUsed := now } })
  | none =>
      (manager.entries.length, { manager with
        table := manager.table.insert id (subject, manager.entries.length)
        entries := manager.entries ++
          [{ cancel := none, cancelRequested := false, lastUsed := now }] })

/-- The table is swept, then the session used. -/
def sweepTouch (subject : String) (id : SessionId) (now : ℕ)
    (manager : Manager parts) : ℕ × Manager parts :=
  (manager.sweep now).touchTable subject id now

/-- The published handle is cancelled, or the flag waits for one; the lock of
the entry is held throughout. -/
def signalEntry (entry : ℕ) (manager : Manager parts) : Manager parts :=
  match manager.entries[entry]? with
  | some { cancel := some handle, .. } =>
      { manager with
        cancelled := Function.update manager.cancelled handle true }
  | some { cancel := none, .. } =>
      { manager with
        entries := manager.entries.modify entry fun entry =>
          { entry with cancelRequested := true } }
  | none => manager

/-- A permit, with the name of the next one. -/
def tryBegin (id : SessionId) (manager : Manager parts) :
    Except SessionError ℕ × Manager parts :=
  let begun := parts.gate.tryBegin id manager.gate
  match begun.1 with
  | .ok () =>
      (.ok manager.permits,
        { manager with gate := begun.2, permits := manager.permits + 1 })
  | .error error => (.error error, { manager with gate := begun.2 })

def exec (conditions : Conditions) (manager : Manager parts) :
    (request : Section) → request.Reply × Manager parts
  | .account _ => (conditions.account, manager)
  | .admin subject =>
      (conditions.admin.map fun _ => manager.admins subject, manager)
  | .load _ _ => (conditions.session, manager)
  | .hostContext _ _ => (conditions.hostContext, manager)
  | .agent _ _ => (conditions.agent, manager)
  | .visibleContextType _ _ _ => (conditions.visibleContextType, manager)
  | .contextType _ => (conditions.contextType, manager)
  | .resolveStart _ _ => (conditions.resolveStart, manager)
  | .activeToolset _ _ => (conditions.activeToolset, manager)
  | .uuid => (conditions.uuid, manager)
  | .now => (conditions.now, manager)
  | .save _ _ => (conditions.save, manager)
  | .stampContext _ _ _ => (conditions.stampContext, manager)
  | .readContextColumn _ _ => (conditions.contextColumn, manager)
  | .assemble _ _ _ _ _ =>
      match conditions.assembled with
      | .ok notices =>
          (.ok { cancel := manager.handles, notices },
            { manager with handles := manager.handles + 1 })
      | .error error => (.error error, manager)
  | .hub request =>
      let answered := Hub.exec conditions.now manager.hub request
      (answered.1, { manager with hub := answered.2 })
  | .count subject => (manager.table.count subject, manager)
  | .isClosed id => (manager.table.isClosed id, manager)
  | .reopen id => ((), { manager with table := manager.table.reopen id })
  | .closeTable id => ((), { manager with table := manager.table.close id })
  | .touch subject id now => manager.sweepTouch subject id now
  | .entryOf id => ((manager.table.get id).map Prod.snd, manager)
  | .tryBegin id => manager.tryBegin id
  | .isActive id => (parts.gate.isActive id manager.gate, manager)
  | .release id _ =>
      ((), { manager with gate := parts.gate.release id manager.gate })
  | .forget entry =>
      ((), { manager with
        entries := manager.entries.modify entry fun entry =>
          { entry with cancel := none } })
  | .lower entry =>
      ((), { manager with
        entries := manager.entries.modify entry fun entry =>
          { entry with cancelRequested := false } })
  | .spawn _ => ((), manager)
  | .publish entry handle =>
      ((), { manager with
        entries := manager.entries.modify entry fun entry =>
          { entry with cancel := some handle } })
  | .requested entry =>
      ((manager.entries[entry]?).elim false Entry.cancelRequested, manager)
  | .cancelHandle handle =>
      ((), { manager with
        cancelled := Function.update manager.cancelled handle true })
  | .signal entry => ((), manager.signalEntry entry)
  | .runTurn _ _ => (conditions.events, manager)
  | .turnEnded _ _ => ((), manager)

def ready (manager : Manager parts) : Section → Bool
  | .hub request => manager.hub.ready request
  | _ => true

/-- A call as a script of its sections, which may end with an error. -/
abbrev Code := Query Section Section.Reply LymailleError

def get (request : Section) : Code request.Reply :=
  Script.call request fun answer => .done (.ok answer)

/-- The `?` on the reply of a section, with its error translated. -/
def demand {α : Type} (request : Section)
    (translate : request.Reply → Except LymailleError α) : Code α :=
  Script.call request fun answer => .done (translate answer)

def throw {α : Type} (error : LymailleError) : Code α :=
  Query.fail error

def storeError {α : Type} : Except String α → Except LymailleError α :=
  Except.mapError .store

/-- `from_session`. -/
def fromSession : SessionError → LymailleError
  | .store text => .store text
  | .turnActive _ => .run "turn active" false
  | .other text => .run text false

def fromCatalog : CatalogError → LymailleError
  | .store text => .store text
  | .other text => .invalidDefinition text

/-- `SessionManager::principal`, which no call goes without. -/
def principal (subject : String) : Code CallerPrincipal := do
  let account ← demand (.account subject) storeError
  match account with
  | none =>
      throw (.forbidden "no local account for this session subject")
  | some userId =>
      let isAdmin ← demand (.admin subject) storeError
      return { userId, subject, isAdmin }

/-- `SessionManager::readable`. -/
def readable (subject : String) (id : SessionId) : Code SessionState := do
  let state ← demand (.load subject id) (Except.mapError fromSession)
  match state with
  | some state => return state
  | none => throw (.notFound SESSION_NOT_FOUND)

def hostContextExists (caller : CallerPrincipal) (context : String) :
    Code Unit := do
  let found ← get (.hostContext context caller)
  if found then return () else throw (.notFound CONTEXT_NOT_FOUND)

def resolveAgent (subject agentId : String) : Code AgentDefinition := do
  let agent ← demand (.agent subject agentId) (Except.mapError fromCatalog)
  match agent with
  | some definition => return definition
  | none => throw (.notFound CONTEXT_NOT_FOUND)

def visibleContextType (caller : CallerPrincipal) (kind : IdKind)
    (context : String) : Code (Option String) := do
  let row ← demand (.visibleContextType kind context caller.userId) storeError
  match row with
  | some reference => return reference
  | none => throw (.notFound CONTEXT_NOT_FOUND)

def agentKindOf : SessionKind → AgentKind
  | .work => .work
  | .config => .config
  | .sub => .sub

/-- The kind of the session: that of its type, which the agent must have,
otherwise that of the agent. -/
def sessionKindOf (type : ContextType) (definition : AgentDefinition) :
    Except LymailleError SessionKind :=
  match type.sessionKind with
  | some .work =>
      if definition.kind = agentKindOf .work then .ok .work
      else .error (.forbidden AGENT_NOT_ALLOWED)
  | some .config =>
      if definition.kind = agentKindOf .config then .ok .config
      else .error (.forbidden AGENT_NOT_ALLOWED)
  | _ =>
      match definition.kind with
      | .work => .ok .work
      | .config => .ok .config
      | .sub => .error (.forbidden AGENT_NOT_ALLOWED)

/-- The agent of the session: an explicit one is read again for the caller, the
default of the type is resolved already. -/
def definitionOf (subject agentId : String) (agent : Option String)
    (start : Option AgentDefinition) : Code AgentDefinition :=
  match agent, start with
  | some _, _ => resolveAgent subject agentId
  | none, some target => pure target
  | none, none =>
      throw (.invalidDefinition
        "agent required: the context type has no default agent")

def resolveTypeStart (caller : CallerPrincipal) (kind : IdKind)
    (context : String) (agent : Option String) :
    Code (SessionKind × String × AgentDefinition) := do
  let reference ← visibleContextType caller kind context
  match reference with
  | none => throw (.invalidDefinition "context has no usable type")
  | some reference =>
  let found ← demand (.contextType reference) storeError
  match found with
  | none => throw (.invalidDefinition "context has no usable type")
  | some (type, allowed) =>
  let start ← demand (.resolveStart caller.subject type)
    (Except.mapError fromCatalog)
  match agent.or type.defaultAgent with
  | none =>
      throw (.invalidDefinition
        "agent required: the context type has no default agent")
  | some agentId =>
  if agentId ∉ allowed then throw (.forbidden AGENT_NOT_ALLOWED)
  else
    let definition ← definitionOf caller.subject agentId agent start
    let kind ← Query.ofExcept (sessionKindOf type definition)
    return (kind, agentId, definition)

def toolsetVersions (subject : String) :
    List String → Code (List (String × String))
  | [] => return []
  | name :: names => do
      let toolset ← demand (.activeToolset subject name)
        (Except.mapError fromCatalog)
      match toolset with
      | none => throw (.notFound ("unknown toolset: " ++ name))
      | some version =>
          let versions ← toolsetVersions subject names
          return (name, version) :: versions

/-- The nature of the session, its agent and the definition of the agent. -/
def resolveStart (caller : CallerPrincipal) (context : String)
    (agent : Option String) :
    Code (SessionKind × String × AgentDefinition) := do
  let kind ← Query.ofExcept (classify context)
  match kind with
  | .host =>
      match agent with
      | none =>
          throw (.invalidDefinition "host sessions need an explicit agent")
      | some agent =>
          hostContextExists caller context
          let definition ← resolveAgent caller.subject agent
          if definition.kind ≠ .work then
            throw (.invalidDefinition
              "host contexts do not open config sessions")
          else return (.work, agent, definition)
  | kind => resolveTypeStart caller kind context agent

/-- The bound on the sessions in memory, from which an administrator is
exempted. -/
def checkCount (maxOpenPerUser : ℕ) (caller : CallerPrincipal)
    (subject : String) : Code Unit := do
  if caller.isAdmin then return ()
  else
    let count ← get (.count subject)
    if maxOpenPerUser ≤ count then
      throw (.forbidden "too many open sessions")
    else return ()

/-- `SessionManager::touch`. -/
def touch (subject : String) (id : SessionId) : Code ℕ := do
  let now ← get .now
  get (.touch subject id now)

/-- `SessionManager::open`. -/
def open_ (maxOpenPerUser : ℕ) (subject context : String)
    (agent : Option String) : Code SessionHandle := do
  let caller ← principal subject
  let (kind, agentId, definition) ← resolveStart caller context agent
  checkCount maxOpenPerUser caller subject
  let versions ← toolsetVersions subject definition.toolsets
  let id ← get .uuid
  let createdAt ← get .now
  demand
    (.save subject
      { id, kind, agentName := definition.id
        fingerprint := definition.fingerprint, context, versions, createdAt })
    (Except.mapError fromSession)
  demand (.stampContext subject id context) storeError
  get (.hub (.register id subject))
  let _ ← touch subject id
  return { id, kind, agentId, context, notices := [] }

def beginError : SessionError → LymailleError
  | .turnActive _ => .conflict "turn active"
  | other => fromSession other

/-- `SessionManager::send`; the turn is a task of its own. -/
def send (subject : String) (id : SessionId) (text : String)
    (token : Option String) : Code Unit := do
  let caller ← principal subject
  let state ← readable subject id
  let closed ← get (.isClosed id)
  if closed then throw (.notFound SESSION_NOT_FOUND)
  else
    let permit ← demand (.tryBegin id) (Except.mapError beginError)
    let entry ← touch subject id
    get (.forget entry)
    get (.lower entry)
    get (.spawn
      { permit, entry, caller, kind := state.kind, agentId := state.agentName
        session := id, token, text })

/-- What the engine emits goes to the hub, which is its sink. -/
def emitAll (session : SessionId) : List EventKind → Code Unit
  | [] => return ()
  | kind :: kinds => do
      let at_ ← get .now
      let event : Event := { session, at_, kind }
      get (.hub (.audit event))
      get (.hub (.diffuse session (SessionEvent.of event)))
      emitAll session kinds

/-- The task of a turn: the permit goes with it. -/
def runTurn (turn : Turn) : Code Unit := do
  let assembled ← get (.assemble turn.caller turn.kind turn.agentId
    turn.session turn.token)
  match assembled with
  | .error _ => get (.release turn.session turn.permit)
  | .ok assembled =>
      get (.publish turn.entry assembled.cancel)
      let requested ← get (.requested turn.entry)
      if requested then get (.cancelHandle assembled.cancel)
      let events ← get (.runTurn assembled.cancel turn.text)
      emitAll turn.session events
      get (.turnEnded turn assembled.cancel)
      get (.release turn.session turn.permit)

/-- `SessionManager::subscribe`. -/
def subscribe (subject : String) (id : SessionId) : Code Subscription := do
  let _ ← principal subject
  let _ ← readable subject id
  get (.hub (.adopt id subject))
  let slot ← get (.hub (.slot id))
  let receiver ← get (.hub (.subscribe id slot))
  get (.hub (.release slot))
  return { slot, receiver }

/-- `SessionManager::signal`. -/
def signal (id : SessionId) : Code Unit := do
  let entry ← get (.entryOf id)
  match entry with
  | some entry => get (.signal entry)
  | none => return ()

/-- `SessionManager::cancel`. -/
def cancel (subject : String) (id : SessionId) : Code Bool := do
  let _ ← principal subject
  let _ ← readable subject id
  let active ← get (.isActive id)
  if active then signal id
  return active

/-- `SessionManager::resume`. -/
def resume (subject : String) (id : SessionId) : Code SessionHandle := do
  let caller ← principal subject
  let state ← readable subject id
  let column ← demand (.readContextColumn subject id) storeError
  match column with
  | none => throw (.notFound SESSION_NOT_FOUND)
  | some context =>
      let assembled ← demand
        (.assemble caller state.kind state.agentName id none) fun result => result
      get (.hub (.register id subject))
      get (.reopen id)
      let _ ← touch subject id
      return { id, kind := state.kind, agentId := state.agentName, context
               notices := assembled.notices }

/-- The body of `SessionManager::close`. -/
def closeSession (id : SessionId) : Code Unit := do
  let active ← get (.isActive id)
  if active then signal id
  get (.hub (.removeSlot id))
  get (.hub (.removeSubject id))
  get (.closeTable id)

/-- `SessionManager::close`, silent on a session that is not there. -/
def close (subject : String) (id : SessionId) : Code Unit := do
  let caller ← (principal subject).attempt
  match caller with
  | .error _ => return ()
  | .ok _ =>
      let state ← (readable subject id).attempt
      match state with
      | .error _ => return ()
      | .ok _ => closeSession id

end Manager

end MiryadCore.Interactive
