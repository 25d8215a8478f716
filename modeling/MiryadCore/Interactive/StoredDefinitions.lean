import MiryadCore.Control.Observation
import MiryadCore.Definitions.McpAccess
import MiryadCore.Interactive.StoredSessions
import MiryadCore.Json.Value

/-!
# The definitions that a session is opened on

The contexts, their types and the agents are rows of tables.  A caller sees the
rows of the catalog and those of its own; a context of the host is in no table.
What the manager asks of the definitions is told by the tables, unless a
statement fails.
-/

namespace MiryadCore.Interactive

open Definitions (HostError)
open Manager (Section Conditions)

variable {parts : Parts}

/-- What the manager reads of a row of the context types. -/
structure ContextTypeColumns where
  active : Option Value
  allowedAgents : Value
  deriving DecidableEq, Repr

/-- `SeaAgentStore::get_agent` of a subject. -/
abbrev GetAgent : Type :=
  String → Except CatalogError (Option AgentDefinition)

/-- `lymaille::resolve_start`, which resolves the default agent of a type. -/
structure StartOf where
  resolve : ContextType → GetAgent → Except CatalogError (Option AgentDefinition)
  resolve_none : ∀ type getAgent, type.defaultAgent = none →
    resolve type getAgent = .ok none
  resolve_some : ∀ type getAgent name, type.defaultAgent = some name →
    (∃ definition, getAgent name = .ok (some definition) ∧
      resolve type getAgent = .ok (some definition)) ∨
    ∃ error, resolve type getAgent = .error error

/-- The tables of the definitions, and what reads their columns. -/
structure Catalogue where
  accounts : String → Option ℤ
  catalogContexts : KeyedTable String (Option String)
  userContexts : KeyedTable (ℤ × String) (Option String)
  contextTypes : KeyedTable String ContextTypeColumns
  catalogAgents : KeyedTable String (Option Value)
  privateAgents : KeyedTable (ℤ × String) (Option Value)
  readType : Value → Option ContextType
  readAgent : Value → Option AgentDefinition
  startOf : StartOf
  resolveContext : Option (String → CallerPrincipal → Except HostError Bool)

namespace Catalogue

variable (catalogue : Catalogue)

/-- The column `context_type` of the row that `visible_context_type` selects,
if there is one. -/
def contextRow (kind : IdKind) (context : String) (userId : ℤ) :
    Option (Option String) :=
  if kind = .catalog then catalogue.catalogContexts.find context
  else catalogue.userContexts.find (userId, context)

/-- The strings of the column `allowed_agents`. -/
def allowedAgents (columns : ContextTypeColumns) : List String :=
  match columns.allowedAgents.asArray with
  | some values => values.filterMap Value.asString
  | none => []

/-- `SessionManager::context_type`. -/
def contextType (name : String) : Option (ContextType × List String) :=
  match catalogue.contextTypes.find name with
  | none => none
  | some columns =>
      match columns.active.filter fun version => version ≠ .null with
      | none => none
      | some brute =>
          match catalogue.readType brute with
          | none => none
          | some type => some (type, allowedAgents columns)

/-- The column `definition` of the row that `get_agent` selects, if there is
one. -/
def agentRow (kind : IdKind) (userId : ℤ) (id : String) :
    Option (Option Value) :=
  match kind with
  | .catalog => catalogue.catalogAgents.find id
  | .private_ => catalogue.privateAgents.find (userId, id)
  | .host => none

/-- `SeaAgentStore::get_agent`; only an identifier that a table may hold needs
the statements. -/
def getAgent (statements : Except CatalogError Unit) (subject : String) :
    GetAgent := fun id =>
  match classify id with
  | .error _ => .ok none
  | .ok .host => .ok none
  | .ok kind => do
      statements
      match catalogue.accounts subject with
      | none => .error (.store LymailleError.unknownSubject.display)
      | some userId =>
          match (catalogue.agentRow kind userId id).join with
          | none => return none
          | some value =>
              match catalogue.readAgent value with
              | some definition => return some definition
              | none => .error (.store
                  ("stored agent definition " ++ id ++ " is unreadable"))

/-- Fails closed: no host, no context and an error are alike. -/
def hostContext (context : String) (caller : CallerPrincipal) : Bool :=
  match catalogue.resolveContext with
  | none => false
  | some resolve =>
      match resolve context caller with
      | .ok found => found
      | .error _ => false

/-- What the tables reply to a section, under the conditions of its
statements. -/
def conditions (given : Conditions) : Section → Conditions
  | .account subject =>
      { given with
        account := given.account.map fun _ => catalogue.accounts subject }
  | .hostContext context caller =>
      { given with hostContext := catalogue.hostContext context caller }
  | .agent subject id =>
      { given with
        agent := catalogue.getAgent (given.agent.map fun _ => ()) subject id }
  | .visibleContextType kind context userId =>
      { given with
        visibleContextType := given.visibleContextType.map
          fun _ => catalogue.contextRow kind context userId }
  | .contextType name =>
      { given with
        contextType := given.contextType.map
          fun _ => catalogue.contextType name }
  | .resolveStart subject type =>
      { given with
        resolveStart := catalogue.startOf.resolve type
          (catalogue.getAgent (given.resolveStart.map fun _ => ()) subject) }
  | _ => given

/-- A section of a call that runs alone. -/
def exec : Script.Service Section Section.Reply Conditions (Stored parts) :=
  fun given stored request =>
    stored.perform (catalogue.conditions given request) request

/-- The type of the context, for a caller that sees the context: its row
references a type with an active version. -/
def TypeOf (userId : ℤ) (kind : IdKind) (context : String)
    (type : ContextType) (allowed : List String) : Prop :=
  ∃ reference, catalogue.contextRow kind context userId =
      some (some reference) ∧
    catalogue.contextType reference = some (type, allowed)

/-- The agent has a definition that the account sees. -/
def AgentOf (userId : ℤ) (id : String) (definition : AgentDefinition) : Prop :=
  ∃ kind value, classify id = .ok kind ∧
    catalogue.agentRow kind userId id = some (some value) ∧
    catalogue.readAgent value = some definition

variable {catalogue}

theorem hostContext_eq_true {context : String} {caller : CallerPrincipal} :
    catalogue.hostContext context caller = true ↔
      ∃ resolve, catalogue.resolveContext = some resolve ∧
        resolve context caller = .ok true := by
  unfold hostContext
  cases catalogue.resolveContext with
  | none => simp
  | some resolve =>
      cases resolved : resolve context caller with
      | error error => simp [resolved]
      | ok found => simp [resolved]

theorem agentOf_of_getAgent {statements : Except CatalogError Unit}
    {subject id : String} {definition : AgentDefinition}
    (found : catalogue.getAgent statements subject id =
      .ok (some definition)) :
    statements = .ok () ∧ ∃ userId,
      catalogue.accounts subject = some userId ∧
        catalogue.AgentOf userId id definition := by
  unfold getAgent at found
  cases classified : classify id with
  | error error =>
      rw [classified] at found
      cases found
  | ok kind =>
      rw [classified] at found
      cases kind with
      | host => cases found
      | _ =>
          cases statements with
          | error error => cases found
          | ok _ =>
              dsimp only [bind, Except.bind] at found
              cases account : catalogue.accounts subject with
              | none =>
                  rw [account] at found
                  cases found
              | some userId =>
                  rw [account] at found
                  refine ⟨rfl, userId, rfl, ?_⟩
                  dsimp only at found
                  split at found
                  next => cases found
                  next value row =>
                    split at found
                    next definition' read =>
                      cases found
                      exact ⟨_, value, classified,
                        Option.join_eq_some_iff.mp row, read⟩
                    next => cases found

theorem getAgent_of_agentOf {subject id : String} {userId : ℤ}
    {definition : AgentDefinition}
    (account : catalogue.accounts subject = some userId)
    (agent : catalogue.AgentOf userId id definition) :
    catalogue.getAgent (.ok ()) subject id = .ok (some definition) := by
  obtain ⟨kind, value, classified, row, read⟩ := agent
  unfold getAgent
  rw [classified]
  cases kind with
  | host => cases row
  | _ =>
      dsimp only [bind, Except.bind]
      rw [account]
      dsimp only
      rw [row]
      dsimp only [Option.join_some]
      rw [read]
      rfl

end Catalogue

end MiryadCore.Interactive
