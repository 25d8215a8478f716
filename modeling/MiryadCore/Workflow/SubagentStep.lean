import MiryadCore.Interactive.Assemble
import MiryadCore.Lymaille.Store
import MiryadCore.Users.Membership
import MiryadCore.Workflow.Dispatcher

/-!
# The kind `"subagent"`

A step runs a sub-agent in one batch, under the subject that triggered the run.
The definition of the agent, its profile and its provider, the modules, the
roles and the toolsets are resolved first, then the session of the step; only
the batch that follows has effects.
-/

namespace MiryadCore.Interactive

/-- Whether another attempt makes sense. -/
def LymailleError.retryable : LymailleError → Bool
  | .run _ retryable => retryable
  | .store _ => true
  | _ => false

end MiryadCore.Interactive

namespace MiryadCore.Workflow.Subagent

open Definitions (LymailleHost RoleBinding)
open Interactive (AgentKind CallerPrincipal CatalogError IdKind LymailleError
  SessionError SessionId buildAuth checkGrants classify)
open Lymaille (WriteScope)
open Users (DbErr)

def DEFAULT_MAX_SECS : UInt64 := 480

def CONTEXT_TYPE : String := "workflow_subagent"

/-- `ADMIN_ONLY_MODULES`. -/
def ADMIN_ONLY_MODULES : List String := []

structure SubagentConfig where
  agent : String
  task : String
  maxSecs : Option UInt64
  maxTurns : Option UInt32
  deriving DecidableEq, Repr

/-- What the step reads of a `lymaille::AgentDefinition`. -/
structure AgentDefinition where
  id : String
  kind : AgentKind
  fingerprint : String
  profile : String
  prompt : String
  outputSchema : Option Value
  modules : List String
  toolsets : List String
  deriving DecidableEq

/-- What the step reads of a `lymaille::Provider`. -/
structure Provider where
  address : String
  auth : Option String
  deriving DecidableEq, Repr

inductive SubagentStatus where
  | valid
  | cancelled
  | failed
  | interrupted
  | other
  deriving DecidableEq, Repr

structure SubagentOutcome where
  status : SubagentStatus
  result : Option Value
  reason : Option String
  errors : List String
  deriving DecidableEq

/-- A module that a definition grants. -/
inductive Module where
  | resources (subject : String) (scope : WriteScope)
  | todo (session : SessionId)
  | memoryUser (subject : String) (session : SessionId)
  | memorySession (subject : String) (session : SessionId)
  deriving DecidableEq, Repr

/-- `lymaille`, SHA-256 in hexadecimal, and the texts of `serde`. -/
structure SubagentParts where
  Profile : Type
  Toolset : Type
  Context : Type
  ResolvedContext : Type
  Grants : Type
  Collector : Type
  Engine : Type
  State : Type
  hexSha256 : String → String
  serdeText : Value → String
  /-- The `Display` of a turn that is active already. -/
  turnActive : SessionId → String
  defaultMaxTurns : UInt32
  readAgent : Value → Option AgentDefinition
  readProvider : Value → Option Provider
  readToolset : Value → Option Toolset
  readContext : Value → Option Context
  profileProvider : Profile → String
  toolsetName : Toolset → String
  toolsetVersion : Toolset → String
  /-- The bindings of a context, from role to server. -/
  contextRoles : Context → List (String × String)
  sessionId : String → Option SessionId
  stateFromJson : String → Except SessionError State
  newState : SessionId → AgentDefinition → List (String × String) → State
  validName : String → Bool
  /-- The empty context of the step, resolved. -/
  emptyContext : Except CatalogError ResolvedContext
  /-- `assemble`, with its first failure. -/
  assemble : List Toolset → List (String × Module) → ResolvedContext →
    Except String Grants
  collector : String → Value → Except String Collector
  /-- `Grants::with_module`, for the module of the results. -/
  withResult : Grants → Collector → Option Grants
  buildEngine : Grants → Except String Engine
  addSecret : String → Except String Unit

variable (parts : SubagentParts)

/-- A `SELECT` of one JSON column. -/
inductive Select where
  | agent (owner : Option ℤ) (id : String)
  | provider (name : String)
  | toolset (owner : Option ℤ) (id : String)
  | context (owner : Option ℤ) (name : String)
  deriving DecidableEq, Repr

/-- What `run_batch` is given. -/
structure Batch where
  profile : parts.Profile
  client : String × Option String
  prompt : String
  engine : parts.Engine
  collector : parts.Collector
  state : parts.State
  task : String
  maxTurns : UInt32
  maxSecs : UInt64

inductive Ask where
  | access (request : Definitions.Request)
  | stored (select : Select)
  | sessionState (subject : String) (id : SessionId)
  | now
  | resolveProfile (name : String)
  | restoreSession (id : SessionId) (fingerprint : String)
      (versions : List (String × String))
  | runBatch (batch : Batch parts)

@[reducible]
def Ask.Reply : Ask parts → Type
  | .access request => Except DbErr request.Reply
  | .stored _ => Except DbErr (Option Value)
  | .sessionState _ _ => Except DbErr (Option String)
  | .now => ℕ
  | .resolveProfile _ => Except CatalogError parts.Profile
  | .restoreSession _ _ _ => Except SessionError (parts.State × List String)
  | .runBatch _ => Except String SubagentOutcome

abbrev Code (ε α : Type) : Type :=
  Query (Ask parts) (Ask.Reply parts) ε α

structure SubagentDeps where
  dbText : DbErr → String
  secrets : String → Except LymailleError String
  host : Option LymailleHost

structure SubagentStep where
  deps : SubagentDeps
  maxSecsCeiling : UInt64

variable {parts}

/-- A request, with what its answer is read as. -/
def demand {ε α : Type} (request : Ask parts)
    (read : request.Reply → Except ε α) : Code parts ε α :=
  Script.call request fun answer => .done (read answer)

def invalid (detail : String) : StepError :=
  { message := "config subagent invalide: " ++ detail, retryable := false }

def permanent (message : String) : StepError :=
  { message, retryable := false }

def fromLymaille (error : LymailleError) : StepError :=
  { retryable := error.retryable, message := error.display }

/-- `from_agents`, and `from_toolsets`. -/
def fromCatalog : CatalogError → StepError
  | .store text => fromLymaille (.store text)
  | .other text => permanent text

def fromSession (parts : SubagentParts) : SessionError → StepError
  | .store text => fromLymaille (.store text)
  | .turnActive id => permanent (parts.turnActive id)
  | .other text => permanent text

section Stores

variable (deps : SubagentDeps) (subject : String)

def users {α : Type} (asked : Users.Db α) : Code parts LymailleError α :=
  Query.lift (fun statement => .access (.users statement))
    (fun _ answer => answer) (fun error => .store (deps.dbText error)) asked

/-- `Identity::resolve`. -/
def resolveIdentity : Code parts LymailleError CallerPrincipal := do
  match ← users deps (Users.statement (.selectUser subject)) with
  | none => Query.fail .unknownSubject
  | some account =>
      let isAdmin ← users deps (Users.isAdmin account.id)
      return { userId := account.id, subject := account.subject, isAdmin }

/-- `principal`, which the stores of definitions read at each call. -/
def principal : Code parts CatalogError CallerPrincipal :=
  (resolveIdentity deps subject).mapError fun error => .store error.display

def firstJson (select : Select) : Code parts CatalogError (Option Value) :=
  demand (.stored select) fun answer =>
    answer.mapError fun error => .store (deps.dbText error)

/-- A stored object, that has to be readable. -/
def readStored {α : Type} (read : Value → Option α) (unreadable : String) :
    Option Value → Except CatalogError (Option α)
  | none => .ok none
  | some value =>
      match read value with
      | some object => .ok (some object)
      | none => .error (.store unreadable)

/-- The owner of the row of a definition, if it is not in the catalog. -/
def ownerOf (kind : IdKind) (caller : CallerPrincipal) : Option ℤ :=
  match kind with
  | .private_ => some caller.userId
  | _ => none

/-- A definition by its identifier, which tells the table.  The identifiers of
the host are not stored. -/
def getStored {α : Type} (id : String) (select : Option ℤ → Select)
    (read : Value → Option α) (unreadable : String) :
    Code parts CatalogError (Option α) :=
  match classify id with
  | .error _ => return none
  | .ok .host => return none
  | .ok kind => do
      let caller ← principal deps subject
      let stored ← firstJson deps (select (ownerOf kind caller))
      Query.ofExcept (readStored read unreadable stored)

def getAgent (id : String) : Code parts CatalogError (Option AgentDefinition) :=
  getStored deps subject id (fun owner => .agent owner id) parts.readAgent
    ("stored agent definition " ++ id ++ " is unreadable")

/-- The active version of a toolset. -/
def getActive (name : String) :
    Code parts CatalogError (Option parts.Toolset) :=
  getStored deps subject name (fun owner => .toolset owner name)
    parts.readToolset ("stored toolset " ++ name ++ " is unreadable")

/-- `get_context` of stores without a host: a private context alone needs the
principal. -/
def getContext (name : String) :
    Code parts CatalogError (Option parts.Context) :=
  match classify name with
  | .error _ => return none
  | .ok .host => return none
  | .ok .catalog => do
      let stored ← firstJson deps (.context none name)
      Query.ofExcept (readStored parts.readContext
        ("stored toolset context " ++ name ++ " is unreadable") stored)
  | .ok .private_ => do
      let caller ← principal deps subject
      let stored ← firstJson deps (.context (some caller.userId) name)
      Query.ofExcept (readStored parts.readContext
        ("stored toolset context " ++ name ++ " is unreadable") stored)

def getProvider (name : String) : Code parts CatalogError (Option Provider) := do
  let stored ← firstJson deps (.provider name)
  Query.ofExcept (readStored parts.readProvider
    ("stored provider " ++ name ++ " is unreadable") stored)

/-- `SeaSessionStore::load`. -/
def loadSession (id : SessionId) :
    Code parts SessionError (Option parts.State) := do
  let text ← demand (.sessionState subject id) fun answer =>
    answer.mapError fun error => SessionError.store (deps.dbText error)
  match text with
  | none => return none
  | some text =>
      let state ← Query.ofExcept (parts.stateFromJson text)
      return some state

end Stores

namespace SubagentConfig

def keys : List String := ["agent", "task", "max_secs", "max_turns"]

def optionU64 : Value → Option (Option UInt64)
  | .null => some none
  | .number (.posInt count) => some (some count)
  | _ => none

def optionU32 : Value → Option (Option UInt32)
  | .null => some none
  | .number (.posInt count) =>
      if count.toNat < 2 ^ 32 then some (some count.toUInt32) else none
  | _ => none

def ofFields (agent task maxSecs maxTurns : Value) :
    Option SubagentConfig := do
  let agent ← agent.asString
  let task ← task.asString
  let maxSecs ← optionU64 maxSecs
  let maxTurns ← optionU32 maxTurns
  return { agent, task, maxSecs, maxTurns }

/-- The derived `Deserialize`, which refuses the keys that it does not know; a
sequence has all the fields in their order. -/
def ofValue : Value → Option SubagentConfig
  | .object members =>
      if members.all fun member => member.1 ∈ keys then do
        let agent ← members.lookup "agent"
        let task ← members.lookup "task"
        ofFields agent task ((members.lookup "max_secs").getD .null)
          ((members.lookup "max_turns").getD .null)
      else none
  | .array [agent, task, maxSecs, maxTurns] =>
      ofFields agent task maxSecs maxTurns
  | _ => none

def validate (cfg : SubagentConfig) (ceiling : UInt64) :
    Except StepError Unit :=
  if cfg.agent.isEmpty then .error (invalid "agent vide")
  else if Users.isBlank cfg.task then .error (invalid "task vide")
  else if cfg.maxSecs.any fun maxSecs => ¬(1 ≤ maxSecs ∧ maxSecs ≤ ceiling) then
    .error (invalid ("max_secs hors de 1..=" ++ toString ceiling.toNat ++ " : " ++
      toString ((cfg.maxSecs.map UInt64.toNat).getD 0)))
  else if cfg.maxTurns = some 0 then
    .error (invalid "max_turns doit être supérieur ou égal à 1")
  else .ok ()

end SubagentConfig

/-- `session_name`. -/
def sessionName (parts : SubagentParts) (run : RunInfo) : String :=
  "wf-" ++ String.ofList
    ((parts.hexSha256 (run.runKey ++ "\x00" ++ run.stepId)).toList.take 32)

/-- The principal of the trigger, the agent, its profile, its provider, and the
address and the key of the client. -/
structure Resolved (parts : SubagentParts) where
  caller : CallerPrincipal
  definition : AgentDefinition
  schema : Value
  profile : parts.Profile
  client : String × Option String

/-- The engine of the run, and what its session tells of it. -/
structure EngineParts (parts : SubagentParts) where
  engine : parts.Engine
  collector : parts.Collector
  toolsetVersions : List (String × String)

section Steps

variable (step : SubagentStep)

/-- The key of a provider, where it has a reference. -/
def apiKey (deps : SubagentDeps) :
    Option String → Except LymailleError (Option String)
  | none => .ok none
  | some reference => (deps.secrets reference).map some

def resolve (agent trigger : String) :
    Code parts StepError (Resolved parts) := do
  let caller ← (resolveIdentity step.deps trigger).mapError fromLymaille
  let found ← (getAgent step.deps trigger agent).mapError fromCatalog
  match found with
  | none => Query.fail (permanent ("unknown agent: " ++ agent))
  | some definition =>
      if definition.kind ≠ .sub then
        Query.fail (permanent "agent is not a sub-agent")
      else
        match definition.outputSchema with
        | none => Query.fail (permanent "sub-agent has no output schema")
        | some schema =>
            Query.ofExcept ((checkGrants caller definition.modules
              ADMIN_ONLY_MODULES).mapError fromLymaille)
            let profile ← demand (.resolveProfile definition.profile)
              fun answer => answer.mapError fromCatalog
            let provider ← (getProvider step.deps
              (parts.profileProvider profile)).mapError fromCatalog
            match provider with
            | none => Query.fail (permanent "inference provider is unknown")
            | some provider =>
                let key ← Query.ofExcept
                  ((apiKey step.deps provider.auth).mapError fromLymaille)
                return { caller, definition, schema, profile
                         client := (provider.address, key) }

/-- The module of a name. -/
def moduleOf (trigger : String) (session : SessionId) (scope : WriteScope) :
    String → Option Module
  | "resources" => some (.resources trigger scope)
  | "todo" => some (.todo session)
  | "memory_user" => some (.memoryUser trigger session)
  | "memory_session" => some (.memorySession trigger session)
  | _ => none

def grantedModules (parts : SubagentParts) (trigger : String)
    (session : SessionId) (scope : WriteScope) :
    List String → Except StepError (List (String × Module))
  | [] => .ok []
  | name :: names =>
      match moduleOf trigger session scope name with
      | none => .error (permanent ("unknown module: " ++ name))
      | some module =>
          if parts.validName name then do
            let granted ← grantedModules parts trigger session scope names
            return (name, module) :: granted
          else .error (permanent ("invalid module name: " ++ name))

/-- The loop on the roles of the context.  A binding of the host opens the
door; one of the table has to do without the token of a session. -/
def checkRoles (caller : CallerPrincipal) :
    List (String × String) → Code parts StepError Unit
  | [] => return ()
  | (role, server) :: roles => do
      let now ← demand .now fun answer => Except.ok answer
      let asked : Code parts LymailleError RoleBinding :=
        Query.lift .access (fun _ answer => answer) id
          (Definitions.resolveRole step.deps.dbText step.deps.host now caller
            CONTEXT_TYPE role (some server))
      let binding ← asked.mapError fromLymaille
      match binding with
      | .table model => do
          let _ ← Query.ofExcept ((buildAuth model none).mapError fromLymaille)
          checkRoles caller roles
      | .host _ => checkRoles caller roles

def checkContextRoles (trigger : String) (caller : CallerPrincipal) :
    Code parts StepError Unit := do
  let context ← (getContext step.deps trigger CONTEXT_TYPE).mapError fromCatalog
  match context with
  | none => return ()
  | some context => checkRoles step caller (parts.contextRoles context)

/-- The active versions of the toolsets. -/
def activeToolsets (trigger : String) :
    List String → Code parts StepError (List parts.Toolset)
  | [] => return []
  | name :: names => do
      let found ← (getActive step.deps trigger name).mapError fromCatalog
      match found with
      | none => Query.fail (permanent ("unknown toolset: " ++ name))
      | some toolset => do
          let toolsets ← activeToolsets trigger names
          return toolset :: toolsets

/-- The engine over the toolsets and the modules. -/
def engineOf (parts : SubagentParts) (definition : AgentDefinition)
    (schema : Value) (granted : List (String × Module))
    (toolsets : List parts.Toolset) : Except StepError (EngineParts parts) := do
  let context ← parts.emptyContext.mapError fromCatalog
  let grants ← (parts.assemble toolsets granted context).mapError
    fun failure => permanent ("toolset assembly failed: " ++ failure)
  let collector ← (parts.collector definition.id schema).mapError
    fun error => permanent ("agent run failed: " ++ error)
  if parts.validName "result" then
    match parts.withResult grants collector with
    | none => .error (permanent "module name collision: result")
    | some grants => do
        let engine ← (parts.buildEngine grants).mapError
          fun error => permanent ("agent run failed: " ++ error)
        return { engine, collector
                 toolsetVersions := toolsets.map fun toolset =>
                   (parts.toolsetName toolset, parts.toolsetVersion toolset) }
  else .error (permanent "invalid module name: result")

def assembleAndEngine (trigger : String) (definition : AgentDefinition)
    (schema : Value) (granted : List (String × Module)) :
    Code parts StepError (EngineParts parts) := do
  let toolsets ← activeToolsets step trigger definition.toolsets
  Query.ofExcept (engineOf parts definition schema granted toolsets)

/-- The session of an earlier attempt, or a new one. -/
def restoreOrNew (trigger : String) (id : SessionId)
    (definition : AgentDefinition) (versions : List (String × String)) :
    Code parts StepError (parts.State × List String) := do
  let found ← (loadSession step.deps trigger id).mapError
    (fromSession parts)
  match found with
  | some _ =>
      demand (.restoreSession id definition.fingerprint versions)
        fun answer => answer.mapError (fromSession parts)
  | none => return (parts.newState id definition versions, [])

/-- The redactor of the runner knows the key. -/
def buildRunner (parts : SubagentParts) (client : String × Option String) :
    Except StepError Unit :=
  match client.2 with
  | none => .ok ()
  | some secret => (parts.addSecret secret).mapError
      fun error => permanent ("agent run failed: " ++ error)

/-- The notices of a session that is taken up open the task. -/
def taskOf (notices : List String) (task : String) : String :=
  if notices.isEmpty then task
  else String.intercalate "\n" notices ++ "\n\n" ++ task

/-- Steps 1 to 9, and what the batch is given. -/
def prepare (run : RunInfo) (config : Value) :
    Code parts StepError (Batch parts) :=
  match SubagentConfig.ofValue config with
  | none => Query.fail (invalid (parts.serdeText config))
  | some cfg => do
      Query.ofExcept (cfg.validate step.maxSecsCeiling)
      match run.trigger with
      | none =>
          Query.fail (permanent "subagent step requires a trigger identity")
      | some trigger => do
          let resolved ← resolve step cfg.agent trigger
          match parts.sessionId (sessionName parts run) with
          | none => Query.fail (permanent
              "the deterministic session name is not a valid session identifier")
          | some id => do
              let granted ← Query.ofExcept (grantedModules parts trigger id
                { runKey := run.runKey, stepKey := run.stepId }
                resolved.definition.modules)
              checkContextRoles step trigger resolved.caller
              let engine ← assembleAndEngine step trigger resolved.definition
                resolved.schema granted
              let (state, notices) ← restoreOrNew step trigger id
                resolved.definition engine.toolsetVersions
              Query.ofExcept (buildRunner parts resolved.client)
              return { profile := resolved.profile, client := resolved.client
                       prompt := resolved.definition.prompt
                       engine := engine.engine, collector := engine.collector
                       state, task := taskOf notices cfg.task
                       maxTurns := cfg.maxTurns.getD parts.defaultMaxTurns
                       maxSecs := cfg.maxSecs.getD DEFAULT_MAX_SECS }

def failureReason (outcome : SubagentOutcome) : String :=
  match outcome.reason with
  | some reason => reason
  | none => outcome.errors.head?.getD "no valid result was accepted"

def outcomeToResult (outcome : SubagentOutcome) : Except StepError Value :=
  match outcome.status with
  | .valid =>
      match outcome.result with
      | some value => .ok value
      | none =>
          .error (permanent "agent run failed: valid outcome without a result")
  | .cancelled => .error (permanent "agent run exceeded max_secs")
  | .failed =>
      .error (permanent ("agent run failed: " ++ failureReason outcome))
  | .interrupted =>
      .error (permanent ("agent run failed: " ++ failureReason outcome))
  | .other => .error (permanent "agent run failed: unknown outcome status")

/-- Steps 10 and 11. -/
def runBatch (batch : Batch parts) : Code parts StepError Value :=
  demand (.runBatch batch) fun answer =>
    match answer with
    | .ok outcome => outcomeToResult outcome
    | .error error => .error (permanent ("agent run failed: " ++ error))

/-- `SubagentStep::run`. -/
def run (run : RunInfo) (config : Value) : Code parts StepError Value := do
  let batch ← prepare step run config
  runBatch batch

end Steps

end MiryadCore.Workflow.Subagent
