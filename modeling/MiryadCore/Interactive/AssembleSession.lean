import MiryadCore.Interactive.Assemble
import MiryadCore.Interactive.Sessions

/-!
# The assembly of a session

The engine of a session is assembled for its caller, at each turn and when it
is resumed: the definition of its agent, the toolsets and the context that the
stores have for the caller, the clients of its roles, and the state that is
stored.  The token of the caller reaches the clients and the redactors only.
-/

namespace MiryadCore.Interactive

open Definitions (LymailleHost RoleBinding)
open Manager (fromCatalog)

/-- What the assembly reads of a `lymaille::AgentDefinition`. -/
structure AgentRecord where
  id : String
  fingerprint : String
  profile : String
  modules : List String
  toolsets : List String
  deriving DecidableEq, Repr

/-- What the assembly reads of a `lymaille::Provider`. -/
structure Provider where
  address : String
  auth : Option String
  deriving DecidableEq, Repr

/-- `ConfigEnv`, with what the assembly puts in it. -/
abbrev ConfigEnv : Type := McpEnv

/-- The engine of `lymaille`, and what it is built of. -/
structure AssembleParts extends McpParts where
  Context : Type
  ContextType' : Type
  ResolvedContext : Type
  Grants : Type
  Engine : Type
  /-- The bindings of a context, by role. -/
  contextRoles : Context → String → Option String
  flatten : (String → Option ContextType') → ContextType' → Option FlatRoles
  /-- `ToolsetContext::resolve`, of the empty context where there is none. -/
  resolveContext : Option Context → Except CatalogError ResolvedContext
  resourcesModule : String → Module
  /-- `lymaille::assemble`, with its first failure. -/
  assemble : List Toolset → List (GrantedModule toMcpParts) →
    ResolvedContext → Except String Grants
  /-- `ScratchpadEngine::builder`, with the registration of a `Config`
  session. -/
  build : Grants → Option ConfigEnv → Except String Engine
  /-- `restore_session`, with the notices on the provenance. -/
  restore : SessionState → Engine → String → List (String × String) →
    Except SessionError (List String)

/-- The stores of a subject. -/
structure Stores (parts : AssembleParts) where
  getAgent : String → Except CatalogError (Option AgentRecord)
  /-- `resolve_profile`, with the provider of the profile. -/
  resolveProfile : String → Except CatalogError String
  getProvider : String → Except CatalogError (Option Provider)
  getActive : String → Except CatalogError (Option Toolset)
  getContext : String → Except CatalogError (Option parts.Context)
  getType : String → Except CatalogError (Option parts.ContextType')

structure AssembleDeps (parts : AssembleParts) where
  stores : String → Stores parts
  secrets : String → Except LymailleError String
  dbText : Users.DbErr → String
  host : Option LymailleHost
  moments : String → Moment

/-- `ADMIN_ONLY_MODULES`. -/
def ADMIN_ONLY_MODULES : List String := []

/-- `Resolved`, without the client of the inference. -/
structure Resolved where
  definition : AgentRecord
  apiKey : Option String
  deriving DecidableEq, Repr

/-- `Scope`, with what `build_engine` reads of it. -/
structure SessionScope (parts : AssembleParts) extends Scope where
  context : Option parts.Context
  toolsets : List Toolset

namespace AssembleDeps

variable {parts : AssembleParts} (deps : AssembleDeps parts)

def resolveInference (caller : CallerPrincipal) (agentId : String)
    (reserved : List String) : Except LymailleError Resolved := do
  let stores := deps.stores caller.subject
  match ← (stores.getAgent agentId).mapError fromCatalog with
  | none => .error (.notFound ("unknown agent: " ++ agentId))
  | some definition =>
      checkGrants caller definition.modules reserved
      let profile ←
        (stores.resolveProfile definition.profile).mapError fromCatalog
      match ← (stores.getProvider profile).mapError fromCatalog with
      | none => .error (.config "inference provider is unknown")
      | some provider =>
          match provider.auth with
          | none => return { definition, apiKey := none }
          | some reference =>
              let key ← deps.secrets reference
              return { definition, apiKey := some key }

/-- The active versions of the toolsets. -/
def activeToolsets (stores : Stores parts) :
    List String → Except LymailleError (List Toolset)
  | [] => return []
  | name :: names => do
      match ← (stores.getActive name).mapError fromCatalog with
      | none => .error (.notFound ("unknown toolset: " ++ name))
      | some toolset => return toolset :: (← activeToolsets stores names)

/-- The context of a name, which may be that of no context. -/
def contextOf (stores : Stores parts) (name : String) :
    Except LymailleError (Option parts.Context) :=
  if name.isEmpty then .ok none
  else (stores.getContext name).mapError fromCatalog

def resolveScope (sessions : Sessions SessionState) (caller : CallerPrincipal)
    (definition : AgentRecord) (session : SessionId) :
    Except LymailleError (SessionScope parts) := do
  let stores := deps.stores caller.subject
  let state := sessions.load caller.subject session
  let contextName := (state.map SessionState.context).getD ""
  let toolsets ← activeToolsets stores definition.toolsets
  let context ← contextOf stores contextName
  let bindings role := context.bind fun context =>
    parts.contextRoles context role
  match read : roleRequirements
      (fun name => (stores.getType name).mapError fromCatalog)
      parts.flatten toolsets with
  | .error error => .error error
  | .ok (required, optional) =>
      return { contextName, bindings, required, optional, context, toolsets
               disjoint := roleRequirements_disjoint _ _ read }

/-- What the roles of the session are mounted with. -/
def assembly (caller : CallerPrincipal) (session : SessionId)
    (apiKey : Option String) : Assembly :=
  { dbText := deps.dbText, host := deps.host, caller, session, apiKey
    moments := deps.moments }

def baseModules (caller : CallerPrincipal) :
    Except LymailleError (List (GrantedModule parts.toMcpParts)) := do
  let resources ←
    GrantedModule.grant "resources" (parts.resourcesModule caller.subject)
  return [resources]

def buildEngine (kind : SessionKind) (session : SessionId)
    (apiKey : Option String) (scope : SessionScope parts)
    (granted : List (GrantedModule parts.toMcpParts)) (token : Option String) :
    Except LymailleError parts.Engine := do
  let context ← (parts.resolveContext scope.context).mapError fromCatalog
  let grants ← (parts.assemble scope.toolsets granted context).mapError
    fun failure => .invalidDefinition ("toolset assembly failed: " ++ failure)
  let registration : Option ConfigEnv :=
    if kind = .config then
      some { redactor := configuredRedactor apiKey token, session }
    else none
  (parts.build grants registration).mapError
    fun error => .invalidDefinition ("engine build failed: " ++ error)

def toolsetVersions (toolsets : List Toolset) : List (String × String) :=
  toolsets.map fun toolset => (toolset.name, toolset.version)

/-- The stored state is restored on the engine; a session that is not stored
starts anew. -/
def restoreOrNew (sessions : Sessions SessionState) (caller : CallerPrincipal)
    (session : SessionId) (definition : AgentRecord) (toolsets : List Toolset)
    (engine : parts.Engine) : Except LymailleError (List String) :=
  match sessions.load caller.subject session with
  | some state =>
      (parts.restore state engine definition.fingerprint
        (toolsetVersions toolsets)).mapError Manager.fromSession
  | none => .ok []

/-- `assemble_with`: the notices of the session assembled. -/
def assembleWith (sessions : Sessions SessionState) (caller : CallerPrincipal)
    (kind : SessionKind) (agentId : String) (session : SessionId)
    (token : Option String) (reserved : List String) :
    Except LymailleError (List String) := do
  let resolved ← deps.resolveInference caller agentId reserved
  let scope ← deps.resolveScope sessions caller resolved.definition session
  let granted ← baseModules caller
  let (mounted, notices) ←
    ((deps.assembly caller session resolved.apiKey).mountMcpRoles
      parts.toMcpParts scope.toScope token kind).outcome
  let engine ← buildEngine kind session resolved.apiKey scope
    (granted ++ mounted) token
  let restored ← restoreOrNew sessions caller session resolved.definition
    scope.toolsets engine
  return notices ++ restored

/-- `assemble_session`. -/
def assembleSession (sessions : Sessions SessionState)
    (caller : CallerPrincipal) (kind : SessionKind) (agentId : String)
    (session : SessionId) (token : Option String) :
    Except LymailleError (List String) :=
  deps.assembleWith sessions caller kind agentId session token
    ADMIN_ONLY_MODULES

end AssembleDeps

end MiryadCore.Interactive
