import Mathlib.Data.Finset.Sort
import Mathlib.Data.String.Basic
import MiryadCore.Control.Logged
import MiryadCore.Definitions.McpAccess
import MiryadCore.Interactive.Manager

/-!
# The MCP clients of a session

A session that is assembled mounts a client for each role that its toolsets
require or may use.  The client of a role is made from the binding of the role,
and its module lists the tools of the server.
-/

namespace MiryadCore.Interactive

open Definitions (LymailleHost RoleBinding ServerRow Tables)

/-- What a client authenticates with: `SeaMcpAuth` or `SeaHostMcpAuth`. -/
inductive McpAuth where
  | static (authRef : String)
  | forward (token : String)
  | host (subject context role : String)
  deriving DecidableEq, Repr

inductive McpAuthMode where
  | none
  | static
  | forward
  deriving DecidableEq, Repr

/-- `FORWARD_NEEDS_SESSION`. -/
def forwardNeedsSession : String :=
  "forward auth needs an interactive session"

/-- Any other text of the column is no authentication. -/
def authMode : String → McpAuthMode
  | "static" => .static
  | "forward" => .forward
  | _ => .none

def buildAuth (model : ServerRow) (interactiveToken : Option String) :
    Except LymailleError (Option McpAuth) :=
  match authMode model.authMode with
  | .none => .ok none
  | .static =>
      match model.authRef with
      | some reference => .ok (some (.static reference))
      | none =>
          .error (.config "static mcp server auth requires an auth reference")
  | .forward =>
      match interactiveToken with
      | some token => .ok (some (.forward token))
      | none => .error (.forbidden forwardNeedsSession)

def defaultRequestTimeout : ℕ := 30

def defaultConnectTimeout : ℕ := 10

/-- The seconds of a column, which are not negative in a row of the hook. -/
def timeout (seconds : ℤ) : ℕ :=
  if 0 ≤ seconds then seconds.toNat else defaultRequestTimeout

/-- What `McpConnectorFactory::make` is given. -/
structure ClientArguments where
  url : String
  requestTimeout : ℕ
  connectTimeout : ℕ
  auth : Option McpAuth
  deriving DecidableEq, Repr

/-- What the module of a role is given besides its client: the secrets that
its redactor masks, and the session. -/
structure McpEnv where
  redactor : List String
  session : SessionId
  deriving DecidableEq, Repr

/-- The factory of the clients and the modules of `lymaille`.  `mcpModule`
lists the tools of the client, and fails with a text. -/
structure McpParts where
  Connector : Type
  Module : Type
  make : ClientArguments → Connector
  mcpModule : String → Connector → McpEnv → Except String Module
  validName : String → Bool

structure GrantedModule (parts : McpParts) where
  name : String
  module : parts.Module

/-- `GrantedModule::new`, and the error for a name that it does not take. -/
def GrantedModule.grant {parts : McpParts} (name : String)
    (module : parts.Module) : Except LymailleError (GrantedModule parts) :=
  if parts.validName name then .ok { name, module }
  else .error (.invalidDefinition ("invalid module name: " ++ name))

/-- What the assembly reads of a `lymaille::Toolset`: its own roles, each with
whether it is required, and the context types that it requires. -/
structure Toolset where
  name : String
  version : String
  roles : List (String × Bool)
  typeRequirements : List String
  deriving DecidableEq, Repr

/-- The roles of a type and of those that it extends. -/
structure FlatRoles where
  requiredRoles : List String
  optionalRoles : List String
  deriving DecidableEq, Repr

section Requirements

variable {Type' : Type} (getType : String → Except LymailleError (Option Type'))
  (flatten : (String → Option Type') → Type' → Option FlatRoles)

/-- The types that the names have, in the order of the names. -/
def typesOf : List String → Except LymailleError (List (String × Type'))
  | [] => .ok []
  | name :: names => do
      let found ← getType name
      let types ← typesOf names
      match found with
      | some type => .ok ((name, type) :: types)
      | none => .ok types

/-- The flat roles of the types that a toolset requires; a type that is absent
or incoherent has none. -/
def flatRoles (types : List (String × Type')) (toolset : Toolset) :
    List FlatRoles :=
  toolset.typeRequirements.filterMap fun name =>
    (types.lookup name).bind (flatten fun other => types.lookup other)

/-- `role_requirements`: a required role is not an optional one. -/
def roleRequirements (toolsets : List Toolset) :
    Except LymailleError (Finset String × Finset String) := do
  let own (needed : Bool) : Finset String :=
    ((toolsets.flatMap Toolset.roles).filter fun role =>
      role.2 = needed).map Prod.fst |>.toFinset
  let typeNames := (toolsets.flatMap Toolset.typeRequirements).toFinset
  let types ← typesOf getType typeNames.sort
  let flat := toolsets.flatMap (flatRoles flatten types)
  let required := own true ∪ (flat.flatMap FlatRoles.requiredRoles).toFinset
  let optional := own false ∪ (flat.flatMap FlatRoles.optionalRoles).toFinset
  return (required, optional.filter fun role => role ∉ required)

theorem roleRequirements_disjoint {toolsets : List Toolset}
    {required optional : Finset String}
    (read : roleRequirements getType flatten toolsets =
      .ok (required, optional)) : Disjoint required optional := by
  unfold roleRequirements at read
  obtain ⟨types, _, read⟩ := Drafts.ok_of_bind read
  cases read
  rw [Finset.disjoint_left]
  intro role needed chosen
  exact (Finset.mem_filter.mp chosen).2 needed

end Requirements

/-- What `mount_mcp_roles` reads of the scope: the bindings of the context and
the roles of the toolsets. -/
structure Scope where
  contextName : String
  bindings : String → Option String
  required : Finset String
  optional : Finset String
  disjoint : Disjoint required optional

/-- The roles in the order in which they are mounted. -/
def Scope.roles (scope : Scope) : List String :=
  scope.required.sort ++ scope.optional.sort

/-- The scope with one optional role less. -/
def Scope.without (scope : Scope) (role : String) : Scope :=
  { scope with
    optional := scope.optional.erase role
    disjoint := scope.disjoint.mono_right (Finset.erase_subset _ _) }

/-- What a role meets when its turn comes: the tables, the failures of their
statements, and the clock. -/
structure Moment where
  tables : Tables
  envs : ℕ → Users.Conditions
  now : ℕ

/-- What stays the same for all roles of an assembly. -/
structure Assembly where
  dbText : Users.DbErr → String
  host : Option LymailleHost
  caller : CallerPrincipal
  session : SessionId
  apiKey : Option String
  moments : String → Moment

/-- The secrets of `configured_redactor`. -/
def configuredRedactor (apiKey token : Option String) : List String :=
  apiKey.toList ++ token.toList

def omitted (role : String) : String :=
  "role " ++ role ++ " omitted: mcp server unavailable"

namespace Assembly

variable (assembly : Assembly) (parts : McpParts) (scope : Scope)
  (token : Option String)

/-- `resolve_role` for a role of the scope. -/
def resolve (role : String) : Except LymailleError RoleBinding :=
  let moment := assembly.moments role
  Definitions.answer moment.envs
    (Definitions.resolveRole assembly.dbText assembly.host moment.now
      assembly.caller scope.contextName role (scope.bindings role))
    moment.tables

/-- The arguments of the client for a binding. -/
def clientArguments (role : String) :
    RoleBinding → Except LymailleError ClientArguments
  | .host grant =>
      match assembly.host with
      | none => .error (.config "host binding without a host")
      | some _ => .ok
          { url := grant.url
            requestTimeout := defaultRequestTimeout
            connectTimeout := defaultConnectTimeout
            auth := some
              (.host assembly.caller.subject scope.contextName role) }
  | .table model => do
      let auth ← buildAuth model token
      return { url := model.url
               requestTimeout := timeout model.requestTimeoutSecs
               connectTimeout := timeout model.connectTimeoutSecs
               auth }

def mcpEnv : McpEnv where
  redactor := configuredRedactor assembly.apiKey token
  session := assembly.session

/-- The body of the loop for a role with a binding.  The events are the calls
of the factory. -/
def mountRole (role : String) (binding : RoleBinding) :
    Logged LymailleError (String × ClientArguments) (GrantedModule parts) := do
  let arguments ← Logged.lift (assembly.clientArguments scope token role binding)
  let connector ← Logged.emit (role, arguments) (.ok (parts.make arguments))
  let module ← Logged.lift
    ((parts.mcpModule role connector (assembly.mcpEnv token)).mapError .store)
  Logged.lift (GrantedModule.grant role module)

/-- The loop on the roles. -/
def mountRoles :
    List String → List (GrantedModule parts) → List String →
      Logged LymailleError (String × ClientArguments)
        (List (GrantedModule parts) × List String)
  | [], granted, notices => return (granted, notices)
  | role :: roles, granted, notices =>
      match assembly.resolve scope role with
      | .ok binding => do
          let module ← assembly.mountRole parts scope token role binding
          mountRoles roles (granted ++ [module]) notices
      | .error error =>
          if role ∈ scope.required then Logged.fail error
          else mountRoles roles granted (notices ++ [omitted role])

/-- `mount_mcp_roles`. -/
def mountMcpRoles (kind : SessionKind) :
    Logged LymailleError (String × ClientArguments)
      (List (GrantedModule parts) × List String) :=
  if kind = .config then return ([], [])
  else assembly.mountRoles parts scope token scope.roles [] []

end Assembly

end MiryadCore.Interactive
