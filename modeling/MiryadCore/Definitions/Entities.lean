import MiryadCore.Definitions.ContextHooks
import MiryadCore.Definitions.McpServers
import MiryadCore.Json.Parse
import MiryadCore.Rest.Core
import MiryadCore.Users.NameResolution

/-!
# The ten definition entities

Each entity is a resource with its columns, its policies and its hooks.  Nine
hooks follow one course: they read a source in the body, check its name, and
derive columns from it.  The hook of the MCP servers derives nothing.
-/

namespace MiryadCore.Definitions

open Drafts (hookError)
open Interactive (classify)
open Rest (ActiveModel ActiveValue AuthPrincipal ColumnType HookError Hooks
  Model Resource Schema SeaValue)

/-- The column type of `serde_json::Value`. -/
def jsonType : ColumnType :=
  .other "json"

/-- The column type of `DateTimeUtc`. -/
def timestampType : ColumnType :=
  .other "timestamp with time zone"

def ofText (text : String) : SeaValue :=
  .string (some text)

def asText : SeaValue → Option String
  | .string text => text
  | _ => none

def asOptText : SeaValue → Option (Option String)
  | .string text => some text
  | _ => none

def asInt : SeaValue → Option ℤ
  | .int value => value
  | _ => none

/-- A JSON column holds the text of its value. -/
def asJson : SeaValue → Option Value
  | .other "json" (some text) => Json.parse text.toList
  | _ => none

def asOptJson : SeaValue → Option (Option Value)
  | .other "json" none => some none
  | .other "json" (some text) => (Json.parse text.toList).map some
  | _ => none

/-- The column as its type has it. -/
def typed {α : Type} (read : SeaValue → Option α) :
    ActiveValue → Drafts.ActiveValue α
  | .set value => (read value).elim .notSet .set
  | .unchanged value => (read value).elim .notSet .unchanged
  | .notSet => .notSet

/-- The object that a JSON column holds. -/
def objet (column : ActiveValue) : Option Value :=
  (column.intoValue.bind asJson).filter fun value => value.asObject.isSome

/-- The parts of the library `lymaille` that the hooks use. -/
structure Library where
  lymaille : Drafts.Lymaille
  /-- The text of the error of a value that is no toolset. -/
  toolsetCause : Value → String
  types : Drafts.ContextTypes
  contexts : ToolsetContexts
  AgentDefinition : Type
  agentFromValue : Value → Except String AgentDefinition
  agentValidate : AgentDefinition → Except String Unit
  agentId : AgentDefinition → String
  /-- `serde_json::to_value` of the kind, if it is a string. -/
  agentKind : AgentDefinition → Option String
  agentProfile : AgentDefinition → String
  ModelProfile : Type
  profileFromValue : Value → Except String ModelProfile
  profileName : ModelProfile → String
  Provider : Type
  providerFromValue : Value → Option Provider
  providerName : Provider → String
  providerKind : Provider → String
  /-- `serde_json::to_value` of the level, if it is a string. -/
  providerLevel : Provider → Option String

/-- What a hook reads of a body, and the columns that it derives. -/
structure Rules (Column : Type) where
  Source : Type
  lire : ActiveModel Column → Except HookError Source
  nom : Source → String
  identifiant : Column
  /-- The refusal of another name. -/
  renomme : String
  derivees : List Column
  deriver : Source → Except HookError (Column → SeaValue)
  createdAt : Column
  /-- Whether an update writes the instant of creation of the row. -/
  conserve : Bool
  separate : createdAt ≠ identifiant ∧ createdAt ∉ derivees

section Course

variable {Column : Type} [DecidableEq Column]

/-- A row that is created without an instant of creation takes the present. -/
def dater (createdAt : Column) (now : SeaValue) (active : ActiveModel Column) :
    ActiveModel Column :=
  match active createdAt with
  | .notSet => Function.update active createdAt (.set now)
  | _ => active

/-- The columns that a name and a source give. -/
def Rules.ecrire (rules : Rules Column) (nom : String)
    (valeurs : Column → SeaValue) (active : ActiveModel Column) :
    ActiveModel Column :=
  fun column =>
    if column = rules.identifiant then .set (ofText nom)
    else if column ∈ rules.derivees then .set (valeurs column)
    else active column

/-- `valider_et_deriver`, at the instant `now`. -/
def Rules.validerEtDeriver (rules : Rules Column) (now : SeaValue)
    (active : ActiveModel Column) (existing : Option (Model Column)) :
    Except HookError (ActiveModel Column) := do
  let source ← rules.lire active
  let nom := rules.nom source
  match existing with
  | none =>
      let valeurs ← rules.deriver source
      return dater rules.createdAt now (rules.ecrire nom valeurs active)
  | some ligne =>
      if ligne rules.identifiant ≠ ofText nom then
        .error (hookError rules.renomme)
      else
        let valeurs ← rules.deriver source
        let active := rules.ecrire nom valeurs active
        if rules.conserve then
          return Function.update active rules.createdAt
            (.set (ligne rules.createdAt))
        else return active

/-- The hooks of an entity that overrides no deletion. -/
def hooksOf (valider : ActiveModel Column → Option (Model Column) →
    Except HookError (ActiveModel Column)) : Hooks Column where
  beforeCreate active _ := valider active none
  beforeUpdate active existing _ := valider active (some existing)
  beforeDelete _ _ := .ok ()

def Rules.hooks (rules : Rules Column) (now : SeaValue) : Hooks Column :=
  hooksOf (rules.validerEtDeriver now)

end Course

/-- An identifier of the catalog, or the refusal. -/
def verifierCatalogue (refus : String) (nom : String) :
    Except HookError Unit :=
  match classify nom with
  | .ok .catalog => .ok ()
  | _ => .error (hookError refus)

/-- `verifier_identifiant`: a private identifier, or the refusal of its
prefix. -/
def verifierPrive (label : String) (nom : String) : Except HookError Unit :=
  match classify nom with
  | .ok .private_ => .ok ()
  | .ok .catalog =>
      .error (hookError (label ++ " cannot use the catalog prefix"))
  | .ok .host => .error (hookError (label ++ " cannot use the host prefix"))
  | .error (.reservedPrefix identifiant) =>
      match identifiant.toList with
      | 'g' :: '_' :: _ | 'G' :: '_' :: _ =>
          .error (hookError (label ++ " cannot use the catalog prefix"))
      | _ => .error (hookError (label ++ " cannot use the host prefix"))
  | .error _ => .error (hookError ("invalid " ++ label))

/-- The definition that a column holds, checked. -/
def definitionDe (library : Library) (column : ActiveValue) :
    Except HookError library.AgentDefinition :=
  match objet column with
  | none => .error (hookError "agent definition is required")
  | some brute => do
      let invalide := fun cause : String =>
        hookError ("invalid agent definition: " ++ cause)
      let definition ← (library.agentFromValue brute).mapError invalide
      (library.agentValidate definition).mapError invalide
      return definition

/-- What `lire` returns, when its name passes the check. -/
def verifie {Source : Type} (nom : Source → String)
    (verifier : String → Except HookError Unit) (source : Source) :
    Except HookError Source := do
  verifier (nom source)
  return source

namespace Agent

inductive Column where
  | id
  | agentId
  | kind
  | profile
  | definition
  | createdAt
  deriving DecidableEq, Repr

instance : Fintype Column where
  elems := {.id, .agentId, .kind, .profile, .definition, .createdAt}
  complete column := by
    cases column
    all_goals decide

def columnType : Column → ColumnType
  | .id => .integer
  | .agentId | .kind | .profile => .string
  | .definition => jsonType
  | .createdAt => timestampType

def rules (library : Library) : Rules Column where
  Source := library.AgentDefinition
  lire active := do
    let definition ← definitionDe library (active .definition)
    verifie library.agentId
      (verifierCatalogue "agent id must start with G_ (catalog)") definition
  nom := library.agentId
  identifiant := .agentId
  renomme := "agent id cannot change"
  derivees := [.kind, .profile]
  deriver definition :=
    match library.agentKind definition with
    | none => .error (hookError "invalid agent definition")
    | some nature => .ok fun column =>
        if column = .kind then ofText nature
        else ofText (library.agentProfile definition)
  createdAt := .createdAt
  conserve := true
  separate := by decide

def resource (library : Library) (now : SeaValue) : Resource Column where
  primaryKey := .id
  columnType := columnType
  keyInteger := rfl
  uniques := [[.agentId]]
  resourceName := "lymaille_catalog_agents"
  readPolicy := .publicAccess
  writePolicy := .adminOnly
  ownerColumn := none
  filterColumn := some .kind
  labelColumn := some .agentId
  hooks := (rules library).hooks now

end Agent

namespace PrivateAgent

inductive Column where
  | id
  | ownerId
  | agentId
  | kind
  | profile
  | definition
  | createdAt
  deriving DecidableEq, Repr

instance : Fintype Column where
  elems := {.id, .ownerId, .agentId, .kind, .profile, .definition, .createdAt}
  complete column := by
    cases column
    all_goals decide

def columnType : Column → ColumnType
  | .id | .ownerId => .integer
  | .agentId | .kind | .profile => .string
  | .definition => jsonType
  | .createdAt => timestampType

def rules (library : Library) : Rules Column where
  Source := library.AgentDefinition
  lire active := do
    let definition ← definitionDe library (active .definition)
    verifie library.agentId (verifierPrive "agent id") definition
  nom := library.agentId
  identifiant := .agentId
  renomme := "agent id cannot change"
  derivees := [.kind, .profile]
  deriver definition :=
    match library.agentKind definition with
    | none => .error (hookError "invalid agent definition")
    | some nature => .ok fun column =>
        if column = .kind then ofText nature
        else ofText (library.agentProfile definition)
  createdAt := .createdAt
  conserve := true
  separate := by decide

def resource (library : Library) (now : SeaValue) : Resource Column where
  primaryKey := .id
  columnType := columnType
  keyInteger := rfl
  uniques := [[.ownerId, .agentId]]
  resourceName := "lymaille_agents"
  readPolicy := .ownerOnly
  writePolicy := .ownerOnly
  ownerColumn := some .ownerId
  filterColumn := some .kind
  labelColumn := some .agentId
  hooks := (rules library).hooks now

end PrivateAgent

/-- `charger`: a version that reads back and that passes `check_toolset`. -/
def chargerToolset (library : Library) (brute : Value) :
    Except HookError library.lymaille.Toolset :=
  match library.lymaille.fromValue brute with
  | none => .error (hookError ("invalid toolset: " ++ library.toolsetCause brute))
  | some toolset => do
      (Drafts.checkToolset library.lymaille toolset).mapError fun cause =>
        hookError ("invalid toolset: " ++ library.lymaille.display cause)
      return toolset

/-- The version that a row refers to: the active one, or else the draft.  Both
carry the same name. -/
def versionDe (library : Library) (active draft : ActiveValue) :
    Except HookError library.lymaille.Toolset := do
  let bruteActive := Drafts.versionPresents (typed asOptJson active)
  let bruteDraft := Drafts.versionPresents (typed asOptJson draft)
  let activeChargee ← bruteActive.mapM (chargerToolset library)
  let draftCharge ← bruteDraft.mapM (chargerToolset library)
  match activeChargee, draftCharge with
  | none, none =>
      .error (hookError "a toolset needs an active version or a draft")
  | some active, none => return active
  | none, some draft => return draft
  | some active, some draft =>
      if library.lymaille.name active ≠ library.lymaille.name draft then
        .error (hookError
          "the active and draft versions must carry the same name")
      else return active

namespace Toolset

inductive Column where
  | id
  | toolsetId
  | version
  | active
  | draft
  | createdAt
  deriving DecidableEq, Repr

instance : Fintype Column where
  elems := {.id, .toolsetId, .version, .active, .draft, .createdAt}
  complete column := by
    cases column
    all_goals decide

def columnType : Column → ColumnType
  | .id => .integer
  | .toolsetId | .version => .string
  | .active | .draft => jsonType
  | .createdAt => timestampType

def rules (library : Library) : Rules Column where
  Source := library.lymaille.Toolset
  lire active := do
    let reference ← versionDe library (active .active) (active .draft)
    verifie library.lymaille.name
      (verifierCatalogue "toolset id must start with G_ (catalog)") reference
  nom := library.lymaille.name
  identifiant := .toolsetId
  renomme := "toolset id cannot change"
  derivees := [.version]
  deriver reference :=
    .ok fun _ => ofText (library.lymaille.version reference)
  createdAt := .createdAt
  conserve := false
  separate := by decide

def resource (library : Library) (now : SeaValue) : Resource Column where
  primaryKey := .id
  columnType := columnType
  keyInteger := rfl
  uniques := [[.toolsetId]]
  resourceName := "lymaille_catalog_toolsets"
  readPolicy := .publicAccess
  writePolicy := .adminOnly
  ownerColumn := none
  filterColumn := none
  labelColumn := some .toolsetId
  hooks := (rules library).hooks now

end Toolset

namespace PrivateToolset

inductive Column where
  | id
  | ownerId
  | toolsetId
  | version
  | active
  | draft
  | createdAt
  deriving DecidableEq, Repr

instance : Fintype Column where
  elems := {.id, .ownerId, .toolsetId, .version, .active, .draft, .createdAt}
  complete column := by
    cases column
    all_goals decide

def columnType : Column → ColumnType
  | .id | .ownerId => .integer
  | .toolsetId | .version => .string
  | .active | .draft => jsonType
  | .createdAt => timestampType

def rules (library : Library) : Rules Column where
  Source := library.lymaille.Toolset
  lire active := do
    let reference ← versionDe library (active .active) (active .draft)
    verifie library.lymaille.name (verifierPrive "toolset id") reference
  nom := library.lymaille.name
  identifiant := .toolsetId
  renomme := "toolset id cannot change"
  derivees := [.version]
  deriver reference :=
    .ok fun _ => ofText (library.lymaille.version reference)
  createdAt := .createdAt
  conserve := false
  separate := by decide

def resource (library : Library) (now : SeaValue) : Resource Column where
  primaryKey := .id
  columnType := columnType
  keyInteger := rfl
  uniques := [[.ownerId, .toolsetId]]
  resourceName := "lymaille_toolsets"
  readPolicy := .ownerOnly
  writePolicy := .ownerOnly
  ownerColumn := some .ownerId
  filterColumn := none
  labelColumn := some .toolsetId
  hooks := (rules library).hooks now

end PrivateToolset

namespace Profile

inductive Column where
  | id
  | name
  | profile
  | createdAt
  deriving DecidableEq, Repr

instance : Fintype Column where
  elems := {.id, .name, .profile, .createdAt}
  complete column := by
    cases column
    all_goals decide

def columnType : Column → ColumnType
  | .id => .integer
  | .name => .string
  | .profile => jsonType
  | .createdAt => timestampType

def lire (library : Library) (active : ActiveModel Column) :
    Except HookError library.ModelProfile :=
  match objet (active .profile) with
  | none => .error (hookError "profile is required")
  | some brute => do
      let profil ← (library.profileFromValue brute).mapError fun cause =>
        hookError ("invalid profile: " ++ cause)
      if Users.isBlank (library.profileName profil) then
        .error (hookError "invalid profile: the name is empty")
      else return profil

def rules (library : Library) : Rules Column where
  Source := library.ModelProfile
  lire := lire library
  nom := library.profileName
  identifiant := .name
  renomme := "profile name cannot change"
  derivees := []
  deriver _ := .ok fun _ => ofText ""
  createdAt := .createdAt
  conserve := false
  separate := by decide

def resource (library : Library) (now : SeaValue) : Resource Column where
  primaryKey := .id
  columnType := columnType
  keyInteger := rfl
  uniques := [[.name]]
  resourceName := "lymaille_profiles"
  readPolicy := .publicAccess
  writePolicy := .adminOnly
  ownerColumn := none
  filterColumn := none
  labelColumn := some .name
  hooks := (rules library).hooks now

end Profile

namespace Provider

inductive Column where
  | id
  | name
  | kind
  | level
  | provider
  | createdAt
  deriving DecidableEq, Repr

instance : Fintype Column where
  elems := {.id, .name, .kind, .level, .provider, .createdAt}
  complete column := by
    cases column
    all_goals decide

def columnType : Column → ColumnType
  | .id => .integer
  | .name | .kind | .level => .string
  | .provider => jsonType
  | .createdAt => timestampType

/-- The provider and its level. -/
def lire (library : Library) (active : ActiveModel Column) :
    Except HookError (library.Provider × String) :=
  match objet (active .provider) with
  | none => .error (hookError "provider is required")
  | some brute =>
      match library.providerFromValue brute with
      | none => .error (hookError "invalid provider")
      | some moteur =>
          match library.providerLevel moteur with
          | none => .error (hookError "invalid provider")
          | some niveau => .ok (moteur, niveau)

def rules (library : Library) : Rules Column where
  Source := library.Provider × String
  lire := lire library
  nom source := library.providerName source.1
  identifiant := .name
  renomme := "provider name cannot change"
  derivees := [.kind, .level]
  deriver source := .ok fun column =>
    if column = .kind then ofText (library.providerKind source.1)
    else ofText source.2
  createdAt := .createdAt
  conserve := false
  separate := by decide

def resource (library : Library) (now : SeaValue) : Resource Column where
  primaryKey := .id
  columnType := columnType
  keyInteger := rfl
  uniques := [[.name]]
  resourceName := "lymaille_providers"
  readPolicy := .adminOnly
  writePolicy := .adminOnly
  ownerColumn := none
  filterColumn := none
  labelColumn := some .name
  hooks := (rules library).hooks now

end Provider

namespace ContextType

inductive Column where
  | id
  | name
  | version
  | allowedAgents
  | active
  | draft
  | createdAt
  deriving DecidableEq, Repr

instance : Fintype Column where
  elems := {.id, .name, .version, .allowedAgents, .active, .draft, .createdAt}
  complete column := by
    cases column
    all_goals decide

def columnType : Column → ColumnType
  | .id => .integer
  | .name | .version => .string
  | .allowedAgents | .active | .draft => jsonType
  | .createdAt => timestampType

def model (active : ActiveModel Column) : Drafts.ActiveModel where
  id := typed asInt (active .id)
  name := typed asText (active .name)
  version := typed asText (active .version)
  allowedAgents := typed asJson (active .allowedAgents)
  active := typed asOptJson (active .active)
  draft := typed asOptJson (active .draft)

/-- The check of a name that changes comes last. -/
def rules (library : Library) : Rules Column where
  Source := Drafts.ActiveModel
  lire active := Drafts.validerEtDeriver library.types (model active) none
  nom source := source.name.value?.getD ""
  identifiant := .name
  renomme := "context type name cannot change"
  derivees := [.version]
  deriver source := .ok fun _ => ofText (source.version.value?.getD "")
  createdAt := .createdAt
  conserve := false
  separate := by decide

def resource (library : Library) (now : SeaValue) : Resource Column where
  primaryKey := .id
  columnType := columnType
  keyInteger := rfl
  uniques := [[.name]]
  resourceName := "lymaille_catalog_context_types"
  readPolicy := .publicAccess
  writePolicy := .adminOnly
  ownerColumn := none
  filterColumn := none
  labelColumn := some .name
  hooks := (rules library).hooks now

end ContextType

/-- The name and the columns of a context, whose reference to a type is
checked after the name. -/
def lireContexte (library : Library) (rules : ContextRules)
    (name context contextType : ActiveValue) :
    Except HookError (String × ContextModel) := do
  let model : ContextModel :=
    { name := typed asText name, context := typed asJson context
      contextType := typed asOptText contextType, createdAt := .notSet }
  let nom ← nomDerive library.contexts rules model
  return (nom, model)

namespace CatalogContext

inductive Column where
  | id
  | name
  | context
  | contextType
  | createdAt
  deriving DecidableEq, Repr

instance : Fintype Column where
  elems := {.id, .name, .context, .contextType, .createdAt}
  complete column := by
    cases column
    all_goals decide

def columnType : Column → ColumnType
  | .id => .integer
  | .name | .contextType => .string
  | .context => jsonType
  | .createdAt => timestampType

def columnRules (library : Library) : Rules Column where
  Source := String × ContextModel
  lire active := lireContexte library rules (active .name) (active .context)
    (active .contextType)
  nom := Prod.fst
  identifiant := .name
  renomme := "catalog context name cannot change"
  derivees := []
  deriver source := do
    verifierReference rules source.2
    return fun _ => ofText ""
  createdAt := .createdAt
  conserve := true
  separate := by decide

def resource (library : Library) (now : SeaValue) : Resource Column where
  primaryKey := .id
  columnType := columnType
  keyInteger := rfl
  uniques := [[.name]]
  resourceName := "lymaille_catalog_contexts"
  readPolicy := .publicAccess
  writePolicy := .adminOnly
  ownerColumn := none
  filterColumn := none
  labelColumn := some .name
  hooks := (columnRules library).hooks now

end CatalogContext

namespace UserContext

inductive Column where
  | id
  | ownerId
  | name
  | context
  | contextType
  | createdAt
  deriving DecidableEq, Repr

instance : Fintype Column where
  elems := {.id, .ownerId, .name, .context, .contextType, .createdAt}
  complete column := by
    cases column
    all_goals decide

def columnType : Column → ColumnType
  | .id | .ownerId => .integer
  | .name | .contextType => .string
  | .context => jsonType
  | .createdAt => timestampType

def columnRules (library : Library) : Rules Column where
  Source := String × ContextModel
  lire active := lireContexte library rules (active .name) (active .context)
    (active .contextType)
  nom := Prod.fst
  identifiant := .name
  renomme := "user context name cannot change"
  derivees := []
  deriver source := do
    verifierReference rules source.2
    return fun _ => ofText ""
  createdAt := .createdAt
  conserve := true
  separate := by decide

def resource (library : Library) (now : SeaValue) : Resource Column where
  primaryKey := .id
  columnType := columnType
  keyInteger := rfl
  uniques := [[.ownerId, .name]]
  resourceName := "lymaille_contexts"
  readPolicy := .ownerOnly
  writePolicy := .ownerOnly
  ownerColumn := some .ownerId
  filterColumn := none
  labelColumn := some .name
  hooks := (columnRules library).hooks now

end UserContext

namespace McpServer

inductive Column where
  | id
  | name
  | url
  | requestTimeoutSecs
  | connectTimeoutSecs
  | authMode
  | authRef
  | allowedGroups
  | createdAt
  deriving DecidableEq, Repr

instance : Fintype Column where
  elems := {.id, .name, .url, .requestTimeoutSecs, .connectTimeoutSecs,
    .authMode, .authRef, .allowedGroups, .createdAt}
  complete column := by
    cases column
    all_goals decide

def columnType : Column → ColumnType
  | .id | .requestTimeoutSecs | .connectTimeoutSecs => .integer
  | .name | .url | .authMode | .authRef => .string
  | .allowedGroups => jsonType
  | .createdAt => timestampType

def model (active : ActiveModel Column) : ServerModel where
  name := typed asText (active .name)
  url := typed asText (active .url)
  requestTimeoutSecs := typed asInt (active .requestTimeoutSecs)
  connectTimeoutSecs := typed asInt (active .connectTimeoutSecs)
  authMode := typed asText (active .authMode)
  authRef := typed asOptText (active .authRef)
  allowedGroups := typed asJson (active .allowedGroups)
  createdAt := .notSet

/-- `valider`, at the instant `now`: the name is that of the row. -/
def valider (now : SeaValue) (active : ActiveModel Column)
    (existing : Option (Model Column)) :
    Except HookError (ActiveModel Column) := do
  verifier (model active)
  match existing with
  | none => return dater .createdAt now active
  | some ligne =>
      exiger ((active .name).intoValue = some (ligne .name))
        "mcp server name cannot change"
      return Function.update active .createdAt (.set (ligne .createdAt))

def resource (now : SeaValue) : Resource Column where
  primaryKey := .id
  columnType := columnType
  keyInteger := rfl
  uniques := [[.name]]
  resourceName := "lymaille_mcp_servers"
  readPolicy := .adminOnly
  writePolicy := .adminOnly
  ownerColumn := none
  filterColumn := some .authMode
  labelColumn := some .name
  hooks := hooksOf (valider now)

end McpServer

inductive Entity where
  | agent
  | privateAgent
  | toolset
  | privateToolset
  | profile
  | provider
  | contextType
  | catalogContext
  | userContext
  | mcpServer
  deriving DecidableEq, Repr

@[reducible]
def Entity.Column : Entity → Type
  | .agent => Agent.Column
  | .privateAgent => PrivateAgent.Column
  | .toolset => Toolset.Column
  | .privateToolset => PrivateToolset.Column
  | .profile => Profile.Column
  | .provider => Provider.Column
  | .contextType => ContextType.Column
  | .catalogContext => CatalogContext.Column
  | .userContext => UserContext.Column
  | .mcpServer => McpServer.Column

instance (entity : Entity) : DecidableEq entity.Column := by
  cases entity
  all_goals exact inferInstance

instance (entity : Entity) : Fintype entity.Column := by
  cases entity
  all_goals exact inferInstance

def Entity.resource (library : Library) (now : SeaValue) :
    (entity : Entity) → Resource entity.Column
  | .agent => Agent.resource library now
  | .privateAgent => PrivateAgent.resource library now
  | .toolset => Toolset.resource library now
  | .privateToolset => PrivateToolset.resource library now
  | .profile => Profile.resource library now
  | .provider => Provider.resource library now
  | .contextType => ContextType.resource library now
  | .catalogContext => CatalogContext.resource library now
  | .userContext => UserContext.resource library now
  | .mcpServer => McpServer.resource now

end MiryadCore.Definitions
