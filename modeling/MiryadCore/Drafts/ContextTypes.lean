import MiryadCore.Drafts.Operations
import MiryadCore.Rest.Store

/-!
# Context types of the catalog

The rows of the context types are written by the routes of the resource, whose
hook derives the name and the version, and by two stores, each in its own way.
-/

namespace MiryadCore.Drafts

open Interactive
open Rest (AuthPrincipal HookError RestError)

/-- The context types of `lymaille`, as the calls use them. -/
structure ContextTypes where
  ContextType : Type
  /-- `serde_json::to_value` -/
  toValue : ContextType → Option Value
  /-- `serde_json::from_value`, or the text of its error -/
  fromValue : Value → Except String ContextType
  defaultAgent : ContextType → Option String

/-- The name that a stored form carries. -/
def nameOf (value : Value) : Option String :=
  (value.get? "name").bind Value.asString

/-- `stored_field`. -/
def storedField (value : Value) (field what : String) :
    Except ToolsetsError String :=
  match (value.get? field).bind Value.asString with
  | some text => .ok text
  | none => .error (.store ("stored " ++ what ++ " carries no " ++ field))

/-- `SeaContextTypeStore::put_type`. -/
def putType (types : ContextTypes) (subject : String)
    (contextType : types.ContextType) : Code ToolsetsError Unit := do
  let _ ← requireAdmin subject "context type write"
  match types.toValue contextType with
  | none => Query.fail (.store "context type could not be serialized")
  | some value =>
      let name ← Query.ofExcept (storedField value "name" "context type")
      let version ← Query.ofExcept (storedField value "version" "context type")
      match types.fromValue value with
      | .error _ =>
          Query.fail
            (.invalidContextType name "the stored form does not read back")
      | .ok _ => query (.upsertType name version value)

/-- `SeaDraftStore::put_type_draft`. -/
def putTypeDraft (types : ContextTypes) (subject : String)
    (contextType : types.ContextType) : Code ToolsetsError Unit := do
  let _ ← requireAdmin subject "context type draft write"
  match types.toValue contextType with
  | none => Query.fail (.store "context type could not be serialized")
  | some value =>
      let name ← Query.ofExcept (storedField value "name" "context type")
      let version ← Query.ofExcept (storedField value "version" "context type")
      query (.upsertTypeDraft name version value)

/-- `sea_orm::ActiveValue`. -/
inductive ActiveValue (α : Type) where
  | set (value : α)
  | unchanged (value : α)
  | notSet

def ActiveValue.value? {α : Type} : ActiveValue α → Option α
  | .set value => some value
  | .unchanged value => some value
  | .notSet => none

structure ActiveModel where
  id : ActiveValue ℤ
  name : ActiveValue String
  version : ActiveValue String
  allowedAgents : ActiveValue Value
  active : ActiveValue (Option Value)
  draft : ActiveValue (Option Value)

def hookError (message : String) : HookError :=
  { code := none, message }

/-- `version_presents`. -/
def versionPresents (column : ActiveValue (Option Value)) : Option Value :=
  (column.value?.join).filter fun version => version ≠ .null

/-- `charger`. -/
def charger (types : ContextTypes) (brute : Value) :
    Except HookError types.ContextType :=
  (types.fromValue brute).mapError fun cause =>
    hookError ("invalid context type: " ++ cause)

/-- `champ_texte`. -/
def champTexte (brute : Value) (champ : String) : Except HookError String :=
  match (brute.get? champ).bind Value.asString with
  | some text => .ok text
  | none => .error (hookError
      ("invalid context type: no `" ++ champ ++ "` in the stored form"))

/-- `liste_autorisee`. -/
def listeAutorisee (active : ActiveModel) : Except HookError (List String) :=
  match active.allowedAgents.value?.bind Value.asArray with
  | some agents =>
      if agents.all fun agent => agent.asString.isSome then
        .ok (agents.filterMap Value.asString)
      else .error (hookError
        "context type allowed agents must be an array of agent names")
  | none => .error (hookError
      "context type allowed agents must be an array of agent names")

/-- A version that is present reads back, and its default agent is allowed. -/
def checkVersion (types : ContextTypes) (autorises : List String)
    (brute : Value) : Except HookError Unit := do
  let typeValide ← charger types brute
  match types.defaultAgent typeValide with
  | none => return ()
  | some defaut =>
      if defaut ∈ autorises then return ()
      else .error (hookError
        "context type default agent must be in the allowed agents")

/-- `valider_et_deriver`: the name and the version are those of the active
version, or else of the draft. -/
def validerEtDeriver (types : ContextTypes) (active : ActiveModel)
    (existing : Option String) : Except HookError ActiveModel := do
  let bruteActive := versionPresents active.active
  let bruteDraft := versionPresents active.draft
  match bruteActive.or bruteDraft with
  | none =>
      .error (hookError "a context type needs an active version or a draft")
  | some brute =>
      let autorises ← listeAutorisee active
      let name ← champTexte brute "name"
      match classify name with
      | .ok .catalog =>
          (bruteActive.toList ++ bruteDraft.toList).forM
            (checkVersion types autorises)
          let version ← champTexte brute "version"
          match existing with
          | some ligne =>
              if name ≠ ligne then
                .error (hookError "context type name cannot change")
              else
                return { active with name := .set name, version := .set version }
          | none =>
              return { active with name := .set name, version := .set version }
      | _ =>
          .error (hookError "context type name must start with G_ (catalog)")

/-- A body: a version that is absent is a null, which is read as `None`. -/
structure Body where
  id : ℤ
  name : String
  version : String
  allowedAgents : Value
  active : Value
  draft : Value

/-- `Option<serde_json::Value>` as it is read from JSON. -/
def optionOf : Value → Option Value
  | .null => none
  | value => some value

/-- The active model of a body, all of whose columns are set. -/
def Body.activeModel (body : Body) : ActiveModel :=
  { id := .set body.id, name := .set body.name, version := .set body.version
    allowedAgents := .set body.allowedAgents
    active := .set (optionOf body.active), draft := .set (optionOf body.draft) }

/-- The name and the columns that an active model writes, if none is missing. -/
def ActiveModel.row? (active : ActiveModel) : Option (String × Row) := do
  let name ← active.name.value?
  let version ← active.version.value?
  let allowedAgents ← active.allowedAgents.value?
  let versionActive ← active.active.value?
  let draft ← active.draft.value?
  return (name, { id := 0, version, allowedAgents, active := versionActive
                  draft })

/-- A statement of a route. -/
def request (statement : Statement) : Code RestError statement.Reply :=
  Query.askWith (fun text => .database (.other text)) statement

/-- The text of an update that matched no row. -/
def recordNotUpdated : String := "none of the records are updated"

/-- A row that has disappeared is not found. -/
def updateError (text : String) : RestError :=
  if text = recordNotUpdated then .notFound else .database (.other text)

def rewriteType (id : ℤ) (name : String) (row : Row) : Code RestError Unit :=
  Query.askWith updateError (Statement.updateType id name row)

/-- The caller must be an administrator, as the write policy says. -/
def writePolicy (principal : AuthPrincipal) : Code RestError Unit := do
  let userId ← request (.resolveUser principal.subject)
  let isAdmin ← request (.admin userId)
  if isAdmin then return () else Query.fail .forbidden

def ofHook {α : Type} (result : Except HookError α) : Code RestError α :=
  Query.ofExcept (result.mapError .application)

/-- The columns of a statement, of which none may be missing. -/
def columns (active : ActiveModel) : Code RestError (String × Row) :=
  match active.row? with
  | some row => pure row
  | none => Query.fail (.database (.other "null value in a column"))

/-- `core::create` on the context types. -/
def create (types : ContextTypes) (principal : AuthPrincipal) (body : Body) :
    Code RestError Unit := do
  writePolicy principal
  let active ← ofHook (validerEtDeriver types body.activeModel none)
  let (name, row) ← columns active
  request (.insertType name row)

/-- `core::update` on the context types. -/
def update (types : ContextTypes) (principal : AuthPrincipal) (id : ℤ)
    (body : Body) : Code RestError Unit := do
  writePolicy principal
  let existing ← request (.findType id)
  match existing with
  | none => Query.fail .notFound
  | some (ligne, _) =>
      let active ← ofHook (validerEtDeriver types body.activeModel (some ligne))
      let (name, row) ← columns active
      rewriteType id name row

end MiryadCore.Drafts
