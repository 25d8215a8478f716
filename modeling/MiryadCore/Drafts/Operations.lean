import MiryadCore.Drafts.Store

/-!
# Drafts of the toolsets

A draft is written or thrown away by its owner, or by an administrator for the
catalog, and promoted by an activation.
-/

namespace MiryadCore.Drafts

open Interactive

/-- A call as a script of its statements, which may end with an error. -/
abbrev Code (ε α : Type) : Type :=
  Query Statement (fun statement => Except String statement.Reply) ε α

/-- A statement of the stores of `lymaille`. -/
def query (statement : Statement) : Code ToolsetsError statement.Reply :=
  Query.askWith .store statement

/-- A statement of the host. -/
def demand (statement : Statement) : Code LymailleError statement.Reply :=
  Query.askWith .store statement

/-- `deny`: a refusal of the host goes through with its code. -/
def deny (error : LymailleError) : ToolsetsError :=
  .store error.display

/-- `Identity::resolve`. -/
def resolve (subject : String) : Code LymailleError CallerPrincipal := do
  let account ← demand (.account subject)
  match account with
  | none => Query.fail .unknownSubject
  | some userId =>
      let isAdmin ← demand (.admin userId)
      return { userId, subject, isAdmin }

def principal (subject : String) : Code ToolsetsError CallerPrincipal :=
  (resolve subject).mapError deny

/-- `DEFAULT_RENDER_CAP_CHARS`. -/
def defaultRenderCapChars : ℕ := 8000

def checkSkill (lymaille : Lymaille) (skill : Skill) :
    Except ToolsetsError Unit := do
  lymaille.checkSize skill defaultRenderCapChars
  lymaille.checkTemplate ("skill " ++ skill.name ++ " description")
    skill.description
  lymaille.checkTemplate ("skill " ++ skill.name ++ " body") skill.body

def checkToolset (lymaille : Lymaille) (toolset : lymaille.Toolset) :
    Except ToolsetsError Unit := do
  lymaille.extractContract (lymaille.source toolset)
  (lymaille.skills toolset).forM (checkSkill lymaille)

/-- The row of a toolset, if the host does not resolve it. -/
def toolsetKey (kind : IdKind) (caller : CallerPrincipal) (name : String) :
    Option Key :=
  match kind with
  | .catalog => some (.catalog name)
  | .private_ => some (.owned caller.userId name)
  | .host => none

/-- `SeaToolsetStore::write_draft`: the version follows the draft while no
version is active. -/
def writeDraft (lymaille : Lymaille) (toolset : lymaille.Toolset)
    (kind : IdKind) (caller : CallerPrincipal) : Code ToolsetsError Unit := do
  match lymaille.toValue toolset with
  | none => Query.fail (.store "toolset could not be serialized")
  | some value =>
      match toolsetKey kind caller (lymaille.name toolset) with
      | none =>
          Query.fail (deny (.forbidden "host identifiers are not writable"))
      | some key =>
          let active ← query (.probeActive key)
          if active.isSome then
            query (.setDraft key value)
          else
            query (.upsertDraft key (lymaille.version toolset) value)

/-- `SeaToolsetStore::put_draft`. -/
def putDraft (lymaille : Lymaille) (subject : String)
    (toolset : lymaille.Toolset) : Code ToolsetsError Unit := do
  Query.ofExcept (checkToolset lymaille toolset)
  let caller ← principal subject
  let kind ← Query.ofExcept
    ((checkWrite caller (lymaille.name toolset)).mapError deny)
  writeDraft lymaille toolset kind caller

/-- `lymaille::DraftKind`, which may grow. -/
inductive DraftKind where
  | toolset
  | contextType
  | other (name : String)
  deriving DecidableEq, Repr

/-- `SeaDraftStore::discard_draft`: a row with nothing left goes. -/
def discardDraft (key : Key) : Code ToolsetsError Bool := do
  let row ← query (.probeRow key)
  match row with
  | none => return false
  | some (_, none) => return false
  | some (some _, some _) =>
      query (.clearDraft key)
      return true
  | some (none, some _) =>
      query (.delete key)
      return true

/-- `require_type_admin`. -/
def requireAdmin (subject what : String) : Code ToolsetsError CallerPrincipal := do
  let caller ← principal subject
  if caller.isAdmin then return caller
  else Query.fail (deny (.forbidden (what ++ " requires admin")))

/-- `SeaDraftStore::delete_draft`. -/
def deleteDraft (subject : String) (kind : DraftKind) (name : String) :
    Code ToolsetsError Bool := do
  match kind with
  | .toolset =>
      let caller ← principal subject
      let kind ← Query.ofExcept ((checkWrite caller name).mapError deny)
      match toolsetKey kind caller name with
      | some key => discardDraft key
      | none =>
          Query.fail (deny (.forbidden "host identifiers are not writable"))
  | .contextType =>
      let _ ← requireAdmin subject "context type draft write"
      discardDraft (.type name)
  | .other kind => Query.fail (.store ("unsupported draft kind " ++ kind))

/-- `ADMIN_ONLY_MODULES`. -/
def adminOnlyModules : List String := []

def CATALOG_NEEDS_ADMIN : String := "catalog publication requires admin"

structure ActivationReport where
  name : String
  version : String
  previousVersion : Option String
  deriving DecidableEq, Repr

/-- `from_toolsets`. -/
def fromToolsets (lymaille : Lymaille) : ToolsetsError → LymailleError
  | .store text => .store text
  | other => .invalidDefinition (lymaille.display other)

/-- The row that an activation promotes. -/
def activationKey (caller : CallerPrincipal) (name : String) :
    Except LymailleError Key := do
  match ← classify name with
  | .host => .error (.forbidden "host identifiers are not activable")
  | .catalog =>
      if caller.isAdmin then return .catalog name
      else .error (.forbidden CATALOG_NEEDS_ADMIN)
  | .private_ => return .owned caller.userId name

/-- The modules that a draft grants. -/
def modulesOf (draft : Value) : List String :=
  match (draft.get? "modules").bind Value.asArray with
  | some entries => entries.filterMap Value.asString
  | none => []

/-- The version of a draft that may be promoted. -/
def checkDraft (lymaille : Lymaille) (caller : CallerPrincipal)
    (name : String) (draft : Value) (reserved : List String) :
    Except LymailleError String := do
  match lymaille.fromValue draft with
  | none =>
      .error (.invalidDefinition ("stored toolset " ++ name ++ " is unreadable"))
  | some toolset =>
      (checkToolset lymaille toolset).mapError (fromToolsets lymaille)
      checkGrants caller (modulesOf draft) reserved
      match versionOf draft with
      | some version => return version
      | none => .error (.invalidDefinition
          ("draft of toolset " ++ name ++ " carries no version"))

/-- The `?` in a transaction, which is dropped on the way out. -/
def orRollback {α : Type} (tx : ℕ) (code : Code LymailleError α) :
    Code LymailleError α := do
  match ← code.attempt with
  | .ok value => return value
  | .error error =>
      let _ ← (demand (.rollback tx)).attempt
      Query.fail error

def updatePromote (tx : ℕ) (key : Key) (name : String) (draft : Value)
    (version : String) : Code LymailleError Unit := do
  let affected ← demand (.promote tx key draft version)
  if affected = 0 then
    Query.fail (.store ("toolset " ++ name ++ " changed while activating"))
  else return ()

def clearDraft (tx : ℕ) (key : Key) (name : String) :
    Code LymailleError Unit := do
  let affected ← demand (.clearPromoted tx key)
  if affected = 0 then
    Query.fail
      (.store ("draft of toolset " ++ name ++ " vanished mid-transaction"))
  else return ()

/-- `active ← draft`, then `draft ← NULL`, in one transaction. -/
def promoteDraft (key : Key) (name : String) (draft : Value) (version : String)
    (failAfterActive : Bool) : Code LymailleError Unit := do
  let tx ← demand .begin
  orRollback tx (updatePromote tx key name draft version)
  orRollback tx
    (if failAfterActive then
      Query.fail (.store "simulated failure after promotion")
    else return ())
  orRollback tx (clearDraft tx key name)
  demand (.commit tx)

/-- `activate_with`. -/
def activateWith (lymaille : Lymaille) (caller : CallerPrincipal)
    (name : String) (reserved : List String) (failAfterActive : Bool) :
    Code LymailleError ActivationReport := do
  let key ← Query.ofExcept (activationKey caller name)
  let row ← demand (.readRow key)
  match row with
  | none => Query.fail (.notFound "no draft to activate")
  | some (none, _) => Query.fail (.notFound "no draft to activate")
  | some (some draft, version) =>
      let versionNew ← Query.ofExcept
        (checkDraft lymaille caller name draft reserved)
      let previousVersion := if version.isEmpty then none else some version
      promoteDraft key name draft versionNew failAfterActive
      return { name, version := versionNew, previousVersion }

/-- `activate_toolset`. -/
def activateToolset (lymaille : Lymaille) (caller : CallerPrincipal)
    (name : String) : Code LymailleError ActivationReport :=
  activateWith lymaille caller name adminOnlyModules false

end MiryadCore.Drafts
