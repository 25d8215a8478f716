import MiryadCore.Drafts.ContextTypes

/-!
# The hooks of the contexts

A context, private or of the catalog, is checked and its name derived before
its row is written.  The two hooks are one check with different rules.
-/

namespace MiryadCore.Definitions

open Interactive
open Drafts (ActiveValue hookError)
open Rest (HookError)

/-- The contexts of `lymaille`, as the calls use them. -/
structure ToolsetContexts where
  ToolsetContext : Type
  /-- `serde_json::to_value` -/
  toValue : ToolsetContext → Option Value
  /-- `serde_json::from_value`, or the text of its error -/
  fromValue : Value → Except String ToolsetContext

/-- The columns of a context that its hook reads or writes. -/
structure ContextModel where
  name : ActiveValue String
  context : ActiveValue Value
  contextType : ActiveValue (Option String)
  createdAt : ActiveValue ℕ

/-- The row that an update finds. -/
structure ContextRow where
  name : String
  createdAt : ℕ

/-- What the two hooks do not have in common. -/
structure ContextRules where
  label : String
  niveau : String
  verifierNom : String → Except HookError Unit

/-- `champ_texte`. -/
def champTexte (label : String) (brute : Value) (champ : String) :
    Except HookError String :=
  match (brute.get? champ).bind Value.asString with
  | some text => .ok text
  | none => .error (hookError
      ("invalid " ++ label ++ ": no `" ++ champ ++ "` in the stored form"))

/-- `str::contains`. -/
def contains (text part : String) : Bool :=
  decide (part.toList <:+: text.toList)

/-- `charger`: a secret is not cited. -/
def charger (contexts : ToolsetContexts) (label : String) (brute : Value) :
    Except HookError Unit :=
  match contexts.fromValue brute with
  | .ok _ => .ok ()
  | .error cause =>
      if contains cause "looks like a secret" then
        .error (hookError (label ++ " holds a secret-like value"))
      else .error (hookError ("invalid " ++ label ++ ": " ++ cause))

/-- The `context` of a model, if it is an object. -/
def brute (active : ContextModel) : Option Value :=
  active.context.value?.filter fun value => value.asObject.isSome

/-- The name that the stored form of a context gives its row. -/
def nomDerive (contexts : ToolsetContexts) (rules : ContextRules)
    (active : ContextModel) : Except HookError String :=
  match brute active with
  | none => .error (hookError (rules.label ++ " is required"))
  | some brute => do
      charger contexts rules.label brute
      let niveau ← champTexte rules.label brute "level"
      if niveau ≠ rules.niveau then
        .error (hookError (rules.label ++ "s have level " ++ rules.niveau))
      else
        let name ← champTexte rules.label brute "name"
        rules.verifierNom name
        return name

/-- The reference to a type has the form of a private identifier. -/
def verifierReference (rules : ContextRules) (active : ContextModel) :
    Except HookError Unit :=
  match active.contextType.value?.join with
  | none => .ok ()
  | some reference =>
      match classify reference with
      | .ok .private_ => .ok ()
      | _ => .error (hookError
          (rules.label ++ " type reference is not a valid name"))

/-- `valider_et_deriver`, at the instant `now`. -/
def validerEtDeriver (contexts : ToolsetContexts) (rules : ContextRules)
    (now : ℕ) (active : ContextModel) (existing : Option ContextRow) :
    Except HookError ContextModel := do
  let name ← nomDerive contexts rules active
  match existing with
  | none =>
      verifierReference rules active
      return { active with
        name := .set name
        createdAt :=
          match active.createdAt with
          | .notSet => .set now
          | given => given }
  | some ligne =>
      if name ≠ ligne.name then
        .error (hookError (rules.label ++ " name cannot change"))
      else
        verifierReference rules active
        return { active with
          name := .set name, createdAt := .set ligne.createdAt }

namespace UserContext

/-- `verifier_nom`. -/
def verifierNom (name : String) : Except HookError Unit :=
  match classify name with
  | .ok .private_ => .ok ()
  | .ok .catalog =>
      .error (hookError "user context name cannot use the catalog prefix")
  | .ok .host =>
      .error (hookError "user context name cannot use the host prefix")
  | .error (.reservedPrefix identifiant) =>
      match identifiant.toList with
      | 'g' :: '_' :: _ | 'G' :: '_' :: _ =>
          .error (hookError "user context name cannot use the catalog prefix")
      | _ => .error (hookError "user context name cannot use the host prefix")
  | .error _ => .error (hookError "invalid user context name")

def rules : ContextRules where
  label := "user context"
  niveau := "user"
  verifierNom := verifierNom

def validerEtDeriver (contexts : ToolsetContexts) :
    ℕ → ContextModel → Option ContextRow → Except HookError ContextModel :=
  Definitions.validerEtDeriver contexts rules

end UserContext

namespace CatalogContext

def verifierNom (name : String) : Except HookError Unit :=
  match classify name with
  | .ok .catalog => .ok ()
  | _ => .error (hookError "catalog context name must start with G_ (catalog)")

def rules : ContextRules where
  label := "catalog context"
  niveau := "shared"
  verifierNom := verifierNom

def validerEtDeriver (contexts : ToolsetContexts) :
    ℕ → ContextModel → Option ContextRow → Except HookError ContextModel :=
  Definitions.validerEtDeriver contexts rules

end CatalogContext

end MiryadCore.Definitions
