import MiryadCore.Definitions.ContextHooks
import MiryadCore.Drafts.ContextTypeRows

/-!
# References to context types

The hook of the context types names every row as the catalog does, and the
hooks of the contexts accept no such name as a reference.
-/

namespace MiryadCore.Definitions

open Interactive
open Drafts (ActiveValue ContextTypes hookError)

/-- `SessionManager::context_type`: the active version that a reference names,
with the agents that it allows. -/
def contextType (types : ContextTypes) (db : Drafts.Database)
    (name : String) : Option (types.ContextType × List String) :=
  match db.rows.lookup (.type name) with
  | none => none
  | some row =>
      match row.active.filter fun version => version ≠ .null with
      | none => none
      | some brute =>
          match types.fromValue brute with
          | .error _ => none
          | .ok contextType =>
              some (contextType,
                (row.allowedAgents.asArray.getD []).filterMap Value.asString)

/-- A context with a reference to a type. -/
def ContextModel.referring (active : ContextModel) (name : Option String) :
    ContextModel :=
  { active with contextType := .set name }

/-- The hook of the context types accepts a row of the name. -/
def Storable (types : ContextTypes) (name : String) : Prop :=
  ∃ active row : Drafts.ActiveModel,
    Drafts.validerEtDeriver types active none = .ok row ∧
      row.name.value? = some name

/-- Whatever the hook accepts is named as the catalog is. -/
theorem classify_of_storable {types : ContextTypes} {name : String}
    (storable : Storable types name) : classify name = .ok .catalog := by
  obtain ⟨active, row, accepted, named⟩ := storable
  unfold Drafts.validerEtDeriver at accepted
  dsimp only at accepted
  cases present : (Drafts.versionPresents active.active).or
      (Drafts.versionPresents active.draft) with
  | none =>
      rw [present] at accepted
      cases accepted
  | some brute =>
  rw [present] at accepted
  dsimp only at accepted
  obtain ⟨autorises, _, accepted⟩ := Drafts.ok_of_bind accepted
  obtain ⟨derived, _, accepted⟩ := Drafts.ok_of_bind accepted
  split at accepted
  next catalog =>
    obtain ⟨_, _, accepted⟩ := Drafts.ok_of_bind accepted
    obtain ⟨version, _, accepted⟩ := Drafts.ok_of_bind accepted
    cases accepted
    cases named
    exact catalog
  next => cases accepted

variable {contexts : ToolsetContexts} {rules : ContextRules} {now : ℕ}
  {active : ContextModel}

theorem nomDerive_referring (reference : Option String) :
    nomDerive contexts rules (active.referring reference) =
      nomDerive contexts rules active :=
  rfl

theorem validerEtDeriver_new_ok {row : ContextModel} :
    validerEtDeriver contexts rules now active none = .ok row →
      ∃ name, nomDerive contexts rules active = .ok name ∧
        verifierReference rules active = .ok () := by
  intro accepted
  unfold validerEtDeriver at accepted
  cases derived : nomDerive contexts rules active with
  | error error =>
      rw [derived] at accepted
      cases accepted
  | ok name =>
      refine ⟨name, rfl, ?_⟩
      rw [derived] at accepted
      cases verified : verifierReference rules active with
      | error error =>
          simp only [bind, Except.bind, verified] at accepted
          cases accepted
      | ok _ => rfl

theorem refused_of_accepted {row : ContextModel} {name : String}
    (accepted : validerEtDeriver contexts rules now (active.referring none)
      none = .ok row)
    (catalog : classify name = .ok .catalog) :
    validerEtDeriver contexts rules now (active.referring (some name)) none =
      .error (hookError
        (rules.label ++ " type reference is not a valid name")) := by
  obtain ⟨derived, named, _⟩ := validerEtDeriver_new_ok accepted
  rw [nomDerive_referring] at named
  have refused : verifierReference rules (active.referring (some name)) =
      .error (hookError
        (rules.label ++ " type reference is not a valid name")) := by
    unfold verifierReference ContextModel.referring
    simp only [ActiveValue.value?, Option.join_some, catalog]
  simp only [validerEtDeriver, nomDerive_referring, named, bind, Except.bind,
    refused]

theorem classify_of_reference {row : ContextModel} {reference : String}
    (accepted : validerEtDeriver contexts rules now
      (active.referring (some reference)) none = .ok row) :
    classify reference = .ok .private_ := by
  obtain ⟨_, _, verified⟩ := validerEtDeriver_new_ok accepted
  unfold verifierReference ContextModel.referring at verified
  simp only [ActiveValue.value?, Option.join_some] at verified
  split at verified
  next private_ => exact private_
  next => cases verified

/-- The rows of the context types, all written through their hook. -/
def Hooked (types : ContextTypes) (db : Drafts.Database) : Prop :=
  ∀ name, (db.rows.lookup (.type name)).isSome → Storable types name

theorem contextType_of_reference {types : ContextTypes}
    {db : Drafts.Database} (hooked : Hooked types db) {reference : String}
    (private_ : classify reference = .ok .private_) :
    contextType types db reference = none := by
  unfold contextType
  cases found : db.rows.lookup (.type reference) with
  | none => rfl
  | some row =>
      have catalog := classify_of_storable
        (hooked reference (Option.isSome_iff_exists.mpr ⟨row, found⟩))
      rw [private_] at catalog
      cases catalog

/-- No context may refer to a type that the hook of the types accepts, private
or of the catalog, whatever its body; and none of those types is found under a
reference that a context may have. -/
theorem never_referenced (types : ContextTypes) (contexts : ToolsetContexts)
    (now : ℕ) :
    (∀ (name : String) (active row : ContextModel), Storable types name →
      UserContext.validerEtDeriver contexts now (active.referring none) none =
        .ok row →
      UserContext.validerEtDeriver contexts now
          (active.referring (some name)) none =
        .error (hookError "user context type reference is not a valid name")) ∧
    (∀ (name : String) (active row : ContextModel), Storable types name →
      CatalogContext.validerEtDeriver contexts now (active.referring none)
        none = .ok row →
      CatalogContext.validerEtDeriver contexts now
          (active.referring (some name)) none =
        .error (hookError
          "catalog context type reference is not a valid name")) ∧
    ∀ (db : Drafts.Database) (reference : String) (active row : ContextModel),
      Hooked types db →
      UserContext.validerEtDeriver contexts now
          (active.referring (some reference)) none = .ok row ∨
        CatalogContext.validerEtDeriver contexts now
          (active.referring (some reference)) none = .ok row →
      contextType types db reference = none := by
  refine ⟨?_, ?_, ?_⟩
  · intro name active row storable accepted
    exact refused_of_accepted accepted (classify_of_storable storable)
  · intro name active row storable accepted
    exact refused_of_accepted accepted (classify_of_storable storable)
  · intro db reference active row hooked accepted
    rcases accepted with user | catalog
    · exact contextType_of_reference hooked (classify_of_reference user)
    · exact contextType_of_reference hooked (classify_of_reference catalog)

/-- Contexts that have a name and a level. -/
def bareContexts : ToolsetContexts where
  ToolsetContext := String × String
  toValue context := some (.object
    [("level", .string context.2), ("name", .string context.1)])
  fromValue value :=
    match value with
    | .object [("level", .string level), ("name", .string name)] =>
        .ok (name, level)
    | _ => .error "invalid context"

/-- A context of a level, as a body submits it. -/
def submitted (name level : String) : ContextModel where
  name := .set ""
  context := .set (.object
    [("level", .string level), ("name", .string name)])
  contextType := .set none
  createdAt := .set 0

/-- The type `G_cluster`, as a body submits it. -/
def cluster : Drafts.ActiveModel where
  id := .set 0
  name := .set ""
  version := .set ""
  allowedAgents := .set (.array [])
  active := .set (some (.object
    [("name", .string "G_cluster"), ("version", .string "1.0.0")]))
  draft := .set none

theorem storable_cluster : Storable Drafts.bareTypes "G_cluster" :=
  ⟨cluster, { cluster with name := .set "G_cluster", version := .set "1.0.0" },
    rfl, rfl⟩

theorem never_referenced_cluster :
    UserContext.validerEtDeriver bareContexts 0
        ((submitted "home" "user").referring (some "G_cluster")) none =
      .error (hookError "user context type reference is not a valid name") :=
  (never_referenced Drafts.bareTypes bareContexts 0).1 "G_cluster"
    (submitted "home" "user") { submitted "home" "user" with name := .set "home" }
    storable_cluster rfl

/-- A private context may not refer to the type `G_cluster`. -/
theorem cluster_not_referenced :
    ¬∀ (name : String) (active row : ContextModel),
      Storable Drafts.bareTypes name →
      UserContext.validerEtDeriver bareContexts 0 (active.referring none)
        none = .ok row →
      ∃ accepted, UserContext.validerEtDeriver bareContexts 0
        (active.referring (some name)) none = .ok accepted := by
  intro all
  obtain ⟨accepted, same⟩ := all "G_cluster" (submitted "home" "user")
    { submitted "home" "user" with name := .set "home" } storable_cluster rfl
  have refused : UserContext.validerEtDeriver bareContexts 0
      ((submitted "home" "user").referring (some "G_cluster")) none =
    .error (hookError "user context type reference is not a valid name") := rfl
  rw [refused] at same
  cases same

end MiryadCore.Definitions
