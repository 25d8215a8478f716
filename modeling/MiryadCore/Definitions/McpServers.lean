import MiryadCore.Drafts.Alone
import MiryadCore.Drafts.ContextTypes

/-!
# The MCP servers

A server carries the groups that may use it.  Its hook checks every column of a
body before the row is written.
-/

namespace MiryadCore.Definitions

open Drafts (ActiveValue hookError)
open Rest (HookError)

structure ServerRow where
  id : ℤ
  name : String
  url : String
  requestTimeoutSecs : ℤ
  connectTimeoutSecs : ℤ
  authMode : String
  authRef : Option String
  allowedGroups : Value
  createdAt : ℕ
  deriving DecidableEq, Repr

structure ServerModel where
  name : ActiveValue String
  url : ActiveValue String
  requestTimeoutSecs : ActiveValue ℤ
  connectTimeoutSecs : ActiveValue ℤ
  authMode : ActiveValue String
  authRef : ActiveValue (Option String)
  allowedGroups : ActiveValue Value
  createdAt : ActiveValue ℕ

/-- The active model of a body, all of whose columns are set; the primary key
is not for the body to choose. -/
def ServerRow.activeModel (body : ServerRow) : ServerModel where
  name := .set body.name
  url := .set body.url
  requestTimeoutSecs := .set body.requestTimeoutSecs
  connectTimeoutSecs := .set body.connectTimeoutSecs
  authMode := .set body.authMode
  authRef := .set body.authRef
  allowedGroups := .set body.allowedGroups
  createdAt := .set body.createdAt

/-- The row that a model writes, if no column is missing. -/
def ServerModel.row? (active : ServerModel) (id : ℤ) : Option ServerRow := do
  let name ← active.name.value?
  let url ← active.url.value?
  let requestTimeoutSecs ← active.requestTimeoutSecs.value?
  let connectTimeoutSecs ← active.connectTimeoutSecs.value?
  let authMode ← active.authMode.value?
  let authRef ← active.authRef.value?
  let allowedGroups ← active.allowedGroups.value?
  let createdAt ← active.createdAt.value?
  return { id, name, url, requestTimeoutSecs, connectTimeoutSecs, authMode
           authRef, allowedGroups, createdAt }

def estIdentifiant (nom : String) : Bool :=
  !nom.isEmpty && nom.toList.all fun c => c.isAlphanum || c == '_'

def estGroupe (nom : String) : Bool :=
  !nom.isEmpty &&
    nom.toList.all fun c => c.isAlphanum || c == '_' || c == '.' || c == '-'

/-- What precedes the first `://`. -/
def schema : List Char → Option (List Char)
  | [] => none
  | ':' :: '/' :: '/' :: _ => some []
  | c :: rest => (schema rest).map fun before => c :: before

def schemaEstHttp (url : String) : Bool :=
  match schema url.toList with
  | some schema =>
      let lower := schema.map Char.toLower
      lower == "http".toList || lower == "https".toList
  | none => false

/-- The names of an array of names of groups, which is not empty. -/
def groupes (valeur : ActiveValue Value) : Except HookError (List String) :=
  let forme := hookError
    "mcp server allowed groups must be a non-empty array of group names"
  match valeur.value?.bind Value.asArray with
  | none => .error forme
  | some tableau =>
      match tableau.mapM Value.asString with
      | none => .error forme
      | some noms =>
          if noms.isEmpty then .error forme
          else if noms.all estGroupe then .ok noms
          else .error (hookError "invalid mcp server allowed group name")

/-- The reference is that of the mode: one for `static`, none otherwise. -/
def verifierMode (active : ServerModel) : Except HookError Unit :=
  let mode := active.authMode.value?.getD ""
  let reference := active.authRef.value?.join
  if mode ∉ ["none", "static", "forward"] then
    .error (hookError "invalid mcp server auth mode")
  else if mode = "static" ∧ reference.all String.isEmpty then
    .error (hookError "static mcp server auth requires a non-empty auth_ref")
  else if mode ≠ "static" ∧ reference.isSome then
    .error (hookError "mcp server auth_ref requires the static auth mode")
  else .ok ()

/-- A check, and the message of its refusal. -/
def exiger (condition : Bool) (message : String) : Except HookError Unit :=
  if condition then .ok () else .error (hookError message)

/-- What `valider` checks of a model. -/
def verifier (active : ServerModel) : Except HookError Unit := do
  exiger (active.name.value?.any estIdentifiant)
    "mcp server name must be a Rhai identifier ([A-Za-z0-9_]+)"
  exiger (active.url.value?.any schemaEstHttp)
    "mcp server url must be http or https"
  exiger (active.requestTimeoutSecs.value?.any fun delai =>
      1 ≤ delai && delai ≤ 600)
    "mcp server request timeout must be between 1 and 600 seconds"
  exiger (active.connectTimeoutSecs.value?.any fun delai =>
      1 ≤ delai && delai ≤ 60)
    "mcp server connect timeout must be between 1 and 60 seconds"
  verifierMode active
  let noms ← groupes active.allowedGroups
  let exclusif := noms.any fun nom => nom == "all" || nom == "admin"
  exiger (!exclusif || noms.length ≤ 1)
    "mcp server allowed groups cannot combine all or admin with other groups"

/-- `valider`, at the instant `now`. -/
def valider (now : ℕ) (active : ServerModel) (existing : Option ServerRow) :
    Except HookError ServerModel := do
  verifier active
  match existing with
  | some ligne =>
      exiger (active.name.value? = some ligne.name)
        "mcp server name cannot change"
      return { active with createdAt := .set ligne.createdAt }
  | none =>
      return { active with
        createdAt :=
          match active.createdAt with
          | .notSet => .set now
          | given => given }

/-- The rows that creations, updates and deletions through the hook may
leave. -/
inductive Written : List ServerRow → Prop
  | empty : Written []
  | created {rows : List ServerRow} (now : ℕ) (body : ServerRow)
      (active : ServerModel) (id : ℤ) (row : ServerRow) : Written rows →
      valider now body.activeModel none = .ok active →
      active.row? id = some row → id ∉ rows.map ServerRow.id →
      row.name ∉ rows.map ServerRow.name → Written (rows ++ [row])
  | updated {rows : List ServerRow} (now : ℕ) (body existing : ServerRow)
      (active : ServerModel) (row : ServerRow) : Written rows →
      existing ∈ rows →
      valider now body.activeModel (some existing) = .ok active →
      active.row? existing.id = some row →
      Written (rows.map fun other =>
        if other.id = existing.id then row else other)
  | deleted {rows : List ServerRow} (id : ℤ) : Written rows →
      Written (rows.filter fun row => row.id ≠ id)

/-- The groups that may use the server, as they are read. -/
def ServerRow.groups (row : ServerRow) : List String :=
  (row.allowedGroups.asArray.getD []).filterMap Value.asString

/-- The groups are an array of names, and a reserved name is alone. -/
structure ServerRow.Checked (row : ServerRow) : Prop where
  groups : row.allowedGroups.asArray.isSome = true
  alone : ∀ name ∈ row.groups, name = "all" ∨ name = "admin" →
    row.groups = [name]

/-- The rows are checked, and a name or a primary key is that of one row. -/
structure Served (rows : List ServerRow) : Prop where
  checked : ∀ row ∈ rows, row.Checked
  names : (rows.map ServerRow.name).Nodup
  ids : (rows.map ServerRow.id).Nodup

section Hook

variable {now : ℕ} {active written : ServerModel}
  {existing : Option ServerRow}

theorem of_exiger {condition : Bool} {message : String}
    (accepted : exiger condition message = .ok ()) : condition = true := by
  unfold exiger at accepted
  split at accepted
  next holds => exact holds
  next => cases accepted

theorem groupes_ok {valeur : ActiveValue Value} {noms : List String}
    (accepted : groupes valeur = .ok noms) :
    ∃ (value : Value) (tableau : List Value), valeur.value? = some value ∧
      value.asArray = some tableau ∧
      tableau.mapM Value.asString = some noms := by
  unfold groupes at accepted
  cases present : valeur.value? with
  | none => simp [present] at accepted
  | some value =>
      cases array : value.asArray with
      | none => simp [present, array] at accepted
      | some tableau =>
          cases named : tableau.mapM Value.asString with
          | none => simp [present, array, named] at accepted
          | some strings =>
              simp only [present, array, named, Option.bind_some] at accepted
              split at accepted
              next => cases accepted
              split at accepted
              next =>
                obtain rfl := Except.ok.inj accepted
                exact ⟨value, tableau, rfl, array, named⟩
              next => cases accepted

theorem filterMap_of_mapM {tableau : List Value} {noms : List String}
    (named : tableau.mapM Value.asString = some noms) :
    tableau.filterMap Value.asString = noms := by
  induction tableau generalizing noms with
  | nil =>
      simp only [List.mapM_nil, Option.pure_def, Option.some.injEq] at named
      exact named
  | cons value tableau induction =>
      simp only [List.mapM_cons, Option.bind_eq_bind, Option.bind_eq_some_iff,
        Option.pure_def, Option.some.injEq] at named
      obtain ⟨nom, first, others, rest, rfl⟩ := named
      rw [List.filterMap_cons_some first, induction rest]

theorem verifier_ok (accepted : verifier active = .ok ()) :
    ∃ noms, groupes active.allowedGroups = .ok noms ∧
      ∀ name ∈ noms, name = "all" ∨ name = "admin" → noms = [name] := by
  unfold verifier at accepted
  obtain ⟨_, _, accepted⟩ := Drafts.ok_of_bind accepted
  obtain ⟨_, _, accepted⟩ := Drafts.ok_of_bind accepted
  obtain ⟨_, _, accepted⟩ := Drafts.ok_of_bind accepted
  obtain ⟨_, _, accepted⟩ := Drafts.ok_of_bind accepted
  obtain ⟨_, _, accepted⟩ := Drafts.ok_of_bind accepted
  obtain ⟨noms, read, accepted⟩ := Drafts.ok_of_bind accepted
  refine ⟨noms, read, ?_⟩
  intro name member reserved
  have exclusive := of_exiger accepted
  have present : (noms.any fun nom => nom == "all" || nom == "admin") =
      true := by
    rw [List.any_eq_true]
    exact ⟨name, member, by simpa using reserved⟩
  rw [present] at exclusive
  have short : noms.length ≤ 1 := by simpa using exclusive
  match noms, member, short with
  | [nom], member, _ => rw [List.mem_singleton.mp member]

/-- The model that the hook writes is the one it checked, but for the instant
of its creation. -/
theorem valider_ok (accepted : valider now active existing = .ok written) :
    verifier active = .ok () ∧
      written.name = active.name ∧
      written.allowedGroups = active.allowedGroups ∧
      ∀ ligne, existing = some ligne →
        active.name.value? = some ligne.name := by
  unfold valider at accepted
  obtain ⟨_, checked, accepted⟩ := Drafts.ok_of_bind accepted
  refine ⟨checked, ?_⟩
  cases existing with
  | none =>
      obtain rfl := Except.ok.inj accepted
      refine ⟨rfl, rfl, ?_⟩
      intro ligne impossible
      cases impossible
  | some ligne =>
      obtain ⟨_, kept, accepted⟩ := Drafts.ok_of_bind accepted
      obtain rfl := Except.ok.inj accepted
      refine ⟨rfl, rfl, ?_⟩
      intro other same
      obtain rfl := Option.some.inj same
      exact of_decide_eq_true (of_exiger kept)

theorem row?_ok {id : ℤ} {row : ServerRow} (complete : active.row? id = some row) :
    row.id = id ∧ active.name.value? = some row.name ∧
      active.allowedGroups.value? = some row.allowedGroups := by
  simp only [ServerModel.row?, Option.bind_eq_bind, Option.bind_eq_some_iff,
    Option.pure_def, Option.some.injEq] at complete
  obtain ⟨name, named, _, _, _, _, _, _, _, _, _, _, groups, grouped, _, _,
    rfl⟩ := complete
  exact ⟨rfl, named, grouped⟩

theorem checked_of_valider {id : ℤ} {row : ServerRow}
    (accepted : valider now active existing = .ok written)
    (complete : written.row? id = some row) : row.Checked := by
  obtain ⟨checked, _, same, _⟩ := valider_ok accepted
  obtain ⟨_, _, stored⟩ := row?_ok complete
  obtain ⟨noms, read, alone⟩ := verifier_ok checked
  obtain ⟨value, tableau, present, array, named⟩ := groupes_ok read
  rw [same, present] at stored
  obtain rfl := Option.some.inj stored
  have groups : row.groups = noms := by
    rw [ServerRow.groups, array]
    exact filterMap_of_mapM named
  refine ⟨by rw [array]; rfl, ?_⟩
  rw [groups]
  exact alone

end Hook

theorem map_updated {β : Type} {rows : List ServerRow}
    {existing row : ServerRow} (column : ServerRow → β)
    (kept : column row = column existing) (member : existing ∈ rows)
    (ids : (rows.map ServerRow.id).Nodup) :
    (rows.map fun other =>
      if other.id = existing.id then row else other).map column =
        rows.map column := by
  rw [List.map_map]
  apply List.map_congr_left
  intro other listed
  rw [Function.comp_apply]
  split
  next same =>
    rw [List.inj_on_of_nodup_map ids listed member same, kept]
  next => rfl

theorem served_of_written {rows : List ServerRow} (written : Written rows) :
    Served rows := by
  induction written with
  | empty => exact ⟨by simp, List.nodup_nil, List.nodup_nil⟩
  | created now body active id row written accepted complete newId newName
      induction =>
      obtain ⟨sameId, _, _⟩ := row?_ok complete
      refine ⟨?_, ?_, ?_⟩
      · intro other member
        rcases List.mem_append.mp member with earlier | last
        · exact induction.checked other earlier
        · rw [List.mem_singleton.mp last]
          exact checked_of_valider accepted complete
      · rw [List.map_append, List.map_singleton]
        exact induction.names.append (List.nodup_singleton _)
          (List.disjoint_singleton.mpr newName)
      · rw [List.map_append, List.map_singleton, sameId]
        exact induction.ids.append (List.nodup_singleton _)
          (List.disjoint_singleton.mpr newId)
  | updated now body existing active row written member accepted complete
      induction =>
      obtain ⟨_, sameName, _, kept⟩ := valider_ok accepted
      obtain ⟨sameId, named, _⟩ := row?_ok complete
      have name : row.name = existing.name := by
        rw [sameName, kept existing rfl] at named
        exact (Option.some.inj named).symm
      refine ⟨?_, ?_, ?_⟩
      · intro other changed
        obtain ⟨earlier, listed, same⟩ := List.mem_map.mp changed
        split at same
        next => exact same ▸ checked_of_valider accepted complete
        next => exact same ▸ induction.checked earlier listed
      · rw [map_updated ServerRow.name name member induction.ids]
        exact induction.names
      · rw [map_updated ServerRow.id sameId member induction.ids]
        exact induction.ids
  | deleted id written induction =>
      refine ⟨?_, ?_, ?_⟩
      · intro row member
        exact induction.checked row (List.mem_of_mem_filter member)
      · exact induction.names.sublist (List.filter_sublist.map _)
      · exact induction.ids.sublist (List.filter_sublist.map _)

end MiryadCore.Definitions
