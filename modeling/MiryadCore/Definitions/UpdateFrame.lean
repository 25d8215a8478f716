import MiryadCore.Definitions.Entities
import MiryadCore.Definitions.TypeReferences
import MiryadCore.Drafts.Activation
import MiryadCore.Rest.Frame

/-!
# What an update leaves of a definition

An update marks every column of its body as set before the hook runs.  The
path and the owner column come back after it, the identifying column is that
of the row or the hook refuses; the instant of creation is that of the row
only under five of the ten hooks.
-/

namespace MiryadCore.Definitions

open Rest (ActiveModel AuthPrincipal Conditions HookError Model Resource Rewrites
  Schema SeaValue Store StoredRow markAllSet updateActive)
open Rest.Table (overwrite)

section Hooks

variable {Column : Type} [DecidableEq Column] {now : SeaValue}
  {active after : ActiveModel Column} {ligne : Model Column}

/-- A hook of updates keeps the identifying column, and the instant of
creation as `conserve` tells. -/
structure Guards (resource : Resource Column) (identifiant createdAt : Column)
    (conserve : Bool) : Prop where
  apart : createdAt ≠ resource.primaryKey ∧
    resource.ownerColumn ≠ some createdAt
  hooked : ∀ {active ligne principal after},
    resource.hooks.beforeUpdate active ligne principal = .ok after →
      overwrite after ligne identifiant = ligne identifiant ∧
        after createdAt =
          if conserve then .set (ligne createdAt) else active createdAt

/-- What a hook that accepts an update leaves. -/
theorem Rules.validerEtDeriver_ok {rules : Rules Column}
    (accepted :
      rules.validerEtDeriver now active (some ligne) = .ok after) :
    after rules.identifiant = .set (ligne rules.identifiant) ∧
      after rules.createdAt =
        if rules.conserve then .set (ligne rules.createdAt)
        else active rules.createdAt := by
  obtain ⟨apart, underived⟩ := rules.separate
  obtain ⟨source, _, accepted⟩ := Drafts.ok_of_bind accepted
  dsimp only at accepted
  split at accepted
  · cases accepted
  rename_i named
  have named : ligne rules.identifiant = ofText (rules.nom source) :=
    not_not.mp named
  obtain ⟨valeurs, _, accepted⟩ := Drafts.ok_of_bind accepted
  have written : rules.ecrire (rules.nom source) valeurs active
      rules.identifiant = .set (ligne rules.identifiant) := by
    rw [Rules.ecrire, if_pos rfl, named]
  cases kept : rules.conserve with
  | true =>
      rw [kept, if_pos rfl] at accepted
      obtain rfl := Except.ok.inj accepted
      rw [Function.update_of_ne apart.symm, Function.update_self, if_pos rfl]
      exact ⟨written, rfl⟩
  | false =>
      rw [kept, if_neg Bool.false_ne_true] at accepted
      obtain rfl := Except.ok.inj accepted
      refine ⟨written, ?_⟩
      rw [Rules.ecrire, if_neg apart, if_neg underived,
        if_neg Bool.false_ne_true]

theorem Rules.guards (rules : Rules Column) {resource : Resource Column}
    (hooks : resource.hooks = rules.hooks now)
    (apart : rules.createdAt ≠ resource.primaryKey ∧
      resource.ownerColumn ≠ some rules.createdAt) :
    Guards resource rules.identifiant rules.createdAt rules.conserve where
  apart := apart
  hooked := by
    intro active ligne principal after accepted
    rw [hooks] at accepted
    obtain ⟨named, dated⟩ :=
      @Rules.validerEtDeriver_ok _ _ now _ _ _ _ accepted
    refine ⟨?_, dated⟩
    rw [overwrite, named]

theorem McpServer.guards :
    Guards (McpServer.resource now) .name .createdAt true where
  apart := ⟨nofun, nofun⟩
  hooked := by
    intro active ligne principal after accepted
    obtain ⟨_, _, accepted⟩ := Drafts.ok_of_bind accepted
    obtain ⟨_, named, accepted⟩ := Drafts.ok_of_bind accepted
    have named : (active .name).intoValue = some (ligne .name) :=
      of_decide_eq_true (of_exiger named)
    obtain rfl := Except.ok.inj accepted
    refine ⟨?_, ?_⟩
    · rw [overwrite, Function.update_of_ne (by decide)]
      cases written : active .name with
      | set value =>
          rw [written] at named
          exact Option.some.inj named
      | unchanged value => rfl
      | notSet => rfl
    · exact Function.update_self _ _ _

end Hooks

section Rows

variable {Column : Type} [DecidableEq Column] [Fintype Column]
  {resource : Resource Column} {store after : Store resource.toSchema}
  {principal : AuthPrincipal} {id : ℤ} {body record : Model Column}
  {row : StoredRow Column} {active : ActiveModel Column}

/-- The row of an id has in the columns what it had before. -/
def Unmoved {schema : Schema Column} (store after : Store schema) (id : ℤ)
    (columns : List Column) : Prop :=
  ∀ row, store.table.find id = some row →
    ∃ row', after.table.find id = some row' ∧
      ∀ column ∈ columns, row'.values column = row.values column

omit [Fintype Column] in
/-- The path and the owner come after the hook. -/
theorem overwrite_updateActive {ligne : Model Column}
    (key : ligne resource.primaryKey = .ofId id) (column : Column) :
    overwrite (updateActive resource ligne id active) ligne column =
      if column = resource.primaryKey ∨ resource.ownerColumn = some column then
        ligne column
      else overwrite active ligne column := by
  by_cases primary : column = resource.primaryKey
  · subst primary
    have named : updateActive resource ligne id active resource.primaryKey =
        .set (.ofId id) :=
      Rest.setOwner_key key
    rw [if_pos (Or.inl rfl), overwrite, named, key]
  · by_cases owner : resource.ownerColumn = some column
    · rw [if_pos (Or.inr owner)]
      simp [overwrite, updateActive, Rest.setOwner, owner]
    · rw [if_neg (not_or.mpr ⟨primary, owner⟩)]
      cases declared : resource.ownerColumn with
      | none => simp [overwrite, updateActive, Rest.setOwner, declared, primary]
      | some other =>
          have different : column ≠ other := by
            rintro rfl
            exact owner declared
          simp [overwrite, updateActive, Rest.setOwner, declared, primary,
            different]

variable {identifiant createdAt : Column} {conserve : Bool}

/-- The columns of a row that an update is not to change. -/
def cadre (resource : Resource Column) (identifiant createdAt : Column) :
    List Column :=
  [resource.primaryKey] ++ resource.ownerColumn.toList ++
    [createdAt, identifiant]

omit [Fintype Column] in
theorem Guards.unmoved_iff (guards : Guards resource identifiant createdAt
      conserve)
    (rewrites : Rewrites resource store after principal id body record row
      active) :
    Unmoved store after id (cadre resource identifiant createdAt) ↔
      conserve = true ∨ body createdAt = row.values createdAt := by
  obtain ⟨_, key⟩ := Rest.Table.find_some rewrites.found
  obtain ⟨named, dated⟩ := guards.hooked rewrites.hooked
  have written : ∀ column, overwrite (updateActive resource row.values id
      active) row.values column = _ := overwrite_updateActive key
  have created : record createdAt =
      if conserve then row.values createdAt else body createdAt := by
    rw [rewrites.written, written, if_neg (not_or.mpr guards.apart), overwrite,
      dated]
    cases conserve with
    | true => rfl
    | false => rfl
  constructor
  · intro unmoved
    obtain ⟨row', found, same⟩ := unmoved row rewrites.found
    obtain rfl := Option.some.inj (rewrites.find.symm.trans found)
    have stays : record createdAt = row.values createdAt :=
      same createdAt (by simp [cadre])
    cases conserve with
    | true => exact Or.inl rfl
    | false => exact Or.inr (created.symm.trans stays)
  · intro kept other found
    obtain rfl := Option.some.inj (rewrites.found.symm.trans found)
    refine ⟨_, rewrites.find, ?_⟩
    intro column member
    simp only [cadre, List.mem_append, List.mem_cons, List.not_mem_nil, or_false,
      Option.mem_toList] at member
    dsimp only
    rcases member with (rfl | owner) | rfl | rfl
    · rw [rewrites.written, written, if_pos (Or.inl rfl)]
    · rw [rewrites.written, written, if_pos (Or.inr owner)]
    · rw [created]
      rcases kept with conserved | same
      · rw [if_pos conserved]
      · rw [same, ite_self]
    · rw [rewrites.written, written, named, ite_self]

end Rows

namespace Entity

/-- The column that names a row. -/
def identifiant : (entity : Entity) → entity.Column
  | .agent => .agentId
  | .privateAgent => .agentId
  | .toolset => .toolsetId
  | .privateToolset => .toolsetId
  | .profile => .name
  | .provider => .name
  | .contextType => .name
  | .catalogContext => .name
  | .userContext => .name
  | .mcpServer => .name

def createdAt : (entity : Entity) → entity.Column
  | .agent => .createdAt
  | .privateAgent => .createdAt
  | .toolset => .createdAt
  | .privateToolset => .createdAt
  | .profile => .createdAt
  | .provider => .createdAt
  | .contextType => .createdAt
  | .catalogContext => .createdAt
  | .userContext => .createdAt
  | .mcpServer => .createdAt

/-- The entities whose hook brings the instant of creation back. -/
def conserve : Entity → Bool
  | .agent | .privateAgent | .catalogContext | .userContext | .mcpServer => true
  | .toolset | .privateToolset | .profile | .provider | .contextType => false

theorem guards (library : Library) (now : SeaValue) (entity : Entity) :
    Guards (entity.resource library now) entity.identifiant entity.createdAt
      entity.conserve := by
  cases entity with
  | agent => exact (Agent.rules library).guards rfl ⟨nofun, nofun⟩
  | privateAgent =>
      exact (PrivateAgent.rules library).guards rfl ⟨nofun, nofun⟩
  | toolset => exact (Toolset.rules library).guards rfl ⟨nofun, nofun⟩
  | privateToolset =>
      exact (PrivateToolset.rules library).guards rfl ⟨nofun, nofun⟩
  | profile => exact (Profile.rules library).guards rfl ⟨nofun, nofun⟩
  | provider => exact (Provider.rules library).guards rfl ⟨nofun, nofun⟩
  | contextType => exact (ContextType.rules library).guards rfl ⟨nofun, nofun⟩
  | catalogContext =>
      exact (CatalogContext.columnRules library).guards rfl ⟨nofun, nofun⟩
  | userContext =>
      exact (UserContext.columnRules library).guards rfl ⟨nofun, nofun⟩
  | mcpServer => exact McpServer.guards

/-- An update that succeeds leaves the id, the owner, the name and the instant
of creation of the row as they were exactly when the hook brings the instant
back or the body has the same. -/
theorem update_unmoved_iff (library : Library) (now : SeaValue)
    (entity : Entity) {store after : Store (entity.resource library now).toSchema}
    (envs : ℕ → Conditions entity.Column) (principal : AuthPrincipal) (id : ℤ)
    (body record : Model entity.Column)
    (updated : Script.run Rest.exec envs
      (Rest.update (entity.resource library now) principal id body) store =
        (.ok record, after)) :
    Unmoved store after id (cadre (entity.resource library now)
        entity.identifiant entity.createdAt) ↔
      entity.conserve = true ∨ ∀ row, store.table.find id = some row →
        body entity.createdAt = row.values entity.createdAt := by
  obtain ⟨row, active, rewrites⟩ := Rest.update_rewrites updated
  apply ((entity.guards library now).unmoved_iff rewrites).trans
  apply or_congr_right
  constructor
  · intro same other found
    obtain rfl := Option.some.inj (rewrites.found.symm.trans found)
    exact same
  · exact fun all => all row rewrites.found

end Entity

/-- A library of which an agent and a profile are a name. -/
def bareLibrary : Library where
  lymaille := Drafts.plain
  toolsetCause _ := "invalid type"
  types := Drafts.bareTypes
  contexts := bareContexts
  AgentDefinition := String
  agentFromValue value := (Drafts.nameOf value).elim (.error "no name") .ok
  agentValidate _ := .ok ()
  agentId name := name
  agentKind _ := some "sub"
  agentProfile _ := "qwen"
  ModelProfile := String
  profileFromValue value := (Drafts.nameOf value).elim (.error "no name") .ok
  profileName name := name
  Provider := String
  providerFromValue := Drafts.nameOf
  providerName name := name
  providerKind _ := "openai"
  providerLevel _ := some "project"

def instant (text : String) : SeaValue :=
  .other "timestamp with time zone" (some text)

def profileRow (created : String) : Model Profile.Column
  | .id => .ofId 1
  | .name => ofText "qwen"
  | .profile => .other "json" (some "\x7b\"name\":\"qwen\"\x7d")
  | .createdAt => instant created

def profiles : Resource Profile.Column :=
  Entity.profile.resource bareLibrary (instant "2026-11-02")

/-- One profile, and one user, who is an administrator. -/
def profileStore : Store profiles.toSchema where
  users := .start {
    users := [⟨7, "alice", none, none, 0⟩]
    groups := [⟨1, "admin", 0⟩]
    memberships := [⟨1, 7, 1⟩]
    nextUser := 8
    nextGroup := 2
    nextMembership := 2 }
  table := {
    rows := [⟨profileRow "2026-11-01", 1, true, some "alice"⟩]
    used := [1]
    fits := by decide
    keys := by decide
    unique := by decide }

def alice : AuthPrincipal :=
  { subject := "alice", email := none, preferredUsername := none,
    source := .apiToken 1 }

def profileConditions (_ : ℕ) : Conditions Profile.Column :=
  { fault := none, now := 0, gap := 0, id := 2, defaults := profileRow "" }

/-- The update of the profile by a body. -/
def profileUpdated (created : String) :
    Except Rest.RestError (Model Profile.Column) × Store profiles.toSchema :=
  Script.run Rest.exec profileConditions
    (Rest.update profiles alice 1 (profileRow created)) profileStore

theorem update_unmoved_profile :
    ∃ record, (profileUpdated "2026-11-01").1 = .ok record ∧
      Unmoved profileStore (profileUpdated "2026-11-01").2 1
        (cadre profiles .name .createdAt) := by
  have succeeds : (profileUpdated "2026-11-01").1.toOption.isSome = true := by
    decide +kernel
  cases result : profileUpdated "2026-11-01" with
  | mk answer after =>
      cases answer with
      | error error =>
          rw [result] at succeeds
          cases succeeds
      | ok record =>
          refine ⟨record, rfl, ?_⟩
          apply (Entity.update_unmoved_iff bareLibrary (instant "2026-11-02")
            .profile profileConditions alice 1 (profileRow "2026-11-01") record
            result).mpr
          refine Or.inr ?_
          intro row found
          obtain rfl := Option.some.inj found
          rfl

/-- The update of a profile by a body with another instant of creation moves
it. -/
theorem profile_redated :
    ¬∀ (library : Library) (now : SeaValue) (entity : Entity)
      (store after : Store (entity.resource library now).toSchema)
      (envs : ℕ → Conditions entity.Column) (principal : AuthPrincipal) (id : ℤ)
      (body record : Model entity.Column),
      Script.run Rest.exec envs
          (Rest.update (entity.resource library now) principal id body) store =
        (.ok record, after) →
      Unmoved store after id (cadre (entity.resource library now)
        entity.identifiant entity.createdAt) := by
  intro claim
  have succeeds : (profileUpdated "2020-01-01").1.toOption.isSome = true := by
    decide +kernel
  have dated : ((profileUpdated "2020-01-01").2.table.find 1).map
      (fun row => row.values .createdAt) = some (instant "2020-01-01") := by
    decide +kernel
  cases result : profileUpdated "2020-01-01" with
  | mk answer after =>
      rw [result] at succeeds dated
      cases answer with
      | error error => cases succeeds
      | ok record =>
          obtain ⟨row, found, same⟩ := claim bareLibrary (instant "2026-11-02")
            .profile profileStore after profileConditions alice 1
            (profileRow "2020-01-01") record result _ rfl
          have stays : row.values .createdAt = instant "2026-11-01" :=
            same .createdAt (List.mem_of_elem_eq_true rfl)
          have moved := (congrArg (Option.map fun row =>
            StoredRow.values row .createdAt) found).symm.trans dated
          rw [Option.map_some, stays] at moved
          exact absurd moved (by decide)

end MiryadCore.Definitions
