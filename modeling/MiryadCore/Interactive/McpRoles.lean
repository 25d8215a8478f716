import MiryadCore.Interactive.Assemble

/-!
# What the roles of a session depend on

An optional role that cannot be resolved is omitted with a notice.  One that
is resolved and then fails stops the assembly, as a required role does.  The
token of the caller reaches the servers that it is forwarded to and no others.
-/

namespace MiryadCore.Interactive

open Definitions (ServerRow)

namespace Assembly

variable (assembly : Assembly) (parts : McpParts) (scope : Scope)
  (token : Option String)

/-- What becomes of a role by itself. -/
def serve (role : String) : Except LymailleError (GrantedModule parts) := do
  let binding ← assembly.resolve scope role
  (assembly.mountRole parts scope token role binding).outcome

/-- The role can be mounted: it has a binding, authentication, tools and a
valid name. -/
def Usable (role : String) : Prop :=
  ∃ module, assembly.serve parts scope token role = .ok module

/-- The role has a binding, and its authentication, its tools or its name
fail. -/
def FailsLate (role : String) : Prop :=
  ∃ binding error, assembly.resolve scope role = .ok binding ∧
    (assembly.mountRole parts scope token role binding).outcome = .error error

/-- The error with which the loop stops at a role. -/
def stops (role : String) : Option LymailleError :=
  match assembly.resolve scope role with
  | .ok binding =>
      match (assembly.mountRole parts scope token role binding).outcome with
      | .ok _ => none
      | .error error => some error
  | .error error => if role ∈ scope.required then some error else none

/-- The modules of those roles that have one. -/
def served (roles : List String) : List (GrantedModule parts) :=
  roles.filterMap fun role =>
    (assembly.serve parts scope token role).toOption

/-- The notices for those roles that have no module. -/
def noticed (roles : List String) : List String :=
  (roles.filter fun role =>
    (assembly.serve parts scope token role).toOption.isNone).map omitted

variable {assembly parts scope token}

theorem mountRole_name {role : String} {binding : Definitions.RoleBinding}
    {module : GrantedModule parts}
    (mounted : (assembly.mountRole parts scope token role binding).outcome =
      .ok module) : module.name = role := by
  unfold mountRole at mounted
  simp only [Logged.bind_eq, Logged.bind, Logged.lift, Logged.emit] at mounted
  cases made : assembly.clientArguments scope token role binding with
  | error error =>
      rw [made] at mounted
      cases mounted
  | ok arguments =>
      simp only [made] at mounted
      cases listed : parts.mcpModule role (parts.make arguments)
          (assembly.mcpEnv token) with
      | error text =>
          rw [listed] at mounted
          cases mounted
      | ok tools =>
          simp only [listed, Except.mapError] at mounted
          unfold GrantedModule.grant at mounted
          split at mounted
          next =>
            cases mounted
            rfl
          next => cases mounted

theorem serve_name {role : String} {module : GrantedModule parts}
    (found : assembly.serve parts scope token role = .ok module) :
    module.name = role := by
  obtain ⟨binding, _, mounted⟩ := Drafts.ok_of_bind found
  exact mountRole_name mounted

theorem stops_of_required {role : String} (needed : role ∈ scope.required) :
    assembly.stops parts scope token role = none ↔
      assembly.Usable parts scope token role := by
  unfold stops Usable serve
  cases found : assembly.resolve scope role with
  | error error =>
      simp [needed, Bind.bind, Except.bind]
  | ok binding =>
      cases mounted : (assembly.mountRole parts scope token role
          binding).outcome with
      | ok module => simp [Bind.bind, Except.bind, mounted]
      | error error => simp [Bind.bind, Except.bind, mounted]

theorem serve_of_stops {role : String} {error : LymailleError}
    (stopped : assembly.stops parts scope token role = some error) :
    assembly.serve parts scope token role = .error error := by
  unfold stops at stopped
  unfold serve
  cases found : assembly.resolve scope role with
  | error cause =>
      rw [found] at stopped
      dsimp only at stopped
      split at stopped
      next => rw [Option.some.inj stopped]; rfl
      next => cases stopped
  | ok binding =>
      rw [found] at stopped
      dsimp only at stopped
      show (assembly.mountRole parts scope token role binding).outcome = _
      split at stopped
      next => cases stopped
      next cause mounted => rw [mounted, Option.some.inj stopped]

theorem stops_of_optional {role : String} (chosen : role ∉ scope.required) :
    assembly.stops parts scope token role = none ↔
      ¬ assembly.FailsLate parts scope token role := by
  unfold stops FailsLate
  cases found : assembly.resolve scope role with
  | error error => simp [chosen]
  | ok binding =>
      cases mounted : (assembly.mountRole parts scope token role
          binding).outcome with
      | ok module => simp [mounted]
      | error error => simp [mounted]

/-- The loop ends with the error of the first role that stops it, otherwise
with the modules of the usable roles and a notice for each of the others. -/
theorem mountRoles_outcome (roles : List String)
    (granted : List (GrantedModule parts)) (notices : List String) :
    (assembly.mountRoles parts scope token roles granted notices).outcome =
      match roles.findSome? (assembly.stops parts scope token) with
      | some error => .error error
      | none => .ok (granted ++ assembly.served parts scope token roles,
          notices ++ assembly.noticed parts scope token roles) := by
  induction roles generalizing granted notices with
  | nil => simp [mountRoles, served, noticed, Pure.pure, Logged.pure]
  | cons role roles induction =>
      rw [mountRoles, List.findSome?_cons]
      cases found : assembly.resolve scope role with
      | error error =>
          have missing : assembly.serve parts scope token role =
              .error error := by
            rw [serve, found]
            rfl
          by_cases needed : role ∈ scope.required
          · simp [stops, found, needed, Logged.fail]
          · simp [stops, found, needed, induction, served, noticed, missing,
              Except.toOption]
      | ok binding =>
          have same : assembly.serve parts scope token role =
              (assembly.mountRole parts scope token role binding).outcome := by
            rw [serve, found]
            rfl
          simp only [stops, found]
          rw [Logged.bind_eq, Logged.bind]
          cases mounted : (assembly.mountRole parts scope token role
              binding).outcome with
          | error error => rfl
          | ok module =>
              rw [mounted] at same
              simp [induction, served, noticed, same, Except.toOption]

theorem omitted_injective : Function.Injective omitted := by
  intro role other same
  have characters := congrArg String.toList same
  simp only [omitted, String.toList_append, List.append_assoc] at characters
  have rest := List.append_cancel_left characters
  exact String.toList_injective (List.append_cancel_right rest)

theorem sort_erase (roles : Finset String) (role : String) :
    (roles.erase role).sort = roles.sort.filter fun other => other ≠ role := by
  apply List.Perm.eq_of_pairwise' (r := (· ≤ ·)) (Finset.pairwise_sort _ _)
  · exact (Finset.pairwise_sort roles _).sublist List.filter_sublist
  · rw [List.perm_ext_iff_of_nodup (Finset.sort_nodup _ _)
      ((Finset.sort_nodup _ _).sublist List.filter_sublist)]
    intro other
    simp [and_comm]

theorem roles_nodup (scope : Scope) : scope.roles.Nodup := by
  apply (Finset.sort_nodup _ _).append (Finset.sort_nodup _ _)
  intro role needed chosen
  exact Finset.disjoint_left.mp scope.disjoint
    ((Finset.mem_sort _).mp needed) ((Finset.mem_sort _).mp chosen)

theorem served_filter {role : String} (roles : List String)
    (unusable : ¬ assembly.Usable parts scope token role) :
    assembly.served parts scope token
        (roles.filter fun other => other ≠ role) =
      assembly.served parts scope token roles := by
  induction roles with
  | nil => rfl
  | cons other roles induction =>
      by_cases same : other = role
      · subst same
        have missing : (assembly.serve parts scope token other).toOption =
            none := by
          cases found : assembly.serve parts scope token other with
          | ok module => exact absurd ⟨module, found⟩ unusable
          | error error => rfl
        rw [List.filter_cons_of_neg (by simp), induction, served, served,
          List.filterMap_cons, missing]
      · rw [List.filter_cons_of_pos (by simpa using same)]
        unfold served at induction ⊢
        rw [List.filterMap_cons, List.filterMap_cons, induction]

theorem mem_served {role : String} {roles : List String} :
    role ∈ (assembly.served parts scope token roles).map GrantedModule.name ↔
      role ∈ roles ∧ assembly.Usable parts scope token role := by
  simp only [served, List.mem_map, List.mem_filterMap]
  constructor
  · intro granted
    obtain ⟨module, ⟨other, listed, found⟩, named⟩ := granted
    cases mounted : assembly.serve parts scope token other with
    | error error =>
        rw [mounted] at found
        cases found
    | ok result =>
        obtain rfl : other = role := by
          rw [mounted] at found
          cases found
          exact (serve_name mounted).symm.trans named
        exact ⟨listed, result, mounted⟩
  · intro usable
    obtain ⟨listed, module, found⟩ := usable
    exact ⟨module, ⟨role, listed, by rw [found]; rfl⟩, serve_name found⟩

theorem count_noticed {role : String} {roles : List String}
    (distinct : roles.Nodup) (listed : role ∈ roles)
    (unusable : ¬ assembly.Usable parts scope token role) :
    (assembly.noticed parts scope token roles).count (omitted role) = 1 := by
  unfold noticed
  rw [List.count_map_of_injective _ _ omitted_injective]
  apply List.count_eq_one_of_mem (distinct.sublist List.filter_sublist)
  rw [List.mem_filter]
  refine ⟨listed, ?_⟩
  cases found : assembly.serve parts scope token role with
  | ok module => exact absurd ⟨module, found⟩ unusable
  | error error => rfl

/-- Only a required role stops the assembly.  An optional role that cannot be
mounted is omitted with one notice, and the others are as without it; a
`Config` session has no roles. -/
structure Spared (assembly : Assembly) (parts : McpParts) (scope : Scope)
    (token : Option String) (kind : SessionKind) : Prop where
  config : kind = .config →
    (assembly.mountMcpRoles parts scope token kind).outcome = .ok ([], [])
  failed : ∀ error,
    (assembly.mountMcpRoles parts scope token kind).outcome = .error error →
      ∃ role ∈ scope.required,
        assembly.serve parts scope token role = .error error
  goesOn : (∀ role ∈ scope.required, assembly.Usable parts scope token role) →
    ∃ mounted,
      (assembly.mountMcpRoles parts scope token kind).outcome = .ok mounted
  omits : kind ≠ .config → ∀ granted notices,
    (assembly.mountMcpRoles parts scope token kind).outcome =
      .ok (granted, notices) →
    ∀ role ∈ scope.optional, ¬ assembly.Usable parts scope token role →
      role ∉ granted.map GrantedModule.name ∧
        notices.count (omitted role) = 1
  others : ∀ role ∈ scope.optional, ¬ assembly.Usable parts scope token role →
    (assembly.mountMcpRoles parts scope token kind).outcome.map Prod.fst =
      (assembly.mountMcpRoles parts (scope.without role) token
        kind).outcome.map Prod.fst

theorem findSome?_required {error : LymailleError}
    (stopped : scope.required.sort.findSome?
      (assembly.stops parts scope token) = some error) :
    ∃ role ∈ scope.required,
      assembly.serve parts scope token role = .error error := by
  obtain ⟨role, listed, stops⟩ := List.exists_of_findSome?_eq_some stopped
  exact ⟨role, (Finset.mem_sort _).mp listed, serve_of_stops stops⟩

theorem findSome?_required_eq_none :
    scope.required.sort.findSome? (assembly.stops parts scope token) = none ↔
      ∀ role ∈ scope.required, assembly.Usable parts scope token role := by
  rw [List.findSome?_eq_none_iff]
  constructor
  · intro all role needed
    exact (stops_of_required needed).mp
      (all role ((Finset.mem_sort _).mpr needed))
  · intro all role listed
    have needed := (Finset.mem_sort _).mp listed
    exact (stops_of_required needed).mpr (all role needed)

theorem findSome?_optional_eq_none :
    scope.optional.sort.findSome? (assembly.stops parts scope token) = none ↔
      ∀ role ∈ scope.optional,
        ¬ assembly.FailsLate parts scope token role := by
  have apart : ∀ role ∈ scope.optional, role ∉ scope.required :=
    fun role chosen needed =>
      Finset.disjoint_left.mp scope.disjoint needed chosen
  rw [List.findSome?_eq_none_iff]
  constructor
  · intro all role chosen
    exact (stops_of_optional (apart role chosen)).mp
      (all role ((Finset.mem_sort _).mpr chosen))
  · intro all role listed
    have chosen := (Finset.mem_sort _).mp listed
    exact (stops_of_optional (apart role chosen)).mpr (all role chosen)

theorem mountMcpRoles_outcome {kind : SessionKind} (mounts : kind ≠ .config) :
    (assembly.mountMcpRoles parts scope token kind).outcome =
      match (scope.required.sort.findSome?
          (assembly.stops parts scope token)).or
        (scope.optional.sort.findSome?
          (assembly.stops parts scope token)) with
      | some error => .error error
      | none => .ok (assembly.served parts scope token scope.roles,
          assembly.noticed parts scope token scope.roles) := by
  rw [mountMcpRoles, if_neg mounts, mountRoles_outcome]
  simp only [Scope.roles, List.findSome?_append, List.nil_append]

/-- An optional role that cannot be mounted, and does not stop the loop, may
as well be left out. -/
theorem without_outcome {kind : SessionKind} {role : String}
    (chosen : role ∈ scope.optional)
    (unusable : ¬ assembly.Usable parts scope token role)
    (lasts : (∃ needed ∈ scope.required,
        ¬ assembly.Usable parts scope token needed) ∨
      ∀ other ∈ scope.optional,
        ¬ assembly.FailsLate parts scope token other) :
    (assembly.mountMcpRoles parts scope token kind).outcome.map Prod.fst =
      (assembly.mountMcpRoles parts (scope.without role) token
        kind).outcome.map Prod.fst := by
  by_cases mounts : kind = .config
  · simp only [mountMcpRoles, if_pos mounts]
  rw [mountMcpRoles_outcome mounts, mountMcpRoles_outcome mounts]
  have same : assembly.stops parts (scope.without role) token =
      assembly.stops parts scope token := rfl
  rw [same]
  cases required : scope.required.sort.findSome?
      (assembly.stops parts scope token) with
  | some error =>
      have also : (scope.without role).required.sort.findSome?
          (assembly.stops parts scope token) = some error := required
      rw [also]
      rfl
  | none =>
      have also : (scope.without role).required.sort.findSome?
          (assembly.stops parts scope token) = none := required
      rw [also]
      have usable := findSome?_required_eq_none.mp required
      have late : ∀ other ∈ scope.optional,
          ¬ assembly.FailsLate parts scope token other := by
        rcases lasts with ⟨needed, listed, fails⟩ | late
        · exact absurd (usable needed listed) fails
        · exact late
      have optional := findSome?_optional_eq_none.mpr late
      have fewer : (scope.without role).optional.sort.findSome?
          (assembly.stops parts scope token) = none := by
        rw [List.findSome?_eq_none_iff] at optional ⊢
        intro other listed
        apply optional other
        rw [Finset.mem_sort] at listed ⊢
        exact Finset.mem_of_mem_erase listed
      rw [optional, fewer]
      have roles : (scope.without role).roles =
          scope.roles.filter fun other => other ≠ role := by
        rw [Scope.roles, Scope.roles, List.filter_append]
        congr 1
        · rw [List.filter_eq_self.mpr]
          · rfl
          · intro other listed
            simp only [ne_eq, decide_not, Bool.not_eq_eq_eq_not,
              Bool.not_true, decide_eq_false_iff_not]
            intro clash
            subst clash
            exact Finset.disjoint_left.mp scope.disjoint
              ((Finset.mem_sort _).mp listed) chosen
        · exact sort_erase _ _
      have modules : assembly.served parts (scope.without role) token
          (scope.without role).roles =
          assembly.served parts scope token scope.roles := by
        rw [roles]
        exact served_filter _ unusable
      show Except.ok _ = Except.ok _
      rw [modules]

/-- Optional roles are spared exactly when there are no roles to mount, when a
required role cannot be mounted, or when each optional role that is resolved
can also be authenticated, listed and named. -/
theorem spared_iff (assembly : Assembly) (parts : McpParts) (scope : Scope)
    (token : Option String) (kind : SessionKind) :
    assembly.Spared parts scope token kind ↔ kind = .config ∨
      (∃ role ∈ scope.required, ¬ assembly.Usable parts scope token role) ∨
      ∀ role ∈ scope.optional,
        ¬ assembly.FailsLate parts scope token role := by
  constructor
  · intro spared
    by_cases mounts : kind = .config
    · exact .inl mounts
    refine .inr ?_
    by_cases usable : ∀ role ∈ scope.required,
        assembly.Usable parts scope token role
    · obtain ⟨mounted, ended⟩ := spared.goesOn usable
      rw [mountMcpRoles_outcome mounts,
        findSome?_required_eq_none.mpr usable] at ended
      refine .inr (findSome?_optional_eq_none.mp ?_)
      cases stopped : scope.optional.sort.findSome?
          (assembly.stops parts scope token) with
      | none => rfl
      | some error =>
          rw [stopped] at ended
          cases ended
    · push Not at usable
      exact .inl usable
  · intro condition
    by_cases mounts : kind = .config
    · subst mounts
      constructor
      case config => exact fun _ => rfl
      case failed => exact fun error failed => by cases failed
      case goesOn => exact fun _ => ⟨_, rfl⟩
      case omits => exact fun mounts => absurd rfl mounts
      case others => exact fun role chosen unusable => rfl
    have lasts := condition.resolve_left mounts
    constructor
    case config => exact fun config => absurd config mounts
    case others =>
      intro role chosen unusable
      exact without_outcome chosen unusable lasts
    case failed =>
      intro error failed
      rw [mountMcpRoles_outcome mounts] at failed
      cases required : scope.required.sort.findSome?
          (assembly.stops parts scope token) with
      | some cause =>
          rw [required] at failed
          cases failed
          exact findSome?_required required
      | none =>
          have usable := findSome?_required_eq_none.mp required
          rcases lasts with ⟨role, needed, unusable⟩ | late
          · exact absurd (usable role needed) unusable
          · rw [required, findSome?_optional_eq_none.mpr late] at failed
            cases failed
    case goesOn =>
      intro usable
      rcases lasts with ⟨role, needed, unusable⟩ | late
      · exact absurd (usable role needed) unusable
      · rw [mountMcpRoles_outcome mounts,
          findSome?_required_eq_none.mpr usable,
          findSome?_optional_eq_none.mpr late]
        exact ⟨_, rfl⟩
    case omits =>
      intro _ granted notices mounted role chosen unusable
      rw [mountMcpRoles_outcome mounts] at mounted
      split at mounted
      next => cases mounted
      next =>
        cases mounted
        refine ⟨fun member => unusable (mem_served.mp member).2, ?_⟩
        apply count_noticed (roles_nodup scope) _ unusable
        exact List.mem_append_right _ ((Finset.mem_sort _).mpr chosen)

/-- A server that everybody may use. -/
def searchServer : ServerRow where
  id := 1
  name := "search"
  url := "https://search.example/"
  requestTimeoutSecs := 30
  connectTimeoutSecs := 5
  authMode := "none"
  authRef := none
  allowedGroups := .array [.string "all"]
  createdAt := 0

/-- A server that wants the token of the caller. -/
def forwardServer : ServerRow :=
  { searchServer with authMode := "forward" }

/-- One server, which alice asks for. -/
def searching (server : ServerRow) : Assembly where
  dbText _ := ""
  host := none
  caller := ⟨1, "alice", false⟩
  session := "s"
  apiKey := none
  moments _ :=
    { tables :=
        { users := .start
            { users := [], groups := [], memberships := []
              nextUser := 1, nextGroup := 1, nextMembership := 1 }
          servers := [server] }
      envs := fun _ => ⟨none, 0, 0⟩
      now := 0 }

/-- The role `search` is bound, and optional. -/
def searchScope : Scope where
  contextName := "context"
  bindings role := if role = "search" then some "search" else none
  required := ∅
  optional := {"search"}
  disjoint := Finset.disjoint_empty_left _

/-- Servers that are all down. -/
def unreachable : McpParts where
  Connector := Unit
  Module := Unit
  make _ := ()
  mcpModule _ _ _ := .error "connection refused"
  validName _ := true

/-- An optional server that is down makes the session unusable. -/
theorem optional_server_down_stops :
    ¬ ∀ assembly parts scope token kind,
      Assembly.Spared assembly parts scope token kind := by
  intro all
  have spared := all (searching searchServer) unreachable searchScope none .work
  obtain ⟨mounted, ended⟩ := spared.goesOn
    (fun role needed => absurd needed (Finset.notMem_empty role))
  have roles : searchScope.roles = ["search"] := by
    rw [Scope.roles, searchScope, Finset.sort_empty, Finset.sort_singleton,
      List.nil_append]
  rw [mountMcpRoles, if_neg (by decide), roles] at ended
  have failed : ((searching searchServer).mountRoles unreachable searchScope
      none ["search"] [] []).outcome = .error (.store "connection refused") := by
    rfl
  rw [failed] at ended
  cases ended

/-- The same arguments, but for the token that they forward. -/
def Alike (token token' : String) (made made' : ClientArguments) : Prop :=
  made = made' ∨ made.auth = some (.forward token) ∧
    made' = { made with auth := some (.forward token') }

/-- The clients list their tools, or fail to, whatever token they forward and
the redactor of the assembly masks.  The texts of the failures are related. -/
def SameBehaviour (assembly : Assembly) (parts : McpParts)
    (text : String → String → Prop) (token token' : String) : Prop :=
  ∀ role made made', Alike token token' made made' →
    Logged.Matched text (fun _ _ => True)
      (parts.mcpModule role (parts.make made) (assembly.mcpEnv (some token)))
      (parts.mcpModule role (parts.make made') (assembly.mcpEnv (some token')))

/-- The same error, or two texts with which a server failed to list its
tools. -/
inductive SameError (text : String → String → Prop) :
    LymailleError → LymailleError → Prop
  | same (error : LymailleError) : SameError text error error
  | listing {failure failure' : String} :
      text failure failure' → SameError text (.store failure) (.store failure')

/-- The role is bound to a server of the tables that wants the token. -/
def Forwarded (assembly : Assembly) (scope : Scope) (role : String) : Prop :=
  ∃ model, assembly.resolve scope role = .ok (.table model) ∧
    model.authMode = "forward"

/-- Calls of the factory for one role, with the same arguments but for the
authentication of a role whose server wants the token. -/
def Counterpart (assembly : Assembly) (scope : Scope) (token token' : String)
    (made made' : String × ClientArguments) : Prop :=
  made.1 = made'.1 ∧ Alike token token' made.2 made'.2 ∧
    (made.2 = made'.2 ∨ assembly.Forwarded scope made.1)

/-- The names of the modules and the notices. -/
def Told (mounted mounted' : List (GrantedModule parts) × List String) :
    Prop :=
  mounted.1.map GrantedModule.name = mounted'.1.map GrantedModule.name ∧
    mounted.2 = mounted'.2

theorem authMode_forward {mode : String} (forwards : authMode mode = .forward) :
    mode = "forward" := by
  unfold authMode at forwards
  split at forwards
  next => cases forwards
  next => rfl
  next => cases forwards

section Token

variable {token token' : String} {text : String → String → Prop}

theorem matched_buildAuth (model : ServerRow) :
    Logged.Matched (SameError text)
      (fun auth auth' => auth = auth' ∨ model.authMode = "forward" ∧
        auth = some (.forward token) ∧ auth' = some (.forward token'))
      (buildAuth model (some token)) (buildAuth model (some token')) := by
  unfold buildAuth
  cases mode : authMode model.authMode with
  | none => exact .ok (.inl rfl)
  | static =>
      cases model.authRef with
      | none => exact .error (.same _)
      | some reference => exact .ok (.inl rfl)
  | forward => exact .ok (.inr ⟨authMode_forward mode, rfl, rfl⟩)

theorem matched_clientArguments {role : String}
    {binding : Definitions.RoleBinding}
    (found : assembly.resolve scope role = .ok binding) :
    Logged.Matched (SameError text)
      (fun made made' =>
        Counterpart assembly scope token token' (role, made) (role, made'))
      (assembly.clientArguments scope (some token) role binding)
      (assembly.clientArguments scope (some token') role binding) := by
  cases binding with
  | host grant =>
      unfold clientArguments
      cases assembly.host with
      | none => exact .error (.same _)
      | some host => exact .ok ⟨rfl, .inl rfl, .inl rfl⟩
  | table model =>
      apply (matched_buildAuth model).bind
      intro auth auth' related
      apply Logged.Matched.ok
      rcases related with same | ⟨forward, first, second⟩
      · subst same
        exact ⟨rfl, .inl rfl, .inl rfl⟩
      · subst first second
        exact ⟨rfl, .inr ⟨rfl, rfl⟩, .inr ⟨model, found, forward⟩⟩

theorem beside_mountRole (behaves : SameBehaviour assembly parts text token token')
    {role : String} {binding : Definitions.RoleBinding}
    (found : assembly.resolve scope role = .ok binding) :
    Logged.Beside (Counterpart assembly scope token token') (SameError text)
      (fun module module' => module.name = module'.name)
      (assembly.mountRole parts scope (some token) role binding)
      (assembly.mountRole parts scope (some token') role binding) := by
  unfold mountRole
  apply Logged.Beside.bind
    (Logged.beside_lift (matched_clientArguments found))
  intro made made' counterpart
  refine Logged.Beside.bind (?_ : Logged.Beside _ _ (fun connector connector' =>
    connector = parts.make made ∧ connector' = parts.make made') _ _) ?_
  · exact Logged.beside_emit counterpart (.ok ⟨rfl, rfl⟩)
  intro connector connector' clients
  obtain ⟨rfl, rfl⟩ := clients
  refine Logged.Beside.bind (?_ : Logged.Beside _ _ (fun _ _ => True) _ _) ?_
  · apply Logged.beside_lift
    exact (behaves role made made' counterpart.2.1).mapError
      fun _ _ related => .listing related
  intro module module' _
  apply Logged.beside_lift
  unfold GrantedModule.grant
  split
  next => exact .ok rfl
  next => exact .error (.same _)

/-- The loop keeps the two runs side by side. -/
theorem beside_mountRoles (behaves : SameBehaviour assembly parts text token token')
    (roles : List String) {granted granted' : List (GrantedModule parts)}
    (names : granted.map GrantedModule.name =
      granted'.map GrantedModule.name) (notices : List String) :
    Logged.Beside (Counterpart assembly scope token token') (SameError text)
      Told
      (assembly.mountRoles parts scope (some token) roles granted notices)
      (assembly.mountRoles parts scope (some token') roles granted'
        notices) := by
  induction roles generalizing granted granted' notices with
  | nil => exact Logged.beside_pure ⟨names, rfl⟩
  | cons role roles induction =>
      rw [mountRoles, mountRoles]
      cases found : assembly.resolve scope role with
      | error error =>
          by_cases needed : role ∈ scope.required
          · simp only [if_pos needed]
            exact Logged.beside_fail (.same error)
          · simp only [if_neg needed]
            exact induction names _
      | ok binding =>
          apply Logged.Beside.bind (beside_mountRole behaves found)
          intro module module' named
          apply induction
          rw [List.map_append, List.map_append, names, List.map_singleton,
            List.map_singleton, named]

/-- Two assemblies that differ in the token of the caller make their clients
with the same arguments, but for the authentication of the roles whose server
wants the token; they grant modules of the same names, with the same notices,
or fail with the same error.  Only what a server says when it fails to list its
tools is as its client and the redactor make it. -/
theorem token_confined (assembly : Assembly) (parts : McpParts)
    (scope : Scope) (kind : SessionKind) (token token' : String)
    (text : String → String → Prop)
    (behaves : SameBehaviour assembly parts text token token') :
    Logged.Beside (Counterpart assembly scope token token') (SameError text)
      Told
      (assembly.mountMcpRoles parts scope (some token) kind)
      (assembly.mountMcpRoles parts scope (some token') kind) := by
  unfold mountMcpRoles
  split
  next => exact Logged.beside_pure ⟨rfl, rfl⟩
  next => exact beside_mountRoles behaves scope.roles rfl []

end Token

/-- Servers that answer. -/
def reachable : McpParts where
  Connector := Unit
  Module := Unit
  make _ := ()
  mcpModule _ _ _ := .ok ()
  validName _ := true

theorem token_confined_search :
    Logged.Beside (Counterpart (searching forwardServer) searchScope "secret"
        "other") (SameError Eq) Told
      ((searching forwardServer).mountMcpRoles reachable searchScope
        (some "secret") .work)
      ((searching forwardServer).mountMcpRoles reachable searchScope
        (some "other") .work) :=
  token_confined (searching forwardServer) reachable searchScope .work "secret"
    "other" Eq (fun _ _ _ _ => .ok trivial)

end Assembly

end MiryadCore.Interactive
