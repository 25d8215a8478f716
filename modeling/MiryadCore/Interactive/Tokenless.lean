import MiryadCore.Interactive.AssembleSession
import MiryadCore.Interactive.McpRoles

/-!
# Sessions that are assembled without a token

A session that can be assembled with a token can be assembled without one
unless one of its roles has a server that wants the token.  What the redactors
mask does not matter for this.
-/

namespace MiryadCore.Interactive

namespace Assembly

variable {assembly : Assembly} {scope : Scope}

theorem buildAuth_of_unforwarded {model : Definitions.ServerRow}
    (unforwarded : model.authMode ≠ "forward") (token token' : Option String) :
    buildAuth model token = buildAuth model token' := by
  unfold buildAuth
  cases mode : authMode model.authMode with
  | none => rfl
  | static => rfl
  | forward => exact absurd (authMode_forward mode) unforwarded

theorem clientArguments_of_unforwarded {role : String}
    {binding : Definitions.RoleBinding}
    (found : assembly.resolve scope role = .ok binding)
    (unforwarded : ¬ assembly.Forwarded scope role)
    (token token' : Option String) :
    assembly.clientArguments scope token role binding =
      assembly.clientArguments scope token' role binding := by
  cases binding with
  | host grant => rfl
  | table model =>
      have other : model.authMode ≠ "forward" :=
        fun same => unforwarded ⟨model, found, same⟩
      unfold clientArguments
      dsimp only
      rw [buildAuth_of_unforwarded other token token']

theorem stops_of_forwarded {parts : McpParts} {role : String}
    (forwarded : assembly.Forwarded scope role) :
    assembly.stops parts scope none role ≠ none := by
  obtain ⟨model, found, mode⟩ := forwarded
  have failed : assembly.clientArguments scope none role (.table model) =
      .error (.forbidden forwardNeedsSession) := by
    unfold clientArguments buildAuth
    dsimp only
    rw [mode]
    rfl
  have mounted : (assembly.mountRole parts scope none role
      (.table model)).outcome = .error (.forbidden forwardNeedsSession) := by
    unfold mountRole
    rw [failed]
    rfl
  unfold stops
  rw [found]
  dsimp only
  rw [mounted]
  exact fun same => by cases same

theorem not_forwarded_of_mounted {parts : McpParts} {kind : SessionKind}
    {mounted : List (GrantedModule parts) × List String}
    (done : (assembly.mountMcpRoles parts scope none kind).outcome =
      .ok mounted) (mounts : kind ≠ .config) {role : String}
    (listed : role ∈ scope.roles) : ¬ assembly.Forwarded scope role := by
  intro forwarded
  rw [mountMcpRoles, if_neg mounts, mountRoles_outcome] at done
  cases stopped : scope.roles.findSome? (assembly.stops parts scope none) with
  | some error =>
      rw [stopped] at done
      cases done
  | none =>
      exact stops_of_forwarded forwarded
        (List.findSome?_eq_none_iff.mp stopped role listed)

end Assembly

/-- Modules, grants and engines that are the same but for what they mask: one
is made whenever the other is. -/
structure Masking (parts : AssembleParts) where
  module : parts.Module → parts.Module → Prop
  grants : parts.Grants → parts.Grants → Prop
  engine : parts.Engine → parts.Engine → Prop
  resources : ∀ subject,
    module (parts.resourcesModule subject) (parts.resourcesModule subject)
  lists : ∀ role connector env env' made, env.session = env'.session →
    parts.mcpModule role connector env = .ok made →
    ∃ made', parts.mcpModule role connector env' = .ok made' ∧
      module made made'
  assembles : ∀ toolsets granted granted' context made,
    List.Forall₂ (fun one other : GrantedModule parts.toMcpParts =>
      one.name = other.name ∧ module one.module other.module)
        granted granted' →
    parts.assemble toolsets granted context = .ok made →
    ∃ made', parts.assemble toolsets granted' context = .ok made' ∧
      grants made made'
  builds : ∀ given given' registration registration' made,
    grants given given' →
    registration.map McpEnv.session = registration'.map McpEnv.session →
    parts.build given registration = .ok made →
    ∃ made', parts.build given' registration' = .ok made' ∧
      engine made made'
  restores : ∀ state made made' fingerprint versions notices,
    engine made made' →
    parts.restore state made fingerprint versions = .ok notices →
    ∃ notices',
      parts.restore state made' fingerprint versions = .ok notices'

section Masking

variable {parts : AssembleParts} (masking : Masking parts)
  {assembly : Assembly} {scope : Scope} {token : Option String}

/-- Modules of the same name that are the same but for what they mask. -/
def Masking.Alike (one other : GrantedModule parts.toMcpParts) : Prop :=
  one.name = other.name ∧ masking.module one.module other.module

variable {masking}

theorem Masking.mountRole {role : String}
    {binding : Definitions.RoleBinding}
    {module : GrantedModule parts.toMcpParts}
    (found : assembly.resolve scope role = .ok binding)
    (unforwarded : ¬ assembly.Forwarded scope role)
    (mounted : (assembly.mountRole parts.toMcpParts scope token role
      binding).outcome = .ok module) (token' : Option String) :
    ∃ module', (assembly.mountRole parts.toMcpParts scope token' role
        binding).outcome = .ok module' ∧ masking.Alike module module' := by
  unfold Assembly.mountRole at mounted ⊢
  obtain ⟨arguments, made, mounted⟩ := Logged.outcome_bind.mp mounted
  obtain ⟨connector, connected, mounted⟩ := Logged.outcome_bind.mp mounted
  obtain ⟨listed, lists, granted⟩ := Logged.outcome_bind.mp mounted
  cases connected
  rw [Assembly.clientArguments_of_unforwarded found unforwarded token token']
    at made
  obtain ⟨listed', lists', alike⟩ := masking.lists role _
    (assembly.mcpEnv token) (assembly.mcpEnv token') listed rfl
    (Logged.mapError_eq_ok.mp lists)
  unfold GrantedModule.grant at granted
  split at granted
  next valid =>
    cases granted
    refine ⟨{ name := role, module := listed' }, ?_, rfl, alike⟩
    refine Logged.outcome_bind.mpr ⟨arguments, made, ?_⟩
    refine Logged.outcome_bind.mpr ⟨_, rfl, ?_⟩
    refine Logged.outcome_bind.mpr ⟨listed', ?_, ?_⟩
    · exact Logged.mapError_eq_ok.mpr lists'
    · exact if_pos valid
  next => cases granted

theorem Masking.mountRoles {roles : List String}
    (unforwarded : ∀ role ∈ roles, ¬ assembly.Forwarded scope role)
    {granted granted' : List (GrantedModule parts.toMcpParts)}
    (alike : List.Forall₂ masking.Alike granted granted')
    (notices : List String)
    {mounted : List (GrantedModule parts.toMcpParts) × List String}
    (done : (assembly.mountRoles parts.toMcpParts scope token roles granted
      notices).outcome = .ok mounted) (token' : Option String) :
    ∃ mounted', (assembly.mountRoles parts.toMcpParts scope token' roles
        granted' notices).outcome = .ok mounted' ∧
      List.Forall₂ masking.Alike mounted.1 mounted'.1 := by
  induction roles generalizing granted granted' notices with
  | nil =>
      cases done
      exact ⟨(granted', notices), rfl, alike⟩
  | cons role roles induction =>
      have later : ∀ role ∈ roles, ¬ assembly.Forwarded scope role :=
        fun other member => unforwarded other (List.mem_cons_of_mem _ member)
      rw [Assembly.mountRoles] at done ⊢
      cases found : assembly.resolve scope role with
      | error error =>
          rw [found] at done
          dsimp only at done ⊢
          by_cases needed : role ∈ scope.required
          · rw [if_pos needed] at done
            cases done
          · rw [if_neg needed] at done ⊢
            exact induction later alike _ done
      | ok binding =>
          rw [found] at done
          obtain ⟨module, made, done⟩ := Logged.outcome_bind.mp done
          obtain ⟨module', made', same⟩ := masking.mountRole found
            (unforwarded role List.mem_cons_self) made token'
          obtain ⟨mounted', done', related⟩ := induction later
            (List.rel_append alike (.cons same .nil)) notices done
          exact ⟨mounted', Logged.outcome_bind.mpr ⟨module', made', done'⟩,
            related⟩

theorem Masking.mountMcpRoles {kind : SessionKind}
    (unforwarded : kind = .config ∨
      ∀ role ∈ scope.roles, ¬ assembly.Forwarded scope role)
    {mounted : List (GrantedModule parts.toMcpParts) × List String}
    (done : (assembly.mountMcpRoles parts.toMcpParts scope token
      kind).outcome = .ok mounted) (token' : Option String) :
    ∃ mounted', (assembly.mountMcpRoles parts.toMcpParts scope token'
        kind).outcome = .ok mounted' ∧
      List.Forall₂ masking.Alike mounted.1 mounted'.1 := by
  unfold Assembly.mountMcpRoles at done ⊢
  split at done
  next config =>
    cases done
    exact ⟨_, by rw [if_pos config]; rfl, .nil⟩
  next mounts =>
    rw [if_neg mounts]
    exact masking.mountRoles (unforwarded.resolve_left mounts) .nil [] done
      token'

end Masking

namespace AssembleDeps

variable {parts : AssembleParts} {deps : AssembleDeps parts}
  {sessions : Sessions SessionState} {caller : CallerPrincipal}
  {kind : SessionKind} {agentId : String} {session : SessionId}
  {token : Option String}

/-- A role of the session has a server that wants the token of the caller. -/
def Forwards (deps : AssembleDeps parts) (sessions : Sessions SessionState)
    (caller : CallerPrincipal) (agentId : String) (session : SessionId) :
    Prop :=
  ∃ resolved scope role,
    deps.resolveInference caller agentId ADMIN_ONLY_MODULES = .ok resolved ∧
    deps.resolveScope sessions caller resolved.definition session =
      .ok scope ∧
    role ∈ scope.roles ∧
    (deps.assembly caller session resolved.apiKey).Forwarded scope.toScope role

theorem ok_bind {ε α β : Type} {first : Except ε α} {middle : α}
    (succeeded : first = .ok middle) (next : α → Except ε β) :
    (first >>= next) = next middle := by
  rw [succeeded]
  rfl

/-- The scope that the parts make. -/
theorem resolveScope_eq {definition : AgentRecord} {toolsets : List Toolset}
    {context : Option parts.Context} {required optional : Finset String}
    (active : activeToolsets (deps.stores caller.subject) definition.toolsets =
      .ok toolsets)
    (bound : contextOf (deps.stores caller.subject)
      (((sessions.load caller.subject session).map
        SessionState.context).getD "") = .ok context)
    (roles : roleRequirements
      (fun name => ((deps.stores caller.subject).getType name).mapError
        Manager.fromCatalog) parts.flatten toolsets =
          .ok (required, optional)) :
    deps.resolveScope sessions caller definition session =
      .ok { contextName := ((sessions.load caller.subject session).map
              SessionState.context).getD ""
            bindings := fun role => context.bind fun context =>
              parts.contextRoles context role
            required, optional, context, toolsets
            disjoint := roleRequirements_disjoint _ _ roles } := by
  unfold resolveScope
  rw [ok_bind active, ok_bind bound]
  split
  next error failed => cases roles.symm.trans failed
  next other same =>
    cases roles.symm.trans same
    rfl

theorem alike_baseModules (masking : Masking parts)
    {granted : List (GrantedModule parts.toMcpParts)}
    (base : baseModules caller = .ok granted) :
    List.Forall₂ masking.Alike granted granted := by
  obtain ⟨resources, made, same⟩ := Drafts.ok_of_bind base
  cases same
  unfold GrantedModule.grant at made
  split at made
  next =>
    cases made
    exact .cons ⟨rfl, masking.resources caller.subject⟩ .nil
  next => cases made

theorem built_of_alike (masking : Masking parts) {apiKey : Option String}
    {scope : SessionScope parts}
    {granted granted' : List (GrantedModule parts.toMcpParts)}
    (alike : List.Forall₂ masking.Alike granted granted')
    {engine : parts.Engine}
    (built : buildEngine kind session apiKey scope granted token =
      .ok engine) (token' : Option String) :
    ∃ engine', buildEngine kind session apiKey scope granted' token' =
      .ok engine' ∧ masking.engine engine engine' := by
  unfold buildEngine at built ⊢
  obtain ⟨context, resolved, built⟩ := Drafts.ok_of_bind built
  obtain ⟨grants, assembled, built⟩ := Drafts.ok_of_bind built
  obtain ⟨grants', assembled', same⟩ := masking.assembles _ _ _ _ _ alike
    (Logged.mapError_eq_ok.mp assembled)
  have sessions : (if kind = .config then some
        ({ redactor := configuredRedactor apiKey token, session } : ConfigEnv)
      else none).map McpEnv.session =
      (if kind = .config then some
        ({ redactor := configuredRedactor apiKey token', session } : ConfigEnv)
      else none).map McpEnv.session := by
    split <;> rfl
  obtain ⟨engine', built', related⟩ := masking.builds _ _ _ _ _ same sessions
    (Logged.mapError_eq_ok.mp built)
  refine ⟨engine', ?_, related⟩
  rw [ok_bind resolved, ok_bind (Logged.mapError_eq_ok.mpr assembled')]
  exact Logged.mapError_eq_ok.mpr built'

theorem restored_of_alike (masking : Masking parts) {definition : AgentRecord}
    {toolsets : List Toolset} {engine engine' : parts.Engine}
    (related : masking.engine engine engine') {notices : List String}
    (restored : restoreOrNew sessions caller session definition toolsets
      engine = .ok notices) :
    ∃ notices', restoreOrNew sessions caller session definition toolsets
      engine' = .ok notices' := by
  unfold restoreOrNew at restored ⊢
  cases found : sessions.load caller.subject session with
  | none => exact ⟨[], rfl⟩
  | some state =>
      rw [found] at restored
      obtain ⟨notices', again⟩ := masking.restores state _ _ _ _ _ related
        (Logged.mapError_eq_ok.mp restored)
      exact ⟨notices', Logged.mapError_eq_ok.mpr again⟩

/-- What is assembled with a token is assembled without one, when no token is
wanted. -/
theorem assembled_of_unforwarded (masking : Masking parts)
    (unforwarded : kind = .config ∨
      ¬ deps.Forwards sessions caller agentId session)
    {notices : List String}
    (assembled : deps.assembleSession sessions caller kind agentId session
      token = .ok notices) (token' : Option String) :
    ∃ notices', deps.assembleSession sessions caller kind agentId session
      token' = .ok notices' := by
  unfold assembleSession assembleWith at assembled ⊢
  obtain ⟨resolved, inference, assembled⟩ := Drafts.ok_of_bind assembled
  obtain ⟨scope, read, assembled⟩ := Drafts.ok_of_bind assembled
  obtain ⟨granted, base, assembled⟩ := Drafts.ok_of_bind assembled
  obtain ⟨mounted, mounts, assembled⟩ := Drafts.ok_of_bind assembled
  obtain ⟨engine, built, assembled⟩ := Drafts.ok_of_bind assembled
  obtain ⟨restored, restores, _⟩ := Drafts.ok_of_bind assembled
  have unwanted : kind = .config ∨ ∀ role ∈ scope.roles,
      ¬ (deps.assembly caller session resolved.apiKey).Forwarded scope.toScope
        role :=
    unforwarded.imp_right fun none role listed wanted =>
      none ⟨resolved, scope, role, inference, read, listed, wanted⟩
  obtain ⟨mounted', mounts', alike⟩ :=
    masking.mountMcpRoles unwanted mounts token'
  obtain ⟨engine', built', related⟩ := built_of_alike masking
    (List.rel_append (alike_baseModules masking base) alike) built token'
  obtain ⟨restored', restores'⟩ := restored_of_alike masking related restores
  rw [ok_bind inference, ok_bind read, ok_bind base, ok_bind mounts']
  dsimp only
  rw [ok_bind built', ok_bind restores']
  exact ⟨_, rfl⟩

theorem unforwarded_of_assembled {notices : List String}
    (assembled : deps.assembleSession sessions caller kind agentId session
      none = .ok notices) (mounts : kind ≠ .config) :
    ¬ deps.Forwards sessions caller agentId session := by
  intro forwards
  obtain ⟨resolved, scope, role, inference, read, listed, wanted⟩ := forwards
  unfold assembleSession assembleWith at assembled
  obtain ⟨other, inference', assembled⟩ := Drafts.ok_of_bind assembled
  cases inference.symm.trans inference'
  obtain ⟨scope', read', assembled⟩ := Drafts.ok_of_bind assembled
  cases read.symm.trans read'
  obtain ⟨granted, base, assembled⟩ := Drafts.ok_of_bind assembled
  obtain ⟨mounted, done, _⟩ := Drafts.ok_of_bind assembled
  exact Assembly.not_forwarded_of_mounted done mounts listed wanted

end AssembleDeps

end MiryadCore.Interactive
