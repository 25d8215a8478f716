import MiryadCore.Control.Logged
import MiryadCore.Interactive.StoredDefinitions

/-!
# The agents that sessions are opened with

`open_` chooses the agent of a session by the type of the context, and the kind
of the session by the type and by the agent.  A type of the kind `Sub` decides
nothing: a session on its contexts is of the kind of the agent.
-/

namespace MiryadCore.Interactive

open Manager (Section Conditions)

variable {parts : Parts}

namespace Catalogue

variable (catalogue : Catalogue)

/-- The principal that a subject is. -/
def callerOf (stored : Stored parts) (subject : String) :
    Option CallerPrincipal :=
  (catalogue.accounts subject).map fun userId =>
    { userId, subject, isAdmin := stored.manager.admins subject }

/-- The agent is that asked for, otherwise that of the type; the type allows
it, and the account sees it. -/
structure Chosen (userId : ℤ) (context : String) (agent : Option String)
    (table : IdKind) (type : ContextType) (agentId : String)
    (definition : AgentDefinition) : Prop where
  typed : ∃ allowed, catalogue.TypeOf userId table context type allowed ∧
    agentId ∈ allowed
  chosen : agent.or type.defaultAgent = some agentId
  visible : catalogue.AgentOf userId agentId definition

/-- The kind of a session is that of its agent, and that of the type when the
type fixes one. -/
structure Fits (type : ContextType) (definition : AgentDefinition)
    (kind : SessionKind) : Prop where
  agent : definition.kind = Manager.agentKindOf kind
  fixed : ∀ fixed, type.sessionKind = some fixed → kind = fixed
  interactive : kind ≠ .sub

section Openings

variable (caller : CallerPrincipal) (context : String) (agent : Option String)

/-- What a session on a context of the host needs. -/
structure Hosted (kind : SessionKind) (agentId : String)
    (definition : AgentDefinition) : Prop where
  explicit : agent = some agentId
  found : ∃ resolve, catalogue.resolveContext = some resolve ∧
    resolve context caller = .ok true
  visible : catalogue.AgentOf caller.userId agentId definition
  agent : definition.kind = .work
  kind : kind = .work

/-- A session on the context may be of this kind, with this agent. -/
def Opening (kind : SessionKind) (agentId : String)
    (definition : AgentDefinition) : Prop :=
  match classify context with
  | .error _ => False
  | .ok .host => catalogue.Hosted caller context agent kind agentId definition
  | .ok table => ∃ type,
      catalogue.Chosen caller.userId context agent table type agentId definition ∧
        Fits type definition kind

end Openings

/-- The type is of the kind `Sub`, and nothing else refuses the session. -/
def Unfit (subject : String) (userId : ℤ) (context : String)
    (agent : Option String) : Prop :=
  ∃ table type agentId definition, classify context = .ok table ∧
    table ≠ .host ∧
    catalogue.Chosen userId context agent table type agentId definition ∧
    type.sessionKind = some .sub ∧ definition.kind ≠ .sub ∧
    ∃ start, catalogue.startOf.resolve type
      (catalogue.getAgent (.ok ()) subject) = .ok start

/-- The stored session of the handle is of its kind, on the definition. -/
def Holds (stored : Stored parts) (subject : String) (handle : SessionHandle)
    (definition : AgentDefinition) : Prop :=
  ∃ state, stored.sessions.load subject handle.id = some state ∧
    state.kind = handle.kind ∧ state.agentName = definition.id ∧
    state.fingerprint = definition.fingerprint

/-- The subject may have a session on the context. -/
def MayOpen (stored : Stored parts) (subject context : String)
    (agent : Option String) (kind : SessionKind) (agentId : String)
    (definition : AgentDefinition) : Prop :=
  ∃ caller, catalogue.callerOf stored subject = some caller ∧
    catalogue.Opening caller context agent kind agentId definition

/-- `open_` opens what the definitions allow; what they do not is refused
before a session is written. -/
def OpensSoundly (parts : Parts) (bound : ℕ) (subject context : String)
    (agent : Option String) : Prop :=
  ∀ (envs : ℕ → Conditions) (stored : Stored parts),
    let ended := Script.run catalogue.exec envs
      (Manager.open_ bound subject context agent) stored
    (∀ handle, ended.1 = .ok handle → handle.context = context ∧
      ∃ definition, catalogue.MayOpen stored subject context agent handle.kind
          handle.agentId definition ∧
        Holds ended.2 subject handle definition) ∧
    ((∀ kind agentId definition, ¬ catalogue.MayOpen stored subject context
        agent kind agentId definition) →
      (∃ error, ended.1 = .error error) ∧
        ended.2.sessions = stored.sessions)

variable {catalogue} {stored : Stored parts}

theorem observes_demand {α : Type} {request : Section}
    {translate : request.Reply → Except LymailleError α}
    {answer : Conditions → request.Reply} {post : α → Prop}
    (replies : ∀ given, catalogue.exec given stored request =
      (answer given, stored))
    (holds : ∀ given value, translate (answer given) = .ok value →
      post value) :
    Query.Observes catalogue.exec (Manager.demand request translate) stored
      post fun _ => True := by
  apply Script.Meets.alone
  intro given
  rw [replies given]
  cases told : translate (answer given) with
  | error error => exact Query.Observes.fail trivial
  | ok value => exact Query.Observes.pure (holds given value told)

theorem eq_of_mapError_map {α β ε : Type} {translate : ε → LymailleError}
    {result : Except ε β} {known value : α}
    (told : (result.map fun _ => known).mapError translate = .ok value) :
    value = known := by
  cases result with
  | error error => cases told
  | ok _ =>
      cases told
      rfl

theorem observes_principal (subject : String) :
    Query.Observes catalogue.exec (Manager.principal subject) stored
      (fun caller => catalogue.callerOf stored subject = some caller)
      fun _ => True := by
  have account : Query.Observes catalogue.exec
      (Manager.demand (.account subject) Manager.storeError) stored
      (fun account => account = catalogue.accounts subject) fun _ => True :=
    observes_demand (fun _ => rfl) fun _ _ told => eq_of_mapError_map told
  apply account.bind
  intro account same
  subst same
  unfold callerOf
  cases catalogue.accounts subject with
  | none => exact .fail trivial
  | some userId =>
      have admin : Query.Observes catalogue.exec
          (Manager.demand (.admin subject) Manager.storeError) stored
          (fun isAdmin => isAdmin = stored.manager.admins subject)
          fun _ => True :=
        observes_demand (fun _ => rfl) fun _ _ told => eq_of_mapError_map told
      apply admin.bind
      intro isAdmin same
      subst same
      exact .pure rfl

theorem observes_resolveAgent {caller : CallerPrincipal} (agentId : String)
    (called : catalogue.accounts caller.subject = some caller.userId) :
    Query.Observes catalogue.exec
      (Manager.resolveAgent caller.subject agentId) stored
      (fun definition => catalogue.AgentOf caller.userId agentId definition)
      fun _ => True := by
  have read : Query.Observes catalogue.exec
      (Manager.demand (.agent caller.subject agentId)
        (Except.mapError Manager.fromCatalog)) stored
      (fun found => ∀ definition, found = some definition →
        catalogue.AgentOf caller.userId agentId definition)
      fun _ => True := by
    apply observes_demand fun _ => rfl
    intro given found told definition same
    subst same
    obtain ⟨_, userId, account, visible⟩ :=
      agentOf_of_getAgent (Logged.mapError_eq_ok.mp told)
    cases account.symm.trans called
    exact visible
  apply read.bind
  intro found visible
  cases found with
  | none => exact .fail trivial
  | some definition => exact .pure (visible definition rfl)

theorem observes_hostContextExists (caller : CallerPrincipal)
    (context : String) :
    Query.Observes catalogue.exec (Manager.hostContextExists caller context)
      stored
      (fun _ => ∃ resolve, catalogue.resolveContext = some resolve ∧
        resolve context caller = .ok true)
      fun _ => True := by
  have found : Query.Observes catalogue.exec
      (Manager.get (.hostContext context caller)) stored
      (fun found => found = catalogue.hostContext context caller)
      fun _ => True := by
    apply Script.Meets.alone
    intro given
    exact Query.Observes.pure rfl
  apply found.bind
  intro found same
  cases found with
  | false => exact .fail trivial
  | true => exact .pure (hostContext_eq_true.mp same.symm)

theorem observes_visibleContextType (caller : CallerPrincipal)
    (table : IdKind) (context : String) :
    Query.Observes catalogue.exec
      (Manager.visibleContextType caller table context) stored
      (fun reference => catalogue.contextRow table context caller.userId =
        some reference)
      fun _ => True := by
  have row : Query.Observes catalogue.exec
      (Manager.demand (.visibleContextType table context caller.userId)
        Manager.storeError) stored
      (fun row => row = catalogue.contextRow table context caller.userId)
      fun _ => True :=
    observes_demand (fun _ => rfl) fun _ _ told => eq_of_mapError_map told
  apply row.bind
  intro row same
  cases row with
  | none => exact .fail trivial
  | some reference => exact .pure same.symm

/-- The start of a type, whose default agent it is resolved from. -/
theorem observes_start {caller : CallerPrincipal} (type : ContextType)
    (called : catalogue.accounts caller.subject = some caller.userId) :
    Query.Observes catalogue.exec
      (Manager.demand (.resolveStart caller.subject type)
        (Except.mapError Manager.fromCatalog)) stored
      (fun start => catalogue.startOf.resolve type
          (catalogue.getAgent (.ok ()) caller.subject) = .ok start ∧
        ∀ definition, start = some definition → ∃ name,
          type.defaultAgent = some name ∧
            catalogue.AgentOf caller.userId name definition)
      fun _ => True := by
  apply observes_demand fun _ => rfl
  intro given start told
  replace told := Logged.mapError_eq_ok.mp told
  change catalogue.startOf.resolve type (catalogue.getAgent
    (given.resolveStart.map fun _ => ()) caller.subject) = .ok start at told
  cases default : type.defaultAgent with
  | none =>
      rw [catalogue.startOf.resolve_none type _ default] at told
      cases told
      refine ⟨catalogue.startOf.resolve_none type _ default, ?_⟩
      intro definition same
      cases same
  | some name =>
      rcases catalogue.startOf.resolve_some type _ name default with
        ⟨definition, found, resolved⟩ | ⟨error, refused⟩
      · rw [resolved] at told
        cases told
        obtain ⟨ok, userId, account, visible⟩ := agentOf_of_getAgent found
        rw [ok] at resolved
        refine ⟨resolved, fun other same => ?_⟩
        cases same
        cases account.symm.trans called
        exact ⟨name, rfl, visible⟩
      · cases refused.symm.trans told

theorem observes_contextType (name : String) :
    Query.Observes catalogue.exec
      (Manager.demand (.contextType name) Manager.storeError) stored
      (fun found => found = catalogue.contextType name) fun _ => True :=
  observes_demand (fun _ => rfl) fun _ _ told => eq_of_mapError_map told

theorem observes_definitionOf {caller : CallerPrincipal} {agentId : String}
    {agent : Option String} {type : ContextType}
    {start : Option AgentDefinition}
    (called : catalogue.accounts caller.subject = some caller.userId)
    (chosen : agent.or type.defaultAgent = some agentId)
    (started : ∀ definition, start = some definition → ∃ name,
      type.defaultAgent = some name ∧
        catalogue.AgentOf caller.userId name definition) :
    Query.Observes catalogue.exec
      (Manager.definitionOf caller.subject agentId agent start) stored
      (fun definition => catalogue.AgentOf caller.userId agentId definition)
      fun _ => True := by
  unfold Manager.definitionOf
  split
  next => exact observes_resolveAgent agentId called
  next target =>
    obtain ⟨name, default, visible⟩ := started target rfl
    cases default.symm.trans chosen
    exact .pure visible
  next => exact .fail trivial

/-- A type that fixes no kind but `Sub` leaves it to the agent. -/
theorem sessionKindOf_ok {type : ContextType} {definition : AgentDefinition}
    {kind : SessionKind}
    (given : Manager.sessionKindOf type definition = .ok kind) :
    Fits type definition kind ∨
      (type.sessionKind = some .sub ∧ definition.kind ≠ .sub) := by
  unfold Manager.sessionKindOf at given
  cases fixed : type.sessionKind with
  | none =>
      rw [fixed] at given
      refine .inl ?_
      cases same : definition.kind <;> rw [same] at given <;> cases given
      · exact ⟨same, fun _ => by simp [fixed], by simp⟩
      · exact ⟨same, fun _ => by simp [fixed], by simp⟩
  | some fixed' =>
      rw [fixed] at given
      cases fixed' with
      | sub =>
          refine .inr ⟨rfl, fun same => ?_⟩
          rw [same] at given
          cases given
      | _ =>
          refine .inl ?_
          dsimp only at given
          split at given
          next same =>
            cases given
            exact ⟨same, fun _ => by simp [fixed, eq_comm], by simp⟩
          next => cases given

theorem observes_resolveTypeStart {caller : CallerPrincipal} {table : IdKind}
    {context : String} (agent : Option String)
    (called : catalogue.accounts caller.subject = some caller.userId) :
    Query.Observes catalogue.exec
      (Manager.resolveTypeStart caller table context agent) stored
      (fun opened => ∃ type,
        catalogue.Chosen caller.userId context agent table type opened.2.1
          opened.2.2 ∧
        (Fits type opened.2.2 opened.1 ∨
          (type.sessionKind = some .sub ∧ opened.2.2.kind ≠ .sub ∧
            ∃ start, catalogue.startOf.resolve type
              (catalogue.getAgent (.ok ()) caller.subject) = .ok start)))
      fun _ => True := by
  apply (observes_visibleContextType caller table context).bind
  intro reference row
  cases reference with
  | none => exact .fail trivial
  | some reference =>
  apply (observes_contextType reference).bind
  intro found typed
  cases found with
  | none => exact .fail trivial
  | some found =>
  obtain ⟨type, allowed⟩ := found
  apply (observes_start type called).bind
  intro start started
  split
  next => exact .fail trivial
  next agentId chosen =>
    split
    next => exact .fail trivial
    next member =>
      apply (observes_definitionOf called chosen started.2).bind
      intro definition visible
      cases decided : Manager.sessionKindOf type definition with
      | error error => exact .fail trivial
      | ok kind =>
          refine .pure ⟨type, ⟨⟨allowed, ⟨reference, row, typed.symm⟩,
            not_not.mp member⟩, chosen, visible⟩, ?_⟩
          exact (sessionKindOf_ok decided).imp_right
            fun sub => ⟨sub.1, sub.2, start, started.1⟩

theorem opening_of_typed {caller : CallerPrincipal} {context : String}
    {agent : Option String} {table : IdKind}
    (classified : classify context = .ok table) (stored_ : table ≠ .host)
    {kind : SessionKind} {agentId : String} {definition : AgentDefinition} :
    catalogue.Opening caller context agent kind agentId definition ↔
      ∃ type, catalogue.Chosen caller.userId context agent table type agentId
          definition ∧ Fits type definition kind := by
  unfold Opening
  rw [classified]
  cases table with
  | host => exact absurd rfl stored_
  | catalog => rfl
  | private_ => rfl

theorem opening_of_host {caller : CallerPrincipal} {context : String}
    {agent : Option String} (classified : classify context = .ok .host)
    {kind : SessionKind} {agentId : String} {definition : AgentDefinition} :
    catalogue.Opening caller context agent kind agentId definition ↔
      catalogue.Hosted caller context agent kind agentId definition := by
  unfold Opening
  rw [classified]

theorem observes_hosted {caller : CallerPrincipal} {context : String}
    (agent : Option String)
    (called : catalogue.accounts caller.subject = some caller.userId)
    (classified : classify context = .ok .host) :
    Query.Observes catalogue.exec (Manager.resolveStart caller context agent)
      stored
      (fun opened => catalogue.Hosted caller context agent opened.1 opened.2.1
        opened.2.2)
      fun _ => True := by
  unfold Manager.resolveStart
  rw [classified]
  cases agent with
  | none => exact .fail trivial
  | some agent =>
      apply (observes_hostContextExists caller context).bind
      intro _ found
      apply (observes_resolveAgent agent called).bind
      intro definition visible
      split
      next => exact .fail trivial
      next same => exact .pure ⟨rfl, found, visible, not_not.mp same, rfl⟩

/-- What `open_` resolves is what the definitions allow, unless the type is of
the kind `Sub`. -/
theorem observes_resolveStart {caller : CallerPrincipal} {context : String}
    (agent : Option String)
    (called : catalogue.accounts caller.subject = some caller.userId) :
    Query.Observes catalogue.exec (Manager.resolveStart caller context agent)
      stored
      (fun opened => catalogue.Opening caller context agent opened.1
        opened.2.1 opened.2.2 ∨ catalogue.Unfit caller.subject caller.userId context agent)
      fun _ => True := by
  have typed : ∀ table, table ≠ .host → classify context = .ok table →
      Query.Observes catalogue.exec
        (Manager.resolveTypeStart caller table context agent) stored
        (fun opened => catalogue.Opening caller context agent opened.1
          opened.2.1 opened.2.2 ∨ catalogue.Unfit caller.subject caller.userId context agent)
        fun _ => True := by
    intro table apart classified
    apply (observes_resolveTypeStart agent called).mono
    · intro opened found
      obtain ⟨type, chosen, fits | ⟨sub, agentKind, started⟩⟩ := found
      · exact .inl ((opening_of_typed classified apart).mpr
          ⟨type, chosen, fits⟩)
      · exact .inr ⟨table, type, _, _, classified, apart, chosen, sub,
          agentKind, started⟩
    · exact fun _ _ => trivial
  cases classified : classify context with
  | error error =>
      unfold Manager.resolveStart
      rw [classified]
      exact .fail trivial
  | ok table =>
      cases table with
      | host =>
          apply (observes_hosted agent called classified).mono
          · exact fun opened hosted =>
              .inl ((opening_of_host classified).mpr hosted)
          · exact fun _ _ => trivial
      | catalog =>
          unfold Manager.resolveStart
          rw [classified]
          exact typed .catalog (by decide) classified
      | private_ =>
          unfold Manager.resolveStart
          rw [classified]
          exact typed .private_ (by decide) classified

theorem observes_checkCount (bound : ℕ) (caller : CallerPrincipal)
    (subject : String) :
    Query.Observes catalogue.exec (Manager.checkCount bound caller subject)
      stored (fun _ => True) fun _ => True := by
  unfold Manager.checkCount
  split
  next => exact .pure trivial
  next =>
    apply Script.Meets.alone
    intro given
    show Query.Observes catalogue.exec
      (if bound ≤ stored.manager.table.count subject then _ else _) stored
      (fun _ => True) fun _ => True
    split
    next => exact .fail trivial
    next => exact .pure trivial

theorem observes_toolsetVersions (subject : String) (names : List String) :
    Query.Observes catalogue.exec (Manager.toolsetVersions subject names)
      stored (fun _ => True) fun _ => True := by
  induction names with
  | nil => exact .pure trivial
  | cons name names induction =>
      have active : Query.Observes catalogue.exec
          (Manager.demand (.activeToolset subject name)
            (Except.mapError Manager.fromCatalog)) stored
          (fun _ => True) fun _ => True :=
        observes_demand (fun _ => rfl) fun _ _ _ => trivial
      apply active.bind
      intro toolset _
      cases toolset with
      | none => exact .fail trivial
      | some version =>
          apply induction.bind
          intro versions _
          exact .pure trivial

theorem load_save (sessions : Sessions SessionState) (subject : String)
    (id : SessionId) (kind : SessionKind) (state : SessionState) (now : ℕ) :
    (sessions.save subject id kind state now).load subject id = some state := by
  unfold Sessions.load Sessions.save
  rw [KeyedTable.find_upsert_self]
  cases sessions.find (subject, id) <;> rfl

theorem load_stampContext (sessions : Sessions SessionState)
    (subject : String) (id : SessionId) (context : String) :
    (sessions.stampContext subject id context).load subject id =
      sessions.load subject id := by
  unfold Sessions.load Sessions.stampContext
  rw [KeyedTable.find_modify_self, Option.map_map]
  rfl

theorem exec_save_error {given : Conditions} {error : SessionError}
    (failed : given.save = .error error) {subject : String}
    {state : SessionState} :
    catalogue.exec given stored (.save subject state) =
      (.error error, stored) := by
  simp only [exec, conditions, Stored.perform, failed]

theorem exec_save_ok {given : Conditions} (saved : given.save = .ok ())
    {subject : String} {state : SessionState} :
    catalogue.exec given stored (.save subject state) = (.ok (),
      { stored with
        sessions := stored.sessions.save subject state.id state.kind state
          given.now }) := by
  simp only [exec, conditions, Stored.perform, saved]

theorem exec_stamp_error {given : Conditions} {error : String}
    (failed : given.stampContext = .error error) {subject context : String}
    {id : SessionId} :
    catalogue.exec given stored (.stampContext subject id context) =
      (.error error, stored) := by
  simp only [exec, conditions, Stored.perform, failed]

theorem exec_stamp_ok {given : Conditions}
    (stamped : given.stampContext = .ok ()) {subject context : String}
    {id : SessionId} :
    catalogue.exec given stored (.stampContext subject id context) = (.ok (),
      { stored with
        sessions := stored.sessions.stampContext subject id context }) := by
  simp only [exec, conditions, Stored.perform, stamped]

/-- Whoever may open a session by its type or against it, `open_` writes it
only after the definitions have been read. -/
theorem meets_open (catalogue : Catalogue) (stored : Stored parts)
    (bound : ℕ) (subject context : String) (agent : Option String) :
    Query.Meets catalogue.exec Eq (fun _ _ => True)
      (Manager.open_ bound subject context agent)
      (fun handle after => handle.context = context ∧
        ∃ caller definition,
          catalogue.callerOf stored subject = some caller ∧
          (catalogue.Opening caller context agent handle.kind handle.agentId
              definition ∨ catalogue.Unfit caller.subject caller.userId context agent) ∧
          Holds after subject handle definition)
      (fun _ after => after.sessions = stored.sessions ∨
        ∃ caller kind agentId definition,
          catalogue.callerOf stored subject = some caller ∧
          (catalogue.Opening caller context agent kind agentId definition ∨
            catalogue.Unfit caller.subject caller.userId context agent)) stored := by
  have refused : ∀ error : LymailleError, True →
      (stored.sessions = stored.sessions ∨ ∃ caller kind agentId definition,
        catalogue.callerOf stored subject = some caller ∧
        (catalogue.Opening caller context agent kind agentId definition ∨
          catalogue.Unfit caller.subject caller.userId context agent)) := fun _ _ => .inl rfl
  apply (observes_principal subject).then refused
  intro caller called
  obtain ⟨account, own⟩ : catalogue.accounts caller.subject =
      some caller.userId ∧ caller.subject = subject := by
    obtain ⟨userId, account, rfl⟩ := Option.map_eq_some_iff.mp called
    exact ⟨account, rfl⟩
  apply (observes_resolveStart agent account).then refused
  rintro ⟨kind, agentId, definition⟩ allowed
  apply (observes_checkCount bound caller subject).then refused
  intro _ _
  apply (observes_toolsetVersions subject definition.toolsets).then refused
  intro versions _
  refine Script.Meets.alone fun uuid => Script.Meets.alone fun clock =>
    Script.Meets.alone fun saving => ?_
  cases saved : saving.save with
  | error error =>
      rw [exec_save_error saved]
      apply Query.Meets.fail
      intro later same
      exact .inl (same ▸ rfl)
  | ok _ =>
      rw [exec_save_ok saved]
      refine Script.Meets.alone fun stamping => ?_
      cases stamped : stamping.stampContext with
      | error error =>
          rw [exec_stamp_error stamped]
          apply Query.Meets.fail
          intro later same
          exact .inr ⟨caller, kind, agentId, definition, called, allowed⟩
      | ok _ =>
          rw [exec_stamp_ok stamped]
          refine Script.Meets.alone fun _ => Script.Meets.alone fun _ =>
            Script.Meets.alone fun _ => ?_
          intro later same
          subst same
          refine ⟨rfl, caller, definition, called, allowed, ?_⟩
          exact ⟨_, (load_stampContext _ _ _ _).trans (load_save _ _ _ _ _ _),
            rfl, rfl, rfl⟩

/-- No statement fails. -/
def calm : Conditions := {}

theorem run_principal {subject : String} {caller : CallerPrincipal}
    (called : catalogue.callerOf stored subject = some caller) :
    (Manager.principal subject).run catalogue.exec calm stored =
      (.ok caller, stored) := by
  obtain ⟨userId, account, rfl⟩ := Option.map_eq_some_iff.mp called
  have asked : (Manager.demand (.account subject) Manager.storeError).run
      catalogue.exec calm stored = (.ok (catalogue.accounts subject), stored) :=
    rfl
  rw [account] at asked
  exact (Query.run_bind_ok asked).trans rfl

theorem run_toolsetVersions (subject : String) (names : List String) :
    ∃ versions, (Manager.toolsetVersions subject names).run catalogue.exec
      calm stored = (.ok versions, stored) := by
  induction names with
  | nil => exact ⟨[], rfl⟩
  | cons name names induction =>
      obtain ⟨versions, ran⟩ := induction
      have asked : (Manager.demand (.activeToolset subject name)
          (Except.mapError Manager.fromCatalog)).run catalogue.exec calm
          stored = (.ok (some "1.0.0"), stored) := rfl
      refine ⟨(name, "1.0.0") :: versions, ?_⟩
      exact (Query.run_bind_ok asked).trans ((Query.run_bind_ok ran).trans rfl)

/-- What `open_` resolves is opened for an administrator when no statement
fails. -/
theorem opens_of_resolved (bound : ℕ) {subject context : String}
    {agent : Option String} {caller : CallerPrincipal} {kind : SessionKind}
    {agentId : String} {definition : AgentDefinition}
    (called : catalogue.callerOf stored subject = some caller)
    (admin : caller.isAdmin = true)
    (resolved : (Manager.resolveStart caller context agent).run catalogue.exec
      calm stored = (.ok (kind, agentId, definition), stored)) :
    ∃ handle, ((Manager.open_ bound subject context agent).run
      catalogue.exec calm stored).1 = .ok handle := by
  obtain ⟨versions, versioned⟩ : ∃ versions,
      (Manager.toolsetVersions subject definition.toolsets).run
        catalogue.exec calm stored = (.ok versions, stored) :=
    run_toolsetVersions subject definition.toolsets
  have counted : (Manager.checkCount bound caller subject).run
      catalogue.exec calm stored = (.ok (), stored) := by
    unfold Manager.checkCount
    rw [if_pos admin]
    rfl
  unfold Manager.open_
  rw [Query.run_bind_ok (run_principal called), Query.run_bind_ok resolved]
  dsimp only
  rw [Query.run_bind_ok counted, Query.run_bind_ok versioned]
  exact ⟨_, rfl⟩

theorem run_definitionOf {caller : CallerPrincipal} {agentId : String}
    {agent : Option String} {type : ContextType}
    {start : Option AgentDefinition} {definition : AgentDefinition}
    (called : catalogue.accounts caller.subject = some caller.userId)
    (chosen : agent.or type.defaultAgent = some agentId)
    (visible : catalogue.AgentOf caller.userId agentId definition)
    (started : catalogue.startOf.resolve type
      (catalogue.getAgent (.ok ()) caller.subject) = .ok start) :
    (Manager.definitionOf caller.subject agentId agent start).run
      catalogue.exec calm stored = (.ok definition, stored) := by
  have got := getAgent_of_agentOf called visible
  cases agent with
  | some name =>
      cases chosen
      have asked : (Manager.demand (.agent caller.subject agentId)
          (Except.mapError Manager.fromCatalog)).run catalogue.exec calm
          stored = ((catalogue.getAgent (.ok ()) caller.subject
            agentId).mapError Manager.fromCatalog, stored) := rfl
      rw [got] at asked
      exact (Query.run_bind_ok asked).trans rfl
  | none =>
      rcases catalogue.startOf.resolve_some type
          (catalogue.getAgent (.ok ()) caller.subject) agentId chosen with
        ⟨other, found, resolved⟩ | ⟨error, refused⟩
      · cases got.symm.trans found
        cases resolved.symm.trans started
        rfl
      · cases refused.symm.trans started

theorem run_resolveTypeStart {caller : CallerPrincipal} {context : String}
    {agent : Option String} {table : IdKind} {type : ContextType}
    {agentId : String} {definition : AgentDefinition} {kind : SessionKind}
    {start : Option AgentDefinition}
    (called : catalogue.accounts caller.subject = some caller.userId)
    (chosen : catalogue.Chosen caller.userId context agent table type agentId
      definition)
    (started : catalogue.startOf.resolve type
      (catalogue.getAgent (.ok ()) caller.subject) = .ok start)
    (decided : Manager.sessionKindOf type definition = .ok kind) :
    (Manager.resolveTypeStart caller table context agent).run catalogue.exec
      calm stored = (.ok (kind, agentId, definition), stored) := by
  obtain ⟨⟨allowed, ⟨reference, row, typed⟩, member⟩, named, visible⟩ := chosen
  have referenced : (Manager.visibleContextType caller table context).run
      catalogue.exec calm stored = (.ok (some reference), stored) := by
    have asked : (Manager.demand (.visibleContextType table context
        caller.userId) Manager.storeError).run catalogue.exec calm stored =
        (.ok (catalogue.contextRow table context caller.userId), stored) := rfl
    rw [row] at asked
    exact (Query.run_bind_ok asked).trans rfl
  have read : (Manager.demand (.contextType reference) Manager.storeError).run
      catalogue.exec calm stored =
        (.ok (catalogue.contextType reference), stored) := rfl
  rw [typed] at read
  have resolved : (Manager.demand (.resolveStart caller.subject type)
      (Except.mapError Manager.fromCatalog)).run catalogue.exec calm stored =
        ((catalogue.startOf.resolve type (catalogue.getAgent (.ok ())
          caller.subject)).mapError Manager.fromCatalog, stored) := rfl
  rw [started] at resolved
  unfold Manager.resolveTypeStart
  rw [Query.run_bind_ok referenced]
  dsimp only
  rw [Query.run_bind_ok read]
  dsimp only
  rw [Query.run_bind_ok resolved, named]
  dsimp only
  rw [if_neg (not_not.mpr member),
    Query.run_bind_ok (run_definitionOf called named visible started), decided]
  rfl

/-- A type of the kind `Sub` that nothing else refuses is resolved. -/
theorem resolved_of_unfit {caller : CallerPrincipal} {context : String}
    {agent : Option String}
    (called : catalogue.accounts caller.subject = some caller.userId)
    (unfit : catalogue.Unfit caller.subject caller.userId context agent) :
    ∃ opened, (Manager.resolveStart caller context agent).run catalogue.exec
      calm stored = (.ok opened, stored) := by
  obtain ⟨table, type, agentId, definition, classified, apart, chosen, sub,
    agentKind, start, started⟩ := unfit
  obtain ⟨kind, decided⟩ : ∃ kind,
      Manager.sessionKindOf type definition = .ok kind := by
    unfold Manager.sessionKindOf
    rw [sub]
    cases same : definition.kind with
    | sub => exact absurd same agentKind
    | work => exact ⟨_, rfl⟩
    | config => exact ⟨_, rfl⟩
  have resolved : (Manager.resolveTypeStart caller table context agent).run
      catalogue.exec calm stored = (.ok (kind, agentId, definition), stored) :=
    run_resolveTypeStart called chosen started decided
  refine ⟨_, Eq.trans ?_ resolved⟩
  unfold Manager.resolveStart
  rw [classified]
  cases table with
  | host => exact absurd rfl apart
  | catalog => rfl
  | private_ => rfl

theorem not_opening_of_unfit {caller : CallerPrincipal} {context : String}
    {agent : Option String}
    (unfit : catalogue.Unfit caller.subject caller.userId context agent) (kind : SessionKind)
    (agentId : String) (definition : AgentDefinition) :
    ¬ catalogue.Opening caller context agent kind agentId definition := by
  intro opening
  obtain ⟨table, type, _, _, classified, apart, chosen, sub, _⟩ := unfit
  obtain ⟨type', chosen', fits⟩ := (opening_of_typed classified apart).mp
    opening
  obtain ⟨_, ⟨reference, row, typed⟩, _⟩ := chosen.typed
  obtain ⟨_, ⟨reference', row', typed'⟩, _⟩ := chosen'.typed
  cases row.symm.trans row'
  cases typed.symm.trans typed'
  exact fits.interactive (fits.fixed .sub sub)

theorem unsound_of_unfit {subject context : String} {agent : Option String}
    {userId : ℤ} (account : catalogue.accounts subject = some userId)
    (unfit : catalogue.Unfit subject userId context agent) (parts : Parts)
    (bound : ℕ) : ¬ catalogue.OpensSoundly parts bound subject context agent := by
  intro sound
  let stored : Stored parts := Stored.new parts ⟨bound, 0⟩ (fun _ => true)
    (Hub.new parts.channels false 0)
  let caller : CallerPrincipal := { userId, subject, isAdmin := true }
  have called : catalogue.callerOf stored subject = some caller := by
    unfold callerOf
    rw [account]
    rfl
  obtain ⟨⟨kind, agentId, definition⟩, resolved⟩ :
      ∃ opened, (Manager.resolveStart caller context agent).run
        catalogue.exec calm stored = (.ok opened, stored) :=
    resolved_of_unfit account unfit
  obtain ⟨handle, opened⟩ := opens_of_resolved bound called rfl resolved
  obtain ⟨_, _, ⟨other, called', opening⟩, _⟩ :=
    (sound (fun _ => calm) stored).1 handle opened
  cases called.symm.trans called'
  have same : catalogue.Unfit caller.subject caller.userId context agent :=
    unfit
  exact not_opening_of_unfit same _ _ _ opening

/-- `open_` is sound where no type of the kind `Sub` is open to the subject,
and only there. -/
theorem opens_soundly_iff (catalogue : Catalogue) (parts : Parts) (bound : ℕ)
    (subject context : String) (agent : Option String) :
    catalogue.OpensSoundly parts bound subject context agent ↔
      ∀ userId, catalogue.accounts subject = some userId →
        ¬ catalogue.Unfit subject userId context agent := by
  constructor
  · intro sound userId account unfit
    exact unsound_of_unfit account unfit parts bound sound
  · intro fit envs stored
    have ends := Script.Meets.run (fun _ => rfl) envs
      (meets_open catalogue stored bound subject context agent)
    have allowed : ∀ {caller kind agentId definition},
        catalogue.callerOf stored subject = some caller →
        (catalogue.Opening caller context agent kind agentId definition ∨
          catalogue.Unfit caller.subject caller.userId context agent) →
        catalogue.Opening caller context agent kind agentId definition := by
      intro caller kind agentId definition called either
      obtain ⟨userId, account, rfl⟩ := Option.map_eq_some_iff.mp called
      exact either.resolve_right (fit userId account)
    dsimp only
    generalize Script.run catalogue.exec envs
      (Manager.open_ bound subject context agent) stored = ended at ends ⊢
    obtain ⟨result, after⟩ := ended
    cases result with
    | ok handle =>
        obtain ⟨same, caller, definition, called, either, holds⟩ := ends
        have may : catalogue.MayOpen stored subject context agent handle.kind
            handle.agentId definition := ⟨caller, called, allowed called either⟩
        refine ⟨fun other same' => ?_, fun never => ?_⟩
        · cases same'
          exact ⟨same, definition, may, holds⟩
        · exact absurd may (never _ _ _)
    | error error =>
        refine ⟨fun handle same => (by cases same), fun never =>
          ⟨⟨error, rfl⟩, ?_⟩⟩
        rcases ends with same | ⟨caller, kind, agentId, definition, may⟩
        · exact same
        · exact absurd ⟨caller, may.1, allowed may.1 may.2⟩ (never _ _ _)

/-- The default agent of a type, found and of the kind of the type. -/
def startOfDefault : StartOf where
  resolve type getAgent :=
    match type.defaultAgent with
    | none => .ok none
    | some name => do
        match ← getAgent name with
        | none => .error (.other "default agent not found")
        | some definition =>
            if definition.kind = .sub ∨ ¬ type.sessionKind.all
                fun fixed => definition.kind = Manager.agentKindOf fixed then
              .error (.other "default agent of another kind")
            else return some definition
  resolve_none type getAgent none_ := by rw [none_]
  resolve_some type getAgent name default := by
    rw [default]
    dsimp only [bind, Except.bind]
    cases found : getAgent name with
    | error error => exact .inr ⟨error, rfl⟩
    | ok definition =>
        cases definition with
        | none => exact .inr ⟨_, rfl⟩
        | some definition =>
            dsimp only
            split
            next => exact .inr ⟨_, rfl⟩
            next => exact .inl ⟨definition, rfl, rfl⟩

def kindsRead : String → Option SessionKind
  | "Work" => some .work
  | "Config" => some .config
  | "Sub" => some .sub
  | _ => none

/-- A context whose type is of the kind `Sub` and allows an agent of work. -/
def subTyped : Catalogue where
  accounts _ := some 1
  catalogContexts := KeyedTable.empty.insert "G_context" (some "G_type")
  userContexts := KeyedTable.empty
  contextTypes := KeyedTable.empty.insert "G_type"
    { active := some (.object [("session_kind", .string "Sub")])
      allowedAgents := .array [.string "G_agent"] }
  catalogAgents := KeyedTable.empty.insert "G_agent"
    (some (.object [("id", .string "G_agent"), ("kind", .string "Work")]))
  privateAgents := KeyedTable.empty
  readType value := some
    { defaultAgent := (value.get? "default_agent").bind Value.asString
      sessionKind := ((value.get? "session_kind").bind Value.asString).bind
        kindsRead }
  readAgent value := do
    let id ← (value.get? "id").bind Value.asString
    let kind ← ((value.get? "kind").bind Value.asString).bind kindsRead
    return { id, kind := Manager.agentKindOf kind, fingerprint := ""
             toolsets := [] }
  startOf := startOfDefault
  resolveContext := none

/-- A session of work is opened on a context of the kind `Sub`. -/
theorem sub_typed_opened :
    ¬ subTyped.OpensSoundly Stored.plainParts 8 "alice" "G_context"
      (some "G_agent") := by
  have account : subTyped.accounts "alice" = some 1 := rfl
  apply unsound_of_unfit account
  refine ⟨.catalog, ⟨none, some .sub⟩, "G_agent", ⟨"G_agent", .work, "", []⟩,
    by decide, by decide, ⟨⟨["G_agent"], ⟨"G_type", rfl, rfl⟩, by simp⟩, rfl,
      ⟨.catalog, _, by decide, rfl, rfl⟩⟩, rfl, by decide, none, rfl⟩

end Catalogue

end MiryadCore.Interactive
