import MiryadCore.Control.Observation
import MiryadCore.Workflow.SubagentStep

/-!
# The retries of the kind `"subagent"`

Every stage before the batch only reads, and every error of the batch is
permanent.  A step that asks to be run again has thus left nothing behind.
-/

namespace MiryadCore.Workflow.Subagent

open Interactive (CallerPrincipal CatalogError LymailleError SessionError
  SessionId classify)
open Lymaille (WriteScope)
open Users (DbErr)

/-- What a call does beside reading. -/
inductive Effect where
  | inference
  | mcpClient
  | session
  | resource
  | memory
  | journal
  | account
  deriving DecidableEq, Repr

/-- The rows that a call reads. -/
structure Rows where
  access : Definitions.Tables
  stored : Select → Option Value
  sessions : String → SessionId → Option String

/-- The rows, with what the call has done. -/
structure World where
  rows : Rows
  effects : List Effect
  started : Bool

def World.fresh (rows : Rows) : World :=
  { rows, effects := [], started := false }

variable {parts : SubagentParts}

/-- The conditions of a request: what the others have changed before it, and
what is answered outside of the tables. -/
structure Conditions (parts : SubagentParts) where
  others : Rows → Rows
  access : Users.Conditions
  fault : Option DbErr
  now : ℕ
  profile : String → Except CatalogError parts.Profile × List Effect
  restored : SessionId → String → List (String × String) →
    Except SessionError (parts.State × List String) × List Effect
  outcome : Batch parts → Except String SubagentOutcome × List Effect
  left : Batch parts → Rows → Rows

/-- `resolve_profile` and `restore_session` only read. -/
structure Conditions.ReadOnly (conditions : Conditions parts) : Prop where
  profile : ∀ name, (conditions.profile name).2 = []
  restored : ∀ id fingerprint versions,
    (conditions.restored id fingerprint versions).2 = []

/-- The requests that select rows. -/
def selects : Definitions.Request → Bool
  | .users (.selectUser _) => true
  | .users (.selectGroup _) => true
  | .users (.selectMemberships _) => true
  | .users (.selectMembership _ _) => true
  | .users _ => false
  | .server _ => true

def faulty {α : Type} (fault : Option DbErr) (value : α) : Except DbErr α :=
  match fault with
  | some error => .error error
  | none => .ok value

/-- One request of the call. -/
def exec : Script.Service (Ask parts) (Ask.Reply parts) (Conditions parts)
    World :=
  fun conditions world request =>
    let rows := conditions.others world.rows
    match request with
    | .access request =>
        let (answer, access) :=
          Definitions.exec conditions.access rows.access request
        (answer, { world with
          rows := { rows with access }
          effects := world.effects ++
            if selects request then [] else [.account] })
    | .stored select =>
        (faulty conditions.fault (rows.stored select), { world with rows })
    | .sessionState subject id =>
        (faulty conditions.fault (rows.sessions subject id),
          { world with rows })
    | .now => (conditions.now, { world with rows })
    | .resolveProfile name =>
        let (answer, effects) := conditions.profile name
        (answer, { world with rows, effects := world.effects ++ effects })
    | .restoreSession id fingerprint versions =>
        let (answer, effects) := conditions.restored id fingerprint versions
        (answer, { world with rows, effects := world.effects ++ effects })
    | .runBatch batch =>
        let (answer, effects) := conditions.outcome batch
        (answer,
          { rows := conditions.left batch rows
            effects := world.effects ++ effects
            started := true })

/-- The requests that precede the batch. -/
def Ask.Reads : Ask parts → Prop
  | .access request => selects request = true
  | .runBatch _ => False
  | _ => True

/-- The requests that are not about a session. -/
def Ask.Looks : Ask parts → Prop
  | .access request => selects request = true
  | .sessionState _ _ | .restoreSession _ _ _ | .runBatch _ => False
  | _ => True

theorem Ask.Looks.reads (request : Ask parts) (looks : request.Looks) :
    request.Reads := by
  cases request with
  | access request => exact looks
  | sessionState subject id => trivial
  | restoreSession id fingerprint versions => trivial
  | runBatch batch => exact looks
  | stored select => trivial
  | now => trivial
  | resolveProfile name => trivial

/-- Nothing has been done yet. -/
structure World.Untouched (world : World) : Prop where
  effects : world.effects = []
  started : world.started = false

theorem exec_untouched {conditions : Conditions parts}
    (readOnly : conditions.ReadOnly) {world : World} {request : Ask parts}
    (reads : request.Reads) (untouched : world.Untouched) :
    (exec conditions world request).2.Untouched := by
  obtain ⟨effects, started⟩ := untouched
  cases request with
  | access request =>
      refine ⟨?_, started⟩
      simp only [Ask.Reads] at reads
      simp [exec, effects, reads]
  | stored select => exact ⟨effects, started⟩
  | sessionState subject id => exact ⟨effects, started⟩
  | now => exact ⟨effects, started⟩
  | resolveProfile name =>
      refine ⟨?_, started⟩
      simp [exec, effects, readOnly.profile]
  | restoreSession id fingerprint versions =>
      refine ⟨?_, started⟩
      simp [exec, effects, readOnly.restored]
  | runBatch batch => exact reads.elim

section Only

open Query (Only)

theorem only_demand {ε α : Type} {request : Ask parts}
    {read : request.Reply → Except ε α} {allowed : Ask parts → Prop}
    (asks : allowed request) : Only allowed (demand request read) :=
  ⟨asks, fun _ => trivial⟩

variable {deps : SubagentDeps} {subject : String} {step : SubagentStep}

/-- The statements that the step may make. -/
abbrev Selects (statement : Users.Statement) : Prop :=
  selects (.users statement) = true

theorem only_statement {statement : Users.Statement}
    (reads : Selects statement) : Only Selects (Users.statement statement) :=
  ⟨reads, fun _ => trivial⟩

theorem only_isMember (userId : ℤ) (groupName : String) :
    Only Selects (Users.isMember userId groupName) := by
  apply Only.bind (only_statement rfl)
  intro group
  cases group with
  | none => exact Only.pure _
  | some group =>
      apply Only.bind (only_statement rfl)
      exact fun _ => Only.pure _

theorem only_users {α : Type} {asked : Users.Db α}
    (reads : Only Selects asked) :
    Only (@Ask.Looks parts) (users deps asked) :=
  reads.lift fun _ reads => reads

theorem only_resolveIdentity :
    Only (@Ask.Looks parts) (resolveIdentity deps subject) := by
  apply Only.bind (only_users (only_statement rfl))
  intro account
  cases account with
  | none => exact Only.done _
  | some account =>
      apply Only.bind (only_users (only_isMember _ _))
      exact fun _ => Only.pure _

theorem only_firstJson (select : Select) :
    Only (@Ask.Looks parts) (firstJson deps select) := by
  unfold firstJson
  exact only_demand trivial

/-- A definition needs the principal, then one row. -/
theorem only_getStored {α : Type} (id : String)
    (select : Option ℤ → Select) (read : Value → Option α)
    (unreadable : String) :
    Only (@Ask.Looks parts)
      (getStored deps subject id select read unreadable) := by
  have row : ∀ kind, Only (@Ask.Looks parts) (do
      let caller ← principal deps subject
      let stored ← firstJson deps (select (ownerOf kind caller))
      Query.ofExcept (readStored read unreadable stored)) := by
    intro kind
    apply Only.bind only_resolveIdentity.mapError
    intro caller
    apply Only.bind (only_firstJson _)
    exact fun _ => Only.done _
  unfold getStored
  cases classify id with
  | error _ => exact Only.pure _
  | ok kind =>
      cases kind with
      | host => exact Only.pure _
      | catalog => exact row .catalog
      | private_ => exact row .private_

theorem only_getContext (name : String) :
    Only (@Ask.Looks parts) (getContext deps subject name) := by
  unfold getContext
  cases classify name with
  | error _ => exact Only.pure _
  | ok kind =>
      cases kind with
      | host => exact Only.pure _
      | catalog =>
          apply Only.bind (only_firstJson _)
          exact fun _ => Only.done _
      | private_ =>
          apply Only.bind only_resolveIdentity.mapError
          intro caller
          apply Only.bind (only_firstJson _)
          exact fun _ => Only.done _

theorem only_getProvider (name : String) :
    Only (@Ask.Looks parts) (getProvider deps name) := by
  apply Only.bind (only_firstJson _)
  exact fun _ => Only.done _

theorem only_loadSession {allowed : Ask parts → Prop} (id : SessionId)
    (asks : allowed (.sessionState subject id)) :
    Only allowed (loadSession deps subject id) := by
  apply Only.bind (only_demand asks)
  intro text
  cases text with
  | none => exact Only.pure _
  | some text =>
      apply Only.bind (Only.done _)
      exact fun _ => Only.pure _

theorem only_resolve (agent trigger : String) :
    Only (@Ask.Looks parts) (resolve step agent trigger) := by
  apply Only.bind only_resolveIdentity.mapError
  intro caller
  apply Only.bind (only_getStored _ _ _ _).mapError
  intro found
  cases found with
  | none => exact Only.done _
  | some definition =>
      dsimp only
      split
      · exact Only.done _
      · cases definition.outputSchema with
        | none => exact Only.done _
        | some schema =>
            apply Only.bind (Only.done _)
            intro granted
            apply Only.bind
            · exact only_demand trivial
            intro profile
            apply Only.bind (only_getProvider _).mapError
            intro provider
            cases provider with
            | none => exact Only.done _
            | some provider =>
                apply Only.bind (Only.done _)
                exact fun _ => Only.pure _

/-- The requests of the access to the servers. -/
abbrev SelectsRow (request : Definitions.Request) : Prop :=
  selects request = true

theorem only_membreDeLUn (dbText : DbErr → String) (userId : ℤ)
    (noms : List String) :
    Only SelectsRow (Definitions.membreDeLUn dbText userId noms) := by
  induction noms with
  | nil => exact Only.pure _
  | cons nom noms induction =>
      apply Only.bind
      · exact (only_isMember userId nom).lift fun _ reads => reads
      intro member
      cases member with
      | true => exact Only.pure _
      | false => exact induction

theorem only_autorise (dbText : DbErr → String) (caller : CallerPrincipal)
    (groupes : Value) :
    Only SelectsRow (Definitions.autorise dbText caller groupes) := by
  unfold Definitions.autorise
  cases groupes.asArray with
  | none => exact Only.pure _
  | some noms =>
      dsimp only
      split
      · exact Only.pure _
      · split
        · exact Only.pure _
        · exact only_membreDeLUn _ _ _

theorem only_serverFor (dbText : DbErr → String) (caller : CallerPrincipal)
    (name : String) :
    Only SelectsRow (Definitions.serverFor dbText caller name) := by
  apply Only.bind
  · exact ⟨rfl, fun _ => trivial⟩
  intro found
  cases found with
  | none => exact Only.done _
  | some modele =>
      apply Only.bind (only_autorise _ _ _)
      intro allowed
      cases allowed with
      | true => exact Only.pure _
      | false => exact Only.done _

theorem only_boundRole (dbText : DbErr → String) (caller : CallerPrincipal)
    (boundServer : Option String) :
    Only SelectsRow (Definitions.boundRole dbText caller boundServer) := by
  cases boundServer with
  | none => exact Only.done _
  | some name =>
      apply Only.bind (only_serverFor dbText caller name)
      exact fun _ => Only.pure _

theorem only_resolveRole (dbText : DbErr → String)
    (host : Option Definitions.LymailleHost) (now : ℕ)
    (caller : CallerPrincipal) (context role : String)
    (boundServer : Option String) :
    Only SelectsRow (Definitions.resolveRole dbText host now caller context
      role boundServer) := by
  unfold Definitions.resolveRole
  cases host with
  | none => exact only_boundRole _ _ _
  | some host =>
      dsimp only
      split
      · split
        · exact Only.done _
        · exact Only.pure _
      · exact Only.done _
      · exact only_boundRole _ _ _
      · exact Only.done _

theorem only_checkRoles (caller : CallerPrincipal)
    (roles : List (String × String)) :
    Only (@Ask.Looks parts) (checkRoles step caller roles) := by
  induction roles with
  | nil => exact Only.pure _
  | cons binding roles induction =>
      apply Only.bind
      · exact only_demand trivial
      intro now
      apply Only.bind
      · apply Only.mapError
        exact (only_resolveRole _ _ _ _ _ _ _).lift fun _ reads => reads
      intro binding
      cases binding with
      | table model =>
          apply Only.bind (Only.done _)
          exact fun _ => induction
      | host grant => exact induction

theorem only_checkContextRoles (trigger : String) (caller : CallerPrincipal) :
    Only (@Ask.Looks parts)
      (checkContextRoles step trigger caller) := by
  apply Only.bind (only_getContext _).mapError
  intro context
  cases context with
  | none => exact Only.pure _
  | some context => exact only_checkRoles _ _

theorem only_activeToolsets (trigger : String) (names : List String) :
    Only (@Ask.Looks parts) (activeToolsets step trigger names) := by
  induction names with
  | nil => exact Only.pure _
  | cons name names induction =>
      apply Only.bind (only_getStored _ _ _ _).mapError
      intro found
      cases found with
      | none => exact Only.done _
      | some toolset =>
          apply Only.bind induction
          exact fun _ => Only.pure _

theorem only_assembleAndEngine (trigger : String)
    (definition : AgentDefinition) (schema : Value)
    (granted : List (String × Module)) :
    Only (@Ask.Looks parts)
      (assembleAndEngine step trigger definition schema granted) := by
  apply Only.bind (only_activeToolsets _ _)
  exact fun _ => Only.done _

theorem only_restoreOrNew (trigger : String) (id : SessionId)
    (definition : AgentDefinition) (versions : List (String × String)) :
    Only (@Ask.Reads parts)
      (restoreOrNew step trigger id definition versions) := by
  apply Only.bind (only_loadSession _ trivial).mapError
  intro found
  cases found with
  | none => exact Only.pure _
  | some state => exact only_demand trivial

theorem only_prepare (run : RunInfo) (config : Value) :
    Only (@Ask.Reads parts) (prepare step run config) := by
  unfold prepare
  cases SubagentConfig.ofValue config with
  | none => exact Only.done _
  | some cfg =>
      apply Only.bind (Only.done _)
      intro validated
      cases run.trigger with
      | none => exact Only.done _
      | some trigger =>
          apply Only.bind ((only_resolve _ _).mono Ask.Looks.reads)
          intro resolved
          cases parts.sessionId (sessionName parts run) with
          | none => exact Only.done _
          | some id =>
              apply Only.bind (Only.done _)
              intro granted
              apply Only.bind
              · exact (only_checkContextRoles _ _).mono Ask.Looks.reads
              intro checked
              apply Only.bind
              · exact (only_assembleAndEngine _ _ _ _).mono Ask.Looks.reads
              intro engine
              apply Only.bind (only_restoreOrNew _ _ _ _)
              intro restored
              apply Only.bind (Only.done _)
              exact fun _ => Only.pure _

end Only

theorem outcomeToResult_permanent {outcome : SubagentOutcome}
    {error : StepError} (failed : outcomeToResult outcome = .error error) :
    error.retryable = false := by
  unfold outcomeToResult at failed
  split at failed
  · split at failed
    · cases failed
    · exact Except.error.inj failed ▸ rfl
  all_goals exact Except.error.inj failed ▸ rfl

theorem runBatch_permanent {envs : ℕ → Conditions parts} {world : World}
    {batch : Batch parts} {error : StepError}
    (failed : (Script.run exec envs (runBatch batch) world).1 =
      .error error) :
    error.retryable = false := by
  simp only [runBatch, demand, Script.run, exec] at failed
  cases ends : ((envs 0).outcome batch).1 with
  | ok outcome =>
      rw [ends] at failed
      exact outcomeToResult_permanent failed
  | error text =>
      rw [ends] at failed
      exact Except.error.inj failed ▸ rfl

section Call

variable (step : SubagentStep) (envs : ℕ → Conditions parts) (rows : Rows)

/-- One call of the step. -/
def call (run : RunInfo) (config : Value) : Except StepError Value × World :=
  Script.run exec envs (Subagent.run step run config) (World.fresh rows)

/-- The body of the handler, for this kind. -/
def execute (hbs : Template.Services) (invocation : StepInvocation) :
    Code parts HandlerError Value := do
  let rendered ← Query.ofExcept
    ((Template.renderConfig hbs invocation.config invocation.runInfo
      invocation.inputs []).outcome.mapError stepErrorToHandlerError)
  (Subagent.run step invocation.runInfo rendered).mapError
    stepErrorToHandlerError

/-- One request to the handler. -/
def handle (hbs : Template.Services) (invocation : StepInvocation) :
    Except HandlerError Value × World :=
  Script.run exec envs (execute step hbs invocation) (World.fresh rows)

/-- The kind, as a registry holds it. -/
def asStep : WorkflowStep where
  rawFields := []
  run := fun run config _ => (call step envs rows run config).1

end Call

variable {step : SubagentStep} {envs : ℕ → Conditions parts} {rows : Rows}

theorem call_failed (readOnly : ∀ n, (envs n).ReadOnly) {run : RunInfo}
    {config : Value} {error : StepError}
    (failed : (call step envs rows run config).1 = .error error) :
    (call step envs rows run config).2.Untouched ∨
      error.retryable = false := by
  obtain ⟨prepared, asked, after, still, same⟩ :=
    (only_prepare run config).run_bind envs
      (fun n _ _ reads => exec_untouched (readOnly n) reads)
      (World.Untouched.mk rfl rfl : (World.fresh rows).Untouched)
  rw [call, Subagent.run, same] at failed
  rw [call, Subagent.run, same]
  cases prepared with
  | ok batch => exact Or.inr (runBatch_permanent failed)
  | error refusal => exact Or.inl still

theorem handle_eq (hbs : Template.Services) (invocation : StepInvocation) :
    handle step envs rows hbs invocation =
      match (Template.renderConfig hbs invocation.config invocation.runInfo
        invocation.inputs []).outcome with
      | .ok rendered =>
          ((call step envs rows invocation.runInfo rendered).1.mapError
            stepErrorToHandlerError,
            (call step envs rows invocation.runInfo rendered).2)
      | .error error =>
          (.error (stepErrorToHandlerError error), World.fresh rows) := by
  unfold handle execute
  cases (Template.renderConfig hbs invocation.config invocation.runInfo
      invocation.inputs []).outcome with
  | ok rendered => exact Script.run_map envs _ _ _
  | error error => rfl

/-- The handler answers as the dispatcher does. -/
theorem outcome_runStep {hbs : Template.Services} {registry : StepRegistry}
    {enfant : Enfant} {invocation : StepInvocation}
    (registered : registry.steps.lookup invocation.kind =
      some (asStep step envs rows)) :
    (runStep hbs registry enfant invocation).outcome =
      (handle step envs rows hbs invocation).1 := by
  have ordinary : registry.durable invocation.kind = none := by
    apply Finmap.lookup_eq_none.mpr
    intro durable
    have absent := Finmap.lookup_eq_none.mpr
      (registry.disjoint invocation.kind durable)
    rw [registered] at absent
    cases absent
  have raw : registry.rawFields invocation.kind = some [] := by
    simp [StepRegistry.rawFields, registered, asStep]
  rw [handle_eq]
  simp only [runStep, ordinary, runInvocation, renderForKind, raw,
    StepRegistry.dispatch, registered, Logged.lift]
  cases (Template.renderConfig hbs invocation.config invocation.runInfo
      invocation.inputs []).outcome with
  | ok rendered => rfl
  | error error => rfl

/-- A step asks for another attempt only where it has done nothing, and so does
its handler. -/
theorem retryable_untouched (step : SubagentStep)
    (envs : ℕ → Conditions parts) (readOnly : ∀ n, (envs n).ReadOnly)
    (rows : Rows) :
    (∀ run config error, (call step envs rows run config).1 = .error error →
      (error.retryable = true →
        (call step envs rows run config).2.Untouched) ∧
      ((call step envs rows run config).2.started = true →
        error.retryable = false)) ∧
    ∀ hbs registry enfant invocation error,
      registry.steps.lookup invocation.kind =
        some (asStep step envs rows) →
      (runStep hbs registry enfant invocation).outcome =
        .error (.retryable error) →
      (handle step envs rows hbs invocation).2.Untouched := by
  constructor
  · intro run config error failed
    rcases call_failed readOnly failed with untouched | permanent
    · refine ⟨fun _ => untouched, ?_⟩
      intro started
      rw [untouched.started] at started
      cases started
    · refine ⟨?_, fun _ => permanent⟩
      intro retryable
      rw [permanent] at retryable
      cases retryable
  · intro hbs registry enfant invocation error registered answered
    rw [outcome_runStep registered, handle_eq] at answered
    rw [handle_eq]
    split at answered
    next rendered _ =>
      dsimp only at answered ⊢
      cases ends : (call step envs rows invocation.runInfo rendered).1 with
      | ok value =>
          rw [ends] at answered
          cases answered
      | error cause =>
          rw [ends] at answered
          rcases call_failed readOnly ends with untouched | permanent
          · exact untouched
          · simp [Except.mapError, stepErrorToHandlerError, permanent]
              at answered
    next => exact ⟨rfl, rfl⟩

/-- Parts without agents. -/
def bareParts : SubagentParts where
  Profile := Unit
  Toolset := Unit
  Context := Unit
  ResolvedContext := Unit
  Grants := Unit
  Collector := Unit
  Engine := Unit
  State := Unit
  hexSha256 := id
  serdeText := fun _ => "invalid type"
  turnActive := fun _ => "a turn is active"
  defaultMaxTurns := 8
  readAgent := fun _ => none
  readProvider := fun _ => none
  readToolset := fun _ => none
  readContext := fun _ => none
  profileProvider := fun _ => ""
  toolsetName := fun _ => ""
  toolsetVersion := fun _ => ""
  contextRoles := fun _ => []
  sessionId := fun _ => none
  stateFromJson := fun _ => .error (.other "unreadable")
  newState := fun _ _ _ => ()
  validName := fun _ => true
  emptyContext := .ok ()
  assemble := fun _ _ _ => .ok ()
  collector := fun _ _ => .ok ()
  withResult := fun _ _ => some ()
  buildEngine := fun _ => .ok ()
  addSecret := fun _ => .ok ()

/-- The database is away. -/
def away : Conditions bareParts where
  others := id
  access := { fault := some (.other "connection refused"), now := 0, gap := 0 }
  fault := some (.other "connection refused")
  now := 0
  profile := fun _ => (.error (.other "unknown profile"), [])
  restored := fun _ _ _ => (.error (.other "unreadable"), [])
  outcome := fun _ => (.error "unreachable", [])
  left := fun _ rows => rows

/-- A call while the database is away. -/
def awayCall : Except StepError Value × World :=
  call
    { deps :=
        { dbText := fun _ => "connection refused"
          secrets := fun _ => .error .unknownSubject
          host := none }
      maxSecsCeiling := 480 }
    (fun _ => away)
    { access :=
        { users := .start
            { users := [], groups := [], memberships := [], nextUser := 1
              nextGroup := 1, nextMembership := 1 }
          servers := [] }
      stored := fun _ => none
      sessions := fun _ _ => none }
    { runKey := "run", stepId := "step", depth := 0, vars := .null
      trigger := some "alice" }
    (.object [("agent", .string "analyst"), ("task", .string "sum up")])

theorem retryable_untouched_away :
    awayCall.1 = .error
      { message := "MRD-LYMAILLE-009: store error: connection refused"
        retryable := true } ∧
      awayCall.2.Untouched := by
  have failed : awayCall.1 = .error
      { message := "MRD-LYMAILLE-009: store error: connection refused"
        retryable := true } := by
    rfl
  refine ⟨failed, ?_⟩
  exact ((retryable_untouched _ (fun _ => away)
    (fun _ => ⟨fun _ => rfl, fun _ _ _ => rfl⟩) _).1 _ _ _ failed).1 rfl

end MiryadCore.Workflow.Subagent
