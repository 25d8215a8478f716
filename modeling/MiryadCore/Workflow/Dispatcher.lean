import MiryadCore.Workflow.Template

/-!
# The dispatcher and its registry of kinds

A durable kind may start child runs.  Its computation lists the calls of
`run_child_dag` that it makes; `enfant` stands for what the child returns.
-/

namespace MiryadCore.Workflow

open Template (Services renderConfig)

/-- A call of `StepContext::run_child_dag`. -/
structure ChildCall where
  dag : DagSteps
  vars : Members
  deriving DecidableEq

abbrev Enfant := ChildCall → Except StepError Table

/-- `MiryadWorkflowStep`: a kind without access to the context. -/
structure WorkflowStep where
  rawFields : List String
  run : RunInfo → Value → Table → Except StepError Value

/-- `MiryadDurableStep`. -/
structure DurableStep where
  rawFields : List String
  run : Enfant → RunInfo → Value → Table → Logged StepError ChildCall Value

/-- The two stores share one space of names. -/
structure StepRegistry where
  steps : Finmap fun _ : String => WorkflowStep
  durables : Finmap fun _ : String => DurableStep
  disjoint : ∀ kind ∈ durables, kind ∉ steps

inductive RegistryError where
  | duplicateStepKind (kind : String)
  deriving DecidableEq

/-- The `Display` of the error, code included. -/
def RegistryError.display : RegistryError → String
  | .duplicateStepKind kind =>
      "MRD-WORKFLOW-006: step kind already registered: " ++ kind

namespace StepRegistry

def new : StepRegistry where
  steps := ∅
  durables := ∅
  disjoint := fun _ durable => (Finmap.notMem_empty durable).elim

def register (registry : StepRegistry) (kind : String) (step : WorkflowStep) :
    Except RegistryError StepRegistry :=
  if taken : kind ∈ registry.steps ∨ kind ∈ registry.durables then
    .error (.duplicateStepKind kind)
  else
    .ok
      { steps := registry.steps.insert kind step
        durables := registry.durables
        disjoint := by
          intro other durable
          rw [Finmap.mem_insert]
          intro cases
          rcases cases with rfl | old
          · exact taken (Or.inr durable)
          · exact registry.disjoint other durable old }

def registerDurable (registry : StepRegistry) (kind : String)
    (step : DurableStep) : Except RegistryError StepRegistry :=
  if taken : kind ∈ registry.steps ∨ kind ∈ registry.durables then
    .error (.duplicateStepKind kind)
  else
    .ok
      { steps := registry.steps
        durables := registry.durables.insert kind step
        disjoint := by
          intro other durable old
          rcases (Finmap.mem_insert.mp durable) with rfl | older
          · exact taken (Or.inl old)
          · exact registry.disjoint other older old }

def durable (registry : StepRegistry) (kind : String) : Option DurableStep :=
  registry.durables.lookup kind

/-- Ordinary kinds first, then durable ones. -/
def rawFields (registry : StepRegistry) (kind : String) :
    Option (List String) :=
  ((registry.steps.lookup kind).map WorkflowStep.rawFields).orElse fun _ =>
    (registry.durables.lookup kind).map DurableStep.rawFields

def dispatch (registry : StepRegistry) (kind : String) (run : RunInfo)
    (config : Value) (inputs : Table) :
    Except StepError (Except StepError Value) :=
  match registry.steps.lookup kind with
  | none => .error { message := "kind inconnu: " ++ kind, retryable := false }
  | some step => .ok (step.run run config inputs)

theorem rawFields_of_durable {registry : StepRegistry} {kind : String}
    {step : DurableStep} (found : registry.durable kind = some step) :
    registry.rawFields kind = some step.rawFields := by
  have isDurable : kind ∈ registry.durables := Finmap.mem_of_lookup_eq_some found
  have notStep : registry.steps.lookup kind = none :=
    Finmap.lookup_eq_none.mpr (registry.disjoint kind isDurable)
  rw [durable] at found
  simp [rawFields, notStep, found]

end StepRegistry

/-- What a handler answers to Restate. -/
inductive HandlerError where
  | retryable (error : StepError)
  | terminal (error : TerminalError)
  deriving DecidableEq

def kindInconnu (kind : String) : HandlerError :=
  .terminal { code := 404, message := "kind inconnu: " ++ kind }

def stepErrorToHandlerError (error : StepError) : HandlerError :=
  if error.retryable then .retryable error
  else .terminal (.new error.message)

def renderForKind (hbs : Services) (registry : StepRegistry) (kind : String)
    (run : RunInfo) (config : Value) (inputs : Table) :
    Except StepError Value :=
  match registry.rawFields kind with
  | none => .error { message := "kind inconnu: " ++ kind, retryable := false }
  | some raw => (renderConfig hbs config run inputs raw).outcome

def runInvocation (hbs : Services) (registry : StepRegistry) (kind : String)
    (run : RunInfo) (config : Value) (inputs : Table) :
    Except HandlerError Value := do
  if (registry.rawFields kind).isNone then
    throw (kindInconnu kind)
  let rendered ← (renderForKind hbs registry kind run config inputs).mapError
    stepErrorToHandlerError
  match registry.dispatch kind run rendered inputs with
  | .error _ => throw (kindInconnu kind)
  | .ok found => found.mapError stepErrorToHandlerError

/-- The body that the handlers `execute` and `execute_long` share. -/
def runStep (hbs : Services) (registry : StepRegistry) (enfant : Enfant)
    (invocation : StepInvocation) : Logged HandlerError ChildCall Value :=
  let run := invocation.runInfo
  match registry.durable invocation.kind with
  | some durable => do
      let rendered ← Logged.lift
        ((renderForKind hbs registry invocation.kind run invocation.config
          invocation.inputs).mapError stepErrorToHandlerError)
      (durable.run enfant run rendered invocation.inputs).mapError
        stepErrorToHandlerError
  | none =>
      Logged.lift (runInvocation hbs registry invocation.kind run
        invocation.config invocation.inputs)

/-- A child run comes from a durable kind, which received its rendered
`config`. -/
theorem mem_log_runStep {hbs : Services} {registry : StepRegistry}
    {enfant : Enfant} {invocation : StepInvocation} {call : ChildCall}
    (called : call ∈ (runStep hbs registry enfant invocation).log) :
    ∃ durable rendered, registry.durable invocation.kind = some durable ∧
      (renderConfig hbs invocation.config invocation.runInfo invocation.inputs
        durable.rawFields).outcome = .ok rendered ∧
      call ∈ (durable.run enfant invocation.runInfo rendered
        invocation.inputs).log := by
  rw [runStep] at called
  cases found : registry.durable invocation.kind with
  | none => simp [found] at called
  | some durable =>
      simp only [found, Logged.mem_log_bind, Logged.log_lift,
        List.not_mem_nil, false_or, Logged.log_mapError] at called
      obtain ⟨rendered, success, called⟩ := called
      refine ⟨durable, rendered, rfl, ?_, called⟩
      simp only [Logged.lift, renderForKind,
        StepRegistry.rawFields_of_durable found] at success
      cases result : (renderConfig hbs invocation.config invocation.runInfo
          invocation.inputs durable.rawFields).outcome with
      | error error => simp [result, Except.mapError] at success
      | ok value => simpa [result, Except.mapError] using success

end MiryadCore.Workflow
