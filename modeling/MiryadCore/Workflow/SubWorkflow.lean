import MiryadCore.Workflow.Dispatcher
import MiryadCore.Workflow.Interpreter

/-!
# The kind `subworkflow`

`prepare` reads the rendered `config`, checks the depth, then validates the
child DAG.  The text of a deserialization error comes from `serde_json` and is
a parameter.
-/

namespace MiryadCore.Workflow

/-- `Vec<String>`. -/
def stringsOfValue : Value → Option (List String)
  | .array items => items.mapM Value.asString
  | _ => none

/-- The derived `Deserialize` of the source, which also accepts a struct as
the array of its fields. -/
def StepDefinition.ofValue : Value → Option StepDefinition
  | .object members => do
      let id ← members.lookup "id" >>= Value.asString
      let dependsOn ← members.lookup "depends_on" >>= stringsOfValue
      let kind ← members.lookup "kind" >>= Value.asString
      let config ← members.lookup "config"
      return { id, dependsOn, kind, config }
  | .array [id, dependsOn, kind, config] => do
      let id ← Value.asString id
      let dependsOn ← stringsOfValue dependsOn
      let kind ← Value.asString kind
      return { id, dependsOn, kind, config }
  | _ => none

def DagSteps.ofValue : Value → Option DagSteps
  | .array items => items.mapM StepDefinition.ofValue
  | _ => none

structure SubWorkflowConfig where
  dag : DagSteps
  vars : Members
  deriving DecidableEq

/-- Without `vars` the child has none; other members are ignored. -/
def SubWorkflowConfig.ofValue : Value → Option SubWorkflowConfig
  | .object members => do
      let dag ← members.lookup "dag" >>= DagSteps.ofValue
      let vars ←
        match members.lookup "vars" with
        | none => some []
        | some vars => vars.asObject
      return { dag, vars }
  | .array [dag] => do
      let dag ← DagSteps.ofValue dag
      return { dag, vars := [] }
  | .array [dag, vars] => do
      let dag ← DagSteps.ofValue dag
      let vars ← vars.asObject
      return { dag, vars }
  | _ => none

/-- The `vars` of a `config` that describes a child, `{}` when absent. -/
def SubWorkflowConfig.varsOf : Value → Value
  | .object members => (members.lookup "vars").getD (.object [])
  | .array items => (items[1]?).getD (.object [])
  | _ => .object []

/-- `u32::saturating_add` of one. -/
def saturatingSucc (depth : UInt32) : UInt32 :=
  if depth.toNat + 1 < UInt32.size then depth + 1 else depth

def prepare (erreurSerde : Value → String) (run : RunInfo) (config : Value)
    (maxDepth : UInt32) : Except StepError ChildCall :=
  match SubWorkflowConfig.ofValue config with
  | none => .error
      { message := "config subworkflow invalide: " ++ erreurSerde config
        retryable := false }
  | some etape =>
      let childDepth := saturatingSucc run.depth
      if childDepth > maxDepth then
        .error
          { message := (WorkflowError.maxDepthExceeded childDepth
              maxDepth).display
            retryable := false }
      else
        match validateDag etape.dag with
        | .error erreur =>
            .error { message := erreur.display, retryable := false }
        | .ok () => .ok { dag := etape.dag, vars := etape.vars }

/-- The durable kind whose execution is another DAG. -/
def subWorkflowStep (erreurSerde : Value → String) (maxDepth : UInt32) :
    DurableStep where
  rawFields := ["dag"]
  run enfant run config _ := do
    let call ← Logged.lift (prepare erreurSerde run config maxDepth)
    let sorties ← Logged.emit call (enfant call)
    return .object sorties.toMembers

theorem SubWorkflowConfig.vars_eq {config : Value} {etape : SubWorkflowConfig}
    (decoded : SubWorkflowConfig.ofValue config = some etape) :
    .object etape.vars = SubWorkflowConfig.varsOf config := by
  unfold SubWorkflowConfig.ofValue at decoded
  split at decoded
  · rename_i members
    rw [varsOf]
    cases stored : members.lookup "vars" with
    | none =>
        simp only [stored, Option.bind_eq_bind, Option.bind_eq_some_iff,
          Option.pure_def, Option.some.injEq] at decoded
        obtain ⟨dag, _, vars, rfl, rfl⟩ := decoded
        rfl
    | some value =>
        simp only [stored, Option.bind_eq_bind, Option.bind_eq_some_iff,
          Option.pure_def, Option.some.injEq,
          Value.asObject_eq_some] at decoded
        obtain ⟨dag, _, vars, rfl, rfl⟩ := decoded
        rfl
  · simp only [Option.bind_eq_bind, Option.bind_eq_some_iff, Option.pure_def,
      Option.some.injEq] at decoded
    obtain ⟨dag, _, rfl⟩ := decoded
    rfl
  · simp only [Option.bind_eq_bind, Option.bind_eq_some_iff, Option.pure_def,
      Option.some.injEq, Value.asObject_eq_some] at decoded
    obtain ⟨dag, _, vars, rfl, rfl⟩ := decoded
    rfl
  · cases decoded

theorem prepare_ok {erreurSerde : Value → String} {run : RunInfo}
    {config : Value} {maxDepth : UInt32} {call : ChildCall}
    (prepared : prepare erreurSerde run config maxDepth = .ok call) :
    saturatingSucc run.depth ≤ maxDepth ∧ validateDag call.dag = .ok () ∧
      .object call.vars = SubWorkflowConfig.varsOf config := by
  rw [prepare] at prepared
  cases decoded : SubWorkflowConfig.ofValue config with
  | none => simp [decoded] at prepared
  | some etape =>
      simp only [decoded] at prepared
      split at prepared
      · cases prepared
      rename_i allowed
      cases checked : validateDag etape.dag with
      | error erreur => simp [checked] at prepared
      | ok _ =>
          simp only [checked, Except.ok.injEq] at prepared
          subst prepared
          refine ⟨UInt32.not_lt.mp allowed, checked, ?_⟩
          exact SubWorkflowConfig.vars_eq decoded

theorem mem_log_subWorkflowStep {erreurSerde : Value → String}
    {maxDepth : UInt32} {enfant : Enfant} {run : RunInfo} {config : Value}
    {inputs : Table} {call : ChildCall}
    (called : call ∈
      ((subWorkflowStep erreurSerde maxDepth).run enfant run config
        inputs).log) :
    prepare erreurSerde run config maxDepth = .ok call := by
  simp only [subWorkflowStep, Logged.mem_log_bind, Logged.log_lift,
    List.not_mem_nil, false_or] at called
  obtain ⟨prepared, success, called⟩ := called
  rcases called with emitted | ⟨sorties, _, later⟩
  · have same : call = prepared := List.mem_singleton.mp emitted
    rw [same]
    exact success
  · cases later

theorem saturatingSucc_toNat (depth : UInt32) :
    (saturatingSucc depth).toNat = min (depth.toNat + 1) (2 ^ 32 - 1) := by
  have bound : depth.toNat < 2 ^ 32 := depth.toNat_lt
  rw [saturatingSucc]
  split
  · rename_i small
    have size : UInt32.size = 2 ^ 32 := rfl
    rw [size] at small
    rw [UInt32.toNat_add]
    simp only [UInt32.toNat_one]
    omega
  · rename_i full
    have size : UInt32.size = 2 ^ 32 := rfl
    rw [size] at full
    omega

end MiryadCore.Workflow
