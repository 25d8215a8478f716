import MiryadCore.Workflow.SubWorkflow
import MiryadCore.Workflow.Walk

/-!
# Trees of runs

A run is started by `triggerRun`, or by a call of `run_child_dag` from a step
that another run has requested.  The position of a run is the path of step ids
that leads to it from the root.
-/

namespace MiryadCore.Workflow

/-- A call of the handler `run`. -/
structure RunRequest where
  key : String
  depthHeader : Option String
  input : RunInput

def childRunKey (runKey stepId : String) : String :=
  runKey ++ ":" ++ stepId

/-- The call that `StepContext::run_child_dag` makes. -/
def runChildDag (run : RunInfo) (call : ChildCall) : RunRequest :=
  { key := childRunKey run.runKey run.stepId
    depthHeader := some (toString (saturatingSucc run.depth).toNat)
    input := { dag := call.dag, vars := call.vars, trigger := run.trigger } }

/-- The call that `client::trigger_run` makes, without a depth header. -/
def triggerRun (runKey : String) (dag : DagSteps) (vars : Members)
    (trigger : Option String) : RunRequest :=
  { key := runKey
    depthHeader := none
    input := { dag, vars, trigger } }

/-- Everything a tree of runs does not decide itself: the answers of Restate
and the number of turns of each run, and the calls of `run_child_dag` that
each requested step makes. -/
structure World where
  restate : List String → RunRequest → Restate
  tours : List String → RunRequest → ℕ
  calls : List String → StepInvocation → List ChildCall

variable {world : World} {root request : RunRequest} {path : List String}
  {invocation : StepInvocation}

/-- What the run at a position requests from the dispatcher. -/
def World.invocations (world : World) (path : List String)
    (request : RunRequest) : List StepInvocation :=
  (run (world.restate path request) request.key request.depthHeader
    request.input (world.tours path request)).1.couches.flatMap fun couche =>
      couche.requests.map Request.invocation

inductive World.Started (world : World) (root : RunRequest) :
    List String → RunRequest → Prop where
  | root : Started world root [] root
  | child {path : List String} {parent : RunRequest}
      {invocation : StepInvocation} {call : ChildCall} :
      Started world root path parent →
      invocation ∈ world.invocations path parent →
      call ∈ world.calls path invocation →
      Started world root (path ++ [invocation.stepId])
        (runChildDag invocation.runInfo call)

theorem World.mem_invocations
    (member : invocation ∈ world.invocations path request) :
    validateDag request.input.dag = .ok () ∧
      ∃ etape ∈ request.input.dag, ∃ results : Table,
        invocation = buildInvocation etape (buildInputs etape results)
          request.key (parseDepth request.depthHeader) request.input.vars
          request.input.trigger := by
  obtain ⟨couche, inWalk, inCouche⟩ := List.mem_flatMap.mp member
  obtain ⟨sent, inRequests, rfl⟩ := List.mem_map.mp inCouche
  obtain ⟨valid, sound⟩ := run_couches inWalk
  obtain ⟨etape, inDag, _, shape⟩ := sound.requests sent inRequests
  refine ⟨valid, etape, inDag, couche.results, ?_⟩
  rw [shape]
  rfl

theorem World.invocation_runKey
    (member : invocation ∈ world.invocations path request) :
    invocation.runKey = request.key := by
  obtain ⟨_, _, _, _, rfl⟩ := World.mem_invocations member
  rfl

theorem World.invocation_depth
    (member : invocation ∈ world.invocations path request) :
    invocation.depth = parseDepth request.depthHeader := by
  obtain ⟨_, _, _, _, rfl⟩ := World.mem_invocations member
  rfl

theorem World.invocation_vars
    (member : invocation ∈ world.invocations path request) :
    invocation.vars = .object request.input.vars := by
  obtain ⟨_, _, _, _, rfl⟩ := World.mem_invocations member
  rfl

theorem World.invocation_trigger
    (member : invocation ∈ world.invocations path request) :
    invocation.trigger = request.input.trigger := by
  obtain ⟨_, _, _, _, rfl⟩ := World.mem_invocations member
  rfl

end MiryadCore.Workflow
