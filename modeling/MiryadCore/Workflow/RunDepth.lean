import MiryadCore.Workflow.RunTree
import Mathlib.Data.UInt

/-!
# What nested runs inherit

The depth crosses a run boundary as a decimal header, the trigger and the
variables as members of the body.  The kind `subworkflow` refuses to go beyond
its maximal depth.
-/

namespace MiryadCore.Workflow

open Template (Services renderConfig)

theorem parseU32_toString {n : ℕ} (small : n < UInt32.size) :
    parseU32 (toString n) = some (UInt32.ofNat n) := by
  have text : (toString n).toList = Nat.toDigits 10 n := Nat.toList_repr
  have digit : ∀ char ∈ Nat.toDigits 10 n, char.isDigit = true :=
    fun char member =>
      Nat.isDigit_of_mem_toDigits (by omega) (by omega) member
  have noSign : dropPlus (Nat.toDigits 10 n) = Nat.toDigits 10 n := by
    rw [dropPlus]
    intro digits shape
    have plus := digit '+' (by rw [shape]; exact List.mem_cons_self)
    exact absurd plus (by decide)
  have whole : ¬ (Nat.toDigits 10 n = [] ∨
      ¬ (Nat.toDigits 10 n).all Char.isDigit = true) := by
    rw [not_or, not_not, List.all_eq_true]
    exact ⟨Nat.toDigits_ne_nil, digit⟩
  rw [parseU32, text]
  simp only [noSign]
  rw [if_neg whole, Nat.ofDigitChars_ten_toDigits, if_pos small]

theorem parseDepth_toString (depth : UInt32) :
    parseDepth (some (toString depth.toNat)) = depth := by
  rw [parseDepth, Option.bind_some, parseU32_toString depth.toNat_lt_size]
  exact UInt32.ofNat_toNat

/-- The durable kinds of the registry are `subworkflow` steps with one maximal
depth, and kinds that start no run. -/
def StepRegistry.OnlySubWorkflows (registry : StepRegistry)
    (maxDepth : UInt32) : Prop :=
  ∀ kind durable, registry.durable kind = some durable →
    (∃ erreurSerde, durable = subWorkflowStep erreurSerde maxDepth) ∨
      ∀ enfant run config inputs,
        (durable.run enfant run config inputs).log = []

/-- The world in which each invocation goes to the dispatcher.  The rendering
services and the answers of the children may differ at each position. -/
def World.dispatching (registry : StepRegistry)
    (services : List String → StepInvocation → Services)
    (enfant : List String → StepInvocation → Enfant)
    (restate : List String → RunRequest → Restate)
    (tours : List String → RunRequest → ℕ) : World where
  restate := restate
  tours := tours
  calls path invocation :=
    (runStep (services path invocation) registry (enfant path invocation)
      invocation).log

variable {registry : StepRegistry} {maxDepth : UInt32}

theorem StepRegistry.OnlySubWorkflows.prepared
    (only : registry.OnlySubWorkflows maxDepth) {hbs : Services}
    {enfant : Enfant} {invocation : StepInvocation} {call : ChildCall}
    (called : call ∈ (runStep hbs registry enfant invocation).log) :
    ∃ erreurSerde rendered,
      (renderConfig hbs invocation.config invocation.runInfo invocation.inputs
        ["dag"]).outcome = .ok rendered ∧
      prepare erreurSerde invocation.runInfo rendered maxDepth = .ok call := by
  obtain ⟨durable, rendered, found, success, called⟩ := mem_log_runStep called
  rcases only invocation.kind durable found with ⟨erreurSerde, rfl⟩ | silent
  · exact ⟨erreurSerde, rendered, success, mem_log_subWorkflowStep called⟩
  · rw [silent] at called
    cases called

variable {services : List String → StepInvocation → Services}
  {enfant : List String → StepInvocation → Enfant}
  {restate : List String → RunRequest → Restate}
  {tours : List String → RunRequest → ℕ}
  {root request : RunRequest} {path : List String}

theorem runChildDag_depth (run : RunInfo) (call : ChildCall) :
    (parseDepth (runChildDag run call).depthHeader).toNat =
      min (run.depth.toNat + 1) (2 ^ 32 - 1) := by
  rw [runChildDag, parseDepth_toString, saturatingSucc_toNat]

theorem World.Started.depth {world : World}
    (started : world.Started root path request)
    (atRoot : parseDepth root.depthHeader = 0) :
    (parseDepth request.depthHeader).toNat = min path.length (2 ^ 32 - 1) := by
  induction started with
  | root => simp [atRoot]
  | @child path parent invocation call _ member _ induction =>
      rw [runChildDag_depth, StepInvocation.runInfo,
        World.invocation_depth member, induction, List.length_append,
        List.length_singleton]
      omega

theorem World.Started.trigger {world : World}
    (started : world.Started root path request) :
    request.input.trigger = root.input.trigger := by
  induction started with
  | root => rfl
  | @child path parent invocation call _ member _ induction =>
      rw [← induction]
      exact World.invocation_trigger member

/-- The enclosing step of a nested run, with its rendered `config`. -/
theorem World.Started.vars (only : registry.OnlySubWorkflows maxDepth)
    {above : List String} {stepId : String}
    (started : (World.dispatching registry services enfant restate
      tours).Started root (above ++ [stepId]) request) :
    ∃ parent enclosing rendered,
      (World.dispatching registry services enfant restate tours).Started root
        above parent ∧
      enclosing ∈ (World.dispatching registry services enfant restate
        tours).invocations above parent ∧
      enclosing.stepId = stepId ∧
      (renderConfig (services above enclosing) enclosing.config
        enclosing.runInfo enclosing.inputs ["dag"]).outcome = .ok rendered ∧
      .object request.input.vars = SubWorkflowConfig.varsOf rendered := by
  generalize position : above ++ [stepId] = path at started
  cases started with
  | root => simp at position
  | @child path parent invocation call started member called =>
      obtain ⟨rfl, same⟩ := List.append_inj' position rfl
      obtain rfl : stepId = invocation.stepId := List.singleton_inj.mp same
      obtain ⟨erreurSerde, rendered, success, prepared⟩ := only.prepared called
      exact ⟨parent, invocation, rendered, started, member, rfl, success,
        (prepare_ok prepared).2.2⟩

theorem World.Started.length_le (only : registry.OnlySubWorkflows maxDepth)
    (started : (World.dispatching registry services enfant restate
      tours).Started root path request)
    (atRoot : parseDepth root.depthHeader = 0)
    (small : maxDepth.toNat < 2 ^ 32 - 1) :
    path.length ≤ maxDepth.toNat := by
  cases started with
  | root => simp
  | @child path parent invocation call started member called =>
      obtain ⟨_, _, _, prepared⟩ := only.prepared called
      have allowed : (saturatingSucc invocation.depth).toNat ≤
          maxDepth.toNat :=
        UInt32.le_iff_toNat_le.mp (prepare_ok prepared).1
      have level := started.depth atRoot
      rw [saturatingSucc_toNat, World.invocation_depth member, level] at allowed
      rw [List.length_append, List.length_singleton]
      omega

/-- Nested runs carry their level, the trigger of the root and the rendered
variables of their step, and stop at the maximal depth. -/
theorem nested_runs_inherit (registry : StepRegistry) (maxDepth : UInt32)
    (only : registry.OnlySubWorkflows maxDepth)
    (services : List String → StepInvocation → Services)
    (enfant : List String → StepInvocation → Enfant)
    (restate : List String → RunRequest → Restate)
    (tours : List String → RunRequest → ℕ) (runKey : String) (dag : DagSteps)
    (vars : Members) (trigger : Option String) :
    let world := World.dispatching registry services enfant restate tours
    let root := triggerRun runKey dag vars trigger
    ∀ path request, world.Started root path request →
      (∀ invocation ∈ world.invocations path request,
        invocation.depth.toNat = min path.length (2 ^ 32 - 1) ∧
        invocation.trigger = trigger ∧
        (path = [] → invocation.vars = .object vars) ∧
        ∀ above stepId, path = above ++ [stepId] →
          ∃ parent enclosing rendered, world.Started root above parent ∧
            enclosing ∈ world.invocations above parent ∧
            enclosing.stepId = stepId ∧
            (renderConfig (services above enclosing) enclosing.config
              enclosing.runInfo enclosing.inputs ["dag"]).outcome =
                .ok rendered ∧
            invocation.vars = SubWorkflowConfig.varsOf rendered) ∧
      (maxDepth.toNat < 2 ^ 32 - 1 → path.length ≤ maxDepth.toNat) := by
  intro world root path request started
  constructor
  · intro invocation member
    refine ⟨?_, ?_, ?_, ?_⟩
    · rw [World.invocation_depth member]
      exact started.depth rfl
    · rw [World.invocation_trigger member]
      exact started.trigger
    · intro atRoot
      rw [World.invocation_vars member]
      cases started with
      | root => rfl
      | child => simp at atRoot
    · intro above stepId position
      subst position
      obtain ⟨parent, enclosing, rendered, above, inside, same, success,
        carried⟩ := World.Started.vars only started
      refine ⟨parent, enclosing, rendered, above, inside, same, success, ?_⟩
      rw [World.invocation_vars member, carried]
  · exact World.Started.length_le only started rfl

/-- The registry of an application that knows one kind. -/
def StepRegistry.subWorkflowOnly (maxDepth : UInt32) : StepRegistry where
  steps := ∅
  durables := Finmap.singleton "subworkflow"
    (subWorkflowStep (fun _ => "") maxDepth)
  disjoint := fun _ _ ordinary => (Finmap.notMem_empty ordinary).elim

theorem StepRegistry.subWorkflowOnly_only (maxDepth : UInt32) :
    (StepRegistry.subWorkflowOnly maxDepth).OnlySubWorkflows maxDepth := by
  intro kind durable found
  have known : kind = "subworkflow" :=
    (Finmap.mem_singleton kind "subworkflow" _).mp
      (Finmap.mem_of_lookup_eq_some found)
  subst known
  apply Or.inl
  refine ⟨fun _ => "", ?_⟩
  rw [StepRegistry.durable, StepRegistry.subWorkflowOnly,
    Finmap.lookup_singleton_eq, Option.some.injEq] at found
  exact found.symm

/-- The services return what they receive, as texts without a template. -/
def Template.Services.identity : Services where
  render template _ := .ok template
  fromStr text := .ok (.string text)

/-- A step whose child has one step and one variable. -/
def sousWorkflow : StepDefinition :=
  { id := "s"
    dependsOn := []
    kind := "subworkflow"
    config := .object
      [("dag", .array [.object [("config", .null), ("depends_on", .array []),
          ("id", .string "t"), ("kind", .string "k")]]),
        ("trigger", .string "other"),
        ("vars", .object [("x", .string "1")])] }

theorem nested_runs_inherit_below_root :
    let world := World.dispatching (.subWorkflowOnly 1) (fun _ _ => .identity)
      (fun _ _ _ => .ok ∅) (fun _ _ => .lifo) (fun _ _ => 1)
    let root := triggerRun "r" [sousWorkflow] [] (some "sub-42")
    ∃ request : RunRequest, world.Started root ["s"] request ∧
      ∀ invocation ∈ world.invocations ["s"] request,
        invocation.depth.toNat = 1 ∧ invocation.trigger = some "sub-42" := by
  intro world root
  let invocation : StepInvocation :=
    ⟨"subworkflow", sousWorkflow.config, ∅, "r", "s", 0, .object [],
      some "sub-42"⟩
  let call : ChildCall := ⟨[⟨"t", [], "k", .null⟩], [("x", .string "1")]⟩
  have requested : invocation ∈ world.invocations [] root := by decide
  have called : call ∈ world.calls [] invocation := by decide
  have started : world.Started root ["s"]
      (runChildDag invocation.runInfo call) :=
    .child .root requested called
  refine ⟨runChildDag invocation.runInfo call, started, ?_⟩
  intro nested member
  have inherited := nested_runs_inherit (.subWorkflowOnly 1) 1
    (StepRegistry.subWorkflowOnly_only 1) (fun _ _ => .identity)
    (fun _ _ _ => .ok ∅) (fun _ _ => .lifo) (fun _ _ => 1) "r" [sousWorkflow]
    [] (some "sub-42") ["s"] _ started
  obtain ⟨depth, trigger, _⟩ := inherited.1 nested member
  exact ⟨depth, trigger⟩

end MiryadCore.Workflow
