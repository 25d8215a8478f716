import MiryadCore.Text.Separated
import MiryadCore.Workflow.RunTree

/-!
# The keys of a tree of runs

The key of a run is the key of the root followed by the step ids of its
position, each after a colon.  Step ids may contain colons, so that two
positions can have one key.
-/

namespace MiryadCore.Workflow

open Separated

variable {world : World} {root request : RunRequest} {path : List String}

/-- The words of a position. -/
def words (path : List String) : List (List Char) :=
  path.map String.toList

theorem words_injective : Function.Injective words :=
  List.map_injective_iff.mpr fun _ _ => String.toList_injective

theorem World.Started.key
    (started : world.Started root path request) :
    request.key.toList = root.key.toList ++ joined ':' (words path) := by
  induction started with
  | root => simp [words]
  | @child path parent invocation call _ member _ induction =>
      have parentKey := World.invocation_runKey member
      simp only [runChildDag, childRunKey, StepInvocation.runInfo, parentKey,
        String.toList_append, induction, words, List.map_append,
        joined_append]
      simp

theorem World.Started.key_eq_iff {path' : List String} {request' : RunRequest}
    (started : world.Started root path request)
    (started' : world.Started root path' request') :
    request.key = request'.key ↔
      joined ':' (words path) = joined ':' (words path') := by
  rw [← String.toList_inj, started.key, started'.key, List.append_cancel_left_eq]

/-- A position and the step that hides it: both lie under one run, the first
below the step `stepId`, the second below a sibling whose id continues with a
colon and `rest`, and the ids below `stepId`, cut at their colons, spell what
`rest` and the ids below the sibling spell. -/
def World.Collision (world : World) (root : RunRequest) : Prop :=
  ∃ path stepId rest below below' request request',
    world.Started root (path ++ stepId :: below) request ∧
    world.Started root (path ++ (stepId ++ ":" ++ rest) :: below') request' ∧
    pieces ':' (words below) =
      rest.toList.splitOn ':' ++ pieces ':' (words below')

private theorem shadows_words {path path' : List String}
    (shadows : Shadows ':' (words path) (words path')) :
    ∃ common stepId rest below below',
      path = common ++ stepId :: below ∧
      path' = common ++ (stepId ++ ":" ++ rest) :: below' ∧
      pieces ':' (words below) =
        rest.toList.splitOn ':' ++ pieces ':' (words below') := by
  obtain ⟨common, word, rest, left, right, leftShape, rightShape, same⟩ :=
    shadows
  obtain ⟨before, tail, rfl, rfl, tailShape⟩ :=
    List.map_eq_append_iff.mp leftShape
  obtain ⟨stepId, below, rfl, rfl, rfl⟩ := List.map_eq_cons_iff.mp tailShape
  obtain ⟨before', tail', rfl, sameBefore, tailShape'⟩ :=
    List.map_eq_append_iff.mp rightShape
  obtain ⟨other, below', rfl, otherShape, rfl⟩ :=
    List.map_eq_cons_iff.mp tailShape'
  obtain rfl : before' = before := words_injective sameBefore
  refine ⟨before', stepId, String.ofList rest, below, below', rfl, ?_, ?_⟩
  · have spelled : other = stepId ++ ":" ++ String.ofList rest := by
      rw [← String.toList_inj, otherShape]
      simp
    rw [spelled]
  · rw [String.toList_ofList]
    exact same

private theorem shadows_of_words (common : List String) (stepId : String)
    {rest : String} {below below' : List String}
    (same : pieces ':' (words below) =
      rest.toList.splitOn ':' ++ pieces ':' (words below')) :
    Shadows ':' (words (common ++ stepId :: below))
      (words (common ++ (stepId ++ ":" ++ rest) :: below')) := by
  refine ⟨words common, stepId.toList, rest.toList, words below, words below',
    ?_, ?_, same⟩
  · simp [words]
  · simp [words]

/-- In a tree of runs two positions never share a key, exactly when the tree
has no collision. -/
theorem keys_distinct_iff (world : World) (root : RunRequest) :
    (∀ path path' request request',
      world.Started root path request → world.Started root path' request' →
        path ≠ path' → request.key ≠ request'.key) ↔
      ¬ world.Collision root := by
  constructor
  · intro distinct collision
    obtain ⟨path, stepId, rest, below, below', request, request', started,
      started', same⟩ := collision
    have shadows := shadows_of_words path stepId same
    have different : path ++ stepId :: below ≠
        path ++ (stepId ++ ":" ++ rest) :: below' := by
      intro equal
      exact shadows.ne (congrArg words equal)
    apply distinct _ _ _ _ started started' different
    exact (started.key_eq_iff started').mpr shadows.joined_eq
  · intro none path path' request request' started started' different equal
    have joins := (started.key_eq_iff started').mp equal
    have apart : words path ≠ words path' := by
      intro same
      exact different (words_injective same)
    rcases (joined_eq_iff_shadows apart).mp joins with shadows | shadows
    · obtain ⟨common, stepId, rest, below, below', rfl, rfl, same⟩ :=
        shadows_words shadows
      exact none ⟨common, stepId, rest, below, below', request, request',
        started, started', same⟩
    · obtain ⟨common, stepId, rest, below, below', rfl, rfl, same⟩ :=
        shadows_words shadows
      exact none ⟨common, stepId, rest, below, below', request', request,
        started', started, same⟩

/-- Every step starts a child run whose only step is `b`. -/
def World.everyStepCalls : World where
  restate _ _ := .lifo
  tours _ _ := 1
  calls _ _ := [⟨[⟨"b", [], "subworkflow", .null⟩], []⟩]

private theorem everyStepCalls_child {parent : RunRequest}
    (invocation : StepInvocation)
    (started : World.everyStepCalls.Started root path parent)
    (member : invocation ∈ World.everyStepCalls.invocations path parent) :
    World.everyStepCalls.Started root (path ++ [invocation.stepId])
      (runChildDag invocation.runInfo
        ⟨[⟨"b", [], "subworkflow", .null⟩], []⟩) :=
  .child started member List.mem_cons_self

/-- A step `a:b` and the step `b` below its sibling `a` start runs with one
key. -/
theorem keys_not_distinct :
    ¬ ∀ (world : World) (root : RunRequest) (path path' : List String)
        (request request' : RunRequest),
      world.Started root path request → world.Started root path' request' →
        path ≠ path' → request.key ≠ request'.key := by
  intro distinct
  let root := triggerRun "r"
    [⟨"a", [], "subworkflow", .null⟩, ⟨"a:b", [], "subworkflow", .null⟩] [] none
  have start : World.everyStepCalls.Started root [] root := .root
  have first := everyStepCalls_child
    ⟨"subworkflow", .null, ∅, "r", "a", 0, .object [], none⟩ start (by decide)
  have below := everyStepCalls_child
    ⟨"subworkflow", .null, ∅, "r:a", "b", 1, .object [], none⟩ first (by decide)
  have sibling := everyStepCalls_child
    ⟨"subworkflow", .null, ∅, "r", "a:b", 0, .object [], none⟩ start
    (by decide)
  exact distinct _ root ["a", "b"] ["a:b"] _ _ below sibling (by decide)
    (by decide)

end MiryadCore.Workflow
