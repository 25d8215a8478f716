import MiryadCore.Workflow.Definition
import Mathlib.Data.Finset.Sort
import Mathlib.Data.String.Basic

/-!
# The data exchanged between the interpreter, the dispatcher and a step

Everything here crosses a service boundary as JSON.  The tables are hash maps
of the source, hence finite maps without an order of their own.
-/

namespace MiryadCore.Workflow

/-- `HashMap<String, Value>`. -/
abbrev Table := Finmap fun _ : String => Value

/-- `collect` into a hash map: a later pair replaces an earlier one. -/
def Table.collect (pairs : List (String × Value)) : Table :=
  pairs.foldl (fun table pair => table.insert pair.1 pair.2) ∅

/-- `collect` of a hash map into a JSON object, which sorts its keys. -/
def Table.toMembers (table : Table) : Members :=
  (table.keys.sort (· ≤ ·)).filterMap fun key =>
    (table.lookup key).map fun value => (key, value)

/-- The identity of a run, as each kind of step receives it. -/
structure RunInfo where
  runKey : String
  stepId : String
  depth : UInt32
  vars : Value
  trigger : Option String
  deriving DecidableEq

structure StepError where
  message : String
  retryable : Bool
  deriving DecidableEq, Repr

/-- The body of a request to `StepDispatcher`. -/
structure StepInvocation where
  kind : String
  config : Value
  inputs : Table
  runKey : String
  stepId : String
  depth : UInt32
  vars : Value
  trigger : Option String
  deriving DecidableEq

/-- The run identity that the dispatcher rebuilds from a request. -/
def StepInvocation.runInfo (invocation : StepInvocation) : RunInfo :=
  { runKey := invocation.runKey
    stepId := invocation.stepId
    depth := invocation.depth
    vars := invocation.vars
    trigger := invocation.trigger }

/-- A Restate `TerminalError`. -/
structure TerminalError where
  code : UInt16
  message : String
  deriving DecidableEq, Repr

/-- `TerminalError::new`, whose code is that of an internal error. -/
def TerminalError.new (message : String) : TerminalError :=
  { code := 500, message }

def longRunningKinds : List String := ["subagent"]

/-- The handler of `StepDispatcher` that runs a kind. -/
def handlerName (kind : String) : String :=
  if kind ∈ longRunningKinds then "execute_long" else "execute"

@[simp]
theorem Table.collect_nil : Table.collect [] = ∅ := rfl

private theorem lookup_foldl_insert {key : String}
    (pairs : List (String × Value)) (table : Table) :
    (pairs.foldl (fun table pair => table.insert pair.1 pair.2)
      table).lookup key =
      ((pairs.reverse.lookup key).orElse fun _ => table.lookup key) := by
  induction pairs generalizing table with
  | nil => simp
  | cons pair pairs induction =>
      obtain ⟨other, value⟩ := pair
      rw [List.foldl_cons, induction, List.reverse_cons, List.lookup_append]
      cases pairs.reverse.lookup key with
      | some found => simp
      | none =>
          by_cases same : key = other
          · subst same
            simp
          · simp [List.lookup_cons, same, Finmap.lookup_insert_of_ne,
              beq_eq_false_iff_ne.mpr same]

theorem Table.lookup_collect {key : String}
    (pairs : List (String × Value)) :
    (Table.collect pairs).lookup key = pairs.reverse.lookup key := by
  rw [Table.collect, lookup_foldl_insert, Finmap.lookup_empty]
  cases pairs.reverse.lookup key <;> rfl

end MiryadCore.Workflow
