import MiryadCore.Workflow.Step

/-!
# The walk of a DAG, layer after layer

`run` follows `DagInterpreter::run`.  The services that Restate provides enter
through `Restate.next`, the sequence that `DurableFuturesUnordered::next`
yields for one layer.
-/

namespace MiryadCore.Workflow

structure RunInput where
  dag : DagSteps
  vars : Members
  trigger : Option String

def dropPlus : List Char → List Char
  | '+' :: digits => digits
  | digits => digits

/-- `str::parse::<u32>`: an optional plus sign, then decimal digits. -/
def parseU32 (text : String) : Option UInt32 :=
  let digits := dropPlus text.toList
  if digits = [] ∨ ¬ digits.all Char.isDigit then
    none
  else if Nat.ofDigitChars 10 digits 0 < UInt32.size then
    some (UInt32.ofNat (Nat.ofDigitChars 10 digits 0))
  else
    none

def parseDepth (raw : Option String) : UInt32 :=
  (raw.bind parseU32).getD 0

/-- Steps outside `completed` whose dependencies are all inside, in the order
of the DAG. -/
def readySteps (dag : List StepDefinition) (completed : Finset String) :
    List StepDefinition :=
  (dag.filter fun step => step.id ∉ completed).filter fun step =>
    step.dependsOn.all fun dep => dep ∈ completed

def buildInputs (step : StepDefinition) (results : Table) : Table :=
  Table.collect (step.dependsOn.filterMap fun id =>
    (results.lookup id).map fun sortie => (id, sortie))

def buildInvocation (step : StepDefinition) (inputs : Table) (runKey : String)
    (depth : UInt32) (vars : Members) (trigger : Option String) :
    StepInvocation :=
  { kind := step.kind
    config := step.config
    inputs
    runKey
    stepId := step.id
    depth
    vars := .object vars
    trigger }

/-- What a run reads once, before its first layer. -/
structure RunContext where
  key : String
  depth : UInt32
  vars : Members
  trigger : Option String

/-- A call pushed into the futures of a layer. -/
structure Request where
  handler : String
  invocation : StepInvocation
  deriving DecidableEq

abbrev Outcome := Except TerminalError Value

/-- The answers of the dispatcher.  For the layer of a given number, `next`
lists the push indices with their outcomes in the order of completion: each
pushed future is yielded once, under its push index. -/
structure Restate where
  next : ℕ → List Request → List (ℕ × Outcome)
  once : ∀ couche requests,
    ((next couche requests).map Prod.fst).Perm (List.range requests.length)

/-- Every step answers `null`, and the futures of a layer complete in the
reverse of their push order. -/
def Restate.lifo : Restate where
  next _ requests :=
    (List.range requests.length).reverse.map fun idx => (idx, .ok .null)
  once couche requests := by
    simp only [List.map_map, Function.comp_def, List.map_id']
    exact List.reverse_perm _

/-- A layer of the walk: the table from which its inputs were taken, its
requests, and their outcomes in the order of completion. -/
structure Couche where
  results : Table
  requests : List Request
  outcomes : List (ℕ × Outcome)

structure Marche where
  completed : Finset String
  results : Table
  couches : List Couche

/-- The ways in which `run` fails. -/
inductive RunError where
  | invalidDag (error : WorkflowError)
  | indexOutOfBounds
  | step (error : TerminalError)
  deriving DecidableEq

def RunError.terminal : RunError → TerminalError
  | .invalidDag error => { code := 400, message := error.display }
  | .indexOutOfBounds => .new "internal index out of bounds"
  | .step error => error

/-- The requests of the next layer. -/
def prepareRequests (dag : List StepDefinition) (context : RunContext)
    (marche : Marche) : List Request :=
  (readySteps dag marche.completed).map fun step =>
    { handler := handlerName step.kind
      invocation := buildInvocation step (buildInputs step marche.results)
        context.key context.depth context.vars context.trigger }

/-- The ids pushed beside the futures of a layer, `ready_ids`. -/
def Couche.readyIds (couche : Couche) : List String :=
  couche.requests.map fun request => request.invocation.stepId

def Marche.couche (dag : List StepDefinition) (context : RunContext)
    (restate : Restate) (marche : Marche) : Couche :=
  let requests := prepareRequests dag context marche
  { results := marche.results
    requests
    outcomes := restate.next marche.couches.length requests }

/-- The inner loop over `futures.next()`. -/
def collecte (readyIds : List String) :
    List (ℕ × Outcome) → Marche → Except RunError Marche
  | [], marche => .ok marche
  | (idx, result) :: outcomes, marche =>
      match readyIds[idx]? with
      | none => .error .indexOutOfBounds
      | some id =>
          match result with
          | .error error => .error (.step error)
          | .ok output =>
              collecte readyIds outcomes
                { marche with
                  results := marche.results.insert id output
                  completed := insert id marche.completed }

/-- The walk with its next layer sent out. -/
def Marche.lance (dag : List StepDefinition) (context : RunContext)
    (restate : Restate) (marche : Marche) : Marche :=
  { marche with
    couches := marche.couches ++ [marche.couche dag context restate] }

/-- At most `tours` turns of the outer loop.  `none` means that more turns are
needed. -/
def marche (dag : List StepDefinition) (context : RunContext)
    (restate : Restate) :
    ℕ → Marche → Marche × Option (Except RunError Table)
  | tours, etat =>
      if etat.completed.card = dag.length then
        (etat, some (.ok etat.results))
      else
        match tours with
        | 0 => (etat, none)
        | tours + 1 =>
            let lance := etat.lance dag context restate
            let couche := etat.couche dag context restate
            match collecte couche.readyIds couche.outcomes lance with
            | .error error => (lance, some (.error error))
            | .ok suivant => marche dag context restate tours suivant

def Marche.initiale : Marche :=
  { completed := ∅, results := ∅, couches := [] }

/-- What the handler reads from its key, its depth header and its input. -/
def runContext (key : String) (depthHeader : Option String)
    (input : RunInput) : RunContext :=
  { key
    depth := parseDepth depthHeader
    vars := input.vars
    trigger := input.trigger }

/-- `DagInterpreter::run`, together with the walk it performed. -/
def run (restate : Restate) (key : String) (depthHeader : Option String)
    (input : RunInput) (tours : ℕ) :
    Marche × Option (Except RunError Table) :=
  match validateDag input.dag with
  | .error error => (.initiale, some (.error (.invalidDag error)))
  | .ok () =>
      marche input.dag (runContext key depthHeader input) restate tours
        .initiale

end MiryadCore.Workflow
