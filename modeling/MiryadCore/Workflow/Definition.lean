import MiryadCore.Json.Value
import Mathlib.Data.Finmap
import Mathlib.Data.Finset.Card

/-!
# Stored steps and structural validation of a DAG

`validateDag` follows the four stages of the source in order: emptiness,
duplicate ids, dangling dependencies, then Kahn's topological sort.
-/

namespace MiryadCore.Workflow

/-- One step as stored in `DagSteps`; `kind` and `config` stay opaque here. -/
structure StepDefinition where
  id : String
  dependsOn : List String
  kind : String
  config : Value
  deriving DecidableEq, Repr

abbrev DagSteps := List StepDefinition

inductive WorkflowError where
  | invalidDag (message : String)
  | maxDepthExceeded (depth max : UInt32)
  deriving DecidableEq, Repr

/-- The `Display` of the error, code included. -/
def WorkflowError.display : WorkflowError → String
  | .invalidDag message => "MRD-WORKFLOW-004: " ++ message
  | .maxDepthExceeded depth max =>
      "MRD-WORKFLOW-008: sub-workflow depth " ++ toString depth.toNat ++
        " exceeds the maximum of " ++ toString max.toNat

/-- Stage 2: the set of ids, or the first id met twice. -/
def verifieIds (idsVus : Finset String) :
    List StepDefinition → Except WorkflowError (Finset String)
  | [] => .ok idsVus
  | etape :: steps =>
      if etape.id ∈ idsVus then
        .error (.invalidDag ("step id dupliqué: " ++ etape.id))
      else
        verifieIds (insert etape.id idsVus) steps

/-- Stage 3 for one step. -/
def verifieDependances (idsVus : Finset String) (etape : StepDefinition) :
    List String → Except WorkflowError Unit
  | [] => .ok ()
  | dep :: deps =>
      if dep ∉ idsVus then
        .error (.invalidDag ("le step " ++ etape.id ++ " dépend de " ++ dep ++
          ", absent de ce DAG"))
      else
        verifieDependances idsVus etape deps

/-- The state of Kahn's algorithm: remaining in-degrees, queue, and the steps
already taken out of the queue. -/
structure Tri where
  degres : Finmap (fun _ : String => ℕ)
  file : List String
  traites : Finset String

/-- A dependency cited twice counts for two incoming edges. -/
def degresInitiaux (steps : List StepDefinition) :
    Finmap (fun _ : String => ℕ) :=
  steps.foldl
    (fun degres etape => degres.insert etape.id etape.dependsOn.length) ∅

/-- `aval.entry(dep).or_default().push(id)` for each dependency of a step. -/
def ajouteAval (id : String)
    (aval : Finmap (fun _ : String => List String)) (deps : List String) :
    Finmap (fun _ : String => List String) :=
  deps.foldl
    (fun aval dep => aval.insert dep ((aval.lookup dep).getD [] ++ [id])) aval

/-- The ids of the steps that cite a given id, one entry for each citation. -/
def avalDe (steps : List StepDefinition) :
    Finmap (fun _ : String => List String) :=
  steps.foldl (fun aval etape => ajouteAval etape.id aval etape.dependsOn) ∅

def triInitial (steps : List StepDefinition) : Tri :=
  { degres := degresInitiaux steps
    file := (steps.filter fun etape =>
      (degresInitiaux steps).lookup etape.id = some 0).map StepDefinition.id
    traites := ∅ }

/-- One turn of the inner loop: an incoming edge of `successeur` is gone. -/
def Tri.decremente (tri : Tri) (successeur : String) : Tri :=
  match tri.degres.lookup successeur with
  | none => tri
  | some degre =>
      { tri with
        degres := tri.degres.insert successeur (degre - 1)
        file :=
          if degre - 1 = 0 then tri.file ++ [successeur] else tri.file }

/-- The body of the outer loop for the id taken from the queue. -/
def Tri.traite (aval : Finmap (fun _ : String => List String))
    (id : String) (tri : Tri) : Tri :=
  ((aval.lookup id).getD []).foldl Tri.decremente
    { tri with traites := insert id tri.traites }

/-- At most `tours` turns of `while let Some(id) = file.pop_front()`. -/
def Tri.deroule (aval : Finmap (fun _ : String => List String)) :
    ℕ → Tri → Tri
  | 0, tri => tri
  | tours + 1, tri =>
      match tri.file with
      | [] => tri
      | id :: file => Tri.deroule aval tours (Tri.traite aval id { tri with file })

/-- The sort of a whole list.  `triKahn_file` shows that the queue is empty
by then, so that one turn for each step is the whole loop. -/
def triKahn (steps : List StepDefinition) : Tri :=
  (triInitial steps).deroule (avalDe steps) steps.length

def validateDag (steps : List StepDefinition) : Except WorkflowError Unit := do
  if steps.isEmpty then
    throw (.invalidDag "le DAG ne contient aucun step")
  let idsVus ← verifieIds ∅ steps
  steps.forM fun etape => verifieDependances idsVus etape etape.dependsOn
  let traites := (triKahn steps).traites
  if traites.card < steps.length then
    if let some etape := steps.find? fun etape => etape.id ∉ traites then
      throw (.invalidDag ("cycle détecté impliquant le step " ++ etape.id))
  return ()

/-- `id` names a step that cites `dep` in its `depends_on`. -/
def DependsOn (steps : List StepDefinition) (id dep : String) : Prop :=
  ∃ etape ∈ steps, etape.id = id ∧ dep ∈ etape.dependsOn

end MiryadCore.Workflow
