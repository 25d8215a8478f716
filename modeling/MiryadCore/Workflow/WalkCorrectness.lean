import MiryadCore.Workflow.Walk

/-!
# What a run guarantees, whatever the order of completion

The contract speaks about the layers that a run sent out and about its result.
`tours` bounds the turns of the outer loop: as many as steps are enough.
-/

namespace MiryadCore.Workflow

open Relation

variable {dag : List StepDefinition} {context : RunContext}
  {restate one other : Restate} {answer : Request → Outcome}

/-- The outcome of a request is a function of the request. -/
def Restate.Answers (restate : Restate) (answer : Request → Outcome) : Prop :=
  ∀ couche requests, ∀ entry ∈ restate.next couche requests, ∀ request,
    requests[entry.1]? = some request → entry.2 = answer request

private theorem request_of_readyId {couche : Couche} {idx : ℕ} {id : String}
    (located : couche.readyIds[idx]? = some id) :
    ∃ request, couche.requests[idx]? = some request ∧
      request.invocation.stepId = id := by
  simpa [Couche.readyIds, List.getElem?_map] using located

/-- The table after a layer, without its order of completion. -/
private theorem Collected.lookup_of_answers {etat suivant : Marche}
    (answers : restate.Answers answer)
    (collected : Collected (etat.couche dag context restate).readyIds
      (etat.couche dag context restate).outcomes
      (etat.lance dag context restate) suivant) (id : String)
    (output : Value) :
    suivant.results.lookup id = some output ↔
      (∃ request ∈ prepareRequests dag context etat,
        request.invocation.stepId = id ∧ answer request = .ok output) ∨
      etat.results.lookup id = some output ∧
        ∀ request ∈ prepareRequests dag context etat,
          request.invocation.stepId ≠ id := by
  rw [collected.results]
  apply or_congr
  · constructor
    · intro last
      obtain ⟨idx, located, yielded⟩ := last
      obtain ⟨request, found, sameId⟩ := request_of_readyId located
      refine ⟨request, List.mem_of_getElem? found, sameId, ?_⟩
      exact (answers _ _ _ yielded request found).symm
    · intro last
      obtain ⟨request, member, sameId, answered⟩ := last
      obtain ⟨idx, found⟩ := List.mem_iff_getElem?.mp member
      have located : (etat.couche dag context restate).readyIds[idx]? =
          some id := by
        rw [Couche.readyIds, List.getElem?_map]
        exact (congrArg _ found).trans (congrArg some sameId)
      obtain ⟨outcome, yielded⟩ :=
        outcomes_total (couche_once dag context restate etat) located
      have same : outcome = answer request :=
        answers _ _ _ yielded request found
      rw [same, answered] at yielded
      exact ⟨idx, located, yielded⟩
  · apply and_congr Iff.rfl
    constructor
    · intro absent request member sameId
      obtain ⟨idx, found⟩ := List.mem_iff_getElem?.mp member
      have located : (etat.couche dag context restate).readyIds[idx]? =
          some id := by
        rw [Couche.readyIds, List.getElem?_map]
        exact (congrArg _ found).trans (congrArg some sameId)
      obtain ⟨outcome, yielded⟩ :=
        outcomes_total (couche_once dag context restate etat) located
      exact absent _ yielded located
    · intro absent entry _ located
      obtain ⟨request, found, sameId⟩ := request_of_readyId located
      exact absent request (List.mem_of_getElem? found) sameId

/-- When one order of completion collects a layer, so does any other, with the
same table. -/
private theorem collecte_independent (nodup : (ids dag).Nodup)
    (first : one.Answers answer) (second : other.Answers answer)
    {etat etat' suivant : Marche} (completed : etat.completed = etat'.completed)
    (results : etat.results = etat'.results)
    (collected : Collected (etat.couche dag context one).readyIds
      (etat.couche dag context one).outcomes
      (etat.lance dag context one) suivant) :
    ∃ suivant',
      collecte (etat'.couche dag context other).readyIds
        (etat'.couche dag context other).outcomes
        (etat'.lance dag context other) = .ok suivant' ∧
      suivant.completed = suivant'.completed ∧
      suivant.results = suivant'.results := by
  have sameRequests : prepareRequests dag context etat =
      prepareRequests dag context etat' := by
    rw [prepareRequests, prepareRequests, completed, results]
  have sameReady : (etat.couche dag context one).readyIds =
      (etat'.couche dag context other).readyIds := by
    rw [readyIds_couche, readyIds_couche, completed]
  have once := couche_once dag context other etat'
  rcases collecte_cases (nodup_readyIds_couche nodup)
      (outcomes_bounded once) (outcomes_nodup once)
      (etat'.lance dag context other) with
    ⟨idx, id, error, located, yielded, _⟩ | ⟨suivant', result, collected'⟩
  · obtain ⟨request, found, _⟩ := request_of_readyId located
    have failed : .error error = answer request :=
      second _ _ _ yielded request found
    rw [← sameReady] at located
    obtain ⟨outcome, yieldedOne⟩ :=
      outcomes_total (couche_once dag context one etat) located
    have foundOne : (prepareRequests dag context etat)[idx]? = some request := by
      rw [sameRequests]
      exact found
    have same : outcome = answer request :=
      first _ _ _ yieldedOne request foundOne
    obtain ⟨output, ok⟩ := collected.succeeded _ yieldedOne
    have conflict : (Except.error error : Outcome) = .ok output :=
      (failed.trans same.symm).trans ok
    cases conflict
  · refine ⟨suivant', result, ?_, ?_⟩
    · ext id
      rw [collected.mem_completed, collected'.mem_completed, completed,
        sameReady]
    · apply Finmap.ext_lookup
      intro id
      apply Option.ext
      intro output
      rw [collected.lookup_of_answers first,
        collected'.lookup_of_answers second, sameRequests, results]

/-- Two walks in the same state stay together when no step errs. -/
theorem marche_independent (nodup : (ids dag).Nodup)
    (first : one.Answers answer) (second : other.Answers answer) (tours : ℕ)
    {etat etat' : Marche} (completed : etat.completed = etat'.completed)
    (results : etat.results = etat'.results) {table : Table}
    (returned : (marche dag context one tours etat).2 = some (.ok table)) :
    (marche dag context other tours etat').2 = some (.ok table) := by
  induction tours generalizing etat etat' with
  | zero =>
      rw [marche] at returned ⊢
      rw [← completed, ← results]
      split
      · rename_i finished
        rwa [if_pos finished] at returned
      · rename_i unfinished
        simp [unfinished] at returned
  | succ tours induction =>
      by_cases finished : etat.completed.card = dag.length
      · rw [marche, if_pos finished] at returned
        rw [marche, ← completed, ← results, if_pos finished]
        exact returned
      · rw [marche, if_neg finished] at returned
        rw [marche, ← completed, if_neg finished]
        have once := couche_once dag context one etat
        rcases collecte_cases (nodup_readyIds_couche nodup)
            (outcomes_bounded once) (outcomes_nodup once)
            (etat.lance dag context one) with
          ⟨_, _, _, _, _, failed⟩ | ⟨suivant, result, collected⟩
        · simp [failed] at returned
        · simp only [result] at returned
          obtain ⟨suivant', result', sameCompleted, sameResults⟩ :=
            collecte_independent nodup first second completed results collected
          simp only [result']
          exact induction sameCompleted sameResults returned

/-- The guarantees of a run of a valid DAG, given its layers and its result. -/
structure RunContract (dag : List StepDefinition) (context : RunContext)
    (tours : ℕ) (walk : Marche × Option (Except RunError Table)) : Prop where
  requestedOnce : (requestedIds walk.1.couches).Nodup
  afterDependencies : ∀ couche ∈ walk.1.couches,
    ∀ request ∈ couche.requests, ∃ etape ∈ dag,
      etape.id = request.invocation.stepId ∧
      (∀ dep ∈ etape.dependsOn, dep ∈ couche.results) ∧
      request = requestOf context couche.results etape ∧
      request.invocation.inputs.keys = etape.dependsOn.toFinset ∧
      ∀ dep output, request.invocation.inputs.lookup dep = some output ↔
        dep ∈ etape.dependsOn ∧ Answered walk.1.couches dep (.ok output)
  layersNonempty : ∀ couche ∈ walk.1.couches, couche.requests ≠ []
  layersBounded : walk.1.couches.length ≤ dag.length
  ends : dag.length ≤ tours → walk.2 ≠ none
  returns : dag.length ≤ tours →
    (∀ id error, ¬ Answered walk.1.couches id (.error error)) →
      ∃ table, walk.2 = some (.ok table)
  table : ∀ table, walk.2 = some (.ok table) →
    table.keys = (ids dag).toFinset ∧
      ∀ id output, table.lookup id = some output ↔
        Answered walk.1.couches id (.ok output)
  fails : ∀ id error, Answered walk.1.couches id (.error error) →
    (∃ observed, walk.2 = some (.error (.step observed)) ∧
      ∃ failed, Answered walk.1.couches failed (.error observed)) ∧
    ∀ requested ∈ requestedIds walk.1.couches,
      ¬ TransGen (DependsOn dag) requested id
  inBounds : walk.2 ≠ some (.error .indexOutOfBounds)

/-- The inputs of a request, once its dependencies have results. -/
private theorem LogSound.inputs {couches : List Couche}
    (sound : LogSound dag context couches) {couche : Couche}
    (member : couche ∈ couches) {etape : StepDefinition}
    (deps : ∀ dep ∈ etape.dependsOn, dep ∈ couche.results) :
    (buildInputs etape couche.results).keys = etape.dependsOn.toFinset ∧
      ∀ dep output,
        (buildInputs etape couche.results).lookup dep = some output ↔
          dep ∈ etape.dependsOn ∧ Answered couches dep (.ok output) := by
  have layer := sound.sound couche member
  constructor
  · ext dep
    rw [Finmap.mem_keys, Finmap.mem_iff, lookup_buildInputs,
      List.mem_toFinset]
    constructor
    · intro found
      obtain ⟨output, found⟩ := found
      by_contra uncited
      simp [uncited] at found
    · intro cited
      rw [if_pos cited]
      exact Finmap.mem_iff.mp (deps dep cited)
  · intro dep output
    rw [lookup_buildInputs]
    by_cases cited : dep ∈ etape.dependsOn
    · simp only [cited, if_true, true_and]
      constructor
      · exact layer.results dep output
      · intro answered
        obtain ⟨stored, found⟩ := Finmap.mem_iff.mp (deps dep cited)
        have same := sound.unique (layer.results dep stored found) answered
        rw [found, Except.ok.inj same]
    · simp [cited]

private theorem LogSound.requests {couches : List Couche}
    (sound : LogSound dag context couches) :
    ∀ couche ∈ couches, ∀ request ∈ couche.requests, ∃ etape ∈ dag,
      etape.id = request.invocation.stepId ∧
      (∀ dep ∈ etape.dependsOn, dep ∈ couche.results) ∧
      request = requestOf context couche.results etape ∧
      request.invocation.inputs.keys = etape.dependsOn.toFinset ∧
      ∀ dep output, request.invocation.inputs.lookup dep = some output ↔
        dep ∈ etape.dependsOn ∧ Answered couches dep (.ok output) := by
  intro couche member request inLayer
  obtain ⟨etape, inDag, deps, shape⟩ :=
    (sound.sound couche member).requests request inLayer
  obtain ⟨keys, lookups⟩ := sound.inputs member deps
  subst shape
  exact ⟨etape, inDag, rfl, deps, rfl, keys, lookups⟩

private theorem LogSound.no_path_to_failed {couches : List Couche}
    (nodup : (ids dag).Nodup) (sound : LogSound dag context couches)
    {id : String} {error : TerminalError}
    (failed : Answered couches id (.error error)) :
    ∀ requested ∈ requestedIds couches,
      ¬ TransGen (DependsOn dag) requested id := by
  intro requested member path
  obtain ⟨output, answered⟩ := sound.path_answered nodup member path
  have conflict := sound.unique failed answered
  cases conflict

private theorem MarcheEnd.contract (valid : validateDag dag = .ok ())
    {tours : ℕ} {walk : Marche × Option (Except RunError Table)}
    (ends : MarcheEnd dag context tours walk) :
    RunContract dag context tours walk := by
  have nodup := (validateDag_eq_ok_iff.mp valid).1.nodup
  cases ends with
  | @suspended etat invariant unfinished least =>
      have short : etat.completed.card < dag.length :=
        lt_of_le_of_ne (invariant.card_le nodup) unfinished
      exact
        { requestedOnce := invariant.log.nodup
          afterDependencies := invariant.log.requests
          layersNonempty := fun couche member =>
            (invariant.log.sound couche member).nonempty
          layersBounded := invariant.log.length_le
          ends := fun enough => absurd (enough.trans least) (by omega)
          returns := fun enough => absurd (enough.trans least) (by omega)
          table := fun table returned => by cases returned
          fails := fun id error failed =>
            (invariant.succeeded id error failed).elim
          inBounds := by simp }
  | @returned etat invariant finished =>
      have keys : etat.results.keys = (ids dag).toFinset := by
        apply Finset.eq_of_subset_of_card_le
        · intro id member
          have completed := invariant.mem_results.mp (Finmap.mem_keys.mp member)
          apply List.mem_toFinset.mpr
          exact invariant.log.known ((invariant.completed id).mp completed)
        · have same : etat.results.keys = etat.completed := by
            ext id
            rw [Finmap.mem_keys]
            exact invariant.mem_results
          rw [same, finished, List.toFinset_card_of_nodup nodup, ids,
            List.length_map]
      exact
        { requestedOnce := invariant.log.nodup
          afterDependencies := invariant.log.requests
          layersNonempty := fun couche member =>
            (invariant.log.sound couche member).nonempty
          layersBounded := invariant.log.length_le
          ends := by simp
          returns := fun _ _ => ⟨etat.results, rfl⟩
          table := fun table returned => by
            cases returned
            exact ⟨keys, invariant.results⟩
          fails := fun id error failed =>
            (invariant.succeeded id error failed).elim
          inBounds := by simp }
  | @failed etat id error log answered =>
      exact
        { requestedOnce := log.nodup
          afterDependencies := log.requests
          layersNonempty := fun couche member =>
            (log.sound couche member).nonempty
          layersBounded := log.length_le
          ends := by simp
          returns := fun _ none => (none id error answered).elim
          table := fun table returned => by cases returned
          fails := fun failed _ failedAnswered =>
            ⟨⟨error, rfl, id, answered⟩,
              log.no_path_to_failed nodup failedAnswered⟩
          inBounds := by simp }

/-- Every run of a valid DAG meets its contract.  When the outcomes are a
function of the requests, the returned table does not depend on the order in
which they arrive. -/
theorem run_correct (restate : Restate) (key : String)
    (depthHeader : Option String) (input : RunInput)
    (valid : validateDag input.dag = .ok ()) (tours : ℕ) :
    RunContract input.dag (runContext key depthHeader input) tours
      (run restate key depthHeader input tours) ∧
    ∀ (other : Restate) (answer : Request → Outcome),
      restate.Answers answer → other.Answers answer →
      ∀ table,
        (run restate key depthHeader input tours).2 = some (.ok table) →
        (run other key depthHeader input tours).2 = some (.ok table) := by
  simp only [run, valid]
  constructor
  · have ends : MarcheEnd input.dag (runContext key depthHeader input)
        (Marche.initiale.completed.card + tours)
        (marche input.dag (runContext key depthHeader input) restate tours
          .initiale) :=
      marche_end valid tours marcheInvariant_initiale
    apply MarcheEnd.contract valid
    simpa [Marche.initiale] using ends
  · intro other answer first second table returned
    exact marche_independent (validateDag_eq_ok_iff.mp valid).1.nodup first
      second tours rfl rfl returned

def losange : List StepDefinition :=
  [⟨"d", ["b", "c", "b"], "k", .null⟩, ⟨"b", ["a"], "k", .null⟩,
    ⟨"c", ["a"], "k", .null⟩, ⟨"a", [], "k", .null⟩]

theorem run_correct_on_losange :
    (run .lifo "r" none ⟨losange, [], none⟩ 4).2 ≠ none ∧
      ∀ other : Restate, other.Answers (fun _ => .ok .null) →
        ∀ table, (run .lifo "r" none ⟨losange, [], none⟩ 4).2 =
            some (.ok table) →
          (run other "r" none ⟨losange, [], none⟩ 4).2 = some (.ok table) := by
  have correct := run_correct .lifo "r" none ⟨losange, [], none⟩ (by decide) 4
  refine ⟨correct.1.ends (by decide), ?_⟩
  intro other second table returned
  apply correct.2 other (fun _ => .ok .null) _ second table returned
  intro couche requests entry member request _
  simp only [Restate.lifo, List.mem_map] at member
  obtain ⟨_, _, rfl⟩ := member
  rfl

end MiryadCore.Workflow
