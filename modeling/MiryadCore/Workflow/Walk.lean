import MiryadCore.Workflow.Collection
import MiryadCore.Workflow.DefinitionCorrectness

/-!
# The walk of a valid DAG

`LogSound` holds of the layers sent out so far, whether or not the last one
failed.  `MarcheInvariant` adds what holds between two layers, once every
outcome of the log has been collected.
-/

namespace MiryadCore.Workflow

open MiryadCore.Graph Relation

variable {dag : List StepDefinition} {context : RunContext}
  {restate : Restate} {etat suivant : Marche} {couches : List Couche}

/-- The ids requested by some layers, in the order of the requests. -/
def requestedIds (couches : List Couche) : List String :=
  couches.flatMap Couche.readyIds

/-- A layer requested the step `id`, and the request ended with `outcome`. -/
def Answered (couches : List Couche) (id : String) (outcome : Outcome) :
    Prop :=
  ∃ couche ∈ couches, ∃ idx, couche.readyIds[idx]? = some id ∧
    (idx, outcome) ∈ couche.outcomes

/-- The request that `etape` causes when `results` is the current table. -/
def requestOf (context : RunContext) (results : Table)
    (etape : StepDefinition) : Request :=
  { handler := handlerName etape.kind
    invocation := buildInvocation etape (buildInputs etape results)
      context.key context.depth context.vars context.trigger }

/-- A layer that the outcomes of `couches` justify. -/
structure CoucheSound (dag : List StepDefinition) (context : RunContext)
    (couches : List Couche) (couche : Couche) : Prop where
  nonempty : couche.requests ≠ []
  once : (couche.outcomes.map Prod.fst).Perm
    (List.range couche.requests.length)
  requests : ∀ request ∈ couche.requests, ∃ etape ∈ dag,
    (∀ dep ∈ etape.dependsOn, dep ∈ couche.results) ∧
      request = requestOf context couche.results etape
  results : ∀ id output, couche.results.lookup id = some output →
    Answered couches id (.ok output)

structure LogSound (dag : List StepDefinition) (context : RunContext)
    (couches : List Couche) : Prop where
  nodup : (requestedIds couches).Nodup
  sound : ∀ couche ∈ couches, CoucheSound dag context couches couche

structure MarcheInvariant (dag : List StepDefinition) (context : RunContext)
    (etat : Marche) : Prop where
  log : LogSound dag context etat.couches
  completed : ∀ id, id ∈ etat.completed ↔ id ∈ requestedIds etat.couches
  results : ∀ id output, etat.results.lookup id = some output ↔
    Answered etat.couches id (.ok output)
  succeeded : ∀ id error, ¬ Answered etat.couches id (.error error)

theorem mem_requestedIds {id : String} :
    id ∈ requestedIds couches ↔
      ∃ couche ∈ couches, id ∈ couche.readyIds :=
  List.mem_flatMap

theorem Answered.requested {id : String} {outcome : Outcome}
    (answered : Answered couches id outcome) :
    id ∈ requestedIds couches := by
  obtain ⟨couche, member, idx, located, _⟩ := answered
  apply mem_requestedIds.mpr
  exact ⟨couche, member, List.mem_of_getElem? located⟩

theorem Answered.append {id : String} {outcome : Outcome}
    (answered : Answered couches id outcome) (later : List Couche) :
    Answered (couches ++ later) id outcome := by
  obtain ⟨couche, member, located⟩ := answered
  exact ⟨couche, List.mem_append_left later member, located⟩

theorem mem_readyIds {couche : Couche} {id : String} :
    id ∈ couche.readyIds ↔
      ∃ request ∈ couche.requests, request.invocation.stepId = id := by
  simp [Couche.readyIds]

private theorem answered_split {last : Couche} {id : String}
    {outcome : Outcome} (answered : Answered (couches ++ [last]) id outcome) :
    Answered couches id outcome ∨
      ∃ idx, last.readyIds[idx]? = some id ∧ (idx, outcome) ∈ last.outcomes := by
  obtain ⟨couche, member, located⟩ := answered
  rcases List.mem_append.mp member with earlier | final
  · exact Or.inl ⟨couche, earlier, located⟩
  · rw [List.mem_singleton] at final
    subst final
    exact Or.inr located

theorem LogSound.answered (sound : LogSound dag context couches) {id : String}
    (requested : id ∈ requestedIds couches) :
    ∃ outcome, Answered couches id outcome := by
  obtain ⟨couche, member, ready⟩ := mem_requestedIds.mp requested
  obtain ⟨idx, located⟩ := List.mem_iff_getElem?.mp ready
  obtain ⟨outcome, yielded⟩ :=
    outcomes_total (sound.sound couche member).once located
  exact ⟨outcome, couche, member, idx, located, yielded⟩

private theorem couche_unique {id : String} :
    ∀ {couches : List Couche}, (requestedIds couches).Nodup →
      ∀ {first second : Couche}, first ∈ couches → second ∈ couches →
        id ∈ first.readyIds → id ∈ second.readyIds → first = second
  | [], _, _, _, firstMember, _, _, _ => by cases firstMember
  | couche :: couches, nodup, first, second, firstMember, secondMember,
      inFirst, inSecond => by
      simp only [requestedIds, List.flatMap_cons, List.nodup_append] at nodup
      obtain ⟨_, tailNodup, apart⟩ := nodup
      rcases List.mem_cons.mp firstMember with rfl | firstLater
      · rcases List.mem_cons.mp secondMember with rfl | secondLater
        · rfl
        · apply False.elim
          exact apart id inFirst id
            (List.mem_flatMap.mpr ⟨second, secondLater, inSecond⟩) rfl
      · rcases List.mem_cons.mp secondMember with rfl | secondLater
        · apply False.elim
          exact apart id inSecond id
            (List.mem_flatMap.mpr ⟨first, firstLater, inFirst⟩) rfl
        · exact couche_unique tailNodup firstLater secondLater inFirst inSecond

private theorem nodup_readyIds_of_requestedIds
    (nodup : (requestedIds couches).Nodup) {couche : Couche}
    (member : couche ∈ couches) : couche.readyIds.Nodup := by
  induction couches with
  | nil => cases member
  | cons head tail induction =>
      simp only [requestedIds, List.flatMap_cons, List.nodup_append] at nodup
      rcases List.mem_cons.mp member with rfl | later
      · exact nodup.1
      · exact induction nodup.2.1 later

theorem LogSound.unique (sound : LogSound dag context couches) {id : String}
    {one other : Outcome} (first : Answered couches id one)
    (second : Answered couches id other) : one = other := by
  obtain ⟨couche, member, idx, located, yielded⟩ := first
  obtain ⟨couche', member', idx', located', yielded'⟩ := second
  have same : couche = couche' :=
    couche_unique sound.nodup member member'
      (List.mem_of_getElem? located) (List.mem_of_getElem? located')
  subst same
  have bound : idx < couche.readyIds.length :=
    (List.getElem?_eq_some_iff.mp located).1
  have nodupIds := nodup_readyIds_of_requestedIds sound.nodup member
  have sameIdx : idx = idx' :=
    (List.getElem?_inj bound nodupIds).mp (located.trans located'.symm)
  subst sameIdx
  have entries := outcomes_nodup (sound.sound couche member).once
  have sameEntry : (idx, one) = (idx, other) :=
    List.inj_on_of_nodup_map entries yielded yielded' rfl
  exact congrArg Prod.snd sameEntry

theorem LogSound.deps_answered (nodup : (ids dag).Nodup)
    (sound : LogSound dag context couches) {id dep : String}
    (requested : id ∈ requestedIds couches) (cites : DependsOn dag id dep) :
    ∃ output, Answered couches dep (.ok output) := by
  obtain ⟨couche, member, ready⟩ := mem_requestedIds.mp requested
  obtain ⟨request, inLayer, sameId⟩ := mem_readyIds.mp ready
  have layer := sound.sound couche member
  obtain ⟨etape, inDag, deps, shape⟩ := layer.requests request inLayer
  obtain ⟨cited, citedInDag, citedId, citesDep⟩ := cites
  have etapeId : etape.id = id := by
    rw [← sameId, shape]
    rfl
  have same : etape = cited :=
    etape_unique nodup inDag citedInDag (etapeId.trans citedId.symm)
  subst same
  obtain ⟨output, found⟩ := Finmap.mem_iff.mp (deps dep citesDep)
  exact ⟨output, layer.results dep output found⟩

theorem LogSound.path_answered (nodup : (ids dag).Nodup)
    (sound : LogSound dag context couches) {id target : String}
    (requested : id ∈ requestedIds couches)
    (path : TransGen (DependsOn dag) id target) :
    ∃ output, Answered couches target (.ok output) := by
  induction path with
  | single cites => exact sound.deps_answered nodup requested cites
  | tail _ cites induction =>
      obtain ⟨_, answered⟩ := induction
      exact sound.deps_answered nodup answered.requested cites

theorem LogSound.known (sound : LogSound dag context couches) {id : String}
    (requested : id ∈ requestedIds couches) : id ∈ ids dag := by
  obtain ⟨couche, member, ready⟩ := mem_requestedIds.mp requested
  obtain ⟨request, inLayer, sameId⟩ := mem_readyIds.mp ready
  obtain ⟨etape, inDag, _, shape⟩ :=
    (sound.sound couche member).requests request inLayer
  apply mem_ids.mpr
  refine ⟨etape, inDag, ?_⟩
  rw [← sameId, shape]
  rfl

/-- Every layer is non-empty, so that there are at most as many layers as
steps. -/
theorem LogSound.length_le (sound : LogSound dag context couches) :
    couches.length ≤ dag.length := by
  have layers : couches.length ≤ (requestedIds couches).length := by
    have each : ∀ couche ∈ couches, 1 ≤ couche.readyIds.length := by
      intro couche member
      rw [length_readyIds]
      exact List.length_pos_iff.mpr (sound.sound couche member).nonempty
    clear sound
    induction couches with
    | nil => simp
    | cons couche couches induction =>
        have head := each couche List.mem_cons_self
        have tail := induction fun other member =>
          each other (List.mem_cons_of_mem _ member)
        simp only [requestedIds, List.flatMap_cons, List.length_append,
          List.length_cons] at tail ⊢
        omega
  have inDag : requestedIds couches ⊆ ids dag :=
    fun _ requested => sound.known requested
  have bounded := (List.subperm_of_subset sound.nodup inDag).length_le
  rw [ids, List.length_map] at bounded
  omega

theorem marcheInvariant_initiale :
    MarcheInvariant dag context .initiale := by
  constructor
  case log =>
    constructor
    · simp [Marche.initiale, requestedIds]
    · intro couche member
      cases member
  case completed => simp [Marche.initiale, requestedIds]
  case results => simp [Marche.initiale, Answered]
  case succeeded => simp [Marche.initiale, Answered]

theorem MarcheInvariant.mem_results (invariant : MarcheInvariant dag context etat)
    {id : String} : id ∈ etat.results ↔ id ∈ etat.completed := by
  rw [invariant.completed, Finmap.mem_iff]
  constructor
  · intro found
    obtain ⟨output, found⟩ := found
    exact ((invariant.results id output).mp found).requested
  · intro requested
    obtain ⟨outcome, answered⟩ := invariant.log.answered requested
    cases outcome with
    | error error => exact (invariant.succeeded id error answered).elim
    | ok output => exact ⟨output, (invariant.results id output).mpr answered⟩

theorem MarcheInvariant.card_le (invariant : MarcheInvariant dag context etat)
    (nodup : (ids dag).Nodup) : etat.completed.card ≤ dag.length := by
  have subset : etat.completed ⊆ (ids dag).toFinset := by
    intro id member
    apply List.mem_toFinset.mpr
    exact invariant.log.known ((invariant.completed id).mp member)
  have bounded := Finset.card_le_card subset
  rwa [List.toFinset_card_of_nodup nodup, ids, List.length_map] at bounded

/-- A valid DAG that is not completed has a ready step. -/
theorem readySteps_ne_nil (valid : validateDag dag = .ok ())
    {completed : Finset String} (within : ∀ id ∈ completed, id ∈ ids dag)
    (unfinished : completed.card ≠ dag.length) :
    readySteps dag completed ≠ [] := by
  obtain ⟨wellFormed, acyclic⟩ := validateDag_eq_ok_iff.mp valid
  have remaining : ∃ id ∈ ids dag, id ∉ completed := by
    by_contra all
    apply unfinished
    have full : completed = (ids dag).toFinset := by
      ext id
      rw [List.mem_toFinset]
      constructor
      · exact within id
      · intro known
        by_contra missing
        exact all ⟨id, known, missing⟩
    rw [full, List.toFinset_card_of_nodup wellFormed.nodup, ids,
      List.length_map]
  obtain ⟨id, known, missing⟩ := remaining
  have processed : id ∈ (triKahn dag).traites :=
    (mem_triKahn_iff wellFormed.nodup wellFormed.closed known).mpr
      (acyclic.not_reachesCycle id)
  have accessible :=
    (triKahn_invariant wellFormed.nodup).accessible id processed
  induction accessible with
  | intro id _ induction =>
      obtain ⟨etape, member, rfl⟩ := mem_ids.mp known
      by_cases deps : ∀ dep ∈ etape.dependsOn, dep ∈ completed
      · apply List.ne_nil_of_mem
        exact mem_readySteps.mpr ⟨member, missing, deps⟩
      · simp only [not_forall] at deps
        obtain ⟨dep, cited, absent⟩ := deps
        have depKnown := wellFormed.closed etape member dep cited
        apply induction dep ⟨etape, member, rfl, cited⟩ depKnown absent
        exact (mem_triKahn_iff wellFormed.nodup wellFormed.closed
          depKnown).mpr (acyclic.not_reachesCycle dep)

private theorem requestedIds_lance :
    requestedIds (etat.lance dag context restate).couches =
      requestedIds etat.couches ++
        (etat.couche dag context restate).readyIds := by
  simp [Marche.lance, requestedIds]

private theorem CoucheSound.append {couche : Couche}
    (sound : CoucheSound dag context couches couche) (later : List Couche) :
    CoucheSound dag context (couches ++ later) couche where
  nonempty := sound.nonempty
  once := sound.once
  requests := sound.requests
  results := fun id output found => (sound.results id output found).append later

/-- Sending out the next layer keeps the log sound. -/
theorem MarcheInvariant.lance (valid : validateDag dag = .ok ())
    (invariant : MarcheInvariant dag context etat)
    (unfinished : etat.completed.card ≠ dag.length) :
    LogSound dag context (etat.lance dag context restate).couches := by
  have wellFormed := (validateDag_eq_ok_iff.mp valid).1
  constructor
  case nodup =>
    rw [requestedIds_lance]
    apply List.nodup_append.mpr
    refine ⟨invariant.log.nodup, nodup_readyIds_couche wellFormed.nodup, ?_⟩
    intro id earlier other ready same
    subst same
    obtain ⟨_, _, _, fresh, _⟩ := mem_readyIds_couche.mp ready
    exact fresh ((invariant.completed id).mpr earlier)
  case sound =>
    intro couche member
    rcases List.mem_append.mp member with earlier | last
    · exact (invariant.log.sound couche earlier).append _
    · rw [List.mem_singleton] at last
      subst last
      constructor
      case nonempty =>
        have within : ∀ id ∈ etat.completed, id ∈ ids dag := fun id member =>
          invariant.log.known ((invariant.completed id).mp member)
        have ready := readySteps_ne_nil valid within unfinished
        simpa [Marche.couche, prepareRequests] using ready
      case once => exact couche_once dag context restate etat
      case requests =>
        intro request member
        obtain ⟨etape, ready, shape⟩ := List.mem_map.mp member
        obtain ⟨inDag, _, deps⟩ := mem_readySteps.mp ready
        refine ⟨etape, inDag, ?_, shape.symm⟩
        intro dep cited
        exact invariant.mem_results.mpr (deps dep cited)
      case results =>
        intro id output found
        exact ((invariant.results id output).mp found).append _

private theorem answered_lance {id : String} {outcome : Outcome} :
    Answered (etat.lance dag context restate).couches id outcome ↔
      Answered etat.couches id outcome ∨
        ∃ idx, (etat.couche dag context restate).readyIds[idx]? = some id ∧
          (idx, outcome) ∈ (etat.couche dag context restate).outcomes := by
  constructor
  · exact answered_split
  · intro cases
    rcases cases with earlier | last
    · exact earlier.append _
    · refine ⟨etat.couche dag context restate, ?_, last⟩
      simp [Marche.lance]

theorem Collected.mem_completed
    (collected : Collected (etat.couche dag context restate).readyIds
      (etat.couche dag context restate).outcomes
      (etat.lance dag context restate) suivant) {id : String} :
    id ∈ suivant.completed ↔
      id ∈ etat.completed ∨ id ∈ (etat.couche dag context restate).readyIds := by
  rw [collected.completed]
  apply or_congr Iff.rfl
  constructor
  · intro located
    obtain ⟨entry, _, located⟩ := located
    exact List.mem_of_getElem? located
  · intro member
    obtain ⟨idx, located⟩ := List.mem_iff_getElem?.mp member
    obtain ⟨outcome, yielded⟩ := outcomes_total (couche_once dag context restate etat) located
    exact ⟨(idx, outcome), yielded, located⟩

/-- A layer without an error restores the invariant. -/
private theorem MarcheInvariant.collected
    (invariant : MarcheInvariant dag context etat)
    (log : LogSound dag context (etat.lance dag context restate).couches)
    (collected : Collected (etat.couche dag context restate).readyIds
      (etat.couche dag context restate).outcomes
      (etat.lance dag context restate) suivant) :
    MarcheInvariant dag context suivant := by
  constructor
  case log => rwa [collected.couches]
  case completed =>
    intro id
    rw [collected.mem_completed, collected.couches, requestedIds_lance,
      List.mem_append, ← invariant.completed]
  case results =>
    intro id output
    rw [collected.results, collected.couches, answered_lance]
    constructor
    · intro cases
      rcases cases with last | ⟨earlier, _⟩
      · exact Or.inr last
      · exact Or.inl ((invariant.results id output).mp earlier)
    · intro cases
      rcases cases with earlier | last
      · apply Or.inr
        refine ⟨(invariant.results id output).mpr earlier, ?_⟩
        intro entry member located
        obtain ⟨_, _, _, fresh, _⟩ :=
          mem_readyIds_couche.mp (List.mem_of_getElem? located)
        exact fresh ((invariant.completed id).mpr earlier.requested)
      · exact Or.inl last
  case succeeded =>
    intro id error answered
    rw [collected.couches, answered_lance] at answered
    rcases answered with earlier | ⟨idx, _, yielded⟩
    · exact invariant.succeeded id error earlier
    · obtain ⟨output, ok⟩ := collected.succeeded _ yielded
      cases ok

private theorem Collected.card_lt
    (ready : (etat.couche dag context restate).readyIds ≠ [])
    (collected : Collected (etat.couche dag context restate).readyIds
      (etat.couche dag context restate).outcomes
      (etat.lance dag context restate) suivant) :
    etat.completed.card < suivant.completed.card := by
  apply Finset.card_lt_card
  apply Finset.ssubset_iff_of_subset ?_ |>.mpr
  · obtain ⟨id, member⟩ := List.exists_mem_of_ne_nil _ ready
    obtain ⟨_, _, _, fresh, _⟩ := mem_readyIds_couche.mp member
    exact ⟨id, collected.mem_completed.mpr (Or.inr member), fresh⟩
  · intro id member
    exact collected.mem_completed.mpr (Or.inl member)

/-- The ways in which at most `tours` turns of the outer loop end. -/
inductive MarcheEnd (dag : List StepDefinition) (context : RunContext)
    (tours : ℕ) : Marche × Option (Except RunError Table) → Prop where
  | suspended {etat : Marche} :
      MarcheInvariant dag context etat →
      etat.completed.card ≠ dag.length →
      tours ≤ etat.completed.card →
      MarcheEnd dag context tours (etat, none)
  | returned {etat : Marche} :
      MarcheInvariant dag context etat →
      etat.completed.card = dag.length →
      MarcheEnd dag context tours (etat, some (.ok etat.results))
  | failed {etat : Marche} {id : String} {error : TerminalError} :
      LogSound dag context etat.couches →
      Answered etat.couches id (.error error) →
      MarcheEnd dag context tours (etat, some (.error (.step error)))

theorem MarcheEnd.log {tours : ℕ}
    {walk : Marche × Option (Except RunError Table)}
    (ends : MarcheEnd dag context tours walk) :
    LogSound dag context walk.1.couches := by
  cases ends with
  | suspended invariant => exact invariant.log
  | returned invariant => exact invariant.log
  | failed log => exact log

private theorem MarcheEnd.weaken {fewer more : ℕ} (le : fewer ≤ more)
    {walk : Marche × Option (Except RunError Table)}
    (ends : MarcheEnd dag context more walk) :
    MarcheEnd dag context fewer walk := by
  cases ends with
  | suspended invariant unfinished least =>
      exact .suspended invariant unfinished (le.trans least)
  | returned invariant finished => exact .returned invariant finished
  | failed log answered => exact .failed log answered

/-- One turn of the outer loop, then `tours` more. -/
private theorem marche_succ {tours : ℕ} (valid : validateDag dag = .ok ())
    (invariant : MarcheInvariant dag context etat)
    (unfinished : etat.completed.card ≠ dag.length) :
    (∃ id error,
      Answered (etat.lance dag context restate).couches id (.error error) ∧
      marche dag context restate (tours + 1) etat =
        (etat.lance dag context restate, some (.error (.step error)))) ∨
    ∃ suivant, MarcheInvariant dag context suivant ∧
      etat.completed.card < suivant.completed.card ∧
      marche dag context restate (tours + 1) etat =
        marche dag context restate tours suivant := by
  have wellFormed := (validateDag_eq_ok_iff.mp valid).1
  have log : LogSound dag context (etat.lance dag context restate).couches :=
    invariant.lance valid unfinished
  have once := couche_once dag context restate etat
  rcases collecte_cases (nodup_readyIds_couche wellFormed.nodup)
      (outcomes_bounded once) (outcomes_nodup once)
      (etat.lance dag context restate) with
    ⟨idx, id, error, located, yielded, result⟩ | ⟨suivant, result, collected⟩
  · apply Or.inl
    refine ⟨id, error, answered_lance.mpr (Or.inr ⟨idx, located, yielded⟩), ?_⟩
    rw [marche, if_neg unfinished]
    simp only [result]
  · apply Or.inr
    have ready : (etat.couche dag context restate).readyIds ≠ [] := by
      have last := (log.sound (etat.couche dag context restate)
        (by simp [Marche.lance])).nonempty
      simpa [Couche.readyIds] using last
    refine ⟨suivant, invariant.collected log collected,
      collected.card_lt ready, ?_⟩
    rw [marche, if_neg unfinished]
    simp only [result]

/-- Every walk of a valid DAG ends in one of the three ways. -/
theorem marche_end (valid : validateDag dag = .ok ()) (tours : ℕ)
    (invariant : MarcheInvariant dag context etat) :
    MarcheEnd dag context (etat.completed.card + tours)
      (marche dag context restate tours etat) := by
  induction tours generalizing etat with
  | zero =>
      by_cases finished : etat.completed.card = dag.length
      · rw [marche, if_pos finished]
        exact .returned invariant finished
      · rw [marche, if_neg finished]
        exact .suspended invariant finished (by omega)
  | succ tours induction =>
      by_cases finished : etat.completed.card = dag.length
      · rw [marche, if_pos finished]
        exact .returned invariant finished
      · rcases marche_succ valid invariant finished with
          ⟨id, error, answered, result⟩ |
          ⟨suivant, invariantNext, progress, result⟩
        · rw [result]
          exact .failed (invariant.lance valid finished) answered
        · rw [result]
          apply MarcheEnd.weaken ?_ (induction invariantNext)
          omega

theorem run_couches {key : String} {depthHeader : Option String}
    {input : RunInput} {tours : ℕ} {couche : Couche}
    (sent : couche ∈ (run restate key depthHeader input tours).1.couches) :
    validateDag input.dag = .ok () ∧
      CoucheSound input.dag (runContext key depthHeader input)
        (run restate key depthHeader input tours).1.couches couche := by
  cases valid : validateDag input.dag with
  | error erreur => simp [run, valid, Marche.initiale] at sent
  | ok _ =>
      have ends : MarcheEnd input.dag (runContext key depthHeader input)
          (Marche.initiale.completed.card + tours)
          (run restate key depthHeader input tours) := by
        simp only [run, valid]
        exact marche_end valid tours marcheInvariant_initiale
      exact ⟨rfl, ends.log.sound couche sent⟩

end MiryadCore.Workflow
