import MiryadCore.Workflow.Interpreter
import MiryadCore.Workflow.Kahn

/-!
# One layer of the walk

The inner loop of `run` visits the outcomes of a layer in the order of
completion.  `collecte_cases` describes its result without that order.
-/

namespace MiryadCore.Workflow

variable {dag : List StepDefinition} {context : RunContext}
  {restate : Restate} {etat suivant : Marche}

theorem mem_readySteps {completed : Finset String} {etape : StepDefinition} :
    etape ∈ readySteps dag completed ↔
      etape ∈ dag ∧ etape.id ∉ completed ∧
        ∀ dep ∈ etape.dependsOn, dep ∈ completed := by
  simp [readySteps, and_comm]

private theorem lookup_filterMap_pair {key : String} (deps : List String)
    (results : Table) :
    (deps.filterMap fun id => (results.lookup id).map fun sortie =>
        (id, sortie)).lookup key =
      if key ∈ deps then results.lookup key else none := by
  induction deps with
  | nil => simp
  | cons dep deps induction =>
      by_cases same : key = dep
      · subst same
        cases found : results.lookup key with
        | none =>
            simp only [List.filterMap_cons, found, Option.map_none, induction]
            simp
        | some sortie =>
            simp [found]
      · cases found : results.lookup dep with
        | none =>
            simp [found, induction, same]
        | some sortie =>
            simp [found, List.lookup_cons, induction, same,
              beq_eq_false_iff_ne.mpr same]

theorem lookup_buildInputs {step : StepDefinition} {results : Table}
    {key : String} :
    (buildInputs step results).lookup key =
      if key ∈ step.dependsOn then results.lookup key else none := by
  rw [buildInputs, Table.lookup_collect, ← List.filterMap_reverse,
    lookup_filterMap_pair]
  simp

theorem readyIds_couche :
    (etat.couche dag context restate).readyIds =
      (readySteps dag etat.completed).map StepDefinition.id := by
  simp [Couche.readyIds, Marche.couche, prepareRequests, buildInvocation]

theorem length_readyIds (couche : Couche) :
    couche.readyIds.length = couche.requests.length := by
  simp [Couche.readyIds]

theorem mem_readyIds_couche {id : String} :
    id ∈ (etat.couche dag context restate).readyIds ↔
      ∃ etape ∈ dag, etape.id = id ∧ id ∉ etat.completed ∧
        ∀ dep ∈ etape.dependsOn, dep ∈ etat.completed := by
  rw [readyIds_couche]
  constructor
  · intro member
    obtain ⟨etape, ready, rfl⟩ := List.mem_map.mp member
    obtain ⟨inDag, fresh, deps⟩ := mem_readySteps.mp ready
    exact ⟨etape, inDag, rfl, fresh, deps⟩
  · intro ready
    obtain ⟨etape, inDag, rfl, fresh, deps⟩ := ready
    apply List.mem_map.mpr
    exact ⟨etape, mem_readySteps.mpr ⟨inDag, fresh, deps⟩, rfl⟩

theorem nodup_readyIds_couche (nodup : (ids dag).Nodup) :
    (etat.couche dag context restate).readyIds.Nodup := by
  rw [readyIds_couche]
  have sublist : (readySteps dag etat.completed).Sublist dag :=
    List.filter_sublist.trans List.filter_sublist
  exact nodup.sublist (sublist.map StepDefinition.id)

/-- What the inner loop leaves behind when no outcome is an error. -/
structure Collected (readyIds : List String)
    (outcomes : List (ℕ × Outcome)) (etat suivant : Marche) : Prop where
  couches : suivant.couches = etat.couches
  succeeded : ∀ entry ∈ outcomes, ∃ output, entry.2 = .ok output
  completed : ∀ id, id ∈ suivant.completed ↔
    id ∈ etat.completed ∨ ∃ entry ∈ outcomes, readyIds[entry.1]? = some id
  results : ∀ id output, suivant.results.lookup id = some output ↔
    (∃ idx, readyIds[idx]? = some id ∧ (idx, .ok output) ∈ outcomes) ∨
      etat.results.lookup id = some output ∧
        ∀ entry ∈ outcomes, readyIds[entry.1]? ≠ some id

private theorem Collected.cons {readyIds : List String} {idx : ℕ}
    {output : Value} {outcomes : List (ℕ × Outcome)} {id : String}
    (nodupIds : readyIds.Nodup) (found : readyIds[idx]? = some id)
    (fresh : idx ∉ outcomes.map Prod.fst)
    (collected : Collected readyIds outcomes
      { etat with
        results := etat.results.insert id output
        completed := insert id etat.completed } suivant) :
    Collected readyIds ((idx, .ok output) :: outcomes) etat suivant := by
  have bound : idx < readyIds.length :=
    (List.getElem?_eq_some_iff.mp found).1
  have index_unique : ∀ other, readyIds[other]? = some id → other = idx := by
    intro other located
    apply Eq.symm
    exact (List.getElem?_inj bound nodupIds).mp (found.trans located.symm)
  have absent : ∀ entry ∈ outcomes, readyIds[entry.1]? ≠ some id := by
    intro entry member located
    apply fresh
    rw [← index_unique entry.1 located]
    exact List.mem_map_of_mem member
  constructor
  case couches => exact collected.couches
  case succeeded =>
    intro entry member
    rcases List.mem_cons.mp member with rfl | later
    · exact ⟨output, rfl⟩
    · exact collected.succeeded entry later
  case completed =>
    intro other
    rw [collected.completed other]
    simp only [Finset.mem_insert, List.mem_cons, exists_eq_or_imp, found,
      Option.some.injEq]
    constructor
    · intro cases
      rcases cases with (rfl | old) | later
      · exact Or.inr (Or.inl rfl)
      · exact Or.inl old
      · exact Or.inr (Or.inr later)
    · intro cases
      rcases cases with old | rfl | later
      · exact Or.inl (Or.inr old)
      · exact Or.inl (Or.inl rfl)
      · exact Or.inr later
  case results =>
    intro other value
    rw [collected.results other value]
    by_cases same : other = id
    · subst same
      constructor
      · intro cases
        rcases cases with ⟨position, located, member⟩ | ⟨inserted, _⟩
        · exact (absent _ member located).elim
        · rw [Finmap.lookup_insert, Option.some.injEq] at inserted
          subst inserted
          exact Or.inl ⟨idx, found, List.mem_cons_self⟩
      · intro cases
        rcases cases with ⟨position, located, member⟩ | ⟨_, none⟩
        · rcases List.mem_cons.mp member with head | later
          · cases head
            exact Or.inr ⟨Finmap.lookup_insert _, absent⟩
          · exact (absent _ later located).elim
        · exact (none _ List.mem_cons_self found).elim
    · have different : ¬ readyIds[idx]? = some other := by
        intro located
        exact same (Option.some.inj (located.symm.trans found))
      rw [Finmap.lookup_insert_of_ne _ same]
      constructor
      · intro cases
        rcases cases with ⟨position, located, member⟩ | ⟨old, none⟩
        · exact Or.inl ⟨position, located, List.mem_cons_of_mem _ member⟩
        · apply Or.inr
          refine ⟨old, ?_⟩
          intro entry member
          rcases List.mem_cons.mp member with rfl | later
          · exact different
          · exact none entry later
      · intro cases
        rcases cases with ⟨position, located, member⟩ | ⟨old, none⟩
        · rcases List.mem_cons.mp member with head | later
          · cases head
            exact (different located).elim
          · exact Or.inl ⟨position, located, later⟩
        · apply Or.inr
          exact ⟨old, fun entry member =>
            none entry (List.mem_cons_of_mem _ member)⟩

/-- The inner loop stops at an error of a pushed request, or collects every
outcome.  Its bounds check never fails. -/
theorem collecte_cases {readyIds : List String} (nodupIds : readyIds.Nodup)
    {outcomes : List (ℕ × Outcome)}
    (bounded : ∀ entry ∈ outcomes, entry.1 < readyIds.length)
    (nodup : (outcomes.map Prod.fst).Nodup) (etat : Marche) :
    (∃ idx id error, readyIds[idx]? = some id ∧
      (idx, .error error) ∈ outcomes ∧
      collecte readyIds outcomes etat = .error (.step error)) ∨
    ∃ suivant, collecte readyIds outcomes etat = .ok suivant ∧
      Collected readyIds outcomes etat suivant := by
  induction outcomes generalizing etat with
  | nil =>
      apply Or.inr
      refine ⟨etat, rfl, ?_⟩
      constructor <;> simp
  | cons entry outcomes induction =>
      obtain ⟨idx, outcome⟩ := entry
      obtain ⟨fresh, tailNodup⟩ := List.nodup_cons.mp nodup
      have bound : idx < readyIds.length := bounded _ List.mem_cons_self
      have found : readyIds[idx]? = some readyIds[idx] :=
        List.getElem?_eq_getElem bound
      cases outcome with
      | error error =>
          apply Or.inl
          refine ⟨idx, readyIds[idx], error, found, List.mem_cons_self, ?_⟩
          simp [collecte, found]
      | ok output =>
          have tail := induction
            (fun entry member => bounded entry (List.mem_cons_of_mem _ member))
            tailNodup
            { etat with
              results := etat.results.insert readyIds[idx] output
              completed := insert readyIds[idx] etat.completed }
          rcases tail with ⟨position, id, error, located, member, failed⟩ |
            ⟨suivant, result, collected⟩
          · apply Or.inl
            refine ⟨position, id, error, located,
              List.mem_cons_of_mem _ member, ?_⟩
            simpa [collecte, found] using failed
          · apply Or.inr
            refine ⟨suivant, ?_, collected.cons nodupIds found fresh⟩
            simpa [collecte, found] using result

theorem outcomes_bounded {couche : Couche}
    (once : (couche.outcomes.map Prod.fst).Perm
      (List.range couche.requests.length)) :
    ∀ entry ∈ couche.outcomes, entry.1 < couche.readyIds.length := by
  intro entry member
  have inRange := once.subset (List.mem_map_of_mem member)
  rw [length_readyIds]
  exact List.mem_range.mp inRange

theorem outcomes_nodup {couche : Couche}
    (once : (couche.outcomes.map Prod.fst).Perm
      (List.range couche.requests.length)) :
    (couche.outcomes.map Prod.fst).Nodup :=
  once.nodup_iff.mpr List.nodup_range

theorem outcomes_total {couche : Couche}
    (once : (couche.outcomes.map Prod.fst).Perm
      (List.range couche.requests.length)) {idx : ℕ} {id : String}
    (located : couche.readyIds[idx]? = some id) :
    ∃ outcome, (idx, outcome) ∈ couche.outcomes := by
  have bound : idx < couche.readyIds.length :=
    (List.getElem?_eq_some_iff.mp located).1
  rw [length_readyIds] at bound
  have yielded := once.symm.subset (List.mem_range.mpr bound)
  obtain ⟨⟨position, outcome⟩, member, rfl⟩ := List.mem_map.mp yielded
  exact ⟨outcome, member⟩

theorem couche_once (dag : List StepDefinition) (context : RunContext)
    (restate : Restate) (etat : Marche) :
    ((etat.couche dag context restate).outcomes.map Prod.fst).Perm
      (List.range (etat.couche dag context restate).requests.length) :=
  restate.once _ _

end MiryadCore.Workflow
