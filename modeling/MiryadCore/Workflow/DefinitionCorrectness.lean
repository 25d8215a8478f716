import MiryadCore.Workflow.Kahn

/-!
# Correctness and completeness of the DAG validation

`validateDag` accepts exactly the non-empty lists with distinct ids, no
dangling dependency and no cycle, and blames the first step in list order
that leads into a cycle.
-/

namespace MiryadCore.Workflow

open MiryadCore.Graph Relation

variable {steps : List StepDefinition}

theorem verifieIds_eq_ok_iff {idsVus found : Finset String} :
    verifieIds idsVus steps = .ok found ↔
      (ids steps).Nodup ∧ (∀ id ∈ ids steps, id ∉ idsVus) ∧
        found = idsVus ∪ (ids steps).toFinset := by
  induction steps generalizing idsVus with
  | nil => simp [verifieIds, ids, eq_comm]
  | cons etape steps induction =>
      simp only [ids] at induction
      by_cases seen : etape.id ∈ idsVus
      · simp [verifieIds, seen, ids]
      · rw [verifieIds, if_neg seen, induction]
        simp only [ids, List.map_cons, List.nodup_cons, List.mem_cons,
          Finset.mem_insert, not_or, forall_eq_or_imp, List.toFinset_cons,
          seen, not_false_eq_true, true_and]
        have union : insert etape.id idsVus ∪
              (steps.map StepDefinition.id).toFinset =
            idsVus ∪ insert etape.id (steps.map StepDefinition.id).toFinset := by
          ext id
          simp
        rw [union]
        constructor
        · rintro ⟨nodup, apart, rfl⟩
          refine ⟨⟨?_, nodup⟩, fun id member => (apart id member).2, rfl⟩
          intro member
          exact (apart etape.id member).1 rfl
        · rintro ⟨⟨fresh, nodup⟩, apart, rfl⟩
          refine ⟨nodup, fun id member => ⟨?_, apart id member⟩, rfl⟩
          rintro rfl
          exact fresh member

theorem verifieDependances_eq_ok_iff {idsVus : Finset String}
    {etape : StepDefinition} {deps : List String} :
    verifieDependances idsVus etape deps = .ok () ↔
      ∀ dep ∈ deps, dep ∈ idsVus := by
  induction deps with
  | nil => simp [verifieDependances]
  | cons dep deps induction =>
      by_cases present : dep ∈ idsVus
      · simp [verifieDependances, present, induction]
      · simp [verifieDependances, present]

theorem forM_eq_ok_iff {ε α : Type} {check : α → Except ε Unit}
    {items : List α} :
    forM items check = .ok () ↔ ∀ item ∈ items, check item = .ok () := by
  induction items with
  | nil => simp [pure, Except.pure]
  | cons item items induction =>
      rw [List.forM_cons]
      cases result : check item with
      | error error => simp [bind, Except.bind, result]
      | ok _ => simp [bind, Except.bind, result, induction]

/-- The conditions that the first three stages establish. -/
structure WellFormed (steps : List StepDefinition) : Prop where
  nonempty : steps ≠ []
  nodup : (ids steps).Nodup
  closed : ∀ etape ∈ steps, ∀ dep ∈ etape.dependsOn, dep ∈ ids steps

theorem validateDag_of_not_wellFormed (malformed : ¬ WellFormed steps) :
    validateDag steps ≠ .ok () := by
  intro accepted
  apply malformed
  unfold validateDag at accepted
  simp only [bind, Except.bind, pure, Except.pure, throw, throwThe,
    MonadExceptOf.throw] at accepted
  split at accepted
  · cases accepted
  rename_i nonempty
  split at accepted
  · cases accepted
  rename_i idsVus unique
  obtain ⟨nodup, -, rfl⟩ := verifieIds_eq_ok_iff.mp unique
  split at accepted
  · cases accepted
  rename_i dependencies
  refine ⟨by simpa using nonempty, nodup, ?_⟩
  intro etape member dep cited
  have known := verifieDependances_eq_ok_iff.mp
    (forM_eq_ok_iff.mp dependencies etape member) dep cited
  simpa using known

/-- On a well-formed list only the result of the sort decides. -/
theorem validateDag_of_wellFormed (wellFormed : WellFormed steps) :
    validateDag steps =
      match steps.find? fun etape => etape.id ∉ (triKahn steps).traites with
      | some etape => .error
          (.invalidDag ("cycle détecté impliquant le step " ++ etape.id))
      | none => .ok () := by
  have unique : verifieIds ∅ steps = .ok (∅ ∪ (ids steps).toFinset) :=
    verifieIds_eq_ok_iff.mpr ⟨wellFormed.nodup, by simp, rfl⟩
  have dependencies : (forM steps fun etape =>
      verifieDependances (∅ ∪ (ids steps).toFinset) etape etape.dependsOn) =
        .ok () := by
    refine forM_eq_ok_iff.mpr fun etape member => ?_
    refine verifieDependances_eq_ok_iff.mpr fun dep cited => ?_
    simpa using wellFormed.closed etape member dep cited
  have nonempty : steps.isEmpty = false := by
    simpa using wellFormed.nonempty
  unfold validateDag
  simp only [nonempty, unique, List.forM_eq_forM, dependencies, bind, Except.bind, pure,
    Except.pure, throw, throwThe, MonadExceptOf.throw, Bool.false_eq_true,
    if_false]
  split
  · cases steps.find? fun etape => etape.id ∉ (triKahn steps).traites <;> rfl
  · rename_i full
    have subset : (triKahn steps).traites ⊆ (ids steps).toFinset := by
      intro id member
      exact List.mem_toFinset.mpr
        ((triKahn_invariant wellFormed.nodup).known id (Or.inr member))
    have card : (ids steps).toFinset.card ≤ (triKahn steps).traites.card := by
      rw [List.toFinset_card_of_nodup wellFormed.nodup, ids, List.length_map]
      omega
    have all := Finset.eq_of_subset_of_card_le subset card
    have none : steps.find? (fun etape =>
        etape.id ∉ (triKahn steps).traites) = none := by
      rw [List.find?_eq_none]
      intro etape member
      have processed : etape.id ∈ (triKahn steps).traites := by
        rw [all]
        exact List.mem_toFinset.mpr (mem_ids.mpr ⟨etape, member, rfl⟩)
      simp [processed]
    rw [none]

theorem acyclic_iff_forall_not_reachesCycle :
    Acyclic (DependsOn steps) ↔
      ∀ etape ∈ steps, ¬ ReachesCycle (DependsOn steps) etape.id := by
  constructor
  · intro acyclic etape _
    exact acyclic.not_reachesCycle etape.id
  · rintro free id cycle
    obtain ⟨_, ⟨etape, member, rfl, _⟩, _⟩ :=
      TransGen.head'_iff.mp cycle
    exact free etape member ⟨etape.id, .refl, cycle⟩

theorem not_mem_triKahn_iff (wellFormed : WellFormed steps)
    {etape : StepDefinition} (member : etape ∈ steps) :
    etape.id ∉ (triKahn steps).traites ↔
      ReachesCycle (DependsOn steps) etape.id := by
  rw [mem_triKahn_iff wellFormed.nodup wellFormed.closed
    (mem_ids.mpr ⟨etape, member, rfl⟩), not_not]

theorem validateDag_eq_ok_iff :
    validateDag steps = .ok () ↔
      WellFormed steps ∧ Acyclic (DependsOn steps) := by
  by_cases wellFormed : WellFormed steps
  · rw [validateDag_of_wellFormed wellFormed,
      acyclic_iff_forall_not_reachesCycle]
    simp only [wellFormed, true_and]
    cases found : steps.find? fun etape =>
        etape.id ∉ (triKahn steps).traites with
    | none =>
        simp only [true_iff]
        intro etape member cyclic
        have processed := List.find?_eq_none.mp found etape member
        simp only [decide_eq_true_eq] at processed
        exact processed ((not_mem_triKahn_iff wellFormed member).mpr cyclic)
    | some etape =>
        simp only [reduceCtorEq, false_iff]
        intro free
        have member := List.mem_of_find?_eq_some found
        have left := List.find?_some found
        simp only [decide_eq_true_eq] at left
        exact free etape member ((not_mem_triKahn_iff wellFormed member).mp left)
  · constructor
    · intro accepted
      exact (validateDag_of_not_wellFormed wellFormed accepted).elim
    · rintro ⟨other, _⟩
      exact (wellFormed other).elim

/-- The step named by the error of a cyclic graph. -/
theorem validateDag_blames (wellFormed : WellFormed steps)
    (cyclic : ¬ Acyclic (DependsOn steps)) :
    ∃ before etape after, steps = before ++ etape :: after ∧
      (∀ other ∈ before, ¬ ReachesCycle (DependsOn steps) other.id) ∧
      ReachesCycle (DependsOn steps) etape.id ∧
      validateDag steps = .error
        (.invalidDag ("cycle détecté impliquant le step " ++ etape.id)) := by
  cases found : steps.find? fun etape =>
      etape.id ∉ (triKahn steps).traites with
  | none =>
      have accepted : validateDag steps = .ok () := by
        rw [validateDag_of_wellFormed wellFormed, found]
      exact (cyclic (validateDag_eq_ok_iff.mp accepted).2).elim
  | some etape =>
      have blamed := validateDag_of_wellFormed wellFormed
      rw [found] at blamed
      obtain ⟨left, before, after, shape, skipped⟩ :=
        List.find?_eq_some_iff_append.mp found
      have beforeMember : ∀ other ∈ before, other ∈ steps := by
        intro other member
        rw [shape]
        exact List.mem_append_left _ member
      refine ⟨before, etape, after, shape, ?_, ?_, blamed⟩
      · intro other member
        have processed := skipped other member
        rw [← not_mem_triKahn_iff wellFormed (beforeMember other member)]
        simpa using processed
      · rw [← not_mem_triKahn_iff wellFormed
          (List.mem_of_find?_eq_some found)]
        simpa using left

/-- `validateDag` is sound and complete, whatever the order of the list and
the repetitions inside a `depends_on`. -/
theorem validateDag_correct (steps : List StepDefinition) :
    (validateDag steps = .ok () ↔
      steps ≠ [] ∧ (steps.map StepDefinition.id).Nodup ∧
        (∀ etape ∈ steps, ∀ dep ∈ etape.dependsOn,
          ∃ other ∈ steps, other.id = dep) ∧
        ∀ id, ¬ TransGen (DependsOn steps) id id) ∧
    (steps ≠ [] → (steps.map StepDefinition.id).Nodup →
      (∀ etape ∈ steps, ∀ dep ∈ etape.dependsOn,
        ∃ other ∈ steps, other.id = dep) →
      (¬ ∀ id, ¬ TransGen (DependsOn steps) id id) →
      ∃ before etape after, steps = before ++ etape :: after ∧
        (∀ other ∈ before, ¬ ∃ target,
          ReflTransGen (DependsOn steps) other.id target ∧
            TransGen (DependsOn steps) target target) ∧
        (∃ target, ReflTransGen (DependsOn steps) etape.id target ∧
          TransGen (DependsOn steps) target target) ∧
        validateDag steps = .error
          (.invalidDag ("cycle détecté impliquant le step " ++ etape.id))) := by
  simp only [← mem_ids]
  constructor
  · rw [validateDag_eq_ok_iff]
    constructor
    · rintro ⟨wellFormed, acyclic⟩
      exact ⟨wellFormed.nonempty, wellFormed.nodup, wellFormed.closed, acyclic⟩
    · rintro ⟨nonempty, nodup, closed, acyclic⟩
      exact ⟨⟨nonempty, nodup, closed⟩, acyclic⟩
  · intro nonempty nodup closed cyclic
    exact validateDag_blames ⟨nonempty, nodup, closed⟩ cyclic

/-- A step that only leads into a cycle is blamed when it comes first. -/
theorem validateDag_correct_on_tail :
    ∃ before etape after,
      ([⟨"c", ["b"], "k", .null⟩, ⟨"a", ["b"], "k", .null⟩,
        ⟨"b", ["a", "a"], "k", .null⟩] : List StepDefinition) =
          before ++ etape :: after ∧
      validateDag [⟨"c", ["b"], "k", .null⟩, ⟨"a", ["b"], "k", .null⟩,
        ⟨"b", ["a", "a"], "k", .null⟩] = .error
          (.invalidDag ("cycle détecté impliquant le step " ++ etape.id)) := by
  have cycle : ∀ steps : List StepDefinition,
      (⟨"a", ["b"], "k", .null⟩ : StepDefinition) ∈ steps →
      (⟨"b", ["a", "a"], "k", .null⟩ : StepDefinition) ∈ steps →
      ¬ ∀ id, ¬ TransGen (DependsOn steps) id id := by
    intro steps first second acyclic
    have toB : DependsOn steps "a" "b" := ⟨_, first, rfl, by simp⟩
    have toA : DependsOn steps "b" "a" := ⟨_, second, rfl, by simp⟩
    exact acyclic "a" ((TransGen.single toB).tail toA)
  obtain ⟨before, etape, after, shape, -, -, blamed⟩ :=
    (validateDag_correct
      [⟨"c", ["b"], "k", .null⟩, ⟨"a", ["b"], "k", .null⟩,
        ⟨"b", ["a", "a"], "k", .null⟩]).2
      (by simp) (by decide) (by decide) (cycle _ (by simp) (by simp))
  exact ⟨before, etape, after, shape, blamed⟩

end MiryadCore.Workflow
