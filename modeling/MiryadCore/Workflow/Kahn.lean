import MiryadCore.Graph.Acyclic
import MiryadCore.Workflow.Definition
import Mathlib.Data.List.Count
import Mathlib.Algebra.BigOperators.Group.Finset.Basic

/-!
# Kahn's algorithm with repeated edges

The degree of a step counts the citations in its `depends_on` that are not
processed yet, with multiplicity.  This invariant carries the loop: the queue
holds exactly the unprocessed steps of degree zero, every processed step is
accessible along `DependsOn`, and the loop ends within one turn for each step.
-/

namespace MiryadCore.Workflow

open MiryadCore.Graph

variable {steps : List StepDefinition}

/-- The ids that the two tables of the algorithm speak about. -/
def ids (steps : List StepDefinition) : List String :=
  steps.map StepDefinition.id

theorem mem_ids {id : String} :
    id ∈ ids steps ↔ ∃ etape ∈ steps, etape.id = id := by
  simp [ids]

theorem etape_unique (nodup : (ids steps).Nodup)
    {left right : StepDefinition} (leftMember : left ∈ steps)
    (rightMember : right ∈ steps) (same : left.id = right.id) :
    left = right :=
  List.inj_on_of_nodup_map nodup leftMember rightMember same

private theorem lookup_foldl_degres (degres : Finmap (fun _ : String => ℕ))
    (nodup : (ids steps).Nodup) :
    (∀ etape ∈ steps,
      (steps.foldl (fun degres etape =>
          degres.insert etape.id etape.dependsOn.length) degres).lookup
        etape.id = some etape.dependsOn.length) ∧
    ∀ id, id ∉ ids steps →
      (steps.foldl (fun degres etape =>
          degres.insert etape.id etape.dependsOn.length) degres).lookup id =
        degres.lookup id := by
  induction steps generalizing degres with
  | nil => simp
  | cons head tail induction =>
      simp only [ids, List.map_cons, List.nodup_cons] at nodup
      obtain ⟨headFresh, tailNodup⟩ := nodup
      obtain ⟨found, others⟩ :=
        induction (degres.insert head.id head.dependsOn.length) tailNodup
      constructor
      · intro etape member
        rcases List.mem_cons.mp member with rfl | later
        · rw [List.foldl_cons, others _ headFresh, Finmap.lookup_insert]
        · exact found etape later
      · intro id absent
        simp only [ids, List.map_cons, List.mem_cons, not_or] at absent
        rw [List.foldl_cons, others id absent.2,
          Finmap.lookup_insert_of_ne _ absent.1]

theorem lookup_degresInitiaux (nodup : (ids steps).Nodup)
    {etape : StepDefinition} (member : etape ∈ steps) :
    (degresInitiaux steps).lookup etape.id = some etape.dependsOn.length :=
  (lookup_foldl_degres ∅ nodup).1 etape member

theorem lookup_degresInitiaux_of_not_mem (nodup : (ids steps).Nodup)
    {id : String} (absent : id ∉ ids steps) :
    (degresInitiaux steps).lookup id = none := by
  rw [degresInitiaux, (lookup_foldl_degres ∅ nodup).2 id absent,
    Finmap.lookup_empty]

/-- The list stored under `dep`, empty where the source has no entry. -/
def successeurs (aval : Finmap (fun _ : String => List String))
    (dep : String) : List String :=
  (aval.lookup dep).getD []

theorem successeurs_ajouteAval (id dep : String)
    (aval : Finmap (fun _ : String => List String)) (deps : List String) :
    successeurs (ajouteAval id aval deps) dep =
      successeurs aval dep ++ List.replicate (deps.count dep) id := by
  induction deps generalizing aval with
  | nil => simp [ajouteAval]
  | cons head tail induction =>
      have step := induction (aval.insert head (successeurs aval head ++ [id]))
      simp only [ajouteAval, List.foldl_cons, successeurs] at step ⊢
      rw [step]
      by_cases same : dep = head
      · subst same
        simp [List.replicate_succ]
      · rw [Finmap.lookup_insert_of_ne _ same,
          List.count_cons_of_ne (Ne.symm same)]

private theorem successeurs_foldl (steps : List StepDefinition) (dep : String)
    (aval : Finmap (fun _ : String => List String)) :
    successeurs (steps.foldl (fun aval etape =>
        ajouteAval etape.id aval etape.dependsOn) aval) dep =
      successeurs aval dep ++ steps.flatMap fun etape =>
        List.replicate (etape.dependsOn.count dep) etape.id := by
  induction steps generalizing aval with
  | nil => simp
  | cons head tail induction =>
      rw [List.foldl_cons, induction, successeurs_ajouteAval]
      simp

theorem successeurs_avalDe (dep : String) :
    successeurs (avalDe steps) dep = steps.flatMap fun etape =>
      List.replicate (etape.dependsOn.count dep) etape.id := by
  have folded := successeurs_foldl steps dep ∅
  simpa [avalDe, successeurs] using folded

/-- A step occurs among the successors of `dep` once for each citation. -/
theorem count_successeurs (nodup : (ids steps).Nodup) {etape : StepDefinition}
    (member : etape ∈ steps) (dep : String) :
    (successeurs (avalDe steps) dep).count etape.id =
      etape.dependsOn.count dep := by
  rw [successeurs_avalDe]
  induction steps with
  | nil => simp at member
  | cons head tail induction =>
      simp only [ids, List.map_cons, List.nodup_cons] at nodup
      obtain ⟨headFresh, tailNodup⟩ := nodup
      rw [List.flatMap_cons, List.count_append, List.count_replicate]
      rcases List.mem_cons.mp member with rfl | later
      · have absent : etape.id ∉ tail.flatMap fun other =>
            List.replicate (other.dependsOn.count dep) other.id := by
          intro occurs
          obtain ⟨other, otherMember, inside⟩ := List.mem_flatMap.mp occurs
          have same := List.eq_of_mem_replicate inside
          exact headFresh (List.mem_map.mpr ⟨other, otherMember, same.symm⟩)
        simp [List.count_eq_zero_of_not_mem absent]
      · have different : head.id ≠ etape.id := by
          intro same
          exact headFresh (List.mem_map.mpr ⟨etape, later, same.symm⟩)
        simp [different, induction tailNodup later]

/-- What the inner loop does when no degree would go below zero: every degree
drops by the number of occurrences, and the queue receives the ids whose
degree becomes zero. -/
theorem foldl_decremente (liste : List String) (tri : Tri)
    (enough : ∀ id degre, tri.degres.lookup id = some degre →
      liste.count id ≤ degre)
    (queued : ∀ id ∈ tri.file, tri.degres.lookup id = some 0)
    (nodup : tri.file.Nodup) :
    (liste.foldl Tri.decremente tri).traites = tri.traites ∧
    (∀ id, (liste.foldl Tri.decremente tri).degres.lookup id =
      (tri.degres.lookup id).map (· - liste.count id)) ∧
    (liste.foldl Tri.decremente tri).file.Nodup ∧
    ∀ id, id ∈ (liste.foldl Tri.decremente tri).file ↔
      id ∈ tri.file ∨ ∃ degre, tri.degres.lookup id = some degre ∧
        0 < degre ∧ liste.count id = degre := by
  induction liste generalizing tri with
  | nil =>
      refine ⟨rfl, by simp, nodup, ?_⟩
      intro id
      constructor
      · exact Or.inl
      · rintro (member | ⟨degre, _, positive, zero⟩)
        · exact member
        · simp at zero
          omega
  | cons head tail induction =>
      rw [List.foldl_cons]
      cases found : tri.degres.lookup head with
      | none =>
          have same : tri.decremente head = tri := by
            simp [Tri.decremente, found]
          have others : ∀ id degre, tri.degres.lookup id = some degre →
              head ≠ id := by
            rintro id degre lookup rfl
            simp [found] at lookup
          have counts : ∀ id degre, tri.degres.lookup id = some degre →
              (head :: tail).count id = tail.count id := fun id degre lookup =>
            List.count_cons_of_ne (others id degre lookup)
          obtain ⟨traites, degres, fileNodup, file⟩ := induction tri
            (fun id degre lookup => by
              rw [← counts id degre lookup]
              exact enough id degre lookup) queued nodup
          rw [same]
          refine ⟨traites, ?_, fileNodup, ?_⟩
          · intro id
            rw [degres id]
            cases lookup : tri.degres.lookup id with
            | none => rfl
            | some degre => simp [counts id degre lookup]
          · intro id
            rw [file id]
            constructor
            · rintro (member | ⟨degre, lookup, positive, equal⟩)
              · exact Or.inl member
              · exact Or.inr ⟨degre, lookup, positive,
                  (counts id degre lookup).trans equal⟩
            · rintro (member | ⟨degre, lookup, positive, equal⟩)
              · exact Or.inl member
              · exact Or.inr ⟨degre, lookup, positive,
                  (counts id degre lookup).symm.trans equal⟩
      | some degre =>
          have positive : 0 < degre := by
            have bound := enough head degre found
            simp at bound
            omega
          have headAbsent : head ∉ tri.file := by
            intro member
            have zero := queued head member
            rw [found] at zero
            obtain rfl : degre = 0 := by simpa using zero
            omega
          have stepDegres : ∀ id, (tri.decremente head).degres.lookup id =
              if id = head then some (degre - 1)
              else tri.degres.lookup id := by
            intro id
            simp only [Tri.decremente, found]
            split
            · rename_i same
              rw [same, Finmap.lookup_insert]
            · rename_i different
              rw [Finmap.lookup_insert_of_ne _ different]
          have stepFile : (tri.decremente head).file =
              if degre - 1 = 0 then tri.file ++ [head] else tri.file := by
            simp [Tri.decremente, found]
          have stepTraites : (tri.decremente head).traites = tri.traites := by
            simp [Tri.decremente, found]
          have stepEnough : ∀ id degre',
              (tri.decremente head).degres.lookup id = some degre' →
                tail.count id ≤ degre' := by
            intro id degre' lookup
            rw [stepDegres] at lookup
            split at lookup
            · rename_i same
              subst same
              have bound := enough id degre found
              simp at bound lookup
              omega
            · rename_i different
              have bound := enough id degre' lookup
              rwa [List.count_cons_of_ne (Ne.symm different)] at bound
          have stepQueued : ∀ id ∈ (tri.decremente head).file,
              (tri.decremente head).degres.lookup id = some 0 := by
            intro id member
            rw [stepFile] at member
            rw [stepDegres]
            split at member
            · rename_i zero
              rcases List.mem_append.mp member with old | new
              · have different : id ≠ head := fun same => headAbsent (same ▸ old)
                rw [if_neg different, queued id old]
              · rw [if_pos (by simpa using new), zero]
            · have different : id ≠ head :=
                fun same => headAbsent (same ▸ member)
              rw [if_neg different, queued id member]
          have stepNodup : (tri.decremente head).file.Nodup := by
            rw [stepFile]
            split
            · exact List.Nodup.append nodup (by simp) (by simpa using headAbsent)
            · exact nodup
          obtain ⟨traites, degres, fileNodup, file⟩ :=
            induction (tri.decremente head) stepEnough stepQueued stepNodup
          refine ⟨traites.trans stepTraites, ?_, fileNodup, ?_⟩
          · intro id
            rw [degres id, stepDegres]
            by_cases same : id = head
            · subst same
              simp [found]
              omega
            · rw [if_neg same, List.count_cons_of_ne (Ne.symm same)]
          · intro id
            rw [file id, stepDegres, stepFile]
            by_cases same : id = head
            · subst same
              simp only [if_true, headAbsent, false_or, found,
                List.count_cons_self, Option.some.injEq, exists_eq_left',
                positive, true_and]
              by_cases last : degre - 1 = 0
              · have bound := enough id degre found
                simp only [List.count_cons_self] at bound
                rw [if_pos last]
                simp
                omega
              · rw [if_neg last]
                simp [headAbsent]
                omega
            · rw [if_neg same, List.count_cons_of_ne (Ne.symm same)]
              split <;> simp [same]

/-- Citations of a step that are not processed yet. -/
def restants (traites : Finset String) (etape : StepDefinition) : ℕ :=
  etape.dependsOn.countP (· ∉ traites)

theorem restants_eq_zero {traites : Finset String} {etape : StepDefinition} :
    restants traites etape = 0 ↔ ∀ dep ∈ etape.dependsOn, dep ∈ traites := by
  simp [restants, List.countP_eq_zero]

theorem restants_insert {traites : Finset String} {id : String}
    (fresh : id ∉ traites) (etape : StepDefinition) :
    restants (insert id traites) etape + etape.dependsOn.count id =
      restants traites etape := by
  unfold restants
  induction etape.dependsOn with
  | nil => rfl
  | cons head tail induction =>
      by_cases same : head = id
      · subst same
        simp [fresh]
        simp at induction
        omega
      · simp [List.countP_cons, same]
        simp at induction
        omega

/-- Holds each time the queue is read. -/
structure TriInvariant (steps : List StepDefinition) (tri : Tri) : Prop where
  degres : ∀ etape ∈ steps,
    tri.degres.lookup etape.id = some (restants tri.traites etape)
  unknown : ∀ id, id ∉ ids steps → tri.degres.lookup id = none
  nodup : tri.file.Nodup
  disjoint : ∀ id ∈ tri.file, id ∉ tri.traites
  known : ∀ id, id ∈ tri.file ∨ id ∈ tri.traites → id ∈ ids steps
  ready : ∀ etape ∈ steps,
    (etape.id ∈ tri.file ∨ etape.id ∈ tri.traites) ↔
      ∀ dep ∈ etape.dependsOn, dep ∈ tri.traites
  accessible : ∀ id ∈ tri.traites, Acc (Function.swap (DependsOn steps)) id

theorem triInvariant_initial (nodup : (ids steps).Nodup) :
    TriInvariant steps (triInitial steps) := by
  have queued : ∀ etape ∈ steps,
      etape.id ∈ (triInitial steps).file ↔ etape.dependsOn = [] := by
    intro etape member
    simp only [triInitial, List.mem_map, List.mem_filter, decide_eq_true_eq]
    constructor
    · rintro ⟨other, ⟨otherMember, zero⟩, same⟩
      obtain rfl := etape_unique nodup otherMember member same
      rw [lookup_degresInitiaux nodup otherMember] at zero
      simpa using zero
    · intro empty
      refine ⟨etape, ⟨member, ?_⟩, rfl⟩
      rw [lookup_degresInitiaux nodup member, empty]
      rfl
  constructor
  case degres =>
    intro etape member
    simp [triInitial, restants, lookup_degresInitiaux nodup member]
  case unknown =>
    intro id absent
    exact lookup_degresInitiaux_of_not_mem nodup absent
  case nodup => exact (List.filter_sublist.map _).nodup nodup
  case disjoint => simp [triInitial]
  case known =>
    rintro id (member | member)
    · obtain ⟨etape, kept, rfl⟩ := List.mem_map.mp member
      exact mem_ids.mpr ⟨etape, List.mem_of_mem_filter kept, rfl⟩
    · simp [triInitial] at member
  case ready =>
    intro etape member
    rw [queued etape member]
    simp [triInitial, List.eq_nil_iff_forall_not_mem]
  case accessible => simp [triInitial]

/-- One turn of the outer loop keeps the invariant and processes one more
step. -/
theorem TriInvariant.traite {tri : Tri} {id : String} {file : List String}
    (nodup : (ids steps).Nodup) (invariant : TriInvariant steps tri)
    (head : tri.file = id :: file) :
    TriInvariant steps (Tri.traite (avalDe steps) id { tri with file }) ∧
      (Tri.traite (avalDe steps) id { tri with file }).traites =
        insert id tri.traites := by
  have headMember : id ∈ tri.file := by simp [head]
  have fresh : id ∉ tri.traites := invariant.disjoint id headMember
  have fileNodup := invariant.nodup
  rw [head, List.nodup_cons] at fileNodup
  obtain ⟨headAbsent, fileNodup⟩ := fileNodup
  have fileMember : ∀ other ∈ file, other ∈ tri.file := by
    intro other member
    simp [head, member]
  have known : ∀ other ∈ tri.file, ∃ etape ∈ steps, etape.id = other :=
    fun other member => mem_ids.mp (invariant.known other (Or.inl member))
  have enough : ∀ other degre, tri.degres.lookup other = some degre →
      (successeurs (avalDe steps) id).count other ≤ degre := by
    intro other degre lookup
    by_cases inside : other ∈ ids steps
    · obtain ⟨etape, member, rfl⟩ := mem_ids.mp inside
      rw [invariant.degres etape member] at lookup
      have split := restants_insert fresh etape
      rw [count_successeurs nodup member]
      simp only [Option.some.injEq] at lookup
      omega
    · rw [invariant.unknown other inside] at lookup
      cases lookup
  have queued : ∀ other ∈ file, tri.degres.lookup other = some 0 := by
    intro other member
    obtain ⟨etape, etapeMember, rfl⟩ := known other (fileMember other member)
    rw [invariant.degres etape etapeMember]
    have ready := (invariant.ready etape etapeMember).mp
      (Or.inl (fileMember _ member))
    rw [restants_eq_zero.mpr ready]
  obtain ⟨traites, degres, nextNodup, nextFile⟩ :=
    foldl_decremente (successeurs (avalDe steps) id)
      { degres := tri.degres, file, traites := insert id tri.traites }
      enough queued fileNodup
  have same : Tri.traite (avalDe steps) id { tri with file } =
      (successeurs (avalDe steps) id).foldl Tri.decremente
        { degres := tri.degres, file, traites := insert id tri.traites } := rfl
  rw [same]
  refine ⟨?_, traites⟩
  have nextDegres : ∀ etape ∈ steps,
      ((successeurs (avalDe steps) id).foldl Tri.decremente
        { degres := tri.degres, file,
          traites := insert id tri.traites }).degres.lookup etape.id =
        some (restants (insert id tri.traites) etape) := by
    intro etape member
    have split := restants_insert fresh etape
    rw [degres etape.id]
    simp only [invariant.degres etape member, Option.map_some,
      count_successeurs nodup member, Option.some.injEq]
    omega
  have queuedNow : ∀ etape ∈ steps, etape.id ∉ insert id tri.traites →
      (etape.id ∈ ((successeurs (avalDe steps) id).foldl Tri.decremente
        { degres := tri.degres, file,
          traites := insert id tri.traites }).file ↔
        restants (insert id tri.traites) etape = 0) := by
    intro etape member pending
    rw [nextFile etape.id]
    simp only [Finset.mem_insert, not_or] at pending
    have split := restants_insert fresh etape
    have before := invariant.ready etape member
    rw [← restants_eq_zero] at before
    simp only [invariant.degres etape member, Option.some.injEq,
      exists_eq_left', count_successeurs nodup member]
    have inTail : etape.id ∈ file ↔ etape.id ∈ tri.file := by
      simp [head, pending.1]
    rw [inTail]
    simp only [pending.2, or_false] at before
    rw [before]
    omega
  constructor
  case degres =>
    intro etape member
    rw [traites]
    exact nextDegres etape member
  case unknown =>
    intro other absent
    rw [degres other]
    simp [invariant.unknown other absent]
  case nodup => exact nextNodup
  case disjoint =>
    intro other member
    rw [traites, Finset.mem_insert, not_or]
    rcases (nextFile other).mp member with old | ⟨degre, lookup, positive, _⟩
    · refine ⟨?_, invariant.disjoint other (fileMember other old)⟩
      rintro rfl
      exact headAbsent old
    · have pending : ¬(other ∈ tri.file ∨ other ∈ tri.traites) := by
        intro done
        obtain ⟨etape, etapeMember, rfl⟩ :=
          mem_ids.mp (invariant.known other done)
        have ready := (invariant.ready etape etapeMember).mp done
        rw [invariant.degres etape etapeMember,
          restants_eq_zero.mpr ready] at lookup
        simp only [Option.some.injEq] at lookup
        omega
      rw [not_or] at pending
      refine ⟨?_, pending.2⟩
      rintro rfl
      exact pending.1 headMember
  case known =>
    rintro other (member | member)
    · rcases (nextFile other).mp member with old | ⟨degre, lookup, _, _⟩
      · exact invariant.known other (Or.inl (fileMember other old))
      · by_contra absent
        rw [invariant.unknown other absent] at lookup
        cases lookup
    · rw [traites, Finset.mem_insert] at member
      rcases member with rfl | old
      · exact invariant.known _ (Or.inl headMember)
      · exact invariant.known other (Or.inr old)
  case ready =>
    intro etape member
    rw [traites, ← restants_eq_zero]
    by_cases done : etape.id ∈ insert id tri.traites
    · simp only [done, or_true, true_iff]
      have before : etape.id ∈ tri.file ∨ etape.id ∈ tri.traites := by
        rcases Finset.mem_insert.mp done with same | old
        · exact Or.inl (same ▸ headMember)
        · exact Or.inr old
      have zero := restants_eq_zero.mpr
        ((invariant.ready etape member).mp before)
      have split := restants_insert fresh etape
      omega
    · rw [← queuedNow etape member done]
      simp [done]
  case accessible =>
    intro other member
    rw [traites, Finset.mem_insert] at member
    rcases member with rfl | old
    · refine ⟨_, ?_⟩
      rintro dep ⟨etape, etapeMember, same, cited⟩
      have ready := (invariant.ready etape etapeMember).mp
        (Or.inl (same ▸ headMember))
      exact invariant.accessible dep (ready dep cited)
    · exact invariant.accessible other old

theorem TriInvariant.deroule (nodup : (ids steps).Nodup) (tours : ℕ) :
    ∀ {tri : Tri}, TriInvariant steps tri →
      steps.length ≤ tours + tri.traites.card →
      TriInvariant steps (tri.deroule (avalDe steps) tours) ∧
        (tri.deroule (avalDe steps) tours).file = [] := by
  induction tours with
  | zero =>
      intro tri invariant enough
      refine ⟨invariant, ?_⟩
      have subset : tri.traites ⊆ (ids steps).toFinset := by
        intro id member
        exact List.mem_toFinset.mpr (invariant.known id (Or.inr member))
      have card : (ids steps).toFinset.card ≤ tri.traites.card := by
        rw [List.toFinset_card_of_nodup nodup, ids, List.length_map]
        simpa using enough
      have all := Finset.eq_of_subset_of_card_le subset card
      rw [List.eq_nil_iff_forall_not_mem]
      intro id member
      apply invariant.disjoint id member
      rw [all]
      exact List.mem_toFinset.mpr (invariant.known id (Or.inl member))
  | succ tours induction =>
      intro tri invariant enough
      cases queue : tri.file with
      | nil =>
          have stopped : tri.deroule (avalDe steps) (tours + 1) = tri := by
            simp [Tri.deroule, queue]
          rw [stopped]
          exact ⟨invariant, queue⟩
      | cons id file =>
          obtain ⟨next, traites⟩ := invariant.traite nodup queue
          have fresh := invariant.disjoint id (by simp [queue])
          have unfolded : tri.deroule (avalDe steps) (tours + 1) =
              (Tri.traite (avalDe steps) id { tri with file }).deroule
                (avalDe steps) tours := by
            simp [Tri.deroule, queue]
          rw [unfolded]
          apply induction next
          rw [traites, Finset.card_insert_of_notMem fresh]
          omega

theorem triKahn_invariant (nodup : (ids steps).Nodup) :
    TriInvariant steps (triKahn steps) :=
  (TriInvariant.deroule nodup steps.length (triInvariant_initial nodup)
    (Nat.le_add_right _ _)).1

theorem triKahn_file (nodup : (ids steps).Nodup) :
    (triKahn steps).file = [] :=
  (TriInvariant.deroule nodup steps.length (triInvariant_initial nodup)
    (Nat.le_add_right _ _)).2

private theorem mem_triKahn_of_acc (nodup : (ids steps).Nodup) {id : String}
    (accessible : Acc (Function.swap (DependsOn steps)) id)
    (known : id ∈ ids steps)
    (closed : ∀ etape ∈ steps, ∀ dep ∈ etape.dependsOn, dep ∈ ids steps) :
    id ∈ (triKahn steps).traites := by
  induction accessible with
  | intro id _ induction =>
      obtain ⟨etape, member, rfl⟩ := mem_ids.mp known
      have deps : ∀ dep ∈ etape.dependsOn, dep ∈ (triKahn steps).traites := by
        intro dep cited
        exact induction dep ⟨etape, member, rfl, cited⟩
          (closed etape member dep cited)
      have ready := ((triKahn_invariant nodup).ready etape member).mpr deps
      simpa [triKahn_file nodup] using ready

theorem mem_triKahn_iff (nodup : (ids steps).Nodup)
    (closed : ∀ etape ∈ steps, ∀ dep ∈ etape.dependsOn, dep ∈ ids steps)
    {id : String} (known : id ∈ ids steps) :
    id ∈ (triKahn steps).traites ↔ ¬ ReachesCycle (DependsOn steps) id := by
  have region : ∀ source ∈ {id | id ∈ ids steps}, ∀ target,
      DependsOn steps source target → target ∈ {id | id ∈ ids steps} := by
    rintro source _ target ⟨etape, member, _, cited⟩
    exact closed etape member target cited
  have inside : id ∈ {id | id ∈ ids steps} := known
  have finite := (List.finite_toSet (ids steps)).subset
    (reached_subset inside region)
  rw [← acc_iff_not_reachesCycle finite]
  constructor
  · exact (triKahn_invariant nodup).accessible id
  · intro accessible
    exact mem_triKahn_of_acc nodup accessible known closed

end MiryadCore.Workflow
