import Mathlib.Logic.Relation
import Mathlib.Order.WellFounded
import Mathlib.Data.Set.Finite.Lemmas

/-!
# Cycles below a vertex of a locally finite graph

`edge vertex next` is a relation on vertices of any type.  A vertex that is
not accessible along `edge` has a path into a cycle as soon as only finitely
many vertices can be reached from it, and conversely.
-/

namespace MiryadCore.Graph

open Relation

variable {V : Type*} {edge : V → V → Prop}

/-- No vertex reaches itself by one or more edges. -/
def Acyclic (edge : V → V → Prop) : Prop :=
  ∀ vertex, ¬ TransGen edge vertex vertex

/-- The vertex lies on a cycle, or a path leads from it into one. -/
def ReachesCycle (edge : V → V → Prop) (vertex : V) : Prop :=
  ∃ target, ReflTransGen edge vertex target ∧ TransGen edge target target

theorem Acyclic.not_reachesCycle (acyclic : Acyclic edge) (vertex : V) :
    ¬ ReachesCycle edge vertex := by
  rintro ⟨target, _, cycle⟩
  exact acyclic target cycle

private theorem acc_swap_transGen {vertex : V}
    (accessible : Acc (Function.swap edge) vertex) :
    Acc (Function.swap (TransGen edge)) vertex := by
  have lifted := accessible.transGen
  have same : TransGen (Function.swap edge) =
      Function.swap (TransGen edge) := by
    funext left right
    exact propext transGen_swap
  rwa [same] at lifted

/-- Descending from an accessible vertex never closes a cycle. -/
theorem not_reachesCycle_of_acc {vertex : V}
    (accessible : Acc (Function.swap edge) vertex) : ¬ ReachesCycle edge vertex := by
  rintro ⟨target, path, cycle⟩
  have targetAccessible : Acc (Function.swap edge) target := by
    clear cycle
    induction path with
    | refl => exact accessible
    | tail _ edgeTo induction => exact induction.inv edgeTo
  have irreflexive : ∀ vertex, Acc (Function.swap (TransGen edge)) vertex →
      ¬ TransGen edge vertex vertex := by
    intro vertex lifted
    induction lifted with
    | intro vertex _ induction =>
        intro loop
        exact induction vertex loop loop
  exact irreflexive target (acc_swap_transGen targetAccessible) cycle

/-- A vertex from which finitely many vertices are reachable, none of them on
a cycle, is accessible. -/
theorem acc_of_not_reachesCycle {vertex : V}
    (finite : {target | ReflTransGen edge vertex target}.Finite)
    (free : ¬ ReachesCycle edge vertex) : Acc (Function.swap edge) vertex := by
  let Reached := {target // ReflTransGen edge vertex target}
  have : Finite Reached := finite
  let below : Reached → Reached → Prop :=
    fun left right => TransGen edge right.1 left.1
  have : IsTrans Reached below :=
    ⟨fun _ _ _ first second => second.trans first⟩
  have : Std.Irrefl below :=
    ⟨fun target loop => free ⟨target.1, target.2, loop⟩⟩
  have wellFounded : WellFounded below :=
    Finite.wellFounded_of_trans_of_irrefl below
  have reachedAccessible : ∀ target : Reached, Acc (Function.swap edge) target.1 := by
    intro target
    induction target using wellFounded.induction with
    | _ target induction =>
        refine ⟨_, fun next edgeTo => ?_⟩
        exact induction ⟨next, target.2.tail edgeTo⟩ (.single edgeTo)
  exact reachedAccessible ⟨vertex, .refl⟩

theorem acc_iff_not_reachesCycle {vertex : V}
    (finite : {target | ReflTransGen edge vertex target}.Finite) :
    Acc (Function.swap edge) vertex ↔ ¬ ReachesCycle edge vertex :=
  ⟨not_reachesCycle_of_acc, acc_of_not_reachesCycle finite⟩

/-- A set closed under `edge` contains everything reachable from its
members. -/
theorem reached_subset {vertex : V} {region : Set V}
    (inside : vertex ∈ region)
    (closed : ∀ source ∈ region, ∀ target, edge source target →
      target ∈ region) :
    {target | ReflTransGen edge vertex target} ⊆ region := by
  intro target path
  induction path with
  | refl => exact inside
  | tail _ edgeTo induction => exact closed _ induction _ edgeTo

end MiryadCore.Graph
