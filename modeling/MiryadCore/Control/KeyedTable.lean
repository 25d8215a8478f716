import Mathlib.Data.List.Basic
import Mathlib.Data.List.Nodup

/-!
# Tables with a key

A table keeps its entries in the order in which their keys were inserted, and
has one entry for a key.  An upsert writes a new entry, or what an update
makes of the one that is there.
-/

namespace MiryadCore

structure KeyedTable (key value : Type) where
  entries : List (key × value)
  nodup : (entries.map Prod.fst).Nodup

namespace KeyedTable

variable {key value : Type} [DecidableEq key]

def empty : KeyedTable key value where
  entries := []
  nodup := List.nodup_nil

def find (table : KeyedTable key value) (k : key) : Option value :=
  (table.entries.find? fun entry => entry.1 = k).map Prod.snd

/-- The entry of a key, if there is one, is changed. -/
def modify (k : key) (f : value → value) (table : KeyedTable key value) :
    KeyedTable key value where
  entries := table.entries.map fun entry =>
    if entry.1 = k then (entry.1, f entry.2) else entry
  nodup := by
    rw [List.map_map]
    convert table.nodup using 1
    apply List.map_congr_left
    intro entry _
    rw [Function.comp_apply]
    split <;> rfl

/-- A new entry, unless the key has one. -/
def insert (k : key) (v : value) (table : KeyedTable key value) :
    KeyedTable key value :=
  if absent : k ∈ table.entries.map Prod.fst then table
  else
    { entries := table.entries ++ [(k, v)]
      nodup := by
        rw [List.map_append, List.map_singleton]
        exact table.nodup.append (List.nodup_singleton _)
          (List.disjoint_singleton.mpr absent) }

/-- `INSERT ... ON CONFLICT (key) DO UPDATE`. -/
def upsert (k : key) (new : value) (update : value → value)
    (table : KeyedTable key value) : KeyedTable key value :=
  match table.find k with
  | some _ => table.modify k update
  | none => table.insert k new

variable {table : KeyedTable key value} {k other : key} {v : value}

theorem find_eq_some : table.find k = some v ↔ (k, v) ∈ table.entries := by
  unfold find
  rw [Option.map_eq_some_iff]
  constructor
  · intro found
    obtain ⟨entry, found, same⟩ := found
    have named := List.find?_some found
    rw [decide_eq_true_eq] at named
    rw [← named, ← same]
    exact List.mem_of_find?_eq_some found
  · intro member
    cases found : table.entries.find? fun entry => entry.1 = k with
    | none =>
        have absent := List.find?_eq_none.mp found _ member
        simp at absent
    | some entry =>
        have named := List.find?_some found
        rw [decide_eq_true_eq] at named
        have same : entry = (k, v) :=
          List.inj_on_of_nodup_map table.nodup
            (List.mem_of_find?_eq_some found) member named
        exact ⟨entry, rfl, congrArg Prod.snd same⟩

theorem find_eq_none :
    table.find k = none ↔ k ∉ table.entries.map Prod.fst := by
  unfold find
  rw [Option.map_eq_none_iff, List.find?_eq_none]
  simp only [decide_eq_true_eq, List.mem_map, not_exists, not_and]

theorem find_modify_self (f : value → value) :
    (table.modify k f).find k = (table.find k).map f := by
  unfold find modify
  rw [List.find?_map, Option.map_map, Option.map_map]
  have same : (fun entry : key × value => decide (entry.1 = k)) ∘
      (fun entry => if entry.1 = k then (entry.1, f entry.2) else entry) =
      fun entry => decide (entry.1 = k) := by
    funext entry
    rw [Function.comp_apply]
    split <;> rfl
  rw [same]
  cases found : table.entries.find? fun entry => entry.1 = k with
  | none => rfl
  | some entry =>
      have named := List.find?_some found
      rw [decide_eq_true_eq] at named
      simp [named]

theorem find_modify_of_ne (different : other ≠ k) (f : value → value) :
    (table.modify k f).find other = table.find other := by
  unfold find modify
  rw [List.find?_map, Option.map_map]
  have same : (fun entry : key × value => decide (entry.1 = other)) ∘
      (fun entry => if entry.1 = k then (entry.1, f entry.2) else entry) =
      fun entry => decide (entry.1 = other) := by
    funext entry
    rw [Function.comp_apply]
    split <;> rfl
  rw [same]
  cases found : table.entries.find? fun entry => entry.1 = other with
  | none => rfl
  | some entry =>
      have named := List.find?_some found
      rw [decide_eq_true_eq] at named
      have apart : entry.1 ≠ k := fun clash => different (named ▸ clash)
      simp [apart]

theorem find_insert_self (absent : table.find k = none) :
    (table.insert k v).find k = some v := by
  rw [find_eq_some]
  unfold insert
  rw [dif_neg (find_eq_none.mp absent)]
  exact List.mem_append_right _ List.mem_cons_self

theorem find_insert_of_ne (different : other ≠ k) :
    (table.insert k v).find other = table.find other := by
  unfold insert
  split
  next => rfl
  next =>
    unfold find
    rw [List.find?_append, List.find?_cons_of_neg (by simpa using different.symm),
      List.find?_nil, Option.or_none]

/-- What an upsert leaves at its key. -/
theorem find_upsert_self (new : value) (update : value → value) :
    (table.upsert k new update).find k =
      some ((table.find k).elim new update) := by
  unfold upsert
  cases found : table.find k with
  | none => exact find_insert_self found
  | some old =>
      show (table.modify k update).find k = _
      rw [find_modify_self, found]
      rfl

theorem find_upsert_of_ne (different : other ≠ k) (new : value)
    (update : value → value) :
    (table.upsert k new update).find other = table.find other := by
  unfold upsert
  cases table.find k with
  | none => exact find_insert_of_ne different
  | some old => exact find_modify_of_ne different update

end KeyedTable

end MiryadCore
