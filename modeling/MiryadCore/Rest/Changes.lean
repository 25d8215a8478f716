import MiryadCore.Rest.Outcomes

/-!
# What a statement does to the rows

It adds a row under an id that was never used, replaces one by a row of the
same id, or drops one.
-/

namespace MiryadCore.Rest

open Users (DbErr)

variable {Column : Type} {schema : Schema Column}

namespace Table

structure Adds (before after : Table schema) (row : StoredRow Column) :
    Prop where
  fresh : schema.keyOf row.values ∉ before.used
  rows : after.rows = before.rows ++ [row]
  used : after.used = schema.keyOf row.values :: before.used

structure Replaces (before after : Table schema) (old row : StoredRow Column) :
    Prop where
  member : old ∈ before.rows
  key : schema.keyOf row.values = schema.keyOf old.values
  rows : after.rows = before.rows.map fun other =>
    if schema.keyOf other.values = schema.keyOf old.values then row else other
  used : after.used = before.used

structure Drops (before after : Table schema) (old : StoredRow Column) :
    Prop where
  member : old ∈ before.rows
  rows : after.rows = before.rows.filter fun other =>
    schema.keyOf other.values ≠ schema.keyOf old.values
  used : after.used = before.used

variable {before after : Table schema} {old row other : StoredRow Column}
  {id : ℤ}

theorem Adds.cases (adds : before.Adds after row) (member : other ∈ after.rows) :
    other ∈ before.rows ∨ other = row := by
  rw [adds.rows, List.mem_append, List.mem_singleton] at member
  exact member

theorem Replaces.cases (replaces : before.Replaces after old row)
    (member : other ∈ after.rows) :
    other ∈ before.rows ∧
        schema.keyOf other.values ≠ schema.keyOf old.values ∨
      other = row := by
  rw [replaces.rows, List.mem_map] at member
  obtain ⟨one, listed, same⟩ := member
  split at same
  next => exact Or.inr same.symm
  next apart => exact Or.inl ⟨same ▸ listed, same ▸ apart⟩

theorem Drops.subset (drops : before.Drops after old)
    (member : other ∈ after.rows) : other ∈ before.rows := by
  rw [drops.rows] at member
  exact List.mem_of_mem_filter member

theorem primaryKey_of_mem (member : row ∈ before.rows) :
    row.values schema.primaryKey = .ofId (schema.keyOf row.values) :=
  (before.fits row member).1

theorem keyOf_iff (member : row ∈ before.rows) :
    (row.values schema.primaryKey).sqlEq (.ofId id) = true ↔
      schema.keyOf row.values = id := by
  rw [key_iff member]
  constructor
  · exact Schema.keyOf_of_eq
  · intro same
    rw [primaryKey_of_mem member, same]

variable [DecidableEq Column] [Fintype Column] {conditions : Conditions Column}
  {creator : String} {active : ActiveModel Column}

theorem adds_of_insert (drawn : active schema.primaryKey = .notSet)
    (inserted : before.insert conditions creator active = .ok (row, after)) :
    before.Adds after row ∧
      row.values = insertedValues schema conditions active ∧
      row.creator = some creator := by
  have told := insert_ok inserted
  have key : schema.keyOf (insertedValues schema conditions active) =
      conditions.id := by
    apply Schema.keyOf_of_eq
    simp [insertedValues, drawn, ActiveValue.intoValue]
  refine ⟨?_, told.1, told.2.2.2.1⟩
  unfold insert at inserted
  dsimp only at inserted
  split at inserted
  next => cases inserted
  next undrawn =>
    have fresh : conditions.id ∉ before.used := fun used =>
      undrawn ⟨by simp [drawn, ActiveValue.intoValue], used⟩
    split at inserted
    next fits =>
      split at inserted
      next =>
        split at inserted
        next =>
          obtain ⟨rfl, rfl⟩ := Prod.mk.inj (Except.ok.inj inserted)
          exact ⟨by rw [key]; exact fresh, rfl, rfl⟩
        next => cases inserted
      next => cases inserted
    next => cases inserted

theorem replaces_of_update (named : active schema.primaryKey = .set (.ofId id))
    (updated : before.update active = .ok (row, after)) :
    ∃ old, before.find id = some old ∧ before.Replaces after old row ∧
      row = { old with values := overwrite active old.values } := by
  obtain ⟨old, found, same, rows, used⟩ := update_ok named updated
  obtain ⟨listed, key⟩ := find_some found
  have keyOld := Schema.keyOf_of_eq key
  refine ⟨old, found, ⟨listed, ?_, ?_, used⟩, same⟩
  · rw [same, keyOld]
    apply Schema.keyOf_of_eq
    simp [overwrite, named]
  · rw [rows, keyOld]
    apply List.map_congr_left
    intro other member
    by_cases target : schema.keyOf other.values = id
    · obtain rfl := eq_of_key member listed
        ((key_iff member).mp ((keyOf_iff member).mpr target)) key
      rw [if_pos ((keyOf_iff member).mpr target), if_pos target, same]
    · rw [if_neg fun equal => target ((keyOf_iff member).mp equal),
        if_neg target]

omit [DecidableEq Column] [Fintype Column] in
/-- A deletion drops the row, or finds none. -/
theorem delete_cases (table : Table schema) (id : ℤ) :
    (∃ old, schema.keyOf old.values = id ∧
      table.Drops (table.delete id).2 old ∧ (table.delete id).1 ≠ 0) ∨
    table.delete id = (0, table) := by
  have rows : (table.delete id).2.rows =
      table.rows.filter fun other => schema.keyOf other.values ≠ id := by
    apply List.filter_congr
    intro other member
    rw [decide_eq_decide]
    exact not_congr (keyOf_iff member)
  by_cases present : ∃ old ∈ table.rows, schema.keyOf old.values = id
  · obtain ⟨old, listed, key⟩ := present
    refine Or.inl ⟨old, key, ⟨listed, ?_, rfl⟩, ?_⟩
    · rw [rows, key]
    · have found := find_of_mem listed (key ▸ primaryKey_of_mem listed)
      exact (delete_lt found).2.ne'
  · right
    have kept : (table.delete id).2.rows = table.rows := by
      rw [rows, List.filter_eq_self]
      intro other member
      exact decide_eq_true fun key => present ⟨other, member, key⟩
    refine Prod.ext ?_ ?_
    · show table.rows.length - (table.delete id).2.rows.length = 0
      rw [kept, Nat.sub_self]
    · exact Table.ext kept rfl

end Table

end MiryadCore.Rest
