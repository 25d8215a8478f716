import Mathlib.Data.List.Forall2
import MiryadCore.Control.ReadCommitted

/-!
# Tables with named columns and primary keys

A row gives each of its columns a value, and a table has at most one row for
each value of its primary key.  A statement of a transaction writes the rows
that its conditions match, or the one at the key of the values that it brings.
-/

namespace MiryadCore.Columns

open ReadCommitted

variable {ν : Type} [DecidableEq ν]

/-- The values of the columns that are not `NULL`. -/
abbrev Row (ν : Type) : Type := String → Option ν

/-- The primary key of each table that there is. -/
abbrev Schema : Type := String → Option (List String)

/-- A table and the values of its primary key. -/
abbrev Key (ν : Type) : Type := String × List ν

abbrev Tables (ν : Type) : Type := Store (Key ν) (Row ν)

namespace Row

/-- The row with these columns, in the order of their values. -/
def ofValues (columns : List String) (values : List ν) : Row ν :=
  fun column => (columns.zip values).lookup column

/-- `WHERE column = value AND ..` -/
def Matches (conds : List (String × ν)) (row : Row ν) : Prop :=
  ∀ cond ∈ conds, row cond.1 = some cond.2

instance (conds : List (String × ν)) : DecidablePred (Matches conds) :=
  fun row =>
    inferInstanceAs (Decidable (∀ cond ∈ conds, row cond.1 = some cond.2))

/-- `SET column = value, ..` -/
def assign (changes : List (String × ν)) (row : Row ν) : Row ν :=
  fun column => ((changes.lookup column).map some).getD (row column)

/-- These columns as they are in another row. -/
def copy (columns : List String) (other row : Row ν) : Row ν :=
  fun column => if column ∈ columns then other column else row column

/-- These columns alone. -/
def project (columns : List String) (row : Row ν) : Row ν :=
  fun column => if column ∈ columns then row column else none

/-- The values of a key, unless one is `NULL`. -/
def key (row : Row ν) : List String → Option (List ν)
  | [] => some []
  | column :: columns =>
      (row column).bind fun value => (row.key columns).map (value :: ·)

end Row

inductive Statement (ν : Type) where
  | /-- `INSERT .. ON CONFLICT (..) DO UPDATE SET ..` -/
    upsert (table : String) (columns : List String) (values : List ν)
      (conflict updated : List String)
  | /-- `INSERT .. ON CONFLICT (..) DO NOTHING` -/
    insertIgnore (table : String) (columns : List String) (values : List ν)
      (conflict : List String)
  | insert (table : String) (columns : List String) (values : List ν)
  | delete (table : String) (conds : List (String × ν))
  | update (table : String) (changes conds : List (String × ν))

def Statement.table : Statement ν → String
  | .upsert table _ _ _ _ => table
  | .insertIgnore table _ _ _ => table
  | .insert table _ _ => table
  | .delete table _ => table
  | .update table _ _ => table

/-- The rows of a table that match, with the values of their keys. -/
def matching (rows : AList fun _ : Key ν => Row ν) (table : String)
    (conds : List (String × ν)) : List (List ν × Row ν) :=
  rows.entries.filterMap fun entry =>
    if entry.1.1 = table ∧ entry.2.Matches conds then
      some (entry.1.2, entry.2)
    else none

/-- The row that an insertion brings, with its key. -/
def brought (schema : Schema) (table : String) (columns : List String)
    (values : List ν) : Option (List ν × Row ν) :=
  (schema table).bind fun primaryKey =>
    ((Row.ofValues columns values).key primaryKey).map fun key =>
      (key, Row.ofValues columns values)

/-- The rows that a statement writes over the rows that it sees, unless it is
refused. -/
def Statement.writes (schema : Schema) (rows : AList fun _ : Key ν => Row ν) :
    Statement ν → Option (List (Key ν × Option (Row ν)))
  | .upsert table columns values conflict updated =>
      if schema table = some conflict then
        (brought schema table columns values).map fun (key, row) =>
          match rows.lookup (table, key) with
          | none => [((table, key), some row)]
          | some old => [((table, key), some (Row.copy updated row old))]
      else none
  | .insertIgnore table columns values conflict =>
      if schema table = some conflict then
        (brought schema table columns values).map fun (key, row) =>
          match rows.lookup (table, key) with
          | none => [((table, key), some row)]
          | some _ => []
      else none
  | .insert table columns values =>
      (brought schema table columns values).bind fun (key, row) =>
        match rows.lookup (table, key) with
        | none => some [((table, key), some row)]
        | some _ => none
  | .delete table conds =>
      (schema table).map fun _ =>
        (matching rows table conds).map fun (key, _) => ((table, key), none)
  | .update table changes conds =>
      (schema table).map fun _ =>
        (matching rows table conds).map fun (key, row) =>
          ((table, key), some (row.assign changes))

/-- The statement in a transaction, unless it is refused or another
transaction has written one of the rows. -/
def Statement.perform (schema : Schema) (tables : Tables ν) (tx : ℕ)
    (statement : Statement ν) : Option (Tables ν) :=
  (statement.writes schema (tables.view tx)).bind fun writes =>
    if writes.any fun write => tables.locked tx write.1 then none
    else some (writes.foldl
      (fun tables write => tables.write tx write.1 write.2) tables)

/-- Each row is at its key. -/
def Keyed (schema : Schema) (key : Key ν) (row : Row ν) : Prop :=
  ∃ primaryKey, schema key.1 = some primaryKey ∧
    row.key primaryKey = some key.2

section Rows

variable {columns : List String} {values : List ν}
  {conds : List (String × ν)} {row : Row ν}

theorem mem_matching {rows : AList fun _ : Key ν => Row ν} {table : String}
    {key : List ν} :
    (key, row) ∈ matching rows table conds ↔
      rows.lookup (table, key) = some row ∧ row.Matches conds := by
  unfold matching
  rw [List.mem_filterMap]
  constructor
  · intro found
    obtain ⟨⟨⟨name, at'⟩, value⟩, member, same⟩ := found
    dsimp only at same
    split at same
    next both =>
      simp only [Option.some.injEq, Prod.mk.injEq] at same
      obtain ⟨rfl, rfl⟩ := same
      obtain ⟨rfl, fits⟩ := both
      exact ⟨AList.mem_lookup_iff.mpr member, fits⟩
    next => cases same
  · intro found
    refine ⟨⟨(table, key), row⟩, AList.mem_lookup_iff.mp found.1, ?_⟩
    dsimp only
    rw [if_pos ⟨rfl, found.2⟩]

omit [DecidableEq ν] in
theorem Row.key_eq_some {primaryKey : List String} {key : List ν} :
    row.key primaryKey = some key ↔
      List.Forall₂ (fun column value => row column = some value) primaryKey
        key := by
  induction primaryKey generalizing key with
  | nil => simp [Row.key, eq_comm]
  | cons column columns induction =>
      simp only [Row.key, Option.bind_eq_some_iff, Option.map_eq_some_iff]
      constructor
      · intro found
        obtain ⟨value, has, rest, more, rfl⟩ := found
        exact .cons has (induction.mp more)
      · intro found
        cases found with
        | cons has more => exact ⟨_, has, _, induction.mpr more, rfl⟩

omit [DecidableEq ν] in
/-- The columns of a key tell the key. -/
theorem Row.matches_zip {primaryKey : List String} {key found : List ν}
    (atKey : row.key primaryKey = some found)
    (long : key.length = primaryKey.length) :
    row.Matches (primaryKey.zip key) ↔ found = key := by
  rw [Row.key_eq_some] at atKey
  unfold Row.Matches
  induction atKey generalizing key with
  | nil =>
      rw [List.length_nil, List.length_eq_zero_iff] at long
      simp [long]
  | @cons column value columns values has rest induction =>
      cases key with
      | nil => simp at long
      | cons first key =>
          rw [List.zip_cons_cons, List.forall_mem_cons, has,
            induction (Nat.succ.inj long), List.cons.injEq, Option.some.injEq]

end Rows

theorem locked_write (tables : Tables ν) (tx : ℕ) (changed key : Key ν)
    (row : Option (Row ν)) :
    (tables.write tx changed row).locked tx key = tables.locked tx key := by
  simp [Store.write, Store.locked]

/-- What a transaction that has made these writes has left. -/
structure Wrote (tables after : Tables ν) (tx : ℕ)
    (writes : List (Key ν × Option (Row ν))) : Prop where
  rows : after.rows = tables.rows
  transactions : after.transactions = tables.transactions
  others : ∀ other key, other ≠ tx →
    after.pending other key = tables.pending other key
  written : ∀ key, (∃ row, (key, row) ∈ writes ∧
      after.pending tx key = some row) ∨
    ((∀ row, (key, row) ∉ writes) ∧
      after.pending tx key = tables.pending tx key)
  exclusive : tables.Exclusive → after.Exclusive

theorem wrote_foldl (tables : Tables ν) (tx : ℕ)
    (writes : List (Key ν × Option (Row ν)))
    (free : ∀ write ∈ writes, tables.locked tx write.1 = false) :
    Wrote tables (writes.foldl
      (fun tables write => tables.write tx write.1 write.2) tables) tx
      writes := by
  induction writes generalizing tables with
  | nil => exact ⟨rfl, rfl, fun _ _ _ => rfl, fun _ => Or.inr ⟨by simp, rfl⟩, id⟩
  | cons write writes induction =>
      have rest := induction (tables.write tx write.1 write.2) (by
        intro later member
        rw [locked_write]
        exact free later (List.mem_cons_of_mem _ member))
      refine ⟨rest.rows, rest.transactions, ?_, ?_, ?_⟩
      · intro other key different
        rw [List.foldl_cons, rest.others other key different,
          Store.pending_write, if_neg fun same => different same.1.symm]
      · intro key
        rw [List.foldl_cons]
        rcases rest.written key with found | kept
        · obtain ⟨row, member, pending⟩ := found
          exact Or.inl ⟨row, List.mem_cons_of_mem _ member, pending⟩
        · obtain ⟨absent, pending⟩ := kept
          rw [pending, Store.pending_write]
          by_cases here : write.1 = key
          · rw [if_pos ⟨rfl, here⟩]
            exact Or.inl ⟨write.2, by rw [← here]; exact List.mem_cons_self,
              rfl⟩
          · rw [if_neg fun same => here same.2]
            refine Or.inr ⟨?_, rfl⟩
            intro row member
            rcases List.mem_cons.mp member with same | later
            · exact here (congrArg Prod.fst same).symm
            · exact absent row later
      · intro exclusive
        exact rest.exclusive
          (exclusive.write (free write List.mem_cons_self) write.2)

theorem Statement.perform_eq_some {schema : Schema} {tables after : Tables ν}
    {tx : ℕ} {statement : Statement ν}
    (performed : statement.perform schema tables tx = some after) :
    ∃ writes, statement.writes schema (tables.view tx) = some writes ∧
      Wrote tables after tx writes := by
  obtain ⟨writes, same, rest⟩ := Option.bind_eq_some_iff.mp performed
  refine ⟨writes, same, ?_⟩
  split at rest
  next => cases rest
  next free =>
    cases rest
    apply wrote_foldl
    intro write member
    rw [Bool.not_eq_true, List.any_eq_false] at free
    simpa using free write member

section Writes

variable {schema : Schema} {rows : AList fun _ : Key ν => Row ν}
  {table : String} {columns conflict updated : List String} {values : List ν}
  {conds changes : List (String × ν)} {key : Key ν} {row : Option (Row ν)}
  {writes : List (Key ν × Option (Row ν))}

/-- The row that an upsert leaves. -/
def upserted (rows : AList fun _ : Key ν => Row ν) (updated : List String)
    (key : Key ν) (row : Row ν) : Row ν :=
  match rows.lookup key with
  | none => row
  | some old => Row.copy updated row old

theorem Statement.writes_upsert
    (same : (Statement.upsert table columns values conflict updated).writes
      schema rows = some writes) :
    ∃ key row, brought schema table columns values = some (key, row) ∧
      writes = [((table, key), some (upserted rows updated (table, key) row))]
      := by
  simp only [Statement.writes] at same
  split at same
  next =>
    obtain ⟨⟨key, row⟩, brings, rfl⟩ := Option.map_eq_some_iff.mp same
    refine ⟨key, row, brings, ?_⟩
    unfold upserted
    cases rows.lookup (table, key) with
    | none => rfl
    | some old => rfl
  next => cases same

theorem Statement.mem_writes_update
    (same : (Statement.update table changes conds).writes schema rows =
      some writes) :
    (key, row) ∈ writes ↔ ∃ old, key.1 = table ∧ rows.lookup key = some old ∧
      old.Matches conds ∧ row = some (old.assign changes) := by
  obtain ⟨_, _, rfl⟩ := Option.map_eq_some_iff.mp same
  obtain ⟨name, key⟩ := key
  rw [List.mem_map]
  constructor
  · intro found
    obtain ⟨⟨at', old⟩, member, same⟩ := found
    simp only [Prod.mk.injEq] at same
    obtain ⟨⟨rfl, rfl⟩, rfl⟩ := same
    obtain ⟨there, fits⟩ := mem_matching.mp member
    exact ⟨old, rfl, there, fits, rfl⟩
  · intro found
    obtain ⟨old, rfl, there, fits, rfl⟩ := found
    exact ⟨(key, old), mem_matching.mpr ⟨there, fits⟩, rfl⟩

/-- A statement writes rows of its own table. -/
theorem Statement.table_of_mem {statement : Statement ν}
    (same : statement.writes schema rows = some writes)
    (member : (key, row) ∈ writes) : key.1 = statement.table := by
  cases statement with
  | upsert table columns values conflict updated =>
      obtain ⟨_, _, _, rfl⟩ := writes_upsert same
      rw [List.mem_singleton, Prod.mk.injEq] at member
      rw [member.1]
      rfl
  | insertIgnore table columns values conflict =>
      simp only [Statement.writes] at same
      split at same
      next =>
        obtain ⟨⟨at', new⟩, _, rfl⟩ := Option.map_eq_some_iff.mp same
        dsimp only at member
        split at member
        next =>
          rw [List.mem_singleton, Prod.mk.injEq] at member
          rw [member.1]
          rfl
        next => cases member
      next => cases same
  | insert table columns values =>
      obtain ⟨⟨at', new⟩, _, rest⟩ := Option.bind_eq_some_iff.mp same
      dsimp only at rest
      split at rest
      next =>
        cases rest
        rw [List.mem_singleton, Prod.mk.injEq] at member
        rw [member.1]
        rfl
      next => cases rest
  | delete table conds =>
      obtain ⟨_, _, rfl⟩ := Option.map_eq_some_iff.mp same
      obtain ⟨_, _, entry⟩ := List.mem_map.mp member
      rw [← (Prod.mk.inj entry).1]
      rfl
  | update table changes conds =>
      obtain ⟨_, rfl, _⟩ := (mem_writes_update same).mp member
      rfl

end Writes

section Keyed

variable {schema : Schema} {row old : Row ν} {key : Key ν}

omit [DecidableEq ν] in
theorem keyed_brought {table : String} {columns : List String}
    {values found : List ν}
    (brings : brought schema table columns values = some (found, row)) :
    row = Row.ofValues columns values ∧ Keyed schema (table, found) row := by
  obtain ⟨primaryKey, is, rest⟩ := Option.bind_eq_some_iff.mp brings
  obtain ⟨found', has, same⟩ := Option.map_eq_some_iff.mp rest
  obtain ⟨rfl, rfl⟩ := Prod.mk.inj same
  exact ⟨rfl, primaryKey, is, has⟩

omit [DecidableEq ν] in
/-- Copying from a row with the same key. -/
theorem Keyed.copy (keyed : Keyed schema key old) (other : Keyed schema key row)
    (updated : List String) : Keyed schema key (Row.copy updated row old) := by
  obtain ⟨primaryKey, is, has⟩ := keyed
  obtain ⟨primaryKey', is', has'⟩ := other
  obtain rfl : primaryKey = primaryKey' := Option.some.inj (is.symm.trans is')
  refine ⟨primaryKey, is, ?_⟩
  rw [Row.key_eq_some] at has has' ⊢
  obtain ⟨name, values⟩ := key
  dsimp only at has has'
  clear is is'
  induction has with
  | nil => exact .nil
  | cons first rest induction =>
      cases has' with
      | cons first' rest' =>
          refine .cons ?_ (induction rest')
          unfold Row.copy
          split
          next => exact first'
          next => exact first

theorem upserted_apply (rows : AList fun _ : Key ν => Row ν)
    {updated : List String} {column : String} (member : column ∈ updated) :
    upserted rows updated key row column = row column := by
  unfold Columns.upserted
  cases rows.lookup key with
  | none => rfl
  | some old => exact if_pos member

theorem Keyed.upserted {rows : AList fun _ : Key ν => Row ν}
    (all : ∀ old, rows.lookup key = some old → Keyed schema key old)
    (keyed : Keyed schema key row) (updated : List String) :
    Keyed schema key (upserted rows updated key row) := by
  unfold Columns.upserted
  split
  next => exact keyed
  next old found => exact (all old found).copy keyed updated

omit [DecidableEq ν] in
/-- A change of other columns than those of the key. -/
theorem Keyed.assign (keyed : Keyed schema key row)
    {changes : List (String × ν)} {primaryKey : List String}
    (is : schema key.1 = some primaryKey)
    (apart : ∀ column ∈ primaryKey, changes.lookup column = none) :
    Keyed schema key (row.assign changes) := by
  obtain ⟨primaryKey', is', has⟩ := keyed
  obtain rfl : primaryKey = primaryKey' := Option.some.inj (is.symm.trans is')
  refine ⟨primaryKey, is, ?_⟩
  rw [Row.key_eq_some] at has ⊢
  obtain ⟨name, values⟩ := key
  dsimp only at has
  clear is is'
  induction has with
  | nil => exact .nil
  | @cons column value columns values first rest induction =>
      refine .cons ?_ (induction fun other member =>
        apart other (List.mem_cons_of_mem _ member))
      unfold Row.assign
      rw [apart column List.mem_cons_self]
      exact first

omit [DecidableEq ν] in
theorem Keyed.matches_iff (keyed : Keyed schema key row)
    {primaryKey : List String} (is : schema key.1 = some primaryKey)
    {values : List ν} (long : values.length = primaryKey.length) :
    row.Matches (primaryKey.zip values) ↔ key.2 = values := by
  obtain ⟨primaryKey', is', has⟩ := keyed
  obtain rfl : primaryKey = primaryKey' := Option.some.inj (is.symm.trans is')
  exact Row.matches_zip has long

end Keyed

end MiryadCore.Columns
