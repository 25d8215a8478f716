import MiryadCore.Rest.Resource
import Mathlib.Data.Finset.Card
import Mathlib.Data.Int.Interval
import Mathlib.Data.List.Sort

/-!
# The table of a resource

Rows fit the columns, their primary keys are distinct, and no two rows have
the same values under a unique index.  A row also carries what no query shows: the key that the database gave it when it was inserted
and the subject of the caller who created it.
-/

namespace MiryadCore.Rest

open Users (DbErr)

variable {Column : Type} [DecidableEq Column] [Fintype Column]

def IsI32 (n : ℤ) : Prop :=
  -2 ^ 31 ≤ n ∧ n < 2 ^ 31

instance (n : ℤ) : Decidable (IsI32 n) :=
  inferInstanceAs (Decidable (-2 ^ 31 ≤ n ∧ n < 2 ^ 31))

structure StoredRow (Column : Type) where
  values : Model Column
  given : ℤ
  drawn : Bool
  creator : Option String

namespace Schema

variable (schema : Schema Column)

def keyOf (values : Model Column) : ℤ :=
  match values schema.primaryKey with
  | .int (some id) => id
  | _ => 0

/-- The values are those of a row: a primary key, and columns of their type. -/
def Fits (values : Model Column) : Prop :=
  values schema.primaryKey = .ofId (schema.keyOf values) ∧
    IsI32 (schema.keyOf values) ∧
    ∀ column, (schema.columnType column).admits (values column) = true

instance (values : Model Column) : Decidable (schema.Fits values) :=
  inferInstanceAs (Decidable (_ ∧ _ ∧ _))

/-- A unique index does not accept the two rows together. -/
def Clash (left right : Model Column) : Prop :=
  ∃ index ∈ schema.uniques,
    ∀ column ∈ index, (left column).sqlEq (right column) = true

instance (left right : Model Column) : Decidable (schema.Clash left right) :=
  inferInstanceAs (Decidable (∃ index ∈ schema.uniques,
    ∀ column ∈ index, (left column).sqlEq (right column) = true))

end Schema

variable {schema : Schema Column}

@[ext]
structure Table (schema : Schema Column) where
  rows : List (StoredRow Column)
  used : List ℤ
  fits : ∀ row ∈ rows, schema.Fits row.values
  keys : (rows.map fun row => schema.keyOf row.values).Nodup
  unique : rows.Pairwise fun left right =>
    ¬ schema.Clash left.values right.values

/-- A conjunction of equalities; `Condition::all()` has none. -/
abbrev Condition (Column : Type) : Type :=
  List (Column × SeaValue)

def Condition.holds (condition : Condition Column) (values : Model Column) :
    Bool :=
  condition.all fun equality => (values equality.1).sqlEq equality.2

/-- The conditions of one statement on a table: those of every statement, the
id that the database draws and the defaults of the columns. -/
structure Conditions (Column : Type) extends Users.Conditions where
  id : ℤ
  defaults : Model Column

namespace Table

def empty : Table schema where
  rows := []
  used := []
  fits := by simp
  keys := by simp
  unique := by simp

def find (table : Table schema) (id : ℤ) : Option (StoredRow Column) :=
  table.rows.find? fun row =>
    (row.values schema.primaryKey).sqlEq (.ofId id)

/-- The selected rows, ordered by their primary key. -/
def select (table : Table schema) (condition : Condition Column) :
    List (StoredRow Column) :=
  (table.rows.filter fun row => condition.holds row.values).mergeSort
    fun left right => schema.keyOf left.values ≤ schema.keyOf right.values

/-- The values of an `INSERT`: a column that is not set takes its default, and
the primary key takes the id that is drawn. -/
def insertedValues (schema : Schema Column) (conditions : Conditions Column)
    (active : ActiveModel Column) : Model Column :=
  fun column =>
    match (active column).intoValue with
    | some value => value
    | none =>
        if column = schema.primaryKey then .ofId conditions.id
        else conditions.defaults column

/-- An id that is drawn has never been used. -/
def insert (table : Table schema) (conditions : Conditions Column)
    (creator : String) (active : ActiveModel Column) :
    Except DbErr (StoredRow Column × Table schema) :=
  let values := insertedValues schema conditions active
  let key := schema.keyOf values
  let row : StoredRow Column :=
    { values, given := key, drawn := (active schema.primaryKey).intoValue.isNone,
      creator := some creator }
  if (active schema.primaryKey).intoValue.isNone ∧
      conditions.id ∈ table.used then
    .error (.other "nextval: reached maximum value of sequence")
  else if fits : schema.Fits values then
    if fresh : key ∉ table.rows.map fun row => schema.keyOf row.values then
      if unique : ∀ other ∈ table.rows, ¬ schema.Clash other.values values then
        .ok (row, {
          rows := table.rows ++ [row]
          used := key :: table.used
          fits := by
            intro other member
            rcases List.mem_append.mp member with old | new
            · exact table.fits other old
            · rw [List.mem_singleton.mp new]
              exact fits
          keys := by
            rw [List.map_append]
            apply table.keys.append (List.nodup_singleton _)
            simpa using fresh
          unique := by
            apply List.pairwise_append.mpr
            refine ⟨table.unique, List.pairwise_singleton _ _, ?_⟩
            intro other listed new member
            rw [List.mem_singleton.mp member]
            exact unique other listed })
      else
        .error (.uniqueViolation "key")
    else
      .error (.uniqueViolation "pkey")
  else
    .error (.other "invalid value")

/-- The `SET` of an update: the columns that are set. -/
def overwrite (active : ActiveModel Column) (values : Model Column) :
    Model Column :=
  fun column =>
    match active column with
    | .set value => value
    | _ => values column

/-- The rows after an `UPDATE` of those whose primary key is `key`. -/
def updatedRows (table : Table schema) (key : SeaValue)
    (active : ActiveModel Column) : List (StoredRow Column) :=
  table.rows.map fun row =>
    if (row.values schema.primaryKey).sqlEq key then
      { row with values := overwrite active row.values }
    else
      row

def update (table : Table schema) (active : ActiveModel Column) :
    Except DbErr (StoredRow Column × Table schema) :=
  match (active schema.primaryKey).intoValue with
  | none => .error (.other "Fail to get primary key from model")
  | some key =>
      match table.rows.find? fun row =>
          (row.values schema.primaryKey).sqlEq key with
      | none => .error .recordNotUpdated
      | some row =>
          let rows := table.updatedRows key active
          if fits : ∀ row ∈ rows, schema.Fits row.values then
            if keys : (rows.map fun row => schema.keyOf row.values).Nodup then
              if unique : rows.Pairwise fun left right =>
                  ¬ schema.Clash left.values right.values then
                .ok ({ row with values := overwrite active row.values },
                  { table with rows, fits, keys, unique })
              else
                .error (.uniqueViolation "key")
            else
              .error (.uniqueViolation "pkey")
          else
            .error (.other "invalid value")

/-- The number of deleted rows, and the rest. -/
def delete (table : Table schema) (id : ℤ) : ℕ × Table schema :=
  let kept := table.rows.filter fun row =>
    ¬ (row.values schema.primaryKey).sqlEq (.ofId id)
  (table.rows.length - kept.length, {
    table with
    rows := kept
    fits := by
      intro row member
      exact table.fits row (List.mem_of_mem_filter member)
    keys := table.keys.sublist (List.filter_sublist.map _)
    unique := table.unique.sublist List.filter_sublist })

end Table

theorem sqlEq_ofId {value : SeaValue} {id : ℤ}
    (admitted : ColumnType.integer.admits value = true) :
    value.sqlEq (.ofId id) = true ↔ value = .ofId id := by
  cases value with
  | int value =>
      cases value with
      | none => simp [SeaValue.sqlEq, SeaValue.ofId]
      | some value => simp [SeaValue.sqlEq, SeaValue.ofId]
  | bigInt value => simp [ColumnType.admits] at admitted
  | string value => simp [ColumnType.admits] at admitted
  | other kind value => simp [ColumnType.admits] at admitted

omit [DecidableEq Column] [Fintype Column] in
theorem Schema.keyOf_of_eq {values : Model Column} {id : ℤ}
    (key : values schema.primaryKey = .ofId id) : schema.keyOf values = id := by
  simp [Schema.keyOf, key, SeaValue.ofId]

namespace Table

variable {table : Table schema} {row other : StoredRow Column} {id : ℤ}

omit [DecidableEq Column] [Fintype Column] in
theorem key_iff (member : row ∈ table.rows) :
    (row.values schema.primaryKey).sqlEq (.ofId id) = true ↔
      row.values schema.primaryKey = .ofId id := by
  apply sqlEq_ofId
  rw [(table.fits row member).1]
  rfl

omit [DecidableEq Column] [Fintype Column] in
theorem eq_of_key (left : row ∈ table.rows) (right : other ∈ table.rows)
    (key : row.values schema.primaryKey = .ofId id)
    (key' : other.values schema.primaryKey = .ofId id) : row = other :=
  List.inj_on_of_nodup_map table.keys left right
    ((Schema.keyOf_of_eq key).trans (Schema.keyOf_of_eq key').symm)

omit [DecidableEq Column] [Fintype Column] in
theorem find_some (found : table.find id = some row) :
    row ∈ table.rows ∧ row.values schema.primaryKey = .ofId id := by
  have named := List.find?_some found
  have member := List.mem_of_find?_eq_some found
  exact ⟨member, (key_iff member).mp named⟩

omit [DecidableEq Column] [Fintype Column] in
theorem find_of_mem (member : row ∈ table.rows)
    (key : row.values schema.primaryKey = .ofId id) :
    table.find id = some row := by
  cases found : table.find id with
  | none =>
      have absent := List.find?_eq_none.mp found row member
      rw [key_iff member] at absent
      exact (absent key).elim
  | some other =>
      obtain ⟨listed, named⟩ := find_some found
      rw [eq_of_key listed member named key]

theorem insert_ok {conditions : Conditions Column}
    {creator : String} {active : ActiveModel Column} {after : Table schema}
    (inserted : table.insert conditions creator active = .ok (row, after)) :
    row.values = insertedValues schema conditions active ∧
      row.given = schema.keyOf row.values ∧
      row.drawn = (active schema.primaryKey).intoValue.isNone ∧
      row.creator = some creator ∧ schema.Fits row.values ∧ after.rows = table.rows ++ [row] := by
  unfold insert at inserted
  dsimp only at inserted
  split at inserted
  · cases inserted
  split at inserted
  · rename_i fits
    split at inserted
    · split at inserted
      · obtain ⟨rfl, rfl⟩ := Prod.mk.inj (Except.ok.inj inserted)
        exact ⟨rfl, rfl, rfl, rfl, fits, rfl⟩
      · cases inserted
    · cases inserted
  · cases inserted

/-- A unique index refuses the row of an `INSERT`, whose id has never been
used and whose values fit the columns. -/
structure Taken (table : Table schema) (conditions : Conditions Column)
    (active : ActiveModel Column) : Prop where
  undrawn : (active schema.primaryKey).intoValue.isNone = true →
    conditions.id ∉ table.used
  fits : schema.Fits (insertedValues schema conditions active)
  taken :
    schema.keyOf (insertedValues schema conditions active) ∈
        (table.rows.map fun row => schema.keyOf row.values) ∨
      ∃ other ∈ table.rows, schema.Clash other.values
        (insertedValues schema conditions active)

theorem insert_unique_iff {conditions : Conditions Column} {creator : String}
    {active : ActiveModel Column} :
    (∃ constraint, table.insert conditions creator active =
        .error (.uniqueViolation constraint)) ↔
      table.Taken conditions active := by
  unfold insert
  dsimp only
  by_cases drawn : (active schema.primaryKey).intoValue.isNone = true ∧
      conditions.id ∈ table.used
  · rw [if_pos drawn]
    constructor
    · exact fun impossible => nomatch impossible
    · exact fun taken => (taken.undrawn drawn.1 drawn.2).elim
  rw [if_neg drawn]
  have undrawn : (active schema.primaryKey).intoValue.isNone = true →
      conditions.id ∉ table.used :=
    fun unset used => drawn ⟨unset, used⟩
  by_cases fits : schema.Fits (insertedValues schema conditions active)
  case neg =>
    rw [dif_neg fits]
    constructor
    · exact fun impossible => nomatch impossible
    · exact fun taken => (fits taken.fits).elim
  rw [dif_pos fits]
  by_cases fresh : schema.keyOf (insertedValues schema conditions active) ∉
      table.rows.map fun row => schema.keyOf row.values
  case neg =>
    rw [dif_neg fresh]
    have taken := not_not.mp fresh
    exact ⟨fun _ => ⟨undrawn, fits, Or.inl taken⟩, fun _ => ⟨_, rfl⟩⟩
  rw [dif_pos fresh]
  by_cases unique : ∀ other ∈ table.rows, ¬ schema.Clash other.values
      (insertedValues schema conditions active)
  · rw [dif_pos unique]
    constructor
    · exact fun impossible => nomatch impossible
    · intro taken
      rcases taken.taken with key | ⟨other, member, clash⟩
      · exact (fresh key).elim
      · exact (unique other member clash).elim
  · rw [dif_neg unique]
    push Not at unique
    exact ⟨fun _ => ⟨undrawn, fits, Or.inr unique⟩, fun _ => ⟨_, rfl⟩⟩

/-- What an `UPDATE` of one row that succeeds does. -/
theorem update_ok {active : ActiveModel Column} {after : Table schema}
    (named : active schema.primaryKey = .set (.ofId id))
    (updated : table.update active = .ok (row, after)) :
    ∃ old, table.find id = some old ∧
      row = { old with values := overwrite active old.values } ∧
      after.rows = table.updatedRows (.ofId id) active ∧
      after.used = table.used := by
  unfold update at updated
  rw [named] at updated
  dsimp only [ActiveValue.intoValue] at updated
  split at updated
  · cases updated
  rename_i old found
  split at updated
  · split at updated
    · split at updated
      · obtain ⟨rfl, rfl⟩ := Prod.mk.inj (Except.ok.inj updated)
        exact ⟨old, found, rfl, rfl, rfl⟩
      · cases updated
    · cases updated
  · cases updated

omit [DecidableEq Column] [Fintype Column] in
theorem updatedRows_eq_iff {active : ActiveModel Column}
    (found : table.find id = some row) :
    table.updatedRows (.ofId id) active = table.rows ↔
      overwrite active row.values = row.values := by
  obtain ⟨listed, key⟩ := find_some found
  constructor
  · intro same
    have each := List.map_inj_left.mp (same.trans (List.map_id _).symm) row
      listed
    rw [if_pos ((key_iff listed).mpr key)] at each
    exact congrArg StoredRow.values each
  · intro same
    apply (List.map_congr_left ?_).trans (List.map_id _)
    intro other member
    by_cases target : (other.values schema.primaryKey).sqlEq (.ofId id) = true
    · obtain rfl := eq_of_key listed member key ((key_iff member).mp target)
      rw [if_pos target, same]
      rfl
    · rw [if_neg target]
      rfl

theorem update_of_overwrite {active : ActiveModel Column}
    (named : active schema.primaryKey = .set (.ofId id))
    (found : table.find id = some row)
    (same : overwrite active row.values = row.values) :
    table.update active = .ok (row, table) := by
  have rows := (updatedRows_eq_iff found).mpr same
  unfold find at found
  unfold update
  rw [named]
  simp only [ActiveValue.intoValue, found, rows, same]
  rw [dif_pos table.fits, dif_pos table.keys, dif_pos table.unique]

omit [DecidableEq Column] [Fintype Column] in
theorem delete_lt (found : table.find id = some row) :
    (table.delete id).2.rows.length < table.rows.length ∧
      0 < (table.delete id).1 := by
  have fewer : (table.delete id).2.rows.length < table.rows.length := by
    apply List.length_filter_lt_length_iff_exists.mpr
    obtain ⟨listed, key⟩ := find_some found
    refine ⟨row, listed, ?_⟩
    simpa using (key_iff listed).mpr key
  exact ⟨fewer, Nat.sub_pos_of_lt fewer⟩

end Table

end MiryadCore.Rest
