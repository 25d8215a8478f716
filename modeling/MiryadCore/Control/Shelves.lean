import Mathlib.Data.List.Perm.Basic
import MiryadCore.Control.Columns

/-!
# Maps kept in tables

A shelf says how the entries of a map are rows of a table: where the row of an
entry is, and what its other columns hold.  The statements on a table do to the
map what they do to its rows, and the rows that match conditions are those of
the entries that do.
-/

namespace MiryadCore.Columns

open ReadCommitted

variable {ν K V : Type}

/-- The columns of a row have these values. -/
def Row.Has (columns : List String) (values : List ν) (row : Row ν) : Prop :=
  List.Forall₂ (fun column value => row column = some value) columns values

theorem Row.has_append {columns others : List String} {values rest : List ν}
    {row : Row ν} (has : Row.Has columns values row)
    (more : Row.Has others rest row) :
    Row.Has (columns ++ others) (values ++ rest) row :=
  List.rel_append has more

theorem Row.Has.left {columns others : List String} {values rest : List ν}
    {row : Row ν} (has : Row.Has (columns ++ others) (values ++ rest) row)
    (long : values.length = columns.length) : Row.Has columns values row := by
  induction columns generalizing values with
  | nil =>
      rw [List.length_eq_zero_iff.mp long]
      exact .nil
  | cons column columns induction =>
      cases values with
      | nil => cases long
      | cons value values =>
          cases has with
          | cons first more =>
              exact .cons first (induction more (Nat.succ.inj long))

theorem Row.Has.right {columns others : List String} {values rest : List ν}
    {row : Row ν} (has : Row.Has (columns ++ others) (values ++ rest) row)
    (long : values.length = columns.length) : Row.Has others rest row := by
  induction columns generalizing values with
  | nil =>
      rw [List.length_eq_zero_iff.mp long] at has
      exact has
  | cons column columns induction =>
      cases values with
      | nil => cases long
      | cons value values =>
          cases has with
          | cons first more => exact induction more (Nat.succ.inj long)

theorem Row.Has.congr {columns : List String} {values : List ν}
    {row row' : Row ν} (has : Row.Has columns values row)
    (same : ∀ column ∈ columns, row' column = row column) :
    Row.Has columns values row' := by
  induction has with
  | nil => exact .nil
  | cons first more induction =>
      refine .cons ((same _ List.mem_cons_self).trans first) ?_
      exact induction fun column member =>
        same column (List.mem_cons_of_mem _ member)

theorem Row.key_of_has {keys : List String} {key : List ν} {row : Row ν} :
    row.key keys = some key ↔ Row.Has keys key row :=
  Row.key_eq_some

theorem Row.has_ofValues {columns : List String} {values : List ν}
    (distinct : columns.Nodup) (long : values.length = columns.length) :
    Row.Has columns values (Row.ofValues columns values) := by
  induction columns generalizing values with
  | nil =>
      rw [List.length_eq_zero_iff.mp long]
      exact .nil
  | cons column columns induction =>
      cases values with
      | nil => cases long
      | cons value values =>
          obtain ⟨fresh, distinct⟩ := List.nodup_cons.mp distinct
          refine .cons ?_ ?_
          · simp [Row.ofValues]
          · apply (induction distinct (Nat.succ.inj long)).congr
            intro other member
            have different : (other == column) = false :=
              beq_false_of_ne fun same => fresh (same ▸ member)
            simp [Row.ofValues, List.lookup_cons, different]

theorem Row.Has.apply_eq {columns : List String} {values : List ν}
    {row : Row ν} (has : Row.Has columns values row) :
    ∀ column ∈ columns, row column = Row.ofValues columns values column := by
  induction has with
  | nil => exact fun _ member => nomatch member
  | @cons first value columns values is more induction =>
      intro column member
      by_cases here : column = first
      · rw [here, is]
        simp [Row.ofValues]
      · rw [induction column (List.mem_of_ne_of_mem here member)]
        simp [Row.ofValues, List.lookup_cons, beq_false_of_ne here]

/-- What the conditions ask of columns of a row that are known. -/
theorem Row.Has.matches_iff {columns : List String} {values : List ν}
    {row : Row ν} (has : Row.Has columns values row)
    {conds : List (String × ν)} (known : ∀ cond ∈ conds, cond.1 ∈ columns) :
    row.Matches conds ↔
      ∀ cond ∈ conds, Row.ofValues columns values cond.1 = some cond.2 := by
  have same := has.apply_eq
  constructor
  · intro fits cond member
    rw [← same cond.1 (known cond member)]
    exact fits cond member
  · intro fits cond member
    rw [same cond.1 (known cond member)]
    exact fits cond member

/-- What writes make of the rows. -/
def Changed [DecidableEq ν] (rows rows' : AList fun _ : Key ν => Row ν)
    (writes : List (Key ν × Option (Row ν))) : Prop :=
  ∀ key, (∃ row, (key, row) ∈ writes ∧ rows'.lookup key = row) ∨
    ((∀ row, (key, row) ∉ writes) ∧ rows'.lookup key = rows.lookup key)

theorem Wrote.changed [DecidableEq ν] {tables after : Tables ν} {tx : ℕ}
    {writes : List (Key ν × Option (Row ν))}
    (wrote : Wrote tables after tx writes) :
    Changed (tables.view tx) (after.view tx) writes := by
  intro key
  rw [Store.lookup_view, Store.lookup_view]
  rcases wrote.written key with found | kept
  · obtain ⟨row, member, pending⟩ := found
    refine Or.inl ⟨row, member, ?_⟩
    rw [pending, Option.getD_some]
  · obtain ⟨absent, pending⟩ := kept
    refine Or.inr ⟨absent, ?_⟩
    rw [pending, wrote.rows]

/-- Keys that are not written have their rows. -/
theorem Changed.kept [DecidableEq ν] {rows rows' : AList fun _ : Key ν => Row ν}
    {writes : List (Key ν × Option (Row ν))}
    (changed : Changed rows rows' writes) {key : Key ν}
    (absent : ∀ row, (key, row) ∉ writes) :
    rows'.lookup key = rows.lookup key := by
  rcases changed key with found | kept
  · obtain ⟨row, member, _⟩ := found
    exact absurd member (absent row)
  · exact kept.2

theorem Changed.single [DecidableEq ν]
    {rows rows' : AList fun _ : Key ν => Row ν} {at' : Key ν}
    {row : Option (Row ν)} (changed : Changed rows rows' [(at', row)])
    (key : Key ν) :
    rows'.lookup key = if key = at' then row else rows.lookup key := by
  by_cases here : key = at'
  · subst here
    rw [if_pos rfl]
    rcases changed key with found | kept
    · obtain ⟨row', member, same⟩ := found
      rw [List.mem_singleton, Prod.mk.injEq] at member
      rw [same, member.2]
    · exact absurd (List.mem_singleton_self _) (kept.1 row)
  · rw [if_neg here]
    apply changed.kept
    intro row' member
    rw [List.mem_singleton, Prod.mk.injEq] at member
    exact here member.1

/-- A row that no other transaction has written is free. -/
theorem locked_eq_false [DecidableEq ν] {tables : Tables ν} {tx : ℕ}
    {key : Key ν} (none : ∀ other, other ≠ tx → tables.pending other key = none) :
    tables.locked tx key = false := by
  apply List.any_eq_false.mpr
  intro write member both
  obtain ⟨here, different⟩ := (Bool.and_eq_true _ _).mp both
  have absent := List.find?_eq_none.mp
    (Option.map_eq_none_iff.mp (none write.tx (bne_iff_ne.mp different)))
    write member
  exact absent (decide_eq_true ⟨rfl, of_decide_eq_true here⟩)

structure Shelf (ν K V : Type) where
  table : String
  keys : List String
  others : List String
  place : K → List ν
  /-- The values of the other columns for an entry. -/
  cells : V → List ν → Prop
  /-- The keys of the table that are for entries of this map. -/
  mine : List ν → Prop
  distinct : (keys ++ others).Nodup
  long : ∀ k, (place k).length = keys.length
  wide : ∀ {v values}, cells v values → values.length = others.length
  injective : Function.Injective place
  own : ∀ k, mine (place k)

namespace Shelf

/-- The row of an entry. -/
def Entry (shelf : Shelf ν K V) (k : K) (v : V) (row : Row ν) : Prop :=
  ∃ values, shelf.cells v values ∧
    Row.Has (shelf.keys ++ shelf.others) (shelf.place k ++ values) row

variable [DecidableEq ν]

/-- The rows of the map are those of its entries. -/
structure Keeps (shelf : Shelf ν K V) (map : K → Option V)
    (rows : AList fun _ : Key ν => Row ν) : Prop where
  present : ∀ {k v}, map k = some v → ∃ row,
    rows.lookup (shelf.table, shelf.place k) = some row ∧ shelf.Entry k v row
  absent : ∀ {k}, map k = none →
    rows.lookup (shelf.table, shelf.place k) = none
  only : ∀ {key row}, rows.lookup (shelf.table, key) = some row →
    shelf.mine key → ∃ k, key = shelf.place k

end Shelf

namespace Shelf

variable {shelf : Shelf ν K V} {k : K} {v : V} {row : Row ν}

theorem Entry.key (entry : shelf.Entry k v row) :
    Row.Has shelf.keys (shelf.place k) row := by
  obtain ⟨values, _, has⟩ := entry
  exact has.left (shelf.long k)

theorem Entry.others (entry : shelf.Entry k v row) :
    ∃ values, shelf.cells v values ∧ Row.Has shelf.others values row := by
  obtain ⟨values, cells, has⟩ := entry
  exact ⟨values, cells, has.right (shelf.long k)⟩

theorem Entry.matches_key (entry : shelf.Entry k v row) (other : K) :
    row.Matches (shelf.keys.zip (shelf.place other)) ↔ k = other := by
  rw [Row.matches_zip (Row.key_of_has.mpr entry.key) (shelf.long other)]
  exact shelf.injective.eq_iff

theorem entry_ofValues {values : List ν} (cells : shelf.cells v values) :
    shelf.Entry k v (Row.ofValues (shelf.keys ++ shelf.others)
      (shelf.place k ++ values)) := by
  refine ⟨values, cells, Row.has_ofValues shelf.distinct ?_⟩
  rw [List.length_append, List.length_append, shelf.long, shelf.wide cells]

theorem brought_entry {schema : Schema} (is : schema shelf.table =
      some shelf.keys) {values : List ν} (cells : shelf.cells v values) :
    brought schema shelf.table (shelf.keys ++ shelf.others)
        (shelf.place k ++ values) =
      some (shelf.place k, Row.ofValues (shelf.keys ++ shelf.others)
        (shelf.place k ++ values)) := by
  have key := Row.key_of_has.mpr (entry_ofValues cells : shelf.Entry k v _).key
  rw [brought, is, Option.bind_some, key, Option.map_some]

/-- The columns outside of the key. -/
theorem filter_others (shelf : Shelf ν K V) :
    (shelf.keys ++ shelf.others).filter (fun column => column ∉ shelf.keys) =
      shelf.others := by
  have apart := List.disjoint_of_nodup_append shelf.distinct
  rw [List.filter_append, List.filter_eq_nil_iff.mpr, List.nil_append,
    List.filter_eq_self.mpr]
  · intro column member
    exact decide_eq_true fun key => apart key member
  · intro column member
    simpa using member

variable [DecidableEq ν] {map : K → Option V}
  {rows rows' : AList fun _ : Key ν => Row ν}

/-- What is written elsewhere does not matter. -/
theorem Keeps.frame (keeps : shelf.Keeps map rows)
    (same : ∀ key, shelf.mine key → rows'.lookup (shelf.table, key) =
      rows.lookup (shelf.table, key)) : shelf.Keeps map rows' where
  present := by
    intro k v is
    rw [same _ (shelf.own k)]
    exact keeps.present is
  absent := by
    intro k is
    rw [same _ (shelf.own k)]
    exact keeps.absent is
  only := by
    intro key row there mine
    rw [same _ mine] at there
    exact keeps.only there mine

/-- An entry is put. -/
theorem Keeps.put {map' : K → Option V} (keeps : shelf.Keeps map rows)
    (changed : ∀ key, rows'.lookup key =
      if key = (shelf.table, shelf.place k) then some row
      else rows.lookup key) (entry : shelf.Entry k v row)
    (here : map' k = some v) (beside : ∀ other, other ≠ k →
      map' other = map other) : shelf.Keeps map' rows' where
  present := by
    intro other value is
    rw [changed]
    by_cases same : other = k
    · subst same
      rw [here] at is
      rw [if_pos rfl, ← Option.some.inj is]
      exact ⟨row, rfl, entry⟩
    · rw [beside other same] at is
      rw [if_neg fun at' => same (shelf.injective (Prod.mk.inj at').2)]
      exact keeps.present is
  absent := by
    intro other is
    have different : other ≠ k := by
      rintro rfl
      rw [here] at is
      cases is
    rw [beside other different] at is
    rw [changed,
      if_neg fun at' => different (shelf.injective (Prod.mk.inj at').2)]
    exact keeps.absent is
  only := by
    intro key row' there mine
    rw [changed] at there
    split at there
    next same => exact ⟨k, (Prod.mk.inj same).2⟩
    next => exact keeps.only there mine

/-- The entries at some keys go. -/
theorem Keeps.drop {map' : K → Option V} {goes : K → Prop}
    (keeps : shelf.Keeps map rows)
    (gone : ∀ k, goes k → rows'.lookup (shelf.table, shelf.place k) = none)
    (stays : ∀ k, ¬ goes k → rows'.lookup (shelf.table, shelf.place k) =
      rows.lookup (shelf.table, shelf.place k))
    (fewer : ∀ key row, rows'.lookup key = some row →
      rows.lookup key = some row)
    (drops : ∀ k, goes k → map' k = none)
    (leaves : ∀ k, ¬ goes k → map' k = map k) : shelf.Keeps map' rows' where
  present := by
    intro k v is
    by_cases going : goes k
    · rw [drops k going] at is
      cases is
    · rw [leaves k going] at is
      rw [stays k going]
      exact keeps.present is
  absent := by
    intro k is
    by_cases going : goes k
    · exact gone k going
    · rw [leaves k going] at is
      rw [stays k going]
      exact keeps.absent is
  only := by
    intro key row there mine
    exact keeps.only (fewer _ _ there) mine

/-- The row of an entry stands at the key of the entry. -/
theorem Keeps.entry (keeps : shelf.Keeps map rows) {key : List ν}
    (there : rows.lookup (shelf.table, key) = some row)
    (mine : shelf.mine key) :
    ∃ k v, key = shelf.place k ∧ map k = some v ∧ shelf.Entry k v row := by
  obtain ⟨k, rfl⟩ := keeps.only there mine
  cases is : map k with
  | none =>
      rw [keeps.absent is] at there
      cases there
  | some v =>
      obtain ⟨row', there', entry⟩ := keeps.present is
      rw [there] at there'
      rw [Option.some.inj there']
      exact ⟨k, v, rfl, is, entry⟩

section Statements

variable {schema : Schema} {values : List ν}
  {writes : List (Key ν × Option (Row ν))}

/-- What writes touch of another shelf is nothing. -/
def Apart (shelf : Shelf ν K V) (writes : List (Key ν × Option (Row ν))) :
    Prop :=
  ∀ key row, ((shelf.table, key), row) ∈ writes → ¬ shelf.mine key

theorem Keeps.apart (keeps : shelf.Keeps map rows)
    (changed : Changed rows rows' writes) (apart : shelf.Apart writes) :
    shelf.Keeps map rows' := by
  apply keeps.frame
  intro key mine
  apply changed.kept
  intro row member
  exact apart key row member mine

/-- What an upsert of an entry writes. -/
theorem Keeps.upsert (keeps : shelf.Keeps map rows)
    (is : schema shelf.table = some shelf.keys)
    (cells : shelf.cells v values) :
    ∃ row, (Statement.upsert shelf.table (shelf.keys ++ shelf.others)
      (shelf.place k ++ values) shelf.keys shelf.others).writes schema rows =
        some [((shelf.table, shelf.place k), some row)] ∧
      shelf.Entry k v row := by
  have new : shelf.Entry k v _ := entry_ofValues cells
  simp only [Statement.writes, is, if_true, brought_entry is cells,
    Option.map_some, Option.some.injEq]
  cases there : rows.lookup (shelf.table, shelf.place k) with
  | none => exact ⟨_, rfl, new⟩
  | some old =>
      obtain ⟨other, _, place, _, former⟩ := keeps.entry there (shelf.own k)
      obtain ⟨_, _, has⟩ := new
      refine ⟨_, rfl, values, cells, Row.has_append ?_ ?_⟩
      · rw [place]
        apply former.key.congr
        intro column member
        have apart := List.disjoint_of_nodup_append shelf.distinct
        exact if_neg fun updated => apart member updated
      · apply (Row.has_ofValues shelf.distinct ?_).right (shelf.long k)
          |>.congr
        · intro column member
          exact if_pos member
        · rw [List.length_append, List.length_append, shelf.long,
            shelf.wide cells]

/-- A new entry is inserted. -/
theorem Keeps.insert (keeps : shelf.Keeps map rows)
    (is : schema shelf.table = some shelf.keys)
    (cells : shelf.cells v values) (new : map k = none) :
    ∃ row, (Statement.insert shelf.table (shelf.keys ++ shelf.others)
      (shelf.place k ++ values)).writes schema rows =
        some [((shelf.table, shelf.place k), some row)] ∧
      shelf.Entry k v row := by
  simp only [Statement.writes, brought_entry is cells, Option.bind_some,
    keeps.absent new]
  exact ⟨_, rfl, entry_ofValues cells⟩

/-- An entry that is there stays as it is. -/
theorem insertIgnore_writes (is : schema shelf.table = some shelf.keys)
    (cells : shelf.cells v values) :
    (∃ row, (Statement.insertIgnore shelf.table (shelf.keys ++ shelf.others)
        (shelf.place k ++ values) shelf.keys).writes schema rows =
          some [((shelf.table, shelf.place k), some row)] ∧
      shelf.Entry k v row) ∨
    ((Statement.insertIgnore shelf.table (shelf.keys ++ shelf.others)
        (shelf.place k ++ values) shelf.keys).writes schema rows = some [] ∧
      ∃ row, rows.lookup (shelf.table, shelf.place k) = some row) := by
  simp only [Statement.writes, is, if_true, brought_entry is cells,
    Option.map_some, Option.some.injEq]
  cases rows.lookup (shelf.table, shelf.place k) with
  | none => exact Or.inl ⟨_, rfl, entry_ofValues cells⟩
  | some row => exact Or.inr ⟨rfl, row, rfl⟩

end Statements

end Shelf

theorem Statement.mem_writes_delete [DecidableEq ν] {schema : Schema}
    {rows : AList fun _ : Key ν => Row ν} {table : String}
    {conds : List (String × ν)} {writes : List (Key ν × Option (Row ν))}
    {key : Key ν} {row : Option (Row ν)}
    (same : (Statement.delete table conds).writes schema rows = some writes) :
    (key, row) ∈ writes ↔ key.1 = table ∧ row = none ∧
      ∃ old, rows.lookup key = some old ∧ old.Matches conds := by
  obtain ⟨_, _, rfl⟩ := Option.map_eq_some_iff.mp same
  obtain ⟨name, key⟩ := key
  rw [List.mem_map]
  constructor
  · intro found
    obtain ⟨⟨at', old⟩, member, entry⟩ := found
    simp only [Prod.mk.injEq] at entry
    obtain ⟨⟨rfl, rfl⟩, rfl⟩ := entry
    obtain ⟨there, fits⟩ := mem_matching.mp member
    exact ⟨rfl, rfl, old, there, fits⟩
  · intro found
    obtain ⟨rfl, rfl, old, there, fits⟩ := found
    exact ⟨(key, old), mem_matching.mpr ⟨there, fits⟩, rfl⟩

namespace Shelf

variable [DecidableEq ν] {shelf : Shelf ν K V} {map : K → Option V}
  {rows rows' : AList fun _ : Key ν => Row ν} {schema : Schema}
  {conds : List (String × ν)} {writes : List (Key ν × Option (Row ν))}

/-- The entries that match conditions go. -/
theorem Keeps.delete {map' : K → Option V} {goes : K → Prop}
    (keeps : shelf.Keeps map rows)
    (fits : ∀ {k v row}, shelf.Entry k v row →
      (row.Matches conds ↔ goes k))
    (same : (Statement.delete shelf.table conds).writes schema rows =
      some writes) (changed : Changed rows rows' writes)
    (drops : ∀ k, goes k → map' k = none)
    (leaves : ∀ k, ¬ goes k → map' k = map k) : shelf.Keeps map' rows' := by
  have writes_iff := fun {key row} =>
    @Statement.mem_writes_delete _ _ _ _ _ _ _ key row same
  have fewer : ∀ key, rows'.lookup key = none ∨
      rows'.lookup key = rows.lookup key := by
    intro key
    rcases changed key with found | kept
    · obtain ⟨row, member, same⟩ := found
      rw [same]
      exact Or.inl (writes_iff.mp member).2.1
    · exact Or.inr kept.2
  refine keeps.drop ?_ ?_ ?_ drops leaves
  · intro k going
    cases is : map k with
    | none =>
        rcases fewer (shelf.table, shelf.place k) with gone | kept
        · exact gone
        · rw [kept]
          exact keeps.absent is
    | some v =>
        obtain ⟨row, there, entry⟩ := keeps.present is
        rcases changed (shelf.table, shelf.place k) with found | kept
        · obtain ⟨row', member, same⟩ := found
          rw [same, (writes_iff.mp member).2.1]
        · exact absurd (writes_iff.mpr
            ⟨rfl, rfl, row, there, (fits entry).mpr going⟩) (kept.1 none)
  · intro k staying
    apply changed.kept
    intro row member
    obtain ⟨_, _, old, there, matched⟩ := writes_iff.mp member
    obtain ⟨other, v, place, _, entry⟩ := keeps.entry there (shelf.own k)
    exact staying (shelf.injective place ▸ (fits entry).mp matched)
  · intro key row there
    rcases fewer key with gone | kept
    · rw [gone] at there
      cases there
    · rw [← kept]
      exact there

/-- A deletion whose conditions no entry meets. -/
theorem Keeps.apart_delete {table : String} (keeps : shelf.Keeps map rows)
    (misses : table = shelf.table → ∀ {k v row}, shelf.Entry k v row →
      ¬ row.Matches conds)
    (same : (Statement.delete table conds).writes schema rows =
      some writes) : shelf.Apart writes := by
  intro key row member mine
  obtain ⟨named, _, old, there, matched⟩ :=
    (Statement.mem_writes_delete same).mp member
  obtain ⟨_, _, _, _, entry⟩ := keeps.entry there mine
  exact misses named.symm entry matched

end Shelf

/-- Each of the chosen entries of a map, once, in some order. -/
structure Listing (map : K → Option V) (chosen : K → V → Prop)
    (entries : List (K × V)) : Prop where
  nodup : (entries.map Prod.fst).Nodup
  mem_iff : ∀ {k v}, (k, v) ∈ entries ↔ map k = some v ∧ chosen k v

namespace Listing

variable {map : K → Option V} {chosen : K → V → Prop}
  {entries entries' : List (K × V)}

theorem perm (listing : Listing map chosen entries)
    (reordered : entries'.Perm entries) : Listing map chosen entries' where
  nodup := (reordered.map Prod.fst).nodup_iff.mpr listing.nodup
  mem_iff := reordered.mem_iff.trans listing.mem_iff

theorem perm_of_same (listing : Listing map chosen entries)
    (other : Listing map chosen entries') : entries.Perm entries' := by
  apply (List.perm_ext_iff_of_nodup (List.Nodup.of_map _ listing.nodup)
    (List.Nodup.of_map _ other.nodup)).mpr
  intro entry
  exact listing.mem_iff.trans other.mem_iff.symm

/-- In an order that tells the entries apart, there is one listing. -/
theorem eq_of_pairwise {le : K × V → K × V → Prop}
    (listing : Listing map chosen entries)
    (other : Listing map chosen entries') (sorted : entries.Pairwise le)
    (sorted' : entries'.Pairwise le)
    (apart : ∀ a ∈ entries, ∀ b ∈ entries, le a b → le b a → a = b) :
    entries = entries' := by
  have permuted := listing.perm_of_same other
  apply permuted.eq_of_pairwise ?_ sorted sorted'
  intro a b member member' first second
  exact apart a member b (permuted.mem_iff.mpr member') first second

theorem filter (listing : Listing map (fun _ _ => True) entries)
    (which : K × V → Bool) :
    Listing map (fun k v => which (k, v) = true) (entries.filter which) where
  nodup := listing.nodup.sublist (List.filter_sublist.map Prod.fst)
  mem_iff := by
    intro k v
    rw [List.mem_filter, listing.mem_iff, and_true]

/-- At most one entry is chosen. -/
theorem single {k : K} (listing : Listing map chosen entries)
    (only : ∀ {other v}, chosen other v ↔ other = k) :
    entries = ((map k).map fun v => (k, v)).toList := by
  have nodup := List.Nodup.of_map _ listing.nodup
  cases is : map k with
  | none =>
      rw [Option.map_none, Option.toList_none, List.eq_nil_iff_forall_not_mem]
      rintro ⟨other, v⟩ member
      obtain ⟨found, here⟩ := listing.mem_iff.mp member
      rw [only.mp here, is] at found
      cases found
  | some v =>
      rw [Option.map_some, Option.toList_some]
      apply List.perm_singleton.mp
      apply (List.perm_ext_iff_of_nodup nodup (List.nodup_singleton _)).mpr
      rintro ⟨other, value⟩
      rw [List.mem_singleton, listing.mem_iff, only, Prod.mk.injEq]
      constructor
      · rintro ⟨found, rfl⟩
        rw [is] at found
        exact ⟨rfl, (Option.some.inj found).symm⟩
      · rintro ⟨rfl, rfl⟩
        exact ⟨is, rfl⟩

end Listing

theorem nodup_matching [DecidableEq ν] (rows : AList fun _ : Key ν => Row ν)
    (table : String) (conds : List (String × ν)) :
    ((matching rows table conds).map Prod.fst).Nodup := by
  unfold matching
  rw [List.map_filterMap]
  apply List.pairwise_filterMap.mpr
  apply (List.nodupKeys_iff_pairwise.mp rows.nodupKeys).imp
  intro one other different key found key' found' same
  obtain ⟨_, first, rfl⟩ := Option.map_eq_some_iff.mp found
  obtain ⟨_, second, rfl⟩ := Option.map_eq_some_iff.mp found'
  split at first
  next both =>
    split at second
    next both' =>
      cases first
      cases second
      exact different (Prod.ext (both.1.trans both'.1.symm) same)
    next => cases second
  next => cases first

/-- A list of which each member has a counterpart. -/
theorem exists_forall₂ {α β : Type} {related : α → β → Prop} {list : List β}
    (each : ∀ b ∈ list, ∃ a, related a b) :
    ∃ others, List.Forall₂ related others list := by
  induction list with
  | nil => exact ⟨[], .nil⟩
  | cons b list induction =>
      obtain ⟨a, first⟩ := each b List.mem_cons_self
      obtain ⟨others, rest⟩ := induction fun other member =>
        each other (List.mem_cons_of_mem _ member)
      exact ⟨a :: others, .cons first rest⟩

theorem forall₂_mem_left {α β : Type} {related : α → β → Prop} {one : List α}
    {other : List β} (all : List.Forall₂ related one other) {a : α}
    (member : a ∈ one) : ∃ b ∈ other, related a b := by
  induction all with
  | nil => cases member
  | cons first rest induction =>
      rcases List.mem_cons.mp member with rfl | later
      · exact ⟨_, List.mem_cons_self, first⟩
      · obtain ⟨b, there, holds⟩ := induction later
        exact ⟨b, List.mem_cons_of_mem _ there, holds⟩

namespace Shelf

variable [DecidableEq ν] {shelf : Shelf ν K V} {map : K → Option V}
  {rows : AList fun _ : Key ν => Row ν} {conds : List (String × ν)}

/-- The rows that match are those of the entries that do. -/
theorem Keeps.listing {chosen : K → V → Prop} (keeps : shelf.Keeps map rows)
    (mine : ∀ {key row}, rows.lookup (shelf.table, key) = some row →
      row.Matches conds → shelf.mine key)
    (fits : ∀ {k v row}, shelf.Entry k v row →
      (row.Matches conds ↔ chosen k v)) :
    ∃ entries, Listing map chosen entries ∧
      List.Forall₂ (fun entry row => shelf.Entry entry.1 entry.2 row) entries
        ((matching rows shelf.table conds).map Prod.snd) := by
  have each : ∀ found ∈ matching rows shelf.table conds, ∃ entry : K × V,
      found.1 = shelf.place entry.1 ∧ map entry.1 = some entry.2 ∧
        shelf.Entry entry.1 entry.2 found.2 := by
    rintro ⟨key, row⟩ member
    obtain ⟨there, matched⟩ := mem_matching.mp member
    obtain ⟨k, v, place, is, entry⟩ := keeps.entry there (mine there matched)
    exact ⟨(k, v), place, is, entry⟩
  obtain ⟨entries, related⟩ := exists_forall₂ each
  refine ⟨entries, ⟨?_, ?_⟩, ?_⟩
  · have places : (entries.map Prod.fst).map shelf.place =
        (matching rows shelf.table conds).map Prod.fst := by
      rw [List.map_map, ← List.forall₂_eq_eq_eq, List.forall₂_map_left_iff,
        List.forall₂_map_right_iff]
      exact related.imp fun _ _ same => same.1.symm
    apply List.Nodup.of_map shelf.place
    rw [places]
    exact nodup_matching rows shelf.table conds
  · intro k v
    constructor
    · intro member
      obtain ⟨⟨key, row⟩, found, place, is, entry⟩ :=
        forall₂_mem_left related member
      exact ⟨is, (fits entry).mp (mem_matching.mp found).2⟩
    · rintro ⟨is, chosen⟩
      obtain ⟨row, there, entry⟩ := keeps.present is
      have found := mem_matching.mpr ⟨there, (fits entry).mpr chosen⟩
      obtain ⟨⟨k', v'⟩, member, place, is', _⟩ :=
        forall₂_mem_left (related.flip) found
      obtain rfl : k = k' := shelf.injective place
      obtain rfl : v = v' := Option.some.inj (is.symm.trans is')
      exact member
  · rw [List.forall₂_map_right_iff]
    exact related.imp fun _ _ same => same.2.2

end Shelf

end MiryadCore.Columns
