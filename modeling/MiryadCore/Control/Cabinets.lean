import MiryadCore.Control.Shelves

/-!
# Maps that share tables

The shelves of a cabinet keep their maps in the tables of one schema.  Several
may share a table, each with keys of its own, so that a statement that does
something to the map of one leaves the others as they are.
-/

namespace MiryadCore.Columns

variable {ν P : Type}

structure Cabinet (ν P : Type) where
  schema : Schema
  Index : P → Type
  Content : P → Type
  shelf : ∀ part, Shelf ν (Index part) (Content part)
  known : ∀ part, schema (shelf part).table = some (shelf part).keys
  apart : ∀ {part other key}, part ≠ other →
    (shelf part).table = (shelf other).table → (shelf part).mine key →
    ¬ (shelf other).mine key

namespace Cabinet

/-- The maps of all the parts. -/
abbrev Maps (cabinet : Cabinet ν P) : Type :=
  ∀ part, cabinet.Index part → Option (cabinet.Content part)

/-- The maps differ by an entry that is put. -/
structure Puts (cabinet : Cabinet ν P) (maps maps' : cabinet.Maps) (part : P)
    (k : cabinet.Index part) (v : cabinet.Content part) : Prop where
  here : maps' part k = some v
  beside : ∀ other, other ≠ k → maps' part other = maps part other
  others : ∀ other, other ≠ part → maps' other = maps other

/-- The maps differ by entries that are dropped. -/
structure Drops (cabinet : Cabinet ν P) (maps maps' : cabinet.Maps) (part : P)
    (goes : cabinet.Index part → Prop) : Prop where
  gone : ∀ k, goes k → maps' part k = none
  stays : ∀ k, ¬ goes k → maps' part k = maps part k
  others : ∀ other, other ≠ part → maps' other = maps other

variable [DecidableEq ν]

/-- The rows hold the maps, and each row is at its key. -/
structure Holds (cabinet : Cabinet ν P) (maps : cabinet.Maps)
    (rows : AList fun _ : Key ν => Row ν) : Prop where
  keeps : ∀ part, (cabinet.shelf part).Keeps (maps part) rows
  keyed : ∀ {key row}, rows.lookup key = some row →
    Keyed cabinet.schema key row

variable {cabinet : Cabinet ν P} {maps maps' : cabinet.Maps} {part : P}
  {k : cabinet.Index part} {v : cabinet.Content part}
  {rows rows' : AList fun _ : Key ν => Row ν} {values : List ν}
  {conds : List (String × ν)}

theorem Holds.congr (holds : cabinet.Holds maps rows)
    (same : ∀ key, rows'.lookup key = rows.lookup key) :
    cabinet.Holds maps rows' where
  keeps part := (holds.keeps part).frame fun key _ => same _
  keyed := by
    intro key row there
    rw [same] at there
    exact holds.keyed there

omit [DecidableEq ν] in
theorem Entry.keyed {row : Row ν}
    (entry : (cabinet.shelf part).Entry k v row) :
    Keyed cabinet.schema
      ((cabinet.shelf part).table, (cabinet.shelf part).place k) row :=
  ⟨_, cabinet.known part, Row.key_of_has.mpr entry.key⟩

/-- The one row that is written is that of the entry. -/
theorem Holds.put (holds : cabinet.Holds maps rows) {row : Row ν}
    (changed : Changed rows rows' [(((cabinet.shelf part).table,
      (cabinet.shelf part).place k), some row)])
    (entry : (cabinet.shelf part).Entry k v row)
    (puts : cabinet.Puts maps maps' part k v) : cabinet.Holds maps' rows' where
  keeps := by
    intro other
    by_cases here : other = part
    · subst here
      exact (holds.keeps other).put changed.single entry puts.here puts.beside
    · rw [puts.others other here]
      apply (holds.keeps other).apart changed
      intro key written member mine
      rw [List.mem_singleton, Prod.mk.injEq, Prod.mk.injEq] at member
      obtain ⟨⟨table, rfl⟩, _⟩ := member
      exact cabinet.apart here table mine ((cabinet.shelf part).own k)
  keyed := by
    intro key written there
    rw [changed.single key] at there
    split at there
    next same =>
      cases there
      rw [same]
      exact Entry.keyed entry
    next => exact holds.keyed there

/-- The statement is taken, and makes rows that hold the other maps. -/
def Takes (cabinet : Cabinet ν P) (statement : Statement ν)
    (rows : AList fun _ : Key ν => Row ν) (maps' : cabinet.Maps) : Prop :=
  ∃ writes, statement.writes cabinet.schema rows = some writes ∧
    ∀ rows', Changed rows rows' writes → cabinet.Holds maps' rows'

variable (part k v) in
theorem Holds.upsert (holds : cabinet.Holds maps rows)
    (cells : (cabinet.shelf part).cells v values)
    (puts : cabinet.Puts maps maps' part k v) :
    cabinet.Takes (.upsert (cabinet.shelf part).table
      ((cabinet.shelf part).keys ++ (cabinet.shelf part).others)
      ((cabinet.shelf part).place k ++ values) (cabinet.shelf part).keys
      (cabinet.shelf part).others) rows maps' := by
  obtain ⟨row, same, entry⟩ :=
    (holds.keeps part).upsert (cabinet.known part) cells
  exact ⟨_, same, fun rows' changed => holds.put changed entry puts⟩

variable (part k v) in
theorem Holds.insert (holds : cabinet.Holds maps rows)
    (cells : (cabinet.shelf part).cells v values) (new : maps part k = none)
    (puts : cabinet.Puts maps maps' part k v) :
    cabinet.Takes (.insert (cabinet.shelf part).table
      ((cabinet.shelf part).keys ++ (cabinet.shelf part).others)
      ((cabinet.shelf part).place k ++ values)) rows maps' := by
  obtain ⟨row, same, entry⟩ :=
    (holds.keeps part).insert (cabinet.known part) cells new
  exact ⟨_, same, fun rows' changed => holds.put changed entry puts⟩

variable (part k v) in
/-- An entry that says no more than that it is there. -/
theorem Holds.insertIgnore (holds : cabinet.Holds maps rows)
    (cells : (cabinet.shelf part).cells v values)
    (alike : ∀ other : cabinet.Content part, other = v)
    (puts : cabinet.Puts maps maps' part k v) :
    cabinet.Takes (.insertIgnore (cabinet.shelf part).table
      ((cabinet.shelf part).keys ++ (cabinet.shelf part).others)
      ((cabinet.shelf part).place k ++ values) (cabinet.shelf part).keys) rows
      maps' := by
  rcases Shelf.insertIgnore_writes (cabinet.known part) cells with
    ⟨row, same, entry⟩ | ⟨same, row, there⟩
  · exact ⟨_, same, fun rows' changed => holds.put changed entry puts⟩
  · obtain ⟨k', v', place, is, _⟩ :=
      (holds.keeps part).entry there ((cabinet.shelf part).own k)
    obtain rfl := (cabinet.shelf part).injective place
    have unchanged : maps' = maps := by
      funext other
      by_cases here : other = part
      · subst here
        funext at'
        by_cases self : at' = k
        · rw [self, puts.here, is, alike v']
        · exact puts.beside at' self
      · exact puts.others other here
    rw [unchanged]
    refine ⟨_, same, fun rows' changed => holds.congr ?_⟩
    intro key
    apply changed.kept
    intro row'
    exact List.not_mem_nil

variable (part) in
/-- The entries that conditions match go; no other part has a row that does. -/
theorem Holds.delete {goes : cabinet.Index part → Prop}
    (holds : cabinet.Holds maps rows)
    (fits : ∀ {k v row}, (cabinet.shelf part).Entry k v row →
      (row.Matches conds ↔ goes k))
    (misses : ∀ {other k v row}, other ≠ part →
      (cabinet.shelf other).table = (cabinet.shelf part).table →
      (cabinet.shelf other).Entry k v row → ¬ row.Matches conds)
    (drops : cabinet.Drops maps maps' part goes) :
    cabinet.Takes (.delete (cabinet.shelf part).table conds) rows maps' := by
  obtain ⟨writes, same⟩ : ∃ writes, (Statement.delete
      (cabinet.shelf part).table conds).writes cabinet.schema rows =
        some writes := by
    rw [Statement.writes, cabinet.known part]
    exact ⟨_, rfl⟩
  refine ⟨_, same, fun rows' changed => ⟨?_, ?_⟩⟩
  · intro other
    by_cases here : other = part
    · subst here
      exact (holds.keeps other).delete fits same changed drops.gone drops.stays
    · rw [drops.others other here]
      apply (holds.keeps other).apart changed
      apply (holds.keeps other).apart_delete _ same
      intro table k v row entry
      exact misses here table.symm entry
  · intro key row there
    rcases changed key with found | kept
    · obtain ⟨row', member, is⟩ := found
      rw [is, ((Statement.mem_writes_delete same).mp member).2.1] at there
      cases there
    · rw [kept.2] at there
      exact holds.keyed there

variable (part k) in
/-- The entry at a key goes. -/
theorem Holds.delete_key (holds : cabinet.Holds maps rows)
    (drops : cabinet.Drops maps maps' part (· = k)) :
    cabinet.Takes (.delete (cabinet.shelf part).table
      ((cabinet.shelf part).keys.zip ((cabinet.shelf part).place k))) rows
      maps' := by
  apply holds.delete part _ _ drops
  · intro k' v' row entry
    exact entry.matches_key k
  · intro other k' v' row different table entry matched
    have place := ((Entry.keyed entry).matches_iff (by
      rw [table]
      exact cabinet.known part) ((cabinet.shelf part).long k)).mp matched
    apply cabinet.apart different table ((cabinet.shelf other).own k')
    rw [show (cabinet.shelf other).place k' = _ from place]
    exact (cabinet.shelf part).own k

variable (part k v) in
/-- The entry at a key is changed. -/
theorem Holds.update_key {v' : cabinet.Content part}
    {changes : List (String × ν)} (holds : cabinet.Holds maps rows)
    (is : maps part k = some v)
    (assigned : ∀ {row}, (cabinet.shelf part).Entry k v row →
      (cabinet.shelf part).Entry k v' (row.assign changes))
    (puts : cabinet.Puts maps maps' part k v') :
    cabinet.Takes (.update (cabinet.shelf part).table changes
      ((cabinet.shelf part).keys.zip ((cabinet.shelf part).place k))) rows
      maps' := by
  obtain ⟨writes, same⟩ : ∃ writes, (Statement.update
      (cabinet.shelf part).table changes ((cabinet.shelf part).keys.zip
        ((cabinet.shelf part).place k))).writes cabinet.schema rows =
          some writes := by
    rw [Statement.writes, cabinet.known part]
    exact ⟨_, rfl⟩
  refine ⟨_, same, fun rows' changed => ?_⟩
  obtain ⟨row, there, entry⟩ := (holds.keeps part).present is
  have writes_iff : ∀ {key new}, (key, new) ∈ writes ↔
      (key, new) ∈ [(((cabinet.shelf part).table, (cabinet.shelf part).place k),
        some (row.assign changes))] := by
    intro key new
    rw [Statement.mem_writes_update same, List.mem_singleton, Prod.mk.injEq]
    constructor
    · rintro ⟨old, table, found, fits, rfl⟩
      obtain ⟨name, key⟩ := key
      obtain rfl : name = (cabinet.shelf part).table := table
      obtain rfl := ((holds.keyed found).matches_iff (cabinet.known part)
        ((cabinet.shelf part).long k)).mp fits
      rw [there] at found
      rw [Option.some.inj found]
      exact ⟨rfl, rfl⟩
    · rintro ⟨rfl, rfl⟩
      exact ⟨row, rfl, there, (entry.matches_key k).mpr rfl, rfl⟩
  refine holds.put ?_ (assigned entry) puts
  intro key
  rcases changed key with ⟨new, member, now⟩ | ⟨absent, kept⟩
  · exact Or.inl ⟨new, writes_iff.mp member, now⟩
  · exact Or.inr ⟨fun new member => absent new (writes_iff.mpr member), kept⟩

end Cabinet

end MiryadCore.Columns
