import Mathlib.Data.List.AList

/-!
# Rows under transactions that read what is committed

What a transaction has written is seen by itself alone until it commits.  A
row that it has written waits for its end, so that no other transaction has
written the same row.
-/

namespace MiryadCore.ReadCommitted

variable {κ ρ : Type} [DecidableEq κ]

/-- A row as a transaction has written it, or its deletion. -/
structure Write (κ ρ : Type) where
  tx : ℕ
  key : κ
  row : Option ρ

/-- The rows that are committed, and what the open transactions have written,
the latest first. -/
structure Store (κ ρ : Type) where
  rows : AList fun _ : κ => ρ
  writes : List (Write κ ρ)
  transactions : ℕ

def put (rows : AList fun _ : κ => ρ) (key : κ) :
    Option ρ → AList fun _ : κ => ρ
  | some row => rows.insert key row
  | none => rows.erase key

namespace Store

def empty : Store κ ρ :=
  { rows := ∅, writes := [], transactions := 0 }

/-- The last write of a row by a transaction. -/
def pending (store : Store κ ρ) (tx : ℕ) (key : κ) : Option (Option ρ) :=
  (store.writes.find? fun write => write.tx = tx ∧ write.key = key).map
    Write.row

/-- The rows that a transaction sees. -/
def view (store : Store κ ρ) (tx : ℕ) : AList fun _ : κ => ρ :=
  store.writes.foldr (fun write rows =>
    if write.tx = tx then put rows write.key write.row else rows) store.rows

/-- Another transaction has written the row. -/
def locked (store : Store κ ρ) (tx : ℕ) (key : κ) : Bool :=
  store.writes.any fun write => write.key = key && write.tx != tx

def start (store : Store κ ρ) : Store κ ρ :=
  { store with transactions := store.transactions + 1 }

def write (store : Store κ ρ) (tx : ℕ) (key : κ) (row : Option ρ) :
    Store κ ρ :=
  { store with writes := { tx, key, row } :: store.writes }

def rollback (store : Store κ ρ) (tx : ℕ) : Store κ ρ :=
  { store with writes := store.writes.filter fun write => write.tx ≠ tx }

def commit (store : Store κ ρ) (tx : ℕ) : Store κ ρ :=
  { store.rollback tx with rows := store.view tx }

/-- No two transactions have written the same row. -/
def Exclusive (store : Store κ ρ) : Prop :=
  ∀ write ∈ store.writes, ∀ other ∈ store.writes,
    write.key = other.key → write.tx = other.tx

variable {store : Store κ ρ} {tx other : ℕ} {key : κ}

theorem lookup_put (rows : AList fun _ : κ => ρ) (changed key : κ)
    (row : Option ρ) :
    (put rows changed row).lookup key =
      if key = changed then row else rows.lookup key := by
  by_cases same : key = changed
  · subst same
    rw [if_pos rfl]
    cases row with
    | none => exact AList.lookup_erase key rows
    | some row => exact AList.lookup_insert rows
  · rw [if_neg same]
    cases row with
    | none => exact AList.lookup_erase_ne same
    | some row => exact AList.lookup_insert_ne same

theorem lookup_view (store : Store κ ρ) (tx : ℕ) (key : κ) :
    (store.view tx).lookup key =
      (store.pending tx key).getD (store.rows.lookup key) := by
  obtain ⟨rows, writes, transactions⟩ := store
  simp only [view, pending]
  induction writes with
  | nil => rfl
  | cons latest writes induction =>
      rw [List.foldr_cons, List.find?_cons]
      by_cases mine : latest.tx = tx
      · rw [if_pos mine, lookup_put]
        by_cases here : latest.key = key
        · simp [mine, here]
        · rw [if_neg (Ne.symm here), induction]
          simp [here]
      · rw [if_neg mine, induction]
        simp [mine]

omit [DecidableEq κ] in
@[simp]
theorem rows_start (store : Store κ ρ) : store.start.rows = store.rows :=
  rfl

@[simp]
theorem pending_start (store : Store κ ρ) :
    store.start.pending tx key = store.pending tx key :=
  rfl

omit [DecidableEq κ] in
@[simp]
theorem rows_write (store : Store κ ρ) (tx : ℕ) (key : κ) (row : Option ρ) :
    (store.write tx key row).rows = store.rows :=
  rfl

theorem pending_write (store : Store κ ρ) (tx : ℕ) (changed : κ)
    (row : Option ρ) (other : ℕ) (key : κ) :
    (store.write tx changed row).pending other key =
      if tx = other ∧ changed = key then some row
      else store.pending other key := by
  unfold write pending
  rw [List.find?_cons]
  by_cases here : tx = other ∧ changed = key
  · simp [here]
  · simp only [here, decide_false, if_false]

theorem pending_rollback (store : Store κ ρ) (tx other : ℕ) (key : κ) :
    (store.rollback tx).pending other key =
      if other = tx then none else store.pending other key := by
  unfold rollback pending
  rw [List.find?_filter]
  by_cases same : other = tx
  · subst same
    rw [if_pos rfl, Option.map_eq_none_iff, List.find?_eq_none]
    intro write _ both
    simp only [decide_not, Bool.not_eq_true', decide_eq_false_iff_not,
      decide_eq_true_eq] at both
    exact both.1 both.2.1
  · rw [if_neg same]
    congr 2
    funext write
    rw [Bool.eq_iff_iff]
    simp only [decide_not, Bool.not_eq_true', decide_eq_false_iff_not,
      decide_eq_true_eq]
    constructor
    · exact fun both => both.2
    · intro mine
      exact ⟨fun gone => same (mine.1.symm.trans gone), mine⟩

omit [DecidableEq κ] in
@[simp]
theorem rows_rollback (store : Store κ ρ) (tx : ℕ) :
    (store.rollback tx).rows = store.rows :=
  rfl

theorem lookup_commit (store : Store κ ρ) (tx : ℕ) (key : κ) :
    (store.commit tx).rows.lookup key =
      (store.pending tx key).getD (store.rows.lookup key) :=
  lookup_view store tx key

theorem pending_commit (store : Store κ ρ) (tx other : ℕ) (key : κ) :
    (store.commit tx).pending other key =
      if other = tx then none else store.pending other key :=
  pending_rollback store tx other key

theorem mem_of_pending {row : Option ρ}
    (written : store.pending tx key = some row) :
    ∃ write ∈ store.writes, write.tx = tx ∧ write.key = key ∧
      write.row = row := by
  obtain ⟨write, found, same⟩ := Option.map_eq_some_iff.mp written
  have both := List.find?_some found
  rw [decide_eq_true_eq] at both
  exact ⟨write, List.mem_of_find?_eq_some found, both.1, both.2, same⟩

theorem Exclusive.pending (exclusive : store.Exclusive) {row row' : Option ρ}
    (written : store.pending tx key = some row)
    (written' : store.pending other key = some row') : tx = other := by
  obtain ⟨write, member, mine, here, _⟩ := mem_of_pending written
  obtain ⟨write', member', theirs, there, _⟩ := mem_of_pending written'
  rw [← mine, ← theirs]
  exact exclusive write member write' member' (here.trans there.symm)

theorem Exclusive.write (exclusive : store.Exclusive)
    (free : store.locked tx key = false) (row : Option ρ) :
    (store.write tx key row).Exclusive := by
  have mine : ∀ write ∈ store.writes, write.key = key → write.tx = tx := by
    intro write member here
    simp only [locked, List.any_eq_false, Bool.and_eq_true, decide_eq_true_eq,
      bne_iff_ne, ne_eq, not_and, not_not] at free
    exact free write member here
  intro write member other member' same
  rcases List.mem_cons.mp member with new | old
  · rcases List.mem_cons.mp member' with new' | old'
    · rw [new, new']
    · rw [new] at same ⊢
      exact (mine other old' same.symm).symm
  · rcases List.mem_cons.mp member' with new' | old'
    · rw [new'] at same ⊢
      exact mine write old same
    · exact exclusive write old other old' same

omit [DecidableEq κ] in
theorem Exclusive.rollback (exclusive : store.Exclusive) (tx : ℕ) :
    (store.rollback tx).Exclusive := by
  intro write member other member' same
  exact exclusive write (List.mem_of_mem_filter member) other
    (List.mem_of_mem_filter member') same

theorem Exclusive.commit (exclusive : store.Exclusive) (tx : ℕ) :
    (store.commit tx).Exclusive :=
  exclusive.rollback tx

end Store

end MiryadCore.ReadCommitted
