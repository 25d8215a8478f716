import MiryadCore.Matrix.BackupMarks

/-!
# What a turn does to the inbound sessions

A turn of a save or of a mark writes at most one row, in its transaction, and
the row has the flag of its pickle.
-/

namespace MiryadCore.Matrix.Crypto

open Columns ReadCommitted
open Users (DbErr)

variable {Content Sealed : Type} [DecidableEq Sealed]

namespace CryptoStore

section Trace

variable {store : CryptoStore Content Sealed} {turn : BackupTurn Sealed}
  {earlier : List (BackupTurn Sealed)} {tx task : ℕ}
  {key : Key (Value Sealed)}

theorem savedBy_cons_of_saves {content : Content}
    (is : store.saves turn = some (tx, key, content)) (other : ℕ)
    (key' : Key (Value Sealed)) :
    store.savedBy other key' (turn :: earlier) =
      if tx = other ∧ key = key' then some content
      else store.savedBy other key' earlier := by
  simp only [savedBy, is]

theorem savedBy_cons_of_none (is : store.saves turn = none) :
    store.savedBy tx key (turn :: earlier) = store.savedBy tx key earlier := by
  simp only [savedBy, is]

theorem lastSave_cons_of_commits (is : commits turn = some tx) :
    store.lastSave key (turn :: earlier) =
      (store.savedBy tx key earlier).or (store.lastSave key earlier) := by
  simp only [lastSave, is]

theorem lastSave_cons_of_none (is : commits turn = none) :
    store.lastSave key (turn :: earlier) = store.lastSave key earlier := by
  simp only [lastSave, is]

omit [DecidableEq Sealed] in
theorem request_of_commits (is : commits turn = some tx) :
    turn.request = .commit tx := by
  unfold commits at is
  split at is
  next => rw [Option.some.inj is]
  next => cases is

theorem lastSave_cons_of_not_overtaken
    (concluded : store.overtaken task key (turn :: earlier) = false)
    (silent : ¬ (turn.task = task ∧ reads turn = true)) :
    store.overtaken task key earlier = false ∧
      store.lastSave key (turn :: earlier) = store.lastSave key earlier := by
  simp only [overtaken, if_neg silent, Bool.or_eq_false_iff] at concluded
  refine ⟨concluded.2, ?_⟩
  cases is : commits turn with
  | none => exact lastSave_cons_of_none is
  | some tx =>
      rw [is, Option.any_some, Option.isSome_eq_false_iff,
        Option.isNone_iff_eq_none] at concluded
      rw [lastSave_cons_of_commits is, concluded.1, Option.none_or]

end Trace

section Rows

variable {store : CryptoStore Content Sealed} {row : Row (Value Sealed)}
  {pickle : InboundPickle Content} {sealed : Sealed} {backedUp : Bool}

omit [DecidableEq Sealed] in
theorem openInbound_encrypted
    (is : store.cipher.encryptValue (.inbound pickle) = .ok sealed) :
    store.openInbound sealed = .ok pickle := by
  simp only [openInbound, store.cipher.open_encrypted is]

omit [DecidableEq Sealed] in
theorem pickleOf_eq_some :
    store.pickleOf row = some pickle ↔ ∃ sealed,
      row "payload" = some (.blob sealed) ∧
        store.openInbound sealed = .ok pickle := by
  unfold pickleOf
  split
  next value is =>
    constructor
    · intro opens
      refine ⟨value, is, ?_⟩
      cases result : store.openInbound value with
      | ok found =>
          rw [result] at opens
          exact congrArg Except.ok (Option.some.inj opens)
      | error error =>
          rw [result] at opens
          cases opens
    · intro found
      obtain ⟨value', is', opens⟩ := found
      rw [is, Option.some.injEq, Value.blob.injEq] at is'
      rw [is', opens]
      rfl
  next other =>
    constructor
    · intro opens
      cases opens
    · intro found
      obtain ⟨value, is, _⟩ := found
      exact absurd is (other value)

omit [DecidableEq Sealed] in
theorem flagAgrees_of_sealed
    (payload : row "payload" = some (.blob sealed))
    (flag : row "backed_up" = some (.flag backedUp))
    (is : store.cipher.encryptValue (.inbound { pickle with backedUp }) =
      .ok sealed) :
    store.FlagAgrees row ∧ store.contentOf row = some pickle.content := by
  have opens : store.pickleOf row = some { pickle with backedUp } :=
    pickleOf_eq_some.mpr ⟨sealed, payload, openInbound_encrypted is⟩
  refine ⟨⟨_, opens, flag⟩, ?_⟩
  unfold contentOf
  rw [opens]
  rfl

theorem flagAgrees_upserted
    (rows : AList fun _ : Key (Value Sealed) => Row (Value Sealed))
    (key : Key (Value Sealed)) {updated : List String}
    (payload : row "payload" = some (.blob sealed))
    (flag : row "backed_up" = some (.flag backedUp))
    (is : store.cipher.encryptValue (.inbound { pickle with backedUp }) =
      .ok sealed)
    (updates : "payload" ∈ updated ∧ "backed_up" ∈ updated) :
    store.FlagAgrees (upserted rows updated key row) ∧
      store.contentOf (upserted rows updated key row) =
        some pickle.content := by
  apply flagAgrees_of_sealed _ _ is
  · rw [upserted_apply rows updates.1, payload]
  · rw [upserted_apply rows updates.2, flag]

end Rows

/-- Where the row that a task writes comes from: it is saved, or it was read
and is written back. -/
inductive Origin (store : CryptoStore Content Sealed)
    (stage : BackupStage Sealed) (turn : BackupTurn Sealed) (tx : ℕ)
    (key : List (Value Sealed)) (row : Row (Value Sealed)) : Prop where
  | saved (content : Content) (inside : stage = .saving tx)
      (saves : store.saves turn = some (tx, (INBOUND_TABLE, key), content))
      (has : store.contentOf row = some content)
  | read (rows : List (Row (Value Sealed))) (source : Row (Value Sealed))
      (roomId sessionId : String) (inside : stage = .marking tx rows)
      (member : source ∈ rows)
      (room : source "room_id" = some (.text roomId))
      (session : source "session_id" = some (.text sessionId))
      (here : key = [store.account, .text roomId, .text sessionId])
      (saves : store.saves turn = none)
      (marks : writesBack turn = some (INBOUND_TABLE, key))
      (has : store.contentOf row = store.contentOf source)

/-- What a turn of a task at a stage does to the inbound sessions. -/
inductive Effect (store : CryptoStore Content Sealed)
    (stage : BackupStage Sealed) (database after : Database Sealed)
    (turn : BackupTurn Sealed) : Prop where
  | still (saves : store.saves turn = none) (commits : commits turn = none)
      (rows : after.rows = database.rows)
      (pending : ∀ tx key, after.pending tx (INBOUND_TABLE, key) =
        database.pending tx (INBOUND_TABLE, key))
      (exclusive : database.Exclusive → after.Exclusive)
      (transactions : database.transactions ≤ after.transactions)
  | write (tx : ℕ) (key : List (Value Sealed)) (row : Row (Value Sealed))
      (origin : store.Origin stage turn tx key row)
      (commits : commits turn = none)
      (rows : after.rows = database.rows)
      (keyed : Keyed schema (INBOUND_TABLE, key) row)
      (flag : store.FlagAgrees row)
      (pending : ∀ other key', after.pending other (INBOUND_TABLE, key') =
        if other = tx ∧ key' = key then some (some row)
        else database.pending other (INBOUND_TABLE, key'))
      (exclusive : database.Exclusive → after.Exclusive)
      (transactions : after.transactions = database.transactions)
  | commit (tx : ℕ) (inside : stage.tx = some tx)
      (saves : store.saves turn = none) (commits : commits turn = some tx)
      (same : after = database.commit tx)
  | drop (tx : ℕ) (inside : stage.tx = some tx)
      (ends : turn.request = .commit tx ∨ turn.request = .rollback tx)
      (saves : store.saves turn = none) (commits : commits turn = none)
      (same : after = database.rollback tx)

section Effect

variable {store : CryptoStore Content Sealed} {stage : BackupStage Sealed}
  {database after : Database Sealed} {turn : BackupTurn Sealed}
  {tx task : ℕ} {statement : Statement (Value Sealed)}

theorem Effect.same (saves : store.saves turn = none)
    (silent : commits turn = none) :
    store.Effect stage database database turn :=
  .still saves silent rfl (fun _ _ => rfl) id le_rfl

/-- A statement on another table. -/
theorem effect_of_other (other : statement.table ≠ INBOUND_TABLE)
    (performed : statement.perform schema database tx = some after) :
    store.Effect stage database after
      ⟨task, database, .execute tx statement, .ok ()⟩ := by
  obtain ⟨writes, same, wrote⟩ := Statement.perform_eq_some performed
  apply Effect.still
  · cases statement with
    | upsert table columns values conflict updated =>
        exact if_neg other
    | insertIgnore table columns values conflict => rfl
    | insert table columns values => rfl
    | delete table conds => rfl
    | update table changes conds => rfl
  · rfl
  · exact wrote.rows
  · intro mover key
    by_cases mine : mover = tx
    · subst mine
      rcases wrote.written (INBOUND_TABLE, key) with found | kept
      · obtain ⟨row, member, _⟩ := found
        exact absurd (Statement.table_of_mem same member).symm other
      · exact kept.2
    · exact wrote.others mover _ mine
  · exact wrote.exclusive
  · exact Nat.le_of_eq wrote.transactions.symm

/-- The rows that a transaction sees are at their keys. -/
def ViewKeyed (database : Database Sealed) : Prop :=
  ∀ tx key row, (database.view tx).lookup (INBOUND_TABLE, key) = some row →
    Keyed schema (INBOUND_TABLE, key) row

/-- A statement of one write. -/
theorem Effect.of_write {key : List (Value Sealed)} {row : Row (Value Sealed)}
    {writes : List (Key (Value Sealed) × Option (Row (Value Sealed)))}
    (wrote : Wrote database after tx writes)
    (member : (((INBOUND_TABLE, key) : Key (Value Sealed)), some row) ∈ writes)
    (alone : ∀ key' written,
      (((INBOUND_TABLE, key') : Key (Value Sealed)), written) ∈ writes →
        key' = key ∧ written = some row)
    (origin : store.Origin stage turn tx key row)
    (silent : commits turn = none)
    (keyed : Keyed schema (INBOUND_TABLE, key) row)
    (flag : store.FlagAgrees row) :
    store.Effect stage database after turn := by
  refine .write tx key row origin silent wrote.rows keyed flag ?_
    wrote.exclusive wrote.transactions
  intro other key'
  by_cases mine : other = tx
  · subst mine
    rcases wrote.written (INBOUND_TABLE, key') with found | kept
    · obtain ⟨written, there, pending⟩ := found
      obtain ⟨rfl, rfl⟩ := alone key' written there
      rw [if_pos ⟨rfl, rfl⟩, pending]
    · obtain ⟨absent, pending⟩ := kept
      rw [pending, if_neg]
      intro same
      exact absent _ (same.2 ▸ member)
  · rw [if_neg fun same => mine same.1]
    exact wrote.others other _ mine

theorem effect_of_save (keyed : ViewKeyed database)
    (saves : store.Saves statement)
    (performed : statement.perform schema database tx = some after) :
    store.Effect (.saving tx) database after
      ⟨task, database, .execute tx statement, .ok ()⟩ := by
  obtain ⟨session, backedUp, sealed, is, rfl⟩ := saves
  obtain ⟨writes, same, wrote⟩ := Statement.perform_eq_some performed
  obtain ⟨key, row, brings, rfl⟩ := Statement.writes_upsert same
  obtain ⟨columns, keyedRow⟩ := keyed_brought brings
  have payload : row "payload" = some (.blob sealed) := by
    rw [columns]
    rfl
  have flag : row "backed_up" = some (.flag backedUp) := by
    rw [columns]
    rfl
  have agrees := fun updated updates =>
    @flagAgrees_upserted _ _ _ store row session.pickle sealed backedUp
      (database.view tx) (INBOUND_TABLE, key) updated payload flag is updates
  refine Effect.of_write wrote (List.mem_singleton.mpr rfl) ?_
    (.saved session.pickle.content rfl ?_ (agrees _ (by decide)).2) rfl
    (keyedRow.upserted (keyed tx key) _) (agrees _ (by decide)).1
  · intro key' written member
    rw [List.mem_singleton, Prod.mk.injEq, Prod.mk.injEq] at member
    exact ⟨member.1.2, member.2⟩
  · have content : store.contentOf row = some session.pickle.content :=
      (flagAgrees_of_sealed payload flag is).2
    simp only [saves, inboundUpsert, upsert, if_pos, brings, Option.bind_some,
      content, Option.map_some]

theorem effect_of_mark (keyed : ViewKeyed database)
    {rows : List (Row (Value Sealed))} {source : Row (Value Sealed)}
    (member : source ∈ rows) (marks : store.Marks source statement)
    (performed : statement.perform schema database tx = some after) :
    store.Effect (.marking tx rows) database after
      ⟨task, database, .execute tx statement, .ok ()⟩ := by
  obtain ⟨roomId, sessionId, sealed, pickle, backedUp, resealed, room, session,
    payload, opens, is, rfl⟩ := marks
  obtain ⟨writes, same, wrote⟩ := Statement.perform_eq_some performed
  have key_of : ∀ key written,
      (((INBOUND_TABLE, key) : Key (Value Sealed)), written) ∈ writes →
      key = [store.account, .text roomId, .text sessionId] := by
    intro key written there
    obtain ⟨old, _, found, fits, _⟩ :=
      (Statement.mem_writes_update same).mp there
    exact ((keyed tx key old found).matches_iff rfl rfl).mp fits
  by_cases writes_some : ∃ key written,
      (((INBOUND_TABLE, key) : Key (Value Sealed)), written) ∈ writes
  · obtain ⟨key, written, there⟩ := writes_some
    obtain ⟨old, _, found, fits, rfl⟩ :=
      (Statement.mem_writes_update same).mp there
    have here := key_of key _ there
    obtain ⟨flag, has⟩ := @flagAgrees_of_sealed _ _ store
      (old.assign [("backed_up", .flag backedUp), ("payload", .blob resealed)])
      pickle resealed backedUp rfl rfl is
    refine Effect.of_write wrote there ?_
      (.read rows source roomId sessionId rfl member room session here rfl ?_
        ?_) rfl ((keyed tx key old found).assign rfl ?_) flag
    · intro key' written' there'
      obtain ⟨old', _, found', _, rfl⟩ :=
        (Statement.mem_writes_update same).mp there'
      obtain rfl : key' = key := (key_of key' _ there').trans here.symm
      rw [found] at found'
      rw [Option.some.inj found']
      exact ⟨rfl, rfl⟩
    · rw [here]
      rfl
    · rw [has]
      unfold contentOf
      rw [pickleOf_eq_some.mpr ⟨sealed, payload, opens⟩]
      rfl
    · intro column named
      rcases List.mem_cons.mp named with rfl | named
      · rfl
      · rcases List.mem_cons.mp named with rfl | named
        · rfl
        · rw [List.mem_singleton.mp named]
          rfl
  · refine .still rfl rfl wrote.rows ?_ wrote.exclusive
      (Nat.le_of_eq wrote.transactions.symm)
    intro mover key
    by_cases mine : mover = tx
    · subst mine
      rcases wrote.written (INBOUND_TABLE, key) with found | kept
      · obtain ⟨written, there, _⟩ := found
        exact absurd ⟨key, written, there⟩ writes_some
      · exact kept.2
    · exact wrote.others mover _ mine

omit [DecidableEq Sealed] in
/-- A commit or a rollback is one of the transaction that is open. -/
theorem tx_of_end {request : Request Sealed}
    (allowed : store.backupProtocol.allows stage request)
    (ends : request = .commit tx ∨ request = .rollback tx) :
    stage.tx = some tx := by
  cases stage with
  | idle marks =>
      rcases ends with is | is
      · exact absurd allowed (is ▸ id)
      · exact absurd allowed (is ▸ id)
  | saving held =>
      rcases ends with is | is
      · subst is
        exact congrArg some (Eq.symm allowed)
      · subst is
        exact congrArg some (Eq.symm allowed)
  | marking held rows =>
      rcases ends with is | is
      · subst is
        exact congrArg some (Eq.symm allowed)
      · subst is
        exact congrArg some (Eq.symm allowed)
  | concluded =>
      rcases ends with is | is
      · exact absurd allowed (is ▸ id)
      · exact absurd allowed (is ▸ id)

/-- A request that fails. -/
theorem effect_of_fault {request : Request Sealed}
    (allowed : store.backupProtocol.allows stage request) (error : DbErr) :
    store.Effect stage database (abandoned database request)
      ⟨task, database, request, .error error⟩ := by
  cases request with
  | begin => exact .same rfl rfl
  | execute tx statement =>
      apply Effect.same _ rfl
      cases statement with
      | upsert table columns values conflict updated => rfl
      | insertIgnore table columns values conflict => rfl
      | insert table columns values => rfl
      | delete table conds => rfl
      | update table changes conds => rfl
  | single statement => exact .same rfl rfl
  | select tx selection => exact .same rfl rfl
  | maximum tx table column conds => exact .same rfl rfl
  | count table conds => exact .same rfl rfl
  | commit tx =>
      exact .drop tx (tx_of_end allowed (Or.inl rfl)) (Or.inl rfl) rfl rfl rfl
  | rollback tx =>
      exact .drop tx (tx_of_end allowed (Or.inr rfl)) (Or.inr rfl) rfl rfl rfl

theorem effect_of_execute (keyed : ViewKeyed database)
    (allowed : store.backupProtocol.allows stage (.execute tx statement))
    (performed : statement.perform schema database tx = some after) :
    store.Effect stage database after
      ⟨task, database, .execute tx statement, .ok ()⟩ := by
  cases stage with
  | idle marks => exact allowed.elim
  | saving held =>
      obtain ⟨rfl, either⟩ := allowed
      rcases either with other | saves
      · exact effect_of_other other performed
      · exact effect_of_save keyed saves performed
  | marking held rows =>
      obtain ⟨rfl, source, member, marks⟩ := allowed
      exact effect_of_mark keyed member marks performed
  | concluded => exact allowed.elim

theorem effect_of_turn (keyed : ViewKeyed database) {request : Request Sealed}
    (allowed : store.backupProtocol.allows stage request)
    (circumstances : Circumstances Sealed) :
    store.Effect stage database (serve circumstances database request).2
      ⟨task, database, request, (serve circumstances database request).1⟩ := by
  unfold serve
  cases circumstances.fault with
  | some error => exact effect_of_fault allowed error
  | none =>
      cases request with
      | begin =>
          exact .still rfl rfl rfl (fun _ _ => rfl) id (Nat.le_succ _)
      | execute tx statement =>
          simp only [perform]
          cases performed : statement.perform schema database tx with
          | none => exact effect_of_fault allowed refused
          | some after => exact effect_of_execute keyed allowed performed
      | single statement =>
          cases stage with
          | idle marks => exact allowed.elim
          | saving held => exact allowed.elim
          | marking held rows => exact allowed.elim
          | concluded => exact allowed.elim
      | select tx selection => exact .same rfl rfl
      | maximum tx table column conds => exact .same rfl rfl
      | count table conds => exact .same rfl rfl
      | commit tx =>
          exact .commit tx (tx_of_end allowed (Or.inl rfl)) rfl rfl rfl
      | rollback tx =>
          exact .drop tx (tx_of_end allowed (Or.inr rfl)) (Or.inr rfl) rfl rfl
            rfl

end Effect

end CryptoStore

end MiryadCore.Matrix.Crypto
