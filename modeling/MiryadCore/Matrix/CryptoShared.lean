import MiryadCore.Control.Parties
import MiryadCore.Matrix.CryptoTables

/-!
# The database that the accounts share

Each account has one call under way at a time.  Between two of its requests,
the calls of the other accounts may make any of theirs; none touches a row of
the account, or a transaction that it has begun.
-/

namespace MiryadCore.Matrix.Crypto

open Columns
open Users (DbErr)

variable {Content Sealed : Type}

/-- The database, and the account whose call has begun each transaction. -/
structure Shared (Sealed : Type) where
  database : Database Sealed
  holder : ℕ → Option String

/-- The transaction that a request has begun. -/
def begins : (asked : Request Sealed) → Answer asked → Option ℕ
  | .begin, .ok tx => some tx
  | _, _ => none

/-- The key is one of the account. -/
def OfAccount (accountKey : String) (key : Key (Value Sealed)) : Prop :=
  key.2.head? = some (.text accountKey)

variable [DecidableEq Sealed]

/-- What the service does for the call of an account. -/
def serveTo (accountKey : String) : Script.Service (Request Sealed) Answer
    (Circumstances Sealed) (Shared Sealed) :=
  fun circumstances shared asked =>
    let answered := serve circumstances shared.database asked
    (answered.1,
      { database := answered.2
        holder := fun tx =>
          if begins asked answered.1 = some tx then some accountKey
          else shared.holder tx })

/-- Each row is at its key, and what a transaction has written is of the
account that has begun it. -/
structure Sound (shared : Shared Sealed) : Prop where
  keyed : ∀ {key row}, shared.database.rows.lookup key = some row →
    Keyed schema key row
  written : ∀ {tx key row}, shared.database.pending tx key = some (some row) →
    Keyed schema key row
  held : ∀ {tx key row}, shared.database.pending tx key = some row →
    ∃ accountKey, shared.holder tx = some accountKey ∧ OfAccount accountKey key
  fresh : ∀ {tx}, shared.database.transactions ≤ tx → shared.holder tx = none

/-- What the others leave of an account. -/
structure Relies (accountKey : String) (before after : Shared Sealed) :
    Prop where
  sound : Sound after
  rows : ∀ {key}, OfAccount accountKey key →
    after.database.rows.lookup key = before.database.rows.lookup key
  holder : ∀ {tx}, after.holder tx = some accountKey ↔
    before.holder tx = some accountKey
  pending : ∀ {tx}, before.holder tx = some accountKey → ∀ key,
    after.database.pending tx key = before.database.pending tx key

/-- What a request of an account leaves of the others. -/
structure Guarantees (accountKey : String) (before after : Shared Sealed) :
    Prop where
  sound : Sound after
  rows : ∀ {key}, ¬ OfAccount accountKey key →
    after.database.rows.lookup key = before.database.rows.lookup key
  holder : ∀ tx, after.holder tx = before.holder tx ∨
    before.holder tx = none ∧ after.holder tx = some accountKey
  pending : ∀ {tx}, after.holder tx ≠ some accountKey → ∀ key,
    after.database.pending tx key = before.database.pending tx key

theorem Guarantees.beside {one other : String} {before after : Shared Sealed}
    (different : other ≠ one) (keeps : Guarantees other before after) :
    Relies one before after := by
  have holder : ∀ {tx}, after.holder tx = some one ↔
      before.holder tx = some one := by
    intro tx
    rcases keeps.holder tx with same | ⟨none, taken⟩
    · rw [same]
    · rw [none, taken]
      constructor
      · intro same
        exact absurd (Option.some.inj same) different
      · intro same
        cases same
  refine ⟨keeps.sound, ?_, holder, ?_⟩
  · intro key mine
    apply keeps.rows
    intro theirs
    rw [OfAccount, mine, Option.some.injEq] at theirs
    exact different (Value.text.inj theirs).symm
  · intro tx mine key
    apply keeps.pending
    rw [holder.mpr mine]
    intro same
    exact different (Option.some.inj same).symm

/-- The accounts beside each other. -/
def pact : Pact String (Shared Sealed) where
  rely accountKey before after := Sound before → Relies accountKey before after
  guar accountKey before after :=
    Sound before → Guarantees accountKey before after
  refl _ _ sound := ⟨sound, fun _ => rfl, Iff.rfl, fun _ _ => rfl⟩
  trans := by
    intro accountKey a b c first second sound
    have one := first sound
    have other := second one.sound
    refine ⟨other.sound, ?_, other.holder.trans one.holder, ?_⟩
    · intro key mine
      exact (other.rows mine).trans (one.rows mine)
    · intro tx mine key
      exact (other.pending (one.holder.mpr mine) key).trans
        (one.pending mine key)
  beside different keeps sound := (keeps sound).beside different

/-- What the account has is left as it is. -/
def Stable (accountKey : String) (holds : Shared Sealed → Prop) : Prop :=
  ∀ before after, holds before → pact.rely accountKey before after →
    holds after

/-- The circumstances of a request, of which the faults are such. -/
abbrev Conditions (Sealed : Type) (faults : DbErr → Prop) : Type :=
  { circumstances : Circumstances Sealed //
    ∀ cause, circumstances.fault = some cause → faults cause }

/-- What the code of a call does beside the calls of the other accounts. -/
abbrev Does {α : Type} (accountKey : String) (faults : DbErr → Prop)
    (code : StoreCode Sealed α) (post : α → Shared Sealed → Prop)
    (err : StoreError → Shared Sealed → Prop) : Shared Sealed → Prop :=
  Query.Meets (fun conditions : Conditions Sealed faults =>
      serveTo accountKey conditions.val)
    (pact.rely accountKey) (pact.guar accountKey) code post err

section Requests

variable {accountKey : String} {faults : DbErr → Prop}
  {shared : Shared Sealed}

theorem does_request {asked : Request Sealed} {pre : Shared Sealed → Prop}
    {post : asked.Reply → Shared Sealed → Prop}
    {err : StoreError → Shared Sealed → Prop} (stable : Stable accountKey pre)
    (replies : ∀ reply, Stable accountKey (post reply))
    (fails : ∀ error, Stable accountKey (err error))
    (keeps : ∀ {shared} (conditions : Conditions Sealed faults), pre shared →
      pact.guar accountKey shared
        (serveTo accountKey conditions.val shared asked).2)
    (replied : ∀ {shared} (conditions : Conditions Sealed faults) {reply after},
      pre shared → serveTo accountKey conditions.val shared asked =
        (.ok reply, after) → post reply after)
    (failed : ∀ {shared} (conditions : Conditions Sealed faults) {error after},
      pre shared → serveTo accountKey conditions.val shared asked =
        (.error error, after) → err (.db error) after)
    (holds : pre shared) :
    Does accountKey faults (request asked) post err shared := by
  intro before between conditions
  have found := stable _ _ holds between
  refine ⟨keeps conditions found, ?_⟩
  dsimp only
  cases answered : serveTo accountKey conditions.val before asked with
  | mk answer after =>
      intro later more
      cases answer with
      | ok reply =>
          exact replies reply _ _ (replied conditions found answered) more
      | error error =>
          exact fails _ _ _ (failed conditions found answered) more

theorem does_ite {α : Type} {condition : Prop} [Decidable condition]
    {one other : StoreCode Sealed α} {post : α → Shared Sealed → Prop}
    {err : StoreError → Shared Sealed → Prop}
    (first : condition → Does accountKey faults one post err shared)
    (second : ¬ condition → Does accountKey faults other post err shared) :
    Does accountKey faults (if condition then one else other) post err
      shared := by
  by_cases holds : condition
  · rw [if_pos holds]
    exact first holds
  · rw [if_neg holds]
    exact second holds

/-- A request is performed, or a fault has it fail. -/
theorem serveTo_cases {conditions : Conditions Sealed faults}
    {asked : Request Sealed} {answer : Answer asked} {after : Shared Sealed}
    (answered : serveTo accountKey conditions.val shared asked =
      (answer, after)) :
    (perform conditions.val shared.database asked = (answer, after.database) ∧
      after.holder = fun tx => if begins asked answer = some tx then
        some accountKey else shared.holder tx) ∨
    (∃ cause, faults cause ∧ answer = .error cause) ∧
      after = ⟨abandoned shared.database asked, shared.holder⟩ := by
  unfold serveTo serve at answered
  cases fault : conditions.val.fault with
  | some cause =>
      rw [fault] at answered
      cases answered
      refine Or.inr ⟨⟨cause, conditions.property cause fault, rfl⟩, ?_⟩
      have none : begins asked (.error cause) = none := by
        cases asked <;> rfl
      simp [none]
  | none =>
      rw [fault] at answered
      cases answered
      exact Or.inl ⟨rfl, rfl⟩

/-- A request that begins no transaction. -/
theorem does_quiet {asked : Request Sealed} {pre : Shared Sealed → Prop}
    {post : asked.Reply → Shared Sealed → Prop}
    {err : StoreError → Shared Sealed → Prop} (stable : Stable accountKey pre)
    (replies : ∀ reply, Stable accountKey (post reply))
    (fails : ∀ error, Stable accountKey (err error))
    (quiet : ∀ answer, begins asked answer = none)
    (performs : ∀ {shared circumstances answer database}, pre shared →
      perform circumstances shared.database asked = (answer, database) →
        Guarantees accountKey shared ⟨database, shared.holder⟩ ∧
        match answer with
        | .ok reply => post reply ⟨database, shared.holder⟩
        | .error error => err (.db error) ⟨database, shared.holder⟩)
    (abandons : ∀ {shared cause}, pre shared → faults cause →
      Guarantees accountKey shared
          ⟨abandoned shared.database asked, shared.holder⟩ ∧
        err (.db cause) ⟨abandoned shared.database asked, shared.holder⟩)
    (holds : pre shared) :
    Does accountKey faults (request asked) post err shared := by
  have both : ∀ {shared} (conditions : Conditions Sealed faults) {answer after},
      pre shared → serveTo accountKey conditions.val shared asked =
        (answer, after) →
      Guarantees accountKey shared after ∧
        match answer with
        | .ok reply => post reply after
        | .error error => err (.db error) after := by
    intro shared conditions answer after found answered
    rcases serveTo_cases answered with
      ⟨performed, holder⟩ | ⟨⟨cause, fault, is⟩, same⟩
    · have kept : after = ⟨after.database, shared.holder⟩ := by
        obtain ⟨database, holder'⟩ := after
        dsimp only at holder
        rw [holder]
        simp [quiet]
      rw [kept]
      exact performs found performed
    · rw [is, same]
      exact abandons found fault
  refine does_request stable replies fails ?_ ?_ ?_ holds
  · intro shared conditions found _
    exact (both conditions found rfl).1
  · intro shared conditions reply after found answered
    exact (both conditions found answered).2
  · intro shared conditions error after found answered
    exact (both conditions found answered).2

end Requests

/-- What the statement brings, or asks for, is of the account. -/
def Scoped (accountKey : String) : Statement (Value Sealed) → Prop
  | .upsert _ columns values _ _ | .insertIgnore _ columns values _
  | .insert _ columns values =>
      columns.head? = some "account_key" ∧
        values.head? = some (.text accountKey)
  | .delete _ conds | .update _ _ conds =>
      ("account_key", .text accountKey) ∈ conds

section Scoped

variable {accountKey : String}
  {rows : AList fun _ : Key (Value Sealed) => Row (Value Sealed)}
  {writes : List (Key (Value Sealed) × Option (Row (Value Sealed)))}

omit [DecidableEq Sealed] in
theorem ofAccount_brought {table : String} {columns : List String}
    {values key : List (Value Sealed)} {row : Row (Value Sealed)}
    (brings : brought schema table columns values = some (key, row))
    (ours : columns.head? = some "account_key" ∧
      values.head? = some (.text accountKey)) :
    OfAccount accountKey (table, key) := by
  obtain ⟨rfl, keyed⟩ := keyed_brought brings
  apply head_of_account keyed
  obtain ⟨column, _, rfl⟩ := List.head?_eq_some_iff.mp ours.1
  obtain ⟨value, _, rfl⟩ := List.head?_eq_some_iff.mp ours.2
  simp [Row.ofValues]

/-- The rows that it writes are of the account. -/
theorem Scoped.ofAccount {statement : Statement (Value Sealed)}
    (ours : Scoped accountKey statement)
    (keyed : ∀ {key row}, rows.lookup key = some row → Keyed schema key row)
    (same : statement.writes schema rows = some writes)
    {key : Key (Value Sealed)} {row : Option (Row (Value Sealed))}
    (member : (key, row) ∈ writes) : OfAccount accountKey key := by
  cases statement with
  | upsert table columns values conflict updated =>
      obtain ⟨_, _, brings, rfl⟩ := Statement.writes_upsert same
      rw [List.mem_singleton, Prod.mk.injEq] at member
      rw [member.1]
      exact ofAccount_brought brings ours
  | insertIgnore table columns values conflict =>
      simp only [Statement.writes] at same
      split at same
      next =>
        obtain ⟨⟨at', new⟩, brings, rfl⟩ := Option.map_eq_some_iff.mp same
        dsimp only at member
        split at member
        next =>
          rw [List.mem_singleton, Prod.mk.injEq] at member
          rw [member.1]
          exact ofAccount_brought brings ours
        next => cases member
      next => cases same
  | insert table columns values =>
      obtain ⟨⟨at', new⟩, brings, rest⟩ := Option.bind_eq_some_iff.mp same
      dsimp only at rest
      split at rest
      next =>
        cases rest
        rw [List.mem_singleton, Prod.mk.injEq] at member
        rw [member.1]
        exact ofAccount_brought brings ours
      next => cases rest
  | delete table conds =>
      obtain ⟨_, _, _, there, fits⟩ :=
        (Statement.mem_writes_delete same).mp member
      exact head_of_account (keyed there) (fits _ ours)
  | update table changes conds =>
      obtain ⟨_, _, there, fits, _⟩ :=
        (Statement.mem_writes_update same).mp member
      exact head_of_account (keyed there) (fits _ ours)

end Scoped

section Account

variable (store : CryptoStore Content Sealed)

/-- The database holds the record of the account, whose transactions have all
ended. -/
structure Stored (record : Record Content Sealed) (shared : Shared Sealed) :
    Prop where
  sound : Sound shared
  holds : store.cabinet.Holds record.drawers shared.database.rows
  idle : ∀ {tx}, shared.holder tx = some store.accountKey → ∀ key,
    shared.database.pending tx key = none

/-- One transaction of the account is under way. -/
structure Begun (before : Record Content Sealed) (tx : ℕ)
    (shared : Shared Sealed) : Prop where
  sound : Sound shared
  holds : store.cabinet.Holds before.drawers shared.database.rows
  holder : shared.holder tx = some store.accountKey
  others : ∀ {other}, other ≠ tx →
    shared.holder other = some store.accountKey → ∀ key,
      shared.database.pending other key = none

/-- The transaction sees a record that is not committed. -/
structure Inside (before record : Record Content Sealed) (tx : ℕ)
    (shared : Shared Sealed) : Prop extends Begun store before tx shared where
  sees : store.cabinet.Holds record.drawers (shared.database.view tx)

variable {store} {before record : Record Content Sealed} {tx : ℕ}
  {shared : Shared Sealed}
  {rows rows' : AList fun _ : Key (Value Sealed) => Row (Value Sealed)}

theorem Sound.keyed_view (sound : Sound shared) {key : Key (Value Sealed)}
    {row : Row (Value Sealed)}
    (there : (shared.database.view tx).lookup key = some row) :
    Keyed schema key row := by
  rw [ReadCommitted.Store.lookup_view] at there
  cases pending : shared.database.pending tx key with
  | none =>
      rw [pending] at there
      exact sound.keyed there
  | some written =>
      rw [pending, Option.getD_some] at there
      rw [there] at pending
      exact sound.written pending

theorem holds_of_same (holds : store.cabinet.Holds record.drawers rows)
    (keyed : ∀ {key row}, rows'.lookup key = some row → Keyed schema key row)
    (same : ∀ {key}, OfAccount store.accountKey key →
      rows'.lookup key = rows.lookup key) :
    store.cabinet.Holds record.drawers rows' where
  keeps drawer := (holds.keeps drawer).frame fun _ mine =>
    same (mine_account store mine)
  keyed := keyed

theorem stored_stable : Stable store.accountKey (Stored store record) := by
  intro earlier after stored between
  have kept := between stored.sound
  refine ⟨kept.sound, holds_of_same stored.holds kept.sound.keyed kept.rows, ?_⟩
  intro tx mine key
  rw [kept.pending (kept.holder.mp mine)]
  exact stored.idle (kept.holder.mp mine) key

theorem begun_stable : Stable store.accountKey (Begun store before tx) := by
  intro earlier after begun between
  have kept := between begun.sound
  refine ⟨kept.sound, holds_of_same begun.holds kept.sound.keyed kept.rows,
    kept.holder.mpr begun.holder, ?_⟩
  intro other different mine key
  rw [kept.pending (kept.holder.mp mine)]
  exact begun.others different (kept.holder.mp mine) key

theorem inside_stable :
    Stable store.accountKey (Inside store before record tx) := by
  intro earlier after inside between
  have kept := between inside.sound
  refine ⟨begun_stable _ _ inside.toBegun between,
    holds_of_same inside.sees kept.sound.keyed_view ?_⟩
  intro key mine
  rw [ReadCommitted.Store.lookup_view, ReadCommitted.Store.lookup_view,
    kept.rows mine, kept.pending inside.holder]

end Account

section Requests

variable {store : CryptoStore Content Sealed} {faults : DbErr → Prop}
  {before record record' : Record Content Sealed} {tx : ℕ}
  {shared : Shared Sealed}

theorem Sound.guarantees (sound : Sound shared) :
    Guarantees store.accountKey shared shared :=
  ⟨sound, fun _ => rfl, fun _ => Or.inl rfl, fun _ _ => rfl⟩

theorem Sound.pending_eq_none (sound : Sound shared)
    (unheld : shared.holder tx = none) (key : Key (Value Sealed)) :
    shared.database.pending tx key = none := by
  cases pending : shared.database.pending tx key with
  | none => rfl
  | some row =>
      obtain ⟨_, held, _⟩ := sound.held pending
      rw [unheld] at held
      cases held

/-- The shared state once the account has begun a transaction. -/
def Shared.taken (shared : Shared Sealed) (accountKey : String) :
    Shared Sealed where
  database := shared.database.start
  holder := fun tx =>
    if some shared.database.transactions = some tx then some accountKey
    else shared.holder tx

theorem Sound.taken (sound : Sound shared) (accountKey : String) :
    Guarantees accountKey shared (shared.taken accountKey) := by
  have unheld := sound.fresh (le_refl shared.database.transactions)
  have holder : ∀ tx, tx ≠ shared.database.transactions →
      (shared.taken accountKey).holder tx = shared.holder tx := by
    intro tx different
    exact if_neg fun same => different (Option.some.inj same).symm
  refine ⟨⟨sound.keyed, sound.written, ?_, ?_⟩, fun _ => rfl, ?_,
    fun _ _ => rfl⟩
  · intro tx key row pending
    obtain ⟨other, held, ours⟩ := sound.held pending
    refine ⟨other, (holder tx ?_).trans held, ours⟩
    rintro rfl
    rw [unheld] at held
    cases held
  · intro tx later
    have above : shared.database.transactions < tx := later
    rw [holder tx above.ne']
    exact sound.fresh above.le
  · intro tx
    by_cases new : tx = shared.database.transactions
    · subst new
      exact Or.inr ⟨unheld, if_pos rfl⟩
    · exact Or.inl (holder tx new)

theorem Stored.taken (stored : Stored store record shared) :
    Inside store record record shared.database.transactions
      (shared.taken store.accountKey) := by
  have unheld := stored.sound.fresh (le_refl shared.database.transactions)
  have none := stored.sound.pending_eq_none unheld
  have sound := (stored.sound.taken store.accountKey).sound
  refine ⟨⟨sound, stored.holds, if_pos rfl, ?_⟩,
    holds_of_same stored.holds sound.keyed_view ?_⟩
  · intro other different mine key
    have held : shared.holder other = some store.accountKey := by
      rw [← mine]
      exact (if_neg fun same => different (Option.some.inj same).symm).symm
    exact stored.idle held key
  · intro key _
    have same : shared.database.start.pending shared.database.transactions key =
        .none := none key
    rw [ReadCommitted.Store.lookup_view]
    change (shared.database.start.pending _ key).getD _ = _
    rw [same]
    rfl

/-- What a fault of the database has a call fail with. -/
def Faulty (faults : DbErr → Prop) (error : StoreError) : Prop :=
  ∃ cause, faults cause ∧ error = .db cause

theorem does_begin (stored : Stored store record shared) :
    Does store.accountKey faults (request .begin)
      (fun tx after => Inside store record record tx after)
      (fun error after => Faulty faults error ∧ Stored store record after)
      shared := by
  refine does_request stored_stable (fun _ => inside_stable) ?_ ?_ ?_ ?_ stored
  · intro error before after holds between
    exact ⟨holds.1, stored_stable _ _ holds.2 between⟩
  · intro shared conditions stored sound
    unfold serveTo serve
    cases conditions.val.fault with
    | some cause => exact sound.guarantees
    | none => exact sound.taken store.accountKey
  · intro shared conditions tx after stored answered
    rcases serveTo_cases answered with ⟨performed, holder⟩ | ⟨⟨_, _, no⟩, _⟩
    · obtain ⟨database, holder'⟩ := after
      cases performed
      have same : holder' = (shared.taken store.accountKey).holder := holder
      subst same
      exact stored.taken
    · cases no
  · intro shared conditions error after stored answered
    rcases serveTo_cases answered with ⟨performed, _⟩ | ⟨⟨_, fault, is⟩, rfl⟩
    · cases performed
    · cases is
      exact ⟨⟨_, fault, rfl⟩, stored⟩

variable (store) in
/-- The statement is of the account, and does to the tables what leads from
one record to the other. -/
structure Moves (statement : Statement (Value Sealed))
    (record record' : Record Content Sealed) : Prop where
  ours : Scoped store.accountKey statement
  takes : ∀ {rows}, store.cabinet.Holds record.drawers rows →
    store.cabinet.Takes statement rows record'.drawers

/-- Nothing of another account is in the way of a statement. -/
theorem Moves.perform {statement : Statement (Value Sealed)}
    (moves : Moves store statement record record')
    {tables : Database Sealed}
    (sees : store.cabinet.Holds record.drawers (tables.view tx))
    (alone : ∀ {key}, OfAccount store.accountKey key → ∀ other, other ≠ tx →
      tables.pending other key = none) :
    ∃ writes after, statement.perform schema tables tx = some after ∧
      Wrote tables after tx writes ∧
      (∀ {key row}, (key, row) ∈ writes → OfAccount store.accountKey key) ∧
      store.cabinet.Holds record'.drawers (after.view tx) := by
  obtain ⟨writes, same, holds⟩ := moves.takes sees
  have ours : ∀ {key row}, (key, row) ∈ writes →
      OfAccount store.accountKey key :=
    moves.ours.ofAccount sees.keyed same
  have free : (writes.any fun write => tables.locked tx write.1) = false := by
    apply List.any_eq_false.mpr
    rintro ⟨key, row⟩ member
    rw [Bool.not_eq_true]
    exact locked_eq_false (alone (ours member))
  obtain ⟨after, performed⟩ : ∃ after,
      statement.perform schema tables tx = some after := by
    rw [Statement.perform, show statement.writes schema (tables.view tx) =
      some writes from same, Option.bind_some, free]
    exact ⟨_, rfl⟩
  obtain ⟨writes', same', wrote⟩ := Statement.perform_eq_some performed
  obtain rfl := Option.some.inj (same.symm.trans same')
  exact ⟨writes, after, performed, wrote, ours, holds _ wrote.changed⟩

theorem Begun.alone (begun : Begun store before tx shared)
    {key : Key (Value Sealed)} (mine : OfAccount store.accountKey key)
    (other : ℕ) (different : other ≠ tx) :
    shared.database.pending other key = none := by
  cases pending : shared.database.pending other key with
  | none => rfl
  | some row =>
      obtain ⟨accountKey, held, theirs⟩ := begun.sound.held pending
      rw [OfAccount, mine, Option.some.injEq, Value.text.injEq] at theirs
      rw [← theirs] at held
      rw [← begun.others different held key, pending]

theorem Inside.wrote (inside : Inside store before record tx shared)
    {writes : List (Key (Value Sealed) × Option (Row (Value Sealed)))}
    {after : Database Sealed} (wrote : Wrote shared.database after tx writes)
    (ours : ∀ {key row}, (key, row) ∈ writes → OfAccount store.accountKey key)
    (sees : store.cabinet.Holds record'.drawers (after.view tx)) :
    Guarantees store.accountKey shared ⟨after, shared.holder⟩ ∧
      Inside store before record' tx ⟨after, shared.holder⟩ := by
  have sound : Sound (Shared.mk after shared.holder) := by
    refine ⟨?_, ?_, ?_, ?_⟩
    · intro key row there
      rw [wrote.rows] at there
      exact inside.sound.keyed there
    · intro other key row pending
      by_cases here : other = tx
      · subst here
        apply sees.keyed
        rw [ReadCommitted.Store.lookup_view,
          show after.pending other key = _ from pending]
        rfl
      · apply inside.sound.written
        rw [← wrote.others other key here]
        exact pending
    · intro other key row pending
      by_cases here : other = tx
      · subst here
        rcases wrote.written key with ⟨_, member, _⟩ | ⟨_, same⟩
        · exact ⟨_, inside.holder, ours member⟩
        · apply inside.sound.held
          rw [← same]
          exact pending
      · apply inside.sound.held
        rw [← wrote.others other key here]
        exact pending
    · intro other later
      apply inside.sound.fresh
      rw [← wrote.transactions]
      exact later
  refine ⟨⟨sound, ?_, fun _ => Or.inl rfl, ?_⟩,
    ⟨⟨sound, ?_, inside.holder, ?_⟩, sees⟩⟩
  · intro key _
    rw [wrote.rows]
  · intro other different key
    apply wrote.others
    rintro rfl
    exact different inside.holder
  · dsimp only
    rw [wrote.rows]
    exact inside.holds
  · intro other different mine key
    exact (wrote.others other key different).trans
      (inside.others different mine key)

theorem Inside.execute (inside : Inside store before record tx shared)
    {statement : Statement (Value Sealed)}
    (moves : Moves store statement record record') :
    Does store.accountKey faults (execute tx statement)
      (fun _ after => Inside store before record' tx after)
      (fun error after => Faulty faults error ∧ Begun store before tx after)
      shared := by
  refine does_quiet inside_stable (fun _ => inside_stable) ?_ (fun _ => rfl) ?_
    ?_ inside
  · intro error earlier after holds between
    exact ⟨holds.1, begun_stable _ _ holds.2 between⟩
  · intro shared circumstances answer database inside performed
    obtain ⟨writes, after, done, wrote, ours, sees⟩ :=
      moves.perform inside.sees inside.alone
    dsimp only [perform] at performed
    rw [done] at performed
    cases performed
    exact inside.wrote wrote ours sees
  · intro shared cause inside fault
    exact ⟨inside.sound.guarantees, ⟨cause, fault, rfl⟩, inside.toBegun⟩

/-- What the transaction has written is committed. -/
theorem Inside.commit (inside : Inside store before record tx shared) :
    Guarantees store.accountKey shared
        ⟨shared.database.commit tx, shared.holder⟩ ∧
      Stored store record ⟨shared.database.commit tx, shared.holder⟩ := by
  have pending : ∀ other key, (shared.database.commit tx).pending other key =
      if other = tx then none else shared.database.pending other key :=
    fun _ _ => ReadCommitted.Store.pending_commit _ _ _ _
  have sound : Sound (Shared.mk (shared.database.commit tx) shared.holder) := by
    refine ⟨inside.sound.keyed_view, ?_, ?_, inside.sound.fresh⟩
    · intro other key row written
      rw [pending] at written
      split at written
      next => cases written
      next => exact inside.sound.written written
    · intro other key row written
      rw [pending] at written
      split at written
      next => cases written
      next => exact inside.sound.held written
  refine ⟨⟨sound, ?_, fun _ => Or.inl rfl, ?_⟩, ⟨sound, inside.sees, ?_⟩⟩
  · intro key theirs
    rw [ReadCommitted.Store.lookup_commit]
    cases written : shared.database.pending tx key with
    | none => rfl
    | some row =>
        obtain ⟨accountKey, held, ours⟩ := inside.sound.held written
        rw [inside.holder, Option.some.injEq] at held
        rw [held] at theirs
        exact absurd ours theirs
  · intro other different key
    rw [pending, if_neg]
    rintro rfl
    exact different inside.holder
  · intro other mine key
    rw [pending]
    split
    next => rfl
    next apart => exact inside.others apart mine key

/-- What the transaction has written is gone. -/
theorem Begun.rollback (begun : Begun store before tx shared) :
    Guarantees store.accountKey shared
        ⟨shared.database.rollback tx, shared.holder⟩ ∧
      Stored store before ⟨shared.database.rollback tx, shared.holder⟩ := by
  have pending : ∀ other key, (shared.database.rollback tx).pending other key =
      if other = tx then none else shared.database.pending other key :=
    fun _ _ => ReadCommitted.Store.pending_rollback _ _ _ _
  have sound : Sound
      (Shared.mk (shared.database.rollback tx) shared.holder) := by
    refine ⟨begun.sound.keyed, ?_, ?_, begun.sound.fresh⟩
    · intro other key row written
      rw [pending] at written
      split at written
      next => cases written
      next => exact begun.sound.written written
    · intro other key row written
      rw [pending] at written
      split at written
      next => cases written
      next => exact begun.sound.held written
  refine ⟨⟨sound, fun _ => rfl, fun _ => Or.inl rfl, ?_⟩,
    ⟨sound, begun.holds, ?_⟩⟩
  · intro other different key
    rw [pending, if_neg]
    rintro rfl
    exact different begun.holder
  · intro other mine key
    rw [pending]
    split
    next => rfl
    next apart => exact begun.others apart mine key

/-- A statement that is a transaction of its own. -/
theorem Stored.single (stored : Stored store record shared)
    {writes : List (Key (Value Sealed) × Option (Row (Value Sealed)))}
    {inner : Database Sealed}
    (wrote : Wrote shared.database.start inner shared.database.transactions
      writes)
    (ours : ∀ {key row}, (key, row) ∈ writes → OfAccount store.accountKey key)
    (sees : store.cabinet.Holds record'.drawers
      (inner.view shared.database.transactions)) :
    Guarantees store.accountKey shared
        ⟨inner.commit shared.database.transactions, shared.holder⟩ ∧
      Stored store record'
        ⟨inner.commit shared.database.transactions, shared.holder⟩ := by
  have begun := stored.sound.taken store.accountKey
  obtain ⟨writing, inside⟩ := stored.taken.wrote wrote ours sees
  obtain ⟨committing, last⟩ := inside.commit
  have unheld := stored.sound.fresh (le_refl shared.database.transactions)
  have none : ∀ key, (inner.commit shared.database.transactions).pending
      shared.database.transactions key = none := by
    intro key
    rw [ReadCommitted.Store.pending_commit, if_pos rfl]
  have holder : ∀ {tx}, tx ≠ shared.database.transactions →
      (shared.taken store.accountKey).holder tx = shared.holder tx := by
    intro tx different
    exact if_neg fun same => different (Option.some.inj same).symm
  have sound : Sound (Shared.mk
      (inner.commit shared.database.transactions) shared.holder) := by
    refine ⟨last.sound.keyed, last.sound.written, ?_, ?_⟩
    · intro tx key row written
      obtain ⟨accountKey, held, mine⟩ := last.sound.held written
      refine ⟨accountKey, ?_, mine⟩
      rw [← held]
      refine (holder ?_).symm
      rintro rfl
      rw [none] at written
      cases written
    · intro tx later
      have later : inner.transactions ≤ tx := later
      rw [wrote.transactions] at later
      exact stored.sound.fresh (Nat.le_of_succ_le later)
  refine ⟨⟨sound, ?_, fun _ => Or.inl rfl, ?_⟩, ⟨sound, last.holds, ?_⟩⟩
  · intro key theirs
    exact (committing.rows theirs).trans
      ((writing.rows theirs).trans (begun.rows theirs))
  · intro tx different key
    by_cases own : tx = shared.database.transactions
    · subst own
      rw [none, stored.sound.pending_eq_none unheld]
    · have theirs : (shared.taken store.accountKey).holder tx ≠
          some store.accountKey := by
        rw [holder own]
        exact different
      exact (committing.pending theirs key).trans
        ((writing.pending theirs key).trans (begun.pending theirs key))
  · intro tx mine key
    by_cases own : tx = shared.database.transactions
    · subst own
      exact none key
    · exact last.idle ((holder own).trans mine) key

/-- Errors that leave the account as it was. -/
abbrev Unchanged (store : CryptoStore Content Sealed)
    (excuse : StoreError → Prop) (record : Record Content Sealed)
    (error : StoreError) (after : Shared Sealed) : Prop :=
  excuse error ∧ Stored store record after

theorem unchanged_stable {excuse : StoreError → Prop} (error : StoreError) :
    Stable store.accountKey (Unchanged store excuse record error) :=
  fun _ _ holds between => ⟨holds.1, stored_stable _ _ holds.2 between⟩

variable {excuse : StoreError → Prop}
  (faulty : ∀ error, Faulty faults error → excuse error)

include faulty

/-- The end of the transaction leaves what it has written, or nothing of it. -/
theorem does_finish {result : Except StoreError Unit}
    (succeeds : ∀ value, result = .ok value →
      Inside store before record tx shared)
    (fails : ∀ error, result = .error error →
      excuse error ∧ Begun store before tx shared) :
    Does store.accountKey faults (finish tx result)
      (fun _ after => Stored store record after)
      (Unchanged store excuse before) shared := by
  cases result with
  | ok value =>
      refine does_quiet inside_stable (fun _ => stored_stable) unchanged_stable
        (fun _ => rfl) ?_ ?_ (succeeds value rfl)
      · intro shared circumstances answer database inside performed
        cases performed
        exact inside.commit
      · intro shared cause inside fault
        obtain ⟨keeps, stored⟩ := inside.toBegun.rollback
        exact ⟨keeps, faulty _ ⟨cause, fault, rfl⟩, stored⟩
  | error error =>
      obtain ⟨excused, begun⟩ := fails error rfl
      intro earlier between conditions
      have begun := begun_stable _ _ begun between
      obtain ⟨keeps, stored⟩ := begun.rollback
      have same : (serveTo store.accountKey conditions.val earlier
          (.rollback tx)).2 =
          ⟨earlier.database.rollback tx, earlier.holder⟩ := by
        unfold serveTo serve
        cases conditions.val.fault <;> rfl
      dsimp only
      rw [same]
      refine ⟨fun _ => keeps, ?_⟩
      intro later more
      exact ⟨excused, stored_stable _ _ stored more⟩

theorem does_transaction {body : ℕ → StoreCode Sealed Unit}
    (does : ∀ {tx shared}, Inside store record record tx shared →
      Does store.accountKey faults (body tx)
        (fun _ after => Inside store record record' tx after)
        (fun error after => excuse error ∧ Begun store record tx after) shared)
    (stored : Stored store record shared) :
    Does store.accountKey faults (transaction body)
      (fun _ after => Stored store record' after)
      (Unchanged store excuse record) shared := by
  apply Query.Meets.bind (pact.refl _)
  apply Query.Meets.mono (does_begin stored)
  · intro tx after inside
    apply Script.Meets.bind (pact.refl _)
    apply Script.Meets.mono (does inside)
    intro result after ends
    apply does_finish faulty
    · rintro value rfl
      exact ends
    · rintro error rfl
      exact ends
  · rintro error after ⟨fault, stored⟩ later between
    exact ⟨faulty error fault, stored_stable _ _ stored between⟩

theorem does_single {statement : Statement (Value Sealed)}
    (moves : Moves store statement record record')
    (stored : Stored store record shared) :
    Does store.accountKey faults (request (.single statement))
      (fun _ after => Stored store record' after)
      (Unchanged store excuse record) shared := by
  refine does_quiet stored_stable (fun _ => stored_stable) unchanged_stable
    (fun _ => rfl) ?_ ?_ stored
  · intro shared circumstances answer database stored performed
    have inside := stored.taken
    obtain ⟨writes, inner, done, wrote, ours, sees⟩ :=
      moves.perform inside.sees inside.alone
    dsimp only [perform] at performed
    rw [show statement.perform schema shared.database.start
      shared.database.transactions = some inner from done] at performed
    cases performed
    exact stored.single wrote ours sees
  · intro shared cause stored fault
    exact ⟨stored.sound.guarantees, faulty _ ⟨cause, fault, rfl⟩, stored⟩

omit faulty

/-- What a request that only reads is answered with. -/
theorem does_read {asked : Request Sealed} {pre : Shared Sealed → Prop}
    {right : asked.Reply → Prop} (stable : Stable store.accountKey pre)
    (sound : ∀ {shared}, pre shared → Sound shared)
    (quiet : ∀ answer, begins asked answer = none)
    (reads : ∀ {shared : Shared Sealed},
      abandoned shared.database asked = shared.database ∧
      ∀ circumstances, ∃ reply,
        perform circumstances shared.database asked =
          (.ok reply, shared.database) ∧ (pre shared → right reply))
    (holds : pre shared) :
    Does store.accountKey faults (request asked)
      (fun reply after => pre after ∧ right reply)
      (fun error after => pre after ∧ Faulty faults error) shared := by
  refine does_quiet stable ?_ ?_ quiet ?_ ?_ holds
  · intro reply before after found between
    exact ⟨stable _ _ found.1 between, found.2⟩
  · intro error before after found between
    exact ⟨stable _ _ found.1 between, found.2⟩
  · intro shared circumstances answer database found performed
    obtain ⟨reply, replied, holds⟩ := reads.2 circumstances
    rw [replied] at performed
    cases performed
    exact ⟨(sound found).guarantees, found, holds found⟩
  · intro shared cause found fault
    rw [reads.1]
    exact ⟨(sound found).guarantees, found, cause, fault, rfl⟩

end Requests

end MiryadCore.Matrix.Crypto
