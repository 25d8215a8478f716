import MiryadCore.Lymaille.CrashWindow
import MiryadCore.Rest.Listing

/-!
# The rows that a creation returns

A creation returns the row that it has inserted or a journaled result.  When a
unique index refuses its row, a batch step returns the row that it reads again,
whoever may read it: the answer is then one of the caller's only when the read
policy gives them a row with that answer.
-/

namespace MiryadCore.Lymaille

open Users (UserRow)
open Rest (AuthPrincipal)

variable {F64 ι : Type} {entities : ι → Entity}

/-- The table refuses the row of a creation that is allowed. -/
def Refused (store : Store entities) (e : Calm entities) (i : ι)
    (account : UserRow) (body : Value) : Prop :=
  Rest.MayCreate store.users.view account.id
      (entities i).resource.writePolicy (entities i).resource.ownerColumn ∧
    ∃ model active, modelFromJson (entities i) body = .ok model ∧
      (entities i).resource.hooks.beforeCreate
        (Rest.markAllSet model.intoActiveModel)
        (Handle.agent account.subject) = .ok active ∧
      (store.tables i).Taken ((calm e).at i)
        (Rest.createActive (entities i).resource account active)

/-- The row that a batch step reads again for a creation that a unique index
refuses. -/
structure Recovers (handle : Handle entities F64) (e : Calm entities)
    (store : Store entities) (i : ι) (account : UserRow) (key : String)
    (body value : Value) : Prop where
  batch : ∃ scope, handle.scope = some scope ∧ store.lookup scope key = none
  refused : Refused store e i account body
  found : Writer.reread (entities i) (store.tables i) body = .ok (some value)

/-- Some row that the read policy gives to the account reads as the value. -/
def Readable (crates : Crates F64) (store : Store entities) (i : ι)
    (account : UserRow) (value : Value) : Prop :=
  ∃ row ∈ (store.tables i).rows,
    Rest.Allowed store.users.view account.id (entities i).resource.readPolicy
      (entities i).resource.ownerColumn row.values ∧
    ∃ other, rowValue (entities i) row.values = .ok other ∧
      jsonToDynamic crates other = jsonToDynamic crates value

variable [DecidableEq ι]

/-- `rest::core::get` answers the principal with the row. -/
def Shown (e : Calm entities) (store : Store entities) (i : ι)
    (principal : AuthPrincipal) (record : Rest.Model (entities i).Column) :
    Prop :=
  ∃ id : ℤ, ((Rest.get (entities i).resource principal id).run
    (fun e : Calm entities => Rest.exec ((calm e).at i)) e (store.part i)).1 =
      .ok record

/-- What a creation may return: a journaled result of its scope, the row that
it has inserted, or a row that the caller may get. -/
inductive Entitled (handle : Handle entities F64) (e : Calm entities)
    (before after : Store entities) (i : ι) (account : UserRow)
    (key : String) (value : Value) : Prop where
  | journaled (scope : WriteScope) (batch : handle.scope = some scope)
      (hit : before.lookup scope key = some value)
  | inserted (row : Rest.StoredRow (entities i).Column)
      (new : row ∈ (after.tables i).rows)
      (absent : (entities i).schema.keyOf row.values ∉
        (before.tables i).rows.map fun row =>
          (entities i).schema.keyOf row.values)
      (written : rowValue (entities i) row.values = .ok value)
  | shown (record : Rest.Model (entities i).Column)
      (shown : Shown e after i (Handle.agent account.subject) record)
      (written : rowValue (entities i) record = .ok value)

variable {handle : Handle entities F64} {i : ι} {store : Store entities}
  {account : UserRow}

omit [DecidableEq ι] in
theorem get_iff (has : HasAccount handle store account) (e : Calm entities)
    (id : ℤ) (record : Rest.Model (entities i).Column) :
    ((Rest.get (entities i).resource (Handle.agent account.subject) id).run
      (fun e : Calm entities => Rest.exec ((calm e).at i)) e
      (store.part i)).1 = .ok record ↔
      ((store.tables i).find id).map Rest.StoredRow.values = some record ∧
        Rest.Allowed store.users.view account.id
          (entities i).resource.readPolicy (entities i).resource.ownerColumn
          record := by
  have answers : Rest.Answers (fun e : Calm entities => (calm e).at i)
      (Rest.get (entities i).resource (Handle.agent account.subject) id)
      (store.part i) _ _ :=
    Rest.answers_get (entities i).resource (store.part i) id (has.known i)
  have final := Rest.Ends.run (fun _ => rfl) e answers
  cases result : (Rest.get (entities i).resource
      (Handle.agent account.subject) id).run
        (fun e : Calm entities => Rest.exec ((calm e).at i)) e
        (store.part i) with
  | mk answer after =>
      rw [result] at final
      cases answer with
      | ok value =>
          obtain ⟨_, found, allowed⟩ := final
          constructor
          · intro same
            obtain rfl := Except.ok.inj same
            exact ⟨found, allowed⟩
          · intro named
            exact congrArg Except.ok
              (Option.some.inj (found.symm.trans named.1))
      | error error =>
          constructor
          · intro same
            cases same
          · rintro ⟨named, allowed⟩
            obtain ⟨_, ⟨_, refused⟩ | ⟨_, _, absent⟩⟩ := final
            · rcases refused with denied | ⟨other, found, refused⟩
              · exact (denied.not_allowed allowed).elim
              · obtain rfl := Option.some.inj (named.symm.trans found)
                exact (refused allowed).elim
            · have absent : (store.tables i).find id = none := absent
              rw [absent] at named
              cases named

omit [DecidableEq ι] in
theorem shown_iff (has : HasAccount handle store account) (e : Calm entities)
    (record : Rest.Model (entities i).Column) :
    Shown e store i (Handle.agent account.subject) record ↔
      ∃ row ∈ (store.tables i).rows, row.values = record ∧
        Rest.Allowed store.users.view account.id
          (entities i).resource.readPolicy (entities i).resource.ownerColumn
          row.values := by
  constructor
  · rintro ⟨id, shown⟩
    obtain ⟨named, allowed⟩ := (get_iff has e id record).mp shown
    obtain ⟨row, found, rfl⟩ := Option.map_eq_some_iff.mp named
    exact ⟨row, (Rest.Table.find_some found).1, rfl, allowed⟩
  · rintro ⟨row, listed, rfl, allowed⟩
    have found := Rest.Table.find_of_mem listed
      ((store.tables i).fits row listed).1
    refine ⟨(entities i).schema.keyOf row.values, ?_⟩
    refine (get_iff has e _ row.values).mpr ⟨?_, allowed⟩
    rw [found, Option.map_some]

/-- What the creation of a writer returns is the row that it has inserted. -/
theorem create_inserts {s' : Store entities}
    (has : HasAccount handle store account) {e : Calm entities}
    {body value : Value}
    (ran : (Writer.create i (Handle.agent account.subject) body).run serve e
      store = (.ok value, s')) :
    ∃ row ∈ (s'.tables i).rows, (entities i).schema.keyOf row.values ∉
        ((store.tables i).rows.map fun row =>
          (entities i).schema.keyOf row.values) ∧
      rowValue (entities i) row.values = .ok value := by
  have ends := create_ends i has e body
  rw [ran] at ends
  obtain ⟨model, _, _, valid, _⟩ := ends.of_ok
  obtain ⟨allowed, _, runs⟩ := run_create i has e valid
  rw [ran] at runs
  cases allowed with
  | false => cases (Prod.mk.inj runs).1
  | true =>
      simp only [if_true] at runs
      split at runs
      · cases (Prod.mk.inj runs).1
      · split at runs
        · cases (Prod.mk.inj runs).1
        · rename_i row table inserted
          obtain ⟨written, rfl⟩ := Prod.mk.inj runs
          obtain ⟨_, _, _, _, _, rows⟩ := Rest.Table.insert_ok inserted
          refine ⟨row, ?_, ?_, written.symm⟩
          · simp [Store.put, rows]
          · have keys := table.keys
            rw [rows, List.map_append, List.nodup_append] at keys
            intro listed
            exact keys.2.2 _ listed _ (by simp) rfl

omit [DecidableEq ι] in
theorem modelFromJson_error {entity : Entity} {body : Value}
    {failure : Failure} (invalid : modelFromJson entity body = .error failure) :
    failure = .invalidBody := by
  unfold modelFromJson at invalid
  split at invalid
  · exact (Except.error.inj invalid).symm
  · split at invalid
    · cases read : entity.fromValue body with
      | ok model => simp [read, Except.mapError] at invalid
      | error error =>
          simp only [read, Except.mapError, Except.error.injEq] at invalid
          exact invalid.symm
    · exact (Except.error.inj invalid).symm

/-- A writer meets a unique violation when the table refuses its row. -/
theorem create_refused_iff (has : HasAccount handle store account)
    {e : Calm entities} {body : Value} :
    (Writer.create i (Handle.agent account.subject) body).run serve e
        store = (.error .uniqueViolation, store) ↔
      Refused store e i account body := by
  unfold Refused
  cases valid : modelFromJson (entities i) body with
  | error failure =>
      have ends := create_ends i has e body
      constructor
      · intro ran
        have invalid : (Writer.create i (Handle.agent account.subject)
            body).run serve e store = (.error failure, store) := by
          unfold Writer.create
          rw [valid]
          rfl
        rw [invalid] at ran
        have named := Except.error.inj (Prod.mk.inj ran).1
        cases named.symm.trans (modelFromJson_error valid)
      · rintro ⟨_, _, _, impossible, _⟩
        cases impossible
  | ok model =>
      obtain ⟨allowed, meaning, runs⟩ := run_create i has e valid
      rw [runs, ← meaning]
      cases allowed with
      | false => simp
      | true =>
          simp only [if_true, true_and]
          constructor
          · intro ran
            split at ran
            · cases (Prod.mk.inj ran).1
            · rename_i active hooked
              refine ⟨model, active, rfl, hooked, ?_⟩
              split at ran
              · rename_i cause inserted
                obtain ⟨constraint, rfl⟩ := (ofCreate_unique_iff cause).mp
                  (Except.error.inj (Prod.mk.inj ran).1)
                exact Rest.Table.insert_unique_iff.mp ⟨constraint, inserted⟩
              · have failed := rowValue_error (Prod.mk.inj ran).1
                cases failed
          · rintro ⟨_, active, same, hooked, taken⟩
            obtain rfl := Except.ok.inj same
            obtain ⟨constraint, inserted⟩ : ∃ constraint,
                (store.tables i).insert ((calm e).at i) account.subject
                  (Rest.createActive (entities i).resource account active) =
                    .error (.uniqueViolation constraint) :=
              Rest.Table.insert_unique_iff.mpr taken
            rw [hooked]
            dsimp only
            rw [inserted]
            simp [Failure.ofCreate]

/-- A creation that answers has inserted its row, or reads one again. -/
theorem run_createRow_ok {s' : Store entities}
    (has : HasAccount handle store account) {e : Calm entities}
    {body value : Value}
    (ran : (handle.createRow body i (Handle.agent account.subject)).run serve e
      store = (.ok value, s')) :
    (Writer.create i (Handle.agent account.subject) body).run serve e store =
        (.ok value, s') ∨
      handle.scope.isSome = true ∧ s' = store ∧
        Refused store e i account body ∧
        Writer.reread (entities i) (store.tables i) body =
          .ok (some value) := by
  rw [run_createRow] at ran
  split at ran
  · rename_i created
    left
    rw [created, ran]
  · rename_i failure after created
    split at ran
    · rename_i unique
      subst unique
      obtain rfl := create_unique has created
      split at ran
      · rename_i batch
        split at ran
        · rename_i row found
          obtain ⟨same, rfl⟩ := Prod.mk.inj ran
          right
          exact ⟨batch, rfl, (create_refused_iff has).mp created,
            Except.ok.inj same ▸ found⟩
        · cases (Prod.mk.inj ran).1
        · cases (Prod.mk.inj ran).1
      · cases (Prod.mk.inj ran).1
    · cases (Prod.mk.inj ran).1

omit [DecidableEq ι] in
theorem Store.insertResult_tables (row : JournalRow) :
    (store.insertResult row).tables = store.tables := by
  unfold Store.insertResult
  split
  · rfl
  · rfl

omit [DecidableEq ι] in
theorem Store.insertResult_users (row : JournalRow) :
    (store.insertResult row).users = store.users := by
  unfold Store.insertResult
  split
  · rfl
  · rfl

/-- How a creation of a batch step or of a session ends with an answer: with a
journaled result, or with what `createRow` answers. -/
theorem create_answers {after : Store entities} {e : Calm entities}
    {writes : ℕ} {resource : String} {body : Value} {answer : Dynamic F64}
    (writer : handle.writerOf resource = .ok i)
    (account_found : handle.account store = some account)
    (ran : (handle.create writes resource body).run serve e store =
      (.ok answer, after)) :
    (∃ scope value, handle.scope = some scope ∧
      store.lookup scope (opKey handle.crates .create resource none body) =
        some value ∧
      answer = jsonToDynamic handle.crates value ∧ after = store) ∨
    (∀ scope, handle.scope = some scope →
      store.lookup scope (opKey handle.crates .create resource none body) =
        none) ∧
    ∃ value s', (handle.createRow body i
        (Handle.agent account.subject)).run serve e store = (.ok value, s') ∧
      answer = jsonToDynamic handle.crates value ∧
      after.tables = s'.tables ∧ after.users = s'.users := by
  have runs : (handle.create writes resource body).run serve e store = _ :=
    run_call handle e store writes (.create resource body)
  rw [ran] at runs
  cases admitted : handle.admission ⟨writes, store⟩
      (.create resource body) with
  | error failure =>
      rw [admitted] at runs
      cases (Prod.mk.inj runs).1
  | ok pair =>
      obtain ⟨i', account'⟩ := pair
      have ⟨found, written⟩ := handle.admit_ok admitted
      obtain rfl := Option.some.inj (found.symm.trans account_found)
      obtain rfl := Except.ok.inj (written.symm.trans writer)
      rw [admitted] at runs
      dsimp only at runs
      cases batch : handle.scope with
      | none =>
          refine Or.inr ⟨nofun, ?_⟩
          rw [run_journaled_none handle e store batch] at runs
          split at runs
          · rename_i value s' row
            obtain ⟨same, rfl⟩ := Prod.mk.inj runs
            exact ⟨value, after, row, Except.ok.inj same, rfl, rfl⟩
          · cases (Prod.mk.inj runs).1
      | some scope =>
          cases hit : store.lookup scope
              (opKey handle.crates .create resource none body) with
          | some value =>
              have hit' : store.lookup scope
                  (WriteCall.key handle.crates (.create resource body)) =
                    some value := hit
              rw [run_journaled_hit handle e store batch hit'] at runs
              obtain ⟨same, rfl⟩ := Prod.mk.inj runs
              exact Or.inl ⟨scope, value, rfl, hit, Except.ok.inj same, rfl⟩
          | none =>
              have miss : store.lookup scope
                  (WriteCall.key handle.crates (.create resource body)) =
                    none := hit
              rw [run_journaled_miss handle e store batch miss] at runs
              refine Or.inr ⟨?_, ?_⟩
              · intro other same
                obtain rfl := Option.some.inj same
                exact hit
              · split at runs
                · rename_i value s' row
                  split at runs
                  · cases (Prod.mk.inj runs).1
                  · obtain ⟨same, rfl⟩ := Prod.mk.inj runs
                    exact ⟨value, s', row, Except.ok.inj same,
                      Store.insertResult_tables _, Store.insertResult_users _⟩
                · cases (Prod.mk.inj runs).1

/-- A creation returns a journaled result, its own row or a row of the caller
exactly when the row that a batch step reads again is one of the caller. -/
theorem created_rows_entitled_iff (handle : Handle entities F64)
    (e : Calm entities) (store after : Store entities)
    (consistent : store.users.view.Consistent) (writes : ℕ)
    (resource : String) (body : Value) (answer : Dynamic F64)
    (ran : (handle.create writes resource body).run serve e store =
      (.ok answer, after)) (i : ι) (account : UserRow)
    (writer : handle.writerOf resource = .ok i)
    (account_found : handle.account store = some account) :
    (∃ value, answer = jsonToDynamic handle.crates value ∧
      Entitled handle e store after i account
        (opKey handle.crates .create resource none body) value) ↔
      ∀ value, Recovers handle e store i account
          (opKey handle.crates .create resource none body) body value →
        Readable handle.crates store i account value := by
  have has : HasAccount handle store account := ⟨consistent, account_found⟩
  rcases create_answers writer account_found ran with
    ⟨scope, value, batch, hit, rfl, rfl⟩ |
    ⟨missed, value, s', row, rfl, tables, users⟩
  · constructor
    · intro _ other recovers
      obtain ⟨scope', batch', miss⟩ := recovers.batch
      obtain rfl := Option.some.inj (batch.symm.trans batch')
      rw [hit] at miss
      cases miss
    · intro _
      exact ⟨value, rfl, .journaled scope batch hit⟩
  · rcases run_createRow_ok has row with
      created | ⟨batch, rfl, refused, found⟩
    · constructor
      · intro _ other recovers
        rw [(create_refused_iff has).mpr recovers.refused] at created
        cases (Prod.mk.inj created).1
      · intro _
        obtain ⟨stored, new, absent, written⟩ := create_inserts has created
        exact ⟨value, rfl, .inserted stored (tables ▸ new) absent written⟩
    · have shown_after (record : Rest.Model (entities i).Column) :
          Shown e after i (Handle.agent account.subject) record ↔ _ :=
        shown_iff (has.later users) e record
      simp only [tables, users] at shown_after
      constructor
      · rintro ⟨other, same, entitled⟩ again recovers
        have one : again = value := by
          have twice := recovers.found
          rw [found] at twice
          exact (Option.some.inj (Except.ok.inj twice)).symm
        subst one
        cases entitled with
        | journaled scope batch hit =>
            rw [missed scope batch] at hit
            cases hit
        | inserted stored new absent written =>
            rw [tables] at new
            exact (absent (List.mem_map_of_mem new)).elim
        | shown record shown written =>
            obtain ⟨stored, listed, rfl, allowed⟩ :=
              (shown_after record).mp shown
            exact ⟨stored, listed, allowed, other, written, same.symm⟩
      · intro spared
        obtain ⟨scope, batch⟩ := Option.isSome_iff_exists.mp batch
        obtain ⟨stored, listed, allowed, other, written, same⟩ :=
          spared value ⟨⟨scope, batch, missed scope batch⟩, refused, found⟩
        exact ⟨other, same.symm, .shown stored.values
          ((shown_after _).mpr ⟨stored, listed, rfl, allowed⟩) written⟩

/-- A body that says nothing of the owner. -/
def titleBody : Value :=
  .object [("id", idValue (some 0)), ("title", .string "plan")]

def draws : Calm (fun _ : Unit => noteEntity) where
  now := 0
  gap := 0
  id := 3
  defaults := fun _ => Rest.note 3 none ""

def alice : UserRow :=
  ⟨7, "alice", none, none, 0⟩

theorem created_rows_entitled_on_note :
    ∃ value, Dynamic.map [("id", .int 2), ("owner", .int 7),
        ("title", .string "plan")] = jsonToDynamic noteHandle.crates value ∧
      Entitled (noteHandle.within noteStep) draws noteState.store
        (noteState.store.insertResult ⟨noteStep,
          opKey noteHandle.crates .create "notes" none titleBody,
          noteBody 2 7 "plan"⟩) () alice
        (opKey noteHandle.crates .create "notes" none titleBody) value :=
  (created_rows_entitled_iff (noteHandle.within noteStep) draws
    noteState.store _ noteState_consistent 0 "notes" titleBody _ rfl () alice
    rfl rfl).mpr (by
      intro value recovers
      have found : Writer.reread noteEntity (noteState.store.tables ())
          titleBody = .ok (some (noteBody 2 7 "plan")) := rfl
      obtain rfl := Option.some.inj
        (Except.ok.inj (recovers.found.symm.trans found))
      exact ⟨⟨Rest.note 2 (some 7) "plan", 2, true, some "alice"⟩,
        List.mem_cons_self, by
          right; right; right
          exact ⟨rfl, .owner, rfl, rfl⟩, _, rfl, rfl⟩)

/-- A note of an account that the caller does not read. -/
def foreignStore : Store (fun _ : Unit => noteEntity) where
  users := Rest.noteStore.users
  tables := fun _ => {
    rows := [⟨Rest.note 2 (some 8) "plan", 2, true, some "bob"⟩]
    used := [2]
    fits := by decide
    keys := by decide
    unique := by decide }
  journal := []

/-- The journal has the note then. -/
def disclosed : Store (fun _ : Unit => noteEntity) :=
  foreignStore.insertResult ⟨noteStep,
    opKey noteHandle.crates .create "notes" none titleBody,
    noteBody 2 8 "plan"⟩

/-- A creation returns the whole note, its owner with it. -/
theorem creation_discloses :
    ((noteHandle.within noteStep).create 0 "notes" titleBody).run serve draws
        foreignStore = (.ok (.map [("id", .int 2), ("owner", .int 8),
          ("title", .string "plan")]), disclosed) ∧
      ∀ value, Dynamic.map [("id", .int 2), ("owner", .int 8),
          ("title", .string "plan")] = jsonToDynamic noteHandle.crates value →
        ¬ Entitled (noteHandle.within noteStep) draws foreignStore
          disclosed () alice
          (opKey noteHandle.crates .create "notes" none titleBody) value := by
  refine ⟨rfl, ?_⟩
  intro value _ entitled
  cases entitled with
  | journaled scope batch hit => cases hit
  | inserted row new absent written => exact absent (List.mem_map_of_mem new)
  | shown record shown written =>
      have has : HasAccount (noteHandle.within noteStep)
          disclosed alice := ⟨noteState_consistent, rfl⟩
      obtain ⟨row, listed, rfl, allowed⟩ := (shown_iff has draws _).mp shown
      have only : row = ⟨Rest.note 2 (some 8) "plan", 2, true, some "bob"⟩ :=
        List.mem_singleton.mp listed
      subst only
      rcases allowed with isPublic | member | ⟨_, grouped, _⟩ | owned
      · cases isPublic
      · obtain ⟨_, impossible, _⟩ := member
        cases impossible
      · cases grouped
      · obtain ⟨_, column, declared, same⟩ := owned
        cases declared
        cases same

end MiryadCore.Lymaille
