import MiryadCore.Lymaille.BatchStep

/-!
# What a write does to its entity

The code of a write reads and writes the table of one entity, whatever the
journal.  A creation and a deletion that succeed change that table; an update
that succeeds without a change writes what the row holds.
-/

namespace MiryadCore.Lymaille

open Users (UserRow)
open Rest (AuthPrincipal)

variable {F64 ι : Type} [DecidableEq ι] {entities : ι → Entity}
  {ε α β : Type} {i : ι}

/-- Two databases with the same users and the same tables. -/
structure Beside (left right : Store entities) : Prop where
  users : left.users = right.users
  tables : left.tables = right.tables

omit [DecidableEq ι] in
theorem Beside.part {left right : Store entities} (beside : Beside left right)
    (i : ι) : left.part i = right.part i := by
  rw [Store.part, Store.part, beside.users, beside.tables]

theorem Beside.put {left right : Store entities} (beside : Beside left right)
    (part : Rest.Store (entities i).schema) :
    Beside (left.put i part) (right.put i part) where
  users := rfl
  tables := by rw [Store.put, Store.put, beside.tables]

/-- Code that reads and writes the users and the table of one entity. -/
def LocalTo (i : ι) (query : Code entities ε α) : Prop :=
  ∀ e, ∃ f : Rest.Store (entities i).schema →
      Except ε α × Rest.Store (entities i).schema,
    ∀ store, query.run serve e store =
      ((f (store.part i)).1, store.put i (f (store.part i)).2)

theorem LocalTo.ofExcept (i : ι) (result : Except ε α) :
    LocalTo i (Query.ofExcept result : Code entities ε α) := by
  intro e
  refine ⟨fun part => (result, part), ?_⟩
  intro store
  rw [store.put_part]
  rfl

theorem LocalTo.ofRest (translate : Rest.RestError → ε)
    (query : Rest.Api (entities i).Column α) :
    LocalTo i (ofRest i translate query) := by
  intro e
  exact ⟨fun part =>
    ((query.run (fun e : Calm entities => Rest.exec ((calm e).at i)) e
        part).1.mapError translate,
      (query.run (fun e : Calm entities => Rest.exec ((calm e).at i)) e
        part).2), fun store => run_ofRest e store translate query⟩

theorem LocalTo.rows (translate : Users.DbErr → ε)
    (condition : Rest.Condition (entities i).Column) :
    LocalTo i (request translate (.rows i condition) :
      Code entities ε (List (Rest.Model (entities i).Column))) := by
  intro e
  refine ⟨fun part => (.ok ((part.table.rows.filter fun row =>
    condition.holds row.values).map Rest.StoredRow.values), part), ?_⟩
  intro store
  rw [store.put_part]
  rfl

theorem LocalTo.bind {query : Code entities ε α}
    {next : α → Code entities ε β} (first : LocalTo i query)
    (rest : ∀ value, LocalTo i (next value)) :
    LocalTo i (query >>= next) := by
  intro e
  obtain ⟨f, runs⟩ := first e
  choose g continues using fun value => rest value e
  refine ⟨fun part =>
    match f part with
    | (.ok value, part') => g value part'
    | (.error error, part') => (.error error, part'), ?_⟩
  intro store
  rw [Query.run_bind, runs]
  dsimp only
  cases f (store.part i) with
  | mk answer part =>
      cases answer with
      | error error => rfl
      | ok value =>
          dsimp only
          rw [continues, store.part_put, store.put_put]

theorem LocalTo.attempt {query : Code entities ε α} (first : LocalTo i query) :
    LocalTo i query.attempt := by
  intro e
  obtain ⟨f, runs⟩ := first e
  refine ⟨fun part => (.ok (f part).1, (f part).2), ?_⟩
  intro store
  rw [Query.run_attempt, runs]

theorem LocalTo.beside {query : Code entities ε α} (first : LocalTo i query)
    (e : Calm entities) {left right : Store entities}
    (beside : Beside left right) :
    (query.run serve e left).1 = (query.run serve e right).1 ∧
      Beside (query.run serve e left).2 (query.run serve e right).2 := by
  obtain ⟨f, runs⟩ := first e
  rw [runs left, runs right, beside.part i]
  exact ⟨rfl, beside.put _⟩

theorem LocalTo.journal {query : Code entities ε α} (first : LocalTo i query)
    (e : Calm entities) (store : Store entities) :
    (query.run serve e store).2.journal = store.journal := by
  obtain ⟨f, runs⟩ := first e
  rw [runs]
  rfl

/-- The code of a writer: the body, then the route, then its result. -/
def rowCode {M : Type} (i : ι) (model : Except Failure M)
    (translate : Rest.RestError → Failure)
    (route : M → Rest.Api (entities i).Column α)
    (result : α → Except Failure Value) : Code entities Failure Value := do
  let model ← Query.ofExcept model
  let answer ← ofRest i translate (route model)
  Query.ofExcept (result answer)

theorem localTo_rowCode {M : Type} (model : Except Failure M)
    (translate : Rest.RestError → Failure)
    (route : M → Rest.Api (entities i).Column α)
    (result : α → Except Failure Value) :
    LocalTo i (rowCode i model translate route result) := by
  apply LocalTo.bind (LocalTo.ofExcept i model)
  intro model
  apply LocalTo.bind (LocalTo.ofRest translate (route model))
  exact fun answer => LocalTo.ofExcept i (result answer)

theorem localTo_create (principal : AuthPrincipal) (body : Value) :
    LocalTo i (Writer.create i principal body : Code entities Failure Value) :=
  localTo_rowCode _ _ _ _

theorem localTo_update (i : ι) (principal : AuthPrincipal) (id : ℤ) (body : Value) :
    LocalTo i
      (Writer.update i principal id body : Code entities Failure Value) :=
  localTo_rowCode _ _ _ _

theorem localTo_delete (principal : AuthPrincipal) (id : ℤ) :
    LocalTo i (Writer.delete i principal id : Code entities Failure Value) :=
  localTo_rowCode (.ok ()) _
    (fun _ => Rest.delete (entities i).resource principal id)
    fun _ => .ok (.object [("deleted", .bool true)])

theorem localTo_rereadMatching (body : Value) :
    LocalTo i (Writer.rereadMatching i body :
      Code entities Failure (Option Value)) := by
  unfold Writer.rereadMatching
  split
  · exact LocalTo.ofExcept i (.ok none)
  split
  · exact LocalTo.ofExcept i (.ok none)
  split
  · exact LocalTo.ofExcept i (.ok none)
  · apply LocalTo.bind (LocalTo.rows _ _)
    exact fun rows => LocalTo.ofExcept i _

theorem localTo_rowWrite (handle : Handle entities F64) (call : WriteCall)
    (principal : AuthPrincipal) :
    LocalTo i (handle.rowWrite call i principal) := by
  cases call with
  | update resource id body => exact localTo_update i principal id body
  | delete resource id => exact localTo_delete principal id
  | create resource body =>
      apply LocalTo.bind (localTo_create principal body).attempt
      intro outcome
      split
      · exact LocalTo.ofExcept i (.ok _)
      · split
        · apply LocalTo.bind (localTo_rereadMatching body)
          intro found
          split
          · exact LocalTo.ofExcept i (.ok _)
          · exact LocalTo.ofExcept i (.error _)
        · exact LocalTo.ofExcept i (.error _)
      · exact LocalTo.ofExcept i (.error _)

/-- How the code of a writer ends: the body is invalid, the route refuses, or
the route has answered. -/
inductive RowEnds {M : Type} (i : ι) (store : Store entities)
    (model : Except Failure M) (translate : Rest.RestError → Failure)
    (result : α → Except Failure Value)
    (post : M → α → Rest.Store (entities i).schema → Prop)
    (refusal : M → Rest.RestError → Prop) :
    Except Failure Value × Store entities → Prop where
  | invalid (failure : Failure) (invalid : model = .error failure) :
      RowEnds i store model translate result post refusal (.error failure, store)
  | refused (body : M) (valid : model = .ok body) (error : Rest.RestError)
      (refused : refusal body error) :
      RowEnds i store model translate result post refusal
        (.error (translate error), store)
  | answered (body : M) (valid : model = .ok body) (answer : α)
      (part : Rest.Store (entities i).schema)
      (users : part.users = store.users) (answered : post body answer part) :
      RowEnds i store model translate result post refusal
        (result answer, store.put i part)

theorem rowCode_ends {M : Type} {store : Store entities}
    {model : Except Failure M} {translate : Rest.RestError → Failure}
    {route : M → Rest.Api (entities i).Column α}
    {result : α → Except Failure Value}
    {post : M → α → Rest.Store (entities i).schema → Prop}
    {refusal : M → Rest.RestError → Prop} (e : Calm entities)
    (ends : ∀ body, model = .ok body →
      Rest.Ends (fun e : Calm entities => (calm e).at i) (route body)
        (store.part i)
        (fun answer part => part.users = store.users ∧ post body answer part)
        (refusal body)) :
    RowEnds i store model translate result post refusal
      ((rowCode i model translate route result).run serve e store) := by
  cases valid : model with
  | error failure => exact RowEnds.invalid failure rfl
  | ok body =>
      have final := (ends body valid).run (fun _ => rfl) e
      have runs : (ofRest i translate (route body)).run serve e store = _ :=
        run_ofRest e store translate (route body)
      cases ran : (route body).run
          (fun e : Calm entities => Rest.exec ((calm e).at i)) e
          (store.part i) with
      | mk answer part =>
          rw [ran] at final runs
          cases answer with
          | error error =>
              obtain ⟨rfl, refused⟩ := final
              rw [store.put_part] at runs
              have whole : (rowCode i (.ok body) translate route result).run
                  serve e store = (.error (translate error), store) :=
                (Query.run_bind_ok rfl).trans (Query.run_bind_error runs)
              rw [whole]
              exact RowEnds.refused body rfl error refused
          | ok answer =>
              have whole : (rowCode i (.ok body) translate route result).run
                  serve e store = (result answer, store.put i part) :=
                (Query.run_bind_ok rfl).trans (Query.run_bind_ok runs)
              rw [whole]
              exact RowEnds.answered body rfl answer part final.1 final.2

section Ends

variable {M : Type} {store s' : Store entities} {model : Except Failure M}
  {translate : Rest.RestError → Failure} {result : α → Except Failure Value}
  {post : M → α → Rest.Store (entities i).schema → Prop}
  {refusal : M → Rest.RestError → Prop}

theorem RowEnds.users {ends : Except Failure Value × Store entities}
    (rowEnds : RowEnds i store model translate result post refusal ends) :
    ends.2.users = store.users := by
  cases rowEnds with
  | invalid failure invalid => rfl
  | refused body valid error refused => rfl
  | answered body valid answer part users answered => exact users

theorem RowEnds.of_ok {value : Value}
    (rowEnds : RowEnds i store model translate result post refusal
      (.ok value, s')) :
    ∃ body answer part, model = .ok body ∧ post body answer part ∧
      result answer = .ok value ∧ s' = store.put i part := by
  generalize same : (Except.ok value, s') = ends at rowEnds
  cases rowEnds with
  | invalid failure invalid => cases same
  | refused body valid error refused => cases same
  | answered body valid answer part users answered =>
      obtain ⟨returned, moved⟩ := Prod.mk.inj same
      exact ⟨body, answer, part, valid, answered, returned.symm, moved⟩

theorem RowEnds.unchanged {failure : Failure}
    (rowEnds : RowEnds i store model translate result post refusal
      (.error failure, s'))
    (apart : ∀ answer, result answer ≠ .error failure) : s' = store := by
  generalize same : (Except.error failure, s') = ends at rowEnds
  cases rowEnds with
  | invalid failure invalid => exact (Prod.mk.inj same).2
  | refused body valid error refused => exact (Prod.mk.inj same).2
  | answered body valid answer part users answered =>
      exact (apart answer (Prod.mk.inj same).1.symm).elim

end Ends

theorem rowValue_error {entity : Entity} {row : Rest.Model entity.Column}
    {failure : Failure} (failed : rowValue entity row = .error failure) :
    failure = .internal := by
  unfold rowValue at failed
  cases written : entity.toValue row with
  | ok value => simp [written, Except.mapError] at failed
  | error error =>
      simp only [written, Except.mapError, Except.error.injEq] at failed
      exact failed.symm

/-- The principal of a call has an account. -/
structure HasAccount (handle : Handle entities F64) (store : Store entities)
    (account : UserRow) : Prop where
  consistent : store.users.view.Consistent
  found : handle.account store = some account

section Account

variable {handle : Handle entities F64} {store : Store entities}
  {account : UserRow}

omit [DecidableEq ι] in
theorem HasAccount.known (has : HasAccount handle store account) (i : ι) :
    Rest.Known (store.part i).users (Handle.agent account.subject)
      account where
  consistent := has.consistent
  listed := List.mem_of_find?_eq_some has.found
  subject := rfl

theorem create_ends (i : ι) (has : HasAccount handle store account) (e : Calm entities)
    (body : Value) :
    RowEnds i store (modelFromJson (entities i) body) Failure.ofCreate
      (rowValue (entities i))
      (fun _ _ part => part.table.rows.length =
        (store.tables i).rows.length + 1) (fun _ _ => True)
      ((Writer.create i (Handle.agent account.subject) body).run serve e
        store) := by
  apply rowCode_ends e
  intro model _
  exact Rest.ends_create (fun _ => rfl) (has.known i) model

theorem delete_ends (i : ι) (has : HasAccount handle store account) (e : Calm entities)
    (id : ℤ) :
    RowEnds i store (.ok () : Except Failure Unit) Failure.ofRest
      (fun _ => .ok (.object [("deleted", .bool true)]))
      (fun (_ : Unit) (_ : Unit) part => part.table.rows.length <
        (store.tables i).rows.length) (fun _ _ => True)
      ((Writer.delete i (Handle.agent account.subject) id).run serve e
        store) := by
  have ends : RowEnds i store (.ok () : Except Failure Unit) Failure.ofRest
      (fun _ => .ok (.object [("deleted", .bool true)])) _ _
      ((rowCode i (.ok ()) Failure.ofRest
        (fun _ => Rest.delete (entities i).resource
          (Handle.agent account.subject) id)
        fun _ => .ok (.object [("deleted", .bool true)])).run serve e store) :=
    rowCode_ends e fun _ _ => Rest.ends_delete (fun _ => rfl) (has.known i) id
  exact ends

theorem update_ends (i : ι) (has : HasAccount handle store account) (e : Calm entities)
    (id : ℤ) (body : Value) :
    RowEnds i store (modelFromJson (entities i) body) Failure.ofRest
      (rowValue (entities i))
      (fun model record part => ∃ row active,
        Rest.Updates (entities i).resource (store.part i)
          (Handle.agent account.subject) account id model row active ∧
        record = Rest.Table.overwrite (Rest.updateActive (entities i).resource
          row.values id active) row.values ∧
        part.table.rows = (store.tables i).updatedRows (.ofId id)
          (Rest.updateActive (entities i).resource row.values id active) ∧
        part.table.used = (store.tables i).used)
      (fun model _ => ∀ row active,
        Rest.Updates (entities i).resource (store.part i)
          (Handle.agent account.subject) account id model row active →
        Rest.Table.overwrite (Rest.updateActive (entities i).resource
          row.values id active) row.values ≠ row.values)
      ((Writer.update i (Handle.agent account.subject) id body).run serve e
        store) := by
  apply rowCode_ends e
  intro model _
  exact Rest.ends_update (fun _ => rfl) (has.known i) id model

theorem create_unique {s' : Store entities}
    (has : HasAccount handle store account) {e : Calm entities} {body : Value}
    (ran : (Writer.create i (Handle.agent account.subject) body).run serve e
      store = (.error .uniqueViolation, s')) : s' = store := by
  have ends := create_ends i has e body
  rw [ran] at ends
  apply ends.unchanged
  intro row failed
  have internal := rowValue_error failed
  cases internal

theorem create_changes {s' : Store entities}
    (has : HasAccount handle store account) {e : Calm entities} {body value : Value}
    (ran : (Writer.create i (Handle.agent account.subject) body).run serve e
      store = (.ok value, s')) : s'.tables ≠ store.tables := by
  have ends := create_ends i has e body
  rw [ran] at ends
  obtain ⟨_, _, part, _, longer, _, rfl⟩ := ends.of_ok
  intro same
  have table : part.table = store.tables i := by
    rw [← same]
    simp [Store.put]
  rw [table] at longer
  omega

theorem delete_changes {s' : Store entities}
    (has : HasAccount handle store account) {e : Calm entities} {id : ℤ}
    {value : Value}
    (ran : (Writer.delete i (Handle.agent account.subject) id).run serve e
      store = (.ok value, s')) : s'.tables ≠ store.tables := by
  have ends := delete_ends i has e id
  rw [ran] at ends
  obtain ⟨_, _, part, _, shorter, _, rfl⟩ := ends.of_ok
  intro same
  have table : part.table = store.tables i := by
    rw [← same]
    simp [Store.put]
  rw [table] at shorter
  omega

/-- An update that succeeds without a change writes what its row holds. -/
theorem update_unchanged_iff (i : ι) (has : HasAccount handle store account)
    (e : Calm entities) (id : ℤ) (body value : Value) :
    (Writer.update i (Handle.agent account.subject) id body).run serve e
        store = (.ok value, store) ↔
      ∃ model row active, modelFromJson (entities i) body = .ok model ∧
        Rest.Updates (entities i).resource (store.part i)
          (Handle.agent account.subject) account id model row active ∧
        Rest.Table.overwrite (Rest.updateActive (entities i).resource
          row.values id active) row.values = row.values ∧
        rowValue (entities i) row.values = .ok value := by
  have ends := update_ends i has e id body
  constructor
  · intro ran
    rw [ran] at ends
    obtain ⟨model, record, part, valid, written, returned, same⟩ := ends.of_ok
    obtain ⟨row, active, updates, rfl, rows, _⟩ := written
    have table : part.table = store.tables i := by
      have tables := congrArg (fun s : Store entities => s.tables i) same
      simpa [Store.put] using tables.symm
    rw [table] at rows
    have unchanged := (Rest.Table.updatedRows_eq_iff updates.found).mp
      rows.symm
    rw [unchanged] at returned
    exact ⟨model, row, active, valid, updates, unchanged, returned⟩
  · intro settled
    obtain ⟨model, row, active, valid, updates, unchanged, returned⟩ := settled
    generalize (Writer.update i (Handle.agent account.subject) id body).run
      serve e store = result at ends ⊢
    cases ends with
    | invalid failure invalid =>
        rw [valid] at invalid
        cases invalid
    | refused other valid' error refused =>
        obtain rfl := Except.ok.inj (valid.symm.trans valid')
        exact (refused row active updates unchanged).elim
    | answered other valid' answer part users answered =>
        obtain rfl := Except.ok.inj (valid.symm.trans valid')
        obtain ⟨row', active', updates', rfl, rows, used⟩ := answered
        obtain rfl := Option.some.inj
          (updates.found.symm.trans updates'.found)
        obtain rfl := Except.ok.inj
          (updates.hooked.symm.trans updates'.hooked)
        rw [unchanged, returned]
        have kept := (Rest.Table.updatedRows_eq_iff updates.found).mpr
          unchanged
        have same : part = store.part i := by
          apply Rest.Store.ext users
          exact Rest.Table.ext (rows.trans kept) used
        rw [same, store.put_part]

end Account

end MiryadCore.Lymaille
