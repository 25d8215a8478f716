import MiryadCore.Rest.Access

/-!
# What an operation leaves behind

For a known caller and statements that succeed.  An operation that fails
changes nothing, none changes the users, and an update that succeeds without a
change is one that writes what the row holds.
-/

namespace MiryadCore.Rest

open Users (DbErr UserRow)

variable {Column : Type} [DecidableEq Column] [Fintype Column]
  {resource : Resource Column} {store : Store resource.toSchema}
  {principal : AuthPrincipal} {user : UserRow} {env : Type}
  {conditions : env → Conditions Column}

/-- The last request of an operation, under conditions without faults. -/
theorem Ends.request {schema : Schema Column} {store : Store schema}
    {translate : DbErr → RestError} {asked : Request Column}
    {post : asked.Reply → Store schema → Prop} {refusal : RestError → Prop}
    (faultless : ∀ e, (conditions e).fault = none)
    (replied : ∀ e reply after,
      store.perform e asked = .ok (reply, after) → post reply after)
    (refused : ∀ e cause, store.perform e asked = .error cause →
      refusal (translate cause)) :
    Ends conditions (Query.askWith translate asked) store post refusal := by
  intro s same e
  subst same
  refine ⟨trivial, ?_⟩
  cases result : store.perform (conditions e) asked with
  | error cause =>
      simp only [exec, faultless, result]
      intro later same
      exact ⟨same.symm, Or.inr (refused _ cause result)⟩
  | ok reply =>
      simp only [exec, faultless, result]
      intro later same
      exact same ▸ replied _ _ _ result

theorem Ends.fail {schema : Schema Column} {store : Store schema} {α : Type}
    {error : RestError} {post : α → Store schema → Prop}
    {refusal : RestError → Prop} (holds : refusal error) :
    Ends conditions (Query.fail error) store post refusal := by
  apply Query.Meets.fail
  intro s' same
  exact ⟨same.symm, Or.inr holds⟩

theorem Ends.run {schema : Schema Column} {store : Store schema} {α : Type}
    {query : Api Column α} {post : α → Store schema → Prop}
    {refusal : RestError → Prop}
    (faultless : ∀ e, (conditions e).fault = none) (e : env)
    (ends : Ends conditions query store post refusal) :
    match query.run (fun e => exec (conditions e)) e store with
    | (.ok value, s') => post value s'
    | (.error error, s') => s' = store ∧ refusal error := by
  have final := Query.Meets.run_steady (fun _ => rfl) e ends
  cases result : query.run (fun e => exec (conditions e)) e store with
  | mk answer after =>
      rw [result] at final
      cases answer with
      | ok value => exact final
      | error error =>
          exact ⟨final.1, final.2.resolve_left (not_failure faultless error)⟩

/-- What a creation inserts, once the hook has answered. -/
def createActive (resource : Resource Column) (user : UserRow)
    (active : ActiveModel Column) : ActiveModel Column :=
  setOwner resource (fun _ => .ofId user.id)
    (Function.update active resource.primaryKey .notSet)

/-- An `INSERT` alone. -/
theorem run_insert {schema : Schema Column} {store : Store schema}
    (faultless : ∀ e, (conditions e).fault = none) (e : env)
    (creator : String) (active : ActiveModel Column) :
    (request (.insert creator active)).run (fun e => exec (conditions e)) e
        store =
      match store.table.insert (conditions e) creator active with
      | .error cause => (.error (.database cause), store)
      | .ok (row, table) => (.ok row.values, { store with table }) := by
  have asked : (request (.insert creator active)).run
      (fun e => exec (conditions e)) e store =
        ((exec (conditions e) store (.insert creator active)).1.mapError
          RestError.database,
          (exec (conditions e) store (.insert creator active)).2) := rfl
  rw [asked]
  cases inserted : store.table.insert (conditions e) creator active with
  | error cause =>
      simp [exec, faultless, Store.perform, inserted, Except.map,
        Except.mapError]
  | ok answer =>
      simp [exec, faultless, Store.perform, inserted, Except.map,
        Except.mapError]

/-- What a creation does. -/
theorem run_create (faultless : ∀ e, (conditions e).fault = none)
    (known : Known store.users principal user) (e : env)
    (body : Model Column) :
    ∃ allowed : Bool,
      (allowed = true ↔ MayCreate store.users.view user.id
        resource.writePolicy resource.ownerColumn) ∧
      (create resource principal body).run (fun e => exec (conditions e)) e
          store =
        if allowed then
          match resource.hooks.beforeCreate
              (markAllSet body.intoActiveModel) principal with
          | .error error => (.error (.application error), store)
          | .ok active =>
              match store.table.insert (conditions e) principal.subject
                  (createActive resource user active) with
              | .error cause => (.error (.database cause), store)
              | .ok (row, table) => (.ok row.values, { store with table })
        else (.error .forbidden, store) := by
  have users : ∀ {α : Type} {query : Users.Db α} {post : α → Prop},
      Users.Reads (userConditions conditions) query store.users post →
        ∃ value, (ofUsers query).run (fun e => exec (conditions e)) e store =
          (.ok value, store) ∧ post value := by
    intro α query post reads
    obtain ⟨value, ran, holds⟩ := reads.run faultless e
    refine ⟨value, (run_ofUsers e query).trans ?_, holds⟩
    have ran' : query.run (fun e => Users.exec .left
        (userConditions conditions e)) e store.users = _ := ran
    rw [ran']
    rfl
  obtain ⟨found, resolved, same⟩ := users (Users.reads_resolveUser
    known.consistent.userSubjects known.listed principal.email)
  subst same
  have decides : Users.Reads (userConditions conditions)
      (canCreate resource found) store.users _ :=
    reads_canCreate known.consistent.groupNames
  obtain ⟨allowed, decided, meaning⟩ := users decides
  refine ⟨allowed, meaning, ?_⟩
  unfold create
  rw [known.subject]
  refine (Query.run_bind_ok resolved).trans ?_
  refine (Query.run_bind_ok decided).trans ?_
  cases allowed with
  | false => rfl
  | true =>
      rw [if_pos rfl, if_pos rfl]
      dsimp only
      cases hooked : resource.hooks.beforeCreate
          (markAllSet body.intoActiveModel) principal with
      | error error => rfl
      | ok active =>
          refine (Query.run_bind_ok rfl).trans ?_
          have inserts : (request (.insert found.subject
              (createActive resource found active))).run
                (fun e => exec (conditions e)) e store = _ :=
            run_insert faultless e found.subject _
          apply inserts.trans
          dsimp only
          cases store.table.insert (conditions e) found.subject
              (createActive resource found active) with
          | error cause => rfl
          | ok answer => rfl

/-- A creation adds a row. -/
theorem ends_create (faultless : ∀ e, (conditions e).fault = none)
    (known : Known store.users principal user) (body : Model Column) :
    Ends conditions (create resource principal body) store
      (fun _ s' => s'.users = store.users ∧
        s'.table.rows.length = store.table.rows.length + 1)
      (fun _ => True) := by
  apply known.bind
  apply Answers.bind (Answers.ofUsers reads_canCreate_any)
  intro allowed _
  cases allowed with
  | false => exact Ends.fail trivial
  | true =>
      apply Answers.bind (answers_ofHook _ fun _ _ => trivial)
      intro active _
      apply Ends.request faultless
      case refused => exact fun _ _ _ => trivial
      intro e reply after performed
      simp only [Store.perform] at performed
      cases inserted : store.table.insert e principal.subject
          (setOwner resource (fun _ => .ofId user.id)
            (Function.update active resource.primaryKey .notSet)) with
      | error error => simp [inserted, Except.map] at performed
      | ok answer =>
          rw [inserted] at performed
          obtain ⟨row, table⟩ := answer
          obtain ⟨_, _, _, _, _, rows⟩ := Table.insert_ok inserted
          rw [← (Prod.mk.inj (Except.ok.inj performed)).2]
          refine ⟨rfl, ?_⟩
          rw [rows, List.length_append, List.length_singleton]

/-- A deletion removes a row. -/
theorem ends_delete (faultless : ∀ e, (conditions e).fault = none)
    (known : Known store.users principal user) (id : ℤ) :
    Ends conditions (delete resource principal id) store
      (fun _ s' => s'.users = store.users ∧
        s'.table.rows.length < store.table.rows.length)
      (fun _ => True) := by
  apply known.bind
  apply Answers.bind answers_authorized_any
  intro existing read
  obtain ⟨row, found, _⟩ := Option.map_eq_some_iff.mp read
  obtain ⟨fewer, counted⟩ := Table.delete_lt found
  apply Answers.bind (answers_ofHook _ fun _ _ => trivial)
  intro _ _
  apply Query.Meets.bind fun _ => rfl
  have deleted : Ends conditions (request (.delete id)) store
      (fun affected s' => affected = (store.table.delete id).1 ∧
        s' = { store with table := (store.table.delete id).2 })
      (fun _ => True) := by
    apply Ends.request faultless
    case refused => exact fun _ _ _ => trivial
    intro e reply after performed
    obtain ⟨rfl, rfl⟩ := Prod.mk.inj (Except.ok.inj performed)
    exact ⟨rfl, rfl⟩
  apply Query.Meets.mono deleted
  case weakerErr =>
    intro error s' after later same
    exact same ▸ after
  intro affected s' after
  obtain ⟨rfl, rfl⟩ := after
  rw [if_neg counted.ne']
  apply Query.Meets.pure
  intro later same
  rw [← same]
  exact ⟨rfl, fewer⟩

/-- What an update writes, once the hook has answered. -/
def updateActive (resource : Resource Column) (existing : Model Column)
    (id : ℤ) (active : ActiveModel Column) : ActiveModel Column :=
  setOwner resource existing
    (Function.update active resource.primaryKey (.set (.ofId id)))

/-- The row of an update that is allowed, with what the hook answers. -/
structure Updates (resource : Resource Column)
    (store : Store resource.toSchema) (principal : AuthPrincipal)
    (user : UserRow) (id : ℤ) (body : Model Column) (row : StoredRow Column)
    (active : ActiveModel Column) : Prop where
  found : store.table.find id = some row
  allowed : Allowed store.users.view user.id resource.writePolicy
    resource.ownerColumn row.values
  hooked : resource.hooks.beforeUpdate (markAllSet body.intoActiveModel)
    row.values principal = .ok active

/-- An update writes the row that it is allowed to write; it cannot fail when
it writes what is there. -/
theorem ends_update (faultless : ∀ e, (conditions e).fault = none)
    (known : Known store.users principal user) (id : ℤ)
    (body : Model Column) :
    Ends conditions (update resource principal id body) store
      (fun record s' => s'.users = store.users ∧
        ∃ row active,
          Updates resource store principal user id body row active ∧
          record = Table.overwrite
            (updateActive resource row.values id active) row.values ∧
          s'.table.rows = store.table.updatedRows (.ofId id)
            (updateActive resource row.values id active) ∧
          s'.table.used = store.table.used)
      (fun _ => ∀ row active,
        Updates resource store principal user id body row active →
          Table.overwrite (updateActive resource row.values id active)
            row.values ≠ row.values) := by
  apply known.bind
  have reads : Answers conditions
      (authorized resource resource.writePolicy user id) store
      (fun record => ∃ row, store.table.find id = some row ∧
        row.values = record ∧
        Allowed store.users.view user.id resource.writePolicy
          resource.ownerColumn record)
      (fun _ => ∀ row active,
        Updates resource store principal user id body row active →
          Table.overwrite (updateActive resource row.values id active)
            row.values ≠ row.values) := by
    apply Answers.mono (answers_authorized known.consistent.groupNames)
    · intro record answer
      obtain ⟨row, found, rfl⟩ := Option.map_eq_some_iff.mp answer.1
      exact ⟨row, found, rfl, answer.2⟩
    · intro error refused row active updates
      rcases refused with ⟨_, denied | ⟨record, same, refused⟩⟩ | absent
      · exact (denied.not_allowed updates.allowed).elim
      · rw [updates.found] at same
        obtain rfl := Option.some.inj same
        exact (refused updates.allowed).elim
      · have found := updates.found
        rw [absent.2.2] at found
        cases found
  apply Answers.bind reads
  intro existing read
  obtain ⟨row, found, rfl, allowed⟩ := read
  have same : ∀ {other active},
      Updates resource store principal user id body other active →
        other = row := by
    intro other active updates
    exact Option.some.inj (updates.found.symm.trans found)
  refine Answers.bind (answers_ofHook _ ?hook) ?written
  case hook =>
    intro error refused other active updates
    have hooked := updates.hooked
    rw [same updates, refused] at hooked
    cases hooked
  intro active hooked
  have named : updateActive resource row.values id active
      resource.primaryKey = .set (.ofId id) :=
    setOwner_key (Table.find_some found).2
  apply Ends.request faultless
  case replied =>
    intro e reply after performed
    simp only [Store.perform] at performed
    cases updated : store.table.update
        (updateActive resource row.values id active) with
    | error error =>
        unfold updateActive at updated
        simp [updated, Except.map] at performed
    | ok answer =>
        obtain ⟨written, table⟩ := answer
        obtain ⟨old, read, rfl, rows, used⟩ := Table.update_ok named updated
        obtain rfl := Option.some.inj (read.symm.trans found)
        unfold updateActive at updated
        rw [updated] at performed
        obtain ⟨rfl, rfl⟩ := Prod.mk.inj (Except.ok.inj performed)
        exact ⟨rfl, old, active, ⟨found, allowed, hooked⟩, rfl, rows, used⟩
  case refused =>
    intro e cause performed other active' updates unchanged
    obtain rfl := same updates
    obtain rfl := Except.ok.inj (hooked.symm.trans updates.hooked)
    have updated := Table.update_of_overwrite named found unchanged
    unfold updateActive at updated
    simp [Store.perform, updated, Except.map] at performed

end MiryadCore.Rest
