import MiryadCore.Rest.Access

/-!
# Keys and owners

Whatever the bodies and the hooks, a row keeps the primary key that it was
given, and a row that `create` has inserted belongs to its creator.
-/

namespace MiryadCore.Rest

open Users (DbErr UserRow)

variable {Column : Type} [DecidableEq Column] [Fintype Column]

inductive Operation (Column : Type) where
  | create (body : Model Column)
  | update (id : ℤ) (body : Model Column)
  | delete (id : ℤ)

/-- One operation of a principal, with the hooks as they behave during it and
the conditions of its statements. -/
structure Call (Column : Type) where
  principal : AuthPrincipal
  operation : Operation Column
  hooks : Hooks Column
  envs : ℕ → Conditions Column

/-- The store after an operation, whatever its answer. -/
def step (resource : Resource Column) (store : Store resource.toSchema)
    (call : Call Column) : Store resource.toSchema :=
  let resource := { resource with hooks := call.hooks }
  match call.operation with
  | .create body =>
      (Script.run exec call.envs (create resource call.principal body)
        store).2
  | .update id body =>
      (Script.run exec call.envs (update resource call.principal id body)
        store).2
  | .delete id =>
      (Script.run exec call.envs (delete resource call.principal id) store).2

def run (resource : Resource Column) (calls : List (Call Column))
    (store : Store resource.toSchema) : Store resource.toSchema :=
  calls.foldl (step resource) store

/-- Any tables, before the first operation. -/
def Store.start {schema : Schema Column} (db : Users.Database)
    (table : Table schema) : Store schema where
  users := .start db
  table := { table with
    rows := table.rows.map fun row =>
      { row with
        given := schema.keyOf row.values
        drawn := true
        creator := none }
    fits := by
      intro row member
      obtain ⟨other, listed, rfl⟩ := List.mem_map.mp member
      exact table.fits other listed
    keys := by
      rw [List.map_map]
      exact table.keys
    unique := by
      rw [List.pairwise_map]
      exact table.unique }

/-- Rows keep their keys, which the database drew unless the key is the owner,
and those that were created keep their owner. -/
structure Owned (resource : Resource Column)
    (store : Store resource.toSchema) : Prop where
  closed : store.users.pending = none
  keys : ∀ row ∈ store.table.rows,
    row.values resource.primaryKey = .ofId row.given
  drawn : ∀ row ∈ store.table.rows,
    resource.ownerColumn ≠ some resource.primaryKey → row.drawn = true
  owners : ∀ row ∈ store.table.rows, ∀ subject, row.creator = some subject →
    ∀ column, resource.ownerColumn = some column →
      ∃ user ∈ store.users.view.users, user.subject = subject ∧
        row.values column = .ofId user.id

variable {resource : Resource Column} {store : Store resource.toSchema}

omit [DecidableEq Column] [Fintype Column] in
theorem Owned.start (db : Users.Database) (table : Table resource.toSchema) :
    Owned resource (Store.start db table) where
  closed := rfl
  keys := by
    intro row member
    obtain ⟨other, listed, rfl⟩ := List.mem_map.mp member
    exact (table.fits other listed).1
  drawn := by
    intro row member _
    obtain ⟨other, listed, rfl⟩ := List.mem_map.mp member
    rfl
  owners := by
    intro row member subject created
    obtain ⟨other, listed, rfl⟩ := List.mem_map.mp member
    cases created

omit [DecidableEq Column] [Fintype Column] in
theorem Owned.grown {store' : Store resource.toSchema}
    (owned : Owned resource store) (table : store'.table = store.table)
    (grown : Users.Grown store.users store'.users) :
    Owned resource store' where
  closed := grown.2
  keys := by
    rw [table]
    exact owned.keys
  drawn := by
    rw [table]
    exact owned.drawn
  owners := by
    rw [table]
    intro row member subject created column declared
    obtain ⟨user, known, same, owner⟩ :=
      owned.owners row member subject created column declared
    exact ⟨user, grown.1 known, same, owner⟩

omit [Fintype Column] in
theorem setOwner_owner {owner : Column → SeaValue}
    {active : ActiveModel Column} {column : Column}
    (declared : resource.ownerColumn = some column) :
    setOwner resource owner active column = .set (owner column) := by
  simp [setOwner, declared]

omit [Fintype Column] in
theorem setOwner_unset {owner : Column → SeaValue}
    {active : ActiveModel Column}
    (apart : resource.ownerColumn ≠ some resource.primaryKey) :
    setOwner resource owner
      (Function.update active resource.primaryKey .notSet)
        resource.primaryKey = .notSet := by
  cases declared : resource.ownerColumn with
  | none => simp [setOwner, declared]
  | some column =>
      have other : resource.primaryKey ≠ column := by
        intro same
        exact apart (declared.trans (congrArg some same.symm))
      simp [setOwner, declared, other]

/-- An insert for a user, whatever the active model. -/
theorem Owned.insert {conditions : Conditions Column} {user : UserRow}
    {active : ActiveModel Column} {row : StoredRow Column}
    {table : Table resource.toSchema} (owned : Owned resource store)
    (known : user ∈ store.users.view.users)
    (inserted : store.table.insert conditions user.subject
      (setOwner resource (fun _ => .ofId user.id)
        (Function.update active resource.primaryKey .notSet)) =
          .ok (row, table)) :
    Owned resource { store with table } := by
  obtain ⟨values, given, drawn, creator, fits, rows⟩ := Table.insert_ok inserted
  constructor
  case closed => exact owned.closed
  case keys =>
    intro other member
    rw [rows] at member
    rcases List.mem_append.mp member with old | new
    · exact owned.keys other old
    · rw [List.mem_singleton.mp new, given]
      exact fits.1
  case drawn =>
    intro other member apart
    rw [rows] at member
    rcases List.mem_append.mp member with old | new
    · exact owned.drawn other old apart
    · rw [List.mem_singleton.mp new, drawn, setOwner_unset apart]
      rfl
  case owners =>
    intro other member subject created column declared
    rw [rows] at member
    rcases List.mem_append.mp member with old | new
    · exact owned.owners other old subject created column declared
    · rw [List.mem_singleton.mp new] at created ⊢
      refine ⟨user, known, Option.some.inj (creator.symm.trans created), ?_⟩
      simp [values, Table.insertedValues, setOwner_owner declared,
        ActiveValue.intoValue]

/-- An update of the row that was read, whatever the active model. -/
theorem Owned.update {existing : StoredRow Column} {id : ℤ}
    {active : ActiveModel Column} {row : StoredRow Column}
    {table : Table resource.toSchema} (owned : Owned resource store)
    (found : store.table.find id = some existing)
    (updated : store.table.update (setOwner resource existing.values
      (Function.update active resource.primaryKey (.set (.ofId id)))) =
        .ok (row, table)) :
    Owned resource { store with table } := by
  obtain ⟨listed, key⟩ := Table.find_some found
  have forced : setOwner resource existing.values
      (Function.update active resource.primaryKey (.set (.ofId id)))
        resource.primaryKey = .set (.ofId id) := setOwner_key key
  obtain ⟨_, _, _, rows, _⟩ := Table.update_ok forced updated
  have kept : ∀ row ∈ table.rows, ∃ old ∈ store.table.rows,
      row.given = old.given ∧ row.drawn = old.drawn ∧
        row.creator = old.creator ∧
        row.values resource.primaryKey = old.values resource.primaryKey ∧
        ∀ column, resource.ownerColumn = some column →
          row.values column = old.values column := by
    intro row member
    rw [rows] at member
    obtain ⟨old, before, rfl⟩ := List.mem_map.mp member
    refine ⟨old, before, ?_⟩
    by_cases target : (old.values resource.primaryKey).sqlEq (.ofId id) = true
    · have sameKey := (Table.key_iff before).mp target
      obtain rfl := Table.eq_of_key listed before key sameKey
      rw [if_pos target]
      refine ⟨rfl, rfl, rfl, ?_, ?_⟩
      · simp only [Table.overwrite, forced]
        exact sameKey.symm
      · intro column declared
        simp only [Table.overwrite, setOwner_owner declared]
    · rw [if_neg target]
      exact ⟨rfl, rfl, rfl, rfl, fun _ _ => rfl⟩
  constructor
  case closed => exact owned.closed
  case keys =>
    intro row member
    obtain ⟨old, before, given, _, _, same, _⟩ := kept row member
    rw [same, given]
    exact owned.keys old before
  case drawn =>
    intro row member apart
    obtain ⟨old, before, _, drawn, _⟩ := kept row member
    rw [drawn]
    exact owned.drawn old before apart
  case owners =>
    intro row member subject created column declared
    obtain ⟨old, before, _, _, creator, _, same⟩ := kept row member
    rw [same column declared]
    exact owned.owners old before subject (creator ▸ created) column declared

omit [DecidableEq Column] [Fintype Column] in
theorem Owned.delete (owned : Owned resource store) (id : ℤ) :
    Owned resource { store with table := (store.table.delete id).2 } where
  closed := owned.closed
  keys := fun row member => owned.keys row (List.mem_of_mem_filter member)
  drawn := fun row member => owned.drawn row (List.mem_of_mem_filter member)
  owners := fun row member =>
    owned.owners row (List.mem_of_mem_filter member)

/-- A query that keeps keys and owners. -/
abbrev Keeps {α : Type} (resource : Resource Column) (query : Api Column α)
    (store : Store resource.toSchema) : Prop :=
  Query.Meets exec Eq (fun _ _ => True) query (fun _ => Owned resource)
    (fun _ => Owned resource) store

/-- Every operation starts by resolving its user. -/
theorem keeps_user {α : Type} {principal : AuthPrincipal}
    {next : UserRow → Api Column α} (owned : Owned resource store)
    (rest : ∀ user store', Owned resource store' →
      user.subject = principal.subject → user ∈ store'.users.view.users →
        Keeps resource (next user) store') :
    Keeps resource
      (ofUsers (Users.resolveUser principal.subject principal.email) >>= next)
      store := by
  have resolved : Query.Meets
      (fun e : Conditions Column => Users.exec .left (userConditions id e)) Eq
      (fun _ _ => True)
      (Users.resolveUser principal.subject principal.email) _ _ store.users :=
    Users.meets_resolveUser owned.closed principal.subject principal.email
  apply Query.Meets.bind fun _ => rfl
  apply Query.Meets.mono (meets_ofUsers resolved)
  · intro user s' after
    obtain ⟨table, named, known, grown⟩ := after
    exact rest user s' (owned.grown table grown) named known
  · intro error s' after later same
    obtain ⟨table, _, _, grown⟩ := after
    exact same ▸ owned.grown table grown

theorem keeps_bind {α β : Type} {query : Api Column α}
    {next : α → Api Column β} {middle : α → Prop}
    (owned : Owned resource store)
    (answers : Answers id query store middle fun _ => True)
    (rest : ∀ value, middle value → Keeps resource (next value) store) :
    Keeps resource (query >>= next) store := by
  apply Query.Meets.bind fun _ => rfl
  apply Query.Meets.mono answers
  · intro value s' after
    obtain ⟨rfl, holds⟩ := after
    exact rest value holds
  · intro error s' after later same
    rw [← same, after.1]
    exact owned

theorem keeps_fail {α : Type} {error : RestError}
    (owned : Owned resource store) :
    Keeps resource (Query.fail error : Api Column α) store := by
  apply Query.Meets.fail
  intro later same
  exact same ▸ owned

theorem keeps_request {translate : DbErr → RestError} {asked : Request Column}
    (owned : Owned resource store)
    (replied : ∀ e reply after,
      store.perform e asked = .ok (reply, after) → Owned resource after) :
    Keeps resource (Query.askWith translate asked) store := by
  intro s same e
  subst same
  refine ⟨trivial, ?_⟩
  cases result : exec e store asked with
  | mk answer after =>
      cases answer with
      | ok reply =>
          intro later same
          exact same ▸ replied e reply after (exec_ok result)
      | error error =>
          intro later same
          rw [← same, exec_error result]
          exact owned

theorem keeps_create {principal : AuthPrincipal} {body : Model Column}
    (owned : Owned resource store) :
    Keeps resource (create resource principal body) store := by
  apply keeps_user owned
  intro user store owned named known
  apply keeps_bind owned (Answers.ofUsers reads_canCreate_any)
  intro allowed _
  cases allowed with
  | false => exact keeps_fail owned
  | true =>
      apply keeps_bind owned (answers_ofHook _ fun _ _ => trivial)
      intro active _
      apply keeps_request owned
      intro e reply after performed
      simp only [Store.perform] at performed
      cases inserted : store.table.insert e principal.subject
          (setOwner resource (fun _ => .ofId user.id)
            (Function.update active resource.primaryKey .notSet)) with
      | error error => simp [inserted, Except.map] at performed
      | ok answer =>
          rw [inserted] at performed
          rw [← named] at inserted
          obtain ⟨row, table⟩ := answer
          rw [← (Prod.mk.inj (Except.ok.inj performed)).2]
          exact owned.insert known inserted

theorem keeps_update {principal : AuthPrincipal} {id : ℤ}
    {body : Model Column} (owned : Owned resource store) :
    Keeps resource (update resource principal id body) store := by
  apply keeps_user owned
  intro user store owned named known
  apply keeps_bind owned answers_authorized_any
  intro existing read
  obtain ⟨stored, found, rfl⟩ := Option.map_eq_some_iff.mp read
  apply keeps_bind owned (answers_ofHook _ fun _ _ => trivial)
  intro active _
  apply keeps_request owned
  intro e reply after performed
  simp only [Store.perform] at performed
  cases updated : store.table.update
      (setOwner resource stored.values
        (Function.update active resource.primaryKey (.set (.ofId id)))) with
  | error error => simp [updated, Except.map] at performed
  | ok answer =>
      rw [updated] at performed
      obtain ⟨row, table⟩ := answer
      rw [← (Prod.mk.inj (Except.ok.inj performed)).2]
      exact owned.update found updated

theorem keeps_delete {principal : AuthPrincipal} {id : ℤ}
    (owned : Owned resource store) :
    Keeps resource (delete resource principal id) store := by
  apply keeps_user owned
  intro user store owned named known
  apply keeps_bind owned answers_authorized_any
  intro existing found
  apply keeps_bind owned (answers_ofHook _ fun _ _ => trivial)
  intro _ _
  apply Query.Meets.bind fun _ => rfl
  have deleted : Keeps resource (request (.delete id)) store := by
    apply keeps_request owned
    intro e reply after performed
    rw [← (Prod.mk.inj (Except.ok.inj performed)).2]
    exact owned.delete id
  apply Query.Meets.mono deleted
  · intro affected s' owned
    split
    · exact keeps_fail owned
    · apply Query.Meets.pure
      intro later same
      exact same ▸ owned
  · intro error s' owned later same
    exact same ▸ owned

theorem Owned.step (owned : Owned resource store) (call : Call Column) :
    Owned resource (step resource store call) := by
  have hooked : Owned { resource with hooks := call.hooks } store :=
    ⟨owned.closed, owned.keys, owned.drawn, owned.owners⟩
  have ends : ∀ {α : Type} {query : Api Column α},
      Keeps { resource with hooks := call.hooks } query store →
        Owned resource (Script.run exec call.envs query store).2 := by
    intro α query keeps
    have after := Script.Meets.run (fun _ => rfl) call.envs keeps
    cases result : (Script.run exec call.envs query store).1 with
    | ok value =>
        rw [result] at after
        exact ⟨after.closed, after.keys, after.drawn, after.owners⟩
    | error error =>
        rw [result] at after
        exact ⟨after.closed, after.keys, after.drawn, after.owners⟩
  unfold Rest.step
  cases call.operation with
  | create body => exact ends (keeps_create hooked)
  | update id body => exact ends (keeps_update hooked)
  | delete id => exact ends (keeps_delete hooked)

/-- In every state of every run, each row has the primary key that the
database gave it, and each row that `create` inserted has for owner the user of
the call that inserted it.  The `ActiveModelBehavior` of the model is the
default one. -/
theorem run_owned (mounted : Mounted Column) (db : Users.Database)
    (table : Table mounted.toSchema) (calls : List (Call Column)) :
    Owned mounted.toResource
      (run mounted.toResource calls (Store.start db table)) := by
  have runs : ∀ store : Store mounted.toSchema,
      Owned mounted.toResource store →
        Owned mounted.toResource (run mounted.toResource calls store) := by
    induction calls with
    | nil => exact fun _ owned => owned
    | cons call calls induction =>
        exact fun store owned => induction _ (owned.step call)
  exact runs _ (Owned.start db table)

end MiryadCore.Rest
