import MiryadCore.Control.History
import MiryadCore.Rest.Changes
import MiryadCore.Rest.RouteRights

/-!
# Operations beside each other

Any number of operations run on one store, their requests in any order.  A row
that was read keeps its owner and its frame as long as it is there, and its id
is not drawn again; so the rights that an operation was told to have on the
row that it read are those on the row that it writes.
-/

namespace MiryadCore.Rest

open Users (DbErr UserRow)

variable {Column : Type} [DecidableEq Column] [Fintype Column]
  {framed : Framed Column}

/-- The ids of the rows were drawn before the first operation. -/
def Table.begun {schema : Schema Column} (table : Table schema) :
    Table schema :=
  { table with
    used := (table.rows.map fun row => schema.keyOf row.values) ++ table.used }

/-- The service of the operations.  A request never waits. -/
def routes {calls : Type} (route : calls → Routed framed) :
    System calls (Request Column) (fun asked => Except DbErr asked.Reply)
      (Conditions Column) (Store framed.toSchema)
      (Except RestError (Option (Model Column))) where
  program one := (route one).program
  exec := exec
  ready _ _ := true
  spawns _ := none

/-- The owner and the columns of the frame. -/
def Kept (framed : Framed Column) (old row : Model Column) : Prop :=
  ∀ column, column ∈ framed.frame ∨ framed.ownerColumn = some column →
    row column = old column

/-- The one change of an operation that succeeds. -/
inductive Rightful (call : Routed framed) (past : List (Told Column))
    (before after : Table framed.toSchema) : Prop where
  | creates {body : Model Column} {row : StoredRow Column} {account : ℤ} :
      call.operation = .create body →
      before.Adds after row →
      row.creator = some call.principal.subject →
      AccountOf past call.principal.subject account →
      May past account framed.writePolicy (framed.ownerColumn.isSome = true) →
      (∀ column, framed.ownerColumn = some column →
        row.values column = .ofId account) →
      Rightful call past before after
  | rewrites {id : ℤ} {body : Model Column} {old row : StoredRow Column} :
      call.operation = .update id body →
      framed.keyOf old.values = id →
      before.Replaces after old row →
      row.creator = old.creator →
      MayWrite past framed.toResource call.principal.subject old.values →
      Kept framed old.values row.values →
      Rightful call past before after
  | removes {id : ℤ} {old : StoredRow Column} :
      call.operation = .delete id →
      framed.keyOf old.values = id →
      before.Drops after old →
      MayWrite past framed.toResource call.principal.subject old.values →
      Rightful call past before after

section Columns

variable {old between row : Model Column} {past : List (Told Column)}
  {subject : String}

omit [DecidableEq Column] [Fintype Column]

theorem Kept.refl (row : Model Column) : Kept framed row row :=
  fun _ _ => rfl

theorem Kept.trans (first : Kept framed old between)
    (second : Kept framed between row) : Kept framed old row :=
  fun column member => (second column member).trans (first column member)

theorem MayWrite.of_kept
    (may : MayWrite past framed.toResource subject old)
    (kept : Kept framed old row) :
    MayWrite past framed.toResource subject row := by
  obtain ⟨account, known, may⟩ := may
  refine ⟨account, known, may.imp ?_⟩
  rintro ⟨column, owner, same⟩
  exact ⟨column, owner, (kept column (Or.inr owner)).trans same⟩

end Columns

namespace Rightful

variable {call : Routed framed} {past : List (Told Column)}
  {before after : Table framed.toSchema} {id : ℤ} {values : Model Column}

omit [DecidableEq Column] [Fintype Column]

theorem grows (rightful : Rightful call past before after)
    (used : id ∈ before.used) : id ∈ after.used := by
  cases rightful with
  | creates _ adds _ _ _ _ =>
      rw [adds.used]
      exact List.mem_cons_of_mem _ used
  | rewrites _ _ replaces _ _ _ => exact replaces.used.symm ▸ used
  | removes _ _ drops _ => exact drops.used.symm ▸ used

theorem used (rightful : Rightful call past before after)
    (held : ∀ row ∈ before.rows, framed.keyOf row.values ∈ before.used) :
    ∀ row ∈ after.rows, framed.keyOf row.values ∈ after.used := by
  intro row member
  have grows : ∀ {id}, id ∈ before.used → id ∈ after.used := rightful.grows
  cases rightful with
  | creates _ adds _ _ _ _ =>
      rcases adds.cases member with old | rfl
      · exact grows (held row old)
      · rw [adds.used]
        exact List.mem_cons_self
  | rewrites _ _ replaces _ _ _ =>
      rcases replaces.cases member with old | rfl
      · exact grows (held row old.1)
      · rw [replaces.key]
        exact grows (held _ replaces.member)
  | removes _ _ drops _ => exact grows (held row (drops.subset member))

theorem origin (rightful : Rightful call past before after)
    {row : StoredRow Column} (member : row ∈ after.rows)
    (used : framed.keyOf row.values ∈ before.used) :
    ∃ old ∈ before.rows, framed.keyOf old.values = framed.keyOf row.values ∧
      row.creator = old.creator ∧ Kept framed old.values row.values := by
  cases rightful with
  | creates _ adds _ _ _ _ =>
      rcases adds.cases member with old | rfl
      · exact ⟨row, old, rfl, rfl, Kept.refl _⟩
      · exact absurd used adds.fresh
  | rewrites _ _ replaces creator _ keeps =>
      rcases replaces.cases member with old | rfl
      · exact ⟨row, old.1, rfl, rfl, Kept.refl _⟩
      · exact ⟨_, replaces.member, replaces.key.symm, creator, keeps⟩
  | removes _ _ drops _ =>
      exact ⟨row, drops.subset member, rfl, rfl, Kept.refl _⟩

end Rightful

/-- A turn, as its task is told of it. -/
def toldOf {state : Type}
    (turn : Occurrence (Request Column)
      (fun asked => Except DbErr asked.Reply) state) : Told Column :=
  ⟨turn.request, turn.answer⟩

/-- Each row has an id that was used, and a row that was read has the columns
that it was read with, as long as it is there. -/
structure Sound {state : Type} (table : Table framed.toSchema)
    (trace : List (Occurrence (Request Column)
      (fun asked => Except DbErr asked.Reply) state)) : Prop where
  used : ∀ row ∈ table.rows, framed.keyOf row.values ∈ table.used
  read : ∀ turn ∈ trace, ∀ id values,
    toldOf turn = ⟨.find id, .ok (some values)⟩ →
    id ∈ table.used ∧ values framed.primaryKey = .ofId id ∧
    ∀ row ∈ table.rows, framed.keyOf row.values = id →
      Kept framed values row.values

section Steps

variable {state : Type} {table after : Table framed.toSchema}
  {trace : List (Occurrence (Request Column)
    (fun asked => Except DbErr asked.Reply) state)}
  {call : Routed framed} {past : List (Told Column)} {id : ℤ}

omit [DecidableEq Column] [Fintype Column] in
theorem Sound.change (sound : Sound table trace)
    (rightful : Rightful call past table after) : Sound after trace where
  used := rightful.used sound.used
  read := by
    intro turn listed id values told
    obtain ⟨used, key, kept⟩ := sound.read turn listed id values told
    refine ⟨rightful.grows used, key, fun row member same => ?_⟩
    obtain ⟨old, held, key, _, keeps⟩ :=
      rightful.origin member (same.symm ▸ used)
    exact (kept old held (key.trans same)).trans keeps

omit [DecidableEq Column] [Fintype Column] in
theorem Sound.kept (sound : Sound table trace)
    (hears : ∀ told ∈ past, ∃ turn ∈ trace, toldOf turn = told)
    {existing : Model Column} (read : HasRead past id existing)
    {row : StoredRow Column} (member : row ∈ table.rows)
    (key : framed.keyOf row.values = id) :
    Kept framed existing row.values := by
  obtain ⟨turn, listed, same⟩ := hears _ read
  exact (sound.read turn listed id existing same).2.2 row member key

omit [Fintype Column] in
/-- An update leaves the owner and the frame of a row that has those of the
row that was read. -/
theorem kept_update {existing body old : Model Column}
    {hooked : ActiveModel Column}
    (key : existing framed.primaryKey = .ofId id)
    (named : old framed.primaryKey = .ofId id)
    (accepted : call.hooks.beforeUpdate (markAllSet body.intoActiveModel)
      existing call.principal = .ok hooked)
    (agrees : Kept framed existing old) :
    Kept framed old (Table.overwrite
      (updateActive framed.toResource existing id hooked) old) := by
  intro column member
  by_cases owner : framed.ownerColumn = some column
  · rw [agrees column member]
    simp [Table.overwrite, updateActive, setOwner_owner owner]
  by_cases primary : column = framed.primaryKey
  · subst primary
    have written : updateActive framed.toResource existing id hooked
        framed.primaryKey = .set (.ofId id) :=
      setOwner_key key
    simp [Table.overwrite, written, named]
  · have written : updateActive framed.toResource existing id hooked column =
        hooked column := by
      cases declared : framed.ownerColumn with
      | none => simp [updateActive, setOwner, declared, primary]
      | some owned =>
          have apart : column ≠ owned := fun same =>
            owner (same ▸ declared)
          simp [updateActive, setOwner, declared, apart, primary]
    have spared := call.spares accepted column (member.resolve_right owner)
    rw [Table.overwrite, written]
    cases set : hooked column with
    | set value =>
        rw [Table.overwrite, set] at spared
        exact spared.trans (agrees column member).symm
    | unchanged value => rfl
    | notSet => rfl

/-- The row of an insertion is the caller's. -/
theorem rightful_insert {store later : Store framed.toSchema}
    {conditions : Conditions Column} {body reply : Model Column}
    {user : UserRow} {hooked : ActiveModel Column}
    (asked : call.operation = .create body)
    (known : AccountOf past call.principal.subject user.id)
    (may : May past user.id framed.writePolicy
      (framed.ownerColumn.isSome = true))
    (performed : store.perform conditions
      (.insert call.principal.subject
        (createActive framed.toResource user hooked)) = .ok (reply, later)) :
    Rightful call past store.table later.table := by
  simp only [Store.perform] at performed
  cases inserted : store.table.insert conditions call.principal.subject
      (createActive framed.toResource user hooked) with
  | error error => simp [inserted, Except.map] at performed
  | ok answer =>
      rw [inserted] at performed
      obtain ⟨row, table⟩ := answer
      obtain ⟨_, rfl⟩ := Prod.mk.inj (Except.ok.inj performed)
      obtain ⟨adds, values, creator⟩ :=
        Table.adds_of_insert (setOwner_unset framed.apart) inserted
      refine .creates asked adds creator known may fun column owner => ?_
      simp [values, Table.insertedValues, setOwner_owner owner,
        ActiveValue.intoValue]

/-- The row of an update is the one that was read. -/
theorem rightful_update {store later : Store framed.toSchema}
    {conditions : Conditions Column} {body existing reply : Model Column}
    {hooked : ActiveModel Column} (sound : Sound store.table trace)
    (hears : ∀ told ∈ past, ∃ turn ∈ trace, toldOf turn = told)
    (asked : call.operation = .update id body)
    (read : HasRead past id existing)
    (may : MayWrite past framed.toResource call.principal.subject existing)
    (accepted : call.hooks.beforeUpdate (markAllSet body.intoActiveModel)
      existing call.principal = .ok hooked)
    (performed : store.perform conditions
      (.update (updateActive framed.toResource existing id hooked)) =
        .ok (reply, later)) :
    Rightful call past store.table later.table := by
  have key : existing framed.primaryKey = .ofId id := by
    obtain ⟨turn, listed, same⟩ := hears _ read
    exact (sound.read turn listed id existing same).2.1
  simp only [Store.perform] at performed
  cases updated : store.table.update
      (updateActive framed.toResource existing id hooked) with
  | error error => simp [updated, Except.map] at performed
  | ok answer =>
      rw [updated] at performed
      obtain ⟨row, table⟩ := answer
      obtain ⟨_, rfl⟩ := Prod.mk.inj (Except.ok.inj performed)
      obtain ⟨old, found, replaces, rfl⟩ :=
        Table.replaces_of_update (setOwner_key key) updated
      obtain ⟨listed, named⟩ := Table.find_some found
      have same := Schema.keyOf_of_eq named
      have agrees := sound.kept hears read listed same
      exact .rewrites asked same replaces rfl (may.of_kept agrees)
        (kept_update key named accepted agrees)

theorem rightful_delete {store later : Store framed.toSchema}
    {conditions : Conditions Column} {existing : Model Column} {affected : ℕ}
    (sound : Sound store.table trace)
    (hears : ∀ told ∈ past, ∃ turn ∈ trace, toldOf turn = told)
    (asked : call.operation = .delete id) (read : HasRead past id existing)
    (may : MayWrite past framed.toResource call.principal.subject existing)
    (performed : store.perform conditions (.delete id) =
      .ok (affected, later)) :
    Rightful call past store.table later.table ∧ affected ≠ 0 ∨
      later.table = store.table ∧ affected = 0 := by
  have deleted : store.table.delete id = (affected, later.table) := by
    obtain ⟨rfl, rfl⟩ := Prod.mk.inj (Except.ok.inj performed)
    rfl
  rcases store.table.delete_cases id with ⟨old, key, drops, some⟩ | none
  · rw [deleted] at drops some
    have agrees := sound.kept hears read drops.member key
    exact Or.inl ⟨.removes asked key drops (may.of_kept agrees), some⟩
  · obtain ⟨rfl, same⟩ := Prod.mk.inj (deleted.symm.trans none)
    exact Or.inr ⟨same, rfl⟩

/-- A request that is allowed writes nothing, or is a rightful change. -/
theorem serve_cases {store : Store framed.toSchema} {asked : Request Column}
    (sound : Sound store.table trace)
    (hears : ∀ told ∈ past, ∃ turn ∈ trace, toldOf turn = told)
    (allowed : Allows call past asked) (conditions : Conditions Column) :
    (¬ Told.Wrote ⟨asked, (exec conditions store asked).1⟩ ∧
      (exec conditions store asked).2.table = store.table) ∨
    (Told.Wrote ⟨asked, (exec conditions store asked).1⟩ ∧
      Rightful call past store.table
        (exec conditions store asked).2.table) := by
  cases result : exec conditions store asked with
  | mk answer later =>
      cases answer with
      | error error =>
          rw [exec_error result]
          exact Or.inl ⟨by cases asked <;> exact id, rfl⟩
      | ok reply =>
          have performed := exec_ok result
          cases allowed with
          | users statement =>
              simp only [Store.perform] at performed
              cases replied : store.users.perform .left
                  conditions.toConditions statement with
              | error error => simp [replied, Except.map] at performed
              | ok replied' =>
                  rw [replied] at performed
                  obtain ⟨_, same⟩ := Prod.mk.inj (Except.ok.inj performed)
                  exact Or.inl ⟨id, same ▸ rfl⟩
          | find sought =>
              obtain ⟨_, same⟩ := Prod.mk.inj (Except.ok.inj performed)
              exact Or.inl ⟨id, same ▸ rfl⟩
          | insert asked known may =>
              exact Or.inr ⟨trivial, rightful_insert asked known may performed⟩
          | update asked read may hooked =>
              exact Or.inr ⟨trivial,
                rightful_update sound hears asked read may hooked performed⟩
          | delete asked read may =>
              rcases rightful_delete sound hears asked read may performed with
                ⟨rightful, affected⟩ | ⟨same, rfl⟩
              · exact Or.inr ⟨affected, rightful⟩
              · exact Or.inl ⟨fun wrote => wrote rfl, same⟩

theorem exec_find {store : Store framed.toSchema}
    {conditions : Conditions Column} {values : Model Column}
    (told : (exec conditions store (.find id)).1 = .ok (some values)) :
    (exec conditions store (.find id)).2 = store ∧
      ∃ row, store.table.find id = some row ∧ row.values = values := by
  cases result : exec conditions store (.find id) with
  | mk answer later =>
      rw [result] at told
      dsimp only at told
      rw [told] at result
      obtain ⟨read, rfl⟩ := Prod.mk.inj (Except.ok.inj (exec_ok result))
      exact ⟨rfl, Option.map_eq_some_iff.mp read⟩

/-- What tasks rely on holds after each request that is allowed. -/
theorem Sound.serve {store : Store framed.toSchema} {asked : Request Column}
    {trace : List (Occurrence (Request Column)
      (fun asked => Except DbErr asked.Reply) (Store framed.toSchema))}
    (sound : Sound store.table trace)
    (hears : ∀ told ∈ past, ∃ turn ∈ trace, toldOf turn = told)
    (allowed : Allows call past asked) (conditions : Conditions Column)
    (task : ℕ) :
    Sound (exec conditions store asked).2.table
      (⟨task, store, asked, (exec conditions store asked).1⟩ :: trace) := by
  have after : Sound (exec conditions store asked).2.table trace := by
    rcases serve_cases sound hears allowed conditions with
      ⟨_, same⟩ | ⟨_, rightful⟩
    · rw [same]
      exact sound
    · exact sound.change rightful
  refine ⟨after.used, fun turn listed id values told => ?_⟩
  rcases List.mem_cons.mp listed with rfl | earlier
  · simp only [toldOf, Told.mk.injEq] at told
    obtain ⟨rfl, told⟩ := told
    obtain ⟨same, row, found, rfl⟩ := exec_find (eq_of_heq told)
    obtain ⟨member, key⟩ := Table.find_some found
    rw [same]
    refine ⟨Schema.keyOf_of_eq key ▸ sound.used row member, key, ?_⟩
    intro other listed named
    have one : other = row :=
      Table.eq_of_key listed member
        (named ▸ Table.primaryKey_of_mem listed) key
    exact one ▸ Kept.refl _
  · exact after.read turn earlier id values told

end Steps

section Runs

variable {calls : Type} {route : calls → Routed framed} {db : Users.Database}
  {table : Table framed.toSchema}

abbrev RoutePool (framed : Framed Column) (calls : Type) : Type :=
  Pool calls (Request Column) (fun asked => Except DbErr asked.Reply)
    (Store framed.toSchema) (Except RestError (Option (Model Column)))

/-- A run from any tables. -/
abbrev routed (route : calls → Routed framed) (db : Users.Database)
    (table : Table framed.toSchema)
    (moves : List (Move calls (Conditions Column))) : RoutePool framed calls :=
  (routes route).run (Store.start db table.begun) moves

/-- What a task has been told. -/
abbrev heard (route : calls → Routed framed) (db : Users.Database)
    (table : Table framed.toSchema)
    (moves : List (Move calls (Conditions Column))) (task : ℕ) :
    List (Told Column) :=
  ((routed route db table moves).turns task).map toldOf

variable {moves more : List (Move calls (Conditions Column))} {task : ℕ}
  {one : calls}

theorem left_obeys
    {script : Script (Request Column) (fun asked => Except DbErr asked.Reply)
      (Except RestError (Option (Model Column)))}
    (found : (routed route db table moves).tasks[task]? = some (one, script)) :
    script.Obeys (turns route) ⟨route one, heard route db table moves task⟩
      ((turns route).ends one) := by
  obtain ⟨stage, rfl, obeys⟩ := System.told (turns route)
    (fun one stage past => stage = ⟨route one, past.map toldOf⟩)
    program_obeys (fun _ => rfl)
    (by
      rintro one _ past turn rfl _
      simp [turns, toldOf])
    found
  exact obeys

theorem heard_in_trace :
    ∀ told ∈ heard route db table moves task,
      ∃ turn ∈ (routed route db table moves).trace, toldOf turn = told := by
  intro told member
  obtain ⟨turn, mine, same⟩ := List.mem_map.mp member
  exact ⟨turn, (Pool.mem_turns.mp mine).1, same⟩

theorem sound_run (moves : List (Move calls (Conditions Column))) :
    Sound (routed route db table moves).shared.table
      (routed route db table moves).trace := by
  apply System.run_induction fun pool : RoutePool framed calls =>
    Sound pool.shared.table pool.trace
  case begins =>
    constructor
    case used =>
      intro row member
      obtain ⟨other, listed, rfl⟩ := List.mem_map.mp member
      exact List.mem_append_left _ (List.mem_map.mpr ⟨other, listed, rfl⟩)
    case read =>
      intro turn listed
      cases listed
  case starts => exact fun _ _ sound => sound
  case steps =>
    intro moves task conditions one asked rest found _ sound
    exact sound.serve heard_in_trace (left_obeys found).1.2 conditions task

/-- A move leaves the table, or is the last of an operation and its one
change. -/
theorem change_cases (moves : List (Move calls (Conditions Column)))
    (move : Move calls (Conditions Column)) :
    (routed route db table (moves ++ [move])).shared.table =
      (routed route db table moves).shared.table ∨
    ∃ task conditions one written, move = .step task conditions ∧
      (routed route db table (moves ++ [move])).tasks[task]? =
        some (one, .done (.ok written)) ∧
      Rightful (route one) (heard route db table moves task)
        (routed route db table moves).shared.table
        (routed route db table (moves ++ [move])).shared.table := by
  have last : routed route db table (moves ++ [move]) =
      (routes route).next (routed route db table moves) move :=
    System.run_append moves [move]
  rw [last]
  rcases (routes route).next_cases (routed route db table moves) move with
    ⟨one, _, same⟩ |
    ⟨task, conditions, one, asked, rest, is, found, ready, same⟩ | same
  · rw [same]
    exact Or.inl rfl
  · have obeys := left_obeys found
    rcases serve_cases (sound_run moves) heard_in_trace obeys.1.2
        conditions with ⟨_, kept⟩ | ⟨wrote, rightful⟩
    · rw [same]
      exact Or.inl kept
    · right
      have after := obeys.2 (exec conditions
        (routed route db table moves).shared asked).1
      have written : HasWritten ((turns route).next
          ⟨route one, heard route db table moves task⟩ asked
          (exec conditions (routed route db table moves).shared
            asked).1).past :=
        hasWritten_append.mpr (Or.inr wrote)
      cases left : rest (exec conditions
          (routed route db table moves).shared asked).1 with
      | call next more =>
          rw [left] at after
          exact absurd written after.1.1
      | done result =>
          rw [left] at after
          cases result with
          | error error => exact absurd (after.mpr written) nofun
          | ok value =>
              have inside := (List.getElem?_eq_some_iff.mp found).1
              refine ⟨task, conditions, one, value, is, ?_, ?_⟩
              · rw [same]
                dsimp only
                rw [List.getElem?_append_left
                    (by rw [List.length_set]; exact inside),
                  List.getElem?_set_self inside]
                exact congrArg (fun script => some (one, script)) left
              · rw [same]
                exact rightful
  · rw [same]
    exact Or.inl rfl

/-- In every run, each change of the table is the last move of an operation
that its caller was told to have the right to, and an operation that returns
has succeeded exactly when it has written.  The `ActiveModelBehavior` of the
model is the default one. -/
theorem operations_rightful (route : calls → Routed framed)
    (db : Users.Database) (table : Table framed.toSchema)
    (moves : List (Move calls (Conditions Column)))
    (move : Move calls (Conditions Column)) :
    ((routed route db table (moves ++ [move])).shared.table =
        (routed route db table moves).shared.table ∨
      ∃ task conditions one written, move = .step task conditions ∧
        (routed route db table (moves ++ [move])).tasks[task]? =
          some (one, .done (.ok written)) ∧
        Rightful (route one) (heard route db table moves task)
          (routed route db table moves).shared.table
          (routed route db table (moves ++ [move])).shared.table) ∧
    ∀ task one result,
      (routed route db table moves).tasks[task]? = some (one, .done result) →
      (result.isOk = true ↔ HasWritten (heard route db table moves task)) :=
  ⟨change_cases moves move, fun _ _ _ found => left_obeys found⟩

/-- Rows do not come back, and each row keeps its creator, its owner and its
frame. -/
structure Persists (before after : Table framed.toSchema) : Prop where
  used : ∀ id ∈ before.used, id ∈ after.used
  origin : ∀ row ∈ after.rows, framed.keyOf row.values ∈ before.used →
    ∃ old ∈ before.rows, framed.keyOf old.values = framed.keyOf row.values ∧
      row.creator = old.creator ∧ Kept framed old.values row.values

omit [DecidableEq Column] [Fintype Column] in
theorem Persists.refl (table : Table framed.toSchema) :
    Persists table table where
  used := fun _ used => used
  origin := fun row member _ => ⟨row, member, rfl, rfl, Kept.refl _⟩

omit [DecidableEq Column] [Fintype Column] in
theorem Persists.trans {before between after : Table framed.toSchema}
    (first : Persists before between) (second : Persists between after) :
    Persists before after where
  used := fun id used => second.used id (first.used id used)
  origin := by
    intro row member used
    obtain ⟨middle, listed, key, creator, kept⟩ :=
      second.origin row member (first.used _ used)
    obtain ⟨old, held, key', creator', kept'⟩ :=
      first.origin middle listed (key.symm ▸ used)
    exact ⟨old, held, key'.trans key, creator.trans creator',
      kept'.trans kept⟩

omit [DecidableEq Column] [Fintype Column] in
theorem Rightful.persists {call : Routed framed} {past : List (Told Column)}
    {before after : Table framed.toSchema}
    (rightful : Rightful call past before after) : Persists before after where
  used := fun _ used => rightful.grows used
  origin := fun _ member used => rightful.origin member used

theorem persists_run (moves more : List (Move calls (Conditions Column))) :
    Persists (routed route db table moves).shared.table
      (routed route db table (moves ++ more)).shared.table := by
  induction more using List.reverseRecOn with
  | nil =>
      rw [List.append_nil]
      exact Persists.refl _
  | append_singleton more move induction =>
      rw [← List.append_assoc]
      apply induction.trans
      rcases change_cases (moves ++ more) move with same | change
      · exact same.symm ▸ Persists.refl _
      · obtain ⟨_, _, _, _, _, _, rightful⟩ := change
        exact rightful.persists

end Runs

end MiryadCore.Rest
