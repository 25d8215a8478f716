import MiryadCore.Rest.Outcomes

/-!
# What an update writes

Whatever the conditions of its requests, an update that succeeds writes the
row that is stored under its id, with the columns that the hook, the path and
the owner set.
-/

namespace MiryadCore.Rest

open Users (DbErr)

variable {Column : Type} [DecidableEq Column] [Fintype Column]
  {resource : Resource Column} {store after : Store resource.toSchema}
  {principal : AuthPrincipal} {id : ℤ} {body record : Model Column}
  {row : StoredRow Column} {active : ActiveModel Column}

/-- The update of a row to the values `record`, once the hook has answered. -/
structure Rewrites (resource : Resource Column)
    (store after : Store resource.toSchema) (principal : AuthPrincipal) (id : ℤ)
    (body record : Model Column) (row : StoredRow Column)
    (active : ActiveModel Column) : Prop where
  found : store.table.find id = some row
  hooked : resource.hooks.beforeUpdate (markAllSet body.intoActiveModel)
    row.values principal = .ok active
  written : record =
    Table.overwrite (updateActive resource row.values id active) row.values
  rows : after.table.rows = store.table.updatedRows (.ofId id)
    (updateActive resource row.values id active)

theorem meets_resolved {env : Type} {conditions : env → Conditions Column}
    {α : Type} (query : Users.Db α) (store : Store resource.toSchema) :
    Query.Meets (fun e => exec (conditions e)) Eq (fun _ _ => True)
      (ofUsers query) (fun _ s' => s'.table = store.table) (fun _ _ => True)
      store := by
  have any : Query.Meets
      (fun e => Users.exec .left (userConditions conditions e)) Eq
      (fun _ _ => True) query (fun _ _ => True) (fun _ _ => True)
      store.users := by
    apply Script.Meets.mono (Script.meets_any query store.users)
    intro result s' _
    cases result with
    | ok value => trivial
    | error error => trivial
  apply Query.Meets.mono (meets_ofUsers any)
  · exact fun _ _ after => after.1
  · exact fun _ _ _ => trivial

theorem meets_last {env : Type} {conditions : env → Conditions Column}
    {translate : DbErr → RestError} {asked : Request Column}
    {post : asked.Reply → Store resource.toSchema → Prop}
    (replied : ∀ e reply after,
      store.perform e asked = .ok (reply, after) → post reply after) :
    Query.Meets (fun e => exec (conditions e)) Eq (fun _ _ => True)
      (Query.askWith translate asked) post (fun _ _ => True) store := by
  intro s same e
  subst same
  refine ⟨trivial, ?_⟩
  dsimp only
  cases result : exec (conditions e) store asked with
  | mk answer after =>
      cases answer with
      | error error => exact fun _ _ => trivial
      | ok reply =>
          intro later same
          exact same ▸ replied _ _ _ (exec_ok result)

/-- What the update of a row that is read writes. -/
theorem meets_update {env : Type} {conditions : env → Conditions Column} :
    Query.Meets (fun e => exec (conditions e)) Eq (fun _ _ => True)
      (update resource principal id body)
      (fun record after => ∃ row active,
        Rewrites resource store after principal id body record row active)
      (fun _ _ => True) store := by
  apply Query.Meets.bind fun _ => rfl
  apply Query.Meets.mono (meets_resolved _ store)
  case weakerErr => exact fun _ _ _ _ _ => trivial
  intro user s same
  apply Query.Meets.bind fun _ => rfl
  apply Query.Meets.mono answers_authorized_any
  case weakerErr => exact fun _ _ _ _ _ => trivial
  intro existing s read
  obtain ⟨rfl, read⟩ := read
  rw [same] at read
  obtain ⟨row, found, rfl⟩ := Option.map_eq_some_iff.mp read
  have answered : Answers conditions
      (ofHook (resource.hooks.beforeUpdate (markAllSet body.intoActiveModel)
        row.values principal)) s _ fun _ => True :=
    answers_ofHook _ fun _ _ => trivial
  apply Query.Meets.bind fun _ => rfl
  apply Query.Meets.mono answered
  case weakerErr => exact fun _ _ _ _ _ => trivial
  intro active s hooked
  obtain ⟨rfl, hooked⟩ := hooked
  have named : updateActive resource row.values id active
      resource.primaryKey = .set (.ofId id) :=
    setOwner_key (Table.find_some found).2
  apply meets_last
  intro e record after performed
  simp only [Store.perform] at performed
  cases updated : s.table.update
      (updateActive resource row.values id active) with
  | error error =>
      unfold updateActive at updated
      simp [updated, Except.map] at performed
  | ok answer =>
      obtain ⟨written, table⟩ := answer
      obtain ⟨old, read, rfl, rows, _⟩ := Table.update_ok named updated
      rw [same] at read rows
      obtain rfl := Option.some.inj (read.symm.trans found)
      unfold updateActive at updated
      rw [updated] at performed
      obtain ⟨rfl, rfl⟩ := Prod.mk.inj (Except.ok.inj performed)
      exact ⟨old, active, found, hooked, rfl, rows⟩

theorem update_rewrites {envs : ℕ → Conditions Column}
    (updated : Script.run exec envs (update resource principal id body) store =
      (.ok record, after)) :
    ∃ row active,
      Rewrites resource store after principal id body record row active := by
  have meets : Query.Meets (fun e : Conditions Column => exec e) Eq
      (fun _ _ => True) (update resource principal id body) _ _ store :=
    meets_update
  have ends := Script.Meets.run (fun _ => rfl) envs meets
  rw [updated] at ends
  exact ends

omit [Fintype Column] in
theorem Rewrites.find (rewrites : Rewrites resource store after principal id
    body record row active) :
    after.table.find id = some { row with values := record } := by
  obtain ⟨listed, key⟩ := Table.find_some rewrites.found
  apply Table.find_of_mem
  · rw [rewrites.rows]
    apply List.mem_map.mpr
    refine ⟨row, listed, ?_⟩
    rw [if_pos ((Table.key_iff listed).mpr key), rewrites.written]
  · have named : updateActive resource row.values id active
        resource.primaryKey = .set (.ofId id) :=
      setOwner_key key
    rw [rewrites.written]
    simp only [Table.overwrite, named]

end MiryadCore.Rest
