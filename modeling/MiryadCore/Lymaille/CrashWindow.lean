import MiryadCore.Lymaille.BatchStepCorrectness

/-!
# A step that is made again after a crash

A crash falls between two calls, or between the write of a call and its record.
The same calls are then made again from the first one.  A creation that has its
record is replayed; one that has none finds its row again exactly when the
unique index refuses the row and the row with its label has the fields of its
body.
-/

namespace MiryadCore.Lymaille

open Users (UserRow)
open Rest (AuthPrincipal)

variable {F64 ι : Type} {entities : ι → Entity}

/-- The label of the rows is unique. -/
def Entity.LabelUnique (entity : Entity) : Prop :=
  ∃ column, entity.resource.labelColumn = some column ∧
    [column] ∈ entity.schema.uniques

/-- The row with the label of the body has the other fields of the body. -/
def Labelled (entity : Entity) (table : Rest.Table entity.schema)
    (body value : Value) : Prop :=
  ∃ column object label, entity.resource.labelColumn = some column ∧
    body.asObject = some object ∧
    Writer.labelValue object (entity.columnName column) = some label ∧
    ∃ row ∈ table.rows, (row.values column).sqlEq label = true ∧
      rowValue entity row.values = .ok value ∧
      Writer.matchesRow entity object value = true

theorem sqlEq_both {left right value : Rest.SeaValue}
    (first : left.sqlEq value = true) (second : right.sqlEq value = true) :
    left.sqlEq right = true := by
  unfold Rest.SeaValue.sqlEq at first second ⊢
  split at first
  all_goals split at second
  all_goals simp_all

/-- No other row has the label. -/
theorem labelled_alone {Column : Type} [DecidableEq Column] [Fintype Column]
    {schema : Rest.Schema Column} {table : Rest.Table schema} {column : Column}
    (index : [column] ∈ schema.uniques) {label : Rest.SeaValue}
    {row : Rest.StoredRow Column} (member : row ∈ table.rows)
    (named : (row.values column).sqlEq label = true) :
    (table.rows.filter fun row =>
      Rest.Condition.holds [(column, label)] row.values) = [row] := by
  have holds : ∀ other : Rest.StoredRow Column,
      Rest.Condition.holds [(column, label)] other.values =
        (other.values column).sqlEq label := by
    intro other
    simp [Rest.Condition.holds]
  have listed : row ∈ table.rows.filter fun row =>
      Rest.Condition.holds [(column, label)] row.values := by
    rw [List.mem_filter, holds]
    exact ⟨member, named⟩
  have apart := table.unique.sublist (List.filter_sublist (p := fun row =>
    Rest.Condition.holds [(column, label)] row.values))
  have all : ∀ other ∈ table.rows.filter fun row =>
      Rest.Condition.holds [(column, label)] row.values,
        (other.values column).sqlEq label = true := by
    intro other member
    rw [← holds]
    exact (List.mem_filter.mp member).2
  generalize (table.rows.filter fun row =>
    Rest.Condition.holds [(column, label)] row.values) = rows at *
  cases rows with
  | nil => cases listed
  | cons first rest =>
      cases rest with
      | nil => rw [List.mem_singleton.mp listed]
      | cons second rest =>
          have clash : schema.Clash first.values second.values := by
            refine ⟨[column], index, ?_⟩
            intro other member
            rw [List.mem_singleton.mp member]
            exact sqlEq_both (all first (by simp)) (all second (by simp))
          exact ((List.pairwise_cons.mp apart).1 second (by simp) clash).elim

theorem firstMatching_some {entity : Entity} {object : Members}
    {rows : List (Rest.Model entity.Column)} {value : Value}
    (found : Writer.firstMatching entity object rows = .ok (some value)) :
    ∃ row ∈ rows, rowValue entity row = .ok value ∧
      Writer.matchesRow entity object value = true := by
  induction rows with
  | nil => cases found
  | cons row rows induction =>
      unfold Writer.firstMatching at found
      cases written : rowValue entity row with
      | error failure => simp [written, bind, Except.bind] at found
      | ok read =>
          simp only [written, bind, Except.bind] at found
          split at found
          · rename_i fields
            obtain rfl := Option.some.inj (Except.ok.inj found)
            exact ⟨row, List.mem_cons_self, written, fields⟩
          · obtain ⟨other, member, rest⟩ := induction found
            exact ⟨other, List.mem_cons_of_mem _ member, rest⟩

/-- Under a unique label, what a creation reads again is the row with its
label. -/
theorem reread_some_iff {entity : Entity} (unique : entity.LabelUnique)
    (table : Rest.Table entity.schema) (body value : Value) :
    Writer.reread entity table body = .ok (some value) ↔
      Labelled entity table body value := by
  obtain ⟨column, labelled, index⟩ := unique
  unfold Writer.reread Labelled
  rw [labelled]
  cases asObject : body.asObject with
  | none => simp
  | some object =>
      dsimp only
      cases named : Writer.labelValue object (entity.columnName column) with
      | none =>
          constructor
          · exact fun impossible => nomatch impossible
          · intro found
            obtain ⟨other, object', label, same, object'', named', _⟩ := found
            obtain rfl := Option.some.inj same
            obtain rfl := Option.some.inj object''
            rw [named] at named'
            cases named'
      | some label =>
          constructor
          · intro found
            obtain ⟨values, member, written, fields⟩ :=
              firstMatching_some found
            obtain ⟨row, listed, rfl⟩ := List.mem_map.mp member
            obtain ⟨listed, sameLabel⟩ := List.mem_filter.mp listed
            refine ⟨column, object, label, rfl, rfl, named, row, listed, ?_,
              written, fields⟩
            simpa [Rest.Condition.holds] using sameLabel
          · intro found
            obtain ⟨other, object', label', same, object'', named', row,
              member, sameLabel, written, fields⟩ := found
            obtain rfl := Option.some.inj same
            obtain rfl := Option.some.inj object''
            obtain rfl := Option.some.inj (named.symm.trans named')
            dsimp only
            rw [labelled_alone index member sameLabel]
            simp [Writer.firstMatching, written, fields, bind, Except.bind,
              pure, Except.pure]

variable [DecidableEq ι] {handle : Handle entities F64} {i : ι}
  {store : Store entities} {account : UserRow}

theorem run_rowCode {M α : Type} {model : Except Failure M} {body : M}
    (valid : model = .ok body) (translate : Rest.RestError → Failure)
    (route : M → Rest.Api (entities i).Column α)
    (result : α → Except Failure Value) (e : Calm entities)
    (store : Store entities) :
    (rowCode i model translate route result).run serve e store =
      match (route body).run
          (fun e : Calm entities => Rest.exec ((calm e).at i)) e
          (store.part i) with
      | (.error error, part) => (.error (translate error), store.put i part)
      | (.ok answer, part) => (result answer, store.put i part) := by
  unfold rowCode
  rw [valid]
  refine (Query.run_bind_ok rfl).trans ?_
  have runs : (ofRest i translate (route body)).run serve e store = _ :=
    run_ofRest e store translate (route body)
  cases ran : (route body).run
      (fun e : Calm entities => Rest.exec ((calm e).at i)) e
      (store.part i) with
  | mk answer part =>
      rw [ran] at runs
      cases answer with
      | error error => exact Query.run_bind_error runs
      | ok answer => exact Query.run_bind_ok runs

/-- What the creation of a writer does with a body that is valid. -/
theorem run_create (i : ι) (has : HasAccount handle store account)
    (e : Calm entities) {body : Value} {model : Rest.Model (entities i).Column}
    (valid : modelFromJson (entities i) body = .ok model) :
    ∃ allowed : Bool,
      (allowed = true ↔ Rest.MayCreate store.users.view account.id
        (entities i).resource.writePolicy (entities i).resource.ownerColumn) ∧
      (Writer.create i (Handle.agent account.subject) body).run serve e
          store =
        if allowed then
          match (entities i).resource.hooks.beforeCreate
              (Rest.markAllSet model.intoActiveModel)
              (Handle.agent account.subject) with
          | .error error => (.error (.hookRefused error.message), store)
          | .ok active =>
              match (store.tables i).insert ((calm e).at i) account.subject
                  (Rest.createActive (entities i).resource account active) with
              | .error cause =>
                  (.error (Failure.ofCreate (.database cause)), store)
              | .ok (row, table) => (rowValue (entities i) row.values,
                  store.put i { store.part i with table })
        else (.error .forbidden, store) := by
  have faultless : ∀ e : Calm entities, ((calm e).at i).fault = none :=
    fun _ => rfl
  obtain ⟨allowed, meaning, ran⟩ :=
    Rest.run_create faultless (has.known i) e model
  refine ⟨allowed, meaning, ?_⟩
  have whole : (Writer.create i (Handle.agent account.subject) body).run serve
      e store = _ := run_rowCode valid Failure.ofCreate (Rest.create
        (entities i).resource (Handle.agent account.subject))
          (rowValue (entities i)) e store
  rw [whole, ran]
  cases allowed with
  | false => simp [Store.put_part, Failure.ofCreate, Failure.ofRest]
  | true =>
      simp only [if_true]
      cases (entities i).resource.hooks.beforeCreate
          (Rest.markAllSet model.intoActiveModel)
          (Handle.agent account.subject) with
      | error error => simp [Store.put_part, Failure.ofCreate, Failure.ofRest]
      | ok active =>
          dsimp only
          have inserts : (store.part i).table.insert ((calm e).at i)
              (Handle.agent account.subject).subject (Rest.createActive
                (entities i).resource account active) =
            (store.tables i).insert ((calm e).at i) account.subject
              (Rest.createActive (entities i).resource account active) := rfl
          rw [inserts]
          cases (store.tables i).insert ((calm e).at i) account.subject
              (Rest.createActive (entities i).resource account active) with
          | error cause => simp [Store.put_part]
          | ok answer => rfl

omit [DecidableEq ι] in
theorem HasAccount.later {later : Store entities}
    (has : HasAccount handle store account)
    (users : later.users = store.users) : HasAccount handle later account := by
  constructor
  · exact users ▸ has.consistent
  · have found := has.found
    unfold Handle.account at found ⊢
    rw [users]
    exact found

/-- A creation that has answered is refused, the next time, by the table
alone. -/
theorem create_again {later s' : Store entities}
    (has : HasAccount handle store account) (users : later.users = store.users)
    {e : Calm entities} {body value : Value}
    (ran : (Writer.create i (Handle.agent account.subject) body).run serve e
      store = (.ok value, s')) (e' : Calm entities) :
    ∃ model active, modelFromJson (entities i) body = .ok model ∧
      (entities i).resource.hooks.beforeCreate
        (Rest.markAllSet model.intoActiveModel)
        (Handle.agent account.subject) = .ok active ∧
      (Writer.create i (Handle.agent account.subject) body).run serve e'
          later =
        match (later.tables i).insert ((calm e').at i) account.subject
            (Rest.createActive (entities i).resource account active) with
        | .error cause => (.error (Failure.ofCreate (.database cause)), later)
        | .ok (row, table) => (rowValue (entities i) row.values,
            later.put i { later.part i with table }) := by
  have ends := create_ends i has e body
  rw [ran] at ends
  obtain ⟨model, _, _, valid, _⟩ := ends.of_ok
  obtain ⟨allowed, meaning, first⟩ := run_create i has e valid
  have has' := has.later users
  obtain ⟨allowed', meaning', second⟩ := run_create i has' e' valid
  have same : allowed' = allowed := by
    rw [users] at meaning'
    exact Bool.eq_iff_iff.mpr (meaning'.trans meaning.symm)
  subst same
  rw [ran] at first
  cases allowed' with
  | false => cases (Prod.mk.inj first).1
  | true =>
      simp only [if_true] at first second
      cases hooked : (entities i).resource.hooks.beforeCreate
          (Rest.markAllSet model.intoActiveModel)
          (Handle.agent account.subject) with
      | error error =>
          rw [hooked] at first
          cases (Prod.mk.inj first).1
      | ok active =>
          rw [hooked] at second
          exact ⟨model, active, valid, hooked, second⟩

/-- A creation that is made again is refused by a unique index, and the row
with its label is the one that it inserted. -/
structure Refound (crates : Crates F64) (store : Store entities)
    (e : Calm entities) (i : ι) (account : UserRow) (body value : Value) :
    Prop where
  refused : ∃ model active, modelFromJson (entities i) body = .ok model ∧
    (entities i).resource.hooks.beforeCreate
      (Rest.markAllSet model.intoActiveModel)
      (Handle.agent account.subject) = .ok active ∧
    (store.tables i).Taken ((calm e).at i)
      (Rest.createActive (entities i).resource account active)
  found : ∃ row, Labelled (entities i) (store.tables i) body row ∧
    jsonToDynamic crates row = jsonToDynamic crates value ∧
    Value.textBytes row.text ≤ maxResultBytes

omit [DecidableEq ι] in
theorem ofCreate_unique_iff (cause : Users.DbErr) :
    Failure.ofCreate (.database cause) = .uniqueViolation ↔
      ∃ constraint, cause = .uniqueViolation constraint := by
  cases cause
  all_goals simp [Failure.ofCreate, Failure.ofRest]

theorem createRow_again_iff {later s' : Store entities}
    (unique : (entities i).LabelUnique) (batch : handle.scope.isSome = true)
    (has : HasAccount handle store account) (users : later.users = store.users)
    {e : Calm entities} {body value : Value}
    (ran : (Writer.create i (Handle.agent account.subject) body).run serve e
      store = (.ok value, s')) (e' : Calm entities) :
    (∃ row after, (handle.createRow body i
          (Handle.agent account.subject)).run serve e' later =
            (.ok row, after) ∧
        after.tables = later.tables ∧
        jsonToDynamic handle.crates row = jsonToDynamic handle.crates value ∧
        Value.textBytes row.text ≤ maxResultBytes) ↔
      Refound handle.crates later e' i account body value := by
  obtain ⟨model, active, valid, hooked, again⟩ :=
    create_again has users ran e'
  have taken : Refound handle.crates later e' i account body value ↔
      (∃ constraint, (later.tables i).insert ((calm e').at i) account.subject
        (Rest.createActive (entities i).resource account active) =
          .error (.uniqueViolation constraint)) ∧
      ∃ row, Labelled (entities i) (later.tables i) body row ∧
        jsonToDynamic handle.crates row = jsonToDynamic handle.crates value ∧
        Value.textBytes row.text ≤ maxResultBytes := by
    rw [Rest.Table.insert_unique_iff]
    constructor
    · intro refound
      obtain ⟨⟨model', active', valid', hooked', taken⟩, found⟩ := refound
      obtain rfl := Except.ok.inj (valid.symm.trans valid')
      obtain rfl := Except.ok.inj (hooked.symm.trans hooked')
      exact ⟨taken, found⟩
    · intro refound
      exact ⟨⟨model, active, valid, hooked, refound.1⟩, refound.2⟩
  rw [taken]
  have runs := run_createRow i handle e' later body
    (Handle.agent account.subject)
  cases inserted : (later.tables i).insert ((calm e').at i) account.subject
      (Rest.createActive (entities i).resource account active) with
  | ok answer =>
      rw [inserted] at again
      dsimp only at again
      constructor
      · intro answered
        obtain ⟨row, after, created, same, _⟩ := answered
        cases written : rowValue (entities i) answer.1.values with
        | error failure =>
            rw [written] at again
            rw [again, rowValue_error written] at runs
            dsimp only at runs
            rw [if_neg (by simp)] at runs
            cases (Prod.mk.inj (runs.symm.trans created)).1
        | ok value =>
            rw [written] at again
            have has' := has.later users
            rw [again] at runs
            have moved := (Prod.mk.inj (runs.symm.trans created)).2
            rw [← moved] at same
            exact (create_changes has' again same).elim
      · intro refound
        obtain ⟨⟨constraint, impossible⟩, _⟩ := refound
        cases impossible
  | error cause =>
      rw [inserted] at again
      rw [again] at runs
      dsimp only at runs
      by_cases conflict : ∃ constraint, cause = .uniqueViolation constraint
      · rw [if_pos ((ofCreate_unique_iff cause).mpr conflict), if_pos batch]
          at runs
        constructor
        · intro answered
          obtain ⟨row, after, created, _, same, short⟩ := answered
          have ended := runs.symm.trans created
          refine ⟨?_, row, ?_, same, short⟩
          · obtain ⟨constraint, rfl⟩ := conflict
            exact ⟨constraint, rfl⟩
          · rw [← reread_some_iff unique]
            cases found : Writer.reread (entities i) (later.tables i) body with
            | error failure => simp [found] at ended
            | ok found' =>
                cases found' with
                | none => simp [found] at ended
                | some row' =>
                    rw [found] at ended
                    rw [Except.ok.inj (Prod.mk.inj ended).1]
        · intro refound
          obtain ⟨_, row, labelled, same, short⟩ := refound
          rw [← reread_some_iff unique] at labelled
          rw [labelled] at runs
          exact ⟨row, later, runs, rfl, same, short⟩
      · rw [if_neg fun named => conflict ((ofCreate_unique_iff cause).mp named)]
          at runs
        constructor
        · intro answered
          obtain ⟨row, after, created, _⟩ := answered
          cases (Prod.mk.inj (runs.symm.trans created)).1
        · intro refound
          obtain ⟨⟨constraint, refused⟩, _⟩ := refound
          exact (conflict ⟨constraint, Except.error.inj refused⟩).elim

omit [DecidableEq ι] in
theorem Store.lookup_of_journal {left right : Store entities}
    (journal : left.journal = right.journal) (scope : WriteScope)
    (key : String) : left.lookup scope key = right.lookup scope key := by
  rw [Store.lookup, Store.lookup, journal]

omit [DecidableEq ι] in
theorem Store.lookup_insertResult {scope : WriteScope} {key : String}
    {result : Value} (hit : store.lookup scope key = some result)
    (row : JournalRow) :
    (store.insertResult row).lookup scope key = some result := by
  unfold Store.insertResult
  split
  · exact hit
  · obtain ⟨other, found, same⟩ := Option.map_eq_some_iff.mp hit
    unfold Store.lookup
    rw [List.find?_append, found]
    exact congrArg some same

omit [DecidableEq ι] in
theorem Store.lookup_recorded {row : JournalRow}
    (miss : store.lookup row.scope row.opKey = none) :
    (store.insertResult row).lookup row.scope row.opKey = some row.result := by
  have absent := Option.map_eq_none_iff.mp miss
  rw [Store.insertResult, miss, if_neg (by simp), Store.lookup,
    List.find?_append, absent]
  simp

/-- What a call leaves when its record is not written. -/
def Handle.unrecorded (handle : Handle entities F64) (scope : WriteScope)
    (state : State entities) (turn : Turn entities) : Store entities :=
  match handle.admission state turn.call with
  | .error _ => state.store
  | .ok (i, account) =>
      match state.store.lookup scope (turn.call.key handle.crates) with
      | some _ => state.store
      | none => (((handle.within scope).rowWrite turn.call i
          (Handle.agent account.subject)).run serve turn.conditions
            state.store).2

/-- What a step leaves when it stops after some calls, or after the write of
one more. -/
def Handle.crashed (handle : Handle entities F64) (scope : WriteScope)
    (store : Store entities) (done : List (Turn entities)) :
    Option (Turn entities) → Store entities
  | none => ((handle.within scope).after ⟨0, store⟩ done).store
  | some pending => handle.unrecorded scope
      ((handle.within scope).after ⟨0, store⟩ done) pending

/-- What a call of a step runs. -/
theorem run_within (handle : Handle entities F64) (scope : WriteScope)
    (e : Calm entities) (store : Store entities) (writes : ℕ)
    (call : WriteCall) :
    ((handle.within scope).call writes call).run serve e store =
      match handle.admission ⟨writes, store⟩ call with
      | .error failure => (.error failure, store)
      | .ok (i, account) =>
          match store.lookup scope (call.key handle.crates) with
          | some result => (.ok (jsonToDynamic handle.crates result), store)
          | none =>
              match ((handle.within scope).rowWrite call i
                  (Handle.agent account.subject)).run serve e store with
              | (.error failure, after) => (.error failure, after)
              | (.ok value, after) =>
                  if Value.textBytes value.text > maxResultBytes then
                    (.error .internal, after)
                  else (.ok (jsonToDynamic handle.crates value),
                    after.insertResult
                      ⟨scope, call.key handle.crates, value⟩) := by
  have runs := run_call (handle.within scope) e store writes call
  have same : (handle.within scope).admission ⟨writes, store⟩ call =
      handle.admission ⟨writes, store⟩ call := rfl
  rw [same] at runs
  rw [runs]
  cases handle.admission ⟨writes, store⟩ call with
  | error failure => rfl
  | ok answer =>
      obtain ⟨i, account⟩ := answer
      dsimp only
      cases looked : store.lookup scope (call.key handle.crates) with
      | some result =>
          exact run_journaled_hit (handle.within scope) e store rfl looked
      | none =>
          apply (run_journaled_miss (handle.within scope) e store rfl
            looked).trans
          cases ((handle.within scope).rowWrite call i
              (Handle.agent account.subject)).run serve e store with
          | mk answer after =>
              cases answer with
              | error failure => rfl
              | ok value => rfl

/-- What a call leaves: the write, and a record or none. -/
theorem turn_unrecorded (handle : Handle entities F64) (scope : WriteScope)
    (state : State entities) (turn : Turn entities) :
    ((handle.within scope).turn state turn).2.store =
        handle.unrecorded scope state turn ∨
      ∃ row, ((handle.within scope).turn state turn).2.store =
        (handle.unrecorded scope state turn).insertResult row := by
  unfold Handle.turn Handle.unrecorded
  dsimp only
  rw [run_within]
  cases handle.admission state turn.call with
  | error failure => exact Or.inl rfl
  | ok answer =>
      obtain ⟨i, account⟩ := answer
      dsimp only
      cases state.store.lookup scope (turn.call.key handle.crates) with
      | some result => exact Or.inl rfl
      | none =>
          dsimp only
          cases ((handle.within scope).rowWrite turn.call i
              (Handle.agent account.subject)).run serve turn.conditions
                state.store with
          | mk answer after =>
              cases answer with
              | error failure => exact Or.inl rfl
              | ok value =>
                  dsimp only
                  split
                  · exact Or.inl rfl
                  · exact Or.inr ⟨_, rfl⟩

theorem unrecorded_lookup {state : State entities} {scope : WriteScope}
    {key : String} {result : Value}
    (hit : state.store.lookup scope key = some result) (turn : Turn entities) :
    (handle.unrecorded scope state turn).lookup scope key = some result := by
  rw [← hit]
  apply Store.lookup_of_journal
  unfold Handle.unrecorded
  split
  · rfl
  · split
    · rfl
    · exact (localTo_rowWrite (handle.within scope) turn.call _).journal _ _

theorem unrecorded_users (handle : Handle entities F64) (scope : WriteScope)
    {state : State entities}
    (consistent : state.store.users.view.Consistent) (turn : Turn entities) :
    (handle.unrecorded scope state turn).users = state.store.users := by
  unfold Handle.unrecorded
  split
  · rfl
  · rename_i i account admitted
    split
    · rfl
    · have found := (Handle.admit_ok admitted).1
      have has : HasAccount (handle.within scope) state.store account :=
        ⟨consistent, found⟩
      exact rowWrite_users has turn.conditions turn.call

theorem turn_lookup {state : State entities} {scope : WriteScope}
    {key : String} {result : Value}
    (hit : state.store.lookup scope key = some result) (turn : Turn entities) :
    ((handle.within scope).turn state turn).2.store.lookup scope key =
      some result := by
  have kept : (handle.unrecorded scope state turn).lookup scope key =
      some result := unrecorded_lookup hit turn
  rcases turn_unrecorded handle scope state turn with same | ⟨row, recorded⟩
  · rw [same]
    exact kept
  · rw [recorded]
    exact Store.lookup_insertResult kept row

theorem after_lookup {state : State entities} {scope : WriteScope}
    {key : String} {result : Value}
    (hit : state.store.lookup scope key = some result)
    (turns : List (Turn entities)) :
    ((handle.within scope).after state turns).store.lookup scope key =
      some result := by
  induction turns using List.reverseRecOn with
  | nil => exact hit
  | append_singleton before turn induction =>
      rw [Handle.after_append]
      exact turn_lookup induction turn

theorem after_users (handle : Handle entities F64) {state : State entities}
    (consistent : state.store.users.view.Consistent)
    (turns : List (Turn entities)) :
    (handle.after state turns).store.users = state.store.users := by
  induction turns using List.reverseRecOn with
  | nil => rfl
  | append_singleton before turn induction =>
      rw [Handle.after_append, ← induction]
      apply turn_users
      rw [induction]
      exact consistent

theorem crashed_lookup {scope : WriteScope} {key : String} {result : Value}
    {done : List (Turn entities)}
    (hit : ((handle.within scope).after ⟨0, store⟩ done).store.lookup scope
      key = some result) (pending : Option (Turn entities)) :
    (handle.crashed scope store done pending).lookup scope key =
      some result := by
  cases pending with
  | none => exact hit
  | some pending => exact unrecorded_lookup hit pending

theorem crashed_users (handle : Handle entities F64) (scope : WriteScope)
    (consistent : store.users.view.Consistent) (done : List (Turn entities))
    (pending : Option (Turn entities)) :
    (handle.crashed scope store done pending).users = store.users := by
  have users : ((handle.within scope).after ⟨0, store⟩ done).store.users =
      store.users := after_users _ consistent done
  cases pending with
  | none => exact users
  | some pending =>
      refine (unrecorded_users handle scope ?_ pending).trans users
      rw [users]
      exact consistent

theorem after_writes (handle : Handle entities F64)
    {left right : State entities} (writes : left.writes = right.writes)
    {turns turns' : List (Turn entities)}
    (calls : turns.map Turn.call = turns'.map Turn.call) :
    (handle.after left turns).writes = (handle.after right turns').writes := by
  induction turns using List.reverseRecOn generalizing turns' with
  | nil =>
      obtain rfl := List.map_eq_nil_iff.mp calls.symm
      exact writes
  | append_singleton before turn induction =>
      rw [List.map_append] at calls
      obtain ⟨before', last, rfl, same, single⟩ :=
        List.map_eq_append_iff.mp calls.symm
      obtain ⟨turn', rest, rfl, _, empty⟩ := List.map_eq_cons_iff.mp single
      obtain rfl := List.map_eq_nil_iff.mp empty
      rw [Handle.after_append, Handle.after_append]
      exact congrArg Handle.charged (induction same.symm)

/-- A step that stops after some calls, or after the write of one more, and
whose calls are then made again. -/
structure Interruption (entities : ι → Entity) where
  scope : WriteScope
  store : Store entities
  done : List (Turn entities)
  pending : Option (Turn entities)
  again : List (Turn entities)
  same : (done ++ pending.toList).map Turn.call <+: again.map Turn.call

/-- A call of the first execution, and the same one in the second. -/
structure Visit (interruption : Interruption entities) where
  before : List (Turn entities)
  turn : Turn entities
  before' : List (Turn entities)
  turn' : Turn entities
  first : Precede (interruption.done ++ interruption.pending.toList) before
    turn
  second : Precede interruption.again before' turn'
  level : before'.length = before.length

omit [DecidableEq ι] in
theorem Visit.same {interruption : Interruption entities}
    (visit : Visit interruption) :
    visit.before'.map Turn.call = visit.before.map Turn.call ∧
      visit.turn'.call = visit.turn.call := by
  obtain ⟨rest, first⟩ := visit.first
  obtain ⟨rest', second⟩ := visit.second
  obtain ⟨more, again⟩ := interruption.same
  rw [first, second] at again
  simp only [List.map_append, List.map_cons, List.append_assoc,
    List.cons_append] at again
  have lengths : (visit.before.map Turn.call).length =
      (visit.before'.map Turn.call).length := by
    simp [visit.level]
  obtain ⟨before, tails⟩ := List.append_inj again lengths
  exact ⟨before.symm, (List.cons.inj tails).1.symm⟩

section Interruption

variable (handle : Handle entities F64) (interruption : Interruption entities)

/-- What a call of the first execution meets. -/
def Interruption.first (before : List (Turn entities)) : State entities :=
  (handle.within interruption.scope).after ⟨0, interruption.store⟩ before

/-- What a call of the second execution meets. -/
def Interruption.second (before : List (Turn entities)) : State entities :=
  (handle.within interruption.scope).after
    ⟨0, handle.crashed interruption.scope interruption.store interruption.done
      interruption.pending⟩ before

/-- The call is a creation that inserts its row. -/
structure Inserts (visit : Visit interruption) (i : ι) (account : UserRow)
    (body value : Value) : Prop where
  creation : ∃ resource, visit.turn.call = .create resource body
  admitted : handle.admission (interruption.first handle visit.before)
    visit.turn.call = .ok (i, account)
  fresh : (interruption.first handle visit.before).store.lookup
    interruption.scope (visit.turn.call.key handle.crates) = none
  answered : ((Writer.create i (Handle.agent account.subject) body).run serve
    visit.turn.conditions
      (interruption.first handle visit.before).store).1 = .ok value

/-- The second time, the creation returns the row and inserts nothing. -/
structure Returned (visit : Visit interruption) (value : Value) : Prop where
  answer : ((handle.within interruption.scope).turn
    (interruption.second handle visit.before') visit.turn').1 =
      .ok (jsonToDynamic handle.crates value)
  tables : ((handle.within interruption.scope).turn
    (interruption.second handle visit.before') visit.turn').2.store.tables =
      (interruption.second handle visit.before').store.tables

/-- The creation has its record. -/
def Recorded (visit : Visit interruption) (value : Value) : Prop :=
  Precede interruption.done visit.before visit.turn ∧
    Value.textBytes value.text ≤ maxResultBytes

/-- Without its record, the creation finds its row again, unless a call with
its key has been journaled in between. -/
def Recovered (visit : Visit interruption) (i : ι) (account : UserRow)
    (body value : Value) : Prop :=
  match (interruption.second handle visit.before').store.lookup
      interruption.scope (visit.turn.call.key handle.crates) with
  | some result =>
      jsonToDynamic handle.crates result = jsonToDynamic handle.crates value
  | none => Refound handle.crates
      (interruption.second handle visit.before').store visit.turn'.conditions i
        account body value

end Interruption

variable {interruption : Interruption entities}

omit [DecidableEq ι] in
theorem admit_same (handle : Handle entities F64) {left right : State entities}
    (writes : left.writes = right.writes)
    (users : left.store.users = right.store.users) (call : WriteCall) :
    handle.admission left call = handle.admission right call := by
  unfold Handle.admission Handle.account
  rw [writes, users]

theorem first_users (handle : Handle entities F64)
    (consistent : interruption.store.users.view.Consistent)
    (before : List (Turn entities)) :
    (interruption.first handle before).store.users =
      interruption.store.users :=
  after_users _ consistent before

theorem second_users (handle : Handle entities F64)
    (consistent : interruption.store.users.view.Consistent)
    (before : List (Turn entities)) :
    (interruption.second handle before).store.users =
      interruption.store.users := by
  have users := crashed_users handle interruption.scope consistent
    interruption.done interruption.pending
  refine (after_users (handle.within interruption.scope) ?_ before).trans users
  have view := congrArg Users.Session.view users
  exact view ▸ consistent

theorem admitted_again (consistent : interruption.store.users.view.Consistent)
    {visit : Visit interruption} {body value : Value}
    (inserts : Inserts handle interruption visit i account body value) :
    handle.admission (interruption.second handle visit.before') visit.turn'.call =
      .ok (i, account) := by
  rw [visit.same.2, ← inserts.admitted]
  apply admit_same
  · have writes : (⟨0, handle.crashed interruption.scope interruption.store
        interruption.done interruption.pending⟩ : State entities).writes =
      (⟨0, interruption.store⟩ : State entities).writes := rfl
    exact after_writes _ writes visit.same.1
  · exact (second_users handle consistent _).trans
      (first_users handle consistent _).symm

/-- What the second call of a creation does. -/
theorem returned_iff (consistent : interruption.store.users.view.Consistent)
    {visit : Visit interruption} {body value : Value}
    (unique : (entities i).LabelUnique)
    (inserts : Inserts handle interruption visit i account body value) :
    Returned handle interruption visit value ↔
      Recovered handle interruption visit i account body value := by
  have runs := run_within handle interruption.scope visit.turn'.conditions
    (interruption.second handle visit.before').store
    (interruption.second handle visit.before').writes visit.turn'.call
  have admitted : handle.admission
      ⟨(interruption.second handle visit.before').writes,
        (interruption.second handle visit.before').store⟩
      visit.turn'.call = _ := admitted_again consistent inserts
  rw [admitted] at runs
  dsimp only at runs
  have turned : Returned handle interruption visit value ↔
      ((((handle.within interruption.scope).call
        (interruption.second handle visit.before').writes
          visit.turn'.call).run serve visit.turn'.conditions
            (interruption.second handle visit.before').store).1.mapError
              Failure.message = .ok (jsonToDynamic handle.crates value) ∧
        (((handle.within interruption.scope).call
          (interruption.second handle visit.before').writes
            visit.turn'.call).run serve visit.turn'.conditions
              (interruption.second handle visit.before').store).2.tables =
          (interruption.second handle visit.before').store.tables) :=
    ⟨fun returned => ⟨returned.answer, returned.tables⟩,
      fun both => ⟨both.1, both.2⟩⟩
  rw [turned, runs, visit.same.2]
  unfold Recovered
  cases looked : (interruption.second handle visit.before').store.lookup
      interruption.scope (visit.turn.call.key handle.crates) with
  | some result =>
      constructor
      · intro answered
        exact Except.ok.inj answered.1
      · intro same
        exact ⟨congrArg Except.ok same, rfl⟩
  | none =>
      obtain ⟨resource, creation⟩ := inserts.creation
      cases ran : (Writer.create i (Handle.agent account.subject) body).run
          serve visit.turn.conditions
            (interruption.first handle visit.before).store with
      | mk answer after =>
          have answered := inserts.answered
          rw [ran] at answered
          obtain rfl : answer = .ok value := answered
          have has : HasAccount (handle.within interruption.scope)
              (interruption.first handle visit.before).store account := by
            constructor
            · have users := first_users handle consistent visit.before
              exact (congrArg Users.Session.view users) ▸ consistent
            · exact (Handle.admit_ok inserts.admitted).1
          have users := (second_users handle consistent visit.before').trans
            (first_users handle consistent visit.before).symm
          have again := createRow_again_iff unique rfl has users ran
            visit.turn'.conditions
          refine Iff.trans ?_ again
          rw [creation]
          dsimp only [Handle.rowWrite]
          cases ((handle.within interruption.scope).createRow body i
              (Handle.agent account.subject)).run serve
                visit.turn'.conditions
                (interruption.second handle visit.before').store with
          | mk answer later =>
              cases answer with
              | error failure =>
                  constructor
                  · exact fun failed => nomatch failed.1
                  · exact fun failed => by
                      obtain ⟨row, kept, failed, _⟩ := failed
                      cases (Prod.mk.inj failed).1
              | ok row =>
                  dsimp only
                  by_cases long : Value.textBytes row.text > maxResultBytes
                  · rw [if_pos long]
                    constructor
                    · exact fun failed => nomatch failed.1
                    · intro answered
                      obtain ⟨row', kept, same, _, _, short⟩ := answered
                      obtain rfl := Except.ok.inj (Prod.mk.inj same).1
                      omega
                  · rw [if_neg long]
                    have tables : (later.insertResult
                        ⟨interruption.scope, WriteCall.key handle.crates
                          (.create resource body), row⟩).tables =
                        later.tables := by
                      unfold Store.insertResult
                      split
                      · rfl
                      · rfl
                    dsimp only
                    rw [tables]
                    constructor
                    · intro answered
                      exact ⟨row, later, rfl, answered.2,
                        Except.ok.inj answered.1, Nat.le_of_not_lt long⟩
                    · intro answered
                      obtain ⟨row', kept, same, tables, equal, _⟩ := answered
                      obtain ⟨written, rfl⟩ := Prod.mk.inj same
                      obtain rfl := Except.ok.inj written
                      exact ⟨congrArg Except.ok equal, tables⟩

theorem recorded_lookup {visit : Visit interruption} {body value : Value}
    (inserts : Inserts handle interruption visit i account body value)
    (recorded : Recorded interruption visit value) :
    (interruption.second handle visit.before').store.lookup interruption.scope
      (visit.turn.call.key handle.crates) = some value := by
  apply after_lookup
  apply crashed_lookup
  obtain ⟨⟨rest, same⟩, short⟩ := recorded
  rw [same]
  have split : ((handle.within interruption.scope).after
      ⟨0, interruption.store⟩ (visit.before ++ visit.turn :: rest)) =
    (handle.within interruption.scope).after
      ((handle.within interruption.scope).turn
        (interruption.first handle visit.before) visit.turn).2 rest := by
    simp [Handle.after, Interruption.first, List.foldl_append]
  rw [split]
  apply after_lookup
  obtain ⟨resource, creation⟩ := inserts.creation
  have journal := (localTo_create (i := i) (Handle.agent account.subject)
    body).journal visit.turn.conditions
      (interruption.first handle visit.before).store
  have runs := run_createRow i (handle.within interruption.scope)
    visit.turn.conditions (interruption.first handle visit.before).store body
      (Handle.agent account.subject)
  have answered := inserts.answered
  cases ran : (Writer.create i (Handle.agent account.subject) body).run serve
      visit.turn.conditions
        (interruption.first handle visit.before).store with
  | mk answer after =>
      rw [ran] at answered journal runs
      obtain rfl : answer = .ok value := answered
      have admitted := inserts.admitted
      have fresh := inserts.fresh
      have turned := run_within handle interruption.scope
        visit.turn.conditions (interruption.first handle visit.before).store
          (interruption.first handle visit.before).writes visit.turn.call
      have same : handle.admission
          ⟨(interruption.first handle visit.before).writes,
            (interruption.first handle visit.before).store⟩
          visit.turn.call = _ := admitted
      rw [same] at turned
      dsimp only at turned
      rw [fresh] at turned
      dsimp only at turned
      have writes : (handle.within interruption.scope).rowWrite
          visit.turn.call i (Handle.agent account.subject) =
            (handle.within interruption.scope).createRow body i
              (Handle.agent account.subject) := by
        rw [creation]
        rfl
      rw [writes] at turned
      rw [runs] at turned
      dsimp only at turned
      rw [if_neg (Nat.not_lt.mpr short)] at turned
      have left : ((handle.within interruption.scope).turn
          (interruption.first handle visit.before) visit.turn).2.store = _ :=
        congrArg Prod.snd turned
      rw [left]
      have miss : after.lookup interruption.scope
          (visit.turn.call.key handle.crates) = none :=
        (Store.lookup_of_journal journal _ _).trans fresh
      exact Store.lookup_recorded miss

/-- For a step that stops anywhere and is made again from its first call.  A
creation that has inserted its row, under a unique label, returns that row and
inserts nothing, exactly as long as each of those that have no record finds
its row again. -/
theorem creations_returned_iff (handle : Handle entities F64)
    (interruption : Interruption entities)
    (consistent : interruption.store.users.view.Consistent) :
    (∀ (visit : Visit interruption) i account body value,
      (entities i).LabelUnique →
      Inserts handle interruption visit i account body value →
        Returned handle interruption visit value) ↔
    ∀ (visit : Visit interruption) i account body value,
      (entities i).LabelUnique →
      Inserts handle interruption visit i account body value →
      ¬ Recorded interruption visit value →
        Recovered handle interruption visit i account body value := by
  constructor
  · intro returned visit i account body value unique inserts _
    exact (returned_iff consistent unique inserts).mp
      (returned visit i account body value unique inserts)
  · intro recovered visit i account body value unique inserts
    apply (returned_iff consistent unique inserts).mpr
    by_cases recorded : Recorded interruption visit value
    · unfold Recovered
      rw [recorded_lookup inserts recorded]
    · exact recovered visit i account body value unique inserts recorded

/-- A creation whose record is not written, made again with the next id. -/
def noteInterruption (owner : ℤ) :
    Interruption (fun _ : Unit => noteEntity) where
  scope := noteStep
  store := noteState.store
  done := []
  pending := some (noteTurn (.create "notes" (noteBody 0 owner "draft")))
  again :=
    let turn := noteTurn (.create "notes" (noteBody 0 owner "draft"))
    [{ turn with conditions := { turn.conditions with id := 4 } }]
  same := List.prefix_refl _

def noteVisit (owner : ℤ) : Visit (noteInterruption owner) where
  before := []
  turn := noteTurn (.create "notes" (noteBody 0 owner "draft"))
  before' := []
  turn' :=
    let turn := noteTurn (.create "notes" (noteBody 0 owner "draft"))
    { turn with conditions := { turn.conditions with id := 4 } }
  first := ⟨[], rfl⟩
  second := ⟨[], rfl⟩
  level := rfl

theorem noteEntity_labelUnique : noteEntity.LabelUnique := by
  refine ⟨Rest.NoteColumn.title, rfl, ?_⟩
  decide

theorem noteVisit_inserts (owner : ℤ) (declared : owner = 0 ∨ owner = 7) :
    Inserts noteHandle (noteInterruption owner) (noteVisit owner) ()
      ⟨7, "alice", none, none, 0⟩ (noteBody 0 owner "draft")
      (noteBody 3 7 "draft") := by
  rcases declared with rfl | rfl
  all_goals exact ⟨⟨"notes", rfl⟩, rfl, rfl, rfl⟩

theorem noteVisit_only {owner : ℤ} (visit : Visit (noteInterruption owner)) :
    visit = noteVisit owner := by
  obtain ⟨before, turn, before', turn', first, second, level⟩ := visit
  obtain ⟨rest, first⟩ := first
  obtain ⟨rest', second⟩ := second
  cases before with
  | cons other before =>
      have lengths := congrArg List.length first
      simp [noteInterruption] at lengths
  | nil =>
      obtain rfl := List.length_eq_zero_iff.mp level
      obtain rfl := (List.cons.inj first).1
      obtain rfl := (List.cons.inj second).1
      rfl

/-- The body names the caller: the row is found again. -/
theorem creation_returned_on_note :
    Returned noteHandle (noteInterruption 7) (noteVisit 7)
      (noteBody 3 7 "draft") := by
  refine (creations_returned_iff noteHandle (noteInterruption 7)
    noteState_consistent).mpr ?_ (noteVisit 7) () _ _ _
      noteEntity_labelUnique (noteVisit_inserts 7 (Or.inr rfl))
  intro visit i account body value _ inserts _
  obtain rfl := noteVisit_only visit
  obtain ⟨⟩ := i
  obtain ⟨⟨resource, creation⟩, admitted, _, answered⟩ := inserts
  obtain ⟨rfl, rfl⟩ := WriteCall.create.inj creation
  obtain ⟨_, rfl⟩ := Prod.mk.inj (Except.ok.inj admitted)
  obtain rfl := Except.ok.inj answered
  refine ⟨⟨_, _, rfl, rfl, ?_, ?_, ?_⟩, ?_⟩
  · decide
  · decide
  · right
    decide
  · refine ⟨noteBody 3 7 "draft", ⟨_, _, _, rfl, rfl, rfl, _,
      List.Mem.tail _ (List.Mem.head _), ?_, rfl, ?_⟩, rfl, ?_⟩
    · decide
    · decide
    · decide

/-- The body names another owner than the caller, which the creation replaces:
the row is not found again. -/
theorem creation_lost_on_owner :
    noteEntity.LabelUnique ∧
    Inserts noteHandle (noteInterruption 0) (noteVisit 0) ()
      ⟨7, "alice", none, none, 0⟩ (noteBody 0 0 "draft") (noteBody 3 7 "draft") ∧
    ((noteHandle.within noteStep).turn
        ((noteInterruption 0).second noteHandle (noteVisit 0).before')
          (noteVisit 0).turn').1 = .error Failure.conflict.message := by
  refine ⟨noteEntity_labelUnique, noteVisit_inserts 0 (Or.inl rfl), ?_⟩
  rfl

end MiryadCore.Lymaille
