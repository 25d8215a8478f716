import MiryadCore.Mcp.Handler
import MiryadCore.Rest.Access

/-!
# What an error answer leaves

An operation that fails leaves the tables of the resources as they were.  A
record that has been written is then serialised and rendered, which may still
fail.
-/

namespace MiryadCore.Mcp

open Rest
open Users (DbErr)

section Spares

variable {Column : Type} [DecidableEq Column] [Fintype Column]
  {schema : Schema Column} {table : Table schema} {α β : Type}

/-- From this table, the query keeps it when it fails, and ends so when it
does not. -/
def Refuses (table : Table schema) (query : Api Column α)
    (post : α → Store schema → Prop) : Prop :=
  ∀ store : Store schema, store.table = table →
    Query.Meets Rest.exec Eq (fun _ _ => True) query post
      (fun _ after => after.table = table) store

/-- The query never changes the table. -/
abbrev Spares (table : Table schema) (query : Api Column α) : Prop :=
  Refuses table query fun _ after => after.table = table

theorem Spares.bind {query : Api Column α} {next : α → Api Column β}
    {post : β → Store schema → Prop} (first : Spares table query)
    (rest : ∀ value, Refuses table (next value) post) :
    Refuses table (query >>= next) post := by
  intro store same
  apply Query.Meets.bind fun _ => rfl
  apply Query.Meets.mono (first store same)
  · intro value after kept
    exact rest value after kept
  · intro error after kept later equal
    exact equal ▸ kept

theorem Spares.pure (value : α) :
    Spares table (pure value : Api Column α) := by
  intro store same
  apply Query.Meets.pure
  intro after equal
  exact equal ▸ same

theorem Refuses.fail {error : RestError} {post : α → Store schema → Prop} :
    Refuses table (Query.fail error : Api Column α) post := by
  intro store same
  apply Query.Meets.fail
  intro after equal
  exact equal ▸ same

omit [DecidableEq Column] [Fintype Column] in
theorem meets_users (query : Users.Db α) (session : Users.Session) :
    Query.Meets
      (fun e : Conditions Column => Users.exec .left (userConditions id e)) Eq
      (fun _ _ => True) query (fun _ _ => True) (fun _ _ => True) session := by
  induction query generalizing session with
  | done result =>
      intro after _
      cases result with
      | ok value => trivial
      | error error => trivial
  | call statement next induction =>
      intro after same e
      exact ⟨trivial, induction _ _⟩

theorem spares_users (query : Users.Db α) :
    Spares table (ofUsers query : Api Column α) := by
  intro store same
  apply Query.Meets.mono (meets_ofUsers (meets_users query store.users))
  · intro value after kept
    exact kept.1.trans same
  · intro error after kept
    exact kept.1.trans same

theorem spares_hook (result : Except HookError α) :
    Spares table (ofHook result : Api Column α) := by
  cases result with
  | ok value => exact Spares.pure value
  | error error => exact Refuses.fail

theorem refuses_request {translate : DbErr → RestError} {asked : Request Column}
    {post : asked.Reply → Store schema → Prop}
    (replied : ∀ e (store : Store schema) reply after, store.table = table →
      store.perform e asked = .ok (reply, after) → post reply after) :
    Refuses table (Query.askWith translate asked) post := by
  intro store same before equal e
  subst equal
  refine ⟨trivial, ?_⟩
  cases result : Rest.exec e store asked with
  | mk answer after =>
      intro later equal
      subst equal
      cases answer with
      | ok reply => exact replied e store reply after same (exec_ok result)
      | error error =>
          rw [exec_error result]
          exact same

theorem spares_find (id : ℤ) :
    Spares table (request (.find id) : Api Column _) := by
  apply refuses_request
  intro e store reply after same performed
  cases Except.ok.inj performed
  exact same

theorem spares_authorized {resource : Resource Column} {policy : AccessPolicy}
    {user : Users.UserRow} {id : ℤ} {table : Table resource.toSchema} :
    Spares table (authorized resource policy user id) := by
  apply Spares.bind (spares_users _)
  intro verdict
  match verdict with
  | some false => exact Refuses.fail
  | some true =>
      apply Spares.bind (spares_find id)
      intro found
      cases found with
      | none => exact Refuses.fail
      | some record => exact Spares.pure record
  | none =>
      apply Spares.bind (spares_find id)
      intro found
      cases found with
      | none => exact Refuses.fail
      | some record =>
          apply Spares.bind (spares_users _)
          intro allowed
          cases allowed with
          | true => exact Spares.pure record
          | false => exact Refuses.fail

variable {resource : Resource Column} {principal : AuthPrincipal}
  {table : Table resource.toSchema}

theorem spares_fetchList (condition : Condition Column)
    (page perPage : Option ℕ) (filter : Option String) :
    Spares table (fetchList resource condition page perPage filter) := by
  apply Spares.bind
  · apply refuses_request
    intro e store reply after same performed
    cases Except.ok.inj performed
    exact same
  intro total
  apply Spares.bind
  · apply refuses_request
    intro e store reply after same performed
    cases Except.ok.inj performed
    exact same
  intro items
  exact Spares.pure _

theorem spares_list (page perPage : Option ℕ) (filter : Option String) :
    Spares table (Rest.list resource principal page perPage filter) := by
  apply Spares.bind (spares_users _)
  intro user
  apply Spares.bind (spares_users _)
  intro access
  cases access with
  | unrestricted => exact spares_fetchList [] page perPage filter
  | filterByOwner condition =>
      exact spares_fetchList condition page perPage filter
  | forbidden => exact Refuses.fail

theorem spares_get (id : ℤ) :
    Spares table (Rest.get resource principal id) := by
  apply Spares.bind (spares_users _)
  intro user
  exact spares_authorized

theorem refuses_create (body : Model Column) :
    Refuses table (Rest.create resource principal body) fun _ _ => True := by
  apply Spares.bind (spares_users _)
  intro user
  apply Spares.bind (spares_users _)
  intro allowed
  cases allowed with
  | false => exact Refuses.fail
  | true =>
      apply Spares.bind (spares_hook _)
      intro active
      exact refuses_request fun _ _ _ _ _ _ => trivial

theorem refuses_update (id : ℤ) (body : Model Column) :
    Refuses table (Rest.update resource principal id body)
      fun _ _ => True := by
  apply Spares.bind (spares_users _)
  intro user
  apply Spares.bind spares_authorized
  intro existing
  apply Spares.bind (spares_hook _)
  intro active
  exact refuses_request fun _ _ _ _ _ _ => trivial

omit [DecidableEq Column] [Fintype Column] in
theorem delete_eq_self {id : ℤ} (none : (table.delete id).1 = 0) :
    (table.delete id).2 = table := by
  unfold Table.delete at none ⊢
  dsimp only at none ⊢
  have kept : (table.rows.filter fun row =>
      ¬ (row.values resource.primaryKey).sqlEq (.ofId id)) = table.rows := by
    apply List.filter_eq_self.mpr
    apply List.length_filter_eq_length_iff.mp
    have fewer := List.length_filter_le (fun row : StoredRow Column =>
      decide ¬ (row.values resource.primaryKey).sqlEq (.ofId id)) table.rows
    omega
  apply Table.ext
  · exact kept
  · rfl

theorem refuses_delete (id : ℤ) :
    Refuses table (Rest.delete resource principal id) fun _ _ => True := by
  apply Spares.bind (spares_users _)
  intro user
  apply Spares.bind spares_authorized
  intro existing
  apply Spares.bind (spares_hook _)
  intro _ store same
  apply Query.Meets.bind fun _ => rfl
  have asked : Refuses table (request (.delete id) : Api Column ℕ)
      fun affected after => affected = 0 → after.table = table := by
    apply refuses_request
    intro e store reply after same performed none
    obtain ⟨rfl, rfl⟩ := Prod.mk.inj (Except.ok.inj performed)
    rw [same] at none
    exact (congrArg (fun table => (Table.delete table id).2) same).trans
      (delete_eq_self none)
  apply Query.Meets.mono (asked store same)
  · intro affected after kept
    by_cases none : affected = 0
    · rw [if_pos none]
      exact Refuses.fail after (kept none)
    · rw [if_neg none]
      apply Query.Meets.pure
      intro later _
      trivial
  · intro error after kept later equal
    exact equal ▸ kept

theorem Refuses.run {query : Api Column α} {post : α → Store schema → Prop}
    {table : Table schema} {store after : Store schema}
    {envs : ℕ → Conditions Column} {answer : Except RestError α}
    (refuses : Refuses table query post) (same : store.table = table)
    (ran : Script.run Rest.exec envs query store = (answer, after)) :
    (∃ value, answer = .ok value ∧ post value after) ∨
      ((∃ error, answer = .error error) ∧ after.table = table) := by
  have ends := Script.Meets.run (fun _ => rfl) envs (refuses store same)
  rw [ran] at ends
  cases answer with
  | ok value => exact Or.inl ⟨value, rfl, ends⟩
  | error error => exact Or.inr ⟨⟨error, rfl⟩, ends⟩

end Spares

section Entities

variable (crates : Crates) (entity : Entity)
  (envs : ℕ → Conditions entity.Column) (principal : AuthPrincipal)
  (params : Value) (store : Store entity.resource.toSchema)

/-- A creation or an update goes through: it returns a record. -/
inductive Entity.Commits :
    McpOp → Model entity.Column → Store entity.resource.toSchema → Prop
  | create {body record : Model entity.Column}
      {after : Store entity.resource.toSchema}
      (decoded : entity.fromValue params = .ok body)
      (created : Script.run Rest.exec envs
        (Rest.create entity.resource principal body) store =
          (.ok record, after)) :
      Commits .create record after
  | update {id : ℤ} {body record : Model entity.Column}
      {after : Store entity.resource.toSchema}
      (addressed : crates.idParams params = .ok id)
      (decoded : entity.fromValue params = .ok body)
      (updated : Script.run Rest.exec envs
        (Rest.update entity.resource principal id body) store =
          (.ok record, after)) :
      Commits .update record after

variable {crates entity envs principal params store}
  {after : Store entity.resource.toSchema}

section Encoded

variable {α : Type} {query : Api entity.Column α}
  {encode : α → Except String Value} {answer : Except McpError Value}

/-- What an operation answers, then its serialisation. -/
theorem run_encoded :
    Script.run Rest.exec envs
        (Query.bind (entity.core query) fun value =>
          entity.encoded (encode value)) store =
      (((Script.run Rest.exec envs query store).1.mapError
          McpError.ofRest).bind
            fun value => (encode value).mapError McpError.render,
        (Script.run Rest.exec envs query store).2) := by
  have whole : (Query.bind (entity.core query) fun value =>
      entity.encoded (encode value)) =
        Script.bind (entity.core query) fun result =>
          Script.done (result.bind fun value =>
            (encode value).mapError McpError.render) := by
    apply congrArg (Script.bind (entity.core query))
    funext result
    cases result with
    | ok value => rfl
    | error error => rfl
  have answers : Script.run Rest.exec envs (entity.core query) store =
      ((Script.run Rest.exec envs query store).1.mapError McpError.ofRest,
        (Script.run Rest.exec envs query store).2) :=
    Script.run_map envs _ query store
  apply (congrArg (Script.run Rest.exec envs · store) whole).trans
  apply (Script.run_map envs _ (entity.core query) store).trans
  rw [answers]

theorem returned_or_kept (encode : α → Except String Value)
    (refuses : Refuses store.table query fun _ _ => True)
    (ran : Script.run Rest.exec envs
      (Query.bind (entity.core query) fun value =>
        entity.encoded (encode value)) store = (answer, after)) :
    (∃ value, Script.run Rest.exec envs query store = (.ok value, after) ∧
        answer = (encode value).mapError .render) ∨
      after.table = store.table := by
  rw [run_encoded] at ran
  obtain ⟨rfl, rfl⟩ := Prod.mk.inj ran
  rcases refuses.run rfl rfl with ⟨value, returned, _⟩ | ⟨_, kept⟩
  · refine Or.inl ⟨value, Prod.ext returned rfl, ?_⟩
    rw [returned]
    rfl
  · exact Or.inr kept

theorem kept_of_spares (spares : Spares store.table query)
    (ran : Script.run Rest.exec envs
      (Query.bind (entity.core query) fun value =>
        entity.encoded (encode value)) store = (answer, after)) :
    after.table = store.table := by
  rw [run_encoded] at ran
  obtain ⟨_, rfl⟩ := Prod.mk.inj ran
  rcases spares.run rfl rfl with ⟨_, _, kept⟩ | ⟨_, kept⟩
  · exact kept
  · exact kept

end Encoded

theorem Entity.Commits.run {op : McpOp} {record : Model entity.Column}
    (commits : Entity.Commits crates entity envs principal params store op
      record after) :
    Script.run Rest.exec envs (entity.call crates op principal params) store =
      ((entity.toValue record).mapError .render, after) := by
  cases commits with
  | create decoded created =>
      unfold Entity.call
      rw [decoded]
      apply run_encoded.trans
      rw [created]
      rfl
  | update addressed decoded updated =>
      unfold Entity.call
      rw [addressed, decoded]
      apply run_encoded.trans
      rw [updated]
      rfl

/-- A call commits, or keeps the table, or has deleted a row. -/
theorem call_ends {op : McpOp} {answer : Except McpError Value}
    (ran : Script.run Rest.exec envs (entity.call crates op principal params)
      store = (answer, after)) :
    (∃ record, Entity.Commits crates entity envs principal params store op
        record after ∧ answer = (entity.toValue record).mapError .render) ∨
      after.table = store.table ∨ op = .delete ∧ answer = .ok .null := by
  have undecoded : ∀ {error : McpError},
      Script.run Rest.exec envs (Script.done (.error error)) store =
        (answer, after) → after.table = store.table := by
    intro error ran
    exact congrArg Store.table (Prod.mk.inj ran).2.symm
  unfold Entity.call at ran
  cases op with
  | list =>
      cases decoded : crates.listParams params with
      | error text =>
          rw [decoded] at ran
          exact Or.inr (Or.inl (undecoded ran))
      | ok list =>
          rw [decoded] at ran
          exact Or.inr (Or.inl (kept_of_spares (spares_list _ _ _) ran))
  | get =>
      cases decoded : crates.idParams params with
      | error text =>
          rw [decoded] at ran
          exact Or.inr (Or.inl (undecoded ran))
      | ok id =>
          rw [decoded] at ran
          exact Or.inr (Or.inl (kept_of_spares (spares_get _) ran))
  | create =>
      cases decoded : entity.fromValue params with
      | error text =>
          rw [decoded] at ran
          exact Or.inr (Or.inl (undecoded ran))
      | ok body =>
          rw [decoded] at ran
          rcases returned_or_kept entity.toValue (refuses_create _) ran with
            ⟨record, created, equal⟩ | kept
          · exact Or.inl ⟨record, .create decoded created, equal⟩
          · exact Or.inr (Or.inl kept)
  | update =>
      cases addressed : crates.idParams params with
      | error text =>
          rw [addressed] at ran
          exact Or.inr (Or.inl (undecoded ran))
      | ok id =>
          cases decoded : entity.fromValue params with
          | error text =>
              rw [addressed, decoded] at ran
              exact Or.inr (Or.inl (undecoded ran))
          | ok body =>
              rw [addressed, decoded] at ran
              rcases returned_or_kept entity.toValue (refuses_update _ _) ran
                with ⟨record, updated, equal⟩ | kept
              · exact Or.inl
                  ⟨record, .update addressed decoded updated, equal⟩
              · exact Or.inr (Or.inl kept)
  | delete =>
      cases decoded : crates.idParams params with
      | error text =>
          rw [decoded] at ran
          exact Or.inr (Or.inl (undecoded ran))
      | ok id =>
          rw [decoded] at ran
          rcases returned_or_kept (fun _ => .ok .null) (refuses_delete _) ran
            with ⟨_, _, equal⟩ | kept
          · exact Or.inr (Or.inr ⟨rfl, equal⟩)
          · exact Or.inr (Or.inl kept)

end Entities

section ToolCalls

variable (crates : Crates) (registry : McpToolRegistry)
  (circumstances : Circumstances registry) (database : Database registry)
  (principal : AuthPrincipal) (id params : Value)

/-- The request is a creation or an update that goes through: it returns the
record of an entity, and leaves these tables. -/
inductive Committed : (place : registry.Place) →
    Model (registry.entity place).Column → Database registry → Prop
  | intro {call : ToolCallParams} {resourceName : String} {op : McpOp}
      {place : registry.Place} {record : Model (registry.entity place).Column}
      {after : Store (registry.entity place).resource.toSchema}
      (parsed : crates.toolCallParams params = .ok call)
      (tool : parseToolName call.name = some (resourceName, op))
      (found : registry.get? resourceName = some place)
      (commits : Entity.Commits crates (registry.entity place)
        (circumstances place) principal
        (if call.arguments = .null then emptyArguments else call.arguments)
        { users := database.users, table := database.tables place } op record
        after) :
      Committed place record {
        users := after.users
        tables := Function.update database.tables place after.table }

/-- The text of a record: it is serialised, then rendered. -/
def recordText (place : registry.Place)
    (record : Model (registry.entity place).Column) :
    Except McpError String := do
  let data ← ((registry.entity place).toValue record).mapError .render
  render crates registry.format .record data

/-- The answer about a record. -/
def recordAnswer (id : Value) : Except McpError String → JsonRpcResponse
  | .ok text => .ok id (content text)
  | .error error => errorResponse id error

variable {crates registry circumstances database principal params}
  {after : Database registry} {response : JsonRpcResponse}

theorem answered_write {op : McpOp} (kept : op ≠ .delete) (one : op ≠ .list)
    (data : Except McpError Value) :
    answered crates registry id op data =
      recordAnswer id (data >>= render crates registry.format .record) := by
  cases data with
  | error error => rfl
  | ok data =>
      show answered crates registry id op (.ok data) =
        recordAnswer id (render crates registry.format .record data)
      simp only [answered, if_neg kept, if_neg one]
      cases render crates registry.format .record data with
      | ok text => rfl
      | error error => rfl

theorem Committed.handled {place : registry.Place}
    {record : Model (registry.entity place).Column}
    (committed : Committed crates registry circumstances database principal
      params place record after) :
    handleToolsCall crates registry circumstances database principal id
        params =
      (recordAnswer id (recordText crates registry place record), after) := by
  cases committed with
  | @intro call name op place record after parsed tool found commits =>
      have ran := commits.run
      have write : op ≠ .delete ∧ op ≠ .list := by
        cases commits with
        | create => decide
        | update => decide
      unfold handleToolsCall
      simp only [parsed, tool, found, callEntity, ran]
      rw [answered_write id write.1 write.2]
      rfl

/-- The call of an entity commits, or keeps the tables, or has deleted. -/
theorem callEntity_ends {place : registry.Place} {op : McpOp}
    {answer : Except McpError Value}
    (called : callEntity crates registry circumstances database place op
      principal params = (answer, after)) :
    (∃ record later, Entity.Commits crates (registry.entity place)
        (circumstances place) principal params
        { users := database.users, table := database.tables place } op record
        later) ∨
      after.tables = database.tables ∨ op = .delete ∧ answer = .ok .null := by
  unfold callEntity at called
  cases ran : Script.run Rest.exec (circumstances place)
      ((registry.entity place).call crates op principal params)
      { users := database.users, table := database.tables place } with
  | mk result later =>
      rw [ran] at called
      obtain ⟨rfl, rfl⟩ := Prod.mk.inj called
      rcases call_ends ran with ⟨record, commits, _⟩ | kept | deleted
      · exact Or.inl ⟨record, later, commits⟩
      · refine Or.inr (Or.inl ?_)
        show Function.update database.tables place later.table =
          database.tables
        rw [kept, Function.update_eq_self]
      · exact Or.inr (Or.inr deleted)

/-- A request commits a record, or keeps the tables, or is answered by a
result. -/
theorem handleToolsCall_ends
    (handled : handleToolsCall crates registry circumstances database
      principal id params = (response, after)) :
    (∃ place record later, Committed crates registry circumstances database
        principal params place record later) ∨
      after.tables = database.tables ∨ response.error = none := by
  unfold handleToolsCall at handled
  split at handled
  · exact Or.inr (Or.inl (congrArg (·.2.tables) handled.symm))
  rename_i call parsed
  split at handled
  · exact Or.inr (Or.inl (congrArg (·.2.tables) handled.symm))
  rename_i name op tool
  split at handled
  · exact Or.inr (Or.inl (congrArg (·.2.tables) handled.symm))
  rename_i place found
  obtain ⟨rfl, rfl⟩ := Prod.mk.inj handled
  rcases callEntity_ends rfl with ⟨record, later, commits⟩ | kept | deleted
  · exact Or.inl ⟨place, record, _, .intro parsed tool found commits⟩
  · exact Or.inr (Or.inl kept)
  · obtain ⟨rfl, answer⟩ := deleted
    refine Or.inr (Or.inr ?_)
    show (answered crates registry id .delete _).error = none
    rw [answer]
    rfl

theorem recordAnswer_error {text : Except McpError String} :
    (recordAnswer id text).error.isSome = true ↔ text.isOk = false := by
  cases text with
  | ok text => exact ⟨nofun, nofun⟩
  | error error => exact ⟨fun _ => rfl, fun _ => rfl⟩

theorem recordAnswer_result {text : Except McpError String} :
    (recordAnswer id text).result.isSome = text.isOk := by
  cases text with
  | ok text => rfl
  | error error => rfl

variable (crates registry circumstances database principal params)

/-- An error answer leaves the tables, unless a record whose write changes
them has no text.  What is committed is answered by a result, unless its
record has no text. -/
theorem errors_spare_iff :
    (((handleToolsCall crates registry circumstances database principal id
          params).1.error.isSome = true →
        (handleToolsCall crates registry circumstances database principal id
          params).2.tables = database.tables) ↔
      ∀ place record after, Committed crates registry circumstances database
          principal params place record after →
        after.tables ≠ database.tables →
          (recordText crates registry place record).isOk = true) ∧
    ((∀ place record after, Committed crates registry circumstances database
          principal params place record after →
        (handleToolsCall crates registry circumstances database principal id
          params).1.result.isSome = true) ↔
      ∀ place record after, Committed crates registry circumstances database
          principal params place record after →
        (recordText crates registry place record).isOk = true) := by
  refine ⟨⟨?_, ?_⟩, ⟨?_, ?_⟩⟩
  · intro spared place record after committed changed
    by_contra textless
    rw [committed.handled id] at spared
    apply changed
    exact spared ((recordAnswer_error id).mpr (Bool.eq_false_iff.mpr textless))
  · intro texts failed
    cases handled : handleToolsCall crates registry circumstances database
        principal id params with
    | mk response after =>
        rw [handled] at failed
        rcases handleToolsCall_ends id handled with
          ⟨place, record, later, committed⟩ | kept | resultful
        · obtain ⟨rfl, rfl⟩ :=
            Prod.mk.inj ((committed.handled id).symm.trans handled)
          by_contra changed
          have text := texts place record later committed changed
          rw [(recordAnswer_error id).mp failed] at text
          cases text
        · exact kept
        · rw [resultful] at failed
          cases failed
  · intro answered place record after committed
    have result := answered place record after committed
    rw [committed.handled id, recordAnswer_result] at result
    exact result
  · intro texts place record after committed
    rw [committed.handled id, recordAnswer_result]
    exact texts place record after committed

/-- Memos have nothing but their key, and anyone writes them. -/
def memos : Mounted Unit where
  primaryKey := ()
  columnType _ := .integer
  keyInteger := rfl
  uniques := []
  resourceName := "memos"
  readPolicy := .publicAccess
  writePolicy := .publicAccess
  ownerColumn := none
  filterColumn := none
  labelColumn := none
  hooks := .default
  mounts := rfl

/-- An engine that is strict: it knows no variable but `this`. -/
def strictCrates : Crates where
  toolCallParams params :=
    match params.get? "name" with
    | some (.string name) =>
        .ok { name, arguments := (params.get? "arguments").getD .null }
    | _ => .error "missing field"
  listParams _ := .ok { page := none, perPage := none, filter := none }
  idParams _ := .error "missing field"
  pageValue page := .array page.items
  render template _ :=
    if template = DEFAULT_JSON_TEMPLATE then .ok "1"
    else .error "Variable \"summary\" not found in strict mode."

def memoRegistry (format : OutputFormat) : McpToolRegistry where
  format
  entities := [{
    Column := Unit
    decidable := inferInstance
    finite := inferInstance
    resource := memos.toResource
    fromValue _ := .ok fun _ => .ofId 0
    toValue memo := .ok (.object [("id", .number (.posInt
      (UInt64.ofNat (memos.keyOf memo).toNat)))]) }]
  distinct := List.nodup_singleton _

/-- A template that reads a column that memos do not have. -/
def summary : OutputFormat :=
  .custom "\x7b\x7bsummary\x7d\x7d"

def memoDatabase (format : OutputFormat) : Database (memoRegistry format) where
  users := .start {
    users := [⟨7, "alice", none, none, 0⟩]
    groups := []
    memberships := []
    nextUser := 8
    nextGroup := 1
    nextMembership := 1 }
  tables _ := .empty

def memoCaller : AuthPrincipal :=
  { subject := "alice", email := none, preferredUsername := none,
    source := .apiToken 1 }

def createMemo (circumstances : Circumstances (memoRegistry summary)) :
    JsonRpcResponse × Database (memoRegistry summary) :=
  handleToolsCall strictCrates (memoRegistry summary) circumstances
    (memoDatabase summary) memoCaller (.number (.posInt 1))
    (.object [("name", .string "memos_create")])

def quietly : Circumstances (memoRegistry summary) :=
  fun _ _ => { fault := none, now := 0, gap := 0, id := 1
               defaults := fun _ => .ofId 0 }

/-- The creation is answered by an error, and the memo is in the table. -/
theorem textless_memo_stays :
    (createMemo quietly).1.error =
        some { code := -32603, message := "MRD-MCP-004: output rendering error"
               data := none } ∧
      ((createMemo quietly).2.tables ⟨0, by decide⟩).rows ≠
        ((memoDatabase summary).tables ⟨0, by decide⟩).rows := by
  have created : (createMemo quietly).1.error =
        some { code := -32603, message := "MRD-MCP-004: output rendering error"
               data := none } ∧
      ((createMemo quietly).2.tables ⟨0, by decide⟩).rows.length = 1 := by
    decide +kernel
  refine ⟨created.1, ?_⟩
  intro same
  have length := created.2
  rw [same] at length
  cases length

end ToolCalls

end MiryadCore.Mcp
