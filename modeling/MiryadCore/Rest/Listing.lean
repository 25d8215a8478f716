import MiryadCore.Rest.Access
import Mathlib.Data.List.Range

/-!
# Lists and single reads

A list and a single read apply the read policy in two ways: one as a condition
of the query, the other as a check of the row.  Here the two agree, page after
page, when the statements of the database succeed.
-/

namespace MiryadCore.Rest

open Users (UserRow)

section Pages

variable {α : Type} {rows : List α} {perPage : ℕ}

theorem flatMap_pages (rows : List α) (perPage pages : ℕ) :
    ((List.range pages).flatMap fun page =>
      (rows.drop (perPage * page)).take perPage) =
        rows.take (perPage * pages) := by
  induction pages with
  | zero => simp
  | succ pages induction =>
      rw [List.range_succ, List.flatMap_append, induction, Nat.mul_succ,
        List.take_add]
      simp

theorem pagesNumber_covers (items : ℕ) (positive : 0 < perPage) :
    items ≤ perPage * pagesNumber items perPage := by
  have division := Nat.div_add_mod items perPage
  have below := Nat.mod_lt items positive
  rw [pagesNumber, Nat.mul_add]
  split
  · omega
  · omega

theorem pagesNumber_le (items : ℕ) (positive : 0 < perPage) :
    pagesNumber items perPage ≤ items := by
  have division := Nat.div_add_mod items perPage
  have quotient : items / perPage ≤ perPage * (items / perPage) :=
    Nat.le_mul_of_pos_left _ positive
  rw [pagesNumber]
  split
  · omega
  · omega

theorem perPage_bounds (page perPage : Option ℕ) :
    0 < (Pagination.fromRaw page perPage).perPage ∧
      (Pagination.fromRaw page perPage).perPage ≤ maxPerPage := by
  simp only [Pagination.fromRaw, clamp, maxPerPage]
  omega

theorem page_fromRaw {page : ℕ} (perPage : Option ℕ) (small : page < maxPage) :
    (Pagination.fromRaw (some (page + 1)) perPage).page = page + 1 := by
  simp only [Pagination.fromRaw, clamp, Option.getD_some]
  omega

theorem pageOffset_eq {page : ℕ} (perPage : Option ℕ)
    (small : page < maxPage) :
    pageOffset (Pagination.fromRaw (some (page + 1)) perPage) =
      (Pagination.fromRaw none perPage).perPage * page := by
  have bounds := perPage_bounds none perPage
  have samePage := page_fromRaw perPage small
  have samePer : (Pagination.fromRaw (some (page + 1)) perPage).perPage =
      (Pagination.fromRaw none perPage).perPage := rfl
  rw [pageOffset, samePage, samePer, Nat.add_sub_cancel]
  apply Nat.mod_eq_of_lt
  calc (Pagination.fromRaw none perPage).perPage * page
      ≤ maxPerPage * page := Nat.mul_le_mul_right _ bounds.2
    _ ≤ maxPerPage * maxPage := Nat.mul_le_mul_left _ small.le
    _ < 2 ^ 64 := by decide

end Pages

variable {Column : Type} {schema : Schema Column}

theorem Table.length_le (table : Table schema) :
    table.rows.length ≤ 2 ^ 32 := by
  have keys : (table.rows.map fun row => schema.keyOf row.values).toFinset ⊆
      Finset.Ico (-2 ^ 31) (2 ^ 31) := by
    intro key member
    obtain ⟨row, listed, rfl⟩ :=
      List.mem_map.mp (List.mem_toFinset.mp member)
    exact Finset.mem_Ico.mpr (table.fits row listed).2.1
  have card := Finset.card_le_card keys
  rw [List.toFinset_card_of_nodup table.keys, List.length_map,
    Int.card_Ico] at card
  exact card

/-- A selection is in the order of the keys, each key once. -/
theorem Table.sorted (table : Table schema) (p : StoredRow Column → Bool) :
    (((table.rows.filter p).mergeSort fun left right =>
      schema.keyOf left.values ≤ schema.keyOf right.values).map fun row =>
        schema.keyOf row.values).Pairwise (· < ·) := by
  have perm := List.mergeSort_perm (table.rows.filter p) fun left right =>
    schema.keyOf left.values ≤ schema.keyOf right.values
  have distinct : (((table.rows.filter p).mergeSort fun left right =>
      schema.keyOf left.values ≤ schema.keyOf right.values).map fun row =>
        schema.keyOf row.values).Nodup := by
    apply ((perm.map _).nodup_iff).mpr
    exact table.keys.sublist (List.filter_sublist.map _)
  have ordered : ((table.rows.filter p).mergeSort fun left right =>
      schema.keyOf left.values ≤ schema.keyOf right.values).Pairwise
        fun left right =>
          decide (schema.keyOf left.values ≤ schema.keyOf right.values) =
            true := by
    apply List.pairwise_mergeSort
    · intro first second third below below'
      rw [decide_eq_true_eq] at *
      exact below.trans below'
    · intro first second
      rw [Bool.or_eq_true, decide_eq_true_eq, decide_eq_true_eq]
      exact le_total _ _
  have sorted : (((table.rows.filter p).mergeSort fun left right =>
      schema.keyOf left.values ≤ schema.keyOf right.values).map fun row =>
        schema.keyOf row.values).Pairwise (· ≤ ·) := by
    rw [List.pairwise_map]
    exact ordered.imp fun below => by simpa using below
  exact (sorted.and distinct).imp fun both => lt_of_le_of_ne both.1 both.2

variable [DecidableEq Column] [Fintype Column]

/-- The answer of an operation, when the statements succeed. -/
def answer {α : Type} (envs : ℕ → Calm Column) (query : Api Column α)
    (store : Store schema) : Except RestError α :=
  (Script.run (fun e => exec (calm e)) envs query store).1

/-- The page of a list of rows. -/
def pageOf {α : Type} (rows : List α) (pagination : Pagination) :
    PagedResult α where
  items := (rows.drop (pageOffset pagination)).take pagination.perPage
  page := pagination.page
  perPage := pagination.perPage
  totalItems := rows.length
  totalPages := pagesNumber rows.length pagination.perPage

variable {env : Type} {conditions : env → Conditions Column}

theorem answers_fetchList {resource : Resource Column}
    {store : Store resource.toSchema} {condition : Condition Column}
    {page perPage : Option ℕ} :
    Answers conditions (fetchList resource condition page perPage none) store
      (fun result => result = pageOf
        ((store.table.select condition).map StoredRow.values)
        (Pagination.fromRaw page perPage)) fun _ => False := by
  have plain : fetchList resource condition page perPage none = (do
      let total ← request (.count condition)
      let items ← request (.page condition
        (Pagination.fromRaw page perPage).perPage
        (pageOffset (Pagination.fromRaw page perPage)))
      return {
        items
        page := (Pagination.fromRaw page perPage).page
        perPage := (Pagination.fromRaw page perPage).perPage
        totalItems := total
        totalPages := pagesNumber total
          (Pagination.fromRaw page perPage).perPage }) := by
    unfold fetchList
    cases resource.filterColumn
    · rfl
    · rfl
  rw [plain]
  apply Answers.bind (Answers.request fun _ => rfl)
  intro total sameTotal
  apply Answers.bind (Answers.request fun _ => rfl)
  intro items sameItems
  apply Answers.pure
  rw [sameTotal, sameItems, pageOf]
  simp

section Caller

variable {resource : Resource Column} {store : Store resource.toSchema}
  {principal : AuthPrincipal} {user : UserRow}

theorem answers_get (resource : Resource Column)
    (store : Store resource.toSchema) (id : ℤ)
    (known : Known store.users principal user) :
    Answers conditions (get resource principal id) store
      (fun record => (store.table.find id).map StoredRow.values = some record ∧
        Allowed store.users.view user.id resource.readPolicy
          resource.ownerColumn record)
      (fun error =>
        error = .forbidden ∧
          (Denied store.users.view user.id resource.readPolicy ∨
            ∃ record,
              (store.table.find id).map StoredRow.values = some record ∧
              ¬ Allowed store.users.view user.id resource.readPolicy
                resource.ownerColumn record) ∨
        error = .notFound ∧
          ¬ Denied store.users.view user.id resource.readPolicy ∧
          store.table.find id = none) :=
  known.bind (answers_authorized known.consistent.groupNames)

open Classical in
/-- The rows that the read policy gives to the user, in the order of their
keys. -/
noncomputable def readable (resource : Resource Column)
    (store : Store resource.toSchema) (user : UserRow) :
    List (StoredRow Column) :=
  (store.table.rows.filter fun row =>
    Allowed store.users.view user.id resource.readPolicy resource.ownerColumn
      row.values).mergeSort
    fun left right => resource.keyOf left.values ≤ resource.keyOf right.values

omit [DecidableEq Column] [Fintype Column] in
open Classical in
theorem select_eq_readable {condition : Condition Column}
    (agrees : ∀ row ∈ store.table.rows, condition.holds row.values = true ↔
      Allowed store.users.view user.id resource.readPolicy
        resource.ownerColumn row.values) :
    store.table.select condition = readable resource store user := by
  rw [Table.select, readable]
  congr 1
  apply List.filter_congr
  intro row member
  rw [Bool.eq_iff_iff, decide_eq_true_eq]
  exact agrees row member

end Caller

section Reading

variable {mounted : Mounted Column} {store : Store mounted.toSchema}
  {principal : AuthPrincipal} {user : UserRow}

theorem answers_list (page perPage : Option ℕ)
    (known : Known store.users principal user) :
    Answers conditions (list mounted.toResource principal page perPage none)
      store
      (fun result =>
        ¬ Denied store.users.view user.id mounted.readPolicy ∧
          result = pageOf
            ((readable mounted.toResource store user).map StoredRow.values)
            (Pagination.fromRaw page perPage))
      (fun error => error = .forbidden ∧
        Denied store.users.view user.id mounted.readPolicy) := by
  apply known.bind
  apply Answers.bind (Answers.ofUsers
    (reads_listAccess known.consistent.groupNames))
  intro access meaning
  have fetched : ∀ condition : Condition Column,
      ¬ Denied store.users.view user.id mounted.readPolicy →
      (∀ row ∈ store.table.rows, condition.holds row.values = true ↔
        Allowed store.users.view user.id mounted.readPolicy
          mounted.ownerColumn row.values) →
      Answers conditions
        (fetchList mounted.toResource condition page perPage none) store
        (fun result =>
          ¬ Denied store.users.view user.id mounted.readPolicy ∧
            result = pageOf
              ((readable mounted.toResource store user).map StoredRow.values)
              (Pagination.fromRaw page perPage))
        (fun error => error = .forbidden ∧
          Denied store.users.view user.id mounted.readPolicy) := by
    intro condition accepted agrees
    apply answers_fetchList.mono
    · intro result same
      rw [select_eq_readable agrees] at same
      exact ⟨accepted, same⟩
    · exact fun _ impossible => impossible.elim
  cases access with
  | unrestricted =>
      apply fetched
      · intro denied
        exact denied.not_allowed (meaning fun _ => .int none)
      · intro row _
        exact ⟨fun _ => meaning row.values, fun _ => rfl⟩
  | filterByOwner condition =>
      obtain ⟨ownerOnly, notAdmin, column, declared, rfl⟩ := meaning
      apply fetched
      · intro denied
        obtain ⟨_, refused⟩ := denied
        simp [ownerOnly] at refused
      · intro row member
        have typed := (store.table.fits row member).2.2 column
        rw [mounted.owner_integer declared] at typed
        simp only [Condition.holds, List.all_cons, List.all_nil, Bool.and_true]
        rw [sqlEq_ofId typed]
        simp [Allowed, ownerOnly, notAdmin, declared]
  | forbidden =>
      apply Answers.fail
      refine ⟨rfl, ?_⟩
      rcases meaning with denied | ⟨ownerOnly, missing⟩
      · exact denied
      · obtain ⟨column, declared⟩ := mounted.owner_declared ownerOnly
        rw [missing] at declared
        cases declared

theorem answers_denied {policy : AccessPolicy} {id : ℤ}
    (known : Known store.users principal user)
    (denied : Denied store.users.view user.id policy) :
    Answers conditions (authorized mounted.toResource policy user id) store
      (fun _ => False) (fun error => error = .forbidden) := by
  apply (answers_authorized known.consistent.groupNames).mono
  · intro record found
    exact denied.not_allowed found.2
  · intro error refused
    rcases refused with ⟨same, _⟩ | ⟨_, accepted, _⟩
    · exact same
    · exact (accepted denied).elim

omit [Fintype Column] in
/-- A user who is not denied may read some row of some table. -/
theorem exists_allowed (known : Known store.users principal user)
    (accepted : ¬ Denied store.users.view user.id mounted.readPolicy) :
    ∃ table : Table mounted.toSchema, ∃ row ∈ table.rows,
      Allowed store.users.view user.id mounted.readPolicy mounted.ownerColumn
        row.values := by
  let record : Model Column := fun column =>
    if mounted.ownerColumn = some column then .ofId user.id
    else if column = mounted.primaryKey then .ofId 0
    else (mounted.columnType column).null
  have range := known.consistent.userRange user known.listed
  have key : ∃ id, IsI32 id ∧ record mounted.primaryKey = .ofId id := by
    by_cases owner : mounted.ownerColumn = some mounted.primaryKey
    · refine ⟨user.id, ⟨range.1, ?_⟩, by simp [record, owner]⟩
      have bound : user.id ≤ 2 ^ 31 - 1 := range.2
      omega
    · exact ⟨0, ⟨by decide, by decide⟩, by simp [record, owner]⟩
  obtain ⟨id, small, isKey⟩ := key
  have fits : mounted.toSchema.Fits record := by
    have sameKey := Schema.keyOf_of_eq isKey
    refine ⟨by rw [sameKey, isKey], by rw [sameKey]; exact small, ?_⟩
    intro column
    simp only [record]
    split
    · rename_i declared
      rw [mounted.owner_integer declared]
      rfl
    split
    · rename_i same
      rw [same, mounted.keyInteger]
      rfl
    · exact ColumnType.admits_null _
  refine ⟨⟨[⟨record, id, true, none⟩], [], by simpa using fits, by simp, by simp⟩,
    _,
    List.mem_singleton_self _, ?_⟩
  by_cases admin : store.users.view.MemberOf user.id Users.adminGroupName
  · exact Or.inr (Or.inl admin)
  cases policy : mounted.readPolicy with
  | publicAccess => exact Or.inl rfl
  | adminOnly => exact (accepted ⟨admin, Or.inl policy⟩).elim
  | group name =>
      by_cases member : store.users.view.MemberOf user.id name
      · exact Or.inr (Or.inr (Or.inl ⟨name, rfl, member⟩))
      · exact (accepted ⟨admin, Or.inr ⟨name, policy, member⟩⟩).elim
  | ownerOnly =>
      obtain ⟨column, declared⟩ := mounted.owner_declared policy
      exact Or.inr (Or.inr (Or.inr ⟨rfl, column, declared, by
        simp [record, declared]⟩))

end Reading

section Agreement

variable {mounted : Mounted Column} {store : Store mounted.toSchema}
  {principal : AuthPrincipal} {user : UserRow}

theorem Answers.run {α : Type} {query : Api Column α} {post : α → Prop}
    {refusal : RestError → Prop} (envs : ℕ → Calm Column)
    (answers : Answers (fun e : Calm Column => calm e) query store post
      refusal) :
    (Script.run (fun e => exec (calm e)) envs query store).2 = store ∧
      match answer envs query store with
      | .ok value => post value
      | .error error => refusal error := by
  have ends := Script.Meets.run (fun _ => rfl) envs answers
  unfold answer
  cases result : (Script.run (fun e => exec (calm e)) envs query store).1 with
  | ok value =>
      rw [result] at ends
      exact ends
  | error error =>
      rw [result] at ends
      exact ⟨ends.1, ends.2.resolve_left (not_failure (fun _ => rfl) error)⟩

theorem answer_get (known : Known store.users principal user)
    (envs : ℕ → Calm Column) {row : StoredRow Column}
    (member : row ∈ store.table.rows) :
    answer envs (get mounted.toResource principal
        (mounted.keyOf row.values)) store = .ok row.values ∧
      Allowed store.users.view user.id mounted.readPolicy mounted.ownerColumn
        row.values ∨
    answer envs (get mounted.toResource principal
        (mounted.keyOf row.values)) store = .error .forbidden ∧
      ¬ Allowed store.users.view user.id mounted.readPolicy
        mounted.ownerColumn row.values := by
  have found : (store.table.find (mounted.keyOf row.values)).map
      StoredRow.values = some row.values := by
    rw [Table.find_of_mem member (store.table.fits row member).1]
    rfl
  have ends := (Answers.run envs (answers_get mounted.toResource store
    (mounted.keyOf row.values) known)).2
  cases result : answer envs (get mounted.toResource principal
      (mounted.keyOf row.values)) store with
  | ok record =>
      rw [result, found] at ends
      obtain ⟨same, allowed⟩ := ends
      obtain rfl := Option.some.inj same
      exact Or.inl ⟨rfl, allowed⟩
  | error error =>
      rw [result, found] at ends
      apply Or.inr
      rcases ends with ⟨rfl, refused⟩ | ⟨_, _, absent⟩
      · refine ⟨rfl, ?_⟩
        rcases refused with denied | ⟨record, same, refused⟩
        · exact denied.not_allowed
        · obtain rfl := Option.some.inj same
          exact refused
      · rw [absent] at found
        cases found

theorem answer_list (known : Known store.users principal user)
    (envs : ℕ → Calm Column) (page perPage : Option ℕ) :
    answer envs (list mounted.toResource principal page perPage none) store =
        .ok (pageOf
          ((readable mounted.toResource store user).map StoredRow.values)
          (Pagination.fromRaw page perPage)) ∧
      ¬ Denied store.users.view user.id mounted.readPolicy ∨
    answer envs (list mounted.toResource principal page perPage none) store =
        .error .forbidden ∧
      Denied store.users.view user.id mounted.readPolicy := by
  have ends := (Answers.run envs
    (answers_list page perPage known)).2
  cases result : answer envs (list mounted.toResource principal page perPage
      none) store with
  | ok record =>
      rw [result] at ends
      exact Or.inl ⟨by rw [ends.2], ends.1⟩
  | error error =>
      rw [result] at ends
      exact Or.inr ⟨by rw [ends.1], ends.2⟩

omit [DecidableEq Column] [Fintype Column] in
theorem mem_readable {row : StoredRow Column} :
    row ∈ readable mounted.toResource store user ↔
      row ∈ store.table.rows ∧
        Allowed store.users.view user.id mounted.readPolicy
          mounted.ownerColumn row.values := by
  classical
  rw [readable, List.mem_mergeSort, List.mem_filter, decide_eq_true_eq]

/-- All the pages of a list, one after the other. -/
theorem pages_all {α : Type} (rows : List α) (few : rows.length ≤ 2 ^ 32)
    (perPage : Option ℕ) :
    ((List.range (pageOf rows
        (Pagination.fromRaw (some 1) perPage)).totalPages).flatMap fun n =>
      (pageOf rows (Pagination.fromRaw (some (n + 1)) perPage)).items) =
      rows := by
  have positive := (perPage_bounds none perPage).1
  have small : pagesNumber rows.length
      (Pagination.fromRaw none perPage).perPage ≤ maxPage := by
    apply (pagesNumber_le rows.length positive).trans
    apply few.trans
    decide
  calc ((List.range (pageOf rows
          (Pagination.fromRaw (some 1) perPage)).totalPages).flatMap fun n =>
        (pageOf rows (Pagination.fromRaw (some (n + 1)) perPage)).items)
      = (List.range (pagesNumber rows.length
          (Pagination.fromRaw none perPage).perPage)).flatMap fun n =>
        (rows.drop ((Pagination.fromRaw none perPage).perPage * n)).take
          (Pagination.fromRaw none perPage).perPage := by
        apply List.flatMap_congr
        intro n listed
        have below := (List.mem_range.mp listed).trans_le small
        rw [← pageOffset_eq perPage below]
        rfl
    _ = rows.take ((Pagination.fromRaw none perPage).perPage *
          pagesNumber rows.length
            (Pagination.fromRaw none perPage).perPage) := flatMap_pages _ _ _
    _ = rows := List.take_of_length_le (pagesNumber_covers _ positive)

omit [DecidableEq Column] [Fintype Column] in
theorem readable_length_le :
    (readable mounted.toResource store user).length ≤ 2 ^ 32 := by
  rw [readable, List.length_mergeSort]
  exact (List.length_filter_le _ _).trans store.table.length_le

/-- The pages of a list are the rows that `get` answers, unless it is
forbidden. -/
theorem list_pages (known : Known store.users principal user) :
    (∀ page perPage envs, answer envs
        (list mounted.toResource principal page perPage none) store =
      .error .forbidden) ∨
    ∀ perPage, ∃ pages : ℕ → PagedResult (Model Column),
      (∀ n envs, answer envs (list mounted.toResource principal
          (some (n + 1)) perPage none) store = .ok (pages n)) ∧
      let items := (List.range (pages 0).totalPages).flatMap fun n =>
        (pages n).items
      (items.map mounted.keyOf).Pairwise (· < ·) ∧
      ∀ record envs, record ∈ items ↔
        ∃ row ∈ store.table.rows, row.values = record ∧
          answer envs (get mounted.toResource principal
            (mounted.keyOf record)) store = .ok record := by
  by_cases denied : Denied store.users.view user.id mounted.readPolicy
  · apply Or.inl
    intro page perPage envs
    rcases answer_list known envs page perPage with accepted | refused
    · exact (accepted.2 denied).elim
    · exact refused.1
  apply Or.inr
  intro perPage
  refine ⟨fun n => pageOf
    ((readable mounted.toResource store user).map StoredRow.values)
    (Pagination.fromRaw (some (n + 1)) perPage), ?_, ?_⟩
  · intro n envs
    rcases answer_list known envs (some (n + 1)) perPage with
      accepted | refused
    · exact accepted.1
    · exact (denied refused.2).elim
  have few : ((readable mounted.toResource store user).map
      StoredRow.values).length ≤ 2 ^ 32 := by
    rw [List.length_map]
    exact readable_length_le
  have whole := pages_all _ few perPage
  dsimp only
  rw [whole]
  refine ⟨?_, ?_⟩
  · rw [List.map_map]
    exact store.table.sorted _
  · intro record envs
    rw [List.mem_map]
    constructor
    · intro found
      obtain ⟨row, member, rfl⟩ := found
      obtain ⟨stored, allowed⟩ := mem_readable.mp member
      rcases answer_get known envs stored with accepted | refused
      · exact ⟨row, stored, rfl, accepted.1⟩
      · exact (refused.2 allowed).elim
    · intro found
      obtain ⟨row, stored, rfl, answered⟩ := found
      rcases answer_get known envs stored with accepted | refused
      · exact ⟨row, mem_readable.mpr ⟨stored, accepted.2⟩, rfl⟩
      · rw [refused.1] at answered
        cases answered

/-- A list is forbidden when every single read is, whatever the table. -/
theorem list_forbidden_iff (known : Known store.users principal user)
    (page perPage : Option ℕ) (envs : ℕ → Calm Column) :
    answer envs (list mounted.toResource principal page perPage none) store =
        .error .forbidden ↔
      ∀ (table : Table mounted.toSchema), ∀ row ∈ table.rows, ∀ envs,
        answer envs (get mounted.toResource principal
          (mounted.keyOf row.values)) { store with table } =
            .error .forbidden := by
  constructor
  · intro forbidden table row member envs'
    have single : Known ({ store with table } : Store mounted.toSchema).users
      principal user := known
    rcases answer_list known envs page perPage with accepted | refused
    · rw [accepted.1] at forbidden
      cases forbidden
    · rcases answer_get single envs' member with granted | denied
      · exact (refused.2.not_allowed granted.2).elim
      · exact denied.1
  · intro all
    rcases answer_list known envs page perPage with accepted | refused
    · obtain ⟨table, row, member, allowed⟩ :=
        exists_allowed known accepted.2
      have single : Known
          ({ store with table } : Store mounted.toSchema).users principal
            user := known
      rcases answer_get single envs member with granted | denied
      · have forbidden := all table row member envs
        rw [granted.1] at forbidden
        cases forbidden
      · exact (denied.2 allowed).elim
    · exact refused.1

omit [DecidableEq Column] [Fintype Column] in
theorem denied_of_verdict {policy : AccessPolicy} {s : Users.Session}
    (consistent : s.view.Consistent) {envs : ℕ → Calm Column}
    (refused : (Script.run
      (fun e => Users.exec .left
        (userConditions (fun e : Calm Column => calm e) e))
      envs (staticVerdict policy user) s).1 = .ok (some false)) :
    Denied s.view user.id policy := by
  have reads : Users.Reads (userConditions fun e : Calm Column => calm e)
      (staticVerdict policy user) s _ :=
    reads_staticVerdict Column consistent.groupNames
  have ends := Script.Meets.run (fun _ => rfl) envs reads
  rw [refused] at ends
  exact ends.2

theorem run_denied {α : Type} {query : Api Column α} (envs : ℕ → Calm Column)
    (answers : Answers (fun e : Calm Column => calm e) query store
      (fun _ => False) (fun error => error = .forbidden)) :
    Script.run (fun e => exec (calm e)) envs query store =
      (.error .forbidden, store) := by
  obtain ⟨same, ends⟩ := Answers.run envs answers
  cases result : answer envs query store with
  | ok value =>
      rw [result] at ends
      exact ends.elim
  | error error =>
      rw [result] at ends
      apply Prod.ext
      · exact result.trans (congrArg Except.error ends)
      · exact same

/-- For a caller of `list` and of the operations on one row.  Either both
reads are forbidden, or the pages of the list are the rows that `get` answers;
and a caller to whom the policy is refused without a record learns nothing of
the table. -/
theorem list_agrees_with_get (mounted : Mounted Column)
    (store : Store mounted.toSchema) (principal : AuthPrincipal)
    (user : UserRow) (known : Known store.users principal user) :
    ((∀ page perPage envs, answer envs
          (list mounted.toResource principal page perPage none) store =
        .error .forbidden) ∨
      ∀ perPage, ∃ pages : ℕ → PagedResult (Model Column),
        (∀ n envs, answer envs (list mounted.toResource principal
            (some (n + 1)) perPage none) store = .ok (pages n)) ∧
        let items := (List.range (pages 0).totalPages).flatMap fun n =>
          (pages n).items
        (items.map mounted.keyOf).Pairwise (· < ·) ∧
        ∀ record envs, record ∈ items ↔
          ∃ row ∈ store.table.rows, row.values = record ∧
            answer envs (get mounted.toResource principal
              (mounted.keyOf record)) store = .ok record) ∧
    (∀ page perPage envs, answer envs
          (list mounted.toResource principal page perPage none) store =
        .error .forbidden ↔
      ∀ (table : Table mounted.toSchema), ∀ row ∈ table.rows, ∀ envs,
        answer envs (get mounted.toResource principal
          (mounted.keyOf row.values)) { store with table } =
            .error .forbidden) ∧
    ∀ policy,
      (∃ envs, (Script.run
        (fun e => Users.exec .left
          (userConditions (fun e : Calm Column => calm e) e))
        envs (staticVerdict policy user) store.users).1 =
          .ok (some false)) →
      ∀ (table : Table mounted.toSchema) (id : ℤ) (body : Model Column) envs,
        (policy = mounted.readPolicy →
          Script.run (fun e => exec (calm e)) envs
            (get mounted.toResource principal id) { store with table } =
              (.error .forbidden, { store with table })) ∧
        (policy = mounted.writePolicy →
          Script.run (fun e => exec (calm e)) envs
              (update mounted.toResource principal id body)
              { store with table } =
            (.error .forbidden, { store with table }) ∧
          Script.run (fun e => exec (calm e)) envs
              (delete mounted.toResource principal id) { store with table } =
            (.error .forbidden, { store with table })) := by
  refine ⟨list_pages known, list_forbidden_iff known, ?_⟩
  intro policy verdict table id body envs
  obtain ⟨envs', refused⟩ := verdict
  have denied := denied_of_verdict known.consistent refused
  have caller : Known ({ store with table } : Store mounted.toSchema).users
    principal user := known
  refine ⟨?_, ?_⟩
  · intro same
    subst same
    exact run_denied envs (caller.bind (answers_denied caller denied))
  · intro same
    subst same
    refine ⟨run_denied envs (caller.bind ?_), run_denied envs (caller.bind ?_)⟩
    · apply Answers.bind (answers_denied caller denied)
      exact fun _ impossible => impossible.elim
    · apply Answers.bind (answers_denied caller denied)
      exact fun _ impossible => impossible.elim

/-- Notes that their owner reads and that admins write. -/
inductive NoteColumn where
  | id
  | owner
  | title
  deriving DecidableEq

instance : Fintype NoteColumn where
  elems := {.id, .owner, .title}
  complete := by
    intro column
    cases column
    all_goals decide

def notes : Mounted NoteColumn where
  primaryKey := .id
  columnType
    | .id => .integer
    | .owner => .integer
    | .title => .string
  keyInteger := rfl
  uniques := [[.title]]
  resourceName := "notes"
  readPolicy := .ownerOnly
  writePolicy := .adminOnly
  ownerColumn := some .owner
  filterColumn := some .title
  labelColumn := some .title
  hooks := .default
  mounts := rfl

def note (id : ℤ) (owner : Option ℤ) (title : String) : Model NoteColumn
  | .id => .ofId id
  | .owner => .int owner
  | .title => .string (some title)

def noteStore : Store notes.toSchema where
  users := .start {
    users := [⟨7, "alice", none, none, 0⟩]
    groups := [⟨1, "admin", 0⟩]
    memberships := []
    nextUser := 8
    nextGroup := 2
    nextMembership := 1 }
  table := {
    rows := [⟨note 1 none "draft", 1, true, none⟩,
      ⟨note 2 (some 7) "plan", 2, true, some "alice"⟩]
    used := [1, 2]
    fits := by decide
    keys := by decide
    unique := by decide }

def aliceToken : AuthPrincipal :=
  { subject := "alice", email := none, preferredUsername := none,
    source := .apiToken 1 }

def calmly (_ : ℕ) : Calm NoteColumn :=
  { now := 0, gap := 0, id := 3, defaults := note 3 none "" }

theorem known_alice :
    Known noteStore.users aliceToken ⟨7, "alice", none, none, 0⟩ where
  consistent := by
    constructor
    all_goals decide
  listed := by decide
  subject := rfl

theorem list_agrees_with_get_on_notes :
    (∃ n page, answer calmly
        (list notes.toResource aliceToken (some (n + 1)) none none)
        noteStore = .ok page ∧ note 2 (some 7) "plan" ∈ page.items) ∧
      Script.run (fun e => exec (calm e)) calmly
          (delete notes.toResource aliceToken 2) noteStore =
        (.error .forbidden, noteStore) := by
  obtain ⟨pages, refusal, denied⟩ := list_agrees_with_get notes noteStore
    aliceToken ⟨7, "alice", none, none, 0⟩ known_alice
  have reads : answer calmly (get notes.toResource aliceToken 2) noteStore =
      .ok (note 2 (some 7) "plan") := rfl
  have stored : (⟨note 2 (some 7) "plan", 2, true, some "alice"⟩ :
      StoredRow NoteColumn) ∈ noteStore.table.rows := by
    simp [noteStore]
  refine ⟨?_, ?_⟩
  · rcases pages with forbidden | pages
    · have all := (refusal none none calmly).mp (forbidden none none calmly)
        noteStore.table _ stored calmly
      rw [show noteStore = { noteStore with table := noteStore.table } from rfl,
        show (2 : ℤ) = notes.keyOf (note 2 (some 7) "plan") from rfl, all]
        at reads
      cases reads
    · obtain ⟨pages, listed, _, records⟩ := pages none
      have member := (records (note 2 (some 7) "plan") calmly).mpr
        ⟨_, stored, rfl, reads⟩
      obtain ⟨n, _, onPage⟩ := List.mem_flatMap.mp member
      exact ⟨n, pages n, listed n calmly, onPage⟩
  · exact ((denied .adminOnly ⟨calmly, rfl⟩ noteStore.table 2
      (note 2 (some 7) "plan") calmly).2 rfl).2

end Agreement

end MiryadCore.Rest
