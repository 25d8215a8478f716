import MiryadCore.Rest.Listing

/-!
# The windows of a list

A list is asked for page after page, by raw numbers that may be any `u64`.
Whatever these are, the window of a page does not overflow, and as long as the
tables stay the pages cut the authorised rows into windows of one size.
-/

namespace MiryadCore.Rest

open Users (UserRow)

section Window

variable {α : Type}

theorem page_bounds (page perPage : Option ℕ) :
    1 ≤ (Pagination.fromRaw page perPage).page ∧
      (Pagination.fromRaw page perPage).page ≤ maxPage := by
  simp only [Pagination.fromRaw, clamp]
  have some_ : 1 ≤ maxPage := by decide
  omega

theorem window_lt (page perPage : Option ℕ) :
    (Pagination.fromRaw page perPage).perPage *
      (Pagination.fromRaw page perPage).page < 2 ^ 64 := by
  have bounds := perPage_bounds page perPage
  have pages := page_bounds page perPage
  calc (Pagination.fromRaw page perPage).perPage *
        (Pagination.fromRaw page perPage).page
      ≤ maxPerPage * maxPage := Nat.mul_le_mul bounds.2 pages.2
    _ < 2 ^ 64 := by decide

theorem pageOffset_fromRaw (page perPage : Option ℕ) :
    pageOffset (Pagination.fromRaw page perPage) =
      (Pagination.fromRaw page perPage).perPage *
        ((Pagination.fromRaw page perPage).page - 1) := by
  apply Nat.mod_eq_of_lt
  apply Nat.lt_of_le_of_lt _ (window_lt page perPage)
  exact Nat.mul_le_mul_left _ (Nat.sub_le _ _)

theorem pagesNumber_eq (items : ℕ) {perPage : ℕ} (positive : 0 < perPage) :
    pagesNumber items perPage = (items + perPage - 1) / perPage := by
  have division := Nat.div_add_mod items perPage
  have below := Nat.mod_lt items positive
  rw [pagesNumber]
  split
  next rest =>
    symm
    apply Nat.div_eq_of_lt_le
    · rw [Nat.add_mul, Nat.one_mul, Nat.mul_comm]
      omega
    · rw [Nat.add_mul, Nat.add_mul, Nat.mul_comm _ perPage]
      omega
  next whole =>
    symm
    apply Nat.div_eq_of_lt_le
    · rw [Nat.add_zero, Nat.mul_comm]
      omega
    · rw [Nat.add_zero, Nat.add_mul, Nat.mul_comm _ perPage]
      omega

theorem mul_pagesNumber_lt {items perPage : ℕ} (positive : 0 < perPage)
    {page : ℕ} (before : page < pagesNumber items perPage) :
    perPage * page < items := by
  rw [pagesNumber_eq items positive, Nat.lt_div_iff_mul_lt positive] at before
  rw [Nat.mul_comm]
  omega

theorem length_pageOf (rows : List α) (page perPage : Option ℕ) :
    (pageOf rows (Pagination.fromRaw page perPage)).items.length =
      min (Pagination.fromRaw page perPage).perPage
        (rows.length - (Pagination.fromRaw page perPage).perPage *
          ((Pagination.fromRaw page perPage).page - 1)) := by
  rw [pageOf, List.length_take, List.length_drop, pageOffset_fromRaw]

end Window

variable {Column : Type}

/-- The row has the value that the caller filters by. -/
def filterCondition (resource : Resource Column) (filter : Option String) :
    Condition Column :=
  match resource.filterColumn, filter with
  | some column, some value => [(column, .string (some value))]
  | _, _ => []

open Classical in
/-- The rows that the read policy gives to the user and that meet the filter,
in the order of their keys. -/
noncomputable def authorised (resource : Resource Column)
    (store : Store resource.toSchema) (user : UserRow)
    (filter : Option String) : List (StoredRow Column) :=
  (store.table.rows.filter fun row =>
    Allowed store.users.view user.id resource.readPolicy resource.ownerColumn
      row.values ∧
    (filterCondition resource filter).holds row.values = true).mergeSort
    fun left right => resource.keyOf left.values ≤ resource.keyOf right.values

section Rows

variable {resource : Resource Column} {store : Store resource.toSchema}
  {user : UserRow} {filter : Option String}

theorem mem_authorised {row : StoredRow Column} :
    row ∈ authorised resource store user filter ↔
      row ∈ store.table.rows ∧
      Allowed store.users.view user.id resource.readPolicy resource.ownerColumn
        row.values ∧
      (filterCondition resource filter).holds row.values = true := by
  classical
  rw [authorised, List.mem_mergeSort, List.mem_filter, decide_eq_true_eq]

theorem authorised_length_le :
    (authorised resource store user filter).length ≤ 2 ^ 32 := by
  rw [authorised, List.length_mergeSort]
  exact (List.length_filter_le _ _).trans store.table.length_le

open Classical in
theorem select_eq_authorised {condition : Condition Column}
    (agrees : ∀ row ∈ store.table.rows, condition.holds row.values = true ↔
      Allowed store.users.view user.id resource.readPolicy
        resource.ownerColumn row.values) :
    store.table.select (condition ++ filterCondition resource filter) =
      authorised resource store user filter := by
  rw [Table.select, authorised]
  congr 1
  apply List.filter_congr
  intro row member
  rw [Bool.eq_iff_iff, decide_eq_true_eq, Condition.holds, List.all_append,
    Bool.and_eq_true]
  exact and_congr (agrees row member) Iff.rfl

end Rows

variable [DecidableEq Column] [Fintype Column] {env : Type}
  {conditions : env → Conditions Column}

theorem answers_filtered {resource : Resource Column}
    {store : Store resource.toSchema} {condition : Condition Column}
    {page perPage : Option ℕ} {filter : Option String} :
    Answers conditions (fetchList resource condition page perPage filter) store
      (fun result => result = pageOf
        ((store.table.select
          (condition ++ filterCondition resource filter)).map
            StoredRow.values)
        (Pagination.fromRaw page perPage)) fun _ => False := by
  have filtered : fetchList resource condition page perPage filter = (do
      let total ← request
        (.count (condition ++ filterCondition resource filter))
      let items ← request
        (.page (condition ++ filterCondition resource filter)
          (Pagination.fromRaw page perPage).perPage
          (pageOffset (Pagination.fromRaw page perPage)))
      return {
        items
        page := (Pagination.fromRaw page perPage).page
        perPage := (Pagination.fromRaw page perPage).perPage
        totalItems := total
        totalPages := pagesNumber total
          (Pagination.fromRaw page perPage).perPage }) := by
    unfold fetchList filterCondition
    cases resource.filterColumn with
    | none => rw [List.append_nil]
    | some column =>
        cases filter with
        | none => rw [List.append_nil]
        | some value => rfl
  rw [filtered]
  apply Answers.bind (Answers.request fun _ => rfl)
  intro total sameTotal
  apply Answers.bind (Answers.request fun _ => rfl)
  intro items sameItems
  apply Answers.pure
  rw [sameTotal, sameItems, pageOf]
  simp

/-- The tables of the users are as their constraints want them, and no
transaction is open. -/
structure Settled (users : Users.Session) : Prop where
  subjects : (users.view.users.map UserRow.subject).Nodup
  groups : (users.view.groups.map Users.GroupRow.name).Nodup
  closed : users.pending = none

/-- The caller has a row among the users. -/
structure Caller (users : Users.Session) (principal : AuthPrincipal)
    (user : UserRow) : Prop extends Settled users where
  listed : user ∈ users.view.users
  subject : user.subject = principal.subject

section Lists

variable {mounted : Mounted Column} {store : Store mounted.toSchema}
  {principal : AuthPrincipal} {user : UserRow} {page perPage : Option ℕ}
  {filter : Option String}

/-- What follows the resolution of the caller. -/
def listFor (resource : Resource Column) (page perPage : Option ℕ)
    (filter : Option String) (user : UserRow) :
    Api Column (PagedResult (Model Column)) := do
  match ← ofUsers (listAccess resource user) with
  | .unrestricted => fetchList resource [] page perPage filter
  | .filterByOwner condition =>
      fetchList resource condition page perPage filter
  | .forbidden => Query.fail .forbidden

theorem answers_listFor
    (distinct : (store.users.view.groups.map Users.GroupRow.name).Nodup) :
    Answers conditions
      (listFor mounted.toResource page perPage filter user) store
      (fun result =>
        ¬ Denied store.users.view user.id mounted.readPolicy ∧
          result = pageOf
            ((authorised mounted.toResource store user filter).map
              StoredRow.values)
            (Pagination.fromRaw page perPage))
      (fun error => error = .forbidden ∧
        Denied store.users.view user.id mounted.readPolicy) := by
  apply Answers.bind (Answers.ofUsers (reads_listAccess distinct))
  intro access meaning
  have fetched : ∀ condition : Condition Column,
      ¬ Denied store.users.view user.id mounted.readPolicy →
      (∀ row ∈ store.table.rows, condition.holds row.values = true ↔
        Allowed store.users.view user.id mounted.readPolicy
          mounted.ownerColumn row.values) →
      Answers conditions
        (fetchList mounted.toResource condition page perPage filter) store
        (fun result =>
          ¬ Denied store.users.view user.id mounted.readPolicy ∧
            result = pageOf
              ((authorised mounted.toResource store user filter).map
                StoredRow.values)
              (Pagination.fromRaw page perPage))
        (fun error => error = .forbidden ∧
          Denied store.users.view user.id mounted.readPolicy) := by
    intro condition accepted agrees
    apply answers_filtered.mono
    · intro result same
      rw [select_eq_authorised agrees] at same
      exact ⟨accepted, same⟩
    · exact fun _ impossible => impossible.elim
  cases access with
  | unrestricted =>
      apply fetched
      · intro denied
        exact denied.not_allowed (meaning fun _ => .int none)
      · intro row _
        exact ⟨fun _ => meaning row.values, fun _ => rfl⟩
  | filterByOwner condition =>
      obtain ⟨ownerOnly, notAdmin, column, declared, rfl⟩ := meaning
      apply fetched
      · intro denied
        obtain ⟨_, refused⟩ := denied
        simp [ownerOnly] at refused
      · intro row member
        have typed := (store.table.fits row member).2.2 column
        rw [mounted.owner_integer declared] at typed
        simp only [Condition.holds, List.all_cons, List.all_nil, Bool.and_true]
        rw [sqlEq_ofId typed]
        simp [Allowed, ownerOnly, notAdmin, declared]
  | forbidden =>
      apply Answers.fail
      refine ⟨rfl, ?_⟩
      rcases meaning with denied | ⟨ownerOnly, missing⟩
      · exact denied
      · obtain ⟨column, declared⟩ := mounted.owner_declared ownerOnly
        rw [missing] at declared
        cases declared

variable (conditions page perPage filter) in
theorem answers_windows (caller : Caller store.users principal user) :
    Answers conditions
      (list mounted.toResource principal page perPage filter) store
      (fun result =>
        ¬ Denied store.users.view user.id mounted.readPolicy ∧
          result = pageOf
            ((authorised mounted.toResource store user filter).map
              StoredRow.values)
            (Pagination.fromRaw page perPage))
      (fun error => error = .forbidden ∧
        Denied store.users.view user.id mounted.readPolicy) := by
  show Answers conditions (ofUsers (Users.resolveUser principal.subject
    principal.email) >>= listFor mounted.toResource page perPage filter) _ _ _
  rw [← caller.subject]
  apply Answers.bind (Answers.ofUsers (Users.reads_resolveUser caller.subjects
    caller.listed principal.email))
  intro found same
  subst same
  exact answers_listFor caller.groups

theorem settled_insertUser {users after : Users.Session}
    {e : Users.Conditions} {subject : String} {email : Option String}
    (settled : Settled users)
    (inserted : users.insertUser e subject email = .ok (user, after)) :
    Settled after := by
  rw [Users.Session.insertUser] at inserted
  cases drawn : Users.nextval users.db.nextUser e.gap with
  | error error => simp [drawn, bind, Except.bind] at inserted
  | ok id =>
      simp only [drawn, bind, Except.bind] at inserted
      split at inserted
      · cases inserted
      · rename_i fresh
        have closed := settled.closed
        simp only [pure, Except.pure, Except.ok.injEq, Prod.mk.injEq,
          Users.Session.pendingOrEmpty, closed, Option.getD_none,
          Users.Session.write] at inserted
        obtain ⟨rfl, rfl⟩ := inserted
        have absent : subject ∉ users.view.users.map UserRow.subject := by
          intro member
          obtain ⟨row, listed, same⟩ := List.mem_map.mp member
          exact fresh (List.any_eq_true.mpr
            ⟨row, listed, decide_eq_true same⟩)
        refine ⟨?_, ?_, rfl⟩
        · have subjects := settled.subjects
          simp only [Users.Session.view, Users.Session.pendingOrEmpty, closed,
            Users.Database.overlay, Users.Pending.empty, Option.getD_none,
            List.append_nil, List.nil_append, List.map_append, List.map_cons,
            List.map_nil] at subjects absent ⊢
          exact subjects.append (List.nodup_singleton _)
            (List.disjoint_singleton.mpr absent)
        · have groups := settled.groups
          simpa [Users.Session.view, Users.Session.pendingOrEmpty, closed,
            Users.Database.overlay, Users.Pending.empty] using groups

variable (conditions mounted principal page perPage filter) in
/-- A list that is answered is a page of the rows that its caller may read,
who has a row from then on. -/
theorem meets_list (settled : Settled store.users) :
    Query.Meets (fun e => exec (conditions e)) Eq (fun _ _ => True)
      (list mounted.toResource principal page perPage filter)
      (fun result s' => ∃ user, Caller s'.users principal user ∧
        s'.table = store.table ∧
        ¬ Denied s'.users.view user.id mounted.readPolicy ∧
        result = pageOf
          ((authorised mounted.toResource s' user filter).map StoredRow.values)
          (Pagination.fromRaw page perPage))
      (fun _ _ => True) store := by
  apply Query.Meets.bind fun _ => rfl
  apply Query.Meets.mono (meets_ofUsers (Users.meets_resolveUser_of settled
    fun inserted =>
      have added := Users.insertUser_grown settled.closed inserted
      ⟨added.1, added.2.1, settled_insertUser settled inserted⟩))
  case weakerErr => exact fun _ _ _ _ _ => trivial
  intro user s' after
  obtain ⟨table, subject, listed, settled'⟩ := after
  have answers : Answers conditions
      (listFor mounted.toResource page perPage filter user) s' _ _ :=
    answers_listFor settled'.groups
  apply Query.Meets.mono answers
  · intro result later found
    obtain ⟨rfl, accepted, same⟩ := found
    exact ⟨user, ⟨settled', listed, subject⟩, table, accepted, same⟩
  · exact fun _ _ _ => trivial

/-- The pages of a list, by the raw number that is asked for. -/
structure Paged {α : Type} (keyOf : α → ℤ) (member : α → Prop)
    (perPage : Option ℕ) (pages : Option ℕ → PagedResult α) : Prop where
  /-- No product of the paginator overflows, and no page is before the first. -/
  window : ∀ page,
    1 ≤ (Pagination.fromRaw page perPage).page ∧
    (Pagination.fromRaw page perPage).perPage *
      (Pagination.fromRaw page perPage).page < 2 ^ 64 ∧
    pageOffset (Pagination.fromRaw page perPage) =
      (Pagination.fromRaw page perPage).perPage *
        ((Pagination.fromRaw page perPage).page - 1)
  /-- The numbers of every page tell the same. -/
  totals : ∀ page,
    (pages page).perPage = (pages none).perPage ∧
    (pages page).totalItems = (pages none).totalItems ∧
    (pages page).totalPages = (pages none).totalPages
  rounded : (pages none).totalPages =
    ((pages none).totalItems + (pages none).perPage - 1) /
      (pages none).perPage
  /-- The pages have every row once, in the order of the keys. -/
  ordered : (((List.range (pages none).totalPages).flatMap fun n =>
    (pages (some (n + 1))).items).map keyOf).Pairwise (· < ·)
  complete : ∀ record,
    record ∈ ((List.range (pages none).totalPages).flatMap fun n =>
      (pages (some (n + 1))).items) ↔ member record
  counted : ((List.range (pages none).totalPages).flatMap fun n =>
    (pages (some (n + 1))).items).length = (pages none).totalItems
  full : ∀ page, 1 ≤ page → page < (pages none).totalPages →
    (pages (some page)).items.length = (pages none).perPage
  last : 0 < (pages none).totalPages →
    1 ≤ (pages (some (pages none).totalPages)).items.length ∧
    (pages (some (pages none).totalPages)).items.length ≤
      (pages none).perPage
  beyond : ∀ page, (pages none).totalPages < page →
    (pages (some page)).items = []

omit [DecidableEq Column] [Fintype Column] in
theorem paged_authorised (perPage : Option ℕ) :
    Paged mounted.keyOf
      (fun record => ∃ row ∈ store.table.rows, row.values = record ∧
        Allowed store.users.view user.id mounted.readPolicy
          mounted.ownerColumn record ∧
        (filterCondition mounted.toResource filter).holds record = true)
      perPage fun page => pageOf
        ((authorised mounted.toResource store user filter).map
          StoredRow.values)
        (Pagination.fromRaw page perPage) := by
  have few : ((authorised mounted.toResource store user filter).map
      StoredRow.values).length ≤ 2 ^ 32 := by
    rw [List.length_map]
    exact authorised_length_le
  have keys : (((authorised mounted.toResource store user filter).map
      StoredRow.values).map mounted.keyOf).Pairwise (· < ·) := by
    rw [List.map_map]
    exact store.table.sorted _
  have members : ∀ record, record ∈ (authorised mounted.toResource store user
      filter).map StoredRow.values ↔ ∃ row ∈ store.table.rows,
        row.values = record ∧
        Allowed store.users.view user.id mounted.readPolicy
          mounted.ownerColumn record ∧
        (filterCondition mounted.toResource filter).holds record = true := by
    intro record
    rw [List.mem_map]
    constructor
    · rintro ⟨row, found, rfl⟩
      obtain ⟨stored, allowed, sought⟩ := mem_authorised.mp found
      exact ⟨row, stored, rfl, allowed, sought⟩
    · rintro ⟨row, stored, rfl, allowed, sought⟩
      exact ⟨row, mem_authorised.mpr ⟨stored, allowed, sought⟩, rfl⟩
  generalize (authorised mounted.toResource store user filter).map
    StoredRow.values = rows at few keys members
  have positive := (perPage_bounds none perPage).1
  have whole : ((List.range (pageOf rows (Pagination.fromRaw none
      perPage)).totalPages).flatMap fun n =>
        (pageOf rows (Pagination.fromRaw (some (n + 1)) perPage)).items) =
      rows := pages_all rows few perPage
  have number : (pageOf rows (Pagination.fromRaw none perPage)).totalPages =
    pagesNumber rows.length (Pagination.fromRaw none perPage).perPage := rfl
  have small : pagesNumber rows.length
      (Pagination.fromRaw none perPage).perPage < maxPage := by
    apply Nat.lt_of_le_of_lt (pagesNumber_le rows.length positive)
    apply Nat.lt_of_le_of_lt few
    decide
  have clamped : ∀ page, 1 ≤ page →
      (Pagination.fromRaw (some page) perPage).page = min page maxPage := by
    intro page first
    simp only [Pagination.fromRaw, clamp, Option.getD_some]
    have some_ : 1 ≤ maxPage := by decide
    omega
  have lengths : ∀ page, 1 ≤ page →
      (pageOf rows (Pagination.fromRaw (some page) perPage)).items.length =
        min (Pagination.fromRaw none perPage).perPage (rows.length -
          (Pagination.fromRaw none perPage).perPage *
            (min page maxPage - 1)) := by
    intro page first
    rw [length_pageOf, clamped page first]
    rfl
  refine ⟨fun page => ⟨(page_bounds page perPage).1, window_lt page perPage,
    pageOffset_fromRaw page perPage⟩, fun page => ⟨rfl, rfl, rfl⟩,
    pagesNumber_eq rows.length positive, ?_, ?_, ?_, ?_, ?_, ?_⟩
  · rw [whole]
    exact keys
  · rw [whole]
    exact members
  · rw [whole]
    rfl
  · intro page first before
    rw [number] at before
    have inside : min page maxPage = page := by omega
    have more := mul_pagesNumber_lt positive before
    have split : (Pagination.fromRaw none perPage).perPage * (page - 1) +
        (Pagination.fromRaw none perPage).perPage =
          (Pagination.fromRaw none perPage).perPage * page := by
      rw [← Nat.mul_succ, Nat.succ_eq_add_one, Nat.sub_add_cancel first]
    rw [lengths page first, inside]
    show _ = (Pagination.fromRaw none perPage).perPage
    omega
  · intro some_
    rw [number] at some_ ⊢
    have inside : min (pagesNumber rows.length
        (Pagination.fromRaw none perPage).perPage) maxPage =
      pagesNumber rows.length (Pagination.fromRaw none perPage).perPage := by
      omega
    have left := mul_pagesNumber_lt positive (Nat.sub_lt some_ Nat.one_pos)
    rw [lengths _ some_, inside]
    refine ⟨?_, min_le_left _ _⟩
    omega
  · intro page after
    rw [number] at after
    apply List.length_eq_zero_iff.mp
    rw [lengths page (by omega)]
    have covers := pagesNumber_covers rows.length positive
    have further : (Pagination.fromRaw none perPage).perPage *
        pagesNumber rows.length (Pagination.fromRaw none perPage).perPage ≤
          (Pagination.fromRaw none perPage).perPage *
            (min page maxPage - 1) := by
      apply Nat.mul_le_mul_left
      omega
    omega

/-- A list that is answered is one of the pages of its caller; and from then
on, while the tables stay, the caller is answered these pages, whatever the
raw numbers.  A database that is assumed here serves every `LIMIT` and `OFFSET`
that a `u64` can be; those that bind them as `i64` refuse the larger ones, a
failure like any other. -/
theorem list_windows (mounted : Mounted Column) (store : Store mounted.toSchema)
    (settled : Settled store.users) (principal : AuthPrincipal)
    (page perPage : Option ℕ) (filter : Option String)
    (conditions : env → Conditions Column) (envs : ℕ → env)
    (first : PagedResult (Model Column)) (after : Store mounted.toSchema)
    (answered : Script.run (fun e => exec (conditions e)) envs
      (list mounted.toResource principal page perPage filter) store =
        (.ok first, after)) :
    ∃ (user : UserRow) (pages : Option ℕ → PagedResult (Model Column)),
      after.table = store.table ∧ user.subject = principal.subject ∧
      first = pages page ∧
      (∀ page (envs : ℕ → Calm Column), answer envs
        (list mounted.toResource principal page perPage filter) after =
          .ok (pages page)) ∧
      (∀ page (envs : ℕ → Conditions Column) result later, Script.run exec envs
          (list mounted.toResource principal page perPage filter) after =
            (.ok result, later) →
        result = pages page ∧ later = after) ∧
      Paged mounted.keyOf
        (fun record => ∃ row ∈ store.table.rows, row.values = record ∧
          Allowed after.users.view user.id mounted.readPolicy
            mounted.ownerColumn record ∧
          (filterCondition mounted.toResource filter).holds record = true)
        perPage pages := by
  have ends := Script.Meets.run (fun _ => rfl) envs
    (meets_list conditions mounted principal page perPage filter settled)
  rw [answered] at ends
  obtain ⟨user, caller, table, accepted, same⟩ := ends
  refine ⟨user, fun page => pageOf
    ((authorised mounted.toResource after user filter).map StoredRow.values)
    (Pagination.fromRaw page perPage), table, caller.subject, same, ?_, ?_, ?_⟩
  · intro page envs
    have ends := (Answers.run envs
      (answers_windows calm page perPage filter caller)).2
    cases result : answer envs (list mounted.toResource principal page perPage
        filter) after with
    | ok value =>
        rw [result] at ends
        rw [ends.2]
    | error error =>
        rw [result] at ends
        exact (accepted ends.2).elim
  · intro page envs result later ran
    have ends := Script.Meets.run (fun _ => rfl) envs
      (answers_windows id page perPage filter caller)
    have ran' : Script.run (fun e => exec (id e)) envs
        (list mounted.toResource principal page perPage filter) after =
          (.ok result, later) := ran
    rw [ran'] at ends
    exact ⟨ends.2.2, ends.1⟩
  · rw [← table]
    exact paged_authorised perPage

end Lists

theorem caller_alice :
    Caller noteStore.users aliceToken ⟨7, "alice", none, none, 0⟩ where
  subjects := by decide
  groups := by decide
  closed := rfl
  listed := by decide
  subject := rfl

/-- The notes that are titled `plan`, for a caller who reads their own. -/
theorem list_windows_on_notes :
    ∃ pages : Option ℕ → PagedResult (Model NoteColumn),
      (∀ envs, answer envs (list notes.toResource aliceToken none (some 1)
        (some "plan")) noteStore = .ok (pages none)) ∧
      (pages none).totalPages = (pages none).totalItems ∧
      ∀ page, (pages none).totalPages < page →
        (pages (some page)).items = [] := by
  have ends := Answers.run calmly
    (answers_windows calm none (some 1) (some "plan") caller_alice)
  cases result : answer calmly (list notes.toResource aliceToken none (some 1)
      (some "plan")) noteStore with
  | error error =>
      rw [result] at ends
      obtain ⟨_, _, _, refused⟩ := ends
      simp [notes] at refused
  | ok first =>
      obtain ⟨user, pages, _, _, _, answered, _, paged⟩ := list_windows notes
        noteStore caller_alice.toSettled aliceToken none (some 1) (some "plan")
        calm calmly first noteStore (Prod.ext result ends.1)
      have one : (pages none).perPage = 1 := by
        have same := answered none calmly
        rw [result] at same
        rw [result] at ends
        rw [← Except.ok.inj same, ends.2.2]
        rfl
      have rounded := paged.rounded
      rw [one, Nat.add_sub_cancel, Nat.div_one] at rounded
      exact ⟨pages, answered none, rounded, paged.beyond⟩

end MiryadCore.Rest
