import MiryadCore.Rest.Core
import MiryadCore.Users.Access

/-!
# What the access rules answer

`Allowed` says which records a policy gives to a user, and `Denied` which
users it refuses without any record.  The rules agree with both.
-/

namespace MiryadCore.Rest

open Users (DbErr UserRow Faulty)

section Meaning

variable {Column : Type} {db : Users.Database} {user : ℤ}
  {policy : AccessPolicy} {ownerColumn : Option Column}

/-- The policy gives the record to the user. -/
def Allowed (db : Users.Database) (user : ℤ) (policy : AccessPolicy)
    (ownerColumn : Option Column) (record : Model Column) : Prop :=
  policy = .publicAccess ∨ db.MemberOf user Users.adminGroupName ∨
    (∃ name, policy = .group name ∧ db.MemberOf user name) ∨
    policy = .ownerOnly ∧
      ∃ column, ownerColumn = some column ∧ record column = .ofId user

/-- The policy refuses the user whatever the record. -/
def Denied (db : Users.Database) (user : ℤ) (policy : AccessPolicy) : Prop :=
  ¬ db.MemberOf user Users.adminGroupName ∧
    (policy = .adminOnly ∨
      ∃ name, policy = .group name ∧ ¬ db.MemberOf user name)

theorem Denied.not_allowed {record : Model Column}
    (denied : Denied db user policy) :
    ¬ Allowed db user policy ownerColumn record := by
  obtain ⟨notAdmin, refused⟩ := denied
  intro allowed
  rcases refused with rfl | ⟨name, rfl, notMember⟩
  · simp [Allowed, notAdmin] at allowed
  · simp [Allowed, notAdmin, notMember] at allowed

/-- The user may create records under the policy. -/
def MayCreate (db : Users.Database) (user : ℤ) (policy : AccessPolicy)
    (ownerColumn : Option Column) : Prop :=
  policy = .publicAccess ∨ db.MemberOf user Users.adminGroupName ∨
    (∃ name, policy = .group name ∧ db.MemberOf user name) ∨
    policy = .ownerOnly ∧ ownerColumn.isSome = true

end Meaning

section Rules

variable {Column : Type} {env α : Type} {conditions : env → Users.Conditions}
  {s : Users.Session} {user : UserRow} {policy : AccessPolicy}

theorem reads_staticVerdict_any :
    Users.Reads conditions (staticVerdict policy user) s (fun _ => True) := by
  unfold staticVerdict
  split
  · exact Users.Reads.pure trivial
  apply Users.Reads.bind (Users.reads_isMember_any user.id _)
  intro admin _
  split
  · exact Users.Reads.pure trivial
  cases policy with
  | publicAccess => exact Users.Reads.pure trivial
  | adminOnly => exact Users.Reads.pure trivial
  | ownerOnly => exact Users.Reads.pure trivial
  | group name =>
      apply Users.Reads.bind (Users.reads_isMember_any user.id name)
      intro member _
      exact Users.Reads.pure trivial

theorem reads_evaluate_any {ownerColumn : Option Column}
    {record : Model Column} :
    Users.Reads conditions (evaluate policy ownerColumn user record) s
      (fun _ => True) := by
  apply Users.Reads.bind reads_staticVerdict_any
  intro verdict _
  cases verdict with
  | some verdict => exact Users.Reads.pure trivial
  | none =>
      cases ownerColumn with
      | none => exact Users.Reads.pure trivial
      | some column => exact Users.Reads.pure trivial

theorem reads_canCreate_any {resource : Resource Column} :
    Users.Reads conditions (canCreate resource user) s (fun _ => True) := by
  unfold canCreate
  split
  · exact Users.Reads.pure trivial
  · split
    · exact Users.Reads.pure trivial
    · exact Users.reads_isMember_any user.id _
  · exact Users.reads_isMember_any user.id _
  · apply Users.Reads.bind (Users.reads_isMember_any user.id _)
    intro admin _
    split
    · exact Users.Reads.pure trivial
    · exact Users.reads_isMember_any user.id _

variable (distinct : (s.view.groups.map Users.GroupRow.name).Nodup)
include distinct

variable (Column) in
theorem reads_staticVerdict :
    Users.Reads conditions (staticVerdict policy user) s fun verdict =>
      match verdict with
      | some true =>
          ∀ (ownerColumn : Option Column) (record : Model Column),
            Allowed s.view user.id policy ownerColumn record
      | some false => Denied s.view user.id policy
      | none => policy = .ownerOnly ∧
          ¬ s.view.MemberOf user.id Users.adminGroupName := by
  unfold staticVerdict
  by_cases isPublic : policy = .publicAccess
  · rw [if_pos isPublic]
    apply Users.Reads.pure
    exact fun _ _ => Or.inl isPublic
  rw [if_neg isPublic]
  apply Users.Reads.bind (Users.reads_isAdmin distinct user.id)
  intro admin answer
  cases admin with
  | true =>
      apply Users.Reads.pure
      exact fun _ _ => Or.inr (Or.inl (answer.mp rfl))
  | false =>
      have notAdmin : ¬ s.view.MemberOf user.id Users.adminGroupName := by
        intro member
        exact absurd (answer.mpr member) (by simp)
      cases policy with
      | publicAccess => exact (isPublic rfl).elim
      | adminOnly =>
          apply Users.Reads.pure
          exact ⟨notAdmin, Or.inl rfl⟩
      | ownerOnly =>
          apply Users.Reads.pure
          exact ⟨rfl, notAdmin⟩
      | group name =>
          apply Users.Reads.bind (Users.reads_isMember distinct user.id name)
          intro member answer
          apply Users.Reads.pure
          cases member with
          | true =>
              exact fun _ _ =>
                Or.inr (Or.inr (Or.inl ⟨name, rfl, answer.mp rfl⟩))
          | false =>
              refine ⟨notAdmin, Or.inr ⟨name, rfl, ?_⟩⟩
              intro member
              exact absurd (answer.mpr member) (by simp)

theorem reads_evaluate {ownerColumn : Option Column} {record : Model Column} :
    Users.Reads conditions (evaluate policy ownerColumn user record) s
      fun answer => answer = true ↔
        Allowed s.view user.id policy ownerColumn record := by
  apply Users.Reads.bind (reads_staticVerdict Column distinct)
  intro verdict meaning
  cases verdict with
  | some verdict =>
      apply Users.Reads.pure
      cases verdict with
      | true => exact ⟨fun _ => meaning ownerColumn record, fun _ => rfl⟩
      | false =>
          simp only [Bool.false_eq_true, false_iff]
          exact meaning.not_allowed
  | none =>
      obtain ⟨rfl, notAdmin⟩ := meaning
      cases ownerColumn with
      | none =>
          apply Users.Reads.pure
          simp [Allowed, notAdmin]
      | some column =>
          apply Users.Reads.pure
          simp [Allowed, notAdmin]

theorem reads_canCreate {resource : Resource Column} :
    Users.Reads conditions (canCreate resource user) s fun answer =>
      answer = true ↔ MayCreate s.view user.id resource.writePolicy
        resource.ownerColumn := by
  have admin : Users.Reads conditions (Users.isAdmin user.id) s _ :=
    Users.reads_isAdmin distinct user.id
  unfold canCreate MayCreate
  cases declared : resource.writePolicy with
  | publicAccess =>
      apply Users.Reads.pure
      simp
  | ownerOnly =>
      dsimp only
      split
      · rename_i owned
        apply Users.Reads.pure
        simp [owned]
      · rename_i unowned
        apply admin.mono
        intro answer meaning
        simp [meaning, unowned]
  | adminOnly =>
      apply admin.mono
      intro answer meaning
      simp [meaning]
  | group name =>
      apply Users.Reads.bind admin
      intro answer meaning
      cases answer with
      | true =>
          apply Users.Reads.pure
          simp [← meaning]
      | false =>
          apply (Users.reads_isMember distinct user.id name).mono
          intro answer member
          simp [member, ← meaning]

theorem reads_listAccess {resource : Resource Column} :
    Users.Reads conditions (listAccess resource user) s fun access =>
      match access with
      | .unrestricted => ∀ record : Model Column,
          Allowed s.view user.id resource.readPolicy resource.ownerColumn
            record
      | .filterByOwner condition =>
          resource.readPolicy = .ownerOnly ∧
            ¬ s.view.MemberOf user.id Users.adminGroupName ∧
            ∃ column, resource.ownerColumn = some column ∧
              condition = [(column, .ofId user.id)]
      | .forbidden => Denied s.view user.id resource.readPolicy ∨
          resource.readPolicy = .ownerOnly ∧ resource.ownerColumn = none := by
  unfold listAccess
  by_cases isPublic : resource.readPolicy = .publicAccess
  · rw [if_pos isPublic]
    apply Users.Reads.pure
    exact fun _ => Or.inl isPublic
  rw [if_neg isPublic]
  apply Users.Reads.bind (Users.reads_isAdmin distinct user.id)
  intro admin answer
  cases admin with
  | true =>
      apply Users.Reads.pure
      exact fun _ => Or.inr (Or.inl (answer.mp rfl))
  | false =>
      have notAdmin : ¬ s.view.MemberOf user.id Users.adminGroupName := by
        intro member
        exact absurd (answer.mpr member) (by simp)
      cases declared : resource.readPolicy with
      | publicAccess => exact (isPublic declared).elim
      | adminOnly =>
          apply Users.Reads.pure
          exact Or.inl ⟨notAdmin, Or.inl rfl⟩
      | ownerOnly =>
          cases owner : resource.ownerColumn with
          | none =>
              apply Users.Reads.pure
              exact Or.inr ⟨rfl, rfl⟩
          | some column =>
              apply Users.Reads.pure
              exact ⟨rfl, notAdmin, column, rfl, rfl⟩
      | group name =>
          apply Users.Reads.bind (Users.reads_isMember distinct user.id name)
          intro member answer
          cases member with
          | true =>
              apply Users.Reads.pure
              exact fun _ =>
                Or.inr (Or.inr (Or.inl ⟨name, rfl, answer.mp rfl⟩))
          | false =>
              apply Users.Reads.pure
              refine Or.inl ⟨notAdmin, Or.inr ⟨name, rfl, ?_⟩⟩
              intro member
              exact absurd (answer.mpr member) (by simp)

end Rules

section Alone

variable {Column : Type} [DecidableEq Column] [Fintype Column]
  {schema : Schema Column} {env α β : Type}
  {conditions : env → Conditions Column} {store : Store schema}

/-- The conditions of the statements on users. -/
def userConditions (conditions : env → Conditions Column) (e : env) :
    Users.Conditions :=
  (conditions e).toConditions

/-- The failures that the environment may cause. -/
def Failure (conditions : env → Conditions Column) (error : RestError) : Prop :=
  ∃ cause, error = .database cause ∧
    Faulty (userConditions conditions) cause

omit [DecidableEq Column] [Fintype Column] in
theorem not_failure (faultless : ∀ e, (conditions e).fault = none)
    (error : RestError) : ¬ Failure conditions error := by
  intro failure
  obtain ⟨cause, _, e, fault⟩ := failure
  rw [userConditions, faultless e] at fault
  cases fault

theorem exec_error {e : Conditions Column} {asked : Request Column}
    {error : DbErr} {after : Store schema}
    (refused : exec e store asked = (.error error, after)) :
    after = store := by
  unfold exec at refused
  cases fault : e.fault with
  | some _ =>
      simp only [fault, Prod.mk.injEq] at refused
      exact refused.2.symm
  | none =>
      simp only [fault] at refused
      cases result : store.perform e asked with
      | error _ =>
          simp only [result, Prod.mk.injEq] at refused
          exact refused.2.symm
      | ok _ => simp [result] at refused

theorem exec_ok {e : Conditions Column} {asked : Request Column}
    {reply : asked.Reply} {after : Store schema}
    (replied : exec e store asked = (.ok reply, after)) :
    store.perform e asked = .ok (reply, after) := by
  unfold exec at replied
  cases fault : e.fault with
  | some _ => simp [fault] at replied
  | none =>
      simp only [fault] at replied
      cases result : store.perform e asked with
      | error _ => simp [result] at replied
      | ok answer =>
          simp only [result, Prod.mk.injEq, Except.ok.injEq] at replied
          rw [← replied.1, ← replied.2]

/-- Code on users leaves the table as it is. -/
theorem meets_ofUsers {query : Users.Db α} {post : α → Users.Session → Prop}
    {err : DbErr → Users.Session → Prop}
    (meets : Query.Meets
      (fun e => Users.exec .left (userConditions conditions e)) Eq
      (fun _ _ => True) query post err store.users) :
    Query.Meets (fun e => exec (conditions e)) Eq (fun _ _ => True)
      (ofUsers query)
      (fun value s' => s'.table = store.table ∧ post value s'.users)
      (fun error s' => s'.table = store.table ∧
        ∃ cause, error = .database cause ∧ err cause s'.users) store := by
  apply Query.Meets.lift Store.users (fun s s' => s'.table = s.table)
    (userConditions conditions)
  case trans => exact fun first second => second.trans first
  case refl => exact fun _ => rfl
  case meets => exact meets
  case answers =>
    intro e s statement
    cases fault : (conditions e).fault with
    | some error =>
        simp [exec, Users.exec, userConditions, fault]
    | none =>
        cases performed : s.users.perform .left (conditions e).toConditions
            statement with
        | error error =>
            simp [exec, Users.exec, userConditions, fault, Store.perform,
              performed, Except.map]
        | ok answer =>
            simp [exec, Users.exec, userConditions, fault, Store.perform,
              performed, Except.map]

/-- What code on users does, alone. -/
theorem run_ofUsers (e : env) (query : Users.Db α) :
    (ofUsers query).run (fun e => exec (conditions e)) e store =
      ((query.run (fun e => Users.exec .left (userConditions conditions e)) e
          store.users).1.mapError RestError.database,
        { store with users :=
          (query.run (fun e => Users.exec .left (userConditions conditions e)) e
            store.users).2 }) := by
  apply Query.run_lift Store.users (fun store users => { store with users })
    (fun e : env => e)
  case part_put => exact fun _ _ => rfl
  case put_put => exact fun _ _ _ => rfl
  case put_part => exact fun _ => rfl
  case answers =>
    intro e s statement
    cases fault : (conditions e).fault with
    | some error => simp [exec, Users.exec, userConditions, fault]
    | none =>
        cases performed : s.users.perform .left (conditions e).toConditions
            statement with
        | error error =>
            simp [exec, Users.exec, userConditions, fault, Store.perform,
              performed, Except.map]
        | ok answer =>
            simp [exec, Users.exec, userConditions, fault, Store.perform,
              performed, Except.map]

/-- Code that runs alone, and has no effect when it fails. -/
abbrev Ends (conditions : env → Conditions Column) (query : Api Column α)
    (store : Store schema) (post : α → Store schema → Prop)
    (refusal : RestError → Prop) : Prop :=
  Query.Meets (fun e => exec (conditions e)) Eq (fun _ _ => True) query post
    (fun error s' => s' = store ∧
      (Failure conditions error ∨ refusal error)) store

/-- Code that runs alone, without effect on the store. -/
abbrev Answers (conditions : env → Conditions Column) (query : Api Column α)
    (store : Store schema) (post : α → Prop) (refusal : RestError → Prop) :
    Prop :=
  Ends conditions query store (fun value s' => s' = store ∧ post value) refusal

theorem Answers.pure {value : α} {post : α → Prop} {refusal : RestError → Prop}
    (holds : post value) :
    Answers conditions (pure value) store post refusal := by
  apply Query.Meets.pure
  intro s' same
  exact ⟨same.symm, holds⟩

theorem Answers.fail {error : RestError} {post : α → Prop}
    {refusal : RestError → Prop} (holds : refusal error) :
    Answers conditions (Query.fail error) store post refusal := by
  apply Query.Meets.fail
  intro s' same
  exact ⟨same.symm, Or.inr holds⟩

theorem Answers.mono {query : Api Column α} {post post' : α → Prop}
    {refusal refusal' : RestError → Prop}
    (answers : Answers conditions query store post refusal)
    (weaker : ∀ value, post value → post' value)
    (weakerRefusal : ∀ error, refusal error → refusal' error) :
    Answers conditions query store post' refusal' := by
  apply Query.Meets.mono answers
  · intro value s' after
    exact ⟨after.1, weaker value after.2⟩
  · intro error s' after
    exact ⟨after.1, after.2.imp_right (weakerRefusal error)⟩

theorem Answers.bind {query : Api Column α} {next : α → Api Column β}
    {middle : α → Prop} {post : β → Store schema → Prop}
    {refusal : RestError → Prop}
    (answers : Answers conditions query store middle refusal)
    (rest : ∀ value, middle value →
      Ends conditions (next value) store post refusal) :
    Ends conditions (query >>= next) store post refusal := by
  apply Query.Meets.bind fun _ => rfl
  apply Query.Meets.mono answers
  · intro value s' after
    obtain ⟨rfl, holds⟩ := after
    exact rest value holds
  · intro error s' after later same
    exact same ▸ after

theorem Answers.ofUsers {query : Users.Db α} {post : α → Prop}
    {refusal : RestError → Prop}
    (reads : Users.Reads (userConditions conditions) query store.users post) :
    Answers conditions (ofUsers query) store post refusal := by
  apply Query.Meets.mono (meets_ofUsers reads)
  · intro value s' after
    obtain ⟨table, users, holds⟩ := after
    cases s'
    cases store
    simp only at table users
    exact ⟨by rw [table, users], holds⟩
  · intro error s' after
    obtain ⟨table, cause, rfl, users, fault⟩ := after
    cases s'
    cases store
    simp only at table users
    exact ⟨by rw [table, users], Or.inl ⟨cause, rfl, fault⟩⟩

theorem Answers.request {asked : Request Column} {value : asked.Reply}
    {refusal : RestError → Prop}
    (reads : ∀ e, store.perform e asked = .ok (value, store)) :
    Answers conditions (request asked) store (fun answer => answer = value)
      refusal := by
  intro s' same e
  subst same
  refine ⟨trivial, ?_⟩
  cases fault : (conditions e).fault with
  | some error =>
      simp only [exec, fault]
      intro later same
      exact ⟨same.symm, Or.inl ⟨error, rfl, e, fault⟩⟩
  | none =>
      simp only [exec, fault, reads]
      intro later same
      exact ⟨same.symm, rfl⟩

/-- The row of an operation on an id is the one that is stored. -/
theorem answers_authorized_any {resource : Resource Column}
    {store : Store resource.toSchema} {policy : AccessPolicy}
    {user : UserRow} {id : ℤ} :
    Answers conditions (authorized resource policy user id) store
      (fun record => (store.table.find id).map StoredRow.values = some record)
      (fun _ => True) := by
  apply Answers.bind (Answers.ofUsers reads_staticVerdict_any)
  intro verdict _
  cases verdict with
  | some verdict =>
      cases verdict with
      | false => exact Answers.fail trivial
      | true =>
          apply Answers.bind (Answers.request fun _ => rfl)
          intro found same
          cases found with
          | none => exact Answers.fail trivial
          | some record => exact Answers.pure same.symm
  | none =>
      apply Answers.bind (Answers.request fun _ => rfl)
      intro found same
      cases found with
      | none => exact Answers.fail trivial
      | some record =>
          apply Answers.bind (Answers.ofUsers reads_evaluate_any)
          intro answer _
          cases answer with
          | true => exact Answers.pure same.symm
          | false => exact Answers.fail trivial

theorem answers_ofHook (result : Except HookError α)
    {refusal : RestError → Prop}
    (refused : ∀ error, result = .error error →
      refusal (.application error)) :
    Answers conditions (ofHook result) store (fun value => result = .ok value)
      refusal := by
  cases result with
  | ok value => exact Answers.pure rfl
  | error error => exact Answers.fail (refused error rfl)

omit [Fintype Column] in
theorem setOwner_key {resource : Resource Column} {values : Model Column} {active : ActiveModel Column}
    {id : ℤ} (key : values resource.primaryKey = .ofId id) :
    setOwner resource values
      (Function.update active resource.primaryKey (.set (.ofId id)))
        resource.primaryKey = .set (.ofId id) := by
  cases declared : resource.ownerColumn with
  | none => simp [setOwner, declared]
  | some column =>
      by_cases same : resource.primaryKey = column
      · subst same
        simp [setOwner, declared, key]
      · simp [setOwner, declared, same]

/-- The caller is a user of the tables. -/
structure Known (users : Users.Session) (principal : AuthPrincipal)
    (user : UserRow) : Prop where
  consistent : users.view.Consistent
  listed : user ∈ users.view.users
  subject : principal.subject = user.subject

theorem Known.bind {principal : AuthPrincipal} {user : UserRow}
    {next : UserRow → Api Column α} {post : α → Store schema → Prop}
    {refusal : RestError → Prop} (known : Known store.users principal user)
    (rest : Ends conditions (next user) store post refusal) :
    Ends conditions
      (ofUsers (Users.resolveUser principal.subject principal.email) >>= next)
      store post refusal := by
  rw [known.subject]
  apply Answers.bind (Answers.ofUsers (Users.reads_resolveUser
    known.consistent.userSubjects known.listed principal.email))
  intro found same
  rw [same]
  exact rest

/-- The row of an operation on an id, or why there is none. -/
theorem answers_authorized {resource : Resource Column}
    {store : Store resource.toSchema} {policy : AccessPolicy}
    {user : UserRow} {id : ℤ}
    (distinct : (store.users.view.groups.map Users.GroupRow.name).Nodup) :
    Answers conditions (authorized resource policy user id) store
      (fun record => (store.table.find id).map StoredRow.values = some record ∧
        Allowed store.users.view user.id policy resource.ownerColumn record)
      (fun error =>
        error = .forbidden ∧ (Denied store.users.view user.id policy ∨
          ∃ record, (store.table.find id).map StoredRow.values = some record ∧
            ¬ Allowed store.users.view user.id policy resource.ownerColumn
              record) ∨
        error = .notFound ∧ ¬ Denied store.users.view user.id policy ∧
          store.table.find id = none) := by
  apply Answers.bind (Answers.ofUsers (reads_staticVerdict Column
    distinct))
  intro verdict meaning
  cases verdict with
  | some verdict =>
      cases verdict with
      | false => exact Answers.fail (Or.inl ⟨rfl, Or.inl meaning⟩)
      | true =>
          apply Answers.bind (Answers.request fun _ => rfl)
          intro found same
          subst same
          cases found : store.table.find id with
          | none =>
              apply Answers.fail
              refine Or.inr ⟨rfl, ?_, rfl⟩
              intro denied
              exact denied.not_allowed
                (meaning resource.ownerColumn fun _ => .int none)
          | some row =>
              apply Answers.pure
              exact ⟨rfl, meaning _ _⟩
  | none =>
      apply Answers.bind (Answers.request fun _ => rfl)
      intro found same
      subst same
      cases found : store.table.find id with
      | none =>
          apply Answers.fail
          refine Or.inr ⟨rfl, ?_, rfl⟩
          intro denied
          obtain ⟨_, refused⟩ := denied
          simp [meaning.1] at refused
      | some row =>
          apply Answers.bind (Answers.ofUsers (reads_evaluate distinct))
          intro answer allowed
          cases answer with
          | true =>
              apply Answers.pure
              exact ⟨rfl, allowed.mp rfl⟩
          | false =>
              apply Answers.fail
              refine Or.inl ⟨rfl, Or.inr ⟨row.values, rfl, ?_⟩⟩
              intro holds
              exact absurd (allowed.mpr holds) (by simp)

end Alone

section Calm

variable {Column : Type}

/-- The conditions of a statement that succeeds unless the tables refuse
it. -/
structure Calm (Column : Type) where
  now : ℤ
  gap : ℕ
  id : ℤ
  defaults : Model Column

def calm (e : Calm Column) : Conditions Column where
  fault := none
  now := e.now
  gap := e.gap
  id := e.id
  defaults := e.defaults

end Calm

end MiryadCore.Rest
