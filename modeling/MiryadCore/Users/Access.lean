import MiryadCore.Users.Membership
import Mathlib.Data.List.Nodup

/-!
# Reading users and memberships

What `resolveUser`, `isMember` and `isAdmin` do alone with the database.  The
conditions of a statement come from an environment `env`, so that the same
results hold of a larger service, and of one whose statements never fail.
-/

namespace MiryadCore.Users

/-- The groups in which a user is, by name. -/
def Database.MemberOf (db : Database) (user : ℤ) (name : String) : Prop :=
  ∃ row ∈ db.memberships, row.userId = user ∧
    ∃ group ∈ db.groups, group.name = name ∧ group.id = row.groupId

instance (db : Database) (user : ℤ) (name : String) :
    Decidable (db.MemberOf user name) :=
  inferInstanceAs (Decidable (∃ row ∈ db.memberships, row.userId = user ∧
    ∃ group ∈ db.groups, group.name = name ∧ group.id = row.groupId))

variable {env α : Type} {conditions : env → Conditions} {s : Session}
  {post : α → Session → Prop} {err : DbErr → Session → Prop}

/-- The failures that the environment may cause. -/
def Faulty (conditions : env → Conditions) (error : DbErr) : Prop :=
  ∃ e, (conditions e).fault = some error

/-- A script that runs alone, without effect on the session. -/
abbrev Reads (conditions : env → Conditions) (query : Db α) (s : Session)
    (post : α → Prop) : Prop :=
  Query.Meets (fun e => exec .left (conditions e)) Eq (fun _ _ => True) query
    (fun value s' => s' = s ∧ post value)
    (fun error s' => s' = s ∧ Faulty conditions error) s

theorem Reads.mono {query : Db α} {post post' : α → Prop}
    (reads : Reads conditions query s post)
    (weaker : ∀ value, post value → post' value) :
    Reads conditions query s post' := by
  apply Query.Meets.mono reads
  · intro value s' after
    exact ⟨after.1, weaker value after.2⟩
  · intro error s' after
    exact after

theorem Reads.pure {value : α} {post : α → Prop} (holds : post value) :
    Reads conditions (pure value) s post := by
  apply Query.Meets.pure
  intro s' same
  exact ⟨same.symm, holds⟩

theorem Reads.bind {β : Type} {query : Db α} {next : α → Db β}
    {middle : α → Prop} {post : β → Prop}
    (reads : Reads conditions query s middle)
    (rest : ∀ value, middle value → Reads conditions (next value) s post) :
    Reads conditions (query >>= next) s post := by
  apply Query.Meets.bind fun _ => rfl
  apply Query.Meets.mono reads
  · intro value s' after
    obtain ⟨rfl, holds⟩ := after
    exact rest value holds
  · intro error s' after later same
    exact same ▸ after

theorem Reads.run {query : Db α} {post : α → Prop}
    (faultless : ∀ e, (conditions e).fault = none)
    (reads : Reads conditions query s post) (e : env) :
    ∃ value, query.run (fun e => exec .left (conditions e)) e s =
      (.ok value, s) ∧ post value := by
  have final := Query.Meets.run_steady (fun _ => rfl) e reads
  cases result : query.run (fun e => exec .left (conditions e)) e s with
  | mk answer after =>
      rw [result] at final
      cases answer with
      | ok value =>
          obtain ⟨rfl, holds⟩ := final
          exact ⟨value, rfl, holds⟩
      | error error =>
          obtain ⟨_, e, fault⟩ := final
          rw [faultless e] at fault
          cases fault

/-- A statement that only reads. -/
theorem Reads.statement {request : Statement} {value : request.Reply}
    (reads : ∀ conditions, s.perform .left conditions request =
      .ok (value, s)) :
    Reads conditions (statement request) s (fun answer => answer = value) := by
  apply Query.Meets.request
  case keeps => exact fun _ _ _ => trivial
  case replied =>
    intro s' same e value after replied later same'
    subst same same'
    have performed := exec_ok replied
    rw [reads] at performed
    obtain ⟨rfl, rfl⟩ := Prod.mk.inj (Except.ok.inj performed)
    exact ⟨rfl, rfl⟩
  case refused =>
    intro s' same e error after refused later same'
    subst same same'
    refine ⟨exec_error refused, e, ?_⟩
    simp only [exec, reads] at refused
    cases fault : (conditions e).fault with
    | none => simp [fault] at refused
    | some cause =>
        simp only [fault, Prod.mk.injEq, Except.error.injEq] at refused
        rw [refused.1]

theorem reads_isMember_any (user : ℤ) (name : String) :
    Reads conditions (isMember user name) s (fun _ => True) := by
  apply Reads.bind (Reads.statement fun _ => rfl)
  intro found _
  cases found with
  | none => exact Reads.pure trivial
  | some group =>
      apply Reads.bind (Reads.statement fun _ => rfl)
      intro membership _
      exact Reads.pure trivial

/-- `is_member` answers for the tables it reads. -/
theorem reads_isMember (distinct : (s.view.groups.map GroupRow.name).Nodup)
    (user : ℤ) (name : String) :
    Reads conditions (isMember user name) s
      (fun answer => answer = true ↔ s.view.MemberOf user name) := by
  apply Reads.bind (Reads.statement fun _ => rfl)
  intro found same
  cases found with
  | none =>
      apply Reads.pure
      simp only [Bool.false_eq_true, false_iff]
      intro member
      obtain ⟨_, _, _, group, known, named, _⟩ := member
      have absent := List.find?_eq_none.mp same.symm group known
      simp [named] at absent
  | some group =>
      have known := List.mem_of_find?_eq_some same.symm
      have named := List.find?_some same.symm
      rw [decide_eq_true_eq] at named
      apply Reads.bind (Reads.statement fun _ => rfl)
      intro membership same
      apply Reads.pure
      rw [same, List.find?_isSome]
      constructor
      · intro present
        obtain ⟨row, member, both⟩ := present
        rw [decide_eq_true_eq] at both
        exact ⟨row, member, both.1, group, known, named, both.2.symm⟩
      · intro present
        obtain ⟨row, member, mine, other, visible, called, sameId⟩ := present
        have one := List.inj_on_of_nodup_map distinct known visible
          (named.trans called.symm)
        refine ⟨row, member, ?_⟩
        rw [decide_eq_true_eq, one]
        exact ⟨mine, sameId.symm⟩

theorem reads_isAdmin (distinct : (s.view.groups.map GroupRow.name).Nodup)
    (user : ℤ) :
    Reads conditions (isAdmin user) s
      (fun answer => answer = true ↔ s.view.MemberOf user adminGroupName) :=
  reads_isMember distinct user adminGroupName

theorem reads_resolveUser (distinct : (s.view.users.map UserRow.subject).Nodup)
    {user : UserRow} (known : user ∈ s.view.users) (email : Option String) :
    Reads conditions (resolveUser user.subject email) s
      (fun found => found = user) := by
  apply Reads.bind (Reads.statement fun _ => rfl)
  intro found same
  cases found with
  | none =>
      have absent := List.find?_eq_none.mp same.symm user known
      simp at absent
  | some existing =>
      apply Reads.pure
      have listed := List.mem_of_find?_eq_some same.symm
      have named := List.find?_some same.symm
      rw [decide_eq_true_eq] at named
      exact List.inj_on_of_nodup_map distinct listed known named

/-- Users are only added. -/
def Grown (s s' : Session) : Prop :=
  s.view.users ⊆ s'.view.users ∧ s'.pending = none

theorem insertUser_grown {conditions : Conditions} {subject : String}
    {email : Option String} {user : UserRow} {after : Session}
    (closed : s.pending = none)
    (inserted : s.insertUser conditions subject email = .ok (user, after)) :
    user.subject = subject ∧ user ∈ after.view.users ∧ Grown s after := by
  rw [Session.insertUser] at inserted
  cases drawn : nextval s.db.nextUser conditions.gap with
  | error error => simp [drawn, bind, Except.bind] at inserted
  | ok id =>
      simp only [drawn, bind, Except.bind] at inserted
      split at inserted
      · cases inserted
      · simp only [pure, Except.pure, Except.ok.injEq, Prod.mk.injEq,
          Session.pendingOrEmpty, closed, Option.getD_none, Session.write]
          at inserted
        obtain ⟨rfl, rfl⟩ := inserted
        refine ⟨rfl, ?_, ?_, rfl⟩
        · simp [Session.view, Session.pendingOrEmpty, Database.overlay,
            Pending.empty]
        · simp [Session.view, Session.pendingOrEmpty, closed,
            Database.overlay, Pending.empty]

/-- The user of a subject, who is created when unknown, and what holds of the
session as long as only this user is added. -/
theorem meets_resolveUser_of {inv : Session → Prop} {subject : String}
    {email : Option String} (holds : inv s)
    (inserts : ∀ {conditions user after},
      s.insertUser conditions subject email = .ok (user, after) →
      user.subject = subject ∧ user ∈ after.view.users ∧ inv after) :
    Query.Meets (fun e => exec .left (conditions e)) Eq (fun _ _ => True)
      (resolveUser subject email)
      (fun user s' =>
        user.subject = subject ∧ user ∈ s'.view.users ∧ inv s')
      (fun _ => inv) s := by
  have selected : ∀ user, (s.view.users.find? fun user =>
      user.subject = subject) = some user →
        user.subject = subject ∧ user ∈ s.view.users ∧ inv s := by
    intro user found
    have named := List.find?_some found
    rw [decide_eq_true_eq] at named
    exact ⟨named, List.mem_of_find?_eq_some found, holds⟩
  apply Query.Meets.bind fun _ => rfl
  apply Query.Meets.mono (Reads.statement fun _ => rfl)
  case weakerErr =>
    intro error s' after later same
    obtain ⟨rfl, _⟩ := after
    subst same
    exact holds
  intro found s' after
  obtain ⟨rfl, answer⟩ := after
  cases found with
  | some existing =>
      apply Query.Meets.pure
      intro later same
      subst same
      exact selected existing answer.symm
  | none =>
      apply Query.Meets.bind fun _ => rfl
      apply Query.Meets.attempt fun _ => rfl
      apply Query.Meets.request
      case keeps => exact fun _ _ _ => trivial
      case replied =>
        intro s1 same e user after replied later same' final same''
        subst same same' same''
        apply Query.Meets.pure
        intro later same
        subst same
        exact inserts (exec_ok replied)
      case refused =>
        intro s1 same1 e error after refused later same2 final same3
        subst same1 same2 same3
        obtain rfl := exec_error refused
        apply Query.Meets.bind fun _ => rfl
        apply Query.Meets.mono (Reads.statement fun _ => rfl)
        case weakerErr =>
          intro error s' after later same
          obtain ⟨rfl, _⟩ := after
          subst same
          exact holds
        intro found s' after
        obtain ⟨rfl, answer⟩ := after
        cases found with
        | some user =>
            apply Query.Meets.pure
            intro later same
            subst same
            exact selected user answer.symm
        | none =>
            apply Query.Meets.fail
            intro later same
            subst same
            exact holds

theorem meets_resolveUser (closed : s.pending = none) (subject : String)
    (email : Option String) :
    Query.Meets (fun e => exec .left (conditions e)) Eq (fun _ _ => True)
      (resolveUser subject email)
      (fun user s' =>
        user.subject = subject ∧ user ∈ s'.view.users ∧ Grown s s')
      (fun _ => Grown s) s :=
  meets_resolveUser_of ⟨List.Subset.refl _, closed⟩ (insertUser_grown closed)

end MiryadCore.Users
