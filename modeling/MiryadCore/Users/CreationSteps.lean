import MiryadCore.Users.Creation
import Mathlib.Data.List.Perm.Subperm

/-!
# What one statement does to the rows with a key

A statement that succeeds adds at most one row to those that its connection
sees, and no visible row had its key.  A statement that fails loses the rows of
its transaction.
-/

namespace MiryadCore.Users.Creation

variable {s after : Database × Connection} {moment : Moment}
  {request : Statement}

theorem keyedRows_append (users users' : List UserRow)
    (groups groups' : List GroupRow) :
    (keyedRows (users ++ users') (groups ++ groups')).Perm
      (keyedRows users groups ++ keyedRows users' groups') := by
  rw [keyedRows, List.map_append, List.map_append]
  have middle : (users'.map Row.user ++ groups.map Row.group).Perm
      (groups.map Row.group ++ users'.map Row.user) :=
    List.perm_append_comm
  have inner := (middle.append_right (groups'.map Row.group)).append_left
    (users.map Row.user)
  simpa only [keyedRows, List.append_assoc] using inner

theorem keyedRows_user (users : List UserRow) (groups : List GroupRow)
    (user : UserRow) :
    (keyedRows (users ++ [user]) groups).Perm
      (keyedRows users groups ++ [.user user]) := by
  simpa [keyedRows] using keyedRows_append users [user] groups []

theorem keyedRows_group (users : List UserRow) (groups : List GroupRow)
    (group : GroupRow) :
    (keyedRows users (groups ++ [group])).Perm
      (keyedRows users groups ++ [.group group]) := by
  simp [keyedRows]

/-- The rows that only a transaction sees. -/
def heldBy (pending : Option Pending) : List Row :=
  keyedRows (pending.getD .empty).users (pending.getD .empty).groups

/-- The rows that a statement of the call sees. -/
def visible (s : Database × Connection) : List Row :=
  stored s.1 ++ s.2.held

theorem stored_view (session : Session) :
    (stored session.view).Perm (stored session.db ++ heldBy session.pending) :=
  keyedRows_append _ _ _ _

theorem write_rows (session : Session) (pending : Pending) :
    (stored (session.write pending).db ++
        heldBy (session.write pending).pending).Perm
      (stored session.db ++ keyedRows pending.users pending.groups) ∧
    stored session.db ⊆ stored (session.write pending).db ∧
    (session.write pending).pending.isSome = session.pending.isSome := by
  cases inside : session.pending with
  | some _ =>
      simp only [Session.write, inside]
      exact ⟨.refl _, List.Subset.refl _, rfl⟩
  | none =>
      simp only [Session.write, inside]
      have same := keyedRows_append session.db.users pending.users
        session.db.groups pending.groups
      refine ⟨?_, ?_, trivial⟩
      · rw [show heldBy none = [] from rfl, List.append_nil]
        exact same
      · intro row member
        exact same.symm.subset (List.mem_append_left _ member)

/-- What a successful statement adds to the rows that its session sees. -/
def added : (request : Statement) → request.Reply → List Row
  | .insertUser _ _, user => [.user user]
  | .insertGroup _, group => [.group group]
  | _, _ => []

/-- A statement that succeeds. -/
structure Succeeds (session : Session) (request : Statement)
    (reply : request.Reply) (after : Session) : Prop where
  rows : ¬ (request = .begin ∨ request = .rollback) →
    (stored after.db ++ heldBy after.pending).Perm
      (stored session.db ++ heldBy session.pending ++ added request reply)
  bare : request = .begin ∨ request = .rollback →
    after.db = session.db ∧ heldBy after.pending = []
  opened : ¬ (request = .begin ∨ request = .rollback) → request ≠ .commit →
    after.pending.isSome = session.pending.isSome
  stays : stored session.db ⊆ stored after.db
  fresh : ∀ row ∈ added request reply, inserts request = some row.key ∧
    ∀ other ∈ stored session.db ++ heldBy session.pending,
      other.key ≠ row.key

section

variable {conditions : Conditions} {before session' : Session}

theorem succeeds_same {reply : request.Reply} (same : session'.db = before.db)
    (pending : session'.pending = before.pending)
    (ordinary : ¬ (request = .begin ∨ request = .rollback))
    (nothing : added request reply = []) :
    Succeeds before request reply session' where
  rows := by
    intro _
    rw [same, pending, nothing, List.append_nil]
  bare := fun bare => absurd bare ordinary
  opened := fun _ _ => congrArg Option.isSome pending
  stays := by
    rw [same]
    exact List.Subset.refl _
  fresh := by
    rw [nothing]
    intro row member
    cases member

/-- A write that adds no row with a key. -/
theorem succeeds_write {reply : request.Reply} {pending : Pending}
    (same : stored session'.db = stored before.db)
    (opened : session'.pending = before.pending)
    (users : pending.users = before.pendingOrEmpty.users)
    (groups : pending.groups = before.pendingOrEmpty.groups)
    (ordinary : ¬ (request = .begin ∨ request = .rollback))
    (nothing : added request reply = []) :
    Succeeds before request reply (session'.write pending) where
  rows := by
    intro _
    rw [nothing, List.append_nil, ← same]
    have rows := (write_rows session' pending).1
    rw [users, groups] at rows
    exact rows
  bare := fun bare => absurd bare ordinary
  opened := by
    intro _ _
    rw [← opened]
    exact (write_rows session' pending).2.2
  stays := by
    rw [← same]
    exact (write_rows session' pending).2.1
  fresh := by
    rw [nothing]
    intro row member
    cases member

theorem insertUser_succeeds {subject : String} {email : Option String}
    {user : UserRow}
    (inserted : before.insertUser conditions subject email =
      .ok (user, session')) :
    Succeeds before (.insertUser subject email) user session' := by
  rw [Session.insertUser] at inserted
  cases drawn : nextval before.db.nextUser conditions.gap with
  | error error => simp [drawn, bind, Except.bind] at inserted
  | ok id =>
      simp only [drawn, bind, Except.bind] at inserted
      split at inserted
      · cases inserted
      · rename_i absent
        cases inserted
        refine ⟨fun _ => ?_, by simp, fun _ _ => ?_, ?_, ?_⟩
        · apply (write_rows _ _).1.trans
          rw [List.append_assoc]
          apply List.Perm.append_left
          exact keyedRows_user _ _ _
        · exact (write_rows { before with
            db := { before.db with nextUser := id + 1 } } _).2.2
        · exact (write_rows { before with
            db := { before.db with nextUser := id + 1 } } _).2.1
        · intro row member
          rw [List.mem_singleton.mp member]
          refine ⟨rfl, fun other seen same => absent ?_⟩
          have seen := (stored_view before).symm.subset seen
          rcases List.mem_append.mp seen with users | groups
          · obtain ⟨user, member, rfl⟩ := List.mem_map.mp users
            exact List.any_eq_true.mpr
              ⟨user, member, decide_eq_true (Key.subject.inj same)⟩
          · obtain ⟨group, _, rfl⟩ := List.mem_map.mp groups
            cases same

theorem insertGroup_succeeds {name : String} {group : GroupRow}
    (inserted : before.insertGroup conditions name = .ok (group, session')) :
    Succeeds before (.insertGroup name) group session' := by
  rw [Session.insertGroup] at inserted
  cases drawn : nextval before.db.nextGroup conditions.gap with
  | error error => simp [drawn, bind, Except.bind] at inserted
  | ok id =>
      simp only [drawn, bind, Except.bind] at inserted
      split at inserted
      · cases inserted
      · rename_i absent
        cases inserted
        refine ⟨fun _ => ?_, by simp, fun _ _ => ?_, ?_, ?_⟩
        · apply (write_rows _ _).1.trans
          rw [List.append_assoc]
          apply List.Perm.append_left
          exact keyedRows_group _ _ _
        · exact (write_rows { before with
            db := { before.db with nextGroup := id + 1 } } _).2.2
        · exact (write_rows { before with
            db := { before.db with nextGroup := id + 1 } } _).2.1
        · intro row member
          rw [List.mem_singleton.mp member]
          refine ⟨rfl, fun other seen same => absent ?_⟩
          have seen := (stored_view before).symm.subset seen
          rcases List.mem_append.mp seen with users | groups
          · obtain ⟨user, _, rfl⟩ := List.mem_map.mp users
            cases same
          · obtain ⟨group, member, rfl⟩ := List.mem_map.mp groups
            exact List.any_eq_true.mpr
              ⟨group, member, decide_eq_true (Key.name.inj same)⟩

theorem insertMembership_succeeds {userId groupId : ℤ}
    (inserted : before.insertMembership conditions userId groupId =
      .ok session') :
    Succeeds before (.insertMembership userId groupId) () session' := by
  rw [Session.insertMembership] at inserted
  cases drawn : nextval before.db.nextMembership conditions.gap with
  | error error => simp [drawn, bind, Except.bind] at inserted
  | ok id =>
      simp only [drawn, bind, Except.bind, pure, Except.pure] at inserted
      split at inserted
      · cases inserted
        exact succeeds_same rfl rfl (by simp) rfl
      · split at inserted
        · cases inserted
        · split at inserted
          · cases inserted
          · cases inserted
            exact succeeds_write rfl rfl rfl rfl (by simp) rfl

theorem perform_succeeds {side : Side} {reply : request.Reply}
    (done : before.perform side conditions request = .ok (reply, session')) :
    Succeeds before request reply session' := by
  cases request with
  | begin =>
      cases done
      exact ⟨by simp, fun _ => ⟨rfl, rfl⟩, by simp, List.Subset.refl _, nofun⟩
  | rollback =>
      cases done
      exact ⟨by simp, fun _ => ⟨rfl, rfl⟩, by simp, List.Subset.refl _, nofun⟩
  | commit =>
      cases done
      have rows := stored_view before
      refine ⟨fun _ => ?_, by simp, by simp, ?_, nofun⟩
      · exact rows.append_right []
      · intro row member
        exact rows.symm.subset (List.mem_append_left _ member)
  | selectUser subject =>
      cases done
      exact succeeds_same rfl rfl (by simp) rfl
  | insertUser subject email => exact insertUser_succeeds done
  | selectGroup name =>
      cases done
      exact succeeds_same rfl rfl (by simp) rfl
  | insertGroup name => exact insertGroup_succeeds done
  | selectMemberships userId =>
      cases done
      exact succeeds_same rfl rfl (by simp) rfl
  | selectMembership userId groupId =>
      cases done
      exact succeeds_same rfl rfl (by simp) rfl
  | deleteMembership id =>
      cases done
      exact succeeds_write rfl rfl rfl rfl (by simp) rfl
  | insertMembership userId groupId =>
      simp only [Session.perform] at done
      cases inserted : before.insertMembership conditions userId groupId with
      | error error => simp [inserted, Except.map] at done
      | ok session =>
          rw [inserted] at done
          cases done
          exact insertMembership_succeeds inserted

/-- The rows that a lookup finds are there. -/
theorem noted_visible {side : Side} {reply : request.Reply}
    (done : before.perform side conditions request = .ok (reply, session')) :
    noted request reply ⊆
      stored session'.db ++ heldBy session'.pending := by
  intro row member
  cases request with
  | selectUser subject =>
      cases done
      obtain ⟨user, found, rfl⟩ := List.mem_map.mp member
      have listed := List.mem_of_find?_eq_some (Option.mem_toList.mp found)
      exact (stored_view before).subset
        (List.mem_append_left _ (List.mem_map_of_mem listed))
  | selectGroup name =>
      cases done
      obtain ⟨group, found, rfl⟩ := List.mem_map.mp member
      have listed := List.mem_of_find?_eq_some (Option.mem_toList.mp found)
      exact (stored_view before).subset
        (List.mem_append_right _ (List.mem_map_of_mem listed))
  | insertUser subject email =>
      have rows := (perform_succeeds done).rows (by simp)
      exact rows.symm.subset (List.mem_append_right _ member)
  | insertGroup name =>
      have rows := (perform_succeeds done).rows (by simp)
      exact rows.symm.subset (List.mem_append_right _ member)
  | _ => cases member

theorem nextval_error {next : ℤ} {gap : ℕ} {error : DbErr}
    (exhausted : nextval next gap = .error error) (inside : Bool) :
    (Failure.refused inside request error).independent = true := by
  rw [nextval] at exhausted
  split at exhausted
  · cases exhausted
    rfl
  · cases exhausted

/-- A statement is forbidden because its row is there, or for a reason of its
own. -/
theorem perform_error {side : Side} {error : DbErr} (inside : Bool)
    (refused : before.perform side conditions request = .error error) :
    (∃ constraint, error = .uniqueViolation constraint ∧
      ∃ key, inserts request = some key ∧
        ∃ row ∈ stored before.db ++ heldBy before.pending, row.key = key) ∨
    (Failure.refused inside request error).independent = true := by
  cases request with
  | insertUser subject email =>
      simp only [Session.perform, Session.insertUser] at refused
      cases drawn : nextval before.db.nextUser conditions.gap with
      | error exhausted =>
          simp only [drawn, bind, Except.bind] at refused
          cases refused
          exact Or.inr (nextval_error drawn inside)
      | ok id =>
          simp only [drawn, bind, Except.bind] at refused
          split at refused
          · rename_i there
            cases refused
            obtain ⟨user, listed, same⟩ := List.any_eq_true.mp there
            refine Or.inl ⟨_, rfl, _, rfl, .user user, ?_, ?_⟩
            · exact (stored_view before).subset
                (List.mem_append_left _ (List.mem_map_of_mem listed))
            · exact congrArg Key.subject (of_decide_eq_true same)
          · cases refused
  | insertGroup name =>
      simp only [Session.perform, Session.insertGroup] at refused
      cases drawn : nextval before.db.nextGroup conditions.gap with
      | error exhausted =>
          simp only [drawn, bind, Except.bind] at refused
          cases refused
          exact Or.inr (nextval_error drawn inside)
      | ok id =>
          simp only [drawn, bind, Except.bind] at refused
          split at refused
          · rename_i there
            cases refused
            obtain ⟨group, listed, same⟩ := List.any_eq_true.mp there
            refine Or.inl ⟨_, rfl, _, rfl, .group group, ?_, ?_⟩
            · exact (stored_view before).subset
                (List.mem_append_right _ (List.mem_map_of_mem listed))
            · exact congrArg Key.name (of_decide_eq_true same)
          · cases refused
  | insertMembership userId groupId =>
      apply Or.inr
      simp only [Session.perform, Session.insertMembership] at refused
      cases drawn : nextval before.db.nextMembership conditions.gap with
      | error exhausted =>
          simp only [drawn, bind, Except.bind, Except.map] at refused
          cases refused
          exact nextval_error drawn inside
      | ok id =>
          simp only [drawn, bind, Except.bind, pure, Except.pure] at refused
          split at refused
          · cases refused
          · split at refused
            · cases refused
              rfl
            · split at refused
              · cases refused
                rfl
              · cases refused
  | _ => cases refused

end

theorem exec_ok {reply : request.Reply}
    (replied : exec moment s request = (.ok reply, after)) :
    moment.conditions.fault = none ∧
      (s.2.aborted = false ∨ request = .commit ∨ request = .rollback) ∧
      ∃ session', (session s).perform .left moment.conditions request =
          .ok (reply, session') ∧
        after = (session'.db, { s.2 with
          pending := session'.pending
          aborted := false
          told := s.2.told ++ noted request reply }) := by
  rw [exec] at replied
  cases fault : moment.conditions.fault with
  | some error => simp [fault] at replied
  | none =>
      simp only [fault] at replied
      split at replied
      · simp at replied
      · rename_i goes
        cases done : (session s).perform .left moment.conditions request with
        | error error => simp [done] at replied
        | ok answer =>
            simp only [done, Prod.mk.injEq, Except.ok.injEq] at replied
            obtain ⟨rfl, rfl⟩ := replied
            refine ⟨rfl, ?_, answer.2, rfl, rfl⟩
            by_cases aborted : s.2.aborted = true
            · right
              by_contra neither
              exact goes ⟨aborted, not_or.mp neither⟩
            · exact Or.inl (Bool.eq_false_iff.mpr aborted)

/-- Why a statement fails. -/
inductive Fails (moment : Moment) (s : Database × Connection)
    (request : Statement) : Failure → Prop where
  | fault {error : DbErr} (given : moment.conditions.fault = some error)
      (free : moment.rival = false) : Fails moment s request (.fault error)
  | waiting {error : DbErr} (given : moment.conditions.fault = some error)
      (rival : moment.rival = true) :
      Fails moment s request (.waiting request error)
  | aborted (aborted : s.2.aborted = true) : Fails moment s request .aborted
  | refused {error : DbErr} (tried : moment.conditions.fault = none)
      (refused : (session s).perform .left moment.conditions request =
        .error error) :
      Fails moment s request (.refused s.2.pending.isSome request error)

theorem exec_error {error : DbErr}
    (failed : exec moment s request = (.error error, after)) :
    ∃ failure, Fails moment s request failure ∧
      after = (s.1, s.2.fail request failure) := by
  rw [exec] at failed
  cases fault : moment.conditions.fault with
  | some error =>
      simp only [fault, Prod.mk.injEq] at failed
      refine ⟨_, ?_, failed.2.symm⟩
      cases rival : moment.rival with
      | true => exact .waiting fault rival
      | false => exact .fault fault rival
  | none =>
      simp only [fault] at failed
      split at failed
      · rename_i aborted
        simp only [Prod.mk.injEq] at failed
        exact ⟨_, .aborted aborted.1, failed.2.symm⟩
      · cases done : (session s).perform .left moment.conditions request with
        | error error =>
            simp only [done, Prod.mk.injEq] at failed
            exact ⟨_, .refused fault done, failed.2.symm⟩
        | ok answer => simp [done] at failed

end MiryadCore.Users.Creation
