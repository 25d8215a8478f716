import MiryadCore.Users.Membership
import Mathlib.Data.List.Nodup
import Mathlib.Data.List.TakeWhile
import Mathlib.Tactic.Linarith

/-!
# One reconciliation beside other connections

The results here follow one call of `syncGroupMemberships` from its first
statement to its commit, while other connections may commit in between.
`Beside` says what these may do; a call that runs alone is a special case.
-/

namespace MiryadCore.Users

/-- The sequences only advance. -/
structure Database.Ahead (db db' : Database) : Prop where
  users : db.nextUser ≤ db'.nextUser
  groups : db.nextGroup ≤ db'.nextGroup
  memberships : db.nextMembership ≤ db'.nextMembership

theorem Database.Ahead.refl (db : Database) : db.Ahead db :=
  ⟨le_rfl, le_rfl, le_rfl⟩

theorem Database.Ahead.trans {first second third : Database}
    (one : first.Ahead second) (two : second.Ahead third) :
    first.Ahead third :=
  ⟨one.users.trans two.users, one.groups.trans two.groups,
    one.memberships.trans two.memberships⟩

/-- Names and ids are keys of the groups, and the sequence is ahead of them. -/
structure GroupsSound (groups : List GroupRow) (next : ℤ) : Prop where
  names : (groups.map GroupRow.name).Nodup
  ids : (groups.map GroupRow.id).Nodup
  sequence : ∀ group ∈ groups, group.id < next

/-- The groups that a connection sees are sound. -/
def Session.Sound (s : Session) : Prop :=
  GroupsSound s.view.groups s.db.nextGroup

def Committed (side : Side) (log : List Event) : Prop :=
  ∃ before pending, .committed side before pending ∈ log

/-- The caller read the memberships after the other one had committed. -/
def ReadsAfter (side : Side) (log : List Event) : Prop :=
  Committed side.other (log.takeWhile fun event => event ≠ .selected side)

/-- What happens between two statements of the open transaction of `side`. -/
structure Beside (side : Side) (s s' : Session) : Prop where
  pending : s'.pending = s.pending
  users : s'.db.users = s.db.users
  groups : s.db.groups <+: s'.db.groups
  sound : s.Sound → s'.Sound
  sequences : s.db.Ahead s'.db
  log : s.log <+: s'.log
  own : ∀ event ∈ s'.log, event.side = side → event ∈ s.log
  memberships : Committed side.other s.log ∨ ¬ Committed side.other s'.log →
    s'.db.memberships = s.db.memberships

abbrev Tables : Type :=
  List UserRow × List GroupRow × List MembershipRow

/-- The rows that only a commit changes. -/
def Database.tables (db : Database) : Tables :=
  (db.users, db.groups, db.memberships)

def rowsOf (user : ℤ) (memberships : List MembershipRow) :
    List MembershipRow :=
  memberships.filter fun row => row.userId = user

theorem mem_groupIds {user groupId : ℤ} {memberships : List MembershipRow} :
    groupId ∈ (rowsOf user memberships).map MembershipRow.groupId ↔
      ∃ row ∈ memberships, row.userId = user ∧ row.groupId = groupId := by
  simp [rowsOf, and_assoc]

theorem GroupsSound.sublist {groups groups' : List GroupRow} {next next' : ℤ}
    (sublist : groups'.Sublist groups) (ahead : next ≤ next')
    (sound : GroupsSound groups next) : GroupsSound groups' next' where
  names := sound.names.sublist (sublist.map _)
  ids := sound.ids.sublist (sublist.map _)
  sequence := by
    intro group member
    exact (sound.sequence group (sublist.subset member)).trans_le ahead

theorem GroupsSound.perm {groups groups' : List GroupRow} {next : ℤ}
    (perm : groups.Perm groups') (sound : GroupsSound groups next) :
    GroupsSound groups' next where
  names := (perm.map _).nodup_iff.mp sound.names
  ids := (perm.map _).nodup_iff.mp sound.ids
  sequence := fun group member =>
    sound.sequence group (perm.mem_iff.mpr member)

/-- A group with a fresh id and a new name keeps the keys. -/
theorem GroupsSound.append {groups : List GroupRow} {next : ℤ}
    {group : GroupRow} (absent : group.name ∉ groups.map GroupRow.name)
    (fresh : next ≤ group.id) (sound : GroupsSound groups next) :
    GroupsSound (groups ++ [group]) (group.id + 1) where
  names := by
    rw [List.map_append]
    apply sound.names.append (List.nodup_singleton _)
    simpa using absent
  ids := by
    rw [List.map_append]
    apply sound.ids.append (List.nodup_singleton _)
    rw [List.disjoint_singleton]
    intro taken
    obtain ⟨other, member, same⟩ := List.mem_map.mp taken
    have below := sound.sequence other member
    omega
  sequence := by
    intro other member
    rcases List.mem_append.mp member with old | new
    · have below := sound.sequence other old
      omega
    · rw [List.mem_singleton.mp new]
      omega

theorem Committed.mono {side : Side} {log log' : List Event}
    (grows : log <+: log') (committed : Committed side log) :
    Committed side log' := by
  obtain ⟨before, pending, member⟩ := committed
  exact ⟨before, pending, grows.subset member⟩

theorem ReadsAfter.committed {side : Side} {log : List Event}
    (reads : ReadsAfter side log) : Committed side.other log := by
  obtain ⟨before, pending, member⟩ := reads
  exact ⟨before, pending, (List.takeWhile_sublist _).subset member⟩

theorem readsAfter_of_earlier {side : Side} {log log' : List Event}
    (grows : log <+: log') (read : .selected side ∈ log) :
    ReadsAfter side log' ↔ ReadsAfter side log := by
  obtain ⟨later, rfl⟩ := grows
  rw [ReadsAfter, ReadsAfter, List.takeWhile_append]
  have shorter : (log.takeWhile fun event =>
      decide (event ≠ .selected side)).length ≠ log.length := by
    intro same
    have whole : log.takeWhile (fun event =>
        decide (event ≠ .selected side)) = log :=
      (List.takeWhile_sublist _).eq_of_length same
    have all := List.mem_takeWhile_imp (whole ▸ read)
    simp at all
  rw [if_neg shorter]

theorem readsAfter_of_unread {side : Side} {log : List Event}
    (unread : .selected side ∉ log) (later : List Event) :
    ReadsAfter side (log ++ .selected side :: later) ↔
      Committed side.other log := by
  have whole : (log ++ Event.selected side :: later).takeWhile
      (fun event => decide (event ≠ .selected side)) = log := by
    rw [List.takeWhile_append_of_pos]
    · simp
    · intro event member
      apply decide_eq_true
      rintro rfl
      exact unread member
  rw [ReadsAfter, whole]

section Statements

variable {side : Side} {conditions : Conditions} {s after : Session}
  {pending : Pending}

theorem view_users (inside : s.pending = some pending) :
    s.view.users = s.db.users ++ pending.users := by
  simp [Session.view, Session.pendingOrEmpty, inside, Database.overlay]

theorem view_groups (inside : s.pending = some pending) :
    s.view.groups = s.db.groups ++ pending.groups := by
  simp [Session.view, Session.pendingOrEmpty, inside, Database.overlay]

theorem view_memberships (inside : s.pending = some pending) :
    s.view.memberships =
      s.db.memberships.filter (fun row => row.id ∉ pending.deleted) ++
        pending.inserted := by
  simp [Session.view, Session.pendingOrEmpty, inside, Database.overlay]

theorem nextval_le {next id : ℤ} {gap : ℕ}
    (drawn : nextval next gap = .ok id) : next ≤ id := by
  rw [nextval] at drawn
  split at drawn
  · cases drawn
  · cases drawn
    omega

theorem insertUser_ok (inside : s.pending = some pending) {subject : String}
    {email : Option String} {user : UserRow}
    (inserted : s.insertUser conditions subject email = .ok (user, after)) :
    s.db.nextUser ≤ user.id ∧ after = { s with
      db := { s.db with nextUser := user.id + 1 }
      pending := some { pending with users := pending.users ++ [user] } } := by
  rw [Session.insertUser] at inserted
  cases drawn : nextval s.db.nextUser conditions.gap with
  | error error => simp [drawn, bind, Except.bind] at inserted
  | ok id =>
      simp only [drawn, bind, Except.bind] at inserted
      split at inserted
      · cases inserted
      · simp only [pure, Except.pure, Except.ok.injEq, Prod.mk.injEq,
          Session.pendingOrEmpty, inside, Option.getD_some] at inserted
        obtain ⟨rfl, rfl⟩ := inserted
        exact ⟨nextval_le drawn, by simp [Session.write]⟩

/-- A new group has a fresh id and a name that was not visible. -/
theorem insertGroup_ok (inside : s.pending = some pending) {name : String}
    {group : GroupRow}
    (inserted : s.insertGroup conditions name = .ok (group, after)) :
    group.name = name ∧ name ∉ s.view.groups.map GroupRow.name ∧
      s.db.nextGroup ≤ group.id ∧
      after = { s with
        db := { s.db with nextGroup := group.id + 1 }
        pending := some { pending with
          groups := pending.groups ++ [group] } } := by
  rw [Session.insertGroup] at inserted
  cases drawn : nextval s.db.nextGroup conditions.gap with
  | error error => simp [drawn, bind, Except.bind] at inserted
  | ok id =>
      have bound := nextval_le drawn
      simp only [drawn, bind, Except.bind] at inserted
      split at inserted
      · cases inserted
      · rename_i absent
        simp only [pure, Except.pure, Except.ok.injEq, Prod.mk.injEq,
          Session.pendingOrEmpty, inside, Option.getD_some] at inserted
        obtain ⟨rfl, rfl⟩ := inserted
        refine ⟨rfl, ?_, bound, ?_⟩
        · simpa using absent
        · simp [Session.write]

/-- A membership is inserted with a fresh id, unless its pair is visible. -/
theorem insertMembership_ok (inside : s.pending = some pending)
    {user groupId : ℤ}
    (inserted : s.insertMembership conditions user groupId = .ok after) :
    (after = s ∧ ∃ row ∈ s.view.memberships,
      row.userId = user ∧ row.groupId = groupId) ∨
    ∃ id, s.db.nextMembership ≤ id ∧
      (∀ row ∈ s.view.memberships,
        ¬ (row.userId = user ∧ row.groupId = groupId)) ∧
      user ∈ s.view.users.map UserRow.id ∧
      after = { s with
        db := { s.db with nextMembership := id + 1 }
        pending := some { pending with
          inserted := pending.inserted ++ [⟨id, user, groupId⟩] } } := by
  rw [Session.insertMembership] at inserted
  cases drawn : nextval s.db.nextMembership conditions.gap with
  | error error => simp [drawn, bind, Except.bind] at inserted
  | ok id =>
      have bound := nextval_le drawn
      simp only [drawn, bind, Except.bind, pure, Except.pure] at inserted
      split at inserted
      · rename_i visible
        apply Or.inl
        refine ⟨(Except.ok.inj inserted).symm, ?_⟩
        simpa using visible
      · rename_i absent
        split at inserted
        · cases inserted
        · rename_i known
          split at inserted
          · cases inserted
          · apply Or.inr
            refine ⟨id, bound, by simpa using absent, by simpa using known, ?_⟩
            rw [← Except.ok.inj inserted]
            simp [Session.write, Session.pendingOrEmpty, inside]

theorem perform_deleteMembership (inside : s.pending = some pending) {id : ℤ}
    {reply : (Statement.deleteMembership id).Reply}
    (performed : s.perform side conditions (.deleteMembership id) =
      .ok (reply, after)) :
    after = { s with
      pending := some { pending with
        deleted := id :: pending.deleted
        inserted := pending.inserted.filter fun row => row.id ≠ id } } := by
  have same : s.deleteMembership id = after :=
    congrArg Prod.snd (Except.ok.inj performed)
  rw [← same]
  simp [Session.deleteMembership, Session.write, Session.pendingOrEmpty,
    inside]

theorem perform_insertMembership {user groupId : ℤ}
    {reply : (Statement.insertMembership user groupId).Reply}
    (performed : s.perform side conditions (.insertMembership user groupId) =
      .ok (reply, after)) :
    s.insertMembership conditions user groupId = .ok after := by
  rw [Session.perform] at performed
  cases inserted : s.insertMembership conditions user groupId with
  | error error => simp [inserted, Except.map] at performed
  | ok other =>
      rw [inserted] at performed
      have same : other = after := congrArg Prod.snd (Except.ok.inj performed)
      rw [same]

/-- Inside a transaction, only a commit changes the rows. -/
structure Quiet (side : Side) (s s' : Session) : Prop where
  uncommitted : ¬ Committed side s.log
  tables : s'.db.tables = s.db.tables
  sequences : s.db.Ahead s'.db
  log : s'.log = s.log ∨ s'.log = s.log ++ [.selected side]

theorem exec_quiet (inside : s.pending = some pending)
    (uncommitted : ¬ Committed side s.log) (conditions : Conditions)
    {request : Statement} (notCommit : request ≠ .commit) :
    Quiet side s (exec side conditions s request).2 := by
  have same : Quiet side s s :=
    ⟨uncommitted, rfl, .refl _, Or.inl rfl⟩
  cases result : exec side conditions s request with
  | mk answer after =>
      cases answer with
      | error error =>
          obtain rfl := exec_error result
          exact same
      | ok reply =>
          have performed := exec_ok result
          cases request with
          | commit => exact (notCommit rfl).elim
          | begin =>
              cases performed
              exact ⟨uncommitted, rfl, .refl _, Or.inl rfl⟩
          | rollback =>
              cases performed
              exact ⟨uncommitted, rfl, .refl _, Or.inl rfl⟩
          | selectUser subject =>
              cases performed
              exact same
          | insertUser subject email =>
              obtain ⟨drawn, rfl⟩ := insertUser_ok inside performed
              have ahead := drawn.trans (Int.lt_succ _).le
              exact ⟨uncommitted, rfl, ⟨ahead, le_rfl, le_rfl⟩, Or.inl rfl⟩
          | selectGroup name =>
              cases performed
              exact same
          | insertGroup name =>
              obtain ⟨_, _, drawn, rfl⟩ := insertGroup_ok inside performed
              have ahead := drawn.trans (Int.lt_succ _).le
              exact ⟨uncommitted, rfl, ⟨le_rfl, ahead, le_rfl⟩, Or.inl rfl⟩
          | selectMemberships user =>
              cases performed
              exact ⟨uncommitted, rfl, .refl _, Or.inr rfl⟩
          | selectMembership user groupId =>
              cases performed
              exact same
          | deleteMembership id =>
              obtain rfl := perform_deleteMembership inside performed
              exact ⟨uncommitted, rfl, .refl _, Or.inl rfl⟩
          | insertMembership user groupId =>
              have inserted := perform_insertMembership performed
              rcases insertMembership_ok inside inserted with
                ⟨rfl, _⟩ | ⟨id, drawn, _, _, rfl⟩
              · exact same
              · have ahead := drawn.trans (Int.lt_succ _).le
                exact ⟨uncommitted, rfl, ⟨le_rfl, le_rfl, ahead⟩, Or.inl rfl⟩

end Statements

/-- What surrounds a call of `side`: what other connections do, what the call
guarantees, and a property of the rows that the others keep. -/
structure Surroundings (side : Side) (rely guar : Session → Session → Prop)
    (frame : Tables → Prop) : Prop where
  refl : ∀ s, rely s s
  trans : ∀ {a b c}, rely a b → rely b c → rely a c
  beside : ∀ {s s'}, rely s s' → Beside side s s'
  stable : ∀ {s s'}, rely s s' → frame s.db.tables → frame s'.db.tables
  quiet : ∀ {s s'}, Quiet side s s' → guar s s'

/-- An open transaction of `side` that began on the rows of `base` and has
created groups among `names`. -/
structure Open (side : Side) (base : Database) (names : List String)
    (frame : Tables → Prop)
    (s : Session) (pending : Pending) : Prop where
  inside : s.pending = some pending
  frame : frame s.db.tables
  users : s.db.users = base.users
  alone : pending.users = []
  groups : base.groups <+: s.db.groups
  created : ∀ group ∈ pending.groups,
    group.name ∈ names ∧ group.name ∉ base.groups.map GroupRow.name
  sound : s.Sound
  sequences : base.Ahead s.db
  uncommitted : ¬ Committed side s.log
  initial : ¬ Committed side.other s.log → s.db.memberships = base.memberships

variable {side : Side} {rely guar : Session → Session → Prop}
  {frame : Tables → Prop}
  {base : Database} {names : List String} {s s' : Session} {pending : Pending}

theorem Beside.uncommitted (beside : Beside side s s')
    (uncommitted : ¬ Committed side s.log) : ¬ Committed side s'.log := by
  intro committed
  obtain ⟨before, other, member⟩ := committed
  exact uncommitted ⟨before, other, beside.own _ member rfl⟩

theorem Beside.view_groups_subset (beside : Beside side s s')
    (inside : s.pending = some pending) :
    s.view.groups ⊆ s'.view.groups := by
  have inside' : s'.pending = some pending := beside.pending.trans inside
  rw [view_groups inside, view_groups inside']
  intro group member
  rcases List.mem_append.mp member with old | own
  · exact List.mem_append_left _ (beside.groups.subset old)
  · exact List.mem_append_right _ own

theorem Open.beside (beside : Beside side s s')
    (keeps : frame s.db.tables → frame s'.db.tables)
    (opened : Open side base names frame s pending) :
    Open side base names frame s' pending where
  inside := beside.pending.trans opened.inside
  frame := keeps opened.frame
  users := beside.users.trans opened.users
  alone := opened.alone
  groups := opened.groups.trans beside.groups
  created := opened.created
  sound := beside.sound opened.sound
  sequences := opened.sequences.trans beside.sequences
  uncommitted := beside.uncommitted opened.uncommitted
  initial := by
    intro alone
    rw [beside.memberships (Or.inr alone)]
    apply opened.initial
    intro committed
    exact alone (committed.mono beside.log)

end MiryadCore.Users
