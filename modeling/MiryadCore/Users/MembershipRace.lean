import MiryadCore.Users.ReconciliationCall

/-!
# Two reconciliations of one user, statement by statement

The two calls share the committed rows.  A statement that needs a row that the
other transaction has written waits for its end, as the locks of the database
make it; every other statement may come at any moment.
-/

namespace MiryadCore.Users

/-- A call under way: the statements to come, and its transaction. -/
structure Call where
  script : Db Unit
  pending : Option Pending

structure Race where
  db : Database
  log : List Event
  left : Call
  right : Call

namespace Race

def call (race : Race) : Side → Call
  | .left => race.left
  | .right => race.right

def session (race : Race) (side : Side) : Session :=
  { db := race.db, pending := (race.call side).pending, log := race.log }

def update (race : Race) (side : Side) (script : Db Unit)
    (session : Session) : Race :=
  let call : Call := { script, pending := session.pending }
  match side with
  | .left => { race with db := session.db, log := session.log, left := call }
  | .right => { race with db := session.db, log := session.log, right := call }

/-- The statement waits for a row that the other transaction has written. -/
def blocked (race : Race) (side : Side) (request : Statement) : Bool :=
  let other := (race.session side.other).pendingOrEmpty
  match request with
  | .insertGroup name => other.groups.any fun group => group.name = name
  | .deleteMembership id => id ∈ other.deleted
  | .insertMembership userId groupId =>
      (other.inserted ++
        race.db.memberships.filter fun row => row.id ∈ other.deleted).any
          fun row => row.userId = userId ∧ row.groupId = groupId
  | _ => false

/-- One statement of `side`, under conditions that the database decides.  A
statement that waits may be refused, as when the two calls wait for each
other. -/
def step (race : Race) : Side × Conditions → Race
  | (side, conditions) =>
      match (race.call side).script with
      | .done _ => race
      | .call request next =>
          if conditions.fault.isNone && race.blocked side request then
            race
          else
            let result := exec side conditions (race.session side) request
            race.update side (next result.1) result.2

def run (schedule : List (Side × Conditions)) (race : Race) : Race :=
  schedule.foldl step race

/-- A call of each claim, and nothing done. -/
def start (db : Database) (user : ℤ) (claim : Side → List String) : Race where
  db := db
  log := []
  left := ⟨syncGroupMemberships user (claim .left), none⟩
  right := ⟨syncGroupMemberships user (claim .right), none⟩

/-- The answer of a call that is over. -/
def answer (race : Race) (side : Side) : Option (Except DbErr Unit) :=
  match (race.call side).script with
  | .done result => some result
  | .call _ _ => none

variable {race : Race} {side : Side} {script : Db Unit} {s : Session}

theorem session_update : (race.update side script s).session side = s := by
  cases side
  · rfl
  · rfl

theorem call_update :
    ((race.update side script s).call side).script = script := by
  cases side
  · rfl
  · rfl

theorem db_update : (race.update side script s).db = s.db := by
  cases side
  · rfl
  · rfl

theorem log_update : (race.update side script s).log = s.log := by
  cases side
  · rfl
  · rfl

theorem other_call_update :
    (race.update side script s).call side.other = race.call side.other := by
  cases side
  · rfl
  · rfl

theorem other_session_update :
    (race.update side script s).session side.other =
      { db := s.db, pending := (race.session side.other).pending,
        log := s.log } := by
  cases side
  · rfl
  · rfl

end Race

section Groups

variable {side : Side} {conditions : Conditions} {s after : Session}

theorem view_groups_eq (s : Session) :
    s.view.groups = s.db.groups ++ s.pendingOrEmpty.groups := rfl

theorem write_groups (s : Session) (pending : Pending) :
    (s.write pending).view.groups = s.db.groups ++ pending.groups ∧
      (s.write pending).db.nextGroup = s.db.nextGroup := by
  cases inside : s.pending with
  | some _ =>
      simp [Session.write, inside, view_groups_eq, Session.pendingOrEmpty]
  | none =>
      simp [Session.write, inside, view_groups_eq, Session.pendingOrEmpty,
        Database.overlay, Pending.empty]

/-- What a statement may do to the groups that its caller sees. -/
inductive GroupsChange (s : Session) (request : Statement) (s' : Session) :
    Prop
  | fewer (sublist : s'.view.groups.Sublist s.view.groups)
      (ahead : s.db.nextGroup ≤ s'.db.nextGroup)
  | created (group : GroupRow) (asked : request = .insertGroup group.name)
      (absent : group.name ∉ s.view.groups.map GroupRow.name)
      (fresh : s.db.nextGroup ≤ group.id)
      (visible : s'.view.groups = s.view.groups ++ [group])
      (ahead : s'.db.nextGroup = group.id + 1)

theorem insertGroup_groups {name : String} {group : GroupRow}
    (inserted : s.insertGroup conditions name = .ok (group, after)) :
    GroupsChange s (.insertGroup name) after := by
  rw [Session.insertGroup] at inserted
  cases drawn : nextval s.db.nextGroup conditions.gap with
  | error error => simp [drawn, bind, Except.bind] at inserted
  | ok id =>
      have bound := nextval_le drawn
      simp only [drawn, bind, Except.bind] at inserted
      split at inserted
      · cases inserted
      · rename_i absent
        simp only [pure, Except.pure, Except.ok.injEq, Prod.mk.injEq]
          at inserted
        obtain ⟨rfl, rfl⟩ := inserted
        obtain ⟨visible, ahead⟩ := write_groups
          { s with db := { s.db with nextGroup := id + 1 } }
          { s.pendingOrEmpty with
            groups := s.pendingOrEmpty.groups ++ [⟨id, name, conditions.now⟩] }
        apply GroupsChange.created ⟨id, name, conditions.now⟩ rfl
        · simpa using absent
        · exact bound
        · rw [visible, view_groups_eq, List.append_assoc]
        · exact ahead

theorem insertMembership_groups {user groupId : ℤ}
    (inserted : s.insertMembership conditions user groupId = .ok after) :
    after.view.groups = s.view.groups ∧
      after.db.nextGroup = s.db.nextGroup := by
  rw [Session.insertMembership] at inserted
  cases drawn : nextval s.db.nextMembership conditions.gap with
  | error error => simp [drawn, bind, Except.bind] at inserted
  | ok id =>
      simp only [drawn, bind, Except.bind, pure, Except.pure] at inserted
      split at inserted
      · rw [← Except.ok.inj inserted]
        exact ⟨rfl, rfl⟩
      · split at inserted
        · cases inserted
        · split at inserted
          · cases inserted
          · rw [← Except.ok.inj inserted]
            exact write_groups
              { s with db := { s.db with nextMembership := id + 1 } } _

theorem insertUser_groups {subject : String} {email : Option String}
    {user : UserRow}
    (inserted : s.insertUser conditions subject email = .ok (user, after)) :
    after.view.groups = s.view.groups ∧
      after.db.nextGroup = s.db.nextGroup := by
  rw [Session.insertUser] at inserted
  cases drawn : nextval s.db.nextUser conditions.gap with
  | error error => simp [drawn, bind, Except.bind] at inserted
  | ok id =>
      simp only [drawn, bind, Except.bind] at inserted
      split at inserted
      · cases inserted
      · simp only [pure, Except.pure, Except.ok.injEq, Prod.mk.injEq]
          at inserted
        obtain ⟨rfl, rfl⟩ := inserted
        exact write_groups
          { s with db := { s.db with nextUser := id + 1 } } _

theorem exec_groups (side : Side) (conditions : Conditions) (s : Session)
    (request : Statement) :
    GroupsChange s request (exec side conditions s request).2 := by
  have same : GroupsChange s request s := .fewer (List.Sublist.refl _) le_rfl
  cases result : exec side conditions s request with
  | mk answer after =>
      cases answer with
      | error error =>
          obtain rfl := exec_error result
          exact same
      | ok reply =>
          have performed := exec_ok result
          cases request with
          | begin =>
              cases performed
              apply GroupsChange.fewer
              · simp [view_groups_eq, Session.pendingOrEmpty, Pending.empty]
              · exact le_rfl
          | commit =>
              cases performed
              apply GroupsChange.fewer
              · simp [view_groups_eq, Session.pendingOrEmpty, Pending.empty,
                  Session.record]
              · exact le_rfl
          | rollback =>
              cases performed
              apply GroupsChange.fewer
              · simp [view_groups_eq, Session.pendingOrEmpty, Pending.empty]
              · exact le_rfl
          | selectUser subject =>
              cases performed
              exact same
          | insertUser subject email =>
              obtain ⟨visible, ahead⟩ := insertUser_groups performed
              apply GroupsChange.fewer
              · rw [visible]
              · exact ahead.ge
          | selectGroup name =>
              cases performed
              exact same
          | insertGroup name => exact insertGroup_groups performed
          | selectMemberships user =>
              cases performed
              exact .fewer (List.Sublist.refl _) le_rfl
          | selectMembership user groupId =>
              cases performed
              exact same
          | deleteMembership id =>
              have same : s.deleteMembership id = after :=
                congrArg Prod.snd (Except.ok.inj performed)
              obtain ⟨visible, ahead⟩ := write_groups s
                { s.pendingOrEmpty with
                  deleted := id :: s.pendingOrEmpty.deleted
                  inserted := s.pendingOrEmpty.inserted.filter fun row =>
                    row.id ≠ id }
              rw [← same]
              apply GroupsChange.fewer
              · rw [Session.deleteMembership, visible]
                exact List.Sublist.refl _
              · exact ahead.ge
          | insertMembership user groupId =>
              obtain ⟨visible, ahead⟩ :=
                insertMembership_groups (perform_insertMembership performed)
              apply GroupsChange.fewer
              · rw [visible]
              · exact ahead.ge

end Groups

theorem Beside.refl (side : Side) (s : Session) : Beside side s s where
  pending := rfl
  users := rfl
  groups := List.prefix_rfl
  sound := id
  sequences := .refl _
  log := List.prefix_rfl
  own := fun _ member _ => member
  memberships := fun _ => rfl

theorem Beside.trans {side : Side} {a b c : Session}
    (first : Beside side a b) (second : Beside side b c) :
    Beside side a c where
  pending := second.pending.trans first.pending
  users := second.users.trans first.users
  groups := first.groups.trans second.groups
  sound := fun sound => second.sound (first.sound sound)
  sequences := first.sequences.trans second.sequences
  log := first.log.trans second.log
  own := fun event member same =>
    first.own event (second.own event member same) same
  memberships := by
    intro concluded
    rcases concluded with committed | alone
    · have later := committed.mono first.log
      rw [second.memberships (Or.inl later),
        first.memberships (Or.inl committed)]
    · rw [second.memberships (Or.inr alone)]
      apply first.memberships
      apply Or.inr
      intro committed
      exact alone (committed.mono second.log)

/-- The transaction of `side` is ready to commit what its claim asks. -/
def Committing (base : Database) (user : ℤ) (claim : Side → List String)
    (side : Side) (s : Session) : Prop :=
  ∃ ids current pending, Reconciled
    ⟨side, base, wantedNames (claim side), user, ids, current⟩
    (fun _ => True) s pending

/-- Each statement of a call is quiet, but for a commit of what it asks. -/
def Guaranteed (base : Database) (user : ℤ) (claim : Side → List String)
    (side : Side) (s s' : Session) : Prop :=
  Quiet side s s' ∨
    Committing base user claim side s ∧ s' = s.committed side

theorem Surroundings.race (base : Database) (user : ℤ)
    (claim : Side → List String) (side : Side) :
    Surroundings side (Beside side) (Guaranteed base user claim side)
      (fun _ => True) where
  refl := Beside.refl side
  trans := Beside.trans
  beside := id
  stable := fun _ => id
  quiet := Or.inl

theorem committed_append {side : Side} {log : List Event} {event : Event} :
    Committed side (log ++ [event]) ↔
      Committed side log ∨
        ∃ before pending, event = .committed side before pending := by
  constructor
  · intro committed
    obtain ⟨before, pending, member⟩ := committed
    rcases List.mem_append.mp member with old | new
    · exact Or.inl ⟨before, pending, old⟩
    · exact Or.inr ⟨before, pending, (List.mem_singleton.mp new).symm⟩
  · intro committed
    rcases committed with old | ⟨before, pending, rfl⟩
    · exact old.mono (List.prefix_append _ _)
    · exact ⟨before, pending, by simp⟩

theorem committed_committed {side side' : Side} {s : Session} :
    Committed side' (s.committed side).log ↔
      Committed side' s.log ∨ side' = side := by
  rw [Session.committed, Session.record, committed_append]
  apply or_congr_right
  constructor
  · intro same
    obtain ⟨before, pending, same⟩ := same
    cases same
    rfl
  · intro same
    subst same
    exact ⟨_, _, rfl⟩

theorem Quiet.committed {side side' : Side} {s s' : Session}
    (quiet : Quiet side s s') :
    Committed side' s'.log ↔ Committed side' s.log := by
  rcases quiet.log with same | read
  · rw [same]
  · rw [read, committed_append]
    simp

theorem Quiet.grows {side : Side} {s s' : Session} (quiet : Quiet side s s') :
    s.log <+: s'.log := by
  rcases quiet.log with same | read
  · rw [same]
  · rw [read]
    exact List.prefix_append _ _

/-- The commits so far, each by a call that had reconciled, and the rows that
they left. -/
inductive History (base : Database) (user : ℤ) (claim : Side → List String)
    (db : Database) (log : List Event) : Prop
  | untouched (alone : ∀ side, ¬ Committed side log)
      (same : db.memberships = base.memberships)
  | once (side : Side) (first : Session)
      (committing : Committing base user claim side first)
      (alone : ∀ side, ¬ Committed side first.log)
      (committed : Committed side log)
      (waiting : ¬ Committed side.other log)
      (grown : first.log <+: log)
      (groups : first.view.groups ⊆ db.groups)
      (moved : db.memberships = first.view.memberships)
  | twice (side : Side) (first second : Session)
      (committing : Committing base user claim side first)
      (committing' : Committing base user claim side.other second)
      (alone : ∀ side, ¬ Committed side first.log)
      (committed : ∀ side, Committed side log)
      (before : first.log <+: log) (grown : second.log <+: log)
      (groups : first.view.groups ⊆ second.db.groups)
      (groups' : second.view.groups ⊆ db.groups)
      (moved : second.db.memberships = first.view.memberships)
      (moved' : db.memberships = second.view.memberships)

variable {base : Database} {user : ℤ} {claim : Side → List String}
  {side : Side} {s s' : Session}

theorem other_other (side : Side) : side.other.other = side := by
  cases side
  · rfl
  · rfl

theorem other_ne (side : Side) : side.other ≠ side := by
  cases side
  · decide
  · decide

theorem eq_or_other (side side' : Side) : side' = side ∨ side' = side.other := by
  cases side
  · cases side'
    · exact Or.inl rfl
    · exact Or.inr rfl
  · cases side'
    · exact Or.inr rfl
    · exact Or.inl rfl

theorem History.quiet (quiet : Quiet side s s')
    (history : History base user claim s.db s.log) :
    History base user claim s'.db s'.log := by
  have tables := quiet.tables
  simp only [Database.tables, Prod.mk.injEq] at tables
  obtain ⟨_, groups, memberships⟩ := tables
  cases history with
  | untouched alone same =>
      apply History.untouched
      · intro side
        rw [quiet.committed]
        exact alone side
      · rw [memberships, same]
  | once side' first committing alone committed waiting grown old moved =>
      apply History.once side' first committing alone
      case committed => exact quiet.committed.mpr committed
      case waiting =>
        rw [quiet.committed]
        exact waiting
      case grown => exact grown.trans quiet.grows
      case groups =>
        rw [groups]
        exact old
      case moved => rw [memberships, moved]
  | twice side' first second committing committing' alone committed before
      grown old old' moved moved' =>
      apply History.twice side' first second committing committing' alone
      case committed => exact fun side => quiet.committed.mpr (committed side)
      case before => exact before.trans quiet.grows
      case grown => exact grown.trans quiet.grows
      case groups => exact old
      case groups' =>
        rw [groups]
        exact old'
      case moved => exact moved
      case moved' => rw [memberships, moved']

theorem Committing.uncommitted (committing : Committing base user claim side s) :
    ¬ Committed side s.log := by
  obtain ⟨_, _, _, reconciled⟩ := committing
  exact reconciled.decided.opened.uncommitted

theorem History.commit (committing : Committing base user claim side s)
    (history : History base user claim s.db s.log) :
    History base user claim (s.committed side).db (s.committed side).log := by
  have grown : s.log <+: (s.committed side).log := List.prefix_append _ _
  cases history with
  | untouched alone same =>
      apply History.once side s committing alone
      case committed => exact committed_committed.mpr (Or.inr rfl)
      case waiting =>
        rw [committed_committed]
        intro concluded
        rcases concluded with old | own
        · exact alone _ old
        · exact other_ne side own
      case grown => exact grown
      case groups => exact List.Subset.refl _
      case moved => rfl
  | once side' first committing' alone committed waiting before old moved =>
      obtain rfl : side = side'.other := by
        rcases eq_or_other side' side with same | other
        · subst same
          exact (committing.uncommitted committed).elim
        · exact other
      apply History.twice side' first s committing' committing alone
      case committed =>
        intro side
        rw [committed_committed]
        rcases eq_or_other side' side with same | other
        · subst same
          exact Or.inl committed
        · exact Or.inr other
      case before => exact before.trans grown
      case grown => exact grown
      case groups => exact old
      case groups' => exact List.Subset.refl _
      case moved => exact moved
      case moved' => rfl
  | twice side' first second _ _ _ committed =>
      exact (committing.uncommitted (committed side)).elim

theorem History.step (guaranteed : Guaranteed base user claim side s s')
    (history : History base user claim s.db s.log) :
    History base user claim s'.db s'.log := by
  rcases guaranteed with quiet | ⟨committing, rfl⟩
  · exact history.quiet quiet
  · exact history.commit committing

/-- A statement of one call is among what the other one allows. -/
theorem Guaranteed.beside {pending : Option Pending}
    (sound : (⟨s'.db, pending, s'.log⟩ : Session).Sound)
    (guaranteed : Guaranteed base user claim side s s') :
    Beside side.other ⟨s.db, pending, s.log⟩ ⟨s'.db, pending, s'.log⟩ := by
  rcases guaranteed with quiet | ⟨committing, rfl⟩
  · have tables := quiet.tables
    simp only [Database.tables, Prod.mk.injEq] at tables
    obtain ⟨users, groups, memberships⟩ := tables
    constructor
    case pending => rfl
    case users => exact users
    case groups => rw [groups]
    case sound => exact fun _ => sound
    case sequences => exact quiet.sequences
    case log => exact quiet.grows
    case own =>
      intro event member same
      rcases quiet.log with old | read
      · exact old ▸ member
      · rcases List.mem_append.mp (read ▸ member) with old | new
        · exact old
        · rw [List.mem_singleton.mp new] at same
          exact (other_ne side same.symm).elim
    case memberships => exact fun _ => memberships
  · constructor
    case pending => rfl
    case users =>
      obtain ⟨_, _, _, reconciled⟩ := committing
      have opened := reconciled.decided.opened
      change s.view.users = s.db.users
      rw [view_users opened.inside, opened.alone, List.append_nil]
    case groups => exact List.prefix_append _ _
    case sound => exact fun _ => sound
    case sequences => exact ⟨le_rfl, le_rfl, le_rfl⟩
    case log => exact List.prefix_append _ _
    case own =>
      intro event member same
      rcases List.mem_append.mp member with old | new
      · exact old
      · rw [List.mem_singleton.mp new] at same
        exact (other_ne side same.symm).elim
    case memberships =>
      intro concluded
      rw [other_other] at concluded
      rcases concluded with committed | alone
      · exact (committing.uncommitted committed).elim
      · exact (alone (committed_committed.mpr (Or.inr rfl))).elim

namespace Race

/-- The rows of the groups, those that a transaction has created included. -/
def groups (race : Race) (side : Side) : List GroupRow :=
  (race.session side).view.groups ++
    (race.session side.other).pendingOrEmpty.groups

/-- What holds between any two statements of the two calls. -/
structure Safe (base : Database) (user : ℤ) (claim : Side → List String)
    (race : Race) : Prop where
  groups : ∀ side, GroupsSound (race.groups side) race.db.nextGroup
  history : History base user claim race.db race.log
  scripts : ∀ side, Query.Meets (exec side) (Beside side)
    (Guaranteed base user claim side) (race.call side).script
    (fun _ s => Committed side s.log) (fun _ _ => True) (race.session side)

variable {race : Race}

theorem groups_perm (race : Race) (side : Side) :
    (race.groups side).Perm (race.groups side.other) := by
  rw [groups, groups, view_groups_eq, view_groups_eq, other_other]
  change (race.db.groups ++ _ ++ _).Perm (race.db.groups ++ _ ++ _)
  rw [List.append_assoc, List.append_assoc]
  exact List.perm_append_comm.append_left _

theorem groups_of_side (side : Side)
    (sound : GroupsSound (race.groups side) race.db.nextGroup) (side' : Side) :
    GroupsSound (race.groups side') race.db.nextGroup := by
  rcases eq_or_other side side' with rfl | rfl
  · exact sound
  · exact sound.perm (groups_perm race side)

theorem sound_of_groups (side : Side)
    (sound : GroupsSound (race.groups side) race.db.nextGroup) :
    (race.session side).Sound :=
  sound.sublist (List.sublist_append_left _ _) le_rfl

/-- A statement that does not wait keeps the keys of the groups. -/
theorem groups_update {request : Statement} {conditions : Conditions}
    {script : Db Unit}
    (free : conditions.fault.isNone = true → race.blocked side request = false)
    (sound : GroupsSound (race.groups side) race.db.nextGroup) :
    GroupsSound ((race.update side script
        (exec side conditions (race.session side) request).2).groups side)
      (race.update side script
        (exec side conditions (race.session side) request).2).db.nextGroup := by
  rw [groups, session_update, other_session_update, db_update]
  change GroupsSound (_ ++ (race.session side.other).pendingOrEmpty.groups) _
  cases exec_groups side conditions (race.session side) request with
  | fewer sublist ahead => exact sound.sublist (sublist.append_right _) ahead
  | created group asked absent fresh visible ahead =>
      rw [visible, ahead]
      have alone : group.name ∉
          (race.session side.other).pendingOrEmpty.groups.map
            GroupRow.name := by
        subst asked
        cases fault : conditions.fault with
        | some error =>
            simp [exec, fault] at visible
        | none =>
            rw [fault] at free
            simpa [blocked] using free rfl
      have unseen : group.name ∉
          (race.groups side).map GroupRow.name := by
        rw [groups, List.map_append, List.mem_append]
        exact fun member => member.elim absent alone
      apply (sound.append unseen fresh).perm
      rw [groups, List.append_assoc, List.append_assoc]
      exact List.perm_append_comm.append_left _

theorem Safe.update (safe : Safe base user claim race) {script : Db Unit}
    (guaranteed : Guaranteed base user claim side (race.session side) s)
    (groups : GroupsSound ((race.update side script s).groups side)
      (race.update side script s).db.nextGroup)
    (meets : Query.Meets (exec side) (Beside side)
      (Guaranteed base user claim side) script
      (fun _ s => Committed side s.log) (fun _ _ => True) s) :
    Safe base user claim (race.update side script s) where
  groups := groups_of_side side groups
  history := by
    rw [db_update, log_update]
    exact History.step guaranteed safe.history
  scripts := by
    intro side'
    rcases eq_or_other side side' with rfl | rfl
    · rw [call_update, session_update]
      exact meets
    · have sound := sound_of_groups _ (groups_of_side side groups side.other)
      rw [other_session_update] at sound
      rw [other_call_update, other_session_update]
      apply Query.Meets.stable _ (safe.scripts side.other)
        (guaranteed.beside sound)
      exact Beside.trans

theorem Safe.step (safe : Safe base user claim race) (side : Side)
    (conditions : Conditions) :
    Safe base user claim (race.step (side, conditions)) := by
  have meets := safe.scripts side
  rw [Race.step]
  cases script : (race.call side).script with
  | done result => exact safe
  | call request next =>
      dsimp only
      split
      · exact safe
      · rename_i free
        rw [script] at meets
        obtain ⟨guaranteed, rest⟩ := meets (race.session side)
          (Beside.refl side _) conditions
        apply safe.update guaranteed
        · exact groups_update (by simpa using free) (safe.groups side)
        · exact rest

theorem Safe.run (schedule : List (Side × Conditions))
    (safe : Safe base user claim race) :
    Safe base user claim (race.run schedule) := by
  induction schedule generalizing race with
  | nil => exact safe
  | cons moment schedule induction => exact induction (safe.step _ _)

theorem Safe.start (consistent : base.Consistent) (user : ℤ)
    (claim : Side → List String) :
    Safe base user claim (Race.start base user claim) := by
  have sound : GroupsSound base.groups base.nextGroup :=
    ⟨consistent.groupNames, consistent.groupIds, consistent.groupSequence⟩
  have session : ∀ side,
      (Race.start base user claim).session side = .start base := by
    intro side
    cases side
    · rfl
    · rfl
  have script : ∀ side, ((Race.start base user claim).call side).script =
      syncGroupMemberships user (claim side) := by
    intro side
    cases side
    · rfl
    · rfl
  constructor
  case groups =>
    intro side
    rw [Race.groups, session, session, start_view]
    change GroupsSound (base.groups ++ []) base.nextGroup
    rw [List.append_nil]
    exact sound
  case history =>
    apply History.untouched
    · intro side committed
      obtain ⟨_, _, member⟩ := committed
      cases member
    · rfl
  case scripts =>
    intro side
    rw [session, script]
    have meets : Query.Meets (exec side) (Beside side)
        (Guaranteed base user claim side)
        (syncGroupMemberships user (claim side))
        (fun _ s => Committed side s.log) (fun _ _ => True) (.start base) := by
      apply meets_syncGroupMemberships (.race base user claim side)
      case commits =>
        intro s pending ids current reconciled
        exact ⟨Or.inr ⟨⟨ids, current, pending, reconciled⟩, rfl⟩,
          committed_committed.mpr (Or.inr rfl)⟩
      case lasting => exact fun beside committed => committed.mono beside.log
      case idle => exact Idle.start sound trivial
    exact meets

theorem Safe.committed (safe : Safe base user claim race) {side : Side}
    (answered : race.answer side = some (.ok ())) :
    Committed side race.log := by
  have meets := safe.scripts side
  rw [answer] at answered
  cases script : (race.call side).script with
  | call request next => simp [script] at answered
  | done result =>
      rw [script] at meets answered
      obtain rfl := Option.some.inj answered
      exact meets _ (Beside.refl side _)

end Race

end MiryadCore.Users
